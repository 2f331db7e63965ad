import Mathlib.Data.List.Forall2

/-! Lists that are read item by item. All of a list is read exactly if each item is, and what is
read of it are the readings in their order. -/
namespace Orchestration

variable {ε α β : Type}

theorem mapM_eq_some {f : α → Option β} {items : List α} {found : List β} :
    items.mapM f = some found ↔ List.Forall₂ (f · = some ·) items found := by
  induction items generalizing found with
  | nil => cases found <;> simp
  | cons a rest ih =>
    cases found with
    | nil => simp [List.mapM_cons, Option.bind_eq_some_iff]
    | cons b more => simp [List.mapM_cons, Option.bind_eq_some_iff, ih]

theorem bind_eq_ok {x : Except ε α} {f : α → Except ε β} {b : β} :
    (x >>= f) = .ok b ↔ ∃ a, x = .ok a ∧ f a = .ok b := by
  cases x <;> simp [bind, Except.bind]

theorem bind_pure_isOk_iff {x : Except ε α} {f : α → β} :
    (∃ b, (x >>= fun a => pure (f a)) = .ok b) ↔ ∃ a, x = .ok a := by
  cases x <;> simp [bind, Except.bind, pure, Except.pure]

theorem mapM_eq_ok {f : α → Except ε β} {items : List α} {found : List β} :
    items.mapM f = .ok found ↔ List.Forall₂ (f · = .ok ·) items found := by
  induction items generalizing found with
  | nil => cases found <;> simp [pure, Except.pure]
  | cons a rest ih =>
    rw [List.mapM_cons]
    cases found with
    | nil => simp [bind_eq_ok, pure, Except.pure]
    | cons b more => simp [bind_eq_ok, pure, Except.pure, ih]

theorem mapM_isOk_iff {f : α → Except ε β} {items : List α} :
    (∃ found, items.mapM f = .ok found) ↔ ∀ a ∈ items, ∃ b, f a = .ok b := by
  simp only [mapM_eq_ok]
  induction items with
  | nil => simp
  | cons a rest ih =>
    rw [List.forall_mem_cons, ← ih]
    simp [List.forall₂_cons_left_iff]

theorem mapM_through {γ : Type} {read : α → Option β} {f : β → Except ε γ} {g : α → Except ε γ}
    (through : ∀ a c, g a = .ok c ↔ ∃ b, read a = some b ∧ f b = .ok c) {items : List α}
    {found : List γ} :
    items.mapM g = .ok found ↔ ∃ bs, items.mapM read = some bs ∧ bs.mapM f = .ok found := by
  simp only [mapM_eq_ok, mapM_eq_some]
  constructor
  · intro each
    induction each with
    | nil => exact ⟨[], .nil, .nil⟩
    | cons first _ ih =>
      obtain ⟨b, one, two⟩ := (through _ _).mp first
      obtain ⟨bs, ones, twos⟩ := ih
      exact ⟨b :: bs, .cons one ones, .cons two twos⟩
  · rintro ⟨bs, ones, twos⟩
    induction ones generalizing found with
    | nil =>
      cases twos
      exact .nil
    | cons one _ ih =>
      cases twos with
      | cons two more => exact .cons ((through _ _).mpr ⟨_, one, two⟩) (ih more)

end Orchestration
