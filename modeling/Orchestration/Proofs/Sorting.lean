import Mathlib.Data.List.Basic

/-! Sorting and choosing. A sort that leaves equals in their order can be done before or after some
of the items are chosen, and does nothing to those that are equal. -/
namespace Orchestration

/-- A list is parted in one way into what is low and what is not. -/
theorem parted_inj {α : Type} {low : α → Bool} {front back front' back' : List α}
    (same : front ++ back = front' ++ back') (below : ∀ b ∈ front, low b = true)
    (above : ∀ b ∈ back, low b = false) (below' : ∀ b ∈ front', low b = true)
    (above' : ∀ b ∈ back', low b = false) : front = front' ∧ back = back' := by
  have lows (front back : List α) (below : ∀ b ∈ front, low b = true)
      (above : ∀ b ∈ back, low b = false) : (front ++ back).filter low = front := by
    rw [List.filter_append, List.filter_eq_self.mpr below,
      List.filter_eq_nil_iff.mpr fun b member => by simp [above b member], List.append_nil]
  have equal : front = front' := by
    rw [← lows front back below above, same, lows front' back' below' above']
  subst equal
  exact ⟨rfl, List.append_cancel_left same⟩

section Sorting

variable {α : Type} {le : α → α → Bool}
  (trans : ∀ a b c, le a b = true → le b c = true → le a c = true)
  (total : ∀ a b, (le a b || le b a) = true)
include trans total

/-- Equals stay in their order when they are sorted, so it makes no difference whether one sorts
or chooses first. -/
theorem filter_mergeSort (kept : α → Bool) (items : List α) :
    (items.mergeSort le).filter kept = (items.filter kept).mergeSort le := by
  induction items with
  | nil => simp
  | cons a rest ih =>
    have upward {front back items : List α} (sorted : items.mergeSort le = front ++ a :: back) :
        ∀ b ∈ back, (!le a b) = false := by
      intro b member
      have ordered := List.pairwise_mergeSort trans total items
      rw [sorted] at ordered
      rw [(List.pairwise_cons.mp (List.pairwise_append.mp ordered).2.1).1 b member]
      rfl
    obtain ⟨before, after, whole, without, less⟩ := List.mergeSort_cons trans total a rest
    rw [without, List.filter_append] at ih
    rw [whole, List.filter_append, List.filter_cons, List.filter_cons]
    cases keep : kept a with
    | false => simpa using ih
    | true =>
      obtain ⟨before', after', whole', without', less'⟩ :=
        List.mergeSort_cons trans total a (rest.filter kept)
      rw [without'] at ih
      obtain ⟨front, back⟩ := @parted_inj α (fun b => !le a b) _ _ _ _ ih
        (fun b member => less b (List.mem_of_mem_filter member))
        (fun b member => upward whole b (List.mem_of_mem_filter member)) less' (upward whole')
      rw [if_pos rfl, if_pos rfl, whole', front, back]

/-- Where all that are chosen are equal, they are found as they came. -/
theorem filter_mergeSort_of_tied {kept : α → Bool}
    (tied : ∀ a b, kept a = true → kept b = true → le a b = true) (items : List α) :
    (items.mergeSort le).filter kept = items.filter kept := by
  have inOrder : (items.filter kept).Pairwise fun a b => le a b = true := by
    apply List.pairwise_of_forall_mem_list
    intro a left b right
    exact tied a b (List.mem_filter.mp left).2 (List.mem_filter.mp right).2
  rw [filter_mergeSort trans total, List.mergeSort_of_pairwise inOrder]

end Sorting

end Orchestration
