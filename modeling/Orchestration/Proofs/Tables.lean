import Mathlib.Data.List.Nodup
import Mathlib.Data.String.Basic
import Orchestration.Table

/-! Tables as sorted lists. Putting an entry keeps the keys in order and adds one key at most; the
table of a list finds what the list gives, and a table is known by what it finds. The texts of a
list, each once and in order, depend on nothing but what is among them. -/
namespace Orchestration

namespace Table

variable {α : Type}

theorem mem_keys_put {t : Table α} {key other : String} {value : α} :
    other ∈ keys (put t key value) ↔ other = key ∨ other ∈ keys t := by
  induction t with
  | nil => simp [put, keys]
  | cons e rest ih =>
    obtain ⟨k, v⟩ := e
    unfold keys at ih ⊢
    unfold put
    split
    · rename_i same
      simp [same]
    · split
      · simp
      · rw [List.map_cons, List.mem_cons, ih, List.map_cons, List.mem_cons]
        exact or_left_comm

theorem sorted_put {t : Table α} (sorted : Sorted t) (key : String) (value : α) :
    Sorted (put t key value) := by
  induction t with
  | nil => exact List.pairwise_singleton _ _
  | cons e rest ih =>
    obtain ⟨k, v⟩ := e
    obtain ⟨first, more⟩ := List.pairwise_cons.mp sorted
    unfold put
    split
    · rename_i same
      exact List.pairwise_cons.mpr ⟨by simpa [same] using first, more⟩
    · rename_i other
      split
      · rename_i less
        refine List.pairwise_cons.mpr ⟨fun e member => ?_, sorted⟩
        rcases List.mem_cons.mp member with rfl | later
        · exact less
        · exact String.lt_trans less (first e later)
      · rename_i notLess
        refine List.pairwise_cons.mpr ⟨fun e member => ?_, ih more⟩
        have named : e.1 ∈ keys (put rest key value) := List.mem_map_of_mem member
        rcases mem_keys_put.mp named with here | later
        · rw [here]
          exact lt_of_le_of_ne (not_lt.mp notLess) (Ne.symm other)
        · obtain ⟨e', inside, same⟩ := List.mem_map.mp later
          rw [← same]
          exact first e' inside

theorem mem_keys_iff {t : Table α} {key : String} : key ∈ keys t ↔ contains t key = true := by
  induction t with
  | nil => simp [keys, contains]
  | cons e rest ih =>
    obtain ⟨k, v⟩ := e
    unfold contains at ih ⊢
    unfold keys at ih ⊢
    rw [List.map_cons, List.mem_cons, get?_cons]
    by_cases same : key = k
    · simp [same]
    · simp [same, ih]

theorem sorted_foldl (entries : List (String × α)) {t : Table α} (sorted : Sorted t) :
    Sorted (entries.foldl (fun t e => put t e.1 e.2) t) := by
  induction entries generalizing t with
  | nil => exact sorted
  | cons e rest ih => exact ih (sorted_put sorted e.1 e.2)

theorem sorted_ofList (entries : List (String × α)) : Sorted (ofList entries) :=
  sorted_foldl entries .nil

theorem mem_put {t : Table α} {key : String} {value : α} {e : String × α}
    (member : e ∈ put t key value) : e = (key, value) ∨ e ∈ t := by
  induction t with
  | nil => exact .inl (List.mem_singleton.mp member)
  | cons first rest ih =>
    obtain ⟨k, v⟩ := first
    unfold put at member
    split at member
    · exact (List.mem_cons.mp member).imp_right (List.mem_cons_of_mem _)
    · split at member
      · exact List.mem_cons.mp member
      · rcases List.mem_cons.mp member with rfl | later
        · exact .inr List.mem_cons_self
        · exact (ih later).imp_right (List.mem_cons_of_mem _)

theorem mem_foldl_put {entries : List (String × α)} {t : Table α} {e : String × α}
    (member : e ∈ entries.foldl (fun t e => put t e.1 e.2) t) : e ∈ entries ∨ e ∈ t := by
  induction entries generalizing t with
  | nil => exact .inr member
  | cons first rest ih =>
    rcases ih member with later | here
    · exact .inl (List.mem_cons_of_mem _ later)
    · rcases mem_put here with rfl | before
      · exact .inl List.mem_cons_self
      · exact .inr before

theorem mem_ofList {entries : List (String × α)} {e : String × α} (member : e ∈ ofList entries) :
    e ∈ entries :=
  (mem_foldl_put member).resolve_right List.not_mem_nil

theorem mem_of_get? {t : Table α} {key : String} {value : α} (found : get? t key = some value) :
    (key, value) ∈ t := by
  induction t with
  | nil => cases found
  | cons e rest ih =>
    obtain ⟨k, v⟩ := e
    rw [get?_cons] at found
    split at found
    · rename_i same
      obtain rfl := Option.some.inj found
      rw [same]
      exact List.mem_cons_self
    · exact List.mem_cons_of_mem _ (ih found)

theorem get?_eq_none {t : Table α} {key : String} (absent : key ∉ keys t) : get? t key = none := by
  induction t with
  | nil => rfl
  | cons e rest ih =>
    obtain ⟨k, v⟩ := e
    simp only [keys, List.map_cons, List.mem_cons, not_or] at absent
    rw [get?_cons, if_neg absent.1]
    exact ih absent.2

/-- Where no key comes twice, each is found as it was given. -/
theorem get?_ofList {entries : List (String × α)} (distinct : (keys entries).Nodup) (key : String) :
    get? (ofList entries) key = get? entries key := by
  have found (t : Table α) : get? (entries.foldl (fun t e => put t e.1 e.2) t) key =
      (get? entries key).or (get? t key) := by
    induction entries generalizing t with
    | nil => rfl
    | cons e rest ih =>
      obtain ⟨k, v⟩ := e
      obtain ⟨new, more⟩ := List.nodup_cons.mp distinct
      rw [List.foldl_cons, ih more, get?_cons]
      by_cases same : key = k
      · subst same
        rw [if_pos rfl, get?_eq_none new, get?_put_self]
        rfl
      · rw [if_neg same, get?_put_of_ne _ _ same]
  rw [ofList, found]
  simp

theorem put_last {t : Table α} {key : String} (above : ∀ e ∈ t, e.1 < key) (value : α) :
    put t key value = t ++ [(key, value)] := by
  induction t with
  | nil => rfl
  | cons e rest ih =>
    obtain ⟨k, v⟩ := e
    obtain ⟨first, more⟩ := List.forall_mem_cons.mp above
    have other : key ≠ k := fun same => absurd first (by rw [same]; exact String.lt_irrefl k)
    have notLess : ¬ key < k := fun less => String.lt_irrefl k (String.lt_trans first less)
    rw [put, if_neg other, if_neg notLess, ih more, List.cons_append]

/-- What is in order already stays as it is. -/
theorem ofList_eq_self {t : Table α} (sorted : Sorted t) : ofList t = t := by
  have all (front rest : Table α) (sorted : Sorted (front ++ rest)) :
      rest.foldl (fun t e => put t e.1 e.2) front = front ++ rest := by
    induction rest generalizing front with
    | nil => rw [List.foldl_nil, List.append_nil]
    | cons e rest ih =>
      have above : ∀ a ∈ front, a.1 < e.1 :=
        fun a member => (List.pairwise_append.mp sorted).2.2 a member e List.mem_cons_self
      rw [List.foldl_cons, put_last above, ih]
      · simp
      · simpa using sorted
  exact all [] t sorted

theorem head_not_mem {k : String} {v : α} {rest : Table α} (sorted : Sorted ((k, v) :: rest)) :
    k ∉ keys rest := by
  intro member
  obtain ⟨e, inside, same⟩ := List.mem_map.mp member
  have less := (List.pairwise_cons.mp sorted).1 e inside
  rw [same] at less
  exact String.lt_irrefl k less

theorem get?_of_mem {t : Table α} (sorted : Sorted t) {key : String} {value : α}
    (member : (key, value) ∈ t) : get? t key = some value := by
  induction t with
  | nil => cases member
  | cons e rest ih =>
    obtain ⟨k, v⟩ := e
    rw [get?_cons]
    rcases List.mem_cons.mp member with here | later
    · cases here
      rw [if_pos rfl]
    · have other : key ≠ k := fun same =>
        head_not_mem sorted (same ▸ List.mem_map_of_mem later)
      rw [if_neg other]
      exact ih (List.pairwise_cons.mp sorted).2 later

theorem lt_of_get?_rest {k key : String} {v w : α} {rest : Table α}
    (sorted : Sorted ((k, v) :: rest)) (found : get? rest key = some w) : k < key := by
  have member : key ∈ keys rest := mem_keys_iff.mpr (by rw [contains, found]; rfl)
  obtain ⟨e, inside, same⟩ := List.mem_map.mp member
  rw [← same]
  exact (List.pairwise_cons.mp sorted).1 e inside

/-- Tables that answer alike are the same. -/
theorem ext_of_get? {a b : Table α} (first : Sorted a) (second : Sorted b)
    (same : ∀ key, get? a key = get? b key) : a = b := by
  induction a generalizing b with
  | nil =>
    cases b with
    | nil => rfl
    | cons e rest =>
      have found := same e.1
      rw [get?_nil, get?_cons, if_pos rfl] at found
      cases found
  | cons e rest ih =>
    obtain ⟨k, v⟩ := e
    cases b with
    | nil =>
      have found := same k
      rw [get?_nil, get?_cons, if_pos rfl] at found
      cases found
    | cons e' rest' =>
      obtain ⟨l, w⟩ := e'
      have atFirst := same k
      have atSecond := same l
      rw [get?_cons, get?_cons, if_pos rfl] at atFirst
      rw [get?_cons, get?_cons, if_pos rfl] at atSecond
      by_cases equal : k = l
      · subst equal
        rw [if_pos rfl] at atFirst
        obtain rfl := Option.some.inj atFirst
        rw [ih (List.pairwise_cons.mp first).2 (List.pairwise_cons.mp second).2]
        intro key
        by_cases here : key = k
        · subst here
          rw [get?_eq_none (head_not_mem first), get?_eq_none (head_not_mem second)]
        · simpa [get?_cons, here] using same key
      · rw [if_neg equal] at atFirst
        rw [if_neg (Ne.symm equal)] at atSecond
        have less := lt_of_get?_rest second atFirst.symm
        have more := lt_of_get?_rest first atSecond
        exact absurd (String.lt_trans less more) (String.lt_irrefl l)

theorem nodup_keys {t : Table α} (sorted : Sorted t) : (keys t).Nodup :=
  (List.pairwise_map.mpr sorted).imp fun less => ne_of_lt less

/-- What is found is still found when it is not left out. -/
theorem get?_filter_of_kept {t : Table α} {kept : α → Bool} {key : String}
    (keeps : ∀ v, get? t key = some v → kept v = true) :
    get? (t.filter (kept ·.2)) key = get? t key := by
  induction t with
  | nil => rfl
  | cons e rest ih =>
    obtain ⟨k, v⟩ := e
    rw [get?_cons] at keeps ⊢
    by_cases same : key = k
    · have first : kept v = true := keeps v (if_pos same)
      rw [List.filter_cons_of_pos (by exact first), get?_cons, if_pos same, if_pos same]
    · rw [if_neg same] at keeps ⊢
      rw [List.filter_cons]
      split
      · rw [get?_cons, if_neg same, ih keeps]
      · exact ih keeps

/-- Leaving out entries leaves out what is found in them. -/
theorem get?_filter {t : Table α} (sorted : Sorted t) (kept : α → Bool) (key : String) :
    get? (t.filter (kept ·.2)) key = (get? t key).filter kept := by
  induction t with
  | nil => rfl
  | cons e rest ih =>
    obtain ⟨k, v⟩ := e
    have later := ih (List.pairwise_cons.mp sorted).2
    rw [List.filter_cons, get?_cons]
    by_cases same : key = k
    · subst same
      cases keep : kept v with
      | true => simp [get?_cons, Option.filter, keep]
      | false =>
        rw [if_neg Bool.false_ne_true, later, get?_eq_none (head_not_mem sorted), if_pos rfl]
        simp [Option.filter, keep]
    · rw [if_neg same, ← later]
      cases keep : kept v with
      | true => rw [if_pos rfl, get?_cons, if_neg same]
      | false => rw [if_neg Bool.false_ne_true]

/-- What is put before a table that lacks its key can be taken out again. -/
theorem erase_ofList {t : Table α} {key : String} (sorted : Sorted t) (absent : key ∉ keys t)
    (value : α) : erase (ofList ((key, value) :: t)) key = t := by
  have distinct : (keys ((key, value) :: t)).Nodup :=
    List.nodup_cons.mpr ⟨absent, nodup_keys sorted⟩
  have left : Sorted (erase (ofList ((key, value) :: t)) key) :=
    List.Pairwise.filter _ (sorted_ofList _)
  apply ext_of_get? left sorted
  intro name
  by_cases same : name = key
  · subst same
    rw [get?_erase_self, get?_eq_none absent]
  · rw [get?_erase_of_ne _ same, get?_ofList distinct, get?_cons, if_neg same]

/-! ### The texts of a list -/

theorem mem_distinct {items : List String} {x : String} : x ∈ distinct items ↔ x ∈ items := by
  have members (t : Table Unit) :
      x ∈ keys ((items.map (·, ())).foldl (fun t e => put t e.1 e.2) t) ↔
        x ∈ items ∨ x ∈ keys t := by
    induction items generalizing t with
    | nil => simp
    | cons i rest ih =>
      rw [List.map_cons, List.foldl_cons, ih, mem_keys_put, List.mem_cons]
      exact or_left_comm.trans or_assoc.symm
  exact (members []).trans (or_iff_left List.not_mem_nil)

theorem eq_nil_of_distinct {items : List String} (none : distinct items = []) : items = [] := by
  refine List.eq_nil_iff_forall_not_mem.mpr fun x member => ?_
  have listed := mem_distinct.mpr member
  rw [none] at listed
  exact List.not_mem_nil listed

theorem distinct_increasing (items : List String) : (distinct items).Pairwise (· < ·) :=
  List.pairwise_map.mpr (sorted_ofList _)

theorem distinct_nodup (items : List String) : (distinct items).Nodup :=
  nodup_keys (sorted_ofList _)

theorem increasing_unique {a b : List String} (up : a.Pairwise (· < ·)) (up' : b.Pairwise (· < ·))
    (same : ∀ x, x ∈ a ↔ x ∈ b) : a = b := by
  have perm : a.Perm b := by
    rw [List.perm_ext_iff_of_nodup (up.imp ne_of_lt) (up'.imp ne_of_lt)]
    exact same
  apply perm.eq_of_pairwise _ up up'
  intro x y _ _ less more
  exact absurd (String.lt_trans less more) (String.lt_irrefl x)

/-- The texts of a list, each once, are those of any list with the same members. -/
theorem distinct_congr {a b : List String} (same : ∀ x, x ∈ a ↔ x ∈ b) :
    distinct a = distinct b := by
  apply increasing_unique (distinct_increasing a) (distinct_increasing b)
  intro x
  rw [mem_distinct, mem_distinct, same]

end Table
end Orchestration
