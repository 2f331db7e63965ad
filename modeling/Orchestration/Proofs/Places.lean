import Orchestration.Proofs.Files

/-! Where paths lead. Paths that are spelled alike take the same steps, and two paths to one place
are both the path of a directory or neither of them is. A file that is removed is gone from its
place and from no other. -/
namespace Orchestration

namespace Disk

/-! ### Steps -/

theorem stepOn_skip (rooted : Bool) (done : List String) {step : List Char}
    (still : step = [] ∨ step = ['.']) : stepOn rooted done step = done := by
  rw [stepOn, if_pos still]

theorem foldl_stepOn_filter (rooted : Bool) {kept : List Char → Bool}
    (skips : ∀ step, kept step = false → step = [] ∨ step = ['.']) (pieces : List (List Char))
    (done : List String) :
    (pieces.filter kept).foldl (stepOn rooted) done = pieces.foldl (stepOn rooted) done := by
  induction pieces generalizing done with
  | nil => rfl
  | cons step rest ih =>
    cases keep : kept step with
    | true => rw [List.filter_cons_of_pos keep, List.foldl_cons, List.foldl_cons, ih]
    | false =>
      rw [List.filter_cons_of_neg (by simp [keep]), ih, List.foldl_cons,
        stepOn_skip rooted done (skips step keep)]

theorem steps_eq_taken (path : String) :
    steps path = (samePath.taken path).foldl (stepOn (isRooted path)) [] := by
  unfold steps samePath.taken
  rw [List.foldl_append, foldl_stepOn_filter, foldl_stepOn_filter, ← List.foldl_append,
    List.take_append_drop]
  · exact fun step skipped => .inl (by simpa using skipped)
  · exact fun step skipped => by simpa [Decidable.or_iff_not_imp_left] using skipped

theorem samePath_steps {a b : String} (same : samePath a b = true) :
    isRooted a = isRooted b ∧ steps a = steps b := by
  unfold samePath at same
  obtain ⟨rooted, taken⟩ := Bool.and_eq_true_iff.mp same
  have rooted := beq_iff_eq.mp rooted
  refine ⟨rooted, ?_⟩
  rw [steps_eq_taken, steps_eq_taken, rooted, beq_iff_eq.mp taken]

theorem samePath_place {a b : String} (same : samePath a b = true) : place? a = place? b := by
  obtain ⟨rooted, steps⟩ := samePath_steps same
  unfold place?
  rw [rooted, steps]

theorem samePath_isDirectory (d : Disk) {a b : String} (same : samePath a b = true) :
    d.isDirectory a = d.isDirectory b := by
  obtain ⟨rooted, steps⟩ := samePath_steps same
  unfold isDirectory directoryKey
  rw [rooted, steps]

theorem samePath_refl (path : String) : samePath path path = true := by
  unfold samePath
  rw [beq_self_eq_true, beq_self_eq_true]
  rfl

/-! ### Places -/

def IsName (name : String) : Prop := name.toList ≠ [] ∧ '/' ∉ name.toList

theorem stepOn_names {rooted : Bool} {done : List String} (names : ∀ name ∈ done, IsName name)
    {step : List Char} (free : '/' ∉ step) : ∀ name ∈ stepOn rooted done step, IsName name := by
  have last (name : String) (ok : IsName name) : ∀ other ∈ done ++ [name], IsName other := by
    intro other member
    rcases List.mem_append.mp member with earlier | here
    · exact names other earlier
    · rw [List.mem_singleton.mp here]
      exact ok
  unfold stepOn
  split
  · exact names
  · rename_i moves
    split
    · split
      · split
        · exact names
        · exact last ".." ⟨by decide, by decide⟩
      · exact fun name member => names name (List.dropLast_subset _ member)
    · refine last _ ⟨?_, ?_⟩
      · rw [String.toList_ofList]
        exact fun none => moves (.inl none)
      · rwa [String.toList_ofList]

theorem steps_names (path : String) : ∀ name ∈ steps path, IsName name := by
  have all (pieces : List (List Char)) (free : ∀ piece ∈ pieces, '/' ∉ piece) {done : List String}
      (names : ∀ name ∈ done, IsName name) :
      ∀ name ∈ pieces.foldl (stepOn (isRooted path)) done, IsName name := by
    induction pieces generalizing done with
    | nil => exact names
    | cons step rest ih =>
      refine ih (fun piece later => free piece (List.mem_cons_of_mem _ later)) ?_
      exact stepOn_names names (free step List.mem_cons_self)
  exact all _ (fun _ => Text.splitChars_free) (by simp)

def under (directory name : String) : String :=
  if directory = "" ∨ directory = "/" then directory ++ name else directory ++ "/" ++ name

theorem keyOf_ne_root (rooted : Bool) {first : String} (named : IsName first)
    (rest : List String) :
    keyOf rooted (first :: rest) ≠ "" ∧ keyOf rooted (first :: rest) ≠ "/" := by
  obtain ⟨c, more, chars⟩ := List.exists_cons_of_ne_nil named.1
  have other : c ≠ '/' := fun slash => named.2 (by simp [chars, slash])
  have present : c ∈ (keyOf rooted (first :: rest)).toList := by
    unfold keyOf
    rw [String.toList_append]
    refine List.mem_append_right _ ?_
    cases rest with
    | nil => simp [chars]
    | cons second later => simp [String.intercalate_cons_cons, chars]
  constructor
  · intro root
    rw [root] at present
    cases present
  · intro root
    rw [root] at present
    exact other (List.mem_singleton.mp present)

theorem keyOf_concat (rooted : Bool) {done : List String} (names : ∀ name ∈ done, IsName name)
    (name : String) : keyOf rooted (done ++ [name]) = under (keyOf rooted done) name := by
  unfold under
  cases done with
  | nil => cases rooted <;> simp [keyOf]
  | cons first rest =>
    -- only the keys of the two roots are not followed by a slash
    obtain ⟨some, deep⟩ := keyOf_ne_root rooted (names first List.mem_cons_self) rest
    rw [if_neg (not_or.mpr ⟨some, deep⟩)]
    unfold keyOf
    rw [String.intercalate_append_of_ne_nil (List.cons_ne_nil _ _) (List.cons_ne_nil _ _)]
    simp [String.append_assoc]

theorem directoryKey_of_place {path directory name : String}
    (place : place? path = some (directory, name)) : directoryKey path = under directory name := by
  unfold place? at place
  obtain ⟨last, final, same⟩ := Option.map_eq_some_iff.mp place
  obtain ⟨rfl, rfl⟩ := Prod.mk.inj same
  obtain ⟨front, eq⟩ := List.getLast?_eq_some_iff.mp final
  unfold directoryKey
  rw [eq, List.dropLast_concat]
  refine keyOf_concat _ (fun name member => steps_names path name ?_) last
  rw [eq]
  exact List.mem_append_left _ member

theorem isDirectory_of_place (d : Disk) {a b : String} (same : place? a = place? b)
    {place : String × String} (found : place? a = some place) :
    d.isDirectory a = d.isDirectory b := by
  unfold isDirectory
  rw [directoryKey_of_place found, directoryKey_of_place (same ▸ found)]

theorem file?_of_place (d : Disk) {a b : String} (same : place? a = place? b) :
    d.file? a = d.file? b := by
  unfold file?
  rw [same]

theorem place?_of_file? {d : Disk} {path : String} {f : File} (file : d.file? path = some f) :
    ∃ place, place? path = some place := by
  unfold file? at file
  cases found : place? path with
  | none =>
    rw [found] at file
    cases file
  | some place => exact ⟨place, rfl⟩

/-! ### Removal -/

section Remove

variable {d d' : Disk} {path : String}

theorem remove_ok (removed : d.remove path = .ok d') :
    ∃ directory name files, place? path = some (directory, name) ∧
      Table.get? d directory = some files ∧
      d' = Table.put d directory (Table.erase files name) := by
  unfold remove at removed
  split at removed
  · cases removed
  · rename_i directory name place
    split at removed
    · rename_i files _ found
      exact ⟨directory, name, files, place, found, (Except.ok.inj removed).symm⟩
    · cases removed

theorem file?_remove (removed : d.remove path = .ok d') : d'.file? path = none := by
  obtain ⟨directory, name, files, place, _, rfl⟩ := remove_ok removed
  simp [file?, place]

theorem file?_remove_of_ne (removed : d.remove path = .ok d') {other : String}
    (ne : place? other ≠ place? path) : d'.file? other = d.file? other := by
  obtain ⟨directory, name, files, place, found, rfl⟩ := remove_ok removed
  unfold file?
  cases elsewhere : place? other with
  | none => rfl
  | some place' =>
    obtain ⟨directory', name'⟩ := place'
    by_cases same : directory' = directory
    · subst same
      have names : name' ≠ name := fun eq => ne (by rw [elsewhere, place, eq])
      simp [found, Table.get?_erase_of_ne _ names]
    · simp [Table.get?_put_of_ne _ _ same]

theorem isDirectory_remove (removed : d.remove path = .ok d') (other : String) :
    d'.isDirectory other = d.isDirectory other := by
  obtain ⟨directory, name, files, _, found, rfl⟩ := remove_ok removed
  unfold isDirectory Table.contains
  by_cases same : directoryKey other = directory
  · rw [same, Table.get?_put_self, found]
    rfl
  · rw [Table.get?_put_of_ne _ _ same]

end Remove

/-- No path is that of a directory and of a file. -/
def Sound (d : Disk) : Prop := ∀ path, d.isDirectory path = true → d.file? path = none

end Disk
end Orchestration
