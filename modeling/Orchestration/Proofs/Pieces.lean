import Orchestration.Text.Blank

/-! Texts in pieces. A text that is taken apart at a mark comes apart at each of its marks and
nowhere else, so the pieces are had again from the text that joins them. -/
namespace Orchestration.Text

theorem splitChars_append (sep : Char) (a b : List Char) :
    splitChars sep (a ++ sep :: b) = splitChars sep a ++ splitChars sep b := by
  induction a with
  | nil => simp [splitChars]
  | cons c rest ih =>
    rw [List.cons_append]
    simp only [splitChars]
    split
    · rw [ih, List.cons_append]
    · rw [ih]
      cases pieces : splitChars sep rest with
      | nil => exact absurd pieces (splitChars_ne_nil sep rest)
      | cons piece more => rfl

theorem splitChars_of_not_mem {sep : Char} {cs : List Char} (free : sep ∉ cs) :
    splitChars sep cs = [cs] := by
  induction cs with
  | nil => rfl
  | cons c rest ih =>
    have other : c ≠ sep := fun eq => free (by simp [eq])
    rw [splitChars, if_neg other, ih (fun member => free (List.mem_cons_of_mem _ member))]

theorem splitChars_free {sep : Char} {cs piece : List Char} (member : piece ∈ splitChars sep cs) :
    sep ∉ piece := by
  induction cs generalizing piece with
  | nil =>
    rw [List.mem_singleton.mp member]
    exact List.not_mem_nil
  | cons c rest ih =>
    unfold splitChars at member
    split at member
    · rcases List.mem_cons.mp member with rfl | later
      · exact List.not_mem_nil
      · exact ih later
    · rename_i other
      cases pieces : splitChars sep rest with
      | nil => exact absurd pieces (splitChars_ne_nil sep rest)
      | cons first more =>
        rw [pieces] at member ih
        rcases List.mem_cons.mp member with rfl | later
        · have free := ih (List.mem_cons_self)
          simpa [free] using fun same => other same.symm
        · exact ih (List.mem_cons_of_mem _ later)

/-- Joined pieces come apart again. -/
theorem splitChars_intercalate {sep : Char} {pieces : List (List Char)} (some : pieces ≠ [])
    (free : ∀ piece ∈ pieces, sep ∉ piece) :
    splitChars sep ([sep].intercalate pieces) = pieces := by
  induction pieces with
  | nil => exact absurd rfl some
  | cons piece rest ih =>
    have first := free piece List.mem_cons_self
    cases rest with
    | nil =>
      rw [List.intercalate_singleton]
      exact splitChars_of_not_mem first
    | cons second more =>
      have later := ih (by simp) fun p member => free p (List.mem_cons_of_mem _ member)
      rw [List.intercalate_cons_cons, List.append_assoc, List.singleton_append, splitChars_append,
        splitChars_of_not_mem first, later, List.singleton_append]

end Orchestration.Text
