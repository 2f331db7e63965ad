import Orchestration.Proofs.Pieces
import Orchestration.Store.Folder

/-! Files and the lines in them. A write changes the file at its own path and nothing else,
and can be repeated; the two files of a session lie at different places; and a text whose
lines are all closed keeps its records when others are added to it. -/
namespace Orchestration

namespace Lines

variable {α : Type}

/-- A text whose last line, too, ends with a line feed. -/
def Closed (text : List Char) : Prop := text = [] ∨ ∃ front, text = front ++ ['\n']

theorem filled_append (front rest : List Char) :
    filled (front ++ '\n' :: rest) = filled (front ++ ['\n']) ++ filled rest := by
  have pieces (tail : List Char) :
      filled (front ++ '\n' :: tail) =
        (Text.splitChars '\n' front).filter (!Text.isBlankLine ·) ++ filled tail := by
    have some := Text.splitChars_ne_nil '\n' tail
    have last (pieces : List (List Char)) :
        (pieces ++ Text.splitChars '\n' tail).getLast? = (Text.splitChars '\n' tail).getLast? := by
      rw [List.getLast?_append, List.getLast?_eq_some_getLast some, Option.some_or]
    unfold filled Text.lines
    dsimp only
    rw [Text.splitChars_append, last]
    split
    · rw [List.dropLast_append_of_ne_nil some, List.filter_append]
    · rw [List.filter_append]
  rw [pieces rest, pieces []]
  simp [filled, Text.lines, Text.splitChars]

theorem filled_closed_append {text : List Char} (closed : Closed text) (rest : List Char) :
    filled (text ++ rest) = filled text ++ filled rest := by
  obtain rfl | ⟨front, rfl⟩ := closed
  · rfl
  · rw [List.append_assoc, List.singleton_append, filled_append]

theorem Closed.append {a b : List Char} (first : Closed a) (second : Closed b) :
    Closed (a ++ b) := by
  obtain rfl | ⟨front, rfl⟩ := second
  · rwa [List.append_nil]
  · exact .inr ⟨a ++ front, by rw [List.append_assoc]⟩

theorem line_closed (j : Json) : Closed (line j).toList := .inr ⟨j.chars, by simp [line]⟩

def after (text : String) (records : List Json) : String := records.foldl (· ++ line ·) text

theorem records?_after {decode : Json → Option α} {encode : α → Json} {text : String}
    (closed : Closed text.toList) {old : List α} (read : records? decode text = some old)
    {records : List α} (back : ∀ a ∈ records, records? decode (line (encode a)) = some [a]) :
    records? decode (after text (records.map encode)) = some (old ++ records) := by
  induction records generalizing text old with
  | nil => simpa [after] using read
  | cons a rest ih =>
    have first := back a (by simp)
    have joined : records? decode (text ++ line (encode a)) = some (old ++ [a]) := by
      unfold records? at *
      rw [String.toList_append, filled_closed_append closed, List.mapM_append, read, first]
      rfl
    have closed' : Closed (text ++ line (encode a)).toList := by
      rw [String.toList_append]
      exact closed.append (line_closed _)
    have all := ih closed' joined fun b member => back b (List.mem_cons_of_mem _ member)
    rwa [List.append_assoc, List.singleton_append] at all

theorem filled_feed {cs : List Char} (flat : '\n' ∉ cs) (solid : Text.isBlankLine cs = false) :
    filled (cs ++ ['\n']) = [cs] := by
  unfold filled Text.lines
  rw [Text.splitChars_append, Text.splitChars_of_not_mem flat]
  simp [Text.splitChars, solid]

end Lines

namespace Disk

/-- A file can be written at a path exactly if the path names a place in a directory that is
there, and no directory itself. -/
theorem write_eq_ok {d d' : Disk} {path : String} {f : File} : d.write path f = .ok d' ↔
    ∃ directory name files, d.isDirectory path = false ∧ place? path = some (directory, name) ∧
      Table.get? d directory = some files ∧ name.utf8ByteSize ≤ nameLimit ∧
      d' = Table.put d directory (Table.put files name f) := by
  unfold write
  constructor
  · intro wrote
    split at wrote
    · cases wrote
    · rename_i free
      split at wrote
      · cases wrote
      · rename_i directory name place
        split at wrote
        · cases wrote
        · rename_i files found
          split at wrote
          · cases wrote
          · rename_i short
            exact ⟨directory, name, files, by simpa using free, place, found, by omega,
              (Except.ok.inj wrote).symm⟩
  · rintro ⟨directory, name, files, free, place, found, short, rfl⟩
    simp [free, place, found, Nat.not_lt.mpr short]

theorem file?_write {d d' : Disk} {path : String} {f : File} (wrote : d.write path f = .ok d') :
    d'.file? path = some f := by
  obtain ⟨directory, name, files, _, place, _, _, rfl⟩ := write_eq_ok.mp wrote
  simp [file?, place]

theorem file?_write_of_ne {d d' : Disk} {path other : String} {f : File}
    (wrote : d.write path f = .ok d') (ne : place? other ≠ place? path) :
    d'.file? other = d.file? other := by
  obtain ⟨directory, name, files, _, place, found, _, rfl⟩ := write_eq_ok.mp wrote
  unfold file?
  cases elsewhere : place? other with
  | none => rfl
  | some place' =>
    obtain ⟨directory', name'⟩ := place'
    by_cases same : directory' = directory
    · subst same
      have names : name' ≠ name := fun eq => ne (by rw [elsewhere, place, eq])
      simp [found, Table.get?_put_of_ne _ _ names]
    · simp [Table.get?_put_of_ne _ _ same]

theorem isDirectory_write {d d' : Disk} {path : String} {f : File}
    (wrote : d.write path f = .ok d') (other : String) :
    d'.isDirectory other = d.isDirectory other := by
  obtain ⟨directory, name, files, _, _, found, _, rfl⟩ := write_eq_ok.mp wrote
  unfold isDirectory Table.contains
  by_cases same : directoryKey other = directory
  · rw [same, Table.get?_put_self, found]
    rfl
  · rw [Table.get?_put_of_ne _ _ same]

theorem write_again {d d' : Disk} {path : String} {f : File} (wrote : d.write path f = .ok d')
    (g : File) : ∃ d'', d'.write path g = .ok d'' := by
  have still := isDirectory_write wrote path
  obtain ⟨directory, name, files, free, place, _, short, rfl⟩ := write_eq_ok.mp wrote
  exact ⟨_, write_eq_ok.mpr ⟨directory, name, _, still.trans free, place,
    Table.get?_put_self _ _ _, short, rfl⟩⟩

structure IsStep (name : String) : Prop where
  one : '/' ∉ name.toList
  down : name.toList ≠ [] ∧ name.toList ≠ ['.'] ∧ name.toList ≠ ['.', '.']

theorem stepOn_down (rooted : Bool) (done : List String) {name : String} (step : IsStep name) :
    stepOn rooted done name.toList = done ++ [name] := by
  obtain ⟨some, here, above⟩ := step.down
  simp [stepOn, some, here, above]

theorem IsStep.relative {name : String} (step : IsStep name) : isRooted name = false := by
  unfold isRooted
  cases chars : name.toList with
  | nil => rfl
  | cons c rest =>
    have other : c ≠ '/' := fun eq => step.one (by simp [chars, eq])
    simpa using other

/-- A name goes after a slash, unless there is one already or nothing before it. -/
theorem join_cases (directory : String) {name : String} (step : IsStep name) :
    (directory.toList = [] ∧ join directory name = name) ∨
    (∃ before, directory.toList = before ++ ['/'] ∧
      (join directory name).toList = before ++ '/' :: name.toList) ∨
    (directory.toList ≠ [] ∧ (join directory name).toList = directory.toList ++ '/' :: name.toList) := by
  have relative := step.relative
  unfold join
  by_cases empty : directory.isEmpty = true
  · exact .inl ⟨by simpa using empty, by simp [relative, empty]⟩
  · by_cases slash : directory.toList.getLast? = some '/'
    · obtain ⟨before, eq⟩ := List.getLast?_eq_some_iff.mp slash
      exact .inr (.inl ⟨before, eq, by simp [relative, empty, eq]⟩)
    · refine .inr (.inr ⟨by simpa using empty, ?_⟩)
      simp [relative, empty, slash]
      rfl

theorem isRooted_join (directory : String) {name : String} (step : IsStep name) :
    isRooted (join directory name) = isRooted directory := by
  rcases join_cases directory step with ⟨empty, same⟩ | ⟨before, ends, joined⟩ | ⟨some, joined⟩
  · rw [same, step.relative]
    simp [isRooted, empty]
  · unfold isRooted
    rw [joined, ends]
    cases before <;> simp
  · unfold isRooted
    obtain ⟨c, more, chars⟩ := List.exists_cons_of_ne_nil some
    rw [joined, chars, List.cons_append, List.head?_cons, List.head?_cons]

theorem steps_join (directory : String) {name : String} (step : IsStep name) :
    steps (join directory name) = steps directory ++ [name] := by
  have last := Text.splitChars_of_not_mem step.one
  unfold steps
  rw [isRooted_join directory step]
  rcases join_cases directory step with ⟨empty, same⟩ | ⟨before, ends, joined⟩ | ⟨_, joined⟩
  · rw [same, last, empty, List.foldl_cons, List.foldl_nil, stepOn_down _ _ step]
    simp [Text.splitChars, stepOn]
  · rw [joined, ends, Text.splitChars_append, Text.splitChars_append, last, List.foldl_append,
      List.foldl_append, List.foldl_cons, List.foldl_nil, stepOn_down _ _ step]
    simp [Text.splitChars, stepOn]
  · rw [joined, Text.splitChars_append, last, List.foldl_append, List.foldl_cons, List.foldl_nil,
      stepOn_down _ _ step]

/-- Things in one directory lie at the same place, but for their names. -/
theorem place?_join (directory : String) {name : String} (step : IsStep name) :
    place? (join directory name) = some (directoryKey directory, name) := by
  unfold place? directoryKey
  rw [isRooted_join directory step, steps_join directory step, List.getLast?_concat,
    List.dropLast_concat]
  rfl

end Disk
end Orchestration
