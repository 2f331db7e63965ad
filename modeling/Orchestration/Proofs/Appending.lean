import Orchestration.Proofs.Keeping
import Orchestration.Proofs.RoundTrips

/-! What one more record makes of a file that others may have written to. A line feed closes the
new line and none is put before it, so the record stands alone on its line only where the text
before ends with a line feed, or with blanks after one. -/
namespace Orchestration

namespace Lines

def unclosed (text : List Char) : List Char := (text.reverse.takeWhile (· ≠ '\n')).reverse

def Finished (text : List Char) : Prop := ∀ c ∈ unclosed text, Json.isBlank c = true

theorem unclosed_split (text : List Char) :
    ∃ front, Closed front ∧ text = front ++ unclosed text := by
  refine ⟨(text.reverse.dropWhile (· ≠ '\n')).reverse, ?_, ?_⟩
  · cases rest : text.reverse.dropWhile (· ≠ '\n') with
    | nil => exact .inl rfl
    | cons c more =>
      have first := List.head?_dropWhile_not (· ≠ '\n') text.reverse
      rw [rest] at first
      have feed : c = '\n' := by simpa using first
      exact .inr ⟨more.reverse, by rw [List.reverse_cons, feed]⟩
  · rw [unclosed, ← List.reverse_append, List.takeWhile_append_dropWhile, List.reverse_reverse]

theorem unclosed_flat (text : List Char) : '\n' ∉ unclosed text := by
  intro member
  have kept := List.mem_takeWhile_imp (List.mem_reverse.mp member)
  simp at kept

theorem unclosed_of_flat {cs : List Char} (flat : '\n' ∉ cs) : unclosed cs = cs := by
  have all : cs.reverse.takeWhile (· ≠ '\n') = cs.reverse := by
    rw [List.takeWhile_eq_self_iff]
    intro c member
    have other : c ≠ '\n' := fun same => flat (same ▸ List.mem_reverse.mp member)
    simpa using other
  rw [unclosed, all, List.reverse_reverse]

theorem first_stray {text : List Char} (unfinished : ¬ Finished text) :
    ∃ blanks c rest, unclosed text = blanks ++ c :: rest ∧
      (∀ b ∈ blanks, Json.isBlank b = true) ∧ Json.isBlank c = false := by
  have whole := List.takeWhile_append_dropWhile (p := Json.isBlank) (l := unclosed text)
  cases rest : (unclosed text).dropWhile Json.isBlank with
  | nil =>
    rw [List.dropWhile_eq_nil_iff] at rest
    exact absurd rest unfinished
  | cons c more =>
    have first := List.head?_dropWhile_not Json.isBlank (unclosed text)
    rw [rest] at first whole
    refine ⟨_, c, more, whole.symm, fun b member => List.mem_takeWhile_imp member, ?_⟩
    simpa using first

theorem filled_flat {cs : List Char} (flat : '\n' ∉ cs) :
    filled cs = if Text.isBlankLine cs then [] else [cs] := by
  unfold filled Text.lines
  rw [Text.splitChars_of_not_mem flat]
  cases cs with
  | nil => rfl
  | cons c rest =>
    by_cases blank : Text.isBlankLine (c :: rest) = true
    · simp [blank]
    · simp [blank]

theorem between (low high : Char) {c : Char} (inside : low.val ≤ c.val ∧ c.val ≤ high.val) :
    low.toNat ≤ c.toNat ∧ c.toNat ≤ high.toNat :=
  ⟨UInt32.le_iff_toNat_le.mp inside.1, UInt32.le_iff_toNat_le.mp inside.2⟩

theorem wordless {c : Char} (blank : Text.isBlank c = true) : Json.isWordChar c = false := by
  have apart : c.toNat ≤ 0x20 ∨ 0x85 ≤ c.toNat := by
    simp [Text.isBlank, Text.blankRanges] at blank
    omega
  by_contra word
  simp only [Json.isWordChar, Bool.not_eq_false, Bool.or_eq_true, decide_eq_true_eq] at word
  rcases word with ((named | rfl) | rfl) | rfl
  · rcases (Bool.or_eq_true _ _).mp named with letter | digit
    · rcases (Bool.or_eq_true _ _).mp letter with upper | lower
      · have bounds : 65 ≤ c.toNat ∧ c.toNat ≤ 90 := between 'A' 'Z' (of_decide_eq_true upper)
        omega
      · obtain ⟨above, below⟩ := (Bool.and_eq_true _ _).mp lower
        have bounds : 97 ≤ c.toNat ∧ c.toNat ≤ 122 :=
          between 'a' 'z' ⟨of_decide_eq_true above, of_decide_eq_true below⟩
        omega
    · obtain ⟨above, below⟩ := (Bool.and_eq_true _ _).mp digit
      have bounds : 48 ≤ c.toNat ∧ c.toNat ≤ 57 :=
        between '0' '9' ⟨of_decide_eq_true above, of_decide_eq_true below⟩
      omega
  all_goals exact absurd blank (by decide)

/-- A blank that no reader of JSON passes over starts nothing. -/
theorem start?_blank {c : Char} (blank : Text.isBlank c = true) (stray : Json.isBlank c = false) :
    Json.Lexing.start? c = none := by
  have solid : ∀ m ∈ ['{', '}', '[', ']', ',', ':', '"'], Text.isBlank m = false := by
    simp only [List.mem_cons, List.not_mem_nil, or_false, forall_eq_or_imp, forall_eq]
    decide
  have other : ∀ m ∈ ['{', '}', '[', ']', ',', ':', '"'], c ≠ m := by
    rintro m member rfl
    rw [solid c member] at blank
    cases blank
  have unnamed := wordless blank
  simp only [List.mem_cons, List.not_mem_nil, or_false, forall_eq_or_imp, forall_eq] at other
  obtain ⟨left, right, first, last, comma, colon, quote⟩ := other
  simp [Json.Lexing.start?, Json.punctuation?, *]

theorem isBlank_of_json {c : Char} (blank : Json.isBlank c = true) : Text.isBlank c = true := by
  simp only [Json.isBlank, Bool.or_eq_true, decide_eq_true_eq] at blank
  rcases blank with ((rfl | rfl) | rfl) | rfl
  all_goals decide

variable {α : Type} {decode : Json → Option α} {text : String} {old : List α}

theorem filled_append_line (text : String) (members : List (String × Json)) :
    ∃ front, text.toList = front ++ unclosed text.toList ∧
      filled text.toList = filled front ++ filled (unclosed text.toList) ∧
      filled (text ++ line (.obj members)).toList =
        filled front ++ [unclosed text.toList ++ (Json.obj members).chars] := by
  obtain ⟨front, closed, whole⟩ := unclosed_split text.toList
  have flat : '\n' ∉ unclosed text.toList ++ (Json.obj members).chars := by
    rw [List.mem_append, not_or]
    exact ⟨unclosed_flat _, (Json.chars_flat _).1⟩
  have solid := chars_solid members (unclosed text.toList)
  refine ⟨front, whole, ?_, ?_⟩
  · conv_lhs => rw [whole]
    exact filled_closed_append closed _
  · rw [String.toList_append]
    conv_lhs => rw [whole]
    rw [line, String.toList_ofList, List.append_assoc, filled_closed_append closed,
      ← List.append_assoc, filled_feed flat solid]

theorem filled_chars (members : List (String × Json)) :
    filled (Json.obj members).chars = [(Json.obj members).chars] := by
  rw [filled_flat (Json.chars_flat _).1, if_neg (by simpa using chars_solid members [])]

theorem unfinished_chars (members : List (String × Json)) :
    ¬ Finished (Json.obj members).chars := by
  intro finished
  have whole := unclosed_of_flat (Json.chars_flat (.obj members)).1
  have brace := finished '{' (by rw [whole, Json.chars]; exact List.mem_cons_self)
  exact absurd brace (by decide)

theorem records?_append_finished (read : records? decode text = some old)
    (finished : Finished text.toList) (members : List (String × Json)) :
    records? decode (text ++ line (.obj members)) =
      (records? decode (line (.obj members))).map (old ++ ·) := by
  obtain ⟨front, _, before, after⟩ := filled_append_line text members
  have blank : Text.isBlankLine (unclosed text.toList) = true :=
    List.all_eq_true.mpr fun c member => isBlank_of_json (finished c member)
  rw [filled_flat (unclosed_flat _), if_pos blank, List.append_nil] at before
  unfold records? at read ⊢
  rw [before] at read
  rw [after, List.mapM_append, read, List.mapM_cons, Json.readChars?_blank_append finished]
  change _ = (records? decode (line (.obj members))).map _
  rw [records?_single (filled_line members)]
  cases (Json.readChars? (Json.obj members).chars).bind decode with
  | none => rfl
  | some a => rfl

theorem records?_append_unfinished (read : records? decode text = some old)
    (unfinished : ¬ Finished text.toList) (members : List (String × Json)) :
    records? decode (text ++ line (.obj members)) = none := by
  obtain ⟨front, _, before, after⟩ := filled_append_line text members
  have broken : Json.readChars? (unclosed text.toList ++ (Json.obj members).chars) = none := by
    rw [filled_flat (unclosed_flat _)] at before
    by_cases blank : Text.isBlankLine (unclosed text.toList) = true
    · obtain ⟨blanks, c, rest, whole, passed, stray⟩ := first_stray unfinished
      have inside : c ∈ unclosed text.toList := by simp [whole]
      rw [whole, List.append_assoc, List.cons_append]
      exact Json.readChars?_stray passed (start?_blank (List.all_eq_true.mp blank c inside) stray) _
    · rw [if_neg blank] at before
      unfold records? at read
      rw [before, List.mapM_append] at read
      obtain ⟨_, _, rest⟩ := Option.bind_eq_some_iff.mp read
      obtain ⟨_, last, _⟩ := Option.bind_eq_some_iff.mp rest
      rw [List.mapM_cons] at last
      obtain ⟨_, own, _⟩ := Option.bind_eq_some_iff.mp last
      obtain ⟨j, found, _⟩ := Option.bind_eq_some_iff.mp own
      exact Json.readChars?_append found _
  unfold records?
  rw [after, List.mapM_append, List.mapM_cons, broken]
  cases (filled front).mapM fun line => (Json.readChars? line).bind decode with
  | none => rfl
  | some earlier => rfl

end Lines

/-! ### Files -/

/-- The text of a file; none is as good as an empty one. -/
def Disk.textAt (d : Disk) (path : String) : String :=
  match d.file? path with
  | some ⟨.text s, _⟩ => s
  | _ => ""

namespace Lines

variable {α : Type} {decode : Json → Option α} {d d' : Disk} {path : String} {old : List α}

theorem read_text (read : Lines.read decode d path = .ok old) :
    records? decode (d.textAt path) = some old ∧
      ((∃ modified, d.file? path = some ⟨.text (d.textAt path), modified⟩) ∨
        d.file? path = none) := by
  unfold Lines.read at read
  cases there : d.exists path with
  | false =>
    have absent : d.file? path = none := by
      simp only [Disk.exists, Bool.or_eq_false_iff] at there
      simpa using there.2
    simp only [there, Bool.not_false, if_true] at read
    obtain rfl := Except.ok.inj read
    simp [Disk.textAt, absent, records?, filled, Text.lines, Text.splitChars]
  | true =>
    simp only [there, Bool.not_true, Bool.false_eq_true, if_false] at read
    unfold Disk.read at read
    split at read
    · cases read
    · rename_i text same
      split at same
      · rename_i s modified file
        obtain rfl := Except.ok.inj same
        have own : d.textAt path = s := by rw [Disk.textAt, file]
        rw [own]
        refine ⟨?_, .inl ⟨modified, file⟩⟩
        split at read
        · rename_i found
          rw [found, Except.ok.inj read]
        · cases read
      · cases same
      · cases same

def corrupt (decode : Json → Option α) (d : Disk) (path : String) : Fault :=
  .corruptRecord (some path) (excess? decode (d.textAt path))

theorem read_of_file {s : String} {modified : Int}
    (file : d.file? path = some ⟨.text s, modified⟩) : Lines.read decode d path =
      match records? decode s with
      | some records => .ok records
      | none => .error (corrupt decode d path) := by
  have there : d.exists path = true := by simp [Disk.exists, file]
  unfold Lines.read corrupt Disk.textAt
  rw [there, Disk.read, file]
  rfl

/-- A record that is added stands at the end of its file, and no other file is touched. -/
theorem append_text {j : Json} (read : Lines.read decode d path = .ok old)
    (added : Lines.append d path j = .ok d') :
    (∃ modified, d'.file? path = some ⟨.text (d.textAt path ++ line j), modified⟩) ∧
      ∀ other, Disk.place? other ≠ Disk.place? path → d'.file? other = d.file? other := by
  have wrote := append_ok added
  unfold Disk.append at wrote
  rcases (read_text read).2 with ⟨modified, file⟩ | absent
  · simp only [file] at wrote
    exact ⟨⟨modified, Disk.file?_write wrote⟩, fun other ne => Disk.file?_write_of_ne wrote ne⟩
  · simp only [absent] at wrote
    refine ⟨⟨0, ?_⟩, fun other ne => Disk.file?_write_of_ne wrote ne⟩
    rw [Disk.file?_write wrote, Disk.textAt, absent, String.empty_append]

theorem textAt_of_read {s : String} (read : d.read path = .ok s) : d.textAt path = s := by
  unfold Disk.read at read
  unfold Disk.textAt
  split at read
  · rename_i file
    rw [file]
    exact Except.ok.inj read
  · cases read
  · cases read

theorem read_error {f : Fault} (failed : Lines.read decode d path = .error f) :
    f = corrupt decode d path ∨ ∃ cause, d.read path = .error cause ∧ f = .system cause := by
  unfold Lines.read at failed
  split at failed
  · cases failed
  · split at failed
    · rename_i cause stopped
      exact .inr ⟨cause, stopped, (Except.error.inj failed).symm⟩
    · rename_i text read
      split at failed
      · cases failed
      · left
        rw [corrupt, textAt_of_read read]
        exact (Except.error.inj failed).symm

theorem append_error {j : Json} {f : Fault} (failed : Lines.append d path j = .error f) :
    ∃ cause, d.append path (line j) = .error cause ∧ f = .system cause := by
  unfold Lines.append at failed
  split at failed
  · cases failed
  · rename_i cause stopped
    exact ⟨cause, stopped, (Except.error.inj failed).symm⟩

/-- What is read after a record has been added. -/
theorem read_append {members : List (String × Json)} (read : Lines.read decode d path = .ok old)
    (added : Lines.append d path (.obj members) = .ok d') :
    (∀ a, Lines.read decode d' path = .ok (old ++ [a]) ↔
      Finished (d.textAt path).toList ∧ records? decode (line (.obj members)) = some [a]) ∧
    (¬ Finished (d.textAt path).toList →
      Lines.read decode d' path = .error (corrupt decode d' path)) := by
  obtain ⟨⟨modified, file⟩, _⟩ := append_text read added
  rw [read_of_file file]
  by_cases finished : Finished (d.textAt path).toList
  · rw [records?_append_finished (read_text read).1 finished]
    refine ⟨fun a => ?_, fun unfinished => absurd finished unfinished⟩
    cases records? decode (line (.obj members)) with
    | none => simp
    | some records => simp [finished]
  · rw [records?_append_unfinished (read_text read).1 finished]
    simp [finished]

end Lines

end Orchestration
