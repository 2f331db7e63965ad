import Orchestration.Proofs.Accounts
import Orchestration.Proofs.Appending
import Orchestration.Proofs.Refinement

/-! What adding a record does to a store in a directory. It is refused with everything left as it
was, or stands at the end of its file; whether the file can then be read depends on how the text
before it ends, which nothing looks at. -/
namespace Orchestration

namespace Record

def file (directory : String) (rec : Record) : String :=
  Folder.fileOf directory rec.kind rec.session

def stored (d : Disk) (directory : String) (rec : Record) : Except Fault (List rec.kind.Of) :=
  Folder.read d directory rec.kind rec.session

def corrupt (d : Disk) (directory : String) (rec : Record) : Fault :=
  Lines.corrupt rec.kind.ofJson? d (rec.file directory)

/-- Why a record is not added: its session has no valid id, a line of its file holds no record,
its key is taken, or the system does not let the file be read or written. -/
inductive Refused (d : Disk) (directory : String) (rec : Record) : Fault → Prop
  | invalid (unnamed : Folder.isValid rec.session = false) :
      Refused d directory rec (.invalidSession (Text.quoted rec.session))
  | corrupt (unread : rec.stored d directory = .error (rec.corrupt d directory)) :
      Refused d directory rec (rec.corrupt d directory)
  | unreadable {cause : SystemError} (stopped : d.read (rec.file directory) = .error cause) :
      Refused d directory rec (.system cause)
  | taken {old : List rec.kind.Of} (read : rec.stored d directory = .ok old)
      (twice : ∃ r ∈ old, rec.kind.key r = rec.key) :
      Refused d directory rec (rec.kind.duplicate rec.key)
  | unwritten {old : List rec.kind.Of} {cause : SystemError}
      (read : rec.stored d directory = .ok old)
      (stopped : d.append (rec.file directory) (Lines.line rec.toJson) = .error cause) :
      Refused d directory rec (.system cause)

variable {d d' : Disk} {directory : String} {rec : Record} {old : List rec.kind.Of}

theorem refused_of_error {f : Fault} (faulty : rec.stored d directory = .error f) :
    Refused d directory rec f := by
  have told := faulty
  unfold stored at faulty
  rw [Folder.read_eq] at faulty
  by_cases valid : Folder.isValid rec.session = true
  · rw [if_pos valid] at faulty
    rcases Lines.read_error faulty with rfl | ⟨cause, stopped, rfl⟩
    · exact .corrupt told
    · exact .unreadable stopped
  · rw [if_neg valid] at faulty
    obtain rfl := Except.error.inj faulty
    exact .invalid (by simpa using valid)

theorem add_eq (st : Storage) (directory : String) (rec : Record) :
    st.add (.folder directory) rec =
      (rec.stored st.disk directory).bind fun old =>
        if old.any (rec.kind.key · = rec.key) then .error (rec.kind.duplicate rec.key)
        else (Lines.append st.disk (rec.file directory) rec.toJson).map st.withDisk := by
  change (Folder.add st.disk directory rec).map st.withDisk = _
  rw [Folder.add_eq, stored]
  cases Folder.read st.disk directory rec.kind rec.session with
  | error f => rfl
  | ok old =>
    simp only [Except.bind]
    split <;> rfl

theorem serve_added {st : Storage} (read : rec.stored st.disk directory = .ok old)
    (fresh : ∀ r ∈ old, rec.kind.key r ≠ rec.key)
    (added : Lines.append st.disk (rec.file directory) rec.toJson = .ok d') :
    st.serve (.folder directory) (.add rec) = (.done, st.withDisk d') := by
  have free : old.any (rec.kind.key · = rec.key) = false := by simpa using fresh
  rw [Storage.serve, add_eq, read, added]
  simp [Except.bind, Except.map, free, Storage.settled]

/-- A record is added to the end of its file, or refused with everything left as it was. -/
theorem serve_cases (st : Storage) (directory : String) (rec : Record) :
    (∃ f, Refused st.disk directory rec f ∧
      st.serve (.folder directory) (.add rec) = (.refused f, st)) ∨
    ∃ old d', rec.stored st.disk directory = .ok old ∧ (∀ r ∈ old, rec.kind.key r ≠ rec.key) ∧
      Lines.append st.disk (rec.file directory) rec.toJson = .ok d' ∧
      st.serve (.folder directory) (.add rec) = (.done, st.withDisk d') := by
  cases read : rec.stored st.disk directory with
  | error f =>
    refine .inl ⟨f, refused_of_error read, ?_⟩
    rw [Storage.serve, add_eq, read]
    rfl
  | ok old =>
    by_cases taken : old.any (rec.kind.key · = rec.key) = true
    · refine .inl ⟨rec.kind.duplicate rec.key, .taken read (by simpa using taken), ?_⟩
      rw [Storage.serve, add_eq, read]
      simp [Except.bind, taken, Storage.settled]
    · have fresh : ∀ r ∈ old, rec.kind.key r ≠ rec.key := by simpa using taken
      cases added : Lines.append st.disk (rec.file directory) rec.toJson with
      | error f =>
        obtain ⟨cause, stopped, rfl⟩ := Lines.append_error added
        refine .inl ⟨_, .unwritten read stopped, ?_⟩
        rw [Storage.serve, add_eq, read, added]
        simp [Except.bind, Except.map, taken, Storage.settled]
      | ok d' => exact .inr ⟨old, d', rfl, fresh, rfl, serve_added read fresh added⟩

/-- No other file is touched, and the records of its kind are followed by the one added, exactly
where the text before was finished and the record can be read back. -/
theorem stored_append (read : rec.stored d directory = .ok old)
    (added : Lines.append d (rec.file directory) rec.toJson = .ok d') :
    (∀ path, Disk.place? path ≠ Disk.place? (rec.file directory) → d'.file? path = d.file? path) ∧
      (rec.stored d' directory = .ok (old ++ [rec.content]) ↔
        Lines.Finished (d.textAt (rec.file directory)).toList ∧
          (Backend.folder directory).ReadsBack rec) ∧
      (¬ Lines.Finished (d.textAt (rec.file directory)).toList →
        rec.stored d' directory = .error (rec.corrupt d' directory)) := by
  obtain ⟨valid, stored⟩ := Folder.read_ok read
  have found : Lines.read rec.kind.ofJson? d (rec.file directory) = .ok old := by
    rw [← read]
    exact (stored d).symm
  obtain ⟨members, obj⟩ := rec.kind.toJson_eq_obj rec.content
  have written : Lines.append d (rec.file directory) (.obj members) = .ok d' := obj ▸ added
  obtain ⟨again, broken⟩ := Lines.read_append found written
  refine ⟨(Lines.append_text found added).2, ?_, fun unfinished => ?_⟩
  · change Folder.read d' directory rec.kind rec.session = _ ↔ _
    rw [stored d']
    refine (again rec.content).trans (and_congr_right fun _ => ?_)
    rw [← obj]
    exact RecordKind.line_back
  · change Folder.read d' directory rec.kind rec.session = _
    rw [stored d']
    exact broken unfinished

end Record

/-- What adding a record to a store in a directory does. -/
theorem Storage.append_after_finished_text (st : Storage) (directory : String) (rec : Record) :
    (∃ f, rec.Refused st.disk directory f ∧
      st.serve (.folder directory) (.add rec) = (.refused f, st)) ∨
    ∃ old d', rec.stored st.disk directory = .ok old ∧ (∀ r ∈ old, rec.kind.key r ≠ rec.key) ∧
      st.serve (.folder directory) (.add rec) = (.done, st.withDisk d') ∧
      (∀ path, Disk.place? path ≠ Disk.place? (rec.file directory) →
        d'.file? path = st.disk.file? path) ∧
      (rec.stored d' directory = .ok (old ++ [rec.content]) ↔
        Lines.Finished (st.disk.textAt (rec.file directory)).toList ∧
          (Backend.folder directory).ReadsBack rec) ∧
      (¬ Lines.Finished (st.disk.textAt (rec.file directory)).toList →
        rec.stored d' directory = .error (rec.corrupt d' directory)) := by
  rcases rec.serve_cases st directory with refused | ⟨old, d', read, fresh, added, served⟩
  · exact .inl refused
  · exact .inr ⟨old, d', read, fresh, served, Record.stored_append read added⟩

/-! ### A last line without its line feed -/

def first (phase : Phase) : State := State.blank "s" 0 phase ⟨0, 0⟩

def torn : Storage :=
  { Storage.empty with
    disk := [("d", [("s.states.jsonl",
      ⟨.text (String.ofList (first .awareness).toJson.chars), 0⟩)])] }

theorem torn_file : torn.disk.file? "d/s.states.jsonl" =
    some ⟨.text (String.ofList (first .awareness).toJson.chars), 0⟩ := rfl

theorem first_file : (Record.state (first .planning)).file "d" = "d/s.states.jsonl" := by decide

/-- Readers take the last line without its line feed. -/
theorem torn_stored :
    (Record.state (first .planning)).stored torn.disk "d" = .ok [first .awareness] := by
  have back : (Json.readChars? (first .awareness).toJson.chars).bind State.ofJson? =
      some (first .awareness) :=
    State.blank_back "s" (twoTo_pos 32) .awareness ⟨by decide, by decide⟩
  have text : Lines.filled (String.ofList (first .awareness).toJson.chars).toList =
      [(first .awareness).toJson.chars] := by
    rw [String.toList_ofList]
    exact Lines.filled_chars _
  have found : Lines.read State.ofJson? torn.disk "d/s.states.jsonl" = .ok [first .awareness] := by
    rw [Lines.read_of_file torn_file, Lines.records?_single text, back]
    rfl
  change Folder.read torn.disk "d" .state "s" = _
  rw [Folder.read_eq, if_pos (by decide)]
  exact found

theorem torn_append (j : Json) : ∃ d', Lines.append torn.disk "d/s.states.jsonl" j = .ok d' := by
  have writable (f : File) : ∃ d', torn.disk.write "d/s.states.jsonl" f = .ok d' :=
    ⟨_, Disk.write_eq_ok.mpr ⟨"d", "s.states.jsonl", _, rfl, rfl, rfl, by decide, rfl⟩⟩
  unfold Lines.append Disk.append
  rw [torn_file]
  dsimp only
  obtain ⟨d', wrote⟩ := writable _
  exact ⟨d', by rw [wrote]⟩

/-- A state is taken, and with it the one before it is lost. -/
theorem torn_damaged :
    (Record.state (first .planning)).stored torn.disk "d" = .ok [first .awareness] ∧
      ∃ after, torn.serve (.folder "d") (.add (.state (first .planning))) = (.done, after) ∧
        (Record.state (first .planning)).stored after.disk "d" =
          .error ((Record.state (first .planning)).corrupt after.disk "d") := by
  have read := torn_stored
  obtain ⟨d', added⟩ := torn_append (first .planning).toJson
  refine ⟨read, torn.withDisk d', ?_, ?_⟩
  · refine Record.serve_added read ?_ (first_file ▸ added)
    intro r member
    rw [List.mem_singleton.mp member]
    decide
  · have unfinished : ¬ Lines.Finished (torn.disk.textAt "d/s.states.jsonl").toList := by
      rw [Disk.textAt, torn_file, String.toList_ofList]
      exact Lines.unfinished_chars _
    have broken := (Record.stored_append read (first_file ▸ added)).2.2
    rw [first_file] at broken
    exact broken unfinished

end Orchestration
