import Mathlib.Data.List.Perm.Basic
import Orchestration.Loop.Services
import Orchestration.Proofs.Items
import Orchestration.Proofs.RoundTrips

/-! What a store keeps of a session. Whatever the backend, a write that succeeds adds its
record at the end of what is kept of its kind, and nothing else; and what is kept is what a
read gives, provided that texts read back as the records they were written for. -/
namespace Orchestration

namespace RecordKind

def Legible (k : RecordKind) (a : k.Of) : Prop :=
  (Json.readChars? (k.toJson a).chars).bind k.ofJson? = some a

theorem toJson_eq_obj (k : RecordKind) (a : k.Of) : ∃ members, k.toJson a = .obj members := by
  cases k <;> exact ⟨_, rfl⟩

theorem line_back {k : RecordKind} {a : k.Of} :
    Lines.records? k.ofJson? (Lines.line (k.toJson a)) = some [a] ↔ k.Legible a := by
  unfold Legible
  obtain ⟨members, eq⟩ := k.toJson_eq_obj a
  rw [eq]
  exact Lines.records?_single_iff (Lines.filled_line members)

end RecordKind

/-- The backend gives the record back as it was written. What is kept in memory always is so;
elsewhere it is kept as a text. -/
def Backend.ReadsBack : Backend → Record → Prop
  | .memory, _ => True
  | _, rec => rec.kind.Legible rec.content

namespace Ledger

variable {l : Ledger} {rec : Record} {session : String}

theorem of_plus (l : Ledger) (rec : Record) :
    (l.plus rec).of rec.kind = l.of rec.kind ++ [rec.content] := by
  cases rec <;> rfl

theorem of_plus_other {k : RecordKind} (other : k ≠ rec.kind) : (l.plus rec).of k = l.of k := by
  cases rec <;> cases k <;> first | rfl | exact absurd rfl other

def only (l : Ledger) (session : String) : Ledger :=
  ⟨l.states.filter (·.session = session), l.logs.filter (·.session = session)⟩

theorem of_only (l : Ledger) (session : String) (k : RecordKind) :
    (l.only session).of k = (l.of k).filter fun a => (k.key a).session = session := by
  cases k <;> rfl

theorem only_plus (own : rec.session = session) :
    (l.plus rec).only session = (l.only session).plus rec := by
  cases rec with
  | state a =>
    change a.session = session at own
    simp [only, plus, own]
  | log log =>
    change log.session = session at own
    simp [only, plus, own]

theorem only_plus_other (other : rec.session ≠ session) :
    (l.plus rec).only session = l.only session := by
  cases rec with
  | state a =>
    change a.session ≠ session at other
    simp [only, plus, other]
  | log log =>
    change log.session ≠ session at other
    simp [only, plus, other]

/-- Whether a key is taken is told by its session. -/
theorem holds_only (l : Ledger) (k : RecordKind) (key : StateKey) :
    (l.only key.session).holds k key = l.holds k key := by
  rw [holds, of_only, List.any_filter, holds]
  congr 1
  funext a
  by_cases same : k.key a = key
  · simp [same]
  · simp [same]

end Ledger

namespace Rows

variable {t : Rows} {rec : Record} {session : String}

def only (t : Rows) (session : String) : Rows :=
  ⟨t.states.filter (·.key.session = session), t.logs.filter (·.key.session = session)⟩

def ofLedger (l : Ledger) : Rows := ⟨l.states.map (Row.of .state), l.logs.map (Row.of .log)⟩

theorem of_only (t : Rows) (session : String) (k : RecordKind) :
    (t.only session).of k = (t.of k).filter (·.key.session = session) := by
  cases k <;> rfl

theorem of_ofLedger (l : Ledger) (k : RecordKind) : (ofLedger l).of k = (l.of k).map (Row.of k) := by
  cases k <;> rfl

theorem ofLedger_plus (l : Ledger) (rec : Record) :
    ofLedger (l.plus rec) = (ofLedger l).plus rec := by
  cases rec <;> simp [ofLedger, Ledger.plus, plus, Record.kind, Record.content]

theorem only_plus (own : rec.session = session) :
    (t.plus rec).only session = (t.only session).plus rec := by
  cases rec with
  | state a =>
    change (Row.of .state a).key.session = session at own
    simp [only, plus, Record.kind, Record.content, own]
  | log log =>
    change (Row.of .log log).key.session = session at own
    simp [only, plus, Record.kind, Record.content, own]

theorem only_plus_other (other : rec.session ≠ session) :
    (t.plus rec).only session = t.only session := by
  cases rec with
  | state a =>
    change (Row.of .state a).key.session ≠ session at other
    simp [only, plus, Record.kind, Record.content, other]
  | log log =>
    change (Row.of .log log).key.session ≠ session at other
    simp [only, plus, Record.kind, Record.content, other]

end Rows

namespace Database

theorem holds_only (t : Rows) (k : RecordKind) (key : StateKey) :
    holds (t.only key.session) k key = holds t k key := by
  rw [holds, Rows.of_only, List.any_filter, holds]
  congr 1
  funext row
  by_cases same : row.key = key
  · simp [same]
  · simp [same]

theorem holds_ofLedger (l : Ledger) (k : RecordKind) (key : StateKey) :
    holds (.ofLedger l) k key = l.holds k key := by
  rw [holds, Rows.of_ofLedger, List.any_map]
  rfl

theorem decode_of {k : RecordKind} {a : k.Of} (legible : k.Legible a) :
    decode k (Row.of k a) = .ok a := by
  unfold decode Row.of Json.read?
  rw [String.toList_ofList, legible]

theorem decode_unread {k : RecordKind} {a : k.Of}
    (unread : (Json.readChars? (k.toJson a).chars).bind k.ofJson? = none) :
    decode k (Row.of k a) = .error (.corruptRecord none (Json.excess? (k.toJson a).chars)) := by
  unfold decode Row.of Json.read?
  rw [String.toList_ofList, unread]

theorem decode_all {k : RecordKind} {items : List k.Of} (legible : ∀ a ∈ items, k.Legible a) :
    (items.map (Row.of k)).mapM (decode k) = .ok items := by
  rw [mapM_eq_ok, List.forall₂_map_left_iff, List.forall₂_same]
  exact fun a member => decode_of (legible a member)

end Database

namespace Lines

variable {α : Type}

/-- The lines of a file, after blank ones, are those of some records. A file that is not
there holds none. -/
def Hold (encode : α → Json) (d : Disk) (path : String) (records : List α) : Prop :=
  (d.exists path = false ∧ records = []) ∨
    ∃ blank modified, Closed blank.toList ∧ filled blank.toList = [] ∧
      d.file? path = some ⟨.text (after blank (records.map encode)), modified⟩

theorem append_ok {d d' : Disk} {path : String} {j : Json} (added : append d path j = .ok d') :
    d.append path (line j) = .ok d' := by
  unfold append at added
  split at added
  · rename_i eq
    rw [eq]
    simpa using added
  · cases added

theorem append_write {d d' : Disk} {path : String} {j : Json} (added : append d path j = .ok d') :
    ∃ f, d.write path f = .ok d' := by
  have wrote := append_ok added
  unfold Disk.append at wrote
  split at wrote <;> exact ⟨_, wrote⟩

theorem append_holds {encode : α → Json} {d d' : Disk} {path : String} {records : List α}
    {a : α} (held : Hold encode d path records) (added : append d path (encode a) = .ok d') :
    Hold encode d' path (records ++ [a]) := by
  have wrote := append_ok added
  obtain ⟨absent, rfl⟩ | ⟨blank, modified, closed, empty, file⟩ := held
  · have none : d.file? path = none := by
      simp only [Disk.exists, Bool.or_eq_false_iff] at absent
      simpa using absent.2
    simp only [Disk.append, none] at wrote
    refine .inr ⟨"", 0, .inl rfl, rfl, ?_⟩
    rw [Disk.file?_write wrote]
    simp [after]
  · simp only [Disk.append, file] at wrote
    refine .inr ⟨blank, modified, closed, empty, ?_⟩
    rw [Disk.file?_write wrote]
    simp [after]

theorem append_frame {encode : α → Json} {d d' : Disk} {path other : String} {records : List α}
    {j : Json} (held : Hold encode d other records) (added : append d path j = .ok d')
    (ne : Disk.place? other ≠ Disk.place? path) : Hold encode d' other records := by
  obtain ⟨f, wrote⟩ := append_write added
  have file := Disk.file?_write_of_ne wrote ne
  unfold Hold at held ⊢
  rwa [Disk.exists, Disk.isDirectory_write wrote other, file, ← Disk.exists]

theorem read_held {encode : α → Json} {decode : Json → Option α} {d : Disk} {path : String}
    {records : List α} (held : Hold encode d path records)
    (back : ∀ a ∈ records, records? decode (line (encode a)) = some [a]) :
    read decode d path = .ok records := by
  unfold read
  obtain ⟨absent, rfl⟩ | ⟨blank, modified, closed, empty, file⟩ := held
  · simp [absent]
  · have there : d.exists path = true := by simp [Disk.exists, file]
    have none : records? decode blank = some [] := by simp [records?, empty]
    have all := records?_after closed none back
    rw [List.nil_append] at all
    simp [there, Disk.read, file, all]

end Lines

namespace Folder

def fileOf (directory : String) (k : RecordKind) (session : String) : String :=
  Disk.join directory (session ++ k.suffix)

structure Keeps (d : Disk) (directory session : String) (kept : Ledger) : Prop where
  valid : isValid session = true
  own : kept.only session = kept
  files : ∀ k, Lines.Hold k.toJson d (fileOf directory k session) (kept.of k)

theorem name_isStep {session suffix : String} (valid : isValid session = true)
    (flat : '/' ∉ suffix.toList) (long : 2 < suffix.toList.length) :
    Disk.IsStep (session ++ suffix) := by
  unfold isValid at valid
  simp only [Bool.and_eq_true, List.all_eq_true] at valid
  refine ⟨?_, ?_, ?_, ?_⟩
  · rw [String.toList_append, List.mem_append]
    rintro (member | member)
    · exact absurd (valid.2 _ member) (by decide)
    · exact flat member
  all_goals
    intro eq
    have length := congrArg List.length eq
    rw [String.toList_append, List.length_append] at length
    simp only [List.length_nil, List.length_cons] at length
    omega

theorem isStep {session : String} (valid : isValid session = true) (k : RecordKind) :
    Disk.IsStep (session ++ k.suffix) := by
  cases k
  · exact name_isStep valid (by decide) (by decide)
  · exact name_isStep valid (by decide) (by decide)

theorem place?_fileOf {session : String} (valid : isValid session = true) (directory : String)
    (k : RecordKind) : Disk.place? (fileOf directory k session) =
      some (Disk.directoryKey directory, session ++ k.suffix) :=
  Disk.place?_join directory (isStep valid k)

/-- The names of two files are the same only if their kinds and sessions are. -/
theorem name_inj {a b : String} {j k : RecordKind} (same : a ++ j.suffix = b ++ k.suffix) :
    a = b ∧ j = k := by
  have ends (s : String) (k : RecordKind) :
      (s ++ k.suffix).toList.reverse.take 8 = k.suffix.toList.reverse.take 8 := by
    rw [String.toList_append, List.reverse_append, List.take_append_of_le_length]
    cases k <;> decide
  have kinds : j = k := by
    have tails := ends a j
    rw [same, ends b k] at tails
    cases j <;> cases k <;> first | rfl | exact absurd tails (by decide)
  subst kinds
  rw [← String.toList_inj, String.toList_append, String.toList_append, List.append_left_inj,
    String.toList_inj] at same
  exact ⟨same, rfl⟩

theorem places_ne {a b : String} {j k : RecordKind} (valid : isValid a = true)
    (valid' : isValid b = true) (directory : String) (apart : ¬(a = b ∧ j = k)) :
    Disk.place? (fileOf directory j a) ≠ Disk.place? (fileOf directory k b) := by
  rw [place?_fileOf valid, place?_fileOf valid']
  intro same
  exact apart (name_inj (Prod.mk.inj (Option.some.inj same)).2)

theorem read_eq (d : Disk) (directory : String) (k : RecordKind) (session : String) :
    read d directory k session =
      if isValid session then Lines.read k.ofJson? d (fileOf directory k session)
      else .error (.invalidSession (Text.quoted session)) := by
  unfold read path fileOf
  by_cases valid : isValid session = true
  · rw [if_pos valid, if_pos valid]
    rfl
  · rw [if_neg valid, if_neg valid]
    rfl

/-- The records of a file are read first, and what is new is added to it. -/
theorem add_eq (d : Disk) (directory : String) (rec : Record) :
    add d directory rec = (read d directory rec.kind rec.session).bind fun old =>
      if old.any (rec.kind.key · = rec.key) then .error (rec.kind.duplicate rec.key)
      else Lines.append d (fileOf directory rec.kind rec.session) rec.toJson := by
  unfold add
  rw [read_eq, path]
  by_cases valid : isValid rec.session = true
  · simp only [valid, if_true, bind, Except.bind]
    cases Lines.read rec.kind.ofJson? d (fileOf directory rec.kind rec.session) with
    | error f => rfl
    | ok old =>
      dsimp only
      split <;> rfl
  · simp [valid, bind, Except.bind]

theorem read_ok {d : Disk} {directory session : String} {k : RecordKind} {old : List k.Of}
    (found : read d directory k session = .ok old) : isValid session = true ∧
      ∀ e, read e directory k session = Lines.read k.ofJson? e (fileOf directory k session) := by
  rw [read_eq] at found
  by_cases valid : isValid session = true
  · exact ⟨valid, fun e => by rw [read_eq, if_pos valid]⟩
  · rw [if_neg valid] at found
    cases found

theorem add_ok {d d' : Disk} {directory : String} {rec : Record}
    (added : add d directory rec = .ok d') : isValid rec.session = true ∧
      Lines.append d (fileOf directory rec.kind rec.session) rec.toJson = .ok d' := by
  rw [add_eq] at added
  obtain ⟨old, found, wrote⟩ := bind_eq_ok.mp added
  split at wrote
  · cases wrote
  · exact ⟨(read_ok found).1, wrote⟩

namespace Keeps

variable {d d' : Disk} {directory session : String} {kept : Ledger} {rec : Record}

theorem append (keeps : Keeps d directory session kept) (own : rec.session = session)
    (added : Lines.append d (fileOf directory rec.kind session) rec.toJson = .ok d') :
    Keeps d' directory session (kept.plus rec) := by
  refine ⟨keeps.valid, (Ledger.only_plus own).trans (by rw [keeps.own]), fun k => ?_⟩
  by_cases same : k = rec.kind
  · subst same
    rw [Ledger.of_plus]
    exact Lines.append_holds (keeps.files rec.kind) added
  · rw [Ledger.of_plus_other same]
    exact Lines.append_frame (keeps.files k) added
      (places_ne keeps.valid keeps.valid directory fun ⟨_, kinds⟩ => same kinds)

/-- A record of another session leaves the files of this one as they are. -/
theorem append_other (keeps : Keeps d directory session kept) (other : rec.session ≠ session)
    (valid : isValid rec.session = true)
    (added : Lines.append d (fileOf directory rec.kind rec.session) rec.toJson = .ok d') :
    Keeps d' directory session kept :=
  ⟨keeps.valid, keeps.own, fun k => Lines.append_frame (keeps.files k) added
    (places_ne keeps.valid valid directory fun ⟨sessions, _⟩ => other sessions.symm)⟩

theorem read (keeps : Keeps d directory session kept) {k : RecordKind}
    (legible : ∀ a ∈ kept.of k, k.Legible a) : Folder.read d directory k session = .ok (kept.of k) := by
  have back : ∀ a ∈ kept.of k, Lines.records? k.ofJson? (Lines.line (k.toJson a)) = some [a] :=
    fun a member => RecordKind.line_back.mpr (legible a member)
  rw [read_eq, if_pos keeps.valid]
  exact Lines.read_held (keeps.files k) back

end Keeps
end Folder

namespace Storage

structure HasDatabase (d : Disk) (path : String) (t : Rows) : Prop where
  file : ∃ modified, d.file? path = some ⟨.database t, modified⟩
  writable : ∀ f, ∃ d', d.write path f = .ok d'

def Keeps (st : Storage) (b : Backend) (session : String) (kept : Ledger) : Prop :=
  match b with
  | .memory => st.memory.only session = kept
  | .folder directory => Folder.Keeps st.disk directory session kept
  | .privateDatabase => st.privateRows.only session = .ofLedger kept
  | .database path => ∃ t, HasDatabase st.disk path t ∧ t.only session = .ofLedger kept

theorem HasDatabase.load {d : Disk} {path : String} {t : Rows} (has : HasDatabase d path t) :
    Database.load d path = t := by
  obtain ⟨modified, file⟩ := has.file
  simp [Database.load, file]

theorem HasDatabase.save {d : Disk} {path : String} {t : Rows} (has : HasDatabase d path t)
    (t' : Rows) : HasDatabase (Database.save d path t') path t' := by
  obtain ⟨d', wrote⟩ := has.writable ⟨.database t', 0⟩
  have saved : Database.save d path t' = d' := by
    rw [Database.save, wrote]
    rfl
  rw [saved]
  exact ⟨⟨0, Disk.file?_write wrote⟩, Disk.write_again wrote⟩

theorem mapped {α : Type} {x : Except Fault α} {f : α → Storage} {st : Storage}
    (ok : x.map f = .ok st) : ∃ a, x = .ok a ∧ f a = st := by
  cases x with
  | error cause => cases ok
  | ok a => exact ⟨a, rfl, Except.ok.inj ok⟩

end Storage

theorem Ledger.add_ok {l l' : Ledger} {rec : Record} (added : l.add rec = .ok l') :
    l' = l.plus rec := by
  unfold add at added
  split at added
  · cases added
  · exact (Except.ok.inj added).symm

theorem Database.add_ok {t t' : Rows} {rec : Record} (added : add t rec = .ok t') :
    t' = t.plus rec := by
  unfold add at added
  split at added
  · cases added
  · exact (Except.ok.inj added).symm

/-- Rows that differ only in order are read alike. -/
theorem Database.decode_perm {k : RecordKind} {items : List k.Of} {rows : List Row}
    (same : rows.Perm (items.map (Row.of k))) (legible : ∀ a ∈ items, k.Legible a) :
    ∃ found : List k.Of, rows.mapM (decode k) = .ok found ∧ found.Perm items := by
  have arranged : Relation.Comp (fun rows found => rows = found.map (Row.of k)) List.Perm rows
      items := by
    rw [List.eq_map_comp_perm]
    exact same
  obtain ⟨found, rfl, perm⟩ := arranged
  exact ⟨found, decode_all fun a member => legible a (perm.subset member), perm⟩

namespace Storage.Keeps

variable {st st' : Storage} {b : Backend} {session : String} {kept : Ledger} {rec : Record}

theorem add (keeps : st.Keeps b session kept) (own : rec.session = session)
    (added : st.add b rec = .ok st') : st'.Keeps b session (kept.plus rec) := by
  cases b with
  | memory =>
    obtain ⟨l, made, rfl⟩ := mapped added
    change l.only session = _
    rw [Ledger.add_ok made, Ledger.only_plus own, show st.memory.only session = kept from keeps]
  | folder directory =>
    obtain ⟨d, made, rfl⟩ := mapped added
    obtain ⟨_, appended⟩ := Folder.add_ok made
    exact Folder.Keeps.append keeps own (own ▸ appended)
  | privateDatabase =>
    obtain ⟨t, made, rfl⟩ := mapped added
    change t.only session = _
    rw [Database.add_ok made, Rows.only_plus own, Rows.ofLedger_plus,
      show st.privateRows.only session = _ from keeps]
  | database path =>
    obtain ⟨t, has, rows⟩ := keeps
    obtain ⟨t', made, rfl⟩ := mapped added
    rw [has.load] at made
    refine ⟨_, has.save _, ?_⟩
    rw [Database.add_ok made, Rows.only_plus own, Rows.ofLedger_plus, rows]

theorem statesOf (keeps : st.Keeps b session kept)
    (back : ∀ a ∈ kept.states, b.ReadsBack (.state a)) :
    st.statesOf b session = .ok (Ledger.inPlace kept.states) := by
  have rows {t : Rows} (same : t.only session = .ofLedger kept)
      (legible : ∀ a ∈ kept.states, RecordKind.state.Legible a) :
      Database.statesOf t session = .ok (Ledger.inPlace kept.states) := by
    have found : t.states.filter (·.key.session = session) = kept.states.map (Row.of .state) :=
      congrArg Rows.states same
    rw [Database.statesOf, found, Database.decode_all legible]
    rfl
  cases b with
  | memory =>
    have found : st.memory.states.filter (·.session = session) = kept.states :=
      congrArg Ledger.states keeps
    rw [Storage.statesOf, Ledger.statesOf, found]
  | folder directory =>
    have found := Folder.Keeps.read keeps (k := .state) back
    change Folder.statesOf st.disk directory session = _
    rw [Folder.statesOf, found]
    rfl
  | privateDatabase => exact rows keeps back
  | database path =>
    obtain ⟨t, has, same⟩ := keeps
    change Database.statesOf (Database.load st.disk path) session = _
    rw [has.load]
    exact rows same back

theorem query (keeps : st.Keeps b session kept) (back : ∀ log ∈ kept.logs, b.ReadsBack (.log log)) :
    ∃ found, st.query b (.ofSession session) = .ok found ∧ found.Perm kept.logs := by
  have matched : (DecisionFilter.ofSession session).matches = fun log => decide (log.session = session) := by
    funext log
    rw [Bool.eq_iff_iff]
    simp [DecisionFilter.ofSession, DecisionFilter.matches, DecisionFilter.any]
  have passed : Database.passes (.ofSession session) =
      fun row => decide (row.key.session = session) := by
    funext row
    rw [Bool.eq_iff_iff]
    simp [DecisionFilter.ofSession, Database.passes, DecisionFilter.any]
  have rows {t : Rows} (same : t.only session = .ofLedger kept)
      (legible : ∀ log ∈ kept.logs, RecordKind.log.Legible log) :
      ∃ found, Database.query t (.ofSession session) = .ok found ∧ found.Perm kept.logs := by
    have found : t.logs.filter (·.key.session = session) = kept.logs.map (Row.of .log) :=
      congrArg Rows.logs same
    refine Database.decode_perm (k := .log) ?_ legible
    change List.Perm ((t.logs.filter _).mergeSort Database.ordered) _
    rw [passed, found]
    exact List.mergeSort_perm _ _
  cases b with
  | memory =>
    refine ⟨_, rfl, ?_⟩
    have found : st.memory.logs.filter (·.session = session) = kept.logs :=
      congrArg Ledger.logs keeps
    have sorted := (List.mergeSort_perm st.memory.logs fun a b => !StateKey.lt b.key a.key).filter
      (·.session = session)
    rw [found] at sorted
    unfold DecisionFilter.apply
    rw [matched]
    exact (List.mergeSort_perm _ _).trans sorted
  | folder directory =>
    refine ⟨(DecisionFilter.ofSession session).apply kept.logs, ?_, ?_⟩
    · have read := Folder.Keeps.read keeps (k := .log) back
      change (Folder.read st.disk directory .log session >>= fun logs =>
        Except.ok ((DecisionFilter.ofSession session).apply logs)) = _
      rw [read]
      rfl
    · have own : kept.logs.filter (·.session = session) = kept.logs :=
        congrArg Ledger.logs (Folder.Keeps.own keeps)
      unfold DecisionFilter.apply
      rw [matched, own]
      exact List.mergeSort_perm _ _
  | privateDatabase => exact rows keeps back
  | database path =>
    obtain ⟨t, has, same⟩ := keeps
    change ∃ found, Database.query (Database.load st.disk path) _ = .ok found ∧ _
    rw [has.load]
    exact rows same back

/-- What is kept in rows takes a record whose key is new. -/
theorem add_new (keeps : st.Keeps b session kept) (rows : ∀ directory, b ≠ .folder directory)
    (own : rec.session = session) (new : kept.holds rec.kind rec.key = false) :
    ∃ st', st.add b rec = .ok st' := by
  have inRows {t : Rows} (same : t.only session = .ofLedger kept) :
      Database.add t rec = .ok (t.plus rec) := by
    unfold Database.add
    rw [← Database.holds_only t, show rec.key.session = session from own, same,
      Database.holds_ofLedger, new]
    rfl
  cases b with
  | memory =>
    have absent : st.memory.holds rec.kind rec.key = false := by
      rw [← Ledger.holds_only, show rec.key.session = session from own,
        show st.memory.only session = kept from keeps, new]
    exact ⟨_, by rw [Storage.add, Ledger.add, absent]; rfl⟩
  | folder directory => exact absurd rfl (rows directory)
  | privateDatabase => exact ⟨_, by rw [Storage.add, inRows keeps]; rfl⟩
  | database path =>
    obtain ⟨t, has, same⟩ := keeps
    exact ⟨_, by rw [Storage.add, has.load, inRows same]; rfl⟩

end Storage.Keeps
end Orchestration
