import Orchestration.Proofs.Damage
import Orchestration.Proofs.Sorting

/-! Records of different sessions are kept apart. What a backend is asked about one session it
answers as before when a record of another one has been added: the ledgers of two sessions lie in
one list but are told apart by their ids, and in a directory they lie in different files. -/
namespace Orchestration

theorem StateKey.not_lt_iff (a b : StateKey) : (!StateKey.lt b a) = true ↔
    a.session < b.session ∨ a.session = b.session ∧ placeLt b a = false := by
  unfold StateKey.lt
  rcases lt_trichotomy a.session b.session with less | same | more
  · simp [less, String.lt_asymm less, ne_of_gt less]
  · simp [same]
  · simp [more, String.lt_asymm more, ne_of_gt more]

namespace Ledger

/-- By key, equals in their order: the logs of one session are found as if there were no others. -/
theorem logsInOrder_filter (l : Ledger) (kept : DecisionLog → Bool) :
    l.logsInOrder.filter kept = (⟨l.states, l.logs.filter kept⟩ : Ledger).logsInOrder := by
  refine filter_mergeSort (fun a b c first second => ?_) (fun a b => ?_) kept l.logs
  · rw [StateKey.not_lt_iff] at *
    rcases first with less | ⟨same, place⟩ <;> rcases second with less' | ⟨same', place'⟩
    · exact .inl (String.lt_trans less less')
    · exact .inl (same' ▸ less)
    · exact .inl (same ▸ less')
    · refine .inr ⟨same.trans same', ?_⟩
      rw [Bool.eq_false_iff, ne_eq, StateKey.placeLt_iff] at *
      omega
  · rw [Bool.or_eq_true, StateKey.not_lt_iff, StateKey.not_lt_iff]
    rcases lt_trichotomy a.key.session b.key.session with less | same | more
    · exact .inl (.inl less)
    · by_cases before : StateKey.placeLt b.key a.key = true
      · refine .inr (.inr ⟨same.symm, ?_⟩)
        rw [StateKey.placeLt_iff] at before
        rw [Bool.eq_false_iff, ne_eq, StateKey.placeLt_iff]
        omega
      · exact .inl (.inr ⟨same, by simpa using before⟩)
    · exact .inr (.inl more)

/-- A filter for one session finds the same among the records of that session alone. -/
theorem only_filter (l : Ledger) {session : String} {passes : DecisionLog → Bool}
    (narrow : ∀ log, passes log = true → log.session = session) :
    (l.only session).logs.filter passes = l.logs.filter passes := by
  rw [only, List.filter_filter]
  refine List.filter_congr fun log _ => ?_
  cases pass : passes log with
  | false => rfl
  | true => simp [narrow log pass]

end Ledger

theorem DecisionFilter.matches_session {f : DecisionFilter} {session : String}
    (asks : f.session = some session) {log : DecisionLog} (passed : f.matches log = true) :
    log.session = session := by
  simp only [DecisionFilter.matches, asks, Option.all_some, Bool.and_eq_true, beq_iff_eq] at passed
  exact passed.1.1.1.1

theorem Ledger.inOrder_only (l : Ledger) {f : DecisionFilter} {session : String}
    (asks : f.session = some session) :
    f.apply (l.only session).logsInOrder = f.apply l.logsInOrder := by
  unfold DecisionFilter.apply
  rw [logsInOrder_filter, logsInOrder_filter,
    only_filter l fun log => DecisionFilter.matches_session asks]
  rfl

namespace Database

variable {session : String}

theorem passes_session {f : DecisionFilter} (asks : f.session = some session) {row : Row}
    (passed : passes f row = true) : row.key.session = session := by
  simp only [passes, asks, Option.all_some, Bool.and_eq_true, beq_iff_eq] at passed
  exact passed.1.1.1.1

theorem statesOf_only (t : Rows) (session : String) :
    statesOf (t.only session) session = statesOf t session := by
  rw [statesOf, Rows.only, List.filter_filter]
  simp only [Bool.and_self]
  rfl

theorem state?_only (t : Rows) (key : StateKey) :
    state? (t.only key.session) key = state? t key := by
  have same : (t.only key.session).states.find? (·.key = key) = t.states.find? (·.key = key) := by
    rw [Rows.only, List.find?_filter]
    congr 1
    funext row
    by_cases same : row.key = key
    · simp [same]
    · simp [same]
  rw [state?, same]
  rfl

theorem query_only (t : Rows) {f : DecisionFilter} (asks : f.session = some session) :
    query (t.only session) f = query t f := by
  have same : (t.only session).logs.filter (passes f) = t.logs.filter (passes f) := by
    rw [Rows.only, List.filter_filter]
    refine List.filter_congr fun row _ => ?_
    cases pass : passes f row with
    | false => rfl
    | true => simp [passes_session asks pass]
  unfold query queryBy
  rw [same]

end Database

namespace Lines

theorem append_read {α : Type} {decode : Json → Option α} {d d' : Disk} {path other : String}
    {j : Json} (added : append d path j = .ok d') (ne : Disk.place? other ≠ Disk.place? path) :
    read decode d' other = read decode d other := by
  obtain ⟨f, wrote⟩ := append_write added
  have file := Disk.file?_write_of_ne wrote ne
  have directory := Disk.isDirectory_write wrote other
  unfold read Disk.exists Disk.read
  rw [file, directory]
  cases d.file? other with
  | some g =>
    obtain ⟨content, modified⟩ := g
    cases content <;> rfl
  | none => cases d.isDirectory other <;> rfl

end Lines

namespace Storage

structure AlikeFor (b : Backend) (session : String) (st st' : Storage) : Prop where
  states : st'.statesOf b session = st.statesOf b session
  state : ∀ key, key.session = session → st'.state? b key = st.state? b key
  logs : ∀ f, f.session = some session → st'.query b f = st.query b f

structure FromRows (b : Backend) (session : String) (st : Storage) (t : Rows) : Prop where
  states : st.statesOf b session = Database.statesOf t session
  state : ∀ key, st.state? b key = Database.state? t key
  logs : ∀ f, st.query b f = Database.query t f

namespace AlikeFor

variable {b : Backend} {session : String} {st st' st'' : Storage}

theorem refl (st : Storage) : AlikeFor b session st st :=
  ⟨rfl, fun _ _ => rfl, fun _ _ => rfl⟩

theorem trans (first : AlikeFor b session st st') (second : AlikeFor b session st' st'') :
    AlikeFor b session st st'' :=
  ⟨second.states.trans first.states, fun key own => (second.state key own).trans (first.state key own),
    fun f own => (second.logs f own).trans (first.logs f own)⟩

/-- Records that are the same of a session answer alike. -/
theorem of_memory (same : st'.memory.only session = st.memory.only session) :
    AlikeFor .memory session st st' where
  states := congrArg (fun l : Ledger => Except.ok (Ledger.inPlace l.states)) same
  state key own := by
    change Except.ok (st'.memory.state? key) = Except.ok (st.memory.state? key)
    rw [← Ledger.find?_only, own, same, ← own, Ledger.find?_only]
  logs f asks := by
    change Except.ok (f.apply st'.memory.logsInOrder) = Except.ok (f.apply st.memory.logsInOrder)
    rw [← Ledger.inOrder_only _ asks, same, Ledger.inOrder_only _ asks]

theorem of_rows {t t' : Rows} (same : t'.only session = t.only session)
    (rows : FromRows b session st t) (rows' : FromRows b session st' t') :
    AlikeFor b session st st' where
  states := by
    rw [rows.states, rows'.states, ← Database.statesOf_only, same, Database.statesOf_only]
  state key own := by
    rw [rows.state, rows'.state, ← Database.state?_only t', own, same, ← own, Database.state?_only]
  logs f asks := by
    rw [rows.logs, rows'.logs, ← Database.query_only t' asks, same, Database.query_only t asks]

theorem of_reads {directory : String}
    (same : ∀ k, Folder.read st'.disk directory k session = Folder.read st.disk directory k session) :
    AlikeFor (.folder directory) session st st' where
  states := by
    change Folder.statesOf st'.disk directory session = Folder.statesOf st.disk directory session
    rw [Folder.statesOf, Folder.statesOf, same]
  state key own := by
    change Folder.state? st'.disk directory key = Folder.state? st.disk directory key
    rw [Folder.state?, Folder.state?, own, same]
  logs f asks := by
    change Folder.query st'.disk directory f = Folder.query st.disk directory f
    rw [Folder.query, Folder.query, asks]
    dsimp only
    rw [same]

end AlikeFor

variable {b : Backend} {rec : Record} {session : String} {st st' : Storage}

/-- A database is saved, or left as it was. -/
theorem load_save (d : Disk) (path : String) (t : Rows) :
    Database.load (Database.save d path t) path = t ∨
      Database.load (Database.save d path t) path = Database.load d path := by
  unfold Database.save
  cases wrote : d.write path ⟨.database t, 0⟩ with
  | error cause => exact .inr rfl
  | ok d' =>
    refine .inl ?_
    change Database.load d' path = t
    rw [Database.load, Disk.file?_write wrote]

theorem add_alikeFor (added : st.add b rec = .ok st') (other : rec.session ≠ session) :
    AlikeFor b session st st' := by
  cases b with
  | memory =>
    obtain ⟨l, made, rfl⟩ := mapped added
    refine .of_memory ?_
    change l.only session = _
    rw [Ledger.add_ok made, Ledger.only_plus_other other]
  | folder directory =>
    obtain ⟨d, made, rfl⟩ := mapped added
    obtain ⟨valid, appended⟩ := Folder.add_ok made
    refine .of_reads fun k => ?_
    rw [Folder.read_eq, Folder.read_eq]
    split
    · rename_i named
      exact Lines.append_read appended
        (Folder.places_ne named valid directory fun ⟨sessions, _⟩ => other sessions.symm)
    · rfl
  | privateDatabase =>
    obtain ⟨t, made, rfl⟩ := mapped added
    have before : FromRows .privateDatabase session st st.privateRows :=
      ⟨rfl, fun _ => rfl, fun _ => rfl⟩
    refine .of_rows ?_ before ⟨rfl, fun _ => rfl, fun _ => rfl⟩
    rw [Database.add_ok made]
    exact Rows.only_plus_other other
  | database path =>
    obtain ⟨t, made, rfl⟩ := mapped added
    have before : FromRows (.database path) session st (Database.load st.disk path) :=
      ⟨rfl, fun _ => rfl, fun _ => rfl⟩
    have after : FromRows (.database path) session
        { st with disk := Database.save st.disk path t }
        (Database.load (Database.save st.disk path t) path) :=
      ⟨rfl, fun _ => rfl, fun _ => rfl⟩
    refine .of_rows ?_ before after
    rcases load_save st.disk path t with saved | left
    · rw [saved, Database.add_ok made, Rows.only_plus_other other]
    · rw [left]

end Storage
end Orchestration
