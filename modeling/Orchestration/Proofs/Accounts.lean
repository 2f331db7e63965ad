import Orchestration.Proofs.Course
import Orchestration.Proofs.Keeping

/-! The accounts of a run. At every moment the storage is the one that the run began with,
and the records of its journal added to that one after the other. So in the end the store
keeps the history, the logs of its decisions, and at most the log of one decision more. -/
namespace Orchestration

variable {η σ : Type}

def Deed.stored? : Deed → Option Record
  | stored rec => some rec
  | _ => none

def storedIn (journal : List Deed) : List Record := (writesIn journal).filterMap Deed.stored?

theorem filterMap_stored (records : List Record) :
    (records.map Deed.stored).filterMap Deed.stored? = records := by
  induction records with
  | nil => rfl
  | cons rec rest ih => simp [Deed.stored?, ih]

namespace Ledger

def plusAll (l : Ledger) (records : List Record) : Ledger := records.foldl plus l

theorem holds_plus {l : Ledger} {rec : Record} {k : RecordKind} {key : StateKey} :
    (l.plus rec).holds k key = true ↔ l.holds k key = true ∨ rec.kind = k ∧ rec.key = key := by
  unfold holds
  by_cases same : k = rec.kind
  · subst same
    rw [of_plus]
    simp [Record.key]
  · rw [of_plus_other same]
    simp [Ne.symm same]

theorem holds_plusAll {l : Ledger} {records : List Record} {k : RecordKind} {key : StateKey} :
    (l.plusAll records).holds k key = true ↔
      l.holds k key = true ∨ ∃ rec ∈ records, rec.kind = k ∧ rec.key = key := by
  induction records generalizing l with
  | nil => simp [plusAll]
  | cons rec rest ih =>
    change ((l.plus rec).plusAll rest).holds k key = true ↔ _
    rw [ih, holds_plus, or_assoc, List.exists_mem_cons_iff]

theorem plusAll_logs (l : Ledger) (logs : List DecisionLog) :
    l.plusAll (logs.map .log) = ⟨l.states, l.logs ++ logs⟩ := by
  induction logs generalizing l with
  | nil => simp [plusAll]
  | cons log rest ih =>
    change (l.plus (.log log)).plusAll (rest.map .log) = _
    rw [ih]
    simp [plus]

theorem plusAll_append (l : Ledger) (first second : List Record) :
    l.plusAll (first ++ second) = (l.plusAll first).plusAll second := List.foldl_append

end Ledger

namespace Storage

def addAll (b : Backend) (st : Storage) (records : List Record) : Except Fault Storage :=
  records.foldlM (·.add b ·) st

theorem addAll_concat {b : Backend} {st st' : Storage} {records : List Record} {rec : Record}
    (added : st.addAll b records = .ok st') :
    st.addAll b (records ++ [rec]) = st'.add b rec := by
  unfold addAll at *
  rw [List.foldlM_append, added]
  simp [bind, Except.bind]
  cases st'.add b rec <;> rfl

theorem Keeps.addAll {b : Backend} {session : String} {records : List Record}
    {st st' : Storage} {kept : Ledger} (keeps : st.Keeps b session kept)
    (own : ∀ rec ∈ records, rec.session = session) (added : st.addAll b records = .ok st') :
    st'.Keeps b session (kept.plusAll records) := by
  induction records generalizing st kept with
  | nil =>
    cases added
    exact keeps
  | cons rec rest ih =>
    unfold Storage.addAll at added
    rw [List.foldlM_cons] at added
    cases first : st.add b rec with
    | error f => rw [first] at added; cases added
    | ok mid =>
      rw [first] at added
      have one := keeps.add (own rec (by simp)) first
      exact ih one (fun rec member => own rec (List.mem_cons_of_mem _ member)) added

end Storage

def Accounted (b : Backend) (before : Storage) (w : World η σ) : Prop :=
  before.addAll b (storedIn w.journal) = .ok w.storage

namespace Services

variable (s : Services η σ)

theorem accounted_keeps (before : Storage) :
    s.Keeps fun w _ => Accounted s.backend before w where
  worked v w _ worked accounted := by
    unfold Accounted storedIn at *
    rw [worked.writesIn_eq, worked.storage, accounted]
  written rec st w _ added accounted := by
    have more : storedIn (w.written rec st).journal = storedIn w.journal ++ [rec] := by
      change storedIn (.stored rec :: w.journal) = _
      simp [storedIn, writesIn_cons, Deed.isWrite, Deed.stored?]
    unfold Accounted
    rw [more, Storage.addAll_concat accounted, added]
    rfl
  refused rec cause w _ _ accounted := by
    have same : storedIn (w.note (.refused rec cause)).journal = storedIn w.journal := by
      change storedIn (.refused rec cause :: w.journal) = _
      simp [storedIn, writesIn_cons, Deed.isWrite, Deed.stored?]
    unfold Accounted
    rw [same]
    exact accounted

theorem outcome_accounted (fits : s.config.Fits) (command : String) (context : Table Json)
    (session : Option String) (w : World η σ) :
    Accounted s.backend w.storage (s.outcome command context session w).world := by
  obtain ⟨_, new, blank, same⟩ := s.begin_blank command context session w
  have first : Accounted s.backend w.storage (s.begin command context session w).1 := by
    unfold Accounted
    rw [blank, same]
    rfl
  exact (s.accounted_keeps w.storage).drive fits new first

end Services

theorem Record.call_inj {a b : Record} : a.call = b.call ↔ a.kind = b.kind ∧ a.key = b.key := by
  cases a <;> cases b <;> simp [call, kind, key, content, RecordKind.key]

namespace State

theorem mirrors_key {a : State} : ∀ log ∈ a.mirrors, log.key = a.key := by
  intro log member
  unfold mirrors at member
  split at member
  · unfold DecisionLog.ofState? at member
    rw [Option.mem_toList, Option.map_eq_some_iff] at member
    obtain ⟨d, _, rfl⟩ := member
    rfl
  · cases member

theorem writes_key {a : State} : ∀ rec ∈ a.writes, rec.key = a.key := by
  intro rec member
  rcases List.mem_append.mp member with logged | stored
  · obtain ⟨log, mirrored, rfl⟩ := List.mem_map.mp logged
    exact mirrors_key log mirrored
  · rw [List.mem_singleton.mp stored]
    rfl

theorem writes_cases {a : State} {done left : List Record} {rec : Record}
    (order : a.writes = done ++ rec :: left) :
    (done = a.mirrors.map .log ∧ rec = .state a) ∨
      (∃ log, a.mirrors = [log] ∧ done = [] ∧ rec = .log log) := by
  have few : a.mirrors = [] ∨ ∃ log, a.mirrors = [log] := by
    unfold mirrors
    split
    · cases DecisionLog.ofState? a with
      | none => exact .inl rfl
      | some log => exact .inr ⟨log, rfl⟩
    · exact .inl rfl
  unfold writes at order
  obtain none | ⟨log, one⟩ := few
  · rw [none] at order ⊢
    cases done with
    | nil => exact .inl ⟨rfl, (List.cons.inj order).1.symm⟩
    | cons => simp at order
  · rw [one] at order ⊢
    cases done with
    | nil => exact .inr ⟨log, rfl, rfl, (List.cons.inj order).1.symm⟩
    | cons first rest =>
      obtain ⟨rfl, tail⟩ := List.cons.inj order
      cases rest with
      | nil => exact .inl ⟨rfl, (List.cons.inj tail).1.symm⟩
      | cons => simp at tail

end State

theorem writesFor_session {history : List State} {session : String}
    (own : ∀ a ∈ history, a.session = session) :
    ∀ rec ∈ writesFor history, rec.session = session := by
  intro rec member
  obtain ⟨a, inside, written⟩ := List.mem_flatMap.mp member
  rw [Record.session, State.writes_key rec written]
  exact own a inside

/-- A history leaves its states, and the logs of its decisions. -/
theorem plusAll_writesFor (l : Ledger) (history : List State) :
    l.plusAll (writesFor history) = ⟨l.states ++ history, l.logs ++ history.flatMap State.mirrors⟩ := by
  induction history generalizing l with
  | nil => simp [Ledger.plusAll, writesFor]
  | cons a rest ih =>
    have one : l.plusAll a.writes = ⟨l.states ++ [a], l.logs ++ a.mirrors⟩ := by
      rw [State.writes, Ledger.plusAll_append, Ledger.plusAll_logs]
      rfl
    change l.plusAll (a.writes ++ writesFor rest) = _
    rw [Ledger.plusAll_append, one, ih]
    simp

/-- How a run leaves its journal: no write was refused, or the last deed is the refusal that
stopped it, and the first of its kind. -/
inductive Services.Closing (s : Services η σ) (e : Standing η σ) : List DecisionLog → Prop
  | unbroken (accepted : ∀ rec cause, .refused rec cause ∉ e.world.journal)
    (ended : e.stopped = none)
    (closed : ∃ a ∈ e.run.history.getLast?, a.Closes s.config.maxIterations) : s.Closing e []
  | stopped (rec : Record) (cause : Interruption) (w : World η σ) (orphans : List DecisionLog)
    (last : e.world = w.note (.refused rec cause)) (own : rec.session = e.run.session)
    (failed : (s.keep rec w).failure? = some cause)
    (accepted : ∀ rec cause, .refused rec cause ∉ w.journal)
    (ended : e.stopped = some cause)
    (unclosed : ∀ a ∈ e.run.history, a.phase ≠ .complete)
    (orphaned : orphans = [] ∨ ∃ b, rec = .state b ∧ b.phase = .decision ∧
      ∃ log, DecisionLog.ofState? b = some log ∧ orphans = [log]) : s.Closing e orphans

theorem refused_not_mem {journal : List Deed} {records : List Record}
    (writes : writesIn journal = records.map .stored) (rec : Record) (cause : Interruption) :
    .refused rec cause ∉ journal := by
  intro member
  have write : Deed.refused rec cause ∈ writesIn journal := by
    simpa [writesIn] using ⟨member, rfl⟩
  rw [writes] at write
  simp at write

theorem storedIn_of_writes {journal : List Deed} {records : List Record}
    (writes : writesIn journal = records.map .stored) : storedIn journal = records := by
  rw [storedIn, writes, filterMap_stored]

theorem storedIn_refused {w : World η σ} {records : List Record}
    (writes : writesIn w.journal = records.map .stored) (rec : Record) (cause : Interruption) :
    storedIn (w.note (.refused rec cause)).journal = records := by
  change storedIn (.refused rec cause :: w.journal) = _
  rw [storedIn, writesIn_cons, writes, List.filterMap_append, filterMap_stored]
  exact List.append_nil _

/-- At its end, a run is at the end of its course, and the records it wrote are those of its
history, and beyond them the log of one decision at most. -/
theorem Services.Ends.closing {s : Services η σ} {e : Standing η σ} (ends : s.Ends e) :
    Course e.run.session s.config.maxIterations e.run.history ∧
      ∃ orphans : List DecisionLog, s.Closing e orphans ∧
        (∀ log ∈ orphans, log.session = e.run.session) ∧
        storedIn e.world.journal = writesFor e.run.history ++ orphans.map .log := by
  cases ends with
  | finished w r course closed writes =>
    refine ⟨course, [], .unbroken (refused_not_mem writes) rfl closed, by simp, ?_⟩
    exact (storedIn_of_writes writes).trans (List.append_nil _).symm
  | broken w r cause b rec done left course order writes failed =>
    have own : b.session = r.session := course.session b (by simp)
    have unclosed : ∀ a ∈ r.history, a.phase ≠ .complete :=
      fun a member => (course.unmarked a member).1
    have stored := storedIn_refused writes rec cause
    have ofSession : rec.session = r.session := by
      rw [Record.session, State.writes_key rec (by rw [order]; simp)]
      exact own
    refine ⟨course.left, ?_⟩
    obtain ⟨rfl, rfl⟩ | ⟨log, _, rfl, rfl⟩ := State.writes_cases order
    · refine ⟨b.mirrors, .stopped _ cause w _ rfl ofSession failed (refused_not_mem writes) rfl unclosed ?_,
        ?_, stored⟩
      · unfold State.mirrors
        split
        · cases mirrored : DecisionLog.ofState? b with
          | none => exact .inl rfl
          | some log => exact .inr ⟨b, rfl, ‹_›, log, mirrored, rfl⟩
        · exact .inl rfl
      · intro log member
        exact (congrArg StateKey.session (State.mirrors_key log member)).trans own
    · exact ⟨[], .stopped _ cause w _ rfl ofSession failed (refused_not_mem writes) rfl unclosed (.inl rfl),
        by simp, stored⟩

theorem Services.Ends.logged {s : Services η σ} {e : Standing η σ} (ends : s.Ends e) :
    ∀ a ∈ e.run.history, a.phase = .decision → ∃ log, DecisionLog.ofState? a = some log := by
  intro a member decided
  cases ends with
  | finished w r course closed writes =>
    obtain ⟨z, last, closes⟩ := closed
    obtain ⟨front, eq⟩ := List.getLast?_eq_some_iff.mp last
    change a ∈ r.history at member
    rw [eq] at course member
    rcases List.mem_append.mp member with before | here
    · exact course.logged a before decided
    · rw [List.mem_singleton.mp here] at decided ⊢
      exact closes.logged decided
  | broken w r cause b rec done left course => exact course.logged a member decided

theorem Services.Ends.refused_new {s : Services η σ} {e : Standing η σ} (ends : s.Ends e)
    {rec : Record} {cause : Interruption} (refused : .refused rec cause ∈ e.world.journal) :
    ∀ old ∈ storedIn e.world.journal, old.call ≠ rec.call := by
  intro old stored same
  cases ends with
  | finished w r course closed writes =>
    exact refused_not_mem writes rec cause refused
  | broken w r why b broke done left course order writes failed =>
    obtain ⟨rfl, rfl⟩ : rec = broke ∧ cause = why := by
      rcases List.mem_cons.mp refused with here | earlier
      · cases here
        exact ⟨rfl, rfl⟩
      · exact absurd earlier (refused_not_mem writes rec cause)
    rw [storedIn_refused writes rec cause] at stored
    rcases List.mem_append.mp stored with before | own
    · obtain ⟨a, inside, made⟩ := List.mem_flatMap.mp before
      have keys : a.key = b.key := by
        rw [← State.writes_key old made, (Record.call_inj.mp same).2]
        exact State.writes_key rec (by rw [order]; simp)
      have less := (List.pairwise_append.mp course.increasing).2.2 a inside b (by simp)
      rw [keys, StateKey.placeLt_iff] at less
      omega
    · obtain ⟨rfl, rfl⟩ | ⟨log, _, rfl, _⟩ := State.writes_cases order
      · obtain ⟨log, _, rfl⟩ := List.mem_map.mp own
        cases same
      · cases own

end Orchestration
