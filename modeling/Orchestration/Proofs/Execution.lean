import Orchestration.Proofs.Accounts

/-! What an execution comes to. It ends, after a course through the phases whose keys grow; a
write that fails is the last thing that happens in it, and leaves in the store what was
written before; and the result can be had again from the store. -/
namespace Orchestration

variable {η σ : Type}

/-- A store that accepts every new key: what it refused, it was given before. -/
def AcceptsNew (journal : List Deed) : Prop :=
  ∀ rec cause, .refused rec cause ∈ journal → ∃ old, .stored old ∈ journal ∧ old.call = rec.call

theorem stored_mem {journal : List Deed} {rec : Record} :
    .stored rec ∈ journal ↔ rec ∈ storedIn journal := by
  simp only [storedIn, writesIn, List.mem_filterMap, List.mem_reverse, List.mem_filter]
  constructor
  · intro member
    exact ⟨_, ⟨member, rfl⟩, rfl⟩
  · rintro ⟨d, ⟨member, _⟩, stored⟩
    cases d <;> cases stored
    exact member

namespace Services

variable (s : Services η σ)

theorem resultOf_history (e : Standing η σ) :
    (resultOf e).session = e.run.session ∧ (resultOf e).history = e.run.history := by
  have shape (session : String) (history : List State) :
      (RunResult.inFull session history).session = session ∧
        (RunResult.inFull session history).history = history := by
    unfold RunResult.inFull
    split <;> exact ⟨rfl, rfl⟩
  unfold resultOf
  split <;> exact shape _ _

theorem execute_storage (command : String) (context : Table Json) (session : Option String)
    (w : World η σ) : (s.execute command context session w).2.storage =
      (s.outcome command context session w).world.storage := by
  unfold execute
  dsimp only
  split <;> rfl

theorem execute_parts (command : String) (context : Table Json) (session : Option String)
    (w : World η σ) : (s.execute command context session w).2.parts =
      (s.outcome command context session w).world.parts := by
  unfold execute
  dsimp only
  split <;> rfl

theorem outcome_keeps (valid : s.config.validate = .ok ()) (fits : s.config.Fits)
    (command : String) (context : Table Json) (session : Option String) (w : World η σ)
    (fresh : w.storage.Keeps s.backend (s.begin command context session w).2.session .empty)
    {orphans : List DecisionLog}
    (own : ∀ log ∈ orphans, log.session = (s.outcome command context session w).run.session)
    (written : storedIn (s.outcome command context session w).world.journal =
      writesFor (s.outcome command context session w).run.history ++ orphans.map .log) :
    (s.outcome command context session w).world.storage.Keeps s.backend
      (s.outcome command context session w).run.session
      ⟨(s.outcome command context session w).run.history,
        (s.outcome command context session w).run.history.flatMap State.mirrors ++ orphans⟩ := by
  have ends := s.outcome_ends valid fits command context session w
  have accounted := s.outcome_accounted fits command context session w
  rw [← s.outcome_session fits command context session w] at fresh
  generalize s.outcome command context session w = e at *
  obtain ⟨course, _⟩ := ends.closing
  have ofSession : ∀ rec ∈ storedIn e.world.journal, rec.session = e.run.session := by
    intro rec member
    rw [written] at member
    rcases List.mem_append.mp member with ofState | ofLog
    · exact writesFor_session course.session rec ofState
    · obtain ⟨log, orphan, rfl⟩ := List.mem_map.mp ofLog
      exact own log orphan
  have kept := fresh.addAll ofSession accounted
  rwa [written, Ledger.plusAll_append, plusAll_writesFor, Ledger.plusAll_logs] at kept

theorem rows_accept (valid : s.config.validate = .ok ()) (fits : s.config.Fits)
    (command : String) (context : Table Json) (session : Option String) (w : World η σ)
    (fresh : w.storage.Keeps s.backend (s.begin command context session w).2.session .empty)
    (rows : ∀ directory, s.backend ≠ .folder directory)
    (calm : ∀ rec : Record, s.strike rec.call = none) :
    AcceptsNew (s.outcome command context session w).world.journal := by
  intro rec cause refused
  have ends := s.outcome_ends valid fits command context session w
  have new := ends.refused_new refused
  obtain ⟨_, orphans, closing, own, written⟩ := ends.closing
  have kept := s.outcome_keeps valid fits command context session w fresh own written
  generalize s.outcome command context session w = e at *
  cases closing with
  | unbroken accepted => exact absurd refused (accepted rec cause)
  | stopped rec' cause' before orphans last ofSession failed accepted =>
    have same : rec = rec' := by
      rw [last] at refused
      rcases List.mem_cons.mp refused with here | earlier
      · cases here
        rfl
      · exact absurd earlier (accepted rec cause)
    subst same
    have absent : (Ledger.empty.plusAll (storedIn e.world.journal)).holds rec.kind rec.key =
        false := by
      rw [Bool.eq_false_iff, ne_eq, Ledger.holds_plusAll]
      rintro (old | ⟨old, stored, same⟩)
      · exact absurd old (by cases rec <;> simp [Ledger.holds, Ledger.of, Ledger.empty, Record.kind])
      · exact new old stored (Record.call_inj.mpr same)
    rw [written, Ledger.plusAll_append, plusAll_writesFor, Ledger.plusAll_logs] at absent
    obtain ⟨st, added⟩ := kept.add_new rows ofSession absent
    have untouched : before.storage = e.world.storage := by rw [last]; rfl
    unfold keep write at failed
    rw [calm, untouched] at failed
    dsimp only at failed
    rw [added] at failed
    cases failed

theorem inPlace_course {session : String} {limit : Nat} {history : List State}
    (course : Course session limit history) : Ledger.inPlace history = history := by
  apply List.mergeSort_of_pairwise
  refine course.increasing.imp fun less => ?_
  rw [StateKey.placeLt_iff] at less
  rw [StateKey.placeLe, Bool.not_eq_true', Bool.eq_false_iff, ne_eq, StateKey.placeLt_iff]
  omega

/-- Over a store that accepts every new key no run is stopped, and what it wrote is what belongs
to its history. -/
theorem Ends.unstopped {s : Services η σ} {e : Standing η σ} (ends : s.Ends e)
    (accepts : AcceptsNew e.world.journal) :
    e.stopped = none ∧ storedIn e.world.journal = writesFor e.run.history := by
  cases ends with
  | finished w r course closed writes => exact ⟨rfl, storedIn_of_writes writes⟩
  | broken w r cause b rec done left course order writes failed =>
    obtain ⟨old, stored, same⟩ := accepts rec cause List.mem_cons_self
    have new := (Ends.broken w r cause b rec done left course order writes failed).refused_new
      List.mem_cons_self old (stored_mem.mp stored)
    exact absurd same new

def alone : Services Empty Unit := plain ⟨nofun, 0⟩ .default .memory

theorem alone_fits : alone.config.Fits :=
  ⟨by decide, by decide, by decide, by decide⟩

theorem alone_fresh (session : String) (w : World Empty Unit) (new : w.storage = .empty) :
    w.storage.Keeps .memory session .empty := by
  rw [new]
  rfl

theorem alone_valid : alone.config.validate = .ok () := by
  have inside : (Binary64.zero.le LoopConfig.default.fanIn.threshold &&
      LoopConfig.default.fanIn.threshold.le .one) = true := by decide +kernel
  change LoopConfig.default.validate = .ok ()
  unfold LoopConfig.validate
  rw [if_neg (by decide), if_neg (by decide), if_pos inside]

/-- Over a store that accepts every new key, an execution goes through the phases from the
first to a last one. -/
theorem execute_completes_path (valid : s.config.validate = .ok ()) (fits : s.config.Fits)
    (command : String) (context : Table Json) (session : Option String) (w : World η σ)
    (accepts : AcceptsNew (s.outcome command context session w).world.journal) :
    let start := s.begin command context session w
    let e := s.outcome command context session w
    let result := (s.execute command context session w).1
    (∀ n, s.config.phaseLimit ≤ n →
      s.advance n (.enter .awareness start.1 start.2) = .ended e) ∧
    e.stopped = none ∧
    (∀ rec cause, .refused rec cause ∉ e.world.journal) ∧
    Course result.session s.config.maxIterations result.history ∧
    (∃ last ∈ result.history.getLast?, last.Closes s.config.maxIterations) ∧
    (result.history.Pairwise fun a b => StateKey.placeLt a.key b.key = true) ∧
    (∀ a ∈ result.history, a.iteration < s.config.maxIterations ∧
      nextIteration a.iteration = .value (a.iteration + 1)) ∧
    ∀ a ∈ result.history.dropLast, a.isMarked = false := by
  intro start e result
  have ends := s.outcome_ends valid fits command context session w
  obtain ⟨sessionEq, historyEq⟩ : result.session = e.run.session ∧
    result.history = e.run.history := resultOf_history e
  obtain ⟨course, orphans, closing, _⟩ := ends.closing
  have comesTo (n : Nat) (enough : s.config.phaseLimit ≤ n) :
      s.advance n (.enter .awareness start.1 start.2) = .ended e :=
    s.advance_of_le enough (s.drive_ends fits start.1 (s.begin_blank command context session w).2.1)
  cases closing with
  | stopped rec cause w' orphans last =>
    -- the refused key would have to be an old one, but all keys are new
    have refused : .refused rec cause ∈ e.world.journal := by
      rw [last]
      exact List.mem_cons_self
    obtain ⟨old, stored, same⟩ := accepts rec cause refused
    exact absurd same (ends.refused_new refused old (stored_mem.mp stored))
  | unbroken accepted ended closed =>
    refine ⟨comesTo, ended, accepted, ?_, ?_, ?_, ?_, ?_⟩
    · rw [sessionEq, historyEq]
      exact course
    · rw [historyEq]
      exact closed
    · rw [historyEq]
      exact course.increasing
    · rw [historyEq]
      intro a member
      have within := course.within a member
      exact ⟨within, if_pos (Nat.lt_of_le_of_lt within fits.maxIterations)⟩
    · rw [historyEq]
      obtain ⟨last, final, _⟩ := closed
      obtain ⟨front, eq⟩ := List.getLast?_eq_some_iff.mp final
      intro a member
      rw [eq] at course member
      rw [List.dropLast_concat] at member
      exact (course.unmarked a member).2

theorem alone_completes_path :
    AcceptsNew (alone.outcome "build" [] (some "s") (.initial ())).world.journal ∧
      ∃ last ∈ (alone.execute "build" [] (some "s") (.initial ())).1.history.getLast?,
        last.Closes 10 := by
  have accepts := alone.rows_accept alone_valid alone_fits "build" [] (some "s") (.initial ())
    (alone_fresh "s" _ rfl) (fun _ => Backend.noConfusion) fun _ => rfl
  exact ⟨accepts, (alone.execute_completes_path alone_valid alone_fits "build" [] (some "s")
    (.initial ()) accepts).2.2.2.2.1⟩

/-- The first write that fails is the last deed of its run; what was written before it is
what the store keeps: the history, a log for each of its decisions, and at most the log of
the one decision whose state was refused. -/
theorem execute_stops_at_refusal (valid : s.config.validate = .ok ()) (fits : s.config.Fits)
    (command : String) (context : Table Json) (session : Option String) (w : World η σ)
    (fresh : w.storage.Keeps s.backend (s.begin command context session w).2.session .empty) :
    let e := s.outcome command context session w
    let result := (s.execute command context session w).1
    let storage := (s.execute command context session w).2.storage
    ∃ orphans : List DecisionLog,
      storage.Keeps s.backend result.session
        ⟨result.history, result.history.flatMap State.mirrors ++ orphans⟩ ∧
      ((∀ a ∈ result.history, s.backend.ReadsBack (.state a)) →
        storage.statesOf s.backend result.session = .ok result.history) ∧
      ((∀ log ∈ result.history.flatMap State.mirrors ++ orphans, s.backend.ReadsBack (.log log)) →
        ∃ found, storage.query s.backend (.ofSession result.session) = .ok found ∧
          found.Perm (result.history.flatMap State.mirrors ++ orphans)) ∧
      (∀ a ∈ result.history, a.phase = .decision →
        ∃ log, DecisionLog.ofState? a = some log ∧ a.mirrors = [log]) ∧
      ((orphans = [] ∧ e.stopped = none ∧ ∀ rec cause, .refused rec cause ∉ e.world.journal) ∨
        ∃ rec cause before, (s.keep rec before).failure? = some cause ∧
          (∀ rec cause, .refused rec cause ∉ before.journal) ∧
          e.world = before.note (.refused rec cause) ∧
          result.success = false ∧ result.error = some cause.message ∧
          (orphans = [] ∨ ∃ b log, rec = .state b ∧ b.phase = .decision ∧
            DecisionLog.ofState? b = some log ∧ orphans = [log])) := by
  intro e result storage
  have ends := s.outcome_ends valid fits command context session w
  obtain ⟨sessionEq, historyEq⟩ : result.session = e.run.session ∧
    result.history = e.run.history := resultOf_history e
  have storageEq : storage = e.world.storage := s.execute_storage command context session w
  obtain ⟨course, orphans, closing, own, written⟩ := ends.closing
  have kept := s.outcome_keeps valid fits command context session w fresh own written
  refine ⟨orphans, ?_, ?_, ?_, ?_, ?_⟩
  · rw [storageEq, sessionEq, historyEq]
    exact kept
  · rw [storageEq, sessionEq, historyEq]
    intro back
    rw [kept.statesOf back, inPlace_course course]
  · rw [storageEq, sessionEq, historyEq]
    exact kept.query
  · rw [historyEq]
    intro a member decided
    obtain ⟨log, mirrored⟩ := ends.logged a member decided
    exact ⟨log, mirrored, by simp [State.mirrors, decided, mirrored]⟩
  · cases closing with
    | unbroken accepted ended closed => exact .inl ⟨rfl, ended, accepted⟩
    | stopped rec cause before orphans last _ failed accepted ended _ orphaned =>
      have stopped : result = { RunResult.inFull e.run.session e.run.history with
          success := false, error := some cause.message } := by
        change resultOf e = _
        unfold resultOf
        rw [ended]
      refine .inr ⟨rec, cause, before, failed, accepted, last, ?_, ?_, ?_⟩
      · rw [stopped]
      · rw [stopped]
      · obtain none | ⟨b, same, decided, log, mirrored, one⟩ := orphaned
        · exact .inl none
        · exact .inr ⟨b, log, same, decided, mirrored, one⟩

def logless : Services Empty Unit :=
  { alone with strike := fun | .appendLog _ => some (.panic "lost") | _ => none }

theorem logless_stops_at_refusal :
    (World.initial () : World Empty Unit).storage.Keeps .memory "s" .empty ∧
      (logless.execute "build" [] (some "s") (.initial ())).2.storage.statesOf .memory
        (logless.execute "build" [] (some "s") (.initial ())).1.session =
        .ok (logless.execute "build" [] (some "s") (.initial ())).1.history := by
  have fresh := alone_fresh "s" (.initial ()) rfl
  obtain ⟨_, _, states, _⟩ := logless.execute_stops_at_refusal alone_valid alone_fits "build" []
    (some "s") (.initial ()) fresh
  exact ⟨fresh, states fun _ _ => trivial⟩

theorem inFull_last {session : String} {history : List State} {last : State}
    (final : history.getLast? = some last) :
    RunResult.inFull session history = ⟨session, decide (last.phase = .complete), last.phase,
      RunResult.content history, if last.phase = .complete then none else
        some (RunResult.stopText last (RunResult.latest (·.decision) history)
          (last.iteration + 1)), last.iteration + 1, history⟩ := by
  unfold RunResult.inFull
  rw [final]

/-- A history whose iterations all have a next one is summed up in full. -/
theorem ofHistory_counted {session : String} {history : List State}
    (counted : ∀ a ∈ history, a.iteration + 1 < twoTo 32) :
    RunResult.ofHistory session history = .value (RunResult.inFull session history) := by
  unfold RunResult.ofHistory
  cases last : history.getLast? with
  | none => rfl
  | some a => simp [nextIteration, counted a (List.mem_of_getLast? last), Answer.map]

theorem inFull_success {session : String} {history : List State}
    (unclosed : ∀ a ∈ history, a.phase ≠ .complete) :
    (RunResult.inFull session history).success = false := by
  unfold RunResult.inFull
  cases last : history.getLast? with
  | none => rfl
  | some a => simp [unclosed a (List.mem_of_getLast? last)]

/-- What an execution gave as its result is what a replay gives, but for the cause where it
was stopped; and where nothing was stored, there is nothing to replay. -/
theorem replay_repeats_execution (valid : s.config.validate = .ok ()) (fits : s.config.Fits)
    (command : String) (context : Table Json) (session : Option String) (w : World η σ)
    (fresh : w.storage.Keeps s.backend (s.begin command context session w).2.session .empty)
    (calm : s.strike (.readSession (s.begin command context session w).2.session) = none)
    (back : ∀ a ∈ (s.execute command context session w).1.history,
      s.backend.ReadsBack (.state a)) :
    let e := s.outcome command context session w
    let result := (s.execute command context session w).1
    let after := (s.execute command context session w).2
    s.statesOf result.session after = .value result.history ∧
    (result.history = [] → s.replay result.session after = .fault (.noStates result.session)) ∧
    (result.history ≠ [] → ∃ again, s.replay result.session after = .value again ∧
      again.session = result.session ∧ again.success = result.success ∧
      again.finalPhase = result.finalPhase ∧ again.result = result.result ∧
      again.iterations = result.iterations ∧ again.history = result.history ∧
      (e.stopped = none → again.error = result.error)) := by
  intro e result after
  have ends := s.outcome_ends valid fits command context session w
  obtain ⟨sessionEq, historyEq⟩ : result.session = e.run.session ∧
    result.history = e.run.history := resultOf_history e
  obtain ⟨course, orphans, closing, own, written⟩ := ends.closing
  have kept := s.outcome_keeps valid fits command context session w fresh own written
  have read : s.statesOf e.run.session after = .value e.run.history := by
    have storage : after.storage = e.world.storage := s.execute_storage command context session w
    have found : after.storage.statesOf s.backend e.run.session = .ok e.run.history := by
      rw [storage, kept.statesOf (historyEq ▸ back), inPlace_course course]
    rw [← s.outcome_session fits] at calm
    unfold statesOf read
    rw [calm]
    exact congrArg Answer.ofExcept found
  rw [sessionEq, historyEq]
  refine ⟨read, fun none => ?_, fun some => ?_⟩
  · unfold replay
    rw [read, none]
  · have replayed : s.replay e.run.session after =
        .value (RunResult.inFull e.run.session e.run.history) := by
      have again : s.replay e.run.session after =
          RunResult.ofHistory e.run.session e.run.history := by
        unfold replay
        rw [read]
        cases states : e.run.history with
        | nil => exact absurd states some
        | cons => rfl
      rw [again]
      exact ofHistory_counted fun a member =>
        Nat.lt_of_le_of_lt (course.within a member) fits.maxIterations
    have plain := resultOf_history ⟨e.world, e.run, none⟩
    refine ⟨_, replayed, ?_⟩
    have same : result = resultOf e := rfl
    rw [same]
    unfold resultOf
    cases closing with
    | unbroken _ ended _ =>
      rw [ended]
      exact ⟨plain.1, rfl, rfl, rfl, rfl, plain.2, fun _ => rfl⟩
    | stopped _ cause _ _ _ _ _ _ ended unclosed _ =>
      rw [ended]
      refine ⟨plain.1, inFull_success unclosed, rfl, rfl, rfl, plain.2, fun none => ?_⟩
      cases none

theorem logless_replay :
    ∃ again, logless.replay "s" (logless.execute "build" [] (some "s") (.initial ())).2 = .value again ∧
      again.success = false ∧
      again.history = (logless.execute "build" [] (some "s") (.initial ())).1.history := by
  have four : (logless.execute "build" [] (some "s") (.initial ())).1.history.length = 4 := by
    decide +kernel
  have stored : (logless.execute "build" [] (some "s") (.initial ())).1.history ≠ [] := by
    intro none
    rw [none] at four
    cases four
  obtain ⟨again, same, _, success, _, _, _, history, _⟩ :=
    (logless.replay_repeats_execution alone_valid alone_fits "build" [] (some "s") (.initial ())
      (alone_fresh "s" _ rfl) rfl fun _ _ => trivial).2.2 stored
  exact ⟨again, same, success, history⟩

end Services
end Orchestration
