import Orchestration.Proofs.Hearing
import Orchestration.Proofs.Observed
import Orchestration.Proofs.Tables

/-! A run in a session that has begun before. The key of its first record is taken, so it is
refused before anything is planned or handed on, and the records, the policy and the observations
held back stay as they are. But it ends as every run does: where the bus is cleared, it forgets
the results and the mailbox of the session, be they those of a run that is still going on. -/
namespace Orchestration

variable {η σ : Type}

def Backend.taken : Backend → StateKey → Fault
  | memory, key | folder _, key => .duplicateState key.text
  | privateDatabase, key | database _, key => .duplicateRow key.text

theorem Backend.taken_kind (b : Backend) (key : StateKey) : (b.taken key).kind = .duplicate := by
  cases b <;> rfl

theorem any_of_find? {α : Type} {taken : α → Bool} {items : List α} {a : α}
    (found : items.find? taken = some a) : items.any taken = true :=
  List.any_eq_true.mpr ⟨a, List.mem_of_find?_eq_some found, List.find?_some found⟩

theorem Folder.add_taken {d : Disk} {directory : String} {a old : State}
    (holds : state? d directory a.key = .ok (some old)) :
    add d directory (.state a) = .error (.duplicateState a.key.text) := by
  rw [add_eq]
  change Folder.read d directory .state a.session >>= _ = _ at holds
  change (Folder.read d directory .state a.session).bind _ = _
  cases read : Folder.read d directory .state a.session with
  | error f =>
    rw [read] at holds
    cases holds
  | ok stored =>
    rw [read] at holds
    exact if_pos (any_of_find? (Except.ok.inj holds))

theorem Database.add_taken {t : Rows} {a old : State} (holds : state? t a.key = .ok (some old)) :
    add t (.state a) = .error (.duplicateRow a.key.text) := by
  unfold state? at holds
  cases found : t.states.find? (·.key = a.key) with
  | none =>
    rw [found] at holds
    cases holds
  | some row => exact if_pos (any_of_find? found)

theorem Storage.add_taken {st : Storage} {b : Backend} {a old : State}
    (holds : st.state? b a.key = .ok (some old)) : st.add b (.state a) = .error (b.taken a.key) := by
  cases b with
  | memory =>
    have taken : st.memory.add (.state a) = .error (.duplicateState a.key.text) :=
      if_pos (any_of_find? (Except.ok.inj holds))
    exact congrArg (Except.map _) taken
  | folder directory => exact congrArg (Except.map st.withDisk) (Folder.add_taken holds)
  | privateDatabase => exact congrArg (Except.map _) (Database.add_taken holds)
  | database path => exact congrArg (Except.map _) (Database.add_taken holds)

namespace Bus

variable (b : Bus η) (session : String)

theorem clearSession_eq_self : b.clearSession session = b ↔
    (∀ e ∈ b.results, e.2.session ≠ session) ∧ session ∉ Table.keys b.mailboxes := by
  have same : b.clearSession session = b ↔ b.results.filter (·.2.session != session) = b.results ∧
      Table.erase b.mailboxes session = b.mailboxes := by
    obtain ⟨_, _, results, mailboxes, _⟩ := b
    simp [clearSession, emptyMailbox]
  rw [same, Table.erase, List.filter_eq_self, List.filter_eq_self]
  refine and_congr (by simp) ?_
  simp only [Table.keys, List.mem_map, bne_iff_ne, ne_eq, not_exists, not_and]

theorem result?_clearSession {task : String} {r : TaskResult}
    (found : (b.clearSession session).result? task = some r) : r.session ≠ session := by
  have kept := (List.mem_filter.mp (Table.mem_of_get? found)).2
  simpa using kept

theorem mailbox_clearSession (other : String) :
    (b.clearSession session).mailbox other = if other = session then [] else b.mailbox other :=
  b.mailbox_emptyMailbox session other

end Bus

namespace Services

variable (s : Services η σ)

theorem persist_refused {d : Draft η σ} {f : Fault}
    (refused : s.keep (.state d.state) d.world = .fault f) :
    s.persist d = ⟨d.world.note (.refused (.state d.state) (.fault f)), d.run, some (.fault f)⟩ := by
  unfold persist record
  rw [refused]
  rfl

/-- A run whose first record is refused has come to its end. -/
theorem drive_refused {w w' : World η σ} {r r' : Run} {cause : Interruption}
    (refused : s.persist (s.awareness w r) = ⟨w', r', some cause⟩) :
    s.drive w r = ⟨w', r', some cause⟩ := by
  have stopped : s.step .awareness w r = .ended ⟨w', r', some cause⟩ := by
    unfold step
    dsimp only
    rw [refused]
    rfl
  unfold drive LoopConfig.phaseLimit
  rw [advance, stopped]
  cases 4 * (s.config.maxIterations + 1) <;> rfl

def classified (command : String) (context : Table Json) (session : Option String)
    (w : World η σ) : World η σ :=
  (s.ask (.classify command context) (s.classify command context)
    (s.begin command context session w).1).2

/-- To have a command classified is all that such a run does, but for what the one who is asked
publishes himself. -/
theorem classified_heard (command : String) (context : Table Json) (session : Option String)
    (w : World η σ) :
    let asked := s.classified command context session w
    World.Heard w asked ∧ asked.storage = w.storage ∧ asked.buffer = w.buffer ∧
      asked.engine = w.engine ∧ asked.journal = [.classify command context] := by
  intro asked
  let noted := (s.begin command context session w).1.note (.classify command context)
  have same := World.call_undisturbed s.toHandlers (s.classify command context) noted
  have heard := World.heard_stepwise.call s.toHandlers noted (s.classify command context)
  have begun : World.Heard w noted := by
    cases session <;> exact .of_bus rfl rfl
  refine ⟨heard.before begun, ?_⟩
  cases session <;> exact ⟨same.storage, same.buffer, same.engine, same.journal⟩

theorem outcome_taken (command : String) (context : Table Json) {session : String}
    {w : World η σ} {old : State}
    (holds : w.storage.state? s.backend ⟨session, 0, .awareness⟩ = .ok (some old))
    (calm : s.strike (.createState ⟨session, 0, .awareness⟩) = none) :
    let asked := s.classified command context (some session) w
    let cause := s.backend.taken ⟨session, 0, .awareness⟩
    ∃ first r, r.session = session ∧ r.history = [] ∧ s.outcome command context (some session) w =
      ⟨asked.time.2.note (.refused (.state first) (.fault cause)), r, some (.fault cause)⟩ := by
  intro asked cause
  let started := s.begin command context (some session) w
  let d := s.awareness started.1 started.2
  have begun := s.awareness_continues started.1 started.2
  have key : d.state.key = ⟨session, 0, .awareness⟩ := rfl
  have refused : s.keep (.state d.state) d.world = .fault cause := by
    unfold keep write
    have unstruck : s.strike (Record.state d.state).call = none := calm
    have storage : d.world.storage = w.storage := begun.worked.storage
    have taken : w.storage.add s.backend (.state d.state) = .error cause :=
      Storage.add_taken (key ▸ holds)
    rw [unstruck]
    dsimp only
    rw [storage, taken]
    rfl
  exact ⟨d.state, d.run, rfl, rfl, s.drive_refused (s.persist_refused refused)⟩

/-- A run in a session that has begun is refused, and leaves the records, the policy and the
observations held back as they were. The bus is as the one who classified the command left it,
except that a bus that is cleared after each run has forgotten the session: the mailbox is empty
and no result is left. So the session is left alone only where nothing is cleared, or where there
was nothing to forget. -/
theorem collision_forgets_session (command : String) (context : Table Json) {session : String}
    {w : World η σ} {old : State}
    (holds : w.storage.state? s.backend ⟨session, 0, .awareness⟩ = .ok (some old))
    (calm : s.strike (.createState ⟨session, 0, .awareness⟩) = none) :
    let asked := s.classified command context (some session) w
    let cause := s.backend.taken ⟨session, 0, .awareness⟩
    let result := (s.execute command context (some session) w).1
    let after := (s.execute command context (some session) w).2
    result.success = false ∧ result.error = some cause.message ∧ cause.kind = .duplicate ∧
    result.history = [] ∧
    after.storage = w.storage ∧ after.buffer = w.buffer ∧ after.engine = w.engine ∧
    (∃ first, after.journal = [.refused (.state first) (.fault cause), .classify command context]) ∧
    World.Heard w asked ∧
    (s.config.clearBus = false → after.bus = asked.bus) ∧
    (s.config.clearBus = true → after.bus = asked.bus.clearSession session ∧
      (∀ task r, after.bus.result? task = some r → r.session ≠ session) ∧
      ∀ other, after.bus.mailbox other =
        if other = session then [] else asked.bus.mailbox other) ∧
    (asked.bus = w.bus → (after.bus = w.bus ↔ s.config.clearBus = false ∨
      (∀ e ∈ w.bus.results, e.2.session ≠ session) ∧ session ∉ Table.keys w.bus.mailboxes)) := by
  intro asked cause result after
  obtain ⟨heard, storage, buffer, engine, journal⟩ :=
    s.classified_heard command context (some session) w
  obtain ⟨first, r, own, history, ended⟩ := s.outcome_taken command context holds calm
  have told : result = { RunResult.inFull session [] with
      success := false, error := some cause.message } := by
    change resultOf (s.outcome command context (some session) w) = _
    rw [ended, resultOf, own, history]
    rfl
  let stopped := asked.time.2.note (.refused (.state first) (.fault cause))
  -- nothing is done but the question, a refused write, and what ends every run
  have left : after = if s.config.clearBus then
      { stopped with bus := asked.bus.clearSession session } else stopped := by
    change (s.execute command context (some session) w).2 = _
    unfold execute
    rw [ended]
    dsimp only
    rw [own]
    rfl
  rw [told, left]
  refine ⟨rfl, rfl, s.backend.taken_kind _, rfl, ?_⟩
  have noted : stopped.journal = [.refused (.state first) (.fault cause),
      .classify command context] := congrArg (_ :: ·) journal
  cases clears : s.config.clearBus with
  | false =>
    refine ⟨storage, buffer, engine, ⟨first, noted⟩, heard, fun _ => rfl, nofun, fun silent => ?_⟩
    exact iff_of_true silent (.inl rfl)
  | true =>
    refine ⟨storage, buffer, engine, ⟨first, noted⟩, heard, nofun, fun _ => ⟨rfl, ?_, ?_⟩,
      fun silent => ?_⟩
    · exact fun task r found => asked.bus.result?_clearSession session found
    · exact asked.bus.mailbox_clearSession session
    · have same := w.bus.clearSession_eq_self session
      rw [← silent] at same ⊢
      exact same.trans (by simp)

def answered : Standing Empty Unit :=
  let s := paired (·.task) fun _ => .success
  let start := s.begin "go" [] (some "s") (.initial ())
  (s.advance 3 (.enter .awareness start.1 start.2)).standing

def answeredFrom (w : World Empty Unit) : RunResult :=
  let s := paired (·.task) fun _ => .success
  resultOf (s.advance s.config.phaseLimit (.enter .observation w answered.run)).standing

theorem answered_forgotten :
    let s := paired (·.task) fun _ => .success
    let after := (s.execute "again" [] (some "s") answered.world).2
    (∃ old, answered.world.storage.state? .memory ⟨"s", 0, .awareness⟩ = .ok (some old)) ∧
      (∀ task r, after.bus.result? task = some r → r.session ≠ "s") ∧
      after.bus.mailbox "s" = [] := by
  intro s after
  have begun : (answered.world.storage.memory.state? ⟨"s", 0, .awareness⟩).isSome = true := by
    decide +kernel
  obtain ⟨old, found⟩ := Option.isSome_iff_exists.mp begun
  have holds : answered.world.storage.state? s.backend ⟨"s", 0, .awareness⟩ = .ok (some old) :=
    congrArg Except.ok found
  obtain ⟨_, _, _, _, _, _, _, _, _, _, cleared, _⟩ :=
    s.collision_forgets_session "again" [] holds rfl
  obtain ⟨_, results, mailbox⟩ := cleared rfl
  exact ⟨⟨old, holds⟩, results, mailbox "s"⟩

/-- The run that was going on needs another round then, as it waits for its answers in vain. -/
theorem collision_costs_round :
    let s := paired (·.task) fun _ => .success
    let after := (s.execute "again" [] (some "s") answered.world).2
    (answered.world.storage.memory.state? ⟨"s", 0, .awareness⟩).isSome = true ∧
      (answered.world.bus.result? "s-i0-a").isSome = true ∧
      (answered.world.bus.mailbox "s").length = 2 ∧
      (after.bus.result? "s-i0-a").isSome = false ∧ (after.bus.mailbox "s").length = 0 ∧
      (answeredFrom answered.world).iterations = 1 ∧ (answeredFrom after).iterations = 2 := by
  decide +kernel

end Services
end Orchestration
