import Orchestration.Proofs.Confinement
import Orchestration.Proofs.Happenings
import Orchestration.Proofs.Provenance
import Orchestration.Proofs.Separation

/-! What is left of a run when it is over, however it ended. Of its own session it leaves the
records; what was held back is taken in by the round that it was held back for, and the bus is
cleared in the end. Of all other sessions everything is as it was. -/
namespace Orchestration

variable {η σ : Type}

theorem sorted_resultsAfter {results : Table TaskResult} (sorted : Table.Sorted results)
    (messages : List Message) : Table.Sorted (resultsAfter results messages) := by
  induction messages generalizing results with
  | nil => exact sorted
  | cons m rest ih =>
    cases m with
    | result r => exact ih (Table.sorted_put sorted r.task r)
    | dispatch | heartbeat | summary => exact ih sorted

/-- Results of other tasks are not in the way. -/
theorem get?_resultsAfter {session task : String} {own : String → Prop} {messages : List Message}
    (concern : ∀ m ∈ messages, m.Concerns session own) (other : ¬ own task)
    (results : Table TaskResult) :
    Table.get? (resultsAfter results messages) task = Table.get? results task := by
  induction messages generalizing results with
  | nil => rfl
  | cons m rest ih =>
    have onward := ih fun m later => concern m (List.mem_cons_of_mem _ later)
    cases m with
    | result r =>
      have apart : task ≠ r.task := fun same =>
        other (same ▸ (concern _ List.mem_cons_self).2)
      exact (onward _).trans (Table.get?_put_of_ne _ _ apart)
    | dispatch | heartbeat | summary => exact onward results

/-- What concerns one session leaves the mailboxes of others as they are. -/
theorem World.Published.mailbox_other {v w : World η σ} {messages : List Message}
    (published : Published v w messages) {session other : String} {own : String → Prop}
    (concern : ∀ m ∈ messages, m.Concerns session own) (ne : other ≠ session) :
    w.bus.mailbox other = v.bus.mailbox other := by
  have none : messages.filter (·.session? = some other) = [] :=
    List.filter_eq_nil_iff.mpr fun m member here => by
      rw [decide_eq_true_iff] at here
      exact ne ((concern m member).session? other here)
  rw [published.mailboxes, none, List.append_nil]

namespace Bus

/-- Clearing a session takes none of the results of another one away, and adds none. -/
theorem result?_clearSession_iff {b : Bus η} (sorted : Table.Sorted b.results) {session : String}
    {task : String} {r : TaskResult} (other : r.session ≠ session) :
    (b.clearSession session).result? task = some r ↔ b.result? task = some r := by
  have left : (b.clearSession session).result? task =
      (b.result? task).filter (·.session != session) :=
    Table.get?_filter sorted (·.session != session) task
  rw [left, Option.filter_eq_some_iff]
  simp [other]

theorem mailboxes_clearSession (b : Bus η) (session : String) :
    session ∉ Table.keys (b.clearSession session).mailboxes := by
  intro member
  obtain ⟨e, kept, same⟩ := List.mem_map.mp member
  have other := (List.mem_filter.mp kept).2
  simp [same] at other

end Bus

namespace Services

variable {s : Services η σ} {w : World η σ} {r : Run}

/-- A run whose session has nothing held back for it leaves the buffer as it was: what its
rounds hold back, they take. -/
theorem drive_heldBack (fits : s.config.Fits) (new : r.iteration = 0)
    (empty : w.heldBack r.session = []) (name : String) :
    (s.drive w r).world.heldBack name = w.heldBack name := by
  have lasts : s.Lasts r.session fun v => ∀ name, v.heldBack name = w.heldBack name :=
    .of_beside fun beside _ same name =>
      (World.heldBack_of_buffer beside.buffer name).trans (same name)
  refine (lasts.drive fits new (fun _ => rfl) fun phase v t d passed drafted same name => ?_).2 name
  by_cases observes : phase = .observation
  · subst observes
    cases drafted
    rw [s.observation_heldBack]
    split
    · rename_i own
      rw [own.1, passed.session_eq fits, empty]
    · exact same name
  · exact (World.heldBack_of_buffer (draft_buffer drafted observes) name).trans (same name)

/-- A run writes records of its own session only. -/
theorem drive_alikeFor (fits : s.config.Fits) (new : r.iteration = 0) {other : String}
    (ne : other ≠ r.session) :
    Storage.AlikeFor s.backend other w.storage (s.drive w r).world.storage := by
  have lasts : s.Lasts r.session fun v => Storage.AlikeFor s.backend other w.storage v.storage :=
    { timed := id
      written := fun own added alike =>
        alike.trans (Storage.add_alikeFor added (own ▸ Ne.symm ne))
      refused := id }
  refine (lasts.drive fits new (.refl _) fun phase v t d _ drafted alike => ?_).2
  rw [(draft_continues drafted).worked.storage]
  exact alike

theorem begin_beside (command : String) (context : Table Json) (session : Option String)
    (w : World η σ) : World.Beside w (s.begin command context session w).1 := by
  cases session <;> exact ⟨rfl, rfl, rfl, rfl⟩

variable (s)

/-- A run leaves no residue and touches no other session. However it ends, if all who are asked
publish only what concerns its session and its tasks, and nothing was held back for it before:
nothing is held back for it afterwards, each topic has the subscribers it had, and a bus that is
cleared after each run holds neither a mailbox nor a result of the session. What the store is
asked about any other session it answers as before; its mailbox and what is held back for it are
as they were, and so are its results, but under the ids of the run's tasks. -/
theorem run_leaves_no_residue (fits : s.config.Fits) (command : String) (context : Table Json)
    (session : Option String) {w : World η σ} {past : List (Happening η)}
    (told : Recounts past w.bus) {own : String → Prop} {kept : σ → Prop}
    (confined : s.Confined (s.begin command context session w).2.session own kept)
    (quiet : w.Confined s.toHandlers
      (Message.Concerns (s.begin command context session w).2.session own) kept)
    (owns : ∀ d ∈ (s.outcome command context session w).world.dispatches, own d.task)
    (empty : w.heldBack (s.begin command context session w).2.session = []) :
    let name := (s.begin command context session w).2.session
    let after := (s.execute command context session w).2
    after.heldBack name = [] ∧ after.bus.subscriptions = w.bus.subscriptions ∧
    (s.config.clearBus = true → name ∉ Table.keys after.bus.mailboxes ∧
      ∀ e ∈ after.bus.results, e.2.session ≠ name) ∧
    ∀ other, other ≠ name → Storage.AlikeFor s.backend other w.storage after.storage ∧
      after.bus.mailbox other = w.bus.mailbox other ∧
      after.heldBack other = w.heldBack other ∧
      ∀ task r, ¬ own task → r.session = other →
        (after.bus.result? task = some r ↔ w.bus.result? task = some r) := by
  intro name after
  let start := s.begin command context session w
  let e := s.outcome command context session w
  obtain ⟨_, new, _, storage⟩ := s.begin_blank command context session w
  have begun : World.Beside w start.1 := s.begin_beside command context session w
  have ended : e.run.session = name := s.outcome_session fits command context session w
  have bounded : w.Bounded s.toHandlers (Message.Concerns name own) kept :=
    ⟨quiet, told.ids_lt⟩
  have confines : World.Confines s.toHandlers (Message.Concerns name own) kept w e.world := by
    have first := World.Confines.of_beside begun bounded
    exact first.trans ((confined.conducts.drive fits new rfl owns).2 first.bounded)
  obtain ⟨messages, published, concern⟩ := confines.published
  have sorted : Table.Sorted e.world.bus.results := by
    rw [published.results]
    exact sorted_resultsAfter told.sorted messages
  have held (other : String) : e.world.heldBack other = w.heldBack other := by
    have same := World.heldBack_of_buffer begun.buffer
    exact (drive_heldBack fits new ((same name).trans empty) other).trans (same other)
  have alike (other : String) (ne : other ≠ name) :
      Storage.AlikeFor s.backend other w.storage e.world.storage := by
    rw [← storage]
    exact drive_alikeFor fits new ne
  have unheard (task : String) (foreign : ¬ own task) :
      e.world.bus.result? task = w.bus.result? task := by
    change Table.get? e.world.bus.results task = Table.get? w.bus.results task
    rw [published.results]
    exact get?_resultsAfter concern foreign _
  obtain ⟨kept, cleared⟩ : (after.storage = e.world.storage ∧ after.buffer = e.world.buffer ∧
      after.bus.subscriptions = e.world.bus.subscriptions) ∧ after.bus =
        if s.config.clearBus then e.world.bus.clearSession name else e.world.bus := by
    have left : after = if s.config.clearBus then
        { e.world with bus := e.world.bus.clearSession name } else e.world := by
      rw [← ended]
      rfl
    rw [left]
    split <;> exact ⟨⟨rfl, rfl, rfl⟩, rfl⟩
  have holds (other : String) : after.heldBack other = w.heldBack other :=
    (World.heldBack_of_buffer kept.2.1 other).trans (held other)
  refine ⟨(holds name).trans empty, kept.2.2.trans confines.subscriptions, fun clears => ?_,
    fun other ne => ⟨?_, ?_, holds other, fun task r foreign ofOther => ?_⟩⟩
  · rw [cleared, if_pos clears]
    refine ⟨e.world.bus.mailboxes_clearSession name, fun entry member => ?_⟩
    simpa using (List.mem_filter.mp member).2
  · rw [kept.1]
    exact alike other ne
  · rw [cleared, ← published.mailbox_other concern ne]
    split
    · exact (e.world.bus.mailbox_clearSession name other).trans (if_neg ne)
    · rfl
  · rw [cleared, ← unheard task foreign]
    split
    · exact Bus.result?_clearSession_iff sorted (ofOther ▸ ne)
    · rfl

def struck : Services Unit Unit :=
  { prompt with
    strike := fun call =>
      if call = .appendLog ⟨"s", 1, .decision⟩ then some (.panic "lost") else none }

def foreign : TaskResult := .bare "t" "t-i0-a" "x" .success ⟨0, 0⟩

def shared : World Unit Unit :=
  { staffed with
    bus := staffed.bus.accept (.result foreign)
    buffer := Table.put [] "t" [.typed foreign]
    storage := { Storage.empty with memory := ⟨[State.blank "t" 0 .awareness ⟨0, 0⟩], []⟩ } }

theorem shared_told : Recounts [.subscribed ⟨1, .dispatch, some ()⟩, .published 0 (.result foreign)]
    shared.bus :=
  ((Recounts.empty Bus.defaultPollInterval).subscribe .dispatch (some ())).accept 0 _

theorem Confined.onBus {session : String} {own : String → Prop} {kept : σ → Prop} {d : Dispatch}
    (same : d.session = session) (owned : own d.task) :
    (d.onBus : Reaction η σ String).Publishes (Message.Concerns session own) kept := by
  intro n
  change Reaction.Publishes _ _ (if n = 0 then _ else _)
  split
  · trivial
  · exact ⟨⟨same, owned⟩, fun _ => trivial⟩

theorem struck_confined (session : String) (own : String → Prop) :
    struck.Confined session own fun _ => True where
  classify _ _ := trivial
  plan _ _ _ := trivial
  dispatch _ := Confined.onBus
  status _ told := nomatch told

theorem shared_confined (session : String) (own : String → Prop) :
    shared.Confined struck.toHandlers (Message.Concerns session own) fun _ => True where
  due _ member := nomatch member
  parts := trivial
  handlers m concerns _ _ := by
    cases m with
    | dispatch d => exact ⟨concerns, fun _ => trivial⟩
    | result | heartbeat | summary => trivial

theorem struck_leaves_no_residue :
    let run := struck.execute "go" [] (some "s") shared
    run.1.error = some "Run panicked: lost" ∧ run.1.history.length = 7 ∧
    run.2.heldBack "s" = [] ∧ run.2.bus.subscriptions = shared.bus.subscriptions ∧
    "s" ∉ Table.keys run.2.bus.mailboxes ∧ (∀ e ∈ run.2.bus.results, e.2.session ≠ "s") ∧
    run.2.storage.statesOf .memory "t" = shared.storage.statesOf .memory "t" ∧
    run.2.bus.mailbox "t" = [.result foreign] ∧ run.2.heldBack "t" = [.typed foreign] ∧
    run.2.bus.result? "t-i0-a" = some foreign := by
  intro run
  let own (task : String) : Prop := task ∈ ["s-i0-a", "s-i0-b", "s-i1-a", "s-i1-b"]
  have owns : ∀ d ∈ (struck.outcome "go" [] (some "s") shared).world.dispatches, own d.task := by
    decide +kernel
  obtain ⟨held, subscribers, cleared, others⟩ :=
    struck.run_leaves_no_residue alone_fits "go" [] (some "s") shared_told
      (struck_confined "s" own) (shared_confined "s" own) owns rfl
  obtain ⟨mailbox, results⟩ := cleared rfl
  obtain ⟨alike, mail, back, found⟩ := others "t" (by decide)
  refine ⟨by decide +kernel, by decide +kernel, held, subscribers, mailbox, results, alike.states,
    mail.trans rfl, back.trans rfl, (found _ _ ?_ rfl).mpr rfl⟩
  change ¬ "t-i0-a" ∈ ["s-i0-a", "s-i0-b", "s-i1-a", "s-i1-b"]
  decide

end Services
end Orchestration
