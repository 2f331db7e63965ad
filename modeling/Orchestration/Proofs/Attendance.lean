import Mathlib.Data.List.Nodup
import Orchestration.CommandLine.Perform
import Orchestration.Proofs.Hearing
import Orchestration.Proofs.Phases

/-! What the attendants of a run make of it. The monitor listens and says nothing; the executor
answers each dispatch within its publication. So a round of distinct tasks is answered as soon as
it is delegated, by as many attempts as there are tasks, and nothing is left to wait for. -/
namespace Orchestration

namespace Loopback

def status (failFirst attempt : Nat) : TaskStatus := if attempt ≤ failFirst then .failed else .success

theorem result_task (failFirst attempt : Nat) (d : Dispatch) (time : Timestamp) :
    (result failFirst attempt d time).task = d.task := by
  unfold result
  split <;> rfl

theorem result_status (failFirst attempt : Nat) (d : Dispatch) (time : Timestamp) :
    (result failFirst attempt d time).status = status failFirst attempt := by
  unfold result status
  split <;> rfl

end Loopback

theorem World.publishWithin_one {η σ : Type} {h : Handlers η σ} {m : Message} {w : World η σ}
    {handler : η} (one : w.bus.handlers m.topic = [handler]) (depth : Nat) :
    (publishWithin h (depth + 1) m w).2 = (perform (publishWithin h depth) (h.react handler m)
      { w with bus := w.bus.accept m }).2 := by
  unfold publishWithin
  rw [one]
  rfl

structure Attended (failFirst attempts : Nat) (w : World Attendant Attendance) : Prop where
  subscriptions : w.bus.subscriptions = (Attendant.bus 0 failFirst).subscriptions
  nextId : 3 < w.bus.nextId
  attempts : w.parts.attempts = attempts
  clock : w.clock = 0
  buffer : w.buffer = []
  engine : w.engine = .empty

namespace Attended

variable {failFirst attempts : Nat} {w : World Attendant Attendance}

theorem accept (attended : Attended failFirst attempts w) (m : Message) :
    Attended failFirst attempts { w with bus := w.bus.accept m } := by
  obtain ⟨subscriptions, nextId⟩ := w.bus.accept_subscriptions m
  exact { attended with
    subscriptions := subscriptions.trans attended.subscriptions
    nextId := nextId ▸ attended.nextId }

theorem note (attended : Attended failFirst attempts w) (d : Deed) :
    Attended failFirst attempts (w.note d) := { attended with }

theorem time (attended : Attended failFirst attempts w) :
    Attended failFirst attempts w.time.2 := { attended with }

theorem written (attended : Attended failFirst attempts w) (rec : Record) (st : Storage) :
    Attended failFirst attempts (w.written rec st) := { attended with }

/-- Whoever joins for a while leaves the others in their places. -/
theorem leave (attended : Attended failFirst attempts w) (session : String) :
    let joined := (w.bus.subscribe .result none).2
    Attended failFirst attempts { w with
      buffer := Table.erase w.buffer session
      bus := (joined.unsubscribe .result w.bus.nextId).2 } := by
  intro joined
  have newest := attended.nextId
  refine { attended with
    subscriptions := ?_
    nextId := Nat.lt_succ_of_lt newest
    buffer := ?_ }
  · unfold joined Bus.unsubscribe Bus.subscribe
    rw [attended.subscriptions]
    have other : 2 ≠ w.bus.nextId := by omega
    simp [Attendant.bus, Bus.subscribe, Bus.empty, other]
  · rw [attended.buffer]
    rfl

/-- What is no dispatch is heard by the monitor at the most. -/
theorem publishWithin_other (attended : Attended failFirst attempts w) {m : Message}
    (other : m.topic ≠ .dispatch) (depth : Nat) :
    Attended failFirst attempts (World.publishWithin Attendant.handlers depth m w).2 ∧
    (World.publishWithin Attendant.handlers depth m w).2.bus.results =
      (w.bus.accept m).results := by
  have accepted := attended.accept m
  have handlers : w.bus.handlers m.topic = [] ∨ w.bus.handlers m.topic = [.monitor] := by
    unfold Bus.handlers Bus.subscribers
    rw [attended.subscriptions]
    cases m with
    | dispatch d => exact absurd rfl other
    | result | heartbeat => exact .inr rfl
    | summary => exact .inl rfl
  cases depth with
  | zero => exact ⟨accepted, rfl⟩
  | succ depth =>
    rcases handlers with none | one
    · unfold World.publishWithin
      rw [none]
      exact ⟨accepted, rfl⟩
    · rw [World.publishWithin_one one]
      exact ⟨{ accepted with }, rfl⟩

theorem publish_other (attended : Attended failFirst attempts w) {m : Message}
    (other : m.topic ≠ .dispatch) :
    Attended failFirst attempts (World.publish Attendant.handlers m w).2 :=
  (attended.publishWithin_other other Attendant.handlers.nesting).1

/-- The executor answers a dispatch by its next attempt. -/
theorem executor_answers (attended : Attended failFirst attempts w) (depth : Nat) (d : Dispatch) :
    let after := (World.perform (World.publishWithin Attendant.handlers depth)
      (Attendant.react (.executor failFirst) (.dispatch d)) w).2
    Attended failFirst (attempts + 1) after ∧ ∃ time, after.bus.results =
      Table.put w.bus.results d.task (Loopback.result failFirst (attempts + 1) d time) := by
  let heartbeat : Message := .heartbeat ⟨Loopback.agent, some d.session, some d.task, w.time.1⟩
  let beaten := (World.publishWithin Attendant.handlers depth heartbeat w.time.2).2
  let attempt := beaten.parts.attempts + 1
  let counted := { beaten with parts := { beaten.parts with attempts := attempt } }
  let result : Message := .result (Loopback.result failFirst attempt d counted.time.1)
  have acts : World.perform (World.publishWithin Attendant.handlers depth)
      (Attendant.react (.executor failFirst) (.dispatch d)) w =
        (.value (), (World.publishWithin Attendant.handlers depth result counted.time.2).2) := rfl
  obtain ⟨alive, unchanged⟩ := attended.time.publishWithin_other (m := heartbeat) nofun depth
  have next : attempt = attempts + 1 := congrArg Nat.succ alive.attempts
  have more : Attended failFirst (attempts + 1) counted := { alive with attempts := next }
  obtain ⟨finished, stored⟩ := more.time.publishWithin_other (m := result) nofun depth
  rw [acts]
  refine ⟨finished, counted.time.1, stored.trans ?_⟩
  change Table.put beaten.bus.results _ (Loopback.result failFirst attempt d _) = _
  rw [Loopback.result_task, next, unchanged]
  rfl

theorem publish_dispatch (attended : Attended failFirst attempts w) (d : Dispatch) :
    let after := (World.publish Attendant.handlers (.dispatch d) w).2
    Attended failFirst (attempts + 1) after ∧ ∃ time, after.bus.results =
      Table.put w.bus.results d.task (Loopback.result failFirst (attempts + 1) d time) := by
  intro after
  have one : w.bus.handlers (Message.dispatch d).topic = [.executor failFirst] := by
    unfold Bus.handlers Bus.subscribers
    rw [attended.subscriptions]
    rfl
  have handed : after = _ := World.publishWithin_one one 7
  rw [handed]
  exact (attended.accept (.dispatch d)).executor_answers 7 d

end Attended

/-- There is a result for each of the tasks, by the attempts that follow on so many. -/
structure Answers (failFirst attempts : Nat) (tasks : List String) (results : Table TaskResult)
    (answers : List TaskResult) : Prop where
  named : answers.map (·.task) = tasks
  statuses : answers.map (·.status) =
    (List.range' (attempts + 1) tasks.length).map (Loopback.status failFirst)
  stored : ∀ r ∈ answers, Table.get? results r.task = some r

structure Services.OnBus (s : Services Attendant Attendance) : Prop where
  handlers : s.toHandlers = Attendant.handlers
  dispatch : s.dispatch = Dispatch.onBus
  status : s.status = none

theorem World.call_onBus {η σ : Type} (h : Handlers η σ) {w : World η σ} (d : Dispatch)
    (heard : w.bus.count .dispatch ≠ 0) :
    call h d.onBus w = (.value d.task, (publish h (.dispatch d) w).2) := by
  change perform (publish h) (if w.bus.count .dispatch = 0 then _ else _) w = _
  rw [if_neg heard]
  rfl

namespace Services

variable {s : Services Attendant Attendance} {failFirst attempts : Nat}
  {w : World Attendant Attendance}

theorem OnBus.ask_dispatch (onBus : s.OnBus) (attended : Attended failFirst attempts w)
    (d : Dispatch) :
    (s.ask (.dispatch d) (s.dispatch d) w).1 = .ok d.task ∧
    Attended failFirst (attempts + 1) (s.ask (.dispatch d) (s.dispatch d) w).2 ∧
    ∃ time, (s.ask (.dispatch d) (s.dispatch d) w).2.bus.results =
      Table.put w.bus.results d.task (Loopback.result failFirst (attempts + 1) d time) := by
  have noted := attended.note (.dispatch d)
  have heard : (w.note (.dispatch d)).bus.count .dispatch ≠ 0 := by
    unfold Bus.count Bus.subscribers
    rw [noted.subscriptions]
    exact Nat.one_ne_zero
  have asked : s.ask (.dispatch d) (s.dispatch d) w = (.ok d.task,
      (World.publish Attendant.handlers (.dispatch d) (w.note (.dispatch d))).2) := by
    unfold ask
    rw [onBus.handlers, onBus.dispatch, World.call_onBus _ d heard]
    rfl
  rw [asked]
  exact ⟨rfl, noted.publish_dispatch d⟩

theorem OnBus.delegateAll (onBus : s.OnBus) (r : Run) {steps : List PlanStep}
    (distinct : (steps.map (r.taskOf ·.id)).Nodup) (attended : Attended failFirst attempts w) :
    (s.delegateAll r steps w).1 =
      steps.map (fun step => delegationOf r step (.ok (r.taskOf step.id))) ∧
    Attended failFirst (attempts + steps.length) (s.delegateAll r steps w).2 ∧
    (∃ answers, Answers failFirst attempts (steps.map (r.taskOf ·.id))
      (s.delegateAll r steps w).2.bus.results answers) ∧
    ∀ task ∉ steps.map (r.taskOf ·.id),
      Table.get? (s.delegateAll r steps w).2.bus.results task = Table.get? w.bus.results task := by
  induction steps generalizing w attempts with
  | nil => exact ⟨rfl, attended, ⟨[], rfl, rfl, by simp⟩, fun _ _ => rfl⟩
  | cons step rest ih =>
    obtain ⟨new, apart⟩ := List.nodup_cons.mp distinct
    let d := r.dispatchOf s.config.taskTimeout step
    obtain ⟨answer, handed, time, stored⟩ := onBus.ask_dispatch attended d
    obtain ⟨delegations, after, ⟨answers, own⟩, untouched⟩ := ih apart handed
    let first := Loopback.result failFirst (attempts + 1) d time
    have task : first.task = r.taskOf step.id := Loopback.result_task ..
    have all : s.delegateAll r (step :: rest) w =
        (delegationOf r step (.ok (r.taskOf step.id)) ::
          (s.delegateAll r rest (s.ask (.dispatch d) (s.dispatch d) w).2).1,
          (s.delegateAll r rest (s.ask (.dispatch d) (s.dispatch d) w).2).2) := by
      have answer : (s.ask (.dispatch d) (s.dispatch d) w).1 = .ok (r.taskOf step.id) := answer
      rw [← answer]
      rfl
    rw [all]
    refine ⟨?_, ?_, ⟨first :: answers, ?_, ?_, ?_⟩, ?_⟩
    · rw [delegations]
      rfl
    · rw [List.length_cons, Nat.add_comm rest.length, ← Nat.add_assoc]
      exact after
    · rw [List.map_cons, List.map_cons, own.named, task]
    · rw [List.map_cons, own.statuses]
      simp only [List.map_cons, List.length_cons, List.range'_succ, first, Loopback.result_status]
    · intro result member
      rcases List.mem_cons.mp member with rfl | later
      · rw [task, untouched _ new, stored]
        exact Table.get?_put_self ..
      · exact own.stored result later
    · intro other outside
      rw [List.map_cons, List.mem_cons, not_or] at outside
      obtain ⟨different, beyond⟩ := outside
      rw [untouched other beyond, stored]
      exact Table.get?_put_of_ne _ _ different

end Services

theorem eraseDups_of_nodup {tasks : List String} (distinct : tasks.Nodup) :
    tasks.eraseDups = tasks := by
  induction tasks with
  | nil => rfl
  | cons task rest ih =>
    obtain ⟨new, apart⟩ := List.nodup_cons.mp distinct
    have others : rest.filter (fun other => !other == task) = rest := by
      rw [List.filter_eq_self]
      intro other member
      have different : other ≠ task := fun same => new (same ▸ member)
      simpa using different
    rw [List.eraseDups_cons, others, ih apart]

namespace Answers

variable {failFirst attempts : Nat} {tasks : List String} {results : Table TaskResult}
  {answers : List TaskResult} {w : World Attendant Attendance}

theorem stored_at (own : Answers failFirst attempts tasks results answers) {task : String}
    (member : task ∈ tasks) : ∃ r ∈ answers, r.task = task ∧ Table.get? results task = some r := by
  rw [← own.named] at member
  obtain ⟨r, inside, rfl⟩ := List.mem_map.mp member
  exact ⟨r, inside, rfl, own.stored r inside⟩

/-- Where all answers are there, nobody waits. -/
theorem await_eq (own : Answers failFirst attempts tasks w.bus.results answers)
    (distinct : tasks.Nodup) (timeout : Nat) :
    World.await Attendant.handlers tasks timeout w = (answers, w) := by
  have gathered : ∀ task ∈ tasks, Table.get? (gather tasks [] w.bus.results) task =
      Table.get? w.bus.results task := by
    intro task member
    rw [get?_gather, if_pos member]
    rfl
  have complete : World.isComplete tasks (gather tasks [] w.bus.results) = true := by
    refine List.all_eq_true.mpr fun task member => ?_
    obtain ⟨r, _, _, found⟩ := own.stored_at member
    rw [Table.contains, gathered task member, found]
    rfl
  have ordered : inRequestOrder tasks (gather tasks [] w.bus.results) = answers := by
    unfold inRequestOrder
    rw [eraseDups_of_nodup distinct, List.filterMap_congr gathered, ← own.named,
      List.filterMap_map]
    calc answers.filterMap (Table.get? w.bus.results ∘ (·.task))
        = answers.filterMap some := List.filterMap_congr own.stored
      _ = answers := List.filterMap_some
  unfold World.await
  dsimp only
  rw [if_pos (.inl complete), ordered]

theorem outcomes_eq (own : Answers failFirst attempts tasks results answers) (timeout : Nat) :
    World.outcomes tasks answers timeout = answers.map .typed := by
  have unanswered : (tasks.filter fun task => !answers.any (·.task = task)) = [] := by
    rw [List.filter_eq_nil_iff]
    intro task member
    obtain ⟨r, inside, same, _⟩ := own.stored_at member
    have answered : answers.any (·.task = task) = true :=
      List.any_eq_true.mpr ⟨r, inside, decide_eq_true same⟩
    simp [answered]
  rw [World.outcomes, unanswered]
  exact List.append_nil _

theorem collect_eq (own : Answers failFirst attempts tasks w.bus.results answers)
    (distinct : tasks.Nodup) (some : tasks ≠ []) {made : Nat} (attended : Attended failFirst made w)
    (session : String) {timeout : Nat} (tells : timeout + 1000 < twoTo 63 * 1000)
    (policy : FanInPolicy) :
    (World.collect Attendant.handlers session tasks timeout policy w).1 =
      .value (.fanIn (answers.map .typed) policy) ∧
    Attended failFirst made (World.collect Attendant.handlers session tasks timeout policy w).2 := by
  let taken := { w with buffer := Table.erase w.buffer session }
  let counted := { taken with bus := (taken.bus.subscribe .result none).2 }
  have nothing : w.heldBack session = [] := by
    rw [World.heldBack, attended.buffer]
    rfl
  have waiting : World.uncovered tasks [] = tasks := by simp [World.uncovered]
  have canWait : taken.canWait timeout = true := by
    have clock : taken.clock = 0 := attended.clock
    simpa [World.canWait, clock] using tells
  have awaited : World.await Attendant.handlers tasks timeout counted = (answers, counted) :=
    own.await_eq (w := counted) distinct timeout
  have collected : World.collect Attendant.handlers session tasks timeout policy w =
      (.value (.fanIn (World.outcomes tasks answers timeout) policy), { counted with
        bus := (counted.bus.unsubscribe .result w.bus.nextId).2 }) := by
    unfold World.collect
    dsimp only
    rw [nothing, waiting, if_neg (by simpa using some)]
    change (if !taken.canWait timeout then _ else _) = _
    rw [canWait]
    change (match World.await Attendant.handlers tasks timeout counted with | (results, w) => _) = _
    rw [awaited]
    rfl
  rw [collected, own.outcomes_eq timeout]
  exact ⟨rfl, attended.leave session⟩

end Answers

namespace Services

variable {s : Services Attendant Attendance} {failFirst attempts made : Nat}
  {w : World Attendant Attendance}

/-- With nobody to ask, what was dispatched is waited for. -/
theorem OnBus.prefill_eq (onBus : s.OnBus) (session : String) {ds : List Delegation}
    (dispatched : ∀ d ∈ ds, d.dispatched = true) :
    s.prefill session ds w = (ds.map (·.task), w) := by
  induction ds with
  | nil => rfl
  | cons d rest ih =>
    have unknown : s.known d w = (none, w) := by
      unfold known
      rw [dispatched d List.mem_cons_self, onBus.status]
      rfl
    unfold prefill
    rw [unknown]
    dsimp only
    rw [ih fun e later => dispatched e (List.mem_cons_of_mem _ later)]
    rfl

theorem OnBus.summarize (onBus : s.OnBus) {r : Run} {answers : List TaskResult}
    (dispatched : ∀ d ∈ r.delegations, d.dispatched = true)
    (own : Answers failFirst attempts (r.delegations.map (·.task)) w.bus.results answers)
    (distinct : (r.delegations.map (·.task)).Nodup) (some : r.delegations ≠ [])
    (attended : Attended failFirst made w)
    (tells : s.config.observationTimeout < twoTo 62) :
    (s.summarize w r).1 = .fanIn (answers.map .typed) r.fanIn ∧
    Attended failFirst made (s.summarize w r).2 := by
  have width : twoTo 63 = 2 * twoTo 62 := twoTo_succ 62
  have far : (1 : Nat) ≤ twoTo 62 := twoTo_pos 62
  have inTime : s.config.observationTimeout * 1000 + 1000 < twoTo 63 * 1000 := by omega
  obtain ⟨sum, after⟩ :=
    own.collect_eq distinct (by simpa using some) attended r.session inTime r.fanIn
  unfold Services.summarize
  rw [if_neg (by simpa using some), onBus.prefill_eq r.session dispatched, onBus.handlers]
  dsimp only
  generalize World.collect _ _ _ _ _ _ = collected at sum after
  obtain ⟨answer, w'⟩ := collected
  dsimp only at sum after
  subst sum
  exact ⟨rfl, after⟩

end Services
end Orchestration
