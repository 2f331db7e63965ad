import Orchestration.Monitor
import Orchestration.Proofs.Happenings

/-! What the monitor has of an executor, told from the messages that it observed. The entry is made
by the executor's own heartbeats and results and by nothing else: it counts them by kind, and names
the task that the executor took up last, unless a result for that task has come since. -/
namespace Orchestration

namespace Message

def isFrom (agent : String) : Message → Bool
  | heartbeat h => h.agent = agent
  | result r => r.agent = agent
  | _ => false

def isHeartbeatOf (agent : String) : Message → Bool
  | heartbeat h => h.agent = agent
  | _ => false

def isResultOf (agent : String) (status : TaskStatus) : Message → Bool
  | result r => r.agent = agent && r.status = status
  | _ => false

def Leaves (agent task : String) : Message → Prop
  | heartbeat h => h.agent = agent → h.task = none
  | result r => r.agent = agent → r.task ≠ task
  | _ => True

end Message

/-- The latest heartbeat of an executor that names a task named this one, and no result of the
executor for it has come since. -/
def Engaged (past : List Message) (agent task : String) : Prop :=
  ∃ before h after, past = before ++ .heartbeat h :: after ∧ h.agent = agent ∧
    h.task = some task ∧ ∀ m ∈ after, m.Leaves agent task

theorem engaged_iff_since {past : List Message} {agent task : String} :
    Engaged past agent task ↔
      Since past (fun m => ∃ h, m = .heartbeat h ∧ h.agent = agent ∧ h.task = some task)
        (·.Leaves agent task) := by
  constructor
  · rintro ⟨before, h, after, split, own, named, left⟩
    exact ⟨before, _, after, split, ⟨h, rfl, own, named⟩, left⟩
  · rintro ⟨before, _, after, split, ⟨h, rfl, own, named⟩, left⟩
    exact ⟨before, h, after, split, own, named, left⟩

theorem engaged_concat (past : List Message) (m : Message) (agent task : String) :
    Engaged (past ++ [m]) agent task ↔
      (∃ h, m = .heartbeat h ∧ h.agent = agent ∧ h.task = some task) ∨
        Engaged past agent task ∧ m.Leaves agent task := by
  rw [engaged_iff_since, since_concat, ← engaged_iff_since]

namespace ExecutorCounts

def counted (c : ExecutorCounts) : TaskStatus → Nat
  | .success => c.succeeded
  | .partial => c.partial
  | .failed => c.failed

theorem counted_withResult (c : ExecutorCounts) (status other : TaskStatus) :
    (c.withResult status).counted other =
      c.counted other + if status = other then 1 else 0 := by
  cases status <;> cases other <;> rfl

theorem heartbeats_withResult (c : ExecutorCounts) (status : TaskStatus) :
    (c.withResult status).heartbeats = c.heartbeats := by
  cases status <;> rfl

end ExecutorCounts

namespace ExecutorState

theorem afterHeartbeat_eq (s : ExecutorState) (h : Heartbeat) : s.afterHeartbeat h =
    ⟨s.agent, if h.task.isSome then .working else s.status, h.task.or s.task, h.timestamp,
      { s.counts with heartbeats := s.counts.heartbeats + 1 }⟩ := by
  unfold afterHeartbeat
  dsimp only
  split <;> rename_i named <;> rw [named] <;> rfl

theorem afterResult_eq (s : ExecutorState) (r : TaskResult) : s.afterResult r =
    ⟨s.agent, if s.task = some r.task then .idle else s.status,
      if s.task = some r.task then none else s.task, r.completed,
      s.counts.withResult r.status⟩ := by
  unfold afterResult
  dsimp only
  split <;> rfl

def hear (entry : Option ExecutorState) : Message → Option ExecutorState
  | .heartbeat h => some ((entry.getD (.fresh h.agent h.timestamp)).afterHeartbeat h)
  | .result r => some ((entry.getD (.fresh r.agent r.completed)).afterResult r)
  | _ => entry

theorem hear_isSome {m : Message} {agent : String} (own : m.isFrom agent = true)
    (entry : Option ExecutorState) : (hear entry m).isSome = true := by
  cases m with
  | heartbeat h => rfl
  | result r => rfl
  | dispatch d => cases own
  | summary session iteration summed => cases own

structure Accounts (past : List Message) (agent : String) (s : ExecutorState) : Prop where
  own : s.agent = agent
  heartbeats : s.counts.heartbeats = past.countP (·.isHeartbeatOf agent)
  results : ∀ status, s.counts.counted status = past.countP (·.isResultOf agent status)
  status : s.status = .working ↔ s.task.isSome = true
  task : ∀ task, s.task = some task ↔ Engaged past agent task

namespace Accounts

variable {past : List Message} {agent : String} {s : ExecutorState}

/-- Before its first message there is nothing to say of an executor. -/
theorem fresh (silent : ∀ m ∈ past, m.isFrom agent = false) (seen : Timestamp) :
    Accounts past agent (.fresh agent seen) where
  own := rfl
  heartbeats := by
    refine (List.countP_eq_zero.mpr fun m member => ?_).symm
    have other := silent m member
    cases m <;> simp_all [Message.isFrom, Message.isHeartbeatOf]
  results status := by
    have none : past.countP (·.isResultOf agent status) = 0 := by
      refine List.countP_eq_zero.mpr fun m member => ?_
      have other := silent m member
      cases m <;> simp_all [Message.isFrom, Message.isResultOf]
    rw [none]
    cases status <;> rfl
  status := by simp [ExecutorState.fresh]
  task task := by
    refine ⟨fun working => (nomatch working), ?_⟩
    rintro ⟨before, h, after, rfl, own, _⟩
    have other := silent (.heartbeat h) (by simp)
    simp [Message.isFrom, own] at other

theorem heartbeat {h : Heartbeat} (told : Accounts past h.agent s) :
    Accounts (past ++ [.heartbeat h]) h.agent (s.afterHeartbeat h) := by
  rw [afterHeartbeat_eq]
  refine ⟨told.own, ?_, fun status => ?_, ?_, fun task => ?_⟩
  · rw [List.countP_append, ← told.heartbeats]
    simp [Message.isHeartbeatOf]
  · rw [List.countP_append, ← told.results]
    cases status <;> simp [Message.isResultOf, ExecutorCounts.counted]
  · cases named : h.task with
    | none => simpa using told.status
    | some task => simp
  · rw [engaged_concat, ← told.task]
    cases named : h.task with
    | none => simp [Message.Leaves, named]
    | some other => simp [Message.Leaves, named]

theorem result {r : TaskResult} (told : Accounts past r.agent s) :
    Accounts (past ++ [.result r]) r.agent (s.afterResult r) := by
  rw [afterResult_eq]
  refine ⟨told.own, ?_, fun status => ?_, ?_, fun task => ?_⟩
  · rw [List.countP_append, ← told.heartbeats]
    simp [Message.isHeartbeatOf, ExecutorCounts.heartbeats_withResult]
  · rw [List.countP_append, ← told.results, ExecutorCounts.counted_withResult]
    simp [Message.isResultOf, List.countP_cons]
  · dsimp only
    split
    · simp
    · exact told.status
  · rw [engaged_concat, ← told.task]
    dsimp only
    split
    · rename_i answered
      simp [Message.Leaves, answered, eq_comm]
    · rename_i other
      have stays (working : s.task = some task) : r.task ≠ task :=
        fun same => other (by rw [working, same])
      simpa [Message.Leaves] using stays

/-- Nothing that others send is told of an executor. -/
theorem other {m : Message} (foreign : m.isFrom agent = false) (told : Accounts past agent s) :
    Accounts (past ++ [m]) agent s := by
  refine ⟨told.own, ?_, fun status => ?_, told.status, fun task => ?_⟩
  · rw [List.countP_append, ← told.heartbeats]
    cases m <;> simp_all [Message.isFrom, Message.isHeartbeatOf]
  · rw [List.countP_append, ← told.results]
    cases m <;> simp_all [Message.isFrom, Message.isResultOf]
  · rw [engaged_concat, ← told.task]
    cases m <;> simp_all [Message.isFrom, Message.Leaves]

end Accounts
end ExecutorState

namespace Monitor

def after (past : List Message) : Monitor := past.foldl observe []

theorem after_concat (past : List Message) (m : Message) :
    after (past ++ [m]) = (after past).observe m := List.foldl_append

theorem get?_update (t : Monitor) (sender : String) (seen : Timestamp)
    (change : ExecutorState → ExecutorState) (agent : String) :
    Table.get? (t.update sender seen change) agent = if sender = agent then
      some (change ((Table.get? t agent).getD (.fresh sender seen))) else Table.get? t agent := by
  unfold update
  by_cases same : sender = agent
  · subst same
    rw [Table.get?_put_self, if_pos rfl]
  · rw [Table.get?_put_of_ne _ _ (Ne.symm same), if_neg same]

theorem get?_observe (t : Monitor) (m : Message) (agent : String) :
    Table.get? (t.observe m) agent =
      if m.isFrom agent then ExecutorState.hear (Table.get? t agent) m else Table.get? t agent := by
  cases m with
  | heartbeat h =>
    simp only [Message.isFrom, decide_eq_true_eq]
    exact t.get?_update h.agent h.timestamp (·.afterHeartbeat h) agent
  | result r =>
    simp only [Message.isFrom, decide_eq_true_eq]
    exact t.get?_update r.agent r.completed (·.afterResult r) agent
  | dispatch d => rfl
  | summary session iteration summed => rfl

/-- An executor's entry is made of its own messages. -/
theorem get?_after (past : List Message) (agent : String) :
    Table.get? (after past) agent =
      (past.filter (·.isFrom agent)).foldl ExecutorState.hear none := by
  induction past using List.reverseRecOn with
  | nil => rfl
  | append_singleton past m ih =>
    rw [after_concat, get?_observe, ih, List.filter_append, List.foldl_append]
    cases own : m.isFrom agent <;> simp [own]

theorem isSome_after (past : List Message) (agent : String) :
    (Table.get? (after past) agent).isSome = past.any (·.isFrom agent) := by
  induction past using List.reverseRecOn with
  | nil => rfl
  | append_singleton past m ih =>
    rw [after_concat, get?_observe, List.any_append]
    cases own : m.isFrom agent with
    | true => simpa [own] using ExecutorState.hear_isSome own _
    | false => simpa [own] using ih

theorem accounts_after {past : List Message} {agent : String} {s : ExecutorState}
    (found : Table.get? (after past) agent = some s) : s.Accounts past agent := by
  induction past using List.reverseRecOn generalizing s with
  | nil => cases found
  | append_singleton past m ih =>
    rw [after_concat, get?_observe] at found
    split at found
    · rename_i own
      -- a first message finds no entry, and none of the earlier messages was the executor's
      have before (seen : Timestamp) :
          ((Table.get? (after past) agent).getD (.fresh agent seen)).Accounts past agent := by
        cases entry : Table.get? (after past) agent with
        | some s => exact ih entry
        | none =>
          have none := isSome_after past agent
          rw [entry] at none
          exact .fresh (by simpa using none.symm) seen
      cases m with
      | heartbeat h =>
        obtain rfl : h.agent = agent := by simpa [Message.isFrom] using own
        obtain rfl := Option.some.inj found
        exact (before _).heartbeat
      | result r =>
        obtain rfl : r.agent = agent := by simpa [Message.isFrom] using own
        obtain rfl := Option.some.inj found
        exact (before _).result
      | dispatch d => cases own
      | summary session iteration summed => cases own
    · rename_i foreign
      exact (ih found).other (by simpa using foreign)

theorem sorted_after (past : List Message) : Table.Sorted (after past) := by
  refine List.foldlRecOn (motive := Table.Sorted) _ _ .nil fun t sorted m _ => ?_
  cases m with
  | heartbeat h => exact Table.sorted_put sorted _ _
  | result r => exact Table.sorted_put sorted _ _
  | dispatch d => exact sorted
  | summary session iteration summed => exact sorted

theorem mem_snapshot {past : List Message} {s : ExecutorState} :
    s ∈ (after past).snapshot ↔ Table.get? (after past) s.agent = some s := by
  constructor
  · intro member
    obtain ⟨⟨agent, s⟩, inside, rfl⟩ := List.mem_map.mp member
    have found := Table.get?_of_mem (sorted_after past) inside
    rwa [(accounts_after found).own]
  · exact fun found => List.mem_map_of_mem (Table.mem_of_get? found)

theorem snapshot_agents (past : List Message) :
    (after past).snapshot.map (·.agent) = Table.keys (after past) := by
  unfold snapshot Table.values Table.keys
  rw [List.map_map]
  refine List.map_congr_left fun e member => ?_
  exact (accounts_after (Table.get?_of_mem (sorted_after past) member)).own

/-- Whatever messages the monitor has observed: an executor has an entry if and only if one of them
is its heartbeat or its result; the entry counts them by kind, and names the task of the latest
heartbeat that names one unless a result of the executor for it came later; the executor is at work
if and only if its entry names a task; no other message makes a difference to the entry; and a
snapshot has every entry once, in the order of the executors. -/
theorem roster_accounts_for_messages (past : List Message) (agent : String) :
    let entry := Table.get? (after past) agent
    (entry.isSome = true ↔ ∃ m ∈ past, m.isFrom agent = true) ∧
    (∀ s, entry = some s → s.Accounts past agent) ∧
    (entry = Table.get? (after (past.filter (·.isFrom agent))) agent) ∧
    ((after past).snapshot.map (·.agent)).Pairwise (· < ·) ∧
    ∀ s, s ∈ (after past).snapshot ↔ Table.get? (after past) s.agent = some s := by
  intro entry
  refine ⟨?_, fun s found => accounts_after found, ?_, ?_, fun s => mem_snapshot⟩
  · rw [isSome_after, List.any_eq_true]
  · change Table.get? (after past) agent = _
    rw [get?_after, get?_after, List.filter_filter]
    simp only [Bool.and_self]
  · rw [snapshot_agents]
    exact List.pairwise_map.mpr (sorted_after past)

end Monitor
end Orchestration
