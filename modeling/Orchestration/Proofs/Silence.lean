import Orchestration.Proofs.Roster

/-! Executors that have not been heard from. The monitor takes the time that the message delivered
last bears, be it earlier than what others bore before it; so it tells the silent from the others
where no message is overtaken by an earlier one, and may call an executor silent where one is. -/
namespace Orchestration

def Message.time? : Message → Option Timestamp
  | .heartbeat h => some h.timestamp
  | .result r => some r.completed
  | _ => none

def sightings (past : List Message) (agent : String) : List Timestamp :=
  (past.filter (·.isFrom agent)).filterMap Message.time?

/-- No sign of life is later than the one delivered last. -/
def Timely (past : List Message) (agent : String) : Prop :=
  ∀ last ∈ (sightings past agent).getLast?, ∀ t ∈ sightings past agent, t.le last = true

namespace Monitor

theorem lastSeen_hear {m : Message} {agent : String} (own : m.isFrom agent = true)
    (entry : Option ExecutorState) :
    (ExecutorState.hear entry m).map (·.lastSeen) = m.time? := by
  cases m with
  | heartbeat h =>
    rw [ExecutorState.hear, ExecutorState.afterHeartbeat_eq]
    rfl
  | result r =>
    rw [ExecutorState.hear, ExecutorState.afterResult_eq]
    rfl
  | dispatch d => cases own
  | summary session iteration summed => cases own

theorem lastSeen_after (past : List Message) (agent : String) :
    (Table.get? (after past) agent).map (·.lastSeen) = (sightings past agent).getLast? := by
  induction past using List.reverseRecOn with
  | nil => rfl
  | append_singleton past m ih =>
    rw [after_concat, get?_observe, sightings, List.filter_append, List.filterMap_append]
    cases own : m.isFrom agent with
    | true =>
      rw [if_pos rfl, lastSeen_hear own]
      cases time : m.time? with
      | none => cases m <;> simp_all [Message.isFrom, Message.time?]
      | some t => simp [own, time]
    | false => simpa [own, sightings] using ih

theorem mem_stale (past : List Message) (now : Timestamp) (seconds nanos : Nat) (agent : String) :
    agent ∈ (after past).stale now seconds nanos ↔
      ∃ cutoff last, now.back? seconds nanos = some cutoff ∧
        (sightings past agent).getLast? = some last ∧ last.lt cutoff = true := by
  rw [← lastSeen_after]
  unfold stale
  cases now.back? seconds nanos with
  | none => simp
  | some cutoff =>
    simp only [List.mem_map, List.mem_filter, mem_snapshot, Option.map_eq_some_iff,
      Option.some.injEq, exists_and_left, exists_eq_left']
    constructor
    · rintro ⟨s, ⟨found, before⟩, rfl⟩
      exact ⟨s.lastSeen, ⟨s, found, rfl⟩, before⟩
    · rintro ⟨_, ⟨s, found, rfl⟩, before⟩
      have own := (accounts_after found).own
      exact ⟨s, ⟨own ▸ found, before⟩, own⟩

theorem stale_increasing (past : List Message) (now : Timestamp) (seconds nanos : Nat) :
    ((after past).stale now seconds nanos).Pairwise (· < ·) := by
  have agents : ((after past).snapshot.map (·.agent)).Pairwise (· < ·) := by
    rw [snapshot_agents]
    exact List.pairwise_map.mpr (sorted_after past)
  unfold stale
  split
  · exact .nil
  · exact agents.sublist (List.filter_sublist.map _)

/-- Whatever the monitor has observed, an executor was last seen at the time that its last message
delivered bears, and is silent if and only if that time is too far back; each silent executor is
named once, in order. So where none of its messages is later than the one delivered last, it was
last seen at the latest time that any of them bears, and is not silent if one of them bears a time
that is not too far back. -/
theorem stale_by_last_delivery (past : List Message) (now : Timestamp) (seconds nanos : Nat) :
    let silent := (after past).stale now seconds nanos
    silent.Pairwise (· < ·) ∧ ∀ agent,
      (Table.get? (after past) agent).map (·.lastSeen) = (sightings past agent).getLast? ∧
      (agent ∈ silent ↔ ∃ cutoff last, now.back? seconds nanos = some cutoff ∧
        (sightings past agent).getLast? = some last ∧ last.lt cutoff = true) ∧
      (Timely past agent →
        (∀ s, Table.get? (after past) agent = some s → s.lastSeen ∈ sightings past agent ∧
          ∀ t ∈ sightings past agent, t.le s.lastSeen = true) ∧
        ∀ t ∈ sightings past agent,
          (∀ cutoff, now.back? seconds nanos = some cutoff → cutoff.le t = true) →
            agent ∉ silent) := by
  intro silent
  refine ⟨stale_increasing .., fun agent => ⟨lastSeen_after past agent, mem_stale .., ?_⟩⟩
  intro timely
  refine ⟨fun s found => ?_, fun t sighted recent isSilent => ?_⟩
  · have last := lastSeen_after past agent
    rw [found, Option.map_some] at last
    exact ⟨List.mem_of_getLast? last.symm, timely s.lastSeen last.symm⟩
  · obtain ⟨cutoff, last, reached, delivered, early⟩ := (mem_stale ..).mp isSilent
    have since := recent cutoff reached
    have upTo := timely last delivered t sighted
    simp only [Timestamp.le_eq_not_lt, Bool.not_eq_true', ← Bool.not_eq_true,
      Timestamp.lt_iff] at since upTo early
    omega

def signAt (seconds : Int) : Message := .heartbeat ⟨"coder", none, none, ⟨seconds, 0⟩⟩

/-- Of two signs of life, of the years 1930 and 2000, the later one is delivered last: in 2026 the
executor has been heard from within fifty years. -/
theorem delivered_in_time :
    Timely [signAt (-1262304000), signAt 946684800] "coder" ∧
      (⟨946684800, 0⟩ : Timestamp) ∈ sightings [signAt (-1262304000), signAt 946684800] "coder" ∧
      "coder" ∉ (after [signAt (-1262304000), signAt 946684800]).stale ⟨1767225600, 0⟩
        1577847600 0 := by
  have timely : Timely [signAt (-1262304000), signAt 946684800] "coder" := by
    unfold Timely
    decide
  have sighted : (⟨946684800, 0⟩ : Timestamp) ∈
      sightings [signAt (-1262304000), signAt 946684800] "coder" := by decide
  have told := stale_by_last_delivery [signAt (-1262304000), signAt 946684800] ⟨1767225600, 0⟩
    1577847600 0
  refine ⟨timely, sighted, ((told.2 "coder").2.2 timely).2 ⟨946684800, 0⟩ sighted ?_⟩
  decide

/-- The other way round it is called silent, though a sign of life was heard that is younger. -/
theorem overtaken_called_silent :
    let past := [signAt 946684800, signAt (-1262304000)]
    ∃ cutoff t, (⟨1767225600, 0⟩ : Timestamp).back? 1577847600 0 = some cutoff ∧
      t ∈ sightings past "coder" ∧ cutoff.le t = true ∧ t.le ⟨1767225600, 0⟩ = true ∧
      (after past).stale ⟨1767225600, 0⟩ 1577847600 0 = ["coder"] ∧
      ∃ s, Table.get? (after past) "coder" = some s ∧ s.lastSeen.lt t = true := by
  refine ⟨⟨189378000, 0⟩, ⟨946684800, 0⟩, by decide, by decide, by decide, by decide, by decide,
    _, rfl, by decide⟩

end Monitor
end Orchestration
