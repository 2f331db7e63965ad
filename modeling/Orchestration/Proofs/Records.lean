import Orchestration.Bus.Message
import Orchestration.Proofs.Codecs
import Orchestration.Session.State

/-! The records that are stored and published, each with the codec of its fields. -/
namespace Orchestration

theorem Phase.codec {k : Nat} : Codec Phase.toJson Phase.ofJson? (fun _ => True) k :=
  .word Phase.read?_text

theorem TaskStatus.codec {k : Nat} : Codec TaskStatus.toJson TaskStatus.ofJson? (fun _ => True) k :=
  .word TaskStatus.read?_text

theorem Outcome.codec {k : Nat} : Codec Outcome.toJson Outcome.ofJson? (fun _ => True) k :=
  .word fun o => by cases o <;> rfl

theorem Action.codec {k : Nat} : Codec Action.toJson Action.ofJson? (fun _ => True) k where
  back a _ := by cases a <;> rfl
  clean _ _ := by simp [Json.Clean, Json.numbers, Action.toJson]
  sound _ l _ _ _ _ := ⟨trivial, Nat.zero_le l⟩

open Fields

theorem Issue.codec {k : Nat} : Codec Issue.toJson Issue.ofJson? (fun _ => True) (k + 1) :=
  Entries.codec
    (.plain (.required .string) Issue.kind fun _ =>
      .plain (.defaulted .string trivial (Nat.zero_le k)) Issue.message fun _ =>
      .cons (.skipped .string fun _ _ => rfl) Issue.severity (fun _ _ _ _ => trivial) fun _ _ =>
      .done (fun ⟨_, _, _⟩ => by simp [and_assoc]) trivial)
    (by simp) (fun ⟨_, _, severity⟩ => by cases severity <;> rfl)

theorem Issue.list_codec {k : Nat} :
    Codec Issue.listToJson Issue.list? (fun is => ∀ i ∈ is, True) (k + 2) :=
  .list Issue.codec

theorem strings_codec {k : Nat} :
    Codec Json.strings Json.strings? (fun ss => ∀ s ∈ ss, True) (k + 1) :=
  .list .string

theorem Decision.codec {k : Nat} : Codec Decision.toJson Decision.ofJson? (fun _ => True) (k + 1) :=
  Entries.codec
    (.plain (.required Action.codec) Decision.action fun _ =>
      .cons (.optional .string fun _ _ => rfl) Decision.reason (fun _ _ _ _ => trivial) fun _ _ =>
      .cons (.optional Phase.codec fun _ _ => rfl) Decision.nextPhase (fun _ _ _ _ => trivial)
        fun _ _ =>
      .done (fun ⟨_, _, _⟩ => by simp [and_assoc]) trivial)
    (by simp) (fun _ => rfl)

theorem PlanStep.codec {k : Nat} : Codec PlanStep.toJson PlanStep.ofJson? (fun _ => True) (k + 2) :=
  Entries.codec
    (.plain (.required .string) PlanStep.id fun _ =>
      .plain (.required .string) PlanStep.objective fun _ =>
      .plain (.required .string) PlanStep.delegate fun _ =>
      .cons (.defaulted strings_codec (by simp) (Nat.le_add_left 1 k)) PlanStep.dependencies
        (fun _ _ _ _ => trivial) fun _ _ =>
      .plain (.defaulted .string trivial (Nat.zero_le _)) PlanStep.risk fun _ =>
      .done (fun ⟨_, _, _, _, _⟩ => by simp [and_assoc]) trivial)
    (by simp) (fun _ => rfl)

theorem Delegation.codec {k : Nat} :
    Codec Delegation.toJson Delegation.ofJson? (fun _ => True) (k + 1) :=
  Entries.codec
    (.plain (.required .string) Delegation.task fun _ =>
      .plain (.required .string) Delegation.step fun _ =>
      .plain (.required .string) Delegation.delegate fun _ =>
      .plain (.required .string) Delegation.objective fun _ =>
      .plain (.required .bool) Delegation.dispatched fun _ =>
      .cons (.skipped .string fun _ _ => rfl) Delegation.error (fun _ _ _ _ => trivial) fun _ _ =>
      .done (fun ⟨_, _, _, _, _, _⟩ => by simp [and_assoc]) trivial)
    (by simp) (fun ⟨_, _, _, _, _, error⟩ => by cases error <;> rfl)

/-! ### Outcomes of tasks -/

theorem filled_float (x : Binary64) (finite : x.isFinite = true) :
    (Json.ofFloat x).isNull = false := by
  rw [Json.ofFloat, if_pos finite]
  rfl

structure Finding.Sound (f : Finding) : Prop where
  result : f.result.Proper
  confidence : ∀ c ∈ f.confidence, c.isFinite = true

theorem Finding.codec {k : Nat} : Codec Finding.toJson Finding.ofJson? Finding.Sound (k + 3) :=
  Entries.codec
    (.plain (.required .string) Finding.task fun _ =>
      .plain (.required TaskStatus.codec) Finding.status fun _ =>
      .cons (.defaulted .value ⟨rfl, by simp [Json.Clean, Json.numbers]⟩ (Nat.zero_le _))
        Finding.result (fun _ => Sound.result) fun _ result =>
      .cons (.optional .float filled_float) Finding.confidence (fun _ => Sound.confidence)
        fun _ confidence =>
      .cons (.defaulted Issue.list_codec (by simp) (Nat.le_add_left 1 _)) Finding.issues
        (fun _ _ _ _ => trivial) fun _ _ =>
      .done (fun ⟨_, _, _, _, _⟩ => by simp [and_assoc]) ⟨result, confidence⟩)
    (by simp) (fun _ => rfl)

structure Summary.Sound (s : Summary) : Prop where
  successRate : s.successRate.isFinite = true
  lowestConfidence : s.lowestConfidence.isFinite = true
  total : s.total < twoTo 64
  successes : s.successes < twoTo 64
  failures : s.failures < twoTo 64
  partials : s.partials < twoTo 64
  findings : ∀ f ∈ s.findings, f.Sound

theorem Summary.codec {k : Nat} : Codec Summary.toJson Summary.ofJson? Summary.Sound (k + 5) :=
  Entries.codec
    (.cons (.required .float) Summary.successRate (fun _ => Sound.successRate) fun _ successRate =>
      .plain (.required .bool) Summary.blocking fun _ =>
      .cons (.required .float) Summary.lowestConfidence (fun _ => Sound.lowestConfidence)
        fun _ lowestConfidence =>
      .cons (.required (.natBelow (Nat.le_refl 64))) Summary.total (fun _ => Sound.total)
        fun _ total =>
      .cons (.required (.natBelow (Nat.le_refl 64))) Summary.successes (fun _ => Sound.successes)
        fun _ successes =>
      .cons (.required (.natBelow (Nat.le_refl 64))) Summary.failures (fun _ => Sound.failures)
        fun _ failures =>
      .cons (.required (.natBelow (Nat.le_refl 64))) Summary.partials (fun _ => Sound.partials)
        fun _ partials =>
      .cons (.defaulted Issue.list_codec (by simp) (Nat.le_add_left 1 _)) Summary.issues
        (fun _ _ _ _ => trivial) fun _ _ =>
      .cons (.defaulted (.list Finding.codec) (by simp) (Nat.le_add_left 1 _)) Summary.findings
        (fun _ => Sound.findings) fun _ findings =>
      .done (fun ⟨_, _, _, _, _, _, _, _, _⟩ => by simp [and_assoc])
        ⟨successRate, lowestConfidence, total, successes, failures, partials, findings⟩)
    (by simp) (fun _ => rfl)

/-! ### What is kept of a session -/

theorem empty_proper : (Json.obj []).Proper :=
  ⟨rfl, by simp [Json.Clean, Json.numbers, Json.memberNumbers]⟩

structure State.Sound (s : State) : Prop where
  iteration : s.iteration < twoTo 32
  input : (Json.obj s.input).Proper
  observations : ∀ o ∈ s.observations, o.Sound
  timestamp : s.timestamp.Shown
  metadata : (Json.obj s.metadata).Proper

theorem State.codec {k : Nat} : Codec State.toJson State.ofJson? State.Sound (k + 6) :=
  Entries.codec
    (.plain (.required .string) State.session fun _ =>
      .cons (.required (.natBelow (by decide))) State.iteration (fun _ => Sound.iteration)
        fun _ iteration =>
      .plain (.required Phase.codec) State.phase fun _ =>
      .cons (.defaulted .table empty_proper (Nat.le_add_left 1 _)) State.input
        (fun _ => Sound.input) fun _ input =>
      .cons (.optional Summary.codec fun _ _ => rfl) State.observations
        (fun _ => Sound.observations) fun _ observations =>
      .cons (.optional Decision.codec fun _ _ => rfl) State.decision (fun _ _ _ _ => trivial)
        fun _ _ =>
      .cons (.optional (.list PlanStep.codec) fun _ _ => rfl) State.plan
        (fun _ _ _ _ _ _ => trivial) fun _ _ =>
      .cons (.optional (.list Delegation.codec) fun _ _ => rfl) State.delegations
        (fun _ _ _ _ _ _ => trivial) fun _ _ =>
      .cons (.optional .string fun _ _ => rfl) State.correlation (fun _ _ _ _ => trivial) fun _ _ =>
      .cons (.optional .string fun _ _ => rfl) State.parent (fun _ _ _ _ => trivial) fun _ _ =>
      .cons (.required .timestamp) State.timestamp (fun _ => Sound.timestamp) fun _ timestamp =>
      .cons (.defaulted .table empty_proper (Nat.le_add_left 1 _)) State.metadata
        (fun _ => Sound.metadata) fun _ metadata =>
      .done (fun ⟨_, _, _, _, _, _, _, _, _, _, _, _⟩ => by simp [and_assoc])
        ⟨iteration, input, observations, timestamp, metadata⟩)
    (by simp) (fun _ => rfl)

structure DecisionLog.Sound (l : DecisionLog) : Prop where
  iteration : l.iteration < twoTo 32
  input : (Json.obj l.input).Proper
  observations : ∀ o ∈ l.observations, o.Sound
  timestamp : l.timestamp.Shown
  metadata : (Json.obj l.metadata).Proper

theorem DecisionLog.codec {k : Nat} :
    Codec DecisionLog.toJson DecisionLog.ofJson? DecisionLog.Sound (k + 6) :=
  Entries.codec
    (.plain (.required .string) DecisionLog.session fun _ =>
      .cons (.required (.natBelow (by decide))) DecisionLog.iteration (fun _ => Sound.iteration)
        fun _ iteration =>
      .plain (.required Phase.codec) DecisionLog.phase fun _ =>
      .cons (.defaulted .table empty_proper (Nat.le_add_left 1 _)) DecisionLog.input
        (fun _ => Sound.input) fun _ input =>
      .cons (.optional Summary.codec fun _ _ => rfl) DecisionLog.observations
        (fun _ => Sound.observations) fun _ observations =>
      .plain (.required Decision.codec) DecisionLog.decision fun _ =>
      .plain (.required Outcome.codec) DecisionLog.outcome fun _ =>
      .cons (.required .timestamp) DecisionLog.timestamp (fun _ => Sound.timestamp)
        fun _ timestamp =>
      .cons (.optional .string fun _ _ => rfl) DecisionLog.correlation (fun _ _ _ _ => trivial)
        fun _ _ =>
      .cons (.defaulted .table empty_proper (Nat.le_add_left 1 _)) DecisionLog.metadata
        (fun _ => Sound.metadata) fun _ metadata =>
      .done (fun ⟨_, _, _, _, _, _, _, _, _, _⟩ => by simp [and_assoc])
        ⟨iteration, input, observations, timestamp, metadata⟩)
    (by simp) (fun _ => rfl)

/-! ### What is published -/

structure Dispatch.Sound (d : Dispatch) : Prop where
  iteration : d.iteration < twoTo 32
  context : (Json.obj d.context).Proper
  timeout : d.timeout < twoTo 64
  policy : (Json.obj d.policy).Proper

theorem Dispatch.codec {k : Nat} : Codec Dispatch.toJson Dispatch.ofJson? Dispatch.Sound (k + 2) :=
  Entries.codec
    (.plain (.required .string) Dispatch.session fun _ =>
      .cons (.required (.natBelow (by decide))) Dispatch.iteration (fun _ => Sound.iteration)
        fun _ iteration =>
      .plain (.required .string) Dispatch.task fun _ =>
      .plain (.required .string) Dispatch.delegate fun _ =>
      .plain (.required .string) Dispatch.objective fun _ =>
      .cons (.defaulted .table empty_proper (Nat.le_add_left 1 _)) Dispatch.context
        (fun _ => Sound.context) fun _ context =>
      .cons (.defaulted strings_codec (by simp) (Nat.le_add_left 1 _)) Dispatch.criteria
        (fun _ _ _ _ => trivial) fun _ _ =>
      .cons (.required (.natBelow (Nat.le_refl 64))) Dispatch.timeout (fun _ => Sound.timeout)
        fun _ timeout =>
      .cons (.defaulted .table empty_proper (Nat.le_add_left 1 _)) Dispatch.policy
        (fun _ => Sound.policy) fun _ policy =>
      .plain (.required .string) Dispatch.correlation fun _ =>
      .cons (.optional .string fun _ _ => rfl) Dispatch.parent (fun _ _ _ _ => trivial) fun _ _ =>
      .done (fun ⟨_, _, _, _, _, _, _, _, _, _, _⟩ => by simp [and_assoc])
        ⟨iteration, context, timeout, policy⟩)
    (by simp) (fun _ => rfl)

structure TaskResult.Sound (r : TaskResult) : Prop where
  result : r.result.Proper
  confidence : ∀ c ∈ r.confidence, c.isFinite = true
  metadata : (Json.obj r.metadata).Proper
  completed : r.completed.Shown

theorem TaskResult.codec {k : Nat} :
    Codec TaskResult.toJson TaskResult.ofJson? TaskResult.Sound (k + 3) :=
  Entries.codec
    (.plain (.required .string) TaskResult.session fun _ =>
      .plain (.required .string) TaskResult.task fun _ =>
      .plain (.required .string) TaskResult.agent fun _ =>
      .plain (.required TaskStatus.codec) TaskResult.status fun _ =>
      .cons (.defaulted .value ⟨rfl, by simp [Json.Clean, Json.numbers]⟩ (Nat.zero_le _))
        TaskResult.result (fun _ => Sound.result) fun _ result =>
      .cons (.defaulted Issue.list_codec (by simp) (Nat.le_add_left 1 _)) TaskResult.issues
        (fun _ _ _ _ => trivial) fun _ _ =>
      .cons (.optional .float filled_float) TaskResult.confidence (fun _ => Sound.confidence)
        fun _ confidence =>
      .cons (.defaulted .table empty_proper (Nat.le_add_left 1 _)) TaskResult.metadata
        (fun _ => Sound.metadata) fun _ metadata =>
      .cons (.optional .string fun _ _ => rfl) TaskResult.correlation (fun _ _ _ _ => trivial)
        fun _ _ =>
      .cons (.required .timestamp) TaskResult.completed (fun _ => Sound.completed)
        fun _ completed =>
      .done (fun ⟨_, _, _, _, _, _, _, _, _, _⟩ => by simp [and_assoc])
        ⟨result, confidence, metadata, completed⟩)
    (by simp) (fun _ => rfl)

structure Heartbeat.Sound (h : Heartbeat) : Prop where
  timestamp : h.timestamp.Shown

theorem Heartbeat.codec {k : Nat} :
    Codec Heartbeat.toJson Heartbeat.ofJson? Heartbeat.Sound (k + 1) :=
  Entries.codec
    (.plain (.required .string) Heartbeat.agent fun _ =>
      .cons (.optional .string fun _ _ => rfl) Heartbeat.session (fun _ _ _ _ => trivial) fun _ _ =>
      .cons (.optional .string fun _ _ => rfl) Heartbeat.task (fun _ _ _ _ => trivial) fun _ _ =>
      .cons (.required .timestamp) Heartbeat.timestamp (fun _ => Sound.timestamp)
        fun _ timestamp =>
      .done (fun ⟨_, _, _, _⟩ => by simp [and_assoc]) ⟨timestamp⟩)
    (by simp) (fun _ => rfl)

namespace Message

theorem record_fresh {ms : List (String × Json)} {key : String} (fresh : key ∉ Table.keys ms) :
    key ∉ Table.keys (Table.ofList ms) := by
  intro inside
  obtain ⟨m, member, same⟩ := List.mem_map.mp inside
  exact fresh (same ▸ List.mem_map_of_mem (Table.mem_ofList member))

/-- The kind and the fields of a message are told apart again. -/
theorem untag?_tagged (kind : String) {ms : List (String × Json)} (fresh : "kind" ∉ Table.keys ms) :
    untag? (tagged kind (.record ms)) = some (kind, .record ms) := by
  have once := Fields.repeated_sorted ["kind"]
    (Table.sorted_ofList (("kind", Json.str kind) :: Table.ofList ms))
  have apart := record_fresh fresh
  have distinct : (Table.keys (("kind", Json.str kind) :: Table.ofList ms)).Nodup :=
    List.nodup_cons.mpr ⟨apart, Table.nodup_keys (Table.sorted_ofList ms)⟩
  have named : Fields.named? ["kind"] (tagged kind (.record ms)) =
      some ⟨Table.ofList (("kind", Json.str kind) :: Table.ofList ms)⟩ := by
    simp [Fields.named?, tagged, Json.record, Json.object?, Document.members?, Document.complete,
      once]
  have told : (⟨Table.ofList (("kind", Json.str kind) :: Table.ofList ms)⟩ : Fields Json).required
      "kind" Json.string? = some kind := by
    rw [Fields.required, Fields.get?, Table.get?_ofList distinct]
    rfl
  change (Fields.named? ["kind"] (tagged kind (.record ms))).bind _ = _
  rw [named, Option.bind_some]
  change Option.bind _ _ = _
  rw [told, Option.bind_some]
  exact congrArg (fun t => some (kind, Json.obj t))
    (Table.erase_ofList (Table.sorted_ofList ms) apart (Json.str kind))

theorem clean_tagged (kind : String) {ms : List (String × Json)} (clean : (Json.record ms).Clean) :
    (tagged kind (.record ms)).Clean := by
  apply Json.clean_record
  rintro m (_ | ⟨_, other⟩) n inside
  · cases inside
  · exact clean n (Json.mem_memberNumbers.mpr ⟨m, other, inside⟩)

theorem depth_tagged (kind : String) {ms : List (String × Json)} {k : Nat}
    (shallow : (Json.record ms).depth ≤ k) : (tagged kind (.record ms)).depth ≤ k := by
  obtain ⟨l, rfl⟩ : ∃ l, k = l + 1 := ⟨k - 1, by rw [Json.record, Json.depth] at shallow; omega⟩
  apply Json.depth_record
  rintro m (_ | ⟨_, other⟩)
  · exact Nat.zero_le l
  · exact Json.memberDepth_le_iff.mp (Nat.le_of_succ_le_succ shallow) m other

theorem untag?_fits {j content : Json} {kind : String} {k : Nat} (fits : j.Fits k)
    (told : untag? j = some (kind, content)) : content.Fits k := by
  unfold untag? at told
  split at told
  · obtain ⟨_, rfl⟩ := Prod.mk.inj (Option.some.inj told)
    obtain ⟨l, rfl, inner⟩ := fits.arr
    exact Json.fits_arr.mpr (List.forall_mem_cons.mp inner).2
  · obtain ⟨f, named, rest⟩ := Option.bind_eq_some_iff.mp told
    obtain ⟨_, _, same⟩ := Option.bind_eq_some_iff.mp rest
    obtain ⟨_, rfl⟩ := Prod.mk.inj (Option.some.inj same)
    obtain ⟨l, rfl, within⟩ := Fields.named?_within fits named
    exact Json.fits_obj.mpr fun m member => within m (List.mem_filter.mp member).1

structure Briefing where
  session : String
  iteration : Nat
  summary : Summary

namespace Briefing

def toJson (b : Briefing) : Json :=
  .record [("session_id", .str b.session), ("iteration", .nat b.iteration),
    ("summary", b.summary.toJson)]

def ofJson? (j : Json) : Option Briefing := do
  let f ← Fields.of? ["session_id", "iteration", "summary"] j
  let session ← f.required "session_id" Json.string?
  let iteration ← f.required "iteration" Json.u32?
  let summary ← f.required "summary" Summary.ofJson?
  return ⟨session, iteration, summary⟩

structure Sound (b : Briefing) : Prop where
  iteration : b.iteration < twoTo 32
  summary : b.summary.Sound

theorem codec {k : Nat} : Codec toJson ofJson? Sound (k + 6) :=
  Entries.codec
    (.plain (.required .string) session fun _ =>
      .cons (.required (.natBelow (by decide))) iteration (fun _ => Sound.iteration)
        fun _ iteration =>
      .cons (.required Summary.codec) summary (fun _ => Sound.summary) fun _ summary =>
      .done (fun ⟨_, _, _⟩ => by simp [and_assoc]) ⟨iteration, summary⟩)
    (by simp) (fun _ => rfl)

end Briefing

def Sound : Message → Prop
  | dispatch d => d.Sound
  | result r => r.Sound
  | heartbeat h => h.Sound
  | summary session iteration s => Briefing.Sound ⟨session, iteration, s⟩

def kind : Message → String
  | dispatch _ => "dispatch"
  | result _ => "result"
  | heartbeat _ => "heartbeat"
  | summary .. => "summary"

def content : Message → Json
  | dispatch d => d.toJson
  | result r => r.toJson
  | heartbeat h => h.toJson
  | summary session iteration s => Briefing.toJson ⟨session, iteration, s⟩

theorem content_record (m : Message) :
    ∃ ms, "kind" ∉ Table.keys ms ∧ m.content = .record ms ∧
      m.toJson = tagged m.kind (.record ms) := by
  cases m with
  | dispatch d => exact ⟨_, by simp [Table.keys], rfl, rfl⟩
  | result r => exact ⟨_, by simp [Table.keys], rfl, rfl⟩
  | heartbeat h => exact ⟨_, by simp [Table.keys], rfl, rfl⟩
  | summary session iteration s => exact ⟨_, by simp [Table.keys], rfl, rfl⟩

theorem untag?_toJson (m : Message) : untag? m.toJson = some (m.kind, m.content) := by
  obtain ⟨ms, fresh, content, whole⟩ := m.content_record
  rw [whole, content]
  exact untag?_tagged m.kind fresh

def ofContent? (kind : String) (content : Json) : Option Message :=
  match kind with
  | "dispatch" => (Dispatch.ofJson? content).map .dispatch
  | "result" => (TaskResult.ofJson? content).map .result
  | "heartbeat" => (Heartbeat.ofJson? content).map .heartbeat
  | "summary" => (Briefing.ofJson? content).map fun b => .summary b.session b.iteration b.summary
  | _ => none

theorem ofJson?_eq (j : Json) :
    ofJson? j = (untag? j).bind fun told => ofContent? told.1 told.2 := by
  unfold ofJson?
  cases untag? j with
  | none => rfl
  | some told =>
    obtain ⟨kind, content⟩ := told
    change _ = ofContent? kind content
    unfold ofContent?
    split
    · rfl
    · rfl
    · rfl
    · simp [Briefing.ofJson?, Option.map_bind]
    · rw [Option.bind_eq_bind, Option.bind_some]
      dsimp only
      split
      all_goals first | rfl | contradiction

theorem ofContent?_back {m : Message} (sound : m.Sound) : ofContent? m.kind m.content = some m := by
  cases m with
  | dispatch d => simp [ofContent?, kind, content, (Dispatch.codec (k := 0)).back d sound]
  | result r => simp [ofContent?, kind, content, (TaskResult.codec (k := 0)).back r sound]
  | heartbeat h => simp [ofContent?, kind, content, (Heartbeat.codec (k := 0)).back h sound]
  | summary session iteration s =>
    simp [ofContent?, kind, content, (Briefing.codec (k := 0)).back _ sound]

theorem content_clean {m : Message} (sound : m.Sound) : m.content.Clean := by
  cases m with
  | dispatch d => exact (Dispatch.codec (k := 0)).clean d sound
  | result r => exact (TaskResult.codec (k := 0)).clean r sound
  | heartbeat h => exact (Heartbeat.codec (k := 0)).clean h sound
  | summary session iteration s =>
    exact (Briefing.codec (k := 0)).clean ⟨session, iteration, s⟩ sound

theorem ofContent?_sound {kind : String} {j : Json} {m : Message} {k l : Nat} (fits : j.Fits l)
    (large : k + 6 ≤ l) (read : ofContent? kind j = some m) : m.Sound ∧ m.content.depth ≤ l := by
  unfold ofContent? at read
  split at read
  · obtain ⟨d, one, rfl⟩ := Option.map_eq_some_iff.mp read
    exact (Dispatch.codec (k := k + 4)).sound j l d fits large one
  · obtain ⟨r, one, rfl⟩ := Option.map_eq_some_iff.mp read
    exact (TaskResult.codec (k := k + 3)).sound j l r fits large one
  · obtain ⟨h, one, rfl⟩ := Option.map_eq_some_iff.mp read
    exact (Heartbeat.codec (k := k + 5)).sound j l h fits large one
  · obtain ⟨b, one, rfl⟩ := Option.map_eq_some_iff.mp read
    exact (Briefing.codec (k := k)).sound j l b fits large one
  · cases read

theorem codec {k : Nat} : Codec Message.toJson Message.ofJson? Message.Sound (k + 6) where
  back m sound := by
    rw [ofJson?_eq, untag?_toJson]
    exact ofContent?_back sound
  clean m sound := by
    obtain ⟨ms, _, content, whole⟩ := m.content_record
    rw [whole]
    exact clean_tagged m.kind (content ▸ content_clean sound)
  sound j l m fits large read := by
    rw [ofJson?_eq] at read
    obtain ⟨⟨kind, inner⟩, told, rest⟩ := Option.bind_eq_some_iff.mp read
    obtain ⟨sound, shallow⟩ := ofContent?_sound (untag?_fits fits told) large rest
    obtain ⟨ms, _, content, whole⟩ := m.content_record
    rw [whole]
    exact ⟨sound, depth_tagged m.kind (content ▸ shallow)⟩

end Message

end Orchestration
