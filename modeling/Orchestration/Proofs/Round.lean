import Mathlib.Data.List.Nodup
import Mathlib.Data.List.Perm.Subperm
import Orchestration.Proofs.Phases
import Orchestration.Proofs.Rate

/-! What a round brings in. Of each delegation something is known without waiting, or its task
is waited for; whoever is waited for is spoken for in the end, by what was held back under his
task, by a result or by the failure to have one. It is the task that counts: an observation
speaks for everybody who goes by it. -/
namespace Orchestration

namespace Observation

@[simp] theorem failed_task (task : String) (issue : Issue) :
    (failed task issue).task? = some task := by
  have other : ("task_id" : String) ≠ "status" := by decide
  have issues : ("task_id" : String) ≠ "issues" := by decide
  simp [failed, task?, Table.ofList, Table.get?_put_of_ne, other, issues, Json.string?]

theorem failed_status (task : String) (issue : Issue) :
    (failed task issue).normalize.status = .failed := by
  have issues : ("status" : String) ≠ "issues" := by decide
  have read : TaskStatus.ofWord? TaskStatus.failed.text = some .failed := by decide
  simp [failed, normalize, Finding.ofRecord, Table.ofList, Table.get?_put_of_ne, issues,
    Json.string?, read]

theorem normalize_task {o : Observation} {task : String} (about : o.task? = some task) :
    o.normalize.task = task := by
  cases o with
  | typed r => exact Option.some.inj about
  | raw record =>
    unfold task? at about
    simp [normalize, Finding.ofRecord, about]

end Observation

namespace World

variable {η σ : Type}

theorem outcomes_speak {tasks : List String} (results : List TaskResult) (timeout : Nat)
    {task : String} (member : task ∈ tasks) :
    ∃ o ∈ outcomes tasks results timeout, o.task? = some task := by
  unfold outcomes
  by_cases answered : results.any (·.task = task) = true
  · obtain ⟨r, inside, same⟩ := List.any_eq_true.mp answered
    refine ⟨.typed r, List.mem_append_left _ (List.mem_map_of_mem inside), ?_⟩
    exact congrArg some (of_decide_eq_true same)
  · refine ⟨.failed task (timeoutIssue timeout), List.mem_append_right _ ?_,
      Observation.failed_task task _⟩
    exact List.mem_map.mpr ⟨task, List.mem_filter.mpr ⟨member, by simpa using answered⟩, rfl⟩

theorem length_le_of_speak {tasks : List String} (distinct : tasks.Nodup)
    {observations : List Observation}
    (speak : ∀ task ∈ tasks, ∃ o ∈ observations, o.task? = some task) :
    tasks.length ≤ observations.length := by
  have inside : tasks ⊆ observations.filterMap Observation.task? := by
    intro task member
    obtain ⟨o, there, about⟩ := speak task member
    exact List.mem_filterMap.mpr ⟨o, there, about⟩
  exact (List.subperm_of_subset distinct inside).length_le.trans (List.length_filterMap_le _ _)

/-- A collection sums up what was held back and what became of the tasks that nothing held
back is about, unless it panics because the clock cannot tell its deadline. -/
theorem collect_cases (h : Handlers η σ) (session : String) (tasks : List String)
    (timeout : Nat) (policy : FanInPolicy) (w : World η σ) :
    (∃ results, (collect h session tasks timeout policy w).1 = .value (.fanIn (w.heldBack session ++
      outcomes (uncovered tasks (w.heldBack session)) results timeout) policy)) ∨
    w.canWait timeout = false ∧ ∃ text, (collect h session tasks timeout policy w).1 = .panic text := by
  unfold collect
  dsimp only
  split
  · rename_i none
    refine .inl ⟨[], ?_⟩
    rw [List.isEmpty_iff.mp none]
    simp [outcomes]
  · split
    · rename_i beyond
      exact .inr ⟨Bool.not_eq_true' _ |>.mp beyond, _, rfl⟩
    · exact .inl ⟨_, rfl⟩

/-- What was held back speaks for a task, or it is waited for. -/
theorem held_or_uncovered (held : List Observation) {tasks : List String} {task : String}
    (member : task ∈ tasks) :
    (∃ o ∈ held, o.task? = some task) ∨ task ∈ uncovered tasks held := by
  by_cases covered : held.any (·.task? = some task) = true
  · obtain ⟨o, inside, about⟩ := List.any_eq_true.mp covered
    exact .inl ⟨o, inside, of_decide_eq_true about⟩
  · exact .inr (List.mem_filter.mpr ⟨member, by simpa using covered⟩)

theorem spoken {tasks : List String} (held : List Observation) (results : List TaskResult)
    (timeout : Nat) {task : String} (member : task ∈ tasks) :
    ∃ o ∈ held ++ outcomes (uncovered tasks held) results timeout, o.task? = some task := by
  obtain ⟨o, inside, about⟩ | waits := held_or_uncovered held member
  · exact ⟨o, List.mem_append_left _ inside, about⟩
  · obtain ⟨o, inside, about⟩ := outcomes_speak results timeout waits
    exact ⟨o, List.mem_append_right _ inside, about⟩

theorem heldBack_hold (session : String) (o : Observation) (w : World η σ) :
    (w.hold session o).heldBack session = w.heldBack session ++ [o] := by
  simp [hold, heldBack]

end World

namespace Summary

theorem mem_findings_fanIn {observations : List Observation} {o : Observation}
    (member : o ∈ observations) (policy : FanInPolicy) :
    o.normalize ∈ (fanIn observations policy).findings := by
  rw [findings_fanIn]
  exact List.mem_map_of_mem member

theorem total_fanIn (observations : List Observation) (policy : FanInPolicy) :
    (fanIn observations policy).total = observations.length := by
  cases observations with
  | nil => rfl
  | cons o rest => simp [fanIn, ofFindings]

theorem all_succeed {observations : List Observation} {policy : FanInPolicy}
    (small : (fanIn observations policy).total < twoTo 53)
    (clean : (fanIn observations policy).isClean = true) :
    ∀ f ∈ (fanIn observations policy).findings, f.status = .success := by
  cases observations with
  | nil => cases clean
  | cons o rest =>
    have full : Binary64.one.le (fanIn (o :: rest) policy).successRate = true := by
      unfold isClean at clean
      exact (Bool.and_eq_true_iff.mp clean).2
    have same := successes_of_rate (List.length_filter_le _ _) small full
    intro f member
    have all := List.length_filter_eq_length_iff.mp same f member
    exact of_decide_eq_true all

theorem blocks_one {mode : FanInMode} (known : mode ≠ .unrecognized) (threshold : Binary64) :
    mode.blocks .one threshold = (decide (mode = .quorum) && Binary64.one.lt threshold) := by
  cases mode with
  | all => exact Binary64.lt_irrefl _
  | any =>
    change Binary64.one.eq .zero = false
    decide +kernel
  | quorum => rfl
  | unrecognized => exact absurd rfl known

theorem unblocked_of_one {policy : FanInPolicy} (known : policy.mode ≠ .unrecognized)
    (within : policy.threshold.le .one = true) :
    policy.mode.blocks .one policy.threshold = false := by
  rw [blocks_one known, Binary64.lt_eq_false_of_le within, Bool.and_false]

/-- A round of successes has the rate one, and what blocks it is a threshold beyond that. -/
theorem isClean_of_success {observations : List Observation} (policy : FanInPolicy)
    (some : observations ≠ []) (small : observations.length < twoTo 1023)
    (succeeded : ∀ o ∈ observations, o.normalize.status = .success) :
    (fanIn observations policy).isClean = !policy.mode.blocks .one policy.threshold := by
  have counted : ((observations.map (·.normalize)).filter (·.status = .success)).length =
      (observations.map (·.normalize)).length := by
    rw [List.length_filter_eq_length_iff]
    simpa using succeeded
  have full : rate ((observations.map (·.normalize)).filter (·.status = .success)).length
      (observations.map (·.normalize)).length = .one := by
    rw [counted, List.length_map]
    exact rate_self (List.length_pos_iff.mpr some) small
  have reached : Binary64.one.le .one = true := by decide +kernel
  unfold fanIn
  rw [if_neg (by simpa using some)]
  unfold ofFindings isClean
  dsimp only
  rw [full, reached, Bool.and_true]

theorem clean_of_success {observations : List Observation} {policy : FanInPolicy}
    (some : observations ≠ []) (small : observations.length < twoTo 53)
    (known : policy.mode ≠ .unrecognized) (within : policy.threshold.le .one = true)
    (succeeded : ∀ o ∈ observations, o.normalize.status = .success) :
    (fanIn observations policy).isClean = true := by
  rw [isClean_of_success policy some (small.trans (twoTo_lt (by decide))) succeeded,
    unblocked_of_one known within]
  rfl

end Summary

abbrev Inquiry : Type := Delegation × Option Observation

namespace Inquiry

def waiting? (q : Inquiry) : Option String := if q.2.isSome then none else some q.1.task

/-- A finding answers an inquiry: it is what was known, or else it goes by the task. -/
def Answered (q : Inquiry) (f : Finding) : Prop :=
  match q.2 with
  | some o => o.normalize = f
  | none => f.task = q.1.task

/-- What is known of one delegation does not go by the task of another. -/
def Faithful (asked : List Inquiry) : Prop :=
  ∀ p ∈ asked, ∀ o, p.2 = some o → ∀ q ∈ asked, o.task? = some q.1.task → q.1.task = p.1.task

theorem length_known_waiting (asked : List Inquiry) :
    (asked.filterMap (·.2)).length + (asked.filterMap waiting?).length = asked.length := by
  induction asked with
  | nil => rfl
  | cons q rest ih =>
    obtain ⟨d, known⟩ := q
    cases known <;> simp [waiting?] <;> omega

theorem waiting_sublist (asked : List Inquiry) :
    (asked.filterMap waiting?).Sublist (asked.map (·.1.task)) := by
  induction asked with
  | nil => exact .slnil
  | cons q rest ih =>
    obtain ⟨d, known⟩ := q
    cases known with
    | none => exact ih.cons_cons _
    | some o => exact ih.cons _

theorem mem_waiting {asked : List Inquiry} {task : String} :
    task ∈ asked.filterMap waiting? ↔ ∃ q ∈ asked, q.2 = none ∧ q.1.task = task := by
  rw [List.mem_filterMap]
  constructor
  · rintro ⟨q, member, opened⟩
    obtain ⟨d, known⟩ := q
    cases known with
    | none => exact ⟨_, member, rfl, Option.some.inj opened⟩
    | some o => cases opened
  · rintro ⟨q, member, none, same⟩
    exact ⟨q, member, by simp [waiting?, none, same]⟩

theorem covered_before {asked : List Inquiry} {before : List Observation}
    (distinct : (asked.map (·.1.task)).Nodup) (faithful : Faithful asked) {task : String}
    (waits : task ∈ asked.filterMap waiting?)
    (covered : ∃ o ∈ before ++ asked.filterMap (·.2), o.task? = some task) :
    ∃ o ∈ before, o.task? = some task := by
  obtain ⟨o, held, about⟩ := covered
  rcases List.mem_append.mp held with earlier | now
  · exact ⟨o, earlier, about⟩
  · obtain ⟨p, first, known⟩ := List.mem_filterMap.mp now
    obtain ⟨q, second, unknown, rfl⟩ := mem_waiting.mp waits
    have same := faithful p first o known q second about
    have equal : q = p := List.inj_on_of_nodup_map distinct second first same
    rw [equal, known] at unknown
    cases unknown

/-- Different delegations come to different observations: whoever is not known of speaks
through what was held back before, or through the outcome of his own task. -/
theorem length_le_observed {asked : List Inquiry} (distinct : (asked.map (·.1.task)).Nodup)
    (faithful : Faithful asked) (before : List Observation) (results : List TaskResult)
    (timeout : Nat) :
    asked.length ≤ before.length + (asked.filterMap (·.2)).length +
      (World.outcomes (World.uncovered (asked.filterMap waiting?) (before ++ asked.filterMap (·.2)))
        results timeout).length := by
  have apart := distinct.sublist (waiting_sublist asked)
  have early := length_known_waiting asked
  generalize heldBefore : before ++ asked.filterMap (·.2) = held
  generalize waitedFor : asked.filterMap waiting? = tasks at apart early
  have split := tasks.length_eq_length_filter_add fun task => !held.any (·.task? = some task)
  have waited : (World.uncovered tasks held).length ≤
      (World.outcomes (World.uncovered tasks held) results timeout).length :=
    World.length_le_of_speak (apart.filter _) fun _ => World.outcomes_speak results timeout
  have covered : (tasks.filter fun task => !!held.any (·.task? = some task)).length ≤
      before.length := by
    refine World.length_le_of_speak (apart.filter _) fun task member => ?_
    obtain ⟨inside, speaks⟩ := List.mem_filter.mp member
    apply covered_before distinct faithful (waitedFor ▸ inside)
    rw [heldBefore]
    simpa using speaks
  unfold World.uncovered at waited ⊢
  omega

end Inquiry

structure Round (asked : List Inquiry) (summary : Summary) : Prop where
  answered : ∀ q ∈ asked, ∃ f ∈ summary.findings, q.Answered f
  counted : (asked.map (·.1.task)).Nodup → Inquiry.Faithful asked → asked.length ≤ summary.total
  clean : summary.total < twoTo 53 → summary.isClean = true →
    ∀ f ∈ summary.findings, f.status = .success

namespace Round

variable {asked : List Inquiry}

theorem nothing : Round [] .nothingDelegated where
  answered q member := by cases member
  counted _ _ := Nat.zero_le _
  clean _ _ f member := by cases member

theorem fanIn (before : List Observation) (results : List TaskResult) (timeout : Nat)
    (policy : FanInPolicy) : Round asked (.fanIn (before ++ asked.filterMap (·.2) ++
      World.outcomes (World.uncovered (asked.filterMap Inquiry.waiting?)
        (before ++ asked.filterMap (·.2))) results timeout) policy) where
  answered := by
    intro q member
    obtain ⟨d, known⟩ := q
    cases known with
    | some o =>
      refine ⟨o.normalize, Summary.mem_findings_fanIn ?_ policy, rfl⟩
      have early : o ∈ asked.filterMap (·.2) := List.mem_filterMap.mpr ⟨_, member, rfl⟩
      exact List.mem_append_left _ (List.mem_append_right _ early)
    | none =>
      have waits : d.task ∈ asked.filterMap Inquiry.waiting? :=
        Inquiry.mem_waiting.mpr ⟨_, member, rfl, rfl⟩
      obtain ⟨o, there, about⟩ := World.spoken (before ++ asked.filterMap (·.2)) results timeout
        waits
      exact ⟨o.normalize, Summary.mem_findings_fanIn there policy, Observation.normalize_task about⟩
  counted distinct faithful := by
    rw [Summary.total_fanIn, List.length_append, List.length_append]
    exact Inquiry.length_le_observed distinct faithful before results timeout
  clean small clean := Summary.all_succeed small clean

theorem succeeded {summary : Summary} (round : Round asked summary)
    (small : summary.total < twoTo 53) (clean : summary.isClean = true) :
    ∀ q ∈ asked, ∃ f ∈ summary.findings, q.Answered f ∧ f.status = .success := by
  intro q member
  obtain ⟨f, found, answers⟩ := round.answered q member
  exact ⟨f, found, answers, round.clean small clean f found⟩

end Round

namespace Services

variable {η σ : Type} (s : Services η σ)

def inquiries (session : String) : List Delegation → World η σ → List Inquiry
  | [], _ => []
  | d :: rest, w =>
    match s.known d w with
    | (some o, w) => (d, some o) :: inquiries session rest (w.hold session o)
    | (none, w) => (d, none) :: inquiries session rest w


theorem inquiries_delegations (session : String) (ds : List Delegation) (w : World η σ) :
    (s.inquiries session ds w).map (·.1) = ds := by
  induction ds generalizing w with
  | nil => rfl
  | cons d rest ih =>
    unfold inquiries
    split <;> rw [List.map_cons, ih]

theorem inquiries_known (session : String) (ds : List Delegation) (w : World η σ) :
    ∀ q ∈ s.inquiries session ds w, ∃ v, (s.known q.1 v).1 = q.2 := by
  induction ds generalizing w with
  | nil => simp [inquiries]
  | cons d rest ih =>
    unfold inquiries
    split <;> rename_i heq <;> intro q member <;> rcases List.mem_cons.mp member with rfl | later
    · exact ⟨w, by rw [heq]⟩
    · exact ih _ q later
    · exact ⟨w, by rw [heq]⟩
    · exact ih _ q later

theorem known_heldBack (d : Delegation) (w : World η σ) (session : String) :
    (s.known d w).2.heldBack session = w.heldBack session := by
  have asked (status : String → Reaction η σ (Option Json)) :
      (s.ask (.status d.task) (status d.task) w).2.buffer = w.buffer :=
    (World.call_undisturbed s.toHandlers (status d.task) (w.note _)).buffer
  unfold known World.heldBack
  split
  · rfl
  · split
    · rfl
    · rename_i status _
      have same := asked status
      split <;> rename_i heq <;> rw [heq] at same
      · split <;> exact congrArg (fun b => (Table.get? b session).getD []) same
      · exact congrArg (fun b => (Table.get? b session).getD []) same

theorem prefill_inquiries (session : String) (ds : List Delegation) (w : World η σ) :
    (s.prefill session ds w).1 = (s.inquiries session ds w).filterMap Inquiry.waiting? ∧
      (s.prefill session ds w).2.heldBack session =
        w.heldBack session ++ (s.inquiries session ds w).filterMap (·.2) := by
  induction ds generalizing w with
  | nil => exact ⟨rfl, by simp [prefill, inquiries]⟩
  | cons d rest ih =>
    have same := s.known_heldBack d w session
    unfold prefill inquiries
    cases told : s.known d w with
    | mk answer v =>
      rw [told] at same
      cases answer with
      | some o =>
        obtain ⟨waiting, held⟩ := ih (v.hold session o)
        refine ⟨waiting, ?_⟩
        dsimp only
        rw [held, World.heldBack_hold, same, List.append_assoc]
        rfl
      | none =>
        obtain ⟨waiting, held⟩ := ih v
        refine ⟨?_, ?_⟩
        · dsimp only
          rw [waiting]
          rfl
        · dsimp only
          rw [held, same]
          rfl

theorem summarize_collected (w : World η σ) {r : Run} (delegates : r.delegations ≠ []) :
    (s.summarize w r).1 = match (World.collect s.toHandlers r.session
      (s.prefill r.session r.delegations w).1 (s.config.observationTimeout * 1000) r.fanIn
      (s.prefill r.session r.delegations w).2).1 with
      | .value summary => summary
      | _ => .empty := by
  unfold summarize
  rw [if_neg (by simpa using delegates)]
  dsimp only
  generalize World.collect _ _ _ _ _ _ = collected
  obtain ⟨answer, u⟩ := collected
  cases answer <;> rfl

/-- The summary of the observation phase sums up what was held back and what was waited for. It
is another one where nothing was delegated, or where the clock could not tell how long to wait. -/
theorem summarize_cases (w : World η σ) (r : Run) :
    (r.delegations = [] ∧ (s.summarize w r).1 = .nothingDelegated) ∨
    (∃ results, (s.summarize w r).1 = .fanIn (w.heldBack r.session ++
      (s.inquiries r.session r.delegations w).filterMap (·.2) ++ World.outcomes (World.uncovered
        ((s.inquiries r.session r.delegations w).filterMap Inquiry.waiting?)
        (w.heldBack r.session ++ (s.inquiries r.session r.delegations w).filterMap (·.2)))
      results (s.config.observationTimeout * 1000)) r.fanIn) ∨
    ((s.summarize w r).1 = .empty ∧ (s.prefill r.session r.delegations w).2.canWait
      (s.config.observationTimeout * 1000) = false) := by
  by_cases none : r.delegations = []
  · refine .inl ⟨none, ?_⟩
    unfold summarize
    rw [none]
    rfl
  · right
    obtain ⟨waiting, held⟩ := s.prefill_inquiries r.session r.delegations w
    rw [s.summarize_collected w none]
    obtain ⟨results, collected⟩ | ⟨beyond, text, panicked⟩ := World.collect_cases s.toHandlers
      r.session (s.prefill r.session r.delegations w).1 (s.config.observationTimeout * 1000)
      r.fanIn (s.prefill r.session r.delegations w).2
    · rw [collected, held, waiting]
      exact .inl ⟨results, rfl⟩
    · rw [panicked]
      exact .inr ⟨rfl, beyond⟩

/-- The summary of the observation phase is one of a round about its delegations, or it is
empty because the clock could not tell how long to wait. -/
theorem summarize_round (w : World η σ) (r : Run) :
    Round (s.inquiries r.session r.delegations w) (s.summarize w r).1 ∨
      (s.summarize w r).1 = .empty ∧ (s.prefill r.session r.delegations w).2.canWait
        (s.config.observationTimeout * 1000) = false := by
  obtain ⟨none, eq⟩ | ⟨results, eq⟩ | beyond := s.summarize_cases w r
  · rw [eq, none]
    exact .inl .nothing
  · rw [eq]
    exact .inl (.fanIn ..)
  · exact .inr beyond

theorem known_of_kept {d : Delegation} (kept : d.dispatched = false) (w : World η σ) :
    ∃ o, (s.known d w).1 = some o ∧ o.normalize.status = .failed := by
  refine ⟨.failed d.task (.of "dispatch_failed" (d.error.getD "")), ?_,
    Observation.failed_status _ _⟩
  simp [known, kept]

theorem dispatched_of_success {q : Inquiry} {f : Finding} (told : ∃ w, (s.known q.1 w).1 = q.2)
    (answers : q.Answered f) (success : f.status = .success) : q.1.dispatched = true := by
  cases kept : q.1.dispatched with
  | true => rfl
  | false =>
    obtain ⟨w, told⟩ := told
    obtain ⟨o, failed, status⟩ := s.known_of_kept kept w
    rw [told] at failed
    rw [Inquiry.Answered, failed] at answers
    rw [← answers, status] at success
    cases success

end Services
end Orchestration
