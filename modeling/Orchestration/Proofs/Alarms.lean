import Orchestration.Proofs.Evaluation
import Orchestration.Proofs.Execution
import Orchestration.Proofs.Items
import Orchestration.Proofs.Round

/-! From an issue to the rule that it sets off. A summary lists the issues of its findings, and
what the rules get to see shows each of them with its type. So a rule that asks for types of
issues applies exactly where one of them was reported; if that rule outranks all others and
escalates, the run is over with the iteration in which it applies. -/
namespace Orchestration

variable {η σ : Type}

/-! ### What a rule sees of the issues -/

namespace Summary

def Lists (s : Summary) : Prop := s.issues = s.findings.flatMap (·.issues)

theorem lists_fanIn (observations : List Observation) (policy : FanInPolicy) :
    (fanIn observations policy).Lists := by
  cases observations <;> rfl

end Summary

theorem Json.member?_record {members : List (String × Json)} {key : String}
    (distinct : (Table.keys members).Nodup) :
    (record members).member? key = Table.get? members key :=
  Table.get?_ofList distinct key

theorem Issue.type_toJson (i : Issue) : i.toJson.member? "type" = some (.str i.kind) := by
  obtain ⟨kind, message, severity⟩ := i
  have distinct : (["type", "message", "severity"] : List String).Nodup := by decide
  cases severity with
  | none => exact Json.member?_record (distinct.sublist (by simp [Table.keys]))
  | some severity => exact Json.member?_record distinct

theorem Finding.issues_toJson (f : Finding) :
    f.toJson.member? "issues" = some (Issue.listToJson f.issues) := by
  have distinct : (["task_id", "status", "result", "confidence", "issues"] : List String).Nodup := by
    decide
  exact Json.member?_record distinct

namespace Condition

theorem issueTypes_findings (findings : List Finding) :
    issueTypes (findings.map Finding.toJson) =
      (findings.flatMap (·.issues)).map (·.kind) := by
  have types (issues : List Issue) : (issues.map Issue.toJson).filterMap
      (fun issue => (issue.member? "type").bind Json.string?) = issues.map (·.kind) := by
    rw [List.filterMap_map, ← List.filterMap_eq_map]
    refine List.filterMap_congr fun i _ => ?_
    simp [i.type_toJson, Json.string?]
  unfold issueTypes
  rw [List.flatMap_map, List.map_flatMap]
  congr 1
  funext f
  rw [f.issues_toJson]
  exact types f.issues

def reported (types : List String) : Condition := .anyIssueTypeIn (Table.distinct types)

theorem compile_reported (path : String) (types : List String) :
    compile path (.record [("any_issue_type_in", .strings types)]) = .ok (reported types) := by
  have read : (types.map Json.str).mapM Json.string? = some types := by
    rw [mapM_eq_some, List.forall₂_map_left_iff, List.forall₂_same]
    exact fun _ _ => rfl
  change ofOperator path .anyIssueTypeIn (.strings types) = _
  simp [ofOperator, Json.strings, Json.array?, read, reported]

theorem holds_reported (types : List String) (findings : List Finding) :
    (reported types).holds (Finding.listToJson findings) = true ↔
      ∃ i ∈ findings.flatMap (·.issues), i.kind ∈ types := by
  change (issueTypes (findings.map Finding.toJson)).any (Table.distinct types).contains = true ↔ _
  rw [issueTypes_findings, List.any_map, List.any_eq_true]
  simp [Table.mem_distinct]

end Condition

theorem Path.resolve_key {path : String} (one : segments path = [path.toList])
    (members : List (String × Json)) : resolve (.obj members) path = Table.get? members path := by
  unfold resolve
  rw [one]
  simp [descend?]

namespace Run

theorem resolve_observations (r : Run) (config : LoopConfig) :
    Path.resolve (r.policyContext config).toJson "observations" =
      some (Finding.listToJson r.observed.findings) := by
  have one : Path.segments "observations" = ["observations".toList] := by decide
  have sorted : Table.Sorted [("command", Json.str r.command), ("session_id", .str r.session)] := by
    have less : ("command" : String) < "session_id" := by decide
    simpa [Table.Sorted] using less
  have extra : (r.policyContext config).extra =
      [("command", .str r.command), ("session_id", .str r.session)] := Table.ofList_eq_self sorted
  have distinct : (PolicyContext.fieldNames ++ ["command", "session_id"]).Nodup := by decide
  unfold PolicyContext.toJson Json.record
  rw [extra, Path.resolve_key one, Table.get?_ofList (by exact distinct)]
  rfl

theorem matches_reported {r : Run} (lists : r.observed.Lists) (config : LoopConfig)
    (types : List String) :
    (Condition.reported types).matches
        (Path.resolve (r.policyContext config).toJson "observations") = true ↔
      ∃ i ∈ r.observed.issues, i.kind ∈ types := by
  rw [resolve_observations, lists]
  exact Condition.holds_reported types _

end Run

/-! ### What the rule decides -/

namespace Policy

/-- A rule that outranks the others of its policy, has this condition on what was observed and
no other, and escalates. -/
structure Alarm (p : Policy) (rule : Rule) (c : Condition) (reason : Option String) : Prop where
  outranks : ∃ before after, p.rules = before ++ rule :: after ∧
    ∀ q ∈ before ++ after, q.priority < rule.priority
  conditions : rule.conditions = [("observations", c)]
  escalates : rule.effect.decision = some ⟨.escalate, reason⟩

variable {p : Policy} {rule : Rule} {c : Condition} {reason : Option String}

/-- If the rule that outranks the others applies, it is ranked first. -/
theorem Alarm.ranked_first (alarm : p.Alarm rule c reason) {view : Json}
    (applies : rule.Applies view) : ∃ rest, p.ranked view = rule :: rest := by
  obtain ⟨before, after, rules, less⟩ := alarm.outranks
  have ranks := p.ranked_ranks view
  have hit : rule ∈ p.ranked view := (ranks.mem_iff rule).mpr ⟨by simp [rules], applies⟩
  cases ranked : p.ranked view with
  | nil =>
    rw [ranked] at hit
    cases hit
  | cons first rest =>
    rw [ranked] at ranks hit
    have declared : first ∈ p.rules := ((ranks.mem_iff first).mp List.mem_cons_self).1
    rw [rules, List.mem_append, List.mem_cons] at declared
    have other : first ∈ before ++ after → first.priority < rule.priority := less first
    rcases List.mem_cons.mp hit with rfl | later
    · exact ⟨rest, rfl⟩
    -- whoever stands before the rule has its priority at least, and nobody else has that
    · have notLess := List.rel_of_pairwise_cons ranks.priority later
      rcases declared with here | rfl | here
      · exact absurd (other (List.mem_append_left _ here)) (by omega)
      · exact ⟨rest, rfl⟩
      · exact absurd (other (List.mem_append_right _ here)) (by omega)

theorem Alarm.decision (alarm : p.Alarm rule c reason) {view : Json} (applies : rule.Applies view) :
    (p.evaluateView view).decision = some ⟨.escalate, reason⟩ := by
  obtain ⟨rest, ranked⟩ := alarm.ranked_first applies
  simp [evaluateView, ranked, alarm.escalates]

end Policy

theorem Verdict.escalates {p : Policy} {rule : Rule} {types : List String}
    {reason : Option String} (alarm : p.Alarm rule (.reported types) reason)
    {engine : PolicyEngine} (current : engine.current = some p) (config : LoopConfig) {r : Run}
    (lists : r.observed.Lists) (reports : ∃ i ∈ r.observed.issues, i.kind ∈ types) :
    (Verdict.of config engine r).decision = .of .escalate reason := by
  have seen := (Run.matches_reported lists config types).mpr reports
  have applies : rule.Applies (r.policyContext config).toJson := by
    intro path c member
    rw [alarm.conditions] at member
    obtain ⟨rfl, rfl⟩ := Prod.mk.inj (List.mem_singleton.mp member)
    exact (Condition.matches_iff _ _).mp seen
  have evaluated : (engine.evaluate (r.policyContext config)).decision =
      some ⟨.escalate, reason⟩ := by
    unfold PolicyEngine.evaluate
    rw [current]
    exact alarm.decision applies
  change Verdict.withinBudget (Verdict.asserted (engine.evaluate _) _) _ _ = _
  unfold Verdict.asserted
  rw [evaluated]
  rfl

/-! ### How the run ends -/

def Deed.offered? : Deed → Option State
  | stored (.state a) | refused (.state a) _ => some a
  | _ => none

def offeredIn (journal : List Deed) : List State := journal.filterMap Deed.offered?

theorem mem_offeredIn_cons {d : Deed} {journal : List Deed} {a : State} :
    a ∈ offeredIn (d :: journal) ↔ d.offered? = some a ∨ a ∈ offeredIn journal := by
  simp [offeredIn]

theorem World.Worked.offeredIn_eq {v w : World η σ} (worked : World.Worked v w) :
    offeredIn w.journal = offeredIn v.journal := by
  obtain ⟨deeds, eq, reads⟩ := worked.journal
  have none : deeds.filterMap Deed.offered? = [] := by
    refine List.filterMap_eq_nil_iff.mpr fun d member => ?_
    have read := reads d member
    cases d <;> first | rfl | cases read
  rw [offeredIn, eq, List.filterMap_append, none]
  rfl

structure State.Escalates (d : State) (iteration : Nat) (reason : Option String) : Prop where
  phase : d.phase = .decision
  iteration : d.iteration = iteration
  decision : d.decision = some (.of .escalate reason)

/-- A run has ended right after an observation, by the decision to escalate in its iteration,
unless the store has refused to keep the one or the other, and it was that which stopped the run. -/
inductive Services.Escalates (s : Services η σ) (o : State) (reason : Option String) :
    Standing η σ → Prop
  | unobserved (w : World η σ) (r : Run) (cause : Interruption)
    (failed : (s.keep (.state o) w).failure? = some cause) :
    s.Escalates o reason ⟨w.note (.refused (.state o) cause), r, some cause⟩
  | unkept (w : World η σ) (r : Run) (cause : Interruption) (before : List State) (d : State)
    (rec : Record) (history : r.history = before ++ [o]) (escalates : d.Escalates o.iteration reason)
    (own : rec ∈ d.writes) (failed : (s.keep rec w).failure? = some cause) :
    s.Escalates o reason ⟨w.note (.refused rec cause), r, some cause⟩
  | kept (w : World η σ) (r : Run) (before : List State) (d : State)
    (history : r.history = before ++ [o, d]) (escalates : d.Escalates o.iteration reason)
    (plain : d.isMarked = false) : s.Escalates o reason (.on w r)

theorem RunResult.stopText_escalated {d : State} (phase : d.phase = .decision)
    (plain : d.isMarked = false) (reason : Option String) (iterations : Nat) :
    stopText d (some (.of .escalate reason)) iterations =
      "Escalated: " ++ reason.getD "no reason given" := by
  have unmarked : Table.get? d.metadata exhaustedKey = none :=
    Option.isNone_iff_eq_none.mp (Option.isSome_eq_false_iff.mp plain)
  unfold stopText
  rw [unmarked, phase]
  rfl

theorem Services.Escalates.result {s : Services η σ} {o : State} {reason : Option String}
    {e : Standing η σ} (escalated : s.Escalates o reason e) :
    (Services.resultOf e).success = false ∧ (e.stopped = none →
      (Services.resultOf e).error = some ("Escalated: " ++ reason.getD "no reason given")) := by
  cases escalated with
  | unobserved => exact ⟨rfl, nofun⟩
  | unkept => exact ⟨rfl, nofun⟩
  | kept w r before d history escalates plain =>
    obtain ⟨phase, -, decision⟩ := escalates
    have final : r.history.getLast? = some d := by simp [history]
    have latest : RunResult.latest (·.decision) r.history = some (.of .escalate reason) := by
      simp [RunResult.latest, history, decision]
    have result : Services.resultOf (.on w r) = RunResult.inFull r.session r.history := rfl
    rw [result, Services.inFull_last final, phase]
    refine ⟨rfl, fun _ => ?_⟩
    rw [latest, RunResult.stopText_escalated phase plain]
    rfl

namespace Services

variable (s : Services η σ)

theorem summarize_lists (w : World η σ) (r : Run) : (s.summarize w r).1.Lists := by
  obtain ⟨_, eq⟩ | ⟨results, eq⟩ | ⟨eq, _⟩ := s.summarize_cases w r <;> rw [eq]
  · rfl
  · exact Summary.lists_fanIn _ _
  · rfl

inductive Observing (v : World η σ) (t : Run) : Phase → World η σ → Run → Prop
  | observation : Observing v t .observation v t
  | decision (u : World η σ) (q : Run) (engine : u.engine = v.engine)
    (history : q.history = t.history ++ [(s.observation v t).state])
    (iteration : q.iteration = t.iteration) (observed : q.observed = (s.summarize v t).1) :
    Observing v t .decision u q

variable {s} {p : Policy} {rule : Rule} {types : List String} {reason : Option String}

theorem Observing.step (alarm : p.Alarm rule (.reported types) reason)
    {v : World η σ} {t : Run} (current : v.engine.current = some p)
    (reports : ∃ i ∈ (s.summarize v t).1.issues, i.kind ∈ types) {phase : Phase} {u : World η σ}
    {q : Run} (observing : s.Observing v t phase u q) :
    (s.step phase u q).Holds (s.Observing v t)
      (s.Escalates (s.observation v t).state reason) := by
  cases observing with
  | observation =>
    have drafted := s.observation_continues v t
    refine s.persist_goOn_holds (fun st _ => ?_) fun cause failed => .unobserved _ _ cause failed
    exact .decision _ _ drafted.worked.engine rfl rfl rfl
  | decision u q engine history iteration observed =>
    -- the verdict is on what was observed just before
    have taken : (Verdict.of s.config u.engine q).decision = .of .escalate reason := by
      rw [← observed] at reports
      rw [← engine] at current
      exact Verdict.escalates alarm current s.config (observed ▸ s.summarize_lists v t) reports
    generalize verdict : Verdict.of s.config u.engine q = made at taken
    have escalates : (s.decision made u q).state.Escalates (s.observation v t).state.iteration
        reason := ⟨rfl, iteration, congrArg some taken⟩
    have plain : (s.decision made u q).state.isMarked = false := by
      rw [s.isMarked_decision, Verdict.exhausts, taken]
      rfl
    have halts (w : World η σ) (r : Run) : s.settle made w r = .ended (.on w r) := by
      simp [settle, Verdict.exhausts, Decision.transition, taken, Decision.of, Action.loops]
    refine s.step_decision_holds verdict rfl (fun st _ => ?_) fun cause failed => ?_
    · refine s.persist_goOn_holds (fun st _ => ?_) fun cause failed => ?_
      · rw [halts]
        refine .kept _ _ t.history _ ?_ escalates plain
        change q.history ++ [_] = _
        rw [history, List.append_assoc]
        rfl
      · exact .unkept _ _ cause t.history _ _ history escalates (by simp [State.writes]) failed
    · exact .unkept _ _ cause t.history _ _ history escalates List.mem_cons_self failed

theorem Passes.escalates (fits : s.config.Fits) {w v : World η σ} {r t : Run}
    (new : r.iteration = 0) (passed : s.Passes w r .observation v t)
    (alarm : p.Alarm rule (.reported types) reason) (current : w.engine.current = some p)
    (reports : ∃ i ∈ (s.summarize v t).1.issues, i.kind ∈ types) :
    s.Escalates (s.observation v t).state reason (s.drive w r) := by
  -- a run never changes the policy that it goes by
  have unchanged : s.Keeps fun u _ => u.engine = w.engine :=
    ⟨fun _ _ _ worked same => worked.engine.trans same, fun _ _ _ _ _ same => same,
      fun _ _ _ _ _ same => same⟩
  rw [← unchanged.passes fits rfl passed] at current
  have first : s.Observing v t .observation v t := .observation
  exact passed.drive_holds fits new first fun _ _ _ observing =>
    observing.step alarm current reports

/-! ### Which observations a run makes -/

variable (s)

def Observes (w : World η σ) (r : Run) (o : State) : Prop :=
  ∃ v t, s.Passes w r .observation v t ∧ (s.observation v t).state = o

def Traced (w : World η σ) (r : Run) (journal : List Deed) : Prop :=
  ∀ o ∈ offeredIn journal, o.phase = .observation → s.Observes w r o

abbrev Traces (w : World η σ) (r : Run) (st : Station η σ) : Prop :=
  st.Holds (fun _ u _ => s.Traced w r u.journal) fun e => s.Traced w r e.world.journal

variable {s} {w : World η σ} {r : Run}

theorem Traced.worked {u v : World η σ} (traced : s.Traced w r u.journal)
    (worked : World.Worked u v) : s.Traced w r v.journal := by
  unfold Traced at *
  rw [worked.offeredIn_eq]
  exact traced

theorem Traced.cons {journal : List Deed} (traced : s.Traced w r journal) {d : Deed}
    (own : ∀ o ∈ d.offered?, o.phase = .observation → s.Observes w r o) :
    s.Traced w r (d :: journal) := by
  intro o member
  rcases mem_offeredIn_cons.mp member with now | earlier
  · exact own o now
  · exact traced o earlier

theorem Traced.persist {d : Draft η σ} {f : World η σ → Run → Station η σ}
    (traced : s.Traced w r d.world.journal)
    (own : d.state.phase = .observation → s.Observes w r d.state)
    (goesOn : ∀ u q, s.Traced w r u.journal → s.Traces w r (f u q)) :
    s.Traces w r ((s.persist d).goOn f) :=
  s.persist_goOn_holds (fun _ _ => goesOn _ _ (traced.cons (by rintro _ ⟨⟩; exact own)))
    fun _ _ => traced.cons (by rintro _ ⟨⟩; exact own)

variable (s)

theorem settle_traced (fits : s.config.Fits) (made : Verdict) {u : World η σ} {q : Run}
    (traced : s.Traced w r u.journal) : s.Traces w r (s.settle made u q) := by
  obtain ⟨_, _, eq⟩ | ⟨_, _, eq⟩ | ⟨_, _, eq⟩ | ⟨_, eq⟩ | ⟨_, eq⟩ := s.settle_cases fits made u q <;>
    rw [eq]
  · exact traced
  · exact traced
  · exact traced
  · rw [s.ended_persist]
    have ready := traced.worked (completion_continues made.decision u q).worked
    exact ready.persist nofun fun _ _ traced => traced
  · exact traced

theorem step_traced (fits : s.config.Fits) {phase : Phase} {v : World η σ} {t : Run}
    (passed : s.Passes w r phase v t) (traced : s.Traced w r v.journal) :
    s.Traces w r (s.step phase v t) := by
  have enters {next : Phase} (u : World η σ) (q : Run) (traced : s.Traced w r u.journal) :
      s.Traces w r (.enter next u q) := traced
  cases phase with
  | awareness => exact (traced.worked (s.awareness_continues v t).worked).persist nofun enters
  | planning => exact (traced.worked (s.planning_continues v t).worked).persist nofun enters
  | delegation => exact (traced.worked (s.delegation_continues v t).worked).persist nofun enters
  | observation =>
    exact (traced.worked (s.observation_continues v t).worked).persist
      (fun _ => ⟨v, t, passed, rfl⟩) enters
  | decision =>
    let made := Verdict.of s.config v.engine t
    have ready := traced.worked (s.decision_continues made v t).worked
    refine s.step_decision_holds rfl rfl (fun _ _ => ?_) fun _ _ => ready.cons (by rintro _ ⟨⟩)
    exact Traced.persist (ready.cons (by rintro _ ⟨⟩)) nofun
      fun _ _ traced => s.settle_traced fits made traced
  | complete => exact traced

theorem drive_traced (fits : s.config.Fits) (new : r.iteration = 0) (blank : w.journal = []) :
    s.Traced w r (s.drive w r).world.journal := by
  have rule := @drive_holds_along η σ s fits (fun _ u _ => s.Traced w r u.journal)
    (fun e => s.Traced w r e.world.journal) w r
  refine rule new ?_ fun _ _ _ passed traced => s.step_traced fits passed traced
  rw [blank]
  intro o member
  cases member

/-- Reported issues reach the rules. Of any observations, and in whatever way they are folded, the
condition on types of issues holds in what the rules see exactly where the summary lists an issue
of one of the types. And under a policy whose highest rule escalates on that condition alone, an
iteration that observes such an issue is the last one of its run, which escalates, whether the
store keeps that or not. -/
theorem issues_reach_rules (fits : s.config.Fits) (types : List String) :
    let c := Condition.reported types
    Condition.compile "observations" (.record [("any_issue_type_in", .strings types)]) = .ok c ∧
    (∀ (observations : List Observation) (policy : FanInPolicy) (config : LoopConfig) (r : Run),
      r.summary = some (.fanIn observations policy) →
      (c.matches (Path.resolve (r.policyContext config).toJson "observations") = true ↔
        ∃ i ∈ (Summary.fanIn observations policy).issues, i.kind ∈ types)) ∧
    ∀ (p : Policy) (rule : Rule) (reason : Option String), p.Alarm rule c reason →
      ∀ (command : String) (context : Table Json) (session : Option String) (w : World η σ),
        w.engine.current = some p →
      let e := s.outcome command context session w
      let result := (s.execute command context session w).1
      ∀ o ∈ offeredIn e.world.journal, o.phase = .observation → ∀ summary,
        o.observations = some summary → (∃ i ∈ summary.issues, i.kind ∈ types) →
        s.Escalates o reason e ∧ result.success = false ∧ (e.stopped = none →
          result.error = some ("Escalated: " ++ reason.getD "no reason given")) := by
  refine ⟨Condition.compile_reported "observations" types, ?_, ?_⟩
  · intro observations policy config r summed
    have same : r.observed = .fanIn observations policy := by simp [Run.observed, summed]
    rw [← same]
    exact Run.matches_reported (same ▸ Summary.lists_fanIn observations policy) config types
  · intro p rule reason alarm command context session w current e result o offered phase summary
      observed reports
    obtain ⟨_, new, blank, _⟩ := s.begin_blank command context session w
    have engine : (s.begin command context session w).1.engine = w.engine := by
      cases session <;> rfl
    obtain ⟨v, t, passed, rfl⟩ := s.drive_traced fits new blank o offered phase
    obtain rfl : (s.summarize v t).1 = summary := Option.some.inj observed
    have escalated : s.Escalates (s.observation v t).state reason e :=
      passed.escalates fits new alarm (engine ▸ current) reports
    exact ⟨escalated, escalated.result⟩

def leaky : Services Empty Unit :=
  { alone with
    dispatch := fun d => return d.task
    status := some fun _ => .finish (.value (some (.record [("status", .str "failed"),
      ("issues", .arr [.str "slow", .record [("type", .str "security")]])]))) }

def onLeak : Rule :=
  ⟨"leak", 7, [("observations", .reported ["security"])],
    { RuleEffect.none with decision := some ⟨.escalate, some "leak"⟩ }⟩

def watchful : Policy :=
  let enough : Rule := ⟨"enough", 3, [("retry_count", .ge .one)],
    { RuleEffect.none with decision := some ⟨.complete, none⟩ }⟩
  { Policy.empty with rules := [enough, onLeak] }

def watched : World Empty Unit :=
  { World.initial () with engine := PolicyEngine.empty.set watchful }

theorem leaky_escalates :
    let e := leaky.outcome "go" [] (some "s") watched
    leaky.config.Fits ∧ watchful.Alarm onLeak (.reported ["security"]) (some "leak") ∧
      ∃ o ∈ offeredIn e.world.journal, leaky.Escalates o (some "leak") e ∧
        (leaky.execute "go" [] (some "s") watched).1.error = some "Escalated: leak" := by
  intro e
  have alarm : watchful.Alarm onLeak (.reported ["security"]) (some "leak") :=
    ⟨⟨[_], [], rfl, by simp [onLeak]⟩, rfl, rfl⟩
  have seen : (((offeredIn e.world.journal).find? (·.phase = .observation)).bind
      (·.observations)).map (fun summary => summary.issues.map (·.kind)) =
        some ["generic", "security"] := by decide +kernel
  have ended : e.stopped.isNone = true := by decide +kernel
  obtain ⟨summary, observed, kinds⟩ := Option.map_eq_some_iff.mp seen
  obtain ⟨o, first, own⟩ := Option.bind_eq_some_iff.mp observed
  have member : o ∈ offeredIn e.world.journal := List.mem_of_find?_eq_some first
  have phase : o.phase = .observation :=
    of_decide_eq_true (List.find?_some (p := fun o : State => decide (o.phase = .observation)) first)
  have reported : ∃ i ∈ summary.issues, i.kind ∈ ["security"] := by
    have named : "security" ∈ summary.issues.map (·.kind) := by simp [kinds]
    obtain ⟨i, inside, kind⟩ := List.mem_map.mp named
    exact ⟨i, inside, List.mem_singleton.mpr kind⟩
  have general := (leaky.issues_reach_rules alone_fits ["security"]).2.2 watchful onLeak
    (some "leak") alarm "go" [] (some "s") watched rfl
  obtain ⟨escalated, _, error⟩ := general o member phase summary own reported
  exact ⟨alone_fits, alarm, o, member, escalated, error (Option.isNone_iff_eq_none.mp ended)⟩

end Services
end Orchestration
