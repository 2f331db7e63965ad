import Orchestration.Policy.File
import Orchestration.Proofs.Clauses
import Orchestration.Proofs.Codecs
import Orchestration.Proofs.Evaluation

/-! Policies as they are written, before their clauses are compiled. A document is the policy of a
draft exactly if its fields can be read and every clause of every rule is accepted, and the rules of
the policy match where the clauses of the draft hold. -/
namespace Orchestration

/-! ### Fields -/

namespace Fields

variable {δ α : Type}

theorem get?_eq_none_iff {members : List (String × δ)} {name : String} :
    Table.get? members name = none ↔ (members.filter (·.1 == name)).length = 0 := by
  induction members with
  | nil => simp
  | cons m rest ih =>
    by_cases own : m.1 = name
    · simp [Table.get?, own]
    · simpa [Table.get?, own, Ne.symm own] using ih

theorem repeated_eq_false {names : List String} {members : List (String × δ)} :
    repeated names members = false ↔
      ∀ name ∈ names, (members.filter (·.1 == name)).length ≤ 1 := by
  simp [repeated]

theorem repeated_cons {names : List String} {key : String} {value : δ}
    {rest : List (String × δ)} : repeated names ((key, value) :: rest) = false ↔
      (key ∈ names → Table.get? rest key = none) ∧ repeated names rest = false := by
  simp only [repeated_eq_false, get?_eq_none_iff, List.filter_cons, beq_iff_eq]
  constructor
  · intro single
    refine ⟨fun named => ?_, fun name named => ?_⟩
    · have own := single key named
      rw [if_pos rfl, List.length_cons] at own
      omega
    · have less := single name named
      split at less
      · exact Nat.le_of_succ_le less
      · exact less
  · rintro ⟨last, single⟩ name named
    split
    case isTrue own =>
      subst own
      rw [List.length_cons, last named]
    case isFalse => exact single name named

/-- The first member of the name reads so, and where there is none all is as it was. -/
def Given (members : List (String × δ)) (name : String) (reads : δ → α → Prop) (before after : α) :
    Prop :=
  match Table.get? members name with
  | none => after = before
  | some d => reads d after

variable {members rest : List (String × δ)} {name key : String} {value : δ} {before after : α}

theorem given_other {reads : δ → α → Prop} (other : name ≠ key) :
    Given ((key, value) :: rest) name reads before after ↔ Given rest name reads before after := by
  unfold Given
  rw [Table.get?_cons, if_neg other]

theorem given_first {reads : δ → α → Prop} (last : Table.get? rest key = none) :
    Given ((key, value) :: rest) key reads before after ↔
      ∃ a, reads value a ∧ Given rest key reads a after := by
  unfold Given
  simp [Table.get?_cons, last]

theorem defaulted_eq_some {f : Fields δ} {read : δ → Option α} :
    f.defaulted name read before = some after ↔
      Given f.members name (read · = some ·) before after := by
  unfold defaulted get? Given
  cases Table.get? f.members name with
  | none => simp [eq_comm]
  | some d => rfl

variable [Document δ]

def nullable (read : δ → Option α) (d : δ) : Option (Option α) :=
  if Document.isNull d then some none else (read d).map some

theorem optional_eq_some {f : Fields δ} {read : δ → Option α} {after : Option α} :
    f.optional name read = some after ↔
      Given f.members name (nullable read · = some ·) none after := by
  rw [optional_eq]
  exact defaulted_eq_some

end Fields

namespace Policy

open Fields

variable {δ : Type}

def Single (seen : List String) (members : List (String × δ)) : Prop :=
  (∀ name ∈ fieldNames, name ∈ seen → Table.get? members name = none) ∧
    repeated fieldNames members = false

theorem single_cons {seen : List String} {key : String} {value : δ} {rest : List (String × δ)} :
    Single seen ((key, value) :: rest) ↔
      ¬ (key ∈ fieldNames ∧ key ∈ seen) ∧ Single (key :: seen) rest := by
  unfold Single
  rw [repeated_cons]
  constructor
  · rintro ⟨unseen, last, single⟩
    refine ⟨fun ⟨known, met⟩ => ?_, fun name known met => ?_, single⟩
    · have none := unseen key known met
      rw [Table.get?_cons, if_pos rfl] at none
      cases none
    · rcases List.mem_cons.mp met with rfl | before
      · exact last known
      · have none := unseen name known before
        rw [Table.get?_cons] at none
        split at none
        · cases none
        · exact none
  · rintro ⟨new, unseen, single⟩
    refine ⟨fun name known met => ?_, fun known => unseen key known List.mem_cons_self, single⟩
    have other : name ≠ key := fun same => new (same ▸ ⟨known, met⟩)
    rw [Table.get?_cons, if_neg other]
    exact unseen name known (List.mem_cons_of_mem key met)

theorem single_iff {members : List (String × δ)} :
    Single [] members ↔ repeated fieldNames members = false := by
  simp [Single]

theorem repeated_zip (values : List δ) : repeated fieldNames (fieldNames.zip values) = false := by
  match values with
  | [] => rfl
  | [_] => rfl
  | [_, _] => rfl
  | _ :: _ :: _ :: _ => rfl

end Policy

/-! ### Drafts -/

section Drafts

variable {δ : Type} [Document δ]

structure Rule.Draft where
  name : String
  priority : Int
  clauses : Table Json
  effect : RuleEffect

namespace Rule.Draft

def of? (d : δ) : Option Draft := do
  let f ← Fields.of? ["name", "priority", "when", "then"] d
  let name ← f.required "name" Document.string?
  let priority ← f.defaulted "priority" Document.i64? defaultPriority
  let clauses ← f.defaulted "when" clauses? []
  let effect ← f.defaulted "then" RuleEffect.of? .none
  return ⟨name, priority, clauses, effect⟩

def compile (r : Draft) : Except PolicyFault Rule := do
  let conditions ← Rule.compile r.name r.clauses
  return ⟨r.name, r.priority, conditions, r.effect⟩

def Holds (r : Draft) (view : Json) : Prop :=
  ∀ m ∈ r.clauses, ∃ v, Path.resolve view m.1 = some v ∧ Clause.Holds m.2 v

def Accepted (r : Draft) : Prop := ∀ m ∈ r.clauses, Clause.Accepted m.2

end Rule.Draft

theorem Rule.of_eq_ok {d : δ} {rule : Rule} :
    Rule.of d = .ok rule ↔ ∃ r, Draft.of? d = some r ∧ r.compile = .ok rule := by
  have read : Rule.of d = match Draft.of? d with
      | none => .error .malformed
      | some r => r.compile := by
    unfold Rule.of Draft.of?
    cases Fields.of? ["name", "priority", "when", "then"] d with
    | none => rfl
    | some f =>
      simp only [Option.bind_eq_bind, Option.bind_some]
      cases f.required "name" Document.string? <;>
        cases f.defaulted "priority" Document.i64? defaultPriority <;>
        cases f.defaulted "when" clauses? [] <;>
        cases f.defaulted "then" RuleEffect.of? .none <;> rfl
  rw [read]
  cases Draft.of? d with
  | none => simp
  | some r => simp

structure Policy.Draft where
  version : Option String
  defaults : PolicyDefaults
  rules : List Rule.Draft

namespace Policy.Draft

def of? (d : δ) : Option Draft := do
  let f ← Fields.of? fieldNames d
  let version ← f.optional "spec_version" Document.string?
  let defaults ← f.defaulted "defaults" PolicyDefaults.of? .none
  let rules ← f.defaulted "rules" (Document.listOf? Rule.Draft.of?) []
  return ⟨version, defaults, rules⟩

def compile (p : Draft) : Except PolicyFault Policy := do
  let rules ← p.rules.mapM Rule.Draft.compile
  return ⟨p.version, p.defaults, rules⟩

def Accepted (p : Draft) : Prop := ∀ r ∈ p.rules, r.Accepted

end Policy.Draft

namespace Policy

open Fields

@[mk_iff]
structure Gathers (members : List (String × δ)) (p q : Policy) : Prop where
  version : Given members "spec_version" (nullable Document.string? · = some ·) p.version q.version
  defaults : Given members "defaults" (PolicyDefaults.of? · = some ·) p.defaults q.defaults
  rules : Given members "rules" (readRules · = .ok ·) p.rules q.rules

theorem gathers_nil {p q : Policy} : Gathers ([] : List (String × δ)) p q ↔ p = q := by
  constructor
  · rintro ⟨version, defaults, rules⟩
    cases p
    cases q
    cases version
    cases defaults
    cases rules
    rfl
  · rintro rfl
    exact ⟨rfl, rfl, rfl⟩

theorem gathers_other {members : List (String × δ)} {key : String} {value : δ} {p q : Policy}
    (unknown : key ∉ fieldNames) : Gathers ((key, value) :: members) p q ↔ Gathers members p q := by
  have apart {name : String} (known : name ∈ fieldNames) : name ≠ key :=
    fun same => unknown (same ▸ known)
  rw [gathers_iff, gathers_iff, given_other (apart (by decide)), given_other (apart (by decide)),
    given_other (apart (by decide))]

theorem withMember_version {p q : Policy} {d : δ} : p.withMember "spec_version" d = .ok q ↔
    ∃ v, nullable Document.string? d = some v ∧ { p with version := v } = q := by
  unfold withMember nullable
  cases Document.isNull d with
  | true => simp [bind, Except.bind, pure, Except.pure]
  | false => cases Document.string? d <;> simp [bind, Except.bind, pure, Except.pure, required]

theorem withMember_defaults {p q : Policy} {d : δ} : p.withMember "defaults" d = .ok q ↔
    ∃ v, PolicyDefaults.of? d = some v ∧ { p with defaults := v } = q := by
  unfold withMember
  cases PolicyDefaults.of? d <;> simp [bind, Except.bind, pure, Except.pure, required]

theorem withMember_rules {p q : Policy} {d : δ} : p.withMember "rules" d = .ok q ↔
    ∃ v, readRules d = .ok v ∧ { p with rules := v } = q := by
  simp [withMember, bind_eq_ok, pure, Except.pure]

theorem withMember_other {p : Policy} {key : String} {d : δ} (unknown : key ∉ fieldNames) :
    p.withMember key d = .ok p := by
  simp only [fieldNames, List.mem_cons, List.not_mem_nil, or_false, not_or] at unknown
  simp [withMember, unknown, pure, Except.pure]

/-- Taking one member in, which is the last one of its name. -/
theorem gathers_cons {p q : Policy} {key : String} {value : δ} {rest : List (String × δ)}
    (last : key ∈ fieldNames → Table.get? rest key = none) :
    Gathers ((key, value) :: rest) p q ↔
      ∃ p', p.withMember key value = .ok p' ∧ Gathers rest p' q := by
  by_cases known : key ∈ fieldNames
  · have none := last known
    have names : key = "spec_version" ∨ key = "defaults" ∨ key = "rules" := by
      simpa [fieldNames] using known
    -- the rest has nothing under this name, so what the member gives is kept
    constructor
    · rintro ⟨version, defaults, rules⟩
      rcases names with rfl | rfl | rfl
      · obtain ⟨v, read, version⟩ := (given_first none).mp version
        exact ⟨_, withMember_version.mpr ⟨v, read, rfl⟩, version,
          (given_other (by decide)).mp defaults, (given_other (by decide)).mp rules⟩
      · obtain ⟨v, read, defaults⟩ := (given_first none).mp defaults
        exact ⟨_, withMember_defaults.mpr ⟨v, read, rfl⟩, (given_other (by decide)).mp version,
          defaults, (given_other (by decide)).mp rules⟩
      · obtain ⟨v, read, rules⟩ := (given_first none).mp rules
        exact ⟨_, withMember_rules.mpr ⟨v, read, rfl⟩, (given_other (by decide)).mp version,
          (given_other (by decide)).mp defaults, rules⟩
    · rintro ⟨p', taken, version, defaults, rules⟩
      rcases names with rfl | rfl | rfl
      · obtain ⟨v, read, rfl⟩ := withMember_version.mp taken
        exact ⟨(given_first none).mpr ⟨v, read, version⟩, (given_other (by decide)).mpr defaults,
          (given_other (by decide)).mpr rules⟩
      · obtain ⟨v, read, rfl⟩ := withMember_defaults.mp taken
        exact ⟨(given_other (by decide)).mpr version, (given_first none).mpr ⟨v, read, defaults⟩,
          (given_other (by decide)).mpr rules⟩
      · obtain ⟨v, read, rfl⟩ := withMember_rules.mp taken
        exact ⟨(given_other (by decide)).mpr version, (given_other (by decide)).mpr defaults,
          (given_first none).mpr ⟨v, read, rules⟩⟩
  · rw [gathers_other known, withMember_other known]
    simp

theorem go_eq_ok {seen : List String} {members : List (String × δ)} {p q : Policy} :
    of.go seen p members = .ok q ↔ Single seen members ∧ Gathers members p q := by
  -- what is left to read gives its fields to whatever the members before it have made of `p`
  induction members generalizing seen p with
  | nil => simp [of.go, gathers_nil, Single, repeated]
  | cons m rest ih =>
    obtain ⟨key, value⟩ := m
    rw [of.go, single_cons]
    by_cases met : key ∈ fieldNames ∧ key ∈ seen
    · simp [met]
    · have new : (fieldNames.contains key && seen.contains key) = false := by
        simpa using met
      rw [new, if_neg Bool.false_ne_true, bind_eq_ok]
      simp only [ih, met, not_false_eq_true, true_and]
      constructor
      · rintro ⟨p', taken, single, gathers⟩
        exact ⟨single, (gathers_cons fun known => single.1 key known List.mem_cons_self).mpr
          ⟨p', taken, gathers⟩⟩
      · rintro ⟨single, gathers⟩
        obtain ⟨p', taken, gathers⟩ :=
          (gathers_cons fun known => single.1 key known List.mem_cons_self).mp gathers
        exact ⟨p', taken, single, gathers⟩

theorem of_eq_ok {d : δ} {q : Policy} :
    Policy.of d = .ok q ↔ ∃ f, Fields.of? fieldNames d = some f ∧ Gathers f.members .empty q := by
  unfold Policy.of Fields.of?
  cases Document.row? fieldNames.length d with
  | some values => simp [go_eq_ok, single_iff, repeated_zip]
  | none =>
    unfold named?
    cases Document.members? d with
    | none => simp
    | some members =>
      cases repeats : repeated fieldNames members <;> cases Document.complete d <;>
        simp [bind_eq_ok, go_eq_ok, single_iff, repeats, pure, Except.pure]

theorem readRules_eq_ok {d : δ} {rules : List Rule} : readRules d = .ok rules ↔
    ∃ drafts, Document.listOf? Rule.Draft.of? d = some drafts ∧
      drafts.mapM Rule.Draft.compile = .ok rules := by
  unfold readRules Document.listOf?
  cases Document.items? d with
  | none => simp
  | some items => exact mapM_through fun d rule => Rule.of_eq_ok

theorem given_rules {members : List (String × δ)} {rules : List Rule} :
    Given members "rules" (readRules · = .ok ·) [] rules ↔
      ∃ drafts, Given members "rules" (Document.listOf? Rule.Draft.of? · = some ·) [] drafts ∧
        drafts.mapM Rule.Draft.compile = .ok rules := by
  unfold Given
  cases Table.get? members "rules" with
  | none => simp [pure, Except.pure, eq_comm]
  | some d => exact readRules_eq_ok

theorem Draft.of?_eq_some {d : δ} {p : Draft} : Draft.of? d = some p ↔
    ∃ f, Fields.of? fieldNames d = some f ∧
      Given f.members "spec_version" (nullable Document.string? · = some ·) none p.version ∧
      Given f.members "defaults" (PolicyDefaults.of? · = some ·) .none p.defaults ∧
      Given f.members "rules" (Document.listOf? Rule.Draft.of? · = some ·) [] p.rules := by
  simp only [Draft.of?, Option.bind_eq_bind, Option.bind_eq_some_iff, optional_eq_some,
    defaulted_eq_some]
  constructor
  · rintro ⟨f, fields, _, version, _, defaults, _, rules, ⟨⟩⟩
    exact ⟨f, fields, version, defaults, rules⟩
  · rintro ⟨f, fields, version, defaults, rules⟩
    exact ⟨f, fields, _, version, _, defaults, _, rules, rfl⟩

/-- The policy of a document is its draft's. -/
theorem of_eq_ok_iff_draft {d : δ} {q : Policy} :
    Policy.of d = .ok q ↔ ∃ p, Draft.of? d = some p ∧ p.compile = .ok q := by
  rw [of_eq_ok]
  constructor
  · rintro ⟨f, fields, version, defaults, rules⟩
    obtain ⟨drafts, written, compiled⟩ := given_rules.mp rules
    refine ⟨⟨q.version, q.defaults, drafts⟩, ?_, ?_⟩
    · exact Draft.of?_eq_some.mpr ⟨f, fields, version, defaults, written⟩
    · exact bind_eq_ok.mpr ⟨q.rules, compiled, rfl⟩
  · rintro ⟨p, written, compiled⟩
    obtain ⟨f, fields, version, defaults, drafts⟩ := Draft.of?_eq_some.mp written
    obtain ⟨rules, each, ⟨⟩⟩ := bind_eq_ok.mp compiled
    exact ⟨f, fields, version, defaults, given_rules.mpr ⟨p.rules, drafts, each⟩⟩

end Policy

/-! ### What the rules of a draft come to -/

namespace Rule

theorem compile_clause_eq_ok {name : String} {m : String × Json} {c : String × Condition} :
    (match Condition.compile m.1 m.2 with
      | .ok c => Except.ok (m.1, c)
      | .error cause => .error (PolicyFault.rule name cause)) = .ok c ↔
      m.1 = c.1 ∧ Condition.compile m.1 m.2 = .ok c.2 := by
  cases Condition.compile m.1 m.2 <;> simp [Prod.ext_iff]

theorem compile_eq_ok {name : String} {clauses : Table Json}
    {conditions : List (String × Condition)} : compile name clauses = .ok conditions ↔
      List.Forall₂ (fun m c => m.1 = c.1 ∧ Condition.compile m.1 m.2 = .ok c.2)
        clauses conditions := by
  unfold compile
  rw [mapM_eq_ok]
  constructor
  · exact fun each => each.imp fun m c made => compile_clause_eq_ok.mp made
  · exact fun each => each.imp fun m c made => compile_clause_eq_ok.mpr made

theorem conditions_match_iff {clauses : Table Json} {conditions : List (String × Condition)}
    (each : List.Forall₂ (fun m c => m.1 = c.1 ∧ Condition.compile m.1 m.2 = .ok c.2)
      clauses conditions) (view : Json) :
    (∀ c ∈ conditions, c.2.matches (Path.resolve view c.1) = true) ↔
      ∀ m ∈ clauses, ∃ v, Path.resolve view m.1 = some v ∧ Clause.Holds m.2 v := by
  induction each with
  | nil => simp
  | cons one _ ih =>
    obtain ⟨same, made⟩ := one
    rw [List.forall_mem_cons, List.forall_mem_cons, ih, Condition.matches_iff, ← same]
    simp only [Condition.compile_holds_iff made]

namespace Draft

theorem compile_isOk_iff {r : Draft} : (∃ rule, r.compile = .ok rule) ↔ r.Accepted := by
  unfold Draft.compile Rule.compile
  rw [bind_pure_isOk_iff, mapM_isOk_iff]
  refine forall₂_congr fun m _ => ?_
  rw [← Condition.compile_isOk_iff m.1]
  exact ⟨fun ⟨c, made⟩ => ⟨c.2, (compile_clause_eq_ok.mp made).2⟩,
    fun ⟨c, made⟩ => ⟨(m.1, c), compile_clause_eq_ok.mpr ⟨rfl, made⟩⟩⟩

/-- The rule of a draft matches where the clauses of the draft hold. -/
theorem matches_iff {r : Draft} {rule : Rule} (compiled : r.compile = .ok rule) (view : Json) :
    rule.matches view = true ↔ r.Holds view := by
  obtain ⟨conditions, each, ⟨⟩⟩ := bind_eq_ok.mp compiled
  unfold Rule.matches Holds
  rw [List.all_eq_true]
  exact conditions_match_iff (compile_eq_ok.mp each) view

end Draft

end Rule

theorem Policy.Draft.compile_isOk_iff {p : Draft} : (∃ q, p.compile = .ok q) ↔ p.Accepted := by
  unfold Draft.compile
  rw [bind_pure_isOk_iff, mapM_isOk_iff]
  exact forall₂_congr fun r _ => r.compile_isOk_iff

namespace Policy

theorem isOk_iff_draft {d : δ} :
    (∃ q, Policy.of d = .ok q) ↔ ∃ p, Draft.of? d = some p ∧ p.Accepted := by
  simp only [of_eq_ok_iff_draft, ← Draft.compile_isOk_iff]
  constructor
  · rintro ⟨q, p, written, compiled⟩
    exact ⟨p, written, q, compiled⟩
  · rintro ⟨p, written, q, compiled⟩
    exact ⟨q, p, written, compiled⟩

theorem ofContents_eq_ok {d : δ} {sound : Bool} {q : Policy} :
    ofContents d sound = .ok q ↔ sound = true ∧ Policy.of d = .ok q := by
  cases sound <;> simp [ofContents, bind_eq_ok, pure, Except.pure]

theorem rules_match_drafts {d : δ} {q : Policy} (read : Policy.of d = .ok q) :
    ∃ p, Draft.of? d = some p ∧
      List.Forall₂ (fun r rule => ∀ view, rule.matches view = true ↔ r.Holds view)
        p.rules q.rules := by
  obtain ⟨p, written, compiled⟩ := of_eq_ok_iff_draft.mp read
  obtain ⟨rules, each, ⟨⟩⟩ := bind_eq_ok.mp compiled
  exact ⟨p, written, (mapM_eq_ok.mp each).imp fun r rule made => r.matches_iff made⟩

/-- Compiling keeps the meaning of clauses. A clause is accepted if it has no operator's name among
its keys, or is an operator with an operand of its kind and nothing else. The condition of an
accepted clause holds of the values the clause holds of, and fails where a path leads to none. A
document is a policy if its text is sound, its fields can be read and every clause in it is
accepted, and then its rules match where the clauses they are written with hold. -/
theorem clauses_keep_meaning :
    (∀ path w, (∃ c, Condition.compile path w = .ok c) ↔ Clause.Accepted w) ∧
    (∀ path w c, Condition.compile path w = .ok c →
      (∀ v, c.matches (some v) = true ↔ Clause.Holds w v) ∧ c.matches none = false) ∧
    ∀ (δ : Type) [Document δ] (d : δ),
      (∀ sound, (∃ q, ofContents d sound = .ok q) ↔
        sound = true ∧ ∃ p, Draft.of? d = some p ∧ p.Accepted) ∧
      ∀ q, Policy.of d = .ok q → ∃ p, Draft.of? d = some p ∧
        List.Forall₂ (fun r rule => ∀ view, rule.matches view = true ↔ r.Holds view)
          p.rules q.rules := by
  refine ⟨fun path w => Condition.compile_isOk_iff path, fun path w c made => ⟨?_, rfl⟩, ?_⟩
  · exact Condition.compile_holds_iff made
  · refine fun δ _ d => ⟨fun sound => ?_, fun q => rules_match_drafts⟩
    simp only [ofContents_eq_ok, exists_and_left, isOk_iff_draft]

def onAttempts (clause : Json) : Json :=
  .obj [("rules", .arr [.obj [("name", .str "attempts"), ("when", .obj [("attempt", clause)])]])]

def onAttemptsDraft (clause : Json) : Draft :=
  ⟨none, .none, [⟨"attempts", Rule.defaultPriority, [("attempt", clause)], .none⟩]⟩

/-- More than three attempts are told by a clause of one operator, and not by one of two. -/
theorem more_than_three :
    let single := Json.obj [("gt", .int 3)]
    let double := Json.obj [("gt", .int 3), ("lt", .int 9)]
    (∃ q, ofContents (onAttempts single) true = .ok q) ∧
    (¬ ∃ q, ofContents (onAttempts double) true = .ok q) ∧
    (∃ c, Condition.compile "attempt" single = .ok c ∧
      Clause.Holds single (.int 4) ∧ c.matches (some (.int 4)) = true) ∧
    ∃ q, Policy.of (onAttempts single) = .ok q ∧ ∃ p, Draft.of? (onAttempts single) = some p ∧
      List.Forall₂ (fun r rule => ∀ view, rule.matches view = true ↔ r.Holds view)
        p.rules q.rules := by
  intro single double
  obtain ⟨accepted, meaning, documents⟩ := clauses_keep_meaning
  have one : Condition.compile "attempt" single = .ok (.gt (.ofInt 3)) := rfl
  have two : Condition.compile "attempt" double = .error (.keys "attempt" 2) := rfl
  have written : Draft.of? (onAttempts single) = some (onAttemptsDraft single) := rfl
  have policy : ∃ q, ofContents (onAttempts single) true = .ok q := by
    refine ((documents Json _).1 true).mpr ⟨rfl, _, written, ?_⟩
    simp only [Draft.Accepted, Rule.Draft.Accepted, onAttemptsDraft, List.forall_mem_singleton]
    exact (accepted "attempt" single).mp ⟨_, one⟩
  refine ⟨policy, ?_, ⟨_, one, ?_⟩, ?_⟩
  · intro some
    obtain ⟨_, p, read, each⟩ := ((documents Json _).1 true).mp some
    have draft : Draft.of? (onAttempts double) = Option.some (onAttemptsDraft double) := rfl
    obtain rfl := Option.some.inj (draft.symm.trans read)
    simp only [Draft.Accepted, Rule.Draft.Accepted, onAttemptsDraft,
      List.forall_mem_singleton] at each
    obtain ⟨c, made⟩ := (accepted "attempt" double).mpr each
    cases two.symm.trans made
  · have four : (Number.int 4).nearest? = Option.some 4 := Number.isDouble_int (by decide)
    have three : (Number.int 3).nearest? = Option.some 3 := Number.isDouble_int (by decide)
    have holds : Clause.Holds single (.int 4) :=
      .inr ⟨.gt, .int 3, rfl, _, _, 4, 3, rfl, rfl, four, three, by norm_num⟩
    exact ⟨holds, ((meaning _ _ _ one).1 _).mpr holds⟩
  · obtain ⟨q, read⟩ := policy
    have own := (ofContents_eq_ok.mp read).2
    exact ⟨q, own, (documents Json _).2 q own⟩

end Policy

end Drafts

end Orchestration
