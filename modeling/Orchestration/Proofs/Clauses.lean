import Orchestration.Proofs.Equality
import Orchestration.Proofs.Items
import Orchestration.Proofs.Tables

/-! What a clause says, read off the clause itself. A clause with an operator's name among its keys
has to be that operator with an operand of its kind and nothing else; any other clause is a value to
agree with. The condition that a clause is compiled to holds of the values the clause holds of. -/
namespace Orchestration

namespace Json

theorem array?_eq_some {j : Json} {items : List Json} : j.array? = some items ↔ j = .arr items := by
  cases j <;> simp [array?]

theorem string?_eq_some {j : Json} {s : String} : j.string? = some s ↔ j = .str s := by
  cases j <;> simp [string?]

theorem float?_eq_some {j : Json} {x : Binary64} :
    j.float? = some x ↔ ∃ n, j = .num n ∧ n.toBinary64 = x := by
  cases j <;> simp [float?, number?]

theorem mapM_string?_eq_some {items : List Json} {texts : List String} :
    items.mapM string? = some texts ↔ items = texts.map .str := by
  simp only [mapM_eq_some, string?_eq_some]
  rw [← List.forall₂_map_right_iff (R := Eq), List.forall₂_eq_eq_eq]

theorem strings?_eq_some {j : Json} {texts : List String} :
    j.array?.bind (·.mapM string?) = some texts ↔ j = .strings texts := by
  cases j with
  | arr items => exact mapM_string?_eq_some.trans (Json.arr.injEq ..).to_iff.symm
  | _ => simp [array?, strings]

theorem strings_inj {s t : List String} (same : strings s = strings t) : s = t :=
  List.map_injective_iff.mpr (fun _ _ => Json.str.inj) (Json.arr.inj same)

end Json

/-! ### Operators -/

namespace Operator

theorem read?_eq_some {s : String} {op : Operator} : read? s = some op ↔ s = op.text := by
  constructor
  · unfold read?
    split <;> rintro ⟨⟩ <;> rfl
  · rintro rfl
    cases op <;> rfl

theorem text_inj {op op' : Operator} (same : op.text = op'.text) : op = op' :=
  Option.some.inj ((read?_eq_some.mpr rfl).symm.trans (read?_eq_some.mpr same))

def Takes (op : Operator) (operand : Json) : Prop :=
  match op with
  | lt | le | gt | ge => ∃ n, operand = .num n
  | oneOf => ∃ items, operand = .arr items
  | anyIssueTypeIn => ∃ types, operand = .strings types

/-- Both are numbers, and their nearest doubles stand in the relation. -/
def Compares (r : ℚ → ℚ → Prop) (v operand : Json) : Prop :=
  ∃ m n a b, v = .num m ∧ operand = .num n ∧ m.nearest? = some a ∧ n.nearest? = some b ∧ r a b

def Reports (v : Json) (type : String) : Prop :=
  ∃ entries, v = .arr entries ∧ ∃ entry ∈ entries, ∃ issues,
    entry.member? "issues" = some (.arr issues) ∧
    ∃ issue ∈ issues, issue.member? "type" = some (.str type)

def Relates (op : Operator) (v operand : Json) : Prop :=
  match op with
  | lt => Compares (· < ·) v operand
  | le => Compares (· ≤ ·) v operand
  | gt => Compares (· > ·) v operand
  | ge => Compares (· ≥ ·) v operand
  | oneOf => ∃ items, operand = .arr items ∧ ∃ item ∈ items, Condition.Agree v item
  | anyIssueTypeIn => ∃ types, operand = .strings types ∧ ∃ type ∈ types, Reports v type

end Operator

namespace Clause

def MentionsOperator (w : Json) : Prop :=
  ∃ members, w = .obj members ∧ ∃ m ∈ members, ∃ op : Operator, m.1 = op.text

def Applies (w : Json) (op : Operator) (operand : Json) : Prop := w = .obj [(op.text, operand)]

def Accepted (w : Json) : Prop :=
  ¬ MentionsOperator w ∨ ∃ op operand, Applies w op operand ∧ op.Takes operand

def Holds (w v : Json) : Prop :=
  (¬ MentionsOperator w ∧ Condition.Agree v w) ∨
    ∃ op operand, Applies w op operand ∧ op.Relates v operand

theorem Applies.mentions {w operand : Json} {op : Operator} (applies : Applies w op operand) :
    MentionsOperator w :=
  ⟨_, applies, _, List.mem_singleton_self _, op, rfl⟩

theorem Applies.unique {w operand operand' : Json} {op op' : Operator}
    (one : Applies w op operand) (other : Applies w op' operand') :
    op = op' ∧ operand = operand' := by
  have same := List.singleton_inj.mp (Json.obj.inj (one.symm.trans other))
  obtain ⟨text, operands⟩ := Prod.mk.inj same
  exact ⟨Operator.text_inj text, operands⟩

theorem holds_of_plain {w v : Json} (plain : ¬ MentionsOperator w) :
    Holds w v ↔ Condition.Agree v w := by
  constructor
  · rintro (⟨_, agree⟩ | ⟨op, operand, applies, _⟩)
    · exact agree
    · exact absurd applies.mentions plain
  · exact fun agree => .inl ⟨plain, agree⟩

theorem holds_of_applies {w v operand : Json} {op : Operator} (applies : Applies w op operand) :
    Holds w v ↔ op.Relates v operand := by
  constructor
  · rintro (⟨plain, _⟩ | ⟨op', operand', applies', relates⟩)
    · exact absurd applies.mentions plain
    · obtain ⟨rfl, rfl⟩ := applies.unique applies'
      exact relates
  · exact fun relates => .inr ⟨op, operand, applies, relates⟩

end Clause

/-! ### Conditions -/

namespace Condition

open Operator

theorem float?_map_iff {r : Binary64 → Binary64 → Bool} {s : ℚ → ℚ → Prop}
    (same : ∀ x y : Binary64,
      r x y = true ↔ ∃ a b, x.value? = some a ∧ y.value? = some b ∧ s a b)
    {v : Json} {n : Number} :
    (v.float?.map (r · n.toBinary64)).getD false = true ↔ Compares s v (.num n) := by
  constructor
  · intro holds
    cases v with
    | num m =>
      obtain ⟨a, b, left, right, stands⟩ := (same _ _).mp holds
      exact ⟨m, n, a, b, rfl, rfl, left, right, stands⟩
    | _ => cases holds
  · rintro ⟨m, _, a, b, rfl, ⟨⟩, left, right, stands⟩
    exact (same _ _).mpr ⟨a, b, left, right, stands⟩

theorem mem_issueTypes {entries : List Json} {type : String} :
    type ∈ issueTypes entries ↔ Reports (.arr entries) type := by
  unfold issueTypes Reports
  rw [List.mem_flatMap]
  constructor
  · rintro ⟨entry, member, inside⟩
    obtain ⟨issue, listed, named⟩ := List.mem_filterMap.mp inside
    cases found : (entry.member? "issues").bind Json.array? with
    | none => simp [found] at listed
    | some issues =>
      rw [found] at listed
      obtain ⟨j, own, array⟩ := Option.bind_eq_some_iff.mp found
      obtain ⟨k, kind, text⟩ := Option.bind_eq_some_iff.mp named
      rw [Json.array?_eq_some] at array
      rw [Json.string?_eq_some] at text
      exact ⟨entries, rfl, entry, member, issues, array ▸ own, issue, listed, text ▸ kind⟩
  · rintro ⟨_, ⟨⟩, entry, member, issues, own, issue, listed, kind⟩
    refine ⟨entry, member, List.mem_filterMap.mpr ⟨issue, ?_, ?_⟩⟩
    · rw [own]
      exact listed
    · rw [kind]
      rfl

theorem anyIssueTypeIn_holds_iff {types : List String} {v : Json} :
    (anyIssueTypeIn (Table.distinct types)).holds v = true ↔ ∃ type ∈ types, Reports v type := by
  cases v with
  | arr entries =>
    change (issueTypes entries).any (Table.distinct types).contains = true ↔ _
    simp only [List.any_eq_true, List.contains_iff_mem, Table.mem_distinct, mem_issueTypes,
      and_comm]
  | _ => simp [holds, Json.array?, Reports]

/-- An operand of the operator's kind is compiled, and what the condition says is what the operator
says of the operand. -/
theorem ofOperator_of_takes (path : String) {op : Operator} {operand : Json}
    (takes : op.Takes operand) : ∃ c, ofOperator path op operand = .ok c ∧
      ∀ v, c.holds v = true ↔ op.Relates v operand := by
  cases op with
  | lt =>
    obtain ⟨n, rfl⟩ := takes
    exact ⟨_, rfl, fun v => float?_map_iff fun x y => Binary64.related_iff Binary64.lt_iff_value?⟩
  | le =>
    obtain ⟨n, rfl⟩ := takes
    exact ⟨_, rfl, fun v => float?_map_iff fun x y => Binary64.related_iff Binary64.le_iff_value?⟩
  | gt =>
    obtain ⟨n, rfl⟩ := takes
    exact ⟨_, rfl, fun v => float?_map_iff (r := fun x y => y.lt x) fun x y =>
      Binary64.related_swapped_iff Binary64.lt_iff_value?⟩
  | ge =>
    obtain ⟨n, rfl⟩ := takes
    exact ⟨_, rfl, fun v => float?_map_iff (r := fun x y => y.le x) fun x y =>
      Binary64.related_swapped_iff Binary64.le_iff_value?⟩
  | oneOf =>
    obtain ⟨items, rfl⟩ := takes
    refine ⟨.oneOf items, rfl, fun v => oneOf_matches_iff.trans ?_⟩
    simp [Relates]
  | anyIssueTypeIn =>
    obtain ⟨types, rfl⟩ := takes
    refine ⟨.anyIssueTypeIn (Table.distinct types), ?_, fun v => ?_⟩
    · have read := Json.strings?_eq_some.mpr (Eq.refl (Json.strings types))
      simp only [ofOperator, read]
    · rw [anyIssueTypeIn_holds_iff]
      constructor
      · exact fun reports => ⟨types, rfl, reports⟩
      · rintro ⟨_, same, reports⟩
        obtain rfl := Json.strings_inj same
        exact reports

theorem ofOperator_of_not_takes (path : String) {op : Operator} {operand : Json}
    (refused : ¬ op.Takes operand) :
    ∃ expected, ofOperator path op operand = .error (.operand op.text path expected operand) := by
  cases op <;> simp only [ofOperator]
  case lt | le | gt | ge =>
    cases read : operand.float? with
    | none => exact ⟨.number, rfl⟩
    | some x =>
      obtain ⟨n, own, -⟩ := Json.float?_eq_some.mp read
      exact absurd ⟨n, own⟩ refused
  case oneOf =>
    cases read : operand.array? with
    | none => exact ⟨.list, rfl⟩
    | some items => exact absurd ⟨items, Json.array?_eq_some.mp read⟩ refused
  case anyIssueTypeIn =>
    cases read : operand.array?.bind (·.mapM Json.string?) with
    | none => exact ⟨.strings, rfl⟩
    | some types => exact absurd ⟨types, Json.strings?_eq_some.mp read⟩ refused

open Clause

theorem compile_of_plain {path : String} {w : Json} (plain : ¬ MentionsOperator w) :
    compile path w = .ok (.eq w) := by
  cases w with
  | obj members =>
    have none : (members.findSome? fun m => (read? m.1).map (·, m.2)) = none := by
      refine List.findSome?_eq_none_iff.mpr fun m member => Option.map_eq_none_iff.mpr ?_
      refine Option.eq_none_iff_forall_ne_some.mpr fun op read => plain ?_
      exact ⟨members, rfl, m, member, op, read?_eq_some.mp read⟩
    simp only [compile, none]
  | _ => rfl

theorem compile_of_applies {path : String} {w operand : Json} {op : Operator}
    (applies : Applies w op operand) : compile path w = ofOperator path op operand := by
  have read : read? op.text = some op := read?_eq_some.mpr rfl
  rw [applies]
  simp [compile, read]

/-- An operator with other keys beside it is refused. -/
theorem compile_of_mixed (path : String) {w : Json} (mentions : MentionsOperator w)
    (mixed : ∀ op operand, ¬ Applies w op operand) :
    ∃ count, compile path w = .error (.keys path count) := by
  obtain ⟨members, rfl, m, member, op, named⟩ := mentions
  refine ⟨members.length, ?_⟩
  have more : members.length ≠ 1 := by
    -- a member that is alone and names an operator would be that operator
    intro one
    obtain ⟨n, rfl⟩ := List.length_eq_one_iff.mp one
    obtain rfl := List.mem_singleton.mp member
    exact mixed op m.2 (congrArg Json.obj (congrArg ([·]) (Prod.ext named rfl)))
  cases found : members.findSome? fun m => (read? m.1).map (·, m.2) with
  | none =>
    have unread := List.findSome?_eq_none_iff.mp found m member
    rw [named, read?_eq_some.mpr rfl] at unread
    cases unread
  | some f => simp only [compile, found, if_pos more]

theorem not_accepted {w : Json} (mentions : MentionsOperator w)
    (ill : ∀ op operand, Applies w op operand → ¬ op.Takes operand) : ¬ Accepted w := by
  rintro (plain | ⟨op, operand, applies, takes⟩)
  · exact plain mentions
  · exact ill op operand applies takes

/-- A clause is accepted, and its condition means what it means, or it is refused. -/
theorem compile_spec (path : String) (w : Json) :
    (Accepted w ∧ ∃ c, compile path w = .ok c ∧ ∀ v, c.holds v = true ↔ Holds w v) ∨
      (¬ Accepted w ∧ ∃ cause, compile path w = .error cause) := by
  by_cases mentions : MentionsOperator w
  · by_cases alone : ∃ op operand, Applies w op operand
    · obtain ⟨op, operand, applies⟩ := alone
      rw [compile_of_applies applies]
      by_cases takes : op.Takes operand
      · obtain ⟨c, made, meaning⟩ := ofOperator_of_takes path takes
        exact .inl ⟨.inr ⟨op, operand, applies, takes⟩, c, made,
          fun v => (meaning v).trans (holds_of_applies applies).symm⟩
      · obtain ⟨expected, refused⟩ := ofOperator_of_not_takes path takes
        refine .inr ⟨not_accepted mentions fun op' operand' applies' => ?_, _, refused⟩
        obtain ⟨rfl, rfl⟩ := applies.unique applies'
        exact takes
    · have mixed : ∀ op operand, ¬ Applies w op operand := by simpa using alone
      obtain ⟨count, refused⟩ := compile_of_mixed path mentions mixed
      exact .inr ⟨not_accepted mentions fun op operand applies => absurd applies (mixed op operand),
        _, refused⟩
  · refine .inl ⟨.inl mentions, .eq w, compile_of_plain mentions, fun v => ?_⟩
    exact eq_matches_iff.trans (holds_of_plain mentions).symm

theorem compile_isOk_iff (path : String) {w : Json} :
    (∃ c, compile path w = .ok c) ↔ Accepted w := by
  rcases compile_spec path w with ⟨accepted, c, made, _⟩ | ⟨refused, cause, failed⟩
  · exact ⟨fun _ => accepted, fun _ => ⟨c, made⟩⟩
  · simp [refused, failed]

theorem compile_holds_iff {path : String} {w : Json} {c : Condition}
    (made : compile path w = .ok c) (v : Json) : c.holds v = true ↔ Holds w v := by
  rcases compile_spec path w with ⟨_, c', made', meaning⟩ | ⟨_, cause, failed⟩
  · obtain rfl := Except.ok.inj (made.symm.trans made')
    exact meaning v
  · cases made.symm.trans failed

end Condition

end Orchestration
