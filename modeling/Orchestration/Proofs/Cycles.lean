import Mathlib.Logic.Relation
import Orchestration.Proofs.Ordering

/-! Plans that go round in a circle. A search whose depth nothing bounds comes to an end wherever
it begins, and the bound that validation sets never cuts it short. Where it comes back to its way,
the dependencies lead to a cycle; what it is done with leads to none. So validation takes just the
plans whose steps can be put in order. Of any other it names the first step that leads to a cycle,
which need not lie on it. -/
namespace Orchestration.Plan

def DependsOn (steps : List PlanStep) (id dependency : String) : Prop :=
  ∃ s ∈ steps, s.id = id ∧ dependency ∈ s.dependencies

def Circular (steps : List PlanStep) (id : String) : Prop :=
  Relation.TransGen (DependsOn steps) id id

def Entangled (steps : List PlanStep) (id : String) : Prop :=
  ∃ turn, Relation.ReflTransGen (DependsOn steps) id turn ∧ Circular steps turn

structure WellFormed (steps : List PlanStep) : Prop extends Resolved steps where
  acyclic : ∀ id, ¬Circular steps id

/-- The search with nothing that bounds its depth, from some ids in turn: whether one of them
leads back to the way, and what has been visited by then. -/
inductive Explores (steps : List PlanStep) : Visited → List String → Bool → Visited → Prop
  | nil (v : Visited) : Explores steps v [] false v
  | back {v : Visited} {id : String} {rest : List String} (on : id ∈ v.way) :
    Explores steps v (id :: rest) true v
  | old {v w : Visited} {id : String} {rest : List String} {found : Bool} (off : id ∉ v.way)
    (done : id ∈ v.done) (onward : Explores steps v rest found w) :
    Explores steps v (id :: rest) found w
  | caught {v w : Visited} {id : String} {rest : List String} (off : id ∉ v.way)
    (new : id ∉ v.done)
    (below : Explores steps { v with way := id :: v.way } (dependencies steps id) true w) :
    Explores steps v (id :: rest) true w
  | clear {v u w : Visited} {id : String} {rest : List String} {found : Bool} (off : id ∉ v.way)
    (new : id ∉ v.done)
    (below : Explores steps { v with way := id :: v.way } (dependencies steps id) false u)
    (onward : Explores steps ⟨v.way, id :: u.done⟩ rest found w) :
    Explores steps v (id :: rest) found w

variable {steps : List PlanStep}

/-! ### Dependencies as a relation -/

theorem dependsOn_of_mem {id d : String} (depends : d ∈ dependencies steps id) :
    DependsOn steps id d := by
  unfold dependencies at depends
  cases found : steps.find? (·.id = id) with
  | none =>
    rw [found] at depends
    cases depends
  | some s =>
    rw [found] at depends
    exact ⟨s, List.mem_of_find?_eq_some found, by simpa using List.find?_some found, depends⟩

theorem mem_dependencies (distinct : (ids steps).Nodup) {id d : String} :
    d ∈ dependencies steps id ↔ DependsOn steps id d := by
  refine ⟨dependsOn_of_mem, ?_⟩
  rintro ⟨s, member, rfl, depends⟩
  rwa [dependencies_of_mem distinct member]

theorem DependsOn.left_mem {id d : String} (depends : DependsOn steps id d) : id ∈ ids steps := by
  obtain ⟨s, member, rfl, _⟩ := depends
  exact List.mem_map_of_mem member

theorem dependencies_of_unknown {id : String} (unknown : id ∉ ids steps) :
    dependencies steps id = [] :=
  List.eq_nil_iff_forall_not_mem.mpr fun _ depends => unknown (dependsOn_of_mem depends).left_mem

theorem Circular.left_mem {id : String} (circular : Circular steps id) : id ∈ ids steps := by
  obtain ⟨_, depends, _⟩ := Relation.TransGen.head'_iff.mp circular
  exact depends.left_mem

theorem Circular.entangled {id : String} (circular : Circular steps id) : Entangled steps id :=
  ⟨id, .refl, circular⟩

theorem Entangled.head {id d : String} (depends : DependsOn steps id d)
    (entangled : Entangled steps d) : Entangled steps id := by
  obtain ⟨turn, leads, circular⟩ := entangled
  exact ⟨turn, .head depends leads, circular⟩

/-! ### The search comes to an end -/

def ahead (steps : List PlanStep) (v : Visited) : List String := (ids steps).filter (· ∉ v.way)

theorem length_ahead_le (v : Visited) : (ahead steps v).length ≤ steps.length := by
  have fewer : (ahead steps v).length ≤ (ids steps).length := List.length_filter_le _ _
  simpa [ids] using fewer

theorem length_ahead_enter {v : Visited} {id : String} (member : id ∈ ids steps)
    (off : id ∉ v.way) :
    (ahead steps { v with way := id :: v.way }).length < (ahead steps v).length := by
  have fewer : ahead steps { v with way := id :: v.way } = (ahead steps v).filter (· ≠ id) := by
    simp [ahead, List.filter_filter]
  rw [fewer]
  exact List.length_filter_lt_length_iff_exists.mpr
    ⟨id, List.mem_filter.mpr ⟨member, by simpa using off⟩, by simp⟩

theorem searchAll_single (search : Visited → String → Bool × Visited) (v : Visited) (d : String) :
    searchAll search v [d] = search v d := by
  rw [searchAll_cons]
  rcases search v d with ⟨found, w⟩
  cases found <;> rfl

section Cases

variable {v : Visited} {id : String} (depth : Nat)

theorem search_on_way (on : id ∈ v.way) : search steps (depth + 1) v id = (true, v) := by
  rw [search_succ, if_pos (by simpa using on)]

theorem search_done (off : id ∉ v.way) (old : id ∈ v.done) :
    search steps (depth + 1) v id = (false, v) := by
  rw [search_succ, if_neg (by simpa using off), if_pos (by simpa using old)]

theorem search_new (off : id ∉ v.way) (new : id ∉ v.done) {found : Bool} {w : Visited}
    (below : searchAll (search steps depth) { v with way := id :: v.way } (dependencies steps id) =
      (found, w)) :
    search steps (depth + 1) v id = if found then (true, w) else (false, ⟨v.way, id :: w.done⟩) := by
  rw [search_succ, if_neg (by simpa using off), if_neg (by simpa using new), below]

end Cases

/-- A search that may go as deep as there are steps ahead goes as deep as it needs to. -/
theorem searchAll_explores {depth : Nat} {v : Visited} (deep : (ahead steps v).length < depth)
    (ds : List String) :
    Explores steps v ds (searchAll (search steps depth) v ds).1
      (searchAll (search steps depth) v ds).2 := by
  induction depth generalizing v ds with
  | zero => omega
  | succ depth ih =>
    induction ds generalizing v with
    | nil => exact .nil v
    | cons id rest onward =>
      rw [searchAll_cons]
      by_cases on : id ∈ v.way
      · rw [search_on_way depth on]
        exact .back on
      by_cases old : id ∈ v.done
      · rw [search_done depth on old]
        exact .old on old (onward deep)
      have below : ∃ found w, searchAll (search steps depth) { v with way := id :: v.way }
          (dependencies steps id) = (found, w) ∧
          Explores steps { v with way := id :: v.way } (dependencies steps id) found w := by
        refine ⟨_, _, rfl, ?_⟩
        by_cases member : id ∈ ids steps
        · have := length_ahead_enter member on
          exact ih (by omega) _
        · rw [dependencies_of_unknown member]
          exact .nil _
      obtain ⟨found, w, eq, explored⟩ := below
      rw [search_new depth on old eq]
      cases found with
      | true => exact .caught on old explored
      | false => exact .clear on old explored (onward deep)

theorem Explores.unique {v w w' : Visited} {ds : List String} {found found' : Bool}
    (first : Explores steps v ds found w) (second : Explores steps v ds found' w') :
    found' = found ∧ w' = w := by
  induction first generalizing found' w' with
  | nil =>
    cases second
    exact ⟨rfl, rfl⟩
  | back on =>
    cases second with
    | back => exact ⟨rfl, rfl⟩
    | old off | caught off | clear off => exact absurd on off
  | old off done _ ih =>
    cases second with
    | back on => exact absurd on off
    | old _ _ onward => exact ih onward
    | caught _ new | clear _ new => exact absurd done new
  | caught off new _ ih =>
    cases second with
    | back on => exact absurd on off
    | old _ done => exact absurd done new
    | caught _ _ below => exact ih below
    | clear _ _ below => cases (ih below).1
  | clear off new _ _ below onward =>
    cases second with
    | back on => exact absurd on off
    | old _ done => exact absurd done new
    | caught _ _ again => cases (below again).1
    | clear _ _ again more =>
      obtain ⟨-, rfl⟩ := below again
      exact onward more

/-- The bound that validation sets does not make it another search. -/
theorem explores_iff {v w : Visited} {id : String} {found : Bool} :
    Explores steps v [id] found w ↔ search steps (steps.length + 1) v id = (found, w) := by
  have bounded : (ahead steps v).length < steps.length + 1 := Nat.lt_succ_of_le (length_ahead_le v)
  have explored := searchAll_explores bounded [id]
  rw [searchAll_single] at explored
  constructor
  · intro again
    obtain ⟨rfl, rfl⟩ := explored.unique again
    rfl
  · intro searched
    rwa [searched] at explored

/-! ### What the search finds -/

/-- Where the way leads to everything that is searched, a search that comes back to it has found
what leads to a cycle. -/
theorem Explores.entangled {v w : Visited} {ds : List String} (explored : Explores steps v ds true w)
    (leads : ∀ x ∈ v.way, ∀ d ∈ ds, Relation.TransGen (DependsOn steps) x d) :
    ∃ d ∈ ds, Entangled steps d := by
  generalize caught : true = found at explored
  induction explored with
  | nil => cases caught
  | @back v id rest on =>
    have circular : Circular steps id := leads id on id List.mem_cons_self
    exact ⟨id, List.mem_cons_self, circular.entangled⟩
  | old _ _ _ ih | clear _ _ _ _ _ ih =>
    obtain ⟨d, member, entangled⟩ :=
      ih (fun x on d later => leads x on d (List.mem_cons_of_mem _ later)) caught
    exact ⟨d, List.mem_cons_of_mem _ member, entangled⟩
  | @caught v w id rest _ _ _ ih =>
    have onward : ∀ x ∈ id :: v.way, ∀ d ∈ dependencies steps id,
        Relation.TransGen (DependsOn steps) x d := by
      intro x on d depends
      have last := dependsOn_of_mem depends
      rcases List.mem_cons.mp on with rfl | before
      · exact .single last
      · exact .tail (leads x before id List.mem_cons_self) last
    obtain ⟨d, depends, entangled⟩ := ih onward rfl
    exact ⟨id, List.mem_cons_self, entangled.head (dependsOn_of_mem depends)⟩

theorem Settled.dependencies_mem {done : List String} (settled : Settled steps done) {id : String}
    (member : id ∈ done) : ∀ d ∈ dependencies steps id, d ∈ done := by
  induction settled with
  | nil => cases member
  | cons _ relies _ ih =>
    intro d depends
    rcases List.mem_cons.mp member with rfl | earlier
    · exact List.mem_cons_of_mem _ (relies d depends)
    · exact List.mem_cons_of_mem _ (ih earlier d depends)

section Settled

variable {done : List String} (distinct : (ids steps).Nodup)

include distinct

theorem Settled.leads_mem (settled : Settled steps done) {id other : String} (member : id ∈ done)
    (leads : Relation.ReflTransGen (DependsOn steps) id other) : other ∈ done := by
  induction leads with
  | refl => exact member
  | tail _ last ih => exact settled.dependencies_mem ih _ ((mem_dependencies distinct).mpr last)

theorem Settled.not_circular (settled : Settled steps done) {id : String} (member : id ∈ done) :
    ¬Circular steps id := by
  induction settled with
  | nil => cases member
  | @cons first done new relies before ih =>
    rcases List.mem_cons.mp member with rfl | earlier
    · intro circular
      obtain ⟨d, depends, back⟩ := Relation.TransGen.head'_iff.mp circular
      have old := relies d ((mem_dependencies distinct).mpr depends)
      exact new (before.leads_mem distinct old back)
    · exact ih earlier

theorem Settled.not_entangled (settled : Settled steps done) {id : String} (member : id ∈ done) :
    ¬Entangled steps id := by
  rintro ⟨turn, leads, circular⟩
  exact settled.not_circular distinct (settled.leads_mem distinct member leads) circular

end Settled

open Classical in
/-- The steps are searched in turn, and the first one that leads to a cycle is named. -/
theorem Resolved.cyclic_go (resolved : Resolved steps) {done : List String}
    (settled : Settled steps done) {rest : List PlanStep} (within : ∀ s ∈ rest, s.id ∈ ids steps) :
    cyclic?.go steps ⟨[], done⟩ rest =
      (rest.find? fun s => Entangled steps s.id).map (·.id) := by
  induction rest generalizing done with
  | nil => rfl
  | cons s rest ih =>
    unfold cyclic?.go
    rcases searched : search steps (steps.length + 1) ⟨[], done⟩ s.id with ⟨found, w⟩
    cases found with
    | true =>
      obtain ⟨d, same, entangled⟩ := (explores_iff.mpr searched).entangled (by simp)
      obtain rfl := List.mem_singleton.mp same
      rw [List.find?_cons_of_pos (by simpa using entangled)]
      rfl
    | false =>
      obtain ⟨reached, rfl, now, _, own⟩ :=
        search_settled resolved.dependencies_known settled (within s List.mem_cons_self) searched
      have free : ¬Entangled steps s.id := now.not_entangled resolved.distinct own
      rw [List.find?_cons_of_neg (by simpa using free)]
      exact ih now fun t later => within t (List.mem_cons_of_mem _ later)

/-! ### What validation takes -/

theorem validate_eq_cycle {id : String} : validate steps = .error (.cycle id) ↔
    repeated? steps = none ∧ dangling? steps = none ∧ cyclic? steps = some id := by
  unfold validate
  cases repeated? steps <;> cases dangling? steps <;> cases cyclic? steps <;> simp

theorem resolved_iff : Resolved steps ↔ repeated? steps = none ∧ dangling? steps = none := by
  constructor
  · intro resolved
    refine ⟨repeated_go_eq_none.mpr ⟨resolved.distinct, by simp⟩, ?_⟩
    refine List.findSome?_eq_none_iff.mpr fun s member => ?_
    rw [Option.map_eq_none_iff, List.find?_eq_none]
    intro d depends
    simpa using resolved.known s member d depends
  · rintro ⟨unrepeated, tied⟩
    exact resolved_of_none unrepeated tied

open Classical in
theorem Resolved.cyclic (resolved : Resolved steps) :
    cyclic? steps = (steps.find? fun s => Entangled steps s.id).map (·.id) :=
  resolved.cyclic_go .nil fun _ member => List.mem_map_of_mem member

theorem WellFormed.validate (wellFormed : WellFormed steps) : Plan.validate steps = .ok () := by
  obtain ⟨unrepeated, tied⟩ := resolved_iff.mp wellFormed.toResolved
  refine validate_eq_ok.mpr ⟨unrepeated, tied, ?_⟩
  rw [wellFormed.cyclic, Option.map_eq_none_iff, List.find?_eq_none]
  intro s _ entangled
  obtain ⟨turn, _, circular⟩ : Entangled steps s.id := by simpa using entangled
  exact wellFormed.acyclic turn circular

/-! ### Putting the steps in order -/

theorem InTurn.concat {known : List String} {order : List PlanStep} (turn : InTurn known order)
    {s : PlanStep} (new : s.id ∉ known ∧ s.id ∉ ids order)
    (relies : ∀ d ∈ s.dependencies, d ∈ known ∨ d ∈ ids order) : InTurn known (order ++ [s]) := by
  induction turn with
  | nil known => exact .cons new.1 (fun d depends => by simpa [ids] using relies d depends) (.nil _)
  | @cons known first rest own earlier _ ih =>
    refine .cons own earlier (ih ⟨?_, ?_⟩ fun d depends => ?_)
    · rintro member
      rcases List.mem_cons.mp member with same | old
      · exact new.2 (by simp [ids, same])
      · exact new.1 old
    · exact fun later => new.2 (List.mem_cons_of_mem _ later)
    · rcases relies d depends with old | before
      · exact .inl (List.mem_cons_of_mem _ old)
      · rcases List.mem_cons.mp before with rfl | later
        · exact .inl List.mem_cons_self
        · exact .inr later

/-- The steps that are done with, in the order in which they were. -/
theorem Settled.inTurn (resolved : Resolved steps) {done : List String}
    (settled : Settled steps done) :
    ∃ order, InTurn [] order ∧ ∀ s, s ∈ order ↔ s ∈ steps ∧ s.id ∈ done := by
  induction settled with
  | nil => exact ⟨[], .nil _, by simp⟩
  | @cons id done new relies before ih =>
    obtain ⟨order, turn, members⟩ := ih
    by_cases known : id ∈ ids steps
    · obtain ⟨s, member, rfl⟩ := List.mem_map.mp known
      refine ⟨order ++ [s], turn.concat ⟨by simp, ?_⟩ fun d depends => .inr ?_, fun t => ?_⟩
      · intro earlier
        obtain ⟨t, inside, same⟩ := List.mem_map.mp earlier
        exact new (same ▸ ((members t).mp inside).2)
      · obtain ⟨t, inside, rfl⟩ := List.mem_map.mp (resolved.known s member d depends)
        rw [← dependencies_of_mem resolved.distinct member] at depends
        exact List.mem_map_of_mem ((members t).mpr ⟨inside, relies t.id depends⟩)
      · have named : t ∈ steps ∧ t.id = s.id ↔ t = s := by
          refine ⟨fun ⟨inside, same⟩ => ?_, ?_⟩
          · exact List.inj_on_of_nodup_map resolved.distinct inside member same
          · rintro rfl
            exact ⟨member, rfl⟩
        rw [List.mem_append, List.mem_singleton, members, List.mem_cons, and_or_left, named, or_comm]
    · refine ⟨order, turn, fun s => (members s).trans (and_congr_right fun member => ?_)⟩
      have other : s.id ≠ id := fun same => known (same ▸ List.mem_map_of_mem member)
      simp [other]

/-- Steps in turn are done with one after the other. -/
theorem InTurn.settled {known : List String} {order : List PlanStep} (turn : InTurn known order)
    (within : ∀ s ∈ order, dependencies steps s.id = s.dependencies)
    (before : Settled steps known) : Settled steps ((ids order).reverse ++ known) := by
  induction turn with
  | nil => exact before
  | @cons known step rest new relies _ ih =>
    have own : ∀ d ∈ dependencies steps step.id, d ∈ known := by
      rw [within step List.mem_cons_self]
      exact relies
    have all := ih (fun s later => within s (List.mem_cons_of_mem _ later)) (.cons new own before)
    simpa [ids] using all

theorem WellFormed.of_order {order : List PlanStep} (same : order.Perm steps)
    (turn : InTurn [] order) : WellFormed steps := by
  have renamed : (ids order).Perm (ids steps) := same.map _
  have distinct : (ids steps).Nodup := renamed.nodup_iff.mp turn.nodup
  refine ⟨⟨distinct, fun s member d depends => ?_⟩, fun id circular => ?_⟩
  · have inside := turn.relies_within s (same.mem_iff.mpr member) d depends
    exact renamed.mem_iff.mp (inside.resolve_left List.not_mem_nil)
  · have settled : Settled steps ((ids order).reverse ++ []) :=
      turn.settled (fun s inside => dependencies_of_mem distinct (same.mem_iff.mp inside)) .nil
    have member : id ∈ (ids order).reverse ++ [] := by
      simpa using renamed.mem_iff.mpr circular.left_mem
    exact settled.not_circular distinct member circular

theorem InTurn.validate (turn : InTurn [] steps) : Plan.validate steps = .ok () :=
  (WellFormed.of_order (.refl steps) turn).validate

theorem InTurn.accepted (turn : InTurn [] steps) (some : steps ≠ []) :
    accept steps = .ok steps := by
  rw [accept, if_neg (by simpa using some), turn.validate]

theorem Sound.order (sound : Sound steps) :
    ∃ order : List PlanStep, order.Perm steps ∧ InTurn [] order := by
  obtain ⟨done, settled, all⟩ := sound.ordered
  obtain ⟨order, turn, members⟩ := settled.inTurn ⟨sound.distinct, sound.known⟩
  refine ⟨order, ?_, turn⟩
  refine (List.perm_ext_iff_of_nodup turn.nodup.of_map sound.distinct.of_map).mpr fun s => ?_
  exact (members s).trans (and_iff_left_of_imp (all s))

/-- Validation takes a plan exactly if its steps have ids of their own, depend on steps of the plan
only and on no cycle of them; which is to say that they can be put in an order in which each comes
after all that it depends on. A search that nothing bounds comes to an end whatever it has visited,
and it is the search behind validation. -/
theorem validate_ok_iff_wellFormed (steps : List PlanStep) :
    (validate steps = .ok () ↔ WellFormed steps) ∧
    (WellFormed steps ↔ ∃ order : List PlanStep, order.Perm steps ∧ InTurn [] order) ∧
    (∀ v ds, ∃ found w, Explores steps v ds found w) ∧
    ∀ v id found w,
      Explores steps v [id] found w ↔ search steps (steps.length + 1) v id = (found, w) := by
  have ordered (valid : validate steps = .ok ()) := (sound_of_validate valid).order
  have wellFormed : (∃ order : List PlanStep, order.Perm steps ∧ InTurn [] order) →
      WellFormed steps := fun ⟨_, same, turn⟩ => .of_order same turn
  refine ⟨⟨fun valid => wellFormed (ordered valid), WellFormed.validate⟩,
    ⟨fun formed => ordered formed.validate, wellFormed⟩, fun v ds => ?_,
    fun _ _ _ _ => explores_iff⟩
  exact ⟨_, _, searchAll_explores (Nat.lt_succ_of_le (length_ahead_le v)) ds⟩

/-- Where a plan is refused for a cycle, its ids and dependencies are in order, and the step that is
named is the first one that leads to a cycle. -/
theorem cycle_named_at_entrance (steps : List PlanStep) (id : String) :
    validate steps = .error (.cycle id) ↔ Resolved steps ∧
      ∃ before s after, steps = before ++ s :: after ∧ s.id = id ∧ Entangled steps id ∧
        ∀ t ∈ before, ¬Entangled steps t.id := by
  classical
  rw [validate_eq_cycle, ← and_assoc, ← resolved_iff]
  refine and_congr_right fun resolved => ?_
  rw [resolved.cyclic, Option.map_eq_some_iff]
  constructor
  · rintro ⟨s, first, rfl⟩
    obtain ⟨entangled, before, after, split, free⟩ := List.find?_eq_some_iff_append.mp first
    exact ⟨before, s, after, split, rfl, by simpa using entangled, by simpa using free⟩
  · rintro ⟨before, s, after, split, rfl, entangled, free⟩
    refine ⟨s, List.find?_eq_some_iff_append.mpr ⟨by simpa using entangled, before, after, split, ?_⟩,
      rfl⟩
    simpa using free

def spur : List PlanStep :=
  [{ PlanStep.of "a" "first" "x" with dependencies := ["b"] },
    { PlanStep.of "b" "second" "x" with dependencies := ["b"] }]

/-- The cycle is said to go through a step that nothing depends on. -/
theorem entrance_off_cycle :
    Resolved spur ∧ validate spur = .error (.cycle "a") ∧
      (Fault.plan (.cycle "a")).message =
        "Collaborator error: Dependency cycle through step 'a'" ∧
      ¬Circular spur "a" ∧ Circular spur "b" := by
  refine ⟨⟨by decide, by decide⟩, by decide +kernel, by decide +kernel, fun circular => ?_, ?_⟩
  · obtain ⟨b, _, s, member, _, last⟩ := Relation.TransGen.tail'_iff.mp circular
    exact (by decide : ∀ s ∈ spur, "a" ∉ s.dependencies) s member last
  · exact .single ⟨_, List.mem_cons_of_mem _ List.mem_cons_self, rfl, List.mem_cons_self⟩

end Orchestration.Plan
