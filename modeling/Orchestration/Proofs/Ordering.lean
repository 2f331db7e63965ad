import Mathlib.Data.List.Perm.Subperm
import Orchestration.Proofs.Planning

/-! What the check of a plan is worth. A search that finds no cycle is done with each step only
after everything that the step depends on, so the steps of a plan that passes can be put in an
order in which each comes after its dependencies. In particular none depends on itself. -/
namespace Orchestration.Plan

/-- Steps that are done with, the latest first: each is new, and what it depends on was done
with before it. -/
inductive Settled (steps : List PlanStep) : List String → Prop
  | nil : Settled steps []
  | cons {id : String} {done : List String} (new : id ∉ done)
    (relies : ∀ d ∈ dependencies steps id, d ∈ done) (before : Settled steps done) :
    Settled steps (id :: done)

theorem Settled.relies {steps : List PlanStep} {done : List String} (settled : Settled steps done)
    {id : String} (member : id ∈ done) : id ∉ dependencies steps id := by
  induction settled with
  | nil => cases member
  | cons new relies _ ih =>
    rcases List.mem_cons.mp member with rfl | earlier
    · exact fun own => new (relies _ own)
    · exact ih earlier

structure Searching (steps : List PlanStep) (v : Visited) : Prop where
  settled : Settled steps v.done
  apart : ∀ id ∈ v.way, id ∉ v.done
  distinct : v.way.Nodup
  within : ∀ id ∈ v.way, id ∈ ids steps

/-- A search is back on its way, and done with more than before. -/
structure Back (v w : Visited) : Prop where
  way : w.way = v.way
  done : v.done ⊆ w.done

theorem Back.trans {u v w : Visited} (first : Back u v) (second : Back v w) : Back u w :=
  ⟨second.way.trans first.way, List.Subset.trans first.done second.done⟩

section Search

variable {steps : List PlanStep}

theorem Searching.length_way {v : Visited} (searching : Searching steps v) :
    v.way.length ≤ steps.length := by
  have few := (List.subperm_of_subset searching.distinct searching.within).length_le
  simpa [ids] using few

theorem Searching.enter {v : Visited} (searching : Searching steps v) {id : String}
    (member : id ∈ ids steps) (off : id ∉ v.way) (undone : id ∉ v.done) :
    Searching steps { v with way := id :: v.way } where
  settled := searching.settled
  apart := by
    intro other on
    rcases List.mem_cons.mp on with rfl | before
    · exact undone
    · exact searching.apart other before
  distinct := List.nodup_cons.mpr ⟨off, searching.distinct⟩
  within := by
    intro other on
    rcases List.mem_cons.mp on with rfl | before
    · exact member
    · exact searching.within other before

theorem Searching.leave {v w : Visited} {id : String}
    (searching : Searching steps w) (back : Back { v with way := id :: v.way } w)
    (relies : ∀ d ∈ dependencies steps id, d ∈ w.done) :
    Searching steps ⟨v.way, id :: w.done⟩ where
  settled := .cons (searching.apart id (by simp [back.way])) relies searching.settled
  apart := by
    have distinct := searching.distinct
    have apart := searching.apart
    rw [back.way] at distinct apart
    intro other on old
    rcases List.mem_cons.mp old with rfl | before
    · exact (List.nodup_cons.mp distinct).1 on
    · exact apart other (List.mem_cons_of_mem _ on) before
  distinct := by
    have distinct := searching.distinct
    rw [back.way] at distinct
    exact (List.nodup_cons.mp distinct).2
  within other on := searching.within other (by simp [back.way, on])

def searchAll (search : Visited → String → Bool × Visited) (v : Visited) (ds : List String) :
    Bool × Visited :=
  ds.foldl (fun (found, w) d => if found then (true, w) else search w d) (false, v)

theorem searchAll_cons (search : Visited → String → Bool × Visited) (v : Visited) (d : String)
    (ds : List String) : searchAll search v (d :: ds) =
      if (search v d).1 then (true, (search v d).2) else searchAll search (search v d).2 ds := by
  have stays (w : Visited) :
      ds.foldl (fun (found, w) d => if found then (true, w) else search w d) (true, w) =
        (true, w) := by
    induction ds with
    | nil => rfl
    | cons d rest ih => exact ih
  unfold searchAll
  rw [List.foldl_cons]
  rcases h : search v d with ⟨found, w⟩
  cases found
  · simp [h]
  · simp [h, stays]

theorem search_succ (depth : Nat) (v : Visited) (id : String) :
    search steps (depth + 1) v id =
      if v.way.contains id then (true, v) else if v.done.contains id then (false, v)
      else
        let all := searchAll (search steps depth) { v with way := id :: v.way }
          (dependencies steps id)
        if all.1 then (true, all.2) else (false, ⟨v.way, id :: all.2.done⟩) := rfl

/-- A search that finds no cycle is back on its way and done with its step. A way has no more
steps than the plan, so the search is never cut short. -/
theorem search_sound (closed : ∀ id ∈ ids steps, ∀ d ∈ dependencies steps id, d ∈ ids steps)
    {depth : Nat} {v w : Visited} {id : String} (searching : Searching steps v)
    (deep : steps.length < depth + v.way.length) (member : id ∈ ids steps)
    (clear : search steps depth v id = (false, w)) :
    Searching steps w ∧ Back v w ∧ id ∈ w.done := by
  induction depth generalizing v w id with
  | zero =>
    have := searching.length_way
    omega
  | succ depth ih =>
    -- all the dependencies, each from where the one before it left off
    have each {u x : Visited} (ds : List String) (known : ∀ d ∈ ds, d ∈ ids steps)
        (searching : Searching steps u) (deep : steps.length < depth + u.way.length)
        (clear : searchAll (search steps depth) u ds = (false, x)) :
        Searching steps x ∧ Back u x ∧ ∀ d ∈ ds, d ∈ x.done := by
      induction ds generalizing u with
      | nil =>
        cases clear
        exact ⟨searching, ⟨rfl, fun _ old => old⟩, by simp⟩
      | cons d rest more =>
        rw [searchAll_cons] at clear
        split at clear
        · cases clear
        · rename_i unfound
          have found : search steps depth u d = (false, (search steps depth u d).2) :=
            Prod.ext (by simpa using unfound) rfl
          obtain ⟨now, back, done⟩ := ih searching deep (known d List.mem_cons_self) found
          obtain ⟨later, again, others⟩ := more
            (fun e later => known e (List.mem_cons_of_mem _ later)) now
            (by rw [back.way]; exact deep) clear
          refine ⟨later, back.trans again, fun e one => ?_⟩
          rcases List.mem_cons.mp one with rfl | after
          · exact again.done done
          · exact others e after
    rw [search_succ] at clear
    split at clear
    · cases clear
    · rename_i off
      split at clear
      · rename_i old
        cases clear
        exact ⟨searching, ⟨rfl, fun _ old => old⟩, by simpa using old⟩
      · rename_i undone
        dsimp only at clear
        split at clear
        · cases clear
        · rename_i unfound
          obtain ⟨-, rfl⟩ := Prod.mk.inj clear
          have entered := searching.enter member (by simpa using off) (by simpa using undone)
          obtain ⟨now, back, done⟩ := each _ (closed id member) entered
            (by simp only [List.length_cons]; omega) (Prod.ext (by simpa using unfound) rfl)
          exact ⟨now.leave back done, ⟨rfl, fun x old => List.mem_cons_of_mem _ (back.done old)⟩,
            List.mem_cons_self⟩

/-- So a search that begins with no way behind it and finds nothing is done with its step. -/
theorem search_settled (closed : ∀ id ∈ ids steps, ∀ d ∈ dependencies steps id, d ∈ ids steps)
    {done : List String} (settled : Settled steps done) {id : String} (member : id ∈ ids steps)
    {w : Visited} (clear : search steps (steps.length + 1) ⟨[], done⟩ id = (false, w)) :
    ∃ reached, w = ⟨[], reached⟩ ∧ Settled steps reached ∧ done ⊆ reached ∧ id ∈ reached := by
  have start : Searching steps ⟨[], done⟩ := ⟨settled, by simp, List.nodup_nil, by simp⟩
  obtain ⟨now, back, own⟩ := search_sound closed start (by simp) member clear
  obtain ⟨way, reached⟩ := w
  obtain rfl : way = [] := back.way
  exact ⟨reached, rfl, now.settled, back.done, own⟩

theorem cyclic_go_sound (closed : ∀ id ∈ ids steps, ∀ d ∈ dependencies steps id, d ∈ ids steps)
    {done : List String} (settled : Settled steps done) {rest : List PlanStep}
    (within : ∀ s ∈ rest, s.id ∈ ids steps) (clear : cyclic?.go steps ⟨[], done⟩ rest = none) :
    ∃ order, Settled steps order ∧ done ⊆ order ∧ ∀ s ∈ rest, s.id ∈ order := by
  induction rest generalizing done with
  | nil => exact ⟨done, settled, fun _ old => old, by simp⟩
  | cons s rest ih =>
    unfold cyclic?.go at clear
    rcases searched : search steps (steps.length + 1) ⟨[], done⟩ s.id with ⟨found, w⟩
    rw [searched] at clear
    cases found with
    | true => cases clear
    | false =>
      obtain ⟨reached, rfl, now, more, own⟩ :=
        search_settled closed settled (within s List.mem_cons_self) searched
      obtain ⟨order, all, grows, others⟩ := ih now
        (fun t later => within t (List.mem_cons_of_mem _ later)) clear
      refine ⟨order, all, List.Subset.trans more grows, fun t member => ?_⟩
      rcases List.mem_cons.mp member with rfl | later
      · exact grows own
      · exact others t later

end Search

structure Sound (steps : List PlanStep) : Prop where
  distinct : (ids steps).Nodup
  known : ∀ s ∈ steps, ∀ d ∈ s.dependencies, d ∈ ids steps
  ordered : ∃ order, Settled steps order ∧ ∀ s ∈ steps, s.id ∈ order

structure Resolved (steps : List PlanStep) : Prop where
  distinct : (ids steps).Nodup
  known : ∀ s ∈ steps, ∀ d ∈ s.dependencies, d ∈ ids steps

variable {steps : List PlanStep}

theorem Resolved.dependencies_known (resolved : Resolved steps) :
    ∀ id ∈ ids steps, ∀ d ∈ dependencies steps id, d ∈ ids steps := by
  intro id member d depends
  obtain ⟨s, inside, rfl⟩ := List.mem_map.mp member
  rw [dependencies_of_mem resolved.distinct inside] at depends
  exact resolved.known s inside d depends

theorem repeated_go_eq_none {seen : List String} :
    repeated?.go seen steps = none ↔ (ids steps).Nodup ∧ ∀ id ∈ ids steps, id ∉ seen := by
  constructor
  · intro none
    induction steps generalizing seen with
    | nil => exact ⟨List.nodup_nil, by simp [ids]⟩
    | cons s rest ih =>
      unfold repeated?.go at none
      split at none
      · cases none
      · rename_i new
        obtain ⟨distinct, apart⟩ := ih none
        refine ⟨List.nodup_cons.mpr ⟨fun again => apart s.id again List.mem_cons_self, distinct⟩, ?_⟩
        intro id member
        rcases List.mem_cons.mp member with rfl | later
        · simpa using new
        · exact fun old => apart id later (List.mem_cons_of_mem _ old)
  · rintro ⟨distinct, apart⟩
    induction steps generalizing seen with
    | nil => rfl
    | cons s rest ih =>
      obtain ⟨new, others⟩ := List.nodup_cons.mp distinct
      unfold repeated?.go
      rw [if_neg (by simpa using apart s.id List.mem_cons_self)]
      refine ih others fun id later old => ?_
      rcases List.mem_cons.mp old with rfl | before
      · exact new later
      · exact apart id (List.mem_cons_of_mem _ later) before

theorem resolved_of_none (unrepeated : repeated? steps = none) (tied : dangling? steps = none) :
    Resolved steps where
  distinct := (repeated_go_eq_none.mp unrepeated).1
  known := by
    intro s member d depends
    have found := List.findSome?_eq_none_iff.mp tied s member
    rw [Option.map_eq_none_iff, List.find?_eq_none] at found
    simpa using found d depends

theorem validate_eq_ok : validate steps = .ok () ↔
    repeated? steps = none ∧ dangling? steps = none ∧ cyclic? steps = none := by
  unfold validate
  cases repeated? steps <;> cases dangling? steps <;> cases cyclic? steps <;> simp

theorem sound_of_validate (valid : validate steps = .ok ()) : Sound steps := by
  obtain ⟨unrepeated, tied, uncycled⟩ := validate_eq_ok.mp valid
  have resolved := resolved_of_none unrepeated tied
  obtain ⟨order, settled, _, all⟩ := cyclic_go_sound resolved.dependencies_known .nil
    (fun s member => List.mem_map_of_mem member) uncycled
  exact ⟨resolved.distinct, resolved.known, order, settled, all⟩

/-- No step of such a plan depends on itself. -/
theorem Sound.irreflexive (sound : Sound steps) {s : PlanStep} (member : s ∈ steps) :
    s.id ∉ s.dependencies := by
  obtain ⟨order, settled, all⟩ := sound.ordered
  rw [← dependencies_of_mem sound.distinct member]
  exact settled.relies (all s member)

theorem accept_eq_ok {steps accepted : List PlanStep} (ok : accept steps = .ok accepted) :
    accepted = steps ∧ steps ≠ [] ∧ validate steps = .ok () := by
  unfold accept at ok
  split at ok
  · cases ok
  · rename_i some
    split at ok
    · rename_i valid
      cases ok
      exact ⟨rfl, by simpa using some, valid⟩
    · cases ok

end Orchestration.Plan
