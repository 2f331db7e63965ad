import Orchestration.Proofs.Answers
import Orchestration.Proofs.Execution

/-! What a stored history comes to. A store answers the states of a session in their order, so the
last of them is of the largest iteration, and whether the session succeeded is told by it alone.
What the result shows of decisions, observations, plans and delegations is the latest of each that
any state carries. Iterations are counted in 32 bits, and where none comes after the last one there
is no result at all. -/
namespace Orchestration

theorem StateKey.placeLe_iff (a b : StateKey) : placeLe a b = true ↔
    a.iteration < b.iteration ∨ a.iteration = b.iteration ∧ a.phase.ordinal ≤ b.phase.ordinal := by
  rw [placeLe, Bool.not_eq_true', Bool.eq_false_iff, ne_eq, placeLt_iff]
  omega

theorem Ledger.inPlace_ordered (states : List State) :
    (inPlace states).Pairwise fun a b => StateKey.placeLe a.key b.key = true := by
  apply List.pairwise_mergeSort
  · intro a b c first second
    rw [StateKey.placeLe_iff] at *
    omega
  · intro a b
    rw [Bool.or_eq_true, StateKey.placeLe_iff, StateKey.placeLe_iff]
    omega

/-- Every store answers the states of a session in their order. -/
theorem Storage.statesOf_ordered {st : Storage} {b : Backend} {session : String}
    {history : List State} (stored : st.statesOf b session = .ok history) :
    history.Pairwise fun a b => StateKey.placeLe a.key b.key = true := by
  have sorted (found : Except Fault (List State)) (placed : found.map Ledger.inPlace = .ok history) :
      history.Pairwise fun a b => StateKey.placeLe a.key b.key = true := by
    cases found with
    | error f => cases placed
    | ok states => exact Except.ok.inj placed ▸ Ledger.inPlace_ordered states
  cases b with
  | memory => exact Except.ok.inj stored ▸ Ledger.inPlace_ordered _
  | folder directory => exact sorted (Folder.read st.disk directory .state session) stored
  | privateDatabase | database => exact sorted _ stored

namespace RunResult

/-- The latest content of a field in a history: that of a state after which no state has any, or
none if no state has. -/
def Latest {α : Type} (field : State → Option α) (history : List State) : Option α → Prop
  | none => ∀ a ∈ history, field a = none
  | some x => ∃ before a after, history = before ++ a :: after ∧ field a = some x ∧
      ∀ b ∈ after, field b = none

theorem latest_spec {α : Type} (field : State → Option α) (history : List State) :
    Latest field history (latest field history) := by
  unfold latest
  cases found : history.reverse.findSome? field with
  | none =>
    intro a member
    exact List.findSome?_eq_none_iff.mp found a (List.mem_reverse.mpr member)
  | some x =>
    obtain ⟨after, a, before, turned, content, later⟩ := List.findSome?_eq_some_iff.mp found
    refine ⟨before.reverse, a, after.reverse, ?_, content, fun b member => ?_⟩
    · have same := congrArg List.reverse turned
      simpa using same
    · exact later b (List.mem_reverse.mp member)

theorem iteration_le_last {history : List State} {last : State}
    (final : history.getLast? = some last)
    (inPlace : history.Pairwise fun a b => StateKey.placeLe a.key b.key = true) :
    ∀ a ∈ history, a.iteration ≤ last.iteration := by
  obtain ⟨front, rfl⟩ := List.getLast?_eq_some_iff.mp final
  intro a member
  rcases List.mem_append.mp member with earlier | here
  · -- Every state in front stands before the last one, in the order of iterations first.
    have before := (List.pairwise_append.mp inPlace).2.2 a earlier last List.mem_cons_self
    rw [StateKey.placeLe_iff] at before
    change a.iteration < last.iteration ∨ a.iteration = last.iteration ∧ _ at before
    omega
  · rw [List.mem_singleton.mp here]

/-- Stored states are summed up unless the last of them is of the last iteration there is. A history
in order succeeded if its last state is complete, and otherwise its result tells why not. The result
counts one more than the largest iteration, and shows the latest of each content. -/
theorem history_summed_up (session : String) {history : List State} {last : State}
    (final : history.getLast? = some last)
    (inPlace : history.Pairwise fun a b => StateKey.placeLe a.key b.key = true)
    (counted : ∀ a ∈ history, a.iteration < twoTo 32) :
    (∀ a ∈ history, a.iteration ≤ last.iteration) ∧
    (last.iteration + 1 = twoTo 32 ∧
        ofHistory session history = .panic "attempt to add with overflow" ∨
      last.iteration + 1 < twoTo 32 ∧ ∃ r, ofHistory session history = .value r ∧
        r.iterations = last.iteration + 1 ∧
        (r.success = true ↔ last.phase = .complete) ∧ (r.error = none ↔ r.success = true) ∧
        ∃ decision observations plan delegations,
          Latest (·.decision) history decision ∧ Latest (·.observations) history observations ∧
          Latest (·.plan) history plan ∧ Latest (·.delegations) history delegations ∧
          r.result = .record [("decision", .ofOption Decision.toJson decision),
            ("observations", .ofOption Summary.toJson observations),
            ("plan", .ofOption PlanStep.listToJson plan),
            ("delegations", .ofOption Delegation.listToJson delegations)]) := by
  have largest := iteration_le_last final inPlace
  have inRange := counted last (List.mem_of_getLast? final)
  refine ⟨largest, ?_⟩
  by_cases furthest : last.iteration + 1 = twoTo 32
  · refine .inl ⟨furthest, ?_⟩
    unfold ofHistory nextIteration
    simp [final, furthest, Answer.map]
  · have next : last.iteration + 1 < twoTo 32 := by omega
    have same := @Services.inFull_last session history last final
    refine .inr ⟨next, inFull session history, ?_, ?_, ?_, ?_, _, _, _, _, latest_spec _ _,
      latest_spec _ _, latest_spec _ _, latest_spec _ _, congrArg RunResult.result same⟩
    · exact Services.ofHistory_counted fun a member =>
        Nat.lt_of_le_of_lt (Nat.succ_le_succ (largest a member)) next
    · rw [same]
    · rw [same]
      exact decide_eq_true_iff
    · rw [same]
      by_cases complete : last.phase = .complete
      · simp [complete]
      · simp [complete]

def abandoned : List State :=
  [{ State.blank "s" 0 .planning ⟨0, 0⟩ with plan := some [] },
    { State.blank "s" 6 .decision ⟨1, 0⟩ with decision := some (.of .escalate none) }]

/-- The later state came first, and yet it is the last of those that the store answers. -/
theorem abandoned_summed_up :
    let storage : Storage := { Storage.empty with memory := ⟨abandoned.reverse, []⟩ }
    storage.statesOf .memory "s" = .ok abandoned ∧
      abandoned.Pairwise (fun a b => StateKey.placeLe a.key b.key = true) ∧
      (∀ a ∈ abandoned, a.iteration < twoTo 32) ∧
      ∃ r, ofHistory "s" abandoned = .value r ∧ r.iterations = 7 ∧ r.success = false ∧
        r.error ≠ none := by
  intro storage
  have read : storage.statesOf .memory "s" = .ok abandoned := by
    refine congrArg Except.ok ?_
    exact (DecisionFilter.mergeSort_pair _ _ _).trans (if_neg (by decide))
  have inPlace := Storage.statesOf_ordered read
  have counted : ∀ a ∈ abandoned, a.iteration < twoTo 32 := by decide
  obtain ⟨-, ⟨furthest, -⟩ | ⟨-, r, value, iterations, success, error, -⟩⟩ :=
    history_summed_up "s" rfl inPlace counted
  · exact absurd furthest (by decide)
  · have failed : ¬r.success = true := mt success.mp (by decide)
    exact ⟨read, inPlace, counted, r, value, iterations, Bool.eq_false_iff.mpr failed,
      mt error.mp failed⟩

/-- A session of which a state of the last iteration there is was stored has no result. -/
theorem last_iteration_uncounted :
    let furthest := State.blank "s" (twoTo 32 - 1) .complete ⟨0, 0⟩
    ∃ storage, Storage.empty.add .memory (.state furthest) = .ok storage ∧
      storage.statesOf .memory "s" = .ok [furthest] ∧
      Services.alone.replay "s" { World.initial () with storage := storage } =
        .panic "attempt to add with overflow" := by
  intro furthest
  let storage : Storage := { Storage.empty with memory := ⟨[furthest], []⟩ }
  have read : storage.statesOf .memory "s" = .ok [furthest] := by
    refine congrArg Except.ok ?_
    exact List.mergeSort_singleton furthest
  refine ⟨storage, rfl, read, ?_⟩
  have answered : Services.alone.statesOf "s" { World.initial () with storage := storage } =
      .value [furthest] := congrArg Answer.ofExcept read
  have beyond : nextIteration furthest.iteration = .panic "attempt to add with overflow" :=
    if_neg (by decide)
  have counted : ofHistory "s" [furthest] = .panic "attempt to add with overflow" := by
    rw [ofHistory, List.getLast?_singleton]
    dsimp only
    rw [beyond]
    rfl
  unfold Services.replay
  rw [answered]
  exact counted

end RunResult
end Orchestration
