import Orchestration.Proofs.Dispatches
import Orchestration.Proofs.Execution

/-! What a dispatch may use. Each decision evaluates the policy, and what it allows and forbids
is stated on the dispatches of the next iteration, but only if it is anything: a decision under
which nothing is allowed and nothing forbidden leaves the lists of an earlier one in force. -/
namespace Orchestration

variable {η σ : Type}

namespace EffectivePolicy

def stated? (e : EffectivePolicy) : Option (List String × List String) :=
  if e.allow.isEmpty && e.forbid.isEmpty then .none else some (e.allow, e.forbid)

/-- The lists that are in force after some decisions, the latest of them last. -/
def inForce (taken : List EffectivePolicy) : Option (List String × List String) :=
  (taken.filterMap stated?).getLast?

theorem stated?_eq_some {e : EffectivePolicy} {lists : List String × List String}
    (states : e.stated? = some lists) : lists = (e.allow, e.forbid) ∧ lists ≠ ([], []) := by
  unfold stated? at states
  split at states
  · cases states
  · rename_i some
    cases states
    refine ⟨rfl, fun empty => some ?_⟩
    obtain ⟨allow, forbid⟩ := Prod.mk.inj empty
    simp [allow, forbid]

theorem stated?_eq_none {e : EffectivePolicy} (silent : e.stated? = .none) :
    e.allow = [] ∧ e.forbid = [] := by
  unfold stated? at silent
  split at silent
  · rename_i empty
    simpa using empty
  · cases silent

theorem inForce_concat (taken : List EffectivePolicy) (e : EffectivePolicy) :
    inForce (taken ++ [e]) = e.stated?.or (inForce taken) := by
  unfold inForce
  rw [List.filterMap_append]
  cases states : e.stated? <;> simp [states, List.getLast?_append]

theorem inForce_eq_none {taken : List EffectivePolicy} :
    inForce taken = .none ↔ ∀ e ∈ taken, e.stated? = .none := by
  unfold inForce
  rw [List.getLast?_eq_none_iff, List.filterMap_eq_nil_iff]

/-- The lists in force are those of the latest decision exactly if it states any, or no
decision has. -/
theorem inForce_latest {taken : List EffectivePolicy} {e : EffectivePolicy}
    (latest : taken.getLast? = some e) :
    (inForce taken).getD ([], []) = (e.allow, e.forbid) ↔
      e.stated? ≠ .none ∨ ∀ p ∈ taken, p.stated? = .none := by
  obtain ⟨before, rfl⟩ := List.getLast?_eq_some_iff.mp latest
  rw [← inForce_eq_none, inForce_concat]
  cases states : e.stated? with
  | some lists =>
    obtain ⟨same, -⟩ := stated?_eq_some states
    simp [same]
  | none =>
    obtain ⟨allow, forbid⟩ := stated?_eq_none states
    rw [allow, forbid, Option.none_or]
    cases force : inForce before with
    | none => simp
    | some lists =>
      have member : lists ∈ before.filterMap stated? := List.mem_of_getLast? force
      obtain ⟨p, -, stated⟩ := List.mem_filterMap.mp member
      simpa using (stated?_eq_some stated).2

end EffectivePolicy

def listed (t : Table Json) : List String × List String :=
  let names (key : String) : List String :=
    (((Table.get? t key).bind Json.array?).getD []).filterMap Json.string?
  (names "allow", names "forbid")

theorem Run.listed_dispatchOf (r : Run) (timeout : Nat) (step : PlanStep) :
    listed (r.dispatchOf timeout step).policy = r.capabilities.getD ([], []) := by
  have texts (items : List String) :
      ((Json.strings items).array?.getD []).filterMap Json.string? = items := by
    induction items with
    | nil => rfl
    | cons item rest ih => exact congrArg (item :: ·) ih
  have other : ("allow" : String) ≠ "forbid" := by decide
  unfold listed Run.dispatchOf Run.capabilityTable
  dsimp only
  cases r.capabilities with
  | none => rfl
  | some lists =>
    simp [Table.ofList, Table.get?_put_of_ne _ _ other, texts]

theorem Verdict.carry_capabilities (v : Verdict) (r : Run) :
    (v.carry r).capabilities = v.effective.stated?.or r.capabilities := by
  unfold Verdict.carry EffectivePolicy.stated?
  dsimp only
  split <;> rfl

theorem Verdict.state_policy (v : Verdict) (config : LoopConfig) (r : Run) (time : Timestamp) :
    Table.get? (v.state config r time).metadata "effective_policy" = some v.effective.toJson := by
  have mark : "effective_policy" ≠ RunResult.exhaustedKey := by decide
  have limit : "effective_policy" ≠ RunResult.limitKey := by decide
  unfold Verdict.state
  dsimp only
  cases v.exhausts config r.iteration <;>
    simp [Table.ofList, Table.get?_put_of_ne, mark, limit]

namespace Services

variable (s : Services η σ)

def Evaluates (w : World η σ) (r : Run) (history : List State) (iteration : Nat)
    (e : EffectivePolicy) : Prop :=
  ∃ c ∈ history, c.phase = .decision ∧ c.iteration = iteration ∧
    Table.get? c.metadata "effective_policy" = some e.toJson ∧
    ∃ v t, s.Passes w r .decision v t ∧ t.iteration = iteration ∧
      v.engine.evaluate (t.policyContext s.config) = e

/-- The dispatches so far state what was in force after the decisions before them. -/
structure Entitled (w : World η σ) (r : Run) (history : List State) (handed : List Dispatch)
    (taken : List EffectivePolicy) : Prop where
  evaluated : ∀ i e, taken[i]? = some e → s.Evaluates w r history i e
  within : ∀ d ∈ handed, d.iteration ≤ taken.length
  lists : ∀ d ∈ handed,
    listed d.policy = (EffectivePolicy.inForce (taken.take d.iteration)).getD ([], [])

variable {s} {w : World η σ} {r : Run} {history : List State} {handed : List Dispatch}
  {taken : List EffectivePolicy}

theorem Evaluates.mono {iteration : Nat} {e : EffectivePolicy} {later : List State}
    (evaluated : s.Evaluates w r history iteration e) (subset : history ⊆ later) :
    s.Evaluates w r later iteration e := by
  obtain ⟨b, member, rest⟩ := evaluated
  exact ⟨b, subset member, rest⟩

theorem Evaluates.append {iteration : Nat} {e : EffectivePolicy}
    (evaluated : s.Evaluates w r history iteration e) (c : State) :
    s.Evaluates w r (history ++ [c]) iteration e :=
  evaluated.mono (List.subset_append_left _ _)

theorem evaluates_concat (evaluated : ∀ i e, taken[i]? = some e → s.Evaluates w r history i e)
    {e : EffectivePolicy} (latest : s.Evaluates w r history taken.length e) (i : Nat)
    (p : EffectivePolicy) (at_ : (taken ++ [e])[i]? = some p) : s.Evaluates w r history i p := by
  by_cases before : i < taken.length
  · rw [List.getElem?_append_left before] at at_
    exact evaluated i p at_
  · rw [List.getElem?_append_right (Nat.le_of_not_lt before)] at at_
    obtain ⟨inside, same⟩ := List.getElem?_eq_some_iff.mp at_
    obtain rfl : e = p := by simpa using same
    have last : i = taken.length := by
      rw [List.length_singleton] at inside
      omega
    rw [last]
    exact latest

theorem Passes.evaluates {v : World η σ} {t : Run} (passed : s.Passes w r .decision v t) :
    s.Evaluates w r (t.history ++ [(s.decision (.of s.config v.engine t) v t).state]) t.iteration
      (Verdict.of s.config v.engine t).effective :=
  ⟨_, List.mem_append_right _ (List.mem_singleton_self _), rfl, rfl, Verdict.state_policy .., v, t,
    passed, rfl, rfl⟩

theorem Entitled.stored (entitled : s.Entitled w r history handed taken) (c : State) :
    s.Entitled w r (history ++ [c]) handed taken where
  evaluated i e at_ := (entitled.evaluated i e at_).append c
  within := entitled.within
  lists := entitled.lists

theorem Entitled.handOn (entitled : s.Entitled w r history handed taken) {more : List Dispatch}
    (now : ∀ d ∈ more, d.iteration = taken.length)
    (states : ∀ d ∈ more, listed d.policy = (EffectivePolicy.inForce taken).getD ([], [])) :
    s.Entitled w r history (handed ++ more) taken where
  evaluated := entitled.evaluated
  within d member := by
    rcases List.mem_append.mp member with before | last
    · exact entitled.within d before
    · exact (now d last).le
  lists d member := by
    rcases List.mem_append.mp member with before | last
    · exact entitled.lists d before
    · rw [states d last, now d last, List.take_length]

theorem Entitled.decide (entitled : s.Entitled w r history handed taken) {e : EffectivePolicy}
    (evaluates : s.Evaluates w r history taken.length e) :
    s.Entitled w r history handed (taken ++ [e]) where
  evaluated := evaluates_concat entitled.evaluated evaluates
  within d member := by
    have before := entitled.within d member
    rw [List.length_append]
    omega
  lists d member := by
    rw [List.take_append_of_le_length (entitled.within d member)]
    exact entitled.lists d member

theorem Entitled.complete {u : World η σ} {p : Run}
    (entitled : s.Entitled w r p.history u.dispatches taken) (d : Decision) :
    s.Entitled w r (s.persist (completion d u p)).run.history
      (s.persist (completion d u p)).world.dispatches taken := by
  obtain ⟨st, _, eq⟩ | ⟨cause, _, eq⟩ := s.persist_cases (completion d u p) <;> rw [eq]
  · have same : (u.time.2.written (.state (completion d u p).state) st).dispatches =
        u.dispatches := World.dispatches_written _ st _
    rw [← same] at entitled
    exact entitled.stored _
  · have same : (u.time.2.note (.refused (.state (completion d u p).state) cause)).dispatches =
        u.dispatches := World.dispatches_refused _ cause _
    rw [← same] at entitled
    exact entitled

variable (s)

def Carries (w : World η σ) (r : Run) (v : World η σ) (t : Run) : Prop :=
  ∃ taken : List EffectivePolicy, taken.length = t.iteration ∧
    t.capabilities = EffectivePolicy.inForce taken ∧
    s.Entitled w r t.history v.dispatches taken

theorem step_carries (fits : s.config.Fits) {phase : Phase} {v : World η σ} {t : Run}
    (passed : s.Passes w r phase v t) (carries : s.Carries w r v t) :
    (s.step phase v t).Holds (fun _ => s.Carries w r)
      fun e => ∃ taken, s.Entitled w r e.run.history e.world.dispatches taken := by
  obtain ⟨taken, count, force, entitled⟩ := carries
  -- a phase that hands nothing on and decides nothing
  have onward {d : Draft η σ} {next : Phase} (handed : d.world.dispatches = v.dispatches)
      (iteration : d.run.iteration = t.iteration)
      (capabilities : d.run.capabilities = t.capabilities)
      (history : d.run.history = t.history) :
      ((s.persist d).goOn (.enter next)).Holds (fun _ => s.Carries w r)
        fun e => ∃ taken, s.Entitled w r e.run.history e.world.dispatches taken := by
    rw [← handed, ← history] at entitled
    refine s.persist_goOn_holds (fun st _ => ⟨taken, ?_, ?_, ?_⟩) fun cause _ => ⟨taken, ?_⟩
    · exact count.trans iteration.symm
    · exact capabilities.trans force
    · rw [World.dispatches_written]
      exact entitled.stored d.state
    · rw [World.dispatches_refused]
      exact entitled
  cases phase with
  | awareness => exact onward (s.awareness_dispatches v t) rfl rfl rfl
  | planning => exact onward (s.planning_dispatches v t) rfl rfl rfl
  | observation => exact onward (s.observation_dispatches v t) rfl rfl rfl
  | complete => exact ⟨taken, entitled⟩
  | delegation =>
    have handed := s.delegation_dispatches v t
    have all : s.Entitled w r t.history (s.delegation v t).world.dispatches taken := by
      rw [handed]
      refine entitled.handOn ?_ ?_
      · intro d member
        obtain ⟨step, -, rfl⟩ := List.mem_map.mp member
        exact count.symm
      · intro d member
        obtain ⟨step, -, rfl⟩ := List.mem_map.mp member
        rw [Run.listed_dispatchOf, force]
    refine s.persist_goOn_holds (fun st _ => ⟨taken, count, force, ?_⟩) fun cause _ => ⟨taken, ?_⟩
    · rw [World.dispatches_written]
      exact all.stored _
    · rw [World.dispatches_refused]
      exact all
  | decision =>
    let verdict := Verdict.of s.config v.engine t
    let c := (s.decision verdict v t).state
    have evaluates : s.Evaluates w r (t.history ++ [c]) taken.length verdict.effective := by
      rw [count]
      exact passed.evaluates
    have carried : (verdict.carry t).capabilities =
        EffectivePolicy.inForce (taken ++ [verdict.effective]) := by
      rw [verdict.carry_capabilities, force, EffectivePolicy.inForce_concat]
    have counted : (taken ++ [verdict.effective]).length = t.iteration + 1 := by
      rw [List.length_append, count, List.length_singleton]
    -- no write of the decision hands anything on
    have logged (log : DecisionLog) (st : Storage) :
        ((s.decision verdict v t).world.written (.log log) st).dispatches = v.dispatches :=
      World.dispatches_written (.log log) st _
    have stored {u : World η σ} (rec : Record) (st : Storage) (same : u.dispatches = v.dispatches) :
        (u.written rec st).dispatches = v.dispatches :=
      (World.dispatches_written rec st u).trans same
    have refused {u : World η σ} (rec : Record) (cause : Interruption)
        (same : u.dispatches = v.dispatches) :
        (u.note (.refused rec cause)).dispatches = v.dispatches :=
      (World.dispatches_refused rec cause u).trans same
    have decided {u : World η σ} (same : u.dispatches = v.dispatches) :
        s.Entitled w r (t.history ++ [c]) u.dispatches (taken ++ [verdict.effective]) := by
      rw [same]
      exact (entitled.stored c).decide evaluates
    have undecided {u : World η σ} (same : u.dispatches = v.dispatches) :
        s.Entitled w r t.history u.dispatches taken := by
      rw [same]
      exact entitled
    refine s.step_decision_holds rfl rfl (fun st _ => ?_) fun cause _ =>
      ⟨taken, undecided (refused _ cause rfl)⟩
    refine s.persist_goOn_holds (fun st' _ => ?_) fun cause _ =>
      ⟨taken, undecided (refused _ cause (logged _ st))⟩
    have ready (log : DecisionLog) := stored (.state c) st' (logged log st)
    obtain ⟨_, _, eq⟩ | ⟨_, _, eq⟩ | ⟨_, _, eq⟩ | ⟨_, eq⟩ | ⟨_, eq⟩ :=
      s.settle_cases fits _ _ _ <;> rw [eq]
    · exact ⟨_, decided (ready _)⟩
    · exact ⟨_, counted, carried, decided (ready _)⟩
    · exact ⟨_, counted, carried, decided (ready _)⟩
    · exact ⟨_, Entitled.complete (decided (ready _)) _⟩
    · exact ⟨_, decided (ready _)⟩

/-- Each dispatch states what is in force after the decisions of the iterations before its own.
Those are the lists of the latest one exactly if it states any, or if none of them has. -/
theorem dispatches_state_lists_in_force (fits : s.config.Fits) (command : String)
    (context : Table Json) (session : Option String) (w : World η σ) (d : Dispatch)
    (handed : .dispatch d ∈ (s.outcome command context session w).world.journal) :
    let start := s.begin command context session w
    let history := (s.execute command context session w).1.history
    ∃ taken : List EffectivePolicy, taken.length = d.iteration ∧
      (∀ i e, taken[i]? = some e → s.Evaluates start.1 start.2 history i e) ∧
      listed d.policy = (EffectivePolicy.inForce taken).getD ([], []) ∧
      ∀ e, taken.getLast? = some e →
        (listed d.policy = (e.allow, e.forbid) ↔
          e.stated? ≠ none ∨ ∀ p ∈ taken, p.stated? = none) := by
  intro start history
  obtain ⟨empty, new, blank, -⟩ := s.begin_blank command context session w
  have first : s.Carries start.1 start.2 start.1 start.2 := by
    have unused : start.2.capabilities = none := by cases session <;> rfl
    have none_handed : start.1.dispatches = [] := by
      unfold World.dispatches
      rw [blank]
      rfl
    have nothing : s.Entitled start.1 start.2 start.2.history [] [] :=
      ⟨by simp, by simp, by simp⟩
    rw [← none_handed] at nothing
    exact ⟨[], new.symm, unused, nothing⟩
  obtain ⟨taken, entitled⟩ := s.drive_holds_along fits new first
    fun phase v t passed carries => s.step_carries fits passed carries
  have same : history = (s.outcome command context session w).run.history :=
    (resultOf_history _).2
  have member := World.mem_dispatches.mpr handed
  have states := entitled.lists d member
  refine ⟨taken.take d.iteration, ?_, ?_, states, ?_⟩
  · exact List.length_take_of_le (entitled.within d member)
  · intro i e at_
    rw [same]
    refine entitled.evaluated i e ?_
    obtain ⟨inside, rfl⟩ := List.getElem?_eq_some_iff.mp at_
    rw [List.getElem_take]
    exact List.getElem?_eq_getElem _
  · intro e latest
    rw [states]
    exact EffectivePolicy.inForce_latest latest

def onceAllowed : World Empty Unit :=
  let effect : RuleEffect := { RuleEffect.none with allow := some ["deploy"] }
  let rule : Rule := ⟨"first", Rule.defaultPriority, [("retry_count", .lt .one)], effect⟩
  { World.initial () with engine := PolicyEngine.empty.set { Policy.empty with rules := [rule] } }

theorem onceAllowed_in_force :
    alone.config.Fits ∧
      ∃ d, .dispatch d ∈ (alone.outcome "go" [] (some "s") onceAllowed).world.journal ∧
        d.iteration = 2 ∧ ∃ taken : List EffectivePolicy, taken.length = 2 ∧
          listed d.policy = (EffectivePolicy.inForce taken).getD ([], []) := by
  have third : ((alone.outcome "go" [] (some "s") onceAllowed).world.dispatches[2]?).map
      (·.iteration) = some 2 := by decide +kernel
  have general := alone.dispatches_state_lists_in_force alone_fits "go" [] (some "s") onceAllowed
  obtain ⟨d, found, two⟩ := Option.map_eq_some_iff.mp third
  have handed := World.mem_dispatches.mp (List.mem_of_getElem? found)
  obtain ⟨taken, count, _, states, _⟩ := general d handed
  exact ⟨alone_fits, d, handed, two, taken, count.trans two, states⟩

/-- What was evaluated to nothing is not what the dispatches after it state: they still allow
what an earlier decision did. -/
theorem lapsed_allowance_stated :
    let e := alone.outcome "go" [] (some "s") onceAllowed
    let evaluated (c : State) : Option (List String × List String) :=
      ((Table.get? c.metadata "effective_policy").bind Json.object?).map listed
    (e.world.dispatches.take 3).map (fun d => (d.iteration, listed d.policy)) =
      [(0, [], []), (1, ["deploy"], []), (2, ["deploy"], [])] ∧
    ((e.run.history.filter (·.phase = .decision)).take 3).map
      (fun c => (c.iteration, evaluated c)) =
      [(0, some (["deploy"], [])), (1, some ([], [])), (2, some ([], []))] := by
  decide +kernel

end Services
end Orchestration
