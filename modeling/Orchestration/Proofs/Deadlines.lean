import Orchestration.Proofs.Conduct
import Orchestration.Proofs.Unanimity

/-! Results that are there before they are waited for. A wait begins with a look at the bus, so
nothing that is on it by then is missed, however short the wait. But before the look the clock is
asked until when to wait, and it counts the seconds in 63 bits only. The settings admit longer
times than that, and of a round that is to wait so long nothing is summed up. -/
namespace Orchestration

variable {η σ : Type}

/-- The settings are valid whatever time they give a round. -/
theorem LoopConfig.validate_timeout (c : LoopConfig) (seconds : Nat) :
    { c with observationTimeout := seconds }.validate = c.validate := rfl

namespace World

def canCollect (w : World η σ) (session : String) (tasks : List String) (timeout : Nat) : Bool :=
  (uncovered tasks (w.heldBack session)).isEmpty || w.canWait timeout

variable {w : World η σ} {session : String} {tasks : List String} {timeout : Nat}

/-- A collection that gets as far as the bus misses no result that is on it. -/
theorem collect_of_canCollect (h : Handlers η σ)
    (can : w.canCollect session tasks timeout = true) (policy : FanInPolicy) :
    ∃ results, (collect h session tasks timeout policy w).1 = .value (.fanIn (w.heldBack session ++
        outcomes (uncovered tasks (w.heldBack session)) results timeout) policy) ∧
      ∀ task ∈ uncovered tasks (w.heldBack session), ∀ r, w.bus.result? task = some r →
        r ∈ results := by
  obtain ⟨bursts, _, sums⟩ := collect_published h session tasks timeout policy w
  refine ⟨_, sums.trans (if_pos can), fun task waits r there => ?_⟩
  exact mem_heard waits there bursts

theorem collect_of_cannot (h : Handlers η σ)
    (cannot : w.canCollect session tasks timeout = false) (policy : FanInPolicy) :
    ∃ text, (collect h session tasks timeout policy w).1 = .panic text := by
  obtain ⟨bursts, _, sums⟩ := collect_published h session tasks timeout policy w
  refine ⟨_, sums.trans (if_neg ?_)⟩
  exact Bool.eq_false_iff.mp cannot

end World

/-- What a summary shows of an inquiry: what was known without waiting, or what was held back
under the id of the task, or the result that was on the bus. -/
inductive Inquiry.Shown (held : List Observation) (results : Table TaskResult) (summary : Summary)
    (q : Inquiry) : Prop
  | known {o : Observation} (told : q.2 = some o) (found : o.normalize ∈ summary.findings)
  | held {o : Observation} (inside : o ∈ held) (about : o.task? = some q.1.task)
    (found : o.normalize ∈ summary.findings)
  | result {r : TaskResult} (latest : Table.get? results q.1.task = some r)
    (found : .ofResult r ∈ summary.findings)

namespace Services

variable {s : Services η σ}

/-- Where there is no tracker, nothing is known but that a delegation was kept back. -/
theorem known_of_silent (silent : s.status = none) (d : Delegation) (w : World η σ) :
    s.known d w = (if d.dispatched then none
      else some (.failed d.task (.of "dispatch_failed" (d.error.getD ""))), w) := by
  unfold known
  rw [silent]
  cases d.dispatched <;> rfl

theorem prefill_bus_of_silent (silent : s.status = none) (session : String)
    (ds : List Delegation) (w : World η σ) : (s.prefill session ds w).2.bus = w.bus := by
  induction ds generalizing w with
  | nil => rfl
  | cons d rest ih =>
    unfold prefill
    rw [known_of_silent silent]
    cases d.dispatched
    · exact ih _
    · exact ih w

variable (s)

/-- Asking what is known of the delegations takes no result off the bus. -/
theorem prefill_result?_isSome (session : String) (ds : List Delegation) {w : World η σ}
    {task : String} (there : (w.bus.result? task).isSome = true) :
    ((s.prefill session ds w).2.bus.result? task).isSome = true := by
  obtain ⟨messages, published⟩ : World.Heard w (s.prefill session ds w).2 :=
    (s.heard_conducts session).prefill ds w
  unfold Bus.result? at there ⊢
  rw [published.results]
  exact resultsAfter_isSome there messages

def canObserve (w : World η σ) (r : Run) : Bool :=
  (s.prefill r.session r.delegations w).2.canCollect r.session
    (s.prefill r.session r.delegations w).1 (s.config.observationTimeout * 1000)

/-- An observation that does not get as far as the bus comes to nothing. -/
theorem summarize_of_cannot {w : World η σ} {r : Run} (cannot : s.canObserve w r = false) :
    (s.summarize w r).1 = .empty := by
  have delegates : r.delegations ≠ [] := by
    intro none
    unfold canObserve at cannot
    rw [none] at cannot
    cases cannot
  obtain ⟨text, panics⟩ := World.collect_of_cannot s.toHandlers cannot r.fanIn
  rw [s.summarize_collected w delegates, panics]

/-- An observation that gets as far as the bus shows something of every task with a result. -/
theorem summarize_shown {w : World η σ} {r : Run} (can : s.canObserve w r = true) :
    ∀ q ∈ s.inquiries r.session r.delegations w, (w.bus.result? q.1.task).isSome = true →
      q.Shown ((s.prefill r.session r.delegations w).2.heldBack r.session)
        (s.prefill r.session r.delegations w).2.bus.results (s.summarize w r).1 := by
  intro q asked there
  have delegates : r.delegations ≠ [] := by
    intro none
    rw [none] at asked
    cases asked
  obtain ⟨waiting, held⟩ := s.prefill_inquiries r.session r.delegations w
  have latest := s.prefill_result?_isSome r.session r.delegations there
  obtain ⟨results, sums, hears⟩ := World.collect_of_canCollect s.toHandlers can r.fanIn
  rw [s.summarize_collected w delegates, sums]
  cases told : q.2 with
  | some o =>
    have inside : o ∈ (s.prefill r.session r.delegations w).2.heldBack r.session := by
      rw [held]
      exact List.mem_append_right _ (List.mem_filterMap.mpr ⟨q, asked, told⟩)
    exact .known told (Summary.mem_findings_fanIn (List.mem_append_left _ inside) _)
  | none =>
    have asks : q.1.task ∈ (s.prefill r.session r.delegations w).1 := by
      rw [waiting]
      exact Inquiry.mem_waiting.mpr ⟨q, asked, told, rfl⟩
    obtain ⟨o, inside, about⟩ | waits := World.held_or_uncovered
      ((s.prefill r.session r.delegations w).2.heldBack r.session) asks
    · exact .held inside about (Summary.mem_findings_fanIn (List.mem_append_left _ inside) _)
    · obtain ⟨x, found⟩ := Option.isSome_iff_exists.mp latest
      have answered : .typed x ∈ results.map Observation.typed :=
        List.mem_map_of_mem (hears _ waits x found)
      refine .result found (Summary.mem_findings_fanIn (o := .typed x) ?_ _)
      exact List.mem_append_right _ (List.mem_append_left _ answered)

theorem canObserve_eq_false_iff (w : World η σ) (r : Run) :
    s.canObserve w r = false ↔
      World.uncovered (s.prefill r.session r.delegations w).1
          ((s.prefill r.session r.delegations w).2.heldBack r.session) ≠ [] ∧
        twoTo 63 * 1000 ≤ (s.prefill r.session r.delegations w).2.clock +
          s.config.observationTimeout * 1000 + 1000 := by
  simp [canObserve, World.canCollect, World.canWait]

/-- Where there is no tracker, the result of a task is shown if nothing else goes by the id. -/
theorem summarize_result {w : World η σ} {r : Run} (can : s.canObserve w r = true)
    (silent : s.status = none) {d : Delegation} (delegated : d ∈ r.delegations)
    (dispatched : d.dispatched = true)
    (apart : ∀ p ∈ r.delegations, p.dispatched = false → p.task ≠ d.task)
    (free : ∀ o ∈ w.heldBack r.session, o.task? ≠ some d.task) {x : TaskResult}
    (there : w.bus.result? d.task = some x) : .ofResult x ∈ (s.summarize w r).1.findings := by
  have known := s.inquiries_known r.session r.delegations w
  have all := s.inquiries_delegations r.session r.delegations w
  obtain ⟨q, asked, rfl⟩ : ∃ q ∈ s.inquiries r.session r.delegations w, q.1 = d := by
    rw [← all] at delegated
    exact List.mem_map.mp delegated
  have shown := s.summarize_shown can q asked (Option.isSome_of_mem there)
  cases shown with
  | known told found =>
    obtain ⟨u, same⟩ := known q asked
    rw [known_of_silent silent, if_pos dispatched, told] at same
    cases same
  | held inside about found =>
    rw [(s.prefill_inquiries r.session r.delegations w).2] at inside
    rcases List.mem_append.mp inside with before | now
    · exact absurd about (free _ before)
    · obtain ⟨p, other, told⟩ := List.mem_filterMap.mp now
      have member : p.1 ∈ r.delegations := all ▸ List.mem_map_of_mem other
      obtain ⟨u, same⟩ := known p other
      rw [known_of_silent silent, told] at same
      cases kept : p.1.dispatched with
      | true =>
        rw [kept] at same
        cases same
      | false =>
        rw [kept] at same
        obtain rfl := Option.some.inj same
        rw [Observation.failed_task] at about
        exact absurd (Option.some.inj about) (apart p.1 member kept)
  | result latest found =>
    rw [prefill_bus_of_silent silent] at latest
    obtain rfl := Option.some.inj (there.symm.trans latest)
    exact found

/-- No result that is on the bus when a round is observed is missed, unless the clock cannot tell
until when to wait; then nothing is observed at all. A result gives way to what is known of its
task without waiting, which only a tracker or what was held back can tell. -/
theorem results_at_hand_observed (fits : s.config.Fits) (command : String) (context : Table Json)
    (session : Option String) (w : World η σ) :
    let start := s.begin command context session w
    let history := (s.execute command context session w).1.history
    ∀ c ∈ history, c.phase = .observation →
      ∃ b ∈ history, b.phase = .delegation ∧ b.iteration = c.iteration ∧
      ∃ v t summary, s.Passes start.1 start.2 .observation v t ∧
        b.delegations = some t.delegations ∧ c.observations = some summary ∧
        let asked := s.inquiries t.session t.delegations v
        let (waiting, filled) := s.prefill t.session t.delegations v
        let held := filled.heldBack t.session
        asked.map (·.1) = t.delegations ∧ (∀ q ∈ asked, ∃ u, (s.known q.1 u).1 = q.2) ∧
        (s.canObserve v t = false ↔ World.uncovered waiting held ≠ [] ∧
          twoTo 63 * 1000 ≤ filled.clock + s.config.observationTimeout * 1000 + 1000) ∧
        (s.canObserve v t = false → summary = .empty) ∧
        (s.canObserve v t = true →
          (∀ q ∈ asked, (v.bus.result? q.1.task).isSome = true →
            q.Shown held filled.bus.results summary) ∧
          (s.status = none → ∀ d ∈ t.delegations, d.dispatched = true →
            (∀ p ∈ t.delegations, p.dispatched = false → p.task ≠ d.task) →
            (∀ o ∈ v.heldBack t.session, o.task? ≠ some d.task) →
            ∀ x, v.bus.result? d.task = some x → .ofResult x ∈ summary.findings)) := by
  intro start history c member phase
  obtain ⟨empty, new, _, _⟩ := s.begin_blank command context session w
  have same : history = (s.drive start.1 start.2).run.history := (resultOf_history _).2
  have grounded : s.Grounded start.1 start.2 history c := by
    rw [same] at member ⊢
    exact s.drive_grounded fits empty new c member
  obtain ⟨summary, observations, v, t, passed, rfl, b, stored, delegation, iteration, delegations⟩ :=
    grounded.observed phase
  refine ⟨b, stored, delegation, iteration, v, t, _, passed, delegations, observations,
    s.inquiries_delegations .., s.inquiries_known _ _ _, s.canObserve_eq_false_iff v t,
    s.summarize_of_cannot, fun can => ⟨s.summarize_shown can, ?_⟩⟩
  intro silent d delegated dispatched apart free x there
  exact s.summarize_result can silent delegated dispatched apart free there

def patient (seconds : Nat) : Services Empty Unit :=
  { agreed with config := { agreed.config with observationTimeout := seconds } }

theorem patient_valid (seconds : Nat) : (patient seconds).config.validate = .ok () := by
  unfold patient
  rw [LoopConfig.validate_timeout]
  exact agreed_valid

theorem patient_fits {seconds : Nat} (within : seconds < twoTo 64) :
    (patient seconds).config.Fits :=
  { agreed_fits with observationTimeout := within }

theorem patient_observes :
    let s := patient (twoTo 63 - 2)
    s.config.Fits ∧ ∃ c ∈ (s.execute "go" [] (some "s") (.initial ())).1.history,
      c.phase = .observation ∧ ∃ v t summary, c.observations = some summary ∧ summary.total = 2 ∧
        s.canObserve v t = true ∧ ∀ q ∈ s.inquiries t.session t.delegations v,
          (v.bus.result? q.1.task).isSome = true → ∃ held results, q.Shown held results summary := by
  intro s
  let history := (s.execute "go" [] (some "s") (.initial ())).1.history
  have fits : s.config.Fits := patient_fits (by decide)
  obtain ⟨c, member, phase, counted⟩ : ∃ c ∈ history, c.phase = .observation ∧
      c.observations.map (·.total) = some 2 := by decide +kernel
  obtain ⟨summary, own, two⟩ := Option.map_eq_some_iff.mp counted
  obtain ⟨_, _, _, _, v, t, same, _, _, observations, _, _, _, cannot, shown⟩ :=
    s.results_at_hand_observed fits "go" [] (some "s") (.initial ()) c member phase
  obtain rfl : summary = same := Option.some.inj (own.symm.trans observations)
  have can : s.canObserve v t = true := by
    by_contra blind
    rw [cannot (Bool.eq_false_iff.mpr blind)] at two
    cases two
  refine ⟨fits, c, member, phase, v, t, summary, own, two, can, fun q asked there => ?_⟩
  exact ⟨_, _, (shown can).1 q asked there⟩

def atHand : Station Empty Unit → List (Option TaskStatus)
  | .enter .observation v t => t.delegations.map fun d => (v.bus.result? d.task).map (·.status)
  | _ => []

/-- With one second more, both results are on the bus and neither is observed. -/
theorem results_at_hand_lost :
    let s := patient (twoTo 63 - 1)
    let start := s.begin "go" [] (some "s") (.initial ())
    s.config.validate = .ok () ∧ s.config.Fits ∧
      atHand (s.advance 3 (.enter .awareness start.1 start.2)) = [some .success, some .success] ∧
      (s.execute "go" [] (some "s") (.initial ())).1.history.map
        (fun c => (c.phase, c.observations.map (·.findings.length))) =
      [(.awareness, none), (.planning, none), (.delegation, none), (.observation, some 0),
        (.decision, some 0)] := by
  intro s start
  refine ⟨patient_valid _, patient_fits (by decide), ?_, ?_⟩ <;> decide +kernel

end Services
end Orchestration
