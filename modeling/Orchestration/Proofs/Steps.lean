import Orchestration.Proofs.Course

/-! What a step can do, said once. A phase makes a draft, and the records of its state are
written one after the other: either one of them is refused, and with that the run is over, or
all are kept, and the loop goes on from there. So it is known of each state of a history where
it was made, and with which history behind it. -/
namespace Orchestration

variable {η σ : Type}

theorem State.writes_of_undecided {a : State} (undecided : a.phase ≠ .decision) :
    a.writes = [.state a] := by
  simp [State.writes, State.mirrors, undecided]

namespace Services

variable (s : Services η σ)

/-- The draft of a phase. The last phase has none: what it comes to is made by the decision
before it. -/
def draft? (phase : Phase) (w : World η σ) (r : Run) : Option (Draft η σ) :=
  match phase with
  | .awareness => some (s.awareness w r)
  | .planning => some (s.planning w r)
  | .delegation => some (s.delegation w r)
  | .observation => some (s.observation w r)
  | .decision => some (s.decision (.of s.config w.engine r) w r)
  | .complete => none

inductive Wrote : List Record → World η σ → World η σ → Prop
  | nil (w : World η σ) : Wrote [] w w
  | cons {rec : Record} {rest : List Record} {w v : World η σ} {st : Storage}
    (added : w.storage.add s.backend rec = .ok st) (more : Wrote rest (w.written rec st) v) :
    Wrote (rec :: rest) w v

variable {s}

theorem draft_continues {phase : Phase} {w : World η σ} {r : Run} {d : Draft η σ}
    (drafted : s.draft? phase w r = some d) : d.Continues w r phase := by
  cases phase <;> cases drafted
  · exact s.awareness_continues w r
  · exact s.planning_continues w r
  · exact s.delegation_continues w r
  · exact s.observation_continues w r
  · exact s.decision_continues _ w r

theorem draft_phase {phase : Phase} {w : World η σ} {r : Run} {d : Draft η σ}
    (drafted : s.draft? phase w r = some d) : d.state.phase = phase :=
  congrArg StateKey.phase (draft_continues drafted).key

theorem Wrote.one {rec : Record} {w : World η σ} {st : Storage}
    (added : w.storage.add s.backend rec = .ok st) : s.Wrote [rec] w (w.written rec st) :=
  .cons added (.nil _)

theorem Wrote.mem_journal {recs : List Record} {w v : World η σ} (wrote : s.Wrote recs w v) :
    (∀ d ∈ w.journal, d ∈ v.journal) ∧ ∀ rec ∈ recs, .stored rec ∈ v.journal := by
  induction wrote with
  | nil => exact ⟨fun _ member => member, by simp⟩
  | cons added more ih =>
    obtain ⟨kept, now⟩ := ih
    refine ⟨fun d member => kept d (List.mem_cons_of_mem _ member), fun rec member => ?_⟩
    rcases List.mem_cons.mp member with rfl | later
    · exact kept _ List.mem_cons_self
    · exact now rec later

variable (s)

/-- The rule for a step: what holds where a record of the draft is refused, and where the loop
goes once the draft is kept, holds where the step leads. -/
theorem step_rule {before : Phase → World η σ → Run → Prop} {after : Standing η σ → Prop}
    {phase : Phase} {w : World η σ} {r : Run} {d : Draft η σ}
    (drafted : s.draft? phase w r = some d)
    (refused : ∀ done rec left v cause, d.state.writes = done ++ rec :: left →
      s.Wrote done d.world v → (s.keep rec v).failure? = some cause →
      after ⟨v.note (.refused rec cause), d.run, some cause⟩)
    (enters : ∀ v next, s.Wrote d.state.writes d.world v → phase.following? = some next →
      before next v (d.run.stored d.state))
    (decides : ∀ v, s.Wrote d.state.writes d.world v → phase = .decision →
      (s.settle (.of s.config w.engine r) v (d.run.stored d.state)).Holds before after) :
    (s.step phase w r).Holds before after := by
  have plain {next : Phase} (follows : phase.following? = some next)
      (writes : d.state.writes = [.state d.state])
      (step : s.step phase w r = (s.persist d).goOn (.enter next)) :
      (s.step phase w r).Holds before after := by
    rw [step]
    refine s.persist_goOn_holds (fun st added => ?_) fun cause failed => ?_
    · exact enters _ _ (by rw [writes]; exact .one added) follows
    · exact refused [] _ [] _ cause writes (.nil _) failed
  have undecided : phase ≠ .decision → d.state.writes = [.state d.state] := fun other =>
    State.writes_of_undecided (by rwa [draft_phase drafted])
  cases phase with
  | awareness => cases drafted; exact plain rfl (undecided (by decide)) rfl
  | planning => cases drafted; exact plain rfl (undecided (by decide)) rfl
  | delegation => cases drafted; exact plain rfl (undecided (by decide)) rfl
  | observation => cases drafted; exact plain rfl (undecided (by decide)) rfl
  | complete => cases drafted
  | decision =>
    cases drafted
    refine s.step_decision_holds rfl rfl (fun st logged => ?_) fun cause failed => ?_
    · refine s.persist_goOn_holds (fun st added => ?_) fun cause failed => ?_
      · exact decides _ (.cons logged (.one added)) rfl
      · exact refused [.log _] _ [] _ cause rfl (.one logged) failed
    · exact refused [] _ _ _ cause rfl (.nil _) failed

/-- The rule for what follows a decision that is kept. -/
theorem settle_rule {before : Phase → World η σ → Run → Prop} {after : Standing η σ → Prop}
    (fits : s.config.Fits) (v : Verdict) {w : World η σ} {r : Run}
    (halts : after (.on w r))
    (retries : v.decision.action = .retry → r.iteration + 1 < s.config.maxIterations →
      before .delegation w { r with iteration := r.iteration + 1 })
    (extended : v.decision.action = .extendPlan → r.iteration + 1 < s.config.maxIterations →
      before .planning w { r with iteration := r.iteration + 1 })
    (completes : v.decision.action = .complete → ∀ st,
      (completion v.decision w r).world.storage.add s.backend
        (.state (completion v.decision w r).state) = .ok st →
      after (.on ((completion v.decision w r).world.written
        (.state (completion v.decision w r).state) st) (r.stored (completion v.decision w r).state)))
    (refused : ∀ cause, (s.keep (.state (completion v.decision w r).state)
        (completion v.decision w r).world).failure? = some cause →
      after ⟨(completion v.decision w r).world.note
        (.refused (.state (completion v.decision w r).state) cause), r, some cause⟩) :
    (s.settle v w r).Holds before after := by
  obtain ⟨_, _, eq⟩ | ⟨action, more, eq⟩ | ⟨action, more, eq⟩ | ⟨action, eq⟩ | ⟨_, eq⟩ :=
    s.settle_cases fits v w r <;> rw [eq]
  · exact halts
  · exact retries action more
  · exact extended action more
  · rw [s.ended_persist]
    exact s.persist_goOn_holds (completes action) refused
  · exact halts

/-! ### Where the loop comes to -/

variable {s} {w v : World η σ} {r t : Run} {phase : Phase}

/-- What holds where a run begins and is handed on by each step that enters a phase, holds
wherever the loop comes to. -/
theorem Passes.induction {P : Phase → World η σ → Run → Prop} (first : P .awareness w r)
    (next : ∀ phase u q, s.Passes w r phase u q → P phase u q →
      (s.step phase u q).Holds P fun _ => True)
    (passed : s.Passes w r phase v t) : P phase v t := by
  obtain ⟨n, reached⟩ := passed
  induction n generalizing phase v t with
  | zero =>
    cases reached
    exact first
  | succ n ih =>
    rw [s.advance_succ] at reached
    cases before : s.advance n (.enter .awareness w r) with
    | ended e =>
      rw [before] at reached
      cases reached
    | enter last u q =>
      rw [before] at reached
      have holds := next last u q ⟨n, before⟩ (ih before)
      change s.step last u q = _ at reached
      rw [reached] at holds
      exact holds

/-- An observation, and a decision, is entered from the phase before it, once its state is
stored. -/
theorem Passes.entered (passed : s.Passes w r phase v t) (fits : s.config.Fits)
    (later : Phase.delegation.ordinal < phase.ordinal) :
    ∃ last u q d, last.following? = some phase ∧ s.Passes w r last u q ∧
      s.draft? last u q = some d ∧ s.Wrote d.state.writes d.world v ∧ t = d.run.stored d.state := by
  let P (phase : Phase) (v : World η σ) (t : Run) : Prop :=
    Phase.delegation.ordinal < phase.ordinal →
      ∃ last u q d, last.following? = some phase ∧ s.Passes w r last u q ∧
        s.draft? last u q = some d ∧ s.Wrote d.state.writes d.world v ∧ t = d.run.stored d.state
  have sooner {next : Phase} (before : next.ordinal ≤ Phase.delegation.ordinal) (u : World η σ)
      (q : Run) : P next u q := fun less => absurd less (Nat.not_lt_of_le before)
  refine passed.induction (P := P) (sooner (by decide) _ _) (fun last u q before _ => ?_) later
  cases drafted : s.draft? last u q with
  | none =>
    cases last <;> cases drafted
    trivial
  | some d =>
    refine s.step_rule drafted (fun _ _ _ _ _ _ _ _ => trivial) (fun _ _ wrote follows _ => ?_)
      fun _ _ _ => ?_
    · exact ⟨last, u, q, d, follows, before, drafted, wrote, rfl⟩
    · exact s.settle_rule fits _ trivial (fun _ _ => sooner (by decide) _ _)
        (fun _ _ => sooner (by decide) _ _) (fun _ _ _ => trivial) fun _ _ => trivial

/-- A run goes by one policy. -/
theorem Passes.engine (passed : s.Passes w r phase v t) (fits : s.config.Fits) :
    v.engine = w.engine :=
  Keeps.passes (P := fun u _ => u.engine = w.engine)
    ⟨fun _ _ _ worked same => worked.engine.trans same, fun _ _ _ _ _ same => same,
      fun _ _ _ _ _ same => same⟩ fits rfl passed

theorem step_history (fits : s.config.Fits) {before : List State}
    (longer : before <+: t.history) :
    (s.step phase v t).Holds (fun _ _ q => before <+: q.history)
      fun e => before <+: e.run.history := by
  cases drafted : s.draft? phase v t with
  | none =>
    cases phase <;> cases drafted
    exact longer
  | some d =>
    have same := (draft_continues drafted).history
    have stored (q : Run) (state : State) (longer : before <+: q.history) :
        before <+: (q.stored state).history := longer.trans (List.prefix_append _ _)
    rw [← same] at longer
    refine s.step_rule drafted (fun _ _ _ _ _ _ _ _ => longer)
      (fun _ _ _ _ => stored _ _ longer) fun _ _ _ => ?_
    exact s.settle_rule fits _ (stored _ _ longer) (fun _ _ => stored _ _ longer)
      (fun _ _ => stored _ _ longer) (fun _ _ _ => stored _ _ (stored _ _ longer))
      fun _ _ => stored _ _ longer

theorem Passes.history_prefix (passed : s.Passes w r phase v t) (fits : s.config.Fits)
    (new : r.iteration = 0) : t.history <+: (s.drive w r).run.history :=
  @Passes.drive_holds η σ s w v r t phase passed fits new (fun _ _ q => t.history <+: q.history)
    (fun e => t.history <+: e.run.history) (List.prefix_refl _)
    fun _ _ _ longer => step_history fits longer

/-! ### Where the states of a history were made -/

variable (s)

/-- Each state of a history but that of the last phase is the draft of its phase, made where
the loop came to enter it with the states before it behind it. -/
def Drawn (w : World η σ) (r : Run) (history : List State) : Prop :=
  ∀ before c, before ++ [c] <+: history → c.phase ≠ .complete →
    ∃ v t d, s.Passes w r c.phase v t ∧ s.draft? c.phase v t = some d ∧ d.state = c ∧
      t.history = before

variable {s} {history : List State}

theorem Drawn.append (drawn : s.Drawn w r history) {c : State}
    (last : c.phase ≠ .complete → ∃ v t d, s.Passes w r c.phase v t ∧
      s.draft? c.phase v t = some d ∧ d.state = c ∧ t.history = history) :
    s.Drawn w r (history ++ [c]) := by
  intro before b reaches live
  rcases List.prefix_concat_iff.mp reaches with whole | earlier
  · obtain ⟨rfl, rfl⟩ := List.append_singleton_inj.mp whole
    exact last live
  · exact drawn before b earlier live

theorem step_drawn (fits : s.config.Fits) (passed : s.Passes w r phase v t)
    (drawn : s.Drawn w r t.history) :
    (s.step phase v t).Holds (fun _ _ t => s.Drawn w r t.history)
      fun e => s.Drawn w r e.run.history := by
  cases drafted : s.draft? phase v t with
  | none =>
    cases phase <;> cases drafted
    exact drawn
  | some d =>
    have same := (draft_continues drafted).history
    have ofPhase := draft_phase drafted
    have stored : s.Drawn w r (d.run.stored d.state).history := by
      change s.Drawn w r (d.run.history ++ [d.state])
      rw [same]
      refine drawn.append fun _ => ⟨v, t, d, ?_, ?_, rfl, rfl⟩ <;> rwa [ofPhase]
    refine s.step_rule drafted (fun _ _ _ _ _ _ _ _ => by rwa [same])
      (fun _ _ _ _ => stored) fun _ _ _ => ?_
    exact s.settle_rule fits _ stored (fun _ _ => stored) (fun _ _ => stored)
      (fun _ _ _ => stored.append fun live => absurd rfl live) fun _ _ => stored

theorem drive_drawn (fits : s.config.Fits) (empty : r.history = []) (new : r.iteration = 0) :
    s.Drawn w r (s.drive w r).run.history := by
  have rule := @drive_holds_along η σ s fits (fun _ _ t => s.Drawn w r t.history)
    (fun e => s.Drawn w r e.run.history) w r
  refine rule new ?_ fun _ _ _ => step_drawn fits
  rw [empty]
  intro before c reaches
  simp at reaches

theorem Drawn.of_mem (drawn : s.Drawn w r history) {c : State} (member : c ∈ history)
    (live : c.phase ≠ .complete) :
    ∃ v t d, s.Passes w r c.phase v t ∧ s.draft? c.phase v t = some d ∧ d.state = c := by
  obtain ⟨before, after, rfl⟩ := List.append_of_mem member
  obtain ⟨v, t, d, passed, drafted, same, _⟩ := drawn before c ⟨after, by simp⟩ live
  exact ⟨v, t, d, passed, drafted, same⟩

end Services
end Orchestration
