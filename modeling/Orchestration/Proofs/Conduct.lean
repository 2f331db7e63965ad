import Orchestration.Proofs.Accounts
import Orchestration.Proofs.Collision
import Orchestration.Proofs.Dispatches
import Orchestration.Proofs.Steps

/-! What holds of all that a run does in the world. A phase asks, waits, holds back, collects and
announces, and nothing else; so a relation between worlds that each of these keeps to is kept to
by every phase and by the whole run. What is handed on during a run stays handed on. -/
namespace Orchestration

variable {η σ α : Type}

theorem World.heldBack_of_buffer {v w : World η σ} (same : w.buffer = v.buffer) (name : String) :
    w.heldBack name = v.heldBack name := by
  rw [heldBack, same]
  rfl

structure World.Beside (v w : World η σ) : Prop where
  bus : w.bus = v.bus
  timers : w.timers = v.timers
  buffer : w.buffer = v.buffer
  parts : w.parts = v.parts

namespace World.Beside

theorem refl (w : World η σ) : Beside w w := ⟨rfl, rfl, rfl, rfl⟩

theorem trans {u v w : World η σ} (first : Beside u v) (second : Beside v w) : Beside u w :=
  ⟨second.bus.trans first.bus, second.timers.trans first.timers,
    second.buffer.trans first.buffer, second.parts.trans first.parts⟩

theorem note (d : Deed) (w : World η σ) : Beside w (w.note d) := ⟨rfl, rfl, rfl, rfl⟩

theorem time (w : World η σ) : Beside w w.time.2 := ⟨rfl, rfl, rfl, rfl⟩

theorem written (rec : Record) (st : Storage) (w : World η σ) : Beside w (w.written rec st) :=
  ⟨rfl, rfl, rfl, rfl⟩

end World.Beside

namespace Services

variable (s : Services η σ)

/-- All that a phase may do keeps to a relation between worlds: what makes no difference to the
bus and the buffer, the reactions of those who are asked, as long
as what is handed on is handed on in this session and under ids of this kind, and the session's
own use of the bus and of the buffer. -/
structure Conducts (session : String) (own : String → Prop)
    (R : World η σ → World η σ → Prop) : Prop where
  beside : ∀ {v w}, World.Beside v w → R v w
  trans : ∀ {u v w}, R u v → R v w → R u w
  classify : ∀ command context w, R w (World.call s.toHandlers (s.classify command context) w).2
  plan : ∀ command c context w, R w (World.call s.toHandlers (s.plan command c context) w).2
  dispatch : ∀ d w, d.session = session → own d.task →
    R w (World.call s.toHandlers (s.dispatch d) w).2
  status : ∀ status task w, s.status = some status → R w (World.call s.toHandlers (status task) w).2
  pass : ∀ span w, R w (World.pass s.toHandlers span w)
  hold : ∀ o w, R w (w.hold session o)
  collect : ∀ tasks timeout policy w,
    R w (World.collect s.toHandlers session tasks timeout policy w).2
  publish : ∀ iteration summary w,
    R w (World.publish s.toHandlers (.summary session iteration summary) w).2

variable {s} {session : String} {own : String → Prop} {R : World η σ → World η σ → Prop}

namespace Conducts

theorem ask (conducts : s.Conducts session own R) (deed : Deed) {a : Reaction η σ α}
    (reacts : ∀ w, R w (World.call s.toHandlers a w).2) (w : World η σ) :
    R w (s.ask deed a w).2 :=
  conducts.trans (conducts.beside (.note deed w)) (reacts (w.note deed))

theorem delegateAll (conducts : s.Conducts session own R) {r : Run} (same : r.session = session)
    {steps : List PlanStep} (owns : ∀ step ∈ steps, own (r.taskOf step.id)) (w : World η σ) :
    R w (s.delegateAll r steps w).2 := by
  induction steps generalizing w with
  | nil => exact conducts.beside (.refl w)
  | cons step rest ih =>
    let d := r.dispatchOf s.config.taskTimeout step
    have first := conducts.ask (.dispatch d)
      (fun v => conducts.dispatch d v same (owns step List.mem_cons_self)) w
    exact conducts.trans first (ih (fun step later => owns step (List.mem_cons_of_mem _ later)) _)

theorem known (conducts : s.Conducts session own R) (d : Delegation) (w : World η σ) :
    R w (s.known d w).2 := by
  unfold Services.known
  split
  · exact conducts.beside (.refl w)
  · split
    · exact conducts.beside (.refl w)
    · rename_i status told
      have asked := conducts.ask (.status d.task) (fun v => conducts.status status d.task v told) w
      split <;> rename_i heq <;> rw [heq] at asked
      · split <;> exact asked
      · exact asked

theorem prefill (conducts : s.Conducts session own R) (ds : List Delegation) (w : World η σ) :
    R w (s.prefill session ds w).2 := by
  induction ds generalizing w with
  | nil => exact conducts.beside (.refl w)
  | cons d rest ih =>
    have first := conducts.known d w
    unfold Services.prefill
    split <;> rename_i heq <;> rw [heq] at first
    · exact conducts.trans first (conducts.trans (conducts.hold _ _) (ih _))
    · exact conducts.trans first (ih _)

theorem summarize (conducts : s.Conducts session own R) {r : Run} (same : r.session = session)
    (w : World η σ) : R w (s.summarize w r).2 := by
  unfold Services.summarize
  rw [same]
  split
  · exact conducts.beside (.refl w)
  · have filled := conducts.prefill r.delegations w
    have collected := conducts.collect (s.prefill session r.delegations w).1
      (s.config.observationTimeout * 1000) r.fanIn (s.prefill session r.delegations w).2
    dsimp only
    split <;> rename_i heq <;> rw [heq] at collected <;> exact conducts.trans filled collected

theorem draft (conducts : s.Conducts session own R) {phase : Phase} {w : World η σ} {r : Run}
    {d : Draft η σ} (same : r.session = session)
    (owns : phase = .delegation → ∀ step ∈ r.plan, own (r.taskOf step.id))
    (drafted : s.draft? phase w r = some d) : R w d.world := by
  have timed {v : World η σ} (before : R w v) : R w v.time.2 :=
    conducts.trans before (conducts.beside (.time v))
  cases phase <;> cases drafted
  · exact timed (conducts.ask _ (conducts.classify _ _) w)
  · exact timed (conducts.ask _ (conducts.plan _ _ _) w)
  · have rested : R w (s.backOff w r.pause) := conducts.pass _ w
    exact timed (conducts.trans rested
      (conducts.delegateAll (r := { r with pause := 0 }) same (owns rfl) _))
  · have announced : R w (s.announce (.summary r.session r.iteration (s.summarize w r).1)
        (s.summarize w r).2) := by
      rw [same]
      exact conducts.trans (conducts.summarize same w)
        (conducts.trans (conducts.beside (.note _ _)) (conducts.publish _ _ _))
    exact timed announced
  · exact conducts.beside (.time w)

end Conducts

theorem Wrote.same {recs : List Record} {v w : World η σ} (wrote : s.Wrote recs v w) :
    World.Beside v w ∧ w.dispatches = v.dispatches := by
  induction wrote with
  | nil w => exact ⟨.refl w, rfl⟩
  | @cons rec _ w _ st _ _ ih =>
    exact ⟨(World.Beside.written rec st w).trans ih.1,
      ih.2.trans (World.dispatches_written rec st w)⟩

theorem draft_dispatches {phase : Phase} {w : World η σ} {r : Run} {d : Draft η σ}
    (drafted : s.draft? phase w r = some d) : d.world.dispatches = w.dispatches ++
      if phase = .delegation then r.plan.map (r.dispatchOf s.config.taskTimeout) else [] := by
  cases phase <;> cases drafted
  · exact (s.awareness_dispatches w r).trans (List.append_nil _).symm
  · exact (s.planning_dispatches w r).trans (List.append_nil _).symm
  · exact s.delegation_dispatches w r
  · exact (s.observation_dispatches w r).trans (List.append_nil _).symm
  · exact (List.append_nil _).symm

variable (s)

structure Lasts (session : String) (P : World η σ → Prop) : Prop where
  timed : ∀ {w}, P w → P w.time.2
  written : ∀ {rec st w}, rec.session = session → w.storage.add s.backend rec = .ok st → P w →
    P (w.written rec st)
  refused : ∀ {rec cause w}, P w → P (w.note (.refused rec cause))

variable {s} {w v : World η σ} {r t : Run} {phase : Phase}

namespace Lasts

variable {P : World η σ → Prop}

theorem of_beside (beside : ∀ {v w}, World.Beside v w → w.dispatches = v.dispatches → P v → P w) :
    s.Lasts session P where
  timed before := beside (.time _) rfl before
  written _ _ before := beside (.written _ _ _) (World.dispatches_written _ _ _) before
  refused before := beside (.note _ _) (World.dispatches_refused _ _ _) before

theorem wrote (lasts : s.Lasts session P) {recs : List Record}
    (own : ∀ rec ∈ recs, rec.session = session) (wrote : s.Wrote recs v w) (before : P v) : P w := by
  induction wrote with
  | nil => exact before
  | cons added more ih =>
    have stored := lasts.written (own _ List.mem_cons_self) added before
    exact ih (fun rec later => own rec (List.mem_cons_of_mem _ later)) stored

/-- What holds of the world after a draft holds of it where the step leads. -/
theorem step (lasts : s.Lasts session P) (fits : s.config.Fits) (same : t.session = session)
    {d : Draft η σ} (drafted : s.draft? phase v t = some d) (made : P d.world) :
    (s.step phase v t).Holds (fun _ u _ => P u) fun e => P e.world := by
  have continues := draft_continues drafted
  have own : ∀ rec ∈ d.state.writes, rec.session = session := fun rec member => by
    rw [Record.session, State.writes_key rec member, continues.key]
    exact same
  have written {u : World η σ} {recs : List Record} (part : ∀ rec ∈ recs, rec ∈ d.state.writes)
      (wrote : s.Wrote recs d.world u) : P u :=
    lasts.wrote (fun rec member => own rec (part rec member)) wrote made
  refine s.step_rule drafted (fun done rec left u cause split wrote _ => ?_)
    (fun _ _ wrote _ => written (fun _ => id) wrote) fun u wrote _ => ?_
  · exact lasts.refused (written (fun _ member => by rw [split]; simp [member]) wrote)
  · have stored := written (fun _ => id) wrote
    have named : d.run.session = session := continues.session.trans same
    exact s.settle_rule fits _ stored (fun _ _ => stored) (fun _ _ => stored)
      (fun _ _ added => lasts.written named added (lasts.timed stored))
      fun _ _ => lasts.refused (lasts.timed stored)

end Lasts

theorem Passes.session_eq (passed : s.Passes w r phase v t) (fits : s.config.Fits) :
    t.session = r.session :=
  Keeps.passes (P := fun _ name => name = r.session)
    ⟨fun _ _ _ _ same => same, fun _ _ _ _ _ same => same, fun _ _ _ _ _ same => same⟩
    fits rfl passed

/-- What each draft leaves as it was holds of the whole run. -/
theorem Lasts.drive {P : World η σ → Prop} (lasts : s.Lasts r.session P) (fits : s.config.Fits)
    (new : r.iteration = 0) (first : P w)
    (drafts : ∀ phase v t d, s.Passes w r phase v t → s.draft? phase v t = some d → P v →
      P d.world) :
    (∀ phase v t, s.Passes w r phase v t → P v) ∧ P (s.drive w r).world := by
  have step (phase : Phase) (v : World η σ) (t : Run) (passed : s.Passes w r phase v t)
      (before : P v) : (s.step phase v t).Holds (fun _ u _ => P u) fun e => P e.world := by
    cases drafted : s.draft? phase v t with
    | none =>
      cases phase <;> cases drafted
      exact before
    | some d =>
      exact lasts.step fits (passed.session_eq fits) drafted (drafts phase v t d passed drafted before)
  refine ⟨fun phase v t passed => ?_, ?_⟩
  · refine passed.induction (P := fun _ u _ => P u) first fun phase u q passed before => ?_
    have holds := step phase u q passed before
    cases reached : s.step phase u q <;> rw [reached] at holds
    · exact holds
    · trivial
  · have rule := @drive_holds_along η σ s fits (fun _ u _ => P u) (fun e => P e.world) w r
    exact rule new first step

/-- What a draft of the loop has handed on, the run has handed on. -/
theorem Passes.dispatches_prefix (passed : s.Passes w r phase v t) (fits : s.config.Fits)
    (new : r.iteration = 0) {d : Draft η σ} (drafted : s.draft? phase v t = some d) :
    d.world.dispatches <+: (s.drive w r).world.dispatches := by
  let P (u : World η σ) : Prop := d.world.dispatches <+: u.dispatches
  have lasts (name : String) : s.Lasts name P := .of_beside fun _ same before => by
    change _ <+: World.dispatches _
    rw [same]
    exact before
  have rule := @Passes.drive_holds η σ s w v r t phase passed fits new
    (fun p u q => (p = phase ∧ v = u ∧ t = q) ∨ P u) fun e => P e.world
  refine rule (.inl ⟨rfl, rfl, rfl⟩) fun p u q here => ?_
  have after : (s.step p u q).Holds (fun _ u _ => P u) fun e => P e.world := by
    rcases here with ⟨rfl, rfl, rfl⟩ | before
    · exact (lasts _).step fits rfl drafted (List.prefix_refl _)
    · cases next : s.draft? p u q with
      | none =>
        cases p <;> cases next
        exact before
      | some c =>
        refine (lasts _).step fits rfl next ?_
        change _ <+: c.world.dispatches
        rw [draft_dispatches next]
        exact before.trans (List.prefix_append _ _)
  cases reached : s.step p u q <;> rw [reached] at after
  · exact .inr after
  · exact after

/-- What is so of each draft and not undone by writing holds of the whole run. -/
theorem Conducts.drive (conducts : s.Conducts session own R) (fits : s.config.Fits)
    (new : r.iteration = 0) (same : r.session = session)
    (owns : ∀ d ∈ (s.drive w r).world.dispatches, own d.task) :
    (∀ phase v t, s.Passes w r phase v t → R w v) ∧ R w (s.drive w r).world := by
  have lasts : s.Lasts r.session (R w) :=
    .of_beside fun beside _ before => conducts.trans before (conducts.beside beside)
  refine lasts.drive fits new (conducts.beside (.refl w)) fun phase v t d passed drafted before => ?_
  refine conducts.trans before (conducts.draft ((passed.session_eq fits).trans same) ?_ drafted)
  rintro rfl step inPlan
  have handed : t.dispatchOf s.config.taskTimeout step ∈ d.world.dispatches := by
    rw [draft_dispatches drafted, if_pos rfl]
    exact List.mem_append_right _ (List.mem_map_of_mem inPlan)
  exact owns _ ((passed.dispatches_prefix fits new drafted).subset handed)

/-- All that a run does to the bus is to have messages published on it, itself or by others. -/
theorem heard_conducts (session : String) : s.Conducts session (fun _ => True) World.Heard where
  beside same := .of_bus (congrArg Bus.results same.bus) (congrArg Bus.mailboxes same.bus)
  trans first second := second.before first
  classify _ _ w := World.heard_stepwise.call s.toHandlers w _
  plan _ _ _ w := World.heard_stepwise.call s.toHandlers w _
  dispatch _ w _ _ := World.heard_stepwise.call s.toHandlers w _
  status _ _ w _ := World.heard_stepwise.call s.toHandlers w _
  pass span w := World.heard_stepwise.pass s.toHandlers w span
  hold _ _ := .of_bus rfl rfl
  collect tasks timeout policy w := by
    obtain ⟨bursts, published, _⟩ := World.collect_published s.toHandlers session tasks timeout
      policy w
    exact ⟨_, published⟩
  publish _ _ w := World.heard_stepwise.publish s.toHandlers w _

/-! ### What is held back -/

variable (s)

theorem ask_buffer (deed : Deed) (a : Reaction η σ α) (w : World η σ) :
    (s.ask deed a w).2.buffer = w.buffer :=
  (World.call_undisturbed s.toHandlers a (w.note deed)).buffer

theorem delegateAll_buffer (r : Run) (steps : List PlanStep) (w : World η σ) :
    (s.delegateAll r steps w).2.buffer = w.buffer := by
  induction steps generalizing w with
  | nil => rfl
  | cons step rest ih => exact (ih _).trans (s.ask_buffer _ _ w)

variable {s}

/-- Only an observation makes use of the buffer. -/
theorem draft_buffer {d : Draft η σ} (drafted : s.draft? phase w r = some d)
    (other : phase ≠ .observation) : d.world.buffer = w.buffer := by
  cases phase <;> cases drafted
  · exact s.ask_buffer _ _ w
  · exact s.ask_buffer _ _ w
  · exact (s.delegateAll_buffer _ _ _).trans (World.pass_undisturbed s.toHandlers _ w).buffer
  · exact absurd rfl other
  · rfl

variable (s)

theorem prefill_heldBack_of_ne {session other : String} (ne : other ≠ session)
    (ds : List Delegation) (w : World η σ) :
    (s.prefill session ds w).2.heldBack other = w.heldBack other := by
  induction ds generalizing w with
  | nil => rfl
  | cons d rest ih =>
    have same := s.known_heldBack d w other
    unfold prefill
    split <;> rename_i heq <;> rw [heq] at same
    · rw [ih, ← same]
      simp [World.hold, World.heldBack, Table.get?_put_of_ne _ _ ne]
    · exact (ih _).trans same

/-- An observation takes what is held back for its session, if anything was delegated, and
leaves what is held back for others. -/
theorem observation_heldBack (w : World η σ) (r : Run) (name : String) :
    (s.observation w r).world.heldBack name =
      if name = r.session ∧ r.delegations ≠ [] then [] else w.heldBack name := by
  have announced (m : Message) (v : World η σ) : (s.announce m v).heldBack name = v.heldBack name :=
    World.heldBack_of_buffer
      (World.publish_undisturbed s.toHandlers m (v.note (.publish m))).buffer name
  have summed : (s.summarize w r).2.heldBack name =
      if name = r.session ∧ r.delegations ≠ [] then [] else w.heldBack name := by
    unfold summarize
    by_cases none : r.delegations = []
    · rw [if_pos (List.isEmpty_iff.mpr none), if_neg (fun both => both.2 none)]
    · rw [if_neg (by simpa using none)]
      have taken := (World.collect_undisturbed s.toHandlers r.session
        (s.prefill r.session r.delegations w).1 (s.config.observationTimeout * 1000) r.fanIn
        (s.prefill r.session r.delegations w).2).buffer
      have left : (World.collect s.toHandlers r.session (s.prefill r.session r.delegations w).1
          (s.config.observationTimeout * 1000) r.fanIn
          (s.prefill r.session r.delegations w).2).2.heldBack name =
          if name = r.session ∧ r.delegations ≠ [] then [] else w.heldBack name := by
        unfold World.heldBack
        rw [taken]
        by_cases own : name = r.session
        · rw [if_pos ⟨own, none⟩, own, Table.get?_erase_self]
          rfl
        · rw [if_neg (fun both => own both.1), Table.get?_erase_of_ne _ own]
          exact s.prefill_heldBack_of_ne own _ w
      dsimp only
      split <;> rename_i heq <;> rw [heq] at left <;> exact left
  exact (announced _ _).trans summed

end Services
end Orchestration
