import Orchestration.Proofs.Round
import Orchestration.Proofs.Waiting

/-! What a collection makes of what it is asked for. It sums up what was held back, then the results
of the other tasks, and then a failure for each request that nothing answers. It joins the
subscribers for as long as it waits, and no trace of that is left: the subscriptions are what the
others have made of them meanwhile. -/
namespace Orchestration

variable {η σ : Type}

/-! ### Subscriptions that come and go -/

section Transient

variable {past during : List (Happening η)} {own : Subscription η}

def Subscription.isOther (own s : Subscription η) : Bool := !(s.topic = own.topic && s.id = own.id)

/-- Up to its own end, a subscription makes no difference to the others. -/
theorem standing_filter_other (past during : List (Happening η)) (own : Subscription η) :
    (standing (past ++ .subscribed own :: during)).filter own.isOther =
      (standing (past ++ during)).filter own.isOther := by
  -- from the end: what happens last does the same to the others on either side
  induction during using List.reverseRecOn with
  | nil =>
    have itself : own.isOther own = false := by simp [Subscription.isOther]
    rw [standing_concat, List.append_nil]
    simp [Happening.subscription?, Happening.ends, itself]
  | append_singleton rest e ih =>
    rw [← List.cons_append, ← List.append_assoc, ← List.append_assoc, standing_concat,
      standing_concat, List.filter_append, List.filter_append, List.filter_filter,
      List.filter_filter]
    have swap (subscriptions : List (Subscription η)) :
        subscriptions.filter (fun s => own.isOther s && !e.ends s) =
          (subscriptions.filter own.isOther).filter (!e.ends ·) := by
      rw [List.filter_filter]
      exact List.filter_congr fun s _ => Bool.and_comm ..
    rw [swap, swap, ih]

/-- A subscription that has come and gone leaves the others as they are without it. -/
theorem standing_transient (apart : ∀ s ∈ standing (past ++ during), own.isOther s = true) :
    standing (past ++ .subscribed own :: (during ++ [.unsubscribed own.topic own.id])) =
      standing (past ++ during) := by
  rw [← List.cons_append, ← List.append_assoc, standing_concat]
  have left := standing_filter_other past during own
  rw [List.filter_eq_self.mpr apart] at left
  exact (List.append_nil _).trans left

theorem standing_quiet (quiet : ∀ e ∈ during, e.subscription? = none ∧ ∀ s, e.ends s = false) :
    standing (past ++ during) = standing past := by
  induction during using List.reverseRecOn with
  | nil => rw [List.append_nil]
  | append_singleton rest e ih =>
    obtain ⟨joins, leaves⟩ := quiet e (by simp)
    have earlier := ih fun f member => quiet f (List.mem_append_left _ member)
    rw [← List.append_assoc, standing_concat, earlier, joins]
    simp [leaves]

/-- Nobody has the id of another one, before or later. -/
theorem Recounts.isOther {b : Bus η} (told : Recounts (past ++ .subscribed own :: during) b) :
    ∀ s ∈ standing (past ++ during), own.isOther s = true := by
  intro s stands
  have mine := told.ids past own during rfl
  obtain ⟨before, after, split⟩ := subscribed_of_standing stands
  have different : s.id ≠ own.id := by
    rcases split_append.mp split with ⟨rest, earlier, _⟩ | ⟨rest, rfl, later⟩
    · have his := told.ids before s (rest ++ .subscribed own :: during) (by simp [earlier])
      rw [earlier] at mine
      have fewer : (joined before).length <
          (joined (before ++ .subscribed s :: rest)).length := by
        simp [joined, Happening.subscription?]
      omega
    · have his := told.ids (past ++ .subscribed own :: rest) s after (by simp [later])
      have fewer : (joined past).length <
          (joined (past ++ .subscribed own :: rest)).length := by
        simp [joined, Happening.subscription?]
      omega
  simp [Subscription.isOther, different]

end Transient

theorem World.heldBack_collect (h : Handlers η σ) (session : String) (tasks : List String)
    (timeout : Nat) (policy : FanInPolicy) (w : World η σ) (name : String) :
    (collect h session tasks timeout policy w).2.heldBack name =
      if name = session then [] else w.heldBack name := by
  unfold heldBack
  rw [(collect_undisturbed h session tasks timeout policy w).buffer]
  by_cases own : name = session
  · simp [own]
  · rw [Table.get?_erase_of_ne _ own, if_neg own]

namespace Chronicle

/-! ### What is remembered stays remembered -/

theorem publish_past (h : Handlers η σ) (m : Message) (c : Chronicle η σ) :
    c.past <+: (c.publish h m).2.past := by
  obtain ⟨events, past, _⟩ := (publishWithin_follows h m (c := c) rfl).1
  exact ⟨events, past.symm⟩

theorem fire_past (h : Handlers η σ) (instant : Nat) (c : Chronicle η σ) :
    c.past <+: (c.fire h instant).past := by
  refine List.foldlRecOn (motive := fun (d : Chronicle η σ) => c.past <+: d.past) _ _
    (List.prefix_refl c.past) ?_
  intro d prior t _
  exact prior.trans (publish_past h t.message d)

theorem undergo_past (h : Handlers η σ) (c : Chronicle η σ) (i : Incident η) :
    c.past <+: (c.undergo h i).past := by
  cases i with
  | call call =>
    cases call with
    | publish m => exact publish_past h m c
    | subscribe | unsubscribe | drain | clear => exact List.prefix_append _ _
  | due instant => exact fire_past h instant c
  | idle instant => exact List.prefix_refl _

theorem moments_past (h : Handlers η σ) (bouts : List (List (Incident η))) (c : Chronicle η σ) :
    ∀ u ∈ c.moments h bouts, c.past <+: u.past := by
  induction bouts generalizing c with
  | nil => simp [moments]
  | cons bout rest ih =>
    refine List.forall_mem_cons.mpr ⟨List.prefix_refl _, fun u later => ?_⟩
    refine List.IsPrefix.trans ?_ (ih _ u later)
    refine List.foldlRecOn (motive := fun (d : Chronicle η σ) => c.past <+: d.past) _ _
      (List.prefix_refl _) ?_
    intro d prior i _
    exact prior.trans (undergo_past h d i)

/-! ### The collection -/

def collecting (c : Chronicle η σ) (session : String) : Chronicle η σ :=
  ((c.aside { c.world with buffer := Table.erase c.world.buffer session } rfl).subscribe
    .result none).2

/-- The looks decide what a wait returns, and what has happened by the first of them is remembered
at the last one. -/
theorem WaitsAlone.returns {h : Handlers η σ} {tasks : List String} {deadline : Nat}
    {c last : Chronicle η σ} {before : List (Chronicle η σ)} {results : List TaskResult}
    (waits : WaitsAlone h tasks deadline [] c (before ++ [last]) results) :
    results = tasks.eraseDups.filterMap (firstSeen (before ++ [last])) ∧ c.past <+: last.past := by
  obtain ⟨bouts, _, ended⟩ := waits
  obtain ⟨prior, took, _⟩ := awaitAmid_some ended
  refine ⟨took.trans (inRequestOrder_gatherAll tasks _), moments_past h bouts c last ?_⟩
  exact prior.subset (by simp)

theorem outcomes_firstSeen (tasks : List String) (seen : List (Chronicle η σ)) (timeout : Nat) :
    World.outcomes tasks (tasks.eraseDups.filterMap (firstSeen seen)) timeout =
      (tasks.eraseDups.filterMap (firstSeen seen)).map .typed ++
        (tasks.filter fun task => (firstSeen seen task).isNone).map
          (.failed · (World.timeoutIssue timeout)) := by
  refine congrArg (_ ++ List.map _ ·) (List.filter_congr fun task asked => ?_)
  have named : task ∈ (tasks.eraseDups.filterMap (firstSeen seen)).map (·.task) ↔
      (firstSeen seen task).isSome = true := by
    rw [map_task_filterMap, List.mem_filter, List.mem_eraseDups, and_iff_right asked]
  rw [← Option.not_isSome, Bool.not_inj_iff, Bool.eq_iff_iff, ← named, List.any_eq_true,
    List.mem_map]
  simp only [decide_eq_true_iff]

theorem collect_waits (h : Handlers η σ) (c : Chronicle η σ) (session : String)
    {tasks waiting : List String} {timeout : Nat} (policy : FanInPolicy)
    (can : c.world.canWait timeout = true)
    (rest : World.uncovered tasks (c.world.heldBack session) = waiting) (some : waiting ≠ []) :
    ∃ before last results,
      WaitsAlone h waiting (c.world.clock + timeout) [] (c.collecting session) (before ++ [last])
        results ∧
      World.collect h session tasks timeout policy c.world =
        (.value (.fanIn
            (c.world.heldBack session ++ World.outcomes waiting results timeout) policy),
          (last.unsubscribe .result c.world.bus.nextId).2.world) := by
  subst rest
  obtain ⟨before, last, ends, waits⟩ := await_waits h
    (World.uncovered tasks (c.world.heldBack session)) timeout (c.collecting session)
  have leaves : (last.unsubscribe .result c.world.bus.nextId).2.world =
      { last.world with bus := (last.world.bus.unsubscribe .result c.world.bus.nextId).2 } := rfl
  refine ⟨before, last, _, waits, ?_⟩
  unfold World.collect
  dsimp only
  rw [if_neg (by simpa using some), if_neg (by simpa [World.canWait] using can), leaves, ends]
  rfl

/-- Whoever collected leaves nothing behind when he goes. -/
theorem unsubscribe_standing {c last : Chronicle η σ} {session : String}
    {during : List (Happening η)} (past : last.past = (c.collecting session).past ++ during) :
    (last.unsubscribe .result c.world.bus.nextId).2.world.bus.subscriptions =
      standing (c.past ++ during) := by
  have split : last.past =
      c.past ++ .subscribed ⟨c.world.bus.nextId, .result, none⟩ :: during :=
    past.trans (List.append_assoc ..)
  have apart := (split ▸ last.told).isOther
  refine (last.unsubscribe .result c.world.bus.nextId).2.told.subscriptions.trans ?_
  change standing (last.past ++ _) = _
  rw [split, List.append_assoc]
  exact standing_transient apart

/-- Whatever was held back and whenever results come, a collection sums up the observations that
were held back, then the result of each other task that was answered, and then a failure for each
request that nothing answered, so that every request is accounted for. Of the tasks that an
observation held back goes by, none is waited for; where nobody is, nothing happens on the bus.
The observations of the other sessions stay, and the subscriptions are those that stand by what
else has happened. -/
theorem collection_accounts_for_requests (h : Handlers η σ) (c : Chronicle η σ) (session : String)
    (tasks : List String) (timeout : Nat) (policy : FanInPolicy)
    (can : c.world.canWait timeout = true) :
    let held := c.world.heldBack session
    let waiting := tasks.filter fun task => ∀ o ∈ held, o.task? ≠ some task
    let collected := World.collect h session tasks timeout policy c.world
    ∃ before last during,
      let seen := before ++ [last]
      let answers := waiting.eraseDups.filterMap (firstSeen seen)
      let summary := Summary.fanIn (held ++ (answers.map .typed ++
        (waiting.filter fun task => (firstSeen seen task).isNone).map
          (.failed · (World.timeoutIssue timeout)))) policy
      collected.1 = .value summary ∧
      (∀ task ∈ tasks, ∃ f ∈ summary.findings, f.task = task) ∧
      WaitsAlone h waiting (c.world.clock + timeout) [] (c.collecting session) seen answers ∧
      collected.2.clock = last.world.clock ∧
      collected.2.bus.results = last.world.bus.results ∧
      last.past = (c.collecting session).past ++ during ∧
      collected.2.bus.subscriptions = standing (c.past ++ during) ∧
      ((∀ e ∈ during, e.subscription? = none ∧ ∀ s, e.ends s = false) →
        collected.2.bus.subscriptions = c.world.bus.subscriptions) ∧
      (waiting = [] → collected.2.bus = c.world.bus ∧ collected.2.clock = c.world.clock) ∧
      ∀ name, collected.2.heldBack name = if name = session then [] else c.world.heldBack name := by
  intro held waiting collected
  have same : World.uncovered tasks held = waiting := by
    refine List.filter_congr fun task _ => ?_
    rw [Bool.eq_iff_iff]
    simp
  have told (results : List TaskResult) : ∀ task ∈ tasks,
      ∃ f ∈ (Summary.fanIn (held ++ World.outcomes waiting results timeout) policy).findings,
        f.task = task := by
    intro task asked
    obtain ⟨o, there, about⟩ := World.spoken held results timeout asked
    exact ⟨_, Summary.mem_findings_fanIn (same ▸ there) policy, Observation.normalize_task about⟩
  have emptied := World.heldBack_collect h session tasks timeout policy c.world
  by_cases none : waiting = []
  · have alone : collected = (.value (.fanIn held policy),
        { c.world with buffer := Table.erase c.world.buffer session }) := by
      refine if_pos ?_
      rw [same, none]
      rfl
    have summed : collected.1 = .value (.fanIn (held ++ World.outcomes [] [] timeout) policy) := by
      rw [alone, show World.outcomes [] [] timeout = [] from rfl, List.append_nil]
    have told := none ▸ told []
    rw [none]
    refine ⟨[], c.collecting session, [], summed, told, .single (.inl rfl), ?_⟩
    rw [alone, List.append_nil, List.append_nil]
    exact ⟨rfl, rfl, rfl, c.told.subscriptions, fun _ => rfl, fun _ => ⟨rfl, rfl⟩, alone ▸ emptied⟩
  · obtain ⟨before, last, results, waits, ended⟩ := collect_waits h c session policy can
      same none
    obtain ⟨rfl, during, past⟩ := waits.returns
    have told := told (waiting.eraseDups.filterMap (firstSeen (before ++ [last])))
    rw [outcomes_firstSeen] at ended told
    have left : collected.2.bus.subscriptions = standing (c.past ++ during) := by
      rw [show collected = _ from ended]
      exact unsubscribe_standing past.symm
    have latest : collected.2.clock = last.world.clock ∧
        collected.2.bus.results = last.world.bus.results := by
      rw [show collected = _ from ended]
      exact ⟨rfl, rfl⟩
    refine ⟨before, last, during, congrArg Prod.fst ended, told, waits, latest.1, latest.2,
      past.symm, left, fun quiet => ?_, fun absent => absurd absent none, emptied⟩
    rw [left, standing_quiet quiet, c.told.subscriptions]

/-- One task is held back, one is answered while the others wait, and one never is. -/
theorem late_task_accounted_for :
    let result (task : String) : TaskResult := .bare "s" task "w" .success ⟨0, 0⟩
    let c : Chronicle Empty Unit := .start { World.initial () with
      timers := [⟨4, .result (result "b")⟩]
      buffer := [("s", [.typed (result "a")]), ("t", [.typed (result "b")])] } 100
    let tasks := ["c", "a", "b", "c", "b"]
    let collected := World.collect ⟨nofun, 0⟩ "s" tasks 10 .default c.world
    ∃ summary, collected.1 = .value summary ∧
      (∀ task ∈ tasks, ∃ f ∈ summary.findings, f.task = task) ∧
      summary.findings.map (fun f => (f.task, f.status)) =
        [("a", .success), ("b", .success), ("c", .failed), ("c", .failed)] ∧
      collected.2.bus.subscriptions.isEmpty ∧ collected.2.clock = 10 := by
  intro result c tasks collected
  have statuses : collected.1.guarded.toOption.map
      (fun summary => summary.findings.map fun f => (f.task, f.status)) =
        some [("a", .success), ("b", .success), ("c", .failed), ("c", .failed)] := by
    decide +kernel
  have left : collected.2.bus.subscriptions.isEmpty ∧ collected.2.clock = 10 := by decide +kernel
  obtain ⟨_, _, _, value, named, _⟩ :=
    collection_accounts_for_requests ⟨nofun, 0⟩ c "s" tasks 10 .default (by decide +kernel)
  rw [show collected.1 = _ from value] at statuses
  exact ⟨_, value, named, Option.some.inj statuses, left⟩

end Chronicle
end Orchestration
