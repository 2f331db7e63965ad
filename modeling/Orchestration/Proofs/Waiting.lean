import Orchestration.Proofs.Chronicle
import Orchestration.Proofs.Hearing

/-! Waits, look by look. Whoever waits for results looks at the bus at once and again whenever he is
woken, and between two looks anything may be done with the bus: results come, take the place of
others, or go with their session. What he takes away of each task is the first result that he sees
of it, and he leaves with the first look by which he has one of each or the time is up. -/
namespace Orchestration

variable {η σ α : Type}

inductive Incident (η : Type) where
  /-- somebody does something with the bus -/
  | call (c : BusCall η)
  /-- the clock goes on to an instant, and what is due by then is published -/
  | due (instant : Nat)
  /-- the clock goes on to an instant, and nobody acts -/
  | idle (instant : Nat)

namespace World

/-! ### Nobody who acts moves the clock -/

structure StandsAt (instant : Nat) (w : World η σ) : Prop where
  clock : w.clock = instant
  ahead : ∀ t ∈ w.timers, instant < t.due

section Stands

variable {instant : Nat} {w : World η σ}

theorem standsAt_lasting (h : Handlers η σ) (instant : Nat) :
    Lasting h (fun _ => True) (fun _ => True) True (StandsAt instant) where
  parts _ := trivial
  reacts _ _ _ _ _ := Reaction.keeps_true _
  keep stands _ _ := ⟨stands.clock, stands.ahead⟩
  time stands := ⟨stands.clock, stands.ahead⟩
  accept stands _ _ := ⟨stands.clock, stands.ahead⟩
  setTimer stands delay m _ := by
    refine ⟨stands.clock, fun t member => ?_⟩
    rcases mem_insertTimer member with rfl | before
    · rw [← stands.clock]
      exact Nat.lt_add_of_pos_right (Nat.le_max_left ..)
    · exact stands.ahead t before
  join _ _ stands _ _ := ⟨stands.clock, stands.ahead⟩
  leave _ _ stands _ _ := ⟨stands.clock, stands.ahead⟩

theorem fire_standsAt (h : Handlers η σ) (instant : Nat) (w : World η σ) :
    StandsAt instant (fire h instant w) := by
  refine (standsAt_lasting h instant).fire (fun _ _ => trivial) ⟨rfl, fun t member => ?_⟩
  exact of_decide_eq_true (List.mem_filter.mp member).2

/-- The next instant to look at comes no later than what is due next. -/
theorem nextInstant_due (ahead : ∀ t ∈ w.timers, instant < t.due) (limit : Nat) :
    ∀ t ∈ w.timers.head?, w.nextInstant instant limit ≤ t.due := by
  intro t first
  have later := ahead t (List.mem_of_mem_head? first)
  unfold nextInstant
  rw [Option.mem_def.mp first]
  exact Nat.max_le.mpr ⟨later, Nat.min_le_right ..⟩

end Stands

theorem nextInstant_le (w : World η σ) {instant limit : Nat} (before : instant < limit) :
    w.nextInstant instant limit ≤ limit :=
  Nat.max_le.mpr ⟨before, Nat.min_le_left ..⟩

theorem isComplete_iff {tasks : List String} {gathered : Table TaskResult} :
    isComplete tasks gathered = true ↔ ∀ task ∈ tasks, (Table.get? gathered task).isSome = true :=
  List.all_eq_true

end World

namespace Chronicle

def fire (h : Handlers η σ) (instant : Nat) (c : Chronicle η σ) : Chronicle η σ :=
  (c.world.timers.filter (·.due ≤ instant)).foldl (fun c t => (publish h t.message c).2)
    (c.aside { c.world with
      clock := instant
      timers := c.world.timers.filter (instant < ·.due) } rfl)

theorem fire_world (h : Handlers η σ) (instant : Nat) (c : Chronicle η σ) :
    (c.fire h instant).world = World.fire h instant c.world := by
  refine (List.foldl_hom world fun c t => ?_).symm
  exact (congrArg Prod.snd (publishWithin_world h h.nesting t.message c)).symm

def undergo (h : Handlers η σ) (c : Chronicle η σ) : Incident η → Chronicle η σ
  | .call call => c.use h call
  | .due instant => c.fire h instant
  | .idle instant => c.aside { c.world with clock := instant } rfl

/-- Time passes and nothing else happens. Nothing that was due next is passed by. -/
def Lapses (c : Chronicle η σ) : Incident η → Prop
  | .call _ => False
  | .due instant => c.world.clock = instant ∨
    c.world.clock < instant ∧ ∀ t ∈ c.world.timers.head?, instant ≤ t.due
  | .idle instant => c.world.clock < instant ∧ ∀ t ∈ c.world.timers.head?, instant ≤ t.due

def moments (h : Handlers η σ) (c : Chronicle η σ) :
    List (List (Incident η)) → List (Chronicle η σ)
  | [] => [c]
  | bout :: rest => c :: (bout.foldl (undergo h) c).moments h rest

def Ready (tasks : List String) (deadline : Nat) (gathered : Table TaskResult)
    (c : Chronicle η σ) : Prop :=
  World.isComplete tasks (gather tasks gathered c.world.bus.results) = true ∨
    deadline ≤ c.world.clock

instance (tasks : List String) (deadline : Nat) (gathered : Table TaskResult)
    (c : Chronicle η σ) : Decidable (Ready tasks deadline gathered c) :=
  inferInstanceAs (Decidable (_ ∨ _))

/-- A wait amid what others do: what it returns, and the moments at which it has looked. It is not
over if it may look no more. -/
def awaitAmid (h : Handlers η σ) (tasks : List String) (deadline : Nat)
    (gathered : Table TaskResult) (c : Chronicle η σ) (bouts : List (List (Incident η))) :
    Option (List TaskResult × List (Chronicle η σ)) :=
  let found := gather tasks gathered c.world.bus.results
  if Ready tasks deadline gathered c then some (inRequestOrder tasks found, [c])
  else match bouts with
    | [] => none
    | bout :: rest => ((bout.foldl (undergo h) c).awaitAmid h tasks deadline found rest).map
        fun (results, looks) => (results, c :: looks)

def firstSeen (seen : List (Chronicle η σ)) (task : String) : Option TaskResult :=
  seen.findSome? (·.world.bus.result? task)

/-! ### What is gathered is what was seen first -/

def gatherAll (tasks : List String) (gathered : Table TaskResult) (seen : List (Chronicle η σ)) :
    Table TaskResult :=
  seen.foldl (fun gathered c => gather tasks gathered c.world.bus.results) gathered

theorem get?_gatherAll {tasks : List String} {task : String} (asked : task ∈ tasks)
    (gathered : Table TaskResult) (seen : List (Chronicle η σ)) :
    Table.get? (gatherAll tasks gathered seen) task =
      (Table.get? gathered task).or (firstSeen seen task) := by
  induction seen generalizing gathered with
  | nil => exact (Option.or_none).symm
  | cons c rest ih =>
    change Table.get? (gatherAll tasks (gather tasks gathered c.world.bus.results) rest) task = _
    rw [ih, get?_gather, if_pos asked, Option.or_assoc]
    unfold firstSeen
    rw [List.findSome?_cons]
    change (Table.get? gathered task).or ((c.world.bus.result? task).or _) = _
    cases c.world.bus.result? task <;> rfl

theorem isComplete_gatherAll {tasks : List String} {seen : List (Chronicle η σ)} :
    World.isComplete tasks (gatherAll tasks [] seen) = true ↔
      ∀ task ∈ tasks, (firstSeen seen task).isSome = true := by
  rw [World.isComplete_iff]
  refine forall₂_congr fun task asked => ?_
  rw [get?_gatherAll asked]
  rfl

theorem inRequestOrder_gatherAll (tasks : List String) (seen : List (Chronicle η σ)) :
    inRequestOrder tasks (gatherAll tasks [] seen) =
      tasks.eraseDups.filterMap (firstSeen seen) := by
  refine List.filterMap_congr fun task member => ?_
  rw [get?_gatherAll (List.mem_eraseDups.mp member)]
  rfl

theorem firstSeen_isSome {seen : List (Chronicle η σ)} {task : String} :
    (firstSeen seen task).isSome = true ↔
      ∃ c ∈ seen, (c.world.bus.result? task).isSome = true :=
  List.findSome?_isSome_iff

theorem firstSeen_task {seen : List (Chronicle η σ)} {task : String} {r : TaskResult}
    (found : firstSeen seen task = some r) : r.task = task := by
  obtain ⟨c, _, there⟩ := List.exists_of_findSome?_eq_some found
  exact ((c.told.results task r).mp there).1

theorem map_task_filterMap (seen : List (Chronicle η σ)) (tasks : List String) :
    (tasks.filterMap (firstSeen seen)).map (·.task) =
      tasks.filter fun task => (firstSeen seen task).isSome := by
  induction tasks with
  | nil => rfl
  | cons task rest ih =>
    cases found : firstSeen seen task with
    | none => simp [found, ih]
    | some r => simp [found, ih, firstSeen_task found]

/-! ### When a wait is over, and with what -/

section Amid

variable {h : Handlers η σ} {tasks : List String} {deadline : Nat} {gathered : Table TaskResult}
  {c : Chronicle η σ} {bouts : List (List (Incident η))}

theorem awaitAmid_ready (ready : Ready tasks deadline gathered c) :
    c.awaitAmid h tasks deadline gathered bouts =
      some (inRequestOrder tasks (gather tasks gathered c.world.bus.results), [c]) := by
  unfold awaitAmid
  exact if_pos ready

theorem awaitAmid_cons (goesOn : ¬Ready tasks deadline gathered c) (bout : List (Incident η))
    (rest : List (List (Incident η))) :
    c.awaitAmid h tasks deadline gathered (bout :: rest) =
      ((bout.foldl (undergo h) c).awaitAmid h tasks deadline
        (gather tasks gathered c.world.bus.results) rest).map
          fun (results, looks) => (results, c :: looks) := by
  conv_lhs => unfold awaitAmid
  exact if_neg goesOn

theorem awaitAmid_nil (goesOn : ¬Ready tasks deadline gathered c) :
    c.awaitAmid h tasks deadline gathered [] = none := by
  unfold awaitAmid
  exact if_neg goesOn

theorem isComplete_more (complete : World.isComplete tasks gathered = true)
    (seen : List (Chronicle η σ)) :
    World.isComplete tasks (gatherAll tasks gathered seen) = true := by
  rw [World.isComplete_iff] at complete ⊢
  intro task asked
  obtain ⟨r, found⟩ := Option.isSome_iff_exists.mp (complete task asked)
  rw [get?_gatherAll asked, found]
  rfl

theorem mem_moments (h : Handlers η σ) (c : Chronicle η σ) (bouts : List (List (Incident η))) :
    c ∈ c.moments h bouts := by
  cases bouts <;> exact List.mem_cons_self

theorem awaitAmid_isSome :
    (c.awaitAmid h tasks deadline gathered bouts).isSome = true ↔
      (∃ u ∈ c.moments h bouts, deadline ≤ u.world.clock) ∨
        World.isComplete tasks (gatherAll tasks gathered (c.moments h bouts)) = true := by
  induction bouts generalizing c gathered with
  | nil =>
    by_cases ready : Ready tasks deadline gathered c
    · rw [awaitAmid_ready ready]
      simpa [moments, gatherAll] using ready.symm
    · rw [awaitAmid_nil ready]
      simpa [moments, gatherAll, Ready, and_comm] using ready
  | cons bout rest ih =>
    by_cases ready : Ready tasks deadline gathered c
    · rw [awaitAmid_ready ready]
      refine iff_of_true rfl ?_
      rcases ready with complete | late
      · exact .inr (isComplete_more complete _)
      · exact .inl ⟨c, mem_moments h c _, late⟩
    · have onward : c.moments h (bout :: rest) =
          c :: (bout.foldl (undergo h) c).moments h rest := rfl
      rw [awaitAmid_cons ready, Option.isSome_map, ih, onward, List.exists_mem_cons_iff,
        or_iff_right (not_or.mp ready).2]
      rfl

/-- A wait takes what it sees first, and only its last look is late or finds nothing missing. -/
theorem awaitAmid_some {results : List TaskResult} {looks : List (Chronicle η σ)}
    (ended : c.awaitAmid h tasks deadline gathered bouts = some (results, looks)) :
    looks <+: c.moments h bouts ∧ results = inRequestOrder tasks (gatherAll tasks gathered looks) ∧
      ∃ before last, looks = before ++ [last] ∧ (∀ u ∈ before, u.world.clock < deadline) ∧
        (deadline ≤ last.world.clock ∨
          World.isComplete tasks (gatherAll tasks gathered looks) = true) := by
  -- on the bouts, with whatever has been gathered by then
  induction bouts generalizing c gathered results looks with
  | nil =>
    by_cases ready : Ready tasks deadline gathered c
    · cases (awaitAmid_ready ready).symm.trans ended
      exact ⟨List.prefix_refl _, rfl, [], c, rfl, by simp, ready.symm⟩
    · cases (awaitAmid_nil ready).symm.trans ended
  | cons bout rest ih =>
    by_cases ready : Ready tasks deadline gathered c
    · cases (awaitAmid_ready ready).symm.trans ended
      exact ⟨List.prefix_append [c] _, rfl, [], c, rfl, by simp, ready.symm⟩
    · rw [awaitAmid_cons ready] at ended
      obtain ⟨⟨results, looks⟩, later, same⟩ := Option.map_eq_some_iff.mp ended
      cases same
      obtain ⟨prior, took, before, last, split, early, done⟩ := ih later
      refine ⟨(List.prefix_cons_inj c).mpr prior, took, c :: before, last, congrArg (c :: ·) split,
        List.forall_mem_cons.mpr ⟨?_, early⟩, done⟩
      exact Nat.lt_of_not_le (not_or.mp ready).2

end Amid

/-! ### The wait of a world on its own -/

def Lapsing (h : Handlers η σ) (c : Chronicle η σ) : List (List (Incident η)) → Prop
  | [] => True
  | bout :: rest => (∃ i, bout = [i] ∧ c.Lapses i) ∧ (bout.foldl (undergo h) c).Lapsing h rest

/-- While nothing happens but that time passes, a wait looks at the bus at some moments, and is
over with the last of them. -/
def WaitsAlone (h : Handlers η σ) (tasks : List String) (deadline : Nat)
    (gathered : Table TaskResult) (c : Chronicle η σ) (looks : List (Chronicle η σ))
    (results : List TaskResult) : Prop :=
  ∃ bouts, c.Lapsing h bouts ∧
    c.awaitAmid h tasks deadline gathered bouts = some (results, looks)

section Alone

variable {h : Handlers η σ} {tasks : List String} {deadline : Nat} {gathered : Table TaskResult}
  {c : Chronicle η σ} {looks : List (Chronicle η σ)} {results : List TaskResult}

theorem WaitsAlone.single (ready : Ready tasks deadline gathered c) :
    WaitsAlone h tasks deadline gathered c [c]
      (inRequestOrder tasks (gather tasks gathered c.world.bus.results)) :=
  ⟨[], trivial, awaitAmid_ready ready⟩

theorem WaitsAlone.cons (goesOn : ¬Ready tasks deadline gathered c) (i : Incident η)
    (lapse : c.Lapses i)
    (rest : WaitsAlone h tasks deadline (gather tasks gathered c.world.bus.results)
      (c.undergo h i) looks results) :
    WaitsAlone h tasks deadline gathered c (c :: looks) results := by
  obtain ⟨bouts, lapses, ended⟩ := rest
  refine ⟨[i] :: bouts, ⟨⟨i, rfl, lapse⟩, lapses⟩, ?_⟩
  exact (awaitAmid_cons goesOn _ _).trans (Option.map_eq_some_iff.mpr ⟨_, ended, rfl⟩)

theorem gatherFrom_waits (h : Handlers η σ) (tasks : List String) {deadline : Nat} (instant : Nat)
    (gathered : Table TaskResult) {c : Chronicle η σ} (now : c.world.clock = instant)
    (ahead : instant < deadline → ∀ t ∈ c.world.timers, instant < t.due)
    (within : instant ≤ deadline) :
    ∃ before last, last.world = (World.gatherFrom h tasks deadline instant gathered c.world).2 ∧
      WaitsAlone h tasks deadline gathered c (before ++ [last])
        (inRequestOrder tasks (World.gatherFrom h tasks deadline instant gathered c.world).1) := by
  generalize same : c.world = w
  fun_induction World.gatherFrom h tasks deadline instant gathered w generalizing c with
  | case1 =>
    rename_i complete
    subst same
    exact ⟨[], c, rfl, .single (.inl complete)⟩
  | case2 =>
    rename_i missing early next ih
    subst same
    have goesOn := not_or.mpr ⟨missing, show ¬deadline ≤ c.world.clock by omega⟩
    have inTime : next ≤ deadline := World.nextInstant_le c.world early
    have onward : c.world.clock < next := now ▸ Nat.le_max_left ..
    have due : ∀ t ∈ c.world.timers.head?, next ≤ t.due :=
      World.nextInstant_due (ahead early) deadline
    by_cases soon : next < deadline
    · have fired : (c.undergo h (.due next)).world = _ := fire_world h next c
      have stands := World.fire_standsAt h next c.world
      obtain ⟨before, last, ends, waits⟩ := ih (c := c.undergo h (.due next))
        (fired ▸ stands.clock) (fun _ => fired ▸ stands.ahead) inTime
        (fired.trans (if_pos soon).symm)
      exact ⟨c :: before, last, ends, waits.cons goesOn (.due next) (.inr ⟨onward, due⟩)⟩
    · -- what is due at the deadline itself comes after the last look
      have level : next = deadline := Nat.le_antisymm inTime (Nat.le_of_not_lt soon)
      obtain ⟨before, last, ends, waits⟩ := ih (c := c.undergo h (.idle deadline))
        level.symm (fun early => absurd (level ▸ early) (Nat.lt_irrefl _)) inTime
        (if_neg soon).symm
      rw [level] at onward due
      exact ⟨c :: before, last, ends, waits.cons goesOn (.idle deadline) ⟨onward, due⟩⟩
  | case3 =>
    rename_i missing late
    subst same
    exact ⟨[], c, rfl, .single (.inr (by omega))⟩

theorem await_waits (h : Handlers η σ) (tasks : List String) (timeout : Nat)
    (c : Chronicle η σ) :
    ∃ before last, last.world = (World.await h tasks timeout c.world).2 ∧
      WaitsAlone h tasks (c.world.clock + timeout) [] c (before ++ [last])
        (World.await h tasks timeout c.world).1 := by
  unfold World.await
  dsimp only
  by_cases ready : World.isComplete tasks (gather tasks [] c.world.bus.results) = true ∨ timeout = 0
  · rw [if_pos ready]
    exact ⟨[], c, rfl, .single (ready.imp_right (by omega))⟩
  · rw [if_neg ready]
    have goesOn : ¬Ready tasks (c.world.clock + timeout) [] c := by
      refine mt (Or.imp_right fun late => ?_) ready
      omega
    -- what is due by now comes before the second look
    have fired : (c.undergo h (.due c.world.clock)).world = _ := fire_world h c.world.clock c
    have stands := World.fire_standsAt h c.world.clock c.world
    obtain ⟨before, last, ends, waits⟩ := gatherFrom_waits h tasks c.world.clock
      (gather tasks [] c.world.bus.results) (c := c.undergo h (.due c.world.clock))
      (fired ▸ stands.clock) (fun _ => fired ▸ stands.ahead) (Nat.le_add_right _ timeout)
    rw [fired] at ends waits
    exact ⟨c :: before, last, ends, waits.cons goesOn (.due c.world.clock) (.inl rfl)⟩

end Alone

/-- Whatever is published, overwritten or cleared between its looks, a wait is over as soon as it
has seen a result of every task, or looks at the deadline or later, and not before. It returns
those tasks of which it has seen a result, in the order of the first request for each and each of
them once, with the result that it saw first, so that nothing is missed that is there at its last
look. The wait of a world on its own is one of these, and always over at last. -/
theorem waits_return_first_seen (h : Handlers η σ) (c : Chronicle η σ) (tasks : List String)
    (timeout : Nat) :
    let deadline := c.world.clock + timeout
    (∀ bouts,
      ((c.awaitAmid h tasks deadline [] bouts).isSome = true ↔
        (∃ u ∈ c.moments h bouts, deadline ≤ u.world.clock) ∨
          ∀ task ∈ tasks, ∃ u ∈ c.moments h bouts, (u.world.bus.result? task).isSome = true) ∧
      ∀ results looks, c.awaitAmid h tasks deadline [] bouts = some (results, looks) →
        looks <+: c.moments h bouts ∧
        results = tasks.eraseDups.filterMap (firstSeen looks) ∧
        (∀ task, task ∈ results.map (·.task) ↔
          task ∈ tasks ∧ ∃ u ∈ looks, (u.world.bus.result? task).isSome = true) ∧
        (results.map (·.task)).Sublist tasks.eraseDups ∧
        ∃ before last, looks = before ++ [last] ∧ (∀ u ∈ before, u.world.clock < deadline) ∧
          (last.world.clock < deadline → ∀ task ∈ tasks, task ∈ results.map (·.task))) ∧
    ∃ before last, last.world = (World.await h tasks timeout c.world).2 ∧
      WaitsAlone h tasks deadline [] c (before ++ [last])
        (World.await h tasks timeout c.world).1 := by
  intro deadline
  refine ⟨fun bouts => ⟨?_, fun results looks ended => ?_⟩, await_waits h tasks timeout c⟩
  · rw [awaitAmid_isSome, isComplete_gatherAll]
    simp only [firstSeen_isSome]
  · obtain ⟨prior, took, before, last, split, early, ready⟩ := awaitAmid_some ended
    rw [inRequestOrder_gatherAll] at took
    have ids : results.map (·.task) =
        tasks.eraseDups.filter fun task => (firstSeen looks task).isSome := by
      rw [took, map_task_filterMap]
    have named (task : String) : task ∈ results.map (·.task) ↔ task ∈ tasks ∧
        (firstSeen looks task).isSome = true := by
      rw [ids, List.mem_filter, List.mem_eraseDups]
    refine ⟨prior, took, ?_, ids ▸ List.filter_sublist, before, last, split, early, ?_⟩
    · simpa only [firstSeen_isSome] using named
    · intro inTime task asked
      have complete := ready.resolve_left (Nat.not_le.mpr inTime)
      exact (named task).mpr ⟨asked, isComplete_gatherAll.mp complete task asked⟩

/-- The first result of a task stays with whoever waits, although another one takes its place and
is cleared before the other task is done. -/
theorem cleared_first_seen :
    let c : Chronicle Empty Unit := .start (.initial ()) 100
    let result (task : String) (status : TaskStatus) : Incident Empty :=
      .call (.publish (.result (.bare "s" task "w" status ⟨0, 0⟩)))
    let bouts := [[result "a" .failed], [result "a" .success, .call (.clear "s")],
      [.idle 3, result "b" .success], [.idle 4]]
    ∃ results looks,
      c.awaitAmid ⟨nofun, 0⟩ ["b", "a", "b"] 10 [] bouts = some (results, looks) ∧
      looks <+: c.moments ⟨nofun, 0⟩ bouts ∧
      results = ["b", "a"].filterMap (firstSeen looks) ∧
      results.map (fun r => (r.task, r.status)) = [("b", .success), ("a", .failed)] ∧
      looks.map (·.world.clock) = [0, 0, 0, 3] := by
  intro c result bouts
  have told : (c.awaitAmid ⟨nofun, 0⟩ ["b", "a", "b"] 10 [] bouts).map (fun (results, looks) =>
      (results.map fun r => (r.task, r.status), looks.map (·.world.clock))) =
      some ([("b", .success), ("a", .failed)], [0, 0, 0, 3]) := by decide +kernel
  obtain ⟨⟨results, looks⟩, ended, same⟩ := Option.map_eq_some_iff.mp told
  obtain ⟨prior, took, _⟩ :=
    ((waits_return_first_seen ⟨nofun, 0⟩ c ["b", "a", "b"] 10).1 bouts).2 results looks ended
  obtain ⟨statuses, clocks⟩ := Prod.mk.inj same
  exact ⟨results, looks, ended, prior, took, statuses, clocks⟩

end Chronicle
end Orchestration
