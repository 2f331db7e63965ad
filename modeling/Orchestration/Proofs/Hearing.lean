import Orchestration.Plan.Check
import Orchestration.Proofs.Lasting
import Orchestration.Proofs.Tables

/-! What a round hears. While results are waited for anybody may publish, and the messages come
in bursts, with a look at the bus before the first of them and after each. What the looks gather
depends on nothing but the results that bear the ids asked for. Sessions are told apart by the
ids of their tasks, and by nothing else. -/
namespace Orchestration

def resultsAfter (results : Table TaskResult) (messages : List Message) : Table TaskResult :=
  messages.foldl (fun results m => match m with
    | .result r => Table.put results r.task r
    | _ => results) results

theorem resultsAfter_append (results : Table TaskResult) (first second : List Message) :
    resultsAfter results (first ++ second) = resultsAfter (resultsAfter results first) second :=
  List.foldl_append

def gatherAlong (tasks : List String) (gathered results : Table TaskResult) :
    List (List Message) → Table TaskResult
  | [] => gather tasks gathered results
  | burst :: rest =>
    gatherAlong tasks (gather tasks gathered results) (resultsAfter results burst) rest

def heard (tasks : List String) (results : Table TaskResult) (bursts : List (List Message)) :
    List TaskResult := inRequestOrder tasks (gatherAlong tasks [] results bursts)

/-- The bursts without the messages that are not kept, and without those that come to nothing. -/
def onlyKept (kept : Message → Bool) (bursts : List (List Message)) : List (List Message) :=
  (bursts.map (·.filter kept)).filter (!·.isEmpty)

def Message.answers (tasks : List String) : Message → Bool
  | .result r => tasks.contains r.task
  | _ => false

def AgreeOn (tasks : List String) (t u : Table TaskResult) : Prop :=
  ∀ task ∈ tasks, Table.get? t task = Table.get? u task

section Agreement

variable {tasks : List String} {t u : Table TaskResult}

theorem AgreeOn.put (agree : AgreeOn tasks t u) (key : String) (r : TaskResult) :
    AgreeOn tasks (Table.put t key r) (Table.put u key r) := by
  intro task member
  by_cases same : task = key
  · rw [same, Table.get?_put_self, Table.get?_put_self]
  · rw [Table.get?_put_of_ne _ _ same, Table.get?_put_of_ne _ _ same]
    exact agree task member

theorem AgreeOn.put_other (agree : AgreeOn tasks t u) {key : String} (other : key ∉ tasks)
    (r : TaskResult) : AgreeOn tasks t (Table.put u key r) := by
  intro task member
  have apart : task ≠ key := fun same => other (same ▸ member)
  rw [Table.get?_put_of_ne _ _ apart]
  exact agree task member

theorem AgreeOn.resultsAfter {kept : Message → Bool} {messages : List Message}
    (keeps : ∀ m ∈ messages, m.answers tasks = true → kept m = true) (agree : AgreeOn tasks t u) :
    AgreeOn tasks (resultsAfter t (messages.filter kept)) (resultsAfter u messages) := by
  induction messages generalizing t u with
  | nil => exact agree
  | cons m rest ih =>
    obtain ⟨first, others⟩ := List.forall_mem_cons.mp keeps
    by_cases stays : kept m = true
    · rw [List.filter_cons_of_pos stays]
      cases m with
      | result r => exact ih others (agree.put r.task r)
      | dispatch | heartbeat | summary => exact ih others agree
    · rw [List.filter_cons_of_neg stays]
      cases m with
      | result r =>
        have other : r.task ∉ tasks := fun member =>
          stays (first (List.contains_iff_mem.mpr member))
        exact ih others (agree.put_other other r)
      | dispatch | heartbeat | summary => exact ih others agree

theorem get?_gather (tasks : List String) (gathered results : Table TaskResult) (task : String) :
    Table.get? (gather tasks gathered results) task =
      if task ∈ tasks then (Table.get? gathered task).or (Table.get? results task)
      else Table.get? gathered task := by
  induction tasks generalizing gathered with
  | nil => rfl
  | cons first rest ih =>
    have onward := ih (gather [first] gathered results)
    have look : Table.get? (gather [first] gathered results) task =
        if task = first then (Table.get? gathered task).or (Table.get? results task)
        else Table.get? gathered task := by
      unfold gather Table.contains
      rw [List.foldl_cons, List.foldl_nil]
      by_cases same : task = first
      · subst same
        cases old : Table.get? gathered task <;> cases new : Table.get? results task <;>
          simp [old]
      · cases Table.get? gathered first <;> cases Table.get? results first <;>
          simp [same, Table.get?_put_of_ne]
    change Table.get? (gather rest (gather [first] gathered results) results) task = _
    rw [onward, look]
    by_cases same : task = first
    · subst same
      cases Table.get? gathered task <;> simp
    · simp [same]

theorem AgreeOn.gather {gathered gathered' : Table TaskResult}
    (before : AgreeOn tasks gathered gathered') (agree : AgreeOn tasks t u) :
    AgreeOn tasks (gather tasks gathered t) (gather tasks gathered' u) := by
  intro task member
  rw [get?_gather, get?_gather, if_pos member, if_pos member, before task member,
    agree task member]

/-- A look that finds nothing new gathers nothing. -/
theorem AgreeOn.look_again {looked gathered : Table TaskResult}
    (before : AgreeOn tasks (Orchestration.gather tasks looked t) gathered)
    (agree : AgreeOn tasks t u) :
    AgreeOn tasks (Orchestration.gather tasks looked t) (Orchestration.gather tasks gathered u) := by
  intro task member
  have found := before task member
  rw [get?_gather, if_pos member] at found ⊢
  rw [get?_gather, if_pos member, ← found, ← agree task member]
  cases Table.get? looked task <;> cases Table.get? t task <;> rfl

theorem AgreeOn.gatherAlong {kept : Message → Bool} {bursts : List (List Message)}
    (keeps : ∀ m ∈ bursts.flatten, m.answers tasks = true → kept m = true)
    {gathered gathered' : Table TaskResult}
    (before : AgreeOn tasks (Orchestration.gather tasks gathered t)
      (Orchestration.gather tasks gathered' u))
    (agree : AgreeOn tasks t u) :
    AgreeOn tasks (gatherAlong tasks gathered t (onlyKept kept bursts))
      (gatherAlong tasks gathered' u bursts) := by
  induction bursts generalizing t u gathered gathered' with
  | nil => exact before
  | cons burst rest ih =>
    rw [List.flatten_cons, List.forall_mem_append] at keeps
    have after := agree.resultsAfter keeps.1
    unfold onlyKept
    rw [List.map_cons]
    by_cases silent : burst.filter kept = []
    · rw [silent] at after ⊢
      exact ih keeps.2 (before.look_again after) after
    · rw [List.filter_cons_of_pos (by simpa using silent)]
      exact ih keeps.2 (before.gather after) after

theorem AgreeOn.inRequestOrder (agree : AgreeOn tasks t u) :
    inRequestOrder tasks t = inRequestOrder tasks u := by
  unfold Orchestration.inRequestOrder
  exact List.filterMap_congr fun task member => agree task (List.mem_eraseDups.mp member)

/-- Leaving out what answers none of the tasks, now or before, changes nothing that is heard of
them. -/
theorem heard_filter {kept : Message → Bool} {bursts : List (List Message)}
    (keeps : ∀ m ∈ bursts.flatten, m.answers tasks = true → kept m = true)
    (agree : AgreeOn tasks t u) : heard tasks t (onlyKept kept bursts) = heard tasks u bursts := by
  have start : AgreeOn tasks [] [] := fun _ _ => rfl
  exact ((start.gather agree).gatherAlong keeps agree).inRequestOrder

def withoutSession (session : String) (results : Table TaskResult) : Table TaskResult :=
  results.filter (·.2.session != session)

/-- No result of the session bears one of the ids, be it on the bus or among the messages. -/
structure Silent (session : String) (tasks : List String) (results : Table TaskResult)
    (messages : List Message) : Prop where
  stored : ∀ task ∈ tasks, ∀ r, Table.get? results task = some r → r.session ≠ session
  published : ∀ r, .result r ∈ messages → r.session = session → r.task ∉ tasks

theorem Silent.agree {session : String} {messages : List Message}
    (silent : Silent session tasks t messages) : AgreeOn tasks (withoutSession session t) t := by
  intro task member
  have keeps : ∀ r, Table.get? t task = some r → (r.session != session) = true :=
    fun r found => by simpa using silent.stored task member r found
  exact Table.get?_filter_of_kept keeps

/-- Of a session that is silent about the tasks everything can be left out. -/
theorem Silent.heard {session : String} {bursts : List (List Message)}
    (silent : Silent session tasks t bursts.flatten) :
    heard tasks (withoutSession session t) (onlyKept (·.session? ≠ some session) bursts) =
      heard tasks t bursts := by
  refine heard_filter (fun m member answers => ?_) silent.agree
  cases m with
  | result r =>
    have asked := List.contains_iff_mem.mp answers
    simpa [Message.session?] using fun own => silent.published r member own asked
  | dispatch | heartbeat | summary => cases answers

theorem get?_gather_of_found {gathered : Table TaskResult} {task : String} {r : TaskResult}
    (found : Table.get? gathered task = some r) (results : Table TaskResult) :
    Table.get? (gather tasks gathered results) task = some r := by
  rw [get?_gather, found]
  exact ite_self _

/-- What was gathered once is kept. -/
theorem get?_gatherAlong_of_found {gathered : Table TaskResult} {task : String} {r : TaskResult}
    (found : Table.get? gathered task = some r) (results : Table TaskResult)
    (bursts : List (List Message)) :
    Table.get? (gatherAlong tasks gathered results bursts) task = some r := by
  induction bursts generalizing gathered results with
  | nil => exact get?_gather_of_found found results
  | cons burst rest ih => exact ih (get?_gather_of_found found results) _

/-- What is on the bus to begin with is heard, since the first look comes before any message. -/
theorem mem_heard {task : String} (asked : task ∈ tasks) {r : TaskResult}
    (there : Table.get? t task = some r) (bursts : List (List Message)) :
    r ∈ heard tasks t bursts := by
  have looked : Table.get? (gather tasks [] t) task = some r := by
    rw [get?_gather, if_pos asked, there]
    rfl
  refine List.mem_filterMap.mpr ⟨task, List.mem_eraseDups.mpr asked, ?_⟩
  cases bursts with
  | nil => exact looked
  | cons burst rest => exact get?_gatherAlong_of_found looked _ rest

theorem resultsAfter_isSome {task : String} (there : (Table.get? t task).isSome = true)
    (messages : List Message) : (Table.get? (resultsAfter t messages) task).isSome = true := by
  induction messages generalizing t with
  | nil => exact there
  | cons m rest ih =>
    refine ih ?_
    cases m with
    | result r =>
      by_cases own : task = r.task
      · simp [own]
      · rwa [Table.get?_put_of_ne _ _ own]
    | dispatch | heartbeat | summary => exact there

end Agreement

theorem taskId_toList (session : String) (iteration : Nat) (step : String) :
    (taskId session iteration step).toList =
      session.toList ++ '-' :: 'i' :: ((toString iteration).toList ++ '-' :: step.toList) := by
  unfold taskId
  simp [toString]

theorem taskId_injective (session : String) (iteration : Nat) :
    Function.Injective (taskId session iteration) := by
  intro step other same
  have chars := congrArg String.toList same
  rw [taskId_toList, taskId_toList] at chars
  apply String.toList_inj.mp
  simpa using chars

namespace World

variable {η σ α : Type}

structure Published (v w : World η σ) (messages : List Message) : Prop where
  results : w.bus.results = resultsAfter v.bus.results messages
  mailboxes : ∀ session, w.bus.mailbox session =
    v.bus.mailbox session ++ messages.filter (·.session? = some session)

namespace Published

theorem of_bus {v w : World η σ} (results : w.bus.results = v.bus.results)
    (mailboxes : w.bus.mailboxes = v.bus.mailboxes) : Published v w [] := by
  refine ⟨results, fun session => ?_⟩
  unfold Bus.mailbox
  rw [mailboxes]
  exact (List.append_nil _).symm

theorem refl (w : World η σ) : Published w w [] := of_bus rfl rfl

theorem trans {u v w : World η σ} {a b : List Message} (first : Published u v a)
    (second : Published v w b) : Published u w (a ++ b) where
  results := by rw [second.results, first.results, resultsAfter_append]
  mailboxes session := by
    rw [second.mailboxes, first.mailboxes, List.filter_append, List.append_assoc]

theorem accept (m : Message) (w : World η σ) :
    Published w { w with bus := w.bus.accept m } [m] where
  results := by
    rw [w.bus.accept_results]
    cases m <;> rfl
  mailboxes := w.bus.mailbox_accept m

end Published

def Heard (v w : World η σ) : Prop := ∃ messages, Published v w messages

namespace Heard

theorem refl (w : World η σ) : Heard w w := ⟨[], .refl w⟩

theorem before {u v w : World η σ} (second : Heard v w) (first : Heard u v) : Heard u w := by
  obtain ⟨a, published⟩ := first
  obtain ⟨b, later⟩ := second
  exact ⟨a ++ b, published.trans later⟩

theorem of_bus {v w : World η σ} (results : w.bus.results = v.bus.results)
    (mailboxes : w.bus.mailboxes = v.bus.mailboxes) : Heard v w := ⟨[], .of_bus results mailboxes⟩

end Heard

theorem heard_stepwise : Stepwise (Heard : World η σ → World η σ → Prop) where
  refl := .refl
  trans first second := second.before first
  keep _ _ := .of_bus rfl rfl
  time _ := .of_bus rfl rfl
  accept w m := ⟨[m], .accept m w⟩
  setTimer _ _ _ := .of_bus rfl rfl
  join _ _ _ := .of_bus rfl rfl
  leave _ _ _ := .of_bus rfl rfl
  lapse _ _ := .of_bus rfl rfl
  idle _ _ := .of_bus rfl rfl

theorem gatherFrom_published (h : Handlers η σ) (tasks : List String) (deadline instant : Nat)
    (gathered : Table TaskResult) (w : World η σ) :
    ∃ bursts, Published w (gatherFrom h tasks deadline instant gathered w).2 bursts.flatten ∧
      (gatherFrom h tasks deadline instant gathered w).1 =
        gatherAlong tasks gathered w.bus.results bursts := by
  fun_induction gatherFrom h tasks deadline instant gathered w with
  | case1 _ gathered w => exact ⟨[], .refl w, rfl⟩
  | case2 instant gathered w _ _ _ next ih =>
    obtain ⟨rest, published, gathers⟩ := ih
    have burst : Heard w
        (if next < deadline then fire h next w else { w with clock := deadline }) := by
      split
      · exact heard_stepwise.fire h w next
      · exact heard_stepwise.idle w deadline
    obtain ⟨ms, first⟩ := burst
    refine ⟨ms :: rest, first.trans published, gathers.trans ?_⟩
    rw [gatherAlong, ← first.results]
    rfl
  | case3 _ gathered w => exact ⟨[], .refl w, rfl⟩

theorem await_published (h : Handlers η σ) (tasks : List String) (timeout : Nat)
    (w : World η σ) :
    ∃ bursts, Published w (await h tasks timeout w).2 bursts.flatten ∧
      (await h tasks timeout w).1 = heard tasks w.bus.results bursts := by
  unfold await heard
  dsimp only
  split
  · exact ⟨[], .refl w, rfl⟩
  · obtain ⟨ms, first⟩ := heard_stepwise.fire h w w.clock
    obtain ⟨rest, published, gathers⟩ := gatherFrom_published h tasks (w.clock + timeout) w.clock
      (gather tasks [] w.bus.results) (fire h w.clock w)
    refine ⟨ms :: rest, first.trans published, ?_⟩
    rw [gathers, first.results]
    rfl

def summedUp (session : String) (tasks : List String) (timeout : Nat) (policy : FanInPolicy)
    (w : World η σ) (results : List TaskResult) : Answer Summary :=
  let held := w.heldBack session
  let waiting := uncovered tasks held
  if waiting.isEmpty || w.canWait timeout then
    .value (.fanIn (held ++ outcomes waiting results timeout) policy)
  else .panic "overflow when adding duration to instant"

theorem collect_published (h : Handlers η σ) (session : String) (tasks : List String)
    (timeout : Nat) (policy : FanInPolicy) (w : World η σ) :
    ∃ bursts, Published w (collect h session tasks timeout policy w).2 bursts.flatten ∧
      (collect h session tasks timeout policy w).1 = summedUp session tasks timeout policy w
        (heard (uncovered tasks (w.heldBack session)) w.bus.results bursts) := by
  let taken : World η σ := { w with buffer := Table.erase w.buffer session }
  let counted : World η σ := { taken with bus := (taken.bus.subscribe .result none).2 }
  have joined : Published w counted [] := .of_bus rfl rfl
  have left (v : World η σ) (id : Nat) :
      Published v { v with bus := (v.bus.unsubscribe .result id).2 } [] := .of_bus rfl rfl
  unfold collect summedUp
  dsimp only
  generalize uncovered tasks (w.heldBack session) = waiting
  by_cases idle : waiting.isEmpty = true
  · rw [if_pos idle, List.isEmpty_iff.mp idle]
    refine ⟨[], .of_bus rfl rfl, ?_⟩
    simp [outcomes, heard, inRequestOrder]
  · rw [if_neg idle]
    have same : taken.canWait timeout = w.canWait timeout := rfl
    by_cases within : w.canWait timeout = true
    · obtain ⟨bursts, published, hears⟩ := await_published h waiting timeout counted
      rw [same, within]
      refine ⟨bursts, ?_, ?_⟩
      · have all := (joined.trans published).trans (left _ (w.bus.subscribe .result none).1)
        rw [List.append_nil] at all
        exact all
      · rw [Bool.or_true, if_pos rfl]
        exact congrArg (fun results => Answer.value (Summary.fanIn (w.heldBack session ++
          outcomes waiting results timeout) policy)) hears
    · rw [same, Bool.eq_false_iff.mpr within, Bool.eq_false_iff.mpr idle]
      exact ⟨[], .of_bus rfl rfl, rfl⟩

def after (results : List TaskResult) : World Empty Unit :=
  results.foldl (fun w r => (publish ⟨nofun, 0⟩ (.result r) w).2) (.initial ())

end World
end Orchestration
