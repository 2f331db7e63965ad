import Orchestration.Proofs.Conduct

/-! What a run leaves on the bus when all who are asked keep to their business: they publish
messages of one kind, and nobody joins or leaves a topic. Whatever is handed to them is of that
kind then, and so is all that they have published in turn, at once or later. A round joins a
topic itself for as long as it waits, and leaves it as it was. -/
namespace Orchestration

variable {η σ α : Type}

def Message.Concerns (session : String) (own : String → Prop) : Message → Prop
  | dispatch d => d.session = session ∧ own d.task
  | result r => r.session = session ∧ own r.task
  | heartbeat h => ∀ name ∈ h.session, name = session
  | summary name .. => name = session

theorem Message.Concerns.session? {session : String} {own : String → Prop} {m : Message}
    (concerns : m.Concerns session own) : ∀ name ∈ m.session?, name = session := by
  intro name member
  cases m with
  | dispatch d => exact (Option.some.inj member) ▸ concerns.1
  | result r => exact (Option.some.inj member) ▸ concerns.1
  | heartbeat h => exact concerns name member
  | summary => exact (Option.some.inj member) ▸ concerns

/-- Whatever it comes to see, a reaction publishes messages of this kind only, keeps its parts
in order, and neither joins nor leaves a topic. -/
def Reaction.Publishes (kind : Message → Prop) (kept : σ → Prop) : Reaction η σ α → Prop
  | finish _ => True
  | look next => ∀ parts, kept parts → Publishes kind kept (next parts)
  | keep parts next => kept parts ∧ Publishes kind kept next
  | time next => ∀ t, Publishes kind kept (next t)
  | count _ next => ∀ n, Publishes kind kept (next n)
  | publish m next => kind m ∧ ∀ faults, Publishes kind kept (next faults)
  | publishLater _ m next => kind m ∧ Publishes kind kept next
  | subscribe .. | unsubscribe .. => False

theorem Reaction.Publishes.keeps {kind : Message → Prop} {kept : σ → Prop} {r : Reaction η σ α}
    (publishes : r.Publishes kind kept) : r.Keeps kind kept False := by
  induction r with
  | finish answer => trivial
  | look next ih => exact fun parts own => ih parts (publishes parts own)
  | keep parts next ih => exact ⟨publishes.1, ih publishes.2⟩
  | time next ih => exact fun t => ih t (publishes t)
  | count topic next ih => exact fun n => ih n (publishes n)
  | publish m next ih => exact ⟨publishes.1, fun faults => ih faults (publishes.2 faults)⟩
  | publishLater delay m next ih => exact ⟨publishes.1, ih publishes.2⟩
  | subscribe topic handler next => exact publishes.elim
  | unsubscribe topic id next => exact publishes.elim

theorem Bus.handlers_of_subscriptions {b c : Bus η} (same : c.subscriptions = b.subscriptions)
    (topic : Topic) : c.handlers topic = b.handlers topic := by
  rw [handlers, handlers, subscribers, subscribers, same]

namespace World

structure Confined (h : Handlers η σ) (kind : Message → Prop) (kept : σ → Prop)
    (w : World η σ) : Prop where
  due : ∀ t ∈ w.timers, kind t.message
  parts : kept w.parts
  handlers : ∀ m, kind m → ∀ handler ∈ w.bus.handlers m.topic,
    (h.react handler m).Publishes kind kept

/-- Besides, those who join from now on get ids that nobody has. -/
structure Bounded (h : Handlers η σ) (kind : Message → Prop) (kept : σ → Prop)
    (w : World η σ) : Prop extends w.Confined h kind kept where
  ids : ∀ s ∈ w.bus.subscriptions, s.id < w.bus.nextId

structure Confines (h : Handlers η σ) (kind : Message → Prop) (kept : σ → Prop)
    (v w : World η σ) : Prop where
  bounded : w.Bounded h kind kept
  published : ∃ messages, Published v w messages ∧ ∀ m ∈ messages, kind m
  subscriptions : w.bus.subscriptions = v.bus.subscriptions

variable {h : Handlers η σ} {kind : Message → Prop} {kept : σ → Prop} {u v w : World η σ}

theorem Bounded.of_same (bounded : v.Bounded h kind kept) (due : ∀ t ∈ w.timers, kind t.message)
    (parts : kept w.parts) (subscriptions : w.bus.subscriptions = v.bus.subscriptions)
    (nextId : w.bus.nextId = v.bus.nextId) : w.Bounded h kind kept where
  due := due
  parts := parts
  handlers m := by
    rw [Bus.handlers_of_subscriptions subscriptions]
    exact bounded.handlers m
  ids := by
    rw [subscriptions, nextId]
    exact bounded.ids

namespace Confines

theorem of_bus (bounded : v.Bounded h kind kept) (due : ∀ t ∈ w.timers, kind t.message)
    (parts : kept w.parts) (bus : w.bus = v.bus) : Confines h kind kept v w where
  bounded := bounded.of_same due parts (congrArg Bus.subscriptions bus) (congrArg Bus.nextId bus)
  published := ⟨[], .of_bus (congrArg Bus.results bus) (congrArg Bus.mailboxes bus), by simp⟩
  subscriptions := congrArg Bus.subscriptions bus

theorem of_beside (beside : Beside v w) (bounded : v.Bounded h kind kept) :
    Confines h kind kept v w :=
  .of_bus bounded (beside.timers ▸ bounded.due) (beside.parts ▸ bounded.parts) beside.bus

theorem refl (bounded : w.Bounded h kind kept) : Confines h kind kept w w :=
  .of_beside (.refl w) bounded

theorem trans (first : Confines h kind kept u v) (second : Confines h kind kept v w) :
    Confines h kind kept u w where
  bounded := second.bounded
  published := by
    obtain ⟨before, published, own⟩ := first.published
    obtain ⟨later, more, own'⟩ := second.published
    exact ⟨before ++ later, published.trans more, fun m member =>
      (List.mem_append.mp member).elim (own m) (own' m)⟩
  subscriptions := second.subscriptions.trans first.subscriptions

theorem accept {m : Message} (own : kind m) (bounded : w.Bounded h kind kept) :
    Confines h kind kept w { w with bus := w.bus.accept m } where
  bounded := bounded.of_same bounded.due bounded.parts (w.bus.accept_subscriptions m).1
    (w.bus.accept_subscriptions m).2
  published := ⟨[m], .accept m w, by simpa using own⟩
  subscriptions := (w.bus.accept_subscriptions m).1

end Confines

/-- From a world on that is so confined, everything goes on to be. -/
theorem confines_enduring (h : Handlers η σ) (kind : Message → Prop) (kept : σ → Prop)
    (w : World η σ) : Enduring h kind kept False (Confines h kind kept w) where
  parts before := before.bounded.parts
  reacts before m own handler listens :=
    (before.bounded.handlers m own handler listens).keeps
  keep before parts keeps := before.trans
    (.of_bus before.bounded before.bounded.due keeps rfl)
  time before := before.trans (.of_beside (.time _) before.bounded)
  accept before m own := before.trans (.accept own before.bounded)
  setTimer before delay m own := by
    refine before.trans (.of_bus before.bounded (fun t member => ?_) before.bounded.parts rfl)
    rcases mem_insertTimer member with rfl | set
    · exact own
    · exact before.bounded.due t set
  join := False.elim
  leave := False.elim
  due before := before.bounded.due
  lapse before instant := before.trans (.of_bus before.bounded
    (fun t member => before.bounded.due t (List.mem_of_mem_filter member)) before.bounded.parts rfl)
  idle before instant := before.trans (.of_beside ⟨rfl, rfl, rfl, rfl⟩ before.bounded)

theorem publish_confines {m : Message} (own : kind m) (bounded : w.Bounded h kind kept) :
    Confines h kind kept w (publish h m w).2 :=
  (confines_enduring h kind kept w).publish own (.refl bounded)

theorem call_confines {r : Reaction η σ α} (publishes : r.Publishes kind kept)
    (bounded : w.Bounded h kind kept) : Confines h kind kept w (call h r w).2 :=
  (confines_enduring h kind kept w).call publishes.keeps (.refl bounded)

theorem pass_confines (span : Nat) (bounded : w.Bounded h kind kept) :
    Confines h kind kept w (pass h span w) :=
  (confines_enduring h kind kept w).pass span (.refl bounded)

theorem await_confines (tasks : List String) (timeout : Nat) (bounded : w.Bounded h kind kept) :
    Confines h kind kept w (await h tasks timeout w).2 :=
  (confines_enduring h kind kept w).await tasks timeout (.refl bounded)

def join (topic : Topic) (w : World η σ) : World η σ :=
  { w with bus := (w.bus.subscribe topic none).2 }

def leave (topic : Topic) (id : Nat) (w : World η σ) : World η σ :=
  { w with bus := (w.bus.unsubscribe topic id).2 }

theorem Bounded.join (bounded : w.Bounded h kind kept) (topic : Topic) :
    (w.join topic).Bounded h kind kept where
  due := bounded.due
  parts := bounded.parts
  handlers m own handler listens := by
    refine bounded.handlers m own handler ?_
    unfold World.join Bus.handlers Bus.subscribers Bus.subscribe at listens
    rw [List.filter_append, List.filterMap_append] at listens
    refine (List.mem_append.mp listens).resolve_right fun last => ?_
    rw [List.filter_singleton] at last
    cases same : decide (topic = m.topic) <;> simp [same] at last
  ids s member := by
    rcases List.mem_append.mp member with before | last
    · exact Nat.lt_succ_of_lt (bounded.ids s before)
    · rw [List.mem_singleton.mp last]
      exact Nat.lt_succ_self _

/-- The latest to join a topic leaves it as it was, whatever has been published since. -/
theorem Confines.leave (bounded : w.Bounded h kind kept) {topic : Topic}
    (since : Confines h kind kept (w.join topic) v) :
    Confines h kind kept w (v.leave topic w.bus.nextId) := by
  have others : ∀ s ∈ w.bus.subscriptions, (!(s.topic = topic && s.id = w.bus.nextId)) = true :=
    fun s member => by simp [(bounded.ids s member).ne]
  have same : (v.leave topic w.bus.nextId).bus.subscriptions = w.bus.subscriptions := by
    unfold World.leave Bus.unsubscribe
    dsimp only
    rw [since.subscriptions]
    change (w.bus.subscriptions ++ [_]).filter _ = _
    rw [List.filter_append, List.filter_eq_self.mpr others]
    simp
  refine ⟨⟨⟨since.bounded.due, since.bounded.parts, fun m => ?_⟩, fun s member => ?_⟩, ?_, same⟩
  · rw [Bus.handlers_of_subscriptions same]
    exact bounded.handlers m
  · exact since.bounded.ids s (List.mem_of_mem_filter member)
  · obtain ⟨messages, published, own⟩ := since.published
    exact ⟨messages, ⟨published.results, published.mailboxes⟩, own⟩

theorem collect_confines (session : String) (tasks : List String) (timeout : Nat)
    (policy : FanInPolicy) (bounded : w.Bounded h kind kept) :
    Confines h kind kept w (collect h session tasks timeout policy w).2 := by
  have taken : Confines h kind kept w { w with buffer := Table.erase w.buffer session } :=
    .of_bus bounded bounded.due bounded.parts rfl
  have awaited (tasks : List String) := await_confines tasks timeout (taken.bounded.join .result)
  unfold collect
  dsimp only
  split
  · exact taken
  · split
    · exact taken
    · exact taken.trans (.leave taken.bounded (awaited _))

end World

namespace Services

variable (s : Services η σ)

structure Confined (session : String) (own : String → Prop) (kept : σ → Prop) : Prop where
  classify : ∀ command context,
    (s.classify command context).Publishes (Message.Concerns session own) kept
  plan : ∀ command c context,
    (s.plan command c context).Publishes (Message.Concerns session own) kept
  dispatch : ∀ d, d.session = session → own d.task →
    (s.dispatch d).Publishes (Message.Concerns session own) kept
  status : ∀ status ∈ s.status, ∀ task,
    (status task).Publishes (Message.Concerns session own) kept

variable {s}

theorem Confined.conducts {session : String} {own : String → Prop} {kept : σ → Prop}
    (confined : s.Confined session own kept) :
    s.Conducts session own fun v w =>
      v.Bounded s.toHandlers (Message.Concerns session own) kept →
        World.Confines s.toHandlers (Message.Concerns session own) kept v w where
  beside beside bounded := .of_beside beside bounded
  trans first second bounded := (first bounded).trans (second (first bounded).bounded)
  classify _ _ _ := World.call_confines (confined.classify _ _)
  plan _ _ _ _ := World.call_confines (confined.plan _ _ _)
  dispatch d _ same owns := World.call_confines (confined.dispatch d same owns)
  status status task _ told := World.call_confines (confined.status status told task)
  pass span _ := World.pass_confines span
  hold _ _ bounded := .of_bus bounded bounded.due bounded.parts rfl
  collect tasks timeout policy _ := World.collect_confines session tasks timeout policy
  publish _ _ _ := World.publish_confines rfl

end Services
end Orchestration
