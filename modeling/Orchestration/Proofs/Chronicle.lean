import Orchestration.Proofs.Happenings

/-! A world that remembers what happened on its bus. To remember changes nothing of what is done,
and every moment of the bus can be read off what is remembered. A publication is handed to those
who listened when it was made, one after the other, whatever they make of it and whatever they
publish in turn, and its publisher learns of each one who failed. -/
namespace Orchestration

variable {η σ α : Type}

namespace Happening

def about? : Happening η → Option Nat
  | handed number _ | answered number _ | returned number _ => some number
  | _ => none

def depth : Nat → Happening η → Nat
  | n, handed .. => n + 1
  | n, answered .. => n - 1
  | n, _ => n

end Happening

def depthAfter (past : List (Happening η)) : Nat := past.foldl Happening.depth 0

theorem depthAfter_concat (past : List (Happening η)) (e : Happening η) :
    depthAfter (past ++ [e]) = e.depth (depthAfter past) := List.foldl_append

theorem messages_append (past later : List (Happening η)) :
    messages (past ++ later) = messages past ++ messages later := List.filterMap_append

/-- Those who listened were handed the message, each when the one before him had answered, and
then the publisher learned of the faults. -/
def Delivered (earlier : List (Happening η)) (number : Nat) (m : Message)
    (later : List (Happening η)) : Prop :=
  ∃ turns : List (η × Answer Unit), turns.map (·.1) = listeners earlier m.topic ∧
    later.filter (·.about? = some number) =
      turns.flatMap (fun t => [.handed number t.1, .answered number t.2]) ++
        [.returned number (turns.filterMap fun t => World.faultOf m.topic t.2)]

/-- What follows on a past concerns its own publications and those that are still open, and each
of its own that is not nested too deep is delivered. -/
structure Orderly (nesting : Nat) (unfinished : List Nat) (earlier events : List (Happening η)) :
    Prop where
  concerns : ∀ e ∈ events, ∀ number, e.about? = some number →
    number ∈ unfinished ∨ (messages earlier).length ≤ number
  delivers : ∀ before number m after, events = before ++ .published number m :: after →
    number = (messages (earlier ++ before)).length ∧
    (depthAfter (earlier ++ before) < nesting → Delivered (earlier ++ before) number m after)

namespace Orderly

variable {nesting : Nat} {unfinished : List Nat} {earlier events more : List (Happening η)}

theorem nothing : Orderly nesting unfinished earlier [] where
  concerns _ member := absurd member List.not_mem_nil
  delivers before number m after split := by simp at split

theorem weaken (orderly : Orderly nesting [] earlier events) :
    Orderly nesting unfinished earlier events where
  concerns e member number about :=
    .inr ((orderly.concerns e member number about).resolve_left List.not_mem_nil)
  delivers := orderly.delivers

theorem single {e : Happening η} (silent : e.message? = none)
    (about : ∀ number, e.about? = some number → number ∈ unfinished) :
    Orderly nesting unfinished earlier [e] where
  concerns f member number concerned := by
    rw [List.mem_singleton.mp member] at concerned
    exact .inl (about number concerned)
  delivers before number m after split := by
    cases before with
    | nil =>
      rw [(List.cons.inj split).1] at silent
      cases silent
    | cons f rest => simp at split

/-- Of what comes later nothing concerns a publication that is over. -/
theorem filter_about (orderly : Orderly nesting unfinished earlier events) {number : Nat}
    (finished : number ∉ unfinished) (old : number < (messages earlier).length) :
    events.filter (·.about? = some number) = [] := by
  refine List.filter_eq_nil_iff.mpr fun e member => ?_
  rw [decide_eq_true_iff]
  intro about
  rcases orderly.concerns e member number about with isOpen | new
  · exact finished isOpen
  · omega

theorem append (first : Orderly nesting unfinished earlier events)
    (second : Orderly nesting unfinished (earlier ++ events) more)
    (old : ∀ number ∈ unfinished, number < (messages earlier).length) :
    Orderly nesting unfinished earlier (events ++ more) where
  concerns e member number about := by
    rcases List.mem_append.mp member with here | later
    · exact first.concerns e here number about
    · refine (second.concerns e later number about).imp_right fun new => ?_
      rw [messages_append, List.length_append] at new
      omega
  delivers before number m after split := by
    rcases split_append.mp split with ⟨rest, rfl, rfl⟩ | ⟨rest, rfl, here⟩
    · obtain ⟨numbered, delivered⟩ := first.delivers before number m rest rfl
      refine ⟨numbered, fun shallow => ?_⟩
      obtain ⟨turns, whom, whole⟩ := delivered shallow
      -- what comes later is not about this one: it is neither open nor new then
      have finished : number ∉ unfinished := fun isOpen => by
        have earlierOne := old number isOpen
        rw [numbered, messages_append, List.length_append] at earlierOne
        omega
      have made : number < (messages (earlier ++ (before ++ .published number m :: rest))).length := by
        rw [← List.append_assoc, messages_append, List.length_append, ← numbered]
        simp [messages, Happening.message?]
      refine ⟨turns, whom, ?_⟩
      rw [List.filter_append, second.filter_about finished made, whole, List.append_nil]
    · rw [← List.append_assoc]
      exact second.delivers rest number m after here

/-- A publication, with what is done until it is over. -/
theorem publication {number : Nat} {m : Message} (numbered : number = (messages earlier).length)
    (orderly : Orderly nesting [number] (earlier ++ [.published number m]) events)
    (delivered : depthAfter earlier < nesting → Delivered earlier number m events) :
    Orderly nesting [] earlier (.published number m :: events) where
  concerns e member n about := by
    rcases List.mem_cons.mp member with rfl | later
    · cases about
    · right
      rcases orderly.concerns e later n about with own | new
      · rw [List.mem_singleton.mp own, numbered]
      · rw [messages_append, List.length_append] at new
        omega
  delivers before n q after split := by
    cases before with
    | nil =>
      obtain ⟨same, rfl⟩ := List.cons.inj split
      cases same
      rw [List.append_nil]
      exact ⟨numbered, delivered⟩
    | cons first rest =>
      obtain ⟨rfl, here⟩ := List.cons.inj split
      have onward := orderly.delivers rest n q after here
      rwa [List.append_assoc] at onward

end Orderly

structure Chronicle (η σ : Type) where
  world : World η σ
  past : List (Happening η)
  told : Recounts past world.bus

namespace Chronicle

def start (w : World η σ) (pollInterval : Nat) : Chronicle η σ :=
  ⟨{ w with bus := .empty pollInterval }, [], .empty pollInterval⟩

def aside (c : Chronicle η σ) (w : World η σ) (same : w.bus = c.world.bus) : Chronicle η σ :=
  ⟨w, c.past, same ▸ c.told⟩

def note (c : Chronicle η σ) {e : Happening η} {b : Bus η} (told : Recounts (c.past ++ [e]) b) :
    Chronicle η σ := ⟨{ c.world with bus := b }, c.past ++ [e], told⟩

def number (c : Chronicle η σ) : Nat := (messages c.past).length

def subscribe (c : Chronicle η σ) (topic : Topic) (handler : Option η) : Nat × Chronicle η σ :=
  ((c.world.bus.subscribe topic handler).1, c.note (c.told.subscribe topic handler))

def unsubscribe (c : Chronicle η σ) (topic : Topic) (id : Nat) : Bool × Chronicle η σ :=
  ((c.world.bus.unsubscribe topic id).1, c.note (c.told.unsubscribe topic id))

def accept (c : Chronicle η σ) (m : Message) : Chronicle η σ := c.note (c.told.accept c.number m)

def hand (c : Chronicle η σ) (number : Nat) (handler : η) : Chronicle η σ :=
  c.note (c.told.handed number handler)

def answer (c : Chronicle η σ) (number : Nat) (a : Answer Unit) : Chronicle η σ :=
  c.note (c.told.answered number a)

def finish (c : Chronicle η σ) (number : Nat) (faults : List Fault) : Chronicle η σ :=
  c.note (c.told.returned number faults)

def drain (c : Chronicle η σ) (session : String) : Chronicle η σ := c.note (c.told.drain session)

def clear (c : Chronicle η σ) (session : String) : Chronicle η σ := c.note (c.told.clear session)

def perform (publish : Message → Chronicle η σ → List Fault × Chronicle η σ) :
    Reaction η σ α → Chronicle η σ → Answer α × Chronicle η σ
  | .finish answer, c => (answer, c)
  | .look next, c => perform publish (next c.world.parts) c
  | .keep parts next, c => perform publish next (c.aside { c.world with parts := parts } rfl)
  | .time next, c => perform publish (next c.world.time.1) (c.aside c.world.time.2 rfl)
  | .count topic next, c => perform publish (next (c.world.bus.count topic)) c
  | .publish m next, c =>
    let (faults, c) := publish m c
    perform publish (next faults) c
  | .publishLater delay m next, c => perform publish next (c.aside (c.world.setTimer delay m) rfl)
  | .subscribe topic handler next, c =>
    let (id, c) := c.subscribe topic (some handler)
    perform publish (next id) c
  | .unsubscribe topic id next, c =>
    let (found, c) := c.unsubscribe topic id
    perform publish (next found) c

def turn (h : Handlers η σ) (publish : Message → Chronicle η σ → List Fault × Chronicle η σ)
    (number : Nat) (m : Message) (sofar : List Fault × Chronicle η σ) (handler : η) :
    List Fault × Chronicle η σ :=
  let (answer, c) := perform publish (h.react handler m) (sofar.2.hand number handler)
  (sofar.1 ++ (World.faultOf m.topic answer).toList, c.answer number answer)

def publishWithin (h : Handlers η σ) :
    Nat → Message → Chronicle η σ → List Fault × Chronicle η σ
  | 0, m, c => ([], (c.accept m).finish c.number [])
  | depth + 1, m, c =>
    let (faults, after) := (c.world.bus.handlers m.topic).foldl
      (turn h (publishWithin h depth) c.number m) ([], c.accept m)
    (faults, after.finish c.number faults)

def publish (h : Handlers η σ) (m : Message) (c : Chronicle η σ) : List Fault × Chronicle η σ :=
  publishWithin h h.nesting m c

/-! ### To remember changes nothing -/

theorem perform_world {publish : Message → Chronicle η σ → List Fault × Chronicle η σ}
    {plain : Message → World η σ → List Fault × World η σ}
    (same : ∀ m c, Prod.map id world (publish m c) = plain m c.world)
    (r : Reaction η σ α) (c : Chronicle η σ) :
    Prod.map id world (perform publish r c) = World.perform plain r c.world := by
  induction r generalizing c with
  | finish answer => rfl
  | look next ih => exact ih _ c
  | keep parts next ih => exact ih _
  | time next ih => exact ih _ _
  | count topic next ih => exact ih _ c
  | publish m next ih =>
    unfold World.perform
    rw [← same]
    exact ih _ _
  | publishLater delay m next ih => exact ih _
  | subscribe topic handler next ih => exact ih _ _
  | unsubscribe topic id next ih => exact ih _ _

theorem publishWithin_world (h : Handlers η σ) (depth : Nat) (m : Message) (c : Chronicle η σ) :
    Prod.map id world (publishWithin h depth m c) = World.publishWithin h depth m c.world := by
  induction depth generalizing m c with
  | zero => rfl
  | succ depth ih =>
    refine (List.foldl_hom (Prod.map id world) fun sofar handler => ?_).symm
    have performed := perform_world ih (h.react handler m) (sofar.2.hand c.number handler)
    have answers := congrArg Prod.fst performed
    have worlds := congrArg Prod.snd performed
    symm
    exact Prod.ext (congrArg (fun a => sofar.1 ++ (World.faultOf m.topic a).toList) answers) worlds

/-! ### Every publication is delivered -/

def Follows (nesting : Nat) (c later : Chronicle η σ) : Prop :=
  ∃ events, later.past = c.past ++ events ∧ Orderly nesting [] c.past events ∧
    depthAfter later.past = depthAfter c.past

namespace Follows

variable {nesting : Nat} {c c' c'' : Chronicle η σ}

theorem same_past (same : c'.past = c.past) : Follows nesting c c' :=
  ⟨[], by rw [same, List.append_nil], .nothing, by rw [same]⟩

theorem trans (first : Follows nesting c c') (second : Follows nesting c' c'') :
    Follows nesting c c'' := by
  obtain ⟨events, past, orderly, level⟩ := first
  obtain ⟨more, past', orderly', level'⟩ := second
  rw [past] at past' orderly'
  refine ⟨events ++ more, by rw [past', List.append_assoc], ?_, level'.trans level⟩
  exact orderly.append orderly' fun _ none => absurd none List.not_mem_nil

theorem single {e : Happening η} {b : Bus η} (told : Recounts (c.past ++ [e]) b)
    (silent : e.message? = none) (about : e.about? = none)
    (level : ∀ n, e.depth n = n) : Follows nesting c (c.note told) :=
  ⟨[e], rfl, .single silent (by simp [about]), (depthAfter_concat _ e).trans (level _)⟩

end Follows

theorem perform_follows {nesting depth : Nat}
    {publish : Message → Chronicle η σ → List Fault × Chronicle η σ}
    (publishes : ∀ m c, depthAfter c.past = depth → Follows nesting c (publish m c).2)
    (r : Reaction η σ α) {c : Chronicle η σ} (level : depthAfter c.past = depth) :
    Follows nesting c (perform publish r c).2 := by
  induction r generalizing c with
  | finish answer => exact .same_past rfl
  | look next ih => exact ih _ level
  | keep parts next ih => exact ih level
  | time next ih => exact ih _ level
  | count topic next ih => exact ih _ level
  | publish m next ih =>
    have first := publishes m c level
    obtain ⟨_, _, _, same⟩ := id first
    exact first.trans (ih _ (same.trans level))
  | publishLater delay m next ih => exact ih level
  | subscribe topic handler next ih =>
    have first : Follows nesting c (c.subscribe topic (some handler)).2 :=
      .single _ rfl rfl fun _ => rfl
    exact first.trans (ih _ ((depthAfter_concat _ _).trans level))
  | unsubscribe topic id next ih =>
    have first : Follows nesting c (c.unsubscribe topic id).2 := .single _ rfl rfl fun _ => rfl
    exact first.trans (ih _ ((depthAfter_concat _ _).trans level))

structure Turned (nesting number : Nat) (m : Message) (earlier : List (Happening η))
    (events : List (Happening η)) (turns : List (η × Answer Unit)) (faults : List Fault) :
    Prop where
  orderly : Orderly nesting [number] earlier events
  deliveries : events.filter (·.about? = some number) =
    turns.flatMap fun t => [.handed number t.1, .answered number t.2]
  faults : faults = turns.filterMap fun t => World.faultOf m.topic t.2

/-- One turn after others. What the handler publishes is delivered before he answers. -/
theorem Turned.turn {nesting number : Nat} {m : Message} {earlier events during : List (Happening η)}
    {turns : List (η × Answer Unit)} {faults : List Fault}
    (turned : Turned nesting number m earlier events turns faults)
    (old : number < (messages earlier).length) (handler : η) (a : Answer Unit)
    (orderly : Orderly nesting [] (earlier ++ events ++ [.handed number handler]) during) :
    Turned nesting number m earlier
      (events ++ [.handed number handler] ++ during ++ [.answered number a])
      (turns ++ [(handler, a)]) (faults ++ (World.faultOf m.topic a).toList) where
  orderly := by
    have opened : ∀ n ∈ [number], n < (messages earlier).length := by simpa using old
    have handed := turned.orderly.append
      (.single (e := .handed number handler) rfl (by simp [Happening.about?])) opened
    rw [List.append_assoc earlier] at orderly
    exact (handed.append orderly.weaken opened).append (.single rfl (by simp [Happening.about?])) opened
  deliveries := by
    -- what the handler publishes in his turn has numbers of its own
    have between : during.filter (·.about? = some number) = [] := by
      refine orderly.filter_about List.not_mem_nil ?_
      rw [List.append_assoc, messages_append, List.length_append]
      omega
    simp only [List.filter_append, turned.deliveries, between, List.flatMap_append]
    simp [Happening.about?]
  faults := by
    rw [List.filterMap_append, ← turned.faults]
    cases failed : World.faultOf m.topic a <;> simp [failed]

def Amid (nesting depth number : Nat) (m : Message) (earlier : List (Happening η))
    (done : List η) (sofar : List Fault × Chronicle η σ) : Prop :=
  ∃ events turns, sofar.2.past = earlier ++ events ∧ depthAfter sofar.2.past = depth ∧
    turns.map (·.1) = done ∧ Turned nesting number m earlier events turns sofar.1

section Turns

variable {h : Handlers η σ} {nesting depth number : Nat} {m : Message}
  {publish : Message → Chronicle η σ → List Fault × Chronicle η σ}
  {earlier : List (Happening η)} {done : List η} {sofar : List Fault × Chronicle η σ}

theorem turn_amid
    (publishes : ∀ m c, depthAfter c.past = depth + 1 → Follows nesting c (publish m c).2)
    (old : number < (messages earlier).length)
    (amid : Amid nesting depth number m earlier done sofar) (handler : η) :
    Amid nesting depth number m earlier (done ++ [handler])
      (turn h publish number m sofar handler) := by
  obtain ⟨events, turns, past, level, whom, turned⟩ := amid
  have deeper : depthAfter (sofar.2.hand number handler).past = depth + 1 := by
    rw [← level]
    exact depthAfter_concat _ _
  have before : (sofar.2.hand number handler).past =
      earlier ++ events ++ [.handed number handler] := congrArg (· ++ _) past
  obtain ⟨during, onward, orderly, back⟩ := perform_follows publishes (h.react handler m) deeper
  rw [before] at orderly onward
  unfold turn
  generalize perform publish (h.react handler m) (sofar.2.hand number handler) = performed at *
  obtain ⟨a, c⟩ := performed
  refine ⟨_, _, ?_, ?_, ?_, turned.turn old handler a orderly⟩
  · change c.past ++ [.answered number a] = _
    rw [onward]
    simp only [List.append_assoc]
  · refine (depthAfter_concat _ _).trans ?_
    rw [back, deeper]
    rfl
  · rw [List.map_append, whom]
    rfl

theorem turns_amid
    (publishes : ∀ m c, depthAfter c.past = depth + 1 → Follows nesting c (publish m c).2)
    (old : number < (messages earlier).length) (handlers : List η)
    (amid : Amid nesting depth number m earlier done sofar) :
    Amid nesting depth number m earlier (done ++ handlers)
      (handlers.foldl (turn h publish number m) sofar) := by
  induction handlers generalizing done sofar with
  | nil => rwa [List.append_nil]
  | cons handler rest ih =>
    rw [List.append_cons]
    exact ih (turn_amid publishes old amid handler)

end Turns

/-- A publication is delivered unless it is nested too deep. -/
theorem publishWithin_follows (h : Handlers η σ) {nesting depth : Nat} (m : Message)
    {c : Chronicle η σ} (level : depthAfter c.past + depth = nesting) :
    Follows nesting c (publishWithin h depth m c).2 ∧
    ∃ during, (publishWithin h depth m c).2.past = c.past ++ .published c.number m :: (during ++
      [.returned c.number (publishWithin h depth m c).1]) := by
  -- handlers publish one level deeper, with one level less left to nest
  induction depth generalizing m c with
  | zero =>
    refine ⟨⟨[.published c.number m, .returned c.number []], ?_, ?_, ?_⟩, [], ?_⟩
    · exact List.append_assoc _ _ _
    · refine .publication rfl (.single rfl (by simp [Happening.about?])) fun shallow => ?_
      omega
    · exact (depthAfter_concat _ _).trans (depthAfter_concat _ _)
    · exact List.append_assoc _ _ _
  | succ depth ih =>
    have publishes (q : Message) (c' : Chronicle η σ)
        (deeper : depthAfter c'.past = depthAfter c.past + 1) :
        Follows nesting c' (publishWithin h depth q c').2 := (ih q (by omega)).1
    have old : c.number < (messages (c.accept m).past).length := by
      change _ < (messages (c.past ++ _)).length
      rw [messages_append, List.length_append]
      exact Nat.lt_succ_self _
    have opened : Amid nesting (depthAfter c.past) c.number m (c.accept m).past []
        ([], c.accept m) :=
      ⟨[], [], (List.append_nil _).symm, depthAfter_concat _ _, rfl, .nothing, rfl, rfl⟩
    obtain ⟨events, turns, past, same, whom, turned⟩ :=
      turns_amid (h := h) publishes old (c.world.bus.handlers m.topic) opened
    unfold publishWithin
    dsimp only
    generalize (c.world.bus.handlers m.topic).foldl _ _ = after at *
    have past' : (after.2.finish c.number after.1).past =
        c.past ++ .published c.number m :: (events ++ [.returned c.number after.1]) := by
      change after.2.past ++ _ = _
      rw [past]
      simp [accept, note]
    refine ⟨⟨_, past', ?_, (depthAfter_concat _ _).trans same⟩, events, past'⟩
    refine .publication rfl ?_ fun _ => ⟨turns, whom.trans (c.told.handlers_eq m.topic), ?_⟩
    · refine turned.orderly.append (.single rfl (by simp [Happening.about?])) ?_
      simpa using old
    · rw [List.filter_append, turned.deliveries, turned.faults]
      simp [Happening.about?]

end Chronicle

/-- What is done with a bus from outside. Who drops the guard of a subscription ends it. -/
inductive BusCall (η : Type) where
  | subscribe (topic : Topic) (handler : Option η)
  | unsubscribe (topic : Topic) (id : Nat)
  | publish (m : Message)
  | drain (session : String)
  | clear (session : String)

def World.use (h : Handlers η σ) (w : World η σ) : BusCall η → World η σ
  | .subscribe topic handler => { w with bus := (w.bus.subscribe topic handler).2 }
  | .unsubscribe topic id => { w with bus := (w.bus.unsubscribe topic id).2 }
  | .publish m => (publish h m w).2
  | .drain session => { w with bus := (w.bus.drain session).2 }
  | .clear session => { w with bus := w.bus.clearSession session }

namespace Chronicle

def use (h : Handlers η σ) (c : Chronicle η σ) : BusCall η → Chronicle η σ
  | .subscribe topic handler => (c.subscribe topic handler).2
  | .unsubscribe topic id => (c.unsubscribe topic id).2
  | .publish m => (c.publish h m).2
  | .drain session => c.drain session
  | .clear session => c.clear session

def along (h : Handlers η σ) (w : World η σ) (pollInterval : Nat) (calls : List (BusCall η)) :
    Chronicle η σ := calls.foldl (use h) (start w pollInterval)

theorem use_world (h : Handlers η σ) (c : Chronicle η σ) (call : BusCall η) :
    (c.use h call).world = c.world.use h call := by
  cases call with
  | publish m => exact congrArg Prod.snd (publishWithin_world h h.nesting m c)
  | subscribe topic handler => rfl
  | unsubscribe topic id => rfl
  | drain session => rfl
  | clear session => rfl

theorem use_follows (h : Handlers η σ) {c : Chronicle η σ} (level : depthAfter c.past = 0)
    (call : BusCall η) : Follows h.nesting c (c.use h call) := by
  cases call with
  | publish m => exact (publishWithin_follows h m (by omega)).1
  | subscribe topic handler => exact .single _ rfl rfl fun _ => rfl
  | unsubscribe topic id => exact .single _ rfl rfl fun _ => rfl
  | drain session => exact .single _ rfl rfl fun _ => rfl
  | clear session => exact .single _ rfl rfl fun _ => rfl

theorem foldl_use_world (h : Handlers η σ) (calls : List (BusCall η)) (c : Chronicle η σ) :
    (calls.foldl (use h) c).world = calls.foldl (World.use h) c.world :=
  (List.foldl_hom world fun c call => (use_world h c call).symm).symm

theorem foldl_use_follows (h : Handlers η σ) (calls : List (BusCall η)) {c : Chronicle η σ}
    (level : depthAfter c.past = 0) : Follows h.nesting c (calls.foldl (use h) c) := by
  induction calls generalizing c with
  | nil => exact .same_past rfl
  | cons call rest ih =>
    have first := use_follows h level call
    obtain ⟨_, _, _, same⟩ := id first
    exact first.trans (ih (same.trans level))

end Chronicle

/-- Whatever is done with a bus, and whatever its handlers do in turn: what it holds can be read
off its past. A result stands until another one for its task is published or its session is
cleared; a mailbox holds what was published since it was last emptied, and a publication comes
before those of its handlers; each publication within the depth that handlers may nest was handed
to everybody who listened then, in the order of their subscriptions, and every fault came back to
its publisher; and nothing that is done with the mailbox of one session is seen in that of
another one. -/
theorem bus_follows_past (h : Handlers η σ) (w : World η σ) (pollInterval : Nat)
    (calls : List (BusCall η)) :
    let c := Chronicle.along h w pollInterval calls
    let now := calls.foldl (World.use h) { w with bus := .empty pollInterval }
    c.world = now ∧
    (∀ task r, now.bus.result? task = some r ↔ r.task = task ∧ Stands c.past r) ∧
    (∀ session, now.bus.mailbox session = mailed c.past session) ∧
    (∀ before number m after, c.past = before ++ .published number m :: after →
      number = (messages before).length ∧
      (depthAfter before < h.nesting → Delivered before number m after)) ∧
    (∀ m, ∃ during, (c.publish h m).2.past = c.past ++ .published (messages c.past).length m ::
      (during ++ [.returned (messages c.past).length (World.publish h m now).1])) ∧
    (∀ before s after, c.past = before ++ .subscribed s :: after →
      s.id = (joined before).length + 1) ∧
    (∀ session other, other ≠ session →
      (now.bus.drain session).2.mailbox other = now.bus.mailbox other ∧
      (now.bus.clearSession session).mailbox other = now.bus.mailbox other ∧
      ∀ m, m.session? = some session →
        (now.bus.accept m).mailbox other = now.bus.mailbox other) := by
  intro c now
  have same : c.world = now := Chronicle.foldl_use_world h calls _
  obtain ⟨events, past, orderly, level⟩ :=
    Chronicle.foldl_use_follows h calls (c := .start w pollInterval) rfl
  obtain rfl : c.past = events := past
  have told : Recounts c.past now.bus := same ▸ c.told
  refine ⟨same, told.results, told.mailboxes, orderly.delivers, fun m => ?_, told.ids, ?_⟩
  · have level : depthAfter c.past + h.nesting = h.nesting := by
      rw [show depthAfter c.past = 0 from level, Nat.zero_add]
    obtain ⟨during, past⟩ := (Chronicle.publishWithin_follows h m level).2
    have returned := congrArg Prod.fst (Chronicle.publishWithin_world h h.nesting m c)
    rw [same] at returned
    exact ⟨during, by rw [← show _ = (World.publish h m now).1 from returned]; exact past⟩
  · intro session other different
    refine ⟨?_, ?_, fun m own => ?_⟩
    · exact (now.bus.mailbox_emptyMailbox session other).trans (if_neg different)
    · exact (now.bus.mailbox_emptyMailbox session other).trans (if_neg different)
    · rw [now.bus.mailbox_accept, List.filter_cons_of_neg, List.filter_nil, List.append_nil]
      simpa [own] using Ne.symm different

def troubled : Handlers Bool Unit where
  react
    | true, .result r =>
      .publish (.heartbeat ⟨r.agent, some r.session, some r.task, r.completed⟩) fun _ =>
        .finish (.fault .undecided)
    | true, _ => .finish (.value ())
    | false, _ => .finish (.panic "lost")
  nesting := 2

/-- What is published within a publication is delivered before the next one has his turn. -/
theorem troubled_follows_past :
    let r := TaskResult.bare "s" "t" "a" .success default
    let sign := Message.heartbeat ⟨"a", some "s", some "t", default⟩
    let calls := [.subscribe .result (some true), .subscribe .result (some false),
      .subscribe .heartbeat (some true), .publish (.result r)]
    let before := [.subscribed ⟨1, .result, some true⟩, .subscribed ⟨2, .result, some false⟩,
      .subscribed ⟨3, .heartbeat, some true⟩]
    let after := [.handed 0 true, .published 1 sign, .handed 1 true, .answered 1 (.value ()),
      .returned 1 [], .answered 0 (.fault .undecided), .handed 0 false,
      .answered 0 (.panic "lost"), .returned 0 [.undecided, .subscriberPanicked "TASK_RESULT"]]
    (Chronicle.along troubled (.initial ()) 100 calls).past =
      before ++ .published 0 (.result r) :: after ∧
    Delivered before 0 (.result r) after := by
  intro r sign calls before after
  have past : (Chronicle.along troubled (.initial ()) 100 calls).past =
      before ++ .published 0 (.result r) :: after := rfl
  have follows := bus_follows_past troubled (.initial ()) 100 calls
  exact ⟨past, (follows.2.2.2.1 before 0 (.result r) after past).2 (by decide)⟩

end Orchestration
