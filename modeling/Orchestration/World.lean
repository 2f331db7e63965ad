import Orchestration.Bus.Reaction
import Orchestration.Deed
import Orchestration.FanIn
import Orchestration.Policy.Engine
import Orchestration.Store.Storage

/-! Everything outside a run: the clock and what is due, the bus and those who answer on it,
the observations held back for a round, the records and the policy. Time stands still while
anybody acts; it passes only when everybody waits, from one due instant to the next. -/
namespace Orchestration

structure Timer where
  due : Nat
  message : Message

/-- `η` names the handlers on the bus, `σ` is what they and the collaborators keep. -/
structure World (η σ : Type) where
  /-- milliseconds since the beginning -/
  clock : Nat
  /-- by instant; of the same instant, in the order in which they were set -/
  timers : List Timer
  bus : Bus η
  /-- observations by session, waiting for the next round to be summed up -/
  buffer : Table (List Observation)
  storage : Storage
  engine : PolicyEngine
  parts : σ
  /-- the time of day at the beginning -/
  origin : Timestamp
  /-- how often the time of day was read; each reading is later than the one before -/
  readings : Nat
  /-- what fresh ids begin with, and how many there are -/
  seed : Nat
  freshIds : Nat
  /-- what the latest run has done so far, the last deed first -/
  journal : List Deed

/-- How handlers answer messages, and how deep publications may be nested within each
other. A message beyond that depth is kept like any other, but handed to nobody. -/
structure Handlers (η σ : Type) where
  react : η → Message → Reaction η σ Unit
  nesting : Nat

namespace World

variable {η σ α : Type}

def «initial» (parts : σ) : World η σ :=
  ⟨0, [], .empty Bus.defaultPollInterval, [], .empty, .empty, parts, ⟨1767225600, 0⟩, 0, 0, 0, []⟩

def note (d : Deed) (w : World η σ) : World η σ := { w with journal := d :: w.journal }

/-- Reads the time of day, a microsecond later each time. -/
def time (w : World η σ) : Timestamp × World η σ :=
  (w.origin.addNanos (w.readings * 1000), { w with readings := w.readings + 1 })

/-- An id that nobody else has. -/
def freshId (w : World η σ) : String × World η σ :=
  (uuid w.seed w.freshIds, { w with freshIds := w.freshIds + 1 })
where
  hex (width n : Nat) : List Char :=
    let digits := Nat.toDigits 16 (n % twoTo (4 * width))
    List.replicate (width - digits.length) '0' ++ digits
  uuid (seed n : Nat) : String :=
    String.ofList (hex 8 seed ++ '-' :: hex 4 (seed / twoTo 32) ++ '-' :: '4' :: hex 3 (seed / twoTo 48) ++
      '-' :: '8' :: hex 3 (seed / twoTo 60) ++ '-' :: hex 12 n)

def insertTimer (t : Timer) : List Timer → List Timer
  | [] => [t]
  | u :: rest => if t.due < u.due then t :: u :: rest else u :: insertTimer t rest

theorem mem_insertTimer {t u : Timer} {timers : List Timer} (member : u ∈ insertTimer t timers) :
    u = t ∨ u ∈ timers := by
  induction timers with
  | nil => exact .inl (List.mem_singleton.mp member)
  | cons first rest ih =>
    unfold insertTimer at member
    split at member
    · exact List.mem_cons.mp member
    · rcases List.mem_cons.mp member with here | later
      · exact .inr (here ▸ List.mem_cons_self)
      · exact (ih later).imp_right (List.mem_cons_of_mem _)

def setTimer (w : World η σ) (delay : Nat) (m : Message) : World η σ :=
  { w with timers := insertTimer ⟨w.clock + max 1 delay, m⟩ w.timers }

/-- Carries a reaction out. `publish` hands a message on. -/
def perform (publish : Message → World η σ → List Fault × World η σ) :
    Reaction η σ α → World η σ → Answer α × World η σ
  | .finish answer, w => (answer, w)
  | .look next, w => perform publish (next w.parts) w
  | .keep parts next, w => perform publish next { w with parts := parts }
  | .time next, w =>
    let (t, w) := w.time
    perform publish (next t) w
  | .count topic next, w => perform publish (next (w.bus.count topic)) w
  | .publish m next, w =>
    let (faults, w) := publish m w
    perform publish (next faults) w
  | .publishLater delay m next, w => perform publish next (w.setTimer delay m)
  | .subscribe topic handler next, w =>
    let (id, bus) := w.bus.subscribe topic (some handler)
    perform publish (next id) { w with bus := bus }
  | .unsubscribe topic id next, w =>
    let (found, bus) := w.bus.unsubscribe topic id
    perform publish (next found) { w with bus := bus }

def faultOf (topic : Topic) : Answer Unit → Option Fault
  | .value () => none
  | .fault f => some f
  | .panic _ => some (.subscriberPanicked topic.text)

/-- Publishes a message: it is kept, and then handed to everybody who was subscribed to its
topic at that moment, one after the other. Whatever one of them does, the next one has his
turn. -/
def publishWithin (h : Handlers η σ) : Nat → Message → World η σ → List Fault × World η σ
  | 0, m, w => ([], { w with bus := w.bus.accept m })
  | depth + 1, m, w =>
    (w.bus.handlers m.topic).foldl (fun (faults, w) handler =>
      let (answer, w) := perform (publishWithin h depth) (h.react handler m) w
      (faults ++ (faultOf m.topic answer).toList, w))
      ([], { w with bus := w.bus.accept m })

def publish (h : Handlers η σ) (m : Message) (w : World η σ) : List Fault × World η σ :=
  publishWithin h h.nesting m w

def call (h : Handlers η σ) (r : Reaction η σ α) (w : World η σ) : Answer α × World η σ :=
  perform (publish h) r w

def fire (h : Handlers η σ) (instant : Nat) (w : World η σ) : World η σ :=
  (w.timers.filter (·.due ≤ instant)).foldl (fun w t => (publish h t.message w).2)
    { w with clock := instant, timers := w.timers.filter (instant < ·.due) }

/-- The instant after another at which something happens, no later than a limit. -/
def nextInstant (w : World η σ) (instant limit : Nat) : Nat :=
  max (instant + 1) (min limit ((w.timers.head?.map (·.due)).getD limit))

/-- Lets the time pass from an instant to a limit. What is due at the limit itself waits
until the time passes on. -/
def passFrom (h : Handlers η σ) (limit instant : Nat) (w : World η σ) : World η σ :=
  if instant < limit then
    let next := w.nextInstant instant limit
    if next < limit then passFrom h limit next (fire h next w) else { w with clock := limit }
  else w
termination_by limit - instant
decreasing_by
  have : instant + 1 ≤ w.nextInstant instant limit := Nat.le_max_left ..
  omega

def pass (h : Handlers η σ) (span : Nat) (w : World η σ) : World η σ :=
  if span = 0 then w else passFrom h (w.clock + span) w.clock (fire h w.clock w)

end World
end Orchestration
