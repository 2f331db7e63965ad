import Orchestration.Bus
import Orchestration.Fault

/-! What somebody who is called does, as a tree of acts and answers. A reaction sees and
changes its own parts of the world, reads the time, and uses the bus; it cannot wait, and
nothing else is within its reach. -/
namespace Orchestration

inductive Reaction (η σ α : Type) where
  | finish (answer : Answer α)
  | look (next : σ → Reaction η σ α)
  | keep (parts : σ) (next : Reaction η σ α)
  | time (next : Timestamp → Reaction η σ α)
  | count (topic : Topic) (next : Nat → Reaction η σ α)
  /-- publishes, and goes on with the faults of the handlers -/
  | publish (m : Message) (next : List Fault → Reaction η σ α)
  /-- has a message published after some milliseconds -/
  | publishLater (delay : Nat) (m : Message) (next : Reaction η σ α)
  | subscribe (topic : Topic) (handler : η) (next : Nat → Reaction η σ α)
  | unsubscribe (topic : Topic) (id : Nat) (next : Bool → Reaction η σ α)

namespace Reaction

variable {η σ α β : Type}

/-- One reaction after another. A fault or a panic of the first one is its end. -/
def andThen (f : α → Reaction η σ β) : Reaction η σ α → Reaction η σ β
  | finish (.value a) => f a
  | finish (.fault e) => finish (.fault e)
  | finish (.panic text) => finish (.panic text)
  | look next => look fun parts => andThen f (next parts)
  | keep parts next => keep parts (andThen f next)
  | time next => time fun t => andThen f (next t)
  | count topic next => count topic fun n => andThen f (next n)
  | publish m next => publish m fun faults => andThen f (next faults)
  | publishLater delay m next => publishLater delay m (andThen f next)
  | subscribe topic handler next => subscribe topic handler fun id => andThen f (next id)
  | unsubscribe topic id next => unsubscribe topic id fun found => andThen f (next found)

instance : Monad (Reaction η σ) where
  pure a := finish (.value a)
  bind r f := andThen f r

def fail (f : Fault) : Reaction η σ α := finish (.fault f)

def parts : Reaction η σ σ := look fun s => finish (.value s)

def change (f : σ → σ) : Reaction η σ Unit := look fun s => keep (f s) (finish (.value ()))

def now : Reaction η σ Timestamp := time fun t => finish (.value t)

def subscribers (topic : Topic) : Reaction η σ Nat := count topic fun n => finish (.value n)

def send (m : Message) : Reaction η σ (List Fault) := publish m fun faults => finish (.value faults)

def sendAfter (delay : Nat) (m : Message) : Reaction η σ Unit :=
  if delay = 0 then publish m fun _ => finish (.value ())
  else publishLater delay m (finish (.value ()))

def listen (topic : Topic) (handler : η) : Reaction η σ Nat :=
  subscribe topic handler fun id => finish (.value id)

def leave (topic : Topic) (id : Nat) : Reaction η σ Bool :=
  unsubscribe topic id fun found => finish (.value found)

end Reaction
end Orchestration
