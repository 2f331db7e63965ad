import Orchestration.Loop.Services
import Orchestration.Loopback
import Orchestration.Monitor

/-! Scripted collaborators, to try the loop out with: executors, a dispatcher, a planner, a
classifier and a tracker that answer as their scripts say and take note of what they were
asked. -/
namespace Orchestration.Rehearsal

/-- The calls that a rule is for: those that agree with everything it names. -/
structure Pattern where
  iteration : Option Nat
  /-- which call it is, counted from one -/
  attempt : Option Nat
  task : Option String
  delegate : Option String
  step : Option String
  deriving Inhabited

def Pattern.fits (p : Pattern) (attempt : Nat) (d : Dispatch) : Bool :=
  p.iteration.all (· == d.iteration) && p.attempt.all (· == attempt) && p.task.all (· == d.task) &&
    p.delegate.all (· == d.delegate) &&
    p.step.all fun step => (Table.get? d.context "step_id").any (·.same (.str step))

/-- A result to be published, with what it takes over from the dispatch if it does not say. -/
structure Reply where
  status : TaskStatus
  agent : String
  confidence : Option Binary64
  result : Json
  issues : List Issue
  task : Option String
  session : Option String
  delay : Nat
  deriving Inhabited

/-- A success carries the correlation of its dispatch. -/
def Reply.toResult (r : Reply) (d : Dispatch) (time : Timestamp) : TaskResult :=
  { TaskResult.bare (r.session.getD d.session) (r.task.getD d.task) r.agent r.status time with
    result := r.result
    issues := r.issues
    confidence := r.confidence
    correlation := if r.status = .success then some d.correlation else none }

structure ExecutorRule where
  pattern : Pattern
  /-- the agent that first gives a sign of life -/
  heartbeat : Option String
  replies : List Reply
  strike : Option Strike
  deriving Inhabited

structure DispatchRule where
  pattern : Pattern
  strike : Option Strike
  /-- whether the dispatch is published -/
  onBus : Bool
  /-- the id under which it is accepted otherwise -/
  acceptAs : Option String
  deriving Inhabited

/-- Somebody who takes note of every message on a topic. The first one makes him publish,
bring in another listener, and end a subscription, as far as his script has it. -/
inductive Listener where
  | mk (topic : Topic) (name : String) (publish : Option Message) (bring : Option Listener)
    (dismiss : Option String) (strike : Option Strike)
  deriving Inhabited

namespace Listener

def topic : Listener → Topic
  | mk topic .. => topic

def name : Listener → String
  | mk _ name .. => name

end Listener

inductive Player where
  | monitor
  | recorder
  | executor (position : Nat) (rules : List ExecutorRule)
  | loopback (failFirst : Nat)
  | listener (number : Nat) (l : Listener)

structure Notes where
  monitor : Monitor
  dispatches : List Dispatch
  planCalls : List (String × Classification × Table Json)
  trackerCalls : List String
  attempts : Nat → Nat
  dispatchAttempts : Nat
  planAttempts : Nat
  loopbackAttempts : Nat
  deliveries : List (String × Topic × Option String)
  /-- the listeners that have had their first message, by number -/
  acted : List Nat
  listeners : Nat
  /-- the latest subscription under a name -/
  places : Table (Topic × Nat)

namespace Notes

def blank : Notes := ⟨[], [], [], [], fun _ => 0, 0, 0, 0, [], [], 0, []⟩

def countAttempt (n : Notes) (position : Nat) : Notes :=
  { n with attempts := fun i => if i = position then n.attempts i + 1 else n.attempts i }

end Notes

abbrev Act := Reaction Player Notes

variable {α : Type}

/-- Ends as a strike will have it, or with an answer. -/
def endWith (strike : Option Strike) (a : α) : Act α :=
  match strike with
  | some s => .finish s.answer
  | none => .finish (.value a)

def bring (l : Listener) : Act Nat := do
  let number := (← Reaction.parts).listeners
  Reaction.change fun n => { n with listeners := n.listeners + 1 }
  let id ← Reaction.listen l.topic (.listener number l)
  Reaction.change fun n => { n with places := Table.put n.places l.name (l.topic, id) }
  return id

/-- Ends the subscription under a name, on its own topic or another. -/
def dismiss (name : String) (topic : Option Topic) : Act Bool := do
  match Table.get? (← Reaction.parts).places name with
  | none => return false
  | some (own, id) => Reaction.leave (topic.getD own) id

/-- Takes note of a delivery; what a first message makes a listener do comes after it. -/
def listenerReacts (number : Nat) (l : Listener) (m : Message) : Act Unit := do
  Reaction.change fun n =>
    { n with deliveries := n.deliveries ++ [(l.name, m.topic, m.session?)] }
  let .mk _ _ publish others dismissed strike := l
  unless (← Reaction.parts).acted.contains number do
    Reaction.change fun n => { n with acted := number :: n.acted }
    if let some p := publish then
      let _ ← Reaction.send p
    if let some other := others then
      let _ ← bring other
    if let some name := dismissed then
      let _ ← dismiss name none
  endWith strike ()

def sendReplies (d : Dispatch) : List Reply → Act Unit
  | [] => return ()
  | r :: rest => do
    let time ← Reaction.now
    Reaction.sendAfter r.delay (.result (r.toResult d time))
    sendReplies d rest

def executorReacts (position : Nat) (rules : List ExecutorRule) (d : Dispatch) : Act Unit := do
  Reaction.change (·.countAttempt position)
  let attempt := (← Reaction.parts).attempts position
  match rules.find? (·.pattern.fits attempt d) with
  | none => return ()
  | some rule =>
    if let some agent := rule.heartbeat then
      let time ← Reaction.now
      let _ ← Reaction.send (.heartbeat ⟨agent, some d.session, some d.task, time⟩)
    sendReplies d rule.replies
    endWith rule.strike ()

def noteDispatch (d : Dispatch) : Act Unit :=
  Reaction.change fun n => { n with dispatches := n.dispatches ++ [d] }

def react : Player → Message → Act Unit
  | .monitor, m => Reaction.change fun n => { n with monitor := n.monitor.observe m }
  | .recorder, .dispatch d => noteDispatch d
  | .recorder, _ => return ()
  | .executor position rules, .dispatch d => executorReacts position rules d
  | .executor .., _ => return ()
  | .loopback failFirst, m =>
    Loopback.react failFirst (·.loopbackAttempts) (fun k n => { n with loopbackAttempts := k }) m
  | .listener number l, m => listenerReacts number l m

def nesting : Nat := 1000

def handlers : Handlers Player Notes := ⟨react, nesting⟩

/-- The entry of a script for a call; the last one stands for all further calls. -/
def entry? (script : List α) (call : Nat) : Option α := script[call]? <|> script.getLast?

def scriptedPlan (script : List (Except Strike (List PlanStep))) (command : String)
    (c : Classification) (context : Table Json) : Act (List PlanStep) := do
  let call := (← Reaction.parts).planAttempts
  Reaction.change fun n =>
    { n with planAttempts := call + 1, planCalls := n.planCalls ++ [(command, c, context)] }
  match entry? script call with
  | some (.ok steps) => return steps
  | some (.error strike) => endWith (some strike) []
  | none => Reaction.fail .json

def scriptedDispatch (rules : List DispatchRule) (d : Dispatch) : Act String := do
  noteDispatch d
  Reaction.change fun n => { n with dispatchAttempts := n.dispatchAttempts + 1 }
  let attempt := (← Reaction.parts).dispatchAttempts
  match rules.find? (·.pattern.fits attempt d) with
  | none => return d.task
  | some rule =>
    match rule.strike with
    | some strike => endWith (some strike) d.task
    | none => if rule.onBus then d.onBus else return rule.acceptAs.getD d.task

/-- Answers by task, or as it does for all others. -/
def scriptedStatus (answers : Table (Except Strike (Option Json))) (task : String) :
    Act (Option Json) := do
  Reaction.change fun n => { n with trackerCalls := n.trackerCalls ++ [task] }
  match Table.get? answers task <|> Table.get? answers "*" with
  | some (.ok answer) => return answer
  | some (.error strike) => endWith (some strike) none
  | none => return none

/-- A strike on the calls of one kind, or of one key. -/
structure StoreStrike where
  hits : StoreCall → Bool
  strike : Strike

/-- The first strike that hits a call. -/
def strikeOn (strikes : List StoreStrike) (c : StoreCall) : Option Strike :=
  (strikes.find? (·.hits c)).map (·.strike)

end Orchestration.Rehearsal
