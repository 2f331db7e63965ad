import Orchestration.Loop.Run

/-! The phases of a run. Each does its part in the world and comes to a state, which is
stored before the next one begins. Only the store can stop a run; what goes wrong with a
collaborator is made good on the spot. -/
namespace Orchestration

/-- Where a run stands after some of its phases. -/
structure Standing (η σ : Type) where
  world : World η σ
  run : Run
  stopped : Option Interruption

namespace Standing

variable {η σ : Type}

def on (w : World η σ) (r : Run) : Standing η σ := ⟨w, r, none⟩

/-- What follows, unless the run has been stopped. -/
def next (s : Standing η σ) (f : World η σ → Run → Standing η σ) : Standing η σ :=
  match s.stopped with
  | none => f s.world s.run
  | some _ => s

end Standing

/-- What a phase comes to: a state to store, and the world and the run it leaves. -/
structure Draft (η σ : Type) where
  world : World η σ
  run : Run
  state : State

namespace Services

variable {η σ α : Type} (s : Services η σ)

/-- Calls a collaborator. A panic is his fault, and no more than that. -/
def ask (d : Deed) (r : Reaction η σ α) (w : World η σ) : Except Fault α × World η σ :=
  let (answer, w) := World.call s.toHandlers r (w.note d)
  (answer.guarded, w)

/-- Writes a record, and takes note of how that went. -/
def record (rec : Record) (w : World η σ) (r : Run) : Standing η σ :=
  match s.keep rec w with
  | .value w => .on (w.note (.stored rec)) r
  | .fault f => ⟨w.note (.refused rec (.fault f)), r, some (.fault f)⟩
  | .panic text => ⟨w.note (.refused rec (.panic text)), r, some (.panic text)⟩

def persist (d : Draft η σ) : Standing η σ :=
  (s.record (.state d.state) d.world d.run).next fun w r =>
    .on w { r with history := r.history ++ [d.state] }

def persistDecision (d : Draft η σ) : Standing η σ :=
  match DecisionLog.ofState? d.state with
  | none => ⟨d.world, d.run, some (.fault .undecided)⟩
  | some log => (s.record (.log log) d.world d.run).next fun w r => s.persist ⟨w, r, d.state⟩

def classificationKey : String := "classification"

def awareness (w : World η σ) (r : Run) : Draft η σ :=
  let (answer, w) := s.ask (.classify r.command r.context) (s.classify r.command r.context) w
  let r := { r with classification := answer.toOption.getD .generic }
  let (time, w) := w.time
  ⟨w, r, { r.state .awareness time with
    metadata := [(classificationKey, r.classification.toJson)] }⟩

/-- The plan of a planner's answer: a single step, if there is none or it cannot be
delegated. -/
def planFrom (r : Run) (answer : Except Fault (List PlanStep)) : List PlanStep :=
  match answer.bind Plan.accept with
  | .ok steps => steps
  | .error _ => Plan.single r.command defaultDelegate

def planning (w : World η σ) (r : Run) : Draft η σ :=
  let (answer, w) := s.ask (.plan r.command r.classification r.planningContext)
    (s.plan r.command r.classification r.planningContext) w
  let r := { r with plan := planFrom r answer }
  let (time, w) := w.time
  ⟨w, r, { r.state .planning time with
    plan := some r.plan
    metadata := [(classificationKey, r.classification.toJson)] }⟩

/-- The record of a step, by the answer of the one it was handed to. -/
def delegationOf (r : Run) (step : PlanStep) : Except Fault String → Delegation
  | .ok task => ⟨task, step.id, step.delegate, step.objective, true, none⟩
  | .error f => ⟨r.taskOf step.id, step.id, step.delegate, step.objective, false, some f.message⟩

def delegateAll (r : Run) : List PlanStep → World η σ → List Delegation × World η σ
  | [], w => ([], w)
  | step :: rest, w =>
    let d := r.dispatchOf s.config.taskTimeout step
    let (answer, w) := s.ask (.dispatch d) (s.dispatch d) w
    let (others, w) := delegateAll r rest w
    (delegationOf r step answer :: others, w)

/-- The pause in place of one that is longer than the clock can tell: thirty years. -/
def longestPause : Nat := 30 * 365 * 86400 * 1000

def backOff (w : World η σ) (span : Nat) : World η σ :=
  World.pass s.toHandlers (if w.canWait span then span else longestPause) w

def delegation (w : World η σ) (r : Run) : Draft η σ :=
  let w := s.backOff w r.pause
  let r := { r with pause := 0 }
  let (delegations, w) := s.delegateAll r r.plan w
  let r := { r with delegations := delegations }
  let (time, w) := w.time
  ⟨w, r, { r.state .delegation time with
    delegations := some r.delegations
    plan := some r.plan }⟩

/-- Whether a tracker's record says that its task has come to an end. -/
def isTerminal (record : Table Json) : Bool :=
  match ((Table.get? record "status").bind Json.string?).bind TaskStatus.ofWord? with
  | some status => status ≠ .partial
  | none => false

/-- What is known of a delegation without waiting: that it was kept back, or what a tracker
says of it. -/
def known (d : Delegation) (w : World η σ) : Option Observation × World η σ :=
  if !d.dispatched then
    (some (.failed d.task (.of "dispatch_failed" (d.error.getD ""))), w)
  else match s.status with
    | none => (none, w)
    | some status =>
      match s.ask (.status d.task) (status d.task) w with
      | (.ok (some (.obj record)), w) =>
        if isTerminal record then
          let record := if Table.contains record "task_id" then record
            else Table.put record "task_id" (.str d.task)
          (some (.raw record), w)
        else (none, w)
      | (_, w) => (none, w)

/-- Holds back what is known of the delegations, and gives the tasks still to wait for. -/
def prefill (session : String) : List Delegation → World η σ → List String × World η σ
  | [], w => ([], w)
  | d :: rest, w =>
    match s.known d w with
    | (some o, w) => prefill session rest (w.hold session o)
    | (none, w) =>
      let (waiting, w) := prefill session rest w
      (d.task :: waiting, w)

/-- The summary of a round. If gathering it panics, nothing was observed. -/
def summarize (w : World η σ) (r : Run) : Summary × World η σ :=
  if r.delegations.isEmpty then (.nothingDelegated, w)
  else
    let (waiting, w) := s.prefill r.session r.delegations w
    match World.collect s.toHandlers r.session waiting (s.config.observationTimeout * 1000) r.fanIn w
      with
    | (.value summary, w) => (summary, w)
    | (_, w) => (.empty, w)

def fanInKey : String := "fan_in"

def announce (m : Message) (w : World η σ) : World η σ :=
  (World.publish s.toHandlers m (w.note (.publish m))).2

def observation (w : World η σ) (r : Run) : Draft η σ :=
  let (summary, w) := s.summarize w r
  let w := s.announce (.summary r.session r.iteration summary) w
  let (time, w) := w.time
  let r := { r with summary := some summary }
  ⟨w, r, { r.state .observation time with
    observations := some summary
    metadata := [(fanInKey, r.fanIn.toJson)] }⟩

def decision (v : Verdict) (w : World η σ) (r : Run) : Draft η σ :=
  let r := v.carry r
  let (time, w) := w.time
  ⟨w, r, v.state s.config r time⟩

def completion (d : Decision) (w : World η σ) (r : Run) : Draft η σ :=
  let (time, w) := w.time
  ⟨w, r, { r.state .complete time with
    decision := some d
    observations := r.summary }⟩

end Services
end Orchestration
