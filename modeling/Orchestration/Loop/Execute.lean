import Orchestration.Loop.Phases

/-! The loop itself. It enters one phase after the other, until a decision halts it, the
iterations run out or the store fails. Whatever happens, a run comes to a result. -/
namespace Orchestration

variable {η σ : Type}

/-- Where the loop is: about to enter a phase, or at its end. -/
inductive Station (η σ : Type) where
  | enter (phase : Phase) (w : World η σ) (r : Run)
  | ended (e : Standing η σ)

def Station.standing : Station η σ → Standing η σ
  | enter _ w r => .on w r
  | ended e => e

/-- On to where the loop goes from here, unless the run has been stopped. -/
def Standing.goOn (e : Standing η σ) (f : World η σ → Run → Station η σ) : Station η σ :=
  match e.stopped with
  | none => f e.world e.run
  | some _ => .ended e

namespace LoopConfig

/-- Phases that the loop does not come to the end of: the first one and four in each
iteration. -/
def phaseLimit (c : LoopConfig) : Nat := 4 * (c.maxIterations + 1) + 1

end LoopConfig

namespace Services

variable (s : Services η σ)

def settle (v : Verdict) (w : World η σ) (r : Run) : Station η σ :=
  if v.exhausts s.config r.iteration then .ended (.on w r)
  else match v.decision.transition r.iteration with
    | .value .halt =>
      if v.decision.action = Action.complete then
        .ended (s.persist (completion v.decision w r))
      else .ended (.on w r)
    | .value (.proceed phase iteration) => .enter phase w { r with iteration := iteration }
    | .fault f => .ended ⟨w, r, some (.fault f)⟩
    | .panic text => .ended ⟨w, r, some (.panic text)⟩

def step (phase : Phase) (w : World η σ) (r : Run) : Station η σ :=
  match phase with
  | .awareness => (s.persist (s.awareness w r)).goOn (.enter .planning)
  | .planning => (s.persist (s.planning w r)).goOn (.enter .delegation)
  | .delegation => (s.persist (s.delegation w r)).goOn (.enter .observation)
  | .observation => (s.persist (s.observation w r)).goOn (.enter .decision)
  | .decision =>
    let v := Verdict.of s.config w.engine r
    (s.persistDecision (s.decision v w r)).goOn (s.settle v)
  | .complete => .ended (.on w r)

/-- The loop from one station on, through at most so many phases. -/
def advance : Nat → Station η σ → Station η σ
  | n + 1, .enter phase w r => advance n (s.step phase w r)
  | _, st => st

def drive (w : World η σ) (r : Run) : Standing η σ :=
  (s.advance s.config.phaseLimit (.enter .awareness w r)).standing

/-- The fan-in with which a run begins: the policy's, else the configured one. -/
def initialFanIn (w : World η σ) : FanInPolicy :=
  (w.engine.current.bind (·.defaults.fanIn)).getD s.config.fanIn

def begin (command : String) (context : Table Json) (session : Option String) (w : World η σ) :
    World η σ × Run :=
  let (session, w) := match session with
    | some id => (id, w)
    | none => w.freshId
  let (correlation, w) := w.freshId
  ({ w with journal := [] }, .start session correlation command context (s.initialFanIn w))

def outcome (command : String) (context : Table Json) (session : Option String)
    (w : World η σ) : Standing η σ :=
  let (w, r) := s.begin command context session w
  s.drive w r

/-- The result of a finished run, as it follows from its history unless it was stopped. The
history counts no further than the limit of iterations, which 32 bits hold. -/
def resultOf (e : Standing η σ) : RunResult :=
  let result := RunResult.inFull e.run.session e.run.history
  match e.stopped with
  | none => result
  | some cause => { result with success := false, error := some cause.message }

def execute (command : String) (context : Table Json) (session : Option String) (w : World η σ) :
    RunResult × World η σ :=
  let e := s.outcome command context session w
  (resultOf e, if s.config.clearBus then
    { e.world with bus := e.world.bus.clearSession e.run.session } else e.world)

def replay (session : String) (w : World η σ) : Answer RunResult :=
  match s.statesOf session w with
  | .value [] => .fault (.noStates session)
  | .value states => RunResult.ofHistory session states
  | .fault f => .fault f
  | .panic text => .panic text

end Services
end Orchestration
