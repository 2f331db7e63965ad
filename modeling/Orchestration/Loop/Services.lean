import Orchestration.Collection
import Orchestration.Loop.Config
import Orchestration.Loop.Outcome
import Orchestration.Plan.Check
import Orchestration.Plan.Planner

/-! Whom the loop relies on: collaborators that may answer, fail or panic at any call, and a
store that may be struck before a call reaches it. -/
namespace Orchestration

inductive Strike where
  | fault (f : Fault)
  | panic (text : String)
  deriving Inhabited

structure Services (η σ : Type) extends Handlers η σ where
  config : LoopConfig
  backend : Backend
  strike : StoreCall → Option Strike
  classify : String → Table Json → Reaction η σ Classification
  plan : String → Classification → Table Json → Reaction η σ (List PlanStep)
  /-- hands a step on, and answers under which id its task was accepted -/
  dispatch : Dispatch → Reaction η σ String
  /-- what is known of a task without waiting for it -/
  status : Option (String → Reaction η σ (Option Json))

namespace Strike

def answer {α : Type} : Strike → Answer α
  | fault f => .fault f
  | panic text => .panic text

end Strike

namespace Answer

def failure? {α : Type} : Answer α → Option Interruption
  | value _ => none
  | fault f => some (.fault f)
  | panic text => some (.panic text)

def ofExcept {α : Type} : Except Fault α → Answer α
  | .ok a => .value a
  | .error f => .fault f

end Answer

/-- Publishing on the bus as a way to hand a step on. It takes somebody who listens. -/
def Dispatch.onBus {η σ : Type} (d : Dispatch) : Reaction η σ String := do
  let listeners ← Reaction.subscribers .dispatch
  if listeners = 0 then Reaction.fail (.noExecutor Topic.dispatch.text d.task)
  else
    let _ ← Reaction.send (.dispatch d)
    return d.task

namespace Services

variable {η σ α : Type}

/-- The loop by itself: an empty policy, one step for a command, dispatch on the bus. -/
def plain (h : Handlers η σ) (config : LoopConfig) (backend : Backend) : Services η σ :=
  { h with
    config := config
    backend := backend
    strike := fun _ => none
    classify := fun _ context => return Classification.hinted context
    plan := fun command _ _ => return Plan.single command defaultDelegate
    dispatch := Dispatch.onBus
    status := none }

def read (s : Services η σ) (c : StoreCall) (w : World η σ)
    (f : Storage → Backend → Except Fault α) : Answer α :=
  match s.strike c with
  | some strike => strike.answer
  | none => .ofExcept (f w.storage s.backend)

def write (s : Services η σ) (c : StoreCall) (w : World η σ)
    (f : Storage → Backend → Except Fault Storage) : Answer (World η σ) :=
  match s.strike c with
  | some strike => strike.answer
  | none => .ofExcept ((f w.storage s.backend).map fun storage => { w with storage := storage })

def keep (s : Services η σ) (r : Record) (w : World η σ) : Answer (World η σ) :=
  s.write r.call w (·.add · r)

def statesOf (s : Services η σ) (session : String) (w : World η σ) : Answer (List State) :=
  s.read (.readSession session) w (·.statesOf · session)

end Services
end Orchestration
