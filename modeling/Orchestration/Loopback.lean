import Orchestration.Bus.Reaction

/-! The built-in executor: it answers every dispatch on the spot with a heartbeat and a
result that echoes the objective. Its first attempts may be made to fail. -/
namespace Orchestration.Loopback

def agent : String := "loopback"

def failureText (attempt failFirst : Nat) : String :=
  s!"Simulated failure {attempt} of {failFirst}"

/-- The result of an attempt, counted from one. -/
def result (failFirst attempt : Nat) (d : Dispatch) (time : Timestamp) : TaskResult :=
  if attempt ≤ failFirst then
    .failure d agent (.of "loopback_failure" (failureText attempt failFirst)) time
  else
    ({ TaskResult.success d agent time with
        result := .record [("echo", .str d.objective), ("delegate_to", .str d.delegate)] }
      ).withConfidence .one

variable {η σ : Type}

/-- The answer to a message. `attempts` and `withAttempts` say where the attempts are
counted. -/
def react (failFirst : Nat) (attempts : σ → Nat) (withAttempts : Nat → σ → σ) :
    Message → Reaction η σ Unit
  | .dispatch d => do
    let time ← Reaction.now
    let _ ← Reaction.send (.heartbeat ⟨agent, some d.session, some d.task, time⟩)
    let attempt := attempts (← Reaction.parts) + 1
    Reaction.change (withAttempts attempt)
    let time ← Reaction.now
    let _ ← Reaction.send (.result (result failFirst attempt d time))
  | _ => return ()

end Orchestration.Loopback
