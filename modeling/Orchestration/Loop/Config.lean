import Orchestration.Fault
import Orchestration.Observation

/-! The settings of the loop. Each has a default. -/
namespace Orchestration

structure LoopConfig where
  /-- iterations after which the loop goes no further round -/
  maxIterations : Nat
  /-- seconds that one round is waited for -/
  observationTimeout : Nat
  /-- milliseconds between looks at the results -/
  pollInterval : Nat
  fanIn : FanInPolicy
  /-- seconds stated on every dispatch -/
  taskTimeout : Nat
  capabilities : List String
  /-- whether a finished run is dropped from the bus -/
  clearBus : Bool
  deriving DecidableEq, Inhabited

namespace LoopConfig

def default : LoopConfig := ⟨10, 300, 100, .default, 300, [], true⟩

def toJson (c : LoopConfig) : Json :=
  .record [("max_iterations", .nat c.maxIterations),
    ("observation_timeout_secs", .nat c.observationTimeout),
    ("poll_interval_ms", .nat c.pollInterval), ("fan_in", c.fanIn.toJson),
    ("default_task_timeout_secs", .nat c.taskTimeout),
    ("capability_registry", .strings c.capabilities), ("clear_bus_on_finish", .bool c.clearBus)]

def of? {δ : Type} [Document δ] (d : δ) : Option LoopConfig := do
  let f ← Fields.of? ["max_iterations", "observation_timeout_secs", "poll_interval_ms", "fan_in",
    "default_task_timeout_secs", "capability_registry", "clear_bus_on_finish"] d
  let maxIterations ← f.defaulted "max_iterations" Document.u32? default.maxIterations
  let timeout ← f.defaulted "observation_timeout_secs" Document.u64? default.observationTimeout
  let pollInterval ← f.defaulted "poll_interval_ms" Document.u64? default.pollInterval
  let fanIn ← f.defaulted "fan_in" FanInPolicy.of? default.fanIn
  let taskTimeout ← f.defaulted "default_task_timeout_secs" Document.u64? default.taskTimeout
  let capabilities ← f.defaulted "capability_registry" Document.strings? default.capabilities
  let clearBus ← f.defaulted "clear_bus_on_finish" Document.bool? default.clearBus
  return ⟨maxIterations, timeout, pollInterval, fanIn, taskTimeout, capabilities, clearBus⟩

/-- At least one iteration, some time between looks, and a threshold within the unit
interval. -/
def validate (c : LoopConfig) : Except Fault Unit :=
  if c.maxIterations = 0 then .error (.setting .noIterations)
  else if c.pollInterval = 0 then .error (.setting .noPollInterval)
  else if Binary64.zero.le c.fanIn.threshold && c.fanIn.threshold.le .one then .ok ()
  else .error (.setting (.threshold c.fanIn.threshold))

/-- The numbers are within the widths that settings are kept in. -/
structure Fits (c : LoopConfig) : Prop where
  maxIterations : c.maxIterations < twoTo 32
  observationTimeout : c.observationTimeout < twoTo 64
  pollInterval : c.pollInterval < twoTo 64
  taskTimeout : c.taskTimeout < twoTo 64

end LoopConfig
end Orchestration
