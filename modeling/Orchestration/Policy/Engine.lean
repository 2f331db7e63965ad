import Orchestration.Policy.Evaluate
import Orchestration.Policy.File

/-! The policy in force, and where it came from. A file is parsed again only when another
file was loaded last or its time of modification has advanced; a call that fails leaves
everything as it was. -/
namespace Orchestration

structure LoadedPolicy where
  policy : Policy
  /-- the file it was loaded from, and the file's time of modification then -/
  source : Option (String × Int)
  deriving Inhabited

structure PolicyEngine where
  loaded : Option LoadedPolicy
  /-- how often a file was parsed, successfully or not -/
  parses : Nat
  deriving Inhabited

namespace PolicyEngine

def empty : PolicyEngine := ⟨none, 0⟩

def current (e : PolicyEngine) : Option Policy := e.loaded.map (·.policy)

def source? (e : PolicyEngine) : Option String :=
  (e.loaded.bind (·.source)).map (·.1)

def set (e : PolicyEngine) (p : Policy) : PolicyEngine := { e with loaded := some ⟨p, none⟩ }

def modified (d : Disk) (path : String) : Except Fault Int :=
  match d.modified path with
  | .ok t => .ok t
  | .error cause => .error (.unavailablePolicy path cause)

def load (e : PolicyEngine) (d : Disk) (path : String) : Except Fault Policy × PolicyEngine :=
  match modified d path with
  | .error f => (.error f, e)
  | .ok t =>
    match Policy.load d path with
    | .error f => (.error f, { e with parses := e.parses + 1 })
    | .ok p => (.ok p, ⟨some ⟨p, some (path, t)⟩, e.parses + 1⟩)

/-- Whether a policy was loaded from a path whose file has not been modified since. -/
def isCurrent (l : LoadedPolicy) (path : String) (t : Int) : Bool :=
  l.source.any fun (origin, known) => Disk.samePath origin path && t ≤ known

/-- The policy of a file, parsed only if need be. -/
def reload (e : PolicyEngine) (d : Disk) (path : String) : Except Fault Policy × PolicyEngine :=
  match modified d path with
  | .error f => (.error f, e)
  | .ok t =>
    match e.loaded with
    | some l => if isCurrent l path t then (.ok l.policy, e) else e.load d path
    | none => e.load d path

/-- Whether reloading a file put a newly parsed policy in force. -/
def refresh (e : PolicyEngine) (d : Disk) (path : String) : Bool × PolicyEngine :=
  match e.reload d path with
  | (.error _, e') => (false, e')
  | (.ok _, e') => (e'.parses != e.parses, e')

def evaluate (e : PolicyEngine) (c : PolicyContext) : EffectivePolicy :=
  match e.current with
  | some p => p.evaluate c
  | none => .none

end PolicyEngine
end Orchestration
