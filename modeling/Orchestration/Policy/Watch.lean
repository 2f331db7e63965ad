import Orchestration.Policy.Engine

/-! Watching a policy file. Its directory is watched, so that a file put in its place is
noticed as well as one written to; a change that puts no new policy in force goes
unmentioned. -/
namespace Orchestration

structure PolicyWatch where
  path : String
  deriving Inhabited

namespace PolicyWatch

def directory (w : PolicyWatch) : String :=
  let parent := Disk.parent w.path
  if parent.isEmpty then "." else parent

def start (d : Disk) (path : String) : Except Fault PolicyWatch :=
  let w : PolicyWatch := ⟨path⟩
  if d.isDirectory w.directory then .ok w else .error (.unwatchable w.directory)

/-- Whether a change of a file matters: it is the watched one, or has its name in the
watched directory. -/
def concerns (w : PolicyWatch) (changed : String) : Bool :=
  Disk.place? changed == Disk.place? w.path

/-- After a change of a file: whether the watcher put a new policy in force, and the
engine. -/
def notice (w : PolicyWatch) (d : Disk) (changed : String) (e : PolicyEngine) :
    Bool × PolicyEngine :=
  if w.concerns changed then e.refresh d w.path else (false, e)

end PolicyWatch
end Orchestration
