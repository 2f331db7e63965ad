import Orchestration.CommandLine.Perform
import Std.Time.DateTime.Timestamp

/-! The program: it brings the files that a command is about onto a disk of its own, carries the
command out there, and puts what has been written back into its place. -/
namespace Orchestration.Program

/-- The disk with a file or directory of the system, and with the directories around it. -/
def fetch (d : Disk) (path : String) : IO Disk := do
  let base ← IO.currentDir
  let isThere (p : String) : IO Bool := (base / p).isDir
  let made (d : Disk) (p : String) : Disk := (d.createAll p).toOption.getD d
  if ← isThere path then return made d path
  let d := if ← isThere (Settings.baseOf path) then made d (Settings.baseOf path) else d
  if ← (base / path).pathExists then
    let bytes ← IO.FS.readBinFile (base / path)
    let changed := (← (base / path).metadata).modified.sec
    return (d.write path ⟨.ofBytes bytes.toList, changed⟩).toOption.getD d
  return d

def fetchAll (d : Disk) (directory : String) : IO Disk := do
  let base ← IO.currentDir
  let d ← fetch d directory
  if !(← (base / directory).isDir) then return d
  (← (base / directory).readDir).foldlM (fun d e => fetch d (Disk.join directory e.fileName)) d

def fetchFor (i : Invocation) : IO Disk := do
  let d ← fetch .empty (i.settings.getD Settings.defaultPath)
  let s := (Settings.load d i.settings).toOption.getD .default
  let named := match i.command with
    | .checkPolicy path => path.toList
    | .evaluatePolicy path context => context :: path.toList
    | _ => []
  let d ← (s.policy.path.toList ++ named).foldlM fetch d
  match s.store.backend with
  | .ok (.folder directory) => fetchAll d directory
  | _ => return d

/-- Puts a text into a file in place of another. Where it goes on from that, the rest is
added. -/
def putText (path old new : String) : IO Unit := do
  let file := (← IO.currentDir) / path
  if old.isPrefixOf new && !old.isEmpty then
    let h ← IO.FS.Handle.mk file .append
    h.putStr (String.ofList (new.toList.drop old.length))
  else if old != new || !(← file.pathExists) then IO.FS.writeFile file new

/-- Puts into the system what one disk holds and an earlier one did not. -/
def store (earlier later : Disk) : IO Unit := do
  for (directory, files) in later do
    if !Table.contains earlier directory then
      IO.FS.createDirAll ((← IO.currentDir) / directory)
    for (name, file) in files do
      let path := Disk.join directory name
      let old := match (earlier.file? path).map (·.content) with
        | some (.text s) => s
        | _ => ""
      match file.content with
      | .text new => putText path old new
      | _ => return ()

def inputFor (i : Invocation) : IO String := do
  match i.command with
  | .evaluatePolicy _ "-" => (← IO.getStdin).readToEnd
  | _ => return ""

def now : IO Timestamp := do
  let t ← Std.Time.Timestamp.now
  let nanos := t.toNanosecondsSinceUnixEpoch.val
  return ⟨nanos / tenTo 9, (nanos % tenTo 9).toNat⟩

def perform (i : Invocation) : IO UInt32 := do
  let disk ← fetchFor i
  let report := i.perform ⟨disk, ← inputFor i, ← now, ← IO.rand 0 (twoTo 64)⟩
  store disk report.disk
  IO.sleep report.waited.toUInt32
  for line in report.lines do
    IO.println line
  if let .error cause := report.ending then
    IO.eprintln s!"Error: {cause.text}"
  return report.code.toUInt32

def usage : String :=
  "Usage: conductor [-c FILE] [--log-format json|pretty] COMMAND\n\n" ++
  "Commands:\n" ++
  "  run COMMAND... [--session-id ID] [--context JSON] [--stages ROLES] [--fail-first N] [--history]\n" ++
  "  replay SESSION [--history]\n" ++
  "  sessions\n" ++
  "  decisions [--session ID] [--outcome O] [--action A] [--since T] [--until T] [--limit N]\n" ++
  "  policy check [FILE]\n" ++
  "  policy eval [FILE] --context FILE\n"

end Orchestration.Program

open Orchestration in
def main (args : List String) : IO UInt32 := do
  match CommandLine.read args with
  | .ok i => Program.perform i
  | .error .help =>
    IO.print Program.usage
    return CommandLine.Refusal.help.code.toUInt32
  | .error .misuse =>
    IO.eprint Program.usage
    return CommandLine.Refusal.misuse.code.toUInt32
