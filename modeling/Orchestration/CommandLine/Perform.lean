import Orchestration.CommandLine.Command
import Orchestration.Loop.Execute
import Orchestration.Loopback
import Orchestration.Monitor
import Orchestration.Policy.Watch
import Orchestration.Settings

/-! Carrying out a command: what it prints, how it ends and what it leaves on the disk. -/
namespace Orchestration

inductive Failure where
  | fault (f : Fault)
  | noPolicy
  /-- the context of a run is no object in JSON -/
  | contextForm
  | unreadableContext (path : String) (cause : SystemError)
  | invalidContext
  /-- it is not carried to its end -/
  | panic (text : String)
  deriving Inhabited

def Failure.text : Failure → String
  | fault f => f.message
  | noPolicy => "No policy file given and no policy.path configured"
  | contextForm => "--context must be a JSON object"
  | unreadableContext path cause => s!"Failed to read context '{path}': {cause.text}"
  | invalidContext => "Invalid policy context"
  | panic text => text

/-- What a command finds when it begins. -/
structure Surroundings where
  disk : Disk
  input : String
  time : Timestamp
  /-- what fresh ids begin with -/
  seed : Nat

/-- How far a command has come. -/
structure Progress where
  disk : Disk
  lines : List String
  /-- milliseconds that it has waited -/
  waited : Nat

/-- A part of a command. What it printed and stored remains even if it fails. -/
abbrev Work := ExceptT Failure (StateM Progress)

namespace Work

def print (line : String) : Work Unit := modify fun p => { p with lines := p.lines ++ [line] }

def disk : Work Disk := return (← get).disk

def keep (d : Disk) : Work Unit := modify fun p => { p with disk := d }

def faulty {α : Type} : Except Fault α → Work α
  | .ok a => return a
  | .error f => throw (.fault f)

def answered {α : Type} : Answer α → Work α
  | .value a => return a
  | .fault f => throw (.fault f)
  | .panic text => throw (.panic text)

def storage : Work Storage := return Storage.empty.withDisk (← disk)

def openStore (s : StoreSettings) : Work Backend := do
  let (backend, ready) ← faulty (s.open (← storage))
  keep ready.disk
  return backend

/-- The engine with the policy of the settings, if they name one. A watched file has to be in
a directory that is there. -/
def policyEngine (s : PolicySettings) : Work PolicyEngine := do
  match s.path with
  | none => return .empty
  | some path =>
    let (loaded, engine) := PolicyEngine.empty.load (← disk) path
    let _ ← faulty loaded
    if s.watch then
      let _ ← faulty (PolicyWatch.start (← disk) path)
    return engine

end Work

/-! Runs. -/

/-- Those who attend to a run: a monitor, and the executor. -/
inductive Attendant where
  | monitor
  | executor (failFirst : Nat)

structure Attendance where
  monitor : Monitor
  attempts : Nat

namespace Attendant

def react : Attendant → Message → Reaction Attendant Attendance Unit
  | .monitor, m => Reaction.change fun a => { a with monitor := a.monitor.observe m }
  | .executor failFirst, m =>
    Loopback.react failFirst (·.attempts) (fun n a => { a with attempts := n }) m

/-- A dispatch is answered within its publication, and nothing is published in answer to
that. -/
def handlers : Handlers Attendant Attendance := ⟨react, 8⟩

def bus (pollInterval failFirst : Nat) : Bus Attendant :=
  [(Topic.heartbeat, monitor), (.result, monitor), (.dispatch, executor failFirst)].foldl
    (fun b (topic, a) => (b.subscribe topic (some a)).2) (.empty pollInterval)

end Attendant

namespace RunRequest

def services (r : RunRequest) (config : LoopConfig) (backend : Backend) :
    Services Attendant Attendance :=
  let plain := Services.plain Attendant.handlers config backend
  if r.stages.isEmpty then plain
  else { plain with plan := fun command c _ => return Plan.staged command c.risk r.stages }

def contextTable (r : RunRequest) : Except Failure (Table Json) :=
  match r.context with
  | none => .ok []
  | some text =>
    match (Json.read? text).bind Json.table? with
    | some context => .ok context
    | none => .error .contextForm

end RunRequest

namespace Work

def printResult (r : RunResult) (history : Bool) : Work Bool := do
  let r := if history then r else { r with history := [] }
  print r.toJson.pretty
  return r.success

def world (s : Settings) (failFirst : Nat) (engine : PolicyEngine) (here : Surroundings)
    (storage : Storage) : World Attendant Attendance :=
  ⟨0, [], Attendant.bus s.loop.pollInterval failFirst, [], storage, engine, ⟨[], 0⟩, here.time,
    0, here.seed, 0, []⟩

def run (s : Settings) (r : RunRequest) (here : Surroundings) : Work Bool := do
  let context ← ExceptT.mk (return r.contextTable)
  let backend ← openStore s.store
  let engine ← policyEngine s.policy
  let w := world s r.failFirst engine here (← storage)
  let (result, w) := (r.services s.loop backend).execute r.command context r.session w
  keep w.storage.disk
  modify fun p => { p with waited := w.clock }
  printResult result r.history

def replay (s : Settings) (session : String) (history : Bool) (here : Surroundings) :
    Work Bool := do
  let backend ← openStore s.store
  let services := Services.plain Attendant.handlers s.loop backend
  let w := world s 0 .empty here (← storage)
  let result ← answered (services.replay session w)
  printResult result history

def sessionLine (r : RunResult) : String :=
  s!"{r.session}\t{r.finalPhase.text}\titerations={r.iterations}\tsuccess={r.success}"

def sessions (s : Settings) : Work Bool := do
  let backend ← openStore s.store
  let ids ← faulty ((← storage).sessions backend)
  if ids.isEmpty then print s!"No sessions stored in {s.store.directory}"
  for id in ids do
    let states ← faulty ((← storage).statesOf backend id)
    print (sessionLine (← answered (RunResult.ofHistory id states)))
  return true

def decisions (s : Settings) (f : DecisionFilter) : Work Bool := do
  let backend ← openStore s.store
  for log in ← faulty ((← storage).query backend f) do
    print log.toJson.compact
  return true

/-! Policies. -/

/-- The policy file that is meant: the one named, else that of the settings. -/
def policyPath (s : Settings) (named : Option String) : Work String :=
  match named <|> s.policy.path with
  | some path => return path
  | none => throw .noPolicy

def listed (items : List String) : String :=
  "[" ++ ", ".intercalate (items.map Text.quoted) ++ "]"

/-- A line for a rule, with its priority at least four places wide. -/
def ruleLine (r : Rule) : String :=
  let priority := (toString r.priority).toList
  let padding := List.replicate (4 - priority.length) ' '
  s!"    [{String.ofList (padding ++ priority)}] {r.name} ({r.conditions.length} condition(s))"

def policyLines (p : Policy) : List String :=
  (p.version.toList.map fun v => s!"  spec_version: {v}") ++
    (if p.defaults.allow.isEmpty && p.defaults.forbid.isEmpty then []
      else [s!"  defaults: allow={listed p.defaults.allow} forbid={listed p.defaults.forbid}"]) ++
    s!"  rules: {p.rules.length}" :: p.rules.map ruleLine

def checkPolicy (s : Settings) (named : Option String) : Work Bool := do
  let path ← policyPath s named
  let p ← faulty (Policy.load (← disk) path)
  print s!"{path}: ok"
  for line in policyLines p do
    print line
  return true

/-- The text of a context, which may be on the standard input. -/
def contextText (here : Surroundings) (path : String) : Work String :=
  if path = "-" then return here.input
  else match here.disk.read path with
    | .ok text => return text
    | .error cause => throw (.unreadableContext path cause)

def evaluatePolicy (s : Settings) (named : Option String) (context : String)
    (here : Surroundings) : Work Bool := do
  let path ← policyPath s named
  let text ← contextText here context
  match (Json.read? text).bind PolicyContext.ofJson? with
  | none => throw .invalidContext
  | some c =>
    let p ← faulty (Policy.load (← disk) path)
    print (p.evaluate c).toJson.pretty
    return true

end Work

def Invocation.work (i : Invocation) (here : Surroundings) : Work Bool := do
  let s ← Work.faulty (Settings.load here.disk i.settings)
  match i.command with
  | .run r => Work.run s r here
  | .replay session history => Work.replay s session history here
  | .sessions => Work.sessions s
  | .decisions f => Work.decisions s f
  | .checkPolicy path => Work.checkPolicy s path
  | .evaluatePolicy path context => Work.evaluatePolicy s path context here

structure Report where
  lines : List String
  /-- whether it was successful, or why it failed -/
  ending : Except Failure Bool
  disk : Disk
  /-- milliseconds that it waited -/
  waited : Nat

def Invocation.perform (i : Invocation) (here : Surroundings) : Report :=
  let (ending, p) := StateT.run (ExceptT.run (i.work here)) ⟨here.disk, [], 0⟩
  ⟨p.lines, ending, p.disk, p.waited⟩

namespace Report

/-- The exit code: zero for success, one for anything else but a panic. -/
def code (r : Report) : Nat :=
  match r.ending with
  | .ok true => 0
  | .error (.panic _) => 101
  | _ => 1

end Report

namespace CommandLine

/-- The exit code of a command line that is no command. -/
def Refusal.code : Refusal → Nat
  | .help => 0
  | .misuse => 2

end CommandLine
end Orchestration
