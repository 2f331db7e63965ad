import Orchestration.CommandLine.Arguments
import Orchestration.Number.Decimal
import Orchestration.Store.Filter

/-! The commands, and the command lines that stand for them. -/
namespace Orchestration

/-- A run of the loop against the built-in executor. -/
structure RunRequest where
  command : String
  session : Option String
  /-- the context as it is given: an object in JSON -/
  context : Option String
  /-- roles, one after the other; none for a single step -/
  stages : List String
  /-- how many attempts of the executor fail at first -/
  failFirst : Nat
  /-- whether every stored state is shown -/
  history : Bool
  deriving DecidableEq, Inhabited

inductive Command where
  | run (r : RunRequest)
  | replay (session : String) (history : Bool)
  | sessions
  | decisions (f : DecisionFilter)
  | checkPolicy (path : Option String)
  /-- `context` is the path of a file, or a dash for the standard input -/
  | evaluatePolicy (path : Option String) (context : String)
  deriving Inhabited

structure Invocation where
  settings : Option String
  command : Command
  deriving Inhabited

namespace CommandLine

/-- A count in digits, with or without a plus sign, below a limit. -/
def count? (limit : Nat) (text : String) : Option Nat :=
  let digits := match text.toList with
    | '+' :: rest => rest
    | cs => cs
  let n := Decimal.natOf digits
  if !digits.isEmpty && digits.all Number.isDigit && n < limit then some n else none

/-- A number of attempts, which may be zero with a minus sign. -/
def attempts? (text : String) : Option Nat :=
  match text.toList with
  | '-' :: rest => (count? 1 (String.ofList rest)).filter fun _ => rest.head? ≠ some '+'
  | _ => count? (twoTo 32) text

/-- An action by the name of one that is known. -/
def action? (text : String) : Option Action :=
  if Action.ofName text = .unrecognized then none else some (.ofName text)

def isPath (text : String) : Bool := !text.isEmpty

def option (name : String) (accepts : String → Bool) : OptionForm :=
  ⟨name, none, true, false, accepts⟩

def flag (name : String) : OptionForm := ⟨name, none, false, false, fun _ => true⟩

def common : List OptionForm :=
  [{ option "config" isPath with letter := some 'c' },
    option "log-format" fun text => text = "json" || text = "pretty"]

def form (name : String) (options : List OptionForm) (words : Nat × Option Nat) : Form :=
  ⟨name, common ++ options, [], words, fun _ => true, []⟩

def group (name : String) (commands : List Form) : Form :=
  ⟨name, common, [], (0, some 0), fun _ => true, commands⟩

def anyText (_ : String) : Bool := true

def runForm : Form :=
  form "run" [option "session-id" anyText, option "context" anyText,
    { option "stages" anyText with repeats := true },
    option "fail-first" fun text => (attempts? text).isSome, flag "history"] (1, none)

def decisionsForm : Form :=
  form "decisions" [option "session" anyText,
    option "outcome" fun text => (Outcome.read? text).isSome,
    option "action" fun text => (action? text).isSome,
    option "since" fun text => (Timestamp.read? text).isSome,
    option "until" fun text => (Timestamp.read? text).isSome,
    option "limit" fun text => (count? (twoTo 64) text).isSome] (0, some 0)

def policyForm : Form :=
  group "policy" [{ form "check" [] (0, some 1) with accepts := isPath },
    { form "eval" [option "context" isPath] (0, some 1) with
      required := ["context"]
      accepts := isPath }]

def program : Form :=
  group "conductor" [runForm, form "replay" [flag "history"] (1, some 1),
    form "sessions" [] (0, some 0), decisionsForm, policyForm]

def filterOf (g : Given) : DecisionFilter :=
  { session := g.value? "session"
    outcome := (g.value? "outcome").bind Outcome.read?
    action := (g.value? "action").bind action?
    earliest := (g.value? "since").bind Timestamp.read?
    latest := (g.value? "until").bind Timestamp.read?
    limit := (g.value? "limit").bind (count? (twoTo 64)) }

def runOf (g : Given) : RunRequest :=
  { command := " ".intercalate g.words
    session := g.value? "session-id"
    context := g.value? "context"
    stages := (g.all "stages").flatMap fun text =>
      (Text.splitChars ',' text.toList).map String.ofList
    failFirst := ((g.value? "fail-first").bind attempts?).getD 0
    history := g.has "history" }

def commandOf? (path : List String) (g : Given) : Option Command :=
  match path, g.words with
  | ["run"], _ => some (.run (runOf g))
  | ["replay"], [session] => some (.replay session (g.has "history"))
  | ["sessions"], _ => some .sessions
  | ["decisions"], _ => some (.decisions (filterOf g))
  | ["policy", "check"], words => some (.checkPolicy words.head?)
  | ["policy", "eval"], words => (g.value? "context").map (.evaluatePolicy words.head?)
  | _, _ => none

def read (args : List String) : Except Refusal Invocation := do
  let (path, g) ← parse program args
  match commandOf? path g with
  | some command => return ⟨g.value? "config", command⟩
  | none => throw .misuse

end CommandLine
end Orchestration
