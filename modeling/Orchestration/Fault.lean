import Orchestration.Json.Printer

/-! Everything that can go wrong, by cause. A fault has a kind, which says whose concern it
is, and a message: the kind's heading and the wording of the cause. -/
namespace Orchestration

inductive FaultKind where
  | config | store | duplicate | bus | collaborator | policy | orchestrator | notFound
  | json | yaml | io
  deriving DecidableEq, Inhabited

def FaultKind.heading : FaultKind → String
  | config => "Config error"
  | store => "Store error"
  | duplicate => "Duplicate record"
  | bus => "Bus error"
  | collaborator => "Collaborator error"
  | policy => "Policy error"
  | orchestrator => "Orchestrator error"
  | notFound => "Not found"
  | json => "JSON error"
  | yaml => "YAML error"
  | io => "IO error"

inductive SystemError where
  | missing | isDirectory | notDirectory | exists | nameTooLong | notText
  deriving DecidableEq, Inhabited

def SystemError.text : SystemError → String
  | missing => "No such file or directory (os error 2)"
  | isDirectory => "Is a directory (os error 21)"
  | notDirectory => "Not a directory (os error 20)"
  | .exists => "File exists (os error 17)"
  | nameTooLong => "File name too long (os error 36)"
  | notText => "stream did not contain valid UTF-8"

inductive OperandKind where
  | number | list | strings
  deriving DecidableEq, Inhabited

def OperandKind.text : OperandKind → String
  | number => "a number"
  | list => "a list"
  | strings => "a list of strings"

inductive ConditionFault where
  /-- an operator among other keys -/
  | keys (path : String) (count : Nat)
  | operand (operator path : String) (expected : OperandKind) (found : Json)
  deriving Inhabited

def ConditionFault.text : ConditionFault → String
  | keys path count =>
    s!"Condition on '{path}' must hold exactly one operator, got {count} keys"
  | operand operator path expected found =>
    s!"Operator '{operator}' on '{path}' expects {expected.text}, got {found.compact}"

inductive PlanFault where
  | empty
  | repeatedStep (step : String)
  | unknownDependency (step dependency : String)
  | cycle (step : String)
  deriving DecidableEq, Inhabited

def PlanFault.text : PlanFault → String
  | empty => "Planner returned an empty plan"
  | repeatedStep step => s!"Duplicate plan step id '{step}'"
  | unknownDependency step dependency =>
    s!"Step '{step}' depends on unknown step '{dependency}'"
  | cycle step => s!"Dependency cycle through step '{step}'"

inductive SettingFault where
  | noIterations
  | noPollInterval
  | threshold (value : Binary64)
  deriving DecidableEq, Inhabited

def SettingFault.text : SettingFault → String
  | noIterations => "max_iterations must be at least 1"
  | noPollInterval => "poll_interval_ms must be positive"
  | threshold value =>
    s!"fan_in.threshold must be within [0, 1], got {String.ofList (value.text .message)}"

inductive Purpose where
  | policy | config
  deriving DecidableEq, Inhabited

def Purpose.text : Purpose → String
  | policy => "policy"
  | config => "config"

inductive Fault where
  | unknownPhase (name : String)
  | unknownOutcome (name : String)
  | condition (cause : ConditionFault)
  /-- a rule one of whose conditions cannot be read -/
  | rule (name : String) (cause : ConditionFault)
  | plan (cause : PlanFault)
  | setting (cause : SettingFault)
  | unsupportedPolicy (path : String)
  | unavailablePolicy (path : String) (cause : SystemError)
  | unreadable (purpose : Purpose) (path : String) (cause : SystemError)
  /-- a document that is malformed, or that holds a rule that is -/
  | unparsable (purpose : Purpose) (path : String) (rule : Option (String × ConditionFault))
  | unwatchable (path : String)
  | noDatabaseSupport
  | invalidSession (quoted : String)
  /-- a record that cannot be read, in a file or in a database, and the column of its text from
  which on it is nested too deep -/
  | corruptRecord (path : Option String) (column : Option Nat)
  | database (text : String)
  | duplicateState (key : String)
  | duplicateDecision (key : String)
  | duplicateRow (key : String)
  | subscriberPanicked (topic : String)
  | noExecutor (topic task : String)
  | collaboratorPanicked (text : String)
  | noStates (session : String)
  | undecided
  | system (cause : SystemError)
  | json
  /-- a fault that a collaborator reports in its own words -/
  | reported (kind : FaultKind) (text : String)
  deriving Inhabited

namespace Fault

def kind : Fault → FaultKind
  | unknownPhase _ | unknownOutcome _ | invalidSession _ | corruptRecord .. | database _ => .store
  | condition _ | rule .. | setting _ | unsupportedPolicy _ | unavailablePolicy ..
  | unreadable .. | unparsable .. | unwatchable _ | noDatabaseSupport => .config
  | duplicateState _ | duplicateDecision _ | duplicateRow _ => .duplicate
  | subscriberPanicked _ => .bus
  | plan _ | noExecutor .. | collaboratorPanicked _ => .collaborator
  | noStates _ => .notFound
  | undecided => .orchestrator
  | system _ => .io
  | json => .json
  | reported kind _ => kind

def ruleText (name : String) (cause : ConditionFault) : String :=
  s!"Rule '{name}': Config error: {cause.text}"

def text : Fault → String
  | unknownPhase name => s!"Unknown phase: {name}"
  | unknownOutcome name => s!"Unknown outcome: {name}"
  | condition cause => cause.text
  | rule name cause => ruleText name cause
  | plan cause => cause.text
  | setting cause => cause.text
  | unsupportedPolicy path => s!"Unsupported policy format: {path}"
  | unavailablePolicy path cause => s!"Policy file '{path}' unavailable: {cause.text}"
  | unreadable purpose path cause =>
    s!"Failed to read {purpose.text} '{path}': {cause.text}"
  | unparsable purpose path none => s!"Failed to parse {purpose.text} '{path}'"
  | unparsable purpose path (some (name, cause)) =>
    s!"Failed to parse {purpose.text} '{path}': Config error: {ruleText name cause}"
  | unwatchable path => s!"Failed to watch '{path}'"
  | noDatabaseSupport => "store.backend = \"sqlite\" needs a build with the \x60sqlite\x60 feature"
  | invalidSession quoted => s!"Invalid session id for file store: {quoted}"
  | corruptRecord path column =>
    let place := path.elim "" fun path => s!" in {path}"
    let complaint := column.elim "" fun n => s!": recursion limit exceeded at line 1 column {n}"
    s!"Corrupt record{place}{complaint}"
  | database text => text
  | duplicateState key => s!"state {key}"
  | duplicateDecision key => s!"decision {key}"
  | duplicateRow key => key
  | subscriberPanicked topic => s!"Subscriber on {topic} panicked"
  | noExecutor topic task => s!"No executor subscribed to {topic} for task {task}"
  | collaboratorPanicked text => s!"Collaborator panicked: {text}"
  | noStates session => s!"No orchestration states for session {session}"
  | undecided => "Decision state without a decision"
  | system cause => cause.text
  | json => ""
  | reported _ text => text

def message (f : Fault) : String := s!"{f.kind.heading}: {f.text}"

end Fault

/-- What a call comes to: an answer, a reported fault, or a panic with its text. -/
inductive Answer (α : Type) where
  | value (a : α)
  | fault (f : Fault)
  | panic (text : String)
  deriving Inhabited

namespace Answer

variable {α β : Type}

/-- A panic caught at the border becomes a fault of the collaborator. -/
def guarded : Answer α → Except Fault α
  | value a => .ok a
  | fault f => .error f
  | panic text => .error (.collaboratorPanicked text)

def map (f : α → β) : Answer α → Answer β
  | value a => .value (f a)
  | fault f => .fault f
  | panic text => .panic text

end Answer
end Orchestration
