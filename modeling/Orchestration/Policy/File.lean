import Orchestration.Disk
import Orchestration.Json.Reader
import Orchestration.Policy.Rule
import Orchestration.Yaml.Value

/-! Policy files. The ending of a file's name says in which format its text is. -/
namespace Orchestration.Policy

inductive Format where
  | yaml | json
  deriving DecidableEq, Inhabited

/-- The format of a file by the ending of its name, in any ASCII case. -/
def Format.ofPath? (path : String) : Option Format :=
  match (Disk.extension? path).map Text.lowerAscii with
  | some "yaml" | some "yml" => some .yaml
  | some "json" => some .json
  | _ => none

/-- The policy of what was read of a text. A rule that does not compile is reported even if
the text breaks off after it. -/
def ofContents {δ : Type} [Document δ] (root : δ) (sound : Bool) : Except PolicyFault Policy := do
  let p ← Policy.of root
  if sound then return p else throw .malformed

def parseText (format : Format) (text : String) : Except PolicyFault Policy :=
  match format with
  | .json =>
    let contents := Json.contents text.toList
    ofContents contents.root contents.sound
  | .yaml =>
    let contents := Yaml.read text
    ofContents contents.root contents.sound

def load (d : Disk) (path : String) : Except Fault Policy :=
  match Format.ofPath? path with
  | none => .error (.unsupportedPolicy path)
  | some format =>
    match d.read path with
    | .error cause => .error (.unreadable .policy path cause)
    | .ok text =>
      match parseText format text with
      | .ok p => .ok p
      | .error .malformed => .error (.unparsable .policy path none)
      | .error (.rule name cause) => .error (.unparsable .policy path (some (name, cause)))

end Orchestration.Policy
