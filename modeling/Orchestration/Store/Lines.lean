import Orchestration.Disk
import Orchestration.Json.Reader

/-! Files that hold one record a line. Blank lines are passed over; a record is added at the
end, on a line that is closed by a line feed. -/
namespace Orchestration.Lines

variable {α : Type}

def filled (text : List Char) : List (List Char) :=
  (Text.lines text).filter (!Text.isBlankLine ·)

/-- The records of a text, unless a line holds none. -/
def records? (decode : Json → Option α) (text : String) : Option (List α) :=
  (filled text.toList).mapM fun line => (Json.readChars? line).bind decode

/-- What is wrong with the first line of a text that holds no record. -/
def excess? (decode : Json → Option α) (text : String) : Option Nat :=
  ((filled text.toList).find? fun line => ((Json.readChars? line).bind decode).isNone).bind
    Json.excess?

def line (j : Json) : String := String.ofList (j.chars ++ ['\n'])

/-- The records of a file. A file that is not there holds none. -/
def read (decode : Json → Option α) (d : Disk) (path : String) : Except Fault (List α) :=
  if !d.exists path then .ok []
  else match d.read path with
    | .error cause => .error (.system cause)
    | .ok text =>
      match records? decode text with
      | some records => .ok records
      | none => .error (.corruptRecord (some path) (excess? decode text))

def append (d : Disk) (path : String) (j : Json) : Except Fault Disk :=
  match d.append path (line j) with
  | .ok d => .ok d
  | .error cause => .error (.system cause)

end Orchestration.Lines
