import Orchestration.Store.Rows
import Orchestration.Text.Blank

/-! Directories and files. A directory is known by its path and holds files by name; the
directory in which relative paths start is always there. A path is split at slashes, and
steps to the same or the enclosing directory are taken at once. -/
namespace Orchestration

inductive Content where
  | text (s : String)
  /-- what is not the text of any string -/
  | bytes
  | database (rows : Rows)
  deriving Inhabited

def Content.ofBytes (bytes : List UInt8) : Content :=
  match String.fromUTF8? (ByteArray.mk bytes.toArray) with
  | some s => .text s
  | none => .bytes

structure File where
  content : Content
  /-- seconds since 1970 -/
  modified : Int
  deriving Inhabited

/-- Files by name, in directories by path. -/
abbrev Disk := Table (Table File)

namespace Disk

def isRooted (path : String) : Bool := path.toList.head? = some '/'

/-- One step on from where the steps so far have led. There is nothing above the root. -/
def stepOn (rooted : Bool) (done : List String) (step : List Char) : List String :=
  if step = [] ∨ step = ['.'] then done
  else if step = ['.', '.'] then
    if done.getLast?.all (· == "..") then if rooted then done else done ++ [".."]
    else done.dropLast
  else done ++ [String.ofList step]

/-- The steps of a path from where it starts. Steps above that come first. -/
def steps (path : String) : List String :=
  (Text.splitChars '/' path.toList).foldl (stepOn (isRooted path)) []

/-- Whether two paths are spelled alike, but for repeated slashes and steps to the same directory.
Such a step at the beginning of a path counts. -/
def samePath (a b : String) : Bool :=
  isRooted a == isRooted b && taken a == taken b
where
  taken (path : String) : List (List Char) :=
    let pieces := Text.splitChars '/' path.toList
    (pieces.take 1).filter (· ≠ []) ++ (pieces.drop 1).filter fun step => step ≠ [] ∧ step ≠ ['.']

def keyOf (rooted : Bool) (steps : List String) : String :=
  (if rooted then "/" else "") ++ "/".intercalate steps

/-- The one spelling under which a directory is known. -/
def directoryKey (path : String) : String := keyOf (isRooted path) (steps path)

def place? (path : String) : Option (String × String) :=
  (steps path).getLast?.map fun name => (keyOf (isRooted path) (steps path).dropLast, name)

def join (directory name : String) : String :=
  if isRooted name then name
  else if directory.isEmpty then name
  else if directory.toList.getLast? = some '/' then directory ++ name
  else s!"{directory}/{name}"

/-- A reversed path without slashes and steps to the same directory at its end. The root
stays. -/
def trimTail : List Char → List Char
  | ['/'] => ['/']
  | '/' :: rest => trimTail rest
  | '.' :: '/' :: rest => trimTail ('/' :: rest)
  | tail => tail

def parent (path : String) : String :=
  let body := (trimTail path.toList.reverse).dropWhile (· ≠ '/')
  String.ofList (trimTail body).reverse

/-- The ending of a name after its last point, which is not the first character. -/
def extension? (path : String) : Option String :=
  (place? path).bind fun (_, name) =>
    let tail := name.toList.reverse
    let ending := tail.takeWhile (· ≠ '.')
    if (tail.drop (ending.length + 1)).isEmpty then none else some (String.ofList ending.reverse)

def empty : Disk := [("", []), ("/", [])]

def isDirectory (d : Disk) (path : String) : Bool := Table.contains d (directoryKey path)

def file? (d : Disk) (path : String) : Option File := do
  let (directory, name) ← place? path
  Table.get? (← Table.get? d directory) name

def «exists» (d : Disk) (path : String) : Bool := d.isDirectory path || (d.file? path).isSome

/-- Names are at most this many bytes long. -/
def nameLimit : Nat := 255

/-- Why nothing is found under a path: something on the way is a file, a name is too long,
or it is simply not there. -/
def absence (d : Disk) (path : String) : SystemError :=
  go [] (steps path)
where
  go (done : List String) : List String → SystemError
    | [] => .missing
    | [name] => if nameLimit < name.utf8ByteSize then .nameTooLong else .missing
    | name :: rest =>
      let here := done ++ [name]
      if nameLimit < name.utf8ByteSize then .nameTooLong
      else if (d.file? (keyOf (isRooted path) here)).isSome then .notDirectory
      else if d.isDirectory (keyOf (isRooted path) here) then go here rest
      else .missing

def modified (d : Disk) (path : String) : Except SystemError Int :=
  match d.file? path with
  | some f => .ok f.modified
  | none => if d.isDirectory path then .ok 0 else .error (d.absence path)

def read (d : Disk) (path : String) : Except SystemError String :=
  match d.file? path with
  | some ⟨.text s, _⟩ => .ok s
  | some _ => .error .notText
  | none => .error (if d.isDirectory path then .isDirectory else d.absence path)

def write (d : Disk) (path : String) (f : File) : Except SystemError Disk :=
  if d.isDirectory path then .error .isDirectory
  else match place? path with
    | none => .error .isDirectory
    | some (directory, name) =>
      match Table.get? d directory with
      | none => .error (d.absence path)
      | some files =>
        if nameLimit < name.utf8ByteSize then .error .nameTooLong
        else .ok (Table.put d directory (Table.put files name f))

def append (d : Disk) (path text : String) : Except SystemError Disk :=
  match d.file? path with
  | some f =>
    let content := match f.content with
      | .text s => .text (s ++ text)
      | _ => .bytes
    d.write path { f with content := content }
  | none => d.write path ⟨.text text, 0⟩

def touch (d : Disk) (path : String) (modified : Int) : Except SystemError Disk :=
  match d.file? path with
  | some f => d.write path { f with modified := modified }
  | none => if d.isDirectory path then .ok d else .error (d.absence path)

def remove (d : Disk) (path : String) : Except SystemError Disk :=
  match place? path with
  | none => .error .isDirectory
  | some (directory, name) =>
    match d.file? path, Table.get? d directory with
    | some _, some files => .ok (Table.put d directory (Table.erase files name))
    | _, _ => .error (if d.isDirectory path then .isDirectory else d.absence path)

/-- The disk with a directory at a path, and with those that enclose it. -/
def createAll (d : Disk) (path : String) : Except SystemError Disk :=
  go d [] (steps path)
where
  go (d : Disk) (done : List String) : List String → Except SystemError Disk
    | [] => .ok d
    | name :: rest =>
      let here := done ++ [name]
      let key := keyOf (isRooted path) here
      if d.isDirectory key then go d here rest
      else if (d.file? key).isSome then
        .error (if rest.isEmpty then .exists else .notDirectory)
      else if nameLimit < name.utf8ByteSize then .error .nameTooLong
      else go (Table.put d key []) here rest

def names (d : Disk) (path : String) : Except SystemError (List String) :=
  match Table.get? d (directoryKey path) with
  | none => .error (if (d.file? path).isSome then .notDirectory else d.absence path)
  | some files =>
    let inner := d.keys.filterMap fun key =>
      match place? key with
      | some (directory, name) => if directory = directoryKey path then some name else none
      | none => none
    .ok (Table.distinct (files.keys ++ inner))

end Disk
end Orchestration
