import Orchestration.Table

/-! The grammar of command lines: options, words and commands within commands. Options may
stand before, between and after the words of their command; a lone double dash ends them. -/
namespace Orchestration.CommandLine

/-- An option. One without a value is either there or not. -/
structure OptionForm where
  name : String
  letter : Option Char
  takesValue : Bool
  /-- whether it may be given more than once -/
  repeats : Bool
  accepts : String → Bool

/-- A command with its options, its words and the commands within it. -/
structure Form where
  name : String
  options : List OptionForm
  required : List String
  /-- how many words there are at least, and at most if there is a limit -/
  words : Nat × Option Nat
  accepts : String → Bool
  commands : List Form

def Form.command? (f : Form) (name : String) : Option Form := f.commands.find? (·.name == name)

inductive Refusal where
  /-- somebody asks how it is used -/
  | help
  | misuse
  deriving DecidableEq, Inhabited

/-- What was given to a command: values by the names of options, in order, and words. -/
structure Given where
  values : List (String × String)
  words : List String
  deriving DecidableEq, Inhabited

namespace Given

def none : Given := ⟨[], []⟩

def has (g : Given) (name : String) : Bool := g.values.any (·.1 == name)

def all (g : Given) (name : String) : List String := (g.values.filter (·.1 == name)).map (·.2)

def value? (g : Given) (name : String) : Option String := (g.all name).getLast?

/-- What is given to both a command and one within it counts as it is given within. -/
def under (g above : Given) : Given := ⟨above.values ++ g.values, g.words⟩

def withValue (g : Given) (o : OptionForm) (value : String) : Except Refusal Given :=
  if !o.accepts value || (!o.repeats && g.has o.name) then .error .misuse
  else .ok { g with values := g.values ++ [(o.name, value)] }

def withWord (g : Given) (f : Form) (word : String) : Except Refusal Given :=
  if !f.accepts word || f.words.2.any (· ≤ g.words.length) then .error .misuse
  else .ok { g with words := g.words ++ [word] }

def isEnough (g : Given) (f : Form) : Bool :=
  decide (f.words.1 ≤ g.words.length) && f.required.all g.has

end Given

def isWord (arg : String) : Bool :=
  match arg.toList with
  | '-' :: _ :: _ => false
  | _ => true

/-- What an argument is taken for. -/
inductive Argument where
  | word (text : String)
  /-- a long option, with the value that is joined to it -/
  | long (name : String) (value : Option String)
  /-- letters of short options, or of one and its value -/
  | letters (cs : List Char)
  | separator
  deriving DecidableEq

def Argument.of (arg : String) : Argument :=
  match arg.toList with
  | ['-', '-'] => .separator
  | '-' :: '-' :: rest =>
    let (name, value) := rest.span (· ≠ '=')
    .long (String.ofList name) (if value.isEmpty then none else some (String.ofList value.tail))
  | '-' :: c :: rest => .letters (c :: rest)
  | _ => .word arg

/-- The value of an option that none is joined to: the next argument, if it is a word. -/
def nextValue : List String → Except Refusal (String × List String)
  | [] => .error .misuse
  | arg :: rest => if isWord arg then .ok (arg, rest) else .error .misuse

/-- An option of an argument, with the value that is joined to it. -/
def takeOption (o : OptionForm) (joined : Option String) (g : Given) (rest : List String) :
    Except Refusal (Given × List String) := do
  match o.takesValue, joined with
  | true, some value => return (← g.withValue o value, rest)
  | true, none =>
    let (value, rest) ← nextValue rest
    return (← g.withValue o value, rest)
  | false, some _ => throw .misuse
  | false, none => return (← g.withValue o "", rest)

/-- The options of letters that stand together. What follows the letter of an option with a
value is that value. -/
def takeLetters (f : Form) : List Char → Given → List String → Except Refusal (Given × List String)
  | [], g, rest => .ok (g, rest)
  | c :: cs, g, rest =>
    match f.options.find? (·.letter == some c) with
    | none => .error (if c = 'h' then .help else .misuse)
    | some o =>
      if o.takesValue then
        let joined := match cs with
          | '=' :: value => value
          | value => value
        takeOption o (if cs.isEmpty then none else some (String.ofList joined)) g rest
      else do
        let (g, rest) ← takeOption o none g rest
        takeLetters f cs g rest

def takeLong (f : Form) (name : String) (value : Option String) (g : Given) (rest : List String) :
    Except Refusal (Given × List String) :=
  match f.options.find? (·.name == name) with
  | some o => takeOption o value g rest
  | none => .error (if name = "help" ∧ value.isNone then .help else .misuse)

def leads : Form → List String → Bool
  | _, [] => true
  | f, name :: rest =>
    match f.command? name with
    | some g => leads g rest
    | none => name == "help" && rest.isEmpty && !f.commands.isEmpty

/-- The names of the commands that arguments lead to, and what is given to the last one. `fuel`
bounds the number of arguments. -/
def parseFrom : Nat → Form → List String → Given → List String →
    Except Refusal (List String × Given)
  | 0, _, _, _, _ => .error .misuse
  | fuel + 1, f, path, g, args =>
    match args with
    | [] =>
      if f.commands.isEmpty ∧ g.isEnough f then .ok (path, g) else .error .misuse
    | arg :: rest =>
      match Argument.of arg with
      | .separator =>
        if f.commands.isEmpty then do
          let g ← rest.foldlM (fun g word => g.withWord f word) g
          if g.isEnough f then return (path, g) else throw .misuse
        else .error .misuse
      | .long name value => do
        let (g, rest) ← takeLong f name value g rest
        parseFrom fuel f path g rest
      | .letters cs => do
        let (g, rest) ← takeLetters f cs g rest
        parseFrom fuel f path g rest
      | .word word =>
        if f.commands.isEmpty then do parseFrom fuel f path (← g.withWord f word) rest
        else match f.command? word with
          | some inner => do
            let (path, given) ← parseFrom fuel inner (path ++ [word]) .none rest
            return (path, given.under g)
          | none => .error (if word = "help" ∧ leads f rest then .help else .misuse)

def parse (f : Form) (args : List String) : Except Refusal (List String × Given) :=
  parseFrom (args.length + 1) f [] .none args

end Orchestration.CommandLine
