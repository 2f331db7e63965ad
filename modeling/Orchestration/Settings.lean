import Orchestration.Loop.Config
import Orchestration.Store.Storage
import Orchestration.Toml.Reader

/-! The settings of an installation, as a file in its directory has them. Every section and
every field may be left out; relative paths start in the directory of the file. -/
namespace Orchestration

structure PolicySettings where
  /-- the file of the policy, if there is one -/
  path : Option String
  /-- whether the file is watched for changes -/
  watch : Bool
  /-- milliseconds to wait for a change to settle -/
  debounce : Nat
  deriving DecidableEq, Inhabited

namespace PolicySettings

def default : PolicySettings := ⟨none, false, 500⟩

def toJson (p : PolicySettings) : Json :=
  .record [("path", .ofOption .str p.path), ("watch", .bool p.watch),
    ("debounce_ms", .nat p.debounce)]

def of? {δ : Type} [Document δ] (d : δ) : Option PolicySettings := do
  let f ← Fields.of? ["path", "watch", "debounce_ms"] d
  let path ← f.optional "path" Document.string?
  let watch ← f.defaulted "watch" Document.bool? default.watch
  let debounce ← f.defaulted "debounce_ms" Document.u64? default.debounce
  return ⟨path, watch, debounce⟩

end PolicySettings

inductive StoreKind where
  | file | memory | sqlite
  deriving DecidableEq, Inhabited

namespace StoreKind

def text : StoreKind → String
  | file => "file"
  | memory => "memory"
  | sqlite => "sqlite"

def read? : String → Option StoreKind
  | "file" => some file
  | "memory" => some memory
  | "sqlite" => some sqlite
  | _ => none

end StoreKind

structure StoreSettings where
  kind : StoreKind
  /-- where everything that is stored goes -/
  directory : String
  deriving DecidableEq, Inhabited

namespace StoreSettings

def default : StoreSettings := ⟨.file, "./data"⟩

def toJson (s : StoreSettings) : Json :=
  .record [("backend", .str s.kind.text), ("data_dir", .str s.directory)]

def of? {δ : Type} [Document δ] (d : δ) : Option StoreSettings := do
  let f ← Fields.of? ["backend", "data_dir"] d
  let kind ← f.defaulted "backend" (fun x => (Document.variant? x).bind StoreKind.read?) default.kind
  let directory ← f.defaulted "data_dir" Document.string? default.directory
  return ⟨kind, directory⟩

/-- The backend of the store. Databases are not supported here. -/
def backend (s : StoreSettings) : Except Fault Backend :=
  match s.kind with
  | .file => .ok (.folder (Disk.join s.directory "sessions"))
  | .memory => .ok .memory
  | .sqlite => .error .noDatabaseSupport

/-- The backend, and the storage in which it is ready. -/
def «open» (s : StoreSettings) (storage : Storage) : Except Fault (Backend × Storage) := do
  let b ← s.backend
  return (b, ← storage.open b)

end StoreSettings

structure Settings where
  loop : LoopConfig
  policy : PolicySettings
  store : StoreSettings
  deriving DecidableEq, Inhabited

namespace Settings

def default : Settings := ⟨.default, .default, .default⟩

def defaultPath : String := "conductor.toml"

def of? {δ : Type} [Document δ] (d : δ) : Option Settings := do
  let f ← Fields.of? ["orchestrator", "policy", "store"] d
  let loop ← f.defaulted "orchestrator" LoopConfig.of? default.loop
  let policy ← f.defaulted "policy" PolicySettings.of? default.policy
  let store ← f.defaulted "store" StoreSettings.of? default.store
  return ⟨loop, policy, store⟩

/-- The settings with their relative paths starting in a directory. -/
def within (base : String) (s : Settings) : Settings :=
  { s with
    policy := { s.policy with path := s.policy.path.map (Disk.join base) }
    store := { s.store with directory := Disk.join base s.store.directory } }

def baseOf (path : String) : String :=
  let parent := Disk.parent path
  if parent.isEmpty then "." else parent

def read (d : Disk) (path : String) : Except Fault Settings :=
  match d.read path with
  | .error cause => .error (.unreadable .config path cause)
  | .ok text =>
    match (Toml.read? text).bind Settings.of? with
    | some s => .ok s
    | none => .error (.unparsable .config path none)

/-- The settings once they are in order: without a policy file there is nothing to watch. -/
def checked (s : Settings) : Except Fault Settings := do
  s.loop.validate
  return if s.policy.path.isNone then { s with policy := { s.policy with watch := false } } else s

/-- The settings of the named file, else of the default one if it is there, else the defaults. -/
def load (d : Disk) (named : Option String) : Except Fault Settings := do
  let path := named <|> if d.exists defaultPath then some defaultPath else none
  let s ← match path with
    | some path => (read d path).map (within (baseOf path))
    | none => .ok default
  s.checked

end Settings
end Orchestration
