import Yapm.ConfigForms
import Yapm.StartOutcome

/-!
# Requests to start a process

A client has a process started in one of two ways : `process start` sends the arguments
of a command line (`handleProcessCmd`), `config start` the path of a TOML file, which the
daemon reads (`handleConfigCmd`). Either way a configuration is made of the request
(`Request.config`) and given to `ProcessManager.start`.

A state of the file system is what it answers for each path. The parser of TOML, and the
texts of its errors, are a parameter.
-/

open Serde

namespace Yapm

/-! ## Files -/

inductive StatError
  | notFound
  | other
deriving DecidableEq, Repr

/-- Of the metadata of a path, its kind and its permissions. -/
structure Metadata where
  isDir : Bool
  mode : ℕ
deriving DecidableEq, Repr

structure FileSystem where
  metadata : String → Except StatError Metadata
  readToString : String → Option String

namespace FileSystem

variable (fs : FileSystem) (path : String)

/-- `Path::exists`. -/
def pathExists : Bool :=
  match fs.metadata path with
  | .ok _ => true
  | .error _ => false

/-- `Path::is_dir`. -/
def isDir : Bool :=
  match fs.metadata path with
  | .ok metadata => metadata.isDir
  | .error _ => false

/-- `std::fs::exists`. -/
def tryExists : Except StatError Bool :=
  match fs.metadata path with
  | .ok _ => .ok true
  | .error .notFound => .ok false
  | .error e => .error e

end FileSystem

/-- A parser of TOML, and what it says of an error in decoding. -/
structure Toml where
  parse : String → Except String Value
  describe : DecodeError → String

/-- `toml::from_str::<ProcessConfig>`. -/
def Toml.fromStr (toml : Toml) (contents : String) : Except String ProcessConfig :=
  match toml.parse contents with
  | .error e => .error e
  | .ok doc =>
    match ProcessConfig.deserialize doc with
    | .error e => .error (toml.describe e)
    | .ok config => .ok config

/-! ## The handlers -/

inductive ProcessCommands
  | start (args : StartArgs)
  | stop (process : String)

inductive ConfigCommands
  | startConfig (config : String)

/-- The configuration in a file, or why there is none. -/
def readConfig (fs : FileSystem) (toml : Toml) (config : String) : Except String ProcessConfig :=
  match fs.tryExists config with
  | .ok true =>
    match fs.readToString config with
    | some contents =>
      match toml.fromStr contents with
      | .ok contents => .ok contents
      | .error e => .error ("Parsing the toml file failed: " ++ e)
    | none => .error ("Failed to read config file: " ++ config)
  | .ok false => .error ("The path: " ++ config ++ " does not exist")
  | .error _ => .error ("The existence of " ++ config ++ " could not be confirmed; this may " ++
      "occur in cases where YAPM does not have permission to read the file.")

namespace ProcessManager

variable (s : ProcessManager)

/-- The last three arguments are for a stop. -/
def handleProcessCmd (cmd : ProcessCommands) (o : StartOutcomes) (poisoned : Bool)
    (failure : Option OsError) (now : ℕ → Timestamp) : Option (CommandResult × ProcessManager) :=
  match cmd with
  | .start args =>
    let pcfg := ProcessConfig.ofStartArgs args
    s.start pcfg o
  | .stop process => some (s.stop process poisoned failure now)

def handleConfigCmd (fs : FileSystem) (toml : Toml) (cmd : ConfigCommands) (o : StartOutcomes) :
    Option (CommandResult × ProcessManager) :=
  match cmd with
  | .startConfig config =>
    match readConfig fs toml config with
    | .error msg => some (.error msg, s)
    | .ok contents => s.start contents o

end ProcessManager

/-! ## Both ways to a start -/

inductive Request
  | processStart (args : StartArgs)
  | configStart (path : String)

/-- The configuration a request is for, or why there is none. -/
def Request.config (fs : FileSystem) (toml : Toml) : Request → Except String ProcessConfig
  | .processStart args => .ok (.ofStartArgs args)
  | .configStart path => readConfig fs toml path

namespace ProcessManager

variable (s : ProcessManager) (fs : FileSystem) (toml : Toml) (o : StartOutcomes)

def handle : Request → Option (CommandResult × ProcessManager)
  | .processStart args => s.handleProcessCmd (.start args) o false none newYear
  | .configStart path => s.handleConfigCmd fs toml (.startConfig path) o

/-- A request without a configuration is refused and changes nothing. -/
theorem handle_of_error {r : Request} {msg : String} (h : r.config fs toml = .error msg) :
    s.handle fs toml o r = some (.error msg, s) := by
  cases r with
  | processStart args => cases h
  | configStart path =>
    have hread : readConfig fs toml path = .error msg := h
    simp only [handle, handleConfigCmd, hread]

/-- A request with a configuration is a start of it. -/
theorem handle_of_ok {r : Request} {config : ProcessConfig} (h : r.config fs toml = .ok config) :
    s.handle fs toml o r = s.start config o := by
  cases r with
  | processStart args =>
    cases h
    rfl
  | configStart path =>
    have hread : readConfig fs toml path = .ok config := h
    simp only [handle, handleConfigCmd, hread]

end ProcessManager

end Yapm
