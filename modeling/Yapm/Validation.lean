import Yapm.Handlers
import Yapm.Paths

/-!
# Validation of configurations

`ProcessConfig.validate` looks at the flags of the policy and at the paths of a
configuration : the working directory and the directory for logs have to be directories
with a permission bit of their owner, and a command that is a path has to be there and be
executable. Each of its errors names the path it is about (`validatePaths_error`). It
accepts exactly what is `ValidIn` a state of the file system (`validate_eq_ok_iff`).

Nothing on the way from a request to the fork calls it. So a start reaches its fork with a
valid configuration exactly when the configuration happens to be valid, or the start stops
for another reason : the name is taken, or a pipe is not made (`launchesValid_iff`).
-/

open Serde

namespace Yapm

/-! ## The validator -/

def SecurityPolicy.validate (policy : SecurityPolicy) : Except String Unit :=
  if policy.noFs && policy.readOnlyFs then
    .error "Both no_fs and read_only_fs are set; no_fs takes precedence"
  else .ok ()

/-- What a directory is checked for, and how it is called in the errors. -/
structure DirectoryCheck where
  title : String
  noun : String
  ability : String
  mask : ℕ

def DirectoryCheck.run (c : DirectoryCheck) (fs : FileSystem) (path : String) :
    Except String Unit :=
  if !fs.pathExists path then .error (c.title ++ " does not exist: " ++ path)
  else if !fs.isDir path then .error (c.title ++ " path is not a directory: " ++ path)
  else match fs.metadata path with
    | .ok metadata =>
      if metadata.mode &&& c.mask = 0 then
        .error (c.title ++ " is not " ++ c.ability ++ ": " ++ path)
      else .ok ()
    | .error _ => .error ("Unable to check permissions on " ++ c.noun ++ ": " ++ path)

def cwdCheck : DirectoryCheck :=
  ⟨"Working directory", "working directory", "readable", 0o400⟩

def logDirCheck : DirectoryCheck :=
  ⟨"Log directory", "log directory", "writable", 0o200⟩

/-- A command that is not looked up by its name. -/
def isPath (command : String) : Bool :=
  Paths.isAbsolute command.toList || command.toList.contains '/' ||
    command.toList.contains '\\'

def checkCommand (fs : FileSystem) (command : String) : Except String Unit :=
  if isPath command then
    if !fs.pathExists command then .error ("Command executable does not exist: " ++ command)
    else match fs.metadata command with
      | .ok metadata =>
        if metadata.mode &&& 0o100 = 0 then .error ("Command is not executable: " ++ command)
        else .ok ()
      | .error _ => .error ("Unable to check permissions on command: " ++ command)
  else .ok ()

/-- A check of an option that may be missing. -/
def checkOption (check : String → Except String Unit) : Option String → Except String Unit
  | some path => check path
  | none => .ok ()

namespace ProcessConfig

def validatePaths (config : ProcessConfig) (fs : FileSystem) : Except String Unit := do
  checkOption (cwdCheck.run fs) config.cwd
  checkOption (logDirCheck.run fs) config.logDir
  checkCommand fs config.command

def validate (config : ProcessConfig) (fs : FileSystem) : Except String Unit := do
  config.security.validate
  config.validatePaths fs

end ProcessConfig

/-! ## Valid configurations -/

namespace FileSystem

/-- There is a directory with a permission. -/
def HasDirectory (fs : FileSystem) (path : String) (mask : ℕ) : Prop :=
  ∃ m, fs.metadata path = .ok m ∧ m.isDir ∧ m.mode &&& mask ≠ 0

/-- There is something that its owner may execute. -/
def HasExecutable (fs : FileSystem) (path : String) : Prop :=
  ∃ m, fs.metadata path = .ok m ∧ m.mode &&& 0o100 ≠ 0

end FileSystem

structure ProcessConfig.ValidIn (config : ProcessConfig) (fs : FileSystem) : Prop where
  policy : ¬(config.security.noFs ∧ config.security.readOnlyFs)
  cwd : ∀ path ∈ config.cwd, fs.HasDirectory path 0o400
  logDir : ∀ path ∈ config.logDir, fs.HasDirectory path 0o200
  command : '/' ∈ config.command.toList ∨ '\\' ∈ config.command.toList →
    fs.HasExecutable config.command

variable {fs : FileSystem} {config : ProcessConfig}

theorem DirectoryCheck.run_eq_ok_iff (c : DirectoryCheck) {path : String} :
    c.run fs path = .ok () ↔ fs.HasDirectory path c.mask := by
  unfold run FileSystem.HasDirectory FileSystem.pathExists FileSystem.isDir
  cases fs.metadata path with
  | error e => simp
  | ok m => cases hdir : m.isDir <;> simp [hdir]

/-- An absolute path has a separator. -/
theorem isPath_iff {command : String} :
    isPath command ↔ '/' ∈ command.toList ∨ '\\' ∈ command.toList := by
  have habsolute : Paths.isAbsolute command.toList → '/' ∈ command.toList := by
    intro h
    exact List.mem_of_head? (of_decide_eq_true h)
  simp only [isPath, Bool.or_eq_true, List.contains_iff_mem]
  exact or_congr_left (or_iff_right_of_imp habsolute)

theorem checkCommand_eq_ok_iff {command : String} : checkCommand fs command = .ok () ↔
    ('/' ∈ command.toList ∨ '\\' ∈ command.toList → fs.HasExecutable command) := by
  rw [← isPath_iff]
  unfold checkCommand FileSystem.HasExecutable FileSystem.pathExists
  cases isPath command with
  | false => simp
  | true => cases fs.metadata command <;> simp

theorem checkOption_eq_ok_iff {check : String → Except String Unit} {o : Option String} :
    checkOption check o = .ok () ↔ ∀ path ∈ o, check path = .ok () := by
  cases o <;> simp [checkOption]

theorem SecurityPolicy.validate_eq_ok_iff {policy : SecurityPolicy} :
    policy.validate = .ok () ↔ ¬(policy.noFs ∧ policy.readOnlyFs) := by
  simp [validate]

/-- The validator accepts exactly the valid configurations. -/
theorem ProcessConfig.validate_eq_ok_iff : config.validate fs = .ok () ↔ config.ValidIn fs := by
  rw [validate, validatePaths, then_eq_ok_iff, then_eq_ok_iff, then_eq_ok_iff,
    SecurityPolicy.validate_eq_ok_iff, checkOption_eq_ok_iff, checkOption_eq_ok_iff,
    checkCommand_eq_ok_iff]
  simp only [DirectoryCheck.run_eq_ok_iff]
  exact ⟨fun ⟨hpolicy, hcwd, hlogDir, hcommand⟩ => ⟨hpolicy, hcwd, hlogDir, hcommand⟩,
    fun h => ⟨h.policy, h.cwd, h.logDir, h.command⟩⟩

/-! ## What the errors say -/

theorem DirectoryCheck.run_error (c : DirectoryCheck) {path e : String}
    (h : c.run fs path = .error e) : ∃ what, e = what ++ path := by
  unfold run at h
  split at h
  · exact ⟨_, (Except.error.inj h).symm⟩
  · split at h
    · exact ⟨_, (Except.error.inj h).symm⟩
    · split at h
      · split at h
        · exact ⟨_, (Except.error.inj h).symm⟩
        · cases h
      · exact ⟨_, (Except.error.inj h).symm⟩

theorem checkCommand_error {command e : String} (h : checkCommand fs command = .error e) :
    ∃ what, e = what ++ command := by
  unfold checkCommand at h
  split at h
  · split at h
    · exact ⟨_, (Except.error.inj h).symm⟩
    · split at h
      · split at h
        · exact ⟨_, (Except.error.inj h).symm⟩
        · cases h
      · exact ⟨_, (Except.error.inj h).symm⟩
  · cases h

theorem checkOption_error {check : String → Except String Unit} {o : Option String} {e : String}
    (h : checkOption check o = .error e) : ∃ path ∈ o, check path = .error e := by
  cases o with
  | none => cases h
  | some path => exact ⟨path, rfl, h⟩

/-- An error in a path names a path of the configuration. -/
theorem ProcessConfig.validatePaths_error {e : String}
    (h : config.validatePaths fs = .error e) :
    ∃ path, (path ∈ config.cwd ∨ path ∈ config.logDir ∨ path = config.command) ∧
      ∃ what, e = what ++ path := by
  rw [validatePaths, then_eq_error_iff, then_eq_error_iff] at h
  rcases h with hcwd | ⟨-, hlogDir | ⟨-, hcommand⟩⟩
  · obtain ⟨path, hpath, hrun⟩ := checkOption_error hcwd
    exact ⟨path, .inl hpath, cwdCheck.run_error hrun⟩
  · obtain ⟨path, hpath, hrun⟩ := checkOption_error hlogDir
    exact ⟨path, .inr (.inl hpath), logDirCheck.run_error hrun⟩
  · exact ⟨config.command, .inr (.inr rfl), checkCommand_error hcommand⟩

/-! ## From a request to the fork -/

namespace ProcessManager

variable (s : ProcessManager) (toml : Toml) (o : StartOutcomes)

/-- The start makes the calls before its fork, and goes on to it. -/
def ReachesFork (s : ProcessManager) (config : ProcessConfig) (o : StartOutcomes) : Prop :=
  s.registry config.name = none ∧ (o.os.parent.run 0 setup.dropLast o.machine).1 = none

/-- The fork is reached when the name is free and both pipes are made. -/
theorem reachesFork_iff : s.ReachesFork config o ↔
    s.registry config.name = none ∧ o.os.parentFails 0 = none ∧ o.os.parentFails 1 = none := by
  refine and_congr_right fun _ => ?_
  rw [Calls.System.run_eq_none_iff]
  simp [setup, Calls.System.Serves, Os.parent, SysCall.outcome]

theorem ReachesFork.of_hasChild (h : s.HasChild config o) : s.ReachesFork config o := by
  obtain ⟨hfree, hforks⟩ := (hasChild_iff s config o).mp h
  exact (reachesFork_iff s o).mpr ⟨hfree, hforks.1, hforks.2.1⟩

/-- A start without a child is refused. -/
theorem start_refused (h : ¬s.HasChild config o) :
    ∃ msg, s.start config o = some (.error msg, s) := by
  unfold HasChild at h
  unfold start
  cases hname : s.registry config.name with
  | some e => exact ⟨_, rfl⟩
  | none =>
    have hcases := spawn_cases o.os config o.pid o.machine
    generalize createChildExecContextFromConfig o.os config o.pid o.machine = spawned at h hcases ⊢
    cases hcases with
    | notForked _ => exact ⟨_, rfl⟩
    | started _ _ => exact absurd ⟨hname, rfl⟩ h
    | lost _ _ => exact absurd ⟨hname, rfl⟩ h
    | aborted _ _ => exact absurd ⟨hname, rfl⟩ h

/-- A configuration the start reaches its fork for is validated, and one that is not valid
is refused without a child. -/
structure LaunchesValid (s : ProcessManager) (fs : FileSystem) (toml : Toml)
    (o : StartOutcomes) (r : Request) : Prop where
  validated : ∀ config, r.config fs toml = .ok config → s.ReachesFork config o →
    config.validate fs = .ok ()
  refused : ∀ config, r.config fs toml = .ok config → ¬config.ValidIn fs →
    ¬s.HasChild config o ∧ ∃ msg, s.handle fs toml o r = some (.error msg, s)

/-- Only valid configurations are launched exactly when the configuration of the request, if
it has one, has a name that is taken, or a pipe is not made, or the paths and flags are
valid. -/
theorem launchesValid_iff (fs : FileSystem) (r : Request) : s.LaunchesValid fs toml o r ↔
    ∀ config, r.config fs toml = .ok config →
      s.registry config.name ≠ none ∨ o.os.parentFails 0 ≠ none ∨ o.os.parentFails 1 ≠ none ∨
        config.ValidIn fs := by
  have hiff (config : ProcessConfig) :
      (s.ReachesFork config o → config.validate fs = .ok ()) ↔
        (s.registry config.name ≠ none ∨ o.os.parentFails 0 ≠ none ∨ o.os.parentFails 1 ≠ none ∨
          config.ValidIn fs) := by
    rw [reachesFork_iff, ProcessConfig.validate_eq_ok_iff]
    tauto
  constructor
  · exact fun h config hr => (hiff config).mp (h.validated config hr)
  · intro h
    have hvalid (config : ProcessConfig) (hr : r.config fs toml = .ok config) :=
      (hiff config).mpr (h config hr)
    refine ⟨hvalid, fun config hr hinvalid => ?_⟩
    have hchild : ¬s.HasChild config o := fun hchild =>
      hinvalid (ProcessConfig.validate_eq_ok_iff.mp (hvalid config hr (.of_hasChild s o hchild)))
    rw [s.handle_of_ok fs toml o hr]
    exact ⟨hchild, s.start_refused o hchild⟩

/-- A document whose working directory is not there. -/
def missingCwdText : String :=
  "name = \"db\"\ncommand = \"db\"\ncwd = \"/missing\"\n"

/-- A file system with nothing but the document. -/
def oneFile : FileSystem where
  metadata path := if path = "/etc/db.toml" then .ok ⟨false, 0o644⟩ else .error .notFound
  readToString path := if path = "/etc/db.toml" then some missingCwdText else none

/-- A parser that knows the document. -/
def missingCwdToml : Toml where
  parse contents :=
    if contents = missingCwdText then
      .ok (.table [("name", .str "db"), ("command", .str "db"), ("cwd", .str "/missing")])
    else .error "invalid"
  describe _ := "invalid"

/-- The arguments for the same. -/
def missingCwdArgs : StartArgs where
  name := "db"
  command := "db"
  args := []
  cwd := some "/missing"
  env := []
  logDir := none
  restart := none
  resources := ⟨none, none, none, none⟩
  security := ⟨none, false, false, false, false, false, false⟩

/-- However the configuration is submitted, its start is reported. -/
theorem missingCwd_started {r : Request}
    (hconfig : r.config oneFile missingCwdToml = .ok (.ofStartArgs missingCwdArgs)) :
    (∃ s', init.handle oneFile missingCwdToml plainOutcomes r =
        some (.processStarted "db" 4242, s')) ∧
      ¬init.LaunchesValid oneFile missingCwdToml plainOutcomes r := by
  refine ⟨?_, fun h => ?_⟩
  · rw [init.handle_of_ok oneFile missingCwdToml plainOutcomes hconfig]
    exact ⟨_, rfl⟩
  · have hok := h.validated _ hconfig ⟨rfl, rfl⟩
    cases hok

/-- The working directory does not exist, and both ways the start is reported. -/
theorem missing_cwd_launched :
    (ProcessConfig.ofStartArgs missingCwdArgs).validate oneFile =
        .error "Working directory does not exist: /missing" ∧
      ((∃ s', init.handle oneFile missingCwdToml plainOutcomes (.processStart missingCwdArgs) =
          some (.processStarted "db" 4242, s')) ∧
        ¬init.LaunchesValid oneFile missingCwdToml plainOutcomes
          (.processStart missingCwdArgs)) ∧
      (∃ s', init.handle oneFile missingCwdToml plainOutcomes (.configStart "/etc/db.toml") =
          some (.processStarted "db" 4242, s')) ∧
        ¬init.LaunchesValid oneFile missingCwdToml plainOutcomes (.configStart "/etc/db.toml") :=
  ⟨rfl, missingCwd_started rfl, missingCwd_started rfl⟩

end ProcessManager

end Yapm
