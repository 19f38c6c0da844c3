import Yapm.Calls
import Yapm.SyscallPolicy
import Yapm.TaskRegistry
import Yapm.Text
import Yapm.Utf8

/-!
# Forking and confining a child

`create_child_exec_context_from_config` makes two pipes and forks. The parent wraps its
ends of the pipes. The child redirects its output, changes directory, sets up a cgroup,
builds and loads its filter, and replaces itself by the configured program. Both branches
are straight-line sequences of calls (`parentBranch`, `childBranch`), of which any may fail
where the source handles a `Result` : after `?` the function returns the error, after an
`unwrap`, `expect` or `unreachable!` the process is gone, as the release build aborts
on a panic.

`Os` is the system the function meets : which controllers cgroups have, who runs the
daemon, its environment, and which call of each process fails. `Machine` is what the
calls change.

Arithmetic on sizes wraps, as in the release build.
-/

open Seccomp Calls

namespace Yapm

/-! ## Errors -/

/-- An error as the system reports it : a number, and the text it is displayed as. -/
structure OsError where
  errno : ℕ
  text : String
deriving DecidableEq, Repr

inductive LinuxErrorManager
  | sigKillNoPerm
  | sigKillNoExist
  | seccompError (e : String)
  | unexpectedError (e : OsError)
  | ioError (e : String)
  | timeout
  | cgroupError (msg : String)
deriving DecidableEq, Repr

def esrch : ℕ := 3

def einval : OsError := ⟨22, "EINVAL: Invalid argument"⟩

/-- `LinuxErrorManager::from(Errno)`. -/
def LinuxErrorManager.ofErrno (e : OsError) : LinuxErrorManager :=
  if e.errno = eperm then .sigKillNoPerm
  else if e.errno = esrch then .sigKillNoExist
  else .unexpectedError e

def LinuxErrorManager.display : LinuxErrorManager → String
  | .sigKillNoPerm => "YAPM does not have the neccessary permissions to perform this action"
  | .sigKillNoExist => "SIGKILL could not terminate the target process; It either does not " ++
    "exist or has been terminated already"
  | .seccompError e => "A seccomp action has failed: " ++ e
  | .unexpectedError e => "There has been an unknown error: " ++ e.text
  | .ioError e => "An IO Operation failed: " ++ e
  | .timeout => "Time out on spawning processes"
  | .cgroupError msg => "This error occured when setting cgroup limits: " ++ msg

/-- How a failed call ends the function. -/
inductive Failure
  | error (e : LinuxErrorManager)
  | panic (msg : String)
deriving DecidableEq, Repr

def Failure.isError : Failure → Bool
  | .error _ => true
  | .panic _ => false

/-! ## The variables of the daemon -/

/-- The byte of `=`. -/
def equalsSign : UInt8 := 61

/-- An entry of `environ` as `vars_os` takes it apart : the name ends before the first `=` that
comes after its first byte, and an entry without one is skipped. -/
def splitVar : List UInt8 → Option (List UInt8 × List UInt8)
  | [] => none
  | b :: bs => (Text.splitFirst (· = equalsSign) bs).map fun split => (b :: split.1, split.2)

/-- `into_string().unwrap()` of a name and of its value. -/
def unicodeVar (var : List UInt8 × List UInt8) : Except String (String × String) :=
  match Utf8.decode var.1, Utf8.decode var.2 with
  | some name, some value => .ok (name, value)
  | _, _ => .error "called `Result::unwrap()` on an `Err` value"

/-- `std::env::vars` : the variables, or the panic at one that is not Unicode. -/
def envVars (environ : List (List UInt8)) : Except String (List (String × String)) :=
  Text.collect ((environ.filterMap splitVar).map unicodeVar)

/-- Every variable that is read is Unicode. -/
def Unicode (environ : List (List UInt8)) : Prop :=
  ∀ entry ∈ environ, ∀ var, splitVar entry = some var → Utf8.Valid var.1 ∧ Utf8.Valid var.2

theorem exists_unicodeVar_iff {var : List UInt8 × List UInt8} :
    (∃ kv, unicodeVar var = .ok kv) ↔ Utf8.Valid var.1 ∧ Utf8.Valid var.2 := by
  rw [← Utf8.decode_isSome_iff, ← Utf8.decode_isSome_iff, unicodeVar]
  cases Utf8.decode var.1 <;> cases Utf8.decode var.2 <;> simp

theorem exists_envVars_iff {environ : List (List UInt8)} :
    (∃ vars, envVars environ = .ok vars) ↔ Unicode environ := by
  rw [envVars, Text.exists_collect_iff, List.forall_mem_map]
  simp only [exists_unicodeVar_iff, List.mem_filterMap, forall_exists_index, and_imp, Unicode]
  exact ⟨fun h entry hentry var hvar => h var entry hentry hvar,
    fun h var entry hentry hvar => h entry hentry var hvar⟩

/-! ## Calls -/

inductive Stream
  | stderr
  | stdout
deriving DecidableEq, Repr

/-- A call of the function that can fail. Calls on a cgroup carry its name. -/
inductive SysCall
  | pipe (stream : Stream)
  | fork
  | getFlags (stream : Stream)
  | setFlags (stream : Stream)
  | asyncFd (stream : Stream)
  | dup2 (stream : Stream)
  | setCurrentDir (dir : String)
  | buildCgroup (name : String)
  | setMemswapLimit (name : String) (bytes : ℤ)
  | setLimit (name : String) (bytes : ℤ)
  | setCfsPeriod (name : String) (period : ℕ)
  | setCfsQuota (name : String) (quota : ℤ)
  | createCgroup (name : String)
  | newSeccompContext
  | addArch
  | seccomp (step : SeccompStep)
  | loadSeccomp
  | cstring (s : String)
  | vars (environ : List (List UInt8))
  /-- One string for each variable. -/
  | cstringEnv (env : Env)
  | execvpe (target : String) (args : List String) (env : Env)

/-- What a failure of the call does to the function. -/
def SysCall.failure (c : SysCall) (e : OsError) : Failure :=
  match c with
  | .pipe _ | .fork | .getFlags _ | .setFlags _ | .dup2 _ => .error (.ofErrno e)
  | .asyncFd _ => .panic
    "Asynchronous file descriptor could not be created from the process' stderr/stdout"
  | .setCurrentDir _ => .error (.ioError e.text)
  | .buildCgroup _ => .error (.cgroupError ("Error initializing Cgroup context: " ++ e.text))
  | .setMemswapLimit _ _ | .setLimit _ _ =>
    .error (.cgroupError ("Failed to set memory limit for cgroups: " ++ e.text))
  | .setCfsPeriod _ _ => .error (.cgroupError ("Failed to set CPU period: " ++ e.text))
  | .setCfsQuota _ _ => .error (.cgroupError ("Failed to set CPU quota: " ++ e.text))
  | .createCgroup _ =>
    .error (.cgroupError ("The cgroup could not be created successfully: " ++ e.text))
  | .newSeccompContext | .addArch | .seccomp _ | .loadSeccomp => .error (.seccompError e.text)
  | .cstring _ | .vars _ | .cstringEnv _ => .panic "called `Result::unwrap()` on an `Err` value"
  | .execvpe _ _ _ => .panic "internal error: entered unreachable code: execve failed unexpectedly"

def hasNul (s : String) : Bool :=
  s.toList.contains '\x00'

/-- No failure of the call but those of `CString::new` and `env::vars` is up to the system : a
string with a nul byte does not convert, nor does a variable that is not Unicode. -/
def SysCall.outcome (fails : ℕ → Option OsError) (i : ℕ) (c : SysCall) : Option Failure :=
  match c with
  | .cstring s => if hasNul s then some (c.failure ⟨0, "nul byte"⟩) else none
  | .vars environ =>
    if (envVars environ).isOk = false then some (c.failure ⟨0, "not Unicode"⟩) else none
  | .cstringEnv env =>
    if env.any fun k v => hasNul (k ++ "=" ++ v) then some (c.failure ⟨0, "nul byte"⟩)
    else none
  | c => (fails i).map c.failure

/-! ## The machine -/

structure Cgroup where
  memLimit : Option ℤ
  memswapLimit : Option ℤ
  cfsPeriod : Option ℕ
  cfsQuota : Option ℤ
  members : List Pid
deriving DecidableEq, Repr

def Cgroup.new : Cgroup where
  memLimit := none
  memswapLimit := none
  cfsPeriod := none
  cfsQuota := none
  members := []

structure Image where
  target : String
  args : List String
  env : Env
deriving DecidableEq

/-- The kernel's cgroups and limits, and what the process that makes the calls has of its
own : the filter it builds, the filter it is under, the streams it has redirected, and the
program it runs once it is replaced. -/
structure Machine where
  cgroups : String → Option Cgroup
  /-- Soft and hard `RLIMIT_NOFILE`. -/
  nofile : Pid → ℕ × ℕ
  context : Option (ScmpFilterContext String)
  filter : Option (ScmpFilterContext String)
  redirected : List Stream
  cwd : Option String
  image : Option Image

def Machine.onCgroup (m : Machine) (name : String) (f : Cgroup → Cgroup) : Machine :=
  { m with cgroups := Function.update m.cgroups name ((m.cgroups name).map f) }

/-- A cgroup that is there already is kept. -/
def Machine.addCgroup (m : Machine) (name : String) : Machine :=
  { m with cgroups := Function.update m.cgroups name (some ((m.cgroups name).getD .new)) }

def SysCall.effect (c : SysCall) (m : Machine) : Machine :=
  match c with
  | .dup2 stream => { m with redirected := m.redirected ++ [stream] }
  | .setCurrentDir dir => { m with cwd := some dir }
  | .buildCgroup name | .createCgroup name => m.addCgroup name
  | .setMemswapLimit name bytes => m.onCgroup name ({ · with memswapLimit := some bytes })
  | .setLimit name bytes => m.onCgroup name ({ · with memLimit := some bytes })
  | .setCfsPeriod name period => m.onCgroup name ({ · with cfsPeriod := some period })
  | .setCfsQuota name quota => m.onCgroup name ({ · with cfsQuota := some quota })
  | .newSeccompContext => { m with context := some initSeccompContext }
  | .seccomp step =>
    { m with context := m.context.map fun ctx =>
        { ctx with rules := ctx.rules ++ rulesOf [step] } }
  | .loadSeccomp => { m with filter := m.context }
  | .execvpe target args env => { m with image := some ⟨target, args, env⟩ }
  | _ => m

/-! ## The function -/

/-- The system the function meets. -/
structure Os where
  memController : Bool
  cpuController : Bool
  isRoot : Bool
  /-- The variables of the daemon, as bytes. -/
  environ : List (List UInt8)
  /-- The failure of the parent's call at a position. -/
  parentFails : ℕ → Option OsError
  /-- The failure of the child's call at a position. -/
  childFails : ℕ → Option OsError

/-- The variables of the daemon, when all that are read are Unicode. -/
def Os.vars (os : Os) : List (String × String) :=
  match envVars os.environ with
  | .ok vars => vars
  | .error _ => []

def initCgroupContext (name : String) : List SysCall :=
  [.buildCgroup name]

/-- A `usize` as an `i64`. -/
def asI64 (n : ℕ) : ℤ :=
  (BitVec.ofNat 64 n).toInt

def setCgroupMemLimit (os : Os) (name : String) (memReqs : MemReqs) : List SysCall :=
  if os.memController then
    match memReqs with
    | .specific mibs => [.setMemswapLimit name (asI64 (mibs * 1024 * 1024))]
    | .unlimited => [.setLimit name (-1)]
  else []

/-- The quota, of a period of 100000. `-1` is no limit. -/
def cpuQuota (isRoot : Bool) (cpuPriority : CPUPriority) : ℤ :=
  if isRoot then
    match cpuPriority with
    | .max => -1
    | .veryHigh => 90000
    | .high => 75000
    | .normal => -1
    | .low => 50000
    | .veryLow => 25000
    | .lowest => 10000
  else
    match cpuPriority with
    | .max | .veryHigh | .high => 75000
    | .normal => 50000
    | .low => 30000
    | .veryLow => 15000
    | .lowest => 5000

def cpuPeriod : ℕ := 100000

def setCgroupCpuLimit (os : Os) (name : String) (cpuPriority : CPUPriority) : List SysCall :=
  if os.cpuController then
    [.setCfsPeriod name cpuPeriod, .setCfsQuota name (cpuQuota os.isRoot cpuPriority)]
  else []

def loadCgroupContext (name : String) : List SysCall :=
  [.createCgroup name]

/-- The limits `set_process_fd_max_rlimit` computes. -/
def fdMaxRlimit (n : ℕ) : ℕ × ℕ :=
  ((n + 3) % 2 ^ 64, (n + 3) % 2 ^ 64)

/-- `ManagedStream::new`. -/
def managedStream (stream : Stream) : List SysCall :=
  [.getFlags stream, .setFlags stream, .asyncFd stream]

/-- The calls before the processes part. -/
def setup : List SysCall :=
  [.pipe .stderr, .pipe .stdout, .fork]

def parentBranch : List SysCall :=
  managedStream .stderr ++ managedStream .stdout

/-- The calls of the child that are followed by `?`. -/
def confine (os : Os) (config : ProcessConfig) : List SysCall :=
  [.dup2 .stderr, .dup2 .stdout] ++
  (config.cwd.map SysCall.setCurrentDir).toList ++
  initCgroupContext config.name ++
  setCgroupMemLimit os config.name config.resources.memLimit ++
  setCgroupCpuLimit os config.name config.resources.cpuPriority ++
  loadCgroupContext config.name ++
  [.newSeccompContext, .addArch] ++
  (securitySteps config.security).map .seccomp ++
  [.loadSeccomp]

/-- The calls of the child after these, none of which returns an error. -/
def replace (os : Os) (config : ProcessConfig) : List SysCall :=
  let finalEnv := config.env ∪ .collect os.vars
  [.cstring config.command, .vars os.environ, .cstringEnv finalEnv] ++
  config.args.map .cstring ++
  [.execvpe config.command (config.command :: config.args) finalEnv]

def childBranch (os : Os) (config : ProcessConfig) : List SysCall :=
  confine os config ++ replace os config

def Os.parent (os : Os) : System SysCall Machine Failure where
  outcome := SysCall.outcome os.parentFails
  effect := SysCall.effect

def Os.child (os : Os) : System SysCall Machine Failure where
  outcome := SysCall.outcome os.childFails
  effect := SysCall.effect

/-- How a process leaves the function. -/
inductive Exit
  | returned (r : Except LinuxErrorManager Pid)
  | aborted (msg : String)
  | replaced

def Exit.returns : Exit → Bool
  | .returned _ => true
  | .aborted _ | .replaced => false

def Exit.ofFailure : Failure → Exit
  | .error e => .returned (.error e)
  | .panic msg => .aborted msg

/-- How a process leaves a branch : as `done`, unless a failure stopped it. -/
def Exit.ofRun (done : Exit) : Option Failure → Exit
  | none => done
  | some f => .ofFailure f

/-- How each process leaves the function, and the machine the child leaves. There is no
child when the function ends before it forks. -/
structure Spawned where
  parent : Exit
  child : Option Exit
  machine : Machine

/-- `child` is the pid the kernel gives out. -/
def createChildExecContextFromConfig (os : Os) (config : ProcessConfig) (child : Pid)
    (m : Machine) : Spawned :=
  match os.parent.run 0 setup m with
  | (some f, m) => ⟨.ofFailure f, none, m⟩
  | (none, m) =>
    let inParent := os.parent.run setup.length parentBranch m
    let inChild := os.child.run setup.length (childBranch os config) m
    { parent := .ofRun (.returned (.ok child)) inParent.1
      child := some (.ofRun .replaced inChild.1)
      machine := inChild.2 }

/-! ## Who returns -/

/-- Only the parent returns. -/
def Spawned.Contained (s : Spawned) : Prop :=
  s.parent.returns ∧ ∀ exit, s.child = some exit → exit.returns = false

/-- Both pipes are made and the fork succeeds. -/
def Os.Forks (os : Os) : Prop :=
  os.parentFails 0 = none ∧ os.parentFails 1 = none ∧ os.parentFails 2 = none

/-- The runtime refuses a stream of the parent : `AsyncFd::new` fails, which is call 5 for
standard error and call 8 for standard output, and the calls before it did not. -/
def Os.RefusesStream (os : Os) : Prop :=
  os.parentFails 3 = none ∧ os.parentFails 4 = none ∧
    (os.parentFails 5 ≠ none ∨
      os.parentFails 6 = none ∧ os.parentFails 7 = none ∧ os.parentFails 8 ≠ none)

/-- The parent returns an error after the fork : an `fcntl` on a stream of its fails. -/
def Os.losesChild (os : Os) : Bool :=
  [0, 1, 2].all (fun i => (os.parentFails i).isNone) &&
    [3, 4, 6, 7].any fun i => (os.parentFails i).isSome

/-- Whether `?` follows the call. -/
def SysCall.propagates : SysCall → Bool
  | .asyncFd _ | .cstring _ | .vars _ | .cstringEnv _ | .execvpe _ _ _ => false
  | _ => true

theorem SysCall.outcome_of_propagates {c : SysCall} (h : c.propagates)
    (fails : ℕ → Option OsError) (i : ℕ) : c.outcome fails i = (fails i).map c.failure := by
  cases c <;> first | rfl | cases h

theorem SysCall.isError_failure (c : SysCall) (e : OsError) :
    (c.failure e).isError = c.propagates := by
  cases c <;> rfl

/-- A failure is an error exactly when `?` follows the call that failed. -/
theorem SysCall.isError_of_outcome {c : SysCall} {fails : ℕ → Option OsError} {i : ℕ}
    {f : Failure} (h : c.outcome fails i = some f) : f.isError = c.propagates := by
  suffices ∃ e, c.failure e = f by
    obtain ⟨e, rfl⟩ := this
    exact c.isError_failure e
  unfold outcome at h
  split at h
  · exact ⟨_, (Option.ite_none_right_eq_some.mp h).2 |> Option.some_inj.mp⟩
  · exact ⟨_, (Option.ite_none_right_eq_some.mp h).2 |> Option.some_inj.mp⟩
  · exact ⟨_, (Option.ite_none_right_eq_some.mp h).2 |> Option.some_inj.mp⟩
  · obtain ⟨e, -, he⟩ := Option.map_eq_some_iff.mp h
    exact ⟨e, he⟩

theorem Os.child_outcome (os : Os) (i : ℕ) (c : SysCall) :
    os.child.outcome i c = c.outcome os.childFails i := rfl

/-- A process returns what the branch returns when it ends, or an error. -/
theorem Exit.returns_ofRun (done : Exit) (f : Option Failure) :
    (Exit.ofRun done f).returns = (f.map Failure.isError).getD done.returns := by
  rcases f with _ | _ | _ <;> rfl

section Containment

variable (os : Os) (config : ProcessConfig) (child : Pid) (m : Machine)

/-- `?` follows every call of `confine`. -/
theorem propagates_of_mem_confine : ∀ c ∈ confine os config, c.propagates := by
  have hmem : ∀ c ∈ setCgroupMemLimit os config.name config.resources.memLimit,
      c.propagates := by
    unfold setCgroupMemLimit
    split
    · split <;> simp [SysCall.propagates]
    · simp
  have hcpu : ∀ c ∈ setCgroupCpuLimit os config.name config.resources.cpuPriority,
      c.propagates := by
    unfold setCgroupCpuLimit
    split <;> simp [SysCall.propagates]
  intro c hc
  simp only [confine, initCgroupContext, loadCgroupContext, List.mem_append, List.mem_map,
    Option.mem_toList, Option.map_eq_some_iff, List.mem_cons, List.not_mem_nil, or_false] at hc
  rcases hc with ((((((((rfl | rfl) | ⟨dir, -, rfl⟩) | rfl) | hc) | hc) | rfl) | rfl | rfl) |
    ⟨step, -, rfl⟩) | rfl
  case inl.inl.inl.inl.inl.inr => exact hmem c hc
  case inl.inl.inl.inl.inr => exact hcpu c hc
  all_goals rfl

/-- `?` follows no call of `replace`. -/
theorem not_propagates_of_mem_replace : ∀ c ∈ replace os config, c.propagates = false := by
  intro c hc
  simp only [replace, List.mem_append, List.mem_map, List.mem_cons, List.not_mem_nil,
    or_false] at hc
  rcases hc with ((rfl | rfl | rfl) | ⟨arg, -, rfl⟩) | rfl <;> rfl

theorem serves_confine_iff : os.child.Serves setup.length (confine os config) ↔
    ∀ k < (confine os config).length, os.childFails (setup.length + k) = none := by
  rw [System.serves_iff_getElem]
  refine forall₂_congr fun k hk => ?_
  have hp := propagates_of_mem_confine os config _ (List.getElem_mem hk)
  rw [os.child_outcome, SysCall.outcome_of_propagates hp, Option.map_eq_none_iff]

/-- The child returns exactly when a call of `confine` fails. -/
theorem child_returns_iff :
    (∃ f, (os.child.run setup.length (childBranch os config) m).1 = some f ∧ f.isError) ↔
      ¬∀ k < (confine os config).length, os.childFails (setup.length + k) = none := by
  rw [← serves_confine_iff, childBranch, System.run_append]
  by_cases h : os.child.Serves setup.length (confine os config)
  · refine iff_of_false ?_ (not_not_intro h)
    rw [System.run_of_serves _ _ _ _ h]
    rintro ⟨f, hf, herr⟩
    obtain ⟨c, hc, k, hk⟩ := System.exists_of_run_eq_some _ _ _ _ hf
    rw [SysCall.isError_of_outcome hk, not_propagates_of_mem_replace os config c hc] at herr
    cases herr
  · refine iff_of_true ?_ h
    rw [← System.run_eq_none_iff _ _ _ m] at h
    obtain ⟨f, hf⟩ := Option.ne_none_iff_exists'.mp h
    obtain ⟨c, hc, k, hk⟩ := System.exists_of_run_eq_some _ _ _ _ hf
    refine ⟨f, ?_, ?_⟩
    · rw [show os.child.run setup.length (confine os config) m = (some f, _) from
        Prod.ext hf rfl]
    · rw [SysCall.isError_of_outcome hk]
      exact propagates_of_mem_confine os config c hc

/-- The parent is gone exactly when the runtime refuses a stream. -/
theorem parent_aborts_iff :
    (∃ f, (os.parent.run setup.length parentBranch m).1 = some f ∧ f.isError = false) ↔
      os.RefusesStream := by
  simp only [parentBranch, managedStream, List.cons_append, List.nil_append, System.run, Os.parent,
    setup, List.length_cons, List.length_nil, SysCall.outcome, Os.RefusesStream]
  cases os.parentFails 3 <;> cases os.parentFails 4 <;> cases os.parentFails 5 <;>
    cases os.parentFails 6 <;> cases os.parentFails 7 <;> cases os.parentFails 8 <;>
    simp [SysCall.failure, Failure.isError]

/-- The processes part exactly when both pipes and the fork succeed. -/
theorem setup_run :
    (os.parent.run 0 setup m = (none, m) ∧ os.Forks) ∨
      (∃ e, os.parent.run 0 setup m = (some (.error e), m)) ∧ ¬os.Forks := by
  simp only [setup, System.run, Os.parent, SysCall.outcome, SysCall.effect, Os.Forks]
  cases os.parentFails 0 <;> cases os.parentFails 1 <;> cases os.parentFails 2 <;>
    simp [SysCall.failure]

theorem losesChild_of_error {e : LinuxErrorManager} {exit : Exit}
    (hparent : (createChildExecContextFromConfig os config child m).parent = .returned (.error e))
    (hchild : (createChildExecContextFromConfig os config child m).child = some exit) :
    os.losesChild := by
  rcases setup_run os m with ⟨hrun, hforks⟩ | ⟨⟨f, hrun⟩, -⟩
  · simp only [createChildExecContextFromConfig, hrun] at hparent
    simp only [parentBranch, managedStream, List.cons_append, List.nil_append, System.run,
      Os.parent, setup, List.length_cons, List.length_nil, SysCall.outcome] at hparent
    simp only [Os.losesChild, hforks.1, hforks.2.1, hforks.2.2, List.all_cons, List.any_cons]
    revert hparent
    cases os.parentFails 3 <;> cases os.parentFails 4 <;> cases os.parentFails 5 <;>
      cases os.parentFails 6 <;> cases os.parentFails 7 <;> cases os.parentFails 8 <;>
      simp [SysCall.failure, Exit.ofRun, Exit.ofFailure]
  · simp only [createChildExecContextFromConfig, hrun] at hchild
    cases hchild

/-- Only the parent returns exactly when, if the processes part at all, the runtime takes
both streams of the parent and no call of the child that `?` follows fails. -/
theorem contained_iff :
    (createChildExecContextFromConfig os config child m).Contained ↔
      (os.Forks → ¬os.RefusesStream ∧
        ∀ k < (confine os config).length, os.childFails (setup.length + k) = none) := by
  rcases setup_run os m with ⟨hrun, hforks⟩ | ⟨⟨e, hrun⟩, hforks⟩
  · have hchild := child_returns_iff os config m
    have hparent := parent_aborts_iff os m
    simp only [createChildExecContextFromConfig, hrun, hforks, true_imp_iff, Spawned.Contained,
      Option.some_inj, forall_eq', Exit.returns_ofRun]
    refine and_congr ?_ ?_
    · rw [← hparent]
      cases (os.parent.run setup.length parentBranch m).1 <;> simp [Exit.returns]
    · rw [← not_iff_not, ← hchild]
      cases (os.child.run setup.length (childBranch os config) m).1 <;> simp [Exit.returns]
  · simp [createChildExecContextFromConfig, hrun, hforks, Spawned.Contained, Exit.ofFailure,
      Exit.returns]

end Containment

/-- A system on which nothing fails. -/
def plainOs : Os where
  memController := true
  cpuController := true
  isRoot := true
  environ := []
  parentFails _ := none
  childFails _ := none

def plainMachine : Machine where
  cgroups _ := none
  nofile _ := (1024, 4096)
  context := none
  filter := none
  redirected := []
  cwd := none
  image := none

def badFileDescriptor : OsError := ⟨9, "EBADF: Bad file number"⟩

/-- The first call of the child, `dup2`, fails. -/
def failingDup2 : Os :=
  { plainOs with
    childFails := fun i => if i = setup.length then some badFileDescriptor else none }

/-- Both processes return : the parent the child's pid, and the child an error. -/
theorem failingDup2_returns_twice :
    (createChildExecContextFromConfig failingDup2 plainConfig 4242 plainMachine).parent =
      .returned (.ok 4242) ∧
    (createChildExecContextFromConfig failingDup2 plainConfig 4242 plainMachine).child =
      some (.returned (.error (.unexpectedError badFileDescriptor))) ∧
    ¬(createChildExecContextFromConfig failingDup2 plainConfig 4242 plainMachine).Contained := by
  refine ⟨rfl, rfl, fun h => ?_⟩
  cases h.2 _ rfl

end Yapm
