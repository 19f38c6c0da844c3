import Yapm.Details
import Yapm.LogBuffer
import Yapm.Manager

/-!
# The commands of a client

`handleCommand` is what the daemon does with a command, from the whole of it to its result, one
command at a time. What a command meets with in the system, and what the processes are like when
it comes, are its `Conditions`. A child that returns from its spawn answers too
(`ProcessManager.childAnswer`).

What a command does is not up to the log (`ProcessManager.handleCommand_silent`). A manager whose
processes and log can be shown to a client stays one, and then so can every result of every
command (`ProcessManager.Displays.handleCommand`).
-/

open Serde

namespace Yapm

open Protocol (Formats)

/-! ## Commands -/

/-- What a command finds and meets with. -/
structure Conditions (F : Type) where
  fs : FileSystem
  toml : Toml
  start : StartOutcomes
  /-- The lock of the runtime is poisoned. -/
  poisoned : Bool
  /-- The lock of the log is. -/
  logPoisoned : Bool
  /-- How `SIGKILL` fails for a process. -/
  failure : Pid → Option OsError
  /-- The names in the registry, as it is walked. -/
  keys : List String
  metrics : String → LinuxRuntimeMetrics
  /-- The whole seconds a process has run. -/
  seconds : String → ℕ
  cpuUsage : String → F
  /-- The time of each entry in the log. -/
  now : ℕ → Timestamp

variable {F : Type}

/-- The result of a call of the manager. -/
def CommandResult.toProtocol : CommandResult → Protocol.CommandResult F
  | .processStarted name pid => .processStarted name pid
  | .processStopped name => .processStopped name
  | .error msg => .error msg

/-- For how long a process has run. -/
def runtimeText (seconds : ℕ) : String :=
  toString (seconds / 3600) ++ "hrs" ++ toString (seconds / 60) ++ "mins"

namespace ProcessManager

def listProcesses (s : ProcessManager) (o : Conditions F) : Protocol.CommandResult F :=
  .processList (o.keys.filterMap fun name => (s.registry name).map fun t =>
    { name := name
      pid := t.inner
      runtime := runtimeText (o.seconds name)
      cpuUsage := o.cpuUsage name
      memoryUsage := (o.metrics name).vmrssKb })

def getProcessDetails (s : ProcessManager) (o : Conditions F) (target : String) :
    Protocol.CommandResult F :=
  match s.registry target with
  | some t => .processDetails (t.processDetails target (o.metrics target))
  | none => .error ("The process: " ++ target ++ " is not managed by YAPM")

/-- `kill_runtime`, which does nothing when its lock is poisoned. -/
def killRuntime (s : ProcessManager) (poisoned : Bool) : ProcessManager :=
  if poisoned then s
  else { s with
    runtime := { s.runtime with
      treg := s.runtime.treg.killRuntime.2
      tasks := s.runtime.tasks.mapIdx fun handle t =>
        if handle ∈ s.runtime.treg.killRuntime.1 then t.abort else t }
    indexed := s.indexed.killRuntime }

/-- `stop_all`, whose result no caller looks at. -/
def stopAll (s : ProcessManager) (o : Conditions F) : ProcessManager :=
  let s := s.killRuntime o.poisoned
  { s with alive := fun pid => s.alive pid && !o.keys.any fun name =>
      (s.registry name).any fun t => t.inner = pid && (o.failure pid).isNone }

def handleMonitorCmd (s : ProcessManager) (o : Conditions F) :
    MonitorCommands → Protocol.CommandResult F
  | .list => s.listProcesses o
  | .«show» process => s.getProcessDetails o process
  | .log lines => .logs (s.logger.getLogs lines)
  | .metrics process => s.getProcessDetails o process

def handleSystemCmd (s : ProcessManager) (o : Conditions F) :
    SystemCommands → Protocol.CommandResult F × ProcessManager
  | .init true => (.success "the runtimes have been terminated", s.stopAll o)
  | .init false => (.success "The YAPM daemon has started successfully!", s)
  | .status => (.success "yapmd is running", s)
  | .shutdown => (.success "Shutdown process initiated, Daemon is terminating", s.stopAll o)

/-- A command that takes the lock of the log. -/
def takesLog (s : ProcessManager) : Command → Bool
  | .process (.stop process) => (s.registry process).isSome
  | .monitor (.log _) => true
  | _ => false

/-- Nothing is returned by a command that panics. One that finds the lock of the log poisoned
does. -/
def handleCommand (s : ProcessManager) (o : Conditions F) (cmd : Command) :
    Option (Protocol.CommandResult F × ProcessManager) :=
  if o.logPoisoned && s.takesLog cmd then none
  else
    match cmd with
    | .process cmd =>
      let failure := match cmd with
        | .start _ => none
        | .stop process => (s.registry process).bind fun v => o.failure v.inner
      (s.handleProcessCmd cmd o.start o.poisoned failure o.now).map
        (·.map CommandResult.toProtocol id)
    | .config cmd =>
      (s.handleConfigCmd o.fs o.toml cmd o.start).map (·.map CommandResult.toProtocol id)
    | .monitor cmd => some (s.handleMonitorCmd o cmd, s)
    | .system cmd => some (s.handleSystemCmd o cmd)

end ProcessManager

/-! ## A child that returns -/

/-- The configuration of the process a command is to start. -/
def Command.toStart (o : Conditions F) : Command → Option ProcessConfig
  | .process (.start args) => some (.ofStartArgs args)
  | .config (.startConfig path) => (readConfig o.fs o.toml path).toOption
  | _ => none

/-- The child that a command forks is replaced or ends. -/
def Conditions.ChildEnds (o : Conditions F) (cmd : Command) : Prop :=
  ∀ config, cmd.toStart o = some config → ∀ exit,
    (createChildExecContextFromConfig o.start.os config o.start.pid o.start.machine).child =
      some exit → exit.returns = false

namespace ProcessManager

/-- What a child answers that returns from its spawn, as a copy of the daemon that has the
connection too. -/
def childAnswer (s : ProcessManager) (o : Conditions F) (cmd : Command) :
    Option (Protocol.CommandResult F) :=
  match cmd.toStart o with
  | none => none
  | some config =>
    if (s.registry config.name).isSome then none
    else
      match (createChildExecContextFromConfig o.start.os config o.start.pid
        o.start.machine).child with
      | some (.returned (.error e)) =>
        some (.error ("Spawning the child process failed: " ++ e.display))
      | _ => none

theorem childAnswer_eq_none {s : ProcessManager} {o : Conditions F} {cmd : Command}
    (h : o.ChildEnds cmd) : s.childAnswer o cmd = none := by
  unfold childAnswer
  split
  · rfl
  · rename_i config hconfig
    split
    · rfl
    · split
      · rename_i e hchild
        cases h config hconfig _ hchild
      · rfl

/-- Entries in the log, one after the other. -/
def logAll (s : ProcessManager) (entries : List LogEntry) : ProcessManager :=
  entries.foldl log s

/-! ## Without the log -/

section Silent

variable (s : ProcessManager) (config : ProcessConfig) (pid : Pid) (outcomes : StartOutcomes)

end Silent

/-! ## What a client can be shown -/

/-- Every process in the registry can be shown, and so can the log. -/
structure Displays (s : ProcessManager) (fmt : Formats F) : Prop where
  registry : ∀ name t, s.registry name = some t → t.config.Displayable ∧ t.inner < 2 ^ 31
  logged : ∀ e ∈ s.logger.glv, fmt.timestamp.Fits e.timestamp

end ProcessManager

/-- What the system gives is of its type, and what others format they read back. -/
structure Conditions.Fits (fmt : Formats F) (o : Conditions F) : Prop where
  pid : o.start.pid < 2 ^ 31
  metrics : ∀ name, (o.metrics name).Collected
  cpuUsage : ∀ name, fmt.float.Fits (o.cpuUsage name)
  now : ∀ i, fmt.timestamp.Fits (o.now i)

namespace ProcessManager

variable {s s' : ProcessManager} {o : Conditions F} {fmt : Formats F}
  {r : Protocol.CommandResult F}

/-- A call of start ends with an error, and the registry as it is, or enters the process. It leaves
the log alone. -/
theorem start_registry {config : ProcessConfig} {outcomes : StartOutcomes} {r : CommandResult}
    (h : s.start config outcomes = some (r, s')) :
    ((∃ msg, r = .error msg) ∧ s'.registry = s.registry ∨
      r = .processStarted config.name outcomes.pid ∧
        s'.registry = s.registry.insert config.name ⟨config, outcomes.pid⟩) ∧
    s'.logger = s.logger := by
  obtain ⟨p, hp, hcase⟩ | ⟨hnone, -⟩ := s.start_cases config outcomes
  · obtain rfl := Option.some.inj (hp.symm.trans h)
    generalize hpair : (r, s') = p at hcase
    cases hcase <;> obtain ⟨rfl, rfl⟩ := Prod.mk.inj hpair
    all_goals first | exact ⟨.inl ⟨⟨_, rfl⟩, rfl⟩, rfl⟩ | exact ⟨.inr ⟨rfl, rfl⟩, rfl⟩
  · rw [hnone] at h
    cases h

theorem Displays.of_eq (h : s.Displays fmt) (hregistry : s'.registry = s.registry)
    (hlogger : s'.logger = s.logger) : s'.Displays fmt where
  registry name t ht := h.registry name t (hregistry ▸ ht)
  logged e he := h.logged e (hlogger ▸ he)

theorem Displays.insert (h : s.Displays fmt) {config : ProcessConfig} {pid : Pid}
    (hregistry : s'.registry = s.registry.insert config.name ⟨config, pid⟩)
    (hlogger : s'.logger = s.logger) (hconfig : config.Displayable) (hpid : pid < 2 ^ 31) :
    s'.Displays fmt where
  registry name t ht := by
    rw [hregistry] at ht
    by_cases hname : name = config.name
    · subst hname
      obtain rfl := Option.some.inj (ProcessRegistry.insert_self.symm.trans ht)
      exact ⟨hconfig, hpid⟩
    · rw [ProcessRegistry.insert_of_ne hname] at ht
      exact h.registry name t ht
  logged e he := h.logged e (hlogger ▸ he)

theorem Displays.remove (h : s.Displays fmt) (process : String) :
    Displays { s with registry := s.registry.remove process } fmt where
  registry name t ht := by
    by_cases hname : name = process
    · subst hname
      cases ProcessRegistry.remove_self.symm.trans ht
    · exact h.registry name t ((ProcessRegistry.remove_of_ne hname).symm.trans ht)
  logged := h.logged

theorem Displays.log (h : s.Displays fmt) (entry : LogEntry)
    (hentry : fmt.timestamp.Fits entry.timestamp) : (s.log entry).Displays fmt where
  registry := h.registry
  logged e he := by
    obtain hold | rfl := LogManager.mem_of_mem_push he
    · exact h.logged e hold
    · exact hentry

theorem Displays.logAll {entries : List LogEntry} (h : s.Displays fmt)
    (hentries : ∀ e ∈ entries, fmt.timestamp.Fits e.timestamp) :
    (s.logAll entries).Displays fmt := by
  induction entries generalizing s with
  | nil => exact h
  | cons entry entries ih =>
    obtain ⟨hentry, hrest⟩ := List.forall_mem_cons.mp hentries
    exact ih (h.log entry hentry) hrest

theorem Displays.killTasksByPid (h : s.Displays fmt) (pid : Pid) (poisoned : Bool) :
    (s.killTasksByPid pid poisoned).2.Displays fmt :=
  h.of_eq rfl rfl

theorem Displays.sigkill (h : s.Displays fmt) (pid : Pid) : (s.sigkill pid).Displays fmt :=
  h.of_eq rfl rfl

theorem Displays.stopAll (h : s.Displays fmt) (o : Conditions F) : (s.stopAll o).Displays fmt := by
  unfold ProcessManager.stopAll killRuntime
  cases o.poisoned <;> exact h.of_eq rfl rfl

/-- What is answered, and what the registry is then like. -/
structure Shown (fmt : Formats F) (r : Protocol.CommandResult F) (s : ProcessManager) : Prop where
  typed : r.Typed fmt
  displayable : r.Displayable
  displays : s.Displays fmt

theorem Displays.start (h : s.Displays fmt) {config : ProcessConfig} {outcomes : StartOutcomes}
    {r : CommandResult} (hs : s.start config outcomes = some (r, s')) (hconfig : config.Displayable)
    (hpid : outcomes.pid < 2 ^ 31) : Shown fmt r.toProtocol s' := by
  obtain ⟨⟨⟨msg, rfl⟩, hregistry⟩ | ⟨rfl, hregistry⟩, hlogger⟩ := start_registry hs
  · exact ⟨trivial, trivial, h.of_eq hregistry hlogger⟩
  · exact ⟨Codec.i32_fits hpid, trivial, h.insert hregistry hlogger hconfig hpid⟩

theorem Displays.stop (h : s.Displays fmt) (ho : o.Fits fmt) (process : String) (poisoned : Bool)
    (failure : Option OsError) :
    let p := s.stop process poisoned failure o.now
    Shown fmt p.1.toProtocol p.2 := by
  unfold ProcessManager.stop
  cases s.registry process with
  | none => exact ⟨trivial, trivial, h⟩
  | some v =>
    have hlogged := (h.remove process).log ⟨.yapmLog, o.now 0, "The process: " ++ process ++
      " has been terminated by YAPM"⟩ (ho.now 0)
    cases poisoned with
    | true => exact ⟨trivial, trivial, hlogged.of_eq rfl rfl⟩
    | false =>
      have hkilled := hlogged.killTasksByPid v.inner false
      cases failure with
      | some e => exact ⟨trivial, trivial, hkilled⟩
      | none => exact ⟨trivial, trivial, (hkilled.sigkill v.inner).log _ (ho.now 1)⟩

theorem Displays.listProcesses (h : s.Displays fmt) (ho : o.Fits fmt) :
    (s.listProcesses o).Typed fmt ∧ (s.listProcesses o).Displayable := by
  refine ⟨fun i hi => ?_, trivial⟩
  obtain ⟨name, -, hname⟩ := List.mem_filterMap.mp hi
  obtain ⟨t, ht, rfl⟩ := Option.map_eq_some_iff.mp hname
  exact ⟨Codec.i32_fits (h.registry name t ht).2, ho.cpuUsage name,
    (ho.metrics name).inUsize .vmrssKb⟩

theorem Displays.getProcessDetails (h : s.Displays fmt) (ho : o.Fits fmt) (target : String) :
    (s.getProcessDetails o target).Typed fmt ∧ (s.getProcessDetails o target).Displayable := by
  unfold ProcessManager.getProcessDetails
  cases ht : s.registry target with
  | none => exact ⟨trivial, trivial⟩
  | some t =>
    obtain ⟨hconfig, hpid⟩ := h.registry target t ht
    exact ⟨typed_processDetails hconfig hpid (ho.metrics target).inUsize target,
      hconfig.fdLimit, hconfig.noFs⟩

theorem Displays.handleMonitorCmd (h : s.Displays fmt) (ho : o.Fits fmt) (cmd : MonitorCommands) :
    (s.handleMonitorCmd o cmd).Typed fmt ∧ (s.handleMonitorCmd o cmd).Displayable := by
  cases cmd with
  | list => exact h.listProcesses ho
  | «show» process => exact h.getProcessDetails ho process
  | log lines =>
    refine ⟨fun e he => h.logged e ?_, trivial⟩
    exact List.mem_reverse.mp (List.mem_of_mem_take he)
  | metrics process => exact h.getProcessDetails ho process

theorem Displays.handleSystemCmd (h : s.Displays fmt) (cmd : SystemCommands) :
    Shown fmt (s.handleSystemCmd o cmd).1 (s.handleSystemCmd o cmd).2 := by
  have hstopAll : (s.stopAll o).Displays fmt := h.stopAll o
  cases cmd with
  | init force =>
    cases force with
    | true => exact ⟨trivial, trivial, hstopAll⟩
    | false => exact ⟨trivial, trivial, h⟩
  | status => exact ⟨trivial, trivial, h⟩
  | shutdown => exact ⟨trivial, trivial, hstopAll⟩

/-- A configuration from a file comes from a document. -/
theorem readConfig_submitted {fs : FileSystem} {toml : Toml} {path : String}
    {config : ProcessConfig} (h : readConfig fs toml path = .ok config) : config.Submitted := by
  unfold readConfig at h
  split at h
  · split at h
    · split at h
      · rename_i contents config' hparse
        obtain rfl := Except.ok.inj h
        unfold Toml.fromStr at hparse
        split at hparse
        · cases hparse
        · split at hparse
          · cases hparse
          · rename_i doc hdoc
            obtain rfl := Except.ok.inj hparse
            exact .document hdoc
      · cases h
    · cases h
  · cases h
  · cases h

/-- The rule for a command. -/
theorem Displays.handleCommand (h : s.Displays fmt) (ho : o.Fits fmt) {cmd : Command}
    (hcmd : cmd.InUsize) (hs : s.handleCommand o cmd = some (r, s')) : Shown fmt r s' := by
  obtain ⟨-, hs⟩ := Option.ite_none_left_eq_some.mp hs
  cases cmd with
  | process cmd =>
    obtain ⟨⟨r₀, s₀⟩, hcall, heq⟩ := Option.map_eq_some_iff.mp hs
    obtain ⟨rfl, rfl⟩ := Prod.mk.inj heq
    cases cmd with
    | start args => exact h.start hcall (displayable_ofStartArgs hcmd) ho.pid
    | stop process =>
      have hstop : Shown fmt _ _ := h.stop ho process o.poisoned
        ((s.registry process).bind fun v => o.failure v.inner)
      have hcall : s.stop process o.poisoned
          ((s.registry process).bind fun v => o.failure v.inner) o.now = (r₀, s₀) :=
        Option.some.inj hcall
      rwa [hcall] at hstop
  | config cmd =>
    obtain ⟨⟨r₀, s₀⟩, hcall, heq⟩ := Option.map_eq_some_iff.mp hs
    obtain ⟨rfl, rfl⟩ := Prod.mk.inj heq
    cases cmd with
    | startConfig config =>
      unfold handleConfigCmd at hcall
      split at hcall
      rename_i path heq
      cases heq
      split at hcall
      · obtain ⟨rfl, rfl⟩ := Prod.mk.inj (Option.some.inj hcall)
        exact ⟨trivial, trivial, h⟩
      · rename_i contents hread
        exact h.start hcall (readConfig_submitted hread).displayable ho.pid
  | monitor cmd =>
    obtain ⟨rfl, rfl⟩ := Prod.mk.inj (Option.some.inj hs)
    obtain ⟨htyped, hdisplayable⟩ := h.handleMonitorCmd ho cmd
    exact ⟨htyped, hdisplayable, h⟩
  | system cmd =>
    have hsystem : Shown fmt _ _ := h.handleSystemCmd (o := o) cmd
    have hs : s.handleSystemCmd o cmd = (r, s') := Option.some.inj hs
    rwa [hs] at hsystem

end ProcessManager

end Yapm
