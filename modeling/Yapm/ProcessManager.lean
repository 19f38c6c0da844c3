import Yapm.Cancellation
import Yapm.Daemon
import Yapm.Logging
import Yapm.SpawnOutcome

/-!
# Calls of the process manager

`ProcessManager.start` and `ProcessManager.stop` as a client sees them : a call on a state
of the manager, with what its sub-steps come to, gives an answer and the next state.
What comes between the steps of a call is in `Daemon`.

A call of start takes one of few ways (`start_cases`), and so does a call of stop.
-/

namespace Yapm

open Cancellation (Runtime Message)

/-! ## The manager -/

/-- The registry of processes, the runtime, the log, and which processes are alive. -/
structure ProcessManager where
  registry : ProcessRegistry LinuxCurrentTask
  runtime : Runtime
  logger : LogManager
  alive : Pid → Bool
  indexed : runtime.treg.Indexed

/-- What the sub-steps of a start come to. -/
structure StartOutcomes where
  os : Os
  /-- The pid the kernel gives out. -/
  pid : Pid
  machine : Machine
  /-- The child has ended by itself when start answers. -/
  exits : Bool
  metrics : Option String
  logger : Option String
  logging : Submission
  monitoring : Submission
  collating : Submission
  /-- The lock is poisoned between a submission and the kill that follows it. -/
  poisoned : Bool

/-- The child has its metrics and its logger. -/
structure StartOutcomes.Prepares (o : StartOutcomes) : Prop where
  metrics : o.metrics = none
  logger : o.logger = none

/-- The kill that follows a refused submission finds the lock poisoned. -/
def StartOutcomes.cannotKill (o : StartOutcomes) (fate : Submission) : Bool :=
  fate.isPoisoned || o.poisoned

inductive LoggingError
  | assertionError (msg : String)
  | ioError (e : String)
deriving DecidableEq, Repr

def LoggingError.display : LoggingError → String
  | .assertionError msg => "An important assertion has failed: " ++ msg
  | .ioError e => "An I/O error occured: " ++ e

/-- Of the logger of a process, whether it has its files and the streams of the process. -/
structure ProcessLogger where
  pid : Pid
  files : Bool
  sources : Bool

def ProcessLogger.new (pid : Pid) : ProcessLogger :=
  ⟨pid, true, false⟩

def ProcessLogger.setHandles (logger : ProcessLogger) : ProcessLogger :=
  { logger with sources := true }

/-- The submission of a task of a type. -/
def TaskRegistry.submitTask (r : TaskRegistry) (tty : TaskType) (pid : Pid) (desc : String)
    (fate : Submission) : Except AsyncError TaskId × TaskRegistry :=
  match tty with
  | .logging => r.submitLoggingTask pid desc fate
  | .metrics => r.submitMetricsTask pid desc fate
  | .process => r.submitProcessMonitoringTask pid desc fate

theorem TaskRegistry.Indexed.submittedTask {r : TaskRegistry} (h : r.Indexed) (tty : TaskType)
    (pid : Pid) (desc : String) (fate : Submission) :
    r.Submitted pid tty (r.submitTask tty pid desc fate) := by
  cases tty with
  | logging => exact h.submitted pid .logging desc fate
  | metrics => exact h.submittedUnique pid .metrics desc fate
  | process => exact h.submittedUnique pid .process desc fate

namespace TaskRegistry

/-- The pid has a record of the type, and may not have a second one. -/
def Refuses (r : TaskRegistry) (tty : TaskType) (pid : Pid) : Prop :=
  tty ≠ .logging ∧ r.Has pid tty

/-- A submission is accepted. -/
def Accepts (r : TaskRegistry) (tty : TaskType) (pid : Pid) (fate : Submission) : Prop :=
  fate = .accepted ∧ ¬r.Refuses tty pid

/-- A submission makes a record, accepted or not. -/
def Registers (r : TaskRegistry) (tty : TaskType) (pid : Pid) (fate : Submission) : Prop :=
  fate.isPoisoned = false ∧ ¬r.Refuses tty pid

/-- No record of the pid is running. -/
def Idle (r : TaskRegistry) (pid : Pid) : Prop :=
  ∀ id t, r.tasks id = some t → t.pid = pid → t.status ≠ .running

variable {r : TaskRegistry} {tty tty' : TaskType} {pid : Pid} {desc : String} {fate : Submission}

theorem Accepts.registers (h : r.Accepts tty pid fate) : r.Registers tty pid fate :=
  ⟨by rw [h.1]; rfl, h.2⟩

/-- A submission is one that makes a record, or it is refused and changes nothing. -/
theorem Indexed.submitTask_cases (h : r.Indexed) (tty : TaskType) (pid : Pid) (desc : String)
    (fate : Submission) :
    (r.Registers tty pid fate ∧ r.submitTask tty pid desc fate = r.submit pid tty desc fate) ∨
      ¬r.Registers tty pid fate ∧ ∃ e, r.submitTask tty pid desc fate = (.error e, r) := by
  have hunique (htty : tty ≠ .logging) :
      (r.Registers tty pid fate ∧ r.submitUnique pid tty desc fate = r.submit pid tty desc fate) ∨
        ¬r.Registers tty pid fate ∧ ∃ e, r.submitUnique pid tty desc fate = (.error e, r) := by
    have hany : (r.getTasksByPid pid).any (·.ty = tty) ↔ r.Has pid tty := h.any_ty_iff
    simp only [Registers, Refuses, htty, ne_eq, not_false_eq_true, true_and, ← hany,
      TaskRegistry.submitUnique]
    cases (r.getTasksByPid pid).any (·.ty = tty) <;> cases fate <;> simp [Submission.isPoisoned]
  cases tty with
  | logging =>
    simp only [Registers, Refuses, submitTask, submitLoggingTask]
    cases fate <;> simp [Submission.isPoisoned, TaskRegistry.submit]
  | metrics => exact hunique (by decide)
  | process => exact hunique (by decide)

/-- The submission of an accepted task gives its id. -/
theorem Indexed.submitTask_ok_iff (h : r.Indexed) :
    (∃ id, (r.submitTask tty pid desc fate).1 = .ok id) ↔ r.Accepts tty pid fate := by
  rcases h.submitTask_cases tty pid desc fate with ⟨hreg, heq⟩ | ⟨hnot, e, heq⟩
  · rw [heq, Accepts, and_iff_left hreg.2]
    cases fate <;> simp [TaskRegistry.submit]
  · rw [heq]
    exact iff_of_false (by simp) fun haccepts => hnot haccepts.registers

/-- A submission of another type makes no difference. -/
theorem Indexed.has_submitTask (h : r.Indexed) (pid' : Pid) (htty : tty' ≠ tty) :
    (r.submitTask tty pid desc fate).2.Has pid' tty' ↔ r.Has pid' tty' := by
  have hsub := h.submittedTask tty pid desc fate
  constructor
  · rintro ⟨id, x, hx, hpid, hty⟩
    rcases hsub.new id x hx with hold | ⟨-, rfl⟩
    · exact ⟨id, x, hold, hpid, hty⟩
    · exact absurd hty.symm htty
  · rintro ⟨id, x, hx, hpid, hty⟩
    exact ⟨id, x, hsub.old id x hx, hpid, hty⟩

/-- After a submission no record of the pid is running when none was before and it made
none. -/
theorem Indexed.idle_submitTask (h : r.Indexed) :
    (r.submitTask tty pid desc fate).2.Idle pid ↔ r.Idle pid ∧ ¬r.Registers tty pid fate := by
  rcases h.submitTask_cases tty pid desc fate with ⟨hreg, heq⟩ | ⟨hnot, e, heq⟩
  · have htasks : (r.submit pid tty desc fate).2.tasks r.next =
        some ⟨r.next, pid, tty, [], .running, desc⟩ := by
      rw [submit_snd pid tty desc hreg.1]
      simp [allocate, registerTask]
    rw [heq]
    exact iff_of_false (fun hidle => hidle _ _ htasks rfl rfl) fun hidle => hidle.2 hreg
  · rw [heq, and_iff_left hnot]

/-- A kill leaves no record of the pid running. -/
theorem Indexed.idle_killTasksByPid (h : r.Indexed) (pid : Pid) :
    (r.killTasksByPid pid).2.Idle pid := by
  have hids (id : TaskId) (t : TaskInfo) (ht : r.tasks id = some t) (hpid : t.pid = pid) :
      id ∈ (r.pidIndex pid).getD [] :=
    (h.mem_ids pid id).mpr ⟨t, ht, hpid⟩
  unfold TaskRegistry.killTasksByPid
  cases hidx : r.pidIndex pid with
  | none =>
    intro id t ht hpid
    have hmem := hids id t ht hpid
    rw [hidx] at hmem
    cases hmem
  | some tids =>
    intro id t ht hpid
    simp only at ht
    split at ht
    · obtain ⟨t₀, -, rfl⟩ := Option.map_eq_some_iff.mp ht
      simp
    · rename_i hnot
      have hmem := hids id t ht hpid
      rw [hidx] at hmem
      exact absurd hmem hnot

end TaskRegistry

/-- What is sent does not show in the registry of tasks. -/
theorem treg_send (s : Runtime) (tty : TaskType) (pid : Pid) :
    ∀ result : Except AsyncError TaskId × TaskRegistry, (s.send tty pid result).treg = result.2
  | (.ok _, _) => rfl
  | (.error _, _) => rfl

theorem treg_killTasksByPid (s : Runtime) (pid : Pid) : (s.killTasksByPid pid).treg =
    if s.poisoned then s.treg else (s.treg.killTasksByPid pid).2 := by
  unfold Cancellation.Runtime.killTasksByPid
  split <;> simp_all

namespace ProcessManager

/-! ## Sub-steps -/

def setAlive (s : ProcessManager) (pid : Pid) (alive : Bool) : ProcessManager :=
  { s with alive := Function.update s.alive pid alive }

/-- `SIGKILL`, which succeeds. -/
def sigkill (s : ProcessManager) (pid : Pid) : ProcessManager :=
  s.setAlive pid false

/-- Submit a task of a type for the process. -/
def submit (s : ProcessManager) (tty : TaskType) (pid : Pid) (desc : String)
    (fate : Submission) : Except AsyncError TaskId × ProcessManager :=
  let result := s.runtime.treg.submitTask tty pid desc fate
  (result.1, { s with
    runtime := s.runtime.send tty pid result
    indexed := by
      rw [treg_send]
      exact (s.indexed.submittedTask tty pid desc fate).indexed })

/-- `kill_tasks_by_pid`, with the lock in the state it finds it in. -/
def killTasksByPid (s : ProcessManager) (pid : Pid) (poisoned : Bool) :
    Except AsyncError Unit × ProcessManager :=
  (if poisoned then .error (.mutexError "poisoned lock: another task failed inside") else .ok (),
    { s with
      runtime := { s.runtime with poisoned }.killTasksByPid pid
      indexed := by
        rw [treg_killTasksByPid]
        cases poisoned
        · exact s.indexed.killTasksByPid pid
        · exact s.indexed })

/-- An entry in the log, whose lock is in order. -/
def log (s : ProcessManager) (entry : LogEntry) : ProcessManager :=
  { s with logger := s.logger.push entry }

/-- What becomes of the submission is not looked at. -/
def sendToRuntime (s : ProcessManager) (logger : ProcessLogger) (fate : Submission) :
    Except LoggingError Unit × ProcessManager :=
  if logger.sources && logger.files then
    let (_, s) := s.submit .logging logger.pid "Registering Log task" fate
    (.ok (), s)
  else (.error (.assertionError "There is no valid I/O source"), s)

/-- A start whose submission was refused. -/
def abandon (s : ProcessManager) (pid : Pid) (poisoned : Bool) (e : AsyncError) :
    CommandResult × ProcessManager :=
  let (_, s) := (s.sigkill pid).killTasksByPid pid poisoned
  (.error ("Could not register lifetime task with runtime: " ++ e.display), s)

/-! ## Start and stop -/

/-- A start whose monitoring task is submitted. -/
def enter (s : ProcessManager) (config : ProcessConfig) (pid : Pid) (o : StartOutcomes) :
    CommandResult × ProcessManager :=
  match s.submit .metrics pid ("Registering metrics task, pid: " ++ toString pid)
      o.collating with
  | (.error e, s) => s.abandon pid (o.cannotKill o.collating) e
  | (.ok _, s) => (.processStarted config.name pid,
      { s with registry := s.registry.insert config.name ⟨config, pid⟩ })

/-- A start that has its child. -/
def register (s : ProcessManager) (config : ProcessConfig) (pid : Pid) (o : StartOutcomes) :
    CommandResult × ProcessManager :=
  match o.metrics with
  | some e => (.error ("Could not create metrics for this task: " ++ e), s.sigkill pid)
  | none =>
    match o.logger with
    | some e => (.error ("Could not start logger for this task: " ++ e), s.sigkill pid)
    | none =>
      let logger := (ProcessLogger.new pid).setHandles
      match s.sendToRuntime logger o.logging with
      | (.error e, s) =>
        (.error ("Could not register streaming task with runtime: " ++ e.display), s.sigkill pid)
      | (.ok _, s) =>
        match s.submit .process pid ("Registering lifecycle task, pid: " ++ toString pid)
            o.monitoring with
        | (.error e, s) => s.abandon pid (o.cannotKill o.monitoring) e
        | (.ok _, s) => s.enter config pid o

/-- Nothing is returned when the daemon is gone. -/
def start (s : ProcessManager) (config : ProcessConfig) (o : StartOutcomes) :
    Option (CommandResult × ProcessManager) :=
  if (s.registry config.name).isSome then
    some (.error ("A process tagged with name: " ++ config.name ++ " exists"), s)
  else
    let spawned := createChildExecContextFromConfig o.os config o.pid o.machine
    let s := if spawned.child.isSome then s.setAlive o.pid (!o.exits) else s
    match spawned.parent with
    | .returned (.ok pid) => some (s.register config pid o)
    | .returned (.error e) => some (.error ("Spawning the child process failed: " ++ e.display), s)
    | _ => none

/-- `poisoned` is the lock of the runtime as the call finds it, `failure` how `SIGKILL` fails, and
`now` the time of each entry in the log. -/
def stop (s : ProcessManager) (process : String) (poisoned : Bool) (failure : Option OsError)
    (now : ℕ → Timestamp) : CommandResult × ProcessManager :=
  match s.registry process with
  | none =>
    (.error ("The specified process: " ++ process ++ " is not managed by YAPM"), s)
  | some v =>
    let s := { s with registry := s.registry.remove process }
    let s := s.log ⟨.yapmLog, now 0, "The process: " ++ process ++
      " has been terminated by YAPM"⟩
    let pid := v.inner
    match s.killTasksByPid pid poisoned with
    | (.error _, s) => (.error ("YAPM's runtime could not terminate asynchronous tasks. " ++
        "Please restart YAPM"), s)
    | (.ok _, s) =>
      match failure with
      | some _ =>
        (.error ("YAPM could not terminate the process with pid: " ++ toString pid), s)
      | none => (.processStopped process, (s.sigkill pid).log ⟨.yapmLog, now 1, "The process: " ++
        process ++ " has been terminated by YAPM"⟩)

/-! ## The ways of a start -/

section Start

variable (s : ProcessManager) (config : ProcessConfig) (o : StartOutcomes)

/-- The manager once there is a child. -/
def forked : ProcessManager :=
  s.setAlive o.pid (!o.exits)

def logged : ProcessManager :=
  ((s.forked o).submit .logging o.pid "Registering Log task" o.logging).2

def monitored : ProcessManager :=
  ((s.logged o).submit .process o.pid ("Registering lifecycle task, pid: " ++ toString o.pid)
    o.monitoring).2

def collated : ProcessManager :=
  ((s.monitored o).submit .metrics o.pid ("Registering metrics task, pid: " ++ toString o.pid)
    o.collating).2

/-- The child is killed, and so are the tasks of its pid, unless the lock is poisoned. -/
def abandoned (s : ProcessManager) (pid : Pid) (poisoned : Bool) : ProcessManager :=
  ((s.sigkill pid).killTasksByPid pid poisoned).2

/-- The name is free, and there is a child that the parent knows. -/
structure Spawns : Prop where
  free : s.registry config.name = none
  forks : o.os.Forks
  takes : o.os.TakesStreams

/-- The answer of a start, and the manager after it. -/
inductive StartCase : CommandResult × ProcessManager → Prop
  | taken {msg : String} (htaken : (s.registry config.name).isSome) : StartCase (.error msg, s)
  | notForked {msg : String} (hfree : s.registry config.name = none) (hforks : ¬o.os.Forks) :
      StartCase (.error msg, s)
  | lost {msg : String} (hfree : s.registry config.name = none) (hforks : o.os.Forks)
      (hfails : o.os.FailsStream) : StartCase (.error msg, s.forked o)
  | unprepared {msg : String} (hspawns : s.Spawns config o) (hprepares : ¬o.Prepares) :
      StartCase (.error msg, (s.forked o).sigkill o.pid)
  | unmonitored {msg : String} (hspawns : s.Spawns config o) (hprepares : o.Prepares)
      (hmonitoring : ¬s.runtime.treg.Accepts .process o.pid o.monitoring) :
      StartCase (.error msg, (s.monitored o).abandoned o.pid (o.cannotKill o.monitoring))
  | uncollated {msg : String} (hspawns : s.Spawns config o) (hprepares : o.Prepares)
      (hmonitoring : s.runtime.treg.Accepts .process o.pid o.monitoring)
      (hcollating : ¬s.runtime.treg.Accepts .metrics o.pid o.collating) :
      StartCase (.error msg, (s.collated o).abandoned o.pid (o.cannotKill o.collating))
  | started (hspawns : s.Spawns config o) (hprepares : o.Prepares)
      (hmonitoring : s.runtime.treg.Accepts .process o.pid o.monitoring)
      (hcollating : s.runtime.treg.Accepts .metrics o.pid o.collating) :
      StartCase (.processStarted config.name o.pid, { s.collated o with
        registry := s.registry.insert config.name ⟨config, o.pid⟩ })

@[simp] theorem treg_forked : (s.forked o).runtime.treg = s.runtime.treg := rfl

theorem treg_submit {tty : TaskType} {pid : Pid} {desc : String} {fate : Submission} :
    (s.submit tty pid desc fate).2.runtime.treg =
      (s.runtime.treg.submitTask tty pid desc fate).2 :=
  treg_send ..

/-- The log task has no say in whether the others are accepted. -/
theorem accepts_logged {tty : TaskType} (htty : tty ≠ .logging) {pid : Pid} {fate : Submission} :
    (s.logged o).runtime.treg.Accepts tty pid fate ↔ s.runtime.treg.Accepts tty pid fate := by
  unfold TaskRegistry.Accepts TaskRegistry.Refuses
  rw [logged, treg_submit, treg_forked, s.indexed.has_submitTask pid htty]

theorem accepts_monitored {pid : Pid} {fate : Submission} :
    (s.monitored o).runtime.treg.Accepts .metrics pid fate ↔
      s.runtime.treg.Accepts .metrics pid fate := by
  rw [← accepts_logged s o (by decide)]
  unfold TaskRegistry.Accepts TaskRegistry.Refuses
  rw [monitored, treg_submit, (s.logged o).indexed.has_submitTask pid (by decide)]

/-- A submission is accepted, or it gives an error. -/
theorem submit_cases (tty : TaskType) (pid : Pid) (desc : String) (fate : Submission) :
    s.runtime.treg.Accepts tty pid fate ∧
        (∃ id, s.submit tty pid desc fate = (.ok id, (s.submit tty pid desc fate).2)) ∨
      ¬s.runtime.treg.Accepts tty pid fate ∧
        ∃ e, s.submit tty pid desc fate = (.error e, (s.submit tty pid desc fate).2) := by
  have hiff : (∃ id, (s.runtime.treg.submitTask tty pid desc fate).1 = .ok id) ↔
      s.runtime.treg.Accepts tty pid fate := s.indexed.submitTask_ok_iff
  rw [← hiff]
  cases hresult : (s.runtime.treg.submitTask tty pid desc fate).1 with
  | ok id => exact .inl ⟨⟨id, rfl⟩, id, Prod.ext hresult rfl⟩
  | error e => exact .inr ⟨by simp, e, Prod.ext hresult rfl⟩

theorem enter_cases (hspawns : s.Spawns config o) (hprepares : o.Prepares)
    (hmonitoring : s.runtime.treg.Accepts .process o.pid o.monitoring) :
    s.StartCase config o ((s.monitored o).enter config o.pid o) := by
  have hcases := (s.monitored o).submit_cases .metrics o.pid
    ("Registering metrics task, pid: " ++ toString o.pid) o.collating
  rw [accepts_monitored] at hcases
  unfold enter
  rcases hcases with ⟨hcollating, id, hid⟩ | ⟨hcollating, e, he⟩
  · rw [hid]
    exact .started hspawns hprepares hmonitoring hcollating
  · rw [he]
    exact .uncollated hspawns hprepares hmonitoring hcollating

/-- A start with its child takes one of the ways from there. -/
theorem register_cases (hspawns : s.Spawns config o) :
    s.StartCase config o ((s.forked o).register config o.pid o) := by
  unfold register
  cases hmetrics : o.metrics with
  | some e => exact .unprepared hspawns fun h => by simp [h.metrics] at hmetrics
  | none =>
    cases hlogger : o.logger with
    | some e => exact .unprepared hspawns fun h => by simp [h.logger] at hlogger
    | none =>
      have hprepares : o.Prepares := ⟨hmetrics, hlogger⟩
      have hsend : (s.forked o).sendToRuntime (ProcessLogger.new o.pid).setHandles o.logging =
        (.ok (), s.logged o) := rfl
      have hcases := (s.logged o).submit_cases .process o.pid
        ("Registering lifecycle task, pid: " ++ toString o.pid) o.monitoring
      rw [accepts_logged s o (by decide)] at hcases
      simp only [hsend]
      rcases hcases with ⟨hmonitoring, id, hid⟩ | ⟨hmonitoring, e, he⟩
      · rw [hid]
        exact s.enter_cases config o hspawns hprepares hmonitoring
      · rw [he]
        exact .unmonitored hspawns hprepares hmonitoring

/-- A start takes one of its ways, or the daemon is gone : the runtime refuses a stream. -/
theorem start_cases :
    (∃ r, s.start config o = some r ∧ s.StartCase config o r) ∨
      s.start config o = none ∧ o.os.RefusesStream := by
  unfold start
  cases hname : s.registry config.name with
  | some e => exact .inl ⟨_, rfl, .taken (by simp [hname])⟩
  | none =>
    have hcases := spawn_cases o.os config o.pid o.machine
    generalize createChildExecContextFromConfig o.os config o.pid o.machine = spawned at hcases ⊢
    cases hcases with
    | notForked hforks => exact .inl ⟨_, rfl, .notForked hname hforks⟩
    | started hforks htakes =>
      exact .inl ⟨_, rfl, s.register_cases config o ⟨hname, hforks, htakes⟩⟩
    | lost hforks hfails => exact .inl ⟨_, rfl, .lost hname hforks hfails⟩
    | aborted hforks hrefuses => exact .inr ⟨rfl, hrefuses⟩

end Start

end ProcessManager

end Yapm
