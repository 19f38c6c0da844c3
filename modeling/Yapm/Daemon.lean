import Yapm.Restart
import Yapm.Runs
import Yapm.Spawn

/-!
# The daemon

Clients start and stop processes by name, processes exit, a monitoring task waits for each
registered process and asks for a restart when it exits, and one restart handler serves
these requests. All of them act on one registry of processes, by name.

A step is what an actor does between two points at which others can act : the points at
which it awaits, and the operations of the registry, each of which is a step of its own. A
start and a restart take the same steps once they have forked, from `metrics` to `insert`.
The handler is sequential, while any number of starts and stops are under way.

A process is known to the operating system by its pid, which is free for another process
once the process has been reaped, and here also by its place in `State.procs`, which is
never reused. `Proc` has with a process how far its launch and its monitoring task have
come. Entries and requests carry the place of the process they were made for. No step
of the daemon reads it.

The tasks that collect output and metrics act on nothing of this, only their records are
here. Log lines are left out.
-/

namespace Yapm

/-! ## State -/

abbrev ProcId := ℕ

inductive ProcStatus
  | alive
  | zombie
  | reaped
deriving DecidableEq, Repr

/-- Who launches a process : a call of start, or the restart handler. -/
inductive Launcher
  | start (i : ℕ)
  | handler
deriving DecidableEq, Repr

/-- The step a launch takes next, or how it ended. A launch that lost its process after
the fork leaves it `leaked`. -/
inductive Phase
  | metrics
  | logger
  | submitLogging
  | submitProcess
  | submitMetrics
  | insert
  | registered
  | failed
  | leaked
deriving DecidableEq, Repr

def Phase.inProgress : Phase → Bool
  | .registered | .failed | .leaked => false
  | _ => true

/-- The monitoring task has been submitted, and the launch goes on. -/
def Phase.submitted : Phase → Bool
  | .submitMetrics | .insert => true
  | _ => false

/-- The monitoring task of a process : in the channel to its coordinator, spawned, waiting
on the process its pid led to, or over. -/
inductive Watch
  | none
  | queued (id : TaskId)
  | opening (id : TaskId)
  | watching (id : TaskId) (proc : ProcId)
  | ended
deriving DecidableEq, Repr

def Watch.isLive : Watch → Bool
  | .none | .ended => false
  | _ => true

/-- A forked process. -/
structure Proc where
  pid : Pid
  name : String
  config : ProcessConfig
  status : ProcStatus
  launcher : Launcher
  phase : Phase
  watch : Watch

structure Entry where
  task : LinuxCurrentTask
  proc : ProcId

structure RestartRequest where
  name : String
  proc : ProcId
deriving DecidableEq, Repr

inductive Handler
  | idle
  | removing (r : RestartRequest)
  | deciding (r : RestartRequest) (e : Entry)
  | removingAgain (r : RestartRequest)
  | forking (name : String) (config : ProcessConfig)
  | launching (name : String) (c : ProcId)
  /-- Returned, after a restart that failed. -/
  | stopped
  | panicked

/-- The handler still receives requests. -/
def Handler.receives : Handler → Bool
  | .stopped | .panicked => false
  | _ => true

/-- The request the handler is at. -/
def Handler.current : Handler → List RestartRequest
  | .removing r | .deciding r _ | .removingAgain r => [r]
  | _ => []

/-- A call of start before its fork. -/
inductive StartCall
  | checking (config : ProcessConfig)
  | forking (config : ProcessConfig)

/-- A call of stop between its removal and its kill. -/
structure StopCall where
  name : String
  entry : Entry

inductive CommandResult
  | processStarted (name : String) (pid : Pid)
  | processStopped (name : String)
  | error (msg : String)
deriving DecidableEq, Repr

structure State where
  procs : List Proc
  treg : TaskRegistry
  registry : ProcessRegistry Entry
  requests : List RestartRequest
  handler : Handler
  starts : ℕ → Option StartCall
  stops : ℕ → Option StopCall
  replies : List CommandResult

namespace State

def init : State where
  procs := []
  treg := .new
  registry _ := none
  requests := []
  handler := .idle
  starts _ := none
  stops _ := none
  replies := []

/-- The requests not yet served : the one the handler is at, and those in the channel. -/
def received (s : State) : List RestartRequest :=
  s.handler.current ++ s.requests

/-! ## Operations -/

def modifyProc (s : State) (c : ProcId) (f : Proc → Proc) : State :=
  { s with procs := s.procs.modify c f }

def reply (s : State) (r : CommandResult) : State :=
  { s with replies := s.replies ++ [r] }

/-- Some process has the pid. -/
def pidTaken (s : State) (pid : Pid) : Bool :=
  s.procs.any fun p => p.pid = pid && p.status ≠ .reaped

/-- The process with the pid. -/
def findPid (s : State) (pid : Pid) : Option ProcId :=
  s.procs.findIdx? fun p => p.pid = pid && p.status ≠ .reaped

end State

def Proc.sigkill (pid : Pid) (p : Proc) : Proc :=
  if p.pid = pid ∧ p.status = .alive then { p with status := .zombie } else p

def Proc.abort (handles : List JoinHandle) (p : Proc) : Proc :=
  match p.watch with
  | .opening id | .watching id _ => if id ∈ handles then { p with watch := .ended } else p
  | _ => p

namespace State

/-- `SIGKILL` to the process with the pid. -/
def sigkill (s : State) (pid : Pid) : State :=
  { s with procs := s.procs.map (·.sigkill pid) }

/-- `kill_tasks_by_pid`, which does nothing when its lock is poisoned. A task that has not
been spawned yet has no handle to abort. An abort takes effect at once here, where tokio lets a
task finish the poll it is in. -/
def killTasks (s : State) (pid : Pid) (poisoned : Bool) : State :=
  if poisoned then s
  else
    let (handles, treg) := s.treg.killTasksByPid pid
    { s with treg, procs := s.procs.map (·.abort handles) }

/-! ## Starting -/

/-- A client calls start. -/
def startCall (s : State) (i : ℕ) (config : ProcessConfig) : Option State :=
  match s.starts i with
  | none => some { s with starts := Function.update s.starts i (some (.checking config)) }
  | some _ => none

def startCheck (s : State) (i : ℕ) : Option State :=
  match s.starts i with
  | some (.checking config) =>
    if (s.registry config.name).isSome then
      some ({ s with starts := Function.update s.starts i none }.reply
        (.error ("A process tagged with name: " ++ config.name ++ " exists")))
    else some { s with starts := Function.update s.starts i (some (.forking config)) }
  | _ => none

/-- The name and configuration a launcher is about to fork with. -/
def forkConfig (s : State) : Launcher → Option (String × ProcessConfig)
  | .start i =>
    match s.starts i with
    | some (.forking config) => some (config.name, config)
    | _ => none
  | .handler =>
    match s.handler with
    | .forking name config => some (name, config)
    | _ => none

/-- The launcher after its fork gave it a process. -/
def forkDone (s : State) (l : Launcher) (name : String) (c : ProcId) : State :=
  match l with
  | .start i => { s with starts := Function.update s.starts i none }
  | .handler => { s with handler := .launching name c }

/-- The launcher after its fork gave it an error. -/
def forkFailed (s : State) (l : Launcher) (e : LinuxErrorManager) : State :=
  match l with
  | .start i => { s with starts := Function.update s.starts i none }.reply
    (.error ("Spawning the child process failed: " ++ e.display))
  | .handler => { s with handler := .stopped }

def addProc (s : State) (p : Proc) : State :=
  { s with procs := s.procs ++ [p] }

/-- Fork. The kernel gives out a pid that no process has. The function can return an error
after the fork, and then nobody knows the process. When it panics the daemon is gone. -/
def fork (s : State) (l : Launcher) (os : Os) (pid : Pid) (m : Machine) : Option State :=
  match s.forkConfig l with
  | none => none
  | some (name, config) =>
    if s.pidTaken pid then none
    else
      let spawned := createChildExecContextFromConfig os config pid m
      match spawned.parent, spawned.child with
      | .returned (.ok _), some _ => some ((s.forkDone l name s.procs.length).addProc
        ⟨pid, name, config, .alive, l, .metrics, .none⟩)
      | .returned (.error e), none => some (s.forkFailed l e)
      | .returned (.error e), some _ => some ((s.forkFailed l e).addProc
        ⟨pid, name, config, .alive, l, .leaked, .none⟩)
      | _, _ => none

/-- A launch ends with an error. -/
def failLaunch (s : State) (c : ProcId) (l : Launcher) (msg : String) : State :=
  let s := s.modifyProc c ({ · with phase := .failed })
  match l with
  | .start _ => s.reply (.error msg)
  | .handler => { s with handler := .stopped }

/-- A launch takes a step that needs nothing of other actors, from `phase` to `next`. `err`
is why it failed. -/
def prepare (s : State) (c : ProcId) (phase next : Phase) (failure : String)
    (err : Option String) : Option State :=
  match s.procs[c]? with
  | none => none
  | some p =>
    if p.phase = phase then
      match err with
      | none => some (s.modifyProc c ({ · with phase := next }))
      | some e => some ((s.sigkill p.pid).failLaunch c p.launcher (failure ++ e))
    else none

/-- The metrics of the process, `err` when they cannot be read. -/
def metrics (s : State) (c : ProcId) (err : Option String) : Option State :=
  s.prepare c .metrics .logger "Could not create metrics for this task: " err

/-- The logger of the process, `err` when it cannot be made. -/
def logger (s : State) (c : ProcId) (err : Option String) : Option State :=
  s.prepare c .logger .submitLogging "Could not start logger for this task: " err

/-- What becomes of the submission is not looked at. -/
def submitLogging (s : State) (c : ProcId) (fate : Submission) : Option State :=
  match s.procs[c]? with
  | none => none
  | some p =>
    if p.phase = .submitLogging then
      let (_, treg) := s.treg.submitLoggingTask p.pid "Registering Log task" fate
      some ({ s with treg }.modifyProc c ({ · with phase := .submitProcess }))
    else none

/-- A launch whose submission failed. -/
def failSubmission (s : State) (c : ProcId) (p : Proc) (fate : Submission) (e : AsyncError) :
    State :=
  ((s.sigkill p.pid).killTasks p.pid fate.isPoisoned).failLaunch c p.launcher
    ("Could not register lifetime task with runtime: " ++ e.display)

def submitProcess (s : State) (c : ProcId) (fate : Submission) : Option State :=
  match s.procs[c]? with
  | none => none
  | some p =>
    if p.phase = .submitProcess then
      match s.treg.submitProcessMonitoringTask p.pid
          ("Registering lifecycle task, pid: " ++ toString p.pid) fate with
      | (.ok id, treg) => some ({ s with treg }.modifyProc c
        ({ · with phase := .submitMetrics, watch := .queued id }))
      | (.error e, treg) => some ({ s with treg }.failSubmission c p fate e)
    else none

def submitMetrics (s : State) (c : ProcId) (fate : Submission) : Option State :=
  match s.procs[c]? with
  | none => none
  | some p =>
    if p.phase = .submitMetrics then
      match s.treg.submitMetricsTask p.pid
          ("Registering metrics task, pid: " ++ toString p.pid) fate with
      | (.ok _, treg) => some ({ s with treg }.modifyProc c ({ · with phase := .insert }))
      | (.error e, treg) => some ({ s with treg }.failSubmission c p fate e)
    else none

def insert (s : State) (c : ProcId) : Option State :=
  match s.procs[c]? with
  | none => none
  | some p =>
    if p.phase = .insert then
      let entry : Entry := ⟨⟨p.config, p.pid⟩, c⟩
      let s := { s with registry := s.registry.insert p.name entry }.modifyProc c
        ({ · with phase := .registered })
      match p.launcher with
      | .start _ => some (s.reply (.processStarted p.name p.pid))
      | .handler => some { s with handler := .idle }
    else none

/-! ## Stopping -/

def stopRemove (s : State) (i : ℕ) (name : String) : Option State :=
  match s.stops i with
  | some _ => none
  | none =>
    match s.registry name with
    | none => some (s.reply
      (.error ("The specified process: " ++ name ++ " is not managed by YAPM")))
    | some entry => some { s with
      registry := s.registry.remove name
      stops := Function.update s.stops i (some ⟨name, entry⟩) }

def stopKill (s : State) (i : ℕ) (poisoned : Bool) : Option State :=
  match s.stops i with
  | none => none
  | some ⟨name, entry⟩ =>
    let pid := entry.task.inner
    let s := { s with stops := Function.update s.stops i none }
    if poisoned then
      some (s.reply (.error ("YAPM's runtime could not terminate asynchronous tasks. " ++
        "Please restart YAPM")))
    else
      let s := s.killTasks pid poisoned
      some ((s.sigkill pid).reply <|
        if s.pidTaken pid then .processStopped name
        else .error ("YAPM could not terminate the process with pid: " ++ toString pid))

/-- A stop that no other actor comes into : it awaits nothing between removal and kill. -/
def stop (s : State) (i : ℕ) (name : String) (poisoned : Bool) : Option State :=
  match s.stopRemove i name with
  | none => none
  | some s' => if (s'.stops i).isSome then s'.stopKill i poisoned else some s'

/-! ## Exits -/

def exit (s : State) (c : ProcId) : Option State :=
  match s.procs[c]? with
  | none => none
  | some p =>
    if p.status = .alive then some (s.modifyProc c ({ · with status := .zombie })) else none

/-- The coordinator of monitoring tasks takes the first message of its channel, which is
the one with the smallest id, and spawns its task. -/
def coordinate (s : State) (c : ProcId) : Option State :=
  match s.procs[c]? with
  | none => none
  | some p =>
    match p.watch with
    | .queued id =>
      if s.procs.all fun q => match q.watch with
          | .queued id' => id ≤ id'
          | _ => true then
        let treg := match s.treg.addHandle id id with
          | .ok treg => treg
          | .error _ => s.treg
        some ({ s with treg }.modifyProc c ({ · with watch := .opening id }))
      else none
    | _ => none

/-- A monitoring task ends with an error. -/
def failWatch (s : State) (c : ProcId) (id : TaskId) (e : String) : State :=
  let treg := match s.treg.updateStatus id
      (.failed ("Managing the process lifetime has failed; The error: " ++ e)) with
    | .ok treg => treg
    | .error _ => s.treg
  { s with treg }.modifyProc c ({ · with watch := .ended })

/-- `pidfd_open` : the task waits on the process its pid leads to, or fails. -/
def monitorOpen (s : State) (c : ProcId) (err : Option String) : Option State :=
  match s.procs[c]? with
  | none => none
  | some p =>
    match p.watch with
    | .opening id =>
      match err, s.findPid p.pid with
      | none, some d => some (s.modifyProc c ({ · with watch := .watching id d }))
      | none, none => some (s.failWatch c id
        (LinuxErrorManager.ioError "No such process (os error 3)").display)
      | some e, _ => some (s.failWatch c id e)
    | _ => none

/-- Waiting fails. -/
def monitorFail (s : State) (c : ProcId) (e : String) : Option State :=
  match s.procs[c]? with
  | none => none
  | some p =>
    match p.watch with
    | .watching id _ => some (s.failWatch c id e)
    | _ => none

/-- The task reaps the process it waits on and asks for no restart. It fails when a real-time signal
killed the process : `waitid` has reaped it by the time nix finds no name for the signal. It panics
when it finds the lock of the log poisoned. What a process died of is not in the model. -/
def monitorLose (s : State) (c : ProcId) (poisoned : Bool) : Option State :=
  match s.procs[c]? with
  | none => none
  | some p =>
    match p.watch with
    | .watching id d =>
      match s.procs[d]? with
      | none => none
      | some q =>
        if q.status = .zombie then
          let s := if poisoned then s.modifyProc c ({ · with watch := .ended })
            else s.failWatch c id (LinuxErrorManager.ofErrno einval).display
          some (s.modifyProc d ({ · with status := .reaped }))
        else none
    | _ => none

/-- The task reaps the process it waits on and asks for a restart. When the handler is
gone the request goes nowhere. -/
def monitorExit (s : State) (c : ProcId) : Option State :=
  match s.procs[c]? with
  | none => none
  | some p =>
    match p.watch with
    | .watching _ d =>
      match s.procs[d]? with
      | none => none
      | some q =>
        if q.status = .zombie then
          let s := (s.modifyProc c ({ · with watch := .ended })).modifyProc d
            ({ · with status := .reaped })
          if s.handler.receives then some { s with requests := s.requests ++ [⟨p.name, c⟩] }
          else some s
        else none
    | _ => none

/-! ## The restart handler -/

def recv (s : State) : Option State :=
  match s.handler, s.requests with
  | .idle, r :: requests => some { s with handler := .removing r, requests }
  | _, _ => none

/-- `registry.tasks.remove(&name).unwrap()`. -/
def remove (s : State) : Option State :=
  match s.handler with
  | .removing r =>
    match s.registry r.name with
    | none => some { s with handler := .panicked }
    | some e => some { s with registry := s.registry.remove r.name, handler := .deciding r e }
  | _ => none

def decide (s : State) (poisoned : Bool) : Option State :=
  match s.handler with
  | .deciding r e =>
    let s := s.killTasks e.task.inner poisoned
    match e.task.respawn with
    | (false, _) => some { s with handler := .removingAgain r }
    | (true, details) => some { s with handler := .forking r.name details.config }
  | _ => none

def removeAgain (s : State) : Option State :=
  match s.handler with
  | .removingAgain r =>
    some { s with registry := s.registry.remove r.name, handler := .idle }
  | _ => none

end State

/-! ## Steps -/

inductive Action
  | startCall (i : ℕ) (config : ProcessConfig)
  | startCheck (i : ℕ)
  | fork (l : Launcher) (os : Os) (pid : Pid) (m : Machine)
  | metrics (c : ProcId) (err : Option String)
  | logger (c : ProcId) (err : Option String)
  | submitLogging (c : ProcId) (fate : Submission)
  | submitProcess (c : ProcId) (fate : Submission)
  | submitMetrics (c : ProcId) (fate : Submission)
  | insert (c : ProcId)
  | stopRemove (i : ℕ) (name : String)
  | stopKill (i : ℕ) (poisoned : Bool)
  | stop (i : ℕ) (name : String) (poisoned : Bool)
  | exit (c : ProcId)
  | coordinate (c : ProcId)
  | monitorOpen (c : ProcId) (err : Option String)
  | monitorFail (c : ProcId) (e : String)
  | monitorLose (c : ProcId) (poisoned : Bool)
  | monitorExit (c : ProcId)
  | recv
  | remove
  | decide (poisoned : Bool)
  | removeAgain

def step : Action → State → Option State
  | .startCall i config, s => s.startCall i config
  | .startCheck i, s => s.startCheck i
  | .fork l os pid m, s => s.fork l os pid m
  | .metrics c err, s => s.metrics c err
  | .logger c err, s => s.logger c err
  | .submitLogging c fate, s => s.submitLogging c fate
  | .submitProcess c fate, s => s.submitProcess c fate
  | .submitMetrics c fate, s => s.submitMetrics c fate
  | .insert c, s => s.insert c
  | .stopRemove i name, s => s.stopRemove i name
  | .stopKill i poisoned, s => s.stopKill i poisoned
  | .stop i name poisoned, s => s.stop i name poisoned
  | .exit c, s => s.exit c
  | .coordinate c, s => s.coordinate c
  | .monitorOpen c err, s => s.monitorOpen c err
  | .monitorFail c e, s => s.monitorFail c e
  | .monitorLose c poisoned, s => s.monitorLose c poisoned
  | .monitorExit c, s => s.monitorExit c
  | .recv, s => s.recv
  | .remove, s => s.remove
  | .decide poisoned, s => s.decide poisoned
  | .removeAgain, s => s.removeAgain

/-- The states runs of the daemon reach by steps that meet a condition. -/
abbrev Reachable (C : State → Action → Prop) (s : State) : Prop :=
  Runs.Reach step .init C s

/-- A launch in which nothing fails, up to the submission of the monitoring task. -/
def launchSteps (l : Launcher) (c : ProcId) (pid : Pid) : List Action :=
  [.fork l plainOs pid plainMachine, .metrics c none, .logger c none, .submitLogging c .accepted,
    .submitProcess c .accepted]

/-- The rest of the launch. -/
def registerSteps (c : ProcId) : List Action :=
  [.submitMetrics c .accepted, .insert c]

/-- A start in which nothing fails. -/
def startSteps (i : ℕ) (config : ProcessConfig) (c : ProcId) (pid : Pid) : List Action :=
  [.startCall i config, .startCheck i] ++ launchSteps (.start i) c pid ++ registerSteps c

/-- A process exits and the daemon learns of it. -/
def exitSteps (c : ProcId) : List Action :=
  [.coordinate c, .monitorOpen c none, .exit c, .monitorExit c]

end Yapm
