import Yapm.Locks

/-!
# The locks of the task registry and of the log

Every path of the runtime, of the calls of clients and of the restart handler, as the
sequence of the sections in which it holds one of the two mutexes, or one within the
other. A path takes both in two cases : a submission that is refused as a duplicate
logs this under the lock of the registry (`registryThenLog`), and a task that fails, or
the handler when a submission failed, changes records under the lock of the log
(`logThenRegistry`).

Two tasks on paths of different cases can deadlock, and no others can
(`neverDeadlocks_iff`).
-/

namespace Yapm

inductive Mutex
  | tRegistry
  | logQueue
deriving DecidableEq, Repr

namespace LockPath

abbrev Section := Locks.Section Mutex

def registry : Section := .single .tRegistry

def log : Section := .single .logQueue

def registryThenLog : Section := .nested .tRegistry .logQueue (by decide)

def logThenRegistry : Section := .nested .logQueue .tRegistry (by decide)

/-! ## Operations of the runtime -/

def submitLoggingTask : List Section :=
  [registry]

/-- A submission, which may be of a duplicate. -/
def submitUnique (duplicate : Bool) : List Section :=
  if duplicate then [registryThenLog] else [registry]

def submitMetricsTask (duplicate : Bool) : List Section :=
  submitUnique duplicate

def submitProcessMonitoringTask (duplicate : Bool) : List Section :=
  submitUnique duplicate

def killTasksByPid : List Section :=
  [registry]

def killRuntime : List Section :=
  [registry]

/-- A coordinator, which adds handles after each message. -/
def coordinator (messages : ℕ) : List Section :=
  .replicate messages registry

/-- A task that streams lines, and then may fail. -/
def streamTask (lines : ℕ) (fails : Bool) : List Section :=
  .replicate lines log ++ if fails then [registry, log] else []

/-- A task that collects metrics, until its process is gone or gives no metrics. -/
def metricsTask (fails : Bool) : List Section :=
  if fails then [logThenRegistry] else []

/-- How waiting for a process ends. -/
inductive WaitEnd
  | exited
  | signaled
  | other
  | failed
deriving DecidableEq, Repr

def reviveTask : WaitEnd → List Section
  | .exited | .signaled => [log]
  | .other => []
  | .failed => [logThenRegistry]

/-! ## Launches -/

/-- How a launch ends. A submission that fails may have been of a duplicate. -/
inductive LaunchEnd
  | notSpawned
  | noMetrics
  | noLogger
  | notStreamed
  | notMonitored (duplicate : Bool)
  | notMeasured (duplicate : Bool)
  | registered
deriving DecidableEq, Repr

namespace LaunchEnd

/-- The submissions of a launch. -/
def submissions : LaunchEnd → List Section
  | .notSpawned | .noMetrics | .noLogger => []
  | .notStreamed => submitLoggingTask
  | .notMonitored duplicate => submitLoggingTask ++ submitProcessMonitoringTask duplicate
  | .notMeasured duplicate =>
    submitLoggingTask ++ submitProcessMonitoringTask false ++ submitMetricsTask duplicate
  | .registered => submitLoggingTask ++ submitProcessMonitoringTask false ++ submitMetricsTask false

/-- A submission was refused as a duplicate. -/
def refused : LaunchEnd → Bool
  | .notMonitored duplicate | .notMeasured duplicate => duplicate
  | _ => false

/-- A submission failed. -/
def unsubmitted : LaunchEnd → Bool
  | .notMonitored _ | .notMeasured _ => true
  | _ => false

end LaunchEnd

def start (e : LaunchEnd) : List Section :=
  e.submissions ++ if e.unsubmitted then killTasksByPid else []

/-- A call of stop, for a name that is registered or not, of a process that is killed or
not. -/
def stop (registered killed : Bool) : List Section :=
  if registered then log :: killTasksByPid ++ if killed then [log] else [] else []

/-- What the restart handler does about a request. -/
inductive Restart
  | dropped
  | launched (e : LaunchEnd)
deriving DecidableEq, Repr

namespace Restart

/-- The handler returns. -/
def fails : Restart → Bool
  | .launched e => e ≠ .registered
  | .dropped => false

/-- When a submission failed, the handler cancels tasks under the lock of the log. -/
def sections : Restart → List Section
  | .dropped => killTasksByPid ++ [log]
  | .launched .registered => killTasksByPid ++ LaunchEnd.registered.submissions
  | .launched e =>
    killTasksByPid ++ e.submissions ++ if e.unsubmitted then [logThenRegistry] else [log]

def refused : Restart → Bool
  | .launched e => e.refused
  | .dropped => false

def reports : Restart → Bool
  | .launched e => e.unsubmitted
  | .dropped => false

end Restart

/-- The restart handler, request after request until one fails. -/
def restartHandler : List Restart → List Section
  | [] => []
  | r :: rs => r.sections ++ if r.fails then [] else restartHandler rs

/-! ## Tasks -/

/-- What runs beside the restart handler. -/
inductive Task
  | submitLogging
  | submitMetrics (duplicate : Bool)
  | submitProcess (duplicate : Bool)
  | killTasks
  | killRuntime
  | coordinator (messages : ℕ)
  | stream (lines : ℕ) (fails : Bool)
  | metrics (fails : Bool)
  | revive (e : WaitEnd)
  | start (e : LaunchEnd)
  | stop (registered killed : Bool)
  | getLogs
deriving DecidableEq, Repr

namespace Task

def sections : Task → List Section
  | .submitLogging => submitLoggingTask
  | .submitMetrics duplicate => submitMetricsTask duplicate
  | .submitProcess duplicate => submitProcessMonitoringTask duplicate
  | .killTasks => killTasksByPid
  | .killRuntime => LockPath.killRuntime
  | .coordinator messages => LockPath.coordinator messages
  | .stream lines fails => streamTask lines fails
  | .metrics fails => metricsTask fails
  | .revive e => reviveTask e
  | .start e => LockPath.start e
  | .stop registered killed => LockPath.stop registered killed
  | .getLogs => [log]

/-- A submission of the task is refused as a duplicate. -/
def refused : Task → Bool
  | .submitMetrics duplicate | .submitProcess duplicate => duplicate
  | .start e => e.refused
  | _ => false

/-- The task fails, and says so in the log and in its record. -/
def reports : Task → Bool
  | .metrics fails => fails
  | .revive e => e = .failed
  | _ => false

end Task

/-- The restart handler is `none`. -/
abbrev Thread (ι : Type) := Option ι

variable {ι : Type} (requests : List Restart) (tasks : ι → Task)

def program : Thread ι → List Section
  | none => restartHandler requests
  | some i => (tasks i).sections

/-- The requests the handler gets to. -/
def served : List Restart → List Restart
  | [] => []
  | r :: rs => r :: if r.fails then [] else served rs

def refused : Thread ι → Bool
  | none => (served requests).any Restart.refused
  | some i => (tasks i).refused

def reports : Thread ι → Bool
  | none => (served requests).any Restart.reports
  | some i => (tasks i).reports

/-- In no state that the handler and the tasks reach does one hold one mutex and wait for
the other while another does the opposite. -/
def NeverDeadlocks [DecidableEq ι] : Prop :=
  ∀ s, Locks.Reachable (fun k => Locks.ops (program requests tasks k)) s →
    ∀ j k a b, a ≠ b → ¬s.Deadlock j k a b

/-! ## Who takes both locks -/

theorem refused_iff_of_launchEnd (e : LaunchEnd) :
    registryThenLog ∈ e.submissions ↔ e.refused := by
  rcases e with _ | _ | _ | _ | (_ | _) | (_ | _) | _ <;> decide

theorem logThenRegistry_notMem_submissions (e : LaunchEnd) :
    logThenRegistry ∉ e.submissions := by
  rcases e with _ | _ | _ | _ | (_ | _) | (_ | _) | _ <;> decide

theorem refused_iff_of_restart (r : Restart) : registryThenLog ∈ r.sections ↔ r.refused := by
  rcases r with _ | _ | _ | _ | _ | (_ | _) | (_ | _) | _ <;> decide

theorem reports_iff_of_restart (r : Restart) : logThenRegistry ∈ r.sections ↔ r.reports := by
  rcases r with _ | _ | _ | _ | _ | (_ | _) | (_ | _) | _ <;> decide

/-- A start takes no more than its submissions do. -/
theorem mem_start {sec : Section} (hsec : sec ≠ registry) (e : LaunchEnd) :
    sec ∈ start e ↔ sec ∈ e.submissions := by
  unfold start
  rw [List.mem_append, or_iff_left]
  split
  · simpa [killTasksByPid] using hsec
  · simp

theorem refused_iff_of_task (t : Task) : registryThenLog ∈ t.sections ↔ t.refused := by
  cases t with
  | submitMetrics duplicate => cases duplicate <;> decide
  | submitProcess duplicate => cases duplicate <;> decide
  | coordinator messages =>
    simp [Task.sections, coordinator, Task.refused, registryThenLog, registry]
  | stream lines fails =>
    cases fails <;> simp [Task.sections, streamTask, Task.refused, registryThenLog, registry, log]
  | metrics fails => cases fails <;> decide
  | revive e => cases e <;> decide
  | start e => exact (mem_start (by decide) e).trans (refused_iff_of_launchEnd e)
  | stop registered killed => cases registered <;> cases killed <;> decide
  | _ => decide

theorem reports_iff_of_task (t : Task) : logThenRegistry ∈ t.sections ↔ t.reports := by
  cases t with
  | submitMetrics duplicate => cases duplicate <;> decide
  | submitProcess duplicate => cases duplicate <;> decide
  | coordinator messages =>
    simp [Task.sections, coordinator, Task.reports, logThenRegistry, registry]
  | stream lines fails =>
    cases fails <;> simp [Task.sections, streamTask, Task.reports, logThenRegistry, registry, log]
  | metrics fails => cases fails <;> decide
  | revive e => cases e <;> decide
  | start e =>
    refine (mem_start (by decide) e).trans (iff_of_false ?_ (by simp [Task.reports]))
    exact logThenRegistry_notMem_submissions e
  | stop registered killed => cases registered <;> cases killed <;> decide
  | _ => decide

/-- The handler holds what it holds at a request it gets to. -/
theorem mem_restartHandler (sec : Section) : ∀ rs : List Restart,
    sec ∈ restartHandler rs ↔ ∃ r ∈ served rs, sec ∈ r.sections
  | [] => by simp [restartHandler, served]
  | r :: rs => by
    have ih := mem_restartHandler sec rs
    simp only [restartHandler, served, List.mem_append, List.exists_mem_cons_iff]
    split
    · simp
    · rw [ih]

variable {requests tasks}

theorem refused_iff (k : Thread ι) :
    registryThenLog ∈ program requests tasks k ↔ refused requests tasks k := by
  cases k with
  | none => simp [program, refused, mem_restartHandler, refused_iff_of_restart]
  | some i => exact refused_iff_of_task (tasks i)

theorem reports_iff (k : Thread ι) :
    logThenRegistry ∈ program requests tasks k ↔ reports requests tasks k := by
  cases k with
  | none => simp [program, reports, mem_restartHandler, reports_iff_of_restart]
  | some i => exact reports_iff_of_task (tasks i)

/-! ## Deadlock -/

/-- The handler and the tasks never deadlock over the two mutexes exactly when no two of
them are such that a submission of one is refused as a duplicate and the other fails and
reports it. -/
theorem neverDeadlocks_iff [DecidableEq ι] : NeverDeadlocks requests tasks ↔
    ∀ j k, j ≠ k → ¬(refused requests tasks j ∧ reports requests tasks k) := by
  constructor
  · rintro h j k hne ⟨hrefused, hreports⟩
    obtain ⟨s, hs, hd⟩ := Locks.deadlock_of_nested (program requests tasks) hne
      ((refused_iff j).mpr hrefused) ((reports_iff k).mpr hreports)
    exact h s hs j k _ _ (by decide) hd
  · intro h s hs j k a b hab hd
    obtain ⟨hne, hj, hk⟩ := (Locks.deadlock_iff hab).mp ⟨s, hs, hd⟩
    cases a with
    | tRegistry =>
      cases b with
      | tRegistry => exact hab rfl
      | logQueue => exact h j k hne ⟨(refused_iff j).mp hj, (reports_iff k).mp hk⟩
    | logQueue =>
      cases b with
      | tRegistry => exact h k j hne.symm ⟨(refused_iff k).mp hk, (reports_iff j).mp hj⟩
      | logQueue => exact hab rfl

/-- The submission of a duplicate beside a metrics task whose process is gone. -/
def duplicateAndFailure (second : Bool) : Task :=
  if second then .metrics true else .submitProcess true

/-- The submission takes the registry and the metrics task the log, and each waits for the
other. -/
theorem duplicateAndFailure_deadlocks :
    (∃ s, Locks.Reachable (fun k => Locks.ops (program [] duplicateAndFailure k)) s ∧
      s.Deadlock (some false) (some true) .tRegistry .logQueue) ∧
      ¬NeverDeadlocks [] duplicateAndFailure := by
  have hdeadlock := Locks.deadlock_of_nested (i := some false) (j := some true)
    (program [] duplicateAndFailure) (by decide) ((refused_iff _).mpr rfl)
    ((reports_iff _).mpr rfl)
  refine ⟨hdeadlock, fun h => ?_⟩
  obtain ⟨s, hs, hd⟩ := hdeadlock
  exact h s hs _ _ _ _ (by decide) hd

end LockPath

end Yapm
