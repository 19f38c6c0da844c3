import Mathlib.Data.Nat.Notation
import Mathlib.Logic.Function.Basic

/-!
# The task registry of the runtime

A record for every asynchronous task the daemon has submitted, by task id, and the ids
of each process by pid. The registry sits behind a mutex, and a submission sends the
task to its coordinator over a channel, so a submission can fail at the lock or at the
channel (`Submission`). Channel and lock are touched in the source's order : a record
is registered before the message is sent.
-/

namespace Yapm

abbrev Pid := ℕ
abbrev TaskId := ℕ

/-- The runtime's number of a spawned task. -/
abbrev JoinHandle := ℕ

inductive AsyncError
  | unknownAsyncError
  | unitializedRuntimeError
  | asyncIOError (msg : String)
  | timeError (msg : String)
  | taskNotFound
  | inconsistentRuntimeState
  | taskSendError (msg : String)
  | mutexError (msg : String)
deriving DecidableEq, Repr

def AsyncError.display : AsyncError → String
  | .unknownAsyncError => "Unknown Error"
  | .unitializedRuntimeError => "Uninitialized Runtime"
  | .asyncIOError msg => "I/O error: " ++ msg
  | .timeError msg => "Time init error: " ++ msg
  | .taskNotFound => "The task was not found in the async registry"
  | .inconsistentRuntimeState => "Inconsistent runtime state"
  | .taskSendError msg => "Sending the task to the runtime failed: " ++ msg
  | .mutexError msg => "Error acquiring the mutex lock: " ++ msg

inductive TaskStatus
  | running
  | completed
  | failed (msg : String)
deriving DecidableEq, Repr

inductive TaskType
  | logging
  | metrics
  | process
deriving DecidableEq, Repr

/-- What lock and channel make of a submission. -/
inductive Submission
  | accepted
  | lockPoisoned (msg : String)
  | channelClosed (msg : String)
deriving DecidableEq, Repr

def Submission.isPoisoned : Submission → Bool
  | .lockPoisoned _ => true
  | _ => false

structure TaskInfo where
  id : TaskId
  pid : Pid
  ty : TaskType
  handles : List JoinHandle
  status : TaskStatus
  desc : String
deriving DecidableEq, Repr

structure TaskRegistry where
  tasks : TaskId → Option TaskInfo
  pidIndex : Pid → Option (List TaskId)
  next : TaskId

namespace TaskRegistry

def new : TaskRegistry where
  tasks _ := none
  pidIndex _ := none
  next := 1

def allocate (r : TaskRegistry) : TaskId × TaskRegistry :=
  (r.next, { r with next := r.next + 1 })

def registerTask (r : TaskRegistry) (id : TaskId) (pid : Pid) (tty : TaskType)
    (desc : String) : TaskRegistry :=
  { r with
    tasks := Function.update r.tasks id (some ⟨id, pid, tty, [], .running, desc⟩)
    pidIndex := Function.update r.pidIndex pid (some ((r.pidIndex pid).getD [] ++ [id])) }

def addHandle (r : TaskRegistry) (id : TaskId) (handle : JoinHandle) :
    Except AsyncError TaskRegistry :=
  match r.tasks id with
  | some task =>
    .ok { r with
      tasks := Function.update r.tasks id (some { task with handles := task.handles ++ [handle] }) }
  | none => .error .taskNotFound

def updateStatus (r : TaskRegistry) (id : TaskId) (status : TaskStatus) :
    Except AsyncError TaskRegistry :=
  match r.tasks id with
  | some task => .ok { r with tasks := Function.update r.tasks id (some { task with status }) }
  | none => .error .taskNotFound

def getTasksByPid (r : TaskRegistry) (pid : Pid) : List TaskInfo :=
  match r.pidIndex pid with
  | some ids => ids.filterMap r.tasks
  | none => []

/-- Removal also drops the whole index entry of the task's pid. -/
def removeTask (r : TaskRegistry) (id : TaskId) : Except AsyncError TaskInfo × TaskRegistry :=
  match r.tasks id with
  | some task =>
    let r' := { r with tasks := Function.update r.tasks id none }
    match r.pidIndex task.pid with
    | none => (.error .inconsistentRuntimeState, r')
    | some _ => (.ok task, { r' with pidIndex := Function.update r.pidIndex task.pid none })
  | none => (.error .taskNotFound, r)

/-! ## Submissions -/

/-- Register a record and send the task to its coordinator. -/
def submit (r : TaskRegistry) (pid : Pid) (tty : TaskType) (desc : String) :
    Submission → Except AsyncError TaskId × TaskRegistry
  | .lockPoisoned msg => (.error (.mutexError msg), r)
  | .channelClosed msg =>
    let (id, r') := r.allocate
    (.error (.taskSendError msg), r'.registerTask id pid tty desc)
  | .accepted =>
    let (id, r') := r.allocate
    (.ok id, r'.registerTask id pid tty desc)

/-- A submission that is refused when the pid has a record of the same type, whatever
that record's status. -/
def submitUnique (r : TaskRegistry) (pid : Pid) (tty : TaskType) (desc : String)
    (fate : Submission) : Except AsyncError TaskId × TaskRegistry :=
  match fate with
  | .lockPoisoned msg => (.error (.mutexError msg), r)
  | fate =>
    if (r.getTasksByPid pid).any (·.ty = tty) then (.error .inconsistentRuntimeState, r)
    else r.submit pid tty desc fate

def submitLoggingTask (r : TaskRegistry) (pid : Pid) (desc : String) (fate : Submission) :
    Except AsyncError TaskId × TaskRegistry :=
  r.submit pid .logging desc fate

def submitMetricsTask (r : TaskRegistry) (pid : Pid) (desc : String) (fate : Submission) :
    Except AsyncError TaskId × TaskRegistry :=
  r.submitUnique pid .metrics desc fate

def submitProcessMonitoringTask (r : TaskRegistry) (pid : Pid) (desc : String)
    (fate : Submission) : Except AsyncError TaskId × TaskRegistry :=
  r.submitUnique pid .process desc fate

/-- Mark every record of the pid and give the handles to abort. The handles stay in
the records. -/
def killTasksByPid (r : TaskRegistry) (pid : Pid) : List JoinHandle × TaskRegistry :=
  match r.pidIndex pid with
  | none => ([], r)
  | some tids =>
    (tids.flatMap fun id => ((r.tasks id).map (·.handles)).getD [],
      { r with
        tasks := fun id =>
          if id ∈ tids then (r.tasks id).map ({ · with status := .completed }) else r.tasks id })

/-! ## Records by pid -/

/-- The ids of a pid have been given out, and are of records of that pid. -/
def Ok (r : TaskRegistry) : Prop :=
  ∀ pid ids, r.pidIndex pid = some ids → ∀ id ∈ ids,
    id < r.next ∧ ∀ t, r.tasks id = some t → t.pid = pid

variable {r : TaskRegistry}

theorem ok_new : new.Ok := by
  intro pid ids h
  cases h

/-- A new record is found by its own pid only. -/
theorem Ok.registerTask_allocate (h : r.Ok) (pid : Pid) (tty : TaskType) (desc : String) :
    (r.allocate.2.registerTask r.allocate.1 pid tty desc).Ok := by
  intro pid' ids hids id hid
  have hold : ∀ ids, r.pidIndex pid' = some ids → id ∈ ids →
      id < r.next + 1 ∧ ∀ t, Function.update r.tasks r.next
        (some ⟨r.next, pid, tty, [], .running, desc⟩) id = some t → t.pid = pid' := by
    intro ids hids hid
    obtain ⟨hlt, hpid⟩ := h pid' ids hids id hid
    refine ⟨Nat.lt_succ_of_lt hlt, fun t ht => ?_⟩
    rw [Function.update_of_ne (Nat.ne_of_lt hlt)] at ht
    exact hpid t ht
  simp only [registerTask, allocate] at hids ⊢
  by_cases hpid : pid' = pid
  · subst hpid
    rw [Function.update_self, Option.some_inj] at hids
    subst hids
    rcases List.mem_append.mp hid with hid | hid
    · cases hidx : r.pidIndex pid' with
      | none => simp [hidx] at hid
      | some ids => exact hold ids hidx (by simpa [hidx] using hid)
    · rw [List.mem_singleton] at hid
      subst hid
      refine ⟨Nat.lt_succ_self _, fun t ht => ?_⟩
      rw [Function.update_self] at ht
      cases ht
      rfl
  · rw [Function.update_of_ne hpid] at hids
    exact hold ids hids hid

/-- A submission that gets past the lock makes a record, whatever becomes of the send. -/
theorem submit_snd (pid : Pid) (tty : TaskType) (desc : String) {fate : Submission}
    (hfate : fate.isPoisoned = false) : (r.submit pid tty desc fate).2 =
      r.allocate.2.registerTask r.allocate.1 pid tty desc := by
  cases fate with
  | lockPoisoned msg => cases hfate
  | accepted => rfl
  | channelClosed msg => rfl

theorem submit_snd_of_poisoned (pid : Pid) (tty : TaskType) (desc : String) {fate : Submission}
    (hfate : fate.isPoisoned = true) : (r.submit pid tty desc fate).2 = r := by
  cases fate with
  | lockPoisoned msg => rfl
  | accepted => cases hfate
  | channelClosed msg => cases hfate

theorem Ok.submit (h : r.Ok) (pid : Pid) (tty : TaskType) (desc : String) (fate : Submission) :
    (r.submit pid tty desc fate).2.Ok := by
  cases hfate : fate.isPoisoned with
  | true =>
    rw [submit_snd_of_poisoned pid tty desc hfate]
    exact h
  | false =>
    rw [submit_snd pid tty desc hfate]
    exact h.registerTask_allocate pid tty desc

theorem Ok.submitUnique (h : r.Ok) (pid : Pid) (tty : TaskType) (desc : String)
    (fate : Submission) : (r.submitUnique pid tty desc fate).2.Ok := by
  unfold TaskRegistry.submitUnique
  split
  · exact h
  · split
    · exact h
    · exact h.submit pid tty desc _

/-- A change to records that keeps their pids. -/
theorem Ok.of_tasks (h : r.Ok) {tasks : TaskId → Option TaskInfo}
    (ht : ∀ id t, tasks id = some t → ∃ t₀, r.tasks id = some t₀ ∧ t₀.pid = t.pid) :
    Ok { r with tasks } := by
  intro pid ids hids id hid
  obtain ⟨hlt, hpid⟩ := h pid ids hids id hid
  refine ⟨hlt, fun t htask => ?_⟩
  obtain ⟨t₀, ht₀, heq⟩ := ht id t htask
  rw [← heq, hpid t₀ ht₀]

/-- A change to one record that keeps its pid. -/
theorem Ok.update (h : r.Ok) {id : TaskId} {t t' : TaskInfo} (ht : r.tasks id = some t)
    (hpid : t'.pid = t.pid) : Ok { r with tasks := Function.update r.tasks id (some t') } := by
  refine h.of_tasks fun id' t₁ ht₁ => ?_
  by_cases hid : id' = id
  · subst hid
    rw [Function.update_self, Option.some_inj] at ht₁
    exact ⟨t, ht, by rw [← ht₁, hpid]⟩
  · rw [Function.update_of_ne hid] at ht₁
    exact ⟨t₁, ht₁, rfl⟩

theorem Ok.addHandle (h : r.Ok) {id : TaskId} {handle : JoinHandle} {r' : TaskRegistry}
    (hr : r.addHandle id handle = .ok r') : r'.Ok := by
  unfold TaskRegistry.addHandle at hr
  split at hr
  · rename_i t ht
    cases hr
    exact h.update ht rfl
  · cases hr

theorem Ok.updateStatus (h : r.Ok) {id : TaskId} {status : TaskStatus} {r' : TaskRegistry}
    (hr : r.updateStatus id status = .ok r') : r'.Ok := by
  unfold TaskRegistry.updateStatus at hr
  split at hr
  · rename_i t ht
    cases hr
    exact h.update ht rfl
  · cases hr

theorem Ok.killTasksByPid (h : r.Ok) (pid : Pid) : (r.killTasksByPid pid).2.Ok := by
  unfold TaskRegistry.killTasksByPid
  split
  · exact h
  · refine h.of_tasks fun id t ht => ?_
    split at ht
    · obtain ⟨t₀, ht₀, rfl⟩ := Option.map_eq_some_iff.mp ht
      exact ⟨t₀, ht₀, rfl⟩
    · exact ⟨t, ht, rfl⟩

/-- The records of a pid are of that pid. -/
theorem Ok.pid_of_mem (h : r.Ok) {pid : Pid} {t : TaskInfo} (ht : t ∈ r.getTasksByPid pid) :
    t.pid = pid := by
  unfold getTasksByPid at ht
  split at ht
  · obtain ⟨id, hid, htask⟩ := List.mem_filterMap.mp ht
    exact (h pid _ ‹_› id hid).2 t htask
  · cases ht

end TaskRegistry

end Yapm
