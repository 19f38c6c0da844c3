import Yapm.TaskIndex

/-!
# Cancellation of the tasks of a process

A submission registers a record and sends a message, a coordinator for each type of task
receives it, spawns its tasks, and in a further step adds their handles to the record.
`kill_tasks_by_pid` aborts the tasks whose handles are in the records of the pid, so it
misses the tasks of a message that is still in its channel, and those whose handles are not
added yet. When there are no such (`Runtime.killsAll`), no task that was asked for before a
kill runs on after it (`cancelled_of_reachable`).

Without the condition the monitoring task of a process outlives the kill
(`early_kill_misses`).
-/

namespace Yapm

namespace Cancellation

inductive Status
  | running
  | aborted
  | ended
deriving DecidableEq, Repr

/-- A spawned task, by its record. Its handle is its place among the tasks. -/
structure Task where
  id : TaskId
  status : Status
deriving DecidableEq, Repr

def Task.abort (t : Task) : Task :=
  if t.status = .running then { t with status := .aborted } else t

structure Message where
  id : TaskId
  pid : Pid
deriving DecidableEq, Repr

inductive Coordinator
  | receiving
  /-- It has spawned the tasks of a message, and will add their handles. -/
  | adding (id : TaskId) (handles : List JoinHandle)
  /-- It has panicked at a poisoned lock. -/
  | gone
deriving DecidableEq, Repr

/-- A kill that has returned, and the first id that was given out after it. -/
structure Kill where
  pid : Pid
  next : TaskId
deriving DecidableEq, Repr

/-- `poisoned` is the state of the lock of the registry. -/
structure Runtime where
  treg : TaskRegistry
  poisoned : Bool
  channels : TaskType → List Message
  coordinators : TaskType → Coordinator
  tasks : List Task
  kills : List Kill

namespace Runtime

def init : Runtime where
  treg := .new
  poisoned := false
  channels _ := []
  coordinators _ := .receiving
  tasks := []
  kills := []

/-! ## Submissions -/

/-- What lock and channel make of a submission. -/
def fate (s : Runtime) (tty : TaskType) : Submission :=
  if s.poisoned then .lockPoisoned "poisoned lock: another task failed inside"
  else
    match s.coordinators tty with
    | .gone => .channelClosed "channel closed"
    | _ => .accepted

/-- The message of a submission that succeeded. -/
def send (s : Runtime) (tty : TaskType) (pid : Pid) :
    Except AsyncError TaskId × TaskRegistry → Runtime
  | (.ok id, treg) =>
    { s with treg, channels := Function.update s.channels tty (s.channels tty ++ [⟨id, pid⟩]) }
  | (.error _, treg) => { s with treg }

def submitLoggingTask (s : Runtime) (pid : Pid) (desc : String) : Runtime :=
  s.send .logging pid (s.treg.submitLoggingTask pid desc (s.fate .logging))

def submitMetricsTask (s : Runtime) (pid : Pid) (desc : String) : Runtime :=
  s.send .metrics pid (s.treg.submitMetricsTask pid desc (s.fate .metrics))

def submitProcessMonitoringTask (s : Runtime) (pid : Pid) (desc : String) : Runtime :=
  s.send .process pid (s.treg.submitProcessMonitoringTask pid desc (s.fate .process))

/-! ## Coordinators -/

/-- The handles of the tasks of a message, as they are added. The tasks for the two streams
of a process are spawned first and added last, first output and then errors. -/
def spawned (tty : TaskType) (next : JoinHandle) : List JoinHandle :=
  match tty with
  | .logging => [next + 1, next]
  | _ => [next]

/-- A coordinator receives a message and spawns its tasks. -/
def receive (s : Runtime) (tty : TaskType) : Option Runtime :=
  match s.coordinators tty, s.channels tty with
  | .receiving, m :: messages =>
    let handles := spawned tty s.tasks.length
    some { s with
      channels := Function.update s.channels tty messages
      coordinators := Function.update s.coordinators tty (.adding m.id handles)
      tasks := s.tasks ++ .replicate handles.length ⟨m.id, .running⟩ }
  | _, _ => none

/-- A coordinator adds the handles of the tasks it has spawned. -/
def addHandles (s : Runtime) (tty : TaskType) : Option Runtime :=
  match s.coordinators tty with
  | .adding id handles =>
    if s.poisoned then
      some { s with coordinators := Function.update s.coordinators tty .gone }
    else some { s with
      treg := handles.foldl (fun r handle => r.apply (.addHandle id handle)) s.treg
      coordinators := Function.update s.coordinators tty .receiving }
  | _ => none

/-! ## Ends of tasks -/

/-- `kill_tasks_by_pid`, whose aborts take effect at once here, where tokio lets a task finish the
poll it is in. -/
def killTasksByPid (s : Runtime) (pid : Pid) : Runtime :=
  let s := { s with kills := s.kills ++ [⟨pid, s.treg.next⟩] }
  if s.poisoned then s
  else
    let (handles, treg) := s.treg.killTasksByPid pid
    { s with
      treg
      tasks := s.tasks.mapIdx fun handle (t : Task) => if handle ∈ handles then t.abort else t }

/-- A task comes to its end. -/
def finish (s : Runtime) (handle : JoinHandle) : Option Runtime :=
  match s.tasks[handle]? with
  | some ⟨_, .running⟩ =>
    some { s with tasks := s.tasks.modify handle ({ · with status := .ended }) }
  | _ => none

/-- A thread panics while it holds the lock. -/
def poison (s : Runtime) : Runtime :=
  { s with poisoned := true }

end Runtime

inductive Action
  | submitLogging (pid : Pid) (desc : String)
  | submitMetrics (pid : Pid) (desc : String)
  | submitProcess (pid : Pid) (desc : String)
  | receive (tty : TaskType)
  | addHandles (tty : TaskType)
  | killTasks (pid : Pid)
  | finish (handle : JoinHandle)
  | poison

def step : Action → Runtime → Option Runtime
  | .submitLogging pid desc, s => some (s.submitLoggingTask pid desc)
  | .submitMetrics pid desc, s => some (s.submitMetricsTask pid desc)
  | .submitProcess pid desc, s => some (s.submitProcessMonitoringTask pid desc)
  | .receive tty, s => s.receive tty
  | .addHandles tty, s => s.addHandles tty
  | .killTasks pid, s => some (s.killTasksByPid pid)
  | .finish handle, s => s.finish handle
  | .poison, s => some s.poison

abbrev Reachable (C : Runtime → Action → Prop) (s : Runtime) : Prop :=
  Runs.Reach step .init C s

namespace Runtime

/-- The pid a task was asked for. -/
def pidOf (s : Runtime) (id : TaskId) : Option Pid :=
  (s.treg.record id).map (·.pid)

/-- Once the messages sent before a kill have been received, no task that was asked for
before it, for its pid, is running. -/
def Cancelled (s : Runtime) : Prop :=
  ∀ k ∈ s.kills, (∀ tty, ∀ m ∈ s.channels tty, k.next ≤ m.id) →
    ∀ t ∈ s.tasks, t.id < k.next → s.pidOf t.id = some k.pid → t.status ≠ .running

/-- The coordinator has no message of the pid before it, nor tasks that it has yet to add. -/
def settled (s : Runtime) (pid : Pid) (tty : TaskType) : Bool :=
  (s.channels tty).all (·.pid ≠ pid) &&
    match s.coordinators tty with
    | .adding id _ => s.pidOf id ≠ some pid
    | _ => true

/-- A kill finds the lock in order and the coordinators settled. -/
def killsAll (s : Runtime) : Action → Bool
  | .killTasks pid => !s.poisoned && [TaskType.logging, .metrics, .process].all (s.settled pid)
  | _ => true

/-- The handle of the task is in its record, or will be added to it. -/
def Recorded (s : Runtime) (handle : JoinHandle) (t : Task) : Prop :=
  (∃ x, s.treg.record t.id = some x ∧ handle ∈ x.handles) ∨
    ∃ tty handles, s.coordinators tty = .adding t.id handles ∧ handle ∈ handles

/-- No message and no running task is left of before the kill. -/
structure Spent (s : Runtime) (k : Kill) : Prop where
  next : k.next ≤ s.treg.next
  messages : ∀ tty, ∀ m ∈ s.channels tty, m.pid = k.pid → k.next ≤ m.id
  tasks : ∀ t ∈ s.tasks, t.status = .running → s.pidOf t.id = some k.pid → k.next ≤ t.id

structure Inv (s : Runtime) : Prop where
  indexed : s.treg.Indexed
  messages : ∀ tty, ∀ m ∈ s.channels tty, s.pidOf m.id = some m.pid
  adding : ∀ tty id handles, s.coordinators tty = .adding id handles → (s.pidOf id).isSome
  tasks : ∀ t ∈ s.tasks, (s.pidOf t.id).isSome
  recorded : s.poisoned = false → ∀ handle t, s.tasks[handle]? = some t → s.Recorded handle t
  kills : ∀ k ∈ s.kills, s.Spent k

variable {s s' : Runtime} {a : Action} {tty : TaskType} {pid : Pid}

theorem Inv.cancelled (h : s.Inv) : s.Cancelled := by
  intro k hk _ t ht hlt hpid hrunning
  exact Nat.not_le_of_lt hlt ((h.kills k hk).tasks t ht hrunning hpid)

namespace Inv

theorem init : Inv .init where
  indexed := TaskRegistry.indexed_new
  messages tty m hm := by simp [Runtime.init] at hm
  adding tty id handles hadding := by simp [Runtime.init] at hadding
  tasks t ht := by simp [Runtime.init] at ht
  recorded _ handle t ht := by simp [Runtime.init] at ht
  kills k hk := by simp [Runtime.init] at hk

/-- The rule for steps that leave the tasks : records and messages may be added. -/
theorem of_registered (h : s.Inv) {treg : TaskRegistry} (hindexed : treg.Indexed)
    (hnext : s.treg.next ≤ treg.next)
    (hrecord : ∀ id x, s.treg.record id = some x → treg.record id = some x)
    {channels : TaskType → List Message}
    (hchannels : ∀ tty, ∀ m ∈ channels tty, m ∈ s.channels tty ∨
      s.treg.next ≤ m.id ∧ (treg.record m.id).map (·.pid) = some m.pid) :
    Inv { s with treg, channels } := by
  have hpid : ∀ id pid, s.pidOf id = some pid → (treg.record id).map (·.pid) = some pid := by
    intro id pid hid
    obtain ⟨x, hx, rfl⟩ := Option.map_eq_some_iff.mp hid
    rw [hrecord id x hx, Option.map_some]
  have hsame : ∀ id, (s.pidOf id).isSome → (treg.record id).map (·.pid) = s.pidOf id := by
    intro id hid
    obtain ⟨pid, hid⟩ := Option.isSome_iff_exists.mp hid
    rw [hid, hpid id pid hid]
  have hsome : ∀ id, (s.pidOf id).isSome → ((treg.record id).map (·.pid)).isSome := by
    intro id hid
    rwa [hsame id hid]
  refine ⟨hindexed, fun tty m hm => ?_, fun tty id handles hadding => ?_, fun t ht => ?_,
    fun hlock handle t ht => ?_, fun k hk => ?_⟩
  · rcases hchannels tty m hm with hm | ⟨-, hm⟩
    · exact hpid m.id m.pid (h.messages tty m hm)
    · exact hm
  · exact hsome id (h.adding tty id handles hadding)
  · exact hsome t.id (h.tasks t ht)
  · rcases h.recorded hlock handle t ht with ⟨x, hx, hhandle⟩ | hadding
    · exact .inl ⟨x, hrecord t.id x hx, hhandle⟩
    · exact .inr hadding
  · obtain ⟨hknext, hmessages, hktasks⟩ := h.kills k hk
    refine ⟨Nat.le_trans hknext hnext, fun tty m hm hmpid => ?_, fun t ht hrunning htpid => ?_⟩
    · rcases hchannels tty m hm with hm | ⟨hle, -⟩
      · exact hmessages tty m hm hmpid
      · exact Nat.le_trans hknext hle
    · have htpid : (treg.record t.id).map (·.pid) = some k.pid := htpid
      rw [hsame t.id (h.tasks t ht)] at htpid
      exact hktasks t ht hrunning htpid

theorem send (h : s.Inv) {result : Except AsyncError TaskId × TaskRegistry}
    (hresult : s.treg.Submitted pid tty result) : (s.send tty pid result).Inv := by
  obtain ⟨r, treg⟩ := result
  cases r with
  | error e =>
    exact h.of_registered hresult.indexed hresult.next hresult.old fun _ _ hm => .inl hm
  | ok id =>
    refine h.of_registered hresult.indexed hresult.next hresult.old fun tty' m hm => ?_
    obtain ⟨rfl, hrecord⟩ := hresult.ok id rfl
    by_cases htty : tty' = tty
    · subst htty
      rw [Function.update_self, List.mem_append, List.mem_singleton] at hm
      rcases hm with hm | rfl
      · exact .inl hm
      · exact .inr ⟨Nat.le_refl _, by rw [hrecord]; rfl⟩
    · rw [Function.update_of_ne htty] at hm
      exact .inl hm

theorem mem_spawned {handle next : JoinHandle} (hle : next ≤ handle)
    (hlt : handle - next < (spawned tty next).length) : handle ∈ spawned tty next := by
  cases tty <;> simp only [spawned, List.length_cons, List.length_nil] at hlt ⊢ <;> grind

/-- What is in a channel once a message is received was there before. -/
theorem mem_of_mem_received {m m' : Message} {messages : List Message} {tty' : TaskType}
    (hm : s.channels tty = m :: messages)
    (hm' : m' ∈ Function.update s.channels tty messages tty') : m' ∈ s.channels tty' := by
  by_cases htty : tty' = tty
  · subst htty
    rw [Function.update_self] at hm'
    rw [hm]
    exact .tail _ hm'
  · rwa [Function.update_of_ne htty] at hm'

/-- The handles of the tasks that are spawned are those the coordinator goes on to add. -/
theorem recorded_of_received {m : Message} {messages : List Message}
    (h : s.Inv) (hlock : s.poisoned = false) (hidle : s.coordinators tty = .receiving)
    {handle : JoinHandle} {t : Task} (ht : (s.tasks ++
      .replicate (spawned tty s.tasks.length).length ⟨m.id, .running⟩)[handle]? = some t) :
    Recorded { s with
      channels := Function.update s.channels tty messages
      coordinators := Function.update s.coordinators tty
        (.adding m.id (spawned tty s.tasks.length))
      tasks := s.tasks ++ .replicate (spawned tty s.tasks.length).length ⟨m.id, .running⟩ }
      handle t := by
  rw [List.getElem?_append, List.getElem?_replicate] at ht
  split at ht
  · rcases h.recorded hlock handle t ht with hrecord | ⟨tty', handles, hadding, hhandle⟩
    · exact .inl hrecord
    · have hne : tty' ≠ tty := by
        rintro rfl
        simp [hidle] at hadding
      exact .inr ⟨tty', handles, by simp [Function.update_of_ne hne, hadding], hhandle⟩
  · rename_i hle
    obtain ⟨hlt, ht⟩ := Option.ite_none_right_eq_some.mp ht
    obtain rfl := Option.some_inj.mp ht
    exact .inr ⟨tty, _, Function.update_self .., mem_spawned (Nat.not_lt.mp hle) hlt⟩

theorem receive (h : s.Inv) (hs : s.receive tty = some s') : s'.Inv := by
  unfold Runtime.receive at hs
  split at hs
  · rename_i m messages hidle hm
    obtain rfl := Option.some_inj.mp hs
    have hmem : m ∈ s.channels tty := by rw [hm]; exact .head _
    have hpid := h.messages tty m hmem
    have hnew : ∀ t ∈ s.tasks ++ .replicate (spawned tty s.tasks.length).length ⟨m.id, .running⟩,
        t ∈ s.tasks ∨ t = ⟨m.id, .running⟩ := by
      intro t ht
      exact (List.mem_append.mp ht).imp id List.eq_of_mem_replicate
    refine ⟨h.indexed, fun tty' m' hm' => h.messages tty' m' (mem_of_mem_received hm hm'),
      fun tty' id handles hadding => ?_, fun t ht => ?_,
      fun hlock handle t ht => recorded_of_received h hlock hidle ht, fun k hk => ?_⟩
    · by_cases htty : tty' = tty
      · subst htty
        simp only [Function.update_self, Coordinator.adding.injEq] at hadding
        show (s.pidOf id).isSome
        rw [← hadding.1, hpid]
        rfl
      · simp only [Function.update_of_ne htty] at hadding
        exact h.adding tty' id handles hadding
    · rcases hnew t ht with ht | rfl
      · exact h.tasks t ht
      · show (s.pidOf m.id).isSome
        rw [hpid]
        rfl
    · obtain ⟨hknext, hmessages, hktasks⟩ := h.kills k hk
      refine ⟨hknext, fun tty' m' hm' => hmessages tty' m' (mem_of_mem_received hm hm'),
        fun t ht hrunning htpid => ?_⟩
      rcases hnew t ht with ht | rfl
      · exact hktasks t ht hrunning htpid
      · refine hmessages tty m hmem ?_
        have htpid : s.pidOf m.id = some k.pid := htpid
        rwa [hpid, Option.some_inj] at htpid
  · cases hs

/-- A coordinator that adds handles after another one has changed did so before. -/
theorem adding_of_update {coordinators : TaskType → Coordinator} {k : Coordinator}
    {tty' : TaskType} {id : TaskId} {handles : List JoinHandle} (hk : k ≠ .adding id handles)
    (h : Function.update coordinators tty k tty' = .adding id handles) :
    coordinators tty' = .adding id handles := by
  by_cases htty : tty' = tty
  · rw [htty, Function.update_self] at h
    exact absurd h hk
  · rwa [Function.update_of_ne htty] at h

theorem addHandles (h : s.Inv) (hs : s.addHandles tty = some s') : s'.Inv := by
  unfold Runtime.addHandles at hs
  split at hs
  · rename_i id handles hadding
    split at hs
    · rename_i hlock
      obtain rfl := Option.some_inj.mp hs
      refine ⟨h.indexed, h.messages, fun tty' id' handles' hadding' => ?_, h.tasks,
        fun hlock' => ?_, fun k hk => ?_⟩
      · exact h.adding tty' id' handles' (adding_of_update (by simp) hadding')
      · rw [hlock] at hlock'
        cases hlock'
      · obtain ⟨hknext, hmessages, hktasks⟩ := h.kills k hk
        exact ⟨hknext, hmessages, hktasks⟩
    · obtain rfl := Option.some_inj.mp hs
      obtain ⟨x, hx⟩ : ∃ x, s.treg.record id = some x := by
        simpa [pidOf, Option.isSome_iff_exists] using h.adding tty id handles hadding
      obtain ⟨hindexed, hnext, hrecord⟩ := TaskRegistry.Indexed.addHandles handles h.indexed hx
      generalize handles.foldl (fun r handle => r.apply (.addHandle id handle)) s.treg = treg
        at hindexed hnext hrecord ⊢
      have hpid : ∀ id', (treg.record id').map (·.pid) = s.pidOf id' := by
        intro id'
        rw [hrecord id']
        split
        · rename_i hid
          rw [hid, pidOf, hx]
          rfl
        · rfl
      refine ⟨hindexed, fun tty' m hm => (hpid m.id).trans (h.messages tty' m hm),
        fun tty' id' handles' hadding' => ?_,
        fun t ht => (congrArg Option.isSome (hpid t.id)).trans (h.tasks t ht),
        fun hlock' handle t ht => ?_, fun k hk => ?_⟩
      · exact (congrArg Option.isSome (hpid id')).trans
          (h.adding tty' id' handles' (adding_of_update (by simp) hadding'))
      · rcases h.recorded hlock' handle t ht with ⟨y, hy, hhandle⟩ | ⟨tty', handles', ht', hhandle⟩
        · by_cases hid : t.id = id
          · rw [hid, hx, Option.some_inj] at hy
            subst hy
            exact .inl ⟨_, (hrecord t.id).trans (if_pos hid), List.mem_append_left _ hhandle⟩
          · exact .inl ⟨y, ((hrecord t.id).trans (if_neg hid)).trans hy, hhandle⟩
        · by_cases htty : tty' = tty
          · subst htty
            obtain ⟨hid, rfl⟩ := Coordinator.adding.inj (hadding.symm.trans ht')
            exact .inl ⟨_, (hrecord t.id).trans (if_pos hid.symm), List.mem_append_right _ hhandle⟩
          · exact .inr ⟨tty', handles', (Function.update_of_ne htty ..).trans ht', hhandle⟩
      · obtain ⟨hknext, hmessages, hktasks⟩ := h.kills k hk
        exact ⟨by simpa [hnext] using hknext, hmessages, fun t ht hrunning htpid =>
          hktasks t ht hrunning ((hpid t.id).symm.trans htpid)⟩
  · cases hs

/-- The rule for steps that make some tasks end. -/
theorem of_tasks (h : s.Inv) {tasks : List Task}
    (htasks : ∀ (handle : JoinHandle) (t : Task), tasks[handle]? = some t →
      ∃ t₀ : Task, s.tasks[handle]? = some t₀ ∧ t₀.id = t.id ∧
        (t.status = .running → t₀.status = .running)) : Inv { s with tasks } := by
  have hmem : ∀ t ∈ tasks, ∃ t₀ ∈ s.tasks, t₀.id = t.id ∧
      (t.status = .running → t₀.status = .running) := by
    intro t ht
    obtain ⟨handle, ht⟩ := List.mem_iff_getElem?.mp ht
    obtain ⟨t₀, ht₀, hrest⟩ := htasks handle t ht
    exact ⟨t₀, List.mem_of_getElem? ht₀, hrest⟩
  refine ⟨h.indexed, h.messages, h.adding, fun t ht => ?_, fun hlock handle t ht => ?_,
    fun k hk => ?_⟩
  · obtain ⟨t₀, ht₀, hid, -⟩ := hmem t ht
    exact hid ▸ h.tasks t₀ ht₀
  · obtain ⟨t₀, ht₀, hid, -⟩ := htasks handle t ht
    have hrecorded := h.recorded hlock handle t₀ ht₀
    rwa [Recorded, hid] at hrecorded
  · obtain ⟨hknext, hmessages, hktasks⟩ := h.kills k hk
    refine ⟨hknext, hmessages, fun t ht hrunning htpid => ?_⟩
    obtain ⟨t₀, ht₀, hid, hstatus⟩ := hmem t ht
    rw [← hid] at htpid ⊢
    exact hktasks t₀ ht₀ (hstatus hrunning) htpid

/-- The rule for a kill, once it has left nothing of before it. -/
theorem of_spent (h : s.Inv) {k : Kill} (hk : s.Spent k) :
    Inv { s with kills := s.kills ++ [k] } := by
  refine ⟨h.indexed, h.messages, h.adding, h.tasks, h.recorded, fun k' hk' => ?_⟩
  rw [List.mem_append, List.mem_singleton] at hk'
  rcases hk' with hk' | rfl
  · obtain ⟨hknext, hmessages, hktasks⟩ := h.kills k' hk'
    exact ⟨hknext, hmessages, hktasks⟩
  · exact ⟨hk.next, hk.messages, hk.tasks⟩

theorem settled_of_killsAll (hall : s.killsAll (.killTasks pid)) (tty : TaskType) :
    s.settled pid tty := by
  simp only [killsAll, Bool.and_eq_true, List.all_cons, List.all_nil, and_true] at hall
  cases tty with
  | logging => exact hall.2.1
  | metrics => exact hall.2.2.1
  | process => exact hall.2.2.2

theorem killTasksByPid (h : s.Inv) (hall : s.killsAll (.killTasks pid)) :
    (s.killTasksByPid pid).Inv := by
  have hsettled := settled_of_killsAll hall
  have hlock : s.poisoned = false := by
    simp only [killsAll, Bool.and_eq_true, Bool.not_eq_true'] at hall
    exact hall.1
  let killed := s.treg.killTasksByPid pid
  let tasks := s.tasks.mapIdx fun handle (t : Task) => if handle ∈ killed.1 then t.abort else t
  have hrecord : killed.2.record = s.treg.record := TaskRegistry.record_killTasksByPid pid
  have hnext : killed.2.next = s.treg.next := TaskRegistry.next_killTasksByPid pid
  have htasks : ∀ (handle : JoinHandle) (t : Task), tasks[handle]? = some t →
      ∃ t₀ : Task, s.tasks[handle]? = some t₀ ∧ t₀.id = t.id ∧
        (t.status = .running → t₀.status = .running ∧ handle ∉ killed.1) := by
    intro handle t ht
    rw [List.getElem?_mapIdx, Option.map_eq_some_iff] at ht
    obtain ⟨t₀, ht₀, rfl⟩ := ht
    refine ⟨t₀, ht₀, ?_⟩
    split
    · unfold Task.abort
      split <;> simp_all
    · exact ⟨rfl, fun hrunning => ⟨hrunning, ‹_›⟩⟩
  have hkeeps : Inv { s with treg := killed.2, tasks } := by
    have hregistered := h.of_registered (h.indexed.killTasksByPid pid) (Nat.le_of_eq hnext.symm)
      (fun id x hx => by rw [hrecord, hx]) (fun _ _ hm => .inl hm)
    refine hregistered.of_tasks fun handle t ht => ?_
    obtain ⟨t₀, ht₀, hid, hstatus⟩ := htasks handle t ht
    exact ⟨t₀, ht₀, hid, fun hrunning => (hstatus hrunning).1⟩
  have hspent : Spent { s with treg := killed.2, tasks } ⟨pid, s.treg.next⟩ := by
    refine ⟨Nat.le_of_eq hnext.symm, fun tty m hm hmpid => ?_, fun t ht hrunning htpid => ?_⟩
    · have hne := (Bool.and_eq_true_iff.mp (hsettled tty)).1
      exact absurd hmpid (by simpa using List.all_eq_true.mp hne m hm)
    · exfalso
      obtain ⟨handle, ht⟩ := List.mem_iff_getElem?.mp ht
      obtain ⟨t₀, ht₀, hid, hstatus⟩ := htasks handle t ht
      have htpid : s.pidOf t₀.id = some pid := by rwa [hid, pidOf, ← hrecord]
      rcases h.recorded hlock handle t₀ ht₀ with ⟨x, hx, hhandle⟩ | ⟨tty, handles, hadding, -⟩
      · rw [pidOf, hx, Option.map_some, Option.some_inj] at htpid
        exact (hstatus hrunning).2 (h.indexed.mem_killTasksByPid.mpr ⟨t₀.id, x, hx, htpid, hhandle⟩)
      · have hne := (Bool.and_eq_true_iff.mp (hsettled tty)).2
        simp [hadding, htpid] at hne
  have heq : s.killTasksByPid pid =
      { s with treg := killed.2, tasks, kills := s.kills ++ [⟨pid, s.treg.next⟩] } := by
    simp [Runtime.killTasksByPid, hlock, killed, tasks]
  rw [heq]
  exact hkeeps.of_spent hspent

theorem finish (h : s.Inv) {handle : JoinHandle} (hs : s.finish handle = some s') : s'.Inv := by
  unfold Runtime.finish at hs
  split at hs
  · obtain rfl := Option.some_inj.mp hs
    refine h.of_tasks fun handle' t ht => ?_
    rw [List.getElem?_modify, Option.map_eq_map, Option.map_eq_some_iff] at ht
    obtain ⟨t₀, ht₀, rfl⟩ := ht
    refine ⟨t₀, ht₀, ?_⟩
    split <;> simp
  · cases hs

theorem poison (h : s.Inv) : s.poison.Inv := by
  refine ⟨h.indexed, h.messages, h.adding, h.tasks, fun hlock => ?_, fun k hk => ?_⟩
  · simp [Runtime.poison] at hlock
  · obtain ⟨hknext, hmessages, hktasks⟩ := h.kills k hk
    exact ⟨hknext, hmessages, hktasks⟩

theorem step (h : s.Inv) (hall : s.killsAll a) (hs : Cancellation.step a s = some s') :
    s'.Inv := by
  cases a with
  | submitLogging pid desc =>
    obtain rfl := Option.some_inj.mp hs
    exact h.send (h.indexed.submitted pid .logging desc _)
  | submitMetrics pid desc =>
    obtain rfl := Option.some_inj.mp hs
    exact h.send (h.indexed.submittedUnique pid .metrics desc _)
  | submitProcess pid desc =>
    obtain rfl := Option.some_inj.mp hs
    exact h.send (h.indexed.submittedUnique pid .process desc _)
  | receive tty => exact h.receive hs
  | addHandles tty => exact h.addHandles hs
  | killTasks pid =>
    obtain rfl := Option.some_inj.mp hs
    exact h.killTasksByPid hall
  | finish handle => exact h.finish hs
  | poison =>
    obtain rfl := Option.some_inj.mp hs
    exact h.poison

end Inv

end Runtime

/-- In a run whose kills find the lock in order and the coordinators settled, a kill cancels every
task that was asked for before it. -/
theorem cancelled_of_reachable {s : Runtime} (h : Reachable (fun s a => s.killsAll a) s) :
    s.Cancelled :=
  Runtime.Inv.cancelled (h.invariant .init fun _ _ _ hi hall hs => hi.step hall hs)

/-- The tasks of a process are submitted and spawned, and then aborted. -/
theorem settled_kill_cancels : ∃ s : Runtime, s.Cancelled ∧ s.kills = [⟨4242, 3⟩] ∧
    s.tasks.map (·.status) = [.aborted, .aborted, .aborted] :=
  ⟨_, cancelled_of_reachable (Runs.reach_of_checked [.submitLogging 4242 "", .submitProcess 4242 "",
    .receive .logging, .addHandles .logging, .receive .process, .addHandles .process,
    .killTasks 4242] rfl), rfl, rfl⟩

/-- A monitoring task is submitted, and a kill comes before its coordinator receives the
message. The task is spawned and runs on. -/
theorem early_kill_misses : ∃ s : Runtime, Reachable (fun _ _ => True) s ∧
    s.kills = [⟨4242, 2⟩] ∧ s.tasks = [⟨1, .running⟩] ∧ ¬s.Cancelled := by
  refine ⟨_, Runs.reach_of_checked [.submitProcess 4242 "", .killTasks 4242, .receive .process,
    .addHandles .process] rfl, rfl, rfl, fun h => ?_⟩
  refine h ⟨4242, 2⟩ (.head _) (fun tty m hm => ?_) ⟨1, .running⟩ (.head _) (by decide) rfl rfl
  cases tty <;> cases hm

end Cancellation

end Yapm
