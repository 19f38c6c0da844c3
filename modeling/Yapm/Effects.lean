import Yapm.StepCases

/-!
# What a step does to a process and to the records

`Change` says what becomes of the registry, the handler, the requests and the stops. Here
it is said of each process field by field (`Proc.Moves`) : what makes it die, what takes
its launch further or makes it fail, and what becomes of its monitoring task. `Tracks` says
the same of the records of tasks, of which a step adds one at most and removes none.

`State.signals` are the pids a step sends `SIGKILL` to, and `State.cancels` those whose
tasks it cancels.
-/

namespace Yapm

/-! ## What a step is about -/

/-- The launch that comes after a phase. -/
def Phase.next : Phase → Option Phase
  | .metrics => some .logger
  | .logger => some .submitLogging
  | .submitLogging => some .submitProcess
  | .submitProcess => some .submitMetrics
  | .submitMetrics => some .insert
  | .insert => some .registered
  | _ => none

/-- The record of a task that is not over. -/
def Watch.task : Watch → Option TaskId
  | .queued id | .opening id | .watching id _ => some id
  | _ => Option.none

/-- The pids a step sends `SIGKILL` to. -/
def State.signals (s : State) : Action → List Pid
  | .stopKill i poisoned =>
    if poisoned then [] else ((s.stops i).map (·.entry.task.inner)).toList
  | .stop _ name poisoned =>
    if poisoned then [] else ((s.registry name).map (·.task.inner)).toList
  | a => s.failedPids a

/-- The pids whose tasks a step cancels. -/
def State.cancels (s : State) : Action → List Pid
  | .submitProcess c fate => if fate.isPoisoned then [] else s.failedPids (.submitProcess c fate)
  | .submitMetrics c fate => if fate.isPoisoned then [] else s.failedPids (.submitMetrics c fate)
  | .decide poisoned =>
    match s.handler with
    | .deciding _ e => if poisoned then [] else [e.task.inner]
    | _ => []
  | .stopKill i poisoned => s.signals (.stopKill i poisoned)
  | .stop i name poisoned => s.signals (.stop i name poisoned)
  | _ => []

/-- The monitoring task of the process fails. -/
def Action.failsMonitor (c : ProcId) : Action → Bool
  | .monitorOpen c' err => c' = c && err.isSome
  | .monitorFail c' _ => c' = c
  | _ => false

/-- The monitoring task of the process reaps it. -/
def Action.reaps (c : ProcId) : Action → Bool
  | .monitorLose c' _ | .monitorExit c' => c' = c
  | _ => false

variable {s s₁ s' : State} {a : Action} {c : ProcId} {p p₁ p' : Proc} {pid : Pid}

/-! ## One process -/

namespace Proc

@[simp] theorem sigkill_pid : (p.sigkill pid).pid = p.pid := by
  unfold sigkill
  split <;> rfl

@[simp] theorem sigkill_name : (p.sigkill pid).name = p.name := by
  unfold sigkill
  split <;> rfl

@[simp] theorem sigkill_watch : (p.sigkill pid).watch = p.watch := by
  unfold sigkill
  split <;> rfl

@[simp] theorem abort_nil : p.abort [] = p := by
  unfold abort
  split <;> simp

@[simp] theorem abort_pid (handles : List JoinHandle) : (p.abort handles).pid = p.pid := by
  unfold abort
  split <;> (try split) <;> rfl

@[simp] theorem abort_name (handles : List JoinHandle) : (p.abort handles).name = p.name := by
  unfold abort
  split <;> (try split) <;> rfl

@[simp] theorem abort_status (handles : List JoinHandle) : (p.abort handles).status = p.status := by
  unfold abort
  split <;> (try split) <;> rfl

theorem sigkill_abort (handles : List JoinHandle) :
    (p.abort handles).sigkill pid = (p.sigkill pid).abort handles := by
  unfold abort sigkill
  split <;> (try split) <;> (try split) <;> simp_all

/-- `SIGKILL` makes a process a zombie, if it is its pid and it is alive. -/
theorem sigkill_cases (p : Proc) (pid : Pid) : (p.sigkill pid).status = p.status ∨
    p.pid = pid ∧ p.status = .alive ∧ (p.sigkill pid).status = .zombie := by
  unfold sigkill
  split
  · rename_i h
    exact .inr ⟨h.1, h.2, rfl⟩
  · exact .inl rfl

/-- An abort ends a task that runs, if the handle is its. -/
theorem abort_cases (p : Proc) (handles : List JoinHandle) : (p.abort handles).watch = p.watch ∨
    p.watch.isSpawned ∧ (∃ id ∈ handles, p.watch.task = some id) ∧
      (p.abort handles).watch = .ended := by
  unfold abort
  split
  · rename_i id hw
    split
    · exact .inr ⟨by rw [hw]; rfl, ⟨id, ‹_›, by rw [hw]; rfl⟩, rfl⟩
    · exact .inl rfl
  · rename_i id d hw
    split
    · exact .inr ⟨by rw [hw]; rfl, ⟨id, ‹_›, by rw [hw]; rfl⟩, rfl⟩
    · exact .inl rfl
  · exact .inl rfl

/-- The handle of the task of a process is in a record of the pid. -/
def Holds (s : State) (p : Proc) (pid : Pid) : Prop :=
  ∃ id id' x, p.watch.task = some id ∧ s.treg.record id' = some x ∧ x.pid = pid ∧
    id ∈ x.handles

/-- What a step makes of the process at `c`. -/
structure Moves (s : State) (a : Action) (s' : State) (c : ProcId) (p p' : Proc) : Prop where
  pid : p'.pid = p.pid
  name : p'.name = p.name
  status : p'.status = p.status ∨
    p.status = .alive ∧ p'.status = .zombie ∧ (a = .exit c ∨ p.pid ∈ s.signals a) ∨
    a.reaps c ∧ p'.status = .reaped
  killed : p.pid ∈ s.signals a → p'.status ≠ .alive
  phase : p'.phase = p.phase ∨
    (p.phase.next = some p'.phase ∧ (p.phase = .submitProcess →
      ∃ id, p'.watch = .queued id ∧ s'.treg.record id = some ⟨p.pid, .process, []⟩)) ∨
    s.failsLaunch a = some c ∧ p'.phase = .failed
  watch : p'.watch = p.watch ∨
    (∃ id, p'.watch = .queued id ∧ s'.treg.record id = some ⟨p.pid, .process, []⟩) ∨
    p.watch.isLive ∧ p'.watch.isSpawned ∧ p'.watch.task = p.watch.task ∨
    p.watch.isSpawned ∧ p'.watch = .ended ∧ (a.reaps c ∧ p'.status = .reaped ∨
      a.failsMonitor c ∨ ∃ pid ∈ s.cancels a, p.Holds s pid)

namespace Moves

/-- A step that does not signal a process may leave it as it is. -/
theorem refl (h : p.pid ∉ s.signals a) : p.Moves s a s' c p :=
  ⟨rfl, rfl, .inl rfl, fun hmem => absurd hmem h, .inl rfl, .inl rfl⟩

/-- The rule for a step that aborts tasks of the pids it cancels. -/
theorem abort (hsignals : s.signals a = []) {handles : List JoinHandle}
    (hhandles : ∀ handle ∈ handles, ∃ id x, s.treg.record id = some x ∧ x.pid ∈ s.cancels a ∧
      handle ∈ x.handles) : p.Moves s a s' c (p.abort handles) where
  pid := p.abort_pid handles
  name := p.abort_name handles
  status := .inl (p.abort_status handles)
  killed hmem := by simp [hsignals] at hmem
  phase := .inl (p.abort_phase handles)
  watch := by
    rcases p.abort_cases handles with hw | ⟨hspawned, ⟨handle, hhandle, htask⟩, hended⟩
    · exact .inl hw
    · obtain ⟨id, x, hx, hpid, hmem⟩ := hhandles handle hhandle
      exact .inr (.inr (.inr ⟨hspawned, hended, .inr (.inr
        ⟨x.pid, hpid, handle, id, x, htask, hx, rfl, hmem⟩)⟩))

/-- The rule for a step that sends `SIGKILL` to one pid and aborts tasks, and may make a
launch fail. -/
theorem strike (hsignals : s.signals a = [pid]) {handles : List JoinHandle}
    (hhandles : ∀ handle ∈ handles, ∃ id x, s.treg.record id = some x ∧ x.pid ∈ s.cancels a ∧
      handle ∈ x.handles) {phase : Phase}
    (hphase : phase = p.phase ∨ s.failsLaunch a = some c ∧ phase = .failed) :
    p.Moves s a s' c { (p.sigkill pid).abort handles with phase } where
  pid := by simp
  name := by simp
  status := by
    rcases p.sigkill_cases pid with hstatus | ⟨hpid, halive, hzombie⟩
    · exact .inl (by simpa using hstatus)
    · exact .inr (.inl ⟨halive, by simpa using hzombie, .inr (by simp [hsignals, hpid])⟩)
  killed hmem := by
    rw [hsignals, List.mem_singleton] at hmem
    subst hmem
    simpa using p.sigkill_status
  phase := hphase.imp id .inr
  watch := by
    rcases (p.sigkill pid).abort_cases handles with
      hw | ⟨hspawned, ⟨handle, hhandle, htask⟩, hended⟩
    · exact .inl (by simpa using hw)
    · obtain ⟨id, x, hx, hpid, hmem⟩ := hhandles handle hhandle
      rw [sigkill_watch] at hspawned htask
      exact .inr (.inr (.inr ⟨hspawned, hended, .inr (.inr
        ⟨x.pid, hpid, handle, id, x, htask, hx, rfl, hmem⟩)⟩))

end Moves

end Proc

/-! ## Operations -/

namespace State

theorem failLaunch_procs (l : Launcher) (msg : String) :
    (s.failLaunch c l msg).procs = s.procs.modify c ({ · with phase := .failed }) := by
  cases l <;> rfl

theorem failLaunch_treg (l : Launcher) (msg : String) : (s.failLaunch c l msg).treg = s.treg := by
  cases l <;> rfl

/-- The handles `kill_tasks_by_pid` aborts. -/
def killed (s : State) (pid : Pid) (poisoned : Bool) : List JoinHandle :=
  if poisoned then [] else (s.treg.killTasksByPid pid).1

theorem killTasks_procs (poisoned : Bool) :
    (s.killTasks pid poisoned).procs = s.procs.map (·.abort (s.killed pid poisoned)) := by
  cases poisoned <;> simp [killTasks, killed]

/-! What steps leave of every process. -/

variable {β : Type} {g : Proc → β}

theorem map_modifyProc {f : Proc → Proc} (hf : ∀ p, g (f p) = g p) :
    (s.modifyProc c f).procs.map g = s.procs.map g := by
  refine List.ext_getElem? fun d => ?_
  simp only [modifyProc, List.getElem?_map, List.getElem?_modify]
  cases s.procs[d]? with
  | none => rfl
  | some q =>
    simp only [Option.map_eq_map, Option.map_some, Option.some_inj]
    split
    · exact hf q
    · rfl

theorem map_sigkill (hg : ∀ p status, g { p with status } = g p) (pid : Pid) :
    (s.sigkill pid).procs.map g = s.procs.map g := by
  rw [sigkill, List.map_map]
  refine List.map_congr_left fun p _ => ?_
  rw [Function.comp_apply, Proc.sigkill]
  split
  · exact hg p _
  · rfl

theorem map_killTasks (hg : ∀ p watch, g { p with watch } = g p) (pid : Pid) (poisoned : Bool) :
    (s.killTasks pid poisoned).procs.map g = s.procs.map g := by
  rw [killTasks_procs, List.map_map]
  refine List.map_congr_left fun p _ => ?_
  rw [Function.comp_apply, Proc.abort]
  split <;> (try split) <;> exact hg p _

theorem killTasks_treg (hx : s.treg.Indexed) (pid : Pid) (poisoned : Bool) :
    (s.killTasks pid poisoned).treg.Indexed ∧ (s.killTasks pid poisoned).treg.next = s.treg.next ∧
      (s.killTasks pid poisoned).treg.record = s.treg.record := by
  cases poisoned with
  | true => exact ⟨hx, rfl, rfl⟩
  | false => exact ⟨hx.killTasksByPid pid, TaskRegistry.next_killTasksByPid pid,
      TaskRegistry.record_killTasksByPid pid⟩

/-- A handle that is aborted is in a record of the pid. -/
theorem record_of_killed (hx : s.treg.Indexed) {poisoned : Bool} {handle : JoinHandle}
    (h : handle ∈ s.killed pid poisoned) :
    poisoned = false ∧ ∃ id x, s.treg.record id = some x ∧ x.pid = pid ∧ handle ∈ x.handles := by
  cases poisoned with
  | true => simp [killed] at h
  | false => exact ⟨rfl, hx.mem_killTasksByPid.mp h⟩

end State

/-! ## The records -/

/-- The phase at which a launch submits a task of the type. -/
def TaskType.phase : TaskType → Phase
  | .logging => .submitLogging
  | .process => .submitProcess
  | .metrics => .submitMetrics

/-- A launch submits the task of the record, and goes on or fails. -/
def State.Submits (s s' : State) (x : TaskRegistry.Record) : Prop :=
  ∃ (c : ProcId) (p p' : Proc), s.procs[c]? = some p ∧ s'.procs[c]? = some p' ∧ x.pid = p.pid ∧
    p.phase = x.ty.phase ∧ p'.phase ≠ p.phase

/-- What a step makes of the records. -/
structure State.Tracks (s s' : State) : Prop where
  indexed : s'.treg.Indexed
  next : s.treg.next ≤ s'.treg.next
  old : ∀ id x, s.treg.record id = some x → ∃ x', s'.treg.record id = some x' ∧
    x'.pid = x.pid ∧ x'.ty = x.ty
  new : ∀ id x', s'.treg.record id = some x' →
    (∃ x, s.treg.record id = some x ∧ x'.pid = x.pid ∧ x'.ty = x.ty ∧
      ∀ handle ∈ x'.handles, handle ∈ x.handles ∨ handle = id) ∨
    x'.handles = [] ∧ s.Submits s' x'

namespace State.Tracks

theorem of_record_eq (hindexed : s'.treg.Indexed) (hnext : s'.treg.next = s.treg.next)
    (hrecord : s'.treg.record = s.treg.record) : s.Tracks s' where
  indexed := hindexed
  next := Nat.le_of_eq hnext.symm
  old id x hx := ⟨x, by rw [hrecord, hx], rfl, rfl⟩
  new id x' hx' := .inl ⟨x', by rw [← hrecord, hx'], rfl, rfl, fun _ hmem => .inl hmem⟩

theorem of_eq (hx : s.treg.Indexed) (htreg : s'.treg = s.treg) : s.Tracks s' :=
  of_record_eq (by rwa [htreg]) (by rw [htreg]) (by rw [htreg])

/-- The rule for a submission. -/
theorem of_submitted {tty : TaskType} {result : Except AsyncError TaskId × TaskRegistry}
    (hsub : s.treg.Submitted pid tty result) (hindexed : s'.treg.Indexed)
    (hnext : s'.treg.next = result.2.next) (hrecord : s'.treg.record = result.2.record)
    (hby : s.Submits s' ⟨pid, tty, []⟩) : s.Tracks s' where
  indexed := hindexed
  next := by
    rw [hnext]
    exact hsub.next
  old id x hx := ⟨x, by rw [hrecord, hsub.old id x hx], rfl, rfl⟩
  new id x' hx' := by
    rw [hrecord] at hx'
    rcases hsub.new id x' hx' with hx | ⟨-, rfl⟩
    · exact .inl ⟨x', hx, rfl, rfl, fun _ hmem => .inl hmem⟩
    · exact .inr ⟨rfl, hby⟩

/-- The rule for a task that has been spawned. -/
theorem of_addHandle (hx : s.treg.Indexed) {id : TaskId} {treg : TaskRegistry}
    (hadd : s.treg.addHandle id id = .ok treg) (htreg : s'.treg = treg) : s.Tracks s' := by
  subst htreg
  cases hid : s.treg.record id with
  | none => simp [TaskRegistry.addHandle, Option.map_eq_none_iff.mp hid] at hadd
  | some x =>
    obtain ⟨treg, hok, hnext, hrecord⟩ := TaskRegistry.record_addHandle id hid
    obtain rfl := Except.ok.inj (hok.symm.trans hadd)
    refine ⟨hx.addHandle hadd, Nat.le_of_eq hnext.symm, fun id' y hy => ?_, fun id' y hy => ?_⟩
    · rw [hrecord id']
      split
      · rename_i hid'
        subst hid'
        obtain rfl := Option.some_inj.mp (hid.symm.trans hy)
        exact ⟨_, rfl, rfl, rfl⟩
      · exact ⟨y, hy, rfl, rfl⟩
    · rw [hrecord id'] at hy
      split at hy
      · rename_i hid'
        obtain rfl := Option.some_inj.mp hy
        refine .inl ⟨x, by rw [hid', hid], rfl, rfl, fun handle hmem => ?_⟩
        rw [List.mem_append, List.mem_singleton] at hmem
        rwa [hid']
      · exact .inl ⟨y, hy, rfl, rfl, fun _ hmem => .inl hmem⟩

end State.Tracks

/-! ## The whole step -/

/-- The process that a fork made. -/
def State.Forks (s : State) (a : Action) (p : Proc) : Prop :=
  ∃ l os m, a = .fork l os p.pid m ∧ s.pidTaken p.pid = false ∧ p.status = .alive ∧
    p.watch = .none ∧ (p.phase = .metrics ∨ p.phase = .leaked ∧ os.losesChild)

/-- What a step does. -/
structure Effect (s : State) (a : Action) (s' : State) : Prop where
  procs : ∀ (c : ProcId) (p' : Proc), s'.procs[c]? = some p' →
    (∃ p : Proc, s.procs[c]? = some p ∧ p.Moves s a s' c p') ∨ s.Forks a p'
  records : s.Tracks s'

namespace Effect

/-- The rule for steps that leave all processes. -/
theorem of_procs_eq (hprocs : s'.procs = s.procs) (hsignals : s.signals a = [])
    (hrecords : s.Tracks s') : Effect s a s' where
  procs c p' hp' := by
    rw [hprocs] at hp'
    exact .inl ⟨p', hp', .refl (by simp [hsignals])⟩
  records := hrecords

/-- The rule for steps that change one process, which they do not signal. -/
theorem of_modify (hp : s.procs[c]? = some p) {f : Proc → Proc}
    (hprocs : s'.procs = s.procs.modify c f) (hsignals : s.signals a = [])
    (hf : p.Moves s a s' c (f p)) (hrecords : s.Tracks s') : Effect s a s' where
  procs d q' hq' := by
    rw [hprocs, List.getElem?_modify, Option.map_eq_map, Option.map_eq_some_iff] at hq'
    obtain ⟨q, hq, rfl⟩ := hq'
    refine .inl ⟨q, hq, ?_⟩
    split
    · rename_i hcd
      subst hcd
      rw [hp, Option.some_inj] at hq
      subst hq
      exact hf
    · exact .refl (by simp [hsignals])
  records := hrecords

/-- The rule for steps that strike at a pid. -/
theorem of_strike (hsignals : s.signals a = [pid]) (handles : List JoinHandle)
    (hhandles : ∀ handle ∈ handles, ∃ id x, s.treg.record id = some x ∧ x.pid ∈ s.cancels a ∧
      handle ∈ x.handles)
    (hprocs : s'.procs = (s.procs.map (·.sigkill pid)).map (·.abort handles))
    (hrecords : s.Tracks s') : Effect s a s' where
  procs d q' hq' := by
    rw [hprocs, List.getElem?_map, List.getElem?_map, Option.map_map,
      Option.map_eq_some_iff] at hq'
    obtain ⟨q, hq, rfl⟩ := hq'
    have hphase : ((q.sigkill pid).abort handles).phase = q.phase := by simp
    exact .inl ⟨q, hq, .strike hsignals hhandles (.inl hphase)⟩
  records := hrecords

/-- The rule for steps that strike at the process of a launch, which fails. -/
theorem of_failsLaunch (hfails : s.failsLaunch a = some c) (hsignals : s.signals a = [pid])
    (handles : List JoinHandle)
    (hhandles : ∀ handle ∈ handles, ∃ id x, s.treg.record id = some x ∧ x.pid ∈ s.cancels a ∧
      handle ∈ x.handles)
    (hprocs : s'.procs = ((s.procs.map (·.sigkill pid)).map (·.abort handles)).modify c
      ({ · with phase := .failed })) (hrecords : s.Tracks s') : Effect s a s' where
  procs d q' hq' := by
    rw [hprocs, List.getElem?_modify, List.getElem?_map, List.getElem?_map, Option.map_map,
      Option.map_eq_map, Option.map_map, Option.map_eq_some_iff] at hq'
    obtain ⟨q, hq, rfl⟩ := hq'
    refine .inl ⟨q, hq, ?_⟩
    simp only [Function.comp_apply]
    split
    · rename_i hcd
      subst hcd
      exact .strike hsignals hhandles (.inr ⟨hfails, rfl⟩)
    · have hphase : ((q.sigkill pid).abort handles).phase = q.phase := by simp
      exact .strike hsignals hhandles (.inl hphase)
  records := hrecords

/-! ### Launches -/

theorem of_prepare (hx : s.treg.Indexed) {phase next : Phase} {failure : String}
    {err : Option String} (hnext : phase.next = some next) (hne : phase ≠ .submitProcess)
    (hfails : s.failsLaunch a = s.failsAt c phase fun _ => err.isSome)
    (hsignals : s.signals a = s.failedPids a)
    (h : s.prepare c phase next failure err = some s') : Effect s a s' := by
  obtain ⟨p, hp, hphase, ⟨hfails, rfl⟩ | ⟨hfails, msg, rfl⟩⟩ := State.prepare_cases hfails h
  · have hnone : s.signals a = [] := hsignals.trans (State.failedPids_nil hfails)
    refine of_modify hp rfl hnone ?_ (.of_eq hx rfl)
    exact ⟨rfl, rfl, .inl rfl, (fun hmem => by simp [hnone] at hmem),
      .inr (.inl ⟨by rw [hphase, hnext], fun hsub => absurd (hphase.symm.trans hsub) hne⟩),
      .inl rfl⟩
  · refine of_failsLaunch hfails (hsignals.trans (State.failedPids_eq hp hfails)) [] (by simp) ?_
      (.of_eq hx ?_)
    · simp [State.failLaunch_procs, State.sigkill, Function.comp_def]
    · rw [State.failLaunch_treg]
      rfl

theorem of_submitLogging (hx : s.treg.Indexed) {fate : Submission}
    (h : s.submitLogging c fate = some s') : Effect s (.submitLogging c fate) s' := by
  obtain ⟨p, hp, hphase, rfl⟩ := State.submitLogging_inv h
  have hsub := hx.submitted p.pid .logging "Registering Log task" fate
  refine of_modify hp rfl rfl ?_ (.of_submitted hsub hsub.indexed rfl rfl ?_)
  · exact ⟨rfl, rfl, .inl rfl, (fun hmem => by cases hmem),
      .inr (.inl ⟨by rw [hphase]; rfl, (fun hsub => by simp [hphase] at hsub)⟩), .inl rfl⟩
  · exact ⟨c, p, { p with phase := .submitProcess }, hp, by simp [State.modifyProc, hp], rfl,
      hphase, by simp [hphase]⟩

/-- A launch fails because its submission failed. -/
theorem of_failSubmission (hx : s.treg.Indexed) (hp : s.procs[c]? = some p) (tty : TaskType)
    (hphase : p.phase = tty.phase) {desc : String} {fate : Submission} {e : AsyncError}
    {treg : TaskRegistry} (hresult : s.treg.submitUnique p.pid tty desc fate = (.error e, treg))
    (hfails : s.failsLaunch a = some c) (hsignals : s.signals a = s.failedPids a)
    (hcancels : s.cancels a = if fate.isPoisoned then [] else s.failedPids a) :
    Effect s a ({ s with treg }.failSubmission c p fate e) := by
  have hsub := hx.submittedUnique p.pid tty desc fate
  rw [hresult] at hsub
  let s₁ := { s with treg }.sigkill p.pid
  have hs₁ : s₁.treg.Indexed := hsub.indexed
  have hpids := State.failedPids_eq hp hfails
  obtain ⟨hindexed, hnext, hrecord⟩ := State.killTasks_treg hs₁ p.pid fate.isPoisoned
  refine of_failsLaunch hfails (hsignals.trans hpids) (s₁.killed p.pid fate.isPoisoned)
    (fun handle hhandle => ?_) ?_ ?_
  · obtain ⟨hpoisoned, id, x, hxid, hpid, hmem⟩ := State.record_of_killed hs₁ hhandle
    rcases hsub.new id x hxid with hold | ⟨-, rfl⟩
    · exact ⟨id, x, hold, by simp [hcancels, hpoisoned, hpids, hpid], hmem⟩
    · cases hmem
  · rw [State.failSubmission, State.failLaunch_procs, State.killTasks_procs]
    rfl
  · refine .of_submitted hsub ?_ ?_ ?_ ?_
    · rw [State.failSubmission, State.failLaunch_treg]
      exact hindexed
    · rw [State.failSubmission, State.failLaunch_treg]
      exact hnext
    · rw [State.failSubmission, State.failLaunch_treg]
      exact hrecord
    · refine ⟨c, p, { (p.sigkill p.pid).abort (s₁.killed p.pid fate.isPoisoned) with
        phase := .failed }, hp, ?_, rfl, hphase, ?_⟩
      · rw [State.failSubmission, State.failLaunch_procs, State.killTasks_procs]
        simp [State.sigkill, hp, s₁]
      · cases tty <;> simp [hphase, TaskType.phase]

theorem of_submitProcess (hx : s.treg.Indexed) {fate : Submission}
    (h : s.submitProcess c fate = some s') : Effect s (.submitProcess c fate) s' := by
  obtain ⟨p, desc, treg, hp, hphase, ⟨id, hresult, hfails, rfl⟩ | ⟨e, hresult, hfails, rfl⟩⟩ :=
    State.submitProcess_cases h
  · have hsub := hx.submittedUnique p.pid .process desc fate
    rw [hresult] at hsub
    have hsignals : s.signals (.submitProcess c fate) = [] := State.failedPids_nil hfails
    have hrecord := (hsub.ok id rfl).2
    refine of_modify hp rfl hsignals ?_ (.of_submitted hsub hsub.indexed rfl rfl ?_)
    · exact ⟨rfl, rfl, .inl rfl, (fun hmem => by simp [hsignals] at hmem),
        .inr (.inl ⟨by rw [hphase]; rfl, fun _ => ⟨id, rfl, hrecord⟩⟩),
        .inr (.inl ⟨id, rfl, hrecord⟩)⟩
    · exact ⟨c, p, { p with phase := .submitMetrics, watch := .queued id }, hp,
        by simp [State.modifyProc, hp], rfl, hphase, by simp [hphase]⟩
  · exact of_failSubmission hx hp .process hphase hresult hfails rfl rfl

theorem of_submitMetrics (hx : s.treg.Indexed) {fate : Submission}
    (h : s.submitMetrics c fate = some s') : Effect s (.submitMetrics c fate) s' := by
  obtain ⟨p, desc, treg, hp, hphase, ⟨id, hresult, hfails, rfl⟩ | ⟨e, hresult, hfails, rfl⟩⟩ :=
    State.submitMetrics_cases h
  · have hsub := hx.submittedUnique p.pid .metrics desc fate
    rw [hresult] at hsub
    have hsignals : s.signals (.submitMetrics c fate) = [] := State.failedPids_nil hfails
    refine of_modify hp rfl hsignals ?_ (.of_submitted hsub hsub.indexed rfl rfl ?_)
    · exact ⟨rfl, rfl, .inl rfl, (fun hmem => by simp [hsignals] at hmem),
        .inr (.inl ⟨by rw [hphase]; rfl, (fun hpro => by simp [hphase] at hpro)⟩), .inl rfl⟩
    · exact ⟨c, p, { p with phase := .insert }, hp, by simp [State.modifyProc, hp], rfl, hphase,
        by simp [hphase]⟩
  · exact of_failSubmission hx hp .metrics hphase hresult hfails rfl rfl

theorem of_insert (hx : s.treg.Indexed) (h : s.insert c = some s') :
    Effect s (.insert c) s' := by
  obtain ⟨p, s₁, hp, hphase, rfl, hcases⟩ := State.insert_inv h
  have hmoves : p.Moves s (.insert c) s' c { p with phase := .registered } :=
    ⟨rfl, rfl, .inl rfl, (fun hmem => by cases hmem),
      .inr (.inl ⟨by rw [hphase]; rfl, (fun hsub => by simp [hphase] at hsub)⟩), .inl rfl⟩
  rcases hcases with ⟨i, -, rfl⟩ | ⟨-, rfl⟩
  · exact of_modify hp rfl rfl hmoves (.of_eq hx rfl)
  · exact of_modify hp rfl rfl hmoves (.of_eq hx rfl)

/-! ### Stops and exits -/

/-- A stop kills tasks and process, unless a lock is poisoned. -/
theorem of_kill (hx : s.treg.Indexed) {i : ℕ} {poisoned : Bool} {k : StopCall}
    (h : s₁.stopKill i poisoned = some s') (hk : s₁.stops i = some k)
    (hprocs : s₁.procs = s.procs) (htreg : s₁.treg = s.treg)
    (hsignals : s.signals a = if poisoned then [] else [k.entry.task.inner])
    (hcancels : s.cancels a = s.signals a) : Effect s a s' := by
  obtain ⟨k', s₂, result, hk', hs₂, hcases⟩ := State.stopKill_inv h
  obtain rfl := Option.some_inj.mp (hk.symm.trans hk')
  have hprocs₂ : s₂.procs = s.procs := by rw [hs₂]; exact hprocs
  have htreg₂ : s₂.treg = s.treg := by rw [hs₂]; exact htreg
  rcases hcases with ⟨hpoisoned, rfl⟩ | ⟨rfl, rfl⟩
  · exact of_procs_eq hprocs₂ (by simpa [hpoisoned] using hsignals) (.of_eq hx htreg₂)
  · have hx₂ : s₂.treg.Indexed := by rwa [htreg₂]
    obtain ⟨hindexed, hnext, hrecord⟩ := State.killTasks_treg hx₂ k.entry.task.inner false
    rw [htreg₂] at hnext hrecord
    refine of_strike hsignals (s₂.killed k.entry.task.inner false) (fun handle hhandle => ?_)
      ?_ (.of_record_eq hindexed hnext hrecord)
    · obtain ⟨-, id, x, hxid, hpid, hmem⟩ := State.record_of_killed hx₂ hhandle
      rw [htreg₂] at hxid
      exact ⟨id, x, hxid, by simp [hcancels, hsignals, hpid], hmem⟩
    · show ((s₂.killTasks k.entry.task.inner false).sigkill k.entry.task.inner).procs = _
      rw [State.sigkill, State.killTasks_procs, hprocs₂]
      simp [Function.comp_def, Proc.sigkill_abort]

theorem of_stopKill (hx : s.treg.Indexed) {i : ℕ} {poisoned : Bool}
    (h : s.stopKill i poisoned = some s') : Effect s (.stopKill i poisoned) s' := by
  obtain ⟨k, -, -, hk, -⟩ := State.stopKill_inv h
  exact of_kill hx h hk rfl rfl (by simp [State.signals, hk]) rfl

theorem of_stop (hx : s.treg.Indexed) {i : ℕ} {name : String} {poisoned : Bool}
    (h : s.stop i name poisoned = some s') : Effect s (.stop i name poisoned) s' := by
  obtain ⟨-, ⟨hnone, rfl⟩ | ⟨e, s₁, he, rfl, hi, hkill⟩⟩ := State.stop_inv h
  · exact of_procs_eq rfl (by simp [State.signals, hnone]) (.of_eq hx rfl)
  · exact of_kill hx hkill hi rfl rfl (by simp [State.signals, he]) rfl

theorem of_exit (hx : s.treg.Indexed) (h : s.exit c = some s') : Effect s (.exit c) s' := by
  obtain ⟨p, hp, halive, rfl⟩ := State.exit_inv h
  refine of_modify hp rfl rfl ?_ (.of_eq hx rfl)
  exact ⟨rfl, rfl, .inr (.inl ⟨halive, rfl, .inl rfl⟩), (fun hmem => by cases hmem), .inl rfl,
    .inl rfl⟩

/-! ### Monitoring tasks -/

/-- The rule for a step of the monitoring task of a process. -/
theorem of_watch (hp : s.procs[c]? = some p) (hsignals : s.signals a = []) {w : Watch}
    (hprocs : s'.procs = s.procs.modify c ({ · with watch := w }))
    (hw : p.watch.isLive ∧ w.isSpawned ∧ w.task = p.watch.task ∨
      p.watch.isSpawned ∧ w = .ended ∧ a.failsMonitor c) (hrecords : s.Tracks s') :
    Effect s a s' := by
  refine of_modify hp hprocs hsignals
    ⟨rfl, rfl, .inl rfl, (fun hmem => by simp [hsignals] at hmem), .inl rfl, ?_⟩ hrecords
  rcases hw with hw | ⟨hspawned, hended, hfails⟩
  · exact .inr (.inr (.inl hw))
  · exact .inr (.inr (.inr ⟨hspawned, hended, .inr (.inl hfails)⟩))

theorem of_coordinate (hx : s.treg.Indexed) (h : s.coordinate c = some s') :
    Effect s (.coordinate c) s' := by
  obtain ⟨p, id, treg, hp, hw, -, htreg, rfl⟩ := State.coordinate_inv h
  refine of_watch hp rfl rfl (.inl ⟨by rw [hw]; rfl, rfl, by rw [hw]; rfl⟩) ?_
  rcases htreg with hadd | rfl
  · exact .of_addHandle hx hadd rfl
  · exact .of_eq hx rfl

theorem tracks_failWatch (hx : s.treg.Indexed) (id : TaskId) (e : String)
    (htreg : s'.treg = (s.failWatch c id e).treg) : s.Tracks s' := by
  revert htreg
  unfold State.failWatch
  split
  · rename_i treg hstatus
    rintro rfl
    exact .of_record_eq (hx.updateStatus hstatus) (TaskRegistry.next_updateStatus hstatus)
      (TaskRegistry.record_updateStatus hstatus)
  · exact .of_eq hx

/-- A monitoring task ends with an error. -/
theorem of_failWatch (hx : s.treg.Indexed) (hp : s.procs[c]? = some p)
    (hspawned : p.watch.isSpawned) (hsignals : s.signals a = []) (hfails : a.failsMonitor c)
    (id : TaskId) (e : String) : Effect s a (s.failWatch c id e) := by
  exact of_watch hp hsignals rfl (.inr ⟨hspawned, rfl, hfails⟩) (tracks_failWatch hx id e rfl)

/-- The pid of a process that has not been reaped leads to a process. -/
theorem findPid_ne_none (hp : s.procs[c]? = some p) (hr : p.status ≠ .reaped) :
    s.findPid p.pid ≠ none := by
  intro hnone
  have hall := List.findIdx?_eq_none_iff.mp hnone p (List.mem_of_getElem? hp)
  simp [hr] at hall

theorem of_monitorOpen (hok : s.Ok) (hx : s.treg.Indexed) {err : Option String}
    (h : s.monitorOpen c err = some s') : Effect s (.monitorOpen c err) s' := by
  obtain ⟨p, id, hp, hw, hcases⟩ := State.monitorOpen_inv h
  have hlive : p.watch.isLive := by rw [hw]; rfl
  rcases hcases with ⟨d, -, -, rfl⟩ | ⟨e, hnone, rfl⟩
  · exact of_watch hp rfl rfl (.inl ⟨hlive, rfl, by rw [hw]; rfl⟩) (.of_eq hx rfl)
  · have hsome : err ≠ none := fun herr =>
      findPid_ne_none hp (Change.not_reaped hok hp hlive) (hnone herr)
    obtain ⟨e', rfl⟩ := Option.ne_none_iff_exists'.mp hsome
    exact of_failWatch hx hp (by rw [hw]; rfl) rfl (by simp [Action.failsMonitor]) id _

theorem of_monitorFail (hx : s.treg.Indexed) {e : String} (h : s.monitorFail c e = some s') :
    Effect s (.monitorFail c e) s' := by
  obtain ⟨p, id, d, hp, hw, rfl⟩ := State.monitorFail_inv h
  exact of_failWatch hx hp (by rw [hw]; rfl) rfl (by simp [Action.failsMonitor]) id _

/-- The rule for a step of the monitoring task that reaps its process. -/
theorem of_reaped (hp : s.procs[c]? = some p) (hspawned : p.watch.isSpawned)
    (hprocs : s'.procs = s.procs.modify c ({ · with watch := .ended, status := .reaped }))
    (hsignals : s.signals a = []) (hreaps : a.reaps c) (hrecords : s.Tracks s') :
    Effect s a s' := by
  refine of_modify hp hprocs hsignals ?_ hrecords
  exact ⟨rfl, rfl, .inr (.inr ⟨hreaps, rfl⟩), (fun hmem => by simp [hsignals] at hmem), .inl rfl,
    .inr (.inr (.inr ⟨hspawned, rfl, .inl ⟨hreaps, rfl⟩⟩))⟩

theorem of_monitorLose (hok : s.Ok) (hx : s.treg.Indexed) {poisoned : Bool}
    (h : s.monitorLose c poisoned = some s') : Effect s (.monitorLose c poisoned) s' := by
  obtain ⟨p, id, hp, hspawned, hprocs, htreg, -⟩ := State.monitorLose_cases hok h
  refine of_reaped hp hspawned hprocs rfl (by simp [Action.reaps]) ?_
  rcases htreg with htreg | htreg
  · exact .of_eq hx htreg
  · exact tracks_failWatch hx id _ htreg

theorem of_monitorExit (hok : s.Ok) (hx : s.treg.Indexed) (h : s.monitorExit c = some s') :
    Effect s (.monitorExit c) s' := by
  obtain ⟨p, hp, hspawned, hprocs, htreg, -⟩ := State.monitorExit_cases hok h
  exact of_reaped hp hspawned hprocs rfl (by simp [Action.reaps]) (.of_eq hx htreg)

/-! ### The handler and forks -/

theorem of_decide (hx : s.treg.Indexed) {poisoned : Bool} (h : s.decide poisoned = some s') :
    Effect s (.decide poisoned) s' := by
  obtain ⟨r, e, hh, hcases⟩ := State.decide_inv h
  obtain ⟨hindexed, hnext, hrecord⟩ := State.killTasks_treg hx e.task.inner poisoned
  have hrule : ∀ s' : State, s'.procs = (s.killTasks e.task.inner poisoned).procs →
      s'.treg = (s.killTasks e.task.inner poisoned).treg → Effect s (.decide poisoned) s' := by
    intro s' hprocs htreg
    refine ⟨fun d q' hq' => ?_, .of_record_eq (by rwa [htreg]) (by rw [htreg, hnext])
      (by rw [htreg, hrecord])⟩
    rw [hprocs, State.killTasks_procs, List.getElem?_map, Option.map_eq_some_iff] at hq'
    obtain ⟨q, hq, rfl⟩ := hq'
    refine .inl ⟨q, hq, .abort rfl fun handle hhandle => ?_⟩
    obtain ⟨rfl, id, x, hxid, hpid, hmem⟩ := State.record_of_killed hx hhandle
    exact ⟨id, x, hxid, by simp [State.cancels, hh, hpid], hmem⟩
  rcases hcases with ⟨-, rfl⟩ | ⟨-, rfl⟩
  · exact hrule _ rfl rfl
  · exact hrule _ rfl rfl

/-- The rule for a fork that gave a process. -/
theorem of_append (hsignals : s.signals a = []) (hprocs : s'.procs = s.procs ++ [p])
    (hforks : s.Forks a p) (hrecords : s.Tracks s') : Effect s a s' where
  procs d q hq := by
    rcases Inv.append_cases hprocs hq with hq | ⟨-, rfl⟩
    · exact .inl ⟨q, hq, .refl (by simp [hsignals])⟩
    · exact .inr hforks
  records := hrecords

theorem of_fork (hx : s.treg.Indexed) {l : Launcher} {os : Os} {m : Machine}
    (h : s.fork l os pid m = some s') : Effect s (.fork l os pid m) s' := by
  obtain ⟨name, config, hconfig, hfree, htreg, ⟨-, hprocs⟩ | ⟨-, hprocs | ⟨hloses, hprocs⟩⟩⟩ :=
    State.fork_cases h
  · exact of_append rfl hprocs ⟨l, os, m, rfl, hfree, rfl, rfl, .inl rfl⟩ (.of_eq hx htreg)
  · exact of_procs_eq hprocs rfl (.of_eq hx htreg)
  · exact of_append rfl hprocs ⟨l, os, m, rfl, hfree, rfl, rfl, .inr ⟨rfl, hloses⟩⟩
      (.of_eq hx htreg)

end Effect

/-- What a step does, when processes and records are in order before it. -/
theorem effect_of_step (hok : s.Ok) (hx : s.treg.Indexed) (h : step a s = some s') :
    Effect s a s' := by
  cases a with
  | startCall i config =>
    obtain ⟨-, rfl⟩ := State.startCall_inv h
    exact .of_procs_eq rfl rfl (.of_eq hx rfl)
  | startCheck i =>
    obtain ⟨config, -, ⟨-, rfl⟩ | ⟨-, rfl⟩⟩ := State.startCheck_inv h
    · exact .of_procs_eq rfl rfl (.of_eq hx rfl)
    · exact .of_procs_eq rfl rfl (.of_eq hx rfl)
  | fork l os pid m => exact .of_fork hx h
  | metrics c err => exact .of_prepare hx rfl (by simp) rfl rfl h
  | logger c err => exact .of_prepare hx rfl (by simp) rfl rfl h
  | submitLogging c fate => exact .of_submitLogging hx h
  | submitProcess c fate => exact .of_submitProcess hx h
  | submitMetrics c fate => exact .of_submitMetrics hx h
  | insert c => exact .of_insert hx h
  | stopRemove i name =>
    obtain ⟨-, ⟨-, rfl⟩ | ⟨entry, -, rfl⟩⟩ := State.stopRemove_inv h
    · exact .of_procs_eq rfl rfl (.of_eq hx rfl)
    · exact .of_procs_eq rfl rfl (.of_eq hx rfl)
  | stopKill i poisoned => exact .of_stopKill hx h
  | stop i name poisoned => exact .of_stop hx h
  | exit c => exact .of_exit hx h
  | coordinate c => exact .of_coordinate hx h
  | monitorOpen c err => exact .of_monitorOpen hok hx h
  | monitorFail c e => exact .of_monitorFail hx h
  | monitorLose c poisoned => exact .of_monitorLose hok hx h
  | monitorExit c => exact .of_monitorExit hok hx h
  | recv =>
    obtain ⟨r, requests, -, -, rfl⟩ := State.recv_inv h
    exact .of_procs_eq rfl rfl (.of_eq hx rfl)
  | remove =>
    obtain ⟨r, -, ⟨-, rfl⟩ | ⟨e, -, rfl⟩⟩ := State.remove_inv h
    · exact .of_procs_eq rfl rfl (.of_eq hx rfl)
    · exact .of_procs_eq rfl rfl (.of_eq hx rfl)
  | decide poisoned => exact .of_decide hx h
  | removeAgain =>
    obtain ⟨r, -, rfl⟩ := State.removeAgain_inv h
    exact .of_procs_eq rfl rfl (.of_eq hx rfl)

end Yapm
