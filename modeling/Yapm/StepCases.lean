import Yapm.RunInvariant
import Yapm.TaskIndex

/-!
# The cases of a step

What can happen in a step that has cases : a submission is refused or not
(`TaskRegistry.refuses`), a launch goes on or fails (`State.failsLaunch`), a fork gives the
daemon a process or does not (`returnsPid`). `keeps_of_spares` and `starts_of_step` say what
becomes of the handler and of the calls of start before their fork.
-/

namespace Yapm

/-- A submission that is refused when the pid has a record of the type gives an error. -/
def TaskRegistry.refuses (r : TaskRegistry) (pid : Pid) (tty : TaskType) (fate : Submission) :
    Bool :=
  fate ≠ .accepted || (r.getTasksByPid pid).any (·.ty = tty)

theorem TaskRegistry.refuses_of_error {r : TaskRegistry} {pid : Pid} {tty : TaskType}
    {desc : String} {fate : Submission} {e : AsyncError}
    (h : (r.submitUnique pid tty desc fate).1 = .error e) : r.refuses pid tty fate := by
  unfold TaskRegistry.refuses
  by_contra hrefuses
  simp only [Bool.or_eq_true, decide_eq_true_eq, not_or, not_not, Bool.not_eq_true] at hrefuses
  obtain ⟨rfl, hany⟩ := hrefuses
  simp [submitUnique, hany, submit] at h

theorem TaskRegistry.not_refuses_of_ok {r : TaskRegistry} {pid : Pid} {tty : TaskType}
    {desc : String} {fate : Submission} {id : TaskId}
    (h : (r.submitUnique pid tty desc fate).1 = .ok id) : r.refuses pid tty fate = false := by
  unfold TaskRegistry.refuses
  cases fate with
  | lockPoisoned msg => simp [submitUnique] at h
  | channelClosed msg =>
    unfold submitUnique at h
    simp only at h
    split at h <;> simp [submit] at h
  | accepted =>
    unfold submitUnique at h
    simp only at h
    split at h
    · cases h
    · rename_i hany
      simpa using hany

/-- The fork gives the daemon a process. -/
def returnsPid (os : Os) (config : ProcessConfig) (pid : Pid) (m : Machine) : Bool :=
  match (createChildExecContextFromConfig os config pid m).parent,
    (createChildExecContextFromConfig os config pid m).child with
  | .returned (.ok _), some _ => true
  | _, _ => false

/-! ## Failures -/

/-- The task runs. -/
def Watch.isSpawned : Watch → Bool
  | .opening _ | .watching _ _ => true
  | _ => false

/-- The process of a launch at the phase, if the launch fails there. -/
def State.failsAt (s : State) (c : ProcId) (phase : Phase) (fails : Proc → Bool) :
    Option ProcId :=
  match s.procs[c]? with
  | some p => if p.phase = phase && fails p then some c else none
  | none => none

/-- The process whose launch the step makes fail. -/
def State.failsLaunch (s : State) : Action → Option ProcId
  | .metrics c err => s.failsAt c .metrics fun _ => err.isSome
  | .logger c err => s.failsAt c .logger fun _ => err.isSome
  | .submitProcess c fate => s.failsAt c .submitProcess fun p => s.treg.refuses p.pid .process fate
  | .submitMetrics c fate => s.failsAt c .submitMetrics fun p => s.treg.refuses p.pid .metrics fate
  | _ => none

/-- The pid of the process whose launch the step makes fail. -/
def State.failedPids (s : State) (a : Action) : List Pid :=
  ((s.failsLaunch a).bind fun c => (s.procs[c]?).map (·.pid)).toList

variable {s s' : State} {a : Action} {c : ProcId} {p : Proc} {pid : Pid}

namespace State

theorem failsAt_of_phase (hp : s.procs[c]? = some p) {phase : Phase} (hphase : p.phase = phase)
    (fails : Proc → Bool) : s.failsAt c phase fails = if fails p then some c else none := by
  simp [failsAt, hp, hphase]

theorem failsAt_eq_some {phase : Phase} {fails : Proc → Bool} {d : ProcId}
    (h : s.failsAt c phase fails = some d) :
    c = d ∧ ∃ p, s.procs[d]? = some p ∧ p.phase = phase := by
  unfold failsAt at h
  split at h
  · rename_i p hp
    obtain ⟨hphase, h⟩ := Option.ite_none_right_eq_some.mp h
    obtain rfl := Option.some_inj.mp h
    simp only [Bool.and_eq_true, decide_eq_true_eq] at hphase
    exact ⟨rfl, p, hp, hphase.1⟩
  · cases h

theorem failedPids_eq (hp : s.procs[c]? = some p) (h : s.failsLaunch a = some c) :
    s.failedPids a = [p.pid] := by
  simp [failedPids, h, hp]

theorem failedPids_nil (h : s.failsLaunch a = none) : s.failedPids a = [] := by
  simp [failedPids, h]

/-! ## Launches, forks and exits -/

/-- A step that needs nothing of other actors goes on, or fails. -/
theorem prepare_cases {phase next : Phase} {failure : String} {err : Option String}
    (hfails : s.failsLaunch a = s.failsAt c phase fun _ => err.isSome)
    (h : s.prepare c phase next failure err = some s') :
    ∃ p, s.procs[c]? = some p ∧ p.phase = phase ∧
      (s.failsLaunch a = none ∧ s' = s.modifyProc c ({ · with phase := next }) ∨
        s.failsLaunch a = some c ∧
          ∃ msg, s' = (s.sigkill p.pid).failLaunch c p.launcher msg) := by
  obtain ⟨p, hp, hphase, ⟨rfl, rfl⟩ | ⟨e, rfl, rfl⟩⟩ := prepare_inv h
  · exact ⟨p, hp, hphase, .inl ⟨hfails.trans (failsAt_of_phase hp hphase _), rfl⟩⟩
  · exact ⟨p, hp, hphase, .inr ⟨hfails.trans (failsAt_of_phase hp hphase _), _, rfl⟩⟩

/-- A launch fails when its submission gives an error, and goes on when it does not. -/
theorem failsLaunch_of_submitted {pid : Pid} {tty : TaskType} {desc : String} {fate : Submission}
    {call : Except AsyncError TaskId × TaskRegistry}
    (hfails : s.failsLaunch a = if s.treg.refuses pid tty fate then some c else none)
    (hcall : s.treg.submitUnique pid tty desc fate = call) :
    (∀ id, call.1 = .ok id → s.failsLaunch a = none) ∧
      ∀ e, call.1 = .error e → s.failsLaunch a = some c := by
  subst hcall
  constructor
  · intro id hid
    simp [hfails, TaskRegistry.not_refuses_of_ok hid]
  · intro e he
    rw [hfails, if_pos (TaskRegistry.refuses_of_error he)]

/-- The monitoring task is submitted, or its submission fails the launch. -/
theorem submitProcess_cases {fate : Submission} (h : s.submitProcess c fate = some s') :
    ∃ p desc treg, s.procs[c]? = some p ∧ p.phase = .submitProcess ∧
      ((∃ id, s.treg.submitUnique p.pid .process desc fate = (.ok id, treg) ∧
        s.failsLaunch (.submitProcess c fate) = none ∧
        s' = { s with treg }.modifyProc c
          ({ · with phase := .submitMetrics, watch := .queued id })) ∨
      ∃ e, s.treg.submitUnique p.pid .process desc fate = (.error e, treg) ∧
        s.failsLaunch (.submitProcess c fate) = some c ∧
        s' = { s with treg }.failSubmission c p fate e) := by
  obtain ⟨p, desc, treg, hp, hphase, hcases⟩ := submitProcess_inv h
  have hfails : s.failsLaunch (.submitProcess c fate) =
      if s.treg.refuses p.pid .process fate then some c else none :=
    failsAt_of_phase hp hphase _
  refine ⟨p, desc, treg, hp, hphase, ?_⟩
  rcases hcases with ⟨id, hresult, rfl⟩ | ⟨e, hresult, rfl⟩
  · exact .inl ⟨id, hresult, (failsLaunch_of_submitted hfails hresult).1 id rfl, rfl⟩
  · exact .inr ⟨e, hresult, (failsLaunch_of_submitted hfails hresult).2 e rfl, rfl⟩

/-- The metrics task is submitted, or its submission fails the launch. -/
theorem submitMetrics_cases {fate : Submission} (h : s.submitMetrics c fate = some s') :
    ∃ p desc treg, s.procs[c]? = some p ∧ p.phase = .submitMetrics ∧
      ((∃ id, s.treg.submitUnique p.pid .metrics desc fate = (.ok id, treg) ∧
        s.failsLaunch (.submitMetrics c fate) = none ∧
        s' = { s with treg }.modifyProc c ({ · with phase := .insert })) ∨
      ∃ e, s.treg.submitUnique p.pid .metrics desc fate = (.error e, treg) ∧
        s.failsLaunch (.submitMetrics c fate) = some c ∧
        s' = { s with treg }.failSubmission c p fate e) := by
  obtain ⟨p, desc, treg, hp, hphase, hcases⟩ := submitMetrics_inv h
  have hfails : s.failsLaunch (.submitMetrics c fate) =
      if s.treg.refuses p.pid .metrics fate then some c else none :=
    failsAt_of_phase hp hphase _
  refine ⟨p, desc, treg, hp, hphase, ?_⟩
  rcases hcases with ⟨id, hresult, rfl⟩ | ⟨e, hresult, rfl⟩
  · exact .inl ⟨id, hresult, (failsLaunch_of_submitted hfails hresult).1 id rfl, rfl⟩
  · exact .inr ⟨e, hresult, (failsLaunch_of_submitted hfails hresult).2 e rfl, rfl⟩

/-- A monitoring task reaps its process, and fails or panics. -/
theorem monitorLose_cases (hok : s.Ok) {poisoned : Bool} (h : s.monitorLose c poisoned = some s') :
    ∃ p id, s.procs[c]? = some p ∧ p.watch.isSpawned ∧
      s'.procs = s.procs.modify c ({ · with watch := .ended, status := .reaped }) ∧
      (s'.treg = s.treg ∨
        s'.treg = (s.failWatch c id (LinuxErrorManager.ofErrno einval).display).treg) ∧
      s.Keeps s' := by
  obtain ⟨p, id, d, q, treg, hp, hw, -, -, htreg, rfl⟩ := State.monitorLose_inv h
  obtain rfl := (hok c p hp).watching id d hw
  exact ⟨p, id, hp, by rw [hw]; rfl, List.modify_modify_eq .., htreg, rfl, rfl, rfl, rfl⟩

/-- A monitoring task reaps its process. -/
theorem monitorExit_cases (hok : s.Ok) (h : s.monitorExit c = some s') :
    ∃ p, s.procs[c]? = some p ∧ p.watch.isSpawned ∧
      s'.procs = s.procs.modify c ({ · with watch := .ended, status := .reaped }) ∧
      s'.treg = s.treg ∧ s'.registry = s.registry ∧ s'.handler = s.handler ∧
      s'.stops = s.stops ∧
      s'.requests = if s.handler.receives then s.requests ++ [⟨p.name, c⟩] else s.requests := by
  obtain ⟨p, id, d, q, s₁, hp, hw, -, -, rfl, hcases⟩ := monitorExit_inv h
  obtain rfl := (hok c p hp).watching id d hw
  have hspawned : p.watch.isSpawned := by rw [hw]; rfl
  have hprocs : ((s.procs.modify d ({ · with watch := .ended })).modify d
      ({ · with status := .reaped })) =
      s.procs.modify d ({ · with watch := .ended, status := .reaped }) :=
    List.modify_modify_eq ..
  rcases hcases with ⟨hreceives, rfl⟩ | ⟨hreceives, rfl⟩
  · exact ⟨p, hp, hspawned, hprocs, rfl, rfl, rfl, rfl, (if_pos hreceives).symm⟩
  · exact ⟨p, hp, hspawned, hprocs, rfl, rfl, rfl, rfl, by simp [hreceives, modifyProc]⟩

/-- A fork gives the daemon a process, or an error, after which the process may be there. -/
theorem fork_cases {l : Launcher} {os : Os} {m : Machine} (h : s.fork l os pid m = some s') :
    ∃ name config, s.forkConfig l = some (name, config) ∧ s.pidTaken pid = false ∧
      s'.treg = s.treg ∧
      (returnsPid os config pid m ∧
        s'.procs = s.procs ++ [⟨pid, name, config, .alive, l, .metrics, .none⟩] ∨
      returnsPid os config pid m = false ∧ (s'.procs = s.procs ∨ os.losesChild ∧
        s'.procs = s.procs ++ [⟨pid, name, config, .alive, l, .leaked, .none⟩])) := by
  obtain ⟨name, config, hconfig, hfree, hcases⟩ := fork_inv h
  refine ⟨name, config, hconfig, hfree, ?_⟩
  rcases hcases with ⟨ctx, exit, hparent, hchild, rfl⟩ | ⟨e, hparent, hchild, rfl⟩ |
    ⟨e, exit, hparent, hchild, rfl⟩
  · have hreturns : returnsPid os config pid m := by simp [returnsPid, hparent, hchild]
    cases l with
    | start i => exact ⟨rfl, .inl ⟨hreturns, rfl⟩⟩
    | handler => exact ⟨rfl, .inl ⟨hreturns, rfl⟩⟩
  · have hreturns : returnsPid os config pid m = false := by simp [returnsPid, hparent]
    cases l with
    | start i => exact ⟨rfl, .inr ⟨hreturns, .inl rfl⟩⟩
    | handler => exact ⟨rfl, .inr ⟨hreturns, .inl rfl⟩⟩
  · have hreturns : returnsPid os config pid m = false := by simp [returnsPid, hparent]
    have hloses := losesChild_of_error os config pid m hparent hchild
    cases l with
    | start i => exact ⟨rfl, .inr ⟨hreturns, .inr ⟨hloses, rfl⟩⟩⟩
    | handler => exact ⟨rfl, .inr ⟨hreturns, .inr ⟨hloses, rfl⟩⟩⟩

end State

/-! ## Handler and starts -/

/-- The step is not one of the handler or of a start that can change them. -/
def Action.spares : Action → Bool
  | .submitLogging _ _ | .stopRemove _ _ | .stopKill _ _ | .stop _ _ _ | .exit _ | .coordinate _
  | .monitorOpen _ _ | .monitorFail _ _ | .monitorLose _ _
  | .monitorExit _ => true
  | _ => false

theorem State.stopKill_keeps {i : ℕ} {poisoned : Bool} (h : s.stopKill i poisoned = some s') :
    s'.handler = s.handler ∧ s'.starts = s.starts := by
  obtain ⟨k, s₁, result, -, rfl, ⟨-, rfl⟩ | ⟨-, rfl⟩⟩ := State.stopKill_inv h
  · exact ⟨rfl, rfl⟩
  · exact ⟨rfl, rfl⟩

theorem State.stopRemove_keeps {i : ℕ} {name : String} (h : s.stopRemove i name = some s') :
    s'.handler = s.handler ∧ s'.starts = s.starts := by
  obtain ⟨-, ⟨-, rfl⟩ | ⟨entry, -, rfl⟩⟩ := State.stopRemove_inv h
  · exact ⟨rfl, rfl⟩
  · exact ⟨rfl, rfl⟩

theorem keeps_of_spares (ha : a.spares) (h : step a s = some s') :
    s'.handler = s.handler ∧ s'.starts = s.starts := by
  cases a with
  | submitLogging c fate =>
    obtain ⟨p, -, -, rfl⟩ := State.submitLogging_inv h
    exact ⟨rfl, rfl⟩
  | stopRemove i name => exact State.stopRemove_keeps h
  | stopKill i poisoned => exact State.stopKill_keeps h
  | stop i name poisoned =>
    obtain ⟨-, ⟨-, rfl⟩ | ⟨entry, s₁, -, rfl, -, hkill⟩⟩ := State.stop_inv h
    · exact ⟨rfl, rfl⟩
    · have hkeeps := State.stopKill_keeps hkill
      exact hkeeps
  | exit c =>
    obtain ⟨p, -, -, rfl⟩ := State.exit_inv h
    exact ⟨rfl, rfl⟩
  | coordinate c =>
    obtain ⟨p, id, treg, -, -, -, -, rfl⟩ := State.coordinate_inv h
    exact ⟨rfl, rfl⟩
  | monitorOpen c err =>
    obtain ⟨p, id, -, -, ⟨d, -, -, rfl⟩ | ⟨e, -, rfl⟩⟩ := State.monitorOpen_inv h
    · exact ⟨rfl, rfl⟩
    · exact ⟨rfl, rfl⟩
  | monitorFail c e =>
    obtain ⟨p, id, d, -, -, rfl⟩ := State.monitorFail_inv h
    exact ⟨rfl, rfl⟩
  | monitorLose c poisoned =>
    obtain ⟨p, id, d, q, treg, -, -, -, -, -, rfl⟩ := State.monitorLose_inv h
    exact ⟨rfl, rfl⟩
  | monitorExit c =>
    obtain ⟨p, id, d, q, s₁, -, -, -, -, rfl, ⟨-, rfl⟩ | ⟨-, rfl⟩⟩ := State.monitorExit_inv h
    · exact ⟨rfl, rfl⟩
    · exact ⟨rfl, rfl⟩
  | _ => simp [Action.spares] at ha

/-- A call of start before its fork comes, goes on past its check, or is over. -/
inductive State.Starts (s : State) : Action → State → Prop
  | same {a : Action} {s' : State} (hstarts : s'.starts = s.starts) : Starts s a s'
  | called {i : ℕ} {config : ProcessConfig} {s' : State}
      (hstarts : s'.starts = Function.update s.starts i (some (.checking config))) :
      Starts s (.startCall i config) s'
  | checked {i : ℕ} {config : ProcessConfig} {s' : State}
      (hi : s.starts i = some (.checking config))
      (hstarts : s'.starts = Function.update s.starts i
        (if (s.registry config.name).isSome then none else some (.forking config))) :
      Starts s (.startCheck i) s'
  | forked {i : ℕ} {os : Os} {pid : Pid} {m : Machine} {s' : State}
      (hstarts : s'.starts = Function.update s.starts i none) :
      Starts s (.fork (.start i) os pid m) s'

theorem State.failLaunch_starts (l : Launcher) (msg : String) :
    (s.failLaunch c l msg).starts = s.starts := by
  cases l <;> rfl

theorem State.failSubmission_starts (fate : Submission) (e : AsyncError) :
    (s.failSubmission c p fate e).starts = s.starts := by
  rw [failSubmission, failLaunch_starts]
  cases fate <;> rfl

theorem starts_of_step (h : step a s = some s') : s.Starts a s' := by
  cases a with
  | startCall i config =>
    obtain ⟨-, rfl⟩ := State.startCall_inv h
    exact .called rfl
  | startCheck i =>
    obtain ⟨config, hi, ⟨hname, rfl⟩ | ⟨hname, rfl⟩⟩ := State.startCheck_inv h
    · exact .checked hi (by rw [if_pos hname]; rfl)
    · exact .checked hi (by rw [if_neg (by simp [hname])])
  | fork l os pid m =>
    obtain ⟨name, config, -, -, ⟨ctx, exit, -, -, rfl⟩ | ⟨e, -, -, rfl⟩ | ⟨e, exit, -, -, rfl⟩⟩ :=
      State.fork_inv h <;>
    · cases l with
      | start i => exact .forked rfl
      | handler => exact .same rfl
  | metrics c err =>
    obtain ⟨p, -, -, ⟨-, rfl⟩ | ⟨-, msg, rfl⟩⟩ := State.prepare_cases (a := .metrics c err) rfl h
    · exact .same rfl
    · exact .same (State.failLaunch_starts ..)
  | logger c err =>
    obtain ⟨p, -, -, ⟨-, rfl⟩ | ⟨-, msg, rfl⟩⟩ := State.prepare_cases (a := .logger c err) rfl h
    · exact .same rfl
    · exact .same (State.failLaunch_starts ..)
  | submitProcess c fate =>
    obtain ⟨p, desc, treg, -, -, ⟨id, -, -, rfl⟩ | ⟨e, -, -, rfl⟩⟩ := State.submitProcess_cases h
    · exact .same rfl
    · exact .same (State.failSubmission_starts ..)
  | submitMetrics c fate =>
    obtain ⟨p, desc, treg, -, -, ⟨id, -, -, rfl⟩ | ⟨e, -, -, rfl⟩⟩ := State.submitMetrics_cases h
    · exact .same rfl
    · exact .same (State.failSubmission_starts ..)
  | insert c =>
    obtain ⟨p, s₁, -, -, rfl, ⟨i, -, rfl⟩ | ⟨-, rfl⟩⟩ := State.insert_inv h
    · exact .same rfl
    · exact .same rfl
  | recv =>
    obtain ⟨r, requests, -, -, rfl⟩ := State.recv_inv h
    exact .same rfl
  | remove =>
    obtain ⟨r, -, ⟨-, rfl⟩ | ⟨e, -, rfl⟩⟩ := State.remove_inv h
    · exact .same rfl
    · exact .same rfl
  | decide poisoned =>
    obtain ⟨r, e, -, ⟨-, rfl⟩ | ⟨-, rfl⟩⟩ := State.decide_inv h <;>
    · cases poisoned <;> exact .same rfl
  | removeAgain =>
    obtain ⟨r, -, rfl⟩ := State.removeAgain_inv h
    exact .same rfl
  | _ => exact .same (keeps_of_spares rfl h).2

/-- A start call is as before, or has just come, or has just passed its check. -/
theorem State.Starts.origin (h : s.Starts a s') {i : ℕ} {k : StartCall}
    (hk : s'.starts i = some k) :
    s.starts i = some k ∨ (∃ config, a = .startCall i config ∧ k = .checking config) ∨
      ∃ config, a = .startCheck i ∧ s.starts i = some (.checking config) ∧
        s.registry config.name = none ∧ k = .forking config := by
  have hupdate {j : ℕ} {k' : Option StartCall}
      (hstarts : s'.starts = Function.update s.starts j k') :
      i = j ∧ k' = some k ∨ s.starts i = some k := by
    rw [hstarts] at hk
    exact eq_or_of_update hk
  cases h with
  | same hstarts => exact .inl (by rwa [hstarts] at hk)
  | called hstarts =>
    rcases hupdate hstarts with ⟨rfl, hcalled⟩ | hold
    · exact .inr (.inl ⟨_, rfl, (Option.some_inj.mp hcalled).symm⟩)
    · exact .inl hold
  | checked hchecking hstarts =>
    rcases hupdate hstarts with ⟨rfl, hchecked⟩ | hold
    · split at hchecked
      · cases hchecked
      · rename_i hfree
        exact .inr (.inr ⟨_, rfl, hchecking, by simpa using hfree,
          (Option.some_inj.mp hchecked).symm⟩)
    · exact .inl hold
  | forked hstarts =>
    rcases hupdate hstarts with ⟨-, hforked⟩ | hold
    · cases hforked
    · exact .inl hold

/-- The handler forks what its policy lets it restart. -/
theorem State.handler_of_decide {poisoned : Bool} {r : RestartRequest} {e : Entry}
    (hh : s.handler = .deciding r e) (h : s.decide poisoned = some s') :
    s'.handler = if e.task.respawn.1 then .forking r.name e.task.respawn.2.config
      else .removingAgain r := by
  obtain ⟨r', e', hh', hcases⟩ := State.decide_inv h
  obtain ⟨rfl, rfl⟩ := Handler.deciding.inj (hh.symm.trans hh')
  rcases hcases with ⟨hrespawn, rfl⟩ | ⟨hrespawn, rfl⟩
  · simp [hrespawn]
  · simp [hrespawn]

end Yapm
