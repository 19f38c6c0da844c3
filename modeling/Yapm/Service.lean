import Mathlib.Data.Fintype.EquivFin
import Yapm.Effects

/-!
# Whether the restart handler goes on

The handler serves one request after the other. It goes on (`State.Serves`) when it waits
at its channel or has a step to take, and so for all processes that will exit. The failure
of any step of one restart makes it return, and a request for a name that is not registered
makes it panic. These are the steps of `State.endsHandler`. All along a run the handler
goes on exactly when the run has none of them (`serves_iff`).
-/

namespace Yapm

/-- The step is one of the handler's. -/
def State.byHandler (s : State) : Action → Bool
  | .recv | .remove | .decide _ | .removeAgain | .fork .handler _ _ _ => true
  | .metrics c _ | .logger c _ | .submitLogging c _ | .submitProcess c _ | .submitMetrics c _
  | .insert c => (s.procs[c]?).any (·.launcher = .handler)
  | _ => false

/-- The handler waits for a request, or has a step to take. -/
def State.Serves (s : State) : Prop :=
  s.handler = .idle ∨ ∃ a s', s.byHandler a ∧ step a s = some s'

/-- The fork returns an error. -/
def failsFork (os : Os) (config : ProcessConfig) (pid : Pid) (m : Machine) : Bool :=
  match (createChildExecContextFromConfig os config pid m).parent with
  | .returned (.error _) => true
  | _ => false

/-- A step of a restart fails, or the handler looks up a name that is not registered. -/
def State.endsHandler (s : State) : Action → Bool
  | .fork .handler os pid m => (s.forkConfig .handler).any (failsFork os ·.2 pid m)
  | .remove =>
    match s.handler with
    | .removing r => (s.registry r.name).isNone
    | _ => false
  | a => (s.failsLaunch a).any fun c => (s.procs[c]?).any (·.launcher = .handler)

/-- What the handler launches is being launched. -/
def State.Launching (s : State) : Prop :=
  ∀ name c, s.handler = .launching name c →
    ∃ p : Proc, s.procs[c]? = some p ∧ p.launcher = .handler ∧ p.phase.inProgress

variable {s s' : State} {a : Action} {c : ProcId} {p p' : Proc}

/-! ## Launches that fail -/

namespace State

theorem failLaunch_handler (l : Launcher) (msg : String) :
    (s.failLaunch c l msg).handler = s.handler.afterFailure l := by
  cases l <;> rfl

theorem failSubmission_handler (fate : Submission) (e : AsyncError) :
    (s.failSubmission c p fate e).handler = s.handler.afterFailure p.launcher := by
  rw [failSubmission, failLaunch_handler, (Change.keeps_killTasks _ _ _).handler]
  rfl

/-- A step of a launch fails, and with it the handler if it is the handler's. Otherwise it
leaves the handler. -/
def Fails (s : State) (a : Action) (s' : State) : Prop :=
  (∃ c p, s.procs[c]? = some p ∧ s.failsLaunch a = some c ∧ p.phase.inProgress ∧
    s'.handler = s.handler.afterFailure p.launcher) ∨
  s.failsLaunch a = none ∧ s'.handler = s.handler

namespace Fails

theorem of_prepare {phase next : Phase} {failure : String} {err : Option String}
    (hin : phase.inProgress) (hfails : s.failsLaunch a = s.failsAt c phase fun _ => err.isSome)
    (h : s.prepare c phase next failure err = some s') : s.Fails a s' := by
  obtain ⟨p, hp, hphase, ⟨hfails, rfl⟩ | ⟨hfails, msg, rfl⟩⟩ := prepare_cases hfails h
  · exact .inr ⟨hfails, rfl⟩
  · exact .inl ⟨c, p, hp, hfails, by rw [hphase, hin], failLaunch_handler ..⟩

theorem of_submitProcess {fate : Submission} (h : s.submitProcess c fate = some s') :
    s.Fails (.submitProcess c fate) s' := by
  obtain ⟨p, desc, treg, hp, hphase, ⟨id, -, hfails, rfl⟩ | ⟨e, -, hfails, rfl⟩⟩ :=
    submitProcess_cases h
  · exact .inr ⟨hfails, rfl⟩
  · exact .inl ⟨c, p, hp, hfails, by rw [hphase]; rfl, failSubmission_handler ..⟩

theorem of_submitMetrics {fate : Submission} (h : s.submitMetrics c fate = some s') :
    s.Fails (.submitMetrics c fate) s' := by
  obtain ⟨p, desc, treg, hp, hphase, ⟨id, -, hfails, rfl⟩ | ⟨e, -, hfails, rfl⟩⟩ :=
    submitMetrics_cases h
  · exact .inr ⟨hfails, rfl⟩
  · exact .inl ⟨c, p, hp, hfails, by rw [hphase]; rfl, failSubmission_handler ..⟩

end Fails

end State

/-! ## Whether the handler ends -/

/-- The rule for steps of a launch. -/
theorem State.Fails.receives_iff (h : s.Fails a s') (hreceives : s.handler.receives)
    (hends : s.endsHandler a =
      (s.failsLaunch a).any fun c => (s.procs[c]?).any (·.launcher = .handler)) :
    s'.handler.receives ↔ s.endsHandler a = false := by
  rw [hends]
  rcases h with ⟨c, p, hp, hfails, -, hhandler⟩ | ⟨hfails, hhandler⟩
  · rw [hhandler, hfails]
    cases hl : p.launcher with
    | start i => simpa [hp, hl, Handler.afterFailure] using hreceives
    | handler => simp [hp, hl, Handler.afterFailure, Handler.receives]
  · simpa [hhandler, hfails] using hreceives

theorem receives_of_fork {l : Launcher} {os : Os} {pid : Pid} {m : Machine}
    (hreceives : s.handler.receives) (h : s.fork l os pid m = some s') :
    s'.handler.receives ↔ s.endsHandler (.fork l os pid m) = false := by
  obtain ⟨name, config, hconfig, -, hcases⟩ := State.fork_inv h
  cases l with
  | start i =>
    have hkeeps : s'.handler = s.handler := by
      rcases hcases with ⟨ctx, exit, -, -, rfl⟩ | ⟨e, -, -, rfl⟩ | ⟨e, exit, -, -, rfl⟩ <;> rfl
    simpa [hkeeps, State.endsHandler, State.failsLaunch] using hreceives
  | handler =>
    simp only [State.endsHandler, hconfig, Option.any_some, failsFork]
    rcases hcases with ⟨ctx, exit, hparent, -, rfl⟩ | ⟨e, hparent, -, rfl⟩ |
      ⟨e, exit, hparent, -, rfl⟩
    · simp [hparent, State.addProc, State.forkDone, Handler.receives]
    · simp [hparent, State.forkFailed, Handler.receives]
    · simp [hparent, State.addProc, State.forkFailed, Handler.receives]

/-- A handler that receives ends in exactly the steps that end it. -/
theorem receives_of_step (hreceives : s.handler.receives) (h : step a s = some s') :
    s'.handler.receives ↔ s.endsHandler a = false := by
  cases a with
  | fork l os pid m => exact receives_of_fork hreceives h
  | metrics c err => exact (State.Fails.of_prepare rfl rfl h).receives_iff hreceives rfl
  | logger c err => exact (State.Fails.of_prepare rfl rfl h).receives_iff hreceives rfl
  | submitProcess c fate => exact (State.Fails.of_submitProcess h).receives_iff hreceives rfl
  | submitMetrics c fate => exact (State.Fails.of_submitMetrics h).receives_iff hreceives rfl
  | remove =>
    obtain ⟨r, hh, ⟨hnone, rfl⟩ | ⟨e, he, rfl⟩⟩ := State.remove_inv h
    · simp [State.endsHandler, hh, hnone, Handler.receives]
    · simp [State.endsHandler, hh, he, Handler.receives]
  | startCall i config =>
    obtain ⟨-, rfl⟩ := State.startCall_inv h
    exact iff_of_true hreceives rfl
  | startCheck i =>
    obtain ⟨config, -, ⟨-, rfl⟩ | ⟨-, rfl⟩⟩ := State.startCheck_inv h
    · exact iff_of_true hreceives rfl
    · exact iff_of_true hreceives rfl
  | insert c =>
    obtain ⟨p, s₁, -, -, rfl, ⟨i, -, rfl⟩ | ⟨-, rfl⟩⟩ := State.insert_inv h
    · exact iff_of_true hreceives rfl
    · exact iff_of_true rfl rfl
  | recv =>
    obtain ⟨r, requests, -, -, rfl⟩ := State.recv_inv h
    exact iff_of_true rfl rfl
  | decide poisoned =>
    obtain ⟨r, e, -, ⟨-, rfl⟩ | ⟨-, rfl⟩⟩ := State.decide_inv h
    · exact iff_of_true rfl rfl
    · exact iff_of_true rfl rfl
  | removeAgain =>
    obtain ⟨r, -, rfl⟩ := State.removeAgain_inv h
    exact iff_of_true rfl rfl
  | _ =>
    obtain ⟨hhandler, -⟩ := keeps_of_spares rfl h
    exact iff_of_true (by rwa [hhandler]) rfl

/-! ## Whether the handler has a step to take -/

theorem Phase.inProgress_iff {phase : Phase} : phase.inProgress ↔
    phase ≠ .registered ∧ phase ≠ .failed ∧ phase ≠ .leaked := by
  cases phase <;> simp [Phase.inProgress]

theorem Phase.next_ne_failed {phase phase' : Phase} (h : phase.next = some phase') :
    phase' ≠ .failed := by
  rintro rfl
  cases phase <;> simp [Phase.next] at h

/-- When a launch of the handler's fails the handler returns. -/
theorem State.handler_of_failsLaunch (hp : s.procs[c]? = some p) (hl : p.launcher = .handler)
    (hfails : s.failsLaunch a = some c) (h : step a s = some s') : s'.handler = .stopped := by
  have hstep : s.Fails a s' := by
    cases a with
    | metrics c err => exact .of_prepare rfl rfl h
    | logger c err => exact .of_prepare rfl rfl h
    | submitProcess c fate => exact .of_submitProcess h
    | submitMetrics c fate => exact .of_submitMetrics h
    | _ => cases hfails
  rcases hstep with ⟨d, q, hq, hd, -, hhandler⟩ | ⟨hnone, -⟩
  · obtain rfl := Option.some_inj.mp (hfails.symm.trans hd)
    obtain rfl := Option.some_inj.mp (hp.symm.trans hq)
    rw [hhandler, hl]
    rfl
  · rw [hfails] at hnone
    cases hnone

namespace State.Launching

theorem init : Launching .init := by
  intro name c h
  simp [State.init] at h

/-- The rule for steps that leave the handler and add no process. -/
theorem of_evolves {x : Option ProcId} (hl : s.Launching) (heff : Effect s a s')
    (hstep : Yapm.step a s = some s') (hev : s.Evolves x s')
    (hx : ∀ name (c : ProcId) (p' : Proc), s.handler = .launching name c →
      s'.procs[c]? = some p' → p'.phase = .registered → x ≠ some c)
    (hhandler : s'.handler = s.handler) : s'.Launching := by
  intro name c hh
  rw [hhandler] at hh
  obtain ⟨p, hp, hlauncher, hin⟩ := hl name c hh
  obtain ⟨p', hp', hpev⟩ := hev.procs c p hp
  obtain ⟨hregistered, hfailed, hleaked⟩ := Phase.inProgress_iff.mp hin
  refine ⟨p', hp', hpev.launcher.trans hlauncher,
    Phase.inProgress_iff.mpr ⟨fun hr => ?_, fun hf => ?_, fun hk => hleaked (hpev.leaked hk)⟩⟩
  · exact (hpev.registered hr).elim hregistered (hx name c p' hh hp' hr)
  · rcases heff.procs c p' hp' with ⟨q, hq, hmoves⟩ | ⟨_, _, _, -, -, -, -, hmetrics | ⟨hk, -⟩⟩
    · obtain rfl := Option.some_inj.mp (hp.symm.trans hq)
      rcases hmoves.phase with hphase | ⟨hnext, -⟩ | ⟨hfails, -⟩
      · exact hfailed (hphase.symm.trans hf)
      · exact Phase.next_ne_failed hnext hf
      · rw [State.handler_of_failsLaunch hp hlauncher hfails hstep, hh] at hhandler
        cases hhandler
    · rw [hf] at hmetrics
      cases hmetrics
    · rw [hf] at hk
      cases hk

theorem of_ne (hne : ∀ name c, s'.handler ≠ .launching name c) : s'.Launching :=
  fun name c h => absurd h (hne name c)

/-- The rule for a fork whose launcher the handler is not. -/
theorem of_append (hl : s.Launching) (hprocs : s'.procs = s.procs ++ [p])
    (hhandler : s'.handler = s.handler) : s'.Launching := by
  intro name c hh
  rw [hhandler] at hh
  obtain ⟨q, hq, hrest⟩ := hl name c hh
  exact ⟨q, Inv.append_old hprocs hq, hrest⟩

theorem step (hi : Inv s) (hx : s.treg.Indexed) (hl : s.Launching)
    (h : Yapm.step a s = some s') : s'.Launching := by
  have heff := effect_of_step hi.ok hx h
  have hkeeps (hev : s.Evolves none s') (hhandler : s'.handler = s.handler) : s'.Launching :=
    hl.of_evolves heff h hev (fun _ _ _ _ _ _ => by simp) hhandler
  have hfailure (l : Launcher) (hhandler : s'.handler = s.handler.afterFailure l)
      (hstart : s'.handler = s.handler → s'.Launching) : s'.Launching := by
    cases l with
    | start i => exact hstart hhandler
    | handler => exact of_ne (by simp [hhandler, Handler.afterFailure])
  have hchange := change_of_step hi.ok hi.pids h
  cases hchange with
  | quiet hev hk => exact hkeeps hev hk.handler
  | @forked l _ _ _ p hfork hfree hp hprocs htreg hregistry hrequests hstops hhandler =>
    cases l with
    | start i => exact hl.of_append hprocs hhandler
    | handler =>
      intro name c hh
      rw [hhandler, if_pos rfl] at hh
      obtain ⟨rfl, rfl⟩ := Handler.launching.inj hh
      exact ⟨p, by simp [hprocs], by rw [hp], by rw [hp]; rfl⟩
  | forkFailed hprocs htreg hregistry hrequests hstops hhandler hfork =>
    exact hfailure _ hhandler (hkeeps (.of_eq hprocs htreg))
  | leaked hfork hfree hp hspawned hprocs htreg hregistry hrequests hstops hhandler =>
    exact hfailure _ hhandler (hl.of_append hprocs)
  | launchFailed hev hp hin hp' hfailed hregistry hrequests hstops hhandler =>
    exact hfailure _ hhandler (hkeeps hev)
  | @submitted _ c _ p p' hev hp hphase hp' hphase' hk =>
    refine hl.of_evolves heff h hev (fun _ d q _ hq hregistered hd => ?_) hk.handler
    obtain rfl := Option.some_inj.mp hd
    obtain rfl := Option.some_inj.mp (hp'.symm.trans hq)
    simp [hphase'] at hregistered
  | @inserted _ c p p' hev hp hphase hp' hphase' hregistry hrequests hstops hhandler =>
    by_cases hlauncher : p.launcher = .handler
    · rw [if_pos hlauncher] at hhandler
      exact of_ne (by simp [hhandler])
    · rw [if_neg hlauncher] at hhandler
      refine hl.of_evolves heff h hev (fun name d q hd _ _ hcd => ?_) hhandler
      obtain rfl := Option.some_inj.mp hcd
      obtain ⟨q, hq, hql, -⟩ := hl name c hd
      obtain rfl := Option.some_inj.mp (hp.symm.trans hq)
      exact hlauncher hql
  | stopRemoved he hprocs htreg hregistry hhandler hrequests hstops =>
    exact hkeeps (.of_eq hprocs htreg) hhandler
  | stopKilled hev hregistry hhandler hrequests hstops => exact hkeeps hev hhandler
  | stopped he hev hregistry hhandler hrequests hstops hdead => exact hkeeps hev hhandler
  | exitSeen hev hp hlive hp' hreaped hregistry hhandler hreceives hrequests hstops =>
    exact hkeeps hev hhandler
  | removed hh he hprocs htreg hregistry hrequests hstops hhandler =>
    exact of_ne (by simp [hhandler])
  | dropped hh hdrop hev hregistry hrequests hstops hhandler => exact of_ne (by simp [hhandler])
  | respawned hh hev hregistry hrequests hstops hhandler => exact of_ne (by simp [hhandler])
  | received hidle hr => exact of_ne (by simp)
  | notFound hh hr => exact of_ne (by simp)
  | removedAgain hh => exact of_ne (by simp)

end State.Launching

/-- A step of the handler that is enabled. -/
theorem serves_of_isSome (hby : s.byHandler a) (h : (step a s).isSome) : s.Serves := by
  obtain ⟨s', hs'⟩ := Option.isSome_iff_exists.mp h
  exact .inr ⟨a, s', hby, hs'⟩

/-- A launch that is in progress has a step to take. -/
theorem serves_of_inProgress (hp : s.procs[c]? = some p) (hl : p.launcher = .handler)
    (hin : p.phase.inProgress) : s.Serves := by
  have hby : (s.procs[c]?).any (·.launcher = .handler) := by simp [hp, hl]
  cases hphase : p.phase with
  | metrics =>
    refine serves_of_isSome (a := .metrics c none) hby ?_
    simp [step, State.metrics, State.prepare, hp, hphase]
  | logger =>
    refine serves_of_isSome (a := .logger c none) hby ?_
    simp [step, State.logger, State.prepare, hp, hphase]
  | submitLogging =>
    refine serves_of_isSome (a := .submitLogging c .accepted) hby ?_
    simp [step, State.submitLogging, hp, hphase]
  | submitProcess =>
    refine serves_of_isSome (a := .submitProcess c .accepted) hby ?_
    simp only [step, State.submitProcess, hp, hphase, if_true]
    split <;> rfl
  | submitMetrics =>
    refine serves_of_isSome (a := .submitMetrics c .accepted) hby ?_
    simp only [step, State.submitMetrics, hp, hphase, if_true]
    split <;> rfl
  | insert =>
    refine serves_of_isSome (a := .insert c) hby ?_
    simp only [step, State.insert, hp, hphase, if_true]
    split <;> rfl
  | registered => simp [hphase, Phase.inProgress] at hin
  | failed => simp [hphase, Phase.inProgress] at hin
  | leaked => simp [hphase, Phase.inProgress] at hin

theorem exists_pid_free (s : State) : ∃ pid, s.pidTaken pid = false := by
  obtain ⟨pid, hpid⟩ := Infinite.exists_notMem_finset (s.procs.map (·.pid)).toFinset
  refine ⟨pid, List.any_eq_false.mpr fun p hp => ?_⟩
  have hne : p.pid ≠ pid := by
    rintro rfl
    exact hpid (List.mem_toFinset.mpr (List.mem_map_of_mem hp))
  simp [hne]

/-- A system on which no pipe can be made. -/
def pipelessOs : Os :=
  { plainOs with parentFails := fun _ => some badFileDescriptor }

/-- Only a handler that receives takes steps. -/
theorem receives_of_byHandler (hi : Inv s) (hby : s.byHandler a) (h : step a s = some s') :
    s.handler.receives := by
  have hlaunching {c : ProcId} (hby : (s.procs[c]?).any (·.launcher = .handler)) {p : Proc}
      (hp : s.procs[c]? = some p) (hin : p.phase.inProgress) : s.handler.receives := by
    have hl : p.launcher = .handler := by simpa [hp] using hby
    rw [hi.launching c p hp hl hin]
    rfl
  cases a with
  | recv =>
    obtain ⟨r, requests, hidle, -, -⟩ := State.recv_inv h
    rw [hidle]
    rfl
  | remove =>
    obtain ⟨r, hh, -⟩ := State.remove_inv h
    rw [hh]
    rfl
  | decide poisoned =>
    obtain ⟨r, e, hh, -⟩ := State.decide_inv h
    rw [hh]
    rfl
  | removeAgain =>
    obtain ⟨r, hh, -⟩ := State.removeAgain_inv h
    rw [hh]
    rfl
  | fork l os pid m =>
    cases l with
    | start i => simp [State.byHandler] at hby
    | handler =>
      obtain ⟨name, config, hconfig, -⟩ := State.fork_inv h
      rw [Inv.handler_of_forkConfig hconfig]
      rfl
  | metrics c err =>
    obtain ⟨p, hp, hphase, -⟩ := State.prepare_cases (a := .metrics c err) rfl h
    exact hlaunching hby hp (by rw [hphase]; rfl)
  | logger c err =>
    obtain ⟨p, hp, hphase, -⟩ := State.prepare_cases (a := .logger c err) rfl h
    exact hlaunching hby hp (by rw [hphase]; rfl)
  | submitLogging c fate =>
    obtain ⟨p, hp, hphase, -⟩ := State.submitLogging_inv h
    exact hlaunching hby hp (by rw [hphase]; rfl)
  | submitProcess c fate =>
    obtain ⟨p, desc, treg, hp, hphase, -⟩ := State.submitProcess_cases h
    exact hlaunching hby hp (by rw [hphase]; rfl)
  | submitMetrics c fate =>
    obtain ⟨p, desc, treg, hp, hphase, -⟩ := State.submitMetrics_cases h
    exact hlaunching hby hp (by rw [hphase]; rfl)
  | insert c =>
    obtain ⟨p, s₁, hp, hphase, -⟩ := State.insert_inv h
    exact hlaunching hby hp (by rw [hphase]; rfl)
  | _ => simp [State.byHandler] at hby

/-- The handler waits at its channel or has a step to take exactly when it receives. -/
theorem State.serves_iff_receives (hi : Inv s) (hl : s.Launching) :
    s.Serves ↔ s.handler.receives := by
  constructor
  · rintro (hidle | ⟨a, s', hby, h⟩)
    · rw [hidle]
      rfl
    · exact receives_of_byHandler hi hby h
  · intro hreceives
    cases hh : s.handler with
    | idle => exact .inl hh
    | removing r =>
      refine serves_of_isSome (a := .remove) rfl ?_
      simp only [step, State.remove, hh]
      split <;> rfl
    | deciding r e =>
      refine serves_of_isSome (a := .decide false) rfl ?_
      simp only [step, State.decide, hh]
      split <;> rfl
    | removingAgain r =>
      exact serves_of_isSome (a := .removeAgain) rfl (by simp [step, State.removeAgain, hh])
    | forking name config =>
      obtain ⟨pid, hfree⟩ := exists_pid_free s
      refine serves_of_isSome (a := .fork .handler pipelessOs pid plainMachine) rfl ?_
      simp only [step, State.fork, State.forkConfig, hh, hfree]
      rfl
    | launching name c =>
      obtain ⟨p, hp, hlauncher, hin⟩ := hl name c hh
      exact serves_of_inProgress hp hlauncher hin
    | stopped => simp [hh, Handler.receives] at hreceives
    | panicked => simp [hh, Handler.receives] at hreceives

/-- The handler serves all along a run exactly when no step of the run makes it return or panic. -/
theorem serves_iff (as : List Action) : Runs.AllStates step State.Serves as .init ↔
    Runs.AllSteps step (fun s a => s.endsHandler a = false) as .init := by
  refine Runs.allStates_iff (I := fun s => Inv s ∧ s.treg.Indexed ∧ s.Launching)
    (fun s s' a ⟨hi, hx, hl⟩ _ h _ => ?_) (fun s s' a ⟨hi, hx, hl⟩ hserves h => ?_)
    ⟨.init, TaskRegistry.indexed_new, .init⟩ (.inl rfl)
  · exact ⟨hi.step h, (effect_of_step hi.ok hx h).records.indexed, hl.step hi hx h⟩
  · rw [State.serves_iff_receives (hi.step h) (hl.step hi hx h)]
    exact receives_of_step ((State.serves_iff_receives hi hl).mp hserves) h

theorem launching_of_reachable {C : State → Action → Prop} (h : Reachable C s) : s.Launching :=
  (h.invariant (I := fun s => Inv s ∧ s.treg.Indexed ∧ s.Launching)
    ⟨.init, TaskRegistry.indexed_new, .init⟩ fun _ _ _ ⟨hi, hx, hl⟩ _ hs =>
      ⟨hi.step hs, (effect_of_step hi.ok hx hs).records.indexed, hl.step hi hx hs⟩).2.2

/-- Two processes run. One exits, and its metrics cannot be read when it is restarted. The
other exits after that, and nobody asks for its restart. -/
theorem failed_restart_ends_service : ∃ s : State, Reachable (fun _ _ => True) s ∧
    s.handler = .stopped ∧ s.requests = [] ∧
    (s.procs[1]?).map (fun p => (p.status, p.config.restart)) = some (.reaped, .infinite) ∧
    ¬s.Serves := by
  have hreach : Reachable (fun _ _ => True) _ := Runs.reach_of_checked
    (startSteps 0 { plainConfig with restart := .infinite } 0 4242 ++
      startSteps 1 { plainConfig with name := "web", restart := .infinite } 1 4243 ++
      exitSteps 0 ++ [.recv, .remove, .decide false, .fork .handler plainOs 4244 plainMachine,
        .metrics 2 (some "no such process")] ++ exitSteps 1) rfl
  refine ⟨_, hreach, rfl, rfl, rfl, fun h => ?_⟩
  have hreceives :=
    (State.serves_iff_receives (inv_of_reachable hreach) (launching_of_reachable hreach)).mp h
  cases hreceives

end Yapm
