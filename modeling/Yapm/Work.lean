import Yapm.Delivery
import Yapm.Service

/-!
# The work of the restart handler

The handler takes its steps for the exits of processes and for nothing else. What it has still to
do (`State.left`) grows by ten steps with each exit it is told of, shrinks with each step it takes,
and is left alone or made less by everybody else. So however starts, stops and exits come between
its steps, it takes ten steps at most for each exit, and when it has none to take although it
receives, every request has been taken and nothing is half done (`work_of_recorded`).
-/

open Runs

namespace Yapm

/-! ## What is left to do -/

/-- The steps to the end of a launch. -/
def Phase.left : Phase → ℕ
  | .metrics => 6
  | .logger => 5
  | .submitLogging => 4
  | .submitProcess => 3
  | .submitMetrics => 2
  | .insert => 1
  | .registered | .failed | .leaked => 0

/-- The steps the handler takes at most for the request it is at. -/
def Handler.left (procs : List Proc) : Handler → ℕ
  | .idle | .stopped | .panicked => 0
  | .removing _ => 9
  | .deciding _ _ => 8
  | .forking _ _ => 7
  | .launching _ c => (procs[c]?).elim 0 (·.phase.left)
  | .removingAgain _ => 1

/-- The steps the handler takes at most if nobody else takes one. -/
def State.left (s : State) : ℕ :=
  s.handler.left s.procs + 10 * s.requests.length

/-- A step of the handler, or an exit it is told of. -/
inductive Work
  | served
  | exited
deriving DecidableEq

/-- What a step is for the handler. -/
def work (a : Action) (s : State) : List Work :=
  match a with
  | .monitorExit _ => if s.handler.receives then [.exited] else []
  | a => if s.byHandler a then [.served] else []

variable {s s' : State} {a : Action} {c : ProcId} {p p' : Proc}

theorem Phase.left_of_next {phase phase' : Phase} (h : phase.next = some phase') :
    phase'.left + 1 = phase.left := by
  cases phase <;> cases h <;> rfl

theorem Phase.inProgress_of_next {phase phase' : Phase} (h : phase.next = some phase') :
    phase.inProgress := by
  cases phase <;> first | rfl | cases h

/-! ## Steps of others -/

/-- No step takes a launch back. -/
theorem left_proc_le (hi : Inv s) (hx : s.treg.Indexed) (hs : step a s = some s')
    (hp : s.procs[c]? = some p) :
    ∃ p', s'.procs[c]? = some p' ∧ p'.phase.left ≤ p.phase.left := by
  have hchange := change_of_step hi.ok hi.pids hs
  obtain ⟨x, hev⟩ | ⟨q, hprocs, -⟩ := hchange.evolves_or_forks
  · obtain ⟨p', hp', hpev⟩ := hev.procs c p hp
    refine ⟨p', hp', ?_⟩
    obtain ⟨q, hq, hmoves⟩ | ⟨l, os, m, -, hfree, halive, -⟩ :=
      (effect_of_step hi.ok hx hs).procs c p' hp'
    · obtain rfl := Option.some.inj (hp.symm.trans hq)
      obtain hsame | ⟨hnext, -⟩ | ⟨-, hfailed⟩ := hmoves.phase
      · rw [hsame]
      · exact Nat.le_of_lt (Nat.lt_of_lt_of_eq (Nat.lt_succ_self _) (Phase.left_of_next hnext))
      · rw [hfailed]
        exact Nat.zero_le _
    · -- it would have been forked before
      have htaken : s.pidTaken p'.pid := by
        rw [State.pidTaken, List.any_eq_true]
        refine ⟨p, List.mem_of_getElem? hp, ?_⟩
        simp [hpev.pid, hpev.alive halive]
      rw [hfree] at htaken
      cases htaken
  · exact ⟨p, Inv.append_old hprocs hp, le_rfl⟩

/-- The rule for a step that leaves the handler where it is. -/
theorem left_le_of_handler_eq (hi : Inv s) (hx : s.treg.Indexed) (hl : s.Launching)
    (hs : step a s = some s') (hhandler : s'.handler = s.handler) :
    s'.handler.left s'.procs ≤ s.handler.left s.procs := by
  rw [hhandler]
  cases hh : s.handler with
  | launching name c =>
    obtain ⟨p, hp, -⟩ := hl name c hh
    obtain ⟨p', hp', hle⟩ := left_proc_le hi hx hs hp
    simpa [Handler.left, hp, hp'] using hle
  | _ => exact le_rfl

theorem left_of_afterFailure {l : Launcher} (hhandler : s'.handler = s.handler.afterFailure l)
    (hsame : s'.handler = s.handler → s'.handler.left s'.procs ≤ s.handler.left s.procs) :
    s'.handler.left s'.procs ≤ s.handler.left s.procs := by
  cases l with
  | start i => exact hsame hhandler
  | handler =>
    rw [hhandler]
    exact Nat.zero_le _

/-- No step gives the handler more to do for the request it is at, but the one that takes the
request. -/
theorem left_handler_le (hi : Inv s) (hx : s.treg.Indexed) (hl : s.Launching)
    (hs : step a s = some s') (hrecv : a ≠ .recv) :
    s'.handler.left s'.procs ≤ s.handler.left s.procs := by
  have hsame := left_le_of_handler_eq hi hx hl hs
  cases change_of_step hi.ok hi.pids hs with
  | quiet hev hk => exact hsame hk.handler
  | submitted hev hp hphase hp' hphase' hk => exact hsame hk.handler
  | @forked l _ _ _ p hfork _ hp hprocs _ _ _ _ hhandler =>
    cases l with
    | start i => exact hsame hhandler
    | handler =>
      have hmetrics : p.phase = .metrics := by rw [hp]
      rw [hhandler, if_pos rfl, Inv.handler_of_forkConfig hfork, hprocs]
      simp [Handler.left, hmetrics, Phase.left]
  | forkFailed _ _ _ _ _ hhandler => exact left_of_afterFailure hhandler hsame
  | leaked _ _ _ _ _ _ _ _ _ hhandler => exact left_of_afterFailure hhandler hsame
  | launchFailed _ _ _ _ _ _ _ _ hhandler => exact left_of_afterFailure hhandler hsame
  | @inserted _ c p _ _ hp _ _ _ _ _ _ hhandler =>
    by_cases hlauncher : p.launcher = .handler
    · rw [hhandler, if_pos hlauncher]
      exact Nat.zero_le _
    · exact hsame (by rw [hhandler, if_neg hlauncher])
  | stopRemoved _ _ _ _ hhandler => exact hsame hhandler
  | stopKilled _ _ hhandler => exact hsame hhandler
  | stopped _ _ _ hhandler => exact hsame hhandler
  | exitSeen _ _ _ _ _ _ hhandler => exact hsame hhandler
  | received => exact absurd rfl hrecv
  | notFound hh => exact Nat.zero_le _
  | removed hh _ _ _ _ _ _ hhandler =>
    rw [hh, hhandler]
    exact Nat.le_succ 8
  | dropped hh _ _ _ _ _ hhandler =>
    rw [hh, hhandler]
    exact Nat.le_add_left 1 7
  | respawned hh _ _ _ _ hhandler =>
    rw [hh, hhandler]
    exact Nat.le_succ 7
  | removedAgain hh => exact Nat.zero_le _

/-! ## Steps of the handler -/

/-- The launch the handler is at has steps to its end. -/
theorem left_of_launching (hi : Inv s) (hp : s.procs[c]? = some p) (hl : p.launcher = .handler)
    (hin : p.phase.inProgress) : s.handler.left s.procs = p.phase.left ∧ 0 < p.phase.left := by
  constructor
  · rw [hi.launching c p hp hl hin]
    simp [Handler.left, hp]
  · cases hphase : p.phase <;> simp [hphase, Phase.inProgress, Phase.left] at hin ⊢

/-- The rule for a step of the handler's launch that goes well. -/
theorem left_of_next (hi : Inv s) {f : Proc → Proc} (hp : s.procs[c]? = some p)
    (hl : p.launcher = .handler) (hprocs : s'.procs = s.procs.modify c f)
    (hhandler : s'.handler = s.handler) (hnext : p.phase.next = some (f p).phase) :
    s'.handler.left s'.procs < s.handler.left s.procs := by
  have hin := Phase.inProgress_of_next hnext
  have hp' : s'.procs[c]? = some (f p) := by
    rw [hprocs, List.getElem?_modify_eq, hp]
    rfl
  rw [(left_of_launching hi hp hl hin).1, ← Phase.left_of_next hnext, hhandler,
    hi.launching c p hp hl hin]
  simp [Handler.left, hp']

/-- The rule for a step of the handler's launch that fails. -/
theorem left_of_failed (hi : Inv s) (hp : s.procs[c]? = some p) (hl : p.launcher = .handler)
    (hin : p.phase.inProgress) (hhandler : s'.handler = s.handler.afterFailure p.launcher) :
    s'.handler.left s'.procs < s.handler.left s.procs := by
  obtain ⟨hleft, hpos⟩ := left_of_launching hi hp hl hin
  rw [hleft, hhandler, hl]
  exact hpos

/-- Every step of the handler's but the one that takes a request brings it nearer to the end. -/
theorem left_lt_of_byHandler (hi : Inv s) (hby : s.byHandler a) (hs : step a s = some s')
    (hrecv : a ≠ .recv) : s'.handler.left s'.procs < s.handler.left s.procs := by
  have hlauncher {c : ProcId} {p : Proc} (hp : s.procs[c]? = some p)
      (hby : (s.procs[c]?).any (·.launcher = .handler)) : p.launcher = .handler := by
    simpa [hp] using hby
  cases a with
  | recv => exact absurd rfl hrecv
  | remove =>
    obtain ⟨r, hh, ⟨-, rfl⟩ | ⟨e, -, rfl⟩⟩ := State.remove_inv hs
    · simp [hh, Handler.left]
    · simp [hh, Handler.left]
  | decide poisoned =>
    obtain ⟨r, e, hh, ⟨-, rfl⟩ | ⟨-, rfl⟩⟩ := State.decide_inv hs
    · simp [hh, Handler.left]
    · simp [hh, Handler.left]
  | removeAgain =>
    obtain ⟨r, hh, rfl⟩ := State.removeAgain_inv hs
    simp [hh, Handler.left]
  | fork l os pid m =>
    cases l with
    | start i => simp [State.byHandler] at hby
    | handler =>
      obtain ⟨name, config, hconfig, -, hcases⟩ := State.fork_inv hs
      rw [Inv.handler_of_forkConfig hconfig]
      rcases hcases with ⟨ctx, exit, -, -, rfl⟩ | ⟨e, -, -, rfl⟩ | ⟨e, exit, -, -, rfl⟩ <;>
        simp [State.addProc, State.forkDone, State.forkFailed, Handler.left, Phase.left]
  | metrics c err =>
    obtain ⟨p, hp, hphase, ⟨-, rfl⟩ | ⟨-, msg, rfl⟩⟩ :=
      State.prepare_cases (a := .metrics c err) rfl hs
    · exact left_of_next hi hp (hlauncher hp hby) rfl rfl (by rw [hphase]; rfl)
    · exact left_of_failed hi hp (hlauncher hp hby) (by rw [hphase]; rfl)
        (State.failLaunch_handler ..)
  | logger c err =>
    obtain ⟨p, hp, hphase, ⟨-, rfl⟩ | ⟨-, msg, rfl⟩⟩ :=
      State.prepare_cases (a := .logger c err) rfl hs
    · exact left_of_next hi hp (hlauncher hp hby) rfl rfl (by rw [hphase]; rfl)
    · exact left_of_failed hi hp (hlauncher hp hby) (by rw [hphase]; rfl)
        (State.failLaunch_handler ..)
  | submitLogging c fate =>
    obtain ⟨p, hp, hphase, rfl⟩ := State.submitLogging_inv hs
    exact left_of_next hi hp (hlauncher hp hby) rfl rfl (by rw [hphase]; rfl)
  | submitProcess c fate =>
    obtain ⟨p, desc, treg, hp, hphase, ⟨id, -, -, rfl⟩ | ⟨e, -, -, rfl⟩⟩ :=
      State.submitProcess_cases hs
    · exact left_of_next hi hp (hlauncher hp hby) rfl rfl (by rw [hphase]; rfl)
    · exact left_of_failed hi hp (hlauncher hp hby) (by rw [hphase]; rfl)
        (State.failSubmission_handler ..)
  | submitMetrics c fate =>
    obtain ⟨p, desc, treg, hp, hphase, ⟨id, -, -, rfl⟩ | ⟨e, -, -, rfl⟩⟩ :=
      State.submitMetrics_cases hs
    · exact left_of_next hi hp (hlauncher hp hby) rfl rfl (by rw [hphase]; rfl)
    · exact left_of_failed hi hp (hlauncher hp hby) (by rw [hphase]; rfl)
        (State.failSubmission_handler ..)
  | insert c =>
    obtain ⟨p, s₁, hp, hphase, -, ⟨i, hl, -⟩ | ⟨-, rfl⟩⟩ := State.insert_inv hs
    · cases hl.symm.trans (hlauncher hp hby)
    · obtain ⟨hleft, hpos⟩ := left_of_launching hi hp (hlauncher hp hby) (by rw [hphase]; rfl)
      rw [hleft]
      exact hpos
  | _ => simp [State.byHandler] at hby

/-! ## Runs -/

/-- A step pays for itself with what it leaves the handler to do, and an exit with ten steps. -/
theorem left_of_step (hi : Inv s) (hx : s.treg.Indexed) (hl : s.Launching)
    (hs : step a s = some s') :
    (work a s).count .served + s'.left ≤ 10 * (work a s).count .exited + s.left := by
  have hother (hrecv : a ≠ .recv) (hexit : ∀ c, a ≠ .monitorExit c)
      (hwork : work a s = if s.byHandler a then [.served] else []) :
      (work a s).count .served + s'.left ≤ 10 * (work a s).count .exited + s.left := by
    have hrequests := (change_of_step hi.ok hi.pids hs).requests_eq hrecv hexit
    simp only [hwork, State.left, hrequests]
    by_cases hby : s.byHandler a
    · have hlt := left_lt_of_byHandler hi hby hs hrecv
      simp only [hby, if_true, List.count_singleton_self]
      omega
    · have hle := left_handler_le hi hx hl hs hrecv
      simp only [hby, if_false, List.count_nil, Bool.false_eq_true]
      omega
  cases a with
  | monitorExit c =>
    obtain ⟨p, hp, -, -, -, -, -, -, hrequests⟩ := State.monitorExit_cases hi.ok hs
    have hle := left_handler_le hi hx hl hs (by simp)
    by_cases hreceives : s.handler.receives
    · simp only [work, hreceives, if_true, State.left, hrequests, List.length_append]
      simp
      omega
    · simp only [work, hreceives, State.left, hrequests]
      simp
      omega
  | recv =>
    obtain ⟨r, requests, hidle, hr, rfl⟩ := State.recv_inv hs
    simp [work, State.byHandler, State.left, hidle, hr, Handler.left]
    omega
  | _ => exact hother (by simp) (by simp) rfl

variable {C : State → Action → Prop} {l : List Work}

/-- In every run the handler takes at most ten steps for each exit it is told of. When it receives
and has no step to take, it waits at its channel and every request has been taken. -/
theorem work_of_recorded (h : Recorded step work .init C s l) :
    l.count .served + s.left ≤ 10 * l.count .exited ∧
      (s.handler.receives → (∀ a, s.byHandler a → step a s = none) →
        s.handler = .idle ∧ s.requests = []) := by
  have hreach := h.forget
  have hi := inv_of_reachable hreach
  constructor
  · refine h.amortized (·.count .served) (10 * ·.count .exited) State.left
      (fun l l' => List.count_append) (fun l l' => ?_) fun s s' a hr hs => ?_
    · rw [List.count_append, Nat.mul_add]
    · exact left_of_step (inv_of_reachable hr) (indexed_of_reachable hr)
        (launching_of_reachable hr) hs
  · intro hreceives hstuck
    obtain hidle | ⟨a, s', hby, hs⟩ :=
      (State.serves_iff_receives hi (launching_of_reachable hreach)).mpr hreceives
    · refine ⟨hidle, ?_⟩
      cases hr : s.requests with
      | nil => rfl
      | cons r requests =>
        have hnone := hstuck .recv rfl
        simp [step, State.recv, hidle, hr] at hnone
    · cases (hstuck a hby).symm.trans hs

/-- A process exits and is restarted : the handler takes all ten steps. -/
theorem work_of_restart : ∃ (s : State) (l : List Work),
    l.count .served = 10 ∧ l.count .exited = 1 ∧ l.count .served + s.left ≤ 10 := by
  let config : ProcessConfig := { plainConfig with restart := .infinite }
  obtain ⟨s, l, hr, hserved, hexited⟩ : ∃ s l, Recorded step work .init (fun _ _ => True) s l ∧
      l.count .served = 10 ∧ l.count .exited = 1 :=
    ⟨_, _, reach_of_checked (startSteps 0 config 0 4242 ++ exitSteps 0 ++
      [.recv, .remove, .decide false] ++ launchSteps .handler 1 4243 ++ registerSteps 1) rfl,
      by decide +kernel, by decide +kernel⟩
  have hwork := (work_of_recorded hr).1
  rw [hexited] at hwork
  exact ⟨s, l, hserved, hexited, hwork⟩

end Yapm
