import Yapm.Effects

/-!
# Whether every child has a reaper

Only the monitoring task of a process waits for it. A process that has not been reaped and
that no start, stop or restart holds has a monitoring task that is not over
(`State.Reapable`), throughout a run whose steps spare the reapers
(`reapable_of_reachable`). A step that kills a process does not when it leaves the process
without its monitoring task : a launch that fails before the task is submitted, and
`kill_tasks_by_pid` once the task is spawned.
-/

namespace Yapm

/-! ## The property -/

/-- A start, stop or restart that is under way has the process. -/
def State.Owned (s : State) (c : ProcId) : Prop :=
  (∃ p : Proc, s.procs[c]? = some p ∧ p.phase.inProgress) ∨
  (∃ i k, s.stops i = some k ∧ k.entry.proc = c) ∨ ∃ r e, s.handler = .deciding r e ∧ e.proc = c

/-- A process that has not been reaped is owned or has a monitoring task that is not over. -/
def State.Reapable (s : State) : Prop :=
  ∀ (c : ProcId) (p : Proc), s.procs[c]? = some p → p.status ≠ .reaped → ¬s.Owned c →
    p.watch.isLive

/-! ## The condition -/

/-- No process with the pid has a monitoring task that runs and has not reaped it. -/
def State.sparesReaper (s : State) (pid : Pid) : Bool :=
  s.procs.all fun p => p.pid ≠ pid || p.status = .reaped || !p.watch.isSpawned

/-- The step leaves no process that has not been reaped without its monitoring task. -/
def State.keepsReaper (s : State) : Action → Bool
  | .fork _ os _ _ => !os.losesChild
  | .metrics c err => (s.failsLaunch (.metrics c err)).isNone
  | .logger c err => (s.failsLaunch (.logger c err)).isNone
  | .submitProcess c fate => (s.failsLaunch (.submitProcess c fate)).isNone
  | .monitorOpen _ err => err.isNone
  | .monitorFail _ _ => false
  | a => (s.cancels a).all s.sparesReaper

variable {s s' : State} {a : Action} {c : ProcId} {p p' : Proc} {pid : Pid}

/-! ## Tasks and their records -/

/-- A record has no handle but its own, and a task that is not over has a record of its
process. -/
structure State.Linked (s : State) : Prop where
  handles : ∀ id x, s.treg.record id = some x → ∀ handle ∈ x.handles, handle = id
  tasks : ∀ (c : ProcId) (p : Proc), s.procs[c]? = some p → ∀ id, p.watch.task = some id →
    ∃ x, s.treg.record id = some x ∧ x.pid = p.pid

namespace State.Linked

theorem init : Linked .init where
  handles id x hx := by simp [State.init] at hx
  tasks c p hp := by simp [State.init] at hp

/-- A record with the handle of a task of the process is of its pid. -/
theorem pid_of_holds (h : s.Linked) (hp : s.procs[c]? = some p) (hholds : p.Holds s pid) :
    pid = p.pid := by
  obtain ⟨id, id', x, htask, hx, rfl, hmem⟩ := hholds
  obtain rfl := h.handles id' x hx id hmem
  obtain ⟨y, hy, hpid⟩ := h.tasks c p hp id htask
  obtain rfl := Option.some_inj.mp (hx.symm.trans hy)
  exact hpid

theorem step (h : s.Linked) (heff : Effect s a s') : s'.Linked where
  handles id x' hx' handle hmem := by
    rcases heff.records.new id x' hx' with ⟨x, hx, -, -, hhandles⟩ | ⟨hnil, -⟩
    · exact (hhandles handle hmem).elim (h.handles id x hx handle) fun heq => heq
    · simp [hnil] at hmem
  tasks c p' hp' id htask := by
    have hold {p : Proc} (hp : s.procs[c]? = some p) (hpid : p'.pid = p.pid)
        (htask : p.watch.task = some id) : ∃ x, s'.treg.record id = some x ∧ x.pid = p'.pid := by
      obtain ⟨x, hx, hxpid⟩ := h.tasks c p hp id htask
      obtain ⟨x', hx', hxpid', -⟩ := heff.records.old id x hx
      exact ⟨x', hx', by rw [hxpid', hxpid, hpid]⟩
    rcases heff.procs c p' hp' with ⟨p, hp, hmoves⟩ | ⟨_, _, _, -, -, -, hwatch, -⟩
    · rcases hmoves.watch with hwatch | ⟨id', hwatch, hrecord⟩ | ⟨-, -, hsame⟩ | ⟨-, hwatch, -⟩
      · exact hold hp hmoves.pid (by rwa [← hwatch])
      · obtain rfl : id' = id := by simpa [hwatch, Watch.task] using htask
        exact ⟨_, hrecord, hmoves.pid.symm⟩
      · exact hold hp hmoves.pid (by rwa [← hsame])
      · simp [hwatch, Watch.task] at htask
    · simp [hwatch, Watch.task] at htask

end State.Linked

/-! ## The invariant -/

/-- A process that has not been reaped has a monitoring task that is not over, or is yet to
get it. -/
def State.Watched (s : State) : Prop :=
  ∀ (c : ProcId) (p : Proc), s.procs[c]? = some p → p.status ≠ .reaped →
    p.phase.unsubmitted ∨ p.watch.isLive

/-- Where the condition holds no launch fails before its monitoring task is submitted. -/
theorem State.submitted_of_failsLaunch (hkeeps : s.keepsReaper a) (hp : s.procs[c]? = some p)
    (hfails : s.failsLaunch a = some c) : p.phase = .submitMetrics := by
  cases a with
  | metrics d err => simp [keepsReaper, hfails] at hkeeps
  | logger d err => simp [keepsReaper, hfails] at hkeeps
  | submitProcess d fate => simp [keepsReaper, hfails] at hkeeps
  | submitMetrics d fate =>
    obtain ⟨-, q, hq, hphase⟩ := State.failsAt_eq_some hfails
    obtain rfl := Option.some_inj.mp (hp.symm.trans hq)
    exact hphase
  | _ => cases hfails

theorem State.keeps_monitor (hkeeps : s.keepsReaper a) : a.failsMonitor c = false := by
  cases a with
  | monitorOpen d err =>
    have herr : err = none := by simpa [keepsReaper] using hkeeps
    simp [Action.failsMonitor, herr]
  | monitorFail d e => simp [keepsReaper] at hkeeps
  | _ => rfl

/-- Where the condition holds no task is cancelled that waits for a process. -/
theorem State.spared (hkeeps : s.keepsReaper a) (hp : s.procs[c]? = some p)
    (hr : p.status ≠ .reaped) (hspawned : p.watch.isSpawned) : p.pid ∉ s.cancels a := by
  intro hmem
  have hall : (s.cancels a).all s.sparesReaper := by
    cases a with
    | fork l os pid m => rfl
    | metrics d err => rfl
    | logger d err => rfl
    | monitorOpen d err => rfl
    | monitorFail d e => rfl
    | submitProcess d fate =>
      have hnone : s.failsLaunch (.submitProcess d fate) = none := by
        simpa [keepsReaper] using hkeeps
      simp [cancels, State.failedPids_nil hnone]
    | _ => exact hkeeps
  have hspares := List.all_eq_true.mp hall p.pid hmem
  have hspared := List.all_eq_true.mp hspares p (List.mem_of_getElem? hp)
  simp [hr, hspawned] at hspared

theorem State.Watched.init : Watched .init := by
  intro c p hp
  simp [State.init] at hp

/-- A monitoring task that is not over stays so where the condition holds. -/
theorem State.Watched.live (hl : s.Linked) (hkeeps : s.keepsReaper a) (hp : s.procs[c]? = some p)
    (hmoves : p.Moves s a s' c p') (hr : p.status ≠ .reaped) (hr' : p'.status ≠ .reaped)
    (hlive : p.watch.isLive) : p'.watch.isLive := by
  rcases hmoves.watch with hwatch | ⟨id, hwatch, -⟩ | ⟨-, hspawned, -⟩ |
      ⟨hspawned, -, ⟨-, hreaped⟩ | hfails | ⟨pid, hmem, hholds⟩⟩
  · rwa [hwatch]
  · rw [hwatch]
    rfl
  · cases hw : p'.watch <;> simp [hw, Watch.isSpawned] at hspawned <;> rfl
  · exact absurd hreaped hr'
  · rw [State.keeps_monitor hkeeps] at hfails
    cases hfails
  · rw [hl.pid_of_holds hp hholds] at hmem
    exact absurd hmem (State.spared hkeeps hp hr hspawned)

/-- A launch that is to submit the monitoring task goes on to do so. -/
theorem State.Watched.unsubmitted (hkeeps : s.keepsReaper a) (hp : s.procs[c]? = some p)
    (hmoves : p.Moves s a s' c p') (hu : p.phase.unsubmitted) :
    p'.phase.unsubmitted ∨ p'.watch.isLive := by
  rcases hmoves.phase with hphase | ⟨hnext, hrecord⟩ | ⟨hfails, -⟩
  · exact .inl (by rwa [hphase])
  · cases hphase : p.phase with
    | submitProcess =>
      obtain ⟨id, hwatch, -⟩ := hrecord hphase
      exact .inr (by rw [hwatch]; rfl)
    | metrics =>
      rw [hphase] at hnext
      exact .inl (Option.some_inj.mp hnext ▸ rfl)
    | logger =>
      rw [hphase] at hnext
      exact .inl (Option.some_inj.mp hnext ▸ rfl)
    | submitLogging =>
      rw [hphase] at hnext
      exact .inl (Option.some_inj.mp hnext ▸ rfl)
    | _ => simp [hphase, Phase.unsubmitted] at hu
  · rw [State.submitted_of_failsLaunch hkeeps hp hfails] at hu
    cases hu

theorem State.Watched.step (hl : s.Linked) (hw : s.Watched) (hkeeps : s.keepsReaper a)
    (heff : Effect s a s') : s'.Watched := by
  intro c p' hp' hr'
  rcases heff.procs c p' hp' with ⟨p, hp, hmoves⟩ | ⟨l, os, m, rfl, -, -, -, hmetrics | ⟨-, hloses⟩⟩
  · have hr : p.status ≠ .reaped := by
      rcases hmoves.status with hstatus | ⟨halive, -, -⟩ | ⟨-, hreaped⟩
      · rwa [← hstatus]
      · simp [halive]
      · exact absurd hreaped hr'
    rcases hw c p hp hr with hu | hlive
    · exact unsubmitted hkeeps hp hmoves hu
    · exact .inr (live hl hkeeps hp hmoves hr hr' hlive)
  · exact .inl (by rw [hmetrics]; rfl)
  · simp [State.keepsReaper, hloses] at hkeeps

/-- A process whose launch is not over is owned. -/
theorem State.Watched.reapable (hw : s.Watched) : s.Reapable := by
  intro c p hp hr hfree
  refine (hw c p hp hr).resolve_left fun hu => hfree (.inl ⟨p, hp, ?_⟩)
  cases hphase : p.phase <;> simp [hphase, Phase.unsubmitted] at hu <;> rfl

/-- In a run whose steps spare the reapers, every child that has not been reaped is owned or has a
monitoring task that is not over. -/
theorem reapable_of_reachable (h : Reachable (fun s a => s.keepsReaper a) s) : s.Reapable := by
  have hw : s.Watched := (h.invariant
    (I := fun s => (Inv s ∧ s.treg.Indexed) ∧ s.Linked ∧ s.Watched)
    ⟨⟨.init, TaskRegistry.indexed_new⟩, .init, .init⟩
    fun s s' a ⟨⟨hi, hx⟩, hl, hw⟩ hkeeps hs =>
      have heff := effect_of_step hi.ok hx hs
      ⟨⟨hi.step hs, heff.records.indexed⟩, hl.step heff, hw.step hl hkeeps heff⟩).2.2
  exact hw.reapable

/-- A process is started, exits, is reaped and restarted. Its new instance is monitored. -/
theorem restarted_reapable : ∃ s : State, s.Reapable ∧
    (s.procs[0]?).map (·.status) = some .reaped ∧
    (s.procs[1]?).map (fun p => (p.status, p.watch.isLive)) = some (.alive, true) :=
  ⟨_, reapable_of_reachable (Runs.reach_of_checked
    (startSteps 0 { plainConfig with restart := .infinite } 0 4242 ++ exitSteps 0 ++
      [.recv, .remove, .decide false] ++ launchSteps .handler 1 4243 ++ registerSteps 1) rfl),
    rfl, rfl⟩

/-- A zombie that nobody owns and nobody monitors. -/
theorem State.not_reapable
    (h : (s.procs[c]?).map (fun p => (p.status, p.watch, p.phase)) =
      some (.zombie, .ended, .registered))
    (hstops : ∀ i, s.stops i = none) (hidle : s.handler = .idle) : ¬s.Reapable := by
  obtain ⟨p, hp, hrest⟩ := Option.map_eq_some_iff.mp h
  simp only [Prod.mk.injEq] at hrest
  obtain ⟨hstatus, hwatch, hphase⟩ := hrest
  intro hreapable
  have hlive := hreapable c p hp (by simp [hstatus]) ?_
  · simp [hwatch, Watch.isLive] at hlive
  · rintro (⟨q, hq, hin⟩ | ⟨i, k, hk, -⟩ | ⟨r, e, hh, -⟩)
    · obtain rfl := Option.some_inj.mp (hp.symm.trans hq)
      simp [hphase, Phase.inProgress] at hin
    · simp [hstops] at hk
    · simp [hidle] at hh

/-- A stop aborts the monitoring task and then kills the process, which stays a zombie. -/
theorem stop_leaves_zombie : ∃ s : State, Reachable (fun _ _ => True) s ∧
    s.replies.getLast? = some (.processStopped "db") ∧
    (s.procs[0]?).map (fun p => (p.status, p.watch, p.phase)) =
      some (.zombie, .ended, .registered) ∧ ¬s.Reapable := by
  refine ⟨_, Runs.reach_of_checked (startSteps 0 plainConfig 0 4242 ++
    [.coordinate 0, .monitorOpen 0 none, .stop 0 "db" false]) rfl, rfl, rfl, ?_⟩
  exact State.not_reapable (c := 0) rfl (fun i => by cases i <;> rfl) rfl

end Yapm
