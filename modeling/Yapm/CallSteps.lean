import Yapm.Effects
import Yapm.ProcessManager

/-!
# Calls as steps of the daemon

`ProcessManager` has a call of a client as one change of state, `Daemon` as steps between
which others can act. When nobody does, the steps of a call lead to its answer, and to a
daemon that the manager after the call shows (`start_steps`, `stop_steps`).
-/

namespace Yapm

/-- Which pids belong to a process that is alive. -/
def State.alivePids (d : State) (pid : Pid) : Bool :=
  d.procs.any fun p => p.pid = pid && p.status = .alive

namespace State

variable {d : State}

/-- A kill of tasks does not show in pids and statuses. -/
theorem any_killTasks {P : Proc → Bool} (hP : ∀ p q : Proc, q.pid = p.pid →
    q.status = p.status → P q = P p) (pid : Pid) (poisoned : Bool) :
    (d.killTasks pid poisoned).procs.any P = d.procs.any P := by
  unfold killTasks
  split
  · rfl
  · simp only [List.any_map]
    congr 1
    funext p
    exact hP p _ (Proc.abort_pid ..) (Proc.abort_status ..)

theorem alivePids_killTasks (d : State) (pid : Pid) (poisoned : Bool) :
    (d.killTasks pid poisoned).alivePids = d.alivePids := by
  funext pid'
  exact any_killTasks (fun p q hpid hstatus => by rw [hpid, hstatus]) pid poisoned

theorem pidTaken_killTasks (d : State) (pid : Pid) (poisoned : Bool) :
    (d.killTasks pid poisoned).pidTaken = d.pidTaken := by
  funext pid'
  exact any_killTasks (fun p q hpid hstatus => by rw [hpid, hstatus]) pid poisoned

theorem alivePids_modifyProc {f : Proc → Proc}
    (hf : ∀ p, (f p).pid = p.pid ∧ (f p).status = p.status) (c : ProcId) :
    (d.modifyProc c f).alivePids = d.alivePids := by
  have hany {P : Proc → Bool} (hP : ∀ p, P (f p) = P p) :
      ∀ (l : List Proc) (c : ProcId), (l.modify c f).any P = l.any P := by
    intro l
    induction l with
    | nil => simp
    | cons p l ih => intro c; cases c <;> simp [hP, ih]
  funext pid
  exact hany (fun p => by rw [(hf p).1, (hf p).2]) d.procs c

/-- A pid that is not taken belongs to no process that is alive. -/
theorem alivePids_of_free {pid : Pid} (h : d.pidTaken pid = false) : d.alivePids pid = false := by
  simp only [alivePids, pidTaken, List.any_eq_false, Bool.and_eq_true, decide_eq_true_eq,
    not_and] at h ⊢
  intro p hp hpid halive
  exact h p hp hpid (by simp [halive])

theorem alivePids_sigkill (d : State) (pid : Pid) :
    (d.sigkill pid).alivePids = Function.update d.alivePids pid false := by
  funext pid'
  simp only [alivePids, sigkill, List.any_map, Function.update_apply]
  split
  · rename_i heq
    subst heq
    simp only [List.any_eq_false, Function.comp_apply, Proc.sigkill]
    intro p hp
    split <;> simp_all
  · rename_i hne
    congr 1
    funext p
    simp only [Function.comp_apply, Proc.sigkill]
    split <;> simp_all [eq_comm]

theorem alivePids_addProc (d : State) {p : Proc} (h : p.status = .alive) :
    (d.addProc p).alivePids = Function.update d.alivePids p.pid true := by
  funext pid'
  simp only [alivePids, addProc, List.any_append, List.any_cons, List.any_nil, h,
    Function.update_apply]
  split <;> simp_all [eq_comm]

end State

namespace ProcessManager

/-- The manager shows the registries of the daemon and which pids are alive. -/
structure Shows (s : ProcessManager) (d : State) : Prop where
  registry : s.registry = fun name => (d.registry name).map (·.task)
  treg : s.runtime.treg = d.treg
  alive : s.alive = d.alivePids

/-- Steps of the daemon that nothing comes into give an answer, and lead to a daemon that
the manager shows. -/
def Answers (d : State) (r : CommandResult × ProcessManager) : Prop :=
  ∃ d', Runs.Reach step d (fun _ _ => True) d' ∧ r.2.Shows d' ∧ d'.replies = d.replies ++ [r.1]

section Answers

variable {s : ProcessManager} {d t : State} {a : Action} {r : CommandResult × ProcessManager}

theorem Answers.of_reach (hreach : Runs.Reach step d (fun _ _ => True) t)
    (hreplies : t.replies = d.replies) (h : Answers t r) : Answers d r := by
  obtain ⟨u, hreach', hshows, hr⟩ := h
  exact ⟨u, hreach.trans hreach', hshows, by rw [hr, hreplies]⟩

theorem Answers.of_step (hs : step a d = some t) (hreplies : t.replies = d.replies)
    (h : Answers t r) : Answers d r :=
  .of_reach (.step .init trivial hs) hreplies h

/-- The last step of a call. -/
theorem Answers.last (hs : step a d = some t) (hreplies : t.replies = d.replies ++ [r.1])
    (h : r.2.Shows t) : Answers d r :=
  ⟨t, .step .init trivial hs, h, hreplies⟩

theorem Shows.modifyProc (h : s.Shows d) {f : Proc → Proc}
    (hf : ∀ p, (f p).pid = p.pid ∧ (f p).status = p.status) (c : ProcId) :
    s.Shows (d.modifyProc c f) where
  registry := h.registry
  treg := h.treg
  alive := by rw [State.alivePids_modifyProc hf, h.alive]

theorem Shows.sigkill (h : s.Shows d) (pid : Pid) : (s.sigkill pid).Shows (d.sigkill pid) where
  registry := h.registry
  treg := h.treg
  alive := by rw [State.alivePids_sigkill, ← h.alive]; rfl

/-- The daemon has nothing of the log. -/
theorem Shows.log (h : s.Shows d) (entry : LogEntry) : (s.log entry).Shows d :=
  ⟨h.registry, h.treg, h.alive⟩

/-- A signal to a pid that no process has. -/
theorem Shows.sigkill_free (h : s.Shows d) (pid : Pid) (hfree : d.pidTaken pid = false) :
    s.Shows (d.sigkill pid) where
  registry := h.registry
  treg := h.treg
  alive := by
    rw [State.alivePids_sigkill, h.alive]
    funext pid'
    by_cases heq : pid' = pid
    · rw [heq, Function.update_self, State.alivePids_of_free hfree]
    · rw [Function.update_of_ne heq]

theorem Shows.killTasksByPid (h : s.Shows d) (pid : Pid) (poisoned : Bool) :
    (s.killTasksByPid pid poisoned).2.Shows (d.killTasks pid poisoned) where
  registry := by
    unfold State.killTasks
    cases poisoned <;> exact h.registry
  treg := by
    unfold State.killTasks
    rw [ProcessManager.killTasksByPid, treg_killTasksByPid]
    cases poisoned <;> simp [h.treg]
  alive := by rw [State.alivePids_killTasks, ← h.alive]; rfl

/-- A submission comes to the same for the daemon. -/
theorem Shows.submit (h : s.Shows d) (tty : TaskType) {pid : Pid} {desc : String}
    {fate : Submission} {result : Except AsyncError TaskId} {treg : TaskRegistry}
    (hresult : d.treg.submitTask tty pid desc fate = (result, treg)) :
    ∃ s', s.submit tty pid desc fate = (result, s') ∧ s'.Shows { d with treg } := by
  rw [← h.treg] at hresult
  have hfst : (s.submit tty pid desc fate).1 = result := congrArg Prod.fst hresult
  refine ⟨(s.submit tty pid desc fate).2, Prod.ext hfst rfl, h.registry, ?_, h.alive⟩
  rw [treg_submit, hresult]

end Answers

/-! ## Start -/

section Start

variable {s : ProcessManager} {d : State} {c : ProcId} {p : Proc} {i : ℕ} {o : StartOutcomes}

theorem Shows.reply (h : s.Shows d) (r : CommandResult) : s.Shows (d.reply r) :=
  ⟨h.registry, h.treg, h.alive⟩

theorem replies_killTasks (d : State) (pid : Pid) (poisoned : Bool) :
    (d.killTasks pid poisoned).replies = d.replies := by
  unfold State.killTasks
  split <;> rfl

/-- A start whose submission was refused. -/
theorem Shows.abandon (h : s.Shows d) (hl : p.launcher = .start i) (fate : Submission)
    (e : AsyncError) : (s.abandon p.pid fate.isPoisoned e).2.Shows (d.failSubmission c p fate e) ∧
      (d.failSubmission c p fate e).replies =
        d.replies ++ [(s.abandon p.pid fate.isPoisoned e).1] := by
  have hkilled := (h.sigkill p.pid).killTasksByPid p.pid fate.isPoisoned
  simp only [State.failSubmission, State.failLaunch, hl]
  refine ⟨(hkilled.modifyProc (f := ({ · with phase := .failed })) (fun _ => ⟨rfl, rfl⟩)
    c).reply _, ?_⟩
  simp only [State.reply, State.modifyProc, replies_killTasks]
  rfl

theorem getElem?_modifyProc (hp : d.procs[c]? = some p) (f : Proc → Proc) :
    (d.modifyProc c f).procs[c]? = some (f p) := by
  simp [State.modifyProc, hp]

/-- The last step of a start : the registry. -/
theorem insert_answers (h : s.Shows d) (hp : d.procs[c]? = some p) (hphase : p.phase = .insert)
    (hl : p.launcher = .start i) (hname : p.name = p.config.name) :
    Answers d (.processStarted p.config.name p.pid,
      { s with registry := s.registry.insert p.config.name ⟨p.config, p.pid⟩ }) := by
  have hinserted : ProcessManager.Shows
      { s with registry := s.registry.insert p.config.name ⟨p.config, p.pid⟩ }
      { d with registry := d.registry.insert p.config.name ⟨⟨p.config, p.pid⟩, c⟩ } := by
    refine ⟨?_, h.treg, h.alive⟩
    funext name
    by_cases heq : name = p.config.name
    · simp [heq]
    · simp only [ProcessRegistry.insert_of_ne heq, h.registry]
  refine .last (a := .insert c) (t := State.reply (State.modifyProc
    { d with registry := d.registry.insert p.config.name ⟨⟨p.config, p.pid⟩, c⟩ } c
    ({ · with phase := .registered })) (.processStarted p.config.name p.pid)) ?_ rfl
    ((hinserted.modifyProc (f := ({ · with phase := .registered })) (fun _ => ⟨rfl, rfl⟩)
      c).reply _)
  simp only [step, State.insert, hp, hphase, if_true, hl, hname]

/-- The end of a start : the metrics task, and the registry. -/
theorem enter_answers (h : s.Shows d) (hp : d.procs[c]? = some p)
    (hphase : p.phase = .submitMetrics) (hl : p.launcher = .start i)
    (hname : p.name = p.config.name) (hpoisoned : o.poisoned = false) :
    Answers d (s.enter p.config p.pid o) := by
  rcases hresult : d.treg.submitMetricsTask p.pid
    ("Registering metrics task, pid: " ++ toString p.pid) o.collating with ⟨result, treg⟩
  obtain ⟨s', hsubmit, hshows⟩ := h.submit .metrics hresult
  rw [enter, hsubmit]
  cases result with
  | error e =>
    have hcannot : o.cannotKill o.collating = o.collating.isPoisoned := by
      simp [StartOutcomes.cannotKill, hpoisoned]
    obtain ⟨hshows, hreplies⟩ := hshows.abandon (c := c) hl o.collating e
    rw [hcannot]
    refine .last (a := .submitMetrics c o.collating) ?_ hreplies hshows
    simp only [step, State.submitMetrics, hp, hphase, if_true, hresult]
  | ok id =>
    refine .of_step (a := .submitMetrics c o.collating)
      (t := State.modifyProc { d with treg } c ({ · with phase := .insert })) ?_ rfl
      (insert_answers (p := { p with phase := .insert }) (i := i)
        (hshows.modifyProc (f := ({ · with phase := .insert })) (fun _ => ⟨rfl, rfl⟩) c)
        (getElem?_modifyProc (d := { d with treg }) hp _) rfl hl hname)
    simp only [step, State.submitMetrics, hp, hphase, if_true, hresult]

theorem cannotKill_eq (h : o.poisoned = false) (fate : Submission) :
    o.cannotKill fate = fate.isPoisoned := by
  simp [StartOutcomes.cannotKill, h]

/-- The part of a start that needs nothing but the process fails. -/
theorem prepare_answers (h : s.Shows d) (hp : d.procs[c]? = some p)
    (hl : p.launcher = .start i) {a : Action} {phase next : Phase} {failure e : String}
    (ha : step a d = d.prepare c phase next failure (some e)) (hphase : p.phase = phase) :
    Answers d (.error (failure ++ e), s.sigkill p.pid) := by
  refine .last (a := a) (t := (State.modifyProc (d.sigkill p.pid) c
    ({ · with phase := .failed })).reply (.error (failure ++ e))) ?_ rfl
    (((h.sigkill p.pid).modifyProc (f := ({ · with phase := .failed })) (fun _ => ⟨rfl, rfl⟩)
      c).reply _)
  simp only [ha, State.prepare, hp, hphase, if_true, State.failLaunch, hl]

theorem prepare_step (hp : d.procs[c]? = some p) {a : Action} {phase next : Phase}
    {failure : String} (ha : step a d = d.prepare c phase next failure none)
    (hphase : p.phase = phase) :
    step a d = some (d.modifyProc c ({ · with phase := next })) := by
  simp only [ha, State.prepare, hp, hphase, if_true]

/-- A start that submits its monitoring task. -/
theorem monitor_answers (h : s.Shows d) (hp : d.procs[c]? = some p)
    (hphase : p.phase = .submitProcess) (hl : p.launcher = .start i)
    (hname : p.name = p.config.name) (hpoisoned : o.poisoned = false)
    {result : Except AsyncError TaskId} {s' : ProcessManager}
    (hsubmit : s.submit .process p.pid ("Registering lifecycle task, pid: " ++ toString p.pid)
      o.monitoring = (result, s')) :
    (∀ e, result = .error e → Answers d (s'.abandon p.pid (o.cannotKill o.monitoring) e)) ∧
      ∀ id, result = .ok id → Answers d (s'.enter p.config p.pid o) := by
  rcases hresult : d.treg.submitProcessMonitoringTask p.pid
    ("Registering lifecycle task, pid: " ++ toString p.pid) o.monitoring with ⟨result', treg⟩
  obtain ⟨s'', hsubmit', hshows⟩ := h.submit .process hresult
  obtain ⟨rfl, rfl⟩ := Prod.mk.inj (hsubmit.symm.trans hsubmit')
  constructor
  · rintro e rfl
    obtain ⟨hshows, hreplies⟩ := hshows.abandon (c := c) hl o.monitoring e
    rw [cannotKill_eq hpoisoned]
    refine .last (a := .submitProcess c o.monitoring) ?_ hreplies hshows
    simp only [step, State.submitProcess, hp, hphase, if_true, hresult]
  · rintro id rfl
    refine .of_step (a := .submitProcess c o.monitoring)
      (t := State.modifyProc { d with treg } c
        ({ · with phase := .submitMetrics, watch := .queued id })) ?_ rfl
      (enter_answers (p := { p with phase := .submitMetrics, watch := .queued id }) (i := i)
        (hshows.modifyProc (f := ({ · with phase := .submitMetrics, watch := .queued id }))
          (fun _ => ⟨rfl, rfl⟩) c)
        (getElem?_modifyProc (d := { d with treg }) hp _) rfl hl hname hpoisoned)
    simp only [step, State.submitProcess, hp, hphase, if_true, hresult]

/-- A start whose child has its metrics and its logger. -/
theorem register_prepared (h : s.Shows d) (hp : d.procs[c]? = some p)
    (hphase : p.phase = .submitLogging) (hl : p.launcher = .start i)
    (hname : p.name = p.config.name) (hpoisoned : o.poisoned = false) (hprepares : o.Prepares) :
    Answers d (s.register p.config p.pid o) := by
  rcases hresult : d.treg.submitLoggingTask p.pid "Registering Log task" o.logging with
    ⟨result, treg⟩
  obtain ⟨s', hsubmit, hshows⟩ := h.submit .logging hresult
  have hsend : s.sendToRuntime (ProcessLogger.new p.pid).setHandles o.logging = (.ok (), s') := by
    have hpair : (s.submit .logging p.pid "Registering Log task" o.logging).2 = s' :=
      congrArg Prod.snd hsubmit
    rw [← hpair]
    rfl
  rcases hsubmitted : s'.submit .process p.pid
    ("Registering lifecycle task, pid: " ++ toString p.pid) o.monitoring with ⟨result', s''⟩
  obtain ⟨herror, hok⟩ := monitor_answers (p := { p with phase := .submitProcess }) (i := i)
    (hshows.modifyProc (f := ({ · with phase := .submitProcess })) (fun _ => ⟨rfl, rfl⟩) c)
    (getElem?_modifyProc (d := { d with treg }) hp _) rfl hl hname hpoisoned hsubmitted
  refine .of_step (a := .submitLogging c o.logging) (t := State.modifyProc { d with treg } c
    ({ · with phase := .submitProcess })) ?_ rfl ?_
  · simp only [step, State.submitLogging, hp, hphase, if_true, hresult]
  · simp only [register, hprepares.metrics, hprepares.logger, hsend, hsubmitted]
    cases result' with
    | error e => exact herror e rfl
    | ok id => exact hok id rfl

/-- A start whose child has its metrics. -/
theorem register_measured (h : s.Shows d) (hp : d.procs[c]? = some p)
    (hphase : p.phase = .logger) (hl : p.launcher = .start i)
    (hname : p.name = p.config.name) (hpoisoned : o.poisoned = false)
    (hmetrics : o.metrics = none) : Answers d (s.register p.config p.pid o) := by
  have hstep (err : Option String) : step (.logger c err) d =
      d.prepare c .logger .submitLogging "Could not start logger for this task: " err := rfl
  cases hlogger : o.logger with
  | some e =>
    simp only [register, hmetrics, hlogger]
    exact prepare_answers h hp hl (hstep (some e)) hphase
  | none =>
    exact .of_step (prepare_step hp (hstep none) hphase) rfl
      (register_prepared (p := { p with phase := .submitLogging })
        (h.modifyProc (f := ({ · with phase := .submitLogging })) (fun _ => ⟨rfl, rfl⟩) c)
        (getElem?_modifyProc hp _) rfl hl hname hpoisoned ⟨hmetrics, hlogger⟩)

/-- A start that has its child. -/
theorem register_answers (h : s.Shows d) (hp : d.procs[c]? = some p)
    (hphase : p.phase = .metrics) (hl : p.launcher = .start i)
    (hname : p.name = p.config.name) (hpoisoned : o.poisoned = false) :
    Answers d (s.register p.config p.pid o) := by
  have hstep (err : Option String) : step (.metrics c err) d =
      d.prepare c .metrics .logger "Could not create metrics for this task: " err := rfl
  cases hmetrics : o.metrics with
  | some e =>
    simp only [register, hmetrics]
    exact prepare_answers h hp hl (hstep (some e)) hphase
  | none =>
    exact .of_step (prepare_step hp (hstep none) hphase) rfl
      (register_measured (p := { p with phase := .logger })
        (h.modifyProc (f := ({ · with phase := .logger })) (fun _ => ⟨rfl, rfl⟩) c)
        (getElem?_modifyProc hp _) rfl hl hname hpoisoned hmetrics)

/-- A new child, which may end by itself. -/
theorem Shows.addProc (h : s.Shows d) (hfree : d.pidTaken o.pid = false) (hpid : p.pid = o.pid)
    (hstatus : p.status = .alive) :
    ∃ d' status, Runs.Reach step (d.addProc p) (fun _ _ => True) d' ∧ (s.forked o).Shows d' ∧
      d'.replies = d.replies ∧ d'.procs[d.procs.length]? = some { p with status } := by
  have hadded : (d.addProc p).procs[d.procs.length]? = some p := by simp [State.addProc]
  cases hexits : o.exits with
  | false =>
    refine ⟨d.addProc p, .alive, .init, ⟨h.registry, h.treg, ?_⟩, rfl, ?_⟩
    · rw [State.alivePids_addProc d hstatus, ← h.alive, hpid, forked, hexits]
      rfl
    · rw [hadded, ← hstatus]
  | true =>
    refine ⟨(d.addProc p).modifyProc d.procs.length ({ · with status := .zombie }), .zombie,
      .step (a := .exit d.procs.length) .init trivial ?_, ⟨h.registry, h.treg, ?_⟩, rfl,
      getElem?_modifyProc hadded _⟩
    · simp only [step, State.exit, hadded, hstatus, if_true]
    · have hprocs : ((d.addProc p).modifyProc d.procs.length ({ · with status := .zombie })).procs =
          d.procs ++ [{ p with status := .zombie }] := by
        simp [State.modifyProc, State.addProc, List.modify_eq_take_cons_drop]
      funext pid
      have hrest : Function.update d.alivePids o.pid false pid = d.alivePids pid := by
        by_cases heq : pid = o.pid
        · rw [heq, Function.update_self, State.alivePids_of_free hfree]
        · rw [Function.update_of_ne heq]
      simp only [forked, setAlive, hexits, Bool.not_true, h.alive, hrest]
      simp [State.alivePids, hprocs]

/-- A start whose name is free. -/
theorem fork_answers {config : ProcessConfig} {r : CommandResult × ProcessManager}
    (h : s.Shows d) (hi : d.starts i = some (.forking config)) (hfree : d.pidTaken o.pid = false)
    (hpoisoned : o.poisoned = false) (hname : s.registry config.name = none)
    (hr : s.start config o = some r) : Answers d r := by
  have hcases := spawn_cases o.os config o.pid o.machine
  have hfork : step (.fork (.start i) o.os o.pid o.machine) d =
      d.fork (.start i) o.os o.pid o.machine := rfl
  have hdone (starts : ℕ → Option StartCall) (replies : List CommandResult) :
      s.Shows { d with starts, replies } := ⟨h.registry, h.treg, h.alive⟩
  simp only [start, hname, Option.isSome_none, Bool.false_eq_true, if_false] at hr
  simp only [State.fork, State.forkConfig, hi, hfree, Bool.false_eq_true, if_false] at hfork
  generalize createChildExecContextFromConfig o.os config o.pid o.machine = spawned
    at hcases hr hfork
  cases hcases with
  | notForked hforks =>
    obtain rfl := Option.some_inj.mp hr
    exact .last hfork rfl (hdone _ _)
  | aborted hforks hrefuses => cases hr
  | started hforks htakes =>
    obtain rfl := Option.some_inj.mp hr
    obtain ⟨d', status, hreach, hshows, hreplies, hp⟩ := (hdone (Function.update d.starts i none)
      d.replies).addProc (o := o)
      (p := ⟨o.pid, config.name, config, .alive, .start i, .metrics, .none⟩) hfree rfl rfl
    exact .of_step hfork rfl (.of_reach hreach hreplies
      (register_answers hshows hp rfl rfl rfl hpoisoned))
  | lost hforks hfails =>
    obtain rfl := Option.some_inj.mp hr
    obtain ⟨d', status, hreach, hshows, hreplies, -⟩ := (hdone (Function.update d.starts i none)
      _).addProc (o := o)
      (p := ⟨o.pid, config.name, config, .alive, .start i, .leaked, .none⟩) hfree rfl rfl
    exact ⟨d', .trans (.step .init trivial hfork) hreach, hshows, hreplies⟩

/-- A call of start in which nobody comes. -/
theorem start_steps {config : ProcessConfig} {r : CommandResult × ProcessManager}
    (h : s.Shows d) (hi : d.starts i = none) (hfree : d.pidTaken o.pid = false)
    (hpoisoned : o.poisoned = false) (hr : s.start config o = some r) : Answers d r := by
  have hdone (starts : ℕ → Option StartCall) (replies : List CommandResult) :
      s.Shows { d with starts, replies } := ⟨h.registry, h.treg, h.alive⟩
  have hcall : step (.startCall i config) d = some { d with
      starts := Function.update d.starts i (some (.checking config)) } := by
    simp only [step, State.startCall, hi]
  have hcheck : step (.startCheck i) { d with
      starts := Function.update d.starts i (some (.checking config)) } = State.startCheck { d with
      starts := Function.update d.starts i (some (.checking config)) } i := rfl
  simp only [State.startCheck, Function.update_self, Function.update_idem] at hcheck
  refine .of_step hcall rfl ?_
  cases hname : s.registry config.name with
  | some task =>
    have htaken : (d.registry config.name).isSome := by
      simpa [h.registry] using congrArg Option.isSome hname
    simp only [start, hname, Option.isSome_some, if_true, Option.some_inj] at hr
    simp only [htaken, if_true] at hcheck
    subst hr
    exact .last hcheck rfl (hdone _ _)
  | none =>
    have hempty : (d.registry config.name).isSome = false := by
      simpa [h.registry] using congrArg Option.isSome hname
    simp only [hempty, Bool.false_eq_true, if_false] at hcheck
    exact .of_step hcheck rfl (fork_answers (hdone _ d.replies) (Function.update_self ..) hfree
      hpoisoned hname hr)

end Start

/-! ## Stop -/

/-- A call of stop in which nobody comes. The kill fails when no process has the pid. -/
theorem stop_steps {s : ProcessManager} {d : State} {i : ℕ} {process : String} {poisoned : Bool}
    {failure : Option OsError} {now : ℕ → Timestamp} (h : s.Shows d) (hi : d.stops i = none)
    (hfailure : ∀ v, s.registry process = some v → failure.isNone = d.pidTaken v.inner) :
    Answers d (s.stop process poisoned failure now) := by
  have hstop : step (.stop i process poisoned) d = d.stop i process poisoned := rfl
  have hentry : s.registry process = (d.registry process).map (·.task) :=
    congrFun h.registry process
  cases hd : d.registry process with
  | none =>
    simp only [State.stop, State.stopRemove, hi, hd, State.reply, Option.isSome_none,
      Bool.false_eq_true, if_false] at hstop
    rw [hd, Option.map_none] at hentry
    simp only [ProcessManager.stop, hentry]
    exact .last hstop rfl (h.reply _)
  | some entry =>
    rw [hd, Option.map_some] at hentry
    have htaken := hfailure entry.task hentry
    simp only [State.stop, State.stopRemove, hi, hd, Function.update_self, Option.isSome_some,
      if_true, State.stopKill, Function.update_idem] at hstop
    have hremoved : ProcessManager.Shows { s with registry := s.registry.remove process }
        { d with
          registry := d.registry.remove process
          stops := Function.update d.stops i none } := by
      refine ⟨?_, h.treg, h.alive⟩
      funext name
      by_cases heq : name = process
      · simp [heq]
      · simp only [ProcessRegistry.remove_of_ne heq, h.registry]
    have hlogged := hremoved.log ⟨.yapmLog, now 0, "The process: " ++ process ++
      " has been terminated by YAPM"⟩
    simp only [ProcessManager.stop, hentry]
    cases poisoned with
    | true =>
      simp only [if_true] at hstop
      exact .last hstop rfl ((hlogged.killTasksByPid entry.task.inner true).reply _)
    | false =>
      have hkilled := hlogged.killTasksByPid entry.task.inner false
      simp only [Bool.false_eq_true, if_false] at hstop
      have hfails : State.pidTaken { d with
          registry := d.registry.remove process
          stops := Function.update d.stops i none } entry.task.inner = failure.isNone :=
        htaken.symm
      rw [State.pidTaken_killTasks, hfails] at hstop
      cases failure with
      | none =>
        refine .last hstop ?_ (((hkilled.sigkill entry.task.inner).log _).reply _)
        simp only [State.reply, State.sigkill, replies_killTasks]
        rfl
      | some e =>
        have hgone := hkilled.sigkill_free entry.task.inner
          (by rw [State.pidTaken_killTasks]; exact hfails)
        refine .last hstop ?_ (hgone.reply _)
        simp only [State.reply, State.sigkill, replies_killTasks]
        rfl

end ProcessManager

end Yapm
