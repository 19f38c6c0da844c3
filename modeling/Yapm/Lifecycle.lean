import Yapm.Inversion

/-!
# What a step of the daemon can do

This is said once. `Proc.Evolves` : what may become of one process, whose pid, name and
launcher stay, whose launch does not go on after its end, and which does not come back to
life. `Change` : what may become of the processes, the registry, the handler, the requests
and the stops together, with one case for each kind of step. `change_of_step` is the
inversion of the step function, and every invariant of the daemon is proved from `Change`.
-/

namespace Yapm

/-! ## One process -/

/-- The monitoring task is yet to be submitted. -/
def Phase.unsubmitted : Phase → Bool
  | .metrics | .logger | .submitLogging | .submitProcess => true
  | _ => false

/-- The process may still bring something under its name : it is monitored, or its launch
will register it, or it is the restart handler's. -/
def Proc.isActive (p : Proc) : Bool :=
  p.watch.isLive || p.phase.submitted || (p.launcher = .handler && p.phase.inProgress)

/-- The process at `c` is in order. -/
structure Proc.Ok (c : ProcId) (p : Proc) : Prop where
  reaped : p.status = .reaped → p.watch = .ended
  watching : ∀ id d, p.watch = .watching id d → d = c
  unsubmitted : p.phase.unsubmitted → p.watch = .none
  failed : p.phase = .failed → p.status ≠ .alive

/-- A process is in order when it has just been forked. -/
theorem Proc.Ok.of_new {c : ProcId} {p : Proc} (hstatus : p.status = .alive)
    (hwatch : p.watch = .none) (hphase : p.phase ≠ .failed) : p.Ok c where
  reaped h := by simp [hstatus] at h
  watching id d h := by simp [hwatch] at h
  unsubmitted _ := hwatch
  failed h := absurd h hphase

/-- What may become of the process at `c`. Only `x` may become active or registered. -/
structure Proc.Evolves (x : Option ProcId) (c : ProcId) (p p' : Proc) : Prop where
  pid : p'.pid = p.pid
  name : p'.name = p.name
  launcher : p'.launcher = p.launcher
  finished : p.phase.inProgress = false → p'.phase = p.phase
  alive : p'.status = .alive → p.status = .alive
  reaped : p.status = .reaped → p'.status = .reaped
  ok : p.Ok c → p'.Ok c
  active : p'.isActive → p.isActive ∨ x = some c
  registered : p'.phase = .registered → p.phase = .registered ∨ x = some c
  leaked : p'.phase = .leaked → p.phase = .leaked

namespace Proc.Evolves

variable {x : Option ProcId} {c : ProcId} {p p' p'' : Proc}

theorem refl (x : Option ProcId) (c : ProcId) (p : Proc) : p.Evolves x c p :=
  ⟨rfl, rfl, rfl, fun _ => rfl, id, id, id, .inl, .inl, id⟩

theorem trans (h : p.Evolves x c p') (h' : p'.Evolves x c p'') : p.Evolves x c p'' where
  pid := h'.pid.trans h.pid
  name := h'.name.trans h.name
  launcher := h'.launcher.trans h.launcher
  finished hf := by
    have hphase := h.finished hf
    rw [h'.finished (by rw [hphase, hf]), hphase]
  alive ha := h.alive (h'.alive ha)
  reaped hr := h'.reaped (h.reaped hr)
  ok hok := h'.ok (h.ok hok)
  active ha := (h'.active ha).elim h.active .inr
  registered hr := (h'.registered hr).elim h.registered .inr
  leaked hl := h.leaked (h'.leaked hl)

theorem sigkill (x : Option ProcId) (c : ProcId) (p : Proc) (pid : Pid) :
    p.Evolves x c (p.sigkill pid) := by
  unfold Proc.sigkill
  split
  · rename_i hp
    exact
      { pid := rfl, name := rfl, launcher := rfl, finished := fun _ => rfl
        alive := fun h => (nomatch h)
        reaped := fun h => (nomatch hp.2.symm.trans h)
        ok := fun h => ⟨fun hr => (nomatch hr), h.watching, h.unsubmitted, fun _ h => (nomatch h)⟩
        active := .inl
        registered := .inl
        leaked := id }
  · exact refl x c p

theorem abort (x : Option ProcId) (c : ProcId) (p : Proc) (handles : List JoinHandle) :
    p.Evolves x c (p.abort handles) := by
  have hended (hlive : p.watch.isLive) : p.Evolves x c { p with watch := .ended } :=
    { pid := rfl, name := rfl, launcher := rfl, finished := fun _ => rfl, alive := id
      reaped := id
      ok := fun h =>
        { reaped := fun _ => rfl
          watching := fun _ _ h => (nomatch h)
          unsubmitted := fun hu => by rw [h.unsubmitted hu] at hlive; cases hlive
          failed := h.failed }
      active := fun _ => .inl (by simp [isActive, hlive])
      registered := .inl
      leaked := id }
  unfold Proc.abort
  split
  · split
    · exact hended (by simp [Watch.isLive, *])
    · exact refl x c p
  · split
    · exact hended (by simp [Watch.isLive, *])
    · exact refl x c p
  · exact refl x c p

/-- A launch goes on, or ends. -/
theorem setPhase (x : Option ProcId) (c : ProcId) {phase : Phase} (hin : p.phase.inProgress)
    (huns : phase.unsubmitted → p.phase.unsubmitted) (hsub : phase.submitted → p.phase.submitted)
    (hfail : phase = .failed → p.status ≠ .alive) (hreg : phase = .registered → x = some c)
    (hleak : phase ≠ .leaked) : p.Evolves x c { p with phase } where
  pid := rfl
  name := rfl
  launcher := rfl
  finished h := by rw [hin] at h; cases h
  alive := id
  reaped := id
  ok h := ⟨h.reaped, h.watching, fun hu => h.unsubmitted (huns hu), hfail⟩
  active h := by
    simp only [isActive, Bool.or_eq_true, Bool.and_eq_true] at h ⊢
    rcases h with (h | h) | h
    · exact .inl (.inl (.inl h))
    · exact .inl (.inl (.inr (hsub h)))
    · exact .inl (.inr ⟨h.1, hin⟩)
  registered h := .inr (hreg h)
  leaked h := absurd h hleak

end Proc.Evolves

/-! ## All processes -/

/-- What may become of the processes and their records. -/
structure State.Evolves (x : Option ProcId) (s s' : State) : Prop where
  length : s'.procs.length = s.procs.length
  procs : ∀ (c : ProcId) (p : Proc), s.procs[c]? = some p →
    ∃ p', s'.procs[c]? = some p' ∧ p.Evolves x c p'
  treg : s.treg.Ok → s'.treg.Ok

namespace State.Evolves

variable {x : Option ProcId} {s s' s'' : State} {c : ProcId}

theorem of_procs_eq (hp : s'.procs = s.procs) (ht : s.treg.Ok → s'.treg.Ok) : s.Evolves x s' where
  length := by rw [hp]
  procs c p h := ⟨p, by rw [hp, h], .refl x c p⟩
  treg := ht

theorem of_eq (hp : s'.procs = s.procs) (ht : s'.treg = s.treg) : s.Evolves x s' :=
  of_procs_eq hp (by rw [ht]; exact id)

theorem trans (h : s.Evolves x s') (h' : s'.Evolves x s'') : s.Evolves x s'' where
  length := h'.length.trans h.length
  procs c p hp := by
    obtain ⟨p', hp', hev⟩ := h.procs c p hp
    obtain ⟨p'', hp'', hev'⟩ := h'.procs c p' hp'
    exact ⟨p'', hp'', hev.trans hev'⟩
  treg ht := h'.treg (h.treg ht)

theorem modifyProc {f : Proc → Proc}
    (hf : ∀ p, s.procs[c]? = some p → p.Evolves x c (f p)) : s.Evolves x (s.modifyProc c f) where
  length := List.length_modify _ _ _
  procs d p hp := by
    refine ⟨if c = d then f p else p, ?_, ?_⟩
    · simp [State.modifyProc, List.getElem?_modify, hp]
    · split
      · rename_i hcd
        subst hcd
        exact hf p hp
      · exact .refl x d p
  treg := id

theorem sigkill (x : Option ProcId) (s : State) (pid : Pid) : s.Evolves x (s.sigkill pid) where
  length := List.length_map _
  procs c p hp := ⟨p.sigkill pid, by simp [State.sigkill, hp], .sigkill x c p pid⟩
  treg := id

theorem killTasks (x : Option ProcId) (s : State) (pid : Pid) (poisoned : Bool) :
    s.Evolves x (s.killTasks pid poisoned) := by
  unfold State.killTasks
  split
  · exact of_procs_eq rfl id
  · exact
      { length := List.length_map _
        procs := fun c p hp =>
          ⟨p.abort (s.treg.killTasksByPid pid).1, by simp [hp], .abort x c p _⟩
        treg := fun ht => ht.killTasksByPid pid }

/-- A process after the step was there before it. -/
theorem origin (h : s.Evolves x s') {p' : Proc} (hp' : s'.procs[c]? = some p') :
    ∃ p, s.procs[c]? = some p ∧ p.Evolves x c p' := by
  have hlt := (List.getElem?_eq_some_iff.mp hp').1
  rw [h.length] at hlt
  obtain ⟨p'', hp'', hev⟩ := h.procs c _ (List.getElem?_eq_getElem hlt)
  rw [hp'] at hp''
  cases hp''
  exact ⟨_, List.getElem?_eq_getElem hlt, hev⟩

end State.Evolves

/-! ## The whole state -/

/-- Registry, handler, requests and stops stay. -/
structure State.Keeps (s s' : State) : Prop where
  registry : s'.registry = s.registry
  handler : s'.handler = s.handler
  requests : s'.requests = s.requests
  stops : s'.stops = s.stops

/-- The handler once a launch failed. -/
def Handler.afterFailure (h : Handler) : Launcher → Handler
  | .start _ => h
  | .handler => .stopped

/-- What a step does to the state. -/
inductive Change (s : State) : Action → State → Prop
  | quiet {a : Action} {s' : State} (hev : s.Evolves none s') (hk : s.Keeps s') : Change s a s'
  | forked {l : Launcher} {os : Os} {m : Machine} {s' : State} {p : Proc}
      (hfork : s.forkConfig l = some (p.name, p.config)) (hfree : s.pidTaken p.pid = false)
      (hp : p = ⟨p.pid, p.name, p.config, .alive, l, .metrics, .none⟩)
      (hprocs : s'.procs = s.procs ++ [p]) (htreg : s'.treg = s.treg)
      (hregistry : s'.registry = s.registry) (hrequests : s'.requests = s.requests)
      (hstops : s'.stops = s.stops)
      (hhandler : s'.handler =
        if l = .handler then .launching p.name s.procs.length else s.handler) :
      Change s (.fork l os p.pid m) s'
  | forkFailed {l : Launcher} {os : Os} {pid : Pid} {m : Machine} {s' : State}
      (hprocs : s'.procs = s.procs) (htreg : s'.treg = s.treg)
      (hregistry : s'.registry = s.registry) (hrequests : s'.requests = s.requests)
      (hstops : s'.stops = s.stops) (hhandler : s'.handler = s.handler.afterFailure l)
      (hfork : ∃ cfg, s.forkConfig l = some cfg) :
      Change s (.fork l os pid m) s'
  | leaked {l : Launcher} {os : Os} {m : Machine} {s' : State} {p : Proc}
      (hfork : s.forkConfig l = some (p.name, p.config)) (hfree : s.pidTaken p.pid = false)
      (hp : p = ⟨p.pid, p.name, p.config, .alive, l, .leaked, .none⟩)
      (hspawned : ∃ e exit,
        (createChildExecContextFromConfig os p.config p.pid m).parent = .returned (.error e) ∧
        (createChildExecContextFromConfig os p.config p.pid m).child = some exit)
      (hprocs : s'.procs = s.procs ++ [p]) (htreg : s'.treg = s.treg)
      (hregistry : s'.registry = s.registry) (hrequests : s'.requests = s.requests)
      (hstops : s'.stops = s.stops) (hhandler : s'.handler = s.handler.afterFailure l) :
      Change s (.fork l os p.pid m) s'
  | launchFailed {a : Action} {s' : State} {c : ProcId} {p p' : Proc}
      (hev : s.Evolves none s') (hp : s.procs[c]? = some p) (hin : p.phase.inProgress)
      (hp' : s'.procs[c]? = some p') (hfailed : p'.phase = .failed)
      (hregistry : s'.registry = s.registry) (hrequests : s'.requests = s.requests)
      (hstops : s'.stops = s.stops) (hhandler : s'.handler = s.handler.afterFailure p.launcher) :
      Change s a s'
  | submitted {s' : State} {c : ProcId} {fate : Submission} {p p' : Proc}
      (hev : s.Evolves (some c) s') (hp : s.procs[c]? = some p) (hphase : p.phase = .submitProcess)
      (hp' : s'.procs[c]? = some p') (hphase' : p'.phase = .submitMetrics) (hk : s.Keeps s') :
      Change s (.submitProcess c fate) s'
  | inserted {s' : State} {c : ProcId} {p p' : Proc}
      (hev : s.Evolves (some c) s') (hp : s.procs[c]? = some p) (hphase : p.phase = .insert)
      (hp' : s'.procs[c]? = some p') (hphase' : p'.phase = .registered)
      (hregistry : s'.registry = s.registry.insert p.name ⟨⟨p.config, p.pid⟩, c⟩)
      (hrequests : s'.requests = s.requests) (hstops : s'.stops = s.stops)
      (hhandler : s'.handler = if p.launcher = .handler then .idle else s.handler) :
      Change s (.insert c) s'
  | stopRemoved {s' : State} {i : ℕ} {name : String} {e : Entry}
      (he : s.registry name = some e) (hprocs : s'.procs = s.procs) (htreg : s'.treg = s.treg)
      (hregistry : s'.registry = s.registry.remove name) (hhandler : s'.handler = s.handler)
      (hrequests : s'.requests = s.requests)
      (hstops : s'.stops = Function.update s.stops i (some ⟨name, e⟩)) :
      Change s (.stopRemove i name) s'
  | stopKilled {s' : State} {i : ℕ} {poisoned : Bool} (hev : s.Evolves none s')
      (hregistry : s'.registry = s.registry) (hhandler : s'.handler = s.handler)
      (hrequests : s'.requests = s.requests)
      (hstops : s'.stops = Function.update s.stops i none) : Change s (.stopKill i poisoned) s'
  | stopped {s' : State} {i : ℕ} {name : String} {poisoned : Bool} {e : Entry}
      (he : s.registry name = some e) (hev : s.Evolves none s')
      (hregistry : s'.registry = s.registry.remove name) (hhandler : s'.handler = s.handler)
      (hrequests : s'.requests = s.requests) (hstops : s'.stops = s.stops)
      (hdead : poisoned = false → ∀ (c : ProcId) (p' : Proc), s'.procs[c]? = some p' →
        p'.pid = e.task.inner → p'.status ≠ .alive) :
      Change s (.stop i name poisoned) s'
  | exitSeen {s' : State} {c : ProcId} {p p' : Proc} (hev : s.Evolves none s')
      (hp : s.procs[c]? = some p) (hlive : p.watch.isLive) (hp' : s'.procs[c]? = some p')
      (hreaped : p'.status = .reaped) (hregistry : s'.registry = s.registry)
      (hhandler : s'.handler = s.handler) (hreceives : s.handler.receives)
      (hrequests : s'.requests = s.requests ++ [⟨p.name, c⟩]) (hstops : s'.stops = s.stops) :
      Change s (.monitorExit c) s'
  | received {r : RestartRequest} {requests : List RestartRequest} (hidle : s.handler = .idle)
      (hr : s.requests = r :: requests) :
      Change s .recv { s with handler := .removing r, requests }
  | notFound {r : RestartRequest} (hh : s.handler = .removing r) (hr : s.registry r.name = none) :
      Change s .remove { s with handler := .panicked }
  | removed {s' : State} {r : RestartRequest} {e : Entry} (hh : s.handler = .removing r)
      (he : s.registry r.name = some e) (hprocs : s'.procs = s.procs) (htreg : s'.treg = s.treg)
      (hregistry : s'.registry = s.registry.remove r.name) (hrequests : s'.requests = s.requests)
      (hstops : s'.stops = s.stops) (hhandler : s'.handler = .deciding r e) :
      Change s .remove s'
  | dropped {s' : State} {poisoned : Bool} {r : RestartRequest} {e : Entry}
      (hh : s.handler = .deciding r e) (hdrop : e.task.respawn.1 = false)
      (hev : s.Evolves none s') (hregistry : s'.registry = s.registry)
      (hrequests : s'.requests = s.requests) (hstops : s'.stops = s.stops)
      (hhandler : s'.handler = .removingAgain r) :
      Change s (.decide poisoned) s'
  | respawned {s' : State} {poisoned : Bool} {r : RestartRequest} {e : Entry}
      {config : ProcessConfig} (hh : s.handler = .deciding r e) (hev : s.Evolves none s')
      (hregistry : s'.registry = s.registry) (hrequests : s'.requests = s.requests)
      (hstops : s'.stops = s.stops) (hhandler : s'.handler = .forking r.name config) :
      Change s (.decide poisoned) s'
  | removedAgain {r : RestartRequest} (hh : s.handler = .removingAgain r) :
      Change s .removeAgain { s with registry := s.registry.remove r.name, handler := .idle }

/-- Every process is in order. -/
def State.Ok (s : State) : Prop :=
  ∀ (c : ProcId) (p : Proc), s.procs[c]? = some p → p.Ok c

/-- Processes that have not been reaped have different pids. -/
def State.PidsDistinct (s : State) : Prop :=
  ∀ {c d : ProcId} {p q : Proc}, s.procs[c]? = some p → s.procs[d]? = some q →
    p.status ≠ .reaped → q.status ≠ .reaped → p.pid = q.pid → c = d

theorem State.findPid_spec {s : State} {pid : Pid} {d : ProcId} (h : s.findPid pid = some d) :
    ∃ q, s.procs[d]? = some q ∧ q.pid = pid ∧ q.status ≠ .reaped := by
  obtain ⟨hlt, hq, -⟩ := List.findIdx?_eq_some_iff_getElem.mp h
  exact ⟨_, List.getElem?_eq_getElem hlt, by simpa using hq⟩

@[simp] theorem Proc.sigkill_phase (p : Proc) (pid : Pid) : (p.sigkill pid).phase = p.phase := by
  unfold Proc.sigkill
  split <;> rfl

theorem Proc.sigkill_status (p : Proc) : (p.sigkill p.pid).status ≠ .alive := by
  unfold Proc.sigkill
  split
  · exact fun h => nomatch h
  · rename_i h
    exact fun ha => h ⟨rfl, ha⟩

@[simp] theorem Proc.abort_phase (p : Proc) (handles : List JoinHandle) :
    (p.abort handles).phase = p.phase := by
  unfold Proc.abort
  split
  · split <;> rfl
  · split <;> rfl
  · rfl

/-- No process with the pid outlives `SIGKILL`. -/
theorem State.dead_sigkill {s : State} {pid : Pid} {c : ProcId} {p : Proc}
    (hp : (s.sigkill pid).procs[c]? = some p) (hpid : p.pid = pid) : p.status ≠ .alive := by
  simp only [State.sigkill, List.getElem?_map, Option.map_eq_some_iff] at hp
  obtain ⟨q, -, rfl⟩ := hp
  have hq : q.pid = pid := by rw [← (Proc.Evolves.sigkill none c q pid).pid, hpid]
  rw [← hq]
  exact q.sigkill_status

namespace Change

variable {s s₁ s' : State} {a : Action} {c : ProcId} {p p₁ : Proc}

/-- A launch fails once its process is killed. -/
theorem of_failLaunch (hev : s.Evolves none s₁) (hk : s.Keeps s₁) (hp : s.procs[c]? = some p)
    (hin : p.phase.inProgress) (hp₁ : s₁.procs[c]? = some p₁) (hphase : p₁.phase = p.phase)
    (hdead : p₁.status ≠ .alive) (msg : String) :
    Change s a (s₁.failLaunch c p.launcher msg) := by
  have hev₁ : s₁.Evolves none (s₁.modifyProc c ({ · with phase := .failed })) := by
    refine .modifyProc fun q hq => ?_
    rw [hp₁, Option.some_inj] at hq
    subst hq
    exact .setPhase none c (by rw [hphase, hin]) (fun h => nomatch h) (fun h => nomatch h)
      (fun _ => hdead) (fun h => nomatch h) fun h => nomatch h
  have hp' : (s₁.modifyProc c ({ · with phase := .failed })).procs[c]? =
      some { p₁ with phase := .failed } := by
    simp [State.modifyProc, hp₁]
  have hev' := hev.trans hev₁
  unfold State.failLaunch
  cases hl : p.launcher with
  | start i =>
    exact .launchFailed ⟨hev'.length, hev'.procs, hev'.treg⟩ hp hin hp' rfl hk.registry hk.requests
      hk.stops (by rw [hl]; exact hk.handler)
  | handler =>
    exact .launchFailed ⟨hev'.length, hev'.procs, hev'.treg⟩ hp hin hp' rfl hk.registry hk.requests
      hk.stops (by rw [hl]; rfl)

/-- A launch whose process is killed with `SIGKILL` fails. -/
theorem of_sigkill (hp : s.procs[c]? = some p) (hin : p.phase.inProgress) (msg : String) :
    Change s a ((s.sigkill p.pid).failLaunch c p.launcher msg) := by
  have hp₁ : (s.sigkill p.pid).procs[c]? = some (p.sigkill p.pid) := by simp [State.sigkill, hp]
  exact of_failLaunch (.sigkill none s p.pid) ⟨rfl, rfl, rfl, rfl⟩ hp hin hp₁
    (p.sigkill_phase p.pid) p.sigkill_status msg

theorem keeps_killTasks (s : State) (pid : Pid) (poisoned : Bool) :
    s.Keeps (s.killTasks pid poisoned) := by
  unfold State.killTasks
  split <;> exact ⟨rfl, rfl, rfl, rfl⟩

/-- A launch whose submission failed. -/
theorem of_failSubmission {treg : TaskRegistry} (htreg : s.treg.Ok → treg.Ok)
    (hp : s.procs[c]? = some p) (hin : p.phase.inProgress) (fate : Submission) (e : AsyncError) :
    Change s a ({ s with treg }.failSubmission c p fate e) := by
  have hp₁ : ({ s with treg }.sigkill p.pid).procs[c]? = some (p.sigkill p.pid) := by
    simp [State.sigkill, hp]
  have hev : s.Evolves none { s with treg } := .of_procs_eq rfl htreg
  have hkeeps := keeps_killTasks ({ s with treg }.sigkill p.pid) p.pid fate.isPoisoned
  have hkill := State.Evolves.killTasks none ({ s with treg }.sigkill p.pid) p.pid fate.isPoisoned
  obtain ⟨p₂, hp₂, hev₂⟩ := hkill.procs c _ hp₁
  have hphase : p₂.phase = p.phase := by
    rw [← p.sigkill_phase p.pid]
    unfold State.killTasks at hp₂
    split at hp₂
    · rw [hp₁, Option.some_inj] at hp₂
      rw [hp₂]
    · simp only [List.getElem?_map, hp₁, Option.map_some, Option.some_inj] at hp₂
      rw [← hp₂, Proc.abort_phase]
  exact of_failLaunch ((hev.trans (.sigkill none _ p.pid)).trans hkill)
    ⟨hkeeps.registry, hkeeps.handler, hkeeps.requests, hkeeps.stops⟩ hp hin hp₂ hphase
    (fun ha => p.sigkill_status (hev₂.alive ha)) _

theorem of_startCall {i : ℕ} {config : ProcessConfig} (h : s.startCall i config = some s') :
    Change s a s' := by
  obtain ⟨-, rfl⟩ := State.startCall_inv h
  exact .quiet (.of_procs_eq rfl id) ⟨rfl, rfl, rfl, rfl⟩

theorem of_startCheck {i : ℕ} (h : s.startCheck i = some s') : Change s a s' := by
  obtain ⟨config, -, ⟨-, rfl⟩ | ⟨-, rfl⟩⟩ := State.startCheck_inv h <;>
  exact .quiet (.of_procs_eq rfl id) ⟨rfl, rfl, rfl, rfl⟩

theorem of_fork {l : Launcher} {os : Os} {pid : Pid} {m : Machine}
    (h : s.fork l os pid m = some s') : Change s (.fork l os pid m) s' := by
  obtain ⟨name, config, hconfig, hfree, ⟨ctx, exit, -, -, rfl⟩ | ⟨e, -, -, rfl⟩ |
    ⟨e, exit, hparent, hchild, rfl⟩⟩ := State.fork_inv h
  · cases l <;> exact .forked (p := ⟨pid, name, config, .alive, _, .metrics, .none⟩) hconfig
      hfree rfl rfl rfl rfl rfl rfl rfl
  · cases l <;> exact .forkFailed rfl rfl rfl rfl rfl rfl ⟨_, hconfig⟩
  · cases l <;> exact .leaked (p := ⟨pid, name, config, .alive, _, .leaked, .none⟩) hconfig
      hfree rfl ⟨e, exit, hparent, hchild⟩ rfl rfl rfl rfl rfl rfl

/-- A launch takes a step that only changes its phase. -/
theorem of_setPhase {treg : TaskRegistry} {phase : Phase} (htreg : s.treg.Ok → treg.Ok)
    (hp : s.procs[c]? = some p) (hin : p.phase.inProgress)
    (huns : phase.unsubmitted → p.phase.unsubmitted) (hsub : phase.submitted → p.phase.submitted)
    (hgoes : phase.inProgress) :
    Change s a ({ s with treg }.modifyProc c ({ · with phase })) := by
  have hev : s.Evolves none { s with treg } := .of_procs_eq rfl htreg
  refine .quiet (hev.trans (.modifyProc fun q hq => ?_)) ⟨rfl, rfl, rfl, rfl⟩
  have hq : some p = some q := hp.symm.trans hq
  cases hq
  exact .setPhase none c hin huns hsub (fun h => by rw [h] at hgoes; cases hgoes)
    (fun h => by rw [h] at hgoes; cases hgoes) fun h => by rw [h] at hgoes; cases hgoes

theorem of_prepare {phase next : Phase} {failure : String} {err : Option String}
    (hin : phase.inProgress) (huns : next.unsubmitted → phase.unsubmitted)
    (hsub : next.submitted → phase.submitted) (hgoes : next.inProgress)
    (h : s.prepare c phase next failure err = some s') : Change s a s' := by
  obtain ⟨p, hp, rfl, ⟨-, rfl⟩ | ⟨e, -, rfl⟩⟩ := State.prepare_inv h
  · exact of_setPhase id hp hin huns hsub hgoes
  · exact of_sigkill hp hin _

theorem of_submitLogging {fate : Submission} (h : s.submitLogging c fate = some s') :
    Change s a s' := by
  obtain ⟨p, hp, hphase, rfl⟩ := State.submitLogging_inv h
  exact of_setPhase (fun ht => ht.submit _ _ _ _) hp (by rw [hphase]; rfl)
    (fun _ => by rw [hphase]; rfl) (fun h => nomatch h) rfl

theorem of_submitProcess {fate : Submission} (h : s.submitProcess c fate = some s') :
    Change s (.submitProcess c fate) s' := by
  obtain ⟨p, desc, treg, hp, hphase, hcases⟩ := State.submitProcess_inv h
  have hin : p.phase.inProgress := by rw [hphase]; rfl
  rcases hcases with ⟨id, hsub, rfl⟩ | ⟨e, hsub, rfl⟩
  · have htreg (ht : s.treg.Ok) : treg.Ok := by
      simpa [hsub] using ht.submitUnique p.pid .process desc fate
    have hev : s.Evolves (some c) { s with treg } := .of_procs_eq rfl htreg
    have hp' : ({ s with treg }.modifyProc c
        ({ · with phase := .submitMetrics, watch := .queued id })).procs[c]? =
        some { p with phase := .submitMetrics, watch := .queued id } := by
      simp [State.modifyProc, hp]
    refine .submitted (hev.trans (.modifyProc fun q hq => ?_)) hp hphase hp' rfl
      ⟨rfl, rfl, rfl, rfl⟩
    have hq : some p = some q := hp.symm.trans hq
    cases hq
    exact
      { pid := rfl, name := rfl, launcher := rfl
        finished := fun hf => by rw [hin] at hf; cases hf
        alive := fun h => h
        reaped := fun h => h
        ok := fun hok =>
          { reaped := fun hr => by
              have hended := hok.reaped hr
              rw [hok.unsubmitted (by rw [hphase]; rfl)] at hended
              cases hended
            watching := fun _ _ h => nomatch h
            unsubmitted := fun h => nomatch h
            failed := fun h => nomatch h }
        active := fun _ => .inr rfl
        registered := fun h => nomatch h
        leaked := fun h => nomatch h }
  · have htreg (ht : s.treg.Ok) : treg.Ok := by
      simpa [hsub] using ht.submitUnique p.pid .process desc fate
    exact of_failSubmission htreg hp hin fate e

theorem of_submitMetrics {fate : Submission} (h : s.submitMetrics c fate = some s') :
    Change s a s' := by
  obtain ⟨p, desc, treg, hp, hphase, hcases⟩ := State.submitMetrics_inv h
  have hin : p.phase.inProgress := by rw [hphase]; rfl
  rcases hcases with ⟨id, hsub, rfl⟩ | ⟨e, hsub, rfl⟩
  · have htreg (ht : s.treg.Ok) : treg.Ok := by
      simpa [hsub] using ht.submitUnique p.pid .metrics desc fate
    exact of_setPhase htreg hp hin (fun h => nomatch h) (fun _ => by rw [hphase]; rfl) rfl
  · have htreg (ht : s.treg.Ok) : treg.Ok := by
      simpa [hsub] using ht.submitUnique p.pid .metrics desc fate
    exact of_failSubmission htreg hp hin fate e

theorem of_insert (h : s.insert c = some s') : Change s (.insert c) s' := by
  obtain ⟨p, s₁, hp, hphase, hs₁, hcases⟩ := State.insert_inv h
  have hev : s.Evolves (some c) s₁ := by
    rw [hs₁]
    have hev₀ : s.Evolves (some c)
        { s with registry := s.registry.insert p.name ⟨⟨p.config, p.pid⟩, c⟩ } :=
      .of_procs_eq rfl id
    refine hev₀.trans (.modifyProc fun q hq => ?_)
    have hq : some p = some q := hp.symm.trans hq
    cases hq
    exact .setPhase _ c (by rw [hphase]; rfl) (fun h => nomatch h) (fun h => nomatch h)
      (fun h => nomatch h) (fun _ => rfl) fun h => nomatch h
  have hp' : s₁.procs[c]? = some { p with phase := .registered } := by
    simp [hs₁, State.modifyProc, hp]
  subst hs₁
  rcases hcases with ⟨i, hl, rfl⟩ | ⟨hl, rfl⟩
  · exact .inserted ⟨hev.length, hev.procs, hev.treg⟩ hp hphase hp' rfl rfl rfl rfl
      (by simp [hl]; rfl)
  · exact .inserted ⟨hev.length, hev.procs, hev.treg⟩ hp hphase hp' rfl rfl rfl rfl
      (by simp [hl])

theorem of_stopRemove {i : ℕ} {name : String} (h : s.stopRemove i name = some s') :
    Change s (.stopRemove i name) s' := by
  obtain ⟨-, ⟨-, rfl⟩ | ⟨e, he, rfl⟩⟩ := State.stopRemove_inv h
  · exact .quiet (.of_procs_eq rfl id) ⟨rfl, rfl, rfl, rfl⟩
  · exact .stopRemoved he rfl rfl rfl rfl rfl rfl

/-- A stop kills the process it holds, unless a lock is poisoned. -/
theorem stopKill_spec {i : ℕ} {poisoned : Bool} {k : StopCall} (hk : s.stops i = some k)
    (h : s.stopKill i poisoned = some s') :
    s.Evolves none s' ∧ s'.registry = s.registry ∧ s'.handler = s.handler ∧
      s'.requests = s.requests ∧ s'.stops = Function.update s.stops i none ∧
      (poisoned = false → ∀ (c : ProcId) (p' : Proc), s'.procs[c]? = some p' →
        p'.pid = k.entry.task.inner → p'.status ≠ .alive) := by
  obtain ⟨k', s₁, result, hk', hs₁, hcases⟩ := State.stopKill_inv h
  obtain rfl := Option.some_inj.mp (hk.symm.trans hk')
  have hev₁ : s.Evolves none s₁ := by rw [hs₁]; exact .of_procs_eq rfl fun ht => ht
  rcases hcases with ⟨hpoisoned, rfl⟩ | ⟨-, rfl⟩
  · subst hs₁
    exact ⟨⟨hev₁.length, hev₁.procs, hev₁.treg⟩, rfl, rfl, rfl, rfl,
      fun hf => by rw [hpoisoned] at hf; cases hf⟩
  · have hev := (hev₁.trans (.killTasks none s₁ k.entry.task.inner false)).trans
      (.sigkill none _ k.entry.task.inner)
    have hkeeps := keeps_killTasks s₁ k.entry.task.inner false
    subst hs₁
    exact ⟨⟨hev.length, hev.procs, hev.treg⟩, hkeeps.registry, hkeeps.handler, hkeeps.requests,
      hkeeps.stops, fun _ c p' hp' hpid => State.dead_sigkill hp' hpid⟩

theorem of_stopKill {i : ℕ} {poisoned : Bool} (h : s.stopKill i poisoned = some s') :
    Change s (.stopKill i poisoned) s' := by
  obtain ⟨k, -, -, hk, -⟩ := State.stopKill_inv h
  obtain ⟨hev, hregistry, hhandler, hrequests, hstops, -⟩ := stopKill_spec hk h
  exact .stopKilled hev hregistry hhandler hrequests hstops

theorem of_stop {i : ℕ} {name : String} {poisoned : Bool} (h : s.stop i name poisoned = some s') :
    Change s (.stop i name poisoned) s' := by
  obtain ⟨hfree, ⟨-, rfl⟩ | ⟨e, s₁, he, rfl, hi, hkill⟩⟩ := State.stop_inv h
  · exact .quiet (.of_procs_eq rfl id) ⟨rfl, rfl, rfl, rfl⟩
  · obtain ⟨hev, hregistry, hhandler, hrequests, hstops, hdead⟩ := stopKill_spec hi hkill
    refine .stopped he ⟨hev.length, hev.procs, hev.treg⟩ hregistry hhandler hrequests ?_ hdead
    rw [hstops, Function.update_idem, ← hfree, Function.update_eq_self]

theorem of_exit (h : s.exit c = some s') : Change s a s' := by
  obtain ⟨p, hp, halive, rfl⟩ := State.exit_inv h
  refine .quiet (.modifyProc fun q hq => ?_) ⟨rfl, rfl, rfl, rfl⟩
  rw [hp, Option.some_inj] at hq
  subst hq
  exact
    { pid := rfl, name := rfl, launcher := rfl, finished := fun _ => rfl
      alive := fun h => nomatch h
      reaped := fun h => nomatch halive.symm.trans h
      ok := fun h => ⟨fun h => (nomatch h), h.watching, h.unsubmitted, fun _ h => nomatch h⟩
      active := .inl
      registered := .inl
      leaked := id }

/-- The monitoring task of a process goes on. -/
theorem evolves_watch {w : Watch} (hlive : p.watch.isLive)
    (hreaped : w ≠ .ended → p.status ≠ .reaped) (hw : ∀ id d, w = .watching id d → d = c) :
    p.Evolves none c { p with watch := w } where
  pid := rfl
  name := rfl
  launcher := rfl
  finished _ := rfl
  alive := id
  reaped := id
  ok h :=
    { reaped := fun hr => by
        by_contra hne
        exact hreaped hne hr
      watching := hw
      unsubmitted := fun hu => by rw [h.unsubmitted hu] at hlive; cases hlive
      failed := h.failed }
  active _ := .inl (by simp [Proc.isActive, hlive])
  registered := .inl
  leaked := id

/-- A process with a live monitoring task has not been reaped. -/
theorem not_reaped (hok : s.Ok) (hp : s.procs[c]? = some p) (hlive : p.watch.isLive) :
    p.status ≠ .reaped := by
  intro hr
  rw [(hok c p hp).reaped hr] at hlive
  cases hlive

theorem of_watch {treg : TaskRegistry} {w : Watch} (htreg : s.treg.Ok → treg.Ok)
    (hp : s.procs[c]? = some p) (hlive : p.watch.isLive)
    (hreaped : w ≠ .ended → p.status ≠ .reaped) (hw : ∀ id d, w = .watching id d → d = c) :
    Change s a ({ s with treg }.modifyProc c ({ · with watch := w })) := by
  have hev : s.Evolves none { s with treg } := .of_procs_eq rfl htreg
  refine .quiet (hev.trans (.modifyProc fun q hq => ?_)) ⟨rfl, rfl, rfl, rfl⟩
  have hq : some p = some q := hp.symm.trans hq
  cases hq
  exact evolves_watch hlive hreaped hw

theorem of_failWatch {id : TaskId} {e : String} (hp : s.procs[c]? = some p)
    (hlive : p.watch.isLive) : Change s a (s.failWatch c id e) := by
  refine of_watch (fun ht => ?_) hp hlive (fun h => absurd rfl h) fun _ _ h => nomatch h
  split
  · exact ht.updateStatus ‹_›
  · exact ht

theorem of_coordinate (hok : s.Ok) (h : s.coordinate c = some s') : Change s a s' := by
  obtain ⟨p, id, treg, hp, hw, -, htreg, rfl⟩ := State.coordinate_inv h
  have hlive : p.watch.isLive := by rw [hw]; rfl
  refine of_watch (fun ht => ?_) hp hlive (fun _ => not_reaped hok hp hlive)
    fun _ _ h => nomatch h
  rcases htreg with hadd | rfl
  · exact ht.addHandle hadd
  · exact ht

/-- `pidfd_open` of the pid of a process leads to that process while it is not reaped. -/
theorem of_monitorOpen (hok : s.Ok) (hpids : s.PidsDistinct) {err : Option String}
    (h : s.monitorOpen c err = some s') : Change s a s' := by
  obtain ⟨p, id, hp, hw, hcases⟩ := State.monitorOpen_inv h
  have hlive : p.watch.isLive := by rw [hw]; rfl
  rcases hcases with ⟨d, -, hd, rfl⟩ | ⟨e, -, rfl⟩
  · refine of_watch (fun ht => ht) hp hlive (fun _ => not_reaped hok hp hlive) fun _ _ h => ?_
    cases h
    obtain ⟨q, hq, hqpid⟩ := State.findPid_spec hd
    exact hpids hq hp hqpid.2 (not_reaped hok hp hlive) hqpid.1
  · exact of_failWatch hp hlive

theorem of_monitorFail {e : String} (h : s.monitorFail c e = some s') : Change s a s' := by
  obtain ⟨p, id, d, hp, hw, rfl⟩ := State.monitorFail_inv h
  exact of_failWatch hp (by rw [hw]; rfl)

/-- A process whose monitoring task is over may be reaped. -/
theorem evolves_reaped (hended : p.watch = .ended) :
    p.Evolves none c { p with status := .reaped } where
  pid := rfl
  name := rfl
  launcher := rfl
  finished _ := rfl
  alive h := nomatch h
  reaped _ := rfl
  ok h := ⟨fun _ => hended, h.watching, h.unsubmitted, fun _ h => nomatch h⟩
  active := .inl
  registered := .inl
  leaked h := h

/-- The monitoring task of a process reaps it. -/
theorem evolves_seen {treg : TaskRegistry} (htreg : s.treg.Ok → treg.Ok)
    (hp : s.procs[c]? = some p) (hlive : p.watch.isLive) :
    s.Evolves none (({ s with treg }.modifyProc c ({ · with watch := .ended })).modifyProc c
      ({ · with status := .reaped })) := by
  have hev : s.Evolves none { s with treg } := .of_procs_eq rfl htreg
  refine (hev.trans (.modifyProc fun q hq => ?_)).trans (.modifyProc fun q hq => ?_)
  · obtain rfl := Option.some.inj (hp.symm.trans hq)
    exact evolves_watch hlive (fun h => absurd rfl h) fun _ _ h => nomatch h
  · rw [State.modifyProc, List.getElem?_modify_eq, hp] at hq
    obtain rfl := Option.some.inj hq
    exact evolves_reaped rfl

theorem of_monitorLose (hok : s.Ok) {poisoned : Bool} (h : s.monitorLose c poisoned = some s') :
    Change s a s' := by
  obtain ⟨p, id, d, q, treg, hp, hw, -, -, htreg, rfl⟩ := State.monitorLose_inv h
  obtain rfl := (hok c p hp).watching id d hw
  refine .quiet (evolves_seen (fun ht => ?_) hp (by rw [hw]; rfl)) ⟨rfl, rfl, rfl, rfl⟩
  obtain rfl | rfl := htreg
  · exact ht
  · dsimp only [State.failWatch, State.modifyProc]
    split
    · exact ht.updateStatus ‹_›
    · exact ht

theorem of_monitorExit (hok : s.Ok) (h : s.monitorExit c = some s') :
    Change s (.monitorExit c) s' := by
  obtain ⟨p, id, d, q, s₂, hp, hw, -, -, hs₂, hcases⟩ := State.monitorExit_inv h
  obtain rfl := (hok c p hp).watching id d hw
  have hlive : p.watch.isLive := by rw [hw]; rfl
  have hp₂ : s₂.procs[d]? = some { p with watch := .ended, status := .reaped } := by
    simp [hs₂, State.modifyProc, hp]
  have hev : s.Evolves none s₂ := hs₂ ▸ evolves_seen (fun ht => ht) hp hlive
  subst hs₂
  rcases hcases with ⟨hreceives, rfl⟩ | ⟨-, rfl⟩
  · exact .exitSeen ⟨hev.length, hev.procs, hev.treg⟩ hp hlive hp₂ rfl rfl rfl hreceives rfl rfl
  · exact .quiet hev ⟨rfl, rfl, rfl, rfl⟩

theorem of_decide {poisoned : Bool} (h : s.decide poisoned = some s') :
    Change s (.decide poisoned) s' := by
  obtain ⟨r, e, hh, hcases⟩ := State.decide_inv h
  have hev := State.Evolves.killTasks none s e.task.inner poisoned
  have hkeeps := keeps_killTasks s e.task.inner poisoned
  rcases hcases with ⟨hrespawn, rfl⟩ | ⟨-, rfl⟩
  · exact .dropped hh hrespawn ⟨hev.length, hev.procs, hev.treg⟩ hkeeps.registry
      hkeeps.requests hkeeps.stops rfl
  · exact .respawned hh ⟨hev.length, hev.procs, hev.treg⟩ hkeeps.registry hkeeps.requests
      hkeeps.stops rfl

end Change

/-- What a step does, when the processes are in order before it. -/
theorem change_of_step {s s' : State} {a : Action} (hok : s.Ok) (hpids : s.PidsDistinct)
    (h : step a s = some s') : Change s a s' := by
  cases a with
  | startCall i config => exact Change.of_startCall h
  | startCheck i => exact Change.of_startCheck h
  | fork l os pid m => exact Change.of_fork h
  | metrics c err => exact Change.of_prepare rfl (fun _ => rfl) (by simp [Phase.submitted]) rfl h
  | logger c err => exact Change.of_prepare rfl (fun _ => rfl) (by simp [Phase.submitted]) rfl h
  | submitLogging c fate => exact Change.of_submitLogging h
  | submitProcess c fate => exact Change.of_submitProcess h
  | submitMetrics c fate => exact Change.of_submitMetrics h
  | insert c => exact Change.of_insert h
  | stopRemove i name => exact Change.of_stopRemove h
  | stopKill i poisoned => exact Change.of_stopKill h
  | stop i name poisoned => exact Change.of_stop h
  | exit c => exact Change.of_exit h
  | coordinate c => exact Change.of_coordinate hok h
  | monitorOpen c err => exact Change.of_monitorOpen hok hpids h
  | monitorFail c e => exact Change.of_monitorFail h
  | monitorLose c poisoned => exact Change.of_monitorLose hok h
  | monitorExit c => exact Change.of_monitorExit hok h
  | recv =>
    obtain ⟨r, requests, hidle, hr, rfl⟩ := State.recv_inv h
    exact .received hidle hr
  | remove =>
    obtain ⟨r, hh, ⟨hname, rfl⟩ | ⟨e, he, rfl⟩⟩ := State.remove_inv h
    · exact .notFound hh hname
    · exact .removed hh he rfl rfl rfl rfl rfl rfl
  | decide poisoned => exact Change.of_decide h
  | removeAgain =>
    obtain ⟨r, hh, rfl⟩ := State.removeAgain_inv h
    exact .removedAgain hh

end Yapm
