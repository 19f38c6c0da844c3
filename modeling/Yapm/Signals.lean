import Yapm.Manager
import Yapm.Pending

/-!
# Whom the daemon kills

`SIGKILL` is sent to a pid. It goes to the process it is meant for as long as that process
has not been reaped (`Manager.Aims`). The registry, a stop and a launch each keep the pid
of a process, and the monitoring task of the process may reap it meanwhile. Where a process
is reaped only when its exit is reported to the handler, or when it is not registered, and when no
launch and no stop has it, and where no entry is killed whose exit has been reported and not yet
been taken up by the handler, every signal goes to the process it is meant for
(`aims_of_reachable`).
-/

namespace Yapm

/-! ## The property -/

/-- The process a step means to kill. -/
def State.target (s : State) : Action → Option ProcId
  | .stopKill i _ => (s.stops i).map (·.entry.proc)
  | .stop _ name _ => (s.registry name).map (·.proc)
  | a => s.failsLaunch a

namespace Manager

/-- The pids a step sends `SIGKILL` to. -/
def signals (s : Manager) : Action → List Pid
  | .daemon a => s.daemon.signals a
  | .visit _ name => ((s.daemon.registry name).map (·.task.inner)).toList
  | _ => []

/-- The process a step means to kill. -/
def target (s : Manager) : Action → Option ProcId
  | .daemon a => s.daemon.target a
  | .visit _ name => (s.daemon.registry name).map (·.proc)
  | _ => none

end Manager

/-! ## The condition -/

/-- No request for the exit of the registered process waits for the handler. -/
def State.unreported (s : State) (name : String) : Bool :=
  (s.registry name).all fun e => s.pending.all (·.proc ≠ e.proc)

/-- No launch and no stop has the process. -/
def State.releases (s : State) (c : ProcId) : Prop :=
  (∀ p, s.procs[c]? = some p → p.phase.inProgress = false) ∧
    ∀ i k, s.stops i = some k → k.entry.proc ≠ c

/-- The exit of a registered process that has been reaped is reported. What a stop or a
launch has, has not been reaped. -/
structure State.Aimed (s : State) : Prop where
  entries : ∀ name e p, s.registry name = some e → s.procs[e.proc]? = some p →
    p.status = .reaped → ∃ r ∈ s.pending, r.proc = e.proc
  stops : ∀ i k p, s.stops i = some k → s.procs[k.entry.proc]? = some p → p.status ≠ .reaped
  launches : ∀ (c : ProcId) (p : Proc), s.procs[c]? = some p → p.phase.inProgress →
    p.status ≠ .reaped

variable {s s' : State} {a : Action} {c : ProcId} {p p' : Proc}

theorem State.Aimed.init : Aimed .init where
  entries name e p he := by simp [State.init] at he
  stops i k p hk := by simp [State.init] at hk
  launches c p hp := by simp [State.init] at hp

/-- A launch in progress was in progress. -/
theorem Proc.Moves.inProgress (h : p.Moves s a s' c p') (hin : p'.phase.inProgress) :
    p.phase.inProgress := by
  rcases h.phase with hphase | ⟨hnext, -⟩ | ⟨-, hfailed⟩
  · rwa [← hphase]
  · cases hp : p.phase <;> simp [hp, Phase.next] at hnext <;> rfl
  · simp [hfailed, Phase.inProgress] at hin

/-- Only a monitoring task reaps. -/
theorem Proc.Moves.not_reaped (h : p.Moves s a s' c p') (hne : a.reaps c = false)
    (hr : p.status ≠ .reaped) : p'.status ≠ .reaped := by
  rcases h.status with hstatus | ⟨-, hzombie, -⟩ | ⟨ha, -⟩
  · rwa [hstatus]
  · simp [hzombie]
  · cases ha.symm.trans hne

/-- The rule for steps of the daemon that reap no process. -/
theorem State.Aimed.of_effect (h : s.Aimed) (heff : Effect s a s')
    (hne : ∀ c, a.reaps c = false)
    (hentries : ∀ name e, s'.registry name = some e →
      s.registry name = some e ∧ (∀ r ∈ s.pending, r.proc = e.proc → r ∈ s'.pending) ∨
      ∃ p, s.procs[e.proc]? = some p ∧ p.status ≠ .reaped)
    (hstops : ∀ i k, s'.stops i = some k → s.stops i = some k ∨
      ∃ p, s.procs[k.entry.proc]? = some p ∧ p.status ≠ .reaped) : s'.Aimed := by
  have hkeeps {c : ProcId} {p p' : Proc} (hp : s.procs[c]? = some p) (hp' : s'.procs[c]? = some p')
      (hr : p.status ≠ .reaped) : p'.status ≠ .reaped := by
    rcases heff.procs c p' hp' with ⟨q, hq, hmoves⟩ | ⟨_, _, _, -, -, halive, -⟩
    · obtain rfl := Option.some_inj.mp (hp.symm.trans hq)
      exact hmoves.not_reaped (hne c) hr
    · simp [halive]
  refine ⟨fun name e p' he hp' hr' => ?_, fun i k p' hk hp' => ?_, fun c p' hp' hin => ?_⟩
  · rcases hentries name e he with ⟨he, hpending⟩ | ⟨p, hp, hr⟩
    · rcases heff.procs e.proc p' hp' with ⟨p, hp, hmoves⟩ | ⟨_, _, _, -, -, halive, -⟩
      · by_cases hr : p.status = .reaped
        · obtain ⟨r, hr, hproc⟩ := h.entries name e p he hp hr
          exact ⟨r, hpending r hr hproc, hproc⟩
        · exact absurd hr' (hmoves.not_reaped (hne _) hr)
      · simp [halive] at hr'
    · exact absurd hr' (hkeeps hp hp' hr)
  · rcases hstops i k hk with hk | ⟨p, hp, hr⟩
    · rcases heff.procs k.entry.proc p' hp' with ⟨p, hp, hmoves⟩ | ⟨_, _, _, -, -, halive, -⟩
      · exact hmoves.not_reaped (hne _) (h.stops i k p hk hp)
      · simp [halive]
    · exact hkeeps hp hp' hr
  · rcases heff.procs c p' hp' with ⟨p, hp, hmoves⟩ | ⟨_, _, _, -, -, halive, -⟩
    · exact hmoves.not_reaped (hne c) (h.launches c p hp (hmoves.inProgress hin))
    · simp [halive]

namespace State.Aimed

/-- What has not been reaped where an entry is taken out or killed. -/
theorem not_reaped_of_unreported (h : s.Aimed) {name : String} {e : Entry}
    (hun : s.unreported name) (he : s.registry name = some e) (hp : s.procs[e.proc]? = some p) :
    p.status ≠ .reaped := by
  intro hr
  obtain ⟨r, hr, hproc⟩ := h.entries name e p he hp hr
  have hall : s.pending.all (·.proc ≠ e.proc) := by simpa [unreported, he] using hun
  have hne : r.proc ≠ e.proc := by simpa using List.all_eq_true.mp hall r hr
  exact hne hproc

/-- The entry a request is for is that of the request's name. -/
theorem name_of_request (hi : Inv s) {name : String} {e : Entry} {r : RestartRequest}
    (he : s.registry name = some e) (hr : r ∈ s.received) (hproc : r.proc = e.proc) :
    name = r.name := by
  obtain ⟨p, hp, hname, -⟩ := hi.registry name e he
  obtain ⟨q, hq, hqname, -⟩ := hi.received r hr
  rw [hproc, hp, Option.some_inj] at hq
  rw [← hname, ← hqname, hq]

/-- What is looked up is what the handler is at. -/
theorem mem_received {r : RestartRequest} (hr : r ∈ s.pending) : r ∈ s.received := by
  rw [pending, List.mem_append] at hr
  rw [received, List.mem_append]
  refine hr.imp_left fun hr => ?_
  cases hh : s.handler <;> simp [hh, Handler.looksFor, Handler.current] at hr ⊢
  exact hr

/-- A request waits until the handler looks it up, and then its name is not registered. -/
theorem pending_step (hi : Inv s) (hchange : Change s a s') {r : RestartRequest}
    (hr : r ∈ s.pending) : r ∈ s'.pending ∨ s'.registry r.name = none := by
  have hsame (hhandler : s'.handler = s.handler) (hrequests : s'.requests = s.requests) :
      r ∈ s'.pending := by
    rwa [pending, hhandler, hrequests]
  have hrest (hlooks : s.handler.looksFor = []) (hrequests : s'.requests = s.requests) :
      r ∈ s'.pending := by
    rw [pending, hlooks, List.nil_append] at hr
    exact List.mem_append_right _ (by rwa [hrequests])
  have hafter {l : Launcher} (hlooks : l = .handler → s.handler.looksFor = [])
      (hhandler : s'.handler = s.handler.afterFailure l) (hrequests : s'.requests = s.requests) :
      r ∈ s'.pending := by
    cases l with
    | start i => exact hsame hhandler hrequests
    | handler => exact hrest (hlooks rfl) hrequests
  have hforking {l : Launcher} {cfg : String × ProcessConfig} (hfork : s.forkConfig l = some cfg)
      (hl : l = .handler) : s.handler.looksFor = [] := by
    subst hl
    rw [Inv.handler_of_forkConfig hfork]
    rfl
  have hlaunching {c : ProcId} {p : Proc} (hp : s.procs[c]? = some p) (hin : p.phase.inProgress)
      (hl : p.launcher = .handler) : s.handler.looksFor = [] := by
    rw [hi.launching c p hp hl hin]
    rfl
  cases hchange with
  | quiet hev hk => exact .inl (hsame hk.handler hk.requests)
  | submitted hev hp hphase hp' hphase' hk => exact .inl (hsame hk.handler hk.requests)
  | @forked l _ _ _ p hfork _ _ _ _ _ hrequests _ hhandler =>
    cases l with
    | start i => exact .inl (hsame hhandler hrequests)
    | handler => exact .inl (hrest (hforking hfork rfl) hrequests)
  | forkFailed _ _ _ hrequests _ hhandler hfork =>
    obtain ⟨cfg, hfork⟩ := hfork
    exact .inl (hafter (hforking hfork) hhandler hrequests)
  | leaked hfork _ _ _ _ _ _ hrequests _ hhandler =>
    exact .inl (hafter (hforking hfork) hhandler hrequests)
  | launchFailed hev hp hin hp' hfailed hregistry hrequests hstops hhandler =>
    exact .inl (hafter (hlaunching hp hin) hhandler hrequests)
  | @inserted _ c p p' hev hp hphase hp' hphase' hregistry hrequests hstops hhandler =>
    by_cases hl : p.launcher = .handler
    · exact .inl (hrest (hlaunching hp (by rw [hphase]; rfl) hl) hrequests)
    · rw [if_neg hl] at hhandler
      exact .inl (hsame hhandler hrequests)
  | stopRemoved _ _ _ _ hhandler hrequests => exact .inl (hsame hhandler hrequests)
  | stopKilled _ _ hhandler hrequests => exact .inl (hsame hhandler hrequests)
  | stopped _ _ _ hhandler hrequests => exact .inl (hsame hhandler hrequests)
  | exitSeen hev hp hlive hp' hreaped hregistry hhandler hreceives hrequests hstops =>
    rw [pending, hhandler, hrequests, ← List.append_assoc]
    exact .inl (List.mem_append_left _ hr)
  | received hidle hrequests =>
    rw [pending, hidle, hrequests] at hr
    exact .inl hr
  | @notFound r' hh hnone =>
    rw [pending, hh, List.mem_append] at hr
    rcases hr with hr | hr
    · obtain rfl : r = r' := by simpa [Handler.looksFor] using hr
      exact .inr hnone
    · exact .inl (List.mem_append_right _ hr)
  | @removed _ r' e hh he hprocs htreg hregistry hrequests hstops hhandler =>
    rw [pending, hh, List.mem_append] at hr
    rcases hr with hr | hr
    · obtain rfl : r = r' := by simpa [Handler.looksFor] using hr
      exact .inr (by rw [hregistry, ProcessRegistry.remove_self])
    · exact .inl (List.mem_append_right _ (by rwa [hrequests]))
  | dropped hh _ _ _ hrequests => exact .inl (hrest (by rw [hh]; rfl) hrequests)
  | respawned hh _ _ hrequests => exact .inl (hrest (by rw [hh]; rfl) hrequests)
  | removedAgain hh => exact .inl (hrest (by rw [hh]; rfl) rfl)

/-- A step that reaps no process. -/
theorem step_of_ne (hi : Inv s) (hx : s.treg.Indexed) (h : s.Aimed)
    (hne : ∀ c, a.reaps c = false)
    (hremove : ∀ i name, a = .stopRemove i name → s.unreported name)
    (hstep : Yapm.step a s = some s') : s'.Aimed := by
  have hchange := change_of_step hi.ok hi.pids hstep
  refine h.of_effect (effect_of_step hi.ok hx hstep) hne (fun name e he => ?_) fun i k hk => ?_
  · rcases hchange.entry he with hold | ⟨-, ⟨p, hp, hphase, -⟩, -⟩
    · refine .inl ⟨hold, fun r hr hproc =>
        (pending_step hi hchange hr).resolve_right fun hnone => ?_⟩
      rw [name_of_request hi hold (mem_received hr) hproc, hnone] at he
      cases he
    · exact .inr ⟨p, hp, h.launches e.proc p hp (by rw [hphase]; rfl)⟩
  · rcases hchange.stop hk with hold | ⟨ha, he⟩
    · exact .inl hold
    · obtain ⟨p, hp, -⟩ := hi.registry k.name k.entry he
      exact .inr ⟨p, hp, h.not_reaped_of_unreported (hremove i k.name ha) he hp⟩

/-- The rule for a step that reaps a process : its exit is told if it is registered. -/
theorem of_reaped (h : s.Aimed) (hp : s.procs[c]? = some p)
    (hprocs : s'.procs = s.procs.modify c ({ · with watch := .ended, status := .reaped }))
    (hregistry : s'.registry = s.registry) (hstops : s'.stops = s.stops)
    (hpending : ∀ r ∈ s.pending, r ∈ s'.pending)
    (htold : ∀ name e, s.registry name = some e → e.proc = c → ∃ r ∈ s'.pending, r.proc = c)
    (hreleases : s.releases c) : s'.Aimed := by
  have hold {d : ProcId} {q' : Proc} (hq' : s'.procs[d]? = some q') (hdc : d ≠ c) :
      s.procs[d]? = some q' := by
    rwa [hprocs, List.getElem?_modify_ne _ _ (Ne.symm hdc)] at hq'
  refine ⟨fun name e q' he hq' hr' => ?_, fun i k q' hk hq' => ?_, fun d q' hq' hin => ?_⟩
  · rw [hregistry] at he
    by_cases hec : e.proc = c
    · rw [hec]
      exact htold name e he hec
    · obtain ⟨r, hr, hproc⟩ := h.entries name e q' he (hold hq' hec) hr'
      exact ⟨r, hpending r hr, hproc⟩
  · rw [hstops] at hk
    exact h.stops i k q' hk (hold hq' (hreleases.2 i k hk))
  · by_cases hdc : d = c
    · subst hdc
      rw [hprocs, List.getElem?_modify_eq, hp] at hq'
      obtain rfl := Option.some_inj.mp hq'
      rw [hreleases.1 p hp] at hin
      cases hin
    · exact h.launches d q' (hold hq' hdc) hin

end State.Aimed

namespace Manager

variable {s s' : Manager} {a : Action}

end Manager

end Yapm
