import Yapm.Lifecycle

/-!
# What every run of the daemon keeps

`Inv` is the invariant that needs no assumption on runs. Pids tell processes apart until
they are reaped, which only the monitoring task of a process does. Entries, stops and
requests refer to processes of their name, an entry to one whose launch is complete and a
request to one that has been reaped, and no process has two requests. The handler is the
launcher of what it launches. `Change.origin`, `Change.entry` and `Change.stop` say where a
process, an entry and a stop in the state after a step come from.
-/

namespace Yapm

/-- The launch of the entry's process under the name is complete. -/
def State.Registered (s : State) (name : String) (e : Entry) : Prop :=
  ∃ p, s.procs[e.proc]? = some p ∧ p.name = name ∧ p.pid = e.task.inner ∧ p.phase = .registered

/-- The request is for the exit of a process of its name. -/
def State.Exited (s : State) (r : RestartRequest) : Prop :=
  ∃ p, s.procs[r.proc]? = some p ∧ p.name = r.name ∧ p.status = .reaped

theorem State.received_congr {s s' : State} (hhandler : s'.handler = s.handler)
    (hrequests : s'.requests = s.requests) : s'.received = s.received := by
  rw [received, hhandler, hrequests, received]

/-- The invariant of every run. -/
structure Inv (s : State) : Prop where
  ok : s.Ok
  pids : s.PidsDistinct
  treg : s.treg.Ok
  registry : ∀ name e, s.registry name = some e → s.Registered name e
  stops : ∀ i k, s.stops i = some k → s.Registered k.name k.entry
  deciding : ∀ r e, s.handler = .deciding r e → s.Registered r.name e
  received : ∀ r ∈ s.received, s.Exited r
  nodup : (s.received.map (·.proc)).Nodup
  launching : ∀ (c : ProcId) (p : Proc), s.procs[c]? = some p → p.launcher = .handler →
    p.phase.inProgress → s.handler = .launching p.name c

namespace Inv

variable {x : Option ProcId} {s s' : State} {a : Action}

theorem init : Inv .init where
  ok c p h := by simp [State.init] at h
  pids h := by simp [State.init] at h
  treg := TaskRegistry.ok_new
  registry name e h := by simp [State.init] at h
  stops i k h := by simp [State.init] at h
  deciding r e h := by simp [State.init] at h
  received r h := by simp [State.init, State.received, Handler.current] at h
  nodup := .nil
  launching c p h := by simp [State.init] at h

theorem registered_of_evolves (h : s.Evolves x s') {name : String} {e : Entry}
    (hr : s.Registered name e) : s'.Registered name e := by
  obtain ⟨p, hp, hname, hpid, hphase⟩ := hr
  obtain ⟨p', hp', hev⟩ := h.procs _ p hp
  exact ⟨p', hp', hev.name.trans hname, hev.pid.trans hpid,
    (hev.finished (by rw [hphase]; rfl)).trans hphase⟩

theorem exited_of_evolves (h : s.Evolves x s') {r : RestartRequest} (hr : s.Exited r) :
    s'.Exited r := by
  obtain ⟨p, hp, hname, hstatus⟩ := hr
  obtain ⟨p', hp', hev⟩ := h.procs _ p hp
  exact ⟨p', hp', hev.name.trans hname, hev.reaped hstatus⟩

theorem ok_of_evolves (h : s.Evolves x s') (hok : s.Ok) : s'.Ok := by
  intro c p' hp'
  obtain ⟨p, hp, hev⟩ := h.origin hp'
  exact hev.ok (hok c p hp)

theorem pids_of_evolves (h : s.Evolves x s') (hpids : s.PidsDistinct) : s'.PidsDistinct := by
  intro c d p' q' hp' hq' hpr hqr hpid
  obtain ⟨p, hp, hev⟩ := h.origin hp'
  obtain ⟨q, hq, hevq⟩ := h.origin hq'
  refine hpids hp hq (fun hr => hpr (hev.reaped hr)) (fun hr => hqr (hevq.reaped hr)) ?_
  rw [← hev.pid, ← hevq.pid, hpid]

/-- A process of the handler that is being launched was being launched before. -/
theorem launching_of_evolves (h : s.Evolves x s') (hi : Inv s) {c : ProcId} {p' : Proc}
    (hp' : s'.procs[c]? = some p') (hl : p'.launcher = .handler) (hin : p'.phase.inProgress) :
    s.handler = .launching p'.name c := by
  obtain ⟨p, hp, hev⟩ := h.origin hp'
  rw [hev.name]
  refine hi.launching c p hp (hev.launcher.symm.trans hl) ?_
  by_contra hfin
  rw [hev.finished (by simpa using hfin)] at hin
  exact hfin hin

/-- The rule for steps after which the processes are those of before. -/
theorem of_evolves (h : s.Evolves x s') (hi : Inv s)
    (hregistry : ∀ name e, s'.registry name = some e →
      s.registry name = some e ∨ s'.Registered name e)
    (hstops : ∀ i k, s'.stops i = some k → s.stops i = some k ∨ s.Registered k.name k.entry)
    (hdeciding : ∀ r e, s'.handler = .deciding r e →
      s.handler = .deciding r e ∨ s.Registered r.name e)
    (hreceived : s'.received.Sublist s.received)
    (hlaunching : ∀ (c : ProcId) (p' : Proc), s'.procs[c]? = some p' → p'.launcher = .handler →
      p'.phase.inProgress → s.handler = .launching p'.name c →
      s'.handler = .launching p'.name c) : Inv s' where
  ok := ok_of_evolves h hi.ok
  pids := pids_of_evolves h hi.pids
  treg := h.treg hi.treg
  registry name e he :=
    (hregistry name e he).elim (fun he => registered_of_evolves h (hi.registry name e he)) id
  stops i k hk := registered_of_evolves h <|
    (hstops i k hk).elim (fun hk => hi.stops i k hk) id
  deciding r e hd := registered_of_evolves h <|
    (hdeciding r e hd).elim (fun hd => hi.deciding r e hd) id
  received r hr := exited_of_evolves h (hi.received r (hreceived.subset hr))
  nodup := hi.nodup.sublist (hreceived.map _)
  launching c p' hp' hl hin := hlaunching c p' hp' hl hin (launching_of_evolves h hi hp' hl hin)

/-- The rule for steps that leave the handler and the requests. -/
theorem of_handler_eq (h : s.Evolves x s') (hi : Inv s)
    (hregistry : ∀ name e, s'.registry name = some e →
      s.registry name = some e ∨ s'.Registered name e)
    (hstops : ∀ i k, s'.stops i = some k → s.stops i = some k ∨ s.Registered k.name k.entry)
    (hhandler : s'.handler = s.handler) (hrequests : s'.requests = s.requests) : Inv s' := by
  refine of_evolves h hi hregistry hstops (fun _ _ hd => .inl ?_) ?_ fun _ _ _ _ _ hl => ?_
  · rwa [hhandler] at hd
  · rw [State.received_congr hhandler hrequests]
  · rwa [hhandler]

/-- The rule for steps that also leave the registry and the stops. -/
theorem of_keeps (h : s.Evolves x s') (hi : Inv s) (hk : s.Keeps s') : Inv s' :=
  of_handler_eq h hi (fun _ _ he => .inl (by rwa [hk.registry] at he))
    (fun _ _ hs => .inl (by rwa [hk.stops] at hs)) hk.handler hk.requests

/-- The rule for steps with which a launch of the handler is over. -/
theorem of_launched (h : s.Evolves x s') (hi : Inv s)
    (hregistry : ∀ name e, s'.registry name = some e →
      s.registry name = some e ∨ s'.Registered name e)
    (hstops : ∀ i k, s'.stops i = some k → s.stops i = some k ∨ s.Registered k.name k.entry)
    {name : String} {c : ProcId} {p' : Proc} (hlaunching : s.handler = .launching name c)
    (hp' : s'.procs[c]? = some p') (hover : p'.phase.inProgress = false)
    (hhandler : s'.handler = .idle ∨ s'.handler = .stopped)
    (hrequests : s'.requests = s.requests) : Inv s' := by
  refine of_evolves h hi hregistry hstops (fun _ _ hd => ?_) ?_ fun d q hq _ hin hl => ?_
  · rcases hhandler with hhandler | hhandler <;>
    · rw [hhandler] at hd
      cases hd
  · rw [State.received, State.received, hrequests, hlaunching]
    rcases hhandler with hhandler | hhandler <;>
    · rw [hhandler]
      exact .refl _
  · obtain rfl : c = d := (Handler.launching.inj (hlaunching.symm.trans hl)).2
    obtain rfl := Option.some_inj.mp (hp'.symm.trans hq)
    rw [hover] at hin
    cases hin

/-- The rule for steps of a handler that launches nothing. -/
theorem of_serving (h : s.Evolves x s') (hi : Inv s)
    (hregistry : ∀ name e, s'.registry name = some e →
      s.registry name = some e ∨ s'.Registered name e)
    (hstops : ∀ i k, s'.stops i = some k → s.stops i = some k ∨ s.Registered k.name k.entry)
    (hdeciding : ∀ r e, s'.handler = .deciding r e → s.Registered r.name e)
    (hreceived : s'.received.Sublist s.received)
    (hserving : ∀ name c, s.handler ≠ .launching name c) : Inv s' :=
  of_evolves h hi hregistry hstops (fun r e hd => .inr (hdeciding r e hd)) hreceived
    fun _ _ _ _ _ hl => absurd hl (hserving _ _)

section Append

variable {p : Proc} (hprocs : s'.procs = s.procs ++ [p])

include hprocs

theorem append_old {c : ProcId} {q : Proc} (hq : s.procs[c]? = some q) :
    s'.procs[c]? = some q := by
  rw [hprocs, List.getElem?_append_left (List.getElem?_eq_some_iff.mp hq).1, hq]

/-- A process after a fork is the new one or was there before. -/
theorem append_cases {c : ProcId} {q : Proc} (hq : s'.procs[c]? = some q) :
    s.procs[c]? = some q ∨ c = s.procs.length ∧ q = p := by
  rw [hprocs, List.getElem?_append] at hq
  split at hq
  · exact .inl hq
  · rename_i hlt
    rw [List.getElem?_singleton] at hq
    split at hq
    · rename_i hzero
      have hle : c ≤ s.procs.length := Nat.sub_eq_zero_iff_le.mp hzero
      exact .inr ⟨hle.antisymm (not_lt.mp hlt), (Option.some_inj.mp hq).symm⟩
    · cases hq

/-- The rule for a fork. -/
theorem of_append (hi : Inv s) (hfree : s.pidTaken p.pid = false) (hpok : p.Ok s.procs.length)
    (htreg : s'.treg = s.treg) (hregistry : s'.registry = s.registry)
    (hreceived : s'.received = s.received) (hstops : s'.stops = s.stops)
    (hdeciding : ∀ r e, s'.handler = .deciding r e → s.handler = .deciding r e)
    (hold : ∀ name c, s.handler = .launching name c → s'.handler = .launching name c)
    (hnew : p.launcher = .handler → p.phase.inProgress →
      s'.handler = .launching p.name s.procs.length) : Inv s' := by
  have hfree : ∀ {c : ProcId} {q : Proc}, s.procs[c]? = some q → q.status ≠ .reaped →
      q.pid ≠ p.pid := by
    intro c q hq hr hpid
    have hall := List.any_eq_false.mp hfree q (List.mem_of_getElem? hq)
    simp [hpid, hr] at hall
  have hregistered {name : String} {e : Entry} (h : s.Registered name e) :
      s'.Registered name e := by
    obtain ⟨q, hq, hrest⟩ := h
    exact ⟨q, append_old hprocs hq, hrest⟩
  exact
    { ok := fun c q hq => by
        rcases append_cases hprocs hq with hq | ⟨rfl, rfl⟩
        · exact hi.ok c q hq
        · exact hpok
      pids := fun {c d q q'} hq hq' hr hr' hpid => by
        rcases append_cases hprocs hq with hq | ⟨rfl, rfl⟩ <;>
          rcases append_cases hprocs hq' with hq' | ⟨rfl, rfl⟩
        · exact hi.pids hq hq' hr hr' hpid
        · exact absurd hpid (hfree hq hr)
        · exact absurd hpid.symm (hfree hq' hr')
        · rfl
      treg := by rw [htreg]; exact hi.treg
      registry := fun name e he => hregistered (hi.registry name e (by rwa [hregistry] at he))
      stops := fun i k hk => hregistered (hi.stops i k (by rwa [hstops] at hk))
      deciding := fun r e hd => hregistered (hi.deciding r e (hdeciding r e hd))
      received := fun r hr => by
        rw [hreceived] at hr
        obtain ⟨q, hq, hrest⟩ := hi.received r hr
        exact ⟨q, append_old hprocs hq, hrest⟩
      nodup := by rw [hreceived]; exact hi.nodup
      launching := fun c q hq hl hin => by
        rcases append_cases hprocs hq with hq | ⟨rfl, rfl⟩
        · exact hold _ _ (hi.launching c q hq hl hin)
        · exact hnew hl hin }

/-- The rule for a fork of a start. -/
theorem of_append_start (hi : Inv s) (hfree : s.pidTaken p.pid = false)
    (hpok : p.Ok s.procs.length) (htreg : s'.treg = s.treg) (hregistry : s'.registry = s.registry)
    (hrequests : s'.requests = s.requests) (hstops : s'.stops = s.stops)
    (hhandler : s'.handler = s.handler) {i : ℕ} (hl : p.launcher = .start i) : Inv s' := by
  refine of_append hprocs hi hfree hpok htreg hregistry ?_ hstops (fun _ _ hd => ?_)
    (fun _ _ hl => ?_) fun hh => ?_
  · rw [State.received_congr hhandler hrequests]
  · rwa [hhandler] at hd
  · rwa [hhandler]
  · rw [hl] at hh
    cases hh

/-- The rule for a fork of the handler. -/
theorem of_append_handler (hi : Inv s) (hfree : s.pidTaken p.pid = false)
    (hpok : p.Ok s.procs.length) (htreg : s'.treg = s.treg) (hregistry : s'.registry = s.registry)
    (hrequests : s'.requests = s.requests) (hstops : s'.stops = s.stops) {name : String}
    {config : ProcessConfig} (hforking : s.handler = .forking name config)
    (hhandler : s'.handler = .launching p.name s.procs.length ∨
      p.phase.inProgress = false ∧ s'.handler = .stopped) : Inv s' := by
  refine of_append hprocs hi hfree hpok htreg hregistry ?_ hstops (fun _ _ hd => ?_)
    (fun _ _ hl => ?_) fun _ hin => ?_
  · rw [State.received, State.received, hrequests, hforking]
    rcases hhandler with hhandler | ⟨-, hhandler⟩ <;>
    · rw [hhandler]
      rfl
  · rcases hhandler with hhandler | ⟨-, hhandler⟩ <;>
    · rw [hhandler] at hd
      cases hd
  · rw [hforking] at hl
    cases hl
  · refine hhandler.resolve_right fun hover => ?_
    rw [hover.1] at hin
    cases hin

end Append

/-- A launcher that is about to fork launches nothing else. -/
theorem handler_of_forkConfig {cfg : String × ProcessConfig}
    (h : s.forkConfig .handler = some cfg) : s.handler = .forking cfg.1 cfg.2 := by
  unfold State.forkConfig at h
  simp only at h
  split at h
  · rename_i hh
    cases h
    exact hh
  · cases h

end Inv

/-! ## What any step does to processes, entries and stops -/

namespace Change

variable {s s' : State} {a : Action} {c : ProcId}

/-- The processes after a step are those of before, or a fork has added one. -/
theorem evolves_or_forks (h : Change s a s') : (∃ x, s.Evolves x s') ∨
    ∃ p, s'.procs = s.procs ++ [p] ∧ s.forkConfig p.launcher = some (p.name, p.config) := by
  cases h with
  | quiet hev hk => exact .inl ⟨_, hev⟩
  | @forked l _ _ _ p hfork hfree hp hprocs =>
    have hl : p.launcher = l := by rw [hp]
    exact .inr ⟨p, hprocs, by rwa [hl]⟩
  | @leaked l _ _ _ p hfork hfree hp hspawned hprocs =>
    have hl : p.launcher = l := by rw [hp]
    exact .inr ⟨p, hprocs, by rwa [hl]⟩
  | forkFailed hprocs htreg => exact .inl ⟨none, .of_eq hprocs htreg⟩
  | launchFailed hev => exact .inl ⟨_, hev⟩
  | submitted hev => exact .inl ⟨_, hev⟩
  | inserted hev => exact .inl ⟨_, hev⟩
  | stopRemoved he hprocs htreg => exact .inl ⟨none, .of_eq hprocs htreg⟩
  | stopKilled hev => exact .inl ⟨_, hev⟩
  | stopped he hev => exact .inl ⟨_, hev⟩
  | exitSeen hev => exact .inl ⟨_, hev⟩
  | received hidle hr => exact .inl ⟨none, .of_eq rfl rfl⟩
  | notFound hh hr => exact .inl ⟨none, .of_eq rfl rfl⟩
  | removed hh he hprocs htreg => exact .inl ⟨none, .of_eq hprocs htreg⟩
  | dropped hh hdrop hev => exact .inl ⟨_, hev⟩
  | respawned hh hev => exact .inl ⟨_, hev⟩
  | removedAgain hh => exact .inl ⟨none, .of_eq rfl rfl⟩

/-- A process stays, whatever the step. -/
theorem proc {p : Proc} (h : Change s a s') (hp : s.procs[c]? = some p) :
    ∃ x p', s'.procs[c]? = some p' ∧ p.Evolves x c p' := by
  rcases h.evolves_or_forks with ⟨x, hev⟩ | ⟨q, hprocs, -⟩
  · exact ⟨x, hev.procs c p hp⟩
  · exact ⟨none, p, Inv.append_old hprocs hp, .refl none c p⟩

/-- A process was there, or the step has forked it. -/
theorem origin {p' : Proc} (h : Change s a s') (hp' : s'.procs[c]? = some p') :
    (∃ x p, s.procs[c]? = some p ∧ p.Evolves x c p') ∨
      s.forkConfig p'.launcher = some (p'.name, p'.config) := by
  rcases h.evolves_or_forks with ⟨x, hev⟩ | ⟨q, hprocs, hfork⟩
  · exact .inl ⟨x, hev.origin hp'⟩
  · rcases Inv.append_cases hprocs hp' with hp | ⟨-, rfl⟩
    · exact .inl ⟨none, p', hp, .refl none c p'⟩
    · exact .inr hfork

/-- A launch that is complete stays so. -/
theorem registered {name : String} {e : Entry} (h : Change s a s') (hr : s.Registered name e) :
    s'.Registered name e := by
  rcases h.evolves_or_forks with ⟨x, hev⟩ | ⟨q, hprocs, -⟩
  · exact Inv.registered_of_evolves hev hr
  · obtain ⟨p, hp, hrest⟩ := hr
    exact ⟨p, Inv.append_old hprocs hp, hrest⟩

/-- An entry was there, or its process is at the end of its launch. -/
theorem entry {name : String} {e : Entry} (h : Change s a s')
    (he : s'.registry name = some e) : s.registry name = some e ∨ a = .insert e.proc ∧
      (∃ p, s.procs[e.proc]? = some p ∧ p.phase = .insert ∧ p.name = name) ∧
        s'.Registered name e := by
  have hsame (hregistry : s'.registry = s.registry) : s.registry name = some e := by
    rwa [hregistry] at he
  have hremove {name' : String} (hregistry : s'.registry = s.registry.remove name') :
      s.registry name = some e := by
    rw [hregistry] at he
    exact ProcessRegistry.of_remove he
  cases h with
  | quiet hev hk => exact .inl (hsame hk.registry)
  | forked _ _ _ _ _ hregistry => exact .inl (hsame hregistry)
  | leaked _ _ _ _ _ _ hregistry => exact .inl (hsame hregistry)
  | forkFailed _ _ hregistry => exact .inl (hsame hregistry)
  | launchFailed _ _ _ _ _ hregistry => exact .inl (hsame hregistry)
  | submitted _ _ _ _ _ hk => exact .inl (hsame hk.registry)
  | inserted hev hp hphase hp' hphase' hregistry =>
    rw [hregistry] at he
    rcases ProcessRegistry.of_insert he with ⟨rfl, rfl⟩ | he
    · obtain ⟨p₁, hp₁, hev₁⟩ := hev.procs _ _ hp
      obtain rfl := Option.some_inj.mp (hp'.symm.trans hp₁)
      exact .inr ⟨rfl, ⟨_, hp, hphase, rfl⟩, _, hp', hev₁.name, hev₁.pid, hphase'⟩
    · exact .inl he
  | stopRemoved _ _ _ hregistry => exact .inl (hremove hregistry)
  | stopKilled _ hregistry => exact .inl (hsame hregistry)
  | stopped _ _ hregistry => exact .inl (hremove hregistry)
  | exitSeen _ _ _ _ _ hregistry => exact .inl (hsame hregistry)
  | received hidle hr => exact .inl he
  | notFound hh hr => exact .inl he
  | removed _ _ _ _ hregistry => exact .inl (hremove hregistry)
  | dropped _ _ _ hregistry => exact .inl (hsame hregistry)
  | respawned _ _ hregistry => exact .inl (hsame hregistry)
  | removedAgain hh => exact .inl (hremove rfl)

/-- A stop that has removed an entry has done so before, or does so now. -/
theorem stop {i : ℕ} {k : StopCall} (h : Change s a s') (hk : s'.stops i = some k) :
    s.stops i = some k ∨ a = .stopRemove i k.name ∧ s.registry k.name = some k.entry := by
  have hsame (hstops : s'.stops = s.stops) : s.stops i = some k := by
    rwa [hstops] at hk
  have hupdate {j : ℕ} {k' : Option StopCall} (hstops : s'.stops = Function.update s.stops j k') :
      i = j ∧ k' = some k ∨ s.stops i = some k := by
    rw [hstops] at hk
    exact eq_or_of_update hk
  cases h with
  | quiet hev hk => exact .inl (hsame hk.stops)
  | forked _ _ _ _ _ _ _ hstops => exact .inl (hsame hstops)
  | leaked _ _ _ _ _ _ _ _ hstops => exact .inl (hsame hstops)
  | forkFailed _ _ _ _ hstops => exact .inl (hsame hstops)
  | launchFailed _ _ _ _ _ _ _ hstops => exact .inl (hsame hstops)
  | submitted _ _ _ _ _ hk => exact .inl (hsame hk.stops)
  | inserted _ _ _ _ _ _ _ hstops => exact .inl (hsame hstops)
  | stopRemoved he _ _ _ _ _ hstops =>
    rcases hupdate hstops with ⟨rfl, hremoved⟩ | hold
    · obtain rfl := Option.some_inj.mp hremoved
      exact .inr ⟨rfl, he⟩
    · exact .inl hold
  | stopKilled _ _ _ _ hstops =>
    rcases hupdate hstops with ⟨-, hkilled⟩ | hold
    · cases hkilled
    · exact .inl hold
  | stopped _ _ _ _ _ hstops => exact .inl (hsame hstops)
  | exitSeen _ _ _ _ _ _ _ _ _ hstops => exact .inl (hsame hstops)
  | received hidle hr => exact .inl hk
  | notFound hh hr => exact .inl hk
  | removed _ _ _ _ _ _ hstops => exact .inl (hsame hstops)
  | dropped _ _ _ _ _ hstops => exact .inl (hsame hstops)
  | respawned _ _ _ _ hstops => exact .inl (hsame hstops)
  | removedAgain hh => exact .inl hk

end Change

/-! ## The invariant of every run -/

namespace Inv

variable {s s' : State} {a : Action}

/-- The rule for an exit, of a process about which there was no request. -/
theorem of_exitSeen (hev : s.Evolves none s') (hi : Inv s)
    (hregistry : ∀ name e, s'.registry name = some e →
      s.registry name = some e ∨ s'.Registered name e)
    (hstops : ∀ i k, s'.stops i = some k → s.stops i = some k ∨ s.Registered k.name k.entry)
    {c : ProcId} {p p' : Proc} (hp : s.procs[c]? = some p) (hlive : p.watch.isLive)
    (hp' : s'.procs[c]? = some p') (hreaped : p'.status = .reaped)
    (hhandler : s'.handler = s.handler) (hrequests : s'.requests = s.requests ++ [⟨p.name, c⟩]) :
    Inv s' := by
  have hreceived : s'.received = s.received ++ [⟨p.name, c⟩] := by
    rw [State.received, State.received, hhandler, hrequests, List.append_assoc]
  have hexited : s'.Exited ⟨p.name, c⟩ := by
    obtain ⟨p₁, hp₁, hev₁⟩ := hev.procs c p hp
    rw [hp', Option.some_inj] at hp₁
    subst hp₁
    exact ⟨p', hp', hev₁.name, hreaped⟩
  have hfresh : c ∉ s.received.map (·.proc) := by
    intro hc
    obtain ⟨r, hr, rfl⟩ := List.mem_map.mp hc
    obtain ⟨q, hq, -, hstatus⟩ := hi.received r hr
    rw [hp, Option.some_inj] at hq
    subst hq
    exact Change.not_reaped hi.ok hp hlive hstatus
  exact
    { ok := ok_of_evolves hev hi.ok
      pids := pids_of_evolves hev hi.pids
      treg := hev.treg hi.treg
      registry := fun name e he => (hregistry name e he).elim
        (fun he => registered_of_evolves hev (hi.registry name e he)) id
      stops := fun i k hk => registered_of_evolves hev <|
        (hstops i k hk).elim (fun hk => hi.stops i k hk) id
      deciding := fun r e hd =>
        registered_of_evolves hev (hi.deciding r e (by rwa [hhandler] at hd))
      received := fun r hr => by
        rw [hreceived, List.mem_append, List.mem_singleton] at hr
        rcases hr with hr | rfl
        · exact exited_of_evolves hev (hi.received r hr)
        · exact hexited
      nodup := by
        rw [hreceived, List.map_append, List.map_singleton]
        exact hi.nodup.append (List.nodup_singleton c) (by simpa using hfresh)
      launching := fun d q hq hl hin => by
        rw [hhandler]
        exact launching_of_evolves hev hi hq hl hin }

/-- The invariant is kept by every step. -/
theorem step (hi : Inv s) (h : Yapm.step a s = some s') : Inv s' := by
  have hchange := change_of_step hi.ok hi.pids h
  have hentries (name : String) (e : Entry) (he : s'.registry name = some e) :
      s.registry name = some e ∨ s'.Registered name e :=
    (hchange.entry he).imp_right fun hnew => hnew.2.2
  have hremovals (i : ℕ) (k : StopCall) (hk : s'.stops i = some k) :
      s.stops i = some k ∨ s.Registered k.name k.entry :=
    (hchange.stop hk).imp_right fun hnew => hi.registry k.name k.entry hnew.2
  cases hchange with
  | quiet hev hk => exact of_keeps hev hi hk
  | submitted hev hp hphase hp' hphase' hk => exact of_keeps hev hi hk
  | @forked l _ _ _ p hfork hfree hp hprocs htreg hregistry hrequests hstops hhandler =>
    have hpok : p.Ok s.procs.length :=
      .of_new (by rw [hp]) (by rw [hp]) (by rw [hp]; simp)
    have hl : p.launcher = l := by rw [hp]
    cases l with
    | start i =>
      exact of_append_start hprocs hi hfree hpok htreg hregistry hrequests hstops hhandler hl
    | handler =>
      exact of_append_handler hprocs hi hfree hpok htreg hregistry hrequests hstops
        (handler_of_forkConfig hfork) (.inl hhandler)
  | @leaked l _ _ _ p hfork hfree hp hspawned hprocs htreg hregistry hrequests hstops hhandler =>
    have hpok : p.Ok s.procs.length :=
      .of_new (by rw [hp]) (by rw [hp]) (by rw [hp]; simp)
    have hl : p.launcher = l := by rw [hp]
    cases l with
    | start i =>
      exact of_append_start hprocs hi hfree hpok htreg hregistry hrequests hstops hhandler hl
    | handler =>
      exact of_append_handler hprocs hi hfree hpok htreg hregistry hrequests hstops
        (handler_of_forkConfig hfork) (.inr ⟨by rw [hp]; rfl, hhandler⟩)
  | @forkFailed l _ _ _ _ hprocs htreg hregistry hrequests hstops hhandler hfork =>
    have hev : s.Evolves none s' := .of_eq hprocs htreg
    cases l with
    | start i => exact of_handler_eq hev hi hentries hremovals hhandler hrequests
    | handler =>
      obtain ⟨cfg, hfork⟩ := hfork
      have hforking := handler_of_forkConfig hfork
      have hhandler : s'.handler = .stopped := hhandler
      refine of_serving hev hi hentries hremovals (fun _ _ hd => ?_) ?_ (by simp [hforking])
      · rw [hhandler] at hd
        cases hd
      · rw [State.received, State.received, hhandler, hrequests, hforking]
        exact .refl _
  | @launchFailed _ _ c p p' hev hp hin hp' hfailed hregistry hrequests hstops hhandler =>
    cases hl : p.launcher with
    | start i =>
      have hhandler : s'.handler = s.handler := by rw [hhandler, hl]; rfl
      exact of_handler_eq hev hi hentries hremovals hhandler hrequests
    | handler =>
      have hhandler : s'.handler = .stopped := by rw [hhandler, hl]; rfl
      exact of_launched hev hi hentries hremovals (hi.launching c p hp hl hin) hp'
        (by rw [hfailed]; rfl) (.inr hhandler) hrequests
  | @inserted _ c p p' hev hp hphase hp' hphase' hregistry hrequests hstops hhandler =>
    cases hl : p.launcher with
    | start i =>
      have hhandler : s'.handler = s.handler := by rw [hhandler, hl]; rfl
      exact of_handler_eq hev hi hentries hremovals hhandler hrequests
    | handler =>
      rw [hl, if_pos rfl] at hhandler
      exact of_launched hev hi hentries hremovals
        (hi.launching c p hp hl (by rw [hphase]; rfl)) hp' (by rw [hphase']; rfl)
        (.inl hhandler) hrequests
  | stopRemoved he hprocs htreg hregistry hhandler hrequests hstops =>
    exact of_handler_eq (x := none) (.of_eq hprocs htreg) hi hentries hremovals hhandler hrequests
  | stopKilled hev hregistry hhandler hrequests hstops =>
    exact of_handler_eq hev hi hentries hremovals hhandler hrequests
  | stopped he hev hregistry hhandler hrequests hstops hdead =>
    exact of_handler_eq hev hi hentries hremovals hhandler hrequests
  | exitSeen hev hp hlive hp' hreaped hregistry hhandler hreceives hrequests hstops =>
    exact of_exitSeen hev hi hentries hremovals hp hlive hp' hreaped hhandler hrequests
  | received hidle hr =>
    refine of_serving (x := none) (s := s) (.of_eq rfl rfl) hi hentries hremovals
      (fun _ _ hd => by cases hd) ?_ (by simp [hidle])
    simp [State.received, Handler.current, hidle, hr]
  | notFound hh hr =>
    refine of_serving (x := none) (s := s) (.of_eq rfl rfl) hi hentries hremovals
      (fun _ _ hd => by cases hd) ?_ (by simp [hh])
    simp [State.received, Handler.current, hh]
  | removed hh he hprocs htreg hregistry hrequests hstops hhandler =>
    refine of_serving (x := none) (.of_eq hprocs htreg) hi hentries hremovals (fun _ _ hd => ?_) ?_
      (by simp [hh])
    · rw [hhandler] at hd
      cases hd
      exact hi.registry _ _ he
    · simp [State.received, Handler.current, hh, hhandler, hrequests]
  | dropped hh hdrop hev hregistry hrequests hstops hhandler =>
    refine of_serving hev hi hentries hremovals (fun _ _ hd => ?_) ?_ (by simp [hh])
    · rw [hhandler] at hd
      cases hd
    · simp [State.received, Handler.current, hh, hhandler, hrequests]
  | respawned hh hev hregistry hrequests hstops hhandler =>
    refine of_serving hev hi hentries hremovals (fun _ _ hd => ?_) ?_ (by simp [hh])
    · rw [hhandler] at hd
      cases hd
    · simp [State.received, Handler.current, hh, hhandler, hrequests]
  | removedAgain hh =>
    refine of_serving (x := none) (s := s) (.of_eq rfl rfl) hi hentries hremovals
      (fun _ _ hd => by cases hd) ?_ (by simp [hh])
    simp [State.received, Handler.current, hh]

end Inv

/-- The invariant holds in every state of every run. -/
theorem inv_of_reachable {C : State → Action → Prop} {s : State} (h : Reachable C s) : Inv s :=
  h.invariant .init fun _ _ _ hi _ hs => hi.step hs

end Yapm
