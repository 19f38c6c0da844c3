import Yapm.RunInvariant

/-!
# Whether the restart handler finds what it is asked for

The handler panics at a request whose name is not registered. A name that a request is
pending for is covered when it is registered, or when the handler is about to register it
again. That is so throughout a run (`served_of_reachable`) unless one of four steps breaks
it, which `State.keepsCovered` leaves out : a process exits before its launch has registered
it or after its name is gone, a stop comes before the handler, and the handler itself
removes a name for good, in either of its removals, while another request for it is pending.

Without the condition the handler panics (`early_exit_panics`).
-/

namespace Yapm

/-- The request whose entry the handler is about to take out. -/
def Handler.looksFor : Handler → List RestartRequest
  | .removing r => [r]
  | _ => []

/-- The handler is about to register a process under the name, if nothing fails. -/
def Handler.relaunches (name : String) : Handler → Bool
  | .deciding r e => r.name = name && e.task.respawn.1
  | .forking name' _ | .launching name' _ => name' = name
  | _ => false

namespace State

/-- The requests the handler has still to look up. -/
def pending (s : State) : List RestartRequest :=
  s.handler.looksFor ++ s.requests

/-- The name is registered, or will be again. -/
def covers (s : State) (name : String) : Bool :=
  (s.registry name).isSome || s.handler.relaunches name

/-- A step uncovers no name that a request is pending for : a request is sent for a
covered name, and a name that a request is pending for is removed only when the handler
is about to register it again. -/
def keepsCovered (s : State) : Action → Bool
  | .monitorExit c =>
    match s.procs[c]? with
    | some p => !s.handler.receives || s.covers p.name
    | none => true
  | .stopRemove _ name | .stop _ name _ =>
    s.handler.relaunches name || s.pending.all (·.name ≠ name)
  | .remove =>
    match s.handler with
    | .removing r =>
      (s.registry r.name).all (·.task.respawn.1) || s.requests.all (·.name ≠ r.name)
    | _ => true
  | .removeAgain =>
    match s.handler with
    | .removingAgain r => s.requests.all (·.name ≠ r.name)
    | _ => true
  | _ => true

/-- The handler finds what it looks for, and has not panicked. -/
def Served (s : State) : Prop :=
  (∀ r, s.handler = .removing r → (s.registry r.name).isSome) ∧ s.handler ≠ .panicked

/-- While the handler receives, every name a request is pending for is covered. -/
structure Covered (s : State) : Prop where
  running : s.handler ≠ .panicked
  covers : s.handler.receives → ∀ r ∈ s.pending, s.covers r.name

end State

variable {s s' : State} {a : Action} {name : String}

theorem State.covers_iff : s.covers name ↔ (∃ e, s.registry name = some e) ∨
    s.handler.relaunches name := by
  rw [covers, Bool.or_eq_true, Option.isSome_iff_exists]

namespace State.Covered

theorem init : Covered .init where
  running := by simp [State.init]
  covers _ r h := by simp [State.init, State.pending, Handler.looksFor] at h

theorem served (h : s.Covered) : s.Served := by
  refine ⟨fun r hh => ?_, h.running⟩
  have hcovers := h.covers (by rw [hh]; rfl) r (by rw [State.pending, hh]; exact .head _)
  simpa [State.covers, hh, Handler.relaunches] using hcovers

/-- The rule for steps that leave the handler and the requests : every pending name keeps
its entry, unless the handler relaunches it. -/
theorem of_handler_eq (h : s.Covered) (hhandler : s'.handler = s.handler)
    (hrequests : s'.requests = s.requests)
    (hentry : ∀ r ∈ s.pending, ∀ e, s.registry r.name = some e →
      (∃ e', s'.registry r.name = some e') ∨ s.handler.relaunches r.name) : s'.Covered where
  running := by
    rw [hhandler]
    exact h.running
  covers hreceives r hr := by
    rw [hhandler] at hreceives
    rw [State.pending, hhandler, hrequests] at hr
    rw [State.covers_iff, hhandler]
    rcases State.covers_iff.mp (h.covers hreceives r hr) with ⟨e, he⟩ | hrel
    · exact hentry r hr e he
    · exact .inr hrel

/-- The rule for steps that leave the registry too. -/
theorem of_eq (h : s.Covered) (hregistry : s'.registry = s.registry)
    (hhandler : s'.handler = s.handler) (hrequests : s'.requests = s.requests) : s'.Covered :=
  h.of_handler_eq hhandler hrequests fun _ _ e he => .inl ⟨e, by rwa [hregistry]⟩

/-- Nothing is pending once the handler is gone. -/
theorem of_stopped (hhandler : s'.handler = .stopped) : s'.Covered where
  running := by
    simp [hhandler]
  covers hreceives := by simp [hhandler, Handler.receives] at hreceives

/-- A launch fails, and with it the handler if it is the handler's. -/
theorem of_afterFailure (h : s.Covered) {l : Launcher} (hregistry : s'.registry = s.registry)
    (hhandler : s'.handler = s.handler.afterFailure l) (hrequests : s'.requests = s.requests) :
    s'.Covered := by
  cases l with
  | start i => exact h.of_eq hregistry hhandler hrequests
  | handler => exact of_stopped hhandler

/-- The handler goes on to look for nothing. -/
theorem of_looksFor_nil (h : s.Covered) (hreceives : s.handler.receives)
    (hrunning : s'.handler ≠ .panicked) (hlooks : s'.handler.looksFor = [])
    (hrequests : s'.requests = s.requests)
    (hcovers : ∀ r ∈ s.requests, s.covers r.name → s'.covers r.name) : s'.Covered where
  running := hrunning
  covers _ r hr := by
    rw [State.pending, hlooks, hrequests] at hr
    exact hcovers r hr (h.covers hreceives r (List.mem_append_right _ hr))

theorem ne_of_all {requests : List RestartRequest} {r : RestartRequest}
    (h : requests.all (·.name ≠ name)) (hr : r ∈ requests) : r.name ≠ name := by
  simpa using List.all_eq_true.mp h r hr

/-- A stop removes an entry, of a name the handler relaunches or no request is pending for. -/
theorem of_stop (h : s.Covered) (hregistry : s'.registry = s.registry.remove name)
    (hhandler : s'.handler = s.handler) (hrequests : s'.requests = s.requests)
    (hkeeps : s.handler.relaunches name || s.pending.all (·.name ≠ name)) : s'.Covered := by
  refine h.of_handler_eq hhandler hrequests fun r hr e he => ?_
  rcases Bool.or_eq_true_iff.mp hkeeps with hrel | hall
  · by_cases hname : r.name = name
    · exact .inr (by rwa [hname])
    · exact .inl ⟨e, by rwa [hregistry, ProcessRegistry.remove_of_ne hname]⟩
  · exact .inl ⟨e, by rwa [hregistry, ProcessRegistry.remove_of_ne (ne_of_all hall hr)]⟩

/-- The rule for the end of a launch, which makes an entry of the name. -/
theorem of_inserted (h : s.Covered) (hi : Inv s) {c : ProcId} {p : Proc}
    (hp : s.procs[c]? = some p) (hphase : p.phase = .insert)
    (hregistry : s'.registry = s.registry.insert p.name ⟨⟨p.config, p.pid⟩, c⟩)
    (hrequests : s'.requests = s.requests)
    (hhandler : s'.handler = if p.launcher = .handler then .idle else s.handler) :
    s'.Covered := by
  have hinsert : ∀ name e, s.registry name = some e → ∃ e', s'.registry name = some e' := by
    intro name e he
    by_cases hname : name = p.name
    · exact ⟨_, by rw [hregistry, hname, ProcessRegistry.insert_self]⟩
    · exact ⟨e, by rwa [hregistry, ProcessRegistry.insert_of_ne hname]⟩
  cases hl : p.launcher with
  | start i =>
    have hhandler : s'.handler = s.handler := by rw [hhandler, hl]; rfl
    exact h.of_handler_eq hhandler hrequests fun r _ e he => .inl (hinsert r.name e he)
  | handler =>
    have hlaunching := hi.launching c p hp hl (by rw [hphase]; rfl)
    have hhandler : s'.handler = .idle := by rw [hhandler, hl]; rfl
    refine h.of_looksFor_nil (by rw [hlaunching]; rfl) (by simp [hhandler])
      (by rw [hhandler]; rfl) hrequests fun r _ hr => ?_
    rw [State.covers_iff] at hr ⊢
    rcases hr with ⟨e, he⟩ | hrel
    · exact .inl (hinsert r.name e he)
    · have hname : p.name = r.name := by simpa [hlaunching, Handler.relaunches] using hrel
      exact .inl ⟨_, by rw [hregistry, ← hname, ProcessRegistry.insert_self]⟩

/-- The rule for a request, which is of a covered name. -/
theorem of_exitSeen (h : s.Covered) {r : RestartRequest} (hregistry : s'.registry = s.registry)
    (hhandler : s'.handler = s.handler) (hreceives : s.handler.receives)
    (hrequests : s'.requests = s.requests ++ [r]) (hkeeps : s.covers r.name) : s'.Covered := by
  have hcovers : ∀ name, s'.covers name = s.covers name := fun name => by
    rw [State.covers, hregistry, hhandler, State.covers]
  refine ⟨by rw [hhandler]; exact h.running, fun _ q hq => ?_⟩
  rw [State.pending, hhandler, hrequests, ← List.append_assoc, List.mem_append,
    List.mem_singleton] at hq
  rw [hcovers]
  rcases hq with hq | rfl
  · exact h.covers hreceives q hq
  · exact hkeeps

/-- The rule for a removal by the handler, of a name it relaunches or no further request is
for. -/
theorem of_removed (h : s.Covered) {r : RestartRequest} {e : Entry}
    (hh : s.handler = .removing r) (hregistry : s'.registry = s.registry.remove r.name)
    (hrequests : s'.requests = s.requests) (hhandler : s'.handler = .deciding r e)
    (hkeeps : e.task.respawn.1 = true ∨ s.requests.all (·.name ≠ r.name)) : s'.Covered := by
  refine h.of_looksFor_nil (by rw [hh]; rfl) (by simp [hhandler])
    (by rw [hhandler]; rfl) hrequests fun q hq hcovers => ?_
  rw [State.covers_iff, hh] at hcovers
  obtain ⟨e', he'⟩ := hcovers.resolve_right (by simp [Handler.relaunches])
  rw [State.covers_iff, hregistry, hhandler]
  rcases hkeeps with hrespawn | hall
  · by_cases hname : q.name = r.name
    · exact .inr (by simp [Handler.relaunches, hname, hrespawn])
    · exact .inl ⟨e', by rwa [ProcessRegistry.remove_of_ne hname]⟩
  · exact .inl ⟨e', by rwa [ProcessRegistry.remove_of_ne (ne_of_all hall hq)]⟩

/-- Every step that meets the condition keeps pending names covered. -/
theorem step (hi : Inv s) (h : s.Covered) (hkeeps : s.keepsCovered a)
    (hstep : Yapm.step a s = some s') : s'.Covered := by
  have hchange := change_of_step hi.ok hi.pids hstep
  cases hchange with
  | quiet hev hk => exact h.of_eq hk.registry hk.handler hk.requests
  | @forked l _ _ _ p hfork hfree hp hprocs htreg hregistry hrequests hstops hhandler =>
    cases l with
    | start i => exact h.of_eq hregistry hhandler hrequests
    | handler =>
      have hforking := Inv.handler_of_forkConfig hfork
      have hhandler : s'.handler = .launching p.name s.procs.length := hhandler
      refine h.of_looksFor_nil (by rw [hforking]; rfl) (by simp [hhandler])
        (by rw [hhandler]; rfl) hrequests fun r _ hr => ?_
      rw [State.covers, hregistry, hhandler]
      rwa [State.covers, hforking] at hr
  | leaked hfork hfree hp hspawned hprocs htreg hregistry hrequests hstops hhandler =>
    exact h.of_afterFailure hregistry hhandler hrequests
  | forkFailed hprocs htreg hregistry hrequests hstops hhandler hfork =>
    exact h.of_afterFailure hregistry hhandler hrequests
  | launchFailed hev hp hin hp' hfailed hregistry hrequests hstops hhandler =>
    exact h.of_afterFailure hregistry hhandler hrequests
  | submitted hev hp hphase hp' hphase' hk => exact h.of_eq hk.registry hk.handler hk.requests
  | inserted hev hp hphase hp' hphase' hregistry hrequests hstops hhandler =>
    exact h.of_inserted hi hp hphase hregistry hrequests hhandler
  | stopRemoved he hprocs htreg hregistry hhandler hrequests hstops =>
    exact h.of_stop hregistry hhandler hrequests hkeeps
  | stopKilled hev hregistry hhandler hrequests hstops => exact h.of_eq hregistry hhandler hrequests
  | stopped he hev hregistry hhandler hrequests hstops hdead =>
    exact h.of_stop hregistry hhandler hrequests hkeeps
  | exitSeen hev hp hlive hp' hreaped hregistry hhandler hreceives hrequests hstops =>
    exact h.of_exitSeen hregistry hhandler hreceives hrequests
      (by simpa [State.keepsCovered, hp, hreceives] using hkeeps)
  | @received r requests hidle hr =>
    refine ⟨by simp, fun _ q hq => ?_⟩
    have hcovers := h.covers (by rw [hidle]; rfl) q (by
      rw [State.pending, hr]
      exact List.mem_append_right _ hq)
    simpa [State.covers, hidle, Handler.relaunches] using hcovers
  | @notFound r hh hr =>
    have hfound := h.served.1 r hh
    rw [hr] at hfound
    cases hfound
  | removed hh he hprocs htreg hregistry hrequests hstops hhandler =>
    simp only [State.keepsCovered, hh, he, Option.all_some, Bool.or_eq_true] at hkeeps
    exact h.of_removed hh hregistry hrequests hhandler hkeeps
  | @dropped _ _ r e hh hdrop hev hregistry hrequests hstops hhandler =>
    refine h.of_looksFor_nil (by rw [hh]; rfl) (by simp [hhandler])
      (by rw [hhandler]; rfl) hrequests fun q _ hcovers => ?_
    rw [State.covers_iff, hh] at hcovers
    rw [State.covers_iff, hregistry]
    exact .inl (hcovers.resolve_right (by simp [Handler.relaunches, hdrop]))
  | @respawned _ _ r e config hh hev hregistry hrequests hstops hhandler =>
    refine h.of_looksFor_nil (by rw [hh]; rfl) (by simp [hhandler])
      (by rw [hhandler]; rfl) hrequests fun q _ hcovers => ?_
    rw [State.covers_iff, hh] at hcovers
    rw [State.covers_iff, hregistry, hhandler]
    refine hcovers.imp id fun hrel => ?_
    simp only [Handler.relaunches, Bool.and_eq_true] at hrel
    exact hrel.1
  | @removedAgain r hh =>
    refine h.of_looksFor_nil (by rw [hh]; rfl) (by simp) rfl rfl fun q hq hcovers => ?_
    simp only [State.keepsCovered, hh] at hkeeps
    rw [State.covers_iff, hh] at hcovers
    obtain ⟨e, he⟩ := hcovers.resolve_right (by simp [Handler.relaunches])
    have hne := ne_of_all hkeeps hq
    exact State.covers_iff.mpr (.inl ⟨e, (ProcessRegistry.remove_of_ne hne).trans he⟩)

end State.Covered

/-- In a run whose steps uncover no name that a request is pending for, the handler finds every
entry it looks for. -/
theorem served_of_reachable (h : Reachable (fun s a => s.keepsCovered a) s) : s.Served :=
  (h.invariant (I := fun s => Inv s ∧ s.Covered) ⟨.init, .init⟩ fun _ _ _ hi hk hs =>
    ⟨hi.1.step hs, hi.2.step hi.1 hk hs⟩).2.served

/-- A process is started and exits, and the handler looks up the request. -/
theorem exit_served : ∃ s : State, s.Served ∧ s.handler = .removing ⟨"db", 0⟩ :=
  ⟨_, served_of_reachable (Runs.reach_of_checked
    (startSteps 0 plainConfig 0 4242 ++ exitSteps 0 ++ [.recv]) rfl), rfl⟩

/-- A process exits between the submission of its monitoring task and its registration. -/
theorem early_exit_panics : ∃ s : State, Reachable (fun _ _ => True) s ∧
    s.handler = .panicked ∧ ¬s.Served :=
  ⟨_, Runs.reach_of_checked ([.startCall 0 plainConfig, .startCheck 0] ++
    launchSteps (.start 0) 0 4242 ++ exitSteps 0 ++ [.recv, .remove]) rfl, rfl, fun h => h.2 rfl⟩

end Yapm
