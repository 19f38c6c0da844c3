import Yapm.Manager

/-!
# Whether anything outlives `stop_all`

The walk of `stop_all` sees what is registered when it begins. It leaves no process alive,
and nothing is launched afterwards (`nothing_left_of_reachable`), when the daemon is at
rest as the walk ends : no launch is under way, every process that is alive has been
registered since the walk began, and the handler has nothing to restart (`State.AtRest`).
Moreover no start may get past its check of the registry once the walk is over.
-/

namespace Yapm

/-! ## At rest -/

/-- The handler is at nothing that will fork. -/
def Handler.refuses : Handler → Bool
  | .deciding _ e => !e.task.respawn.1
  | .forking _ _ | .launching _ _ => false
  | _ => true

/-- The handler will restart nothing : it has ended, or nothing will ask it to, or no policy
allows it to. -/
def State.Retired (s : State) : Prop :=
  s.handler.receives = false ∨
  (s.handler = .idle ∧ s.requests = [] ∧
    ∀ (c : ProcId) (p : Proc), s.procs[c]? = some p → p.watch.isLive = false) ∨
  s.handler.refuses ∧ ∀ name e, s.registry name = some e → e.task.respawn.1 = false

/-- No start is past its check, no launch is under way, and the handler will restart
nothing. -/
structure State.Idle (s : State) : Prop where
  starts : ∀ i config, s.starts i ≠ some (.forking config)
  launches : ∀ (c : ProcId) (p : Proc), s.procs[c]? = some p → p.phase.inProgress = false
  retired : s.Retired

/-- Idle, and every process that is alive is registered, with one of the entries. -/
structure State.AtRest (s : State) (entries : ProcessRegistry Entry) : Prop extends s.Idle where
  registered : ∀ (c : ProcId) (p : Proc), s.procs[c]? = some p → p.status = .alive →
    ∃ name e, s.registry name = some e ∧ entries name = some e ∧ e.proc = c

/-- A start that is at its check finds its name registered. -/
def State.turnsAway (s : State) (i : ℕ) : Bool :=
  match s.starts i with
  | some (.checking config) => (s.registry config.name).isSome
  | _ => true

namespace Manager

/-- After the walk of the call no start gets past its check. -/
def keepsStill (s : Manager) (i : ℕ) (a : Action) : Bool :=
  match s.stopAlls i, a with
  | some (.returned _), .daemon (.startCheck j) => s.daemon.turnsAway j
  | _, _ => true

/-- Moreover the walk ends when the daemon is at rest. -/
def settles (i : ℕ) (s : Manager) (a : Action) : Prop :=
  s.keepsStill i a ∧ (a = .finish i → ∀ entries visited failures,
    s.stopAlls i = some (.walking entries visited failures) → s.daemon.AtRest entries)

/-- No process is alive, and no step that meets the condition adds a process or an entry. -/
def NothingLeft (i : ℕ) (s : Manager) : Prop :=
  (∀ (c : ProcId) (p : Proc), s.daemon.procs[c]? = some p → p.status ≠ .alive) ∧
  ∀ a s', s.settles i a → step a s = some s' → s'.daemon.procs.length = s.daemon.procs.length ∧
    ∀ name e, s'.daemon.registry name = some e → s.daemon.registry name = some e

end Manager

variable {s s' : State} {a : Action} {c : ProcId} {p p' : Proc}

/-! ## The idle daemon -/

theorem State.Retired.not_forking (h : s.Retired) (name : String) (config : ProcessConfig) :
    s.handler ≠ .forking name config := by
  intro hh
  rcases h with hends | ⟨hidle, -⟩ | ⟨hrefuses, -⟩
  · simp [hh, Handler.receives] at hends
  · simp [hh] at hidle
  · simp [hh, Handler.refuses] at hrefuses

theorem State.Idle.forkConfig (h : s.Idle) (l : Launcher) : s.forkConfig l = none := by
  cases l with
  | start i =>
    simp only [State.forkConfig]
    split
    · exact absurd ‹_› (h.starts i _)
    · rfl
  | handler =>
    simp only [State.forkConfig]
    split
    · exact absurd ‹_› (h.retired.not_forking _ _)
    · rfl

/-- The monitoring tasks of an idle daemon end and do not begin. -/
theorem State.Idle.live (h : s.Idle) (hev : s.Evolves none s')
    (hquiet : ∀ (c : ProcId) (p : Proc), s.procs[c]? = some p → p.watch.isLive = false) :
    ∀ (c : ProcId) (p' : Proc), s'.procs[c]? = some p' → p'.watch.isLive = false := by
  intro c p' hp'
  obtain ⟨p, hp, hpev⟩ := hev.origin hp'
  have hactive : p.isActive = false := by
    have hlaunch := h.launches c p hp
    have hsub : p.phase.submitted = false := by
      cases hphase : p.phase <;> simp [hphase, Phase.inProgress] at hlaunch <;> rfl
    simp [Proc.isActive, hquiet c p hp, hlaunch, hsub]
  by_contra hlive
  have hactive' : p'.isActive := by
    simp only [Bool.not_eq_false] at hlive
    simp [Proc.isActive, hlive]
  rcases hpev.active hactive' with h' | h'
  · rw [hactive] at h'
    cases h'
  · cases h'

/-- The rule for steps that ask for no restart. -/
theorem State.Idle.retired_of_keeps (h : s.Idle) (hev : s.Evolves none s')
    (hregistry : ∀ name e, s'.registry name = some e → s.registry name = some e)
    (hhandler : s'.handler = s.handler) (hrequests : s'.requests = s.requests) : s'.Retired := by
  rcases h.retired with hends | ⟨hidle, hnone, hquiet⟩ | ⟨hrefuses, hall⟩
  · exact .inl (by rw [hhandler, hends])
  · exact .inr (.inl ⟨hhandler.trans hidle, hrequests.trans hnone, h.live hev hquiet⟩)
  · exact .inr (.inr ⟨by rwa [hhandler], fun name e he => hall name e (hregistry name e he)⟩)

/-- Where the handler receives and there is something for it, no policy allows a restart. -/
theorem State.Retired.of_busy (h : s.Retired) (hreceives : s.handler.receives)
    (hbusy : s.handler = .idle → s.requests = [] → ∃ (c : ProcId) (p : Proc),
      s.procs[c]? = some p ∧ p.watch.isLive) :
    s.handler.refuses ∧ ∀ name e, s.registry name = some e → e.task.respawn.1 = false := by
  rcases h with hends | ⟨hidle, hnone, hquiet⟩ | hrefuses
  · rw [hreceives] at hends
    cases hends
  · obtain ⟨c, p, hp, hlive⟩ := hbusy hidle hnone
    rw [hquiet c p hp] at hlive
    cases hlive
  · exact hrefuses

theorem State.Retired.of_ne_idle (h : s.Retired) (hreceives : s.handler.receives)
    (hne : s.handler ≠ .idle) :
    s.handler.refuses ∧ ∀ name e, s.registry name = some e → e.task.respawn.1 = false :=
  h.of_busy hreceives fun hidle => absurd hidle hne

/-- A launch is none of an idle daemon's. -/
theorem State.Idle.not_inProgress (h : s.Idle) (hp : s.procs[c]? = some p)
    (hin : p.phase.inProgress) : False := by
  rw [h.launches c p hp] at hin
  cases hin

/-- What a step leaves of an idle daemon. -/
structure State.Rests (s s' : State) : Prop where
  evolves : s.Evolves none s'
  registry : ∀ name e, s'.registry name = some e → s.registry name = some e
  retired : s'.Retired

theorem State.Idle.rests (hi : Inv s) (h : s.Idle) (hstep : step a s = some s') : s.Rests s' := by
  have hchange := change_of_step hi.ok hi.pids hstep
  have hregistry (name : String) (e : Entry) (he : s'.registry name = some e) :
      s.registry name = some e := by
    rcases hchange.entry he with hold | ⟨-, ⟨p, hp, hphase, -⟩, -⟩
    · exact hold
    · exact (h.not_inProgress hp (by rw [hphase]; rfl)).elim
  cases hchange with
  | quiet hev hk =>
    exact ⟨hev, hregistry, h.retired_of_keeps hev hregistry hk.handler hk.requests⟩
  | forked hfork => simp [h.forkConfig] at hfork
  | leaked hfork => simp [h.forkConfig] at hfork
  | forkFailed _ _ _ _ _ _ hfork =>
    obtain ⟨cfg, hfork⟩ := hfork
    simp [h.forkConfig] at hfork
  | launchFailed hev hp hin => exact (h.not_inProgress hp hin).elim
  | submitted hev hp hphase => exact (h.not_inProgress hp (by rw [hphase]; rfl)).elim
  | inserted hev hp hphase => exact (h.not_inProgress hp (by rw [hphase]; rfl)).elim
  | stopRemoved he hprocs htreg _ hhandler hrequests =>
    have hev : s.Evolves none s' := .of_eq hprocs htreg
    exact ⟨hev, hregistry, h.retired_of_keeps hev hregistry hhandler hrequests⟩
  | stopKilled hev _ hhandler hrequests =>
    exact ⟨hev, hregistry, h.retired_of_keeps hev hregistry hhandler hrequests⟩
  | stopped he hev _ hhandler hrequests =>
    exact ⟨hev, hregistry, h.retired_of_keeps hev hregistry hhandler hrequests⟩
  | exitSeen hev hp hlive hp' hreaped _ hhandler hreceives =>
    obtain ⟨hrefuses, hall⟩ := h.retired.of_busy hreceives fun _ _ => ⟨_, _, hp, hlive⟩
    exact ⟨hev, hregistry, .inr (.inr ⟨by rwa [hhandler], fun name e he =>
      hall name e (hregistry name e he)⟩)⟩
  | received hidle hr =>
    obtain ⟨-, hall⟩ := h.retired.of_busy (by rw [hidle]; rfl) fun _ hnone => by
      rw [hr] at hnone
      cases hnone
    exact ⟨.of_eq rfl rfl, hregistry, .inr (.inr ⟨rfl, hall⟩)⟩
  | notFound hh hr => exact ⟨.of_eq rfl rfl, hregistry, .inl rfl⟩
  | removed hh he hprocs htreg _ _ _ hhandler =>
    obtain ⟨-, hall⟩ := h.retired.of_ne_idle (by rw [hh]; rfl) (by simp [hh])
    refine ⟨.of_eq hprocs htreg, hregistry, .inr (.inr ⟨?_, fun name e he =>
      hall name e (hregistry name e he)⟩)⟩
    simp [hhandler, Handler.refuses, hall _ _ he]
  | dropped hh hdrop hev _ _ _ hhandler =>
    obtain ⟨-, hall⟩ := h.retired.of_ne_idle (by rw [hh]; rfl) (by simp [hh])
    exact ⟨hev, hregistry, .inr (.inr ⟨by rw [hhandler]; rfl, fun name e he =>
      hall name e (hregistry name e he)⟩)⟩
  | @respawned _ _ r e config hh hev _ _ _ hhandler =>
    obtain ⟨hrefuses, -⟩ := h.retired.of_ne_idle (by rw [hh]; rfl) (by simp [hh])
    have hdecide := State.handler_of_decide hh hstep
    have hno : e.task.respawn.1 = false := by simpa [hh, Handler.refuses] using hrefuses
    rw [hno, hhandler] at hdecide
    cases hdecide
  | removedAgain hh =>
    obtain ⟨-, hall⟩ := h.retired.of_ne_idle (by rw [hh]; rfl) (by simp [hh])
    exact ⟨.of_eq rfl rfl, hregistry, .inr (.inr ⟨rfl, fun name e he =>
      hall name e (hregistry name e he)⟩)⟩

/-- The rule for an idle daemon. -/
theorem State.Idle.of_evolves (h : s.Idle) (hev : s.Evolves none s') (hretired : s'.Retired)
    (hstarts : ∀ i config, s'.starts i ≠ some (.forking config)) : s'.Idle where
  starts := hstarts
  launches c p' hp' := by
    obtain ⟨p, hp, hpev⟩ := hev.origin hp'
    rw [hpev.finished (h.launches c p hp), h.launches c p hp]
  retired := hretired

theorem State.Idle.step (hi : Inv s) (h : s.Idle)
    (hturn : ∀ i, a = .startCheck i → s.turnsAway i) (hstep : Yapm.step a s = some s') :
    s'.Idle := by
  have hrests := h.rests hi hstep
  refine h.of_evolves hrests.evolves hrests.retired fun j config hj => ?_
  rcases (starts_of_step hstep).origin hj with hold | ⟨_, -, hk⟩ | ⟨cfg, rfl, hchecking, hfree, -⟩
  · exact h.starts j config hold
  · cases hk
  · have haway := hturn j rfl
    simp [State.turnsAway, hchecking, hfree] at haway

/-! ## The walk -/

namespace Manager

/-- What the walk of the call has visited, of the entries it began with, is dead. After the
walk the daemon is idle and nothing is alive. -/
def Walked (i : ℕ) (s : Manager) : Prop :=
  match s.stopAlls i with
  | some (.walking entries visited _) =>
    (∀ name e, entries name = some e → s.daemon.Registered name e) ∧
    ∀ name e, s.daemon.registry name = some e → entries name = some e → name ∈ visited →
      ∀ p, s.daemon.procs[e.proc]? = some p → p.status ≠ .alive
  | some (.returned _) => s.daemon.Idle ∧
    ∀ (c : ProcId) (p : Proc), s.daemon.procs[c]? = some p → p.status ≠ .alive
  | _ => True

namespace Walked

variable {i : ℕ} {s s' : Manager} {a : Action} {entries : ProcessRegistry Entry}
  {visited failures : List String} {r : StopAllResult}

theorem walking_iff (hk : s.stopAlls i = some (.walking entries visited failures)) :
    s.Walked i ↔ (∀ name e, entries name = some e → s.daemon.Registered name e) ∧
      ∀ name e, s.daemon.registry name = some e → entries name = some e → name ∈ visited →
        ∀ p, s.daemon.procs[e.proc]? = some p → p.status ≠ .alive := by
  simp only [Walked, hk]

theorem returned_iff (hk : s.stopAlls i = some (.returned r)) :
    s.Walked i ↔ s.daemon.Idle ∧
      ∀ (c : ProcId) (p : Proc), s.daemon.procs[c]? = some p → p.status ≠ .alive := by
  simp only [Walked, hk]

/-- The rule for steps that register nothing anew and wake nothing. -/
theorem of_old (h : s.Walked i) (hstop : s'.stopAlls i = s.stopAlls i)
    (hregistered : ∀ name e, s.daemon.Registered name e → s'.daemon.Registered name e)
    (hregistry : ∀ name e, s.daemon.Registered name e → s'.daemon.registry name = some e →
      s.daemon.registry name = some e)
    (halive : ∀ name e, s.daemon.registry name = some e → ∀ p', s'.daemon.procs[e.proc]? = some p' →
      p'.status = .alive → ∃ p, s.daemon.procs[e.proc]? = some p ∧ p.status = .alive)
    (hreturned : ∀ r, s.stopAlls i = some (.returned r) → s.daemon.Idle →
      (∀ (c : ProcId) (p : Proc), s.daemon.procs[c]? = some p → p.status ≠ .alive) →
      s'.daemon.Idle ∧
        ∀ (c : ProcId) (p : Proc), s'.daemon.procs[c]? = some p → p.status ≠ .alive) :
    s'.Walked i := by
  cases hk : s.stopAlls i with
  | none => simp only [Walked, hstop, hk]
  | some k =>
    cases k with
    | killing => simp only [Walked, hstop, hk]
    | walking entries visited failures =>
      rw [walking_iff hk] at h
      rw [walking_iff (hstop.trans hk)]
      refine ⟨fun name e hentry => hregistered name e (h.1 name e hentry), ?_⟩
      intro name e he hentry hmem p' hp' ha
      have he := hregistry name e (h.1 name e hentry) he
      obtain ⟨p, hp, ha⟩ := halive name e he p' hp' ha
      exact h.2 name e he hentry hmem p hp ha
    | returned r =>
      rw [returned_iff hk] at h
      rw [returned_iff (hstop.trans hk)]
      exact hreturned r hk h.1 h.2

/-- The rule for steps of calls of `stop_all`. -/
theorem of_keeps (h : s.Walked i) (hstop : s'.stopAlls i = s.stopAlls i)
    (hev : s.daemon.Evolves none s'.daemon) (hk : s.daemon.Keeps s'.daemon)
    (hstarts : s'.daemon.starts = s.daemon.starts) : s'.Walked i := by
  have hregistry (name : String) (e : Entry) (he : s'.daemon.registry name = some e) :
      s.daemon.registry name = some e := by
    rwa [hk.registry] at he
  have halive {c : ProcId} {p' : Proc} (hp' : s'.daemon.procs[c]? = some p')
      (ha : p'.status = .alive) : ∃ p, s.daemon.procs[c]? = some p ∧ p.status = .alive := by
    obtain ⟨p, hp, hpev⟩ := hev.origin hp'
    exact ⟨p, hp, hpev.alive ha⟩
  refine h.of_old hstop (fun _ _ => Inv.registered_of_evolves hev)
    (fun name e _ => hregistry name e) (fun _ e _ p' hp' ha => halive hp' ha)
    fun r _ hidle hdead => ⟨?_, fun c p' hp' ha => ?_⟩
  · refine hidle.of_evolves hev (hidle.retired_of_keeps hev hregistry hk.handler hk.requests) ?_
    rw [hstarts]
    exact hidle.starts
  · obtain ⟨p, hp, ha⟩ := halive hp' ha
    exact hdead c p hp ha

theorem step_daemon {a : Yapm.Action} {d : State} (h : s.Walked i) (hi : s.Inv)
    (hset : s.settles i (.daemon a)) (hd : Yapm.step a s.daemon = some d) :
    Walked i { s with daemon := d } := by
  have hchange := Yapm.change_of_step hi.1.ok hi.1.pids hd
  refine h.of_old rfl (fun name e => hchange.registered) (fun name e hr he => ?_)
    (fun name e he p' hp' ha => ?_) fun r hk hidle hdead => ⟨?_, fun c p' hp' ha => ?_⟩
  · -- an entry whose launch is complete is not registered again
    rcases hchange.entry he with hold | ⟨-, ⟨p, hp, hphase, -⟩, -⟩
    · exact hold
    · obtain ⟨q, hq, -, -, hcomplete⟩ := hr
      obtain rfl := Option.some_inj.mp (hp.symm.trans hq)
      cases hphase.symm.trans hcomplete
  · obtain ⟨p, hp, -⟩ := hi.1.registry name e he
    obtain ⟨x, q, hq, hpev⟩ := hchange.proc hp
    obtain rfl := Option.some_inj.mp (hp'.symm.trans hq)
    exact ⟨p, hp, hpev.alive ha⟩
  · refine hidle.step hi.1 (fun j hj => ?_) hd
    subst hj
    simpa [settles, keepsStill, hk] using hset
  · obtain ⟨p, hp, hpev⟩ := (hidle.rests hi.1 hd).evolves.origin hp'
    exact hdead c p hp (hpev.alive ha)

/-- The walk ends, at rest. -/
theorem finish (h : s.Walked i) (hi : s.Inv)
    (hk : s.stopAlls i = some (.walking entries visited failures))
    (hrest : s.daemon.AtRest entries)
    (hall : ∀ p ∈ s.daemon.procs, overlooked s.daemon entries visited p.name = false) :
    ∀ (c : ProcId) (p : Proc), s.daemon.procs[c]? = some p → p.status ≠ .alive := by
  intro c p hp ha
  obtain ⟨name, e, he, hentry, rfl⟩ := hrest.registered c p hp ha
  obtain ⟨q, hq, hname, -⟩ := hi.1.registry name e he
  have hseen := hall q (List.mem_of_getElem? hq)
  have hmem : name ∈ visited := by simpa [overlooked, hname, he, hentry] using hseen
  exact ((walking_iff hk).mp h).2 name e he hentry hmem p hp ha

theorem step (h : s.Walked i) (hi : s.Inv) (hset : s.settles i a)
    (hstep : Manager.step a s = some s') : s'.Walked i := by
  have hne {j : ℕ} (hij : i ≠ j) (t : Manager) (k : StopAllCall) :
      (t.setStopAll j k).stopAlls i = t.stopAlls i := Function.update_of_ne hij ..
  have hself (t : Manager) (k : StopAllCall) : (t.setStopAll i k).stopAlls i = some k :=
    Function.update_self ..
  cases change_of_step hstep with
  | daemon hd => exact h.step_daemon hi hset hd
  | @called j hj =>
    by_cases hij : i = j
    · subst hij
      simp only [Walked, hself]
    · exact h.of_keeps (hne hij _ _) (.of_eq rfl rfl) ⟨rfl, rfl, rfl, rfl⟩ rfl
  | @killed j poisoned hj =>
    have hkeeps := State.keeps_killRuntime s.daemon poisoned
    have hev : s.daemon.Evolves none (s.daemon.killRuntime poisoned) := .killRuntime none _ _
    by_cases hij : i = j
    · subst hij
      rw [walking_iff (hself _ _)]
      exact ⟨fun name e he => Inv.registered_of_evolves hev (hi.1.registry name e he), by simp⟩
    · refine h.of_keeps (hne hij _ _) hev hkeeps ?_
      simp only [setStopAll, State.killRuntime]
      split <;> rfl
  | @visited j name entries visited failures failures' e hj he =>
    have hev : s.daemon.Evolves none (s.daemon.sigkill e.task.inner) := .sigkill none _ _
    by_cases hij : i = j
    · subst hij
      rw [walking_iff hj] at h
      rw [walking_iff (hself _ _)]
      refine ⟨fun name' e' he' => Inv.registered_of_evolves hev (h.1 name' e' he'), ?_⟩
      intro name' e' he' hentry hmem p' hp'
      rw [List.mem_append, List.mem_singleton] at hmem
      rcases hmem with hmem | rfl
      · obtain ⟨p, hp, hpev⟩ := hev.origin hp'
        exact fun ha => h.2 name' e' he' hentry hmem p hp (hpev.alive ha)
      · obtain rfl := Option.some_inj.mp (he.symm.trans he')
        obtain ⟨p, hp, -, hpid, -⟩ := hi.1.registry name' e he
        refine State.dead_sigkill hp' ?_
        obtain ⟨q, hq, hpev⟩ := hev.origin hp'
        obtain rfl := Option.some_inj.mp (hp.symm.trans hq)
        exact hpev.pid.trans hpid
    · exact h.of_keeps (hne hij _ _) hev ⟨rfl, rfl, rfl, rfl⟩ rfl
  | @finished j entries visited failures r hj hall =>
    by_cases hij : i = j
    · subst hij
      rw [returned_iff (hself _ _)]
      have hrest := hset.2 rfl entries visited failures hj
      exact ⟨hrest.toIdle, h.finish hi hj hrest hall⟩
    · exact h.of_keeps (hne hij _ _) (.of_eq rfl rfl) ⟨rfl, rfl, rfl, rfl⟩ rfl

end Walked

/-- Once a `stop_all` whose walk ends at rest has returned a success, no process is alive, and none
comes after it. -/
theorem nothing_left_of_reachable {i : ℕ} {s : Manager} {msg : String}
    (h : Reachable (settles i) s) (hreturned : s.stopAlls i = some (.returned (.success msg))) :
    s.NothingLeft i := by
  obtain ⟨hi, hwalked⟩ := h.invariant (I := fun s => s.Inv ∧ s.Walked i)
    ⟨⟨.init, TaskRegistry.indexed_new⟩, trivial⟩ fun s s' a ⟨hi, hw⟩ hset hs =>
      ⟨hi.step hs, hw.step hi hset hs⟩
  obtain ⟨hidle, hdead⟩ := (Walked.returned_iff hreturned).mp hwalked
  refine ⟨hdead, fun a s' hset hstep => ?_⟩
  by_cases ha : ∃ b, a = .daemon b
  · obtain ⟨b, rfl⟩ := ha
    obtain ⟨d, hd, rfl⟩ := Option.map_eq_some_iff.mp hstep
    have hrests := hidle.rests hi.1 hd
    exact ⟨hrests.evolves.length, hrests.registry⟩
  · obtain ⟨hev, hk⟩ := evolves_of_step hstep fun b hb => ha ⟨b, hb⟩
    exact ⟨hev.length, fun name e he => by rwa [hk.registry] at he⟩

def Action.isFinish : Action → Bool
  | .finish _ => true
  | _ => false

/-- A process that would be restarted is killed by `stop_all`, after its monitoring task. -/
theorem stopAll_leaves_nothing : ∃ s : Manager,
    (s.daemon.procs[0]?).map (fun p => (p.status, p.config.restart)) = some (.zombie, .infinite) ∧
    (s.daemon.registry "db").isSome ∧ s.NothingLeft 0 := by
  have hwalk : Reachable (settles 0) _ := Runs.reach_of_checked_from
    (D := fun s a => s.keepsStill 0 a && !a.isFinish) (fun s a h => by
      obtain ⟨hstill, hfinish⟩ := Bool.and_eq_true_iff.mp h
      exact ⟨hstill, fun ha => by simp [ha, Action.isFinish] at hfinish⟩)
    (daemonSteps (startSteps 0 { plainConfig with restart := .infinite } 0 4242 ++
      [.coordinate 0, .monitorOpen 0 none]) ++ [.stopAll 0, .killRuntime 0 false, .visit 0 "db"])
    .init rfl
  have hdone : Reachable (settles 0) _ :=
    .step (a := .finish 0) hwalk ⟨rfl, fun _ entries visited failures hk => ?_⟩ rfl
  · exact ⟨_, rfl, rfl, nothing_left_of_reachable hdone rfl⟩
  · refine ⟨⟨fun j config hj => ?_, fun c p hp => ?_, .inr (.inl ⟨rfl, rfl, fun c p hp => ?_⟩)⟩,
      fun c p hp ha => ?_⟩
    · cases j <;> cases hj
    · cases c <;> cases hp
      rfl
    · cases c <;> cases hp
      rfl
    · cases c <;> cases hp
      cases ha

/-- A start is between its fork and its registration when `stop_all` comes and returns. Its
process lives on and is registered afterwards. -/
theorem start_outlives_stopAll : ∃ s s' : Manager, Reachable (fun _ _ => True) s ∧
    s.stopAlls 0 = some (.returned (.success "All tasks have been terminated")) ∧
    (s.daemon.procs[0]?).map (·.status) = some .alive ∧
    step (.daemon (.insert 0)) s = some s' ∧ (s'.daemon.registry "db").isSome ∧
    ¬s.NothingLeft 0 := by
  refine ⟨_, _, Runs.reach_of_checked (daemonSteps ([.startCall 0 plainConfig, .startCheck 0] ++
    launchSteps (.start 0) 0 4242 ++ [.submitMetrics 0 .accepted]) ++
    [.stopAll 0, .killRuntime 0 false, .finish 0]) rfl, rfl, rfl, rfl, rfl, fun h => ?_⟩
  exact h.1 0 _ rfl rfl

end Manager

end Yapm
