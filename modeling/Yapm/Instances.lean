import Yapm.Occupancy

/-!
# Which process a request is about, and which process a name has

Two properties of runs in which a start submits only under a vacant name. The restart
handler acts for a request on nothing but the process whose exit it reports
(`actsOnOwn_of_reachable`). No two live processes are registered under one name, and a
live process is in its launch or in the registry (`oneLive_of_reachable`). The second
needs also that nothing else lets a live process go : a parent that fails after its fork
(`Os.losesChild`), and a stop that removes an entry and does not kill.

Without the condition both fail : `stale_request_removes_live`, `concurrent_starts_overwrite`.
-/

namespace Yapm

variable {s s' : State} {a : Action} {c : ProcId} {name : String}

theorem solo_of_reachable (h : Reachable (fun s a => s.submitsVacant a) s) : Solo s :=
  (h.invariant (I := fun s => Inv s ∧ Solo s) ⟨.init, .init⟩ fun _ _ _ hi hc hs =>
    ⟨hi.1.step hs, hi.2.step hi.1 hc hs⟩).2

/-! ## A request and its process -/

/-- The entry is that of the process whose exit is requested about. -/
def State.IsOf (s : State) (e : Entry) (r : RestartRequest) : Prop :=
  e.proc = r.proc ∧ ∃ p, s.procs[r.proc]? = some p ∧ p.name = r.name ∧ p.pid = e.task.inner

/-- The restart handler, at a request, acts on the process whose exit it reports : both
its removals, the tasks it kills and the entry it writes over. -/
structure State.ActsOnOwn (s : State) : Prop where
  removes : ∀ r e, s.handler = .removing r → s.registry r.name = some e → s.IsOf e r
  kills : ∀ r e, s.handler = .deciding r e → ∀ t ∈ s.treg.getTasksByPid e.task.inner,
    ∃ p, s.procs[r.proc]? = some p ∧ t.pid = p.pid
  removesAgain : ∀ r e, s.handler = .removingAgain r → s.registry r.name = some e → s.IsOf e r
  replaces : ∀ (c : ProcId) (p : Proc), s.procs[c]? = some p → p.launcher = .handler →
    p.phase = .insert → ∀ e q, s.registry p.name = some e → s.procs[e.proc]? = some q →
      q.status ≠ .alive

/-- In a run in which a start submits only under a vacant name, the restart handler acts for a
request on nothing but the process whose exit it reports. -/
theorem actsOnOwn_of_reachable (h : Reachable (fun s a => s.submitsVacant a) s) :
    s.ActsOnOwn := by
  have hi := inv_of_reachable h
  have hs := solo_of_reachable h
  exact
    { removes := fun r e hh he => by
        have hmem : r ∈ s.received := List.mem_append_left _ (by rw [hh]; exact .head _)
        have hown := hs.unique _ _ _ (.entry he) (.request hmem rfl)
        obtain ⟨p, hp, hname, hpid, -⟩ := hi.registry _ e he
        exact ⟨hown, p, by rw [← hown, hp], hname, hpid⟩
      kills := fun r e hh t ht => by
        obtain ⟨p, hp, -, hpid, -⟩ := hi.deciding r e hh
        exact ⟨p, by rw [← hs.own r e hh, hp], by rw [hi.treg.pid_of_mem ht, hpid]⟩
      removesAgain := fun r e hh he => by
        rw [hs.cleared r (by rw [hh]; rfl)] at he
        cases he
      replaces := fun c p hp _ hphase e q he => by
        rw [hs.registry_of_insert hi hp hphase] at he
        cases he }

/-- A process is started and exits, and the handler takes up the request. -/
theorem served_actsOnOwn : ∃ s : State, s.ActsOnOwn ∧ s.handler = .removing ⟨"db", 0⟩ ∧
    (s.registry "db").isSome :=
  ⟨_, actsOnOwn_of_reachable (Runs.reach_of_checked
    (startSteps 0 plainConfig 0 4242 ++ exitSteps 0 ++ [.recv]) rfl), rfl, rfl⟩

/-- A process exits, and before the request is served its name is stopped and started
again. The handler removes the live process. -/
theorem stale_request_removes_live : ∃ s : State, Reachable (fun _ _ => True) s ∧
    s.handler = .removing ⟨"db", 0⟩ ∧ (s.registry "db").map (·.proc) = some 1 ∧
    (s.procs[1]?).map (·.status) = some .alive ∧ ¬s.ActsOnOwn := by
  refine ⟨_, Runs.reach_of_checked (startSteps 0 plainConfig 0 4242 ++ exitSteps 0 ++
    [.stop 0 "db" false] ++ startSteps 1 plainConfig 1 4243 ++ [.recv]) rfl, rfl, rfl, rfl,
    fun h => ?_⟩
  cases (h.removes _ _ rfl rfl).1

/-! ## Live processes and their names -/

/-- The entry under the name is that of a live process. -/
def State.holdsLive (s : State) (name : String) : Bool :=
  match s.registry name with
  | none => false
  | some e => (s.procs[e.proc]?).any (·.status = .alive)

/-- A step lets no live process go : a start submits under a vacant name, a parent that
has forked returns its child, and a stop kills what it removes. -/
def State.keepsLive (s : State) (a : Action) : Bool :=
  s.submitsVacant a &&
    match a with
    | .fork _ os _ _ => !os.losesChild
    | .stopRemove _ name => !s.holdsLive name
    | .stop _ name poisoned => !(poisoned && s.holdsLive name)
    | _ => true

/-- A live process is in its launch, or recorded under its name. -/
def State.Managed (s : State) : Prop :=
  ∀ (c : ProcId) (p : Proc), s.procs[c]? = some p → p.status = .alive →
    p.phase.inProgress ∨ ∃ e, s.registry p.name = some e ∧ e.proc = c

/-- One live process a name, and none unmanaged. -/
structure State.OneLive (s : State) : Prop where
  unique : ∀ (c d : ProcId) (p q : Proc), s.procs[c]? = some p → s.procs[d]? = some q →
    p.status = .alive → q.status = .alive → p.phase = .registered → q.phase = .registered →
    p.name = q.name → c = d
  managed : s.Managed
  replaces : ∀ (c : ProcId) (p : Proc), s.procs[c]? = some p → p.phase = .insert →
    ∀ e q, s.registry p.name = some e → s.procs[e.proc]? = some q → q.status ≠ .alive

namespace State.Managed

/-- The rule for steps after which the processes are those of before : an entry stays
unless its process is dead. -/
theorem of_evolves {x : Option ProcId} (hm : s.Managed) (hev : s.Evolves x s') (hok : s'.Ok)
    (hentry : ∀ name e, s.registry name = some e → s'.registry name = some e ∨
      ∀ p', s'.procs[e.proc]? = some p' → p'.status ≠ .alive)
    (hnew : ∀ c p', x = some c → s'.procs[c]? = some p' → p'.phase = .registered →
      ∃ e, s'.registry p'.name = some e ∧ e.proc = c) : s'.Managed := by
  intro c p' hp' halive
  obtain ⟨p, hp, hevp⟩ := hev.origin hp'
  rcases hm c p hp (hevp.alive halive) with hin | ⟨e, he, rfl⟩
  · -- a launch that has ended since has registered its process, which is alive
    cases hphase : p'.phase with
    | registered =>
      rcases hevp.registered hphase with hreg | hx
      · rw [hreg] at hin
        cases hin
      · exact .inr (hnew c p' hx hp' hphase)
    | failed => exact absurd halive ((hok c p' hp').failed hphase)
    | leaked =>
      rw [hevp.leaked hphase] at hin
      cases hin
    | _ => exact .inl rfl
  · rcases hentry _ e he with he | hdead
    · exact .inr ⟨e, by rwa [hevp.name], rfl⟩
    · exact absurd halive (hdead p' hp')

/-- The case of a step that registers nothing and removes nothing. -/
theorem of_registry_eq (hm : s.Managed) (hev : s.Evolves none s') (hok : s'.Ok)
    (hregistry : s'.registry = s.registry) : s'.Managed :=
  hm.of_evolves hev hok (fun name e he => .inl (by rwa [hregistry])) (by simp)

/-- The case of a step that removes the entry of a dead process. -/
theorem of_removed (hm : s.Managed) (hev : s.Evolves none s') (hok : s'.Ok)
    (hregistry : s'.registry = s.registry.remove name)
    (hdead : ∀ e, s.registry name = some e →
      ∀ p', s'.procs[e.proc]? = some p' → p'.status ≠ .alive) : s'.Managed := by
  refine hm.of_evolves hev hok (fun name' e he => ?_) (by simp)
  by_cases hname : name' = name
  · subst hname
    exact .inr (hdead e he)
  · left
    rwa [hregistry, ProcessRegistry.remove_of_ne hname]

theorem dead_of_holdsLive (h : s.holdsLive name = false) {e : Entry}
    (he : s.registry name = some e) {p : Proc} (hp : s.procs[e.proc]? = some p) :
    p.status ≠ .alive := by
  simpa [State.holdsLive, he, hp] using h

/-- Every step that lets no live process go keeps live processes managed. -/
theorem step (hi : Inv s) (hs : Solo s) (hm : s.Managed) (hkeeps : s.keepsLive a)
    (h : Yapm.step a s = some s') : s'.Managed := by
  have hok := (hi.step h).ok
  have hchange := change_of_step hi.ok hi.pids h
  simp only [State.keepsLive, Bool.and_eq_true] at hkeeps
  obtain ⟨-, hkeeps⟩ := hkeeps
  cases hchange with
  | quiet hev hk => exact hm.of_registry_eq hev hok hk.registry
  | @forked l _ _ _ p hfork hfree hp hprocs htreg hregistry hrequests hstops hhandler =>
    intro c q hq halive
    rcases Inv.append_cases hprocs hq with hq | ⟨rfl, rfl⟩
    · rw [hregistry]
      exact hm c q hq halive
    · exact .inl (by rw [hp]; rfl)
  | @leaked l os m _ p hfork hfree hp hspawned hprocs htreg hregistry hrequests hstops hhandler =>
    obtain ⟨e, exit, hparent, hchild⟩ := hspawned
    have hloses := losesChild_of_error os p.config p.pid m hparent hchild
    simp [hloses] at hkeeps
  | forkFailed hprocs htreg hregistry hrequests hstops hhandler hfork =>
    exact hm.of_registry_eq (.of_eq hprocs htreg) hok hregistry
  | launchFailed hev hp hin hp' hfailed hregistry hrequests hstops hhandler =>
    exact hm.of_registry_eq hev hok hregistry
  | submitted hev hp hphase hp' hphase' hk =>
    refine hm.of_evolves hev hok (fun name e he => .inl (by rwa [hk.registry]))
      fun d q hx hq hreg => ?_
    obtain rfl := Option.some_inj.mp hx
    rw [hp', Option.some_inj] at hq
    subst hq
    cases hphase'.symm.trans hreg
  | @inserted _ c p p' hev hp hphase hp' hphase' hregistry hrequests hstops hhandler =>
    refine hm.of_evolves hev hok (fun name e he => .inl ?_) fun d q hx hq hreg => ?_
    · have hne : name ≠ p.name := by
        rintro rfl
        rw [hs.registry_of_insert hi hp hphase] at he
        cases he
      rwa [hregistry, ProcessRegistry.insert_of_ne hne]
    · obtain rfl := Option.some_inj.mp hx
      obtain ⟨q', hq', hevq⟩ := hev.procs _ p hp
      rw [hq, Option.some_inj] at hq'
      subst hq'
      exact ⟨_, by rw [hregistry, hevq.name, ProcessRegistry.insert_self], rfl⟩
  | stopRemoved he hprocs htreg hregistry hhandler hrequests hstops =>
    refine hm.of_removed (.of_eq hprocs htreg) hok hregistry
      fun e he p' hp' => dead_of_holdsLive (by simpa using hkeeps) he ?_
    rwa [hprocs] at hp'
  | stopKilled hev hregistry hhandler hrequests hstops =>
    exact hm.of_registry_eq hev hok hregistry
  | @stopped _ i name poisoned e he hev hregistry hhandler hrequests hstops hdead =>
    refine hm.of_removed hev hok hregistry fun e' he' p' hp' => ?_
    obtain rfl := Option.some_inj.mp (he.symm.trans he')
    obtain ⟨p, hp, -, hpid, -⟩ := hi.registry _ e he
    obtain ⟨q, hq, hevp⟩ := hev.origin hp'
    rw [hp, Option.some_inj] at hq
    subst hq
    cases poisoned with
    | false => exact hdead rfl _ p' hp' (hevp.pid.trans hpid)
    | true =>
      have hstatus := dead_of_holdsLive (by simpa using hkeeps) he hp
      exact fun halive => hstatus (hevp.alive halive)
  | exitSeen hev hp hlive hp' hreaped hregistry hhandler hreceives hrequests hstops =>
    exact hm.of_registry_eq hev hok hregistry
  | received hidle hr => exact hm
  | notFound hh hr => exact hm
  | @removed _ r e hh he hprocs htreg hregistry hrequests hstops hhandler =>
    have hmem : r ∈ s.received := List.mem_append_left _ (by rw [hh]; exact .head _)
    refine hm.of_removed (.of_eq hprocs htreg) hok hregistry
      fun e' he' p' hp' => ?_
    obtain ⟨p, hp, -, hstatus⟩ := hi.received r hmem
    rw [hprocs, hs.unique _ _ _ (.entry he') (.request hmem rfl), hp, Option.some_inj] at hp'
    subst hp'
    simp [hstatus]
  | dropped hh hdrop hev hregistry hrequests hstops hhandler =>
    exact hm.of_registry_eq hev hok hregistry
  | respawned hh hev hregistry hrequests hstops hhandler =>
    exact hm.of_registry_eq hev hok hregistry
  | @removedAgain r hh =>
    refine hm.of_removed (.of_eq rfl rfl) hok (show _ = s.registry.remove r.name from rfl)
      fun e he => ?_
    rw [hs.cleared r (by rw [hh]; rfl)] at he
    cases he

end State.Managed

/-- In a run whose steps let no live process go, no name has two live processes, and each that is
alive is in its launch or in the registry. -/
theorem oneLive_of_reachable (h : Reachable (fun s a => s.keepsLive a) s) : s.OneLive := by
  have hvacant : ∀ (s : State) (a : Action), s.keepsLive a → s.submitsVacant a :=
    fun _ _ hk => (Bool.and_eq_true_iff.mp hk).1
  have hi := inv_of_reachable h
  have hs := solo_of_reachable (h.mono hvacant)
  have hm : s.Managed := (h.invariant (I := fun s => Inv s ∧ Solo s ∧ s.Managed)
    ⟨.init, .init, fun c p hp => by simp [State.init] at hp⟩ fun s s' a ⟨hi, hs, hm⟩ hk hstep =>
      ⟨hi.step hstep, hs.step hi (hvacant s a hk) hstep, hm.step hi hs hk hstep⟩).2.2
  exact
    { unique := fun c d p q hp hq hpa hqa hpr hqr hname => by
        rcases hm c p hp hpa with hin | ⟨e, he, rfl⟩
        · rw [hpr] at hin
          cases hin
        · rcases hm d q hq hqa with hin | ⟨e', he', rfl⟩
          · rw [hqr] at hin
            cases hin
          · rw [hname, he', Option.some_inj] at he
            rw [he]
      managed := hm
      replaces := fun c p hp hphase e q he => by
        rw [hs.registry_of_insert hi hp hphase] at he
        cases he }

/-- A process is started, exits, is restarted and runs on. -/
theorem restarted_oneLive : ∃ s : State, s.OneLive ∧
    (s.procs[1]?).map (·.status) = some .alive ∧ (s.registry "db").map (·.proc) = some 1 :=
  ⟨_, oneLive_of_reachable (Runs.reach_of_checked
    (startSteps 0 { plainConfig with restart := .infinite } 0 4242 ++ exitSteps 0 ++
      [.recv, .remove, .decide false] ++ launchSteps .handler 1 4243 ++ registerSteps 1) rfl),
    rfl, rfl⟩

/-- Two starts of one name check the registry before either registers. The second entry
replaces the first, whose process lives on unmanaged. -/
theorem concurrent_starts_overwrite : ∃ s : State, Reachable (fun _ _ => True) s ∧
    (s.procs[0]?).map (·.status) = some .alive ∧ (s.procs[1]?).map (·.status) = some .alive ∧
    (s.registry "db").map (·.proc) = some 1 ∧ ¬s.OneLive := by
  refine ⟨_, Runs.reach_of_checked ([.startCall 0 plainConfig, .startCheck 0,
    .startCall 1 plainConfig, .startCheck 1] ++ launchSteps (.start 0) 0 4242 ++
    launchSteps (.start 1) 1 4243 ++ registerSteps 0 ++ registerSteps 1) rfl, rfl, rfl, rfl,
    fun h => ?_⟩
  cases h.unique 0 1 _ _ rfl rfl rfl rfl rfl rfl rfl

end Yapm
