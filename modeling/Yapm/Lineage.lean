import Yapm.Effects
import Yapm.Forests

/-!
# Which process takes the place of which

The configuration of a process does not change after its fork (`configs_of_step`). The restart
handler forks a process in the place of the one whose entry it took out of the registry, with
the configuration `respawn` left in it.

`Lineage` follows this through a run. Every process of the handler has a parent, a process of
the same name that was forked before it, whose launch was complete and whose entry is gone, and
no process is the parent of two (`lineage_of_reachable`). So the budgets that the calls of start
brought bound the number of processes the handler forks, for each name (`handlerForks_le`).
-/

namespace Yapm

variable {C : State → Action → Prop} {s s' : State} {a : Action} {c : ProcId} {p : Proc}

/-! ## Configurations stay -/

namespace State

/-- The configurations of the processes, in the order of their forks. -/
def configs (s : State) : List ProcessConfig :=
  s.procs.map (·.config)

theorem configs_modifyProc {f : Proc → Proc} (hf : ∀ p, (f p).config = p.config) :
    (s.modifyProc c f).configs = s.configs :=
  map_modifyProc hf

theorem configs_sigkill (pid : Pid) : (s.sigkill pid).configs = s.configs :=
  map_sigkill (fun _ _ => rfl) pid

theorem configs_killTasks (pid : Pid) (poisoned : Bool) :
    (s.killTasks pid poisoned).configs = s.configs :=
  map_killTasks (fun _ _ => rfl) pid poisoned

theorem configs_failLaunch (l : Launcher) (msg : String) :
    (s.failLaunch c l msg).configs = s.configs := by
  rw [configs, failLaunch_procs]
  exact configs_modifyProc (s := s) fun _ => rfl

theorem configs_failSubmission (fate : Submission) (e : AsyncError) :
    (s.failSubmission c p fate e).configs = s.configs := by
  rw [failSubmission, configs_failLaunch, configs_killTasks, configs_sigkill]

theorem configs_failWatch (id : TaskId) (e : String) :
    (s.failWatch c id e).configs = s.configs :=
  configs_modifyProc fun _ => rfl

theorem configs_stopKill {i : ℕ} {poisoned : Bool} (h : s.stopKill i poisoned = some s') :
    s'.configs = s.configs := by
  obtain ⟨k, s₁, result, -, rfl, ⟨-, rfl⟩ | ⟨-, rfl⟩⟩ := stopKill_inv h
  · rfl
  · have hkilled := configs_sigkill (s := State.killTasks
      { s with stops := Function.update s.stops i none } k.entry.task.inner false)
      k.entry.task.inner
    rw [configs_killTasks] at hkilled
    exact hkilled

end State

/-- The configurations after a step are those of before, or a fork has added one. -/
theorem configs_of_step (h : step a s = some s') : s'.configs = s.configs ∨
    ∃ os pid m p, a = .fork p.launcher os pid m ∧ s'.procs = s.procs ++ [p] := by
  cases a with
  | startCall i config =>
    obtain ⟨-, rfl⟩ := State.startCall_inv h
    exact .inl rfl
  | startCheck i =>
    obtain ⟨config, -, ⟨-, rfl⟩ | ⟨-, rfl⟩⟩ := State.startCheck_inv h <;> exact .inl rfl
  | fork l os pid m =>
    obtain ⟨name, config, -, -, ⟨ctx, exit, -, -, rfl⟩ | ⟨e, -, -, rfl⟩ | ⟨e, exit, -, -, rfl⟩⟩ :=
      State.fork_inv h
    · cases l <;> exact .inr ⟨os, pid, m, _, rfl, rfl⟩
    · cases l <;> exact .inl rfl
    · cases l <;> exact .inr ⟨os, pid, m, _, rfl, rfl⟩
  | metrics c err =>
    obtain ⟨p, -, -, ⟨-, rfl⟩ | ⟨e, -, rfl⟩⟩ := State.prepare_inv h
    · exact .inl (State.configs_modifyProc fun _ => rfl)
    · exact .inl ((State.configs_failLaunch ..).trans (State.configs_sigkill ..))
  | logger c err =>
    obtain ⟨p, -, -, ⟨-, rfl⟩ | ⟨e, -, rfl⟩⟩ := State.prepare_inv h
    · exact .inl (State.configs_modifyProc fun _ => rfl)
    · exact .inl ((State.configs_failLaunch ..).trans (State.configs_sigkill ..))
  | submitLogging c fate =>
    obtain ⟨p, -, -, rfl⟩ := State.submitLogging_inv h
    exact .inl (State.configs_modifyProc fun _ => rfl)
  | submitProcess c fate =>
    obtain ⟨p, desc, treg, -, -, ⟨id, -, rfl⟩ | ⟨e, -, rfl⟩⟩ := State.submitProcess_inv h
    · exact .inl (State.configs_modifyProc fun _ => rfl)
    · exact .inl (State.configs_failSubmission ..)
  | submitMetrics c fate =>
    obtain ⟨p, desc, treg, -, -, ⟨id, -, rfl⟩ | ⟨e, -, rfl⟩⟩ := State.submitMetrics_inv h
    · exact .inl (State.configs_modifyProc fun _ => rfl)
    · exact .inl (State.configs_failSubmission ..)
  | insert c =>
    obtain ⟨p, s₁, -, -, rfl, ⟨i, -, rfl⟩ | ⟨-, rfl⟩⟩ := State.insert_inv h <;>
      exact .inl (State.configs_modifyProc fun _ => rfl)
  | stopRemove i name =>
    obtain ⟨-, ⟨-, rfl⟩ | ⟨entry, -, rfl⟩⟩ := State.stopRemove_inv h <;> exact .inl rfl
  | stopKill i poisoned => exact .inl (State.configs_stopKill h)
  | stop i name poisoned =>
    obtain ⟨-, ⟨-, rfl⟩ | ⟨entry, s₁, -, rfl, -, hkill⟩⟩ := State.stop_inv h
    · exact .inl rfl
    · have hkilled := State.configs_stopKill hkill
      exact .inl hkilled
  | exit c =>
    obtain ⟨p, -, -, rfl⟩ := State.exit_inv h
    exact .inl (State.configs_modifyProc fun _ => rfl)
  | coordinate c =>
    obtain ⟨p, id, treg, -, -, -, -, rfl⟩ := State.coordinate_inv h
    exact .inl (State.configs_modifyProc fun _ => rfl)
  | monitorOpen c err =>
    obtain ⟨p, id, -, -, ⟨d, -, -, rfl⟩ | ⟨e, -, rfl⟩⟩ := State.monitorOpen_inv h
    · exact .inl (State.configs_modifyProc fun _ => rfl)
    · exact .inl (State.configs_failWatch ..)
  | monitorFail c e =>
    obtain ⟨p, id, d, -, -, rfl⟩ := State.monitorFail_inv h
    exact .inl (State.configs_failWatch ..)
  | monitorLose c poisoned =>
    obtain ⟨p, id, d, q, treg, -, -, -, -, -, rfl⟩ := State.monitorLose_inv h
    have hreaped : (({ s with treg }.modifyProc c ({ · with watch := .ended })).modifyProc d
        ({ · with status := .reaped })).configs = ({ s with treg } : State).configs := by
      rw [State.configs_modifyProc, State.configs_modifyProc] <;> exact fun _ => rfl
    exact .inl hreaped
  | monitorExit c =>
    obtain ⟨p, id, d, q, s₁, -, -, -, -, rfl, hsent⟩ := State.monitorExit_inv h
    have hreaped : ((s.modifyProc c ({ · with watch := .ended })).modifyProc d
        ({ · with status := .reaped })).configs = s.configs := by
      rw [State.configs_modifyProc, State.configs_modifyProc] <;> exact fun _ => rfl
    rcases hsent with ⟨-, rfl⟩ | ⟨-, rfl⟩ <;> exact .inl hreaped
  | recv =>
    obtain ⟨r, requests, -, -, rfl⟩ := State.recv_inv h
    exact .inl rfl
  | remove =>
    obtain ⟨r, -, ⟨-, rfl⟩ | ⟨e, -, rfl⟩⟩ := State.remove_inv h <;> exact .inl rfl
  | decide poisoned =>
    obtain ⟨r, e, -, ⟨-, rfl⟩ | ⟨-, rfl⟩⟩ := State.decide_inv h <;>
      exact .inl (State.configs_killTasks e.task.inner poisoned)
  | removeAgain =>
    obtain ⟨r, -, rfl⟩ := State.removeAgain_inv h
    exact .inl rfl

/-- The process at a place keeps its configuration. -/
theorem config_of_step {p' : Proc} (h : step a s = some s') (hp : s.procs[c]? = some p)
    (hp' : s'.procs[c]? = some p') : p'.config = p.config := by
  have hconfig : s.configs[c]? = some p.config := by simp [State.configs, hp]
  rcases configs_of_step h with hconfigs | ⟨-, -, -, q, -, hprocs⟩
  · rw [← hconfigs] at hconfig
    simpa [State.configs, hp'] using hconfig
  · rw [Inv.append_old hprocs hp, Option.some_inj] at hp'
    rw [hp']

/-! ## Where the handler's work comes from -/

theorem respawn_inner (t : LinuxCurrentTask) : t.respawn.2.inner = t.inner := by
  unfold LinuxCurrentTask.respawn
  split <;> (try split) <;> rfl

/-- How the handler comes to decide on an entry, and to fork. -/
inductive State.Attends (s : State) : Action → State → Prop
  | same {a : Action} {s' : State} (hhandler : s'.handler = s.handler) : Attends s a s'
  | removed {a : Action} {s' : State} {r : RestartRequest} {e : Entry}
      (he : s.registry r.name = some e) (hregistry : s'.registry = s.registry.remove r.name)
      (hhandler : s'.handler = .deciding r e) : Attends s a s'
  | decided {poisoned : Bool} {s' : State} {r : RestartRequest} {e : Entry} {name : String}
      {config : ProcessConfig} (hh : s.handler = .deciding r e)
      (hregistry : s'.registry = s.registry) (hhandler : s'.handler = .forking name config) :
      Attends s (.decide poisoned) s'
  | other {a : Action} {s' : State} (hdeciding : ∀ r e, s'.handler ≠ .deciding r e)
      (hforking : ∀ name config, s'.handler ≠ .forking name config) : Attends s a s'

namespace Change

theorem attends (h : Change s a s') : s.Attends a s' := by
  have hafter {l : Launcher} (hhandler : s'.handler = s.handler.afterFailure l) :
      s.Attends a s' := by
    cases l with
    | start i => exact .same hhandler
    | handler =>
      have hstopped : s'.handler = .stopped := hhandler
      exact .other (by simp [hstopped]) (by simp [hstopped])
  have hlaunch {P : Prop} [Decidable P] {x : Handler} (hd : ∀ r e, x ≠ .deciding r e)
      (hf : ∀ name config, x ≠ .forking name config)
      (hhandler : s'.handler = if P then x else s.handler) : s.Attends a s' := by
    split at hhandler
    · exact .other (by rwa [hhandler]) (by rwa [hhandler])
    · exact .same hhandler
  cases h with
  | quiet hev hk => exact .same hk.handler
  | forked _ _ _ _ _ _ _ _ hhandler => exact hlaunch (by simp) (by simp) hhandler
  | leaked _ _ _ _ _ _ _ _ _ hhandler => exact hafter hhandler
  | forkFailed _ _ _ _ _ hhandler => exact hafter hhandler
  | launchFailed _ _ _ _ _ _ _ _ hhandler => exact hafter hhandler
  | submitted _ _ _ _ _ hk => exact .same hk.handler
  | inserted _ _ _ _ _ _ _ _ hhandler => exact hlaunch (by simp) (by simp) hhandler
  | stopRemoved _ _ _ _ hhandler => exact .same hhandler
  | stopKilled _ _ hhandler => exact .same hhandler
  | stopped _ _ _ hhandler => exact .same hhandler
  | exitSeen _ _ _ _ _ _ hhandler => exact .same hhandler
  | received hidle hr => exact .other (by simp) (by simp)
  | notFound hh hr => exact .other (by simp) (by simp)
  | removed hh he _ _ hregistry _ _ hhandler => exact .removed he hregistry hhandler
  | dropped _ _ _ _ _ _ hhandler => exact .other (by simp [hhandler]) (by simp [hhandler])
  | respawned hh _ hregistry _ _ hhandler => exact .decided hh hregistry hhandler
  | removedAgain hh => exact .other (by simp) (by simp)

end Change

/-- The handler decides on an entry it decided on before, or has just taken out. -/
theorem State.Attends.deciding {r : RestartRequest} {e : Entry} (h : s.Attends a s')
    (hd : s'.handler = .deciding r e) : s.handler = .deciding r e ∨
      s.registry r.name = some e ∧ s'.registry = s.registry.remove r.name := by
  cases h with
  | same hhandler => exact .inl (hhandler.symm.trans hd)
  | removed he hregistry hhandler =>
    obtain ⟨rfl, rfl⟩ := Handler.deciding.inj (hhandler.symm.trans hd)
    exact .inr ⟨he, hregistry⟩
  | decided hh hregistry hhandler => cases hhandler.symm.trans hd
  | other hdeciding hforking => exact absurd hd (hdeciding r e)

/-- The handler is about to fork as it was before, or has just granted a restart. -/
theorem forking_of_step {name : String} {config : ProcessConfig} (hchange : Change s a s')
    (h : step a s = some s') (hf : s'.handler = .forking name config) :
    s.handler = .forking name config ∨ ∃ r e, s.handler = .deciding r e ∧ name = r.name ∧
      e.task.respawn = (true, ⟨config, e.task.inner⟩) ∧ s'.registry = s.registry := by
  cases hchange.attends with
  | same hhandler => exact .inl (hhandler.symm.trans hf)
  | removed he hregistry hhandler => cases hhandler.symm.trans hf
  | @decided _ _ r e _ _ hh hregistry hhandler =>
    have hdecide := State.handler_of_decide hh h
    split at hdecide
    · rename_i hgranted
      obtain ⟨rfl, rfl⟩ := Handler.forking.inj (hf.symm.trans hdecide)
      exact .inr ⟨r, e, hh, rfl, by rw [← hgranted, ← respawn_inner], hregistry⟩
    · cases hdecide.symm.trans hf
  | other hdeciding hforking => exact absurd hf (hforking name config)

/-! ## Parents -/

/-- The process hands a name and a configuration on to the next one. -/
def Proc.HandsOn (q : Proc) (name : String) (config : ProcessConfig) : Prop :=
  q.phase = .registered ∧ q.name = name ∧
    (⟨q.config, q.pid⟩ : LinuxCurrentTask).respawn = (true, ⟨config, q.pid⟩)

namespace State

/-- The entry has the configuration its process was forked with. -/
def Backed (s : State) (e : Entry) : Prop :=
  ∃ p, s.procs[e.proc]? = some p ∧ e.task.config = p.config

/-- The entry of the process has been taken out : the process is launched, no name is registered
for it, and the handler is not deciding on it. -/
structure Spent (s : State) (d : ProcId) : Prop where
  launched : ∃ q, s.procs[d]? = some q ∧ q.phase = .registered
  registry : ∀ name e, s.registry name = some e → e.proc ≠ d
  deciding : ∀ r e, s.handler = .deciding r e → e.proc ≠ d

/-- The process is the handler's. -/
def Restarted (s : State) (c : ProcId) : Prop :=
  ∃ p, s.procs[c]? = some p ∧ p.launcher = .handler

/-- The name and the configuration come from a process whose entry has been taken out. -/
def HandedOn (s : State) (d : ProcId) (name : String) (config : ProcessConfig) : Prop :=
  s.Spent d ∧ ∃ q, s.procs[d]? = some q ∧ q.HandsOn name config

end State

/-- Processes of the handler have the place of their parent, of which each has one. -/
structure Lineage (s : State) (parent : ProcId → ProcId) : Prop where
  entries : ∀ name e, s.registry name = some e → s.Backed e
  deciding : ∀ r e, s.handler = .deciding r e →
    s.Backed e ∧ ∀ name e', s.registry name = some e' → e'.proc ≠ e.proc
  children : ∀ (c : ProcId) (p : Proc), s.procs[c]? = some p → p.launcher = .handler →
    parent c < c ∧ s.HandedOn (parent c) p.name p.config
  inj : Set.InjOn parent {c | s.Restarted c}
  forking : ∀ name config, s.handler = .forking name config →
    ∃ d, s.HandedOn d name config ∧ ∀ c, s.Restarted c → parent c ≠ d

/-! ## What a step keeps -/

namespace State

/-- A process and what it was forked with are kept. -/
theorem kept_of_step (hi : Inv s) (h : step a s = some s') (hp : s.procs[c]? = some p) :
    ∃ p', s'.procs[c]? = some p' ∧ p'.config = p.config ∧ p'.name = p.name ∧ p'.pid = p.pid ∧
      p'.launcher = p.launcher ∧ (p.phase = .registered → p'.phase = .registered) := by
  obtain ⟨x, p', hp', hev⟩ := (change_of_step hi.ok hi.pids h).proc hp
  refine ⟨p', hp', config_of_step h hp hp', hev.name, hev.pid, hev.launcher, fun hphase => ?_⟩
  rw [hev.finished (by rw [hphase]; rfl), hphase]

/-- A process was there, or is the last one, which a launcher has just forked. -/
theorem origin_of_step {p' : Proc} (hi : Inv s) (h : step a s = some s')
    (hp' : s'.procs[c]? = some p') :
    (∃ p, s.procs[c]? = some p ∧ p'.config = p.config ∧ p'.name = p.name ∧
      p'.launcher = p.launcher) ∨
    c = s.procs.length ∧ s.forkConfig p'.launcher = some (p'.name, p'.config) := by
  rcases (change_of_step hi.ok hi.pids h).evolves_or_forks with ⟨x, hev⟩ | ⟨q, hprocs, hfork⟩
  · obtain ⟨p, hp, hevp⟩ := hev.origin hp'
    exact .inl ⟨p, hp, config_of_step h hp hp', hevp.name, hevp.launcher⟩
  · rcases Inv.append_cases hprocs hp' with hp | ⟨hc, rfl⟩
    · exact .inl ⟨p', hp, rfl, rfl, rfl⟩
    · exact .inr ⟨hc, hfork⟩

theorem Backed.step {e : Entry} (hi : Inv s) (h : Yapm.step a s = some s') (hb : s.Backed e) :
    s'.Backed e := by
  obtain ⟨p, hp, hconfig⟩ := hb
  obtain ⟨p', hp', hconfig', -⟩ := kept_of_step hi h hp
  exact ⟨p', hp', hconfig.trans hconfig'.symm⟩

/-- A new entry is made of its process. -/
theorem backed_of_insert {name : String} {e : Entry} (hi : Inv s) (h : s.insert e.proc = some s')
    (hnew : s.registry name ≠ some e) (he : s'.registry name = some e) : s'.Backed e := by
  have hstep : Yapm.step (.insert e.proc) s = some s' := h
  obtain ⟨p, s₁, hp, -, rfl, hcases⟩ := insert_inv h
  have hregistry : s'.registry = s.registry.insert p.name ⟨⟨p.config, p.pid⟩, e.proc⟩ := by
    rcases hcases with ⟨i, -, rfl⟩ | ⟨-, rfl⟩ <;> rfl
  rw [hregistry] at he
  rcases ProcessRegistry.of_insert he with ⟨-, heq⟩ | hold
  · exact Backed.step hi hstep ⟨p, hp, by rw [heq]⟩
  · exact absurd hold hnew

/-- The process of an entry that a step makes is not one that is registered already. -/
theorem proc_ne_of_insert {name : String} {e : Entry} (hchange : Change s a s')
    (hnew : s.registry name ≠ some e) (he : s'.registry name = some e) {d : ProcId} {q : Proc}
    (hq : s.procs[d]? = some q) (hphase : q.phase = .registered) : e.proc ≠ d := by
  obtain hold | ⟨-, ⟨p, hp, hinsert, -⟩, -⟩ := hchange.entry he
  · exact absurd hold hnew
  · rintro rfl
    rw [hp, Option.some_inj] at hq
    subst hq
    rw [hinsert] at hphase
    cases hphase

/-- Entries of a process that has none are never made. -/
theorem registry_of_step (hchange : Change s a s') {d : ProcId}
    (hlaunched : ∃ q, s.procs[d]? = some q ∧ q.phase = .registered)
    (hnone : ∀ name e, s.registry name = some e → e.proc ≠ d) (name : String) (e : Entry)
    (he : s'.registry name = some e) : e.proc ≠ d := by
  obtain ⟨q, hq, hphase⟩ := hlaunched
  by_cases hold : s.registry name = some e
  · exact hnone name e hold
  · exact proc_ne_of_insert hchange hold he hq hphase

theorem Spent.step {d : ProcId} (hi : Inv s) (h : Yapm.step a s = some s') (hs : s.Spent d) :
    s'.Spent d := by
  have hchange := change_of_step hi.ok hi.pids h
  refine ⟨?_, registry_of_step hchange hs.launched hs.registry, fun r e hd => ?_⟩
  · obtain ⟨q, hq, hphase⟩ := hs.launched
    obtain ⟨q', hq', -, -, -, -, hkept⟩ := kept_of_step hi h hq
    exact ⟨q', hq', hkept hphase⟩
  · obtain hold | ⟨he, -⟩ := hchange.attends.deciding hd
    · exact hs.deciding r e hold
    · exact hs.registry r.name e he

theorem HandedOn.step {d : ProcId} {name : String} {config : ProcessConfig} (hi : Inv s)
    (h : Yapm.step a s = some s') (hh : s.HandedOn d name config) :
    s'.HandedOn d name config := by
  obtain ⟨hspent, q, hq, hphase, hname, hrespawn⟩ := hh
  obtain ⟨q', hq', hconfig, hname', hpid, -, hkept⟩ := kept_of_step hi h hq
  refine ⟨hspent.step hi h, q', hq', hkept hphase, hname'.trans hname, ?_⟩
  rw [hconfig, hpid, hrespawn]

end State

namespace Lineage

variable {parent : ProcId → ProcId}

theorem init : Lineage .init parent where
  entries name e he := by simp [State.init] at he
  deciding r e hd := by simp [State.init] at hd
  children c p hp := by simp [State.init] at hp
  inj c hc := by simp [State.Restarted, State.init] at hc
  forking name config hf := by simp [State.init] at hf

variable (hi : Inv s) (hl : Lineage s parent) (h : Yapm.step a s = some s')

include hi hl h

theorem entries_step (name : String) (e : Entry) (he : s'.registry name = some e) :
    s'.Backed e := by
  have hchange := change_of_step hi.ok hi.pids h
  by_cases hold : s.registry name = some e
  · exact (hl.entries name e hold).step hi h
  · obtain hold' | ⟨rfl, -, -⟩ := hchange.entry he
    · exact absurd hold' hold
    · exact State.backed_of_insert hi h hold he

theorem deciding_step (r : RestartRequest) (e : Entry) (hd : s'.handler = .deciding r e) :
    s'.Backed e ∧ ∀ name e', s'.registry name = some e' → e'.proc ≠ e.proc := by
  have hchange := change_of_step hi.ok hi.pids h
  obtain hold | ⟨he, hregistry⟩ := hchange.attends.deciding hd
  · obtain ⟨hbacked, hnone⟩ := hl.deciding r e hold
    obtain ⟨q, hq, -, -, hphase⟩ := hi.deciding r e hold
    exact ⟨hbacked.step hi h, State.registry_of_step hchange ⟨q, hq, hphase⟩ hnone⟩
  · refine ⟨(hl.entries r.name e he).step hi h, fun name e' he' hproc => ?_⟩
    rw [hregistry] at he'
    obtain ⟨q, hq, hname, -⟩ := hi.registry name e' (ProcessRegistry.of_remove he')
    obtain ⟨q', hq', hname', -⟩ := hi.registry r.name e he
    rw [hproc, hq', Option.some_inj] at hq
    -- an entry is under the name of its process, so there is no other for it
    rw [← hname, ← hq, hname', ProcessRegistry.remove_self] at he'
    cases he'

/-- A process of the handler that was there keeps its parent. -/
theorem children_step {p' : Proc} (hp' : s'.procs[c]? = some p') (hlt : c < s.procs.length)
    (hlauncher : p'.launcher = .handler) :
    parent c < c ∧ s'.HandedOn (parent c) p'.name p'.config := by
  obtain ⟨p, hp, hconfig, hname, hlauncher'⟩ | ⟨rfl, -⟩ := State.origin_of_step hi h hp'
  · obtain ⟨hparent, hhanded⟩ := hl.children c p hp (hlauncher'.symm.trans hlauncher)
    rw [hconfig, hname]
    exact ⟨hparent, hhanded.step hi h⟩
  · exact absurd hlt (lt_irrefl _)

/-- The process whose entry the handler took out is the parent of what it is about to fork. -/
theorem forking_step (hnew : ∀ c, s'.Restarted c → s.Restarted c) (name : String)
    (config : ProcessConfig) (hf : s'.handler = .forking name config) :
    ∃ d, s'.HandedOn d name config ∧ ∀ c, s'.Restarted c → parent c ≠ d := by
  have hchange := change_of_step hi.ok hi.pids h
  obtain hold | ⟨r, e, hh, rfl, hrespawn, hregistry⟩ := forking_of_step hchange h hf
  · obtain ⟨d, hhanded, hnone⟩ := hl.forking name config hold
    exact ⟨d, hhanded.step hi h, fun c hc => hnone c (hnew c hc)⟩
  · obtain ⟨⟨q, hq, hconfig⟩, hnone⟩ := hl.deciding r e hh
    obtain ⟨q₁, hq₁, hname, hpid, hphase⟩ := hi.deciding r e hh
    obtain rfl := Option.some_inj.mp (hq.symm.trans hq₁)
    obtain ⟨q', hq', hconfig', hname', hpid', -, hkept⟩ := State.kept_of_step hi h hq
    have hspent : s'.Spent e.proc :=
      { launched := ⟨q', hq', hkept hphase⟩
        registry := fun name e' he' => hnone name e' (by rwa [hregistry] at he')
        deciding := fun r' e' hd => by cases hf.symm.trans hd }
    have htask : (⟨q'.config, q'.pid⟩ : LinuxCurrentTask) = e.task := by
      rw [hconfig', hpid', ← hconfig, hpid]
    refine ⟨e.proc, ⟨hspent, q', hq', hkept hphase, hname'.trans hname, ?_⟩, fun c hc => ?_⟩
    · rw [htask, hrespawn, hpid', hpid]
    · obtain ⟨p, hp, hlauncher⟩ := hnew c hc
      exact fun heq => (hl.children c p hp hlauncher).2.1.deciding r e hh heq.symm

/-- The rule for steps with which the handler has no new process. -/
theorem step_of_same (hnew : ∀ c, s'.Restarted c → s.Restarted c) : Lineage s' parent where
  entries := hl.entries_step hi h
  deciding := hl.deciding_step hi h
  children c p' hp' hlauncher := by
    obtain ⟨p, hp, -⟩ := hnew c ⟨p', hp', hlauncher⟩
    exact hl.children_step hi h hp' (List.getElem?_eq_some_iff.mp hp).1 hlauncher
  inj := hl.inj.mono hnew
  forking := hl.forking_step hi h hnew

omit hi hl in
/-- The handler that has forked is not about to fork. -/
theorem handler_of_fork {os : Os} {pid : Pid} {m : Machine} (ha : a = .fork .handler os pid m)
    (name : String) (config : ProcessConfig) : s'.handler ≠ .forking name config := by
  subst ha
  obtain ⟨_, _, -, -, ⟨ctx, exit, -, -, rfl⟩ | ⟨e, -, -, rfl⟩ | ⟨e, exit, -, -, rfl⟩⟩ :=
    State.fork_inv h <;> exact fun hf => nomatch hf

/-- The rule for a fork of the handler : the new process has the parent that was due. -/
theorem step_of_fork {os : Os} {pid : Pid} {m : Machine} {p : Proc}
    (ha : a = .fork p.launcher os pid m) (hprocs : s'.procs = s.procs ++ [p])
    (hlauncher : p.launcher = .handler) :
    ∃ parent', Lineage s' parent' := by
  have hp : s'.procs[s.procs.length]? = some p := by simp [hprocs]
  obtain ⟨p₀, hp₀, -⟩ | ⟨-, hfork⟩ := State.origin_of_step hi h hp
  · exact absurd (List.getElem?_eq_some_iff.mp hp₀).1 (lt_irrefl _)
  rw [hlauncher] at hfork
  obtain ⟨d, hhanded, hnone⟩ := hl.forking _ _ (Inv.handler_of_forkConfig hfork)
  have hdlt : d < s.procs.length := by
    obtain ⟨-, q, hq, -⟩ := hhanded
    exact (List.getElem?_eq_some_iff.mp hq).1
  have hold {c : ProcId} (hc : s'.Restarted c) (hne : c ≠ s.procs.length) : s.Restarted c := by
    obtain ⟨p', hp', hlauncher'⟩ := hc
    obtain ⟨p₁, hp₁, -, -, heq⟩ | ⟨heq, -⟩ := State.origin_of_step hi h hp'
    · exact ⟨p₁, hp₁, heq.symm.trans hlauncher'⟩
    · exact absurd heq hne
  refine ⟨Function.update parent s.procs.length d, hl.entries_step hi h, hl.deciding_step hi h,
    fun c p' hp' hlauncher' => ?_, ?_, fun name config hf => ?_⟩
  · by_cases hc : c = s.procs.length
    · subst hc
      rw [hp, Option.some_inj] at hp'
      rw [Function.update_self, ← hp']
      exact ⟨hdlt, hhanded.step hi h⟩
    · rw [Function.update_of_ne hc]
      obtain ⟨p₁, hp₁, -⟩ := hold ⟨p', hp', hlauncher'⟩ hc
      exact hl.children_step hi h hp' (List.getElem?_eq_some_iff.mp hp₁).1 hlauncher'
  · intro c hc c' hc' heq
    by_cases hne : c = s.procs.length <;> by_cases hne' : c' = s.procs.length
    · rw [hne, hne']
    · rw [hne, Function.update_self, Function.update_of_ne hne'] at heq
      exact absurd heq.symm (hnone c' (hold hc' hne'))
    · rw [hne', Function.update_self, Function.update_of_ne hne] at heq
      exact absurd heq (hnone c (hold hc hne))
    · rw [Function.update_of_ne hne, Function.update_of_ne hne'] at heq
      exact hl.inj (hold hc hne) (hold hc' hne') heq
  · rw [hlauncher] at ha
    exact absurd hf (handler_of_fork h ha name config)

theorem step : ∃ parent', Lineage s' parent' := by
  rcases configs_of_step h with hconfigs | ⟨os, pid, m, p, ha, hprocs⟩
  · have hlength : s'.procs.length = s.procs.length := by
      simpa [State.configs] using congrArg List.length hconfigs
    refine ⟨parent, hl.step_of_same hi h fun c ⟨p', hp', hlauncher⟩ => ?_⟩
    obtain ⟨p₁, hp₁, -, -, heq⟩ | ⟨rfl, -⟩ := State.origin_of_step hi h hp'
    · exact ⟨p₁, hp₁, heq.symm.trans hlauncher⟩
    · exact absurd (List.getElem?_eq_some_iff.mp hp').1 (by rw [hlength]; exact lt_irrefl _)
  · by_cases hlauncher : p.launcher = .handler
    · exact hl.step_of_fork hi h ha hprocs hlauncher
    · refine ⟨parent, hl.step_of_same hi h fun c ⟨p', hp', hlauncher'⟩ => ?_⟩
      obtain hold | ⟨-, rfl⟩ := Inv.append_cases hprocs hp'
      · exact ⟨p', hold, hlauncher'⟩
      · exact absurd hlauncher' hlauncher

end Lineage

/-- In every run there are parents. -/
theorem exists_lineage (h : Reachable C s) : ∃ parent, Lineage s parent := by
  have hboth := h.invariant (I := fun s => Inv s ∧ ∃ parent, Lineage s parent)
    ⟨.init, id, .init⟩ fun s s' a ⟨hi, parent, hl⟩ _ hstep => ⟨hi.step hstep, hl.step hi hstep⟩
  exact hboth.2

/-! ## The forest of processes -/

namespace State

/-- The places of the processes with a property. -/
def places (s : State) (f : Proc → Bool) : Finset ProcId :=
  (Finset.range s.procs.length).filter fun c => s.procs[c]?.any f

variable {f g : Proc → Bool}

theorem mem_places : c ∈ s.places f ↔ ∃ p, s.procs[c]? = some p ∧ f p := by
  simp only [places, Finset.mem_filter, Finset.mem_range, Option.any_eq_true, and_iff_right_iff_imp]
  rintro ⟨p, hp, -⟩
  exact (List.getElem?_eq_some_iff.mp hp).1

/-- The processes of a name. -/
def named (s : State) (name : String) : Finset ProcId :=
  s.places fun p => p.name = name

/-- The processes of a name that the handler has forked. -/
def restarts (s : State) (name : String) : Finset ProcId :=
  s.places fun p => p.name = name && p.launcher = .handler

end State

open Forests

/-- The processes of a name are a forest, whose roots calls of start have forked. -/
theorem Lineage.isForest {parent : ProcId → ProcId} (hl : Lineage s parent) (name : String) :
    IsForest (s.named name) (s.restarts name) parent := by
  have hchild {c : ProcId} (hc : c ∈ s.restarts name) :
      ∃ p, s.procs[c]? = some p ∧ p.name = name ∧ p.launcher = .handler := by
    obtain ⟨p, hp, hf⟩ := State.mem_places.mp hc
    exact ⟨p, hp, by simpa using hf⟩
  constructor
  · intro c hc
    obtain ⟨p, hp, hname, -⟩ := hchild hc
    exact State.mem_places.mpr ⟨p, hp, by simpa using hname⟩
  · intro c hc
    obtain ⟨p, hp, hname, hlauncher⟩ := hchild hc
    obtain ⟨-, -, q, hq, -, hqname, -⟩ := hl.children c p hp hlauncher
    exact State.mem_places.mpr ⟨q, hq, by simpa using hqname.trans hname⟩
  · intro c hc
    obtain ⟨p, hp, -, hlauncher⟩ := hchild hc
    exact (hl.children c p hp hlauncher).1
  · refine hl.inj.mono fun c hc => ?_
    obtain ⟨p, hp, -, hlauncher⟩ := hchild hc
    exact ⟨p, hp, hlauncher⟩

/-- Every process the handler has forked has a parent of its name, an earlier process whose
launch was complete, whose entry has been taken out and whose budget it has what is left of, and
no process is the parent of two. -/
theorem lineage_of_reachable (h : Reachable C s) :
    ∃ parent, (∀ name, IsForest (s.named name) (s.restarts name) parent) ∧
      ∀ (c : ProcId) (p : Proc), s.procs[c]? = some p → p.launcher = .handler →
        s.Spent (parent c) ∧ ∃ q, s.procs[parent c]? = some q ∧ q.HandsOn p.name p.config := by
  obtain ⟨parent, hl⟩ := exists_lineage h
  exact ⟨parent, hl.isForest, fun c p hp hlauncher => (hl.children c p hp hlauncher).2⟩

/-- A process is started, exits and is restarted. -/
def restartedOnce (config : ProcessConfig) : List Action :=
  startSteps 0 config 0 4242 ++ exitSteps 0 ++ [.recv, .remove, .decide false] ++
    launchSteps .handler 1 4243 ++ registerSteps 1

theorem lineage_of_restarted : ∃ s : State, s.restarts "db" = {1} ∧
    ∃ parent, (∀ name, IsForest (s.named name) (s.restarts name) parent) ∧
      ∀ (c : ProcId) (p : Proc), s.procs[c]? = some p → p.launcher = .handler →
        s.Spent (parent c) ∧ ∃ q, s.procs[parent c]? = some q ∧ q.HandsOn p.name p.config :=
  ⟨_, rfl, lineage_of_reachable (C := fun _ _ => True) (Runs.reach_of_checked
    (restartedOnce { plainConfig with restart := .capped 2 }) rfl)⟩

/-! ## How many processes the handler forks -/

/-- The restarts a policy has left. -/
def RestartPolicy.budget : RestartPolicy → ℕ∞
  | .none => 0
  | .capped n => (n - 1 : ℕ)
  | .infinite => ⊤

/-- The restarts the process at a place has left. -/
def State.budget (s : State) (c : ProcId) : ℕ∞ :=
  (s.procs[c]?).elim 0 (·.config.restart.budget)

/-- A restart is paid for. -/
theorem RestartPolicy.budget_of_respawn {t t' : LinuxCurrentTask} (h : t.respawn = (true, t')) :
    t'.config.restart.budget + 1 ≤ t.config.restart.budget := by
  unfold LinuxCurrentTask.respawn at h
  split at h
  · rename_i n hn
    split at h
    · cases h
    · obtain rfl := (Prod.mk.inj h).2
      rename_i hle
      rw [hn]
      simp only [budget]
      norm_cast
      omega
  · cases h
  · rename_i hinfinite
    rw [hinfinite]
    exact le_top

/-- The handler forks no more processes of a name than the calls of start brought restarts
for it. -/
theorem handlerForks_le (h : Reachable C s) (name : String) :
    ((s.restarts name).card : ℕ∞) ≤ ∑ c ∈ s.named name \ s.restarts name, s.budget c := by
  obtain ⟨parent, hl⟩ := exists_lineage h
  refine (hl.isForest name).card_le fun c hc => ?_
  obtain ⟨p, hp, hf⟩ := State.mem_places.mp hc
  simp only [Bool.and_eq_true, decide_eq_true_eq] at hf
  obtain ⟨-, -, q, hq, -, -, hrespawn⟩ := hl.children c p hp hf.2
  have hpaid := RestartPolicy.budget_of_respawn hrespawn
  simpa [State.budget, hp, hq] using hpaid

/-- A budget of two runs is used up by one restart. -/
theorem handlerForks_restarted : ∃ s : State, (s.restarts "db").card = 1 ∧
    ((s.restarts "db").card : ℕ∞) ≤ ∑ c ∈ s.named "db" \ s.restarts "db", s.budget c ∧
      s.named "db" \ s.restarts "db" = {0} ∧ s.budget 0 = 1 :=
  ⟨_, rfl, handlerForks_le (C := fun _ _ => True) (Runs.reach_of_checked
    (restartedOnce { plainConfig with restart := .capped 2 }) rfl) "db", rfl, rfl⟩

end Yapm
