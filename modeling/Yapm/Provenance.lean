import Yapm.ClientView
import Yapm.Lineage

/-!
# Where configurations come from

A configuration enters the daemon with a call of start. Processes started with it hand it on,
and what every later process and every entry of the name has is what restarts left of it
(`provenance_of_reachable`), however calls and restarts come between each other. So what holds of
every configuration submitted, and is kept by `respawn`, holds all along : that the client can
be shown it is such a property (`displayable_of_entry`).
-/

namespace Yapm

variable {s s' : State} {a : Action} {c : ProcId} {P : ProcessConfig → Prop}

/-! ## What is submitted -/

/-- A configuration that the step submits has the property. -/
def Action.Submits (P : ProcessConfig → Prop) : Action → Prop
  | .startCall _ config => P config
  | _ => True

instance (P : ProcessConfig → Prop) [DecidablePred P] (a : Action) : Decidable (a.Submits P) := by
  cases a with
  | startCall i config => exact inferInstanceAs (Decidable (P config))
  | _ => exact isTrue trivial

/-- The configuration is what restarts left of one with the property, submitted under the
name. -/
def ProcessConfig.DescendsFrom (P : ProcessConfig → Prop) (name : String)
    (config : ProcessConfig) : Prop :=
  ∃ first k, P first ∧ first.name = name ∧
    ∀ pid, config = ((⟨first, pid⟩ : LinuxCurrentTask).respawned k).config

/-- The configurations of calls of start, and of the processes they forked, have the
property. -/
structure Sourced (P : ProcessConfig → Prop) (s : State) : Prop where
  checking : ∀ i config, s.starts i = some (.checking config) → P config
  forking : ∀ i config, s.starts i = some (.forking config) → P config
  started : ∀ (c : ProcId) (p : Proc), s.procs[c]? = some p → p.launcher ≠ .handler →
    P p.config ∧ p.config.name = p.name

namespace Sourced

theorem init : Sourced P .init where
  checking i config hi := by simp [State.init] at hi
  forking i config hi := by simp [State.init] at hi
  started c p hp := by simp [State.init] at hp

theorem step (hi : Inv s) (hs : Sourced P s) (hsubmits : a.Submits P)
    (h : Yapm.step a s = some s') : Sourced P s' where
  checking i config hk := by
    obtain hold | ⟨config', rfl, heq⟩ | ⟨config', -, -, -, heq⟩ := (starts_of_step h).origin hk
    · exact hs.checking i config hold
    · cases heq
      exact hsubmits
    · cases heq
  forking i config hk := by
    obtain hold | ⟨config', -, heq⟩ | ⟨config', -, hchecking, -, heq⟩ :=
      (starts_of_step h).origin hk
    · exact hs.forking i config hold
    · cases heq
    · cases heq
      exact hs.checking i config hchecking
  started c p' hp' hlauncher := by
    obtain ⟨p, hp, hconfig, hname, hlauncher'⟩ | ⟨-, hfork⟩ := State.origin_of_step hi h hp'
    · rw [hconfig, hname]
      exact hs.started c p hp (by rwa [← hlauncher'])
    · cases hl : p'.launcher with
      | handler => exact absurd hl hlauncher
      | start i =>
        rw [hl] at hfork
        simp only [State.forkConfig] at hfork
        split at hfork
        · rename_i config hforking
          obtain ⟨hname, hconfig⟩ := Prod.mk.inj (Option.some_inj.mp hfork)
          rw [← hconfig, ← hname]
          exact ⟨hs.forking i config hforking, rfl⟩
        · cases hfork

end Sourced

theorem sourced_of_reachable (h : Reachable (fun _ a => a.Submits P) s) : Sourced P s := by
  have hboth := h.invariant (I := fun s => Inv s ∧ Sourced P s) ⟨.init, .init⟩
    fun s s' a ⟨hi, hs⟩ hsubmits hstep => ⟨hi.step hstep, hs.step hi hsubmits hstep⟩
  exact hboth.2

/-- `respawn` looks at nothing of the process but its configuration. -/
theorem respawn_config {config : ProcessConfig} (pid pid' : Pid) :
    (⟨config, pid⟩ : LinuxCurrentTask).respawn.2.config =
      (⟨config, pid'⟩ : LinuxCurrentTask).respawn.2.config := by
  cases h : config.restart with
  | none => simp [LinuxCurrentTask.respawn, h]
  | infinite => simp [LinuxCurrentTask.respawn, h]
  | capped n =>
    simp only [LinuxCurrentTask.respawn, h]
    split <;> rfl

theorem ProcessConfig.DescendsFrom.of_handsOn {q : Proc} {name : String} {config : ProcessConfig}
    (h : q.config.DescendsFrom P q.name) (hq : q.HandsOn name config) :
    config.DescendsFrom P name := by
  obtain ⟨first, k, hfirst, hname, hconfig⟩ := h
  obtain ⟨-, rfl, hrespawn⟩ := hq
  refine ⟨first, k + 1, hfirst, hname, fun pid => ?_⟩
  rw [LinuxCurrentTask.respawned, Function.iterate_succ_apply']
  have hlast := congrArg (·.2.config) hrespawn
  simp only at hlast
  rw [← hlast, respawn_config q.pid ((⟨first, pid⟩ : LinuxCurrentTask).respawned k).inner,
    hconfig pid]
  rfl

/-! ## Processes and entries -/

theorem descends_of_proc (h : Reachable (fun _ a => a.Submits P) s) {c : ProcId} {p : Proc}
    (hp : s.procs[c]? = some p) : p.config.DescendsFrom P p.name := by
  obtain ⟨parent, hl⟩ := exists_lineage h
  have hall := (hl.isForest p.name).induction
    (P := fun c => ∀ p, s.procs[c]? = some p → p.config.DescendsFrom P p.name)
    (fun c hc hroot p hp => ?_) fun c hc hq p hp => ?_
  · exact hall c (State.mem_places.mpr ⟨p, hp, by simp⟩) p hp
  · have hstarted := (sourced_of_reachable h).started c p hp ?_
    · exact ⟨p.config, 0, hstarted.1, hstarted.2, fun _ => rfl⟩
    · rintro hlauncher
      obtain ⟨p', hp', hname⟩ := State.mem_places.mp hc
      obtain rfl := Option.some_inj.mp (hp.symm.trans hp')
      exact hroot (State.mem_places.mpr ⟨p, hp, by simpa [hlauncher] using hname⟩)
  · obtain ⟨p', hp', hf⟩ := State.mem_places.mp hc
    obtain rfl := Option.some_inj.mp (hp.symm.trans hp')
    simp only [Bool.and_eq_true, decide_eq_true_eq] at hf
    obtain ⟨-, -, q, hq', hhanded⟩ := hl.children c p hp hf.2
    exact (hq q hq').of_handsOn hhanded

theorem descends_of_entry (h : Reachable (fun _ a => a.Submits P) s) {name : String} {e : Entry}
    (he : s.registry name = some e) : e.task.config.DescendsFrom P name := by
  obtain ⟨parent, hl⟩ := exists_lineage h
  obtain ⟨p, hp, hname, -⟩ := (inv_of_reachable h).registry name e he
  obtain ⟨p', hp', hconfig⟩ := hl.entries name e he
  obtain rfl := Option.some_inj.mp (hp.symm.trans hp')
  rw [hconfig, ← hname]
  exact descends_of_proc h hp

/-- Every process has what restarts left of a configuration that was submitted under its
name, and so has every entry. -/
theorem provenance_of_reachable (h : Reachable (fun _ a => a.Submits P) s) :
    (∀ p ∈ s.procs, p.config.DescendsFrom P p.name) ∧
      ∀ name e, s.registry name = some e → e.task.config.DescendsFrom P name := by
  refine ⟨fun p hp => ?_, fun name e he => descends_of_entry h he⟩
  obtain ⟨c, hc⟩ := List.getElem?_of_mem hp
  exact descends_of_proc h hc

/-- Entries of a run that submits one configuration. -/
theorem provenance_restarted : let config := { plainConfig with restart := .capped 3 }
    ∃ s : State, (∀ p ∈ s.procs, p.config.DescendsFrom (· = config) p.name) ∧
      (∀ name e, s.registry name = some e → e.task.config.DescendsFrom (· = config) name) ∧
      (s.registry "db").map (·.task.config) = some { config with restart := .capped 2 } := by
  intro config
  have hrun : Reachable (fun _ a => a.Submits (· = config)) _ :=
    Runs.reach_of_checked (restartedOnce config) rfl
  exact ⟨_, (provenance_of_reachable hrun).1, (provenance_of_reachable hrun).2, rfl⟩

/-- What the daemon holds of a registered process can be shown to a client. -/
theorem displayable_of_entry (h : Reachable (fun _ a => a.Submits ProcessConfig.Submitted) s)
    {name : String} {e : Entry} (he : s.registry name = some e) :
    e.task.config.Displayable := by
  obtain ⟨first, k, hfirst, -, hconfig⟩ := descends_of_entry h he
  rw [hconfig e.task.inner]
  exact displayable_respawned hfirst.displayable k

end Yapm
