import Yapm.Pending
import Yapm.StepCases

/-!
# Whether a stop is final

Once a stop of a name has returned, the name is not registered again and nothing is forked
for it, as long as no start of it is in progress (`staysStopped_of_reach`), when the stop
leaves the name uncovered : nothing has registered it since the removal, and the restart
handler is not about to (`State.leavesUncovered`).

Without the condition the handler brings the name back (`restart_undoes_stop`).
-/

namespace Yapm

def StartCall.config : StartCall → ProcessConfig
  | .checking config | .forking config => config

/-- A start of the name has not forked yet, or its launch goes on. -/
def State.Starting (s : State) (name : String) : Prop :=
  (∃ i k, s.starts i = some k ∧ k.config.name = name) ∨
  ∃ (c : ProcId) (p : Proc), s.procs[c]? = some p ∧ p.name = name ∧ p.launcher ≠ .handler ∧
    p.phase.inProgress

/-- A start of the name begins. -/
def Action.begins (name : String) : Action → Bool
  | .startCall _ config => config.name = name
  | _ => false

/-- The stop that returns with the step. -/
def State.stopping (s : State) : Action → Option String
  | .stop _ name _ => some name
  | .stopKill i _ => (s.stops i).map (·.name)
  | _ => none

/-- With the step a stop of the name returns, and says that it has stopped it. -/
structure State.Stops (s : State) (name : String) (a : Action) (s' : State) : Prop where
  step : step a s = some s'
  stopping : s.stopping a = some name
  reply : s'.replies = s.replies ++ [.processStopped name]

/-- The stop leaves its name uncovered : the handler is not about to register it, and where
the removal was an earlier step nothing has registered it since. -/
def State.leavesUncovered (s : State) (name : String) : Action → Bool
  | .stopKill _ _ => !s.covers name
  | _ => !s.handler.relaunches name

/-- The name is not registered, and its processes are those of `s`. -/
structure State.StaysStopped (s : State) (name : String) (s' : State) : Prop where
  registry : s'.registry name = none
  procs : ∀ (c : ProcId) (p : Proc), s'.procs[c]? = some p → p.name = name → c < s.procs.length

variable {s s₀ s' : State} {a : Action} {c : ProcId} {p : Proc} {name : String}

/-! ## Uncovered names -/

theorem State.uncovered_iff : s.covers name = false ↔
    s.registry name = none ∧ s.handler.relaunches name = false := by
  rw [covers, Bool.or_eq_false_iff, Option.isSome_eq_false_iff, Option.isNone_iff_eq_none]

theorem State.registry_of_stopKill {i : ℕ} {poisoned : Bool} (h : s.stopKill i poisoned = some s') :
    s'.registry = s.registry := by
  obtain ⟨k, s₁, result, -, rfl, ⟨-, rfl⟩ | ⟨-, rfl⟩⟩ := stopKill_inv h
  · rfl
  · rfl

theorem State.registry_of_stop {i : ℕ} {poisoned : Bool} (h : s.stop i name poisoned = some s') :
    s'.registry name = none := by
  obtain ⟨-, ⟨hname, rfl⟩ | ⟨entry, s₁, -, rfl, -, hkill⟩⟩ := stop_inv h
  · exact hname
  · rw [registry_of_stopKill hkill]
    exact ProcessRegistry.remove_self

/-- A stop that leaves its name uncovered. -/
theorem State.Stops.uncovered (h : s.Stops name a s₀) (hleaves : s.leavesUncovered name a) :
    s₀.covers name = false := by
  have hstep := h.step
  have hstopping := h.stopping
  rw [uncovered_iff]
  cases a with
  | stop i name' poisoned =>
    obtain rfl := Option.some_inj.mp hstopping
    have hhandler := (keeps_of_spares rfl hstep).1
    exact ⟨registry_of_stop hstep, by simpa [leavesUncovered, hhandler] using hleaves⟩
  | stopKill i poisoned =>
    have hhandler := (stopKill_keeps hstep).1
    have huncovered : s.covers name = false := by simpa [leavesUncovered] using hleaves
    rw [uncovered_iff] at huncovered
    rwa [registry_of_stopKill hstep, hhandler]
  | _ => cases hstopping

/-- The name is uncovered, and no start of it is in progress. -/
structure State.Quiet (s : State) (name : String) : Prop where
  uncovered : s.covers name = false
  notStarting : ¬s.Starting name

namespace State.Quiet

theorem registry (h : s.Quiet name) : s.registry name = none :=
  (uncovered_iff.mp h.uncovered).1

theorem relaunches (h : s.Quiet name) : s.handler.relaunches name = false :=
  (uncovered_iff.mp h.uncovered).2

theorem config_ne (h : s.Quiet name) {i : ℕ} {k : StartCall} (hk : s.starts i = some k) :
    k.config.name ≠ name :=
  fun hname => h.notStarting (.inl ⟨i, k, hk, hname⟩)

/-- No launch is under the name. -/
theorem ne_of_inProgress (h : s.Quiet name) (hi : Inv s) (hp : s.procs[c]? = some p)
    (hin : p.phase.inProgress) : p.name ≠ name := by
  intro hname
  by_cases hl : p.launcher = .handler
  · have hrelaunches := h.relaunches
    simp [hi.launching c p hp hl hin, Handler.relaunches, hname] at hrelaunches
  · exact h.notStarting (.inr ⟨c, p, hp, hname, hl, hin⟩)

/-- No fork is for the name. -/
theorem ne_of_forkConfig (h : s.Quiet name) {l : Launcher} {cfg : String × ProcessConfig}
    (hfork : s.forkConfig l = some cfg) : cfg.1 ≠ name := by
  cases l with
  | start i =>
    simp only [forkConfig] at hfork
    split at hfork
    · rename_i config hk
      cases hfork
      exact h.config_ne hk
    · cases hfork
  | handler =>
    have hrelaunches := h.relaunches
    simpa [Inv.handler_of_forkConfig hfork, Handler.relaunches] using hrelaunches

theorem starting_step (h : s.Quiet name) (hi : Inv s) (hbegins : a.begins name = false)
    (hstep : step a s = some s') : ¬s'.Starting name := by
  rintro (⟨j, k', hk', hname⟩ | ⟨c, p', hp', hname, hl, hin⟩)
  · rcases (starts_of_step hstep).origin hk' with
      hold | ⟨config, rfl, rfl⟩ | ⟨config, -, hk, -, rfl⟩
    · exact h.config_ne hold hname
    · have hne : config.name ≠ name := by simpa [Action.begins] using hbegins
      exact hne hname
    · exact h.config_ne hk hname
  · rcases (change_of_step hi.ok hi.pids hstep).origin hp' with ⟨x, p, hp, hev⟩ | hfork
    · have hin' : p.phase.inProgress := by
        by_contra hfin
        rw [hev.finished (by simpa using hfin)] at hin
        exact hfin hin
      exact h.ne_of_inProgress hi hp hin' (hev.name.symm.trans hname)
    · exact h.ne_of_forkConfig hfork hname

/-- The handler gets to a name by removing its entry. -/
theorem relaunches_step (h : s.Quiet name) (hi : Inv s) (hstep : step a s = some s') :
    s'.handler.relaunches name = false := by
  have hrelaunches := h.relaunches
  have hsame (hhandler : s'.handler = s.handler) : s'.handler.relaunches name = false := by
    rwa [hhandler]
  have hafter {l : Launcher} (hhandler : s'.handler = s.handler.afterFailure l) :
      s'.handler.relaunches name = false := by
    cases l with
    | start i => exact hsame hhandler
    | handler =>
      rw [hhandler]
      rfl
  cases change_of_step hi.ok hi.pids hstep with
  | quiet hev hk => exact hsame hk.handler
  | forked hfork _ _ _ _ _ _ _ hhandler =>
    rw [hhandler]
    split
    · simpa [Handler.relaunches] using h.ne_of_forkConfig hfork
    · exact hrelaunches
  | forkFailed _ _ _ _ _ hhandler => exact hafter hhandler
  | leaked _ _ _ _ _ _ _ _ _ hhandler => exact hafter hhandler
  | launchFailed _ _ _ _ _ _ _ _ hhandler => exact hafter hhandler
  | submitted _ _ _ _ _ hk => exact hsame hk.handler
  | inserted _ _ _ _ _ _ _ _ hhandler =>
    rw [hhandler]
    split
    · rfl
    · exact hrelaunches
  | stopRemoved _ _ _ _ hhandler => exact hsame hhandler
  | stopKilled _ _ hhandler => exact hsame hhandler
  | stopped _ _ _ hhandler => exact hsame hhandler
  | exitSeen _ _ _ _ _ _ hhandler => exact hsame hhandler
  | received hidle hr => rfl
  | notFound hh hr => rfl
  | @removed _ r e hh he _ _ _ _ _ hhandler =>
    have hne : r.name ≠ name := by
      intro hname
      rw [hname, h.registry] at he
      cases he
    simp [hhandler, Handler.relaunches, hne]
  | dropped _ _ _ _ _ _ hhandler =>
    rw [hhandler]
    rfl
  | @respawned _ _ r e config hh hev hregistry hrequests hstops hhandler =>
    have hdecide := State.handler_of_decide hh hstep
    have hallowed : e.task.respawn.1 := by
      by_contra hno
      rw [if_neg hno, hhandler] at hdecide
      cases hdecide
    simpa [hh, hhandler, Handler.relaunches, hallowed] using hrelaunches
  | removedAgain hh => rfl

/-- An entry comes from a launch, and none is under the name. -/
theorem registry_step (h : s.Quiet name) (hi : Inv s) (hstep : step a s = some s') :
    s'.registry name = none := by
  cases he : s'.registry name with
  | none => rfl
  | some e =>
    rcases (change_of_step hi.ok hi.pids hstep).entry he with
      he | ⟨-, ⟨p, hp, hphase, hname⟩, -⟩
    · rw [h.registry] at he
      cases he
    · exact absurd hname (h.ne_of_inProgress hi hp (by rw [hphase]; rfl))

theorem step (h : s.Quiet name) (hi : Inv s) (hbegins : a.begins name = false)
    (hstep : Yapm.step a s = some s') : s'.Quiet name where
  uncovered := uncovered_iff.mpr ⟨h.registry_step hi hstep, h.relaunches_step hi hstep⟩
  notStarting := h.starting_step hi hbegins hstep

end State.Quiet

/-! ## After the stop -/

namespace State.StaysStopped

theorem step (h : s₀.StaysStopped name s) (hi : Inv s) (hq : s.Quiet name)
    (hstep : Yapm.step a s = some s') : s₀.StaysStopped name s' where
  registry := hq.registry_step hi hstep
  procs c p' hp' hname := by
    rcases (change_of_step hi.ok hi.pids hstep).origin hp' with ⟨x, p, hp, hev⟩ | hfork
    · exact h.procs c p hp (hev.name.symm.trans hname)
    · exact absurd hname (hq.ne_of_forkConfig hfork)

end State.StaysStopped

/-- A stop that leaves its name uncovered holds until a client starts a process of the name. -/
theorem staysStopped_of_reach (h : Reachable (fun _ _ => True) s) (hstops : s.Stops name a s₀)
    (hstarting : ¬s₀.Starting name) (hleaves : s.leavesUncovered name a)
    (hrun : Runs.Reach step s₀ (fun _ a => a.begins name = false) s') :
    s₀.StaysStopped name s' := by
  have hi₀ := inv_of_reachable (.step h trivial hstops.step)
  have hq₀ : s₀.Quiet name := ⟨hstops.uncovered hleaves, hstarting⟩
  have hstays₀ : s₀.StaysStopped name s₀ :=
    ⟨hq₀.registry, fun c p hp _ => (List.getElem?_eq_some_iff.mp hp).1⟩
  exact (hrun.invariant (I := fun t => Inv t ∧ t.Quiet name ∧ s₀.StaysStopped name t)
    ⟨hi₀, hq₀, hstays₀⟩ fun t t' a ⟨hi, hq, hstays⟩ hbegins hstep =>
      ⟨hi.step hstep, hq.step hi hbegins hstep, hstays.step hi hq hstep⟩).2.2

/-- The monitoring task of a process that has been stopped asks for a restart all the same. -/
theorem stop_holds : ∃ s₀ s' : State, s₀.StaysStopped "db" s' ∧ s'.requests = [⟨"db", 0⟩] := by
  refine ⟨_, _, staysStopped_of_reach (a := .stop 0 "db" false) (Runs.reach_of_checked
    (startSteps 0 { plainConfig with restart := .infinite } 0 4242) rfl) ⟨rfl, rfl, rfl⟩ ?_ rfl
    (Runs.reach_of_checked [.coordinate 0, .monitorOpen 0 none, .monitorExit 0] rfl), rfl⟩
  rintro (⟨j, k, hk, -⟩ | ⟨c, p, hp, -, -, hin⟩)
  · cases j <;> cases hk
  · cases c <;> cases hp
    cases hin

/-- The handler is about to fork when its name is started and stopped by clients. After
that stop it goes on, and the name is back. -/
theorem restart_undoes_stop : ∃ s s₀ s' : State, Reachable (fun _ _ => True) s ∧
    s.Stops "db" (.stop 0 "db" false) s₀ ∧ ¬s₀.Starting "db" ∧
    Runs.Reach step s₀ (fun _ a => a.begins "db" = false) s' ∧
    (s'.registry "db").isSome ∧ ¬s₀.StaysStopped "db" s' := by
  refine ⟨_, _, _, Runs.reach_of_checked (startSteps 0 { plainConfig with restart := .infinite } 0
    4242 ++ exitSteps 0 ++ [.recv, .remove, .decide false] ++ startSteps 1 plainConfig 1 4343) rfl,
    ⟨rfl, rfl, rfl⟩, ?_, Runs.reach_of_checked (launchSteps .handler 2 4444 ++ registerSteps 2) rfl,
    rfl, fun h => ?_⟩
  · rintro (⟨j, k, hk, -⟩ | ⟨c, p, hp, -, -, hin⟩)
    · rcases j with _ | _ | j <;> cases hk
    · rcases c with _ | _ | c <;> cases hp <;> cases hin
  · cases h.registry

end Yapm
