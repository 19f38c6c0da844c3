import Yapm.Effects

/-!
# Whether a pid is taken for a duplicate

Records of tasks outlive their tasks and the process. A submission of a monitoring or a
metrics task is refused when the pid has a record of that type, so a pid that the kernel
gives out again may have its process refused. A fork is stale (`State.forksStale`) when
it gives a pid with a record other than a logging task's. All along a run no launch meets
such a record exactly when no fork of the run is stale (`unrefused_iff`).
-/

namespace Yapm

/-- The submissions that launches have still to make are not refused as duplicates. -/
def State.Unrefused (s : State) : Prop :=
  ∀ (c : ProcId) (p : Proc), s.procs[c]? = some p →
    (p.phase.unsubmitted → ∀ desc fate,
      (s.treg.submitProcessMonitoringTask p.pid desc fate).1 ≠ .error .inconsistentRuntimeState) ∧
    (p.phase.unsubmitted ∨ p.phase = .submitMetrics → ∀ desc fate,
      (s.treg.submitMetricsTask p.pid desc fate).1 ≠ .error .inconsistentRuntimeState)

/-- A fork gives a process whose pid has a record other than a logging task's. -/
def State.forksStale (s : State) : Action → Bool
  | .fork l os pid m =>
    (s.forkConfig l).any (returnsPid os ·.2 pid m) &&
      (s.treg.getTasksByPid pid).any (·.ty ≠ .logging)
  | _ => false

namespace TaskRegistry

variable {r : TaskRegistry} {pid : Pid} {tty : TaskType}

/-- A submission is refused as a duplicate exactly when the pid has a record of the type. -/
theorem Indexed.refused_iff (h : r.Indexed) :
    (∀ desc fate, (r.submitUnique pid tty desc fate).1 ≠ .error .inconsistentRuntimeState) ↔
      ¬r.Has pid tty := by
  have hany : (r.getTasksByPid pid).any (·.ty = tty) ↔ r.Has pid tty := h.any_ty_iff
  rw [← hany, Bool.not_eq_true]
  constructor
  · intro hsub
    by_contra hhas
    rw [Bool.not_eq_false] at hhas
    exact hsub "" .accepted (by simp [TaskRegistry.submitUnique, hhas])
  · intro hnone desc fate
    cases fate with
    | lockPoisoned msg => simp [TaskRegistry.submitUnique]
    | channelClosed msg => simp [TaskRegistry.submitUnique, hnone, TaskRegistry.submit]
    | accepted => simp [TaskRegistry.submitUnique, hnone, TaskRegistry.submit]

/-- A pid has a record other than a logging task's exactly when it has one of the two
types whose submissions can be refused. -/
theorem Indexed.any_ne_logging_iff (h : r.Indexed) :
    (r.getTasksByPid pid).any (·.ty ≠ .logging) ↔ r.Has pid .process ∨ r.Has pid .metrics := by
  have hprocess : (r.getTasksByPid pid).any (·.ty = .process) ↔ r.Has pid .process :=
    h.any_ty_iff
  have hmetrics : (r.getTasksByPid pid).any (·.ty = .metrics) ↔ r.Has pid .metrics :=
    h.any_ty_iff
  rw [← hprocess, ← hmetrics]
  simp only [List.any_eq_true, decide_eq_true_eq, ← exists_or, ← and_or_left]
  refine exists_congr fun t => and_congr_right fun _ => ?_
  cases t.ty <;> simp

end TaskRegistry

variable {s s' : State} {a : Action} {c d : ProcId} {p p' q : Proc}

/-- What is refused, by the records. -/
theorem State.unrefused_iff_records (hx : s.treg.Indexed) :
    s.Unrefused ↔ ∀ (c : ProcId) (p : Proc), s.procs[c]? = some p →
      (p.phase.unsubmitted → ¬s.treg.Has p.pid .process) ∧
      (p.phase.unsubmitted ∨ p.phase = .submitMetrics → ¬s.treg.Has p.pid .metrics) := by
  refine forall_congr' fun c => forall_congr' fun p => forall_congr' fun _ => ?_
  exact and_congr (imp_congr_right fun _ => hx.refused_iff)
    (imp_congr_right fun _ => hx.refused_iff)

/-- The records of launches that submit their metrics task. -/
structure State.Tracked (s : State) : Prop where
  indexed : s.treg.Indexed
  process : ∀ (c : ProcId) (p : Proc), s.procs[c]? = some p → p.phase = .submitMetrics →
    s.treg.Has p.pid .process
  unique : ∀ (c d : ProcId) (p q : Proc), s.procs[c]? = some p → s.procs[d]? = some q →
    p.phase = .submitMetrics → q.phase = .submitMetrics → p.pid = q.pid → c = d

/-! ## One step -/

/-- Records stay. -/
theorem State.Tracks.has (h : s.Tracks s') {pid : Pid} {tty : TaskType}
    (hhas : s.treg.Has pid tty) : s'.treg.Has pid tty := by
  obtain ⟨id, x, hx, hpid, hty⟩ := hhas
  obtain ⟨x', hx', hpid', hty'⟩ := h.old id x hx
  exact ⟨id, x', hx', hpid'.trans hpid, hty'.trans hty⟩

/-- A record was there, or a launch has just made it. -/
theorem State.Tracks.of_has (h : s.Tracks s') {pid : Pid} {tty : TaskType}
    (hhas : s'.treg.Has pid tty) : s.treg.Has pid tty ∨
      ∃ (d : ProcId) (q q' : Proc), s.procs[d]? = some q ∧ s'.procs[d]? = some q' ∧ q.pid = pid ∧
        q.phase = tty.phase ∧ q'.phase ≠ q.phase := by
  obtain ⟨id, x', hx', rfl, rfl⟩ := hhas
  rcases h.new id x' hx' with ⟨x, hx, hpid, hty, -⟩ | ⟨-, d, q, q', hq, hq', hpid, hphase, hne⟩
  · exact .inl ⟨id, x, hx, hpid.symm, hty.symm⟩
  · exact .inr ⟨d, q, q', hq, hq', hpid.symm, hphase, hne⟩

theorem Phase.unsubmitted_of_next {phase phase' : Phase} (h : phase.next = some phase')
    (hu : phase'.unsubmitted) : phase.unsubmitted ∧ phase ≠ .submitProcess := by
  cases phase <;> simp only [next, Option.some_inj, reduceCtorEq] at h <;> subst h <;>
    simp [Phase.unsubmitted] at hu ⊢

namespace Proc.Moves

theorem unsubmitted (h : p.Moves s a s' c p') (hu : p'.phase.unsubmitted) :
    p.phase.unsubmitted ∧ (p.phase = .submitProcess → p'.phase = p.phase) := by
  rcases h.phase with hphase | ⟨hnext, -⟩ | ⟨-, hfailed⟩
  · exact ⟨by rwa [← hphase], fun _ => hphase⟩
  · obtain ⟨hpu, hne⟩ := Phase.unsubmitted_of_next hnext hu
    exact ⟨hpu, fun hp => absurd hp hne⟩
  · simp [hfailed, Phase.unsubmitted] at hu

theorem submitMetrics (h : p.Moves s a s' c p') (hm : p'.phase = .submitMetrics) :
    p.phase = .submitMetrics ∨ p.phase = .submitProcess ∧ s'.treg.Has p.pid .process := by
  rcases h.phase with hphase | ⟨hnext, hrecord⟩ | ⟨-, hfailed⟩
  · exact .inl (hphase.symm.trans hm)
  · rw [hm] at hnext
    have hp : p.phase = .submitProcess := by
      cases hp : p.phase <;> simp [hp, Phase.next] at hnext ⊢
    obtain ⟨id, -, hid⟩ := hrecord hp
    exact .inr ⟨hp, id, _, hid, rfl, rfl⟩
  · rw [hm] at hfailed
    cases hfailed

end Proc.Moves

/-- A launch that has not submitted its monitoring task has its pid to itself. -/
theorem Inv.eq_of_unsubmitted (hi : Inv s) (hp : s.procs[c]? = some p) (hq : s.procs[d]? = some q)
    (hpu : p.phase.unsubmitted) (hqu : q.phase.unsubmitted) (hpid : p.pid = q.pid) : c = d := by
  have hunreaped {c : ProcId} {p : Proc} (hp : s.procs[c]? = some p) (hu : p.phase.unsubmitted) :
      p.status ≠ .reaped := by
    intro hr
    have hok := hi.ok c p hp
    have hended := hok.reaped hr
    rw [hok.unsubmitted hu] at hended
    cases hended
  exact hi.pids hp hq (hunreaped hp hpu) (hunreaped hq hqu) hpid

theorem State.Tracked.init : Tracked .init where
  indexed := TaskRegistry.indexed_new
  process c p hp := by simp [State.init] at hp
  unique c d p q hp := by simp [State.init] at hp

theorem State.Tracked.step (hi : Inv s) (ht : s.Tracked) (hun : s.Unrefused)
    (h : step a s = some s') : s'.Tracked := by
  have heff := effect_of_step hi.ok ht.indexed h
  rw [State.unrefused_iff_records ht.indexed] at hun
  have horigin : ∀ (c : ProcId) (p' : Proc), s'.procs[c]? = some p' → p'.phase = .submitMetrics →
      ∃ p, s.procs[c]? = some p ∧ p.Moves s a s' c p' := by
    intro c p' hp' hm
    rcases heff.procs c p' hp' with hmoves | ⟨_, _, _, -, -, -, -, hmetrics | ⟨hleaked, -⟩⟩
    · exact hmoves
    · simp [hm] at hmetrics
    · simp [hm] at hleaked
  refine ⟨heff.records.indexed, fun c p' hp' hm => ?_, fun c d p' q' hp' hq' hpm hqm hpid => ?_⟩
  · obtain ⟨p, hp, hmoves⟩ := horigin c p' hp' hm
    rw [hmoves.pid]
    rcases hmoves.submitMetrics hm with hpm | ⟨-, hhas⟩
    · exact heff.records.has (ht.process c p hp hpm)
    · exact hhas
  · obtain ⟨p, hp, hpmoves⟩ := horigin c p' hp' hpm
    obtain ⟨q, hq, hqmoves⟩ := horigin d q' hq' hqm
    rw [hpmoves.pid, hqmoves.pid] at hpid
    have huns {p : Proc} (hp : p.phase = .submitProcess) : p.phase.unsubmitted := by
      rw [hp]
      rfl
    rcases hpmoves.submitMetrics hpm with hpm | ⟨hps, -⟩ <;>
      rcases hqmoves.submitMetrics hqm with hqm | ⟨hqs, -⟩
    · exact ht.unique c d p q hp hq hpm hqm hpid
    · exact absurd (hpid ▸ ht.process c p hp hpm) ((hun d q hq).1 (huns hqs))
    · exact absurd (hpid ▸ ht.process d q hq hqm) ((hun c p hp).1 (huns hps))
    · exact hi.eq_of_unsubmitted hp hq (huns hps) (huns hqs) hpid

/-- A fork keeps pids unrefused exactly when it is not stale. -/
theorem State.Unrefused.fork_iff (hx : s.treg.Indexed) (hun : s.Unrefused) {l : Launcher} {os : Os}
    {pid : Pid} {m : Machine} (h : s.fork l os pid m = some s') :
    s'.Unrefused ↔ s.forksStale (.fork l os pid m) = false := by
  obtain ⟨name, config, hconfig, -, htreg, hfork⟩ := State.fork_cases h
  rw [State.unrefused_iff_records hx] at hun
  rw [State.unrefused_iff_records (by rwa [htreg]), htreg, State.forksStale, hconfig,
    Option.any_some, ← Bool.not_eq_true, Bool.and_eq_true, hx.any_ne_logging_iff]
  rcases hfork with ⟨hreturns, hprocs⟩ | ⟨hreturns, hprocs | ⟨-, hprocs⟩⟩
  · simp only [hreturns, true_and, not_or]
    constructor
    · intro hun'
      have hnew := hun' s.procs.length _ (by rw [hprocs, List.getElem?_concat_length])
      exact ⟨hnew.1 rfl, hnew.2 (.inl rfl)⟩
    · intro hnone c p' hp'
      rcases Inv.append_cases hprocs hp' with hp' | ⟨-, rfl⟩
      · exact hun c p' hp'
      · exact ⟨fun _ => hnone.1, fun _ => hnone.2⟩
  · simpa [hprocs, hreturns] using hun
  · refine iff_of_true (fun c p' hp' => ?_) (by simp [hreturns])
    rcases Inv.append_cases hprocs hp' with hp' | ⟨-, rfl⟩
    · exact hun c p' hp'
    · exact ⟨fun hu => by simp [Phase.unsubmitted] at hu,
        fun hu => by simp [Phase.unsubmitted] at hu⟩

/-- The submissions of a launch are refused after a step exactly when the step forks it so. -/
theorem State.Unrefused.step_iff (hi : Inv s) (ht : s.Tracked) (hun : s.Unrefused)
    (h : step a s = some s') : s'.Unrefused ↔ s.forksStale a = false := by
  by_cases hfork : ∃ l os pid m, a = .fork l os pid m
  · obtain ⟨l, os, pid, m, rfl⟩ := hfork
    exact hun.fork_iff ht.indexed h
  have hfresh : s.forksStale a = false := by
    unfold State.forksStale
    split
    · exact absurd ⟨_, _, _, _, rfl⟩ hfork
    · rfl
  have heff := effect_of_step hi.ok ht.indexed h
  refine iff_of_true ?_ hfresh
  rw [State.unrefused_iff_records ht.indexed] at hun
  rw [State.unrefused_iff_records heff.records.indexed]
  intro c p' hp'
  rcases heff.procs c p' hp' with ⟨p, hp, hmoves⟩ | ⟨l, os, m, ha, -⟩
  · rw [hmoves.pid]
    obtain ⟨hprocess, hmetrics⟩ := hun c p hp
    refine ⟨fun hu hhas => ?_, fun hu hhas => ?_⟩
    · obtain ⟨hpu, hsame⟩ := hmoves.unsubmitted hu
      rcases heff.records.of_has hhas with hhas | ⟨d, q, q', hq, hq', hpid, hphase, hne⟩
      · exact hprocess hpu hhas
      · obtain rfl := hi.eq_of_unsubmitted hp hq hpu (by rw [hphase]; rfl) hpid.symm
        obtain rfl := Option.some_inj.mp (hp.symm.trans hq)
        obtain rfl := Option.some_inj.mp (hp'.symm.trans hq')
        exact hne (hsame hphase)
    · have hp_cases : p.phase.unsubmitted ∨ p.phase = .submitMetrics ∧ p'.phase = p.phase := by
        rcases hu with hu | hm
        · exact .inl (hmoves.unsubmitted hu).1
        · rcases hmoves.submitMetrics hm with hpm | ⟨hps, -⟩
          · exact .inr ⟨hpm, hm.trans hpm.symm⟩
          · exact .inl (by rw [hps]; rfl)
      rcases heff.records.of_has hhas with hhas | ⟨d, q, q', hq, hq', hpid, hphase, hne⟩
      · exact hmetrics (hp_cases.imp_right And.left) hhas
      · have hprocess' := ht.process d q hq hphase
        rw [hpid] at hprocess'
        rcases hp_cases with hpu | ⟨hpm, hsame⟩
        · exact hprocess hpu hprocess'
        · obtain rfl := ht.unique c d p q hp hq hpm hphase hpid.symm
          obtain rfl := Option.some_inj.mp (hp.symm.trans hq)
          obtain rfl := Option.some_inj.mp (hp'.symm.trans hq')
          exact hne hsame
  · exact absurd ⟨l, os, p'.pid, m, ha⟩ hfork

/-- All along a run no launch has a submission refused as a duplicate exactly when no fork of the
run is stale. -/
theorem unrefused_iff (as : List Action) : Runs.AllStates step State.Unrefused as .init ↔
    Runs.AllSteps step (fun s a => s.forksStale a = false) as .init := by
  refine Runs.allStates_iff (I := fun s => Inv s ∧ s.Tracked)
    (fun s s' a ⟨hi, ht⟩ hun h _ => ⟨hi.step h, ht.step hi hun h⟩)
    (fun s s' a ⟨hi, ht⟩ hun h => hun.step_iff hi ht h) ⟨.init, .init⟩ fun c p hp => ?_
  simp [State.init] at hp

/-- A process exits, is reaped and is not restarted. The kernel gives its pid to the next
process, which is killed because its monitoring task is refused. -/
theorem recycled_pid_refused : ∃ s s' : State, Reachable (fun _ _ => True) s ∧
    (s.procs[0]?).map (fun p => (p.pid, p.status)) = some (4242, .reaped) ∧
    (s.procs[1]?).map (fun p => (p.pid, p.phase)) = some (4242, .submitProcess) ∧
    ¬s.Unrefused ∧ step (.submitProcess 1 .accepted) s = some s' ∧
    (s'.procs[1]?).map (fun p => (p.status, p.phase)) = some (.zombie, .failed) := by
  refine ⟨_, _, Runs.reach_of_checked (startSteps 0 plainConfig 0 4242 ++ exitSteps 0 ++
    [.recv, .remove, .decide false, .removeAgain, .startCall 1 plainConfig, .startCheck 1,
      .fork (.start 1) plainOs 4242 plainMachine, .metrics 1 none, .logger 1 none,
      .submitLogging 1 .accepted]) rfl, rfl, rfl, fun h => ?_, rfl, rfl⟩
  exact (h 1 _ rfl).1 rfl "" .accepted rfl

end Yapm
