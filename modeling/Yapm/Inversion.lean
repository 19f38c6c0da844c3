import Yapm.Daemon

/-!
# What each step of the daemon needs, and what it leaves

One lemma for each step function : what holds of the state before it, and the state after
it. The lemmas of later modules on what steps do start from these.
-/

namespace Yapm

/-- What is there after an update has just been put there, or was there before. -/
theorem eq_or_of_update {α : Type} {f : ℕ → Option α} {i j : ℕ} {v : Option α} {k : α}
    (h : Function.update f j v i = some k) : i = j ∧ v = some k ∨ f i = some k := by
  by_cases hij : i = j
  · rw [hij, Function.update_self] at h
    exact .inl ⟨hij, h⟩
  · rw [Function.update_of_ne hij] at h
    exact .inr h

namespace State

variable {s s' : State} {c : ProcId}

/-! ## Starting -/

theorem startCall_inv {i : ℕ} {config : ProcessConfig} (h : s.startCall i config = some s') :
    s.starts i = none ∧
      s' = { s with starts := Function.update s.starts i (some (.checking config)) } := by
  unfold startCall at h
  split at h
  · rename_i hi
    exact ⟨hi, (Option.some_inj.mp h).symm⟩
  · cases h

theorem startCheck_inv {i : ℕ} (h : s.startCheck i = some s') :
    ∃ config, s.starts i = some (.checking config) ∧
      ((s.registry config.name).isSome ∧
        s' = { s with starts := Function.update s.starts i none }.reply
          (.error ("A process tagged with name: " ++ config.name ++ " exists")) ∨
      s.registry config.name = none ∧
        s' = { s with starts := Function.update s.starts i (some (.forking config)) }) := by
  unfold startCheck at h
  split at h
  · rename_i config hi
    refine ⟨config, hi, ?_⟩
    split at h
    · rename_i hname
      exact .inl ⟨hname, (Option.some_inj.mp h).symm⟩
    · rename_i hname
      exact .inr ⟨by simpa using hname, (Option.some_inj.mp h).symm⟩
  · cases h

theorem fork_inv {l : Launcher} {os : Os} {pid : Pid} {m : Machine}
    (h : s.fork l os pid m = some s') :
    ∃ name config, s.forkConfig l = some (name, config) ∧ s.pidTaken pid = false ∧
      ((∃ ctx exit,
        (createChildExecContextFromConfig os config pid m).parent = .returned (.ok ctx) ∧
        (createChildExecContextFromConfig os config pid m).child = some exit ∧
        s' = (s.forkDone l name s.procs.length).addProc
          ⟨pid, name, config, .alive, l, .metrics, .none⟩) ∨
      (∃ e, (createChildExecContextFromConfig os config pid m).parent = .returned (.error e) ∧
        (createChildExecContextFromConfig os config pid m).child = none ∧
        s' = s.forkFailed l e) ∨
      ∃ e exit, (createChildExecContextFromConfig os config pid m).parent = .returned (.error e) ∧
        (createChildExecContextFromConfig os config pid m).child = some exit ∧
        s' = (s.forkFailed l e).addProc
          ⟨pid, name, config, .alive, l, .leaked, .none⟩) := by
  unfold fork at h
  split at h
  · cases h
  · rename_i name config hconfig
    split at h
    · cases h
    · rename_i hfree
      refine ⟨name, config, hconfig, by simpa using hfree, ?_⟩
      simp only at h
      split at h
      · rename_i ctx exit hparent hchild
        exact .inl ⟨ctx, exit, hparent, hchild, (Option.some_inj.mp h).symm⟩
      · rename_i e hparent hchild
        exact .inr (.inl ⟨e, hparent, hchild, (Option.some_inj.mp h).symm⟩)
      · rename_i e exit hparent hchild
        exact .inr (.inr ⟨e, exit, hparent, hchild, (Option.some_inj.mp h).symm⟩)
      · cases h

theorem prepare_inv {phase next : Phase} {failure : String} {err : Option String}
    (h : s.prepare c phase next failure err = some s') :
    ∃ p, s.procs[c]? = some p ∧ p.phase = phase ∧
      (err = none ∧ s' = s.modifyProc c ({ · with phase := next }) ∨
      ∃ e, err = some e ∧ s' = (s.sigkill p.pid).failLaunch c p.launcher (failure ++ e)) := by
  unfold prepare at h
  split at h
  · cases h
  · rename_i p hp
    obtain ⟨hphase, h⟩ := Option.ite_none_right_eq_some.mp h
    refine ⟨p, hp, hphase, ?_⟩
    cases err with
    | none => exact .inl ⟨rfl, (Option.some_inj.mp h).symm⟩
    | some e => exact .inr ⟨e, rfl, (Option.some_inj.mp h).symm⟩

theorem submitLogging_inv {fate : Submission} (h : s.submitLogging c fate = some s') :
    ∃ p, s.procs[c]? = some p ∧ p.phase = .submitLogging ∧
      s' = { s with
          treg := (s.treg.submitLoggingTask p.pid "Registering Log task" fate).2 }.modifyProc c
        ({ · with phase := .submitProcess }) := by
  unfold submitLogging at h
  split at h
  · cases h
  · rename_i p hp
    obtain ⟨hphase, h⟩ := Option.ite_none_right_eq_some.mp h
    exact ⟨p, hp, hphase, (Option.some_inj.mp h).symm⟩

theorem submitProcess_inv {fate : Submission} (h : s.submitProcess c fate = some s') :
    ∃ p desc treg, s.procs[c]? = some p ∧ p.phase = .submitProcess ∧
      ((∃ id, s.treg.submitUnique p.pid .process desc fate = (.ok id, treg) ∧
        s' = { s with treg }.modifyProc c
          ({ · with phase := .submitMetrics, watch := .queued id })) ∨
      ∃ e, s.treg.submitUnique p.pid .process desc fate = (.error e, treg) ∧
        s' = { s with treg }.failSubmission c p fate e) := by
  unfold submitProcess at h
  split at h
  · cases h
  · rename_i p hp
    obtain ⟨hphase, h⟩ := Option.ite_none_right_eq_some.mp h
    split at h
    · rename_i id treg hresult
      exact ⟨p, _, treg, hp, hphase, .inl ⟨id, hresult, (Option.some_inj.mp h).symm⟩⟩
    · rename_i e treg hresult
      exact ⟨p, _, treg, hp, hphase, .inr ⟨e, hresult, (Option.some_inj.mp h).symm⟩⟩

theorem submitMetrics_inv {fate : Submission} (h : s.submitMetrics c fate = some s') :
    ∃ p desc treg, s.procs[c]? = some p ∧ p.phase = .submitMetrics ∧
      ((∃ id, s.treg.submitUnique p.pid .metrics desc fate = (.ok id, treg) ∧
        s' = { s with treg }.modifyProc c ({ · with phase := .insert })) ∨
      ∃ e, s.treg.submitUnique p.pid .metrics desc fate = (.error e, treg) ∧
        s' = { s with treg }.failSubmission c p fate e) := by
  unfold submitMetrics at h
  split at h
  · cases h
  · rename_i p hp
    obtain ⟨hphase, h⟩ := Option.ite_none_right_eq_some.mp h
    split at h
    · rename_i id treg hresult
      exact ⟨p, _, treg, hp, hphase, .inl ⟨id, hresult, (Option.some_inj.mp h).symm⟩⟩
    · rename_i e treg hresult
      exact ⟨p, _, treg, hp, hphase, .inr ⟨e, hresult, (Option.some_inj.mp h).symm⟩⟩

theorem insert_inv (h : s.insert c = some s') :
    ∃ p s₁, s.procs[c]? = some p ∧ p.phase = .insert ∧
      s₁ = { s with registry := s.registry.insert p.name ⟨⟨p.config, p.pid⟩, c⟩ }.modifyProc c
        ({ · with phase := .registered }) ∧
      ((∃ i, p.launcher = .start i ∧ s' = s₁.reply (.processStarted p.name p.pid)) ∨
      p.launcher = .handler ∧ s' = { s₁ with handler := .idle }) := by
  unfold insert at h
  split at h
  · cases h
  · rename_i p hp
    obtain ⟨hphase, h⟩ := Option.ite_none_right_eq_some.mp h
    refine ⟨p, _, hp, hphase, rfl, ?_⟩
    simp only at h
    split at h
    · rename_i i hl
      exact .inl ⟨i, hl, (Option.some_inj.mp h).symm⟩
    · rename_i hl
      exact .inr ⟨hl, (Option.some_inj.mp h).symm⟩

/-! ## Stopping -/

theorem stopRemove_inv {i : ℕ} {name : String} (h : s.stopRemove i name = some s') :
    s.stops i = none ∧
      (s.registry name = none ∧ s' = s.reply
        (.error ("The specified process: " ++ name ++ " is not managed by YAPM")) ∨
      ∃ entry, s.registry name = some entry ∧ s' = { s with
        registry := s.registry.remove name
        stops := Function.update s.stops i (some ⟨name, entry⟩) }) := by
  unfold stopRemove at h
  split at h
  · cases h
  · rename_i hi
    refine ⟨hi, ?_⟩
    split at h
    · rename_i hname
      exact .inl ⟨hname, (Option.some_inj.mp h).symm⟩
    · rename_i entry hname
      exact .inr ⟨entry, hname, (Option.some_inj.mp h).symm⟩

/-- A stop forgets the process it holds, and kills it unless a lock is poisoned. -/
theorem stopKill_inv {i : ℕ} {poisoned : Bool} (h : s.stopKill i poisoned = some s') :
    ∃ k s₁ result, s.stops i = some k ∧
      s₁ = { s with stops := Function.update s.stops i none } ∧
      (poisoned = true ∧ s' = s₁.reply result ∨
      poisoned = false ∧ s' = ((s₁.killTasks k.entry.task.inner false).sigkill
        k.entry.task.inner).reply result) := by
  unfold stopKill at h
  split at h
  · cases h
  · rename_i name entry hi
    simp only at h
    split at h
    · rename_i hpoisoned
      exact ⟨_, _, _, hi, rfl, .inl ⟨hpoisoned, (Option.some_inj.mp h).symm⟩⟩
    · rename_i hpoisoned
      obtain rfl : poisoned = false := by simpa using hpoisoned
      exact ⟨_, _, _, hi, rfl, .inr ⟨rfl, (Option.some_inj.mp h).symm⟩⟩

/-- A stop finds no process, or removes one and kills it. -/
theorem stop_inv {i : ℕ} {name : String} {poisoned : Bool}
    (h : s.stop i name poisoned = some s') :
    s.stops i = none ∧
      (s.registry name = none ∧ s' = s.reply
        (.error ("The specified process: " ++ name ++ " is not managed by YAPM")) ∨
      ∃ entry s₁, s.registry name = some entry ∧
        s₁ = { s with
          registry := s.registry.remove name
          stops := Function.update s.stops i (some ⟨name, entry⟩) } ∧
        s₁.stops i = some ⟨name, entry⟩ ∧ s₁.stopKill i poisoned = some s') := by
  unfold stop at h
  split at h
  · cases h
  · rename_i s₁ hs₁
    obtain ⟨hi, ⟨hname, rfl⟩ | ⟨entry, hname, rfl⟩⟩ := stopRemove_inv hs₁
    · rw [if_neg (by simp [reply, hi])] at h
      exact ⟨hi, .inl ⟨hname, (Option.some_inj.mp h).symm⟩⟩
    · have hheld : (Function.update s.stops i (some ⟨name, entry⟩)) i = some ⟨name, entry⟩ :=
        Function.update_self ..
      rw [if_pos (by simp)] at h
      exact ⟨hi, .inr ⟨entry, _, hname, rfl, hheld, h⟩⟩

/-! ## Exits -/

theorem exit_inv (h : s.exit c = some s') :
    ∃ p, s.procs[c]? = some p ∧ p.status = .alive ∧
      s' = s.modifyProc c ({ · with status := .zombie }) := by
  unfold exit at h
  split at h
  · cases h
  · rename_i p hp
    obtain ⟨halive, h⟩ := Option.ite_none_right_eq_some.mp h
    exact ⟨p, hp, halive, (Option.some_inj.mp h).symm⟩

/-- The coordinator takes the smallest id there is in its channel. -/
theorem coordinate_inv (h : s.coordinate c = some s') :
    ∃ p id treg, s.procs[c]? = some p ∧ p.watch = .queued id ∧
      (∀ q ∈ s.procs, ∀ id', q.watch = .queued id' → id ≤ id') ∧
      (s.treg.addHandle id id = .ok treg ∨ treg = s.treg) ∧
      s' = { s with treg }.modifyProc c ({ · with watch := .opening id }) := by
  unfold coordinate at h
  split at h
  · cases h
  · rename_i p hp
    split at h
    · rename_i id hw
      obtain ⟨hfirst, h⟩ := Option.ite_none_right_eq_some.mp h
      refine ⟨p, id, _, hp, hw, fun q hq id' hq' => ?_, ?_, (Option.some_inj.mp h).symm⟩
      · have hle := List.all_eq_true.mp hfirst q hq
        simpa only [hq', decide_eq_true_eq] using hle
      · split
        · exact .inl ‹_›
        · exact .inr rfl
    · cases h

theorem monitorOpen_inv {err : Option String} (h : s.monitorOpen c err = some s') :
    ∃ p id, s.procs[c]? = some p ∧ p.watch = .opening id ∧
      ((∃ d, err = none ∧ s.findPid p.pid = some d ∧
        s' = s.modifyProc c ({ · with watch := .watching id d })) ∨
      ∃ e, (err = none → s.findPid p.pid = none) ∧ s' = s.failWatch c id e) := by
  unfold monitorOpen at h
  split at h
  · cases h
  · rename_i p hp
    split at h
    · rename_i id hw
      refine ⟨p, id, hp, hw, ?_⟩
      split at h
      · rename_i d hd
        exact .inl ⟨d, rfl, hd, (Option.some_inj.mp h).symm⟩
      · rename_i hnone
        exact .inr ⟨_, fun _ => hnone, (Option.some_inj.mp h).symm⟩
      · exact .inr ⟨_, (fun herr => by cases herr), (Option.some_inj.mp h).symm⟩
    · cases h

theorem monitorFail_inv {e : String} (h : s.monitorFail c e = some s') :
    ∃ p id d, s.procs[c]? = some p ∧ p.watch = .watching id d ∧ s' = s.failWatch c id e := by
  unfold monitorFail at h
  split at h
  · cases h
  · rename_i p hp
    split at h
    · rename_i id d hw
      exact ⟨p, id, d, hp, hw, (Option.some_inj.mp h).symm⟩
    · cases h

/-- A monitoring task reaps the process it waits on, and fails or panics. -/
theorem monitorLose_inv {poisoned : Bool} (h : s.monitorLose c poisoned = some s') :
    ∃ p id d q treg, s.procs[c]? = some p ∧ p.watch = .watching id d ∧ s.procs[d]? = some q ∧
      q.status = .zombie ∧
      (treg = s.treg ∨
        treg = (s.failWatch c id (LinuxErrorManager.ofErrno einval).display).treg) ∧
      s' = ({ s with treg }.modifyProc c ({ · with watch := .ended })).modifyProc d
        ({ · with status := .reaped }) := by
  unfold monitorLose at h
  split at h
  · cases h
  · rename_i p hp
    split at h
    · rename_i id d hw
      split at h
      · cases h
      · rename_i q hq
        obtain ⟨hzombie, h⟩ := Option.ite_none_right_eq_some.mp h
        obtain rfl := Option.some.inj h
        cases poisoned with
        | true => exact ⟨p, id, d, q, _, hp, hw, hq, hzombie, .inl rfl, rfl⟩
        | false => exact ⟨p, id, d, q, _, hp, hw, hq, hzombie, .inr rfl, rfl⟩
    · cases h

/-- A monitoring task reaps the process it waits on. -/
theorem monitorExit_inv (h : s.monitorExit c = some s') :
    ∃ p id d q s₁, s.procs[c]? = some p ∧ p.watch = .watching id d ∧ s.procs[d]? = some q ∧
      q.status = .zombie ∧
      s₁ = (s.modifyProc c ({ · with watch := .ended })).modifyProc d
        ({ · with status := .reaped }) ∧
      (s.handler.receives ∧ s' = { s₁ with requests := s.requests ++ [⟨p.name, c⟩] } ∨
      s.handler.receives = false ∧ s' = s₁) := by
  unfold monitorExit at h
  split at h
  · cases h
  · rename_i p hp
    split at h
    · rename_i id d hw
      split at h
      · cases h
      · rename_i q hq
        obtain ⟨hzombie, h⟩ := Option.ite_none_right_eq_some.mp h
        refine ⟨p, id, d, q, _, hp, hw, hq, hzombie, rfl, ?_⟩
        simp only at h
        split at h
        · rename_i hreceives
          exact .inl ⟨hreceives, (Option.some_inj.mp h).symm⟩
        · rename_i hreceives
          exact .inr ⟨Bool.eq_false_of_not_eq_true hreceives, (Option.some_inj.mp h).symm⟩
    · cases h

/-! ## The restart handler -/

theorem recv_inv (h : s.recv = some s') :
    ∃ r requests, s.handler = .idle ∧ s.requests = r :: requests ∧
      s' = { s with handler := .removing r, requests } := by
  unfold recv at h
  split at h
  · exact ⟨_, _, ‹_›, ‹_›, (Option.some_inj.mp h).symm⟩
  · cases h

theorem remove_inv (h : s.remove = some s') :
    ∃ r, s.handler = .removing r ∧
      (s.registry r.name = none ∧ s' = { s with handler := .panicked } ∨
      ∃ e, s.registry r.name = some e ∧
        s' = { s with registry := s.registry.remove r.name, handler := .deciding r e }) := by
  unfold remove at h
  split at h
  · rename_i r hh
    refine ⟨r, hh, ?_⟩
    split at h
    · rename_i hname
      exact .inl ⟨hname, (Option.some_inj.mp h).symm⟩
    · rename_i e hname
      exact .inr ⟨e, hname, (Option.some_inj.mp h).symm⟩
  · cases h

/-- The handler forks what its policy lets it restart. -/
theorem decide_inv {poisoned : Bool} (h : s.decide poisoned = some s') :
    ∃ r e, s.handler = .deciding r e ∧
      (e.task.respawn.1 = false ∧
        s' = { s.killTasks e.task.inner poisoned with handler := .removingAgain r } ∨
      e.task.respawn.1 = true ∧
        s' = { s.killTasks e.task.inner poisoned with
          handler := .forking r.name e.task.respawn.2.config }) := by
  unfold decide at h
  split at h
  · rename_i r e hh
    refine ⟨r, e, hh, ?_⟩
    simp only at h
    split at h
    · rename_i hrespawn
      exact .inl ⟨by rw [hrespawn], (Option.some_inj.mp h).symm⟩
    · rename_i details hrespawn
      rw [hrespawn]
      exact .inr ⟨rfl, (Option.some_inj.mp h).symm⟩
  · cases h

theorem removeAgain_inv (h : s.removeAgain = some s') :
    ∃ r, s.handler = .removingAgain r ∧
      s' = { s with registry := s.registry.remove r.name, handler := .idle } := by
  unfold removeAgain at h
  split at h
  · exact ⟨_, ‹_›, (Option.some_inj.mp h).symm⟩
  · cases h

end State

end Yapm
