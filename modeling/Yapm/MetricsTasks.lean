import Yapm.RunInvariant

/-!
# The tasks that collect metrics

A launch submits the metrics task of its process before it registers the process. The
coordinator spawns the task, and the task looks its process up by name, again and again.
When it finds no entry it ends for good, with its record failed.

`MetricsRuntime` is the daemon with these tasks and their coordinator. When no task looks
for its process before the process is registered, while nothing else has the name
(`MetricsRuntime.looksInTime`), no registered process is without its metrics for want of
an entry (`collected_of_reachable`). Without the condition one is (`early_look_ends`).
-/

namespace Yapm

/-! ## State -/

inductive MetricsPhase
  /-- In the channel to the coordinator. -/
  | queued
  | collecting
  /-- Ended where there was no entry. -/
  | inconsistent
  /-- Ended where the metrics could not be refreshed. -/
  | failed
  | aborted
deriving DecidableEq, Repr

/-- A metrics task. Its handle is its id. -/
structure MetricsTask where
  id : TaskId
  phase : MetricsPhase
deriving DecidableEq, Repr

/-- The daemon and the metrics tasks of its processes. -/
structure MetricsRuntime where
  daemon : State
  tasks : ProcId → Option MetricsTask
  /-- The coordinator has spawned this task, and will add its handle. -/
  adding : Option TaskId

namespace MetricsRuntime

def init : MetricsRuntime where
  daemon := .init
  tasks _ := none
  adding := none

/-! ## Operations -/

def setPhase (s : MetricsRuntime) (c : ProcId) (t : MetricsTask) (phase : MetricsPhase) :
    MetricsRuntime :=
  { s with tasks := Function.update s.tasks c (some { t with phase }) }

/-- A task of the runtime changes its record. -/
def updateStatus (s : MetricsRuntime) (id : TaskId) (status : TaskStatus) : MetricsRuntime :=
  { s with daemon := { s.daemon with
    treg := match s.daemon.treg.updateStatus id status with
      | .ok treg => treg
      | .error _ => s.daemon.treg } }

/-- The tasks after a step of the daemon : a submission that is accepted sends the task of
the process to the coordinator, with the id it was given. -/
def sent (s : MetricsRuntime) (a : Action) (d : State) : ProcId → Option MetricsTask :=
  match a with
  | .submitMetrics c _ =>
    if d.procs[c]?.any (·.phase = .insert) then
      Function.update s.tasks c (some ⟨s.daemon.treg.next, .queued⟩)
    else s.tasks
  | _ => s.tasks

/-- The daemon takes a step. -/
def daemonStep (s : MetricsRuntime) (a : Action) : Option MetricsRuntime :=
  match step a s.daemon with
  | none => none
  | some d => some { s with daemon := d, tasks := s.sent a d }

/-- No message came before this one. -/
def isFirst (s : MetricsRuntime) (id : TaskId) : Bool :=
  (List.range s.daemon.procs.length).all fun d =>
    match s.tasks d with
    | some ⟨id', .queued⟩ => id ≤ id'
    | _ => true

/-- The coordinator receives the message for a process and spawns its task. -/
def receive (s : MetricsRuntime) (c : ProcId) : Option MetricsRuntime :=
  match s.adding, s.tasks c with
  | none, some ⟨id, .queued⟩ =>
    if s.isFirst id then some { s.setPhase c ⟨id, .queued⟩ .collecting with adding := some id }
    else none
  | _, _ => none

/-- The coordinator adds the handle of the task it has spawned. -/
def addHandle (s : MetricsRuntime) : Option MetricsRuntime :=
  match s.adding with
  | none => none
  | some id => some { s with
    adding := none
    daemon := { s.daemon with
      treg := match s.daemon.treg.addHandle id id with
        | .ok treg => treg
        | .error _ => s.daemon.treg } }

/-- The task looks its process up by name, and refreshes the metrics of the entry it finds.
`err` is why they could not be refreshed. -/
def look (s : MetricsRuntime) (c : ProcId) (err : Option String) : Option MetricsRuntime :=
  match s.daemon.procs[c]?, s.tasks c with
  | some p, some ⟨id, .collecting⟩ =>
    match s.daemon.registry p.name, err with
    | none, _ => some ((s.setPhase c ⟨id, .collecting⟩ .inconsistent).updateStatus id
      (.failed ("Inconsistent runtime state, race condition detected for process: " ++ p.name ++
        " while collecting metrics")))
    | some _, none => some s
    | some _, some e => some ((s.setPhase c ⟨id, .collecting⟩ .failed).updateStatus id
      (.failed ("Collating metrics for process name: " ++ p.name ++ " failed: " ++ e)))
  | _, _ => none

/-- A task is aborted. That takes a kill of the tasks of its pid : its record is completed,
and has its handle. -/
def abort (s : MetricsRuntime) (c : ProcId) : Option MetricsRuntime :=
  match s.tasks c with
  | some ⟨id, .collecting⟩ =>
    if (s.daemon.treg.tasks id).any fun t => t.status = .completed && id ∈ t.handles then
      some (s.setPhase c ⟨id, .collecting⟩ .aborted)
    else none
  | _ => none

/-! ## Steps -/

inductive Action
  | daemon (a : Yapm.Action)
  | receive (c : ProcId)
  | addHandle
  | look (c : ProcId) (err : Option String)
  | abort (c : ProcId)

def step : Action → MetricsRuntime → Option MetricsRuntime
  | .daemon a, s => s.daemonStep a
  | .receive c, s => s.receive c
  | .addHandle, s => s.addHandle
  | .look c err, s => s.look c err
  | .abort c, s => s.abort c

abbrev Reachable (C : MetricsRuntime → Action → Prop) (s : MetricsRuntime) : Prop :=
  Runs.Reach step .init C s

/-- No registered process has a metrics task that ended for want of an entry. -/
def Collected (s : MetricsRuntime) : Prop :=
  ∀ (c : ProcId) (p : Proc) (e : Entry) (t : MetricsTask), s.daemon.procs[c]? = some p →
    s.daemon.registry p.name = some e → e.proc = c → s.tasks c = some t → t.phase ≠ .inconsistent

/-- A task that looks for its process finds some entry of its name, or the launch of the
process is complete. -/
def looksInTime (s : MetricsRuntime) : Action → Bool
  | .look c _ => s.daemon.procs[c]?.any fun p =>
      (s.daemon.registry p.name).isSome || p.phase = .registered
  | _ => true

/-! ## What holds in every run -/

variable {s s' : MetricsRuntime} {c : ProcId}

/-- A task is of a process, and if it ended for want of an entry the launch of the process
is complete, and its entry is gone. -/
structure Ok (s : MetricsRuntime) : Prop where
  daemon : Inv s.daemon
  tasks : ∀ c t, s.tasks c = some t → ∃ p, s.daemon.procs[c]? = some p ∧
    (t.phase = .inconsistent → p.phase = .registered ∧
      ∀ name e, s.daemon.registry name = some e → e.proc ≠ c)

namespace Ok

theorem init : Ok .init where
  daemon := .init
  tasks c t h := by simp [MetricsRuntime.init] at h

theorem inv_treg {d : State} (hi : Inv d) {treg : TaskRegistry} (h : treg.Ok) :
    Inv { d with treg } :=
  { hi with treg := h }

/-- The rule for steps of tasks and coordinator : records may change, and one task. -/
theorem of_setPhase (h : s.Ok) {treg : TaskRegistry} (htreg : treg.Ok)
    {t : MetricsTask} (ht : s.tasks c = some t) {phase : MetricsPhase}
    (hphase : phase = .inconsistent → ∃ p, s.daemon.procs[c]? = some p ∧
      p.phase = .registered ∧ ∀ name e, s.daemon.registry name = some e → e.proc ≠ c)
    (adding : Option TaskId) :
    Ok ⟨{ s.daemon with treg }, (s.setPhase c t phase).tasks, adding⟩ where
  daemon := inv_treg h.daemon htreg
  tasks c' t' ht' := by
    by_cases hc : c' = c
    · subst hc
      obtain ⟨p, hp, -⟩ := h.tasks c' t ht
      simp only [setPhase, Function.update_self, Option.some_inj] at ht'
      subst ht'
      refine ⟨p, hp, fun hinconsistent => ?_⟩
      obtain ⟨q, hq, hrest⟩ := hphase hinconsistent
      obtain rfl := Option.some_inj.mp (hp.symm.trans hq)
      exact hrest
    · simp only [setPhase, Function.update_of_ne hc] at ht'
      exact h.tasks c' t' ht'

theorem treg_updateStatus (h : s.daemon.treg.Ok) (id : TaskId) (status : TaskStatus) :
    (s.updateStatus id status).daemon.treg.Ok := by
  unfold updateStatus
  simp only
  split
  · rename_i hr
    exact h.updateStatus hr
  · exact h

theorem sent_cases {a : Yapm.Action} {d : State} {t : MetricsTask} (ht : s.sent a d c = some t) :
    s.tasks c = some t ∨ t.phase = .queued ∧ ∃ p, d.procs[c]? = some p := by
  unfold sent at ht
  split at ht
  · rename_i c' fate
    split at ht
    · rename_i hany
      by_cases hc : c = c'
      · subst hc
        rw [Function.update_self, Option.some_inj] at ht
        subst ht
        cases hp : d.procs[c]? with
        | none => simp [hp] at hany
        | some p => exact .inr ⟨rfl, p, rfl⟩
      · rw [Function.update_of_ne hc] at ht
        exact .inl ht
    · exact .inl ht
  · exact .inl ht

/-- A step of the daemon : a complete launch stays complete, and an entry is registered at
the end of a launch only. -/
theorem daemonStep (h : s.Ok) {a : Yapm.Action} (hs : s.daemonStep a = some s') : s'.Ok := by
  unfold MetricsRuntime.daemonStep at hs
  split at hs
  · cases hs
  rename_i d hd
  obtain rfl := Option.some_inj.mp hs
  have hchange := change_of_step h.daemon.ok h.daemon.pids hd
  have hold (c : ProcId) (t : MetricsTask) (ht : s.tasks c = some t) : ∃ p, d.procs[c]? = some p ∧
      (t.phase = .inconsistent → p.phase = .registered ∧
        ∀ name e, d.registry name = some e → e.proc ≠ c) := by
    obtain ⟨p, hp, hmissed⟩ := h.tasks c t ht
    obtain ⟨x, p', hp', hev⟩ := hchange.proc hp
    refine ⟨p', hp', fun hphase => ?_⟩
    obtain ⟨hregistered, hgone⟩ := hmissed hphase
    refine ⟨by rw [hev.finished (by rw [hregistered]; rfl), hregistered], fun name e he hc => ?_⟩
    rcases hchange.entry he with hold | ⟨-, ⟨q, hq, hinsert, -⟩, -⟩
    · exact hgone name e hold hc
    · rw [hc, hp, Option.some_inj] at hq
      rw [← hq, hregistered] at hinsert
      cases hinsert
  refine ⟨h.daemon.step hd, fun c t ht => ?_⟩
  rcases sent_cases ht with ht | ⟨hqueued, p, hp⟩
  · exact hold c t ht
  · exact ⟨p, hp, fun hphase => by simp [hqueued] at hphase⟩

/-- A task that looks in time ends for want of an entry only when its entry is gone. -/
theorem look (h : s.Ok) {err : Option String} (htime : s.looksInTime (.look c err))
    (hs : s.look c err = some s') : s'.Ok := by
  unfold MetricsRuntime.look at hs
  split at hs
  · rename_i p id hp ht
    have htreg (phase : MetricsPhase) : (s.setPhase c ⟨id, .collecting⟩ phase).daemon.treg.Ok :=
      h.daemon.treg
    split at hs
    · rename_i hnone
      obtain rfl := Option.some_inj.mp hs
      refine of_setPhase h (treg_updateStatus (htreg _) _ _) ht (fun _ => ⟨p, hp, ?_, ?_⟩) s.adding
      · simpa [looksInTime, hp, hnone] using htime
      · intro name e he hc
        obtain ⟨q, hq, hname, -⟩ := h.daemon.registry name e he
        rw [hc, hp, Option.some_inj] at hq
        rw [← hname, ← hq, hnone] at he
        cases he
    · obtain rfl := Option.some_inj.mp hs
      exact h
    · obtain rfl := Option.some_inj.mp hs
      exact of_setPhase h (treg_updateStatus (htreg _) _ _) ht (by simp) s.adding
  · cases hs

theorem receive (h : s.Ok) (hs : s.receive c = some s') : s'.Ok := by
  unfold MetricsRuntime.receive at hs
  split at hs
  · rename_i id hadding ht
    split at hs
    · obtain rfl := Option.some_inj.mp hs
      exact of_setPhase h h.daemon.treg ht (by simp) (some id)
    · cases hs
  · cases hs

theorem addHandle (h : s.Ok) (hs : s.addHandle = some s') : s'.Ok := by
  unfold MetricsRuntime.addHandle at hs
  split at hs
  · cases hs
  · obtain rfl := Option.some_inj.mp hs
    refine ⟨inv_treg h.daemon ?_, h.tasks⟩
    split
    · rename_i hr
      exact h.daemon.treg.addHandle hr
    · exact h.daemon.treg

theorem abort (h : s.Ok) (hs : s.abort c = some s') : s'.Ok := by
  unfold MetricsRuntime.abort at hs
  split at hs
  · rename_i id ht
    split at hs
    · obtain rfl := Option.some_inj.mp hs
      exact of_setPhase h h.daemon.treg ht (by simp) s.adding
    · cases hs
  · cases hs

theorem step (h : s.Ok) {a : Action} (htime : s.looksInTime a)
    (hs : MetricsRuntime.step a s = some s') : s'.Ok := by
  cases a with
  | daemon a => exact h.daemonStep hs
  | look c err => exact h.look htime hs
  | receive c => exact h.receive hs
  | addHandle => exact h.addHandle hs
  | abort c => exact h.abort hs

end Ok

/-- When every look is in time, no registered process is without its metrics for want of
an entry. -/
theorem collected_of_reachable (h : Reachable (fun s a => s.looksInTime a) s) : s.Collected := by
  have hok : s.Ok := h.invariant .init fun _ _ _ hi hc hs => hi.step hc hs
  intro c p e t hp he hproc ht hphase
  obtain ⟨q, -, hmissed⟩ := hok.tasks c t ht
  exact (hmissed hphase).2 p.name e he hproc

/-- A start that has submitted the metrics task, and the coordinator that spawns it. -/
def submitSteps : List Action :=
  let start : List Yapm.Action := [.startCall 0 plainConfig, .startCheck 0] ++
    launchSteps (.start 0) 0 4242 ++ [.submitMetrics 0 .accepted]
  start.map .daemon ++ [.receive 0, .addHandle]

/-- The task looks for its process after the start has registered it. -/
theorem late_look_collected : ∃ s : MetricsRuntime, s.Collected ∧
    (∃ e, s.daemon.registry "db" = some e ∧ e.proc = 0) ∧ s.tasks 0 = some ⟨3, .collecting⟩ :=
  ⟨_, collected_of_reachable (Runs.reach_of_checked
    (submitSteps ++ [.daemon (.insert 0), .look 0 none]) rfl), ⟨_, rfl, rfl⟩, rfl⟩

/-- The task looks for its process before the start has registered it. -/
theorem early_look_ends : ∃ s : MetricsRuntime, Reachable (fun _ _ => True) s ∧
    ¬s.Collected ∧ (∃ e, s.daemon.registry "db" = some e ∧ e.proc = 0) ∧
    s.tasks 0 = some ⟨3, .inconsistent⟩ ∧
    (s.daemon.treg.tasks 3).map (·.status) = some (.failed ("Inconsistent runtime state, " ++
      "race condition detected for process: db while collecting metrics")) := by
  refine ⟨_, Runs.reach_of_checked (submitSteps ++ [.look 0 none, .daemon (.insert 0)]) rfl, ?_,
    ⟨_, rfl, rfl⟩, rfl, by decide +kernel⟩
  intro h
  exact h 0 _ _ _ rfl rfl rfl rfl rfl

end MetricsRuntime

end Yapm
