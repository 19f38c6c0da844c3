import Yapm.ProcessManager

/-!
# What a call of start or stop leaves behind

A start that succeeds should have registered its process and handed three tasks to their
coordinators. It does so exactly when the logging task was accepted, which nobody looks at
(`complete_iff`). A start that fails should leave no trace. It does so exactly when every
way out cleans up (`noTrace_iff`) : a child whose streams fail is not killed, and the tasks
of its pid are cancelled only after a submission was refused, and only if the lock is in
order. A stop that fails has already removed its entry (`stop_unchanged_iff`).
-/

namespace Yapm

open Cancellation (Message)

namespace ProcessManager

/-! ## Tasks handed over -/

/-- From `s` to `s'` a task of the type was registered for the pid, and sent to its
coordinator. -/
def HandedOver (s s' : ProcessManager) (tty : TaskType) (pid : Pid) : Prop :=
  ∃ id, s.runtime.treg.record id = none ∧
    s'.runtime.treg.record id = some ⟨pid, tty, []⟩ ∧
    s'.runtime.channels tty = s.runtime.channels tty ++ [⟨id, pid⟩]

section Submit

variable (s : ProcessManager) {s' : ProcessManager} {tty tty' : TaskType} {pid pid' : Pid}
  {desc : String} {fate : Submission}

theorem channels_submit_of_ne (htty : tty' ≠ tty) :
    (s.submit tty pid desc fate).2.runtime.channels tty' = s.runtime.channels tty' := by
  simp only [submit]
  rcases s.runtime.treg.submitTask tty pid desc fate with ⟨_ | id, treg⟩
  · rfl
  · exact Function.update_of_ne htty ..

theorem channels_submit_of_refused (h : ¬s.runtime.treg.Accepts tty pid fate) :
    (s.submit tty pid desc fate).2.runtime.channels = s.runtime.channels := by
  rcases s.submit_cases tty pid desc fate with ⟨haccepts, -⟩ | ⟨-, e, he⟩
  · exact absurd haccepts h
  · have hresult : (s.runtime.treg.submitTask tty pid desc fate).1 = .error e :=
      congrArg Prod.fst he
    simp only [submit]
    rw [show s.runtime.treg.submitTask tty pid desc fate = (.error e, _) from
      Prod.ext hresult rfl]
    rfl

/-- A task that is accepted is handed over. -/
theorem handedOver_submit (h : s.runtime.treg.Accepts tty pid fate) :
    s.HandedOver (s.submit tty pid desc fate).2 tty pid := by
  rcases s.submit_cases tty pid desc fate with ⟨-, id, hid⟩ | ⟨hrefused, -⟩
  · have hresult : (s.runtime.treg.submitTask tty pid desc fate).1 = .ok id :=
      congrArg Prod.fst hid
    obtain ⟨hnext, hrecord⟩ := (s.indexed.submittedTask tty pid desc fate).ok id hresult
    refine ⟨id, ?_, ?_, ?_⟩
    · cases hx : s.runtime.treg.record id with
      | none => rfl
      | some x => exact absurd (s.indexed.lt_of_record hx) (by simp [hnext])
    · rw [treg_submit]
      exact hrecord
    · simp only [submit]
      rw [show s.runtime.treg.submitTask tty pid desc fate = (.ok id, _) from
        Prod.ext hresult rfl]
      exact Function.update_self ..
  · exact absurd h hrefused

/-- What was handed over stays so when a task of another type is submitted. -/
theorem HandedOver.submit (h : s.HandedOver s' tty pid) (htty : tty ≠ tty') :
    s.HandedOver (s'.submit tty' pid' desc fate).2 tty pid := by
  obtain ⟨id, hnone, hrecord, hchannel⟩ := h
  refine ⟨id, hnone, ?_, ?_⟩
  · rw [treg_submit]
    exact (s'.indexed.submittedTask tty' pid' desc fate).old id _ hrecord
  · rw [channels_submit_of_ne s' htty, hchannel]

/-- What was handed over after a task of another type was submitted. -/
theorem HandedOver.of_submit (h : (s.submit tty' pid' desc fate).2.HandedOver s' tty pid)
    (htty : tty ≠ tty') : s.HandedOver s' tty pid := by
  obtain ⟨id, hnone, hrecord, hchannel⟩ := h
  rw [treg_submit] at hnone
  rw [channels_submit_of_ne s htty] at hchannel
  refine ⟨id, ?_, hrecord, hchannel⟩
  cases hx : s.runtime.treg.record id with
  | none => rfl
  | some x =>
    rw [(s.indexed.submittedTask tty' pid' desc fate).old id x hx] at hnone
    cases hnone

end Submit

/-! ## A start that succeeds -/

/-- The process is registered with its configuration, and a task of each type is handed
over for its pid. -/
structure Complete (s s' : ProcessManager) (config : ProcessConfig) (name : String)
    (pid : Pid) : Prop where
  entry : s'.registry name = some ⟨config, pid⟩
  tasks : ∀ tty, s.HandedOver s' tty pid

/-- Every sub-step whose failure is looked at succeeds. -/
structure Starts (s : ProcessManager) (config : ProcessConfig) (o : StartOutcomes) : Prop where
  spawns : s.Spawns config o
  prepares : o.Prepares
  monitoring : s.runtime.treg.Accepts .process o.pid o.monitoring
  collating : s.runtime.treg.Accepts .metrics o.pid o.collating

section Complete

variable (s : ProcessManager) (config : ProcessConfig) (o : StartOutcomes)

/-- A start none of whose sub-steps fails is reported. -/
theorem start_of_starts (h : s.Starts config o) :
    s.start config o = some (.processStarted config.name o.pid, { s.collated o with
      registry := s.registry.insert config.name ⟨config, o.pid⟩ }) := by
  rcases s.start_cases config o with ⟨r, hr, hcase⟩ | ⟨-, hrefuses⟩
  · cases hcase with
    | started _ _ _ _ => exact hr
    | taken htaken => simp [h.spawns.free] at htaken
    | notForked _ hforks => exact absurd h.spawns.forks hforks
    | lost _ _ hfails => exact absurd hfails (not_failsStream_of_takes _ h.spawns.takes)
    | unprepared _ hprepares => exact absurd h.prepares hprepares
    | unmonitored _ _ hmonitoring => exact absurd h.monitoring hmonitoring
    | uncollated _ _ _ hcollating => exact absurd h.collating hcollating
  · exact absurd hrefuses (not_refusesStream_of_takes _ h.spawns.takes)

theorem accepts_logging : s.runtime.treg.Accepts .logging o.pid o.logging ↔
    o.logging = .accepted := by
  simp [TaskRegistry.Accepts, TaskRegistry.Refuses]

theorem handedOver_logging :
    s.HandedOver (s.collated o) .logging o.pid ↔ o.logging = .accepted := by
  constructor
  · rintro ⟨id, -, -, hchannel⟩
    by_contra hnot
    rw [← accepts_logging s o] at hnot
    rw [collated, channels_submit_of_ne _ (by decide), monitored,
      channels_submit_of_ne _ (by decide), logged,
      channels_submit_of_refused (s.forked o) hnot] at hchannel
    have hlength := congrArg List.length hchannel
    simp [forked, setAlive] at hlength
  · intro h
    have hlogged : s.HandedOver (s.logged o) .logging o.pid :=
      (s.forked o).handedOver_submit ((accepts_logging s o).mpr h)
    exact (hlogged.submit s (by decide)).submit s (by decide)

theorem handedOver_process (h : s.runtime.treg.Accepts .process o.pid o.monitoring) :
    s.HandedOver (s.collated o) .process o.pid := by
  have hmonitored : (s.logged o).HandedOver (s.monitored o) .process o.pid :=
    (s.logged o).handedOver_submit ((accepts_logged s o (by decide)).mpr h)
  exact (hmonitored.submit _ (by decide)).of_submit (s.forked o) (by decide)

theorem handedOver_metrics (h : s.runtime.treg.Accepts .metrics o.pid o.collating) :
    s.HandedOver (s.collated o) .metrics o.pid := by
  have hcollated : (s.monitored o).HandedOver (s.collated o) .metrics o.pid :=
    (s.monitored o).handedOver_submit ((accepts_monitored s o).mpr h)
  exact (hcollated.of_submit (s.logged o) (by decide)).of_submit (s.forked o) (by decide)

/-- A start that succeeds is complete exactly when the logging task is accepted. -/
theorem complete_iff :
    (∀ name pid s', s.start config o = some (.processStarted name pid, s') →
      s.Complete s' config name pid) ↔
    (s.Starts config o → o.logging = .accepted) := by
  constructor
  · intro h hstarts
    have hcomplete := h _ _ _ (s.start_of_starts config o hstarts)
    exact (handedOver_logging s o).mp (hcomplete.tasks .logging)
  · intro h name pid s' hstart
    rcases s.start_cases config o with ⟨r, hr, hcase⟩ | ⟨hnone, -⟩
    · rw [hstart, Option.some_inj] at hr
      cases hcase with
      | started hspawns hprepares hmonitoring hcollating =>
        cases hr
        refine ⟨ProcessRegistry.insert_self, fun tty => ?_⟩
        cases tty with
        | logging =>
          exact (handedOver_logging s o).mpr (h ⟨hspawns, hprepares, hmonitoring, hcollating⟩)
        | metrics => exact handedOver_metrics s o hcollating
        | process => exact handedOver_process s o hmonitoring
      | _ => cases hr
    · rw [hstart] at hnone
      cases hnone

end Complete

/-! ## A start that fails -/

/-- The start has a child : the name is free, and the function forks. -/
def HasChild (s : ProcessManager) (config : ProcessConfig) (o : StartOutcomes) : Prop :=
  s.registry config.name = none ∧
    (createChildExecContextFromConfig o.os config o.pid o.machine).child.isSome

/-- The registry is as before, and if there was a child it is not alive, and no record of
its pid is running. -/
structure NoTrace (s s' : ProcessManager) (config : ProcessConfig) (o : StartOutcomes) : Prop where
  registry : s'.registry = s.registry
  child : s.HasChild config o → s'.alive o.pid = false ∧ s'.runtime.treg.Idle o.pid

/-- Every way out of a start that fails after its fork cleans up. A child whose streams
fail has to end by itself. Where no task was cancelled, no record of an earlier process
with the pid may be running. Where a submission was refused, the kill finds the lock in
order, or there is nothing to cancel. -/
structure CleansUp (s : ProcessManager) (config : ProcessConfig) (o : StartOutcomes) : Prop where
  lost : s.registry config.name = none → o.os.Forks → o.os.FailsStream →
    o.exits ∧ s.runtime.treg.Idle o.pid
  unprepared : s.Spawns config o → ¬o.Prepares → s.runtime.treg.Idle o.pid
  unmonitored : s.Spawns config o → o.Prepares →
    ¬s.runtime.treg.Accepts .process o.pid o.monitoring →
    o.cannotKill o.monitoring = false ∨ s.runtime.treg.Idle o.pid ∧ o.logging.isPoisoned ∧
      ¬s.runtime.treg.Registers .process o.pid o.monitoring
  uncollated : s.Spawns config o → o.Prepares →
    s.runtime.treg.Accepts .process o.pid o.monitoring →
    ¬s.runtime.treg.Accepts .metrics o.pid o.collating → o.cannotKill o.collating = false

section NoTrace

variable (s : ProcessManager) (config : ProcessConfig) (o : StartOutcomes)

theorem hasChild_iff : s.HasChild config o ↔ s.registry config.name = none ∧ o.os.Forks := by
  refine and_congr_right fun _ => ?_
  have hcases := spawn_cases o.os config o.pid o.machine
  generalize createChildExecContextFromConfig o.os config o.pid o.machine = spawned at hcases
  cases hcases <;> simp [*]

theorem idle_monitored : (s.monitored o).runtime.treg.Idle o.pid ↔
    s.runtime.treg.Idle o.pid ∧ o.logging.isPoisoned ∧
      ¬s.runtime.treg.Registers .process o.pid o.monitoring := by
  have hlogging : ¬s.runtime.treg.Registers .logging o.pid o.logging ↔ o.logging.isPoisoned := by
    simp [TaskRegistry.Registers, TaskRegistry.Refuses]
  have hprocess : (s.logged o).runtime.treg.Registers .process o.pid o.monitoring ↔
      s.runtime.treg.Registers .process o.pid o.monitoring := by
    unfold TaskRegistry.Registers TaskRegistry.Refuses
    rw [logged, treg_submit, treg_forked, s.indexed.has_submitTask o.pid (by decide)]
  rw [monitored, treg_submit, (s.logged o).indexed.idle_submitTask, hprocess, logged, treg_submit,
    (s.forked o).indexed.idle_submitTask, treg_forked, hlogging, and_assoc]

/-- With its monitoring task accepted, the pid has a record that is running. -/
theorem not_idle_collated (h : s.runtime.treg.Accepts .process o.pid o.monitoring) :
    ¬(s.collated o).runtime.treg.Idle o.pid := by
  rw [collated, treg_submit, (s.monitored o).indexed.idle_submitTask, idle_monitored]
  rintro ⟨⟨-, -, hnot⟩, -⟩
  exact hnot h.registers

theorem idle_abandoned (pid : Pid) (poisoned : Bool) :
    (s.abandoned pid poisoned).runtime.treg.Idle pid ↔
      poisoned = false ∨ s.runtime.treg.Idle pid := by
  have htreg : (s.abandoned pid poisoned).runtime.treg =
      if poisoned then s.runtime.treg else (s.runtime.treg.killTasksByPid pid).2 :=
    treg_killTasksByPid ..
  rw [htreg]
  cases poisoned
  · simpa using s.indexed.idle_killTasksByPid pid
  · simp

theorem alive_abandoned (pid : Pid) (poisoned : Bool) :
    (s.abandoned pid poisoned).alive pid = false :=
  Function.update_self ..

/-- A way out with a child : what it leaves of it is what has to be clean. -/
theorem noTrace_iff_of_child {s' : ProcessManager} (hregistry : s'.registry = s.registry)
    (hfree : s.registry config.name = none) (hforks : o.os.Forks) :
    s.NoTrace s' config o ↔ s'.alive o.pid = false ∧ s'.runtime.treg.Idle o.pid :=
  ⟨fun h => h.child ((hasChild_iff s config o).mpr ⟨hfree, hforks⟩),
    fun h => ⟨hregistry, fun _ => h⟩⟩

theorem noTrace_of_not_hasChild (h : ¬(s.registry config.name = none ∧ o.os.Forks)) :
    s.NoTrace s config o :=
  ⟨rfl, fun hchild => absurd ((hasChild_iff s config o).mp hchild) h⟩

theorem cleansUp_of_not_hasChild (h : ¬(s.registry config.name = none ∧ o.os.Forks)) :
    s.CleansUp config o where
  lost hfree hforks := absurd ⟨hfree, hforks⟩ h
  unprepared hspawns := absurd ⟨hspawns.free, hspawns.forks⟩ h
  unmonitored hspawns := absurd ⟨hspawns.free, hspawns.forks⟩ h
  uncollated hspawns := absurd ⟨hspawns.free, hspawns.forks⟩ h

/-- A way out leaves no trace exactly when it cleans up. -/
theorem noTrace_iff_of_case {msg : String} {s' : ProcessManager}
    (hcase : s.StartCase config o (.error msg, s')) :
    s.NoTrace s' config o ↔ s.CleansUp config o := by
  cases hcase with
  | taken htaken =>
    have hchild : ¬(s.registry config.name = none ∧ o.os.Forks) := by
      rintro ⟨hfree, -⟩
      simp [hfree] at htaken
    exact iff_of_true (noTrace_of_not_hasChild s config o hchild)
      (cleansUp_of_not_hasChild s config o hchild)
  | notForked _ hforks =>
    have hchild : ¬(s.registry config.name = none ∧ o.os.Forks) := fun h => hforks h.2
    exact iff_of_true (noTrace_of_not_hasChild s config o hchild)
      (cleansUp_of_not_hasChild s config o hchild)
  | lost hfree hforks hfails =>
    have hspawns : ¬s.Spawns config o := fun h => not_failsStream_of_takes _ h.takes hfails
    have halive : (s.forked o).alive o.pid = false ↔ o.exits := by simp [forked, setAlive]
    have hregistry : (s.forked o).registry = s.registry := rfl
    rw [noTrace_iff_of_child s config o hregistry hfree hforks, halive, treg_forked]
    exact ⟨fun h => ⟨fun _ _ _ => h, (absurd · hspawns), (absurd · hspawns), (absurd · hspawns)⟩,
      fun h => h.lost hfree hforks hfails⟩
  | unprepared hspawns hprepares =>
    have hfails : ¬o.os.FailsStream := not_failsStream_of_takes _ hspawns.takes
    have hregistry : ((s.forked o).sigkill o.pid).registry = s.registry := rfl
    rw [noTrace_iff_of_child s config o hregistry hspawns.free hspawns.forks]
    exact ⟨fun h => ⟨fun _ _ => (absurd · hfails), fun _ _ => h.2, fun _ => (absurd · hprepares),
      fun _ => (absurd · hprepares)⟩,
      fun h => ⟨Function.update_self .., h.unprepared hspawns hprepares⟩⟩
  | unmonitored hspawns hprepares hmonitoring =>
    have hfails : ¬o.os.FailsStream := not_failsStream_of_takes _ hspawns.takes
    have hregistry : ((s.monitored o).abandoned o.pid (o.cannotKill o.monitoring)).registry =
        s.registry := rfl
    rw [noTrace_iff_of_child s config o hregistry hspawns.free hspawns.forks,
      and_iff_right (alive_abandoned ..), idle_abandoned, idle_monitored]
    exact ⟨fun h => ⟨fun _ _ => (absurd · hfails), fun _ hnot => absurd hprepares hnot,
      fun _ _ _ => h, fun _ _ haccepts => absurd haccepts hmonitoring⟩,
      fun h => h.unmonitored hspawns hprepares hmonitoring⟩
  | uncollated hspawns hprepares hmonitoring hcollating =>
    have hfails : ¬o.os.FailsStream := not_failsStream_of_takes _ hspawns.takes
    have hregistry : ((s.collated o).abandoned o.pid (o.cannotKill o.collating)).registry =
        s.registry := rfl
    rw [noTrace_iff_of_child s config o hregistry hspawns.free hspawns.forks,
      and_iff_right (alive_abandoned ..), idle_abandoned,
      or_iff_left (not_idle_collated s o hmonitoring)]
    exact ⟨fun h => ⟨fun _ _ => (absurd · hfails), fun _ hnot => absurd hprepares hnot,
      fun _ _ hnot => absurd hmonitoring hnot, fun _ _ _ _ => h⟩,
      fun h => h.uncollated hspawns hprepares hmonitoring hcollating⟩

/-- A start that fails leaves no trace exactly when its way out cleans up. -/
theorem noTrace_iff :
    (∀ msg s', s.start config o = some (.error msg, s') → s.NoTrace s' config o) ↔
      s.CleansUp config o := by
  rcases s.start_cases config o with ⟨⟨result, s'⟩, hr, hcase⟩ | ⟨hnone, hrefuses⟩
  · rw [hr]
    cases result with
    | error msg =>
      rw [← noTrace_iff_of_case s config o hcase]
      exact ⟨fun h => h _ _ rfl, fun h msg' s₁ heq => by cases heq; exact h⟩
    | processStarted name pid =>
      refine iff_of_true (fun msg s' h => by simp at h) ?_
      cases hcase with
      | started hspawns hprepares hmonitoring hcollating =>
        have hfails : ¬o.os.FailsStream := not_failsStream_of_takes _ hspawns.takes
        exact ⟨fun _ _ => (absurd · hfails), fun _ hnot => absurd hprepares hnot,
          fun _ _ hnot => absurd hmonitoring hnot, fun _ _ _ hnot => absurd hcollating hnot⟩
    | processStopped name => cases hcase
  · have hspawns : ¬s.Spawns config o := fun h => not_refusesStream_of_takes _ h.takes hrefuses
    have hfails : ¬o.os.FailsStream := not_failsStream_of_refuses _ hrefuses
    exact iff_of_true (fun msg s' h => by simp [hnone] at h)
      ⟨fun _ _ => (absurd · hfails), (absurd · hspawns), (absurd · hspawns), (absurd · hspawns)⟩

end NoTrace

/-! ## What a start says of its child -/

/-- The function tells the truth about the child, and a start is reported only if the
child runs its program. -/
def Truthful (config : ProcessConfig) (o : StartOutcomes) : Prop :=
  (createChildExecContextFromConfig o.os config o.pid o.machine).ReportsReal ∧
    ∀ (s : ProcessManager) (name : String) (pid : Pid) (s' : ProcessManager),
      s.start config o = some (.processStarted name pid, s') →
        (createChildExecContextFromConfig o.os config o.pid o.machine).child = some .replaced

theorem parent_of_started {s : ProcessManager} {config : ProcessConfig} {o : StartOutcomes}
    {name : String} {pid : Pid} {s' : ProcessManager}
    (h : s.start config o = some (.processStarted name pid, s')) :
    (createChildExecContextFromConfig o.os config o.pid o.machine).parent =
      .returned (.ok o.pid) := by
  rcases s.start_cases config o with ⟨r, hr, hcase⟩ | ⟨hnone, -⟩
  · rw [h, Option.some_inj] at hr
    subst hr
    cases hcase with
    | started hspawns _ _ _ =>
      have hcases := spawn_cases o.os config o.pid o.machine
      generalize createChildExecContextFromConfig o.os config o.pid o.machine = spawned at hcases
      cases hcases with
      | started _ _ => rfl
      | notForked hforks => exact absurd hspawns.forks hforks
      | lost _ hfails => exact absurd hfails (not_failsStream_of_takes _ hspawns.takes)
      | aborted _ hrefuses => exact absurd hrefuses (not_refusesStream_of_takes _ hspawns.takes)
  · rw [h] at hnone
    cases hnone

/-- A start tells the truth exactly when the parent has an error of its own to return, or
no call of the child fails. -/
theorem truthful_iff (config : ProcessConfig) (o : StartOutcomes) :
    Truthful config o ↔ o.os.ParentErrs ∨ o.os.Replaces config := by
  rw [← reportsReal_iff o.os config o.pid o.machine]
  exact ⟨fun h => h.1, fun h => ⟨h, fun s name pid s' hstart => h.1 _ (parent_of_started hstart)⟩⟩

/-! ## A stop that fails -/

/-- The registry is as before, and so are the records of the tasks of the process, and the
tasks themselves. -/
structure Unchanged (s s' : ProcessManager) (process : String) : Prop where
  registry : s'.registry = s.registry
  records : ∀ e, s.registry process = some e → ∀ id t, s.runtime.treg.tasks id = some t →
    t.pid = e.inner → s'.runtime.treg.tasks id = some t
  tasks : s'.runtime.tasks = s.runtime.tasks

/-- A stop that fails changes nothing exactly when nothing but the name can be wrong. -/
theorem stop_unchanged_iff (s : ProcessManager) (process : String) (poisoned : Bool)
    (failure : Option OsError) (now : ℕ → Timestamp) :
    (∀ msg s', s.stop process poisoned failure now = (.error msg, s') →
      s.Unchanged s' process) ↔
      s.registry process = none ∨ poisoned = false ∧ failure = none := by
  have hremoved (e : LinuxCurrentTask) (he : s.registry process = some e) (s' : ProcessManager)
      (hs' : s'.registry = s.registry.remove process) : ¬s.Unchanged s' process := by
    intro h
    have hnone := congrFun (hs'.symm.trans h.registry) process
    rw [ProcessRegistry.remove_self, he] at hnone
    cases hnone
  unfold stop
  cases he : s.registry process with
  | none =>
    refine iff_of_true (fun msg s' h => ?_) (.inl rfl)
    cases h
    exact ⟨rfl, fun _ _ _ _ ht _ => ht, rfl⟩
  | some e =>
    cases poisoned with
    | true => exact iff_of_false (fun h => hremoved e he _ rfl (h _ _ rfl)) (by simp)
    | false =>
      cases failure with
      | some f => exact iff_of_false (fun h => hremoved e he _ rfl (h _ _ rfl)) (by simp)
      | none => exact iff_of_true (fun msg s' h => by cases h) (.inr ⟨rfl, rfl⟩)

/-! ## Calls that go wrong -/

/-- A manager without processes. -/
def init : ProcessManager where
  registry _ := none
  runtime := .init
  logger := ⟨[]⟩
  alive _ := false
  indexed := TaskRegistry.indexed_new

/-- A start in which nothing fails. -/
def plainOutcomes : StartOutcomes where
  os := plainOs
  pid := 4242
  machine := plainMachine
  exits := false
  metrics := none
  logger := none
  logging := .accepted
  monitoring := .accepted
  collating := .accepted
  poisoned := false

/-- The coordinator of logging tasks is gone. The process is started, and nobody reads its
output. -/
theorem closed_channel_unread :
    let o := { plainOutcomes with logging := .channelClosed "channel closed" }
    ∃ s', init.start plainConfig o = some (.processStarted plainConfig.name 4242, s') ∧
      ¬init.Complete s' plainConfig plainConfig.name 4242 := by
  intro o
  refine ⟨_, rfl, fun h => ?_⟩
  obtain ⟨id, -, -, hchannel⟩ := h.tasks .logging
  cases hchannel

/-- `F_GETFL` on the standard error of the child fails. -/
def failingFcntl : Os :=
  { plainOs with parentFails := fun i => if i = 3 then some badFileDescriptor else none }

/-- The start fails, and the child is alive. -/
theorem failingFcntl_leaks :
    let o := { plainOutcomes with os := failingFcntl }
    ∃ msg s', init.start plainConfig o = some (.error msg, s') ∧
      init.HasChild plainConfig o ∧ s'.alive o.pid = true ∧ ¬init.NoTrace s' plainConfig o := by
  intro o
  have hchild : init.HasChild plainConfig o := ⟨rfl, rfl⟩
  refine ⟨_, _, rfl, hchild, rfl, fun h => ?_⟩
  have halive := (h.child hchild).1
  cases halive

/-- The child cannot redirect its standard error, and its start is reported. -/
theorem failingDup2_started :
    let o := { plainOutcomes with os := failingDup2 }
    (∃ s', init.start plainConfig o = some (.processStarted plainConfig.name 4242, s')) ∧
      ¬Truthful plainConfig o := by
  intro o
  refine ⟨⟨_, rfl⟩, fun h => ?_⟩
  have hreplaced := h.1.1 4242 rfl
  cases hreplaced

/-- A manager with one process. -/
def registered : ProcessManager :=
  { init with registry := init.registry.insert "db" ⟨plainConfig, 4242⟩ }

/-- A clock that stands still. -/
def newYear : ℕ → Timestamp := fun _ => ⟨0, 0, 0, 1, .january, 2025⟩

def notPermitted : OsError := ⟨eperm, "EPERM: Operation not permitted"⟩

/-- `SIGKILL` is not permitted, and the process is no longer listed. -/
theorem failing_kill_forgets :
    ∃ msg s', registered.stop "db" false (some notPermitted) newYear = (.error msg, s') ∧
      s'.registry "db" = none ∧ ¬registered.Unchanged s' "db" := by
  refine ⟨_, _, rfl, rfl, fun h => ?_⟩
  have hnone := congrFun h.registry "db"
  cases hnone

end ProcessManager

end Yapm
