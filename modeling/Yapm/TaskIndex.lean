import Mathlib.Data.List.Nodup
import Yapm.Runs
import Yapm.TaskRegistry

/-!
# The two maps of the task registry

The registry finds the records of a pid through an index from pids to ids. The index is
right (`Indexed`) when it has the ids of the records of each pid, each once, and ids to
come are fresh. New records, handles and status changes keep it right. A removal drops the
index of the whole pid, so it keeps it right exactly when the record is the only one of its
pid (`indexed_remove_iff`), and a sequence of operations exactly when all its removals are
such (`consistent_iff`).
-/

namespace Yapm

namespace TaskRegistry

/-- The ids of a pid. -/
def ids (r : TaskRegistry) (pid : Pid) : List TaskId :=
  (r.pidIndex pid).getD []

/-- The index has the ids of the records of each pid, and the next id is fresh. -/
structure Indexed (r : TaskRegistry) : Prop where
  mem_ids : ∀ pid id, id ∈ r.ids pid ↔ ∃ t, r.tasks id = some t ∧ t.pid = pid
  nodup : ∀ pid, (r.ids pid).Nodup
  lt_next : ∀ id t, r.tasks id = some t → id < r.next

/-- The index is right, and a search by pid gives the records of the pid. -/
structure Consistent (r : TaskRegistry) : Prop where
  indexed : r.Indexed
  byPid : ∀ pid t, t ∈ r.getTasksByPid pid ↔ ∃ id, r.tasks id = some t ∧ t.pid = pid

variable {r r' : TaskRegistry}

theorem getTasksByPid_eq (pid : Pid) : r.getTasksByPid pid = (r.ids pid).filterMap r.tasks := by
  unfold getTasksByPid ids
  cases r.pidIndex pid <;> rfl

theorem Indexed.consistent (h : r.Indexed) : r.Consistent where
  indexed := h
  byPid pid t := by
    rw [getTasksByPid_eq, List.mem_filterMap]
    constructor
    · rintro ⟨id, hid, ht⟩
      obtain ⟨t', ht', hpid⟩ := (h.mem_ids pid id).mp hid
      rw [ht, Option.some_inj] at ht'
      exact ⟨id, ht, by rw [ht', hpid]⟩
    · rintro ⟨id, ht, hpid⟩
      exact ⟨id, (h.mem_ids pid id).mpr ⟨t, ht, hpid⟩, ht⟩

theorem consistent_iff_indexed : r.Consistent ↔ r.Indexed :=
  ⟨Consistent.indexed, Indexed.consistent⟩

/-! ## Operations -/

theorem indexed_new : new.Indexed where
  mem_ids pid id := by simp [new, ids]
  nodup pid := by simp [new, ids]
  lt_next id t h := by simp [new] at h

theorem ids_registerTask (id : TaskId) (pid pid' : Pid) (tty : TaskType) (desc : String) :
    (r.registerTask id pid tty desc).ids pid' =
      if pid' = pid then r.ids pid ++ [id] else r.ids pid' := by
  unfold ids registerTask
  split
  · rename_i h
    subst h
    simp
  · rename_i h
    simp [Function.update_of_ne h]

/-- Ids in use are below the next one. -/
theorem Indexed.not_mem_next (h : r.Indexed) (pid : Pid) : r.next ∉ r.ids pid := by
  intro hmem
  obtain ⟨t, ht, -⟩ := (h.mem_ids pid r.next).mp hmem
  exact Nat.lt_irrefl _ (h.lt_next _ t ht)

theorem Indexed.registerTask_allocate (h : r.Indexed) (pid : Pid) (tty : TaskType)
    (desc : String) : (r.allocate.2.registerTask r.allocate.1 pid tty desc).Indexed where
  mem_ids pid' id := by
    have hids : r.allocate.2.ids = r.ids := rfl
    rw [ids_registerTask, hids]
    simp only [registerTask, allocate]
    by_cases hid : id = r.next
    · subst hid
      have hnew := h.not_mem_next pid'
      by_cases hpid : pid' = pid
      · simp [hpid]
      · simp [hpid, hnew, Ne.symm hpid]
    · rw [Function.update_of_ne hid, ← h.mem_ids pid' id]
      split
      · rename_i hpid
        simp [hid, hpid]
      · rfl
  nodup pid' := by
    have hids : r.allocate.2.ids = r.ids := rfl
    rw [ids_registerTask, hids]
    split
    · have hnew := h.not_mem_next pid
      exact (h.nodup pid).append (by simp) (by simpa [allocate] using hnew)
    · exact h.nodup pid'
  lt_next id t ht := by
    simp only [registerTask, allocate] at ht ⊢
    by_cases hid : id = r.next
    · rw [hid]
      exact Nat.lt_succ_self _
    · rw [Function.update_of_ne hid] at ht
      exact Nat.lt_succ_of_lt (h.lt_next id t ht)

/-- A change of records that keeps which ids there are and their pids. -/
theorem Indexed.of_tasks (h : r.Indexed) {tasks : TaskId → Option TaskInfo}
    (hpid : ∀ pid id, (∃ t, r.tasks id = some t ∧ t.pid = pid) ↔
      ∃ t, tasks id = some t ∧ t.pid = pid) : Indexed { r with tasks } where
  mem_ids pid id := (h.mem_ids pid id).trans (hpid pid id)
  nodup := h.nodup
  lt_next id t ht := by
    obtain ⟨t', ht', -⟩ := (hpid t.pid id).mpr ⟨t, ht, rfl⟩
    exact h.lt_next id t' ht'

theorem Indexed.update (h : r.Indexed) {id : TaskId} {t t' : TaskInfo}
    (ht : r.tasks id = some t) (hpid : t'.pid = t.pid) :
    Indexed { r with tasks := Function.update r.tasks id (some t') } := by
  refine h.of_tasks fun pid id' => ?_
  by_cases hid : id' = id
  · subst hid
    simp [ht, hpid]
  · rw [Function.update_of_ne hid]

theorem Indexed.addHandle (h : r.Indexed) {id : TaskId} {handle : JoinHandle}
    (hr : r.addHandle id handle = .ok r') : r'.Indexed := by
  unfold TaskRegistry.addHandle at hr
  split at hr
  · rename_i t ht
    cases hr
    exact h.update ht rfl
  · cases hr

theorem Indexed.updateStatus (h : r.Indexed) {id : TaskId} {status : TaskStatus}
    (hr : r.updateStatus id status = .ok r') : r'.Indexed := by
  unfold TaskRegistry.updateStatus at hr
  split at hr
  · rename_i t ht
    cases hr
    exact h.update ht rfl
  · cases hr

theorem Indexed.submit (h : r.Indexed) (pid : Pid) (tty : TaskType) (desc : String)
    (fate : Submission) : (r.submit pid tty desc fate).2.Indexed := by
  cases hfate : fate.isPoisoned with
  | true =>
    rw [submit_snd_of_poisoned pid tty desc hfate]
    exact h
  | false =>
    rw [submit_snd pid tty desc hfate]
    exact h.registerTask_allocate pid tty desc

theorem Indexed.killTasksByPid (h : r.Indexed) (pid : Pid) : (r.killTasksByPid pid).2.Indexed := by
  unfold TaskRegistry.killTasksByPid
  split
  · exact h
  · refine h.of_tasks fun pid' id => ?_
    split
    · simp
    · rfl

/-! ## Records -/

/-- What is asked of the record of a task. -/
structure Record where
  pid : Pid
  ty : TaskType
  handles : List JoinHandle
deriving DecidableEq, Repr

def record (r : TaskRegistry) (id : TaskId) : Option Record :=
  (r.tasks id).map fun t => ⟨t.pid, t.ty, t.handles⟩

@[simp] theorem record_new (id : TaskId) : new.record id = none := rfl

theorem Indexed.mem_ids_iff (h : r.Indexed) {pid : Pid} {id : TaskId} :
    id ∈ r.ids pid ↔ ∃ x, r.record id = some x ∧ x.pid = pid := by
  simp [h.mem_ids, record]

theorem Indexed.lt_of_record (h : r.Indexed) {id : TaskId} {x : Record}
    (hx : r.record id = some x) : id < r.next := by
  obtain ⟨t, ht, -⟩ := Option.map_eq_some_iff.mp hx
  exact h.lt_next id t ht

/-- A submission that gets past the lock makes a record with the next id. -/
theorem record_submit (pid : Pid) (tty : TaskType) (desc : String) {fate : Submission}
    (hfate : fate.isPoisoned = false) (id : TaskId) :
    (r.submit pid tty desc fate).2.record id =
      if id = r.next then some ⟨pid, tty, []⟩ else r.record id := by
  rw [submit_snd pid tty desc hfate]
  simp only [record, registerTask, allocate]
  split
  · rename_i hid
    simp [hid]
  · rename_i hid
    simp [hid]

theorem record_addHandle {id : TaskId} (handle : JoinHandle) {x : Record}
    (hx : r.record id = some x) : ∃ r', r.addHandle id handle = .ok r' ∧ r'.next = r.next ∧
      ∀ id', r'.record id' =
        if id' = id then some { x with handles := x.handles ++ [handle] } else r.record id' := by
  obtain ⟨t, ht, rfl⟩ := Option.map_eq_some_iff.mp hx
  unfold addHandle
  rw [ht]
  refine ⟨_, rfl, rfl, fun id' => ?_⟩
  unfold record
  split
  · rename_i hid
    simp [hid]
  · rename_i hid
    simp [Function.update_of_ne hid]

theorem record_updateStatus {id : TaskId} {status : TaskStatus}
    (hr : r.updateStatus id status = .ok r') : r'.record = r.record := by
  unfold updateStatus at hr
  split at hr
  · rename_i t ht
    cases hr
    funext id'
    by_cases hid : id' = id
    · simp [record, hid, ht]
    · simp [record, Function.update_of_ne hid]
  · cases hr

theorem next_updateStatus {id : TaskId} {status : TaskStatus}
    (hr : r.updateStatus id status = .ok r') : r'.next = r.next := by
  unfold updateStatus at hr
  split at hr
  · cases hr
    rfl
  · cases hr

/-- A kill changes no more of records than their status. -/
theorem record_killTasksByPid (pid : Pid) : (r.killTasksByPid pid).2.record = r.record := by
  unfold killTasksByPid
  split
  · rfl
  · funext id
    unfold record
    simp only
    split
    · rw [Option.map_map]
      rfl
    · rfl

theorem next_killTasksByPid (pid : Pid) : (r.killTasksByPid pid).2.next = r.next := by
  unfold killTasksByPid
  split <;> rfl

/-- A kill aborts the tasks whose handles are in the records of the pid. -/
theorem Indexed.mem_killTasksByPid (h : r.Indexed) {pid : Pid} {handle : JoinHandle} :
    handle ∈ (r.killTasksByPid pid).1 ↔
      ∃ id x, r.record id = some x ∧ x.pid = pid ∧ handle ∈ x.handles := by
  have hkill : (r.killTasksByPid pid).1 =
      (r.ids pid).flatMap fun id => ((r.tasks id).map (·.handles)).getD [] := by
    unfold TaskRegistry.killTasksByPid ids
    cases r.pidIndex pid <;> rfl
  rw [hkill, List.mem_flatMap]
  constructor
  · rintro ⟨id, hid, hhandle⟩
    obtain ⟨x, hx, hpid⟩ := h.mem_ids_iff.mp hid
    obtain ⟨t, ht, rfl⟩ := Option.map_eq_some_iff.mp hx
    exact ⟨id, _, hx, hpid, by simpa [ht] using hhandle⟩
  · rintro ⟨id, x, hx, hpid, hhandle⟩
    obtain ⟨t, ht, rfl⟩ := Option.map_eq_some_iff.mp hx
    exact ⟨id, h.mem_ids_iff.mpr ⟨_, hx, hpid⟩, by simpa [ht] using hhandle⟩

/-- The pid has a record of the type. -/
def Has (r : TaskRegistry) (pid : Pid) (tty : TaskType) : Prop :=
  ∃ id x, r.record id = some x ∧ x.pid = pid ∧ x.ty = tty

/-- A submission is of a duplicate when the pid has a record of the type. -/
theorem Indexed.any_ty_iff (h : r.Indexed) {pid : Pid} {tty : TaskType} :
    (r.getTasksByPid pid).any (·.ty = tty) ↔ r.Has pid tty := by
  rw [List.any_eq_true]
  constructor
  · rintro ⟨t, ht, hty⟩
    obtain ⟨id, htask, hpid⟩ := (h.consistent.byPid pid t).mp ht
    exact ⟨id, _, by rw [record, htask]; rfl, hpid, by simpa using hty⟩
  · rintro ⟨id, x, hx, hpid, hty⟩
    obtain ⟨t, ht, rfl⟩ := Option.map_eq_some_iff.mp hx
    exact ⟨t, (h.consistent.byPid pid t).mpr ⟨id, ht, hpid⟩, by simpa using hty⟩

/-- What a submission of a task of a type for a pid can do to the records. -/
structure Submitted (r : TaskRegistry) (pid : Pid) (tty : TaskType)
    (result : Except AsyncError TaskId × TaskRegistry) : Prop where
  indexed : result.2.Indexed
  next : r.next ≤ result.2.next
  old : ∀ id x, r.record id = some x → result.2.record id = some x
  new : ∀ id x, result.2.record id = some x →
    r.record id = some x ∨ id = r.next ∧ x = ⟨pid, tty, []⟩
  ok : ∀ id, result.1 = .ok id → id = r.next ∧ result.2.record id = some ⟨pid, tty, []⟩

/-- A submission that is refused changes nothing. -/
theorem Indexed.submitted_of_error (h : r.Indexed) (pid : Pid) (tty : TaskType) (e : AsyncError) :
    r.Submitted pid tty (.error e, r) where
  indexed := h
  next := Nat.le_refl _
  old _ _ hx := hx
  new _ _ hx := .inl hx
  ok _ hok := by cases hok

theorem Indexed.submitted (h : r.Indexed) (pid : Pid) (tty : TaskType) (desc : String)
    (fate : Submission) : r.Submitted pid tty (r.submit pid tty desc fate) := by
  have hregistered (hfate : fate.isPoisoned = false)
      (hnext : r.next ≤ (r.submit pid tty desc fate).2.next)
      (hid : ∀ id, (r.submit pid tty desc fate).1 = .ok id → id = r.next) :
      r.Submitted pid tty (r.submit pid tty desc fate) :=
    { indexed := h.submit pid tty desc fate
      next := hnext
      old := fun id x hx => by
        rw [record_submit pid tty desc hfate, if_neg (Nat.ne_of_lt (h.lt_of_record hx)), hx]
      new := fun id x hx => by
        rw [record_submit pid tty desc hfate] at hx
        split at hx
        · exact .inr ⟨‹_›, (Option.some_inj.mp hx).symm⟩
        · exact .inl hx
      ok := fun id hok => by
        have hid := hid id hok
        exact ⟨hid, by rw [record_submit pid tty desc hfate, if_pos hid]⟩ }
  cases fate with
  | lockPoisoned msg => exact h.submitted_of_error pid tty _
  | accepted => exact hregistered rfl (Nat.le_succ _) fun id hok => (Except.ok.inj hok).symm
  | channelClosed msg => exact hregistered rfl (Nat.le_succ _) fun id hok => by cases hok

theorem Indexed.submittedUnique (h : r.Indexed) (pid : Pid) (tty : TaskType) (desc : String)
    (fate : Submission) : r.Submitted pid tty (r.submitUnique pid tty desc fate) := by
  unfold TaskRegistry.submitUnique
  split
  · exact h.submitted_of_error pid tty _
  · split
    · exact h.submitted_of_error pid tty _
    · exact h.submitted pid tty desc _

/-! ## Removal -/

/-- The removal of a record leaves its pid without an index. -/
theorem removeTask_of_some {id : TaskId} {t : TaskInfo} (ht : r.tasks id = some t) :
    (r.removeTask id).2 = { r with
      tasks := Function.update r.tasks id none
      pidIndex := Function.update r.pidIndex t.pid none } := by
  unfold removeTask
  simp only [ht]
  cases hidx : r.pidIndex t.pid with
  | none => simp [← hidx]
  | some ids => rfl

theorem removeTask_of_none {id : TaskId} (ht : r.tasks id = none) : (r.removeTask id).2 = r := by
  unfold removeTask
  simp only [ht]

theorem ids_removeTask {id : TaskId} {t : TaskInfo} (ht : r.tasks id = some t) (pid : Pid) :
    (r.removeTask id).2.ids pid = if pid = t.pid then [] else r.ids pid := by
  rw [removeTask_of_some ht]
  unfold ids
  split
  · rename_i h
    simp [h]
  · rename_i h
    simp [Function.update_of_ne h]

/-- The removal of a record keeps the index right exactly when it is the only record of
its pid. -/
theorem indexed_remove_iff (h : r.Indexed) {id : TaskId} {t : TaskInfo}
    (ht : r.tasks id = some t) : (r.removeTask id).2.Indexed ↔ r.ids t.pid = [id] := by
  have hmem : id ∈ r.ids t.pid := (h.mem_ids t.pid id).mpr ⟨t, ht, rfl⟩
  have htasks : (r.removeTask id).2.tasks = Function.update r.tasks id none := by
    rw [removeTask_of_some ht]
  constructor
  · intro h'
    have hall : ∀ id' ∈ r.ids t.pid, id' = id := by
      intro id' hid'
      by_contra hne
      obtain ⟨t', ht', hpid⟩ := (h.mem_ids t.pid id').mp hid'
      have hlost := (h'.mem_ids t.pid id').mpr
        ⟨t', by rw [htasks, Function.update_of_ne hne, ht'], hpid⟩
      rw [ids_removeTask ht, if_pos rfl] at hlost
      cases hlost
    have hrep := List.eq_replicate_of_mem hall
    have hle : (r.ids t.pid).length ≤ 1 := by
      rw [← List.nodup_replicate (a := id), ← hrep]
      exact h.nodup t.pid
    have hpos := List.length_pos_of_mem hmem
    rw [hrep, show (r.ids t.pid).length = 1 by omega]
    rfl
  · intro hids
    refine ⟨fun pid id' => ?_, fun pid => ?_, fun id' t' ht' => ?_⟩
    · have hold := h.mem_ids pid id'
      rw [ids_removeTask ht, htasks]
      by_cases hid : id' = id
      · subst hid
        by_cases hpid : pid = t.pid
        · simp [hpid]
        · simpa [hpid, ht, Ne.symm hpid] using hold
      · rw [Function.update_of_ne hid, ← hold]
        split
        · rename_i hpid
          simp [hpid, hids, hid]
        · rfl
    · rw [ids_removeTask ht]
      split
      · exact .nil
      · exact h.nodup pid
    · by_cases hid : id' = id
      · subst hid
        simp [htasks] at ht'
      · rw [htasks, Function.update_of_ne hid] at ht'
        rw [removeTask_of_some ht]
        exact h.lt_next id' t' ht'

/-! ## Sequences of operations -/

/-- A change of the registry. -/
inductive Op
  | register (pid : Pid) (tty : TaskType) (desc : String)
  | addHandle (id : TaskId) (handle : JoinHandle)
  | updateStatus (id : TaskId) (status : TaskStatus)
  | removeTask (id : TaskId)

/-- What is left of the registry when the operation gives an error is as it was. -/
def apply (r : TaskRegistry) : Op → TaskRegistry
  | .register pid tty desc =>
    let (id, r) := r.allocate
    r.registerTask id pid tty desc
  | .addHandle id handle =>
    match r.addHandle id handle with
    | .ok r' => r'
    | .error _ => r
  | .updateStatus id status =>
    match r.updateStatus id status with
    | .ok r' => r'
    | .error _ => r
  | .removeTask id => (r.removeTask id).2

def step (op : Op) (r : TaskRegistry) : Option TaskRegistry :=
  some (r.apply op)

/-- The registry once handles have been added to a record, one after the other. -/
theorem Indexed.addHandles {id : TaskId} : ∀ (handles : List JoinHandle) {r : TaskRegistry}
    {x : Record}, r.Indexed → r.record id = some x →
      let r' := handles.foldl (fun r handle => r.apply (.addHandle id handle)) r
      r'.Indexed ∧ r'.next = r.next ∧ ∀ id', r'.record id' =
        if id' = id then some { x with handles := x.handles ++ handles } else r.record id'
  | [], r, x, h, hx => by
    refine ⟨h, rfl, fun id' => ?_⟩
    split
    · rename_i hid
      simpa [hid] using hx
    · rfl
  | handle :: handles, r, x, h, hx => by
    obtain ⟨r₁, hadd, hnext, hrecord⟩ := record_addHandle handle hx
    have happly : r.apply (.addHandle id handle) = r₁ := by simp only [apply, hadd]
    have hx₁ := hrecord id
    rw [if_pos rfl] at hx₁
    obtain ⟨h', hnext', hrecord'⟩ := Indexed.addHandles handles (h.addHandle hadd) hx₁
    simp only [List.foldl_cons, happly]
    refine ⟨h', hnext'.trans hnext, fun id' => ?_⟩
    rw [hrecord', hrecord]
    split
    · simp
    · rfl

/-- A removal is of the only record of its pid. -/
def removesAlone (r : TaskRegistry) : Op → Bool
  | .removeTask id =>
    match r.tasks id with
    | some t => r.ids t.pid = [id]
    | none => true
  | _ => true

theorem indexed_apply_iff (h : r.Indexed) (op : Op) : (r.apply op).Indexed ↔ r.removesAlone op := by
  cases op with
  | register pid tty desc => exact iff_of_true (h.registerTask_allocate pid tty desc) rfl
  | addHandle id handle =>
    refine iff_of_true ?_ rfl
    unfold apply
    simp only
    split
    · exact h.addHandle ‹_›
    · exact h
  | updateStatus id status =>
    refine iff_of_true ?_ rfl
    unfold apply
    simp only
    split
    · exact h.updateStatus ‹_›
    · exact h
  | removeTask id =>
    unfold apply removesAlone
    simp only
    split
    · rename_i t ht
      rw [indexed_remove_iff h ht, decide_eq_true_eq]
    · rename_i ht
      rw [removeTask_of_none ht]
      exact iff_of_true h rfl

/-- The registry is consistent all along a sequence of operations exactly when each removal
is of the only record of its pid. -/
theorem consistent_iff (ops : List Op) : Runs.AllStates step Consistent ops new ↔
    Runs.AllSteps step (fun r op => r.removesAlone op) ops new := by
  refine Runs.allStates_iff (I := fun _ => True) (fun _ _ _ _ _ _ _ => trivial)
    (fun r r' op _ h hstep => ?_) trivial indexed_new.consistent
  obtain rfl := Option.some_inj.mp hstep
  rw [consistent_iff_indexed, indexed_apply_iff h.indexed]

/-- Two records of one pid, of which the first is removed. The search by pid does not find
the second. -/
theorem removal_loses_index :
    let r := ((new.apply (.register 4242 .logging "")).apply (.register 4242 .process "")).apply
      (.removeTask 1)
    r.getTasksByPid 4242 = [] ∧ (r.tasks 2).map (·.pid) = some 4242 ∧ ¬r.Consistent := by
  refine ⟨rfl, rfl, fun h => ?_⟩
  have hmem := (h.indexed.mem_ids 4242 2).mpr ⟨_, rfl, rfl⟩
  cases hmem

end TaskRegistry

end Yapm
