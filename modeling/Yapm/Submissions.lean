import Yapm.Manager
import Yapm.ProcessManager

/-!
# Calls on the task registry

A submission makes its record before it sends the task to the coordinator, and does not
take the record back when the send fails. So a submission that gives an error leaves the
registry as it was unless it found its channel closed (`failsClean_submitTask_iff`), and
then it leaves a running record that refuses the next one (`refused_of_closed`).

Whatever the calls and their order (`Submissions.run`), no pid has two monitoring tasks or
two metrics tasks, ids go up, and a kill changes the records of its own pid only
(`Submissions.unique_run`). No call takes a record away, so the ids in use fit in memory and
are numbers without a bound here.
-/

namespace Yapm

def Submission.isClosed : Submission → Bool
  | .channelClosed _ => true
  | _ => false

namespace TaskRegistry

variable {r r' : TaskRegistry} {tty tty' : TaskType} {pid pid' : Pid} {desc : String}
  {fate : Submission}

/-! ## A submission that fails -/

/-- A call that gives an error leaves both maps as they were. -/
def FailsClean (r : TaskRegistry) (call : Except AsyncError TaskId × TaskRegistry) : Prop :=
  ∀ e, call.1 = .error e → call.2.tasks = r.tasks ∧ call.2.pidIndex = r.pidIndex

/-- A duplicate is looked for among the records the index gives for the pid. -/
def isDuplicate (r : TaskRegistry) (tty : TaskType) (pid : Pid) : Bool :=
  tty ≠ .logging && (r.getTasksByPid pid).any (·.ty = tty)

theorem failsClean_of_eq {e : AsyncError} : r.FailsClean (.error e, r) :=
  fun _ _ => ⟨rfl, rfl⟩

/-- A new record makes the list of its pid longer. -/
theorem pidIndex_registerTask_ne (id : TaskId) :
    (r.registerTask id pid tty desc).pidIndex ≠ r.pidIndex := by
  intro h
  have hpid := congrFun h pid
  simp only [registerTask, Function.update_self] at hpid
  cases hidx : r.pidIndex pid with
  | none => simp [hidx] at hpid
  | some ids => simp [hidx] at hpid

theorem failsClean_submit_iff : r.FailsClean (r.submit pid tty desc fate) ↔
    fate.isClosed = false := by
  cases fate with
  | accepted => exact iff_of_true (fun e he => by cases he) rfl
  | lockPoisoned msg => exact iff_of_true failsClean_of_eq rfl
  | channelClosed msg =>
    refine iff_of_false (fun h => ?_) (by simp [Submission.isClosed])
    exact pidIndex_registerTask_ne (r := r.allocate.2) _ (h _ rfl).2

theorem failsClean_submitUnique_iff (htty : tty ≠ .logging) :
    r.FailsClean (r.submitUnique pid tty desc fate) ↔
      fate.isClosed = false ∨ r.isDuplicate tty pid = true := by
  have hdup : r.isDuplicate tty pid = (r.getTasksByPid pid).any (·.ty = tty) := by
    simp [isDuplicate, htty]
  unfold submitUnique
  split
  · exact iff_of_true failsClean_of_eq (.inl rfl)
  · split
    · rename_i hany
      exact iff_of_true failsClean_of_eq (.inr (hdup.trans hany))
    · rename_i hnot
      rw [failsClean_submit_iff, hdup, or_iff_left hnot]

/-- A submission that gives an error leaves the registry as it was when its channel is not
closed, or when it is refused as a duplicate before it makes a record. -/
theorem failsClean_submitTask_iff (r : TaskRegistry) (tty : TaskType) (pid : Pid)
    (desc : String) (fate : Submission) : r.FailsClean (r.submitTask tty pid desc fate) ↔
      fate.isClosed = false ∨ r.isDuplicate tty pid = true := by
  cases tty with
  | logging => exact failsClean_submit_iff.trans (by simp [isDuplicate])
  | metrics => exact failsClean_submitUnique_iff (by decide)
  | process => exact failsClean_submitUnique_iff (by decide)

/-- Nobody receives the task, and its record is running. -/
theorem closed_leaves_record :
    ¬new.FailsClean (new.submitTask .metrics 4242 "metrics" (.channelClosed "channel closed")) ∧
      (new.submitTask .metrics 4242 "metrics" (.channelClosed "channel closed")).1 =
        .error (.taskSendError "channel closed") ∧
      (new.submitTask .metrics 4242 "metrics" (.channelClosed "channel closed")).2.tasks 1 =
        some ⟨1, 4242, .metrics, [], .running, "metrics"⟩ := by
  refine ⟨fun h => ?_, rfl, rfl⟩
  have hidx := congrFun (h _ rfl).2 4242
  cases hidx

/-- After a submission that found its channel closed the next one of the type is refused. -/
theorem Indexed.refused_of_closed (h : r.Indexed) (htty : tty ≠ .logging) (desc' msg : String)
    (fate' : Submission) : ∃ e,
      ((r.submitTask tty pid desc (.channelClosed msg)).2.submitTask tty pid desc' fate') =
        (.error e, (r.submitTask tty pid desc (.channelClosed msg)).2) := by
  have hsub := h.submittedTask tty pid desc (.channelClosed msg)
  have hhas : (r.submitTask tty pid desc (.channelClosed msg)).2.Has pid tty := by
    rcases h.submitTask_cases tty pid desc (.channelClosed msg) with ⟨-, heq⟩ | ⟨hnot, e, heq⟩
    · rw [heq]
      exact ⟨r.next, _, by rw [record_submit pid tty desc rfl, if_pos rfl], rfl, rfl⟩
    · rw [heq]
      by_contra hno
      exact hnot ⟨rfl, fun hrefuses => hno hrefuses.2⟩
  rcases hsub.indexed.submitTask_cases tty pid desc' fate' with ⟨hreg, -⟩ | ⟨-, hrefused⟩
  · exact absurd ⟨htty, hhas⟩ hreg.2
  · exact hrefused

/-! ## Kinds of records -/

/-- The pid and the type of a record, which no call changes. -/
def kind (r : TaskRegistry) (id : TaskId) : Option (Pid × TaskType) :=
  (r.record id).map fun x => (x.pid, x.ty)

/-- The pid has no two records of the type. -/
def AtMostOne (r : TaskRegistry) (pid : Pid) (tty : TaskType) : Prop :=
  ∀ id id', r.kind id = some (pid, tty) → r.kind id' = some (pid, tty) → id = id'

theorem has_iff_kind : r.Has pid tty ↔ ∃ id, r.kind id = some (pid, tty) := by
  simp [Has, kind]

theorem AtMostOne.of_kind (h : r.AtMostOne pid tty) (hkind : r'.kind = r.kind) :
    r'.AtMostOne pid tty := by
  unfold AtMostOne
  rw [hkind]
  exact h

theorem Submitted.kind_cases {call : Except AsyncError TaskId × TaskRegistry}
    (h : r.Submitted pid tty call) {id : TaskId} (hid : call.2.kind id = some (pid', tty')) :
    r.kind id = some (pid', tty') ∨ id = r.next ∧ pid' = pid ∧ tty' = tty := by
  obtain ⟨x, hx, heq⟩ := Option.map_eq_some_iff.mp hid
  rcases h.new id x hx with hold | ⟨rfl, rfl⟩
  · exact .inl (by rw [kind, hold, ← heq]; rfl)
  · obtain ⟨rfl, rfl⟩ := Prod.mk.inj heq
    exact .inr ⟨rfl, rfl, rfl⟩

/-- The check for duplicates sees all records of the pid, so a submission makes no second
one. -/
theorem Indexed.atMostOne_submitTask (h : r.Indexed) (htty : tty' ≠ .logging)
    (hone : r.AtMostOne pid' tty') :
    (r.submitTask tty pid desc fate).2.AtMostOne pid' tty' := by
  rcases h.submitTask_cases tty pid desc fate with ⟨hreg, -⟩ | ⟨-, e, heq⟩
  · have hsub := h.submittedTask tty pid desc fate
    -- A new record of the kind is the first one.
    have hfirst {id : TaskId} (hold : r.kind id = some (pid', tty'))
        (hnew : pid' = pid ∧ tty' = tty) : False := by
      obtain ⟨rfl, rfl⟩ := hnew
      exact hreg.2 ⟨htty, has_iff_kind.mpr ⟨id, hold⟩⟩
    intro id id' hid hid'
    rcases hsub.kind_cases hid with hold | ⟨hnext, hnew⟩
    · rcases hsub.kind_cases hid' with hold' | ⟨-, hnew'⟩
      · exact hone id id' hold hold'
      · exact (hfirst hold hnew').elim
    · rcases hsub.kind_cases hid' with hold' | ⟨hnext', -⟩
      · exact (hfirst hold' hnew).elim
      · rw [hnext, hnext']
  · rw [heq]
    exact hone

/-- A call that makes no record. -/
structure SameKinds (r r' : TaskRegistry) : Prop where
  indexed : r'.Indexed
  kind : r'.kind = r.kind
  next : r'.next = r.next

theorem Indexed.sameKinds (h : r.Indexed) : r.SameKinds r :=
  ⟨h, rfl, rfl⟩

theorem kind_eq_of_record (h : r'.record = r.record) : r'.kind = r.kind := by
  funext id
  rw [kind, kind, h]

theorem Indexed.sameKinds_killTasksByPid (h : r.Indexed) (pid : Pid) :
    r.SameKinds (r.killTasksByPid pid).2 where
  indexed := h.killTasksByPid pid
  kind := kind_eq_of_record (record_killTasksByPid pid)
  next := next_killTasksByPid pid

theorem Indexed.sameKinds_killRuntime (h : r.Indexed) : r.SameKinds r.killRuntime.2 where
  indexed := h.killRuntime
  kind := by
    funext id
    simp [kind, record, TaskRegistry.killRuntime, Function.comp_def]
  next := rfl

theorem Indexed.sameKinds_addHandle (h : r.Indexed) (id : TaskId) (handle : JoinHandle) :
    r.SameKinds (r.apply (.addHandle id handle)) := by
  cases hx : r.record id with
  | none =>
    have ht : r.tasks id = none := Option.map_eq_none_iff.mp hx
    have happly : r.apply (.addHandle id handle) = r := by
      simp only [apply, TaskRegistry.addHandle, ht]
    rw [happly]
    exact h.sameKinds
  | some x =>
    obtain ⟨r', hadd, hnext, hrecord⟩ := record_addHandle handle hx
    have happly : r.apply (.addHandle id handle) = r' := by simp only [apply, hadd]
    rw [happly]
    refine ⟨h.addHandle hadd, funext fun id' => ?_, hnext⟩
    rw [kind, hrecord]
    split
    · rename_i hid
      rw [hid, kind, hx]
      rfl
    · rfl

theorem Indexed.sameKinds_updateStatus (h : r.Indexed) (id : TaskId) (status : TaskStatus) :
    r.SameKinds (r.apply (.updateStatus id status)) := by
  simp only [apply]
  split
  · rename_i r' hr
    exact ⟨h.updateStatus hr, kind_eq_of_record (record_updateStatus hr), next_updateStatus hr⟩
  · exact h.sameKinds

/-- A kill leaves alone what is not a record of its pid. -/
theorem Indexed.tasks_killTasksByPid (h : r.Indexed) {id : TaskId}
    (hid : ∀ t, r.tasks id = some t → t.pid ≠ pid) :
    (r.killTasksByPid pid).2.tasks id = r.tasks id := by
  unfold TaskRegistry.killTasksByPid
  cases hidx : r.pidIndex pid with
  | none => rfl
  | some tids =>
    have hnot : id ∉ tids := by
      intro hmem
      obtain ⟨t, ht, hpid⟩ := (h.mem_ids pid id).mp (by rw [ids, hidx]; exact hmem)
      exact hid t ht hpid
    simp only [if_neg hnot]

end TaskRegistry

/-! ## Runs -/

/-- The registry, and the ids the submissions have returned so far. -/
structure Submissions where
  treg : TaskRegistry
  returned : List TaskId

namespace Submissions

/-- A call that takes the lock of the registry. A submission is one of the three, by the
type of its task. -/
inductive Call
  | submit (tty : TaskType) (pid : Pid) (desc : String) (fate : Submission)
  | killTasksByPid (pid : Pid) (poisoned : Bool)
  | killRuntime (poisoned : Bool)
  | addHandle (id : TaskId) (handle : JoinHandle)
  | updateStatus (id : TaskId) (status : TaskStatus)
deriving DecidableEq, Repr

def new : Submissions where
  treg := .new
  returned := []

/-- A call that finds the lock poisoned does nothing. -/
def apply (s : Submissions) : Call → Submissions
  | .submit tty pid desc fate =>
    let call := s.treg.submitTask tty pid desc fate
    { treg := call.2, returned := s.returned ++ call.1.toOption.toList }
  | .killTasksByPid pid poisoned =>
    { s with treg := if poisoned then s.treg else (s.treg.killTasksByPid pid).2 }
  | .killRuntime poisoned => { s with treg := if poisoned then s.treg else s.treg.killRuntime.2 }
  | .addHandle id handle => { s with treg := s.treg.apply (.addHandle id handle) }
  | .updateStatus id status => { s with treg := s.treg.apply (.updateStatus id status) }

/-- The calls in the order in which they get the lock. -/
def run (calls : List Call) : Submissions :=
  calls.foldl apply new

structure Inv (s : Submissions) : Prop where
  indexed : s.treg.Indexed
  once : ∀ pid tty, tty ≠ .logging → s.treg.AtMostOne pid tty
  increasing : s.returned.Pairwise (· < ·)
  lt_next : ∀ id ∈ s.returned, id < s.treg.next

theorem inv_new : new.Inv where
  indexed := TaskRegistry.indexed_new
  once pid tty _ id id' hid := by cases hid
  increasing := .nil
  lt_next id hid := by cases hid

variable {s : Submissions}

theorem Inv.of_sameKinds (h : s.Inv) {treg : TaskRegistry} (hsame : s.treg.SameKinds treg) :
    Inv { s with treg } where
  indexed := hsame.indexed
  once pid tty htty := (h.once pid tty htty).of_kind hsame.kind
  increasing := h.increasing
  lt_next id hid := by
    rw [hsame.next]
    exact h.lt_next id hid

/-- An id that is returned is the next one, above all before it. -/
theorem Inv.submit (h : s.Inv) (tty : TaskType) (pid : Pid) (desc : String)
    (fate : Submission) : (s.apply (.submit tty pid desc fate)).Inv := by
  have hsub := h.indexed.submittedTask tty pid desc fate
  have hnew (id : TaskId) (hid : id ∈ (s.treg.submitTask tty pid desc fate).1.toOption.toList) :
      id = s.treg.next ∧ id < (s.treg.submitTask tty pid desc fate).2.next := by
    cases hcall : (s.treg.submitTask tty pid desc fate).1 with
    | error e => simp [hcall, Except.toOption] at hid
    | ok id' =>
      rw [hcall] at hid
      obtain rfl := List.mem_singleton.mp hid
      obtain ⟨hnext, hrecord⟩ := hsub.ok id hcall
      exact ⟨hnext, hsub.indexed.lt_of_record hrecord⟩
  refine ⟨hsub.indexed, fun pid' tty' htty =>
    h.indexed.atMostOne_submitTask htty (h.once pid' tty' htty), ?_, fun id hid => ?_⟩
  · refine List.pairwise_append.mpr ⟨h.increasing, ?_, fun id hid id' hid' => ?_⟩
    · cases (s.treg.submitTask tty pid desc fate).1.toOption <;> simp
    · rw [(hnew id' hid').1]
      exact h.lt_next id hid
  · rcases List.mem_append.mp hid with hold | hid
    · exact (h.lt_next id hold).trans_le hsub.next
    · exact (hnew id hid).2

/-- A call is a submission or makes no record. -/
theorem apply_cases (h : s.treg.Indexed) (call : Call) :
    (∃ tty pid desc fate, call = .submit tty pid desc fate) ∨
      ∃ treg, s.treg.SameKinds treg ∧ s.apply call = { s with treg } := by
  cases call with
  | submit tty pid desc fate => exact .inl ⟨tty, pid, desc, fate, rfl⟩
  | killTasksByPid pid poisoned =>
    cases poisoned with
    | true => exact .inr ⟨_, h.sameKinds, rfl⟩
    | false => exact .inr ⟨_, h.sameKinds_killTasksByPid pid, rfl⟩
  | killRuntime poisoned =>
    cases poisoned with
    | true => exact .inr ⟨_, h.sameKinds, rfl⟩
    | false => exact .inr ⟨_, h.sameKinds_killRuntime, rfl⟩
  | addHandle id handle => exact .inr ⟨_, h.sameKinds_addHandle id handle, rfl⟩
  | updateStatus id status => exact .inr ⟨_, h.sameKinds_updateStatus id status, rfl⟩

theorem Inv.apply (h : s.Inv) (call : Call) : (s.apply call).Inv := by
  rcases apply_cases h.indexed call with ⟨tty, pid, desc, fate, rfl⟩ | ⟨treg, hsame, heq⟩
  · exact h.submit tty pid desc fate
  · rw [heq]
    exact h.of_sameKinds hsame

theorem inv_run (calls : List Call) : (run calls).Inv :=
  List.foldlRecOn calls Submissions.apply inv_new fun _ h call _ => h.apply call

/-- Every record is of an id that was returned, so its task was sent. -/
def HandedOver (s : Submissions) : Prop :=
  ∀ id, s.treg.kind id ≠ none → id ∈ s.returned

def Call.findsClosed : Call → Bool
  | .submit _ _ _ fate => fate.isClosed
  | _ => false

theorem HandedOver.of_sameKinds (h : s.HandedOver) {treg : TaskRegistry}
    (hsame : s.treg.SameKinds treg) : HandedOver { s with treg } := by
  intro id hid
  rw [hsame.kind] at hid
  exact h id hid

theorem HandedOver.submit (h : s.HandedOver) (hi : s.Inv) (tty : TaskType) (pid : Pid)
    (desc : String) {fate : Submission} (hopen : fate.isClosed = false) :
    (s.apply (.submit tty pid desc fate)).HandedOver := by
  intro id hid
  refine List.mem_append.mpr ?_
  rcases hi.indexed.submitTask_cases tty pid desc fate with ⟨hreg, heq⟩ | ⟨-, e, heq⟩
  · obtain ⟨⟨pid', tty'⟩, hkind⟩ := Option.ne_none_iff_exists'.mp hid
    rcases (hi.indexed.submittedTask tty pid desc fate).kind_cases hkind with hold | ⟨rfl, -⟩
    · exact .inl (h id (by simp [hold]))
    · rw [heq]
      cases fate with
      | accepted => exact .inr (List.mem_singleton.mpr rfl)
      | lockPoisoned msg => cases hreg.1
      | channelClosed msg => cases hopen
  · simp only [apply, heq] at hid
    exact .inl (h id hid)

theorem HandedOver.apply (h : s.HandedOver) (hi : s.Inv) {call : Call}
    (hopen : call.findsClosed = false) : (s.apply call).HandedOver := by
  rcases apply_cases hi.indexed call with ⟨tty, pid, desc, fate, rfl⟩ | ⟨treg, hsame, heq⟩
  · exact h.submit hi tty pid desc hopen
  · rw [heq]
    exact h.of_sameKinds hsame

/-- While no submission finds its channel closed, no record is left of a task that was not
sent. -/
theorem handedOver_run {calls : List Call} (hopen : ∀ call ∈ calls, call.findsClosed = false) :
    (run calls).HandedOver := by
  have hrun : (run calls).Inv ∧ (run calls).HandedOver :=
    List.foldlRecOn (motive := fun s => s.Inv ∧ s.HandedOver) calls Submissions.apply
      ⟨inv_new, fun id hid => (hid rfl).elim⟩
      fun _ ⟨hi, h⟩ call hcall => ⟨hi.apply call, h.apply hi (hopen call hcall)⟩
  exact hrun.2

/-- After any calls no pid has two monitoring or two metrics tasks, the ids returned went
up, and a kill leaves alone all that is not of its pid. -/
theorem unique_run (calls : List Call) :
    (∀ pid, (run calls).treg.AtMostOne pid .process ∧ (run calls).treg.AtMostOne pid .metrics) ∧
      (run calls).returned.Pairwise (· < ·) ∧
      ∀ pid id, (∀ t, (run calls).treg.tasks id = some t → t.pid ≠ pid) →
        ((run calls).treg.killTasksByPid pid).2.tasks id = (run calls).treg.tasks id := by
  have h := inv_run calls
  refine ⟨fun pid => ⟨h.once pid .process (by decide), h.once pid .metrics (by decide)⟩,
    h.increasing, fun pid id hid => h.indexed.tasks_killTasksByPid hid⟩

end Submissions

end Yapm
