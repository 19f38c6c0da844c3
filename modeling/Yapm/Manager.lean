import Yapm.Effects

/-!
# Stopping everything

`Manager` is the daemon with its calls of `stop_all`. Such a call aborts the tasks whose
handles are recorded, and then walks the registry and kills the process of each entry. The
walk is not one step. It visits an entry at most once, and every entry that is in the
registry all the while.

What the daemon keeps (`Inv`), a manager keeps too (`Manager.inv_of_reachable`).
-/

namespace Yapm

/-! ## Operations -/

/-- Abort every task and forget the handles. -/
def TaskRegistry.killRuntime (r : TaskRegistry) : List JoinHandle × TaskRegistry :=
  ((List.range r.next).flatMap fun id => ((r.tasks id).map (·.handles)).getD [],
    { r with tasks := fun id => (r.tasks id).map ({ · with handles := [] }) })

/-- `kill_runtime`, which does nothing when its lock is poisoned. -/
def State.killRuntime (s : State) (poisoned : Bool) : State :=
  if poisoned then s
  else
    let (handles, treg) := s.treg.killRuntime
    { s with treg, procs := s.procs.map (·.abort handles) }

inductive StopAllResult
  | success (msg : String)
  | error (msg : String)
deriving DecidableEq, Repr

/-- A call of `stop_all`. The walk began with `entries` in the registry, has visited the
entries of `visited` and failed to kill those of `failures`. -/
inductive StopAllCall
  | killing
  | walking (entries : ProcessRegistry Entry) (visited failures : List String)
  | returned (r : StopAllResult)

/-- The daemon and its calls of `stop_all`. -/
structure Manager where
  daemon : State
  stopAlls : ℕ → Option StopAllCall

namespace Manager

def init : Manager where
  daemon := .init
  stopAlls _ := none

def setStopAll (s : Manager) (i : ℕ) (k : StopAllCall) : Manager :=
  { s with stopAlls := Function.update s.stopAlls i (some k) }

/-- A client calls `stop_all`. -/
def stopAll (s : Manager) (i : ℕ) : Option Manager :=
  match s.stopAlls i with
  | none => some (s.setStopAll i .killing)
  | some _ => none

def killRuntime (s : Manager) (i : ℕ) (poisoned : Bool) : Option Manager :=
  match s.stopAlls i with
  | some .killing => some ({ s with daemon := s.daemon.killRuntime poisoned }.setStopAll i
    (.walking s.daemon.registry [] []))
  | _ => none

/-- The walk comes to the entry of the name. -/
def visit (s : Manager) (i : ℕ) (name : String) : Option Manager :=
  match s.stopAlls i, s.daemon.registry name with
  | some (.walking entries visited failures), some e =>
    if name ∈ visited then none
    else
      let pid := e.task.inner
      let failure := "Failed to kill process with pid: " ++ toString pid ++ ": " ++
        (LinuxErrorManager.ofErrno ⟨esrch, "ESRCH: No such process"⟩).display
      some ({ s with daemon := s.daemon.sigkill pid }.setStopAll i (.walking entries
        (visited ++ [name]) (if s.daemon.pidTaken pid then failures else failures ++ [failure])))
  | _, _ => none

/-- The entry of the name was in the registry all the while, and has not been visited. -/
def overlooked (s : State) (entries : ProcessRegistry Entry) (visited : List String)
    (name : String) : Bool :=
  match s.registry name, entries name with
  | some e, some e' => e.proc = e'.proc && name ∉ visited
  | _, _ => false

/-- The walk ends. Every registered name is one of a process. -/
def finish (s : Manager) (i : ℕ) : Option Manager :=
  match s.stopAlls i with
  | some (.walking entries visited failures) =>
    if s.daemon.procs.any (overlooked s.daemon entries visited ·.name) then none
    else some (s.setStopAll i (.returned (if failures.isEmpty
      then .success "All tasks have been terminated" else .error ("; ".intercalate failures))))
  | _ => none

/-! ## Steps -/

inductive Action
  | daemon (a : Yapm.Action)
  | stopAll (i : ℕ)
  | killRuntime (i : ℕ) (poisoned : Bool)
  | visit (i : ℕ) (name : String)
  | finish (i : ℕ)

def step : Action → Manager → Option Manager
  | .daemon a, s => (Yapm.step a s.daemon).map ({ s with daemon := · })
  | .stopAll i, s => s.stopAll i
  | .killRuntime i poisoned, s => s.killRuntime i poisoned
  | .visit i name, s => s.visit i name
  | .finish i, s => s.finish i

/-- The managers runs reach by steps that meet a condition. -/
abbrev Reachable (C : Manager → Action → Prop) (s : Manager) : Prop :=
  Runs.Reach step .init C s

def daemonSteps (as : List Yapm.Action) : List Action :=
  as.map .daemon

/-! ## What a step can do -/

/-- What a step does to a manager. -/
inductive Change (s : Manager) : Action → Manager → Prop
  | daemon {a : Yapm.Action} {d : State} (h : Yapm.step a s.daemon = some d) :
      Change s (.daemon a) { s with daemon := d }
  | called {i : ℕ} (hi : s.stopAlls i = none) : Change s (.stopAll i) (s.setStopAll i .killing)
  | killed {i : ℕ} {poisoned : Bool} (hi : s.stopAlls i = some .killing) :
      Change s (.killRuntime i poisoned) ({ s with
        daemon := s.daemon.killRuntime poisoned }.setStopAll i (.walking s.daemon.registry [] []))
  | visited {i : ℕ} {name : String} {entries : ProcessRegistry Entry}
      {visited failures failures' : List String} {e : Entry}
      (hi : s.stopAlls i = some (.walking entries visited failures))
      (he : s.daemon.registry name = some e) : Change s (.visit i name) ({ s with
        daemon := s.daemon.sigkill e.task.inner }.setStopAll i
          (.walking entries (visited ++ [name]) failures'))
  | finished {i : ℕ} {entries : ProcessRegistry Entry} {visited failures : List String}
      {r : StopAllResult} (hi : s.stopAlls i = some (.walking entries visited failures))
      (hall : ∀ p ∈ s.daemon.procs, overlooked s.daemon entries visited p.name = false) :
      Change s (.finish i) (s.setStopAll i (.returned r))

variable {s s' : Manager} {a : Action}

theorem change_of_step (h : step a s = some s') : s.Change a s' := by
  cases a with
  | daemon a =>
    obtain ⟨d, hd, rfl⟩ := Option.map_eq_some_iff.mp h
    exact .daemon hd
  | stopAll i =>
    simp only [step, stopAll] at h
    split at h
    · obtain rfl := Option.some_inj.mp h
      exact .called ‹_›
    · cases h
  | killRuntime i poisoned =>
    simp only [step, killRuntime] at h
    split at h
    · obtain rfl := Option.some_inj.mp h
      exact .killed ‹_›
    · cases h
  | visit i name =>
    simp only [step, visit] at h
    split at h
    · obtain ⟨-, h⟩ := Option.ite_none_left_eq_some.mp h
      obtain rfl := Option.some_inj.mp h
      exact .visited ‹_› ‹_›
    · cases h
  | finish i =>
    simp only [step, finish] at h
    split at h
    · obtain ⟨hall, h⟩ := Option.ite_none_left_eq_some.mp h
      obtain rfl := Option.some_inj.mp h
      exact .finished ‹_› (by simpa using hall)
    · cases h

end Manager

/-! ## What the daemon keeps -/

theorem TaskRegistry.Ok.killRuntime {r : TaskRegistry} (h : r.Ok) : r.killRuntime.2.Ok := by
  refine h.of_tasks fun id t ht => ?_
  obtain ⟨t₀, ht₀, rfl⟩ := Option.map_eq_some_iff.mp ht
  exact ⟨t₀, ht₀, rfl⟩

theorem TaskRegistry.Indexed.killRuntime {r : TaskRegistry} (h : r.Indexed) :
    r.killRuntime.2.Indexed :=
  h.of_tasks fun pid id => by simp

theorem State.Evolves.killRuntime (x : Option ProcId) (s : State) (poisoned : Bool) :
    s.Evolves x (s.killRuntime poisoned) := by
  unfold State.killRuntime
  split
  · exact .of_procs_eq rfl id
  · exact
      { length := List.length_map _
        procs := fun c p hp => ⟨p.abort s.treg.killRuntime.1, by simp [hp], .abort x c p _⟩
        treg := fun ht => ht.killRuntime }

theorem State.keeps_killRuntime (s : State) (poisoned : Bool) :
    s.Keeps (s.killRuntime poisoned) := by
  unfold State.killRuntime
  split <;> exact ⟨rfl, rfl, rfl, rfl⟩

namespace Manager

variable {s s' : Manager} {a : Action} {C : Manager → Action → Prop}

/-- A step of `stop_all` changes processes and records of the daemon only. -/
theorem evolves_of_step (h : step a s = some s') (ha : ∀ b, a ≠ .daemon b) :
    s.daemon.Evolves none s'.daemon ∧ s.daemon.Keeps s'.daemon := by
  cases change_of_step h with
  | daemon hd => exact absurd rfl (ha _)
  | called hi => exact ⟨.of_eq rfl rfl, rfl, rfl, rfl, rfl⟩
  | killed hi => exact ⟨.killRuntime none _ _, State.keeps_killRuntime _ _⟩
  | visited hi he => exact ⟨.sigkill none _ _, rfl, rfl, rfl, rfl⟩
  | finished hi hall => exact ⟨.of_eq rfl rfl, rfl, rfl, rfl, rfl⟩

/-- The daemon's processes and records are in order. -/
def Inv (s : Manager) : Prop :=
  Yapm.Inv s.daemon ∧ s.daemon.treg.Indexed

theorem Inv.step (hi : s.Inv) (h : Manager.step a s = some s') : s'.Inv := by
  obtain ⟨hi, hx⟩ := hi
  cases change_of_step h with
  | daemon hd => exact ⟨hi.step hd, (effect_of_step hi.ok hx hd).records.indexed⟩
  | called hi' => exact ⟨hi, hx⟩
  | finished hi' hall => exact ⟨hi, hx⟩
  | killed hi' =>
    refine ⟨.of_keeps (.killRuntime none _ _) hi (State.keeps_killRuntime _ _), ?_⟩
    simp only [setStopAll, State.killRuntime]
    split
    · exact hx
    · exact hx.killRuntime
  | visited hi' he => exact ⟨.of_keeps (.sigkill none _ _) hi ⟨rfl, rfl, rfl, rfl⟩, hx⟩

theorem inv_of_reachable (h : Reachable C s) : s.Inv :=
  h.invariant ⟨.init, TaskRegistry.indexed_new⟩ fun _ _ _ hi _ hs => hi.step hs

end Manager

end Yapm
