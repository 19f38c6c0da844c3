import Yapm.Config
import Yapm.TaskRegistry

/-!
# How often a process is restarted

The budget of restarts is the policy in the configuration of the registered process.
`LinuxCurrentTask.respawn` decides on a restart and takes one off the budget, and the
restart handler gives the changed configuration to the next instance (`handleExit`).
`afterExits` follows one name through exits, for as long as there is a process to exit,
with every spawn succeeding.

The budget is handed on and never reset (`config_afterExits`). But `respawn` refuses the
last restart of a budget : `Capped(n)` gives one restart less than `n`. The count is the
policy's exactly when the budget is empty from the start or not used up
(`accounted_iff`).
-/

namespace Yapm

/-- A registered process. Of the handle to it, the pid. -/
structure LinuxCurrentTask where
  config : ProcessConfig
  inner : Pid

/-- The decision on a restart, and the task with the budget that is left. -/
def LinuxCurrentTask.respawn (t : LinuxCurrentTask) : Bool × LinuxCurrentTask :=
  match t.config.restart with
  | .capped value =>
    if value ≤ 1 then (false, t)
    else (true, { t with config := { t.config with restart := .capped (value - 1) } })
  | .none => (false, t)
  | .infinite => (true, t)

/-- Entries by name. -/
abbrev ProcessRegistry (T : Type) := String → Option T

namespace ProcessRegistry

variable {T : Type}

def insert (r : ProcessRegistry T) (name : String) (t : T) : ProcessRegistry T :=
  Function.update r name (some t)

def remove (r : ProcessRegistry T) (name : String) : ProcessRegistry T :=
  Function.update r name none

variable {r : ProcessRegistry T} {name name' : String} {t t' : T}

@[simp] theorem insert_self : r.insert name t name = some t :=
  Function.update_self ..

theorem insert_of_ne (h : name' ≠ name) : r.insert name t name' = r name' :=
  Function.update_of_ne h ..

@[simp] theorem remove_self : r.remove name name = none :=
  Function.update_self ..

theorem remove_of_ne (h : name' ≠ name) : r.remove name name' = r name' :=
  Function.update_of_ne h ..

/-- A removal adds nothing. -/
theorem of_remove (h : r.remove name name' = some t) : r name' = some t := by
  by_cases hname : name' = name
  · subst hname
    simp at h
  · rwa [remove_of_ne hname] at h

/-- An insertion adds one entry. -/
theorem of_insert (h : r.insert name t name' = some t') :
    name' = name ∧ t' = t ∨ r name' = some t' := by
  by_cases hname : name' = name
  · subst hname
    rw [insert_self, Option.some_inj] at h
    exact .inl ⟨rfl, h.symm⟩
  · rw [insert_of_ne hname] at h
    exact .inr h

end ProcessRegistry

/-- The restart handler's work on a request, when the spawn succeeds and gives `pid`. It
panics when the name is not registered. The flag says whether there was a restart. -/
def handleExit (r : ProcessRegistry LinuxCurrentTask) (name : String) (pid : Pid) :
    Option (ProcessRegistry LinuxCurrentTask × Bool) :=
  match r name with
  | none => none
  | some details =>
    let r := r.remove name
    match details.respawn with
    | (false, _) => some (r.remove name, false)
    | (true, details) =>
      let config := details.config
      some (r.insert name ⟨config, pid⟩, true)

/-- A name through exits of its process. -/
structure Life where
  registry : ProcessRegistry LinuxCurrentTask
  exits : ℕ
  restarts : ℕ

/-- The process of the name exits, if there is one, and the handler serves the request. -/
def Life.exit (name : String) (pid : Pid) (l : Life) : Life :=
  match handleExit l.registry name pid with
  | none => l
  | some (registry, restarted) =>
    { registry, exits := l.exits + 1, restarts := l.restarts + restarted.toNat }

/-- The process is started with `config`, and then exits up to `k` times. `pids` are the
pids of the instances. -/
def afterExits (name : String) (config : ProcessConfig) (pids : ℕ → Pid) : ℕ → Life
  | 0 => ⟨ProcessRegistry.insert (fun _ => none) name ⟨config, pids 0⟩, 0, 0⟩
  | k + 1 => (afterExits name config pids k).exit name (pids (k + 1))

/-! ## What a policy promises -/

namespace RestartPolicy

/-- The restarts the policy promises for a number of exits. -/
def promised (exits : ℕ) : RestartPolicy → ℕ
  | none => 0
  | capped n => min n exits
  | infinite => exits

/-- The policy once some restarts are taken off its budget. -/
def after (restarts : ℕ) : RestartPolicy → RestartPolicy
  | none => none
  | capped n => capped (n - restarts)
  | infinite => infinite

/-- The restarts `respawn` grants for up to `k` exits. -/
def granted (k : ℕ) : RestartPolicy → ℕ
  | none => 0
  | capped n => min (n - 1) k
  | infinite => k

end RestartPolicy

variable (name : String) (config : ProcessConfig) (pids : ℕ → Pid)

/-- The restarts are as many as the policy promises, and a process that is registered has
what they left of the budget. -/
def Accounted (k : ℕ) : Prop :=
  let l := afterExits name config pids k
  l.restarts = config.restart.promised l.exits ∧
    ∀ t, l.registry name = some t →
      t.config = { config with restart := config.restart.after l.restarts }

/-! ## What `respawn` grants -/

namespace RestartPolicy

theorem granted_le (p : RestartPolicy) (k : ℕ) : p.granted k ≤ k := by
  cases p <;> simp [granted]

/-- A grant of every restart so far was a grant of every restart before. -/
theorem granted_of_succ {p : RestartPolicy} {k : ℕ} (h : p.granted (k + 1) = k + 1) :
    p.granted k = k := by
  cases p <;> simp only [granted] at h ⊢ <;> omega

/-- What a policy stops granting stays as it is. -/
theorem granted_succ_of_ne {p : RestartPolicy} {k : ℕ} (h : p.granted (k + 1) ≠ k + 1) :
    p.granted (k + 1) = p.granted k := by
  cases p <;> simp only [granted] at h ⊢ <;> omega

end RestartPolicy

/-- A granted restart takes one off the budget and changes nothing else. -/
theorem respawn_of_granted {t : LinuxCurrentTask} {k : ℕ}
    (ht : t.config = { config with restart := config.restart.after k })
    (hg : config.restart.granted (k + 1) = k + 1) :
    t.respawn =
      (true, ⟨{ config with restart := config.restart.after (k + 1) }, t.inner⟩) := by
  obtain ⟨_, pid⟩ := t
  subst ht
  cases hp : config.restart with
  | none => simp [hp, RestartPolicy.granted] at hg
  | infinite => rfl
  | capped n =>
    simp only [hp, RestartPolicy.granted] at hg
    have hlt : ¬n - k ≤ 1 := by omega
    simp [LinuxCurrentTask.respawn, RestartPolicy.after, hlt, Nat.sub_sub]

theorem respawn_of_not_granted {t : LinuxCurrentTask} {k : ℕ}
    (ht : t.config = { config with restart := config.restart.after k })
    (hg : config.restart.granted (k + 1) ≠ k + 1) : t.respawn = (false, t) := by
  obtain ⟨_, pid⟩ := t
  subst ht
  cases hp : config.restart with
  | none => rfl
  | infinite => simp [hp, RestartPolicy.granted] at hg
  | capped n =>
    simp only [hp, RestartPolicy.granted] at hg
    have hle : n - k ≤ 1 := by omega
    simp [LinuxCurrentTask.respawn, RestartPolicy.after, hle]

/-- While every restart is granted, the process is there and its configuration has the
budget that is left. -/
theorem afterExits_of_granted : ∀ {k : ℕ}, config.restart.granted k = k →
    let l := afterExits name config pids k
    l.registry name = some ⟨{ config with restart := config.restart.after k }, pids k⟩ ∧
      l.exits = k ∧ l.restarts = k
  | 0, _ => by
    refine ⟨?_, rfl, rfl⟩
    cases h : config.restart <;>
      simp [afterExits, ProcessRegistry.insert, RestartPolicy.after, ← h]
  | k + 1, hg => by
    obtain ⟨hreg, hexits, hrestarts⟩ :=
      afterExits_of_granted (RestartPolicy.granted_of_succ hg)
    have hrespawn := respawn_of_granted config (t := ⟨_, pids k⟩) rfl hg
    simp only [afterExits, Life.exit, handleExit, hreg, hrespawn]
    exact ⟨by simp [ProcessRegistry.insert], by omega, by simp [hrestarts]⟩

/-- Once a restart is refused, the name is dropped, after one exit more than there were
restarts. -/
theorem afterExits_of_refused : ∀ {k : ℕ}, config.restart.granted k ≠ k →
    let l := afterExits name config pids k
    l.registry name = none ∧ l.exits = config.restart.granted k + 1 ∧
      l.restarts = config.restart.granted k
  | 0, hg => absurd (Nat.le_zero.mp (RestartPolicy.granted_le _ 0)) hg
  | k + 1, hg => by
    rw [RestartPolicy.granted_succ_of_ne hg]
    by_cases hk : config.restart.granted k = k
    · obtain ⟨hreg, hexits, hrestarts⟩ := afterExits_of_granted name config pids hk
      have hrespawn := respawn_of_not_granted config (t := ⟨_, pids k⟩) rfl hg
      simp only [afterExits, Life.exit, handleExit, hreg, hrespawn]
      exact ⟨by simp [ProcessRegistry.remove], by omega, by simp [hrestarts, hk]⟩
    · obtain ⟨hreg, hexits, hrestarts⟩ := afterExits_of_refused hk
      simp only [afterExits, Life.exit, handleExit, hreg]
      exact ⟨trivial, hexits, hrestarts⟩

theorem restarts_afterExits (k : ℕ) :
    (afterExits name config pids k).restarts = config.restart.granted k := by
  by_cases hg : config.restart.granted k = k
  · rw [(afterExits_of_granted name config pids hg).2.2, hg]
  · exact (afterExits_of_refused name config pids hg).2.2

theorem exits_afterExits (k : ℕ) :
    (afterExits name config pids k).exits =
      if config.restart.granted k = k then k else config.restart.granted k + 1 := by
  split
  · exact (afterExits_of_granted name config pids ‹_›).2.1
  · exact (afterExits_of_refused name config pids ‹_›).2.1

/-- A registered process has the configuration it was started with, less the restarts. -/
theorem config_afterExits (k : ℕ) {t : LinuxCurrentTask}
    (ht : (afterExits name config pids k).registry name = some t) :
    t.config =
      { config with
        restart := config.restart.after (afterExits name config pids k).restarts } := by
  by_cases hg : config.restart.granted k = k
  · obtain ⟨hreg, -, hrestarts⟩ := afterExits_of_granted name config pids hg
    rw [hreg] at ht
    rw [hrestarts, ← Option.some_inj.mp ht]
  · rw [(afterExits_of_refused name config pids hg).1] at ht
    cases ht

/-- The restarts are those of the policy unless a budget that was not empty is used up. -/
theorem accounted_iff (k : ℕ) :
    Accounted name config pids k ↔ ∀ n, config.restart = .capped n → n = 0 ∨ k < n := by
  have hconfig := fun t => config_afterExits name config pids k (t := t)
  refine (and_iff_left hconfig).trans ?_
  rw [restarts_afterExits, exits_afterExits]
  cases config.restart with
  | none => simp [RestartPolicy.granted, RestartPolicy.promised]
  | infinite => simp [RestartPolicy.granted, RestartPolicy.promised]
  | capped n =>
    rw [show (∀ m, RestartPolicy.capped n = .capped m → m = 0 ∨ k < m) ↔ n = 0 ∨ k < n by simp]
    by_cases hg : (RestartPolicy.capped n).granted k = k
    · rw [if_pos hg]
      simp only [RestartPolicy.granted, RestartPolicy.promised] at hg ⊢
      omega
    · rw [if_neg hg]
      simp only [RestartPolicy.granted, RestartPolicy.promised] at hg ⊢
      omega

/-- A process that may be restarted once is not restarted when it exits. -/
theorem capped_one_never_restarts :
    let once := { plainConfig with restart := .capped 1 }
    let l := afterExits "db" once (fun i => 100 + i) 1
    l.exits = 1 ∧ l.restarts = 0 ∧ l.registry "db" = none ∧
      ¬Accounted "db" once (fun i => 100 + i) 1 := by
  refine ⟨rfl, rfl, rfl, fun h => ?_⟩
  cases h.1

end Yapm
