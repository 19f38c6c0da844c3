import Yapm.Spawn

/-!
# What the parent knows of its child

`create_child_exec_context_from_config` makes a channel for the outcome of `execvpe`, but
the child sends on the copy of it that is in its own memory, and the parent does not
receive. So the parent takes the same way out whatever happens in the child
(`parent_ignores_child`).

`spawn_cases` says how the function ends. The parent tells the truth about its child
exactly when the child runs its program or the parent has an error of its own
(`reportsReal_iff`).
-/

open Calls

namespace Yapm

/-! ## How the function ends -/

/-- A stream of the parent cannot be made non-blocking : an `fcntl` on it fails, and the
runtime has not refused a stream before. -/
def Os.FailsStream (os : Os) : Prop :=
  os.parentFails 3 ≠ none ∨ os.parentFails 4 ≠ none ∨
    os.parentFails 5 = none ∧ (os.parentFails 6 ≠ none ∨ os.parentFails 7 ≠ none)

/-- No call of the parent fails after the fork. -/
def Os.TakesStreams (os : Os) : Prop :=
  os.parentFails 3 = none ∧ os.parentFails 4 = none ∧ os.parentFails 5 = none ∧
    os.parentFails 6 = none ∧ os.parentFails 7 = none ∧ os.parentFails 8 = none

/-- The parent has an error to return. -/
def Os.ParentErrs (os : Os) : Prop :=
  ¬os.Forks ∨ os.FailsStream

variable (os : Os) (config : ProcessConfig) (child : Pid) (m : Machine)

/-- After the fork the parent returns the child, or returns an error, or is gone. -/
theorem parentBranch_cases :
    os.TakesStreams ∧ (os.parent.run setup.length parentBranch m).1 = none ∨
      os.FailsStream ∧
        (∃ e, (os.parent.run setup.length parentBranch m).1 = some (.error e)) ∨
      os.RefusesStream ∧
        ∃ msg, (os.parent.run setup.length parentBranch m).1 = some (.panic msg) := by
  simp only [parentBranch, managedStream, List.cons_append, List.nil_append, System.run, Os.parent,
    setup, List.length_cons, List.length_nil, SysCall.outcome, Os.TakesStreams, Os.FailsStream,
    Os.RefusesStream]
  cases os.parentFails 3 <;> cases os.parentFails 4 <;> cases os.parentFails 5 <;>
    cases os.parentFails 6 <;> cases os.parentFails 7 <;> cases os.parentFails 8 <;>
    simp [SysCall.failure]

theorem not_failsStream_of_takes (h : os.TakesStreams) : ¬os.FailsStream := by
  obtain ⟨h3, h4, h5, h6, h7, h8⟩ := h
  simp [Os.FailsStream, h3, h4, h6, h7]

theorem not_failsStream_of_refuses (h : os.RefusesStream) : ¬os.FailsStream := by
  obtain ⟨h3, h4, h5 | ⟨h6, h7, h8⟩⟩ := h
  · simp [Os.FailsStream, h3, h4, h5]
  · simp [Os.FailsStream, h3, h4, h6, h7]

theorem not_refusesStream_of_takes (h : os.TakesStreams) : ¬os.RefusesStream := by
  obtain ⟨h3, h4, h5, h6, h7, h8⟩ := h
  simp [Os.RefusesStream, h5, h8]

/-- How the child leaves the function, once there is one. -/
def Os.childExit : Exit :=
  .ofRun .replaced (os.child.run setup.length (childBranch os config) m).1

/-- How the function ends. -/
inductive SpawnCase : Spawned → Prop
  | notForked {e : LinuxErrorManager} {m : Machine} (hforks : ¬os.Forks) :
      SpawnCase ⟨.returned (.error e), none, m⟩
  | started {m' : Machine} (hforks : os.Forks) (htakes : os.TakesStreams) :
      SpawnCase ⟨.returned (.ok child), some (os.childExit config m), m'⟩
  | lost {e : LinuxErrorManager} {m' : Machine} (hforks : os.Forks) (hfails : os.FailsStream) :
      SpawnCase ⟨.returned (.error e), some (os.childExit config m), m'⟩
  | aborted {msg : String} {m' : Machine} (hforks : os.Forks) (hrefuses : os.RefusesStream) :
      SpawnCase ⟨.aborted msg, some (os.childExit config m), m'⟩

theorem spawn_cases :
    SpawnCase os config child m (createChildExecContextFromConfig os config child m) := by
  rcases setup_run os m with ⟨hrun, hforks⟩ | ⟨⟨e, hrun⟩, hforks⟩
  · simp only [createChildExecContextFromConfig, hrun]
    rcases parentBranch_cases os m with ⟨htakes, h⟩ | ⟨hfails, e, h⟩ | ⟨hrefuses, msg, h⟩
    · rw [h]
      exact .started hforks htakes
    · rw [h]
      exact .lost hforks hfails
    · rw [h]
      exact .aborted hforks hrefuses
  · simp only [createChildExecContextFromConfig, hrun]
    exact .notForked hforks

/-- What happens in the child makes no difference to the parent. -/
theorem parent_ignores_child (config' : ProcessConfig) (childFails : ℕ → Option OsError) :
    (createChildExecContextFromConfig { os with childFails } config' child m).parent =
      (createChildExecContextFromConfig os config child m).parent := by
  have hparent : Os.parent { os with childFails } = os.parent := rfl
  simp only [createChildExecContextFromConfig, hparent]
  rcases os.parent.run 0 setup m with ⟨_ | f, m'⟩ <;> rfl

/-! ## Whether the child runs its program -/

/-- No call of the child fails : every call `?` follows succeeds, every variable of the daemon
that is read is Unicode, no string has a nul byte, and so does `execvpe`, which is the last
call. -/
structure Os.Replaces (os : Os) (config : ProcessConfig) : Prop where
  confine : ∀ k < (confine os config).length, os.childFails (setup.length + k) = none
  command : hasNul config.command = false
  vars : Unicode os.environ
  env : ((config.env ∪ .collect os.vars).any fun k v => hasNul (k ++ "=" ++ v)) = false
  args : ∀ arg ∈ config.args, hasNul arg = false
  execvpe : os.childFails (setup.length + (Yapm.confine os config).length + 3 +
    config.args.length) = none

theorem cstring_outcome (i : ℕ) (s : String) :
    os.child.outcome i (.cstring s) = none ↔ hasNul s = false := by
  simp [os.child_outcome, SysCall.outcome]

theorem vars_outcome (i : ℕ) (environ : List (List UInt8)) :
    os.child.outcome i (.vars environ) = none ↔ Unicode environ := by
  rw [← exists_envVars_iff, os.child_outcome, SysCall.outcome]
  cases envVars environ <;> simp [Except.isOk, Except.toBool]

theorem serves_childBranch_iff :
    os.child.Serves setup.length (childBranch os config) ↔ os.Replaces config := by
  have hargs (i : ℕ) : os.child.Serves i (config.args.map .cstring) ↔
      ∀ arg ∈ config.args, hasNul arg = false := by
    rw [System.serves_iff_forall_mem (P := fun c => ∀ s, c = .cstring s → hasNul s = false)]
    · simp
    · intro c hc k
      obtain ⟨arg, -, rfl⟩ := List.mem_map.mp hc
      simp [cstring_outcome]
  simp only [childBranch, replace, System.serves_append, serves_confine_iff, hargs, System.Serves,
    cstring_outcome, vars_outcome, and_true]
  simp only [os.child_outcome, SysCall.outcome, List.length_cons, List.length_nil,
    List.length_append, List.length_map, ite_eq_right_iff, Option.map_eq_none_iff]
  constructor
  · rintro ⟨hconfine, ⟨⟨hcommand, hvars, henv⟩, hargs⟩, hexec⟩
    exact ⟨hconfine, hcommand, hvars, by simpa using henv, hargs,
      by simpa [Nat.add_assoc] using hexec⟩
  · intro h
    exact ⟨h.confine, ⟨⟨h.command, h.vars, by simp [h.env]⟩, h.args⟩,
      by simpa [Nat.add_assoc] using h.execvpe⟩

theorem childExit_eq_replaced_iff : os.childExit config m = .replaced ↔ os.Replaces config := by
  rw [← serves_childBranch_iff, ← System.run_eq_none_iff _ _ _ m, Os.childExit]
  rcases (os.child.run setup.length (childBranch os config) m).1 with _ | _ | _ <;>
    simp [Exit.ofRun, Exit.ofFailure]

/-- The parent has a child only if the child runs its program, and an error otherwise. -/
def Spawned.ReportsReal (s : Spawned) : Prop :=
  (∀ pid, s.parent = .returned (.ok pid) → s.child = some .replaced) ∧
    (s.child ≠ some .replaced → ∃ e, s.parent = .returned (.error e))

/-- The parent tells the truth exactly when it has an error of its own to return, or no
call of the child fails. -/
theorem reportsReal_iff :
    (createChildExecContextFromConfig os config child m).ReportsReal ↔
      os.ParentErrs ∨ os.Replaces config := by
  rw [← childExit_eq_replaced_iff os config m]
  have hcases := spawn_cases os config child m
  generalize createChildExecContextFromConfig os config child m = s at hcases
  cases hcases with
  | notForked hforks => simp [Spawned.ReportsReal, Os.ParentErrs, hforks]
  | lost hforks hfails => simp [Spawned.ReportsReal, Os.ParentErrs, hfails]
  | started hforks htakes =>
    simp [Spawned.ReportsReal, Os.ParentErrs, hforks, not_failsStream_of_takes os htakes]
  | aborted hforks hrefuses =>
    simp [Spawned.ReportsReal, Os.ParentErrs, hforks, not_failsStream_of_refuses os hrefuses]

end Yapm
