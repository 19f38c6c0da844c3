import Mathlib.Data.Set.Basic
import Mathlib.Logic.Function.Basic
import Mathlib.Logic.Nontrivial.Defs

/-!
# Assignments

A list of assignments run on a store, one after the other. What a key has in the end is up
to the assignments when they assign it (`run_eq_of_mem`), and is what it had before when they
do not (`run_of_notMem`). So the end does not depend on the beginning exactly when every key
is assigned (`run_const_iff`).
-/

namespace Assign

variable {κ ν : Type} [DecidableEq κ]

def run : List (κ × ν) → (κ → ν) → κ → ν
  | [], s => s
  | a :: as, s => run as (Function.update s a.1 a.2)

@[simp] theorem run_nil (s : κ → ν) : run [] s = s := rfl

@[simp] theorem run_cons (a : κ × ν) (as : List (κ × ν)) (s : κ → ν) :
    run (a :: as) s = run as (Function.update s a.1 a.2) := rfl

theorem run_append (as bs : List (κ × ν)) (s : κ → ν) : run (as ++ bs) s = run bs (run as s) := by
  induction as generalizing s with
  | nil => rfl
  | cons a as ih => exact ih _

/-- What is not assigned stays. -/
theorem run_of_notMem {as : List (κ × ν)} {k : κ} (s : κ → ν) (h : k ∉ as.map Prod.fst) :
    run as s k = s k := by
  induction as generalizing s with
  | nil => rfl
  | cons a as ih =>
    rw [List.map_cons, List.mem_cons, not_or] at h
    rw [run_cons, ih _ h.2, Function.update_of_ne h.1]

/-- What is assigned does not depend on what was there. -/
theorem run_eq_of_mem {as : List (κ × ν)} {k : κ} (s s' : κ → ν) (h : k ∈ as.map Prod.fst) :
    run as s k = run as s' k := by
  induction as generalizing s s' with
  | nil => cases h
  | cons a as ih =>
    by_cases hmem : k ∈ as.map Prod.fst
    · exact ih _ _ hmem
    · obtain rfl : k = a.1 := (List.mem_cons.mp h).resolve_right hmem
      rw [run_cons, run_cons, run_of_notMem _ hmem, run_of_notMem _ hmem, Function.update_self,
        Function.update_self]

/-- The end does not depend on the beginning exactly when every key is assigned. -/
theorem run_const_iff [Nontrivial ν] {as : List (κ × ν)} :
    (∀ s s', run as s = run as s') ↔ ∀ k, k ∈ as.map Prod.fst := by
  constructor
  · intro h k
    by_contra hk
    obtain ⟨v, w, hne⟩ := exists_pair_ne ν
    have heq := congrFun (h (fun _ => v) (fun _ => w)) k
    rw [run_of_notMem _ hk, run_of_notMem _ hk] at heq
    exact hne heq
  · intro h s s'
    exact funext fun k => run_eq_of_mem s s' (h k)

end Assign
