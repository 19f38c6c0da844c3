import Mathlib.Data.Nat.Notation

/-!
# Sequences of fallible calls

A function that makes calls to a system one after the other, and stops at the first that
fails, is the list of these calls. `System` says for each call, by its position and what
it is, whether it fails, and what it changes when it does not. `System.run` makes a list
of calls from a position on and returns the failure that stopped it, if any, and the
state it was stopped in.

`run_append` splits a run, `run_eq_none_iff` says when nothing fails, `run_snd_of_none`
what the state is then, and `perform_preserves` and `run_preserves` are the rules for
invariants.
-/

namespace Calls

variable {C σ F : Type}

/-- How a system answers calls of type `C` in states of type `σ`. -/
structure System (C σ F : Type) where
  /-- The failure of the call at a position, `none` when it succeeds. -/
  outcome : ℕ → C → Option F
  effect : C → σ → σ

namespace System

variable (S : System C σ F)

/-- Make the calls, the first at position `i`, until one fails. -/
def run : ℕ → List C → σ → Option F × σ
  | _, [], s => (none, s)
  | i, c :: cs, s =>
    match S.outcome i c with
    | some f => (some f, s)
    | none => run (i + 1) cs (S.effect c s)

/-- The state after calls none of which failed. -/
def perform (cs : List C) (s : σ) : σ :=
  cs.foldl (fun s c => S.effect c s) s

/-- No call of the list fails, the first being at position `i`. -/
def Serves : ℕ → List C → Prop
  | _, [] => True
  | i, c :: cs => S.outcome i c = none ∧ Serves (i + 1) cs

@[simp] theorem run_nil (i : ℕ) (s : σ) : S.run i [] s = (none, s) := rfl

@[simp] theorem perform_append (xs ys : List C) (s : σ) :
    S.perform (xs ++ ys) s = S.perform ys (S.perform xs s) :=
  List.foldl_append

theorem run_append (ys : List C) :
    ∀ (xs : List C) (i : ℕ) (s : σ), S.run i (xs ++ ys) s =
      match S.run i xs s with
      | (some f, s') => (some f, s')
      | (none, s') => S.run (i + xs.length) ys s'
  | [], i, s => rfl
  | x :: xs, i, s => by
    simp only [List.cons_append, run]
    cases S.outcome i x with
    | some f => rfl
    | none =>
      simp only [run_append ys xs, List.length_cons]
      rw [Nat.add_right_comm, Nat.add_assoc]

/-- Nothing stops a run exactly when every call is served, and then all took effect. -/
theorem run_of_serves : ∀ (cs : List C) (i : ℕ) (s : σ), S.Serves i cs →
    S.run i cs s = (none, S.perform cs s)
  | [], _, _, _ => rfl
  | c :: cs, i, s, h => by
    rw [run, h.1]
    exact run_of_serves cs (i + 1) (S.effect c s) h.2

theorem run_eq_none_iff : ∀ (cs : List C) (i : ℕ) (s : σ),
    (S.run i cs s).1 = none ↔ S.Serves i cs
  | [], _, _ => by simp [Serves]
  | c :: cs, i, s => by
    rw [run, Serves]
    cases S.outcome i c with
    | some f => simp
    | none => simpa using run_eq_none_iff cs (i + 1) (S.effect c s)

theorem run_snd_of_none {cs : List C} {i : ℕ} {s : σ} (h : (S.run i cs s).1 = none) :
    (S.run i cs s).2 = S.perform cs s := by
  rw [S.run_of_serves cs i s ((S.run_eq_none_iff cs i s).mp h)]

theorem serves_iff_getElem : ∀ (cs : List C) (i : ℕ),
    S.Serves i cs ↔ ∀ (k : ℕ) (h : k < cs.length), S.outcome (i + k) cs[k] = none
  | [], _ => by simp [Serves]
  | c :: cs, i => by
    rw [Serves, serves_iff_getElem cs (i + 1)]
    constructor
    · rintro ⟨hc, hcs⟩ k hk
      cases k with
      | zero => exact hc
      | succ k =>
        rw [← Nat.add_assoc, Nat.add_right_comm]
        exact hcs k (Nat.lt_of_succ_lt_succ hk)
    · refine fun h => ⟨h 0 (Nat.succ_pos _), fun k hk => ?_⟩
      rw [Nat.add_right_comm, Nat.add_assoc]
      exact h (k + 1) (Nat.succ_lt_succ hk)

theorem serves_append (ys : List C) : ∀ (xs : List C) (i : ℕ),
    S.Serves i (xs ++ ys) ↔ S.Serves i xs ∧ S.Serves (i + xs.length) ys
  | [], i => by simp [Serves]
  | x :: xs, i => by
    have ih := serves_append ys xs (i + 1)
    rw [Nat.add_right_comm, Nat.add_assoc] at ih
    simp only [List.cons_append, Serves, List.length_cons, ih, and_assoc]

/-- Where calls fail for what they are, not for where they stand. -/
theorem serves_iff_forall_mem {P : C → Prop} : ∀ {cs : List C} (i : ℕ),
    (∀ c ∈ cs, ∀ k, S.outcome k c = none ↔ P c) → (S.Serves i cs ↔ ∀ c ∈ cs, P c)
  | [], _, _ => by simp [Serves]
  | c :: cs, i, h => by
    have ih := serves_iff_forall_mem (i + 1) fun d hd => h d (.tail _ hd)
    rw [Serves, ih, h c (.head _), List.forall_mem_cons]

/-- The failure that stops a run is that of one of its calls. -/
theorem exists_of_run_eq_some {f : F} : ∀ (cs : List C) (i : ℕ) (s : σ),
    (S.run i cs s).1 = some f → ∃ c ∈ cs, ∃ k, S.outcome k c = some f
  | [], _, _, h => by cases h
  | c :: cs, i, s, h => by
    rw [run] at h
    cases hc : S.outcome i c with
    | some g =>
      rw [hc] at h
      exact ⟨c, .head _, i, hc.trans h⟩
    | none =>
      rw [hc] at h
      obtain ⟨d, hd, hk⟩ := exists_of_run_eq_some cs (i + 1) (S.effect c s) h
      exact ⟨d, .tail _ hd, hk⟩

/-- What every call of a list preserves holds after the calls. -/
theorem perform_preserves {P : σ → Prop} : ∀ {cs : List C} {s : σ}, P s →
    (∀ c ∈ cs, ∀ s, P s → P (S.effect c s)) → P (S.perform cs s)
  | [], _, hs, _ => hs
  | c :: cs, s, hs, hstep => by
    have hc := hstep c (.head _) s hs
    show P (S.perform cs (S.effect c s))
    exact perform_preserves hc fun d hd => hstep d (.tail _ hd)

/-- So it does where the run stops. -/
theorem run_preserves {P : σ → Prop} : ∀ {cs : List C} {i : ℕ} {s : σ}, P s →
    (∀ c ∈ cs, ∀ s, P s → P (S.effect c s)) → P (S.run i cs s).2
  | [], _, _, hs, _ => hs
  | c :: cs, i, s, hs, hstep => by
    rw [run]
    cases S.outcome i c with
    | some f => exact hs
    | none => exact run_preserves (hstep c (.head _) s hs) fun d hd => hstep d (.tail _ hd)

end System

end Calls
