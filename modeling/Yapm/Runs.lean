import Mathlib.Data.Nat.Notation

/-!
# Runs of a system

A system is a partial function `step` on states, for each action, and a first state. A
state is reached under a condition on steps when a run leads to it all of whose steps
meet the condition in the state they are taken in (`Reach`). `Reach.invariant` is the
rule for what holds in every such state, and `reach_of_checked` finds the state a list
of actions leads to.

For a given list of actions, `AllStates` says what holds before and after each of them and
`AllSteps` what holds of each of them. `allStates_iff` is the rule for a property that a
step keeps exactly when it meets a condition.
-/

namespace Runs

variable {σ α : Type}

/-- The states reached from `init` by steps that meet `C`. -/
inductive Reach (step : α → σ → Option σ) (init : σ) (C : σ → α → Prop) : σ → Prop
  | init : Reach step init C init
  | step {s s' : σ} {a : α} :
      Reach step init C s → C s a → step a s = some s' → Reach step init C s'

variable {step : α → σ → Option σ} {init : σ} {C D : σ → α → Prop} {I : σ → Prop} {s : σ}

namespace Reach

/-- What holds first and is preserved by every step that meets the condition holds in
every state reached. -/
theorem invariant (h : Reach step init C s) (hinit : I init)
    (hstep : ∀ s s' a, I s → C s a → step a s = some s' → I s') : I s := by
  induction h with
  | init => exact hinit
  | step _ hc hs ih => exact hstep _ _ _ ih hc hs

/-- A run after a run. -/
theorem trans {t u : σ} (h : Reach step s C t) (h' : Reach step t C u) : Reach step s C u := by
  induction h' with
  | init => exact h
  | step _ hc hs ih => exact .step ih hc hs

/-- A weaker condition reaches more. -/
theorem mono (h : Reach step init C s) (hCD : ∀ s a, C s a → D s a) : Reach step init D s := by
  induction h with
  | init => exact .init
  | step _ hc hs ih => exact .step ih (hCD _ _ hc) hs

end Reach

/-- Take the actions one after the other, each only if it meets the condition. -/
def checked (step : α → σ → Option σ) (C : σ → α → Prop) [∀ s a, Decidable (C s a)] :
    List α → σ → Option σ
  | [], s => some s
  | a :: as, s => if C s a then (step a s).bind (checked step C as) else none

/-- A run may go on by steps that meet a stronger condition. -/
theorem reach_of_checked_from [∀ s a, Decidable (D s a)] (hDC : ∀ s a, D s a → C s a) :
    ∀ (as : List α) {s s' : σ}, Reach step init C s → checked step D as s = some s' →
      Reach step init C s'
  | [], _, _, h, hc => by
    cases hc
    exact h
  | a :: as, s, s', h, hc => by
    simp only [checked, Option.ite_none_right_eq_some, Option.bind_eq_some_iff] at hc
    obtain ⟨hda, t, ht, hrest⟩ := hc
    exact reach_of_checked_from hDC as (.step h (hDC s a hda) ht) hrest

theorem reach_of_checked [∀ s a, Decidable (C s a)] (as : List α)
    (h : checked step C as init = some s) : Reach step init C s :=
  reach_of_checked_from (fun _ _ hc => hc) as .init h

/-! ## What holds all along a run -/

/-- Every step of the run meets the condition, up to one that cannot be taken. -/
def AllSteps (step : α → σ → Option σ) (C : σ → α → Prop) : List α → σ → Prop
  | [], _ => True
  | a :: as, s => ∀ s', step a s = some s' → C s a ∧ AllSteps step C as s'

/-- Every state of the run has the property, up to a step that cannot be taken. -/
def AllStates (step : α → σ → Option σ) (P : σ → Prop) : List α → σ → Prop
  | [], s => P s
  | a :: as, s => P s ∧ ∀ s', step a s = some s' → AllStates step P as s'

theorem AllStates.head {P : σ → Prop} : ∀ {as : List α}, AllStates step P as s → P s
  | [], h => h
  | _ :: _, h => h.1

/-- Where a step keeps a property exactly when it meets the condition, the property holds
all along a run exactly when all its steps meet the condition. An invariant of the steps
that keep the property may be used. -/
theorem allStates_iff {P : σ → Prop}
    (hI : ∀ s s' a, I s → P s → step a s = some s' → P s' → I s')
    (hP : ∀ s s' a, I s → P s → step a s = some s' → (P s' ↔ C s a)) :
    ∀ {as : List α} {s : σ}, I s → P s → (AllStates step P as s ↔ AllSteps step C as s)
  | [], _, _, hs => iff_of_true hs trivial
  | a :: as, s, hi, hs => by
    refine (and_iff_right hs).trans (forall_congr' fun s' => forall_congr' fun hstep => ?_)
    have hkeeps := hP s s' a hi hs hstep
    have hrest (hs' : P s') : AllStates step P as s' ↔ AllSteps step C as s' :=
      allStates_iff hI hP (hI s s' a hi hs hstep hs') hs'
    constructor
    · intro h
      exact ⟨hkeeps.mp h.head, (hrest h.head).mp h⟩
    · intro ⟨hc, h⟩
      exact (hrest (hkeeps.mpr hc)).mpr h

end Runs
