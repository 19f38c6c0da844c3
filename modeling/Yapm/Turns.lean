import Mathlib.Logic.Function.Basic
import Yapm.Histories

/-!
# Calls and their answers

A system has places at which there can be an open call. A step may make calls, move a call from
one place to another, and answer the call at a place, with which it is over; these are its
`Turn`s. `Turns` is how turns lead from the places with an open call to those after them : a call
is made and goes to where there is none, and what is answered is open.

A `Desk` follows the calls by their numbers. `Desk.InOrder` says that each call that has been made
is at one place or has been answered once, and never both, and turns keep a desk in order
(`Desk.InOrder.turns`). `Recorded.calls` is the rule for a run whose steps are recorded by their
turns.
-/

namespace Runs

variable {σ α : Type} {step : α → σ → Option σ} {init : σ} {C : σ → α → Prop} {s : σ}

/-! ## Turns -/

/-- What becomes of a call : it is made at a place, moves to another, is answered and over, or is
answered by somebody else too. -/
inductive Turn (κ ρ : Type)
  | made (k : κ)
  | moved (k k' : κ)
  | answered (k : κ) (r : ρ)
  | copied (k : κ) (r : ρ)

section Calls

variable {κ ρ : Type} {k k' : κ} {r : ρ} {rs : List ρ}

/-- The answers calls are over with. -/
def replies (ts : List (Turn κ ρ)) : List ρ :=
  ts.filterMap fun
    | .answered _ r => some r
    | _ => none

@[simp] theorem replies_append (ts ts' : List (Turn κ ρ)) :
    replies (ts ++ ts') = replies ts ++ replies ts' :=
  List.filterMap_append

@[simp] theorem replies_answered (k : κ) (rs : List ρ) :
    replies (rs.map (Turn.answered k)) = rs := by
  rw [replies, List.filterMap_map]
  exact List.filterMap_some

@[simp] theorem replies_copied (k : κ) (rs : List ρ) :
    replies (rs.map (Turn.copied k)) = [] := by
  simp [replies]

/-- A call comes to the place. -/
def Turn.Opens (k : κ) : Turn κ ρ → Prop
  | .made k' | .moved _ k' => k' = k
  | .answered _ _ | .copied _ _ => False

variable [DecidableEq κ]

/-- Turns lead from the places with an open call to such places. -/
inductive Turns : (κ → Bool) → List (Turn κ ρ) → (κ → Bool) → Prop
  | nil {P : κ → Bool} : Turns P [] P
  | made {P Q : κ → Bool} {k : κ} {ts : List (Turn κ ρ)} (hk : P k = false)
      (h : Turns (Function.update P k true) ts Q) : Turns P (.made k :: ts) Q
  | moved {P Q : κ → Bool} {k k' : κ} {ts : List (Turn κ ρ)} (hk : P k = true)
      (hk' : P k' = false)
      (h : Turns (Function.update (Function.update P k false) k' true) ts Q) :
      Turns P (.moved k k' :: ts) Q
  | answered {P Q : κ → Bool} {k : κ} {r : ρ} {ts : List (Turn κ ρ)} (hk : P k = true)
      (h : Turns (Function.update P k false) ts Q) : Turns P (.answered k r :: ts) Q
  | copied {P Q : κ → Bool} {k : κ} {r : ρ} {ts : List (Turn κ ρ)} (hk : P k = true)
      (h : Turns P ts Q) : Turns P (.copied k r :: ts) Q

namespace Turns

variable {P Q R : κ → Bool} {ts ts' : List (Turn κ ρ)}

theorem append (h : Turns P ts Q) (h' : Turns Q ts' R) : Turns P (ts ++ ts') R := by
  induction h with
  | nil => exact h'
  | made hk _ ih => exact .made hk (ih h')
  | moved hk hk' _ ih => exact .moved hk hk' (ih h')
  | answered hk _ ih => exact .answered hk (ih h')
  | copied hk _ ih => exact .copied hk (ih h')

/-- A place that has a call only if one comes to it. -/
theorem eq_false (h : Turns P ts Q) (hts : ∀ t ∈ ts, ¬t.Opens k) (hk : P k = false) :
    Q k = false := by
  induction h with
  | nil => exact hk
  | @made P Q k' ts hk' _ ih =>
    obtain ⟨hne, hrest⟩ := List.forall_mem_cons.mp hts
    exact ih hrest (by rw [Function.update_of_ne (Ne.symm hne), hk])
  | @moved P Q k₁ k₂ ts _ _ _ ih =>
    obtain ⟨hne, hrest⟩ := List.forall_mem_cons.mp hts
    refine ih hrest ?_
    rw [Function.update_of_ne (Ne.symm hne)]
    by_cases heq : k = k₁
    · rw [heq, Function.update_self]
    · rw [Function.update_of_ne heq, hk]
  | @answered P Q k' r ts _ _ ih =>
    refine ih (List.forall_mem_cons.mp hts).2 ?_
    by_cases heq : k = k'
    · rw [heq, Function.update_self]
    · rw [Function.update_of_ne heq, hk]
  | copied _ _ ih => exact ih (List.forall_mem_cons.mp hts).2 hk

theorem opens (hk : P k = false) : Turns P [Turn.made (ρ := ρ) k] (Function.update P k true) :=
  .made hk .nil

theorem stays {b : Bool} (hk : P k = b) :
    Turns P ([] : List (Turn κ ρ)) (Function.update P k b) := by
  rw [← hk, Function.update_eq_self]
  exact .nil

theorem closes (hk : P k = true) : Turns P [.answered k r] (Function.update P k false) :=
  .answered hk .nil

theorem copies (hk : P k = true) (rs : List ρ) : Turns P (rs.map (.copied k)) P := by
  induction rs with
  | nil => exact .nil
  | cons r rs ih => exact .copied hk ih

end Turns

/-! ## Desks -/

/-- Calls by their numbers, in the order they are made : the one at each place, and what each was
answered. -/
structure Desk (κ ρ : Type) where
  made : ℕ
  call : κ → Option ℕ
  answers : List (ℕ × ρ)
  copies : List (ℕ × ρ)

namespace Desk

variable {d : Desk κ ρ} {P Q : κ → Bool} {ts : List (Turn κ ρ)}

def turn (d : Desk κ ρ) : Turn κ ρ → Desk κ ρ
  | .made k => { d with made := d.made + 1, call := Function.update d.call k (some d.made) }
  | .moved k k' =>
    { d with call := Function.update (Function.update d.call k none) k' (d.call k) }
  | .answered k r => { d with
      call := Function.update d.call k none
      answers := d.answers ++ (d.call k).toList.map (·, r) }
  | .copied k r => { d with copies := d.copies ++ (d.call k).toList.map (·, r) }

/-- The calls that have been answered. -/
def answered (d : Desk κ ρ) : List ℕ :=
  d.answers.map Prod.fst

/-- Every call is at one of the places or has been answered once. -/
structure InOrder (d : Desk κ ρ) (P : κ → Bool) (rs : List ρ) : Prop where
  isSome : ∀ k, (d.call k).isSome = P k
  inj : ∀ k k' n, d.call k = some n → d.call k' = some n → k = k'
  nodup : d.answered.Nodup
  notAnswered : ∀ k n, d.call k = some n → n ∉ d.answered
  lt_iff : ∀ n, n < d.made ↔ n ∈ d.answered ∨ ∃ k, d.call k = some n
  results : d.answers.map Prod.snd = rs

omit [DecidableEq κ] in
theorem InOrder.exists_call (h : d.InOrder P rs) (hk : P k = true) : ∃ n, d.call k = some n :=
  Option.isSome_iff_exists.mp ((h.isSome k).trans hk)

omit [DecidableEq κ] in
theorem InOrder.call_eq_none (h : d.InOrder P rs) (hk : P k = false) : d.call k = none := by
  simpa [hk] using h.isSome k

theorem InOrder.made (h : d.InOrder P rs) (hk : P k = false) :
    (d.turn (.made k)).InOrder (Function.update P k true) rs where
  isSome k' := by
    by_cases heq : k' = k <;> simp [turn, heq, h.isSome]
  inj k₁ k₂ n h₁ h₂ := by
    have hlt (k' : κ) (hk' : d.call k' = some d.made) : False :=
      Nat.lt_irrefl _ ((h.lt_iff _).mpr (.inr ⟨k', hk'⟩))
    simp only [turn, Function.update_apply] at h₁ h₂
    split at h₁ <;> split at h₂
    · exact ‹k₁ = k›.trans ‹k₂ = k›.symm
    · cases h₁
      exact (hlt k₂ h₂).elim
    · cases h₂
      exact (hlt k₁ h₁).elim
    · exact h.inj k₁ k₂ n h₁ h₂
  nodup := h.nodup
  notAnswered k' n h' hn := by
    simp only [turn, Function.update_apply] at h'
    split at h'
    · cases h'
      exact Nat.lt_irrefl _ ((h.lt_iff _).mpr (.inl hn))
    · exact h.notAnswered k' n h' hn
  lt_iff n := by
    have hold (k' : κ) : Function.update d.call k (some d.made) k' = some n ↔
        d.call k' = some n ∨ k' = k ∧ d.made = n := by
      by_cases heq : k' = k <;> simp [heq, h.call_eq_none hk]
    simp only [turn, hold, exists_or, exists_eq_left, ← or_assoc]
    rw [Nat.lt_succ_iff_lt_or_eq, h.lt_iff n, eq_comm]
    rfl
  results := h.results

theorem InOrder.moved (h : d.InOrder P rs) (hk : P k = true) (hk' : P k' = false) :
    (d.turn (.moved k k')).InOrder
      (Function.update (Function.update P k false) k' true) rs := by
  obtain ⟨m, hm⟩ := h.exists_call hk
  have hne : k ≠ k' := by
    rintro rfl
    cases hk.symm.trans hk'
  have hcall (x : κ) (n : ℕ) : (d.turn (Turn.moved (ρ := ρ) k k')).call x = some n ↔
      x ≠ k ∧ d.call x = some n ∨ x = k' ∧ d.call k = some n := by
    have hnone := h.call_eq_none hk'
    by_cases heq : x = k' <;> by_cases heq' : x = k <;> simp_all [turn]
  refine ⟨fun x => ?_, fun x y n hx hy => ?_, h.nodup, fun x n hx => ?_, fun n => ?_, h.results⟩
  · by_cases heq : x = k' <;> by_cases heq' : x = k <;> simp_all [turn, h.isSome]
  · obtain ⟨hxk, hxn⟩ | ⟨hxk, hxn⟩ := (hcall x n).mp hx <;>
      obtain ⟨hyk, hyn⟩ | ⟨hyk, hyn⟩ := (hcall y n).mp hy
    · exact h.inj x y n hxn hyn
    · exact absurd (h.inj x k n hxn hyn) hxk
    · exact absurd (h.inj y k n hyn hxn) hyk
    · exact hxk.trans hyk.symm
  · obtain ⟨-, hx⟩ | ⟨-, hx⟩ := (hcall x n).mp hx <;> exact h.notAnswered _ n hx
  · refine (h.lt_iff n).trans (or_congr Iff.rfl ⟨fun ⟨x, hx⟩ => ?_, fun ⟨x, hx⟩ => ?_⟩)
    · by_cases heq : x = k
      · exact ⟨k', (hcall k' n).mpr (.inr ⟨rfl, heq ▸ hx⟩)⟩
      · exact ⟨x, (hcall x n).mpr (.inl ⟨heq, hx⟩)⟩
    · obtain ⟨-, hx⟩ | ⟨-, hx⟩ := (hcall x n).mp hx <;> exact ⟨_, hx⟩

theorem InOrder.answer (h : d.InOrder P rs) (hk : P k = true) (r : ρ) :
    (d.turn (.answered k r)).InOrder (Function.update P k false) (rs ++ [r]) := by
  obtain ⟨m, hm⟩ := h.exists_call hk
  have hcall (x : κ) (n : ℕ) : (d.turn (.answered k r)).call x = some n ↔
      x ≠ k ∧ d.call x = some n := by
    by_cases heq : x = k <;> simp [turn, heq]
  have hanswered : (d.turn (.answered k r)).answered = d.answered ++ [m] := by
    simp [turn, answered, hm]
  refine ⟨fun x => ?_, fun x y n hx hy => ?_, ?_, fun x n hx => ?_, fun n => ?_, ?_⟩
  · by_cases heq : x = k <;> simp [turn, heq, h.isSome]
  · exact h.inj x y n ((hcall x n).mp hx).2 ((hcall y n).mp hy).2
  · rw [hanswered]
    exact List.nodup_append.mpr ⟨h.nodup, List.pairwise_singleton _ m, fun n hn n' hn' heq =>
      h.notAnswered k m hm (List.mem_singleton.mp hn' ▸ heq ▸ hn)⟩
  · obtain ⟨hne, hx⟩ := (hcall x n).mp hx
    rw [hanswered, List.mem_append, List.mem_singleton]
    rintro (hn | rfl)
    · exact h.notAnswered x n hx hn
    · exact hne (h.inj x k n hx hm)
  · rw [hanswered, List.mem_append, List.mem_singleton, or_assoc]
    refine (h.lt_iff n).trans (or_congr Iff.rfl ⟨fun ⟨x, hx⟩ => ?_, ?_⟩)
    · by_cases heq : x = k
      · exact .inl (Option.some.inj ((heq ▸ hx).symm.trans hm))
      · exact .inr ⟨x, (hcall x n).mpr ⟨heq, hx⟩⟩
    · rintro (rfl | ⟨x, hx⟩)
      · exact ⟨k, hm⟩
      · exact ⟨x, ((hcall x n).mp hx).2⟩
  · simp [turn, hm, h.results]

/-- What turns leave in order. -/
theorem InOrder.turns (h : d.InOrder P rs) (ht : Turns P ts Q) :
    (ts.foldl turn d).InOrder Q (rs ++ Runs.replies ts) := by
  induction ht generalizing d rs with
  | nil => simpa [Runs.replies] using h
  | made hk _ ih => exact ih (h.made hk)
  | moved hk hk' _ ih => exact ih (h.moved hk hk')
  | @answered _ _ _ r _ hk _ ih => simpa [Runs.replies] using ih (h.answer hk r)
  | copied _ _ ih => exact ih ⟨h.isSome, h.inj, h.nodup, h.notAnswered, h.lt_iff, h.results⟩

end Desk

/-! ## Runs -/

/-- The calls after turns. -/
def desk (l : List (Turn κ ρ)) : Desk κ ρ :=
  l.foldl Desk.turn ⟨0, fun _ => none, [], []⟩

/-- If the turns of every step lead from the places with an open call to those after it, and
its answers are what it replies, every call is open at one place or has been answered once. -/
theorem Recorded.calls {note : α → σ → List (Turn κ ρ)} {l : List (Turn κ ρ)}
    {opened : σ → κ → Bool} {results : σ → List ρ} (h : Recorded step note init C s l)
    (hinit : ∀ k, opened init k = false) (hresults : results init = [])
    (hstep : ∀ s s' a, step a s = some s' → Turns (opened s) (note a s) (opened s') ∧
      results s' = results s ++ replies (note a s)) :
    (desk l).InOrder (opened s) (results s) := by
  refine Recorded.invariant (I := fun s l => (desk l).InOrder (opened s) (results s)) h ?_
    fun s s' l a _ hl _ hs => ?_
  · exact ⟨by simp [desk, hinit], by simp [desk], List.nodup_nil, by simp [desk],
      by simp [desk, Desk.answered], by simp [desk, hresults]⟩
  · obtain ⟨hturns, hreplies⟩ := hstep s s' a hs
    rw [desk, List.foldl_append, hreplies]
    exact hl.turns hturns

/-- Where nobody else answers there are no copies. -/
theorem copies_desk {l : List (Turn κ ρ)} (h : ∀ k r, Turn.copied k r ∉ l) :
    (desk l).copies = [] := by
  have hkeep (d : Desk κ ρ) : (l.foldl Desk.turn d).copies = d.copies := by
    induction l generalizing d with
    | nil => rfl
    | cons t l ih =>
      refine (ih (fun k r hmem => h k r (List.mem_cons_of_mem t hmem)) _).trans ?_
      cases t with
      | copied k r => exact absurd List.mem_cons_self (h k r)
      | _ => rfl
  exact hkeep _

end Calls

end Runs
