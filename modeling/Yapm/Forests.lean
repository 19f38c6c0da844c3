import Mathlib.Algebra.BigOperators.Group.Finset.Basic
import Mathlib.Algebra.Order.BigOperators.Group.Finset
import Mathlib.Data.ENat.BigOperators
import Mathlib.Order.WellFounded

/-!
# Chains of replacements

Some of the nodes of an order are children : each has a parent, a node before it, and no node
is the parent of two children (`IsForest`). The nodes without a parent are roots.

`IsForest.induction` is the rule for what the roots have and children get from their parents.
When a weight drops by one or more from each parent to its child, there are no more children
than the roots weigh together (`IsForest.card_le`), and weights may be infinite.
-/

namespace Forests

variable {ι : Type} [LinearOrder ι]

/-- Each of the children has a parent among the nodes, and none shares it with another. -/
structure IsForest (nodes children : Finset ι) (parent : ι → ι) : Prop where
  subset : children ⊆ nodes
  mem : ∀ c ∈ children, parent c ∈ nodes
  lt : ∀ c ∈ children, parent c < c
  inj : Set.InjOn parent children

namespace IsForest

variable {nodes children : Finset ι} {parent : ι → ι}

/-- What every root has, and every child gets from its parent, all nodes have. -/
theorem induction [WellFoundedLT ι] (h : IsForest nodes children parent) {P : ι → Prop}
    (hroot : ∀ c ∈ nodes, c ∉ children → P c) (hchild : ∀ c ∈ children, P (parent c) → P c) :
    ∀ c ∈ nodes, P c := by
  intro c
  induction c using WellFoundedLT.induction with
  | ind c ih =>
    intro hc
    by_cases hmem : c ∈ children
    · exact hchild c hmem (ih _ (h.lt c hmem) (h.mem c hmem))
    · exact hroot c hc hmem

/-- The weights of all children and their number are at most the weights of all nodes. -/
theorem sum_add_card_le (h : IsForest nodes children parent) {w : ι → ℕ}
    (hw : ∀ c ∈ children, w c + 1 ≤ w (parent c)) :
    ∑ c ∈ children, w c + children.card ≤ ∑ c ∈ nodes, w c :=
  calc ∑ c ∈ children, w c + children.card
      = ∑ c ∈ children, (w c + 1) := by simp [Finset.sum_add_distrib]
    _ ≤ ∑ c ∈ children, w (parent c) := Finset.sum_le_sum hw
    _ = ∑ d ∈ children.image parent, w d := (Finset.sum_image h.inj).symm
    _ ≤ ∑ c ∈ nodes, w c :=
      Finset.sum_le_sum_of_subset (Finset.image_subset_iff.mpr h.mem)

/-- There are no more children than the roots weigh. -/
theorem card_le_of_nat (h : IsForest nodes children parent) {w : ι → ℕ}
    (hw : ∀ c ∈ children, w c + 1 ≤ w (parent c)) :
    children.card ≤ ∑ c ∈ nodes \ children, w c := by
  have hsum := h.sum_add_card_le hw
  rw [← Finset.sum_sdiff h.subset] at hsum
  omega

theorem card_le [WellFoundedLT ι] (h : IsForest nodes children parent) {w : ι → ℕ∞}
    (hw : ∀ c ∈ children, w c + 1 ≤ w (parent c)) :
    (children.card : ℕ∞) ≤ ∑ c ∈ nodes \ children, w c := by
  by_cases hfinite : ∀ c ∈ nodes \ children, w c ≠ ⊤
  · have hnodes : ∀ c ∈ nodes, w c ≠ ⊤ := by
      refine h.induction (fun c hc hroot => hfinite c (Finset.mem_sdiff.mpr ⟨hc, hroot⟩)) ?_
      intro c hc hparent htop
      have hle := hw c hc
      rw [htop, top_add, top_le_iff] at hle
      exact hparent hle
    have hnat {c : ι} (hc : c ∈ nodes) : ((w c).toNat : ℕ∞) = w c :=
      ENat.natCast_toNat (hnodes c hc)
    have hcard := h.card_le_of_nat (w := fun c => (w c).toNat) fun c hc => by
      have hle := hw c hc
      rw [← hnat (h.subset hc), ← hnat (h.mem c hc)] at hle
      exact_mod_cast hle
    calc (children.card : ℕ∞)
        ≤ ((∑ c ∈ nodes \ children, (w c).toNat : ℕ) : ℕ∞) := by exact_mod_cast hcard
      _ = ∑ c ∈ nodes \ children, w c := by
        rw [Nat.cast_sum]
        exact Finset.sum_congr rfl fun c hc => hnat (Finset.mem_sdiff.mp hc).1
  · push Not at hfinite
    obtain ⟨c, hc, htop⟩ := hfinite
    rw [(ENat.sum_eq_top).mpr ⟨c, hc, htop⟩]
    exact le_top

end IsForest

end Forests
