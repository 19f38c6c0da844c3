import Mathlib.Data.List.Basic

/-!
# System call filters

A filter is a list of rules over a type of system calls, in the words of libseccomp. A
rule without comparisons is unconditional. `ScmpFilterContext.verdict` : an unconditional
rule on the call supersedes the conditional ones in whichever order they were added, among
conditional rules the first that matches decides, and the default action applies when no
rule matches.

A filter is `Restrictive` when its unconditional rules deny and a conditional rule that
lets calls through is superseded. Such a filter denies every call that one of its denying
rules matches (`denies_iff`), so of two restrictive filters the one whose denying rules
cover those of the other denies more (`denies_of_covers`).
-/

namespace Seccomp

/-- What a filter does with a call. `log` lets the call proceed. -/
inductive ScmpAction
  | killProcess
  | errno (code : ℕ)
  | log
  | allow
deriving DecidableEq, Repr

/-- The call does not take place. -/
def ScmpAction.denies : ScmpAction → Bool
  | .killProcess | .errno _ => true
  | .log | .allow => false

inductive ScmpCompareOp
  | notEqual
  | equal
  | maskedEqual (mask : BitVec 64)
deriving DecidableEq, Repr

/-- The arguments of a call. -/
abbrev Args := Fin 6 → BitVec 64

structure ScmpArgCompare where
  arg : Fin 6
  op : ScmpCompareOp
  datum : BitVec 64
deriving DecidableEq, Repr

def ScmpArgCompare.holds (cmp : ScmpArgCompare) (args : Args) : Bool :=
  match cmp.op with
  | .notEqual => args cmp.arg != cmp.datum
  | .equal => args cmp.arg == cmp.datum
  | .maskedEqual mask => args cmp.arg &&& mask == cmp.datum

structure Rule (S : Type) where
  action : ScmpAction
  syscall : S
  comparators : List ScmpArgCompare
deriving DecidableEq, Repr

structure ScmpFilterContext (S : Type) where
  defaultAction : ScmpAction
  rules : List (Rule S)
deriving DecidableEq, Repr

variable {S : Type} [DecidableEq S]

namespace Rule

/-- The rule decides every call of `s`. -/
def unconditionalOn (s : S) (r : Rule S) : Bool :=
  r.syscall = s && r.comparators.isEmpty

/-- The rule is on `s`, and all its comparisons hold. -/
def isMatch (s : S) (args : Args) (r : Rule S) : Bool :=
  r.syscall = s && r.comparators.all (·.holds args)

theorem isMatch_of_unconditionalOn {s : S} {r : Rule S} (h : r.unconditionalOn s) (args : Args) :
    r.isMatch s args := by
  simp only [unconditionalOn, Bool.and_eq_true, List.isEmpty_iff] at h
  simp [isMatch, h.1, h.2]

theorem syscall_of_isMatch {s : S} {args : Args} {r : Rule S} (h : r.isMatch s args) :
    r.syscall = s := by
  simp only [isMatch, Bool.and_eq_true, decide_eq_true_eq] at h
  exact h.1

end Rule

namespace ScmpFilterContext

/-- What happens to the call of `s` with these arguments. -/
def verdict (f : ScmpFilterContext S) (s : S) (args : Args) : ScmpAction :=
  match f.rules.find? (·.unconditionalOn s) with
  | some r => r.action
  | none =>
    match f.rules.find? (·.isMatch s args) with
    | some r => r.action
    | none => f.defaultAction

def denies (f : ScmpFilterContext S) (s : S) (args : Args) : Bool :=
  (f.verdict s args).denies

variable {f g : ScmpFilterContext S} {s : S} {args : Args}

/-- Unconditional rules of one action decide a call by it. -/
theorem verdict_of_unconditional {a : ScmpAction}
    (hall : ∀ r ∈ f.rules, r.unconditionalOn s → r.action = a)
    (hex : ∃ r ∈ f.rules, r.unconditionalOn s) : f.verdict s args = a := by
  obtain ⟨r, hr⟩ := Option.isSome_iff_exists.mp (List.find?_isSome.mpr hex)
  rw [verdict, hr]
  exact hall r (List.mem_of_find?_eq_some hr) (List.find?_some hr)

/-- A call no rule is on falls to the default action. -/
theorem verdict_of_forall_ne (h : ∀ r ∈ f.rules, r.syscall ≠ s) :
    f.verdict s args = f.defaultAction := by
  have huncond : f.rules.find? (·.unconditionalOn s) = none :=
    List.find?_eq_none.mpr fun r hr hu =>
      h r hr (Rule.syscall_of_isMatch (Rule.isMatch_of_unconditionalOn hu args))
  have hmatch : f.rules.find? (·.isMatch s args) = none :=
    List.find?_eq_none.mpr fun r hr hm => h r hr (Rule.syscall_of_isMatch hm)
  rw [verdict, huncond, hmatch]

/-- Some rule decides the call, or none matches and the default action applies. -/
theorem exists_rule_or_default (f : ScmpFilterContext S) (s : S) (args : Args) :
    (∃ r ∈ f.rules, r.isMatch s args ∧ f.verdict s args = r.action) ∨
      f.verdict s args = f.defaultAction := by
  unfold verdict
  split
  · rename_i r hr
    exact .inl ⟨r, List.mem_of_find?_eq_some hr,
      Rule.isMatch_of_unconditionalOn (List.find?_some hr) args, rfl⟩
  · split
    · rename_i r hr
      exact .inl ⟨r, List.mem_of_find?_eq_some hr, List.find?_some hr, rfl⟩
    · exact .inr rfl

/-- Every rule that lets calls through is superseded by an unconditional rule, and
unconditional rules deny. The default action lets calls through. -/
structure Restrictive (f : ScmpFilterContext S) : Prop where
  default : f.defaultAction.denies = false
  uncond : ∀ r ∈ f.rules, r.comparators = [] → r.action.denies
  superseded : ∀ r ∈ f.rules, r.action.denies = false →
    ∃ r' ∈ f.rules, r'.unconditionalOn r.syscall

/-- A restrictive filter denies exactly the calls its denying rules match. -/
theorem Restrictive.denies_iff (h : f.Restrictive) :
    f.denies s args ↔ ∃ r ∈ f.rules, r.isMatch s args ∧ r.action.denies := by
  constructor
  · intro hd
    rcases f.exists_rule_or_default s args with ⟨r, hr, hm, hv⟩ | hv
    · exact ⟨r, hr, hm, by rwa [denies, hv] at hd⟩
    · rw [denies, hv, h.default] at hd
      cases hd
  · rintro ⟨r, hr, hm, hdeny⟩
    unfold denies verdict
    split
    · rename_i u hu
      have hempty := List.find?_some hu
      simp only [Rule.unconditionalOn, Bool.and_eq_true, List.isEmpty_iff] at hempty
      exact h.uncond u (List.mem_of_find?_eq_some hu) hempty.2
    · rename_i hnone
      split
      · rename_i c hc
        have hcmem := List.mem_of_find?_eq_some hc
        by_contra hpermit
        obtain ⟨u, hu, hus⟩ := h.superseded c hcmem (by simpa using hpermit)
        rw [Rule.syscall_of_isMatch (List.find?_some hc)] at hus
        exact List.find?_eq_none.mp hnone u hu hus
      · rename_i hmatch
        exact absurd hm (List.find?_eq_none.mp hmatch r hr)

/-- Every call a denying rule of `f` matches is matched by a denying rule of `g`. -/
def Covers (g f : ScmpFilterContext S) : Prop :=
  ∀ r ∈ f.rules, r.action.denies →
    ∃ r' ∈ g.rules, r'.action.denies ∧ ∀ s args, r.isMatch s args → r'.isMatch s args

theorem denies_of_covers (hf : f.Restrictive) (hg : g.Restrictive) (hc : g.Covers f)
    (h : f.denies s args) : g.denies s args := by
  obtain ⟨r, hr, hm, hdeny⟩ := hf.denies_iff.mp h
  obtain ⟨r', hr', hdeny', hsub⟩ := hc r hr hdeny
  exact hg.denies_iff.mpr ⟨r', hr', hsub s args hm, hdeny'⟩

end ScmpFilterContext

end Seccomp
