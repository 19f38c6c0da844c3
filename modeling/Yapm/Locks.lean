import Mathlib.Data.List.Basic
import Mathlib.Logic.Function.Basic
import Yapm.Runs

/-!
# Threads that acquire and release locks

Each thread of a set of any size has a program of acquisitions and releases. A step takes
the next operation of one thread, which waits for a lock that is held. Two threads
deadlock over two locks (`Deadlock`) when each holds one and is about to acquire the
other.

`nestings` are the pairs of locks of which a program acquires the second while it holds
the first. A deadlock needs two threads with opposite nestings (`nestings_of_deadlock`).
Where programs are sequences of sections (`Section`), which hold one lock or one within
another, any two such threads can get into one (`deadlock_iff`).
-/

namespace Locks

inductive Op (L : Type)
  | acquire (l : L)
  | release (l : L)

/-- Who holds each lock, and what each thread has still to do. -/
structure State (L ι : Type) where
  owner : L → Option ι
  rest : ι → List (Op L)

variable {L ι : Type}

def init (program : ι → List (Op L)) : State L ι where
  owner _ := none
  rest := program

/-- The next operation of the thread acquires the lock. -/
def State.Wants (s : State L ι) (i : ι) (l : L) : Prop :=
  ∃ rest, s.rest i = .acquire l :: rest

/-- Thread `i` holds `a` and waits for `b`, which `j` holds while it waits for `a`. -/
structure State.Deadlock (s : State L ι) (i j : ι) (a b : L) : Prop where
  ne : i ≠ j
  holds : s.owner a = some i
  wants : s.Wants i b
  holds' : s.owner b = some j
  wants' : s.Wants j a

variable [DecidableEq L]

/-- The pairs of locks of which the second is acquired while the first is held. -/
def nestings : List L → List (Op L) → List (L × L)
  | _, [] => []
  | held, .acquire l :: ops => held.map (·, l) ++ nestings (l :: held) ops
  | held, .release l :: ops => nestings (held.filter (· ≠ l)) ops

/-- What thread `i` holds, and that what it has still to do is of its program. -/
def State.Follows (program : ι → List (Op L)) (s : State L ι) (i : ι) : Prop :=
  ∃ held, (∀ l, s.owner l = some i ↔ l ∈ held) ∧
    ∀ x ∈ nestings held (s.rest i), x ∈ nestings [] (program i)

theorem State.follows_init (program : ι → List (Op L)) (i : ι) : (init program).Follows program i :=
  ⟨[], by simp [Locks.init], fun _ hx => hx⟩

/-- A thread that holds one lock and is about to acquire another nests them. -/
theorem State.Follows.nesting {program : ι → List (Op L)} {s : State L ι} {i : ι} {a b : L}
    (h : s.Follows program i) (hown : s.owner a = some i) (hwants : s.Wants i b) :
    (a, b) ∈ nestings [] (program i) := by
  obtain ⟨held, hheld, hnest⟩ := h
  obtain ⟨rest, hrest⟩ := hwants
  refine hnest _ ?_
  rw [hrest, nestings]
  exact List.mem_append_left _ (List.mem_map.mpr ⟨a, (hheld a).mp hown, rfl⟩)

variable [DecidableEq ι]

/-- Thread `i` takes its next operation, if it need not wait. -/
def step (i : ι) (s : State L ι) : Option (State L ι) :=
  match s.rest i with
  | [] => none
  | .acquire l :: rest =>
    if s.owner l = none then
      some ⟨Function.update s.owner l (some i), Function.update s.rest i rest⟩
    else none
  | .release l :: rest =>
    if s.owner l = some i then
      some ⟨Function.update s.owner l none, Function.update s.rest i rest⟩
    else none

/-- The states the threads reach, in any interleaving. -/
abbrev Reachable (program : ι → List (Op L)) (s : State L ι) : Prop :=
  Runs.Reach step (init program) (fun _ _ => True) s

/-! ## A deadlock needs opposite nestings -/

variable {program : ι → List (Op L)} {s s' : State L ι} {i j : ι} {a b : L}

/-- What a step can do. -/
theorem step_cases (h : step i s = some s') :
    (∃ l rest, s.rest i = .acquire l :: rest ∧ s.owner l = none ∧
      s' = ⟨Function.update s.owner l (some i), Function.update s.rest i rest⟩) ∨
    (∃ l rest, s.rest i = .release l :: rest ∧ s.owner l = some i ∧
      s' = ⟨Function.update s.owner l none, Function.update s.rest i rest⟩) := by
  unfold step at h
  split at h
  · cases h
  · rename_i l rest hrest
    split at h
    · exact .inl ⟨l, rest, hrest, ‹_›, (Option.some_inj.mp h).symm⟩
    · cases h
  · rename_i l rest hrest
    split at h
    · exact .inr ⟨l, rest, hrest, ‹_›, (Option.some_inj.mp h).symm⟩
    · cases h

/-- A thread keeps to its program in each of its steps. -/
theorem State.Follows.step_self (h : s.Follows program i) (hstep : step i s = some s') :
    s'.Follows program i := by
  obtain ⟨held, hheld, hnest⟩ := h
  rcases step_cases hstep with ⟨l, rest, hrest, hfree, rfl⟩ | ⟨l, rest, hrest, hown, rfl⟩
  · refine ⟨l :: held, fun l' => ?_, fun x hx => hnest x ?_⟩
    · by_cases hl : l' = l
      · simp [hl]
      · simp [hl, hheld]
    · rw [hrest, nestings]
      exact List.mem_append_right _ (by simpa using hx)
  · refine ⟨held.filter (· ≠ l), fun l' => ?_, fun x hx => hnest x ?_⟩
    · by_cases hl : l' = l
      · simp [hl]
      · simp [hl, hheld]
    · rw [hrest, nestings]
      simpa using hx

/-- A step of one thread leaves the others where they are. -/
theorem State.Follows.step_of_ne (h : s.Follows program j) (hne : j ≠ i)
    (hstep : step i s = some s') : s'.Follows program j := by
  obtain ⟨held, hheld, hnest⟩ := h
  rcases step_cases hstep with ⟨l, rest, hrest, hfree, rfl⟩ | ⟨l, rest, hrest, hown, rfl⟩
  · refine ⟨held, fun l' => ?_, by simpa [Function.update_of_ne hne] using hnest⟩
    rw [← hheld]
    by_cases hl : l' = l
    · simp [hl, hfree, Ne.symm hne]
    · simp [hl]
  · refine ⟨held, fun l' => ?_, by simpa [Function.update_of_ne hne] using hnest⟩
    rw [← hheld]
    by_cases hl : l' = l
    · simp [hl, hown, Ne.symm hne]
    · simp [hl]

theorem follows_of_reachable (h : Reachable program s) (i : ι) : s.Follows program i := by
  revert i
  refine h.invariant (I := fun s => ∀ i, s.Follows program i) (State.follows_init program)
    fun s s' i hs _ hstep j => ?_
  by_cases hne : j = i
  · subst hne
    exact (hs j).step_self hstep
  · exact (hs j).step_of_ne hne hstep

/-- Two threads that deadlock nest the two locks in opposite ways. -/
theorem nestings_of_deadlock (h : Reachable program s) (hd : s.Deadlock i j a b) :
    (a, b) ∈ nestings [] (program i) ∧ (b, a) ∈ nestings [] (program j) :=
  ⟨(follows_of_reachable h i).nesting hd.holds hd.wants,
    (follows_of_reachable h j).nesting hd.holds' hd.wants'⟩

/-! ## Programs made of sections -/

/-- A part of a program that holds one lock, or one lock within another. -/
inductive Section (L : Type)
  | single (l : L)
  | nested (outer inner : L) (h : outer ≠ inner)
deriving DecidableEq

/-- The two locks of a section that nests. -/
def Section.nesting : Section L → Option (L × L)
  | .single _ => none
  | .nested outer inner _ => some (outer, inner)

def Section.ops : Section L → List (Op L)
  | .single l => [.acquire l, .release l]
  | .nested outer inner _ => [.acquire outer, .acquire inner, .release inner, .release outer]

def ops (sections : List (Section L)) : List (Op L) :=
  sections.flatMap Section.ops

theorem nestings_ops : ∀ sections : List (Section L),
    nestings [] (ops sections) = sections.filterMap Section.nesting
  | [] => rfl
  | .single l :: sections => by
    simpa [ops, Section.ops, nestings, Section.nesting, List.filterMap_cons]
      using nestings_ops sections
  | .nested outer inner h :: sections => by
    simpa [ops, Section.ops, nestings, Section.nesting, List.filterMap_cons, h]
      using nestings_ops sections

/-- A thread takes an operation, in the state it needs. -/
theorem reach_acquire (h : Reachable program s) {l : L} {rest : List (Op L)}
    (hrest : s.rest i = .acquire l :: rest) (hfree : s.owner l = none) :
    Reachable program ⟨Function.update s.owner l (some i), Function.update s.rest i rest⟩ :=
  h.step (a := i) trivial (by simp [step, hrest, hfree])

theorem reach_release (h : Reachable program s) {l : L} {rest : List (Op L)}
    (hrest : s.rest i = .release l :: rest) (hown : s.owner l = some i) :
    Reachable program ⟨Function.update s.owner l none, Function.update s.rest i rest⟩ :=
  h.step (a := i) trivial (by simp [step, hrest, hown])

/-- A thread that need not wait takes a whole section. -/
theorem reach_section (h : Reachable program s) (hfree : ∀ l, s.owner l = none)
    {sec : Section L} {rest : List (Op L)} (hrest : s.rest i = sec.ops ++ rest) :
    Reachable program ⟨s.owner, Function.update s.rest i rest⟩ := by
  cases sec with
  | single l =>
    have h₁ := reach_acquire h hrest (hfree l)
    have h₂ := reach_release h₁ (Function.update_self ..) (Function.update_self ..)
    have howner : Function.update s.owner l none = s.owner :=
      Function.update_eq_self_iff.mpr (hfree l).symm
    simpa [howner] using h₂
  | nested outer inner hne =>
    have h₁ := reach_acquire h hrest (hfree outer)
    have h₂ := reach_acquire h₁ (Function.update_self ..)
      ((Function.update_of_ne hne.symm ..).trans (hfree inner))
    have h₃ := reach_release h₂ (Function.update_self ..) (Function.update_self ..)
    have h₄ := reach_release h₃ (Function.update_self ..) (by simp [hne])
    have howner : Function.update (Function.update (Function.update s.owner outer (some i))
        inner none) outer none = s.owner := by
      funext l
      by_cases hl : l = outer
      · simp [hl, hfree]
      · by_cases hl' : l = inner
        · simp [hl', hfree, hne.symm]
        · simp [hl, hl']
    simpa [howner] using h₄

/-- A thread that need not wait takes one section after the other. -/
theorem reach_ops (rest : List (Op L)) : ∀ (sections : List (Section L)) {s : State L ι},
    Reachable program s → (∀ l, s.owner l = none) → s.rest i = ops sections ++ rest →
      Reachable program ⟨s.owner, Function.update s.rest i rest⟩
  | [], s, h, _, hrest => by
    have hrest : s.rest i = rest := hrest
    rwa [← hrest, Function.update_eq_self]
  | sec :: sections, s, h, hfree, hrest => by
    have hrest : s.rest i = sec.ops ++ (ops sections ++ rest) := by
      rw [hrest]
      simp [ops]
    have hsec := reach_section h hfree hrest
    have hrun := reach_ops rest sections hsec hfree (Function.update_self ..)
    simpa using hrun

/-- Two threads with opposite nestings get to the outer locks of both and deadlock. -/
theorem deadlock_of_nested (sections : ι → List (Section L)) (hne : i ≠ j) {hab : a ≠ b}
    {hba : b ≠ a} (hi : .nested a b hab ∈ sections i) (hj : .nested b a hba ∈ sections j) :
    ∃ s, Reachable (fun i => ops (sections i)) s ∧ s.Deadlock i j a b := by
  obtain ⟨pre, post, hpre⟩ := List.append_of_mem hi
  obtain ⟨pre', post', hpre'⟩ := List.append_of_mem hj
  let s₀ := init fun i => ops (sections i)
  have h₁ : Reachable _ ⟨s₀.owner, Function.update s₀.rest i _⟩ :=
    reach_ops (ops (.nested a b hab :: post)) pre .init (fun _ => rfl)
      (by simp [s₀, init, ops, hpre])
  have h₂ := reach_ops (i := j) (ops (.nested b a hba :: post')) pre' h₁
    (fun _ => rfl) (by simp [s₀, init, ops, hpre', hne.symm])
  let rest := ops [.single b] ++ [.release a] ++ ops post
  let rest' := ops [.single a] ++ [.release b] ++ ops post'
  have hrest : Function.update (Function.update s₀.rest i (ops (.nested a b hab :: post))) j
      (ops (.nested b a hba :: post')) i = .acquire a :: rest := by simp [hne]; rfl
  have h₃ := reach_acquire h₂ hrest rfl
  have hrest' : Function.update (Function.update (Function.update s₀.rest i
      (ops (.nested a b hab :: post))) j (ops (.nested b a hba :: post'))) i rest j =
        .acquire b :: rest' := by simp [hne.symm]; rfl
  have h₄ := reach_acquire h₃ hrest' (by simp [hba, s₀, init])
  exact ⟨_, h₄, hne, by simp [hab], ⟨_, by simp [hne]; rfl⟩, by simp, ⟨_, by simp; rfl⟩⟩

/-- Threads whose programs are made of sections can deadlock over two locks exactly when
two of them nest these in opposite ways. -/
theorem deadlock_iff {sections : ι → List (Section L)} (hab : a ≠ b) :
    (∃ s, Reachable (fun i => ops (sections i)) s ∧ s.Deadlock i j a b) ↔
      i ≠ j ∧ .nested a b hab ∈ sections i ∧ .nested b a hab.symm ∈ sections j := by
  have hmem : ∀ {c d : L} (h : c ≠ d) (k : ι), (c, d) ∈ nestings [] (ops (sections k)) →
      .nested c d h ∈ sections k := by
    intro c d h k hnest
    rw [nestings_ops, List.mem_filterMap] at hnest
    obtain ⟨sec, hsec, hnesting⟩ := hnest
    cases sec with
    | single l => cases hnesting
    | nested outer inner hne =>
      cases hnesting
      exact hsec
  constructor
  · rintro ⟨s, hs, hd⟩
    have hnest := nestings_of_deadlock hs hd
    exact ⟨hd.ne, hmem hab i hnest.1, hmem hab.symm j hnest.2⟩
  · rintro ⟨hne, hi, hj⟩
    exact deadlock_of_nested sections hne hi hj

end Locks
