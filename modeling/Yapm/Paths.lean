import Mathlib.Data.List.Basic
import Mathlib.Data.Nat.Notation

/-!
# Where paths lead

A directory is the list of names that leads to it from the root. A path is walked component by
component : an empty one and `.` stay, `..` goes up, and stays in the root, any other goes down.
Nothing on the way is a link.

`resolve_join` says where a joined path leads, `resolve_append` that what is put after a path goes
to the name of its file, and leaves its directory.
-/

namespace Paths

/-- A directory or a file, by the names from the root. -/
abbrev Dir := List (List Char)

/-- One component of a path. -/
def enter (d : Dir) (c : List Char) : Dir :=
  if c = [] ∨ c = ['.'] then d
  else if c = ['.', '.'] then d.dropLast
  else d ++ [c]

def walk (d : Dir) (cs : List (List Char)) : Dir :=
  cs.foldl enter d

def isAbsolute (p : List Char) : Bool :=
  p.head? = some '/'

def components (p : List Char) : List (List Char) :=
  p.splitOn '/'

/-- Where a path is walked from. -/
def base (cwd : Dir) (p : List Char) : Dir :=
  if isAbsolute p then [] else cwd

/-- Where a path leads. -/
def resolve (cwd : Dir) (p : List Char) : Dir :=
  walk (base cwd p) (components p)

/-- A path put after another : an absolute one replaces it. -/
def join (p q : List Char) : List Char :=
  if isAbsolute q then q
  else if p = [] ∨ p.getLast? = some '/' then p ++ q
  else p ++ '/' :: q

/-- The components of a path before its last slash. -/
def parents (p : List Char) : List (List Char) :=
  (components p).dropLast

/-- What follows the last slash. -/
def fileName (p : List Char) : List Char :=
  (components p).getLastD []

/-- Where the part before the last slash leads. -/
def directory (cwd : Dir) (p : List Char) : Dir :=
  walk (base cwd p) (parents p)

/-- The file is in the directory, or below it. -/
def Inside (d file : Dir) : Prop :=
  d <+: file ∧ d ≠ file

theorem walk_append (d : Dir) (cs cs' : List (List Char)) :
    walk d (cs ++ cs') = walk (walk d cs) cs' :=
  List.foldl_append

theorem enter_name {c : List Char} (h : 2 < c.length) (d : Dir) : enter d c = d ++ [c] := by
  have hne (c' : List Char) (hc' : c'.length ≤ 2) : c ≠ c' := by
    rintro rfl
    omega
  simp [enter, hne [] (by simp), hne ['.'] (by simp), hne ['.', '.'] (by simp)]

theorem components_eq (p : List Char) : components p = parents p ++ [fileName p] := by
  obtain ⟨front, last, hsplit⟩ := (List.eq_nil_or_concat' (components p)).resolve_left
    (List.splitOn_ne_nil '/' p)
  simp [parents, fileName, hsplit]

theorem components_cons (c : Char) (p : List Char) : components (c :: p) =
    if c = '/' then [] :: components p else (components p).modifyHead (c :: ·) := by
  unfold components
  rw [List.splitOn_cons_eq_if_modifyHead]
  simp only [beq_iff_eq]

/-- What has no slash goes to the last component. -/
theorem components_append {s : List Char} (hs : '/' ∉ s) : ∀ {p : List Char}
    {front : List (List Char)} {last : List Char}, components p = front ++ [last] →
      components (p ++ s) = front ++ [last ++ s]
  | [], front, last, h => by
    obtain ⟨rfl, hlast⟩ := List.append_inj' (show [] ++ [[]] = front ++ [last] from h) rfl
    obtain rfl := List.singleton_inj.mp hlast
    exact List.splitOn_eq_singleton hs
  | c :: p, front, last, h => by
    have ih := components_append hs (components_eq p)
    rw [components_cons, components_eq p] at h
    rw [List.cons_append, components_cons, ih]
    by_cases hc : c = '/'
    · rw [if_pos hc] at h ⊢
      have hfront : ([] :: parents p) ++ [fileName p] = front ++ [last] := h
      obtain ⟨rfl, hlast⟩ := List.append_inj' hfront rfl
      rw [List.singleton_inj.mp hlast]
      rfl
    · rw [if_neg hc] at h ⊢
      cases hparents : parents p with
      | nil =>
        rw [hparents] at h
        have hfront : [] ++ [c :: fileName p] = front ++ [last] := h
        obtain ⟨rfl, hlast⟩ := List.append_inj' hfront rfl
        rw [← List.singleton_inj.mp hlast]
        rfl
      | cons first parents =>
        rw [hparents] at h
        have hfront : ((c :: first) :: parents) ++ [fileName p] = front ++ [last] := h
        obtain ⟨rfl, hlast⟩ := List.append_inj' hfront rfl
        rw [List.singleton_inj.mp hlast]
        rfl

theorem isAbsolute_append {s : List Char} (hs : '/' ∉ s) (p : List Char) :
    isAbsolute (p ++ s) = isAbsolute p := by
  cases p with
  | nil => cases s <;> simp_all [isAbsolute, eq_comm]
  | cons c p => rfl

/-- What is put after a path goes to the name of its file, and leaves its directory. -/
theorem resolve_append {s : List Char} (hs : '/' ∉ s) (hlength : 2 < s.length) (cwd : Dir)
    (p : List Char) : resolve cwd (p ++ s) = directory cwd p ++ [fileName p ++ s] := by
  have hname : 2 < (fileName p ++ s).length := by
    rw [List.length_append]
    omega
  rw [resolve, components_append hs (components_eq p), walk_append, base, isAbsolute_append hs]
  exact enter_name hname _

theorem components_slash (p q : List Char) :
    components (p ++ '/' :: q) = components p ++ components q :=
  List.splitOn_append_cons_self p q

/-- A joined path leads where its second part leads from where its first part does. -/
theorem resolve_join (cwd : Dir) (p q : List Char) :
    resolve cwd (join p q) = resolve (resolve cwd p) q := by
  unfold join
  by_cases hq : isAbsolute q
  · simp only [hq, if_true, resolve, base]
  rw [if_neg hq]
  have hbase (d : Dir) : base d q = d := if_neg hq
  split
  · rename_i hp
    rcases hp with rfl | hp
    · rfl
    · obtain ⟨r, rfl⟩ := List.getLast?_eq_some_iff.mp hp
      have hsame : base cwd (r ++ '/' :: q) = base cwd (r ++ ['/']) := by cases r <;> rfl
      rw [List.append_assoc, List.singleton_append]
      simp only [resolve, hbase, hsame, components_slash, walk_append]
      rfl
  · rename_i hp
    rw [not_or] at hp
    obtain ⟨c, p, rfl⟩ := List.exists_cons_of_ne_nil hp.1
    simp only [resolve, hbase, components_slash, walk_append]
    rfl

theorem inside_append_iff {d d' : Dir} {name : List Char} :
    Inside d (d' ++ [name]) ↔ d <+: d' := by
  rw [Inside, List.prefix_concat_iff]
  constructor
  · rintro ⟨heq | h, hne⟩
    · exact absurd heq hne
    · exact h
  · intro h
    refine ⟨Or.inr h, fun heq => ?_⟩
    have hlength := h.length_le
    rw [heq, List.length_append, List.length_singleton] at hlength
    omega

/-- A path without slashes is the name of a file. -/
theorem parents_of_notMem {p : List Char} (h : '/' ∉ p) : parents p = [] ∧ fileName p = p := by
  simp [parents, fileName, components, List.splitOn_eq_singleton h]

theorem directory_of_notMem {p : List Char} (h : '/' ∉ p) (cwd : Dir) : directory cwd p = cwd := by
  have hrelative : isAbsolute p = false := by
    cases p <;> simp_all [isAbsolute, eq_comm]
  rw [directory, (parents_of_notMem h).1, base, hrelative]
  rfl

end Paths
