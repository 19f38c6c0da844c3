import Mathlib.Data.List.Basic
import Mathlib.Data.Nat.Notation

/-!
# Reading text

Words and lines of a text, as a standard library reads them. Bytes are the characters they
decode to, `none` for what does not decode.

`words_append_cons` and `words_intercalate` say what the words of a text put together are,
`splitFirst_eq_some_iff` what is before and after its first separator, and
`Source.forall_lines_iff` when every line of a file can be read.
-/

namespace Text

/-! ## Words -/

section Words

variable {α : Type} (p : α → Bool)

/-- The pieces of a list between separators, without the empty ones. -/
def words (l : List α) : List (List α) :=
  (l.splitOnP p).filter (!·.isEmpty)

@[simp] theorem words_nil : words p [] = [] := rfl

theorem words_append_cons {sep : α} (hsep : p sep) (xs ys : List α) :
    words p (xs ++ sep :: ys) = words p xs ++ words p ys := by
  simp only [words, List.splitOnP_append_cons xs ys hsep, List.filter_append]

/-- A list without separators is one word. -/
theorem words_of_forall {xs : List α} (h : ∀ x ∈ xs, p x = false) (hne : xs ≠ []) :
    words p xs = [xs] := by
  simp [words, List.splitOnP_eq_singleton h, hne]

/-- What is no separator is in the pieces between separators. -/
theorem exists_mem_splitOn [BEq α] [LawfulBEq α] {a sep : α} (h : a ≠ sep) : ∀ {l : List α},
    (∃ piece ∈ l.splitOn sep, a ∈ piece) ↔ a ∈ l
  | [] => by simp
  | x :: l => by
    have ih := exists_mem_splitOn h (l := l)
    obtain ⟨head, tail, hsplit⟩ := List.exists_cons_of_ne_nil (List.splitOn_ne_nil sep l)
    have hcons := List.splitOnP_cons_eq_if_modifyHead (p := (· == sep)) x l
    rw [← List.splitOn_eq_splitOnP, ← List.splitOn_eq_splitOnP] at hcons
    rw [hsplit] at ih
    by_cases hx : x == sep
    · simp_all
    · simp_all [or_assoc]

/-- Something that is no separator is in some word. -/
theorem words_ne_nil : ∀ {xs : List α}, (∃ x ∈ xs, p x = false) → words p xs ≠ []
  | [], h => by simp at h
  | x :: xs, h => by
    by_cases hx : p x
    · have hrest : ∃ y ∈ xs, p y = false := by simpa [hx] using h
      have hsplit := words_append_cons p hx [] xs
      rw [List.nil_append, words_nil, List.nil_append] at hsplit
      rw [hsplit]
      exact words_ne_nil hrest
    · have hmodify := List.splitOnP_cons_eq_if_modifyHead (p := p) x xs
      obtain ⟨head, tail, hsplit⟩ := List.exists_cons_of_ne_nil (List.splitOnP_ne_nil p xs)
      rw [if_neg hx, hsplit] at hmodify
      simp [words, hmodify]

/-- The words of pieces put together around a separator are the words of the pieces. -/
theorem words_intercalate {sep : α} (hsep : p sep) :
    ∀ ls : List (List α), words p ([sep].intercalate ls) = ls.flatMap (words p)
  | [] => rfl
  | [l] => by simp
  | l :: l' :: ls => by
    have ih := words_intercalate hsep (l' :: ls)
    rw [List.intercalate_cons_cons, List.append_assoc, List.singleton_append,
      words_append_cons p hsep, ih]
    rfl

end Words

/-! ## The first separator -/

section First

variable {α : Type} (p : α → Bool)

/-- What is before and after the first separator. -/
def splitFirst (l : List α) : Option (List α × List α) :=
  (l.findIdx? p).map fun i => (l.take i, l.drop (i + 1))

@[simp] theorem splitFirst_nil : splitFirst p [] = none := rfl

theorem splitFirst_cons (a : α) (l : List α) :
    splitFirst p (a :: l) =
      if p a then some ([], l) else (splitFirst p l).map fun split => (a :: split.1, split.2) := by
  rw [splitFirst, List.findIdx?_cons]
  split
  · rfl
  · rw [splitFirst, Option.map_map, Option.map_map]
    rfl

theorem splitFirst_eq_some_iff {xs ys : List α} : ∀ {l : List α},
    splitFirst p l = some (xs, ys) ↔
      ∃ sep, p sep ∧ l = xs ++ sep :: ys ∧ ∀ x ∈ xs, p x = false
  | [] => by simp
  | a :: l => by
    rw [splitFirst_cons]
    split
    · rename_i ha
      constructor
      · intro h
        obtain ⟨rfl, rfl⟩ := Prod.mk.inj (Option.some_inj.mp h)
        exact ⟨a, ha, rfl, by simp⟩
      · rintro ⟨sep, -, heq, hxs⟩
        cases xs with
        | nil => rw [(List.cons.inj heq).2]
        | cons x xs =>
          obtain ⟨rfl, -⟩ := List.cons.inj heq
          simp [hxs a] at ha
    · rename_i ha
      rw [Option.map_eq_some_iff]
      constructor
      · rintro ⟨⟨xs', ys'⟩, hsplit, heq⟩
        obtain ⟨rfl, rfl⟩ := Prod.mk.inj heq
        obtain ⟨sep, hsep, rfl, hxs⟩ := splitFirst_eq_some_iff.mp hsplit
        refine ⟨sep, hsep, rfl, fun x hx => ?_⟩
        rcases List.mem_cons.mp hx with rfl | hx
        · simpa using ha
        · exact hxs x hx
      · rintro ⟨sep, hsep, heq, hxs⟩
        cases xs with
        | nil =>
          obtain ⟨rfl, -⟩ := List.cons.inj heq
          exact absurd hsep ha
        | cons x xs =>
          obtain ⟨rfl, rfl⟩ := List.cons.inj heq
          exact ⟨(xs, ys), splitFirst_eq_some_iff.mpr
            ⟨sep, hsep, rfl, fun x hx => hxs x (.tail _ hx)⟩, rfl⟩

end First

/-! ## Whitespace -/

/-- The property `White_Space` of a character. -/
def isWhitespace (c : Char) : Bool :=
  let n := c.toNat
  (0x9 ≤ n && n ≤ 0xd) || n = 0x20 || n = 0x85 || n = 0xa0 || n = 0x1680 ||
    (0x2000 ≤ n && n ≤ 0x200a) || n = 0x2028 || n = 0x2029 || n = 0x202f || n = 0x205f ||
    n = 0x3000

theorem isWhitespace_of_isDigit {c : Char} (h : c.isDigit) : isWhitespace c = false := by
  have hrange : 0x30 ≤ c.toNat ∧ c.toNat ≤ 0x39 := by
    simpa [Char.isDigit, UInt32.le_iff_toNat_le] using h
  simp [isWhitespace]
  omega

/-! ## Results -/

section Results

variable {ε α : Type}

/-- The values of a list of results, or its first error. -/
def collect : List (Except ε α) → Except ε (List α)
  | [] => .ok []
  | .error e :: _ => .error e
  | .ok a :: l =>
    match collect l with
    | .error e => .error e
    | .ok as => .ok (a :: as)

theorem collect_eq_ok_iff : ∀ {l : List (Except ε α)} {as : List α},
    collect l = .ok as ↔ l = as.map .ok
  | [], as => by simp [collect, eq_comm]
  | .error e :: l, as => by cases as <;> simp [collect]
  | .ok a :: l, as => by
    have ih (bs : List α) : collect l = .ok bs ↔ l = bs.map .ok := collect_eq_ok_iff
    cases hl : collect l with
    | error e =>
      have hne (bs : List α) : l ≠ bs.map .ok := by simp [← ih, hl]
      cases as <;> simp [collect, hl, hne]
    | ok bs =>
      cases as with
      | nil => simp [collect, hl]
      | cons b as => simp [collect, hl, ← ih]

/-- There are values of all results when none is an error. -/
theorem exists_collect_iff {l : List (Except ε α)} :
    (∃ as, collect l = .ok as) ↔ ∀ r ∈ l, ∃ a, r = .ok a := by
  simp only [collect_eq_ok_iff]
  constructor
  · rintro ⟨as, rfl⟩ r hr
    obtain ⟨a, -, rfl⟩ := List.mem_map.mp hr
    exact ⟨a, rfl⟩
  · intro h
    induction l with
    | nil => exact ⟨[], rfl⟩
    | cons r l ih =>
      rw [List.forall_mem_cons] at h
      obtain ⟨a, rfl⟩ := h.1
      obtain ⟨as, rfl⟩ := ih h.2
      exact ⟨a :: as, rfl⟩

/-- The characters of bytes, when all of it decodes. -/
def decode (invalid : ε) (s : List (Option α)) : Except ε (List α) :=
  collect (s.map (·.elim (.error invalid) .ok))

theorem decode_eq_ok_iff {invalid : ε} {s : List (Option α)} {as : List α} :
    decode invalid s = .ok as ↔ s = as.map some := by
  rw [decode, collect_eq_ok_iff]
  induction s generalizing as with
  | nil => simp
  | cons x s ih => cases as <;> cases x <;> simp [ih]

theorem exists_decode_iff {invalid : ε} {s : List (Option α)} :
    (∃ as, decode invalid s = .ok as) ↔ none ∉ s := by
  rw [decode, exists_collect_iff, List.forall_mem_map]
  constructor
  · intro h hnone
    obtain ⟨a, ha⟩ := h none hnone
    cases ha
  · intro h x hx
    obtain ⟨a, rfl⟩ := Option.ne_none_iff_exists'.mp (ne_of_mem_of_not_mem hx h)
    exact ⟨a, rfl⟩

end Results

/-! ## Sources -/

/-- What a file gives when it is read : characters, `none` for what does not decode, and the
error that reading ends with, if any. -/
structure Source (ε : Type) where
  content : List (Option Char)
  error : Option ε
deriving DecidableEq, Repr

namespace Source

variable {ε : Type}

/-- Reading it whole. -/
def readToString (invalid : ε) (s : Source ε) : Except ε (List Char) :=
  match s.error with
  | some e => .error e
  | none => decode invalid s.content

theorem readToString_eq_ok_iff {invalid : ε} {s : Source ε} {t : List Char} :
    s.readToString invalid = .ok t ↔ s.error = none ∧ s.content = t.map some := by
  unfold readToString
  cases s.error <;> simp [decode_eq_ok_iff]

/-- The end of a line may have a carriage return. -/
def dropReturn (line : List (Option Char)) : List (Option Char) :=
  if line.getLast? = some (some '\r') then line.dropLast else line

/-- Reading it line by line. What is after the last newline is a line when it is not empty,
and is lost when reading fails there. -/
def lines (invalid : ε) (s : Source ε) : List (Except ε (List Char)) :=
  let pieces := s.content.splitOn (some '\n')
  let rest := pieces.getLastD []
  pieces.dropLast.map (fun line => decode invalid (dropReturn line)) ++
    match s.error with
    | some e => [.error e]
    | none => if rest = [] then [] else [decode invalid rest]

theorem mem_dropReturn {line : List (Option Char)} : none ∈ dropReturn line ↔ none ∈ line := by
  unfold dropReturn
  split
  · rename_i hlast
    obtain ⟨front, rfl⟩ := List.getLast?_eq_some_iff.mp hlast
    simp
  · rfl

/-- Every line can be read when reading does not fail, and all of it decodes. -/
theorem forall_lines_iff {invalid : ε} {s : Source ε} :
    (∀ line ∈ s.lines invalid, ∃ cs, line = .ok cs) ↔ s.error = none ∧ none ∉ s.content := by
  obtain ⟨front, rest, hsplit⟩ := (List.eq_nil_or_concat' (s.content.splitOn (some '\n')))
    |>.resolve_left (List.splitOn_ne_nil _ _)
  have hmem : (∃ piece ∈ s.content.splitOn (some '\n'), none ∈ piece) ↔ none ∈ s.content :=
    exists_mem_splitOn (by simp)
  have hlines (pieces : List (List (Option Char))) :
      (∀ line ∈ pieces.map fun piece => decode invalid (dropReturn piece), ∃ cs, line = .ok cs) ↔
        ∀ piece ∈ pieces, none ∉ piece := by
    simp [exists_decode_iff, mem_dropReturn]
  rw [hsplit] at hmem
  rw [← hmem]
  simp only [lines, hsplit, List.dropLast_concat, List.getLastD_concat, List.forall_mem_append,
    hlines]
  cases s.error with
  | some e => simp
  | none =>
    by_cases hrest : rest = []
    · simp [hrest]
    · simp [hrest, exists_decode_iff]

end Source

end Text
