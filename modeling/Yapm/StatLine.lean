import Yapm.RuntimeMetrics

/-!
# The stat line of a process

`StatLine` is what the kernel writes to `/proc/[pid]/stat` : the pid, the command name in
parentheses, the state and the numbers, with single spaces between them. The program
chooses its command name.

`parse_cpu_status` counts words. The command name is one word exactly when it has no
whitespace, and these are the command names all of whose lines are parsed right
(`parsesRight_iff`).
-/

open Text

namespace Yapm

/-- A stat line. -/
structure StatLine where
  pid : ℕ
  /-- The bytes of the command name, decoded. -/
  comm : List (Option Char)
  state : Char
  ppid : ℤ
  pgrp : ℤ
  session : ℤ
  ttyNr : ℤ
  tpgid : ℤ
  flags : ℕ
  minflt : ℕ
  cminflt : ℕ
  majflt : ℕ
  cmajflt : ℕ
  utime : ℕ
  stime : ℕ
  cutime : ℕ
  cstime : ℕ
  priority : ℤ
  nice : ℤ
  numThreads : ℕ
  /-- The fields after `num_threads`. -/
  rest : List ℤ
  state_visible : isWhitespace state = false
  fits : ∀ n ∈ [utime, stime, cutime, cstime, numThreads], n < 2 ^ 64

namespace StatLine

open LinuxRuntimeMetrics (parseCpuStatus cpuFields assignFields assignFields_cons_eq_iff)

/-! ## Writing the line -/

/-- The fields after the state. -/
def numbers (line : StatLine) : List ℤ :=
  [line.ppid, line.pgrp, line.session, line.ttyNr, line.tpgid, line.flags, line.minflt,
    line.cminflt, line.majflt, line.cmajflt, line.utime, line.stime, line.cutime, line.cstime,
    line.priority, line.nice, line.numThreads] ++ line.rest

/-- How a number is written. -/
def digits (z : ℤ) : List Char :=
  (toString z).toList

/-- The bytes of the line, decoded. -/
def content (line : StatLine) : List (Option Char) :=
  [some ' '].intercalate ((digits line.pid).map some :: (some '(' :: line.comm ++ [some ')']) ::
    [some line.state] :: line.numbers.map fun z => (digits z).map some) ++ [some '\n']

/-- The line, when its command name is this text. -/
def text (line : StatLine) (comm : List Char) : List Char :=
  [' '].intercalate (digits line.pid :: ('(' :: comm ++ [')']) :: [line.state] ::
    line.numbers.map digits) ++ ['\n']

/-- The file `stat` of the process. -/
def file (line : StatLine) : ProcFile where
  content := line.content
  error := none
  seek := none

/-- Parsing the line sets the five metrics to the fields of their meaning, and no other. -/
def ParsesRight (line : StatLine) : Prop :=
  ∀ m : LinuxRuntimeMetrics, m.parseCpuStatus line.file = (none, { m with
    uptime := line.utime
    kernelTime := line.stime
    childrenUptime := line.cutime
    childrenKerneltime := line.cstime
    nthreads := line.numThreads })

variable {line : StatLine} {comm : List Char}

theorem map_intercalate {α β : Type} (f : α → β) (sep : α) : ∀ ls : List (List α),
    ([sep].intercalate ls).map f = [f sep].intercalate (ls.map (List.map f))
  | [] => rfl
  | [l] => by simp
  | l :: l' :: ls => by
    have ih := map_intercalate f sep (l' :: ls)
    simp only [List.map_cons, List.intercalate_cons_cons, List.map_append, List.map_nil] at *
    rw [ih]

theorem content_eq (h : line.comm = comm.map some) : line.content = (line.text comm).map some := by
  simp [content, text, h, map_intercalate, Function.comp_def]

/-! ## Reading its words -/

theorem digits_natCast (n : ℕ) : digits n = Nat.toDigits 10 n :=
  toString_toList n

theorem digits_negSucc (n : ℕ) : digits (.negSucc n) = '-' :: Nat.toDigits 10 (n + 1) := by
  have happend : digits (.negSucc n) = ("-" ++ toString (n + 1)).toList := rfl
  rw [happend, String.toList_append, toString_toList]
  rfl

theorem words_toDigits (n : ℕ) : words isWhitespace (Nat.toDigits 10 n) = [Nat.toDigits 10 n] :=
  words_of_forall _ (fun _ hc => isWhitespace_of_isDigit (isDigit_of_mem_toDigits hc))
    Nat.toDigits_ne_nil

theorem words_digits : ∀ z : ℤ, words isWhitespace (digits z) = [digits z]
  | .ofNat n => by
    rw [Int.ofNat_eq_natCast, digits_natCast]
    exact words_toDigits n
  | .negSucc n => by
    rw [digits_negSucc]
    refine words_of_forall _ (fun c hc => ?_) (List.cons_ne_nil _ _)
    rcases List.mem_cons.mp hc with rfl | hc
    · rfl
    · exact isWhitespace_of_isDigit (isDigit_of_mem_toDigits hc)

/-- The words of the line are the pid, the words of the command name in its parentheses, the
state and the numbers. -/
theorem words_text : words isWhitespace (line.text comm) =
    digits line.pid :: words isWhitespace ('(' :: comm ++ [')']) ++
      [line.state] :: line.numbers.map digits := by
  have hstate : words isWhitespace [line.state] = [[line.state]] :=
    words_of_forall _ (by simpa using line.state_visible) (List.cons_ne_nil _ _)
  have hnumbers : (line.numbers.map digits).flatMap (words isWhitespace) =
      line.numbers.map digits := by
    rw [List.flatMap_map, ← List.flatMap_singleton' (line.numbers.map digits), List.flatMap_map]
    simp only [words_digits]
  rw [text, words_append_cons _ (by rfl), words_intercalate _ (by rfl), words_nil,
    List.append_nil, List.flatMap_cons, List.flatMap_cons, List.flatMap_cons, hnumbers, hstate,
    words_digits]
  rfl

/-! ## Parsing the line -/

/-- The number that the word at an index is. -/
def readWord (cont : List Char) (i : ℕ) : Option ℕ :=
  (splitWhitespace cont)[i]?.bind parseUsize

theorem parseUsize_digits {n : ℕ} (h : n < 2 ^ 64) :
    parseUsize (String.ofList (digits n)) = some n := by
  rw [digits, String.ofList_toList]
  exact parseUsize_toString h

theorem parsesRight_iff_readWord : line.ParsesRight ↔ ∃ cont, line.content = cont.map some ∧
    readWord cont 13 = some line.utime ∧ readWord cont 14 = some line.stime ∧
    readWord cont 15 = some line.cutime ∧ readWord cont 16 = some line.cstime ∧
    readWord cont 19 = some line.numThreads := by
  have hparse (m m' : LinuxRuntimeMetrics) : m.parseCpuStatus line.file = (none, m') ↔
      ∃ cont, line.content = cont.map some ∧
        assignFields (splitWhitespace cont) cpuFields m = (none, m') := by
    have hread (t : List Char) : line.content = t.map some ↔
        line.file.readToString invalidUtf8 = .ok t := by
      simp [Source.readToString_eq_ok_iff, file]
    have hrewind : line.file.rewind = .ok line.file.toSource := rfl
    simp only [parseCpuStatus, hrewind, hread]
    cases line.file.readToString invalidUtf8 <;> simp
  simp only [ParsesRight, hparse]
  constructor
  · intro h
    obtain ⟨cont, hcont, hassign⟩ := h .default
    simp only [cpuFields, assignFields_cons_eq_iff] at hassign
    obtain ⟨v, hv, w, hw, x, hx, y, hy, z, hz, hall⟩ := hassign
    simp [assignFields] at hall
    obtain ⟨rfl, rfl, rfl, rfl, rfl⟩ := hall
    exact ⟨cont, hcont, hv, hw, hx, hy, hz⟩
  · rintro ⟨cont, hcont, h13, h14, h15, h16, h19⟩ m
    refine ⟨cont, hcont, ?_⟩
    simp only [cpuFields, assignFields_cons_eq_iff]
    exact ⟨_, h13, _, h14, _, h15, _, h16, _, h19, rfl⟩

/-- A command name that is a text without whitespace. -/
def Plain (comm : List (Option Char)) : Prop :=
  ∀ c ∈ comm, ∃ ch, c = some ch ∧ isWhitespace ch = false

/-- When the command name is plain, the words from the fourth on are the numbers. -/
theorem readWord_text (h : ∀ c ∈ comm, isWhitespace c = false) {i n : ℕ} (hn : n < 2 ^ 64)
    (hi : line.numbers[i]? = some (n : ℤ)) : readWord (line.text comm) (i + 3) = some n := by
  have hcomm : words isWhitespace ('(' :: comm ++ [')']) = ['(' :: comm ++ [')']] := by
    refine words_of_forall _ (fun c hc => ?_) (List.cons_ne_nil _ _)
    simp only [List.mem_append, List.mem_cons, List.not_mem_nil, or_false] at hc
    rcases hc with (rfl | hc) | rfl
    · rfl
    · exact h c hc
    · rfl
  rw [readWord, splitWhitespace, words_text, hcomm]
  simp [hi, parseUsize_digits hn]

theorem parsesRight_of_plain (h : Plain line.comm) : line.ParsesRight := by
  have hmem : none ∉ line.comm := by
    intro hnone
    obtain ⟨ch, hch, -⟩ := h none hnone
    cases hch
  obtain ⟨comm, hcomm⟩ : ∃ comm, decode invalidUtf8 line.comm = .ok comm :=
    exists_decode_iff.mpr hmem
  rw [decode_eq_ok_iff] at hcomm
  have hplain : ∀ c ∈ comm, isWhitespace c = false := by
    intro c hc
    obtain ⟨ch, hch, hspace⟩ := h (some c) (by rw [hcomm]; exact List.mem_map_of_mem hc)
    cases hch
    exact hspace
  have hfits := line.fits
  simp only [List.forall_mem_cons] at hfits
  obtain ⟨hutime, hstime, hcutime, hcstime, hthreads, -⟩ := hfits
  rw [parsesRight_iff_readWord]
  exact ⟨line.text comm, content_eq hcomm, readWord_text hplain hutime rfl,
    readWord_text hplain hstime rfl, readWord_text hplain hcutime rfl,
    readWord_text hplain hcstime rfl, readWord_text hplain hthreads rfl⟩

/-- The words before `utime`. -/
def wordsBefore (line : StatLine) (comm : List Char) : List (List Char) :=
  digits line.pid :: words isWhitespace ('(' :: comm ++ [')']) ++
    [line.state] :: (line.numbers.take 10).map digits

theorem words_text_eq : words isWhitespace (line.text comm) =
    line.wordsBefore comm ++ (line.numbers.drop 10).map digits := by
  simp only [words_text, wordsBefore, List.cons_append, List.append_assoc, ← List.map_append,
    List.take_append_drop]

/-- A command name with whitespace is more than one word, and `utime` is not word 13. -/
theorem lt_length_wordsBefore {c : Char} (hc : c ∈ comm) (hspace : isWhitespace c) :
    13 < (line.wordsBefore comm).length := by
  obtain ⟨front, back, rfl⟩ := List.append_of_mem hc
  have hsplit : words isWhitespace ('(' :: (front ++ c :: back) ++ [')']) =
      words isWhitespace ('(' :: front) ++ words isWhitespace (back ++ [')']) := by
    rw [← words_append_cons _ hspace]
    simp
  have hfront : words isWhitespace ('(' :: front) ≠ [] :=
    words_ne_nil _ ⟨'(', .head _, rfl⟩
  have hback : words isWhitespace (back ++ [')']) ≠ [] :=
    words_ne_nil _ ⟨')', by simp, rfl⟩
  have hfrontPos := List.length_pos_iff.mpr hfront
  have hbackPos := List.length_pos_iff.mpr hback
  rw [wordsBefore, hsplit]
  simp [numbers]
  omega

theorem readWord_eq (h : 13 < (line.wordsBefore comm).length) : readWord (line.text comm) 13 =
    (line.wordsBefore comm)[13]?.bind fun word => parseUsize (String.ofList word) := by
  rw [readWord, splitWhitespace, words_text_eq, List.getElem?_map, List.getElem?_append_left h]
  cases (line.wordsBefore comm)[13]? <;> rfl

/-- A line with a command name and a user time. -/
def ofComm (comm : List (Option Char)) (utime : ℕ) (h : utime < 2 ^ 64) : StatLine where
  pid := 1
  comm := comm
  state := 'S'
  ppid := 0
  pgrp := 0
  session := 0
  ttyNr := 0
  tpgid := 0
  flags := 0
  minflt := 0
  cminflt := 0
  majflt := 0
  cmajflt := 0
  utime := utime
  stime := 0
  cutime := 0
  cstime := 0
  priority := 0
  nice := 0
  numThreads := 1
  rest := []
  state_visible := rfl
  fits := by
    simp
    omega

/-- A line that is parsed right decodes. -/
theorem exists_text (h : line.ParsesRight) : ∃ comm, line.comm = comm.map some ∧
    readWord (line.text comm) 13 = some line.utime := by
  obtain ⟨cont, hcont, hutime, -⟩ := parsesRight_iff_readWord.mp h
  have hmem : none ∉ line.comm := by
    intro hnone
    have hnone' : none ∈ line.content := by
      simp [content, List.intercalate_cons_cons, hnone]
    simp [hcont] at hnone'
  obtain ⟨comm, hcomm⟩ : ∃ comm, decode invalidUtf8 line.comm = .ok comm :=
    exists_decode_iff.mpr hmem
  rw [decode_eq_ok_iff] at hcomm
  refine ⟨comm, hcomm, ?_⟩
  rw [content_eq hcomm] at hcont
  rwa [List.map_injective_iff.mpr (Option.some_injective _) hcont]

/-- Every line with a command name is parsed right exactly when the name is plain. -/
theorem parsesRight_iff (comm : List (Option Char)) :
    (∀ line : StatLine, line.comm = comm → line.ParsesRight) ↔ Plain comm := by
  constructor
  · intro h
    obtain ⟨cs, rfl, hzero⟩ := exists_text (h (ofComm comm 0 (by decide)) rfl)
    obtain ⟨cs', hcs', hone⟩ := exists_text (h (ofComm (cs.map some) 1 (by decide)) rfl)
    obtain rfl : cs = cs' := List.map_injective_iff.mpr (Option.some_injective _) hcs'
    intro c hc
    obtain ⟨ch, hch, rfl⟩ := List.mem_map.mp hc
    refine ⟨ch, rfl, Bool.eq_false_of_not_eq_true fun hspace => ?_⟩
    rw [readWord_eq (lt_length_wordsBefore hch hspace)] at hzero hone
    have hsame : some 0 = some 1 := hzero.symm.trans hone
    cases hsame
  · rintro h line rfl
    exact parsesRight_of_plain h

/-- A line of a program whose command name has a space. -/
def serverLine : StatLine :=
  { ofComm ("tmux: server".toList.map some) 5 (by decide) with stime := 3, fits := by decide }

/-- What is set is each time the field before the right one. -/
theorem serverLine_shifted : ¬serverLine.ParsesRight ∧
    parseCpuStatus serverLine.file .default = (none, { LinuxRuntimeMetrics.default with
      uptime := 0, kernelTime := 5, childrenUptime := 3, childrenKerneltime := 0,
      nthreads := 0 }) := by
  have hparse : parseCpuStatus serverLine.file .default = (none, { LinuxRuntimeMetrics.default with
      uptime := 0, kernelTime := 5, childrenUptime := 3, childrenKerneltime := 0,
      nthreads := 0 }) := by
    decide +kernel
  refine ⟨fun h => ?_, hparse⟩
  have hright := hparse.symm.trans (h .default)
  revert hright
  decide

end StatLine

end Yapm
