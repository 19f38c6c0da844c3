import Yapm.AppendFile
import Yapm.Logging
import Yapm.TaskRegistry
import Mathlib.Data.List.Induction

/-!
# Streaming a process's output to its log file

`asyncTruncateStreamToFile` writes every line of a stream to a file opened in append
mode and asks `truncateFile` to cut the file once the bytes counted in `currSize`
exceed `maxSize`. The cut keeps the last `maxSize / 4` bytes, which it finds at
`currSize - maxSize / 4`; the counter itself is not set back.

The state after `k` iterations is the run on the first `k` lines. On a file on which nothing
fails an iteration is a `logStep` (`streamLine_healthy`), and `content_of_le`,
`content_of_first_overflow` and `content_of_second_overflow` say what the file holds
while the counter has overflowed never, once, and more than once.

`currSize` is a natural number. A file is shorter than `2 ^ 63` bytes and so is a line,
so the `usize` counter does not wrap before the second overflow, and from there on
retention fails whatever the counter does.
-/

open AppendFile

namespace Yapm

/-! ## The source -/

/-- `a - b` on `usize`, with the panic of a subtraction that underflows. -/
def usizeSub (a b : ℕ) : FileM UInt8 ℕ :=
  if b ≤ a then pure (a - b) else throw ⟨"attempt to subtract with overflow"⟩

/-- `ProcessLogger::truncate_file`. -/
def truncateFile (maxLen currLen : ℕ) : FileM UInt8 Unit := do
  let value := maxLen / 4
  if currLen ≤ maxLen then
    return
  let pos ← usizeSub currLen value
  seek pos
  let b ← readToEnd
  setLen 0 0
  seek 0
  writeAll b

/-- How the streaming loop ends. -/
inductive StreamEnd
  | returned (result : Except AsyncError Unit)
  | panicked (msg : String)

/-- What the streaming loop works on : the target file, the counter, and the shared
buffer with the mutex around it. -/
structure Streaming where
  target : File UInt8
  currSize : ℕ
  inter : LogManager
  poisoned : Bool

/-- One line as `next_line` delivers it, with the time at which its entry is made. -/
abbrev SourceLine := Except IoError (Timestamp × String)

/-- The type the loop gives its entries. -/
def entryType (tstream : Bool) : LogType :=
  if tstream then .stdout else .stderr

/-- The bytes written for one line. -/
def formatted (tstream : Bool) (line : Timestamp × String) : List UInt8 :=
  asBytes (LogEntry.toFstring ⟨entryType tstream, line.1, line.2⟩)

/-- One iteration of the loop : the state it leaves, and how the loop ends if it does. -/
def streamLine (maxSize : ℕ) (tstream : Bool) (s : Streaming) (line : Timestamp × String) :
    Streaming × Option StreamEnd :=
  let entry : LogEntry := ⟨entryType tstream, line.1, line.2⟩
  let complete := asBytes entry.toFstring
  match (do write complete; flush : FileM UInt8 Unit).exec s.target with
  | (.error e, target) =>
    ({ s with target }, some (.returned (.error (.asyncIOError e.msg))))
  | (.ok _, target) =>
    let s := { s with target, currSize := s.currSize + complete.length }
    if s.poisoned then
      (s, some (.returned (.error (.mutexError "poisoned lock: another task failed inside"))))
    else
      let s := { s with inter := s.inter.push entry }
      match (truncateFile maxSize s.currSize).exec s.target with
      | (.error e, target) =>
        -- the guard is dropped while the task unwinds
        ({ s with target, poisoned := true }, some (.panicked e.msg))
      | (.ok _, target) => ({ s with target }, none)

/-- `AsyncRuntime::async_truncate_stream_to_file` : the loop over the lines of `source`. -/
def asyncTruncateStreamToFile (maxSize : ℕ) (tstream : Bool) :
    List SourceLine → Streaming → Streaming × StreamEnd
  | [], s => (s, .returned (.ok ()))
  | .error e :: _, s => (s, .returned (.error (.asyncIOError e.msg)))
  | .ok line :: source, s =>
    match streamLine maxSize tstream s line with
    | (s', some stop) => (s', stop)
    | (s', none) => asyncTruncateStreamToFile maxSize tstream source s'

/-- The loop's start : a healthy file whose length is the counter handed over. -/
def Streaming.start (initial : List UInt8) (cursor : ℕ) (inter : LogManager) : Streaming where
  target := ⟨initial, cursor, none⟩
  currSize := initial.length
  inter := inter
  poisoned := false

/-! ## The subtraction -/

@[simp] theorem usizeSub_of_le {a b : ℕ} (h : b ≤ a) : usizeSub a b = pure (a - b) :=
  if_pos h

/-- The early return keeps the subtraction from underflowing : what is subtracted is at most the
cap, and the counter is above it. -/
theorem systemErrors_truncateFile (maxLen currLen : ℕ) :
    SystemErrors (truncateFile maxLen currLen) := by
  unfold truncateFile
  by_cases hle : currLen ≤ maxLen
  · simp only [hle, if_true]
    exact .pure ()
  · have hsub : maxLen / 4 ≤ currLen := (Nat.div_le_self ..).trans (not_le.mp hle).le
    simp only [hle, if_false, usizeSub_of_le hsub, pure_bind]
    exact .bind (.seek _) fun _ => .bind .readToEnd fun b => .bind (.setLen 0 0) fun _ =>
      .bind (.seek 0) fun _ => .writeAll b

/-- An iteration panics only at an error of the system. -/
theorem panicked_of_streamLine {maxSize : ℕ} {tstream : Bool} {s s' : Streaming}
    {line : Timestamp × String} {msg : String}
    (h : streamLine maxSize tstream s line = (s', some (.panicked msg))) : msg = "os error" := by
  unfold streamLine at h
  dsimp only at h
  split at h
  · cases h
  · split at h
    · cases h
    · split at h
      · next e target hcut =>
        cases h
        rw [systemErrors_truncateFile _ _ _ e target hcut]
      · cases h

/-- So does the loop, on any file and from any counter. -/
theorem panicked_of_asyncTruncateStreamToFile {maxSize : ℕ} {tstream : Bool} {msg : String} :
    ∀ {source : List SourceLine} {s : Streaming},
      (asyncTruncateStreamToFile maxSize tstream source s).2 = .panicked msg → msg = "os error"
  | [], _, h => by cases h
  | .error _ :: _, _, h => by cases h
  | .ok line :: source, s, h => by
    rw [asyncTruncateStreamToFile] at h
    rcases hl : streamLine maxSize tstream s line with ⟨s', _ | stop⟩
    · rw [hl] at h
      exact panicked_of_asyncTruncateStreamToFile h
    · rw [hl] at h
      exact panicked_of_streamLine (hl.trans (congrArg (fun stop => (s', some stop)) h))

/-! ## The file while nothing fails -/

/-- Content and counter after one more chunk. -/
def logStep (maxSize : ℕ) (log : List UInt8 × ℕ) (chunk : List UInt8) : List UInt8 × ℕ :=
  let counted := log.2 + chunk.length
  let content := log.1 ++ chunk
  (if counted ≤ maxSize then content else content.drop (counted - maxSize / 4), counted)

/-- Content and counter after all chunks, the counter starting at the file's length. -/
def logAfter (maxSize : ℕ) (initial : List UInt8) (chunks : List (List UInt8)) :
    List UInt8 × ℕ :=
  chunks.foldl (logStep maxSize) (initial, initial.length)

/-- Nothing fails on the target, and no task died holding the shared buffer. -/
def Streaming.Healthy (s : Streaming) : Prop :=
  s.target.budget = none ∧ s.poisoned = false

/-- The cut keeps what a reader at `currLen - maxLen / 4` gets. -/
theorem run_truncateFile (maxLen currLen : ℕ) (c : List UInt8) (p : ℕ) :
    ∃ p', (truncateFile maxLen currLen).exec ⟨c, p, none⟩ =
      (.ok (), ⟨if currLen ≤ maxLen then c else c.drop (currLen - maxLen / 4), p', none⟩) := by
  unfold truncateFile
  by_cases hle : currLen ≤ maxLen
  · exact ⟨p, by simp [hle]⟩
  · have hsub : maxLen / 4 ≤ currLen := (Nat.div_le_self ..).trans (not_le.mp hle).le
    let kept := c.drop (currLen - maxLen / 4)
    exact ⟨if kept.isEmpty then 0 else kept.length, by simp [hle, hsub, run_writeAll, kept]⟩

/-- On a healthy stream an iteration goes through and makes one `logStep`. -/
theorem streamLine_healthy (maxSize : ℕ) (tstream : Bool) {s : Streaming} (h : s.Healthy)
    (line : Timestamp × String) :
    ∃ s', streamLine maxSize tstream s line = (s', none) ∧ s'.Healthy ∧
      (s'.target.content, s'.currSize) =
        logStep maxSize (s.target.content, s.currSize) (formatted tstream line) := by
  obtain ⟨⟨c, p, b⟩, n, log, dead⟩ := s
  obtain ⟨rfl, rfl⟩ : b = none ∧ dead = false := h
  obtain ⟨p', hcut⟩ := run_truncateFile maxSize (n + (formatted tstream line).length)
    (c ++ formatted tstream line) (c ++ formatted tstream line).length
  refine ⟨⟨⟨(logStep maxSize (c, n) (formatted tstream line)).1, p', none⟩,
    n + (formatted tstream line).length, log.push ⟨entryType tstream, line.1, line.2⟩, false⟩,
    ?_, ⟨rfl, rfl⟩, rfl⟩
  unfold formatted at hcut
  simp only [streamLine, exec_bind, run_write, run_flush, hcut, Bool.false_eq_true, if_false]
  rfl

/-- A healthy run passes every line, and makes one `logStep` for each. -/
theorem asyncTruncateStreamToFile_healthy (maxSize : ℕ) (tstream : Bool) :
    ∀ (lines : List (Timestamp × String)) {s : Streaming}, s.Healthy →
      ∃ s', asyncTruncateStreamToFile maxSize tstream (lines.map .ok) s =
          (s', .returned (.ok ())) ∧ s'.Healthy ∧
        (s'.target.content, s'.currSize) =
          (lines.map (formatted tstream)).foldl (logStep maxSize)
            (s.target.content, s.currSize)
  | [], s, h => ⟨s, rfl, h, rfl⟩
  | line :: lines, s, h => by
    obtain ⟨t, ht, hth, hstep⟩ := streamLine_healthy maxSize tstream h line
    obtain ⟨s', hs', hsh, hfold⟩ := asyncTruncateStreamToFile_healthy maxSize tstream lines hth
    refine ⟨s', ?_, hsh, ?_⟩
    · rw [List.map_cons, asyncTruncateStreamToFile, ht]
      exact hs'
    · rw [hfold, hstep]
      rfl

/-! ## What the file holds -/

section Content

variable (maxSize : ℕ) (initial : List UInt8)

theorem logAfter_snoc (chunks : List (List UInt8)) (chunk : List UInt8) :
    logAfter maxSize initial (chunks ++ [chunk]) =
      logStep maxSize (logAfter maxSize initial chunks) chunk := by
  simp [logAfter]

/-- The counter is the number of bytes ever written, cut or not. -/
theorem counter_logAfter (chunks : List (List UInt8)) :
    (logAfter maxSize initial chunks).2 = (initial ++ chunks.flatten).length := by
  induction chunks using List.reverseRecOn with
  | nil => simp [logAfter]
  | append_singleton chunks chunk ih =>
    rw [logAfter_snoc]
    simp only [logStep, ih]
    simp [Nat.add_assoc]

theorem flatten_snoc (chunks : List (List UInt8)) (chunk : List UInt8) :
    initial ++ (chunks ++ [chunk]).flatten = (initial ++ chunks.flatten) ++ chunk := by
  simp

theorem content_snoc (chunks : List (List UInt8)) (chunk : List UInt8) :
    (logAfter maxSize initial (chunks ++ [chunk])).1 =
      if (initial ++ (chunks ++ [chunk]).flatten).length ≤ maxSize then
        (logAfter maxSize initial chunks).1 ++ chunk
      else ((logAfter maxSize initial chunks).1 ++ chunk).drop
        ((initial ++ (chunks ++ [chunk]).flatten).length - maxSize / 4) := by
  rw [logAfter_snoc, flatten_snoc, @List.length_append _ _ chunk]
  simp only [logStep, counter_logAfter]

/-- A cut only drops bytes at the front. -/
theorem content_suffix (chunks : List (List UInt8)) :
    (logAfter maxSize initial chunks).1 <:+ initial ++ chunks.flatten := by
  induction chunks using List.reverseRecOn with
  | nil => simp [logAfter]
  | append_singleton chunks chunk ih =>
    have happ : (logAfter maxSize initial chunks).1 ++ chunk <:+
        initial ++ (chunks ++ [chunk]).flatten := by
      obtain ⟨t, ht⟩ := ih
      exact ⟨t, by rw [flatten_snoc, ← ht, List.append_assoc]⟩
    rw [content_snoc]
    split
    · exact happ
    · exact (List.drop_suffix _ _).trans happ

/-- Without an overflow nothing has been cut. -/
theorem content_of_le {chunks : List (List UInt8)}
    (h : (initial ++ chunks.flatten).length ≤ maxSize) :
    (logAfter maxSize initial chunks).1 = initial ++ chunks.flatten := by
  induction chunks using List.reverseRecOn with
  | nil => simp [logAfter]
  | append_singleton chunks chunk ih =>
    rw [content_snoc, if_pos h]
    rw [flatten_snoc] at h ⊢
    rw [ih (by rw [List.length_append] at h; omega)]

/-- The first overflow keeps the last `maxSize / 4` bytes. -/
theorem content_of_first_overflow {chunks : List (List UInt8)} {chunk : List UInt8}
    (hwhole : (logAfter maxSize initial chunks).1 = initial ++ chunks.flatten)
    (hlt : maxSize < (initial ++ (chunks ++ [chunk]).flatten).length) :
    (logAfter maxSize initial (chunks ++ [chunk])).1 =
      (initial ++ (chunks ++ [chunk]).flatten).rtake (maxSize / 4) := by
  rw [content_snoc, if_neg hlt.not_ge, hwhole, ← flatten_snoc]
  rfl

/-- Once the counter has overflowed, at most `maxSize / 4` bytes stay. -/
theorem length_content_of_overflow {chunks : List (List UInt8)} {chunk : List UInt8}
    (hlt : maxSize < (initial ++ (chunks ++ [chunk]).flatten).length) :
    (logAfter maxSize initial (chunks ++ [chunk])).1.length ≤ maxSize / 4 := by
  have hle := (content_suffix maxSize initial chunks).length_le
  rw [content_snoc, if_neg hlt.not_ge, flatten_snoc, List.length_drop, List.length_append,
    @List.length_append _ _ chunk]
  omega

/-- An iteration that does not overflow leaves no more than it counted, one that does leaves
no more than a quarter of the cap. -/
theorem length_content_snoc (chunks : List (List UInt8)) (chunk : List UInt8) :
    (logAfter maxSize initial (chunks ++ [chunk])).1.length ≤ maxSize := by
  by_cases hle : (initial ++ (chunks ++ [chunk]).flatten).length ≤ maxSize
  · exact (content_suffix maxSize initial (chunks ++ [chunk])).length_le.trans hle
  · exact (length_content_of_overflow maxSize initial (by omega)).trans (Nat.div_le_self ..)

/-- The second overflow looks for the bytes to keep behind the end of the file, finds
none, and erases everything. -/
theorem content_of_second_overflow {chunks : List (List UInt8)} {chunk chunk' : List UInt8}
    (hlt : maxSize < (initial ++ (chunks ++ [chunk]).flatten).length) :
    (logAfter maxSize initial (chunks ++ [chunk] ++ [chunk'])).1 = [] := by
  have hle := length_content_of_overflow maxSize initial hlt
  have hlen := congrArg List.length (flatten_snoc initial (chunks ++ [chunk]) chunk')
  rw [@List.length_append _ _ chunk'] at hlen
  rw [content_snoc, if_neg (by omega), List.drop_eq_nil_iff, List.length_append]
  omega

end Content

/-! ## Retention -/

/-- What retention asks of the content, `total` being everything the file was ever
given : it is the newest output, and at least a quarter of the cap. -/
def Retains (maxSize : ℕ) (total content : List UInt8) : Prop :=
  content <:+ total ∧ min total.length (maxSize / 4) ≤ content.length

/-- The initial content and every formatted line so far. -/
def totalOutput (tstream : Bool) (initial : List UInt8) (lines : List (Timestamp × String)) :
    List UInt8 :=
  initial ++ (lines.map (formatted tstream)).flatten

/-- The file's content when the loop has passed `lines`. -/
def contentAfter (maxSize : ℕ) (tstream : Bool) (initial : List UInt8) (cursor : ℕ)
    (inter : LogManager) (lines : List (Timestamp × String)) : List UInt8 :=
  (asyncTruncateStreamToFile maxSize tstream (lines.map .ok)
    (.start initial cursor inter)).1.target.content

theorem contentAfter_eq (maxSize : ℕ) (tstream : Bool) (initial : List UInt8) (cursor : ℕ)
    (inter : LogManager) (lines : List (Timestamp × String)) :
    contentAfter maxSize tstream initial cursor inter lines =
      (logAfter maxSize initial (lines.map (formatted tstream))).1 := by
  obtain ⟨s', hrun, -, hfold⟩ := asyncTruncateStreamToFile_healthy maxSize tstream lines
    (s := .start initial cursor inter) ⟨rfl, rfl⟩
  rw [contentAfter, hrun]
  exact congrArg Prod.fst hfold

/-- On a file that takes every operation each iteration completes and leaves the file within the
cap, and on no file at all does the subtraction of an iteration underflow. -/
theorem file_bounded (maxSize : ℕ) (tstream : Bool) (initial : List UInt8) (cursor : ℕ)
    (inter : LogManager) (lines : List (Timestamp × String)) :
    (∀ k < lines.length,
      (asyncTruncateStreamToFile maxSize tstream ((lines.take (k + 1)).map .ok)
        (.start initial cursor inter)).2 = .returned (.ok ()) ∧
      (contentAfter maxSize tstream initial cursor inter (lines.take (k + 1))).length ≤ maxSize) ∧
    ∀ (source : List SourceLine) (s : Streaming),
      (asyncTruncateStreamToFile maxSize tstream source s).2 ≠
        .panicked "attempt to subtract with overflow" := by
  refine ⟨fun k hk => ⟨?_, ?_⟩, fun source s h => ?_⟩
  · obtain ⟨s', hrun, -, -⟩ := asyncTruncateStreamToFile_healthy maxSize tstream
      (lines.take (k + 1)) (s := .start initial cursor inter) ⟨rfl, rfl⟩
    rw [hrun]
  · rw [contentAfter_eq, ← List.take_append_getElem hk, List.map_append, List.map_singleton]
    exact length_content_snoc maxSize initial _ _
  · exact absurd (panicked_of_asyncTruncateStreamToFile h) (by decide)

/-- The iteration that follows `lines` keeps enough when no earlier one overflowed. -/
theorem retains_snoc_of_le {maxSize : ℕ} {tstream : Bool} {initial : List UInt8}
    {lines : List (Timestamp × String)} (line : Timestamp × String)
    (h : lines = [] ∨ (totalOutput tstream initial lines).length ≤ maxSize) :
    Retains maxSize (totalOutput tstream initial (lines ++ [line]))
      (logAfter maxSize initial ((lines ++ [line]).map (formatted tstream))).1 := by
  have hwhole : (logAfter maxSize initial (lines.map (formatted tstream))).1 =
      initial ++ (lines.map (formatted tstream)).flatten := by
    rcases h with rfl | h
    · simp [logAfter]
    · exact content_of_le maxSize initial h
  refine ⟨content_suffix _ _ _, ?_⟩
  by_cases hle : (totalOutput tstream initial (lines ++ [line])).length ≤ maxSize
  · rw [content_of_le maxSize initial hle]
    exact min_le_left _ _
  · unfold totalOutput at hle ⊢
    rw [List.map_append, List.map_singleton] at hle ⊢
    rw [content_of_first_overflow maxSize initial hwhole (by omega), length_rtake]

/-- A second overflow leaves nothing of a cap of at least four bytes. -/
theorem not_retains_of_second_overflow {maxSize : ℕ} {tstream : Bool} {initial : List UInt8}
    {lines : List (Timestamp × String)} (line : Timestamp × String) (hcap : maxSize / 4 ≠ 0)
    (hne : lines ≠ []) (hlt : maxSize < (totalOutput tstream initial lines).length) :
    ¬Retains maxSize (totalOutput tstream initial (lines ++ [line]))
      (logAfter maxSize initial ((lines ++ [line]).map (formatted tstream))).1 := by
  rintro ⟨-, hlen⟩
  obtain ⟨lines, last, rfl⟩ := List.eq_nil_or_concat lines |>.resolve_left hne
  rw [List.concat_eq_append] at hlen hlt
  simp only [totalOutput, List.map_append, List.map_singleton] at hlen hlt
  rw [content_of_second_overflow maxSize initial hlt, flatten_snoc, List.length_append] at hlen
  simp only [List.length_nil, Nat.le_zero, Nat.min_eq_zero_iff] at hlen
  omega

/-- Retention holds after every iteration exactly when the cap is below four bytes or
every iteration but the last leaves the total within the cap. -/
theorem retains_iff (maxSize : ℕ) (tstream : Bool) (initial : List UInt8) (cursor : ℕ)
    (inter : LogManager) (lines : List (Timestamp × String)) :
    (∀ k < lines.length, Retains maxSize (totalOutput tstream initial (lines.take (k + 1)))
        (contentAfter maxSize tstream initial cursor inter (lines.take (k + 1)))) ↔
      maxSize / 4 = 0 ∨ ∀ k, 0 < k → k < lines.length →
        (totalOutput tstream initial (lines.take k)).length ≤ maxSize := by
  have htake : ∀ k (hk : k < lines.length), lines.take (k + 1) = lines.take k ++ [lines[k]] :=
    fun k hk => (List.take_append_getElem hk).symm
  simp only [contentAfter_eq]
  constructor
  · intro h
    by_contra hcon
    push Not at hcon
    obtain ⟨hcap, k, hk0, hk, hlt⟩ := hcon
    refine not_retains_of_second_overflow lines[k] hcap ?_ hlt (htake k hk ▸ h k hk)
    exact List.ne_nil_of_length_pos (by rw [List.length_take]; omega)
  · rintro (hcap | hle) k hk
    · refine ⟨content_suffix _ _ _, ?_⟩
      rw [hcap, Nat.min_zero]
      exact Nat.zero_le _
    · rw [htake k hk]
      refine retains_snoc_of_le _ ?_
      rcases Nat.eq_zero_or_pos k with rfl | hk0
      · exact Or.inl rfl
      · exact Or.inr (hle k hk0 hk)

/-- Eight bytes of cap, a file of nine bytes and two lines : the second line, the newest
output, is erased. -/
theorem newest_output_erased :
    ¬∀ k < 2, Retains 8
      (totalOutput true (List.replicate 9 0)
        ((List.replicate 2 (⟨0, 0, 0, 1, .january, 2025⟩, "hello")).take (k + 1)))
      (contentAfter 8 true (List.replicate 9 0) 0 ⟨[]⟩
        ((List.replicate 2 (⟨0, 0, 0, 1, .january, 2025⟩, "hello")).take (k + 1))) := by
  intro h
  have h2 := h 1 (by decide)
  rw [contentAfter_eq] at h2
  refine @not_retains_of_second_overflow 8 true (List.replicate 9 0)
    [(⟨0, 0, 0, 1, .january, 2025⟩, "hello")] _ (by decide) (by simp) ?_ h2
  simp [totalOutput]

end Yapm
