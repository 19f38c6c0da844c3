import Yapm.LogStream
import Yapm.Utf8

/-!
# Whether a stream is read to its end

What a child writes to a stream are bytes. `nextLines` is what the streaming loop gets of them,
line by line : a line that is no text is an error of the reader, and the loop takes it for one
of the system. So it reads on to the end of the stream, with an entry for every line, exactly
when all that is written is text (`drains_iff`); the lines after the first that is not are
never read.
-/

open AppendFile

namespace Yapm

/-! ## The lines of a pipe -/

/-- The bytes of a line as a string. -/
def readLine (piece : List UInt8) : Except IoError String :=
  match Utf8.decode piece with
  | some line => .ok line
  | none => .error ⟨"stream did not contain valid UTF-8"⟩

/-- A line without the return before its break. -/
def dropReturn (line : String) : String :=
  if line.toList.getLast? = some '\r' then String.ofList line.toList.dropLast else line

/-- What `next_line` gives, one after the other, for the bytes of a pipe : the last line may
lack its break. -/
def nextLines (bytes : List UInt8) : List (Except IoError String) :=
  let pieces := bytes.splitOn Utf8.newline
  let rest := pieces.getLastD []
  pieces.dropLast.map (fun piece => (readLine piece).map dropReturn) ++
    if rest = [] then [] else [readLine rest]

/-- The lines of a pipe, with the clock as it is at each. -/
def pipeSource (clock : ℕ → Timestamp) (bytes : List UInt8) : List SourceLine :=
  (nextLines bytes).mapIdx fun i line => line.map (clock i, ·)

theorem isOk_map {ε β γ : Type} (r : Except ε β) (f : β → γ) : (r.map f).isOk = r.isOk := by
  cases r <;> rfl

theorem readLine_isOk_iff {piece : List UInt8} : (readLine piece).isOk ↔ Utf8.Valid piece := by
  rw [← Utf8.decode_isSome_iff, readLine]
  cases Utf8.decode piece <;> simp [Except.isOk, Except.toBool]

/-- All lines can be read exactly when all bytes are text. -/
theorem nextLines_isOk_iff {bytes : List UInt8} :
    (∀ line ∈ nextLines bytes, line.isOk) ↔ Utf8.Valid bytes := by
  obtain ⟨front, rest, hsplit⟩ := (List.eq_nil_or_concat' (bytes.splitOn Utf8.newline))
    |>.resolve_left (List.splitOn_ne_nil _ _)
  rw [Utf8.valid_iff_pieces, nextLines]
  simp only [hsplit, List.dropLast_concat, List.getLastD_concat, List.forall_mem_append,
    List.forall_mem_map, isOk_map, readLine_isOk_iff, List.forall_mem_singleton]
  refine and_congr_right' ?_
  by_cases hrest : rest = []
  · simp [hrest, Utf8.valid_nil]
  · simp [hrest, readLine_isOk_iff]

theorem pipeSource_isOk_iff {clock : ℕ → Timestamp} {bytes : List UInt8} :
    (∀ line ∈ pipeSource clock bytes, line.isOk) ↔ Utf8.Valid bytes := by
  rw [← nextLines_isOk_iff, List.forall_mem_iff_forall_getElem, List.forall_mem_iff_forall_getElem]
  simp [pipeSource, isOk_map]

/-! ## What the loop pushes -/

/-- What an iteration has pushed, by how it ends. -/
def pushedLine (tstream : Bool) (line : Timestamp × String) : Option StreamEnd → List LogEntry
  | some (.returned _) => []
  | _ => [⟨entryType tstream, line.1, line.2⟩]

/-- What the loop pushes. -/
def pushedEntries (maxSize : ℕ) (tstream : Bool) : List SourceLine → Streaming → List LogEntry
  | [], _ => []
  | .error _ :: _, _ => []
  | .ok line :: source, s =>
    match streamLine maxSize tstream s line with
    | (_, some stop) => pushedLine tstream line (some stop)
    | (s', none) => pushedLine tstream line none ++ pushedEntries maxSize tstream source s'

theorem streamLine_inter (maxSize : ℕ) (tstream : Bool) (s : Streaming)
    (line : Timestamp × String) :
    (streamLine maxSize tstream s line).1.inter =
      (pushedLine tstream line (streamLine maxSize tstream s line).2).foldl LogManager.push
        s.inter := by
  unfold streamLine
  dsimp only
  split
  · rfl
  · split
    · rfl
    · split <;> rfl

/-- The shared buffer gets what is pushed, and nothing else. -/
theorem asyncTruncateStreamToFile_inter (maxSize : ℕ) (tstream : Bool) :
    ∀ (source : List SourceLine) (s : Streaming),
      (asyncTruncateStreamToFile maxSize tstream source s).1.inter =
        (pushedEntries maxSize tstream source s).foldl LogManager.push s.inter
  | [], s => rfl
  | .error e :: source, s => rfl
  | .ok line :: source, s => by
    have hline := streamLine_inter maxSize tstream s line
    rw [asyncTruncateStreamToFile, pushedEntries]
    revert hline
    rcases streamLine maxSize tstream s line with ⟨s', _ | stop⟩ <;> intro hline
    · dsimp only at hline ⊢
      rw [List.foldl_append, ← hline]
      exact asyncTruncateStreamToFile_inter maxSize tstream source s'
    · exact hline

section Healthy

variable {maxSize : ℕ} {tstream : Bool} {source : List SourceLine} {s : Streaming}

/-- A healthy loop comes to the end of the stream exactly when it can read every line. -/
theorem asyncTruncateStreamToFile_ok_iff (h : s.Healthy) :
    (asyncTruncateStreamToFile maxSize tstream source s).2 = .returned (.ok ()) ↔
      ∀ line ∈ source, line.isOk := by
  induction source generalizing s with
  | nil => simp [asyncTruncateStreamToFile]
  | cons line source ih =>
    cases line with
    | error e => simp [asyncTruncateStreamToFile, Except.isOk, Except.toBool]
    | ok line =>
      obtain ⟨s', hline, hs', -⟩ := streamLine_healthy maxSize tstream h line
      rw [asyncTruncateStreamToFile, hline, List.forall_mem_cons]
      exact (ih hs').trans (and_iff_right rfl).symm

/-- It pushes an entry for every line before the first it cannot read. -/
theorem length_pushedEntries (h : s.Healthy) :
    (pushedEntries maxSize tstream source s).length = (source.takeWhile (·.isOk)).length := by
  induction source generalizing s with
  | nil => rfl
  | cons line source ih =>
    cases line with
    | error e => rfl
    | ok line =>
      obtain ⟨s', hline, hs', -⟩ := streamLine_healthy maxSize tstream h line
      rw [pushedEntries, hline, List.length_append, ih hs',
        List.takeWhile_cons_of_pos rfl, List.length_cons, Nat.add_comm]
      rfl

end Healthy

/-! ## Draining -/

/-- The loop gets to the end of the stream, and has pushed an entry for every line. -/
def Drains (maxSize : ℕ) (tstream : Bool) (clock : ℕ → Timestamp) (bytes : List UInt8)
    (s : Streaming) : Prop :=
  (asyncTruncateStreamToFile maxSize tstream (pipeSource clock bytes) s).2 = .returned (.ok ()) ∧
  (pushedEntries maxSize tstream (pipeSource clock bytes) s).length = (nextLines bytes).length

/-- A stream is read to its end, with an entry for every line, exactly when it is text. -/
theorem drains_iff (maxSize : ℕ) (tstream : Bool) (clock : ℕ → Timestamp) (bytes : List UInt8)
    (initial : List UInt8) (cursor : ℕ) (inter : LogManager) :
    Drains maxSize tstream clock bytes (.start initial cursor inter) ↔ Utf8.Valid bytes := by
  have hs : (Streaming.start initial cursor inter).Healthy := ⟨rfl, rfl⟩
  rw [Drains, asyncTruncateStreamToFile_ok_iff hs, pipeSource_isOk_iff,
    length_pushedEntries hs]
  refine and_iff_left_of_imp fun hvalid => ?_
  rw [List.takeWhile_eq_self_iff.mpr (pipeSource_isOk_iff.mpr hvalid), pipeSource,
    List.length_mapIdx]

/-- A byte that is no text, and a line after it : neither is logged. -/
theorem line_after_invalid_lost :
    ¬Drains 4096 true (fun _ => ⟨0, 0, 0, 1, .january, 2025⟩) [0xff, 10, 0x61, 10]
      (.start [] 0 ⟨[]⟩) :=
  (drains_iff ..).not.mpr (by decide +kernel)

end Yapm
