import Yapm.LogStream

/-!
# A log file that fails

`fileOps` lists what the streaming loop asks of its file, operation by operation. When the
first to fail is one of the loop itself, the loop returns an error, and the coordinator marks
the task as failed. When it is one of `truncateFile`, the loop panics with the shared buffer
locked, so no task of any process can log any more (`failsAlone_iff`).
-/

open AppendFile

namespace Yapm

/-! ## What is asked of the file -/

/-- The operations of the streaming loop on its file. -/
inductive FileOp
  | write
  | flush
  | seek
  | readToEnd
  | setLen
  | rewind
  | writeAll
deriving DecidableEq, Repr

/-- The operations of `truncateFile`. -/
def truncateOps (maxLen currLen : ℕ) (content : List UInt8) : List FileOp :=
  if currLen ≤ maxLen then []
  else [.seek, .readToEnd, .setLen, .rewind] ++
    if (content.drop (currLen - maxLen / 4)).isEmpty then [] else [.writeAll]

/-- The operations of an iteration. -/
def lineOps (maxSize : ℕ) (log : List UInt8 × ℕ) (chunk : List UInt8) : List FileOp :=
  [.write, .flush] ++ truncateOps maxSize (log.2 + chunk.length) (log.1 ++ chunk)

/-- The operations of the loop, from the content of the file and the counter. -/
def fileOps (maxSize : ℕ) (tstream : Bool) :
    List (Timestamp × String) → List UInt8 × ℕ → List FileOp
  | [], _ => []
  | line :: lines, log =>
    lineOps maxSize log (formatted tstream line) ++
      fileOps maxSize tstream lines (logStep maxSize log (formatted tstream line))

theorem needs_truncateFile (maxLen currLen : ℕ) (c : List UInt8) (p : ℕ) :
    ∃ p', Needs (truncateFile maxLen currLen) c p (truncateOps maxLen currLen c).length ()
      (if currLen ≤ maxLen then c else c.drop (currLen - maxLen / 4)) p' := by
  unfold truncateFile truncateOps
  by_cases hle : currLen ≤ maxLen
  · simp only [hle, if_true]
    exact ⟨p, .pure ()⟩
  · have hsub : maxLen / 4 ≤ currLen := (Nat.div_le_self ..).trans (not_le.mp hle).le
    simp only [hle, if_false, usizeSub_of_le hsub, pure_bind]
    let kept := c.drop (currLen - maxLen / 4)
    have hkept : Needs (do
        seek (currLen - maxLen / 4)
        let b ← readToEnd
        setLen 0 0
        seek 0
        writeAll b) c p (1 + (1 + (1 + (1 + if kept.isEmpty then 0 else 1)))) () kept
          (if kept.isEmpty then 0 else kept.length) :=
      .bind (.seek _) (.bind .readToEnd (.bind (.setLen_zero 0) (.bind (.seek 0)
        (.writeAll kept))))
    have hops : ([FileOp.seek, .readToEnd, .setLen, .rewind] ++
        if kept.isEmpty then [] else [FileOp.writeAll]).length =
          1 + (1 + (1 + (1 + if kept.isEmpty then 0 else 1))) := by
      split <;> rfl
    exact ⟨_, hops ▸ hkept⟩

/-! ## The loop on a file that fails -/

/-- A loop at a file that serves `k` operations and no more. -/
structure Streaming.At (s : Streaming) (log : List UInt8 × ℕ) (k : ℕ) : Prop where
  content : s.target.content = log.1
  currSize : s.currSize = log.2
  budget : s.target.budget = some k
  poisoned : s.poisoned = false

section Fault

variable {maxSize : ℕ} {tstream : Bool} {line : Timestamp × String} {s : Streaming}
  {log : List UInt8 × ℕ} {k : ℕ}

theorem needs_writeLine (chunk c : List UInt8) (p : ℕ) :
    Needs (do write chunk; flush : FileM UInt8 Unit) c p (1 + 1) () (c ++ chunk)
      (c ++ chunk).length :=
  .bind (.write chunk) .flush

/-- The line cannot be written. -/
theorem Streaming.At.writeFails (h : s.At log k) (hk : k < 2) :
    ∃ s', streamLine maxSize tstream s line =
      (s', some (.returned (.error (.asyncIOError "os error")))) ∧ s'.poisoned = false := by
  obtain ⟨⟨c, p, b⟩, n, inter, dead⟩ := s
  obtain ⟨rfl, rfl, rfl, rfl⟩ := h
  obtain ⟨f, hf⟩ := (needs_writeLine (formatted tstream line) log.1 p).failed k hk
  unfold formatted at hf
  exact ⟨⟨f, log.2, inter, false⟩, by simp only [streamLine, hf], rfl⟩

/-- The line is written, and the file cannot be cut. -/
theorem Streaming.At.cutFails (h : s.At log k) (hk : 2 ≤ k)
    (hlt : k < (lineOps maxSize log (formatted tstream line)).length) :
    ∃ s', streamLine maxSize tstream s line = (s', some (.panicked "os error")) ∧
      s'.poisoned = true := by
  obtain ⟨⟨c, p, b⟩, n, inter, dead⟩ := s
  obtain ⟨rfl, rfl, rfl, rfl⟩ := h
  have hwrite := (needs_writeLine (formatted tstream line) log.1 p).served k hk
  obtain ⟨p', hcut⟩ := needs_truncateFile maxSize (log.2 + (formatted tstream line).length)
    (log.1 ++ formatted tstream line) (log.1 ++ formatted tstream line).length
  obtain ⟨f, hf⟩ := hcut.failed (k - 2) (by
    rw [lineOps, List.length_append, List.length_cons, List.length_singleton] at hlt
    omega)
  unfold formatted at hwrite hf
  exact ⟨⟨f, _, inter.push ⟨entryType tstream, line.1, line.2⟩, true⟩,
    by simp only [streamLine, hwrite, hf, Bool.false_eq_true, if_false]; rfl, rfl⟩

/-- The iteration goes through. -/
theorem Streaming.At.passes (h : s.At log k)
    (hle : (lineOps maxSize log (formatted tstream line)).length ≤ k) :
    ∃ s', streamLine maxSize tstream s line = (s', none) ∧
      s'.At (logStep maxSize log (formatted tstream line))
        (k - (lineOps maxSize log (formatted tstream line)).length) := by
  obtain ⟨⟨c, p, b⟩, n, inter, dead⟩ := s
  obtain ⟨rfl, rfl, rfl, rfl⟩ := h
  rw [lineOps, List.length_append, List.length_cons, List.length_singleton] at hle ⊢
  have hwrite := (needs_writeLine (formatted tstream line) log.1 p).served k (by omega)
  obtain ⟨p', hcut⟩ := needs_truncateFile maxSize (log.2 + (formatted tstream line).length)
    (log.1 ++ formatted tstream line) (log.1 ++ formatted tstream line).length
  have hf := hcut.served (k - 2) (by omega)
  rw [Nat.sub_sub] at hf
  unfold formatted at hwrite hf ⊢
  exact ⟨⟨⟨_, p', _⟩, _, inter.push ⟨entryType tstream, line.1, line.2⟩, false⟩,
    by simp only [streamLine, hwrite, hf, Bool.false_eq_true, if_false]; rfl,
    rfl, rfl, rfl, rfl⟩

/-- The operations of the loop itself, which come first in an iteration. -/
def FileOp.ofLoop (op : FileOp) : Bool :=
  op = .write || op = .flush

theorem ofLoop_truncateOps {maxLen currLen : ℕ} {c : List UInt8} {op : FileOp}
    (h : op ∈ truncateOps maxLen currLen c) : op.ofLoop = false := by
  have hcut : ∀ op ∈ [FileOp.seek, .readToEnd, .setLen, .rewind, .writeAll], op.ofLoop = false := by
    decide
  unfold truncateOps at h
  split at h
  · cases h
  · exact hcut op (by split at h <;> grind)

theorem ofLoop_lineOps {chunk : List UInt8} {op : FileOp}
    (h : (lineOps maxSize log chunk)[k]? = some op) : op.ofLoop = decide (k < 2) := by
  match k with
  | 0 =>
    obtain rfl := Option.some.inj h
    rfl
  | 1 =>
    obtain rfl := Option.some.inj h
    rfl
  | k + 2 =>
    rw [ofLoop_truncateOps (List.mem_of_getElem? h), decide_eq_false (by omega)]

/-- What the first operation to fail is decides how the loop ends, and whether the buffer can be
locked after it. -/
theorem asyncTruncateStreamToFile_fails {lines : List (Timestamp × String)} {op : FileOp}
    (hs : s.At log k) (h : (fileOps maxSize tstream lines log)[k]? = some op) :
    ∃ s', asyncTruncateStreamToFile maxSize tstream (lines.map .ok) s =
        (s', if op.ofLoop then .returned (.error (.asyncIOError "os error"))
          else .panicked "os error") ∧
      s'.poisoned = !op.ofLoop := by
  induction lines generalizing s log k with
  | nil => cases h
  | cons line lines ih =>
    rw [fileOps] at h
    rw [List.map_cons, asyncTruncateStreamToFile]
    rcases Nat.lt_or_ge k (lineOps maxSize log (formatted tstream line)).length with hlt | hge
    · rw [List.getElem?_append_left hlt] at h
      rw [ofLoop_lineOps h]
      rcases Nat.lt_or_ge k 2 with hk | hk
      · obtain ⟨s', hline, hpoisoned⟩ := @Streaming.At.writeFails maxSize tstream line s log k hs hk
        exact ⟨s', by simp [hline, hk], by simp [hpoisoned, hk]⟩
      · obtain ⟨s', hline, hpoisoned⟩ := hs.cutFails hk hlt
        have hk' : ¬k < 2 := by omega
        exact ⟨s', by simp [hline, hk'], by simp [hpoisoned, hk']⟩
    · rw [List.getElem?_append_right hge] at h
      obtain ⟨s', hline, hs'⟩ := hs.passes hge
      rw [hline]
      exact ih hs' h

end Fault

/-! ## What the coordinator makes of it -/

/-- What the task that the coordinator spawned for a stream does at the end of the loop. It
panics when the buffer cannot be locked. -/
def onStreamEnd (name : String) (id : TaskId) (pid : Pid) (now : Timestamp) (poisoned : Bool)
    (treg : TaskRegistry) (inter : LogManager) : StreamEnd → TaskRegistry × LogManager
  | .returned (.error e) =>
    let failed := name ++ " streaming has failed for task-id: " ++ toString id ++ ": " ++ e.display
    let warning := "Output streaming has failed for task-id: " ++ toString id ++ " - pid: " ++
      toString pid
    ((treg.updateStatus id (.failed failed)).toOption.getD treg,
      if poisoned then inter else inter.push ⟨.yapmWarning, now, warning⟩)
  | _ => (treg, inter)

/-- A failure stays with its stream : the loop returns an error, its task is marked as failed, and
the buffer can be locked. -/
def FailsAlone (maxSize : ℕ) (tstream : Bool) (lines : List (Timestamp × String))
    (s : Streaming) : Prop :=
  ∃ s' e, asyncTruncateStreamToFile maxSize tstream (lines.map .ok) s =
      (s', .returned (.error e)) ∧ s'.poisoned = false ∧
    ∀ name id pid now treg, (treg.tasks id).isSome →
      ((onStreamEnd name id pid now s'.poisoned treg s'.inter
        (.returned (.error e))).1.tasks id).map (·.status) =
          some (.failed (name ++ " streaming has failed for task-id: " ++ toString id ++
            ": " ++ e.display))

theorem status_onStreamEnd (name : String) (id : TaskId) (pid : Pid) (now : Timestamp)
    (poisoned : Bool) {treg : TaskRegistry} (inter : LogManager) (e : AsyncError)
    (h : (treg.tasks id).isSome) :
    ((onStreamEnd name id pid now poisoned treg inter (.returned (.error e))).1.tasks id).map
      (·.status) = some (.failed (name ++ " streaming has failed for task-id: " ++ toString id ++
        ": " ++ e.display)) := by
  obtain ⟨task, htask⟩ := Option.isSome_iff_exists.mp h
  simp [onStreamEnd, TaskRegistry.updateStatus, htask, Except.toOption]

/-- A failure of the file stays with its stream exactly when the loop itself meets it, and not
`truncateFile`. -/
theorem failsAlone_iff (maxSize : ℕ) (tstream : Bool) (lines : List (Timestamp × String))
    (content : List UInt8) (cursor currSize : ℕ) (inter : LogManager) {k : ℕ} {op : FileOp}
    (h : (fileOps maxSize tstream lines (content, currSize))[k]? = some op) :
    FailsAlone maxSize tstream lines ⟨⟨content, cursor, some k⟩, currSize, inter, false⟩ ↔
      op = .write ∨ op = .flush := by
  have hop : op.ofLoop = true ↔ op = .write ∨ op = .flush := by
    simp [FileOp.ofLoop]
  obtain ⟨s', hend, hpoisoned⟩ := asyncTruncateStreamToFile_fails
    (s := ⟨⟨content, cursor, some k⟩, currSize, inter, false⟩) ⟨rfl, rfl, rfl, rfl⟩ h
  rw [← hop]
  constructor
  · rintro ⟨t, e, ht, -⟩
    by_contra hloop
    rw [hend, if_neg hloop] at ht
    cases ht
  · intro hloop
    rw [hloop] at hend hpoisoned
    exact ⟨s', _, hend, hpoisoned, fun name id pid now treg => status_onStreamEnd name id pid now
      _ s'.inter _⟩

/-- The first line cannot be written. -/
theorem failsAlone_write :
    (fileOps 4 true [(⟨0, 0, 0, 1, .january, 2025⟩, "hello")] ([], 0))[0]? = some .write ∧
    FailsAlone 4 true [(⟨0, 0, 0, 1, .january, 2025⟩, "hello")]
      ⟨⟨[], 0, some 0⟩, 0, ⟨[]⟩, false⟩ :=
  ⟨rfl, (failsAlone_iff 4 true _ [] 0 0 ⟨[]⟩ rfl).mpr (Or.inl rfl)⟩

/-- A file as long as the cap and one line, which cannot be cut to it : the loop panics, and nothing
can lock the buffer any more. -/
theorem seek_poisons :
    (fileOps 4096 true [(⟨0, 0, 0, 1, .january, 2025⟩, "hello")]
      (List.replicate 4096 0, 4096))[2]? = some .seek ∧
    ¬FailsAlone 4096 true [(⟨0, 0, 0, 1, .january, 2025⟩, "hello")]
      ⟨⟨List.replicate 4096 0, 0, some 2⟩, 4096, ⟨[]⟩, false⟩ := by
  have hline : ¬4096 + (formatted true (⟨0, 0, 0, 1, .january, 2025⟩, "hello")).length ≤ 4096 := by
    have hpos := List.length_pos_of_ne_nil (asBytes_toFstring_ne_nil
      ⟨.stdout, ⟨0, 0, 0, 1, .january, 2025⟩, "hello"⟩)
    exact Nat.not_le.mpr (Nat.lt_add_of_pos_right hpos)
  have hop : (fileOps 4096 true [(⟨0, 0, 0, 1, .january, 2025⟩, "hello")]
      (List.replicate 4096 0, 4096))[2]? = some .seek := by
    simp only [fileOps, lineOps, truncateOps, if_neg hline]
    rfl
  exact ⟨hop, (failsAlone_iff 4096 true _ (List.replicate 4096 0) 0 4096 ⟨[]⟩ hop).not.mpr
    (by decide)⟩

end Yapm
