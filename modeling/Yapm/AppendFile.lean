import Mathlib.Data.List.DropRight

/-!
# Files opened in append mode

A file handle that reads at a cursor and writes at the end. `File.budget` counts
the operations the system still serves : `none` is a file on which nothing fails,
`some k` one whose operation number `k`, counted from here, is the first to fail.
Each operation is a step of `FileM`, which stops at the first error and keeps the
file as the operations before it left it.

On a file on which nothing fails, every operation has one result (`run_write`,
`run_seek`, `run_readToEnd`, `run_setLen`). `Needs` says how many operations of the system one
takes : with fewer it fails, with more it leaves the rest. What an operation needs is what its
steps need (`Needs.bind`). An operation may also fail by itself, before it asks the system : one
that does not has `SystemErrors`.
-/

namespace AppendFile

variable {α : Type}

/-- An error of the operating system. -/
structure IoError where
  msg : String
deriving DecidableEq, Repr

/-- A file opened for reading and appending. -/
@[ext]
structure File (α : Type) where
  content : List α
  /-- Position of the next read. Writes ignore it. -/
  cursor : ℕ
  /-- How many operations succeed before one fails; `none` when none fails. -/
  budget : Option ℕ
deriving DecidableEq, Repr

/-- Operations on a file : they stop at the first error. -/
abbrev FileM (α β : Type) := ExceptT IoError (StateM (File α)) β

/-- Run an operation on a file. -/
def FileM.exec {β : Type} (m : FileM α β) (f : File α) : Except IoError β × File α :=
  (ExceptT.run m).run f

/-- One call to the system : it fails once the budget is used up. -/
def attempt : FileM α Unit := do
  let f ← get
  match f.budget with
  | none => pure ()
  | some 0 => throw ⟨"os error"⟩
  | some (k + 1) => set { f with budget := some k }

/-- `write` in append mode : all bytes land at the end. -/
def write (b : List α) : FileM α Unit := do
  attempt
  modify fun f => { f with content := f.content ++ b, cursor := (f.content ++ b).length }

/-- `write_all` in append mode : nothing is asked of the system when there is nothing to write. -/
def writeAll (b : List α) : FileM α Unit :=
  if b.isEmpty then pure () else write b

/-- `flush` : nothing is buffered. -/
def flush : FileM α Unit :=
  attempt

/-- `seek` from the start. -/
def seek (pos : ℕ) : FileM α Unit := do
  attempt
  modify fun f => { f with cursor := pos }

/-- `read_to_end` : everything from the cursor on. -/
def readToEnd : FileM α (List α) := do
  attempt
  let f ← get
  set { f with cursor := max f.cursor f.content.length }
  return f.content.drop f.cursor

/-- `set_len`, with `fill` for the bytes a longer file gains. -/
def setLen (fill : α) (n : ℕ) : FileM α Unit := do
  attempt
  modify fun f =>
    { f with content := f.content.take n ++ List.replicate (n - f.content.length) fill }

/-- A step followed by another : the second runs on the file the first leaves. -/
@[simp] theorem exec_bind {β γ : Type} (m : FileM α β) (k : β → FileM α γ) (f : File α) :
    (m >>= k).exec f =
      match m.exec f with
      | (.ok b, f') => (k b).exec f'
      | (.error e, f') => (.error e, f') := by
  simp only [FileM.exec, ExceptT.run_bind, StateT.run_bind]
  rcases h : StateT.run (ExceptT.run m) f with ⟨_ | _, _⟩ <;> rfl

@[simp] theorem exec_pure {β : Type} (b : β) (f : File α) :
    (pure b : FileM α β).exec f = (.ok b, f) :=
  rfl

/-! ## Files on which nothing fails -/

section NoFault

variable (c : List α) (p : ℕ)

@[simp] theorem run_write (b : List α) :
    (write b).exec ⟨c, p, none⟩ = (.ok (), ⟨c ++ b, (c ++ b).length, none⟩) :=
  rfl

theorem run_writeAll (b : List α) : (writeAll b).exec ⟨c, p, none⟩ =
    (.ok (), ⟨c ++ b, if b.isEmpty then p else (c ++ b).length, none⟩) := by
  cases b with
  | nil =>
    rw [List.append_nil]
    rfl
  | cons x b => rfl

@[simp] theorem run_flush : flush.exec ⟨c, p, none⟩ = (.ok (), ⟨c, p, none⟩) :=
  rfl

@[simp] theorem run_seek (pos : ℕ) :
    (seek pos).exec ⟨c, p, none⟩ = (.ok (), ⟨c, pos, none⟩) :=
  rfl

@[simp] theorem run_readToEnd :
    readToEnd.exec ⟨c, p, none⟩ = (.ok (c.drop p), ⟨c, max p c.length, none⟩) :=
  rfl

@[simp] theorem run_setLen (fill : α) (n : ℕ) :
    (setLen fill n).exec ⟨c, p, none⟩ =
      (.ok (), ⟨c.take n ++ List.replicate (n - c.length) fill, p, none⟩) :=
  rfl

end NoFault

/-! ## Files on which something fails -/

/-- The operation leads from one file to another with `n` operations of the system. -/
structure Needs {β : Type} (m : FileM α β) (c : List α) (p n : ℕ) (b : β) (c' : List α)
    (p' : ℕ) : Prop where
  served : ∀ k, n ≤ k → m.exec ⟨c, p, some k⟩ = (.ok b, ⟨c', p', some (k - n)⟩)
  failed : ∀ k < n, ∃ f, m.exec ⟨c, p, some k⟩ = (.error ⟨"os error"⟩, f)

namespace Needs

variable {β γ : Type} {c c₁ c₂ : List α} {p p₁ p₂ n n' : ℕ}

theorem pure (b : β) : Needs (pure b : FileM α β) c p 0 b c p :=
  ⟨fun _ _ => rfl, fun _ hk => absurd hk (Nat.not_lt_zero _)⟩

/-- What follows needs its own. -/
theorem bind {m : FileM α β} {next : β → FileM α γ} {b : β} {b' : γ}
    (h : Needs m c p n b c₁ p₁) (hnext : Needs (next b) c₁ p₁ n' b' c₂ p₂) :
    Needs (m >>= next) c p (n + n') b' c₂ p₂ := by
  refine ⟨fun k hk => ?_, fun k hk => ?_⟩
  · rw [exec_bind, h.served k (by omega)]
    dsimp only
    rw [hnext.served (k - n) (by omega), Nat.sub_sub]
  · rw [exec_bind]
    rcases Nat.lt_or_ge k n with hlt | hge
    · obtain ⟨f, hf⟩ := h.failed k hlt
      exact ⟨f, by rw [hf]⟩
    · rw [h.served k hge]
      exact hnext.failed (k - n) (by omega)

/-- One operation of the system. -/
theorem one {m : FileM α β} {b : β} (hserved : ∀ k, m.exec ⟨c, p, some (k + 1)⟩ =
      (.ok b, ⟨c₁, p₁, some k⟩)) (hfailed : m.exec ⟨c, p, some 0⟩ =
      (.error ⟨"os error"⟩, ⟨c, p, some 0⟩)) : Needs m c p 1 b c₁ p₁ := by
  refine ⟨fun k hk => ?_, fun k hk => ?_⟩
  · obtain ⟨k, rfl⟩ := Nat.exists_eq_add_of_le' hk
    exact hserved k
  · obtain rfl := Nat.lt_one_iff.mp hk
    exact ⟨_, hfailed⟩

theorem write (b : List α) :
    Needs (write b) c p 1 () (c ++ b) (c ++ b).length :=
  one (fun _ => rfl) rfl

theorem writeAll (b : List α) : Needs (writeAll b) c p (if b.isEmpty then 0 else 1) () (c ++ b)
    (if b.isEmpty then p else (c ++ b).length) := by
  cases b with
  | nil =>
    rw [List.append_nil]
    exact pure ()
  | cons x b => exact write (x :: b)

theorem flush : Needs flush c p 1 () c p :=
  one (fun _ => rfl) rfl

theorem seek (pos : ℕ) : Needs (seek pos) c p 1 () c pos :=
  one (fun _ => rfl) rfl

theorem readToEnd : Needs readToEnd c p 1 (c.drop p) c (max p c.length) :=
  one (fun _ => rfl) rfl

theorem setLen (fill : α) (n : ℕ) :
    Needs (setLen fill n) c p 1 () (c.take n ++ List.replicate (n - c.length) fill) p :=
  one (fun _ => rfl) rfl

theorem setLen_zero (fill : α) : Needs (AppendFile.setLen fill 0) c p 1 () [] p := by
  have h := @setLen _ c p fill 0
  rwa [List.take_zero, Nat.zero_sub, List.replicate_zero, List.append_nil] at h

end Needs

/-! ## What an operation fails with -/

/-- The operation fails only when the system does. -/
def SystemErrors {β : Type} (m : FileM α β) : Prop :=
  ∀ f e f', m.exec f = (.error e, f') → e = ⟨"os error"⟩

namespace SystemErrors

variable {β γ : Type}

theorem pure (b : β) : SystemErrors (pure b : FileM α β) :=
  fun _ _ _ h => by cases h

theorem bind {m : FileM α β} {next : β → FileM α γ} (h : SystemErrors m)
    (hnext : ∀ b, SystemErrors (next b)) : SystemErrors (m >>= next) := by
  intro f e f' hexec
  rw [exec_bind] at hexec
  rcases hm : m.exec f with ⟨e' | b, f₁⟩
  · rw [hm] at hexec
    obtain rfl : e' = e := Except.error.inj (congrArg Prod.fst hexec)
    exact h f e' f₁ hm
  · rw [hm] at hexec
    exact hnext b f₁ e f' hexec

theorem attempt : SystemErrors (attempt : FileM α Unit) := by
  rintro ⟨c, p, _ | _ | k⟩ e f' h
  · cases h
  · cases h
    rfl
  · cases h

/-- An attempt, and a change of the file that goes through. -/
theorem attempt_then {next : Unit → FileM α β} (h : ∀ f, ∃ b f', (next ()).exec f = (.ok b, f')) :
    SystemErrors (AppendFile.attempt >>= next) :=
  bind attempt fun _ f e f' hexec => by
    obtain ⟨b, f₁, hok⟩ := h f
    rw [hok] at hexec
    cases hexec

theorem write (b : List α) : SystemErrors (write b) :=
  attempt_then fun _ => ⟨_, _, rfl⟩

theorem writeAll (b : List α) : SystemErrors (writeAll b) := by
  unfold AppendFile.writeAll
  split
  · exact pure ()
  · exact write b

theorem seek (pos : ℕ) : SystemErrors (seek pos : FileM α Unit) :=
  attempt_then fun _ => ⟨_, _, rfl⟩

theorem readToEnd : SystemErrors (readToEnd : FileM α (List α)) :=
  attempt_then fun _ => ⟨_, _, rfl⟩

theorem setLen (fill : α) (n : ℕ) : SystemErrors (setLen fill n) :=
  attempt_then fun _ => ⟨_, _, rfl⟩

end SystemErrors

/-! ## The last elements of a list -/

@[simp] theorem length_rtake (l : List α) (n : ℕ) : (l.rtake n).length = min l.length n := by
  simp only [List.rtake, List.length_drop]
  omega

end AppendFile
