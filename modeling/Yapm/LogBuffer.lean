import Yapm.Histories
import Yapm.Streams

/-!
# What the log command shows

All streaming tasks and the daemon itself push to one buffer, and the log command shows the
newest of its entries (`getLogs`), newest first. The daemon's own display of the buffer shows
them in the order they were pushed in (`displayed`), and no more than a hundred.

Whatever the interleaving of the pushes, the buffer has the last hundred (`glv_of_recorded`).
So a command gets the newest of all entries ever pushed (`getLogs_of_recorded`), as many as it
asks for but no more than a hundred, with none left out between the ones it gets.
-/

open Runs

namespace Yapm

namespace LogManager

/-- `ProcessManager::get_logs`. -/
def getLogs (m : LogManager) (n : ℕ) : List LogEntry :=
  m.glv.reverse.take n

/-- The entries `display` writes to the terminal. -/
def displayed (m : LogManager) (n : ℕ) : List LogEntry :=
  let n := if 100 < n then 100 else n
  (m.glv.reverse.take n).reverse

variable (m : LogManager)

/-- A push puts its entry in front of the others, of which it leaves as many as there is
room for. -/
theorem reverse_push (entry : LogEntry) :
    (m.push entry).glv.reverse = (entry :: m.glv.reverse).take capacity := by
  have hlength : (m.glv ++ [entry]).length = m.glv.length + 1 := by simp
  have hreverse : (m.glv ++ [entry]).reverse = entry :: m.glv.reverse := by simp
  change ((m.glv ++ [entry]).drop (m.glv.length + 1 - capacity)).reverse = _
  rw [List.reverse_drop, hlength, hreverse]
  by_cases hroom : m.glv.length + 1 ≤ capacity
  · rw [Nat.sub_eq_zero_of_le hroom, Nat.sub_zero, List.take_of_length_le (by simp),
      List.take_of_length_le (by simpa using hroom)]
  · rw [Nat.sub_sub_self (Nat.le_of_not_le hroom)]

/-- The buffer has what it was given last. -/
def Recent (pushed : List LogEntry) : Prop :=
  m.glv.reverse = pushed.reverse.take capacity

variable {m} {pushed : List LogEntry}

theorem mem_of_mem_push {e entry : LogEntry} (h : e ∈ (m.push entry).glv) :
    e ∈ m.glv ∨ e = entry := by
  simpa using List.mem_of_mem_drop h

theorem Recent.push (h : m.Recent pushed) (entry : LogEntry) :
    (m.push entry).Recent (pushed ++ [entry]) := by
  rw [Recent, reverse_push, h, List.reverse_append, List.reverse_singleton, List.singleton_append]
  simp [capacity, List.take_take]

/-- Asked for a number of entries, the buffer gives the newest. -/
theorem Recent.getLogs (h : m.Recent pushed) (n : ℕ) :
    m.getLogs n = pushed.reverse.take (min n capacity) := by
  rw [LogManager.getLogs, h, List.take_take]

/-- The display is what the command gets, in the other order. -/
theorem displayed_eq (h : m.glv.length ≤ capacity) (n : ℕ) :
    m.displayed n = (m.getLogs n).reverse := by
  by_cases hn : 100 < n
  · have hall : m.glv.reverse.length ≤ 100 := by simpa [capacity] using h
    simp only [displayed, getLogs, if_pos hn]
    rw [List.take_of_length_le hall, List.take_of_length_le (hall.trans hn.le)]
  · simp only [displayed, getLogs, if_neg hn]

end LogManager

namespace Streams

/-- What a step pushes. -/
def note : Action → State → List LogEntry
  | .next _ _, _ => []
  | .push t, s => if s.poisoned then [] else (s.task t).entry.toList
  | .other entry, _ => [entry]

variable {init s s' : State} {a : Action} {t : StdStream} {before l : List LogEntry}

/-- A push of a task, by what it notes. -/
theorem push_cases (hs : s.push t = some s') :
    (note (.push t) s = [] ∧ s'.inter = s.inter ∧ s'.pushed = s.pushed) ∨
    ∃ entry, note (.push t) s = [entry] ∧ s'.inter = s.inter.push entry ∧
      s'.pushed = s.pushed ++ [entry] := by
  unfold State.push at hs
  dsimp only at hs
  split at hs
  · rename_i entry hended hentry
    obtain rfl := Option.some.inj hs
    by_cases hp : s.poisoned
    · refine .inl ⟨by simp [note, hp], ?_, if_pos hp⟩
      simp [State.advance, State.view, streamPush, hp]
    · refine .inr ⟨entry, by simp [note, hp, hentry], ?_, if_neg hp⟩
      simp only [State.advance, streamPush, State.view, hp, Bool.false_eq_true, if_false]
      split <;> rfl
  · cases hs

/-- Up to the lock an iteration leaves the buffer alone. -/
theorem streamWrite_inter (tstream : Bool) (v : Streaming) (line : Timestamp × String) :
    (streamWrite tstream v line).1.inter = v.inter := by
  unfold streamWrite
  dsimp only
  split <;> rfl

theorem next_inter {now : Timestamp} (hs : s.next t now = some s') :
    s'.inter = s.inter ∧ s'.pushed = s.pushed := by
  unfold State.next at hs
  dsimp only at hs
  split at hs
  · obtain rfl := Option.some.inj hs
    exact ⟨rfl, rfl⟩
  · have hinter := streamWrite_inter (s.task t).tstream (s.view t)
    split at hs <;> rename_i hwrite <;> obtain rfl := Option.some.inj hs
    · exact ⟨(congrArg (·.1.inter) hwrite).symm.trans (hinter _), rfl⟩
    · exact ⟨(congrArg (·.1.inter) hwrite).symm.trans (hinter _), rfl⟩
  · cases hs

/-- The buffer has the newest of what was there before and what was pushed since, and the
tasks have pushed some of it. -/
structure State.Buffered (before : List LogEntry) (s : State) (l : List LogEntry) : Prop where
  recent : s.inter.Recent (before ++ l)
  pushed : s.pushed.Sublist l

theorem State.Buffered.step (h : s.Buffered before l) (hs : step a s = some s') :
    s'.Buffered before (l ++ note a s) := by
  cases a with
  | next t now =>
    obtain ⟨hinter, hpushed⟩ := next_inter hs
    exact ⟨by simpa [note, hinter] using h.recent, by simpa [note, hpushed] using h.pushed⟩
  | push t =>
    obtain ⟨hnote, hinter, hpushed⟩ | ⟨entry, hnote, hinter, hpushed⟩ := push_cases hs
    · rw [hnote, List.append_nil]
      exact ⟨hinter ▸ h.recent, hpushed ▸ h.pushed⟩
    · rw [hnote]
      refine ⟨?_, hpushed ▸ h.pushed.append (List.Sublist.refl _)⟩
      rw [← List.append_assoc, hinter]
      exact h.recent.push entry
  | other entry =>
    obtain ⟨-, hs⟩ := Option.ite_none_left_eq_some.mp hs
    obtain rfl := Option.some.inj hs
    refine ⟨?_, h.pushed.trans (List.sublist_append_left _ _)⟩
    rw [← List.append_assoc]
    exact h.recent.push entry

theorem Recorded.buffered (h : Recorded Streams.step note init Any s l)
    (hrecent : init.inter.Recent before) (hpushed : init.pushed = []) : s.Buffered before l :=
  Recorded.invariant (I := State.Buffered before) h
    ⟨(List.append_nil before).symm ▸ hrecent, hpushed ▸ List.Sublist.refl _⟩
    fun _ _ _ _ _ hi _ hs => hi.step hs

/-- Of the lines of a stream, those logged so far come first. -/
theorem State.Inv.first_lines {lines : StdStream → Lines} {initial : StdStream → List UInt8}
    (h : s.Inv lines initial) (t : StdStream) :
    (s.entries (entryType (s.task t).tstream)).map (·.msg) <+: lines t := by
  have hmessages := (h.follows t).messages
  rw [List.map_append, List.append_assoc] at hmessages
  exact ⟨_, hmessages⟩

section Shown

variable {pid : Pid} {out err : Lines} {outFile errFile : List UInt8} {c c' : ℕ}
  {inter : LogManager}

/-- Whatever is logged while the tasks of a process run, asked for `n` entries the daemon gives
the newest of all that were ever pushed, newest first and no more than a hundred. Those of the
process are among them, and are the lines of each of its streams from the first on, in
order. -/
theorem getLogs_of_recorded (hinter : inter.glv.length ≤ LogManager.capacity)
    (hand : handOver ⟨pid, some err, some out⟩ ⟨outFile, c, none⟩ ⟨errFile, c', none⟩ inter =
      some init) (hr : Recorded step note init Any s l) (n : ℕ) :
    s.inter.getLogs n = (inter.glv ++ l).reverse.take (min n 100) ∧
      s.pushed.Sublist l ∧
      (s.entries .stderr).map (·.msg) <+: out ∧ (s.entries .stdout).map (·.msg) <+: err := by
  have hinv := inv_of_handOver hand
  have hfirst : init.inter = inter ∧ init.pushed = [] := by
    obtain rfl := Option.some.inj hand
    exact ⟨rfl, rfl⟩
  have hrecent : init.inter.Recent inter.glv := by
    rw [hfirst.1]
    exact (List.take_of_length_le (by simpa using hinter)).symm
  have hbuffered := Recorded.buffered hr hrecent hfirst.2
  have hreached := hinv.reach hr.forget
  refine ⟨hbuffered.recent.getLogs n, hbuffered.pushed, ?_, ?_⟩
  · have hfirst_lines := hreached.first_lines .stdout
    rwa [hreached.stdout] at hfirst_lines
  · have hfirst_lines := hreached.first_lines .stderr
    rwa [hreached.stderr] at hfirst_lines

/-- A line of a process, with an entry of the daemon before it in the buffer. -/
theorem getLogs_between : ∃ (s : State) (l : List LogEntry),
    l.map (·.msg) = ["note", "one"] ∧ s.inter.getLogs 5 = l.reverse.take 5 ∧
      s.pushed.Sublist l := by
  let now : Timestamp := ⟨0, 0, 0, 1, .january, 2025⟩
  let first : State := loggingCoordinator ⟨4096, 0, 0, [], ["one", "two"], ⟨[], 0, none⟩,
    ⟨[], 0, none⟩, 7⟩ ⟨[]⟩
  have hwritten : Recorded step note first Any _ _ :=
    Recorded.nil.snoc (a := .next .stdout now) trivial rfl
  have hnoted := hwritten.snoc (a := .other ⟨.yapmLog, now, "note"⟩) trivial rfl
  have hr := hnoted.snoc (a := .push .stdout) trivial rfl
  obtain ⟨hshown, hpushed, -⟩ :=
    @getLogs_of_recorded _ _ _ 7 ["one", "two"] [] [] [] 0 0 ⟨[]⟩ (by decide) rfl hr 5
  exact ⟨_, _, rfl, hshown, hpushed⟩

end Shown

end Streams

end Yapm
