import Yapm.LogStream
import Yapm.ProcessManager
import Yapm.Runs

/-!
# The two streams of a process

The standard streams of a child go through four hands before they are logged : `readers` of
the process, `setHandles` and `sendToRuntime` of its logger, and the coordinator of the
logging tasks, which gives each to a task of its own (`handOver`). The two tasks then run side
by side, and meet only at the shared buffer : an iteration is a step that reads and writes
(`streamWrite`), and one that holds the lock (`streamPush`).

However the two interleave, the entries of either type are the lines of one stream, in order,
and no others (`entries_of_done`), but that stream is the other one : the wrapper of the
stream of errors asks for entries of `Stdout`. So lines are logged under their own stream only
when there are none (`attributed_iff`).
-/

open AppendFile Runs

namespace Yapm

/-! ## An iteration in two halves -/

/-- An iteration of the streaming loop up to the lock. -/
def streamWrite (tstream : Bool) (s : Streaming) (line : Timestamp × String) :
    Streaming × Except StreamEnd LogEntry :=
  let entry : LogEntry := ⟨entryType tstream, line.1, line.2⟩
  let complete := asBytes entry.toFstring
  match (do write complete; flush : FileM UInt8 Unit).exec s.target with
  | (.error e, target) =>
    ({ s with target }, .error (.returned (.error (.asyncIOError e.msg))))
  | (.ok _, target) => ({ s with target, currSize := s.currSize + complete.length }, .ok entry)

/-- An iteration of the streaming loop from the lock on. -/
def streamPush (maxSize : ℕ) (s : Streaming) (entry : LogEntry) : Streaming × Option StreamEnd :=
  if s.poisoned then
    (s, some (.returned (.error (.mutexError "poisoned lock: another task failed inside"))))
  else
    let s := { s with inter := s.inter.push entry }
    match (truncateFile maxSize s.currSize).exec s.target with
    | (.error e, target) => ({ s with target, poisoned := true }, some (.panicked e.msg))
    | (.ok _, target) => ({ s with target }, none)

/-- Both halves, with nothing between them. -/
def streamHalves (maxSize : ℕ) (tstream : Bool) (s : Streaming) (line : Timestamp × String) :
    Streaming × Option StreamEnd :=
  match streamWrite tstream s line with
  | (s, .error stop) => (s, some stop)
  | (s, .ok entry) => streamPush maxSize s entry

/-- The halves are the iteration. -/
theorem streamHalves_eq (maxSize : ℕ) (tstream : Bool) (s : Streaming)
    (line : Timestamp × String) :
    streamHalves maxSize tstream s line = streamLine maxSize tstream s line := by
  unfold streamHalves streamWrite streamLine streamPush
  dsimp only
  rcases (do write (asBytes (LogEntry.toFstring ⟨entryType tstream, line.1, line.2⟩));
             flush : FileM UInt8 Unit).exec s.target with ⟨_ | _, target⟩ <;> rfl

namespace Streams

/-! ## From the process to its tasks -/

/-- What is still to come out of a pipe, line by line. -/
abbrev Lines := List String

/-- A child, with the read ends of its streams. -/
structure ManagedLinuxProcess where
  pid : Pid
  stderr : Option Lines
  stdout : Option Lines

/-- `ManagedLinuxProcess::readers`, which takes both ends : nothing when it panics. -/
def ManagedLinuxProcess.readers (p : ManagedLinuxProcess) : Option (Lines × Lines) := do
  let bout ← p.stdout
  let berr ← p.stderr
  return (bout, berr)

inductive FMaxSize
  | infinite
  | capped (cap : ℕ)

structure ProcessLogger where
  stderr : Option (File UInt8)
  stdout : Option (File UInt8)
  stderrSrc : Option Lines
  stdoutSrc : Option Lines
  stderrSize : ℕ
  stdoutSize : ℕ
  fmaxSize : FMaxSize
  pid : Pid

/-- The logger of a process, once both files are open. -/
def ProcessLogger.new (pid : Pid) (fhandleout fhandlerr : File UInt8) : ProcessLogger where
  stderr := some fhandlerr
  stdout := some fhandleout
  fmaxSize := .capped 4096
  stderrSrc := none
  stdoutSrc := none
  stderrSize := fhandlerr.content.length
  stdoutSize := fhandleout.content.length
  pid := pid

def ProcessLogger.setHandles (l : ProcessLogger) (stderr stdout : Lines) : ProcessLogger :=
  { l with stderrSrc := some stderr, stdoutSrc := some stdout }

structure LoggingTask where
  maxSize : ℕ
  errSize : ℕ
  outSize : ℕ
  ierr : Lines
  iout : Lines
  ferr : File UInt8
  fout : File UInt8
  pid : Pid

/-- What `send_to_runtime` submits. -/
def ProcessLogger.sendToRuntime (l : ProcessLogger) : Except LoggingError LoggingTask :=
  match l.stderrSrc, l.stdoutSrc, l.stdout, l.stderr with
  | some serr, some sout, some fout, some ferr => .ok {
      maxSize := match l.fmaxSize with
        | .capped cap => cap
        | .infinite => 2 ^ 64 - 1
      errSize := l.stderrSize
      outSize := l.stdoutSize
      ierr := serr
      iout := sout
      ferr := ferr
      fout := fout
      pid := l.pid }
  | _, _, _, _ => .error (.assertionError "There is no valid I/O source")

/-- What the calls of the manager know of a logger. -/
def ProcessLogger.known (l : ProcessLogger) : Yapm.ProcessLogger :=
  ⟨l.pid, l.stdout.isSome && l.stderr.isSome, l.stdoutSrc.isSome && l.stderrSrc.isSome⟩

/-- What they know decides whether something is submitted. -/
theorem ProcessLogger.sendToRuntime_isOk (l : ProcessLogger) :
    l.sendToRuntime.isOk = (l.known.sources && l.known.files) := by
  unfold ProcessLogger.sendToRuntime ProcessLogger.known
  rcases l with ⟨_ | _, _ | _, _ | _, _ | _, _, _, _, _⟩ <;> rfl

/-- A streaming task between two steps. -/
structure StreamTask where
  maxSize : ℕ
  currSize : ℕ
  source : Lines
  target : File UInt8
  tstream : Bool
  /-- The entry of the iteration at hand, once it is written. -/
  entry : Option LogEntry
  /-- How the task has ended. -/
  ended : Option StreamEnd
  /-- All that was ever written to the file, in order. -/
  written : List UInt8

/-- A task at the head of its loop. -/
def asyncTruncateStreamToFile (maxSize currSize : ℕ) (source : Lines) (target : File UInt8)
    (tstream : Bool) : StreamTask :=
  ⟨maxSize, currSize, source, target, tstream, none, none, []⟩

def truncateStreamStderr (stderr : Lines) (ferr : File UInt8) (maxSize currSize : ℕ) :
    StreamTask :=
  asyncTruncateStreamToFile maxSize currSize stderr ferr true

def truncateStreamStdout (stdout : Lines) (fout : File UInt8) (maxSize currSize : ℕ) :
    StreamTask :=
  asyncTruncateStreamToFile maxSize currSize stdout fout false

/-- The standard streams of a process. -/
inductive StdStream
  | stdout
  | stderr
deriving DecidableEq, Repr

/-- The type of the entries of a stream. -/
def StdStream.logType : StdStream → LogType
  | .stdout => .stdout
  | .stderr => .stderr

/-- The tasks of a process, and what they share with all others. -/
structure State where
  task : StdStream → StreamTask
  inter : LogManager
  poisoned : Bool
  /-- The entries these tasks have pushed, in order. -/
  pushed : List LogEntry

/-- The coordinator spawns the tasks. -/
def loggingCoordinator (t : LoggingTask) (inter : LogManager) : State where
  task
    | .stdout => truncateStreamStdout t.iout t.fout t.maxSize t.outSize
    | .stderr => truncateStreamStderr t.ierr t.ferr t.maxSize t.errSize
  inter := inter
  poisoned := false
  pushed := []

/-- From the process to its tasks. -/
def handOver (p : ManagedLinuxProcess) (fhandleout fhandlerr : File UInt8)
    (inter : LogManager) : Option State := do
  let (out, err) ← p.readers
  let logger := (ProcessLogger.new p.pid fhandleout fhandlerr).setHandles err out
  let task ← logger.sendToRuntime.toOption
  return loggingCoordinator task inter

/-! ## Two tasks side by side -/

/-- Where a task stands in the streaming loop. -/
def State.view (s : State) (t : StdStream) : Streaming :=
  ⟨(s.task t).target, (s.task t).currSize, s.inter, s.poisoned⟩

/-- A task gets something else to work on, and stands elsewhere in its loop. -/
def State.advance (s : State) (t : StdStream) (v : Streaming) (task : StreamTask) : State :=
  { s with
    task := Function.update s.task t { task with target := v.target, currSize := v.currSize }
    inter := v.inter
    poisoned := v.poisoned }

/-- A task gets its next line and writes it, or sees the end of its stream. -/
def State.next (s : State) (t : StdStream) (now : Timestamp) : Option State :=
  let task := s.task t
  match task.ended, task.entry, task.source with
  | none, none, [] =>
    some (s.advance t (s.view t) { task with ended := some (.returned (.ok ())) })
  | none, none, line :: source =>
    match streamWrite task.tstream (s.view t) (now, line) with
    | (v, .error stop) => some (s.advance t v { task with source, ended := some stop })
    | (v, .ok entry) =>
      some (s.advance t v { task with
        source
        entry := some entry
        written := task.written ++ formatted task.tstream (now, line) })
  | _, _, _ => none

/-- A task gets the lock, pushes its entry and cuts its file. -/
def State.push (s : State) (t : StdStream) : Option State :=
  let task := s.task t
  match task.ended, task.entry with
  | none, some entry =>
    let (v, stop) := streamPush task.maxSize (s.view t) entry
    let pushed := if s.poisoned then s.pushed else s.pushed ++ [entry]
    some { s.advance t v { task with entry := none, ended := stop } with pushed }
  | _, _ => none

inductive Action
  | next (t : StdStream) (now : Timestamp)
  | push (t : StdStream)
  /-- Something else is logged. -/
  | other (entry : LogEntry)

def step : Action → State → Option State
  | .next t now, s => s.next t now
  | .push t, s => s.push t
  | .other entry, s => if s.poisoned then none else some { s with inter := s.inter.push entry }

/-- Any step may follow any other. -/
def Any (_ : State) (_ : Action) : Prop := True

/-- Both tasks have ended. -/
def State.Done (s : State) : Prop := ∀ t, (s.task t).ended.isSome

/-! ## What every run keeps -/

/-- What was ever pushed under a type. -/
def State.entries (s : State) (ty : LogType) : List LogEntry :=
  s.pushed.filter (·.ty = ty)

/-- The bytes written for entries. -/
def output (entries : List LogEntry) : List UInt8 :=
  (entries.map fun e => asBytes e.toFstring).flatten

/-- A task that has got so far in its lines with `mine` pushed. -/
structure StreamTask.Follows (task : StreamTask) (lines : Lines) (initial : List UInt8)
    (mine : List LogEntry) : Prop where
  healthy : task.target.budget = none
  ty : ∀ e, task.entry = some e → e.ty = entryType task.tstream
  messages : (mine ++ task.entry.toList).map (·.msg) ++ task.source = lines
  written : task.written = output (mine ++ task.entry.toList)
  counted : task.currSize = (initial ++ task.written).length
  uncut : task.currSize ≤ task.maxSize → task.target.content = initial ++ task.written
  ended : ∀ stop, task.ended = some stop →
    stop = .returned (.ok ()) ∧ task.source = [] ∧ task.entry = none

/-- What holds in every state of a run of tasks for `lines`. -/
structure State.Inv (lines : StdStream → Lines) (initial : StdStream → List UInt8)
    (s : State) : Prop where
  poisoned : s.poisoned = false
  stdout : (s.task .stdout).tstream = false
  stderr : (s.task .stderr).tstream = true
  follows : ∀ t, (s.task t).Follows (lines t) (initial t)
    (s.entries (entryType (s.task t).tstream))

theorem output_append (es es' : List LogEntry) : output (es ++ es') = output es ++ output es' := by
  simp [output]

@[simp] theorem output_singleton (e : LogEntry) : output [e] = asBytes e.toFstring := by
  simp [output]

/-- On a healthy file the line is written, and its entry is in hand. -/
theorem streamWrite_healthy (tstream : Bool) {s : Streaming} (h : s.target.budget = none)
    (line : Timestamp × String) :
    ∃ target, streamWrite tstream s line =
        ({ s with target, currSize := s.currSize + (formatted tstream line).length },
          .ok ⟨entryType tstream, line.1, line.2⟩) ∧
      target.budget = none ∧ target.content = s.target.content ++ formatted tstream line := by
  obtain ⟨⟨c, p, b⟩, n, log, dead⟩ := s
  obtain rfl : b = none := h
  exact ⟨_, rfl, rfl, rfl⟩

/-- On a healthy file the entry is pushed, and what the counter allows stays. -/
theorem streamPush_healthy (maxSize : ℕ) {s : Streaming} (h : s.Healthy) (entry : LogEntry) :
    ∃ target, streamPush maxSize s entry =
        ({ s with target, inter := s.inter.push entry }, none) ∧
      target.budget = none ∧ (s.currSize ≤ maxSize → target.content = s.target.content) := by
  obtain ⟨⟨c, p, b⟩, n, log, dead⟩ := s
  obtain ⟨rfl, rfl⟩ : b = none ∧ dead = false := h
  obtain ⟨p', hcut⟩ := run_truncateFile maxSize n c p
  refine ⟨⟨if n ≤ maxSize then c else c.drop (n - maxSize / 4), p', none⟩, ?_, rfl,
    fun hle => if_pos hle⟩
  simp only [streamPush, Bool.false_eq_true, if_false, hcut]

namespace StreamTask.Follows

variable {task : StreamTask} {lines : Lines} {initial : List UInt8} {mine : List LogEntry}

/-- A line is written. -/
theorem write (h : task.Follows lines initial mine) {now : Timestamp} {line : String}
    {source : Lines} {target : File UInt8} (hended : task.ended = none)
    (hentry : task.entry = none) (hsource : task.source = line :: source)
    (hbudget : target.budget = none)
    (hcontent : target.content = task.target.content ++ formatted task.tstream (now, line)) :
    ({ task with
        source
        target
        currSize := task.currSize + (formatted task.tstream (now, line)).length
        entry := some ⟨entryType task.tstream, now, line⟩
        written := task.written ++ formatted task.tstream (now, line) } : StreamTask).Follows
      lines initial mine := by
  have hmessages := h.messages
  have hwritten := h.written
  have hcounted := h.counted
  rw [hentry, Option.toList_none, List.append_nil] at hmessages hwritten
  rw [List.length_append] at hcounted
  refine ⟨hbudget, fun e he => ?_, ?_, ?_, ?_, fun hle => ?_, fun stop hstop => ?_⟩
  · obtain rfl := Option.some.inj he
    rfl
  · rw [← hmessages, hsource]
    simp
  · rw [Option.toList_some, output_append, output_singleton, ← hwritten]
    rfl
  · simp only [List.length_append]
    omega
  · dsimp only at hle ⊢
    rw [hcontent, h.uncut (by omega), List.append_assoc]
  · rw [hended] at hstop
    cases hstop

/-- An entry is pushed. -/
theorem push (h : task.Follows lines initial mine) {entry : LogEntry} {target : File UInt8}
    (hended : task.ended = none) (hentry : task.entry = some entry)
    (hbudget : target.budget = none)
    (hcontent : task.currSize ≤ task.maxSize → target.content = task.target.content) :
    ({ task with target, entry := none } : StreamTask).Follows lines initial
      (mine ++ [entry]) := by
  have hmessages := h.messages
  have hwritten := h.written
  rw [hentry, Option.toList_some] at hmessages hwritten
  refine ⟨hbudget, nofun, ?_, ?_, h.counted, fun hle => ?_, fun stop hstop => ?_⟩
  · rw [Option.toList_none, List.append_nil]
    exact hmessages
  · rw [Option.toList_none, List.append_nil]
    exact hwritten
  · exact (hcontent hle).trans (h.uncut hle)
  · rw [hended] at hstop
    cases hstop

end StreamTask.Follows

section Step

variable {lines : StdStream → Lines} {initial : StdStream → List UInt8} {s s' : State}
  {t : StdStream}

/-- A step of one task leaves the other as it is, unless it pushes under its type. -/
theorem State.Inv.advance (h : s.Inv lines initial) {task : StreamTask}
    (htask : s'.task = Function.update s.task t task) (hpoisoned : s'.poisoned = false)
    (htstream : task.tstream = (s.task t).tstream)
    (hfollows : task.Follows (lines t) (initial t) (s'.entries (entryType task.tstream)))
    (hother : ∀ t' ≠ t, s'.entries (entryType (s.task t').tstream) =
      s.entries (entryType (s.task t').tstream)) : s'.Inv lines initial := by
  have htstreams (t' : StdStream) : (s'.task t').tstream = (s.task t').tstream := by
    rw [htask, Function.update_apply]
    split
    · subst t'
      exact htstream
    · rfl
  refine ⟨hpoisoned, (htstreams _).trans h.stdout, (htstreams _).trans h.stderr, fun t' => ?_⟩
  by_cases heq : t' = t
  · subst t'
    rw [htask, Function.update_self]
    exact hfollows
  · rw [htstreams, hother t' heq, htask, Function.update_of_ne heq]
    exact h.follows t'

theorem State.Inv.next (h : s.Inv lines initial) {now : Timestamp}
    (hs : s.next t now = some s') : s'.Inv lines initial := by
  have hf := h.follows t
  unfold State.next at hs
  dsimp only at hs
  split at hs
  · -- the end of the stream
    rename_i hended hentry hsource
    obtain rfl := Option.some.inj hs
    refine h.advance rfl h.poisoned rfl { hf with ended := fun stop hstop => ?_ } fun _ _ => rfl
    exact ⟨(Option.some.inj hstop).symm, hsource, hentry⟩
  · rename_i line source hended hentry hsource
    obtain ⟨target, hwrite, hbudget, hcontent⟩ :=
      @streamWrite_healthy (s.task t).tstream (s.view t) hf.healthy (now, line)
    rw [hwrite] at hs
    obtain rfl := Option.some.inj hs
    exact h.advance rfl h.poisoned rfl (hf.write hended hentry hsource hbudget hcontent)
      fun _ _ => rfl
  · cases hs

/-- The tasks have different types for their entries. -/
theorem State.Inv.entryType_ne (h : s.Inv lines initial) {t' : StdStream} (hne : t' ≠ t) :
    entryType (s.task t).tstream ≠ entryType (s.task t').tstream := by
  cases t <;> cases t' <;> simp_all [h.stdout, h.stderr, entryType]

theorem State.Inv.push (h : s.Inv lines initial) (hs : s.push t = some s') :
    s'.Inv lines initial := by
  have hf := h.follows t
  unfold State.push at hs
  dsimp only at hs
  split at hs
  · rename_i entry hended hentry
    obtain ⟨target, hpush, hbudget, hcontent⟩ :=
      @streamPush_healthy (s.task t).maxSize (s.view t) ⟨hf.healthy, h.poisoned⟩ entry
    rw [hpush, if_neg (by simp [h.poisoned])] at hs
    obtain rfl := Option.some.inj hs
    have hty : entry.ty = entryType (s.task t).tstream := hf.ty entry hentry
    refine h.advance rfl h.poisoned rfl ?_ fun t' hne => ?_
    · have hmine := hf.push hended hentry hbudget hcontent
      rw [← hended]
      simpa [State.entries, State.view, hty] using hmine
    · simp [State.entries, hty, h.entryType_ne hne]
  · cases hs

theorem State.Inv.step (h : s.Inv lines initial) {a : Action} (hs : step a s = some s') :
    s'.Inv lines initial := by
  cases a with
  | next t now => exact h.next hs
  | push t => exact h.push hs
  | other entry =>
    simp only [Streams.step, h.poisoned, Bool.false_eq_true, if_false, Option.some.injEq] at hs
    subst hs
    exact ⟨rfl, h.stdout, h.stderr, h.follows⟩

theorem State.Inv.reach (h : s.Inv lines initial) (hr : Reach Streams.step s Any s') :
    s'.Inv lines initial :=
  hr.invariant h fun _ _ _ hi _ hs => hi.step hs

/-- In the end the entries of the type a task has been given are the lines of its stream. -/
theorem State.Inv.entries_of_done (h : s.Inv lines initial) (hd : s.Done) (t : StdStream) :
    (s.entries (entryType (s.task t).tstream)).map (·.msg) = lines t ∧
    (s.task t).written = output (s.entries (entryType (s.task t).tstream)) := by
  have hf := h.follows t
  obtain ⟨stop, hstop⟩ := Option.isSome_iff_exists.mp (hd t)
  obtain ⟨-, hsource, hentry⟩ := hf.ended stop hstop
  have hmessages := hf.messages
  have hwritten := hf.written
  rw [hentry, Option.toList_none, List.append_nil] at hmessages hwritten
  rw [hsource, List.append_nil] at hmessages
  exact ⟨hmessages, hwritten⟩

/-! ## A run can be completed -/

/-- The steps a task has before it. -/
def StreamTask.remaining (task : StreamTask) : ℕ :=
  2 * task.source.length + task.entry.toList.length + if task.ended.isSome then 0 else 1

/-- The steps both tasks have before them. -/
def State.remaining (s : State) : ℕ :=
  (s.task .stdout).remaining + (s.task .stderr).remaining

theorem State.remaining_lt {task : StreamTask} (htask : s'.task = Function.update s.task t task)
    (hlt : task.remaining < (s.task t).remaining) : s'.remaining < s.remaining := by
  cases t <;> simp [State.remaining, htask, hlt]

/-- A task that has not ended has a step, after which less is left. -/
theorem State.Inv.progress (h : s.Inv lines initial) (hended : (s.task t).ended = none) :
    ∃ a s', Streams.step a s = some s' ∧ s'.remaining < s.remaining := by
  have hf := h.follows t
  cases hentry : (s.task t).entry with
  | some entry =>
    obtain ⟨target, hpush, -⟩ :=
      @streamPush_healthy (s.task t).maxSize (s.view t) ⟨hf.healthy, h.poisoned⟩ entry
    refine ⟨.push t, _, by simp only [Streams.step, State.push, hended, hentry, hpush]; rfl,
      State.remaining_lt rfl ?_⟩
    simp [StreamTask.remaining, hentry, hended]
  | none =>
    cases hsource : (s.task t).source with
    | nil =>
      refine ⟨.next t ⟨0, 0, 0, 1, .january, 2025⟩, _,
        by simp only [Streams.step, State.next, hended, hentry, hsource]; rfl,
        State.remaining_lt rfl ?_⟩
      simp [StreamTask.remaining, hentry, hended, hsource]
    | cons line source =>
      obtain ⟨target, hwrite, -⟩ := @streamWrite_healthy (s.task t).tstream (s.view t) hf.healthy
        (⟨0, 0, 0, 1, .january, 2025⟩, line)
      refine ⟨.next t ⟨0, 0, 0, 1, .january, 2025⟩, _,
        by simp only [Streams.step, State.next, hended, hentry, hsource, hwrite]; rfl,
        State.remaining_lt rfl ?_⟩
      simp [StreamTask.remaining, hentry, hended, hsource]
      omega

/-- From every state of a run both tasks can come to their end. -/
theorem State.Inv.exists_done (h : s.Inv lines initial) :
    ∃ s', Reach Streams.step s Any s' ∧ s'.Done := by
  induction hn : s.remaining using Nat.strong_induction_on generalizing s with
  | h n ih =>
    by_cases hd : s.Done
    · exact ⟨s, .init, hd⟩
    · obtain ⟨t, ht⟩ := not_forall.mp hd
      rw [Option.not_isSome_iff_eq_none] at ht
      obtain ⟨a, s', hs, hlt⟩ := h.progress ht
      obtain ⟨u, hu, hdone⟩ := ih s'.remaining (hn ▸ hlt) (h.step hs) rfl
      exact ⟨u, (Reach.init.step trivial hs).trans hu, hdone⟩

end Step

/-! ## Under which stream a line is logged -/

/-- Of two kinds of a thing, the one for a stream. -/
def StdStream.pick {β : Type} (out err : β) : StdStream → β
  | .stdout => out
  | .stderr => err

/-- Each stream has its own lines, all of them and in order, in the shared buffer, and its
file was given just these entries. -/
def Attributed (out err : Lines) (s : State) : Prop :=
  ∀ t : StdStream, (s.entries t.logType).map (·.msg) = t.pick out err ∧
    (s.task t).written = output (s.entries t.logType)

theorem head?_output (e : LogEntry) (es : List LogEntry) :
    (output (e :: es)).head? = (asBytes e.ty.asStr).head? := by
  rw [output, List.map_cons, List.flatten_cons, head?_asBytes_toFstring]

/-- Entries of different streams do not make the same file. -/
theorem eq_nil_of_output_eq {es es' : List LogEntry} (h : ∀ e ∈ es, e.ty = .stderr)
    (h' : ∀ e ∈ es', e.ty = .stdout) (heq : output es = output es') : es = [] := by
  cases es with
  | nil => rfl
  | cons e es =>
    have hfirst := head?_output e es
    rw [heq, h e List.mem_cons_self] at hfirst
    cases es' with
    | nil => exact absurd hfirst.symm (by rw [asBytes_eq]; decide +kernel)
    | cons e' es' =>
      rw [head?_output, h' e' List.mem_cons_self] at hfirst
      exact absurd hfirst (by rw [asBytes_eq, asBytes_eq]; decide +kernel)

section Attribution

variable {pid : Pid} {out err : Lines} {outFile errFile : List UInt8} {c c' : ℕ}
  {inter : LogManager} {s s' : State}

theorem inv_of_handOver
    (h : handOver ⟨pid, some err, some out⟩ ⟨outFile, c, none⟩ ⟨errFile, c', none⟩ inter =
      some s) : s.Inv (StdStream.pick out err) (StdStream.pick outFile errFile) := by
  obtain rfl := Option.some.inj h
  refine ⟨rfl, rfl, rfl, fun t => ?_⟩
  cases t <;> refine ⟨rfl, nofun, rfl, rfl, ?_, fun _ => ?_, nofun⟩ <;>
    exact (List.append_nil _).symm ▸ rfl

theorem State.Inv.entries_ty {lines : StdStream → Lines} {initial : StdStream → List UInt8}
    (h : s.Inv lines initial) (hd : s.Done) :
    ((s.entries .stderr).map (·.msg) = lines .stdout ∧
      (s.task .stdout).written = output (s.entries .stderr)) ∧
    ((s.entries .stdout).map (·.msg) = lines .stderr ∧
      (s.task .stderr).written = output (s.entries .stdout)) := by
  have hout := h.entries_of_done hd .stdout
  have herr := h.entries_of_done hd .stderr
  rw [h.stdout] at hout
  rw [h.stderr] at herr
  exact ⟨hout, herr⟩

/-- Lines are logged under their own stream, in every run of the tasks of a process to the end,
exactly when the process writes none. -/
theorem attributed_iff (pid : Pid) (out err : Lines) (outFile errFile : List UInt8) (c c' : ℕ)
    (inter : LogManager) :
    (∀ s s', handOver ⟨pid, some err, some out⟩ ⟨outFile, c, none⟩ ⟨errFile, c', none⟩ inter =
        some s → Reach step s Any s' → s'.Done → Attributed out err s') ↔
      out = [] ∧ err = [] := by
  constructor
  · intro h
    have hinit : (loggingCoordinator ⟨4096, errFile.length, outFile.length, err, out,
        ⟨errFile, c', none⟩, ⟨outFile, c, none⟩, pid⟩ inter).Inv (StdStream.pick out err)
          (StdStream.pick outFile errFile) := inv_of_handOver rfl
    obtain ⟨s', hr, hd⟩ := hinit.exists_done
    obtain ⟨hout, hfile⟩ : (s'.entries .stdout).map (·.msg) = out ∧
        (s'.task .stdout).written = output (s'.entries .stdout) := h _ s' rfl hr hd .stdout
    obtain ⟨⟨hout', hfile'⟩, herr, -⟩ := (hinit.reach hr).entries_ty hd
    have hnone : s'.entries .stderr = [] :=
      eq_nil_of_output_eq (by simp [State.entries]) (by simp [State.entries])
        (hfile'.symm.trans hfile)
    rw [hnone, List.map_nil] at hout'
    exact ⟨hout'.symm, herr.symm.trans (hout.trans hout'.symm)⟩
  · rintro ⟨rfl, rfl⟩ s s' hs hr hd
    obtain ⟨⟨hout, hfile⟩, herr, hfile'⟩ := ((inv_of_handOver hs).reach hr).entries_ty hd
    have hnone := List.map_eq_nil_iff.mp hout
    have hnone' := List.map_eq_nil_iff.mp herr
    intro t
    cases t
    · exact ⟨herr, by rw [hfile, hnone, StdStream.logType, hnone']⟩
    · exact ⟨hout, by rw [hfile', hnone', StdStream.logType, hnone]⟩

/-- A process writes one line to its stream of errors : it is logged as an ordinary line, there
and in its file. -/
theorem stderr_line_misattributed :
    ¬∀ s s', handOver ⟨7, some ["disk full"], some []⟩ ⟨[], 0, none⟩ ⟨[], 0, none⟩ ⟨[]⟩ =
      some s → Reach step s Any s' → s'.Done → Attributed [] ["disk full"] s' := by
  intro h
  have hinit := @inv_of_handOver 7 [] ["disk full"] [] [] 0 0 ⟨[]⟩ _ rfl
  obtain ⟨s', hr, hd⟩ := hinit.exists_done
  have hout : (s'.entries .stdout).map (·.msg) = [] := (h _ s' rfl hr hd .stdout).1
  rw [((hinit.reach hr).entries_ty hd).2.1] at hout
  cases hout

end Attribution

end Streams

end Yapm
