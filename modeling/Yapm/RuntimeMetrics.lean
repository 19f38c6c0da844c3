import Mathlib.Data.List.DropRight
import Yapm.Spawn
import Yapm.Text

/-!
# Reading the metrics of a process

`LinuxRuntimeMetrics` reads the files `status`, `io` and `stat` of its process again and
again, and keeps the numbers it finds. The functions that read a file leave the numbers
read so far when they fail.

`refresh` unwraps each of them, so no failure is its result : it panics, unless every file
can be read and has the numbers where they are looked for (`refresh_returns_iff`).
-/

open Text

namespace Yapm

/-! ## Metrics and files -/

structure LinuxRuntimeMetrics where
  vmrssKb : ℕ
  vmswapKb : ℕ
  vmsizeKb : ℕ
  vmhwmKb : ℕ
  rssanonKb : ℕ
  rssfileKb : ℕ
  rssshmemKb : ℕ
  uptime : ℕ
  kernelTime : ℕ
  childrenUptime : ℕ
  childrenKerneltime : ℕ
  nthreads : ℕ
  readBytes : ℕ
  writeBytes : ℕ
deriving DecidableEq, Repr

/-- `LinuxRuntimeMetrics::default`. -/
def LinuxRuntimeMetrics.default : LinuxRuntimeMetrics where
  vmrssKb := 0
  vmswapKb := 0
  vmsizeKb := 0
  vmhwmKb := 0
  rssanonKb := 0
  rssfileKb := 0
  rssshmemKb := 0
  uptime := 0
  kernelTime := 0
  childrenUptime := 0
  childrenKerneltime := 0
  nthreads := 0
  readBytes := 0
  writeBytes := 0

/-- An open file of a process : whether it can be rewound, and what it gives then. -/
structure ProcFile extends Source OsError where
  seek : Option OsError
deriving DecidableEq, Repr

/-- The files of the handles the metrics have. -/
structure ProcFiles where
  status : Option ProcFile
  stat : Option ProcFile
  io : Option ProcFile
deriving DecidableEq, Repr

def invalidUtf8 : OsError := ⟨0, "stream did not contain valid UTF-8"⟩

/-- `LinuxErrorManager::UnexpectedError(Errno::UnknownErrno)`. -/
def unknownErrno : LinuxErrorManager :=
  .unexpectedError ⟨0, "UnknownErrno: Unknown errno"⟩

/-- `f.seek(SeekFrom::Start(0))`, and the file from there. -/
def ProcFile.rewind (f : ProcFile) : Except LinuxErrorManager (Source OsError) :=
  match f.seek with
  | some e => .error (.ioError e.text)
  | none => .ok f.toSource

/-- `str::split_whitespace`. -/
def splitWhitespace (s : List Char) : List String :=
  (words isWhitespace s).map String.ofList

/-! ## Functions that read -/

namespace LinuxRuntimeMetrics

/-- What a function that fails or not leaves. -/
abbrev Outcome := Option Failure × LinuxRuntimeMetrics

/-- The metric that a key of `status` names. -/
def memField (k : String) : Option (ℕ → LinuxRuntimeMetrics → LinuxRuntimeMetrics) :=
  match k with
  | "VmRSS" => some fun v m => { m with vmrssKb := v }
  | "VmSwap" => some fun v m => { m with vmswapKb := v }
  | "VmSize" => some fun v m => { m with vmsizeKb := v }
  | "VmHWM" => some fun v m => { m with vmhwmKb := v }
  | "RssAnon" => some fun v m => { m with rssanonKb := v }
  | "RssFile" => some fun v m => { m with rssfileKb := v }
  | "RssShmem" => some fun v m => { m with rssshmemKb := v }
  | _ => none

/-- `str::trim_end_matches(":")`. -/
def trimEndColons (s : String) : String :=
  String.ofList (s.toList.rdropWhile (· = ':'))

/-- A line of `status`. -/
def setMem (line : List Char) (m : LinuxRuntimeMetrics) : LinuxRuntimeMetrics :=
  let parts := splitWhitespace line
  match memField (trimEndColons (parts[0]?.getD "")), parts[1]?.bind parseUsize with
  | some set, some v => set v m
  | _, _ => m

/-- The loop over the lines of `status`. -/
def readMem : List (Except OsError (List Char)) → LinuxRuntimeMetrics → Outcome
  | [], m => (none, m)
  | .error e :: _, m => (some (.error (.ioError e.text)), m)
  | .ok line :: lines, m => readMem lines (m.setMem line)

def parseMemStatus (file : Option ProcFile) (m : LinuxRuntimeMetrics) : Outcome :=
  match file with
  | none => (some (.error unknownErrno), m)
  | some f =>
    match f.rewind with
    | .error e => (some (.error e), m)
    | .ok source => readMem (source.lines invalidUtf8) m

/-- `unwrap` of an error. -/
def unwrapFailure : Failure :=
  .panic "called `Result::unwrap()` on an `Err` value"

/-- The number of a line that begins with `label`. -/
def parseLabelled (label : String) (line : List Char) : Option ℕ :=
  (label.toList.isPrefixOf? line).bind fun rest => parseUsize (String.ofList rest)

/-- The assignments of `parse_io_status`. -/
def assignLines : List (List Char) → LinuxRuntimeMetrics → Outcome
  | [], m => (some (.panic "we can't read io"), m)
  | first :: rest, m =>
    match parseLabelled "rchar: " first with
    | none => (some unwrapFailure, m)
    | some readBytes =>
      match parseLabelled "wchar: " (rest.headD "wchar: 0".toList) with
      | none => (some unwrapFailure, { m with readBytes })
      | some writeBytes => (none, { m with readBytes, writeBytes })

def parseIoStatus (file : Option ProcFile) (m : LinuxRuntimeMetrics) : Outcome :=
  match file with
  | none => (some unwrapFailure, m)
  | some f =>
    match f.rewind with
    | .error e => (some (.error e), m)
    | .ok source =>
      match collect ((source.lines invalidUtf8).take 2) with
      | .error e => (some (.error (.ioError e.text)), m)
      | .ok lines => assignLines lines m

/-- The metrics that are words of `stat`, and where. -/
def cpuFields : List (ℕ × (ℕ → LinuxRuntimeMetrics → LinuxRuntimeMetrics)) :=
  [(13, fun v m => { m with uptime := v }),
    (14, fun v m => { m with kernelTime := v }),
    (15, fun v m => { m with childrenUptime := v }),
    (16, fun v m => { m with childrenKerneltime := v }),
    (19, fun v m => { m with nthreads := v })]

/-- The assignments of `parse_cpu_status`. -/
def assignFields (metrics : List String) :
    List (ℕ × (ℕ → LinuxRuntimeMetrics → LinuxRuntimeMetrics)) → LinuxRuntimeMetrics → Outcome
  | [], m => (none, m)
  | (i, set) :: fields, m =>
    match metrics[i]? with
    | none => (some (.panic ("index out of bounds: the len is " ++ toString metrics.length ++
        " but the index is " ++ toString i)), m)
    | some word =>
      match parseUsize word with
      | none => (some (.error unknownErrno), m)
      | some v => assignFields metrics fields (set v m)

def parseCpuStatus (file : Option ProcFile) (m : LinuxRuntimeMetrics) : Outcome :=
  match file with
  | none => (some (.error unknownErrno), m)
  | some f =>
    match f.rewind with
    | .error e => (some (.error e), m)
    | .ok source =>
      match source.readToString invalidUtf8 with
      | .error e => (some (.error (.ioError e.text)), m)
      | .ok cont => assignFields (splitWhitespace cont) cpuFields m

/-- `unwrap` of what a function returns. -/
def unwrap : Outcome → Outcome
  | (some (.error _), m) => (some unwrapFailure, m)
  | r => r

/-- What is done next, unless the first has failed. -/
def andThen (r : Outcome) (next : LinuxRuntimeMetrics → Outcome) : Outcome :=
  match r with
  | (none, m) => next m
  | r => r

def refresh (files : ProcFiles) (m : LinuxRuntimeMetrics) : Outcome :=
  andThen (unwrap (parseMemStatus files.status m)) fun m =>
    andThen (unwrap (parseIoStatus files.io m)) fun m =>
      unwrap (parseCpuStatus files.stat m)

/-! ## When a function does not fail -/

/-- The file `status` is open and can be read whole. -/
def MemReads (file : Option ProcFile) : Prop :=
  ∃ f, file = some f ∧ f.seek = none ∧ f.error = none ∧ none ∉ f.content

/-- A label, then a number that fits. -/
def Labelled (label : String) (line : List Char) : Prop :=
  ∃ digits, line = label.toList ++ digits ∧ (parseUsize (String.ofList digits)).isSome

/-- The file `io` is open, its first two lines can be read, as far as it has them, and are
the labelled numbers. It has a first line. -/
def IoReads (file : Option ProcFile) : Prop :=
  ∃ f, file = some f ∧ f.seek = none ∧ ∃ first rest,
    (f.lines invalidUtf8).take 2 = (first :: rest).map .ok ∧ Labelled "rchar: " first ∧
      ∀ line ∈ rest, Labelled "wchar: " line

/-- The file `stat` is open, can be read whole, and has numbers that fit where they are
looked for. -/
def CpuReads (file : Option ProcFile) : Prop :=
  ∃ f, file = some f ∧ f.seek = none ∧ f.error = none ∧ ∃ cont, f.content = cont.map some ∧
    ∀ i ∈ [13, 14, 15, 16, 19], ∃ word, (splitWhitespace cont)[i]? = some word ∧
      (parseUsize word).isSome

variable {file : Option ProcFile} {m : LinuxRuntimeMetrics}

theorem readMem_ok_iff : ∀ {lines : List (Except OsError (List Char))}
    {m : LinuxRuntimeMetrics}, (readMem lines m).1 = none ↔ ∀ line ∈ lines, ∃ cs, line = .ok cs
  | [], m => by simp [readMem]
  | .error e :: lines, m => by simp [readMem]
  | .ok line :: lines, m => by simp [readMem, readMem_ok_iff]

theorem parseMemStatus_ok_iff : (parseMemStatus file m).1 = none ↔ MemReads file := by
  unfold parseMemStatus MemReads ProcFile.rewind
  cases file with
  | none => simp
  | some f => cases hseek : f.seek <;> simp [readMem_ok_iff, Source.forall_lines_iff, hseek]

theorem parseLabelled_isSome_iff {label : String} {line : List Char} :
    (parseLabelled label line).isSome ↔ Labelled label line := by
  simp only [Labelled, eq_comm (a := line), ← List.isPrefixOf?_eq_some_iff_append_eq,
    parseLabelled]
  cases label.toList.isPrefixOf? line <;> simp

theorem assignLines_ok_iff {first : List Char} {rest : List (List Char)} :
    (assignLines (first :: rest) m).1 = none ↔
      Labelled "rchar: " first ∧ Labelled "wchar: " (rest.headD "wchar: 0".toList) := by
  simp only [assignLines, ← parseLabelled_isSome_iff]
  cases parseLabelled "rchar: " first with
  | none => simp
  | some readBytes =>
    cases parseLabelled "wchar: " (rest.headD "wchar: 0".toList) <;> simp

/-- A second line that is not there stands for no bytes. -/
theorem labelled_headD_iff {rest : List (List Char)} (h : rest.length ≤ 1) :
    Labelled "wchar: " (rest.headD "wchar: 0".toList) ↔
      ∀ line ∈ rest, Labelled "wchar: " line := by
  obtain _ | ⟨second, _ | ⟨third, rest⟩⟩ := rest
  · have hzero : Labelled "wchar: " "wchar: 0".toList := ⟨['0'], rfl, rfl⟩
    simpa using hzero
  · simp
  · simp at h

theorem parseIoStatus_ok_iff : (parseIoStatus file m).1 = none ↔ IoReads file := by
  unfold parseIoStatus IoReads ProcFile.rewind
  cases file with
  | none => simp
  | some f =>
    have htake (l : List (List Char)) :
        (f.lines invalidUtf8).take 2 = l.map .ok ↔ collect ((f.lines invalidUtf8).take 2) = .ok l :=
      collect_eq_ok_iff.symm
    simp only [Option.some.injEq, exists_eq_left', htake]
    cases f.seek with
    | some e => simp
    | none =>
      cases hlines : collect ((f.lines invalidUtf8).take 2) with
      | error e => simp [hlines]
      | ok lines =>
        cases lines with
        | nil => simp [hlines, assignLines]
        | cons first rest =>
          have hlength := congrArg List.length ((htake (first :: rest)).mpr hlines)
          have hrest : rest.length ≤ 1 := by
            simp only [List.length_take, List.length_map, List.length_cons] at hlength
            omega
          have hassign : (assignLines (first :: rest) m).1 = none ↔
              Labelled "rchar: " first ∧ ∀ line ∈ rest, Labelled "wchar: " line := by
            rw [assignLines_ok_iff, labelled_headD_iff hrest]
          simp [hlines, hassign]

theorem assignFields_ok_iff {metrics : List String} : ∀ {fields m},
    (assignFields metrics fields m).1 = none ↔
      ∀ i ∈ fields.map Prod.fst, ∃ word, metrics[i]? = some word ∧ (parseUsize word).isSome
  | [], m => by simp [assignFields]
  | (i, set) :: fields, m => by
    cases hword : metrics[i]? with
    | none => simp [assignFields, hword]
    | some word =>
      cases hv : parseUsize word <;> simp [assignFields, hword, hv, assignFields_ok_iff]

/-- One assignment : the word at the index is a number, and the rest is assigned after it. -/
theorem assignFields_cons_eq_iff {metrics : List String} {i : ℕ}
    {set : ℕ → LinuxRuntimeMetrics → LinuxRuntimeMetrics}
    {fields : List (ℕ × (ℕ → LinuxRuntimeMetrics → LinuxRuntimeMetrics))}
    {m' : LinuxRuntimeMetrics} :
    assignFields metrics ((i, set) :: fields) m = (none, m') ↔
      ∃ v, metrics[i]?.bind parseUsize = some v ∧
        assignFields metrics fields (set v m) = (none, m') := by
  cases hword : metrics[i]? with
  | none => simp [assignFields, hword]
  | some word => cases hv : parseUsize word <;> simp [assignFields, hword, hv]

theorem parseCpuStatus_ok_iff : (parseCpuStatus file m).1 = none ↔ CpuReads file := by
  unfold parseCpuStatus CpuReads ProcFile.rewind
  cases file with
  | none => simp
  | some f =>
    have hread (P : List Char → Prop) :
        (f.error = none ∧ ∃ t, f.content = t.map some ∧ P t) ↔
          ∃ t, f.readToString invalidUtf8 = .ok t ∧ P t := by
      simp [Source.readToString_eq_ok_iff, and_assoc]
    simp only [Option.some.injEq, exists_eq_left', hread]
    cases f.seek with
    | some e => simp
    | none =>
      cases hcont : f.readToString invalidUtf8 with
      | error e => simp [hcont]
      | ok cont => simp [hcont, assignFields_ok_iff, cpuFields]

/-! ## Refreshing -/

variable {files : ProcFiles}

theorem unwrap_ok_iff {r : Outcome} : (unwrap r).1 = none ↔ r.1 = none := by
  obtain ⟨_ | _ | _, m⟩ := r <;> simp [unwrap, unwrapFailure]

theorem unwrap_ne_error (r : Outcome) (e : LinuxErrorManager) : (unwrap r).1 ≠ some (.error e) := by
  obtain ⟨_ | _ | _, m⟩ := r <;> simp [unwrap, unwrapFailure]

theorem andThen_ok_iff {r : Outcome} {next : LinuxRuntimeMetrics → Outcome} {P : Prop}
    (hnext : ∀ m, (next m).1 = none ↔ P) : (andThen r next).1 = none ↔ r.1 = none ∧ P := by
  obtain ⟨_ | f, m⟩ := r <;> simp [andThen, hnext]

theorem andThen_ne_error {r : Outcome} {next : LinuxRuntimeMetrics → Outcome}
    {e : LinuxErrorManager} (hr : r.1 ≠ some (.error e))
    (hnext : ∀ m, (next m).1 ≠ some (.error e)) : (andThen r next).1 ≠ some (.error e) := by
  obtain ⟨_ | f, m⟩ := r
  · exact hnext m
  · exact hr

/-- Refreshing succeeds when each of the files has what is looked for. -/
theorem refresh_ok_iff : (refresh files m).1 = none ↔
    MemReads files.status ∧ IoReads files.io ∧ CpuReads files.stat := by
  have hmem (m : LinuxRuntimeMetrics) :
      (unwrap (parseMemStatus files.status m)).1 = none ↔ MemReads files.status :=
    unwrap_ok_iff.trans parseMemStatus_ok_iff
  have hio (m : LinuxRuntimeMetrics) :
      (unwrap (parseIoStatus files.io m)).1 = none ↔ IoReads files.io :=
    unwrap_ok_iff.trans parseIoStatus_ok_iff
  have hcpu (m : LinuxRuntimeMetrics) :
      (unwrap (parseCpuStatus files.stat m)).1 = none ↔ CpuReads files.stat :=
    unwrap_ok_iff.trans parseCpuStatus_ok_iff
  rw [← hmem m]
  refine andThen_ok_iff fun m => ?_
  rw [← hio m]
  exact andThen_ok_iff hcpu

/-- What fails is not the result. -/
theorem refresh_ne_error (e : LinuxErrorManager) : (refresh files m).1 ≠ some (.error e) :=
  andThen_ne_error (unwrap_ne_error _ e) fun _ =>
    andThen_ne_error (unwrap_ne_error _ e) fun _ => unwrap_ne_error _ e

/-- Refreshing does not panic exactly when each of the files has what is looked for. -/
theorem refresh_returns_iff : (∀ msg, (refresh files m).1 ≠ some (.panic msg)) ↔
    MemReads files.status ∧ IoReads files.io ∧ CpuReads files.stat := by
  rw [← refresh_ok_iff (m := m)]
  constructor
  · intro h
    rcases hr : (refresh files m).1 with _ | _ | msg
    · rfl
    · exact absurd hr (refresh_ne_error _)
    · exact absurd hr (h msg)
  · intro h msg
    simp [h]

/-- A file that gives a text. -/
def textFile (text : String) : ProcFile where
  content := text.toList.map some
  error := none
  seek := none

example : refresh
    { status := some (textFile "Name:\tdb\nVmRSS:\t  812 kB\n")
      io := some (textFile "rchar: 40\nwchar: 2\n")
      stat := some (textFile "7 (db) S 1 7 7 0 -1 64 9 0 0 0 5 3 0 0 20 0 4 0 99\n") }
    .default = (none, { (default : LinuxRuntimeMetrics) with
      vmrssKb := 812, readBytes := 40, writeBytes := 2, uptime := 5, kernelTime := 3,
      nthreads := 4 }) := by
  decide +kernel

/-- A file of a process that is gone. -/
def goneFile : ProcFile where
  content := []
  error := some ⟨esrch, "No such process (os error 3)"⟩
  seek := none

/-- When the process is gone, refreshing its metrics panics. -/
theorem gone_panics : (refresh ⟨some goneFile, some goneFile, some goneFile⟩ .default).1 =
    some (.panic "called `Result::unwrap()` on an `Err` value") :=
  rfl

end LinuxRuntimeMetrics

end Yapm
