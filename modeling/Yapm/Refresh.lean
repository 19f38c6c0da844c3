import Yapm.Assign
import Yapm.RuntimeMetrics

/-!
# What a refresh keeps

Metrics are refreshed in place. A refresh that returns assigns metrics the numbers it has
read, in an order that only the files decide (`refresh_writes`), so a metric that is not
assigned stays as it was. `io` and `stat` assign theirs or fail. `status` assigns those whose
keys it has, with a number, and the others are left as they are : a refresh shows only what
is there now exactly when `status` has every key (`memoryless_iff`).
-/

open Text

namespace Yapm

namespace LinuxRuntimeMetrics

/-! ## Metrics as a store -/

inductive Metric
  | vmrssKb
  | vmswapKb
  | vmsizeKb
  | vmhwmKb
  | rssanonKb
  | rssfileKb
  | rssshmemKb
  | uptime
  | kernelTime
  | childrenUptime
  | childrenKerneltime
  | nthreads
  | readBytes
  | writeBytes
deriving DecidableEq, Repr

/-- What the metrics have for each of them. -/
def value (m : LinuxRuntimeMetrics) : Metric → ℕ
  | .vmrssKb => m.vmrssKb
  | .vmswapKb => m.vmswapKb
  | .vmsizeKb => m.vmsizeKb
  | .vmhwmKb => m.vmhwmKb
  | .rssanonKb => m.rssanonKb
  | .rssfileKb => m.rssfileKb
  | .rssshmemKb => m.rssshmemKb
  | .uptime => m.uptime
  | .kernelTime => m.kernelTime
  | .childrenUptime => m.childrenUptime
  | .childrenKerneltime => m.childrenKerneltime
  | .nthreads => m.nthreads
  | .readBytes => m.readBytes
  | .writeBytes => m.writeBytes

def ofValue (s : Metric → ℕ) : LinuxRuntimeMetrics where
  vmrssKb := s .vmrssKb
  vmswapKb := s .vmswapKb
  vmsizeKb := s .vmsizeKb
  vmhwmKb := s .vmhwmKb
  rssanonKb := s .rssanonKb
  rssfileKb := s .rssfileKb
  rssshmemKb := s .rssshmemKb
  uptime := s .uptime
  kernelTime := s .kernelTime
  childrenUptime := s .childrenUptime
  childrenKerneltime := s .childrenKerneltime
  nthreads := s .nthreads
  readBytes := s .readBytes
  writeBytes := s .writeBytes

@[simp] theorem value_ofValue (s : Metric → ℕ) : (ofValue s).value = s := by
  funext f
  cases f <;> rfl

@[simp] theorem ofValue_value (m : LinuxRuntimeMetrics) : ofValue m.value = m := rfl

theorem value_injective : Function.Injective value := fun m m' h => by
  rw [← ofValue_value m, h, ofValue_value]

/-- A metric assigned. -/
def set (f : Metric) (v : ℕ) (m : LinuxRuntimeMetrics) : LinuxRuntimeMetrics :=
  ofValue (Function.update m.value f v)

@[simp] theorem value_set (f : Metric) (v : ℕ) (m : LinuxRuntimeMetrics) :
    (set f v m).value = Function.update m.value f v :=
  value_ofValue _

/-! ## What is assigned -/

/-- What is done does not fail, and comes to the assignments. -/
def Writes (r : LinuxRuntimeMetrics → Outcome) (as : List (Metric × ℕ)) : Prop :=
  ∀ m, (r m).1 = none ∧ (r m).2.value = Assign.run as m.value

section Writes

variable {r : LinuxRuntimeMetrics → Outcome} {as bs : List (Metric × ℕ)}

theorem Writes.unwrap (h : Writes r as) : Writes (fun m => unwrap (r m)) as := by
  intro m
  obtain ⟨hok, hvalue⟩ := h m
  rcases hr : r m with ⟨_ | _ | _, m'⟩ <;> simp_all [LinuxRuntimeMetrics.unwrap]

theorem Writes.andThen {next : LinuxRuntimeMetrics → Outcome} (h : Writes r as)
    (hnext : Writes next bs) : Writes (fun m => andThen (r m) next) (as ++ bs) := by
  intro m
  obtain ⟨hok, hvalue⟩ := h m
  have hr : LinuxRuntimeMetrics.andThen (r m) next = next (r m).2 := by
    rw [← Prod.eta (r m), hok]
    rfl
  simp only [hr, Assign.run_append, ← hvalue]
  exact hnext (r m).2

/-- The end does not depend on the beginning exactly when every metric is assigned. -/
theorem Writes.const_iff (h : Writes r as) :
    (∀ m m', (r m).2 = (r m').2) ↔ ∀ f, f ∈ as.map Prod.fst := by
  rw [← Assign.run_const_iff]
  constructor
  · intro hconst s s'
    have heq := congrArg value (hconst (ofValue s) (ofValue s'))
    simpa only [(h _).2, value_ofValue] using heq
  · intro hconst m m'
    refine value_injective ?_
    rw [(h m).2, (h m').2, hconst m.value m'.value]

end Writes

/-! ## `status` -/

/-- The metric that a key of `status` names. -/
def memMetric (k : String) : Option Metric :=
  match k with
  | "VmRSS" => some .vmrssKb
  | "VmSwap" => some .vmswapKb
  | "VmSize" => some .vmsizeKb
  | "VmHWM" => some .vmhwmKb
  | "RssAnon" => some .rssanonKb
  | "RssFile" => some .rssfileKb
  | "RssShmem" => some .rssshmemKb
  | _ => none

theorem memMetric_eq_some_iff {k : String} {f : Metric} : memMetric k = some f ↔
    (k, f) ∈ [("VmRSS", .vmrssKb), ("VmSwap", .vmswapKb), ("VmSize", .vmsizeKb),
      ("VmHWM", .vmhwmKb), ("RssAnon", .rssanonKb), ("RssFile", .rssfileKb),
      ("RssShmem", .rssshmemKb)] := by
  unfold memMetric
  split <;> simp_all [eq_comm]

theorem memField_eq (k : String) : memField k = (memMetric k).map set := by
  unfold memField memMetric
  split <;> simp_all <;> rfl

/-- What a line of `status` is about. -/
def lineKey (line : List Char) : String :=
  trimEndColons ((splitWhitespace line)[0]?.getD "")

/-- The number a line of `status` has. -/
def lineNumber (line : List Char) : Option ℕ :=
  (splitWhitespace line)[1]?.bind parseUsize

/-- What a line of `status` assigns, if it does. -/
def lineAssignment (line : List Char) : Option (Metric × ℕ) :=
  (memMetric (lineKey line)).bind fun f => (lineNumber line).map (f, ·)

theorem setMem_eq (line : List Char) (m : LinuxRuntimeMetrics) :
    m.setMem line = (lineAssignment line).elim m fun a => set a.1 a.2 m := by
  unfold setMem lineAssignment lineKey lineNumber
  simp only [memField_eq]
  cases memMetric (trimEndColons ((splitWhitespace line)[0]?.getD "")) with
  | none => rfl
  | some f => cases (splitWhitespace line)[1]?.bind parseUsize <;> rfl

theorem readMem_writes (lines : List (List Char)) :
    Writes (readMem (lines.map .ok)) (lines.filterMap lineAssignment) := by
  induction lines with
  | nil => exact fun m => ⟨rfl, rfl⟩
  | cons line lines ih =>
    intro m
    obtain ⟨hok, hvalue⟩ := ih (m.setMem line)
    refine ⟨hok, hvalue.trans ?_⟩
    rw [setMem_eq]
    cases h : lineAssignment line <;> simp [h]

/-- The key is on some line, with a number. -/
def Lists (file : Option ProcFile) (k : String) : Prop :=
  ∃ f, file = some f ∧ ∃ line, .ok line ∈ f.lines invalidUtf8 ∧ lineKey line = k ∧
    (lineNumber line).isSome

/-- The keys of the metrics of memory. -/
def memKeys : List String :=
  ["VmRSS", "VmSwap", "VmSize", "VmHWM", "RssAnon", "RssFile", "RssShmem"]

variable {file : Option ProcFile}

/-- `status` assigns the metrics whose keys it has. -/
theorem parseMemStatus_writes (h : MemReads file) :
    ∃ as, Writes (parseMemStatus file) as ∧
      ∀ f, f ∈ as.map Prod.fst ↔ ∃ k, memMetric k = some f ∧ Lists file k := by
  obtain ⟨file, rfl, hseek, herror, hnone⟩ := h
  have hread := (@Source.forall_lines_iff _ invalidUtf8 file.toSource).mpr ⟨herror, hnone⟩
  obtain ⟨lines, hlines⟩ : file.lines invalidUtf8 ∈ Set.range (List.map Except.ok) := by
    rw [Set.range_list_map]
    exact fun line hline => (hread line hline).imp fun _ => Eq.symm
  refine ⟨lines.filterMap lineAssignment, fun m => ?_, fun f => ?_⟩
  · simp only [parseMemStatus, ProcFile.rewind, hseek, ← hlines]
    exact readMem_writes lines m
  · simp only [Lists, Option.some_inj, exists_eq_left', ← hlines, lineAssignment, List.mem_map,
      List.mem_filterMap, Option.bind_eq_some_iff, Option.map_eq_some_iff, Option.isSome_iff_exists]
    constructor
    · rintro ⟨a, ⟨line, hline, f', hf', v, hv, rfl⟩, rfl⟩
      exact ⟨lineKey line, hf', line, ⟨line, hline, rfl⟩, rfl, v, hv⟩
    · rintro ⟨k, hk, line, ⟨line', hline, heq⟩, rfl, v, hv⟩
      obtain rfl := Except.ok.inj heq
      exact ⟨(f, v), ⟨line', hline, f, hk, v, hv, rfl⟩, rfl⟩

/-! ## `io` and `stat` -/

theorem assignLines_writes {first : List Char} {rest : List (List Char)}
    (hread : Labelled "rchar: " first)
    (hwrite : Labelled "wchar: " (rest.headD "wchar: 0".toList)) :
    ∃ as, Writes (assignLines (first :: rest)) as ∧
      as.map Prod.fst = [.readBytes, .writeBytes] := by
  rw [← parseLabelled_isSome_iff, Option.isSome_iff_exists] at hread hwrite
  obtain ⟨readBytes, hread⟩ := hread
  obtain ⟨writeBytes, hwrite⟩ := hwrite
  refine ⟨[(.readBytes, readBytes), (.writeBytes, writeBytes)], fun m => ?_, rfl⟩
  simp only [assignLines, hread, hwrite, true_and]
  funext f
  cases f <;> rfl

theorem parseIoStatus_writes (h : IoReads file) :
    ∃ as, Writes (parseIoStatus file) as ∧ as.map Prod.fst = [.readBytes, .writeBytes] := by
  obtain ⟨file, rfl, hseek, first, rest, hlines, hread, hwrite⟩ := h
  have hlength := congrArg List.length hlines
  have hrest : rest.length ≤ 1 := by
    simp only [List.length_take, List.length_map, List.length_cons] at hlength
    omega
  obtain ⟨as, hwrites, hkeys⟩ := assignLines_writes hread ((labelled_headD_iff hrest).mpr hwrite)
  refine ⟨as, fun m => ?_, hkeys⟩
  simp only [parseIoStatus, ProcFile.rewind, hseek, collect_eq_ok_iff.mpr hlines]
  exact hwrites m

/-- The metrics that are words of `stat`, and where. -/
def cpuMetrics : List (ℕ × Metric) :=
  [(13, .uptime), (14, .kernelTime), (15, .childrenUptime), (16, .childrenKerneltime),
    (19, .nthreads)]

theorem assignFields_writes {metrics : List String} : ∀ {fields : List (ℕ × Metric)},
    (∀ i ∈ fields.map Prod.fst, ∃ word, metrics[i]? = some word ∧ (parseUsize word).isSome) →
      ∃ as, Writes (assignFields metrics (fields.map fun f => (f.1, set f.2))) as ∧
        as.map Prod.fst = fields.map Prod.snd
  | [], _ => ⟨[], fun m => ⟨rfl, rfl⟩, rfl⟩
  | (i, f) :: fields, h => by
    rw [List.map_cons, List.forall_mem_cons] at h
    obtain ⟨⟨word, hword, hnumber⟩, hrest⟩ := h
    obtain ⟨v, hv⟩ := Option.isSome_iff_exists.mp hnumber
    obtain ⟨as, hwrites, hkeys⟩ := assignFields_writes hrest
    refine ⟨(f, v) :: as, fun m => ?_, by simp [hkeys]⟩
    simp only [List.map_cons, assignFields, hword, hv, Assign.run_cons, ← value_set]
    exact hwrites (set f v m)

theorem parseCpuStatus_writes (h : CpuReads file) :
    ∃ as, Writes (parseCpuStatus file) as ∧ as.map Prod.fst = cpuMetrics.map Prod.snd := by
  obtain ⟨file, rfl, hseek, herror, cont, hcont, hwords⟩ := h
  obtain ⟨as, hwrites, hkeys⟩ := @assignFields_writes _ cpuMetrics hwords
  have hread : file.readToString invalidUtf8 = .ok cont :=
    Source.readToString_eq_ok_iff.mpr ⟨herror, hcont⟩
  refine ⟨as, fun m => ?_, hkeys⟩
  simp only [parseCpuStatus, ProcFile.rewind, hseek, hread]
  exact hwrites m

/-! ## Refreshing twice -/

variable {files : ProcFiles}

/-- What a refresh that returns assigns. -/
theorem refresh_writes (h : MemReads files.status ∧ IoReads files.io ∧ CpuReads files.stat) :
    ∃ as, Writes (refresh files) as ∧ ((∀ f, f ∈ as.map Prod.fst) ↔
      ∀ k ∈ memKeys, Lists files.status k) := by
  obtain ⟨hmem, hio, hcpu⟩ := h
  obtain ⟨mem, hmemWrites, hmemKeys⟩ := parseMemStatus_writes hmem
  obtain ⟨io, hioWrites, hioKeys⟩ := parseIoStatus_writes hio
  obtain ⟨cpu, hcpuWrites, hcpuKeys⟩ := parseCpuStatus_writes hcpu
  refine ⟨mem ++ (io ++ cpu),
    hmemWrites.unwrap.andThen (hioWrites.unwrap.andThen hcpuWrites.unwrap), ?_⟩
  simp only [List.map_append, List.mem_append, hmemKeys, hioKeys, hcpuKeys, memMetric_eq_some_iff]
  constructor
  · intro h
    simp only [memKeys, List.forall_mem_cons]
    exact ⟨by simpa [cpuMetrics] using h .vmrssKb, by simpa [cpuMetrics] using h .vmswapKb,
      by simpa [cpuMetrics] using h .vmsizeKb, by simpa [cpuMetrics] using h .vmhwmKb,
      by simpa [cpuMetrics] using h .rssanonKb, by simpa [cpuMetrics] using h .rssfileKb,
      by simpa [cpuMetrics] using h .rssshmemKb, by simp⟩
  · intro h f
    simp only [memKeys, List.forall_mem_cons] at h
    cases f <;> simp [cpuMetrics, h]

/-- What a refresh shows when it returns does not depend on what was shown before. -/
def Memoryless (files : ProcFiles) : Prop :=
  ∀ m m', (refresh files m).1 = none → (refresh files m').1 = none →
    (refresh files m).2 = (refresh files m').2

/-- A refresh shows only what is there now exactly when it does not return, or `status` has
every key of memory with a number. -/
theorem memoryless_iff : Memoryless files ↔
    (MemReads files.status ∧ IoReads files.io ∧ CpuReads files.stat →
      ∀ k ∈ memKeys, Lists files.status k) := by
  have hok (m : LinuxRuntimeMetrics) := @refresh_ok_iff m files
  by_cases h : MemReads files.status ∧ IoReads files.io ∧ CpuReads files.stat
  · obtain ⟨as, hwrites, hkeys⟩ := refresh_writes h
    rw [imp_iff_right h, ← hkeys, ← hwrites.const_iff]
    exact ⟨fun hconst m m' => hconst m m' ((hok m).mpr h) ((hok m').mpr h),
      fun hconst m m' _ _ => hconst m m'⟩
  · exact iff_of_true (fun m _ hm _ => absurd ((hok m).mp hm) h) (absurd · h)

/-- A process that has ended and is not yet reaped : `status` has no memory any more. -/
def zombieFiles : ProcFiles where
  status := some (textFile "Name:\tdb\nState:\tZ (zombie)\nThreads:\t1\n")
  stat := some (textFile "7 (db) Z 1 7 7 0 -1 64 9 0 0 0 5 3 0 0 20 0 1 0 99\n")
  io := some (textFile "rchar: 40\nwchar: 2\n")

/-- The memory the process had is still shown. -/
theorem zombie_memory_kept :
    (refresh zombieFiles { LinuxRuntimeMetrics.default with vmrssKb := 812 }).1 = none ∧
    (refresh zombieFiles { LinuxRuntimeMetrics.default with vmrssKb := 812 }).2.vmrssKb = 812 ∧
    (refresh zombieFiles .default).1 = none ∧ (refresh zombieFiles .default).2.vmrssKb = 0 ∧
    ¬Memoryless zombieFiles := by
  let before := { LinuxRuntimeMetrics.default with vmrssKb := 812 }
  have hkept : (refresh zombieFiles before).1 = none ∧
      (refresh zombieFiles before).2.vmrssKb = 812 := by
    decide +kernel
  have hnone : (refresh zombieFiles .default).1 = none ∧
      (refresh zombieFiles .default).2.vmrssKb = 0 := by
    decide +kernel
  refine ⟨hkept.1, hkept.2, hnone.1, hnone.2, fun h => ?_⟩
  have heq := congrArg vmrssKb (h _ _ hkept.1 hnone.1)
  rw [hkept.2, hnone.2] at heq
  cases heq

end LinuxRuntimeMetrics

end Yapm
