import Yapm.Provenance
import Yapm.Refresh
import Yapm.Results

/-!
# What the details of a process show

The answer to `show` and `metrics` is made of three things : the name that was asked for, the
metrics of the process as its collating task last left them, and the settings of its entry. The
metrics are what refreshes, complete or not, have made of zeros (`Collected`), and so are of
the type `usize` (`Collected.inUsize`).

With the settings coming from what clients submitted, the client reads the details as the daemon
has them, in every state of every run (`details_shown`).
-/

open Serde

namespace Yapm

namespace LinuxRuntimeMetrics

/-! ## Metrics that are collected -/

def InUsize (m : LinuxRuntimeMetrics) : Prop :=
  ∀ f, m.value f < 2 ^ 64

theorem InUsize.default : InUsize .default := by
  intro f
  cases f <;> decide

variable {m : LinuxRuntimeMetrics} {v : ℕ}

theorem InUsize.set (h : m.InUsize) (f : Metric) (hv : v < 2 ^ 64) : (set f v m).InUsize := by
  intro f'
  rw [value_set]
  by_cases heq : f' = f
  · rw [heq, Function.update_self]
    exact hv
  · rw [Function.update_of_ne heq]
    exact h f'

theorem InUsize.setMem (h : m.InUsize) (line : List Char) : (m.setMem line).InUsize := by
  rw [setMem_eq]
  cases ha : lineAssignment line with
  | none => exact h
  | some a =>
    obtain ⟨f, -, ha⟩ := Option.bind_eq_some_iff.mp ha
    obtain ⟨v, hv, rfl⟩ := Option.map_eq_some_iff.mp ha
    obtain ⟨word, -, hword⟩ := Option.bind_eq_some_iff.mp hv
    exact h.set f (parseUsize_lt hword)

theorem InUsize.readMem : ∀ (lines : List (Except OsError (List Char))) {m : LinuxRuntimeMetrics},
    m.InUsize → (readMem lines m).2.InUsize
  | [], _, h => h
  | .error _ :: _, _, h => h
  | .ok line :: lines, _, h => InUsize.readMem lines (h.setMem line)

theorem InUsize.parseMemStatus (h : m.InUsize) (file : Option ProcFile) :
    (parseMemStatus file m).2.InUsize := by
  unfold LinuxRuntimeMetrics.parseMemStatus
  split
  · exact h
  · split
    · exact h
    · exact .readMem _ h

theorem parseLabelled_lt {label : String} {line : List Char}
    (h : parseLabelled label line = some v) : v < 2 ^ 64 := by
  obtain ⟨rest, -, hrest⟩ := Option.bind_eq_some_iff.mp h
  exact parseUsize_lt hrest

theorem InUsize.assignLines (h : m.InUsize) (lines : List (List Char)) :
    (assignLines lines m).2.InUsize := by
  unfold LinuxRuntimeMetrics.assignLines
  split
  · exact h
  · split
    · exact h
    · rename_i readBytes hread
      have hfirst : InUsize { m with readBytes } := h.set .readBytes (parseLabelled_lt hread)
      split
      · exact hfirst
      · rename_i writeBytes hwrite
        exact hfirst.set .writeBytes (parseLabelled_lt hwrite)

theorem InUsize.parseIoStatus (h : m.InUsize) (file : Option ProcFile) :
    (parseIoStatus file m).2.InUsize := by
  unfold LinuxRuntimeMetrics.parseIoStatus
  split
  · exact h
  · split
    · exact h
    · split
      · exact h
      · exact h.assignLines _

theorem InUsize.assignFields {metrics : List String} :
    ∀ (fields : List (ℕ × Metric)) {m : LinuxRuntimeMetrics}, m.InUsize →
      (assignFields metrics (fields.map fun f => (f.1, LinuxRuntimeMetrics.set f.2)) m).2.InUsize
  | [], _, h => h
  | (i, f) :: fields, m, h => by
    rw [List.map_cons, LinuxRuntimeMetrics.assignFields]
    split
    · exact h
    · split
      · exact h
      · rename_i v hv
        exact InUsize.assignFields fields (h.set f (parseUsize_lt hv))

theorem InUsize.parseCpuStatus (h : m.InUsize) (file : Option ProcFile) :
    (parseCpuStatus file m).2.InUsize := by
  unfold LinuxRuntimeMetrics.parseCpuStatus
  split
  · exact h
  · split
    · exact h
    · split
      · exact h
      · exact .assignFields cpuMetrics h

theorem InUsize.unwrap {r : Outcome} (h : r.2.InUsize) : (unwrap r).2.InUsize := by
  unfold LinuxRuntimeMetrics.unwrap
  split <;> exact h

theorem InUsize.andThen {r : Outcome} {next : LinuxRuntimeMetrics → Outcome} (h : r.2.InUsize)
    (hnext : ∀ m : LinuxRuntimeMetrics, m.InUsize → (next m).2.InUsize) :
    (andThen r next).2.InUsize := by
  unfold LinuxRuntimeMetrics.andThen
  split
  · exact hnext _ h
  · exact h

/-- Wherever a refresh stops, what it leaves is of the type. -/
theorem InUsize.refresh (h : m.InUsize) (files : ProcFiles) : (refresh files m).2.InUsize :=
  .andThen (.unwrap (h.parseMemStatus files.status)) fun _ h =>
    .andThen (.unwrap (h.parseIoStatus files.io)) fun _ h => .unwrap (h.parseCpuStatus files.stat)

/-- What refreshes have made of the first metrics. -/
inductive Collected : LinuxRuntimeMetrics → Prop
  | new : Collected .default
  | refresh {m : LinuxRuntimeMetrics} (files : ProcFiles) :
      Collected m → Collected (refresh files m).2

theorem Collected.inUsize (h : m.Collected) : m.InUsize := by
  induction h with
  | new => exact .default
  | refresh files _ ih => exact ih.refresh files

end LinuxRuntimeMetrics

/-! ## The details -/

/-- The answer of `get_process_details` for a registered process. -/
def LinuxCurrentTask.processDetails (t : LinuxCurrentTask) (target : String)
    (metrics : LinuxRuntimeMetrics) : Protocol.ProcessDetails where
  name := target
  pid := t.inner
  vmrssKb := metrics.vmrssKb
  vmswapKb := metrics.vmswapKb
  rssanonKb := metrics.rssanonKb
  rssfileKb := metrics.rssfileKb
  rssshmemKb := metrics.rssshmemKb
  uptime := metrics.uptime
  kernelTime := metrics.kernelTime
  nthreads := metrics.nthreads
  readBytes := metrics.readBytes
  writeBytes := metrics.writeBytes
  args := t.config.args
  cwd := t.config.cwd
  env := t.config.env
  restart := t.config.restart
  resources := t.config.resources
  security := t.config.security

variable {F : Type} {fmt : Protocol.Formats F} {metrics : LinuxRuntimeMetrics}

/-- Details are well-typed when the pid is of its type. -/
theorem typed_processDetails {t : LinuxCurrentTask}
    (hconfig : t.config.Displayable) (hpid : t.inner < 2 ^ 31) (hm : metrics.InUsize)
    (target : String) : (t.processDetails target metrics).Typed where
  pid := Codec.i32_fits hpid
  vmrssKb := hm .vmrssKb
  vmswapKb := hm .vmswapKb
  rssanonKb := hm .rssanonKb
  rssfileKb := hm .rssfileKb
  rssshmemKb := hm .rssshmemKb
  uptime := hm .uptime
  kernelTime := hm .kernelTime
  nthreads := hm .nthreads
  readBytes := hm .readBytes
  writeBytes := hm .writeBytes
  restart := hconfig.restart
  resources := hconfig.limits

/-- In every run of the daemon, the client reads the details of a registered process as the daemon
has them, whatever has been collected. -/
theorem details_shown {s : State}
    (h : Reachable (fun _ a => a.Submits ProcessConfig.Submitted) s) {name : String} {e : Entry}
    (he : s.registry name = some e) (hpid : e.task.inner < 2 ^ 31) (hm : metrics.Collected) :
    let r := Protocol.CommandResult.processDetails (e.task.processDetails name metrics)
    Protocol.CommandResult.decode fmt (r.encode fmt) = .ok r := by
  have hconfig := displayable_of_entry h he
  have htyped : (Protocol.CommandResult.processDetails (e.task.processDetails name metrics)).Typed
      fmt := typed_processDetails hconfig hpid hm.inUsize name
  refine (Protocol.CommandResult.decode_encode fmt htyped).trans (congrArg Except.ok ?_)
  exact (Protocol.CommandResult.shown_eq_iff fmt htyped).mpr ⟨hconfig.fdLimit, hconfig.noFs⟩

/-- A service is started from the command line, exits and is restarted. -/
theorem details_restarted : ∃ (s : State) (e : Entry), s.registry "db" = some e ∧ e.proc = 1 ∧
    let r := Protocol.CommandResult.processDetails (e.task.processDetails "db" .default)
    Protocol.CommandResult.decode .plain (r.encode .plain) = .ok r := by
  let args : StartArgs :=
    { name := "db", command := "/usr/bin/db", args := [], cwd := none, env := []
      logDir := none, restart := some (.capped 3)
      resources := ⟨some .service, some "low", none, none⟩
      security := ⟨some .sandboxed, false, false, false, false, false, true⟩ }
  have hargs : args.InUsize := ⟨by simp [args], by simp [args]⟩
  have hrun : Reachable (fun _ a => a.Submits (· = .ofStartArgs args)) _ :=
    Runs.reach_of_checked (restartedOnce (.ofStartArgs args)) rfl
  have hrun' := hrun.mono (D := fun _ a => a.Submits ProcessConfig.Submitted) fun _ a ha => by
    cases a with
    | startCall i config =>
      obtain rfl : config = _ := ha
      exact .command hargs
    | _ => exact trivial
  obtain ⟨s, hreach, e, he, hproc, hpid⟩ : ∃ s,
      Reachable (fun _ a => a.Submits ProcessConfig.Submitted) s ∧
        ∃ e, s.registry "db" = some e ∧ e.proc = 1 ∧ e.task.inner = 4243 :=
    ⟨_, hrun', _, rfl, rfl, rfl⟩
  exact ⟨s, e, he, hproc, details_shown hreach he (by rw [hpid]; decide) .new⟩

end Yapm
