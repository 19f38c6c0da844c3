import Mathlib.Data.Finset.Sort
import Mathlib.Data.String.Basic
import Yapm.Commands
import Yapm.Environment
import Yapm.Logging

/-!
# Results on the wire

What the daemon answers, as it is written to the connection and read by the client. The
messages and the process started are in `CommandResult`, and so are the log, the list of
processes and the details of one, which a client can ask for.

Timestamps and floating-point numbers are written by the code of other packages, whose codecs
are a parameter (`Formats`), as is the order in which a map is written. A result is read back as
it is but for the settings among the details of a process, which may change on the way
(`result_round_trip_iff`). Those of a registered process do not, in any run of the daemon
(`details_shown`).
-/

open Serde

namespace Yapm

namespace Protocol

/-! ## Results -/

structure ProcessInfo (F : Type) where
  name : String
  pid : ℤ
  runtime : String
  cpuUsage : F
  memoryUsage : ℕ

structure ProcessDetails where
  name : String
  pid : ℤ
  vmrssKb : ℕ
  vmswapKb : ℕ
  rssanonKb : ℕ
  rssfileKb : ℕ
  rssshmemKb : ℕ
  uptime : ℕ
  kernelTime : ℕ
  nthreads : ℕ
  readBytes : ℕ
  writeBytes : ℕ
  args : List String
  cwd : Option String
  env : Env
  restart : RestartPolicy
  resources : ResourceLimits
  security : SecurityPolicy

inductive CommandResult (F : Type)
  | success (msg : String)
  | processStarted (name : String) (pid : ℤ)
  | processStopped (name : String)
  | logs (vector : List LogEntry)
  | processList (list : List (ProcessInfo F))
  | processDetails (details : ProcessDetails)
  | error (msg : String)

/-- How others write timestamps and floating-point numbers, and the order a map is written
in. -/
structure Formats (F : Type) where
  timestamp : Codec Timestamp
  float : Codec F
  walk : Env → List (String × String)
  walks : ∀ env, Maps.Walks env (walk env)

def monthCodec : Codec Month :=
  .units [("January", .january), ("February", .february), ("March", .march), ("April", .april),
      ("May", .may), ("June", .june), ("July", .july), ("August", .august),
      ("September", .september), ("October", .october), ("November", .november),
      ("December", .december)]
    Month.display fun m => by cases m <;> rfl

/-- The pairs of a map in the order of the keys. -/
def sortedWalk (env : Env) : List (String × String) :=
  (env.keys.sort (· ≤ ·)).filterMap fun key => (env.lookup key).map (key, ·)

theorem walks_sortedWalk (env : Env) : Maps.Walks env (sortedWalk env) := by
  have hmem (key value : String) :
      (key, value) ∈ sortedWalk env ↔ (⟨key, value⟩ : Σ _ : String, String) ∈ env.entries := by
    rw [← Finmap.lookup_eq_some_iff, sortedWalk, List.mem_filterMap]
    constructor
    · rintro ⟨key', -, hkey⟩
      obtain ⟨value', hlookup, heq⟩ := Option.map_eq_some_iff.mp hkey
      obtain ⟨rfl, rfl⟩ := Prod.mk.inj heq
      exact hlookup
    · intro hlookup
      refine ⟨key, ?_, by rw [hlookup]; rfl⟩
      rw [Finset.mem_sort, Finmap.mem_keys]
      exact Finmap.mem_of_lookup_eq_some hlookup
  have hnodup : (sortedWalk env).Nodup := by
    refine List.Nodup.filterMap (fun key key' kv hkv hkv' => ?_) (Finset.sort_nodup _ _)
    obtain ⟨value, -, heq⟩ := Option.map_eq_some_iff.mp (Option.mem_def.mp hkv)
    obtain ⟨value', -, heq'⟩ := Option.map_eq_some_iff.mp (Option.mem_def.mp hkv')
    exact congrArg Prod.fst (heq.trans heq'.symm)
  refine Multiset.Nodup.ext env.nodup_entries ?_ |>.mpr fun kv => ?_
  · exact Multiset.coe_nodup.mpr (hnodup.map fun _ _ heq => by
      simpa [Prod.ext_iff] using heq)
  · rw [Multiset.mem_coe, List.mem_map]
    constructor
    · intro hkv
      exact ⟨(kv.1, kv.2), (hmem _ _).mpr hkv, rfl⟩
    · rintro ⟨⟨key, value⟩, hkv, rfl⟩
      exact (hmem _ _).mp hkv

/-- Formats that write numbers, and maps in the order of their keys. -/
def Formats.plain : Formats ℕ where
  timestamp := .via
    (.pair .usize (.pair .usize (.pair .usize (.pair .usize (.pair monthCodec .i32)))))
    (fun t => (t.hour, t.minute, t.second, t.day, t.month, t.year))
    (fun t => ⟨t.1, t.2.1, t.2.2.1, t.2.2.2.1, t.2.2.2.2.1, t.2.2.2.2.2⟩) fun _ => rfl
  float := .usize
  walk := sortedWalk
  walks := walks_sortedWalk

variable {F : Type} (fmt : Formats F)

/-! ## Log entries -/

def logTypeCodec : Codec LogType :=
  .units [("Stdout", .stdout), ("Stderr", .stderr), ("YapmErr", .yapmErr), ("YapmLog", .yapmLog),
      ("YapmWarning", .yapmWarning)]
    (fun ty => match ty with
      | .stdout => "Stdout"
      | .stderr => "Stderr"
      | .yapmErr => "YapmErr"
      | .yapmLog => "YapmLog"
      | .yapmWarning => "YapmWarning")
    fun ty => by cases ty <;> rfl

namespace LogEntry

def entries (e : LogEntry) : List (String × Value) :=
  [("ty", logTypeCodec.encode e.ty), ("timestamp", fmt.timestamp.encode e.timestamp),
   ("msg", .str e.msg)]

def decode : Decoder LogEntry :=
  Decoder.struct fun es => do
    let ty ← field logTypeCodec.decode es "ty"
    let timestamp ← field fmt.timestamp.decode es "timestamp"
    let msg ← field Decoder.str es "msg"
    return { ty, timestamp, msg }

def codec : Codec LogEntry where
  encode e := .table (entries fmt e)
  decode := decode fmt
  Fits e := fmt.timestamp.Fits e.timestamp
  decode_encode {e} h := by
    have hty : field logTypeCodec.decode (entries fmt e) "ty" = .ok e.ty :=
      Codec.field trivial rfl
    have htimestamp : field fmt.timestamp.decode (entries fmt e) "timestamp" = .ok e.timestamp :=
      Codec.field h rfl
    have hmsg : field Decoder.str (entries fmt e) "msg" = .ok e.msg :=
      Codec.field (c := .str) trivial rfl
    simp only [decode, Decoder.struct, hty, htimestamp, hmsg]
    rfl

end LogEntry

/-! ## Processes -/

namespace ProcessInfo

def entries (i : ProcessInfo F) : List (String × Value) :=
  [("name", .str i.name), ("pid", .int i.pid), ("runtime", .str i.runtime),
   ("cpu_usage", fmt.float.encode i.cpuUsage), ("memory_usage", .int i.memoryUsage)]

def decode : Decoder (ProcessInfo F) :=
  Decoder.struct fun es => do
    let name ← field Decoder.str es "name"
    let pid ← field Codec.i32.decode es "pid"
    let runtime ← field Decoder.str es "runtime"
    let cpuUsage ← field fmt.float.decode es "cpu_usage"
    let memoryUsage ← field Decoder.usize es "memory_usage"
    return { name, pid, runtime, cpuUsage, memoryUsage }

structure Fits (i : ProcessInfo F) : Prop where
  pid : Codec.i32.Fits i.pid
  cpuUsage : fmt.float.Fits i.cpuUsage
  memoryUsage : i.memoryUsage < 2 ^ 64

def codec : Codec (ProcessInfo F) where
  encode i := .table (entries fmt i)
  decode := decode fmt
  Fits := Fits fmt
  decode_encode {i} h := by
    have hname : field Decoder.str (entries fmt i) "name" = .ok i.name :=
      Codec.field (c := .str) trivial rfl
    have hpid : field Codec.i32.decode (entries fmt i) "pid" = .ok i.pid := Codec.field h.pid rfl
    have hruntime : field Decoder.str (entries fmt i) "runtime" = .ok i.runtime :=
      Codec.field (c := .str) trivial rfl
    have hcpu : field fmt.float.decode (entries fmt i) "cpu_usage" = .ok i.cpuUsage :=
      Codec.field h.cpuUsage rfl
    have hmemory : field Decoder.usize (entries fmt i) "memory_usage" = .ok i.memoryUsage :=
      Codec.field (c := .usize) h.memoryUsage rfl
    simp only [decode, Decoder.struct, hname, hpid, hruntime, hcpu, hmemory]
    rfl

end ProcessInfo

/-- A map is read as it is collected, whatever the order it was written in. -/
def envCodec : Codec Env where
  encode env := (Codec.map .str).encode (fmt.walk env)
  decode v := Env.collect <$> (Codec.map .str).decode v
  Fits _ := True
  decode_encode {env} _ := by
    have hentries : (Codec.map .str).decode ((Codec.map .str).encode (fmt.walk env)) =
        .ok (fmt.walk env) := (Codec.map .str).decode_encode fun _ _ => trivial
    rw [hentries]
    refine congrArg Except.ok ((Maps.extend_walk (fmt.walks env)).trans ?_)
    exact Finmap.union_empty

namespace ProcessDetails

def entries (d : ProcessDetails) : List (String × Value) :=
  [("name", .str d.name),
   ("pid", .int d.pid),
   ("vmrss_kb", .int d.vmrssKb),
   ("vmswap_kb", .int d.vmswapKb),
   ("rssanon_kb", .int d.rssanonKb),
   ("rssfile_kb", .int d.rssfileKb),
   ("rssshmem_kb", .int d.rssshmemKb),
   ("uptime", .int d.uptime),
   ("kernel_time", .int d.kernelTime),
   ("nthreads", .int d.nthreads),
   ("read_bytes", .int d.readBytes),
   ("write_bytes", .int d.writeBytes),
   ("args", (Codec.list .str).encode d.args),
   ("cwd", Codec.str.encodeOption d.cwd),
   ("env", (envCodec fmt).encode d.env),
   ("restart", d.restart.toml),
   ("resources", d.resources.serialize),
   ("security", d.security.serialize)]

def encode (d : ProcessDetails) : Value :=
  .table (entries fmt d)

def decode : Decoder ProcessDetails :=
  Decoder.struct fun es => do
    let name ← field Decoder.str es "name"
    let pid ← field Codec.i32.decode es "pid"
    let vmrssKb ← field Decoder.usize es "vmrss_kb"
    let vmswapKb ← field Decoder.usize es "vmswap_kb"
    let rssanonKb ← field Decoder.usize es "rssanon_kb"
    let rssfileKb ← field Decoder.usize es "rssfile_kb"
    let rssshmemKb ← field Decoder.usize es "rssshmem_kb"
    let uptime ← field Decoder.usize es "uptime"
    let kernelTime ← field Decoder.usize es "kernel_time"
    let nthreads ← field Decoder.usize es "nthreads"
    let readBytes ← field Decoder.usize es "read_bytes"
    let writeBytes ← field Decoder.usize es "write_bytes"
    let args ← field (Codec.list .str).decode es "args"
    let cwd ← fieldOpt Decoder.str es "cwd"
    let env ← field (envCodec fmt).decode es "env"
    let restart ← field RestartPolicy.decode es "restart"
    let resources ← field ResourceLimits.deserialize es "resources"
    let security ← field SecurityPolicy.deserialize es "security"
    return { name, pid, vmrssKb, vmswapKb, rssanonKb, rssfileKb, rssshmemKb,
             uptime, kernelTime, nthreads, readBytes, writeBytes, args, cwd, env, restart,
             resources, security }

/-- The numbers are of their types. -/
structure Typed (d : ProcessDetails) : Prop where
  pid : Codec.i32.Fits d.pid
  vmrssKb : d.vmrssKb < 2 ^ 64
  vmswapKb : d.vmswapKb < 2 ^ 64
  rssanonKb : d.rssanonKb < 2 ^ 64
  rssfileKb : d.rssfileKb < 2 ^ 64
  rssshmemKb : d.rssshmemKb < 2 ^ 64
  uptime : d.uptime < 2 ^ 64
  kernelTime : d.kernelTime < 2 ^ 64
  nthreads : d.nthreads < 2 ^ 64
  readBytes : d.readBytes < 2 ^ 64
  writeBytes : d.writeBytes < 2 ^ 64
  restart : RestartPolicy.codec.Fits d.restart
  resources : d.resources.InUsize

/-- What is left of the details when they are read. -/
def shown (d : ProcessDetails) : ProcessDetails :=
  { d with
    resources := { d.resources with
      fdLimit := d.resources.fdLimit.or (ResourceLimits.fromProfile d.resources.profile).fdLimit }
    security := { d.security with noFs := false } }

/-- The policy leaves the file system, and a profile that limits open files has a limit. -/
def Displayable (d : ProcessDetails) : Prop :=
  (d.resources.profile = .custom ∨ d.resources.fdLimit.isSome) ∧ d.security.noFs = false

theorem shown_eq_iff {d : ProcessDetails} (h : d.Typed) : d.shown = d ↔ d.Displayable := by
  rw [Displayable, ← limits_shown_iff h.resources, ← policy_shown_iff, limits_decode h.resources,
    policy_decode, Except.ok.injEq, Except.ok.injEq]
  constructor
  · intro heq
    exact ⟨congrArg (·.resources) heq, congrArg (·.security) heq⟩
  · rintro ⟨hresources, hsecurity⟩
    rw [shown, hresources, hsecurity]

theorem decode_encode {d : ProcessDetails} (h : d.Typed) :
    decode fmt (encode fmt d) = .ok d.shown := by
  have number {key : String} {n : ℕ} (hn : n < 2 ^ 64)
      (hl : (entries fmt d).lookup key = some (.int n)) :
      field Decoder.usize (entries fmt d) key = .ok n := Codec.field (c := .usize) hn hl
  have hname : field Decoder.str (entries fmt d) "name" = .ok d.name :=
    Codec.field (c := .str) trivial rfl
  have hpid : field Codec.i32.decode (entries fmt d) "pid" = .ok d.pid := Codec.field h.pid rfl
  have hargs : field (Codec.list .str).decode (entries fmt d) "args" = .ok d.args :=
    Codec.field (fun _ _ => trivial) rfl
  have hcwd : fieldOpt Decoder.str (entries fmt d) "cwd" = .ok d.cwd :=
    Codec.fieldOpt Codec.str_ne_null (fun _ _ => trivial) rfl
  have henv : field (envCodec fmt).decode (entries fmt d) "env" = .ok d.env :=
    Codec.field (c := envCodec fmt) trivial rfl
  have hrestart : field RestartPolicy.decode (entries fmt d) "restart" = .ok d.restart :=
    Codec.field (c := RestartPolicy.codec) h.restart rfl
  have hresources : field ResourceLimits.deserialize (entries fmt d) "resources" =
      .ok d.shown.resources := field_of_lookup rfl (limits_decode h.resources)
  have hsecurity : field SecurityPolicy.deserialize (entries fmt d) "security" =
      .ok d.shown.security := field_of_lookup rfl (policy_decode d.security)
  simp only [decode, encode, Decoder.struct, hname, hpid, hargs, hcwd, henv, hrestart,
    hresources, hsecurity]
  rw [number h.vmrssKb rfl, number h.vmswapKb rfl, number h.rssanonKb rfl,
    number h.rssfileKb rfl, number h.rssshmemKb rfl, number h.uptime rfl,
    number h.kernelTime rfl, number h.nthreads rfl, number h.readBytes rfl,
    number h.writeBytes rfl]
  rfl

end ProcessDetails

/-! ## The result of a command -/

namespace CommandResult

def startedCodec : Codec (String × ℤ) where
  encode p := .table [("name", .str p.1), ("pid", .int p.2)]
  decode := Decoder.struct fun es => do
    return (← field Decoder.str es "name", ← field Codec.i32.decode es "pid")
  Fits p := Codec.i32.Fits p.2
  decode_encode {p} h := by
    have hname : field Decoder.str [("name", .str p.1), ("pid", .int p.2)] "name" = .ok p.1 :=
      Codec.field (c := .str) trivial rfl
    have hpid : field Codec.i32.decode [("name", .str p.1), ("pid", .int p.2)] "pid" = .ok p.2 :=
      Codec.field h rfl
    simp only [Decoder.struct, hname, hpid]
    rfl

def encode : CommandResult F → Value
  | .success msg => tagged "Success" (.str msg)
  | .processStarted name pid => tagged "ProcessStarted" (startedCodec.encode (name, pid))
  | .processStopped name => tagged "ProcessStopped" ((Codec.str.single "name").encode name)
  | .logs vector =>
    tagged "Logs" (((Codec.list (LogEntry.codec fmt)).single "vector").encode vector)
  | .processList list =>
    tagged "ProcessList" (((Codec.list (ProcessInfo.codec fmt)).single "list").encode list)
  | .processDetails details => tagged "ProcessDetails" (ProcessDetails.encode fmt details)
  | .error msg => tagged "Error" (.str msg)

def decode : Decoder (CommandResult F) :=
  Decoder.variants []
    [("Success", fun v => .success <$> Decoder.str v),
     ("ProcessStarted", fun v => (fun p => .processStarted p.1 p.2) <$> startedCodec.decode v),
     ("ProcessStopped", fun v => .processStopped <$> (Codec.str.single "name").decode v),
     ("Logs", fun v => .logs <$> ((Codec.list (LogEntry.codec fmt)).single "vector").decode v),
     ("ProcessList", fun v =>
       .processList <$> ((Codec.list (ProcessInfo.codec fmt)).single "list").decode v),
     ("ProcessDetails", fun v => .processDetails <$> ProcessDetails.decode fmt v),
     ("Error", fun v => .error <$> Decoder.str v)]

/-- The numbers are of their types, and the formats of others read back what they wrote. -/
def Typed : CommandResult F → Prop
  | .processStarted _ pid => Codec.i32.Fits pid
  | .logs vector => ∀ e ∈ vector, fmt.timestamp.Fits e.timestamp
  | .processList list => ∀ i ∈ list, ProcessInfo.Fits fmt i
  | .processDetails details => details.Typed
  | _ => True

/-- What is left of the result when it is read. -/
def shown : CommandResult F → CommandResult F
  | .processDetails details => .processDetails details.shown
  | r => r

def Displayable : CommandResult F → Prop
  | .processDetails details => details.Displayable
  | _ => True

theorem decode_encode {r : CommandResult F} (h : r.Typed fmt) :
    decode fmt (encode fmt r) = .ok r.shown := by
  cases r with
  | success msg => exact decode_newtype (c := .str) trivial rfl
  | processStarted name pid =>
    exact decode_newtype (c := startedCodec) (b := (name, pid))
      (f := fun p => CommandResult.processStarted p.1 p.2) h rfl
  | processStopped name => exact decode_newtype (c := Codec.str.single "name") trivial rfl
  | logs vector =>
    exact decode_newtype (c := (Codec.list (LogEntry.codec fmt)).single "vector") h rfl
  | processList list =>
    exact decode_newtype (c := (Codec.list (ProcessInfo.codec fmt)).single "list") h rfl
  | processDetails details =>
    refine (decode_tagged rfl _).trans ?_
    rw [ProcessDetails.decode_encode fmt h]
    rfl
  | error msg => exact decode_newtype (c := .str) trivial rfl

theorem shown_eq_iff {r : CommandResult F} (h : r.Typed fmt) : r.shown = r ↔ r.Displayable := by
  cases r with
  | processDetails details =>
    exact (CommandResult.processDetails.injEq _ _).to_iff.trans
      (ProcessDetails.shown_eq_iff h)
  | _ => exact iff_of_true rfl trivial

end CommandResult

/-- The client reads the result the daemon wrote, whatever it is, unless it has settings that
are lost on the way. -/
theorem result_round_trip_iff {r : CommandResult F} (h : r.Typed fmt) :
    CommandResult.decode fmt (CommandResult.encode fmt r) = .ok r ↔ r.Displayable := by
  rw [CommandResult.decode_encode fmt h, Except.ok.injEq]
  exact CommandResult.shown_eq_iff fmt h

/-- A service without a limit on open files is not read back : it is shown the profile's. -/
theorem result_of_unlimited :
    let details : ProcessDetails :=
      { name := "db", pid := 4242, vmrssKb := 2048, vmswapKb := 0, rssanonKb := 0
        rssfileKb := 0, rssshmemKb := 0, uptime := 3, kernelTime := 1, nthreads := 1
        readBytes := 0, writeBytes := 0, args := [], cwd := none, env := ∅, restart := .infinite
        resources := { ResourceLimits.fromProfile .service with fdLimit := none }
        security := .fromProfile .default }
    CommandResult.decode .plain (CommandResult.encode .plain (.processDetails details)) ≠
      .ok (.processDetails details) := by
  intro details h
  have htyped : (CommandResult.processDetails details).Typed Formats.plain :=
    { pid := ⟨by decide, by decide⟩, vmrssKb := by decide, vmswapKb := by decide
      rssanonKb := by decide, rssfileKb := by decide, rssshmemKb := by decide
      uptime := by decide, kernelTime := by decide, nthreads := by decide
      readBytes := by decide, writeBytes := by decide, restart := nofun
      resources := ⟨(fromProfile_inUsize .service).memLimit, nofun⟩ }
  obtain ⟨hprofile | hlimit, -⟩ := (result_round_trip_iff .plain htyped).mp h
  · cases hprofile
  · cases hlimit

end Protocol

end Yapm
