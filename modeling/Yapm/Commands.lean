import Yapm.ClientView
import Yapm.Codecs
import Yapm.Handlers

/-!
# Commands on the wire

The client sends the daemon the command line it parsed, as derived code writes it, and the
daemon reads it with the decoder derived from the same types. Each type on the way down from
`CLI` has a codec here, with the keys and the names of variants of the source.

`CLI.codec` reads back every command line whose numbers are of the type `usize`, which the
client's own parser sees to (`cli_round_trip`).
-/

open Serde

namespace Yapm

/-! ## Commands -/

inductive MonitorCommands
  | list
  | «show» (process : String)
  | log (lines : ℕ)
  | metrics (process : String)

inductive SystemCommands
  | init (force : Bool)
  | status
  | shutdown

inductive Command
  | process (cmd : ProcessCommands)
  | config (cmd : ConfigCommands)
  | monitor (cmd : MonitorCommands)
  | system (cmd : SystemCommands)

structure CLI where
  logDir : Option String
  command : Command

/-! ## Settings -/

def ResourceProfile.codec : Codec ResourceProfile :=
  .units [("Light", .light), ("Worker", .worker), ("Service", .service), ("Custom", .custom)]
    ResourceProfile.variantName fun p => by cases p <;> rfl

def SecurityProfile.codec : Codec SecurityProfile :=
  .units [("default", .default), ("isolated", .isolated), ("readonly", .readOnly),
    ("sandboxed", .sandboxed), ("custom", .custom)] SecurityProfile.variantName
    fun p => by cases p <;> rfl

def RestartPolicy.codec : Codec RestartPolicy where
  encode := RestartPolicy.toml
  decode := RestartPolicy.decode
  Fits r := ∀ n, r = .capped n → n < 2 ^ 64
  decode_encode := RestartPolicy.decode_toml

theorem RestartPolicy.toml_ne_null (r : RestartPolicy) : r.toml ≠ .null := by
  cases r <;> simp [RestartPolicy.toml]

namespace ResourceArgs

def entries (a : ResourceArgs) : List (String × Value) :=
  [("resource_profile", ResourceProfile.codec.encodeOption a.resourceProfile),
   ("cpu_priority", Codec.str.encodeOption a.cpuPriority),
   ("memory_limit", Codec.str.encodeOption a.memoryLimit),
   ("fd_limit", Codec.usize.encodeOption a.fdLimit)]

def decode : Decoder ResourceArgs :=
  Decoder.struct fun es => do
    let resourceProfile ← fieldOpt ResourceProfile.codec.decode es "resource_profile"
    let cpuPriority ← fieldOpt Decoder.str es "cpu_priority"
    let memoryLimit ← fieldOpt Decoder.str es "memory_limit"
    let fdLimit ← fieldOpt Decoder.usize es "fd_limit"
    return { resourceProfile, cpuPriority, memoryLimit, fdLimit }

def codec : Codec ResourceArgs where
  encode a := .table a.entries
  decode := decode
  Fits a := ∀ n ∈ a.fdLimit, n < 2 ^ 64
  decode_encode {a} h := by
    have hprofile : fieldOpt ResourceProfile.codec.decode a.entries "resource_profile" =
        .ok a.resourceProfile :=
      Codec.fieldOpt (fun _ h => nomatch h) (fun _ _ => trivial) rfl
    have hpriority : fieldOpt Decoder.str a.entries "cpu_priority" = .ok a.cpuPriority :=
      Codec.fieldOpt Codec.str_ne_null (fun _ _ => trivial) rfl
    have hmemory : fieldOpt Decoder.str a.entries "memory_limit" = .ok a.memoryLimit :=
      Codec.fieldOpt Codec.str_ne_null (fun _ _ => trivial) rfl
    have hfd : fieldOpt Decoder.usize a.entries "fd_limit" = .ok a.fdLimit :=
      Codec.fieldOpt Codec.usize_ne_null h rfl
    simp only [decode, Decoder.struct, hprofile, hpriority, hmemory, hfd]
    rfl

end ResourceArgs

namespace SecurityArgs

def entries (a : SecurityArgs) : List (String × Value) :=
  [("security_profile", SecurityProfile.codec.encodeOption a.securityProfile),
   ("no_net", .bool a.noNet),
   ("readonly_fs", .bool a.readonlyFs),
   ("no_process", .bool a.noProcess),
   ("no_thread", .bool a.noThread),
   ("no_ipc", .bool a.noIpc),
   ("allow_sysman", .bool a.allowSysman)]

def decode : Decoder SecurityArgs :=
  Decoder.struct fun es => do
    let securityProfile ← fieldOpt SecurityProfile.codec.decode es "security_profile"
    let noNet ← field Decoder.bool es "no_net"
    let readonlyFs ← field Decoder.bool es "readonly_fs"
    let noProcess ← field Decoder.bool es "no_process"
    let noThread ← field Decoder.bool es "no_thread"
    let noIpc ← field Decoder.bool es "no_ipc"
    let allowSysman ← field Decoder.bool es "allow_sysman"
    return { securityProfile, noNet, readonlyFs, noProcess, noThread, noIpc, allowSysman }

def codec : Codec SecurityArgs where
  encode a := .table a.entries
  decode := decode
  Fits _ := True
  decode_encode {a} _ := by
    have hprofile : fieldOpt SecurityProfile.codec.decode a.entries "security_profile" =
        .ok a.securityProfile :=
      Codec.fieldOpt (fun _ h => nomatch h) (fun _ _ => trivial) rfl
    have flag {key : String} {b : Bool} (hl : a.entries.lookup key = some (.bool b)) :
        field Decoder.bool a.entries key = .ok b := Codec.field (c := .bool) trivial hl
    simp only [decode, Decoder.struct, hprofile]
    rw [flag (b := a.noNet) rfl, flag (b := a.readonlyFs) rfl, flag (b := a.noProcess) rfl,
      flag (b := a.noThread) rfl, flag (b := a.noIpc) rfl, flag (b := a.allowSysman) rfl]
    rfl

end SecurityArgs

namespace StartArgs

def envCodec : Codec (List (String × String)) :=
  .list (.pair .str .str)

def entries (a : StartArgs) : List (String × Value) :=
  [("name", .str a.name),
   ("command", .str a.command),
   ("args", (Codec.list .str).encode a.args),
   ("cwd", Codec.str.encodeOption a.cwd),
   ("env", envCodec.encode a.env),
   ("log_dir", Codec.str.encodeOption a.logDir),
   ("restart", RestartPolicy.codec.encodeOption a.restart),
   ("resources", ResourceArgs.codec.encode a.resources),
   ("security", SecurityArgs.codec.encode a.security)]

def decode : Decoder StartArgs :=
  Decoder.struct fun es => do
    let name ← field Decoder.str es "name"
    let command ← field Decoder.str es "command"
    let args ← field (Codec.list .str).decode es "args"
    let cwd ← fieldOpt Decoder.str es "cwd"
    let env ← field envCodec.decode es "env"
    let logDir ← fieldOpt Decoder.str es "log_dir"
    let restart ← fieldOpt RestartPolicy.codec.decode es "restart"
    let resources ← field ResourceArgs.codec.decode es "resources"
    let security ← field SecurityArgs.codec.decode es "security"
    return { name, command, args, cwd, env, logDir, restart, resources, security }

def codec : Codec StartArgs where
  encode a := .table a.entries
  decode := decode
  Fits a := a.InUsize
  decode_encode {a} h := by
    have hname : field Decoder.str a.entries "name" = .ok a.name :=
      Codec.field (c := .str) trivial rfl
    have hcommand : field Decoder.str a.entries "command" = .ok a.command :=
      Codec.field (c := .str) trivial rfl
    have hargs : field (Codec.list .str).decode a.entries "args" = .ok a.args :=
      Codec.field (fun _ _ => trivial) rfl
    have hcwd : fieldOpt Decoder.str a.entries "cwd" = .ok a.cwd :=
      Codec.fieldOpt Codec.str_ne_null (fun _ _ => trivial) rfl
    have henv : field envCodec.decode a.entries "env" = .ok a.env :=
      Codec.field (fun _ _ => ⟨trivial, trivial⟩) rfl
    have hlogDir : fieldOpt Decoder.str a.entries "log_dir" = .ok a.logDir :=
      Codec.fieldOpt Codec.str_ne_null (fun _ _ => trivial) rfl
    have hrestart : fieldOpt RestartPolicy.codec.decode a.entries "restart" = .ok a.restart :=
      Codec.fieldOpt RestartPolicy.toml_ne_null
        (fun r hr n hn => h.restart n (by rw [← hn]; exact hr)) rfl
    have hresources : field ResourceArgs.codec.decode a.entries "resources" = .ok a.resources :=
      Codec.field h.fdLimit rfl
    have hsecurity : field SecurityArgs.codec.decode a.entries "security" = .ok a.security :=
      Codec.field trivial rfl
    simp only [decode, Decoder.struct, hname, hcommand, hargs, hcwd, henv, hlogDir, hrestart,
      hresources, hsecurity]
    rfl

end StartArgs

/-! ## Subcommands -/

namespace ProcessCommands

def encode : ProcessCommands → Value
  | .start args => tagged "Start" (StartArgs.codec.encode args)
  | .stop process => tagged "Stop" ((Codec.str.single "process").encode process)

def decode : Decoder ProcessCommands :=
  Decoder.variants []
    [("Start", fun v => .start <$> StartArgs.codec.decode v),
     ("Stop", fun v => .stop <$> (Codec.str.single "process").decode v)]

def Fits : ProcessCommands → Prop
  | .start args => args.InUsize
  | .stop _ => True

def codec : Codec ProcessCommands where
  encode := encode
  decode := decode
  Fits := Fits
  decode_encode {cmd} h := by
    cases cmd with
    | start args => exact decode_newtype (c := StartArgs.codec) h rfl
    | stop process => exact decode_newtype (c := Codec.str.single "process") trivial rfl

end ProcessCommands

def ConfigCommands.codec : Codec ConfigCommands where
  encode
    | .startConfig config => tagged "StartConfig" ((Codec.str.single "config").encode config)
  decode := Decoder.variants []
    [("StartConfig", fun v => .startConfig <$> (Codec.str.single "config").decode v)]
  Fits _ := True
  decode_encode {cmd} _ := by
    cases cmd with
    | startConfig config => exact decode_newtype (c := Codec.str.single "config") trivial rfl

namespace MonitorCommands

def encode : MonitorCommands → Value
  | .list => .str "List"
  | .«show» process => tagged "Show" ((Codec.str.single "process").encode process)
  | .log lines => tagged "Log" ((Codec.usize.single "lines").encode lines)
  | .metrics process => tagged "Metrics" ((Codec.str.single "process").encode process)

def decode : Decoder MonitorCommands :=
  Decoder.variants [("List", .list)]
    [("Show", fun v => .«show» <$> (Codec.str.single "process").decode v),
     ("Log", fun v => .log <$> (Codec.usize.single "lines").decode v),
     ("Metrics", fun v => .metrics <$> (Codec.str.single "process").decode v)]

def Fits : MonitorCommands → Prop
  | .log lines => lines < 2 ^ 64
  | _ => True

def codec : Codec MonitorCommands where
  encode := encode
  decode := decode
  Fits := Fits
  decode_encode {cmd} h := by
    cases cmd with
    | list => exact decode_unit rfl
    | «show» process => exact decode_newtype (c := Codec.str.single "process") trivial rfl
    | log lines => exact decode_newtype (c := Codec.usize.single "lines") h rfl
    | metrics process => exact decode_newtype (c := Codec.str.single "process") trivial rfl

end MonitorCommands

namespace SystemCommands

def encode : SystemCommands → Value
  | .init force => tagged "Init" ((Codec.bool.single "force").encode force)
  | .status => .str "Status"
  | .shutdown => .str "Shutdown"

def decode : Decoder SystemCommands :=
  Decoder.variants [("Status", .status), ("Shutdown", .shutdown)]
    [("Init", fun v => .init <$> (Codec.bool.single "force").decode v)]

def codec : Codec SystemCommands where
  encode := encode
  decode := decode
  Fits _ := True
  decode_encode {cmd} _ := by
    cases cmd with
    | init force => exact decode_newtype (c := Codec.bool.single "force") trivial rfl
    | status => exact decode_unit rfl
    | shutdown => exact decode_unit rfl

end SystemCommands

namespace Command

def encode : Command → Value
  | .process cmd => tagged "Process" (ProcessCommands.codec.encode cmd)
  | .config cmd => tagged "Config" (ConfigCommands.codec.encode cmd)
  | .monitor cmd => tagged "Monitor" (MonitorCommands.codec.encode cmd)
  | .system cmd => tagged "System" (SystemCommands.codec.encode cmd)

def decode : Decoder Command :=
  Decoder.variants []
    [("Process", fun v => .process <$> ProcessCommands.codec.decode v),
     ("Config", fun v => .config <$> ConfigCommands.codec.decode v),
     ("Monitor", fun v => .monitor <$> MonitorCommands.codec.decode v),
     ("System", fun v => .system <$> SystemCommands.codec.decode v)]

/-- The numbers are of the type `usize`. -/
def InUsize : Command → Prop
  | .process cmd => cmd.Fits
  | .monitor cmd => cmd.Fits
  | _ => True

def codec : Codec Command where
  encode := encode
  decode := decode
  Fits := InUsize
  decode_encode {cmd} h := by
    cases cmd with
    | process cmd => exact decode_newtype (c := ProcessCommands.codec) h rfl
    | config cmd => exact decode_newtype (c := ConfigCommands.codec) trivial rfl
    | monitor cmd => exact decode_newtype (c := MonitorCommands.codec) h rfl
    | system cmd => exact decode_newtype (c := SystemCommands.codec) trivial rfl

end Command

namespace CLI

def entries (cli : CLI) : List (String × Value) :=
  [("log_dir", Codec.str.encodeOption cli.logDir), ("command", Command.codec.encode cli.command)]

def decode : Decoder CLI :=
  Decoder.struct fun es => do
    let logDir ← fieldOpt Decoder.str es "log_dir"
    let command ← field Command.codec.decode es "command"
    return { logDir, command }

def codec : Codec CLI where
  encode cli := .table cli.entries
  decode := decode
  Fits cli := cli.command.InUsize
  decode_encode {cli} h := by
    have hlogDir : fieldOpt Decoder.str cli.entries "log_dir" = .ok cli.logDir :=
      Codec.fieldOpt Codec.str_ne_null (fun _ _ => trivial) rfl
    have hcommand : field Command.codec.decode cli.entries "command" = .ok cli.command :=
      Codec.field h rfl
    simp only [decode, Decoder.struct, hlogDir, hcommand]
    rfl

end CLI

/-- The daemon reads the command line the client was given. -/
theorem cli_round_trip {cli : CLI} (h : cli.command.InUsize) :
    CLI.codec.decode (CLI.codec.encode cli) = .ok cli :=
  CLI.codec.decode_encode h

/-- A start of a service with an environment, a budget and a limit. -/
theorem cli_round_trip_start :
    let args : StartArgs :=
      { name := "db", command := "/usr/bin/db", args := ["-p", "5432"], cwd := some "/srv"
        env := [("HOME", "/srv")], logDir := none, restart := some (.capped 3)
        resources := ⟨some .service, some "low", some "512", some 64⟩
        security := ⟨some .sandboxed, false, false, false, false, false, true⟩ }
    let cli : CLI := ⟨none, .process (.start args)⟩
    CLI.codec.decode (CLI.codec.encode cli) = .ok cli :=
  cli_round_trip ⟨by simp, by simp⟩

end Yapm
