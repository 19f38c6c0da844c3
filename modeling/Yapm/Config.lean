import Mathlib.Data.Finmap
import Yapm.Serde

/-!
# Process configurations

The configuration of a process, and the two ways to it : `ProcessConfig.ofStartArgs`
converts the arguments of the command line, `ProcessConfig.deserialize` decodes a
parsed TOML document. Both start the resource limits and the security policy from a
profile (`fromProfile`) and put the explicit settings over it.

The command line gives a priority and a memory limit as strings, parsed by
`CPUPriority.fromStr` and `parseUsize`; a string neither accepts is dropped. Both are
compared after lower-casing with words that have no `k`, so lower-casing the ASCII
letters decides the comparisons as the full Unicode mapping does.

A path is the string it is written as.
-/

open Serde

namespace Yapm

/-! ## Settings -/

/-- `to_lowercase`, on the ASCII letters. -/
def toLowercase (s : String) : String :=
  .ofList (s.toList.map Char.toLower)

inductive CPUPriority
  | max
  | veryHigh
  | high
  | normal
  | low
  | veryLow
  | lowest
deriving DecidableEq, Repr

/-- `CPUPriority::from_str`. The last word gives `low`. -/
def CPUPriority.fromStr (s : String) : Except String CPUPriority :=
  match toLowercase s with
  | "max" => .ok .max
  | "very high" => .ok .veryHigh
  | "high" => .ok .high
  | "normal" => .ok .normal
  | "low" => .ok .low
  | "very low" => .ok .veryLow
  | "lowest" => .ok .low
  | _ => .error (s ++ " is not accepted as a parameter to use to tune cpu priority")

def CPUPriority.default : CPUPriority := .normal

inductive MemReqs
  | unlimited
  /-- In MB. -/
  | specific (mibs : ℕ)
deriving DecidableEq, Repr

def MemReqs.default : MemReqs := .unlimited

inductive ResourceProfile
  | light
  | worker
  | service
  | custom
deriving DecidableEq, Repr

def ResourceProfile.default : ResourceProfile := .worker

structure ResourceLimits where
  profile : ResourceProfile
  cpuPriority : CPUPriority
  memLimit : MemReqs
  fdLimit : Option ℕ
deriving DecidableEq, Repr

def ResourceLimits.default : ResourceLimits where
  profile := .custom
  cpuPriority := .default
  memLimit := .default
  fdLimit := none

def ResourceLimits.fromProfile : ResourceProfile → ResourceLimits
  | .light => ⟨.light, .low, .specific 100, some 32⟩
  | .worker => ⟨.worker, .normal, .specific 500, some 128⟩
  | .service => ⟨.service, .high, .specific 1024, some 1024⟩
  | .custom => .default

/-- The numbers of the limits are of the type `usize`. -/
structure ResourceLimits.InUsize (r : ResourceLimits) : Prop where
  memLimit : ∀ n, r.memLimit = .specific n → n < 2 ^ 64
  fdLimit : ∀ n, r.fdLimit = some n → n < 2 ^ 64

theorem fromProfile_inUsize (p : ResourceProfile) : (ResourceLimits.fromProfile p).InUsize := by
  cases p <;> constructor <;>
    simp [ResourceLimits.fromProfile, ResourceLimits.default, MemReqs.default]

inductive RestartPolicy
  | none
  | capped (value : ℕ)
  | infinite
deriving DecidableEq, Repr

def RestartPolicy.default : RestartPolicy := .none

inductive SecurityProfile
  | default
  | isolated
  | readOnly
  | sandboxed
  | custom
deriving DecidableEq, Repr

structure SecurityPolicy where
  profile : SecurityProfile
  noNet : Bool
  noFs : Bool
  readOnlyFs : Bool
  noProcess : Bool
  noThread : Bool
  noIpc : Bool
  noSysman : Bool
deriving DecidableEq, Repr

def SecurityPolicy.default : SecurityPolicy where
  profile := .default
  noNet := false
  noFs := false
  readOnlyFs := false
  noProcess := false
  noThread := false
  noIpc := false
  noSysman := true

def SecurityPolicy.fromProfile (profile : SecurityProfile) : SecurityPolicy :=
  match profile with
  | .default => .default
  | .isolated => { SecurityPolicy.default with
      profile, noNet := true, noProcess := true, noIpc := true }
  | .readOnly => { SecurityPolicy.default with profile, readOnlyFs := true }
  | .sandboxed => { SecurityPolicy.default with
      profile, noNet := true, readOnlyFs := true, noProcess := true, noThread := true
      noIpc := true, noSysman := true }
  | .custom => { SecurityPolicy.default with profile := .custom }

/-- Environment variables. -/
abbrev Env := Finmap fun _ : String => String

/-- `collect` of key-value pairs : the last pair of a key wins. -/
def Env.collect (kvs : List (String × String)) : Env :=
  kvs.foldl (fun env kv => env.insert kv.1 kv.2) ∅

structure ProcessConfig where
  name : String
  command : String
  args : List String
  cwd : Option String
  env : Env
  resources : ResourceLimits
  restart : RestartPolicy
  security : SecurityPolicy
  logDir : Option String
deriving DecidableEq

/-- A process with nothing set but its name and command. -/
def plainConfig : ProcessConfig where
  name := "db"
  command := "/usr/bin/db"
  args := []
  cwd := none
  env := ∅
  resources := .default
  restart := .default
  security := .default
  logDir := none

/-! ## From the command line -/

def stripPlus : List Char → List Char
  | '+' :: cs => cs
  | cs => cs

/-- `str::parse::<usize>` : decimal digits, after at most one `+`. -/
def parseUsize (s : String) : Option ℕ :=
  let digits := stripPlus s.toList
  if digits ≠ [] ∧ digits.all Char.isDigit ∧ Nat.ofDigitChars 10 digits 0 < 2 ^ 64 then
    some (Nat.ofDigitChars 10 digits 0)
  else none

theorem toString_toList (n : ℕ) : (toString n).toList = Nat.toDigits 10 n := by
  simp

theorem isDigit_of_mem_toDigits {n : ℕ} {c : Char} (hc : c ∈ Nat.toDigits 10 n) : c.isDigit :=
  Nat.isDigit_of_mem_toDigits (by decide) (by decide) hc

theorem stripPlus_toDigits (n : ℕ) : stripPlus (Nat.toDigits 10 n) = Nat.toDigits 10 n := by
  unfold stripPlus
  split
  · rename_i cs hcs
    have hplus : '+'.isDigit := isDigit_of_mem_toDigits (n := n) (by rw [hcs]; exact .head _)
    exact absurd hplus (by decide)
  · rfl

/-- A decimal numeral reads back as its number. -/
theorem parseUsize_toString {n : ℕ} (h : n < 2 ^ 64) : parseUsize (toString n) = some n := by
  have hdigit : (Nat.toDigits 10 n).all Char.isDigit :=
    List.all_eq_true.mpr fun _ => isDigit_of_mem_toDigits
  simp only [parseUsize, toString_toList, stripPlus_toDigits, Nat.ofDigitChars_ten_toDigits]
  rw [if_pos ⟨Nat.toDigits_ne_nil, hdigit, h⟩]

theorem parseUsize_lt {s : String} {n : ℕ} (h : parseUsize s = some n) : n < 2 ^ 64 := by
  unfold parseUsize at h
  simp only at h
  split at h
  · rename_i hdigits
    obtain rfl := Option.some_inj.mp h
    exact hdigits.2.2
  · cases h

structure ResourceArgs where
  resourceProfile : Option ResourceProfile
  cpuPriority : Option String
  memoryLimit : Option String
  fdLimit : Option ℕ

structure SecurityArgs where
  securityProfile : Option SecurityProfile
  noNet : Bool
  readonlyFs : Bool
  noProcess : Bool
  noThread : Bool
  noIpc : Bool
  allowSysman : Bool

structure StartArgs where
  name : String
  command : String
  args : List String
  cwd : Option String
  env : List (String × String)
  logDir : Option String
  restart : Option RestartPolicy
  resources : ResourceArgs
  security : SecurityArgs

/-- `ResourceLimits::from(&ResourceArgs)`. -/
def ResourceLimits.ofArgs (args : ResourceArgs) : ResourceLimits :=
  let limits := match args.resourceProfile with
    | some profile => fromProfile profile
    | none => .default
  let limits := match args.cpuPriority with
    | some priorityStr =>
      match CPUPriority.fromStr priorityStr with
      | .ok priority => { limits with cpuPriority := priority }
      | .error _ => limits
    | none => limits
  let limits := match args.memoryLimit with
    | some memStr =>
      if toLowercase memStr = "unlimited" then { limits with memLimit := .unlimited }
      else match parseUsize memStr with
        | some mem => { limits with memLimit := .specific mem }
        | none => limits
    | none => limits
  match args.fdLimit with
  | some fd => { limits with fdLimit := some fd }
  | none => limits

/-- `SecurityPolicy::from(&SecurityArgs)`. -/
def SecurityPolicy.ofArgs (args : SecurityArgs) : SecurityPolicy :=
  let policy := match args.securityProfile with
    | some profile => fromProfile profile
    | none => .default
  let policy := if args.noNet then { policy with noNet := true } else policy
  let policy := if args.readonlyFs then { policy with readOnlyFs := true } else policy
  let policy := if args.noProcess then { policy with noProcess := true } else policy
  let policy := if args.noThread then { policy with noThread := true } else policy
  let policy := if args.noIpc then { policy with noIpc := true } else policy
  if args.allowSysman then { policy with noSysman := false } else policy

/-- `ProcessConfig::from(StartArgs)`. -/
def ProcessConfig.ofStartArgs (args : StartArgs) : ProcessConfig where
  name := args.name
  command := args.command
  args := args.args
  cwd := args.cwd
  env := .collect args.env
  resources := .ofArgs args.resources
  restart := args.restart.getD .default
  security := .ofArgs args.security
  logDir := args.logDir

/-! ## From a TOML document -/

def CPUPriority.decode : Decoder CPUPriority :=
  Decoder.unitVariants [("Max", .max), ("VeryHigh", .veryHigh), ("High", .high),
    ("Normal", .normal), ("Low", .low), ("VeryLow", .veryLow), ("Lowest", .lowest)]

def MemReqs.decode : Decoder MemReqs :=
  Decoder.variants [("Unlimited", .unlimited)]
    [("Specific", fun v => .specific <$> Decoder.usize v)]

def ResourceProfile.decode : Decoder ResourceProfile :=
  Decoder.unitVariants [("Light", .light), ("Worker", .worker), ("Service", .service),
    ("Custom", .custom)]

def RestartPolicy.decode : Decoder RestartPolicy :=
  Decoder.variants [("None", .none), ("Infinite", .infinite)]
    [("Capped", fun v => .capped <$> Decoder.usize v)]

def SecurityProfile.decode : Decoder SecurityProfile :=
  Decoder.unitVariants [("default", .default), ("isolated", .isolated),
    ("readonly", .readOnly), ("sandboxed", .sandboxed), ("custom", .custom)]

structure RawResourceLimits where
  profile : Option ResourceProfile
  cpuPriority : Option CPUPriority
  memLimit : Option MemReqs
  fdLimit : Option ℕ

def RawResourceLimits.decode : Decoder RawResourceLimits :=
  Decoder.struct fun es => do
    let profile ← fieldOpt ResourceProfile.decode es "profile"
    let cpuPriority ← fieldOpt CPUPriority.decode es "cpu_priority"
    let memLimit ← fieldOpt MemReqs.decode es "mem_limit"
    let fdLimit ← fieldOpt Decoder.usize es "fd_limit"
    return { profile, cpuPriority, memLimit, fdLimit }

/-- What `ResourceLimits::deserialize` makes of the raw options. -/
def ResourceLimits.ofRaw (args : RawResourceLimits) : ResourceLimits :=
  let limits := fromProfile (args.profile.getD .default)
  let limits := match args.cpuPriority with
    | some priority => { limits with cpuPriority := priority }
    | none => limits
  let limits := match args.memLimit with
    | some mem => { limits with memLimit := mem }
    | none => limits
  match args.fdLimit with
  | some fd => { limits with fdLimit := some fd }
  | none => limits

def ResourceLimits.deserialize : Decoder ResourceLimits := fun v =>
  .ofRaw <$> RawResourceLimits.decode v

structure RawSecurityPolicy where
  profile : Option SecurityProfile
  noNet : Option Bool
  noFs : Option Bool
  readOnlyFs : Option Bool
  noProcess : Option Bool
  noThread : Option Bool
  noIpc : Option Bool
  noSysman : Option Bool

def RawSecurityPolicy.decode : Decoder RawSecurityPolicy :=
  Decoder.struct fun es => do
    let profile ← fieldOpt SecurityProfile.decode es "profile"
    let noNet ← fieldOpt Decoder.bool es "no_net"
    let noFs ← fieldOpt Decoder.bool es "no_fs"
    let readOnlyFs ← fieldOpt Decoder.bool es "read_only_fs"
    let noProcess ← fieldOpt Decoder.bool es "no_process"
    let noThread ← fieldOpt Decoder.bool es "no_thread"
    let noIpc ← fieldOpt Decoder.bool es "no_ipc"
    let noSysman ← fieldOpt Decoder.bool es "no_sysman"
    return { profile, noNet, noFs, readOnlyFs, noProcess, noThread, noIpc, noSysman }

/-- What `SecurityPolicy::deserialize` makes of the raw options. Every option but
`noFs` overrides the profile. -/
def SecurityPolicy.ofRaw (args : RawSecurityPolicy) : SecurityPolicy :=
  let limits := fromProfile (args.profile.getD .default)
  { limits with
    noNet := args.noNet.getD limits.noNet
    readOnlyFs := args.readOnlyFs.getD limits.readOnlyFs
    noProcess := args.noProcess.getD limits.noProcess
    noThread := args.noThread.getD limits.noThread
    noIpc := args.noIpc.getD limits.noIpc
    noSysman := args.noSysman.getD limits.noSysman }

def SecurityPolicy.deserialize : Decoder SecurityPolicy := fun v =>
  .ofRaw <$> RawSecurityPolicy.decode v

def ProcessConfig.deserialize : Decoder ProcessConfig :=
  Decoder.struct fun es => do
    let name ← field Decoder.str es "name"
    let command ← field Decoder.str es "command"
    let args ← fieldD (Decoder.list Decoder.str) [] es "args"
    let cwd ← fieldOpt Decoder.str es "cwd"
    let env ← fieldD (fun v => Env.collect <$> Decoder.map Decoder.str v) ∅ es "env"
    let resources ← fieldD ResourceLimits.deserialize .default es "resources"
    let restart ← fieldD RestartPolicy.decode .default es "restart"
    let security ← fieldD SecurityPolicy.deserialize .default es "security"
    let logDir ← fieldOpt Decoder.str es "log_dir"
    return { name, command, args, cwd, env, resources, restart, security, logDir }

/-- Limits, restarts and policy of a document that decodes are what their keys decode to. -/
theorem ProcessConfig.deserialize_eq_ok {doc : Value} {config : ProcessConfig}
    (h : ProcessConfig.deserialize doc = .ok config) : ∃ es, doc = .table es ∧
      fieldD ResourceLimits.deserialize .default es "resources" = .ok config.resources ∧
      fieldD RestartPolicy.decode .default es "restart" = .ok config.restart ∧
      fieldD SecurityPolicy.deserialize .default es "security" = .ok config.security := by
  cases doc with
  | table es =>
    simp only [ProcessConfig.deserialize, Decoder.struct, bind_eq_ok] at h
    obtain ⟨name, -, command, -, args, -, cwd, -, env, -, resources, hresources, restart, hrestart,
      security, hsecurity, logDir, -, hconfig⟩ := h
    cases hconfig
    exact ⟨es, rfl, hresources, hrestart, hsecurity⟩
  | _ => cases h

theorem fromProfile_noFs (p : SecurityProfile) : (SecurityPolicy.fromProfile p).noFs = false := by
  cases p <;> rfl

/-- No document decodes to a policy without a file system. -/
theorem noFs_eq_false {doc : Value} {config : ProcessConfig}
    (h : ProcessConfig.deserialize doc = .ok config) : config.security.noFs = false := by
  obtain ⟨es, -, -, -, hsecurity⟩ := ProcessConfig.deserialize_eq_ok h
  obtain hdefault | ⟨v, hv⟩ := fieldD_eq_ok hsecurity
  · rw [hdefault]
    rfl
  · obtain ⟨raw, -, hpolicy⟩ := map_eq_ok.mp hv
    rw [← hpolicy]
    exact fromProfile_noFs _

end Yapm
