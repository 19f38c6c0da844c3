import Yapm.ConfigForms
import Yapm.Restart

/-!
# The settings a client shows

`show` answers with the details of a registered process, and the client decodes them.
Encoding is derived; decoding is written by hand for the limits and the policy, and starts
from the preset of the profile. So two things are lost on the way (`limits_decode`,
`policy_decode`) : a missing limit on open files comes back as the profile's, and `noFs`
as unset.

Neither is there to lose. `Displayable` is what every configuration has that comes from a
command line or from a document, and that every restart keeps. `details_round_trip` : what
the client decodes is what the daemon holds.
-/

open Serde

namespace Yapm

/-! ## The encoding -/

def ResourceLimits.entries (r : ResourceLimits) : List (String × Value) :=
  [("profile", .str r.profile.variantName),
   ("cpu_priority", .str r.cpuPriority.variantName),
   ("mem_limit", r.memLimit.toml),
   ("fd_limit", (r.fdLimit.map fun n : ℕ => Value.int n).getD .null)]

def ResourceLimits.serialize (r : ResourceLimits) : Value :=
  .table r.entries

def SecurityPolicy.entries (s : SecurityPolicy) : List (String × Value) :=
  [("profile", .str s.profile.variantName),
   ("no_net", .bool s.noNet),
   ("no_fs", .bool s.noFs),
   ("read_only_fs", .bool s.readOnlyFs),
   ("no_process", .bool s.noProcess),
   ("no_thread", .bool s.noThread),
   ("no_ipc", .bool s.noIpc),
   ("no_sysman", .bool s.noSysman)]

def SecurityPolicy.serialize (s : SecurityPolicy) : Value :=
  .table s.entries

/-- Of the details of a process, its settings. -/
structure ProcessDetails where
  restart : RestartPolicy
  resources : ResourceLimits
  security : SecurityPolicy
deriving DecidableEq, Repr

namespace ProcessDetails

def entries (d : ProcessDetails) : List (String × Value) :=
  [("restart", d.restart.toml), ("resources", d.resources.serialize),
   ("security", d.security.serialize)]

def serialize (d : ProcessDetails) : Value :=
  .table d.entries

def deserialize : Decoder ProcessDetails :=
  Decoder.struct fun es => do
    let restart ← field RestartPolicy.decode es "restart"
    let resources ← field ResourceLimits.deserialize es "resources"
    let security ← field SecurityPolicy.deserialize es "security"
    return { restart, resources, security }

end ProcessDetails

/-- The details of a registered process. -/
def LinuxCurrentTask.details (t : LinuxCurrentTask) : ProcessDetails where
  restart := t.config.restart
  resources := t.config.resources
  security := t.config.security

/-- The process after a number of decisions on a restart. -/
def LinuxCurrentTask.respawned (t : LinuxCurrentTask) (n : ℕ) : LinuxCurrentTask :=
  (fun t => t.respawn.2)^[n] t

/-! ## What a client decodes -/

theorem fdLimit_decode {o : Option ℕ} (h : ∀ n, o = some n → n < 2 ^ 64) :
    Decoder.usize.option ((o.map fun n : ℕ => Value.int n).getD .null) = .ok o := by
  cases o with
  | none => rfl
  | some n => exact option_of_ne_null (by simp) (decode_usize (h n rfl))

/-- A missing limit on open files is decoded as that of the profile. -/
theorem limits_decode {r : ResourceLimits} (h : r.InUsize) :
    ResourceLimits.deserialize r.serialize =
      .ok { r with fdLimit := r.fdLimit.or (ResourceLimits.fromProfile r.profile).fdLimit } := by
  have hprofile : fieldOpt ResourceProfile.decode r.entries "profile" = .ok (some r.profile) :=
    fieldOpt_of_lookup rfl (option_of_ne_null (by simp) r.profile.decode_variantName)
  have hpriority : fieldOpt CPUPriority.decode r.entries "cpu_priority" =
      .ok (some r.cpuPriority) :=
    fieldOpt_of_lookup rfl (option_of_ne_null (by simp) r.cpuPriority.decode_variantName)
  have hmem : fieldOpt MemReqs.decode r.entries "mem_limit" = .ok (some r.memLimit) :=
    fieldOpt_of_lookup rfl
      (option_of_ne_null r.memLimit.toml_ne_null (MemReqs.decode_toml h.memLimit))
  have hfd : fieldOpt Decoder.usize r.entries "fd_limit" = .ok r.fdLimit :=
    fieldOpt_of_lookup rfl (fdLimit_decode h.fdLimit)
  have hraw : RawResourceLimits.decode (.table r.entries) =
      .ok ⟨some r.profile, some r.cpuPriority, some r.memLimit, r.fdLimit⟩ := by
    simp only [RawResourceLimits.decode, Decoder.struct, hprofile, hpriority, hmem, hfd]
    rfl
  rw [ResourceLimits.serialize, ResourceLimits.deserialize, hraw]
  refine congrArg Except.ok ((Settings.ofRaw_eq _).trans ?_)
  simp [Settings.fromProfile_profile]

/-- The limits come back unless one on open files is missing that the profile has. -/
theorem limits_shown_iff {r : ResourceLimits} (h : r.InUsize) :
    ResourceLimits.deserialize r.serialize = .ok r ↔
      r.profile = .custom ∨ r.fdLimit.isSome := by
  rw [limits_decode h, Except.ok.injEq]
  obtain ⟨profile, cpuPriority, memLimit, fdLimit⟩ := r
  cases fdLimit with
  | some n => simp
  | none => cases profile <;> simp [ResourceLimits.fromProfile, ResourceLimits.default]

theorem securityProfile_fromProfile (p : SecurityProfile) :
    (SecurityPolicy.fromProfile p).profile = p := by
  cases p <;> rfl

/-- `noFs` is decoded as unset. -/
theorem policy_decode (s : SecurityPolicy) :
    SecurityPolicy.deserialize s.serialize = .ok { s with noFs := false } := by
  have hprofile : fieldOpt SecurityProfile.decode s.entries "profile" = .ok (some s.profile) :=
    fieldOpt_of_lookup rfl (option_of_ne_null (by simp) s.profile.decode_variantName)
  have flag {key : String} {b : Bool} (hl : s.entries.lookup key = some (.bool b)) :
      fieldOpt Decoder.bool s.entries key = .ok (some b) :=
    fieldOpt_of_lookup hl rfl
  have hraw : RawSecurityPolicy.decode (.table s.entries) =
      .ok ⟨some s.profile, some s.noNet, some s.noFs, some s.readOnlyFs, some s.noProcess,
        some s.noThread, some s.noIpc, some s.noSysman⟩ := by
    simp only [RawSecurityPolicy.decode, Decoder.struct]
    rw [hprofile, flag (b := s.noNet) rfl, flag (b := s.noFs) rfl, flag (b := s.readOnlyFs) rfl,
      flag (b := s.noProcess) rfl, flag (b := s.noThread) rfl, flag (b := s.noIpc) rfl,
      flag (b := s.noSysman) rfl]
    rfl
  rw [SecurityPolicy.serialize, SecurityPolicy.deserialize, hraw]
  refine congrArg Except.ok ?_
  simp [SecurityPolicy.ofRaw, securityProfile_fromProfile, fromProfile_noFs]

theorem policy_shown_iff (s : SecurityPolicy) :
    SecurityPolicy.deserialize s.serialize = .ok s ↔ s.noFs = false := by
  rw [policy_decode, Except.ok.injEq]
  constructor
  · intro h
    rw [← h]
  · intro h
    rw [← h]

/-! ## What every configuration has -/

/-- The numbers are of the type `usize`, a profile that limits open files has a limit on
them, and the policy leaves the file system. -/
structure ProcessConfig.Displayable (config : ProcessConfig) : Prop where
  limits : config.resources.InUsize
  restart : ∀ n, config.restart = .capped n → n < 2 ^ 64
  fdLimit : config.resources.profile = .custom ∨ config.resources.fdLimit.isSome
  noFs : config.security.noFs = false

/-- The numbers among the arguments are of the type `usize`. -/
structure StartArgs.InUsize (args : StartArgs) : Prop where
  restart : ∀ n, args.restart = some (.capped n) → n < 2 ^ 64
  fdLimit : ∀ n, args.resources.fdLimit = some n → n < 2 ^ 64

/-- A configuration the daemon can get : from arguments, or from a document. -/
inductive ProcessConfig.Submitted : ProcessConfig → Prop
  | command {args : StartArgs} (h : args.InUsize) : Submitted (.ofStartArgs args)
  | document {doc : Value} {config : ProcessConfig}
      (h : ProcessConfig.deserialize doc = .ok config) : Submitted config

theorem fromProfile_fdLimit (p : ResourceProfile) :
    p = .custom ∨ (ResourceLimits.fromProfile p).fdLimit.isSome := by
  cases p <;> simp [ResourceLimits.fromProfile]

/-- Settings put over a preset stay displayable. -/
theorem overlay_displayable {p : ResourceProfile} {cpuPriority : CPUPriority}
    {memLimit : Option MemReqs} {fdLimit : Option ℕ}
    (hmem : ∀ n, memLimit = some (.specific n) → n < 2 ^ 64)
    (hfd : ∀ n, fdLimit = some n → n < 2 ^ 64) :
    let limits := ResourceLimits.fromProfile p
    let r : ResourceLimits :=
      { limits with
        cpuPriority, memLimit := memLimit.getD limits.memLimit
        fdLimit := fdLimit.or limits.fdLimit }
    r.InUsize ∧ (r.profile = .custom ∨ r.fdLimit.isSome) := by
  have hpreset := fromProfile_inUsize p
  refine ⟨⟨fun n hn => ?_, fun n hn => ?_⟩, ?_⟩
  · cases memLimit with
    | none => exact hpreset.memLimit n hn
    | some m => exact hmem n (congrArg some hn)
  · cases fdLimit with
    | none => exact hpreset.fdLimit n hn
    | some m => exact hfd n hn
  · refine (fromProfile_fdLimit p).imp (fun hp => ?_) fun hset => ?_
    · rw [← hp]
      exact Settings.fromProfile_profile p
    · cases fdLimit with
      | none => exact hset
      | some m => rfl

theorem readMemory_lt {s : String} {n : ℕ} (h : readMemory s = some (.specific n)) :
    n < 2 ^ 64 := by
  unfold readMemory at h
  split at h
  · cases h
  · obtain ⟨m, hm, hspecific⟩ := Option.map_eq_some_iff.mp h
    cases hspecific
    exact parseUsize_lt hm

theorem displayable_ofStartArgs {args : StartArgs} (h : args.InUsize) :
    (ProcessConfig.ofStartArgs args).Displayable := by
  have hmem : ∀ n, args.resources.memoryLimit.bind readMemory = some (.specific n) →
      n < 2 ^ 64 := by
    intro n hn
    obtain ⟨memStr, -, hread⟩ := Option.bind_eq_some_iff.mp hn
    exact readMemory_lt hread
  obtain ⟨hlimits, hfd⟩ := overlay_displayable hmem h.fdLimit
  rw [← Settings.ofArgs_eq] at hlimits hfd
  refine ⟨hlimits, fun n hn => ?_, hfd, ?_⟩
  · cases hr : args.restart with
    | none => simp [ProcessConfig.ofStartArgs, hr, RestartPolicy.default] at hn
    | some r => exact h.restart n (by simpa [ProcessConfig.ofStartArgs, hr] using hn)
  · simp [ProcessConfig.ofStartArgs, Settings.ofArgs_security, fromProfile_noFs]

theorem memReqs_decode_lt {v : Value} {n : ℕ} (h : MemReqs.decode v = .ok (.specific n)) :
    n < 2 ^ 64 :=
  newtype_usize_lt (fun _ _ => MemReqs.specific.inj) (by simp) h

theorem restartPolicy_decode_lt {v : Value} {n : ℕ}
    (h : RestartPolicy.decode v = .ok (.capped n)) : n < 2 ^ 64 :=
  newtype_usize_lt (fun _ _ => RestartPolicy.capped.inj) (by simp) h

/-- The numbers among the raw options are of the type `usize`. -/
theorem rawResources_lt {v : Value} {raw : RawResourceLimits}
    (h : RawResourceLimits.decode v = .ok raw) :
    (∀ n, raw.memLimit = some (.specific n) → n < 2 ^ 64) ∧
      ∀ n, raw.fdLimit = some n → n < 2 ^ 64 := by
  cases v with
  | table es =>
    simp only [RawResourceLimits.decode, Decoder.struct, bind_eq_ok] at h
    obtain ⟨profile, -, cpuPriority, -, memLimit, hmem, fdLimit, hfd, hraw⟩ := h
    cases hraw
    refine ⟨fun n hn => ?_, fun n hn => ?_⟩
    · obtain ⟨v, hv⟩ := fieldOpt_eq_some (hmem.trans (congrArg Except.ok hn))
      exact memReqs_decode_lt hv
    · obtain ⟨v, hv⟩ := fieldOpt_eq_some (hfd.trans (congrArg Except.ok hn))
      exact usize_lt hv
  | _ => cases h

theorem displayable_deserialize {doc : Value} {config : ProcessConfig}
    (h : ProcessConfig.deserialize doc = .ok config) : config.Displayable := by
  obtain ⟨es, -, hresources, hrestart, -⟩ := ProcessConfig.deserialize_eq_ok h
  have hlimits : config.resources.InUsize ∧
      (config.resources.profile = .custom ∨ config.resources.fdLimit.isSome) := by
    obtain hdefault | ⟨v, hv⟩ := fieldD_eq_ok hresources
    · rw [hdefault]
      exact ⟨fromProfile_inUsize .custom, .inl rfl⟩
    · obtain ⟨raw, hraw, hlimits⟩ := map_eq_ok.mp hv
      obtain ⟨hmem, hfd⟩ := rawResources_lt hraw
      rw [← hlimits, Settings.ofRaw_eq]
      exact overlay_displayable hmem hfd
  refine ⟨hlimits.1, fun n hn => ?_, hlimits.2, noFs_eq_false h⟩
  obtain hdefault | ⟨v, hv⟩ := fieldD_eq_ok hrestart
  · rw [hdefault] at hn
    cases hn
  · rw [hn] at hv
    exact restartPolicy_decode_lt hv

theorem ProcessConfig.Submitted.displayable {config : ProcessConfig} (h : config.Submitted) :
    config.Displayable := by
  cases h with
  | command hargs => exact displayable_ofStartArgs hargs
  | document hdoc => exact displayable_deserialize hdoc

/-- A decision on a restart keeps the limits and the policy, and adds nothing to the budget. -/
theorem displayable_respawn {t : LinuxCurrentTask} (h : t.config.Displayable) :
    t.respawn.2.config.Displayable := by
  unfold LinuxCurrentTask.respawn
  split
  · rename_i value hvalue
    split
    · exact h
    · refine ⟨h.limits, fun n hn => ?_, h.fdLimit, h.noFs⟩
      have hlt := h.restart value hvalue
      have heq : value - 1 = n := RestartPolicy.capped.inj hn
      omega
  · exact h
  · exact h

theorem displayable_respawned {t : LinuxCurrentTask} (h : t.config.Displayable) (n : ℕ) :
    (t.respawned n).config.Displayable := by
  induction n with
  | zero => exact h
  | succ n ih =>
    rw [LinuxCurrentTask.respawned, Function.iterate_succ_apply']
    exact displayable_respawn ih

/-! ## The round trip -/

/-- The details of a displayable process are decoded as they are. -/
theorem details_decode {t : LinuxCurrentTask} (h : t.config.Displayable) :
    ProcessDetails.deserialize t.details.serialize = .ok t.details := by
  have hrestart : field RestartPolicy.decode t.details.entries "restart" =
      .ok t.config.restart :=
    field_of_lookup rfl (RestartPolicy.decode_toml h.restart)
  have hresources : field ResourceLimits.deserialize t.details.entries "resources" =
      .ok t.config.resources :=
    field_of_lookup rfl ((limits_shown_iff h.limits).mpr h.fdLimit)
  have hsecurity : field SecurityPolicy.deserialize t.details.entries "security" =
      .ok t.config.security :=
    field_of_lookup rfl ((policy_shown_iff _).mpr h.noFs)
  simp only [ProcessDetails.deserialize, ProcessDetails.serialize, Decoder.struct, hrestart,
    hresources, hsecurity]
  rfl

/-- What the client decodes is what the daemon holds : for every configuration from a
command line or a document, after any number of decisions on a restart. -/
theorem details_round_trip {config : ProcessConfig} (h : config.Submitted) (pid : Pid) (n : ℕ) :
    let details := ((LinuxCurrentTask.mk config pid).respawned n).details
    ProcessDetails.deserialize details.serialize = .ok details :=
  details_decode (displayable_respawned h.displayable n)

/-- A service that may be restarted three times, after two restarts. -/
theorem details_round_trip_service :
    let args : StartArgs :=
      { name := "db", command := "/usr/bin/db", args := [], cwd := none, env := []
        logDir := none, restart := some (.capped 3)
        resources := ⟨some .service, some "low", none, none⟩
        security := ⟨some .sandboxed, false, false, false, false, false, true⟩ }
    let details : ProcessDetails :=
      { restart := .capped 1
        resources := ⟨.service, .low, .specific 1024, some 1024⟩
        security := ⟨.sandboxed, true, false, true, true, true, true, false⟩ }
    args.InUsize ∧
      ((LinuxCurrentTask.mk (.ofStartArgs args) 7).respawned 2).details = details ∧
      ProcessDetails.deserialize details.serialize = .ok details := by
  intro args details
  have hargs : args.InUsize := ⟨by simp [args], by simp [args]⟩
  have hdetails : ((LinuxCurrentTask.mk (.ofStartArgs args) 7).respawned 2).details = details :=
    rfl
  refine ⟨hargs, hdetails, ?_⟩
  have htrip := details_round_trip (.command hargs) 7 2
  rwa [hdetails] at htrip

end Yapm
