import Yapm.Config

/-!
# One set of settings, two forms

`Settings` is what both the command line and a TOML file can express. `Settings.startArgs`
holds exactly these settings as arguments, `Settings.toml` as a document, in which an
optional key is present when its setting is, and a `[resources]` or `[security]` table
when it has a key.

Decoding the document never fails (`deserialize_toml`). The two configurations agree in
everything but the resource limits, and there they differ in two places : without a
profile the command line starts from `Custom` and a `[resources]` table from `Worker`, and
the command line reads `lowest` as `Low`. `deserialize_toml_eq_iff` : the forms mean the
same exactly for settings that meet neither.
-/

open Serde

namespace Yapm

/-- The word the command line has for a priority. -/
def CPUPriority.spelling : CPUPriority → String
  | .max => "max"
  | .veryHigh => "very high"
  | .high => "high"
  | .normal => "normal"
  | .low => "low"
  | .veryLow => "very low"
  | .lowest => "lowest"

/-- The variant name a document has for a priority. -/
def CPUPriority.variantName : CPUPriority → String
  | .max => "Max"
  | .veryHigh => "VeryHigh"
  | .high => "High"
  | .normal => "Normal"
  | .low => "Low"
  | .veryLow => "VeryLow"
  | .lowest => "Lowest"

def ResourceProfile.variantName : ResourceProfile → String
  | .light => "Light"
  | .worker => "Worker"
  | .service => "Service"
  | .custom => "Custom"

def SecurityProfile.variantName : SecurityProfile → String
  | .default => "default"
  | .isolated => "isolated"
  | .readOnly => "readonly"
  | .sandboxed => "sandboxed"
  | .custom => "custom"

/-- A memory limit as the command line takes it. -/
def MemReqs.spelling : MemReqs → String
  | .unlimited => "unlimited"
  | .specific mibs => toString mibs

def MemReqs.toml : MemReqs → Value
  | .unlimited => .str "Unlimited"
  | .specific mibs => .table [("Specific", .int mibs)]

def RestartPolicy.toml : RestartPolicy → Value
  | .none => .str "None"
  | .capped value => .table [("Capped", .int value)]
  | .infinite => .str "Infinite"

/-- Settings both forms can express. A TOML integer is below `2 ^ 63`. `sysman` is the
choice about system manipulation : none made, disallowed, or allowed. -/
structure Settings where
  name : String
  command : String
  args : List String
  cwd : Option String
  logDir : Option String
  env : List (String × String)
  env_nodup : (env.map Prod.fst).Nodup
  restart : Option RestartPolicy
  restart_lt : ∀ n, restart = some (.capped n) → n < 2 ^ 63
  resourceProfile : Option ResourceProfile
  cpuPriority : Option CPUPriority
  memLimit : Option MemReqs
  memLimit_lt : ∀ n, memLimit = some (.specific n) → n < 2 ^ 63
  fdLimit : Option ℕ
  fdLimit_lt : ∀ n, fdLimit = some n → n < 2 ^ 63
  securityProfile : Option SecurityProfile
  noNet : Bool
  readOnlyFs : Bool
  noProcess : Bool
  noThread : Bool
  noIpc : Bool
  /-- `some true` disallows system manipulation, `some false` allows it. -/
  noSysman : Option Bool

namespace Settings

variable (s : Settings)

/-! ## The command line -/

def startArgs : StartArgs where
  name := s.name
  command := s.command
  args := s.args
  cwd := s.cwd
  env := s.env
  logDir := s.logDir
  restart := s.restart
  resources :=
    { resourceProfile := s.resourceProfile
      cpuPriority := s.cpuPriority.map (·.spelling)
      memoryLimit := s.memLimit.map (·.spelling)
      fdLimit := s.fdLimit }
  security :=
    { securityProfile := s.securityProfile
      noNet := s.noNet
      readonlyFs := s.readOnlyFs
      noProcess := s.noProcess
      noThread := s.noThread
      noIpc := s.noIpc
      allowSysman := s.noSysman = some false }

/-! ## The document -/

/-- A restriction that is switched on is set to `true`, any other is not set. -/
def switchedOn (on : Bool) : Option Bool :=
  if on then some true else none

def resourceEntries : List (String × Option Value) :=
  [("profile", s.resourceProfile.map fun p => .str p.variantName),
   ("cpu_priority", s.cpuPriority.map fun p => .str p.variantName),
   ("mem_limit", s.memLimit.map (·.toml)),
   ("fd_limit", s.fdLimit.map fun n : ℕ => .int n)]

def securityEntries : List (String × Option Value) :=
  [("profile", s.securityProfile.map fun p => .str p.variantName),
   ("no_net", (switchedOn s.noNet).map .bool),
   ("no_fs", none),
   ("read_only_fs", (switchedOn s.readOnlyFs).map .bool),
   ("no_process", (switchedOn s.noProcess).map .bool),
   ("no_thread", (switchedOn s.noThread).map .bool),
   ("no_ipc", (switchedOn s.noIpc).map .bool),
   ("no_sysman", s.noSysman.map .bool)]

/-- The entries as a table, if they hold a key. -/
def presentTable (es : List (String × Option Value)) : Option (List (String × Value)) :=
  if optTable es = [] then none else some (optTable es)

def entries : List (String × Option Value) :=
  [("name", some (.str s.name)),
   ("command", some (.str s.command)),
   ("args", some (.seq (s.args.map .str))),
   ("cwd", s.cwd.map .str),
   ("log_dir", s.logDir.map .str),
   ("env", some (.table (s.env.map fun kv => (kv.1, .str kv.2)))),
   ("restart", s.restart.map (·.toml)),
   ("resources", (presentTable s.resourceEntries).map .table),
   ("security", (presentTable s.securityEntries).map .table)]

def toml : Value :=
  .table (optTable s.entries)

end Settings

/-! ## Reading a spelling back -/

@[simp] theorem CPUPriority.fromStr_spelling (p : CPUPriority) :
    CPUPriority.fromStr p.spelling = .ok (if p = .lowest then .low else p) := by
  cases p <;> rfl

@[simp] theorem CPUPriority.decode_variantName (p : CPUPriority) :
    CPUPriority.decode (.str p.variantName) = .ok p := by
  cases p <;> rfl

@[simp] theorem ResourceProfile.decode_variantName (p : ResourceProfile) :
    ResourceProfile.decode (.str p.variantName) = .ok p := by
  cases p <;> rfl

@[simp] theorem SecurityProfile.decode_variantName (p : SecurityProfile) :
    SecurityProfile.decode (.str p.variantName) = .ok p := by
  cases p <;> rfl

theorem MemReqs.decode_toml {m : MemReqs} (h : ∀ n, m = .specific n → n < 2 ^ 64) :
    MemReqs.decode m.toml = .ok m := by
  cases m with
  | unlimited => rfl
  | specific n =>
    have hd := decode_usize (h n rfl)
    simp [MemReqs.decode, MemReqs.toml, Decoder.variants, hd]

theorem RestartPolicy.decode_toml {r : RestartPolicy} (h : ∀ n, r = .capped n → n < 2 ^ 64) :
    RestartPolicy.decode r.toml = .ok r := by
  cases r with
  | none => rfl
  | infinite => rfl
  | capped n =>
    have hd := decode_usize (h n rfl)
    simp [RestartPolicy.decode, RestartPolicy.toml, Decoder.variants, hd]

theorem MemReqs.toml_ne_null (m : MemReqs) : m.toml ≠ .null := by
  cases m <;> simp [MemReqs.toml]

theorem toLower_of_isDigit {c : Char} (h : c.isDigit) : c.toLower = c := by
  rw [Char.isDigit_iff_toNat] at h
  unfold Char.toLower
  split
  · rename_i hupper
    have := UInt32.le_iff_toNat_le.mp hupper.1
    simp at h this
    omega
  · rfl

/-- No numeral is the word `unlimited`. -/
theorem toLowercase_ne_of_digits {s : String} (h : (stripPlus s.toList).all Char.isDigit) :
    toLowercase s ≠ "unlimited" := by
  intro heq
  have hlist : s.toList.map Char.toLower = 'u' :: "nlimited".toList := by
    have hlower := congrArg String.toList heq
    rwa [toLowercase, String.toList_ofList] at hlower
  obtain ⟨c, cs, hs, hc, -⟩ := List.map_eq_cons_iff.mp hlist
  rw [hs] at h
  by_cases hplus : c = '+'
  · rw [hplus] at hc
    exact absurd hc (by decide)
  · have hstrip : stripPlus (c :: cs) = c :: cs := by
      unfold stripPlus
      split
      · exact absurd (List.cons.inj ‹_›).1 hplus
      · rfl
    rw [hstrip, List.all_cons, Bool.and_eq_true] at h
    rw [toLower_of_isDigit h.1] at hc
    exact absurd (hc ▸ h.1) (by decide)

theorem toLowercase_toString_ne (n : ℕ) : toLowercase (toString n) ≠ "unlimited" := by
  refine toLowercase_ne_of_digits ?_
  rw [toString_toList, stripPlus_toDigits]
  exact List.all_eq_true.mpr fun _ => isDigit_of_mem_toDigits

/-- The memory limit the command line understands, if it does. -/
def readMemory (s : String) : Option MemReqs :=
  if toLowercase s = "unlimited" then some .unlimited else (parseUsize s).map .specific

theorem readMemory_spelling {m : MemReqs} (h : ∀ n, m = .specific n → n < 2 ^ 63) :
    readMemory m.spelling = some m := by
  cases m with
  | unlimited => rfl
  | specific n =>
    have hn := h n rfl
    rw [MemReqs.spelling, readMemory, if_neg (toLowercase_toString_ne n),
      parseUsize_toString (by omega)]
    rfl

/-- The priority the command line understands, if it does. -/
def readPriority (s : String) : Option CPUPriority :=
  (CPUPriority.fromStr s).toOption

namespace Settings

variable (s : Settings)

/-! ## Both configurations, field by field -/

/-- The options of a `[resources]` table. -/
def rawResources : RawResourceLimits :=
  ⟨s.resourceProfile, s.cpuPriority, s.memLimit, s.fdLimit⟩

/-- The options of a `[security]` table. -/
def rawSecurity : RawSecurityPolicy :=
  ⟨s.securityProfile, switchedOn s.noNet, none, switchedOn s.readOnlyFs,
    switchedOn s.noProcess, switchedOn s.noThread, switchedOn s.noIpc, s.noSysman⟩

theorem deserialize_resources :
    ResourceLimits.deserialize (.table (optTable s.resourceEntries)) =
      .ok (.ofRaw s.rawResources) := by
  have hmem : ∀ m ∈ s.memLimit, MemReqs.decode m.toml = .ok m := fun m hm =>
    MemReqs.decode_toml fun n hn => by have := s.memLimit_lt n (hn ▸ hm); omega
  have hfd : ∀ n ∈ s.fdLimit, Decoder.usize (.int n) = .ok n := fun n hn =>
    decode_usize (by have := s.fdLimit_lt n hn; omega)
  have hn : (s.resourceEntries.map Prod.fst).Nodup := by simp [resourceEntries]
  unfold ResourceLimits.deserialize RawResourceLimits.decode Decoder.struct
  simp only
  rw [fieldOpt_optTable hn rfl (fun p _ => p.decode_variantName) (by simp),
    fieldOpt_optTable hn rfl (fun p _ => p.decode_variantName) (by simp),
    fieldOpt_optTable hn rfl hmem MemReqs.toml_ne_null,
    fieldOpt_optTable hn rfl hfd (by simp)]
  rfl

theorem deserialize_security :
    SecurityPolicy.deserialize (.table (optTable s.securityEntries)) =
      .ok (.ofRaw s.rawSecurity) := by
  have hn : (s.securityEntries.map Prod.fst).Nodup := by simp [securityEntries]
  have flag {key : String} {o : Option Bool}
      (hl : s.securityEntries.lookup key = some (o.map .bool)) :
      fieldOpt Decoder.bool (optTable s.securityEntries) key = .ok o :=
    fieldOpt_optTable hn hl (fun _ _ => rfl) (by simp)
  unfold SecurityPolicy.deserialize RawSecurityPolicy.decode Decoder.struct
  simp only
  rw [fieldOpt_optTable hn rfl (fun p _ => p.decode_variantName) (by simp),
    flag (o := switchedOn s.noNet) rfl, flag (o := none) rfl,
    flag (o := switchedOn s.readOnlyFs) rfl, flag (o := switchedOn s.noProcess) rfl,
    flag (o := switchedOn s.noThread) rfl, flag (o := switchedOn s.noIpc) rfl,
    flag (o := s.noSysman) rfl]
  rfl

theorem presentTable_eq_none {es : List (String × Option Value)} :
    presentTable es = none ↔ ∀ e ∈ es, e.2 = none := by
  rw [presentTable, ite_eq_left_iff]
  simp [optTable, List.filterMap_eq_nil_iff]

theorem eq_optTable_of_mem {es : List (String × Option Value)} {t : List (String × Value)}
    (h : t ∈ presentTable es) : t = optTable es := by
  unfold presentTable at h
  split at h
  · cases h
  · exact (Option.some_inj.mp h).symm

/-- The configuration the document decodes to. -/
def decoded : ProcessConfig where
  name := s.name
  command := s.command
  args := s.args
  cwd := s.cwd
  env := .collect s.env
  resources :=
    ((presentTable s.resourceEntries).map fun _ => .ofRaw s.rawResources).getD .default
  restart := s.restart.getD .default
  security :=
    ((presentTable s.securityEntries).map fun _ => .ofRaw s.rawSecurity).getD .default
  logDir := s.logDir

/-- The document always decodes. -/
theorem deserialize_toml : ProcessConfig.deserialize s.toml = .ok s.decoded := by
  have hn : (s.entries.map Prod.fst).Nodup := by simp [entries]
  have hargs : ∀ xs ∈ some s.args, Decoder.list Decoder.str (.seq (xs.map .str)) = .ok (id xs) :=
    fun xs _ => decode_elements_str xs
  have henv : ∀ kvs ∈ some s.env, (fun v => Env.collect <$> Decoder.map Decoder.str v)
      (.table (kvs.map fun kv => (kv.1, .str kv.2))) = .ok (Env.collect kvs) := by
    intro kvs _
    simp only [Decoder.map, decode_values_str]
    rfl
  have hrestart : ∀ r ∈ s.restart, RestartPolicy.decode r.toml = .ok (id r) := fun r hr =>
    RestartPolicy.decode_toml fun n hn => by have := s.restart_lt n (hn ▸ hr); omega
  have hresources : ∀ es ∈ presentTable s.resourceEntries,
      ResourceLimits.deserialize (.table es) = .ok (.ofRaw s.rawResources) := fun es hes => by
    rw [eq_optTable_of_mem hes, s.deserialize_resources]
  have hsecurity : ∀ es ∈ presentTable s.securityEntries,
      SecurityPolicy.deserialize (.table es) = .ok (.ofRaw s.rawSecurity) := fun es hes => by
    rw [eq_optTable_of_mem hes, s.deserialize_security]
  unfold ProcessConfig.deserialize toml Decoder.struct
  simp only
  rw [field_optTable (d := Decoder.str) (a := s.name) hn rfl rfl,
    field_optTable (d := Decoder.str) (a := s.command) hn rfl rfl,
    fieldD_optTable hn rfl hargs,
    fieldOpt_optTable (d := Decoder.str) (o := s.cwd) hn rfl (fun _ _ => rfl) (by simp),
    fieldD_optTable hn rfl henv,
    fieldD_optTable hn rfl hresources,
    fieldD_optTable hn rfl hrestart,
    fieldD_optTable hn rfl hsecurity,
    fieldOpt_optTable (d := Decoder.str) (o := s.logDir) hn rfl (fun _ _ => rfl) (by simp)]
  simp only [decoded, Option.map_id_fun, id_eq]
  rfl

/-- A flag of the command line can only add a restriction, or take `noSysman` away. -/
theorem ofArgs_security (a : SecurityArgs) :
    SecurityPolicy.ofArgs a =
      let policy := SecurityPolicy.fromProfile (a.securityProfile.getD .default)
      { policy with
        noNet := a.noNet || policy.noNet
        readOnlyFs := a.readonlyFs || policy.readOnlyFs
        noProcess := a.noProcess || policy.noProcess
        noThread := a.noThread || policy.noThread
        noIpc := a.noIpc || policy.noIpc
        noSysman := !a.allowSysman && policy.noSysman } := by
  obtain ⟨profile, noNet, readonlyFs, noProcess, noThread, noIpc, allowSysman⟩ := a
  cases profile <;> cases noNet <;> cases readonlyFs <;> cases noProcess <;> cases noThread <;>
    cases noIpc <;> cases allowSysman <;> rfl

theorem switchedOn_getD (on b : Bool) : (switchedOn on).getD b = (on || b) := by
  cases on <;> rfl

/-- Every profile leaves `noSysman` set, which the command line can only clear. -/
theorem fromProfile_noSysman (p : SecurityProfile) :
    (SecurityPolicy.fromProfile p).noSysman = true := by
  cases p <;> rfl

theorem decoded_security_eq : s.decoded.security = .ofRaw s.rawSecurity := by
  cases h : presentTable s.securityEntries with
  | some es => simp [decoded, h]
  | none =>
    have hall := presentTable_eq_none.mp h
    simp [securityEntries] at hall
    simp [decoded, h, rawSecurity, hall]
    rfl

/-- Both forms agree on the security policy. -/
theorem decoded_security : s.decoded.security = .ofArgs s.startArgs.security := by
  rw [decoded_security_eq, ofArgs_security]
  simp only [SecurityPolicy.ofRaw, rawSecurity, startArgs, switchedOn_getD, fromProfile_noSysman]
  rcases s.noSysman with _ | _ | _ <;> rfl

theorem ofRaw_eq (raw : RawResourceLimits) :
    ResourceLimits.ofRaw raw =
      let limits := ResourceLimits.fromProfile (raw.profile.getD .default)
      { limits with
        cpuPriority := raw.cpuPriority.getD limits.cpuPriority
        memLimit := raw.memLimit.getD limits.memLimit
        fdLimit := raw.fdLimit.or limits.fdLimit } := by
  obtain ⟨profile, cpuPriority, memLimit, fdLimit⟩ := raw
  cases cpuPriority <;> cases memLimit <;> cases fdLimit <;> rfl

theorem fromProfile_profile (p : ResourceProfile) :
    (ResourceLimits.fromProfile p).profile = p := by
  cases p <;> rfl

/-! Each option is put over what the options before it left. -/

theorem profile_overlay (o : Option ResourceProfile) :
    (match o with
      | some profile => ResourceLimits.fromProfile profile
      | none => .default) = .fromProfile (o.getD .custom) := by
  cases o <;> rfl

theorem priority_overlay (limits : ResourceLimits) (o : Option String) :
    (match o with
      | some priorityStr =>
        match CPUPriority.fromStr priorityStr with
        | .ok priority => { limits with cpuPriority := priority }
        | .error _ => limits
      | none => limits) =
      { limits with cpuPriority := (o.bind readPriority).getD limits.cpuPriority } := by
  cases o with
  | none => rfl
  | some priorityStr =>
    dsimp only [Option.bind_some, readPriority]
    cases CPUPriority.fromStr priorityStr <;> rfl

theorem memory_overlay (limits : ResourceLimits) (o : Option String) :
    (match o with
      | some memStr =>
        if toLowercase memStr = "unlimited" then { limits with memLimit := .unlimited }
        else match parseUsize memStr with
          | some mem => { limits with memLimit := .specific mem }
          | none => limits
      | none => limits) =
      { limits with memLimit := (o.bind readMemory).getD limits.memLimit } := by
  cases o with
  | none => rfl
  | some memStr =>
    dsimp only [Option.bind_some, readMemory]
    by_cases hword : toLowercase memStr = "unlimited"
    · rw [if_pos hword, if_pos hword]
      rfl
    · rw [if_neg hword, if_neg hword]
      cases parseUsize memStr <;> rfl

theorem fdLimit_overlay (limits : ResourceLimits) (o : Option ℕ) :
    (match o with
      | some fd => { limits with fdLimit := some fd }
      | none => limits) = { limits with fdLimit := o.or limits.fdLimit } := by
  cases o <;> rfl

theorem ofArgs_eq (args : ResourceArgs) :
    ResourceLimits.ofArgs args =
      let limits := ResourceLimits.fromProfile (args.resourceProfile.getD .custom)
      { limits with
        cpuPriority := (args.cpuPriority.bind readPriority).getD limits.cpuPriority
        memLimit := (args.memoryLimit.bind readMemory).getD limits.memLimit
        fdLimit := args.fdLimit.or limits.fdLimit } := by
  have hprofile := profile_overlay args.resourceProfile
  have hpriority := (priority_overlay _ args.cpuPriority).trans
    (congrArg (fun limits => { limits with
      cpuPriority := (args.cpuPriority.bind readPriority).getD limits.cpuPriority }) hprofile)
  have hmemory := (memory_overlay _ args.memoryLimit).trans
    (congrArg (fun limits => { limits with
      memLimit := (args.memoryLimit.bind readMemory).getD limits.memLimit }) hpriority)
  exact (fdLimit_overlay _ args.fdLimit).trans
    (congrArg (fun limits => { limits with fdLimit := args.fdLimit.or limits.fdLimit }) hmemory)

/-- The command line means the limits of a `[resources]` table with a profile, `Custom`
unless another is set, but has `Low` for the lowest priority. -/
theorem ofArgs_resources :
    ResourceLimits.ofArgs s.startArgs.resources =
      .ofRaw ⟨some (s.resourceProfile.getD .custom),
        s.cpuPriority.map fun p => if p = .lowest then .low else p, s.memLimit, s.fdLimit⟩ := by
  have hmem : (s.memLimit.map (·.spelling)).bind readMemory = s.memLimit := by
    have hlt := s.memLimit_lt
    cases hm : s.memLimit with
    | none => rfl
    | some m => exact readMemory_spelling fun n hn => hlt n (by rw [hm, hn])
  have hcpu : (s.cpuPriority.map (·.spelling)).bind readPriority =
      s.cpuPriority.map fun p => if p = .lowest then .low else p := by
    cases s.cpuPriority with
    | none => rfl
    | some p => simp [readPriority, Except.toOption]
  rw [ofArgs_eq, ofRaw_eq]
  simp only [startArgs, hmem, hcpu]
  rfl

/-- The limits agree exactly when there is a profile, or no `[resources]` table at all, and
the priority is not the lowest. -/
theorem decoded_resources_eq_iff :
    s.decoded.resources = .ofArgs s.startArgs.resources ↔
      (s.resourceProfile ≠ none ∨ s.cpuPriority = none ∧ s.memLimit = none ∧ s.fdLimit = none) ∧
      s.cpuPriority ≠ some .lowest := by
  rw [ofArgs_resources]
  cases h : presentTable s.resourceEntries with
  | none =>
    have hall := presentTable_eq_none.mp h
    simp [resourceEntries] at hall
    simp [decoded, h, hall]
    rfl
  | some es =>
    have hsome : ¬(s.resourceProfile = none ∧ s.cpuPriority = none ∧ s.memLimit = none ∧
        s.fdLimit = none) := by
      intro hnone
      have hall : presentTable s.resourceEntries = none :=
        presentTable_eq_none.mpr (by simp [resourceEntries, hnone])
      rw [hall] at h
      cases h
    have hdec : s.decoded.resources = .ofRaw s.rawResources := by simp [decoded, h]
    rw [hdec]
    constructor
    · intro heq
      have hprofile := congrArg ResourceLimits.profile heq
      have hcpu := congrArg ResourceLimits.cpuPriority heq
      simp only [ofRaw_eq, fromProfile_profile, rawResources] at hprofile hcpu
      refine ⟨.inl fun hp => ?_, fun hlow => ?_⟩
      · rw [hp] at hprofile
        cases hprofile
      · rw [hlow] at hcpu
        cases hcpu
    · rintro ⟨hp, hlow⟩
      have hp : s.resourceProfile ≠ none := hp.elim id fun hrest hnone => hsome ⟨hnone, hrest⟩
      obtain ⟨profile, hprofile⟩ := Option.ne_none_iff_exists'.mp hp
      have hcpu : (s.cpuPriority.map fun p => if p = .lowest then .low else p) =
          s.cpuPriority := by
        cases hc : s.cpuPriority with
        | none => rfl
        | some p => exact congrArg some (if_neg fun hp => hlow (by rw [hc, hp]))
      rw [rawResources, hprofile, hcpu]
      rfl

/-- The two forms mean the same exactly when a profile comes with the other resource
settings, if there are any, and the priority is not the lowest. -/
theorem deserialize_toml_eq_iff :
    ProcessConfig.deserialize s.toml = .ok (.ofStartArgs s.startArgs) ↔
      (s.resourceProfile ≠ none ∨ s.cpuPriority = none ∧ s.memLimit = none ∧ s.fdLimit = none) ∧
      s.cpuPriority ≠ some .lowest := by
  rw [deserialize_toml, ← decoded_resources_eq_iff, Except.ok.injEq]
  constructor
  · exact congrArg ProcessConfig.resources
  · intro hresources
    rw [ProcessConfig.ofStartArgs, ← hresources, ← decoded_security]
    rfl

end Settings

/-- A high priority, and nothing else. -/
def highPriority : Settings where
  name := "db"
  command := "db"
  args := []
  cwd := none
  logDir := none
  env := []
  env_nodup := .nil
  restart := none
  restart_lt := by simp
  resourceProfile := none
  cpuPriority := some .high
  memLimit := none
  memLimit_lt := by simp
  fdLimit := none
  fdLimit_lt := by simp
  securityProfile := none
  noNet := false
  readOnlyFs := false
  noProcess := false
  noThread := false
  noIpc := false
  noSysman := none

/-- With a priority alone, the document gets the memory and file limits of a worker, the
command line none. -/
theorem highPriority_limits_differ :
    (∃ cfg, ProcessConfig.deserialize highPriority.toml = .ok cfg ∧
      cfg.resources = ⟨.worker, .high, .specific 500, some 128⟩) ∧
    (ProcessConfig.ofStartArgs highPriority.startArgs).resources =
      ⟨.custom, .high, .unlimited, none⟩ ∧
    ProcessConfig.deserialize highPriority.toml ≠ .ok (.ofStartArgs highPriority.startArgs) := by
  rw [highPriority.deserialize_toml]
  refine ⟨⟨_, rfl, rfl⟩, rfl, fun h => ?_⟩
  have hresources := congrArg ProcessConfig.resources (Except.ok.inj h)
  have hprofile := congrArg ResourceLimits.profile hresources
  cases hprofile

end Yapm
