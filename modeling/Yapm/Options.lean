import Yapm.Commands
import Yapm.Environment
import Yapm.ResourceOptions

/-!
# Words of the command line

The client's parser hands the word of an option to the parser of its type. Those of profiles
and of the restart policy look it up after lower-casing (`parseWord`), and the restart policy is a
number otherwise; that of a variable cuts it at its first `=`; a path is refused only when it is
empty; limits on memory and priority stay words until the daemon converts them.

`StartWords.parse` takes all the words of a start. It takes them exactly when each is one that is
documented, or one of its type, and what it makes of them is what the daemon reads
(`start_of_words`). The log directory can be given before the subcommands too, as it is an option
of the client under the same name : the innermost one counts, for the client and the start alike.
-/

namespace Yapm

/-! ## Words -/

inductive ConfigError
  | parsingError (msg : String)
  | validationError (msg : String)

def ConfigError.display : ConfigError → String
  | .parsingError msg => "An error occured when parsing this object: " ++ msg
  | .validationError msg =>
    "An error occured when validating the passed configuration: " ++ msg

/-- `to_lowercase`, on the characters that become ASCII letters : the ASCII letters and the Kelvin
sign. -/
def lowercase (s : String) : String :=
  .ofList (s.toList.map fun c => if c = Char.ofNat 0x212A then 'k' else c.toLower)

variable {α ε : Type}

/-- The value of a word in any case. -/
def parseWord (words : List (String × α)) (failure : String → ε) (s : String) : Except ε α :=
  match words.lookup (lowercase s) with
  | some x => .ok x
  | none => .error (failure s)

theorem parseWord_eq_ok_iff {words : List (String × α)} {failure : String → ε} {s : String}
    {x : α} : parseWord words failure s = .ok x ↔ words.lookup (lowercase s) = some x := by
  unfold parseWord
  cases words.lookup (lowercase s) <;> simp

/-- When the words are the names of the values, a word is taken for the value it names. -/
theorem parseWord_eq_ok_iff_name {words : List (String × α)} {failure : String → ε} {s : String}
    {x : α} (name : α → String) (hname : ∀ x, words.lookup (name x) = some x)
    (hwords : ∀ w ∈ words, w.1 = name w.2) :
    parseWord words failure s = .ok x ↔ lowercase s = name x := by
  rw [parseWord_eq_ok_iff]
  constructor
  · intro h
    obtain ⟨before, after, rfl, -⟩ := List.lookup_eq_some_iff.mp h
    exact hwords (lowercase s, x) (by simp)
  · intro h
    rw [h, hname]

/-! ## Profiles -/

def ResourceProfile.display : ResourceProfile → String
  | .light => "light"
  | .worker => "worker"
  | .service => "service"
  | .custom => "custom"

/-- `ResourceProfile::from_str`. -/
def ResourceProfile.fromStr : String → Except ConfigError ResourceProfile :=
  parseWord [("light", .light), ("worker", .worker), ("service", .service), ("custom", .custom)]
    fun s => .parsingError ("Unknown resource profile: " ++ s ++
      ", Valid options are: light, worker, service, custom")

def SecurityProfile.display : SecurityProfile → String
  | .default => "default"
  | .isolated => "isolated"
  | .readOnly => "readonly"
  | .sandboxed => "sandboxed"
  | .custom => "custom"

/-- `SecurityProfile::from_str`. -/
def SecurityProfile.fromStr : String → Except ConfigError SecurityProfile :=
  parseWord [("default", .default), ("isolated", .isolated), ("readonly", .readOnly),
      ("sandboxed", .sandboxed), ("custom", .custom)]
    fun s => .parsingError ("Unknown security profile: " ++ s ++
      ". Valid options are: default, isolated, readonly, sandboxed, custom")

theorem ResourceProfile.fromStr_eq_ok_iff {s : String} {p : ResourceProfile} :
    fromStr s = .ok p ↔ lowercase s = p.display :=
  parseWord_eq_ok_iff_name display (fun p => by cases p <;> rfl) (by simp [display])

theorem SecurityProfile.fromStr_eq_ok_iff {s : String} {p : SecurityProfile} :
    fromStr s = .ok p ↔ lowercase s = p.display :=
  parseWord_eq_ok_iff_name display (fun p => by cases p <;> rfl) (by simp [display])

/-- A profile is read from what is displayed of it. -/
example (p : SecurityProfile) : SecurityProfile.fromStr p.display = .ok p :=
  SecurityProfile.fromStr_eq_ok_iff.mpr (by cases p <;> decide +kernel)

/-! ## The restart policy -/

namespace RestartPolicy

/-- `RestartPolicy::parse`. -/
def parse (value : String) : Except String RestartPolicy :=
  match parseUsize value with
  | .some n => .ok (.capped n)
  | .none => parseWord [("none", .none), ("infinite", .infinite)] (fun _ =>
      "Could not parse the provided input: Options are: a non-negative number, or 'none' or " ++
        "'infinite'") value

def SpelledBy : RestartPolicy → String → Prop
  | .none, s => lowercase s = "none"
  | .capped n, s => decimal s = some n ∧ n < 2 ^ 64
  | .infinite, s => lowercase s = "infinite"

end RestartPolicy

theorem parseUsize_eq_some_iff {s : String} {n : ℕ} :
    parseUsize s = some n ↔ decimal s = some n ∧ n < 2 ^ 64 := by
  rw [parseUsize_eq, Option.filter_eq_some_iff, decide_eq_true_eq]

theorem mem_of_mem_stripPlus {cs : List Char} {c : Char} (hc : c ∈ cs) :
    c = '+' ∨ c ∈ stripPlus cs := by
  unfold stripPlus
  split
  · exact List.mem_cons.mp hc
  · exact .inr hc

/-- Lower-casing leaves numerals as they are. -/
theorem lowercase_of_parseUsize {s : String} {n : ℕ} (h : parseUsize s = some n) :
    lowercase s = s := by
  have hdigits : (stripPlus s.toList).all Char.isDigit := by
    unfold parseUsize at h
    simp only at h
    split at h
    · rename_i hnumber
      exact hnumber.2.1
    · cases h
  have hsame : s.toList.map (fun c => if c = Char.ofNat 0x212A then 'k' else c.toLower) =
      s.toList := by
    refine (List.map_congr_left fun c hc => ?_).trans (List.map_id _)
    obtain rfl | hmem := mem_of_mem_stripPlus hc
    · decide
    · have hdigit := List.all_eq_true.mp hdigits c hmem
      rw [if_neg (by rintro rfl; exact absurd hdigit (by decide)), toLower_of_isDigit hdigit]
      rfl
  rw [lowercase, hsame, String.ofList_toList]

/-- No word is a number. -/
theorem lowercase_ne_of_parseUsize {s w : String} {n : ℕ} (h : parseUsize s = some n)
    (hw : parseUsize w = none) : lowercase s ≠ w := by
  rintro rfl
  rw [lowercase_of_parseUsize h, h] at hw
  cases hw

theorem RestartPolicy.parse_eq_ok_iff {s : String} {r : RestartPolicy} :
    parse s = .ok r ↔ r.SpelledBy s := by
  unfold parse
  cases hnumber : parseUsize s with
  | some n =>
    cases r with
    | none => simpa [SpelledBy] using lowercase_ne_of_parseUsize hnumber (by decide +kernel)
    | infinite => simpa [SpelledBy] using lowercase_ne_of_parseUsize hnumber (by decide +kernel)
    | capped m =>
      rw [SpelledBy, ← parseUsize_eq_some_iff, hnumber]
      simp
  | none =>
    simp only [parseWord_eq_ok_iff]
    generalize hk : lowercase s = k
    cases r with
    | none =>
      simp only [SpelledBy, hk, List.lookup_cons]
      grind
    | infinite =>
      simp only [SpelledBy, hk, List.lookup_cons]
      grind
    | capped m =>
      rw [SpelledBy, ← parseUsize_eq_some_iff, hnumber]
      simp only [List.lookup_cons]
      grind

/-! ## Paths -/

/-- The parser of a path. -/
def parsePath (s : String) : Option String :=
  if s = "" then none else some s

theorem parsePath_eq_some_iff {s p : String} : parsePath s = some p ↔ p = s ∧ s ≠ "" := by
  unfold parsePath
  split <;> simp_all [eq_comm]

/-! ## The words of a start -/

/-- What a command line has for a start, in words. -/
structure StartWords where
  name : String
  command : String
  args : List String
  cwd : Option String
  env : List String
  logDir : Option String
  restart : Option String
  resourceProfile : Option String
  cpuPriority : Option String
  memoryLimit : Option String
  fdLimit : Option String
  securityProfile : Option String
  noNet : Bool
  readonlyFs : Bool
  noProcess : Bool
  noThread : Bool
  noIpc : Bool
  allowSysman : Bool

/-- An option is parsed if it is there. -/
def parseOption (parse : String → Option α) : Option String → Option (Option α)
  | none => some none
  | some s => (parse s).map some

/-- The arguments, unless the parser of a type refuses a word. -/
def StartWords.parse (w : StartWords) : Option StartArgs := do
  let cwd ← parseOption parsePath w.cwd
  let env ← (parseEnvArgs w.env).toOption
  let logDir ← parseOption parsePath w.logDir
  let restart ← parseOption (fun s => (RestartPolicy.parse s).toOption) w.restart
  let resourceProfile ←
    parseOption (fun s => (ResourceProfile.fromStr s).toOption) w.resourceProfile
  let fdLimit ← parseOption parseUsize w.fdLimit
  let securityProfile ←
    parseOption (fun s => (SecurityProfile.fromStr s).toOption) w.securityProfile
  return {
    name := w.name, command := w.command, args := w.args, cwd, env, logDir, restart
    resources := ⟨resourceProfile, w.cpuPriority, w.memoryLimit, fdLimit⟩
    security := ⟨securityProfile, w.noNet, w.readonlyFs, w.noProcess, w.noThread, w.noIpc,
      w.allowSysman⟩ }

/-- The log directory of the client and of the start, which the parser fills in alike, from the
innermost option there is. -/
def globalLogDir (client process start : Option String) : Option String :=
  start <|> process <|> client

/-- The command line with the words of a start, after a log directory for the client and one for
its first subcommand. -/
def StartWords.toCli (w : StartWords) (client process : Option String) : Option CLI := do
  let client ← parseOption parsePath client
  let process ← parseOption parsePath process
  let args ← w.parse
  let logDir := globalLogDir client process args.logDir
  return ⟨logDir, .process (.start { args with logDir })⟩

/-- What the daemon reads when the words of a start are given to the client. -/
def StartWords.received (w : StartWords) (client process : Option String) : Option CLI :=
  (w.toCli client process).bind fun cli =>
    (CLI.codec.decode (CLI.codec.encode cli)).toOption

/-- The words are those of the arguments. -/
structure StartWords.Spells (w : StartWords) (a : StartArgs) : Prop where
  name : a.name = w.name
  command : a.command = w.command
  args : a.args = w.args
  cwd : Option.Rel (fun s p => p = s ∧ s ≠ "") w.cwd a.cwd
  env : w.env = a.env.map render ∧ ∀ kv ∈ a.env, '=' ∉ kv.1.toList
  logDir : Option.Rel (fun s p => p = s ∧ s ≠ "") w.logDir a.logDir
  restart : Option.Rel (fun s r => r.SpelledBy s) w.restart a.restart
  resourceProfile : Option.Rel (fun s p => lowercase s = p.display) w.resourceProfile
    a.resources.resourceProfile
  cpuPriority : a.resources.cpuPriority = w.cpuPriority
  memoryLimit : a.resources.memoryLimit = w.memoryLimit
  fdLimit : Option.Rel (fun s n => decimal s = some n ∧ n < 2 ^ 64) w.fdLimit
    a.resources.fdLimit
  securityProfile : Option.Rel (fun s p => lowercase s = p.display) w.securityProfile
    a.security.securityProfile
  switches : a.security = ⟨a.security.securityProfile, w.noNet, w.readonlyFs, w.noProcess,
    w.noThread, w.noIpc, w.allowSysman⟩

theorem parseOption_eq_some_iff {parse : String → Option α} {R : String → α → Prop}
    (hparse : ∀ s x, parse s = some x ↔ R s x) {o : Option String} {x : Option α} :
    parseOption parse o = some x ↔ Option.Rel R o x := by
  cases o with
  | none =>
    cases x with
    | none => exact iff_of_true rfl .none
    | some x => exact iff_of_false (by simp [parseOption]) nofun
  | some s =>
    cases x with
    | none => exact iff_of_false (by simp [parseOption]) nofun
    | some x => simp [parseOption, hparse]

theorem toOption_eq_some_iff {x : Except ε α} {a : α} : x.toOption = some a ↔ x = .ok a := by
  cases x <;> simp [Except.toOption]

namespace StartWords

variable {w : StartWords} {args : StartArgs}

theorem parse_eq_some_iff : w.parse = some args ↔ w.Spells args := by
  unfold parse
  simp only [Option.bind_eq_bind, Option.bind_eq_some_iff, Option.pure_def, Option.some_inj,
    toOption_eq_some_iff, parseEnvArgs_eq_ok_iff,
    parseOption_eq_some_iff fun _ _ => parsePath_eq_some_iff,
    parseOption_eq_some_iff fun _ _ => toOption_eq_some_iff.trans RestartPolicy.parse_eq_ok_iff,
    parseOption_eq_some_iff fun _ _ =>
      toOption_eq_some_iff.trans ResourceProfile.fromStr_eq_ok_iff,
    parseOption_eq_some_iff fun _ _ => parseUsize_eq_some_iff,
    parseOption_eq_some_iff fun _ _ =>
      toOption_eq_some_iff.trans SecurityProfile.fromStr_eq_ok_iff]
  constructor
  · rintro ⟨cwd, hcwd, env, henv, logDir, hlogDir, restart, hrestart, profile, hprofile, fdLimit,
      hfd, security, hsecurity, rfl⟩
    exact ⟨rfl, rfl, rfl, hcwd, henv, hlogDir, hrestart, hprofile, rfl, rfl, hfd, hsecurity, rfl⟩
  · intro h
    refine ⟨_, h.cwd, _, h.env, _, h.logDir, _, h.restart, _, h.resourceProfile, _, h.fdLimit, _,
      h.securityProfile, ?_⟩
    rw [← h.name, ← h.command, ← h.args, ← h.cpuPriority, ← h.memoryLimit, ← h.switches]

theorem inUsize_of_spells (h : w.Spells args) : args.InUsize where
  restart n hn := by
    have hspelled := h.restart
    rw [hn] at hspelled
    generalize w.restart = word at hspelled
    cases hspelled with
    | some hrestart => exact hrestart.2
  fdLimit n hn := by
    have hspelled := h.fdLimit
    rw [hn] at hspelled
    generalize w.fdLimit = word at hspelled
    cases hspelled with
    | some hfd => exact hfd.2

theorem parseOption_parsePath {o p : Option String} :
    parseOption parsePath o = some p ↔ p = o ∧ o ≠ some "" := by
  cases o with
  | none => simp [parseOption, eq_comm]
  | some s => cases p <;> simp [parseOption, parsePath_eq_some_iff]

theorem toCli_eq_some_iff {client process : Option String} {cli : CLI} :
    w.toCli client process = some cli ↔ client ≠ some "" ∧ process ≠ some "" ∧
      ∃ args, w.Spells args ∧ ∃ logDir, logDir = globalLogDir client process args.logDir ∧
        cli = ⟨logDir, .process (.start { args with logDir })⟩ := by
  simp only [toCli, Option.bind_eq_bind, Option.bind_eq_some_iff, Option.pure_def,
    Option.some_inj, parseOption_parsePath, parse_eq_some_iff]
  constructor
  · rintro ⟨client, ⟨rfl, hclient⟩, process, ⟨rfl, hprocess⟩, args, hspells, rfl⟩
    exact ⟨hclient, hprocess, args, hspells, _, rfl, rfl⟩
  · rintro ⟨hclient, hprocess, args, hspells, logDir, rfl, rfl⟩
    exact ⟨_, ⟨rfl, hclient⟩, _, ⟨rfl, hprocess⟩, args, hspells, rfl⟩

end StartWords

/-- The daemon reads what the words of a start spell, and it reads nothing when one of them spells
nothing. -/
theorem start_of_words (w : StartWords) (client process : Option String) (cli : CLI) :
    w.received client process = some cli ↔ client ≠ some "" ∧ process ≠ some "" ∧
      ∃ args, w.Spells args ∧ ∃ logDir, logDir = globalLogDir client process args.logDir ∧
        cli = ⟨logDir, .process (.start { args with logDir })⟩ := by
  rw [← StartWords.toCli_eq_some_iff, StartWords.received, Option.bind_eq_some_iff]
  have hread (cli' : CLI) (h : w.toCli client process = some cli') :
      CLI.codec.decode (CLI.codec.encode cli') = .ok cli' := by
    obtain ⟨-, -, args, hspells, logDir, -, rfl⟩ := StartWords.toCli_eq_some_iff.mp h
    have husize := StartWords.inUsize_of_spells hspells
    have hargs : ({ args with logDir } : StartArgs).InUsize := ⟨husize.restart, husize.fdLimit⟩
    exact CLI.codec.decode_encode hargs
  constructor
  · rintro ⟨cli', hcli', hdecoded⟩
    rw [toOption_eq_some_iff, hread cli' hcli', Except.ok.injEq] at hdecoded
    exact hdecoded ▸ hcli'
  · intro h
    exact ⟨cli, h, toOption_eq_some_iff.mpr (hread cli h)⟩

end Yapm
