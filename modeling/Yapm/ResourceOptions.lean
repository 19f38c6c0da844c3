import Yapm.Handlers

/-!
# Resource options of the command line

A priority and a memory limit are given as words. A word that is documented has a value
(`CPUPriority.SpelledBy`, `MemReqs.SpelledBy`) : a priority its name, in any case, a
limit the word `unlimited` or a decimal number of megabytes. An option is ignored when it
has no part in the limits although it is there, and when a word that nothing documents
does not stop the start.

The conversion drops what its parsers refuse, a number that does not fit a `usize` among it,
and the name of the lowest priority is read as another. No option is ignored exactly when the
words meet none of these (`notIgnored_iff`).
-/

namespace Yapm

/-! ## Documented spellings -/

/-- The value of a decimal numeral, with at most one `+` before its digits. -/
def decimal (s : String) : Option ℕ :=
  let digits := stripPlus s.toList
  if digits ≠ [] ∧ digits.all Char.isDigit then some (Nat.ofDigitChars 10 digits 0) else none

def CPUPriority.SpelledBy (p : CPUPriority) (s : String) : Prop :=
  toLowercase s = p.spelling

def MemReqs.SpelledBy : MemReqs → String → Prop
  | .unlimited, s => toLowercase s = "unlimited"
  | .specific mibs, s => decimal s = some mibs

namespace ResourceArgs

variable (args : ResourceArgs)

/-- The limits before any option is applied. -/
def preset : ResourceLimits :=
  (args.resourceProfile.map ResourceLimits.fromProfile).getD .default

/-- A word for the priority or for the memory limit is none that is documented. -/
def Misspelt : Prop :=
  (∃ s ∈ args.cpuPriority, ∀ p : CPUPriority, ¬p.SpelledBy s) ∨
    ∃ s ∈ args.memoryLimit, ∀ m : MemReqs, ¬m.SpelledBy s

/-- Options that are there have the value they spell, others that of the profile. -/
structure HonouredBy (limits : ResourceLimits) : Prop where
  profile : limits.profile = args.preset.profile
  cpuPriority : ∀ s ∈ args.cpuPriority, ∀ p : CPUPriority, p.SpelledBy s → limits.cpuPriority = p
  noPriority : args.cpuPriority = none → limits.cpuPriority = args.preset.cpuPriority
  memLimit : ∀ s ∈ args.memoryLimit, ∀ m : MemReqs, m.SpelledBy s → limits.memLimit = m
  noMemLimit : args.memoryLimit = none → limits.memLimit = args.preset.memLimit
  fdLimit : ∀ n ∈ args.fdLimit, limits.fdLimit = some n
  noFdLimit : args.fdLimit = none → limits.fdLimit = args.preset.fdLimit

/-- The conversion honours every option, and a misspelt word fails every start. -/
structure NotIgnored : Prop where
  honoured : args.HonouredBy (.ofArgs args)
  refused : args.Misspelt → ∀ start : StartArgs, start.resources = args →
    ∀ (s : ProcessManager) (o : StartOutcomes) (poisoned : Bool) (failure : Option OsError)
      (now : ℕ → Timestamp) (name : String) (pid : Pid) (s' : ProcessManager),
      s.handleProcessCmd (.start start) o poisoned failure now ≠
        some (.processStarted name pid, s')

end ResourceArgs

/-! ## What the parsers read -/

theorem CPUPriority.spelling_inj {p q : CPUPriority} (h : p.spelling = q.spelling) : p = q := by
  cases p <;> cases q <;> first | rfl | exact absurd h (by decide)

theorem CPUPriority.SpelledBy.unique {p q : CPUPriority} {s : String} (hp : p.SpelledBy s)
    (hq : q.SpelledBy s) : p = q :=
  spelling_inj (hp.symm.trans hq)

/-- A priority is read from its name, the lowest as the one above it. -/
theorem readPriority_of_spelledBy {p : CPUPriority} {s : String} (h : p.SpelledBy s) :
    readPriority s = some (if p = .lowest then .low else p) := by
  have hlower : toLowercase s = p.spelling := h
  unfold readPriority CPUPriority.fromStr
  rw [hlower]
  cases p <;> rfl

theorem parseUsize_eq (s : String) :
    parseUsize s = (decimal s).filter fun n => n < 2 ^ 64 := by
  simp only [parseUsize, decimal, ← and_assoc]
  by_cases hdigits : stripPlus s.toList ≠ [] ∧ (stripPlus s.toList).all Char.isDigit
  · rw [if_pos hdigits, Option.filter_some]
    by_cases hlt : Nat.ofDigitChars 10 (stripPlus s.toList) 0 < 2 ^ 64
    · rw [if_pos ⟨hdigits, hlt⟩, if_pos (decide_eq_true hlt)]
    · rw [if_neg fun h => hlt h.2, if_neg (by simpa using hlt)]
  · rw [if_neg hdigits, if_neg fun h => hdigits h.1]
    rfl

theorem toLowercase_ne_of_decimal {s : String} {n : ℕ} (h : decimal s = some n) :
    toLowercase s ≠ "unlimited" := by
  unfold decimal at h
  simp only at h
  split at h
  · exact toLowercase_ne_of_digits (‹_ ∧ _›).2
  · cases h

theorem MemReqs.SpelledBy.unique {m m' : MemReqs} {s : String} (hm : m.SpelledBy s)
    (hm' : m'.SpelledBy s) : m = m' := by
  cases m with
  | unlimited =>
    cases m' with
    | unlimited => rfl
    | specific n' => exact absurd hm (toLowercase_ne_of_decimal hm')
  | specific n =>
    cases m' with
    | unlimited => exact absurd hm' (toLowercase_ne_of_decimal hm)
    | specific n' => exact congrArg _ (Option.some_inj.mp (Eq.trans (Eq.symm hm) hm'))

/-- A memory limit is read from its spelling when it is a `usize`. -/
theorem readMemory_of_spelledBy {m : MemReqs} {s : String} (h : m.SpelledBy s)
    (hlt : ∀ n, m = .specific n → n < 2 ^ 64) : readMemory s = some m := by
  cases m with
  | unlimited => exact if_pos h
  | specific n =>
    have hdecimal : decimal s = some n := h
    rw [readMemory, if_neg (toLowercase_ne_of_decimal hdecimal), parseUsize_eq, hdecimal,
      Option.filter_some, if_pos (decide_eq_true (hlt n rfl))]
    rfl

theorem readMemory_of_le {s : String} {n : ℕ} (h : (MemReqs.specific n).SpelledBy s)
    (hle : 2 ^ 64 ≤ n) : readMemory s = none := by
  have hdecimal : decimal s = some n := h
  rw [readMemory, if_neg (toLowercase_ne_of_decimal hdecimal), parseUsize_eq, hdecimal,
    Option.filter_some, if_neg (by simpa using hle)]
  rfl

/-! ## Words that are ignored -/

namespace ResourceArgs

variable (args : ResourceArgs)

theorem preset_eq :
    args.preset = ResourceLimits.fromProfile (args.resourceProfile.getD .custom) := by
  unfold preset
  cases args.resourceProfile <;> rfl

/-- The options stop nothing : some start with them is reported. -/
theorem exists_start : ∃ start : StartArgs, start.resources = args ∧
    ∃ s', ProcessManager.init.handleProcessCmd (.start start) ProcessManager.plainOutcomes false
      none ProcessManager.newYear = some (.processStarted start.name 4242, s') := by
  have haccepts (tty : TaskType) :
      ProcessManager.init.runtime.treg.Accepts tty 4242 .accepted := by
    refine ⟨rfl, fun h => ?_⟩
    obtain ⟨-, id, t, ht, -⟩ := h
    cases ht
  let start : StartArgs :=
    { name := "db", command := "/usr/bin/db", args := [], cwd := none, env := []
      logDir := none, restart := none, resources := args
      security := ⟨none, false, false, false, false, false, false⟩ }
  have hspawns : ProcessManager.init.Spawns (.ofStartArgs start) ProcessManager.plainOutcomes :=
    ⟨rfl, ⟨rfl, rfl, rfl⟩, rfl, rfl, rfl, rfl, rfl, rfl⟩
  exact ⟨start, rfl, _, ProcessManager.init.start_of_starts _ _
    ⟨hspawns, ⟨rfl, rfl⟩, haccepts .process, haccepts .metrics⟩⟩

/-- With words the parsers read as they are spelled, every option is honoured. -/
theorem honouredBy_ofArgs
    (hpriority : ∀ s ∈ args.cpuPriority, ∃ p : CPUPriority, p ≠ .lowest ∧ p.SpelledBy s)
    (hmemory : ∀ s ∈ args.memoryLimit, ∃ m : MemReqs, m.SpelledBy s ∧
      ∀ n, m = .specific n → n < 2 ^ 64) :
    args.HonouredBy (.ofArgs args) := by
  rw [Settings.ofArgs_eq, ← preset_eq]
  refine ⟨rfl, fun s hs p hp => ?_, fun hnone => ?_, fun s hs m hm => ?_, fun hnone => ?_,
    fun n hn => ?_, fun hnone => ?_⟩
  · obtain ⟨q, hq, hspelled⟩ := hpriority s hs
    obtain rfl := hp.unique hspelled
    simp [Option.mem_def.mp hs, readPriority_of_spelledBy hp, hq]
  · simp [hnone]
  · obtain ⟨m', hspelled, hlt⟩ := hmemory s hs
    obtain rfl := hm.unique hspelled
    simp [Option.mem_def.mp hs, readMemory_of_spelledBy hm hlt]
  · simp [hnone]
  · simp [Option.mem_def.mp hn]
  · simp [hnone]

/-- No option is ignored exactly when the priority is the name of one that is not the
lowest, and the memory limit is the word `unlimited` or a number that fits a `usize`. -/
theorem notIgnored_iff : args.NotIgnored ↔
    (∀ s ∈ args.cpuPriority, ∃ p : CPUPriority, p ≠ .lowest ∧ p.SpelledBy s) ∧
      ∀ s ∈ args.memoryLimit, ∃ m : MemReqs, m.SpelledBy s ∧
        ∀ n, m = .specific n → n < 2 ^ 64 := by
  constructor
  · rintro ⟨hhonoured, hrefused⟩
    have hspelt : ¬args.Misspelt := by
      intro hmisspelt
      obtain ⟨start, hargs, s', hstart⟩ := args.exists_start
      exact hrefused hmisspelt start hargs _ _ _ _ _ _ _ _ hstart
    rw [Settings.ofArgs_eq, ← preset_eq] at hhonoured
    refine ⟨fun s hs => ?_, fun s hs => ?_⟩
    · obtain ⟨p, hp⟩ : ∃ p : CPUPriority, p.SpelledBy s := by
        by_contra hnot
        exact hspelt (.inl ⟨s, hs, not_exists.mp hnot⟩)
      refine ⟨p, fun hlowest => ?_, hp⟩
      have hread := hhonoured.cpuPriority s hs p hp
      simp [Option.mem_def.mp hs, readPriority_of_spelledBy hp, hlowest] at hread
    · obtain ⟨m, hm⟩ : ∃ m : MemReqs, m.SpelledBy s := by
        by_contra hnot
        exact hspelt (.inr ⟨s, hs, not_exists.mp hnot⟩)
      refine ⟨m, hm, fun n hn => ?_⟩
      by_contra hle
      subst hn
      have hread := hhonoured.memLimit s hs _ hm
      simp only [Option.mem_def.mp hs, Option.bind_some,
        readMemory_of_le hm (Nat.le_of_not_lt hle), Option.getD_none, preset_eq] at hread
      exact hle ((fromProfile_inUsize _).memLimit n hread)
  · rintro ⟨hpriority, hmemory⟩
    refine ⟨args.honouredBy_ofArgs hpriority hmemory, fun hmisspelt => ?_⟩
    rcases hmisspelt with ⟨s, hs, hnot⟩ | ⟨s, hs, hnot⟩
    · obtain ⟨p, -, hp⟩ := hpriority s hs
      exact absurd hp (hnot p)
    · obtain ⟨m, hm, -⟩ := hmemory s hs
      exact absurd hm (hnot m)

end ResourceArgs

/-- The lowest priority, and a limit with a unit. -/
def lowestWithUnit : ResourceArgs :=
  ⟨none, some "lowest", some "512MB", none⟩

/-- The priority is the one above the lowest, memory is not limited at all, and the start
is reported. -/
theorem unit_suffix_ignored :
    ResourceLimits.ofArgs lowestWithUnit = ⟨.custom, .low, .unlimited, none⟩ ∧
      (∃ start : StartArgs, start.resources = lowestWithUnit ∧ ∃ s',
        ProcessManager.init.handleProcessCmd (.start start) ProcessManager.plainOutcomes false
          none ProcessManager.newYear = some (.processStarted start.name 4242, s')) ∧
      ¬lowestWithUnit.NotIgnored := by
  refine ⟨by decide, lowestWithUnit.exists_start, fun h => ?_⟩
  have hlowest := h.honoured.cpuPriority "lowest" rfl .lowest rfl
  exact absurd hlowest (by decide)

end Yapm
