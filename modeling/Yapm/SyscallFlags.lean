import Yapm.SyscallPolicy

/-!
# Calls that are told apart by their flags

Most rules of a policy are on a call as a whole. Those on `clone`, `open` and `openat`
look at a word of flags. `denies_iff` says which calls the filter of a policy denies, from
the flags of the policy and the lists alone.

`no_thread` compares the whole word with `CLONE_THREAD`, so it denies `clone` for that one
word only, and what thread libraries pass has more bits set (`forbidsThreads_iff`).
`read_only_fs` looks at the access mode, so a call that opens for reading may still create
or truncate the file (`readOnly_iff`).
-/

open Seccomp

namespace Yapm

open LinuxSyscallConsts

/-! ## What a policy denies -/

/-- The access mode is one that writes. -/
def writes (flags : BitVec 64) : Prop :=
  flags &&& oAccmode = oWronly ∨ flags &&& oAccmode = oRdwr

instance (flags : BitVec 64) : Decidable (writes flags) :=
  inferInstanceAs (Decidable (_ ∨ _))

/-- Some rule of the list denies the call. -/
def DeniedBy (rules : List (Rule String)) (s : String) (args : Args) : Prop :=
  ∃ r ∈ rules, r.isMatch s args ∧ r.action.denies

section Rules

variable {rules rules' : List (Rule String)} {syscalls : List String} {s : String} {args : Args}

theorem deniedBy_append :
    DeniedBy (rules ++ rules') s args ↔ DeniedBy rules s args ∨ DeniedBy rules' s args := by
  simp [DeniedBy, or_and_right, exists_or]

theorem deniedBy_addRules : DeniedBy (rulesOf (addRules .noPerm syscalls)) s args ↔
    s ∈ syscalls := by
  constructor
  · rintro ⟨r, hr, hm, -⟩
    obtain ⟨t, ht, rfl⟩ := mem_rulesOf_addRules.mp hr
    rwa [← Rule.syscall_of_isMatch hm]
  · intro h
    exact ⟨_, mem_rulesOf_addRules.mpr ⟨s, h, rfl⟩, by simp [Rule.isMatch], rfl⟩

theorem deniedBy_openForWriting {call : String} {arg : Fin 6} :
    DeniedBy (rulesOf (openForWriting .noPerm call arg)) s args ↔
      s = call ∧ writes (args arg) := by
  simp [DeniedBy, rulesOf, openForWriting, SeccompStep.rule?, Rule.isMatch,
    ScmpArgCompare.holds, DisobeyPolicy.into, ScmpAction.denies, writes, and_or_left,
    @eq_comm _ call]

theorem deniedBy_seccompNoProc : DeniedBy (rulesOf (seccompNoProc .noPerm)) s args ↔
    s ∈ processCreationSyscalls ++ processControlSyscalls := by
  rw [seccompNoProc, rulesOf_append, deniedBy_append, deniedBy_addRules]
  refine or_iff_right ?_
  rintro ⟨r, hr, -, hdeny⟩
  obtain rfl : r = logClone := by simpa [rulesOf, SeccompStep.rule?, eq_comm] using hr
  cases hdeny

theorem deniedBy_seccompNoThread : DeniedBy (rulesOf (seccompNoThread .noPerm)) s args ↔
    s = "clone" ∧ args 0 = cloneThread := by
  simp [DeniedBy, mem_seccompNoThread, Rule.isMatch, ScmpArgCompare.holds, DisobeyPolicy.into,
    ScmpAction.denies, @eq_comm _ "clone"]

/-- The calls the filter of a policy denies. -/
theorem denies_iff (sec : SecurityPolicy) (s : String) (args : Args) :
    (securityContext sec).denies s args ↔
      sec.noNet ∧ s ∈ networkSyscalls ∨
      sec.noFs ∧ s ∈ fsWriteSyscalls ++ fsReadSyscalls ++ fsConditionalSyscalls ∨
      (¬sec.noFs ∧ sec.readOnlyFs) ∧
        (s ∈ fsWriteSyscalls ∨ s = "open" ∧ writes (args 1) ∨ s = "openat" ∧ writes (args 2)) ∨
      sec.noProcess ∧ s ∈ processCreationSyscalls ++ processControlSyscalls ∨
      sec.noThread ∧ s = "clone" ∧ args 0 = cloneThread ∨
      sec.noIpc ∧ s ∈ ipcSyscalls ++ fileBasedIpcSyscalls ∨
      sec.noSysman ∧ s ∈ systemManipulationSyscalls := by
  rw [(securityContext_restrictive sec).denies_iff]
  have hnet := @deniedBy_addRules networkSyscalls s args
  have hfs := @deniedBy_addRules (fsWriteSyscalls ++ fsReadSyscalls ++ fsConditionalSyscalls) s args
  have hreadonly : DeniedBy (rulesOf (seccompReadonlyFs .noPerm)) s args ↔
      s ∈ fsWriteSyscalls ∨ s = "open" ∧ writes (args 1) ∨ s = "openat" ∧ writes (args 2) := by
    rw [seccompReadonlyFs, rulesOf_append, rulesOf_append, deniedBy_append, deniedBy_append,
      deniedBy_addRules, deniedBy_openForWriting, deniedBy_openForWriting, or_assoc]
  have hproc := @deniedBy_seccompNoProc s args
  have hthread := @deniedBy_seccompNoThread s args
  have hipc := @deniedBy_addRules (ipcSyscalls ++ fileBasedIpcSyscalls) s args
  have hsys := @deniedBy_addRules systemManipulationSyscalls s args
  rw [← hnet, ← hfs, ← hreadonly, ← hproc, ← hthread, ← hipc, ← hsys]
  simp only [mem_securityContext, or_and_right, exists_or, and_assoc, exists_and_left, DeniedBy,
    seccompNoNet, seccompNoFs, seccompNoIpc, seccompNoSys]

end Rules

/-! ## Threads -/

/-- The word has the `CLONE_THREAD` bit. -/
def hasCloneThread (flags : BitVec 64) : Prop :=
  flags &&& cloneThread ≠ 0

instance (flags : BitVec 64) : Decidable (hasCloneThread flags) :=
  inferInstanceAs (Decidable (_ ≠ _))

section Threads

variable {sec : SecurityPolicy} (hthread : sec.noThread = true) (hproc : sec.noProcess = false)
  (args : Args)
include hthread hproc

/-- Without threads, `clone` is denied for one word of flags. -/
theorem denies_clone_iff :
    (securityContext sec).denies "clone" args ↔ args 0 = cloneThread := by
  have hlists : "clone" ∉ networkSyscalls ∧
      "clone" ∉ fsWriteSyscalls ++ fsReadSyscalls ++ fsConditionalSyscalls ∧
      "clone" ∉ fsWriteSyscalls ∧ "clone" ∉ ipcSyscalls ++ fileBasedIpcSyscalls ∧
      "clone" ∉ systemManipulationSyscalls := by decide
  obtain ⟨hnet, hfs, hwrite, hipc, hsys⟩ := hlists
  simp only [denies_iff, hthread, hproc, hnet, hfs, hwrite, hipc, hsys]
  simp

/-- A `clone` is denied exactly when it makes a thread, for the words that are
`CLONE_THREAD` alone or do not have its bit. -/
theorem forbidsThreads_iff :
    ((securityContext sec).denies "clone" args ↔ hasCloneThread (args 0)) ↔
      args 0 = cloneThread ∨ ¬hasCloneThread (args 0) := by
  rw [denies_clone_iff hthread hproc args]
  have hself : hasCloneThread cloneThread := by decide
  constructor
  · intro h
    by_cases hbit : hasCloneThread (args 0)
    · exact .inl (h.mpr hbit)
    · exact .inr hbit
  · rintro (h | h)
    · exact ⟨fun _ => h ▸ hself, fun _ => h⟩
    · exact ⟨fun heq => absurd (heq ▸ hself) h, fun hbit => absurd hbit h⟩

end Threads

/-- A policy that takes away threads only. -/
def noThreadPolicy : SecurityPolicy :=
  { SecurityPolicy.default with noThread := true }

/-- The flags `pthread_create` passes : `CLONE_VM`, `CLONE_FS`, `CLONE_FILES`,
`CLONE_SIGHAND`, `CLONE_THREAD`, `CLONE_SYSVSEM`, `CLONE_SETTLS`, `CLONE_PARENT_SETTID` and
`CLONE_CHILD_CLEARTID`. -/
def pthreadFlags : BitVec 64 := 0x003d0f00

/-- The first argument is the word, the others are zero. -/
def firstArg (flags : BitVec 64) : Args :=
  fun i => if i.val = 0 then flags else 0

theorem forbidsThreads_plain :
    ((securityContext noThreadPolicy).denies "clone" (firstArg cloneThread) ↔
        hasCloneThread (firstArg cloneThread 0)) ↔
      firstArg cloneThread 0 = cloneThread ∨ ¬hasCloneThread (firstArg cloneThread 0) :=
  forbidsThreads_iff rfl rfl _

/-- A thread library makes threads all the same. -/
theorem pthread_allowed :
    hasCloneThread (firstArg pthreadFlags 0) ∧
      (securityContext noThreadPolicy).denies "clone" (firstArg pthreadFlags) = false ∧
      ¬∀ (sec : SecurityPolicy) (args : Args), sec.noThread = true → sec.noProcess = false →
        ((securityContext sec).denies "clone" args ↔ hasCloneThread (args 0)) := by
  have hbit : hasCloneThread (firstArg pthreadFlags 0) := by decide
  have hallowed : (securityContext noThreadPolicy).denies "clone" (firstArg pthreadFlags) =
      false := by decide
  refine ⟨hbit, hallowed, fun h => ?_⟩
  have hdenied := (h noThreadPolicy (firstArg pthreadFlags) rfl rfl).mpr hbit
  rw [hallowed] at hdenied
  cases hdenied

/-! ## Opening files -/

def oRdonly : BitVec 64 := 0

def oCreat : BitVec 64 := 0x40

def oTrunc : BitVec 64 := 0x200

/-- Opening the file creates it or cuts it off. -/
def changesFile (flags : BitVec 64) : Prop :=
  flags &&& oCreat ≠ 0 ∨ flags &&& oTrunc ≠ 0

/-- The call could modify the file system. -/
def modifies (flags : BitVec 64) : Prop :=
  writes flags ∨ changesFile flags

/-- The call only reads. -/
def onlyReads (flags : BitVec 64) : Prop :=
  flags &&& oAccmode = oRdonly ∧ ¬changesFile flags

instance (flags : BitVec 64) : Decidable (changesFile flags) :=
  inferInstanceAs (Decidable (_ ∨ _))

theorem not_writes_of_onlyReads {flags : BitVec 64} (h : onlyReads flags) : ¬writes flags := by
  rintro (hw | hw) <;> rw [h.1] at hw <;> exact absurd hw (by decide)

/-- What a read-only file system asks for : calls that could modify it are denied, and
calls that only read are not. -/
def ReadOnly (denied : Bool) (flags : BitVec 64) : Prop :=
  (modifies flags → denied) ∧ (onlyReads flags → denied = false)

section ReadOnly

variable {sec : SecurityPolicy} (hreadOnly : sec.readOnlyFs = true) (hfs : sec.noFs = false)
  (hipc : sec.noIpc = false) (call : OpenCall) (args : Args)
include hreadOnly hfs hipc

/-- On a read-only file system, a file does not open in a mode that writes. -/
theorem denies_open_iff :
    (securityContext sec).denies call.name args ↔ writes (args call.flagsArg) := by
  have hlists : call.name ∉ networkSyscalls ∧ call.name ∉ fsWriteSyscalls ∧
      call.name ∉ processCreationSyscalls ++ processControlSyscalls ∧
      call.name ∉ systemManipulationSyscalls ∧ call.name ≠ "clone" := by
    cases call <;> decide
  obtain ⟨hnet, hwrite, hproc, hsys, hclone⟩ := hlists
  simp only [denies_iff, hreadOnly, hfs, hipc, hnet, hwrite, hproc, hsys, hclone]
  cases call <;> simp [OpenCall.name, OpenCall.flagsArg]

/-- The file system is read-only for the words that write, or neither create nor cut off. -/
theorem readOnly_iff :
    ReadOnly ((securityContext sec).denies call.name args) (args call.flagsArg) ↔
      writes (args call.flagsArg) ∨ ¬changesFile (args call.flagsArg) := by
  have hdenies := denies_open_iff hreadOnly hfs hipc call args
  rw [ReadOnly, hdenies, ← Bool.not_eq_true, hdenies]
  constructor
  · intro h
    by_cases hchange : changesFile (args call.flagsArg)
    · exact .inl (h.1 (.inr hchange))
    · exact .inr hchange
  · intro h
    refine ⟨?_, not_writes_of_onlyReads⟩
    rintro (hw | hchange)
    · exact hw
    · exact h.resolve_right (not_not_intro hchange)

end ReadOnly

def readOnlyPolicy : SecurityPolicy :=
  { SecurityPolicy.default with readOnlyFs := true }

/-- Every argument is the word. -/
def everyArg (flags : BitVec 64) : Args :=
  fun _ => flags

theorem readOnly_plain :
    ReadOnly ((securityContext readOnlyPolicy).denies OpenCall.openat.name (everyArg oRdwr))
        (everyArg oRdwr OpenCall.openat.flagsArg) ↔
      writes (everyArg oRdwr OpenCall.openat.flagsArg) ∨
        ¬changesFile (everyArg oRdwr OpenCall.openat.flagsArg) :=
  readOnly_iff rfl rfl rfl .openat (everyArg oRdwr)

/-- A call that opens for reading creates the file it opens. -/
theorem create_allowed :
    modifies (oRdonly ||| oCreat) ∧
      (securityContext readOnlyPolicy).denies "open" (everyArg (oRdonly ||| oCreat)) = false ∧
      ¬∀ (sec : SecurityPolicy) (call : OpenCall) (args : Args), sec.readOnlyFs = true →
        sec.noFs = false → sec.noIpc = false →
        ReadOnly ((securityContext sec).denies call.name args) (args call.flagsArg) := by
  have hmodifies : modifies (oRdonly ||| oCreat) := .inr (by decide)
  have hallowed : (securityContext readOnlyPolicy).denies "open"
      (everyArg (oRdonly ||| oCreat)) = false := by decide
  refine ⟨hmodifies, hallowed, fun h => ?_⟩
  have hdenied := (h readOnlyPolicy .openPath (everyArg (oRdonly ||| oCreat)) rfl rfl rfl).1
    hmodifies
  rw [OpenCall.name, hallowed] at hdenied
  cases hdenied

end Yapm
