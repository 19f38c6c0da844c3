import Yapm.ConfigForms
import Yapm.SyscallFlags

/-!
# Policies put together

The command line gives a profile and switches, and each switch adds to what the profile takes
away. The filter, too, is that of both : it denies a call exactly when that of one of them does
(`denies_union`), whatever the order of the rules, and although some rules are left out when
others are there and one lets calls through. So the switches can be understood one by one.

A call that is not denied is let through silently : the rule that would have it logged is always
superseded (`verdict_eq`).
-/

open Seccomp

namespace Yapm

open LinuxSyscallConsts

/-- The restrictions of both, under the profile of the first. -/
def SecurityPolicy.union (p q : SecurityPolicy) : SecurityPolicy where
  profile := p.profile
  noNet := p.noNet || q.noNet
  noFs := p.noFs || q.noFs
  readOnlyFs := p.readOnlyFs || q.readOnlyFs
  noProcess := p.noProcess || q.noProcess
  noThread := p.noThread || q.noThread
  noIpc := p.noIpc || q.noIpc
  noSysman := p.noSysman || q.noSysman

variable {p q : SecurityPolicy} {s : String} {args : Args}

/-- The calls that write to a file system. -/
def modifiesFs (s : String) (args : Args) : Prop :=
  s ∈ fsWriteSyscalls ∨ ∃ o : OpenCall, s = o.name ∧ writes (args o.flagsArg)

theorem OpenCall.exists_iff {P : OpenCall → Prop} : (∃ o, P o) ↔ P .openPath ∨ P .openat := by
  constructor
  · rintro ⟨o, ho⟩
    cases o with
    | openPath => exact .inl ho
    | openat => exact .inr ho
  · rintro (ho | ho) <;> exact ⟨_, ho⟩

theorem mem_of_modifiesFs (h : modifiesFs s args) :
    s ∈ fsWriteSyscalls ++ fsReadSyscalls ++ fsConditionalSyscalls := by
  simp only [List.mem_append]
  obtain h | ⟨o, rfl, -⟩ := h
  · exact .inl (.inl h)
  · exact .inr (by cases o <;> decide)

/-- Each flag denies its own calls, whatever the others are. -/
theorem denies_iff_flags : (securityContext p).denies s args ↔
    p.noNet ∧ s ∈ networkSyscalls ∨
    p.noFs ∧ s ∈ fsWriteSyscalls ++ fsReadSyscalls ++ fsConditionalSyscalls ∨
    p.readOnlyFs ∧ modifiesFs s args ∨
    p.noProcess ∧ s ∈ processCreationSyscalls ++ processControlSyscalls ∨
    p.noThread ∧ s = "clone" ∧ args 0 = cloneThread ∨
    p.noIpc ∧ s ∈ ipcSyscalls ++ fileBasedIpcSyscalls ∨
    p.noSysman ∧ s ∈ systemManipulationSyscalls := by
  have hmodifies : modifiesFs s args ↔
      s ∈ fsWriteSyscalls ∨ s = "open" ∧ writes (args 1) ∨ s = "openat" ∧ writes (args 2) :=
    or_congr_right OpenCall.exists_iff
  rw [denies_iff, ← hmodifies]
  by_cases hfs : p.noFs
  · -- what the branch that is not taken would deny is denied anyway
    have hcovered : p.readOnlyFs ∧ modifiesFs s args →
        s ∈ fsWriteSyscalls ++ fsReadSyscalls ++ fsConditionalSyscalls :=
      fun h => mem_of_modifiesFs h.2
    simp only [hfs, not_true_eq_false, false_and, false_or, true_and]
    rw [← or_assoc (b := p.readOnlyFs ∧ modifiesFs s args), or_iff_left_of_imp hcovered]
  · simp [hfs]

/-- The filter of two policies denies what one of theirs denies. -/
theorem denies_union : (securityContext (p.union q)).denies s args ↔
    (securityContext p).denies s args ∨ (securityContext q).denies s args := by
  simp only [denies_iff_flags, SecurityPolicy.union, Bool.or_eq_true, or_and_right]
  exact Iff.of_eq (by ac_rfl)

/-- A call is denied with `EPERM`, or let through. -/
theorem verdict_eq (sec : SecurityPolicy) (s : String) (args : Args) :
    (securityContext sec).verdict s args =
      if (securityContext sec).denies s args then .errno eperm else .allow := by
  have hrestrictive := securityContext_restrictive sec
  obtain ⟨r, hr, hm, hv⟩ | hv := (securityContext sec).exists_rule_or_default s args
  · obtain ha | ⟨rfl, hp⟩ := action_of_mem hr
    · rw [ScmpFilterContext.denies, hv, ha]
      rfl
    · -- the rule that logs is superseded
      have hd : (securityContext sec).denies s args := by
        obtain rfl := Rule.syscall_of_isMatch hm
        exact denies_iff sec "clone" args |>.mpr (.inr (.inr (.inr (.inl ⟨hp, by decide⟩))))
      rw [ScmpFilterContext.denies, hv] at hd
      cases hd
  · rw [ScmpFilterContext.denies, hv]
    rfl

/-! ## The command line -/

namespace SecurityArgs

/-- What the profile of the command line takes away. `--allow-sysman` gives back what every
profile takes away. -/
def ofProfile (a : SecurityArgs) : SecurityPolicy :=
  { SecurityPolicy.fromProfile (a.securityProfile.getD .default) with noSysman := !a.allowSysman }

/-- What the switches of the command line take away. -/
def ofSwitches (a : SecurityArgs) : SecurityPolicy where
  profile := a.securityProfile.getD .default
  noNet := a.noNet
  noFs := false
  readOnlyFs := a.readonlyFs
  noProcess := a.noProcess
  noThread := a.noThread
  noIpc := a.noIpc
  noSysman := false

theorem union_eq (a : SecurityArgs) : a.ofProfile.union a.ofSwitches = .ofArgs a := by
  rw [Settings.ofArgs_security]
  simp [ofProfile, ofSwitches, SecurityPolicy.union, Settings.fromProfile_noSysman,
    fromProfile_noFs, Bool.or_comm]

end SecurityArgs

/-- The filter of a command line fails a call with `EPERM` exactly when that of its profile
denies it or that of its switches, and lets every other call through. -/
theorem verdict_of_args (a : SecurityArgs) (s : String) (args : Args) :
    (securityContext (.ofArgs a)).verdict s args =
      if (securityContext a.ofProfile).denies s args || (securityContext a.ofSwitches).denies s args
      then .errno eperm else .allow := by
  have hunion := @denies_union a.ofProfile a.ofSwitches s args
  rw [verdict_eq, ← a.union_eq]
  simp only [hunion, Bool.or_eq_true]

end Yapm
