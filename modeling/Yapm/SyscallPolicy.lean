import Yapm.Config
import Yapm.Seccomp

/-!
# The filter of a security policy

The child builds its filter from its security policy : each flag that is set calls a
`seccomp_*` function, and each of these resolves the names of the calls it is about and
adds a rule for each. `SeccompStep` is one such request to libseccomp, `securitySteps`
the requests of a policy in order, `securityContext` the filter that comes of them. A
denied call fails with `EPERM`.

`securityContext_restrictive` : the only rule that lets calls through, the one `noProcess`
adds for `clone`, is superseded by the unconditional one after it. A policy with more
flags denies more (`denies_of_le`).
-/

open Seccomp

namespace Yapm

/-! ## Lists of calls -/

namespace LinuxSyscallConsts

def networkSyscalls : List String :=
  ["socket", "connect", "accept", "accept4", "send", "sendto", "sendmsg", "sendmmsg", "recv",
   "recvfrom", "recvmsg", "recvmmsg", "bind", "listen", "setsockopt", "getsockopt",
   "getpeername", "getsockname", "sethostname", "setdomainname"]

def fsWriteSyscalls : List String :=
  ["creat", "mknod", "mknodat", "mkdir", "mkdirat", "unlink", "unlinkat", "rename", "renameat",
   "renameat2", "link", "linkat", "symlink", "symlinkat", "truncate", "ftruncate", "chmod",
   "fchmod", "fchmodat", "chown", "fchown", "fchownat", "lchown", "mount", "umount", "umount2",
   "pivot_root", "write", "pwrite64"]

def fsReadSyscalls : List String :=
  ["read", "pread64", "readv", "preadv", "readlink", "readlinkat", "stat", "fstat"]

def fileBasedIpcSyscalls : List String :=
  ["mknod", "mknodat", "open", "openat", "unlink"]

def fsConditionalSyscalls : List String :=
  ["open", "openat"]

def processCreationSyscalls : List String :=
  ["fork", "vfork", "clone", "clone3", "execveat", "prctl", "unshare", "setns", "userfaultfd",
   "memfd_create"]

def processControlSyscalls : List String :=
  ["ptrace", "process_vm_readv", "process_vm_writev", "init_module", "finit_module",
   "delete_module", "kexec_load", "kexec_file_load", "sched_setscheduler", "sched_setparam",
   "sched_setaffinity", "ioprio_set"]

def systemManipulationSyscalls : List String :=
  ["reboot", "syslog", "acct", "settimeofday", "swapon", "swapoff", "sysfs", "sethostname",
   "setdomainname", "iopl"]

def ipcSyscalls : List String :=
  ["shmget", "shmat", "shmctl", "shmdt", "semget", "semctl", "semop", "semtimedop", "msgget",
   "msgsnd", "msgrcv", "msgctl", "mq_open", "mq_unlink"]

end LinuxSyscallConsts

open LinuxSyscallConsts

/-! ## Rules -/

inductive DisobeyPolicy
  | killProcess
  | noPerm
deriving DecidableEq, Repr

def eperm : ℕ := 1

def DisobeyPolicy.into : DisobeyPolicy → ScmpAction
  | .killProcess => .killProcess
  | .noPerm => .errno eperm

/-- A request to libseccomp : resolve a name, or add a rule on a resolved call. -/
inductive SeccompStep
  | fromName (syscall : String)
  | addRule (rule : Rule String)
deriving DecidableEq, Repr

def SeccompStep.rule? : SeccompStep → Option (Rule String)
  | .fromName _ => none
  | .addRule rule => some rule

/-- The rules the requests add, in order. -/
def rulesOf (steps : List SeccompStep) : List (Rule String) :=
  steps.filterMap SeccompStep.rule?

/-- Resolve each call, and add an unconditional rule on it. -/
def addRules (policy : DisobeyPolicy) (syscalls : List String) : List SeccompStep :=
  syscalls.flatMap fun s => [.fromName s, .addRule ⟨policy.into, s, []⟩]

def seccompNoNet (policy : DisobeyPolicy) : List SeccompStep :=
  addRules policy networkSyscalls

def seccompNoFs (policy : DisobeyPolicy) : List SeccompStep :=
  addRules policy (fsWriteSyscalls ++ fsReadSyscalls ++ fsConditionalSyscalls)

def seccompNoIpc (policy : DisobeyPolicy) : List SeccompStep :=
  addRules policy (ipcSyscalls ++ fileBasedIpcSyscalls)

def seccompNoSys (policy : DisobeyPolicy) : List SeccompStep :=
  addRules policy systemManipulationSyscalls

/-- `CLONE_THREAD`, as the source writes it. -/
def cloneThread : BitVec 64 := 0x00010000

/-- Lets a `clone` through and logs it, unless its flags are those of a thread. -/
def logClone : Rule String :=
  ⟨.log, "clone", [⟨0, .notEqual, cloneThread⟩]⟩

def seccompNoProc (policy : DisobeyPolicy) : List SeccompStep :=
  [.fromName "clone", .addRule logClone] ++
    addRules policy (processCreationSyscalls ++ processControlSyscalls)

def seccompNoThread (policy : DisobeyPolicy) : List SeccompStep :=
  [.fromName "clone", .addRule ⟨policy.into, "clone", [⟨0, .equal, cloneThread⟩]⟩]

/-! Flags of `open`. -/

def oAccmode : BitVec 64 := 3

def oWronly : BitVec 64 := 1

def oRdwr : BitVec 64 := 2

/-- Resolve a call that opens a file, and add a rule for each mode that writes. `arg` is
the argument with the flags. -/
def openForWriting (policy : DisobeyPolicy) (syscall : String) (arg : Fin 6) :
    List SeccompStep :=
  [.fromName syscall,
   .addRule ⟨policy.into, syscall, [⟨arg, .maskedEqual oAccmode, oWronly⟩]⟩,
   .addRule ⟨policy.into, syscall, [⟨arg, .maskedEqual oAccmode, oRdwr⟩]⟩]

def seccompReadonlyFs (policy : DisobeyPolicy) : List SeccompStep :=
  addRules policy fsWriteSyscalls ++ openForWriting policy "open" 1 ++
    openForWriting policy "openat" 2

/-- A call that opens a file, and has the mode in its flags. -/
inductive OpenCall
  | openPath
  | openat
deriving DecidableEq, Repr

def OpenCall.name : OpenCall → String
  | .openPath => "open"
  | .openat => "openat"

/-- The argument with the flags. -/
def OpenCall.flagsArg : OpenCall → Fin 6
  | .openPath => 1
  | .openat => 2

/-- The requests of a policy, in the order of the child branch. -/
def securitySteps (sec : SecurityPolicy) : List SeccompStep :=
  (if sec.noNet then seccompNoNet .noPerm else []) ++
  (if sec.noFs then seccompNoFs .noPerm
    else if sec.readOnlyFs then seccompReadonlyFs .noPerm else []) ++
  (if sec.noProcess then seccompNoProc .noPerm else []) ++
  (if sec.noThread then seccompNoThread .noPerm else []) ++
  (if sec.noIpc then seccompNoIpc .noPerm else []) ++
  (if sec.noSysman then seccompNoSys .noPerm else [])

/-- `init_seccomp_context` : everything is allowed. -/
def initSeccompContext : ScmpFilterContext String where
  defaultAction := .allow
  rules := []

/-- The filter once every request of the policy is served. -/
def securityContext (sec : SecurityPolicy) : ScmpFilterContext String :=
  { initSeccompContext with rules := initSeccompContext.rules ++ rulesOf (securitySteps sec) }

/-! ## Rules of a policy -/

@[simp] theorem rulesOf_append (xs ys : List SeccompStep) :
    rulesOf (xs ++ ys) = rulesOf xs ++ rulesOf ys :=
  List.filterMap_append

@[simp] theorem mem_rulesOf_ite {c : Prop} [Decidable c] {xs : List SeccompStep}
    {r : Rule String} : r ∈ rulesOf (if c then xs else []) ↔ c ∧ r ∈ rulesOf xs := by
  split <;> simp [*, rulesOf]

theorem rulesOf_addRules (policy : DisobeyPolicy) :
    ∀ syscalls, rulesOf (addRules policy syscalls) = syscalls.map fun s => ⟨policy.into, s, []⟩
  | [] => rfl
  | s :: syscalls => by
    rw [addRules, List.flatMap_cons, rulesOf_append, ← addRules, rulesOf_addRules policy syscalls]
    rfl

theorem mem_rulesOf_addRules {policy : DisobeyPolicy} {syscalls : List String} {r : Rule String} :
    r ∈ rulesOf (addRules policy syscalls) ↔ ∃ s ∈ syscalls, r = ⟨policy.into, s, []⟩ := by
  simp [rulesOf_addRules, eq_comm]

theorem mem_securityContext {sec : SecurityPolicy} {r : Rule String} :
    r ∈ (securityContext sec).rules ↔
      sec.noNet ∧ r ∈ rulesOf (seccompNoNet .noPerm) ∨
      sec.noFs ∧ r ∈ rulesOf (seccompNoFs .noPerm) ∨
      (¬sec.noFs ∧ sec.readOnlyFs) ∧ r ∈ rulesOf (seccompReadonlyFs .noPerm) ∨
      sec.noProcess ∧ r ∈ rulesOf (seccompNoProc .noPerm) ∨
      sec.noThread ∧ r ∈ rulesOf (seccompNoThread .noPerm) ∨
      sec.noIpc ∧ r ∈ rulesOf (seccompNoIpc .noPerm) ∨
      sec.noSysman ∧ r ∈ rulesOf (seccompNoSys .noPerm) := by
  simp only [securityContext, initSeccompContext, securitySteps, List.nil_append, rulesOf_append,
    List.mem_append, mem_rulesOf_ite, or_assoc]
  cases sec.noFs <;> simp

theorem mem_openForWriting {policy : DisobeyPolicy} {s : String} {arg : Fin 6} {r : Rule String}
    (h : r ∈ rulesOf (openForWriting policy s arg)) : r.action = policy.into ∧ r.syscall = s := by
  simp only [rulesOf, openForWriting, SeccompStep.rule?, List.filterMap_cons, List.filterMap_nil,
    List.mem_cons, List.not_mem_nil, or_false] at h
  rcases h with rfl | rfl <;> exact ⟨rfl, rfl⟩

/-- A read-only file system has rules on the calls that write and the calls that open. -/
theorem mem_seccompReadonlyFs {policy : DisobeyPolicy} {r : Rule String}
    (h : r ∈ rulesOf (seccompReadonlyFs policy)) :
    r.action = policy.into ∧ r.syscall ∈ fsWriteSyscalls ++ fsConditionalSyscalls := by
  simp only [seccompReadonlyFs, rulesOf_append, List.mem_append, mem_rulesOf_addRules] at h
  rcases h with (⟨s, hs, rfl⟩ | h) | h
  · exact ⟨rfl, List.mem_append_left _ hs⟩
  · obtain ⟨ha, hs⟩ := mem_openForWriting h
    exact ⟨ha, by rw [hs]; decide⟩
  · obtain ⟨ha, hs⟩ := mem_openForWriting h
    exact ⟨ha, by rw [hs]; decide⟩

theorem mem_seccompNoProc {policy : DisobeyPolicy} {r : Rule String} :
    r ∈ rulesOf (seccompNoProc policy) ↔
      r = logClone ∨
      ∃ s ∈ processCreationSyscalls ++ processControlSyscalls, r = ⟨policy.into, s, []⟩ := by
  rw [seccompNoProc, rulesOf_append, List.mem_append, mem_rulesOf_addRules]
  simp [rulesOf, SeccompStep.rule?, eq_comm]

theorem mem_seccompNoThread {policy : DisobeyPolicy} {r : Rule String} :
    r ∈ rulesOf (seccompNoThread policy) ↔
      r = ⟨policy.into, "clone", [⟨0, .equal, cloneThread⟩]⟩ := by
  simp [rulesOf, seccompNoThread, SeccompStep.rule?, eq_comm]

/-- Every rule of a policy denies with `EPERM`, but for the one that logs `clone`. -/
theorem action_of_mem {sec : SecurityPolicy} {r : Rule String}
    (h : r ∈ (securityContext sec).rules) :
    r.action = .errno eperm ∨ r = logClone ∧ sec.noProcess := by
  have hgroup {syscalls : List String} (h : r ∈ rulesOf (addRules .noPerm syscalls)) :
      r.action = .errno eperm := by
    obtain ⟨s, -, rfl⟩ := mem_rulesOf_addRules.mp h
    rfl
  rcases mem_securityContext.mp h with ⟨-, h⟩ | ⟨-, h⟩ | ⟨-, h⟩ | ⟨hp, h⟩ | ⟨-, h⟩ | ⟨-, h⟩ | ⟨-, h⟩
  · exact .inl (hgroup h)
  · exact .inl (hgroup h)
  · exact .inl (mem_seccompReadonlyFs h).1
  · rcases mem_seccompNoProc.mp h with rfl | ⟨s, -, rfl⟩
    · exact .inr ⟨rfl, hp⟩
    · exact .inl rfl
  · rw [mem_seccompNoThread.mp h]
    exact .inl rfl
  · exact .inl (hgroup h)
  · exact .inl (hgroup h)

/-- With `noProcess`, an unconditional rule on `clone` supersedes the one that logs it. -/
theorem securityContext_restrictive (sec : SecurityPolicy) :
    (securityContext sec).Restrictive where
  default := rfl
  uncond r hr hnil := by
    rcases action_of_mem hr with ha | ⟨rfl, -⟩
    · rw [ha]
      rfl
    · cases hnil
  superseded r hr hpermit := by
    rcases action_of_mem hr with ha | ⟨rfl, hp⟩
    · rw [ha] at hpermit
      cases hpermit
    · have hclone : (⟨.errno eperm, "clone", []⟩ : Rule String) ∈
          rulesOf (seccompNoProc .noPerm) :=
        mem_seccompNoProc.mpr (.inr ⟨"clone", by decide, rfl⟩)
      exact ⟨_, mem_securityContext.mpr (.inr (.inr (.inr (.inl ⟨hp, hclone⟩)))), rfl⟩

/-- An unconditional rule with `EPERM` decides the call. -/
theorem verdict_eq_eperm {sec : SecurityPolicy} {s : String} (args : Args)
    (h : ⟨.errno eperm, s, []⟩ ∈ (securityContext sec).rules) :
    (securityContext sec).verdict s args = .errno eperm := by
  refine ScmpFilterContext.verdict_of_unconditional (fun r hr hu => ?_) ⟨_, h, by
    simp [Rule.unconditionalOn]⟩
  rcases action_of_mem hr with ha | ⟨rfl, -⟩
  · exact ha
  · simp [Rule.unconditionalOn, logClone] at hu

/-! ## Tightening a policy -/

/-- Every restriction of `p` is one of `q`. -/
structure SecurityPolicy.Le (p q : SecurityPolicy) : Prop where
  noNet : p.noNet → q.noNet
  noFs : p.noFs → q.noFs
  readOnlyFs : p.readOnlyFs → q.readOnlyFs
  noProcess : p.noProcess → q.noProcess
  noThread : p.noThread → q.noThread
  noIpc : p.noIpc → q.noIpc
  noSysman : p.noSysman → q.noSysman

/-- What a read-only file system denies, no file system denies unconditionally. -/
theorem noFs_covers_readonlyFs {r : Rule String} (h : r ∈ rulesOf (seccompReadonlyFs .noPerm)) :
    (⟨.errno eperm, r.syscall, []⟩ : Rule String) ∈ rulesOf (seccompNoFs .noPerm) := by
  have hmem : r.syscall ∈ fsWriteSyscalls ++ fsReadSyscalls ++ fsConditionalSyscalls := by
    have hsyscall := (mem_seccompReadonlyFs h).2
    simp only [List.mem_append] at hsyscall ⊢
    tauto
  exact mem_rulesOf_addRules.mpr ⟨_, hmem, rfl⟩

theorem securityContext_covers {p q : SecurityPolicy} (h : p.Le q) :
    (securityContext q).Covers (securityContext p) := by
  intro r hr hdeny
  have keep (hq : r ∈ (securityContext q).rules) :
      ∃ r' ∈ (securityContext q).rules, r'.action.denies ∧
        ∀ s args, r.isMatch s args → r'.isMatch s args :=
    ⟨r, hq, hdeny, fun _ _ => id⟩
  rw [mem_securityContext] at hr
  simp only [mem_securityContext] at keep ⊢
  rcases hr with ⟨hp, hr⟩ | ⟨hp, hr⟩ | ⟨⟨-, hp⟩, hr⟩ | ⟨hp, hr⟩ | ⟨hp, hr⟩ | ⟨hp, hr⟩ | ⟨hp, hr⟩
  · exact keep (.inl ⟨h.noNet hp, hr⟩)
  · exact keep (.inr (.inl ⟨h.noFs hp, hr⟩))
  · by_cases hfs : q.noFs
    · refine ⟨⟨.errno eperm, r.syscall, []⟩, .inr (.inl ⟨hfs, noFs_covers_readonlyFs hr⟩), rfl, ?_⟩
      intro s args hm
      simp [Rule.isMatch, Rule.syscall_of_isMatch hm]
    · exact keep (.inr (.inr (.inl ⟨⟨hfs, h.readOnlyFs hp⟩, hr⟩)))
  · exact keep (.inr (.inr (.inr (.inl ⟨h.noProcess hp, hr⟩))))
  · exact keep (.inr (.inr (.inr (.inr (.inl ⟨h.noThread hp, hr⟩)))))
  · exact keep (.inr (.inr (.inr (.inr (.inr (.inl ⟨h.noIpc hp, hr⟩))))))
  · exact keep (.inr (.inr (.inr (.inr (.inr (.inr ⟨h.noSysman hp, hr⟩))))))

/-- A policy with more restrictions denies every call one with fewer denies. -/
theorem denies_of_le {p q : SecurityPolicy} (h : p.Le q) (s : String) (args : Args)
    (hd : (securityContext p).denies s args) : (securityContext q).denies s args :=
  ScmpFilterContext.denies_of_covers (securityContext_restrictive p)
    (securityContext_restrictive q) (securityContext_covers h) hd

/-- Taking away processes besides threads : a `clone` with the flags of a thread stays
denied, although `noProcess` adds a rule that lets some calls of `clone` through. -/
theorem clone_thread_denied :
    let noThread := { SecurityPolicy.default with noThread := true }
    let both := { noThread with noProcess := true }
    (securityContext noThread).denies "clone" (fun _ => cloneThread) = true ∧
      (securityContext both).denies "clone" (fun _ => cloneThread) = true := by
  have hd : (securityContext { SecurityPolicy.default with noThread := true }).denies "clone"
      (fun _ => cloneThread) = true := by decide
  exact ⟨hd, denies_of_le ⟨id, id, id, fun _ => rfl, id, id, id⟩ "clone" _ hd⟩

end Yapm
