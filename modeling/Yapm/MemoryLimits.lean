import Yapm.Spawn

/-!
# Memory limits

A memory limit is a number of megabytes from a configuration, of any size. The limit of a
cgroup is computed in 64 bits and passed as a signed number, that of a process is a pair of
64-bit numbers, of which the system refuses a soft limit above the hard one.

From `2 ^ 43` megabytes on the number for the cgroup is negative or has wrapped around
(`cgroupExact_iff`), from `2 ^ 44` on the limits of the process have, but for two numbers in
each turn the system refuses (`rlimitExact_iff`). A cgroup without a memory controller gets no
limit at all, and nobody is told. `limits_exact_iff` : the limits are exact or refused for the
numbers in between.
-/

open Calls

namespace Yapm

/-! ## The limits of a process -/

/-- `RLIM_INFINITY`. -/
def rlimInfinity : ℕ := 2 ^ 64 - 1

/-- The limits `set_process_mem_max_rlimit` asks for. -/
def memMaxRlimit : MemReqs → ℕ × ℕ
  | .specific mibs => (mibs * 1024 * 1024 % 2 ^ 64, (mibs + 2) % 2 ^ 64 * 1024 * 1024 % 2 ^ 64)
  | .unlimited => (rlimInfinity, rlimInfinity)

/-- `setrlimit` : a soft limit above the hard one is refused, anything else may be. -/
def setrlimit (refuses : ℕ × ℕ → Option OsError) (limits : ℕ × ℕ) : Except OsError (ℕ × ℕ) :=
  if limits.2 < limits.1 then .error ⟨22, "EINVAL: Invalid argument"⟩
  else match refuses limits with
    | some e => .error e
    | none => .ok limits

/-- `set_process_mem_max_rlimit`, and the limits in force when it returns. -/
def setProcessMemMaxRlimit (refuses : ℕ × ℕ → Option OsError) (memReqs : MemReqs) :
    Except LinuxErrorManager (ℕ × ℕ) :=
  (setrlimit refuses (memMaxRlimit memReqs)).mapError .ofErrno

/-! ## Exact limits -/

/-- Whatever the system does, `set_cgroup_mem_limit` returns an error, or the cgroup has exactly
this many megabytes as its limit, as a positive number. -/
def CgroupExact (memController : Bool) (mibs : ℕ) : Prop :=
  ∀ (os : Os) (name : String) (i : ℕ) (m : Machine), os.memController = memController →
    (m.cgroups name).isSome →
      let r := os.child.run i (setCgroupMemLimit os name (.specific mibs)) m
      r.1.isSome ∨ (r.2.cgroups name).bind (·.memswapLimit) = some ((mibs * 2 ^ 20 : ℕ) : ℤ) ∧
        0 < mibs * 2 ^ 20

/-- Whatever the system does, `set_process_mem_max_rlimit` returns an error, or sets exactly this
many megabytes as the soft limit and two more as the hard one. -/
def RlimitExact (mibs : ℕ) : Prop :=
  ∀ refuses limits, setProcessMemMaxRlimit refuses (.specific mibs) = .ok limits →
    limits = (mibs * 2 ^ 20, (mibs + 2) * 2 ^ 20)

theorem asI64_eq_iff {n : ℕ} : asI64 n = n ↔ n < 2 ^ 63 := by
  rw [asI64, BitVec.toInt_eq_toNat_cond, BitVec.toNat_ofNat]
  split <;> omega

/-- A limit the system can be asked for is passed on. -/
theorem setProcessMemMaxRlimit_eq_ok {mibs : ℕ} {limits : ℕ × ℕ} :
    (∃ refuses, setProcessMemMaxRlimit refuses (.specific mibs) = .ok limits) ↔
      limits = memMaxRlimit (.specific mibs) ∧ limits.1 ≤ limits.2 := by
  unfold setProcessMemMaxRlimit setrlimit
  constructor
  · rintro ⟨refuses, h⟩
    split at h
    · cases h
    · split at h
      · cases h
      · obtain rfl := Except.ok.inj h
        exact ⟨rfl, by omega⟩
  · rintro ⟨rfl, hle⟩
    exact ⟨fun _ => none, by rw [if_neg (by omega)]; rfl⟩

theorem rlimitExact_iff {mibs : ℕ} :
    RlimitExact mibs ↔ mibs < 2 ^ 44 ∨ 2 ^ 44 - 2 ≤ mibs % 2 ^ 44 := by
  have hexact : RlimitExact mibs ↔ ((memMaxRlimit (.specific mibs)).1 ≤
      (memMaxRlimit (.specific mibs)).2 →
        memMaxRlimit (.specific mibs) = (mibs * 2 ^ 20, (mibs + 2) * 2 ^ 20)) := by
    constructor
    · intro h hle
      obtain ⟨refuses, hok⟩ := setProcessMemMaxRlimit_eq_ok.mpr ⟨rfl, hle⟩
      exact h refuses _ hok
    · intro h refuses limits hok
      obtain ⟨rfl, hle⟩ := setProcessMemMaxRlimit_eq_ok.mp ⟨refuses, hok⟩
      exact h hle
  rw [hexact, memMaxRlimit, Prod.mk.injEq]
  omega

/-- With a memory controller there is one call. -/
theorem run_setCgroupMemLimit {os : Os} (hmem : os.memController) (name : String) (mibs i : ℕ)
    (m : Machine) :
    let limit := asI64 (mibs * 1024 * 1024)
    os.child.run i (setCgroupMemLimit os name (.specific mibs)) m =
      (os.childFails i).elim (none, m.onCgroup name ({ · with memswapLimit := some limit }))
        fun e => (some ((SysCall.setMemswapLimit name limit).failure e), m) := by
  simp only [setCgroupMemLimit, hmem, if_true, System.run, Os.child, SysCall.outcome]
  cases os.childFails i <;> rfl

theorem memswapLimit_onCgroup {m : Machine} {name : String} (h : (m.cgroups name).isSome)
    (limit : ℤ) : ((m.onCgroup name ({ · with memswapLimit := some limit })).cgroups name).bind
      (·.memswapLimit) = some limit := by
  obtain ⟨g, hg⟩ := Option.isSome_iff_exists.mp h
  simp [Machine.onCgroup, hg]

theorem cgroupExact_iff {memController : Bool} {mibs : ℕ} :
    CgroupExact memController mibs ↔ memController ∧ 0 < mibs ∧ mibs < 2 ^ 43 := by
  have hexact : asI64 (mibs * 1024 * 1024) = (mibs * 2 ^ 20 : ℕ) ↔ mibs < 2 ^ 43 := by
    rw [show mibs * 2 ^ 20 = mibs * 1024 * 1024 by omega, asI64_eq_iff]
    omega
  constructor
  · intro h
    -- a system on which nothing fails, and a cgroup just built
    have hrun := h { plainOs with memController } "db" 0 (plainMachine.addCgroup "db") rfl
      (by simp [Machine.addCgroup])
    cases memController with
    | false => simp [setCgroupMemLimit, plainMachine, Machine.addCgroup, Cgroup.new] at hrun
    | true =>
      rw [run_setCgroupMemLimit rfl] at hrun
      obtain hfail | ⟨hlimit, hpos⟩ := hrun
      · cases hfail
      · dsimp only [plainOs, Option.elim] at hlimit
        rw [memswapLimit_onCgroup (by simp [Machine.addCgroup]), Option.some_inj] at hlimit
        exact ⟨rfl, by omega, hexact.mp hlimit⟩
  · rintro ⟨rfl, hpos, hlt⟩ os name i m hmem hcgroup
    rw [run_setCgroupMemLimit hmem]
    cases os.childFails i with
    | some e => exact Or.inl rfl
    | none =>
      refine Or.inr ⟨?_, by omega⟩
      rw [← hexact.mpr hlt]
      exact memswapLimit_onCgroup hcgroup _

/-- The limits of a number of megabytes are exact or refused exactly when there is a memory
controller and the number is not zero and below `2 ^ 43`. -/
theorem limits_exact_iff (memController : Bool) (mibs : ℕ) :
    CgroupExact memController mibs ∧ RlimitExact mibs ↔
      memController ∧ 0 < mibs ∧ mibs < 2 ^ 43 := by
  rw [cgroupExact_iff, rlimitExact_iff]
  exact and_iff_left_of_imp fun h => Or.inl (by omega)

/-- Below `2 ^ 43`, more megabytes are no smaller limit. -/
theorem limits_mono {mibs mibs' : ℕ} (h : mibs ≤ mibs') (hlt : mibs' < 2 ^ 43) :
    asI64 (mibs * 1024 * 1024) ≤ asI64 (mibs' * 1024 * 1024) ∧
    (memMaxRlimit (.specific mibs)).1 ≤ (memMaxRlimit (.specific mibs')).1 ∧
    (memMaxRlimit (.specific mibs)).2 ≤ (memMaxRlimit (.specific mibs')).2 := by
  rw [asI64_eq_iff.mpr (by omega), asI64_eq_iff.mpr (by omega)]
  simp only [memMaxRlimit]
  omega

/-- The command line takes a limit of `2 ^ 44` megabytes, and the cgroup gets none. -/
theorem memoryLimit_wraps :
    (ResourceLimits.ofArgs ⟨none, none, some "17592186044416", none⟩).memLimit =
      .specific (2 ^ 44) ∧
    asI64 (2 ^ 44 * 1024 * 1024) = 0 ∧ asI64 (2 ^ 43 * 1024 * 1024) = -2 ^ 63 ∧
    ¬(CgroupExact true (2 ^ 44) ∧ RlimitExact (2 ^ 44)) :=
  ⟨by decide +kernel, by decide +kernel, by decide +kernel, fun h =>
    absurd ((limits_exact_iff true _).mp h).2.2 (by decide)⟩

end Yapm
