import Yapm.Spawn

/-!
# What binds a child that runs its program

A child whose branch ends is replaced by the configured program, and every call of
the branch took effect (`machine_of_replaced`). The filter that a child loads is the one of
its security policy (`filter_of_loads`), which has the restrictions a document declares but
for `no_fs` : decoding never reads that key (`enforced_iff`).

The cgroup of its name has the configured limits (`cgroup_of_replaced`), but the child
is not in it : no call of the branch adds a process to a cgroup, so the limits bind the
child for no configuration (`not_limitsBind`).
-/

open Serde Seccomp Calls

namespace Yapm

section Replaced

variable {os : Os} {config : ProcessConfig} {child : Pid} {m : Machine}

/-- A child that is replaced made every call of its branch. -/
theorem machine_of_replaced
    (h : (createChildExecContextFromConfig os config child m).child = some .replaced) :
    (createChildExecContextFromConfig os config child m).machine =
      os.child.perform (childBranch os config) m := by
  rcases setup_run os m with ⟨hrun, -⟩ | ⟨⟨e, hrun⟩, -⟩
  · simp only [createChildExecContextFromConfig, hrun, Option.some_inj] at h ⊢
    refine System.run_snd_of_none _ ?_
    cases hf : (os.child.run setup.length (childBranch os config) m).1 with
    | none => rfl
    | some f => rw [hf] at h; cases f <;> cases h
  · simp [createChildExecContextFromConfig, hrun] at h

/-! ## The filter -/

/-- Requests to libseccomp only change the filter being built. -/
theorem perform_seccomp (os : Os) : ∀ (steps : List SeccompStep) (m : Machine)
    (ctx : ScmpFilterContext String), m.context = some ctx →
      os.child.perform (steps.map .seccomp) m =
        { m with context := some { ctx with rules := ctx.rules ++ rulesOf steps } }
  | [], m, ctx, h => by
    simp only [List.map_nil, System.perform, List.foldl_nil, rulesOf, List.filterMap_nil,
      List.append_nil]
    rw [← h]
  | step :: steps, m, ctx, h => by
    have ih := perform_seccomp os steps (SysCall.effect (.seccomp step) m)
      { ctx with rules := ctx.rules ++ rulesOf [step] } (by simp [SysCall.effect, h])
    simp only [List.map_cons, System.perform, List.foldl_cons] at ih ⊢
    rw [show os.child.effect = SysCall.effect from rfl] at ih ⊢
    rw [ih]
    simp only [SysCall.effect, List.append_assoc, ← rulesOf_append, List.singleton_append]

/-- The processes part, and no call of the child fails up to the load of its filter. -/
def Os.LoadsFilter (os : Os) (config : ProcessConfig) : Prop :=
  os.Forks ∧ ∀ k < (confine os config).length, os.childFails (setup.length + k) = none

/-- A child that has loaded its filter stays under the one of the security policy, whatever
becomes of it. -/
theorem filter_of_loads (h : os.LoadsFilter config) :
    (createChildExecContextFromConfig os config child m).machine.filter =
      some (securityContext config.security) := by
  rcases setup_run os m with ⟨hrun, -⟩ | ⟨-, hforks⟩
  · have hconfine := System.run_of_serves os.child (confine os config) setup.length m
      ((serves_confine_iff os config).mpr h.2)
    have hreplace : ∀ c ∈ replace os config, ∀ m : Machine,
        m.filter = some (securityContext config.security) →
          (os.child.effect c m).filter = some (securityContext config.security) := by
      intro c hc m hm
      simp only [replace, List.mem_append, List.mem_map, List.mem_cons, List.not_mem_nil,
        or_false] at hc
      rcases hc with ((rfl | rfl | rfl) | ⟨arg, -, rfl⟩) | rfl <;> exact hm
    simp only [createChildExecContextFromConfig, hrun, childBranch, System.run_append, hconfine]
    refine System.run_preserves _ ?_ hreplace
    rw [confine, System.perform_append, System.perform_append, System.perform_append]
    generalize os.child.perform _ m = m'
    rw [perform_seccomp os _ _ initSeccompContext rfl]
    rfl
  · exact absurd h.1 hforks

/-! ## Limits -/

/-- The cgroup has the limits of the resources. -/
structure Cgroup.HasLimits (g : Cgroup) (isRoot : Bool) (resources : ResourceLimits) : Prop where
  unlimited : resources.memLimit = .unlimited → g.memLimit = some (-1)
  specific : ∀ mibs, resources.memLimit = .specific mibs →
    g.memswapLimit = some (asI64 (mibs * 1024 * 1024))
  period : g.cfsPeriod = some cpuPeriod
  quota : g.cfsQuota = some (cpuQuota isRoot resources.cpuPriority)

/-- The process is in a cgroup with the limits of the resources, and has the file limit
of the resources, if there is one. -/
structure Machine.LimitsBind (m : Machine) (pid : Pid) (isRoot : Bool)
    (resources : ResourceLimits) : Prop where
  cgroup : ∃ name g, m.cgroups name = some g ∧ pid ∈ g.members ∧ g.HasLimits isRoot resources
  nofile : ∀ n, resources.fdLimit = some n → m.nofile pid = fdMaxRlimit n

/-- The process is in no cgroup. -/
def Machine.InNoCgroup (m : Machine) (pid : Pid) : Prop :=
  ∀ name g, m.cgroups name = some g → pid ∉ g.members

/-- A change to one cgroup that adds no member leaves the process in none. -/
theorem inNoCgroup_update {pid : Pid} (hm : m.InNoCgroup pid) (name : String) (g' : Option Cgroup)
    (hg' : ∀ g, g' = some g → pid ∉ g.members) :
    Machine.InNoCgroup { m with cgroups := Function.update m.cgroups name g' } pid := by
  intro name' g hg
  by_cases hname : name' = name
  · subst hname
    exact hg' g (by simpa using hg)
  · exact hm name' g (by simpa [Function.update_of_ne hname] using hg)

/-- No call puts a process in a cgroup. -/
theorem inNoCgroup_effect {pid : Pid} (hm : m.InNoCgroup pid) (c : SysCall) :
    (c.effect m).InNoCgroup pid := by
  have hon (name : String) (f : Cgroup → Cgroup) (hf : ∀ g, (f g).members = g.members) :
      (m.onCgroup name f).InNoCgroup pid := by
    refine inNoCgroup_update hm name _ fun g hg => ?_
    obtain ⟨g₀, hg₀, rfl⟩ := Option.map_eq_some_iff.mp hg
    rw [hf]
    exact hm name g₀ hg₀
  have hadd (name : String) : (m.addCgroup name).InNoCgroup pid := by
    refine inNoCgroup_update hm name _ fun g hg => ?_
    cases hg₀ : m.cgroups name with
    | none =>
      rw [hg₀] at hg
      cases hg
      exact List.not_mem_nil
    | some g₀ =>
      rw [hg₀] at hg
      cases hg
      exact hm name _ hg₀
  cases c with
  | buildCgroup name => exact hadd name
  | createCgroup name => exact hadd name
  | setMemswapLimit name bytes => exact hon name _ fun _ => rfl
  | setLimit name bytes => exact hon name _ fun _ => rfl
  | setCfsPeriod name period => exact hon name _ fun _ => rfl
  | setCfsQuota name quota => exact hon name _ fun _ => rfl
  | _ => exact hm

theorem inNoCgroup_of_replaced {pid : Pid} (hm : m.InNoCgroup pid)
    (h : (createChildExecContextFromConfig os config child m).child = some .replaced) :
    (createChildExecContextFromConfig os config child m).machine.InNoCgroup pid := by
  rw [machine_of_replaced h]
  exact System.perform_preserves (P := fun m : Machine => m.InNoCgroup pid) _ hm fun c _ m hm =>
    inNoCgroup_effect hm c

/-- No call sets a file limit. -/
theorem nofile_of_replaced
    (h : (createChildExecContextFromConfig os config child m).child = some .replaced) :
    (createChildExecContextFromConfig os config child m).machine.nofile = m.nofile := by
  rw [machine_of_replaced h]
  refine System.perform_preserves (P := fun m' : Machine => m'.nofile = m.nofile) _ rfl
    fun c _ m' hm' => ?_
  cases c <;> exact hm'

/-- The limits bind the child for no configuration : it is in no cgroup. -/
theorem not_limitsBind (hfresh : m.InNoCgroup child)
    (h : (createChildExecContextFromConfig os config child m).child = some .replaced) :
    ¬(createChildExecContextFromConfig os config child m).machine.LimitsBind child os.isRoot
      config.resources := by
  rintro ⟨⟨name, g, hg, hmem, -⟩, -⟩
  exact inNoCgroup_of_replaced hfresh h name g hg hmem

/-- A change to one cgroup. -/
theorem onCgroup_cgroups {name : String} {g : Cgroup} (h : m.cgroups name = some g)
    (f : Cgroup → Cgroup) : (m.onCgroup name f).cgroups name = some (f g) := by
  simp [Machine.onCgroup, h]

/-- Setting up a cgroup gives it the limits of the resources. -/
theorem hasLimits_of_setup (config : ProcessConfig) (hmem : os.memController)
    (hcpu : os.cpuController) :
    ∃ g, (os.child.perform (initCgroupContext config.name ++
        setCgroupMemLimit os config.name config.resources.memLimit ++
        setCgroupCpuLimit os config.name config.resources.cpuPriority) m).cgroups config.name =
      some g ∧ g.HasLimits os.isRoot config.resources := by
  simp only [initCgroupContext, setCgroupMemLimit, setCgroupCpuLimit, if_pos hmem, if_pos hcpu,
    System.perform_append]
  have hbuild : (m.addCgroup config.name).cgroups config.name =
      some ((m.cgroups config.name).getD .new) := by
    simp [Machine.addCgroup]
  cases hres : config.resources.memLimit with
  | unlimited =>
    refine ⟨_, onCgroup_cgroups (onCgroup_cgroups (onCgroup_cgroups hbuild _) _) _,
      fun _ => rfl, fun mibs h => ?_, rfl, rfl⟩
    simp [hres] at h
  | specific mibs =>
    refine ⟨_, onCgroup_cgroups (onCgroup_cgroups (onCgroup_cgroups hbuild _) _) _,
      fun h => ?_, fun mibs' h => ?_, rfl, rfl⟩
    · simp [hres] at h
    · obtain rfl := MemReqs.specific.inj (hres.symm.trans h)
      rfl

/-- The cgroup of the child's name has the limits of the resources. -/
theorem cgroup_of_replaced (hmem : os.memController) (hcpu : os.cpuController)
    (h : (createChildExecContextFromConfig os config child m).child = some .replaced) :
    ∃ g, (createChildExecContextFromConfig os config child m).machine.cgroups config.name =
      some g ∧ g.HasLimits os.isRoot config.resources := by
  have hsplit : childBranch os config =
      ([.dup2 .stderr, .dup2 .stdout] ++ (config.cwd.map SysCall.setCurrentDir).toList) ++
      (initCgroupContext config.name ++
        setCgroupMemLimit os config.name config.resources.memLimit ++
        setCgroupCpuLimit os config.name config.resources.cpuPriority) ++
      (loadCgroupContext config.name ++ [.newSeccompContext, .addArch] ++
        (securitySteps config.security).map .seccomp ++ [.loadSeccomp] ++ replace os config) := by
    simp only [childBranch, confine, List.append_assoc]
  have hsetup := hasLimits_of_setup (m := os.child.perform
    ([.dup2 .stderr, .dup2 .stdout] ++ (config.cwd.map SysCall.setCurrentDir).toList) m)
    config hmem hcpu
  rw [← System.perform_append] at hsetup
  rw [machine_of_replaced h, hsplit, System.perform_append]
  refine System.perform_preserves (P := fun m : Machine => ∃ g, m.cgroups config.name = some g ∧
    g.HasLimits os.isRoot config.resources) _ hsetup ?_
  rintro c hc m ⟨g, hg, hlimits⟩
  simp only [loadCgroupContext, replace, List.mem_append, List.mem_map, List.mem_cons,
    List.not_mem_nil, or_false] at hc
  rcases hc with (((rfl | rfl | rfl) | ⟨step, -, rfl⟩) | rfl) |
    (((rfl | rfl | rfl) | ⟨arg, -, rfl⟩) | rfl)
  case inl.inl.inl.inl =>
    refine ⟨g, ?_, hlimits⟩
    simp [Os.child, SysCall.effect, Machine.addCgroup, hg]
  all_goals exact ⟨g, hg, hlimits⟩

end Replaced

theorem plainMachine_inNoCgroup (pid : Pid) : plainMachine.InNoCgroup pid := by
  intro name g hg
  cases hg

/-- A light process is limited to 32 files, and runs with as many as the daemon. -/
theorem light_limits_unbound :
    let config := { plainConfig with resources := .fromProfile .light }
    let s := createChildExecContextFromConfig plainOs config 4242 plainMachine
    s.child = some .replaced ∧ s.machine.nofile 4242 = (1024, 4096) ∧
      ¬s.machine.LimitsBind 4242 true config.resources := by
  refine ⟨rfl, rfl, fun h => ?_⟩
  have hfiles := h.nofile 32 rfl
  cases hfiles

/-- A process without limits of its own is in no cgroup either. -/
theorem plain_limits_unbound :
    ¬(createChildExecContextFromConfig plainOs plainConfig 4242 plainMachine).machine.LimitsBind
      4242 true plainConfig.resources :=
  not_limitsBind (plainMachine_inNoCgroup 4242) rfl

/-! ## Declared restrictions -/

/-- The restriction keys of a `[security]` table whose functions add unconditional rules. -/
inductive RestrictionKey
  | noNet
  | noFs
  | readOnlyFs
  | noProcess
  | noIpc
  | noSysman
deriving DecidableEq, Repr

namespace RestrictionKey

def toml : RestrictionKey → String
  | noNet => "no_net"
  | noFs => "no_fs"
  | readOnlyFs => "read_only_fs"
  | noProcess => "no_process"
  | noIpc => "no_ipc"
  | noSysman => "no_sysman"

/-- The flag of the policy. -/
def flag (sec : SecurityPolicy) : RestrictionKey → Bool
  | noNet => sec.noNet
  | noFs => sec.noFs
  | readOnlyFs => sec.readOnlyFs
  | noProcess => sec.noProcess
  | noIpc => sec.noIpc
  | noSysman => sec.noSysman

/-- The requests of the key's function. -/
def steps (policy : DisobeyPolicy) : RestrictionKey → List SeccompStep
  | noNet => seccompNoNet policy
  | noFs => seccompNoFs policy
  | readOnlyFs => seccompReadonlyFs policy
  | noProcess => seccompNoProc policy
  | noIpc => seccompNoIpc policy
  | noSysman => seccompNoSys policy

/-- The document sets the key to `true`. -/
def Declared (key : RestrictionKey) (doc : Value) : Prop :=
  ∃ es sec, doc = .table es ∧ es.lookup "security" = some (.table sec) ∧
    sec.lookup key.toml = some (.bool true)

end RestrictionKey

/-- The filter denies with `EPERM` every call on which the function of a declared key has
an unconditional rule. -/
def Enforced (doc : Value) (filter : ScmpFilterContext String) : Prop :=
  ∀ key : RestrictionKey, key.Declared doc → ∀ s args,
    ⟨.errno eperm, s, []⟩ ∈ rulesOf (key.steps .noPerm) → filter.verdict s args = .errno eperm

theorem fieldOpt_of_true {es : List (String × Value)} {key : String}
    (h : es.lookup key = some (.bool true)) :
    fieldOpt Decoder.bool es key = .ok (some true) := by
  rw [fieldOpt, fieldD, h]
  rfl

/-- Decoding reads every restriction that is set to `true` but `no_fs`. -/
theorem flag_of_declared {doc : Value} {config : ProcessConfig}
    (h : ProcessConfig.deserialize doc = .ok config) {key : RestrictionKey}
    (hkey : key.Declared doc) (hfs : key ≠ .noFs) : key.flag config.security := by
  obtain ⟨es, sec, rfl, hes, hsec⟩ := hkey
  obtain ⟨es', hes', -, -, hdec⟩ := ProcessConfig.deserialize_eq_ok h
  obtain rfl := Value.table.inj hes'
  simp only [fieldD, hes, SecurityPolicy.deserialize, RawSecurityPolicy.decode, Decoder.struct,
    map_eq_ok, bind_eq_ok] at hdec
  obtain ⟨raw, ⟨profile, -, noNet, hnet, noFs, -, readOnlyFs, hro, noProcess, hproc, noThread, -,
    noIpc, hipc, noSysman, hsys, hraw⟩, hpolicy⟩ := hdec
  cases hraw
  rw [← hpolicy]
  have hval {name : String} {o : Option Bool} (hl : sec.lookup name = some (.bool true))
      (hf : fieldOpt Decoder.bool sec name = .ok o) : o = some true :=
    (Except.ok.inj ((fieldOpt_of_true hl).symm.trans hf)).symm
  cases key with
  | noNet => simp [RestrictionKey.flag, SecurityPolicy.ofRaw, hval hsec hnet]
  | noFs => exact absurd rfl hfs
  | readOnlyFs => simp [RestrictionKey.flag, SecurityPolicy.ofRaw, hval hsec hro]
  | noProcess => simp [RestrictionKey.flag, SecurityPolicy.ofRaw, hval hsec hproc]
  | noIpc => simp [RestrictionKey.flag, SecurityPolicy.ofRaw, hval hsec hipc]
  | noSysman => simp [RestrictionKey.flag, SecurityPolicy.ofRaw, hval hsec hsys]

/-- Without the flag, nothing denies `stat`. -/
theorem stat_allowed {sec : SecurityPolicy} (h : sec.noFs = false) (args : Args) :
    (securityContext sec).verdict "stat" args = .allow := by
  refine ScmpFilterContext.verdict_of_forall_ne fun r hr hstat => ?_
  have hnot {syscalls : List String} (hmem : r ∈ rulesOf (addRules .noPerm syscalls))
      (hout : "stat" ∉ syscalls) : False := by
    obtain ⟨s, hs, rfl⟩ := mem_rulesOf_addRules.mp hmem
    exact hout (hstat ▸ hs)
  rcases mem_securityContext.mp hr with
    ⟨-, hr⟩ | ⟨hfs, -⟩ | ⟨-, hr⟩ | ⟨-, hr⟩ | ⟨-, hr⟩ | ⟨-, hr⟩ | ⟨-, hr⟩
  · exact hnot hr (by decide)
  · rw [h] at hfs
    cases hfs
  · have hwrite := (mem_seccompReadonlyFs hr).2
    rw [hstat] at hwrite
    exact absurd hwrite (by decide)
  · rcases mem_seccompNoProc.mp hr with rfl | ⟨s, hs, rfl⟩
    · exact absurd hstat (by decide)
    · have hs' : s = "stat" := hstat
      rw [hs'] at hs
      exact absurd hs (by decide)
  · rw [mem_seccompNoThread.mp hr] at hstat
    exact absurd hstat (by decide)
  · exact hnot hr (by decide)
  · exact hnot hr (by decide)

theorem stat_mem_noFs : (⟨.errno eperm, "stat", []⟩ : Rule String) ∈
    rulesOf (RestrictionKey.noFs.steps .noPerm) :=
  mem_rulesOf_addRules.mpr ⟨"stat", by decide, rfl⟩

/-- The flag of a key puts the rules of its function into the filter. -/
theorem mem_of_flag {sec : SecurityPolicy} {key : RestrictionKey} {r : Rule String}
    (hfs : sec.noFs = false) (hflag : key.flag sec) (hr : r ∈ rulesOf (key.steps .noPerm)) :
    r ∈ (securityContext sec).rules := by
  rw [mem_securityContext]
  cases key with
  | noNet => exact .inl ⟨hflag, hr⟩
  | noFs => exact .inr (.inl ⟨hflag, hr⟩)
  | readOnlyFs => exact .inr (.inr (.inl ⟨⟨by simp [hfs], hflag⟩, hr⟩))
  | noProcess => exact .inr (.inr (.inr (.inl ⟨hflag, hr⟩)))
  | noIpc => exact .inr (.inr (.inr (.inr (.inr (.inl ⟨hflag, hr⟩)))))
  | noSysman => exact .inr (.inr (.inr (.inr (.inr (.inr ⟨hflag, hr⟩)))))

/-- The filter that the child loads enforces what the document declares exactly when the
document does not declare `no_fs`. -/
theorem enforced_iff {os : Os} {doc : Value} {config : ProcessConfig} {child : Pid} {m : Machine}
    (hdoc : ProcessConfig.deserialize doc = .ok config) (h : os.LoadsFilter config) :
    (∃ filter, (createChildExecContextFromConfig os config child m).machine.filter = some filter ∧
      Enforced doc filter) ↔ ¬RestrictionKey.noFs.Declared doc := by
  rw [filter_of_loads h]
  simp only [Option.some_inj, exists_eq_left']
  have hfs := noFs_eq_false hdoc
  constructor
  · intro henforced hdeclared
    have hdenied := henforced .noFs hdeclared "stat" (fun _ => 0) stat_mem_noFs
    rw [stat_allowed hfs] at hdenied
    cases hdenied
  · intro hnot key hkey s args hrule
    have hkeyfs : key ≠ .noFs := by
      rintro rfl
      exact hnot hkey
    exact verdict_eq_eperm args (mem_of_flag hfs (flag_of_declared hdoc hkey hkeyfs) hrule)

/-- A process named `db` with one restriction switched on. -/
def restrictedDoc (key : RestrictionKey) : Value :=
  .table [("name", .str "db"), ("command", .str "/usr/bin/db"),
    ("security", .table [(key.toml, .bool true)])]

/-- A document declares `no_fs`, and its process may call `stat`. -/
theorem noFs_not_enforced :
    ProcessConfig.deserialize (restrictedDoc .noFs) = .ok plainConfig ∧
    RestrictionKey.noFs.Declared (restrictedDoc .noFs) ∧
    ∃ filter,
      (createChildExecContextFromConfig plainOs plainConfig 4242 plainMachine).machine.filter =
        some filter ∧
      filter.verdict "stat" (fun _ => 0) = .allow ∧ ¬Enforced (restrictedDoc .noFs) filter := by
  have hdeclared : RestrictionKey.noFs.Declared (restrictedDoc .noFs) := ⟨_, _, rfl, rfl, rfl⟩
  refine ⟨rfl, hdeclared, _, rfl, by decide, fun h => ?_⟩
  have hdenied := h .noFs hdeclared "stat" (fun _ => 0) stat_mem_noFs
  exact absurd hdenied (by decide)

/-- A read-only file system is enforced. -/
theorem readOnlyFs_enforced :
    let config :=
      { plainConfig with security := { SecurityPolicy.default with readOnlyFs := true } }
    ∃ filter,
      (createChildExecContextFromConfig plainOs config 4242 plainMachine).machine.filter =
        some filter ∧ Enforced (restrictedDoc .readOnlyFs) filter := by
  refine (enforced_iff rfl ⟨⟨rfl, rfl, rfl⟩, fun _ _ => rfl⟩).mpr ?_
  rintro ⟨es, sec, hes, hsec, hkey⟩
  cases hes
  cases hsec
  cases hkey

end Yapm
