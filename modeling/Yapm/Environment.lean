import Yapm.Confinement
import Yapm.Logging
import Yapm.Maps
import Mathlib.Data.List.TakeWhile

/-!
# The environment of a child

The variables a client gives with `-e` are split at their first `=` (`parseKvPair`),
collected into the configuration, put into the variables of the daemon (`finalEnv`) and
rendered again (`buildEnvp`). A child that splits what it is handed in the same way should
read the last value given for a variable, and the daemon's value of any other (`ChildSees`).

The daemon's variables are bytes, and `envVars` takes them for text : it panics at one that is
not Unicode, skips one with an empty name, and takes that for the name what comes before a
second `=`. So the child sees what it should exactly when all that is read is Unicode, and an
empty name is given exactly when the daemon's value of it has no `=` (`seesRight_iff`).

Both maps are walked in an order of their own. What the child sees does not depend on it
(`finalEnv_eq_union`), so it is what the calls of the spawn hand over
(`image_of_replaced`).

A client shows some variables of the configuration and counts the others. The subtraction
this takes is safe because no listed key is repeated (`forall_additionalVars_iff`).
-/

open Calls Maps

namespace Yapm

/-! ## Pairs -/

/-- `parse_kv_pair`. -/
def parseKvPair (s : String) : Except String (String × String) :=
  match Text.splitFirst (· = '=') s.toList with
  | some (key, value) => .ok (String.ofList key, String.ofList value)
  | none => .error "Invalid KEY=VALUE pairing structure"

/-- The values of `-e`, or the error of the first one that is refused. -/
def parseEnvArgs (es : List String) : Except String (List (String × String)) :=
  Text.collect (es.map parseKvPair)

def render (kv : String × String) : String :=
  kv.1 ++ "=" ++ kv.2

theorem parseKvPair_eq_ok_iff {s : String} {kv : String × String} :
    parseKvPair s = .ok kv ↔ s = render kv ∧ '=' ∉ kv.1.toList := by
  have hsplit : parseKvPair s = .ok kv ↔
      Text.splitFirst (· = '=') s.toList = some (kv.1.toList, kv.2.toList) := by
    unfold parseKvPair
    cases Text.splitFirst (· = '=') s.toList with
    | none => simp
    | some split =>
      obtain ⟨key, value⟩ := split
      obtain ⟨k, v⟩ := kv
      simp [← String.toList_inj]
  rw [hsplit, Text.splitFirst_eq_some_iff, ← String.toList_inj]
  simp only [render, String.toList_append, decide_eq_true_eq, decide_eq_false_iff_not]
  constructor
  · rintro ⟨sep, rfl, hs, hkey⟩
    refine ⟨by simp [hs], fun h => hkey _ h rfl⟩
  · rintro ⟨hs, hkey⟩
    exact ⟨'=', rfl, by simp [hs], fun c hc heq => hkey (heq ▸ hc)⟩

theorem parseEnvArgs_eq_ok_iff {es : List String} {kvs : List (String × String)} :
    parseEnvArgs es = .ok kvs ↔ es = kvs.map render ∧ ∀ kv ∈ kvs, '=' ∉ kv.1.toList := by
  rw [parseEnvArgs, Text.collect_eq_ok_iff]
  induction es generalizing kvs with
  | nil => cases kvs <;> simp
  | cons e es ih =>
    cases kvs with
    | nil => simp
    | cons kv kvs =>
      rw [List.map_cons, List.map_cons, List.cons_eq_cons, ih, parseKvPair_eq_ok_iff,
        List.map_cons, List.cons_eq_cons, List.forall_mem_cons]
      tauto

/-! ## The final environment -/

/-- The variables of the configuration, in some order, put into those of the daemon. -/
def finalEnv (vars env : List (String × String)) : Env :=
  env.foldl (fun finalEnv kv => finalEnv.insert kv.1 kv.2) (.collect vars)

/-- `CString::new(..).unwrap()`. -/
def cstring (s : String) : Except String String :=
  if hasNul s then .error "called `Result::unwrap()` on an `Err` value" else .ok s

/-- The strings handed to `execvpe`, or the panic of the child. -/
def buildEnvp (finalEnv : List (String × String)) : Except String (List String) :=
  Text.collect (finalEnv.map fun kv => cstring (render kv))

theorem cstring_eq_ok_iff {s t : String} : cstring s = .ok t ↔ hasNul s = false ∧ s = t := by
  unfold cstring
  cases hasNul s <;> simp

theorem buildEnvp_of_forall {kvs : List (String × String)}
    (h : ∀ kv ∈ kvs, hasNul (render kv) = false) : buildEnvp kvs = .ok (kvs.map render) := by
  rw [buildEnvp, Text.collect_eq_ok_iff, List.map_map]
  exact List.map_congr_left fun kv hkv => cstring_eq_ok_iff.mpr ⟨h kv hkv, rfl⟩

/-- The child panics when a variable has a nul byte. -/
theorem exists_buildEnvp_iff {kvs : List (String × String)} :
    (∃ envp, buildEnvp kvs = .ok envp) ↔ ∀ kv ∈ kvs, hasNul (render kv) = false := by
  constructor
  · rintro ⟨envp, h⟩ kv hkv
    rw [buildEnvp, Text.collect_eq_ok_iff] at h
    have hmem := List.mem_map_of_mem (f := fun kv => cstring (render kv)) hkv
    rw [h, List.mem_map] at hmem
    obtain ⟨s, -, hs⟩ := hmem
    exact (cstring_eq_ok_iff.mp hs.symm).1
  · intro h
    exact ⟨_, buildEnvp_of_forall h⟩

section Spawn

variable {os : Os} {config : ProcessConfig} {vars env : List (String × String)}

/-- The order in which the configuration is walked makes no difference. -/
theorem finalEnv_eq_union {m : Env} (henv : Walks m env) :
    finalEnv vars env = m ∪ .collect vars :=
  extend_walk henv

/-- The strings can be built when the call that converts them does not panic. -/
theorem exists_buildEnvp_iff_outcome {m : Env} {kvs : List (String × String)} (h : Walks m kvs)
    (fails : ℕ → Option OsError) (i : ℕ) :
    (∃ envp, buildEnvp kvs = .ok envp) ↔ SysCall.outcome fails i (.cstringEnv m) = none := by
  rw [exists_buildEnvp_iff, SysCall.outcome, h.any_eq]
  simp [render]

/-- A child that is replaced was handed the final environment. -/
theorem image_of_replaced {child : Pid} {m : Machine} (hvars : envVars os.environ = .ok vars)
    (henv : Walks config.env env)
    (h : (createChildExecContextFromConfig os config child m).child = some .replaced) :
    (createChildExecContextFromConfig os config child m).machine.image =
      some ⟨config.command, config.command :: config.args, finalEnv vars env⟩ := by
  have hos : os.vars = vars := by rw [Os.vars, hvars]
  rw [machine_of_replaced h, childBranch, replace, finalEnv_eq_union henv, hos,
    System.perform_append, System.perform_append]
  rfl

end Spawn

/-! ## Variables as bytes -/

/-- A variable as an entry of `environ`. -/
def entryOf (var : List UInt8 × List UInt8) : List UInt8 :=
  var.1 ++ equalsSign :: var.2

/-- An entry split at its first `=`. -/
def readEntry (entry : List UInt8) : List UInt8 × List UInt8 :=
  (Text.splitFirst (· = equalsSign) entry).getD (entry, [])

def pairBytes (kv : String × String) : List UInt8 × List UInt8 :=
  (asBytes kv.1, asBytes kv.2)

theorem equalsSign_mem_iff {s : String} : equalsSign ∈ asBytes s ↔ '=' ∈ s.toList := by
  rw [asBytes_eq_encode, Utf8.ascii_mem_encode_iff (by decide)]
  constructor
  · rintro ⟨c, hc, heq⟩
    obtain rfl : c = '=' := Char.toNat_inj.mp heq
    exact hc
  · intro h
    exact ⟨'=', h, rfl⟩

theorem hasNul_eq_false_iff {s : String} : hasNul s = false ↔ 0 ∉ asBytes s := by
  rw [asBytes_eq_encode, Utf8.ascii_mem_encode_iff (by decide), hasNul, ← Bool.not_eq_true,
    List.contains_iff_mem, not_iff_not]
  constructor
  · intro h
    exact ⟨'\x00', h, rfl⟩
  · rintro ⟨c, hc, heq⟩
    obtain rfl : c = '\x00' := Char.toNat_inj.mp heq
    exact hc

theorem pairBytes_injective : Function.Injective pairBytes := by
  rintro ⟨k, v⟩ ⟨k', v'⟩ h
  obtain ⟨hk, hv⟩ := Prod.mk.inj h
  exact Prod.ext (asBytes_inj.mp hk) (asBytes_inj.mp hv)

theorem asBytes_render (kv : String × String) : asBytes (render kv) = entryOf (pairBytes kv) := by
  have hsign : asBytes "=" = [equalsSign] := by
    rw [asBytes_eq_encode]
    rfl
  rw [render, asBytes_append, asBytes_append, hsign, List.append_assoc]
  rfl

theorem mem_keys_pairBytes_iff {given : List (String × String)} {key : String} :
    asBytes key ∈ (given.map pairBytes).map Prod.fst ↔ key ∈ given.map Prod.fst := by
  have hkeys : (given.map pairBytes).map Prod.fst = (given.map Prod.fst).map asBytes := by
    simp [pairBytes]
  rw [hkeys, List.mem_map_of_injective fun _ _ h => asBytes_inj.mp h]

theorem asBytes_empty : asBytes "" = [] := by
  rw [asBytes_eq_encode]
  rfl

/-- A name without an `=` is read back. -/
theorem readEntry_entryOf {var : List UInt8 × List UInt8} (h : equalsSign ∉ var.1) :
    readEntry (entryOf var) = var := by
  have hsplit : Text.splitFirst (· = equalsSign) (entryOf var) = some var :=
    (Text.splitFirst_eq_some_iff _).mpr
      ⟨equalsSign, by simp, rfl, fun b hb => by simpa using ne_of_mem_of_not_mem hb h⟩
  rw [readEntry, hsplit, Option.getD_some]

/-- `vars_os` keeps an entry whole, and has a name for it. -/
theorem splitVar_eq_some_iff {entry : List UInt8} {var : List UInt8 × List UInt8} :
    splitVar entry = some var ↔
      ∃ b name, var.1 = b :: name ∧ equalsSign ∉ name ∧ entry = entryOf var := by
  obtain ⟨name, value⟩ := var
  cases entry with
  | nil => simp [splitVar, entryOf]
  | cons b bs =>
    simp only [splitVar, Option.map_eq_some_iff, Prod.exists, Prod.mk.injEq, entryOf]
    constructor
    · rintro ⟨xs, ys, hsplit, rfl, rfl⟩
      obtain ⟨sep, hsep, rfl, hxs⟩ := (Text.splitFirst_eq_some_iff _).mp hsplit
      obtain rfl : sep = equalsSign := of_decide_eq_true hsep
      exact ⟨b, xs, rfl, fun h => by simpa using hxs _ h, rfl⟩
    · rintro ⟨b', xs, rfl, hxs, heq⟩
      obtain ⟨rfl, rfl⟩ := List.cons.inj heq
      exact ⟨xs, value, (Text.splitFirst_eq_some_iff _).mpr ⟨equalsSign, by simp, rfl,
        fun b hb => by simpa using ne_of_mem_of_not_mem hb hxs⟩, rfl, rfl⟩

/-- A variable with a name is read. -/
theorem splitVar_entryOf {var : List UInt8 × List UInt8} (h : equalsSign ∉ var.1)
    (hne : var.1 ≠ []) : splitVar (entryOf var) = some var := by
  obtain ⟨b, name, hname⟩ := List.exists_cons_of_ne_nil hne
  exact splitVar_eq_some_iff.mpr ⟨b, name, hname, fun hmem => h (hname ▸ .tail b hmem), rfl⟩

/-- The name a variable has is what the name it is read with has before an `=`. -/
theorem name_of_splitVar {var read : List UInt8 × List UInt8} (h : equalsSign ∉ var.1)
    (hread : splitVar (entryOf var) = some read) :
    var.1 = read.1.takeWhile (· ≠ equalsSign) := by
  have hbefore : ∀ name value : List UInt8, (name ++ equalsSign :: value).takeWhile
      (· ≠ equalsSign) = name.takeWhile (· ≠ equalsSign) := by
    intro name value
    induction name with
    | nil => simp
    | cons b name ih => simp only [List.cons_append, List.takeWhile_cons, ih]
  obtain ⟨-, -, -, -, heq⟩ := splitVar_eq_some_iff.mp hread
  have hall : var.1.takeWhile (· ≠ equalsSign) = var.1 :=
    List.takeWhile_eq_self_iff.mpr fun b hb => by simpa using ne_of_mem_of_not_mem hb h
  rw [← hbefore read.1 read.2, ← hall, ← hbefore var.1 var.2]
  exact congrArg _ heq

/-- A variable is skipped when its name is empty and its value has no `=`. -/
theorem exists_splitVar_iff {var : List UInt8 × List UInt8} (h : equalsSign ∉ var.1) :
    (∃ read, splitVar (entryOf var) = some read) ↔ var.1 ≠ [] ∨ equalsSign ∈ var.2 := by
  obtain ⟨name, value⟩ := var
  cases name with
  | nil =>
    simp only [entryOf, List.nil_append, splitVar, Option.map_eq_some_iff, ne_eq,
      not_true_eq_false, false_or]
    constructor
    · rintro ⟨-, ⟨xs, ys⟩, hsplit, -⟩
      obtain ⟨sep, hsep, rfl, -⟩ := (Text.splitFirst_eq_some_iff _).mp hsplit
      obtain rfl : sep = equalsSign := of_decide_eq_true hsep
      simp
    · intro hmem
      obtain ⟨xs, ys, rfl, hxs⟩ := List.eq_append_cons_of_mem hmem
      exact ⟨_, (xs, ys), (Text.splitFirst_eq_some_iff _).mpr ⟨equalsSign, by simp, rfl,
        fun b hb => by simpa using ne_of_mem_of_not_mem hb hxs⟩, rfl⟩
  | cons b name =>
    exact iff_of_true ⟨_, splitVar_entryOf h (List.cons_ne_nil b name)⟩
      (Or.inl (List.cons_ne_nil b name))

theorem unicodeVar_eq_ok_iff {var : List UInt8 × List UInt8} {kv : String × String} :
    unicodeVar var = .ok kv ↔ var = pairBytes kv := by
  have hboth : unicodeVar var = .ok kv ↔
      Utf8.decode var.1 = some kv.1 ∧ Utf8.decode var.2 = some kv.2 := by
    rw [unicodeVar]
    cases Utf8.decode var.1 <;> cases Utf8.decode var.2 <;> simp [Prod.ext_iff]
  rw [hboth, decode_eq_some_iff, decode_eq_some_iff, Prod.ext_iff]
  rfl

/-- The variables are those that are read, as text. -/
theorem envVars_eq_ok_iff {environ : List (List UInt8)} {vars : List (String × String)} :
    envVars environ = .ok vars ↔ environ.filterMap splitVar = vars.map pairBytes := by
  rw [envVars, Text.collect_eq_ok_iff]
  generalize environ.filterMap splitVar = read
  induction read generalizing vars with
  | nil => cases vars <;> simp
  | cons var read ih => cases vars <;> simp [ih, unicodeVar_eq_ok_iff]

/-! ## What the child sees -/

/-- The pairs a process reads, when its parent has some and it is given others. -/
structure ChildSees {κ ν : Type} (parent given kvs : List (κ × ν)) : Prop where
  /-- The last value given for a key. -/
  last : ∀ before key value after, given = before ++ (key, value) :: after →
    key ∉ after.map Prod.fst → (key, value) ∈ kvs
  inherited : ∀ kv ∈ parent, kv.1 ∉ given.map Prod.fst → kv ∈ kvs
  once : (kvs.map Prod.fst).Nodup
  only : ∀ key ∈ kvs.map Prod.fst, key ∈ given.map Prod.fst ∨ key ∈ parent.map Prod.fst

/-- The child can be handed its environment, whatever order the maps are walked in, and sees in
it what it should. -/
def SeesRight (parent : List (List UInt8 × List UInt8)) (given env : List (String × String)) :
    Prop :=
  ∃ vars, envVars (parent.map entryOf) = .ok vars ∧ ∀ kvs, Walks (finalEnv vars env) kvs →
    ∃ envp, buildEnvp kvs = .ok envp ∧
      ChildSees parent (given.map pairBytes) (envp.map fun e => readEntry (asBytes e))

/-- Every variable that is read is Unicode, and an empty name is given exactly when the value it
has in the parent has no `=`. -/
structure ReadsWhole (parent : List (List UInt8 × List UInt8)) (given : List (String × String)) :
    Prop where
  unicode : Unicode (parent.map entryOf)
  unnamed : ∀ value, ([], value) ∈ parent → (equalsSign ∈ value ↔ "" ∉ given.map Prod.fst)

theorem exists_walks {κ ν : Type} (m : Finmap fun _ : κ => ν) : ∃ kvs, Walks m kvs := by
  obtain ⟨entries, hentries⟩ := Quot.exists_rep m.entries
  refine ⟨entries.map fun e => (e.1, e.2), ?_⟩
  rw [Walks, List.map_map, ← hentries]
  exact congrArg _ (List.map_id entries).symm

theorem collect_eq_extend {given : List (String × String)} :
    Env.collect given = extend ∅ given := rfl

theorem mem_collect_iff {given : List (String × String)} {key : String} :
    key ∈ Env.collect given ↔ key ∈ given.map Prod.fst := by
  simp [collect_eq_extend, mem_extend, Finmap.notMem_empty]

section Sees

variable {parent : List (List UInt8 × List UInt8)} {given vars env kvs : List (String × String)}
  {kv : String × String}

/-- Every pair of the final environment was given, or is a variable whose name was not. -/
theorem mem_finalEnv (henv : Walks (Env.collect given) env) (hkvs : Walks (finalEnv vars env) kvs)
    (hkv : kv ∈ kvs) : kv ∈ given ∨ kv ∈ vars ∧ kv.1 ∉ given.map Prod.fst := by
  have hlookup := hkvs.mem_iff.mp hkv
  rw [finalEnv_eq_union henv] at hlookup
  have hcollect {l : List (String × String)} (h : (Env.collect l).lookup kv.1 = some kv.2) :
      kv ∈ l :=
    (mem_or_of_lookup_extend h).resolve_right (by simp)
  by_cases hmem : kv.1 ∈ Env.collect given
  · rw [Finmap.lookup_union_left hmem] at hlookup
    exact Or.inl (hcollect hlookup)
  · rw [Finmap.lookup_union_right hmem] at hlookup
    exact Or.inr ⟨hcollect hlookup, fun h => hmem (mem_collect_iff.mpr h)⟩

/-- The last value given for a name is in the final environment. -/
theorem mem_finalEnv_of_last (henv : Walks (Env.collect given) env)
    (hkvs : Walks (finalEnv vars env) kvs) {before after : List (String × String)}
    (hgiven : given = before ++ kv :: after) (hafter : kv.1 ∉ after.map Prod.fst) : kv ∈ kvs := by
  have hmem : kv.1 ∈ Env.collect given := mem_collect_iff.mpr (by simp [hgiven])
  rw [hkvs.mem_iff, finalEnv_eq_union henv, Finmap.lookup_union_left hmem, hgiven]
  exact lookup_extend_last before kv.2 hafter

/-- So is some value of every name that is given. -/
theorem exists_mem_finalEnv (henv : Walks (Env.collect given) env)
    (hkvs : Walks (finalEnv vars env) kvs) {key : String} (h : key ∈ given.map Prod.fst) :
    ∃ value, (key, value) ∈ kvs := by
  have hmem : key ∈ kvs.map Prod.fst := by
    rw [hkvs.mem_keys_iff, finalEnv_eq_union henv, Finmap.mem_union, mem_collect_iff]
    exact Or.inl h
  obtain ⟨⟨_, value⟩, hkv, rfl⟩ := List.mem_map.mp hmem
  exact ⟨value, hkv⟩

/-- A variable whose name is not given is in the final environment. -/
theorem mem_finalEnv_of_vars (henv : Walks (Env.collect given) env)
    (hkvs : Walks (finalEnv vars env) kvs) (hnodup : (vars.map Prod.fst).Nodup) (hkv : kv ∈ vars)
    (hnot : kv.1 ∉ given.map Prod.fst) : kv ∈ kvs := by
  have hmem : kv.1 ∉ Env.collect given := fun h => hnot (mem_collect_iff.mp h)
  rw [hkvs.mem_iff, finalEnv_eq_union henv, Finmap.lookup_union_right hmem]
  exact lookup_extend_of_nodup hnodup hkv

/-! The variables are those of the parent, whose names are distinct and have no `=`. -/

variable (hvars : envVars (parent.map entryOf) = .ok vars)
  (hkeys : ∀ var ∈ parent, equalsSign ∉ var.1)
include hvars

theorem exists_vars_of_parent {var read : List UInt8 × List UInt8} (hvar : var ∈ parent)
    (hread : splitVar (entryOf var) = some read) : ∃ kv ∈ vars, pairBytes kv = read := by
  rw [← List.mem_map, ← envVars_eq_ok_iff.mp hvars]
  exact List.mem_filterMap.mpr ⟨_, List.mem_map_of_mem hvar, hread⟩

include hkeys

/-- A variable stands for one of the parent, which is what its entry is read as. -/
theorem exists_parent_of_vars (hkv : kv ∈ vars) :
    ∃ var ∈ parent, splitVar (entryOf var) = some (pairBytes kv) ∧
      readEntry (asBytes (render kv)) = var := by
  have hmem := List.mem_map_of_mem (f := pairBytes) hkv
  rw [← envVars_eq_ok_iff.mp hvars, List.mem_filterMap] at hmem
  obtain ⟨_, hentry, hread⟩ := hmem
  obtain ⟨var, hvar, rfl⟩ := List.mem_map.mp hentry
  obtain ⟨-, -, -, -, heq⟩ := splitVar_eq_some_iff.mp hread
  exact ⟨var, hvar, hread, by rw [asBytes_render, ← heq, readEntry_entryOf (hkeys var hvar)]⟩

theorem nodup_vars (hparent : (parent.map Prod.fst).Nodup) : (vars.map Prod.fst).Nodup := by
  have hread : ((vars.map pairBytes).map Prod.fst).Nodup := by
    rw [← envVars_eq_ok_iff.mp hvars, List.Nodup, List.pairwise_map, List.pairwise_filterMap,
      List.pairwise_map]
    refine (List.pairwise_map.mp hparent).imp_of_mem fun {var var'} hvar hvar' hne read hr read' hr'
      heq => hne ?_
    rw [name_of_splitVar (hkeys var hvar) hr, heq, ← name_of_splitVar (hkeys var' hvar') hr']
  have hbytes : (vars.map pairBytes).map Prod.fst = (vars.map Prod.fst).map asBytes := by
    simp [pairBytes]
  exact (hbytes ▸ hread).of_map

end Sees

theorem readEntry_render {kv : String × String} (h : '=' ∉ kv.1.toList) :
    readEntry (asBytes (render kv)) = pairBytes kv := by
  rw [asBytes_render, readEntry_entryOf fun hmem => h (equalsSign_mem_iff.mp hmem)]

section Child

variable {parent : List (List UInt8 × List UInt8)} {given vars env kvs : List (String × String)}
  (hparent : (parent.map Prod.fst).Nodup) (hkeys : ∀ var ∈ parent, equalsSign ∉ var.1)
  (hgiven : ∀ kv ∈ given, '=' ∉ kv.1.toList)
  (hvars : envVars (parent.map entryOf) = .ok vars)
  (henv : Walks (Env.collect given) env) (hkvs : Walks (finalEnv vars env) kvs)
include hparent hkeys hgiven hvars henv hkvs

/-- A variable that is read is in the final environment if its name is not given. -/
theorem mem_seen_of_parent {var read : List UInt8 × List UInt8} (hvar : var ∈ parent)
    (hread : splitVar (entryOf var) = some read)
    (hnot : var.1 ∉ (given.map pairBytes).map Prod.fst) :
    ∃ kv ∈ kvs, pairBytes kv = read ∧ readEntry (asBytes (render kv)) = var := by
  obtain ⟨kv, hkv, rfl⟩ := exists_vars_of_parent hvars hvar hread
  have hnot' : kv.1 ∉ given.map Prod.fst := by
    intro hmem
    obtain ⟨kv', hkv', heq⟩ := List.mem_map.mp hmem
    have hsign : equalsSign ∉ asBytes kv.1 := fun hsign =>
      hgiven kv' hkv' (heq ▸ equalsSign_mem_iff.mp hsign)
    have hname : var.1 = asBytes kv.1 :=
      (name_of_splitVar (hkeys var hvar) hread).trans (List.takeWhile_eq_self_iff.mpr fun b hb => by
        simpa using ne_of_mem_of_not_mem hb hsign)
    exact hnot (hname ▸ mem_keys_pairBytes_iff.mpr hmem)
  obtain ⟨-, -, -, -, heq⟩ := splitVar_eq_some_iff.mp hread
  exact ⟨kv, mem_finalEnv_of_vars henv hkvs (nodup_vars hvars hkeys hparent) hkv hnot', rfl,
    by rw [asBytes_render, ← heq, readEntry_entryOf (hkeys var hvar)]⟩

/-- Two entries that are read with one name have one name in the final environment. -/
theorem fst_eq_of_readEntry (h : ReadsWhole parent given) {kv kv' : String × String}
    (hkv : kv ∈ kvs) (hkv' : kv' ∈ kvs)
    (heq : (readEntry (asBytes (render kv))).1 = (readEntry (asBytes (render kv'))).1) :
    kv.1 = kv'.1 := by
  -- a variable that is read without a name has the empty name to itself
  have hmixed {kv kv' : String × String} (hkv : kv ∈ given) (hkv' : kv' ∈ vars)
      (heq : (readEntry (asBytes (render kv))).1 = (readEntry (asBytes (render kv'))).1) :
      kv.1 = kv'.1 := by
    obtain ⟨⟨name, value⟩, hvar, hread, hview⟩ := exists_parent_of_vars hvars hkeys hkv'
    rw [hview, readEntry_render (hgiven kv hkv)] at heq
    by_cases hne : name = []
    · subst hne
      have hmem := ((exists_splitVar_iff List.not_mem_nil).mp ⟨_, hread⟩).resolve_left
        (not_not_intro rfl)
      have hempty : kv.1 = "" := asBytes_inj.mp (heq.trans asBytes_empty.symm)
      exact absurd (hempty ▸ List.mem_map_of_mem hkv) ((h.unnamed value hvar).mp hmem)
    · rw [splitVar_entryOf (hkeys _ hvar) hne, Option.some_inj] at hread
      rw [hread] at heq
      exact asBytes_inj.mp heq
  rcases mem_finalEnv henv hkvs hkv with hg | ⟨hv, -⟩ <;>
    rcases mem_finalEnv henv hkvs hkv' with hg' | ⟨hv', -⟩
  · rw [readEntry_render (hgiven kv hg), readEntry_render (hgiven kv' hg')] at heq
    exact asBytes_inj.mp heq
  · exact hmixed hg hv' heq
  · exact (hmixed hg' hv heq.symm).symm
  · obtain ⟨var, hvar, hread, hview⟩ := exists_parent_of_vars hvars hkeys hv
    obtain ⟨var', hvar', hread', hview'⟩ := exists_parent_of_vars hvars hkeys hv'
    rw [hview, hview'] at heq
    obtain rfl := List.inj_on_of_nodup_map hparent hvar hvar' heq
    rw [hread, Option.some_inj] at hread'
    rw [pairBytes_injective hread']

theorem childSees_of_readsWhole (h : ReadsWhole parent given) :
    ChildSees parent (given.map pairBytes) (kvs.map fun kv => readEntry (asBytes (render kv))) := by
  refine ⟨fun before key value after hsplit hafter => ?_, fun var hvar hnot => ?_, ?_,
    fun key hkey => ?_⟩
  · obtain ⟨before', rest, hgiven', rfl, hrest⟩ := List.map_eq_append_iff.mp hsplit
    obtain ⟨kv, after', rfl, hkv, rfl⟩ := List.map_eq_cons_iff.mp hrest
    obtain ⟨rfl, rfl⟩ := Prod.mk.inj hkv
    have hlast : kv ∈ kvs := mem_finalEnv_of_last henv hkvs hgiven' fun hmem =>
      hafter (mem_keys_pairBytes_iff.mpr hmem)
    exact List.mem_map.mpr ⟨kv, hlast, readEntry_render (hgiven kv (by simp [hgiven']))⟩
  · have hread : var.1 ≠ [] ∨ equalsSign ∈ var.2 := by
      by_contra hcon
      push Not at hcon
      obtain ⟨name, value⟩ := var
      obtain rfl : name = [] := hcon.1
      refine hcon.2 ((h.unnamed value hvar).mpr fun hmem => hnot ?_)
      rw [← mem_keys_pairBytes_iff, asBytes_empty] at hmem
      exact hmem
    obtain ⟨read, hsplit⟩ := (exists_splitVar_iff (hkeys var hvar)).mpr hread
    obtain ⟨kv, hkv, -, hview⟩ := mem_seen_of_parent hparent hkeys hgiven hvars henv hkvs hvar
      hsplit hnot
    exact List.mem_map.mpr ⟨kv, hkv, hview⟩
  · rw [List.map_map]
    refine (hkvs.nodup.of_map).map_on fun kv hkv kv' hkv' heq => ?_
    exact List.inj_on_of_nodup_map hkvs.nodup hkv hkv'
      (fst_eq_of_readEntry hparent hkeys hgiven hvars henv hkvs h hkv hkv' heq)
  · obtain ⟨_, hmem, rfl⟩ := List.mem_map.mp hkey
    obtain ⟨kv, hkv, rfl⟩ := List.mem_map.mp hmem
    rcases mem_finalEnv henv hkvs hkv with hg | ⟨hv, -⟩
    · rw [readEntry_render (hgiven kv hg)]
      exact Or.inl (mem_keys_pairBytes_iff.mpr (List.mem_map_of_mem hg))
    · obtain ⟨var, hvar, -, hview⟩ := exists_parent_of_vars hvars hkeys hv
      rw [hview]
      exact Or.inr (List.mem_map_of_mem hvar)

/-- Both failures of the empty name : a value that is skipped is not seen, and one that is read
beside a given one has its name twice. -/
theorem unnamed_of_childSees
    (h : ChildSees parent (given.map pairBytes)
      (kvs.map fun kv => readEntry (asBytes (render kv))))
    {value : List UInt8} (hvar : ([], value) ∈ parent) :
    equalsSign ∈ value ↔ "" ∉ given.map Prod.fst := by
  constructor
  · intro hsign hmem
    obtain ⟨read, hread⟩ :=
      (@exists_splitVar_iff ([], value) List.not_mem_nil).mpr (Or.inr hsign)
    obtain ⟨kv, hkv, rfl⟩ := exists_vars_of_parent hvars hvar hread
    obtain ⟨b, name, hname, -, heq⟩ := splitVar_eq_some_iff.mp hread
    have hnot : kv.1 ∉ given.map Prod.fst := by
      intro hkey
      obtain ⟨kv', hkv', hkeq⟩ := List.mem_map.mp hkey
      obtain ⟨rfl, -⟩ := List.cons.inj (heq.trans (congrArg (· ++ _) hname))
      refine hgiven kv' hkv' (hkeq ▸ equalsSign_mem_iff.mp ?_)
      rw [show asBytes kv.1 = equalsSign :: name from hname]
      exact List.mem_cons_self
    have hkvs' := mem_finalEnv_of_vars henv hkvs (nodup_vars hvars hkeys hparent) hkv hnot
    obtain ⟨value', hgiven'⟩ := exists_mem_finalEnv henv hkvs hmem
    have honce := List.inj_on_of_nodup_map (f := fun kv => (readEntry (asBytes (render kv))).1)
      (by simpa [List.map_map, Function.comp_def] using h.once) hkvs' hgiven' (by
        rw [asBytes_render, ← heq, readEntry_entryOf (hkeys _ hvar),
          readEntry_render (by simp)]
        exact asBytes_empty.symm)
    exact hnot (honce ▸ hmem)
  · intro hnot
    have hmem := h.inherited _ hvar (by rwa [← asBytes_empty, mem_keys_pairBytes_iff])
    obtain ⟨kv, hkv, hview⟩ := List.mem_map.mp hmem
    rcases mem_finalEnv henv hkvs hkv with hg | ⟨hv, -⟩
    · rw [readEntry_render (hgiven kv hg)] at hview
      have hempty : kv.1 = "" :=
        asBytes_inj.mp ((congrArg Prod.fst hview).trans asBytes_empty.symm)
      exact absurd (hempty ▸ List.mem_map_of_mem hg) hnot
    · obtain ⟨var, -, hread, hview'⟩ := exists_parent_of_vars hvars hkeys hv
      obtain rfl := hview'.symm.trans hview
      exact ((exists_splitVar_iff List.not_mem_nil).mp ⟨_, hread⟩).resolve_left
        (not_not_intro rfl)

end Child

section Right

variable {parent : List (List UInt8 × List UInt8)} {es : List String} {args : StartArgs}
  {env : List (String × String)}

/-- What is given as text and what the parent has as C strings can be handed over. -/
theorem hasNul_finalEnv (hkeys : ∀ var ∈ parent, equalsSign ∉ var.1)
    (hnul : ∀ var ∈ parent, 0 ∉ entryOf var) {given vars kvs : List (String × String)}
    (hgiven : ∀ kv ∈ given, hasNul (render kv) = false)
    (hvars : envVars (parent.map entryOf) = .ok vars) (henv : Walks (Env.collect given) env)
    (hkvs : Walks (finalEnv vars env) kvs) : ∀ kv ∈ kvs, hasNul (render kv) = false := by
  intro kv hkv
  rcases mem_finalEnv henv hkvs hkv with hg | ⟨hv, -⟩
  · exact hgiven kv hg
  · obtain ⟨var, hvar, hread, -⟩ := exists_parent_of_vars hvars hkeys hv
    obtain ⟨-, -, -, -, heq⟩ := splitVar_eq_some_iff.mp hread
    rw [hasNul_eq_false_iff, asBytes_render, ← heq]
    exact hnul var hvar

/-- A child reads the last value given for a variable, the value of its parent for any other of
its variables, each variable once, and no others, exactly when what is read of the parent is
Unicode, and an empty name is given exactly when its value in the parent has no `=`. -/
theorem seesRight_iff (hparent : (parent.map Prod.fst).Nodup)
    (hkeys : ∀ var ∈ parent, equalsSign ∉ var.1) (hnul : ∀ var ∈ parent, 0 ∉ entryOf var)
    (hes : ∀ e ∈ es, hasNul e = false) (hargs : parseEnvArgs es = .ok args.env)
    (henv : Walks (ProcessConfig.ofStartArgs args).env env) :
    SeesRight parent args.env env ↔ ReadsWhole parent args.env := by
  obtain ⟨rfl, hgiven⟩ := parseEnvArgs_eq_ok_iff.mp hargs
  have hgivenNul : ∀ kv ∈ args.env, hasNul (render kv) = false := fun kv hkv =>
    hes _ (List.mem_map_of_mem hkv)
  have hbuild {vars kvs : List (String × String)}
      (hvars : envVars (parent.map entryOf) = .ok vars) (hkvs : Walks (finalEnv vars env) kvs) :
      buildEnvp kvs = .ok (kvs.map render) :=
    buildEnvp_of_forall (hasNul_finalEnv hkeys hnul hgivenNul hvars henv hkvs)
  constructor
  · rintro ⟨vars, hvars, hsees⟩
    refine ⟨exists_envVars_iff.mp ⟨vars, hvars⟩, fun value hvar => ?_⟩
    obtain ⟨kvs, hkvs⟩ := exists_walks (finalEnv vars env)
    obtain ⟨envp, henvp, hchild⟩ := hsees kvs hkvs
    obtain rfl := Except.ok.inj ((hbuild hvars hkvs).symm.trans henvp)
    rw [List.map_map] at hchild
    exact unnamed_of_childSees hparent hkeys hgiven hvars henv hkvs hchild hvar
  · intro h
    obtain ⟨vars, hvars⟩ := exists_envVars_iff.mpr h.unicode
    refine ⟨vars, hvars, fun kvs hkvs => ⟨_, hbuild hvars hkvs, ?_⟩⟩
    rw [List.map_map]
    exact childSees_of_readsWhole hparent hkeys hgiven hvars henv hkvs h

end Right

/-- Variables with a repeated key, an `=` in a value, an empty key and an empty value. -/
def oddArgs : StartArgs where
  name := "db"
  command := "/usr/bin/db"
  args := []
  cwd := none
  env := [("PATH", "/opt"), ("", "v"), ("E", ""), ("PATH", "a=b")]
  logDir := none
  restart := none
  resources := ⟨none, none, none, none⟩
  security := ⟨none, false, false, false, false, false, false⟩

/-- A parent with `HOME=/r`, `PATH=/b`, and a variable without a name. -/
def oddParent : List (List UInt8 × List UInt8) :=
  [([72, 79, 77, 69], [47, 114]), ([80, 65, 84, 72], [47, 98]), ([], [118])]

theorem seesRight_odd :
    SeesRight oddParent oddArgs.env [("E", ""), ("PATH", "a=b"), ("", "v")] := by
  have hargs : parseEnvArgs ["PATH=/opt", "=v", "E=", "PATH=a=b"] = .ok oddArgs.env := by rfl
  have henv : Walks (ProcessConfig.ofStartArgs oddArgs).env
      [("E", ""), ("PATH", "a=b"), ("", "v")] := by decide
  refine (seesRight_iff (by decide) (by decide) (by decide) (by decide) hargs henv).mpr
    ⟨exists_envVars_iff.mp ⟨[("HOME", "/r"), ("PATH", "/b")], by rfl⟩, fun value hvalue => ?_⟩
  obtain rfl : value = [118] := by simpa [oddParent] using hvalue
  decide

/-- A variable of the parent is not Unicode, and the child panics. -/
theorem latin1_panics :
    envVars [entryOf ([76], [233])] = .error "called `Result::unwrap()` on an `Err` value" ∧
      ¬SeesRight [([76], [233])] [] [] := by
  have hpanic : envVars [entryOf ([76], [233])] =
      .error "called `Result::unwrap()` on an `Err` value" := by rfl
  refine ⟨hpanic, ?_⟩
  rintro ⟨vars, hvars, -⟩
  cases hpanic.symm.trans hvars

/-! ## What a client shows -/

def envKeys : List String :=
  ["PATH", "PWD", "USER", "HOME", "SHELL", "LANG"]

/-- One turn of the loop over the listed keys, with whether a variable has been shown and
the lines so far. -/
def showVar (env : Env) (out : Bool × List String) (key : String) : Bool × List String :=
  match env.lookup key with
  | some value =>
    (true, out.2 ++ (if out.1 then [] else ["  Environment Variables:"]) ++
      ["    " ++ key ++ "=" ++ value])
  | none => out

/-- The number of variables with other keys, `none` when the subtraction underflows. -/
def additionalVars (keys : List String) (env : Env) : Option ℕ :=
  if found keys env ≤ size env then some (size env - found keys env) else none

/-- The lines of `display_process_details` about the environment, or its panic. -/
def displayEnv (env : Env) : Except String (List String) :=
  let shown := (envKeys.foldl (showVar env) (false, [])).2
  match additionalVars envKeys env with
  | none => .error "attempt to subtract with overflow"
  | some n =>
    .ok (shown ++ if 0 < n then ["    ... and " ++ toString n ++ " more variables"] else [])

/-- The listed variables, one line each. -/
def shownVars (keys : List String) (env : Env) : List String :=
  keys.filterMap fun key => (env.lookup key).map fun value => "    " ++ key ++ "=" ++ value

theorem foldl_showVar (env : Env) : ∀ (keys : List String) (out : Bool × List String),
    (keys.foldl (showVar env) out).2 = out.2 ++
      (if out.1 || (shownVars keys env).isEmpty then [] else ["  Environment Variables:"]) ++
        shownVars keys env
  | [], out => by simp [shownVars]
  | key :: keys, out => by
    rw [List.foldl_cons, foldl_showVar env keys, showVar]
    cases hkey : env.lookup key with
    | none => simp [shownVars, hkey]
    | some value => cases out.1 <;> simp [shownVars, hkey]

theorem additionalVars_of_nodup {keys : List String} (h : keys.Nodup) (env : Env) :
    additionalVars keys env = some (hidden keys env) := by
  have hsize := found_add_hidden env h
  rw [additionalVars, if_pos (by omega), Option.some_inj]
  omega

/-- The subtraction is safe on every map when no key is listed twice, and only then. -/
theorem forall_additionalVars_iff {keys : List String} :
    (∀ env : Env, (additionalVars keys env).isSome) ↔ keys.Nodup := by
  have hsome (env : Env) : (additionalVars keys env).isSome ↔ found keys env ≤ size env := by
    unfold additionalVars
    split
    · rename_i hle
      simp [hle]
    · rename_i hlt
      simp [hlt]
  exact (forall_congr' hsome).trans found_le_size_iff

theorem nodup_envKeys : envKeys.Nodup := by decide

/-- The variables that are not shown are those with other keys. -/
theorem additionalVars_envKeys (env : Env) : found envKeys env ≤ size env ∧
    additionalVars envKeys env = some (hidden envKeys env) :=
  ⟨found_le_size_iff.mpr nodup_envKeys env, additionalVars_of_nodup nodup_envKeys env⟩

/-- A client shows the listed variables under a heading, if there are any, and counts the
others. -/
theorem displayEnv_eq (env : Env) : displayEnv env = .ok
    ((if (shownVars envKeys env).isEmpty then [] else ["  Environment Variables:"]) ++
      shownVars envKeys env ++
      if 0 < hidden envKeys env then
        ["    ... and " ++ toString (hidden envKeys env) ++ " more variables"]
      else []) := by
  rw [displayEnv, foldl_showVar, additionalVars_of_nodup nodup_envKeys]
  simp

example : displayEnv (.collect [("HOME", "/root"), ("A", "1")]) = .ok
    ["  Environment Variables:", "    HOME=/root", "    ... and 1 more variables"] := by
  rfl

end Yapm
