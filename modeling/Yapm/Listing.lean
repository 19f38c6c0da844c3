import Yapm.Manager

/-!
# Listing the processes

A call of `list_processes` is not one step. It walks the registry for the names in it, and then
looks each of them up, and processes come and go all the while. The walk comes to a name at most
once, and to every entry that stays. What is told of a process is told of the entry that was
found, so an entry stands for its line here.

No name is listed twice, every line is of an entry that was in the registry at some time of the
call, and every entry that stayed is listed (`listed_of_reachable`).
-/

namespace Yapm

namespace Listing

/-! ## Calls -/

/-- A call of `list_processes`, which began in the state `began`. -/
inductive ListCall
  | collecting (began : State) (keys : List String)
  | looking (began : State) (keys : List String) (container : List (String × Entry))
  | returned (container : List (String × Entry))

/-- The daemon and its calls of `list_processes`. -/
structure Lister where
  daemon : State
  lists : ℕ → Option ListCall

def init : Lister where
  daemon := .init
  lists _ := none

namespace Lister

variable (s : Lister) (i : ℕ)

def setList (k : ListCall) : Lister :=
  { s with lists := Function.update s.lists i (some k) }

/-- A client calls `list_processes`. -/
def listProcesses : Option Lister :=
  match s.lists i with
  | none => some (s.setList i (.collecting s.daemon []))
  | some _ => none

/-- The walk comes to a name. -/
def collect (name : String) : Option Lister :=
  match s.lists i, s.daemon.registry name with
  | some (.collecting began keys), some _ =>
    if name ∈ keys then none
    else some (s.setList i (.collecting began (keys ++ [name])))
  | _, _ => none

/-- The walk ends. Every registered name is one of a process. -/
def collected : Option Lister :=
  match s.lists i with
  | some (.collecting began keys) =>
    if s.daemon.procs.any (Manager.overlooked s.daemon began.registry keys ·.name) then none
    else some (s.setList i (.looking began keys []))
  | _ => none

/-- The next name is looked up, and left out if its process is gone. -/
def look : Option Lister :=
  match s.lists i with
  | some (.looking began (name :: keys) container) =>
    match s.daemon.registry name with
    | some e => some (s.setList i (.looking began keys (container ++ [(name, e)])))
    | none => some (s.setList i (.looking began keys container))
  | _ => none

def finish : Option Lister :=
  match s.lists i with
  | some (.looking _ [] container) => some (s.setList i (.returned container))
  | _ => none

end Lister

inductive Action
  | daemon (a : Yapm.Action)
  | listProcesses (i : ℕ)
  | collect (i : ℕ) (name : String)
  | collected (i : ℕ)
  | look (i : ℕ)
  | finish (i : ℕ)

def step : Action → Lister → Option Lister
  | .daemon a, s => (Yapm.step a s.daemon).map ({ s with daemon := · })
  | .listProcesses i, s => s.listProcesses i
  | .collect i name, s => s.collect i name
  | .collected i, s => s.collected i
  | .look i, s => s.look i
  | .finish i, s => s.finish i

/-- The states of all runs. -/
abbrev Reachable (s : Lister) : Prop :=
  Runs.Reach step init (fun _ _ => True) s

/-! ## Since a call began -/

/-- The daemon has come from one state to another, in which what was launched still is, and what
is registered was so before or has been launched since. -/
structure Since (began s : State) : Prop where
  inv : Inv began
  launched : ∀ name e, began.Registered name e → s.Registered name e
  registry : ∀ name e, s.registry name = some e →
    began.registry name = some e ∨ ¬began.Registered name e

variable {began d d' : State} {a : Yapm.Action} {name : String} {e : Entry}

theorem Since.refl (hi : Inv d) : Since d d where
  inv := hi
  launched _ _ h := h
  registry _ _ h := .inl h

/-- The process of a new entry was not launched before. -/
theorem not_registered_of_insert (hchange : Change d a d') (he : d'.registry name = some e)
    (hnew : d.registry name ≠ some e) : ¬d.Registered name e := by
  obtain hold | ⟨-, ⟨p, hp, hinsert, -⟩, -⟩ := hchange.entry he
  · exact absurd hold hnew
  · rintro ⟨q, hq, -, -, hphase⟩
    obtain rfl := Option.some.inj (hp.symm.trans hq)
    exact nomatch hinsert.symm.trans hphase

theorem Since.step (h : Since began d) (hchange : Change d a d') : Since began d' where
  inv := h.inv
  launched name e hr := hchange.registered (h.launched name e hr)
  registry name e he := by
    by_cases hold : d.registry name = some e
    · exact h.registry name e hold
    · exact .inr fun hr => not_registered_of_insert hchange he hold (h.launched name e hr)

/-- An entry that is there before and after was there in between. -/
theorem Since.stayed (h : Since began d) (hchange : Change d a d')
    (hbegan : began.registry name = some e) (he : d'.registry name = some e) :
    d.registry name = some e := by
  by_contra hold
  exact not_registered_of_insert hchange he hold
    (h.launched name e (h.inv.registry name e hbegan))

/-! ## What a call has -/

/-- The lines are of entries that were registered at some time of the call. -/
structure Told (began s : State) (container : List (String × Entry)) : Prop where
  launched : ∀ l ∈ container, s.Registered l.1 l.2
  during : ∀ l ∈ container, began.registry l.1 = some l.2 ∨ ¬began.Registered l.1 l.2

/-- What a call has got so far. -/
def Ok (s : State) : ListCall → Prop
  | .collecting began keys => Since began s ∧ keys.Nodup
  | .looking began keys container =>
    Since began s ∧ (container.map Prod.fst ++ keys).Nodup ∧ Told began s container ∧
      ∀ name e, began.registry name = some e → s.registry name = some e →
        name ∈ keys ∨ (name, e) ∈ container
  | .returned _ => True

theorem Told.nil : Told began d [] where
  launched _ hl := absurd hl List.not_mem_nil
  during _ hl := absurd hl List.not_mem_nil

theorem Told.snoc {container : List (String × Entry)} (h : Told began d container)
    (hsince : Since began d) (hi : Inv d) (he : d.registry name = some e) :
    Told began d (container ++ [(name, e)]) where
  launched l hl := by
    obtain hold | hnew := List.mem_append.mp hl
    · exact h.launched l hold
    · obtain rfl := List.mem_singleton.mp hnew
      exact hi.registry name e he
  during l hl := by
    obtain hold | hnew := List.mem_append.mp hl
    · exact h.during l hold
    · obtain rfl := List.mem_singleton.mp hnew
      exact hsince.registry name e he

theorem Told.step {container : List (String × Entry)} (h : Told began d container)
    (hchange : Change d a d') : Told began d' container where
  launched l hl := hchange.registered (h.launched l hl)
  during := h.during

theorem Ok.step {k : ListCall} (h : Ok d k) (hchange : Change d a d') : Ok d' k := by
  cases k with
  | collecting began keys => exact ⟨h.1.step hchange, h.2⟩
  | looking began keys container =>
    obtain ⟨hsince, hnodup, htold, hstayed⟩ := h
    refine ⟨hsince.step hchange, hnodup, htold.step hchange, fun name e hbegan he => ?_⟩
    exact hstayed name e hbegan (hsince.stayed hchange hbegan he)
  | returned container => trivial

structure Lister.Ok (s : Lister) : Prop where
  inv : Inv s.daemon
  lists : ∀ i k, s.lists i = some k → Listing.Ok s.daemon k

namespace Lister.Ok

variable {s s' : Lister} {i : ℕ}

theorem init : Listing.init.Ok where
  inv := .init
  lists i k hk := by simp [Listing.init] at hk

/-- The rule for a step of a call. -/
theorem setList (h : s.Ok) {k : ListCall} (hk : Listing.Ok s.daemon k) : (s.setList i k).Ok where
  inv := h.inv
  lists j k' hk' := by
    obtain ⟨-, heq⟩ | hold := eq_or_of_update hk'
    · exact Option.some.inj heq ▸ hk
    · exact h.lists j k' hold

theorem collect {name : String} (h : s.Ok) (hs : s.collect i name = some s') : s'.Ok := by
  unfold Lister.collect at hs
  split at hs
  · rename_i began keys e hi he
    obtain ⟨hnew, hs⟩ := Option.ite_none_left_eq_some.mp hs
    obtain rfl := Option.some.inj hs
    obtain ⟨hsince, hnodup⟩ := h.lists i _ hi
    refine h.setList ⟨hsince, List.nodup_append_comm.mpr ?_⟩
    exact List.nodup_cons.mpr ⟨hnew, hnodup⟩
  · cases hs

theorem collected (h : s.Ok) (hs : s.collected i = some s') : s'.Ok := by
  unfold Lister.collected at hs
  split at hs
  · rename_i began keys hi
    obtain ⟨hall, hs⟩ := Option.ite_none_left_eq_some.mp hs
    obtain rfl := Option.some.inj hs
    obtain ⟨hsince, hnodup⟩ := h.lists i _ hi
    refine h.setList ⟨hsince, hnodup, .nil, fun name e hbegan he => .inl ?_⟩
    -- an entry that stayed would be overlooked
    by_contra hmissed
    obtain ⟨p, hp, hname, -⟩ := h.inv.registry name e he
    refine hall (List.any_eq_true.mpr ⟨p, List.mem_of_getElem? hp, ?_⟩)
    simp [Manager.overlooked, hname, he, hbegan, hmissed]
  · cases hs

theorem look (h : s.Ok) (hs : s.look i = some s') : s'.Ok := by
  unfold Lister.look at hs
  split at hs
  · rename_i began name keys container hi
    obtain ⟨hsince, hnodup, htold, hstayed⟩ := h.lists i _ hi
    split at hs <;> obtain rfl := Option.some.inj hs
    · rename_i e he
      refine h.setList ⟨hsince, by simpa using hnodup, htold.snoc hsince h.inv he,
        fun name' e' hbegan he' => ?_⟩
      obtain hkey | hline := hstayed name' e' hbegan he'
      · obtain rfl | hkey := List.mem_cons.mp hkey
        · obtain rfl := Option.some.inj (he.symm.trans he')
          exact .inr (List.mem_append_right _ (.head _))
        · exact .inl hkey
      · exact .inr (List.mem_append_left _ hline)
    · rename_i hnone
      refine h.setList ⟨hsince, ?_, htold, fun name' e' hbegan he' => ?_⟩
      · exact hnodup.sublist ((List.sublist_cons_self name keys).append_left _)
      · obtain hkey | hline := hstayed name' e' hbegan he'
        · obtain rfl | hkey := List.mem_cons.mp hkey
          · cases hnone.symm.trans he'
          · exact .inl hkey
        · exact .inr hline
  · cases hs

theorem step {a : Action} (h : s.Ok) (hs : step a s = some s') : s'.Ok := by
  cases a with
  | daemon a =>
    obtain ⟨d, hd, rfl⟩ := Option.map_eq_some_iff.mp hs
    have hchange := change_of_step h.inv.ok h.inv.pids hd
    exact ⟨h.inv.step hd, fun i k hk => (h.lists i k hk).step hchange⟩
  | listProcesses i =>
    simp only [Listing.step, Lister.listProcesses] at hs
    split at hs
    · obtain rfl := Option.some.inj hs
      exact h.setList ⟨.refl h.inv, List.nodup_nil⟩
    · cases hs
  | collect i name => exact h.collect hs
  | collected i => exact h.collected hs
  | look i => exact h.look hs
  | finish i =>
    simp only [Listing.step, Lister.finish] at hs
    split at hs
    · obtain rfl := Option.some.inj hs
      exact h.setList trivial
    · cases hs

end Lister.Ok

variable {s : Lister}

theorem ok_of_reachable (h : Reachable s) : s.Ok :=
  h.invariant Lister.Ok.init fun _ _ _ hok _ hs => hok.step hs

/-- When a call is about to return, whatever has happened since it began, the names on its list
are different, each line is of a process launched under its name, which was registered when the
call began or has been launched since, and every entry that was there when it began and still is
has its line. -/
theorem listed_of_reachable (h : Reachable s) {i : ℕ} {began : State}
    {container : List (String × Entry)} (hi : s.lists i = some (.looking began [] container)) :
    (container.map Prod.fst).Nodup ∧
      (∀ l ∈ container, s.daemon.Registered l.1 l.2 ∧
        (began.registry l.1 = some l.2 ∨ ¬began.Registered l.1 l.2)) ∧
      ∀ name e, began.registry name = some e → s.daemon.registry name = some e →
        (name, e) ∈ container := by
  obtain ⟨-, hnodup, htold, hstayed⟩ := (ok_of_reachable h).lists i _ hi
  refine ⟨by simpa using hnodup, fun l hl => ⟨htold.launched l hl, htold.during l hl⟩,
    fun name e hbegan he => ?_⟩
  exact (hstayed name e hbegan he).resolve_left List.not_mem_nil

/-- A process is restarted after its name was collected : the new one is listed. -/
theorem listed_restarted : ∃ (s : Lister) (began : State) (e : Entry),
    s.lists 0 = some (.looking began [] [("db", e)]) ∧ e.proc = 1 ∧
      s.daemon.Registered "db" e ∧ ¬began.Registered "db" e := by
  let config : ProcessConfig := { plainConfig with restart := .infinite }
  let restart : List Yapm.Action := exitSteps 0 ++ [.recv, .remove, .decide false] ++
    launchSteps .handler 1 4243 ++ registerSteps 1
  obtain ⟨s, began, e, hreach, hi, hproc, hbegan⟩ : ∃ s began e, Reachable s ∧
      s.lists 0 = some (.looking began [] [("db", e)]) ∧ e.proc = 1 ∧
        (began.registry "db").map (·.proc) = some 0 :=
    ⟨_, _, _, Runs.reach_of_checked ((startSteps 0 config 0 4242).map .daemon ++
      [.listProcesses 0, .collect 0 "db", .collected 0] ++ restart.map .daemon ++ [.look 0]) rfl,
      rfl, rfl, rfl⟩
  obtain ⟨-, hlines, -⟩ := listed_of_reachable hreach hi
  obtain ⟨hregistered, hold | hnew⟩ := hlines _ (.head _)
  · simp only [hold, Option.map_some, hproc] at hbegan
    exact absurd hbegan (by decide)
  · exact ⟨s, began, e, hi, hproc, hregistered, hnew⟩

end Listing

end Yapm
