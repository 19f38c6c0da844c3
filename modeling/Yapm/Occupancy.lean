import Yapm.RunInvariant

/-!
# One process a name

An entry and a request name a process, and the restart handler finds by name what a request
is about. That is right as long as no two processes have one name at a time (`Solo`). A
process has its name while it is registered, while it is monitored or its launch will
register it, and while the request for its exit is not served (`State.Occupies`).

The restart handler keeps to this by itself, since it launches a process under a name that
it has taken out of the registry. A start does not : its check of the registry says
nothing of the other two, and is long past when it submits the monitoring task. `Solo` is
kept by every step but the submission of a start whose name is not vacant
(`State.submitsVacant`).
-/

namespace Yapm

/-! ## Who has a name -/

/-- The name the handler is about to fork a process for. -/
def Handler.reserved : Handler → Option String
  | .forking name _ => some name
  | _ => none

/-- The request whose entry the handler has taken out. -/
def Handler.taken : Handler → Option RestartRequest
  | .deciding r _ | .removingAgain r => some r
  | _ => none

/-- The processes that have a name. -/
inductive State.Occupies (s : State) (name : String) : ProcId → Prop
  | entry {e : Entry} (he : s.registry name = some e) : s.Occupies name e.proc
  | process {c : ProcId} {p : Proc} (hp : s.procs[c]? = some p) (hname : p.name = name)
      (hactive : p.isActive) : s.Occupies name c
  | request {r : RestartRequest} (hr : r ∈ s.received) (hname : r.name = name) :
      s.Occupies name r.proc

/-- No process has the name, nor is the handler about to give it to one. -/
def State.isVacant (s : State) (name : String) : Bool :=
  (s.registry name).isNone && s.procs.all (fun p => p.name ≠ name || !p.isActive) &&
    s.received.all (·.name ≠ name) && s.handler.reserved ≠ some name

/-- A start submits the monitoring task of its process under a vacant name. -/
def State.submitsVacant (s : State) : Action → Bool
  | .submitProcess c _ =>
    match s.procs[c]? with
    | some p => p.launcher = .handler || s.isVacant p.name
    | none => true
  | _ => true

/-- The launch of the process is complete. -/
def State.Completed (s : State) (c : ProcId) : Prop :=
  ∃ p, s.procs[c]? = some p ∧ p.phase = .registered

/-- No two processes have one name, and the handler knows what it has taken out. -/
structure Solo (s : State) : Prop where
  unique : ∀ name c d, s.Occupies name c → s.Occupies name d → c = d
  reserved : ∀ name, s.handler.reserved = some name → ∀ c, ¬s.Occupies name c
  own : ∀ r e, s.handler = .deciding r e → e.proc = r.proc
  cleared : ∀ r, s.handler.taken = some r → s.registry r.name = none
  completed : ∀ r, s.handler.taken = some r → s.Completed r.proc

variable {s s' : State} {a : Action} {name : String} {c : ProcId}

theorem State.not_occupies_of_isVacant (h : s.isVacant name) (c : ProcId) :
    ¬s.Occupies name c := by
  simp only [isVacant, Bool.and_eq_true, List.all_eq_true, decide_eq_true_eq, Bool.or_eq_true,
    Bool.not_eq_true'] at h
  obtain ⟨⟨⟨hregistry, hprocs⟩, hreceived⟩, -⟩ := h
  rintro (he | ⟨hp, hname, hactive⟩ | ⟨hr, hname⟩)
  · rw [he] at hregistry
    cases hregistry
  · rcases hprocs _ (List.mem_of_getElem? hp) with hne | hidle
    · exact hne hname
    · rw [hactive] at hidle
      cases hidle
  · exact hreceived _ hr hname

theorem State.reserved_ne_of_isVacant (h : s.isVacant name) : s.handler.reserved ≠ some name := by
  simp only [isVacant, Bool.and_eq_true, decide_eq_true_eq] at h
  exact h.2

/-- A process has its name after a step if it had it before, when entries and requests are
those of processes that had. -/
theorem State.Occupies.of_evolves {x : Option ProcId} (hev : s.Evolves x s')
    (hregistry : ∀ e, s'.registry name = some e → s.Occupies name e.proc)
    (hreceived : ∀ r ∈ s'.received, r.name = name → s.Occupies name r.proc)
    (h : s'.Occupies name c) :
    s.Occupies name c ∨ x = some c ∧ ∃ p, s.procs[c]? = some p ∧ p.name = name := by
  cases h with
  | entry he => exact .inl (hregistry _ he)
  | request hr hname => exact .inl (hreceived _ hr hname)
  | process hp' hname hactive =>
    obtain ⟨p, hp, hevp⟩ := hev.origin hp'
    have hname : p.name = name := by rw [← hevp.name, hname]
    rcases hevp.active hactive with hactive | hx
    · exact .inl (.process hp hname hactive)
    · exact .inr ⟨hx, p, hp, hname⟩

/-- The case of a step that registers nothing, requests nothing and submits nothing. -/
theorem State.Occupies.of_subset (hev : s.Evolves none s')
    (hregistry : ∀ name e, s'.registry name = some e → s.registry name = some e)
    (hreceived : ∀ r ∈ s'.received, r ∈ s.received) (h : s'.Occupies name c) :
    s.Occupies name c := by
  rcases h.of_evolves hev (fun e he => .entry (hregistry name e he))
    (fun r hr hname => .request (hreceived r hr) hname) with h | ⟨hx, -⟩
  · exact h
  · cases hx

theorem State.Completed.of_evolves {x : Option ProcId} (hev : s.Evolves x s')
    (h : s.Completed c) : s'.Completed c := by
  obtain ⟨p, hp, hphase⟩ := h
  obtain ⟨p', hp', hevp⟩ := hev.procs c p hp
  exact ⟨p', hp', (hevp.finished (by rw [hphase]; rfl)).trans hphase⟩

/-! ## Steps of the handler that give it nothing new -/

/-- The handler neither reserves a name nor takes out an entry. -/
structure Handler.Recedes (h h' : Handler) : Prop where
  reserved : ∀ name, h'.reserved = some name → h.reserved = some name
  taken : ∀ r, h'.taken = some r → h.taken = some r
  deciding : ∀ r e, h' = .deciding r e → h = .deciding r e

namespace Handler.Recedes

variable {h h' : Handler}

theorem of_eq (heq : h' = h) : h.Recedes h' where
  reserved _ hn := by rwa [heq] at hn
  taken _ hr := by rwa [heq] at hr
  deciding _ _ hd := by rwa [heq] at hd

theorem of_none (hreserved : h'.reserved = none) (htaken : h'.taken = none) : h.Recedes h' where
  reserved _ hn := by simp [hreserved] at hn
  taken _ hr := by simp [htaken] at hr
  deciding _ _ hd := by simp [hd, Handler.taken] at htaken

theorem removingAgain (r : RestartRequest) (e : Entry) :
    (Handler.deciding r e).Recedes (.removingAgain r) where
  reserved _ hn := by simp [Handler.reserved] at hn
  taken _ hr := hr
  deciding _ _ hd := by simp at hd

theorem afterFailure (h : Handler) (l : Launcher) : h.Recedes (h.afterFailure l) := by
  cases l with
  | start i => exact of_eq rfl
  | handler => exact of_none rfl rfl

end Handler.Recedes

theorem Handler.mem_of_afterFailure {h : Handler} {l : Launcher} {r : RestartRequest}
    {requests : List RestartRequest} (hr : r ∈ (h.afterFailure l).current ++ requests) :
    r ∈ h.current ++ requests := by
  cases l with
  | start i => exact hr
  | handler => exact List.mem_append_right _ hr

/-! ## The invariant -/

namespace Solo

theorem init : Solo .init where
  unique name c d h := by
    rcases h with he | ⟨hp, -, -⟩ | ⟨hr, -⟩
    · simp [State.init] at he
    · simp [State.init] at hp
    · simp [State.init, State.received, Handler.current] at hr
  reserved name h := by simp [State.init, Handler.reserved] at h
  own r e h := by simp [State.init] at h
  cleared r h := by simp [State.init, Handler.taken] at h
  completed r h := by simp [State.init, Handler.taken] at h

/-- The rule for steps at which the handler recedes, and at most `c₀` takes a name, one
that was free. -/
theorem of_recedes (hs : Solo s) (hrec : s.handler.Recedes s'.handler) (c₀ : ProcId)
    (hocc : ∀ name c, s'.Occupies name c → s.Occupies name c ∨
      c = c₀ ∧ (∀ d, ¬s.Occupies name d) ∧ s'.handler.reserved ≠ some name)
    (hcleared : ∀ r, s.handler.taken = some r → s'.registry r.name = none)
    (hcompleted : ∀ c, s.Completed c → s'.Completed c) : Solo s' where
  unique name c d hc hd := by
    rcases hocc name c hc with hc | ⟨rfl, hfree, -⟩ <;>
      rcases hocc name d hd with hd | ⟨rfl, hfree', -⟩
    · exact hs.unique name c d hc hd
    · exact absurd hc (hfree' c)
    · exact absurd hd (hfree d)
    · rfl
  reserved name hn c hc := by
    rcases hocc name c hc with hc | ⟨-, -, hne⟩
    · exact hs.reserved name (hrec.reserved name hn) c hc
    · exact hne hn
  own r e hd := hs.own r e (hrec.deciding r e hd)
  cleared r hr := hcleared r (hrec.taken r hr)
  completed r hr := hcompleted r.proc (hs.completed r (hrec.taken r hr))

/-- The case of a step that registers nothing, requests nothing and submits nothing. -/
theorem of_subset (hs : Solo s) (hev : s.Evolves none s')
    (hrec : s.handler.Recedes s'.handler)
    (hregistry : ∀ name e, s'.registry name = some e → s.registry name = some e)
    (hreceived : ∀ r ∈ s'.received, r ∈ s.received) : Solo s' := by
  refine hs.of_recedes hrec 0 (fun name c h => .inl (h.of_subset hev hregistry hreceived))
    (fun r hr => ?_) fun c => .of_evolves hev
  cases he : s'.registry r.name with
  | none => rfl
  | some e =>
    have he := hregistry _ e he
    rw [hs.cleared r hr] at he
    cases he

/-- After a fork a process has its name if it had it before, or is the new one and active. -/
theorem occupies_of_append {p : Proc} (hprocs : s'.procs = s.procs ++ [p])
    (hregistry : s'.registry = s.registry) (hreceived : ∀ r ∈ s'.received, r ∈ s.received)
    (h : s'.Occupies name c) :
    s.Occupies name c ∨ c = s.procs.length ∧ p.name = name ∧ p.isActive := by
  cases h with
  | entry he => exact .inl (.entry (by rwa [hregistry] at he))
  | request hr hname => exact .inl (.request (hreceived _ hr) hname)
  | process hq hname hactive =>
    rcases Inv.append_cases hprocs hq with hq | ⟨rfl, rfl⟩
    · exact .inl (.process hq hname hactive)
    · exact .inr ⟨rfl, hname, hactive⟩

theorem completed_of_append {p : Proc} (hprocs : s'.procs = s.procs ++ [p])
    (h : s.Completed c) : s'.Completed c := by
  obtain ⟨q, hq, hphase⟩ := h
  exact ⟨q, Inv.append_old hprocs hq, hphase⟩

/-- A process on its way to the registry has its name. -/
theorem occupies_of_insert {p : Proc} (hp : s.procs[c]? = some p) (hphase : p.phase = .insert) :
    s.Occupies p.name c :=
  .process hp rfl (by simp [Proc.isActive, hphase, Phase.submitted])

/-- A launch replaces no entry. -/
theorem registry_of_insert (hi : Inv s) (hs : Solo s) {p : Proc} (hp : s.procs[c]? = some p)
    (hphase : p.phase = .insert) : s.registry p.name = none := by
  cases he : s.registry p.name with
  | none => rfl
  | some e =>
    obtain ⟨q, hq, -, -, hreg⟩ := hi.registry _ e he
    obtain rfl := hs.unique _ _ _ (.entry he) (occupies_of_insert hp hphase)
    rw [hp, Option.some_inj] at hq
    subst hq
    cases hphase.symm.trans hreg

theorem mem_received_of_taken {r : RestartRequest} (hr : s.handler.taken = some r) :
    r ∈ s.received := by
  refine List.mem_append_left _ ?_
  revert hr
  cases s.handler <;> simp [Handler.taken, Handler.current, eq_comm]

/-- A process whose exit is being served takes no name. -/
theorem not_active_of_taken (hi : Inv s) (hs : Solo s) {r : RestartRequest}
    (hr : s.handler.taken = some r) {p : Proc} (hp : s.procs[r.proc]? = some p) :
    p.isActive = false := by
  obtain ⟨q, hq, hphase⟩ := hs.completed r hr
  obtain ⟨q', hq', -, hstatus⟩ := hi.received r (mem_received_of_taken hr)
  rw [hp, Option.some_inj] at hq hq'
  subst hq hq'
  have hended := (hi.ok _ _ hp).reaped hstatus
  simp [Proc.isActive, hphase, hended, Watch.isLive, Phase.submitted, Phase.inProgress]

/-- The rule for the end of a launch, under the name that the process had. -/
theorem of_inserted (hi : Inv s) (hs : Solo s) {p : Proc} (hev : s.Evolves (some c) s')
    (hp : s.procs[c]? = some p) (hphase : p.phase = .insert)
    (hregistry : s'.registry = s.registry.insert p.name ⟨⟨p.config, p.pid⟩, c⟩)
    (hrequests : s'.requests = s.requests)
    (hhandler : s'.handler = if p.launcher = .handler then .idle else s.handler) : Solo s' := by
  have hown := occupies_of_insert hp hphase
  have hrec : s.handler.Recedes s'.handler := by
    rw [hhandler]
    split
    · exact .of_none rfl rfl
    · exact .of_eq rfl
  have hentry : ∀ name e, s'.registry name = some e → s.Occupies name e.proc := by
    intro name e he
    rw [hregistry] at he
    rcases ProcessRegistry.of_insert he with ⟨rfl, rfl⟩ | he
    · exact hown
    · exact .entry he
  have hreceived : ∀ r ∈ s'.received, r ∈ s.received := by
    intro r hr
    rw [State.received, hhandler, hrequests] at hr
    split at hr
    · exact List.mem_append_right _ hr
    · exact hr
  refine hs.of_recedes hrec c (fun name d hd => .inl ?_) (fun r hr => ?_) fun c => .of_evolves hev
  · rcases hd.of_evolves hev (hentry name) (fun r hr => .request (hreceived r hr)) with
      hd | ⟨hx, q, hq, rfl⟩
    · exact hd
    · obtain rfl := Option.some_inj.mp hx
      rw [hp, Option.some_inj] at hq
      subst hq
      exact hown
  · have hne : r.name ≠ p.name := by
      intro hname
      have hmem := mem_received_of_taken hr
      obtain rfl := hs.unique _ _ _ (.request hmem hname) hown
      have hidle := not_active_of_taken hi hs hr hp
      simp [Proc.isActive, hphase, Phase.submitted] at hidle
    rw [hregistry, ProcessRegistry.insert_of_ne hne]
    exact hs.cleared r hr

/-- The rule for a removal by the handler, which is of the entry its request is about. -/
theorem of_removed (hi : Inv s) (hs : Solo s) {r : RestartRequest} {e : Entry}
    (hh : s.handler = .removing r) (he : s.registry r.name = some e) (hprocs : s'.procs = s.procs)
    (htreg : s'.treg = s.treg) (hregistry : s'.registry = s.registry.remove r.name)
    (hrequests : s'.requests = s.requests) (hhandler : s'.handler = .deciding r e) :
    Solo s' := by
  have hreceived : s.received = r :: s.requests := by
    rw [State.received, hh]
    rfl
  have hown : e.proc = r.proc :=
    hs.unique _ _ _ (.entry he) (.request (by rw [hreceived]; exact .head _) rfl)
  have hocc (name : String) (c : ProcId) (hc : s'.Occupies name c) : s.Occupies name c :=
    hc.of_subset (.of_eq hprocs htreg)
      (fun _ _ he => ProcessRegistry.of_remove (by rwa [hregistry] at he)) fun q hq => by
        rw [State.received, hhandler, hrequests] at hq
        rwa [hreceived]
  exact
    { unique := fun name c d hc hd => hs.unique name c d (hocc name c hc) (hocc name d hd)
      reserved := fun name hn => by rw [hhandler] at hn; cases hn
      own := fun r' e' hd => by
        rw [hhandler] at hd
        cases hd
        exact hown
      cleared := fun r' hr' => by
        rw [hhandler] at hr'
        cases hr'
        rw [hregistry, ProcessRegistry.remove_self]
      completed := fun r' hr' => by
        rw [hhandler] at hr'
        cases hr'
        obtain ⟨p, hp, -, -, hphase⟩ := hi.registry _ e he
        exact ⟨p, by rw [hprocs, ← hown, hp], hphase⟩ }

/-- The rule for a respawn, for which the handler reserves the name of its request. -/
theorem of_respawned (hi : Inv s) (hs : Solo s) {r : RestartRequest} {e : Entry}
    {config : ProcessConfig} (hh : s.handler = .deciding r e) (hev : s.Evolves none s')
    (hregistry : s'.registry = s.registry) (hrequests : s'.requests = s.requests)
    (hhandler : s'.handler = .forking r.name config) : Solo s' := by
  have htaken : s.handler.taken = some r := by rw [hh]; rfl
  have hmem := mem_received_of_taken htaken
  have hreceived : s.received = r :: s.requests := by
    rw [State.received, hh]
    rfl
  have hreceived' : s'.received = s.requests := by
    rw [State.received, hhandler, hrequests]
    rfl
  have hocc {name : String} {c : ProcId} (hc : s'.Occupies name c) : s.Occupies name c :=
    hc.of_subset hev (fun _ _ he => by rwa [hregistry] at he)
      fun q hq => by rw [hreceived]; exact .tail _ (by rwa [hreceived'] at hq)
  refine
    { unique := fun name c d hc hd => hs.unique name c d (hocc hc) (hocc hd)
      reserved := fun name hn c hc => ?_
      own := fun r' e' hd => by rw [hhandler] at hd; cases hd
      cleared := fun r' hr' => by rw [hhandler] at hr'; cases hr'
      completed := fun r' hr' => by rw [hhandler] at hr'; cases hr' }
  rw [hhandler] at hn
  cases hn
  rcases hc with he | ⟨hp', hname, hactive⟩ | ⟨hq, hname⟩
  · rw [hregistry, hs.cleared r htaken] at he
    cases he
  · obtain ⟨p, hp, hevp⟩ := hev.origin hp'
    have hactive : p.isActive := (hevp.active hactive).resolve_right (by simp)
    obtain rfl := hs.unique _ _ _ (.process hp (by rw [← hevp.name, hname]) hactive)
      (.request hmem rfl)
    rw [not_active_of_taken hi hs htaken hp] at hactive
    cases hactive
  · rw [hreceived'] at hq
    have hsame := hs.unique _ _ _ (.request (by rw [hreceived]; exact .tail _ hq) hname)
      (.request hmem rfl)
    have hnodup := hi.nodup
    rw [hreceived, List.map_cons, List.nodup_cons] at hnodup
    exact hnodup.1 (List.mem_map.mpr ⟨_, hq, hsame⟩)

/-- The rule for a new process that is not active, so has no name yet. -/
theorem of_append_idle (hs : Solo s) {p : Proc} (hrec : s.handler.Recedes s'.handler)
    (hprocs : s'.procs = s.procs ++ [p]) (hidle : p.isActive = false)
    (hregistry : s'.registry = s.registry) (hreceived : ∀ r ∈ s'.received, r ∈ s.received) :
    Solo s' := by
  refine hs.of_recedes hrec 0 (fun name c hc => .inl ?_) (fun r hr => ?_)
    fun c => completed_of_append hprocs
  · rcases occupies_of_append hprocs hregistry hreceived hc with hc | ⟨-, -, hactive⟩
    · exact hc
    · rw [hidle] at hactive
      cases hactive
  · rw [hregistry]
    exact hs.cleared r hr

/-- The rule for the process the handler launches under the name it has reserved. -/
theorem of_append_reserved (hs : Solo s) {p : Proc} {config : ProcessConfig}
    (hforking : s.handler = .forking p.name config) (hprocs : s'.procs = s.procs ++ [p])
    (hregistry : s'.registry = s.registry) (hrequests : s'.requests = s.requests)
    (hhandler : s'.handler = .launching p.name s.procs.length) : Solo s' := by
  have hreserved : s.handler.reserved = some p.name := by rw [hforking]; rfl
  have hreceived : ∀ r ∈ s'.received, r ∈ s.received := fun r hr =>
    List.mem_append_right _ (by rwa [State.received, hhandler, hrequests] at hr)
  refine hs.of_recedes (by rw [hhandler]; exact .of_none rfl rfl) s.procs.length
    (fun name c hc => ?_) (fun r hr => ?_) fun c => completed_of_append hprocs
  · rcases occupies_of_append hprocs hregistry hreceived hc with hc | ⟨rfl, rfl, -⟩
    · exact .inl hc
    · exact .inr ⟨rfl, hs.reserved _ hreserved, by simp [hhandler, Handler.reserved]⟩
  · rw [hforking] at hr
    cases hr

/-- The rule for a submission of the monitoring task, by the handler or under a name that
nobody has. -/
theorem of_submitted (hs : Solo s) {p : Proc} (hev : s.Evolves (some c) s')
    (hp : s.procs[c]? = some p) (hphase : p.phase = .submitProcess) (hk : s.Keeps s')
    (hvacant : p.launcher = .handler ∨ s.isVacant p.name) : Solo s' := by
  refine hs.of_recedes (.of_eq hk.handler) c (fun name d hd => ?_) (fun r hr => ?_)
    fun c => .of_evolves hev
  · rcases hd.of_evolves hev (fun e he => .entry (by rwa [hk.registry] at he))
      (fun r hr hname =>
        .request (by rwa [State.received_congr hk.handler hk.requests] at hr) hname)
      with hd | ⟨hx, q, hq, rfl⟩
    · exact .inl hd
    · obtain rfl := Option.some_inj.mp hx
      rw [hp, Option.some_inj] at hq
      subst hq
      rcases hvacant with hl | hv
      · exact .inl (.process hp rfl (by simp [Proc.isActive, hphase, hl, Phase.inProgress]))
      · exact .inr ⟨rfl, State.not_occupies_of_isVacant hv, by
          rw [hk.handler]; exact State.reserved_ne_of_isVacant hv⟩
  · rw [hk.registry]
    exact hs.cleared r hr

/-- The rule for a request to restart a process, which had its name while it was watched. -/
theorem of_exitSeen (hs : Solo s) {p : Proc} (hev : s.Evolves none s')
    (hp : s.procs[c]? = some p) (hlive : p.watch.isLive) (hregistry : s'.registry = s.registry)
    (hhandler : s'.handler = s.handler) (hrequests : s'.requests = s.requests ++ [⟨p.name, c⟩]) :
    Solo s' := by
  have hrequest : ∀ name, ∀ r ∈ s'.received, r.name = name → s.Occupies name r.proc := by
    intro name r hr hname
    rw [State.received, hhandler, hrequests, ← List.append_assoc, List.mem_append,
      List.mem_singleton] at hr
    rcases hr with hr | rfl
    · exact .request hr hname
    · exact .process hp hname (by simp [Proc.isActive, hlive])
  refine hs.of_recedes (.of_eq hhandler) 0 (fun name d hd => .inl ?_) (fun r hr => ?_)
    fun c => .of_evolves hev
  · rcases hd.of_evolves hev (fun e he => .entry (by rwa [hregistry] at he)) (hrequest name)
      with hd | ⟨hx, -⟩
    · exact hd
    · cases hx
  · rw [hregistry]
    exact hs.cleared r hr

/-- Every step keeps `Solo`, if a start that submits does so under a vacant name. -/
theorem step (hi : Inv s) (hs : Solo s) (hvacant : s.submitsVacant a)
    (h : Yapm.step a s = some s') : Solo s' := by
  have hchange := change_of_step hi.ok hi.pids h
  cases hchange with
  | quiet hev hk =>
    refine hs.of_subset hev (.of_eq hk.handler) (fun _ _ he => ?_) fun r hr => ?_
    · rwa [hk.registry] at he
    · rwa [State.received_congr hk.handler hk.requests] at hr
  | @forked l _ _ _ p hfork hfree hp hprocs htreg hregistry hrequests hstops hhandler =>
    cases l with
    | start i =>
      have hhandler : s'.handler = s.handler := hhandler
      exact hs.of_append_idle (.of_eq hhandler) hprocs (by rw [hp]; rfl) hregistry
        fun r hr => by rwa [State.received_congr hhandler hrequests] at hr
    | handler =>
      exact hs.of_append_reserved (Inv.handler_of_forkConfig hfork) hprocs hregistry hrequests
        hhandler
  | @leaked l _ _ _ p hfork hfree hp hspawned hprocs htreg hregistry hrequests hstops hhandler =>
    refine hs.of_append_idle (by rw [hhandler]; exact .afterFailure _ l) hprocs
      (by rw [hp]; cases l <;> rfl) hregistry fun r hr => ?_
    rw [State.received, hhandler, hrequests] at hr
    exact Handler.mem_of_afterFailure hr
  | @forkFailed l _ _ _ _ hprocs htreg hregistry hrequests hstops hhandler hfork =>
    refine hs.of_subset (.of_eq hprocs htreg)
      (by rw [hhandler]; exact .afterFailure _ l) (fun _ _ he => ?_) fun r hr => ?_
    · rwa [hregistry] at he
    · rw [State.received, hhandler, hrequests] at hr
      exact Handler.mem_of_afterFailure hr
  | @launchFailed _ _ c p p' hev hp hin hp' hfailed hregistry hrequests hstops hhandler =>
    refine hs.of_subset hev (by rw [hhandler]; exact .afterFailure _ _) (fun _ _ he => ?_)
      fun r hr => ?_
    · rwa [hregistry] at he
    · rw [State.received, hhandler, hrequests] at hr
      exact Handler.mem_of_afterFailure hr
  | submitted hev hp hphase hp' hphase' hk =>
    simp only [State.submitsVacant, hp, Bool.or_eq_true, decide_eq_true_eq] at hvacant
    exact hs.of_submitted hev hp hphase hk hvacant
  | inserted hev hp hphase hp' hphase' hregistry hrequests hstops hhandler =>
    exact hs.of_inserted hi hev hp hphase hregistry hrequests hhandler
  | @stopRemoved _ i name e he hprocs htreg hregistry hhandler hrequests hstops =>
    refine hs.of_subset (.of_eq hprocs htreg) (.of_eq hhandler)
      (fun _ _ he => ?_) fun r hr => ?_
    · rw [hregistry] at he
      exact ProcessRegistry.of_remove he
    · rwa [State.received_congr hhandler hrequests] at hr
  | @stopKilled _ i _ hev hregistry hhandler hrequests hstops =>
    refine hs.of_subset hev (.of_eq hhandler) (fun _ _ he => ?_) fun r hr => ?_
    · rwa [hregistry] at he
    · rwa [State.received_congr hhandler hrequests] at hr
  | stopped he hev hregistry hhandler hrequests hstops hdead =>
    refine hs.of_subset hev (.of_eq hhandler) (fun _ _ he => ?_) fun r hr => ?_
    · rw [hregistry] at he
      exact ProcessRegistry.of_remove he
    · rwa [State.received_congr hhandler hrequests] at hr
  | exitSeen hev hp hlive hp' hreaped hregistry hhandler hreceives hrequests hstops =>
    exact hs.of_exitSeen hev hp hlive hregistry hhandler hrequests
  | @received r requests hidle hr =>
    refine hs.of_subset (.of_eq rfl rfl) (.of_none rfl rfl) (fun _ _ he => he) fun q hq => ?_
    simpa [State.received, Handler.current, hidle, hr] using hq
  | notFound hh hr =>
    exact hs.of_subset (.of_eq rfl rfl) (.of_none rfl rfl) (fun _ _ he => he)
      fun q hq => List.mem_append_right _ hq
  | removed hh he hprocs htreg hregistry hrequests hstops hhandler =>
    exact hs.of_removed hi hh he hprocs htreg hregistry hrequests hhandler
  | @dropped _ _ r e hh hdrop hev hregistry hrequests hstops hhandler =>
    refine hs.of_subset hev ?_ (fun _ _ he => ?_) fun q hq => ?_
    · rw [hhandler, hh]
      exact .removingAgain r e
    · rwa [hregistry] at he
    · rw [State.received, hhandler, hrequests] at hq
      rw [State.received, hh]
      exact hq
  | respawned hh hev hregistry hrequests hstops hhandler =>
    exact hs.of_respawned hi hh hev hregistry hrequests hhandler
  | removedAgain hh =>
    exact hs.of_subset (.of_eq rfl rfl) (.of_none rfl rfl)
      (fun _ _ he => ProcessRegistry.of_remove he) fun q hq => List.mem_append_right _ hq

end Solo

end Yapm
