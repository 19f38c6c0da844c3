import Yapm.Socket

/-!
# Whether one daemon serves at a time

A daemon that goes on listening is reached at the address, and so it is the only one
(`System.Sole`). The bind sees to that : it fails when the file exists. The one step that breaks it
is a shutdown command that removes the file when it is another daemon's. That is so for the second
of two shutdown commands, when a daemon has been started between them : the new daemon goes on, and
nobody reaches it.
-/

namespace Yapm

namespace Socket

namespace System

/-- A daemon that goes on listening is the one at the address. -/
def Sole (s : System) : Prop :=
  ∀ d daemon, s.daemons[d]? = some daemon → daemon.Stays → s.path = some d

/-- A shutdown command does not remove the file of another daemon that goes on listening. -/
def sparesFile (s : System) : Action → Prop
  | .handleCommand d k true => (s.daemons[d]?).bind (·.handling[k]?) =
      some (.received (.system .shutdown)) →
    ∀ d' daemon, d' ≠ d → s.daemons[d']? = some daemon → ¬daemon.Stays
  | _ => True

variable {s s' : System} {d : DaemonId} {a : Action}

namespace Sole

theorem init : Sole .init := by
  intro d daemon hd
  simp [System.init] at hd

/-- Two daemons that go on listening are the same. -/
theorem unique (h : s.Sole) {d' : DaemonId} {daemon daemon' : Daemon}
    (hd : s.daemons[d]? = some daemon) (hstays : daemon.Stays)
    (hd' : s.daemons[d']? = some daemon') (hstays' : daemon'.Stays) : d = d' :=
  Option.some.inj ((h d daemon hd hstays).symm.trans (h d' daemon' hd' hstays'))

/-- The rule for a change of one daemon, which does not make it go on, and of the path. -/
theorem modifyDaemon (h : s.Sole) {f : Daemon → Daemon} (hdaemons : s'.daemons =
    s.daemons.modify d f) (hpath : s'.path = s.path)
    (hf : ∀ daemon, s.daemons[d]? = some daemon → (f daemon).Stays → daemon.Stays) : s'.Sole := by
  intro d' daemon' hd' hstays
  rw [hdaemons, List.getElem?_modify, Option.map_eq_map, Option.map_eq_some_iff] at hd'
  obtain ⟨daemon, hdaemon, rfl⟩ := hd'
  rw [hpath]
  split at hstays
  · rename_i heq
    subst heq
    exact h d daemon hdaemon (hf daemon hdaemon hstays)
  · exact h d' daemon hdaemon hstays

theorem deliver (h : s.Sole) (d : DaemonId) (cmd : Command) : (s.deliver d cmd).Sole := by
  refine h.modifyDaemon rfl rfl fun daemon _ hstays => ?_
  split at hstays
  · exact ⟨hstays.1, fun hmem => hstays.2 (List.mem_append_left _ hmem)⟩
  · exact hstays

theorem entry (h : s.Sole) (cmd : Command) (forks : Bool) : (s.entry cmd forks).Sole := by
  unfold System.entry
  split
  · exact h.deliver _ _
  · split
    · intro d daemon hd hstays
      cases forks with
      | false => exact h d daemon hd hstays
      | true =>
        have hd : (s.daemons ++ [⟨.starting, []⟩])[d]? = some daemon := hd
        by_cases hlt : d < s.daemons.length
        · exact h d daemon (by rwa [List.getElem?_append_left hlt] at hd) hstays
        · rw [List.getElem?_append_right (Nat.not_lt.mp hlt)] at hd
          obtain rfl := List.mem_singleton.mp (List.mem_of_getElem? hd)
          cases hstays.1
    · exact h

theorem reconnect (h : s.Sole) {k : ℕ} (hs : s.reconnect k = some s') : s'.Sole := by
  unfold System.reconnect at hs
  split at hs
  · cases hs
  · have hw : Sole { s with waiting := s.waiting.eraseIdx k } := h
    dsimp only at hs
    split at hs
    · obtain rfl := Option.some.inj hs
      exact hw.deliver _ _
    · obtain rfl := Option.some.inj hs
      exact hw

/-- A daemon binds the file only if there is none, and then no other goes on. -/
theorem daemonInit (h : s.Sole) {fails : Bool} (hs : s.daemonInit d fails = some s') :
    s'.Sole := by
  unfold System.daemonInit at hs
  split at hs
  · split at hs
    · rename_i hpath
      obtain rfl := Option.some.inj hs
      intro d' daemon hd' hstays
      by_cases hne : d = d'
      · exact hne ▸ rfl
      · have hold : s.daemons[d']? = some daemon := by
          simpa [System.modifyDaemon, List.getElem?_modify_ne _ _ hne] using hd'
        cases hpath.symm.trans (h d' daemon hold hstays)
    · obtain rfl := Option.some.inj hs
      exact h.modifyDaemon rfl rfl fun _ _ hstays => by cases hstays.1
  · cases hs

/-- The rule for a step that tells a daemon to stop. -/
theorem of_stopped (h : s.Sole) {f : Daemon → Daemon} (hs : s.modifyDaemon d f = s')
    (hf : ∀ daemon, ¬(f daemon).Stays) : s'.Sole := by
  subst hs
  exact h.modifyDaemon rfl rfl fun daemon _ hstays => absurd hstays (hf daemon)

theorem sendShutdown (h : s.Sole) {k : ℕ} (hs : s.sendShutdown d k = some s') : s'.Sole := by
  unfold System.sendShutdown at hs
  split at hs
  · cases hs
  · obtain ⟨-, hs⟩ := Option.ite_none_right_eq_some.mp hs
    exact h.of_stopped (Option.some.inj hs) fun _ hstays => by cases hstays.1

theorem acceptError (h : s.Sole) {e : AcceptError} (hs : s.acceptError d e = some s') :
    s'.Sole := by
  unfold System.acceptError at hs
  split at hs
  · split at hs
    · exact h.of_stopped (Option.some.inj hs) fun _ hstays => by cases hstays.1
    · exact Option.some.inj hs ▸ h
  · cases hs

theorem exit (h : s.Sole) (hs : s.exit d = some s') : s'.Sole := by
  unfold System.exit at hs
  split at hs
  · exact h.of_stopped (Option.some.inj hs) fun _ hstays => by cases hstays.1
  · cases hs

theorem kill (h : s.Sole) (hs : s.kill d = some s') : s'.Sole := by
  unfold System.kill at hs
  split at hs
  · obtain ⟨-, hs⟩ := Option.ite_none_left_eq_some.mp hs
    exact h.of_stopped (Option.some.inj hs) fun _ hstays => by cases hstays.1
  · cases hs

end Sole

/-- A command that is handled leaves the path, or is a shutdown command that removes the file. -/
theorem handleCommand_cases {k : ℕ} {removes : Bool} (hs : s.handleCommand d k removes = some s') :
    ∃ daemon f, s.daemons[d]? = some daemon ∧ s'.daemons = s.daemons.modify d f ∧
      ((f daemon).Stays → daemon.Stays) ∧
      (s'.path = s.path ∧
          ¬(removes ∧ daemon.handling[k]? = some (.received (.system .shutdown))) ∨
        s'.path = none ∧ removes ∧ ¬(f daemon).Stays ∧
          daemon.handling[k]? = some (.received (.system .shutdown))) := by
  unfold System.handleCommand at hs
  split at hs
  · cases hs
  · rename_i daemon hd
    have hstops {k : ℕ} (hk : k < daemon.handling.length) :
        ¬Daemon.Stays { daemon with handling := daemon.handling.set k .terminating } :=
      fun hstays => hstays.2 (List.mem_set hk _)
    obtain ⟨-, hs⟩ := Option.ite_none_left_eq_some.mp hs
    split at hs
    · rename_i hk
      obtain rfl := Option.some.inj hs
      have hlt := (List.getElem?_eq_some_iff.mp hk).1
      exact ⟨daemon, _, hd, rfl, fun h => absurd h (hstops hlt), .inl ⟨rfl, by simp [hk]⟩⟩
    · rename_i hk
      obtain rfl := Option.some.inj hs
      have hlt := (List.getElem?_eq_some_iff.mp hk).1
      refine ⟨daemon, _, hd, rfl, fun h => absurd h (hstops hlt), ?_⟩
      cases removes with
      | false => exact .inl ⟨rfl, by simp⟩
      | true => exact .inr ⟨rfl, rfl, hstops hlt, hk⟩
    · rename_i cmd hinit hshutdown hk
      obtain rfl := Option.some.inj hs
      refine ⟨daemon, _, hd, rfl, fun h => ⟨h.1, fun hmem => h.2 ?_⟩, .inl ⟨rfl, ?_⟩⟩
      · obtain ⟨i, hi⟩ := List.mem_iff_getElem?.mp hmem
        refine List.mem_eraseIdx_iff_getElem?.mpr ⟨i, fun heq => ?_, hi⟩
        cases (heq ▸ hi).symm.trans hk
      · rintro ⟨-, hcmd⟩
        exact hshutdown (Handling.received.inj (Option.some.inj (hk.symm.trans hcmd)))
    · cases hs

/-- The file is gone, and so is every daemon that goes on, exactly when none but `d` did. -/
theorem sole_of_removed {f : Daemon → Daemon} {daemon : Daemon} (hd : s.daemons[d]? = some daemon)
    (hdaemons : s'.daemons = s.daemons.modify d f) (hpath : s'.path = none)
    (hstops : ¬(f daemon).Stays) :
    s'.Sole ↔ ∀ d' daemon, d' ≠ d → s.daemons[d']? = some daemon → ¬daemon.Stays := by
  constructor
  · intro h d' daemon' hne hd' hstays
    have hold : s'.daemons[d']? = some daemon' := by
      rwa [hdaemons, List.getElem?_modify_ne _ _ (Ne.symm hne)]
    cases hpath.symm.trans (h d' daemon' hold hstays)
  · intro h d' daemon' hd' hstays
    rw [hdaemons] at hd'
    by_cases hne : d' = d
    · subst hne
      rw [List.getElem?_modify_eq, hd] at hd'
      obtain rfl := Option.some.inj hd'
      exact absurd hstays hstops
    · rw [List.getElem?_modify_ne _ _ (Ne.symm hne)] at hd'
      exact absurd hstays (h d' daemon' hne hd')

theorem Sole.handleCommand_iff (h : s.Sole) {k : ℕ} {removes : Bool}
    (hs : s.handleCommand d k removes = some s') :
    s'.Sole ↔ s.sparesFile (.handleCommand d k removes) := by
  obtain ⟨daemon, f, hd, hdaemons, hf, ⟨hpath, hother⟩ | ⟨hpath, hremoves, hstops, hk⟩⟩ :=
    handleCommand_cases hs
  · refine iff_of_true (h.modifyDaemon hdaemons hpath fun daemon' hd' => ?_) ?_
    · obtain rfl := Option.some.inj (hd.symm.trans hd')
      exact hf
    · cases removes with
      | false => trivial
      | true => exact fun hk => absurd ⟨rfl, by simpa [hd] using hk⟩ hother
  · subst hremoves
    rw [sole_of_removed hd hdaemons hpath hstops]
    exact ⟨fun hall _ => hall, fun hspares => hspares (by simpa [hd] using hk)⟩

/-- A step keeps the daemon that goes on the only one exactly when it spares the file of
another. -/
theorem Sole.step_iff (h : s.Sole) (hs : Socket.step a s = some s') :
    s'.Sole ↔ s.sparesFile a := by
  cases a with
  | entry cmd forks =>
    obtain rfl := Option.some.inj hs
    exact iff_of_true (h.entry cmd forks) trivial
  | reconnect k => exact iff_of_true (h.reconnect hs) trivial
  | daemonInit d fails => exact iff_of_true (h.daemonInit hs) trivial
  | handleCommand d k removes => exact h.handleCommand_iff hs
  | sendShutdown d k => exact iff_of_true (h.sendShutdown hs) trivial
  | acceptError d e => exact iff_of_true (h.acceptError hs) trivial
  | exit d => exact iff_of_true (h.exit hs) trivial
  | kill d => exact iff_of_true (h.kill hs) trivial

end System

/-- All along a run every daemon that goes on listening is the one at the address, and so the only
one, exactly when no shutdown command removes the file of another daemon that goes on. -/
theorem sole_iff (as : List Action) : Runs.AllStates step System.Sole as .init ↔
    Runs.AllSteps step (fun s a => s.sparesFile a) as .init :=
  Runs.allStates_iff (I := fun _ => True) (fun _ _ _ _ _ _ _ => trivial)
    (fun _ _ _ _ h hs => h.step_iff hs) trivial .init

/-- A daemon is told twice to shut down, and in between another is started. It goes on, but its
file is gone. -/
example : ∃ s : System, Reachable (fun _ _ => True) s ∧ s.path = none ∧
    s.daemons[1]? = some ⟨.listening, []⟩ :=
  ⟨_, Runs.reach_of_checked [.entry (.process .start) true, .daemonInit 0 false,
    .entry (.system .shutdown) false, .entry (.system .shutdown) false, .handleCommand 0 0 true,
    .entry (.process .start) true, .daemonInit 1 false, .handleCommand 0 1 true] rfl, rfl, rfl⟩

end Socket

end Yapm
