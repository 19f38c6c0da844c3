import Mathlib.Data.List.Basic
import Yapm.Runs

/-!
# The socket of the daemon

A client connects to the daemon through the file at `DAEMON_SOCKET_ADDR`. When nobody
listens there, a client with a command that may start a daemon forks one, which binds the
file, and then connects again. A bind fails when the file exists, whoever made it.

The file is removed on one way out only, the shutdown command. As long as a daemon ends
only when its file is gone (`System.freesPath`), the file of a daemon that has ended is
never left over, and once no daemon runs the next one can bind (`startable_of_reachable`).
After a forced re-initialisation it cannot (`forced_init_locks_out`).
-/

namespace Yapm

namespace Socket

/-! ## Commands -/

inductive ProcessCommands
  | start
  | stop
deriving DecidableEq, Repr

inductive ConfigCommands
  | startConfig
deriving DecidableEq, Repr

inductive MonitorCommands
  | list
  | show
  | log
  | metrics
deriving DecidableEq, Repr

inductive SystemCommands
  | init (force : Bool)
  | status
  | shutdown
deriving DecidableEq, Repr

/-- A command of a client, without its arguments. -/
inductive Command
  | process (cmd : ProcessCommands)
  | config (cmd : ConfigCommands)
  | monitor (cmd : MonitorCommands)
  | system (cmd : SystemCommands)
deriving DecidableEq, Repr

def shouldDaemonize : Command → Bool
  | .process .start | .system (.init _) => true
  | _ => false

/-- Why the listener could not accept a connection. -/
inductive AcceptError
  | interrupted
  | connectionAborted
  | connectionReset
  | tooManyFiles
  | addrInUse
  | addrNotAvailable
  | other
deriving DecidableEq, Repr

/-- `handle_connect_errcase` tells the listener to shut down. -/
def AcceptError.isFatal : AcceptError → Bool
  | .interrupted | .connectionAborted | .connectionReset => false
  | _ => true

/-! ## Daemons and their file -/

abbrev DaemonId := ℕ

inductive Phase
  /-- Forked, and yet to bind. -/
  | starting
  | listening
  /-- Told to shut down. -/
  | stopping
  | ended
deriving DecidableEq, Repr

/-- A connection the daemon has accepted : it has read a command, or is stopping all
processes before it tells the listener to shut down. -/
inductive Handling
  | received (cmd : Command)
  | terminating
deriving DecidableEq, Repr

structure Daemon where
  phase : Phase
  handling : List Handling
deriving DecidableEq, Repr

/-- The file at the address, as the daemon that bound it, the daemons, and the clients that
have forked one and will connect again. -/
structure System where
  path : Option DaemonId
  daemons : List Daemon
  waiting : List Command

namespace System

def init : System where
  path := none
  daemons := []
  waiting := []

def modifyDaemon (s : System) (d : DaemonId) (f : Daemon → Daemon) : System :=
  { s with daemons := s.daemons.modify d f }

def setPhase (s : System) (d : DaemonId) (phase : Phase) : System :=
  s.modifyDaemon d ({ · with phase })

inductive Connection
  | connected (d : DaemonId)
  | connectionRefused
  | notFound
deriving DecidableEq, Repr

/-- A file without a listener refuses connections. -/
def connect (s : System) : Connection :=
  match s.path with
  | none => .notFound
  | some d =>
    match s.daemons[d]? with
    | some ⟨.listening, _⟩ | some ⟨.stopping, _⟩ => .connected d
    | _ => .connectionRefused

/-- The command reaches the daemon, if it still accepts connections. -/
def deliver (s : System) (d : DaemonId) (cmd : Command) : System :=
  s.modifyDaemon d fun daemon =>
    if daemon.phase = .listening then
      { daemon with handling := daemon.handling ++ [.received cmd] }
    else daemon

/-- A client starts, and forks a daemon if it may. -/
def entry (s : System) (cmd : Command) (forks : Bool) : System :=
  match s.connect with
  | .connected d => s.deliver d cmd
  | _ =>
    if shouldDaemonize cmd then
      { s with
        daemons := if forks then s.daemons ++ [⟨.starting, []⟩] else s.daemons
        waiting := s.waiting ++ [cmd] }
    else s

/-- A client that has forked a daemon connects again. -/
def reconnect (s : System) (k : ℕ) : Option System :=
  match s.waiting[k]? with
  | none => none
  | some cmd =>
    let s := { s with waiting := s.waiting.eraseIdx k }
    match s.connect with
    | .connected d => some (s.deliver d cmd)
    | _ => some s

/-- A new daemon binds its socket. It panics when that fails, or something before it. -/
def daemonInit (s : System) (d : DaemonId) (fails : Bool) : Option System :=
  match s.daemons[d]? with
  | some ⟨.starting, _⟩ =>
    match fails, s.path with
    | false, none => some { s.modifyDaemon d (fun _ => ⟨.listening, []⟩) with path := some d }
    | _, _ => some (s.setPhase d .ended)
  | _ => none

/-- The daemon handles a command. `removes` says whether the file can be removed. -/
def handleCommand (s : System) (d : DaemonId) (k : ℕ) (removes : Bool) : Option System :=
  match s.daemons[d]? with
  | none => none
  | some daemon =>
    if daemon.phase = .ended then none
    else
      match daemon.handling[k]? with
      | some (.received (.system (.init true))) =>
        some (s.modifyDaemon d ({ · with handling := daemon.handling.set k .terminating }))
      | some (.received (.system .shutdown)) =>
        some { s.modifyDaemon d ({ · with handling := daemon.handling.set k .terminating }) with
          path := if removes then none else s.path }
      | some (.received _) =>
        some (s.modifyDaemon d ({ · with handling := daemon.handling.eraseIdx k }))
      | _ => none

/-- All processes are stopped, and the listener is told to shut down. -/
def sendShutdown (s : System) (d : DaemonId) (k : ℕ) : Option System :=
  match s.daemons[d]? with
  | none => none
  | some daemon =>
    if daemon.phase ≠ .ended ∧ daemon.handling[k]? = some .terminating then
      some (s.modifyDaemon d fun daemon => ⟨.stopping, daemon.handling.eraseIdx k⟩)
    else none

/-- The listener cannot accept a connection. -/
def acceptError (s : System) (d : DaemonId) (e : AcceptError) : Option System :=
  match s.daemons[d]? with
  | some ⟨.listening, _⟩ => some (if e.isFatal then s.setPhase d .stopping else s)
  | _ => none

/-- The listener has left its loop, and the daemon exits. -/
def exit (s : System) (d : DaemonId) : Option System :=
  match s.daemons[d]? with
  | some ⟨.stopping, _⟩ => some (s.setPhase d .ended)
  | _ => none

/-- The daemon is killed from outside, or a panic of one of its tasks aborts it. -/
def kill (s : System) (d : DaemonId) : Option System :=
  match s.daemons[d]? with
  | some daemon => if daemon.phase = .ended then none else some (s.setPhase d .ended)
  | none => none

end System

inductive Action
  | entry (cmd : Command) (forks : Bool)
  | reconnect (k : ℕ)
  | daemonInit (d : DaemonId) (fails : Bool)
  | handleCommand (d : DaemonId) (k : ℕ) (removes : Bool)
  | sendShutdown (d : DaemonId) (k : ℕ)
  | acceptError (d : DaemonId) (e : AcceptError)
  | exit (d : DaemonId)
  | kill (d : DaemonId)

def step : Action → System → Option System
  | .entry cmd forks, s => some (s.entry cmd forks)
  | .reconnect k, s => s.reconnect k
  | .daemonInit d fails, s => s.daemonInit d fails
  | .handleCommand d k removes, s => s.handleCommand d k removes
  | .sendShutdown d k, s => s.sendShutdown d k
  | .acceptError d e, s => s.acceptError d e
  | .exit d, s => s.exit d
  | .kill d, s => s.kill d

abbrev Reachable (C : System → Action → Prop) (s : System) : Prop :=
  Runs.Reach step .init C s

/-- The daemon listens, and nothing it handles will make it stop. -/
def Daemon.Stays (daemon : Daemon) : Prop :=
  daemon.phase = .listening ∧ .terminating ∉ daemon.handling

namespace System

/-! ## Who can start a daemon -/

/-- No daemon runs. -/
def noDaemon (s : System) : Bool :=
  s.daemons.all (·.phase = .ended)

/-- A client with the command forks a daemon, which binds its socket and listens. -/
def Starts (s : System) (cmd : Command) : Prop :=
  let d := s.daemons.length
  ∃ s', (s.entry cmd true).daemonInit d false = some s' ∧ s'.path = some d ∧
    s'.connect = .connected d

/-- When no daemon runs, every command that may start one does. -/
def Startable (s : System) : Prop :=
  s.noDaemon → ∀ cmd, shouldDaemonize cmd → s.Starts cmd

/-- The step does not make a daemon end whose file is at the address. -/
def freesPath (s : System) : Action → Bool
  | .handleCommand d k removes =>
    match (s.daemons[d]?).bind (·.handling[k]?) with
    | some (.received (.system (.init true))) => s.path ≠ some d
    | some (.received (.system .shutdown)) => removes || s.path ≠ some d
    | _ => true
  | .acceptError d e => !e.isFatal || s.path ≠ some d
  | .kill d => s.path ≠ some d
  | _ => true

/-! ## A file that is left over -/

/-- The file at the address is that of a daemon that goes on listening. -/
def Attended (s : System) : Prop :=
  ∀ d, s.path = some d → ∃ daemon, s.daemons[d]? = some daemon ∧ daemon.Stays

variable {s s' : System} {d : DaemonId} {a : Action}

theorem ended_of_noDaemon (h : s.noDaemon) {daemon : Daemon} (hd : s.daemons[d]? = some daemon) :
    daemon.phase = .ended := by
  simpa using List.all_eq_true.mp h daemon (List.mem_of_getElem? hd)

namespace Attended

theorem init : Attended .init := by
  intro d hd
  simp [System.init] at hd

/-- The rule for a change of one daemon. Where its file is at the address, it must go on. -/
theorem modifyDaemon (h : s.Attended) {f : Daemon → Daemon}
    (hf : s.path = some d → ∀ daemon, s.daemons[d]? = some daemon → daemon.Stays →
      (f daemon).Stays) : (s.modifyDaemon d f).Attended := by
  intro d' hd'
  have hd' : s.path = some d' := hd'
  obtain ⟨daemon, hdaemon, hstays⟩ := h d' hd'
  by_cases hd : d = d'
  · subst hd
    exact ⟨f daemon, by simp [System.modifyDaemon, hdaemon], hf hd' daemon hdaemon hstays⟩
  · exact ⟨daemon, by simp [System.modifyDaemon, hd, hdaemon], hstays⟩

/-- The case of a daemon whose file is elsewhere. -/
theorem modifyDaemon_of_ne (h : s.Attended) {f : Daemon → Daemon} (hne : s.path ≠ some d) :
    (s.modifyDaemon d f).Attended :=
  h.modifyDaemon fun hd => absurd hd hne

/-- A file at the address is not that of a daemon that does not go on. -/
theorem path_ne (h : s.Attended) {daemon : Daemon} (hd : s.daemons[d]? = some daemon)
    (hstays : ¬daemon.Stays) : s.path ≠ some d := by
  intro hpath
  obtain ⟨daemon', hd', hstays'⟩ := h d hpath
  rw [hd, Option.some_inj] at hd'
  exact hstays (hd' ▸ hstays')

theorem deliver (h : s.Attended) (d : DaemonId) (cmd : Command) : (s.deliver d cmd).Attended := by
  refine h.modifyDaemon fun _ daemon _ hstays => ?_
  simpa [hstays.1, Daemon.Stays] using hstays

theorem entry (h : s.Attended) (cmd : Command) (forks : Bool) : (s.entry cmd forks).Attended := by
  unfold System.entry
  split
  · exact h.deliver _ _
  · split
    · intro d hd
      obtain ⟨daemon, hdaemon, hstays⟩ := h d hd
      refine ⟨daemon, ?_, hstays⟩
      cases forks with
      | false => exact hdaemon
      | true =>
        have hlt := (List.getElem?_eq_some_iff.mp hdaemon).1
        simpa [List.getElem?_append_left hlt] using hdaemon
    · exact h

theorem reconnect (h : s.Attended) {k : ℕ} (hs : s.reconnect k = some s') : s'.Attended := by
  unfold System.reconnect at hs
  split at hs
  · cases hs
  · have hw : Attended { s with waiting := s.waiting.eraseIdx k } := h
    simp only at hs
    split at hs
    · obtain rfl := Option.some_inj.mp hs
      exact hw.deliver _ _
    · obtain rfl := Option.some_inj.mp hs
      exact hw

theorem daemonInit (h : s.Attended) {fails : Bool} (hs : s.daemonInit d fails = some s') :
    s'.Attended := by
  unfold System.daemonInit at hs
  split at hs
  · rename_i handling hd
    split at hs
    · obtain rfl := Option.some_inj.mp hs
      intro d' hd'
      obtain rfl : d = d' := Option.some_inj.mp hd'
      exact ⟨⟨.listening, []⟩, by simp [System.modifyDaemon, hd], rfl, by simp⟩
    · obtain rfl := Option.some_inj.mp hs
      exact h.modifyDaemon_of_ne (h.path_ne hd (by simp [Daemon.Stays]))
  · cases hs

theorem handleCommand (h : s.Attended) {k : ℕ} {removes : Bool}
    (hfrees : s.freesPath (.handleCommand d k removes))
    (hs : s.handleCommand d k removes = some s') : s'.Attended := by
  unfold System.handleCommand at hs
  split at hs
  · cases hs
  · rename_i daemon hd
    simp only [freesPath, hd, Option.bind_some] at hfrees
    split at hs
    · cases hs
    · split at hs
      · rename_i hk
        obtain rfl := Option.some_inj.mp hs
        exact h.modifyDaemon_of_ne (by simpa [hk] using hfrees)
      · rename_i hk
        obtain rfl := Option.some_inj.mp hs
        simp only [hk, Bool.or_eq_true, decide_eq_true_eq] at hfrees
        cases removes with
        | true =>
          intro d' hd'
          cases hd'
        | false => exact h.modifyDaemon_of_ne (hfrees.resolve_left (by simp))
      · obtain rfl := Option.some_inj.mp hs
        refine h.modifyDaemon fun _ daemon' hd' hstays => ?_
        rw [hd, Option.some_inj] at hd'
        subst hd'
        exact ⟨hstays.1, fun hmem => hstays.2 (List.mem_of_mem_eraseIdx hmem)⟩
      · cases hs

theorem sendShutdown (h : s.Attended) {k : ℕ} (hs : s.sendShutdown d k = some s') :
    s'.Attended := by
  unfold System.sendShutdown at hs
  split at hs
  · cases hs
  · rename_i daemon hd
    split at hs
    · rename_i hk
      obtain rfl := Option.some_inj.mp hs
      exact h.modifyDaemon_of_ne
        (h.path_ne hd fun hstays => hstays.2 (List.mem_of_getElem? hk.2))
    · cases hs

theorem acceptError (h : s.Attended) {e : AcceptError} (hfrees : s.freesPath (.acceptError d e))
    (hs : s.acceptError d e = some s') : s'.Attended := by
  unfold System.acceptError at hs
  split at hs
  · obtain rfl := Option.some_inj.mp hs
    split
    · rename_i hfatal
      exact h.modifyDaemon_of_ne (by simpa [freesPath, hfatal] using hfrees)
    · exact h
  · cases hs

theorem exit (h : s.Attended) (hs : s.exit d = some s') : s'.Attended := by
  unfold System.exit at hs
  split at hs
  · rename_i handling hd
    obtain rfl := Option.some_inj.mp hs
    exact h.modifyDaemon_of_ne (h.path_ne hd (by simp [Daemon.Stays]))
  · cases hs

theorem kill (h : s.Attended) (hfrees : s.freesPath (.kill d)) (hs : s.kill d = some s') :
    s'.Attended := by
  unfold System.kill at hs
  split at hs
  · split at hs
    · cases hs
    · obtain rfl := Option.some_inj.mp hs
      exact h.modifyDaemon_of_ne (by simpa [freesPath] using hfrees)
  · cases hs

/-- A step that makes no daemon end whose file is there leaves over no file. -/
theorem step (h : s.Attended) (hfrees : s.freesPath a) (hs : Socket.step a s = some s') :
    s'.Attended := by
  cases a with
  | entry cmd forks =>
    obtain rfl := Option.some_inj.mp hs
    exact h.entry cmd forks
  | reconnect k => exact h.reconnect hs
  | daemonInit d fails => exact h.daemonInit hs
  | handleCommand d k removes => exact h.handleCommand hfrees hs
  | sendShutdown d k => exact h.sendShutdown hs
  | acceptError d e => exact h.acceptError hfrees hs
  | exit d => exact h.exit hs
  | kill d => exact h.kill hfrees hs

/-- No daemon, no file. -/
theorem path_eq_none (h : s.Attended) (hnone : s.noDaemon) : s.path = none := by
  cases hpath : s.path with
  | none => rfl
  | some d =>
    obtain ⟨daemon, hd, hstays⟩ := h d hpath
    have hended := ended_of_noDaemon hnone hd
    rw [hstays.1] at hended
    cases hended

end Attended

/-- A command that may start a daemon does exactly when there is no file, once nobody listens. -/
theorem starts_iff (hnone : s.noDaemon) (cmd : Command) (hcmd : shouldDaemonize cmd) :
    s.Starts cmd ↔ s.path = none := by
  have hrefused : ∀ d, s.connect ≠ .connected d := by
    intro d hd
    unfold connect at hd
    split at hd
    · cases hd
    · split at hd
      · have hended := ended_of_noDaemon hnone ‹_›
        cases hended
      · have hended := ended_of_noDaemon hnone ‹_›
        cases hended
      · cases hd
  have hentry : s.entry cmd true = { s with
      daemons := s.daemons ++ [⟨.starting, []⟩], waiting := s.waiting ++ [cmd] } := by
    unfold entry
    split
    · exact absurd ‹_› (hrefused _)
    · simp [hcmd]
  unfold Starts
  rw [hentry]
  cases hpath : s.path with
  | none => simp [daemonInit, modifyDaemon, connect]
  | some d =>
    refine iff_of_false ?_ (by simp)
    rintro ⟨s', hs', hpath', hconnect⟩
    simp only [daemonInit, List.getElem?_concat_length] at hs'
    obtain rfl := Option.some_inj.mp hs'
    obtain rfl : d = s.daemons.length := Option.some_inj.mp hpath'
    simp [connect, setPhase, modifyDaemon] at hconnect

end System

/-- In a run in which no daemon ends while its file is at the address, every command that may start
a daemon does whenever none runs. -/
theorem startable_of_reachable {s : System} (h : Reachable (fun s a => s.freesPath a) s) :
    s.Startable := by
  have hattended : s.Attended := h.invariant .init fun _ _ _ hi hfrees hs => hi.step hfrees hs
  intro hnone cmd hcmd
  exact (System.starts_iff hnone cmd hcmd).mpr (hattended.path_eq_none hnone)

/-- A daemon is started, shut down by command, and started again. -/
theorem shutdown_startable : ∃ s : System, s.Startable ∧ s.noDaemon ∧ s.daemons.length = 1 :=
  ⟨_, startable_of_reachable (Runs.reach_of_checked
    [.entry (.process .start) true, .daemonInit 0 false, .reconnect 0, .handleCommand 0 0 true,
      .entry (.system .shutdown) false, .handleCommand 0 0 true, .sendShutdown 0 0, .exit 0] rfl),
    rfl, rfl⟩

/-- A daemon that is initialised by force shuts itself down and leaves its file. The next
one cannot bind. -/
theorem forced_init_locks_out : ∃ s : System, Reachable (fun _ _ => True) s ∧ s.noDaemon ∧
    s.path = some 0 ∧ ¬s.Startable := by
  refine ⟨_, Runs.reach_of_checked [.entry (.system (.init true)) true, .daemonInit 0 false,
    .reconnect 0, .handleCommand 0 0 true, .sendShutdown 0 0, .exit 0] rfl, rfl, rfl, fun h => ?_⟩
  have hpath := (System.starts_iff rfl (.process .start) rfl).mp (h rfl _ rfl)
  cases hpath

end Socket

end Yapm
