import Yapm.Daemon
import Yapm.Socket

/-!
# Replies to clients

The listener accepts connections and spawns a task for each. The task reads the command,
handles it, and writes the result to the connection. A command that terminates the daemon
tells the listener to shut down before its own result is written, and the listener exits
the process without waiting for any task.

`Server` is the listener, the channel its signal to shut down comes through, and the
connections. When the process ends only with every accepted connection done, and no forked
child answers in the place of the daemon (`Server.leavesAnswered`), every connection gets
its one result (`answered_of_reachable`). A shutdown command may get none
(`shutdown_unanswered`).
-/

namespace Yapm

open Socket (Command AcceptError)

namespace Replies

/-! ## Connections -/

/-- What a command results in. `δ` are the logs, lists and details that a client can ask
for. -/
inductive Response (δ : Type)
  | success (msg : String)
  | command (r : CommandResult)
  | data (d : δ)

/-- How commands are read, and results written. -/
structure Json (δ : Type) where
  fromSlice : List UInt8 → Except String Command
  toString : Response δ → Except String (List UInt8)

inductive Phase (δ : Type)
  | reading (buffer : List UInt8)
  | handling (cmd : Command)
  /-- Stopping all processes, to tell the listener to shut down then. -/
  | terminating (msg : String)
  | replying (response : Response δ)
  | writing (rest : List UInt8)
  | done

/-- An accepted connection : the task that handles it, what a forked child that returned
into the task has yet to write, and all that has been written. -/
structure Connection (δ : Type) where
  phase : Phase δ
  child : List UInt8
  written : List UInt8

variable {δ : Type}

/-- Nothing of the result has been written. -/
def Phase.isBefore : Phase δ → Bool
  | .writing _ | .done => false
  | _ => true

namespace Connection

def accepted : Connection δ where
  phase := .reading []
  child := []
  written := []

def isDone (c : Connection δ) : Bool :=
  match c.phase with
  | .done => true
  | _ => false

def read (bytes : List UInt8) (c : Connection δ) : Option (Connection δ) :=
  match c.phase with
  | .reading buffer => some { c with phase := .reading (buffer ++ bytes) }
  | _ => none

def readFails (e : String) (c : Connection δ) : Option (Connection δ) :=
  match c.phase with
  | .reading _ =>
    some { c with phase := .replying (.command (.error ("Failed to read command: " ++ e))) }
  | _ => none

/-- The client has closed its side. -/
def readToEnd (json : Json δ) (c : Connection δ) : Option (Connection δ) :=
  match c.phase with
  | .reading buffer =>
    match json.fromSlice buffer with
    | .ok cmd => some { c with phase := .handling cmd }
    | .error e => some { c with phase := .replying (.command (.error
        ("The result could not be serialized from the stream: " ++ e))) }
  | _ => none

/-- The command forks a child. -/
def forks : Command → Bool
  | .process .start | .config .startConfig => true
  | _ => false

/-- What a child writes : the result it got, unless it did not return. -/
def childReply (json : Json δ) (cmd : Command) (child : Option (Response δ)) : List UInt8 :=
  match forks cmd, child.map json.toString with
  | true, some (.ok bytes) => bytes
  | _, _ => []

/-- `handle_command`. The result of a command for processes, configurations or the monitor
is `response`, and that of the child it may fork is `child`. -/
def handleCommand (json : Json δ) (response : Response δ) (child : Option (Response δ))
    (c : Connection δ) : Option (Connection δ) :=
  match c.phase with
  | .handling (.system (.init true)) =>
    some { c with phase := .terminating "the runtimes have been terminated" }
  | .handling (.system (.init false)) =>
    some { c with phase := .replying (.success "The YAPM daemon has started successfully!") }
  | .handling (.system .status) =>
    some { c with phase := .replying (.success "yapmd is running") }
  | .handling (.system .shutdown) =>
    some { c with phase := .terminating "Shutdown process initiated, Daemon is terminating" }
  | .handling cmd =>
    some { c with phase := .replying response, child := childReply json cmd child }
  | _ => none

/-- The signal has been sent to the listener. -/
def terminated (c : Connection δ) : Option (Connection δ) :=
  match c.phase with
  | .terminating msg => some { c with phase := .replying (.success msg) }
  | _ => none

def setRest (c : Connection δ) (rest : List UInt8) : Connection δ :=
  { c with phase := if rest.isEmpty then .done else .writing rest }

/-- The beginning of `reply`. A result that cannot be serialized is not written. -/
def serialize (json : Json δ) (c : Connection δ) : Option (Connection δ) :=
  match c.phase with
  | .replying response =>
    match json.toString response with
    | .ok bytes => some (c.setRest bytes)
    | .error _ => some { c with phase := .done }
  | _ => none

/-- A write to the socket takes some of the bytes. -/
def write (n : ℕ) (c : Connection δ) : Option (Connection δ) :=
  match c.phase with
  | .writing rest =>
    if n = 0 then none
    else some ({ c with written := c.written ++ rest.take n }.setRest (rest.drop n))
  | _ => none

/-- A child writes. -/
def childWrites (n : ℕ) (c : Connection δ) : Option (Connection δ) :=
  if c.child.isEmpty ∨ n = 0 then none
  else some { c with written := c.written ++ c.child.take n, child := c.child.drop n }

end Connection

/-! ## The listener -/

inductive Listener
  /-- About to look for a signal. -/
  | selecting
  /-- Found no signal, about to look for a connection. -/
  | accepting
  /-- Telling itself to shut down. -/
  | refusing
  /-- Out of the loop. -/
  | leaving
deriving DecidableEq, Repr

/-- The daemon. The channel has room for one signal. -/
structure Server (δ : Type) where
  listener : Listener
  signal : Bool
  connections : List (Connection δ)
  exited : Bool

namespace Server

def init : Server δ where
  listener := .selecting
  signal := false
  connections := []
  exited := false

/-- The listener looks for a signal first. -/
def pollSignal (s : Server δ) : Option (Server δ) :=
  match s.listener, s.signal with
  | .selecting, true => some { s with listener := .leaving, signal := false }
  | .selecting, false => some { s with listener := .accepting }
  | _, _ => none

/-- No connection is there, and the listener is woken up by what comes first. -/
def pollAgain (s : Server δ) : Option (Server δ) :=
  match s.listener with
  | .accepting => some { s with listener := .selecting }
  | _ => none

def accept (s : Server δ) : Option (Server δ) :=
  match s.listener with
  | .accepting =>
    some { s with listener := .selecting, connections := s.connections ++ [.accepted] }
  | _ => none

/-- `handle_connect_errcase`. -/
def acceptError (s : Server δ) (e : AcceptError) : Option (Server δ) :=
  match s.listener with
  | .accepting => some { s with listener := if e.isFatal then .refusing else .selecting }
  | _ => none

def refuse (s : Server δ) : Option (Server δ) :=
  match s.listener, s.signal with
  | .refusing, false => some { s with listener := .selecting, signal := true }
  | _, _ => none

def exit (s : Server δ) : Option (Server δ) :=
  match s.listener with
  | .leaving => some { s with exited := true }
  | _ => none

/-- The task of a connection takes a step. -/
def onConnection (s : Server δ) (k : ℕ) (f : Connection δ → Option (Connection δ)) :
    Option (Server δ) :=
  match s.connections[k]?.bind f with
  | some c => some { s with connections := s.connections.set k c }
  | none => none

/-- The task of a connection sends the signal, if the channel has room. -/
def sendSignal (s : Server δ) (k : ℕ) : Option (Server δ) :=
  if s.signal then none else { s with signal := true }.onConnection k Connection.terminated

end Server

inductive Action (δ : Type)
  | pollSignal
  | pollAgain
  | accept
  | acceptError (e : AcceptError)
  | refuse
  | exit
  /-- A task of the daemon panics, and the process aborts. -/
  | panic
  | read (k : ℕ) (bytes : List UInt8)
  | readFails (k : ℕ) (e : String)
  | readToEnd (k : ℕ)
  | handleCommand (k : ℕ) (response : Response δ) (child : Option (Response δ))
  | sendSignal (k : ℕ)
  | serialize (k : ℕ)
  | write (k : ℕ) (n : ℕ)
  | childWrites (k : ℕ) (n : ℕ)

def daemonStep (json : Json δ) (a : Action δ) (s : Server δ) : Option (Server δ) :=
  match a with
  | .pollSignal => s.pollSignal
  | .pollAgain => s.pollAgain
  | .accept => s.accept
  | .acceptError e => s.acceptError e
  | .refuse => s.refuse
  | .exit => s.exit
  | .panic => some { s with exited := true }
  | .read k bytes => s.onConnection k (·.read bytes)
  | .readFails k e => s.onConnection k (·.readFails e)
  | .readToEnd k => s.onConnection k (·.readToEnd json)
  | .handleCommand k response child => s.onConnection k (·.handleCommand json response child)
  | .sendSignal k => s.sendSignal k
  | .serialize k => s.onConnection k (·.serialize json)
  | .write k n => s.onConnection k (·.write n)
  | .childWrites _ _ => none

/-- A step of the daemon while it runs, or of a child, which may go on after it. -/
def step (json : Json δ) (a : Action δ) (s : Server δ) : Option (Server δ) :=
  match a with
  | .childWrites k n => s.onConnection k (·.childWrites n)
  | a => if s.exited then none else daemonStep json a s

abbrev Reachable (json : Json δ) (C : Server δ → Action δ → Prop) (s : Server δ) : Prop :=
  Runs.Reach (step json) .init C s

/-! ## Replies -/

/-- All that has been written to the connection is one result. -/
def Connection.Answered (json : Json δ) (c : Connection δ) : Prop :=
  ∃ response, json.toString response = .ok c.written

namespace Server

/-- Every connection that is done has been answered, and when the process has ended every
connection has. -/
def Answered (json : Json δ) (s : Server δ) : Prop :=
  ∀ c ∈ s.connections, c.isDone ∨ s.exited → c.Answered json

/-- The process does not end while a connection is being handled, and no child returns into
the task it was forked from. -/
def leavesAnswered (s : Server δ) : Action δ → Bool
  | .exit | .panic => s.connections.all (·.isDone)
  | .handleCommand _ _ child => child.isNone
  | _ => true

end Server

/-! ## What holds in every run -/

variable {json : Json δ}

/-- How far the result of a connection has come. -/
structure Connection.Ok (json : Json δ) (c : Connection δ) : Prop where
  child : c.child = []
  before : c.phase.isBefore → c.written = []
  writing : ∀ rest, c.phase = .writing rest →
    ∃ response, json.toString response = .ok (c.written ++ rest)
  done : c.isDone → c.Answered json

namespace Connection.Ok

variable {c c' : Connection δ}

theorem accepted : Ok json (.accepted : Connection δ) where
  child := rfl
  before _ := rfl
  writing rest h := by cases h
  done h := by cases h

/-- The rule for steps before the result is written. -/
theorem of_isBefore (h : c.Ok json) (hc : c.phase.isBefore) {phase : Phase δ}
    (hphase : phase.isBefore) : Ok json { c with phase } where
  child := h.child
  before _ := h.before hc
  writing rest hrest := by
    obtain rfl : phase = .writing rest := hrest
    cases hphase
  done hdone := by cases phase <;> simp [isDone, Phase.isBefore] at hdone hphase

/-- The rule for steps that write. -/
theorem setRest (hchild : c.child = []) {response : Response δ} {rest : List UInt8}
    (h : json.toString response = .ok (c.written ++ rest)) : (c.setRest rest).Ok json where
  child := hchild
  before hbefore := by cases rest <;> simp [Connection.setRest, Phase.isBefore] at hbefore
  writing rest' hrest' := by
    cases rest with
    | nil => simp [Connection.setRest] at hrest'
    | cons b rest =>
      obtain rfl : b :: rest = rest' := by simpa [Connection.setRest] using hrest'
      exact ⟨response, h⟩
  done hdone := by
    cases rest with
    | nil => exact ⟨response, by simpa [Connection.setRest] using h⟩
    | cons b rest => simp [Connection.setRest, isDone] at hdone

theorem read {bytes : List UInt8} (h : c.Ok json) (hs : c.read bytes = some c') : c'.Ok json := by
  unfold Connection.read at hs
  split at hs
  · rename_i buffer hphase
    obtain rfl := Option.some_inj.mp hs
    exact h.of_isBefore (by rw [hphase]; rfl) rfl
  · cases hs

theorem readFails {e : String} (h : c.Ok json) (hs : c.readFails e = some c') : c'.Ok json := by
  unfold Connection.readFails at hs
  split at hs
  · rename_i buffer hphase
    obtain rfl := Option.some_inj.mp hs
    exact h.of_isBefore (by rw [hphase]; rfl) rfl
  · cases hs

theorem readToEnd (h : c.Ok json) (hs : c.readToEnd json = some c') : c'.Ok json := by
  unfold Connection.readToEnd at hs
  split at hs
  · rename_i buffer hphase
    split at hs <;> obtain rfl := Option.some_inj.mp hs <;>
      exact h.of_isBefore (by rw [hphase]; rfl) rfl
  · cases hs

theorem handleCommand {response : Response δ} (h : c.Ok json)
    (hs : c.handleCommand json response none = some c') : c'.Ok json := by
  unfold Connection.handleCommand at hs
  split at hs
  case h_6 => cases hs
  case h_5 cmd _ _ _ _ hphase =>
    obtain rfl := Option.some_inj.mp hs
    have hchild : childReply json cmd none = c.child := by
      rw [h.child]
      cases hforks : forks cmd <;> simp [childReply, hforks]
    rw [hchild]
    exact h.of_isBefore (by rw [hphase]; rfl) rfl
  all_goals
    rename_i hphase
    obtain rfl := Option.some_inj.mp hs
    exact h.of_isBefore (by rw [hphase]; rfl) rfl

theorem terminated (h : c.Ok json) (hs : c.terminated = some c') : c'.Ok json := by
  unfold Connection.terminated at hs
  split at hs
  · rename_i msg hphase
    obtain rfl := Option.some_inj.mp hs
    exact h.of_isBefore (by rw [hphase]; rfl) rfl
  · cases hs

theorem serialize (hserializes : ∀ response, ∃ bytes, json.toString response = .ok bytes)
    (h : c.Ok json) (hs : c.serialize json = some c') : c'.Ok json := by
  unfold Connection.serialize at hs
  split at hs
  · rename_i response hphase
    obtain ⟨bytes, hbytes⟩ := hserializes response
    rw [hbytes] at hs
    obtain rfl := Option.some_inj.mp hs
    have hwritten : c.written = [] := h.before (by rw [hphase]; rfl)
    exact setRest h.child (hbytes.trans (by rw [hwritten]; rfl))
  · cases hs

theorem write {n : ℕ} (h : c.Ok json) (hs : c.write n = some c') : c'.Ok json := by
  unfold Connection.write at hs
  split at hs
  · rename_i rest hphase
    split at hs
    · cases hs
    · obtain rfl := Option.some_inj.mp hs
      obtain ⟨response, hresponse⟩ := h.writing rest hphase
      refine setRest (c := { c with written := c.written ++ rest.take n }) h.child
        (hresponse.trans ?_)
      rw [ List.append_assoc, List.take_append_drop]
  · cases hs

/-- No child has anything to write. -/
theorem childWrites {n : ℕ} (h : c.Ok json) : c.childWrites n = none := by
  simp [Connection.childWrites, h.child]

end Connection.Ok

/-- Every connection is on its way, and when the process has ended all are done. -/
structure Server.Ok (json : Json δ) (s : Server δ) : Prop where
  connections : ∀ c ∈ s.connections, c.Ok json
  exited : s.exited → ∀ c ∈ s.connections, c.isDone

namespace Server.Ok

variable {s s' : Server δ}

theorem init : Ok json (.init : Server δ) where
  connections c hc := by simp [Server.init] at hc
  exited h := by cases h

/-- The rule for steps that the connections take no part in. -/
theorem of_connections (h : s.Ok json) (hconnections : s'.connections = s.connections)
    (hexited : s'.exited = s.exited) : s'.Ok json where
  connections := hconnections ▸ h.connections
  exited := by rw [hconnections, hexited]; exact h.exited

/-- The rule for steps of one connection, while the process runs. -/
theorem onConnection (h : s.Ok json) (hruns : s.exited = false) {k : ℕ}
    {f : Connection δ → Option (Connection δ)}
    (hf : ∀ c c', c.Ok json → f c = some c' → c'.Ok json)
    (hs : s.onConnection k f = some s') : s'.Ok json := by
  unfold Server.onConnection at hs
  split at hs
  · rename_i c' hc'
    obtain rfl := Option.some_inj.mp hs
    obtain ⟨c, hc, hfc⟩ := Option.bind_eq_some_iff.mp hc'
    refine ⟨fun d hd => ?_, fun hexited => by simp [hruns] at hexited⟩
    rcases List.mem_or_eq_of_mem_set hd with hd | rfl
    · exact h.connections d hd
    · exact hf c d (h.connections c (List.mem_of_getElem? hc)) hfc
  · cases hs

theorem childWrites (h : s.Ok json) (k n : ℕ) :
    s.onConnection k (·.childWrites n) = none := by
  have hbind : (s.connections[k]?.bind fun c => c.childWrites n) = none := by
    cases hc : s.connections[k]? with
    | none => rfl
    | some c => exact (h.connections c (List.mem_of_getElem? hc)).childWrites
  rw [Server.onConnection, hbind]

/-- A step of the listener that goes on. -/
theorem listener (h : s.Ok json) {listener : Listener} {signal : Bool}
    (hs : some { s with listener, signal } = some s') : s'.Ok json :=
  h.of_connections (by rw [← Option.some_inj.mp hs]) (by rw [← Option.some_inj.mp hs])

theorem accept (h : s.Ok json) (hruns : s.exited = false) (hs : s.accept = some s') :
    s'.Ok json := by
  unfold Server.accept at hs
  split at hs
  · obtain rfl := Option.some_inj.mp hs
    refine ⟨fun c hc => ?_, fun hexited => by simp [hruns] at hexited⟩
    rcases List.mem_append.mp hc with hc | hc
    · exact h.connections c hc
    · rw [List.mem_singleton.mp hc]
      exact .accepted
  · cases hs

/-- The process ends. -/
theorem exited_of_all (h : s.Ok json) (hdone : s.connections.all (·.isDone)) :
    Ok json { s with exited := true } :=
  ⟨h.connections, fun _ => List.all_eq_true.mp hdone⟩

theorem sendSignal (h : s.Ok json) (hruns : s.exited = false) {k : ℕ}
    (hs : s.sendSignal k = some s') : s'.Ok json := by
  unfold Server.sendSignal at hs
  split at hs
  · cases hs
  · have hsignal : Ok json { s with signal := true } := h.of_connections rfl rfl
    exact hsignal.onConnection hruns (fun _ _ => .terminated) hs

theorem daemonStep (hserializes : ∀ response, ∃ bytes, json.toString response = .ok bytes)
    (h : s.Ok json) (hruns : s.exited = false) {a : Action δ} (ha : s.leavesAnswered a)
    (hs : daemonStep json a s = some s') : s'.Ok json := by
  cases a with
  | pollSignal =>
    simp only [Replies.daemonStep, Server.pollSignal] at hs
    split at hs
    · exact h.listener hs
    · exact h.listener hs
    · cases hs
  | pollAgain =>
    simp only [Replies.daemonStep, Server.pollAgain] at hs
    split at hs
    · exact h.listener hs
    · cases hs
  | acceptError e =>
    simp only [Replies.daemonStep, Server.acceptError] at hs
    split at hs
    · exact h.listener hs
    · cases hs
  | refuse =>
    simp only [Replies.daemonStep, Server.refuse] at hs
    split at hs
    · exact h.listener hs
    · cases hs
  | accept => exact h.accept hruns hs
  | exit =>
    simp only [Replies.daemonStep, Server.exit] at hs
    split at hs
    · obtain rfl := Option.some_inj.mp hs
      exact h.exited_of_all ha
    · cases hs
  | panic =>
    obtain rfl := Option.some_inj.mp hs
    exact h.exited_of_all ha
  | sendSignal k => exact h.sendSignal hruns hs
  | read k bytes => exact h.onConnection hruns (fun _ _ => .read) hs
  | readFails k e => exact h.onConnection hruns (fun _ _ => .readFails) hs
  | readToEnd k => exact h.onConnection hruns (fun _ _ => .readToEnd) hs
  | handleCommand k response child =>
    obtain rfl := Option.isNone_iff_eq_none.mp ha
    exact h.onConnection hruns (fun _ _ => .handleCommand) hs
  | serialize k => exact h.onConnection hruns (fun _ _ => .serialize hserializes) hs
  | write k n => exact h.onConnection hruns (fun _ _ => .write) hs
  | childWrites k n => cases hs

theorem step (hserializes : ∀ response, ∃ bytes, json.toString response = .ok bytes)
    (h : s.Ok json) {a : Action δ} (ha : s.leavesAnswered a) (hs : step json a s = some s') :
    s'.Ok json := by
  unfold Replies.step at hs
  split at hs
  · rw [h.childWrites] at hs
    cases hs
  · split at hs
    · cases hs
    · rename_i hexited
      exact h.daemonStep hserializes (Bool.eq_false_of_not_eq_true hexited) ha hs

end Server.Ok

/-- When the process ends only with every connection done, and no child returns, every
connection that is done has been answered, and when the process has ended all have. -/
theorem answered_of_reachable
    (hserializes : ∀ response, ∃ bytes, json.toString response = .ok bytes) {s : Server δ}
    (h : Reachable json (fun s a => s.leavesAnswered a) s) : s.Answered json := by
  have hok : s.Ok json := h.invariant .init fun _ _ _ hi ha hs => hi.step hserializes ha hs
  intro c hc hended
  refine (hok.connections c hc).done ?_
  rcases hended with hdone | hexited
  · exact hdone
  · exact hok.exited hexited c hc

/-! ## A shutdown command -/

def ascii (s : String) : List UInt8 :=
  s.toList.map fun c => c.toNat.toUInt8

def shutdownRequest : List UInt8 :=
  ascii "\x7b\"log_dir\":null,\"command\":\x7b\"System\":\"Shutdown\"\x7d\x7d"

/-- As much of the format as a shutdown command and its result take. -/
def shutdownJson : Json Unit where
  fromSlice bytes :=
    if bytes = shutdownRequest then .ok (.system .shutdown)
    else .error "expected value at line 1 column 1"
  toString response :=
    match response with
    | .success msg => .ok (ascii "\x7b\"Success\":\"" ++ ascii msg ++ ascii "\"\x7d")
    | _ => .ok (ascii "\x7b\"Error\":\"\"\x7d")

theorem shutdownJson_toString (response : Response Unit) :
    ∃ b bytes, shutdownJson.toString response = .ok (b :: bytes) := by
  cases response <;> exact ⟨_, _, rfl⟩

/-- A client sends the command, and the daemon signals its listener. -/
def shutdownSteps : List (Action Unit) :=
  [.pollSignal, .accept, .pollSignal, .read 0 shutdownRequest, .readToEnd 0,
    .handleCommand 0 (.data ()) none, .sendSignal 0, .pollAgain]

/-- The result is written before the listener exits. -/
theorem shutdown_answered : ∃ s : Server Unit, s.Answered shutdownJson ∧ s.exited ∧
    ∃ c ∈ s.connections, c.isDone :=
  ⟨_, answered_of_reachable
    (fun response => by
      obtain ⟨b, bytes, h⟩ := shutdownJson_toString response
      exact ⟨b :: bytes, h⟩)
    (Runs.reach_of_checked
      (shutdownSteps ++ [.serialize 0, .write 0 16, .write 0 100, .pollSignal, .exit]) rfl),
    rfl, _, .head _, rfl⟩

/-- The listener exits before the result is written. -/
theorem shutdown_unanswered : ∃ s : Server Unit, Reachable shutdownJson (fun _ _ => True) s ∧
    ¬s.Answered shutdownJson ∧ s.exited ∧ ∃ c ∈ s.connections, c.written = [] := by
  refine ⟨_, Runs.reach_of_checked (shutdownSteps ++ [.pollSignal, .exit]) rfl, fun h => ?_,
    rfl, _, .head _, rfl⟩
  obtain ⟨response, hresponse⟩ := h _ (.head _) (.inr rfl)
  obtain ⟨b, bytes, hbytes⟩ := shutdownJson_toString response
  cases hresponse.symm.trans hbytes

end Replies

end Yapm
