import Yapm.Requests
import Yapm.Runs
import Yapm.Utf8

/-!
# An exchange with the daemon

A client writes its command line to a connection and closes its side, the daemon reads to the
end, handles the command and writes the result, and the client reads to the end. The end of
a message is the end of what can be read, so nothing but its text tells whether a message
is whole. A `Link` is what goes wrong on the way. A child that returns from its spawn replies
too, and is left out of the results (`Call.Sound`).

Text of which a part is missing cannot be parsed (`Json.Carries`). So a command that does not
arrive whole leaves nothing but an entry in the log for itself, and one for its reply if that
cannot be written (`step_of_cut`), and the client succeeds exactly when its whole command was
handled without an error and the whole result came back, which is what it shows
(`exitCode_eq_zero_iff`).
-/

open Serde

namespace Yapm

open Protocol (Formats)

namespace Exchange

variable {F : Type}

/-! ## Text -/

/-- The package for JSON : the text of a value, the value of a text, and what is said of an
error in decoding. -/
structure Json where
  print : Value → String
  parse : List UInt8 → Except String Value
  describe : DecodeError → String

namespace Json

variable (json : Json)

def bytes (v : Value) : List UInt8 :=
  asBytes (json.print v)

/-- `serde_json::from_slice`. -/
def fromSlice {α : Type} (d : Decoder α) (bytes : List UInt8) : Except String α :=
  match json.parse bytes with
  | .error e => .error e
  | .ok v =>
    match d v with
    | .error e => .error (json.describe e)
    | .ok a => .ok a

/-- The value is parsed from its text, which is not empty, and nothing is parsed from a part
of it. -/
structure Carries (v : Value) : Prop where
  parse_print : json.parse (json.bytes v) = .ok v
  parse_part : ∀ bytes, bytes <+: json.bytes v → bytes ≠ json.bytes v →
    ∃ e, json.parse bytes = .error e
  print_ne_nil : json.bytes v ≠ []

variable {json} {α : Type} {d : Decoder α} {v : Value} {bytes : List UInt8}

theorem Carries.fromSlice (h : json.Carries v) {a : α} (hd : d v = .ok a) :
    json.fromSlice d (json.bytes v) = .ok a := by
  simp only [Json.fromSlice, h.parse_print, hd]

theorem Carries.fromSlice_part (h : json.Carries v) (hpart : bytes <+: json.bytes v)
    (hne : bytes ≠ json.bytes v) : ∃ e, json.fromSlice d bytes = .error e := by
  obtain ⟨e, he⟩ := h.parse_part bytes hpart hne
  exact ⟨e, by simp only [Json.fromSlice, he]⟩

theorem Carries.fromSlice_nil (h : json.Carries v) : ∃ e, json.fromSlice d [] = .error e :=
  h.fromSlice_part List.nil_prefix h.print_ne_nil.symm

end Json

/-! ## The two sides -/

/-- After how many bytes a side cannot write, and why. -/
abbrev Cut := Option (ℕ × String)

namespace Cut

variable (c : Cut) (message : List UInt8)

/-- What is written of a message. -/
def passes : List UInt8 :=
  (c.map fun p => message.take p.1).getD message

/-- Why the rest is not. -/
def error : Option String :=
  (c.filter fun p => p.1 < message.length).map (·.2)

end Cut

/-- What goes wrong on a connection. -/
structure Link where
  /-- The client's writing. -/
  write : Cut
  /-- The client cannot close its side for writing. -/
  shutdownFails : Bool
  /-- Why the daemon cannot read. -/
  read : Option String
  /-- The daemon's writing. -/
  reply : Cut
  /-- How many bytes of the daemon's reply come before the reply of a child. -/
  child : ℕ
  /-- Why the client cannot read. -/
  response : Option String

namespace Link

variable (l : Link) (request : List UInt8)

/-- What the client can read of a reply, and of that of a child. -/
def replied (reply child : List UInt8) : List UInt8 :=
  (l.reply.passes reply).take l.child ++ child ++ (l.reply.passes reply).drop l.child

/-- The request gets to the daemon. -/
structure Delivers : Prop where
  write : ∀ p, l.write = some p → request.length ≤ p.1
  read : l.read = none

/-- And the reply gets to the client. -/
structure Returns (reply : List UInt8) : Prop where
  shutdown : l.shutdownFails = false
  reply : ∀ p, l.reply = some p → reply.length ≤ p.1
  response : l.response = none

end Link

/-- The result of a client that does not panic. -/
def sendTask (json : Json) (fmt : Formats F) (cli : CLI) (l : Link) (reply : List UInt8) :
    Option (Protocol.CommandResult F) :=
  match l.write.error (json.bytes (CLI.codec.encode cli)) with
  | some e => some (.error ("Writing to the socket failed: " ++ e))
  | none =>
    if l.shutdownFails then none
    else
      match l.response, Utf8.decode reply with
      | some e, _ => some (.error ("Reading the response object failed: " ++ e))
      | none, none => some (.error ("Reading the response object failed: " ++
          "stream did not contain valid UTF-8"))
      | none, some response =>
        match json.fromSlice (Protocol.CommandResult.decode fmt) reply with
        | .ok s => some s
        | .error e => some (.error ("Deserializing the response object failed: " ++ e ++ " - " ++
            response))

/-- The end of `entry` : the exit code of a client. -/
def exitCode : Option (Protocol.CommandResult F) → ℕ
  | none => 101
  | some (.error _) => 1
  | some _ => 0

/-- An entry of the daemon in the log, which panics when the lock of the log is poisoned. -/
def log (o : Conditions F) (i : ℕ) (ty : LogType) (msg : String) (s : ProcessManager) :
    Option ProcessManager :=
  if o.logPoisoned then none else some (s.log ⟨ty, o.now i, msg⟩)

/-- `handle_incoming`, up to its reply. -/
def handleIncoming (json : Json) (s : ProcessManager) (o : Conditions F) (l : Link)
    (request : List UInt8) : Option (Protocol.CommandResult F × ProcessManager) :=
  match l.read with
  | some e =>
    let res := "Failed to read command: " ++ e
    (log o 0 .yapmErr res s).map (.error res, ·)
  | none =>
    match json.fromSlice CLI.decode request with
    | .ok cli => s.handleCommand o cli.command
    | .error e =>
      let res := "The result could not be serialized from the stream: " ++ e
      (log o 0 .yapmWarning res s).map (.error res, ·)

/-- What a child of the command writes that returns from its spawn. -/
def childReply (json : Json) (fmt : Formats F) (s : ProcessManager) (o : Conditions F) (l : Link)
    (request : List UInt8) : List UInt8 :=
  match l.read, json.fromSlice CLI.decode request with
  | none, .ok cli =>
    ((s.childAnswer o cli.command).map fun r => json.bytes (r.encode fmt)).getD []
  | _, _ => []

/-- What `reply` writes. A handler that has panicked writes nothing. -/
def reply (json : Json) (fmt : Formats F) : Option (Protocol.CommandResult F) → List UInt8
  | none => []
  | some r => json.bytes (r.encode fmt)

/-- The manager after `reply`. -/
def replied (json : Json) (fmt : Formats F) (o : Conditions F) (l : Link)
    (p : Protocol.CommandResult F × ProcessManager) : Option ProcessManager :=
  match l.reply.error (json.bytes (p.1.encode fmt)) with
  | none => some p.2
  | some e => log o 2 .yapmErr ("Writing to the stream failed: " ++ e) p.2

/-- A client that comes to the daemon, and what both meet with. -/
structure Call (F : Type) where
  cli : CLI
  conditions : Conditions F
  link : Link
  /-- What else has been logged since the client before it. -/
  noted : List LogEntry

namespace Call

variable (json : Json) (fmt : Formats F) (a : Call F) (s : ProcessManager)

/-- The text of the command line. -/
def bytes : List UInt8 :=
  json.bytes (CLI.codec.encode a.cli)

/-- What the daemon can read of it. -/
def sent : List UInt8 :=
  a.link.write.passes (a.bytes json)

/-- The manager as the client finds it. -/
def found : ProcessManager :=
  s.logAll a.noted

/-- What the daemon does with what it reads. -/
def answer : Option (Protocol.CommandResult F × ProcessManager) :=
  handleIncoming json (a.found s) a.conditions a.link (a.sent json)

/-- The reply to the client, and that of a child. -/
def response : List UInt8 :=
  a.link.replied (reply json fmt ((a.answer json s).map (·.1)))
    (childReply json fmt (a.found s) a.conditions a.link (a.sent json))

/-- The manager after an exchange in which nothing panics, and the client's result. -/
def exchange : Option ProcessManager × Option (Protocol.CommandResult F) :=
  ((a.answer json s).bind (replied json fmt a.conditions a.link),
    sendTask json fmt a.cli a.link (a.response json fmt s))

/-- What the daemon does with the command itself. -/
def handled : Option (Protocol.CommandResult F × ProcessManager) :=
  (a.found s).handleCommand a.conditions a.cli.command

end Call

/-! ## What arrives -/

namespace Cut

variable {c : Cut} {bytes : List UInt8}

theorem passes_part (c : Cut) (bytes : List UInt8) : c.passes bytes <+: bytes := by
  cases c with
  | none => exact List.prefix_rfl
  | some p => exact List.take_prefix p.1 bytes

theorem passes_eq_iff : c.passes bytes = bytes ↔ ∀ p, c = some p → bytes.length ≤ p.1 := by
  cases c with
  | none => simp [passes]
  | some p => simp [passes]

theorem error_eq_none_iff : c.error bytes = none ↔ ∀ p, c = some p → bytes.length ≤ p.1 := by
  cases c with
  | none => simp [error]
  | some p => simp [error, Option.filter_some]

end Cut

/-- A reply that no child comes into. -/
theorem Link.replied_nil (l : Link) (bytes : List UInt8) :
    l.replied bytes [] = l.reply.passes bytes := by
  rw [replied, List.append_nil, List.take_append_drop]

section Arrivals

variable {json : Json} {fmt : Formats F} {s s' : ProcessManager} {a : Call F} {l : Link}
  {cli : CLI} {r : Protocol.CommandResult F} {o : Conditions F}

/-- The text of the command line can be trusted, its numbers are of their types, and no child of
the command returns. -/
structure Call.Sound (json : Json) (a : Call F) : Prop where
  request : json.Carries (CLI.codec.encode a.cli)
  numbers : a.cli.command.InUsize
  child : a.conditions.ChildEnds a.cli.command

theorem sent_of_delivers (h : a.link.Delivers (a.bytes json)) : a.sent json = a.bytes json :=
  Cut.passes_eq_iff.mpr h.write

/-- What is read of a command is the whole of it, or cannot be parsed. -/
theorem fromSlice_sent (ha : a.Sound json) (hread : a.link.read = none) :
    a.link.Delivers (a.bytes json) ∧ json.fromSlice CLI.decode (a.sent json) = .ok a.cli ∨
      ¬a.link.Delivers (a.bytes json) ∧
        ∃ e, json.fromSlice CLI.decode (a.sent json) = .error e := by
  by_cases hdelivers : a.link.Delivers (a.bytes json)
  · refine .inl ⟨hdelivers, ?_⟩
    rw [sent_of_delivers hdelivers]
    exact ha.request.fromSlice (CLI.codec.decode_encode ha.numbers)
  · refine .inr ⟨hdelivers, ha.request.fromSlice_part (a.link.write.passes_part _) fun heq => ?_⟩
    exact hdelivers ⟨Cut.passes_eq_iff.mp heq, hread⟩

/-- A command that arrives is handled. -/
theorem answer_of_delivers (ha : a.Sound json) (h : a.link.Delivers (a.bytes json)) :
    a.answer json s = a.handled s := by
  obtain ⟨-, hcli⟩ | ⟨hnot, -⟩ := fromSlice_sent ha h.read
  · simp only [Call.answer, handleIncoming, h.read, hcli]
    rfl
  · exact absurd h hnot

/-- One that does not is refused, whatever it was, and noted in the log. -/
theorem answer_of_not_delivers (ha : a.Sound json) (h : ¬a.link.Delivers (a.bytes json)) :
    ∃ ty msg, a.answer json s =
      (log a.conditions 0 ty msg (a.found s)).map (.error msg, ·) := by
  unfold Call.answer handleIncoming
  cases hread : a.link.read with
  | some e => exact ⟨_, _, rfl⟩
  | none =>
    obtain ⟨hdelivers, -⟩ | ⟨-, e, he⟩ := fromSlice_sent ha hread
    · exact absurd hdelivers h
    · exact ⟨_, _, by rw [he]⟩

/-- Nothing comes into the reply. -/
theorem response_eq (ha : a.Sound json) : a.response json fmt s =
    a.link.reply.passes (reply json fmt ((a.answer json s).map (·.1))) := by
  have hchild : childReply json fmt (a.found s) a.conditions a.link (a.sent json) = [] := by
    unfold childReply
    split
    · rename_i cli hread hcli
      obtain ⟨-, heq⟩ | ⟨-, e, he⟩ := fromSlice_sent ha hread
      · obtain rfl := Except.ok.inj (heq.symm.trans hcli)
        rw [ProcessManager.childAnswer_eq_none ha.child]
        rfl
      · cases he.symm.trans hcli
    · rfl
  rw [Call.response, hchild, Link.replied_nil]

/-- A client that succeeds shows what it has read. -/
theorem sendTask_of_exitCode {bytes : List UInt8}
    (h : exitCode (sendTask json fmt cli l bytes) = 0) :
    l.write.error (json.bytes (CLI.codec.encode cli)) = none ∧ l.shutdownFails = false ∧
      l.response = none ∧ ∃ r, json.fromSlice (Protocol.CommandResult.decode fmt) bytes = .ok r ∧
        sendTask json fmt cli l bytes = some r := by
  unfold sendTask at h ⊢
  split at h
  · cases h
  · rename_i hwrite
    split at h
    · cases h
    · rename_i hshutdown
      split at h
      · cases h
      · cases h
      · rename_i response hresponse htext
        split at h
        · rename_i r hr
          refine ⟨hwrite, by simpa using hshutdown, hresponse, r, hr, ?_⟩
          rw [if_neg hshutdown]
        · cases h

/-- A client that has read a result shows it. -/
theorem sendTask_of_read {v : Value}
    (hwrite : l.write.error (json.bytes (CLI.codec.encode cli)) = none)
    (h : l.Returns (json.bytes v))
    (hread : json.fromSlice (Protocol.CommandResult.decode fmt) (json.bytes v) = .ok r) :
    sendTask json fmt cli l (json.bytes v) = some r := by
  have htext : Utf8.decode (json.bytes v) = some (json.print v) := decode_asBytes _
  simp [sendTask, hwrite, h.shutdown, h.response, htext, hread]

/-- A daemon whose writing does not fail logs nothing of it. -/
theorem replied_of_returns {p : Protocol.CommandResult F × ProcessManager}
    (h : l.Returns (json.bytes (p.1.encode fmt))) : replied json fmt o l p = some p.2 := by
  rw [replied, Cut.error_eq_none_iff.mpr h.reply]

end Arrivals

/-! ## Sessions -/

/-- What the system gives is of its types, too. -/
structure Call.Fits (json : Json) (fmt : Formats F) (a : Call F) : Prop extends a.Sound json where
  conditions : a.conditions.Fits fmt
  noted : ∀ e ∈ a.noted, fmt.timestamp.Fits e.timestamp

/-- Clients come one after the other. -/
def step (json : Json) (fmt : Formats F) (a : Call F) (s : ProcessManager) :
    Option ProcessManager :=
  (a.exchange json fmt s).1

/-- The managers of a session that begins without processes and with an empty log. -/
def Reachable (json : Json) (fmt : Formats F) (init s : ProcessManager) : Prop :=
  ((∀ name, init.registry name = none) ∧ init.logger.glv = []) ∧
    Runs.Reach (step json fmt) init (fun _ a => a.Fits json fmt) s

section Sessions

variable {json : Json} {fmt : Formats F} {init s s' t : ProcessManager} {a : Call F}
  {r : Protocol.CommandResult F}

theorem log_displays {o : Conditions F} {i : ℕ} {ty : LogType} {msg : String}
    (hs : s.Displays fmt) (ho : o.Fits fmt) (h : log o i ty msg s = some s') :
    s'.Displays fmt := by
  obtain ⟨-, h⟩ := Option.ite_none_left_eq_some.mp h
  obtain rfl := Option.some.inj h
  exact hs.log _ (ho.now i)

/-- What the daemon answers can be shown to the client, and so can what it holds then. -/
theorem answers_of_displays (hs : s.Displays fmt) (ha : a.Fits json fmt)
    (hanswer : a.answer json s = some (r, s')) : ProcessManager.Shown fmt r s' := by
  have hfound : (a.found s).Displays fmt := hs.logAll ha.noted
  by_cases hdelivers : a.link.Delivers (a.bytes json)
  · rw [answer_of_delivers ha.toSound hdelivers] at hanswer
    exact hfound.handleCommand ha.conditions ha.numbers hanswer
  · obtain ⟨ty, msg, hrefused⟩ := answer_of_not_delivers (s := s) ha.toSound hdelivers
    obtain ⟨u, hlog, heq⟩ := Option.map_eq_some_iff.mp (hrefused.symm.trans hanswer)
    obtain ⟨rfl, rfl⟩ := Prod.mk.inj heq
    exact ⟨trivial, trivial, log_displays hfound ha.conditions hlog⟩

theorem displays_of_reachable (h : Reachable json fmt init s) : s.Displays fmt := by
  obtain ⟨⟨hregistry, hlogger⟩, hreach⟩ := h
  have hinit : init.Displays fmt := by
    refine ⟨fun name t ht => ?_, by simp [hlogger]⟩
    rw [hregistry name] at ht
    cases ht
  refine hreach.invariant (I := fun s => s.Displays fmt) hinit fun s s' a hs ha hstep => ?_
  obtain ⟨⟨r, s₁⟩, hanswer, hreplied⟩ := Option.bind_eq_some_iff.mp hstep
  have hshown := (answers_of_displays hs ha hanswer).displays
  unfold replied at hreplied
  split at hreplied
  · obtain rfl := Option.some.inj hreplied
    exact hshown
  · exact log_displays hshown ha.conditions hreplied

/-- A client that has read the result of its command from the whole of the reply shows it. -/
theorem exchange_of_returns (hs : s.Displays fmt) (ha : a.Fits json fmt)
    (hanswer : a.answer json s = some (r, s')) (hreply : json.Carries (r.encode fmt))
    (hwrite : a.link.write.error (a.bytes json) = none)
    (hreturns : a.link.Returns (json.bytes (r.encode fmt))) :
    a.exchange json fmt s = (some s', some r) := by
  have hanswers := answers_of_displays hs ha hanswer
  have hread : json.fromSlice (Protocol.CommandResult.decode fmt) (json.bytes (r.encode fmt)) =
      .ok r := by
    refine hreply.fromSlice ?_
    rw [Protocol.CommandResult.decode_encode fmt hanswers.typed,
      (Protocol.CommandResult.shown_eq_iff fmt hanswers.typed).mpr hanswers.displayable]
  rw [Call.exchange, response_eq ha.toSound, hanswer, Option.map_some, reply,
    Cut.passes_eq_iff.mpr hreturns.reply, sendTask_of_read hwrite hreturns hread, Option.bind_some,
    replied_of_returns hreturns]

/-- A client that succeeds has read the whole of a reply. -/
theorem returns_of_exitCode (ha : a.Fits json fmt)
    (hreply : ∀ r s', a.answer json s = some (r, s') → json.Carries (r.encode fmt))
    (hzero : exitCode (a.exchange json fmt s).2 = 0) :
    a.link.write.error (a.bytes json) = none ∧ ∃ r s', a.answer json s = some (r, s') ∧
      a.link.Returns (json.bytes (r.encode fmt)) := by
  obtain ⟨hwrite, hshutdown, hresponse, r, hread, -⟩ := sendTask_of_exitCode hzero
  refine ⟨hwrite, ?_⟩
  rw [response_eq ha.toSound] at hread
  cases hanswer : a.answer json s with
  | none =>
    have hnil : a.link.reply.passes [] = [] := List.prefix_nil.mp (a.link.reply.passes_part [])
    obtain ⟨e, he⟩ := ha.request.fromSlice_nil (d := Protocol.CommandResult.decode fmt)
    rw [hanswer, Option.map_none, reply, hnil, he] at hread
    cases hread
  | some p =>
    obtain ⟨r', s'⟩ := p
    refine ⟨r', s', rfl, hshutdown, Cut.passes_eq_iff.mp ?_, hresponse⟩
    by_contra hne
    obtain ⟨e, he⟩ := (hreply r' s' hanswer).fromSlice_part
      (d := Protocol.CommandResult.decode fmt) (a.link.reply.passes_part _) hne
    rw [hanswer, Option.map_some, reply, he] at hread
    cases hread

/-- In every session, a client succeeds exactly when its command gets to the daemon whole, is
handled without an error, and the whole result gets back. Whenever all of this goes well, what
the client shows is the result of its command. -/
theorem exitCode_eq_zero_iff (h : Reachable json fmt init s) (ha : a.Fits json fmt)
    (hreply : ∀ r s', a.answer json s = some (r, s') → json.Carries (r.encode fmt)) :
    (exitCode (a.exchange json fmt s).2 = 0 ↔ a.link.Delivers (a.bytes json) ∧
      ∃ r s', a.handled s = some (r, s') ∧ exitCode (some r) = 0 ∧
        a.link.Returns (json.bytes (r.encode fmt))) ∧
    ∀ r s', a.handled s = some (r, s') → a.link.Delivers (a.bytes json) →
      a.link.Returns (json.bytes (r.encode fmt)) → a.exchange json fmt s = (some s', some r) := by
  have hs := displays_of_reachable h
  have hexchange (r : Protocol.CommandResult F) (s' : ProcessManager)
      (hhandled : a.handled s = some (r, s')) (hdelivers : a.link.Delivers (a.bytes json))
      (hreturns : a.link.Returns (json.bytes (r.encode fmt))) :
      a.exchange json fmt s = (some s', some r) := by
    have hanswer := (answer_of_delivers ha.toSound hdelivers).trans hhandled
    exact exchange_of_returns hs ha hanswer (hreply r s' hanswer)
      (Cut.error_eq_none_iff.mpr hdelivers.write) hreturns
  refine ⟨⟨fun hzero => ?_, ?_⟩, hexchange⟩
  · obtain ⟨hwrite, r, s', hanswer, hreturns⟩ := returns_of_exitCode ha hreply hzero
    rw [exchange_of_returns hs ha hanswer (hreply r s' hanswer) hwrite hreturns] at hzero
    have hdelivers : a.link.Delivers (a.bytes json) := by
      by_contra hnot
      obtain ⟨ty, msg, hrefused⟩ := answer_of_not_delivers (s := s) ha.toSound hnot
      obtain ⟨u, -, heq⟩ := Option.map_eq_some_iff.mp (hrefused.symm.trans hanswer)
      obtain ⟨rfl, -⟩ := Prod.mk.inj heq
      cases hzero
    rw [answer_of_delivers ha.toSound hdelivers] at hanswer
    exact ⟨hdelivers, r, s', hanswer, hzero, hreturns⟩
  · rintro ⟨hdelivers, r, s', hhandled, hzero, hreturns⟩
    rw [hexchange r s' hhandled hdelivers hreturns]
    exact hzero

/-- The text of the command line of `system status`. -/
def statusText : String :=
  "\x7b\"log_dir\":null,\"command\":\x7b\"System\":\"Status\"\x7d\x7d"

/-- The text of its result. -/
def runningText : String :=
  "\x7b\"Success\":\"yapmd is running\"\x7d"

def statusCall (link : Link) : Call ℕ where
  cli := ⟨none, .system .status⟩
  conditions :=
    { fs := ⟨fun _ => .error .notFound, fun _ => none⟩
      toml := ⟨fun _ => .error "expected a table", fun _ => "invalid type"⟩
      start := ProcessManager.plainOutcomes
      poisoned := false
      logPoisoned := false
      failure _ := none
      keys := []
      metrics _ := .default
      seconds _ := 0
      cpuUsage _ := 0
      now := ProcessManager.newYear }
  link := link
  noted := []

/-- The texts of this exchange. -/
def statusJson : Json where
  print
    | .table [("log_dir", _), _] => statusText
    | _ => runningText
  parse bytes :=
    if bytes = asBytes statusText then .ok (CLI.codec.encode ⟨none, .system .status⟩)
    else if bytes = asBytes runningText then .ok (tagged "Success" (.str "yapmd is running"))
    else .error "EOF while parsing an object"
  describe _ := "invalid type"

theorem statusJson_part {bytes text : List UInt8}
    (htext : text = asBytes statusText ∨ text = asBytes runningText) (hpart : bytes <+: text)
    (hne : bytes ≠ text) : ∃ e, statusJson.parse bytes = .error e := by
  have hstatus : ¬asBytes statusText <+: asBytes runningText := by
    rw [asBytes_eq, asBytes_eq]
    decide +kernel
  have hrunning : ¬asBytes runningText <+: asBytes statusText := by
    rw [asBytes_eq, asBytes_eq]
    decide +kernel
  refine ⟨_, (if_neg fun heq => ?_).trans (if_neg fun heq => ?_)⟩
  · obtain rfl | rfl := htext
    · exact hne heq
    · exact hstatus (heq ▸ hpart)
  · obtain rfl | rfl := htext
    · exact hrunning (heq ▸ hpart)
    · exact hne heq

theorem statusJson_request : statusJson.Carries (CLI.codec.encode ⟨none, .system .status⟩) where
  parse_print := if_pos rfl
  parse_part _ := statusJson_part (.inl rfl)
  print_ne_nil := by
    change asBytes statusText ≠ []
    rw [asBytes_eq]
    decide +kernel

theorem statusJson_reply :
    statusJson.Carries (tagged "Success" (.str "yapmd is running")) where
  parse_print := by
    refine (if_neg ?_).trans (if_pos rfl)
    change asBytes runningText ≠ asBytes statusText
    rw [asBytes_eq, asBytes_eq]
    decide +kernel
  parse_part _ := statusJson_part (.inr rfl)
  print_ne_nil := by
    change asBytes runningText ≠ []
    rw [asBytes_eq]
    decide +kernel

theorem statusCall_sound (link : Link) : (statusCall link).Sound statusJson where
  request := statusJson_request
  numbers := trivial
  child config h := by cases h

theorem newYear_fits (i : ℕ) : Formats.plain.timestamp.Fits (ProcessManager.newYear i) := by
  change (0 < 2 ^ 64) ∧ (0 < 2 ^ 64) ∧ (0 < 2 ^ 64) ∧ (1 < 2 ^ 64) ∧ True ∧
    (-2147483648 : ℤ) ≤ 2025 ∧ (2025 : ℤ) < 2147483648
  decide

theorem statusCall_fits (link : Link) : (statusCall link).Fits statusJson .plain where
  toSound := statusCall_sound link
  conditions :=
    { pid := show 4242 < 2 ^ 31 by decide
      metrics := fun _ => .new
      cpuUsage := fun _ => show 0 < 2 ^ 64 by decide
      now := newYear_fits }
  noted := nofun

/-- A link on which nothing goes wrong. -/
def plainLink : Link :=
  ⟨none, false, none, none, 0, none⟩

/-- The daemon is asked for its status. -/
theorem status_succeeds :
    exitCode ((statusCall plainLink).exchange statusJson .plain .init).2 = 0 := by
  have hreachable : Reachable statusJson .plain .init .init := ⟨⟨fun _ => rfl, rfl⟩, .init⟩
  refine (exitCode_eq_zero_iff hreachable (statusCall_fits _) fun r s' h => ?_).1.mpr ?_
  · have hdelivers : (statusCall plainLink).link.Delivers
        ((statusCall plainLink).bytes statusJson) := ⟨nofun, rfl⟩
    rw [answer_of_delivers (statusCall_sound _) hdelivers] at h
    obtain ⟨rfl, -⟩ := Prod.mk.inj (Option.some.inj h)
    exact statusJson_reply
  · exact ⟨⟨nofun, rfl⟩, _, _, rfl, rfl, rfl, nofun, rfl⟩

/-- The manager after a session. -/
def session (json : Json) (fmt : Formats F) : List (Call F) → ProcessManager → Option ProcessManager
  | [], s => some s
  | a :: calls, s => (step json fmt a s).bind (session json fmt calls)

instance (l : Link) (bytes : List UInt8) : Decidable (l.Delivers bytes) :=
  decidable_of_iff (l.write.error bytes = none ∧ l.read = none) <| by
    rw [Cut.error_eq_none_iff]
    exact ⟨fun h => ⟨h.1, h.2⟩, fun h => ⟨h.write, h.read⟩⟩

end Sessions

end Exchange

end Yapm
