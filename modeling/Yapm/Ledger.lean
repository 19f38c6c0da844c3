import Yapm.Service
import Yapm.Turns

/-!
# Calls and their replies

A call of start or stop goes through several steps, and other calls, exits and restarts come
between them. A call is open (`State.opened`) before its fork, at the launch of its process, or
between the removal and the kill of a stop. `State.Books` is what one step does to the books, call
by call : the replies of a step go to the call it is one of (`callTurns`), which is over with one.
So in every run each call that has been made either has been answered, and by the daemon once, or
is open at one place. Waiting for locks apart, a call that is open has a step to take, whatever the
others are at (`answered_of_recorded`).

A child that returns from its spawn answers the call that forked it too. The lock of the log is
taken to be in order : a stop that finds it poisoned panics and is not answered.

And what is said of starts is true : a process has been said to be started as often as calls of
start have completed the launch of one with its name and pid (`count_started`).
-/

open Runs

namespace Yapm

/-! ## The books -/

/-- What the books have of a process. -/
structure Role where
  launcher : Launcher
  phase : Phase
  name : String
  pid : Pid

def Proc.role (p : Proc) : Role :=
  ⟨p.launcher, p.phase, p.name, p.pid⟩

/-- A call of start is at the launch. -/
def Role.isOpen (r : Role) : Bool :=
  r.launcher ≠ .handler && r.phase.inProgress

/-- A call of start has completed the launch of a process of the name and the pid. -/
def Role.isStarted (name : String) (pid : Pid) (r : Role) : Bool :=
  r.launcher ≠ .handler && r.phase = .registered && r.name = name && r.pid = pid

/-- Where a call can be : before its fork, at the launch of a process, or in the middle of a
stop. -/
inductive CallPlace
  | start (i : ℕ)
  | launch (c : ProcId)
  | stop (i : ℕ)
deriving DecidableEq

/-- The calls that are open, by what the books have of processes, starts and stops. -/
def openCalls (roll : List Role) (starts : ℕ → Option StartCall) (stops : ℕ → Option StopCall) :
    CallPlace → Bool
  | .start i => (starts i).isSome
  | .launch c => (roll[c]?).any (·.isOpen)
  | .stop i => (stops i).isSome

namespace State

/-- The processes in the order of their forks, as the books have them. -/
def roll (s : State) : List Role :=
  s.procs.map Proc.role

/-- The calls that have been made and not been answered. -/
def opened (s : State) : CallPlace → Bool :=
  openCalls s.roll s.starts s.stops

/-- How many launches of a process of the name and the pid calls of start have completed. -/
def started (s : State) (name : String) (pid : Pid) : ℕ :=
  s.roll.countP (·.isStarted name pid)

end State

/-- The place of the call that a step is one of. -/
def Action.place : Action → Option CallPlace
  | .startCall i _ | .startCheck i | .fork (.start i) _ _ _ => some (.start i)
  | .metrics c _ | .logger c _ | .submitLogging c _ | .submitProcess c _ | .submitMetrics c _
  | .insert c => some (.launch c)
  | .stopRemove i _ | .stopKill i _ | .stop i _ _ => some (.stop i)
  | _ => none

/-- The first step of a call. -/
def Action.makesCall : Action → Bool
  | .startCall _ _ | .stopRemove _ _ | .stop _ _ _ => true
  | _ => false

namespace State

/-- What a child that returns from its spawn answers to the call that forked it. -/
def childAnswers (s : State) : Action → List CommandResult
  | .fork (.start i) os pid m =>
    match s.forkConfig (.start i) with
    | none => []
    | some (_, config) =>
      match (createChildExecContextFromConfig os config pid m).child with
      | some (.returned (.error e)) =>
        [.error ("Spawning the child process failed: " ++ e.display)]
      | _ => []
  | _ => []

/-- The child of a fork returns from its spawn. -/
def childReturns (s : State) : Action → Bool
  | .fork l os pid m =>
    match s.forkConfig l with
    | none => false
    | some (_, config) =>
      (createChildExecContextFromConfig os config pid m).child.any Exit.returns
  | _ => false

end State

/-- What a step does to calls. Its replies go to the call it is one of. -/
def callTurns (a : Action) (s : State) : List (Turn CallPlace CommandResult) :=
  match a.place, step a s with
  | some k, some s' =>
    (if a.makesCall then [.made k] else []) ++ (s.childAnswers a).map (.copied k) ++
      (if s'.opened (.launch s.procs.length) then [.moved k (.launch s.procs.length)] else []) ++
      (s'.replies.drop s.replies.length).map (.answered k)
  | _, _ => []

/-! ### Entries in the books -/

section

variable {roll : List Role} {starts : ℕ → Option StartCall} {stops : ℕ → Option StopCall}

theorem openCalls_update_starts (i : ℕ) (x : Option StartCall) :
    openCalls roll (Function.update starts i x) stops =
      Function.update (openCalls roll starts stops) (.start i) x.isSome := by
  funext k
  cases k with
  | start j => by_cases hj : j = i <;> simp [openCalls, hj]
  | launch c => simp [openCalls]
  | stop j => simp [openCalls]

theorem openCalls_update_stops (i : ℕ) (x : Option StopCall) :
    openCalls roll starts (Function.update stops i x) =
      Function.update (openCalls roll starts stops) (.stop i) x.isSome := by
  funext k
  cases k with
  | start j => simp [openCalls]
  | launch c => simp [openCalls]
  | stop j => by_cases hj : j = i <;> simp [openCalls, hj]

theorem openCalls_set {c : ProcId} (hc : c < roll.length) (r : Role) :
    openCalls (roll.set c r) starts stops =
      Function.update (openCalls roll starts stops) (.launch c) r.isOpen := by
  funext k
  cases k with
  | start j => simp [openCalls]
  | launch d =>
    by_cases hd : d = c
    · simp [openCalls, hd, hc]
    · simp [openCalls, List.getElem?_set_ne (Ne.symm hd), hd]
  | stop j => simp [openCalls]

theorem openCalls_append (r : Role) : openCalls (roll ++ [r]) starts stops =
    Function.update (openCalls roll starts stops) (.launch roll.length) r.isOpen := by
  funext k
  cases k with
  | start j => simp [openCalls]
  | launch d =>
    by_cases hd : d = roll.length
    · simp [openCalls, hd]
    · have hsame : (roll ++ [r])[d]? = roll[d]? := by
        obtain hlt | hgt := Nat.lt_or_gt_of_ne hd
        · exact List.getElem?_append_left hlt
        · rw [List.getElem?_eq_none (Nat.le_of_lt hgt), List.getElem?_eq_none]
          rw [List.length_append, List.length_singleton]
          exact hgt
      simp [openCalls, hsame, hd]
  | stop j => simp [openCalls]

/-- A process whose launch goes on leaves the calls as they are, and so does one that no call
launches. -/
theorem openCalls_set_same {c : ProcId} {r r' : Role} (hr : roll[c]? = some r)
    (hsame : r'.isOpen = r.isOpen) :
    openCalls (roll.set c r') starts stops = openCalls roll starts stops := by
  have hopen : openCalls roll starts stops (.launch c) = r'.isOpen := by
    simp [openCalls, hr, hsame]
  rw [openCalls_set (List.getElem?_eq_some_iff.mp hr).1, ← hopen, Function.update_eq_self]

theorem countP_set_same {c : ProcId} {r r' : Role} (hr : roll[c]? = some r) {P : Role → Bool}
    (hsame : P r' = P r) : (roll.set c r').countP P = roll.countP P := by
  obtain ⟨hc, rfl⟩ := List.getElem?_eq_some_iff.mp hr
  rw [List.countP_set hc, hsame]
  split
  · rename_i hP
    have hpos := List.countP_pos_iff.mpr ⟨_, List.getElem_mem hc, hP⟩
    omega
  · omega

end

variable {s s' t : State} {a : Action} {c : ProcId} {p : Proc} {r : Role}
  {ts ts' : List (Turn CallPlace CommandResult)} {k : CallPlace}

namespace State

theorem roll_modifyProc {f : Proc → Proc} (hf : ∀ p, (f p).role = p.role) :
    (s.modifyProc c f).roll = s.roll :=
  map_modifyProc hf

theorem roll_sigkill (pid : Pid) : (s.sigkill pid).roll = s.roll :=
  map_sigkill (fun _ _ => rfl) pid

theorem roll_killTasks (pid : Pid) (poisoned : Bool) :
    (s.killTasks pid poisoned).roll = s.roll :=
  map_killTasks (fun _ _ => rfl) pid poisoned

theorem getElem?_roll (hp : s.procs[c]? = some p) : s.roll[c]? = some p.role := by
  rw [roll, List.getElem?_map, hp]
  rfl

theorem roll_setPhase {f : Proc → Proc} {phase : Phase} (hr : s.roll[c]? = some r)
    (hf : ∀ p, (f p).role = { p.role with phase }) :
    (s.modifyProc c f).roll = s.roll.set c { r with phase } := by
  refine List.ext_getElem? fun d => ?_
  rw [roll, List.getElem?_map] at hr
  simp only [roll, modifyProc, List.getElem?_map, List.getElem?_modify, List.getElem?_set,
    List.length_map]
  by_cases hd : c = d
  · subst hd
    obtain ⟨p, hp, rfl⟩ := Option.map_eq_some_iff.mp hr
    obtain ⟨hlt, rfl⟩ := List.getElem?_eq_some_iff.mp hp
    simp [hlt, hf]
  · simp [hd]

/-! ### What a step does to the books -/

/-- What turns do to the calls, the replies and the launches. -/
structure Books (s : State) (ts : List (Turn CallPlace CommandResult)) (s' : State) : Prop where
  replies : s'.replies = s.replies ++ Runs.replies ts
  turns : Turns s.opened ts s'.opened
  started : ∀ name pid, s'.started name pid =
    s.started name pid + (Runs.replies ts).count (.processStarted name pid)

namespace Books

theorem trans (h : s.Books ts t) (h' : t.Books ts' s') : s.Books (ts ++ ts') s' where
  replies := by rw [h'.replies, h.replies, Runs.replies_append, List.append_assoc]
  turns := h.turns.append h'.turns
  started name pid := by
    rw [h'.started, h.started, Runs.replies_append, List.count_append, Nat.add_assoc]

/-- The rule for what changes nothing of the books. -/
theorem quiet (hroll : s'.roll = s.roll) (hstarts : s'.starts = s.starts)
    (hstops : s'.stops = s.stops) (hreplies : s'.replies = s.replies) : s.Books [] s' where
  replies := hreplies.trans (List.append_nil _).symm
  turns := by
    rw [opened, opened, hroll, hstarts, hstops]
    exact .nil
  started name pid := by rw [State.started, State.started, hroll]; rfl

/-- The rule for a call of start that has no process. -/
theorem of_starts {i : ℕ} {x : Option StartCall} (hroll : s'.roll = s.roll)
    (hstarts : s'.starts = Function.update s.starts i x) (hstops : s'.stops = s.stops)
    (hreplies : s'.replies = s.replies ++ Runs.replies ts)
    (hturns : Turns s.opened ts (Function.update s.opened (.start i) x.isSome))
    (hstarted : ∀ name pid, (Runs.replies ts).count (.processStarted name pid) = 0) :
    s.Books ts s' where
  replies := hreplies
  turns := by
    have hopened : s'.opened = Function.update s.opened (.start i) x.isSome := by
      rw [opened, hroll, hstarts, hstops, openCalls_update_starts]
      rfl
    exact hopened ▸ hturns
  started name pid := by rw [State.started, State.started, hroll, hstarted, Nat.add_zero]

/-- The rule for a call of stop. -/
theorem of_stops {i : ℕ} {x : Option StopCall} (hroll : s'.roll = s.roll)
    (hstarts : s'.starts = s.starts) (hstops : s'.stops = Function.update s.stops i x)
    (hreplies : s'.replies = s.replies ++ Runs.replies ts)
    (hturns : Turns s.opened ts (Function.update s.opened (.stop i) x.isSome))
    (hstarted : ∀ name pid, (Runs.replies ts).count (.processStarted name pid) = 0) :
    s.Books ts s' where
  replies := hreplies
  turns := by
    have hopened : s'.opened = Function.update s.opened (.stop i) x.isSome := by
      rw [opened, hroll, hstarts, hstops, openCalls_update_stops]
      rfl
    exact hopened ▸ hturns
  started name pid := by rw [State.started, State.started, hroll, hstarted, Nat.add_zero]

/-- The rule for a process whose launch goes on, or that no call launches. -/
theorem set_same (hr : s.roll[c]? = some r) {phase : Phase}
    (hroll : s'.roll = s.roll.set c { r with phase }) (hstarts : s'.starts = s.starts)
    (hstops : s'.stops = s.stops) (hreplies : s'.replies = s.replies)
    (hopen : ({ r with phase } : Role).isOpen = r.isOpen)
    (hstarted : ∀ name pid, ({ r with phase } : Role).isStarted name pid = r.isStarted name pid) :
    s.Books [] s' where
  replies := hreplies.trans (List.append_nil _).symm
  turns := by
    rw [opened, opened, hroll, hstarts, hstops, openCalls_set_same hr hopen]
    exact .nil
  started name pid := by
    rw [State.started, State.started, hroll, countP_set_same hr (hstarted name pid)]
    rfl

/-- The rule for a launch of a call that is over, with the reply to it. -/
theorem set_closed (hr : s.roll[c]? = some r) {phase : Phase} {result : CommandResult}
    (hroll : s'.roll = s.roll.set c { r with phase }) (hstarts : s'.starts = s.starts)
    (hstops : s'.stops = s.stops) (hreplies : s'.replies = s.replies ++ [result])
    (hopen : r.isOpen) (hclosed : phase.inProgress = false)
    (hstarted : ∀ name pid, ({ r with phase } : Role).isStarted name pid =
      (result == .processStarted name pid)) : s.Books [.answered (.launch c) result] s' where
  replies := hreplies
  turns := by
    have hover : ({ r with phase } : Role).isOpen = false := by simp [Role.isOpen, hclosed]
    have hopened : s'.opened = Function.update s.opened (.launch c) false := by
      rw [opened, hroll, hstarts, hstops, openCalls_set (List.getElem?_eq_some_iff.mp hr).1, hover]
      rfl
    rw [hopened]
    exact .closes (by simp [opened, openCalls, hr, hopen])
  started name pid := by
    obtain ⟨hc, hget⟩ := List.getElem?_eq_some_iff.mp hr
    have hnot : s.roll[c].isStarted name pid = false := by
      rw [hget]
      cases hphase : r.phase <;> simp_all [Role.isStarted, Role.isOpen, Phase.inProgress]
    have hreply : Runs.replies [Turn.answered (CallPlace.launch c) result] = [result] := rfl
    rw [State.started, State.started, hroll, List.countP_set hc, hnot, hreply,
      List.count_singleton, hstarted]
    rfl

end Books

/-! ### Starting -/

theorem books_failLaunch (hr : s.roll[c]? = some r) (hin : r.phase.inProgress) (msg : String) :
    ∃ rs : List CommandResult,
      s.Books (rs.map (.answered (.launch c))) (s.failLaunch c r.launcher msg) := by
  have hroll : (s.modifyProc c ({ · with phase := .failed })).roll =
      s.roll.set c { r with phase := .failed } := roll_setPhase hr fun _ => rfl
  unfold failLaunch
  cases hl : r.launcher with
  | start i =>
    exact ⟨[.error msg], .set_closed hr hroll rfl rfl rfl (by simp [Role.isOpen, hl, hin]) rfl
      (by simp [Role.isStarted])⟩
  | handler =>
    exact ⟨[], .set_same hr hroll rfl rfl rfl (by simp [Role.isOpen, hl])
      (by simp [Role.isStarted, hl])⟩

theorem books_sigkill (pid : Pid) : s.Books [] (s.sigkill pid) :=
  .quiet (roll_sigkill pid) rfl rfl rfl

theorem books_killTasks (pid : Pid) (poisoned : Bool) :
    s.Books [] (s.killTasks pid poisoned) := by
  refine .quiet (roll_killTasks pid poisoned) ?_ ?_ ?_ <;> cases poisoned <;> rfl

theorem books_failSubmission (hp : s.procs[c]? = some p) (hin : p.phase.inProgress)
    (fate : Submission) (e : AsyncError) :
    ∃ rs : List CommandResult,
      s.Books (rs.map (.answered (.launch c))) (s.failSubmission c p fate e) := by
  have hroll : ((s.sigkill p.pid).killTasks p.pid fate.isPoisoned).roll = s.roll := by
    rw [roll_killTasks, roll_sigkill]
  obtain ⟨rs, hfail⟩ := books_failLaunch
    (s := (s.sigkill p.pid).killTasks p.pid fate.isPoisoned) (hroll ▸ getElem?_roll hp) hin
    ("Could not register lifetime task with runtime: " ++ e.display)
  exact ⟨rs, ((books_sigkill p.pid).trans (books_killTasks p.pid fate.isPoisoned)).trans hfail⟩

/-- The rule for a launch that goes on. -/
theorem Books.of_launch {f : Proc → Proc} {phase : Phase} (hp : s.procs[c]? = some p)
    (hf : ∀ p, (f p).role = { p.role with phase }) (hprocs : s'.procs = s.procs.modify c f)
    (hstarts : s'.starts = s.starts) (hstops : s'.stops = s.stops)
    (hreplies : s'.replies = s.replies) (hin : p.phase.inProgress) (hnext : phase.inProgress) :
    s.Books [] s' := by
  have hr := getElem?_roll hp
  have hroll : s'.roll = s.roll.set c { p.role with phase } := by
    rw [roll, hprocs]
    exact roll_setPhase hr hf
  refine .set_same hr hroll hstarts hstops hreplies ?_ fun name pid => ?_
  · simp [Role.isOpen, Proc.role, hin, hnext]
  · have hne : p.phase ≠ .registered := by
      rintro heq
      simp [heq, Phase.inProgress] at hin
    have hne' : phase ≠ .registered := by
      rintro rfl
      cases hnext
    simp [Role.isStarted, Proc.role, hne, hne']

theorem books_prepare {phase next : Phase} {failure : String} {err : Option String}
    (hin : phase.inProgress) (hnext : next.inProgress)
    (h : s.prepare c phase next failure err = some s') :
    ∃ rs : List CommandResult, s.Books (rs.map (.answered (.launch c))) s' := by
  obtain ⟨p, hp, rfl, ⟨-, rfl⟩ | ⟨e, -, rfl⟩⟩ := prepare_inv h
  · exact ⟨[], .of_launch hp (fun _ => rfl) rfl rfl rfl rfl hin hnext⟩
  · obtain ⟨rs, hfail⟩ := books_failLaunch (s := s.sigkill p.pid)
      (roll_sigkill p.pid ▸ getElem?_roll hp) hin (failure ++ e)
    exact ⟨rs, (books_sigkill p.pid).trans hfail⟩

theorem books_startCall {i : ℕ} {config : ProcessConfig} (h : s.startCall i config = some s') :
    s.Books [.made (.start i)] s' := by
  obtain ⟨hi, rfl⟩ := startCall_inv h
  exact .of_starts rfl rfl rfl (List.append_nil _).symm
    (.opens (congrArg Option.isSome hi)) fun _ _ => rfl

theorem books_startCheck {i : ℕ} (h : s.startCheck i = some s') :
    ∃ rs : List CommandResult, s.Books (rs.map (.answered (.start i))) s' := by
  obtain ⟨config, hi, hcases⟩ := startCheck_inv h
  have hk : s.opened (.start i) = true := congrArg Option.isSome hi
  rcases hcases with ⟨-, rfl⟩ | ⟨-, rfl⟩
  · exact ⟨[_], .of_starts (x := none) rfl rfl rfl rfl (.closes hk) fun _ _ => rfl⟩
  · exact ⟨[], .of_starts rfl rfl rfl (List.append_nil _).symm (.stays hk) fun _ _ => rfl⟩

theorem roll_addProc (q : Proc) : (s.addProc q).roll = s.roll ++ [q.role] := by
  simp [roll, addProc]

theorem opened_addProc (q : Proc) : (s.addProc q).opened =
    Function.update s.opened (.launch s.procs.length) q.role.isOpen := by
  rw [opened, roll_addProc, openCalls_append, roll, List.length_map]
  rfl

theorem opened_length : s.opened (.launch s.procs.length) = false := by
  simp [opened, openCalls, roll]

theorem started_addProc {q : Proc} (hq : q.phase ≠ .registered) (name : String) (pid : Pid) :
    (s.addProc q).started name pid = s.started name pid := by
  simp [started, roll_addProc, Role.isStarted, Proc.role, hq]

/-- The rule for a process that no call is at. -/
theorem books_addProc {q : Proc} (hopen : q.role.isOpen = false) (hq : q.phase ≠ .registered) :
    s.Books [] (s.addProc q) where
  replies := (List.append_nil _).symm
  turns := by
    rw [opened_addProc, hopen]
    exact .stays opened_length
  started := started_addProc hq

/-- The rule for a call that goes on to its launch. -/
theorem books_launched {i : ℕ} {q : Proc} (hi : (s.starts i).isSome) (hopen : q.role.isOpen)
    (hq : q.phase ≠ .registered) : s.Books [.moved (.start i) (.launch s.procs.length)]
      ({ s with starts := Function.update s.starts i none }.addProc q) where
  replies := (List.append_nil _).symm
  turns := by
    have hleft : ({ s with starts := Function.update s.starts i none } : State).opened =
        Function.update s.opened (.start i) false := openCalls_update_starts i none
    rw [opened_addProc, hopen, hleft]
    exact .moved hi opened_length .nil
  started := started_addProc hq

/-- The rule for a call that a child answers. -/
theorem books_copied (hk : s.opened k) (rs : List CommandResult) :
    s.Books (rs.map (.copied k)) s where
  replies := by rw [replies_copied, List.append_nil]
  turns := .copies hk rs
  started name pid := by
    rw [replies_copied]
    rfl

theorem starts_of_forkConfig {i : ℕ} {x : String × ProcessConfig}
    (h : s.forkConfig (.start i) = some x) : (s.starts i).isSome := by
  cases hi : s.starts i with
  | none => simp [forkConfig, hi] at h
  | some call => rfl

theorem books_forkFailed {i : ℕ} (hi : (s.starts i).isSome) (e : LinuxErrorManager) :
    s.Books [.answered (.start i) (.error ("Spawning the child process failed: " ++ e.display))]
      (s.forkFailed (.start i) e) :=
  .of_starts (x := none) rfl rfl rfl rfl (.closes hi) fun _ _ => rfl

/-- A fork of the handler. -/
theorem books_forkHandler {os : Os} {pid : Pid} {m : Machine}
    (h : s.fork .handler os pid m = some s') : s.Books [] s' := by
  have hfailed (e : LinuxErrorManager) : s.Books [] (s.forkFailed .handler e) :=
    .quiet rfl rfl rfl rfl
  obtain ⟨name, config, -, -, ⟨ctx, exit, -, -, rfl⟩ | ⟨e, -, -, rfl⟩ | ⟨e, exit, -, -, rfl⟩⟩ :=
    fork_inv h
  · have hleft : s.Books [] (s.forkDone .handler name s.procs.length) := .quiet rfl rfl rfl rfl
    exact hleft.trans (books_addProc rfl (by simp))
  · exact hfailed e
  · exact (hfailed e).trans (books_addProc
      (by simp [Role.isOpen, Proc.role, Phase.inProgress]) (by simp))

/-- A fork of a call, less what a child answers. -/
theorem books_forkStart {i : ℕ} {os : Os} {pid : Pid} {m : Machine}
    (h : s.fork (.start i) os pid m = some s') : (s.starts i).isSome ∧
      (s.Books [.moved (.start i) (.launch s.procs.length)] s' ∧
          s'.opened (.launch s.procs.length) = true ∨
        ∃ r, s.Books [.answered (.start i) r] s') := by
  obtain ⟨name, config, hconfig, -, ⟨ctx, exit, -, -, rfl⟩ | ⟨e, -, -, rfl⟩ |
    ⟨e, exit, -, -, rfl⟩⟩ := fork_inv h
  · have hlaunch : (s.forkDone (.start i) name s.procs.length).procs.length = s.procs.length := rfl
    refine ⟨starts_of_forkConfig hconfig, .inl ⟨books_launched (starts_of_forkConfig hconfig) rfl
      (by simp), ?_⟩⟩
    rw [opened_addProc, hlaunch, Function.update_self]
    rfl
  · exact ⟨starts_of_forkConfig hconfig,
      .inr ⟨_, books_forkFailed (starts_of_forkConfig hconfig) e⟩⟩
  · exact ⟨starts_of_forkConfig hconfig,
      .inr ⟨_, (books_forkFailed (starts_of_forkConfig hconfig) e).trans (books_addProc
        (by simp [Role.isOpen, Proc.role, Phase.inProgress]) (by simp))⟩⟩

theorem books_insert (h : s.insert c = some s') :
    ∃ rs : List CommandResult, s.Books (rs.map (.answered (.launch c))) s' := by
  obtain ⟨p, s₁, hp, hphase, rfl, hcases⟩ := insert_inv h
  have hr := getElem?_roll hp
  have hroll : (({ s with registry := s.registry.insert p.name ⟨⟨p.config, p.pid⟩, c⟩ } :
      State).modifyProc c ({ · with phase := .registered })).roll =
      s.roll.set c { p.role with phase := .registered } := roll_setPhase hr fun _ => rfl
  rcases hcases with ⟨i, hl, rfl⟩ | ⟨hl, rfl⟩
  · refine ⟨[_], .set_closed hr hroll rfl rfl rfl ?_ rfl fun name pid => ?_⟩
    · simp [Role.isOpen, Proc.role, hl, hphase, Phase.inProgress]
    · rw [Bool.eq_iff_iff]
      simp [Role.isStarted, Proc.role, hl]
  · exact ⟨[], .set_same hr hroll rfl rfl rfl (by simp [Role.isOpen, Proc.role, hl])
      (by simp [Role.isStarted, Proc.role, hl])⟩

/-! ### Stopping -/

theorem books_stopRemove {i : ℕ} {name : String} (h : s.stopRemove i name = some s') :
    ∃ rs : List CommandResult, s.Books (.made (.stop i) :: rs.map (.answered (.stop i))) s' := by
  obtain ⟨hi, ⟨-, rfl⟩ | ⟨entry, -, rfl⟩⟩ := stopRemove_inv h
  · have hk : s.opened (.stop i) = false := congrArg Option.isSome hi
    refine ⟨[_], .of_stops (i := i) (x := none) rfl rfl (by simp [reply, hi]) rfl (.made hk ?_)
      fun _ _ => rfl⟩
    change Turns _ [.answered _ _] (Function.update s.opened (.stop i) false)
    rw [← Function.update_idem true false s.opened]
    exact .closes (Function.update_self ..)
  · exact ⟨[], .of_stops rfl rfl rfl (List.append_nil _).symm
      (.opens (congrArg Option.isSome hi)) fun _ _ => rfl⟩

theorem books_stopKill {i : ℕ} {poisoned : Bool} (h : s.stopKill i poisoned = some s') :
    ∃ rs : List CommandResult, s.Books (rs.map (.answered (.stop i))) s' := by
  unfold stopKill at h
  split at h
  · cases h
  · rename_i name entry hi
    simp only at h
    split at h
    · obtain rfl := Option.some.inj h
      exact ⟨[_], .of_stops (x := none) rfl rfl rfl rfl (.closes (congrArg Option.isSome hi))
        fun _ _ => rfl⟩
    · rename_i hpoisoned
      obtain rfl : poisoned = false := by simpa using hpoisoned
      obtain rfl := Option.some.inj h
      have hroll := (roll_sigkill (s := State.killTasks
        { s with stops := Function.update s.stops i none } entry.task.inner false)
        entry.task.inner).trans (roll_killTasks entry.task.inner false)
      refine ⟨[_], .of_stops (x := none) hroll rfl rfl rfl
        (.closes (congrArg Option.isSome hi)) fun _ _ => ?_⟩
      simp only [List.map_cons, List.map_nil, Runs.replies, List.filterMap_cons,
        List.filterMap_nil]
      split <;> simp

theorem books_stop {i : ℕ} {name : String} {poisoned : Bool}
    (h : s.stop i name poisoned = some s') :
    ∃ rs : List CommandResult, s.Books (.made (.stop i) :: rs.map (.answered (.stop i))) s' := by
  unfold stop at h
  split at h
  · cases h
  · rename_i s₁ hremove
    obtain ⟨rs, hremoved⟩ := books_stopRemove hremove
    split at h
    · obtain ⟨rs', hkilled⟩ := books_stopKill h
      refine ⟨rs ++ rs', ?_⟩
      rw [List.map_append]
      exact hremoved.trans hkilled
    · obtain rfl := Option.some.inj h
      exact ⟨rs, hremoved⟩

/-! ### The whole step -/

theorem books_failWatch (id : TaskId) (e : String) : s.Books [] (s.failWatch c id e) :=
  .quiet (roll_modifyProc fun _ => rfl) rfl rfl rfl

end State

theorem callTurns_eq (hk : a.place = some k) (hs : step a s = some s') {rs : List CommandResult}
    (hreplies : s'.replies = s.replies ++ rs) : callTurns a s =
      (if a.makesCall then [.made k] else []) ++ (s.childAnswers a).map (.copied k) ++
        (if s'.opened (.launch s.procs.length) then [.moved k (.launch s.procs.length)] else []) ++
        rs.map (.answered k) := by
  simp only [callTurns, hk, hs, hreplies, List.drop_left]

/-- The rule for a step of no call. -/
theorem State.Books.of_none (hk : a.place = none) (h : s.Books [] s') :
    s.Books (callTurns a s) s' := by
  simpa only [callTurns, hk] using h

/-- The rule for a step of a call that forks nothing. -/
theorem State.Books.of_place (hk : a.place = some k) (hs : step a s = some s')
    (hchild : s.childAnswers a = []) (hmakes : a.makesCall → ∀ c, k ≠ .launch c)
    (rs : List CommandResult) (h : s.Books
      ((if a.makesCall then [.made k] else []) ++ rs.map (.answered k)) s') :
    s.Books (callTurns a s) s' := by
  have hreplies : s'.replies = s.replies ++ rs := by
    rw [h.replies, replies_append, replies_answered]
    split <;> rfl
  have hclosed : s'.opened (.launch s.procs.length) = false := by
    refine h.turns.eq_false (fun t ht => ?_) State.opened_length
    obtain ht | ht := List.mem_append.mp ht
    · split at ht
      · obtain rfl := List.mem_singleton.mp ht
        exact hmakes ‹_› _
      · cases ht
    · obtain ⟨r, -, rfl⟩ := List.mem_map.mp ht
      exact id
  rw [callTurns_eq hk hs hreplies, hchild, hclosed]
  simpa using h

/-- A fork of a call. A child that returns answers it, too. -/
theorem books_of_fork {i : ℕ} {os : Os} {pid : Pid} {m : Machine}
    (hs : step (.fork (.start i) os pid m) s = some s') :
    s.Books (callTurns (.fork (.start i) os pid m) s) s' := by
  obtain ⟨hi, ⟨hbooks, hopen⟩ | ⟨r, hbooks⟩⟩ := State.books_forkStart hs
  · have hcopied := State.books_copied (k := .start i) hi
      (s.childAnswers (.fork (.start i) os pid m))
    rw [callTurns_eq rfl hs hbooks.replies, hopen]
    simpa [Action.makesCall, Runs.replies] using hcopied.trans hbooks
  · have hcopied := State.books_copied (k := .start i) hi
      (s.childAnswers (.fork (.start i) os pid m))
    have hclosed : s'.opened (.launch s.procs.length) = false := by
      refine hbooks.turns.eq_false (fun t ht => ?_) State.opened_length
      obtain rfl := List.mem_singleton.mp ht
      exact id
    rw [callTurns_eq rfl hs hbooks.replies, hclosed]
    simpa [Action.makesCall, Runs.replies] using hcopied.trans hbooks

/-- A step does to the books what its turns say. -/
theorem books_of_step (h : step a s = some s') : s.Books (callTurns a s) s' := by
  cases a with
  | startCall i config => exact .of_place rfl h rfl (by simp) [] (State.books_startCall h)
  | startCheck i =>
    obtain ⟨rs, hbooks⟩ := State.books_startCheck h
    exact .of_place rfl h rfl nofun rs hbooks
  | fork l os pid m =>
    cases l with
    | start i => exact books_of_fork h
    | handler => exact .of_none rfl (State.books_forkHandler h)
  | metrics c err =>
    obtain ⟨rs, hbooks⟩ := State.books_prepare rfl rfl h
    exact .of_place rfl h rfl nofun rs hbooks
  | logger c err =>
    obtain ⟨rs, hbooks⟩ := State.books_prepare rfl rfl h
    exact .of_place rfl h rfl nofun rs hbooks
  | submitLogging c fate =>
    obtain ⟨p, hp, hphase, rfl⟩ := State.submitLogging_inv h
    exact .of_place rfl h rfl nofun []
      (.of_launch hp (fun _ => rfl) rfl rfl rfl rfl (by rw [hphase]; rfl) rfl)
  | submitProcess c fate =>
    obtain ⟨p, desc, treg, hp, hphase, ⟨id, -, rfl⟩ | ⟨e, -, rfl⟩⟩ := State.submitProcess_inv h
    · exact .of_place rfl h rfl nofun []
        (.of_launch hp (fun _ => rfl) rfl rfl rfl rfl (by rw [hphase]; rfl) rfl)
    · obtain ⟨rs, hfailed⟩ := State.books_failSubmission (s := { s with treg }) hp
        (by rw [hphase]; rfl) fate e
      have htreg : s.Books [] { s with treg } := .quiet rfl rfl rfl rfl
      exact .of_place rfl h rfl nofun rs (htreg.trans hfailed)
  | submitMetrics c fate =>
    obtain ⟨p, desc, treg, hp, hphase, ⟨id, -, rfl⟩ | ⟨e, -, rfl⟩⟩ := State.submitMetrics_inv h
    · exact .of_place rfl h rfl nofun []
        (.of_launch hp (fun _ => rfl) rfl rfl rfl rfl (by rw [hphase]; rfl) rfl)
    · obtain ⟨rs, hfailed⟩ := State.books_failSubmission (s := { s with treg }) hp
        (by rw [hphase]; rfl) fate e
      have htreg : s.Books [] { s with treg } := .quiet rfl rfl rfl rfl
      exact .of_place rfl h rfl nofun rs (htreg.trans hfailed)
  | insert c =>
    obtain ⟨rs, hbooks⟩ := State.books_insert h
    exact .of_place rfl h rfl nofun rs hbooks
  | stopRemove i name =>
    obtain ⟨rs, hbooks⟩ := State.books_stopRemove h
    exact .of_place rfl h rfl (by simp) rs hbooks
  | stopKill i poisoned =>
    obtain ⟨rs, hbooks⟩ := State.books_stopKill h
    exact .of_place rfl h rfl nofun rs hbooks
  | stop i name poisoned =>
    obtain ⟨rs, hbooks⟩ := State.books_stop h
    exact .of_place rfl h rfl (by simp) rs hbooks
  | exit c =>
    obtain ⟨p, -, -, rfl⟩ := State.exit_inv h
    exact .of_none rfl (.quiet (State.roll_modifyProc fun _ => rfl) rfl rfl rfl)
  | coordinate c =>
    obtain ⟨p, id, treg, -, -, -, -, rfl⟩ := State.coordinate_inv h
    exact .of_none rfl (.quiet (State.roll_modifyProc fun _ => rfl) rfl rfl rfl)
  | monitorOpen c err =>
    obtain ⟨p, id, -, -, ⟨d, -, -, rfl⟩ | ⟨e, -, rfl⟩⟩ := State.monitorOpen_inv h
    · exact .of_none rfl (.quiet (State.roll_modifyProc fun _ => rfl) rfl rfl rfl)
    · exact .of_none rfl (State.books_failWatch id e)
  | monitorFail c e =>
    obtain ⟨p, id, d, -, -, rfl⟩ := State.monitorFail_inv h
    exact .of_none rfl (State.books_failWatch id e)
  | monitorLose c poisoned =>
    obtain ⟨p, id, d, q, treg, -, -, -, -, -, rfl⟩ := State.monitorLose_inv h
    have hreaped : (({ s with treg }.modifyProc c ({ · with watch := .ended })).modifyProc d
        ({ · with status := .reaped })).roll = ({ s with treg } : State).roll := by
      rw [State.roll_modifyProc, State.roll_modifyProc] <;> exact fun _ => rfl
    exact .of_none rfl (.quiet hreaped rfl rfl rfl)
  | monitorExit c =>
    obtain ⟨p, id, d, q, s₁, -, -, -, -, rfl, hsent⟩ := State.monitorExit_inv h
    have hreaped : ((s.modifyProc c ({ · with watch := .ended })).modifyProc d
        ({ · with status := .reaped })).roll = s.roll := by
      rw [State.roll_modifyProc, State.roll_modifyProc] <;> exact fun _ => rfl
    rcases hsent with ⟨-, rfl⟩ | ⟨-, rfl⟩ <;> exact .of_none rfl (.quiet hreaped rfl rfl rfl)
  | recv =>
    obtain ⟨r, requests, -, -, rfl⟩ := State.recv_inv h
    exact .of_none rfl (.quiet rfl rfl rfl rfl)
  | remove =>
    obtain ⟨r, -, ⟨-, rfl⟩ | ⟨e, -, rfl⟩⟩ := State.remove_inv h <;>
      exact .of_none rfl (.quiet rfl rfl rfl rfl)
  | decide poisoned =>
    obtain ⟨r, e, -, ⟨-, rfl⟩ | ⟨-, rfl⟩⟩ := State.decide_inv h
    all_goals
      refine .of_none rfl (.quiet (State.roll_killTasks (s := s) e.task.inner poisoned)
        ?_ ?_ ?_) <;> cases poisoned <;> rfl
  | removeAgain =>
    obtain ⟨r, -, rfl⟩ := State.removeAgain_inv h
    exact .of_none rfl (.quiet rfl rfl rfl rfl)

/-- Only a child that returns answers a call that is not its own. -/
theorem childAnswers_eq_nil (h : s.childReturns a = false) : s.childAnswers a = [] := by
  unfold State.childAnswers
  split
  · rename_i i os pid m
    split
    · rfl
    · rename_i config hconfig
      split
      · rename_i e hchild
        simp [State.childReturns, hconfig, hchild, Exit.returns] at h
      · rfl
  · rfl

theorem copied_notMem_callTurns (h : s.childReturns a = false) (k : CallPlace) (r : CommandResult) :
    Turn.copied k r ∉ callTurns a s := by
  unfold callTurns
  split
  · rw [childAnswers_eq_nil h]
    simp only [List.map_nil, List.append_nil, List.mem_append, List.mem_map, not_or]
    refine ⟨⟨?_, ?_⟩, by simp⟩ <;> split <;> simp
  · simp

/-! ## Progress -/

theorem takes_of_isSome (ha : a.place = some k) (h : (step a s).isSome) :
    ∃ a s', a.place = some k ∧ step a s = some s' := by
  obtain ⟨s', hs⟩ := Option.isSome_iff_exists.mp h
  exact ⟨a, s', ha, hs⟩

theorem takes_of_inProgress (hp : s.procs[c]? = some p) (hin : p.phase.inProgress) :
    ∃ a s', a.place = some (.launch c) ∧ step a s = some s' := by
  cases hphase : p.phase with
  | metrics =>
    refine takes_of_isSome (a := .metrics c none) rfl ?_
    simp [step, State.metrics, State.prepare, hp, hphase]
  | logger =>
    refine takes_of_isSome (a := .logger c none) rfl ?_
    simp [step, State.logger, State.prepare, hp, hphase]
  | submitLogging =>
    refine takes_of_isSome (a := .submitLogging c .accepted) rfl ?_
    simp [step, State.submitLogging, hp, hphase]
  | submitProcess =>
    refine takes_of_isSome (a := .submitProcess c .accepted) rfl ?_
    simp only [step, State.submitProcess, hp, hphase, if_true]
    split <;> rfl
  | submitMetrics =>
    refine takes_of_isSome (a := .submitMetrics c .accepted) rfl ?_
    simp only [step, State.submitMetrics, hp, hphase, if_true]
    split <;> rfl
  | insert =>
    refine takes_of_isSome (a := .insert c) rfl ?_
    simp only [step, State.insert, hp, hphase, if_true]
    split <;> rfl
  | registered => simp [hphase, Phase.inProgress] at hin
  | failed => simp [hphase, Phase.inProgress] at hin
  | leaked => simp [hphase, Phase.inProgress] at hin

/-- A call that is open has a step to take, whatever the others are at. -/
theorem takes_of_opened (h : s.opened k) : ∃ a s', a.place = some k ∧ step a s = some s' := by
  cases k with
  | start i =>
    obtain ⟨call, hi⟩ := Option.isSome_iff_exists.mp (show (s.starts i).isSome from h)
    cases call with
    | checking config =>
      refine takes_of_isSome (a := .startCheck i) rfl ?_
      simp only [step, State.startCheck, hi]
      split <;> rfl
    | forking config =>
      obtain ⟨pid, hfree⟩ := exists_pid_free s
      refine takes_of_isSome (a := .fork (.start i) pipelessOs pid plainMachine) rfl ?_
      simp only [step, State.fork, State.forkConfig, hi, hfree]
      rfl
  | launch c =>
    cases hp : s.procs[c]? with
    | none => simp [State.opened, openCalls, State.roll, hp] at h
    | some p =>
      have hopen : p.role.isOpen := by
        simpa [State.opened, openCalls, State.getElem?_roll hp] using h
      rw [Role.isOpen, Bool.and_eq_true] at hopen
      exact takes_of_inProgress hp hopen.2
  | stop i =>
    obtain ⟨⟨name, entry⟩, hi⟩ := Option.isSome_iff_exists.mp (show (s.stops i).isSome from h)
    refine takes_of_isSome (a := .stopKill i true) rfl ?_
    simp [step, State.stopKill, hi]

/-! ## Runs -/

variable {C : State → Action → Prop} {l : List (Turn CallPlace CommandResult)}

/-- In every run each call that has been made is open at one place or has been answered once by the
daemon, and not both, the replies are the answers to calls, one after the other, and each call that
is open has a step to take. Nobody else answers a call if no child returns from its spawn. -/
theorem answered_of_recorded (h : Recorded step callTurns .init C s l) :
    (desk l).InOrder s.opened s.replies ∧
      ((∀ s a, C s a → s.childReturns a = false) → (desk l).copies = []) ∧
      ∀ k, s.opened k → ∃ a s', a.place = some k ∧ step a s = some s' := by
  refine ⟨?_, fun hC => copies_desk ?_, fun k => takes_of_opened⟩
  · refine Recorded.calls h (fun k => ?_) rfl fun s s' a hs => ?_
    · cases k <;> rfl
    · exact ⟨(books_of_step hs).turns, (books_of_step hs).replies⟩
  · refine Recorded.invariant (I := fun _ l => ∀ k r, Turn.copied k r ∉ l) h (by simp)
      fun s s' l a _ hl hc _ k r => ?_
    rw [List.mem_append, not_or]
    exact ⟨hl k r, copied_notMem_callTurns (hC s a hc) k r⟩

/-- One call has been answered, one is before its fork, and one has removed what it stops. -/
theorem answered_of_three : ∃ (s : State) (l : List (Turn CallPlace CommandResult)),
    (desk l).made = 3 ∧ (desk l).answers = [(0, .processStarted "db" 4242)] ∧
      (desk l).call (.start 1) = some 1 ∧ (desk l).call (.stop 0) = some 2 ∧
      (desk l).InOrder s.opened s.replies ∧ (desk l).copies = [] ∧
      ∀ k, s.opened k → ∃ a s', a.place = some k ∧ step a s = some s' := by
  let web : ProcessConfig := { plainConfig with name := "web" }
  obtain ⟨s, l, hr, hmade, hanswers, hstart, hstop⟩ : ∃ s l,
      Recorded step callTurns .init (fun s a => s.childReturns a = false) s l ∧ (desk l).made = 3 ∧
        (desk l).answers = [(0, .processStarted "db" 4242)] ∧
        (desk l).call (.start 1) = some 1 ∧ (desk l).call (.stop 0) = some 2 :=
    ⟨_, _, reach_of_checked (startSteps 0 plainConfig 0 4242 ++
      [.startCall 1 web, .stopRemove 0 "db"]) rfl, by decide +kernel, by decide +kernel,
      by decide +kernel, by decide +kernel⟩
  obtain ⟨horder, hcopies, hsteps⟩ := answered_of_recorded hr
  exact ⟨s, l, hmade, hanswers, hstart, hstop, horder, hcopies fun _ _ hc => hc, hsteps⟩

/-- A process has been said to be started as often as calls of start have completed the launch of
one with its name and pid. -/
theorem count_started (h : Reachable C s) (name : String) (pid : Pid) :
    s.replies.count (.processStarted name pid) = s.started name pid := by
  refine h.invariant
    (I := fun s => s.replies.count (.processStarted name pid) = s.started name pid) rfl ?_
  intro s s' a hs _ hstep
  have hbooks := books_of_step hstep
  rw [hbooks.replies, hbooks.started, List.count_append, hs]

/-- A process is started by a call and restarted by the handler, which replies nothing. -/
theorem count_started_restarted : ∃ s : State,
    s.procs.map (·.pid) = [4242, 4243] ∧ s.started "db" 4242 = 1 ∧
      s.replies.count (.processStarted "db" 4242) = s.started "db" 4242 := by
  let config : ProcessConfig := { plainConfig with restart := .infinite }
  obtain ⟨s, hr, hpids, hstarted⟩ : ∃ s, Reachable (fun _ _ => True) s ∧
      s.procs.map (·.pid) = [4242, 4243] ∧ s.started "db" 4242 = 1 :=
    ⟨_, reach_of_checked (startSteps 0 config 0 4242 ++ exitSteps 0 ++
      [.recv, .remove, .decide false] ++ launchSteps .handler 1 4243 ++ registerSteps 1) rfl,
      by decide +kernel, by decide +kernel⟩
  exact ⟨s, hpids, hstarted, count_started hr "db" 4242⟩

end Yapm
