import OdroidU2.Gps.ControlLoop
import OdroidU2.Gps.Session

/-!
# Shutting Down

`odroid_gps_cleanup` writes `CMD_QUIT` into the control socket and closes both ends right
after.  `main_loop` leaves its loop when it gets to the command; closing its end discards
what it has not read.

- `not_stranded_iff` — when cleanup waits long enough
- `cleanup_strands_loop` — a run in which it does not
-/

namespace OdroidU2.Gps

open OdroidU2.Foundations

/-! ## §1 The Two Threads -/

/-- The actions of `odroid_gps_cleanup`. -/
inductive CleanupAction where
  /-- `sleep (1)` -/
  | sleep
  /-- `set_pending_command(CMD_QUIT)` -/
  | quit
  /-- `close(state.control_fd[0])` -/
  | closeWriting
  /-- `close(state.control_fd[1])` -/
  | closeReading
  deriving DecidableEq, Repr

/-- `odroid_gps_cleanup`: it waits for the receiver if `ctrl_state` says that it runs. -/
def odroidGpsCleanup (ctrlState : Nat) : List CleanupAction :=
  (if ctrlState ≠ stStopped ∧ ctrlState ≠ stUndefined then List.replicate 5 .sleep else []) ++
    [.quit, .closeWriting, .closeReading]

/-- `main_loop`, the socket pair and what is left of the cleanup. -/
structure CleanupState where
  loop : ControlLoop
  /-- Is `control_fd[0]` open? -/
  writing : Bool
  /-- Is `control_fd[1]` open? -/
  reading : Bool
  todo : List CleanupAction
  /-- How many bytes were unread when `CMD_QUIT` was written. -/
  backlog : Option Nat
  /-- How many bytes `main_loop` has read since. -/
  readsSince : Nat
  deriving DecidableEq, Repr

/-- The driver when `odroid_gps_cleanup` is about to be called.  Nothing has ever moved
`ctrl_state`. -/
def CleanupState.init : CleanupState where
  loop := .init
  writing := true
  reading := true
  todo := odroidGpsCleanup GpsSession.init.ctrlState
  backlog := none
  readsSince := 0

/-- One step of one thread. -/
inductive CleanupStep where
  /-- Another thread writes a command; only the cleanup writes `CMD_QUIT`. -/
  | write (cmd : Cmd)
  | epollWait (w : EpollWait)
  | read (r : ReadResult)
  /-- The cleanup takes its next action. -/
  | cleanup
  deriving DecidableEq, Repr

namespace CleanupState

variable (s : CleanupState)

/-- What the kernel reports about `main_loop`'s end of the socket. -/
def reports (controlFd : Int) : EpollEvent :=
  { fd := controlFd, epollin := s.loop.unread ≠ [] || !s.writing, epollhup := !s.writing }

/-- Can `epoll_wait` return that?  Unless it fails it reports the socket, while it is open and
there is something to report. -/
def canReturn (controlFd : Int) (w : EpollWait) : Bool :=
  decide (w.nevents < 0) || decide (w.nevents = 1 ∧ w.event = s.reports controlFd) && s.reading &&
    (s.reports controlFd).epollin

/-- The `write` of `CMD_QUIT`. -/
def writeQuit : CleanupState :=
  { s with
    loop := if s.writing then s.loop.write .quit else s.loop
    backlog := some s.loop.unread.length
    readsSince := 0 }

/-- An action of the cleanup.  Closing the reading end discards its unread bytes. -/
def act : CleanupAction → CleanupState
  | .sleep => s
  | .quit => s.writeQuit
  | .closeWriting => { s with writing := false }
  | .closeReading => { s with reading := false, loop.unread := [] }

end CleanupState

/-- One step of the threads. -/
def cleanupStep (controlFd : Int) (s : CleanupState) : CleanupStep → Option CleanupState
  | .write cmd =>
    if cmd ≠ .quit ∧ s.writing ∧ s.reading then some { s with loop := s.loop.write cmd } else none
  | .epollWait w =>
    if s.canReturn controlFd w then
      (s.loop.epollWait controlFd w).map fun l => { s with loop := l }
    else none
  | .read r =>
    (s.loop.read r).map fun l =>
      { s with loop := l, readsSince := if r = .byte then s.readsSince + 1 else s.readsSince }
  | .cleanup =>
    match s.todo with
    | [] => none
    | a :: rest => some { (s.act a) with todo := rest }

/-- Every interleaving of the cleanup with `main_loop`. -/
def cleanupMachine (controlFd : Int) : Machine CleanupState CleanupStep := ⟨cleanupStep controlFd⟩

/-! ## §2 The Property -/

/-- Both ends are closed, and `main_loop` has not read the `CMD_QUIT` that was written. -/
structure Stranded (s : CleanupState) : Prop where
  writing : s.writing = false
  reading : s.reading = false
  unread : .quit ∉ s.loop.dispatched

/-- The step leaves nobody stranded. -/
def NotStranded (controlFd : Int) (s : CleanupState) (a : CleanupStep) : Prop :=
  ∀ t, (cleanupMachine controlFd).step s a = some t → ¬Stranded t

/-- Before the cleanup closes the reading end, `main_loop` has read more bytes than were
unread when `CMD_QUIT` was written. -/
def WaitsForQuit (s : CleanupState) (a : CleanupStep) : Prop :=
  a = .cleanup → s.todo.head? = some .closeReading → ∃ n ∈ s.backlog, n < s.readsSince

/-! ## §3 Where the Command Is -/

/-- What `main_loop` has read and what is unread, before the command is written, while it is
on its way, and after it has been read. -/
inductive QuitAt (s : CleanupState) : Prop where
  | unwritten (todo : s.todo = [.quit, .closeWriting, .closeReading]) (writing : s.writing = true)
      (reading : s.reading = true)
      (unread : .quit ∉ s.loop.unread) (dispatched : .quit ∉ s.loop.dispatched)
  | onItsWay (ahead behind : List Cmd)
      (todo : s.todo = [.closeWriting, .closeReading] ∨
        s.todo = [.closeReading] ∧ s.writing = false)
      (reading : s.reading = true)
      (unread : s.loop.unread = ahead ++ .quit :: behind) (first : .quit ∉ ahead)
      (backlog : s.backlog = some (ahead.length + s.readsSince))
      (dispatched : .quit ∉ s.loop.dispatched)
  | read (todo : .quit ∉ s.todo) (dispatched : .quit ∈ s.loop.dispatched)
      (left : s.loop.loopAt = .left .exit) (backlog : ∃ n ∈ s.backlog, n < s.readsSince)

section Steps

variable {controlFd : Int} {s t : CleanupState}

theorem quitAt_init : QuitAt CleanupState.init := by
  apply QuitAt.unwritten <;> decide

theorem QuitAt.not_stranded (h : QuitAt s) : ¬Stranded s := by
  intro hs
  cases h with
  | unwritten _ writing => exact absurd hs.writing (by simp [writing])
  | onItsWay _ _ _ reading => exact absurd hs.reading (by simp [reading])
  | read _ dispatched => exact hs.unread dispatched

/-- Where the command is does not depend on where the loop is, until it has been read. -/
theorem QuitAt.moveLoop (h : QuitAt s) (loopAt : LoopAt) (hleft : s.loop.loopAt ≠ .left .exit) :
    QuitAt { s with loop.loopAt := loopAt } := by
  cases h with
  | unwritten todo writing reading unread dispatched =>
    exact .unwritten todo writing reading unread dispatched
  | onItsWay ahead behind todo reading unread first backlog dispatched =>
    exact .onItsWay ahead behind todo reading unread first backlog dispatched
  -- once the quit command is read the loop has left, and does not move
  | read _ _ left => exact absurd left hleft

/-- Other commands go behind it. -/
theorem QuitAt.write (h : QuitAt s) {cmd : Cmd} (hcmd : cmd ≠ .quit) :
    QuitAt { s with loop := s.loop.write cmd } := by
  cases h with
  | unwritten todo writing reading unread dispatched =>
    refine .unwritten todo writing reading ?_ dispatched
    rw [ControlLoop.write, List.mem_append, List.mem_singleton]
    exact not_or_intro unread hcmd.symm
  -- what is written after the quit command comes behind it
  | onItsWay ahead behind todo reading unread first backlog dispatched =>
    refine .onItsWay ahead (behind ++ [cmd]) todo reading ?_ first backlog dispatched
    rw [ControlLoop.write, unread, List.append_assoc, List.cons_append]
  | read todo dispatched left backlog => exact .read todo dispatched left backlog

/-- `main_loop` reads a byte: the next one ahead of the command, or the command itself. -/
theorem QuitAt.read_byte (h : QuitAt s) {l : ControlLoop} (hread : s.loop.read .byte = some l) :
    QuitAt { s with loop := l, readsSince := s.readsSince + 1 } := by
  obtain ⟨cmd, rest, hreading, hunread, rfl⟩ := read_byte_eq_some.mp hread
  cases h with
  | unwritten todo writing reading unread dispatched =>
    rw [hunread, List.mem_cons, not_or] at unread
    refine .unwritten todo writing reading unread.2 ?_
    rw [ControlLoop.dispatch, List.mem_append, List.mem_singleton]
    exact not_or_intro dispatched unread.1
  | onItsWay ahead behind todo reading unread first backlog dispatched =>
    cases ahead with
    | nil =>
      -- nothing is ahead of the command: this byte is the command, and the loop is left
      rw [hunread, List.nil_append, List.cons.injEq] at unread
      obtain ⟨rfl, rfl⟩ := unread
      refine .read ?_ ?_ rfl ⟨s.readsSince, ?_, Nat.lt_succ_self _⟩
      · rcases todo with htodo | ⟨htodo, -⟩ <;> rw [htodo] <;> decide
      · exact List.mem_append_right _ (List.mem_singleton_self _)
      · rw [backlog, List.length_nil, Nat.zero_add]
        exact rfl
    | cons next ahead =>
      -- one byte less is ahead, and one more has been read: the backlog stays what it was
      rw [hunread, List.cons_append, List.cons.injEq] at unread
      obtain ⟨rfl, rfl⟩ := unread
      rw [List.mem_cons, not_or] at first
      refine .onItsWay ahead behind todo reading rfl first.2 ?_ ?_
      · rw [backlog, List.length_cons]
        exact congrArg some (Nat.add_right_comm _ _ _)
      · rw [ControlLoop.dispatch, List.mem_append, List.mem_singleton]
        exact not_or_intro dispatched first.1
  -- after the command the loop does not read
  | read _ _ left => cases left.symm.trans hreading

/-- The cleanup goes on, and waits for the command before it closes the reading end. -/
theorem QuitAt.act (h : QuitAt s) {a : CleanupAction} {rest : List CleanupAction}
    (htodo : s.todo = a :: rest)
    (hwaits : a = .closeReading → ∃ n ∈ s.backlog, n < s.readsSince) :
    QuitAt { (s.act a) with todo := rest } := by
  cases h with
  | unwritten todo writing reading unread dispatched =>
    rw [htodo, List.cons.injEq] at todo
    obtain ⟨rfl, rfl⟩ := todo
    -- the command is written behind what is unread; that is the backlog
    refine .onItsWay s.loop.unread [] (.inl rfl) reading ?_ unread ?_ ?_
    · rw [CleanupState.act, CleanupState.writeQuit, if_pos writing]
      exact rfl
    · exact congrArg some (Nat.add_zero _).symm
    · rw [CleanupState.act, CleanupState.writeQuit, if_pos writing]
      exact dispatched
  | onItsWay ahead behind todo reading unread first backlog dispatched =>
    rcases todo with todo | ⟨todo, -⟩ <;> rw [htodo, List.cons.injEq] at todo <;>
      obtain ⟨rfl, rfl⟩ := todo
    · exact .onItsWay ahead behind (.inr ⟨rfl, rfl⟩) reading unread first backlog dispatched
    · -- more bytes have been read than were ahead of the command, but it is still unread
      obtain ⟨n, hn, hlt⟩ := hwaits rfl
      rw [backlog, Option.mem_some_iff] at hn
      omega
  | read todo dispatched left backlog =>
    rw [htodo, List.mem_cons, not_or] at todo
    cases a with
    | quit => exact absurd rfl todo.1
    | sleep => exact .read todo.2 dispatched left backlog
    | closeWriting => exact .read todo.2 dispatched left backlog
    | closeReading => exact .read todo.2 dispatched left backlog

/-- Every step that waits for the command keeps it where it is said to be. -/
theorem quitAt_step {a : CleanupStep} (h : QuitAt s) (hwaits : WaitsForQuit s a)
    (hstep : cleanupStep controlFd s a = some t) : QuitAt t := by
  -- commands of other threads go in front of `CMD_QUIT` or behind it; only the close of the reading
  -- end could strand it
  cases a with
  | write cmd =>
    obtain ⟨⟨hcmd, -, -⟩, hstep⟩ := Option.ite_none_right_eq_some.mp hstep
    cases hstep
    exact h.write hcmd
  -- whatever `epoll_wait` reports, no byte is read
  | epollWait w =>
    obtain ⟨-, hstep⟩ := Option.ite_none_right_eq_some.mp hstep
    obtain ⟨l, hl, rfl⟩ := Option.map_eq_some_iff.mp hstep
    obtain ⟨hpolling, rfl⟩ := epollWait_eq_some.mp hl
    exact h.moveLoop _ (by rw [hpolling]; exact nofun)
  -- a byte read is a command dispatched, `CMD_QUIT` among them
  | read r =>
    obtain ⟨l, hl, rfl⟩ := Option.map_eq_some_iff.mp hstep
    obtain ⟨hreading, hr⟩ := Option.ite_none_right_eq_some.mp hl
    cases r with
    | byte => exact h.read_byte hl
    | interrupted =>
      cases hr
      exact h
    | failed =>
      cases hr
      exact h.moveLoop _ (by rw [hreading]; exact nofun)
  | cleanup =>
    -- the next action of `odroid_gps_cleanup`; `hwaits` is about the close of the reading end
    cases htodo : s.todo with
    | nil => simp [cleanupStep, htodo] at hstep
    | cons a rest =>
      simp only [cleanupStep, htodo, Option.some.injEq] at hstep
      subst hstep
      refine h.act htodo fun ha => hwaits rfl ?_
      rw [htodo, ha]
      exact rfl

/-- A step strands nobody exactly when it waits for the command. -/
theorem notStranded_iff (h : QuitAt s) (a : CleanupStep) :
    NotStranded controlFd s a ↔ WaitsForQuit s a := by
  constructor
  · rintro hstep rfl htodo
    cases h with
    -- the reading end is the last to be closed, so the command has been written
    | unwritten todo => exact absurd (todo ▸ htodo) (by decide)
    | onItsWay ahead behind todo reading unread first backlog dispatched =>
      rcases todo with todo | ⟨todo, hwriting⟩
      · exact absurd (todo ▸ htodo) (by decide)
      · -- the reading end would be closed over the command
        refine absurd ⟨hwriting, rfl, dispatched⟩
          (hstep { (s.act .closeReading) with todo := [] } ?_)
        simp only [cleanupMachine, cleanupStep, todo]
    | read _ _ _ backlog => exact backlog
  · intro hwaits t hstep
    exact (quitAt_step h hwaits hstep).not_stranded

end Steps

/-! ## §4 Interleavings with the Loop -/

/-- **Shutting down**: an interleaving of `odroid_gps_cleanup` with `main_loop` never has both
ends closed before `main_loop` has read `CMD_QUIT` exactly when the cleanup closes the reading
end only after `main_loop` has read more bytes than were unread when the command was
written. -/
theorem not_stranded_iff (controlFd : Int) (steps : List CleanupStep) :
    (cleanupMachine controlFd).AllSteps (NotStranded controlFd) .init steps ↔
      (cleanupMachine controlFd).AllSteps WaitsForQuit .init steps :=
  (cleanupMachine controlFd).allSteps_iff (fun _ a hs => notStranded_iff hs a)
    (fun _ _ _ hs hwaits hstep => quitAt_step hs hwaits hstep) quitAt_init steps

/-- The cleanup runs to its end before `main_loop` wakes up. -/
def cleanupFirst : List CleanupStep := [.cleanup, .cleanup, .cleanup]

/-- `CMD_QUIT` is discarded, and the loop still waits. -/
theorem cleanup_strands_loop :
    ((cleanupMachine 4).run .init cleanupFirst).map
      (fun s => (s.writing, s.reading, s.loop.loopAt, s.loop.unread, s.loop.dispatched)) =
        some (false, false, .polling, [], []) ∧
    ¬(cleanupMachine 4).AllSteps (NotStranded 4) .init cleanupFirst := by
  -- the reading end is closed last, and no `read` has returned by then
  refine ⟨by decide, fun h => ?_⟩
  obtain ⟨-, h⟩ := ((cleanupMachine 4).allSteps_iff (fun _ a hs => notStranded_iff hs a)
    (fun _ _ _ hs hwaits hstep => quitAt_step hs hwaits hstep) quitAt_init cleanupFirst).mp h
  obtain ⟨-, h⟩ := h _ rfl
  obtain ⟨n, hn, hlt⟩ := (h _ rfl).1 rfl rfl
  exact absurd hlt (Nat.not_lt_zero n)

end OdroidU2.Gps
