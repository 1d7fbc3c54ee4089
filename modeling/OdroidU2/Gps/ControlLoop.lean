import OdroidU2.Foundations.Machine
import OdroidU2.Gps.Types

/-!
# The Loop of `main_loop`

`main_loop` waits for the control socket, reads one command a wake-up and makes the
callback.  What `epoll_wait` and `read` return is up to the kernel; when `epoll_wait`
reports nothing, `events` holds whatever the stack held before.

After an error other than `EINTR` the loop starts over.  After `EINTR` it does not: it
goes on to test `events`.

- `loop_right_iff` — when a run of the loop ends only as it should
- `interrupted_loop_exits` — an interruption that ends it
-/

namespace OdroidU2.Gps

open OdroidU2.Foundations

/-! ## §1 One Iteration -/

/-- `struct epoll_event`, as far as it is tested. -/
structure EpollEvent where
  /-- `data.fd` -/
  fd : Int
  epollin : Bool := false
  epollerr : Bool := false
  epollhup : Bool := false
  deriving DecidableEq, Repr

/-- What `epoll_wait` returns, with `events[0]` after the call: what the kernel reports if
`nevents` is positive, and unspecified otherwise. -/
structure EpollWait where
  nevents : Int
  /-- `errno == EINTR` -/
  eintr : Bool := false
  event : EpollEvent
  deriving DecidableEq, Repr

/-- What one `read` of the control socket returns. -/
inductive ReadResult where
  | byte
  | interrupted
  | failed
  deriving DecidableEq, Repr

/-- The two labels behind the loop. -/
inductive LoopExit where
  | error
  | exit
  deriving DecidableEq, Repr

/-- Where `main_loop` is. -/
inductive LoopAt where
  /-- In `epoll_wait`. -/
  | polling
  /-- In the loop around `read`. -/
  | reading
  | left (label : LoopExit)
  deriving DecidableEq, Repr

/-- The callbacks of the `switch`. -/
inductive Callback where
  | status
  | svStatus
  | location
  | nmea
  deriving DecidableEq, Repr

/-- An error or a hang-up. -/
def EpollEvent.isHangUp (e : EpollEvent) : Bool := e.epollerr || e.epollhup

/-- From the return of `epoll_wait` to the end of the tests of `events[0]`. -/
def afterEpollWait (controlFd : Int) (w : EpollWait) : LoopAt :=
  if w.nevents < 0 && !w.eintr then .polling
  else if w.event.isHangUp then .left .error
  else if w.event.epollin then if w.event.fd = controlFd then .reading else .polling
  else .polling

/-- The callback a command is for. -/
def Cmd.callback? : Cmd → Option Callback
  | .statusCb => some .status
  | .svStatusCb => some .svStatus
  | .locationCb => some .location
  | .nmeaCb => some .nmea
  | _ => none

/-- `switch (cmd)`: where the loop goes.  Without a byte `cmd` is 255, which is no command. -/
def afterSwitch : Option Cmd → LoopAt
  | some .quit => .left .exit
  | _ => .polling

/-- The loop and its end of the control socket. -/
structure ControlLoop where
  /-- The unread bytes of the socket. -/
  unread : List Cmd
  loopAt : LoopAt
  callbacks : List Callback
  /-- All bytes written so far. -/
  written : List Cmd
  /-- The commands that went through the `switch`. -/
  dispatched : List Cmd
  deriving DecidableEq, Repr

namespace ControlLoop

/-- The loop at its start. -/
def init : ControlLoop where
  unread := []
  loopAt := .polling
  callbacks := []
  written := []
  dispatched := []

variable (l : ControlLoop)

/-- `set_pending_command` in another thread. -/
def write (cmd : Cmd) : ControlLoop :=
  { l with unread := l.unread ++ [cmd], written := l.written ++ [cmd] }

/-- `epoll_wait` returns. -/
def epollWait (controlFd : Int) (w : EpollWait) : Option ControlLoop :=
  match l.loopAt with
  | .polling => some { l with loopAt := afterEpollWait controlFd w }
  | _ => none

/-- The `switch` on the next byte of the socket. -/
def dispatch (cmd : Cmd) (rest : List Cmd) : ControlLoop :=
  { l with
    unread := rest
    loopAt := afterSwitch (some cmd)
    callbacks := l.callbacks ++ cmd.callback?.toList
    dispatched := l.dispatched ++ [cmd] }

/-- There is a byte to read. -/
def readByte : Option ControlLoop :=
  match l.unread with
  | [] => none
  | cmd :: rest => some (l.dispatch cmd rest)

/-- `read` returns, and unless it was interrupted the loop goes on to the `switch`. -/
def read (r : ReadResult) : Option ControlLoop :=
  if l.loopAt = .reading then
    match r with
    | .byte => l.readByte
    | .interrupted => some l
    | .failed => some { l with loopAt := afterSwitch none }
  else none

end ControlLoop

/-! ## §2 Runs -/

/-- A command is written, or a call of the loop returns. -/
inductive LoopStep where
  | write (cmd : Cmd)
  | epollWait (w : EpollWait)
  | read (r : ReadResult)
  deriving DecidableEq, Repr

/-- The loop under any results of its calls, while the socket stays open. -/
def loopMachine (controlFd : Int) : Machine ControlLoop LoopStep where
  step l
    | .write cmd => some (l.write cmd)
    | .epollWait w => l.epollWait controlFd w
    | .read r => l.read r

/-! ## §3 The Property -/

/-- Every command that was written is dispatched once and in its turn, or still unread. -/
structure InTurn (l : ControlLoop) : Prop where
  written : l.written = l.dispatched ++ l.unread
  callbacks : l.callbacks = l.dispatched.filterMap Cmd.callback?

/-- The loop may be left: on `CMD_QUIT`, or on an error or a hang-up that was reported. -/
def MayLeave (l : ControlLoop) : LoopStep → Prop
  | .read .byte => l.unread.head? = some .quit
  | .epollWait w => 0 < w.nevents ∧ w.event.isHangUp
  | _ => False

/-- A step keeps the commands in turn, and leaves the loop only when it may. -/
def LoopRight (controlFd : Int) (l : ControlLoop) (a : LoopStep) : Prop :=
  ∀ l', (loopMachine controlFd).step l a = some l' →
    InTurn l' ∧ ∀ label, l.loopAt ≠ .left label → l'.loopAt = .left label → MayLeave l a

/-- An `epoll_wait` that reports nothing and is not retried leaves no error and no hang-up
in `events`. -/
def NoStrayHangUp (l : ControlLoop) : LoopStep → Prop
  | .epollWait w =>
    l.loopAt = .polling → w.nevents ≤ 0 → (w.nevents < 0 && !w.eintr) = false →
      w.event.isHangUp = false
  | _ => True

/-! ## §4 Steps of the Loop -/

section Steps

variable {controlFd : Int} {l l' : ControlLoop}

theorem inTurn_init : InTurn ControlLoop.init := ⟨rfl, rfl⟩

theorem InTurn.write (h : InTurn l) (cmd : Cmd) : InTurn (l.write cmd) := by
  refine ⟨?_, h.callbacks⟩
  rw [ControlLoop.write, h.written, List.append_assoc]

theorem epollWait_eq_some {w : EpollWait} : l.epollWait controlFd w = some l' ↔
    l.loopAt = .polling ∧ l' = { l with loopAt := afterEpollWait controlFd w } := by
  rw [ControlLoop.epollWait]
  cases l.loopAt <;> simp [eq_comm]

theorem read_byte_eq_some : l.read .byte = some l' ↔ ∃ cmd rest, l.loopAt = .reading ∧
    l.unread = cmd :: rest ∧ l' = l.dispatch cmd rest := by
  rw [ControlLoop.read, Option.ite_none_right_eq_some, ControlLoop.readByte]
  cases l.unread <;> simp [eq_comm]

/-- A byte that is read is dispatched in its turn. -/
theorem InTurn.read_byte (h : InTurn l) (hread : l.read .byte = some l') : InTurn l' := by
  obtain ⟨cmd, rest, -, hunread, rfl⟩ := read_byte_eq_some.mp hread
  constructor
  · rw [ControlLoop.dispatch, h.written, hunread, List.append_assoc, List.singleton_append]
  · rw [ControlLoop.dispatch, h.callbacks, List.filterMap_append]
    cases cmd <;> rfl

/-- Without a byte the loop only moves on, and never out. -/
theorem read_other {r : ReadResult} (hr : r ≠ .byte) (hread : l.read r = some l') :
    (InTurn l → InTurn l') ∧ ∀ label, l'.loopAt ≠ .left label := by
  obtain ⟨hreading, hread⟩ := Option.ite_none_right_eq_some.mp hread
  -- an interrupted read is made again; after a failed one the loop goes on below the `switch`
  cases r with
  | byte => exact absurd rfl hr
  | interrupted =>
    cases hread
    exact ⟨id, fun label => by rw [hreading]; exact nofun⟩
  | failed =>
    cases hread
    exact ⟨fun h => ⟨h.written, h.callbacks⟩, fun label => nofun⟩

/-- Every step keeps the commands in turn. -/
theorem inTurn_step {a : LoopStep} (h : InTurn l)
    (hstep : (loopMachine controlFd).step l a = some l') : InTurn l' := by
  -- only a write and a byte read move a command
  cases a with
  | write cmd =>
    cases hstep
    exact h.write cmd
  | epollWait w =>
    obtain ⟨-, rfl⟩ := epollWait_eq_some.mp hstep
    exact ⟨h.written, h.callbacks⟩
  | read r =>
    by_cases hr : r = .byte
    · subst hr
      exact h.read_byte hstep
    · exact (read_other hr hstep).1 h

/-- `epoll_wait` sends the loop out on any hang-up it does not overlook. -/
theorem afterEpollWait_eq_left (w : EpollWait) (label : LoopExit) :
    afterEpollWait controlFd w = .left label ↔
      label = .error ∧ (w.nevents < 0 && !w.eintr) = false ∧ w.event.isHangUp = true := by
  rw [afterEpollWait]
  cases hretry : w.nevents < 0 && !w.eintr with
  | true => simp
  | false =>
    cases hhangUp : w.event.isHangUp with
    | true => simp [eq_comm]
    | false =>
      -- neither retried nor hung up: the loop goes on to the socket, or waits again
      rw [if_neg nofun, if_neg nofun]
      split_ifs <;> simp

/-- One step is right exactly when it meets no stray hang-up. -/
theorem loopRight_iff (h : InTurn l) (a : LoopStep) :
    LoopRight controlFd l a ↔ NoStrayHangUp l a := by
  cases a with
  | write cmd =>
    refine iff_of_true (fun l' hstep => ⟨inTurn_step h hstep, ?_⟩) trivial
    cases hstep
    exact fun label hin hout => absurd hout hin
  | read r =>
    refine iff_of_true (fun l' hstep => ⟨inTurn_step h hstep, fun label _ hout => ?_⟩) trivial
    by_cases hr : r = .byte
    · subst hr
      obtain ⟨cmd, rest, -, hunread, rfl⟩ := read_byte_eq_some.mp hstep
      -- only `CMD_QUIT` sends the loop out, and it is what was read
      rw [MayLeave, hunread]
      cases cmd <;> first | rfl | exact absurd hout nofun
    · exact absurd hout ((read_other hr hstep).2 label)
  | epollWait w =>
    constructor
    · intro hright hpolling hnone hretry
      -- a stray hang-up sends the loop out, and nothing was reported
      by_contra hhangUp
      rw [Bool.not_eq_false] at hhangUp
      obtain ⟨-, hleave⟩ := hright _ (epollWait_eq_some.mpr ⟨hpolling, rfl⟩)
      have hout : afterEpollWait controlFd w = .left .error :=
        (afterEpollWait_eq_left w .error).mpr ⟨rfl, hretry, hhangUp⟩
      have hreported := hleave .error (by rw [hpolling]; exact nofun) hout
      exact absurd hreported.1 (by omega)
    · intro hstray l' hstep
      refine ⟨inTurn_step h hstep, fun label _ hout => ?_⟩
      obtain ⟨hpolling, rfl⟩ := epollWait_eq_some.mp hstep
      obtain ⟨-, hretry, hhangUp⟩ := (afterEpollWait_eq_left w label).mp hout
      refine ⟨?_, hhangUp⟩
      -- the loop is left on a hang-up, so one was reported
      by_contra hnone
      exact absurd (hstray hpolling (by omega) hretry) (by rw [hhangUp]; exact nofun)

end Steps

/-! ## §5 Runs of the Loop -/

/-- **The loop of `main_loop`**: in a run of the loop every command is dispatched once and in
its turn, and the loop is left only on `CMD_QUIT` or on a reported error or hang-up, exactly
when no `epoll_wait` of the run that reports nothing, and is not retried, leaves an error or a
hang-up in `events`. -/
theorem loop_right_iff (controlFd : Int) (steps : List LoopStep) :
    (loopMachine controlFd).AllSteps (LoopRight controlFd) .init steps ↔
      (loopMachine controlFd).AllSteps NoStrayHangUp .init steps :=
  (loopMachine controlFd).allSteps_iff (fun _ a hs => loopRight_iff hs a)
    (fun _ _ _ hs _ hstep => inTurn_step hs hstep) inTurn_init steps

/-- A signal interrupts `epoll_wait` while the stack holds the bits of an earlier event. -/
def interrupted : List LoopStep :=
  [.write .statusCb, .epollWait { nevents := -1, eintr := true, event := { fd := 0, epollhup := true } }]

/-- The loop is left with a command unread. -/
theorem interrupted_loop_exits :
    ((loopMachine 4).run .init interrupted).map (fun l => (l.loopAt, l.unread)) =
      some (.left .error, [.statusCb]) ∧
    ¬(loopMachine 4).AllSteps (LoopRight 4) .init interrupted := by
  refine ⟨by decide, fun h => ?_⟩
  obtain ⟨-, h⟩ := ((loopMachine 4).allSteps_iff (fun _ a hs => loopRight_iff hs a)
    (fun _ _ _ hs _ hstep => inTurn_step hs hstep) inTurn_init interrupted).mp h
  exact absurd ((h _ rfl).1 rfl (by decide) rfl) (by decide)

end OdroidU2.Gps
