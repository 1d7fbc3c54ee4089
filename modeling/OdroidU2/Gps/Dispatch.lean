import OdroidU2.Foundations.Machine
import OdroidU2.Gps.Reader

/-!
# Two Threads and a Control Socket

`odroid_gps.c`: the reader thread feeds bytes to `nmea_reader_addc`, which posts one-byte
commands into a FIFO socket; `main_loop` reads them and makes the callbacks, to which it
passes pointers into the *shared* reader.

- `GpsState` — the shared reader, the socket, and where each thread is
- `gpsMachine` — one step of one thread
- `Look` — what a callback sees when it follows the pointer it was given

The reader thread is the only one that writes the reader, so its pending actions are
those of the logged run of `nmea_reader_addc` from the state in which the call began.
-/

namespace OdroidU2.Gps

open OdroidU2.Foundations Prog

variable {R : Type} [Libc R]

/-! ## §1 The State -/

/-- A command byte on its way.  Only `cmd` crosses the socket; the other fields record
for the specification what the reader thread had done when it posted the command. -/
structure Posted (R : Type) where
  cmd : Cmd
  /-- The shared reader at the post. -/
  reader : NmeaReader R
  /-- How many bytes had been handed to `nmea_reader_addc`. -/
  taken : Nat
  deriving DecidableEq

/-- Where `main_loop` is. -/
inductive MainLoop (R : Type) where
  /-- In `epoll_wait`. -/
  | polling
  /-- It has read the command byte. -/
  | received (e : Posted R)
  /-- Inside the callback, with the length argument of an NMEA callback. -/
  | calling (e : Posted R) (length : Option Nat)
  /-- It has left the loop. -/
  | exited
  deriving DecidableEq

/-- What a callback sees through its pointer at one moment of the call. -/
structure Look (R : Type) where
  posted : Posted R
  length : Option Nat
  reader : NmeaReader R
  deriving DecidableEq

/-- `struct gps_state`, less the descriptors and the status. -/
structure GpsState (R : Type) where
  reader : NmeaReader R
  /-- The rest of the reader code in progress, action by action. -/
  pending : List (Action × NmeaReader R)
  /-- The unread bytes of the control socket. -/
  control : List (Posted R)
  mainLoop : MainLoop R
  /-- The bytes handed to `nmea_reader_addc` so far. -/
  taken : List UInt8
  looks : List (Look R)

/-- The command `main_loop` is dispatching. -/
def MainLoop.command? : MainLoop R → Option (Posted R)
  | .received e => some e
  | .calling e _ => some e
  | _ => none

namespace GpsState

/-- The commands that were posted and whose callback has not returned. -/
def outstanding (s : GpsState R) : List (Posted R) := s.control ++ s.mainLoop.command?.toList

/-- The reader once the code in progress is done. -/
def settled (s : GpsState R) : NmeaReader R := lastState s.reader s.pending

/-- What an action of the reader thread puts into the socket. -/
def posted (s : GpsState R) (a : Action) (r : NmeaReader R) : List (Posted R) :=
  match a with
  | .post cmd => [⟨cmd, r, s.taken.length⟩]
  | _ => []

/-- `odroid_gps_init`: `main_loop` runs already, and `nmea_reader_set_callbacks` is about to. -/
def init (cbs : GpsCallbacks) : GpsState R where
  reader := nmeaReaderInit
  pending := (nmeaReaderSetCallbacks (some cbs)).log nmeaReaderInit
  control := []
  mainLoop := .polling
  taken := []
  looks := []

end GpsState

theorem outstanding_init (cbs : GpsCallbacks) : (GpsState.init (R := R) cbs).outstanding = [] := rfl

theorem looks_init (cbs : GpsCallbacks) : (GpsState.init (R := R) cbs).looks = [] := rfl

/-! ## §2 The Steps -/

/-- One step of one thread. -/
inductive GpsStep where
  /-- `gps_state_thread` calls `nmea_reader_addc` on the next byte. -/
  | addc (c : UInt8)
  /-- The reader thread takes its next action. -/
  | reader
  /-- Another thread calls `set_pending_command`. -/
  | setPendingCommand (cmd : Cmd)
  /-- `main_loop` reads a byte from the socket. -/
  | recv
  /-- `main_loop` enters its `switch`. -/
  | dispatch
  /-- The callback follows its pointer. -/
  | look
  /-- The callback returns. -/
  | ret
  deriving DecidableEq, Repr

/-- The `switch (cmd)` of `main_loop`. -/
def mainLoopDispatch (r : NmeaReader R) (e : Posted R) : MainLoop R :=
  match e.cmd with
  | .svStatusCb => .calling e none
  | .locationCb => .calling e none
  | .nmeaCb => .calling e (some (r.pos + 1))
  | .quit => .exited
  -- the status is not part of the reader, and the other commands do nothing
  | .statusCb => .polling
  | .agpsStatusCb => .polling
  | .niCb => .polling

/-- One step of the two threads. -/
def gpsStep (s : GpsState R) : GpsStep → Option (GpsState R)
  | .addc c =>
    match s.pending with
    | [] => some { s with pending := (nmeaReaderAddc c).log s.reader, taken := s.taken ++ [c] }
    | _ :: _ => none
  | .reader =>
    match s.pending with
    | [] => none
    | (a, r) :: rest =>
      some { s with reader := r, pending := rest, control := s.control ++ s.posted a r }
  | .setPendingCommand cmd =>
    if cmd = .statusCb ∨ cmd = .quit then
      some { s with control := s.control ++ s.posted (.post cmd) s.reader }
    else none
  | .recv =>
    match s.mainLoop, s.control with
    | .polling, e :: rest => some { s with control := rest, mainLoop := .received e }
    | _, _ => none
  | .dispatch =>
    match s.mainLoop with
    | .received e => some { s with mainLoop := mainLoopDispatch s.reader e }
    | _ => none
  | .look =>
    match s.mainLoop with
    | .calling e len => some { s with looks := s.looks ++ [⟨e, len, s.reader⟩] }
    | _ => none
  | .ret =>
    match s.mainLoop with
    | .calling _ _ => some { s with mainLoop := .polling }
    | _ => none

/-- The driver: every interleaving of the reader thread with `main_loop`. -/
def gpsMachine : Machine (GpsState R) GpsStep := ⟨gpsStep⟩

/-! ## §3 What a Step Can Do -/

theorem step_addc_iff {s t : GpsState R} {c : UInt8} :
    gpsMachine.step s (.addc c) = some t ↔ s.pending = [] ∧
      t = { s with pending := (nmeaReaderAddc c).log s.reader, taken := s.taken ++ [c] } := by
  obtain ⟨r, _ | _, _, _, _, _⟩ := s <;> simp [gpsMachine, gpsStep, eq_comm]

theorem step_reader_iff {s t : GpsState R} :
    gpsMachine.step s .reader = some t ↔ ∃ a r rest, s.pending = (a, r) :: rest ∧
      t = { s with reader := r, pending := rest, control := s.control ++ s.posted a r } := by
  obtain ⟨_, _ | ⟨⟨a, r⟩, rest⟩, _, _, _, _⟩ := s
  · -- no call of `nmea_reader_addc` is in progress
    simp [gpsMachine, gpsStep]
  · simp only [gpsMachine, gpsStep, Option.some.injEq]
    constructor
    · rintro rfl
      exact ⟨a, r, rest, rfl, rfl⟩
    · rintro ⟨a', r', rest', heq, rfl⟩
      cases heq
      rfl

theorem step_setPendingCommand_iff {s t : GpsState R} {cmd : Cmd} :
    gpsMachine.step s (.setPendingCommand cmd) = some t ↔ (cmd = .statusCb ∨ cmd = .quit) ∧
      t = { s with control := s.control ++ [⟨cmd, s.reader, s.taken.length⟩] } := by
  simp only [gpsMachine, gpsStep, Option.ite_none_right_eq_some, Option.some.injEq, GpsState.posted]
  exact and_congr_right fun _ => eq_comm

theorem step_recv_iff {s t : GpsState R} :
    gpsMachine.step s .recv = some t ↔ ∃ e rest, s.mainLoop = .polling ∧ s.control = e :: rest ∧
      t = { s with control := rest, mainLoop := .received e } := by
  obtain ⟨_, _, _ | ⟨e, rest⟩, _ | _ | _ | _, _, _⟩ := s <;>
    simp [gpsMachine, gpsStep, eq_comm]

theorem step_dispatch_iff {s t : GpsState R} :
    gpsMachine.step s .dispatch = some t ↔ ∃ e, s.mainLoop = .received e ∧
      t = { s with mainLoop := mainLoopDispatch s.reader e } := by
  obtain ⟨_, _, _, _ | _ | _ | _, _, _⟩ := s <;> simp [gpsMachine, gpsStep, eq_comm]

theorem step_look_iff {s t : GpsState R} :
    gpsMachine.step s .look = some t ↔ ∃ e len, s.mainLoop = .calling e len ∧
      t = { s with looks := s.looks ++ [⟨e, len, s.reader⟩] } := by
  obtain ⟨_, _, _, _ | _ | _ | _, _, _⟩ := s <;> simp [gpsMachine, gpsStep, eq_comm]

theorem step_ret_iff {s t : GpsState R} :
    gpsMachine.step s .ret = some t ↔ ∃ e len, s.mainLoop = .calling e len ∧
      t = { s with mainLoop := .polling } := by
  obtain ⟨_, _, _, _ | _ | _ | _, _, _⟩ := s <;> simp [gpsMachine, gpsStep, eq_comm]

omit [Libc R] in
/-- The `switch` goes on with the command it was given, or is done with it. -/
theorem command?_mainLoopDispatch (r : NmeaReader R) (e : Posted R) {e' : Posted R}
    (h : (mainLoopDispatch r e).command? = some e') : e' = e := by
  unfold mainLoopDispatch at h
  split at h <;> simp_all [MainLoop.command?]

/-- A command becomes outstanding only by being posted, by the reader thread or by
another one. -/
theorem outstanding_of_step {s t : GpsState R} {a : GpsStep} (h : gpsMachine.step s a = some t)
    {e : Posted R} (he : e ∈ t.outstanding) :
    e ∈ s.outstanding ∨
      (∃ x r rest, a = .reader ∧ s.pending = (x, r) :: rest ∧ e ∈ s.posted x r) ∨
      e.cmd = .statusCb ∨ e.cmd = .quit := by
  simp only [GpsState.outstanding, List.mem_append, Option.mem_toList] at he ⊢
  -- only two steps put a command into the socket: the reader's and that of another thread
  cases a with
  | addc c =>
    obtain ⟨-, rfl⟩ := step_addc_iff.mp h
    exact .inl he
  | reader =>
    obtain ⟨x, r, rest, hpending, rfl⟩ := step_reader_iff.mp h
    rcases he with he | he
    · rcases List.mem_append.mp he with he | he
      · exact .inl (.inl he)
      · -- posted by this very action of the reader
        exact .inr (.inl ⟨x, r, rest, rfl, hpending, he⟩)
    · exact .inl (.inr he)
  | setPendingCommand cmd =>
    obtain ⟨hcmd, rfl⟩ := step_setPendingCommand_iff.mp h
    rcases he with he | he
    · rcases List.mem_append.mp he with he | he
      · exact .inl (.inl he)
      · -- the other threads post two kinds of commands only
        rw [List.mem_singleton] at he
        exact .inr (.inr (by rw [he]; exact hcmd))
    · exact .inl (.inr he)
  -- `main_loop` moves a command from the socket into its hands, and `dispatch` keeps it there
  | recv =>
    obtain ⟨e', rest, hloop, hcontrol, rfl⟩ := step_recv_iff.mp h
    rcases he with he | he
    · exact .inl (.inl (by rw [hcontrol]; exact List.mem_cons_of_mem e' he))
    · -- the byte that was read is now being dispatched
      obtain rfl : e' = e := Option.some.inj he
      exact .inl (.inl (by rw [hcontrol]; exact List.mem_cons_self))
  | dispatch =>
    obtain ⟨e', hloop, rfl⟩ := step_dispatch_iff.mp h
    rcases he with he | he
    · exact .inl (.inl he)
    · obtain rfl := command?_mainLoopDispatch _ _ he
      exact .inl (.inr (by rw [hloop]; rfl))
  | look =>
    obtain ⟨e', len, hloop, rfl⟩ := step_look_iff.mp h
    exact .inl he
  -- the callback is over: its command is gone
  | ret =>
    obtain ⟨e', len, hloop, rfl⟩ := step_ret_iff.mp h
    rcases he with he | he
    · exact .inl (.inl he)
    · cases he

/-- The reader changes by its own thread only. -/
theorem reader_of_step {s t : GpsState R} {a : GpsStep} (h : gpsMachine.step s a = some t)
    (ha : a ≠ .reader) : t.reader = s.reader := by
  -- only the reader thread writes the reader
  cases a with
  | addc c =>
    obtain ⟨-, rfl⟩ := step_addc_iff.mp h
    rfl
  | reader => exact absurd rfl ha
  | setPendingCommand cmd =>
    obtain ⟨-, rfl⟩ := step_setPendingCommand_iff.mp h
    rfl
  | recv =>
    obtain ⟨_, _, _, _, rfl⟩ := step_recv_iff.mp h
    rfl
  | dispatch =>
    obtain ⟨_, _, rfl⟩ := step_dispatch_iff.mp h
    rfl
  | look =>
    obtain ⟨_, _, _, rfl⟩ := step_look_iff.mp h
    rfl
  | ret =>
    obtain ⟨_, _, _, rfl⟩ := step_ret_iff.mp h
    rfl

/-- What is left to do is what was left, less the action taken, or a new call. -/
theorem pending_of_step {s t : GpsState R} {a : GpsStep} (h : gpsMachine.step s a = some t) :
    (∃ c, a = .addc c ∧ s.pending = [] ∧ t.pending = (nmeaReaderAddc c).log s.reader ∧
      t.taken = s.taken ++ [c]) ∨
    (t.pending <:+ s.pending ∧ t.settled = s.settled ∧ t.taken = s.taken) := by
  -- a byte starts a call, the reader's steps work it off, and the others leave it alone
  cases a with
  | addc c =>
    obtain ⟨hpending, rfl⟩ := step_addc_iff.mp h
    exact .inl ⟨c, rfl, hpending, rfl, rfl⟩
  | reader =>
    obtain ⟨x, r, rest, hpending, rfl⟩ := step_reader_iff.mp h
    refine .inr ⟨?_, ?_, rfl⟩
    · rw [hpending]
      exact List.suffix_cons _ _
    · -- where the call ends does not change while it goes on
      rw [GpsState.settled, GpsState.settled, hpending, lastState_cons]
  | setPendingCommand cmd =>
    obtain ⟨-, rfl⟩ := step_setPendingCommand_iff.mp h
    exact .inr ⟨List.suffix_refl _, rfl, rfl⟩
  | recv =>
    obtain ⟨_, _, _, _, rfl⟩ := step_recv_iff.mp h
    exact .inr ⟨List.suffix_refl _, rfl, rfl⟩
  | dispatch =>
    obtain ⟨_, _, rfl⟩ := step_dispatch_iff.mp h
    exact .inr ⟨List.suffix_refl _, rfl, rfl⟩
  | look =>
    obtain ⟨_, _, _, rfl⟩ := step_look_iff.mp h
    exact .inr ⟨List.suffix_refl _, rfl, rfl⟩
  | ret =>
    obtain ⟨_, _, _, rfl⟩ := step_ret_iff.mp h
    exact .inr ⟨List.suffix_refl _, rfl, rfl⟩

omit [Libc R] in
/-- When no call is in progress the reader is settled. -/
theorem settled_of_isEmpty {s : GpsState R} (h : s.pending.isEmpty) : s.settled = s.reader := by
  rw [GpsState.settled, List.isEmpty_iff.mp h, lastState_nil]

/-- After the next byte the reader is settled where that call leaves it. -/
theorem settled_of_addc {s t : GpsState R} {c : UInt8}
    (h : gpsMachine.step s (.addc c) = some t) :
    t.settled = (nmeaReaderAddc c).exec s.settled := by
  obtain ⟨hpending, rfl⟩ := step_addc_iff.mp h
  have hidle : s.settled = s.reader := settled_of_isEmpty (by rw [hpending]; rfl)
  rw [hidle]
  exact lastState_log _ _

/-- A callback follows its pointer while it is running. -/
theorem looks_of_step {s t : GpsState R} {a : GpsStep} (h : gpsMachine.step s a = some t)
    {l : Look R} (hl : l ∈ t.looks) :
    l ∈ s.looks ∨ (a = .look ∧ s.mainLoop = .calling l.posted l.length ∧ l.reader = s.reader) := by
  -- only a callback looks, and it sees the reader as it is at that moment
  cases a with
  | addc c =>
    obtain ⟨-, rfl⟩ := step_addc_iff.mp h
    exact .inl hl
  | reader =>
    obtain ⟨_, _, _, _, rfl⟩ := step_reader_iff.mp h
    exact .inl hl
  | setPendingCommand cmd =>
    obtain ⟨-, rfl⟩ := step_setPendingCommand_iff.mp h
    exact .inl hl
  | recv =>
    obtain ⟨_, _, _, _, rfl⟩ := step_recv_iff.mp h
    exact .inl hl
  | dispatch =>
    obtain ⟨_, _, rfl⟩ := step_dispatch_iff.mp h
    exact .inl hl
  | look =>
    obtain ⟨e, len, hloop, rfl⟩ := step_look_iff.mp h
    rcases List.mem_append.mp hl with hl | hl
    · exact .inl hl
    · rw [List.mem_singleton] at hl
      subst hl
      exact .inr ⟨rfl, hloop, rfl⟩
  | ret =>
    obtain ⟨_, _, _, rfl⟩ := step_ret_iff.mp h
    exact .inl hl

/-- A callback is entered from the `switch` only. -/
theorem calling_of_step {s t : GpsState R} {a : GpsStep} (h : gpsMachine.step s a = some t)
    {e : Posted R} {len : Option Nat} (hcall : t.mainLoop = .calling e len) :
    s.mainLoop = .calling e len ∨
      (a = .dispatch ∧ s.mainLoop = .received e ∧ mainLoopDispatch s.reader e = .calling e len) := by
  -- a call begins with the dispatch of the command received
  cases a with
  | addc c =>
    obtain ⟨-, rfl⟩ := step_addc_iff.mp h
    exact .inl hcall
  | reader =>
    obtain ⟨_, _, _, _, rfl⟩ := step_reader_iff.mp h
    exact .inl hcall
  | setPendingCommand cmd =>
    obtain ⟨-, rfl⟩ := step_setPendingCommand_iff.mp h
    exact .inl hcall
  | recv =>
    obtain ⟨_, _, _, _, rfl⟩ := step_recv_iff.mp h
    cases hcall
  | dispatch =>
    obtain ⟨e', hloop, rfl⟩ := step_dispatch_iff.mp h
    -- the command that is called back is the one that was received
    have hcommand : (mainLoopDispatch s.reader e').command? = some e := congrArg _ hcall
    obtain rfl := command?_mainLoopDispatch _ _ hcommand
    exact .inr ⟨rfl, hloop, hcall⟩
  | look =>
    obtain ⟨_, _, _, rfl⟩ := step_look_iff.mp h
    exact .inl hcall
  | ret =>
    obtain ⟨_, _, _, rfl⟩ := step_ret_iff.mp h
    cases hcall

end OdroidU2.Gps
