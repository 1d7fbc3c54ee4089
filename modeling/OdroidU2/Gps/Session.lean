import OdroidU2.Foundations.Machine
import OdroidU2.Gps.Types

/-!
# Starting and Stopping the Receiver

`odroid_gps.c`: `start_gps` opens the serial device of the receiver and starts a
`gps_state_thread` on it, `stop_gps` closes the device.  Both look at `ctrl_state` first.

A `gps_state_thread` ends on an error or a hang-up of the descriptor it watches, and for
no other reason: closing a descriptor takes it out of the thread's epoll set without an
event.
-/

namespace OdroidU2.Gps

open OdroidU2.Foundations Prog

/-! ## §1 The State -/

/-- `GpsStatusValue` of `hardware/gps.h` -/
inductive GpsStatusValue where
  | none
  | sessionBegin
  | sessionEnd
  | engineOn
  | engineOff
  deriving DecidableEq, Repr

/-- `ST_UNDEFINED` -/
def stUndefined : Nat := 0x0
/-- `ST_FAILED` -/
def stFailed : Nat := 1 <<< 4
/-- `ST_STOPPING` -/
def stStopping : Nat := 1 <<< 5
/-- `ST_STOPPED` -/
def stStopped : Nat := 1 <<< 6

/-- A `gps_state_thread` that has not ended, with the descriptor in its epoll set once it
has read `state.fd`. -/
structure GpsStateThread where
  gpsFd : Option Int
  deriving DecidableEq, Repr

/-- The members of `struct gps_state` that starting and stopping work on, and what the kernel
holds for them.  Descriptors are numbered in the order of their opening, after that of the
memory `memset` has cleared. -/
structure GpsSession where
  ctrlState : Nat
  fd : Int
  status : GpsStatusValue
  /-- The descriptors `start_gps` has opened that are open. -/
  opened : List Int
  nextFd : Nat
  threads : List GpsStateThread
  deriving DecidableEq, Repr

/-- The session `odroid_gps_init` leaves. -/
def GpsSession.init : GpsSession where
  ctrlState := stUndefined
  fd := 0
  status := .none
  opened := []
  nextFd := 1
  threads := []

/-- The actions of starting and stopping. -/
inductive SessionEvent where
  | openDevice (device : String) (ok : Bool)
  | closeFd (fd : Int)
  | createThread (ok : Bool)
  /-- A call of `set_pending_command`. -/
  | post (cmd : Cmd)
  /-- `state.gps_status.status = ..` -/
  | assignStatus
  /-- `state.fd = -1` -/
  | assignFd
  deriving DecidableEq, Repr

/-- Code that starts and stops the receiver. -/
abbrev SessionM (α : Type) := Prog GpsSession SessionEvent α

/-! ## §2 `start_gps` and `stop_gps` -/

/-- What the kernel answers during `start_gps`: which devices can be opened, and whether the
thread can be created. -/
structure StartOutcome where
  ttyACM0 : Bool := false
  ttyUSB0 : Bool := false
  ttySAC2 : Bool := false
  threadCreated : Bool := true
  deriving DecidableEq, Repr

/-- `set_pending_command` -/
def sessionPost (cmd : Cmd) : SessionM Unit := act (.post cmd) id

/-- `state.gps_status.status = value` -/
def assignStatus (value : GpsStatusValue) : SessionM Unit :=
  act .assignStatus fun s => { s with status := value }

/-- `state.fd = open(device, O_RDONLY)` -/
def openDevice (device : String) (ok : Bool) : SessionM Unit :=
  act (.openDevice device ok) fun s =>
    if ok then { s with fd := s.nextFd, opened := (s.nextFd : Int) :: s.opened, nextFd := s.nextFd + 1 }
    else { s with fd := -1 }

/-- The devices that are tried, which depend on `EXTERNAL_GPS`. -/
def openReceiver (externalGps : Bool) (out : StartOutcome) : SessionM Unit :=
  if externalGps then do
    openDevice "/dev/ttyACM0" out.ttyACM0
    let s ← read
    when (s.fd < 0) (openDevice "/dev/ttyUSB0" out.ttyUSB0)
  else openDevice "/dev/ttySAC2" out.ttySAC2

/-- `pthread_create(.., gps_state_thread, ..)`; a failure is only logged. -/
def createThread (ok : Bool) : SessionM Unit :=
  act (.createThread ok) fun s =>
    if ok then { s with threads := s.threads ++ [⟨none⟩] } else s

/-- `start_gps`, less the settings of the serial line. -/
def startGps (externalGps : Bool) (out : StartOutcome) : SessionM Unit := do
  let s ← read
  when (s.ctrlState = stStopped ∨ s.ctrlState = stFailed ∨ s.ctrlState = stUndefined) (do
    assignStatus .sessionBegin
    openReceiver externalGps out
    let s ← read
    when (0 ≤ s.fd) (do
      sessionPost .statusCb
      createThread out.threadCreated))

/-- `close(state.fd)` -/
def closeFd : SessionM Unit := do
  let s ← read
  act (.closeFd s.fd) fun t => { t with opened := t.opened.erase s.fd }

/-- `stop_gps` -/
def stopGps : SessionM Unit := do
  let s ← read
  when (¬(s.ctrlState = stStopping ∨ s.ctrlState = stStopped)) (do
    closeFd
    act .assignFd fun t => { t with fd := -1 }
    assignStatus .sessionEnd
    sessionPost .statusCb)

/-- `odroid_gps_start` -/
def odroidGpsStart (externalGps : Bool) (out : StartOutcome) : SessionM Unit := do
  assignStatus .engineOn
  sessionPost .statusCb
  startGps externalGps out

/-- `odroid_gps_stop` -/
def odroidGpsStop : SessionM Unit := stopGps

/-! ## §3 `gps_state_thread` -/

namespace GpsSession

variable (s : GpsSession)

/-- A thread starts: it reads `state.fd` and puts it into its epoll set, if it is open. -/
def threadBegins (i : Nat) : GpsSession :=
  { s with threads := s.threads.modify i fun _ => ⟨some (if s.fd ∈ s.opened then s.fd else -1)⟩ }

/-- A thread ends. -/
def threadEnds (i : Nat) : GpsSession := { s with threads := s.threads.eraseIdx i }

/-- The descriptor the `i`-th thread watches. -/
def watches (i : Nat) : Option Int := s.threads[i]?.bind GpsStateThread.gpsFd

end GpsSession

/-! ## §4 The Devices That Are Opened -/

/-- Can the receiver be opened? -/
def StartOutcome.opens (externalGps : Bool) (out : StartOutcome) : Bool :=
  if externalGps then out.ttyACM0 || out.ttyUSB0 else out.ttySAC2

/-- The session after the receiver has been opened. -/
def GpsSession.receiverOpened (s : GpsSession) : GpsSession :=
  { s with fd := s.nextFd, opened := (s.nextFd : Int) :: s.opened, nextFd := s.nextFd + 1 }

theorem exec_openDevice (device : String) (ok : Bool) (s : GpsSession) :
    (openDevice device ok).exec s = if ok then s.receiverOpened else { s with fd := -1 } := (rfl)

theorem fd_exec_openDevice_lt (device : String) (ok : Bool) (s : GpsSession) :
    ((openDevice device ok).exec s).fd < 0 ↔ ok = false := by
  rw [exec_openDevice]
  -- a descriptor given out is at least 0, a failed open leaves -1
  cases ok with
  | true =>
    refine iff_of_false (fun h => ?_) nofun
    have hfd : (s.receiverOpened.fd : Int) = (s.nextFd : Int) := rfl
    rw [if_pos rfl, hfd] at h
    omega
  | false => exact iff_of_true (by rw [if_neg nofun]; exact Int.negSucc_lt_zero 0) rfl

/-- Opening the receiver opens one device or none. -/
theorem exec_openReceiver (externalGps : Bool) (out : StartOutcome) (s : GpsSession) :
    (openReceiver externalGps out).exec s =
      if out.opens externalGps then s.receiverOpened else { s with fd := -1 } := by
  cases externalGps with
  | false => exact exec_openDevice _ _ _
  | true =>
    simp only [openReceiver, if_true, exec_bind, val_read, exec_read, exec_when,
      fd_exec_openDevice_lt, StartOutcome.opens]
    -- `/dev/ttyUSB0` is tried only after `/dev/ttyACM0` has failed
    cases hacm : out.ttyACM0 with
    | true => rfl
    | false => rfl

/-- The device that is opened in the end. -/
def StartOutcome.device (externalGps : Bool) (out : StartOutcome) : String :=
  if externalGps then if out.ttyACM0 then "/dev/ttyACM0" else "/dev/ttyUSB0" else "/dev/ttySAC2"

theorem emits_openReceiver {P : SessionEvent → GpsSession → Prop} (externalGps : Bool)
    (out : StartOutcome) (s : GpsSession)
    (hfail : ∀ device, P (.openDevice device false) { s with fd := -1 }) :
    Emits P (openReceiver externalGps out) s ↔
      (out.opens externalGps → P (.openDevice (out.device externalGps) true) s.receiverOpened) := by
  have hdevice (device : String) (ok : Bool) (t : GpsSession)
      (ht : t.receiverOpened = s.receiverOpened)
      (hfail : ∀ device, P (.openDevice device false) { t with fd := -1 }) :
      Emits P (openDevice device ok) t ↔
        (ok → P (.openDevice device true) s.receiverOpened) := by
    cases ok with
    | true =>
      rw [openDevice, emits_act, if_pos rfl, ← ht]
      exact ⟨fun h _ => h, fun h => h rfl⟩
    | false => exact iff_of_true ((emits_act _ _ _).mpr (hfail device)) nofun
  cases externalGps with
  | false => exact hdevice _ _ s rfl hfail
  | true =>
    simp only [openReceiver, if_true, emits_bind, emits_read, true_and, val_read, exec_read,
      emits_when, hdevice _ _ s rfl hfail, fd_exec_openDevice_lt, StartOutcome.opens,
      StartOutcome.device]
    cases hacm : out.ttyACM0 with
    | true => simp
    | false =>
      -- the second device is tried
      have hsecond := hdevice "/dev/ttyUSB0" out.ttyUSB0 { s with fd := -1 } rfl hfail
      rw [exec_openDevice, if_neg nofun]
      simpa using hsecond

/-- What `start_gps` leaves: with the receiver open a thread on it, if one can be created. -/
theorem exec_startGps (externalGps : Bool) (out : StartOutcome) (s : GpsSession)
    (hctrl : s.ctrlState = stUndefined) :
    (startGps externalGps out).exec s =
      if out.opens externalGps then
        (createThread out.threadCreated).exec { s.receiverOpened with status := .sessionBegin }
      else { s with status := .sessionBegin, fd := -1 } := by
  simp only [startGps, assignStatus, sessionPost, exec_bind, val_read, exec_read, exec_when,
    exec_act, exec_openReceiver]
  rw [if_pos (.inr (.inr hctrl))]
  -- the device opens, or the session begins without one
  split
  · rfl
  · rfl

end OdroidU2.Gps
