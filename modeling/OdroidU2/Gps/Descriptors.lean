import OdroidU2.Gps.SessionLimits

/-!
# The Descriptors of the Driver

`stop_gps` closes `state.fd` without a look at it: the test before the `close` is of
`ctrl_state`, which is undefined all the time.  `state.fd` is 0 after the `memset` of
`odroid_gps_init` and -1 after a stop or a start that could not open the receiver.

The number of a new descriptor is up to the kernel, which may give out one that has been
closed again.

- `driverInv_step` — a positive `state.fd` is a descriptor that a start has opened
- `closes_own_iff` — when every stop closes such a descriptor
- `stop_closes_stdin` — a stop before any start
-/

namespace OdroidU2.Gps

open OdroidU2.Foundations Prog

/-! ## §1 The Calls -/

/-- The driver, and what the kernel holds for it. -/
structure DriverState where
  session : GpsSession
  /-- `state.control_fd` -/
  controlFd : Int × Int
  /-- The ends of socket pairs that are open. -/
  sockets : List Int
  deriving DecidableEq, Repr

/-- The zeroed `state` of a library that has just been loaded. -/
def DriverState.loaded : DriverState where
  session := .init
  controlFd := (0, 0)
  sockets := []

/-- `close` is given this number. -/
def SessionEvent.closed? : SessionEvent → Option Int
  | .closeFd fd => some fd
  | _ => none

/-- The numbers a program closes, in order. -/
def closedBy (p : SessionM Unit) (s : GpsSession) : List Int :=
  (p.log s).filterMap fun e => e.1.closed?

/-- The number is free for the kernel to give out. -/
def DriverState.Free (s : DriverState) (fd : Int) : Prop := fd ∉ s.session.opened ∧ fd ∉ s.sockets

instance (s : DriverState) (fd : Int) : Decidable (s.Free fd) := by
  unfold DriverState.Free
  infer_instance

/-- The calls of the framework, each with what the kernel answers. -/
inductive DriverStep where
  /-- `odroid_gps_init`, with or without callbacks, and the socket pair unless it fails. -/
  | odroidGpsInit (callbacks : Bool) (pair : Option (Nat × Nat))
  /-- `odroid_gps_start`, with the number of the descriptor if the receiver opens. -/
  | odroidGpsStart (out : StartOutcome) (fd : Nat)
  | odroidGpsStop
  | odroidGpsCleanup
  deriving DecidableEq, Repr

namespace DriverState

variable (s : DriverState)

/-- Run a function that starts or stops.  A number it closes may be that of a socket. -/
def runSession (p : SessionM Unit) : DriverState :=
  { s with session := p.exec s.session, sockets := (closedBy p s.session).foldl List.erase s.sockets }

/-- `close(fd)` -/
def closeNumber (fd : Int) : DriverState :=
  { s with session.opened := s.session.opened.erase fd, sockets := s.sockets.erase fd }

/-- `odroid_gps_init` clears `state`; descriptors that are open stay open. -/
def odroidGpsInit (callbacks : Bool) (pair : Option (Nat × Nat)) : DriverState :=
  if !callbacks then s
  else
    let cleared := { GpsSession.init with
      opened := s.session.opened, nextFd := s.session.nextFd, threads := s.session.threads }
    match pair with
    | none => { s with session := cleared, controlFd := (-1, -1) }
    | some (writing, reading) =>
      { session := cleared, controlFd := (writing, reading),
        sockets := (writing : Int) :: (reading : Int) :: s.sockets }

/-- `odroid_gps_cleanup`, less the wait for `ctrl_state` and the commands. -/
def odroidGpsCleanup : DriverState :=
  let s := { s.closeNumber s.controlFd.1 with controlFd := (-1, s.controlFd.2) }
  { s.closeNumber s.controlFd.2 with controlFd := (-1, -1) }

end DriverState

/-- One call.  The numbers the kernel gives out are free. -/
def driverStep (externalGps : Bool) (s : DriverState) : DriverStep → Option DriverState
  | .odroidGpsInit callbacks pair =>
    if ∀ p ∈ pair, s.Free p.1 ∧ s.Free p.2 ∧ p.1 ≠ p.2 then some (s.odroidGpsInit callbacks pair)
    else none
  | .odroidGpsStart out fd =>
    if s.Free fd then
      some ({ s with session.nextFd := fd }.runSession (odroidGpsStart externalGps out))
    else none
  | .odroidGpsStop => some (s.runSession odroidGpsStop)
  | .odroidGpsCleanup => some s.odroidGpsCleanup

/-- The driver under any calls and answers. -/
def driverMachine (externalGps : Bool) : Machine DriverState DriverStep := ⟨driverStep externalGps⟩

/-! ## §2 The Property -/

/-- An action that closes nothing but a descriptor a start has opened and that is open. -/
def ClosesOpened (s : GpsSession) (e : SessionEvent) (_ : GpsSession) : Prop :=
  ∀ fd, e = .closeFd fd → fd ∈ s.opened

/-- A stop closes only what a start has opened. -/
def ClosesOwn (s : DriverState) (a : DriverStep) : Prop :=
  a = .odroidGpsStop → Takes ClosesOpened odroidGpsStop s.session

/-- `state.fd` is neither -1 nor the 0 of the `memset`: it is positive, or the kernel has given
the number 0 to a start. -/
def FdIsSet (s : DriverState) (a : DriverStep) : Prop :=
  a = .odroidGpsStop → 0 < s.session.fd ∨ (s.session.fd = 0 ∧ 0 ∈ s.session.opened)

/-! ## §3 The Invariant -/

/-- What holds between calls. -/
structure DriverInv (s : DriverState) : Prop where
  ctrlState : s.session.ctrlState = stUndefined
  /-- A positive `state.fd` has been opened by a start and is open. -/
  fd : 0 < s.session.fd → s.session.fd ∈ s.session.opened
  nonneg : ∀ x ∈ s.session.opened, 0 ≤ x
  /-- A positive `control_fd` is an open end of a socket pair. -/
  writing : 0 < s.controlFd.1 → s.controlFd.1 ∈ s.sockets
  reading : 0 < s.controlFd.2 → s.controlFd.2 ∈ s.sockets
  disjoint : ∀ x ∈ s.session.opened, x ∉ s.sockets

theorem driverInv_loaded : DriverInv .loaded where
  ctrlState := rfl
  fd h := absurd h (by decide)
  nonneg := nofun
  writing h := absurd h (by decide)
  reading h := absurd h (by decide)
  disjoint := nofun

section Steps

variable {externalGps : Bool} {s : DriverState}

theorem DriverInv.odroidGpsInit (h : DriverInv s) (callbacks : Bool) (pair : Option (Nat × Nat))
    (hfree : ∀ p ∈ pair, s.Free p.1 ∧ s.Free p.2 ∧ p.1 ≠ p.2) :
    DriverInv (s.odroidGpsInit callbacks pair) := by
  have hzero : ¬(0 : Int) < 0 := by decide
  have hneg : ¬(0 : Int) < -1 := by decide
  cases callbacks with
  | false => exact h
  | true =>
    cases pair with
    | none =>
      exact ⟨rfl, fun hfd => absurd hfd hzero, h.nonneg, fun hfd => absurd hfd hneg,
        fun hfd => absurd hfd hneg, h.disjoint⟩
    | some p =>
      obtain ⟨hwriting, hreading, -⟩ := hfree p rfl
      refine ⟨rfl, fun hfd => absurd hfd hzero, h.nonneg, fun _ => ?_, fun _ => ?_,
        fun x hx hsocket => ?_⟩
      · exact List.mem_cons_self
      · exact List.mem_cons_of_mem _ List.mem_cons_self
      · -- the kernel gives out numbers of no receiver
        rcases List.mem_cons.mp hsocket with rfl | hsocket
        · exact hwriting.1 hx
        · rcases List.mem_cons.mp hsocket with rfl | hold
          · exact hreading.1 hx
          · exact h.disjoint x hx hold

/-- A start closes nothing. -/
theorem closedBy_odroidGpsStart (out : StartOutcome) (t : GpsSession) :
    closedBy (odroidGpsStart externalGps out) t = [] := by
  -- none of its actions is a close
  have hquiet : (odroidGpsStart externalGps out).Emits (fun e _ => e.closed? = none) t := by
    have hopen (u : GpsSession) : (openReceiver externalGps out).Emits
        (fun e _ => e.closed? = none) u :=
      (emits_openReceiver externalGps out u fun _ => rfl).mpr fun _ => rfl
    have hassign : SessionEvent.assignStatus.closed? = none := rfl
    have hpost (cmd : Cmd) : (SessionEvent.post cmd).closed? = none := rfl
    have hthread (ok : Bool) : (SessionEvent.createThread ok).closed? = none := rfl
    simp only [Gps.odroidGpsStart, startGps, assignStatus, sessionPost, createThread, emits_bind,
      emits_act, emits_read, emits_when, hopen, hassign, hpost, hthread, implies_true, and_self]
  exact List.filterMap_eq_nil_iff.mpr fun e he => hquiet e he

/-- A start opens the number that is free, or leaves -1 in `state.fd`. -/
theorem opened_odroidGpsStart (out : StartOutcome) (t : GpsSession)
    (hctrl : t.ctrlState = stUndefined) :
    let u := (odroidGpsStart externalGps out).exec t
    (u.fd = t.nextFd ∧ u.opened = (t.nextFd : Int) :: t.opened) ∨
      (u.fd = -1 ∧ u.opened = t.opened) := by
  have hcall : (Gps.odroidGpsStart externalGps out).exec t =
      (startGps externalGps out).exec { t with status := .engineOn } := rfl
  rw [hcall, exec_startGps externalGps out { t with status := .engineOn } hctrl]
  -- the device opens or not; the thread may fail after it, which closes nothing
  split
  · cases out.threadCreated with
    | true => exact .inl ⟨rfl, rfl⟩
    | false => exact .inl ⟨rfl, rfl⟩
  · exact .inr ⟨rfl, rfl⟩

theorem DriverInv.odroidGpsStart (h : DriverInv s) (out : StartOutcome) (fd : Nat)
    (hfree : s.Free fd) :
    DriverInv ({ s with session.nextFd := fd }.runSession (odroidGpsStart externalGps out)) := by
  have hctrl : ({ s.session with nextFd := fd } : GpsSession).ctrlState = stUndefined := h.ctrlState
  have hctrl' := @ctrlState_odroidGpsStart externalGps _ out hctrl
  have hfds := @opened_odroidGpsStart externalGps out _ hctrl
  rw [DriverState.runSession, closedBy_odroidGpsStart, List.foldl_nil]
  generalize (Gps.odroidGpsStart externalGps out).exec { s.session with nextFd := fd } = u at *
  rcases hfds with ⟨hfd, hopened⟩ | ⟨hfd, hopened⟩
  · -- the descriptor is new
    refine ⟨hctrl', fun _ => ?_, ?_, h.writing, h.reading, ?_⟩
    · show u.fd ∈ u.opened
      rw [hfd, hopened]
      exact List.mem_cons_self
    · show ∀ x ∈ u.opened, 0 ≤ x
      rw [hopened]
      exact List.forall_mem_cons.mpr ⟨Int.natCast_nonneg fd, h.nonneg⟩
    · show ∀ x ∈ u.opened, x ∉ s.sockets
      rw [hopened]
      exact List.forall_mem_cons.mpr ⟨hfree.2, h.disjoint⟩
  · -- the receiver could not be opened
    refine ⟨hctrl', fun hpos => ?_, ?_, h.writing, h.reading, ?_⟩
    · replace hpos : 0 < u.fd := hpos
      rw [hfd] at hpos
      exact absurd hpos (by decide)
    · show ∀ x ∈ u.opened, 0 ≤ x
      rw [hopened]
      exact h.nonneg
    · show ∀ x ∈ u.opened, x ∉ s.sockets
      rw [hopened]
      exact h.disjoint

/-- A stop closes `state.fd`. -/
theorem closedBy_odroidGpsStop {t : GpsSession} (hctrl : t.ctrlState = stUndefined) :
    closedBy odroidGpsStop t = [t.fd] := by
  -- `ctrl_state` is never set, so the guard does not return
  have hguard : ¬(t.ctrlState = stStopping ∨ t.ctrlState = stStopped) := by
    rw [hctrl]
    decide
  simp only [closedBy, Gps.odroidGpsStop, stopGps, log_bind, log_read, val_read, exec_read, log_when,
    if_pos hguard]
  rfl

/-- Closing a number that is not positive, or that of a receiver, closes no positive socket. -/
theorem DriverInv.mem_erase (h : DriverInv s) {x : Int} (hpos : 0 < x) (hx : x ∈ s.sockets)
    {fd : Int} (hfd : 0 < fd → fd ∈ s.session.opened) : x ∈ s.sockets.erase fd := by
  refine (List.mem_erase_of_ne ?_).mpr hx
  rintro rfl
  exact h.disjoint x (hfd hpos) hx

theorem DriverInv.odroidGpsStop (h : DriverInv s) : DriverInv (s.runSession odroidGpsStop) := by
  -- the number in `state.fd` is closed, be it a receiver, a socket or nothing
  have hrun : s.runSession Gps.odroidGpsStop =
      { s with
        session := { s.session with
          opened := s.session.opened.erase s.session.fd, fd := -1, status := .sessionEnd }
        sockets := s.sockets.erase s.session.fd } := by
    rw [DriverState.runSession, exec_odroidGpsStop h.ctrlState, closedBy_odroidGpsStop h.ctrlState]
    rfl
  rw [hrun]
  exact
    { ctrlState := h.ctrlState
      fd := fun hpos => absurd hpos (by show ¬(0 : Int) < -1; decide)
      nonneg := fun x hx => h.nonneg x (List.mem_of_mem_erase hx)
      writing := fun hpos => h.mem_erase hpos (h.writing hpos) h.fd
      reading := fun hpos => h.mem_erase hpos (h.reading hpos) h.fd
      disjoint := fun x hx hsocket =>
        h.disjoint x (List.mem_of_mem_erase hx) (List.mem_of_mem_erase hsocket) }

theorem DriverInv.odroidGpsCleanup (h : DriverInv s) : DriverInv s.odroidGpsCleanup := by
  have hneg : ¬(0 : Int) < -1 := by decide
  -- the sockets that are closed are not the receiver
  have hapart {fd : Int} (hpos : 0 < s.session.fd) (hfd : 0 < fd → fd ∈ s.sockets) :
      s.session.fd ≠ fd := by
    rintro rfl
    exact h.disjoint _ (h.fd hpos) (hfd hpos)
  exact
    { ctrlState := h.ctrlState
      fd := fun hpos => (List.mem_erase_of_ne (hapart hpos h.reading)).mpr
        ((List.mem_erase_of_ne (hapart hpos h.writing)).mpr (h.fd hpos))
      nonneg := fun x hx => h.nonneg x (List.mem_of_mem_erase (List.mem_of_mem_erase hx))
      writing := fun hpos => absurd hpos hneg
      reading := fun hpos => absurd hpos hneg
      disjoint := fun x hx hsocket =>
        h.disjoint x (List.mem_of_mem_erase (List.mem_of_mem_erase hx))
          (List.mem_of_mem_erase (List.mem_of_mem_erase hsocket)) }

/-- **Step lemma**: every call keeps the invariant. -/
theorem driverInv_step {t : DriverState} {a : DriverStep} (h : DriverInv s)
    (hstep : (driverMachine externalGps).step s a = some t) : DriverInv t := by
  -- one lemma for each call of the interface
  cases a with
  | odroidGpsInit callbacks pair =>
    obtain ⟨hfree, hexec⟩ := Option.ite_none_right_eq_some.mp hstep
    cases hexec
    exact h.odroidGpsInit callbacks pair hfree
  | odroidGpsStart out fd =>
    obtain ⟨hfree, hexec⟩ := Option.ite_none_right_eq_some.mp hstep
    cases hexec
    exact h.odroidGpsStart out fd hfree
  | odroidGpsStop =>
    cases hstep
    exact h.odroidGpsStop
  | odroidGpsCleanup =>
    cases hstep
    exact h.odroidGpsCleanup

end Steps

/-! ## §4 What a Stop Closes -/

/-- A stop is all right when `state.fd` is open. -/
theorem takes_odroidGpsStop_iff {t : GpsSession} (hctrl : t.ctrlState = stUndefined) :
    Takes ClosesOpened odroidGpsStop t ↔ t.fd ∈ t.opened := by
  -- the guard tests `ctrl_state`, and lets every stop through
  have hguard : ¬(t.ctrlState = stStopping ∨ t.ctrlState = stStopped) := by
    rw [hctrl]
    decide
  simp only [odroidGpsStop, stopGps, closeFd, assignStatus, sessionPost, takes_bind, takes_read,
    takes_act, takes_when, val_read, exec_read, true_and, hguard, not_false_eq_true, true_implies]
  constructor
  · rintro ⟨hclose, -⟩
    exact hclose _ rfl
  · intro hmem
    -- what follows the `close` closes nothing
    refine ⟨fun fd hfd => ?_, fun fd hfd => ?_, fun fd hfd => ?_, fun fd hfd => ?_⟩ <;> cases hfd
    exact hmem

/-- One call is all right exactly when `state.fd` is set. -/
theorem closesOwn_iff {s : DriverState} (h : DriverInv s) (a : DriverStep) :
    ClosesOwn s a ↔ FdIsSet s a := by
  unfold ClosesOwn FdIsSet
  refine imp_congr_right fun _ => ?_
  rw [takes_odroidGpsStop_iff h.ctrlState]
  constructor
  · intro hmem
    -- an open descriptor is not negative
    rcases Int.lt_or_eq_of_le (h.nonneg _ hmem) with hpos | hzero
    · exact .inl hpos
    · rw [← hzero] at hmem
      exact .inr ⟨hzero.symm, hmem⟩
  · rintro (hpos | ⟨hzero, hmem⟩)
    · exact h.fd hpos
    · rwa [hzero]

/-- **What the driver closes**: in a run of calls, whatever the kernel answers, every stop closes
a descriptor that a start has opened and that is still open, exactly when every stop finds
`state.fd` set by a start. -/
theorem closes_own_iff (externalGps : Bool) (steps : List DriverStep) :
    (driverMachine externalGps).AllSteps ClosesOwn .loaded steps ↔
      (driverMachine externalGps).AllSteps FdIsSet .loaded steps :=
  (driverMachine externalGps).allSteps_iff (fun _ a hs => closesOwn_iff hs a)
    (fun _ _ _ hs _ hstep => driverInv_step hs hstep) driverInv_loaded steps

/-- A stop before any start closes descriptor 0. -/
theorem stop_closes_stdin :
    ¬(driverMachine true).AllSteps ClosesOwn .loaded
      [.odroidGpsInit true (some (5, 6)), .odroidGpsStop] := by
  intro h
  obtain ⟨-, hrest⟩ := h
  have hstop := (hrest _ rfl).1 rfl
  exact absurd ((takes_odroidGpsStop_iff rfl).mp hstop) (by decide)

end OdroidU2.Gps
