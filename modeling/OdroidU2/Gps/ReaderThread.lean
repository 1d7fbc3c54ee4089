import Mathlib
import OdroidU2.Foundations.Machine
import OdroidU2.Gps.ControlLoop
import OdroidU2.Gps.ReportStream

/-!
# The Loop of `gps_state_thread`

The thread waits for the receiver, reads what there is, up to 512 bytes at a time, and gives the
reader one byte after the other.  Where a read ends has nothing to do with where a line ends, a
read may be interrupted, and a wake-up may bring nothing.

- `fed_step` — every step leaves the reader as if it had been fed byte by byte
- `thread_posts_reports` — at every moment, the fixes posted are those of the reports read so far
-/

namespace OdroidU2.Gps

open OdroidU2.Foundations Prog

variable {R : Type} [Libc R]

/-! ## §1 The Loop -/

/-- Where `gps_state_thread` is. -/
inductive ThreadAt where
  /-- In `epoll_wait`. -/
  | polling
  /-- In the loop around `read`. -/
  | reading
  /-- Behind the label `Exit`. -/
  | left
  deriving DecidableEq, Repr

/-- What one `read` of the receiver returns. -/
inductive ReadAnswer where
  /-- The first bytes that wait. -/
  | bytes (n : Nat)
  | interrupted
  /-- An error that is no interruption, or the end of the file. -/
  | failed
  deriving DecidableEq, Repr

/-- `sizeof(buff)` -/
def buffSize : Nat := 512

/-- From the return of `epoll_wait` to the end of the tests of `events[0]`.  Any error of
`epoll_wait` starts the loop over. -/
def threadAfterEpollWait (gpsFd : Int) (w : EpollWait) : ThreadAt :=
  if w.nevents < 0 then .polling
  else if w.event.isHangUp then .left
  else if w.event.epollin ∧ w.event.fd = gpsFd then .reading
  else .polling

/-- The thread, the reader it feeds, and the bytes the kernel holds for it. -/
structure ReaderThread (R : Type) where
  reader : NmeaReader R
  threadAt : ThreadAt
  waiting : List UInt8
  /-- All bytes the receiver has sent. -/
  arrived : List UInt8
  /-- All bytes that were read. -/
  taken : List UInt8
  /-- The fixes posted so far. -/
  posted : List (GpsLocation R)

namespace ReaderThread

/-- The thread at its start. -/
def init (cbs : GpsCallbacks) : ReaderThread R where
  reader := readerAfterInit cbs
  threadAt := .polling
  waiting := []
  arrived := []
  taken := []
  posted := []

variable (t : ReaderThread R)

/-- The receiver sends bytes. -/
def arrive (bytes : List UInt8) : ReaderThread R :=
  { t with waiting := t.waiting ++ bytes, arrived := t.arrived ++ bytes }

/-- `for (nn = 0; nn < ret; nn++) nmea_reader_addc(&state.reader, buff[nn]);` -/
def feed (buff : List UInt8) : ReaderThread R :=
  { t with
    reader := (nmeaReaderAddAll buff).exec t.reader
    taken := t.taken ++ buff
    posted := t.posted ++ postedFixes (nmeaReaderAddAll buff) t.reader }

/-- `epoll_wait` returns. -/
def epollWait (gpsFd : Int) (w : EpollWait) : Option (ReaderThread R) :=
  if t.threadAt = .polling then some { t with threadAt := threadAfterEpollWait gpsFd w } else none

/-- `read` returns, and unless it was interrupted the loop goes on. -/
def read (a : ReadAnswer) : Option (ReaderThread R) :=
  if t.threadAt = .reading then
    match a with
    | .bytes n =>
      if 0 < n ∧ n ≤ buffSize ∧ n ≤ t.waiting.length then
        some { t.feed (t.waiting.take n) with waiting := t.waiting.drop n, threadAt := .polling }
      else none
    | .interrupted => some t
    | .failed => some { t with threadAt := .polling }
  else none

end ReaderThread

/-- Bytes arrive, or a call of the thread returns. -/
inductive ThreadStep where
  | arrive (bytes : List UInt8)
  | epollWait (w : EpollWait)
  | read (a : ReadAnswer)
  deriving DecidableEq, Repr

/-- The thread under any results of its calls. -/
def threadMachine (R : Type) [Libc R] (gpsFd : Int) : Machine (ReaderThread R) ThreadStep where
  step t
    | .arrive bytes => some (t.arrive bytes)
    | .epollWait w => t.epollWait gpsFd w
    | .read a => t.read a

/-! ## §2 What the Thread Has Fed -/

/-- The reader has been fed what was taken, byte by byte, and what was not taken still waits. -/
structure Fed (r : NmeaReader R) (t : ReaderThread R) : Prop where
  arrived : t.arrived = t.taken ++ t.waiting
  reader : t.reader = (nmeaReaderAddAll t.taken).exec r
  posted : t.posted = postedFixes (nmeaReaderAddAll t.taken) r

/-- A buffer more. -/
theorem Fed.feed {r : NmeaReader R} {t : ReaderThread R} (h : Fed r t) (n : Nat) (at' : ThreadAt) :
    Fed r { t.feed (t.waiting.take n) with waiting := t.waiting.drop n, threadAt := at' } where
  arrived := by
    show t.arrived = t.taken ++ t.waiting.take n ++ t.waiting.drop n
    rw [List.append_assoc, List.take_append_drop, h.arrived]
  reader := by
    show (nmeaReaderAddAll (t.waiting.take n)).exec t.reader =
      (nmeaReaderAddAll (t.taken ++ t.waiting.take n)).exec r
    rw [exec_nmeaReaderAddAll_append, h.reader]
  posted := by
    show t.posted ++ postedFixes (nmeaReaderAddAll (t.waiting.take n)) t.reader =
      postedFixes (nmeaReaderAddAll (t.taken ++ t.waiting.take n)) r
    rw [postedFixes_nmeaReaderAddAll_append, h.posted, h.reader]

/-- **Step lemma**: whatever the kernel answers, the reader is fed in order and nothing is lost. -/
theorem fed_step {gpsFd : Int} {r : NmeaReader R} {t t' : ReaderThread R} {a : ThreadStep}
    (h : Fed r t) (hstep : (threadMachine R gpsFd).step t a = some t') : Fed r t' := by
  -- only a `read` that returns bytes hands any on
  cases a with
  | arrive bytes =>
    cases hstep
    refine ⟨?_, h.reader, h.posted⟩
    show t.arrived ++ bytes = t.taken ++ (t.waiting ++ bytes)
    rw [h.arrived, List.append_assoc]
  | epollWait w =>
    obtain ⟨-, hnext⟩ := Option.ite_none_right_eq_some.mp hstep
    cases hnext
    exact ⟨h.arrived, h.reader, h.posted⟩
  | read a =>
    obtain ⟨-, hnext⟩ := Option.ite_none_right_eq_some.mp hstep
    cases a with
    | bytes n =>
      obtain ⟨-, hnext⟩ := Option.ite_none_right_eq_some.mp hnext
      cases hnext
      exact h.feed n .polling
    | interrupted =>
      cases hnext
      exact h
    | failed =>
      cases hnext
      exact ⟨h.arrived, h.reader, h.posted⟩

theorem fed_init (cbs : GpsCallbacks) : Fed (readerAfterInit cbs) (ReaderThread.init (R := R) cbs) :=
  ⟨rfl, rfl, rfl⟩

/-- **Run lemma**: the reader is fed in order in every run. -/
theorem fed_run {gpsFd : Int} {cbs : GpsCallbacks} {steps : List ThreadStep} {t : ReaderThread R}
    (hrun : (threadMachine R gpsFd).run (.init cbs) steps = some t) :
    Fed (readerAfterInit cbs) t :=
  (threadMachine R gpsFd).run_invariant_of (C := fun _ _ => True)
    (fun _ _ _ hs _ hstep => fed_step hs hstep) (fed_init cbs)
    ((threadMachine R gpsFd).allSteps_of_forall fun _ _ => trivial) hrun

/-! ## §3 Reports -/

theorem awaiting_readerAfterInit {cbs : GpsCallbacks} (hcallback : cbs.locationCb) :
    Awaiting none (readerAfterInit cbs) := by
  rw [exec_readerAfterInit]
  refine ⟨hcallback, rfl, ?_, fun x hx => by cases hx⟩
  simp [flagsButAccuracy, FixFields.flag, nmeaReaderInit]

/-- **Reports arrive as fixes**: at every moment of every run, however the stream was cut into
reads, the fixes posted so far are, in order and one for each, those of the reports that have been
read in full; and what has not been read in full has been read up to some byte or still waits. -/
theorem thread_posts_reports (gpsFd : Int) (cbs : GpsCallbacks) (hcallback : cbs.locationCb)
    (pieces : List Piece) (steps : List ThreadStep) (t : ReaderThread ℚ)
    (hrun : (threadMachine ℚ gpsFd).run (.init cbs) steps = some t)
    (harrived : t.arrived <+: stream pieces) :
    ∃ done rest part, pieces = done ++ rest ∧ t.arrived = stream done ++ part ++ t.waiting ∧
      byte '\n' ∉ part ∧
      List.Forall₂ (fun due fix => due.1.IsFix due.2 fix) (assemble none done) t.posted := by
  have hfed := fed_run hrun
  have htaken : t.taken <+: stream pieces := by
    rw [hfed.arrived] at harrived
    exact (List.prefix_append _ _).trans harrived
  -- the reader has taken whole pieces and the beginning of one more
  obtain ⟨done, rest, part, hpieces, hsplit, hpart⟩ := prefix_stream htaken
  refine ⟨done, rest, part, hpieces, ?_, hpart, ?_⟩
  · rw [hfed.arrived, hsplit]
  · have hfixes := fixes_of_stream done (collecting_readerAfterInit cbs)
      (awaiting_readerAfterInit hcallback)
    rw [hfed.posted, hsplit, postedFixes_nmeaReaderAddAll_append, (addAll_inside hpart _).2,
      List.append_nil]
    exact hfixes

/-- A GGA sentence with an altitude, and a report. -/
def smallPieces : List Piece :=
  [.other
    { text := bytes "$GPGGA,214258.00,5740.857675,N,01159.649523,E,1,08,3.0,104.0,M,,,,*32"
      newline_not_mem := by decide +kernel
      fits := by decide +kernel
      quiet := by decide +kernel },
    .report
      { moment := ⟨9, 11, 3, 23, 24, 1000, by decide, by decide, by decide, by decide, by decide, by decide⟩
        latitude := ⟨57, 408410, false, by decide, by decide⟩
        longitude := ⟨11, 596260, true, by decide, by decide⟩
        speed := 12
        course := 2440
        speed_lt := by decide
        course_le := by decide } 0x56 true]

/-- The two lines in three reads, one of which is interrupted. -/
def smallSteps : List ThreadStep :=
  [.arrive (stream smallPieces), .epollWait ⟨1, false, { fd := 7, epollin := true }⟩,
    .read .interrupted, .read (.bytes 50), .epollWait ⟨-1, true, { fd := 0 }⟩,
    .epollWait ⟨1, false, { fd := 7, epollin := true }⟩, .read (.bytes 60),
    .epollWait ⟨1, false, { fd := 7, epollin := true }⟩, .read (.bytes 32)]

theorem thread_posts_reports_small :
    ∃ t, (threadMachine ℚ 7).run (.init ⟨true, false, false⟩) smallSteps = some t ∧
      ∃ done rest part, smallPieces = done ++ rest ∧ t.arrived = stream done ++ part ++ t.waiting ∧
        byte '\n' ∉ part ∧
        List.Forall₂ (fun due fix => due.1.IsFix due.2 fix) (assemble none done) t.posted := by
  have hruns : ((threadMachine ℚ 7).run (.init ⟨true, false, false⟩) smallSteps).any
      fun t => decide (t.arrived = stream smallPieces) := by
    decide +kernel
  obtain ⟨t, hrun, harrived⟩ := (Option.any_eq_true _ _).mp hruns
  refine ⟨t, hrun, thread_posts_reports 7 ⟨true, false, false⟩ rfl smallPieces smallSteps t hrun ?_⟩
  rw [of_decide_eq_true harrived]

end OdroidU2.Gps
