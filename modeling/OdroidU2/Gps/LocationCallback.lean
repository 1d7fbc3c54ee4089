import OdroidU2.Gps.Dispatch
import OdroidU2.Gps.ExactLibc
import OdroidU2.Gps.ReaderInvariants

/-!
# Location Callbacks

`nmea_reader_parse` posts `CMD_LOCATION_CB` and clears the flags of the fix right after,
while `main_loop` passes a pointer to that same fix.  The callback sees the posted fix
when the reader thread takes no step before the callback returns, and an empty one as
soon as it takes one.
-/

namespace OdroidU2.Gps

open OdroidU2.Foundations Prog

variable {R : Type} [Libc R]

/-! ## §1 What a Location Callback Must See -/

/-- The nonempty flags of `posted`, and the same value for every flagged field. -/
structure SameFix (posted given : GpsLocation R) : Prop where
  nonempty : posted.flags ≠ 0
  flags : given.flags = posted.flags
  latLong : posted.flags &&& gpsLocationHasLatLong ≠ 0 →
    given.latitude = posted.latitude ∧ given.longitude = posted.longitude
  altitude : posted.flags &&& gpsLocationHasAltitude ≠ 0 → given.altitude = posted.altitude
  speed : posted.flags &&& gpsLocationHasSpeed ≠ 0 → given.speed = posted.speed
  bearing : posted.flags &&& gpsLocationHasBearing ≠ 0 → given.bearing = posted.bearing
  accuracy : posted.flags &&& gpsLocationHasAccuracy ≠ 0 → given.accuracy = posted.accuracy

omit [Libc R] in
theorem SameFix.refl {fix : GpsLocation R} (h : fix.flags ≠ 0) : SameFix fix fix :=
  ⟨h, rfl, fun _ => ⟨rfl, rfl⟩, fun _ => rfl, fun _ => rfl, fun _ => rfl, fun _ => rfl⟩

/-- Everything location callbacks have seen so far is the fix as it was posted. -/
def LocationLooksRight (s : GpsState R) : Prop :=
  ∀ l ∈ s.looks, l.posted.cmd = .locationCb → SameFix l.posted.reader.fix l.reader.fix

/-- The reader thread takes no step while a location command is outstanding. -/
def ReaderWaits (s : GpsState R) (a : GpsStep) : Prop :=
  a = .reader → ∀ e ∈ s.outstanding, e.cmd ≠ .locationCb

instance (s : GpsState R) (a : GpsStep) : Decidable (ReaderWaits s a) := by
  unfold ReaderWaits
  infer_instance

/-! ## §2 Only a Nonempty Fix Is Posted -/

/-- A location command is posted for a fix with flags only. -/
def PostsFix (a : Action) (r : NmeaReader R) : Prop := a = .post .locationCb → r.fix.flags ≠ 0

theorem emits_postsFix_nmeaReaderAddc (c : UInt8) (r : NmeaReader R) :
    (nmeaReaderAddc c).Emits PostsFix r := by
  -- only the post of `CMD_LOCATION_CB` has anything to show, and it stands under the test of the
  -- flags
  have h : KeptByAddc (fun _ : NmeaReader R => True) PostsFix :=
    { fix := fun _ _ _ => ⟨trivial, nofun⟩
      date := fun _ _ _ _ _ => ⟨trivial, nofun⟩
      mask := fun _ _ _ => ⟨trivial, nofun, fun _ => nofun⟩
      changed := fun _ _ _ => ⟨trivial, nofun⟩
      update := fun _ _ _ => ⟨trivial, nofun⟩
      svStatus := fun _ _ _ => ⟨trivial, nofun, fun _ => nofun⟩
      locationCb := fun _ _ hflags _ => hflags
      svStatusCb := fun _ _ _ => nofun
      frame := fun _ _ _ _ _ => ⟨trivial, nofun, fun _ => nofun⟩
      parse := fun _ _ _ => nofun
      nmeaCb := fun _ _ => nofun }
  exact (keeps_nmeaReaderAddc h c r trivial).2

/-- Installing the callbacks posts no fix, since there is none yet. -/
theorem emits_postsFix_nmeaReaderSetCallbacks (cbs : GpsCallbacks) :
    (nmeaReaderSetCallbacks (some cbs)).Emits PostsFix (nmeaReaderInit (R := R)) := by
  simp [nmeaReaderSetCallbacks, nmeaReaderInit, PostsFix]

/-! ## §3 The Invariant -/

/-- What holds while the reader thread waits for location callbacks: the fix of an
outstanding location command is nonempty, and still in the reader. -/
structure FixHeld (s : GpsState R) : Prop where
  pending : ∀ e ∈ s.pending, PostsFix e.1 e.2
  outstanding : ∀ e ∈ s.outstanding, e.cmd = .locationCb →
    e.reader.fix.flags ≠ 0 ∧ s.reader.fix = e.reader.fix
  looks : LocationLooksRight s

theorem fixHeld_init (cbs : GpsCallbacks) : FixHeld (GpsState.init (R := R) cbs) where
  pending := emits_postsFix_nmeaReaderSetCallbacks cbs
  outstanding := by
    intro e he
    rw [outstanding_init] at he
    cases he
  looks := by
    intro l hl
    rw [looks_init] at hl
    cases hl

/-- **Step lemma**: a step that waits keeps the invariant. -/
theorem fixHeld_step (s : GpsState R) (a : GpsStep) (t : GpsState R) (hs : FixHeld s)
    (hwait : ReaderWaits s a) (h : gpsMachine.step s a = some t) : FixHeld t where
  pending := by
    intro e he
    rcases pending_of_step h with ⟨c, -, -, hcall, -⟩ | ⟨hsuffix, -, -⟩
    · -- a new byte: what the call will post, it posts with its flags set
      rw [hcall] at he
      exact emits_postsFix_nmeaReaderAddc c s.reader e he
    · exact hs.pending e (hsuffix.subset he)
  outstanding := by
    intro e he hcmd
    rcases outstanding_of_step h he with hold | ⟨x, r, rest, rfl, hpending, hnew⟩ | hother
    · -- the reader has waited, so the fix is still the one posted
      have hread : t.reader = s.reader := reader_of_step h fun ha => hwait ha e hold hcmd
      rw [hread]
      exact hs.outstanding e hold hcmd
    · -- it is posted by this very action, from the reader as it is
      obtain ⟨x', r', rest', hpending', rfl⟩ := step_reader_iff.mp h
      rw [hpending] at hpending'
      cases hpending'
      cases x <;> simp [GpsState.posted] at hnew
      subst hnew
      have hflags := hs.pending _ (by rw [hpending]; exact List.mem_cons_self)
      exact ⟨hflags (congrArg Action.post hcmd), rfl⟩
    · rcases hother with hother | hother <;> cases hcmd.symm.trans hother
  looks := by
    intro l hl hcmd
    rcases looks_of_step h hl with hold | ⟨-, hloop, hread⟩
    · exact hs.looks l hold hcmd
    · -- the command whose callback looks is still outstanding
      have hmem : l.posted ∈ s.outstanding := by
        simp [GpsState.outstanding, hloop, MainLoop.command?]
      obtain ⟨hflags, hfix⟩ := hs.outstanding l.posted hmem hcmd
      rw [hread, hfix]
      exact SameFix.refl hflags

/-- In every run in which the reader thread takes no step between posting a location
command and the return of its callback, the callback sees the fix as it was posted. -/
theorem location_looks_right (cbs : GpsCallbacks) (steps : List GpsStep)
    (hwait : gpsMachine.AllSteps ReaderWaits (GpsState.init (R := R) cbs) steps) :
    ∀ s ∈ gpsMachine.run (GpsState.init (R := R) cbs) steps, LocationLooksRight s := by
  intro s hrun
  exact (gpsMachine.run_invariant_of fixHeld_step (fixHeld_init cbs) hwait hrun).looks

/-- The driver starts, takes a valid position, and stops right after posting it. -/
def untilFixPosted : List GpsStep :=
  List.replicate 3 .reader ++
    (bytes "$GPGLL,4916.45,N,12311.12,W,225444,A").flatMap (fun c => [.addc c, .reader, .reader]) ++
    .addc (byte '\n') :: List.replicate 8 .reader

/-- `main_loop` makes the callback while the reader thread waits. -/
theorem location_looks_right_at_post :
    (gpsMachine.run (GpsState.init (R := ℚ) ⟨true, false, false⟩)
      (untilFixPosted ++ [.recv, .dispatch, .look, .ret, .reader])).map (·.looks.length) = some 1 ∧
    ∀ s ∈ gpsMachine.run (GpsState.init (R := ℚ) ⟨true, false, false⟩)
      (untilFixPosted ++ [.recv, .dispatch, .look, .ret, .reader]), LocationLooksRight s :=
  ⟨by decide +kernel, location_looks_right _ _ (by decide +kernel)⟩

/-- One step of the reader thread after the post, and the callback is given an empty fix. -/
theorem location_flags_cleared :
    ¬ ∀ s ∈ gpsMachine.run (GpsState.init (R := ℚ) ⟨true, false, false⟩)
      (untilFixPosted ++ [.reader, .recv, .dispatch, .look]), LocationLooksRight s := by
  intro h
  -- the run ends with a look that gives other flags than the post had
  have hgiven : (gpsMachine.run (GpsState.init (R := ℚ) ⟨true, false, false⟩)
      (untilFixPosted ++ [.reader, .recv, .dispatch, .look])).any (fun s => s.looks.any fun l =>
      decide (l.posted.cmd = .locationCb ∧ l.reader.fix.flags ≠ l.posted.reader.fix.flags)) := by
    decide +kernel
  obtain ⟨s, hs, hany⟩ := (Option.any_eq_true _ _).mp hgiven
  obtain ⟨l, hl, hgiven⟩ := List.any_eq_true.mp hany
  obtain ⟨hcmd, hflags⟩ := of_decide_eq_true hgiven
  exact hflags (h s hs l hl hcmd).flags

end OdroidU2.Gps
