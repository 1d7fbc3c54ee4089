import OdroidU2.Foundations.Machine
import OdroidU2.Gps.FixFields

/-!
# Whose Position Is Posted

The update marker is set by every RMC and GLL sentence with status `A`, whether or not
`nmea_reader_update_latlong` has accepted its position: the return code is not looked at.  So a
fix may be posted that has no position, and a marker that is left behind by a sentence without
any field makes a later sentence of any kind post.

- `own_position_iff` — when every fix that is posted has the position of its own sentence
- `fix_without_position` — a sentence whose latitude is too short
-/

namespace OdroidU2.Gps

open OdroidU2.Foundations Prog

variable {R : Type} [Libc R]

/-- Sentences given to `nmea_reader_parse` one after the other. -/
def sentenceMachine : Machine (NmeaReader R) (List UInt8) :=
  ⟨fun r line => some ((nmeaReaderParseLine line).exec r)⟩

/-- The fix has the position that this line sets. -/
def HasPositionOf (line : List UInt8) (t : NmeaReader R) : Prop :=
  ∃ p ∈ (acceptedBy (R := R) line).position,
    t.fix.flags &&& gpsLocationHasLatLong ≠ 0 ∧ (t.fix.latitude, t.fix.longitude) = p

/-- A fix is posted only by a valid position sentence, and with the position of that sentence. -/
def PostsOwnPosition (r : NmeaReader R) (line : List UInt8) : Prop :=
  (nmeaReaderParseLine line).Emits (AtFix fun t => AsksForFix line ∧ HasPositionOf line t) r

/-- If there is a marker, old or new, and a flag, old or new, then the line sets a position. -/
def SetsPositionWhenDue (r : NmeaReader R) (line : List UInt8) : Prop :=
  LongEnough line → r.update ∨ AsksForFix line →
    r.fix.flags ||| (acceptedBy (R := R) line).flags ≠ 0 →
    (acceptedBy (R := R) line).position.isSome

instance (r : NmeaReader R) (line : List UInt8) : Decidable (SetsPositionWhenDue r line) := by
  unfold SetsPositionWhenDue
  infer_instance

section Lines

variable {line : List UInt8}

/-- Only valid position sentences set a position. -/
theorem asksForFix_of_position (h : (acceptedBy (R := R) line).position.isSome) :
    AsksForFix line := by
  unfold acceptedBy at h
  split at h
  · -- a GGA sentence sets the altitude
    unfold acceptedByGga at h
    split at h <;> cases h
  split at h
  · -- a GSA sentence sets the accuracy
    unfold acceptedByGsa at h
    split at h <;> cases h
  split at h
  · rename_i hgll
    unfold acceptedByGll at h
    split at h
    · rename_i hstatus
      exact .inl ⟨hgll, hstatus⟩
    · cases h
  split at h
  · rename_i hrmc
    unfold acceptedByRmc at h
    split at h
    · rename_i hstatus
      exact .inr ⟨hrmc, hstatus⟩
    · cases h
  · cases h

omit [Libc R] in
/-- The flag of a position that is set. -/
theorem hasLatLong_of_position {f : FixFields R} (h : f.position.isSome) (flags : BitVec 16) :
    (flags ||| f.flags) &&& gpsLocationHasLatLong ≠ 0 := by
  -- by the flag's one bit, whatever the others are
  have hbit : ((flags ||| f.flags) &&& gpsLocationHasLatLong).getLsbD 0 = true := by
    have hposition : FixFields.flag f.position gpsLocationHasLatLong = gpsLocationHasLatLong := if_pos h
    simp only [FixFields.flags, hposition, BitVec.getLsbD_and, BitVec.getLsbD_or]
    have hflag : gpsLocationHasLatLong.getLsbD 0 = true := by decide
    simp [hflag]
  intro hzero
  rw [hzero] at hbit
  cases hbit

/-- A line that sets a position leaves it in the fix, with its flag. -/
theorem hasPositionOf_nmeaReaderBranch (h : (acceptedBy (R := R) line).position.isSome)
    (r : NmeaReader R) : HasPositionOf line ((nmeaReaderBranch line).exec r) := by
  obtain ⟨accuracy, timestamp, hfix, -⟩ := fix_nmeaReaderBranch line r
  obtain ⟨p, hp⟩ := Option.isSome_iff_exists.mp h
  refine ⟨p, hp, ?_, ?_⟩
  · rw [hfix]
    exact hasLatLong_of_position h r.fix.flags
  · rw [hfix]
    simp only [GpsLocation.store, hp, Option.map_some, Option.getD_some]

/-- **Step lemma**: one sentence posts its own position, or nothing, exactly when it sets one
whenever a fix is due. -/
theorem postsOwnPosition_iff {r : NmeaReader R} (hcallback : r.callback) :
    PostsOwnPosition r line ↔ SetsPositionWhenDue r line := by
  rw [PostsOwnPosition, emits_atFix_nmeaReaderParseLine, SetsPositionWhenDue,
    fixDue_nmeaReaderBranch_iff hcallback]
  refine imp_congr_right fun _ => ?_
  -- what is left to compare is the fix the branch stored, where one is due
  constructor
  · intro hposts hmarker hflags
    obtain ⟨-, p, hp, -⟩ := hposts ⟨hflags, hmarker⟩
    exact Option.isSome_iff_exists.mpr ⟨p, hp⟩
  · rintro hsets ⟨hflags, hmarker⟩
    have hposition := hsets hmarker hflags
    exact ⟨asksForFix_of_position hposition, hasPositionOf_nmeaReaderBranch hposition r⟩

end Lines

/-- **Own positions**: with a callback installed, every fix that is posted in a run comes from a
valid position sentence and has the position of that sentence, exactly when every sentence sets
a position whenever there is a marker and a flag. -/
theorem own_position_iff (r : NmeaReader R) (hcallback : r.callback)
    (sentences : List (List UInt8)) :
    sentenceMachine.AllSteps PostsOwnPosition r sentences ↔
      sentenceMachine.AllSteps SetsPositionWhenDue r sentences := by
  -- that the callback is set is the only invariant needed
  refine sentenceMachine.allSteps_iff (I := fun t => t.callback)
    (fun t line ht => postsOwnPosition_iff ht) (fun t line u ht _ hstep => ?_) hcallback sentences
  cases hstep
  exact (callback_nmeaReaderParseLine line t).trans ht

/-- An altitude without a position is kept until the next valid position. -/
theorem own_position_after_altitude :
    (sentenceMachine (R := ℚ)).AllSteps PostsOwnPosition (readerAfterInit ⟨true, true, true⟩)
      [bytes "$GPGGA,,,,,,1,,,104.0,M\n", bytes "$GPGLL,4916.45,N,12311.12,W,225444,A\n"] :=
  (own_position_iff _ (by decide +kernel) _).mpr (by decide +kernel)

/-- A latitude that is too short: the fix is posted for its bearing. -/
theorem fix_without_position :
    ¬(sentenceMachine (R := ℚ)).AllSteps PostsOwnPosition (readerAfterInit ⟨true, true, true⟩)
      [bytes "$GPRMC,120000,A,4807,N,01131.000,E,,084.4,230309\n"] := by
  intro h
  have hsets := (postsOwnPosition_iff (by decide +kernel)).mp h.1
  revert hsets
  decide +kernel

end OdroidU2.Gps
