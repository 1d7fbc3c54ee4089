import OdroidU2.Gps.ExactLibc
import OdroidU2.Gps.UpdateDate

/-!
# The Fields of a Fix

Four kinds of sentences set fields of the fix, each field with its own flag.  What a sentence
sets depends on the sentence alone (`acceptedBy`); the branch stores it over what the fix holds
already.

- `fix_nmeaReaderBranch`, `update_nmeaReaderBranch` — what a branch does to the fix and to the
  update marker
- `GpsLocation.Holds` — a fix has exactly these fields
-/

namespace OdroidU2.Gps

open OdroidU2.Foundations Prog

variable {R : Type}

/-! ## §1 Fields -/

/-- Fields of a fix that are set, with their values. -/
structure FixFields (R : Type) where
  position : Option (R × R) := none
  altitude : Option R := none
  accuracy : Option R := none
  bearing : Option R := none
  speed : Option R := none
  deriving DecidableEq

namespace FixFields

/-- The flag of a field that is set. -/
def flag {α : Type} (x : Option α) (mask : BitVec 16) : BitVec 16 := if x.isSome then mask else 0

/-- The flags of the fields that are set. -/
def flags (f : FixFields R) : BitVec 16 :=
  flag f.position gpsLocationHasLatLong ||| flag f.altitude gpsLocationHasAltitude |||
    flag f.accuracy gpsLocationHasAccuracy ||| flag f.bearing gpsLocationHasBearing |||
    flag f.speed gpsLocationHasSpeed

/-- The fields `f`, and those of `g` that `f` does not set. -/
def orElse (f g : FixFields R) : FixFields R where
  position := f.position.or g.position
  altitude := f.altitude.or g.altitude
  accuracy := f.accuracy.or g.accuracy
  bearing := f.bearing.or g.bearing
  speed := f.speed.or g.speed

theorem flag_or {α : Type} (x y : Option α) (mask : BitVec 16) :
    flag (x.or y) mask = flag x mask ||| flag y mask := by
  cases x with
  | none => cases y <;> simp [flag]
  | some a => cases y <;> simp [flag]

theorem flags_orElse (f g : FixFields R) : (f.orElse g).flags = f.flags ||| g.flags := by
  simp only [flags, orElse, flag_or]
  ac_rfl

@[simp] theorem flags_none : ({} : FixFields R).flags = 0 := by
  simp [flags, flag]

@[simp] theorem none_orElse (f : FixFields R) : ({} : FixFields R).orElse f = f := by
  simp [orElse]

@[simp] theorem orElse_none (f : FixFields R) : f.orElse {} = f := by
  simp [orElse]

end FixFields

/-- The location with these fields set and flagged. -/
def GpsLocation.store (fix : GpsLocation R) (f : FixFields R) : GpsLocation R :=
  { fix with
    flags := fix.flags ||| f.flags
    latitude := (f.position.map Prod.fst).getD fix.latitude
    longitude := (f.position.map Prod.snd).getD fix.longitude
    altitude := f.altitude.getD fix.altitude
    accuracy := f.accuracy.getD fix.accuracy
    bearing := f.bearing.getD fix.bearing
    speed := f.speed.getD fix.speed }

/-- The reader with these fields set and flagged in its fix. -/
def NmeaReader.storeFields (r : NmeaReader R) (f : FixFields R) : NmeaReader R :=
  { r with fix := r.fix.store f }

@[simp] theorem fix_storeFields (r : NmeaReader R) (f : FixFields R) :
    (r.storeFields f).fix = r.fix.store f := rfl

@[simp] theorem timestamp_store (fix : GpsLocation R) (f : FixFields R) :
    (fix.store f).timestamp = fix.timestamp := rfl

@[simp] theorem store_none (fix : GpsLocation R) : fix.store {} = fix := by
  simp [GpsLocation.store]

theorem store_store (fix : GpsLocation R) (f g : FixFields R) :
    (fix.store f).store g = fix.store (g.orElse f) := by
  have hgetD {α : Type} (x y : Option α) (a : α) : x.getD (y.getD a) = (x.or y).getD a := by
    cases x <;> rfl
  -- the flags of both sentences stay, of each value the later one
  have hflags : fix.flags ||| f.flags ||| g.flags = fix.flags ||| (g.flags ||| f.flags) := by
    ac_rfl
  simp only [GpsLocation.store, FixFields.flags_orElse, hflags, hgetD]
  simp only [FixFields.orElse, Option.map_or]

/-- The fix has exactly these flags, and these values of the fields they name. -/
structure GpsLocation.Holds (fix : GpsLocation R) (f : FixFields R) : Prop where
  flags : fix.flags = f.flags
  position : ∀ p ∈ f.position, (fix.latitude, fix.longitude) = p
  altitude : ∀ x ∈ f.altitude, fix.altitude = x
  accuracy : ∀ x ∈ f.accuracy, fix.accuracy = x
  bearing : ∀ x ∈ f.bearing, fix.bearing = x
  speed : ∀ x ∈ f.speed, fix.speed = x

/-- Nothing is set in an empty fix. -/
theorem holds_none {fix : GpsLocation R} (h : fix.flags = 0) : fix.Holds {} where
  flags := by rw [h, FixFields.flags_none]
  position := nofun
  altitude := nofun
  accuracy := nofun
  bearing := nofun
  speed := nofun

/-- Storing fields leaves the earlier ones that are not set again; the timestamp has no flag. -/
theorem GpsLocation.Holds.store {fix : GpsLocation R} {f : FixFields R} (h : fix.Holds f)
    (g : FixFields R) (timestamp : Int) :
    ({ fix.store g with timestamp := timestamp } : GpsLocation R).Holds (g.orElse f) := by
  -- a field keeps its value unless it is set again
  have hkeep {α : Type} {x y : Option α} {a : α} (hy : ∀ b ∈ y, a = b) :
      ∀ b ∈ x.or y, x.getD a = b := by
    intro b hb
    cases x with
    | none => exact hy b hb
    | some c =>
      cases hb
      rfl
  refine ⟨?_, fun p hp => ?_, hkeep h.altitude, hkeep h.accuracy, hkeep h.bearing, hkeep h.speed⟩
  · show fix.flags ||| g.flags = (g.orElse f).flags
    rw [FixFields.flags_orElse, h.flags, BitVec.or_comm]
  · have hposition := hkeep h.position p hp
    rw [← hposition]
    show ((g.position.map Prod.fst).getD fix.latitude, (g.position.map Prod.snd).getD fix.longitude) = _
    cases g.position <;> rfl

/-! ## §2 What the Update Functions Store -/

variable [Libc R]

/-- What `nmea_reader_update_latlong` accepts. -/
def positionOf (latitude : Token) (latitudeHemi : UInt8) (longitude : Token)
    (longitudeHemi : UInt8) : Option (R × R) :=
  if latitude.len < 6 ∨ longitude.len < 6 then none
  else
    some (if latitudeHemi = byte 'S' then Libc.neg (convertFromHhmm latitude)
        else convertFromHhmm latitude,
      if longitudeHemi = byte 'W' then Libc.neg (convertFromHhmm longitude)
        else convertFromHhmm longitude)

/-- What the other update functions accept: any field that is not empty. -/
def Token.value? (tok : Token) (x : R) : Option R := if tok.len = 0 then none else some x

/-- The value of an accuracy field, a `float`. -/
def accuracyOf (R : Type) [Libc R] (tok : Token) : R := Libc.narrow (str2float tok.text)

/-- The value of a bearing field, a `float`. -/
def bearingOf (R : Type) [Libc R] (tok : Token) : R := Libc.narrow (str2float tok.text)

/-- The value of a speed field, a `float` in metres a second. -/
def speedOf (R : Type) [Libc R] (tok : Token) : R :=
  Libc.narrow (Libc.mul (str2float tok.text) (Libc.lit (514444 / 1000000)))

/-- The accuracy that is stored without its flag. -/
def IsUnknownAccuracy (x : R) : Prop := Libc.eq x (Libc.lit (9999 / 100))

instance (x : R) : Decidable (IsUnknownAccuracy x) := by unfold IsUnknownAccuracy; infer_instance

/-- What `nmea_reader_update_accuracy` flags. -/
def flaggedAccuracy (R : Type) [Libc R] (tok : Token) : Option R :=
  if IsUnknownAccuracy (accuracyOf R tok) then none else tok.value? (accuracyOf R tok)

theorem exec_nmeaReaderUpdateLatlong (latitude : Token) (latitudeHemi : UInt8) (longitude : Token)
    (longitudeHemi : UInt8) (r : NmeaReader R) :
    (nmeaReaderUpdateLatlong latitude latitudeHemi longitude longitudeHemi).exec r =
      r.storeFields { position := positionOf latitude latitudeHemi longitude longitudeHemi } := by
  rw [nmeaReaderUpdateLatlong, exec_ite]
  unfold positionOf
  -- both fields must be long enough
  by_cases hlat : latitude.len < 6
  · rw [if_pos hlat, if_pos (.inl hlat)]
    simp [NmeaReader.storeFields]
  · rw [if_neg hlat, exec_ite]
    by_cases hlon : longitude.len < 6
    · rw [if_pos hlon, if_pos (.inr hlon)]
      simp [NmeaReader.storeFields]
    · rw [if_neg hlon, if_neg (not_or.mpr ⟨hlat, hlon⟩)]
      simp [NmeaReader.storeFields, GpsLocation.store, FixFields.flags, FixFields.flag]

theorem exec_nmeaReaderUpdateAltitude (altitude units : Token) (r : NmeaReader R) :
    (nmeaReaderUpdateAltitude altitude units).exec r =
      r.storeFields { altitude := altitude.value? (str2float altitude.text) } := by
  rw [nmeaReaderUpdateAltitude, exec_ite]
  unfold Token.value?
  -- an empty token stores nothing and sets no flag
  split
  · simp [NmeaReader.storeFields]
  · simp [NmeaReader.storeFields, GpsLocation.store, FixFields.flags, FixFields.flag]

theorem exec_nmeaReaderUpdateBearing (bearing : Token) (r : NmeaReader R) :
    (nmeaReaderUpdateBearing bearing).exec r =
      r.storeFields { bearing := bearing.value? (bearingOf R bearing) } := by
  rw [nmeaReaderUpdateBearing, exec_ite]
  unfold Token.value?
  split
  · simp [NmeaReader.storeFields]
  · simp [NmeaReader.storeFields, GpsLocation.store, FixFields.flags, FixFields.flag, bearingOf]

theorem exec_nmeaReaderUpdateSpeed (speed : Token) (r : NmeaReader R) :
    (nmeaReaderUpdateSpeed speed).exec r =
      r.storeFields { speed := speed.value? (speedOf R speed) } := by
  rw [nmeaReaderUpdateSpeed, exec_ite]
  unfold Token.value?
  split
  · simp [NmeaReader.storeFields]
  · simp [NmeaReader.storeFields, GpsLocation.store, FixFields.flags, FixFields.flag, speedOf]

/-- An accuracy is stored always, and flagged unless it is the unknown one. -/
theorem exec_nmeaReaderUpdateAccuracy (accuracy : Token) (r : NmeaReader R) :
    (nmeaReaderUpdateAccuracy accuracy).exec r =
      if accuracy.len = 0 then r
      else if IsUnknownAccuracy (accuracyOf R accuracy) then
        { r with fix.accuracy := accuracyOf R accuracy }
      else r.storeFields { accuracy := some (accuracyOf R accuracy) } := by
  rw [nmeaReaderUpdateAccuracy, exec_ite]
  split
  · rfl
  · simp only [exec_bind, exec_assign, val_read, exec_read, exec_ite, exec_pure]
    -- the value is stored before it is compared with 99.99
    by_cases hunknown : IsUnknownAccuracy (accuracyOf R accuracy)
    · rw [if_pos hunknown]
      exact if_pos hunknown
    · rw [if_neg hunknown]
      apply (if_neg hunknown).trans
      simp [NmeaReader.storeFields, GpsLocation.store, FixFields.flags, FixFields.flag, accuracyOf]

/-! ## §3 What a Sentence Sets -/

/-- A GGA sentence with a fix sets the altitude. -/
def acceptedByGga (tzer : NmeaTokenizer) : FixFields R :=
  if byte '0' < (nmeaTokenizerGet tzer 6).first then
    { altitude := (nmeaTokenizerGet tzer 9).value? (str2float (nmeaTokenizerGet tzer 9).text) }
  else {}

/-- A GSA sentence with a status other than `1` sets the accuracy. -/
def acceptedByGsa (tzer : NmeaTokenizer) : FixFields R :=
  if (nmeaTokenizerGet tzer 2).first ≠ 0 ∧ (nmeaTokenizerGet tzer 2).first ≠ byte '1' then
    { accuracy := flaggedAccuracy R (nmeaTokenizerGet tzer 15) }
  else {}

/-- A valid GLL sentence sets the position. -/
def acceptedByGll (tzer : NmeaTokenizer) : FixFields R :=
  if (nmeaTokenizerGet tzer 6).first = byte 'A' then
    { position := positionOf (nmeaTokenizerGet tzer 1) (nmeaTokenizerGet tzer 2).first
        (nmeaTokenizerGet tzer 3) (nmeaTokenizerGet tzer 4).first }
  else {}

/-- A valid RMC sentence sets position, bearing and speed. -/
def acceptedByRmc (tzer : NmeaTokenizer) : FixFields R :=
  if (nmeaTokenizerGet tzer 2).first = byte 'A' then
    { position := positionOf (nmeaTokenizerGet tzer 3) (nmeaTokenizerGet tzer 4).first
        (nmeaTokenizerGet tzer 5) (nmeaTokenizerGet tzer 6).first
      bearing := (nmeaTokenizerGet tzer 8).value? (bearingOf R (nmeaTokenizerGet tzer 8))
      speed := (nmeaTokenizerGet tzer 7).value? (speedOf R (nmeaTokenizerGet tzer 7)) }
  else {}

/-- The fields of the fix that the update functions accept and flag for this line. -/
def acceptedBy (line : List UInt8) : FixFields R :=
  if IsSentence (bytes "GGA") line then acceptedByGga (nmeaTokenizerInit line)
  else if IsSentence (bytes "GSA") line then acceptedByGsa (nmeaTokenizerInit line)
  else if IsSentence (bytes "GLL") line then acceptedByGll (nmeaTokenizerInit line)
  else if IsSentence (bytes "RMC") line then acceptedByRmc (nmeaTokenizerInit line)
  else {}

/-- A GLL sentence with status `A`. -/
def IsValidGll (line : List UInt8) : Prop :=
  IsSentence (bytes "GLL") line ∧ (nmeaTokenizerGet (nmeaTokenizerInit line) 6).first = byte 'A'

/-- An RMC sentence with status `A`. -/
def IsValidRmc (line : List UInt8) : Prop :=
  IsSentence (bytes "RMC") line ∧ (nmeaTokenizerGet (nmeaTokenizerInit line) 2).first = byte 'A'

instance (line : List UInt8) : Decidable (IsValidGll line) := by unfold IsValidGll; infer_instance

instance (line : List UInt8) : Decidable (IsValidRmc line) := by unfold IsValidRmc; infer_instance

/-- The sentences that set the update marker. -/
def AsksForFix (line : List UInt8) : Prop := IsValidGll line ∨ IsValidRmc line

instance (line : List UInt8) : Decidable (AsksForFix line) := by unfold AsksForFix; infer_instance

/-- A `float` is never equal to the `double` 99.99, which no `float` represents. -/
def FloatsRound (R : Type) [Libc R] : Prop := ∀ x : R, ¬IsUnknownAccuracy (Libc.narrow x)

/-! ## §4 The Branches -/

theorem exec_nmeaReaderParseGga (tzer : NmeaTokenizer) (r : NmeaReader R) :
    (nmeaReaderParseGga tzer).exec r = r.storeFields (acceptedByGga tzer) := by
  simp only [nmeaReaderParseGga, exec_when, exec_bind, exec_pure, exec_nmeaReaderUpdateAltitude,
    acceptedByGga]
  split
  · rfl
  · simp [NmeaReader.storeFields]

theorem exec_nmeaReaderParseGll (tzer : NmeaTokenizer) (r : NmeaReader R) :
    (nmeaReaderParseGll tzer).exec r =
      if (nmeaTokenizerGet tzer 6).first = byte 'A' then
        { r.storeFields (acceptedByGll tzer) with update := true }
      else r := by
  simp only [nmeaReaderParseGll, exec_when, exec_bind, exec_nmeaReaderUpdateLatlong, exec_assign,
    acceptedByGll]
  split
  · rfl
  · rfl

/-- The date first, then the fields. -/
theorem exec_nmeaReaderParseRmc (tzer : NmeaTokenizer) (r : NmeaReader R) :
    (nmeaReaderParseRmc tzer).exec r =
      if (nmeaTokenizerGet tzer 2).first = byte 'A' then
        { ((nmeaReaderUpdateDate (nmeaTokenizerGet tzer 9) (nmeaTokenizerGet tzer 1)).exec
          r).storeFields (acceptedByRmc tzer) with update := true }
      else r := by
  simp only [nmeaReaderParseRmc, exec_when, exec_bind, exec_nmeaReaderUpdateLatlong,
    exec_nmeaReaderUpdateBearing, exec_nmeaReaderUpdateSpeed, exec_assign, acceptedByRmc]
  -- only a status of `A` lets the sentence through
  split
  · simp only [NmeaReader.storeFields, store_store]
    simp [FixFields.orElse]
  · rfl

omit [Libc R] in
/-- The loop of the GSA branch is about satellites only. -/
theorem leaves_nmeaReaderParseGsaLoop (tzer : NmeaTokenizer) (is : List Nat) :
    Leaves (fun r : NmeaReader R => (r.fix, r.update, r.date)) (fun _ _ => True)
      (nmeaReaderParseGsaLoop tzer is) := by
  induction is with
  | nil => exact leaves_pure ()
  | cons i rest ih =>
    refine Leaves.bind (Leaves.when (Leaves.bind ?_ fun _ => ?_)) fun _ => ih
    · exact leaves_act (fun _ => trivial) fun _ => rfl
    · exact leaves_act (fun _ => trivial) fun _ => rfl

/-- The GSV branch is about satellites only. -/
theorem leaves_nmeaReaderParseGsvLoop (tzer : NmeaTokenizer) (noSatellites : Int) (n i : Nat)
    (curr : Int) :
    Leaves (fun r : NmeaReader R => (r.fix, r.update, r.date)) (fun _ _ => True)
      (nmeaReaderParseGsvLoop tzer noSatellites n i curr) := by
  -- each store is to the list of satellites
  have hstore (curr : Int) (f : GpsSvInfo R → GpsSvInfo R) :
      Leaves (fun r : NmeaReader R => (r.fix, r.update, r.date)) (fun _ _ => True)
        (svStore curr f) := by
    refine leaves_act (fun _ => trivial) fun r => ?_
    unfold NmeaReader.modifySv
    split <;> rfl
  induction n generalizing i curr with
  | zero => exact leaves_pure ()
  | succ n ih =>
    refine Leaves.read_bind fun _ => Leaves.when (Leaves.ite ?_ (ih _ _))
    refine Leaves.bind ?_ fun _ => ih _ _
    exact Leaves.bind (hstore _ _) fun _ => Leaves.bind (hstore _ _) fun _ =>
      Leaves.bind (hstore _ _) fun _ => Leaves.bind (hstore _ _) fun _ =>
      leaves_act (fun _ => trivial) fun _ => rfl

theorem leaves_nmeaReaderParseGsv (tzer : NmeaTokenizer) :
    Leaves (fun r : NmeaReader R => (r.fix, r.update, r.date)) (fun _ _ => True)
      (nmeaReaderParseGsv tzer) := by
  -- every assignment of the branch is to the satellites
  have hassign (f : NmeaReader R → NmeaReader R)
      (hf : ∀ r, ((f r).fix, (f r).update, (f r).date) = (r.fix, r.update, r.date)) :
      Leaves (fun r : NmeaReader R => (r.fix, r.update, r.date)) (fun _ _ => True) (assign f) :=
    leaves_act (fun _ => trivial) hf
  refine Leaves.when (Leaves.bind (Leaves.when ?_) fun _ => Leaves.read_bind fun _ => ?_)
  · exact Leaves.bind (hassign _ fun _ => rfl) fun _ => hassign _ fun _ => rfl
  · exact Leaves.bind (leaves_nmeaReaderParseGsvLoop _ _ _ _ _) fun _ =>
      Leaves.when (hassign _ fun _ => rfl)

/-- The accuracy is stored, flagged or not. -/
theorem fix_nmeaReaderUpdateAccuracy (accuracy : Token) (r : NmeaReader R) :
    ∃ x, (nmeaReaderUpdateAccuracy accuracy).exec r =
      { r with fix :=
          { r.fix.store { accuracy := flaggedAccuracy R accuracy } with accuracy := x } } ∧
      (FloatsRound R → x = (r.fix.store { accuracy := flaggedAccuracy R accuracy }).accuracy) := by
  rw [exec_nmeaReaderUpdateAccuracy]
  unfold flaggedAccuracy Token.value?
  by_cases hlen : accuracy.len = 0
  · refine ⟨r.fix.accuracy, ?_, fun _ => ?_⟩
    · simp [hlen]
    · simp [hlen]
  · -- an unknown accuracy is stored without its flag, which needs a `float` equal to 99.99
    by_cases hunknown : IsUnknownAccuracy (accuracyOf R accuracy)
    · refine ⟨accuracyOf R accuracy, ?_, fun hround => absurd hunknown (hround _)⟩
      simp [hlen, hunknown]
    · refine ⟨accuracyOf R accuracy, ?_, fun _ => ?_⟩
      · simp [hlen, hunknown, NmeaReader.storeFields, GpsLocation.store]
      · simp [hlen, hunknown, GpsLocation.store]

/-- The date goes with the timestamp. -/
theorem fix_nmeaReaderUpdateDate (date time : Token) (r : NmeaReader R) :
    ∃ timestamp, ((nmeaReaderUpdateDate date time).exec r).fix =
      { r.fix with timestamp := timestamp } := by
  -- the date is no part of the fix
  have hdated (t : NmeaReader R) : t.dated.fix = t.fix := by
    unfold NmeaReader.dated
    split <;> rfl
  rw [exec_nmeaReaderUpdateDate]
  split
  · rw [exec_nmeaReaderUpdateTime]
    split
    · exact ⟨r.fix.timestamp, rfl⟩
    · refine ⟨fixTime R (r.withDate (readDate date.text)).dated.date time.text, ?_⟩
      show ({ (r.withDate (readDate date.text)).dated.fix with timestamp := _ } : GpsLocation R) = _
      rw [hdated]
      rfl
  · exact ⟨r.fix.timestamp, rfl⟩

theorem fix_nmeaReaderParseGll (tzer : NmeaTokenizer) (r : NmeaReader R) :
    ((nmeaReaderParseGll tzer).exec r).fix = r.fix.store (acceptedByGll tzer) := by
  rw [exec_nmeaReaderParseGll]
  split
  · rfl
  · rename_i hstatus
    rw [acceptedByGll, if_neg hstatus, store_none]

theorem update_nmeaReaderParseGll (tzer : NmeaTokenizer) (r : NmeaReader R) :
    ((nmeaReaderParseGll tzer).exec r).update =
      (r.update || decide ((nmeaTokenizerGet tzer 6).first = byte 'A')) := by
  rw [exec_nmeaReaderParseGll]
  split
  · rename_i hstatus
    simp [hstatus]
  · rename_i hstatus
    simp [hstatus]

theorem fix_nmeaReaderParseRmc (tzer : NmeaTokenizer) (r : NmeaReader R) :
    ∃ timestamp, ((nmeaReaderParseRmc tzer).exec r).fix =
      { r.fix.store (acceptedByRmc tzer) with timestamp := timestamp } := by
  rw [exec_nmeaReaderParseRmc]
  split
  · -- the date comes first and changes the timestamp only
    obtain ⟨timestamp, hdate⟩ :=
      fix_nmeaReaderUpdateDate (nmeaTokenizerGet tzer 9) (nmeaTokenizerGet tzer 1) r
    refine ⟨timestamp, ?_⟩
    show GpsLocation.store _ _ = _
    rw [hdate]
    rfl
  · rename_i hstatus
    rw [acceptedByRmc, if_neg hstatus, store_none]
    exact ⟨r.fix.timestamp, rfl⟩

theorem update_nmeaReaderParseRmc (tzer : NmeaTokenizer) (r : NmeaReader R) :
    ((nmeaReaderParseRmc tzer).exec r).update =
      (r.update || decide ((nmeaTokenizerGet tzer 2).first = byte 'A')) := by
  rw [exec_nmeaReaderParseRmc]
  split
  · rename_i hstatus
    simp [hstatus]
  · rename_i hstatus
    simp [hstatus]

/-- The loop behind the accuracy leaves fix and marker alone. -/
theorem fix_nmeaReaderParseGsa (tzer : NmeaTokenizer) (r : NmeaReader R) :
    ∃ x, ((nmeaReaderParseGsa tzer).exec r).fix =
        { r.fix.store (acceptedByGsa tzer) with accuracy := x } ∧
      ((nmeaReaderParseGsa tzer).exec r).update = r.update ∧
      (FloatsRound R → x = (r.fix.store (acceptedByGsa tzer)).accuracy) := by
  rw [nmeaReaderParseGsa, exec_when, acceptedByGsa]
  split
  · obtain ⟨x, hexec, hx⟩ := fix_nmeaReaderUpdateAccuracy (nmeaTokenizerGet tzer 15) r
    -- the loop over the satellites touches the mask alone
    have hloop (t : NmeaReader R) := (leaves_nmeaReaderParseGsaLoop tzer (List.range' 3 12)).exec_eq t
    rw [exec_bind, exec_bind, exec_assign, hexec]
    exact ⟨x, congrArg Prod.fst (hloop _), congrArg (fun c => c.2.1) (hloop _), hx⟩
  · rw [store_none]
    exact ⟨r.fix.accuracy, rfl, rfl, fun _ => rfl⟩

/-- The line stores the fields it accepts.  An accuracy may be stored without its flag, unless
floats round, and the timestamp has none. -/
def StoresFields (line : List UInt8) (fix fix' : GpsLocation R) : Prop :=
  ∃ accuracy timestamp,
    fix' = { fix.store (acceptedBy line) with accuracy := accuracy, timestamp := timestamp } ∧
    (FloatsRound R → accuracy = (fix.store (acceptedBy line)).accuracy)

section Branches

variable {line : List UInt8}

/-- The accepted fields and nothing else. -/
theorem storesFields_store (fix : GpsLocation R) :
    StoresFields line fix (fix.store (acceptedBy line)) :=
  ⟨_, fix.timestamp, rfl, fun _ => rfl⟩

theorem storesFields_of_eq {fix fix' : GpsLocation R} (timestamp : Int)
    (h : fix' = { fix.store (acceptedBy line) with timestamp := timestamp }) :
    StoresFields line fix fix' :=
  ⟨_, timestamp, h, fun _ => rfl⟩

theorem acceptedBy_gga (h : IsSentence (bytes "GGA") line) :
    acceptedBy (R := R) line = acceptedByGga (nmeaTokenizerInit line) := if_pos h

theorem acceptedBy_gsa (h : IsSentence (bytes "GSA") line) :
    acceptedBy (R := R) line = acceptedByGsa (nmeaTokenizerInit line) := by
  rw [acceptedBy, if_neg (h.ne (by decide)), if_pos h]

theorem acceptedBy_gll (h : IsSentence (bytes "GLL") line) :
    acceptedBy (R := R) line = acceptedByGll (nmeaTokenizerInit line) := by
  rw [acceptedBy, if_neg (h.ne (by decide)), if_neg (h.ne (by decide)), if_pos h]

theorem acceptedBy_rmc (h : IsSentence (bytes "RMC") line) :
    acceptedBy (R := R) line = acceptedByRmc (nmeaTokenizerInit line) := by
  rw [acceptedBy, if_neg (h.ne (by decide)), if_neg (h.ne (by decide)), if_neg (h.ne (by decide)),
    if_pos h]

/-- **The fix after a branch**: the fields the line accepts, over those it holds. -/
theorem fix_nmeaReaderBranch (line : List UInt8) (r : NmeaReader R) :
    StoresFields line r.fix ((nmeaReaderBranch line).exec r).fix := by
  by_cases hgga : IsSentence (bytes "GGA") line
  · rw [nmeaReaderBranch_gga hgga, exec_nmeaReaderParseGga, fix_storeFields, ← acceptedBy_gga hgga]
    exact storesFields_store r.fix
  by_cases hgsa : IsSentence (bytes "GSA") line
  · obtain ⟨x, hfix, -, hx⟩ := fix_nmeaReaderParseGsa (nmeaTokenizerInit line) r
    unfold StoresFields
    rw [nmeaReaderBranch_gsa hgsa, acceptedBy_gsa hgsa]
    exact ⟨x, r.fix.timestamp, hfix, hx⟩
  by_cases hgll : IsSentence (bytes "GLL") line
  · rw [nmeaReaderBranch_gll hgll, fix_nmeaReaderParseGll, ← acceptedBy_gll hgll]
    exact storesFields_store r.fix
  by_cases hrmc : IsSentence (bytes "RMC") line
  · obtain ⟨timestamp, hfix⟩ := fix_nmeaReaderParseRmc (nmeaTokenizerInit line) r
    apply storesFields_of_eq timestamp
    rw [nmeaReaderBranch_rmc hrmc, acceptedBy_rmc hrmc]
    exact hfix
  · -- neither a GSV sentence nor an unknown line touches the fix
    have hnone : acceptedBy (R := R) line = {} := by
      rw [acceptedBy, if_neg hgga, if_neg hgsa, if_neg hgll, if_neg hrmc]
    have hfix : ((nmeaReaderBranch line).exec r).fix = r.fix := by
      by_cases hgsv : IsSentence (bytes "GSV") line
      · rw [nmeaReaderBranch_gsv hgsv]
        exact congrArg Prod.fst ((leaves_nmeaReaderParseGsv _).exec_eq r)
      · rw [nmeaReaderBranch_other hgga hgsa hgll hrmc hgsv, exec_pure]
    have hstores : StoresFields line r.fix (r.fix.store (acceptedBy line)) := storesFields_store r.fix
    rw [hnone, store_none] at hstores
    rwa [hfix]

theorem asksForFix_gll (h : IsSentence (bytes "GLL") line) :
    AsksForFix line ↔ (nmeaTokenizerGet (nmeaTokenizerInit line) 6).first = byte 'A' := by
  have hrmc : ¬IsValidRmc line := fun hrmc => h.ne (by decide) hrmc.1
  rw [AsksForFix, IsValidGll, or_iff_left hrmc, and_iff_right h]

theorem asksForFix_rmc (h : IsSentence (bytes "RMC") line) :
    AsksForFix line ↔ (nmeaTokenizerGet (nmeaTokenizerInit line) 2).first = byte 'A' := by
  have hgll : ¬IsValidGll line := fun hgll => h.ne (by decide) hgll.1
  rw [AsksForFix, IsValidRmc, or_iff_right hgll, and_iff_right h]

/-- **The update marker after a branch**: it is set by valid position sentences. -/
theorem update_nmeaReaderBranch (line : List UInt8) (r : NmeaReader R) :
    ((nmeaReaderBranch line).exec r).update = (r.update || decide (AsksForFix line)) := by
  by_cases hgll : IsSentence (bytes "GLL") line
  · rw [nmeaReaderBranch_gll hgll, update_nmeaReaderParseGll]
    simp only [asksForFix_gll hgll]
  by_cases hrmc : IsSentence (bytes "RMC") line
  · rw [nmeaReaderBranch_rmc hrmc, update_nmeaReaderParseRmc]
    simp only [asksForFix_rmc hrmc]
  -- the other branches leave the marker as it is
  have hasks : ¬AsksForFix line := fun h => h.elim (fun h => hgll h.1) fun h => hrmc h.1
  rw [decide_eq_false hasks, Bool.or_false]
  by_cases hgga : IsSentence (bytes "GGA") line
  · rw [nmeaReaderBranch_gga hgga, exec_nmeaReaderParseGga]
    rfl
  by_cases hgsa : IsSentence (bytes "GSA") line
  · obtain ⟨x, -, hupdate, -⟩ := fix_nmeaReaderParseGsa (nmeaTokenizerInit line) r
    rw [nmeaReaderBranch_gsa hgsa]
    exact hupdate
  by_cases hgsv : IsSentence (bytes "GSV") line
  · rw [nmeaReaderBranch_gsv hgsv]
    exact (Prod.mk.inj (Prod.mk.inj ((leaves_nmeaReaderParseGsv _).exec_eq r)).2).1
  · rw [nmeaReaderBranch_other hgga hgsa hgll hrmc hgsv]
    rfl

theorem callback_nmeaReaderBranch (line : List UInt8) (r : NmeaReader R) :
    ((nmeaReaderBranch line).exec r).callback = r.callback :=
  congrArg Prod.fst (callbacks_nmeaReaderBranch line r)

theorem callback_nmeaReaderParseLine (line : List UInt8) (r : NmeaReader R) :
    ((nmeaReaderParseLine line).exec r).callback = r.callback :=
  congrArg Prod.fst (callbacks_nmeaReaderParseLine line r)

/-- The fix is due after a branch when there are flags, old or new, and the marker is set, by this
line or before. -/
theorem fixDue_nmeaReaderBranch_iff {r : NmeaReader R} (hcallback : r.callback) :
    ((nmeaReaderBranch line).exec r).FixDue ↔
      r.fix.flags ||| (acceptedBy (R := R) line).flags ≠ 0 ∧ (r.update ∨ AsksForFix line) := by
  obtain ⟨accuracy, timestamp, hfix, -⟩ := fix_nmeaReaderBranch line r
  simp only [NmeaReader.FixDue, hfix, update_nmeaReaderBranch, callback_nmeaReaderBranch,
    hcallback, Bool.or_eq_true, decide_eq_true_eq, and_true]
  exact Iff.rfl

end Branches

end OdroidU2.Gps
