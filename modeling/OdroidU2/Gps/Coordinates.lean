import OdroidU2.Gps.FixFields
import OdroidU2.Gps.IntRange

/-!
# Coordinates

A coordinate field `dddmm.mmmm` is read as a number and split into degrees and minutes.  The
number goes through a copy of sixteen bytes, so that a field of sixteen characters or more
reads as zero, and the degrees go through a 32-bit `int`.

- `convertFromHhmm_exact` — the coordinate of a field that is read
- `latlong_exact_iff` — when `nmea_reader_update_latlong` stores the coordinate of the field
-/

namespace OdroidU2.Gps

open OdroidU2.Foundations Prog

/-! ## §1 Coordinate Fields -/

/-- Decimal digits, and at most one point. -/
def IsNumeral (s : List UInt8) : Prop :=
  (∀ b ∈ s, isDigit b ∨ b = byte '.') ∧ s.count (byte '.') ≤ 1

instance (s : List UInt8) : Decidable (IsNumeral s) := by unfold IsNumeral; infer_instance

/-- How many digits stand before the point. -/
def wholeDigits (s : List UInt8) : Nat := (s.takeWhile isDigit).length

/-- The number a numeral denotes. -/
def numeralValue (s : List UInt8) : ℚ :=
  digitsValue (s.take (wholeDigits s) ++ s.drop (wholeDigits s + 1)) /
    10 ^ (s.drop (wholeDigits s + 1)).length

/-- The degrees of a coordinate `100 * D + M`. -/
def degreesOf (v : ℚ) : Int := ⌊v / 100⌋

/-- The coordinate in degrees, the minutes being what is left of the number. -/
def coordinateOf (v : ℚ) : ℚ := degreesOf v + (v - 100 * degreesOf v) / 60

/-- The value `convert_from_hhmm` converts to the `int` of the degrees. -/
def convertedDegrees (tok : Token) : Int :=
  Libc.trunc (Libc.div (Libc.floor (str2float tok.text)) (Libc.lit 100 : ℚ))

/-- The coordinate of the field is stored, with the sign of the hemisphere, and the degrees
are in the range of an `int`. -/
structure StoredExactly (tok : Token) (negative : Bool) (stored : ℚ) : Prop where
  coordinate : ∀ (D : Int) (M : ℚ), numeralValue tok.text = 100 * D + M → 0 ≤ M → M < 100 →
    stored = if negative then -(D + M / 60) else D + M / 60
  degrees : InRange (convertedDegrees tok)

/-- The field is short enough to be copied, and its degrees fit into an `int`; or it denotes
zero, which every longer field reads as. -/
def Convertible (s : List UInt8) : Prop :=
  (s.length ≤ 15 ∧ numeralValue s < 100 * 2 ^ 31) ∨ numeralValue s = 0

/-! ## §2 Reading a Numeral -/

/-- A numeral is a decimal: digits, and perhaps a point with a fraction. -/
theorem IsNumeral.isDecimal {s : List UInt8} (h : IsNumeral s) : IsDecimal (wholeDigits s) s := by
  induction s with
  | nil => exact ⟨le_rfl, allDigits_nil, .inl rfl⟩
  | cons b s ih =>
    obtain ⟨hbytes, hcount⟩ := h
    obtain ⟨hb, hs⟩ := List.forall_mem_cons.mp hbytes
    rw [List.count_cons] at hcount
    rcases hb with hdigit | rfl
    · -- a digit in front: the rest is a numeral as well
      have hrest := ih ⟨hs, by omega⟩
      have hwhole : wholeDigits (b :: s) = wholeDigits s + 1 := by
        rw [wholeDigits, List.takeWhile_cons_of_pos hdigit]
        rfl
      rw [hwhole]
      refine ⟨Nat.succ_le_succ hrest.1, ?_, hrest.2.2⟩
      rw [List.take_succ_cons, allDigits_cons]
      exact ⟨hdigit, hrest.2.1⟩
    · -- the point: it was the only one
      have hnone : s.count (byte '.') = 0 := by
        rw [if_pos (by simp)] at hcount
        omega
      refine ⟨Nat.zero_le _, allDigits_nil, .inr ⟨rfl, fun b hb => ?_⟩⟩
      exact (hs b hb).resolve_right fun hpoint => List.count_eq_zero.mp hnone (hpoint ▸ hb)

/-- `str2float` on a numeral: the number, unless there is no room for a copy. -/
theorem str2float_numeral {s : List UInt8} (h : IsNumeral s) :
    str2float s = if s.length ≤ 15 then numeralValue s else 0 := by
  rw [str2float]
  split_ifs with hlong hshort hshort
  · omega
  · rfl
  · exact strtodExact_decimal h.isDecimal
  · omega

theorem numeralValue_nonneg (s : List UInt8) : 0 ≤ numeralValue s := by
  unfold numeralValue
  positivity

/-! ## §3 Degrees and Minutes -/

theorem degreesOf_nonneg {v : ℚ} (h : 0 ≤ v) : 0 ≤ degreesOf v :=
  Int.floor_nonneg.mpr (by positivity)

/-- The minutes are less than a hundred. -/
theorem minutes_bounds (v : ℚ) : 0 ≤ v - 100 * degreesOf v ∧ v - 100 * degreesOf v < 100 := by
  have hlow := Int.floor_le (v / 100)
  have hhigh := Int.lt_floor_add_one (v / 100)
  unfold degreesOf
  constructor <;> linarith

/-- Degrees and minutes are determined by the number. -/
theorem degreesOf_eq {D : Int} {M : ℚ} (h0 : 0 ≤ M) (h100 : M < 100) :
    degreesOf (100 * D + M) = D := by
  rw [degreesOf, Int.floor_eq_iff]
  constructor <;> linarith

theorem coordinateOf_eq {D : Int} {M : ℚ} (h0 : 0 ≤ M) (h100 : M < 100) :
    coordinateOf (100 * D + M) = D + M / 60 := by
  rw [coordinateOf, degreesOf_eq h0 h100]
  ring

/-- Only zero has the coordinate zero. -/
theorem coordinateOf_eq_zero_iff {v : ℚ} (h : 0 ≤ v) : coordinateOf v = 0 ↔ v = 0 := by
  constructor
  · intro hzero
    have hdegrees : (0 : ℚ) ≤ degreesOf v := by exact_mod_cast degreesOf_nonneg h
    obtain ⟨hminutes, -⟩ := minutes_bounds v
    unfold coordinateOf at hzero
    -- degrees and minutes are both at least zero, so both are
    linarith
  · rintro rfl
    simp [coordinateOf, degreesOf]

/-- Rounding down before the division by a hundred makes no difference. -/
theorem convertedDegrees_eq {tok : Token} {v : ℚ} (h : str2float tok.text = v) (hv : 0 ≤ v) :
    convertedDegrees tok = degreesOf v := by
  have hfloor : (0 : ℚ) ≤ ⌊v⌋ := by exact_mod_cast Int.floor_nonneg.mpr hv
  rw [convertedDegrees, h, degreesOf]
  show Libc.trunc ((⌊v⌋ : ℚ) / 100) = _
  have hvalue : ⌊(⌊v⌋ : ℚ) / (100 : Nat)⌋ = ⌊v / (100 : Nat)⌋ := by
    rw [Int.floor_div_natCast, Int.floor_div_natCast, Int.floor_intCast]
  rw [trunc_of_nonneg (by positivity)]
  exact_mod_cast hvalue

/-- `convert_from_hhmm` in exact arithmetic. -/
theorem convertFromHhmm_exact {tok : Token} {v : ℚ} (h : str2float tok.text = v) (hv : 0 ≤ v) :
    (convertFromHhmm tok : ℚ) = coordinateOf v := by
  have hdegrees := convertedDegrees_eq h hv
  rw [convertedDegrees, h] at hdegrees
  rw [convertFromHhmm, h, hdegrees]
  show (degreesOf v : ℚ) + (v - degreesOf v * 100) / 60 = _
  rw [coordinateOf]
  ring

/-! ## §4 What Is Stored -/

/-- The sign of the hemisphere. -/
def signed (negative : Bool) (x : ℚ) : ℚ := if negative then -x else x

@[simp] theorem signed_inj (negative : Bool) {x y : ℚ} :
    signed negative x = signed negative y ↔ x = y := by
  cases negative <;> simp [signed]

/-- However the number is split into degrees and minutes, there is one coordinate. -/
theorem coordinate_iff {v stored : ℚ} (negative : Bool) :
    (∀ (D : Int) (M : ℚ), v = 100 * D + M → 0 ≤ M → M < 100 →
      stored = if negative then -(D + M / 60) else D + M / 60) ↔
      stored = signed negative (coordinateOf v) := by
  constructor
  · intro h
    obtain ⟨hlow, hhigh⟩ := minutes_bounds v
    -- one splitting into degrees and minutes is enough, since there is only one
    exact h (degreesOf v) (v - 100 * degreesOf v) (by ring) hlow hhigh
  · rintro h D M rfl hlow hhigh
    rw [h, coordinateOf_eq hlow hhigh]
    rfl

/-- The degrees fit into an `int` exactly when the number is small enough. -/
theorem inRange_degreesOf_iff {v : ℚ} (hv : 0 ≤ v) :
    InRange (degreesOf v) ↔ v < 100 * 2 ^ 31 := by
  have hnonneg := degreesOf_nonneg hv
  have hlt : degreesOf v < 2 ^ 31 ↔ v < 100 * 2 ^ 31 := by
    rw [degreesOf, Int.floor_lt]
    push_cast
    constructor <;> intro h <;> linarith
  -- a degree that is at least zero is in range below
  rw [InRange, hlt]
  exact and_iff_right (by omega)

/-- A coordinate is stored exactly if and only if its field is convertible. -/
theorem storedExactly_iff {tok : Token} (h : IsNumeral tok.text) (negative : Bool) :
    StoredExactly tok negative (signed negative (convertFromHhmm tok)) ↔ Convertible tok.text := by
  have hv := numeralValue_nonneg tok.text
  have hread := str2float_numeral h
  have hparts : StoredExactly tok negative (signed negative (convertFromHhmm tok)) ↔
      (convertFromHhmm tok : ℚ) = coordinateOf (numeralValue tok.text) ∧
        InRange (convertedDegrees tok) := by
    rw [← signed_inj negative, ← coordinate_iff]
    exact ⟨fun h => ⟨h.1, h.2⟩, fun h => ⟨h.1, h.2⟩⟩
  rw [hparts, Convertible]
  by_cases hshort : tok.text.length ≤ 15
  · -- the number is read: only its degrees may be too large
    rw [if_pos hshort] at hread
    rw [convertFromHhmm_exact hread hv, convertedDegrees_eq hread hv, inRange_degreesOf_iff hv,
      and_iff_right rfl, and_iff_right hshort]
    refine ⟨.inl, fun hcases => hcases.elim id fun hzero => ?_⟩
    rw [hzero]
    norm_num
  · -- zero is read in place of the number
    rw [if_neg hshort] at hread
    have hzero : coordinateOf 0 = 0 := (coordinateOf_eq_zero_iff le_rfl).mpr rfl
    have hrange : InRange (degreesOf 0) := (inRange_degreesOf_iff le_rfl).mpr (by norm_num)
    rw [convertFromHhmm_exact hread le_rfl, convertedDegrees_eq hread le_rfl, hzero,
      and_iff_left hrange, eq_comm, coordinateOf_eq_zero_iff hv]
    exact ⟨.inr, fun hcases => hcases.elim (fun hlt => absurd hlt.1 hshort) id⟩

/-- `nmea_reader_update_latlong`, given two fields that are long enough, stores the coordinate
of a numeral exactly if and only if the numeral is convertible, whatever the other field is. -/
theorem latlong_exact_iff (latitude longitude : Token) (latitudeHemi longitudeHemi : UInt8)
    (hlat : 6 ≤ latitude.len) (hlon : 6 ≤ longitude.len) (r : NmeaReader ℚ) :
    (IsNumeral latitude.text →
      (StoredExactly latitude (latitudeHemi = byte 'S')
        ((nmeaReaderUpdateLatlong latitude latitudeHemi longitude longitudeHemi).exec
          r).fix.latitude ↔ Convertible latitude.text)) ∧
      (IsNumeral longitude.text →
        (StoredExactly longitude (longitudeHemi = byte 'W')
          ((nmeaReaderUpdateLatlong latitude latitudeHemi longitude longitudeHemi).exec
            r).fix.longitude ↔ Convertible longitude.text)) := by
  -- both fields are long enough for `nmea_reader_update_latlong` to go on
  have hposition : positionOf (R := ℚ) latitude latitudeHemi longitude longitudeHemi =
      some (signed (latitudeHemi = byte 'S') (convertFromHhmm latitude),
        signed (longitudeHemi = byte 'W') (convertFromHhmm longitude)) := by
    rw [positionOf, if_neg (by omega)]
    simp [signed, Libc.neg]
  rw [exec_nmeaReaderUpdateLatlong, hposition]
  exact ⟨fun h => storedExactly_iff h _, fun h => storedExactly_iff h _⟩

/-- A sentence with two digits behind the points. -/
theorem latlong_exact_iff_two_digits :
    (StoredExactly ⟨bytes "4916.45", 7⟩ (byte 'N' = byte 'S')
        ((nmeaReaderUpdateLatlong ⟨bytes "4916.45", 7⟩ (byte 'N') ⟨bytes "12311.12", 8⟩
          (byte 'W')).exec (nmeaReaderInit (R := ℚ))).fix.latitude ↔
        Convertible (Token.text ⟨bytes "4916.45", 7⟩)) ∧
      (StoredExactly ⟨bytes "12311.12", 8⟩ (byte 'W' = byte 'W')
        ((nmeaReaderUpdateLatlong ⟨bytes "4916.45", 7⟩ (byte 'N') ⟨bytes "12311.12", 8⟩
          (byte 'W')).exec (nmeaReaderInit (R := ℚ))).fix.longitude ↔
        Convertible (Token.text ⟨bytes "12311.12", 8⟩)) :=
  ⟨(latlong_exact_iff ⟨bytes "4916.45", 7⟩ ⟨bytes "12311.12", 8⟩ (byte 'N') (byte 'W') (by decide)
      (by decide) nmeaReaderInit).1 (by decide +kernel),
    (latlong_exact_iff ⟨bytes "4916.45", 7⟩ ⟨bytes "12311.12", 8⟩ (byte 'N') (byte 'W') (by decide)
      (by decide) nmeaReaderInit).2 (by decide +kernel)⟩

/-- A latitude with eleven digits behind the point is stored as zero. -/
theorem long_fraction_reads_zero :
    IsNumeral (bytes "4916.45000000000") ∧
      ¬StoredExactly ⟨bytes "4916.45000000000", 16⟩ (byte 'N' = byte 'S')
        ((nmeaReaderUpdateLatlong ⟨bytes "4916.45000000000", 16⟩ (byte 'N')
          ⟨bytes "12311.12", 8⟩ (byte 'W')).exec (nmeaReaderInit (R := ℚ))).fix.latitude := by
  refine ⟨by decide +kernel, fun h => ?_⟩
  -- sixteen bytes do not fit into the buffer of `str2float`, which returns zero
  have hzero : ((nmeaReaderUpdateLatlong ⟨bytes "4916.45000000000", 16⟩ (byte 'N')
      ⟨bytes "12311.12", 8⟩ (byte 'W')).exec (nmeaReaderInit (R := ℚ))).fix.latitude = 0 := by
    decide +kernel
  have hvalue : numeralValue (Token.text ⟨bytes "4916.45000000000", 16⟩) = 100 * (49 : Int) + 329 / 20 := by
    decide +kernel
  -- the numeral is 49 degrees and 16.45 minutes
  have hstored := h.coordinate 49 (329 / 20) hvalue (by norm_num) (by norm_num)
  rw [hzero, decide_eq_false (by decide)] at hstored
  norm_num at hstored

end OdroidU2.Gps
