import Mathlib
import OdroidU2.Gps.Coordinates
import OdroidU2.Gps.FixTimestamp

/-!
# Position Reports

A receiver prints what the reader is meant to read.  A report is a moment, a position, a speed
and a course, in the resolution of the sentence, and `Report.line` prints it as an RMC sentence
with any checksum, which the reader does not compare.

- `digitsValue_printDigits`, `str2float_printDecimal` — a printed number is read as the number
- `nmeaBody_decorated`, `fields_joinFields` — the decoration and the commas come off again
- `isRmcFix_line`, `acceptedBy_line`, `fixTime_eq` — what the reader takes from a printed report
-/

namespace OdroidU2.Gps

open OdroidU2.Foundations Prog

/-! ## §1 Numbers in Decimal -/

/-- The byte of a decimal digit. -/
def digitByte (d : Nat) : UInt8 := UInt8.ofNat (48 + d)

/-- The last `width` digits of a number. -/
def printDigits : Nat → Nat → List UInt8
  | 0, _ => []
  | width + 1, n => printDigits width (n / 10) ++ [digitByte (n % 10)]

/-- A number in units of `10 ^ -places`, with `whole` digits before the point. -/
def printDecimal (whole places n : Nat) : List UInt8 :=
  printDigits whole (n / 10 ^ places) ++ byte '.' :: printDigits places (n % 10 ^ places)

@[simp] theorem length_printDigits (width n : Nat) : (printDigits width n).length = width := by
  induction width generalizing n with
  | zero => rfl
  | succ width ih => rw [printDigits, List.length_append, ih, List.length_singleton]

@[simp] theorem length_printDecimal (whole places n : Nat) :
    (printDecimal whole places n).length = whole + places + 1 := by
  rw [printDecimal, List.length_append, List.length_cons, length_printDigits, length_printDigits,
    Nat.add_assoc]

theorem toNat_digitByte (n : Nat) : (digitByte (n % 10)).toNat = 48 + n % 10 := by
  have hlt : n % 10 < 10 := Nat.mod_lt n (by decide)
  rw [digitByte, UInt8.toNat_ofNat']
  omega

theorem isDigit_digitByte (n : Nat) : isDigit (digitByte (n % 10)) := by
  have hlt : n % 10 < 10 := Nat.mod_lt n (by decide)
  rw [isDigit_iff, toNat_digitByte]
  omega

@[simp] theorem allDigits_printDigits (width n : Nat) : AllDigits (printDigits width n) := by
  induction width generalizing n with
  | zero => exact allDigits_nil
  | succ width ih =>
    rw [printDigits, allDigits_append, allDigits_cons]
    exact ⟨ih _, isDigit_digitByte n, allDigits_nil⟩

/-- The digits that are printed denote the number, if there are enough of them. -/
theorem digitsValue_printDigits (width n : Nat) :
    digitsValue (printDigits width n) = n % 10 ^ width := by
  -- the last digit is printed last, the ones before it are those of `n / 10`
  induction width generalizing n with
  | zero =>
    rw [Nat.pow_zero, Nat.mod_one]
    rfl
  | succ width ih =>
    have hdigit : digitsValue [digitByte (n % 10)] = n % 10 := by
      show 0 * 10 + ((digitByte (n % 10)).toNat - 48) = n % 10
      rw [toNat_digitByte]
      omega
    rw [printDigits, digitsValue_append, ih, hdigit, List.length_singleton, Nat.pow_one,
      Nat.pow_succ', Nat.mod_mul]
    ring

/-- Whole digits, the point and the fraction. -/
theorem isDecimal_printDecimal (whole places n : Nat) :
    IsDecimal whole (printDecimal whole places n) := by
  have hlen : (printDigits whole (n / 10 ^ places)).length = whole := length_printDigits _ _
  -- the length, the whole digits, the point, the digits after it
  refine ⟨?_, ?_, .inr ⟨?_, ?_⟩⟩
  · rw [length_printDecimal]
    omega
  · rw [printDecimal, List.take_left' hlen]
    exact allDigits_printDigits _ _
  · rw [printDecimal, List.drop_left' hlen]
    rfl
  · rw [← List.drop_drop, printDecimal, List.drop_left' hlen]
    exact allDigits_printDigits _ _

theorem take_printDecimal (whole places n : Nat) :
    (printDecimal whole places n).take whole = printDigits whole (n / 10 ^ places) :=
  List.take_left' (length_printDigits _ _)

theorem drop_printDecimal (whole places n : Nat) :
    (printDecimal whole places n).drop (whole + 1) = printDigits places (n % 10 ^ places) := by
  rw [← List.drop_drop, printDecimal, List.drop_left' (length_printDigits _ _)]
  rfl

/-- **Numbers come back**: a printed number is read as it was, if the reader has room for it. -/
theorem str2float_printDecimal {whole places n : Nat} (hn : n < 10 ^ (whole + places))
    (hroom : whole + places < 15) :
    str2float (R := ℚ) (printDecimal whole places n) = n / 10 ^ places := by
  have hpos : 0 < 10 ^ places := Nat.pow_pos (by decide)
  -- the field fits into the buffer of `str2float`
  have hlong : ¬16 ≤ (printDecimal whole places n).length := by
    rw [length_printDecimal]
    omega
  have hwhole : n / 10 ^ places < 10 ^ whole := by
    rw [Nat.div_lt_iff_lt_mul hpos, ← Nat.pow_add]
    exact hn
  -- read without its point, the field is `n` itself
  have hdigits : digitsValue (printDigits whole (n / 10 ^ places) ++
      printDigits places (n % 10 ^ places)) = n := by
    rw [digitsValue_append, digitsValue_printDigits, digitsValue_printDigits, length_printDigits,
      Nat.mod_eq_of_lt hwhole, Nat.mod_mod, Nat.mul_comm]
    exact Nat.div_add_mod n (10 ^ places)
  rw [str2float, if_neg hlong]
  refine (strtodExact_decimal (isDecimal_printDecimal whole places n)).trans ?_
  rw [take_printDecimal, drop_printDecimal, hdigits, length_printDigits]

/-! ## §2 Fields and Lines -/

/-- Fields with a comma between them. -/
def joinFields (fs : List (List UInt8)) : List UInt8 := [byte ','].intercalate fs

/-- Neither a separator nor the end of a line. -/
def IsPlain (b : UInt8) : Prop := b ≠ byte ',' ∧ b ≠ byte '\n'

instance : DecidablePred IsPlain := fun b => by unfold IsPlain; infer_instance

theorem fields_joinFields {fs : List (List UInt8)} (hne : fs ≠ [])
    (hplain : ∀ f ∈ fs, ∀ b ∈ f, IsPlain b) : fields (joinFields fs) = fs :=
  List.splitOn_intercalate _ (fun f hf h => (hplain f hf _ h).1 rfl) hne

/-- A body is on one line. -/
theorem newline_not_mem_joinFields {fs : List (List UInt8)}
    (hplain : ∀ f ∈ fs, ∀ b ∈ f, IsPlain b) : byte '\n' ∉ joinFields fs := by
  -- between two fields there is only a comma
  induction fs with
  | nil => exact List.not_mem_nil
  | cons f fs ih =>
    have hf : byte '\n' ∉ f := fun h => (hplain f List.mem_cons_self _ h).2 rfl
    have hfs := ih fun g hg => hplain g (List.mem_cons_of_mem f hg)
    cases fs with
    | nil => rwa [joinFields, List.intercalate_singleton]
    | cons g fs =>
      rw [joinFields, List.intercalate_cons_cons, List.mem_append, List.mem_append, not_or, not_or]
      exact ⟨⟨hf, by decide⟩, hfs⟩

/-- The byte of a hexadecimal digit. -/
def hexByte (d : Nat) : UInt8 := UInt8.ofNat (if d < 10 then 48 + d else 55 + d)

/-- A body as a receiver sends it: with `$`, a checksum, and a carriage return unless the
terminal has taken it out. -/
def decorated (body : List UInt8) (sum : UInt8) (cr : Bool) : List UInt8 :=
  byte '$' :: body ++ [byte '*', hexByte (sum.toNat / 16), hexByte (sum.toNat % 16)] ++
    (if cr then [byte '\r'] else [])

theorem hexByte_ne {d : Nat} (hd : d < 16) : hexByte d ≠ byte '\r' ∧ hexByte d ≠ byte '\n' := by
  interval_cases d <;> decide

/-- **The decoration comes off again**, whatever the checksum is. -/
theorem nmeaBody_decorated (body : List UInt8) (sum : UInt8) (cr : Bool) :
    nmeaBody (decorated body sum cr ++ [byte '\n']) = body := by
  have hlow : hexByte (sum.toNat % 16) ≠ byte '\r' := (hexByte_ne (Nat.mod_lt _ (by decide))).1
  -- the end of the line goes first, with a carriage return or without
  have hnewline : dropNewline (body ++
      [byte '*', hexByte (sum.toNat / 16), hexByte (sum.toNat % 16)] ++
        (if cr then [byte '\r'] else []) ++ [byte '\n']) =
      body ++ [byte '*', hexByte (sum.toNat / 16), hexByte (sum.toNat % 16)] := by
    cases cr with
    | true => simp [dropNewline]
    | false => simp [dropNewline, hlow]
  -- then the asterisk and the two digits of the checksum
  have hchecksum : dropChecksum (body ++
      [byte '*', hexByte (sum.toNat / 16), hexByte (sum.toNat % 16)]) = body := by
    simp [dropChecksum]
  rw [nmeaBody, decorated]
  simp only [List.cons_append, List.head?_cons, if_true, List.tail_cons]
  rw [hnewline, hchecksum]

/-- A decorated body is on one line. -/
theorem newline_not_mem_decorated {body : List UInt8} (hbody : byte '\n' ∉ body) (sum : UInt8)
    (cr : Bool) : byte '\n' ∉ decorated body sum cr := by
  -- the checksum is printed in two hexadecimal digits
  have hhigh := (hexByte_ne (d := sum.toNat / 16) (by have := sum.toNat_lt; omega)).2
  have hlow := (hexByte_ne (d := sum.toNat % 16) (Nat.mod_lt _ (by decide))).2
  have hdollar : byte '\n' ≠ byte '$' := by decide
  have hstar : byte '\n' ≠ byte '*' := by decide
  have hreturn : byte '\n' ≠ byte '\r' := by decide
  cases cr <;> simp [decorated, hbody, hhigh.symm, hlow.symm, hdollar, hstar, hreturn]

/-! ## §3 Reports -/

/-- Degrees, and ten-thousandths of a minute, north or east unless `negative`. -/
structure Angle (limit : Nat) where
  degrees : Nat
  minutes : Nat
  negative : Bool
  degrees_le : degrees ≤ limit
  minutes_lt : minutes < 600000

/-- The angle in degrees. -/
def Angle.value {limit : Nat} (a : Angle limit) : ℚ :=
  signed a.negative (a.degrees + a.minutes / 600000)

/-- The number `dddmm.mmmm`, in ten-thousandths. -/
def Angle.number {limit : Nat} (a : Angle limit) : Nat := a.degrees * 1000000 + a.minutes

/-- A date of this century and a time of day, the milliseconds counted from the minute. -/
structure Moment where
  year : Nat
  month : Nat
  day : Nat
  hour : Nat
  minute : Nat
  millisecond : Nat
  year_lt : year < 100
  month_le : month ≤ 12
  day_le : day ≤ 31
  hour_lt : hour < 24
  minute_lt : minute < 60
  /-- With a leap second. -/
  millisecond_lt : millisecond < 61000

/-- Milliseconds since the epoch. -/
def Moment.instant (m : Moment) : Int :=
  timegmExact
    { tmHour := m.hour, tmMin := m.minute, tmSec := 0, tmYear := m.year + 100,
      tmMon := m.month - 1, tmMday := m.day } * 1000 + m.millisecond

/-- `hhmmss.sss` -/
def Moment.time (m : Moment) : List UInt8 :=
  printDigits 2 m.hour ++ (printDigits 2 m.minute ++ printDecimal 2 3 m.millisecond)

/-- `ddmmyy` -/
def Moment.date (m : Moment) : List UInt8 :=
  printDigits 2 m.day ++ (printDigits 2 m.month ++ printDigits 2 m.year)

/-- What a receiver reports: speed in tenths of a knot, course in tenths of a degree. -/
structure Report where
  moment : Moment
  latitude : Angle 90
  longitude : Angle 180
  speed : Nat
  course : Nat
  speed_lt : speed < 10000
  course_le : course ≤ 3600

namespace Report

variable (rep : Report)

/-- The fields of the RMC sentence. -/
def fields : List (List UInt8) :=
  [bytes "GPRMC", rep.moment.time, bytes "A",
    printDecimal 4 4 rep.latitude.number, bytes (if rep.latitude.negative then "S" else "N"),
    printDecimal 5 4 rep.longitude.number, bytes (if rep.longitude.negative then "W" else "E"),
    printDecimal 3 1 rep.speed, printDecimal 3 1 rep.course, rep.moment.date, [], [], bytes "A"]

/-- The RMC sentence without its newline, with a checksum and a carriage return or none. -/
def text (sum : UInt8) (cr : Bool) : List UInt8 := decorated (joinFields rep.fields) sum cr

/-- The RMC sentence. -/
def line (sum : UInt8) (cr : Bool) : List UInt8 := rep.text sum cr ++ [byte '\n']

/-- What the report says, in the units of a fix. -/
def accepted : FixFields ℚ where
  position := some (rep.latitude.value, rep.longitude.value)
  bearing := some (rep.course / 10)
  speed := some (rep.speed / 10 * (514444 / 1000000))

end Report

/-! ## §4 What the Reader Takes -/

theorem isPlain_of_isDigit {b : UInt8} (h : isDigit b) : IsPlain b := by
  constructor
  · rintro rfl
    revert h
    decide
  · rintro rfl
    revert h
    decide

theorem isPlain_printDigits {width n : Nat} : ∀ b ∈ printDigits width n, IsPlain b :=
  fun b hb => isPlain_of_isDigit (allDigits_printDigits width n b hb)

theorem isPlain_printDecimal {whole places n : Nat} :
    ∀ b ∈ printDecimal whole places n, IsPlain b := by
  intro b hb
  rw [printDecimal, List.mem_append, List.mem_cons] at hb
  rcases hb with hb | rfl | hb
  · exact isPlain_printDigits b hb
  · decide
  · exact isPlain_printDigits b hb

/-- Two digits are read as the number that was printed. -/
theorem str2int_printDigits {n : Nat} (hn : n < 100) : str2int (printDigits 2 n) = n := by
  have hmod : n % 10 ^ 2 = n := Nat.mod_eq_of_lt hn
  rw [str2int_of_short (allDigits_printDigits 2 n) (by simp), digitsValue_printDigits, hmod]

/-- A coordinate field is read as the angle that was printed. -/
theorem convertFromHhmm_printDecimal {limit whole : Nat} (a : Angle limit) {tok : Token}
    (htok : tok.text = printDecimal whole 4 a.number) (hlimit : limit + 1 ≤ 10 ^ (whole - 2))
    (hwhole : 2 ≤ whole ∧ whole < 11) : (convertFromHhmm tok : ℚ) = a.degrees + a.minutes / 600000 := by
  have hlt : a.number < 10 ^ (whole + 4) := by
    have hpow : 10 ^ (whole + 4) = 10 ^ (whole - 2) * 1000000 := by
      obtain ⟨k, rfl⟩ := Nat.exists_eq_add_of_le hwhole.1
      rw [Nat.add_sub_cancel_left]
      ring
    have hdegrees := a.degrees_le
    have hminutes := a.minutes_lt
    rw [Angle.number, hpow]
    omega
  have hread : str2float (R := ℚ) tok.text = a.number / 10 ^ 4 := by
    rw [htok]
    exact str2float_printDecimal hlt (by omega)
  have hminutes : (a.minutes : ℚ) < 600000 := by exact_mod_cast a.minutes_lt
  -- the number is degrees and minutes
  have hsplit : (a.number : ℚ) / 10 ^ 4 = 100 * ((a.degrees : Int) : ℚ) + a.minutes / 10000 := by
    rw [Angle.number]
    push_cast
    ring
  rw [convertFromHhmm_exact hread (by positivity), hsplit,
    coordinateOf_eq (by positivity) (by linarith)]
  push_cast
  ring

namespace Moment

variable (m : Moment)

theorem length_time : m.time.length = 10 := by
  simp [Moment.time]

theorem length_date : m.date.length = 6 := by
  simp [Moment.date]

theorem isTime : IsTime m.time := by
  have hdigits : AllDigits (printDigits 2 m.hour ++ printDigits 2 m.minute ++
      printDigits 2 (m.millisecond / 10 ^ 3)) := by
    simp
  -- six digits, then a point and the milliseconds
  have hsplit : m.time = (printDigits 2 m.hour ++ printDigits 2 m.minute ++
      printDigits 2 (m.millisecond / 10 ^ 3)) ++ byte '.' :: printDigits 3 (m.millisecond % 10 ^ 3) := by
    simp [Moment.time, printDecimal]
  have hlen : (printDigits 2 m.hour ++ printDigits 2 m.minute ++
      printDigits 2 (m.millisecond / 10 ^ 3)).length = 6 := by
    simp
  refine ⟨?_, ?_, .inr ⟨?_, ?_⟩⟩
  · rw [length_time]
    decide
  · rw [hsplit, List.take_left' hlen]
    exact hdigits
  · rw [hsplit, List.drop_left' hlen]
    rfl
  · rw [← List.drop_drop, hsplit, List.drop_left' hlen]
    exact allDigits_printDigits _ _

theorem isDate : IsDate m.date := by
  refine ⟨m.length_date, ?_⟩
  simp [Moment.date]

/-- The date comes back. -/
theorem readDate_date : readDate m.date = ((m.year : Int) + 2000, (m.month : Int), (m.day : Int)) := by
  have hmonth := m.month_le
  have hday := m.day_le
  -- day, month and year, two digits each
  have htake : m.date.take 2 = printDigits 2 m.day := List.take_left' (length_printDigits _ _)
  have hdrop : m.date.drop 2 = printDigits 2 m.month ++ printDigits 2 m.year :=
    List.drop_left' (length_printDigits _ _)
  have hyear : (m.date.drop 4).take 2 = printDigits 2 m.year := by
    have h4 : m.date.drop (2 + 2) = printDigits 2 m.year := by
      rw [← List.drop_drop, hdrop, List.drop_left' (length_printDigits _ _)]
    rw [h4]
    exact List.take_of_length_le (by simp)
  rw [readDate, hyear, hdrop, htake, List.take_left' (length_printDigits _ _),
    str2int_printDigits m.year_lt, str2int_printDigits (by omega), str2int_printDigits (by omega)]

/-- **The instant comes back.** -/
theorem fixTime_eq : fixTime ℚ (readDate m.date) m.time = m.instant := by
  have hhour := m.hour_lt
  have hminute := m.minute_lt
  have hmillisecond := m.millisecond_lt
  have htake : m.time.take 2 = printDigits 2 m.hour := List.take_left' (length_printDigits _ _)
  have hdrop : m.time.drop 2 = printDigits 2 m.minute ++ printDecimal 2 3 m.millisecond :=
    List.drop_left' (length_printDigits _ _)
  have hdrop4 : m.time.drop (2 + 2) = printDecimal 2 3 m.millisecond := by
    rw [← List.drop_drop, hdrop, List.drop_left' (length_printDigits _ _)]
  have hseconds : str2float (R := ℚ) (m.time.drop 4) = m.millisecond / 10 ^ 3 := by
    rw [hdrop4]
    exact str2float_printDecimal (by omega) (by decide)
  -- `seconds * 1000` is cut to an integer, and here it is one
  have hmilliseconds :
      Libc.trunc (Libc.mul (str2float (R := ℚ) (m.time.drop 4)) (Libc.lit 1000)) =
        (m.millisecond : Int) := by
    have hmul (x : ℚ) : Libc.mul x (Libc.lit 1000) = x * 1000 := rfl
    have hvalue : (m.millisecond : ℚ) / 10 ^ 3 * 1000 = ((m.millisecond : Int) : ℚ) := by
      push_cast
      ring
    rw [hseconds, hmul, hvalue, trunc_of_nonneg (by positivity), Int.floor_intCast]
  have htimegm (tm : Tm) : Libc.timegm64 ℚ tm = timegmExact tm := rfl
  -- `tm_year` counts from 1900
  have hyear : (m.year : Int) + 2000 - 1900 = m.year + 100 := by ring
  rw [fixTime, hmilliseconds, readDate_date, htake, hdrop, List.take_left' (length_printDigits _ _),
    str2int_printDigits (by omega), str2int_printDigits (by omega), htimegm, instant, hyear]

end Moment

namespace Report

variable (rep : Report) (sum : UInt8) (cr : Bool)

theorem isPlain_fields : ∀ f ∈ rep.fields, ∀ b ∈ f, IsPlain b := by
  -- the fields are letters, digits, decimals or empty
  have hletters {s : String} (hs : s ∈ ["GPRMC", "A", "N", "S", "E", "W"]) :
      ∀ b ∈ bytes s, IsPlain b := by
    simp only [List.mem_cons, List.not_mem_nil, or_false] at hs
    rcases hs with rfl | rfl | rfl | rfl | rfl | rfl <;> decide +kernel
  have hdigits {width n : Nat} : ∀ b ∈ printDigits width n, IsPlain b := isPlain_printDigits
  have hdecimal {whole places n : Nat} : ∀ b ∈ printDecimal whole places n, IsPlain b :=
    isPlain_printDecimal
  intro f hf b hb
  simp only [fields, List.mem_cons, List.not_mem_nil, or_false] at hf
  rcases hf with rfl | rfl | rfl | rfl | rfl | rfl | rfl | rfl | rfl | rfl | rfl | rfl | rfl
  · exact hletters (by simp) b hb
  · simp only [Moment.time, List.mem_append] at hb
    exact hb.elim (hdigits b) fun hb => hb.elim (hdigits b) (hdecimal b)
  · exact hletters (by simp) b hb
  · exact hdecimal b hb
  · exact hletters (by split <;> simp) b hb
  · exact hdecimal b hb
  · exact hletters (by split <;> simp) b hb
  · exact hdecimal b hb
  · exact hdecimal b hb
  · simp only [Moment.date, List.mem_append] at hb
    exact hb.elim (hdigits b) fun hb => hb.elim (hdigits b) (hdigits b)
  · cases hb
  · cases hb
  · exact hletters (by simp) b hb

theorem nmeaBody_line : nmeaBody (rep.line sum cr) = joinFields rep.fields :=
  nmeaBody_decorated _ sum cr

theorem newline_not_mem_text : byte '\n' ∉ rep.text sum cr :=
  newline_not_mem_decorated (newline_not_mem_joinFields rep.isPlain_fields) sum cr

/-- **The fields come back.** -/
theorem field_line (i : Nat) : field (nmeaBody (rep.line sum cr)) i = rep.fields[i]?.getD [] := by
  have hne : rep.fields ≠ [] := List.cons_ne_nil _ _
  rw [nmeaBody_line, field, fields_joinFields hne rep.isPlain_fields]

/-- The sentence fits into the buffer of the reader. -/
theorem length_line : (rep.line sum cr).length = if cr then 72 else 71 := by
  have hone {s : String} (hs : s.toList.length = 1) : (bytes s).length = 1 := by
    rw [bytes, List.length_map, hs]
  have hlat : (bytes (if rep.latitude.negative then "S" else "N")).length = 1 :=
    hone (by split <;> rfl)
  have hlon : (bytes (if rep.longitude.negative then "W" else "E")).length = 1 :=
    hone (by split <;> rfl)
  -- all the fields have a fixed width
  have hbody : (joinFields rep.fields).length = 66 := by
    have hid : (bytes "GPRMC").length = 5 := rfl
    have hA : (bytes "A").length = 1 := rfl
    simp [joinFields, fields, List.intercalate_cons_cons, List.intercalate_singleton, hlat, hlon,
      hid, hA, Moment.length_time, Moment.length_date]
  rw [line, text, decorated, List.length_append, List.length_append, List.length_append,
    List.length_cons, hbody]
  cases cr <;> rfl

theorem longEnough_line : LongEnough (rep.line sum cr) := by
  constructor
  · rw [length_line]
    split <;> decide
  · rw [field_line]
    exact (by decide : 5 ≤ 5)

theorem isSentence_line : IsSentence (bytes "RMC") (rep.line sum cr) := by
  refine ⟨rep.longEnough_line sum cr, ?_⟩
  rw [sentenceId, field_line]
  rfl

theorem isValidRmc_line : IsValidRmc (rep.line sum cr) := by
  refine ⟨rep.isSentence_line sum cr, ?_⟩
  rw [first_nmeaTokenizerGet _ (by decide)]
  apply firstByte_of_field
  rw [field_line]
  rfl

theorem isRmcFix_line : IsRmcFix (rep.line sum cr) := by
  -- the fields by their numbers: latitude 3 and 4, longitude 5 and 6, time 1, date 9
  refine ⟨rep.isValidRmc_line sum cr, ⟨⟨?_, ?_⟩, ?_, ?_⟩, ?_, ?_⟩
  · rw [field_line]
    exact isDecimal_printDecimal 4 4 _
  · rw [field_line]
    show bytes (if rep.latitude.negative then "S" else "N") ∈ _
    split <;> simp
  · rw [field_line]
    exact isDecimal_printDecimal 5 4 _
  · rw [field_line]
    show bytes (if rep.longitude.negative then "W" else "E") ∈ _
    split <;> simp
  · rw [field_line]
    exact rep.moment.isTime
  · rw [field_line]
    exact rep.moment.isDate

/-- Token `i` of the sentence. -/
def token (i : Nat) : Token := nmeaTokenizerGet (nmeaTokenizerInit (rep.line sum cr)) i

theorem token_text {i : Nat} (hi : i < maxNmeaTokens) :
    (rep.token sum cr i).text = rep.fields[i]?.getD [] := by
  rw [token, text_nmeaTokenizerGet _ hi, field_line]

theorem token_len {i : Nat} (hi : i < maxNmeaTokens) :
    (rep.token sum cr i).len = (rep.fields[i]?.getD []).length := by
  rw [token, len_nmeaTokenizerGet _ hi, field_line]

/-- Tokens of one letter. -/
theorem token_first {i : Nat} (hi : i < maxNmeaTokens) {b : UInt8}
    (hb : rep.fields[i]?.getD [] = [b]) : (rep.token sum cr i).first = b := by
  rw [token, first_nmeaTokenizerGet _ hi]
  apply firstByte_of_field
  rw [field_line, hb]

/-- The position comes back. -/
theorem positionOf_token :
    positionOf (R := ℚ) (rep.token sum cr 3) (rep.token sum cr 4).first (rep.token sum cr 5)
      (rep.token sum cr 6).first = some (rep.latitude.value, rep.longitude.value) := by
  have hlat : (convertFromHhmm (rep.token sum cr 3) : ℚ) =
      rep.latitude.degrees + rep.latitude.minutes / 600000 :=
    convertFromHhmm_printDecimal rep.latitude (rep.token_text sum cr (by decide)) (by decide)
      (by decide)
  have hlon : (convertFromHhmm (rep.token sum cr 5) : ℚ) =
      rep.longitude.degrees + rep.longitude.minutes / 600000 :=
    convertFromHhmm_printDecimal rep.longitude (rep.token_text sum cr (by decide)) (by decide)
      (by decide)
  -- both coordinates have the six characters the function asks for
  have hlong : ¬((rep.token sum cr 3).len < 6 ∨ (rep.token sum cr 5).len < 6) := by
    rw [token_len _ _ _ (by decide), token_len _ _ _ (by decide)]
    simp [fields]
  -- the hemisphere is read from the first character of its field
  have hsouth : (rep.token sum cr 4).first =
      byte (if rep.latitude.negative then 'S' else 'N') := by
    apply rep.token_first sum cr (by decide)
    show bytes (if rep.latitude.negative then "S" else "N") = _
    split <;> rfl
  have hwest : (rep.token sum cr 6).first =
      byte (if rep.longitude.negative then 'W' else 'E') := by
    apply rep.token_first sum cr (by decide)
    show bytes (if rep.longitude.negative then "W" else "E") = _
    split <;> rfl
  rw [positionOf, if_neg hlong, hsouth, hwest, hlat, hlon, Angle.value, Angle.value]
  have hneg (x : ℚ) : Libc.neg x = -x := rfl
  cases rep.latitude.negative <;> cases rep.longitude.negative <;>
    simp [signed, hneg, (by decide : byte 'N' ≠ byte 'S'), (by decide : byte 'E' ≠ byte 'W')]

/-- **The report comes back**, except for its time. -/
theorem acceptedBy_line : acceptedBy (rep.line sum cr) = rep.accepted := by
  have hsmall {n : Nat} (hn : n < 10000) :
      str2float (R := ℚ) (printDecimal 3 1 n) = n / 10 := by
    rw [str2float_printDecimal (by omega) (by decide), pow_one]
  have hcourse : (rep.token sum cr 8).value? (bearingOf ℚ (rep.token sum cr 8)) =
      some ((rep.course : ℚ) / 10) := by
    have hle := rep.course_le
    have hread := hsmall (n := rep.course) (by omega)
    rw [Token.value?, token_len _ _ _ (by decide), bearingOf, token_text _ _ _ (by decide)]
    exact congrArg some hread
  -- knots become metres a second
  have hspeed : (rep.token sum cr 7).value? (speedOf ℚ (rep.token sum cr 7)) =
      some ((rep.speed : ℚ) / 10 * (514444 / 1000000)) := by
    have hread := hsmall rep.speed_lt
    rw [Token.value?, token_len _ _ _ (by decide), speedOf, token_text _ _ _ (by decide)]
    exact congrArg (fun x : ℚ => some (x * (514444 / 1000000))) hread
  have hactive : (rep.token sum cr 2).first = byte 'A' :=
    rep.token_first sum cr (by decide) rfl
  have hposition := rep.positionOf_token sum cr
  unfold token at hcourse hspeed hactive hposition
  rw [acceptedBy_rmc (rep.isSentence_line sum cr), acceptedByRmc, if_pos hactive, hposition,
    hcourse, hspeed]
  rfl

/-- The time comes back. -/
theorem timestamp_line (r : NmeaReader ℚ) :
    ((nmeaReaderBranch (rep.line sum cr)).exec r).fix.timestamp = rep.moment.instant := by
  rw [(rep.isRmcFix_line sum cr).timestamp, field_line, field_line]
  exact rep.moment.fixTime_eq

end Report

end OdroidU2.Gps
