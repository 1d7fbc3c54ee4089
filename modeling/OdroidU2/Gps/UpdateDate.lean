import OdroidU2.Gps.Numbers
import OdroidU2.Gps.Sentences

/-!
# Dates and Times

`nmea_reader_update_date` stores a date it has checked and hands the time on to
`nmea_reader_update_time`.  Two digits of the year are checked after 2000 has been added to
them, which makes an error look like the year 1999; the digits of the time are not checked at
all; and a time that is too short is found after the date has been stored.

- `exec_nmeaReaderUpdateTime`, `exec_nmeaReaderUpdateDate` — what the two functions store
- `update_date_sound_iff` — when an error leaves no trace and a success means well formed
-/

namespace OdroidU2.Gps

open OdroidU2.Foundations Prog

variable {R : Type} [Libc R]

/-! ## §1 What the Functions Store -/

/-- The reader with a date: the one of the clock, if it had none. -/
def NmeaReader.dated (r : NmeaReader R) : NmeaReader R :=
  if r.utcYear < 0 then
    { r with
      utcYear := (Libc.gmtimeNow R).tmYear + 1900, utcMon := (Libc.gmtimeNow R).tmMon + 1,
      utcDay := (Libc.gmtimeNow R).tmMday }
  else r

/-- The instant `nmea_reader_update_time` computes from a time on a date. -/
def fixTime (R : Type) [Libc R] (date : Int × Int × Int) (time : List UInt8) : Int :=
  Libc.timegm64 R
    { tmHour := str2int (time.take 2), tmMin := str2int ((time.drop 2).take 2), tmSec := 0,
      tmYear := date.1 - 1900, tmMon := date.2.1 - 1, tmMday := date.2.2 } * 1000 +
    Libc.trunc (Libc.mul (str2float (R := R) (time.drop 4)) (Libc.lit 1000))

theorem exec_nmeaReaderUpdateTime (tok : Token) (r : NmeaReader R) :
    (nmeaReaderUpdateTime tok).exec r =
      if tok.len < 6 then r
      else { r.dated with fix.timestamp := fixTime R r.dated.date tok.text } := by
  rw [nmeaReaderUpdateTime, exec_ite]
  split
  · rfl
  · simp only [exec_bind, val_read, exec_read, exec_when, exec_assign, exec_pure]
    -- without a date as yet, the one of the system is taken
    unfold NmeaReader.dated
    split
    · rfl
    · rfl

theorem val_nmeaReaderUpdateTime (tok : Token) (r : NmeaReader R) :
    (nmeaReaderUpdateTime tok).val r = if tok.len < 6 then -1 else 0 := by
  rw [nmeaReaderUpdateTime, val_ite]
  split
  · rfl
  · simp only [val_bind, val_pure]

/-- The date that six bytes are read as: year, month and day. -/
def readDate (date : List UInt8) : Int × Int × Int :=
  (str2int ((date.drop 4).take 2) + 2000, str2int ((date.drop 2).take 2), str2int (date.take 2))

/-- The date passes the check. -/
def DateAccepted (date : Token) : Prop :=
  date.len = 6 ∧
    ¬((readDate date.text).2.2 < 0 ∨ (readDate date.text).2.1 < 0 ∨ (readDate date.text).1 < 0)

instance (date : Token) : Decidable (DateAccepted date) := by unfold DateAccepted; infer_instance

/-- The reader with this date. -/
def NmeaReader.withDate (r : NmeaReader R) (date : Int × Int × Int) : NmeaReader R :=
  { r with utcYear := date.1, utcMon := date.2.1, utcDay := date.2.2 }

/-- An accepted date is stored before the time is looked at. -/
theorem nmeaReaderUpdateDate_eq (date time : Token) :
    nmeaReaderUpdateDate (R := R) date time =
      if DateAccepted date then (do
        assign fun r => { r with utcYear := (readDate date.text).1 }
        assign fun r => { r with utcMon := (readDate date.text).2.1 }
        assign fun r => { r with utcDay := (readDate date.text).2.2 }
        nmeaReaderUpdateTime time)
      else pure (-1) := by
  -- the two ways in which the source refuses a date: its length, and a field that is negative
  by_cases hlen : date.len = 6
  · by_cases hneg : (readDate date.text).2.2 < 0 ∨ (readDate date.text).2.1 < 0 ∨
        (readDate date.text).1 < 0
    · have hrejected : ¬DateAccepted date := fun h => h.2 hneg
      rw [if_neg hrejected, nmeaReaderUpdateDate, if_neg (not_not_intro hlen)]
      exact if_pos hneg
    · have haccepted : DateAccepted date := ⟨hlen, hneg⟩
      rw [if_pos haccepted, nmeaReaderUpdateDate, if_neg (not_not_intro hlen)]
      exact if_neg hneg
  · have hrejected : ¬DateAccepted date := fun h => hlen h.1
    rw [if_neg hrejected, nmeaReaderUpdateDate, if_pos hlen]

theorem exec_nmeaReaderUpdateDate (date time : Token) (r : NmeaReader R) :
    (nmeaReaderUpdateDate date time).exec r =
      if DateAccepted date then
        (nmeaReaderUpdateTime time).exec (r.withDate (readDate date.text))
      else r := by
  rw [nmeaReaderUpdateDate_eq, exec_ite]
  rfl

theorem val_nmeaReaderUpdateDate (date time : Token) (r : NmeaReader R) :
    (nmeaReaderUpdateDate date time).val r =
      if DateAccepted date then if time.len < 6 then -1 else 0 else -1 := by
  rw [nmeaReaderUpdateDate_eq, val_ite, val_pure]
  simp only [val_bind, val_nmeaReaderUpdateTime]

/-! ## §2 When Errors Leave No Trace -/

/-- The token of these bytes, with what follows them in the line. -/
def Token.of (text rest : List UInt8) : Token := ⟨text ++ rest, text.length⟩

@[simp] theorem text_tokenOf (text rest : List UInt8) : (Token.of text rest).text = text :=
  List.take_left

@[simp] theorem len_tokenOf (text rest : List UInt8) : (Token.of text rest).len = text.length := rfl

/-- A success means a date of six digits and a time that begins with four and has at least six
characters; an error leaves the date and the timestamp alone. -/
structure UpdateDateSound (date time : Token) (r : NmeaReader R) : Prop where
  success : (nmeaReaderUpdateDate date time).val r = 0 →
    (date.text.length = 6 ∧ AllDigits date.text) ∧
    6 ≤ time.text.length ∧ AllDigits (time.text.take 4)
  error : (nmeaReaderUpdateDate date time).val r = -1 →
    ((nmeaReaderUpdateDate date time).exec r).date = r.date ∧
    ((nmeaReaderUpdateDate date time).exec r).fix.timestamp = r.fix.timestamp

/-- Either the date is rejected, for its length or its first four bytes; or everything but the
range of the numbers is in order; or the time is too short, and the date is the one the reader
has. -/
def DateAndTimeInOrder (date time : List UInt8) (current : Int × Int × Int) : Prop :=
  (date.length ≠ 6 ∨ ¬AllDigits (date.take 4)) ∨
  (AllDigits (date.drop 4) ∧ 6 ≤ time.length ∧ AllDigits (time.take 4)) ∨
  (time.length < 6 ∧ readDate date = current)

/-- A date is accepted for its first four digits. -/
theorem dateAccepted_iff (date : Token) :
    DateAccepted date ↔ date.len = 6 ∧ AllDigits (date.text.take 4) := by
  have hshort (n : Nat) : ((date.text.drop n).take 2).length ≤ 9 :=
    (List.length_take_le 2 _).trans (by decide)
  -- 2000 is added before the sign is tested, so the year is never rejected
  have hyear : ¬str2int ((date.text.drop 4).take 2) + 2000 < 0 := by
    by_cases hneg : AllDigits ((date.text.drop 4).take 2)
    · rw [str2int_of_short hneg (hshort 4)]
      omega
    · rw [str2int_eq, if_neg hneg]
      decide
  have hfour : date.text.take 4 = date.text.take 2 ++ (date.text.drop 2).take 2 :=
    List.take_add (i := 2) (j := 2)
  -- day and month are rejected unless they are digits
  have hday := str2int_neg_iff (s := date.text.take 2) (hshort 0)
  have hmon := str2int_neg_iff (s := (date.text.drop 2).take 2) (hshort 2)
  simp only [DateAccepted, readDate, hday, hmon, hyear, hfour, allDigits_append]
  tauto

/-- The digits of an accepted date are all digits when the year is. -/
theorem allDigits_iff_drop {date : List UInt8} (hfour : AllDigits (date.take 4)) :
    AllDigits date ↔ AllDigits (date.drop 4) := by
  rw [← List.take_append_drop 4 date, allDigits_append, and_iff_right hfour,
    List.take_append_drop]

/-- The time is stored with the date, or neither returns success. -/
theorem updateDateSound_of_accepted {date time : Token} {r : NmeaReader R} (h : DateAccepted date) :
    UpdateDateSound date time r ↔
      if time.len < 6 then readDate date.text = r.date
      else (date.text.length = 6 ∧ AllDigits date.text) ∧
        6 ≤ time.text.length ∧ AllDigits (time.text.take 4) := by
  have hval := val_nmeaReaderUpdateDate date time r
  have hexec := exec_nmeaReaderUpdateDate date time r
  rw [if_pos h] at hval hexec
  rw [exec_nmeaReaderUpdateTime] at hexec
  split
  · -- a time that is too short: -1, with the date stored already
    rename_i hshort
    rw [if_pos hshort] at hval hexec
    constructor
    · intro hsound
      have hdate := (hsound.error hval).1
      rw [hexec] at hdate
      exact hdate
    · intro hdate
      -- the error is returned, and the date is the one that was there
      refine ⟨fun hzero => ?_, fun _ => ?_⟩
      · rw [hval] at hzero
        cases hzero
      · rw [hexec]
        exact ⟨hdate, rfl⟩
  · -- 0 is returned, whatever the bytes of year and time are
    rename_i hlong
    rw [if_neg hlong] at hval
    constructor
    · exact fun hsound => hsound.success hval
    · intro hwell
      refine ⟨fun _ => hwell, fun hneg => ?_⟩
      rw [hval] at hneg
      cases hneg

/-- **Errors of `nmea_reader_update_date`**: they leave no trace, and a success means well-formed
arguments, exactly when date and time are in order. -/
theorem update_date_sound_iff (date rest time rest' : List UInt8) (r : NmeaReader R) :
    UpdateDateSound (Token.of date rest) (Token.of time rest') r ↔
      DateAndTimeInOrder date time r.date := by
  unfold DateAndTimeInOrder
  -- an accepted date is written, and what is asked of it and of the time decides
  by_cases haccepted : DateAccepted (Token.of date rest)
  · obtain ⟨hlen, hfour⟩ : date.length = 6 ∧ AllDigits (date.take 4) := by
      simpa only [dateAccepted_iff, len_tokenOf, text_tokenOf] using haccepted
    rw [updateDateSound_of_accepted haccepted]
    simp only [text_tokenOf, len_tokenOf, hlen, hfour, allDigits_iff_drop hfour, true_and, not_true,
      ne_eq, false_or]
    split
    · rename_i hshort
      have hnot : ¬6 ≤ time.length := Nat.not_le_of_lt hshort
      simp [hshort, hnot]
    · rename_i hlong
      simp [hlong, Nat.le_of_not_lt hlong]
  · -- a date that is rejected leaves everything as it is
    have hrejected : ¬(date.length = 6 ∧ AllDigits (date.take 4)) := by
      simpa only [dateAccepted_iff, len_tokenOf, text_tokenOf] using haccepted
    refine iff_of_true ⟨fun hzero => ?_, fun _ => ?_⟩ (.inl (not_and_or.mp hrejected))
    · rw [val_nmeaReaderUpdateDate, if_neg haccepted] at hzero
      cases hzero
    · rw [exec_nmeaReaderUpdateDate, if_neg haccepted]
      exact ⟨rfl, rfl⟩

/-- A year that is no number is stored as 1999, and the call succeeds. -/
theorem update_date_accepts_no_year :
    ¬UpdateDateSound (Token.of (bytes "0101xx") []) (Token.of (bytes "120000") [])
      (readerAfterInit (R := ℚ) ⟨true, true, true⟩) := by
  intro h
  have hdigits : AllDigits (bytes "0101xx") := (h.success (by decide +kernel)).1.2
  exact absurd hdigits (by decide +kernel)

end OdroidU2.Gps
