import Mathlib
import OdroidU2.Foundations.Machine
import OdroidU2.Gps.FixFields

/-!
# When a Fix Was Taken

RMC and GLL sentences both ask for a fix, and both carry the time at which it was taken.  The RMC
branch stores its time; the GLL branch cuts out its time token and forgets it, so that its fix is
posted with a timestamp that some RMC sentence left behind.

- `timestamp_nmeaReaderUpdateDate` — the instant that the date and the time of an RMC sentence give
- `own_time_iff` — when every fix that is posted has the time of its own sentence
- `gll_time_is_ignored` — a GLL sentence five seconds after an RMC sentence
-/

namespace OdroidU2.Gps

open OdroidU2.Foundations Prog

/-! ## §1 Well-Formed Sentences -/

/-- `hhmmss` or `hhmmss.sss` -/
def IsTime (s : List UInt8) : Prop := IsDecimal 6 s

instance (s : List UInt8) : Decidable (IsTime s) := by unfold IsTime; infer_instance

/-- `ddmmyy` -/
def IsDate (s : List UInt8) : Prop := s.length = 6 ∧ AllDigits s

instance (s : List UInt8) : Decidable (IsDate s) := by unfold IsDate; infer_instance

/-- Four fields from field `i` on: `ddmm.mmm`, `N` or `S`, `dddmm.mmm`, `E` or `W`. -/
def IsPosition (body : List UInt8) (i : Nat) : Prop :=
  (IsDecimal 4 (field body i) ∧ field body (i + 1) ∈ [bytes "N", bytes "S"]) ∧
    IsDecimal 5 (field body (i + 2)) ∧ field body (i + 3) ∈ [bytes "E", bytes "W"]

instance (body : List UInt8) (i : Nat) : Decidable (IsPosition body i) := by
  unfold IsPosition
  infer_instance

/-- A GLL sentence with status `A`, a position and a time. -/
def IsGllFix (line : List UInt8) : Prop :=
  IsValidGll line ∧ IsPosition (nmeaBody line) 1 ∧ IsTime (field (nmeaBody line) 5)

instance (line : List UInt8) : Decidable (IsGllFix line) := by unfold IsGllFix; infer_instance

/-- An RMC sentence with status `A`, a position, a time and a date. -/
def IsRmcFix (line : List UInt8) : Prop :=
  IsValidRmc line ∧ IsPosition (nmeaBody line) 3 ∧ IsTime (field (nmeaBody line) 1) ∧
    IsDate (field (nmeaBody line) 9)

instance (line : List UInt8) : Decidable (IsRmcFix line) := by unfold IsRmcFix; infer_instance

/-- The milliseconds of a time, without the whole seconds. -/
def millisecondsOf (time : List UInt8) : Nat :=
  digitsValue (time.drop 7) * 1000 / 10 ^ (time.drop 7).length

/-- The instant of a time on a date, in milliseconds since the epoch. -/
def utcInstant (date : Int × Int × Int) (time : List UInt8) : Int :=
  timegmExact
    { tmHour := digitsValue (time.take 2), tmMin := digitsValue ((time.drop 2).take 2)
      tmSec := digitsValue ((time.drop 4).take 2), tmYear := date.1 - 1900
      tmMon := date.2.1 - 1, tmMday := date.2.2 } * 1000 + millisecondsOf time

/-- The time field of a position sentence. -/
def ownTime (line : List UInt8) : List UInt8 :=
  if IsValidRmc line then field (nmeaBody line) 1 else field (nmeaBody line) 5

/-! ## §2 Histories -/

/-- The date that a valid RMC sentence makes the reader store. -/
def acceptedDate (line : List UInt8) : Option (Int × Int × Int) :=
  if IsValidRmc line ∧ DateAccepted (nmeaTokenizerGet (nmeaTokenizerInit line) 9) then
    some (readDate (field (nmeaBody line) 9))
  else none

/-- A reader, and the date it last accepted. -/
structure DateHistory where
  reader : NmeaReader ℚ
  lastDate : Option (Int × Int × Int)

/-- The date last accepted once this line has been read. -/
def DateHistory.dateAfter (s : DateHistory) (line : List UInt8) : Option (Int × Int × Int) :=
  (acceptedDate line).or s.lastDate

/-- One sentence more. -/
def DateHistory.next (s : DateHistory) (line : List UInt8) : DateHistory where
  reader := (nmeaReaderParseLine line).exec s.reader
  lastDate := s.dateAfter line

/-- Sentences given to `nmea_reader_parse`, with the date last accepted. -/
def dateMachine : Machine DateHistory (List UInt8) := ⟨fun s line => some (s.next line)⟩

/-- A fix that this line causes to be posted has the time of this line, on the date last
accepted. -/
def PostsOwnTime (s : DateHistory) (line : List UInt8) : Prop :=
  IsGllFix line ∨ IsRmcFix line → ∀ date ∈ s.dateAfter line,
    (nmeaReaderParseLine line).Emits
      (AtFix fun t => t.fix.timestamp = utcInstant date (ownTime line)) s.reader

/-- The seconds are short enough to be read, or they are none. -/
def SecondsRead (time : List UInt8) : Prop :=
  (time.drop 4).length < 16 ∨ digitsValue ((time.drop 4).take 2) = 0 ∧ millisecondsOf time = 0

instance (time : List UInt8) : Decidable (SecondsRead time) := by
  unfold SecondsRead
  infer_instance

/-- A GLL sentence repeats the time that the reader has stored already, and the seconds of an RMC
sentence are read; this matters only where there is a flag, old or new. -/
def TimeInOrder (s : DateHistory) (line : List UInt8) : Prop :=
  s.reader.fix.flags ||| (acceptedBy (R := ℚ) line).flags ≠ 0 →
    (IsGllFix line → ∀ date ∈ s.lastDate,
      s.reader.fix.timestamp = utcInstant date (field (nmeaBody line) 5)) ∧
    (IsRmcFix line → SecondsRead (field (nmeaBody line) 1))

instance (s : DateHistory) (line : List UInt8) : Decidable (TimeInOrder s line) := by
  unfold TimeInOrder
  infer_instance

/-! ## §3 Reading the Time -/

section Time

variable {time : List UInt8}

/-- Hours, minutes and seconds are digits. -/
theorem IsTime.allDigits (h : IsTime time) :
    AllDigits (time.take 2) ∧ AllDigits ((time.drop 2).take 2) ∧
      AllDigits ((time.drop 4).take 2) := by
  -- six digits are hours, minutes and seconds, two each
  have hsplit : time.take 6 = time.take 2 ++ ((time.drop 2).take 2 ++ (time.drop 4).take 2) := by
    rw [List.take_add (i := 2) (j := 4), List.take_add (i := 2) (j := 2), List.drop_drop]
  have hdigits := h.2.1
  rw [hsplit, allDigits_append, allDigits_append] at hdigits
  exact hdigits

/-- Two digits are read exactly. -/
theorem str2int_take_two {s : List UInt8} (h : AllDigits (s.take 2)) :
    str2int (s.take 2) = digitsValue (s.take 2) :=
  str2int_of_short h ((List.length_take_le 2 s).trans (by decide))

/-- The seconds of a time, with their fraction. -/
theorem IsTime.seconds (h : IsTime time) : IsDecimal 2 (time.drop 4) := by
  refine ⟨?_, h.allDigits.2.2, ?_⟩
  · have hlen := h.1
    rw [List.length_drop]
    omega
  · rw [List.drop_drop, List.drop_drop]
    exact h.2.2

/-- The calendar counts the seconds of a day one by one. -/
theorem timegmExact_tmSec (tm : Tm) (seconds : Int) :
    timegmExact { tm with tmSec := seconds } =
      timegmExact { tm with tmSec := 0 } + seconds := by
  simp only [timegmExact]
  ring

/-- Whole milliseconds of a decimal number of seconds. -/
theorem floor_seconds (whole fraction : List UInt8) :
    ⌊(digitsValue (whole ++ fraction) : ℚ) / 10 ^ fraction.length * 1000⌋ =
      digitsValue whole * 1000 + ((digitsValue fraction * 1000 / 10 ^ fraction.length : Nat) : Int) := by
  have hpow : 0 < 10 ^ fraction.length := Nat.pow_pos (by decide)
  have hquot : (digitsValue (whole ++ fraction) : ℚ) / 10 ^ fraction.length * 1000 =
      ((digitsValue (whole ++ fraction) * 1000 : Nat) : ℚ) / ((10 ^ fraction.length : Nat) : ℚ) := by
    push_cast
    ring
  -- the whole seconds come out of the division
  have hsplit : digitsValue (whole ++ fraction) * 1000 =
      digitsValue fraction * 1000 + 10 ^ fraction.length * (digitsValue whole * 1000) := by
    rw [digitsValue_append]
    ring
  rw [hquot, Rat.floor_natCast_div_natCast, ← Int.natCast_ediv, hsplit,
    Nat.add_mul_div_left _ _ hpow]
  push_cast
  ring

/-- Seconds of sixteen bytes and more are read as zero. -/
theorem trunc_seconds (h : IsTime time) :
    Libc.trunc (Libc.mul (str2float (R := ℚ) (time.drop 4)) (Libc.lit 1000)) =
      if (time.drop 4).length < 16 then
        digitsValue ((time.drop 4).take 2) * 1000 + (millisecondsOf time : Int)
      else 0 := by
  have hmul (x : ℚ) : Libc.mul x (Libc.lit 1000) = x * 1000 := rfl
  rw [hmul, str2float]
  by_cases hshort : (time.drop 4).length < 16
  · -- the seconds are two digits and the fraction
    have hseconds : Libc.strtod (R := ℚ) (time.drop 4) =
        digitsValue ((time.drop 4).take 2 ++ time.drop 7) / 10 ^ (time.drop 7).length := by
      have hdecimal := strtodExact_decimal h.seconds
      rwa [List.drop_drop] at hdecimal
    rw [if_neg (Nat.not_le_of_lt hshort), if_pos hshort, hseconds, trunc_of_nonneg (by positivity),
      floor_seconds]
    rfl
  · -- too long for the buffer of `str2float`
    have hzero : Libc.lit (R := ℚ) 0 * 1000 = 0 := zero_mul 1000
    rw [if_pos (Nat.le_of_not_lt hshort), if_neg hshort, hzero, trunc_of_nonneg le_rfl,
      Int.floor_zero]

/-- The instant that is computed is the one of the time exactly when the seconds are read. -/
theorem fixTime_eq_iff (date : Int × Int × Int) (h : IsTime time) :
    fixTime ℚ date time = utcInstant date time ↔ SecondsRead time := by
  -- the calendar conversion is made at second 0, and the seconds are added
  have hcalendar := timegmExact_tmSec
    { tmHour := digitsValue (time.take 2), tmMin := digitsValue ((time.drop 2).take 2), tmSec := 0
      tmYear := date.1 - 1900, tmMon := date.2.1 - 1, tmMday := date.2.2 }
    (digitsValue ((time.drop 4).take 2))
  have htimegm (tm : Tm) : Libc.timegm64 ℚ tm = timegmExact tm := rfl
  rw [utcInstant, hcalendar, fixTime, htimegm, str2int_take_two h.allDigits.1,
    str2int_take_two h.allDigits.2.1, trunc_seconds h, SecondsRead]
  split
  · rename_i hshort
    simp only [hshort, true_or, iff_true]
    ring
  · rename_i hlong
    -- read as 0: right only if there are none
    simp only [hlong, false_or]
    omega

end Time

/-! ## §4 The Timestamp of a Branch -/

/-- An accepted date is the one the time counts on. -/
theorem timestamp_nmeaReaderUpdateDate {R : Type} [Libc R] {date time : Token}
    (hdate : DateAccepted date) (htime : 6 ≤ time.len) (r : NmeaReader R) :
    ((nmeaReaderUpdateDate date time).exec r).fix.timestamp =
      fixTime R (readDate date.text) time.text := by
  -- the date just stored is used, since its year is not negative
  have hyear : ¬(readDate date.text).1 < 0 := fun h => hdate.2 (.inr (.inr h))
  have hdated : (r.withDate (readDate date.text)).dated = r.withDate (readDate date.text) :=
    if_neg hyear
  rw [exec_nmeaReaderUpdateDate, if_pos hdate, exec_nmeaReaderUpdateTime,
    if_neg (Nat.not_lt_of_le htime), hdated]
  rfl

section Branches

variable {line : List UInt8}

/-- A date of six digits is accepted. -/
theorem IsRmcFix.dateAccepted (h : IsRmcFix line) :
    DateAccepted (nmeaTokenizerGet (nmeaTokenizerInit line) 9) := by
  obtain ⟨hlen, hdigits⟩ := h.2.2.2
  rw [dateAccepted_iff, len_nmeaTokenizerGet line (by decide),
    text_nmeaTokenizerGet line (by decide)]
  exact ⟨hlen, fun b hb => hdigits b (List.mem_of_mem_take hb)⟩

/-- The RMC branch stores the time of the sentence. -/
theorem IsRmcFix.timestamp (h : IsRmcFix line) (r : NmeaReader ℚ) :
    ((nmeaReaderBranch line).exec r).fix.timestamp =
      fixTime ℚ (readDate (field (nmeaBody line) 9)) (field (nmeaBody line) 1) := by
  have htime : 6 ≤ (nmeaTokenizerGet (nmeaTokenizerInit line) 1).len := by
    rw [len_nmeaTokenizerGet line (by decide)]
    exact h.2.2.1.1
  have hstored := timestamp_nmeaReaderUpdateDate h.dateAccepted htime r
  rw [text_nmeaTokenizerGet line (by decide), text_nmeaTokenizerGet line (by decide)] at hstored
  rw [nmeaReaderBranch_rmc h.1.1, exec_nmeaReaderParseRmc, if_pos h.1.2, fix_storeFields,
    timestamp_store]
  exact hstored

/-- The GLL branch leaves the timestamp as it is. -/
theorem timestamp_of_isValidGll (h : IsValidGll line) (r : NmeaReader ℚ) :
    ((nmeaReaderBranch line).exec r).fix.timestamp = r.fix.timestamp := by
  rw [nmeaReaderBranch_gll h.1, exec_nmeaReaderParseGll, if_pos h.2]
  rfl

/-- What is posted from here is posted when a fix is due. -/
theorem emits_atFix_iff_of_asksForFix {Q : NmeaReader ℚ → Prop} {r : NmeaReader ℚ}
    (hasks : AsksForFix line) (hcallback : r.callback) :
    (nmeaReaderParseLine line).Emits (AtFix Q) r ↔
      (r.fix.flags ||| (acceptedBy (R := ℚ) line).flags ≠ 0 →
        Q ((nmeaReaderBranch line).exec r)) := by
  -- a sentence that is recognised is long enough for `nmea_reader_parse`
  have hlong : LongEnough line := hasks.elim (fun h => h.1.1) fun h => h.1.1
  rw [emits_atFix_nmeaReaderParseLine, fixDue_nmeaReaderBranch_iff hcallback]
  simp only [hlong, hasks, or_true, and_true, true_implies]

/-- **Step lemma**: one sentence posts its own time, or nothing, exactly when its time is in
order. -/
theorem postsOwnTime_iff {s : DateHistory} (hcallback : s.reader.callback) :
    PostsOwnTime s line ↔ TimeInOrder s line := by
  unfold PostsOwnTime TimeInOrder
  by_cases hgll : IsGllFix line
  · -- a GLL sentence accepts no date and keeps the timestamp
    have hnotRmc : ¬IsValidRmc line := fun h => hgll.1.1.ne (by decide) h.1
    have hnotFix : ¬IsRmcFix line := fun h => hnotRmc h.1
    have hafter : s.dateAfter line = s.lastDate := by
      rw [DateHistory.dateAfter, acceptedDate, if_neg fun h => hnotRmc h.1, Option.none_or]
    simp only [hgll, hnotFix, or_false, true_implies, false_implies, and_true, hafter, ownTime,
      hnotRmc, if_false, emits_atFix_iff_of_asksForFix (.inl hgll.1) hcallback,
      timestamp_of_isValidGll hgll.1]
    exact ⟨fun h hflags date hdate => h date hdate hflags,
      fun h date hdate hflags => h hflags date hdate⟩
  by_cases hrmc : IsRmcFix line
  · -- an RMC sentence is on its own date
    have hafter : s.dateAfter line = some (readDate (field (nmeaBody line) 9)) := by
      rw [DateHistory.dateAfter, acceptedDate, if_pos ⟨hrmc.1, hrmc.dateAccepted⟩,
        Option.some_or]
    simp only [hgll, hrmc, or_true, true_implies, false_implies, true_and, hafter, ownTime, hrmc.1,
      if_true, emits_atFix_iff_of_asksForFix (.inr hrmc.1) hcallback, hrmc.timestamp,
      Option.mem_some_iff, forall_eq', fixTime_eq_iff _ hrmc.2.2.1]
  · simp [hgll, hrmc]

end Branches

/-- **Own times**: with a callback installed, every fix that a position sentence causes to be
posted in a run has the time of that sentence on the date last accepted, exactly when every GLL
sentence repeats the time stored already and the seconds of every RMC sentence are read. -/
theorem own_time_iff (r : NmeaReader ℚ) (hcallback : r.callback) (sentences : List (List UInt8)) :
    dateMachine.AllSteps PostsOwnTime ⟨r, none⟩ sentences ↔
      dateMachine.AllSteps TimeInOrder ⟨r, none⟩ sentences := by
  refine dateMachine.allSteps_iff (I := fun s => s.reader.callback)
    (fun s line hs => postsOwnTime_iff hs) (fun s line t hs _ hstep => ?_) hcallback sentences
  cases hstep
  exact (callback_nmeaReaderParseLine line s.reader).trans hs

/-- Two sentences about one moment. -/
theorem own_time_repeated :
    dateMachine.AllSteps PostsOwnTime ⟨readerAfterInit ⟨true, true, true⟩, none⟩
      [bytes "$GPRMC,225444.25,A,4916.45,N,12311.12,W,,,230309\n",
        bytes "$GPGLL,4916.45,N,12311.12,W,225444.25,A\n"] :=
  (own_time_iff _ (by decide +kernel) _).mpr (by decide +kernel)

/-- Five seconds later, and still the time of the RMC sentence. -/
theorem gll_time_is_ignored :
    ¬dateMachine.AllSteps PostsOwnTime ⟨readerAfterInit ⟨true, true, true⟩, none⟩
      [bytes "$GPRMC,225444,A,4916.45,N,12311.12,W,,,230309\n",
        bytes "$GPGLL,4916.45,N,12311.12,W,225449,A\n"] := by
  intro h
  have horder := (postsOwnTime_iff (by decide +kernel)).mp (h.2 _ rfl).1
  revert horder
  decide +kernel

end OdroidU2.Gps
