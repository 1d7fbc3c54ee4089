import Mathlib
import OdroidU2.Foundations.Machine
import OdroidU2.Gps.FixFields

/-!
# What a Posted Fix Holds

Flags accumulate over sentences until a fix is posted, which clears them.  So a posted fix has
the fields of all sentences since the last post, and of each field the latest value.

An accuracy of 99.99 is meant to be stored without its flag.  It never is: the accuracy is a
`float`, and the comparison is with a `double`.

- `posted_fields_since` — the law for every run of sentences
- `floatsRound_rounded` — no `float` is 99.99
-/

namespace OdroidU2.Gps

open OdroidU2.Foundations Prog

variable {R : Type} [Libc R]

/-! ## §1 Histories -/

/-- A reader, and the sentences it has been given since it last posted a fix. -/
structure FixHistory (R : Type) where
  reader : NmeaReader R
  since : List (List UInt8)

/-- One sentence more. -/
def FixHistory.next (s : FixHistory R) (line : List UInt8) : FixHistory R where
  reader := (nmeaReaderParseLine line).exec s.reader
  since :=
    if .locationCb ∈ postedBy (nmeaReaderParseLine line) s.reader then [] else s.since ++ [line]

/-- Sentences given to `nmea_reader_parse`, with the history of the fix. -/
def fixMachine : Machine (FixHistory R) (List UInt8) := ⟨fun s line => some (s.next line)⟩

/-- The fields accepted from some sentences, each with its latest value. -/
def fieldsOf (lines : List (List UInt8)) : FixFields R :=
  lines.foldl (fun f line => (acceptedBy line).orElse f) {}

theorem fieldsOf_concat (lines : List (List UInt8)) (line : List UInt8) :
    fieldsOf (R := R) (lines ++ [line]) = (acceptedBy line).orElse (fieldsOf lines) := by
  simp [fieldsOf]

/-- When a fix is posted it holds the fields accepted since the last post, and no others. -/
def PostsFieldsSince (s : FixHistory R) (line : List UInt8) : Prop :=
  (nmeaReaderParseLine line).Emits (AtFix fun t => t.fix.Holds (fieldsOf (s.since ++ [line])))
    s.reader

/-! ## §2 The Invariant -/

/-- Between sentences the fix holds what has been accepted since the last post. -/
structure FixKnown (s : FixHistory R) : Prop where
  holds : s.reader.fix.Holds (fieldsOf s.since)
  callback : s.reader.callback

section Step

variable {s : FixHistory R} {line : List UInt8}

/-- The branch adds what the line sets. -/
theorem FixKnown.branch (h : FixKnown s) (hround : FloatsRound R) (line : List UInt8) :
    ((nmeaReaderBranch line).exec s.reader).fix.Holds (fieldsOf (s.since ++ [line])) := by
  obtain ⟨accuracy, timestamp, hfix, haccuracy⟩ := fix_nmeaReaderBranch line s.reader
  rw [hfix, haccuracy hround, fieldsOf_concat]
  exact h.holds.store (acceptedBy line) timestamp

/-- **Step lemma**: after a sentence the fix is known again. -/
theorem FixKnown.next (h : FixKnown s) (hround : FloatsRound R) (line : List UInt8) :
    FixKnown (s.next line) := by
  refine ⟨?_, (callback_nmeaReaderParseLine line s.reader).trans h.callback⟩
  simp only [FixHistory.next, locationCb_mem_postedBy, fix_nmeaReaderParseLine]
  split
  · -- posted: the flags are cleared, and the history starts over
    exact holds_none rfl
  · exact h.branch hround line

/-- A posted fix holds what the branch has left. -/
theorem FixKnown.postsFieldsSince (h : FixKnown s) (hround : FloatsRound R) (line : List UInt8) :
    PostsFieldsSince s line :=
  (emits_atFix_nmeaReaderParseLine line s.reader).mpr fun _ _ => h.branch hround line

end Step

/-- **Posted fixes**: with a location callback installed from the start, every fix that is posted
has exactly the flags of the fields accepted since the last post or the start, and of each the
value of the latest sentence that set it. -/
theorem posted_fields_since (hround : FloatsRound R) (cbs : GpsCallbacks)
    (hcallback : cbs.locationCb) (sentences : List (List UInt8)) :
    fixMachine.AllSteps PostsFieldsSince ⟨readerAfterInit (R := R) cbs, []⟩ sentences := by
  -- at the start nothing is flagged
  have hstart : FixKnown (R := R) ⟨readerAfterInit cbs, []⟩ := by
    rw [exec_readerAfterInit]
    exact ⟨holds_none rfl, hcallback⟩
  have hiff := fixMachine.allSteps_iff (I := FixKnown (R := R)) (C := fun _ _ => True)
    (P := PostsFieldsSince)
    (fun s line hs => iff_of_true (hs.postsFieldsSince hround line) trivial)
    (fun s line t hs _ hstep => by cases hstep; exact hs.next hround line) hstart sentences
  exact hiff.mpr (fixMachine.allSteps_of_forall (C := fun _ => True) fun _ _ => trivial)

/-! ## §3 Floats -/

/-- The nearest integer, the even one of two that are as near. -/
def roundEven (q : ℚ) : ℤ :=
  if q - ⌊q⌋ < 1 / 2 then ⌊q⌋
  else if 1 / 2 < q - ⌊q⌋ then ⌊q⌋ + 1
  else if ⌊q⌋ % 2 = 0 then ⌊q⌋ else ⌊q⌋ + 1

/-- The nearest `float`: 24 significant bits, in the range of normal numbers. -/
def nearestFloat (x : ℚ) : ℚ :=
  roundEven (x / 2 ^ (Int.log 2 |x| - 23)) * 2 ^ (Int.log 2 |x| - 23)

/-- Rational numbers whose conversion to `float` rounds. -/
def Rounded : Type := ℚ

instance : Libc Rounded where
  lit := exactLibc.lit
  ofInt := exactLibc.ofInt
  add := exactLibc.add
  sub := exactLibc.sub
  mul := exactLibc.mul
  div := exactLibc.div
  neg := exactLibc.neg
  floor := exactLibc.floor
  trunc := exactLibc.trunc
  narrow := nearestFloat
  eq := exactLibc.eq
  strtod := exactLibc.strtod
  timegm64 := exactLibc.timegm64
  gmtimeNow := exactLibc.gmtimeNow

/-- A number with finitely many binary digits is not 99.99. -/
theorem dyadic_ne (n k : ℤ) : (n : ℚ) * 2 ^ k ≠ 9999 / 100 := by
  intro h
  -- a product with a power of two is an integer or a fraction over one
  obtain ⟨m, rfl | rfl⟩ := k.eq_nat_or_neg
  · -- an integer
    rw [zpow_natCast] at h
    have hint : n * 2 ^ m * 100 = 9999 := by
      have hq : (n : ℚ) * 2 ^ m * 100 = 9999 := by rw [h]; norm_num
      exact_mod_cast hq
    omega
  · -- a fraction whose denominator is a power of two: 25 does not divide 9999
    rw [zpow_neg, zpow_natCast] at h
    have hpow : (2 : ℚ) ^ m ≠ 0 := by positivity
    have hint : n * 100 = 9999 * 2 ^ m := by
      have hq : (n : ℚ) * 100 = 9999 * 2 ^ m := by
        field_simp at h
        linarith
      exact_mod_cast hq
    have hdvd : (25 : ℤ) ∣ 9999 * 2 ^ m := ⟨n * 4, by rw [← hint]; ring⟩
    have hcoprime : IsCoprime (25 : ℤ) (2 ^ m) := IsCoprime.pow_right ⟨1, -12, by decide⟩
    have hdvd' : (25 : ℤ) ∣ 9999 := hcoprime.dvd_of_dvd_mul_right hdvd
    omega

theorem floatsRound_rounded : FloatsRound Rounded := by
  intro x h
  exact dyadic_ne _ _ (of_decide_eq_true h)

/-- An altitude, and a position with a speed, in one fix. -/
theorem posted_fields_since_rounded :
    fixMachine.AllSteps PostsFieldsSince
      ⟨readerAfterInit (R := Rounded) ⟨true, true, true⟩, []⟩
      [bytes "$GPGGA,,,,,,1,,,104.0,M\n",
        bytes "$GPRMC,120000,A,4807.038,N,01131.000,E,022.4,,230309\n"] :=
  posted_fields_since floatsRound_rounded _ rfl _

end OdroidU2.Gps
