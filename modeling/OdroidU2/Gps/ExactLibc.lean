import Mathlib
import OdroidU2.Gps.Types

/-!
# Exact Arithmetic for the Reader

The instance of `Libc` that computes without rounding: a `double` is a rational number,
`strtod` reads the decimal notation of the sentences, and `timegm64` is the proleptic
Gregorian calendar.
-/

namespace OdroidU2.Gps

open OdroidU2.Foundations

/-! ## §1 Decimal Notation -/

/-- Is this byte a decimal digit? -/
def isDigit (b : UInt8) : Bool := byte '0' ≤ b && b ≤ byte '9'

/-- The number a string of digits denotes. -/
def digitsValue (s : List UInt8) : Nat :=
  s.foldl (fun n b => n * 10 + (b.toNat - 48)) 0

/-- A leading sign, and what follows it. -/
def takeSign (s : List UInt8) : Bool × List UInt8 :=
  if s.head? = some (byte '-') then (true, s.tail)
  else if s.head? = some (byte '+') then (false, s.tail)
  else (false, s)

/-- A decimal exponent, `0` when there is none. -/
def takeExponent (s : List UInt8) : Int :=
  if s.head? = some (byte 'e') ∨ s.head? = some (byte 'E') then
    let (negative, rest) := takeSign s.tail
    let value : Int := digitsValue (rest.takeWhile isDigit)
    if negative then -value else value
  else 0

/-- `strtod` on decimal notation: the longest prefix that is a number. -/
def strtodExact (s : List UInt8) : ℚ :=
  let (negative, s) := takeSign (s.dropWhile (· = byte ' '))
  let whole := s.takeWhile isDigit
  let rest := s.dropWhile isDigit
  let dot := rest.head? = some (byte '.')
  let fraction := if dot then rest.tail.takeWhile isDigit else []
  if whole = [] ∧ fraction = [] then 0
  else
    let mantissa : ℚ := digitsValue (whole ++ fraction) / 10 ^ fraction.length
    let exponent := takeExponent (if dot then rest.tail.dropWhile isDigit else rest)
    let value := mantissa * 10 ^ exponent
    if negative then -value else value

/-! ## §2 The Calendar -/

/-- Days from 1 January 1970 to the first day of a month of the proleptic Gregorian
calendar, with years counted from March. -/
def daysToMonth (year month : Int) : Int :=
  let y := if month ≤ 2 then year - 1 else year
  let m := if month ≤ 2 then month + 9 else month - 3
  365 * y + y.fdiv 4 - y.fdiv 100 + y.fdiv 400 + (153 * m + 2).fdiv 5 - 719468

/-- `timegm64` in exact arithmetic; a month outside the year carries over. -/
def timegmExact (tm : Tm) : Int :=
  let year := tm.tmYear + 1900 + tm.tmMon.fdiv 12
  let days := daysToMonth year (tm.tmMon.fmod 12 + 1) + (tm.tmMday - 1)
  ((days * 24 + tm.tmHour) * 60 + tm.tmMin) * 60 + tm.tmSec

/-- Exact arithmetic over the rationals, with the clock at the epoch. -/
instance exactLibc : Libc ℚ where
  lit := id
  ofInt n := n
  add := (· + ·)
  sub := (· - ·)
  mul := (· * ·)
  div := (· / ·)
  neg := (- ·)
  floor x := ⌊x⌋
  trunc x := if 0 ≤ x then ⌊x⌋ else ⌈x⌉
  narrow := id
  eq x y := decide (x = y)
  strtod := strtodExact
  timegm64 := timegmExact
  gmtimeNow := { tmYear := 70, tmMon := 0, tmMday := 1, tmHour := 0, tmMin := 0, tmSec := 0 }

/-- The conversion to an integer drops the fraction of a number that is not negative. -/
theorem trunc_of_nonneg {x : ℚ} (hx : 0 ≤ x) : Libc.trunc x = ⌊x⌋ := if_pos hx

end OdroidU2.Gps
