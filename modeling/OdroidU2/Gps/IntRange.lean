import OdroidU2.Gps.Numbers

/-!
# Integers in Range

`str2int` multiplies its accumulator once for every digit and never tests it, so a long
string of digits leaves the 32-bit range.  What is read is the number, and every sum on the
way is in range, exactly when the digits in front of the first other byte denote a number
below 2³¹; in particular, ten digits are enough to read as a small positive number.

- `sums_inRange_iff` — the sums stay in range exactly when the leading digits do
- `reads_exactly_iff` — when `str2int` reads what the string denotes
-/

namespace OdroidU2.Gps

open OdroidU2.Foundations

/-! ## §1 The Sums of the Loop -/

/-- The exact values of `result * 10 + c`, one for each iteration that gets there. -/
def str2intSums : Int → List UInt8 → List Int
  | _, [] => []
  | result, b :: rest =>
    let c : Int := (b.toNat : Int) - 48
    if 0 ≤ c ∧ c < 10 then (result * 10 + c) :: str2intSums (int32 (result * 10 + c)) rest else []

/-- A value of the signed 32-bit range. -/
def InRange (x : Int) : Prop := -2 ^ 31 ≤ x ∧ x < 2 ^ 31

instance : DecidablePred InRange := fun _ => inferInstanceAs (Decidable (_ ∧ _))

/-- What `str2int` should do: read a number that fits, report anything else as an error, and
stay in range on the way. -/
def ReadsExactly (s : List UInt8) : Prop :=
  str2int s = (if AllDigits s ∧ digitsValue s < 2 ^ 31 then (digitsValue s : Int) else -1) ∧
    ∀ x ∈ str2intSums 0 s, InRange x

/-- Digits behind a number make it no smaller. -/
theorem le_digitsFrom (n : Nat) (s : List UInt8) : n ≤ digitsFrom n s := by
  rw [digitsFrom_eq]
  exact (Nat.le_mul_of_pos_right n (by positivity)).trans (Nat.le_add_right _ _)

/-- The sums stay in range exactly when the number the leading digits denote does. -/
theorem sums_inRange_iff {n : Nat} (hn : n < 2 ^ 31) (s : List UInt8) :
    (∀ x ∈ str2intSums n s, InRange x) ↔ digitsFrom n (s.takeWhile isDigit) < 2 ^ 31 := by
  induction s generalizing n with
  | nil => exact iff_of_true nofun hn
  | cons b s ih =>
    rw [str2intSums]
    by_cases hb : isDigit b
    · have hc := (isDigit_iff b).mp hb
      have hcast : (n : Int) * 10 + ((b.toNat : Int) - 48) =
          ((n * 10 + (b.toNat - 48) : Nat) : Int) := by omega
      rw [if_pos hc, List.takeWhile_cons_of_pos hb, digitsFrom_cons, List.forall_mem_cons, hcast]
      by_cases hsum : n * 10 + (b.toNat - 48) < 2 ^ 31
      · -- the sum fits: the accumulator holds it, and the rest of the loop decides
        have hin : InRange ((n * 10 + (b.toNat - 48) : Nat) : Int) := ⟨by omega, by omega⟩
        rw [int32_of_range hin.1 hin.2, ih hsum, and_iff_right hin]
      · -- the sum is too large, and no digit that follows makes it smaller
        refine iff_of_false (fun h => hsum ?_) fun h => hsum (lt_of_le_of_lt (le_digitsFrom _ _) h)
        have hlt := h.1.2
        omega
    · rw [if_neg fun hc => hb ((isDigit_iff b).mpr hc), List.takeWhile_cons_of_neg hb]
      exact iff_of_true nofun hn

/-! ## §2 What `str2int` Reads -/

/-- `str2int` reads what the string denotes, without an overflow on the way, exactly when the
digits in front of the first other byte denote a number below 2³¹. -/
theorem reads_exactly_iff (s : List UInt8) :
    ReadsExactly s ↔ digitsValue (s.takeWhile isDigit) < 2 ^ 31 := by
  have hsums := sums_inRange_iff (n := 0) (by decide) s
  rw [digitsFrom_zero] at hsums
  unfold ReadsExactly
  rw [← hsums]
  refine and_iff_right_of_imp fun hin => ?_
  have hprefix := hsums.mp hin
  rw [str2int_eq]
  -- a byte that is no digit makes `str2int` return -1, but only once the loop has come to it
  by_cases hs : AllDigits s
  · rw [takeWhile_of_allDigits hs] at hprefix
    rw [if_pos hs, if_pos ⟨hs, hprefix⟩]
    exact int32_of_range (by omega) (by exact_mod_cast hprefix)
  · rw [if_neg hs, if_neg fun h => hs h.1]

/-- Ten digits that read as one: the accumulator has wrapped. -/
theorem ten_digits_read_as_one :
    str2int (bytes "4294967297") = 1 ∧ ¬ReadsExactly (bytes "4294967297") := by
  have hone : str2int (bytes "4294967297") = 1 := by decide
  refine ⟨hone, fun h => ?_⟩
  have hvalue : digitsValue (bytes "4294967297") = 4294967297 := rfl
  have hspec := h.1
  -- the value does not fit, so -1 is asked for
  rw [hone, hvalue, if_neg fun hfits => absurd hfits.2 (by decide)] at hspec
  exact absurd hspec (by decide)

end OdroidU2.Gps
