import Mathlib
import OdroidU2.Gps.ExactLibc
import OdroidU2.Gps.Reader

/-!
# Numbers in Sentences

What `str2int` reads: the value of a string of digits in a 32-bit `int`, and -1 for any
other string.  What `strtod` reads: the value of a decimal.

- `str2int_eq` — both cases
- `str2int_of_short` — strings of up to nine digits are read exactly
- `strtodExact_decimal` — digits with a point are read as a fraction over a power of ten
-/

namespace OdroidU2.Gps

open OdroidU2.Foundations

/-! ## §1 Integers -/

/-- Nothing but decimal digits. -/
def AllDigits (s : List UInt8) : Prop := ∀ b ∈ s, isDigit b

instance (s : List UInt8) : Decidable (AllDigits s) := by unfold AllDigits; infer_instance

@[simp] theorem allDigits_nil : AllDigits [] := nofun

@[simp] theorem allDigits_cons (b : UInt8) (s : List UInt8) :
    AllDigits (b :: s) ↔ isDigit b ∧ AllDigits s := List.forall_mem_cons

@[simp] theorem allDigits_append (s t : List UInt8) :
    AllDigits (s ++ t) ↔ AllDigits s ∧ AllDigits t := by
  simp only [AllDigits, List.mem_append, or_imp, forall_and]

/-- The test of `str2int` is that for a digit. -/
theorem isDigit_iff (b : UInt8) :
    isDigit b ↔ 0 ≤ (b.toNat : Int) - 48 ∧ (b.toNat : Int) - 48 < 10 := by
  have hlo : (byte '0').toNat = 48 := by decide
  have hhi : (byte '9').toNat = 57 := by decide
  simp only [isDigit, Bool.and_eq_true, decide_eq_true_eq, UInt8.le_iff_toNat_le, hlo, hhi]
  omega

/-- The number a string of digits denotes behind the digits of `n`. -/
def digitsFrom (n : Nat) (s : List UInt8) : Nat := s.foldl (fun n b => n * 10 + (b.toNat - 48)) n

theorem digitsFrom_zero (s : List UInt8) : digitsFrom 0 s = digitsValue s := rfl

theorem digitsFrom_cons (n : Nat) (b : UInt8) (s : List UInt8) :
    digitsFrom n (b :: s) = digitsFrom (n * 10 + (b.toNat - 48)) s := by
  unfold digitsFrom
  rw [List.foldl_cons]

theorem digitsFrom_lt {n : Nat} {s : List UInt8} (hs : AllDigits s) :
    digitsFrom n s < (n + 1) * 10 ^ s.length := by
  induction s generalizing n with
  | nil => simp [digitsFrom]
  | cons b s ih =>
    rw [allDigits_cons, isDigit_iff] at hs
    -- a digit is at most 9
    have hstep : n * 10 + (b.toNat - 48) + 1 ≤ (n + 1) * 10 := by omega
    calc digitsFrom n (b :: s) = digitsFrom (n * 10 + (b.toNat - 48)) s := digitsFrom_cons n b s
      _ < (n * 10 + (b.toNat - 48) + 1) * 10 ^ s.length := ih hs.2
      _ ≤ (n + 1) * 10 * 10 ^ s.length := Nat.mul_le_mul_right _ hstep
      _ = (n + 1) * 10 ^ (s.length + 1) := by rw [Nat.pow_succ]; ring

theorem digitsValue_lt {s : List UInt8} (hs : AllDigits s) : digitsValue s < 10 ^ s.length := by
  simpa [digitsFrom_zero] using digitsFrom_lt (n := 0) hs

/-- The digits in front count by how many follow. -/
theorem digitsFrom_eq (n : Nat) (s : List UInt8) :
    digitsFrom n s = n * 10 ^ s.length + digitsValue s := by
  induction s generalizing n with
  | nil => simp [digitsFrom, digitsValue]
  | cons b s ih =>
    rw [digitsFrom_cons, ih, ← digitsFrom_zero (b :: s), digitsFrom_cons, ih, List.length_cons]
    ring

theorem digitsValue_append (s t : List UInt8) :
    digitsValue (s ++ t) = digitsValue s * 10 ^ t.length + digitsValue t := by
  rw [← digitsFrom_eq, digitsValue, List.foldl_append]
  rfl

/-- One digit more, in a register that wraps. -/
theorem int32_digit (a c : Int) : int32 (int32 a * 10 + c) = int32 (a * 10 + c) := by
  rw [int32, int32, int32, ← Int.bmod_add_bmod, Int.bmod_mul_bmod, Int.bmod_add_bmod]

theorem str2intLoop_of_digits {n : Nat} {s : List UInt8} (hs : AllDigits s) :
    str2intLoop (int32 n) s = int32 (digitsFrom n s) := by
  induction s generalizing n with
  | nil => rfl
  | cons b s ih =>
    rw [allDigits_cons] at hs
    have hb := (isDigit_iff b).mp hs.1
    -- a digit's value is not negative, so the number stays a natural one
    have hcast : (n : Int) * 10 + ((b.toNat : Int) - 48) = ((n * 10 + (b.toNat - 48) : Nat) : Int) := by
      omega
    rw [str2intLoop, if_pos hb, int32_digit, hcast, ih hs.2, digitsFrom_cons]

theorem str2intLoop_of_not_digits {n : Int} {s : List UInt8} (hs : ¬AllDigits s) :
    str2intLoop n s = -1 := by
  induction s generalizing n with
  | nil => exact absurd allDigits_nil hs
  | cons b s ih =>
    rw [allDigits_cons, isDigit_iff] at hs
    rw [str2intLoop]
    -- this byte is a digit and the fault comes later, or it is the fault
    split
    · rename_i hb
      exact ih fun h => hs ⟨hb, h⟩
    · rfl

/-- **`str2int`**: digits are read into a 32-bit register, anything else is an error. -/
theorem str2int_eq (s : List UInt8) :
    str2int s = if AllDigits s then int32 (digitsValue s) else -1 := by
  split
  · rename_i hs
    rw [str2int, ← digitsFrom_zero, ← str2intLoop_of_digits hs]
    rfl
  · rename_i hs
    exact str2intLoop_of_not_digits hs

/-- Up to nine digits fit into the register. -/
theorem str2int_of_short {s : List UInt8} (hs : AllDigits s) (hlen : s.length ≤ 9) :
    str2int s = digitsValue s := by
  have hlt := digitsValue_lt hs
  have hpow : 10 ^ s.length ≤ 10 ^ 9 := Nat.pow_le_pow_right (by decide) hlen
  rw [str2int_eq, if_pos hs]
  exact int32_of_range (by omega) (by omega)

/-- A short string is an error exactly when something in it is not a digit. -/
theorem str2int_neg_iff {s : List UInt8} (hlen : s.length ≤ 9) : str2int s < 0 ↔ ¬AllDigits s := by
  constructor
  · intro hneg hs
    rw [str2int_of_short hs hlen] at hneg
    omega
  · intro hs
    rw [str2int_eq, if_neg hs]
    decide

/-! ## §2 Decimals -/

/-- Exactly `n` digits, and perhaps a point with a fraction. -/
def IsDecimal (n : Nat) (s : List UInt8) : Prop :=
  n ≤ s.length ∧ AllDigits (s.take n) ∧
    (s.drop n = [] ∨ (s.drop n).head? = some (byte '.') ∧ AllDigits (s.drop (n + 1)))

instance (n : Nat) (s : List UInt8) : Decidable (IsDecimal n s) := by
  unfold IsDecimal
  infer_instance

section Decimal

variable {n : Nat} {s : List UInt8}

/-- Behind the whole digits there is nothing, or the point. -/
theorem IsDecimal.head?_drop (h : IsDecimal n s) : ∀ b ∈ (s.drop n).head?, ¬isDigit b := by
  intro b hb
  -- after the whole part comes the end or the point
  rcases h.2.2 with hnil | ⟨hpoint, -⟩
  · rw [hnil] at hb
    cases hb
  · rw [hpoint] at hb
    cases hb
    decide

theorem takeWhile_eq_nil {t : List UInt8} (h : ∀ b ∈ t.head?, ¬isDigit b) :
    t.takeWhile isDigit = [] := by
  cases t with
  | nil => rfl
  | cons b t => exact List.takeWhile_cons_of_neg (h b rfl)

theorem IsDecimal.takeWhile_eq (h : IsDecimal n s) : s.takeWhile isDigit = s.take n := by
  conv_lhs => rw [← List.take_append_drop n s]
  rw [List.takeWhile_append_of_pos h.2.1, takeWhile_eq_nil h.head?_drop, List.append_nil]

theorem IsDecimal.dropWhile_eq (h : IsDecimal n s) : s.dropWhile isDigit = s.drop n := by
  have hsplit := List.takeWhile_append_dropWhile (p := isDigit) (l := s)
  rw [h.takeWhile_eq] at hsplit
  exact List.append_cancel_left (hsplit.trans (List.take_append_drop n s).symm)

theorem takeWhile_of_allDigits (h : AllDigits s) : s.takeWhile isDigit = s :=
  List.takeWhile_eq_self_iff.mpr h

theorem dropWhile_of_allDigits (h : AllDigits s) : s.dropWhile isDigit = [] :=
  List.dropWhile_eq_nil_iff.mpr h

/-- A numeral begins with no blank and no sign. -/
theorem IsDecimal.takeSign_eq (h : IsDecimal n s) :
    takeSign (s.dropWhile (· = byte ' ')) = (false, s) := by
  cases s with
  | nil => rfl
  | cons b rest =>
    -- it begins with a digit or with the point
    have hb : isDigit b ∨ b = byte '.' := by
      cases n with
      | zero =>
        rcases h.2.2 with hnil | ⟨hpoint, -⟩
        · cases hnil
        · exact .inr (Option.some.inj hpoint)
      | succ n => exact .inl (h.2.1 b (by simp))
    have hne (c : UInt8) (hc : ¬isDigit c) (hc' : c ≠ byte '.') : b ≠ c := by
      rintro rfl
      exact hb.elim hc hc'
    have hblank := hne (byte ' ') (by decide) (by decide)
    have hminus := hne (byte '-') (by decide) (by decide)
    have hplus := hne (byte '+') (by decide) (by decide)
    simp [takeSign, hblank, hminus, hplus]

/-- **`strtod`** on a decimal: the digits, with the point taken out, over a power of ten. -/
theorem strtodExact_decimal (h : IsDecimal n s) :
    strtodExact s =
      digitsValue (s.take n ++ s.drop (n + 1)) / 10 ^ (s.drop (n + 1)).length := by
  simp only [strtodExact, h.takeSign_eq, h.takeWhile_eq, h.dropWhile_eq]
  rcases h.2.2 with hnil | ⟨hpoint, hdigits⟩
  · -- no fraction
    have hnil' : s.drop (n + 1) = [] := by
      rw [← List.drop_drop, hnil, List.drop_nil]
    by_cases hwhole : s.take n = []
    · simp [hnil, hnil', hwhole, digitsValue]
    · simp [hnil, hnil', hwhole, takeExponent]
  · -- the digits behind the point
    have htail : (s.drop n).tail = s.drop (n + 1) := List.tail_drop
    rw [hpoint, htail, takeWhile_of_allDigits hdigits, dropWhile_of_allDigits hdigits]
    by_cases hnone : s.take n = [] ∧ s.drop (n + 1) = []
    · -- the point alone
      simp [hnone.1, hnone.2, digitsValue]
    · rw [if_pos rfl, if_neg hnone]
      simp [takeExponent]

end Decimal

end OdroidU2.Gps
