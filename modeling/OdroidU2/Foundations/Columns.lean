import Mathlib

/-!
# Columns of Text

Lines whose columns are separated by white space, with numbers in some of them, as
Python's `split` and `int` read them.

- `columns` — the runs of characters that are no separators
- `columns_append_cons` — a line is read column by column
- `pyInt_decimal`, `pyInt_octal` — a number that is printed is read back
-/

namespace OdroidU2.Foundations

/-! ## §1 Columns -/

section Columns

variable {α : Type} {p : α → Bool}

/-- The longest runs of elements that are no separators, in order. -/
def columns (p : α → Bool) (l : List α) : List (List α) := (l.splitOnP p).filter fun c => c ≠ []

/-- A separator ends a column. -/
theorem columns_append_cons (l l' : List α) {x : α} (hx : p x = true) :
    columns p (l ++ x :: l') = columns p l ++ columns p l' := by
  rw [columns, List.splitOnP_append_cons l l' hx, List.filter_append]
  rfl

/-- Without separators there is one column. -/
theorem columns_eq_singleton {l : List α} (hne : l ≠ []) (hl : ∀ x ∈ l, p x = false) :
    columns p l = [l] := by
  simp [columns, List.splitOnP_eq_singleton hl, hne]

/-- No column has a separator in it. -/
theorem not_sep_of_mem_columns {l c : List α} (hc : c ∈ columns p l) : ∀ x ∈ c, p x = false := by
  -- `columns` only drops the empty pieces of `splitOnP`, so the fact is about the pieces
  have hsplit : ∀ l : List α, ∀ c ∈ l.splitOnP p, ∀ x ∈ c, p x = false := by
    intro l
    induction l with
    | nil => simp
    | cons a l ih =>
      intro c hc
      rw [List.splitOnP_cons_eq_if_modifyHead] at hc
      split at hc
      · -- a separator opens an empty piece before the ones of the rest
        rcases List.mem_cons.mp hc with rfl | hc
        · exact fun x hx => by cases hx
        · exact ih c hc
      · next ha =>
        -- any other character goes to the front of the first piece
        obtain ⟨first, rest, heq⟩ := List.exists_cons_of_ne_nil (List.splitOnP_ne_nil p l)
        rw [heq] at hc ih
        rcases List.mem_cons.mp hc with rfl | hc
        · intro x hx
          rcases List.mem_cons.mp hx with rfl | hx
          · exact Bool.eq_false_iff.mpr ha
          · exact ih first List.mem_cons_self x hx
        · exact ih c (List.mem_cons_of_mem _ hc)
  exact hsplit l c (List.mem_filter.mp hc).1

/-- A column in front of a separator is read first. -/
theorem columns_cons_column {l l' : List α} {x : α} (hne : l ≠ []) (hl : ∀ x ∈ l, p x = false)
    (hx : p x = true) : columns p (l ++ x :: l') = l :: columns p l' := by
  rw [columns_append_cons l l' hx, columns_eq_singleton hne hl]
  rfl

end Columns

/-! ## §2 Numbers -/

/-- What `str.split` takes for white space. -/
def isSpace (c : Char) : Bool :=
  c = ' ' || c = '\t' || c = '\n' || c = '\r' || c = '\x0b' || c = '\x0c'

/-- Digits of a base up to ten. -/
def parseNat (base : Nat) (s : List Char) : Option Nat :=
  if s ≠ [] ∧ s.all (fun c => c.isDigit && c.toNat - '0'.toNat < base) then
    some (Nat.ofDigitChars base s 0)
  else none

/-- `int(s, base)` for `s` without white space: a sign, and for base 8 the prefix `0o`. -/
def pyInt (base : Nat) (s : List Char) : Option Int :=
  let digits := if s.head? = some '-' ∨ s.head? = some '+' then s.drop 1 else s
  let digits := if base = 8 ∧ (digits.take 2 = ['0', 'o'] ∨ digits.take 2 = ['0', 'O']) then
    digits.drop 2 else digits
  (parseNat base digits).map fun n : Nat => if s.head? = some '-' then -(n : Int) else (n : Int)

/-- `%d` -/
def decimal : Int → List Char
  | .ofNat n => Nat.toDigits 10 n
  | .negSucc n => '-' :: Nat.toDigits 10 (n + 1)

/-- `%o` -/
def octal (n : Nat) : List Char := Nat.toDigits 8 n

/-- A digit of a base is smaller than the base. -/
theorem lt_of_mem_toDigits {b n : Nat} (hb : 1 < b) (hb' : b ≤ 10) {c : Char}
    (hc : c ∈ Nat.toDigits b n) : c.toNat - '0'.toNat < b := by
  -- bases up to ten use the characters '0' to '9' only
  have hdigit (m : Nat) (hm : m < b) : m.digitChar.toNat - '0'.toNat < b := by
    have := Nat.toNat_digitChar_sub_48_of_lt_ten (n := m) (by omega)
    rw [show '0'.toNat = 48 from rfl, this]
    exact hm
  -- the digits are those of `n / b` with that of `n % b` behind them
  induction n using Nat.strongRecOn with
  | ind n ih =>
    rcases Nat.lt_or_ge n b with hn | hn
    · rw [Nat.toDigits_of_lt_base hn, List.mem_singleton] at hc
      rw [hc]
      exact hdigit n hn
    · rw [Nat.toDigits_of_base_le hb hn, List.mem_append, List.mem_singleton] at hc
      rcases hc with hc | hc
      · exact ih (n / b) (Nat.div_lt_self (by omega) hb) hc
      · rw [hc]
        exact hdigit (n % b) (Nat.mod_lt _ (by omega))

theorem parseNat_toDigits {b : Nat} (hb : 1 < b) (hb' : b ≤ 10) (n : Nat) :
    parseNat b (Nat.toDigits b n) = some n := by
  rw [parseNat, if_pos, Nat.ofDigitChars_toDigits hb hb']
  refine ⟨Nat.toDigits_ne_nil, List.all_eq_true.mpr fun c hc => ?_⟩
  rw [Bool.and_eq_true, decide_eq_true_iff]
  exact ⟨Nat.isDigit_of_mem_toDigits (by omega) hb' hc, lt_of_mem_toDigits hb hb' hc⟩

/-- What is printed in digits has no sign, prefix or white space. -/
theorem not_mem_toDigits {b n : Nat} (hb : 1 < b) (hb' : b ≤ 10) {c : Char}
    (hc : c.isDigit = false) : c ∉ Nat.toDigits b n := fun hmem =>
  Bool.noConfusion (hc.symm.trans (Nat.isDigit_of_mem_toDigits (by omega) hb' hmem))

theorem pyInt_toDigits {b : Nat} (hb : 1 < b) (hb' : b ≤ 10) (n : Nat) :
    pyInt b (Nat.toDigits b n) = some (n : Int) := by
  -- no digit string starts with a sign or carries an octal mark, so `int` goes straight to the
  -- digits
  have hhead {c : Char} (hc : c.isDigit = false) : (Nat.toDigits b n).head? ≠ some c := fun h =>
    not_mem_toDigits hb hb' hc (List.mem_of_head? h)
  have htake {c : Char} (hc : c.isDigit = false) : (Nat.toDigits b n).take 2 ≠ ['0', c] := by
    intro h
    have hmem : c ∈ (Nat.toDigits b n).take 2 := by rw [h]; simp
    exact not_mem_toDigits hb hb' hc (List.mem_of_mem_take hmem)
  have hsign : ¬((Nat.toDigits b n).head? = some '-' ∨ (Nat.toDigits b n).head? = some '+') :=
    fun h => h.elim (hhead rfl) (hhead rfl)
  have hoctal : ¬(b = 8 ∧ ((Nat.toDigits b n).take 2 = ['0', 'o'] ∨
      (Nat.toDigits b n).take 2 = ['0', 'O'])) := fun h => h.2.elim (htake rfl) (htake rfl)
  simp only [pyInt, if_neg hsign, if_neg hoctal, parseNat_toDigits hb hb', Option.map_some,
    if_neg (hhead (c := '-') rfl)]

theorem pyInt_octal (n : Nat) : pyInt 8 (octal n) = some (n : Int) :=
  pyInt_toDigits (by decide) (by decide) n

theorem pyInt_decimal (n : Int) : pyInt 10 (decimal n) = some n := by
  cases n with
  | ofNat n => exact pyInt_toDigits (by decide) (by decide) n
  -- the sign is taken off before the digits are read
  | negSucc n =>
    simp only [pyInt, decimal, List.head?_cons, true_or, if_true, List.drop_one, List.tail_cons,
      show ¬(10 = 8) by decide, false_and, if_false]
    rw [parseNat_toDigits (by decide) (by decide)]
    rfl

theorem isDigit_eq_false_of_isSpace {c : Char} (hc : isSpace c = true) : c.isDigit = false := by
  simp only [isSpace, Bool.or_eq_true, decide_eq_true_eq] at hc
  rcases hc with ((((rfl | rfl) | rfl) | rfl) | rfl) | rfl <;> rfl

/-- A printed number is one column. -/
theorem isSpace_toDigits {b n : Nat} (hb : 1 < b) (hb' : b ≤ 10) :
    ∀ c ∈ Nat.toDigits b n, isSpace c = false := by
  intro c hc
  by_contra hspace
  rw [Bool.not_eq_false] at hspace
  exact not_mem_toDigits hb hb' (isDigit_eq_false_of_isSpace hspace) hc

theorem isSpace_octal {n : Nat} : ∀ c ∈ octal n, isSpace c = false :=
  isSpace_toDigits (by decide) (by decide)

theorem isSpace_decimal {n : Int} : ∀ c ∈ decimal n, isSpace c = false := by
  cases n with
  | ofNat n => exact isSpace_toDigits (by decide) (by decide)
  | negSucc n =>
    intro c hc
    rcases List.mem_cons.mp hc with rfl | hc
    · rfl
    · exact isSpace_toDigits (by decide) (by decide) c hc

theorem octal_ne_nil {n : Nat} : octal n ≠ [] := Nat.toDigits_ne_nil

theorem decimal_ne_nil {n : Int} : decimal n ≠ [] := by
  cases n with
  | ofNat n => exact Nat.toDigits_ne_nil
  | negSucc n => exact List.cons_ne_nil _ _

end OdroidU2.Foundations
