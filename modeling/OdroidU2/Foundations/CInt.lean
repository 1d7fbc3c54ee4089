import Mathlib

/-!
# C Integers and Bytes

The source computes in the 32-bit `int` of its armv7 target.  A model value is an `Int`
and every operation that may leave the range goes through `int32`, the two's-complement
wrap the compiled code performs.
-/

namespace OdroidU2.Foundations

/-- The value a 32-bit register holds for the exact result `x`. -/
def int32 (x : Int) : Int := Int.bmod x (2 ^ 32)

/-- Inside the range the wrap changes nothing. -/
theorem int32_of_range {x : Int} (hlo : -2 ^ 31 ≤ x) (hhi : x < 2 ^ 31) : int32 x = x := by
  rw [int32, Int.bmod_def]
  split <;> omega

theorem int32_int32 (a : Int) : int32 (int32 a) = int32 a := Int.bmod_bmod

theorem int32_int32_add (a b : Int) : int32 (int32 a + b) = int32 (a + b) := Int.bmod_add_bmod

/-- Counting up a wrapped counter counts up its distance to another one. -/
theorem int32_succ_sub (a b : Int) : int32 (int32 (a + 1) - b) = int32 (int32 (a - b) + 1) := by
  simp only [int32, Int.bmod_sub_bmod, Int.bmod_add_bmod]
  congr 1
  omega

theorem int32_sub_succ (a b : Int) : int32 (a - int32 (b + 1)) = int32 (int32 (a - b) - 1) := by
  simp only [int32, Int.sub_bmod_bmod, Int.bmod_sub_bmod]
  congr 1
  omega

/-- The byte of an ASCII character. -/
def byte (c : Char) : UInt8 := UInt8.ofNat c.toNat

/-- The bytes of an ASCII string, without the terminator. -/
def bytes (s : String) : List UInt8 := s.toList.map byte

end OdroidU2.Foundations
