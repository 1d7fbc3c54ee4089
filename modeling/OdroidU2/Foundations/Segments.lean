import Mathlib

/-!
# Segments of a Medium

A medium of numbered cells, of which the first `size` can be written, and segments of data
written into it one after the other, each from a start of its own.

- `writeSegment` — write one segment; what lies behind the end is lost
- `Holds` — the medium holds a segment
- `holds_writeSegment_iff` — when a segment survives the next one
-/

namespace OdroidU2.Foundations

variable {β : Type}

/-- Write `data` from the cell `start` on. -/
def writeSegment (size start : Nat) (data : List β) (m : Nat → β) : Nat → β :=
  fun i => if start ≤ i ∧ i < size then (data[i - start]?).getD (m i) else m i

/-- The cells from `start` on are the data. -/
def Holds (m : Nat → β) (start : Nat) (data : List β) : Prop :=
  ∀ j b, data[j]? = some b → m (start + j) = b

/-- The cell is written by a segment of this length. -/
def InSegment (start length i : Nat) : Prop := start ≤ i ∧ i < start + length

instance (start length i : Nat) : Decidable (InSegment start length i) := by
  unfold InSegment
  infer_instance

section

variable {size start : Nat} {data : List β} {m : Nat → β}

theorem writeSegment_of_not_in {i : Nat} (hi : ¬InSegment start data.length i) :
    writeSegment size start data m i = m i := by
  rw [writeSegment]
  split
  · next hin =>
    -- in memory but past the end of the data
    have hlen : data.length ≤ i - start := by
      rw [InSegment] at hi
      omega
    rw [List.getElem?_eq_none hlen]
    rfl
  · rfl

/-- A cell of the segment, if it can be written. -/
theorem writeSegment_apply {j : Nat} {b : β} (hb : data[j]? = some b) :
    writeSegment size start data m (start + j) =
      if start + j < size then b else m (start + j) := by
  simp only [writeSegment, Nat.le_add_right, true_and, Nat.add_sub_cancel_left, hb,
    Option.getD_some]

/-- A segment that fits is held afterwards. -/
theorem holds_writeSegment (hfit : start + data.length ≤ size) :
    Holds (writeSegment size start data m) start data := by
  intro j b hb
  obtain ⟨hj, -⟩ := List.getElem?_eq_some_iff.mp hb
  rw [writeSegment_apply hb, if_pos (by omega)]

/-- Two segments agree on the cells they share. -/
def AgreeOnOverlap (start : Nat) (data : List β) (start' : Nat) (data' : List β) : Prop :=
  ∀ j j' b b', start + j = start' + j' → data[j]? = some b → data'[j']? = some b' → b = b'

/-- What is held survives the next segment exactly when they agree on the cells they
share. -/
theorem holds_writeSegment_iff {start' : Nat} {data' : List β} (h : Holds m start data)
    (hfit : start' + data'.length ≤ size) :
    Holds (writeSegment size start' data' m) start data ↔
      AgreeOnOverlap start data start' data' := by
  constructor
  · intro hholds j j' b b' hcell hb hb'
    have hwritten := holds_writeSegment (m := m) hfit j' b' hb'
    rw [← hholds j b hb, hcell, hwritten]
  · intro hagree j b hb
    by_cases hin : InSegment start' data'.length (start + j)
    · -- a shared cell is written with what it had
      obtain ⟨hle, hlt⟩ := hin
      have hj' : start + j - start' < data'.length := by omega
      have hb' := List.getElem?_eq_getElem hj'
      have hcell : start + j = start' + (start + j - start') := by omega
      rw [hcell, writeSegment_apply hb', if_pos (by omega)]
      exact (hagree j _ b _ hcell hb hb').symm
    · rw [writeSegment_of_not_in hin]
      exact h j b hb

end

end OdroidU2.Foundations
