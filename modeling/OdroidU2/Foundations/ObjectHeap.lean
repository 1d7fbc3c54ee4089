import Mathlib

/-!
# Objects with Identity

The objects a program has created, by reference.  A new object gets a reference that no
object had before, and changing one object leaves every other one as it is, so two references
name the same object only if they are equal.
-/

namespace OdroidU2.Foundations

/-- Objects in the order of their creation; a reference is a position. -/
structure ObjectHeap (α : Type) where
  objects : List α

namespace ObjectHeap

variable {α : Type}

/-- How many objects there are, which is the next reference. -/
def size (h : ObjectHeap α) : Nat := h.objects.length

/-- The object that a reference names. -/
def get? (h : ObjectHeap α) (r : Nat) : Option α := h.objects[r]?

/-- Create an object; its reference is the size of the heap before. -/
def alloc (h : ObjectHeap α) (a : α) : ObjectHeap α := ⟨h.objects ++ [a]⟩

/-- Change an object. -/
def modify (h : ObjectHeap α) (r : Nat) (f : α → α) : ObjectHeap α := ⟨h.objects.modify r f⟩

@[simp] theorem size_alloc (h : ObjectHeap α) (a : α) : (h.alloc a).size = h.size + 1 := by
  simp [size, alloc]

@[simp] theorem size_modify (h : ObjectHeap α) (r : Nat) (f : α → α) :
    (h.modify r f).size = h.size := by
  simp [size, modify]

theorem get?_alloc_self (h : ObjectHeap α) (a : α) : (h.alloc a).get? h.size = some a := by
  simp [get?, alloc, size]

theorem get?_alloc_of_lt {h : ObjectHeap α} {r : Nat} (hr : r < h.size) (a : α) :
    (h.alloc a).get? r = h.get? r := by
  simp only [get?, alloc]
  exact List.getElem?_append_left hr

theorem get?_modify_self {h : ObjectHeap α} {r : Nat} {a : α} (hr : h.get? r = some a)
    (f : α → α) : (h.modify r f).get? r = some (f a) := by
  unfold get? at hr
  simp [get?, modify, hr]

theorem get?_modify_of_ne {h : ObjectHeap α} {r q : Nat} (hne : q ≠ r) (f : α → α) :
    (h.modify r f).get? q = h.get? q := by
  simp [get?, modify, Ne.symm hne]

end ObjectHeap

end OdroidU2.Foundations
