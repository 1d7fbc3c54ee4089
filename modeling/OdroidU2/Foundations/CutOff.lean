import OdroidU2.Foundations.Prog

/-!
# Runs That Are Cut Off, and Files That Are Written

A program that is cut off leaves the state after the actions it has taken so far.  A file is
written by emptying it and appending to it, so a cut leaves a prefix of what was to be written.

- `Prog.moment` — the state after the first actions of a run
- `Prog.moment_bind_left`, `Prog.moment_bind_right` — what only one of two programs changes
- `write` — write a file, as far as there is room
- `moment_write` — what a file holds at every moment of its writing
- `moment_write_whole_iff` — when it is whole
-/

namespace OdroidU2.Foundations

namespace Prog

variable {σ ε α β : Type}

/-! ## §1 The States of a Run -/

/-- How many actions a run takes. -/
def steps (p : Prog σ ε α) (s : σ) : ℕ := (p.log s).length

/-- The state after the first `j` actions of a run. -/
def moment (p : Prog σ ε α) (s : σ) (j : ℕ) : σ := lastState s ((p.log s).take j)

@[simp] theorem steps_read (s : σ) : (read : Prog σ ε σ).steps s = 0 := rfl

@[simp] theorem steps_act (e : ε) (f : σ → σ) (s : σ) : (act e f).steps s = 1 := rfl

@[simp] theorem steps_bind (p : Prog σ ε α) (f : α → Prog σ ε β) (s : σ) :
    (p >>= f).steps s = p.steps s + (f (p.val s)).steps (p.exec s) := by
  unfold steps
  rw [log_bind, List.length_append]

@[simp] theorem moment_zero (p : Prog σ ε α) (s : σ) : p.moment s 0 = s := rfl

@[simp] theorem moment_pure (a : α) (s : σ) (j : ℕ) : (pure a : Prog σ ε α).moment s j = s := by
  unfold moment
  rw [log_pure, List.take_nil, lastState_nil]

/-- The last moment. -/
theorem moment_of_steps_le {p : Prog σ ε α} {s : σ} {j : ℕ} (h : p.steps s ≤ j) :
    p.moment s j = p.exec s := by
  unfold moment
  rw [List.take_of_length_le h, lastState_log]

/-- The moments of the first program. -/
theorem moment_bind_of_le {p : Prog σ ε α} {f : α → Prog σ ε β} {s : σ} {j : ℕ}
    (h : j ≤ p.steps s) : (p >>= f).moment s j = p.moment s j := by
  unfold moment
  rw [log_bind, List.take_append_of_le_length h]

/-- The moments of the second one. -/
theorem moment_bind_add (p : Prog σ ε α) (f : α → Prog σ ε β) (s : σ) (j : ℕ) :
    (p >>= f).moment s (p.steps s + j) = (f (p.val s)).moment (p.exec s) j := by
  unfold moment steps
  rw [log_bind, List.take_length_add_append, lastState_append, lastState_log]

theorem moment_bind_of_ge {p : Prog σ ε α} {f : α → Prog σ ε β} {s : σ} {j : ℕ}
    (h : p.steps s ≤ j) :
    (p >>= f).moment s j = (f (p.val s)).moment (p.exec s) (j - p.steps s) := by
  rw [← moment_bind_add, Nat.add_sub_cancel' h]

/-- Reading takes no time. -/
theorem moment_read_bind (f : σ → Prog σ ε β) (s : σ) (j : ℕ) :
    (read >>= f).moment s j = (f s).moment s j := by
  have h := moment_bind_add read f s j
  rwa [steps_read, Nat.zero_add, val_read, exec_read] at h

section Parts

variable {γ : Type} {g : σ → γ} {p : Prog σ ε α} {f : α → Prog σ ε β} {s : σ}

/-- **What the second program leaves alone** is at every moment what the first one makes it. -/
theorem moment_bind_left
    (h : ∀ k, g ((f (p.val s)).moment (p.exec s) k) = g (p.exec s)) (j : ℕ) :
    g ((p >>= f).moment s j) = g (p.moment s j) := by
  by_cases hj : j ≤ p.steps s
  · rw [moment_bind_of_le hj]
  · rw [moment_bind_of_ge (by omega), h, moment_of_steps_le (by omega)]

/-- **What the first program leaves alone** waits for the second one. -/
theorem moment_bind_right (h : ∀ k, g (p.moment s k) = g s) (j : ℕ) :
    g ((p >>= f).moment s j) = g ((f (p.val s)).moment (p.exec s) (j - p.steps s)) := by
  by_cases hj : p.steps s ≤ j
  · rw [moment_bind_of_ge hj]
  · rw [moment_bind_of_le (by omega), Nat.sub_eq_zero_of_le (by omega), moment_zero, h,
      ← h (p.steps s), moment_of_steps_le le_rfl]

end Parts

end Prog

/-! ## §2 Files -/

section Files

open Prog

/-- The files of a store: what each of them holds, if it is there. -/
abbrev Files (φ β : Type) := φ → Option (List β)

/-- What is done to a file. -/
inductive FileAction (φ : Type)
  | truncate (file : φ)
  | append (file : φ)
  | remove (file : φ)
deriving DecidableEq

variable {φ β : Type} [DecidableEq φ]

/-- Append `content` to a file, one unit at a time. -/
def appendAll (file : φ) : List β → Prog (Files φ β) (FileAction φ) Unit
  | [] => pure ()
  | b :: content => do
    act (.append file) fun s => Function.update s file ((s file).map (· ++ [b]))
    appendAll file content

/-- Write a file: empty it, and append as much of `content` as there is room for. -/
def write (file : φ) (content : List β) (room : ℕ) : Prog (Files φ β) (FileAction φ) Unit := do
  act (.truncate file) fun s => Function.update s file (some [])
  appendAll file (content.take room)

/-- Remove a file. -/
def remove (file : φ) : Prog (Files φ β) (FileAction φ) Unit :=
  act (.remove file) fun s => Function.update s file none

theorem steps_appendAll (file : φ) (content : List β) (s : Files φ β) :
    (appendAll file content).steps s = content.length := by
  induction content generalizing s with
  | nil => rfl
  | cons b content ih =>
    rw [appendAll, steps_bind, steps_act, ih, List.length_cons, Nat.add_comm]

theorem moment_appendAll {file : φ} {content : List β} {s : Files φ β} {old : List β} (j : ℕ)
    (hs : s file = some old) : (appendAll file content).moment s j =
      Function.update s file (some (old ++ content.take j)) := by
  -- byte after byte: a moment inside `content` is one behind its first byte, or is the start
  induction content generalizing s old j with
  | nil => rw [appendAll, moment_pure, List.take_nil, List.append_nil, ← hs, Function.update_eq_self]
  | cons b content ih =>
    cases j with
    | zero =>
      rw [moment_zero, List.take_zero, List.append_nil, ← hs, Function.update_eq_self]
    | succ j =>
      -- what the file holds once the first byte is in it
      have hfirst : (act (FileAction.append file) fun s : Files φ β =>
          Function.update s file ((s file).map (· ++ [b]))).exec s =
            Function.update s file (some (old ++ [b])) := by
        rw [exec_act, hs, Option.map_some]
      rw [appendAll, Nat.add_comm j 1, ← steps_act (FileAction.append file) _ s, moment_bind_add,
        hfirst, ih j (Function.update_self ..), Function.update_idem, steps_act, Nat.add_comm 1 j,
        List.take_succ_cons, List.append_assoc, List.singleton_append]

/-- How long the writing of a file takes. -/
theorem steps_write (file : φ) (content : List β) (room : ℕ) (s : Files φ β) :
    (write file content room).steps s = 1 + min room content.length := by
  rw [write, steps_bind, steps_act, steps_appendAll, List.length_take]

/-- **A cut leaves a prefix**: once a file has been emptied it holds what has been appended. -/
theorem moment_write (file : φ) (content : List β) (room : ℕ) (s : Files φ β) (j : ℕ) :
    (write file content room).moment s (j + 1) =
      Function.update s file (some ((content.take room).take j)) := by
  rw [write, Nat.add_comm j 1, ← steps_act (FileAction.truncate file) _ s, moment_bind_add,
    exec_act, moment_appendAll j (Function.update_self ..), Function.update_idem, List.nil_append]

/-- A file is emptied first. -/
theorem moment_write_one (file : φ) (content : List β) (room : ℕ) (s : Files φ β) :
    (write file content room).moment s 1 = Function.update s file (some []) :=
  moment_write file content room s 0

theorem exec_write (file : φ) (content : List β) (room : ℕ) (s : Files φ β) :
    (write file content room).exec s = Function.update s file (some (content.take room)) := by
  rw [← moment_of_steps_le (p := write file content room) (s := s) (j := room + 1), moment_write,
    List.take_take, Nat.min_self]
  rw [steps_write]
  omega

/-- The other files are left alone. -/
theorem moment_write_of_ne {file other : φ} (h : other ≠ file) (content : List β) (room : ℕ)
    (s : Files φ β) (j : ℕ) : (write file content room).moment s j other = s other := by
  cases j with
  | zero => rfl
  | succ j => rw [moment_write, Function.update_of_ne h]

theorem exec_write_of_ne {file other : φ} (h : other ≠ file) (content : List β) (room : ℕ)
    (s : Files φ β) : (write file content room).exec s other = s other := by
  rw [exec_write, Function.update_of_ne h]

/-- What comes after a file has been written waits for it. -/
theorem moment_write_bind_of_ne {α : Type} {file other : φ} (h : other ≠ file) (content : List β)
    (room : ℕ) (f : Unit → Prog (Files φ β) (FileAction φ) α) (s : Files φ β) (j : ℕ) :
    (write file content room >>= f).moment s j other =
      (f ()).moment ((write file content room).exec s) (j - (1 + min room content.length))
        other := by
  rw [← steps_write file content room s]
  exact moment_bind_right (g := fun s : Files φ β => s other)
    (fun k => moment_write_of_ne h content room s k) j

/-- With room enough it is whole in the end, and at no moment before. -/
theorem moment_write_eq_iff {file : φ} {content : List β} {room : ℕ} (h : content.length ≤ room)
    (s : Files φ β) (j : ℕ) :
    (write file content room).moment s (j + 1) file = some content ↔ content.length ≤ j := by
  rw [moment_write, Function.update_self, Option.some.injEq, List.take_of_length_le h,
    List.take_eq_self_iff]

/-- A file that waits for its turn until the moment `t` is whole from its last unit on, and up to
its turn if it was so before. -/
theorem moment_write_whole_iff {file : φ} {content : List β} {room : ℕ}
    (h : content.length ≤ room) (s : Files φ β) (t j : ℕ) :
    (write file content room).moment s (j - t) file = some content ↔
      t + (1 + content.length) ≤ j ∨ j ≤ t ∧ s file = some content := by
  by_cases hturn : j ≤ t
  · rw [Nat.sub_eq_zero_of_le hturn, moment_zero, or_iff_right (by omega), and_iff_right hturn]
  · -- from its turn on it is a prefix of the new content
    obtain ⟨i, rfl⟩ : ∃ i, j = t + (i + 1) := ⟨j - t - 1, by omega⟩
    rw [Nat.add_sub_cancel_left, moment_write_eq_iff h, or_iff_left fun hold => hturn hold.1]
    omega

end Files

end OdroidU2.Foundations
