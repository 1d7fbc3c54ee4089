import Mathlib

/-!
# Labelled Machines and Their Runs

A machine refuses a label or moves to the next state.  A run is a list of labels taken
one after the other.  The induction over runs is done once here:

- `Machine.run_invariant_of` — what the steps that meet a condition keep, every run of such
  steps keeps
- `Machine.allSteps_iff` — when all steps of a run have a property
-/

namespace OdroidU2.Foundations

/-- A machine over states `σ` and labels `ℓ`. -/
structure Machine (σ ℓ : Type) where
  /-- Take one step, or refuse the label. -/
  step : σ → ℓ → Option σ

namespace Machine

variable {σ ℓ : Type} (m : Machine σ ℓ)

/-- Take the labels one after the other; `none` as soon as one is refused. -/
def run (s : σ) : List ℓ → Option σ
  | [] => some s
  | a :: as => (m.step s a).bind fun t => run t as

@[simp] theorem run_nil (s : σ) : m.run s [] = some s := rfl

@[simp] theorem run_cons (s : σ) (a : ℓ) (as : List ℓ) :
    m.run s (a :: as) = (m.step s a).bind fun t => m.run t as := rfl

/-- A run splits at any point. -/
theorem run_append (s : σ) (as bs : List ℓ) :
    m.run s (as ++ bs) = (m.run s as).bind fun t => m.run t bs := by
  induction as generalizing s with
  | nil => rfl
  | cons a as ih =>
    rw [List.cons_append, run_cons, run_cons]
    cases m.step s a with
    | none => rfl
    | some t => exact ih t

/-- Every step of the run of `as` from `s` is taken from a state that meets `C`. -/
def AllSteps (C : σ → ℓ → Prop) : σ → List ℓ → Prop
  | _, [] => True
  | s, a :: as => C s a ∧ ∀ t, m.step s a = some t → AllSteps C t as

instance decidableAllSteps {C : σ → ℓ → Prop} [∀ s a, Decidable (C s a)] (s : σ) (as : List ℓ) :
    Decidable (m.AllSteps C s as) :=
  match as with
  | [] => .isTrue trivial
  | a :: as =>
    have : ∀ t, Decidable (m.AllSteps C t as) := fun t => decidableAllSteps t as
    inferInstanceAs (Decidable (C s a ∧ ∀ t ∈ m.step s a, m.AllSteps C t as))

/-- A condition on the labels alone. -/
theorem allSteps_of_forall {C : ℓ → Prop} {s : σ} {as : List ℓ} (h : ∀ a ∈ as, C a) :
    m.AllSteps (fun _ a => C a) s as := by
  induction as generalizing s with
  | nil => exact trivial
  | cons a as ih =>
    exact ⟨h a List.mem_cons_self, fun t _ => ih fun b hb => h b (List.mem_cons_of_mem a hb)⟩

/-- **Invariant rule, conditional form**: an invariant kept by the steps that meet `C`
holds at the end of every run all of whose steps meet `C`. -/
theorem run_invariant_of {I : σ → Prop} {C : σ → ℓ → Prop}
    (hstep : ∀ s a t, I s → C s a → m.step s a = some t → I t)
    {s t : σ} {as : List ℓ} (hs : I s) (hC : m.AllSteps C s as) (hrun : m.run s as = some t) :
    I t := by
  induction as generalizing s with
  | nil =>
    rw [run_nil, Option.some.injEq] at hrun
    exact hrun ▸ hs
  | cons a as ih =>
    -- `hC` gives the condition for the first label and for the rest of the run from `u`
    obtain ⟨u, hu, hrest⟩ := Option.bind_eq_some_iff.mp hrun
    exact ih (hstep s a u hs hC.1 hu) (hC.2 u hu) hrest

/-- **Exactness rule**: if in the states of an invariant a step has `P` exactly when it
meets `C`, and the steps that meet `C` keep the invariant, then all steps of a run have `P`
exactly when all of them meet `C`. -/
theorem allSteps_iff {I : σ → Prop} {C P : σ → ℓ → Prop} (hiff : ∀ s a, I s → (P s a ↔ C s a))
    (hstep : ∀ s a t, I s → C s a → m.step s a = some t → I t)
    {s : σ} (hs : I s) (as : List ℓ) : m.AllSteps P s as ↔ m.AllSteps C s as := by
  induction as generalizing s with
  | nil => exact Iff.rfl
  | cons a as ih =>
    -- the two sides agree on the first step, and both give the invariant for the rest
    rw [AllSteps, AllSteps, hiff s a hs]
    apply and_congr_right
    intro hC
    exact forall_congr' fun t => imp_congr_right fun ht => ih (hstep s a t hs hC ht)

end Machine

end OdroidU2.Foundations
