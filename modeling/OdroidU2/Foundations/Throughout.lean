import OdroidU2.Foundations.Phases
import OdroidU2.Foundations.Pointwise

/-!
# Scripts That Can Be Cut Off

A script that is cut off after any of its commands leaves whatever state it has reached.
These are the rules for what holds throughout a script whose commands are known to succeed.

- `throughout_cons_iff` — a command whose outcome is known
- `Throughout.append` — one part after the other
- `Throughout.of_run` — the property holds wherever the script is cut off
- `Pointwise.throughout_of_follow` — every place keeps to a set of values of its own
-/

namespace OdroidU2.Foundations

section

variable {χ σ : Type} {F : σ → χ → Option σ} {P : σ → Prop} {s : σ} {script script' : List χ}

theorem Throughout.start (h : Throughout F P s script) : P s :=
  h [] s List.nil_prefix rfl

/-- After the first command. -/
theorem Throughout.tail {c : χ} (h : Throughout F P s (c :: script)) {s₁ : σ}
    (hc : F s c = some s₁) : Throughout F P s₁ script := by
  intro done s' hdone hrun
  apply h (c :: done) s' (List.cons_prefix_cons.mpr ⟨rfl, hdone⟩)
  rw [List.foldlM_cons, hc]
  exact hrun

/-- A command whose outcome is known. -/
theorem throughout_cons_iff {c : χ} {s₁ : σ} (hc : F s c = some s₁) :
    Throughout F P s (c :: script) ↔ P s ∧ Throughout F P s₁ script := by
  constructor
  · intro h
    exact ⟨h.start, h.tail hc⟩
  · rintro ⟨hs, hrest⟩
    apply throughout_cons hs
    intro s' hs'
    obtain rfl := Option.some.inj (hc.symm.trans hs')
    exact hrest

/-- The property holds wherever the script is cut off. -/
theorem Throughout.of_run {rest : List χ} (h : Throughout F P s (script ++ rest)) {s' : σ}
    (hrun : script.foldlM F s = some s') : P s' :=
  h script s' (List.prefix_append script rest) hrun

/-- One part after the other, when it is known where the first one ends. -/
theorem Throughout.append (h : Throughout F P s script) {s' : σ}
    (hrun : script.foldlM F s = some s') (h' : Throughout F P s' script') :
    Throughout F P s (script ++ script') := by
  apply throughout_append h
  intro s₁ hs₁
  obtain rfl := Option.some.inj (hrun.symm.trans hs₁)
  exact h'

end

namespace Pointwise

variable {ξ υ χ : Type}

/-- A script that succeeds at every place keeps its invariant throughout, and every place
keeps to the values that no command leaves. -/
theorem throughout_of_follow {I : (ξ → υ) → Prop} {F : (ξ → υ) → χ → Option (ξ → υ)}
    {l : χ → ξ → υ → Option υ} {script : List χ}
    (hacts : ∀ c ∈ script, ActsAs I (fun s => F s c) (l c)) {N : ξ → υ → Prop}
    (hclosed : ∀ x, ∀ c ∈ script, ∀ y y', N x y → l c x y = some y' → N x y')
    {s f : ξ → υ} (hs : I s) (hN : ∀ x, N x (s x))
    (hf : ∀ x, follow l x (s x) script = some (f x)) :
    Throughout F (fun s => I s ∧ ∀ x, N x (s x)) s script := by
  induction script generalizing s with
  | nil => exact throughout_nil ⟨hs, hN⟩
  | cons c script ih =>
    refine throughout_cons ⟨hs, hN⟩ fun s' hs' => ?_
    have hsplit : ∀ x, ∃ y, l c x (s x) = some y ∧ follow l x y script = some (f x) := by
      intro x
      exact Option.bind_eq_some_iff.mp (hf x)
    choose mid hmid hrest using hsplit
    -- the command leads to the values it has at each place
    obtain ⟨hc, hI⟩ := hacts c List.mem_cons_self s mid hs hmid
    obtain rfl : mid = s' := Option.some.inj (hc.symm.trans hs')
    refine ih (fun c hc => hacts c (List.mem_cons_of_mem _ hc))
      (fun x c hc => hclosed x c (List.mem_cons_of_mem _ hc)) hI (fun x => ?_) hrest
    exact hclosed x c List.mem_cons_self _ _ (hN x) (hmid x)

end Pointwise

end OdroidU2.Foundations
