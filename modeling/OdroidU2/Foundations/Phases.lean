import Mathlib

/-!
# What Comes Before What in a List

A list of commands often has phases: first everything is checked, then everything is
changed.  Where an element stands is a decomposition `done ++ c :: rest`.

- `PrecededBy` — every `P` has something before it that it is related to
- `NoneBefore` — nothing that satisfies `Q` comes before a `P`
- `Throughout` — every state of a run, wherever it is cut off, satisfies `P`
-/

namespace OdroidU2.Foundations

variable {α : Type}

/-! ## §1 Two Parts of a List -/

/-- An element that is not in the first part has all of the first part before it. -/
theorem prefix_of_not_mem {l₁ l₂ done rest : List α} {c : α} (h : l₁ ++ l₂ = done ++ c :: rest)
    (hc : c ∉ l₁) : ∃ mid, done = l₁ ++ mid ∧ l₂ = mid ++ c :: rest := by
  -- the cut before `c` lies in `l₂` or in `l₁`; in `l₁` it can only be at its end
  rcases List.append_eq_append_iff.mp h with ⟨mid, hdone, hl₂⟩ | ⟨mid, hl₁, hrest⟩
  · exact ⟨mid, hdone, hl₂⟩
  · cases mid with
    | nil => exact ⟨[], by simpa using hl₁.symm, by simpa using hrest.symm⟩
    | cons x mid =>
      obtain ⟨rfl, -⟩ := List.cons_eq_cons.mp hrest
      exact absurd (by simp [hl₁]) hc

/-- An element that is not in the second part has all of the second part after it. -/
theorem suffix_of_not_mem {l₁ l₂ done rest : List α} {c : α} (h : l₁ ++ l₂ = done ++ c :: rest)
    (hc : c ∉ l₂) : ∃ mid, rest = mid ++ l₂ ∧ l₁ = done ++ c :: mid := by
  -- the cut before `c` lies in `l₁`, since in `l₂` there is no `c`
  rcases List.append_eq_append_iff.mp h with ⟨mid, -, hl₂⟩ | ⟨mid, hl₁, hrest⟩
  · exact absurd (by simp [hl₂]) hc
  · cases mid with
    | nil =>
      have hl₂ : c :: rest = l₂ := hrest
      exact absurd (hl₂ ▸ List.mem_cons_self) hc
    | cons x mid =>
      obtain ⟨rfl, rfl⟩ := List.cons_eq_cons.mp hrest
      exact ⟨mid, rfl, hl₁⟩

/-- Where an element of a kind first stands is settled by the list. -/
theorem first_unique {P : α → Prop} {l₁ l₂ done rest : List α} {c d : α}
    (h : l₁ ++ d :: l₂ = done ++ c :: rest) (hl₁ : ∀ x ∈ l₁, ¬P x) (hd : P d)
    (hdone : ∀ x ∈ done, ¬P x) (hc : P c) : done = l₁ ∧ c = d := by
  -- `c` is not before `d`, and if it came later `d` would be among `done`
  obtain ⟨mid, rfl, hmid⟩ := prefix_of_not_mem h fun hmem => hl₁ c hmem hc
  cases mid with
  | nil => exact ⟨List.append_nil _, (List.head_eq_of_cons_eq hmid).symm⟩
  | cons x mid =>
    obtain ⟨rfl, -⟩ := List.cons_eq_cons.mp hmid
    exact absurd hd (hdone d (by simp))

/-! ## §2 Before and After -/

/-- Every element that satisfies `P` has one before it that `R` relates to it. -/
def PrecededBy (P : α → Prop) (R : α → α → Prop) (l : List α) : Prop :=
  ∀ done c rest, l = done ++ c :: rest → P c → ∃ d ∈ done, R d c

/-- Nothing that satisfies `Q` comes before an element that satisfies `P`. -/
def NoneBefore (Q P : α → Prop) (l : List α) : Prop :=
  ∀ done c rest, l = done ++ c :: rest → P c → ∀ d ∈ done, ¬Q d

/-- What the second phase needs is in the first one. -/
theorem precededBy_append {P : α → Prop} {R : α → α → Prop} {l₁ l₂ : List α}
    (hfirst : ∀ c ∈ l₁, ¬P c) (hsecond : ∀ c ∈ l₂, P c → ∃ d ∈ l₁, R d c) :
    PrecededBy P R (l₁ ++ l₂) := by
  intro done c rest hsplit hc
  obtain ⟨mid, rfl, hl₂⟩ := prefix_of_not_mem hsplit fun hmem => hfirst c hmem hc
  obtain ⟨d, hd, hR⟩ := hsecond c (by simp [hl₂]) hc
  exact ⟨d, List.mem_append_left mid hd, hR⟩

/-- One phase has no `Q`, the next one no `P`. -/
theorem noneBefore_append {P Q : α → Prop} {l₁ l₂ : List α} (hfirst : ∀ c ∈ l₁, ¬Q c)
    (hsecond : ∀ c ∈ l₂, ¬P c) : NoneBefore Q P (l₁ ++ l₂) := by
  intro done c rest hsplit hc d hd
  obtain ⟨mid, -, hl₁⟩ := suffix_of_not_mem hsplit fun hmem => hsecond c hmem hc
  exact hfirst d (by simp [hl₁, hd])

/-! ## §3 States of a Run -/

section Runs

variable {σ : Type} {F : σ → α → Option σ} {P : σ → Prop} {s : σ} {l l₁ l₂ : List α}

/-- Run a list of commands up to any point: the state satisfies `P`. -/
def Throughout (F : σ → α → Option σ) (P : σ → Prop) (s : σ) (l : List α) : Prop :=
  ∀ done s', done <+: l → done.foldlM F s = some s' → P s'

theorem Throughout.final (h : Throughout F P s l) {s' : σ} (hrun : l.foldlM F s = some s') :
    P s' :=
  h l s' List.prefix_rfl hrun

theorem Throughout.imp {Q : σ → Prop} (h : Throughout F P s l) (hPQ : ∀ s, P s → Q s) :
    Throughout F Q s l :=
  fun done s' hdone hrun => hPQ s' (h done s' hdone hrun)

theorem throughout_nil (hs : P s) : Throughout F P s [] := by
  intro done s' hdone hrun
  rw [List.prefix_nil.mp hdone] at hrun
  exact Option.some.inj hrun ▸ hs

/-- The first command, and the rest from where it leads. -/
theorem throughout_cons {c : α} (hs : P s) (hrest : ∀ s', F s c = some s' → Throughout F P s' l) :
    Throughout F P s (c :: l) := by
  intro done s' hdone hrun
  -- the state is looked at before the first command or after it
  cases done with
  | nil => exact Option.some.inj hrun ▸ hs
  | cons d done =>
    obtain ⟨rfl, htail⟩ := List.cons_prefix_cons.mp hdone
    obtain ⟨s₁, hstep, hrun⟩ := Option.bind_eq_some_iff.mp hrun
    exact hrest s₁ hstep done s' htail hrun

/-- One phase after the other. -/
theorem throughout_append (hfirst : Throughout F P s l₁)
    (hsecond : ∀ s', l₁.foldlM F s = some s' → Throughout F P s' l₂) :
    Throughout F P s (l₁ ++ l₂) := by
  -- along the first phase; a prefix of the whole either ends inside it or has passed it
  induction l₁ generalizing s with
  | nil => exact hsecond s rfl
  | cons c l₁ ih =>
    refine throughout_cons (hfirst [] s List.nil_prefix rfl) fun s' hstep => ih ?_ ?_
    · intro done s'' hdone hrun
      refine hfirst (c :: done) s'' (List.cons_prefix_cons.mpr ⟨rfl, hdone⟩) ?_
      rw [List.foldlM_cons, hstep]
      exact hrun
    · intro s'' hrun
      apply hsecond s''
      rw [List.foldlM_cons, hstep]
      exact hrun

/-- What every command preserves holds throughout. -/
theorem throughout_of_step (hstep : ∀ c ∈ l, ∀ s s', P s → F s c = some s' → P s') (hs : P s) :
    Throughout F P s l := by
  induction l generalizing s with
  | nil => exact throughout_nil hs
  | cons c l ih =>
    apply throughout_cons hs
    intro s' hc
    have hs' := hstep c List.mem_cons_self s s' hs hc
    exact ih (fun d hd => hstep d (List.mem_cons_of_mem c hd)) hs'

end Runs

end OdroidU2.Foundations
