import Mathlib

/-!
# Programs That Act on Every Place Alone

A state assigns a value to every place.  A command *acts as* a family of partial maps of
values when, in every state with an invariant, it does at each place what the map of that
place says, and fails only if one of the maps does.  Then a script can be followed at one
place at a time:

- `run_of_follow` — a script succeeds when it succeeds at every place
- `run_restart` — a script that settles every place may be cut off anywhere and run again
-/

namespace OdroidU2.Foundations

namespace Pointwise

variable {χ ξ υ : Type}

/-- Run a list of commands; `none` as soon as one fails. -/
def run (F : χ → (ξ → υ) → Option (ξ → υ)) (s : ξ → υ) (script : List χ) : Option (ξ → υ) :=
  script.foldlM (fun s c => F c s) s

/-- Follow a list of commands at one place. -/
def follow (l : χ → ξ → υ → Option υ) (x : ξ) (y : υ) (script : List χ) : Option υ :=
  script.foldlM (fun y c => l c x y) y

/-- In every state with `I`, a command that succeeds at every place succeeds, and does at
every place what is said there. -/
def ActsAs (I : (ξ → υ) → Prop) (F : (ξ → υ) → Option (ξ → υ)) (l : ξ → υ → Option υ) : Prop :=
  ∀ s f, I s → (∀ x, l x (s x) = some (f x)) → F s = some f ∧ I f

/-! ## §1 Following a Script -/

section Follow

variable (l : χ → ξ → υ → Option υ) (x : ξ)

@[simp] theorem follow_nil (y : υ) : follow l x y [] = some y := rfl

@[simp] theorem follow_cons (y : υ) (c : χ) (script : List χ) :
    follow l x y (c :: script) = (l c x y).bind fun y => follow l x y script := rfl

theorem follow_append (y : υ) (script script' : List χ) :
    follow l x y (script ++ script') =
      (follow l x y script).bind fun y => follow l x y script' :=
  List.foldlM_append

/-- Commands that leave the value alone. -/
theorem follow_of_id {y : υ} {script : List χ} (h : ∀ c ∈ script, l c x y = some y) :
    follow l x y script = some y := by
  induction script with
  | nil => rfl
  | cons c script ih =>
    rw [follow_cons, h c List.mem_cons_self, Option.bind_some]
    exact ih fun c hc => h c (List.mem_cons_of_mem _ hc)

/-- A set of values which no command leaves. -/
theorem follow_mem {N : υ → Prop} {script : List χ}
    (h : ∀ c ∈ script, ∀ y y', N y → l c x y = some y' → N y') {y y' : υ} (hy : N y)
    (hrun : follow l x y script = some y') : N y' := by
  induction script generalizing y with
  | nil =>
    obtain rfl : y = y' := Option.some.inj hrun
    exact hy
  | cons c script ih =>
    obtain ⟨y₁, hc, hrest⟩ := Option.bind_eq_some_iff.mp hrun
    exact ih (fun c hc => h c (List.mem_cons_of_mem _ hc)) (h c List.mem_cons_self y y₁ hy hc) hrest

/-- A script that takes `y` to `v` somewhere, and otherwise leaves both alone. -/
theorem follow_of_hit {y v : υ} {script : List χ}
    (hkeep : ∀ c ∈ script, l c x y = some y ∨ l c x y = some v)
    (hfix : ∀ c ∈ script, l c x v = some v) (hhit : ∃ c ∈ script, l c x y = some v) :
    follow l x y script = some v := by
  induction script with
  | nil =>
    obtain ⟨c, hc, -⟩ := hhit
    cases hc
  | cons c script ih =>
    have hfixed : follow l x v script = some v :=
      follow_of_id l x fun c hc => hfix c (List.mem_cons_of_mem _ hc)
    rw [follow_cons]
    -- the first command leaves `y` alone, so a later one hits, or it is the one that hits
    rcases hkeep c List.mem_cons_self with hc | hc
    · rw [hc, Option.bind_some]
      obtain ⟨c', hc', hhit⟩ := hhit
      rcases List.mem_cons.mp hc' with rfl | hc'
      · -- the command that hits leaves `y` alone: then `y` is `v`
        rw [hc] at hhit
        rw [Option.some.inj hhit, hfixed]
      · exact ih (fun c hc => hkeep c (List.mem_cons_of_mem _ hc))
          (fun c hc => hfix c (List.mem_cons_of_mem _ hc)) ⟨c', hc', hhit⟩
    · rw [hc, Option.bind_some, hfixed]

end Follow

/-! ## §2 Scripts Act as Their Commands Do -/

section Scripts

variable {I : (ξ → υ) → Prop} {F : χ → (ξ → υ) → Option (ξ → υ)} {l : χ → ξ → υ → Option υ}

/-- A script that succeeds at every place succeeds. -/
theorem run_of_follow {script : List χ} (hacts : ∀ c ∈ script, ActsAs I (F c) (l c)) :
    ActsAs I (fun s => run F s script) (fun x y => follow l x y script) := by
  induction script with
  | nil =>
    intro s f hs hf
    obtain rfl : s = f := funext fun x => Option.some.inj (hf x)
    exact ⟨rfl, hs⟩
  | cons c script ih =>
    intro s f hs hf
    -- the values after the first command
    have hsplit : ∀ x, ∃ y, l c x (s x) = some y ∧ follow l x y script = some (f x) := by
      intro x
      exact Option.bind_eq_some_iff.mp (hf x)
    choose mid hmid hrest using hsplit
    obtain ⟨hc, hI⟩ := hacts c List.mem_cons_self s mid hs hmid
    obtain ⟨hrun, hf⟩ := ih (fun c hc => hacts c (List.mem_cons_of_mem _ hc)) mid f hI hrest
    refine ⟨?_, hf⟩
    have hcons : run F s (c :: script) = (F c s).bind fun s => run F s script := rfl
    show run F s (c :: script) = some f
    rw [hcons, hc, Option.bind_some]
    exact hrun

/-- **Restart**: at every place there is a set of values that holds at the start, that no
command leaves, and from each of which the script ends in the same value.  Then the
script, cut off anywhere, can be run again from the start, and ends the same. -/
theorem run_restart {script : List χ} (hacts : ∀ c ∈ script, ActsAs I (F c) (l c))
    {N : ξ → υ → Prop} {final : ξ → υ}
    (hclosed : ∀ x, ∀ c ∈ script, ∀ y y', N x y → l c x y = some y' → N x y')
    (hsettles : ∀ x y, N x y → follow l x y script = some (final x))
    {s : ξ → υ} (hs : I s) (hN : ∀ x, N x (s x)) {done rest : List χ}
    (hsplit : script = done ++ rest) :
    ∃ s', run F s done = some s' ∧ run F s' script = some final := by
  -- the first run gets through `done` at every point, since it gets through the whole script
  have hstart : ∀ x, ∃ y, follow l x (s x) done = some y := by
    intro x
    have hrun := hsettles x (s x) (hN x)
    rw [hsplit, follow_append] at hrun
    obtain ⟨y, hy, -⟩ := Option.bind_eq_some_iff.mp hrun
    exact ⟨y, hy⟩
  -- the state it leaves, built from the value at each point
  choose mid hmid using hstart
  have hdone : ∀ c ∈ done, c ∈ script := fun c hc => hsplit ▸ List.mem_append_left rest hc
  obtain ⟨hrun, hI⟩ := run_of_follow (fun c hc => hacts c (hdone c hc)) s mid hs hmid
  -- every point has kept the property from which the script settles it
  have hNmid : ∀ x, N x (mid x) := fun x =>
    follow_mem l x (fun c hc => hclosed x c (hdone c hc)) (hN x) (hmid x)
  exact ⟨mid, hrun, (run_of_follow hacts mid final hI fun x => hsettles x _ (hNmid x)).1⟩

end Scripts

end Pointwise

end OdroidU2.Foundations
