import Mathlib

/-!
# Logged State Programs

A shallow embedding of sequential imperative code whose *intermediate* states matter:
a program maps a state to a result, a final state and the log of the atomic actions it
took, each with the state it left behind.

- `Prog σ ε α` — programs over states `σ` with actions labelled by `ε`; the final state
  is by construction the one the last action left
- `Prog.val`, `Prog.exec`, `Prog.log` — the three readings of a run
- `Prog.Emits` — a property of every action of a run
- `Prog.Keeps` — an invariant together with the actions it allows
- `Prog.Leaves` — what a program leaves alone, with the actions it takes
- `Prog.Triple` — a precondition, the actions allowed on the way, and a postcondition
- `Prog.Takes` — a property of every action of a run and the state it is taken in
- `Prog.Frames` — such a property from any state

The log is what an interleaving semantics schedules: another thread may look at the
state after any entry of it.
-/

namespace OdroidU2.Foundations

/-! ## §1 Programs -/

/-- The state after the last entry of a log that starts in `s`. -/
def lastState {σ ε : Type} (s : σ) (log : List (ε × σ)) : σ := log.foldl (fun _ e => e.2) s

@[simp] theorem lastState_nil {σ ε : Type} (s : σ) : lastState (ε := ε) s [] = s := rfl

@[simp] theorem lastState_cons {σ ε : Type} (s : σ) (e : ε × σ) (log : List (ε × σ)) :
    lastState s (e :: log) = lastState e.2 log := rfl

theorem lastState_append {σ ε : Type} (s : σ) (log log' : List (ε × σ)) :
    lastState s (log ++ log') = lastState (lastState s log) log' :=
  List.foldl_append

/-- A program over states `σ`: result, final state, and the log of its actions, each
with the state right after it. -/
structure Prog (σ ε α : Type) where
  /-- Run the program from a state. -/
  run : σ → α × σ × List (ε × σ)
  /-- The state changes by logged actions only. -/
  last_run : ∀ s, lastState s (run s).2.2 = (run s).2.1

namespace Prog

variable {σ ε α β : Type}

/-- The result of a run. -/
def val (p : Prog σ ε α) (s : σ) : α := (p.run s).1

/-- The final state of a run. -/
def exec (p : Prog σ ε α) (s : σ) : σ := (p.run s).2.1

/-- The actions of a run, in order, each with the state it leaves. -/
def log (p : Prog σ ε α) (s : σ) : List (ε × σ) := (p.run s).2.2

instance : Monad (Prog σ ε) where
  pure a := { run := fun s => (a, s, []), last_run := fun _ => rfl }
  bind p f :=
    { run := fun s =>
        let first := p.run s
        let second := (f first.1).run first.2.1
        (second.1, second.2.1, first.2.2 ++ second.2.2)
      last_run := fun s => by rw [lastState_append, p.last_run, (f _).last_run] }

/-- Read the state. -/
def read : Prog σ ε σ where
  run s := (s, s, [])
  last_run _ := rfl

/-- One atomic action: update the state and log the new one under the label `e`. -/
def act (e : ε) (f : σ → σ) : Prog σ ε Unit where
  run s := ((), f s, [(e, f s)])
  last_run _ := rfl

/-- A run ends in the state its last action left. -/
theorem lastState_log (p : Prog σ ε α) (s : σ) : lastState s (p.log s) = p.exec s := p.last_run s

/-! ## §2 The Three Readings of Each Construct

The equations are proved by `(rfl)`, so that `simp` rewrites with them propositionally:
a definitional rewrite would change a condition without its `Decidable` instance. -/

@[simp] theorem val_pure (a : α) (s : σ) : (pure a : Prog σ ε α).val s = a := (rfl)
@[simp] theorem exec_pure (a : α) (s : σ) : (pure a : Prog σ ε α).exec s = s := (rfl)
@[simp] theorem log_pure (a : α) (s : σ) : (pure a : Prog σ ε α).log s = [] := (rfl)

@[simp] theorem val_bind (p : Prog σ ε α) (f : α → Prog σ ε β) (s : σ) :
    (p >>= f).val s = (f (p.val s)).val (p.exec s) := (rfl)

@[simp] theorem exec_bind (p : Prog σ ε α) (f : α → Prog σ ε β) (s : σ) :
    (p >>= f).exec s = (f (p.val s)).exec (p.exec s) := (rfl)

@[simp] theorem log_bind (p : Prog σ ε α) (f : α → Prog σ ε β) (s : σ) :
    (p >>= f).log s = p.log s ++ (f (p.val s)).log (p.exec s) := (rfl)

@[simp] theorem val_read (s : σ) : (read : Prog σ ε σ).val s = s := (rfl)
@[simp] theorem exec_read (s : σ) : (read : Prog σ ε σ).exec s = s := (rfl)
@[simp] theorem log_read (s : σ) : (read : Prog σ ε σ).log s = [] := (rfl)

@[simp] theorem exec_act (e : ε) (f : σ → σ) (s : σ) : (act e f).exec s = f s := (rfl)
@[simp] theorem log_act (e : ε) (f : σ → σ) (s : σ) : (act e f).log s = [(e, f s)] := (rfl)

@[simp] theorem val_ite (c : Prop) {_ : Decidable c} (p q : Prog σ ε α) (s : σ) :
    (if c then p else q).val s = if c then p.val s else q.val s := by
  split <;> rfl

@[simp] theorem exec_ite (c : Prop) {_ : Decidable c} (p q : Prog σ ε α) (s : σ) :
    (if c then p else q).exec s = if c then p.exec s else q.exec s := by
  split <;> rfl

@[simp] theorem log_ite (c : Prop) {_ : Decidable c} (p q : Prog σ ε α) (s : σ) :
    (if c then p else q).log s = if c then p.log s else q.log s := by
  split <;> rfl

/-- Run `p` when the condition holds. -/
def when (c : Prop) [Decidable c] (p : Prog σ ε Unit) : Prog σ ε Unit :=
  if c then p else pure ()

@[simp] theorem exec_when (c : Prop) {_ : Decidable c} (p : Prog σ ε Unit) (s : σ) :
    (when c p).exec s = if c then p.exec s else s := by
  rw [when, exec_ite, exec_pure]

@[simp] theorem log_when (c : Prop) {_ : Decidable c} (p : Prog σ ε Unit) (s : σ) :
    (when c p).log s = if c then p.log s else [] := by
  rw [when, log_ite, log_pure]

/-! ## §3 Properties of Every Action of a Run -/

/-- Every action of the run of `p` from `s` satisfies `P`. -/
def Emits (P : ε → σ → Prop) (p : Prog σ ε α) (s : σ) : Prop :=
  ∀ e ∈ p.log s, P e.1 e.2

@[simp] theorem emits_pure {P : ε → σ → Prop} (a : α) (s : σ) :
    Emits P (pure a : Prog σ ε α) s := by
  simp [Emits]

@[simp] theorem emits_read {P : ε → σ → Prop} (s : σ) : Emits P (read : Prog σ ε σ) s := by
  simp [Emits]

@[simp] theorem emits_act {P : ε → σ → Prop} (e : ε) (f : σ → σ) (s : σ) :
    Emits P (act e f) s ↔ P e (f s) := by
  simp [Emits]

@[simp] theorem emits_bind {P : ε → σ → Prop} (p : Prog σ ε α) (f : α → Prog σ ε β) (s : σ) :
    Emits P (p >>= f) s ↔ Emits P p s ∧ Emits P (f (p.val s)) (p.exec s) := by
  simp only [Emits, log_bind, List.mem_append]
  exact ⟨fun h => ⟨fun e he => h e (.inl he), fun e he => h e (.inr he)⟩,
    fun h e he => he.elim (h.1 e) (h.2 e)⟩

@[simp] theorem emits_ite {P : ε → σ → Prop} (c : Prop) {_ : Decidable c} (p q : Prog σ ε α)
    (s : σ) : Emits P (if c then p else q) s ↔ if c then Emits P p s else Emits P q s := by
  split <;> rfl

@[simp] theorem emits_when {P : ε → σ → Prop} (c : Prop) {_ : Decidable c} (p : Prog σ ε Unit)
    (s : σ) : Emits P (when c p) s ↔ (c → Emits P p s) := by
  rw [when, emits_ite]
  split <;> simp [*]

/-- A property of all actions may be weakened. -/
theorem Emits.mono {P Q : ε → σ → Prop} {p : Prog σ ε α} {s : σ} (h : Emits P p s)
    (hPQ : ∀ e t, P e t → Q e t) : Emits Q p s :=
  fun e he => hPQ _ _ (h e he)

theorem lastState_of_all {Q : σ → Prop} {s : σ} {log : List (ε × σ)} (hs : Q s)
    (hlog : ∀ e ∈ log, Q e.2) : Q (lastState s log) := by
  induction log generalizing s with
  | nil => exact hs
  | cons e log ih =>
    rw [lastState_cons]
    exact ih (hlog e List.mem_cons_self) fun e' he' => hlog e' (List.mem_cons_of_mem e he')

/-- What holds at the start and after every action holds at the end. -/
theorem Emits.exec {Q : σ → Prop} {p : Prog σ ε α} {s : σ} (h : Emits (fun _ t => Q t) p s)
    (hs : Q s) : Q (p.exec s) := by
  rw [← lastState_log]
  exact lastState_of_all hs h

/-! ## §4 Invariants of Every State of a Run -/

/-- `p` keeps `I` and emits `P`: started in a state with `I`, it ends in one, and every
action on the way satisfies `P`. -/
def Keeps (I : σ → Prop) (P : ε → σ → Prop) (p : Prog σ ε α) : Prop :=
  ∀ s, I s → I (p.exec s) ∧ Emits P p s

variable {I : σ → Prop} {P : ε → σ → Prop}

theorem keeps_pure (a : α) : Keeps I P (pure a : Prog σ ε α) :=
  fun _ hs => ⟨hs, emits_pure a _⟩

theorem keeps_act {e : ε} {f : σ → σ} (hf : ∀ s, I s → I (f s) ∧ P e (f s)) :
    Keeps I P (act e f) := by
  intro s hs
  exact ⟨(hf s hs).1, (emits_act e f s).mpr (hf s hs).2⟩

theorem Keeps.bind {p : Prog σ ε α} {f : α → Prog σ ε β}
    (hp : Keeps I P p) (hf : ∀ a, Keeps I P (f a)) : Keeps I P (p >>= f) := by
  intro s hs
  obtain ⟨hmid, hlog⟩ := hp s hs
  obtain ⟨hend, hlog'⟩ := hf (p.val s) (p.exec s) hmid
  exact ⟨hend, (emits_bind p f s).mpr ⟨hlog, hlog'⟩⟩

/-- Reading the state hands the program a value about which the invariant is known. -/
theorem Keeps.read_bind {f : σ → Prog σ ε β} (hf : ∀ a, I a → Keeps I P (f a)) :
    Keeps I P (read >>= f) := by
  intro s hs
  obtain ⟨hend, hlog⟩ := hf s hs s hs
  exact ⟨hend, (emits_bind read f s).mpr ⟨emits_read s, hlog⟩⟩

theorem Keeps.ite {c : Prop} [Decidable c] {p q : Prog σ ε α}
    (hp : c → Keeps I P p) (hq : ¬c → Keeps I P q) : Keeps I P (if c then p else q) := by
  by_cases hc : c
  · rw [if_pos hc]
    exact hp hc
  · rw [if_neg hc]
    exact hq hc

theorem Keeps.when {c : Prop} [Decidable c] {p : Prog σ ε Unit}
    (hp : c → Keeps I P p) : Keeps I P (when c p) :=
  Keeps.ite hp fun _ => keeps_pure ()

/-! ## §5 What a Program Leaves Alone -/

/-- `p` leaves the value of `g` alone and takes only actions that satisfy `P`. -/
def Leaves {γ : Type} (g : σ → γ) (P : ε → σ → Prop) (p : Prog σ ε α) : Prop :=
  ∀ c, Keeps (fun s => g s = c) P p

section Leaves

variable {γ : Type} {g : σ → γ}

theorem Leaves.exec_eq {p : Prog σ ε α} (hp : Leaves g P p) (s : σ) : g (p.exec s) = g s :=
  (hp _ s rfl).1

theorem Leaves.emits {p : Prog σ ε α} (hp : Leaves g P p) (s : σ) : Emits P p s :=
  (hp _ s rfl).2

/-- In particular its actions are allowed in any state. -/
theorem Leaves.always {p : Prog σ ε α} (hp : Leaves g P p) : Keeps (fun _ => True) P p :=
  fun s _ => ⟨trivial, hp.emits s⟩

/-- What is computed from a part that is left alone is left alone. -/
theorem Leaves.comp {δ : Type} {p : Prog σ ε α} (hp : Leaves g P p) (h : γ → δ) :
    Leaves (fun s => h (g s)) P p := by
  rintro c s rfl
  exact ⟨congrArg h (hp.exec_eq s), hp.emits s⟩

theorem leaves_pure (a : α) : Leaves g P (pure a : Prog σ ε α) := fun _ => keeps_pure a

theorem leaves_act {e : ε} {f : σ → σ} (he : ∀ t, P e t) (hf : ∀ s, g (f s) = g s) :
    Leaves g P (act e f) :=
  fun _ => keeps_act fun s hs => ⟨(hf s).trans hs, he _⟩

theorem Leaves.bind {p : Prog σ ε α} {f : α → Prog σ ε β} (hp : Leaves g P p)
    (hf : ∀ a, Leaves g P (f a)) : Leaves g P (p >>= f) :=
  fun c => (hp c).bind fun a => hf a c

theorem Leaves.read_bind {f : σ → Prog σ ε β} (hf : ∀ s, Leaves g P (f s)) :
    Leaves g P (read >>= f) :=
  fun c => Keeps.read_bind fun s _ => hf s c

theorem Leaves.ite {c : Prop} [Decidable c] {p q : Prog σ ε α} (hp : Leaves g P p)
    (hq : Leaves g P q) : Leaves g P (if c then p else q) :=
  fun d => Keeps.ite (fun _ => hp d) fun _ => hq d

theorem Leaves.when {c : Prop} [Decidable c] {p : Prog σ ε Unit} (hp : Leaves g P p) :
    Leaves g P (when c p) :=
  Leaves.ite hp (leaves_pure ())

end Leaves

/-! ## §6 Triples -/

/-- Started in a state with `pre`, `p` takes only actions that satisfy `P`, and `post` holds
of its value and its final state. -/
def Triple (pre : σ → Prop) (P : ε → σ → Prop) (p : Prog σ ε α) (post : α → σ → Prop) : Prop :=
  ∀ s, pre s → Emits P p s ∧ post (p.val s) (p.exec s)

variable {pre : σ → Prop} {post : α → σ → Prop}

theorem triple_pure {a : α} (h : ∀ s, pre s → post a s) :
    Triple pre P (pure a : Prog σ ε α) post :=
  fun s hs => ⟨emits_pure a s, h s hs⟩

theorem triple_act {e : ε} {f : σ → σ} {post : Unit → σ → Prop}
    (h : ∀ s, pre s → P e (f s) ∧ post () (f s)) : Triple pre P (act e f) post :=
  fun s hs => ⟨(emits_act e f s).mpr (h s hs).1, (h s hs).2⟩

/-- Sequencing: what the first program leaves is what the second starts from. -/
theorem Triple.bind {mid : α → σ → Prop} {p : Prog σ ε α} {f : α → Prog σ ε β}
    {post : β → σ → Prop} (hp : Triple pre P p mid) (hf : ∀ a, Triple (mid a) P (f a) post) :
    Triple pre P (p >>= f) post := by
  intro s hs
  obtain ⟨hlog, hmid⟩ := hp s hs
  obtain ⟨hlog', hpost⟩ := hf (p.val s) (p.exec s) hmid
  exact ⟨(emits_bind p f s).mpr ⟨hlog, hlog'⟩, hpost⟩

theorem Triple.ite {c : Prop} [Decidable c] {p q : Prog σ ε α}
    (hp : c → Triple pre P p post) (hq : ¬c → Triple pre P q post) :
    Triple pre P (if c then p else q) post := by
  by_cases hc : c
  · rw [if_pos hc]
    exact hp hc
  · rw [if_neg hc]
    exact hq hc

/-- Consequence. -/
theorem Triple.mono {pre' : σ → Prop} {post' : α → σ → Prop} {p : Prog σ ε α}
    (h : Triple pre P p post) (hpre : ∀ s, pre' s → pre s)
    (hpost : ∀ a s, post a s → post' a s) : Triple pre' P p post' :=
  fun s hs => ⟨(h s (hpre s hs)).1, hpost _ _ (h s (hpre s hs)).2⟩

/-- A kept invariant is a triple. -/
theorem Keeps.triple {p : Prog σ ε α} (h : Keeps I P p) : Triple I P p fun _ => I :=
  fun s hs => ⟨(h s hs).2, (h s hs).1⟩

theorem Triple.keeps {p : Prog σ ε α} (h : Triple I P p fun _ => I) : Keeps I P p :=
  fun s hs => ⟨(h s hs).2, (h s hs).1⟩

/-! ## §7 Properties of Every Transition of a Run -/

/-- Every action of a log that starts in `s` satisfies `P` of the state it is taken in, its
label, and the state it leaves. -/
def LogTakes (P : σ → ε → σ → Prop) : σ → List (ε × σ) → Prop
  | _, [] => True
  | s, e :: log => P s e.1 e.2 ∧ LogTakes P e.2 log

instance decidableLogTakes {P : σ → ε → σ → Prop} [∀ s e t, Decidable (P s e t)] (s : σ)
    (log : List (ε × σ)) : Decidable (LogTakes P s log) :=
  match log with
  | [] => .isTrue trivial
  | e :: log =>
    have := decidableLogTakes (P := P) e.2 log
    inferInstanceAs (Decidable (P s e.1 e.2 ∧ LogTakes P e.2 log))

theorem logTakes_append {P : σ → ε → σ → Prop} (s : σ) (log log' : List (ε × σ)) :
    LogTakes P s (log ++ log') ↔ LogTakes P s log ∧ LogTakes P (lastState s log) log' := by
  induction log generalizing s with
  | nil => simp [LogTakes]
  | cons e log ih => simp [LogTakes, ih, and_assoc]

/-- Every action of the run of `p` from `s` satisfies `P` of the state it is taken in, its
label, and the state it leaves. -/
def Takes (P : σ → ε → σ → Prop) (p : Prog σ ε α) (s : σ) : Prop := LogTakes P s (p.log s)

instance {P : σ → ε → σ → Prop} [∀ s e t, Decidable (P s e t)] (p : Prog σ ε α) (s : σ) :
    Decidable (Takes P p s) :=
  inferInstanceAs (Decidable (LogTakes P s (p.log s)))

section Takes

variable {P : σ → ε → σ → Prop}

@[simp] theorem takes_pure (a : α) (s : σ) : Takes P (pure a : Prog σ ε α) s := trivial

@[simp] theorem takes_read (s : σ) : Takes P (read : Prog σ ε σ) s := trivial

@[simp] theorem takes_act (e : ε) (f : σ → σ) (s : σ) : Takes P (act e f) s ↔ P s e (f s) := by
  simp [Takes, LogTakes]

@[simp] theorem takes_bind (p : Prog σ ε α) (f : α → Prog σ ε β) (s : σ) :
    Takes P (p >>= f) s ↔ Takes P p s ∧ Takes P (f (p.val s)) (p.exec s) := by
  rw [Takes, log_bind, logTakes_append, lastState_log]
  rfl

@[simp] theorem takes_ite (c : Prop) {_ : Decidable c} (p q : Prog σ ε α) (s : σ) :
    Takes P (if c then p else q) s ↔ if c then Takes P p s else Takes P q s := by
  split <;> rfl

@[simp] theorem takes_when (c : Prop) {_ : Decidable c} (p : Prog σ ε Unit) (s : σ) :
    Takes P (when c p) s ↔ (c → Takes P p s) := by
  rw [when, takes_ite]
  split <;> simp [*]

/-- Labels that allow any transition. -/
theorem Emits.takes {Q : ε → σ → Prop} {p : Prog σ ε α} {s : σ} (h : Emits Q p s)
    (hQP : ∀ s e t, Q e t → P s e t) : Takes P p s := by
  -- along the log the state before each event is the one after the last, which `Q` does not ask for
  have hlog : ∀ (log : List (ε × σ)) (s : σ), (∀ e ∈ log, Q e.1 e.2) → LogTakes P s log := by
    intro log
    induction log with
    | nil => exact fun _ _ => trivial
    | cons e log ih =>
      intro s hQ
      exact ⟨hQP s _ _ (hQ e List.mem_cons_self),
        ih e.2 fun e' he' => hQ e' (List.mem_cons_of_mem e he')⟩
  exact hlog (p.log s) s h

/-- What every transition keeps is kept by the run, and may be used at each of them. -/
theorem Takes.carry {I : σ → Prop} {Q : σ → ε → σ → Prop} {p : Prog σ ε α} {s : σ}
    (h : Takes P p s) (hstep : ∀ s e t, I s → P s e t → Q s e t ∧ I t) (hs : I s) :
    Takes Q p s ∧ I (p.exec s) := by
  -- over the log: the invariant holds after each event, where the next one is judged
  have hlog : ∀ (log : List (ε × σ)) (s : σ), I s → LogTakes P s log →
      LogTakes Q s log ∧ I (lastState s log) := by
    intro log
    induction log with
    | nil => exact fun s hs _ => ⟨trivial, hs⟩
    | cons e log ih =>
      intro s hs hP
      obtain ⟨hQ, hI⟩ := hstep s _ _ hs hP.1
      obtain ⟨hrest, hlast⟩ := ih e.2 hI hP.2
      exact ⟨⟨hQ, hrest⟩, hlast⟩
  rw [← lastState_log]
  exact hlog (p.log s) s hs h

end Takes

/-! ## §8 Frames -/

/-- Whatever state `p` is started in, each of its actions satisfies `P` of the state it is taken
in, its label, and the state it leaves. -/
def Frames (P : σ → ε → σ → Prop) (p : Prog σ ε α) : Prop := ∀ s, Takes P p s

section Frames

variable {P : σ → ε → σ → Prop}

/-- A property of all transitions may be weakened. -/
theorem Frames.mono {Q : σ → ε → σ → Prop} {p : Prog σ ε α} (hp : Frames P p)
    (hPQ : ∀ s e t, P s e t → Q s e t) : Frames Q p :=
  fun s => ((hp s).carry (I := fun _ => True) (fun _ _ _ _ h => ⟨hPQ _ _ _ h, trivial⟩) trivial).1

theorem frames_pure (a : α) : Frames P (pure a : Prog σ ε α) := fun s => takes_pure a s

theorem frames_act {e : ε} {f : σ → σ} (h : ∀ s, P s e (f s)) : Frames P (act e f) :=
  fun s => (takes_act e f s).mpr (h s)

theorem Frames.bind {p : Prog σ ε α} {f : α → Prog σ ε β} (hp : Frames P p)
    (hf : ∀ a, Frames P (f a)) : Frames P (p >>= f) :=
  fun s => (takes_bind p f s).mpr ⟨hp s, hf _ _⟩

theorem Frames.read_bind {f : σ → Prog σ ε β} (hf : ∀ s, Frames P (f s)) :
    Frames P (read >>= f) :=
  Frames.bind (fun s => takes_read s) hf

theorem Frames.ite {c : Prop} [Decidable c] {p q : Prog σ ε α} (hp : Frames P p)
    (hq : Frames P q) : Frames P (if c then p else q) := by
  split
  · exact hp
  · exact hq

theorem Frames.when {c : Prop} [Decidable c] {p : Prog σ ε Unit} (hp : Frames P p) :
    Frames P (when c p) :=
  Frames.ite hp (frames_pure ())

end Frames

end Prog

end OdroidU2.Foundations
