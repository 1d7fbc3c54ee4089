import OdroidU2.Foundations.Prog

/-!
# Monitors

A monitor follows the log of a program with a state of its own: it moves on with every action,
and in each of its states it allows some actions and not others.

- `Prog.replay` — where a program takes a monitor
- `Prog.Accepts` — every action of a program is allowed when it comes
- `Prog.accepts_of_unseen` — a program that the monitor has no eyes for
-/

namespace OdroidU2.Foundations

namespace Prog

variable {σ ε τ α β : Type}

/-! ## §1 Following a Log -/

/-- Where the log of a program takes the monitor. -/
def replay (after : τ → ε → σ → τ) (p : Prog σ ε α) (s : σ) (x : τ) : τ :=
  (p.log s).foldl (fun x e => after x e.1 e.2) x

section Replay

variable (after : τ → ε → σ → τ)

@[simp] theorem replay_pure (a : α) (s : σ) (x : τ) :
    replay after (pure a : Prog σ ε α) s x = x := rfl

@[simp] theorem replay_read (s : σ) (x : τ) : replay after (read : Prog σ ε σ) s x = x := rfl

@[simp] theorem replay_act (e : ε) (f : σ → σ) (s : σ) (x : τ) :
    replay after (act e f) s x = after x e (f s) := rfl

@[simp] theorem replay_bind (p : Prog σ ε α) (f : α → Prog σ ε β) (s : σ) (x : τ) :
    replay after (p >>= f) s x = replay after (f (p.val s)) (p.exec s) (replay after p s x) := by
  rw [replay, log_bind, List.foldl_append]
  rfl

@[simp] theorem replay_ite (c : Prop) {_ : Decidable c} (p q : Prog σ ε α) (s : σ) (x : τ) :
    replay after (if c then p else q) s x =
      if c then replay after p s x else replay after q s x := by
  split <;> rfl

@[simp] theorem replay_when (c : Prop) {_ : Decidable c} (p : Prog σ ε Unit) (s : σ) (x : τ) :
    replay after (when c p) s x = if c then replay after p s x else x := by
  rw [when, replay_ite, replay_pure]

/-- Actions that the monitor does not see leave it where it is. -/
theorem replay_of_unseen {p : Prog σ ε α} {s : σ} (hp : Emits (fun e t => ∀ x, after x e t = x) p s)
    (x : τ) : replay after p s x = x := by
  -- no event of the log moves the observer, whatever it has seen before
  have hlog (log : List (ε × σ)) (h : ∀ e ∈ log, ∀ x, after x e.1 e.2 = x) :
      log.foldl (fun x e => after x e.1 e.2) x = x := by
    induction log with
    | nil => rfl
    | cons e log ih =>
      obtain ⟨he, hrest⟩ := List.forall_mem_cons.mp h
      rw [List.foldl_cons, he x]
      exact ih hrest
  exact hlog (p.log s) hp

end Replay

/-! ## §2 Allowed Actions -/

section Accepts

variable (after : τ → ε → σ → τ) (allows : τ → ε → σ → Prop)

/-- Every action of the log is allowed in the state that the monitor is in before it. -/
def LogAccepts : τ → List (ε × σ) → Prop
  | _, [] => True
  | x, e :: log => allows x e.1 e.2 ∧ LogAccepts (after x e.1 e.2) log

instance decidableLogAccepts [∀ x e t, Decidable (allows x e t)] (x : τ) (log : List (ε × σ)) :
    Decidable (LogAccepts after allows x log) :=
  match log with
  | [] => .isTrue trivial
  | e :: log =>
    have := decidableLogAccepts (after x e.1 e.2) log
    inferInstanceAs (Decidable (allows x e.1 e.2 ∧ LogAccepts after allows (after x e.1 e.2) log))

theorem logAccepts_append (x : τ) (log log' : List (ε × σ)) :
    LogAccepts after allows x (log ++ log') ↔ LogAccepts after allows x log ∧
      LogAccepts after allows (log.foldl (fun x e => after x e.1 e.2) x) log' := by
  induction log generalizing x with
  | nil => simp [LogAccepts]
  | cons e log ih => simp [LogAccepts, ih, and_assoc]

/-- Every action of a program is allowed in the state that the monitor is in before it. -/
def Accepts (p : Prog σ ε α) (s : σ) (x : τ) : Prop := LogAccepts after allows x (p.log s)

instance [∀ x e t, Decidable (allows x e t)] (p : Prog σ ε α) (s : σ) (x : τ) :
    Decidable (Accepts after allows p s x) :=
  inferInstanceAs (Decidable (LogAccepts after allows x (p.log s)))

@[simp] theorem accepts_pure (a : α) (s : σ) (x : τ) :
    Accepts after allows (pure a : Prog σ ε α) s x := trivial

@[simp] theorem accepts_read (s : σ) (x : τ) :
    Accepts after allows (read : Prog σ ε σ) s x := trivial

@[simp] theorem accepts_act (e : ε) (f : σ → σ) (s : σ) (x : τ) :
    Accepts after allows (act e f) s x ↔ allows x e (f s) := by
  simp [Accepts, LogAccepts]

@[simp] theorem accepts_bind (p : Prog σ ε α) (f : α → Prog σ ε β) (s : σ) (x : τ) :
    Accepts after allows (p >>= f) s x ↔ Accepts after allows p s x ∧
      Accepts after allows (f (p.val s)) (p.exec s) (replay after p s x) := by
  rw [Accepts, log_bind, logAccepts_append]
  rfl

@[simp] theorem accepts_ite (c : Prop) {_ : Decidable c} (p q : Prog σ ε α) (s : σ) (x : τ) :
    Accepts after allows (if c then p else q) s x ↔
      if c then Accepts after allows p s x else Accepts after allows q s x := by
  split <;> rfl

@[simp] theorem accepts_when (c : Prop) {_ : Decidable c} (p : Prog σ ε Unit) (s : σ) (x : τ) :
    Accepts after allows (when c p) s x ↔ (c → Accepts after allows p s x) := by
  rw [when, accepts_ite]
  split <;> simp [*]

/-- Actions that the monitor does not see and allows in any of its states. -/
theorem accepts_of_unseen {p : Prog σ ε α} {s : σ}
    (hp : Emits (fun e t => ∀ x, after x e t = x ∧ allows x e t) p s) (x : τ) :
    Accepts after allows p s x := by
  have hlog (log : List (ε × σ)) (h : ∀ e ∈ log, ∀ x, after x e.1 e.2 = x ∧ allows x e.1 e.2) :
      LogAccepts after allows x log := by
    -- the monitor's state never moves, so each event is judged from the same `x`
    induction log with
    | nil => exact trivial
    | cons e log ih =>
      obtain ⟨he, hrest⟩ := List.forall_mem_cons.mp h
      obtain ⟨hafter, hallows⟩ := he x
      refine ⟨hallows, ?_⟩
      rw [hafter]
      exact ih hrest
  exact hlog (p.log s) hp

end Accepts

end Prog

end OdroidU2.Foundations
