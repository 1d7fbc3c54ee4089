import Mathlib
import OdroidU2.Foundations.Machine
import OdroidU2.Recovery.Graphics

/-!
# What the Screen Shows

With two frames `gr_flip` copies the surface to the frame that is not on display and then asks
the driver to show it.  It takes its own count of the frames for the truth: after a driver has
refused to show a frame, the next flip copies to the frame on display.

- `exec_memcpy`, `emits_memcpy` — a copy, byte by byte
- `exec_grFlip` — one flip between two frames
- `displays_run` — what is on display after a run, told without frames
- `allWhole_inStep` — when every flip of a run leaves the display alone until it is done
-/

namespace OdroidU2.Recovery

open OdroidU2.Foundations Prog

/-! ## §1 Copies -/

/-- The memory after the bytes `[k, k + n)` have been copied to `dst`. -/
def copied (dst : Nat) (src : Nat → UInt8) (k n : Nat) (mem : Nat → UInt8) : Nat → UInt8 :=
  fun o => if dst + k ≤ o ∧ o < dst + k + n then src (o - dst) else mem o

section Copied

variable {dst : Nat} {src : Nat → UInt8} {k n : Nat} {mem : Nat → UInt8}

theorem copied_zero : copied dst src k 0 mem = mem := by
  funext o
  exact if_neg (by omega)

/-- One byte, and then the others. -/
theorem copied_succ : copied dst src (k + 1) n (Function.update mem (dst + k) (src k)) =
    copied dst src k (n + 1) mem := by
  funext o
  unfold copied
  -- the byte just stored is the one by which the range has grown
  by_cases ho : o = dst + k
  · rw [if_neg (by omega), if_pos (by omega), ho, Function.update_self, Nat.add_sub_cancel_left]
  · rw [Function.update_of_ne ho]
    exact if_congr (by omega) rfl rfl

theorem copied_inside {j : Nat} (hj : j < n) : copied dst src 0 n mem (dst + j) = src j := by
  rw [copied, if_pos (by omega), Nat.add_sub_cancel_left]

theorem copied_outside {o : Nat} (ho : o < dst ∨ dst + n ≤ o) :
    copied dst src 0 n mem o = mem o :=
  if_neg (by omega)

end Copied

theorem exec_copyBytes (dst : Nat) (src : Nat → UInt8) (k n : Nat) (s : Gr) :
    (copyBytes dst src k n).exec s = { s with mem := copied dst src k n s.mem } := by
  induction n generalizing k s with
  | zero =>
    rw [copyBytes, exec_pure, copied_zero]
  | succ n ih =>
    rw [copyBytes, exec_bind, exec_act, ih]
    simp only [copied_succ]

/-- The memory after a copy. -/
theorem exec_memcpy (dst : Nat) (src : Nat → UInt8) (n : UInt32) (s : Gr) :
    (memcpy dst src n).exec s = { s with mem := copied dst src 0 n.toNat s.mem } :=
  exec_copyBytes dst src 0 n.toNat s

theorem emits_copyBytes {P : GrEvent → Gr → Prop} {dst : Nat} {src : Nat → UInt8} (k n : Nat)
    (s : Gr) : (copyBytes dst src k n).Emits P s ↔
      ∀ j < n, P (.store (dst + (k + j))) { s with mem := copied dst src k (j + 1) s.mem } := by
  -- byte after byte: the memory at a store is what the earlier stores have made of it
  induction n generalizing k s with
  | zero =>
    rw [copyBytes]
    exact iff_of_true (emits_pure _ _) fun j hj => absurd hj (Nat.not_lt_zero j)
  | succ n ih =>
    rw [copyBytes, emits_bind, emits_act, exec_act, ih, Nat.forall_lt_succ_left]
    simp only [← copied_succ, copied_zero, Nat.add_zero]
    refine and_congr_right fun _ => forall₂_congr fun j _ => ?_
    rw [Nat.add_right_comm, Nat.add_assoc]

/-- The actions of a copy: a store at each offset of the target. -/
theorem emits_memcpy {P : GrEvent → Gr → Prop} {dst : Nat} {src : Nat → UInt8} {n : UInt32}
    {s : Gr} : (memcpy dst src n).Emits P s ↔
      ∀ j < n.toNat, P (.store (dst + j)) { s with mem := copied dst src 0 (j + 1) s.mem } := by
  rw [memcpy, emits_copyBytes]
  simp only [Nat.zero_add]

/-! ## §2 The Display -/

/-- The offset at which the display begins. -/
def Gr.shownOffset (s : Gr) : Nat := s.shownLine.toNat * s.fi.lineLength.toNat

/-- The offset is on display. -/
def Gr.OnDisplay (s : Gr) (o : Nat) : Prop :=
  s.shownOffset ≤ o ∧ o < s.shownOffset + s.frameSize.toNat

/-- The display shows this picture. -/
def Gr.Shows (s : Gr) (picture : Nat → UInt8) : Prop :=
  ∀ i < s.frameSize.toNat, s.mem (s.shownOffset + i) = picture i

/-- Two whole frames, one of which is on display. -/
structure TwoFrames (s : Gr) : Prop where
  double : s.doubleBuffering
  active : s.activeFb = 0 ∨ s.activeFb = 1
  first : s.framebuffer.1.data = 0
  second : s.framebuffer.2.data = s.frameSize.toNat
  /-- The size of a frame does not overflow. -/
  exact : s.frameSize.toNat = s.vi.yres.toNat * s.fi.lineLength.toNat
  nonempty : 0 < s.frameSize.toNat
  shown : s.shownLine = 0 ∨ s.shownLine = s.vi.yres

/-- The frame that is counted as active is the one on display. -/
def Gr.InStep (s : Gr) : Prop := s.shownLine = s.activeFb * s.vi.yres

instance (s : Gr) : Decidable s.InStep := by unfold Gr.InStep; infer_instance

/-- The frame that the next flip copies to. -/
def Gr.otherFb (s : Gr) : UInt32 := (s.activeFb + 1) &&& 1

/-- Draw, or flip; the driver takes the new frame or refuses it. -/
inductive ScreenStep where
  | draw (picture : Nat → UInt8)
  | flip (ok : Bool)

/-- The screen, whatever is drawn and whatever the driver answers. -/
def screenMachine (format : PixelFormat) : Machine Gr ScreenStep where
  step s
    | .draw picture => some { s with drawn := picture }
    | .flip ok => some ((grFlip format ok).exec s)

/-- The flip stores nothing on display, and at every moment of it the display shows what it showed
before, or what was drawn. -/
def FlipWhole (format : PixelFormat) (s : Gr) : ScreenStep → Prop
  | .draw _ => True
  | .flip ok =>
    (grFlip format ok).Emits (fun e t => ∀ o, e = .store o → ¬t.OnDisplay o) s ∧
      ∀ picture, s.Shows picture →
        (grFlip format ok).Emits (fun _ t => t.Shows picture ∨ t.Shows s.drawn) s

/-- The answers of the driver to the flips of a run. -/
def flips (steps : List ScreenStep) : List Bool :=
  steps.filterMap fun
    | .draw _ => none
    | .flip ok => some ok

@[simp] theorem flips_draw (picture : Nat → UInt8) (steps : List ScreenStep) :
    flips (.draw picture :: steps) = flips steps := rfl

@[simp] theorem flips_flip (ok : Bool) (steps : List ScreenStep) :
    flips (.flip ok :: steps) = ok :: flips steps := rfl

/-- The screen as its user has it: what is on display and what is drawn, and whether the count of
the frames is right. -/
structure Screen where
  inStep : Bool
  shown : Nat → UInt8
  drawn : Nat → UInt8

/-- A flip that the driver refuses is lost, and the count is wrong after it.  On a wrong count a
flip is on display whatever the driver answers, and the count is right again. -/
def Screen.next (d : Screen) : ScreenStep → Screen
  | .draw picture => { d with drawn := picture }
  | .flip ok =>
    if d.inStep ∧ ok = false then { d with inStep := false }
    else { d with inStep := true, shown := d.drawn }

/-- The screen is in this state. -/
structure Displays (s : Gr) (d : Screen) : Prop where
  frames : TwoFrames s
  inStep : s.InStep ↔ d.inStep
  shown : s.Shows d.shown
  drawn : s.drawn = d.drawn

/-! ## §3 One Flip -/

section Flip

variable {format : PixelFormat} {s : Gr}

theorem TwoFrames.cases (h : TwoFrames s) :
    s.activeFb = 0 ∧ s.otherFb = 1 ∨ s.activeFb = 1 ∧ s.otherFb = 0 := by
  rcases h.active with ha | ha
  · left
    rw [Gr.otherFb, ha]
    decide
  · right
    rw [Gr.otherFb, ha]
    decide

theorem TwoFrames.otherFb (h : TwoFrames s) : s.otherFb = 0 ∨ s.otherFb = 1 := by
  rcases h.cases with ⟨-, ho⟩ | ⟨-, ho⟩
  · exact .inr ho
  · exact .inl ho

theorem TwoFrames.frameOffset (h : TwoFrames s) {n : UInt32} (hn : n = 0 ∨ n = 1) :
    s.frameOffset n = (n * s.vi.yres).toNat * s.fi.lineLength.toNat := by
  rcases hn with rfl | rfl
  · rw [Gr.frameOffset, if_pos rfl, h.first, UInt32.zero_mul]
    exact (Nat.zero_mul _).symm
  · rw [Gr.frameOffset, if_neg (by decide), h.second, UInt32.one_mul, h.exact]

/-- The next frame is counted as active. -/
def Gr.counted (s : Gr) : Gr := { s with activeFb := s.otherFb }

/-- What was drawn has been copied to it. -/
def Gr.filled (s : Gr) : Gr :=
  { s.counted with
    mem := copied (s.frameOffset s.otherFb) s.drawn 0 s.frameSize.toNat s.mem }

/-- The driver has been asked to show frame `n`. -/
def Gr.requested (s : Gr) (format : PixelFormat) (n : UInt32) (ok : Bool) : Gr :=
  { s with
    vi := { s.vi with
      yresVirtual := s.vi.yres * 2, yoffset := n * s.vi.yres, bitsPerPixel := format.size * 8 }
    shownLine := if ok then n * s.vi.yres else s.shownLine }

theorem exec_setActiveFramebuffer {n : UInt32} (hn : n = 0 ∨ n = 1) (hdouble : s.doubleBuffering)
    (ok : Bool) : (setActiveFramebuffer format n ok).exec s = s.requested format n ok := by
  have hn' : ¬(n > 1 ∨ s.doubleBuffering = false) := by
    rw [hdouble]
    rcases hn with rfl | rfl <;> decide
  rw [setActiveFramebuffer, exec_bind, val_read, exec_read, exec_ite, if_neg hn']
  cases ok <;> rfl

theorem TwoFrames.exec_counted (h : TwoFrames s) :
    (when s.doubleBuffering
      (assign fun s => { s with activeFb := (s.activeFb + 1) &&& 1 })).exec s = s.counted := by
  rw [exec_when, if_pos h.double]
  rfl

theorem TwoFrames.exec_filled (s : Gr) :
    (memcpy (s.counted.frameOffset s.otherFb) s.counted.drawn
      (s.counted.fi.lineLength * s.counted.vi.yres)).exec s.counted = s.filled := by
  have hsize : s.counted.fi.lineLength * s.counted.vi.yres = s.frameSize := UInt32.mul_comm _ _
  rw [hsize, exec_memcpy]
  rfl

/-- **One flip** between two frames. -/
theorem exec_grFlip (h : TwoFrames s) (ok : Bool) :
    (grFlip format ok).exec s = s.filled.requested format s.otherFb ok := by
  have hother : s.counted.activeFb = s.otherFb := rfl
  rw [grFlip, exec_bind, val_read, exec_read, exec_bind, h.exec_counted, exec_bind, val_read,
    exec_read, exec_bind, hother, TwoFrames.exec_filled]
  have hdouble : s.filled.doubleBuffering := h.double
  exact exec_setActiveFramebuffer h.otherFb hdouble ok

theorem emits_setActiveFramebuffer {n : UInt32} (hn : n = 0 ∨ n = 1) (hdouble : s.doubleBuffering)
    (ok : Bool) (P : GrEvent → Gr → Prop) : (setActiveFramebuffer format n ok).Emits P s ↔
      P .assign { s with vi.yresVirtual := s.vi.yres * 2 } ∧
      P .assign { s with vi.yresVirtual := s.vi.yres * 2, vi.yoffset := n * s.vi.yres } ∧
      P .assign { s with
        vi := { s.vi with
          yresVirtual := s.vi.yres * 2, yoffset := n * s.vi.yres, bitsPerPixel := format.size * 8 } } ∧
      P (.ioctl s.fbFd .putVscreeninfo ok) (s.requested format n ok) := by
  -- `n > 1 || !double_buffering` is not taken
  have hn' : ¬(n > 1 ∨ s.doubleBuffering = false) := by
    rw [hdouble]
    rcases hn with rfl | rfl <;> decide
  rw [setActiveFramebuffer, emits_bind, val_read, exec_read, emits_ite, if_neg hn']
  simp only [emits_read, emits_bind, assign, emits_act, exec_act, putVscreeninfo, true_and]
  -- the three assignments and the ioctl, whatever it answers
  cases ok <;> rfl

/-- The actions of a flip: the count, the copy, and the request. -/
theorem emits_grFlip (h : TwoFrames s) (ok : Bool) (P : GrEvent → Gr → Prop) :
    (grFlip format ok).Emits P s ↔
      P .assign s.counted ∧
        (∀ j < s.frameSize.toNat, P (.store (s.frameOffset s.otherFb + j))
          { s.counted with
            mem := copied (s.frameOffset s.otherFb) s.drawn 0 (j + 1) s.mem }) ∧
        (setActiveFramebuffer format s.otherFb ok).Emits P s.filled := by
  have hother : s.counted.activeFb = s.otherFb := rfl
  have hsize : s.counted.fi.lineLength * s.counted.vi.yres = s.frameSize := UInt32.mul_comm _ _
  -- the swap of `gr_active_fb`, made only with two frames
  have hcount : (when s.doubleBuffering
      (assign fun s => { s with activeFb := (s.activeFb + 1) &&& 1 })).Emits P s ↔
        P .assign s.counted := by
    rw [emits_when]
    exact ⟨fun hp => (emits_act _ _ s).mp (hp h.double), fun hp _ => (emits_act _ _ s).mpr hp⟩
  rw [grFlip, emits_bind, val_read, exec_read, emits_bind, h.exec_counted, hcount, emits_bind,
    val_read, exec_read, emits_bind, hother, TwoFrames.exec_filled, hsize, emits_memcpy]
  simp only [emits_read, true_and]
  rfl

/-- The lines of the two frames are not the same. -/
theorem TwoFrames.yres_ne (h : TwoFrames s) : s.vi.yres ≠ 0 := by
  intro hzero
  have hexact := h.exact
  rw [hzero, UInt32.toNat_zero, Nat.zero_mul] at hexact
  exact absurd h.nonempty (by omega)

/-- The display begins at the frame counted as active when the count is right, and else at the
other one. -/
theorem TwoFrames.shownLine (h : TwoFrames s) :
    s.shownLine = (if s.InStep then s.activeFb else s.otherFb) * s.vi.yres := by
  split
  · assumption
  · -- out of step: the line shown belongs to one of the two frames, and not to the active one
    rename_i hin
    rw [Gr.InStep] at hin
    rcases h.cases with ⟨ha, ho⟩ | ⟨ha, ho⟩
    · rw [ha, UInt32.zero_mul] at hin
      rw [ho, UInt32.one_mul]
      exact h.shown.resolve_left hin
    · rw [ha, UInt32.one_mul] at hin
      rw [ho, UInt32.zero_mul]
      exact h.shown.resolve_right hin

theorem TwoFrames.shownOffset_inStep (h : TwoFrames s) (hin : s.InStep) :
    s.shownOffset = s.frameOffset s.activeFb := by
  rw [h.frameOffset h.active, Gr.shownOffset, h.shownLine, if_pos hin]

theorem TwoFrames.shownOffset_outOfStep (h : TwoFrames s) (hin : ¬s.InStep) :
    s.shownOffset = s.frameOffset s.otherFb := by
  rw [h.frameOffset h.otherFb, Gr.shownOffset, h.shownLine, if_neg hin]

/-- The two frames share no byte. -/
theorem TwoFrames.apart (h : TwoFrames s) :
    s.frameOffset s.activeFb + s.frameSize.toNat ≤ s.frameOffset s.otherFb ∨
      s.frameOffset s.otherFb + s.frameSize.toNat ≤ s.frameOffset s.activeFb := by
  have hzero : s.frameOffset 0 = 0 := h.first
  have hone : s.frameOffset 1 = s.frameSize.toNat := h.second
  rcases h.cases with ⟨ha, ho⟩ | ⟨ha, ho⟩
  · left
    rw [ha, ho, hzero, hone, Nat.zero_add]
  · right
    rw [ha, ho, hzero, hone, Nat.zero_add]

/-! ## §4 What a Flip Does to the Display -/

/-- The state after a flip. -/
def Gr.flipped (s : Gr) (format : PixelFormat) (ok : Bool) : Gr :=
  s.filled.requested format s.otherFb ok

theorem flipped_inStep (format : PixelFormat) (h : TwoFrames s) (ok : Bool) :
    (s.flipped format ok).InStep ↔ ok ∨ ¬s.InStep := by
  have hline : (s.flipped format ok).InStep ↔
      (if ok then s.otherFb * s.vi.yres else s.shownLine) = s.otherFb * s.vi.yres := Iff.rfl
  rw [hline, h.shownLine]
  cases ok
  · -- a pan that fails leaves the line shown: it is the new frame's only if it was out of step
    -- before
    by_cases hin : s.InStep
    · rcases h.cases with ⟨ha, ho⟩ | ⟨ha, ho⟩ <;>
        simp [hin, ha, ho, h.yres_ne, Ne.symm h.yres_ne]
    · simp [hin]
  · simp

theorem flipped_twoFrames (format : PixelFormat) (h : TwoFrames s) (ok : Bool) : TwoFrames (s.flipped format ok) where
  double := h.double
  active := h.otherFb
  first := h.first
  second := h.second
  exact := h.exact
  nonempty := h.nonempty
  shown := by
    have hline : (s.flipped format ok).shownLine =
      if ok then s.otherFb * s.vi.yres else s.shownLine := rfl
    rw [hline]
    show _ ∨ _ = s.vi.yres
    -- a FBIOPUT_VSCREENINFO that fails leaves the old frame on display
    cases ok
    · exact h.shown
    · rcases h.otherFb with ho | ho <;> simp [ho]

/-- The flip fills the frame that is on display after it. -/
theorem flipped_shows (h : TwoFrames s) {ok : Bool} (hok : ok ∨ ¬s.InStep) :
    (s.flipped format ok).Shows s.drawn := by
  have hflipped := flipped_twoFrames format h ok
  -- the frame on display is the one that the drawing has just been copied into
  have hoffset : (s.flipped format ok).shownOffset = s.frameOffset s.otherFb :=
    hflipped.shownOffset_inStep ((flipped_inStep format h ok).mpr hok)
  intro i hi
  rw [hoffset]
  exact copied_inside hi

/-- A copy to the other frame leaves the display alone. -/
theorem shows_copied (h : TwoFrames s) (hin : s.InStep) {picture : Nat → UInt8}
    (hs : s.Shows picture) {j n : Nat} (hn : j + n ≤ s.frameSize.toNat) {i : Nat}
    (hi : i < s.frameSize.toNat) :
    copied (s.frameOffset s.otherFb) s.drawn j n s.mem (s.shownOffset + i) = picture i := by
  rw [copied, if_neg, hs i hi]
  rw [h.shownOffset_inStep hin]
  rcases h.apart with hapart | hapart <;> omega

/-- A flip on a right count leaves the display alone until the driver shows the other frame. -/
theorem flipWhole_of_inStep (h : TwoFrames s) (hin : s.InStep) (ok : Bool) :
    FlipWhole format s (.flip ok) := by
  have hdouble : s.filled.doubleBuffering := h.double
  have hdisplay : s.shownOffset = s.frameOffset s.activeFb := h.shownOffset_inStep hin
  constructor
  · -- what is stored goes to the frame that is not on display
    have hother {e : GrEvent} {t : Gr} (he : ∀ o, e ≠ .store o) : ∀ o, e = .store o → ¬t.OnDisplay o :=
      fun o ho => absurd ho (he o)
    rw [emits_grFlip h, emits_setActiveFramebuffer h.otherFb hdouble]
    refine ⟨hother (by simp), fun j hj o ho hon => ?_, hother (by simp), hother (by simp),
      hother (by simp), hother (by simp)⟩
    obtain rfl := GrEvent.store.inj ho
    obtain ⟨hlow, hhigh⟩ : s.OnDisplay (s.frameOffset s.otherFb + j) := hon
    rcases h.apart with hapart | hapart <;> omega
  · -- and what is on display stays whole until the ioctl moves the display to the filled frame
    intro picture hs
    have hfilled : ∀ i < s.frameSize.toNat, s.filled.mem (s.shownOffset + i) = picture i :=
      fun i hi => shows_copied h hin hs (by omega) hi
    rw [emits_grFlip h, emits_setActiveFramebuffer h.otherFb hdouble]
    refine ⟨.inl hs, fun j hj => .inl fun i hi => shows_copied h hin hs (by omega) hi,
      .inl hfilled, .inl hfilled, .inl hfilled, ?_⟩
    cases ok
    · exact .inl hfilled
    · exact .inr (flipped_shows h (.inl rfl))

/-- A flip on a wrong count stores on display. -/
theorem inStep_of_flipWhole (h : TwoFrames s) {ok : Bool} (hw : FlipWhole format s (.flip ok)) :
    s.InStep := by
  by_contra hin
  -- out of step, the copy's first store would go to the frame on display
  have hstores := ((emits_grFlip h ok _).mp hw.1).2.1 0 h.nonempty _ rfl
  apply hstores
  show s.OnDisplay (s.frameOffset s.otherFb + 0)
  rw [Nat.add_zero, ← h.shownOffset_outOfStep hin]
  exact ⟨le_rfl, by have := h.nonempty; omega⟩

end Flip

/-! ## §5 Runs -/

section Run

variable {format : PixelFormat}

theorem step_flip (s : Gr) (ok : Bool) (h : TwoFrames s) :
    (screenMachine format).step s (.flip ok) = some (s.flipped format ok) :=
  congrArg some (exec_grFlip h ok)

theorem forall_step_draw {s : Gr} {picture : Nat → UInt8} {P : Gr → Prop} :
    (∀ t, (screenMachine format).step s (.draw picture) = some t → P t) ↔
      P { s with drawn := picture } :=
  ⟨fun h => h _ rfl, fun h _ ht => Option.some.inj ht ▸ h⟩

theorem forall_step_flip {s : Gr} {ok : Bool} (h : TwoFrames s) {P : Gr → Prop} :
    (∀ t, (screenMachine format).step s (.flip ok) = some t → P t) ↔ P (s.flipped format ok) := by
  rw [step_flip s ok h]
  exact ⟨fun h => h _ rfl, fun h _ ht => Option.some.inj ht ▸ h⟩

theorem twoFrames_step {s t : Gr} {a : ScreenStep} (h : TwoFrames s)
    (hstep : (screenMachine format).step s a = some t) : TwoFrames t := by
  cases a with
  | draw picture =>
    obtain rfl := Option.some.inj hstep
    exact { h with }
  | flip ok =>
    rw [step_flip s ok h] at hstep
    obtain rfl := Option.some.inj hstep
    exact flipped_twoFrames format h ok

/-- A step of the program is one of the screen. -/
theorem displays_step {s t : Gr} {d : Screen} {a : ScreenStep} (h : Displays s d)
    (hstep : (screenMachine format).step s a = some t) : Displays t (d.next a) := by
  have hframes := twoFrames_step h.frames hstep
  cases a with
  | draw picture =>
    obtain rfl := Option.some.inj hstep
    exact ⟨hframes, h.inStep, h.shown, rfl⟩
  | flip ok =>
    rw [step_flip s ok h.frames] at hstep
    obtain rfl := Option.some.inj hstep
    have hin := flipped_inStep format h.frames ok
    by_cases hlost : s.InStep ∧ ok = false
    · -- the flip is lost: the display is as before
      obtain ⟨hs, rfl⟩ := hlost
      have hnext : d.next (.flip false) = { d with inStep := false } := if_pos ⟨h.inStep.mp hs, rfl⟩
      rw [hnext]
      refine ⟨hframes, ?_, ?_, h.drawn⟩
      · rw [hin]
        simp [hs]
      · exact fun i hi => shows_copied h.frames hs h.shown (Nat.le_of_eq (Nat.zero_add _)) hi
    · -- the flip arrives, or it brings the two counts in step again
      have hshows : ok ∨ ¬s.InStep := by
        cases ok
        · exact .inr fun hs => hlost ⟨hs, rfl⟩
        · exact .inl rfl
      have hnext : d.next (.flip ok) = { d with inStep := true, shown := d.drawn } :=
        if_neg (by rwa [← h.inStep])
      rw [hnext]
      refine ⟨hframes, ?_, ?_, h.drawn⟩
      · rw [hin]
        simp [hshows]
      · show (s.flipped format ok).Shows d.drawn
        rw [← h.drawn]
        exact flipped_shows h.frames hshows

/-- **Runs**: the program takes the screen through the states that the driver's answers give. -/
theorem displays_run {s t : Gr} {d : Screen} {steps : List ScreenStep} (h : Displays s d)
    (hrun : (screenMachine format).run s steps = some t) :
    Displays t (steps.foldl Screen.next d) := by
  induction steps generalizing s d with
  | nil =>
    obtain rfl := Option.some.inj hrun
    exact h
  | cons a steps ih =>
    obtain ⟨u, hu, hrest⟩ := Option.bind_eq_some_iff.mp hrun
    exact ih (displays_step h hu) hrest

/-- On a wrong count the very next flip tears. -/
theorem allWhole_outOfStep {s : Gr} (h : TwoFrames s) (hin : ¬s.InStep)
    (steps : List ScreenStep) :
    (screenMachine format).AllSteps (FlipWhole format) s steps ↔ flips steps = [] := by
  -- out of step the first flip already draws over what is shown
  induction steps generalizing s with
  | nil => exact iff_of_true trivial rfl
  | cons a steps ih =>
    cases a with
    | draw picture =>
      have hdraw : TwoFrames { s with drawn := picture } := { h with }
      rw [Machine.AllSteps, forall_step_draw, ih hdraw hin]
      exact and_iff_right trivial
    | flip ok =>
      rw [flips_flip]
      exact iff_of_false (fun hall => hin (inStep_of_flipWhole h hall.1)) (List.cons_ne_nil _ _)

/-- On a right count the flips are whole as long as only the last one is refused. -/
theorem allWhole_inStep {s : Gr} (h : TwoFrames s) (hin : s.InStep) (steps : List ScreenStep) :
    (screenMachine format).AllSteps (FlipWhole format) s steps ↔
      ∀ ok ∈ (flips steps).dropLast, ok = true := by
  -- in step every flip is whole; what it leaves for the others depends on its answer
  induction steps generalizing s with
  | nil => exact iff_of_true trivial fun _ hok => absurd hok List.not_mem_nil
  | cons a steps ih =>
    cases a with
    | draw picture =>
      have hdraw : TwoFrames { s with drawn := picture } := { h with }
      rw [Machine.AllSteps, forall_step_draw, ih hdraw hin]
      exact and_iff_right trivial
    | flip ok =>
      have hflipped := flipped_twoFrames format h ok
      have hstep := flipped_inStep format h ok
      rw [Machine.AllSteps, forall_step_flip h, flips_flip]
      refine (and_iff_right (flipWhole_of_inStep h hin ok)).trans ?_
      cases ok with
      -- the frames have changed places, so the rest starts in step again
      | true =>
        rw [ih hflipped (hstep.mpr (.inl rfl))]
        cases hrest : flips steps with
        | nil => simp
        | cons => simp
      -- the count has moved and the display has not: no later flip is whole
      | false =>
        rw [allWhole_outOfStep hflipped (by simp [hstep, hin])]
        cases hrest : flips steps with
        | nil => simp
        | cons => simp

end Run

end OdroidU2.Recovery
