import Mathlib
import OdroidU2.Recovery.Display

/-!
# The Screen from Its Start

`gr_init` asks the driver for a mode, maps the memory of the framebuffer and clears the frames in it.
Whether there is room for two frames is decided by a product of 32 bits.

- `exec_grInit`, `emits_grInit` — `gr_init` when all its calls succeed
- `screen_refines` — what the display shows after any run of flips
- `flips_whole_iff` — the runs in which nothing is stored on display
- `inBounds_iff` — the modes in which no run stores outside the framebuffer memory
-/

namespace OdroidU2.Recovery

open OdroidU2.Foundations Prog

/-- Every call that `gr_init` depends on succeeds, in this mode.  There need not be a console. -/
structure Mapped (out : InitOutcome) (vi : FbVarScreeninfo) (fi : FbFixScreeninfo) : Prop where
  console : out.vt → out.graphicsMode
  fb : out.fb
  getVar : out.getVar.isSome
  putVar : out.putVar = some vi
  getFix : out.getFix = some fi
  mmap : out.mmap
  surface : out.surface

/-- There is room for two frames of at least one byte. -/
structure FitsTwice (vi : FbVarScreeninfo) (fi : FbFixScreeninfo) : Prop where
  twice : vi.yres.toNat * fi.lineLength.toNat * 2 ≤ fi.smemLen.toNat
  nonempty : 0 < vi.yres.toNat * fi.lineLength.toNat

section Start

variable {format : PixelFormat} {out : InitOutcome} {vi : FbVarScreeninfo} {fi : FbFixScreeninfo}

/-! ## §1 The Start -/

/-- The state in which `gr_init` maps the framebuffer. -/
def Gr.opened (s : Gr) (font : Font) (out : InitOutcome) (vi : FbVarScreeninfo)
    (fi : FbFixScreeninfo) : Gr :=
  let fb := if out.vt then s.nextFd + 1 else s.nextFd
  { s with
    font := some (font.load ((decodeRuns font.rundata).getD []))
    vtFd := if out.vt then s.nextFd else -1
    vi := vi
    fi := fi
    shownLine := vi.yoffset
    nextFd := fb + 1
    openFds := (fb : Int) :: if out.vt then (s.nextFd : Int) :: s.openFds else s.openFds
    nextBlock := s.nextBlock + 2
    live := (s.nextBlock + 1) :: s.nextBlock :: s.live }

/-- Its descriptor. -/
def Gr.fbOf (s : Gr) (out : InitOutcome) : Int := if out.vt then s.nextFd + 1 else s.nextFd

theorem val_mapFramebuffer (fd : Int) (s : Gr) : (mapFramebuffer format fd).val s = fd := by
  simp [mapFramebuffer]

/-- `gr_init` up to the mapping, and what follows it. -/
theorem exec_grInit (h : Mapped out vi fi) (font : Font) (s : Gr) :
    (grInit format font out).exec s =
      (startScreen format out).exec
        { (mapFramebuffer format (s.fbOf out)).exec (s.opened font out vi fi) with
          fbFd := s.fbOf out } := by
  have hconsole := h.console
  have hvar : out.getVar ≠ none := Option.isSome_iff_ne_none.mp h.getVar
  have hfd (n : Nat) : ¬(n : Int) < 0 := by omega
  have hfd' (n : Nat) : ¬((n : Int) + 1) < 0 := by omega
  -- `/dev/tty0` opened or not, the descriptors count from there
  cases hvt : out.vt
  · simp [grInit, openScreen, getFramebuffer, grInitFont, openFile, malloc, hvt, hfd, hvar, h.fb, h.putVar,
      h.getFix, h.mmap, val_mapFramebuffer, Gr.opened, Gr.fbOf]
  · simp [grInit, openScreen, getFramebuffer, grInitFont, openFile, malloc, hvt, hconsole hvt, hfd', hvar,
      h.fb, h.putVar, h.getFix, h.mmap, val_mapFramebuffer, Gr.opened, Gr.fbOf]

/-- What is no store in the framebuffer memory. -/
def Storeless (e : GrEvent) (_ : Gr) : Prop := ∀ o, e ≠ .store o

theorem startScreen_storeless : Keeps (fun _ => True) Storeless (startScreen format out) := by
  have hact {e : GrEvent} {f : Gr → Gr} (he : ∀ o, e ≠ .store o) :
      Keeps (fun _ => True) Storeless (act e f) := keeps_act fun _ _ => ⟨trivial, he⟩
  have hassign {f : Gr → Gr} : Keeps (fun _ => True) Storeless (assign f) := hact (by simp)
  have hblank {blank ok : Bool} : Keeps (fun _ => True) Storeless (grFbBlank blank ok) :=
    Keeps.read_bind fun _ _ => hact (by simp)
  have hmalloc : Keeps (fun _ => True) Storeless (malloc out.surface) := by
    refine Keeps.read_bind fun _ _ => Keeps.ite (fun _ => ?_) fun _ => ?_
    · exact (hact (by simp)).bind fun _ => keeps_pure _
    · exact (hact (by simp)).bind fun _ => keeps_pure _
  have hactive : Keeps (fun _ => True) Storeless (setActiveFramebuffer format 0 out.pan) := by
    refine Keeps.read_bind fun _ _ => Keeps.ite (fun _ => keeps_pure ()) fun _ => ?_
    exact hassign.bind fun _ => hassign.bind fun _ => hassign.bind fun _ => hact (by simp)
  -- the calls of the source in their order
  exact (hmalloc.bind fun _ => hassign).bind fun _ => hassign.bind fun _ => hactive.bind fun _ =>
    hblank.bind fun _ => hblank.bind fun _ => keeps_pure 0

/-- The stores of `gr_init` are those of the mapping. -/
theorem emits_grInit (h : Mapped out vi fi) (font : Font) (s : Gr) {P : GrEvent → Gr → Prop}
    (hP : ∀ e t, (∀ o, e ≠ .store o) → P e t) :
    (grInit format font out).Emits P s ↔
      (mapFramebuffer format (s.fbOf out)).Emits P (s.opened font out vi fi) := by
  have hconsole := h.console
  have hvar : out.getVar ≠ none := Option.isSome_iff_ne_none.mp h.getVar
  have hfd (n : Nat) : ¬(n : Int) < 0 := by omega
  have hfd' (n : Nat) : ¬((n : Int) + 1) < 0 := by omega
  -- after `get_framebuffer` nothing more is stored into the memory
  have hstart (t : Gr) : (startScreen format out).Emits P t :=
    (startScreen_storeless t trivial).2.mono hP
  cases hvt : out.vt
  · simp [grInit, openScreen, getFramebuffer, grInitFont, openFile, malloc, hvt, hfd, hvar, h.fb, h.putVar,
      h.getFix, h.mmap, val_mapFramebuffer, Gr.opened, Gr.fbOf, hP, hstart]
  · simp [grInit, openScreen, getFramebuffer, grInitFont, openFile, malloc, hvt, hconsole hvt, hfd', hvar,
      h.fb, h.putVar, h.getFix, h.mmap, val_mapFramebuffer, Gr.opened, Gr.fbOf, hP, hstart]

/-- What `gr_init` leaves of the mapping. -/
structure Started (out : InitOutcome) (t u : Gr) : Prop where
  framebuffer : u.framebuffer = t.framebuffer
  doubleBuffering : u.doubleBuffering = t.doubleBuffering
  fi : u.fi = t.fi
  yres : u.vi.yres = t.vi.yres
  mem : u.mem = t.mem
  drawn : u.drawn = t.drawn
  activeFb : u.activeFb = 0
  shownLine : t.doubleBuffering → out.pan → u.shownLine = 0

theorem startScreen_started (format : PixelFormat) (out : InitOutcome) (t : Gr) :
    Started out t ((startScreen format out).exec t) := by
  have hone : ¬(0 : UInt32) > 1 := by decide
  cases hdouble : t.doubleBuffering <;> cases hpan : out.pan <;> cases hsurface : out.surface <;>
    constructor <;>
    simp [startScreen, getMemorySurface, malloc, grFbBlank, setActiveFramebuffer, putVscreeninfo,
      hdouble, hpan, hsurface]

/-! ## §2 The Mapping -/

/-- The state after two frames have been mapped and cleared. -/
def Gr.mapped (s : Gr) (format : PixelFormat) : Gr :=
  { s with
    framebuffer := (s.surfaceOf format 0, s.surfaceOf format s.frameSize.toNat)
    doubleBuffering := true
    mem := copied s.frameSize.toNat (fun _ => 0) 0 s.frameSize.toNat
      (copied 0 (fun _ => 0) 0 s.frameSize.toNat s.mem) }

/-- The first frame was cleared first, and the second is behind it. -/
theorem mapped_blank (format : PixelFormat) (s : Gr) {i : Nat} (hi : i < s.frameSize.toNat) :
    (s.mapped format).mem i = 0 := by
  have hfirst := @copied_inside 0 (fun _ => 0) s.frameSize.toNat s.mem i hi
  rw [Nat.zero_add] at hfirst
  show copied s.frameSize.toNat (fun _ => 0) 0 s.frameSize.toNat
    (copied 0 (fun _ => 0) 0 s.frameSize.toNat s.mem) i = 0
  rw [copied_outside (.inl hi), hfirst]

theorem exec_memset (dst : Nat) (value : UInt8) (n : UInt32) (s : Gr) :
    (memset dst value n).exec s =
      { s with mem := copied dst (fun _ => value) 0 n.toNat s.mem } :=
  exec_memcpy dst (fun _ => value) n s

theorem exec_mapFramebuffer_two {fd : Int} {s : Gr} (htwo : ¬s.frameSize * 2 > s.fi.smemLen) :
    (mapFramebuffer format fd).exec s = s.mapped format := by
  rw [mapFramebuffer, exec_bind, val_read, exec_read, exec_bind, exec_assign, exec_bind,
    exec_memset, exec_ite, if_neg htwo]
  simp only [exec_bind, exec_assign, exec_pure, exec_memset]
  rfl

theorem exec_mapFramebuffer_one {fd : Int} {s : Gr} (htwo : s.frameSize * 2 > s.fi.smemLen) :
    (mapFramebuffer format fd).exec s =
      { s with
        framebuffer := (s.surfaceOf format 0, s.framebuffer.2)
        mem := copied 0 (fun _ => 0) 0 s.frameSize.toNat s.mem } := by
  rw [mapFramebuffer, exec_bind, val_read, exec_read, exec_bind, exec_assign, exec_bind,
    exec_memset, exec_ite, if_pos htwo, exec_pure]

/-- The stores of the mapping: the first frame, and the second if there is room for it. -/
theorem emits_mapFramebuffer {fd : Int} {s : Gr} {P : GrEvent → Gr → Prop}
    (hP : ∀ e t, (∀ o, e ≠ .store o) → P e t) :
    (mapFramebuffer format fd).Emits P s ↔
      (∀ j < s.frameSize.toNat, P (.store j)
        { s with
          framebuffer := (s.surfaceOf format 0, s.framebuffer.2)
          mem := copied 0 (fun _ => 0) 0 (j + 1) s.mem }) ∧
      (¬s.frameSize * 2 > s.fi.smemLen → ∀ j < s.frameSize.toNat,
        P (.store (s.frameSize.toNat + j))
          { s with
            framebuffer := (s.surfaceOf format 0, s.surfaceOf format s.frameSize.toNat)
            doubleBuffering := true
            mem := copied s.frameSize.toNat (fun _ => 0) 0 (j + 1)
              (copied 0 (fun _ => 0) 0 s.frameSize.toNat s.mem) }) := by
  rw [mapFramebuffer, emits_bind, val_read, exec_read, emits_bind, exec_assign, emits_bind,
    emits_assign, memset, emits_memcpy, exec_memcpy, emits_ite]
  simp only [emits_read, true_and, Nat.zero_add, hP .assign _ (by simp), emits_pure]
  refine and_congr_right fun _ => ?_
  -- one frame or two, by the size of the memory
  split
  · rename_i htwo
    exact iff_of_true trivial fun h => absurd htwo h
  · rename_i htwo
    simp only [emits_bind, emits_assign, exec_assign, hP .assign _ (by simp), true_and, memset,
      emits_memcpy, emits_pure, and_true, htwo, not_false_eq_true, true_implies]
    rfl

/-! ## §3 Two Frames -/

theorem FitsTwice.size_eq (h : FitsTwice vi fi) :
    (vi.yres * fi.lineLength).toNat = vi.yres.toNat * fi.lineLength.toNat := by
  have htwice := h.twice
  have hsmem := fi.smemLen.toNat_lt
  rw [UInt32.toNat_mul, Nat.mod_eq_of_lt (by omega)]

/-- The double of the size does not overflow either. -/
theorem FitsTwice.two (h : FitsTwice vi fi) :
    ¬vi.yres * fi.lineLength * 2 > fi.smemLen := by
  have htwice := h.twice
  have hsmem := fi.smemLen.toNat_lt
  -- the size of two frames does not wrap around 2 ^ 32
  have htwo : (2 : UInt32).toNat = 2 := rfl
  rw [gt_iff_lt, UInt32.not_lt, UInt32.le_iff_toNat_le, UInt32.toNat_mul, h.size_eq, htwo,
    Nat.mod_eq_of_lt (by omega)]
  exact htwice

/-- `gr_init` leaves two black frames, the first of them on display. -/
theorem displays_start (h : Mapped out vi fi) (hpan : out.pan) (hfits : FitsTwice vi fi)
    (font : Font) (s : Gr) :
    Displays ((grInit format font out).exec s) ⟨true, fun _ => 0, s.drawn⟩ := by
  have htwo : ¬(s.opened font out vi fi).frameSize * 2 > (s.opened font out vi fi).fi.smemLen :=
    hfits.two
  rw [exec_grInit h, exec_mapFramebuffer_two htwo]
  obtain hstart := startScreen_started format out
    { (s.opened font out vi fi).mapped format with fbFd := s.fbOf out }
  generalize (startScreen format out).exec _ = u at hstart ⊢
  have hsize : u.frameSize = vi.yres * fi.lineLength := by
    rw [Gr.frameSize, hstart.yres, hstart.fi]
    rfl
  -- the pan of `gr_init` puts the first frame on display
  have hshown : u.shownLine = 0 := hstart.shownLine rfl hpan
  -- the frames are the two halves of the size the driver reported
  have hframes : TwoFrames u :=
    { double := hstart.doubleBuffering
      active := .inl hstart.activeFb
      first := by rw [hstart.framebuffer]; rfl
      second := by rw [hstart.framebuffer, hsize]; rfl
      exact := by rw [hsize, hfits.size_eq, hstart.yres, hstart.fi]; rfl
      nonempty := by rw [hsize, hfits.size_eq]; exact hfits.nonempty
      shown := .inl hshown }
  have hin : u.InStep := by
    rw [Gr.InStep, hshown, hstart.activeFb, UInt32.zero_mul]
  refine ⟨hframes, iff_of_true hin rfl, fun i hi => ?_, hstart.drawn⟩
  have hoffset : u.shownOffset = 0 := by
    rw [Gr.shownOffset, hshown, UInt32.toNat_zero, Nat.zero_mul]
  rw [hsize] at hi
  rw [hoffset, hstart.mem, Nat.zero_add]
  exact mapped_blank format (s.opened font out vi fi) hi

/-- The program before `gr_init`; only the standard descriptors are open. -/
def Gr.fresh : Gr where
  font := none
  framebuffer := (⟨0, 0, 0, 0⟩, ⟨0, 0, 0, 0⟩)
  memSurface := ⟨0, 0, 0, none⟩
  activeFb := 0
  doubleBuffering := false
  fbFd := -1
  vtFd := -1
  vi := ⟨0, 0, 0, 0, 0, ⟨0, 0⟩, ⟨0, 0⟩, ⟨0, 0⟩, ⟨0, 0⟩⟩
  fi := ⟨0, 0⟩
  drawn := fun _ => 0
  mem := fun _ => 0xff
  shownLine := 0
  nextFd := 3
  openFds := [0, 1, 2]
  nextBlock := 0
  live := []

/-- A screen of two pixels, with room for two frames. -/
def smallVar : FbVarScreeninfo :=
  FbVarScreeninfo.withFormat ⟨2, 1, 1, 0, 0, ⟨0, 0⟩, ⟨0, 0⟩, ⟨0, 0⟩, ⟨0, 0⟩⟩ .bgra8888

def smallFix : FbFixScreeninfo := ⟨16, 8⟩

def smallOutcome : InitOutcome where
  vt := false
  graphicsMode := false
  fb := true
  getVar := some smallVar
  putVar := some smallVar
  getFix := some smallFix
  mmap := true
  surface := true
  pan := true

def smallFont : Font := ⟨2, 1, 1, 1, [0x81, 0x01, 0]⟩

theorem smallOutcome_mapped : Mapped smallOutcome smallVar smallFix :=
  ⟨by decide, rfl, rfl, rfl, rfl, rfl, rfl⟩

theorem small_fitsTwice : FitsTwice smallVar smallFix := ⟨by decide, by decide⟩

/-- **The display after a run.**  Whatever is drawn and whichever flips the driver refuses, the display
shows what the driver's answers alone say: black until the first flip, and then the picture of the
last flip that was not lost. -/
theorem screen_refines (h : Mapped out vi fi) (hpan : out.pan) (hfits : FitsTwice vi fi)
    (font : Font) {s t : Gr} {steps : List ScreenStep}
    (hrun : (screenMachine format).run ((grInit format font out).exec s) steps = some t) :
    Displays t (steps.foldl Screen.next ⟨true, fun _ => 0, s.drawn⟩) :=
  displays_run (displays_start h hpan hfits font s) hrun

theorem screen_refines_small : ∃ t,
    (screenMachine .bgra8888).run ((grInit .bgra8888 smallFont smallOutcome).exec Gr.fresh)
        [.draw fun _ => 1, .flip true, .draw fun _ => 2, .flip false] = some t ∧
      Displays t ⟨false, fun _ => 1, fun _ => 2⟩ := by
  have hsome : ∃ t, (screenMachine .bgra8888).run
      ((grInit .bgra8888 smallFont smallOutcome).exec Gr.fresh)
      [.draw fun _ => 1, .flip true, .draw fun _ => 2, .flip false] = some t := ⟨_, rfl⟩
  obtain ⟨t, hrun⟩ := hsome
  exact ⟨t, hrun, screen_refines smallOutcome_mapped rfl small_fitsTwice smallFont hrun⟩

/-- **Whole pictures.**  No flip of a run stores on what is on display, and each changes the picture
in one moment, exactly when the driver refuses none of the flips, or only the last. -/
theorem flips_whole_iff (h : Mapped out vi fi) (hpan : out.pan) (hfits : FitsTwice vi fi)
    (font : Font) (s : Gr) (steps : List ScreenStep) :
    (screenMachine format).AllSteps (FlipWhole format) ((grInit format font out).exec s) steps ↔
      ∀ ok ∈ (flips steps).dropLast, ok = true := by
  have hstart : Displays ((grInit format font out).exec s) ⟨true, fun _ => 0, s.drawn⟩ :=
    displays_start h hpan hfits font s
  exact allWhole_inStep hstart.frames (hstart.inStep.mpr rfl) steps

theorem flips_whole_iff_small :
    ¬(screenMachine .bgra8888).AllSteps (FlipWhole .bgra8888)
      ((grInit .bgra8888 smallFont smallOutcome).exec Gr.fresh) [.flip false, .flip true] := by
  rw [flips_whole_iff smallOutcome_mapped rfl small_fitsTwice]
  decide

section Bounds

/-- A store is inside the framebuffer memory. -/
def InBounds (e : GrEvent) (s : Gr) : Prop := ∀ o, e = .store o → o < s.fi.smemLen.toNat

/-- All frames are inside the framebuffer memory. -/
structure InMemory (s : Gr) : Prop where
  first : s.framebuffer.1.data + s.frameSize.toNat ≤ s.fi.smemLen.toNat
  second : s.doubleBuffering →
    s.framebuffer.2.data + s.frameSize.toNat ≤ s.fi.smemLen.toNat
  single : s.doubleBuffering = false → s.activeFb = 0

/-- The frames of the flip are inside the framebuffer memory. -/
def FlipInBounds (format : PixelFormat) (s : Gr) : ScreenStep → Prop
  | .draw _ => True
  | .flip ok => (grFlip format ok).Emits InBounds s

/-- The active frame is one that there is room for. -/
theorem InMemory.active {s : Gr} (h : InMemory s) :
    s.frameOffset s.activeFb + s.frameSize.toNat ≤ s.fi.smemLen.toNat := by
  unfold Gr.frameOffset
  -- the second frame is active only where there are two
  split
  · exact h.first
  · rename_i hactive
    apply h.second
    by_contra hdouble
    exact hactive (h.single (Bool.not_eq_true _ ▸ hdouble))

theorem inMemory_counted {s : Gr} (h : InMemory s) :
    InMemory ((when s.doubleBuffering
      (assign fun s => { s with activeFb := (s.activeFb + 1) &&& 1 })).exec s) := by
  rw [exec_when]
  split
  · rename_i hdouble
    -- the frame changes only with two of them
    refine ⟨h.first, h.second, fun hsingle => ?_⟩
    exact absurd (hdouble.symm.trans hsingle) (by decide)
  · exact h

theorem setActiveFramebuffer_inMemory (format : PixelFormat) (n : UInt32) (ok : Bool) :
    Keeps InMemory Storeless (setActiveFramebuffer format n ok) := by
  have hact {e : GrEvent} {f : Gr → Gr} (he : ∀ o, e ≠ .store o)
      (hf : ∀ s, InMemory s → InMemory (f s)) : Keeps InMemory Storeless (act e f) :=
    keeps_act fun s hs => ⟨hf s hs, he⟩
  -- a change of the mode that leaves `yres` alone leaves the frame size alone
  have hvi {f : Gr → FbVarScreeninfo} (hf : ∀ s, (f s).yres = s.vi.yres) (s : Gr)
      (hs : InMemory s) : InMemory { s with vi := f s } := by
    have hsize : { s with vi := f s }.frameSize = s.frameSize := by
      rw [Gr.frameSize, hf, Gr.frameSize]
    refine ⟨?_, fun hdouble => ?_, hs.single⟩
    · rw [hsize]
      exact hs.first
    · rw [hsize]
      exact hs.second hdouble
  have hassign {f : Gr → FbVarScreeninfo} (hf : ∀ s, (f s).yres = s.vi.yres) :
      Keeps InMemory Storeless (assign fun s => { s with vi := f s }) :=
    hact (by simp) (hvi hf)
  refine Keeps.read_bind fun s _ => Keeps.ite (fun _ => keeps_pure ()) fun _ =>
    Keeps.bind ?_ fun _ => Keeps.bind ?_ fun _ => Keeps.bind ?_ fun _ => ?_
  · exact hassign fun _ => rfl
  · exact hassign fun _ => rfl
  · exact hassign fun _ => rfl
  · unfold putVscreeninfo
    refine hact (by simp) fun t ht => ?_
    split
    · exact ⟨ht.first, ht.second, ht.single⟩
    · exact ht

/-- **One flip** of one frame or two stores inside the memory only. -/
theorem grFlip_inMemory (ok : Bool) : Keeps InMemory InBounds (grFlip format ok) := by
  intro s hs
  have hcounted := inMemory_counted hs
  rw [grFlip, exec_bind, val_read, exec_read, exec_bind, exec_bind, val_read, exec_read, exec_bind,
    exec_memcpy, emits_bind, val_read, exec_read, emits_bind, emits_bind, val_read, exec_read,
    emits_bind, emits_memcpy, exec_memcpy, emits_when]
  generalize (when s.doubleBuffering _).exec s = t at hcounted ⊢
  have hfilled (m : Nat → UInt8) : InMemory { t with mem := m } :=
    ⟨hcounted.first, hcounted.second, hcounted.single⟩
  -- `memcpy` copies as many bytes as a frame has
  have hsize : t.fi.lineLength * t.vi.yres = t.frameSize := UInt32.mul_comm _ _
  obtain ⟨hkept, hlog⟩ :=
    setActiveFramebuffer_inMemory format t.activeFb ok _ (hfilled _)
  refine ⟨hkept, emits_read s, fun _ => ?_, emits_read t, fun j hj o ho => ?_,
    hlog.mono fun e _ he o ho => absurd ho (he o)⟩
  · exact (emits_assign _ s).mpr fun o ho => absurd ho (by simp)
  · obtain rfl := GrEvent.store.inj ho
    rw [hsize] at hj
    exact Nat.lt_of_lt_of_le (by omega) hcounted.active

theorem flips_inBounds {s : Gr} (h : InMemory s) (steps : List ScreenStep) :
    (screenMachine format).AllSteps (FlipInBounds format) s steps := by
  -- `InMemory` is kept by every step and gives the bounds of each flip
  refine ((screenMachine format).allSteps_iff (C := fun _ _ => True) ?_ ?_ h steps).mpr
    ((screenMachine format).allSteps_of_forall fun _ _ => trivial)
  · intro s a hs
    cases a with
    | draw picture => exact Iff.rfl
    | flip ok => exact iff_of_true (grFlip_inMemory ok s hs).2 trivial
  · intro s a t hs _ ht
    cases a with
    | draw picture =>
      obtain rfl := Option.some.inj ht
      exact ⟨hs.first, hs.second, hs.single⟩
    | flip ok =>
      obtain rfl := Option.some.inj ht
      exact (grFlip_inMemory ok s hs).1

theorem Started.inMemory {t u : Gr} (h : Started out t u)
    (hfirst : t.framebuffer.1.data + t.frameSize.toNat ≤ t.fi.smemLen.toNat)
    (hsecond : t.doubleBuffering →
      t.framebuffer.2.data + t.frameSize.toNat ≤ t.fi.smemLen.toNat) : InMemory u := by
  have hsize : u.frameSize = t.frameSize := by
    rw [Gr.frameSize, h.yres, h.fi, Gr.frameSize]
  refine ⟨?_, fun hdouble => ?_, fun _ => h.activeFb⟩
  · rw [h.framebuffer, hsize, h.fi]
    exact hfirst
  · rw [h.framebuffer, hsize, h.fi]
    exact hsecond (h.doubleBuffering ▸ hdouble)

theorem two_iff {size smemLen : UInt32} (hhalf : size.toNat < 2 ^ 31) :
    ¬size * 2 > smemLen ↔ size.toNat * 2 ≤ smemLen.toNat := by
  have htwo : (2 : UInt32).toNat = 2 := rfl
  rw [gt_iff_lt, UInt32.not_lt, UInt32.le_iff_toNat_le, UInt32.toNat_mul, htwo,
    Nat.mod_eq_of_lt (by omega)]

theorem inMemory_start (h : Mapped out vi fi) {s : Gr} (hs : s.doubleBuffering = false)
    (hsize : vi.yres * fi.lineLength ≤ fi.smemLen) (hhalf : (vi.yres * fi.lineLength).toNat < 2 ^ 31)
    (font : Font) : InMemory ((grInit format font out).exec s) := by
  have hfirst : (vi.yres * fi.lineLength).toNat ≤ fi.smemLen.toNat :=
    UInt32.le_iff_toNat_le.mp hsize
  rw [exec_grInit h]
  -- one frame: `double_buffering` is still the zero it started with
  by_cases htwo : (s.opened font out vi fi).frameSize * 2 > (s.opened font out vi fi).fi.smemLen
  · rw [exec_mapFramebuffer_one htwo]
    refine (startScreen_started format out _).inMemory ((Nat.zero_add _).trans_le hfirst) ?_
    exact fun hdouble => absurd (hs.symm.trans hdouble) (by decide)
  · rw [exec_mapFramebuffer_two htwo]
    refine (startScreen_started format out _).inMemory ((Nat.zero_add _).trans_le hfirst) fun _ => ?_
    have htwice := (two_iff hhalf).mp htwo
    exact (Nat.mul_two _).symm.trans_le htwice

/-- **Bounds.**  Nothing is ever stored outside the framebuffer memory, at the start and in any run,
exactly for the modes whose frame, as a number of 32 bits, fits it and is below 2 GiB.  For a
larger one the double of the size overflows in the test for a second frame. -/
theorem inBounds_iff (h : Mapped out vi fi) (font : Font) {s : Gr}
    (hs : s.doubleBuffering = false) :
    ((grInit format font out).Emits InBounds s ∧ ∀ steps,
        (screenMachine format).AllSteps (FlipInBounds format) ((grInit format font out).exec s)
          steps) ↔
      vi.yres * fi.lineLength ≤ fi.smemLen ∧ (vi.yres * fi.lineLength).toNat < 2 ^ 31 := by
  have hother (e : GrEvent) (t : Gr) (he : ∀ o, e ≠ .store o) : InBounds e t :=
    fun o ho => absurd ho (he o)
  have hbound := fi.smemLen.toNat_lt
  rw [emits_grInit h font s hother, emits_mapFramebuffer hother]
  have hsize : (s.opened font out vi fi).frameSize = vi.yres * fi.lineLength := rfl
  have hfi : (s.opened font out vi fi).fi = fi := rfl
  rw [hsize, hfi]
  constructor
  · rintro ⟨⟨hfirst, hsecond⟩, -⟩
    -- the last store of the first frame, and of the second one
    have hfits : (vi.yres * fi.lineLength).toNat ≤ fi.smemLen.toNat := by
      by_contra hlarge
      exact absurd (hfirst fi.smemLen.toNat (by omega) _ rfl) (Nat.lt_irrefl _)
    refine ⟨UInt32.le_iff_toNat_le.mpr hfits, ?_⟩
    by_contra hhalf
    -- a doubled size past 2 ^ 32 wraps around and looks small enough for two frames
    have hwrap : ¬vi.yres * fi.lineLength * 2 > fi.smemLen := by
      have htwo : (2 : UInt32).toNat = 2 := rfl
      rw [gt_iff_lt, UInt32.not_lt, UInt32.le_iff_toNat_le, UInt32.toNat_mul, htwo]
      omega
    have hlast := hsecond hwrap ((vi.yres * fi.lineLength).toNat - 1) (by omega) _ rfl
    have hmem : (vi.yres * fi.lineLength).toNat + ((vi.yres * fi.lineLength).toNat - 1) <
      fi.smemLen.toNat := hlast
    omega
  · rintro ⟨hfits, hhalf⟩
    have hfirst : (vi.yres * fi.lineLength).toNat ≤ fi.smemLen.toNat :=
      UInt32.le_iff_toNat_le.mp hfits
    refine ⟨⟨fun j hj o ho => ?_, fun htwo j hj o ho => ?_⟩, fun steps => ?_⟩
    · obtain rfl := GrEvent.store.inj ho
      exact Nat.lt_of_lt_of_le hj hfirst
    · obtain rfl := GrEvent.store.inj ho
      have htwice := (two_iff hhalf).mp htwo
      exact Nat.lt_of_lt_of_le (by omega) htwice
    · exact flips_inBounds (inMemory_start h hs hfits hhalf font) steps

theorem inBounds_iff_small :
    (grInit .bgra8888 smallFont smallOutcome).Emits InBounds Gr.fresh ∧ ∀ steps,
      (screenMachine .bgra8888).AllSteps (FlipInBounds .bgra8888)
        ((grInit .bgra8888 smallFont smallOutcome).exec Gr.fresh) steps :=
  (inBounds_iff smallOutcome_mapped smallFont rfl).mpr ⟨by decide, by decide⟩

end Bounds

end Start

end OdroidU2.Recovery
