import Mathlib
import OdroidU2.Recovery.Start

/-!
# What the Screen Holds

`gr_exit` frees the memory surface and closes the two descriptors.  It marks the descriptors as
closed, the surface it does not, and `gr_init` calls it when one of its own calls fails.

- `Held` — the descriptors and the blocks of the screen
- `held_grInit`, `held_grExit` — what the two calls do to them
- `held_safe_iff` — the orders of calls in which everything is released once, and nothing is used
  after it
-/

namespace OdroidU2.Recovery

open OdroidU2.Foundations Prog

/-! ## §1 Held Resources -/

/-- The console, if there is one, goes into its graphics mode. -/
def InitOutcome.console (out : InitOutcome) : Bool := !out.vt || out.graphicsMode

/-- All calls of `get_framebuffer` succeed. -/
def InitOutcome.framebuffer (out : InitOutcome) : Bool :=
  out.fb && out.getVar.isSome && out.putVar.isSome && out.getFix.isSome && out.mmap

/-- The descriptors and blocks, as the static variables and the kernel have them. -/
structure Held where
  data : Option Nat
  fbFd : Int
  vtFd : Int
  nextFd : Nat
  openFds : List Int
  nextBlock : Nat
  live : List Nat

def Gr.held (s : Gr) : Held where
  data := s.memSurface.data
  fbFd := s.fbFd
  vtFd := s.vtFd
  nextFd := s.nextFd
  openFds := s.openFds
  nextBlock := s.nextBlock
  live := s.live

/-- After `gr_exit`. -/
def Held.exited (h : Held) : Held :=
  { h with
    fbFd := -1
    vtFd := -1
    openFds := (h.openFds.erase h.fbFd).erase h.vtFd
    live := h.data.elim h.live h.live.erase }

/-- After the font has been loaded. -/
def Held.withFont (h : Held) : Held :=
  { h with nextBlock := h.nextBlock + 2, live := (h.nextBlock + 1) :: h.nextBlock :: h.live }

/-- After an `open`. -/
def Held.opened (h : Held) (ok : Bool) : Held :=
  if ok then { h with nextFd := h.nextFd + 1, openFds := (h.nextFd : Int) :: h.openFds } else h

/-- The descriptor it returns. -/
def Held.newFd (h : Held) (ok : Bool) : Int := if ok then h.nextFd else -1

/-- After the console has been opened. -/
def Held.withConsole (h : Held) (ok : Bool) : Held := { h.opened ok with vtFd := h.newFd ok }

/-- After `get_framebuffer`; a descriptor that was opened in vain is closed again. -/
def Held.withFrames (h : Held) (out : InitOutcome) : Held :=
  if out.framebuffer then { h.opened true with fbFd := h.nextFd }
  else { h with fbFd := -1, nextFd := (h.opened out.fb).nextFd }

/-- After `get_memory_surface`. -/
def Held.withSurface (h : Held) (ok : Bool) : Held :=
  if ok then
    { h with
      data := some h.nextBlock, nextBlock := h.nextBlock + 1, live := h.nextBlock :: h.live }
  else { h with data := none }

/-- After `gr_init`. -/
def Held.started (h : Held) (out : InitOutcome) : Held :=
  let console := h.withFont.withConsole out.vt
  if out.console then
    let frames := console.withFrames out
    if out.framebuffer then frames.withSurface out.surface else frames.exited
  else console.exited

/-! ## §2 What Is Released -/

/-- A block is freed only if it is allocated, and a descriptor closed only if it is open. -/
def Released (s : Gr) (e : GrEvent) (_ : Gr) : Prop :=
  (∀ b, e = .free (some b) → b ∈ s.live) ∧ ∀ fd, e = .close fd → 0 ≤ fd → fd ∈ s.openFds

/-- No release at all. -/
def Quiet (e : GrEvent) (_ : Gr) : Prop := (∀ b, e ≠ .free b) ∧ ∀ fd, e ≠ .close fd

theorem released_of_quiet {s : Gr} {e : GrEvent} {t : Gr} (h : Quiet e t) : Released s e t :=
  ⟨fun b he => absurd he (h.1 (some b)), fun fd he => absurd he (h.2 fd)⟩

/-- What `gr_exit` releases is held. -/
structure Held.Releasable (h : Held) : Prop where
  surface : ∀ b, h.data = some b → b ∈ h.live
  fb : 0 ≤ h.fbFd → h.fbFd ∈ h.openFds
  vt : 0 ≤ h.vtFd → h.vtFd ∈ h.openFds.erase h.fbFd

section Calls

variable {format : PixelFormat} {out : InitOutcome}

theorem held_grExit (s : Gr) : (grExit.exec s).held = s.held.exited := by
  simp [grExit, closeFile, free, Gr.held, Held.exited]

theorem takes_grExit (s : Gr) : grExit.Takes Released s ↔ s.held.Releasable := by
  simp only [grExit, closeFile, free, assign, takes_bind, takes_read, takes_act, exec_act,
    exec_read, val_read, Released, true_and]
  -- two descriptors are closed and one block is freed: one condition for each
  constructor
  · rintro ⟨⟨-, hfb⟩, -, ⟨hfree, -⟩, -, ⟨-, hvt⟩, -⟩
    exact ⟨fun b hb => hfree b (congrArg GrEvent.free hb), hfb _ rfl, hvt _ rfl⟩
  · rintro ⟨hfree, hfb, hvt⟩
    refine ⟨⟨by simp, fun fd he => ?_⟩, by simp, ⟨fun b he => ?_, by simp⟩, by simp,
      ⟨by simp, fun fd he => ?_⟩, by simp⟩
    · obtain rfl := GrEvent.close.inj he
      exact hfb
    · exact hfree b (GrEvent.free.inj he)
    · obtain rfl := GrEvent.close.inj he
      exact hvt

theorem memcpy_quiet (dst : Nat) (src : Nat → UInt8) (n : UInt32) :
    Leaves Gr.held Quiet (memcpy dst src n) := by
  intro h s hs
  refine ⟨?_, emits_memcpy.mpr fun j _ => by simp [Quiet]⟩
  rw [exec_memcpy]
  exact hs

theorem assign_quiet {f : Gr → Gr} (hf : ∀ s, (f s).held = s.held) :
    Leaves Gr.held Quiet (assign f) :=
  leaves_act (fun _ => by simp [Quiet]) hf

theorem mapFramebuffer_quiet (format : PixelFormat) (fd : Int) :
    Leaves Gr.held Quiet (mapFramebuffer format fd) := by
  refine Leaves.read_bind fun s => Leaves.bind ?_ fun _ => (memcpy_quiet _ _ _).bind fun _ =>
    Leaves.ite (leaves_pure fd) (Leaves.bind ?_ fun _ => Leaves.bind ?_ fun _ =>
      (memcpy_quiet _ _ _).bind fun _ => leaves_pure fd)
  · exact assign_quiet fun _ => rfl
  · exact assign_quiet fun _ => rfl
  · exact assign_quiet fun _ => rfl

theorem takes_assign (f : Gr → Gr) (s : Gr) : (assign f).Takes Released s :=
  (takes_act _ f s).mpr (released_of_quiet (by simp [Quiet]))

theorem takes_mapFramebuffer (fd : Int) (s : Gr) :
    (mapFramebuffer format fd).Takes Released s :=
  ((mapFramebuffer_quiet format fd).emits s).takes fun _ _ _ => released_of_quiet

theorem takes_getFramebuffer (s : Gr) : (getFramebuffer format out).Takes Released s := by
  have hfd (n : Nat) : ¬(n : Int) < 0 := by omega
  cases hfb : out.fb <;> cases hvar : out.getVar <;> cases hput : out.putVar <;>
    cases hfix : out.getFix <;> cases hmap : out.mmap <;>
    simp [getFramebuffer, openFile, closeFile, hfb, hvar, hput, hfix, hmap, hfd, Released,
      takes_assign, takes_mapFramebuffer]

theorem val_getFramebuffer (s : Gr) :
    (getFramebuffer format out).val s = s.held.newFd out.framebuffer := by
  have hfd (n : Nat) : ¬(n : Int) < 0 := by omega
  cases hfb : out.fb <;> cases hvar : out.getVar <;> cases hput : out.putVar <;>
    cases hfix : out.getFix <;> cases hmap : out.mmap <;>
    simp [getFramebuffer, openFile, hfb, hvar, hput, hfix, hmap, hfd, val_mapFramebuffer,
      InitOutcome.framebuffer, Held.newFd, Gr.held]

/-- `get_framebuffer` and the assignment of its result. -/
theorem held_getFramebuffer (format : PixelFormat) (s : Gr) :
    { (getFramebuffer format out).exec s with
      fbFd := (getFramebuffer format out).val s }.held = s.held.withFrames out := by
  have hfd (n : Nat) : ¬(n : Int) < 0 := by omega
  have hmapped (t : Gr) := (mapFramebuffer_quiet format s.nextFd).exec_eq t
  simp only [Gr.held, Held.mk.injEq] at hmapped
  rw [val_getFramebuffer]
  cases hfb : out.fb <;> cases hvar : out.getVar <;> cases hput : out.putVar <;>
    cases hfix : out.getFix <;> cases hmap : out.mmap <;>
    simp [getFramebuffer, openFile, closeFile, hfb, hvar, hput, hfix, hmap, hfd, hmapped,
      InitOutcome.framebuffer, Held.newFd, Held.withFrames, Held.opened, Gr.held]

theorem startScreen_held (s : Gr) :
    (startScreen format out).Takes Released s ∧
      ((startScreen format out).exec s).held = s.held.withSurface out.surface := by
  cases hdouble : s.doubleBuffering <;> cases hpan : out.pan <;> cases hsurface : out.surface <;>
    simp [startScreen, getMemorySurface, malloc, setActiveFramebuffer, putVscreeninfo, grFbBlank,
      hdouble, hpan, hsurface, Gr.held, Gr.surfaceOf, Held.withSurface, Released, takes_assign]

theorem newFd_neg (h : Held) (ok : Bool) : h.newFd ok < 0 ↔ ok = false := by
  cases ok
  · simp [Held.newFd]
  · simp [Held.newFd]

/-- After the console, with the framebuffer or without it. -/
theorem held_openScreen (s : Gr) :
    ((openScreen format out).exec s).held =
      if out.framebuffer then (s.held.withFrames out).withSurface out.surface
      else (s.held.withFrames out).exited := by
  rw [openScreen, exec_bind, exec_bind, exec_assign, exec_ite, val_getFramebuffer,
    ← held_getFramebuffer format, val_getFramebuffer]
  -- `gr_init` calls `gr_exit` itself when `get_framebuffer` fails
  cases hframebuffer : out.framebuffer with
  | false =>
    rw [if_pos ((newFd_neg s.held false).mpr rfl), if_neg (by decide), exec_bind, exec_pure]
    exact held_grExit _
  | true =>
    rw [if_neg (by simp [newFd_neg]), if_pos rfl]
    exact (startScreen_held _).2

theorem takes_openScreen (s : Gr) :
    (openScreen format out).Takes Released s ↔
      (out.framebuffer = false → (s.held.withFrames out).Releasable) := by
  rw [openScreen, takes_bind, takes_bind, exec_assign, takes_ite, val_getFramebuffer,
    ← held_getFramebuffer format, val_getFramebuffer]
  have hfirst : (getFramebuffer format out).Takes Released s := takes_getFramebuffer s
  -- the only releases of this part are those of the `gr_exit` after a failed `get_framebuffer`
  cases hframebuffer : out.framebuffer with
  | false =>
    rw [if_pos ((newFd_neg s.held false).mpr rfl), takes_bind, takes_grExit]
    simp [hfirst, takes_assign]
  | true =>
    rw [if_neg (by simp [newFd_neg])]
    simp [hfirst, takes_assign, (startScreen_held _).1]

/-- **`gr_init`**, whichever of its calls fail. -/
theorem held_grInit (font : Font) (s : Gr) :
    ((grInit format font out).exec s).held = s.held.started out := by
  cases hvt : out.vt <;> cases hmode : out.graphicsMode <;>
    simp [grInit, grInitFont, openFile, malloc, hvt, hmode, held_openScreen, held_grExit,
      Held.started, InitOutcome.console] <;> rfl

theorem takes_grInit (font : Font) (s : Gr) :
    (grInit format font out).Takes Released s ↔
      if out.console then
        out.framebuffer = false →
          ((s.held.withFont.withConsole out.vt).withFrames out).Releasable
      else (s.held.withFont.withConsole out.vt).Releasable := by
  -- the console may fail before `fb0` is opened: by whether it is there and takes the mode
  cases hvt : out.vt <;> cases hmode : out.graphicsMode <;>
    simp [grInit, grInitFont, openFile, malloc, hvt, hmode, takes_openScreen, takes_grExit,
      takes_assign, Released, InitOutcome.console] <;> rfl

end Calls

/-! ## §3 The Surface over the Calls -/

/-- The calls of the recovery. -/
inductive GrCall where
  | init (out : InitOutcome)
  | exit
  | flip (ok : Bool)

/-- The calls, in any order. -/
def callMachine (format : PixelFormat) (font : Font) : Machine Gr GrCall where
  step s
    | .init out => some ((grInit format font out).exec s)
    | .exit => some (grExit.exec s)
    | .flip ok => some ((grFlip format ok).exec s)

/-- The memory surface is allocated. -/
def Gr.HasSurface (s : Gr) : Prop := ∃ b, s.memSurface.data = some b ∧ b ∈ s.live

/-- The call releases only what is held, and a flip copies from memory that is allocated. -/
def CallSafe (format : PixelFormat) (font : Font) (s : Gr) : GrCall → Prop
  | .init out => (grInit format font out).Takes Released s
  | .exit => grExit.Takes Released s
  | .flip ok => (grFlip format ok).Takes Released s ∧ s.HasSurface

/-- What `gr_mem_surface` points to: nothing, an allocated block, or a freed one. -/
inductive SurfaceUse where
  | absent
  | allocated
  | freed
  deriving DecidableEq, Repr

/-- `gr_exit`, which must not free the surface again. -/
def SurfaceUse.exit : SurfaceUse → Option SurfaceUse
  | absent => some absent
  | allocated => some freed
  | freed => none

/-- The orders of calls that are safe: a `gr_init` of which a call fails counts as a `gr_exit`. -/
def surfaceMachine : Machine SurfaceUse GrCall where
  step use
    | .init out =>
      if out.console && out.framebuffer then
        some (if out.surface then .allocated else .absent)
      else use.exit
    | .exit => use.exit
    | .flip _ => if use = .allocated then some use else none

def Held.use (h : Held) : SurfaceUse :=
  match h.data with
  | none => .absent
  | some b => if b ∈ h.live then .allocated else .freed

/-- The descriptors that are noted are open and not the same, and blocks are not allocated
twice. -/
structure Held.Right (h : Held) : Prop where
  fb : 0 ≤ h.fbFd → h.fbFd ∈ h.openFds ∧ h.fbFd < h.nextFd
  vt : 0 ≤ h.vtFd → h.vtFd ∈ h.openFds ∧ h.vtFd < h.nextFd
  distinct : 0 ≤ h.fbFd → h.fbFd ≠ h.vtFd
  data : ∀ b, h.data = some b → b < h.nextBlock
  fresh : ∀ b ∈ h.live, b < h.nextBlock
  nodup : h.live.Nodup

section Right

variable {h : Held}

theorem Held.Right.withFont (hr : h.Right) : h.withFont.Right ∧ h.withFont.use = h.use := by
  -- `gr_init_font` allocates two blocks, both new
  have hnew : ∀ b ∈ h.live, b ≠ h.nextBlock ∧ b ≠ h.nextBlock + 1 := by
    intro b hb
    have := hr.fresh b hb
    omega
  refine ⟨⟨hr.fb, hr.vt, hr.distinct, fun b hb => ?_, fun b hb => ?_, ?_⟩, ?_⟩
  · have := hr.data b hb
    exact Nat.lt_add_right 2 this
  · simp only [Held.withFont, List.mem_cons] at hb ⊢
    rcases hb with rfl | rfl | hb
    · omega
    · omega
    · exact Nat.lt_add_right 2 (hr.fresh b hb)
  · simp only [Held.withFont, List.nodup_cons, List.mem_cons]
    refine ⟨?_, fun hb => (hnew _ hb).1 rfl, hr.nodup⟩
    rintro (hb | hb)
    · omega
    · exact (hnew _ hb).2 rfl
  · -- the block of the surface stands for what it stood for: no new block is that one
    unfold Held.use
    cases hdata : h.data with
    | none => simp [Held.withFont, hdata]
    | some b =>
      have hb := hr.data b hdata
      simp [Held.withFont, hdata, Nat.ne_of_lt hb, Nat.ne_of_lt (Nat.lt_succ_of_lt hb)]

/-- A descriptor that is noted stays noted while another is opened. -/
theorem mem_opened {fd : Int} (hfd : fd ∈ h.openFds ∧ fd < h.nextFd) :
    fd ∈ (h.nextFd : Int) :: h.openFds ∧ fd < (h.nextFd + 1 : Nat) := by
  refine ⟨List.mem_cons_of_mem _ hfd.1, ?_⟩
  have hlt := hfd.2
  omega

theorem mem_opened_self :
    (h.nextFd : Int) ∈ (h.nextFd : Int) :: h.openFds ∧ (h.nextFd : Int) < (h.nextFd + 1 : Nat) :=
  ⟨List.mem_cons_self, by omega⟩

theorem Held.Right.withConsole (hr : h.Right) (ok : Bool) :
    (h.withConsole ok).Right ∧ (h.withConsole ok).use = h.use := by
  cases ok
  · -- `tty0` is not there: the descriptor is -1
    refine ⟨⟨hr.fb, fun hvt => ?_, fun hfb => ?_, hr.data, hr.fresh, hr.nodup⟩, rfl⟩
    · exact absurd hvt (by simp [Held.withConsole, Held.newFd])
    · have hfd : 0 ≤ h.fbFd := hfb
      show h.fbFd ≠ -1
      omega
  · -- it is: a new descriptor, above every one that is open
    refine ⟨⟨fun hfb => mem_opened (hr.fb hfb), fun _ => mem_opened_self, fun hfb => ?_, hr.data,
      hr.fresh, hr.nodup⟩, rfl⟩
    exact ne_of_lt (hr.fb hfb).2

theorem Held.Right.withFrames (hr : h.Right) (out : InitOutcome) :
    (h.withFrames out).Right ∧ (h.withFrames out).use = h.use := by
  unfold Held.withFrames
  split
  · -- the frame buffer is open, under the next descriptor
    refine ⟨⟨fun _ => mem_opened_self, fun hvt => mem_opened (hr.vt hvt), fun _ => ?_, hr.data,
      hr.fresh, hr.nodup⟩, rfl⟩
    by_cases hvt : 0 ≤ h.vtFd
    · exact ne_of_gt (hr.vt hvt).2
    · show (h.nextFd : Int) ≠ h.vtFd
      omega
  · -- it is not: `get_framebuffer` closed what it had opened and gr_fb_fd is -1
    have hneg : ¬(0 : Int) ≤ -1 := by decide
    refine ⟨⟨fun hfb => absurd hfb hneg, fun hvt => ?_, fun hfb => absurd hfb hneg, hr.data,
      hr.fresh, hr.nodup⟩, rfl⟩
    obtain ⟨hopen, hlt⟩ := hr.vt hvt
    refine ⟨hopen, lt_of_lt_of_le hlt ?_⟩
    cases out.fb
    · exact le_rfl
    · exact Int.ofNat_le.mpr (Nat.le_succ _)

theorem Held.Right.withSurface (hr : h.Right) (ok : Bool) :
    (h.withSurface ok).Right ∧
      (h.withSurface ok).use = if ok then .allocated else .absent := by
  have hnew : h.nextBlock ∉ h.live := fun hb => Nat.lt_irrefl _ (hr.fresh _ hb)
  -- the block comes from `malloc`: without one `data` is NULL
  cases ok
  · exact ⟨⟨hr.fb, hr.vt, hr.distinct, fun b hb => absurd hb (by simp [Held.withSurface]),
      hr.fresh, hr.nodup⟩, rfl⟩
  · refine ⟨⟨hr.fb, hr.vt, hr.distinct, fun b hb => ?_, fun b hb => ?_, ?_⟩, ?_⟩
    · obtain rfl := Option.some.inj hb
      exact Nat.lt_succ_self _
    · rcases List.mem_cons.mp hb with rfl | hb
      · exact Nat.lt_succ_self _
      · exact Nat.lt_succ_of_lt (hr.fresh b hb)
    · exact List.nodup_cons.mpr ⟨hnew, hr.nodup⟩
    · simp [Held.use, Held.withSurface]

/-- `gr_exit` releases what is held exactly when the surface has not been freed yet. -/
theorem Held.Right.releasable_iff (hr : h.Right) : h.Releasable ↔ h.use.exit.isSome := by
  -- closing the frame buffer first leaves the console open, the two descriptors being distinct
  have hvt : 0 ≤ h.vtFd → h.vtFd ∈ h.openFds.erase h.fbFd := by
    intro hvt
    refine (List.mem_erase_of_ne fun heq => ?_).mpr (hr.vt hvt).1
    exact hr.distinct (heq ▸ hvt) heq.symm
  -- `free` is in order for a block in use and for NULL
  have hsurface : (∀ b, h.data = some b → b ∈ h.live) ↔ h.use.exit.isSome := by
    unfold Held.use
    cases hdata : h.data with
    | none => simp [SurfaceUse.exit]
    | some b => by_cases hb : b ∈ h.live <;> simp [hb, SurfaceUse.exit]
  rw [← hsurface]
  exact ⟨fun hrel => hrel.surface, fun hlive => ⟨hlive, fun hfb => (hr.fb hfb).1, hvt⟩⟩

theorem Held.Right.exited (hr : h.Right) {use : SurfaceUse} (hexit : h.use.exit = some use) :
    h.exited.Right ∧ h.exited.use = use := by
  have hneg : ¬(0 : Int) ≤ -1 := by decide
  refine ⟨⟨fun hfb => absurd hfb hneg, fun hvt => absurd hvt hneg, fun hfb => absurd hfb hneg,
    hr.data, fun b hb => ?_, ?_⟩, ?_⟩
  · unfold Held.exited at hb
    -- `free(NULL)` leaves all blocks in use
    cases hdata : h.data with
    | none => exact hr.fresh b (by simpa [hdata] using hb)
    | some c => exact hr.fresh b (List.mem_of_mem_erase (by simpa [hdata] using hb))
  · unfold Held.exited
    cases hdata : h.data with
    | none => exact hr.nodup
    | some c => exact hr.nodup.erase c
  · unfold Held.use at hexit ⊢
    unfold Held.exited
    cases hdata : h.data with
    | none => simpa [hdata, SurfaceUse.exit] using hexit
    | some c =>
      -- a block in use is freed and `data` still points at it
      by_cases hc : c ∈ h.live
      · simpa [hdata, hc, SurfaceUse.exit, hr.nodup.mem_erase_iff] using hexit
      · simp [hdata, hc, SurfaceUse.exit] at hexit

end Right

/-! ## §4 Runs -/

theorem grFlip_quiet (format : PixelFormat) (ok : Bool) :
    Leaves Gr.held Quiet (grFlip format ok) := by
  refine Leaves.read_bind fun s => Leaves.bind (Leaves.when ?_) fun _ => Leaves.read_bind fun t =>
    (memcpy_quiet _ _ _).bind fun _ => Leaves.read_bind fun u => Leaves.ite (leaves_pure ()) ?_
  · exact assign_quiet fun _ => rfl
  · refine Leaves.bind ?_ fun _ => Leaves.bind ?_ fun _ => Leaves.bind ?_ fun _ => ?_
    · exact assign_quiet fun _ => rfl
    · exact assign_quiet fun _ => rfl
    · exact assign_quiet fun _ => rfl
    · refine leaves_act (fun _ => by simp [Quiet]) fun t => ?_
      split
      · rfl
      · rfl

theorem hasSurface_iff (s : Gr) : s.HasSurface ↔ s.held.use = .allocated := by
  have hdata : s.held.data = s.memSurface.data := rfl
  unfold Gr.HasSurface Held.use
  rw [hdata]
  -- never allocated, freed, or live
  cases s.memSurface.data with
  | none => simp
  | some b =>
    have hlive : s.held.live = s.live := rfl
    by_cases hb : b ∈ s.live <;> simp [hlive, hb]

section Run

variable {format : PixelFormat} {font : Font}

/-- One call is safe exactly when the surface is in a state for it. -/
theorem callSafe_iff {s : Gr} (hr : s.held.Right) (call : GrCall) :
    CallSafe format font s call ↔ (surfaceMachine.step s.held.use call).isSome := by
  cases call with
  | exit => exact (takes_grExit s).trans hr.releasable_iff
  | flip ok =>
    -- `gr_flip` frees and closes nothing; it only asks for a surface to copy from
    have hquiet : (grFlip format ok).Takes Released s :=
      ((grFlip_quiet format ok).emits s).takes fun _ _ _ => released_of_quiet
    refine (and_iff_right hquiet).trans ((hasSurface_iff s).trans ?_)
    by_cases huse : s.held.use = .allocated <;> simp [surfaceMachine, huse]
  | init out =>
    -- font, console and frame buffer in the order in which `gr_init` takes them
    obtain ⟨hfont, hfontUse⟩ := hr.withFont
    obtain ⟨hconsole, hconsoleUse⟩ := hfont.withConsole out.vt
    obtain ⟨hframes, hframesUse⟩ := hconsole.withFrames out
    refine (takes_grInit font s).trans ?_
    rw [hframes.releasable_iff, hconsole.releasable_iff, hframesUse, hconsoleUse, hfontUse]
    cases hc : out.console <;> cases hf : out.framebuffer <;> simp [surfaceMachine, hc, hf]

/-- A safe call takes the surface where the order of the calls says. -/
theorem call_use {s t : Gr} (hr : s.held.Right) {call : GrCall} {use : SurfaceUse}
    (huse : surfaceMachine.step s.held.use call = some use)
    (hstep : (callMachine format font).step s call = some t) :
    t.held.Right ∧ t.held.use = use := by
  cases call with
  | exit =>
    obtain rfl := Option.some.inj hstep
    rw [held_grExit]
    exact hr.exited huse
  | flip ok =>
    obtain rfl := Option.some.inj hstep
    rw [(grFlip_quiet format ok).exec_eq]
    refine ⟨hr, ?_⟩
    by_cases hallocated : s.held.use = .allocated
    · simpa [surfaceMachine, hallocated] using huse
    · simp [surfaceMachine, hallocated] at huse
  | init out =>
    obtain rfl := Option.some.inj hstep
    obtain ⟨hfont, hfontUse⟩ := hr.withFont
    obtain ⟨hconsole, hconsoleUse⟩ := hfont.withConsole out.vt
    obtain ⟨hframes, hframesUse⟩ := hconsole.withFrames out
    rw [held_grInit, Held.started]
    -- a console that opens and refuses KDSETMODE ends in `gr_exit`
    cases hc : out.console with
    | false =>
      apply hconsole.exited
      rw [hconsoleUse, hfontUse]
      simpa [surfaceMachine, hc] using huse
    | true =>
      -- and so does a `get_framebuffer` that fails
      cases hf : out.framebuffer with
      | false =>
        apply hframes.exited
        rw [hframesUse, hconsoleUse, hfontUse]
        simpa [surfaceMachine, hc, hf] using huse
      | true =>
        obtain rfl : (if out.surface then .allocated else .absent) = use := by
          simpa [surfaceMachine, hc, hf] using huse
        exact hframes.withSurface out.surface

/-- **What is held.**  In whatever order `gr_init`, `gr_flip` and `gr_exit` are called, and whichever
calls of `gr_init` fail: everything that is released is held, and every flip copies from allocated
memory, exactly when the surface is never freed twice and never used while there is none. -/
theorem held_safe_iff {s : Gr} (hr : s.held.Right) (calls : List GrCall) :
    (callMachine format font).AllSteps (CallSafe format font) s calls ↔
      (surfaceMachine.run s.held.use calls).isSome := by
  -- call by call; `Held.Right` ties the bookkeeping of the code to the automaton's state
  induction calls generalizing s with
  | nil => exact iff_of_true trivial rfl
  | cons call calls ih =>
    rw [Machine.AllSteps, callSafe_iff hr, Machine.run_cons]
    cases huse : surfaceMachine.step s.held.use call with
    -- the automaton refuses the call, and the call is not safe
    | none => simp
    | some use =>
      refine (and_iff_right rfl).trans ⟨fun h => ?_, fun h t ht => ?_⟩
      · obtain ⟨t, ht⟩ : ∃ t, (callMachine format font).step s call = some t := by
          cases call <;> exact ⟨_, rfl⟩
        obtain ⟨hright, rfl⟩ := call_use hr huse ht
        exact (ih hright).mp (h t ht)
      · obtain ⟨hright, rfl⟩ := call_use hr huse ht
        exact (ih hright).mpr h

theorem held_safe_iff_small :
    ¬(callMachine .bgra8888 smallFont).AllSteps (CallSafe .bgra8888 smallFont) Gr.fresh
      [.init smallOutcome, .exit, .init { smallOutcome with fb := false }] := by
  have hright : Gr.fresh.held.Right :=
    ⟨by decide, by decide, by decide, by simp [Gr.fresh, Gr.held], by simp [Gr.fresh, Gr.held],
      by decide⟩
  rw [held_safe_iff hright]
  decide

end Run

end OdroidU2.Recovery
