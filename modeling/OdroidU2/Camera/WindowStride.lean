import OdroidU2.Camera.Runs
import OdroidU2.Camera.Samples
import OdroidU2.Foundations.Monitor

/-!
# Where the Preview Puts a Pixel

`dequeue_buffer` tells the stride of the window buffer, and `previewThread` does not look at it:
`convertYUYVtoRGB565` lays the picture out through one flat index, row after row without a gap.
In a buffer with longer rows only the first row is where the window shows it.

- `shownAfter_previewThreadLocked` — what an iteration leaves in the window buffer
- `placed_iff` — when every pixel is at its place, whatever the buffer held before
- `padded_rows` — a picture of two rows in a buffer with padded rows
-/

namespace OdroidU2.Camera

open OdroidU2.Foundations Prog

/-! ## §1 The Contents of the Window Buffer -/

/-- The frame that the conversion reads, and the bytes of the locked window buffer. -/
structure Shown where
  source : Nat → UInt8
  window : List UInt8

/-- What an action does to the window buffer, given what the frames hold and what
`convertYUYVtoRGB565` makes of a frame in a buffer. -/
def Shown.after (convert : (Nat → UInt8) → List UInt8 → List UInt8) (frames : Ptr → Nat → UInt8)
    (p : Shown) : Event → Shown
  | .readFrame .convertYUYVtoRGB565 frame _ => { p with source := frames frame }
  | .writeWindow true _ _ => { p with window := convert p.source p.window }
  | _ => p

/-- What a program leaves in the window buffer. -/
def shownAfter {α : Type} (convert : (Nat → UInt8) → List UInt8 → List UInt8)
    (frames : Ptr → Nat → UInt8) (p : CameraM α) (s : CameraHardware) (shown : Shown) : Shown :=
  replay (fun shown e _ => shown.after convert frames e) p s shown

/-- The action has no part in what is shown. -/
def Event.isHidden : Event → Bool
  | readFrame .convertYUYVtoRGB565 _ _ | writeWindow _ _ _ => false
  | _ => true

section Replay

variable {α β : Type} (convert : (Nat → UInt8) → List UInt8 → List UInt8)
variable (frames : Ptr → Nat → UInt8)

theorem Shown.after_hidden (shown : Shown) {e : Event} (he : e.isHidden = true) :
    shown.after convert frames e = shown := by
  cases e with
  | readFrame conversion frame bytes =>
    cases conversion with
    | convertYUYVtoRGB565 => cases he
    | yuyv422ToYuv420sp | saveYUYVtoJPEG => rfl
  | writeWindow locked stride bytes => cases he
  | openDevice | ioctl | qbuf | dqbuf | mmap | munmap | closeFd | ret | notifyFn | dataFn | window
  | assign => rfl

theorem shownAfter_bind (p : CameraM α) (f : α → CameraM β) (s : CameraHardware) (shown : Shown) :
    shownAfter convert frames (p >>= f) s shown =
      shownAfter convert frames (f (p.val s)) (p.exec s)
        (shownAfter convert frames p s shown) :=
  replay_bind _ p f s shown

/-- A program without accesses shows nothing new. -/
theorem shownAfter_hidden {p : CameraM α} {s : CameraHardware}
    (hp : Emits (fun e _ => e.isHidden = true) p s) (shown : Shown) :
    shownAfter convert frames p s shown = shown :=
  replay_of_unseen _ (hp.mono fun _ _ he x => x.after_hidden convert frames he) shown

end Replay

/-! ## §2 One Iteration -/

section Iteration

variable (convert : (Nat → UInt8) → List UInt8 → List UInt8) (frames : Ptr → Nat → UInt8)

theorem isHidden_of_not_isAccess (e : Event) (_ : CameraHardware) (h : e.isAccess = false) :
    e.isHidden = true := by
  cases e with
  | readFrame | writeWindow => cases h
  | openDevice | ioctl | qbuf | dqbuf | mmap | munmap | closeFd | ret | notifyFn | dataFn | window
  | assign => rfl

/-- The conversion, with the address of the window buffer. -/
theorem shownAfter_convertYUYVtoRGB565 (frame : Ptr) (stride : Nat) (w h : Int)
    (s : CameraHardware) (shown : Shown) :
    (shownAfter convert frames (CameraHardware.convertYUYVtoRGB565 frame true stride w h) s
        shown).window =
      convert (frames frame) shown.window := by
  simp only [shownAfter, CameraHardware.convertYUYVtoRGB565, replay_bind, replay_act, Shown.after]

/-- What an iteration does with the buffers once it has converted the frame. -/
theorem emits_isHidden_afterConvert (tempbuf : Ptr) (w h : Int) (s : CameraHardware) :
    Emits (fun e _ => e.isHidden = true) (do
      CameraHardware.windowCall "mapper.unlock"
      CameraHardware.windowCall "enqueue_buffer"
      let s ← read
      when (s.msgEnabled CameraHardware.msgPreviewFrame ||
          s.msgEnabled CameraHardware.msgVideoFrame) (do
        CameraHardware.yuyv422ToYuv420sp tempbuf w h
        act (.dataFn CameraHardware.msgPreviewFrame true) id)
      V4L2Camera.releasePreviewFrame) s := by
  -- nothing behind the conversion touches the surface
  have hrelease (t : CameraHardware) : Emits (fun e _ => e.isHidden = true)
      V4L2Camera.releasePreviewFrame t :=
    (V4L2Camera.quiet_releasePreviewFrame isHidden_of_not_isAccess).emits t
  have hwindow (operation : String) : (Event.window operation true).isHidden = true := rfl
  have hread (bytes : Nat) : (Event.readFrame .yuyv422ToYuv420sp tempbuf bytes).isHidden = true := rfl
  have hdata : (Event.dataFn CameraHardware.msgPreviewFrame true).isHidden = true := rfl
  simp only [CameraHardware.windowCall, CameraHardware.yuyv422ToYuv420sp, emits_bind, emits_act,
    emits_read, emits_when, hwindow, hread, hdata, hrelease, implies_true, and_self]

/-- With a locked window buffer and a frame, the buffer gets what the conversion makes of the
frame. -/
theorem shownAfter_previewFrame {s : CameraHardware} (stride : Nat) (w h : Int)
    (hlock : (s.answerAt 0).ok = true) {a : Answer}
    (hgrab : s.answered.outcome (V4L2Camera.dequeues s.answered) = some a) (shown : Shown) :
    (shownAfter convert frames (CameraHardware.previewFrame stride w h) s shown).window =
      convert (frames (s.camera.videoIn.mem a.index)) shown.window := by
  -- of all the calls only the conversion shows anything
  have hcall (operation : String) (t : CameraHardware) (q : Shown) :
      shownAfter convert frames (CameraHardware.windowCall operation) t q = q :=
    shownAfter_hidden convert frames ((emits_act _ _ _).mpr rfl) q
  have hlockCall (t : CameraHardware) (q : Shown) :
      shownAfter convert frames CameraHardware.mapperLock t q = q :=
    shownAfter_hidden convert frames ((emits_request _ _ _ _).mpr rfl) q
  have hgrabCall (t : CameraHardware) (q : Shown) :
      shownAfter convert frames V4L2Camera.grabPreviewFrame t q = q :=
    shownAfter_hidden convert frames
      ((V4L2Camera.quiet_grabPreviewFrame isHidden_of_not_isAccess).emits t) q
  have hrest (tempbuf : Ptr) (t : CameraHardware) (q : Shown) :=
    shownAfter_hidden convert frames (emits_isHidden_afterConvert tempbuf w h t) q
  have hdst : CameraHardware.mapperLock.val s = some (s.answerAt 0) := by
    rw [CameraHardware.mapperLock, val_request]
    exact (CameraHardware.outcome_eq_some _).mpr ⟨hlock, rfl, rfl⟩
  have hanswered : CameraHardware.mapperLock.exec s = s.answered := rfl
  have hlocked : (CameraHardware.windowCall "lock_buffer").exec s = s := rfl
  obtain ⟨hval, _⟩ := V4L2Camera.grabPreviewFrame_some hgrab
  have hframe : V4L2Camera.frame (V4L2Camera.grabbed s.answered a) = s.camera.videoIn.mem a.index :=
    rfl
  rw [CameraHardware.previewFrame, shownAfter_bind, hcall, hlocked, shownAfter_bind, hlockCall,
    hdst, hanswered, shownAfter_bind, hgrabCall, hval, shownAfter_bind, hrest, hframe,
    Option.isSome_some, shownAfter_convertYUYVtoRGB565]

/-- All calls of the iteration succeed: it gets a window buffer of that stride and its address, and
the driver gives it a frame. -/
structure IterationSucceeds (s : CameraHardware) (width height stride : Nat) : Prop where
  size : s.iteration = some ((width : Int), (height : Int))
  window : s.mNativeWindow = true
  dequeueBuffer : (s.answerAt 0).ok = true
  stride : (s.answerAt 0).stride = stride
  lock : (s.answerAt 1).ok = true
  fdOpen : s.fdOpen = true
  dqbuf : (s.answerAt 2).ok = true
  held : (s.answerAt 2).index ∈ s.kernel.held
  qbuf : (s.answerAt 3).ok = true

/-- The frame that the driver gives to the iteration. -/
def capturedFrame (s : CameraHardware) : Ptr := s.camera.videoIn.mem (s.answerAt 2).index

/-- What an iteration whose calls succeed leaves in the window buffer. -/
theorem shownAfter_previewThreadLocked {s : CameraHardware} {width height stride : Nat}
    (h : IterationSucceeds s width height stride) (shown : Shown) :
    (shownAfter convert frames CameraHardware.previewThreadLocked s shown).window =
      convert (frames (capturedFrame s)) shown.window := by
  have hassign (t : CameraHardware) (f : CameraHardware → CameraHardware) (q : Shown) :
      shownAfter convert frames (assign "width, height" f) t q = q :=
    shownAfter_hidden convert frames ((emits_act _ _ _).mpr rfl) q
  have hread (t : CameraHardware) (q : Shown) :
      shownAfter convert frames read t q = q := rfl
  have hdequeue (t : CameraHardware) (q : Shown) :
      shownAfter convert frames CameraHardware.dequeueWindow t q = q :=
    shownAfter_hidden convert frames ((emits_request _ _ _ _).mpr rfl) q
  -- the iteration comes to its frame
  have hbuffer : CameraHardware.dequeueWindow.val ({ s with iteration := none } : CameraHardware) =
      some (s.answerAt 0) := by
    rw [CameraHardware.dequeueWindow, val_request]
    exact (CameraHardware.outcome_eq_some _).mpr ⟨h.dequeueBuffer, rfl, rfl⟩
  have hlock : (({ s.answered with iteration := none } : CameraHardware).answerAt 0).ok = true := by
    have hanswer : ({ s.answered with iteration := none } : CameraHardware).answerAt 0 =
        s.answerAt 1 := s.kernel.answered_answerAt 0
    rw [hanswer, h.lock]
  have hgrab : ({ s.answered with iteration := none } : CameraHardware).answered.outcome
      (V4L2Camera.dequeues ({ s.answered with iteration := none } : CameraHardware).answered) =
      some (s.answerAt 2) := by
    have hanswer : ({ s.answered with iteration := none } : CameraHardware).answered.answerAt 0 =
        s.answerAt 2 := by
      exact (s.kernel.answered.answered_answerAt 0).trans (s.kernel.answered_answerAt 1)
    refine (CameraHardware.outcome_eq_some _).mpr ⟨by rw [hanswer, h.dqbuf], ?_, hanswer.symm⟩
    rw [hanswer, V4L2Camera.dequeues, Bool.and_eq_true, decide_eq_true_eq]
    exact ⟨h.fdOpen, h.held⟩
  have hframe := shownAfter_previewFrame convert frames (s.answerAt 0).stride width height
    hlock hgrab shown
  rw [CameraHardware.previewThreadLocked, shownAfter_bind, hread, val_read, exec_read]
  simp only [h.size]
  have hsize : (assign "width, height" fun t : CameraHardware => { t with iteration := none }).exec s =
      { s with iteration := none } := rfl
  have hanswered : CameraHardware.dequeueWindow.exec ({ s with iteration := none } : CameraHardware) =
      { s.answered with iteration := none } := rfl
  rw [shownAfter_bind, hassign, when, if_pos h.window, hsize, shownAfter_bind, hdequeue, hbuffer,
    hanswered]
  exact hframe

end Iteration

/-! ## §3 The Place of a Pixel -/

section Place

variable {R : Type} (D : Doubles R)

theorem length_flatMap_pixelBytes (buf : Nat → UInt8) (n : Nat) :
    ((List.range n).flatMap (pixelBytes D buf)).length = 2 * n := by
  induction n with
  | zero => rfl
  | succ n ih =>
    rw [List.range_succ, List.flatMap_append, List.length_append, ih]
    rfl

/-- The picture has the bytes of pixel `k` at `2 * k`. -/
theorem drop_flatMap_pixelBytes (buf : Nat → UInt8) {n k : Nat} (hk : k < n) (rest : List UInt8) :
    (((List.range n).flatMap (pixelBytes D buf) ++ rest).drop (2 * k)).take 2 =
      pixelBytes D buf k := by
  -- the pixels before `k`, pixel `k`, and those behind it
  have hrange : List.range n = List.range k ++ k :: List.range' (k + 1) (n - k - 1) := by
    have hn : n = k + (n - k - 1 + 1) := by omega
    have hfrom := List.range'_append_1 (s := 0) (m := k) (n := n - k - 1 + 1)
    rw [List.range_eq_range', List.range_eq_range', ← List.range'_succ]
    simpa [← hn] using hfrom.symm
  rw [hrange, List.flatMap_append, List.flatMap_cons, List.append_assoc, List.append_assoc,
    List.drop_append_of_le_length (length_flatMap_pixelBytes D buf k).ge,
    List.drop_of_length_le (length_flatMap_pixelBytes D buf k).le, List.nil_append]
  exact List.take_left' rfl

/-- The window shows the frame: the colour of pixel `x` of a row is where a row of `stride` pixels
has it. -/
def Placed (f : YuyvFrame) (stride : Nat) (window : List UInt8) : Prop :=
  ∀ x < f.width, ∀ row < f.height,
    (window.drop (2 * (row * stride + x))).take 2 = pixelBytes D f.byteAt (row * f.width + x)

/-- The picture without gaps shows the frame in a window buffer without gaps. -/
theorem placed_convertYUYVtoRGB565 (f : YuyvFrame) {stride : Nat} (window : List UInt8)
    (hlength : 2 * (f.width * f.height) ≤ window.length)
    (hstride : stride = f.width ∨ f.height ≤ 1) :
    Placed D f stride (convertYUYVtoRGB565 D f.byteAt window f.width f.height).rgb := by
  intro x hx row hrow
  -- without padding the place of a pixel is its number; one row has none either way
  have hplace : row * stride + x = row * f.width + x := by
    rcases hstride with rfl | hone
    · rfl
    · obtain rfl : row = 0 := by omega
      rw [Nat.zero_mul, Nat.zero_mul]
  have hpixel : row * f.width + x < f.width * f.height := by
    calc row * f.width + x < row * f.width + f.width := by omega
      _ = (row + 1) * f.width := (Nat.succ_mul _ _).symm
      _ ≤ f.height * f.width := Nat.mul_le_mul_right _ hrow
      _ = f.width * f.height := Nat.mul_comm _ _
  rw [f.convertYUYVtoRGB565_spec D hlength, hplace]
  exact drop_flatMap_pixelBytes D f.byteAt hpixel _

/-- With padded rows the last pixel belongs behind the picture, where the buffer keeps what it
held. -/
theorem not_placed_convertYUYVtoRGB565 (f : YuyvFrame) {stride : Nat} (hstride : f.width < stride)
    (hrows : 2 ≤ f.height) (hwidth : 0 < f.width) {old : UInt8}
    (hold : old ≠ (yuvToRgb16 D
      (samples f.byteAt ((f.height - 1) * f.width + (f.width - 1)))).1) :
    ¬Placed D f stride (convertYUYVtoRGB565 D f.byteAt
      (List.replicate (2 * (stride * f.height)) old) f.width f.height).rgb := by
  intro hplaced
  obtain ⟨rows, hheight⟩ : ∃ rows, f.height = rows + 2 := ⟨f.height - 2, by omega⟩
  obtain ⟨last, hlast⟩ : ∃ last, f.width = last + 1 := ⟨f.width - 1, by omega⟩
  obtain ⟨pad, rfl⟩ : ∃ pad, stride = f.width + 1 + pad := ⟨stride - f.width - 1, by omega⟩
  have hplace := hplaced (f.width - 1) (by omega) (f.height - 1) (by omega)
  -- the place of the last pixel lies in the buffer, and behind the picture
  have hbehind : f.width * f.height ≤ (f.height - 1) * (f.width + 1 + pad) + (f.width - 1) := by
    rw [hheight, hlast]
    simp only [Nat.add_one_sub_one]
    nlinarith
  have hinside : (f.height - 1) * (f.width + 1 + pad) + (f.width - 1) <
      (f.width + 1 + pad) * f.height := by
    rw [hheight, hlast]
    simp only [Nat.add_one_sub_one]
    nlinarith
  have harea : 2 * (f.width * f.height) ≤
      (List.replicate (2 * ((f.width + 1 + pad) * f.height)) old).length := by
    rw [List.length_replicate]
    nlinarith
  rw [f.convertYUYVtoRGB565_spec D harea] at hplace
  generalize (f.height - 1) * (f.width + 1 + pad) + (f.width - 1) = p at *
  have hhead := congrArg (·[0]?) hplace
  simp only [List.getElem?_take, List.getElem?_drop, Nat.zero_lt_two, if_true, Nat.add_zero] at hhead
  rw [List.getElem?_append_right (by rw [length_flatMap_pixelBytes]; omega),
    length_flatMap_pixelBytes, List.getElem?_drop, List.getElem?_replicate, if_pos (by omega)] at hhead
  exact hold (Option.some.inj hhead)

end Place

/-! ## §4 After an Iteration -/

section

variable {R : Type} (D : Doubles R)

/-- **Every pixel is at its place only in a window buffer without gaps**: after an iteration whose
calls succeed, for every size, stride and frame, whatever the window buffer held before. -/
theorem placed_iff (f : YuyvFrame) (frames : Ptr → Nat → UInt8) {s : CameraHardware} {stride : Nat}
    (h : IterationSucceeds s f.width f.height stride) (hframe : frames (capturedFrame s) = f.byteAt)
    (hstride : f.width ≤ stride) (source : Nat → UInt8) :
    (∀ window : Vector UInt8 (2 * (stride * f.height)),
        Placed D f stride
          (shownAfter (fun buf rgb => (convertYUYVtoRGB565 D buf rgb f.width f.height).rgb) frames
            CameraHardware.previewThreadLocked s ⟨source, window.toList⟩).window) ↔
      stride = f.width ∨ f.height ≤ 1 ∨ f.width = 0 := by
  simp only [shownAfter_previewThreadLocked _ frames h, hframe]
  constructor
  · intro hplaced
    by_contra hpadded
    simp only [not_or, Nat.not_le] at hpadded
    -- a buffer that held anything but the colour of the last pixel
    obtain ⟨old, hold⟩ : ∃ old, old ≠ (yuvToRgb16 D
        (samples f.byteAt ((f.height - 1) * f.width + (f.width - 1)))).1 :=
      ⟨_, UInt8.not_ne_self⟩
    have hlast := hplaced (Vector.replicate _ old)
    rw [Vector.toList_replicate] at hlast
    exact not_placed_convertYUYVtoRGB565 D f (by omega) (by omega) (by omega) hold hlast
  · rintro (hgaps | hrow | hwidth) window
    · apply placed_convertYUYVtoRGB565 D f _ _ (Or.inl hgaps)
      rw [Vector.length_toList, hgaps]
    · apply placed_convertYUYVtoRGB565 D f _ _ (Or.inr hrow)
      rw [Vector.length_toList]
      exact Nat.mul_le_mul_left 2 (Nat.mul_le_mul_right _ hstride)
    · intro x hx
      omega

end

/-- Two rows of two black pixels. -/
def blackRows : YuyvFrame where
  width := 2
  height := 2
  bytes := [16, 128, 16, 128, 16, 128, 16, 128]
  even := by decide
  length_eq := rfl
  fits := by decide

/-- The preview starts in that size, and the preview thread comes to its lock. -/
def toLock : List Step :=
  [⟨.setParameters ⟨2, 2, "jpeg"⟩, []⟩, ⟨.setPreviewWindow true, []⟩,
    ⟨.startPreview, previewAnswers 8⟩, ⟨.previewThread, []⟩]

/-- The answers to an iteration whose calls succeed, in a window buffer of that stride. -/
def iterationAnswers (stride : Nat) : List Answer :=
  [{ ok := true, stride := stride }, { ok := true }, { ok := true, index := 0 }, { ok := true }]

/-- The state after `toLock`, with these answers to come. -/
def lockState (stride : Nat) : CameraHardware :=
  Step.start ⟨.previewThreadLocked, iterationAnswers stride⟩
    ((cameraMachine.run (created 0) toLock).getD (created 0))

theorem lockState_succeeds (stride : Nat) :
    IterationSucceeds (lockState stride) blackRows.width blackRows.height stride where
  size := rfl
  window := rfl
  dequeueBuffer := rfl
  stride := rfl
  lock := rfl
  fdOpen := rfl
  dqbuf := rfl
  held := List.mem_cons_of_mem 3 (List.mem_cons_of_mem 2 (List.mem_cons_of_mem 1 List.mem_cons_self))
  qbuf := rfl

/-- Without padding the two rows are at their places. -/
theorem placed_iff_blackRows :
    ((∀ window : Vector UInt8 (2 * (2 * blackRows.height)),
        Placed YuyvFrame.exactDoubles blackRows 2
          (shownAfter (fun buf rgb => (convertYUYVtoRGB565 YuyvFrame.exactDoubles buf rgb
              blackRows.width blackRows.height).rgb)
            (fun _ => blackRows.byteAt) CameraHardware.previewThreadLocked (lockState 2)
            ⟨blackRows.byteAt, window.toList⟩).window) ↔
      2 = blackRows.width ∨ blackRows.height ≤ 1 ∨ blackRows.width = 0) ∧ 2 = blackRows.width :=
  ⟨placed_iff YuyvFrame.exactDoubles blackRows _ (lockState_succeeds 2) rfl le_rfl _, rfl⟩

/-- With rows of three pixels in the window buffer the last black pixel is not at its place: the
buffer keeps what it held. -/
theorem padded_rows :
    cameraMachine.run (created 0) toLock ≠ none ∧
      ¬Placed YuyvFrame.exactDoubles blackRows 3
        (shownAfter (fun buf rgb => (convertYUYVtoRGB565 YuyvFrame.exactDoubles buf rgb
            blackRows.width blackRows.height).rgb)
          (fun _ => blackRows.byteAt) CameraHardware.previewThreadLocked (lockState 3)
          ⟨blackRows.byteAt, List.replicate (2 * (3 * blackRows.height)) 0xFF⟩).window := by
  constructor
  · exact nofun
  · rw [shownAfter_previewThreadLocked _ _ (lockState_succeeds 3)]
    refine not_placed_convertYUYVtoRGB565 YuyvFrame.exactDoubles blackRows (by decide) (by decide)
      (by decide) ?_
    -- black is all zeros
    have hblack : yuvToRgb16 YuyvFrame.exactDoubles ⟨16, 128, 128⟩ = (0, 0) := by
      simp [yuvToRgb16, YuyvFrame.exactDoubles, clamp]
    show 255 ≠ (yuvToRgb16 YuyvFrame.exactDoubles ⟨16, 128, 128⟩).1
    rw [hblack]
    decide

end OdroidU2.Camera
