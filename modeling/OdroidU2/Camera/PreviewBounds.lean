import OdroidU2.Camera.Runs

/-!
# What the Preview Conversions Touch

`previewThread` converts every frame with the preview size as it is at the start of the
iteration.  The capture buffers have the length that the driver gave them when the preview
was started, and the window buffers the geometry that was set with the window.  Nothing
keeps the three in agreement.

- `InBounds` — an access of a conversion is inside the buffer it is made to
- `FrameFits` — when the accesses of an iteration are
- `preview_inBounds_iff` — a run stays in bounds exactly when every converting iteration fits
- `larger_preview_leaves_buffer` — a size set during a preview takes it out of bounds
-/

namespace OdroidU2.Camera

open OdroidU2.Foundations Prog

/-! ## §1 The Property -/

/-- The bytes of a window buffer of that stride and geometry, at two bytes a pixel. -/
def windowBytes (stride : Nat) (geometry : Int × Int) : Nat := 2 * stride * geometry.2.toNat

/-- A read of a conversion of the preview is inside a capture buffer that is mapped for the
camera's open file, and a write inside a locked window buffer. -/
def InBounds (e : Event) (t : CameraHardware) : Prop :=
  match e with
  | .readFrame .saveYUYVtoJPEG _ _ => True
  | .readFrame _ (.map m) bytes =>
    bytes = 0 ∨ (m ∈ t.kernel.maps ∧ m.file = t.camera.fd ∧ t.fdOpen = true ∧ bytes ≤ m.length)
  | .readFrame _ _ bytes => bytes = 0
  | .writeWindow locked stride bytes =>
    bytes = 0 ∨ (locked = true ∧ bytes ≤ windowBytes stride t.geometry)
  | _ => True

instance (e : Event) (t : CameraHardware) : Decidable (InBounds e t) := by
  unfold InBounds
  induction e using Event.casesOn with
  | readFrame conversion frame bytes =>
    induction conversion using Conversion.casesOn <;> induction frame using Ptr.casesOn <;>
      infer_instance
  | _ => infer_instance

theorem inBounds_of_not_isAccess (e : Event) (t : CameraHardware) (h : e.isAccess = false) :
    InBounds e t := by
  cases e <;> trivial

/-! ## §2 The Condition -/

/-- How many bytes of a frame an iteration reads. -/
def bytesRead (s : CameraHardware) (width height : Int) : Nat :=
  if s.msgEnabled CameraHardware.msgPreviewFrame || s.msgEnabled CameraHardware.msgVideoFrame then
    max (CameraHardware.convertYUYVtoRGB565Bytes width height)
      (CameraHardware.yuyv422ToYuv420spBytes width height)
  else CameraHardware.convertYUYVtoRGB565Bytes width height

theorem bytesRead_le_iff (s : CameraHardware) (width height : Int) (n : Nat) :
    bytesRead s width height ≤ n ↔
      CameraHardware.convertYUYVtoRGB565Bytes width height ≤ n ∧
        (s.msgEnabled CameraHardware.msgPreviewFrame ||
            s.msgEnabled CameraHardware.msgVideoFrame →
          CameraHardware.yuyv422ToYuv420spBytes width height ≤ n) := by
  rw [bytesRead]
  split
  · next hwants => simp only [Nat.max_le, hwants, forall_const]
  · next hwants => exact ⟨fun h => ⟨h, fun hw => absurd hw hwants⟩, fun h => h.1⟩

/-- Does the size fit, given the window buffer, and what `mapper.lock` and `VIDIOC_DQBUF`
answer?  If anything is read, there is a frame and it is long enough; if anything is written,
the window buffer is locked and large enough. -/
def FrameFits (s : CameraHardware) (width height : Int) (stride : Nat) (lock frame : Answer) :
    Prop :=
  (bytesRead s width height = 0 ∨
    (frame.ok = true ∧ frame.index ∈ s.kernel.held ∧
      bytesRead s width height ≤ s.kernel.lengths frame.index)) ∧
  (CameraHardware.convertYUYVtoRGB565Bytes width height = 0 ∨
    (lock.ok = true ∧
      CameraHardware.convertYUYVtoRGB565Bytes width height ≤ windowBytes stride s.geometry))

/-- The iteration that is about to take the lock in the state `s` fits, if it gets a window
buffer. -/
def IterationFits (s : CameraHardware) : Prop :=
  ∀ width height, s.iteration = some (width, height) → s.mNativeWindow = true →
    (s.answerAt 0).ok = true →
    FrameFits s width height (s.answerAt 0).stride (s.answerAt 1) (s.answerAt 2)

/-- If the step is the locked half of an iteration, that iteration fits. -/
def StepFits (s : CameraHardware) (a : Step) : Prop :=
  match a.call with
  | .previewThreadLocked =>
    Call.enabled s .previewThreadLocked = true → IterationFits (a.start s)
  | _ => True

/-! ## §3 One Iteration -/

section Iteration

variable {s : CameraHardware}

/-- A read of the frame in a mapped slot. -/
theorem inBounds_readFrame_mapped {conversion : Conversion} {i bytes : Nat} {t : CameraHardware}
    (hconversion : conversion ≠ .saveYUYVtoJPEG) (hmapped : MappedAt t i)
    (hopen : t.fdOpen = true) :
    InBounds (.readFrame conversion (t.camera.videoIn.mem i) bytes) t ↔
      bytes = 0 ∨ bytes ≤ t.kernel.lengths i := by
  obtain ⟨hmem, hplace⟩ := hmapped
  rw [bufferMapping] at hmem hplace
  rw [hmem]
  -- the two conversions of the preview read the whole frame from its first byte on
  cases conversion with
  | saveYUYVtoJPEG => exact absurd rfl hconversion
  | convertYUYVtoRGB565 => simp [InBounds, hplace, hopen]
  | yuyv422ToYuv420sp => simp [InBounds, hplace, hopen]

theorem inBounds_readFrame_null {conversion : Conversion} {bytes : Nat} {t : CameraHardware}
    (hconversion : conversion ≠ .saveYUYVtoJPEG) :
    InBounds (.readFrame conversion .null bytes) t ↔ bytes = 0 := by
  cases conversion with
  | saveYUYVtoJPEG => exact absurd rfl hconversion
  | convertYUYVtoRGB565 => rfl
  | yuyv422ToYuv420sp => rfl

theorem emits_previewFrame (h : Running s) (width height : Int) (stride : Nat) :
    Emits InBounds (CameraHardware.previewFrame stride width height) s ↔
      FrameFits s width height stride (s.answerAt 0) (s.answerAt 1) := by
  rw [emits_previewFrame_iff inBounds_of_not_isAccess, FrameFits]
  have hgrab := (keptByFrames_running.grabPreviewFrame (P := fun _ _ => True) (fun _ _ _ => trivial) _
    h.answered).1
  have hanswer : s.answered.answerAt 0 = s.answerAt 1 := s.kernel.answered_answerAt 0
  have hopen : s.answered.fdOpen = true := h.fdOpen
  have hheld : s.answered.kernel.held = s.kernel.held := rfl
  cases hr : s.answered.outcome (V4L2Camera.dequeues s.answered) with
  | none =>
    -- without a frame nothing may be read
    obtain ⟨hval, hexec⟩ := V4L2Camera.grabPreviewFrame_none hr
    rw [CameraHardware.outcome_eq_none, hanswer, V4L2Camera.dequeues, hopen, hheld] at hr
    have hframe : ¬((s.answerAt 1).ok = true ∧ (s.answerAt 1).index ∈ s.kernel.held ∧
        bytesRead s width height ≤ s.kernel.lengths (s.answerAt 1).index) :=
      fun hf => hr ⟨hf.1, by simpa using hf.2.1⟩
    rw [hval, hexec, inBounds_readFrame_null (by decide), inBounds_readFrame_null (by decide),
      or_iff_left hframe, ← Nat.le_zero (i := bytesRead s width height), bytesRead_le_iff]
    simp only [Nat.le_zero]
    exact ⟨fun h => ⟨⟨h.1, h.2.2⟩, h.2.1⟩, fun h => ⟨h.1.1, h.2, h.1.2⟩⟩
  | some a =>
    obtain ⟨hval, hexec⟩ := V4L2Camera.grabPreviewFrame_some hr
    obtain ⟨hok, hallowed, rfl⟩ := (CameraHardware.outcome_eq_some _).mp hr
    rw [V4L2Camera.dequeues, Bool.and_eq_true, decide_eq_true_eq, hanswer] at hallowed
    rw [hanswer] at hok
    have hmapped := hgrab.mapped _ hgrab.index_lt
    rw [hexec] at hgrab hmapped
    -- the frame is the mapped buffer that the driver named
    rw [hval, hexec, V4L2Camera.frame, inBounds_readFrame_mapped (by decide) hmapped hgrab.fdOpen,
      inBounds_readFrame_mapped (by decide) hmapped hgrab.fdOpen]
    have hindex : (V4L2Camera.grabbed s.answered (s.answered.answerAt 0)).camera.videoIn.buf.index =
        (s.answerAt 1).index := by rw [hanswer]; rfl
    have hlengths : (V4L2Camera.grabbed s.answered (s.answered.answerAt 0)).kernel.lengths =
        s.kernel.lengths := rfl
    have hle (n : Nat) : (n = 0 ∨ n ≤ s.kernel.lengths (s.answerAt 1).index) ↔
        n ≤ s.kernel.lengths (s.answerAt 1).index := by
      omega
    have hframe : (bytesRead s width height = 0 ∨
        ((s.answerAt 1).ok = true ∧ (s.answerAt 1).index ∈ s.kernel.held ∧
          bytesRead s width height ≤ s.kernel.lengths (s.answerAt 1).index)) ↔
        bytesRead s width height ≤ s.kernel.lengths (s.answerAt 1).index := by
      have hheld : (s.answerAt 1).index ∈ s.kernel.held := hallowed.2
      simpa only [hok, hheld, true_and] using hle (bytesRead s width height)
    rw [hindex, hlengths, hle, hle, hframe, bytesRead_le_iff]
    exact ⟨fun h => ⟨⟨h.1, h.2.2⟩, h.2.1⟩, fun h => ⟨h.1.1, h.2, h.1.2⟩⟩

/-- The locked half of an iteration. -/
theorem emits_previewThreadLocked (h : Consistent s) :
    Emits InBounds CameraHardware.previewThreadLocked s ↔ IterationFits s := by
  rw [emits_previewThreadLocked_iff fun e t he _ => inBounds_of_not_isAccess e t he, IterationFits]
  refine forall_congr' fun width => forall_congr' fun height => ?_
  refine imp_congr_right fun hiteration => imp_congr_right fun _ => imp_congr_right fun _ => ?_
  have hrunning : Running { s.answered with iteration := none } :=
    (h.running (h.thread (by rw [hiteration]; rfl))).answered.congr rfl rfl
  have hanswer (n : Nat) : ({ s.answered with iteration := none } : CameraHardware).answerAt n =
      s.answerAt (n + 1) := s.kernel.answered_answerAt n
  rw [emits_previewFrame hrunning, hanswer, hanswer]
  rfl

/-- One step. -/
theorem stepEmits_inBounds_iff (h : Consistent s) (a : Step) :
    StepEmits InBounds s a ↔ StepFits s a := by
  have hA := inBounds_of_not_isAccess
  obtain ⟨call, answers⟩ := a
  rw [StepEmits, StepFits]
  -- only the iteration reads through a size that can have changed
  cases call with
  | previewThreadLocked =>
    exact imp_congr_right fun _ => emits_previewThreadLocked (h.congr rfl)
  | takePicture =>
    refine iff_of_true (fun _ => ?_) trivial
    have hpicture := (CameraHardware.quiet_pictureThread hA fun _ _ _ => trivial).always
    have hcall := (always_stopPreview (Event.of_not_isFramed hA)).bind fun _ => hpicture.bind fun _ => keeps_pure (0 : Int)
    exact ((hcall.bind fun _ => keeps_pure ()) _ trivial).2
  | setPreviewWindow | setParameters | enableMsgType | disableMsgType | startPreview
  | stopPreview | previewThread =>
    exact iff_of_true (fun _ => emits_code_of_not_access hA _ nofun nofun) trivial

end Iteration

/-! ## §4 Every Run -/

/-- **The preview stays in bounds exactly when every iteration fits**: in a run from the
creation of `CameraHardware`, with any answers of the kernel and the window system, all reads
and writes of the conversions of the preview are inside the mapped capture buffer and the
window buffer if and only if every iteration that gets a window buffer fits. -/
theorem preview_inBounds_iff (fd : Int) (steps : List Step) :
    cameraMachine.AllSteps (StepEmits InBounds) (created fd) steps ↔
      cameraMachine.AllSteps StepFits (created fd) steps :=
  cameraMachine.allSteps_iff (fun _ a hs => stepEmits_inBounds_iff hs a)
    (fun _ _ _ hs _ hstep => consistent_step hs hstep) (consistent_created fd) steps

/-- A preview of 320 by 240 pixels runs when the client sets a size of 640 by 480. -/
def largerPreview : List Step :=
  [⟨.setPreviewWindow true, []⟩, ⟨.startPreview, previewAnswers 153600⟩,
    ⟨.setParameters ⟨640, 480, "jpeg"⟩, []⟩, ⟨.previewThread, []⟩,
    ⟨.previewThreadLocked,
      [{ ok := true, stride := 320 }, { ok := true }, { ok := true }, { ok := true }]⟩]

/-- The next iteration reads four times the bytes of the capture buffer. -/
theorem larger_preview_leaves_buffer :
    (cameraMachine.run (created 0) largerPreview).isSome = true ∧
      ¬cameraMachine.AllSteps (StepEmits InBounds) (created 0) largerPreview := by
  constructor
  · rfl
  · decide

end OdroidU2.Camera
