import OdroidU2.Camera.Runs

/-!
# Who Has a Buffer While It Is Read

A capture buffer belongs to the driver from its `VIDIOC_QBUF` to its `VIDIOC_DQBUF`.  The
preview reads a frame between `GrabPreviewFrame` and `ReleasePreviewFrame`.  A picture is
made from a buffer that `GrabJpegFrame` has queued again before.

- `ReadsOwn` — a conversion reads no buffer that the driver holds
- `TakesRequeued` — the picture that breaks this
- `reads_own_iff` — a run has no other way to break it
- `picture_reads_queued_buffer` — such a picture
-/

namespace OdroidU2.Camera

open OdroidU2.Foundations Prog

/-! ## §1 The Property -/

/-- A conversion that reads anything from a mapping reads one that no slot `mem[i]` has for a
buffer `i` that the driver holds. -/
def ReadsOwn (e : Event) (t : CameraHardware) : Prop :=
  match e with
  | .readFrame _ (.map m) bytes =>
    bytes = 0 ∨ ∀ i < nbBuffer, t.camera.videoIn.mem i = .map m → i ∉ t.kernel.held
  | _ => True

instance (e : Event) (t : CameraHardware) : Decidable (ReadsOwn e t) := by
  unfold ReadsOwn
  induction e using Event.casesOn with
  | readFrame conversion frame bytes => induction frame using Ptr.casesOn <;> infer_instance
  | _ => infer_instance

theorem readsOwn_of_not_isAccess (e : Event) (t : CameraHardware) (h : e.isAccess = false) :
    ReadsOwn e t := by
  cases e <;> trivial

/-- Who reads nothing reads nothing of the driver's. -/
theorem readsOwn_zero (conversion : Conversion) (frame : Ptr) (t : CameraHardware) :
    ReadsOwn (.readFrame conversion frame 0) t := by
  cases frame with
  | null => trivial
  | failed => trivial
  | map m => exact Or.inl rfl

/-! ## §2 The Preview -/

section Preview

variable {s : CameraHardware}

/-- Buffer `i` of a running preview is read while the driver does not have it. -/
theorem readsOwn_mapped (h : Running s) {i : Nat} (hi : i < nbBuffer)
    (hfree : i ∉ s.kernel.held) (conversion : Conversion) (bytes : Nat) :
    ReadsOwn (.readFrame conversion (s.camera.videoIn.mem i) bytes) s := by
  rw [(h.mapped i hi).mem]
  apply Or.inr
  intro j hj hmem
  -- the slots hold mappings of different buffers
  rw [(h.mapped j hj).mem, Ptr.map.injEq] at hmem
  have hij : j = i := congrArg Mapping.index hmem
  rw [hij]
  exact hfree

theorem readsOwn_previewFrame (h : Running s) (stride : Nat) (width height : Int) :
    Emits ReadsOwn (CameraHardware.previewFrame stride width height) s := by
  rw [emits_previewFrame_iff readsOwn_of_not_isAccess]
  have hgrab := (keptByFrames_running.grabPreviewFrame (P := fun _ _ => True) (fun _ _ _ => trivial) _
    h.answered).1
  -- without a frame the conversions read nothing of a buffer
  cases hr : s.answered.outcome (V4L2Camera.dequeues s.answered) with
  | none =>
    obtain ⟨hval, _⟩ := V4L2Camera.grabPreviewFrame_none hr
    rw [hval]
    exact ⟨trivial, trivial, fun _ => trivial⟩
  | some a =>
    obtain ⟨hval, hexec⟩ := V4L2Camera.grabPreviewFrame_some hr
    rw [hexec] at hgrab
    rw [hval, hexec]
    -- the buffer just dequeued is no longer with the driver
    have hfree : a.index ∉ (V4L2Camera.grabbed s.answered a).kernel.held :=
      h.held_nodup.not_mem_erase
    exact ⟨readsOwn_mapped hgrab hgrab.index_lt hfree _ _, trivial,
      fun _ => readsOwn_mapped hgrab hgrab.index_lt hfree _ _⟩

theorem readsOwn_previewThreadLocked (h : Consistent s) :
    Emits ReadsOwn CameraHardware.previewThreadLocked s := by
  rw [emits_previewThreadLocked_iff fun e t he _ => readsOwn_of_not_isAccess e t he]
  intro width height hiteration _ _
  have hrunning : Running { s.answered with iteration := none } :=
    (h.running (h.thread (by rw [hiteration]; rfl))).answered.congr rfl rfl
  exact readsOwn_previewFrame hrunning _ _ _

end Preview

/-! ## §3 The Picture -/

/-- The picture taken in the state `t` is made from a queued buffer: the client wants one,
`GrabJpegFrame` gets a frame and can queue its buffer again, and the conversion reads
anything. -/
def TakesRequeued (t : CameraHardware) : Prop :=
  t.msgEnabled CameraHardware.msgCompressedImage = true ∧
    (t.answerAt 0).ok = true ∧ (t.answerAt 0).index ∈ t.kernel.held ∧ (t.answerAt 1).ok = true ∧
      V4L2Camera.saveYUYVtoJPEGBytes t.camera.videoIn.width t.camera.videoIn.height ≠ 0

section Picture

variable {t : CameraHardware} {before : Int} {k : Nat}

/-- The driver takes a buffer back that it has just given out. -/
theorem Filled.queues_grabbed (h : Filled before k t) {a : Answer} (hheld : a.index ∈ t.kernel.held) :
    V4L2Camera.queues (V4L2Camera.grabbed t a) = true := by
  have hnodup : t.kernel.held.Nodup := by
    rw [h.held, List.nodup_reverse]
    exact List.nodup_range
  have hlt : a.index < k := by simpa [h.held] using hheld
  have hcount : a.index < t.kernel.count := Nat.lt_of_lt_of_le hlt h.count
  have hopen : (V4L2Camera.grabbed t a).fdOpen = true := h.fdOpen
  rw [V4L2Camera.queues, hopen, Bool.true_and, Bool.and_eq_true, decide_eq_true_eq,
    decide_eq_true_eq]
  exact ⟨hcount, hnodup.not_mem_erase⟩

/-- A picture from a session that `Init` has filled as far as it could. -/
theorem readsOwn_grabJpegFrame (h : Filled before k t) (hk : k ≤ nbBuffer) :
    Emits ReadsOwn V4L2Camera.grabJpegFrame t ↔
      ((t.answerAt 0).ok = true → (t.answerAt 0).index ∈ t.kernel.held → (t.answerAt 1).ok = true →
        V4L2Camera.saveYUYVtoJPEGBytes t.camera.videoIn.width t.camera.videoIn.height = 0) := by
  rw [V4L2Camera.emits_grabJpegFrame_iff readsOwn_of_not_isAccess]
  constructor
  · intro hread hok hheld hok'
    have hlt : (t.answerAt 0).index < k := by simpa [h.held] using hheld
    have hr : t.outcome (V4L2Camera.dequeues t) = some (t.answerAt 0) := by
      refine (t.outcome_eq_some).mpr ⟨hok, ?_, rfl⟩
      rw [V4L2Camera.dequeues, h.fdOpen, decide_eq_true hheld]
      rfl
    have hanswer : (V4L2Camera.grabbed t (t.answerAt 0)).answerAt 0 = t.answerAt 1 :=
      t.kernel.answered_answerAt 0
    have hq : ((V4L2Camera.grabbed t (t.answerAt 0)).outcome fun _ =>
        V4L2Camera.queues (V4L2Camera.grabbed t (t.answerAt 0))).isSome = true := by
      rw [Option.isSome_iff_exists]
      exact ⟨_, (CameraHardware.outcome_eq_some _).mpr ⟨hanswer ▸ hok', h.queues_grabbed hheld, rfl⟩⟩
    have hread' := hread _ hr hq
    have hframe : V4L2Camera.frame (V4L2Camera.requeued (V4L2Camera.grabbed t (t.answerAt 0))) =
        .map (bufferMapping t (t.answerAt 0).index) := (h.mapped _ hlt).mem
    rw [hframe] at hread'
    -- the read comes after the QBUF
    rcases hread' with hzero | hfree
    · exact hzero
    · -- the slot of the buffer has the mapping, and the driver holds the buffer
      exact absurd List.mem_cons_self
        (hfree (t.answerAt 0).index (Nat.lt_of_lt_of_le hlt hk) (h.mapped _ hlt).mem)
  · intro hzero a hr hq
    obtain ⟨hok, hallowed, rfl⟩ := (t.outcome_eq_some).mp hr
    obtain ⟨b, hb⟩ := Option.isSome_iff_exists.mp hq
    obtain ⟨hok', _, _⟩ := (CameraHardware.outcome_eq_some _).mp hb
    rw [V4L2Camera.dequeues, Bool.and_eq_true, decide_eq_true_eq] at hallowed
    have hanswer : (V4L2Camera.grabbed t (t.answerAt 0)).answerAt 0 = t.answerAt 1 :=
      t.kernel.answered_answerAt 0
    rw [hzero hok hallowed.2 (hanswer ▸ hok')]
    exact readsOwn_zero _ _ _

/-- The state in which `pictureThread`, called in the state `s`, comes to the picture. -/
def atPicture (s : CameraHardware) : CameraHardware :=
  V4L2Camera.startStreaming.exec (V4L2Camera.init.exec
    ((CameraHardware.openNode s.mParameters.previewWidth s.mParameters.previewHeight).exec s))

theorem readsOwn_compressedImage (h : Filled before k t) (hk : k ≤ nbBuffer) :
    Emits ReadsOwn CameraHardware.compressedImage t ↔ ¬TakesRequeued t := by
  have hdata (picture : Bool) (u : CameraHardware) :
      ReadsOwn (.dataFn CameraHardware.msgCompressedImage picture) u := trivial
  simp only [CameraHardware.compressedImage, emits_bind, emits_read, val_read, exec_read, emits_when,
    emits_act, hdata, and_true, true_and, readsOwn_grabJpegFrame h hk]
  -- the picture is taken when the client asked for it
  constructor
  · rintro hzero ⟨hmsg, hok, hheld, hok', hbytes⟩
    exact hbytes (hzero hmsg hok hheld hok')
  · intro hno hmsg hok hheld hok'
    by_contra hbytes
    exact hno ⟨hmsg, hok, hheld, hok', hbytes⟩

theorem readsOwn_pictureThread (s : CameraHardware) :
    Emits ReadsOwn CameraHardware.pictureThread s ↔
      (0 ≤ (CameraHardware.openNode s.mParameters.previewWidth
          s.mParameters.previewHeight).val s →
        ¬TakesRequeued (atPicture s)) := by
  have hS := Event.of_not_isFramed readsOwn_of_not_isAccess
  have hnotify : ReadsOwn (.notifyFn CameraHardware.msgShutter) s := trivial
  have hC (e : Event) (t : CameraHardware) : e.isCounted = false → True := fun _ => trivial
  simp only [CameraHardware.pictureThread, emits_bind, emits_read, val_read, exec_read, emits_when,
    emits_act, exec_when, exec_act, id, ite_self, hnotify, implies_true, true_and, emits_ite,
    emits_pure, and_true, (CameraHardware.quiet_openNode hS _ _).emits,
    (V4L2Camera.quiet_init hS).emits, (V4L2Camera.quiet_startStreaming hS).emits,
    (CameraHardware.quiet_shutDown hS).emits]
  obtain ⟨_, _, hfresh⟩ := openNode_triple hC s.mParameters.previewWidth
    s.mParameters.previewHeight s ⟨rfl, rfl, rfl⟩
  split
  · next hv => exact iff_of_true trivial fun h0 => absurd hv (by omega)
  · next hv =>
    have h0 := Int.not_lt.mp hv
    obtain ⟨_, hfilled, _⟩ := init_spec hC (fun _ _ _ _ _ => trivial) (hfresh h0)
    -- the picture comes from a session that `Init` has filled as far as it could
    exact (readsOwn_compressedImage ((filled_startStreaming hC _ _ _ hfilled).1)
      (acceptedBuffers_le _)).trans ⟨fun h _ => h, fun h => h h0⟩

end Picture

/-! ## §4 Every Run -/

/-- If the step takes a picture, it is not made from a queued buffer. -/
def StepKeepsFrame (s : CameraHardware) (a : Step) : Prop :=
  match a.call with
  | .takePicture =>
    Call.enabled s .takePicture = true →
      let t := CameraHardware.stopPreview.exec (a.start s)
      0 ≤ (CameraHardware.openNode t.mParameters.previewWidth t.mParameters.previewHeight).val t →
        ¬TakesRequeued (atPicture t)
  | _ => True

theorem stepEmits_readsOwn_iff {s : CameraHardware} (h : Consistent s) (a : Step) :
    StepEmits ReadsOwn s a ↔ StepKeepsFrame s a := by
  have hA := readsOwn_of_not_isAccess
  obtain ⟨call, answers⟩ := a
  rw [StepEmits, StepKeepsFrame]
  -- only a picture reads a buffer that is back with the driver
  cases call with
  | takePicture =>
    refine imp_congr_right fun _ => ?_
    simp only [Call.code, CameraHardware.takePicture, emits_bind, emits_pure, and_true,
      (always_stopPreview (Event.of_not_isFramed hA) _ trivial).2, true_and]
    exact readsOwn_pictureThread _
  | previewThreadLocked =>
    exact iff_of_true (fun _ => readsOwn_previewThreadLocked (h.congr rfl)) trivial
  | setPreviewWindow | setParameters | enableMsgType | disableMsgType | startPreview
  | stopPreview | previewThread =>
    exact iff_of_true (fun _ => emits_code_of_not_access hA _ (by simp) (by simp)) trivial

/-- **A buffer is read by its owner, pictures apart**: in a run from the creation of
`CameraHardware`, with any answers of the kernel and the window system, no conversion reads a
buffer that the driver holds if and only if no picture is made from a buffer that
`GrabJpegFrame` could queue again. -/
theorem reads_own_iff (fd : Int) (steps : List Step) :
    cameraMachine.AllSteps (StepEmits ReadsOwn) (created fd) steps ↔
      cameraMachine.AllSteps StepKeepsFrame (created fd) steps :=
  cameraMachine.allSteps_iff (fun _ a hs => stepEmits_readsOwn_iff hs a)
    (fun _ _ _ hs _ hstep => consistent_step hs hstep) (consistent_created fd) steps

/-- The client enables `CAMERA_MSG_COMPRESSED_IMAGE` and takes a picture, and every request
succeeds. -/
def onePicture : List Step :=
  [⟨.enableMsgType CameraHardware.msgCompressedImage, []⟩,
    ⟨.takePicture, previewAnswers 153600 ++ [{ ok := true }, { ok := true }]⟩]

/-- The picture is made from buffer 0 while the driver holds it. -/
theorem picture_reads_queued_buffer :
    (cameraMachine.run (created 0) onePicture).isSome = true ∧
      ¬cameraMachine.AllSteps (StepEmits ReadsOwn) (created 0) onePicture := by
  constructor
  · rfl
  · decide

end OdroidU2.Camera
