import OdroidU2.Camera.Descriptors

/-!
# The Streaming Flag and the Device

`videoIn->isStreaming` is kept for the device, and outlives its descriptor: `StopStreaming` clears
it only if `VIDIOC_STREAMOFF` succeeds, and neither `Close` nor `Open` does.  While it is set,
`StartStreaming` asks the device for nothing.

- `FlagRight` — the flag says what the open device does
- `StreamingRight` — what holds after each action
- `streaming_right_iff` — when all of a run is right
- `stale_flag` — a preview after a `VIDIOC_STREAMOFF` that failed
-/

namespace OdroidU2.Camera

open OdroidU2.Foundations Prog V4L2Camera

/-! ## §1 The Property -/

/-- While the camera's descriptor is open, the flag tells whether the last `VIDIOC_STREAMON` or
`VIDIOC_STREAMOFF` that succeeded on it was a `VIDIOC_STREAMON`. -/
def FlagRight (t : CameraHardware) : Prop :=
  t.fdOpen = true → t.camera.videoIn.isStreaming = t.kernel.streamOn

instance (t : CameraHardware) : Decidable (FlagRight t) := by unfold FlagRight; infer_instance

/-- The flag is right after every action, but for the two requests that it follows; and a
`StartStreaming` that returns 0 leaves the device streaming. -/
def StreamingRight (_ : CameraHardware) (e : Event) (t : CameraHardware) : Prop :=
  match e with
  | .ioctl request _ =>
    request = "VIDIOC_STREAMON" ∨ request = "VIDIOC_STREAMOFF" ∨ FlagRight t
  | .ret .startStreaming true => FlagRight t ∧ t.fdOpen = true ∧ t.kernel.streamOn = true
  | _ => FlagRight t

instance (s : CameraHardware) (e : Event) (t : CameraHardware) :
    Decidable (StreamingRight s e t) := by
  unfold StreamingRight
  induction e using Event.casesOn with
  | ret fn ok =>
    induction fn using CameraFn.casesOn <;> induction ok using Bool.casesOn <;> infer_instance
  | _ => infer_instance

/-- Every action of a step leaves the flag right. -/
def StepStreams (s : CameraHardware) (a : Step) : Prop :=
  a.call.enabled s → Takes StreamingRight a.call.code (a.start s)

instance (s : CameraHardware) (a : Step) : Decidable (StepStreams s a) := by
  unfold StepStreams
  infer_instance

/-! ## §2 What Keeps the Flag Right -/

/-- The kernel gives out descriptors in order, and has each of them open once. -/
structure Numbered (k : Kernel) : Prop where
  nodup : k.openFds.Nodup
  range : ∀ fd ∈ k.openFds, 0 ≤ fd ∧ fd < k.nextFd

theorem Numbered.closeFile {k : Kernel} (h : Numbered k) (fd : Int) : Numbered (k.closeFile fd) := by
  have hnext : (k.closeFile fd).nextFd = k.nextFd := by
    rw [Kernel.closeFile]
    split <;> rfl
  constructor
  · rw [openFds_closeFile]
    exact h.nodup.erase fd
  · intro fd' hmem
    rw [openFds_closeFile] at hmem
    rw [hnext]
    exact h.range fd' (List.mem_of_mem_erase hmem)

/-- The flag is right, whatever comes next. -/
structure Streams (s : CameraHardware) : Prop where
  numbered : Numbered s.kernel
  right : FlagRight s

/-- The action is not the return of `StartStreaming`, and leaves the streaming alone. -/
def SameStream (s : CameraHardware) (e : Event) (t : CameraHardware) : Prop :=
  e ≠ .ret .startStreaming true ∧ t.stream = s.stream

theorem KeepsStream.same {s t : CameraHardware} {e : Event} (h : KeepsStream s e t) :
    SameStream s e t := by
  refine ⟨?_, h.2⟩
  rintro rfl
  cases h.1

section Same

variable {s t : CameraHardware}

theorem Streams.congr (h : Streams s) (hsame : t.stream = s.stream) : Streams t := by
  simp only [CameraHardware.stream, Prod.mk.injEq] at hsame
  obtain ⟨hdescriptors, hnext, hflag, hon⟩ := hsame
  have hfds := openFds_of_descriptors hdescriptors
  refine ⟨⟨hfds ▸ h.numbered.nodup, ?_⟩, ?_⟩
  · rw [hfds, hnext]
    exact h.numbered.range
  · rw [FlagRight, fdOpen_of_descriptors hdescriptors, hflag, hon]
    exact h.right

theorem right_of_same {e : Event} (he : e ≠ .ret .startStreaming true) (ht : FlagRight t) :
    StreamingRight s e t := by
  unfold StreamingRight
  split
  · exact .inr (.inr ht)
  · exact absurd rfl he
  · exact ht

/-- A program that leaves the streaming alone keeps the flag right. -/
theorem Streams.kept {α : Type} {p : CameraM α} (h : Streams s) (hp : Frames SameStream p) :
    Takes StreamingRight p s ∧ (p.exec s).stream = s.stream := by
  refine (hp s).carry (I := fun t => t.stream = s.stream) (fun t e u ht hu => ?_) rfl
  have hsame : u.stream = s.stream := hu.2.trans ht
  exact ⟨right_of_same hu.1 (h.congr hsame).right, hsame⟩

/-- The same for the functions that are about neither descriptors nor streaming. -/
theorem Streams.keeps {α : Type} {p : CameraM α} (h : Streams s) (hp : Frames KeepsStream p) :
    Takes StreamingRight p s ∧ Streams (p.exec s) ∧ (p.exec s).fdOpen = s.fdOpen := by
  obtain ⟨htakes, hsame⟩ := h.kept (hp.mono fun _ _ _ h => h.same)
  exact ⟨htakes, h.congr hsame, fdOpen_of_descriptors (congrArg Prod.fst hsame)⟩

end Same

/-! ## §3 Opening -/

section Open

variable {s : CameraHardware}

theorem frames_openRest (width height : Int) (pixelformat : Nat) :
    Frames SameStream (openRest width height pixelformat) := by
  have hret (ok : Bool) (value : Int) :
      Frames SameStream (do ret .open ok; pure value) := by
    refine Frames.bind (frames_act fun _ => ⟨?_, rfl⟩) fun _ => frames_pure _
    exact nofun
  have hquery : Frames SameStream queryCap :=
    Frames.mono (frames_ioctl fun _ _ => rfl) fun _ _ _ h => h.same
  have hformat : Frames SameStream setFormat := frames_setFormat.mono fun _ _ _ h => h.same
  have hassign : Frames SameStream
      (assign "videoIn->format" (setSize width height pixelformat)) :=
    frames_act fun _ => ⟨nofun, rfl⟩
  -- the ways out of `Open` after the device has opened
  refine hquery.bind fun cap => Frames.ite (hret false (-1)) ?_
  refine Frames.ite (hret false (-1)) (Frames.ite (hret false (-1)) ?_)
  exact hassign.bind fun _ => hformat.bind fun _ => Frames.ite (hret false (-1)) (hret true 0)

/-- A file that has just been opened does not stream. -/
theorem streams_opened (h : Numbered s.kernel) (hflag : s.camera.videoIn.isStreaming = false) :
    Streams (opened s) := by
  refine ⟨⟨List.nodup_cons.mpr ⟨fun hmem => ?_, h.nodup⟩, fun fd hmem => ?_⟩, fun _ => hflag⟩
  · exact absurd (h.range _ hmem).2 (Int.lt_irrefl _)
  · show 0 ≤ fd ∧ fd < ((s.kernel.nextFd + 1 : Nat) : Int)
    rcases List.mem_cons.mp hmem with rfl | hmem
    · rw [Kernel.answered_nextFd]
      omega
    · have hrange := h.range fd hmem
      omega

theorem streams_notOpened (h : Numbered s.kernel) : Streams (notOpened s) := by
  refine ⟨⟨h.nodup, h.range⟩, fun hopen => ?_⟩
  have hmem : (-1 : Int) ∈ s.kernel.openFds := of_decide_eq_true hopen
  exact absurd (h.range _ hmem).1 (by decide)

theorem takes_sysOpen_iff (device : Nat) :
    Takes StreamingRight (sysOpen device) s ↔ FlagRight ((sysOpen device).exec s) := by
  rw [sysOpen, takes_request, exec_request]
  rfl

/-- `Open` is right exactly when it opens no node while the flag is set. -/
theorem open_streaming (h : Numbered s.kernel) (device : Nat) (width height : Int)
    (pixelformat : Nat) :
    let clear := s.camera.videoIn.isStreaming = true → (s.answerAt 0).ok = false
    let t := (V4L2Camera.open device width height pixelformat).exec s
    (Takes StreamingRight (V4L2Camera.open device width height pixelformat) s ↔ clear) ∧
      (clear → Streams t ∧ t.camera.videoIn.isStreaming = s.camera.videoIn.isStreaming) := by
  dsimp only
  rw [open_eq, takes_bind, takes_ite, exec_bind, exec_ite, takes_sysOpen_iff]
  cases hok : (s.answerAt 0).ok with
  | false =>
    -- no node is opened, and there is no descriptor
    obtain ⟨hval, hexec⟩ := sysOpen_not_ok device hok
    have hno := streams_notOpened h
    have hfail : Takes StreamingRight (fail .open) (notOpened s) ∧
        (fail .open).exec (notOpened s) = notOpened s := by
      simp [fail, ret, StreamingRight, hno.right]
    rw [hval, hexec, Option.isNone_none, if_pos rfl, if_pos rfl, hfail.2]
    exact ⟨iff_of_true ⟨hno.right, hfail.1⟩ fun _ => rfl, fun _ => ⟨hno, rfl⟩⟩
  | true =>
    obtain ⟨hval, hexec⟩ := sysOpen_ok device hok
    rw [hval, hexec, Option.isNone_some, if_neg Bool.false_ne_true, if_neg Bool.false_ne_true]
    have hrest (hflag : s.camera.videoIn.isStreaming = false) :=
      (streams_opened h hflag).kept (frames_openRest width height pixelformat)
    -- with a node opened the condition is that the flag is clear
    simp only [Bool.true_eq_false, imp_false, Bool.not_eq_true]
    constructor
    · constructor
      · rintro ⟨hright, -⟩
        -- the new file does not stream
        have hopen : (opened s).fdOpen = true := by simp [CameraHardware.fdOpen, opened, Kernel.openFile]
        exact hright hopen
      · intro hflag
        exact ⟨(streams_opened h hflag).right, (hrest hflag).1⟩
    · intro hflag
      have hsame := (hrest hflag).2
      exact ⟨(streams_opened h hflag).congr hsame, congrArg (fun d => d.2.2.1) hsame⟩

/-- No node is opened while the flag is set. -/
def OpensClear (s : CameraHardware) : Prop :=
  s.camera.videoIn.isStreaming = true → (s.answerAt 0).ok = false ∧ (s.answerAt 1).ok = false

instance (s : CameraHardware) : Decidable (OpensClear s) := by unfold OpensClear; infer_instance

/-- The search is right exactly when it opens no node while the flag is set. -/
theorem openNode_streaming (h : Numbered s.kernel) (width height : Int) :
    (Takes StreamingRight (CameraHardware.openNode width height) s ↔ OpensClear s) ∧
      (OpensClear s → Streams ((CameraHardware.openNode width height).exec s)) := by
  obtain ⟨hfirst, hkeep⟩ := open_streaming h CameraHardware.maxVideonode width height
    CameraHardware.pixelFormat
  have hsecond (t : CameraHardware) (ht : Streams t) := open_streaming ht.numbered
    CameraHardware.minVideonode width height CameraHardware.pixelFormat
  simp only [CameraHardware.openNode, takes_bind, exec_bind, takes_ite, exec_ite, takes_pure,
    exec_pure, hfirst, OpensClear]
  cases hok : (s.answerAt 0).ok with
  | false =>
    -- the first node is not opened, and the second decides
    obtain ⟨hval, hexec⟩ := open_none CameraHardware.maxVideonode width height
      CameraHardware.pixelFormat hok
    obtain ⟨hiff, hkeep'⟩ := hsecond _ (streams_notOpened h)
    rw [answerAt_notOpened] at hiff hkeep'
    rw [hval, hexec, if_neg (by decide), if_neg (by decide), hiff]
    constructor
    · exact ⟨fun h' hflag => ⟨rfl, h'.2 hflag⟩, fun h' => ⟨fun _ => rfl, fun hflag => (h' hflag).2⟩⟩
    · exact fun h' => (hkeep' fun hflag => (h' hflag).2).1
  | true =>
    -- the first node is opened, and the flag must be clear
    rw [hok] at hkeep
    simp only [Bool.true_eq_false, false_and, imp_false, Bool.not_eq_true] at hkeep ⊢
    have hrest (hflag : s.camera.videoIn.isStreaming = false) := by
      obtain ⟨hstreams, hsame⟩ := hkeep hflag
      obtain ⟨hiff, hkeep'⟩ := hsecond _ hstreams
      rw [hsame, hflag] at hiff hkeep'
      exact (⟨hstreams, hiff.mpr Bool.noConfusion, (hkeep' Bool.noConfusion).1⟩ : _ ∧ _ ∧ _)
    constructor
    · constructor
      · exact fun h' => h'.1
      · intro hflag
        refine ⟨hflag, ?_⟩
        split
        · trivial
        · exact (hrest hflag).2.1
    · intro hflag
      obtain ⟨hstreams, -, hlast⟩ := hrest hflag
      split
      · exact hstreams
      · exact hlast

end Open

/-! ## §4 Streaming and Closing -/

section Streaming

variable {s : CameraHardware}

theorem Streams.answered (h : Streams s) : Streams s.answered := h.congr rfl

/-- The flag may change together with the device. -/
theorem Streams.together {t : CameraHardware} (h : Streams s)
    (hdescriptors : t.descriptors = s.descriptors) (hnext : t.kernel.nextFd = s.kernel.nextFd)
    (hflag : t.camera.videoIn.isStreaming = t.kernel.streamOn) : Streams t := by
  have hfds := openFds_of_descriptors hdescriptors
  refine ⟨⟨hfds ▸ h.numbered.nodup, ?_⟩, fun _ => hflag⟩
  rw [hfds, hnext]
  exact h.numbered.range

/-- On an open descriptor `StartStreaming` returns 0 only if the device streams. -/
theorem Streams.startStreaming (h : Streams s) (hopen : s.fdOpen = true) :
    Takes StreamingRight V4L2Camera.startStreaming s ∧
      Streams (V4L2Camera.startStreaming.exec s) ∧
      (V4L2Camera.startStreaming.exec s).fdOpen = true := by
  cases hflag : s.camera.videoIn.isStreaming with
  | true =>
    -- nothing is asked of the device, and it is streaming
    have hon : s.kernel.streamOn = true := (h.right hopen).symm.trans hflag
    simp [V4L2Camera.startStreaming, hflag, succeed, ret, StreamingRight, h, h.right, hopen, hon]
  | false =>
    cases hr : s.outcome fun _ => s.fdOpen with
    | none =>
      -- the request has failed: flag and device stay as they are
      have hcode : Takes StreamingRight V4L2Camera.startStreaming s ∧
          V4L2Camera.startStreaming.exec s = s.answered := by
        simp [V4L2Camera.startStreaming, hflag, ioctl, hr, fail, ret, StreamingRight,
          h.answered.right]
      rw [hcode.2]
      exact ⟨hcode.1, h.answered, hopen⟩
    | some a =>
      have hon : Streams { s.answered with
          kernel := s.answered.kernel.streamStart, camera.videoIn.isStreaming := true } :=
        h.together rfl rfl rfl
      simp only [V4L2Camera.startStreaming, succeed, ret, ioctl, assign, takes_bind, takes_read,
        val_read, exec_read, hflag, Bool.false_eq_true, if_false, takes_request, val_request,
        exec_request, hr, Option.isNone_some, takes_act, exec_act, takes_pure, exec_bind, exec_pure,
        StreamingRight, true_or, true_and, and_true, id]
      exact ⟨⟨hon.right, hon.right, hopen, rfl⟩, hon, hopen⟩

/-- `StopStreaming` changes flag and device together. -/
theorem Streams.stopStreaming (h : Streams s) :
    Takes StreamingRight V4L2Camera.stopStreaming s ∧
      Streams (V4L2Camera.stopStreaming.exec s) := by
  -- not streaming, STREAMOFF failed, or both the driver and the flag change
  cases hflag : s.camera.videoIn.isStreaming with
  | false => simp [V4L2Camera.stopStreaming, hflag, succeed, ret, StreamingRight, h, h.right]
  | true =>
    cases hr : s.outcome fun _ => s.fdOpen with
    | none =>
      simp [V4L2Camera.stopStreaming, hflag, ioctl, hr, fail, ret, StreamingRight, h.answered,
        h.answered.right]
    | some a =>
      have hoff : Streams { s.answered with
          kernel := s.answered.kernel.streamStop, camera.videoIn.isStreaming := false } :=
        h.together rfl rfl rfl
      simp [V4L2Camera.stopStreaming, hflag, ioctl, hr, succeed, ret, StreamingRight, assign, hoff,
        hoff.right]

/-- After `Close` the descriptor is not open. -/
theorem Streams.close (h : Streams s) :
    Takes StreamingRight V4L2Camera.close s ∧ Streams (V4L2Camera.close.exec s) := by
  have hclosed : Streams (sysClose s) := by
    refine ⟨h.numbered.closeFile _, fun hopen => ?_⟩
    have hmem : s.camera.fd ∈ (s.kernel.closeFile s.camera.fd).openFds := of_decide_eq_true hopen
    rw [openFds_closeFile] at hmem
    exact absurd hmem h.numbered.nodup.not_mem_erase
  simp only [V4L2Camera.close, ret, takes_bind, takes_read, val_read, exec_read, takes_act, exec_bind,
    exec_act, id, true_and]
  exact ⟨⟨hclosed.right, hclosed.right⟩, hclosed⟩

theorem Streams.shutDown (h : Streams s) :
    Takes StreamingRight CameraHardware.shutDown s ∧
      Streams (CameraHardware.shutDown.exec s) := by
  obtain ⟨huninit, h', _⟩ := h.keeps frames_uninit
  obtain ⟨hstop, h''⟩ := h'.stopStreaming
  obtain ⟨hclose, hend⟩ := h''.close
  simp only [CameraHardware.shutDown, takes_bind, exec_bind, huninit, hstop, true_and]
  exact ⟨hclose, hend⟩

end Streaming

/-! ## §5 The Calls -/

section Calls

variable {s : CameraHardware}

/-- The other members of `CameraHardware` have no part in it. -/
theorem Streams.outside {t : CameraHardware} (h : Streams s) (hcamera : t.camera = s.camera)
    (hkernel : t.kernel = s.kernel) : Streams t := by
  refine ⟨hkernel ▸ h.numbered, ?_⟩
  rw [FlagRight, CameraHardware.fdOpen, hcamera, hkernel]
  exact h.right

theorem right_assignment {member : String} {t u : CameraHardware} (h : Streams u) :
    StreamingRight t (.assign member) u := h.right

/-- A node that is found has an open descriptor. -/
theorem fdOpen_searchNode (h : 0 ≤ (searchNode s).val s) : ((searchNode s).exec s).fdOpen = true := by
  have hC (e : Event) (t : CameraHardware) : e.isCounted = false → True := fun _ => trivial
  exact ((openNode_triple hC _ _ s ⟨rfl, rfl, rfl⟩).2.2 h).fdOpen

/-- `startPreview` is right exactly when it opens no node while the flag is set. -/
theorem startPreview_streaming (h : Streams s) (hthread : s.mPreviewThread = false) :
    (Takes StreamingRight CameraHardware.startPreview s ↔ OpensClear s) ∧
      (OpensClear s → Streams (CameraHardware.startPreview.exec s)) := by
  obtain ⟨hsearch, hfound⟩ := openNode_streaming h.numbered s.mParameters.previewWidth
    s.mParameters.previewHeight
  have hrest (hclear : OpensClear s) : Takes StreamingRight CameraHardware.startPreview s ∧
      Streams (CameraHardware.startPreview.exec s) := by
    have hstreams := hfound hclear
    rw [CameraHardware.exec_startPreview hthread, CameraHardware.takes_startPreview hthread,
      and_iff_right (hsearch.mpr hclear)]
    by_cases hv : (searchNode s).val s < 0
    · -- no node can be opened
      rw [if_pos hv, if_pos hv]
      exact ⟨trivial, hstreams⟩
    have hnode := fdOpen_searchNode (Int.not_lt.mp hv)
    have hopen : (beforeInit s).fdOpen = true := hnode
    have hbefore : Streams (beforeInit s) := hstreams.outside rfl rfl
    rw [if_neg hv, if_neg hv, and_iff_right (right_assignment hbefore)]
    generalize beforeInit s = t at hopen hbefore ⊢
    obtain ⟨hinit, hI, hopenI⟩ := hbefore.keeps frames_init
    rw [and_iff_right hinit]
    by_cases hi : V4L2Camera.init.val t ≠ 0
    · -- `Init` has failed
      rw [if_pos hi, if_pos hi]
      exact hI.close
    obtain ⟨hstart, hS, _⟩ := hI.startStreaming (hopenI.trans hopen)
    rw [if_neg hi, if_neg hi]
    dsimp only
    by_cases hst : V4L2Camera.startStreaming.val (V4L2Camera.init.exec t) ≠ 0
    · -- `StartStreaming` has failed
      obtain ⟨huninit, hU, _⟩ := hS.keeps frames_uninit
      rw [if_pos hst, if_pos hst]
      exact ⟨⟨hstart, huninit, hU.close.1⟩, hU.close.2⟩
    · -- the preview is on
      rw [if_neg hst, if_neg hst]
      exact ⟨⟨hstart, right_assignment (hS.outside rfl rfl), right_assignment (hS.outside rfl rfl)⟩,
        hS.outside rfl rfl⟩
  refine ⟨⟨fun htakes => hsearch.mp ?_, fun hclear => (hrest hclear).1⟩, fun hclear => (hrest hclear).2⟩
  rw [CameraHardware.takes_startPreview hthread] at htakes
  exact htakes.1

/-- `stopPreview` keeps the flag right, whether or not there is a preview. -/
theorem stopPreview_streaming (h : Streams s) :
    Takes StreamingRight CameraHardware.stopPreview s ∧
      Streams (CameraHardware.stopPreview.exec s) := by
  have hstopped : Streams { s with previewStopped := true } := h.outside rfl rfl
  have hend (t : CameraHardware) (ht : Streams t) : Streams { t with mPreviewThread := false } :=
    ht.outside rfl rfl
  obtain ⟨hshut, hdown⟩ := hstopped.shutDown
  -- the session is shut down if the thread was running
  have hlast : Streams (if s.mPreviewThread then
      CameraHardware.shutDown.exec { s with previewStopped := true }
      else { s with previewStopped := true }) := by
    split
    · exact hdown
    · exact hstopped
  simp only [CameraHardware.stopPreview, assign, takes_bind, exec_bind, takes_act, exec_act,
    takes_read, val_read, exec_read, takes_when, exec_when, true_and]
  exact ⟨⟨hstopped.right, fun _ => hshut, (hend _ hlast).right⟩, hend _ hlast⟩

/-- `pictureThread` is right exactly when it opens no node while the flag is set. -/
theorem pictureThread_streaming (h : Streams s) :
    (Takes StreamingRight CameraHardware.pictureThread s ↔ OpensClear s) ∧
      (OpensClear s → Streams (CameraHardware.pictureThread.exec s)) := by
  have hnotify : StreamingRight s (.notifyFn CameraHardware.msgShutter) s := h.right
  obtain ⟨hsearch, hfound⟩ := openNode_streaming h.numbered s.mParameters.previewWidth
    s.mParameters.previewHeight
  simp only [CameraHardware.pictureThread, takes_bind, takes_read, val_read, exec_bind, exec_read,
    takes_when, takes_act, exec_when, exec_act, id, ite_self, hnotify, implies_true, true_and,
    takes_ite, exec_ite, takes_pure, exec_pure, and_true, hsearch]
  rw [and_iff_left_iff_imp, ← imp_and]
  intro hclear
  have hstreams := hfound hclear
  by_cases hv : (searchNode s).val s < 0
  · -- no node was found
    rw [if_pos hv, if_pos hv]
    exact ⟨trivial, hstreams⟩
  · have hopen := fdOpen_searchNode (Int.not_lt.mp hv)
    rw [if_neg hv, if_neg hv]
    obtain ⟨hinit, hI, hopenI⟩ := hstreams.keeps frames_init
    obtain ⟨hstart, hS, _⟩ := hI.startStreaming (hopenI.trans hopen)
    obtain ⟨hpicture, hP, _⟩ := hS.keeps CameraHardware.frames_compressedImage
    exact ⟨⟨hinit, hstart, hpicture, hP.shutDown.1⟩, hP.shutDown.2⟩

end Calls

/-! ## §6 Every Run -/

/-- The call opens no node while the flag is set.  A picture stops the preview first. -/
def CallOpensClear (s : CameraHardware) : Call → Prop
  | .startPreview => s.mPreviewThread = false → OpensClear s
  | .takePicture => OpensClear (CameraHardware.stopPreview.exec s)
  | _ => True

/-- The same for a step. -/
def StepOpensClear (s : CameraHardware) (a : Step) : Prop :=
  a.call.enabled s → CallOpensClear (a.start s) a.call

/-- One call, from a state in which the flag is right. -/
theorem call_streaming {s : CameraHardware} (h : Streams s) (call : Call) :
    (Takes StreamingRight call.code s ↔ CallOpensClear s call) ∧
      (CallOpensClear s call → Streams (call.code.exec s)) := by
  have hother (hcode : Frames KeepsStream call.code) (hclear : CallOpensClear s call) :
      (Takes StreamingRight call.code s ↔ CallOpensClear s call) ∧
        (CallOpensClear s call → Streams (call.code.exec s)) :=
    ⟨iff_of_true (h.keeps hcode).1 hclear, fun _ => (h.keeps hcode).2.1⟩
  -- only a call that opens the camera asks for anything
  cases call with
  | setPreviewWindow | setParameters | enableMsgType | disableMsgType | previewThread
  | previewThreadLocked =>
    exact hother (frames_code (by simp) (by simp) (by simp)) trivial
  | startPreview =>
    rw [Call.code, takes_bind, exec_bind, exec_pure, and_iff_left (takes_pure _ _), CallOpensClear]
    cases hthread : s.mPreviewThread with
    | true =>
      -- a second preview is refused
      have hrefused := CameraHardware.startPreview_refused (P := fun _ _ => False) hthread
      rw [hrefused.2]
      exact ⟨iff_of_true (hrefused.1.takes fun _ _ _ => False.elim) Bool.noConfusion, fun _ => h⟩
    | false =>
      simp only [forall_const]
      exact startPreview_streaming h hthread
  | stopPreview =>
    obtain ⟨hcode, hkept⟩ := stopPreview_streaming h
    exact ⟨iff_of_true hcode trivial, fun _ => hkept⟩
  | takePicture =>
    obtain ⟨hstop, hstopped⟩ := stopPreview_streaming h
    simp only [Call.code, CameraHardware.takePicture, takes_bind, takes_pure, and_true, exec_bind,
      exec_pure, hstop, true_and]
    exact pictureThread_streaming hstopped

theorem stepStreams_iff {s : CameraHardware} (h : Streams s) (a : Step) :
    (StepStreams s a ↔ StepOpensClear s a) ∧
      ∀ t, StepOpensClear s a → cameraMachine.step s a = some t → Streams t := by
  have hstart : Streams (a.start s) := h.congr rfl
  obtain ⟨hiff, hkeep⟩ := call_streaming hstart a.call
  refine ⟨imp_congr_right fun _ => hiff, fun t hclear ht => ?_⟩
  obtain ⟨henabled, hexec⟩ := Option.ite_some_none_eq_some.mp ht
  exact hexec ▸ hkeep (hclear henabled)

theorem streams_created (fd : Int) : Streams (created fd) := by
  refine ⟨⟨List.nodup_nil, fun _ hmem => nomatch hmem⟩, fun hopen => ?_⟩
  exact absurd (of_decide_eq_true hopen) List.not_mem_nil

/-- **The flag is right as long as no node is opened while it is set**: in a run from the creation
of `CameraHardware`, with any answers of the kernel and the window system, `isStreaming` tells at
every action what the open device does, and a `StartStreaming` that returns 0 leaves it streaming, if
and only if no `startPreview` and no picture opens a node while the flag is set. -/
theorem streaming_right_iff (fd : Int) (steps : List Step) :
    cameraMachine.AllSteps StepStreams (created fd) steps ↔
      cameraMachine.AllSteps StepOpensClear (created fd) steps :=
  cameraMachine.allSteps_iff (fun _ a hs => (stepStreams_iff hs a).1)
    (fun _ a t hs => (stepStreams_iff hs a).2 t) (streams_created fd) steps

/-- A preview whose `VIDIOC_STREAMOFF` fails, and the next one. -/
def twoPreviews : List Step :=
  [⟨.startPreview, previewAnswers 153600⟩,
    ⟨.stopPreview, List.replicate 7 { ok := true } ++ [{ ok := false }]⟩,
    ⟨.startPreview, previewAnswers 153600⟩]

/-- The second preview has opened its own descriptor, and `StartStreaming` has returned 0, but the
device does not stream. -/
theorem stale_flag :
    (cameraMachine.run (created 0) twoPreviews).any (fun t =>
        t.mPreviewThread && t.fdOpen && t.camera.videoIn.isStreaming && !t.kernel.streamOn) = true ∧
      ¬cameraMachine.AllSteps StepStreams (created 0) twoPreviews := by
  constructor
  · rfl
  · decide

end OdroidU2.Camera
