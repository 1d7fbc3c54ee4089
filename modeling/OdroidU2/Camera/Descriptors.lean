import OdroidU2.Camera.Runs

/-!
# The Descriptors of the Video Nodes

`V4L2Camera::Open` can fail at four points after `open` has succeeded, and returns from each of
them without a `close`.  Its callers try the next node, whose descriptor overwrites the last
one.  `release` closes a member of `CameraHardware` that nothing assigns.

- `DescriptorsRight` — what each action may do to the open descriptors
- `KeepsDescriptors` — all functions but `Open` and `Close` do nothing to them
- `descriptors_right_iff` — when all of a run is right
- `refused_format_stays_open` — a node whose format is refused
-/

namespace OdroidU2.Camera

open OdroidU2.Foundations Prog V4L2Camera

/-! ## §1 The Property -/

/-- At most one descriptor is open; none when an `Open` fails; and what is closed is open. -/
def DescriptorsRight (s : CameraHardware) (e : Event) (t : CameraHardware) : Prop :=
  t.kernel.openFds.length ≤ 1 ∧
    match e with
    | .ret .open false => t.kernel.openFds = []
    | .closeFd fd => fd ∈ s.kernel.openFds
    | _ => True

instance (s : CameraHardware) (e : Event) (t : CameraHardware) :
    Decidable (DescriptorsRight s e t) := by
  unfold DescriptorsRight
  induction e using Event.casesOn with
  | ret fn ok =>
    induction fn using CameraFn.casesOn <;> induction ok using Bool.casesOn <;> infer_instance
  | _ => infer_instance

/-- Without a preview no descriptor is open. -/
def NoneLeft (t : CameraHardware) : Prop := t.mPreviewThread = false → t.kernel.openFds = []

instance (t : CameraHardware) : Decidable (NoneLeft t) := by unfold NoneLeft; infer_instance

/-- A call of the machine, or a `release`, with the number that `camera_device` has. -/
inductive DeviceCall where
  | call (step : Step)
  | release (cameraDevice : Int)

namespace DeviceCall

def enabled (s : CameraHardware) : DeviceCall → Bool
  | call step => step.call.enabled s
  | release _ => true

def start (s : CameraHardware) : DeviceCall → CameraHardware
  | call step => step.start s
  | release _ => s

def code : DeviceCall → CameraM Unit
  | call step => step.call.code
  | release cameraDevice => CameraHardware.release cameraDevice

end DeviceCall

/-- `CameraHardware` with its preview thread and `release`. -/
def deviceMachine : Machine CameraHardware DeviceCall where
  step s a := if a.enabled s then some (a.code.exec (a.start s)) else none

/-- What a call must do: only right actions, and no descriptor left behind. -/
def CallRight (s : CameraHardware) (a : DeviceCall) : Prop :=
  a.enabled s → Takes DescriptorsRight a.code (a.start s) ∧ NoneLeft (a.code.exec (a.start s))

instance (s : CameraHardware) (a : DeviceCall) : Decidable (CallRight s a) := by
  unfold CallRight
  infer_instance

/-! ## §2 What Leaves the Descriptors Alone -/

/-- What the descriptors depend on. -/
def CameraHardware.descriptors (s : CameraHardware) :=
  (s.camera.fd, s.kernel.openFds, s.mPreviewThread)

section Same

variable {s t : CameraHardware} (h : t.descriptors = s.descriptors)
include h

theorem openFds_of_descriptors : t.kernel.openFds = s.kernel.openFds :=
  congrArg (fun d => d.2.1) h

theorem mPreviewThread_of_descriptors : t.mPreviewThread = s.mPreviewThread :=
  congrArg (fun d => d.2.2) h

theorem fdOpen_of_descriptors : t.fdOpen = s.fdOpen := by
  have hfd : t.camera.fd = s.camera.fd := congrArg Prod.fst h
  rw [CameraHardware.fdOpen, hfd, openFds_of_descriptors h, CameraHardware.fdOpen]

end Same

/-- Is the action one on a descriptor, or the return of `Open`? -/
def Event.isDescriptor : Event → Bool
  | openDevice _ _ | closeFd _ => true
  | ret fn _ => fn == .open
  | _ => false

/-- The action is not about descriptors, and changes none. -/
def KeepsDescriptors (s : CameraHardware) (e : Event) (t : CameraHardware) : Prop :=
  e.isDescriptor = false ∧ t.descriptors = s.descriptors

theorem KeepsDescriptors.right {s t : CameraHardware} {e : Event} (h : KeepsDescriptors s e t)
    (hs : s.kernel.openFds.length ≤ 1) : DescriptorsRight s e t := by
  obtain ⟨he, ht⟩ := h
  refine ⟨openFds_of_descriptors ht ▸ hs, ?_⟩
  cases e with
  | openDevice | closeFd => cases he
  | ret fn ok => cases fn <;> trivial
  | ioctl | qbuf | dqbuf | mmap | munmap | readFrame | writeWindow | notifyFn | dataFn | window
  | assign => trivial

theorem descriptors_exec {α : Type} {p : CameraM α} (hp : Frames KeepsDescriptors p)
    (s : CameraHardware) : (p.exec s).descriptors = s.descriptors :=
  ((hp s).carry (I := fun t => t.descriptors = s.descriptors) (Q := fun _ _ _ => True)
    (fun _ _ _ ht hu => ⟨trivial, hu.2.trans ht⟩) rfl).2

/-- A program that keeps the descriptors is right as long as there is at most one. -/
theorem takes_of_keepsDescriptors {α : Type} {p : CameraM α} (hp : Frames KeepsDescriptors p)
    {s : CameraHardware} (hs : s.kernel.openFds.length ≤ 1) : Takes DescriptorsRight p s :=
  ((hp s).carry (I := fun t => t.kernel.openFds.length ≤ 1) (fun _ _ _ ht hu =>
    ⟨hu.right ht, openFds_of_descriptors hu.2 ▸ ht⟩) hs).1

/-- What the descriptors and the streaming depend on. -/
def CameraHardware.stream (s : CameraHardware) :=
  (s.descriptors, s.kernel.nextFd, s.camera.videoIn.isStreaming, s.kernel.streamOn)

/-- Is the action one on a descriptor, or the return of `Open` or `StartStreaming`? -/
def Event.isStream : Event → Bool
  | openDevice _ _ | closeFd _ => true
  | ret fn _ => fn == .open || fn == .startStreaming
  | _ => false

/-- The action is about neither descriptors nor streaming, and changes nothing there. -/
def KeepsStream (s : CameraHardware) (e : Event) (t : CameraHardware) : Prop :=
  e.isStream = false ∧ t.stream = s.stream

theorem KeepsStream.descriptors {s t : CameraHardware} {e : Event} (h : KeepsStream s e t) :
    KeepsDescriptors s e t := by
  obtain ⟨he, ht⟩ := h
  refine ⟨?_, congrArg Prod.fst ht⟩
  cases e with
  | openDevice | closeFd => cases he
  | ret fn ok =>
    rw [Event.isStream, Bool.or_eq_false_iff] at he
    exact he.1
  | ioctl | qbuf | dqbuf | mmap | munmap | readFrame | writeWindow | notifyFn | dataFn | window
  | assign => rfl

/-- A program that leaves the streaming alone leaves the descriptors alone. -/
theorem keepsDescriptors_of_keepsStream {α : Type} {p : CameraM α} (hp : Frames KeepsStream p) :
    Frames KeepsDescriptors p := hp.mono fun _ _ _ h => h.descriptors

section Frames

theorem frames_act_of_same {e : Event} {f : CameraHardware → CameraHardware}
    (he : e.isStream = false) (hf : ∀ s, (f s).stream = s.stream) :
    Frames KeepsStream (act e f) := frames_act fun s => ⟨he, hf s⟩

theorem frames_ret {fn : CameraFn} {ok : Bool} (hfn : (Event.ret fn ok).isStream = false) :
    Frames KeepsStream (ret fn ok) := frames_act_of_same hfn fun _ => rfl

theorem frames_fail {fn : CameraFn} (hfn : (Event.ret fn false).isStream = false) :
    Frames KeepsStream (fail fn) := (frames_ret hfn).bind fun _ => frames_pure _

theorem frames_succeed {fn : CameraFn} (hfn : (Event.ret fn true).isStream = false) :
    Frames KeepsStream (succeed fn) := (frames_ret hfn).bind fun _ => frames_pure _

theorem frames_request_of_same {allowed : CameraHardware → Answer → Bool}
    {event : CameraHardware → Option Answer → Event}
    {effect : Option Answer → CameraHardware → CameraHardware}
    (he : ∀ s r, (event s r).isStream = false)
    (hf : ∀ r s, (effect r s).stream = s.stream) :
    Frames KeepsStream (request allowed event effect) :=
  frames_request _ _ _ fun s r => ⟨he s r, hf r s.answered⟩

theorem frames_ioctl {name : String} {effect : Answer → CameraHardware → CameraHardware}
    (hf : ∀ a s, (effect a s).stream = s.stream) :
    Frames KeepsStream (ioctl name effect) := by
  refine frames_request_of_same (fun _ _ => rfl) fun r s => ?_
  cases r with
  | none => rfl
  | some a => exact hf a s

theorem frames_queueBuffer (fn : CameraFn) : Frames KeepsStream (queueBuffer fn) :=
  frames_request_of_same (fun _ _ => rfl) fun r _ => by cases r <;> rfl

theorem frames_dequeueBuffer (fn : CameraFn) : Frames KeepsStream (dequeueBuffer fn) :=
  frames_request_of_same (fun _ _ => rfl) fun r _ => by cases r <;> rfl

theorem frames_countQueued : Frames KeepsStream countQueued :=
  frames_act_of_same rfl fun _ => rfl

theorem frames_countDequeued : Frames KeepsStream countDequeued :=
  frames_act_of_same rfl fun _ => rfl

theorem frames_initFrom (i n : Nat) : Frames KeepsStream (initFrom i n) := by
  have hfail : Frames KeepsStream (fail .init) := frames_fail rfl
  -- round by round: none of the calls of `Init` opens or closes a descriptor
  induction n generalizing i with
  | zero => exact frames_succeed rfl
  | succ n ih =>
    refine Frames.bind (frames_act_of_same rfl fun _ => rfl) fun _ => ?_
    refine Frames.bind (frames_request_of_same (fun _ _ => rfl) fun r _ => by cases r <;> rfl)
      fun length => Frames.ite hfail ?_
    refine Frames.bind (frames_request_of_same (fun _ _ => rfl) fun r _ => by cases r <;> rfl)
      fun mapped => Frames.ite hfail ?_
    refine Frames.bind (frames_queueBuffer .init) fun queued => Frames.ite hfail ?_
    exact frames_countQueued.bind fun _ => ih (i + 1)

theorem frames_init : Frames KeepsStream V4L2Camera.init :=
  Frames.bind (frames_ioctl fun _ _ => rfl) fun _ =>
    Frames.ite (frames_fail rfl) (frames_initFrom 0 nbBuffer)

theorem frames_dequeueTimes (n : Nat) : Frames KeepsStream (dequeueTimes n) := by
  induction n with
  | zero => exact frames_pure ()
  | succ n ih => exact (frames_dequeueBuffer .uninit).bind fun _ => ih

theorem stream_munmap (s : CameraHardware) (frame : Ptr) (length : Nat) :
    ({ s with kernel := s.kernel.munmap frame length } : CameraHardware).stream =
      s.stream := by
  cases frame with
  | null | failed => rfl
  | map m =>
    rw [Kernel.munmap]
    split <;> rfl

theorem frames_unmapFrom (i n : Nat) : Frames KeepsStream (unmapFrom i n) := by
  induction n generalizing i with
  | zero => exact frames_pure ()
  | succ n ih =>
    have hunmap : Frames KeepsStream (unmapBuffer i) := by
      refine Frames.read_bind fun s => frames_request_of_same (fun _ _ => rfl) fun r t => ?_
      cases r with
      | none => rfl
      | some a => exact stream_munmap t _ _
    exact hunmap.bind fun _ => ih (i + 1)

theorem frames_uninit : Frames KeepsStream uninit := by
  refine Frames.read_bind fun s => Frames.bind (frames_dequeueTimes _) fun _ => ?_
  refine Frames.bind (frames_act_of_same rfl fun _ => rfl) fun _ => ?_
  refine Frames.bind (frames_unmapFrom 0 nbBuffer) fun _ => ?_
  exact frames_act_of_same rfl fun _ => rfl

/-- `VIDIOC_STREAMON` and `VIDIOC_STREAMOFF` are not about descriptors. -/
theorem frames_streamIoctl {name : String} {effect : Answer → CameraHardware → CameraHardware}
    (heffect : ∀ a s, (effect a s).descriptors = s.descriptors) :
    Frames KeepsDescriptors (ioctl name effect) := by
  refine frames_request _ _ _ fun s r => ⟨rfl, ?_⟩
  cases r with
  | none => rfl
  | some a => exact heffect a s.answered

/-- Neither is the end of the functions that request them. -/
theorem frames_streamEnd (fn : CameraFn) (hfn : fn ≠ .open) (ok : Bool) (value : Int) :
    Frames KeepsDescriptors (do ret fn ok; pure value) := by
  have hret : Frames KeepsDescriptors (ret fn ok) :=
    frames_act fun _ => ⟨by simpa [Event.isDescriptor] using hfn, rfl⟩
  exact hret.bind fun _ => frames_pure _

theorem frames_startStreaming : Frames KeepsDescriptors startStreaming := by
  have hend := frames_streamEnd .startStreaming (by decide)
  refine Frames.read_bind fun s => Frames.ite (hend true 0) ?_
  refine Frames.bind (frames_streamIoctl fun _ _ => rfl) fun on => Frames.ite (hend false (-1)) ?_
  exact Frames.bind (frames_act fun _ => ⟨rfl, rfl⟩) fun _ => hend true 0

theorem frames_stopStreaming : Frames KeepsDescriptors stopStreaming := by
  have hend := frames_streamEnd .stopStreaming (by decide)
  refine Frames.read_bind fun s => Frames.ite ?_ (hend true 0)
  refine Frames.bind (frames_streamIoctl fun _ _ => rfl) fun off => Frames.ite (hend false (-1)) ?_
  exact Frames.bind (frames_act fun _ => ⟨rfl, rfl⟩) fun _ => hend true 0

theorem frames_grabPreviewFrame : Frames KeepsStream grabPreviewFrame := by
  refine Frames.bind (frames_dequeueBuffer _) fun r => Frames.ite ?_ ?_
  · exact (frames_ret rfl).bind fun _ => frames_pure _
  · refine frames_countDequeued.bind fun _ => (frames_ret rfl).bind fun _ => ?_
    exact Frames.read_bind fun _ => frames_pure _

theorem frames_releasePreviewFrame : Frames KeepsStream releasePreviewFrame :=
  (frames_queueBuffer _).bind fun _ => frames_countQueued.bind fun _ => frames_ret rfl

theorem frames_grabJpegFrame : Frames KeepsStream grabJpegFrame := by
  have hfailed : Frames KeepsStream (do ret .grabJpegFrame false; pure false) :=
    (frames_ret rfl).bind fun _ => frames_pure _
  refine Frames.bind (frames_dequeueBuffer _) fun r => Frames.ite hfailed ?_
  refine frames_countDequeued.bind fun _ => Frames.bind (frames_queueBuffer _) fun queued => ?_
  refine Frames.ite hfailed (frames_countQueued.bind fun _ => Frames.read_bind fun s => ?_)
  refine Frames.bind (frames_act_of_same rfl fun _ => rfl) fun _ => ?_
  exact (frames_ret rfl).bind fun _ => frames_pure _

namespace CameraHardware

theorem frames_compressedImage : Frames KeepsStream compressedImage :=
  Frames.read_bind fun _ => Frames.when
    (frames_grabJpegFrame.bind fun _ => frames_act_of_same rfl fun _ => rfl)

theorem frames_windowCall {operation : String} {f : CameraHardware → CameraHardware}
    (hf : ∀ s, (f s).stream = s.stream) :
    Frames KeepsStream (windowCall operation f) := frames_act_of_same rfl hf

theorem frames_previewFrame (stride : Nat) (width height : Int) :
    Frames KeepsStream (previewFrame stride width height) := by
  have hcall (operation : String) : Frames KeepsStream (windowCall operation) :=
    frames_windowCall fun _ => rfl
  have hread (conversion : Conversion) (frame : Ptr) (bytes : Nat) :
      Frames KeepsStream (act (.readFrame conversion frame bytes) id) :=
    frames_act_of_same rfl fun _ => rfl
  -- the calls of the window, the frame, its conversion, and the frame back
  refine (hcall _).bind fun _ => ?_
  refine Frames.bind (frames_request_of_same (fun _ _ => rfl) fun _ _ => rfl) fun dst => ?_
  apply frames_grabPreviewFrame.bind
  intro tempbuf
  refine Frames.bind ((hread _ _ _).bind fun _ => frames_act_of_same rfl fun _ => rfl) fun _ => ?_
  refine (hcall _).bind fun _ => (hcall _).bind fun _ => Frames.read_bind fun s => ?_
  refine Frames.bind (Frames.when ?_) fun _ => frames_releasePreviewFrame
  exact (hread _ _ _).bind fun _ => frames_act_of_same rfl fun _ => rfl

theorem frames_previewThreadLocked : Frames KeepsStream previewThreadLocked := by
  apply Frames.read_bind
  intro s
  cases s.iteration with
  | none => exact frames_pure ()
  | some size =>
    refine Frames.bind (frames_act_of_same rfl fun _ => rfl) fun _ => Frames.when ?_
    refine Frames.bind (frames_request_of_same (fun _ _ => rfl) fun _ _ => rfl) fun r => ?_
    cases r with
    | none => exact frames_act_of_same rfl fun _ => rfl
    | some a => exact frames_previewFrame _ _ _

theorem frames_setPreviewWindow (window : Bool) :
    Frames KeepsStream (setPreviewWindow window) := by
  have hassign {f : CameraHardware → CameraHardware}
      (hf : ∀ s, (f s).stream = s.stream) :
      Frames KeepsStream (assign "mNativeWindow" f) := frames_act_of_same rfl hf
  -- the calls of the source in their order
  refine Frames.read_bind fun s => Frames.bind (Frames.when (hassign fun _ => rfl)) fun _ => ?_
  refine Frames.ite (frames_pure _) (Frames.bind (hassign fun _ => rfl) fun _ => ?_)
  refine Frames.bind (frames_windowCall fun _ => rfl) fun _ => ?_
  refine Frames.bind (frames_windowCall fun _ => rfl) fun _ => ?_
  refine Frames.bind (Frames.read_bind fun t => ?_) fun err => ?_
  · exact Frames.bind (frames_act_of_same rfl fun _ => rfl) fun _ => frames_pure _
  · exact Frames.bind (Frames.when (hassign fun _ => rfl)) fun _ => frames_pure _

end CameraHardware

/-- The calls that neither open nor close a node. -/
theorem frames_code {call : Call} (hstart : call ≠ .startPreview) (hstop : call ≠ .stopPreview)
    (hpicture : call ≠ .takePicture) : Frames KeepsStream call.code := by
  -- the three calls left out are the ones that open or close a device
  cases call with
  | setPreviewWindow window =>
    exact (CameraHardware.frames_setPreviewWindow window).bind fun _ => frames_pure _
  | setParameters params =>
    refine Frames.bind (Frames.ite (frames_pure _) ?_) fun _ => frames_pure _
    exact Frames.bind (frames_act_of_same rfl fun _ => rfl) fun _ => frames_pure _
  | enableMsgType | disableMsgType => exact frames_act_of_same rfl fun _ => rfl
  | previewThread =>
    exact Frames.read_bind fun _ => Frames.when (frames_act_of_same rfl fun _ => rfl)
  | previewThreadLocked => exact CameraHardware.frames_previewThreadLocked
  | startPreview => exact absurd rfl hstart
  | stopPreview => exact absurd rfl hstop
  | takePicture => exact absurd rfl hpicture

end Frames

/-! ## §3 Opening -/

/-- If `open` succeeds for this answer, everything that `Open` asks for with the next two does,
too. -/
def OpensWhole (answer : Nat → Answer) : Prop :=
  (answer 0).ok → ((answer 1).ok ∧ (answer 1).capture ∧ (answer 1).streaming) ∧ (answer 2).ok

instance (answer : Nat → Answer) : Decidable (OpensWhole answer) := by
  unfold OpensWhole
  infer_instance

/-- The nodes that are tried are opened as a whole, or not at all. -/
def SearchWhole (answer : Nat → Answer) : Prop :=
  OpensWhole answer ∧ ((answer 0).ok = false → OpensWhole fun n => answer (n + 1))

instance (answer : Nat → Answer) : Decidable (SearchWhole answer) := by
  unfold SearchWhole
  infer_instance

section Open

variable {s : CameraHardware}

/-- The state in which `open` has succeeded. -/
def opened (s : CameraHardware) : CameraHardware :=
  { s.answered with kernel := s.kernel.answered.openFile, camera.fd := s.kernel.nextFd }

/-- The state in which `open` has failed. -/
def notOpened (s : CameraHardware) : CameraHardware := { s.answered with camera.fd := -1 }

theorem answerAt_notOpened (s : CameraHardware) (n : Nat) :
    (notOpened s).answerAt n = s.answerAt (n + 1) := Kernel.answered_answerAt s.kernel n

theorem answerAt_opened (s : CameraHardware) (n : Nat) :
    (opened s).answerAt n = s.answerAt (n + 1) := Kernel.answered_answerAt s.kernel n

theorem sysOpen_ok (device : Nat) (hok : (s.answerAt 0).ok = true) :
    (sysOpen device).val s = some (s.answerAt 0) ∧ (sysOpen device).exec s = opened s := by
  rw [sysOpen, val_request, exec_request, CameraHardware.outcome, hok]
  exact ⟨rfl, rfl⟩

theorem sysOpen_not_ok (device : Nat) (hok : (s.answerAt 0).ok = false) :
    (sysOpen device).val s = none ∧ (sysOpen device).exec s = notOpened s := by
  rw [sysOpen, val_request, exec_request, CameraHardware.outcome, hok]
  exact ⟨rfl, rfl⟩

/-- What `Open` asks of a node it has opened. -/
def openRest (width height : Int) (pixelformat : Nat) : CameraM Int := do
  let cap ← queryCap
  if cap.isNone then fail .open
  else if cap.any fun a => !a.capture then fail .open
  else if cap.any fun a => !a.streaming then fail .open
  else do
    assign "videoIn->format" (setSize width height pixelformat)
    let format ← setFormat
    if format.isNone then fail .open
    else succeed .open

/-- An `ioctl` on an open descriptor succeeds when its answer says so. -/
theorem val_ioctl_of_fdOpen {name : String} {effect : Answer → CameraHardware → CameraHardware}
    (hfd : s.fdOpen = true) :
    (ioctl name effect).val s = if (s.answerAt 0).ok then some (s.answerAt 0) else none := by
  simp [ioctl, CameraHardware.outcome, hfd]

theorem frames_setFormat : Frames KeepsStream setFormat := frames_ioctl fun _ _ => rfl

/-- `VIDIOC_QUERYCAP` takes an answer, and that is all. -/
theorem exec_queryCap (s : CameraHardware) : queryCap.exec s = s.answered := by
  rw [queryCap, ioctl, exec_request]
  split <;> rfl

theorem takes_fail_open_iff (hlen : s.kernel.openFds.length ≤ 1) :
    Takes DescriptorsRight (fail .open) s ↔ s.kernel.openFds = [] := by
  simp only [fail, ret, takes_bind, takes_act, takes_pure, and_true]
  exact and_iff_right hlen

/-- The camera's descriptor is the only one that is open. -/
def OneOpen (s : CameraHardware) : Prop := s.kernel.openFds = [s.camera.fd]

namespace OneOpen

theorem length_le (h : OneOpen s) : s.kernel.openFds.length ≤ 1 := by
  rw [h]
  exact Nat.le_refl 1

theorem fdOpen (h : OneOpen s) : s.fdOpen = true := by
  rw [CameraHardware.fdOpen, h]
  simp

theorem congr {t : CameraHardware} (h : OneOpen s) (hsame : t.descriptors = s.descriptors) :
    OneOpen t := by
  have hfd : t.camera.fd = s.camera.fd := congrArg Prod.fst hsame
  rw [OneOpen, hfd, openFds_of_descriptors hsame]
  exact h

/-- A program that keeps the descriptors is right with one open, and leaves it open. -/
theorem kept {α : Type} {p : CameraM α} (h : OneOpen s) (hp : Frames KeepsDescriptors p) :
    Takes DescriptorsRight p s ∧ OneOpen (p.exec s) :=
  ⟨takes_of_keepsDescriptors hp h.length_le, h.congr (descriptors_exec hp s)⟩

/-- With the node open, `Open` must not fail any more. -/
theorem not_fail (h : OneOpen s) : ¬Takes DescriptorsRight (fail .open) s := by
  rw [takes_fail_open_iff h.length_le, h]
  exact List.cons_ne_nil _ _

theorem succeed (h : OneOpen s) : Takes DescriptorsRight (V4L2Camera.succeed .open) s := by
  simp only [V4L2Camera.succeed, ret, takes_bind, takes_act, takes_pure, and_true]
  exact ⟨h.length_le, trivial⟩

theorem opened (hnone : s.kernel.openFds = []) : OneOpen (opened s) := by
  simp [OneOpen, Camera.opened, Kernel.openFile, Kernel.answered, hnone]

end OneOpen

section Rest

variable (width height : Int) (pixelformat : Nat)

/-- The state in which `VIDIOC_S_FMT` is requested. -/
def beforeFormat (s : CameraHardware) : CameraHardware :=
  setSize width height pixelformat s.answered

/-- The node can capture and stream, and takes the format. -/
def RestWhole (s : CameraHardware) : Prop :=
  ((s.answerAt 0).ok ∧ (s.answerAt 0).capture ∧ (s.answerAt 0).streaming) ∧ (s.answerAt 1).ok

theorem val_setFormat (h : OneOpen s) :
    setFormat.val (beforeFormat width height pixelformat s) =
      if (s.answerAt 1).ok then some (s.answerAt 1) else none := by
  have hanswer : (beforeFormat width height pixelformat s).answerAt 0 = s.answerAt 1 :=
    Kernel.answered_answerAt s.kernel 0
  have hbefore : OneOpen (beforeFormat width height pixelformat s) := h.congr rfl
  rw [← hanswer]
  exact val_ioctl_of_fdOpen hbefore.fdOpen

/-- What is left of `Open`, action by action. -/
theorem takes_openRest {P : CameraHardware → Event → CameraHardware → Prop} :
    Takes P (openRest width height pixelformat) s ↔ Takes P queryCap s ∧
      if (queryCap.val s).isNone then Takes P (fail .open) s.answered
      else if (queryCap.val s).any (fun a => !a.capture) then Takes P (fail .open) s.answered
      else if (queryCap.val s).any (fun a => !a.streaming) then Takes P (fail .open) s.answered
      else
        let t := beforeFormat width height pixelformat s
        P s.answered (.assign "videoIn->format") t ∧ Takes P setFormat t ∧
          if (setFormat.val t).isNone then Takes P (fail .open) (setFormat.exec t)
          else Takes P (succeed .open) (setFormat.exec t) := by
  simp only [openRest, takes_bind, takes_ite, assign, takes_act, exec_act, exec_queryCap]
  rfl

/-- What is left of `Open` is right exactly when nothing fails any more. -/
theorem takes_openRest_iff (h : OneOpen s) :
    Takes DescriptorsRight (openRest width height pixelformat) s ↔ RestWhole s := by
  -- each request keeps the descriptor, so each failure leaves it open
  obtain ⟨hquery, hone⟩ := h.kept (p := queryCap) (keepsDescriptors_of_keepsStream (frames_ioctl fun _ _ => rfl))
  rw [exec_queryCap] at hone
  have hbefore : OneOpen (beforeFormat width height pixelformat s) := hone.congr rfl
  have hassign : DescriptorsRight s.answered (.assign "videoIn->format")
      (beforeFormat width height pixelformat s) := ⟨hone.length_le, trivial⟩
  obtain ⟨hformat, hlast⟩ := hbefore.kept (keepsDescriptors_of_keepsStream frames_setFormat)
  have hval : queryCap.val s = if (s.answerAt 0).ok then some (s.answerAt 0) else none :=
    val_ioctl_of_fdOpen h.fdOpen
  simp only [takes_openRest, hquery, hval, hone.not_fail, hassign, hformat,
    val_setFormat _ _ _ h, hlast.not_fail, hlast.succeed, true_and, RestWhole]
  cases (s.answerAt 0).ok with
  | false => simp
  | true =>
    cases (s.answerAt 1).ok with
    | false => simp
    | true => simp

/-- When nothing fails, `Open` returns 0 and leaves the descriptors alone. -/
theorem openRest_whole (h : OneOpen s) (hwhole : RestWhole s) :
    (openRest width height pixelformat).val s = 0 ∧
      ((openRest width height pixelformat).exec s).descriptors = s.descriptors := by
  have hformat := val_setFormat width height pixelformat h
  obtain ⟨⟨hok, hcapture, hstreaming⟩, hok'⟩ := hwhole
  have hval : queryCap.val s = some (s.answerAt 0) := by
    rw [queryCap, val_ioctl_of_fdOpen h.fdOpen, if_pos hok]
  rw [if_pos hok', beforeFormat] at hformat
  simp [openRest, hval, hformat, hcapture, hstreaming, exec_queryCap, succeed, ret, assign]
  exact descriptors_exec (keepsDescriptors_of_keepsStream frames_setFormat) _

end Rest

/-- `Open` is `open` and what it asks of the node then. -/
theorem open_eq (device : Nat) (width height : Int) (pixelformat : Nat) :
    V4L2Camera.open device width height pixelformat =
      (sysOpen device >>= fun fd =>
        if fd.isNone then fail .open else openRest width height pixelformat) := rfl

/-- `Open` with no descriptor open is right exactly when it opens the node as a whole, or not at
all. -/
theorem takes_open_iff (device : Nat) (width height : Int) (pixelformat : Nat)
    (hnone : s.kernel.openFds = []) :
    Takes DescriptorsRight (V4L2Camera.open device width height pixelformat) s ↔
      OpensWhole s.answerAt := by
  have hlen : s.kernel.openFds.length ≤ 1 := by simp [hnone]
  rw [open_eq, takes_bind, takes_ite, sysOpen, takes_request, val_request, exec_request,
    CameraHardware.outcome, OpensWhole]
  cases hok : (s.answerAt 0).ok with
  | false =>
    -- nothing is opened, and nothing stays open
    have hfail : Takes DescriptorsRight (fail .open) (notOpened s) :=
      (takes_fail_open_iff hlen).mpr hnone
    exact iff_of_true ⟨⟨hlen, trivial⟩, hfail⟩ Bool.noConfusion
  | true =>
    have hone := OneOpen.opened hnone
    have hrest := takes_openRest_iff width height pixelformat hone
    rw [RestWhole, answerAt_opened, answerAt_opened] at hrest
    refine Iff.trans (and_iff_right ⟨hone.length_le, trivial⟩) (hrest.trans ?_)
    exact ⟨fun hall _ => hall, fun hall => hall rfl⟩

/-- A node that is opened as a whole leaves one descriptor. -/
theorem open_whole (device : Nat) (width height : Int) (pixelformat : Nat)
    (hnone : s.kernel.openFds = []) (hok : (s.answerAt 0).ok) (hwhole : OpensWhole s.answerAt) :
    (V4L2Camera.open device width height pixelformat).val s = 0 ∧
      OneOpen ((V4L2Camera.open device width height pixelformat).exec s) := by
  -- `open` succeeds, and the rest is asked in the state it leaves
  obtain ⟨hval, hexec⟩ := sysOpen_ok device hok
  have hone := OneOpen.opened hnone
  have hall : RestWhole (opened s) := by
    rw [RestWhole, answerAt_opened, answerAt_opened]
    exact hwhole hok
  obtain ⟨hzero, hsame⟩ := openRest_whole width height pixelformat hone hall
  rw [open_eq, val_bind, exec_bind, hval, hexec]
  exact ⟨hzero, hone.congr hsame⟩

/-- A node that cannot be opened takes one answer. -/
theorem open_none (device : Nat) (width height : Int) (pixelformat : Nat)
    (hok : (s.answerAt 0).ok = false) :
    (V4L2Camera.open device width height pixelformat).val s = -1 ∧
      (V4L2Camera.open device width height pixelformat).exec s = notOpened s := by
  simp [V4L2Camera.open, sysOpen, CameraHardware.outcome, hok, fail, ret, notOpened]

/-- What is open after `p`: the node it found, or nothing if it returns a negative value. -/
def FoundOrNone (p : CameraM Int) (s : CameraHardware) : Prop :=
  if p.val s < 0 then (p.exec s).kernel.openFds = [] else OneOpen (p.exec s)

theorem foundOrNone_open (device : Nat) (width height : Int) (pixelformat : Nat)
    (hnone : s.kernel.openFds = []) (hwhole : OpensWhole s.answerAt) :
    FoundOrNone (V4L2Camera.open device width height pixelformat) s := by
  rw [FoundOrNone]
  -- the device opens, and by `hwhole` the rest of `Open` goes through, or it does not open
  cases hok : (s.answerAt 0).ok with
  | true =>
    obtain ⟨hval, hone⟩ := open_whole device width height pixelformat hnone hok hwhole
    rw [hval, if_neg (Int.lt_irrefl 0)]
    exact hone
  | false =>
    obtain ⟨hval, hexec⟩ := open_none device width height pixelformat hok
    rw [hval, hexec, if_pos (by decide)]
    exact hnone

section Search

variable (width height : Int)

/-- When the first node is opened, it is the one. -/
theorem openNode_first (hnone : s.kernel.openFds = []) (hok : (s.answerAt 0).ok)
    (hwhole : OpensWhole s.answerAt) :
    Takes DescriptorsRight (CameraHardware.openNode width height) s ∧
      FoundOrNone (CameraHardware.openNode width height) s := by
  obtain ⟨hval, hone⟩ := open_whole CameraHardware.maxVideonode width height
    CameraHardware.pixelFormat hnone hok hwhole
  rw [FoundOrNone, CameraHardware.openNode, takes_bind, val_bind, exec_bind, hval,
    if_pos (Int.le_refl 0), val_pure, exec_pure, if_neg (Int.lt_irrefl 0)]
  exact ⟨⟨(takes_open_iff _ _ _ _ hnone).mpr hwhole, takes_pure _ _⟩, hone⟩

/-- When it cannot be opened, the search goes on with the second. -/
theorem openNode_second (hnone : s.kernel.openFds = []) (hok : (s.answerAt 0).ok = false) :
    (Takes DescriptorsRight (CameraHardware.openNode width height) s ↔
        OpensWhole (notOpened s).answerAt) ∧
      (OpensWhole (notOpened s).answerAt →
        FoundOrNone (CameraHardware.openNode width height) s) := by
  obtain ⟨hval, hexec⟩ := open_none CameraHardware.maxVideonode width height
    CameraHardware.pixelFormat hok
  have hnone' : (notOpened s).kernel.openFds = [] := hnone
  -- the first device does not open, so nothing is asked of the rest of its `Open`
  have hfirst : OpensWhole s.answerAt := fun hyes => absurd hyes (hok ▸ Bool.false_ne_true)
  rw [FoundOrNone, CameraHardware.openNode, takes_bind, val_bind, exec_bind, hval, hexec,
    if_neg (by decide), takes_open_iff _ _ _ _ hnone, takes_open_iff _ _ _ _ hnone',
    and_iff_right hfirst]
  exact ⟨Iff.rfl, foundOrNone_open _ _ _ _ hnone'⟩

/-- The search is right exactly when each node that it opens is opened as a whole. -/
theorem openNode_right_iff (hnone : s.kernel.openFds = []) :
    (Takes DescriptorsRight (CameraHardware.openNode width height) s ↔ SearchWhole s.answerAt) ∧
      (SearchWhole s.answerAt → FoundOrNone (CameraHardware.openNode width height) s) := by
  cases hok : (s.answerAt 0).ok with
  | true =>
    -- the first node is opened, and the second is not tried
    have hno : ¬(s.answerAt 0).ok = false := hok ▸ nofun
    have hwhole : SearchWhole s.answerAt ↔ OpensWhole s.answerAt :=
      and_iff_left fun hfalse => absurd hfalse hno
    rw [hwhole]
    refine ⟨⟨fun htakes => ?_, fun h => (openNode_first _ _ hnone hok h).1⟩,
      fun h => (openNode_first _ _ hnone hok h).2⟩
    rw [CameraHardware.openNode, takes_bind] at htakes
    exact (takes_open_iff _ _ _ _ hnone).mp htakes.1
  | false =>
    -- the first node is not opened, and the second decides
    have hfirst : OpensWhole s.answerAt := fun hyes => absurd hyes (hok ▸ Bool.false_ne_true)
    have hwhole : SearchWhole s.answerAt ↔ OpensWhole (notOpened s).answerAt := by
      rw [funext (answerAt_notOpened s)]
      exact ⟨fun h => h.2 hok, fun h => ⟨hfirst, fun _ => h⟩⟩
    rw [hwhole]
    exact openNode_second _ _ hnone hok

end Search

end Open

/-! ## §4 Closing -/

section Close

variable {s : CameraHardware}

theorem openFds_closeFile (k : Kernel) (fd : Int) :
    (k.closeFile fd).openFds = k.openFds.erase fd := by
  rw [Kernel.closeFile]
  split <;> rfl

theorem oneOpen_of_fdOpen (hlen : s.kernel.openFds.length ≤ 1) (hfd : s.fdOpen = true) :
    OneOpen s := by
  have hmem : s.camera.fd ∈ s.kernel.openFds := of_decide_eq_true hfd
  rw [OneOpen]
  generalize s.kernel.openFds = fds at hlen hmem ⊢
  cases fds with
  | nil => cases hmem
  | cons fd rest =>
    have hrest : rest = [] := by simpa using hlen
    rw [hrest, List.mem_singleton] at hmem
    rw [hrest, hmem]

/-- A close is right exactly when the descriptor is open. -/
theorem closeFd_right_iff {fd : Int} {t : CameraHardware} (hlen : s.kernel.openFds.length ≤ 1)
    (ht : t.kernel.openFds = s.kernel.openFds.erase fd) :
    DescriptorsRight s (.closeFd fd) t ↔ fd ∈ s.kernel.openFds := by
  apply and_iff_right
  rw [ht]
  exact Nat.le_trans (List.length_erase_le) hlen

theorem openFds_close (s : CameraHardware) :
    (V4L2Camera.close.exec s).kernel.openFds = s.kernel.openFds.erase s.camera.fd :=
  openFds_closeFile s.kernel s.camera.fd

theorem close_right_iff (hlen : s.kernel.openFds.length ≤ 1) :
    Takes DescriptorsRight V4L2Camera.close s ↔ s.fdOpen = true := by
  have hret (u : CameraHardware) (hu : u.kernel.openFds.length ≤ 1) :
      DescriptorsRight u (.ret .close true) u := ⟨hu, trivial⟩
  have hend : (sysClose s).kernel.openFds = s.kernel.openFds.erase s.camera.fd :=
    openFds_close s
  have hlen' : (sysClose s).kernel.openFds.length ≤ 1 :=
    hend ▸ Nat.le_trans List.length_erase_le hlen
  simp only [V4L2Camera.close, takes_bind, takes_read, val_read, exec_read, takes_act, exec_act,
    ret, id, hret _ hlen', and_true, true_and]
  rw [closeFd_right_iff hlen hend, CameraHardware.fdOpen, decide_eq_true_iff]

/-- `Close` takes the one descriptor away. -/
theorem OneOpen.close (h : OneOpen s) :
    Takes DescriptorsRight V4L2Camera.close s ∧
      (V4L2Camera.close.exec s).kernel.openFds = [] := by
  refine ⟨(close_right_iff h.length_le).mpr h.fdOpen, ?_⟩
  rw [openFds_close, h, List.erase_cons_head]

/-- What is shut down has to be open. -/
theorem fdOpen_of_shutDown (hlen : s.kernel.openFds.length ≤ 1)
    (h : Takes DescriptorsRight CameraHardware.shutDown s) : s.fdOpen = true := by
  have hsame : (stopStreaming.exec (uninit.exec s)).descriptors = s.descriptors :=
    (descriptors_exec frames_stopStreaming _).trans
      (descriptors_exec (keepsDescriptors_of_keepsStream frames_uninit) s)
  simp only [CameraHardware.shutDown, takes_bind] at h
  obtain ⟨-, -, hclose⟩ := h
  generalize stopStreaming.exec (uninit.exec s) = t at hsame hclose
  rw [close_right_iff (openFds_of_descriptors hsame ▸ hlen)] at hclose
  exact fdOpen_of_descriptors hsame ▸ hclose

theorem OneOpen.shutDown (h : OneOpen s) :
    Takes DescriptorsRight CameraHardware.shutDown s ∧
      (CameraHardware.shutDown.exec s).kernel.openFds = [] := by
  obtain ⟨huninit, h'⟩ := h.kept (keepsDescriptors_of_keepsStream frames_uninit)
  obtain ⟨hstop, h''⟩ := h'.kept frames_stopStreaming
  obtain ⟨hclose, hnone⟩ := h''.close
  simp only [CameraHardware.shutDown, takes_bind, exec_bind, huninit, hstop, true_and]
  exact ⟨hclose, hnone⟩

end Close

/-! ## §5 The Calls That Open and Close -/

/-- Nothing is open, or the node of the preview. -/
def Held (s : CameraHardware) : Prop :=
  s.kernel.openFds = [] ∨ s.mPreviewThread = true ∧ OneOpen s

section Calls

variable {s : CameraHardware}

theorem Held.length_le (h : Held s) : s.kernel.openFds.length ≤ 1 := by
  obtain hnone | ⟨-, hone⟩ := h
  · simp [hnone]
  · exact hone.length_le

theorem Held.noneLeft (h : Held s) : NoneLeft s := fun hthread => by
  obtain hnone | ⟨hon, -⟩ := h
  · exact hnone
  · cases hthread.symm.trans hon

theorem Held.congr {t : CameraHardware} (h : Held s) (hsame : t.descriptors = s.descriptors) :
    Held t := by
  obtain hnone | ⟨hon, hone⟩ := h
  · exact .inl ((openFds_of_descriptors hsame).trans hnone)
  · exact .inr ⟨(mPreviewThread_of_descriptors hsame).trans hon, hone.congr hsame⟩

/-- What an assignment to another member does to the property: nothing. -/
theorem right_assign {member : String} {t u : CameraHardware} (h : u.kernel.openFds.length ≤ 1) :
    DescriptorsRight t (.assign member) u := ⟨h, trivial⟩

/-- `startPreview` looks for a node first. -/
theorem search_of_startPreview (hthread : s.mPreviewThread = false)
    (h : Takes DescriptorsRight CameraHardware.startPreview s) :
    Takes DescriptorsRight (searchNode s) s := by
  rw [CameraHardware.startPreview, takes_bind, val_read, exec_read, takes_ite,
    if_neg (hthread ▸ Bool.false_ne_true), takes_bind] at h
  exact h.2.1

/-- When the search is right, so is all of `startPreview`: a node that is found is closed again if
`Init` or `StartStreaming` fails. -/
theorem startPreview_of_search (hthread : s.mPreviewThread = false)
    (hsearch : Takes DescriptorsRight (searchNode s) s) (hfound : FoundOrNone (searchNode s) s) :
    Takes DescriptorsRight CameraHardware.startPreview s ∧
      Held (CameraHardware.startPreview.exec s) := by
  rw [FoundOrNone] at hfound
  rw [CameraHardware.exec_startPreview hthread, CameraHardware.takes_startPreview hthread,
    and_iff_right hsearch]
  by_cases hv : (searchNode s).val s < 0
  · -- no node can be opened
    rw [if_pos hv] at hfound
    rw [if_pos hv, if_pos hv]
    exact ⟨trivial, .inl hfound⟩
  rw [if_neg hv] at hfound
  have hone : OneOpen (beforeInit s) := hfound
  rw [if_neg hv, if_neg hv, and_iff_right (right_assign hone.length_le)]
  generalize beforeInit s = t at hone ⊢
  obtain ⟨hinit, honeI⟩ := hone.kept (keepsDescriptors_of_keepsStream frames_init)
  rw [and_iff_right hinit]
  by_cases hi : V4L2Camera.init.val t ≠ 0
  · -- `Init` has failed
    rw [if_pos hi, if_pos hi]
    exact ⟨honeI.close.1, .inl honeI.close.2⟩
  obtain ⟨hstart, honeS⟩ := honeI.kept frames_startStreaming
  rw [if_neg hi, if_neg hi]
  dsimp only
  by_cases hst : startStreaming.val (V4L2Camera.init.exec t) ≠ 0
  · -- `StartStreaming` has failed
    obtain ⟨huninit, honeU⟩ := honeS.kept (keepsDescriptors_of_keepsStream frames_uninit)
    rw [if_pos hst, if_pos hst]
    exact ⟨⟨hstart, huninit, honeU.close.1⟩, .inl honeU.close.2⟩
  · -- the preview is on
    rw [if_neg hst, if_neg hst]
    exact ⟨⟨hstart, right_assign honeS.length_le, right_assign honeS.length_le⟩,
      .inr ⟨rfl, honeS⟩⟩

/-- `startPreview` without a preview is right exactly when its search is. -/
theorem startPreview_descriptors (hnone : s.kernel.openFds = [])
    (hthread : s.mPreviewThread = false) :
    (Takes DescriptorsRight CameraHardware.startPreview s ↔ SearchWhole s.answerAt) ∧
      (SearchWhole s.answerAt → Held (CameraHardware.startPreview.exec s)) := by
  obtain ⟨hiff, hfound⟩ := openNode_right_iff s.mParameters.previewWidth
    s.mParameters.previewHeight hnone
  have hof (h : SearchWhole s.answerAt) := startPreview_of_search hthread (hiff.mpr h) (hfound h)
  exact ⟨⟨fun h => hiff.mp (search_of_startPreview hthread h), fun h => (hof h).1⟩,
    fun h => (hof h).2⟩

/-- If there is a preview, its node is open. -/
def PreviewOpen (s : CameraHardware) : Prop := s.mPreviewThread = true → s.fdOpen = true

/-- `stopPreview` is right exactly when the node of the preview is still open. -/
theorem stopPreview_descriptors (h : Held s) :
    (Takes DescriptorsRight CameraHardware.stopPreview s ↔ PreviewOpen s) ∧
      (PreviewOpen s → (CameraHardware.stopPreview.exec s).kernel.openFds = []) := by
  have hlen := h.length_le
  cases hthread : s.mPreviewThread with
  | true =>
    -- the preview is on, and `Close` needs its descriptor
    have hshut (hfd : s.fdOpen = true) :=
      OneOpen.shutDown (s := { s with previewStopped := true }) (oneOpen_of_fdOpen hlen hfd)
    have hdown := fdOpen_of_shutDown (s := { s with previewStopped := true }) hlen
    simp only [CameraHardware.stopPreview, assign, takes_bind, exec_bind, takes_act, exec_act,
      takes_read, val_read, exec_read, takes_when, exec_when, true_and, PreviewOpen, hthread,
      if_true, forall_const] at hshut hdown ⊢
    refine ⟨⟨fun htakes => hdown htakes.2.1, fun hfd => ?_⟩, fun hfd => (hshut hfd).2⟩
    obtain ⟨hright, hnone⟩ := hshut hfd
    exact ⟨right_assign hlen, hright, right_assign (hnone ▸ Nat.zero_le 1)⟩
  | false =>
    -- without a preview nothing is shut down
    have hopen : PreviewOpen s := fun hon => absurd hon (hthread ▸ Bool.false_ne_true)
    simp only [CameraHardware.stopPreview, assign, takes_bind, exec_bind, takes_act, exec_act,
      takes_read, val_read, exec_read, takes_when, exec_when, true_and, hthread,
      Bool.false_eq_true, false_implies, if_false]
    exact ⟨iff_of_true ⟨right_assign hlen, right_assign hlen⟩ hopen, fun _ => h.noneLeft hthread⟩

/-- What `pictureThread` does with a node that it has opened. -/
theorem OneOpen.picture (h : OneOpen s) :
    let t := CameraHardware.compressedImage.exec (startStreaming.exec (V4L2Camera.init.exec s))
    (Takes DescriptorsRight V4L2Camera.init s ∧
      Takes DescriptorsRight startStreaming (V4L2Camera.init.exec s) ∧
      Takes DescriptorsRight CameraHardware.compressedImage
        (startStreaming.exec (V4L2Camera.init.exec s)) ∧
      Takes DescriptorsRight CameraHardware.shutDown t) ∧
    (CameraHardware.shutDown.exec t).kernel.openFds = [] := by
  obtain ⟨hinit, honeI⟩ := h.kept (keepsDescriptors_of_keepsStream frames_init)
  obtain ⟨hstart, honeS⟩ := honeI.kept frames_startStreaming
  obtain ⟨hpicture, honeP⟩ := honeS.kept
    (keepsDescriptors_of_keepsStream CameraHardware.frames_compressedImage)
  exact ⟨⟨hinit, hstart, hpicture, honeP.shutDown.1⟩, honeP.shutDown.2⟩

/-- `pictureThread` is right exactly when its search is, and closes what it finds. -/
theorem pictureThread_descriptors (hnone : s.kernel.openFds = []) :
    (Takes DescriptorsRight CameraHardware.pictureThread s ↔ SearchWhole s.answerAt) ∧
      (SearchWhole s.answerAt → (CameraHardware.pictureThread.exec s).kernel.openFds = []) := by
  -- the shutter message is no action on a descriptor
  have hnotify : DescriptorsRight s (.notifyFn CameraHardware.msgShutter) s :=
    ⟨by simp [hnone], trivial⟩
  obtain ⟨hiff, hfound⟩ := openNode_right_iff s.mParameters.previewWidth
    s.mParameters.previewHeight hnone
  simp only [CameraHardware.pictureThread, takes_bind, takes_read, val_read, exec_bind, exec_read,
    takes_when, takes_act, exec_when, exec_act, id, ite_self, hnotify, implies_true, true_and,
    takes_ite, exec_ite, takes_pure, exec_pure, and_true, hiff]
  rw [and_iff_left_iff_imp, ← imp_and]
  intro h
  have hleft := hfound h
  rw [FoundOrNone] at hleft
  split at hleft
  · next hv =>
    -- no node was found
    rw [if_pos hv, if_pos hv]
    exact ⟨trivial, hleft⟩
  · next hv =>
    -- a node was found, and is closed at the end
    rw [if_neg hv, if_neg hv]
    exact hleft.picture

/-- `takePicture` is right exactly when both of its parts are. -/
theorem takePicture_descriptors (h : Held s) :
    let wholePicture :=
      PreviewOpen s ∧ SearchWhole (CameraHardware.stopPreview.exec s).answerAt
    (Takes DescriptorsRight CameraHardware.takePicture s ↔ wholePicture) ∧
      (wholePicture → (CameraHardware.takePicture.exec s).kernel.openFds = []) := by
  obtain ⟨hstop, hnone⟩ := stopPreview_descriptors h
  simp only [CameraHardware.takePicture, takes_bind, takes_pure, and_true, exec_bind, exec_pure,
    hstop]
  refine ⟨and_congr_right fun hopen => (pictureThread_descriptors (hnone hopen)).1, ?_⟩
  exact fun hwhole => (pictureThread_descriptors (hnone hwhole.1)).2 hwhole.2

end Calls

/-! ## §6 Runs -/

/-- What a call needs: nodes that are opened as a whole, and an open descriptor to close. -/
def CallWhole (s : CameraHardware) : Call → Prop
  | .startPreview => s.mPreviewThread = false → SearchWhole s.answerAt
  | .stopPreview => PreviewOpen s
  | .takePicture => PreviewOpen s ∧ SearchWhole (CameraHardware.stopPreview.exec s).answerAt
  | _ => True

/-- What a step needs. -/
def StepWhole (s : CameraHardware) : DeviceCall → Prop
  | .call step => step.call.enabled s → CallWhole (step.start s) step.call
  | .release cameraDevice => cameraDevice ∈ s.kernel.openFds

section Runs

variable {s : CameraHardware}

theorem call_descriptors (h : Held s) (call : Call) :
    (Takes DescriptorsRight call.code s ↔ CallWhole s call) ∧
      (CallWhole s call → Held (call.code.exec s)) := by
  have hother (hcode : Frames KeepsDescriptors call.code) (hwhole : CallWhole s call) :
      (Takes DescriptorsRight call.code s ↔ CallWhole s call) ∧
        (CallWhole s call → Held (call.code.exec s)) :=
    ⟨iff_of_true (takes_of_keepsDescriptors hcode h.length_le) hwhole,
      fun _ => h.congr (descriptors_exec hcode s)⟩
  -- only the calls that open or close a device ask for anything; the others leave the descriptor
  -- alone
  cases call with
  | setPreviewWindow | setParameters | enableMsgType | disableMsgType | previewThread
  | previewThreadLocked =>
    exact hother (keepsDescriptors_of_keepsStream (frames_code (by simp) (by simp) (by simp))) trivial
  | startPreview =>
    rw [Call.code, takes_bind, exec_bind, exec_pure, and_iff_left (takes_pure _ _), CallWhole]
    cases hthread : s.mPreviewThread with
    | true =>
      -- a second preview is refused
      have hrefused := CameraHardware.startPreview_refused (P := fun _ _ => False) hthread
      rw [hrefused.2]
      exact ⟨iff_of_true (hrefused.1.takes fun _ _ _ => False.elim) Bool.noConfusion, fun _ => h⟩
    | false =>
      simp only [forall_const]
      exact startPreview_descriptors (h.noneLeft hthread) hthread
  | stopPreview =>
    obtain ⟨hiff, hnone⟩ := stopPreview_descriptors h
    exact ⟨hiff, fun hopen => .inl (hnone hopen)⟩
  | takePicture =>
    obtain ⟨hiff, hnone⟩ := takePicture_descriptors h
    rw [Call.code, takes_bind, exec_bind, exec_pure, and_iff_left (takes_pure _ _)]
    exact ⟨hiff, fun hwhole => .inl (hnone hwhole)⟩

theorem release_descriptors (h : Held s) (cameraDevice : Int) :
    (Takes DescriptorsRight (CameraHardware.release cameraDevice) s ↔
        cameraDevice ∈ s.kernel.openFds) ∧
      (cameraDevice ∈ s.kernel.openFds →
        ((CameraHardware.release cameraDevice).exec s).kernel.openFds = []) := by
  rw [CameraHardware.release, takes_act, exec_act]
  refine ⟨closeFd_right_iff h.length_le (openFds_closeFile s.kernel cameraDevice), fun hmem => ?_⟩
  have hend := openFds_closeFile s.kernel cameraDevice
  -- the only number that is open is that of the node
  obtain hnone | ⟨-, hone⟩ := h
  · rw [hnone] at hmem
    cases hmem
  · rw [hone, List.mem_singleton] at hmem
    rw [hone, hmem, List.erase_cons_head] at hend
    exact hmem ▸ hend

/-- One step, from a state in which nothing is open but the node of the preview. -/
theorem callRight_iff (h : Held s) (a : DeviceCall) :
    (CallRight s a ↔ StepWhole s a) ∧
      (∀ t, StepWhole s a → deviceMachine.step s a = some t → Held t) := by
  -- a call of the framework, or the release of the device at the end
  cases a with
  | call step =>
    have hstart : Held (step.start s) := h.congr rfl
    obtain ⟨hiff, hheld⟩ := call_descriptors hstart step.call
    refine ⟨forall_congr' fun _ => ⟨fun hright => hiff.mp hright.1, fun hwhole => ?_⟩, ?_⟩
    · exact ⟨hiff.mpr hwhole, (hheld hwhole).noneLeft⟩
    · intro t hwhole ht
      obtain ⟨henabled, hexec⟩ := Option.ite_some_none_eq_some.mp ht
      exact hexec ▸ hheld (hwhole henabled)
  | release cameraDevice =>
    obtain ⟨hiff, hnone⟩ := release_descriptors h cameraDevice
    refine ⟨⟨fun hright => hiff.mp (hright rfl).1, fun hmem _ => ?_⟩, fun t hmem ht => ?_⟩
    · exact ⟨hiff.mpr hmem, fun _ => hnone hmem⟩
    · have hexec : (CameraHardware.release cameraDevice).exec s = t := Option.some.inj ht
      exact hexec ▸ .inl (hnone hmem)

/-- In a run all calls are right exactly when every node that is opened is opened as a whole, the
node of a preview that is stopped is still open, and a `release` hits an open descriptor. -/
theorem descriptors_right_iff (fd : Int) (calls : List DeviceCall) :
    deviceMachine.AllSteps CallRight (created fd) calls ↔
      deviceMachine.AllSteps StepWhole (created fd) calls :=
  deviceMachine.allSteps_iff (fun _ a hs => (callRight_iff hs a).1)
    (fun _ a t hs => (callRight_iff hs a).2 t) (.inl rfl) calls

/-- Node 5 opens, but refuses the format: `Open` returns -1, and the descriptor stays. -/
theorem refused_format_stays_open :
    ¬deviceMachine.AllSteps CallRight (created 0)
      [.call ⟨.startPreview, [{ ok := true }, { ok := true }, { ok := false }]⟩] := by
  decide

end Runs

end OdroidU2.Camera
