import OdroidU2.Foundations.CInt
import OdroidU2.Foundations.Prog

/-!
# The Capture Device and the Camera Objects

The state `libcamera` works on: the objects `V4L2Camera` and `CameraHardware`, and what
the kernel holds for them.  The kernel and the window system are not part of the
repository.  Every call into them that can fail takes the next `Answer`, which says
whether it succeeds and what it returns; a call that V4L2 forbids fails whatever the
answer says:

- a buffer can be queued only if the driver has it allocated and does not hold it
- only a buffer that the driver holds can be dequeued
- on a descriptor that is not open every request fails
-/

namespace OdroidU2.Camera

open OdroidU2.Foundations Prog

/-! ## §1 What the Environment Answers -/

/-- `v4l2_pix_format`, as far as it is set. -/
structure PixFormat where
  width : Int
  height : Int
  pixelformat : Nat
  deriving DecidableEq, Repr

/-- What one call into the kernel or the window system returns. -/
structure Answer where
  ok : Bool := false
  /-- `set_buffer_count`: the error it returns. -/
  err : Int := 0
  /-- `VIDIOC_QUERYCAP`: video capture and streaming. -/
  capture : Bool := true
  streaming : Bool := true
  /-- `VIDIOC_S_FMT`: the format the driver settles on. -/
  format : PixFormat := ⟨0, 0, 0⟩
  /-- `VIDIOC_REQBUFS`: how many buffers the driver allocates. -/
  count : Nat := 0
  /-- `VIDIOC_QUERYBUF`: the length of the buffer. -/
  length : Nat := 0
  /-- `VIDIOC_DQBUF`: the buffer, and how much of it is used. -/
  index : Nat := 0
  bytesused : Nat := 0
  /-- `dequeue_buffer`: the stride of the window buffer. -/
  stride : Nat := 0
  deriving DecidableEq, Repr

/-! ## §2 The Kernel -/

/-- A mapping of a capture buffer: of which open file, which buffer, how long. -/
structure Mapping where
  file : Int
  index : Nat
  length : Nat
  deriving DecidableEq, Repr

/-- A pointer to a frame. -/
inductive Ptr where
  | null
  /-- `MAP_FAILED` -/
  | failed
  | map (m : Mapping)
  deriving DecidableEq, Repr

/-- What the kernel holds for the process.  Descriptors are numbered in the order of
their opening, so that a stale one is not taken for a new one. -/
structure Kernel where
  /-- What the next calls return; a call without an answer fails. -/
  answers : List Answer
  /-- The open descriptors of video nodes. -/
  openFds : List Int
  nextFd : Nat
  maps : List Mapping
  /-- How many buffers the driver has allocated for the file opened last, and their
  lengths. -/
  count : Nat
  lengths : Nat → Nat
  /-- The buffers of the file opened last that are queued with the driver, which may fill
  them at any time. -/
  held : List Nat
  /-- Was the last `VIDIOC_STREAMON` or `VIDIOC_STREAMOFF` that succeeded on that file a
  `VIDIOC_STREAMON`? -/
  streamOn : Bool

namespace Kernel

variable (k : Kernel)

/-- The answer to the `n`-th call from now on. -/
def answerAt (n : Nat) : Answer := k.answers.getD n {}

/-- The next call has its answer. -/
def answered : Kernel := { k with answers := k.answers.tail }

/-- All but the answers to come. -/
def settled : Kernel := { k with answers := [] }

@[simp] theorem answered_answerAt (n : Nat) : k.answered.answerAt n = k.answerAt (n + 1) := by
  cases h : k.answers with
  | nil => simp [answered, answerAt, h]
  | cons a as => simp [answered, answerAt, h]

@[simp] theorem answered_held : k.answered.held = k.held := rfl
@[simp] theorem answered_maps : k.answered.maps = k.maps := rfl
@[simp] theorem answered_lengths : k.answered.lengths = k.lengths := rfl
@[simp] theorem answered_count : k.answered.count = k.count := rfl
@[simp] theorem answered_openFds : k.answered.openFds = k.openFds := rfl
@[simp] theorem answered_nextFd : k.answered.nextFd = k.nextFd := rfl

/-- `open`: a new descriptor, and a file without buffers. -/
def openFile : Kernel :=
  { k with
    openFds := k.nextFd :: k.openFds, nextFd := k.nextFd + 1
    count := 0, held := [], streamOn := false }

/-- `close`: the driver drops the buffers of the file it works on. -/
def closeFile (fd : Int) : Kernel :=
  if fd + 1 = k.nextFd then
    { k with openFds := k.openFds.erase fd, count := 0, held := [], streamOn := false }
  else { k with openFds := k.openFds.erase fd }

/-- `VIDIOC_REQBUFS`: new buffers, none of them queued. -/
def requestBuffers (count : Nat) : Kernel := { k with count := count, held := [] }

/-- `VIDIOC_QUERYBUF` tells the length of a buffer. -/
def queryBuffer (i length : Nat) : Kernel :=
  { k with lengths := Function.update k.lengths i length }

/-- `mmap` -/
def mmap (m : Mapping) : Kernel := { k with maps := m :: k.maps }

/-- `munmap` takes a mapping away when it covers all of it. -/
def munmap (frame : Ptr) (length : Nat) : Kernel :=
  match frame with
  | .map m => if m.length ≤ length then { k with maps := k.maps.filter (· ≠ m) } else k
  | _ => k

@[simp] theorem munmap_held (frame : Ptr) (length : Nat) : (k.munmap frame length).held = k.held := by
  cases frame with
  | null | failed => rfl
  | map m =>
    rw [munmap]
    split <;> rfl

/-- `VIDIOC_QBUF` -/
def queue (i : Nat) : Kernel := { k with held := i :: k.held }

/-- `VIDIOC_DQBUF` -/
def dequeue (i : Nat) : Kernel := { k with held := k.held.erase i }

/-- `VIDIOC_STREAMON` -/
def streamStart : Kernel := { k with streamOn := true }

/-- `VIDIOC_STREAMOFF`: the driver gives back all buffers. -/
def streamStop : Kernel := { k with streamOn := false, held := [] }

end Kernel

/-! ## §3 `V4L2Camera` -/

/-- `NB_BUFFER` -/
def nbBuffer : Nat := 4

/-- `struct v4l2_buffer`, as far as it is used. -/
structure V4l2Buffer where
  index : Nat
  length : Nat
  bytesused : Nat
  deriving DecidableEq, Repr

/-- `struct vdIn`, as far as it is used. -/
structure VdIn where
  format : PixFormat
  buf : V4l2Buffer
  mem : Nat → Ptr
  isStreaming : Bool
  width : Int
  height : Int
  framesizeIn : Int

/-- The members of `V4L2Camera`. -/
structure V4L2Camera where
  videoIn : VdIn
  fd : Int
  nQueued : Int
  nDequeued : Int

/-! ## §4 `CameraHardware` -/

/-- The preview size and the picture format of `CameraParameters`. -/
structure CameraParameters where
  previewWidth : Int
  previewHeight : Int
  pictureFormat : String
  deriving DecidableEq, Repr

/-- The members of `CameraHardware` that its calls read, and everything below it. -/
structure CameraHardware where
  camera : V4L2Camera
  kernel : Kernel
  mParameters : CameraParameters
  /-- Is `mNativeWindow` set? -/
  mNativeWindow : Bool
  /-- The geometry last given to `set_buffers_geometry`. -/
  geometry : Int × Int
  previewStopped : Bool
  /-- Is there an `mPreviewThread`? -/
  mPreviewThread : Bool
  mPreviewFrameSize : Int
  mMsgEnabled : BitVec 32
  /-- Is `mLock` held by an iteration of the preview thread that has returned? -/
  mLockLeft : Bool
  /-- The size an iteration of the preview thread has read, once it is past its check. -/
  iteration : Option (Int × Int)
  /-- Has a `VIDIOC_REQBUFS` succeeded since the last `Uninit` or `Close`?  The code has
  no such member: it marks the sessions that the counters are about. -/
  session : Bool

/-! ## §5 Events -/

/-- The functions of `V4L2Camera`. -/
inductive CameraFn where
  | «open» | close | init | uninit | startStreaming | stopStreaming
  | grabPreviewFrame | releasePreviewFrame | grabJpegFrame
  deriving DecidableEq, Repr

/-- The conversions that read a frame. -/
inductive Conversion where
  | convertYUYVtoRGB565 | yuyv422ToYuv420sp | saveYUYVtoJPEG
  deriving DecidableEq, Repr

/-- The actions of the code: calls with their outcomes, accesses to frames, assignments. -/
inductive Event where
  | openDevice (node : Nat) (ok : Bool)
  | ioctl (request : String) (ok : Bool)
  /-- `VIDIOC_QBUF` of a buffer. -/
  | qbuf (fn : CameraFn) (index : Nat) (ok : Bool)
  /-- `VIDIOC_DQBUF`, with the number of buffers the driver held when it was issued. -/
  | dqbuf (fn : CameraFn) (held : Nat) (ok : Bool)
  | mmap (index : Nat) (ok : Bool)
  | munmap (frame : Ptr) (length : Nat) (ok : Bool)
  | closeFd (fd : Int)
  /-- A function of `V4L2Camera` returns, without or with an error. -/
  | ret (fn : CameraFn) (ok : Bool)
  /-- A conversion reads so many bytes from the start of a frame. -/
  | readFrame (conversion : Conversion) (frame : Ptr) (bytes : Nat)
  /-- A conversion writes so many bytes from the start of a window buffer; `locked` if
  `mapper.lock` returned its address. -/
  | writeWindow (locked : Bool) (stride : Nat) (bytes : Nat)
  | notifyFn (msgType : BitVec 32)
  /-- `mDataFn` is given a picture, or none. -/
  | dataFn (msgType : BitVec 32) (picture : Bool)
  /-- A call of the window or of the mapper. -/
  | window (operation : String) (ok : Bool)
  /-- Assignments to members. -/
  | assign (member : String)
  deriving DecidableEq, Repr

/-- Does the action access a frame or a window buffer? -/
def Event.isAccess : Event → Bool
  | readFrame _ _ _ | writeWindow _ _ _ => true
  | _ => false

/-- Is the action one on a frame or on the window, as opposed to one on the session? -/
def Event.isFramed : Event → Bool
  | readFrame _ _ _ | writeWindow _ _ _ | dataFn _ _ | window _ _ => true
  | qbuf fn _ _ => fn != .init
  | dqbuf fn _ _ => fn != .uninit
  | _ => false

/-- What holds of all actions but accesses holds of the actions on the session. -/
theorem Event.of_not_isFramed {P : Event → CameraHardware → Prop}
    (hP : ∀ e t, e.isAccess = false → P e t) (e : Event) (t : CameraHardware)
    (he : e.isFramed = false) : P e t := by
  refine hP e t ?_
  cases e with
  | readFrame | writeWindow => cases he
  | openDevice | ioctl | qbuf | dqbuf | mmap | munmap | closeFd | ret | notifyFn | dataFn | window
  | assign => rfl

/-- Is the action the return of a function that works on the buffers, or a `VIDIOC_DQBUF`
of `Uninit`? -/
def Event.isCounted : Event → Bool
  | ret fn _ => fn != .open && fn != .startStreaming
  | dqbuf fn _ _ => fn == .uninit
  | _ => false

/-- Does the action take a mapping away, or is it the return of `Close`? -/
def Event.isRelease : Event → Bool
  | munmap _ _ _ => true
  | ret fn _ => fn == .close
  | _ => false

/-- The code of `libcamera`. -/
abbrev CameraM (α : Type) := Prog CameraHardware Event α

/-! ## §6 Calls That Can Fail -/

namespace CameraHardware

variable (s : CameraHardware)

/-- The answer to the `n`-th call from now on. -/
def answerAt (n : Nat) : Answer := s.kernel.answerAt n

/-- The next call has its answer. -/
def answered : CameraHardware := { s with kernel := s.kernel.answered }

/-- Is the camera's descriptor open? -/
def fdOpen : Bool := decide (s.camera.fd ∈ s.kernel.openFds)

/-- What the next call returns: its answer, if that says success and the call is allowed. -/
def outcome (allowed : Answer → Bool) : Option Answer :=
  if (s.answerAt 0).ok && allowed (s.answerAt 0) then some (s.answerAt 0) else none

theorem outcome_eq_some {allowed : Answer → Bool} {a : Answer} :
    s.outcome allowed = some a ↔ (s.answerAt 0).ok ∧ allowed (s.answerAt 0) ∧ a = s.answerAt 0 := by
  rw [outcome]
  split
  · next hok =>
    rw [Bool.and_eq_true] at hok
    simp [hok, eq_comm]
  · next hno =>
    rw [Bool.and_eq_true] at hno
    simp only [reduceCtorEq, false_iff]
    exact fun h => hno ⟨h.1, h.2.1⟩

theorem outcome_eq_none {allowed : Answer → Bool} :
    s.outcome allowed = none ↔ ¬((s.answerAt 0).ok ∧ allowed (s.answerAt 0)) := by
  rw [outcome]
  split <;> simp_all

end CameraHardware

/-- One call that can fail.  It takes the next answer; its event and its effect depend on
the outcome. -/
def request (allowed : CameraHardware → Answer → Bool)
    (event : CameraHardware → Option Answer → Event)
    (effect : Option Answer → CameraHardware → CameraHardware) : CameraM (Option Answer) := do
  let s ← read
  act (event s (s.outcome (allowed s))) fun t => effect (s.outcome (allowed s)) t.answered
  pure (s.outcome (allowed s))

section Request

variable (allowed : CameraHardware → Answer → Bool)
variable (event : CameraHardware → Option Answer → Event)
variable (effect : Option Answer → CameraHardware → CameraHardware) (s : CameraHardware)

@[simp] theorem val_request :
    (request allowed event effect).val s = s.outcome (allowed s) := (rfl)

@[simp] theorem exec_request :
    (request allowed event effect).exec s = effect (s.outcome (allowed s)) s.answered := (rfl)

@[simp] theorem emits_request {P : Event → CameraHardware → Prop} :
    Emits P (request allowed event effect) s ↔
      P (event s (s.outcome (allowed s))) (effect (s.outcome (allowed s)) s.answered) := by
  simp [request]

@[simp] theorem takes_request {P : CameraHardware → Event → CameraHardware → Prop} :
    Takes P (request allowed event effect) s ↔
      P s (event s (s.outcome (allowed s))) (effect (s.outcome (allowed s)) s.answered) := by
  simp [request]

theorem frames_request {P : CameraHardware → Event → CameraHardware → Prop}
    (h : ∀ s r, P s (event s r) (effect r s.answered)) :
    Frames P (request allowed event effect) :=
  fun s => (takes_request allowed event effect s).mpr (h s _)

/-- A call keeps what its effect keeps, whatever the outcome. -/
theorem keeps_request {I : CameraHardware → Prop} {P : Event → CameraHardware → Prop}
    (h : ∀ s r, I s → s.outcome (allowed s) = r →
      I (effect r s.answered) ∧ P (event s r) (effect r s.answered)) :
    Keeps I P (request allowed event effect) := by
  intro s hs
  obtain ⟨hI, hP⟩ := h s (s.outcome (allowed s)) hs rfl
  exact ⟨hI, (emits_request allowed event effect s).mpr hP⟩

theorem triple_request {pre : CameraHardware → Prop} {P : Event → CameraHardware → Prop}
    {post : Option Answer → CameraHardware → Prop}
    (h : ∀ s r, pre s → s.outcome (allowed s) = r →
      P (event s r) (effect r s.answered) ∧ post r (effect r s.answered)) :
    Triple pre P (request allowed event effect) post := by
  intro s hs
  obtain ⟨hP, hpost⟩ := h s (s.outcome (allowed s)) hs rfl
  exact ⟨(emits_request allowed event effect s).mpr hP, hpost⟩

theorem leaves_request {γ : Type} {g : CameraHardware → γ} {P : Event → CameraHardware → Prop}
    (hevent : ∀ s r t, P (event s r) t) (heffect : ∀ r s, g (effect r s.answered) = g s) :
    Leaves g P (request allowed event effect) :=
  fun _ => keeps_request allowed event effect fun s r hs _ =>
    ⟨(heffect r s).trans hs, hevent s r _⟩

/-- A call and the test of its outcome: `p` starts where the call has failed, `q` where it
has succeeded. -/
theorem triple_request_ite {α : Type} {pre : CameraHardware → Prop}
    {P : Event → CameraHardware → Prop} {p : CameraM α} {q : CameraM α}
    {post : α → CameraHardware → Prop} (failed succeeded : CameraHardware → Prop)
    (hfailed : ∀ s, pre s → s.outcome (allowed s) = none →
      P (event s none) (effect none s.answered) ∧ failed (effect none s.answered))
    (hsucceeded : ∀ s a, pre s → s.outcome (allowed s) = some a →
      P (event s (some a)) (effect (some a) s.answered) ∧
        succeeded (effect (some a) s.answered))
    (hp : Triple failed P p post) (hq : Triple succeeded P q post) :
    Triple pre P (do let r ← request allowed event effect; if r.isNone then p else q) post := by
  have hcall : Triple pre P (request allowed event effect)
      fun r t => if r.isNone then failed t else succeeded t := by
    apply triple_request
    intro s r hs hr
    -- the call failed or went through
    cases r with
    | none => exact hfailed s hs hr
    | some a => exact hsucceeded s a hs hr
  apply hcall.bind
  intro r
  cases r with
  | none => exact hp.mono (fun _ h => h) fun _ _ h => h
  | some a => exact hq.mono (fun _ h => h) fun _ _ h => h

end Request

/-- An assignment to a member. -/
def assign (member : String) (f : CameraHardware → CameraHardware) : CameraM Unit :=
  act (.assign member) f

/-- A function of `V4L2Camera` returns. -/
def ret (fn : CameraFn) (ok : Bool) : CameraM Unit := act (.ret fn ok) id

end OdroidU2.Camera
