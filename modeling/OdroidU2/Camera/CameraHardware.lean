import OdroidU2.Camera.V4L2Camera
import OdroidU2.Foundations.Machine

/-!
# `CameraHardware`

The calls of `CameraHardware.cpp` that reach the capture device, and the machine they make
up together with the preview thread.  The client's calls come one after the other.  The
preview thread runs beside them: it reads the preview size without the lock, and does the
rest of an iteration with `mLock` held, so an iteration is two steps and every other call
is one.
-/

namespace OdroidU2.Camera

open OdroidU2.Foundations Prog

namespace CameraHardware

/-! ## §1 Constants -/

/-- `MAX_VIDEONODE` -/
def maxVideonode : Nat := 5

/-- `MIN_VIDEONODE` -/
def minVideonode : Nat := 4

/-- `PIXEL_FORMAT`, that is `V4L2_PIX_FMT_YUYV` -/
def pixelFormat : Nat := 0x56595559

/-- `CAMERA_MSG_SHUTTER` -/
def msgShutter : BitVec 32 := 0x2#32

/-- `CAMERA_MSG_PREVIEW_FRAME` -/
def msgPreviewFrame : BitVec 32 := 0x10#32

/-- `CAMERA_MSG_VIDEO_FRAME` -/
def msgVideoFrame : BitVec 32 := 0x20#32

/-- `CAMERA_MSG_COMPRESSED_IMAGE` -/
def msgCompressedImage : BitVec 32 := 0x100#32

/-- `INVALID_OPERATION`, that is `-ENOSYS` -/
def invalidOperation : Int := -38

/-- `ENODEV` -/
def enodev : Int := 19

/-- `mMsgEnabled & msgType` -/
def msgEnabled (s : CameraHardware) (msgType : BitVec 32) : Bool := s.mMsgEnabled &&& msgType != 0

/-! ## §2 Parameters, Messages and the Window -/

/-- `setParameters` checks the picture format and nothing else. -/
def setParameters (params : CameraParameters) : CameraM Int := do
  if params.pictureFormat ≠ "jpeg" then pure (-1)
  else do
    assign "mParameters" fun s => { s with mParameters := params }
    pure 0

/-- `enableMsgType` -/
def enableMsgType (msgType : BitVec 32) : CameraM Unit :=
  assign "mMsgEnabled" fun s => { s with mMsgEnabled := s.mMsgEnabled ||| msgType }

/-- `disableMsgType` -/
def disableMsgType (msgType : BitVec 32) : CameraM Unit :=
  assign "mMsgEnabled" fun s => { s with mMsgEnabled := s.mMsgEnabled &&& ~~~msgType }

/-- `msgTypeEnabled` -/
def msgTypeEnabled (msgType : BitVec 32) : CameraM Bool := do
  let s ← read
  pure (s.msgEnabled msgType)

/-- A call of the window whose result is ignored. -/
def windowCall (operation : String) (f : CameraHardware → CameraHardware := id) : CameraM Unit :=
  act (.window operation true) f

/-- `set_buffers_geometry` -/
def setBuffersGeometry (width height : Int) : CameraM Unit :=
  windowCall "set_buffers_geometry" fun s => { s with geometry := (width, height) }

/-- `err = set_buffer_count(..)` -/
def setBufferCount : CameraM Int := do
  let s ← read
  act (.window "set_buffer_count" ((s.answerAt 0).err == 0)) answered
  pure (s.answerAt 0).err

/-- `setPreviewWindow` with a window, or with `NULL` -/
def setPreviewWindow (window : Bool) : CameraM Int := do
  let s ← read
  when s.mNativeWindow (assign "mNativeWindow" fun t => { t with mNativeWindow := false })
  if !window then pure 0
  else do
    assign "mNativeWindow" fun t => { t with mNativeWindow := true }
    windowCall "set_usage"
    setBuffersGeometry s.mParameters.previewWidth s.mParameters.previewHeight
    let err ← setBufferCount
    when (err ≠ 0 ∧ enodev = err)
      (assign "mNativeWindow" fun t => { t with mNativeWindow := false })
    pure 0

/-! ## §3 The Conversions of the Preview -/

/-- How many bytes `convertYUYVtoRGB565` reads, and writes: the loop takes four from every
`y` below `blocks`.  Above `2^31 - 4` the counter wraps before it gets there and the loop
goes through the whole address space. -/
def convertYUYVtoRGB565Bytes (width height : Int) : Nat :=
  let blocks := int32 (int32 (width * height) * 2)
  if blocks ≤ 2 ^ 31 - 4 then 4 * ((blocks + 3) / 4).toNat else 2 ^ 32

/-- How many bytes `yuyv422_to_yuv420sp` reads.  The inner loop loads 16 bytes of each of
two rows and counts down by eight pixels, the outer one skips a row and counts down by two;
both test at the end, so each runs at least once. -/
def yuyv422ToYuv420spBytes (width height : Int) : Nat :=
  let loads := (max 1 ((width + 7) / 8)).toNat
  let passes := (max 1 ((height + 1) / 2)).toNat
  passes * (16 * loads + (2 * width % 2 ^ 32).toNat)

/-- `convertYUYVtoRGB565(tempbuf, dst, width, height)` -/
def convertYUYVtoRGB565 (tempbuf : Ptr) (locked : Bool) (stride : Nat) (width height : Int) :
    CameraM Unit := do
  act (.readFrame .convertYUYVtoRGB565 tempbuf (convertYUYVtoRGB565Bytes width height)) id
  act (.writeWindow locked stride (convertYUYVtoRGB565Bytes width height)) id

/-- `yuyv422_to_yuv420sp(tempbuf, picture->data, width, height)` -/
def yuyv422ToYuv420sp (tempbuf : Ptr) (width height : Int) : CameraM Unit :=
  act (.readFrame .yuyv422ToYuv420sp tempbuf (yuyv422ToYuv420spBytes width height)) id

/-! ## §4 The Preview Thread -/

/-- `dequeue_buffer` -/
def dequeueWindow : CameraM (Option Answer) :=
  request (fun _ _ => true) (fun _ r => .window "dequeue_buffer" r.isSome) fun _ s => s

/-- `mapper.lock` -/
def mapperLock : CameraM (Option Answer) :=
  request (fun _ _ => true) (fun _ r => .window "mapper.lock" r.isSome) fun _ s => s

/-- `previewThread` up to the lock: the preview size, and whether to go on. -/
def previewThread : CameraM Unit := do
  let s ← read
  when (!s.previewStopped) (assign "width, height" fun t =>
    { t with iteration := some (s.mParameters.previewWidth, s.mParameters.previewHeight) })

/-- What `previewThread` does with a window buffer of that stride. -/
def previewFrame (stride : Nat) (width height : Int) : CameraM Unit := do
  windowCall "lock_buffer"
  -- the result is tested, but the `if` ends in an empty statement
  let dst ← mapperLock
  let tempbuf ← V4L2Camera.grabPreviewFrame
  convertYUYVtoRGB565 tempbuf dst.isSome stride width height
  windowCall "mapper.unlock"
  windowCall "enqueue_buffer"
  let s ← read
  when (s.msgEnabled msgPreviewFrame || s.msgEnabled msgVideoFrame) (do
    yuyv422ToYuv420sp tempbuf width height
    act (.dataFn msgPreviewFrame true) id)
  V4L2Camera.releasePreviewFrame

/-- `previewThread` from the lock on.  When `dequeue_buffer` fails it returns with `mLock`
held. -/
def previewThreadLocked : CameraM Unit := do
  let s ← read
  match s.iteration with
  | none => pure ()
  | some (width, height) => do
    assign "width, height" fun t => { t with iteration := none }
    when s.mNativeWindow (do
      let r ← dequeueWindow
      match r with
      | none => assign "mLock" fun t => { t with mLockLeft := true }
      | some a => previewFrame a.stride width height)

/-! ## §5 Starting and Stopping -/

/-- The loop over the video nodes, from `MAX_VIDEONODE` down to `MIN_VIDEONODE`. -/
def openNode (width height : Int) : CameraM Int := do
  let ret ← V4L2Camera.open maxVideonode width height pixelFormat
  if 0 ≤ ret then pure ret
  else V4L2Camera.open minVideonode width height pixelFormat

/-- `startPreview` -/
def startPreview : CameraM Int := do
  let s ← read
  if s.mPreviewThread then pure invalidOperation
  else do
    let width := s.mParameters.previewWidth
    let height := s.mParameters.previewHeight
    let opened ← openNode width height
    if opened < 0 then pure (-1)
    else do
      assign "mPreviewFrameSize" fun t =>
        { t with mPreviewFrameSize := int32 (int32 (width * height) * 2) }
      let ret ← V4L2Camera.init
      if ret ≠ 0 then do
        V4L2Camera.close
        pure ret
      else do
        let ret ← V4L2Camera.startStreaming
        if ret ≠ 0 then do
          V4L2Camera.uninit
          V4L2Camera.close
          pure ret
        else do
          assign "previewStopped" fun t => { t with previewStopped := false }
          assign "mPreviewThread" fun t => { t with mPreviewThread := true }
          pure 0

/-- What `stopPreview` does once the preview thread has exited. -/
def shutDown : CameraM Unit := do
  V4L2Camera.uninit
  let _ ← V4L2Camera.stopStreaming
  V4L2Camera.close

/-- `stopPreview` -/
def stopPreview : CameraM Unit := do
  assign "previewStopped" fun s => { s with previewStopped := true }
  let s ← read
  when s.mPreviewThread shutDown
  assign "mPreviewThread" fun t => { t with mPreviewThread := false }

/-- The picture that `pictureThread` takes if the client wants one. -/
def compressedImage : CameraM Unit := do
  let s ← read
  when (s.msgEnabled msgCompressedImage) (do
    let picture ← V4L2Camera.grabJpegFrame
    act (.dataFn msgCompressedImage picture) id)

/-- `pictureThread` ignores what `Init` and `StartStreaming` return. -/
def pictureThread : CameraM Int := do
  let s ← read
  when (s.msgEnabled msgShutter) (act (.notifyFn msgShutter) id)
  let opened ← openNode s.mParameters.previewWidth s.mParameters.previewHeight
  if opened < 0 then pure (-1)
  else do
    let _ ← V4L2Camera.init
    let _ ← V4L2Camera.startStreaming
    compressedImage
    shutDown
    pure 0

/-- `takePicture` -/
def takePicture : CameraM Int := do
  stopPreview
  let _ ← pictureThread
  pure 0

/-- `release` closes `camera_device`.  Nothing ever assigns that member, so the descriptor is any
number. -/
def release (cameraDevice : Int) : CameraM Unit :=
  act (.closeFd cameraDevice) fun s => { s with kernel := s.kernel.closeFile cameraDevice }

end CameraHardware

/-! ## §6 The Machine -/

/-- The client's calls, and the two halves of an iteration of the preview thread. -/
inductive Call where
  | setPreviewWindow (window : Bool)
  | setParameters (params : CameraParameters)
  | enableMsgType (msgType : BitVec 32)
  | disableMsgType (msgType : BitVec 32)
  | startPreview
  | stopPreview
  | takePicture
  | previewThread
  | previewThreadLocked

namespace Call

/-- What a call does, without its value. -/
def code : Call → CameraM Unit
  | setPreviewWindow window => do let _ ← CameraHardware.setPreviewWindow window
  | setParameters params => do let _ ← CameraHardware.setParameters params
  | enableMsgType msgType => CameraHardware.enableMsgType msgType
  | disableMsgType msgType => CameraHardware.disableMsgType msgType
  | startPreview => do let _ ← CameraHardware.startPreview
  | stopPreview => CameraHardware.stopPreview
  | takePicture => do let _ ← CameraHardware.takePicture
  | previewThread => CameraHardware.previewThread
  | previewThreadLocked => CameraHardware.previewThreadLocked

/-- Can the call go through?  All but the unlocked half of an iteration take `mLock`, and
`stopPreview`, which `takePicture` calls, waits until the iteration has ended. -/
def enabled (s : CameraHardware) : Call → Bool
  | previewThread => s.mPreviewThread && s.iteration.isNone
  | previewThreadLocked => s.iteration.isSome && !s.mLockLeft
  | stopPreview | takePicture => !s.mLockLeft && s.iteration.isNone
  | _ => !s.mLockLeft

end Call

/-- A call, with what the kernel and the window system answer during it. -/
structure Step where
  call : Call
  answers : List Answer

/-- The state a step starts from. -/
def Step.start (step : Step) (s : CameraHardware) : CameraHardware :=
  { s with kernel.answers := step.answers }

/-- `CameraHardware` with its preview thread. -/
def cameraMachine : Machine CameraHardware Step where
  step s a := if a.call.enabled s then some (a.call.code.exec (a.start s)) else none

/-- Every action of a step satisfies `P`. -/
def StepEmits (P : Event → CameraHardware → Prop) (s : CameraHardware) (a : Step) : Prop :=
  a.call.enabled s → Emits P a.call.code (a.start s)

instance {P : Event → CameraHardware → Prop} [∀ e t, Decidable (P e t)] (s : CameraHardware)
    (a : Step) : Decidable (StepEmits P s a) :=
  inferInstanceAs (Decidable (_ → ∀ e ∈ a.call.code.log (a.start s), P e.1 e.2))

/-- A new `CameraHardware`.  The constructors set the default parameters and leave the
descriptor as it is in memory. -/
def created (fd : Int) : CameraHardware where
  camera :=
    { videoIn :=
        { format := ⟨0, 0, 0⟩, buf := ⟨0, 0, 0⟩, mem := fun _ => .null, isStreaming := false
          width := 0, height := 0, framesizeIn := 0 }
      fd := fd, nQueued := 0, nDequeued := 0 }
  kernel :=
    { answers := [], openFds := [], nextFd := 0, maps := [], count := 0, lengths := fun _ => 0
      held := [], streamOn := false }
  mParameters := ⟨320, 240, "jpeg"⟩
  mNativeWindow := false
  geometry := (0, 0)
  previewStopped := true
  mPreviewThread := false
  mPreviewFrameSize := 0
  mMsgEnabled := 0
  mLockLeft := false
  iteration := none
  session := false

/-- The answers to `startPreview` of a driver that does all it is asked for, with buffers of
that length. -/
def previewAnswers (length : Nat) : List Answer :=
  [{ ok := true }, { ok := true }, { ok := true }, { ok := true, count := 4 }] ++
    (List.replicate nbBuffer [{ ok := true, length := length }, { ok := true }, { ok := true }]).flatten ++
    [{ ok := true }]

end OdroidU2.Camera
