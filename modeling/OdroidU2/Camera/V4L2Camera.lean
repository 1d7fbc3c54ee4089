import OdroidU2.Camera.Kernel

/-!
# `V4L2Camera`

`V4L2Camera.cpp`, function by function: opening a video node, the four capture buffers
and their mappings, streaming, and the frames that pass between the driver and the
camera.  A function's value is its return value; it logs a `ret` event when it returns.
-/

namespace OdroidU2.Camera

open OdroidU2.Foundations Prog

namespace V4L2Camera

/-! ## §1 `Open` and `Close` -/

/-- `fd = open(device, O_RDWR)` of the video node with that number -/
def sysOpen (device : Nat) : CameraM (Option Answer) :=
  request (fun _ _ => true) (fun _ r => .openDevice device r.isSome) fun r s =>
    match r with
    | some _ => { s with kernel := s.kernel.openFile, camera.fd := s.kernel.nextFd }
    | none => { s with camera.fd := -1 }

/-- An `ioctl` on the camera's descriptor that succeeds whenever its answer says so. -/
def ioctl (name : String) (effect : Answer → CameraHardware → CameraHardware) :
    CameraM (Option Answer) :=
  request (fun s _ => s.fdOpen) (fun _ r => .ioctl name r.isSome) fun r s =>
    match r with
    | some a => effect a s
    | none => s

/-- `VIDIOC_QUERYCAP` -/
def queryCap : CameraM (Option Answer) := ioctl "VIDIOC_QUERYCAP" fun _ s => s

/-- The size and the format that are asked for.  `width * height << 1` is computed in
`int`. -/
def setSize (width height : Int) (pixelformat : Nat) (s : CameraHardware) : CameraHardware :=
  { s with
    camera.videoIn.width := width
    camera.videoIn.height := height
    camera.videoIn.framesizeIn := int32 (int32 (width * height) * 2)
    camera.videoIn.format := ⟨width, height, pixelformat⟩ }

/-- `VIDIOC_S_FMT`: the driver writes the format it settles on into the argument. -/
def setFormat : CameraM (Option Answer) :=
  ioctl "VIDIOC_S_FMT" fun a s => { s with camera.videoIn.format := a.format }

/-- The end of a function that returns an error. -/
def fail (fn : CameraFn) : CameraM Int := do
  ret fn false
  pure (-1)

/-- The end of a function that returns 0. -/
def succeed (fn : CameraFn) : CameraM Int := do
  ret fn true
  pure 0

/-- `Open` -/
def «open» (device : Nat) (width height : Int) (pixelformat : Nat) : CameraM Int := do
  let fd ← sysOpen device
  if fd.isNone then fail .open
  else do
    let cap ← queryCap
    if cap.isNone then fail .open
    else if cap.any fun a => !a.capture then fail .open
    else if cap.any fun a => !a.streaming then fail .open
    else do
      assign "videoIn->format" (setSize width height pixelformat)
      let format ← setFormat
      if format.isNone then fail .open
      else succeed .open

/-- `close(fd)` ends the session as far as the driver is concerned. -/
def sysClose (s : CameraHardware) : CameraHardware :=
  { s with kernel := s.kernel.closeFile s.camera.fd, session := false }

/-- `Close` -/
def close : CameraM Unit := do
  let s ← read
  act (.closeFd s.camera.fd) sysClose
  ret .close true

/-! ## §2 Requests on the Capture Buffers -/

/-- `VIDIOC_REQBUFS` -/
def requestBuffers : CameraM (Option Answer) :=
  ioctl "VIDIOC_REQBUFS" fun a s =>
    { s with kernel := s.kernel.requestBuffers a.count, session := true }

/-- `memset (&videoIn->buf, 0, sizeof (struct v4l2_buffer))` and `videoIn->buf.index = i` -/
def clearBuf (i : Nat) : CameraM Unit :=
  assign "videoIn->buf" fun s => { s with camera.videoIn.buf := ⟨i, 0, 0⟩ }

/-- `VIDIOC_QUERYBUF` of the buffer in `videoIn->buf` -/
def queryBuffer : CameraM (Option Answer) :=
  request (fun s _ => s.fdOpen && decide (s.camera.videoIn.buf.index < s.kernel.count))
    (fun _ r => .ioctl "VIDIOC_QUERYBUF" r.isSome) fun r s =>
    match r with
    | some a =>
      { s with
        kernel := s.kernel.queryBuffer s.camera.videoIn.buf.index a.length
        camera.videoIn.buf.length := a.length }
    | none => s

/-- The mapping that `mmap` makes of the buffer in `videoIn->buf`. -/
def bufMapping (s : CameraHardware) : Mapping :=
  ⟨s.camera.fd, s.camera.videoIn.buf.index, s.camera.videoIn.buf.length⟩

/-- `videoIn->mem[i] = mmap (0, videoIn->buf.length, ..)` -/
def mapBuffer (i : Nat) : CameraM (Option Answer) :=
  request (fun s _ => s.fdOpen) (fun _ r => .mmap i r.isSome) fun r s =>
    match r with
    | some _ =>
      { s with
        kernel := s.kernel.mmap (bufMapping s)
        camera.videoIn.mem :=
          Function.update s.camera.videoIn.mem i (.map (bufMapping s)) }
    | none => { s with camera.videoIn.mem := Function.update s.camera.videoIn.mem i .failed }

/-- Does the driver accept the buffer in `videoIn->buf`? -/
def queues (s : CameraHardware) : Bool :=
  s.fdOpen && decide (s.camera.videoIn.buf.index < s.kernel.count) &&
    decide (s.camera.videoIn.buf.index ∉ s.kernel.held)

/-- `VIDIOC_QBUF` of the buffer in `videoIn->buf` -/
def queueBuffer (fn : CameraFn) : CameraM (Option Answer) :=
  request (fun s _ => queues s) (fun s r => .qbuf fn s.camera.videoIn.buf.index r.isSome)
    fun r s =>
    match r with
    | some _ => { s with kernel := s.kernel.queue s.camera.videoIn.buf.index }
    | none => s

/-- Does the driver have the buffer that the answer names? -/
def dequeues (s : CameraHardware) (a : Answer) : Bool :=
  s.fdOpen && decide (a.index ∈ s.kernel.held)

/-- `VIDIOC_DQBUF` into `videoIn->buf` -/
def dequeueBuffer (fn : CameraFn) : CameraM (Option Answer) :=
  request dequeues (fun s r => .dqbuf fn s.kernel.held.length r.isSome) fun r s =>
    match r with
    | some a =>
      { s with
        kernel := s.kernel.dequeue a.index
        camera.videoIn.buf := ⟨a.index, s.kernel.lengths a.index, a.bytesused⟩ }
    | none => s

/-- `nQueued++` -/
def countQueued : CameraM Unit :=
  assign "nQueued" fun s => { s with camera.nQueued := int32 (s.camera.nQueued + 1) }

/-- `nDequeued++` -/
def countDequeued : CameraM Unit :=
  assign "nDequeued" fun s => { s with camera.nDequeued := int32 (s.camera.nDequeued + 1) }

/-! ## §3 `Init` and `Uninit` -/

/-- The loop of `Init` from buffer `i` on, with `n` rounds to go. -/
def initFrom (i : Nat) : Nat → CameraM Int
  | 0 => succeed .init
  | n + 1 => do
    clearBuf i
    let length ← queryBuffer
    if length.isNone then fail .init
    else do
      let mapped ← mapBuffer i
      if mapped.isNone then fail .init
      else do
        let queued ← queueBuffer .init
        if queued.isNone then fail .init
        else do
          countQueued
          initFrom (i + 1) n

/-- `Init` -/
def init : CameraM Int := do
  let granted ← requestBuffers
  if granted.isNone then fail .init
  else initFrom 0 nbBuffer

/-- `VIDIOC_DQBUF`, so many times; a failure is only logged. -/
def dequeueTimes : Nat → CameraM Unit
  | 0 => pure ()
  | n + 1 => do
    let _ ← dequeueBuffer .uninit
    dequeueTimes n

/-- `munmap(videoIn->mem[i], videoIn->buf.length)`; a failure is only logged. -/
def unmapBuffer (i : Nat) : CameraM (Option Answer) := do
  let s ← read
  request (fun _ _ => true)
    (fun _ r => .munmap (s.camera.videoIn.mem i) s.camera.videoIn.buf.length r.isSome) fun r t =>
    match r with
    | some _ =>
      { t with kernel := t.kernel.munmap (s.camera.videoIn.mem i) s.camera.videoIn.buf.length }
    | none => t

/-- The last loop of `Uninit`, with `n` rounds to go. -/
def unmapFrom (i : Nat) : Nat → CameraM Unit
  | 0 => pure ()
  | n + 1 => do
    let _ ← unmapBuffer i
    unmapFrom (i + 1) n

/-- `int DQcount = nQueued - nDequeued` -/
def dqCount (s : CameraHardware) : Int := int32 (s.camera.nQueued - s.camera.nDequeued)

/-- `nQueued = 0; nDequeued = 0;` -/
def resetCounters : CameraM Unit :=
  assign "nQueued, nDequeued" fun s => { s with camera.nQueued := 0, camera.nDequeued := 0 }

/-- `Uninit` dequeues one buffer less than the counters say. -/
def uninit : CameraM Unit := do
  let s ← read
  dequeueTimes (int32 (dqCount s - 1)).toNat
  resetCounters
  unmapFrom 0 nbBuffer
  act (.ret .uninit true) fun t => { t with session := false }

/-! ## §4 Streaming -/

/-- `StartStreaming` -/
def startStreaming : CameraM Int := do
  let s ← read
  if s.camera.videoIn.isStreaming then succeed .startStreaming
  else do
    let on ← ioctl "VIDIOC_STREAMON" fun _ t => { t with kernel := t.kernel.streamStart }
    if on.isNone then fail .startStreaming
    else do
      assign "videoIn->isStreaming" fun t => { t with camera.videoIn.isStreaming := true }
      succeed .startStreaming

/-- `StopStreaming` -/
def stopStreaming : CameraM Int := do
  let s ← read
  if s.camera.videoIn.isStreaming then do
    let off ← ioctl "VIDIOC_STREAMOFF" fun _ t => { t with kernel := t.kernel.streamStop }
    if off.isNone then fail .stopStreaming
    else do
      assign "videoIn->isStreaming" fun t => { t with camera.videoIn.isStreaming := false }
      succeed .stopStreaming
  else succeed .stopStreaming

/-! ## §5 Frames -/

/-- `videoIn->mem[videoIn->buf.index]` -/
def frame (s : CameraHardware) : Ptr := s.camera.videoIn.mem s.camera.videoIn.buf.index

/-- `GrabPreviewFrame` -/
def grabPreviewFrame : CameraM Ptr := do
  let r ← dequeueBuffer .grabPreviewFrame
  if r.isNone then do
    ret .grabPreviewFrame false
    pure .null
  else do
    countDequeued
    ret .grabPreviewFrame true
    let s ← read
    pure (frame s)

/-- `ReleasePreviewFrame` counts the buffer as queued before it looks at the result. -/
def releasePreviewFrame : CameraM Unit := do
  let r ← queueBuffer .releasePreviewFrame
  countQueued
  ret .releasePreviewFrame r.isSome

/-- How many bytes `saveYUYVtoJPEG` reads: four for every two pixels, over all rows.  An
empty image, or one of more than `JPEG_MAX_DIMENSION` pixels a side, is refused by the
compressor before the first row. -/
def saveYUYVtoJPEGBytes (width height : Int) : Nat :=
  if 0 < width ∧ width ≤ 65500 ∧ 0 < height ∧ height ≤ 65500 then
    4 * ((width * height + 1) / 2).toNat
  else 0

/-- `GrabJpegFrame` queues the buffer again before the picture is made from it.  The value
tells whether there is a picture. -/
def grabJpegFrame : CameraM Bool := do
  let r ← dequeueBuffer .grabJpegFrame
  if r.isNone then do
    ret .grabJpegFrame false
    pure false
  else do
    countDequeued
    let queued ← queueBuffer .grabJpegFrame
    if queued.isNone then do
      ret .grabJpegFrame false
      pure false
    else do
      countQueued
      let s ← read
      act (.readFrame .saveYUYVtoJPEG (frame s)
        (saveYUYVtoJPEGBytes s.camera.videoIn.width s.camera.videoIn.height)) id
      ret .grabJpegFrame true
      pure true

end V4L2Camera

end OdroidU2.Camera
