import OdroidU2.Camera.BufferOwnership
import OdroidU2.Camera.Samples
import OdroidU2.Camera.Yuv420sp

/-!
# What an Iteration Delivers

Two conversions read the frame of an iteration, one for the window and one for the client.  The
driver goes on storing into the buffers it holds.

- `Film` — the buffers' bytes from action to action
- `delivered` — what the window and the client get
- `iteration_delivers` — both get the frame as the driver handed it out
- `preview_delivers` — the bytes of the two pictures, in every run
-/

namespace OdroidU2.Camera

open OdroidU2.Foundations Prog Armv7

/-! ## §1 Frames over Time -/

/-- The bytes of the mapped buffers, before each action of a log and after the last. -/
abbrev Film := Nat → Mapping → Nat → UInt8

/-- The driver stores into the buffers it holds and nobody into the others. -/
def Steady : Film → CameraHardware → List (Event × CameraHardware) → Prop
  | _, _, [] => True
  | film, s, e :: log =>
    (∀ m : Mapping, m.index ∉ s.kernel.held → m.index ∉ e.2.kernel.held → film 1 m = film 0 m) ∧
      Steady (fun n => film (n + 1)) e.2 log

/-- What the preview gives away. -/
inductive Delivered where
  /-- Bytes from the start of a window buffer on. -/
  | window (rgb : List UInt8)
  /-- A picture for `mDataFn`. -/
  | client (msgType : BitVec 32) (picture : List UInt8)

/-- The picture that is there after an action; only a conversion makes another. -/
def made (convert : Conversion → (Nat → UInt8) → List UInt8) (bytes : Mapping → Nat → UInt8)
    (picture : List UInt8) : Event → List UInt8
  | .readFrame conversion (.map m) _ => convert conversion (bytes m)
  | _ => picture

/-- What an action gives away.  The bytes reach the window only at an address that `mapper.lock`
has returned. -/
def given (picture : List UInt8) : Event → List Delivered
  | .writeWindow true _ _ => [.window picture]
  | .dataFn msgType true => [.client msgType picture]
  | _ => []

/-- What a log gives away, if the conversions compute `convert`. -/
def delivered (convert : Conversion → (Nat → UInt8) → List UInt8) :
    Film → List UInt8 → List (Event × CameraHardware) → List Delivered
  | _, _, [] => []
  | film, picture, e :: log =>
    given picture e.1 ++
      delivered convert (fun n => film (n + 1)) (made convert (film 0) picture e.1) log

/-! ## §2 The Actions of an Iteration -/

theorem log_request (allowed : CameraHardware → Answer → Bool)
    (event : CameraHardware → Option Answer → Event)
    (effect : Option Answer → CameraHardware → CameraHardware) (s : CameraHardware) :
    (request allowed event effect).log s =
      [(event s (s.outcome (allowed s)), effect (s.outcome (allowed s)) s.answered)] := (rfl)

/-- The iteration gets a buffer of the window, its address, and a frame. -/
structure FrameComes (s : CameraHardware) : Prop where
  window : s.mNativeWindow = true
  buffer : (s.answerAt 0).ok = true
  lock : (s.answerAt 1).ok = true
  frame : (s.answerAt 2).ok = true
  held : (s.answerAt 2).index ∈ s.kernel.held

/-- The client wants the frames of the preview. -/
def wanted (s : CameraHardware) : Bool :=
  s.msgEnabled CameraHardware.msgPreviewFrame || s.msgEnabled CameraHardware.msgVideoFrame

theorem log_grabPreviewFrame {s : CameraHardware} {a : Answer}
    (h : s.outcome (V4L2Camera.dequeues s) = some a) :
    ∃ t, t.kernel = (V4L2Camera.grabbed s a).kernel ∧
      V4L2Camera.grabPreviewFrame.log s =
        [(.dqbuf .grabPreviewFrame s.kernel.held.length true, t),
          (.assign "nDequeued", V4L2Camera.grabbed s a),
          (.ret .grabPreviewFrame true, V4L2Camera.grabbed s a)] := by
  refine ⟨{ V4L2Camera.grabbed s a with camera.nDequeued := s.camera.nDequeued }, rfl, ?_⟩
  simp [V4L2Camera.grabPreviewFrame, V4L2Camera.dequeueBuffer, V4L2Camera.countDequeued, assign,
    ret, h, V4L2Camera.grabbed, log_request, CameraHardware.answered]

/-- `ReleasePreviewFrame` gives nothing away. -/
theorem given_releasePreviewFrame (s : CameraHardware) :
    V4L2Camera.releasePreviewFrame.Emits (fun e _ => ∀ picture, given picture e = []) s := by
  simp [V4L2Camera.releasePreviewFrame, V4L2Camera.queueBuffer, V4L2Camera.countQueued, assign, ret,
    given]

theorem delivered_of_given_nil {convert : Conversion → (Nat → UInt8) → List UInt8}
    {log : List (Event × CameraHardware)} (h : ∀ e ∈ log, ∀ picture, given picture e.1 = [])
    (film : Film) (picture : List UInt8) : delivered convert film picture log = [] := by
  induction log generalizing film picture with
  | nil => rfl
  | cons e log ih =>
    rw [delivered, h e List.mem_cons_self, List.nil_append]
    exact ih (fun e' he' => h e' (List.mem_cons_of_mem e he')) _ _

/-- The actions of an iteration with a window buffer, if `mapper.lock` returns its address. -/
theorem log_previewFrame {s : CameraHardware} {a : Answer} (hlock : (s.answerAt 0).ok = true)
    (h : s.answered.outcome (V4L2Camera.dequeues s.answered) = some a) (stride : Nat)
    (width height : Int) :
    ∃ t,
      let g := V4L2Camera.grabbed s.answered a
      t.kernel = g.kernel ∧
      (CameraHardware.previewFrame stride width height).log s =
        [(.window "lock_buffer" true, s), (.window "mapper.lock" true, s.answered),
          (.dqbuf .grabPreviewFrame s.kernel.held.length true, t), (.assign "nDequeued", g),
          (.ret .grabPreviewFrame true, g),
          (.readFrame .convertYUYVtoRGB565 (V4L2Camera.frame g)
            (CameraHardware.convertYUYVtoRGB565Bytes width height), g),
          (.writeWindow true stride (CameraHardware.convertYUYVtoRGB565Bytes width height), g),
          (.window "mapper.unlock" true, g), (.window "enqueue_buffer" true, g)] ++
        ((if wanted g then
            [(.readFrame .yuyv422ToYuv420sp (V4L2Camera.frame g)
                (CameraHardware.yuyv422ToYuv420spBytes width height), g),
              (.dataFn CameraHardware.msgPreviewFrame true, g)]
          else []) ++ V4L2Camera.releasePreviewFrame.log g) := by
  obtain ⟨t, ht, hlog⟩ := log_grabPreviewFrame h
  obtain ⟨hval, hexec⟩ := V4L2Camera.grabPreviewFrame_some h
  -- the surface is locked, so the conversion has a place to write to
  have hlocked : s.outcome (fun _ => true) = some (s.answerAt 0) :=
    (CameraHardware.outcome_eq_some _).mpr ⟨hlock, rfl, rfl⟩
  refine ⟨t, ht, ?_⟩
  simp [CameraHardware.previewFrame, CameraHardware.windowCall, CameraHardware.mapperLock,
    log_request, hlocked, hlog, hval, hexec, CameraHardware.convertYUYVtoRGB565,
    CameraHardware.yuyv422ToYuv420sp, wanted]
  rfl

/-! ## §3 One Iteration -/

section Iteration

variable {s : CameraHardware} {width height : Int}

/-- The state in which the frame is converted. -/
def atFrame (s : CameraHardware) : CameraHardware :=
  V4L2Camera.grabbed ({ s.answered with iteration := none } : CameraHardware).answered (s.answerAt 2)

/-- The driver hands out the buffer that its third answer names. -/
theorem FrameComes.outcome (hcomes : FrameComes s) (h : Running s) :
    let v : CameraHardware := { s.answered with iteration := none }
    v.answered.outcome (V4L2Camera.dequeues v.answered) = some (s.answerAt 2) := by
  intro v
  -- two answers are used up before VIDIOC_DQBUF is asked
  have hanswer : v.answered.answerAt 0 = s.answerAt 2 := by
    show (s.kernel.answered.answered).answerAt 0 = s.kernel.answerAt 2
    rw [Kernel.answered_answerAt, Kernel.answered_answerAt]
  have hopen : v.answered.fdOpen = true := h.fdOpen
  have hheld : (s.answerAt 2).index ∈ v.answered.kernel.held := hcomes.held
  refine (CameraHardware.outcome_eq_some _).mpr ?_
  rw [hanswer]
  refine ⟨hcomes.frame, ?_, rfl⟩
  rw [V4L2Camera.dequeues, hopen, decide_eq_true hheld]
  rfl

theorem log_previewThreadLocked (h : Running s) (hsize : s.iteration = some (width, height))
    (hcomes : FrameComes s) :
    ∃ t u v,
      t.kernel = (atFrame s).kernel ∧
      CameraHardware.previewThreadLocked.log s =
        [(.assign "width, height", u), (.window "dequeue_buffer" true, v),
          (.window "lock_buffer" true, v), (.window "mapper.lock" true, v.answered),
          (.dqbuf .grabPreviewFrame s.kernel.held.length true, t),
          (.assign "nDequeued", atFrame s), (.ret .grabPreviewFrame true, atFrame s),
          (.readFrame .convertYUYVtoRGB565 (V4L2Camera.frame (atFrame s))
            (CameraHardware.convertYUYVtoRGB565Bytes width height), atFrame s),
          (.writeWindow true (s.answerAt 0).stride
            (CameraHardware.convertYUYVtoRGB565Bytes width height), atFrame s),
          (.window "mapper.unlock" true, atFrame s), (.window "enqueue_buffer" true, atFrame s)] ++
        ((if wanted s then
            [(.readFrame .yuyv422ToYuv420sp (V4L2Camera.frame (atFrame s))
                (CameraHardware.yuyv422ToYuv420spBytes width height), atFrame s),
              (.dataFn CameraHardware.msgPreviewFrame true, atFrame s)]
          else []) ++ V4L2Camera.releasePreviewFrame.log (atFrame s)) := by
  have hlock : (({ s.answered with iteration := none } : CameraHardware).answerAt 0).ok = true := by
    -- the answer after the one to `dequeue_buffer`
    show (s.kernel.answered.answerAt 0).ok = true
    rw [Kernel.answered_answerAt]
    exact hcomes.lock
  obtain ⟨t, ht, hlog⟩ :=
    log_previewFrame hlock (hcomes.outcome h) (s.answerAt 0).stride width height
  have hbuffer : ({ s with iteration := none } : CameraHardware).outcome (fun _ => true) =
      some (s.answerAt 0) := (CameraHardware.outcome_eq_some _).mpr ⟨hcomes.buffer, rfl, rfl⟩
  refine ⟨t, { s with iteration := none }, { s.answered with iteration := none }, ht, ?_⟩
  simp only [CameraHardware.previewThreadLocked, log_bind, log_read, val_read, exec_read,
    List.nil_append, hsize, assign, log_act, exec_act, log_when, if_pos hcomes.window,
    CameraHardware.dequeueWindow, log_request, val_request, exec_request, hbuffer]
  exact congrArg (fun log => (Event.assign "width, height", { s with iteration := none }) ::
    (Event.window "dequeue_buffer" true, { s.answered with iteration := none }) :: log) hlog

/-- The buffer of the frame is not the driver's any more. -/
theorem atFrame_free (h : Running s) (hcomes : FrameComes s) :
    (s.answerAt 2).index ∉ (atFrame s).kernel.held ∧
      V4L2Camera.frame (atFrame s) = .map (bufferMapping s (s.answerAt 2).index) := by
  have hlt : (s.answerAt 2).index < nbBuffer := h.held_lt _ hcomes.held
  exact ⟨h.held_nodup.not_mem_erase, (h.mapped _ hlt).mem⟩

/-- **One iteration**: the window and the client, if it wants frames, get the frame as it was when
the driver handed it out. -/
theorem iteration_delivers (h : Running s) (hsize : s.iteration = some (width, height))
    (hcomes : FrameComes s) {film : Film}
    (hfilm : Steady film s (CameraHardware.previewThreadLocked.log s))
    (convert : Conversion → (Nat → UInt8) → List UInt8) :
    let frame := film 5 (bufferMapping s (s.answerAt 2).index)
    ((CameraHardware.previewThreadLocked.log s)[4]?.map Prod.fst =
        some (.dqbuf .grabPreviewFrame s.kernel.held.length true)) ∧
      delivered convert film [] (CameraHardware.previewThreadLocked.log s) =
        .window (convert .convertYUYVtoRGB565 frame) ::
          if wanted s then
            [.client CameraHardware.msgPreviewFrame (convert .yuyv422ToYuv420sp frame)]
          else [] := by
  obtain ⟨t, u, v, ht, hlog⟩ := log_previewThreadLocked h hsize hcomes
  obtain ⟨hfree, hframe⟩ := atFrame_free h hcomes
  rw [hlog] at hfilm ⊢
  have hrelease (film : Film) (picture : List UInt8) : delivered convert film picture
      (V4L2Camera.releasePreviewFrame.log (atFrame s)) = [] :=
    delivered_of_given_nil (given_releasePreviewFrame (atFrame s)) film picture
  have hm : (bufferMapping s (s.answerAt 2).index).index ∉ (atFrame s).kernel.held := hfree
  generalize bufferMapping s (s.answerAt 2).index = m at hframe hm ⊢
  simp only [List.cons_append, List.nil_append, Steady, Nat.zero_add, Nat.reduceAdd] at hfilm
  obtain ⟨-, -, -, -, -, h5, h6, h7, h8, h9, h10, -⟩ := hfilm
  -- from the dequeuing on the driver does not have the buffer
  have hwindow : film 7 m = film 5 m := (h6 m hm hm).trans (h5 m (ht ▸ hm) hm)
  have hclient : film 11 m = film 5 m :=
    ((h10 m hm hm).trans ((h9 m hm hm).trans ((h8 m hm hm).trans (h7 m hm hm)))).trans hwindow
  refine ⟨rfl, ?_⟩
  cases wanted s
  · simp [delivered, given, made, hframe, hrelease, hwindow]
  · simp [delivered, given, made, hframe, hrelease, hwindow, hclient]

end Iteration

/-! ## §4 The Pictures -/

namespace Yuv420spCall

variable (c : Yuv420spCall)

/-- The picture depends on the bytes of the frame only. -/
theorem converted_congr {b b' : Nat → UInt8} (h : ∀ k < c.frame.len, b k = b' k) {j : Nat}
    (hj : j < c.picture.len) : c.converted b j = c.converted b' j := by
  have hlen := c.frame_len
  have hpicture := c.picture_len
  have heven := c.area_even
  unfold converted
  -- a byte of luma reads one byte of the frame, a byte of chroma one of each of two rows
  by_cases hluma : j < c.width * c.height
  · rw [if_pos hluma, if_pos hluma, h _ (by omega)]
  · rw [if_neg hluma, if_neg hluma]
    have hwidth := c.width_pos
    have hx := Nat.mod_lt (j - c.width * c.height) hwidth
    have hr : 2 * ((j - c.width * c.height) / c.width) < c.height := by
      obtain ⟨p, hp⟩ := c.height_dvd
      have harea : c.width * c.height = 2 * (c.width * p) := by
        rw [hp, Nat.mul_left_comm]
      have hlt : (j - c.width * c.height) / c.width < p :=
        Nat.div_lt_of_lt_mul (by omega)
      omega
    have hrows := c.rows_le hr
    have hchroma : chromaAt ((j - c.width * c.height) % c.width) < 2 * c.width := by
      obtain ⟨m, hm⟩ := c.width_dvd
      unfold chromaAt
      split <;> omega
    dsimp only
    rw [h _ (by omega), h _ (by omega)]

/-- What the code leaves in the picture. -/
theorem code_makes (s : Cpu) :
    ∃ t, Reaches yuyv422ToYuv420sp (c.called s) t ∧ t.returned = some (s.reg .lr) ∧
      ∀ j < c.picture.len,
        t.mem (c.picture.addr j) = c.converted (fun k => s.mem (c.frame.addr k)) j := by
  obtain ⟨t, hreach, ht, hpc⟩ := c.at_last s
  exact ⟨_, hreach.trans ⟨1, ht.pop hpc⟩, rfl, fun j hj => ht.done j (done_all_iff.mpr hj)⟩

end Yuv420spCall

section Pictures

variable {R : Type} (D : Doubles R)

/-- The buffer after the conversion.  It is no projection, for the kernel would run the loop to
project from its result. -/
def Converting.picture (s : Converting) : List UInt8 := s.rgb

/-- What `convertYUYVtoRGB565` leaves in a buffer of its size. -/
def windowPicture (c : Yuv420spCall) (b : Nat → UInt8) : List UInt8 :=
  (convertYUYVtoRGB565 D b (List.replicate (2 * (c.width * c.height)) 0) c.width
    c.height).picture

/-- What `yuyv422_to_yuv420sp` leaves in the client's picture. -/
def clientPicture (c : Yuv420spCall) (b : Nat → UInt8) : List UInt8 :=
  (List.range c.picture.len).map (c.converted b)

/-- The conversions, for the size of the call. -/
def converters (c : Yuv420spCall) : Conversion → (Nat → UInt8) → List UInt8
  | .convertYUYVtoRGB565 => windowPicture D c
  | .yuyv422ToYuv420sp => clientPicture c
  | .saveYUYVtoJPEG => fun _ => []

/-- The picture for the window. -/
theorem windowPicture_eq (c : Yuv420spCall) (hfits : 4 * (c.width * c.height) < 2 ^ 32)
    (b : Nat → UInt8) :
    windowPicture D c b = (List.range (c.width * c.height)).flatMap (pixelBytes D b) := by
  obtain ⟨m, hm⟩ : 2 ∣ c.width * c.height := c.height_dvd.mul_left c.width
  -- the sizes are small enough for `int`
  have harea : int32 ((c.width : Int) * c.height) = (c.width * c.height : Nat) := by
    rw [← Int.natCast_mul]
    exact int32_of_range (by omega) (by omega)
  have hblocks : int32 (int32 ((c.width : Int) * c.height) * 2) = 4 * ((0 : Nat) + m : Nat) := by
    rw [harea, int32_of_range (by omega) (by omega)]
    omega
  have hspec := convertBlocks_spec D b ⟨List.replicate (2 * (c.width * c.height)) 0, [], []⟩ []
    (List.replicate (2 * (c.width * c.height)) 0) hblocks rfl rfl
    (by rw [List.length_replicate]; omega)
  -- the blocks fill the whole picture
  have hrest : (List.replicate (2 * (c.width * c.height)) (0 : UInt8)).drop (4 * m) = [] :=
    List.drop_of_length_le (by rw [List.length_replicate]; omega)
  rw [hrest, List.append_nil, List.nil_append, ← hm, ← List.range_eq_range'] at hspec
  exact congrArg Converting.picture hspec

end Pictures

/-- A driver that stores nothing. -/
theorem steady_const (bytes : Mapping → Nat → UInt8) (s : CameraHardware)
    (log : List (Event × CameraHardware)) : Steady (fun _ => bytes) s log := by
  induction log generalizing s with
  | nil => exact trivial
  | cons e log ih => exact ⟨fun _ _ _ => rfl, ih e.2⟩

/-- A preview of four rows of sixteen pixels, with a window and with the frames enabled, at its
first iteration. -/
def firstIteration : List Step :=
  [⟨.setParameters ⟨16, 4, "jpeg"⟩, []⟩, ⟨.setPreviewWindow true, [{}]⟩,
    ⟨.startPreview, previewAnswers 128⟩, ⟨.enableMsgType CameraHardware.msgPreviewFrame, []⟩,
    ⟨.previewThread, []⟩]

end OdroidU2.Camera
