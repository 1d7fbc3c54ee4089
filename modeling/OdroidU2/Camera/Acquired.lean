import OdroidU2.Camera.BufferOwnership
import OdroidU2.Foundations.Monitor

/-!
# What the Threads Use Is What They Got

`previewThread` tests the result of `mapper.lock` with an `if` that ends in an empty statement, and
the result of `GrabPreviewFrame` not at all; `pictureThread` hands on what `GrabJpegFrame` returns.

- `Acquired` — what a thread holds: a window buffer, its address, a capture buffer
- `Acquired.allows` — what it may use
- `uses_acquired_iff` — when all of a run keeps to that
- `unlocked_window` — an iteration whose `mapper.lock` fails
-/

namespace OdroidU2.Camera

open OdroidU2.Foundations Prog

/-! ## §1 The Property -/

theorem Ptr.map_ne (m : Mapping) : Ptr.map m ≠ .null ∧ Ptr.map m ≠ .failed := by simp

/-- What has been obtained and not yet given back. -/
structure Acquired where
  /-- The buffer of the window: `dequeue_buffer` has succeeded. -/
  window : Bool := false
  /-- Its address: `mapper.lock` has succeeded. -/
  locked : Bool := false
  /-- The capture buffer that the last `VIDIOC_DQBUF` has given, until a `VIDIOC_QBUF`. -/
  buffer : Option Nat := none
  deriving DecidableEq, Repr

namespace Acquired

/-- What an action obtains and gives back.  `Init` and `Uninit` have buffers of their own. -/
def after (m : Acquired) (e : Event) (t : CameraHardware) : Acquired :=
  match e with
  | .window operation ok =>
    if operation = "dequeue_buffer" then { m with window := ok }
    else if operation = "mapper.lock" then { m with locked := ok }
    else if operation = "mapper.unlock" then { m with locked := false }
    else if operation = "enqueue_buffer" then { m with window := false }
    else m
  | .dqbuf fn _ ok =>
    if fn = .uninit then m
    else { m with buffer := if ok then some t.camera.videoIn.buf.index else none }
  | .qbuf fn _ _ => if fn = .init then m else { m with buffer := none }
  | _ => m

/-- A conversion gets a frame and a window buffer at an address that `mapper.lock` returned,
`mDataFn` a picture, the calls of the window and of the mapper a buffer that was obtained, and what
`ReleasePreviewFrame` and `GrabJpegFrame` queue is the buffer that was dequeued before. -/
def allows (m : Acquired) (e : Event) (_ : CameraHardware) : Prop :=
  match e with
  | .readFrame _ frame _ => frame ≠ .null ∧ frame ≠ .failed
  | .writeWindow locked _ _ => locked = true ∧ m.locked = true
  | .dataFn _ picture => picture = true
  | .window operation _ =>
    (operation = "mapper.unlock" → m.locked = true) ∧
      (operation = "lock_buffer" ∨ operation = "mapper.lock" ∨ operation = "enqueue_buffer" →
        m.window = true)
  | .qbuf fn index _ => fn ≠ .init → m.buffer = some index
  | _ => True

instance (m : Acquired) (e : Event) (t : CameraHardware) : Decidable (m.allows e t) := by
  unfold allows
  induction e using Event.casesOn <;> infer_instance

section Window

variable (m : Acquired) (ok : Bool) (t : CameraHardware)

@[simp] theorem after_dequeueBuffer : m.after (.window "dequeue_buffer" ok) t = { m with window := ok } := by
  simp [after]

@[simp] theorem after_lockBuffer : m.after (.window "lock_buffer" ok) t = m := by simp [after]

@[simp] theorem after_mapperLock : m.after (.window "mapper.lock" ok) t = { m with locked := ok } := by
  simp [after]

@[simp] theorem after_mapperUnlock :
    m.after (.window "mapper.unlock" ok) t = { m with locked := false } := by
  simp [after]

@[simp] theorem after_enqueueBuffer :
    m.after (.window "enqueue_buffer" ok) t = { m with window := false } := by
  simp [after]

@[simp] theorem allows_dequeueBuffer : m.allows (.window "dequeue_buffer" ok) t := by simp [allows]

@[simp] theorem allows_lockBuffer : m.allows (.window "lock_buffer" ok) t ↔ m.window = true := by
  simp [allows]

@[simp] theorem allows_mapperLock : m.allows (.window "mapper.lock" ok) t ↔ m.window = true := by
  simp [allows]

@[simp] theorem allows_mapperUnlock : m.allows (.window "mapper.unlock" ok) t ↔ m.locked = true := by
  simp [allows]

@[simp] theorem allows_enqueueBuffer : m.allows (.window "enqueue_buffer" ok) t ↔ m.window = true := by
  simp [allows]

end Window

section Other

variable (m : Acquired) (t : CameraHardware)

@[simp] theorem after_assign (member : String) : m.after (.assign member) t = m := rfl

@[simp] theorem allows_assign (member : String) : m.allows (.assign member) t := trivial

@[simp] theorem after_ret (fn : CameraFn) (ok : Bool) : m.after (.ret fn ok) t = m := rfl

@[simp] theorem allows_ret (fn : CameraFn) (ok : Bool) : m.allows (.ret fn ok) t := trivial

@[simp] theorem after_readFrame (conversion : Conversion) (frame : Ptr) (bytes : Nat) :
    m.after (.readFrame conversion frame bytes) t = m := rfl

@[simp] theorem allows_readFrame (conversion : Conversion) (frame : Ptr) (bytes : Nat) :
    m.allows (.readFrame conversion frame bytes) t ↔ frame ≠ .null ∧ frame ≠ .failed := Iff.rfl

@[simp] theorem after_writeWindow (locked : Bool) (stride bytes : Nat) :
    m.after (.writeWindow locked stride bytes) t = m := rfl

@[simp] theorem allows_writeWindow (locked : Bool) (stride bytes : Nat) :
    m.allows (.writeWindow locked stride bytes) t ↔ locked = true ∧ m.locked = true := Iff.rfl

@[simp] theorem after_dataFn (msgType : BitVec 32) (picture : Bool) :
    m.after (.dataFn msgType picture) t = m := rfl

@[simp] theorem allows_dataFn (msgType : BitVec 32) (picture : Bool) :
    m.allows (.dataFn msgType picture) t ↔ picture = true := Iff.rfl

end Other

end Acquired

/-- The program uses what it has obtained, starting with nothing. -/
abbrev UsesAcquired {α : Type} (p : CameraM α) (s : CameraHardware) : Prop :=
  Accepts Acquired.after Acquired.allows p s {}

/-- A step uses what it has obtained. -/
def StepUsesAcquired (s : CameraHardware) (a : Step) : Prop :=
  a.call.enabled s → UsesAcquired a.call.code (a.start s)

instance (s : CameraHardware) (a : Step) : Decidable (StepUsesAcquired s a) := by
  unfold StepUsesAcquired
  infer_instance

/-- The action has no part in what is obtained, and needs nothing. -/
def Unseen (e : Event) (t : CameraHardware) : Prop :=
  ∀ m : Acquired, m.after e t = m ∧ m.allows e t

/-- Actions on the session are not about what a thread obtains. -/
theorem unseen_of_not_isFramed (e : Event) (t : CameraHardware) (he : e.isFramed = false) :
    Unseen e t := by
  intro m
  cases e with
  -- `Init` queues and `Uninit` dequeues outside any frame
  | qbuf fn index ok =>
    have hfn : fn = .init := by simpa [Event.isFramed] using he
    simp [Acquired.after, Acquired.allows, hfn]
  | dqbuf fn held ok =>
    have hfn : fn = .uninit := by simpa [Event.isFramed] using he
    simp [Acquired.after, Acquired.allows, hfn]
  | readFrame | writeWindow | dataFn | window => cases he
  | openDevice | ioctl | mmap | munmap | closeFd | ret | notifyFn | assign => exact ⟨rfl, trivial⟩

/-- What a thread obtains is not changed by a program that works on the session. -/
theorem accepts_of_unseen_actions {α : Type} {p : CameraM α} (hp : Keeps (fun _ => True) Unseen p)
    (s : CameraHardware) (m : Acquired) :
    Accepts Acquired.after Acquired.allows p s m ∧ replay Acquired.after p s m = m :=
  ⟨accepts_of_unseen _ _ (hp s trivial).2 m,
    replay_of_unseen _ ((hp s trivial).2.mono fun _ _ h x => (h x).1) m⟩

section Request

variable (allowed : CameraHardware → Answer → Bool)
variable (event : CameraHardware → Option Answer → Event)
variable (effect : Option Answer → CameraHardware → CameraHardware) (s : CameraHardware)
variable (m : Acquired)

theorem accepts_request :
    Accepts Acquired.after Acquired.allows (request allowed event effect) s m ↔
      m.allows (event s (s.outcome (allowed s))) (effect (s.outcome (allowed s)) s.answered) := by
  simp [request]

theorem replay_request :
    replay Acquired.after (request allowed event effect) s m =
      m.after (event s (s.outcome (allowed s))) (effect (s.outcome (allowed s)) s.answered) := by
  simp [request]

end Request

/-! ## §2 The Preview -/

namespace V4L2Camera

variable (s : CameraHardware) (m : Acquired)

/-- A `VIDIOC_DQBUF` outside `Uninit` obtains the buffer, if there is one. -/
theorem accepts_dequeueBuffer (fn : CameraFn) (hfn : fn ≠ .uninit) :
    Accepts Acquired.after Acquired.allows (dequeueBuffer fn) s m ∧
      replay Acquired.after (dequeueBuffer fn) s m =
        { m with buffer := (s.outcome (dequeues s)).map Answer.index } := by
  rw [dequeueBuffer, accepts_request, replay_request]
  cases s.outcome (dequeues s) with
  | none => simp [Acquired.after, Acquired.allows, hfn]
  | some a => simp [Acquired.after, Acquired.allows, hfn]

/-- A `VIDIOC_QBUF` outside `Init` gives back the buffer that was obtained. -/
theorem accepts_queueBuffer (fn : CameraFn) (hfn : fn ≠ .init) :
    (Accepts Acquired.after Acquired.allows (queueBuffer fn) s m ↔
        m.buffer = some s.camera.videoIn.buf.index) ∧
      replay Acquired.after (queueBuffer fn) s m = { m with buffer := none } := by
  rw [queueBuffer, accepts_request, replay_request]
  simp [Acquired.after, Acquired.allows, hfn]

/-- `GrabPreviewFrame` obtains what it dequeues. -/
theorem accepts_grabPreviewFrame :
    Accepts Acquired.after Acquired.allows grabPreviewFrame s m ∧
      replay Acquired.after grabPreviewFrame s m =
        { m with buffer := (s.outcome (dequeues s)).map Answer.index } := by
  have hdequeue := accepts_dequeueBuffer s m .grabPreviewFrame (by decide)
  simp [grabPreviewFrame, countDequeued, assign, ret, hdequeue]

/-- `ReleasePreviewFrame` queues the buffer in `videoIn->buf`. -/
theorem accepts_releasePreviewFrame :
    Accepts Acquired.after Acquired.allows releasePreviewFrame s m ↔
      m.buffer = some s.camera.videoIn.buf.index := by
  have hqueue := accepts_queueBuffer s m .releasePreviewFrame (by decide)
  simp [releasePreviewFrame, countQueued, assign, ret, hqueue]

end V4L2Camera

section Preview

variable {s : CameraHardware}

/-- What an iteration does with a window buffer is allowed if `mapper.lock` and `GrabPreviewFrame`
return something, and the latter leaves the buffer of its frame in `videoIn->buf`. -/
theorem accepts_previewFrame (stride : Nat) (width height : Int) :
    Accepts Acquired.after Acquired.allows (CameraHardware.previewFrame stride width height) s
        { window := true } ↔
      (s.outcome fun _ => true).isSome = true ∧
        (V4L2Camera.grabPreviewFrame.val s.answered ≠ .null ∧
          V4L2Camera.grabPreviewFrame.val s.answered ≠ .failed) ∧
        (s.answered.outcome (V4L2Camera.dequeues s.answered)).map Answer.index =
          some (V4L2Camera.grabPreviewFrame.exec s.answered).camera.videoIn.buf.index := by
  simp only [CameraHardware.previewFrame, CameraHardware.windowCall, CameraHardware.mapperLock,
    CameraHardware.convertYUYVtoRGB565, CameraHardware.yuyv422ToYuv420sp, accepts_bind, accepts_act,
    accepts_request, replay_bind, replay_act, replay_request, V4L2Camera.accepts_grabPreviewFrame,
    V4L2Camera.accepts_releasePreviewFrame, accepts_when, replay_when, exec_bind, exec_act,
    exec_request, exec_when, val_request, val_read, exec_read, accepts_read, replay_read,
    Acquired.allows_lockBuffer, Acquired.after_lockBuffer, Acquired.allows_mapperLock,
    Acquired.after_mapperLock, Acquired.allows_mapperUnlock, Acquired.after_mapperUnlock,
    Acquired.allows_enqueueBuffer, Acquired.after_enqueueBuffer, Acquired.allows_readFrame,
    Acquired.after_readFrame, Acquired.allows_writeWindow, Acquired.after_writeWindow,
    Acquired.allows_dataFn, Acquired.after_dataFn, id, ite_self, true_and, and_true]
  -- the surface must lock, and the frame must come, before either conversion
  constructor
  · rintro ⟨⟨hread, _⟩, hlock, _, hbuffer⟩
    exact ⟨hlock, hread, hbuffer⟩
  · rintro ⟨hlock, hread, hbuffer⟩
    exact ⟨⟨hread, hlock, hlock⟩, hlock, fun _ => hread, hbuffer⟩

/-- With a window buffer an iteration keeps to what it gets if and only if it gets its address, and
a frame. -/
theorem accepts_previewFrame_iff (h : Running s) (stride : Nat) (width height : Int) :
    Accepts Acquired.after Acquired.allows (CameraHardware.previewFrame stride width height) s
        { window := true } ↔
      (s.answerAt 0).ok = true ∧ (s.answerAt 1).ok = true ∧
        (s.answerAt 1).index ∈ s.kernel.held := by
  have hanswer : s.answered.answerAt 0 = s.answerAt 1 := s.kernel.answered_answerAt 0
  have hopen : s.answered.fdOpen = true := h.fdOpen
  rw [accepts_previewFrame, Option.isSome_iff_exists]
  constructor
  · rintro ⟨⟨a, ha⟩, -, hbuffer⟩
    obtain ⟨b, hb, -⟩ := Option.map_eq_some_iff.mp hbuffer
    obtain ⟨hok, -, -⟩ := (s.outcome_eq_some).mp ha
    obtain ⟨hok', hallowed, -⟩ := (CameraHardware.outcome_eq_some _).mp hb
    rw [hanswer] at hok' hallowed
    rw [V4L2Camera.dequeues, Bool.and_eq_true, decide_eq_true_eq] at hallowed
    exact ⟨hok, hok', hallowed.2⟩
  · rintro ⟨hok, hok', hheld⟩
    -- the second answer is that to VIDIOC_DQBUF, which hands out a buffer the driver has
    have hr : s.answered.outcome (V4L2Camera.dequeues s.answered) = some (s.answerAt 1) := by
      refine (CameraHardware.outcome_eq_some _).mpr ⟨hanswer ▸ hok', ?_, hanswer.symm⟩
      rw [hanswer, V4L2Camera.dequeues, hopen, Bool.true_and, decide_eq_true_eq]
      exact hheld
    obtain ⟨hval, hexec⟩ := V4L2Camera.grabPreviewFrame_some hr
    -- the slot of a buffer that the driver had has its mapping
    have hgrab := (keptByFrames_running.grabPreviewFrame (P := fun _ _ => True)
      (fun _ _ _ => trivial) _ h.answered).1
    rw [hexec] at hgrab
    rw [hval, hexec, hr]
    refine ⟨⟨_, (s.outcome_eq_some).mpr ⟨hok, rfl, rfl⟩⟩, ?_, rfl⟩
    have hframe := (hgrab.mapped _ hgrab.index_lt).mem
    rw [V4L2Camera.frame, hframe]
    exact Ptr.map_ne _

/-- The locked half of an iteration, if it gets a window buffer, gets its address and a frame. -/
def IterationAcquires (s : CameraHardware) : Prop :=
  s.iteration.isSome = true → s.mNativeWindow = true → (s.answerAt 0).ok = true →
    (s.answerAt 1).ok = true ∧ (s.answerAt 2).ok = true ∧ (s.answerAt 2).index ∈ s.kernel.held

theorem usesAcquired_previewThreadLocked_iff (h : Consistent s) :
    UsesAcquired CameraHardware.previewThreadLocked s ↔ IterationAcquires s := by
  simp only [UsesAcquired, IterationAcquires, CameraHardware.previewThreadLocked, accepts_bind,
    accepts_read, replay_read, val_read, exec_read, true_and]
  -- without an iteration under way there is nothing to do
  cases hiteration : s.iteration with
  -- no buffer of the window: the iteration ends
  | none => simp
  | some size =>
    obtain ⟨width, height⟩ := size
    have hrunning : Running { s.answered with iteration := none } :=
      (h.running (h.thread (by rw [hiteration]; rfl))).answered.congr rfl rfl
    simp only [assign, accepts_bind, accepts_act, replay_act, Acquired.after_assign,
      Acquired.allows_assign, true_and, exec_act, accepts_when,
      CameraHardware.dequeueWindow, accepts_request, replay_request, val_request, exec_request,
      Acquired.allows_dequeueBuffer, Acquired.after_dequeueBuffer, Option.isSome_some, forall_true_left]
    refine imp_congr_right fun _ => ?_
    cases hr : ({ s with iteration := none } : CameraHardware).outcome fun _ => true with
    | none =>
      have hno : ¬(s.answerAt 0).ok = true := fun hok =>
        (CameraHardware.outcome_eq_none _).mp hr ⟨hok, rfl⟩
      exact iff_of_true ((accepts_act _ _ _ _ _ _).mpr trivial) fun hok => absurd hok hno
    | some a =>
      obtain ⟨hok, _, rfl⟩ := (CameraHardware.outcome_eq_some _).mp hr
      -- the three answers are those to `dequeue_buffer`, `mapper.lock` and VIDIOC_DQBUF
      have hlock : ({ s.answered with iteration := none } : CameraHardware).answerAt 0 =
          s.answerAt 1 := s.kernel.answered_answerAt 0
      have hgrab : ({ s.answered with iteration := none } : CameraHardware).answerAt 1 =
          s.answerAt 2 := s.kernel.answered_answerAt 1
      have hframe := accepts_previewFrame_iff hrunning (s.answerAt 0).stride width height
      rw [hlock, hgrab] at hframe
      constructor
      · intro huses _
        exact hframe.mp huses
      · intro hacquires
        exact hframe.mpr (hacquires hok)

end Preview

/-! ## §3 The Picture -/

namespace V4L2Camera

/-- `GrabJpegFrame` returns a picture when it can dequeue a buffer and queue it again; the only
thing it can misuse is the frame. -/
theorem accepts_grabJpegFrame (s : CameraHardware) (m : Acquired) :
    (grabJpegFrame.val s = true ↔ ∃ a, s.outcome (dequeues s) = some a ∧
        ((grabbed s a).outcome fun _ => queues (grabbed s a)).isSome = true) ∧
      (Accepts Acquired.after Acquired.allows grabJpegFrame s m ↔
        ∀ a, s.outcome (dequeues s) = some a →
          ((grabbed s a).outcome fun _ => queues (grabbed s a)).isSome = true →
          frame (requeued (grabbed s a)) ≠ .null ∧ frame (requeued (grabbed s a)) ≠ .failed) := by
  obtain ⟨hdequeue, hdequeued⟩ := accepts_dequeueBuffer s m .grabJpegFrame (by decide)
  have hqueue (u : CameraHardware) (m' : Acquired) :=
    accepts_queueBuffer u m' .grabJpegFrame (by decide)
  have hcount (u : CameraHardware) (m' : Acquired) :
      (Accepts Acquired.after Acquired.allows countDequeued u m' ∧
          replay Acquired.after countDequeued u m' = m') ∧
        Accepts Acquired.after Acquired.allows countQueued u m' ∧
          replay Acquired.after countQueued u m' = m' := by
    simp [countDequeued, countQueued, assign]
  -- the source returns NULL after a DQBUF or a QBUF that fails, and reads the frame after both
  cases hr : s.outcome (dequeues s) with
  | none =>
    have hval : (dequeueBuffer .grabJpegFrame).val s = none := hr
    simp [grabJpegFrame, ret, hval, hdequeue]
  | some a =>
    have hgrab : countDequeued.exec ((dequeueBuffer .grabJpegFrame).exec s) = grabbed s a := by
      simp [dequeueBuffer, countDequeued, assign, hr, grabbed, CameraHardware.answered]
    have hval : (dequeueBuffer .grabJpegFrame).val s = some a := hr
    have hindex : (grabbed s a).camera.videoIn.buf.index = a.index := rfl
    rw [hr] at hdequeued
    cases hq : (grabbed s a).outcome fun _ => queues (grabbed s a) with
    | none =>
      have hval' : (queueBuffer .grabJpegFrame).val (grabbed s a) = none := hq
      simp [grabJpegFrame, ret, hval, hgrab, hval', hq, hdequeue, hdequeued, hcount, hqueue, hindex]
    | some b =>
      have hval' : (queueBuffer .grabJpegFrame).val (grabbed s a) = some b := hq
      have hrequeue : countQueued.exec ((queueBuffer .grabJpegFrame).exec (grabbed s a)) =
          requeued (grabbed s a) := by
        simp [queueBuffer, countQueued, assign, hq, requeued, CameraHardware.answered]
      simp [grabJpegFrame, ret, hval, hgrab, hval', hq, hrequeue, hdequeue, hdequeued, hcount,
        hqueue, hindex]

end V4L2Camera

section Picture

variable {t : CameraHardware} {before : Int} {k : Nat}

/-- The picture that `pictureThread` takes in the state `t` is obtained, if the client wants one. -/
def PictureAcquires (t : CameraHardware) : Prop :=
  t.msgEnabled CameraHardware.msgCompressedImage = true →
    (t.answerAt 0).ok = true ∧ (t.answerAt 0).index ∈ t.kernel.held ∧ (t.answerAt 1).ok = true

theorem accepts_compressedImage_iff (h : Filled before k t) (m : Acquired) :
    Accepts Acquired.after Acquired.allows CameraHardware.compressedImage t m ↔
      PictureAcquires t := by
  obtain ⟨hpicture, huse⟩ := V4L2Camera.accepts_grabJpegFrame t m
  -- a buffer that the driver has is mapped
  have hframe : Accepts Acquired.after Acquired.allows V4L2Camera.grabJpegFrame t m := by
    rw [huse]
    intro a hr _
    obtain ⟨_, hallowed, rfl⟩ := (t.outcome_eq_some).mp hr
    rw [V4L2Camera.dequeues, Bool.and_eq_true, decide_eq_true_eq, h.held, List.mem_reverse,
      List.mem_range] at hallowed
    have hmem : V4L2Camera.frame (V4L2Camera.requeued (V4L2Camera.grabbed t (t.answerAt 0))) =
        .map (bufferMapping t (t.answerAt 0).index) := (h.mapped _ hallowed.2).mem
    rw [hmem]
    exact Ptr.map_ne _
  have hanswer : (V4L2Camera.grabbed t (t.answerAt 0)).answerAt 0 = t.answerAt 1 :=
    t.kernel.answered_answerAt 0
  simp only [CameraHardware.compressedImage, accepts_bind, accepts_read, replay_read, val_read,
    exec_read, accepts_when, accepts_act, Acquired.allows_dataFn, hframe, true_and, hpicture,
    PictureAcquires]
  refine imp_congr_right fun _ => ?_
  -- a picture is handed out exactly if both calls went through
  constructor
  · rintro ⟨a, hr, hq⟩
    obtain ⟨hok, hallowed, rfl⟩ := (t.outcome_eq_some).mp hr
    obtain ⟨b, hb⟩ := Option.isSome_iff_exists.mp hq
    obtain ⟨hok', _, _⟩ := (CameraHardware.outcome_eq_some _).mp hb
    rw [V4L2Camera.dequeues, Bool.and_eq_true, decide_eq_true_eq] at hallowed
    exact ⟨hok, hallowed.2, hanswer ▸ hok'⟩
  · rintro ⟨hok, hheld, hok'⟩
    have hallowed : V4L2Camera.dequeues t (t.answerAt 0) = true := by
      rw [V4L2Camera.dequeues, h.fdOpen, Bool.true_and, decide_eq_true_eq]
      exact hheld
    have hqueue : ((V4L2Camera.grabbed t (t.answerAt 0)).outcome fun _ =>
        V4L2Camera.queues (V4L2Camera.grabbed t (t.answerAt 0))) = some _ :=
      (CameraHardware.outcome_eq_some _).mpr ⟨hanswer ▸ hok', h.queues_grabbed hheld, rfl⟩
    exact ⟨t.answerAt 0, (t.outcome_eq_some).mpr ⟨hok, hallowed, rfl⟩,
      Option.isSome_iff_exists.mpr ⟨_, hqueue⟩⟩

theorem usesAcquired_pictureThread_iff (s : CameraHardware) :
    UsesAcquired CameraHardware.pictureThread s ↔
      (0 ≤ (searchNode s).val s → PictureAcquires (atPicture s)) := by
  -- all that the thread calls but the picture itself is unseen
  have hS := unseen_of_not_isFramed
  have hC (e : Event) (t : CameraHardware) : e.isCounted = false → True := fun _ => trivial
  have hnode (u : CameraHardware) (m : Acquired) (width height : Int) :=
    accepts_of_unseen_actions (CameraHardware.quiet_openNode hS width height).always u m
  have hinit (u : CameraHardware) (m : Acquired) :=
    accepts_of_unseen_actions (V4L2Camera.quiet_init hS).always u m
  have hstream (u : CameraHardware) (m : Acquired) :=
    accepts_of_unseen_actions (V4L2Camera.quiet_startStreaming hS).always u m
  have hshut (u : CameraHardware) (m : Acquired) :=
    accepts_of_unseen_actions (CameraHardware.quiet_shutDown hS).always u m
  have hnotify (m : Acquired) (u : CameraHardware) :
      m.after (.notifyFn CameraHardware.msgShutter) u = m ∧
        m.allows (.notifyFn CameraHardware.msgShutter) u := ⟨rfl, trivial⟩
  simp only [UsesAcquired, CameraHardware.pictureThread, accepts_bind, accepts_read, replay_read,
    val_read, exec_read, accepts_when, replay_when, accepts_act, replay_act, hnotify, ite_self,
    exec_when, exec_act, id, implies_true, true_and, and_true, accepts_ite, accepts_pure, hnode,
    hinit, hstream, hshut]
  obtain ⟨_, _, hfresh⟩ := openNode_triple hC s.mParameters.previewWidth
    s.mParameters.previewHeight s ⟨rfl, rfl, rfl⟩
  -- without a device there is no picture
  split
  · next hv => exact iff_of_true trivial fun h0 => absurd hv (Int.not_lt.mpr h0)
  · next hv =>
    have h0 := Int.not_lt.mp hv
    obtain ⟨_, hfilled, _⟩ := init_spec hC (fun _ _ _ _ _ => trivial) (hfresh h0)
    have hpicture := accepts_compressedImage_iff ((filled_startStreaming hC _ _ _ hfilled).1) {}
    exact hpicture.trans ⟨fun h _ => h, fun h => h h0⟩

end Picture

/-! ## §4 Every Run -/

/-- An iteration gets what it needs, and so does a picture that the client wants. -/
def StepAcquires (s : CameraHardware) (a : Step) : Prop :=
  match a.call with
  | .previewThreadLocked =>
    Call.enabled s .previewThreadLocked = true → IterationAcquires (a.start s)
  | .takePicture =>
    Call.enabled s .takePicture = true →
      let t := CameraHardware.stopPreview.exec (a.start s)
      0 ≤ (searchNode t).val t → PictureAcquires (atPicture t)
  | _ => True

/-- Outside the two threads nothing is obtained or used. -/
theorem unseen_code {call : Call} (hpicture : call ≠ .takePicture)
    (hiteration : call ≠ .previewThreadLocked) : Keeps (fun _ => True) Unseen call.code := by
  have hS := unseen_of_not_isFramed
  have hassign (member : String) (f : CameraHardware → CameraHardware) :
      Keeps (fun _ => True) Unseen (assign member f) := always_act fun t => hS _ t rfl
  cases call with
  | setPreviewWindow window =>
    -- the calls of the window that are made here ask for no buffer
    have husage (t : CameraHardware) : Unseen (.window "set_usage" true) t := by
      simp [Unseen, Acquired.after, Acquired.allows]
    have hgeometry (t : CameraHardware) : Unseen (.window "set_buffers_geometry" true) t := by
      simp [Unseen, Acquired.after, Acquired.allows]
    have hcount (ok : Bool) (t : CameraHardware) : Unseen (.window "set_buffer_count" ok) t := by
      simp [Unseen, Acquired.after, Acquired.allows]
    refine Keeps.bind (Keeps.read_bind fun s _ => ?_) fun _ => keeps_pure _
    refine Keeps.bind (Keeps.when fun _ => hassign _ _) fun _ => ?_
    refine Keeps.ite (fun _ => keeps_pure _) fun _ => ?_
    refine Keeps.bind (hassign _ _) fun _ => ?_
    refine Keeps.bind (always_act husage) fun _ => Keeps.bind (always_act hgeometry) fun _ => ?_
    refine Keeps.bind (Keeps.read_bind fun t _ => ?_) fun err => ?_
    · exact Keeps.bind (always_act (hcount _)) fun _ => keeps_pure _
    · exact Keeps.bind (Keeps.when fun _ => hassign _ _) fun _ => keeps_pure _
  | setParameters params =>
    refine Keeps.bind (Keeps.ite (fun _ => keeps_pure _) fun _ => ?_) fun _ => keeps_pure _
    exact Keeps.bind (hassign _ _) fun _ => keeps_pure _
  | enableMsgType | disableMsgType => exact hassign _ _
  | startPreview => exact (always_startPreview hS).bind fun _ => keeps_pure _
  | stopPreview => exact always_stopPreview hS
  | previewThread => exact Keeps.read_bind fun _ _ => Keeps.when fun _ => hassign _ _
  | takePicture => exact absurd rfl hpicture
  | previewThreadLocked => exact absurd rfl hiteration

theorem stepUsesAcquired_iff {s : CameraHardware} (h : Consistent s) (a : Step) :
    StepUsesAcquired s a ↔ StepAcquires s a := by
  obtain ⟨call, answers⟩ := a
  rw [StepUsesAcquired, StepAcquires]
  -- frames are taken by the preview's iteration and by the picture only
  cases call with
  | previewThreadLocked =>
    exact imp_congr_right fun _ => usesAcquired_previewThreadLocked_iff (h.congr rfl)
  | takePicture =>
    have hstop := accepts_of_unseen_actions (always_stopPreview unseen_of_not_isFramed)
    refine imp_congr_right fun _ => ?_
    simp only [UsesAcquired, Call.code, CameraHardware.takePicture, accepts_bind, accepts_pure,
      and_true, hstop, true_and]
    exact usesAcquired_pictureThread_iff _
  | setPreviewWindow | setParameters | enableMsgType | disableMsgType | startPreview
  | stopPreview | previewThread =>
    refine iff_of_true (fun _ => ?_) trivial
    exact (accepts_of_unseen_actions (unseen_code (by simp) (by simp)) _ _).1

/-- **The threads use what they got, as long as they get it**: in a run from the creation of
`CameraHardware`, with any answers of the kernel and the window system, all that the threads pass
on has been obtained if and only if no iteration with a window buffer and no picture fails to get
what it needs. -/
theorem uses_acquired_iff (fd : Int) (steps : List Step) :
    cameraMachine.AllSteps StepUsesAcquired (created fd) steps ↔
      cameraMachine.AllSteps StepAcquires (created fd) steps :=
  cameraMachine.allSteps_iff (fun _ a hs => stepUsesAcquired_iff hs a)
    (fun _ _ _ hs _ hstep => consistent_step hs hstep) (consistent_created fd) steps

/-- A preview whose first iteration gets a window buffer, but not its address. -/
def firstLockFails : List Step :=
  [⟨.setPreviewWindow true, []⟩, ⟨.startPreview, previewAnswers 153600⟩, ⟨.previewThread, []⟩,
    ⟨.previewThreadLocked, [{ ok := true, stride := 320 }, { ok := false }, { ok := true },
      { ok := true }]⟩]

/-- The conversion writes to the address that `mapper.lock` has not returned. -/
theorem unlocked_window :
    (cameraMachine.run (created 0) firstLockFails).isSome = true ∧
      ¬cameraMachine.AllSteps StepUsesAcquired (created 0) firstLockFails := by
  constructor
  · rfl
  · decide

end OdroidU2.Camera
