import OdroidU2.Camera.Sessions

/-!
# Runs of the Camera

The invariant that every run of `CameraHardware` has, whatever the kernel and the window
system answer.

- `Consistent` — a preview thread has a running session, an iteration has a preview thread
- `consistent_step` — every step keeps it
-/

namespace OdroidU2.Camera

open OdroidU2.Foundations Prog

/-! ## §1 The Invariant -/

/-- A preview thread has a session, and an iteration has a
preview thread. -/
structure Consistent (t : CameraHardware) : Prop where
  running : t.mPreviewThread = true → Running t
  thread : t.iteration.isSome = true → t.mPreviewThread = true

/-- There is no preview thread. -/
structure Idle (t : CameraHardware) : Prop where
  thread : t.mPreviewThread = false
  iteration : t.iteration = none

theorem Idle.consistent {t : CameraHardware} (h : Idle t) : Consistent t where
  running ht := absurd ht (by simp [h.thread])
  thread hi := absurd hi (by simp [h.iteration])

theorem Consistent.idle {t : CameraHardware} (h : Consistent t)
    (hthread : t.mPreviewThread = false) :
    Idle t := by
  refine ⟨hthread, Option.not_isSome_iff_eq_none.mp fun hi => ?_⟩
  exact absurd ((h.thread hi).symm.trans hthread) (by decide)

section Consistent

variable {α : Type} {P : Event → CameraHardware → Prop}

/-- What leaves the preview thread alone starts none. -/
theorem Quiet.idle {p : CameraM α} (hp : Quiet P p) : Keeps Idle P p := by
  intro s hs
  refine ⟨⟨?_, ?_⟩, hp.emits s⟩
  · rw [mPreviewThread_exec hp, hs.thread]
  · rw [iteration_exec hp, hs.iteration]

/-- `StartStreaming` keeps what depends neither on the answers nor on the streaming. -/
theorem keeps_startStreaming {I : CameraHardware → Prop}
    (hP : ∀ e t, e.isCounted = false → e.isRelease = false → P e t)
    (hanswered : ∀ t, I t → I t.answered)
    (hon : ∀ t, I t → I { t with kernel := t.kernel.streamStart })
    (hflag : ∀ t, I t → I { t with camera.videoIn.isStreaming := true }) :
    Keeps I P V4L2Camera.startStreaming := by
  have hret (ok : Bool) : Keeps I P (ret .startStreaming ok) :=
    keeps_act fun t ht => ⟨ht, hP _ _ rfl rfl⟩
  apply Keeps.read_bind
  intro s _
  -- already streaming, STREAMON failed, or both the driver and the flag change
  apply Keeps.ite
  · exact fun _ => (hret true).bind fun _ => keeps_pure _
  intro _
  refine Keeps.bind (keeps_ioctl (fun _ t => hP _ t rfl rfl) hanswered fun _ t => hon t) fun on => ?_
  apply Keeps.ite
  · exact fun _ => (hret false).bind fun _ => keeps_pure _
  intro _
  refine Keeps.bind (keeps_act fun t ht => ⟨hflag t ht, hP _ _ rfl rfl⟩) fun _ => ?_
  exact (hret true).bind fun _ => keeps_pure _

theorem running_startStreaming (hP : ∀ e t, e.isCounted = false → P e t) :
    Keeps Running P V4L2Camera.startStreaming :=
  keeps_startStreaming (fun e t h _ => hP e t h) (fun _ h => h.answered)
    (fun _ h => ⟨fun i hi => ⟨(h.mapped i hi).mem, (h.mapped i hi).inPlace⟩, h.count, h.fdOpen,
      h.held_nodup, h.held_lt, h.index_lt⟩)
    fun _ h => ⟨fun i hi => ⟨(h.mapped i hi).mem, (h.mapped i hi).inPlace⟩, h.count, h.fdOpen,
      h.held_nodup, h.held_lt, h.index_lt⟩

theorem filled_startStreaming (hP : ∀ e t, e.isCounted = false → P e t) (before : Int) (k : Nat) :
    Keeps (Filled before k) P V4L2Camera.startStreaming :=
  keeps_startStreaming (fun e t h _ => hP e t h)
    (fun _ h => ⟨h.fdOpen, h.held, fun i hi => ⟨(h.mapped i hi).mem, (h.mapped i hi).inPlace⟩,
      h.count, h.balance, h.session⟩)
    (fun _ h => ⟨h.fdOpen, h.held, fun i hi => ⟨(h.mapped i hi).mem, (h.mapped i hi).inPlace⟩,
      h.count, h.balance, h.session⟩)
    fun _ h => ⟨h.fdOpen, h.held, fun i hi => ⟨(h.mapped i hi).mem, (h.mapped i hi).inPlace⟩,
      h.count, h.balance, h.session⟩

end Consistent

/-! ## §2 What the Client's Other Calls Leave Alone -/

/-- All but the window, the parameters, the messages and the answers to come. -/
def CameraHardware.device (s : CameraHardware) :=
  (s.camera, s.kernel.settled, s.mPreviewThread, s.session, s.iteration)

/-- `p` leaves the device alone and takes only actions that satisfy `P`. -/
abbrev Apart {α : Type} (P : Event → CameraHardware → Prop) (p : CameraM α) : Prop :=
  Leaves CameraHardware.device P p

/-- The calls that leave the device alone. -/
def Call.isApart : Call → Bool
  | setPreviewWindow _ | setParameters _ | enableMsgType _ | disableMsgType _ => true
  | _ => false

section Apart

variable {P : Event → CameraHardware → Prop}
variable (hP : ∀ e t, e.isAccess = false → e.isCounted = false → e.isRelease = false → P e t)
include hP

theorem apart_assign {member : String} {f : CameraHardware → CameraHardware}
    (hf : ∀ s, (f s).device = s.device) : Apart P (assign member f) :=
  leaves_act (fun t => hP _ t rfl rfl rfl) hf

theorem apart_windowCall {operation : String} {f : CameraHardware → CameraHardware}
    (hf : ∀ s, (f s).device = s.device) : Apart P (CameraHardware.windowCall operation f) :=
  leaves_act (fun t => hP _ t rfl rfl rfl) hf

theorem apart_setPreviewWindow (window : Bool) :
    Apart P (CameraHardware.setPreviewWindow window) := by
  apply Leaves.read_bind
  intro s
  -- the calls of the source in their order
  refine Leaves.bind (Leaves.when (apart_assign hP fun _ => rfl)) fun _ => ?_
  apply Leaves.ite (leaves_pure _)
  refine Leaves.bind (apart_assign hP fun _ => rfl) fun _ => ?_
  refine Leaves.bind (apart_windowCall hP fun _ => rfl) fun _ => ?_
  refine Leaves.bind (apart_windowCall hP fun _ => rfl) fun _ => ?_
  have hcount : Apart P CameraHardware.setBufferCount := by
    apply Leaves.read_bind
    intro t
    exact Leaves.bind (leaves_act (fun u => hP _ u rfl rfl rfl) fun _ => rfl) fun _ => leaves_pure _
  apply Leaves.bind hcount
  intro err
  refine Leaves.bind (Leaves.when (apart_assign hP fun _ => rfl)) fun _ => ?_
  exact leaves_pure _

theorem apart_setParameters (params : CameraParameters) :
    Apart P (CameraHardware.setParameters params) := by
  apply Leaves.ite (leaves_pure _)
  exact Leaves.bind (apart_assign hP fun _ => rfl) fun _ => leaves_pure _

theorem apart_code {call : Call} (hcall : call.isApart = true) : Apart P call.code := by
  cases call with
  | setPreviewWindow window =>
    exact Leaves.bind (apart_setPreviewWindow hP window) fun _ => leaves_pure _
  | setParameters params =>
    exact Leaves.bind (apart_setParameters hP params) fun _ => leaves_pure _
  | enableMsgType msgType => exact apart_assign hP fun _ => rfl
  | disableMsgType msgType => exact apart_assign hP fun _ => rfl
  | startPreview | stopPreview | takePicture | previewThread | previewThreadLocked =>
    exact absurd hcall (by decide)

end Apart

/-- The invariant is one of the device. -/
theorem Consistent.congr {t t' : CameraHardware} (h : Consistent t)
    (hdevice : t'.device = t.device) : Consistent t' := by
  simp only [CameraHardware.device, Prod.mk.injEq] at hdevice
  obtain ⟨hcamera, hkernel, hthread, _, hiteration⟩ := hdevice
  refine ⟨fun ht => (h.running (hthread ▸ ht)).congr hcamera hkernel, fun hi => ?_⟩
  rw [hthread]
  exact h.thread (hiteration ▸ hi)

/-! ## §3 The Calls That Work on the Device -/

section Calls

/-- The search of `startPreview` and `pictureThread` for a node. -/
abbrev searchNode (s : CameraHardware) : CameraM Int :=
  CameraHardware.openNode s.mParameters.previewWidth s.mParameters.previewHeight

/-- The state in which `startPreview` calls `Init`, if a node can be opened. -/
def beforeInit (s : CameraHardware) : CameraHardware :=
  { (searchNode s).exec s with
    mPreviewFrameSize :=
      int32 (int32 (s.mParameters.previewWidth * s.mParameters.previewHeight) * 2) }

/-- The search for a node starts no preview thread, and a file it opens has no buffers yet. -/
theorem idle_searchNode {s : CameraHardware} (h : Idle s) :
    Idle ((searchNode s).exec s) ∧
      (0 ≤ (searchNode s).val s → Fresh ((searchNode s).exec s)) := by
  have hA (e : Event) (t : CameraHardware) : e.isFramed = false → True := fun _ => trivial
  have hC (e : Event) (t : CameraHardware) : e.isCounted = false → True := fun _ => trivial
  exact ⟨((CameraHardware.quiet_openNode hA _ _).idle s h).1,
    (openNode_triple hC _ _ s ⟨rfl, rfl, rfl⟩).2.2⟩

namespace CameraHardware

variable {s : CameraHardware}

/-- A second preview is refused. -/
theorem startPreview_refused {P : Event → CameraHardware → Prop} (h : s.mPreviewThread = true) :
    Emits P startPreview s ∧ startPreview.exec s = s := by
  simp only [startPreview, emits_bind, emits_read, emits_pure, exec_bind, val_read, exec_read, h,
    if_true, exec_pure, and_self]

/-- The state in which `startPreview` returns, by the first call that fails. -/
theorem exec_startPreview (h : s.mPreviewThread = false) :
    startPreview.exec s =
      if (searchNode s).val s < 0 then (searchNode s).exec s
      else if V4L2Camera.init.val (beforeInit s) ≠ 0 then
        V4L2Camera.close.exec (V4L2Camera.init.exec (beforeInit s))
      else if V4L2Camera.startStreaming.val (V4L2Camera.init.exec (beforeInit s)) ≠ 0 then
        V4L2Camera.close.exec (V4L2Camera.uninit.exec
          (V4L2Camera.startStreaming.exec (V4L2Camera.init.exec (beforeInit s))))
      else
        { V4L2Camera.startStreaming.exec (V4L2Camera.init.exec (beforeInit s)) with
          previewStopped := false
          mPreviewThread := true } := by
  simp only [startPreview, assign, exec_bind, val_read, exec_read, h, Bool.false_eq_true, if_false,
    exec_ite, exec_pure, exec_act]
  rfl

/-- What `startPreview` does, apart from assignments to its own members. -/
theorem emits_startPreview_iff {P : Event → CameraHardware → Prop}
    (hP : ∀ member t, P (.assign member) t) (h : s.mPreviewThread = false) :
    Emits P startPreview s ↔ Emits P (searchNode s) s ∧
      if (searchNode s).val s < 0 then True
      else Emits P V4L2Camera.init (beforeInit s) ∧
        if V4L2Camera.init.val (beforeInit s) ≠ 0 then
          Emits P V4L2Camera.close (V4L2Camera.init.exec (beforeInit s))
        else Emits P V4L2Camera.startStreaming (V4L2Camera.init.exec (beforeInit s)) ∧
          if V4L2Camera.startStreaming.val (V4L2Camera.init.exec (beforeInit s)) ≠ 0 then
            Emits P V4L2Camera.uninit
                (V4L2Camera.startStreaming.exec (V4L2Camera.init.exec (beforeInit s))) ∧
              Emits P V4L2Camera.close (V4L2Camera.uninit.exec
                (V4L2Camera.startStreaming.exec (V4L2Camera.init.exec (beforeInit s))))
          else True := by
  simp only [startPreview, assign, emits_bind, emits_read, val_read, exec_read, h,
    Bool.false_eq_true, if_false, emits_ite, emits_pure, emits_act, exec_act, hP, true_and,
    and_true]
  rfl

/-- The actions of `startPreview`, by the first call that fails. -/
theorem takes_startPreview {P : CameraHardware → Event → CameraHardware → Prop}
    (h : s.mPreviewThread = false) :
    Takes P startPreview s ↔ Takes P (searchNode s) s ∧
      if (searchNode s).val s < 0 then True
      else P ((searchNode s).exec s) (.assign "mPreviewFrameSize") (beforeInit s) ∧
        Takes P V4L2Camera.init (beforeInit s) ∧
        if V4L2Camera.init.val (beforeInit s) ≠ 0 then
          Takes P V4L2Camera.close (V4L2Camera.init.exec (beforeInit s))
        else
          let t := V4L2Camera.startStreaming.exec (V4L2Camera.init.exec (beforeInit s))
          Takes P V4L2Camera.startStreaming (V4L2Camera.init.exec (beforeInit s)) ∧
            if V4L2Camera.startStreaming.val (V4L2Camera.init.exec (beforeInit s)) ≠ 0 then
              Takes P V4L2Camera.uninit t ∧ Takes P V4L2Camera.close (V4L2Camera.uninit.exec t)
            else P t (.assign "previewStopped") { t with previewStopped := false } ∧
              P { t with previewStopped := false } (.assign "mPreviewThread")
                { t with previewStopped := false, mPreviewThread := true } := by
  simp only [startPreview, assign, takes_bind, takes_read, val_read, exec_read, h,
    Bool.false_eq_true, if_false, takes_ite, takes_pure, takes_act, exec_act, true_and, and_true]
  rfl

/-- `startPreview` makes a preview thread only for a session that `Init` has completed. -/
theorem consistent_startPreview (h : Consistent s) : Consistent (startPreview.exec s) := by
  have hC (e : Event) (t : CameraHardware) : e.isCounted = false → True := fun _ => trivial
  have hA (e : Event) (t : CameraHardware) : e.isFramed = false → True := fun _ => trivial
  by_cases hthread : s.mPreviewThread = true
  · -- a preview is on already
    rw [(startPreview_refused (P := fun _ _ => True) hthread).2]
    exact h
  have hidle : Idle s := h.idle (Bool.not_eq_true _ ▸ hthread)
  obtain ⟨hnode, hfresh⟩ := idle_searchNode hidle
  rw [exec_startPreview hidle.thread]
  by_cases hv : (searchNode s).val s < 0
  · -- no node can be opened
    rw [if_pos hv]
    exact hnode.consistent
  have hfresh' : Fresh (beforeInit s) :=
    ⟨(hfresh (by omega)).fdOpen, (hfresh (by omega)).held⟩
  have hidle' : Idle (beforeInit s) := ⟨hnode.thread, hnode.iteration⟩
  rw [if_neg hv]
  generalize beforeInit s = t at hfresh' hidle' ⊢
  have hinit := ((V4L2Camera.quiet_init hA).idle t hidle').1
  obtain ⟨_, hfilled, hvalue, hindex⟩ := init_spec hC (fun _ _ _ _ _ => trivial) hfresh'
  by_cases hi : V4L2Camera.init.val t ≠ 0
  · -- `Init` has failed
    rw [if_pos hi]
    exact ((V4L2Camera.quiet_close hA).idle _ hinit).1.consistent
  -- when `Init` returns 0, all buffers are mapped and queued
  rw [not_not] at hi
  rw [if_neg (not_not.mpr hi)]
  rw [hvalue.mp hi] at hfilled
  obtain ⟨hrunning, _⟩ := running_startStreaming hC _ (hfilled.running (hindex hi))
  have hstream := ((V4L2Camera.quiet_startStreaming hA).idle _ hinit).1
  split
  · -- `StartStreaming` has failed
    have huninit := ((V4L2Camera.quiet_uninit hA).idle _ hstream).1
    exact ((V4L2Camera.quiet_close hA).idle _ huninit).1.consistent
  · exact ⟨fun _ => hrunning.congr rfl rfl, fun _ => rfl⟩

/-- After `stopPreview` there is no preview thread. -/
theorem idle_stopPreview {t : CameraHardware} (hiteration : t.iteration = none) :
    Idle (stopPreview.exec t) := by
  have hA (e : Event) (t : CameraHardware) : e.isFramed = false → True := fun _ => trivial
  have hlast (u : CameraHardware) (hu : u.iteration = none) :
      Idle { u with mPreviewThread := false } := ⟨rfl, hu⟩
  simp only [stopPreview, assign, exec_bind, exec_act, val_read, exec_read, exec_when]
  -- whether or not a session is shut down, the thread is gone
  apply hlast
  split
  · exact (iteration_exec (quiet_shutDown hA) _).trans hiteration
  · exact hiteration

theorem consistent_takePicture {t : CameraHardware} (hiteration : t.iteration = none) :
    Consistent (takePicture.exec t) := by
  have hA (e : Event) (t : CameraHardware) : e.isAccess = false → True := fun _ => trivial
  have hpicture := (quiet_pictureThread hA fun _ _ _ => trivial).idle
  exact (hpicture _ (idle_stopPreview hiteration)).1.consistent

/-- The unlocked half of an iteration only reads the size. -/
theorem consistent_previewThread {t : CameraHardware} (h : Consistent t)
    (hthread : t.mPreviewThread = true) : Consistent (previewThread.exec t) := by
  simp only [previewThread, assign, exec_bind, val_read, exec_read, exec_when, exec_act]
  split
  · exact ⟨fun _ => (h.running hthread).congr rfl rfl, fun _ => hthread⟩
  · exact h

end CameraHardware

/-- What is kept when a call has its answer, when the driver hands out a buffer or takes back
the one in `videoIn->buf`, and when these are counted. -/
structure KeptByFrames (I : CameraHardware → Prop) : Prop where
  answered : ∀ t, I t → I t.answered
  dequeue : ∀ t (a : Answer), a.index ∈ t.kernel.held → I t → I { t with
    kernel := t.kernel.dequeue a.index
    camera.videoIn.buf := ⟨a.index, t.kernel.lengths a.index, a.bytesused⟩ }
  queue : ∀ t, t.camera.videoIn.buf.index ∉ t.kernel.held → I t →
    I { t with kernel := t.kernel.queue t.camera.videoIn.buf.index }
  dequeued : ∀ t, I t → I { t with camera.nDequeued := int32 (t.camera.nDequeued + 1) }
  queued : ∀ t, I t → I { t with camera.nQueued := int32 (t.camera.nQueued + 1) }

section KeptByFrames

variable {I : CameraHardware → Prop} {P : Event → CameraHardware → Prop}
variable (hI : KeptByFrames I) (hP : ∀ e t, e.isRelease = false → P e t)
include hP

theorem keeps_act_id {e : Event} (he : e.isRelease = false) : Keeps I P (act e id) :=
  keeps_act fun t ht => ⟨ht, hP e t he⟩

include hI

namespace KeptByFrames

theorem dequeueBuffer (fn : CameraFn) : Keeps I P (V4L2Camera.dequeueBuffer fn) := by
  apply keeps_request
  intro t r ht hr
  refine ⟨?_, hP _ _ rfl⟩
  cases r with
  | none => exact hI.answered t ht
  | some a =>
    -- the driver hands out only what it holds
    obtain ⟨_, hallowed, rfl⟩ := (t.outcome_eq_some).mp hr
    rw [V4L2Camera.dequeues, Bool.and_eq_true, decide_eq_true_eq] at hallowed
    exact hI.dequeue _ _ hallowed.2 (hI.answered t ht)

theorem queueBuffer (fn : CameraFn) : Keeps I P (V4L2Camera.queueBuffer fn) := by
  apply keeps_request
  intro t r ht hr
  refine ⟨?_, hP _ _ rfl⟩
  cases r with
  | none => exact hI.answered t ht
  | some a =>
    obtain ⟨_, hallowed, _⟩ := (t.outcome_eq_some).mp hr
    rw [V4L2Camera.queues, Bool.and_eq_true, decide_eq_true_eq] at hallowed
    exact hI.queue _ hallowed.2 (hI.answered t ht)

theorem countDequeued : Keeps I P V4L2Camera.countDequeued :=
  keeps_act fun t ht => ⟨hI.dequeued t ht, hP _ _ rfl⟩

theorem countQueued : Keeps I P V4L2Camera.countQueued :=
  keeps_act fun t ht => ⟨hI.queued t ht, hP _ _ rfl⟩

theorem grabPreviewFrame : Keeps I P V4L2Camera.grabPreviewFrame := by
  have hret (ok : Bool) : Keeps I P (ret .grabPreviewFrame ok) := keeps_act_id hP rfl
  apply Keeps.bind (hI.dequeueBuffer hP _)
  intro r
  refine Keeps.ite (fun _ => (hret false).bind fun _ => keeps_pure _) fun _ => ?_
  refine Keeps.bind (hI.countDequeued hP) fun _ => Keeps.bind (hret true) fun _ => ?_
  exact Keeps.read_bind fun _ _ => keeps_pure _

theorem releasePreviewFrame : Keeps I P V4L2Camera.releasePreviewFrame := by
  apply Keeps.bind (hI.queueBuffer hP _)
  intro r
  exact Keeps.bind (hI.countQueued hP) fun _ => keeps_act_id hP rfl

theorem grabJpegFrame : Keeps I P V4L2Camera.grabJpegFrame := by
  have hret (ok : Bool) : Keeps I P (ret .grabJpegFrame ok) := keeps_act_id hP rfl
  -- DQBUF, the count, QBUF, the count, and only then the read
  apply Keeps.bind (hI.dequeueBuffer hP _)
  intro r
  refine Keeps.ite (fun _ => (hret false).bind fun _ => keeps_pure _) fun _ => ?_
  refine Keeps.bind (hI.countDequeued hP) fun _ => ?_
  apply Keeps.bind (hI.queueBuffer hP _)
  intro queued
  refine Keeps.ite (fun _ => (hret false).bind fun _ => keeps_pure _) fun _ => ?_
  refine Keeps.bind (hI.countQueued hP) fun _ => Keeps.read_bind fun s _ => ?_
  refine Keeps.bind (keeps_act_id hP rfl) fun _ => ?_
  exact (hret true).bind fun _ => keeps_pure _

/-- An iteration keeps what passing a frame keeps. -/
theorem previewFrame (stride : Nat) (width height : Int) :
    Keeps I P (CameraHardware.previewFrame stride width height) := by
  have hid {e : Event} (he : e.isRelease = false) : Keeps I P (act e id) := keeps_act_id hP he
  have hlock : Keeps I P CameraHardware.mapperLock :=
    keeps_request _ _ _ fun t _ ht _ => ⟨hI.answered t ht, hP _ _ rfl⟩
  -- lock, grab, convert for the window, convert for the client, release
  refine Keeps.bind (hid rfl) fun _ => Keeps.bind hlock fun dst => ?_
  apply Keeps.bind (hI.grabPreviewFrame hP)
  intro tempbuf
  refine Keeps.bind (Keeps.bind (hid rfl) fun _ => hid rfl) fun _ => ?_
  refine Keeps.bind (hid rfl) fun _ => Keeps.bind (hid rfl) fun _ => ?_
  apply Keeps.read_bind
  intro s _
  refine Keeps.bind (Keeps.when fun _ => Keeps.bind (hid rfl) fun _ => hid rfl) fun _ => ?_
  exact hI.releasePreviewFrame hP

end KeptByFrames

end KeptByFrames

/-- The session of a preview is kept by its frames; counting is no part of it. -/
theorem keptByFrames_running : KeptByFrames Running where
  answered _ h := h.answered
  dequeue _ _ ha h := h.dequeue ha
  queue _ hfree h := h.queue hfree
  dequeued _ h := ⟨fun i hi => ⟨(h.mapped i hi).mem, (h.mapped i hi).inPlace⟩, h.count,
    h.fdOpen, h.held_nodup, h.held_lt, h.index_lt⟩
  queued _ h := ⟨fun i hi => ⟨(h.mapped i hi).mem, (h.mapped i hi).inPlace⟩, h.count,
    h.fdOpen, h.held_nodup, h.held_lt, h.index_lt⟩

namespace CameraHardware

theorem quiet_previewFrame (stride : Nat) (width height : Int) :
    Quiet (fun _ _ => True) (previewFrame stride width height) := by
  intro c
  have houtside : KeptByFrames fun s => s.outside = c :=
    ⟨fun _ h => h, fun _ _ _ h => h, fun _ _ h => h, fun _ h => h, fun _ h => h⟩
  exact houtside.previewFrame (fun _ _ _ => trivial) stride width height

/-- The locked half of an iteration keeps the session of the preview. -/
theorem consistent_previewThreadLocked {t : CameraHardware} (h : Consistent t) :
    Consistent (previewThreadLocked.exec t) := by
  simp only [previewThreadLocked, exec_bind, val_read, exec_read]
  cases hiteration : t.iteration with
  | none => exact h
  | some size =>
    have hthread : t.mPreviewThread = true := h.thread (by rw [hiteration]; rfl)
    -- it is enough that the iteration keeps the thread and its session
    have hkept {p : CameraM Unit} (hp : Keeps (fun u => u.mPreviewThread = true ∧ Running u)
        (fun _ _ => True) p) : Consistent (p.exec { t with iteration := none }) := by
      obtain ⟨⟨hthread', hrunning⟩, -⟩ := hp { t with iteration := none }
        ⟨hthread, (h.running hthread).congr rfl rfl⟩
      exact ⟨fun _ => hrunning, fun _ => hthread'⟩
    refine hkept (Keeps.when fun _ => Keeps.bind ?_ fun r => ?_)
    · exact keeps_request _ _ _ fun u r hu _ => ⟨⟨hu.1, hu.2.answered⟩, trivial⟩
    cases r with
    | none => exact keeps_act fun u hu => ⟨⟨hu.1, hu.2.congr rfl rfl⟩, trivial⟩
    | some a =>
      intro u hu
      obtain ⟨hrunning, hlog⟩ :=
        keptByFrames_running.previewFrame (fun _ _ _ => trivial) a.stride size.1 size.2 u hu.2
      refine ⟨⟨?_, hrunning⟩, hlog⟩
      rw [mPreviewThread_exec (quiet_previewFrame _ _ _)]
      exact hu.1

end CameraHardware

/-! ## §4 Every Step -/

/-- Every step keeps the invariant. -/
theorem consistent_step {s t : CameraHardware} {a : Step} (hs : Consistent s)
    (hstep : cameraMachine.step s a = some t) : Consistent t := by
  obtain ⟨call, answers⟩ := a
  rw [cameraMachine, Option.ite_none_right_eq_some] at hstep
  obtain ⟨henabled, hexec⟩ := hstep
  rw [Option.some.injEq] at hexec
  subst hexec
  have hstart : Consistent (Step.start ⟨call, answers⟩ s) := hs.congr rfl
  have hiteration : s.iteration = none → (Step.start ⟨call, answers⟩ s).iteration = none := id
  have hthread : s.mPreviewThread = true →
      (Step.start ⟨call, answers⟩ s).mPreviewThread = true := id
  generalize Step.start ⟨call, answers⟩ s = u at hstart hiteration hthread
  have hT (e : Event) (t : CameraHardware) :
      e.isAccess = false → e.isCounted = false → e.isRelease = false → True :=
    fun _ _ _ => trivial
  -- a call that touches neither camera nor driver keeps what holds; each of the others has a lemma
  cases call with
  | setPreviewWindow | setParameters | enableMsgType | disableMsgType =>
    exact hstart.congr ((apart_code hT rfl).exec_eq u)
  | startPreview => exact CameraHardware.consistent_startPreview hstart
  | stopPreview =>
    -- the client waits for the thread, so no iteration is under way
    simp only [Call.enabled, Bool.and_eq_true, Option.isNone_iff_eq_none] at henabled
    exact (CameraHardware.idle_stopPreview (hiteration henabled.2)).consistent
  | takePicture =>
    simp only [Call.enabled, Bool.and_eq_true, Option.isNone_iff_eq_none] at henabled
    simp only [Call.code, exec_bind, exec_pure]
    exact CameraHardware.consistent_takePicture (hiteration henabled.2)
  | previewThread =>
    simp only [Call.enabled, Bool.and_eq_true] at henabled
    exact CameraHardware.consistent_previewThread hstart (hthread henabled.1)
  | previewThreadLocked => exact CameraHardware.consistent_previewThreadLocked hstart

theorem consistent_created (fd : Int) : Consistent (created fd) := ⟨nofun, nofun⟩

end Calls

/-! ## §5 Calls Without Access to a Frame -/

section Emits

variable {α : Type} {P : Event → CameraHardware → Prop}

theorem always_act {e : Event} {f : CameraHardware → CameraHardware} (he : ∀ t, P e t) :
    Keeps (fun _ => True) P (act e f) :=
  keeps_act fun _ _ => ⟨trivial, he _⟩

theorem always_startPreview (hP : ∀ e t, e.isFramed = false → P e t) :
    Keeps (fun _ => True) P CameraHardware.startPreview := by
  have hclose := (V4L2Camera.quiet_close hP).always
  apply Keeps.read_bind
  intro s _
  -- the ways out of the source, each with what it undoes
  refine Keeps.ite (fun _ => keeps_pure _) fun _ => ?_
  apply Keeps.bind (CameraHardware.quiet_openNode hP _ _).always
  intro opened
  refine Keeps.ite (fun _ => keeps_pure _) fun _ => ?_
  refine Keeps.bind (always_act fun t => hP _ t rfl) fun _ => ?_
  apply Keeps.bind (V4L2Camera.quiet_init hP).always
  intro ret
  refine Keeps.ite (fun _ => hclose.bind fun _ => keeps_pure _) fun _ => ?_
  apply Keeps.bind (V4L2Camera.quiet_startStreaming hP).always
  intro ret
  refine Keeps.ite (fun _ => ?_) fun _ => ?_
  · refine Keeps.bind (V4L2Camera.quiet_uninit hP).always fun _ => ?_
    exact hclose.bind fun _ => keeps_pure _
  · refine Keeps.bind (always_act fun t => hP _ t rfl) fun _ => ?_
    exact Keeps.bind (always_act fun t => hP _ t rfl) fun _ => keeps_pure _

theorem always_stopPreview (hP : ∀ e t, e.isFramed = false → P e t) :
    Keeps (fun _ => True) P CameraHardware.stopPreview := by
  refine Keeps.bind (always_act fun t => hP _ t rfl) fun _ => ?_
  apply Keeps.read_bind
  intro s _
  refine Keeps.bind (Keeps.when fun _ => (CameraHardware.quiet_shutDown hP).always) fun _ => ?_
  exact always_act fun t => hP _ t rfl

/-- Only an iteration and a picture access frames. -/
theorem emits_code_of_not_access (hP : ∀ e t, e.isAccess = false → P e t) {call : Call}
    (s : CameraHardware) (hpicture : call ≠ .takePicture) (hiteration : call ≠ .previewThreadLocked) :
    Emits P call.code s := by
  have hS := Event.of_not_isFramed hP
  have hdrop {β : Type} {p : CameraM β} (hp : Keeps (fun _ => True) P p) :
      Emits P (do let _ ← p) s := ((Keeps.bind hp fun _ => keeps_pure ()) s trivial).2
  -- none of these calls reads a frame
  cases call with
  | setPreviewWindow | setParameters | enableMsgType | disableMsgType =>
    exact (apart_code (fun e t he _ _ => hP e t he) rfl).emits s
  | startPreview => exact hdrop (always_startPreview hS)
  | stopPreview => exact (always_stopPreview hS s trivial).2
  | takePicture => exact absurd rfl hpicture
  | previewThread =>
    refine (Keeps.read_bind (I := fun _ => True) (fun t _ => ?_) s trivial).2
    exact Keeps.when fun _ => always_act fun u => hP _ u rfl
  | previewThreadLocked => exact absurd rfl hiteration

end Emits

/-! ## §6 What an Iteration Does With a Frame -/

namespace V4L2Camera

/-- The state in which `GrabPreviewFrame` returns the buffer that the driver names. -/
def grabbed (s : CameraHardware) (a : Answer) : CameraHardware :=
  { s.answered with
    kernel := s.answered.kernel.dequeue a.index
    camera.videoIn.buf := ⟨a.index, s.kernel.lengths a.index, a.bytesused⟩
    camera.nDequeued := int32 (s.camera.nDequeued + 1) }

theorem grabPreviewFrame_some {s : CameraHardware} {a : Answer}
    (h : s.outcome (dequeues s) = some a) :
    grabPreviewFrame.val s = frame (grabbed s a) ∧ grabPreviewFrame.exec s = grabbed s a := by
  simp [grabPreviewFrame, dequeueBuffer, countDequeued, assign, ret, h, grabbed,
    CameraHardware.answered]

theorem grabPreviewFrame_none {s : CameraHardware} (h : s.outcome (dequeues s) = none) :
    grabPreviewFrame.val s = .null ∧ grabPreviewFrame.exec s = s.answered := by
  simp [grabPreviewFrame, dequeueBuffer, ret, h]

end V4L2Camera

/-- What the accesses of one iteration are, and in which state they are made. -/
theorem emits_previewFrame_iff {P : Event → CameraHardware → Prop}
    (hA : ∀ e t, e.isAccess = false → P e t) (s : CameraHardware) (stride : Nat)
    (width height : Int) :
    Emits P (CameraHardware.previewFrame stride width height) s ↔
      P (.readFrame .convertYUYVtoRGB565 (V4L2Camera.grabPreviewFrame.val s.answered)
          (CameraHardware.convertYUYVtoRGB565Bytes width height))
        (V4L2Camera.grabPreviewFrame.exec s.answered) ∧
      P (.writeWindow (s.answerAt 0).ok stride
          (CameraHardware.convertYUYVtoRGB565Bytes width height))
        (V4L2Camera.grabPreviewFrame.exec s.answered) ∧
      (s.msgEnabled CameraHardware.msgPreviewFrame ||
          s.msgEnabled CameraHardware.msgVideoFrame →
        P (.readFrame .yuyv422ToYuv420sp (V4L2Camera.grabPreviewFrame.val s.answered)
            (CameraHardware.yuyv422ToYuv420spBytes width height))
          (V4L2Camera.grabPreviewFrame.exec s.answered)) := by
  have hgrab : Quiet P V4L2Camera.grabPreviewFrame := V4L2Camera.quiet_grabPreviewFrame hA
  have hrelease (t : CameraHardware) : Emits P V4L2Camera.releasePreviewFrame t :=
    (V4L2Camera.quiet_releasePreviewFrame hA).emits t
  -- the answer to the lock of the window buffer is the first of the frame
  have hlock : (s.outcome fun _ => true).isSome = (s.answerAt 0).ok := by
    rw [CameraHardware.outcome]
    cases (s.answerAt 0).ok <;> rfl
  -- no callee changes which messages are enabled
  have hmsg (msgType : BitVec 32) :
      (V4L2Camera.grabPreviewFrame.exec s.answered).msgEnabled msgType = s.msgEnabled msgType := by
    rw [CameraHardware.msgEnabled, mMsgEnabled_exec hgrab]
    rfl
  have hother {e : Event} (he : e.isAccess = false) (t : CameraHardware) : P e t ↔ True :=
    iff_true_intro (hA e t he)
  simp only [CameraHardware.previewFrame, CameraHardware.windowCall, CameraHardware.mapperLock,
    CameraHardware.convertYUYVtoRGB565, CameraHardware.yuyv422ToYuv420sp, emits_bind, emits_act,
    emits_read, emits_when, emits_request, exec_act, exec_bind, exec_request, val_request, val_read,
    exec_read, hrelease, hgrab.emits, hlock, hmsg, and_true, true_and, id, and_assoc,
    hother (e := .window _ _) rfl, hother (e := .dataFn _ _) rfl]

/-- The locked half of an iteration comes to a frame only if it gets a window buffer. -/
theorem emits_previewThreadLocked_iff {P : Event → CameraHardware → Prop}
    (hP : ∀ e t, e.isAccess = false → e.isCounted = false → P e t) (s : CameraHardware) :
    Emits P CameraHardware.previewThreadLocked s ↔
      ∀ width height, s.iteration = some (width, height) → s.mNativeWindow = true →
        (s.answerAt 0).ok = true →
        Emits P (CameraHardware.previewFrame (s.answerAt 0).stride width height)
          { s.answered with iteration := none } := by
  simp only [CameraHardware.previewThreadLocked, emits_bind, emits_read, val_read, exec_read,
    true_and]
  -- without an iteration under way there is nothing to do
  cases hiteration : s.iteration with
  | none => simp
  | some size =>
    obtain ⟨width, height⟩ := size
    have hassign : P (.assign "width, height") { s with iteration := none } := hP _ _ rfl rfl
    simp only [assign, emits_bind, emits_act, exec_act, hassign, true_and, emits_when,
      CameraHardware.dequeueWindow, emits_request, val_request, exec_request]
    constructor
    · rintro h _ _ ⟨rfl, rfl⟩ hwindow hok
      have hr : ({ s with iteration := none } : CameraHardware).outcome (fun _ => true) =
          some (s.answerAt 0) := (CameraHardware.outcome_eq_some _).mpr ⟨hok, rfl, rfl⟩
      have hframe := (h hwindow).2
      rw [hr] at hframe
      exact hframe
    · intro h hwindow
      -- without a buffer of the window the thread returns at once
      refine ⟨hP _ _ rfl rfl, ?_⟩
      cases hr : ({ s with iteration := none } : CameraHardware).outcome fun _ => true with
      | none => exact (emits_act _ _ _).mpr (hP _ _ rfl rfl)
      | some a =>
        obtain ⟨hok, _, rfl⟩ := (CameraHardware.outcome_eq_some _).mp hr
        exact h width height rfl hwindow hok

/-- The state after the locked half of an iteration of that size. -/
theorem exec_previewThreadLocked {s : CameraHardware} {width height : Int}
    (hiteration : s.iteration = some (width, height)) :
    CameraHardware.previewThreadLocked.exec s =
      if s.mNativeWindow then
        if (s.answerAt 0).ok then
          (CameraHardware.previewFrame (s.answerAt 0).stride width height).exec
            { s.answered with iteration := none }
        else { s.answered with iteration := none, mLockLeft := true }
      else { s with iteration := none } := by
  simp only [CameraHardware.previewThreadLocked, exec_bind, val_read, exec_read, hiteration, assign,
    exec_act, exec_when, CameraHardware.dequeueWindow, val_request, exec_request]
  -- no window, no buffer of the window, or a frame
  by_cases hwindow : s.mNativeWindow = true
  · simp only [if_pos hwindow]
    by_cases hok : (s.answerAt 0).ok = true
    · have hr : ({ s with iteration := none } : CameraHardware).outcome (fun _ => true) =
          some (s.answerAt 0) := (CameraHardware.outcome_eq_some _).mpr ⟨hok, rfl, rfl⟩
      rw [hr, if_pos hok]
      rfl
    · have hr : ({ s with iteration := none } : CameraHardware).outcome (fun _ => true) = none :=
        (CameraHardware.outcome_eq_none _).mpr fun h => hok h.1
      rw [hr, if_neg hok]
      rfl
  · simp only [if_neg hwindow]

theorem mPreviewThread_previewThreadLocked {s : CameraHardware} {width height : Int}
    (hiteration : s.iteration = some (width, height)) :
    (CameraHardware.previewThreadLocked.exec s).mPreviewThread = s.mPreviewThread := by
  rw [exec_previewThreadLocked hiteration]
  split
  · split
    · exact mPreviewThread_exec (CameraHardware.quiet_previewFrame _ _ _) _
    · rfl
  · rfl

/-! ## §7 What a Picture Is Made From -/

namespace V4L2Camera

/-- The state after the buffer in `videoIn->buf` has been queued and counted. -/
def requeued (s : CameraHardware) : CameraHardware :=
  { s.answered with
    kernel := s.answered.kernel.queue s.camera.videoIn.buf.index
    camera.nQueued := int32 (s.camera.nQueued + 1) }

/-- The only access of `GrabJpegFrame` is made after the buffer has been queued again. -/
theorem emits_grabJpegFrame_iff {P : Event → CameraHardware → Prop}
    (hA : ∀ e t, e.isAccess = false → P e t) (s : CameraHardware) :
    Emits P grabJpegFrame s ↔
      ∀ a, s.outcome (dequeues s) = some a →
        ((grabbed s a).outcome fun _ => queues (grabbed s a)).isSome →
        P (.readFrame .saveYUYVtoJPEG (frame (requeued (grabbed s a)))
            (saveYUYVtoJPEGBytes s.camera.videoIn.width s.camera.videoIn.height))
          (requeued (grabbed s a)) := by
  have hS := Event.of_not_isFramed hA
  have hdequeue : Emits P (dequeueBuffer .grabJpegFrame) s :=
    (quiet_dequeueBuffer fun _ _ t => hA _ t rfl).emits s
  have hcount (t : CameraHardware) : Emits P countDequeued t := (quiet_countDequeued hS).emits t
  have hqueue (t : CameraHardware) : Emits P (queueBuffer .grabJpegFrame) t :=
    (quiet_queueBuffer fun _ _ t => hA _ t rfl).emits t
  have hqueued (t : CameraHardware) : Emits P countQueued t := (quiet_countQueued hS).emits t
  have hret (ok : Bool) (t : CameraHardware) : Emits P (ret .grabJpegFrame ok) t :=
    (emits_act _ _ _).mpr (hA _ _ rfl)
  simp only [grabJpegFrame, emits_bind, hdequeue, true_and, emits_ite, hret, hcount, hqueue,
    hqueued, emits_pure, emits_read, and_true, emits_act, val_read, exec_read, id]
  cases hr : s.outcome (dequeues s) with
  -- no frame, and nothing is read
  | none => simp [dequeueBuffer, hr]
  | some a =>
    have hgrab : (countDequeued.exec ((dequeueBuffer .grabJpegFrame).exec s)) = grabbed s a := by
      simp [dequeueBuffer, countDequeued, assign, hr, grabbed, CameraHardware.answered]
    have hval : (dequeueBuffer .grabJpegFrame).val s = some a := hr
    rw [hval, hgrab]
    cases hq : (grabbed s a).outcome fun _ => queues (grabbed s a) with
    -- the frame is not given back, and `GrabJpegFrame` returns before it reads
    | none => simp [queueBuffer, hq]
    | some b =>
      have hrequeue : countQueued.exec ((queueBuffer .grabJpegFrame).exec (grabbed s a)) =
          requeued (grabbed s a) := by
        simp [queueBuffer, countQueued, assign, hq, requeued, CameraHardware.answered]
      have hval' : (queueBuffer .grabJpegFrame).val (grabbed s a) = some b := hq
      rw [hval', hrequeue]
      constructor
      · rintro h a' ⟨rfl⟩ _
        exact h
      · intro h
        exact h a rfl (by rw [hq]; rfl)

end V4L2Camera

end OdroidU2.Camera
