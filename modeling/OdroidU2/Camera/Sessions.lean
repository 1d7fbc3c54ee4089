import OdroidU2.Camera.CameraHardware
import Mathlib

/-!
# Capture Sessions

What each function of `V4L2Camera` does to a capture session, said once for all results
about the camera.

- `Quiet` — what a function leaves alone, with the actions it takes
- `openNode_triple` — a node that was opened has no buffers yet
- `init_rounds` — how far `Init` gets: the first `k` buffers are mapped, queued and counted
- `Running` — the session of a running preview
-/

namespace OdroidU2.Camera

open OdroidU2.Foundations Prog

/-! ## §1 What the Functions of `V4L2Camera` Leave Alone -/

/-- The members that the functions of `V4L2Camera` have no part in. -/
def CameraHardware.outside (s : CameraHardware) :=
  (s.mParameters, s.mNativeWindow, s.geometry, s.previewStopped, s.mPreviewThread, s.mMsgEnabled,
    s.mLockLeft, s.iteration)

/-- `p` leaves these members alone and takes only actions that satisfy `P`. -/
abbrev Quiet {α : Type} (P : Event → CameraHardware → Prop) (p : CameraM α) : Prop :=
  Leaves CameraHardware.outside P p

section Quiet

variable {α : Type} {P : Event → CameraHardware → Prop} {p : CameraM α}

theorem mPreviewThread_exec (hp : Quiet P p) (s : CameraHardware) :
    (p.exec s).mPreviewThread = s.mPreviewThread :=
  congrArg (fun o => o.2.2.2.2.1) (hp.exec_eq s)

theorem mMsgEnabled_exec (hp : Quiet P p) (s : CameraHardware) :
    (p.exec s).mMsgEnabled = s.mMsgEnabled :=
  congrArg (fun o => o.2.2.2.2.2.1) (hp.exec_eq s)

theorem iteration_exec (hp : Quiet P p) (s : CameraHardware) :
    (p.exec s).iteration = s.iteration :=
  congrArg (fun o => o.2.2.2.2.2.2.2) (hp.exec_eq s)

end Quiet

section Buffer

variable {P : Event → CameraHardware → Prop} {fn : CameraFn}

namespace V4L2Camera

theorem quiet_queueBuffer (hP : ∀ i ok t, P (.qbuf fn i ok) t) : Quiet P (queueBuffer fn) :=
  leaves_request _ _ _ (fun _ _ t => hP _ _ t) fun r _ => by cases r <;> rfl

theorem quiet_dequeueBuffer (hP : ∀ held ok t, P (.dqbuf fn held ok) t) :
    Quiet P (dequeueBuffer fn) :=
  leaves_request _ _ _ (fun _ _ t => hP _ _ t) fun r _ => by cases r <;> rfl

end V4L2Camera

end Buffer

section Session

variable {P : Event → CameraHardware → Prop} (hP : ∀ e t, e.isFramed = false → P e t)
include hP

namespace V4L2Camera

theorem quiet_fail (fn : CameraFn) : Quiet P (fail fn) :=
  Leaves.bind (leaves_act (fun t => hP _ t rfl) fun _ => rfl) fun _ => leaves_pure _

theorem quiet_succeed (fn : CameraFn) : Quiet P (succeed fn) :=
  Leaves.bind (leaves_act (fun t => hP _ t rfl) fun _ => rfl) fun _ => leaves_pure _

theorem quiet_ioctl {name : String} {effect : Answer → CameraHardware → CameraHardware}
    (h : ∀ a s, (effect a s).outside = s.outside) : Quiet P (ioctl name effect) := by
  apply leaves_request _ _ _ (fun _ _ t => hP _ t rfl)
  intro r s
  cases r with
  | none => rfl
  | some a => exact h a s.answered

theorem quiet_open (device : Nat) (width height : Int) (pixelformat : Nat) :
    Quiet P (V4L2Camera.open device width height pixelformat) := by
  refine Leaves.bind (leaves_request _ _ _ (fun _ _ t => hP _ t rfl) fun r _ => by cases r <;> rfl)
    fun fd => ?_
  -- the ways out of `Open`: no device, no answer to QUERYCAP, no capture, no streaming, no format
  apply Leaves.ite (quiet_fail hP _)
  refine Leaves.bind (quiet_ioctl hP fun _ _ => rfl) fun cap => ?_
  apply Leaves.ite (quiet_fail hP _)
  apply Leaves.ite (quiet_fail hP _)
  apply Leaves.ite (quiet_fail hP _)
  refine Leaves.bind (leaves_act (fun t => hP _ t rfl) fun _ => rfl) fun _ => ?_
  refine Leaves.bind (quiet_ioctl hP fun _ _ => rfl) fun format => ?_
  exact Leaves.ite (quiet_fail hP _) (quiet_succeed hP _)

theorem quiet_close : Quiet P close := by
  apply Leaves.read_bind
  intro s
  refine Leaves.bind (leaves_act (fun t => hP _ t rfl) fun _ => rfl) fun _ => ?_
  exact leaves_act (fun t => hP _ t rfl) fun _ => rfl

theorem quiet_countQueued : Quiet P countQueued :=
  leaves_act (fun t => hP _ t rfl) fun _ => rfl

theorem quiet_countDequeued : Quiet P countDequeued :=
  leaves_act (fun t => hP _ t rfl) fun _ => rfl

theorem quiet_initFrom (i n : Nat) : Quiet P (initFrom i n) := by
  -- round by round: query, map, queue, each of which can fail
  induction n generalizing i with
  | zero => exact quiet_succeed hP _
  | succ n ih =>
    refine Leaves.bind (leaves_act (fun t => hP _ t rfl) fun _ => rfl) fun _ => ?_
    refine Leaves.bind
      (leaves_request _ _ _ (fun _ _ t => hP _ t rfl) fun r _ => by cases r <;> rfl) fun length => ?_
    apply Leaves.ite (quiet_fail hP _)
    refine Leaves.bind
      (leaves_request _ _ _ (fun _ _ t => hP _ t rfl) fun r _ => by cases r <;> rfl) fun mapped => ?_
    apply Leaves.ite (quiet_fail hP _)
    apply Leaves.bind (quiet_queueBuffer fun _ _ t => hP _ t rfl)
    intro queued
    apply Leaves.ite (quiet_fail hP _)
    exact (quiet_countQueued hP).bind fun _ => ih (i + 1)

theorem quiet_init : Quiet P init := by
  refine Leaves.bind (quiet_ioctl hP fun _ _ => rfl) fun granted => ?_
  exact Leaves.ite (quiet_fail hP _) (quiet_initFrom hP 0 nbBuffer)

theorem quiet_dequeueTimes (n : Nat) : Quiet P (dequeueTimes n) := by
  induction n with
  | zero => exact leaves_pure ()
  | succ n ih => exact (quiet_dequeueBuffer fun _ _ t => hP _ t rfl).bind fun _ => ih

theorem quiet_unmapFrom (i n : Nat) : Quiet P (unmapFrom i n) := by
  induction n generalizing i with
  | zero => exact leaves_pure ()
  | succ n ih =>
    have hunmap : Quiet P (unmapBuffer i) :=
      Leaves.read_bind fun _ =>
        leaves_request _ _ _ (fun _ _ t => hP _ t rfl) fun r _ => by cases r <;> rfl
    exact hunmap.bind fun _ => ih (i + 1)

theorem quiet_uninit : Quiet P uninit := by
  apply Leaves.read_bind
  intro s
  refine Leaves.bind (quiet_dequeueTimes hP _) fun _ => ?_
  refine Leaves.bind (leaves_act (fun t => hP _ t rfl) fun _ => rfl) fun _ => ?_
  refine Leaves.bind (quiet_unmapFrom hP 0 nbBuffer) fun _ => ?_
  exact leaves_act (fun t => hP _ t rfl) fun _ => rfl

theorem quiet_startStreaming : Quiet P startStreaming := by
  apply Leaves.read_bind
  intro s
  apply Leaves.ite (quiet_succeed hP _)
  refine Leaves.bind (quiet_ioctl hP fun _ _ => rfl) fun on => ?_
  apply Leaves.ite (quiet_fail hP _)
  exact Leaves.bind (leaves_act (fun t => hP _ t rfl) fun _ => rfl) fun _ => quiet_succeed hP _

theorem quiet_stopStreaming : Quiet P stopStreaming := by
  apply Leaves.read_bind
  intro s
  refine Leaves.ite ?_ (quiet_succeed hP _)
  refine Leaves.bind (quiet_ioctl hP fun _ _ => rfl) fun off => ?_
  apply Leaves.ite (quiet_fail hP _)
  exact Leaves.bind (leaves_act (fun t => hP _ t rfl) fun _ => rfl) fun _ => quiet_succeed hP _

end V4L2Camera

namespace CameraHardware

theorem quiet_openNode (width height : Int) : Quiet P (openNode width height) := by
  apply Leaves.bind (V4L2Camera.quiet_open hP _ _ _ _)
  intro opened
  exact Leaves.ite (leaves_pure _) (V4L2Camera.quiet_open hP _ _ _ _)

theorem quiet_shutDown : Quiet P shutDown := by
  refine Leaves.bind (V4L2Camera.quiet_uninit hP) fun _ => ?_
  refine Leaves.bind (V4L2Camera.quiet_stopStreaming hP) fun _ => ?_
  exact V4L2Camera.quiet_close hP

end CameraHardware

end Session

section Frame

variable {P : Event → CameraHardware → Prop} (hP : ∀ e t, e.isAccess = false → P e t)
include hP

namespace V4L2Camera

theorem quiet_grabPreviewFrame : Quiet P grabPreviewFrame := by
  have hS := Event.of_not_isFramed hP
  have hret (ok : Bool) : Quiet P (ret .grabPreviewFrame ok) :=
    leaves_act (fun t => hP _ t rfl) fun _ => rfl
  apply Leaves.bind (quiet_dequeueBuffer fun _ _ t => hP _ t rfl)
  intro r
  apply Leaves.ite ((hret false).bind fun _ => leaves_pure _)
  refine Leaves.bind (quiet_countDequeued hS) fun _ => Leaves.bind (hret true) fun _ => ?_
  exact Leaves.read_bind fun _ => leaves_pure _

theorem quiet_releasePreviewFrame : Quiet P releasePreviewFrame := by
  have hS := Event.of_not_isFramed hP
  apply Leaves.bind (quiet_queueBuffer fun _ _ t => hP _ t rfl)
  intro r
  refine Leaves.bind (quiet_countQueued hS) fun _ => ?_
  exact leaves_act (fun t => hP _ t rfl) fun _ => rfl

/-- `GrabJpegFrame` accesses a frame, and what `P` says about that is up to `P`. -/
theorem quiet_grabJpegFrame (hjpeg : ∀ frame n t, P (.readFrame .saveYUYVtoJPEG frame n) t) :
    Quiet P grabJpegFrame := by
  have hS := Event.of_not_isFramed hP
  have hret (ok : Bool) : Quiet P (ret .grabJpegFrame ok) :=
    leaves_act (fun t => hP _ t rfl) fun _ => rfl
  -- DQBUF, the count, QBUF, the count, and only then the read
  apply Leaves.bind (quiet_dequeueBuffer fun _ _ t => hP _ t rfl)
  intro r
  apply Leaves.ite ((hret false).bind fun _ => leaves_pure _)
  refine Leaves.bind (quiet_countDequeued hS) fun _ => ?_
  apply Leaves.bind (quiet_queueBuffer fun _ _ t => hP _ t rfl)
  intro queued
  apply Leaves.ite ((hret false).bind fun _ => leaves_pure _)
  refine Leaves.bind (quiet_countQueued hS) fun _ => ?_
  apply Leaves.read_bind
  intro s
  refine Leaves.bind (leaves_act (hjpeg _ _) fun _ => rfl) fun _ => ?_
  exact (hret true).bind fun _ => leaves_pure _

end V4L2Camera

namespace CameraHardware

theorem quiet_pictureThread (hjpeg : ∀ frame n t, P (.readFrame .saveYUYVtoJPEG frame n) t) :
    Quiet P pictureThread := by
  have hS := Event.of_not_isFramed hP
  apply Leaves.read_bind
  intro s
  refine Leaves.bind (Leaves.when (leaves_act (fun t => hP _ t rfl) fun _ => rfl)) fun _ => ?_
  apply Leaves.bind (quiet_openNode hS _ _)
  intro opened
  apply Leaves.ite (leaves_pure _)
  refine Leaves.bind (V4L2Camera.quiet_init hS) fun _ => ?_
  refine Leaves.bind (V4L2Camera.quiet_startStreaming hS) fun _ => ?_
  -- the answers of `Init` and STREAMON are not asked for, so the picture follows in any case
  have hpicture : Quiet P compressedImage := by
    apply Leaves.read_bind
    intro t
    apply Leaves.when
    apply Leaves.bind (V4L2Camera.quiet_grabJpegFrame hP hjpeg)
    intro picture
    exact leaves_act (fun t => hP _ t rfl) fun _ => rfl
  refine Leaves.bind hpicture fun _ => ?_
  exact (quiet_shutDown hS).bind fun _ => leaves_pure _

end CameraHardware

end Frame

/-- The unmapping is a matter of the mappings alone. -/
theorem leaves_unmapFrom {P : Event → CameraHardware → Prop}
    (hP : ∀ frame length ok t, P (.munmap frame length ok) t) (i n : Nat) :
    Leaves (fun s => (s.camera, s.kernel.held)) P (V4L2Camera.unmapFrom i n) := by
  -- slot by slot; `munmap` changes the mappings only
  induction n generalizing i with
  | zero => exact leaves_pure ()
  | succ n ih =>
    have hunmap : Leaves (fun s => (s.camera, s.kernel.held)) P (V4L2Camera.unmapBuffer i) := by
      refine Leaves.read_bind fun s => leaves_request _ _ _ (fun _ _ t => hP _ _ _ t) fun r t => ?_
      cases r with
      | none => rfl
      | some a => exact congrArg (Prod.mk t.camera) (Kernel.munmap_held _ _ _)
    exact hunmap.bind fun _ => ih (i + 1)

/-! ## §2 Opening -/

section Triples

variable {P : Event → CameraHardware → Prop} {pre : CameraHardware → Prop}

theorem triple_fail {fn : CameraFn} (hP : ∀ t, pre t → P (.ret fn false) t) :
    Triple pre P (V4L2Camera.fail fn) fun v t => v = -1 ∧ pre t := by
  intro s hs
  simp [V4L2Camera.fail, ret, hs, hP s hs]

theorem triple_succeed {fn : CameraFn} (hP : ∀ t, pre t → P (.ret fn true) t) :
    Triple pre P (V4L2Camera.succeed fn) fun v t => v = 0 ∧ pre t := by
  intro s hs
  simp [V4L2Camera.succeed, ret, hs, hP s hs]

/-- A request that succeeds whenever its answer says so keeps what its effect keeps. -/
theorem keeps_ioctl {I : CameraHardware → Prop} {name : String}
    {effect : Answer → CameraHardware → CameraHardware} (hP : ∀ ok t, P (.ioctl name ok) t)
    (hanswered : ∀ t, I t → I t.answered) (heffect : ∀ a t, I t → I (effect a t)) :
    Keeps I P (V4L2Camera.ioctl name effect) := by
  apply keeps_request
  intro s r hs _
  refine ⟨?_, hP _ _⟩
  cases r with
  | none => exact hanswered s hs
  | some a => exact heffect a _ (hanswered s hs)

end Triples

/-- The counters have these values, and a session is on or not. -/
structure Counted (queued dequeued : Int) (session : Bool) (t : CameraHardware) : Prop where
  nQueued : t.camera.nQueued = queued
  nDequeued : t.camera.nDequeued = dequeued
  session : t.session = session

/-- The descriptor is open, and the driver holds no buffer of its file. -/
structure Fresh (t : CameraHardware) : Prop where
  fdOpen : t.fdOpen = true
  held : t.kernel.held = []

section Open

variable {P : Event → CameraHardware → Prop} {queued dequeued : Int} {session : Bool}

/-- `Open` leaves the counters alone; when it returns no error there is a fresh file. -/
theorem open_triple (hP : ∀ e t, e.isCounted = false → P e t) (device : Nat)
    (width height : Int) (pixelformat : Nat) :
    Triple (Counted queued dequeued session) P
      (V4L2Camera.open device width height pixelformat)
      fun v t => Counted queued dequeued session t ∧ (0 ≤ v → Fresh t) := by
  have hfail : Triple (Counted queued dequeued session) P (V4L2Camera.fail .open)
      fun v t => Counted queued dequeued session t ∧ (0 ≤ v → Fresh t) := by
    apply (triple_fail fun t _ => hP _ t rfl).mono (fun _ h => h)
    intro v t h
    exact ⟨h.2, fun hv => absurd hv (by rw [h.1]; decide)⟩
  have hopen : Triple (Counted queued dequeued session) P (V4L2Camera.sysOpen device)
      fun r t => Counted queued dequeued session t ∧ (r.isNone = false → Fresh t) := by
    apply triple_request
    intro s r hs _
    refine ⟨hP _ _ rfl, ?_⟩
    cases r with
    | none => exact ⟨⟨hs.1, hs.2, hs.3⟩, nofun⟩
    | some a =>
      refine ⟨⟨hs.1, hs.2, hs.3⟩, fun _ => ⟨?_, rfl⟩⟩
      simp [CameraHardware.fdOpen, Kernel.openFile]
  apply hopen.bind
  intro fd
  -- `open` fails, and there is no descriptor to ask anything of
  apply Triple.ite
  · exact fun _ => hfail.mono (fun _ h => h.1) fun _ _ h => h
  intro hfd
  have hfresh : ∀ t, (Counted queued dequeued session t ∧ (fd.isNone = false → Fresh t)) →
      Counted queued dequeued session t ∧ Fresh t :=
    fun t h => ⟨h.1, h.2 (Bool.not_eq_true _ ▸ hfd)⟩
  have hfail' : Triple (fun t => Counted queued dequeued session t ∧ Fresh t) P
      (V4L2Camera.fail .open)
      fun v t => Counted queued dequeued session t ∧ (0 ≤ v → Fresh t) :=
    hfail.mono (fun _ h => h.1) fun _ _ h => h
  refine Triple.mono ?_ hfresh fun _ _ h => h
  -- from here on every request keeps both
  have hanswered : ∀ t, Counted queued dequeued session t ∧ Fresh t →
      Counted queued dequeued session t.answered ∧ Fresh t.answered :=
    fun t h => ⟨⟨h.1.1, h.1.2, h.1.3⟩, h.2.1, h.2.2⟩
  refine Triple.bind (keeps_ioctl (fun _ t => hP _ t rfl) hanswered fun _ _ h => h).triple
    fun cap => ?_
  refine Triple.ite (fun _ => hfail') fun _ => ?_
  refine Triple.ite (fun _ => hfail') fun _ => ?_
  refine Triple.ite (fun _ => hfail') fun _ => ?_
  refine Triple.bind (Keeps.triple (keeps_act fun t h =>
    ⟨⟨⟨h.1.1, h.1.2, h.1.3⟩, h.2.1, h.2.2⟩, hP _ _ rfl⟩)) fun _ => ?_
  have hformat : Keeps (fun t => Counted queued dequeued session t ∧ Fresh t) P
      V4L2Camera.setFormat :=
    keeps_ioctl (fun _ t => hP _ t rfl) hanswered
      fun _ _ h => ⟨⟨h.1.1, h.1.2, h.1.3⟩, h.2.1, h.2.2⟩
  apply Triple.bind hformat.triple
  intro format
  refine Triple.ite (fun _ => hfail') fun _ => ?_
  apply (triple_succeed fun t _ => hP _ t rfl).mono (fun _ h => h)
  exact fun v t h => ⟨h.2.1, fun _ => h.2.2⟩

/-- The same for the search for a node. -/
theorem openNode_triple (hP : ∀ e t, e.isCounted = false → P e t) (width height : Int) :
    Triple (Counted queued dequeued session) P (CameraHardware.openNode width height)
      fun v t => Counted queued dequeued session t ∧ (0 ≤ v → Fresh t) := by
  apply (open_triple hP _ _ _ _).bind
  intro v
  apply Triple.ite
  · intro hv
    exact triple_pure fun t h => ⟨h.1, h.2⟩
  · intro _
    exact (open_triple hP _ _ _ _).mono (fun _ h => h.1) fun _ _ h => h

end Open

/-! ## §3 `Init` -/

/-- The mapping of buffer `i` of the camera's file. -/
def bufferMapping (t : CameraHardware) (i : Nat) : Mapping :=
  ⟨t.camera.fd, i, t.kernel.lengths i⟩

/-- `mem[i]` is the mapping of buffer `i`, and the mapping is in place. -/
structure MappedAt (t : CameraHardware) (i : Nat) : Prop where
  mem : t.camera.videoIn.mem i = .map (bufferMapping t i)
  inPlace : bufferMapping t i ∈ t.kernel.maps

/-- The first `k` buffers are mapped and queued, and added to what the counters counted
before. -/
structure Filled (before : Int) (k : Nat) (t : CameraHardware) : Prop where
  fdOpen : t.fdOpen = true
  held : t.kernel.held = (List.range k).reverse
  mapped : ∀ j < k, MappedAt t j
  count : k ≤ t.kernel.count
  balance : V4L2Camera.dqCount t = int32 (before + k)
  session : 0 < k → t.session = true

/-- Are the three requests of the round of `Init` for buffer `i` accepted, if `answer` tells
what the driver answers from there on? -/
abbrev Accepted (answer : Nat → Answer) (count i : Nat) : Prop :=
  i < count ∧ (answer 0).ok ∧ (answer 1).ok ∧ (answer 2).ok

/-- How many rounds, of `n` from buffer `i` on, are accepted one after the other. -/
def acceptedRounds (answer : Nat → Answer) (count i : Nat) : Nat → Nat
  | 0 => 0
  | n + 1 =>
    if Accepted answer count i then
      acceptedRounds (fun m => answer (m + 3)) count (i + 1) n + 1
    else 0

theorem acceptedRounds_le (answer : Nat → Answer) (count i n : Nat) :
    acceptedRounds answer count i n ≤ n := by
  induction n generalizing answer i with
  | zero => exact Nat.le_refl 0
  | succ n ih =>
    rw [acceptedRounds]
    split
    · exact Nat.succ_le_succ (ih _ _)
    · exact Nat.zero_le _

/-- How many buffers are mapped in these rounds: in the last one the driver may have refused
the buffer that was mapped. -/
def mappedRounds (answer : Nat → Answer) (count i : Nat) : Nat → Nat
  | 0 => 0
  | n + 1 =>
    if i < count ∧ (answer 0).ok ∧ (answer 1).ok then
      (if (answer 2).ok then mappedRounds (fun m => answer (m + 3)) count (i + 1) n else 0) + 1
    else 0

theorem mappedRounds_le (answer : Nat → Answer) (count i n : Nat) :
    mappedRounds answer count i n ≤ n := by
  induction n generalizing answer i with
  | zero => exact Nat.le_refl 0
  | succ n ih =>
    have hrest := ih (fun m => answer (m + 3)) (i + 1)
    rw [mappedRounds]
    split
    · split <;> omega
    · exact Nat.zero_le _

theorem acceptedRounds_le_mappedRounds (answer : Nat → Answer) (count i n : Nat) :
    acceptedRounds answer count i n ≤ mappedRounds answer count i n := by
  induction n generalizing answer i with
  | zero => exact Nat.le_refl 0
  | succ n ih =>
    rw [acceptedRounds]
    split
    · next hacc =>
      rw [mappedRounds, if_pos ⟨hacc.1, hacc.2.1, hacc.2.2.1⟩, if_pos hacc.2.2.2]
      exact Nat.succ_le_succ (ih _ _)
    · exact Nat.zero_le _

/-- What holds of the session once so many buffers are mapped is kept by the steps of `Init`
that map none, and grows with `mmap`. -/
structure KeptByInit (J : Nat → CameraHardware → Prop) : Prop where
  answered : ∀ i t, J i t → J i t.answered
  requestBuffers : ∀ count t, J 0 t →
    J 0 { t with kernel := t.kernel.requestBuffers count, session := true }
  clearBuf : ∀ i t, i < nbBuffer → J i t → J i { t with camera.videoIn.buf := ⟨i, 0, 0⟩ }
  queryBuffer : ∀ i t length, i < nbBuffer → t.camera.videoIn.buf.index = i → J i t →
    J i { t with
      kernel := t.kernel.queryBuffer t.camera.videoIn.buf.index length
      camera.videoIn.buf.length := length }
  mapFailed : ∀ i t, J i t → J i { t with
    camera.videoIn.mem := Function.update t.camera.videoIn.mem i .failed }
  mapBuffer : ∀ i t, i < nbBuffer → t.camera.videoIn.buf.index = i →
    t.camera.videoIn.buf.length = t.kernel.lengths i → J i t →
    J (i + 1) { t with
      kernel := t.kernel.mmap (V4L2Camera.bufMapping t)
      camera.videoIn.mem :=
        Function.update t.camera.videoIn.mem i (.map (V4L2Camera.bufMapping t)) }
  queue : ∀ i t, i < nbBuffer → J (i + 1) t → J (i + 1) { t with kernel := t.kernel.queue i }
  countQueued : ∀ i t, J i t → J i { t with camera.nQueued := int32 (t.camera.nQueued + 1) }

/-- Inside a round of `Init`: the rounds before are done, and these answers are left. -/
structure InRound (before : Int) (answer : Nat → Answer) (count i : Nat) (t : CameraHardware) :
    Prop where
  answers : t.answerAt = answer
  count : t.kernel.count = count
  session : t.session = true
  filled : Filled before i t

section Init

variable {P : Event → CameraHardware → Prop} {before : Int}

theorem InRound.clearBuf {answer : Nat → Answer} {count i : Nat} {t : CameraHardware}
    (h : InRound before answer count i t) :
    InRound before answer count i { t with camera.videoIn.buf := ⟨i, 0, 0⟩ } :=
  ⟨h.answers, h.count, h.session, h.filled.fdOpen, h.filled.held,
    fun j hj => ⟨(h.filled.mapped j hj).mem, (h.filled.mapped j hj).inPlace⟩,
    h.filled.count, h.filled.balance, h.filled.session⟩

theorem InRound.answered {answer : Nat → Answer} {count i : Nat} {t : CameraHardware}
    (h : InRound before answer count i t) :
    InRound before (fun m => answer (m + 1)) count i t.answered := by
  refine ⟨?_, h.count, h.session, h.filled.fdOpen, h.filled.held,
    fun j hj => ⟨(h.filled.mapped j hj).mem, (h.filled.mapped j hj).inPlace⟩,
    h.filled.count, h.filled.balance, h.filled.session⟩
  funext m
  rw [← h.answers]
  exact t.kernel.answered_answerAt m

theorem InRound.queryBuffer {answer : Nat → Answer} {count i : Nat} {t : CameraHardware}
    (h : InRound before answer count i t) (hindex : t.camera.videoIn.buf.index = i) (length : Nat) :
    InRound before answer count i
      { t with
        kernel := t.kernel.queryBuffer t.camera.videoIn.buf.index length
        camera.videoIn.buf.length := length } := by
  refine ⟨h.answers, h.count, h.session, h.filled.fdOpen, h.filled.held, fun j hj => ?_,
    h.filled.count, h.filled.balance, h.filled.session⟩
  -- only the length of buffer `i` is new
  have hsame : Function.update t.kernel.lengths t.camera.videoIn.buf.index length j =
      t.kernel.lengths j := Function.update_of_ne (by omega) _ _
  obtain ⟨hmem, hplace⟩ := h.filled.mapped j hj
  constructor
  · simpa [bufferMapping, Kernel.queryBuffer, hsame] using hmem
  · simpa [bufferMapping, Kernel.queryBuffer, hsame] using hplace

theorem InRound.mapBuffer {answer : Nat → Answer} {count i : Nat} {t : CameraHardware}
    (h : InRound before answer count i t) :
    InRound before answer count i
      { t with
        kernel := t.kernel.mmap (V4L2Camera.bufMapping t)
        camera.videoIn.mem :=
          Function.update t.camera.videoIn.mem i (.map (V4L2Camera.bufMapping t)) } := by
  refine ⟨h.answers, h.count, h.session, h.filled.fdOpen, h.filled.held, fun j hj => ?_,
    h.filled.count, h.filled.balance, h.filled.session⟩
  obtain ⟨hmem, hplace⟩ := h.filled.mapped j hj
  constructor
  · rw [← Function.update_of_ne (Nat.ne_of_lt hj) (.map (V4L2Camera.bufMapping t))
      t.camera.videoIn.mem] at hmem
    exact hmem
  · exact List.mem_cons_of_mem _ hplace

/-- The failed `mmap` overwrites only the slot of its own round. -/
theorem Filled.mapFailed {i : Nat} {t : CameraHardware} (h : Filled before i t) :
    Filled before i { t with
      camera.videoIn.mem := Function.update t.camera.videoIn.mem i .failed } := by
  refine ⟨h.fdOpen, h.held, fun j hj => ?_, h.count, h.balance, h.session⟩
  obtain ⟨hmem, hplace⟩ := h.mapped j hj
  refine ⟨?_, hplace⟩
  rw [← Function.update_of_ne (Nat.ne_of_lt hj) .failed t.camera.videoIn.mem] at hmem
  exact hmem

/-- Queueing and counting buffer `i` completes its round. -/
theorem Filled.queue {i : Nat} {t : CameraHardware} (h : Filled before i t)
    (hcount : i < t.kernel.count) (hsession : t.session = true) (hmapped : MappedAt t i) :
    Filled before (i + 1) { t with
      kernel := t.kernel.queue i
      camera.nQueued := int32 (t.camera.nQueued + 1) } := by
  refine ⟨h.fdOpen, ?_, fun j hj => ?_, hcount, ?_, fun _ => hsession⟩
  · rw [List.range_succ, List.reverse_append, ← h.held]
    rfl
  · -- the slots before, and the one just queued
    rcases Nat.lt_succ_iff_lt_or_eq.mp hj with hj | rfl
    · exact ⟨(h.mapped j hj).mem, (h.mapped j hj).inPlace⟩
    · exact ⟨hmapped.mem, hmapped.inPlace⟩
  · have hbalance : int32 (t.camera.nQueued - t.camera.nDequeued) = int32 (before + i) := h.balance
    rw [V4L2Camera.dqCount, int32_succ_sub, hbalance, int32_int32_add, Int.natCast_succ,
      Int.add_assoc]

section Round

variable {J : Nat → CameraHardware → Prop} {answer : Nat → Answer} {count i n : Nat}
variable {t : CameraHardware}

/-- A request of the round for buffer `i` was refused, of `n + 1` rounds to go. -/
structure Refused (before : Int) (J : Nat → CameraHardware → Prop) (answer : Nat → Answer)
    (count i n : Nat) (t : CameraHardware) : Prop where
  filled : Filled before i t
  refused : ¬Accepted answer count i
  maps : J (i + mappedRounds answer count i (n + 1)) t

/-- Buffer `i` is in `videoIn->buf`, with its length. -/
structure Queried (before : Int) (J : Nat → CameraHardware → Prop) (answer : Nat → Answer)
    (count i : Nat) (t : CameraHardware) : Prop where
  round : InRound before (fun m => answer (m + 1)) count i t
  maps : J i t
  index : t.camera.videoIn.buf.index = i
  length : t.camera.videoIn.buf.length = t.kernel.lengths i
  accepted : i < count ∧ (answer 0).ok

/-- It is mapped, too. -/
structure Mapped (before : Int) (J : Nat → CameraHardware → Prop) (answer : Nat → Answer)
    (count i : Nat) (t : CameraHardware) : Prop where
  round : InRound before (fun m => answer (m + 2)) count i t
  maps : J (i + 1) t
  index : t.camera.videoIn.buf.index = i
  mapped : MappedAt t i
  accepted : i < count ∧ (answer 0).ok ∧ (answer 1).ok

/-- The driver has taken it, and it is not counted yet. -/
structure Taken (before : Int) (J : Nat → CameraHardware → Prop) (answer : Nat → Answer)
    (count i : Nat) (u t : CameraHardware) : Prop where
  round : InRound before (fun m => answer (m + 3)) count i u
  maps : J (i + 1) t
  index : u.camera.videoIn.buf.index = i
  mapped : MappedAt u i
  accepted : Accepted answer count i
  queued : t = { u with kernel := u.kernel.queue i }

variable (hJ : KeptByInit J)
include hJ

theorem InRound.query_refused (h : InRound before answer count i t)
    (hindex : t.camera.videoIn.buf.index = i) (hmaps : J i t)
    (hnone : (t.outcome fun _ =>
      t.fdOpen && decide (t.camera.videoIn.buf.index < t.kernel.count)) = none) :
    Refused before J answer count i n t.answered := by
  rw [CameraHardware.outcome_eq_none, h.answers, h.filled.fdOpen, hindex, h.count] at hnone
  have hrefused : ¬(i < count ∧ (answer 0).ok ∧ (answer 1).ok) :=
    fun hacc => hnone ⟨hacc.2.1, by simpa using hacc.1⟩
  refine ⟨h.answered.filled, fun hacc => hrefused ⟨hacc.1, hacc.2.1, hacc.2.2.1⟩, ?_⟩
  rw [mappedRounds, if_neg hrefused]
  exact hJ.answered i t hmaps

theorem InRound.query_done (h : InRound before answer count i t) (hi : i < nbBuffer)
    (hindex : t.camera.videoIn.buf.index = i) (hmaps : J i t) {a : Answer}
    (hsome : (t.outcome fun _ =>
      t.fdOpen && decide (t.camera.videoIn.buf.index < t.kernel.count)) = some a) :
    Queried before J answer count i { t.answered with
      kernel := t.answered.kernel.queryBuffer t.camera.videoIn.buf.index a.length
      camera.videoIn.buf.length := a.length } := by
  rw [CameraHardware.outcome_eq_some, h.answers, h.filled.fdOpen, hindex, h.count] at hsome
  refine ⟨h.answered.queryBuffer hindex a.length,
    hJ.queryBuffer i t.answered a.length hi hindex (hJ.answered i t hmaps), hindex, ?_,
    by simpa using hsome.2.1, hsome.1⟩
  simp [Kernel.queryBuffer, CameraHardware.answered, hindex]

theorem Queried.map_refused (h : Queried before J answer count i t)
    (hnone : (t.outcome fun _ => t.fdOpen) = none) :
    Refused before J answer count i n { t.answered with
      camera.videoIn.mem := Function.update t.camera.videoIn.mem i .failed } := by
  rw [CameraHardware.outcome_eq_none, h.round.answers, h.round.filled.fdOpen] at hnone
  have hrefused : ¬(i < count ∧ (answer 0).ok ∧ (answer 1).ok) :=
    fun hacc => hnone ⟨hacc.2.2, rfl⟩
  refine ⟨h.round.answered.filled.mapFailed,
    fun hacc => hrefused ⟨hacc.1, hacc.2.1, hacc.2.2.1⟩, ?_⟩
  rw [mappedRounds, if_neg hrefused]
  exact hJ.mapFailed i _ (hJ.answered i t h.maps)

theorem Queried.map_done (h : Queried before J answer count i t) (hi : i < nbBuffer) {a : Answer}
    (hsome : (t.outcome fun _ => t.fdOpen) = some a) :
    Mapped before J answer count i { t.answered with
      kernel := t.answered.kernel.mmap (V4L2Camera.bufMapping t.answered)
      camera.videoIn.mem :=
        Function.update t.camera.videoIn.mem i (.map (V4L2Camera.bufMapping t.answered)) } := by
  rw [CameraHardware.outcome_eq_some, h.round.answers] at hsome
  refine ⟨h.round.answered.mapBuffer,
    hJ.mapBuffer i t.answered hi h.index h.length (hJ.answered i t h.maps), h.index, ⟨?_, ?_⟩,
    h.accepted.1, h.accepted.2, hsome.1⟩
  · simp [CameraHardware.answered, V4L2Camera.bufMapping, bufferMapping, Kernel.mmap, h.index,
      h.length]
  · simp [CameraHardware.answered, V4L2Camera.bufMapping, bufferMapping, Kernel.mmap, h.index,
      h.length]

/-- The buffer is not among those queued before, so the driver takes it if it says so. -/
theorem Mapped.queue_refused (h : Mapped before J answer count i t)
    (hnone : (t.outcome fun _ => V4L2Camera.queues t) = none) :
    Refused before J answer count i n t.answered := by
  rw [CameraHardware.outcome_eq_none, h.round.answers, V4L2Camera.queues, h.round.filled.fdOpen,
    h.index, h.round.count, h.round.filled.held] at hnone
  have hrefused : ¬(answer 2).ok := fun h2 => hnone ⟨h2, by simp [h.accepted.1]⟩
  refine ⟨h.round.answered.filled, fun hacc => hrefused hacc.2.2.2, ?_⟩
  rw [mappedRounds, if_pos h.accepted, if_neg hrefused]
  exact hJ.answered (i + 1) t h.maps

theorem Mapped.queue_done (h : Mapped before J answer count i t) (hi : i < nbBuffer) {a : Answer}
    (hsome : (t.outcome fun _ => V4L2Camera.queues t) = some a) :
    Taken before J answer count i t.answered { t.answered with
      kernel := t.answered.kernel.queue t.camera.videoIn.buf.index } := by
  rw [CameraHardware.outcome_eq_some, h.round.answers] at hsome
  rw [h.index]
  exact ⟨h.round.answered, hJ.queue i t.answered hi (hJ.answered (i + 1) t h.maps), h.index,
    ⟨h.mapped.mem, h.mapped.inPlace⟩,
    ⟨h.accepted.1, h.accepted.2.1, h.accepted.2.2, hsome.1⟩, rfl⟩

/-- Counting the buffer ends its round. -/
theorem Taken.counted {u : CameraHardware} (h : Taken before J answer count i u t) :
    InRound before (fun m => answer (m + 3)) count (i + 1)
        { t with camera.nQueued := int32 (t.camera.nQueued + 1) } ∧
      J (i + 1) { t with camera.nQueued := int32 (t.camera.nQueued + 1) } ∧
      t.camera.videoIn.buf.index + 1 = i + 1 := by
  obtain ⟨hround, hmaps, hindex, hmapped, haccepted, rfl⟩ := h
  have hlt : i < u.kernel.count := hround.count ▸ haccepted.1
  exact ⟨⟨hround.answers, hround.count, hround.session,
    hround.filled.queue hlt hround.session hmapped⟩, hJ.countQueued (i + 1) _ hmaps,
    congrArg (· + 1) hindex⟩

end Round

/-- The loop of `Init`: as many rounds as the driver accepts. -/
theorem initFrom_triple {J : Nat → CameraHardware → Prop} (hJ : KeptByInit J)
    (hP : ∀ e t, e.isCounted = false → e.isRelease = false → P e t)
    (hret : ∀ ok k t, k ≤ nbBuffer → Filled before k t → P (.ret .init ok) t)
    (answer : Nat → Answer) (count i n : Nat) (hn : i + n ≤ nbBuffer) :
    Triple (fun t => InRound before answer count i t ∧ J i t ∧
        (0 < i → t.camera.videoIn.buf.index + 1 = i)) P
      (V4L2Camera.initFrom i n)
      fun v t => Filled before (i + acceptedRounds answer count i n) t ∧
        J (i + mappedRounds answer count i n) t ∧
        (v = 0 ↔ acceptedRounds answer count i n = n) ∧
        (v = 0 → 0 < i + n → t.camera.videoIn.buf.index + 1 = i + n) := by
  induction n generalizing answer i with
  | zero =>
    apply (triple_succeed fun t h => hret _ i t (by omega) h.1.filled).mono (fun _ h => h)
    intro v t h
    exact ⟨h.2.1.filled, h.2.2.1, by simp [h.1, acceptedRounds], fun _ => h.2.2.2⟩
  | succ n ih =>
    have hi : i < nbBuffer := by omega
    -- a refused request ends the loop
    have hfail : Triple (Refused before J answer count i n) P (V4L2Camera.fail .init)
        fun v t => Filled before (i + acceptedRounds answer count i (n + 1)) t ∧
          J (i + mappedRounds answer count i (n + 1)) t ∧
          (v = 0 ↔ acceptedRounds answer count i (n + 1) = n + 1) ∧
          (v = 0 → 0 < i + (n + 1) → t.camera.videoIn.buf.index + 1 = i + (n + 1)) := by
      apply (triple_fail fun t h => hret _ i t (by omega) h.filled).mono (fun _ h => h)
      intro v t ⟨hv, h⟩
      rw [acceptedRounds, if_neg h.refused, hv]
      exact ⟨h.filled, h.maps, by simp, nofun⟩
    -- one round: `VIDIOC_QUERYBUF`, `mmap`, `VIDIOC_QBUF`
    rw [V4L2Camera.initFrom]
    have hclear : Triple
        (fun t => InRound before answer count i t ∧ J i t ∧
          (0 < i → t.camera.videoIn.buf.index + 1 = i)) P
        (V4L2Camera.clearBuf i)
        fun _ t => InRound before answer count i t ∧ J i t ∧ t.camera.videoIn.buf.index = i :=
      triple_act fun t h => ⟨hP _ _ rfl rfl, h.1.clearBuf, hJ.clearBuf i t hi h.2.1, rfl⟩
    apply hclear.bind
    intro _
    apply triple_request_ite _ _ _ (Refused before J answer count i n)
      (Queried before J answer count i)
    · exact fun t h hnone => ⟨hP _ _ rfl rfl, h.1.query_refused hJ h.2.2 h.2.1 hnone⟩
    · exact fun t a h hsome => ⟨hP _ _ rfl rfl, h.1.query_done hJ hi h.2.2 h.2.1 hsome⟩
    · exact hfail
    apply triple_request_ite _ _ _ (Refused before J answer count i n)
      (Mapped before J answer count i)
    · exact fun t h hnone => ⟨hP _ _ rfl rfl, h.map_refused hJ hnone⟩
    · exact fun t a h hsome => ⟨hP _ _ rfl rfl, h.map_done hJ hi hsome⟩
    · exact hfail
    apply triple_request_ite _ _ _ (Refused before J answer count i n)
      (fun t => ∃ u, Taken before J answer count i u t)
    · exact fun t h hnone => ⟨hP _ _ rfl rfl, h.queue_refused hJ hnone⟩
    · exact fun t a h hsome => ⟨hP _ _ rfl rfl, t.answered, h.queue_done hJ hi hsome⟩
    · exact hfail
    -- the accepted buffer is counted, and the next round starts with the answers after these three
    have hcounted : Triple (fun t => ∃ u, Taken before J answer count i u t) P
        V4L2Camera.countQueued
        fun _ t => (InRound before (fun m => answer (m + 3)) count (i + 1) t ∧ J (i + 1) t ∧
          (0 < i + 1 → t.camera.videoIn.buf.index + 1 = i + 1)) ∧ Accepted answer count i := by
      apply triple_act
      intro t ⟨u, h⟩
      obtain ⟨hround, hmaps, hindex⟩ := h.counted hJ
      exact ⟨hP _ _ rfl rfl, ⟨hround, hmaps, fun _ => hindex⟩, h.accepted⟩
    apply hcounted.bind
    intro _ t ⟨h, hacc⟩
    -- the remaining rounds
    obtain ⟨hlog, hfilled, hmaps, hvalue, hindex⟩ :=
      ih (fun m => answer (m + 3)) (i + 1) (by omega) t h
    have hshift : i + 1 + n = i + (n + 1) := by omega
    have hrounds : i + 1 + acceptedRounds (fun m => answer (m + 3)) count (i + 1) n =
        i + acceptedRounds answer count i (n + 1) := by
      rw [acceptedRounds, if_pos hacc]
      omega
    have hmapped : i + 1 + mappedRounds (fun m => answer (m + 3)) count (i + 1) n =
        i + mappedRounds answer count i (n + 1) := by
      rw [mappedRounds, if_pos ⟨hacc.1, hacc.2.1, hacc.2.2.1⟩, if_pos hacc.2.2.2]
      omega
    rw [hrounds] at hfilled
    rw [hmapped] at hmaps
    rw [hshift] at hindex
    refine ⟨hlog, hfilled, hmaps, hvalue.trans ?_, hindex⟩
    rw [acceptedRounds, if_pos hacc, Nat.succ_inj]

/-- How many buffers `Init` gets mapped and queued when it is called in the state `t`. -/
def acceptedBuffers (t : CameraHardware) : Nat :=
  if (t.answerAt 0).ok then
    acceptedRounds (fun m => t.answerAt (m + 1)) (t.answerAt 0).count 0 nbBuffer
  else 0

/-- How many buffers `Init` maps when it is called in the state `t`. -/
def mappedBuffers (t : CameraHardware) : Nat :=
  if (t.answerAt 0).ok then
    mappedRounds (fun m => t.answerAt (m + 1)) (t.answerAt 0).count 0 nbBuffer
  else 0

/-- `Init` on a fresh file: it maps and fills as many buffers as the driver accepts, and
returns 0 when these are all. -/
theorem init_rounds {J : Nat → CameraHardware → Prop} (hJ : KeptByInit J)
    (hP : ∀ e t, e.isCounted = false → e.isRelease = false → P e t) {t : CameraHardware}
    (hret : ∀ ok k u, k ≤ nbBuffer → Filled (V4L2Camera.dqCount t) k u → P (.ret .init ok) u)
    (hfresh : Fresh t) (hmaps : J 0 t) :
    Emits P V4L2Camera.init t ∧
      Filled (V4L2Camera.dqCount t) (acceptedBuffers t) (V4L2Camera.init.exec t) ∧
      J (mappedBuffers t) (V4L2Camera.init.exec t) ∧
      (V4L2Camera.init.val t = 0 ↔ acceptedBuffers t = nbBuffer) ∧
      (V4L2Camera.init.val t = 0 →
        (V4L2Camera.init.exec t).camera.videoIn.buf.index + 1 = nbBuffer) := by
  have htriple : Triple (fun u => u = t) P V4L2Camera.init fun v u =>
      Filled (V4L2Camera.dqCount t) (acceptedBuffers t) u ∧ J (mappedBuffers t) u ∧
        (v = 0 ↔ acceptedBuffers t = nbBuffer) ∧
        (v = 0 → u.camera.videoIn.buf.index + 1 = nbBuffer) := by
    -- the count the loop starts from
    have hbalance : V4L2Camera.dqCount t = int32 (V4L2Camera.dqCount t + (0 : Nat)) := by
      simp [V4L2Camera.dqCount, int32_int32]
    rw [V4L2Camera.init, V4L2Camera.requestBuffers, V4L2Camera.ioctl]
    refine triple_request_ite _ _ _
      (fun u => Filled (V4L2Camera.dqCount t) 0 u ∧ J 0 u ∧ (t.answerAt 0).ok = false)
      (fun u => (InRound (V4L2Camera.dqCount t) (fun m => t.answerAt (m + 1))
        (t.answerAt 0).count 0 u ∧ J 0 u ∧
        (0 < 0 → u.camera.videoIn.buf.index + 1 = 0)) ∧ (t.answerAt 0).ok = true)
      ?_ ?_ ?_ ?_
    · -- `VIDIOC_REQBUFS` is refused: no buffer is mapped or queued
      rintro _ rfl hnone
      refine ⟨hP _ _ rfl rfl, ⟨hfresh.fdOpen, hfresh.held, nofun, Nat.zero_le _, hbalance, nofun⟩,
        hJ.answered 0 _ hmaps, ?_⟩
      rw [CameraHardware.outcome_eq_none, hfresh.fdOpen] at hnone
      simpa using hnone
    · -- it is granted: the driver holds no buffer, and the loop begins
      rintro _ a rfl hsome
      rw [CameraHardware.outcome_eq_some] at hsome
      obtain ⟨hok, _, rfl⟩ := hsome
      refine ⟨hP _ _ rfl rfl, ⟨⟨?_, rfl, rfl, ?_⟩,
        hJ.requestBuffers _ _ (hJ.answered 0 _ hmaps), nofun⟩, hok⟩
      · funext m
        exact Kernel.answered_answerAt _ m
      · exact ⟨hfresh.fdOpen, rfl, nofun, Nat.zero_le _, hbalance, nofun⟩
    · apply (triple_fail fun u h => hret _ 0 u (Nat.zero_le _) h.1).mono (fun _ h => h)
      intro v u h
      rw [acceptedBuffers, mappedBuffers, h.2.2.2, h.1]
      exact ⟨h.2.1, h.2.2.1, by simp [nbBuffer], nofun⟩
    · -- the loop runs over all four slots
      intro u ⟨h, hok⟩
      obtain ⟨hlog, hfilled, hmapped, hvalue, hindex⟩ :=
        initFrom_triple hJ hP hret _ _ 0 nbBuffer (by omega) u h
      rw [Nat.zero_add] at hfilled hmapped hindex
      rw [acceptedBuffers, mappedBuffers, if_pos hok, if_pos hok]
      exact ⟨hlog, hfilled, hmapped, hvalue, fun hv => hindex hv (by decide)⟩
  exact htriple t rfl

/-- What `Init` queues and returns. -/
theorem init_spec (hP : ∀ e t, e.isCounted = false → P e t)
    {t : CameraHardware}
    (hret : ∀ ok k u, k ≤ nbBuffer → Filled (V4L2Camera.dqCount t) k u → P (.ret .init ok) u)
    (hfresh : Fresh t) :
    Emits P V4L2Camera.init t ∧
      Filled (V4L2Camera.dqCount t) (acceptedBuffers t) (V4L2Camera.init.exec t) ∧
      (V4L2Camera.init.val t = 0 ↔ acceptedBuffers t = nbBuffer) ∧
      (V4L2Camera.init.val t = 0 →
        (V4L2Camera.init.exec t).camera.videoIn.buf.index + 1 = nbBuffer) := by
  have hkept : KeptByInit fun _ _ => True := by constructor <;> intros <;> trivial
  obtain ⟨hlog, hfilled, _, hvalue⟩ :=
    init_rounds hkept (fun e u he _ => hP e u he) hret hfresh trivial
  exact ⟨hlog, hfilled, hvalue⟩

theorem acceptedBuffers_le (t : CameraHardware) : acceptedBuffers t ≤ nbBuffer := by
  rw [acceptedBuffers]
  split
  · exact acceptedRounds_le _ _ _ _
  · exact Nat.zero_le _

theorem mappedBuffers_le (t : CameraHardware) : mappedBuffers t ≤ nbBuffer := by
  rw [mappedBuffers]
  split
  · exact mappedRounds_le _ _ _ _
  · exact Nat.zero_le _

/-- A buffer that is queued is mapped. -/
theorem acceptedBuffers_le_mappedBuffers (t : CameraHardware) :
    acceptedBuffers t ≤ mappedBuffers t := by
  rw [acceptedBuffers, mappedBuffers]
  split
  · exact acceptedRounds_le_mappedRounds _ _ _ _
  · exact Nat.le_refl 0

end Init

/-! ## §4 A Running Preview -/

/-- The session of a running preview: all buffers are mapped, and the driver holds only such
buffers, each once. -/
structure Running (t : CameraHardware) : Prop where
  mapped : ∀ i < nbBuffer, MappedAt t i
  count : nbBuffer ≤ t.kernel.count
  fdOpen : t.fdOpen = true
  held_nodup : t.kernel.held.Nodup
  held_lt : ∀ i ∈ t.kernel.held, i < nbBuffer
  index_lt : t.camera.videoIn.buf.index < nbBuffer

/-- `Init` that has filled all buffers leaves such a session. -/
theorem Filled.running {before : Int} {t : CameraHardware} (h : Filled before nbBuffer t)
    (hindex : t.camera.videoIn.buf.index + 1 = nbBuffer) : Running t where
  mapped := h.mapped
  count := h.count
  fdOpen := h.fdOpen
  held_nodup := by
    rw [h.held, List.nodup_reverse]
    exact List.nodup_range
  held_lt i hi := by simpa [h.held] using hi
  index_lt := by omega

namespace Running

variable {t : CameraHardware}

/-- The driver hands out a buffer it holds. -/
theorem dequeue (h : Running t) {a : Answer} (ha : a.index ∈ t.kernel.held) :
    Running { t with
      kernel := t.kernel.dequeue a.index
      camera.videoIn.buf := ⟨a.index, t.kernel.lengths a.index, a.bytesused⟩ } where
  mapped i hi := ⟨(h.mapped i hi).mem, (h.mapped i hi).inPlace⟩
  count := h.count
  fdOpen := h.fdOpen
  held_nodup := h.held_nodup.erase _
  held_lt i hi := h.held_lt i (List.mem_of_mem_erase hi)
  index_lt := h.held_lt _ ha

/-- The driver takes back the buffer in `videoIn->buf`. -/
theorem queue (h : Running t) (hfree : t.camera.videoIn.buf.index ∉ t.kernel.held) :
    Running { t with kernel := t.kernel.queue t.camera.videoIn.buf.index } where
  mapped i hi := ⟨(h.mapped i hi).mem, (h.mapped i hi).inPlace⟩
  count := h.count
  fdOpen := h.fdOpen
  held_nodup := List.nodup_cons.mpr ⟨hfree, h.held_nodup⟩
  held_lt i hi := by
    rcases List.mem_cons.mp hi with rfl | hi
    · exact h.index_lt
    · exact h.held_lt i hi
  index_lt := h.index_lt

/-- The session is a matter of the camera and the kernel, not of the answers to come. -/
theorem congr {t' : CameraHardware} (h : Running t) (hcamera : t'.camera = t.camera)
    (hkernel : t'.kernel.settled = t.kernel.settled) : Running t' := by
  simp only [Kernel.settled, Kernel.mk.injEq] at hkernel
  obtain ⟨_, hfds, _, hmaps, hcount, hlengths, hheld, _⟩ := hkernel
  -- the mapping a slot should have depends on nothing that changed
  have hmapping (i : Nat) : bufferMapping t' i = bufferMapping t i := by
    rw [bufferMapping, hcamera, hlengths, bufferMapping]
  refine ⟨fun i hi => ⟨?_, ?_⟩, ?_, ?_, ?_, ?_, ?_⟩
  · rw [hcamera, hmapping, (h.mapped i hi).mem]
  · rw [hmaps, hmapping]
    exact (h.mapped i hi).inPlace
  · exact hcount ▸ h.count
  · rw [CameraHardware.fdOpen, hcamera, hfds]
    exact h.fdOpen
  · exact hheld ▸ h.held_nodup
  · exact hheld ▸ h.held_lt
  · exact hcamera ▸ h.index_lt

theorem answered (h : Running t) : Running t.answered := h.congr rfl rfl

end Running

end OdroidU2.Camera
