import OdroidU2.Camera.Runs
import Mathlib

/-!
# The Buffer Counters

`V4L2Camera` counts the buffers it queues and dequeues, and `Uninit` takes the difference
for the number of buffers that the driver holds.  Two calls count without looking at the
outcome: `ReleasePreviewFrame` counts a buffer that the driver did not take, and a preview
that is given up after a half-done `Init` leaves what was counted to the next session.

- `Balanced` — the counters say how many buffers the driver holds for the session
- `CountsHeld` — they do when a function returns, and `Uninit` asks for no buffer in vain
- `counts_held_iff` — when all of a run has this
- `half_init_miscounts` — a preview given up after half of `Init`, and the one after it
-/

namespace OdroidU2.Camera

open OdroidU2.Foundations Prog V4L2Camera

/-! ## §1 The Property -/

/-- The number of buffers that the driver holds for the current session. -/
def sessionHeld (t : CameraHardware) : Nat := if t.session then t.kernel.held.length else 0

/-- `nQueued - nDequeued` is that number, and it is at most `NB_BUFFER`. -/
structure Balanced (t : CameraHardware) : Prop where
  counted : dqCount t = sessionHeld t
  bounded : sessionHeld t ≤ nbBuffer

instance (t : CameraHardware) : Decidable (Balanced t) :=
  decidable_of_iff (dqCount t = sessionHeld t ∧ sessionHeld t ≤ nbBuffer)
    ⟨fun h => ⟨h.1, h.2⟩, fun h => ⟨h.1, h.2⟩⟩

/-- The counters are right whenever a function that works on the buffers returns, and
`Uninit` issues `VIDIOC_DQBUF` only while the driver holds a buffer. -/
def CountsHeld (e : Event) (t : CameraHardware) : Prop :=
  match e with
  | .ret fn _ => fn = .open ∨ fn = .startStreaming ∨ Balanced t
  | .dqbuf .uninit held _ => 0 < held
  | _ => True

instance (e : Event) (t : CameraHardware) : Decidable (CountsHeld e t) := by
  unfold CountsHeld
  induction e using Event.casesOn with
  | dqbuf fn held ok => induction fn using CameraFn.casesOn <;> infer_instance
  | _ => infer_instance

theorem countsHeld_of_not_isCounted (e : Event) (t : CameraHardware) (h : e.isCounted = false) :
    CountsHeld e t := by
  cases e with
  | ret fn ok => cases fn <;> simp_all [Event.isCounted, CountsHeld]
  | dqbuf fn held ok => cases fn <;> simp_all [Event.isCounted, CountsHeld]
  | openDevice | ioctl | qbuf | mmap | munmap | closeFd | readFrame | writeWindow | notifyFn
  | dataFn | window | assign => trivial

/-- There is no session, and the counters agree. -/
structure Over (t : CameraHardware) : Prop where
  session : t.session = false
  balance : dqCount t = 0

theorem Over.balanced {t : CameraHardware} (h : Over t) : Balanced t := by
  have hheld : sessionHeld t = 0 := by rw [sessionHeld, h.session]; rfl
  exact ⟨by rw [h.balance, hheld]; rfl, by rw [hheld]; exact Nat.zero_le _⟩

/-- A session that `Init` has filled as far as it could is balanced. -/
theorem Filled.balanced {k : Nat} {t : CameraHardware} (h : Filled 0 k t) (hk : k ≤ nbBuffer) :
    Balanced t := by
  -- the driver has exactly the `k` buffers that were queued
  have hheld : sessionHeld t = k := by
    rw [sessionHeld, h.held, List.length_reverse, List.length_range]
    split
    · rfl
    · next hno => exact (Nat.eq_zero_of_not_pos fun hpos => hno (h.session hpos)).symm
  refine ⟨?_, by rw [hheld]; exact hk⟩
  rw [h.balance, hheld, Int.zero_add, int32_of_range]
  · omega
  · rw [nbBuffer] at hk
    omega

/-- The driver never holds more buffers than there are slots. -/
theorem length_le_nbBuffer {held : List Nat} (hnodup : held.Nodup)
    (hlt : ∀ i ∈ held, i < nbBuffer) : held.length ≤ nbBuffer := by
  have hsub : held ⊆ List.range nbBuffer := fun i hi => List.mem_range.mpr (hlt i hi)
  have hle := (List.subperm_of_subset hnodup hsub).length_le
  rwa [List.length_range] at hle

theorem Running.length_held_le {t : CameraHardware} (h : Running t) :
    t.kernel.held.length ≤ nbBuffer :=
  length_le_nbBuffer h.held_nodup h.held_lt

/-! ## §2 Ending a Session -/

section Ending

variable {t : CameraHardware}

/-- The dequeues of `Uninit` leave at least one buffer with the driver. -/
theorem countsHeld_dequeueTimes (n : Nat) (hn : n = 0 ∨ n < t.kernel.held.length) :
    Emits CountsHeld (dequeueTimes n) t := by
  induction n generalizing t with
  | zero => exact emits_pure _ _
  | succ n ih =>
    have hlt : n + 1 < t.kernel.held.length := by omega
    rw [dequeueTimes, emits_bind, dequeueBuffer, emits_request, exec_request]
    refine ⟨Nat.zero_lt_of_lt hlt, ih (Or.inr ?_)⟩
    cases t.outcome (dequeues t) with
    | none => exact Nat.lt_of_succ_lt hlt
    | some a =>
      -- one buffer less in the driver, one request less to go
      have herase : t.kernel.held.length - 1 ≤ (t.kernel.held.erase a.index).length :=
        List.le_length_erase
      exact Nat.lt_of_lt_of_le (by omega) herase

/-- `Uninit` ends a balanced session. -/
theorem uninit_spec (h : Balanced t) : Emits CountsHeld uninit t ∧ Over (uninit.exec t) := by
  have hover (u : CameraHardware) (hq : u.camera.nQueued = 0) (hd : u.camera.nDequeued = 0) :
      Over { u with session := false } := ⟨rfl, by rw [dqCount, hq, hd]; rfl⟩
  -- the loop runs `DQcount - 1` times, so the driver never runs out of buffers
  have htimes : (int32 (dqCount t - 1)).toNat = 0 ∨
      (int32 (dqCount t - 1)).toNat < t.kernel.held.length := by
    have hle : sessionHeld t ≤ 4 := h.bounded
    rw [h.counted, int32_of_range (by omega) (by omega)]
    by_cases hsession : t.session
    · rw [sessionHeld, if_pos hsession]
      omega
    · rw [sessionHeld, if_neg hsession]
      exact Or.inl rfl
  simp only [uninit, emits_bind, emits_read, val_read, exec_bind, exec_read, true_and]
  -- unmapping does not touch the counts, which were reset before it
  have hunmap := leaves_unmapFrom (P := CountsHeld) (fun _ _ _ _ => trivial) 0 nbBuffer
  have hsame := hunmap.exec_eq
    (resetCounters.exec ((dequeueTimes (int32 (dqCount t - 1)).toNat).exec t))
  have hcamera := congrArg Prod.fst hsame
  have hend := hover _ (congrArg V4L2Camera.nQueued hcamera) (congrArg V4L2Camera.nDequeued hcamera)
  refine ⟨⟨countsHeld_dequeueTimes _ htimes, ?_, hunmap.emits _, ?_⟩, hend⟩
  · exact (emits_act _ _ _).mpr trivial
  · exact (emits_act _ _ _).mpr (Or.inr (Or.inr hend.balanced))

/-- `Close` needs counters that agree already. -/
theorem emits_close_iff : Emits CountsHeld close t ↔ dqCount t = 0 := by
  have hclosed : CountsHeld (.closeFd t.camera.fd) (sysClose t) := trivial
  simp only [close, ret, emits_bind, emits_read, val_read, exec_read, emits_act, exec_act, hclosed,
    true_and, id]
  constructor
  · rintro (h | h | h)
    · cases h
    · cases h
    · exact h.counted
  · intro h
    exact Or.inr (Or.inr (Over.balanced ⟨rfl, h⟩))

theorem over_close (h : dqCount t = 0) : Over (close.exec t) := ⟨rfl, h⟩

/-- Outside a session `StopStreaming` changes nothing that is counted. -/
theorem over_stopStreaming : Keeps Over CountsHeld stopStreaming := by
  have hret (ok : Bool) : Keeps Over CountsHeld (ret .stopStreaming ok) :=
    keeps_act fun _ ht => ⟨ht, Or.inr (Or.inr ht.balanced)⟩
  apply Keeps.read_bind
  intro s _
  -- STREAMOFF takes all the buffers from the driver, and no session is open here
  refine Keeps.ite (fun _ => ?_) fun _ => (hret true).bind fun _ => keeps_pure _
  have hoff : Keeps Over CountsHeld
      (ioctl "VIDIOC_STREAMOFF" fun _ t => { t with kernel := t.kernel.streamStop }) :=
    keeps_ioctl (fun _ _ => trivial) (fun _ h => ⟨h.session, h.balance⟩)
      fun _ _ h => ⟨h.session, h.balance⟩
  apply Keeps.bind hoff
  intro off
  refine Keeps.ite (fun _ => (hret false).bind fun _ => keeps_pure _) fun _ => ?_
  refine Keeps.bind (keeps_act fun _ h => ⟨⟨h.session, h.balance⟩, trivial⟩) fun _ => ?_
  exact (hret true).bind fun _ => keeps_pure _

/-- The end of a preview or of a picture. -/
theorem shutDown_spec (h : Balanced t) :
    Emits CountsHeld CameraHardware.shutDown t ∧ Over (CameraHardware.shutDown.exec t) := by
  obtain ⟨hlog, hover⟩ := uninit_spec h
  obtain ⟨hover', hlog'⟩ := over_stopStreaming _ hover
  simp only [CameraHardware.shutDown, emits_bind, exec_bind]
  exact ⟨⟨hlog, hlog', emits_close_iff.mpr hover'.balance⟩, over_close hover'.balance⟩

end Ending

/-! ## §3 One Iteration -/

/-- The session of a running preview, with its counters. -/
structure Counting (t : CameraHardware) : Prop where
  running : Running t
  session : t.session = true
  balance : dqCount t = t.kernel.held.length
  index_held : t.camera.videoIn.buf.index ∈ t.kernel.held

section Iteration

variable {s : CameraHardware}

/-- In a session the number of buffers is the driver's. -/
theorem balanced_iff (hrunning : Running s) (hsession : s.session = true) :
    Balanced s ↔ dqCount s = s.kernel.held.length := by
  have hheld : sessionHeld s = s.kernel.held.length := by rw [sessionHeld, hsession]; rfl
  constructor
  · intro h
    rw [h.counted, hheld]
  · intro h
    exact ⟨by rw [h, hheld], by rw [hheld]; exact hrunning.length_held_le⟩

theorem Counting.balanced (h : Counting s) : Balanced s :=
  (balanced_iff h.running h.session).mpr h.balance

/-- The counters are a matter of the camera and the kernel. -/
theorem Counting.congr {t : CameraHardware} (h : Counting s) (hcamera : t.camera = s.camera)
    (hkernel : t.kernel.settled = s.kernel.settled) (hsession : t.session = s.session) :
    Counting t := by
  have hheld : t.kernel.held = s.kernel.held := by
    simp only [Kernel.settled, Kernel.mk.injEq] at hkernel
    exact hkernel.2.2.2.2.2.2.1
  refine ⟨h.running.congr hcamera hkernel, hsession.trans h.session, ?_, ?_⟩
  · rw [dqCount, hcamera, hheld]
    exact h.balance
  · rw [hcamera, hheld]
    exact h.index_held

theorem Counting.answered (h : Counting s) : Counting s.answered := h.congr rfl rfl rfl

theorem dqCount_grabbed (a : Answer) : dqCount (grabbed s a) = int32 (dqCount s - 1) :=
  int32_sub_succ _ _

theorem dqCount_requeued : dqCount (requeued s) = int32 (dqCount s + 1) := int32_succ_sub _ _

/-- `ReleasePreviewFrame` leaves this state when the driver does not take the buffer. -/
def refused (s : CameraHardware) : CameraHardware :=
  { s.answered with camera.nQueued := int32 (s.camera.nQueued + 1) }

theorem dqCount_refused : dqCount (refused s) = int32 (dqCount s + 1) := int32_succ_sub _ _

/-- What is counted in an iteration is counted by the two calls that pass the frame. -/
theorem previewFrame_counts (stride : Nat) (width height : Int) :
    (Emits CountsHeld (CameraHardware.previewFrame stride width height) s ↔
      Emits CountsHeld grabPreviewFrame s.answered ∧
        Emits CountsHeld releasePreviewFrame (grabPreviewFrame.exec s.answered)) ∧
    (CameraHardware.previewFrame stride width height).exec s =
      releasePreviewFrame.exec (grabPreviewFrame.exec s.answered) := by
  have hother {e : Event} (he : e.isCounted = false) (t : CameraHardware) :
      CountsHeld e t ↔ True := iff_true_intro (countsHeld_of_not_isCounted e t he)
  -- of the whole frame only the grab and the release touch the counts
  constructor
  · simp only [CameraHardware.previewFrame, CameraHardware.windowCall, CameraHardware.mapperLock,
      CameraHardware.convertYUYVtoRGB565, CameraHardware.yuyv422ToYuv420sp, emits_bind, emits_act,
      emits_read, emits_when, emits_request, exec_act, exec_bind, exec_request, val_request,
      val_read, exec_read, exec_when, id, hother (e := .window _ _) rfl,
      hother (e := .dataFn _ _) rfl, hother (e := .readFrame _ _ _) rfl,
      hother (e := .writeWindow _ _ _) rfl, true_and, implies_true, ite_self]
  · simp only [CameraHardware.previewFrame, CameraHardware.windowCall, CameraHardware.mapperLock,
      CameraHardware.convertYUYVtoRGB565, CameraHardware.yuyv422ToYuv420sp, exec_act, exec_bind,
      exec_request, val_request, val_read, exec_read, exec_when, id, ite_self]

/-- A buffer less in the driver, and one more counted as dequeued. -/
theorem Counting.balance_grabbed (h : Counting s) {a : Answer} (ha : a.index ∈ s.kernel.held) :
    dqCount (grabbed s a) = (grabbed s a).kernel.held.length := by
  have hheld : (grabbed s a).kernel.held = s.kernel.held.erase a.index := rfl
  have hpos : 0 < s.kernel.held.length := List.length_pos_of_mem ha
  have hle : s.kernel.held.length ≤ 4 := h.running.length_held_le
  rw [dqCount_grabbed, h.balance, hheld, List.length_erase_of_mem ha,
    int32_of_range (by omega) (by omega)]
  omega

theorem Counting.running_grabbed (h : Counting s) {a : Answer} (ha : a.index ∈ s.kernel.held) :
    Running (grabbed s a) :=
  ⟨fun i hi => ⟨(h.running.mapped i hi).mem, (h.running.mapped i hi).inPlace⟩, h.running.count,
    h.running.fdOpen, h.running.held_nodup.erase _,
    fun i hi => h.running.held_lt i (List.mem_of_mem_erase hi), h.running.held_lt _ ha⟩

/-- `GrabPreviewFrame` counts right, whatever it gets. -/
theorem emits_grabPreviewFrame (h : Counting s) : Emits CountsHeld grabPreviewFrame s := by
  have hdequeued (t : CameraHardware) : CountsHeld (.assign "nDequeued") t := trivial
  -- the counts are looked at when the function returns: the buffer is out and counted as dequeued
  cases hr : s.outcome (dequeues s) with
  | none =>
    simp only [grabPreviewFrame, dequeueBuffer, emits_bind, emits_request, exec_request,
      val_request, hr, Option.isNone_none, if_true, ret, emits_act, emits_pure, and_true]
    exact ⟨trivial, Or.inr (Or.inr h.answered.balanced)⟩
  | some a =>
    obtain ⟨_, hallowed, rfl⟩ := (s.outcome_eq_some).mp hr
    rw [dequeues, Bool.and_eq_true, decide_eq_true_eq] at hallowed
    simp only [grabPreviewFrame, dequeueBuffer, countDequeued, assign, emits_bind, emits_request,
      exec_request, val_request, hr, Option.isNone_some, Bool.false_eq_true, if_false, ret,
      emits_act, exec_act, emits_pure, emits_read, and_true, id]
    have hbalanced : Balanced (grabbed s (s.answerAt 0)) :=
      (balanced_iff (h.running_grabbed hallowed.2) h.session).mpr (h.balance_grabbed hallowed.2)
    exact ⟨trivial, trivial, Or.inr (Or.inr hbalanced)⟩

/-- The state in which `ReleasePreviewFrame` returns. -/
theorem exec_releasePreviewFrame (s : CameraHardware) :
    releasePreviewFrame.exec s =
      if (s.outcome fun _ => queues s).isSome then requeued s else refused s := by
  simp only [releasePreviewFrame, queueBuffer, countQueued, assign, ret, exec_bind, exec_request,
    exec_act, id]
  cases s.outcome fun _ => queues s <;> rfl

theorem emits_releasePreviewFrame_iff (s : CameraHardware) :
    Emits CountsHeld releasePreviewFrame s ↔ Balanced (releasePreviewFrame.exec s) := by
  have hqbuf (index : Nat) (ok : Bool) (t : CameraHardware) :
      CountsHeld (.qbuf .releasePreviewFrame index ok) t ↔ True := Iff.rfl
  have hassign (t : CameraHardware) : CountsHeld (.assign "nQueued") t ↔ True := Iff.rfl
  have hret (ok : Bool) (t : CameraHardware) :
      CountsHeld (.ret .releasePreviewFrame ok) t ↔ Balanced t := by
    simp [CountsHeld]
  simp only [releasePreviewFrame, queueBuffer, countQueued, assign, ret, emits_bind, emits_request,
    emits_act, hqbuf, hassign, hret, true_and, exec_bind, exec_request, exec_act, id]

/-- A buffer counted as queued that the driver has not taken. -/
theorem not_balanced_refused (hrunning : Running s) (hsession : s.session = true)
    (hbalance : dqCount s = s.kernel.held.length) : ¬Balanced (refused s) := by
  have hle : s.kernel.held.length ≤ 4 := hrunning.length_held_le
  have hrefused : Running (refused s) :=
    ⟨fun i hi => ⟨(hrunning.mapped i hi).mem, (hrunning.mapped i hi).inPlace⟩, hrunning.count,
      hrunning.fdOpen, hrunning.held_nodup, hrunning.held_lt, hrunning.index_lt⟩
  rw [balanced_iff hrefused hsession, dqCount_refused, hbalance,
    int32_of_range (by omega) (by omega)]
  have hheld : (refused s).kernel.held = s.kernel.held := rfl
  rw [hheld]
  omega

/-- A frame that was taken comes back to the driver: the counters are right if and only if
the driver takes it. -/
theorem Counting.released (h : Counting s) {a : Answer} (ha : a.index ∈ s.kernel.held) :
    (Balanced (releasePreviewFrame.exec (grabbed s a)) ↔
      ((grabbed s a).answerAt 0).ok = true) ∧
    (((grabbed s a).answerAt 0).ok = true →
      Counting (releasePreviewFrame.exec (grabbed s a))) := by
  have hrunning := h.running_grabbed ha
  have hbalance := h.balance_grabbed ha
  have hlt : a.index < s.kernel.count :=
    Nat.lt_of_lt_of_le (h.running.held_lt _ ha) h.running.count
  have hfree : a.index ∉ (grabbed s a).kernel.held := h.running.held_nodup.not_mem_erase
  -- the descriptor is open and the driver does not hold the buffer, so only its answer counts
  have hqueues : queues (grabbed s a) = true := by
    have hopen : (grabbed s a).fdOpen = true := h.running.fdOpen
    rw [queues, hopen, Bool.true_and, Bool.and_eq_true, decide_eq_true_eq, decide_eq_true_eq]
    exact ⟨hlt, hfree⟩
  rw [exec_releasePreviewFrame]
  -- with the buffer back the driver holds what it held before the frame
  have hcounting : Counting (requeued (grabbed s a)) := by
    -- at most four buffers are counted, so the counter does not wrap
    have hle : (grabbed s a).kernel.held.length ≤ 4 := hrunning.length_held_le
    have hqueue := (hrunning.answered).queue hfree
    refine ⟨⟨fun i hi => ⟨(hqueue.mapped i hi).mem, (hqueue.mapped i hi).inPlace⟩, hqueue.count,
      hqueue.fdOpen, hqueue.held_nodup, hqueue.held_lt, hqueue.index_lt⟩, h.session, ?_,
      List.mem_cons_self⟩
    rw [dqCount_requeued, hbalance, int32_of_range (by omega) (by omega)]
    rfl
  cases hr : (grabbed s a).outcome fun _ => queues (grabbed s a) with
  | none =>
    -- the `VIDIOC_QBUF` is refused and `releasePreviewFrame` counts it all the same
    rw [CameraHardware.outcome_eq_none, hqueues] at hr
    have hno : ¬((grabbed s a).answerAt 0).ok = true := fun hok => hr ⟨hok, rfl⟩
    exact ⟨iff_of_false (not_balanced_refused hrunning h.session hbalance) hno,
      fun hok => absurd hok hno⟩
  | some b =>
    obtain ⟨hok, _, _⟩ := (CameraHardware.outcome_eq_some _).mp hr
    exact ⟨iff_of_true hcounting.balanced hok, fun _ => hcounting⟩

/-- Without a frame the stale buffer is queued again, which the driver holds. -/
theorem Counting.not_released (h : Counting s) :
    ¬Balanced (releasePreviewFrame.exec s) := by
  have hqueues : queues s = false := by simp [queues, h.index_held]
  have hr : (s.outcome fun _ => queues s) = none := by
    rw [CameraHardware.outcome_eq_none, hqueues]
    exact fun hno => absurd hno.2 (by decide)
  rw [exec_releasePreviewFrame, hr]
  exact not_balanced_refused h.running h.session h.balance

/-- The frame of an iteration goes round: the driver hands out a buffer and takes it back. -/
def Circulates (s : CameraHardware) (frame back : Answer) : Prop :=
  frame.ok = true ∧ frame.index ∈ s.kernel.held ∧ back.ok = true

/-- One iteration counts right exactly when its frame goes round, and then goes on so. -/
theorem previewFrame_spec (h : Counting s) (stride : Nat) (width height : Int) :
    (Emits CountsHeld (CameraHardware.previewFrame stride width height) s ↔
      Circulates s (s.answerAt 1) (s.answerAt 2)) ∧
    (Circulates s (s.answerAt 1) (s.answerAt 2) →
      Counting ((CameraHardware.previewFrame stride width height).exec s)) := by
  obtain ⟨hemits, hexec⟩ := previewFrame_counts (s := s) stride width height
  have hgrab := emits_grabPreviewFrame h.answered
  have hframe : s.answered.answerAt 0 = s.answerAt 1 := s.kernel.answered_answerAt 0
  have hback (a : Answer) : (grabbed s.answered a).answerAt 0 = s.answerAt 2 := by
    have hnext : (grabbed s.answered a).answerAt 0 = s.answered.answerAt 1 :=
      s.answered.kernel.answered_answerAt 0
    rw [hnext]
    exact s.kernel.answered_answerAt 1
  rw [hemits, hexec, emits_releasePreviewFrame_iff, and_iff_right hgrab]
  cases hr : s.answered.outcome (dequeues s.answered) with
  | none =>
    -- `GrabPreviewFrame` returns without a buffer, and the stale one is queued a second time
    have hno : ¬Circulates s (s.answerAt 1) (s.answerAt 2) := by
      intro ⟨hok, hheld, _⟩
      rw [CameraHardware.outcome_eq_none, hframe, dequeues] at hr
      refine hr ⟨hok, ?_⟩
      have hopen : s.answered.fdOpen = true := h.running.fdOpen
      rw [hopen, Bool.true_and, decide_eq_true_eq]
      exact hheld
    rw [(grabPreviewFrame_none hr).2]
    exact ⟨iff_of_false h.answered.answered.not_released hno, fun hyes => absurd hyes hno⟩
  | some a =>
    -- a buffer comes out, and the answer to the `VIDIOC_QBUF` decides
    obtain ⟨hok, hallowed, rfl⟩ := (CameraHardware.outcome_eq_some _).mp hr
    rw [dequeues, Bool.and_eq_true, decide_eq_true_eq] at hallowed
    obtain ⟨hbalanced, hcounting⟩ := h.answered.released hallowed.2
    rw [(grabPreviewFrame_some hr).2]
    rw [hback] at hbalanced hcounting
    have hcirculates : Circulates s (s.answerAt 1) (s.answerAt 2) ↔ (s.answerAt 2).ok = true := by
      rw [hframe] at hok hallowed
      exact ⟨fun hyes => hyes.2.2, fun hyes => ⟨hok, hallowed.2, hyes⟩⟩
    exact ⟨hbalanced.trans hcirculates.symm, fun hyes => hcounting hyes.2.2⟩

end Iteration

/-! ## §4 Starting a Preview -/

/-- If a node can be opened, `Init` gets either all buffers queued or none. -/
def InitAllOrNone (s : CameraHardware) : Prop :=
  let node := CameraHardware.openNode s.mParameters.previewWidth s.mParameters.previewHeight
  0 ≤ node.val s →
    acceptedBuffers (node.exec s) = 0 ∨ acceptedBuffers (node.exec s) = nbBuffer

section Start

variable {s : CameraHardware}

/-- Between two sessions the search for a node changes nothing that is counted. -/
theorem openNode_over (h : Over s) (width height : Int) :
    Emits CountsHeld (CameraHardware.openNode width height) s ∧
      Over ((CameraHardware.openNode width height).exec s) ∧
      (0 ≤ (CameraHardware.openNode width height).val s →
        Fresh ((CameraHardware.openNode width height).exec s)) := by
  obtain ⟨hlog, hcounted, hfresh⟩ :=
    openNode_triple countsHeld_of_not_isCounted width height s ⟨rfl, rfl, rfl⟩
  refine ⟨hlog, ⟨hcounted.session.trans h.session, ?_⟩, hfresh⟩
  rw [dqCount, hcounted.nQueued, hcounted.nDequeued]
  exact h.balance

/-- `Init` in such a state. -/
theorem init_over (h : Over s) (hfresh : Fresh s) :
    Emits CountsHeld V4L2Camera.init s ∧
      Filled 0 (acceptedBuffers s) (V4L2Camera.init.exec s) ∧
      (V4L2Camera.init.val s = 0 ↔ acceptedBuffers s = nbBuffer) ∧
      (V4L2Camera.init.val s = 0 →
        (V4L2Camera.init.exec s).camera.videoIn.buf.index + 1 = nbBuffer) := by
  have hspec := init_spec (t := s) countsHeld_of_not_isCounted
    (fun ok k u hk hu => Or.inr (Or.inr (by rw [h.balance] at hu; exact hu.balanced hk))) hfresh
  rwa [h.balance] at hspec

/-- A failed `Init` can be closed if it has queued nothing. -/
theorem Filled.dqCount_eq_zero_iff {k : Nat} (h : Filled 0 k s) (hk : k ≤ nbBuffer) :
    dqCount s = 0 ↔ k = 0 := by
  rw [nbBuffer] at hk
  rw [h.balance, Int.zero_add, int32_of_range (by omega) (by omega)]
  omega

/-- A session with all buffers queued. -/
theorem Filled.counting (h : Filled 0 nbBuffer s)
    (hindex : s.camera.videoIn.buf.index + 1 = nbBuffer) : Counting s where
  running := h.running hindex
  session := h.session (by decide)
  balance := by
    rw [h.balance, h.held, List.length_reverse, List.length_range]
    rfl
  index_held := by
    rw [h.held, List.mem_reverse, List.mem_range]
    omega

/-- `StartStreaming` keeps the filled session, and its last buffer. -/
theorem startStreaming_filled (h : Filled 0 nbBuffer s)
    (hindex : s.camera.videoIn.buf.index + 1 = nbBuffer) :
    Emits CountsHeld startStreaming s ∧ Filled 0 nbBuffer (startStreaming.exec s) ∧
      (startStreaming.exec s).camera.videoIn.buf.index + 1 = nbBuffer := by
  have hC := countsHeld_of_not_isCounted
  obtain ⟨hfilled, hlog⟩ := filled_startStreaming hC 0 nbBuffer s h
  have hkeep := keeps_startStreaming (I := fun t => t.camera.videoIn.buf.index + 1 = nbBuffer)
    (fun e t h _ => hC e t h)
    (fun _ ht => ht) (fun _ ht => ht) (fun _ ht => ht) s hindex
  exact ⟨hlog, hfilled, hkeep.1⟩

/-- `startPreview` counts right exactly when `Init` is not left half done. -/
theorem startPreview_spec (h : Over s) (hthread : s.mPreviewThread = false) :
    (Emits CountsHeld CameraHardware.startPreview s ↔ InitAllOrNone s) ∧
    (InitAllOrNone s →
      ((CameraHardware.startPreview.exec s).mPreviewThread = false →
        Over (CameraHardware.startPreview.exec s)) ∧
      ((CameraHardware.startPreview.exec s).mPreviewThread = true →
        Counting (CameraHardware.startPreview.exec s))) := by
  have hA (e : Event) (t : CameraHardware) : e.isFramed = false → True := fun _ => trivial
  obtain ⟨hlog, hover, hfresh⟩ :=
    openNode_over h s.mParameters.previewWidth s.mParameters.previewHeight
  have hidle : ((searchNode s).exec s).mPreviewThread = false :=
    (mPreviewThread_exec (CameraHardware.quiet_openNode hA _ _) s).trans hthread
  have hover' : Over (beforeInit s) := ⟨hover.session, hover.balance⟩
  have haccepted : acceptedBuffers (beforeInit s) = acceptedBuffers ((searchNode s).exec s) := rfl
  -- what is left of the walk are the branches after the search for a node
  rw [CameraHardware.emits_startPreview_iff (fun _ _ => trivial) hthread,
    CameraHardware.exec_startPreview hthread, InitAllOrNone, and_iff_right hlog]
  by_cases hv : (searchNode s).val s < 0
  · -- no node can be opened
    rw [if_pos hv, if_pos hv]
    refine ⟨iff_of_true trivial fun hpos => absurd hpos (Int.not_le.mpr hv), fun _ => ⟨fun _ => hover,
      fun ht => ?_⟩⟩
    exact absurd (hidle.symm.trans ht) (by decide)
  have hpos : 0 ≤ (searchNode s).val s := by omega
  have hfresh' : Fresh (beforeInit s) := ⟨(hfresh hpos).fdOpen, (hfresh hpos).held⟩
  rw [if_neg hv, if_neg hv]
  simp only [hpos, forall_const, ← haccepted]
  have hidle' : (beforeInit s).mPreviewThread = false := hidle
  clear haccepted
  generalize beforeInit s = t at *
  -- `Init` runs on a fresh node, and queues as many buffers as the driver accepts
  obtain ⟨hlogI, hfilled, hvalue, hindex⟩ := init_over hover' hfresh'
  have hfinit : (V4L2Camera.init.exec t).mPreviewThread = false :=
    (mPreviewThread_exec (quiet_init hA) t).trans hidle'
  rw [and_iff_right hlogI]
  by_cases hi : V4L2Camera.init.val t ≠ 0
  · -- `Init` has failed, and the counters keep what it has queued
    have hsome : acceptedBuffers t ≠ nbBuffer := fun hall => hi (hvalue.mpr hall)
    have hzero := hfilled.dqCount_eq_zero_iff (acceptedBuffers_le t)
    have hfclose := (mPreviewThread_exec (quiet_close hA) _).trans hfinit
    rw [if_pos hi, if_pos hi, emits_close_iff, hzero, or_iff_left hsome]
    refine ⟨Iff.rfl, fun hnone => ⟨fun _ => over_close (hzero.mpr hnone), fun ht => ?_⟩⟩
    exact absurd (hfclose.symm.trans ht) (by decide)
  -- all buffers are queued
  rw [if_neg hi, if_neg hi]
  rw [not_not] at hi
  have hall := hvalue.mp hi
  rw [hall] at hfilled
  obtain ⟨hlogS, hfilledS, hindexS⟩ := startStreaming_filled hfilled (hindex hi)
  have hfstream : (startStreaming.exec (V4L2Camera.init.exec t)).mPreviewThread = false :=
    (mPreviewThread_exec (quiet_startStreaming hA) _).trans hfinit
  have hcond : acceptedBuffers t = 0 ∨ acceptedBuffers t = nbBuffer := Or.inr hall
  rw [and_iff_right hlogS]
  by_cases hst : startStreaming.val (V4L2Camera.init.exec t) ≠ 0
  · -- the session is given up in order
    obtain ⟨hlogU, hoverU⟩ := uninit_spec (hfilledS.balanced (Nat.le_refl _))
    have hfclose := (mPreviewThread_exec (quiet_close hA) _).trans
      ((mPreviewThread_exec (quiet_uninit hA) _).trans hfstream)
    rw [if_pos hst, if_pos hst]
    refine ⟨iff_of_true ⟨hlogU, emits_close_iff.mpr hoverU.balance⟩ hcond,
      fun _ => ⟨fun _ => over_close hoverU.balance, fun ht => ?_⟩⟩
    exact absurd (hfclose.symm.trans ht) (by decide)
  · rw [if_neg hst, if_neg hst]
    exact ⟨iff_of_true trivial hcond,
      fun _ => ⟨nofun, fun _ => (hfilledS.counting hindexS).congr rfl rfl rfl⟩⟩

end Start

/-! ## §5 A Picture -/

/-- The driver holds slots of the camera, each once, and the counters are off by `d`. -/
structure OffBy (d : Int) (t : CameraHardware) : Prop where
  held_nodup : t.kernel.held.Nodup
  held_lt : ∀ i ∈ t.kernel.held, i < nbBuffer
  balance : dqCount t = t.kernel.held.length + d
  session : t.kernel.held ≠ [] → t.session = true

section Picture

variable {t : CameraHardware}

theorem OffBy.length_held_le {d : Int} (h : OffBy d t) : t.kernel.held.length ≤ nbBuffer :=
  length_le_nbBuffer h.held_nodup h.held_lt

theorem OffBy.balanced (h : OffBy 0 t) : Balanced t := by
  have hheld : sessionHeld t = t.kernel.held.length := by
    rw [sessionHeld]
    split
    · rfl
    · next hno =>
      -- without a session the driver holds nothing
      have hnil : t.kernel.held = [] := by_contra fun hne => hno (h.session hne)
      rw [hnil]
      rfl
  exact ⟨by rw [h.balance, hheld, Int.add_zero], by rw [hheld]; exact h.length_held_le⟩

theorem Filled.offBy {k : Nat} (h : Filled 0 k t) (hk : k ≤ nbBuffer) : OffBy 0 t where
  held_nodup := by
    rw [h.held, List.nodup_reverse]
    exact List.nodup_range
  held_lt i hi := by
    rw [h.held, List.mem_reverse, List.mem_range] at hi
    omega
  balance := by
    rw [nbBuffer] at hk
    rw [h.balance, h.held, List.length_reverse, List.length_range, Int.zero_add, Int.add_zero,
      int32_of_range (by omega) (by omega)]
  session hne := by
    rw [h.held] at hne
    exact h.session (Nat.pos_of_ne_zero fun hzero => hne (by rw [hzero]; rfl))

theorem OffBy.answered {d : Int} (h : OffBy d t) : OffBy d t.answered :=
  ⟨h.held_nodup, h.held_lt, h.balance, h.session⟩

/-- Counting makes up for what the counters are off by; the driver holds at most four buffers, so
nothing wraps. -/
theorem OffBy.recount {d : Int} {u : CameraHardware} (h : OffBy d t) (hkernel : u.kernel = t.kernel)
    (hsession : u.session = t.session) (hcount : dqCount u = int32 (dqCount t - d)) : OffBy 0 u where
  held_nodup := hkernel ▸ h.held_nodup
  held_lt := hkernel ▸ h.held_lt
  balance := by
    have hle : t.kernel.held.length ≤ 4 := h.length_held_le
    rw [hcount, h.balance, Int.add_sub_cancel, int32_of_range (by omega) (by omega), hkernel,
      Int.add_zero]
  session := by
    rw [hkernel, hsession]
    exact h.session

/-- The driver does not hold the buffer in `videoIn->buf`, which is a slot of the camera. -/
structure OneOut (d : Int) (t : CameraHardware) : Prop extends OffBy d t where
  running : t.session = true
  out : t.camera.videoIn.buf.index ∉ t.kernel.held
  index_lt : t.camera.videoIn.buf.index < nbBuffer

/-- A buffer leaves the driver, and is not counted yet. -/
theorem OffBy.oneOut {u : CameraHardware} (h : OffBy 0 t)
    (hmem : u.camera.videoIn.buf.index ∈ t.kernel.held)
    (hheld : u.kernel.held = t.kernel.held.erase u.camera.videoIn.buf.index)
    (hsession : u.session = t.session) (hcount : dqCount u = dqCount t) : OneOut 1 u := by
  have hrunning : u.session = true := hsession.trans (h.session (List.ne_nil_of_mem hmem))
  -- one buffer fewer with the driver, and the count is what it was: one too many
  have hlength : u.kernel.held.length = t.kernel.held.length - 1 := by
    rw [hheld, List.length_erase_of_mem hmem]
  have hpos : 0 < t.kernel.held.length := List.length_pos_of_mem hmem
  refine ⟨⟨hheld ▸ h.held_nodup.erase _, fun i hi => ?_, ?_, fun _ => hrunning⟩, hrunning, ?_,
    h.held_lt _ hmem⟩
  · rw [hheld] at hi
    exact h.held_lt i (List.mem_of_mem_erase hi)
  · rw [hcount, h.balance, hlength]
    omega
  · rw [hheld]
    exact h.held_nodup.not_mem_erase

/-- The buffer goes back to the driver, and is not counted yet. -/
theorem OneOut.back {u : CameraHardware} (h : OneOut 0 t)
    (hheld : u.kernel.held = t.camera.videoIn.buf.index :: t.kernel.held)
    (hsession : u.session = t.session) (hcount : dqCount u = dqCount t) : OffBy (-1) u := by
  refine ⟨?_, fun i hi => ?_, ?_, fun _ => hsession.trans h.running⟩
  · rw [hheld]
    exact List.nodup_cons.mpr ⟨h.out, h.held_nodup⟩
  · rw [hheld] at hi
    rcases List.mem_cons.mp hi with rfl | hi
    · exact h.index_lt
    · exact h.held_lt i hi
  · rw [hcount, h.balance, hheld, List.length_cons]
    omega

/-- `GrabJpegFrame` counts each of its requests only if it has succeeded. -/
theorem offBy_grabJpegFrame : Keeps (OffBy 0) CountsHeld grabJpegFrame := by
  have hret (ok : Bool) : Keeps (OffBy 0) CountsHeld (ret .grabJpegFrame ok) :=
    keeps_act fun _ ht => ⟨ht, Or.inr (Or.inr ht.balanced)⟩
  have hfail : Triple (OffBy 0) CountsHeld (do ret .grabJpegFrame false; pure false)
      fun _ => OffBy 0 := ((hret false).bind fun _ => keeps_pure _).triple
  apply Triple.keeps
  -- `VIDIOC_DQBUF`: a buffer leaves the driver before it is counted
  refine triple_request_ite _ _ _ (OffBy 0) (OneOut 1) (fun u hu _ => ⟨trivial, hu.answered⟩) ?_ hfail ?_
  · intro u a hu hr
    obtain ⟨_, hallowed, rfl⟩ := (u.outcome_eq_some).mp hr
    rw [dequeues, Bool.and_eq_true, decide_eq_true_eq] at hallowed
    exact ⟨trivial, hu.oneOut hallowed.2 rfl rfl rfl⟩
  -- `nDequeued` makes up for it
  have hcount : Triple (OneOut 1) CountsHeld countDequeued fun _ => OneOut 0 := by
    apply triple_act
    intro u hu
    exact ⟨trivial, hu.recount rfl rfl (int32_sub_succ _ _), hu.running, hu.out, hu.index_lt⟩
  refine hcount.bind fun _ => ?_
  -- `VIDIOC_QBUF`: the same buffer goes back, again before it is counted
  refine triple_request_ite _ _ _ (OffBy 0) (OffBy (-1)) (fun u hu _ => ⟨trivial, hu.answered⟩)
    (fun u a hu _ => ⟨trivial, hu.back rfl rfl rfl⟩) hfail ?_
  have hcount' : Triple (OffBy (-1)) CountsHeld countQueued fun _ => OffBy 0 := by
    apply triple_act
    intro u hu
    exact ⟨trivial, hu.recount rfl rfl (int32_succ_sub _ _)⟩
  -- the frame is converted, and `GrabJpegFrame` returns with the counters right
  refine hcount'.bind fun _ => Keeps.triple ?_
  apply Keeps.read_bind
  intro u _
  refine Keeps.bind (keeps_act fun _ ht => ⟨ht, trivial⟩) fun _ => ?_
  exact (hret true).bind fun _ => keeps_pure _

/-- `pictureThread` counts right, however far `Init` gets: `Uninit` always follows. -/
theorem pictureThread_spec (h : Over t) :
    Emits CountsHeld CameraHardware.pictureThread t ∧
      Over (CameraHardware.pictureThread.exec t) := by
  obtain ⟨hlog, hover, hfresh⟩ :=
    openNode_over h t.mParameters.previewWidth t.mParameters.previewHeight
  have hnotify : CountsHeld (.notifyFn CameraHardware.msgShutter) t := trivial
  simp only [CameraHardware.pictureThread, emits_bind, emits_read, val_read, exec_bind, exec_read,
    emits_when, emits_act, exec_when, exec_act, id, ite_self, hnotify, implies_true, true_and,
    emits_ite, exec_ite, emits_pure, exec_pure, and_true, hlog]
  generalize CameraHardware.openNode t.mParameters.previewWidth
    t.mParameters.previewHeight = node at *
  by_cases hv : node.val t < 0
  · simp only [if_pos hv, true_and]
    exact hover
  -- `Init` is not checked: streaming, the picture and `Uninit` follow whatever it has queued
  have hpos : 0 ≤ node.val t := by omega
  simp only [if_neg hv]
  obtain ⟨hlogI, hfilled, _⟩ := init_over hover (hfresh hpos)
  obtain ⟨hfilled', hlogS⟩ :=
    filled_startStreaming countsHeld_of_not_isCounted 0 _ _ hfilled
  have hpicture : Keeps (OffBy 0) CountsHeld CameraHardware.compressedImage := by
    refine Keeps.read_bind fun s _ => Keeps.when fun _ => ?_
    exact offBy_grabJpegFrame.bind fun picture => keeps_act fun _ ht => ⟨ht, trivial⟩
  obtain ⟨hoff, hlogP⟩ := hpicture _ (hfilled'.offBy (acceptedBuffers_le _))
  obtain ⟨hlogD, hoverD⟩ := shutDown_spec hoff.balanced
  exact ⟨⟨hlogI, hlogS, hlogP, hlogD⟩, hoverD⟩

end Picture

/-! ## §6 Every Run -/

/-- The invariant of the runs that count right. -/
structure CountsSoFar (s : CameraHardware) : Prop where
  consistent : Consistent s
  ended : s.mPreviewThread = false → Over s
  counting : s.mPreviewThread = true → Counting s

/-- If the iteration that is about to take the lock gets a window buffer, its frame goes
round. -/
def FrameCirculates (s : CameraHardware) : Prop :=
  s.mNativeWindow = true → (s.answerAt 0).ok = true →
    Circulates s (s.answerAt 2) (s.answerAt 3)

/-- A step does not lose count: `startPreview` gets all buffers queued or none, and the frame
of an iteration that gets a window buffer goes round. -/
def StepCounts (s : CameraHardware) (a : Step) : Prop :=
  match a.call with
  | .startPreview =>
    Call.enabled s .startPreview = true → s.mPreviewThread = false → InitAllOrNone (a.start s)
  | .previewThreadLocked =>
    Call.enabled s .previewThreadLocked = true → FrameCirculates (a.start s)
  | _ => True

section Steps

variable {s : CameraHardware}

/-- `stopPreview` ends the session of the preview, if there is one. -/
theorem stopPreview_spec (h : CountsSoFar s) :
    Emits CountsHeld CameraHardware.stopPreview s ∧ Over (CameraHardware.stopPreview.exec s) := by
  have hassign (member : String) (t : CameraHardware) : CountsHeld (.assign member) t := trivial
  have hlast (t : CameraHardware) (ht : Over t) : Over { t with mPreviewThread := false } :=
    ⟨ht.session, ht.balance⟩
  simp only [CameraHardware.stopPreview, assign, emits_bind, exec_bind, emits_act, exec_act,
    emits_read, val_read, exec_read, emits_when, exec_when, hassign, true_and, and_true]
  -- a preview that runs is shut down; without one nothing is queued
  by_cases hthread : s.mPreviewThread = true
  · have hcounting : Counting { s with previewStopped := true } :=
      (h.counting hthread).congr rfl rfl rfl
    obtain ⟨hlog, hover⟩ := shutDown_spec hcounting.balanced
    rw [if_pos hthread]
    exact ⟨fun _ => hlog, hlast _ hover⟩
  · have hover := h.ended (Bool.not_eq_true _ ▸ hthread)
    rw [if_neg hthread]
    exact ⟨fun ht => absurd ht hthread, hlast _ ⟨hover.session, hover.balance⟩⟩

theorem previewThreadLocked_spec (h : Counting s) {width height : Int}
    (hiteration : s.iteration = some (width, height)) :
    (Emits CountsHeld CameraHardware.previewThreadLocked s ↔ FrameCirculates s) ∧
    (FrameCirculates s → Counting (CameraHardware.previewThreadLocked.exec s)) := by
  have hcounting : Counting { s.answered with iteration := none } :=
    h.answered.congr rfl rfl rfl
  -- the first answer is the window's, the next two are those of `previewFrame`
  have hanswer (n : Nat) : ({ s.answered with iteration := none } : CameraHardware).answerAt n =
      s.answerAt (n + 1) := s.kernel.answered_answerAt n
  obtain ⟨hemits, hframe⟩ := previewFrame_spec hcounting (s.answerAt 0).stride width height
  rw [hanswer, hanswer] at hemits hframe
  constructor
  · rw [emits_previewThreadLocked_iff fun e t _ he => countsHeld_of_not_isCounted e t he]
    constructor
    · intro hlog hwindow hok
      exact hemits.mp (hlog width height hiteration hwindow hok)
    · rintro hcirculates _ _ hsize hwindow hok
      obtain ⟨rfl, rfl⟩ := Prod.mk.inj (Option.some.inj (hiteration.symm.trans hsize))
      exact hemits.mpr (hcirculates hwindow hok)
  · intro hcirculates
    rw [exec_previewThreadLocked hiteration]
    split
    · next hwindow =>
      split
      · next hok => exact hframe (hcirculates hwindow hok)
      · -- a window that hands out nothing leaves before `GrabPreviewFrame`
        exact h.answered.congr rfl rfl rfl
    · exact h.congr rfl rfl rfl

theorem CountsSoFar.congr {t : CameraHardware} (h : CountsSoFar s)
    (hdevice : t.device = s.device) : CountsSoFar t := by
  have hconsistent := h.consistent.congr hdevice
  simp only [CameraHardware.device, Prod.mk.injEq] at hdevice
  obtain ⟨hcamera, hkernel, hthread, hsession, _⟩ := hdevice
  refine ⟨hconsistent, fun ht => ?_, fun ht => ?_⟩
  · have hover := h.ended (hthread ▸ ht)
    refine ⟨hsession.trans hover.session, ?_⟩
    rw [dqCount, hcamera]
    exact hover.balance
  · exact (h.counting (hthread ▸ ht)).congr hcamera hkernel hsession

/-- One step counts right exactly when it does not lose count. -/
theorem stepEmits_countsHeld_iff (h : CountsSoFar s) (a : Step) :
    StepEmits CountsHeld s a ↔ StepCounts s a := by
  have hP (e : Event) (t : CameraHardware) (_ : e.isAccess = false) (he : e.isCounted = false)
      (_ : e.isRelease = false) : CountsHeld e t := countsHeld_of_not_isCounted e t he
  obtain ⟨call, answers⟩ := a
  have hstart : CountsSoFar (Step.start ⟨call, answers⟩ s) := h.congr rfl
  rw [StepEmits, StepCounts]
  cases call with
  -- neither a file nor a buffer is touched
  | setPreviewWindow | setParameters | enableMsgType | disableMsgType =>
    exact iff_of_true (fun _ => (apart_code hP rfl).emits _) trivial
  -- only the next iteration is asked for
  | previewThread =>
    refine iff_of_true (fun _ => ?_) trivial
    refine (Keeps.read_bind (I := fun _ => True) (fun t _ => ?_) _ trivial).2
    exact Keeps.when fun _ => keeps_act fun _ _ => ⟨trivial, trivial⟩
  | stopPreview => exact iff_of_true (fun _ => (stopPreview_spec hstart).1) trivial
  | takePicture =>
    refine iff_of_true (fun _ => ?_) trivial
    -- the preview is stopped first, so `pictureThread` finds the session over
    obtain ⟨hlog, hover⟩ := stopPreview_spec hstart
    simp only [Call.code, CameraHardware.takePicture, emits_bind, emits_pure, and_true]
    exact ⟨hlog, (pictureThread_spec hover).1⟩
  | startPreview =>
    refine imp_congr_right fun _ => ?_
    simp only [Call.code, emits_bind, emits_pure, and_true]
    by_cases hthread : s.mPreviewThread = true
    · -- a second preview is refused
      have hrefused := CameraHardware.startPreview_refused (P := CountsHeld)
        (s := Step.start ⟨.startPreview, answers⟩ s) hthread
      exact iff_of_true hrefused.1 fun hno => absurd (hno.symm.trans hthread) (by decide)
    · have hno : s.mPreviewThread = false := Bool.not_eq_true _ ▸ hthread
      rw [(startPreview_spec (hstart.ended hno) hno).1]
      exact ⟨fun hinit _ => hinit, fun hinit => hinit hno⟩
  | previewThreadLocked =>
    apply imp_congr_right
    intro henabled
    simp only [Call.enabled, Bool.and_eq_true] at henabled
    obtain ⟨⟨width, height⟩, hsize⟩ := Option.isSome_iff_exists.mp henabled.1
    have hthread : s.mPreviewThread = true := h.consistent.thread henabled.1
    exact (previewThreadLocked_spec (hstart.counting hthread) hsize).1

/-- Between two previews. -/
theorem CountsSoFar.of_idle (hidle : Idle s) (hover : Over s) : CountsSoFar s :=
  ⟨hidle.consistent, fun _ => hover, fun ht => absurd (hidle.thread.symm.trans ht) (by decide)⟩

/-- Such a step leaves the counters right. -/
theorem countsSoFar_step {t : CameraHardware} {a : Step} (h : CountsSoFar s)
    (hcounts : StepCounts s a) (hstep : cameraMachine.step s a = some t) : CountsSoFar t := by
  have hconsistent := consistent_step h.consistent hstep
  obtain ⟨call, answers⟩ := a
  have hstart : CountsSoFar (Step.start ⟨call, answers⟩ s) := h.congr rfl
  rw [cameraMachine, Option.ite_none_right_eq_some] at hstep
  obtain ⟨henabled, hexec⟩ := hstep
  rw [Option.some.injEq] at hexec
  rw [StepCounts] at hcounts
  have hT (e : Event) (t : CameraHardware) :
      e.isAccess = false → e.isCounted = false → e.isRelease = false → True :=
    fun _ _ _ => trivial
  cases call with
  | setPreviewWindow | setParameters | enableMsgType | disableMsgType =>
    subst hexec
    exact hstart.congr ((apart_code hT rfl).exec_eq _)
  | previewThread =>
    -- only the size of the iteration is new
    subst hexec
    simp only [Call.code, CameraHardware.previewThread, assign, exec_bind, val_read, exec_read,
      exec_when, exec_act] at hconsistent ⊢
    split at hconsistent
    · next hgo =>
      rw [if_pos hgo]
      refine ⟨hconsistent, fun ht => ?_, fun ht => (hstart.counting ht).congr rfl rfl rfl⟩
      exact ⟨(hstart.ended ht).session, (hstart.ended ht).balance⟩
    · next hgo =>
      rw [if_neg hgo]
      exact hstart
  | stopPreview =>
    subst hexec
    simp only [Call.enabled, Bool.and_eq_true, Option.isNone_iff_eq_none] at henabled
    exact .of_idle (CameraHardware.idle_stopPreview henabled.2) (stopPreview_spec hstart).2
  | takePicture =>
    subst hexec
    simp only [Call.enabled, Bool.and_eq_true, Option.isNone_iff_eq_none] at henabled
    simp only [Call.code, CameraHardware.takePicture, exec_bind, exec_pure]
    have hA (e : Event) (t : CameraHardware) : e.isAccess = false → True := fun _ => trivial
    have hidle := CameraHardware.idle_stopPreview
      (t := Step.start ⟨.takePicture, answers⟩ s) henabled.2
    have hpicture := (CameraHardware.quiet_pictureThread hA fun _ _ _ => trivial).idle
    exact .of_idle (hpicture _ hidle).1 (pictureThread_spec (stopPreview_spec hstart).2).2
  | startPreview =>
    subst hexec
    simp only [Call.code, exec_bind, exec_pure] at hconsistent ⊢
    by_cases hthread : s.mPreviewThread = true
    · -- a second preview is refused and changes nothing
      have hsame := (CameraHardware.startPreview_refused (P := fun _ _ => True)
        (s := Step.start ⟨.startPreview, answers⟩ s) hthread).2
      rw [hsame]
      exact hstart
    · have hno : s.mPreviewThread = false := Bool.not_eq_true _ ▸ hthread
      obtain ⟨hover, hcounting⟩ :=
        (startPreview_spec (hstart.ended hno) hno).2 (hcounts henabled hno)
      exact ⟨hconsistent, hover, hcounting⟩
  | previewThreadLocked =>
    subst hexec
    have hcirculates := hcounts henabled
    simp only [Call.enabled, Bool.and_eq_true] at henabled
    obtain ⟨⟨width, height⟩, hsize⟩ := Option.isSome_iff_exists.mp henabled.1
    have hthread : s.mPreviewThread = true := h.consistent.thread henabled.1
    have hcounting := (previewThreadLocked_spec (hstart.counting hthread) hsize).2 hcirculates
    -- an iteration leaves `mPreviewThread` as it is
    refine ⟨hconsistent, fun ht => ?_, fun _ => hcounting⟩
    have hsame := mPreviewThread_previewThreadLocked
      (s := Step.start ⟨.previewThreadLocked, answers⟩ s) hsize
    exact absurd ((hsame.trans hthread).symm.trans ht) (by decide)

theorem countsSoFar_created (fd : Int) : CountsSoFar (created fd) :=
  ⟨consistent_created fd, fun _ => ⟨rfl, rfl⟩, nofun⟩

end Steps

/-- **The counters are right exactly when no step loses count**: in a run from the creation of
`CameraHardware`, with any answers of the kernel and the window system, `nQueued - nDequeued`
is the number of buffers the driver holds for the session at every return of a function that
works on the buffers, and `Uninit` asks for no buffer in vain, if and only if every
`startPreview` gets all buffers queued or none and every frame of the preview goes round. -/
theorem counts_held_iff (fd : Int) (steps : List Step) :
    cameraMachine.AllSteps (StepEmits CountsHeld) (created fd) steps ↔
      cameraMachine.AllSteps StepCounts (created fd) steps :=
  cameraMachine.allSteps_iff (fun _ a hs => stepEmits_countsHeld_iff hs a)
    (fun _ _ _ hs hcounts hstep => countsSoFar_step hs hcounts hstep) (countsSoFar_created fd) steps

/-- A preview is given up when `Init` has queued two buffers; the next one is started and
stopped. -/
def halfInit : List Step :=
  [⟨.startPreview, (previewAnswers 153600).take 10⟩, ⟨.startPreview, previewAnswers 153600⟩,
    ⟨.stopPreview, (List.range nbBuffer).map fun i => { ok := true, index := i }⟩]

/-- The counters stay two ahead, and `Uninit` asks for a fifth of four buffers. -/
theorem half_init_miscounts :
    (cameraMachine.run (created 0) halfInit).isSome = true ∧
      ¬cameraMachine.AllSteps (StepEmits CountsHeld) (created 0) halfInit := by
  constructor
  · rfl
  · decide

end OdroidU2.Camera
