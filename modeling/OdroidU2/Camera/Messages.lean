import OdroidU2.Camera.Runs

/-!
# Enabled Messages

`enableMsgType` and `disableMsgType` set and clear the bits of a mask, and `msgTypeEnabled` asks
for several of them at once.  The header documents the query as an AND: it is false if any of
the messages is off.  The code tests whether the masks meet, which is an OR.

- `getLsbD_mMsgEnabled_run` — a bit is set exactly when the last call that touched it was an enable
- `documented_and_iff` — when the answer is the documented one
- `query_of_two_messages` — one message on, one off, and the answer is yes
-/

namespace OdroidU2.Camera

open OdroidU2.Foundations Prog

/-! ## §1 The History of a Message -/

/-- What a call makes of the last touch of a message: an enable, a disable, or none so far. -/
def Call.touch (bit : Nat) (last : Option Bool) : Call → Option Bool
  | .enableMsgType msgType => if msgType.getLsbD bit then some true else last
  | .disableMsgType msgType => if msgType.getLsbD bit then some false else last
  | _ => last

/-- The last touch of a message after these steps. -/
def touchedBy (bit : Nat) (last : Option Bool) (steps : List Step) : Option Bool :=
  steps.foldl (fun last a => a.call.touch bit last) last

/-- Some call touched the message, and the last one that did was an enable. -/
def LastEnabled (steps : List Step) (bit : Nat) : Prop := touchedBy bit none steps = some true

instance (steps : List Step) (bit : Nat) : Decidable (LastEnabled steps bit) := by
  unfold LastEnabled
  infer_instance

/-! ## §2 What the Other Calls Leave Alone -/

section Mask

/-- `p` leaves the mask of enabled messages alone. -/
abbrev LeavesMask {α : Type} (p : CameraM α) : Prop :=
  Leaves (fun s : CameraHardware => s.mMsgEnabled) (fun _ _ => True) p

variable {α : Type} {p : CameraM α}

/-- The functions of `V4L2Camera` have no part in the mask. -/
theorem leavesMask_of_quiet (hp : Quiet (fun _ _ => True) p) : LeavesMask p :=
  hp.comp fun o => o.2.2.2.2.2.1

theorem leavesMask_act {e : Event} {f : CameraHardware → CameraHardware}
    (hf : ∀ s, (f s).mMsgEnabled = s.mMsgEnabled) : LeavesMask (act e f) :=
  leaves_act (fun _ => trivial) hf

theorem leavesMask_setPreviewWindow (window : Bool) :
    LeavesMask (CameraHardware.setPreviewWindow window) := by
  have hcount : LeavesMask CameraHardware.setBufferCount := by
    apply Leaves.read_bind
    intro s
    exact Leaves.bind (leavesMask_act fun _ => rfl) fun _ => leaves_pure _
  apply Leaves.read_bind
  intro s
  -- the calls of the source in their order
  refine Leaves.bind (Leaves.when (leavesMask_act fun _ => rfl)) fun _ => ?_
  apply Leaves.ite (leaves_pure _)
  refine Leaves.bind (leavesMask_act fun _ => rfl) fun _ => ?_
  refine Leaves.bind (leavesMask_act fun _ => rfl) fun _ => ?_
  refine Leaves.bind (leavesMask_act fun _ => rfl) fun _ => ?_
  refine Leaves.bind hcount fun err => ?_
  exact Leaves.bind (Leaves.when (leavesMask_act fun _ => rfl)) fun _ => leaves_pure _

theorem leavesMask_startPreview : LeavesMask CameraHardware.startPreview := by
  have hA (e : Event) (t : CameraHardware) : e.isFramed = false → True := fun _ => trivial
  have hclose := leavesMask_of_quiet (V4L2Camera.quiet_close hA)
  apply Leaves.read_bind
  intro s
  -- each way out of the source: already running, no device, `Init` or STREAMON failed, started
  apply Leaves.ite (leaves_pure _)
  apply Leaves.bind (leavesMask_of_quiet (CameraHardware.quiet_openNode hA _ _))
  intro opened
  apply Leaves.ite (leaves_pure _)
  refine Leaves.bind (leavesMask_act fun _ => rfl) fun _ => ?_
  apply Leaves.bind (leavesMask_of_quiet (V4L2Camera.quiet_init hA))
  intro ret
  apply Leaves.ite (hclose.bind fun _ => leaves_pure _)
  apply Leaves.bind (leavesMask_of_quiet (V4L2Camera.quiet_startStreaming hA))
  intro ret
  apply Leaves.ite
  · refine Leaves.bind (leavesMask_of_quiet (V4L2Camera.quiet_uninit hA)) fun _ => ?_
    exact hclose.bind fun _ => leaves_pure _
  · refine Leaves.bind (leavesMask_act fun _ => rfl) fun _ => ?_
    exact Leaves.bind (leavesMask_act fun _ => rfl) fun _ => leaves_pure _

theorem leavesMask_stopPreview : LeavesMask CameraHardware.stopPreview := by
  have hA (e : Event) (t : CameraHardware) : e.isFramed = false → True := fun _ => trivial
  refine Leaves.bind (leavesMask_act fun _ => rfl) fun _ => ?_
  apply Leaves.read_bind
  intro s
  refine Leaves.bind (Leaves.when (leavesMask_of_quiet (CameraHardware.quiet_shutDown hA)))
    fun _ => ?_
  exact leavesMask_act fun _ => rfl

theorem leavesMask_previewThreadLocked : LeavesMask CameraHardware.previewThreadLocked := by
  apply Leaves.read_bind
  intro s
  cases s.iteration with
  | none => exact leaves_pure ()
  | some size =>
    refine Leaves.bind (leavesMask_act fun _ => rfl) fun _ => Leaves.when ?_
    refine Leaves.bind (leaves_request _ _ _ (fun _ _ _ => trivial) fun _ _ => rfl) fun r => ?_
    cases r with
    | none => exact leavesMask_act fun _ => rfl
    | some a => exact leavesMask_of_quiet (CameraHardware.quiet_previewFrame _ _ _)

end Mask

/-- A call moves a bit of the mask as it touches the message. -/
theorem getLsbD_mMsgEnabled_code (call : Call) (bit : Nat) {last : Option Bool}
    {s : CameraHardware} (hs : s.mMsgEnabled.getLsbD bit = (last == some true)) :
    (call.code.exec s).mMsgEnabled.getLsbD bit = (call.touch bit last == some true) := by
  have hA (e : Event) (t : CameraHardware) : e.isAccess = false → True := fun _ => trivial
  -- the calls that leave the mask alone leave the history alone
  have hsame (hcall : LeavesMask call.code) (htouch : call.touch bit last = last) :
      (call.code.exec s).mMsgEnabled.getLsbD bit = (call.touch bit last == some true) := by
    rw [hcall.exec_eq s, htouch, hs]
  cases call with
  | enableMsgType msgType =>
    show (s.mMsgEnabled ||| msgType).getLsbD bit = _
    rw [BitVec.getLsbD_or, hs, Call.touch]
    cases msgType.getLsbD bit <;> simp
  | disableMsgType msgType =>
    show (s.mMsgEnabled &&& ~~~msgType).getLsbD bit = _
    rw [BitVec.getLsbD_and, BitVec.getLsbD_not, hs, Call.touch]
    by_cases hbit : bit < 32
    · cases msgType.getLsbD bit <;> simp [hbit]
    · -- there is no such bit
      have hzero : (last == some true) = false := by
        rw [← hs, BitVec.getLsbD_of_ge _ _ (by omega)]
      rw [BitVec.getLsbD_of_ge msgType bit (by omega), hzero]
      simp [hzero]
  | setPreviewWindow window =>
    exact hsame ((leavesMask_setPreviewWindow window).bind fun _ => leaves_pure _) rfl
  | setParameters params =>
    refine hsame (Leaves.bind (Leaves.ite (leaves_pure _) ?_) fun _ => leaves_pure _) rfl
    exact Leaves.bind (leavesMask_act fun _ => rfl) fun _ => leaves_pure _
  | startPreview => exact hsame (leavesMask_startPreview.bind fun _ => leaves_pure _) rfl
  | stopPreview => exact hsame leavesMask_stopPreview rfl
  | takePicture =>
    have hpicture := leavesMask_of_quiet (CameraHardware.quiet_pictureThread hA fun _ _ _ => trivial)
    refine hsame (Leaves.bind ?_ fun _ => leaves_pure _) rfl
    exact leavesMask_stopPreview.bind fun _ => hpicture.bind fun _ => leaves_pure _
  | previewThread =>
    refine hsame (Leaves.read_bind fun t => Leaves.when ?_) rfl
    exact leavesMask_act fun _ => rfl
  | previewThreadLocked => exact hsame leavesMask_previewThreadLocked rfl

/-! ## §3 Every Run -/

/-- **Run lemma**: a bit of the mask follows the last touch of its message. -/
theorem getLsbD_mMsgEnabled_run {steps : List Step} {s t : CameraHardware} (bit : Nat)
    {last : Option Bool} (hs : s.mMsgEnabled.getLsbD bit = (last == some true))
    (hrun : cameraMachine.run s steps = some t) :
    t.mMsgEnabled.getLsbD bit = (touchedBy bit last steps == some true) := by
  -- call by call: a bit is what the last call that touched it made it
  induction steps generalizing s last with
  | nil =>
    rw [Machine.run_nil, Option.some.injEq] at hrun
    rw [← hrun]
    exact hs
  | cons a steps ih =>
    obtain ⟨u, hstep, hrest⟩ := Option.bind_eq_some_iff.mp hrun
    rw [cameraMachine, Option.ite_none_right_eq_some, Option.some.injEq] at hstep
    apply ih _ hrest
    rw [← hstep.2]
    exact getLsbD_mMsgEnabled_code a.call bit hs

/-- After a run from the creation of `CameraHardware` a bit of the mask is set exactly when the
last call that touched it was an enable. -/
theorem getLsbD_mMsgEnabled_iff {fd : Int} {steps : List Step} {s : CameraHardware}
    (hrun : cameraMachine.run (created fd) steps = some s) (bit : Nat) :
    s.mMsgEnabled.getLsbD bit = true ↔ LastEnabled steps bit := by
  have hcreated : (created fd).mMsgEnabled.getLsbD bit = (none == some true) := by simp [created]
  have hbit := getLsbD_mMsgEnabled_run bit hcreated hrun
  rw [hbit, LastEnabled, beq_iff_eq]

/-! ## §4 The Query -/

/-- A mask is not zero exactly when it has a bit. -/
theorem ne_zero_iff_getLsbD (m : BitVec 32) : m ≠ 0 ↔ ∃ bit, m.getLsbD bit = true := by
  constructor
  · intro hm
    by_contra hnone
    apply hm
    apply BitVec.eq_of_getLsbD_eq
    intro bit _
    rw [Bool.eq_false_iff.mpr fun hbit => hnone ⟨bit, hbit⟩]
    simp
  · rintro ⟨bit, hbit⟩ rfl
    simp at hbit

/-- The query is true exactly when the masks have a message in common. -/
theorem msgTypeEnabled_iff (s : CameraHardware) (m : BitVec 32) :
    (CameraHardware.msgTypeEnabled m).val s = true ↔
      ∃ bit, m.getLsbD bit = true ∧ s.mMsgEnabled.getLsbD bit = true := by
  show (s.mMsgEnabled &&& m != 0) = true ↔ _
  rw [bne_iff_ne, ne_zero_iff_getLsbD]
  simp only [BitVec.getLsbD_and, Bool.and_eq_true, and_comm]

/-- The answer is the documented one: true exactly when the last call that touched each of the
queried messages was an enable. -/
def DocumentedAnswer (steps : List Step) (s : CameraHardware) (m : BitVec 32) : Prop :=
  (CameraHardware.msgTypeEnabled m).val s = true ↔
    ∀ bit, m.getLsbD bit = true → LastEnabled steps bit

/-- The queried messages are all on, or all off. -/
def Agree (steps : List Step) (m : BitVec 32) : Prop :=
  (∀ bit, m.getLsbD bit = true → LastEnabled steps bit) ∨
    ∀ bit, m.getLsbD bit = true → ¬LastEnabled steps bit

/-- After any calls, whatever came between them, a query of at least one message is answered as
documented if and only if the messages are all on or all off. -/
theorem documented_and_iff (fd : Int) (steps : List Step) (s : CameraHardware)
    (hrun : cameraMachine.run (created fd) steps = some s) (m : BitVec 32) (hm : m ≠ 0) :
    DocumentedAnswer steps s m ↔ Agree steps m := by
  obtain ⟨some_bit, hsome⟩ := (ne_zero_iff_getLsbD m).mp hm
  simp only [DocumentedAnswer, msgTypeEnabled_iff, getLsbD_mMsgEnabled_iff hrun, Agree]
  constructor
  · intro h
    -- one bit on answers for the whole mask
    by_cases hany : ∃ bit, m.getLsbD bit = true ∧ LastEnabled steps bit
    · exact .inl (h.mp hany)
    · exact .inr fun bit hbit hon => hany ⟨bit, hbit, hon⟩
  · rintro (hon | hoff)
    · exact iff_of_true ⟨some_bit, hsome, hon some_bit hsome⟩ hon
    · exact iff_of_false (fun ⟨bit, hbit, hon⟩ => hoff bit hbit hon)
        fun hall => hoff some_bit hsome (hall some_bit hsome)

/-- The client enables `CAMERA_MSG_PREVIEW_FRAME`. -/
def enablePreviewFrame : List Step := [⟨.enableMsgType CameraHardware.msgPreviewFrame, []⟩]

/-- The mask of the client that has enabled `CAMERA_MSG_PREVIEW_FRAME`, asked for it. -/
theorem documented_and_iff_one_message :
    DocumentedAnswer enablePreviewFrame
        { created 0 with mMsgEnabled := CameraHardware.msgPreviewFrame }
        CameraHardware.msgPreviewFrame ↔
      Agree enablePreviewFrame CameraHardware.msgPreviewFrame :=
  documented_and_iff 0 enablePreviewFrame _ rfl CameraHardware.msgPreviewFrame (by decide)

/-- With `CAMERA_MSG_PREVIEW_FRAME` on and `CAMERA_MSG_VIDEO_FRAME` never touched, the query for
both is true. -/
theorem query_of_two_messages :
    ∃ s, cameraMachine.run (created 0) enablePreviewFrame = some s ∧
      ¬DocumentedAnswer enablePreviewFrame s
        (CameraHardware.msgPreviewFrame ||| CameraHardware.msgVideoFrame) := by
  refine ⟨{ created 0 with mMsgEnabled := CameraHardware.msgPreviewFrame }, rfl, fun h => ?_⟩
  have hyes : (CameraHardware.msgTypeEnabled
      (CameraHardware.msgPreviewFrame ||| CameraHardware.msgVideoFrame)).val
      { created 0 with mMsgEnabled := CameraHardware.msgPreviewFrame } = true := by decide
  have hvideo : LastEnabled enablePreviewFrame 5 := h.mp hyes 5 (by decide)
  revert hvideo
  decide

end OdroidU2.Camera
