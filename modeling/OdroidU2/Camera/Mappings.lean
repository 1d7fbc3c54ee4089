import OdroidU2.Camera.Runs

/-!
# The Mappings of the Capture Buffers

`Init` maps the capture buffers one after the other and keeps the addresses in
`videoIn->mem`.  `Uninit` unmaps all `NB_BUFFER` slots, each with the length that stands in
`videoIn->buf` by then.  A `startPreview` whose `Init` fails closes the device without
`Uninit`, and `pictureThread` calls `Uninit` however far `Init` got.

- `UnmapsOwn` — a `munmap` takes a mapping of the latest `Init`, with its own length, and
  `Close` leaves none behind
- `Laid` — the first `k` slots are the mappings in place
- `takes_unmapFrom_iff` — what the loop of `Uninit` needs
- `mappings_right_iff` — when all of a run has this
- `failed_init_stays_mapped` — a preview given up in the first round of `Init`
-/

namespace OdroidU2.Camera

open OdroidU2.Foundations Prog V4L2Camera

/-! ## §1 The Property -/

/-- A `munmap` is of a mapping that is in place and was made from the current descriptor,
with its own length; when `Close` returns no mapping is in place. -/
def UnmapsOwn (s : CameraHardware) (e : Event) (t : CameraHardware) : Prop :=
  match e with
  | .munmap frame length _ =>
    ∃ m ∈ s.kernel.maps, frame = .map m ∧ m.file = s.camera.fd ∧ length = m.length
  | .ret .close _ => t.kernel.maps = []
  | _ => True

instance (s : CameraHardware) (e : Event) (t : CameraHardware) : Decidable (UnmapsOwn s e t) := by
  unfold UnmapsOwn
  induction e using Event.casesOn with
  | ret fn ok => induction fn using CameraFn.casesOn <;> infer_instance
  | _ => infer_instance

theorem unmapsOwn_of_not_isRelease (s : CameraHardware) {e : Event} (t : CameraHardware)
    (h : e.isRelease = false) : UnmapsOwn s e t := by
  cases e with
  | munmap => exact absurd h (by simp [Event.isRelease])
  | ret fn ok => cases fn <;> simp_all [Event.isRelease, UnmapsOwn]
  | openDevice | ioctl | qbuf | dqbuf | mmap | closeFd | readFrame | writeWindow | notifyFn
  | dataFn | window | assign => trivial

/-- The action takes no mapping away, and is not the return of `Close`. -/
abbrev NoRelease (e : Event) (_ : CameraHardware) : Prop := e.isRelease = false

theorem takes_of_noRelease {α : Type} {p : CameraM α} {s : CameraHardware}
    (h : Emits NoRelease p s) : Takes UnmapsOwn p s :=
  h.takes fun s _ t he => unmapsOwn_of_not_isRelease s t he

/-- Every action of a step satisfies `P` of the states before and after it. -/
def StepTakes (P : CameraHardware → Event → CameraHardware → Prop) (s : CameraHardware)
    (a : Step) : Prop :=
  a.call.enabled s → Takes P a.call.code (a.start s)

instance {P : CameraHardware → Event → CameraHardware → Prop} [∀ s e t, Decidable (P s e t)]
    (s : CameraHardware) (a : Step) : Decidable (StepTakes P s a) :=
  inferInstanceAs (Decidable (_ → Takes P a.call.code (a.start s)))

/-! ## §2 The Slots -/

/-- What the slots depend on. -/
def CameraHardware.buffers (s : CameraHardware) :=
  (s.camera.videoIn.mem, s.camera.videoIn.buf, s.camera.fd, s.kernel.maps, s.kernel.lengths,
    s.kernel.held)

/-- The mappings in place are those of the first `k` buffers, and their slots hold them.  With
all slots filled the length in `videoIn->buf` is that of its buffer. -/
structure Laid (k : Nat) (t : CameraHardware) : Prop where
  mem : ∀ i < k, t.camera.videoIn.mem i = .map (bufferMapping t i)
  inPlace : ∀ i < k, bufferMapping t i ∈ t.kernel.maps
  only : ∀ m ∈ t.kernel.maps, ∃ i < k, m = bufferMapping t i
  slot : ∀ i m, t.camera.videoIn.mem i = .map m → m.index = i
  held_lt : ∀ i ∈ t.kernel.held, i < nbBuffer
  index_lt : t.camera.videoIn.buf.index < nbBuffer
  length : k = nbBuffer →
    t.camera.videoIn.buf.length = t.kernel.lengths t.camera.videoIn.buf.index

section Laid

variable {k : Nat} {t : CameraHardware}

theorem Laid.congr {t' : CameraHardware} (h : Laid k t) (hbuffers : t'.buffers = t.buffers) :
    Laid k t' := by
  simp only [CameraHardware.buffers, Prod.mk.injEq] at hbuffers
  obtain ⟨hmem, hbuf, hfd, hmaps, hlengths, hheld⟩ := hbuffers
  -- the mapping a slot should have depends on nothing that changed
  have hmapping (i : Nat) : bufferMapping t' i = bufferMapping t i := by
    rw [bufferMapping, hfd, hlengths, bufferMapping]
  refine ⟨fun i hi => ?_, fun i hi => ?_, fun m hm => ?_, ?_, ?_, ?_, ?_⟩
  · rw [hmem, hmapping, h.mem i hi]
  · rw [hmaps, hmapping]
    exact h.inPlace i hi
  · obtain ⟨i, hi, hmi⟩ := h.only m (hmaps ▸ hm)
    exact ⟨i, hi, hmi.trans (hmapping i).symm⟩
  · exact hmem ▸ h.slot
  · exact hheld ▸ h.held_lt
  · exact hbuf ▸ h.index_lt
  · rw [hbuf, hlengths]
    exact h.length

theorem Laid.maps_eq_nil_iff (h : Laid k t) : t.kernel.maps = [] ↔ k = 0 := by
  constructor
  · intro hnil
    -- a slot below `k` has its mapping in place
    by_contra hk
    have hplace := h.inPlace 0 (Nat.pos_of_ne_zero hk)
    rw [hnil] at hplace
    exact absurd hplace List.not_mem_nil
  · rintro rfl
    apply List.eq_nil_iff_forall_not_mem.mpr
    intro m hm
    obtain ⟨i, hi, _⟩ := h.only m hm
    exact absurd hi (Nat.not_lt_zero i)

/-- Without mappings the descriptor may be any. -/
theorem Laid.of_nil (hmaps : t.kernel.maps = [])
    (hslot : ∀ i m, t.camera.videoIn.mem i = .map m → m.index = i)
    (hheld : ∀ i ∈ t.kernel.held, i < nbBuffer) (hindex : t.camera.videoIn.buf.index < nbBuffer) :
    Laid 0 t :=
  ⟨nofun, nofun, fun _ hm => absurd (hmaps ▸ hm) List.not_mem_nil, hslot, hheld, hindex, nofun⟩

/-- When all mappings are gone the slots may keep what they held. -/
theorem Laid.unmapped {t' : CameraHardware} (h : Laid k t) (hcamera : t'.camera = t.camera)
    (hheld : t'.kernel.held = t.kernel.held) (hmaps : t'.kernel.maps = []) : Laid 0 t' := by
  apply Laid.of_nil hmaps
  · rw [hcamera]
    exact h.slot
  · rw [hheld]
    exact h.held_lt
  · rw [hcamera]
    exact h.index_lt

/-- The length of buffer `k` may change: it has no mapping yet. -/
theorem Laid.queryBuffer (h : Laid k t) (hk : k < nbBuffer)
    (hindex : t.camera.videoIn.buf.index = k) (length : Nat) :
    Laid k { t with
      kernel := t.kernel.queryBuffer t.camera.videoIn.buf.index length
      camera.videoIn.buf.length := length } := by
  -- VIDIOC_QUERYBUF stores the length of slot `k`, above the ones laid
  have hmapping (j : Nat) (hj : j < k) :
      (⟨t.camera.fd, j, Function.update t.kernel.lengths t.camera.videoIn.buf.index length j⟩ :
        Mapping) = bufferMapping t j := by
    rw [Function.update_of_ne (by omega)]
    rfl
  refine ⟨fun j hj => ?_, fun j hj => ?_, fun m hm => ?_, h.slot, h.held_lt, h.index_lt,
    fun hall => absurd hall (Nat.ne_of_lt hk)⟩
  · exact (h.mem j hj).trans (congrArg Ptr.map (hmapping j hj).symm)
  · have hplace := h.inPlace j hj
    rw [← hmapping j hj] at hplace
    exact hplace
  · obtain ⟨j, hj, hmj⟩ := h.only m hm
    exact ⟨j, hj, hmj.trans (hmapping j hj).symm⟩

/-- A failed `mmap` leaves nothing to unmap in its slot. -/
theorem Laid.mapFailed (h : Laid k t) : Laid k { t with
    camera.videoIn.mem := Function.update t.camera.videoIn.mem k .failed } := by
  refine ⟨fun j hj => ?_, h.inPlace, h.only, fun j m hm => ?_, h.held_lt, h.index_lt, h.length⟩
  · exact (Function.update_of_ne (Nat.ne_of_lt hj) _ _).trans (h.mem j hj)
  · by_cases hjk : j = k
    · subst hjk
      exact absurd ((Function.update_self j _ _).symm.trans hm) nofun
    · exact h.slot j m ((Function.update_of_ne hjk _ _).symm.trans hm)

/-- `mmap` fills slot `k`. -/
theorem Laid.mapBuffer (h : Laid k t) (hindex : t.camera.videoIn.buf.index = k)
    (hlength : t.camera.videoIn.buf.length = t.kernel.lengths k) :
    Laid (k + 1) { t with
      kernel := t.kernel.mmap (bufMapping t)
      camera.videoIn.mem := Function.update t.camera.videoIn.mem k (.map (bufMapping t)) } := by
  have hnew : bufMapping t = bufferMapping t k := by
    rw [bufMapping, hindex, hlength, bufferMapping]
  refine ⟨fun j hj => ?_, fun j hj => ?_, fun m hm => ?_, fun j m hm => ?_, h.held_lt,
    h.index_lt, fun _ => ?_⟩
  · -- each slot below `k` keeps its pointer, and slot `k` gets the new one
    rcases Nat.lt_succ_iff_lt_or_eq.mp hj with hj | rfl
    · exact (Function.update_of_ne (Nat.ne_of_lt hj) _ _).trans (h.mem j hj)
    · exact (Function.update_self j _ _).trans (congrArg Ptr.map hnew)
  · rcases Nat.lt_succ_iff_lt_or_eq.mp hj with hj | rfl
    · exact List.mem_cons_of_mem _ (h.inPlace j hj)
    · exact List.mem_cons.mpr (Or.inl hnew.symm)
  · rcases List.mem_cons.mp hm with rfl | hm
    · exact ⟨k, Nat.lt_succ_self k, hnew⟩
    · obtain ⟨j, hj, hmj⟩ := h.only m hm
      exact ⟨j, Nat.lt_succ_of_lt hj, hmj⟩
  · by_cases hjk : j = k
    · subst hjk
      -- the index of a mapping is that of the buffer it was made for
      have hm' := (Function.update_self j _ _).symm.trans hm
      rw [← Ptr.map.inj hm']
      exact hindex
    · exact h.slot j m ((Function.update_of_ne hjk _ _).symm.trans hm)
  · rw [hlength, hindex]
    rfl

/-- The driver takes another buffer of the camera. -/
theorem Laid.queue (h : Laid k t) {i : Nat} (hi : i < nbBuffer) :
    Laid k { t with kernel := t.kernel.queue i } := by
  refine ⟨h.mem, h.inPlace, h.only, h.slot, fun j hj => ?_, h.index_lt, h.length⟩
  rcases List.mem_cons.mp hj with rfl | hj
  · exact hi
  · exact h.held_lt j hj

/-- The steps of `Init` fill the slots in order. -/
theorem keptByInit_laid : KeptByInit Laid where
  answered _ _ h := h.congr rfl
  requestBuffers _ _ h := ⟨h.mem, h.inPlace, h.only, h.slot, nofun, h.index_lt, h.length⟩
  clearBuf _ _ hi h :=
    ⟨h.mem, h.inPlace, h.only, h.slot, h.held_lt, hi, fun hk => absurd hk (Nat.ne_of_lt hi)⟩
  queryBuffer _ _ length hi hindex h := h.queryBuffer hi hindex length
  mapFailed _ _ h := h.mapFailed
  mapBuffer _ _ _ hindex hlength h := h.mapBuffer hindex hlength
  queue _ _ hi h := h.queue hi
  countQueued _ _ h := h.congr rfl

/-- A frame that is passed brings its own length into `videoIn->buf`. -/
theorem keptByFrames_laid (k : Nat) : KeptByFrames (Laid k) where
  answered _ h := h.congr rfl
  dequeue _ _ ha h := ⟨h.mem, h.inPlace, h.only, h.slot,
    fun i hi => h.held_lt i (List.mem_of_mem_erase hi), h.held_lt _ ha, fun _ => rfl⟩
  queue _ _ h := h.queue h.index_lt
  dequeued _ h := h.congr rfl
  queued _ h := h.congr rfl

/-- `Open` maps nothing. -/
theorem laid_open (device : Nat) (width height : Int) (pixelformat : Nat) :
    Keeps (Laid 0) NoRelease (V4L2Camera.open device width height pixelformat) := by
  have hret (ok : Bool) (v : Int) :
      Keeps (Laid 0) NoRelease (do ret .open ok; pure v) :=
    Keeps.bind (keeps_act_id (fun _ _ he => he) rfl) fun _ => keeps_pure _
  have hopen : Keeps (Laid 0) NoRelease (sysOpen device) := by
    apply keeps_request
    intro t r ht _
    have hnil := ht.maps_eq_nil_iff.mpr rfl
    refine ⟨?_, rfl⟩
    cases r with
    | none => exact .of_nil hnil ht.slot ht.held_lt ht.index_lt
    | some a => exact .of_nil hnil ht.slot nofun ht.index_lt
  -- all the ways out of `Open`, in the order of the source
  refine Keeps.bind hopen fun fd => Keeps.ite (fun _ => hret false _) fun _ => ?_
  refine Keeps.bind (keeps_ioctl (fun _ _ => rfl) (fun _ h => h.congr rfl) fun _ _ h => h)
    fun cap => ?_
  refine Keeps.ite (fun _ => hret false _) fun _ => ?_
  refine Keeps.ite (fun _ => hret false _) fun _ => ?_
  refine Keeps.ite (fun _ => hret false _) fun _ => ?_
  refine Keeps.bind (keeps_act fun _ h => ⟨h.congr rfl, rfl⟩) fun _ => ?_
  refine Keeps.bind (keeps_ioctl (fun _ _ => rfl) (fun _ h => h.congr rfl) fun _ _ h => h.congr rfl)
    fun format => ?_
  exact Keeps.ite (fun _ => hret false _) fun _ => hret true _

theorem laid_openNode (width height : Int) :
    Keeps (Laid 0) NoRelease (CameraHardware.openNode width height) := by
  apply Keeps.bind (laid_open _ _ _ _)
  intro v
  exact Keeps.ite (fun _ => keeps_pure _) fun _ => laid_open _ _ _ _

theorem laid_startStreaming (k : Nat) : Keeps (Laid k) NoRelease startStreaming :=
  keeps_startStreaming (fun _ _ _ he => he) (fun _ h => h.congr rfl) (fun _ h => h.congr rfl)
    fun _ h => h.congr rfl

/-- `StopStreaming` takes the buffers from the driver. -/
theorem keeps_stopStreaming {I : CameraHardware → Prop} (hanswered : ∀ u, I u → I u.answered)
    (hoff : ∀ u, I u → I { u with kernel := u.kernel.streamStop })
    (hflag : ∀ u, I u → I { u with camera.videoIn.isStreaming := false }) :
    Keeps I NoRelease stopStreaming := by
  have hret (ok : Bool) (v : Int) : Keeps I NoRelease (do ret .stopStreaming ok; pure v) :=
    Keeps.bind (keeps_act_id (fun _ _ he => he) rfl) fun _ => keeps_pure _
  refine Keeps.read_bind fun s _ => Keeps.ite (fun _ => ?_) fun _ => hret true 0
  refine Keeps.bind (keeps_ioctl (fun _ _ => rfl) hanswered fun _ u => hoff u) fun off => ?_
  refine Keeps.ite (fun _ => hret false _) fun _ => ?_
  exact Keeps.bind (keeps_act fun u hu => ⟨hflag u hu, rfl⟩) fun _ => hret true 0

theorem laid_stopStreaming (k : Nat) : Keeps (Laid k) NoRelease stopStreaming :=
  keeps_stopStreaming (fun _ h => h.congr rfl)
    (fun _ h => ⟨h.mem, h.inPlace, h.only, h.slot, nofun, h.index_lt, h.length⟩)
    fun _ h => h.congr rfl

theorem maps_stopStreaming : Leaves (fun s => s.kernel.maps) NoRelease stopStreaming :=
  fun _ => keeps_stopStreaming (fun _ h => h) (fun _ h => h) fun _ h => h

end Laid

/-! ## §3 Unmapping -/

/-- Slot `i` holds a mapping in place of the current descriptor, as long as `videoIn->buf`
says. -/
def OwnSlot (t : CameraHardware) (i : Nat) : Prop :=
  ∃ m ∈ t.kernel.maps, t.camera.videoIn.mem i = .map m ∧ m.file = t.camera.fd ∧
    t.camera.videoIn.buf.length = m.length

section Unmapping

variable {t : CameraHardware}

theorem camera_unmapBuffer (i : Nat) : ((unmapBuffer i).exec t).camera = t.camera := by
  rw [unmapBuffer, exec_bind, val_read, exec_read, exec_request]
  cases t.outcome fun _ => true <;> rfl

theorem answerAt_unmapBuffer (i n : Nat) :
    ((unmapBuffer i).exec t).answerAt n = t.answerAt (n + 1) := by
  have hnext : t.answered.answerAt n = t.answerAt (n + 1) := t.kernel.answered_answerAt n
  rw [unmapBuffer, exec_bind, val_read, exec_read, exec_request]
  cases t.outcome fun _ => true with
  | none => exact hnext
  | some a =>
    rw [← hnext]
    -- one answer is used up, whatever the slot holds
    cases hframe : t.camera.videoIn.mem i with
    | null | failed => rfl
    | map m =>
      simp only [Kernel.munmap]
      split <;> rfl

/-- One `munmap` that succeeds takes away the mapping in its slot, if it is long enough. -/
theorem mem_maps_unmapBuffer (i : Nat) (m : Mapping) :
    m ∈ ((unmapBuffer i).exec t).kernel.maps ↔
      m ∈ t.kernel.maps ∧ ¬((t.answerAt 0).ok = true ∧ t.camera.videoIn.mem i = .map m ∧
        m.length ≤ t.camera.videoIn.buf.length) := by
  rw [unmapBuffer, exec_bind, val_read, exec_read, exec_request]
  cases hr : t.outcome fun _ => true with
  | none =>
    -- the answer refuses the `munmap`
    have hno : ¬(t.answerAt 0).ok = true := by
      rw [CameraHardware.outcome_eq_none] at hr
      exact fun hok => hr ⟨hok, rfl⟩
    exact ⟨fun hm => ⟨hm, fun h => hno h.1⟩, fun h => h.1⟩
  | some a =>
    have hok : (t.answerAt 0).ok = true := ((t.outcome_eq_some).mp hr).1
    cases hframe : t.camera.videoIn.mem i with
    -- the slot holds no mapping that could be taken away
    | null | failed => simp [Kernel.munmap, CameraHardware.answered]
    | map m' =>
      simp only [Kernel.munmap, CameraHardware.answered, Kernel.answered_maps, hok, true_and,
        Ptr.map.injEq]
      split
      · next hle =>
        rw [List.mem_filter, decide_eq_true_eq]
        constructor
        · exact fun h => ⟨h.1, fun h' => h.2 h'.1.symm⟩
        · exact fun h => ⟨h.1, fun heq => h.2 ⟨heq.symm, heq ▸ hle⟩⟩
      · -- a length that is too short leaves the mapping in place
        next hle =>
        exact ⟨fun hm => ⟨hm, fun h => hle (h.1 ▸ h.2)⟩, fun h => h.1⟩

variable (hslot : ∀ i m, t.camera.videoIn.mem i = .map m → m.index = i)
include hslot

/-- Unmapping slot `i` does not touch the mappings of the other slots. -/
theorem ownSlot_unmapBuffer {i j : Nat} (hij : i ≠ j) :
    OwnSlot ((unmapBuffer i).exec t) j ↔ OwnSlot t j := by
  -- what `munmap` removes is the mapping of slot `i`
  have hkeep (m : Mapping) (hmem : t.camera.videoIn.mem j = .map m) :
      m ∈ ((unmapBuffer i).exec t).kernel.maps ↔ m ∈ t.kernel.maps := by
    rw [mem_maps_unmapBuffer]
    refine and_iff_left fun h => hij ?_
    rw [← hslot i m h.2.1, hslot j m hmem]
  rw [OwnSlot, OwnSlot, camera_unmapBuffer]
  constructor
  · rintro ⟨m, hm, hmem, hrest⟩
    exact ⟨m, (hkeep m hmem).mp hm, hmem, hrest⟩
  · rintro ⟨m, hm, hmem, hrest⟩
    exact ⟨m, (hkeep m hmem).mpr hm, hmem, hrest⟩

/-- The last loop of `Uninit` is right exactly when all its slots are. -/
theorem takes_unmapFrom_iff (i n : Nat) :
    Takes UnmapsOwn (unmapFrom i n) t ↔ ∀ j, i ≤ j → j < i + n → OwnSlot t j := by
  induction n generalizing i t with
  | zero => exact iff_of_true trivial fun j hij hj => absurd hj (by omega)
  | succ n ih =>
    -- the one request of the round is checked in the state before it
    have hfirst : Takes UnmapsOwn (unmapBuffer i) t ↔ OwnSlot t i := by
      rw [unmapBuffer, takes_bind, takes_request]
      exact and_iff_right (takes_read t)
    -- `munmap` leaves the slots themselves as they are
    have hslot' : ∀ j m, ((unmapBuffer i).exec t).camera.videoIn.mem j = .map m → m.index = j := by
      rw [camera_unmapBuffer]
      exact hslot
    rw [unmapFrom, takes_bind, hfirst, ih hslot']
    constructor
    · rintro ⟨hown, hrest⟩ j hij hj
      rcases Nat.eq_or_lt_of_le hij with rfl | hlt
      · exact hown
      · exact (ownSlot_unmapBuffer hslot (Nat.ne_of_lt hlt)).mp (hrest j hlt (by omega))
    · intro hall
      refine ⟨hall i (Nat.le_refl i) (by omega), fun j hij hj => ?_⟩
      exact (ownSlot_unmapBuffer hslot (by omega)).mpr (hall j (by omega) (by omega))

/-- What is left after the loop: the mappings whose `munmap` failed, and those of no slot. -/
theorem mem_maps_unmapFrom (i n : Nat) (hown : ∀ j, i ≤ j → j < i + n → OwnSlot t j)
    (m : Mapping) :
    m ∈ ((unmapFrom i n).exec t).kernel.maps ↔
      m ∈ t.kernel.maps ∧ ∀ j, i ≤ j → j < i + n → t.camera.videoIn.mem j = .map m →
        (t.answerAt (j - i)).ok = false := by
  induction n generalizing i t with
  | zero => exact (and_iff_left fun j hij hj => absurd hj (by omega)).symm
  | succ n ih =>
    have hslot' : ∀ j m, ((unmapBuffer i).exec t).camera.videoIn.mem j = .map m → m.index = j := by
      rw [camera_unmapBuffer]
      exact hslot
    have hown' : ∀ j, i + 1 ≤ j → j < i + 1 + n → OwnSlot ((unmapBuffer i).exec t) j :=
      fun j hij hj => (ownSlot_unmapBuffer hslot (by omega)).mpr (hown j (by omega) (by omega))
    -- the `munmap` of slot `i` is as long as its mapping
    have hfits (hmem : t.camera.videoIn.mem i = .map m) :
        m.length ≤ t.camera.videoIn.buf.length := by
      obtain ⟨m', _, hmem', _, hlength⟩ := hown i (Nat.le_refl i) (by omega)
      have hsame : m = m' := Ptr.map.inj (hmem.symm.trans hmem')
      exact hsame ▸ Nat.le_of_eq hlength.symm
    rw [unmapFrom, exec_bind, ih hslot' (i + 1) hown', mem_maps_unmapBuffer, camera_unmapBuffer,
      and_assoc]
    refine and_congr_right fun _ => ?_
    constructor
    · rintro ⟨hfirst, hrest⟩ j hij hj hmem
      -- the answer for slot `j` is the one after those of the slots before it
      rcases Nat.eq_or_lt_of_le hij with rfl | hlt
      · rw [Nat.sub_self, ← Bool.not_eq_true]
        exact fun hok => hfirst ⟨hok, hmem, hfits hmem⟩
      · have hlater := hrest j hlt (by omega) hmem
        rw [answerAt_unmapBuffer] at hlater
        rw [← hlater]
        congr 2
        omega
    · intro hall
      refine ⟨fun h => ?_, fun j hij hj hmem => ?_⟩
      · -- the mapping has survived its own round: its `munmap` was refused
        have hfirst := hall i (Nat.le_refl i) (by omega) h.2.1
        rw [Nat.sub_self, h.1] at hfirst
        exact absurd hfirst (by decide)
      · rw [answerAt_unmapBuffer]
        rw [← hall j (by omega) (by omega) hmem]
        congr 2
        omega

end Unmapping

/-! ## §4 Ending a Session -/

/-- `Uninit` can unmap all four slots: the driver has given all buffers one length, and
every `munmap` succeeds. -/
structure CanUnmap (t : CameraHardware) : Prop where
  lengths : ∀ i < nbBuffer, t.kernel.lengths i = t.kernel.lengths 0
  munmap : ∀ i < nbBuffer, (t.answerAt ((int32 (dqCount t - 1)).toNat + i)).ok = true

section Ending

variable {k : Nat} {t : CameraHardware}

/-- All slots are right exactly when all are filled, with mappings of one length. -/
theorem ownSlots_iff (h : Laid k t) (hk : k ≤ nbBuffer) :
    (∀ i < nbBuffer, OwnSlot t i) ↔
      k = nbBuffer ∧ ∀ i < nbBuffer, t.kernel.lengths i = t.kernel.lengths 0 := by
  constructor
  · intro hown
    have hall : k = nbBuffer := by
      apply Nat.le_antisymm hk
      by_contra hlt
      -- what slot `k` holds is not in place: the mappings in place are of other buffers
      obtain ⟨m, hm, hmem, _⟩ := hown k (Nat.not_le.mp hlt)
      obtain ⟨i, hi, hmi⟩ := h.only m hm
      have hindex : m.index = i := congrArg Mapping.index hmi
      rw [h.slot k m hmem] at hindex
      omega
    have hlength : ∀ i < nbBuffer, t.kernel.lengths i = t.camera.videoIn.buf.length := by
      intro i hi
      -- one length serves all slots, that of `videoIn->buf`
      obtain ⟨m, _, hmem, _, hlength⟩ := hown i hi
      have hm := Ptr.map.inj ((h.mem i (hall ▸ hi)).symm.trans hmem)
      exact (congrArg Mapping.length hm).trans hlength.symm
    exact ⟨hall, fun i hi => (hlength i hi).trans (hlength 0 (by decide)).symm⟩
  · rintro ⟨rfl, hlengths⟩ i hi
    refine ⟨bufferMapping t i, h.inPlace i hi, h.mem i hi, rfl, ?_⟩
    exact (h.length rfl).trans ((hlengths _ h.index_lt).trans (hlengths i hi).symm)

/-- The dequeues of `Uninit` take one answer each. -/
theorem dequeueTimes_spec (n : Nat) :
    Emits NoRelease (dequeueTimes n) t ∧
      (Laid k t → Laid k ((dequeueTimes n).exec t)) ∧
      ((dequeueTimes n).exec t).kernel.lengths = t.kernel.lengths ∧
      ∀ m, ((dequeueTimes n).exec t).answerAt m = t.answerAt (n + m) := by
  -- each VIDIOC_DQBUF uses up one answer and touches no mapping
  induction n generalizing t with
  | zero => exact ⟨emits_pure _ _, fun h => h, rfl, fun m => by rw [Nat.zero_add]; rfl⟩
  | succ n ih =>
    have hdequeue : Keeps (Laid k) NoRelease (dequeueBuffer .uninit) :=
      (keptByFrames_laid k).dequeueBuffer (fun _ _ he => he) _
    have hlengths : ((dequeueBuffer .uninit).exec t).kernel.lengths = t.kernel.lengths := by
      rw [dequeueBuffer, exec_request]
      cases t.outcome (dequeues t) <;> rfl
    have hanswer (m : Nat) : ((dequeueBuffer .uninit).exec t).answerAt m = t.answerAt (m + 1) := by
      have hnext : t.answered.answerAt m = t.answerAt (m + 1) := t.kernel.answered_answerAt m
      rw [dequeueBuffer, exec_request, ← hnext]
      cases t.outcome (dequeues t) <;> rfl
    obtain ⟨hlog, hlaid, hlengths', hanswer'⟩ := ih (t := (dequeueBuffer .uninit).exec t)
    rw [dequeueTimes, emits_bind, exec_bind]
    refine ⟨⟨(emits_request _ _ _ _).mpr rfl, hlog⟩, fun h => hlaid (hdequeue t h).1,
      hlengths'.trans hlengths, fun m => ?_⟩
    rw [hanswer' m, hanswer]
    congr 1
    omega

/-- The state in which `Uninit` begins to unmap. -/
def drained (t : CameraHardware) : CameraHardware :=
  { (dequeueTimes (int32 (dqCount t - 1)).toNat).exec t with
    camera.nQueued := 0
    camera.nDequeued := 0 }

theorem exec_uninit (t : CameraHardware) :
    uninit.exec t = { (unmapFrom 0 nbBuffer).exec (drained t) with session := false } := by
  simp only [uninit, resetCounters, assign, exec_bind, exec_act, val_read, exec_read]
  rfl

theorem maps_uninit (t : CameraHardware) :
    (uninit.exec t).kernel.maps = ((unmapFrom 0 nbBuffer).exec (drained t)).kernel.maps := by
  rw [exec_uninit]

theorem takes_uninit_iff :
    Takes UnmapsOwn uninit t ↔ Takes UnmapsOwn (unmapFrom 0 nbBuffer) (drained t) := by
  have hdequeue := takes_of_noRelease (dequeueTimes_spec (k := 0) (t := t)
    (int32 (dqCount t - 1)).toNat).1
  have hreset (u v : CameraHardware) : UnmapsOwn u (.assign "nQueued, nDequeued") v := trivial
  have hret (u v : CameraHardware) : UnmapsOwn u (.ret .uninit true) v := trivial
  simp only [uninit, resetCounters, assign, takes_bind, takes_read, val_read, exec_read, takes_act,
    exec_act, hdequeue, hreset, hret, true_and, and_true]
  rfl

/-- All slots are as they were when `Uninit` begins to unmap; its dequeues have taken their
answers. -/
theorem laid_drained (h : Laid k t) :
    Laid k (drained t) ∧ (drained t).kernel.lengths = t.kernel.lengths ∧
      ∀ m, (drained t).answerAt m = t.answerAt ((int32 (dqCount t - 1)).toNat + m) := by
  obtain ⟨_, hkeep, hlengths, hanswer⟩ :=
    dequeueTimes_spec (k := k) (t := t) (int32 (dqCount t - 1)).toNat
  exact ⟨(hkeep h).congr rfl, hlengths, hanswer⟩

theorem takes_uninit_ownSlots (h : Laid k t) (hk : k ≤ nbBuffer) :
    Takes UnmapsOwn uninit t ↔
      k = nbBuffer ∧ ∀ i < nbBuffer, t.kernel.lengths i = t.kernel.lengths 0 := by
  obtain ⟨hlaid, hlengths, _⟩ := laid_drained h
  rw [takes_uninit_iff, takes_unmapFrom_iff hlaid.slot, ← hlengths, ← ownSlots_iff hlaid hk]
  simp only [Nat.zero_add, Nat.zero_le, forall_const]

/-- With all slots filled, nothing is left exactly when no `munmap` fails. -/
theorem maps_uninit_eq_nil_iff (h : Laid nbBuffer t)
    (hlengths : ∀ i < nbBuffer, t.kernel.lengths i = t.kernel.lengths 0) :
    (uninit.exec t).kernel.maps = [] ↔
      ∀ i < nbBuffer, (t.answerAt ((int32 (dqCount t - 1)).toNat + i)).ok = true := by
  obtain ⟨hlaid, hsame, hanswer⟩ := laid_drained h
  have hown := (ownSlots_iff hlaid (Nat.le_refl nbBuffer)).mpr ⟨rfl, hsame.symm ▸ hlengths⟩
  have hleft := mem_maps_unmapFrom hlaid.slot 0 nbBuffer fun j _ hj => hown j (by omega)
  rw [maps_uninit, List.eq_nil_iff_forall_not_mem]
  constructor
  · intro hnone i hi
    by_contra hno
    -- a mapping whose `munmap` fails stays
    refine hnone (bufferMapping (drained t) i) ((hleft _).mpr ⟨hlaid.inPlace i hi, ?_⟩)
    intro j _ _ hmem
    have hij : i = j := hlaid.slot j _ hmem
    rw [← hij, hanswer]
    exact Bool.not_eq_true _ ▸ hno
  · intro hok m hm
    -- what is left has lost its `munmap`, which has succeeded
    obtain ⟨hplace, hfailed⟩ := (hleft m).mp hm
    obtain ⟨i, hi, rfl⟩ := hlaid.only m hplace
    have hno := hfailed i (Nat.zero_le i) (by omega) (hlaid.mem i hi)
    rw [hanswer, Nat.sub_zero, hok i hi] at hno
    exact absurd hno (by decide)

/-- `Uninit` unmaps its own mappings, and all of them, exactly when all slots are filled and
it can unmap them. -/
theorem uninit_right_iff (h : Laid k t) (hk : k ≤ nbBuffer) :
    Takes UnmapsOwn uninit t ∧ (uninit.exec t).kernel.maps = [] ↔ k = nbBuffer ∧ CanUnmap t := by
  rw [takes_uninit_ownSlots h hk]
  constructor
  · rintro ⟨⟨rfl, hlengths⟩, hnil⟩
    exact ⟨rfl, hlengths, (maps_uninit_eq_nil_iff h hlengths).mp hnil⟩
  · rintro ⟨rfl, hcan⟩
    exact ⟨⟨rfl, hcan.lengths⟩, (maps_uninit_eq_nil_iff h hcan.lengths).mpr hcan.munmap⟩

theorem laid_uninit (h : Laid k t) (hnil : (uninit.exec t).kernel.maps = []) :
    Laid 0 (uninit.exec t) := by
  have hsame := (leaves_unmapFrom (P := fun _ _ => True) (fun _ _ _ _ => trivial) 0
    nbBuffer).exec_eq (drained t)
  simp only [Prod.mk.injEq] at hsame
  rw [maps_uninit] at hnil
  have hunmapped := (laid_drained h).1.unmapped hsame.1 hsame.2 hnil
  rw [exec_uninit]
  generalize (unmapFrom 0 nbBuffer).exec (drained t) = u at hunmapped ⊢
  exact hunmapped.congr rfl

theorem takes_close_iff : Takes UnmapsOwn close t ↔ t.kernel.maps = [] := by
  have hclosed (u v : CameraHardware) : UnmapsOwn u (.closeFd t.camera.fd) v := trivial
  have hmaps : (sysClose t).kernel.maps = t.kernel.maps := by
    simp only [sysClose, Kernel.closeFile]
    split <;> rfl
  have hret : UnmapsOwn (sysClose t) (.ret .close true) (sysClose t) ↔ t.kernel.maps = [] := by
    rw [← hmaps]
    rfl
  simp only [close, ret, takes_bind, takes_read, val_read, exec_read, takes_act, exec_act, hclosed,
    true_and, id, hret]

theorem laid_close (h : Laid 0 t) : Laid 0 (close.exec t) := by
  have hnil := h.maps_eq_nil_iff.mpr rfl
  simp only [close, ret, exec_bind, val_read, exec_read, exec_act, id, sysClose, Kernel.closeFile]
  split
  · exact .of_nil hnil h.slot (fun _ hi => absurd hi List.not_mem_nil) h.index_lt
  · exact .of_nil hnil h.slot h.held_lt h.index_lt

/-- The end of a session is right exactly when all slots are filled and `Uninit` can unmap
them. -/
theorem shutDown_right_iff (h : Laid k t) (hk : k ≤ nbBuffer) :
    (Takes UnmapsOwn CameraHardware.shutDown t ↔ k = nbBuffer ∧ CanUnmap t) ∧
      (k = nbBuffer → CanUnmap t → Laid 0 (CameraHardware.shutDown.exec t)) := by
  have hiff := uninit_right_iff h hk
  have hclose : Takes UnmapsOwn close (stopStreaming.exec (uninit.exec t)) ↔
      (uninit.exec t).kernel.maps = [] := by rw [takes_close_iff, maps_stopStreaming.exec_eq]
  simp only [CameraHardware.shutDown, takes_bind, exec_bind, hclose, true_and,
    takes_of_noRelease (maps_stopStreaming.emits _)]
  refine ⟨hiff, fun hall hcan => ?_⟩
  have hlaid' := laid_uninit h (hiff.mpr ⟨hall, hcan⟩).2
  exact laid_close (laid_stopStreaming 0 _ hlaid').1

end Ending

/-! ## §5 Starting and Stopping -/

/-- If a node can be opened, either `Init` maps no buffer, or it completes and the preview
starts, or it completes and `Uninit` can unmap what it has mapped. -/
def StartsClean (s : CameraHardware) : Prop :=
  0 ≤ (searchNode s).val s →
    if acceptedBuffers (beforeInit s) = nbBuffer then
      startStreaming.val (V4L2Camera.init.exec (beforeInit s)) ≠ 0 →
        CanUnmap (startStreaming.exec (V4L2Camera.init.exec (beforeInit s)))
    else mappedBuffers (beforeInit s) = 0

/-- The slots are filled while there is a preview, and no mapping is left otherwise. -/
def LaidOut (s : CameraHardware) : Prop := Laid (if s.mPreviewThread then nbBuffer else 0) s

section Start

variable {s : CameraHardware}

/-- The search for a node maps nothing. -/
theorem laid_searchNode (h : Laid 0 s) :
    Takes UnmapsOwn (searchNode s) s ∧ Laid 0 ((searchNode s).exec s) := by
  obtain ⟨hlaid, hlog⟩ := laid_openNode s.mParameters.previewWidth s.mParameters.previewHeight s h
  exact ⟨takes_of_noRelease hlog, hlaid⟩

/-- `Init` fills as many slots as it maps buffers. -/
theorem init_laid (h : Laid 0 s) (hfresh : Fresh s) :
    Emits NoRelease V4L2Camera.init s ∧ Laid (mappedBuffers s) (V4L2Camera.init.exec s) ∧
      (V4L2Camera.init.val s = 0 ↔ acceptedBuffers s = nbBuffer) := by
  obtain ⟨hlog, _, hlaid, hvalue, _⟩ := init_rounds (P := NoRelease) keptByInit_laid
    (fun _ _ _ he => he) (fun _ _ _ _ _ => rfl) hfresh h
  exact ⟨hlog, hlaid, hvalue⟩

theorem mappedBuffers_of_accepted (hall : acceptedBuffers s = nbBuffer) :
    mappedBuffers s = nbBuffer :=
  Nat.le_antisymm (mappedBuffers_le s) (hall ▸ acceptedBuffers_le_mappedBuffers s)

theorem takes_startPreview_iff (hthread : s.mPreviewThread = false) :
    Takes UnmapsOwn CameraHardware.startPreview s ↔ Takes UnmapsOwn (searchNode s) s ∧
      if (searchNode s).val s < 0 then True
      else Takes UnmapsOwn V4L2Camera.init (beforeInit s) ∧
        if V4L2Camera.init.val (beforeInit s) ≠ 0 then
          Takes UnmapsOwn close (V4L2Camera.init.exec (beforeInit s))
        else Takes UnmapsOwn startStreaming (V4L2Camera.init.exec (beforeInit s)) ∧
          if startStreaming.val (V4L2Camera.init.exec (beforeInit s)) ≠ 0 then
            Takes UnmapsOwn uninit
                (startStreaming.exec (V4L2Camera.init.exec (beforeInit s))) ∧
              Takes UnmapsOwn close (uninit.exec
                (startStreaming.exec (V4L2Camera.init.exec (beforeInit s))))
          else True := by
  have hassign (member : String) (u v : CameraHardware) :
      UnmapsOwn u (.assign member) v ↔ True := Iff.rfl
  simp only [CameraHardware.takes_startPreview hthread, hassign, true_and, and_self]

/-- `startPreview` is right exactly when it starts clean. -/
theorem startPreview_right_iff (h : Laid 0 s) (hidle : Idle s) :
    (Takes UnmapsOwn CameraHardware.startPreview s ↔ StartsClean s) ∧
      (StartsClean s → LaidOut (CameraHardware.startPreview.exec s)) := by
  have hA (e : Event) (t : CameraHardware) : e.isFramed = false → True := fun _ => trivial
  obtain ⟨hnode, hfresh⟩ := idle_searchNode hidle
  obtain ⟨htakes, hlaid⟩ := laid_searchNode h
  have hof (t : CameraHardware) (ht : Laid 0 t) (hno : Idle t) : LaidOut t := by
    rw [LaidOut, hno.thread]
    exact ht
  rw [takes_startPreview_iff hidle.thread, CameraHardware.exec_startPreview hidle.thread,
    StartsClean, and_iff_right htakes]
  by_cases hv : (searchNode s).val s < 0
  · -- no node can be opened
    rw [if_pos hv, if_pos hv]
    exact ⟨iff_of_true trivial fun hpos => absurd hpos (by omega), fun _ => hof _ hlaid hnode⟩
  have hpos : 0 ≤ (searchNode s).val s := by omega
  have hlaid' : Laid 0 (beforeInit s) := hlaid.congr rfl
  have hfresh' : Fresh (beforeInit s) := ⟨(hfresh hpos).fdOpen, (hfresh hpos).held⟩
  have hidle' : Idle (beforeInit s) := ⟨hnode.thread, hnode.iteration⟩
  rw [if_neg hv, if_neg hv]
  simp only [hpos, forall_const]
  generalize beforeInit s = t at *
  -- `Init` itself unmaps nothing; what follows depends on how far it gets
  obtain ⟨hlogI, hlaidI, hvalue⟩ := init_laid hlaid' hfresh'
  have hinit := ((quiet_init hA).idle t hidle').1
  rw [and_iff_right (takes_of_noRelease hlogI)]
  by_cases hi : V4L2Camera.init.val t ≠ 0
  · -- `Init` has failed, and its mappings stay
    have hsome : acceptedBuffers t ≠ nbBuffer := fun hall => hi (hvalue.mpr hall)
    rw [if_pos hi, if_pos hi, if_neg hsome, takes_close_iff, hlaidI.maps_eq_nil_iff]
    refine ⟨Iff.rfl, fun hnone => ?_⟩
    rw [hnone] at hlaidI
    exact hof _ (laid_close hlaidI) ((quiet_close hA).idle _ hinit).1
  rw [if_neg hi, if_neg hi]
  rw [not_not] at hi
  -- all buffers are queued, so all slots are mapped
  have hall := hvalue.mp hi
  rw [mappedBuffers_of_accepted hall] at hlaidI
  obtain ⟨hlaidS, hlogS⟩ := laid_startStreaming nbBuffer _ hlaidI
  rw [if_pos hall, and_iff_right (takes_of_noRelease hlogS)]
  by_cases hst : startStreaming.val (V4L2Camera.init.exec t) ≠ 0
  · -- the session is given up in order
    have hiff := uninit_right_iff hlaidS (Nat.le_refl nbBuffer)
    have hstream := ((quiet_startStreaming hA).idle _ hinit).1
    have huninit := ((quiet_uninit hA).idle _ hstream).1
    rw [if_pos hst, if_pos hst, takes_close_iff, hiff, eq_self, true_and]
    refine ⟨⟨fun hcan _ => hcan, fun hcan => hcan hst⟩, fun hcan => ?_⟩
    exact hof _ (laid_close (laid_uninit hlaidS (hiff.mpr ⟨rfl, hcan hst⟩).2))
      ((quiet_close hA).idle _ huninit).1
  · -- the preview is on
    rw [if_neg hst, if_neg hst]
    exact ⟨iff_of_true trivial fun hyes => absurd hyes hst, fun _ => hlaidS.congr rfl⟩

end Start

/-! ## §6 Stopping and a Picture -/

/-- If there is a preview, its `Uninit` can unmap the slots. -/
def StopsClean (s : CameraHardware) : Prop := s.mPreviewThread = true → CanUnmap s

/-- If a node can be opened, `Init` maps all buffers and `Uninit` can unmap them. -/
def PictureClean (s : CameraHardware) : Prop :=
  0 ≤ (searchNode s).val s →
    mappedBuffers ((searchNode s).exec s) = nbBuffer ∧
      CanUnmap (CameraHardware.compressedImage.exec
        (startStreaming.exec (V4L2Camera.init.exec ((searchNode s).exec s))))

section Stop

variable {s : CameraHardware}

theorem stopPreview_right_iff (h : LaidOut s) :
    (Takes UnmapsOwn CameraHardware.stopPreview s ↔ StopsClean s) ∧
      (StopsClean s → Laid 0 (CameraHardware.stopPreview.exec s)) := by
  have hassign (member : String) (u v : CameraHardware) :
      UnmapsOwn u (.assign member) v ↔ True := Iff.rfl
  have hlast (u : CameraHardware) (hu : Laid 0 u) : Laid 0 { u with mPreviewThread := false } :=
    hu.congr rfl
  simp only [CameraHardware.stopPreview, assign, takes_bind, exec_bind, takes_act, exec_act,
    takes_read, val_read, exec_read, takes_when, exec_when, hassign, true_and, and_true]
  rw [LaidOut] at h
  by_cases hthread : s.mPreviewThread = true
  · -- the preview is on: `Uninit` finds the four mappings of `Init`
    rw [if_pos hthread] at h
    have hlaid : Laid nbBuffer { s with previewStopped := true } := h.congr rfl
    obtain ⟨hiff, hend⟩ := shutDown_right_iff hlaid (Nat.le_refl nbBuffer)
    have hcan : CanUnmap { s with previewStopped := true } ↔ CanUnmap s :=
      ⟨fun hc => ⟨hc.lengths, hc.munmap⟩, fun hc => ⟨hc.lengths, hc.munmap⟩⟩
    rw [hiff, hcan, eq_self, true_and, if_pos hthread]
    exact ⟨Iff.rfl, fun hclean => hlast _ (hend rfl (hcan.mpr (hclean hthread)))⟩
  · -- without a preview nothing is shut down
    rw [if_neg hthread] at h
    rw [if_neg hthread]
    refine ⟨iff_of_true (fun ht => absurd ht hthread) fun ht => absurd ht hthread, fun _ => ?_⟩
    exact hlast _ (h.congr rfl)

theorem laid_compressedImage (k : Nat) :
    Keeps (Laid k) NoRelease CameraHardware.compressedImage := by
  refine Keeps.read_bind fun s _ => Keeps.when fun _ => ?_
  refine Keeps.bind ((keptByFrames_laid k).grabJpegFrame fun _ _ he => he) fun picture => ?_
  exact keeps_act_id (fun _ _ he => he) rfl

/-- `pictureThread` calls `Uninit` in any case, and is right exactly when that has four
mappings to take away. -/
theorem pictureThread_right_iff (h : Laid 0 s) (hidle : Idle s) :
    (Takes UnmapsOwn CameraHardware.pictureThread s ↔ PictureClean s) ∧
      (PictureClean s → Laid 0 (CameraHardware.pictureThread.exec s)) := by
  obtain ⟨_, hfresh⟩ := idle_searchNode hidle
  obtain ⟨htakes, hlaid⟩ := laid_searchNode h
  have hnotify : UnmapsOwn s (.notifyFn CameraHardware.msgShutter) s := trivial
  simp only [CameraHardware.pictureThread, takes_bind, takes_read, val_read, exec_bind, exec_read,
    takes_when, takes_act, exec_when, exec_act, id, ite_self, hnotify, implies_true, true_and,
    takes_ite, exec_ite, takes_pure, exec_pure, and_true, htakes, PictureClean]
  by_cases hv : (searchNode s).val s < 0
  · rw [if_pos hv, if_pos hv]
    exact ⟨iff_of_true trivial fun hpos => absurd hpos (by omega), fun _ => hlaid⟩
  have hpos : 0 ≤ (searchNode s).val s := by omega
  -- the value of `Init` is not looked at, so the slots are those it has mapped by its return
  obtain ⟨hlogI, hlaidI, _⟩ := init_laid hlaid (hfresh hpos)
  obtain ⟨hlaidS, hlogS⟩ := laid_startStreaming _ _ hlaidI
  obtain ⟨hlaidP, hlogP⟩ := laid_compressedImage _ _ hlaidS
  obtain ⟨hiff, hend⟩ := shutDown_right_iff hlaidP (mappedBuffers_le _)
  simp only [if_neg hv, takes_of_noRelease hlogI, takes_of_noRelease hlogS,
    takes_of_noRelease hlogP, true_and, hiff]
  exact ⟨⟨fun hclean _ => hclean, fun hclean => hclean hpos⟩,
    fun hclean => hend (hclean hpos).1 (hclean hpos).2⟩

end Stop

/-! ## §7 Every Run -/

/-- The invariant of the runs whose mappings come and go together. -/
structure MapsSoFar (s : CameraHardware) : Prop where
  consistent : Consistent s
  laid : LaidOut s

/-- A step maps and unmaps all four buffers or none: `startPreview` starts clean, the preview
that is stopped can be unmapped, and so can the buffers of a picture. -/
def StepUnmaps (s : CameraHardware) (a : Step) : Prop :=
  match a.call with
  | .startPreview =>
    Call.enabled s .startPreview = true → s.mPreviewThread = false → StartsClean (a.start s)
  | .stopPreview => Call.enabled s .stopPreview = true → StopsClean (a.start s)
  | .takePicture =>
    Call.enabled s .takePicture = true → StopsClean (a.start s) ∧
      PictureClean (CameraHardware.stopPreview.exec (a.start s))
  | _ => True

section Steps

variable {s : CameraHardware}

/-- The locked half of an iteration maps nothing. -/
theorem laid_previewThreadLocked (k : Nat) :
    Keeps (Laid k) NoRelease CameraHardware.previewThreadLocked := by
  apply Keeps.read_bind
  intro s _
  cases s.iteration with
  | none => exact keeps_pure ()
  | some size =>
    refine Keeps.bind (keeps_act fun _ h => ⟨h.congr rfl, rfl⟩) fun _ => Keeps.when fun _ => ?_
    -- the window hands out its own buffers, and those are not in the slots
    have hdequeue : Keeps (Laid k) NoRelease CameraHardware.dequeueWindow :=
      keeps_request _ _ _ fun _ _ h _ => ⟨h.congr rfl, rfl⟩
    apply Keeps.bind hdequeue
    intro r
    cases r with
    | none => exact keeps_act fun _ h => ⟨h.congr rfl, rfl⟩
    | some a => exact (keptByFrames_laid k).previewFrame (fun _ _ he => he) _ _ _

theorem laid_previewThread (k : Nat) : Keeps (Laid k) NoRelease CameraHardware.previewThread :=
  Keeps.read_bind fun _ _ => Keeps.when fun _ => keeps_act fun _ h => ⟨h.congr rfl, rfl⟩

theorem LaidOut.congr {t : CameraHardware} (h : LaidOut s) (hdevice : t.device = s.device) :
    LaidOut t := by
  simp only [CameraHardware.device, Prod.mk.injEq, Kernel.settled, Kernel.mk.injEq] at hdevice
  obtain ⟨hcamera, ⟨_, _, _, hmaps, _, hlengths, hheld, _⟩, hthread, _⟩ := hdevice
  rw [LaidOut, hthread]
  apply Laid.congr h
  rw [CameraHardware.buffers, hcamera, hmaps, hlengths, hheld, CameraHardware.buffers]

theorem LaidOut.zero (h : LaidOut s) (hthread : s.mPreviewThread = false) : Laid 0 s := by
  rw [LaidOut, hthread] at h
  exact h

/-- One step unmaps its own exactly when it maps and unmaps all or none. -/
theorem stepTakes_iff (h : MapsSoFar s) (a : Step) : StepTakes UnmapsOwn s a ↔ StepUnmaps s a := by
  obtain ⟨call, answers⟩ := a
  have hlaid : LaidOut (Step.start ⟨call, answers⟩ s) := h.laid.congr rfl
  have hconsistent : Consistent (Step.start ⟨call, answers⟩ s) := h.consistent.congr rfl
  -- the entry points drop the value of what they call
  have hdrop {α : Type} (p : CameraM α) (t : CameraHardware) :
      Takes UnmapsOwn (do let _ ← p) t ↔ Takes UnmapsOwn p t := by
    rw [takes_bind]
    exact and_iff_left (takes_pure _ _)
  rw [StepTakes, StepUnmaps]
  cases call with
  | setPreviewWindow | setParameters | enableMsgType | disableMsgType =>
    exact iff_of_true (fun _ => takes_of_noRelease ((apart_code (fun _ _ _ _ he => he) rfl).emits _))
      trivial
  | previewThread =>
    exact iff_of_true (fun _ => takes_of_noRelease (laid_previewThread _ _ hlaid).2) trivial
  | previewThreadLocked =>
    exact iff_of_true (fun _ => takes_of_noRelease (laid_previewThreadLocked _ _ hlaid).2) trivial
  | startPreview =>
    refine imp_congr_right fun _ => (hdrop _ _).trans ?_
    by_cases hthread : s.mPreviewThread = true
    · -- a second preview is refused
      have hrefused := CameraHardware.startPreview_refused (P := NoRelease)
        (s := Step.start ⟨.startPreview, answers⟩ s) hthread
      exact iff_of_true (takes_of_noRelease hrefused.1)
        fun hno => absurd (hno.symm.trans hthread) (by decide)
    · have hno : s.mPreviewThread = false := Bool.not_eq_true _ ▸ hthread
      rw [(startPreview_right_iff (hlaid.zero hno) (hconsistent.idle hno)).1]
      exact ⟨fun hclean _ => hclean, fun hclean => hclean hno⟩
  | stopPreview => exact imp_congr_right fun _ => (stopPreview_right_iff hlaid).1
  | takePicture =>
    refine imp_congr_right fun henabled => (hdrop _ _).trans ?_
    simp only [Call.enabled, Bool.and_eq_true, Option.isNone_iff_eq_none] at henabled
    -- the preview is stopped first, and the picture starts from what that leaves
    obtain ⟨hiff, hend⟩ := stopPreview_right_iff hlaid
    simp only [CameraHardware.takePicture, takes_bind, takes_pure, and_true, hiff]
    apply and_congr_right
    intro hclean
    exact (pictureThread_right_iff (hend hclean) (CameraHardware.idle_stopPreview henabled.2)).1

/-- Without a preview all mappings are gone. -/
theorem MapsSoFar.of_idle (hidle : Idle s) (hlaid : Laid 0 s) : MapsSoFar s := by
  refine ⟨hidle.consistent, ?_⟩
  rw [LaidOut, hidle.thread]
  exact hlaid

/-- Such a step leaves the slots and the mappings in order. -/
theorem mapsSoFar_step {t : CameraHardware} {a : Step} (h : MapsSoFar s) (hclean : StepUnmaps s a)
    (hstep : cameraMachine.step s a = some t) : MapsSoFar t := by
  have hconsistent := consistent_step h.consistent hstep
  obtain ⟨call, answers⟩ := a
  have hlaid : LaidOut (Step.start ⟨call, answers⟩ s) := h.laid.congr rfl
  have hstart : Consistent (Step.start ⟨call, answers⟩ s) := h.consistent.congr rfl
  rw [cameraMachine, Option.ite_none_right_eq_some] at hstep
  obtain ⟨henabled, hexec⟩ := hstep
  rw [Option.some.injEq] at hexec
  rw [StepUnmaps] at hclean
  cases call with
  | setPreviewWindow | setParameters | enableMsgType | disableMsgType =>
    subst hexec
    exact ⟨hconsistent, hlaid.congr ((apart_code (fun _ _ _ _ he => he) rfl).exec_eq _)⟩
  | previewThread =>
    subst hexec
    refine ⟨hconsistent, ?_⟩
    -- only the size of the iteration is new
    simp only [Call.code, CameraHardware.previewThread, assign, exec_bind, val_read, exec_read,
      exec_when, exec_act]
    split
    · exact Laid.congr hlaid rfl
    · exact hlaid
  | previewThreadLocked =>
    subst hexec
    simp only [Call.enabled, Bool.and_eq_true] at henabled
    obtain ⟨⟨width, height⟩, hsize⟩ := Option.isSome_iff_exists.mp henabled.1
    refine ⟨hconsistent, ?_⟩
    -- the thread runs on, so the slots stay filled
    rw [LaidOut, Call.code, mPreviewThread_previewThreadLocked
      (s := Step.start ⟨.previewThreadLocked, answers⟩ s) hsize]
    exact (laid_previewThreadLocked _ _ hlaid).1
  | startPreview =>
    subst hexec
    refine ⟨hconsistent, ?_⟩
    simp only [Call.code, exec_bind, exec_pure]
    by_cases hthread : s.mPreviewThread = true
    · -- a second preview is refused and changes nothing
      have hsame := (CameraHardware.startPreview_refused (P := fun _ _ => True)
        (s := Step.start ⟨.startPreview, answers⟩ s) hthread).2
      rw [hsame]
      exact hlaid
    · have hno : s.mPreviewThread = false := Bool.not_eq_true _ ▸ hthread
      exact (startPreview_right_iff (hlaid.zero hno) (hstart.idle hno)).2 (hclean henabled hno)
  | stopPreview =>
    subst hexec
    have hstop := (stopPreview_right_iff hlaid).2 (hclean henabled)
    simp only [Call.enabled, Bool.and_eq_true, Option.isNone_iff_eq_none] at henabled
    exact .of_idle (CameraHardware.idle_stopPreview henabled.2) hstop
  | takePicture =>
    subst hexec
    obtain ⟨hstops, hpicture⟩ := hclean henabled
    have hstop := (stopPreview_right_iff hlaid).2 hstops
    simp only [Call.enabled, Bool.and_eq_true, Option.isNone_iff_eq_none] at henabled
    have hA (e : Event) (t : CameraHardware) : e.isAccess = false → True := fun _ => trivial
    have hidle := CameraHardware.idle_stopPreview
      (t := Step.start ⟨.takePicture, answers⟩ s) henabled.2
    have hend := (pictureThread_right_iff hstop hidle).2 hpicture
    have hquiet := (CameraHardware.quiet_pictureThread hA fun _ _ _ => trivial).idle
    exact .of_idle (hquiet _ hidle).1 hend

theorem mapsSoFar_created (fd : Int) : MapsSoFar (created fd) :=
  ⟨consistent_created fd, .of_nil rfl nofun nofun (by decide : 0 < nbBuffer)⟩

end Steps

/-- **Mappings come and go together exactly when no call is left half done**: in a run from
the creation of `CameraHardware`, with any answers of the kernel and the window system, every
`munmap` takes a mapping that the latest `Init` made and that is still in place, with its own
length, and every `Close` finds none left, if and only if every `startPreview` starts clean
and `Uninit` can unmap what every preview and every picture has mapped. -/
theorem mappings_right_iff (fd : Int) (steps : List Step) :
    cameraMachine.AllSteps (StepTakes UnmapsOwn) (created fd) steps ↔
      cameraMachine.AllSteps StepUnmaps (created fd) steps :=
  cameraMachine.allSteps_iff (fun _ a hs => stepTakes_iff hs a)
    (fun _ _ _ hs hclean hstep => mapsSoFar_step hs hclean hstep) (mapsSoFar_created fd) steps

/-- A preview is given up when the driver refuses the first buffer, which is mapped by then. -/
def failedInit : List Step := [⟨.startPreview, (previewAnswers 153600).take 6⟩]

/-- `Close` leaves that mapping in place. -/
theorem failed_init_stays_mapped :
    (cameraMachine.run (created 0) failedInit).isSome = true ∧
      ¬cameraMachine.AllSteps (StepTakes UnmapsOwn) (created 0) failedInit := by
  constructor
  · rfl
  · decide

end OdroidU2.Camera
