import OdroidU2.Foundations.Armv7

/-!
# `yuyv422_to_yuv420sp`

The preview frames of the camera are YUYV: two pixels in four bytes.  `convert.S` turns a
frame into a picture with a plane of luma and, for every two rows, a row of chroma, V before
U.  The code takes two rows at a time, eight pixels of each in a pass.

- `At` — where the registers point after some passes, and what is converted by then
- `At.pass`, `At.row` — a pass of the inner and of the outer loop
- `yuyv422ToYuv420sp_converts` — the whole picture, and nothing else, is written
-/

namespace OdroidU2.Camera

open OdroidU2.Foundations.Armv7

/-! ## §1 The Code -/

/-- `yuyv422_to_yuv420sp`, with the indices of its labels. -/
def yuyv422ToYuv420sp : List Instr :=
  [.push [.r4, .r5, .lr],
    .mul .r12 .r2 .r3,
    -- in_1, out_1 and out_uv
    .add .r4 .r0 .r2 1,
    .add .r5 .r1 .r2 0,
    .add .lr .r1 .r12 0,
    -- `1:` is instruction 5
    .mov .r12 .r2,
    -- `2:` is instruction 6
    .vld1 .q0 .r0,
    .vld1 .q1 .r4,
    .vuzp .d0 .d1,
    .vuzp .d2 .d3,
    .vhadd .d1 .d1 .d3,
    .vrev16 .d1 .d1,
    .vst1 .d0 .r1,
    .vst1 .d2 .r5,
    .vst1 .d1 .lr,
    .subs .r12 .r12 8,
    .bgt 6,
    .add .r0 .r0 .r2 1,
    .add .r4 .r4 .r2 1,
    .add .r1 .r1 .r2 0,
    .add .r5 .r5 .r2 0,
    .subs .r3 .r3 2,
    .bgt 5,
    .popPc [.r4, .r5]]

/-- A call: a frame and a picture of the sizes that `previewThread` passes. -/
structure Yuv420spCall where
  width : Nat
  height : Nat
  frame : Region
  picture : Region
  width_pos : 0 < width
  width_dvd : 8 ∣ width
  height_pos : 0 < height
  height_dvd : 2 ∣ height
  frame_len : frame.len = 2 * (width * height)
  picture_len : picture.len = 3 * (width * height) / 2
  apart : frame.Apart picture

namespace Yuv420spCall

variable (c : Yuv420spCall)

/-- The machine at the first instruction, with the arguments in their registers. -/
def called (s : Cpu) : Cpu :=
  { s with
    reg := fun
      | .r0 => c.frame.base
      | .r1 => c.picture.base
      | .r2 => BitVec.ofNat 32 c.width
      | .r3 => BitVec.ofNat 32 c.height
      | r => s.reg r
    reads := []
    writes := []
    pc := 0
    returned := none }

/-- Rows of the frame fit below one another. -/
theorem rows_le {r : Nat} (hr : 2 * r < c.height) :
    2 * (c.width * r) + 2 * c.width ≤ c.width * c.height := by
  obtain ⟨p, hp⟩ := c.height_dvd
  have hle : c.width * (r + 1) ≤ c.width * p := Nat.mul_le_mul_left _ (by omega)
  have hheight : c.width * c.height = 2 * (c.width * p) := by
    rw [hp, Nat.mul_left_comm]
  rw [Nat.mul_succ] at hle
  omega

theorem area_even : 2 * (c.width * c.height / 2) = c.width * c.height := by
  obtain ⟨p, hp⟩ := c.height_dvd
  rw [hp, Nat.mul_left_comm]
  omega

/-- Sizes are below the range of a signed word. -/
theorem sizes_lt : c.width < 2 ^ 31 ∧ c.height < 2 ^ 31 := by
  have hfits := c.frame.fits
  have hlen := c.frame_len
  have hwidth : c.width * 2 ≤ c.width * c.height :=
    Nat.mul_le_mul_left _ (Nat.le_of_dvd c.height_pos c.height_dvd)
  have hheight : 8 * c.height ≤ c.width * c.height :=
    Nat.mul_le_mul_right _ (Nat.le_of_dvd c.width_pos c.width_dvd)
  have := c.height_pos
  omega

/-! ## §2 What a Pass Converts -/

/-- The chroma at a place of a row of chroma: V at even places, U at odd ones. -/
def chromaAt (x : Nat) : Nat := 4 * (x / 2) + if x % 2 = 0 then 3 else 1

theorem chromaAt_lt {x : Nat} (hx : x < 8) : chromaAt x < 16 := by
  unfold chromaAt
  split <;> omega

theorem chromaAt_add (i k : Nat) : chromaAt (8 * i + k) = 16 * i + chromaAt k := by
  have hdiv : (8 * i + k) / 2 = 4 * i + k / 2 := by omega
  have hmod : (8 * i + k) % 2 = k % 2 := by omega
  unfold chromaAt
  rw [hdiv, hmod]
  omega

/-- What the picture is to hold. -/
def converted (b : Nat → UInt8) (j : Nat) : UInt8 :=
  if j < c.width * c.height then b (2 * j)
  else
    let r := (j - c.width * c.height) / c.width
    let x := (j - c.width * c.height) % c.width
    halve (b (4 * (c.width * r) + chromaAt x))
      (b (4 * (c.width * r) + 2 * c.width + chromaAt x))

/-- The bytes of the picture that are there after `r` pairs of rows and `i` passes. -/
def Done (r i j : Nat) : Prop :=
  j < 2 * (c.width * r) + 8 * i ∨
    (2 * (c.width * r) + c.width ≤ j ∧ j < 2 * (c.width * r) + c.width + 8 * i) ∨
    (c.width * c.height ≤ j ∧ j < c.width * c.height + c.width * r + 8 * i)

/-- The registers and the memory after `r` pairs of rows and `i` passes. -/
structure At (s₀ : Cpu) (r i : Nat) (s : Cpu) : Prop where
  r0 : s.reg .r0 = c.frame.addr (4 * (c.width * r) + 16 * i)
  r4 : s.reg .r4 = c.frame.addr (4 * (c.width * r) + 2 * c.width + 16 * i)
  r1 : s.reg .r1 = c.picture.addr (2 * (c.width * r) + 8 * i)
  r5 : s.reg .r5 = c.picture.addr (2 * (c.width * r) + c.width + 8 * i)
  lr : s.reg .lr = c.picture.addr (c.width * c.height + c.width * r + 8 * i)
  r2 : s.reg .r2 = BitVec.ofNat 32 c.width
  r3 : s.reg .r3 = BitVec.ofNat 32 (c.height - 2 * r)
  stack : s.stack = s₀.reg .r4 :: s₀.reg .r5 :: s₀.reg .lr :: s₀.stack
  returned : s.returned = none
  reads : ∀ a ∈ s.reads, ∃ k < c.frame.len, a = c.frame.addr k
  writes : ∀ a, a ∈ s.writes ↔ ∃ j, c.Done r i j ∧ a = c.picture.addr j
  other : ∀ a, (∀ j < c.picture.len, a ≠ c.picture.addr j) → s.mem a = s₀.mem a
  done : ∀ j, c.Done r i j →
    s.mem (c.picture.addr j) = c.converted (fun k => s₀.mem (c.frame.addr k)) j

variable {c}

/-- Everything done lies in the picture. -/
theorem Done.lt {r i j : Nat} (h : c.Done r i j) (hr : 2 * r < c.height) (hi : 8 * i ≤ c.width) :
    j < c.picture.len := by
  have hrows := c.rows_le hr
  have heven := c.area_even
  rw [c.picture_len]
  unfold Done at h
  omega

theorem converted_luma (b : Nat → UInt8) {j : Nat} (hj : j < c.width * c.height) :
    c.converted b j = b (2 * j) := if_pos hj

theorem converted_chroma (b : Nat → UInt8) (r : Nat) {x : Nat} (hx : x < c.width) :
    c.converted b (c.width * c.height + c.width * r + x) =
      halve (b (4 * (c.width * r) + chromaAt x))
        (b (4 * (c.width * r) + 2 * c.width + chromaAt x)) := by
  have hsub : c.width * c.height + c.width * r + x - c.width * c.height = c.width * r + x := by
    omega
  -- row and column of the byte behind the luma
  have hdiv : (c.width * r + x) / c.width = r := by
    rw [Nat.mul_add_div c.width_pos, Nat.div_eq_of_lt hx, Nat.add_zero]
  have hmod : (c.width * r + x) % c.width = x := by
    rw [Nat.mul_add_mod, Nat.mod_eq_of_lt hx]
  rw [converted, if_neg (by omega)]
  simp only [hsub, hdiv, hmod]

/-- The sixteen bytes of two rows give eight bytes of chroma. -/
theorem swapped_odds (R : Region) (mem : Word → UInt8) (a b : Nat) (k : Fin 8) :
    swapped (fun i => halve (odds (loadLanes mem (R.addr a)) (loadLanes mem (R.addr a + 8)) i)
        (odds (loadLanes mem (R.addr b)) (loadLanes mem (R.addr b + 8)) i)) k =
      halve (mem (R.addr (a + chromaAt k))) (mem (R.addr (b + chromaAt k))) := by
  have hk := k.isLt
  simp only [swapped, odds, Region.joined_loadLanes]
  unfold chromaAt
  split
  · congr 3 <;> omega
  · congr 3 <;> omega

/-- The memory after a pass, with the registers as they are before it. -/
def passMem (mem : Word → UInt8) (r0 r4 r1 r5 lr : Word) : Word → UInt8 :=
  storeLanes (storeLanes (storeLanes mem r1 (evens (loadLanes mem r0) (loadLanes mem (r0 + 8))))
      r5 (evens (loadLanes mem r4) (loadLanes mem (r4 + 8))))
    lr (swapped fun i => halve (odds (loadLanes mem r0) (loadLanes mem (r0 + 8)) i)
      (odds (loadLanes mem r4) (loadLanes mem (r4 + 8)) i))

/-- The instructions of a pass up to the branch. -/
theorem pass_run (s : Cpu) (hpc : s.pc = 6) (hret : s.returned = none) :
    ∃ t, run yuyv422ToYuv420sp 10 s = some t ∧ t.pc = 16 ∧ t.returned = none ∧
      t.stack = s.stack ∧ t.gt = gtAfter (s.reg .r12) 8 ∧
      t.reg .r0 = s.reg .r0 + 16 ∧ t.reg .r4 = s.reg .r4 + 16 ∧ t.reg .r1 = s.reg .r1 + 8 ∧
      t.reg .r5 = s.reg .r5 + 8 ∧ t.reg .lr = s.reg .lr + 8 ∧ t.reg .r2 = s.reg .r2 ∧
      t.reg .r3 = s.reg .r3 ∧ t.reg .r12 = s.reg .r12 - 8 ∧
      t.reads = span (s.reg .r4) 16 ++ (span (s.reg .r0) 16 ++ s.reads) ∧
      t.writes = span (s.reg .lr) 8 ++ (span (s.reg .r5) 8 ++ (span (s.reg .r1) 8 ++ s.writes)) ∧
      t.mem = passMem s.mem (s.reg .r0) (s.reg .r4) (s.reg .r1) (s.reg .r5) (s.reg .lr) := by
  obtain ⟨reg, vec, n, z, v, mem, stack, reads, writes, pc, returned⟩ := s
  -- ten instructions, run by the definition of the machine
  cases hpc
  cases hret
  exact ⟨_, rfl, rfl, rfl, rfl, rfl, rfl, rfl, rfl, rfl, rfl, rfl, rfl, rfl, rfl, rfl, rfl⟩

/-- A pass adds eight bytes at each of three places. -/
theorem done_succ_iff {r i j : Nat} :
    c.Done r (i + 1) j ↔
      (c.width * c.height + c.width * r + 8 * i ≤ j ∧
        j < c.width * c.height + c.width * r + 8 * i + 8) ∨
      (2 * (c.width * r) + c.width + 8 * i ≤ j ∧
        j < 2 * (c.width * r) + c.width + 8 * i + 8) ∨
      (2 * (c.width * r) + 8 * i ≤ j ∧ j < 2 * (c.width * r) + 8 * i + 8) ∨ c.Done r i j := by
  unfold Done
  omega

section

variable {s₀ s : Cpu} {r i : Nat}

/-- A byte of the frame is read as it was in the beginning. -/
theorem At.frame (h : c.At s₀ r i s) {k : Nat} (hk : k < c.frame.len) :
    s.mem (c.frame.addr k) = s₀.mem (c.frame.addr k) :=
  h.other _ fun _ hj => c.apart.addr_ne hk hj

/-- What is stored in a pass is right, and what was there before stays. -/
theorem At.passMem_done (h : c.At s₀ r i s) (hr : 2 * r < c.height) (hi : 8 * i < c.width)
    {j : Nat} (hj : c.Done r (i + 1) j) :
    passMem s.mem (c.frame.addr (4 * (c.width * r) + 16 * i))
        (c.frame.addr (4 * (c.width * r) + 2 * c.width + 16 * i))
        (c.picture.addr (2 * (c.width * r) + 8 * i))
        (c.picture.addr (2 * (c.width * r) + c.width + 8 * i))
        (c.picture.addr (c.width * c.height + c.width * r + 8 * i)) (c.picture.addr j) =
      c.converted (fun k => s₀.mem (c.frame.addr k)) j := by
  have hrows := c.rows_le hr
  have heven := c.area_even
  have hframe := c.frame_len
  have hpicture := c.picture_len
  obtain ⟨m, hm⟩ := c.width_dvd
  -- a byte of the picture outside a block of eight
  have hout {j b : Nat} (hj : j < c.picture.len) (hb : b + 8 ≤ c.picture.len)
      (hjb : j < b ∨ b + 8 ≤ j) (k : Fin 8) : c.picture.addr j ≠ c.picture.addr (b + k) := by
    intro heq
    have := Region.addr_inj hj (by omega) heq
    omega
  unfold passMem
  rcases done_succ_iff.mp hj with hj | hj | hj | hj
  · -- the row of chroma
    obtain ⟨k, rfl⟩ := Nat.exists_eq_add_of_le hj.1
    have hk : k < 8 := by omega
    have hchroma := chromaAt_lt hk
    have hvalue := converted_chroma (c := c) (fun l => s₀.mem (c.frame.addr l)) r
      (x := 8 * i + k) (by omega)
    rw [chromaAt_add, ← Nat.add_assoc, ← Nat.add_assoc, ← Nat.add_assoc] at hvalue
    rw [Region.storeLanes_hit _ _ (by omega) ⟨k, hk⟩, swapped_odds, hvalue]
    rw [h.frame (by show _ + chromaAt k < _; omega), h.frame (by show _ + chromaAt k < _; omega)]
  · -- the second row
    obtain ⟨k, rfl⟩ := Nat.exists_eq_add_of_le hj.1
    have hk : k < 8 := by omega
    rw [Region.storeLanes_miss _ _ (hout (by omega) (by omega) (by omega)),
      Region.storeLanes_hit _ _ (by omega) ⟨k, hk⟩, converted_luma _ (by omega)]
    rw [evens, Region.joined_loadLanes, h.frame (by show _ + 2 * k < _; omega)]
    congr 2
    show _ + 2 * k = _
    omega
  · -- the first row
    obtain ⟨k, rfl⟩ := Nat.exists_eq_add_of_le hj.1
    have hk : k < 8 := by omega
    rw [Region.storeLanes_miss _ _ (hout (by omega) (by omega) (by omega)),
      Region.storeLanes_miss _ _ (hout (by omega) (by omega) (by omega)),
      Region.storeLanes_hit _ _ (by omega) ⟨k, hk⟩, converted_luma _ (by omega)]
    rw [evens, Region.joined_loadLanes, h.frame (by show _ + 2 * k < _; omega)]
    congr 2
    show _ + 2 * k = _
    omega
  · -- an earlier pass
    have hlt := hj.lt hr (Nat.le_of_lt hi)
    have hold := hj
    unfold Done at hold
    rw [Region.storeLanes_miss _ _ (hout hlt (by omega) (by omega)),
      Region.storeLanes_miss _ _ (hout hlt (by omega) (by omega)),
      Region.storeLanes_miss _ _ (hout hlt (by omega) (by omega))]
    exact h.done j hj

/-- One pass: eight pixels of two rows. -/
theorem At.pass (h : c.At s₀ r i s) (hr : 2 * r < c.height) (hi : 8 * i < c.width)
    (hpc : s.pc = 6) (hcount : s.reg .r12 = BitVec.ofNat 32 (c.width - 8 * i)) :
    ∃ t, Reaches yuyv422ToYuv420sp s t ∧ c.At s₀ r (i + 1) t ∧
      t.reg .r12 = BitVec.ofNat 32 (c.width - 8 * (i + 1)) ∧
      t.pc = if 8 * (i + 1) < c.width then 6 else 17 := by
  obtain ⟨t, hrun, htpc, hret, hstack, hgt, hr0, hr4, hr1, hr5, hlr, hr2, hr3, hr12, hreads,
    hwrites, hmem⟩ := pass_run s hpc h.returned
  have hrows := c.rows_le hr
  have heven := c.area_even
  have hframe := c.frame_len
  have hpicture := c.picture_len
  have hwidth := c.sizes_lt.1
  obtain ⟨m, hm⟩ := c.width_dvd
  -- the counter in `r12` has not wrapped, so `bgt` compares as numbers do
  have hgt' : t.gt = decide (8 * (i + 1) < c.width) := by
    rw [hgt, hcount]
    exact (gtAfter_ofNat (k := 8) (by omega) (by omega)).trans
      (decide_eq_decide.mpr (by omega))
  rw [h.r0, h.r1, h.r4, h.r5, h.lr] at hmem
  refine ⟨_, Reaches.trans ⟨10, hrun⟩ (Reaches.bgt (k := 6) (by rw [htpc]; rfl) hret),
    ?_, ?_, ?_⟩
  · exact {
      r0 := by rw [hr0, h.r0]; exact c.frame.addr_add _ 16
      r4 := by rw [hr4, h.r4]; exact c.frame.addr_add _ 16
      r1 := by rw [hr1, h.r1]; exact c.picture.addr_add _ 8
      r5 := by rw [hr5, h.r5]; exact c.picture.addr_add _ 8
      lr := by rw [hlr, h.lr]; exact c.picture.addr_add _ 8
      r2 := hr2.trans h.r2
      r3 := hr3.trans h.r3
      stack := hstack.trans h.stack
      returned := hret
      reads := by
        intro a ha
        -- both loads of sixteen bytes are inside their rows of the frame
        rw [hreads, h.r0, h.r4, List.mem_append, List.mem_append] at ha
        rcases ha with ha | ha | ha
        · obtain ⟨k, -, hk, rfl⟩ := Region.mem_span.mp ha
          exact ⟨k, by omega, rfl⟩
        · obtain ⟨k, -, hk, rfl⟩ := Region.mem_span.mp ha
          exact ⟨k, by omega, rfl⟩
        · exact h.reads a ha
      writes := by
        intro a
        rw [hwrites, h.r1, h.r5, h.lr]
        simp only [List.mem_append, Region.mem_span, h.writes, done_succ_iff, or_and_right,
          exists_or, and_assoc]
      other := by
        intro a ha
        -- a byte outside the picture is missed by all three stores
        rw [hmem, passMem, Region.storeLanes_miss _ _ fun k => ha _ (by omega),
          Region.storeLanes_miss _ _ fun k => ha _ (by omega),
          Region.storeLanes_miss _ _ fun k => ha _ (by omega)]
        exact h.other a ha
      done := by
        intro j hj
        rw [hmem]
        exact h.passMem_done hr hi hj }
  · rw [hr12, hcount]
    exact (ofNat_sub (k := 8) (by omega) (by omega)).trans (congrArg _ (by omega))
  · show (if t.gt then 6 else t.pc + 1) = _
    rw [hgt', htpc]
    simp

/-! ## §3 The Loops -/

theorem enter_run (s : Cpu) (hpc : s.pc = 0) (hret : s.returned = none) :
    ∃ t, run yuyv422ToYuv420sp 5 s = some t ∧ t.pc = 5 ∧ t.returned = none ∧
      t.stack = s.reg .r4 :: s.reg .r5 :: s.reg .lr :: s.stack ∧
      t.reg .r0 = s.reg .r0 ∧ t.reg .r4 = s.reg .r0 + s.reg .r2 <<< 1 ∧
      t.reg .r1 = s.reg .r1 ∧ t.reg .r5 = s.reg .r1 + s.reg .r2 <<< 0 ∧
      t.reg .lr = s.reg .r1 + (s.reg .r2 * s.reg .r3) <<< 0 ∧ t.reg .r2 = s.reg .r2 ∧
      t.reg .r3 = s.reg .r3 ∧ t.reads = s.reads ∧ t.writes = s.writes ∧ t.mem = s.mem := by
  obtain ⟨reg, vec, n, z, v, mem, stack, reads, writes, pc, returned⟩ := s
  cases hpc
  cases hret
  exact ⟨_, rfl, rfl, rfl, rfl, rfl, rfl, rfl, rfl, rfl, rfl, rfl, rfl, rfl, rfl⟩

/-- Before the loops. -/
theorem at_zero (c : Yuv420spCall) (s : Cpu) :
    ∃ t, Reaches yuyv422ToYuv420sp (c.called s) t ∧ c.At s 0 0 t ∧ t.pc = 5 := by
  obtain ⟨t, hrun, hpc, hret, hstack, hr0, hr4, hr1, hr5, hlr, hr2, hr3, hreads, hwrites,
    hmem⟩ := enter_run (c.called s) rfl rfl
  -- nothing is done yet
  have hnone (j : Nat) : ¬c.Done 0 0 j := by
    unfold Done
    rw [Nat.mul_zero]
    omega
  refine ⟨t, ⟨5, hrun⟩, ?_, hpc⟩
  exact {
    r0 := by rw [hr0, Nat.mul_zero]; exact c.frame.addr_zero.symm
    r4 := by
      rw [hr4, Nat.mul_zero, Nat.mul_zero, Nat.zero_add]
      exact congrArg _ (ofNat_shiftLeft_one _)
    r1 := by rw [hr1, Nat.mul_zero]; exact c.picture.addr_zero.symm
    r5 := by
      rw [hr5, Nat.mul_zero, Nat.mul_zero, Nat.zero_add, BitVec.shiftLeft_zero]
      rfl
    lr := by
      rw [hlr, Nat.mul_zero, BitVec.shiftLeft_zero]
      exact congrArg _ (BitVec.ofNat_mul ..).symm
    r2 := hr2
    r3 := hr3
    stack := hstack
    returned := hret
    reads := by
      rw [hreads]
      exact fun a ha => nomatch ha
    writes := by
      rw [hwrites]
      exact fun a => iff_of_false List.not_mem_nil fun ⟨j, hj, _⟩ => hnone j hj
    other := fun a _ => congrFun hmem a
    done := fun j hj => absurd hj (hnone j) }

/-- After the last pass of a row, what is done is what is done before the next row. -/
theorem done_row_iff {j : Nat} (hi : 8 * i = c.width) : c.Done r i j ↔ c.Done (r + 1) 0 j := by
  unfold Done
  rw [Nat.mul_succ]
  omega

theorem row_run (s : Cpu) (hpc : s.pc = 17) (hret : s.returned = none) :
    ∃ t, run yuyv422ToYuv420sp 5 s = some t ∧ t.pc = 22 ∧ t.returned = none ∧
      t.stack = s.stack ∧ t.gt = gtAfter (s.reg .r3) 2 ∧
      t.reg .r0 = s.reg .r0 + s.reg .r2 <<< 1 ∧ t.reg .r4 = s.reg .r4 + s.reg .r2 <<< 1 ∧
      t.reg .r1 = s.reg .r1 + s.reg .r2 <<< 0 ∧ t.reg .r5 = s.reg .r5 + s.reg .r2 <<< 0 ∧
      t.reg .lr = s.reg .lr ∧ t.reg .r2 = s.reg .r2 ∧ t.reg .r3 = s.reg .r3 - 2 ∧
      t.reads = s.reads ∧ t.writes = s.writes ∧ t.mem = s.mem := by
  obtain ⟨reg, vec, n, z, v, mem, stack, reads, writes, pc, returned⟩ := s
  cases hpc
  cases hret
  exact ⟨_, rfl, rfl, rfl, rfl, rfl, rfl, rfl, rfl, rfl, rfl, rfl, rfl, rfl, rfl, rfl⟩

/-- The end of a row: all pointers step over the row that is done with. -/
theorem At.row_end (h : c.At s₀ r i s) (hr : 2 * r < c.height) (hi : 8 * i = c.width)
    (hpc : s.pc = 17) :
    ∃ t, Reaches yuyv422ToYuv420sp s t ∧ c.At s₀ (r + 1) 0 t ∧
      t.pc = if 2 * (r + 1) < c.height then 5 else 23 := by
  obtain ⟨t, hrun, htpc, hret, hstack, hgt, hr0, hr4, hr1, hr5, hlr, hr2, hr3, hreads, hwrites,
    hmem⟩ := row_run s hpc h.returned
  have hheight := c.sizes_lt.2
  obtain ⟨p, hp⟩ := c.height_dvd
  -- `r3` counts the rows that are left, two at a time
  have hgt' : t.gt = decide (2 * (r + 1) < c.height) := by
    rw [hgt, h.r3]
    exact (gtAfter_ofNat (k := 2) (by omega) (by omega)).trans
      (decide_eq_decide.mpr (by omega))
  refine ⟨_, Reaches.trans ⟨5, hrun⟩ (Reaches.bgt (k := 5) (by rw [htpc]; rfl) hret), ?_, ?_⟩
  · exact {
      -- the frame pointers skip a row of `2 * width` bytes
      r0 := by
        rw [hr0, h.r0, h.r2, ofNat_shiftLeft_one, Region.addr_add, Nat.mul_succ]
        exact congrArg _ (by omega)
      r4 := by
        rw [hr4, h.r4, h.r2, ofNat_shiftLeft_one, Region.addr_add, Nat.mul_succ]
        exact congrArg _ (by omega)
      r1 := by
        rw [hr1, h.r1, h.r2, BitVec.shiftLeft_zero, Region.addr_add, Nat.mul_succ]
        exact congrArg _ (by omega)
      r5 := by
        rw [hr5, h.r5, h.r2, BitVec.shiftLeft_zero, Region.addr_add, Nat.mul_succ]
        exact congrArg _ (by omega)
      lr := by
        rw [hlr, h.lr, Nat.mul_succ]
        exact congrArg _ (by omega)
      r2 := hr2.trans h.r2
      r3 := by
        rw [hr3, h.r3]
        exact (ofNat_sub (k := 2) (by omega) (by omega)).trans (congrArg _ (by omega))
      stack := hstack.trans h.stack
      returned := hret
      reads := by
        rw [hreads]
        exact h.reads
      writes := by
        rw [hwrites]
        simp only [← done_row_iff hi]
        exact h.writes
      other := fun a ha => (congrFun hmem a).trans (h.other a ha)
      done := fun j hj => (congrFun hmem _).trans (h.done j ((done_row_iff hi).mpr hj)) }
  · show (if t.gt then 5 else t.pc + 1) = _
    rw [hgt', htpc]
    simp

/-- Two rows. -/
theorem At.row (h : c.At s₀ r 0 s) (hr : 2 * r < c.height) (hpc : s.pc = 5) :
    ∃ t, Reaches yuyv422ToYuv420sp s t ∧ c.At s₀ (r + 1) 0 t ∧
      t.pc = if 2 * (r + 1) < c.height then 5 else 23 := by
  obtain ⟨m, hm⟩ := c.width_dvd
  have hwidth := c.width_pos
  -- `mov r12, r2`
  have hmov : run yuyv422ToYuv420sp 1 s =
      some { s.setReg .r12 (s.reg .r2) with pc := 6 } := by
    obtain ⟨reg, vec, n, z, v, mem, stack, reads, writes, pc, returned⟩ := s
    cases hpc
    cases h.returned
    rfl
  have hstart : c.At s₀ r 0 { s.setReg .r12 (s.reg .r2) with pc := 6 } :=
    ⟨h.r0, h.r4, h.r1, h.r5, h.lr, h.r2, h.r3, h.stack, h.returned, h.reads, h.writes, h.other,
      h.done⟩
  obtain ⟨t, hpasses, ht, -, htpc⟩ := Reaches.iterate yuyv422ToYuv420sp (N := m)
    (I := fun i t => c.At s₀ r i t ∧ t.reg .r12 = BitVec.ofNat 32 (c.width - 8 * i) ∧
      t.pc = if 8 * i < c.width then 6 else 17)
    (fun i hi t ⟨ht, hcount, htpc⟩ => by
      rw [if_pos (by omega)] at htpc
      exact ht.pass hr (by omega) htpc hcount)
    ⟨hstart, h.r2, (if_pos (by omega)).symm⟩
  rw [if_neg (by omega)] at htpc
  obtain ⟨u, hend, hu⟩ := ht.row_end hr hm.symm htpc
  exact ⟨u, (Reaches.trans ⟨1, hmov⟩ hpasses).trans hend, hu⟩

/-- All rows. -/
theorem at_last (c : Yuv420spCall) (s : Cpu) :
    ∃ t, Reaches yuyv422ToYuv420sp (c.called s) t ∧ c.At s (c.height / 2) 0 t ∧ t.pc = 23 := by
  obtain ⟨p, hp⟩ := c.height_dvd
  have hheight := c.height_pos
  obtain ⟨t, henter, ht, htpc⟩ := at_zero c s
  -- two rows of the picture each time round
  obtain ⟨u, hrows, hu, hupc⟩ := Reaches.iterate yuyv422ToYuv420sp (N := c.height / 2)
    (I := fun r u => c.At s r 0 u ∧ u.pc = if 2 * r < c.height then 5 else 23)
    (fun r hr u ⟨hu, hupc⟩ => by
      rw [if_pos (by omega)] at hupc
      exact hu.row (by omega) hupc)
    ⟨ht, htpc.trans (if_pos (by omega)).symm⟩
  rw [if_neg (by omega)] at hupc
  exact ⟨u, henter.trans hrows, hu, hupc⟩

end

/-- When all rows are done, so is the picture. -/
theorem done_all_iff {j : Nat} : c.Done (c.height / 2) 0 j ↔ j < c.picture.len := by
  obtain ⟨p, hp⟩ := c.height_dvd
  have harea : c.width * c.height = 2 * (c.width * (c.height / 2)) := by
    rw [hp, Nat.mul_div_cancel_left _ Nat.two_pos, Nat.mul_left_comm]
  rw [c.picture_len]
  unfold Done
  omega

/-- `pop {r4-r5,pc}` -/
theorem At.pop {s₀ s : Cpu} {r : Nat} (h : c.At s₀ r 0 s) (hpc : s.pc = 23) :
    run yuyv422ToYuv420sp 1 s = some { (s.setReg .r4 (s₀.reg .r4)).setReg .r5 (s₀.reg .r5) with
      stack := s₀.stack, returned := some (s₀.reg .lr), pc := 24 } := by
  obtain ⟨reg, vec, n, z, v, mem, stack, reads, writes, pc, returned⟩ := s
  cases hpc
  cases h.returned
  cases h.stack
  rfl

/-! ## §4 The Picture -/

/-- The code returns, with the registers of its caller restored.  It writes every byte of the
picture and nothing else, and reads bytes of the frame only.  The luma of the picture is that
of the frame, and a pair of chroma bytes is the average of V and that of U in two rows. -/
theorem yuyv422ToYuv420sp_converts (c : Yuv420spCall) (s : Cpu) :
    ∃ t, Reaches yuyv422ToYuv420sp (c.called s) t ∧ t.returned = some (s.reg .lr) ∧
      t.reg .r4 = s.reg .r4 ∧ t.reg .r5 = s.reg .r5 ∧ t.stack = s.stack ∧
      (∀ a, a ∈ t.writes ↔ ∃ j < 3 * (c.width * c.height) / 2, a = c.picture.addr j) ∧
      (∀ a ∈ t.reads, ∃ k < 2 * (c.width * c.height), a = c.frame.addr k) ∧
      (∀ a, (∀ j < 3 * (c.width * c.height) / 2, a ≠ c.picture.addr j) → t.mem a = s.mem a) ∧
      (∀ i < c.width * c.height,
        t.mem (c.picture.addr i) = s.mem (c.frame.addr (2 * i))) ∧
      ∀ r < c.height / 2, ∀ x < c.width / 2,
        t.mem (c.picture.addr (c.width * c.height + c.width * r + 2 * x)) =
          halve (s.mem (c.frame.addr (2 * c.width * (2 * r) + 4 * x + 3)))
            (s.mem (c.frame.addr (2 * c.width * (2 * r + 1) + 4 * x + 3))) ∧
        t.mem (c.picture.addr (c.width * c.height + c.width * r + 2 * x + 1)) =
          halve (s.mem (c.frame.addr (2 * c.width * (2 * r) + 4 * x + 1)))
            (s.mem (c.frame.addr (2 * c.width * (2 * r + 1) + 4 * x + 1))) := by
  obtain ⟨t, hreach, ht, hpc⟩ := at_last c s
  have hlen := c.picture_len
  have heven := c.area_even
  -- the last instruction pops what the first one pushed
  refine ⟨_, hreach.trans ⟨1, ht.pop hpc⟩, rfl, rfl, rfl, rfl, ?_, ?_, ?_, ?_, ?_⟩
  · intro a
    apply (ht.writes a).trans
    simp only [done_all_iff, hlen]
  · intro a ha
    rw [← c.frame_len]
    exact ht.reads a ha
  · intro a ha
    rw [← hlen] at ha
    exact ht.other a ha
  · intro i hi
    have hdone := ht.done i (done_all_iff.mpr (by omega))
    rw [converted_luma _ hi] at hdone
    exact hdone
  · intro r hr x hx
    have hrows := c.rows_le (r := r) (by omega)
    have hfirst : 2 * c.width * (2 * r) = 4 * (c.width * r) := by
      rw [Nat.mul_mul_mul_comm]
    have hsecond : 2 * c.width * (2 * r + 1) = 4 * (c.width * r) + 2 * c.width := by
      rw [Nat.mul_succ, hfirst]
    -- V is at an even place and U at an odd one
    have hv : chromaAt (2 * x) = 4 * x + 3 := by
      unfold chromaAt
      rw [if_pos (by omega)]
      omega
    have hu : chromaAt (2 * x + 1) = 4 * x + 1 := by
      unfold chromaAt
      rw [if_neg (by omega)]
      omega
    have hdoneV := ht.done (c.width * c.height + c.width * r + 2 * x)
      (done_all_iff.mpr (by omega))
    have hdoneU := ht.done (c.width * c.height + c.width * r + (2 * x + 1))
      (done_all_iff.mpr (by omega))
    rw [converted_chroma _ r (by omega), hv] at hdoneV
    rw [converted_chroma _ r (by omega), hu] at hdoneU
    rw [hfirst, hsecond]
    exact ⟨hdoneV, hdoneU⟩

/-- A picture of four rows of sixteen pixels: two blocks across, and two pairs of rows. -/
def small : Yuv420spCall where
  width := 16
  height := 4
  frame := ⟨0x1000, 128, by decide⟩
  picture := ⟨0x2000, 96, by decide⟩
  width_pos := by decide
  width_dvd := by decide
  height_pos := by decide
  height_dvd := by decide
  frame_len := rfl
  picture_len := rfl
  apart := .inl (by decide)

/-- A memory that holds the last byte of each address. -/
def counting : Cpu where
  reg := fun _ => 0
  vec := fun _ _ => 0
  n := false
  z := false
  v := false
  mem := fun a => UInt8.ofNat a.toNat
  stack := []
  reads := []
  writes := []
  pc := 0
  returned := none

/-- A pair of chroma bytes of the second block and the second pair of rows: V is the average of
the bytes 87 and 119 of the frame, U that of the bytes 85 and 117. -/
theorem small_converts :
    ∃ t, Reaches yuyv422ToYuv420sp (small.called counting) t ∧
      t.mem (small.picture.addr 90) = 103 ∧ t.mem (small.picture.addr 91) = 101 := by
  obtain ⟨t, hreach, -, -, -, -, -, -, -, -, hchroma⟩ :=
    yuyv422ToYuv420sp_converts small counting
  exact ⟨t, hreach, hchroma 1 (by decide) 5 (by decide)⟩

end Yuv420spCall

end OdroidU2.Camera
