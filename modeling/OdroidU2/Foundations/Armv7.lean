import Mathlib

/-!
# ARMv7 Code with NEON Registers

The instructions that move and combine bytes eight at a time, over 32-bit registers and a
flat memory.  The machine keeps a record of the addresses it reads and writes.  The stack is
kept apart from that memory.

- `step` — one instruction of a program
- `Reaches` — what a program gets to, with a rule for straight code and one for loops
- `Region` — addresses of a block of memory, and what a store does to it
-/

namespace OdroidU2.Foundations.Armv7

/-! ## §1 The Machine -/

/-- The general-purpose registers in use. -/
inductive Reg where
  | r0 | r1 | r2 | r3 | r4 | r5 | r12 | lr
  deriving DecidableEq, Repr

/-- The doubleword registers in use. -/
inductive DReg where
  | d0 | d1 | d2 | d3
  deriving DecidableEq, Repr

/-- A quadword register is a pair of doubleword registers. -/
inductive QReg where
  | q0 | q1
  deriving DecidableEq, Repr

def QReg.low : QReg → DReg
  | .q0 => .d0
  | .q1 => .d2

def QReg.high : QReg → DReg
  | .q0 => .d1
  | .q1 => .d3

abbrev Word := BitVec 32

/-- The bytes of a doubleword register, the one at the lowest address first. -/
abbrev Lanes := Fin 8 → UInt8

/-- The registers, flags and memory, with the addresses read and written so far. -/
structure Cpu where
  reg : Reg → Word
  vec : DReg → Lanes
  n : Bool
  z : Bool
  v : Bool
  mem : Word → UInt8
  stack : List Word
  reads : List Word
  writes : List Word
  /-- The index of the next instruction. -/
  pc : Nat
  /-- The address that was put into the `pc`, once the code has returned. -/
  returned : Option Word

/-- Instructions; a branch names the index of its target. -/
inductive Instr where
  /-- `push {rs}` -/
  | push (rs : List Reg)
  /-- `pop {rs, pc}` -/
  | popPc (rs : List Reg)
  /-- `mov d, m` -/
  | mov (d m : Reg)
  /-- `mul d, n, m` -/
  | mul (d n m : Reg)
  /-- `add d, n, m, lsl #k` -/
  | add (d n m : Reg) (k : Nat)
  /-- `subs d, n, #k` -/
  | subs (d n : Reg) (k : Nat)
  /-- `bgt target` -/
  | bgt (target : Nat)
  /-- `vld1.8 {q}, [n]!` -/
  | vld1 (q : QReg) (n : Reg)
  /-- `vst1.8 {d}, [n]!` -/
  | vst1 (d : DReg) (n : Reg)
  /-- `vuzp.8 d, m` -/
  | vuzp (d m : DReg)
  /-- `vhadd.u8 d, n, m` -/
  | vhadd (d n m : DReg)
  /-- `vrev16.8 d, m` -/
  | vrev16 (d m : DReg)
  deriving DecidableEq, Repr

/-- Bytes at consecutive addresses. -/
def loadLanes (mem : Word → UInt8) (a : Word) : Lanes := fun i => mem (a + BitVec.ofNat 32 i)

/-- Eight bytes go to consecutive addresses. -/
def storeLanes (mem : Word → UInt8) (a : Word) (l : Lanes) : Word → UInt8 := fun b =>
  if h : (b - a).toNat < 8 then l ⟨(b - a).toNat, h⟩ else mem b

/-- The addresses of `k` bytes from `a`. -/
def span (a : Word) (k : Nat) : List Word := (List.range k).map fun i => a + BitVec.ofNat 32 i

/-- Byte `i` of two registers, one after the other. -/
def joined (l m : Lanes) (i : Fin 16) : UInt8 :=
  if h : i.val < 8 then l ⟨i.val, h⟩ else m ⟨i.val - 8, by omega⟩

/-- The bytes at even places. -/
def evens (l m : Lanes) : Lanes := fun i => joined l m ⟨2 * i.val, by omega⟩

/-- The bytes at odd places. -/
def odds (l m : Lanes) : Lanes := fun i => joined l m ⟨2 * i.val + 1, by omega⟩

/-- The average of two bytes, rounded down. -/
def halve (a b : UInt8) : UInt8 := UInt8.ofNat ((a.toNat + b.toNat) / 2)

/-- The two bytes of each halfword change places. -/
def swapped (l : Lanes) : Lanes := fun i =>
  if i.val % 2 = 0 then l ⟨(i.val + 1) % 8, Nat.mod_lt _ (by omega)⟩
  else l ⟨i.val - 1, by omega⟩

namespace Cpu

def setReg (s : Cpu) (r : Reg) (x : Word) : Cpu := { s with reg := Function.update s.reg r x }

def setVec (s : Cpu) (d : DReg) (l : Lanes) : Cpu := { s with vec := Function.update s.vec d l }

/-- `Z` is clear and `N` is equal to `V`. -/
def gt (s : Cpu) : Bool := !s.z && s.n == s.v

/-- The words of the stack go to the registers, and the next one to the `pc`. -/
def pops (s : Cpu) : List Reg → Option Cpu
  | [] => match s.stack with
    | [] => none
    | a :: stack => some { s with stack := stack, returned := some a }
  | r :: rs => match s.stack with
    | [] => none
    | a :: stack => pops { s.setReg r a with stack := stack } rs

end Cpu

/-- What an instruction does, after the `pc` has moved on. -/
def exec (i : Instr) (s : Cpu) : Option Cpu :=
  match i with
  | .push rs => some { s with stack := rs.map s.reg ++ s.stack }
  | .popPc rs => s.pops rs
  | .mov d m => some (s.setReg d (s.reg m))
  | .mul d n m => some (s.setReg d (s.reg n * s.reg m))
  | .add d n m k => some (s.setReg d (s.reg n + s.reg m <<< k))
  | .subs d n k =>
    let x := s.reg n - BitVec.ofNat 32 k
    some { s.setReg d x with
      n := x.msb
      z := x == 0
      v := decide (x.toInt ≠ (s.reg n).toInt - (BitVec.ofNat 32 k).toInt) }
  | .bgt target => some (if s.gt then { s with pc := target } else s)
  | .vld1 q n =>
    let a := s.reg n
    some { ((s.setVec q.low (loadLanes s.mem a)).setVec q.high
        (loadLanes s.mem (a + 8))).setReg n (a + 16) with
      reads := span a 16 ++ s.reads }
  | .vst1 d n =>
    let a := s.reg n
    some { s.setReg n (a + 8) with
      mem := storeLanes s.mem a (s.vec d)
      writes := span a 8 ++ s.writes }
  | .vuzp d m =>
    some ((s.setVec d (evens (s.vec d) (s.vec m))).setVec m (odds (s.vec d) (s.vec m)))
  | .vhadd d n m => some (s.setVec d fun i => halve (s.vec n i) (s.vec m i))
  | .vrev16 d m => some (s.setVec d (swapped (s.vec m)))

/-- One instruction of a program that has not returned. -/
def step (code : List Instr) (s : Cpu) : Option Cpu :=
  match s.returned with
  | some _ => none
  | none => (code[s.pc]?).bind fun i => exec i { s with pc := s.pc + 1 }

/-- A number of instructions. -/
def run (code : List Instr) : Nat → Cpu → Option Cpu
  | 0, s => some s
  | k + 1, s => (step code s).bind (run code k)

/-! ## §2 Runs -/

section

variable {code : List Instr} {s t u : Cpu}

theorem run_add (k l : Nat) (s : Cpu) : run code (k + l) s = (run code k s).bind (run code l) := by
  induction k generalizing s with
  | zero => rw [Nat.zero_add]; rfl
  | succ k ih =>
    rw [Nat.succ_add, run, run, Option.bind_assoc]
    exact congrArg _ (funext ih)

/-- The program gets from one state to another. -/
def Reaches (code : List Instr) (s t : Cpu) : Prop := ∃ k, run code k s = some t

theorem Reaches.refl (s : Cpu) : Reaches code s s := ⟨0, rfl⟩

theorem Reaches.trans (h : Reaches code s t) (h' : Reaches code t u) : Reaches code s u := by
  obtain ⟨k, hk⟩ := h
  obtain ⟨l, hl⟩ := h'
  exact ⟨k + l, by rw [run_add, hk]; exact hl⟩

/-- A loop: what one pass carries from `i` to `i + 1`, all passes carry from the first to
the last. -/
theorem Reaches.iterate (code : List Instr) {I : Nat → Cpu → Prop} {N : Nat}
    (hpass : ∀ i < N, ∀ s, I i s → ∃ t, Reaches code s t ∧ I (i + 1) t) (hs : I 0 s) :
    ∃ t, Reaches code s t ∧ I N t := by
  induction N with
  | zero => exact ⟨s, Reaches.refl s, hs⟩
  | succ N ih =>
    -- the first `N` passes, then one more
    obtain ⟨t, hst, ht⟩ := ih fun i hi => hpass i (Nat.lt_succ_of_lt hi)
    obtain ⟨u, htu, hu⟩ := hpass N (Nat.lt_succ_self N) t ht
    exact ⟨u, hst.trans htu, hu⟩

theorem ofNat_sub {a k : Nat} (ha : a < 2 ^ 31) (hk : k ≤ a) :
    BitVec.ofNat 32 a - BitVec.ofNat 32 k = BitVec.ofNat 32 (a - k) := by
  apply BitVec.eq_of_toNat_eq
  simp only [BitVec.toNat_sub, BitVec.toNat_ofNat]
  omega

theorem ofNat_shiftLeft_one (a : Nat) : BitVec.ofNat 32 a <<< 1 = BitVec.ofNat 32 (2 * a) := by
  apply BitVec.eq_of_toNat_eq
  simp only [BitVec.toNat_shiftLeft, BitVec.toNat_ofNat, Nat.shiftLeft_eq]
  omega

/-- The condition `gt` after a `subs` of two words. -/
def gtAfter (x y : Word) : Bool :=
  !(x - y == 0) && (x - y).msb == decide ((x - y).toInt ≠ x.toInt - y.toInt)

/-- When a count does not fall below zero, `gt` says that some of it is left. -/
theorem gtAfter_ofNat {a k : Nat} (ha : a < 2 ^ 31) (hk : k ≤ a) :
    gtAfter (BitVec.ofNat 32 a) (BitVec.ofNat 32 k) = decide (k < a) := by
  -- below 2 ^ 31 the word is its own signed value, so no flag is set by an overflow
  have htoInt (b : Nat) (hb : b < 2 ^ 31) : (BitVec.ofNat 32 b).toInt = b := by
    rw [BitVec.toInt_ofNat', Int.bmod_def]
    omega
  -- the difference is not negative: `subs` clears N
  have hmsb : (BitVec.ofNat 32 (a - k)).msb = false := by
    rw [BitVec.msb_eq_decide, BitVec.toNat_ofNat]
    exact decide_eq_false (by omega)
  -- and it is zero exactly when the two are equal, which is what Z says
  have hzero : (BitVec.ofNat 32 (a - k) == 0) = decide (a ≤ k) := by
    rw [Bool.eq_iff_iff, beq_iff_eq, decide_eq_true_iff, ← BitVec.toNat_inj, BitVec.toNat_ofNat]
    have hnat : (0 : Word).toNat = 0 := rfl
    omega
  have hv : ¬((a - k : Nat) : Int) ≠ a - k := by omega
  rw [gtAfter, ofNat_sub ha hk, hmsb, hzero, htoInt _ (by omega), htoInt _ ha, htoInt _ (by omega),
    decide_eq_false hv]
  -- GT is Z clear and N = V; N and V are both clear here
  by_cases hlt : k < a <;> simp [hlt, Nat.not_le.mpr, Nat.le_of_not_lt]

theorem Reaches.bgt {k : Nat} (hcode : code[s.pc]? = some (.bgt k)) (hret : s.returned = none) :
    Reaches code s { s with pc := if s.gt then k else s.pc + 1 } := by
  refine ⟨1, ?_⟩
  have hstep : step code s = exec (.bgt k) { s with pc := s.pc + 1 } := by
    rw [step, hret]
    show (code[s.pc]?).bind _ = _
    rw [hcode]
    rfl
  rw [run, hstep]
  show some (if s.gt then _ else _) = _
  cases s.gt <;> rfl

end

/-! ## §3 Blocks of Memory -/

/-- A block of memory that does not run past the last address. -/
structure Region where
  base : Word
  len : Nat
  fits : base.toNat + len ≤ 2 ^ 32

namespace Region

variable {R R' : Region} {i j k : Nat}

/-- The address of a byte of the block. -/
def addr (R : Region) (i : Nat) : Word := R.base + BitVec.ofNat 32 i

/-- The blocks have no address in common. -/
def Apart (R R' : Region) : Prop :=
  R.base.toNat + R.len ≤ R'.base.toNat ∨ R'.base.toNat + R'.len ≤ R.base.toNat

theorem addr_zero : R.addr 0 = R.base := BitVec.add_zero _

theorem addr_add (i k : Nat) : R.addr i + BitVec.ofNat 32 k = R.addr (i + k) := by
  rw [addr, addr, BitVec.add_assoc, ← BitVec.ofNat_add]

theorem toNat_addr (hi : i < R.len) : (R.addr i).toNat = R.base.toNat + i := by
  have hfits := R.fits
  rw [addr, BitVec.toNat_add, BitVec.toNat_ofNat]
  omega

theorem addr_inj (hi : i < R.len) (hj : j < R.len) (h : R.addr i = R.addr j) : i = j := by
  have hnat := congrArg BitVec.toNat h
  rw [toNat_addr hi, toNat_addr hj] at hnat
  omega

theorem Apart.addr_ne (h : R.Apart R') (hi : i < R.len) (hj : j < R'.len) :
    R.addr i ≠ R'.addr j := by
  intro heq
  have hnat := congrArg BitVec.toNat heq
  rw [toNat_addr hi, toNat_addr hj] at hnat
  unfold Apart at h
  omega

theorem mem_span {a : Word} : a ∈ span (R.addr i) k ↔ ∃ j, i ≤ j ∧ j < i + k ∧ a = R.addr j := by
  simp only [span, List.mem_map, List.mem_range, addr_add]
  constructor
  · rintro ⟨l, hl, rfl⟩
    exact ⟨i + l, Nat.le_add_right i l, Nat.add_lt_add_left hl i, rfl⟩
  · rintro ⟨j, hij, hj, rfl⟩
    exact ⟨j - i, by omega, by rw [Nat.add_sub_cancel' hij]⟩

/-- The bytes from `i` on. -/
theorem loadLanes_addr (mem : Word → UInt8) (i : Nat) :
    loadLanes mem (R.addr i) = fun k : Fin 8 => mem (R.addr (i + k)) := by
  funext k
  rw [loadLanes, addr_add]

theorem joined_loadLanes (mem : Word → UInt8) (i : Nat) (k : Fin 16) :
    joined (loadLanes mem (R.addr i)) (loadLanes mem (R.addr i + 8)) k = mem (R.addr (i + k)) := by
  have hhigh : R.addr i + 8 = R.addr (i + 8) := addr_add i 8
  rw [hhigh, loadLanes_addr, loadLanes_addr]
  unfold joined
  -- lanes 0 to 7 come from the first register, 8 to 15 from the second
  split
  · rfl
  · show mem (R.addr (i + 8 + (k.val - 8))) = _
    congr 2
    omega

theorem storeLanes_hit (mem : Word → UInt8) (l : Lanes) (hj : i + 8 ≤ R.len) (k : Fin 8) :
    storeLanes mem (R.addr i) l (R.addr (i + k)) = l k := by
  -- the region does not wrap around 2 ^ 32, so the distance from the store's address is the lane
  have hsub : (R.addr (i + k) - R.addr i).toNat = k := by
    have hi := toNat_addr (R := R) (i := i) (by omega)
    have hk := toNat_addr (R := R) (i := i + k) (by omega)
    have hlt := (R.addr (i + k)).isLt
    rw [BitVec.toNat_sub]
    omega
  unfold storeLanes
  simp only [hsub, k.isLt, dite_true]

theorem storeLanes_miss (mem : Word → UInt8) (l : Lanes) {a : Word}
    (ha : ∀ k : Fin 8, a ≠ R.addr (i + k)) : storeLanes mem (R.addr i) l a = mem a := by
  unfold storeLanes
  split
  · next hlt =>
    -- an address less than 8 above the store's is one of the eight, wrapped around or not
    refine absurd ?_ (ha ⟨_, hlt⟩)
    rw [← addr_add]
    apply BitVec.eq_of_toNat_eq
    simp only [BitVec.toNat_sub, BitVec.toNat_add, BitVec.toNat_ofNat]
    omega
  · rfl

end Region

end OdroidU2.Foundations.Armv7
