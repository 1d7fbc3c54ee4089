import OdroidU2.Gps.Numbers
import OdroidU2.Gps.Sentences

/-!
# The Mask of Used Satellites

A GSA sentence lists the satellites of the fix in fields 3 to 14, and the GSA branch sets one
bit of `used_in_fix_mask` for each.  The shift has no upper bound: satellites of other
constellations have numbers above 32.

- `getLsbD_nmeaReaderParseGsaLoop` — the bits the loop sets
- `mask_exact_iff` — when the mask says which satellites are listed
- `glonass_shift_too_far` — a sentence that lists satellite 65
-/

namespace OdroidU2.Gps

open OdroidU2.Foundations Prog

variable {R : Type} [Libc R]

/-! ## §1 What the Mask Must Say -/

/-- Fields 3 to 14 list this satellite. -/
def Listed (body : List UInt8) (p : Nat) : Prop :=
  ∃ i ∈ List.range' 3 12, AllDigits (field body i) ∧ digitsValue (field body i) = p

instance (body : List UInt8) (p : Nat) : Decidable (Listed body p) := by
  unfold Listed
  infer_instance

/-- Bit `p - 1` tells whether satellite `p` is listed. -/
def MaskLists (mask : BitVec 32) (body : List UInt8) : Prop :=
  ∀ p, 1 ≤ p → p ≤ 32 → (mask.getLsbD (p - 1) ↔ Listed body p)

/-- A shift of a 32-bit `unsigned long` by less than its width. -/
def ShiftInRange (a : Action) : Prop := ∀ k, a = .maskShift k → k < 32

/-- The mask is exact after the line, and every shift on the way is defined. -/
structure MaskExact (r : NmeaReader R) (line : List UInt8) : Prop where
  lists : MaskLists ((nmeaReaderParseLine line).exec r).svStatus.usedInFixMask (nmeaBody line)
  shifts : (nmeaReaderParseLine line).Emits (fun a _ => ShiftInRange a) r

/-- Every field is read as a number up to 32, and if it is positive as one that is listed. -/
def FieldsInRange (body : List UInt8) : Prop :=
  ∀ i ∈ List.range' 3 12, str2int (field body i) ≤ 32 ∧
    (0 < str2int (field body i) → Listed body (str2int (field body i)).toNat)

/-! ## §2 The Loop -/

section Loop

omit [Libc R]

variable {tzer : NmeaTokenizer}

/-- The number read from field `i`. -/
def gsaPrn (tzer : NmeaTokenizer) (i : Nat) : Int := str2int (nmeaTokenizerGet tzer i).text

/-- The loop sets the bits of the positive numbers, and leaves the others as they are. -/
theorem getLsbD_nmeaReaderParseGsaLoop (is : List Nat) (r : NmeaReader R) {k : Nat} (hk : k < 32) :
    ((nmeaReaderParseGsaLoop tzer is).exec r).svStatus.usedInFixMask.getLsbD k ↔
      r.svStatus.usedInFixMask.getLsbD k ∨ ∃ i ∈ is, gsaPrn tzer i = k + 1 := by
  induction is generalizing r with
  | nil => simp [nmeaReaderParseGsaLoop]
  | cons i rest ih =>
    rw [nmeaReaderParseGsaLoop, exec_bind, ih, exec_when]
    have hprn : str2int (nmeaTokenizerGet tzer i).text = gsaPrn tzer i := rfl
    rw [hprn]
    simp only [List.exists_mem_cons_iff]
    -- a positive number sets one bit, the one of its own satellite
    by_cases hpos : 0 < gsaPrn tzer i
    · have hbit : (BitVec.twoPow 32 (gsaPrn tzer i - 1).toNat).getLsbD k ↔ gsaPrn tzer i = k + 1 := by
        rw [BitVec.getLsbD_twoPow, Bool.and_eq_true, decide_eq_true_eq, decide_eq_true_eq]
        omega
      simp only [if_pos hpos, exec_bind, exec_act, exec_assign, ← BitVec.twoPow_eq,
        BitVec.getLsbD_or, Bool.or_eq_true, hbit, or_assoc]
    · have hne : gsaPrn tzer i ≠ k + 1 := by omega
      simp only [if_neg hpos, hne, false_or]

/-- The shifts of the loop are those of the positive numbers. -/
theorem emits_nmeaReaderParseGsaLoop (is : List Nat) (r : NmeaReader R) :
    (nmeaReaderParseGsaLoop tzer is).Emits (fun a _ => ShiftInRange a) r ↔
      ∀ i ∈ is, gsaPrn tzer i ≤ 32 := by
  induction is generalizing r with
  | nil => simp [nmeaReaderParseGsaLoop]
  | cons i rest ih =>
    rw [nmeaReaderParseGsaLoop, emits_bind, ih, List.forall_mem_cons, emits_when]
    have hprn : str2int (nmeaTokenizerGet tzer i).text = gsaPrn tzer i := rfl
    rw [hprn]
    apply and_congr_left
    intro _
    -- only a positive number is shifted by
    constructor
    · intro hshift
      by_cases hpos : 0 < gsaPrn tzer i
      · have hlt : gsaPrn tzer i - 1 < 32 :=
          (emits_act _ _ _).mp ((emits_bind _ _ _).mp (hshift hpos)).1 _ rfl
        omega
      · omega
    · intro hle hpos
      refine (emits_bind _ _ _).mpr ⟨(emits_act _ _ _).mpr fun k hk => ?_, ?_⟩
      · cases hk
        omega
      · exact (emits_assign _ _).mpr nofun

end Loop

/-! ## §3 The Sentence -/

omit [Libc R] in
/-- The accuracy does not touch the mask. -/
theorem keptByUpdates_mask (mask : BitVec 32) :
    KeptByUpdates (fun r : NmeaReader R => r.svStatus.usedInFixMask = mask)
      (fun a _ => ShiftInRange a) where
  fix _ _ hr := ⟨hr, nofun⟩
  date _ _ _ _ hr := ⟨hr, nofun⟩

section Gsa

variable {tzer : NmeaTokenizer} {r : NmeaReader R}
variable (hstatus : (nmeaTokenizerGet tzer 2).first ≠ 0 ∧ (nmeaTokenizerGet tzer 2).first ≠ byte '1')
include hstatus

/-- The branch starts from an empty mask. -/
theorem getLsbD_nmeaReaderParseGsa {k : Nat} (hk : k < 32) :
    ((nmeaReaderParseGsa tzer).exec r).svStatus.usedInFixMask.getLsbD k ↔
      ∃ i ∈ List.range' 3 12, gsaPrn tzer i = k + 1 := by
  simp only [nmeaReaderParseGsa, exec_when, if_pos hstatus, exec_bind, exec_assign]
  rw [getLsbD_nmeaReaderParseGsaLoop _ _ hk]
  simp

theorem emits_nmeaReaderParseGsa :
    (nmeaReaderParseGsa tzer).Emits (fun a _ => ShiftInRange a) r ↔
      ∀ i ∈ List.range' 3 12, gsaPrn tzer i ≤ 32 := by
  -- neither the accuracy nor the assignments shift
  have haccuracy := (keeps_nmeaReaderUpdateAccuracy (keptByUpdates_mask _)
    (nmeaTokenizerGet tzer 15) r rfl).2
  have hclear (t : NmeaReader R) : (assign fun r : NmeaReader R =>
      { r with svStatus.usedInFixMask := 0 }).Emits (fun a _ => ShiftInRange a) t :=
    (emits_assign _ _).mpr nofun
  simp only [nmeaReaderParseGsa, emits_when, hstatus, forall_const, emits_bind, haccuracy, hclear,
    emits_nmeaReaderParseGsaLoop, true_and, ne_eq, not_false_eq_true, and_self]

end Gsa

omit [Libc R] in
/-- The posts shift nothing. -/
theorem emits_posts (r : NmeaReader R) :
    (do nmeaReaderPostFix; nmeaReaderPostSvStatus : NmeaM R Unit).Emits
      (fun a _ => ShiftInRange a) r := by
  simp [nmeaReaderPostFix, nmeaReaderPostSvStatus, ShiftInRange]

section Line

variable {line : List UInt8} (hgsa : IsSentence (bytes "GSA") line) (r : NmeaReader R)
include hgsa

theorem usedInFixMask_nmeaReaderParseLine :
    ((nmeaReaderParseLine line).exec r).svStatus.usedInFixMask =
      ((nmeaReaderParseGsa (nmeaTokenizerInit line)).exec r).svStatus.usedInFixMask := by
  rw [exec_nmeaReaderParseLine, if_pos hgsa.1, usedInFixMask_posted, nmeaReaderBranch_gsa hgsa]

theorem shifts_nmeaReaderParseLine_iff :
    (nmeaReaderParseLine line).Emits (fun a _ => ShiftInRange a) r ↔
      (nmeaReaderParseGsa (nmeaTokenizerInit line)).Emits (fun a _ => ShiftInRange a) r := by
  have hbranch := nmeaReaderBranch_gsa (R := R) hgsa
  rw [nmeaReaderBranch, Prog.when, if_pos hgsa.1] at hbranch
  rw [nmeaReaderParseLine_eq, Prog.when, if_pos hgsa.1, hbranch, emits_bind,
    and_iff_left (emits_posts _)]

end Line

/-! ## §4 When the Mask Is Exact -/

/-- A number that is listed is read as itself. -/
theorem str2int_of_listed {body : List UInt8} {p : Nat} (hp : p ≤ 32) (h : Listed body p) :
    ∃ i ∈ List.range' 3 12, str2int (field body i) = p := by
  obtain ⟨i, hi, hdigits, hvalue⟩ := h
  refine ⟨i, hi, ?_⟩
  rw [str2int_eq, if_pos hdigits, hvalue]
  exact int32_of_range (by omega) (by omega)

/-- The numbers that are read are those listed, when the fields are in range. -/
theorem listed_of_str2int {body : List UInt8} (h : FieldsInRange body) {i : Nat}
    (hi : i ∈ List.range' 3 12) {p : Nat} (hp : 1 ≤ p) (hread : str2int (field body i) = p) :
    Listed body p := by
  have hpos : 0 < str2int (field body i) := by omega
  have hlisted := (h i hi).2 hpos
  rwa [hread, Int.toNat_natCast] at hlisted

section Exact

variable {line : List UInt8} (hgsa : IsSentence (bytes "GSA") line) (r : NmeaReader R)
include hgsa

/-- When the status begins with a NUL byte, the branch is not entered and leaves the mask. -/
theorem maskExact_of_nul_iff (hzero : (nmeaTokenizerGet (nmeaTokenizerInit line) 2).first = 0) :
    MaskExact r line ↔ MaskLists r.svStatus.usedInFixMask (nmeaBody line) := by
  have hmask := usedInFixMask_nmeaReaderParseLine hgsa r
  have hshifts := shifts_nmeaReaderParseLine_iff hgsa r
  rw [nmeaReaderParseGsa, exec_when, if_neg fun h => h.1 hzero] at hmask
  rw [nmeaReaderParseGsa, emits_when] at hshifts
  -- a status of NUL skips the whole loop: the mask stays and nothing is shifted
  constructor
  · intro hexact
    have hlists := hexact.lists
    rwa [hmask] at hlists
  · intro hlists
    exact ⟨by rwa [hmask], hshifts.mpr fun h => absurd hzero h.1⟩

omit [Libc R] hgsa in
theorem gsaPrn_nmeaTokenizerInit {i : Nat} (hi : i ∈ List.range' 3 12) :
    gsaPrn (nmeaTokenizerInit line) i = str2int (field (nmeaBody line) i) := by
  have hlt : i < maxNmeaTokens := lt_trans (List.mem_range'_1.mp hi).2 (by decide)
  rw [gsaPrn, text_nmeaTokenizerGet line hlt]

/-- Otherwise the bits are those of the numbers that are read. -/
theorem maskExact_of_status_iff
    (hstatus : (nmeaTokenizerGet (nmeaTokenizerInit line) 2).first ≠ 0 ∧
      (nmeaTokenizerGet (nmeaTokenizerInit line) 2).first ≠ byte '1') :
    MaskExact r line ↔ FieldsInRange (nmeaBody line) := by
  have hshifts := shifts_nmeaReaderParseLine_iff hgsa r
  rw [emits_nmeaReaderParseGsa hstatus] at hshifts
  have hbit (p : Nat) (hlo : 1 ≤ p) (hhi : p ≤ 32) :
      ((nmeaReaderParseLine line).exec r).svStatus.usedInFixMask.getLsbD (p - 1) ↔
        ∃ i ∈ List.range' 3 12, str2int (field (nmeaBody line) i) = p := by
    rw [usedInFixMask_nmeaReaderParseLine hgsa, getLsbD_nmeaReaderParseGsa hstatus (by omega)]
    apply exists_congr
    intro i
    apply and_congr_right
    intro hi
    rw [gsaPrn_nmeaTokenizerInit hi]
    omega
  constructor
  · intro hexact i hi
    have hle : str2int (field (nmeaBody line) i) ≤ 32 :=
      gsaPrn_nmeaTokenizerInit hi ▸ hshifts.mp hexact.shifts i hi
    refine ⟨hle, fun hpos => ?_⟩
    -- the bit of this number is set, so it is listed
    apply (hexact.lists _ (by omega) (by omega)).mp
    apply (hbit _ (by omega) (by omega)).mpr
    exact ⟨i, hi, (Int.toNat_of_nonneg (by omega)).symm⟩
  · intro hrange
    refine ⟨fun p hlo hhi => (hbit p hlo hhi).trans ⟨?_, str2int_of_listed hhi⟩, ?_⟩
    · -- a number that is read is listed
      rintro ⟨i, hi, hp⟩
      exact listed_of_str2int hrange hi hlo hp
    · exact hshifts.mpr fun i hi => (gsaPrn_nmeaTokenizerInit hi).symm ▸ (hrange i hi).1

end Exact

/-- **The mask of a GSA sentence** whose status is present and not `1`: it is exact and no shift
goes too far exactly when every field is read as a number up to 32, and a positive one is
listed; or the status begins with a NUL byte, which the branch takes for an absent one, and the
mask was the right one before. -/
theorem mask_exact_iff (r : NmeaReader R) (line : List UInt8)
    (hgsa : IsSentence (bytes "GSA") line) (b : UInt8) (rest : List UInt8)
    (hstatus : field (nmeaBody line) 2 = b :: rest) (hb : b ≠ byte '1') :
    MaskExact r line ↔
      if b = 0 then MaskLists r.svStatus.usedInFixMask (nmeaBody line)
      else FieldsInRange (nmeaBody line) := by
  have hfirst : (nmeaTokenizerGet (nmeaTokenizerInit line) 2).first = b := by
    rw [first_nmeaTokenizerGet line (by decide), firstByte_of_field hstatus]
  -- the test of the source is on the first byte of the field alone
  split
  · rename_i hzero
    exact maskExact_of_nul_iff hgsa r (hfirst.trans hzero)
  · rename_i hnonzero
    apply maskExact_of_status_iff hgsa r
    rw [hfirst]
    exact ⟨hnonzero, hb⟩

/-- A sentence of GPS satellites. -/
theorem mask_exact_gps :
    MaskExact (readerAfterInit (R := ℚ) ⟨true, true, true⟩) (bytes "$GPGSA,A,3,02,04,07,32\n") :=
  (mask_exact_iff _ _ (by decide +kernel) (byte '3') [] (by decide +kernel) (by decide)).mpr
    (by rw [if_neg (by decide)]; unfold FieldsInRange; decide +kernel)

/-- Satellite 65, of another constellation: the shift is by 64. -/
theorem glonass_shift_too_far :
    ¬MaskExact (readerAfterInit (R := ℚ) ⟨true, true, true⟩) (bytes "$GPGSA,A,3,65\n") := by
  intro h
  have hshifts := (shifts_nmeaReaderParseLine_iff (by decide +kernel) _).mp h.shifts
  have hle := (emits_nmeaReaderParseGsa (by decide +kernel)).mp hshifts 3 (by decide)
  exact absurd hle (by decide +kernel)

end OdroidU2.Gps
