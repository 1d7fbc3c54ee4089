import OdroidU2.Gps.ExactLibc
import OdroidU2.Gps.Sentences

/-!
# Absent and Empty Fields

A field that is cut off and an empty one have the same bytes, none.  The branches of
`nmea_reader_parse` also look at the first byte of a field though, which is the terminator of
the dummy string for the one and the next comma for the other.  The GSA branch is the only one
that tells them apart.

- `empty_fields_iff` — when commas at the end of a sentence make no difference
- `empty_status_clears_mask` — a GSA sentence without a fix status
-/

namespace OdroidU2.Gps

open OdroidU2.Foundations Prog

variable {R : Type} [Libc R]

/-! ## §1 Commas at the End -/

/-- The body followed by `k` further empty fields. -/
def withEmptyFields (body : List UInt8) (k : Nat) : List UInt8 := body ++ List.replicate k (byte ',')

theorem fields_withEmptyFields (body : List UInt8) (k : Nat) :
    fields (withEmptyFields body k) = fields body ++ List.replicate k [] := by
  induction k generalizing body with
  | zero => simp [withEmptyFields]
  | succ k ih =>
    -- one comma at the end is one empty field more
    have hsplit : fields (body ++ [byte ',']) = fields body ++ [[]] :=
      List.splitOn_append_cons_self body []
    have hmove : withEmptyFields body (k + 1) = withEmptyFields (body ++ [byte ',']) k := by
      simp [withEmptyFields, List.replicate_succ]
    rw [hmove, ih, hsplit, List.append_assoc, List.singleton_append, ← List.replicate_succ]

/-- Every field has the bytes it had. -/
theorem field_withEmptyFields (body : List UInt8) (k i : Nat) :
    field (withEmptyFields body k) i = field body i := by
  rw [field, field, fields_withEmptyFields, List.getElem?_append]
  -- a field of the body, or one of those added, which is empty like one that is not there
  split
  · rfl
  · rename_i hlen
    rw [List.getElem?_eq_none (Nat.le_of_not_lt hlen), List.getElem?_replicate]
    split <;> rfl

/-- No field is lost. -/
theorem length_countedFields_le (body : List UInt8) (k : Nat) :
    (countedFields body).length ≤ (countedFields (withEmptyFields body k)).length := by
  cases k with
  | zero => simp [withEmptyFields]
  | succ k =>
    -- the last field of the longer body is empty, so it is not counted
    have hall := fields_withEmptyFields body (k + 1)
    have hlast : (fields (withEmptyFields body (k + 1))).getLast? = some [] := by
      rw [hall, List.replicate_succ', ← List.append_assoc, List.getLast?_concat]
    rw [countedFields, countedFields, if_pos hlast, hall, List.length_dropLast, List.length_append,
      List.length_replicate]
    split
    · rw [List.length_dropLast]
      omega
    · omega

/-! ## §2 What a Branch Sees of a Field -/

/-- The branches see no difference between these first bytes, the GSA branch apart. -/
def FirstAlike (a b : UInt8) : Prop :=
  a = b ∨ (a = 0 ∨ a = byte ',') ∧ (b = 0 ∨ b = byte ',')

theorem FirstAlike.eq_iff {a b c : UInt8} (h : FirstAlike a b) (hzero : c ≠ 0)
    (hcomma : c ≠ byte ',') : a = c ↔ b = c := by
  rcases h with rfl | ⟨rfl | rfl, rfl | rfl⟩
  · exact Iff.rfl
  all_goals simp [hzero.symm, hcomma.symm]

theorem FirstAlike.lt_iff {a b : UInt8} (h : FirstAlike a b) : byte '0' < a ↔ byte '0' < b := by
  rcases h with rfl | ⟨rfl | rfl, rfl | rfl⟩
  · exact Iff.rfl
  all_goals decide

/-- A field that has bytes begins with the same one; another is absent or empty. -/
theorem firstAlike_withEmptyFields (body : List UInt8) (k i : Nat) :
    FirstAlike (firstByte body i) (firstByte (withEmptyFields body k) i) := by
  have hfield := field_withEmptyFields body k i
  -- the first byte of an empty field is the comma after it or 0: never a letter or digit
  cases hbytes : field body i with
  | cons b rest =>
    exact .inl (by rw [firstByte_of_field hbytes, firstByte_of_field (hfield.trans hbytes)])
  | nil =>
    rw [firstByte_of_nil hbytes, firstByte_of_nil (hfield.trans hbytes)]
    refine .inr ⟨?_, ?_⟩
    · split <;> simp
    · split <;> simp

/-- Two tables with the same fields, up to how an empty one is followed. -/
structure SameFields (t t' : NmeaTokenizer) : Prop where
  text : ∀ i < maxNmeaTokens, (nmeaTokenizerGet t i).text = (nmeaTokenizerGet t' i).text
  len : ∀ i < maxNmeaTokens, (nmeaTokenizerGet t i).len = (nmeaTokenizerGet t' i).len
  first : ∀ i < maxNmeaTokens, FirstAlike (nmeaTokenizerGet t i).first (nmeaTokenizerGet t' i).first

theorem sameFields_nmeaTokenizerInit {body : List UInt8} {k : Nat} {line line' : List UInt8}
    (hline : nmeaBody line = body) (hline' : nmeaBody line' = withEmptyFields body k) :
    SameFields (nmeaTokenizerInit line) (nmeaTokenizerInit line') where
  -- an added field is empty, and so is what a missing token reads as
  text i hi := by
    rw [text_nmeaTokenizerGet line hi, text_nmeaTokenizerGet line' hi, hline, hline',
      field_withEmptyFields]
  len i hi := by
    rw [len_nmeaTokenizerGet line hi, len_nmeaTokenizerGet line' hi, hline, hline',
      field_withEmptyFields]
  first i hi := by
    rw [first_nmeaTokenizerGet line hi, first_nmeaTokenizerGet line' hi, hline, hline']
    exact firstAlike_withEmptyFields body k i

/-! ## §3 The Branches -/

section Branches

theorem when_congr {σ ε : Type} {c c' : Prop} [Decidable c] [Decidable c'] {p p' : Prog σ ε Unit}
    (hc : c ↔ c') (hp : p = p') : Prog.when c p = Prog.when c' p' := by
  subst hp
  by_cases h : c
  · rw [Prog.when, Prog.when, if_pos h, if_pos (hc.mp h)]
  · rw [Prog.when, Prog.when, if_neg h, if_neg fun h' => h (hc.mpr h')]

variable {a a' b b' : Token} (htext : a.text = a'.text) (hlen : a.len = a'.len)
include htext hlen

theorem nmeaReaderUpdateTime_congr :
    nmeaReaderUpdateTime (R := R) a = nmeaReaderUpdateTime a' := by
  rw [nmeaReaderUpdateTime, nmeaReaderUpdateTime, htext, hlen]

theorem nmeaReaderUpdateDate_congr (htext' : b.text = b'.text) (hlen' : b.len = b'.len) :
    nmeaReaderUpdateDate (R := R) a b = nmeaReaderUpdateDate a' b' := by
  rw [nmeaReaderUpdateDate, nmeaReaderUpdateDate, htext, hlen,
    nmeaReaderUpdateTime_congr htext' hlen']

theorem nmeaReaderUpdateLatlong_congr (htext' : b.text = b'.text) (hlen' : b.len = b'.len)
    {ha ha' hb hb' : UInt8} (hS : ha = byte 'S' ↔ ha' = byte 'S') (hW : hb = byte 'W' ↔ hb' = byte 'W') :
    nmeaReaderUpdateLatlong (R := R) a ha b hb = nmeaReaderUpdateLatlong a' ha' b' hb' := by
  simp only [nmeaReaderUpdateLatlong, convertFromHhmm, htext, hlen, htext', hlen', hS, hW]

theorem nmeaReaderUpdateAltitude_congr :
    nmeaReaderUpdateAltitude (R := R) a b = nmeaReaderUpdateAltitude a' b' := by
  rw [nmeaReaderUpdateAltitude, nmeaReaderUpdateAltitude, htext, hlen]

theorem nmeaReaderUpdateAccuracy_congr :
    nmeaReaderUpdateAccuracy (R := R) a = nmeaReaderUpdateAccuracy a' := by
  rw [nmeaReaderUpdateAccuracy, nmeaReaderUpdateAccuracy, htext, hlen]

theorem nmeaReaderUpdateBearing_congr :
    nmeaReaderUpdateBearing (R := R) a = nmeaReaderUpdateBearing a' := by
  rw [nmeaReaderUpdateBearing, nmeaReaderUpdateBearing, htext, hlen]

theorem nmeaReaderUpdateSpeed_congr :
    nmeaReaderUpdateSpeed (R := R) a = nmeaReaderUpdateSpeed a' := by
  rw [nmeaReaderUpdateSpeed, nmeaReaderUpdateSpeed, htext, hlen]

end Branches

section Sentences

variable {t t' : NmeaTokenizer} (h : SameFields t t')
include h

theorem nmeaReaderParseGga_congr : nmeaReaderParseGga (R := R) t = nmeaReaderParseGga t' := by
  apply when_congr (h.first 6 (by decide)).lt_iff
  rw [nmeaReaderUpdateAltitude_congr (h.text 9 (by decide)) (h.len 9 (by decide))]

theorem nmeaReaderParseGll_congr : nmeaReaderParseGll (R := R) t = nmeaReaderParseGll t' := by
  apply when_congr ((h.first 6 (by decide)).eq_iff (by decide) (by decide))
  rw [nmeaReaderUpdateLatlong_congr (h.text 1 (by decide)) (h.len 1 (by decide))
    (h.text 3 (by decide)) (h.len 3 (by decide))
    ((h.first 2 (by decide)).eq_iff (by decide) (by decide))
    ((h.first 4 (by decide)).eq_iff (by decide) (by decide))]

theorem nmeaReaderParseRmc_congr : nmeaReaderParseRmc (R := R) t = nmeaReaderParseRmc t' := by
  apply when_congr ((h.first 2 (by decide)).eq_iff (by decide) (by decide))
  rw [nmeaReaderUpdateDate_congr (h.text 9 (by decide)) (h.len 9 (by decide))
      (h.text 1 (by decide)) (h.len 1 (by decide)),
    nmeaReaderUpdateLatlong_congr (h.text 3 (by decide)) (h.len 3 (by decide))
      (h.text 5 (by decide)) (h.len 5 (by decide))
      ((h.first 4 (by decide)).eq_iff (by decide) (by decide))
      ((h.first 6 (by decide)).eq_iff (by decide) (by decide)),
    nmeaReaderUpdateBearing_congr (h.text 8 (by decide)) (h.len 8 (by decide)),
    nmeaReaderUpdateSpeed_congr (h.text 7 (by decide)) (h.len 7 (by decide))]

/-- The loop looks at the sixteen fields from the fourth on. -/
theorem nmeaReaderParseGsvLoop_congr (noSatellites : Int) (n i : Nat) (hi : i + n ≤ 4) (curr : Int) :
    nmeaReaderParseGsvLoop (R := R) t noSatellites n i curr =
      nmeaReaderParseGsvLoop t' noSatellites n i curr := by
  induction n generalizing i curr with
  | zero => rfl
  | succ n ih =>
    -- four rounds of four fields stay inside the table
    have hlt (j : Nat) (hj : j < 8) : i * 4 + j < maxNmeaTokens := by
      show i * 4 + j < 20
      omega
    have hstore (prn : Int) : nmeaReaderStoreSv (R := R) t i curr prn =
        nmeaReaderStoreSv t' i curr prn := by
      rw [nmeaReaderStoreSv, nmeaReaderStoreSv, h.text _ (hlt 5 (by decide)),
        h.text _ (hlt 6 (by decide)), h.text _ (hlt 7 (by decide))]
    rw [nmeaReaderParseGsvLoop, nmeaReaderParseGsvLoop]
    simp only [ih (i + 1) (by omega), hstore, h.text _ (hlt 4 (by decide))]

theorem nmeaReaderParseGsv_congr : nmeaReaderParseGsv (R := R) t = nmeaReaderParseGsv t' := by
  rw [nmeaReaderParseGsv, nmeaReaderParseGsv]
  simp only [nmeaReaderParseGsvLoop_congr h _ 4 0 (Nat.le_refl 4), h.text 1 (by decide),
    h.text 2 (by decide), h.text 3 (by decide)]

omit [Libc R] in
theorem nmeaReaderParseGsaLoop_congr (is : List Nat) (his : ∀ i ∈ is, i < maxNmeaTokens) :
    nmeaReaderParseGsaLoop (R := R) t is = nmeaReaderParseGsaLoop t' is := by
  induction is with
  | nil => rfl
  | cons i rest ih =>
    rw [nmeaReaderParseGsaLoop, nmeaReaderParseGsaLoop, h.text i (his i List.mem_cons_self),
      ih fun j hj => his j (List.mem_cons_of_mem i hj)]

/-- The GSA branch does the same when it is entered for both or for neither. -/
theorem nmeaReaderParseGsa_congr
    (hstatus : (nmeaTokenizerGet t 2).first ≠ 0 ∧ (nmeaTokenizerGet t 2).first ≠ byte '1' ↔
      (nmeaTokenizerGet t' 2).first ≠ 0 ∧ (nmeaTokenizerGet t' 2).first ≠ byte '1') :
    nmeaReaderParseGsa (R := R) t = nmeaReaderParseGsa t' := by
  apply when_congr hstatus
  rw [nmeaReaderUpdateAccuracy_congr (h.text 15 (by decide)) (h.len 15 (by decide)),
    nmeaReaderParseGsaLoop_congr h _ (by decide)]

/-- The other branches do the same in any case. -/
theorem nmeaReaderParseSentence_congr {id : List UInt8} (hid : id ≠ bytes "GSA") :
    nmeaReaderParseSentence (R := R) t id = nmeaReaderParseSentence t' id := by
  rw [nmeaReaderParseSentence, nmeaReaderParseSentence, if_neg hid, if_neg hid,
    nmeaReaderParseGga_congr h, nmeaReaderParseGll_congr h, nmeaReaderParseRmc_congr h,
    nmeaReaderParseGsv_congr h]

end Sentences

/-! ## §4 A GSA Sentence Without a Status -/

/-- A table whose fields from index `n` on are empty. -/
def EmptyFrom (t : NmeaTokenizer) (n : Nat) : Prop :=
  ∀ i, n ≤ i → i < maxNmeaTokens → (nmeaTokenizerGet t i).text = [] ∧ (nmeaTokenizerGet t i).len = 0

omit [Libc R] in
theorem exec_nmeaReaderParseGsaLoop_of_empty {t : NmeaTokenizer} {is : List Nat}
    (h : ∀ i ∈ is, (nmeaTokenizerGet t i).text = []) (r : NmeaReader R) :
    (nmeaReaderParseGsaLoop t is).exec r = r := by
  induction is generalizing r with
  | nil => rfl
  | cons i rest ih =>
    -- an empty field reads as 0, and only positive numbers are marked
    have hzero : str2int (nmeaTokenizerGet t i).text = 0 := by
      rw [h i List.mem_cons_self]
      rfl
    simp only [nmeaReaderParseGsaLoop, exec_bind, exec_when, hzero, lt_irrefl, if_false]
    exact ih (fun j hj => h j (List.mem_cons_of_mem i hj)) r

/-- Entered with nothing behind the status, the branch clears the mask. -/
theorem exec_nmeaReaderParseGsa_of_empty {t : NmeaTokenizer} (h : EmptyFrom t 3) (r : NmeaReader R)
    (hstatus : (nmeaTokenizerGet t 2).first ≠ 0 ∧ (nmeaTokenizerGet t 2).first ≠ byte '1') :
    (nmeaReaderParseGsa t).exec r = { r with svStatus.usedInFixMask := 0 } := by
  have haccuracy : (nmeaReaderUpdateAccuracy (nmeaTokenizerGet t 15)).exec r = r := by
    simp only [nmeaReaderUpdateAccuracy, (h 15 (by decide) (by decide)).2, if_true, exec_pure]
  simp only [nmeaReaderParseGsa, exec_when, if_pos hstatus, exec_bind, haccuracy, exec_assign]
  -- the loop reads fields 3 to 14, all empty
  refine exec_nmeaReaderParseGsaLoop_of_empty (fun i hi => ?_) _
  obtain ⟨hlo, hhi⟩ := List.mem_range'_1.mp hi
  refine (h i hlo (lt_of_lt_of_le hhi ?_)).1
  decide

/-! ## §5 Two Runs -/

/-- The two lines leave the same fix, update marker, date and satellite status, and post the
same commands. -/
structure SameEffect (r : NmeaReader R) (line line' : List UInt8) : Prop where
  fix : ((nmeaReaderParseLine line).exec r).fix = ((nmeaReaderParseLine line').exec r).fix
  update : ((nmeaReaderParseLine line).exec r).update = ((nmeaReaderParseLine line').exec r).update
  date : ((nmeaReaderParseLine line).exec r).date = ((nmeaReaderParseLine line').exec r).date
  svStatus : ((nmeaReaderParseLine line).exec r).svStatus =
    ((nmeaReaderParseLine line').exec r).svStatus
  svStatusChanged : ((nmeaReaderParseLine line).exec r).svStatusChanged =
    ((nmeaReaderParseLine line').exec r).svStatusChanged
  posted : postedBy (nmeaReaderParseLine line) r = postedBy (nmeaReaderParseLine line') r

/-- The sentence ends before its fix status, which the further commas make an empty field. -/
def StatusCutOff (body : List UInt8) (k : Nat) : Prop :=
  (countedFields body).length ≤ 2 ∧ 2 < (countedFields (withEmptyFields body k)).length

instance (body : List UInt8) (k : Nat) : Decidable (StatusCutOff body k) := by
  unfold StatusCutOff
  infer_instance

/-- What a line does is what its branch leaves. -/
theorem sameEffect_of_exec {line line' : List UInt8} {r : NmeaReader R}
    (hlong : LongEnough line ↔ LongEnough line')
    (hbranch : (nmeaReaderBranch line).exec r = (nmeaReaderBranch line').exec r) :
    SameEffect r line line' := by
  have hexec : (nmeaReaderParseLine line).exec r = (nmeaReaderParseLine line').exec r := by
    simp only [exec_nmeaReaderParseLine, hlong, hbranch]
  -- what is posted is decided by the length and by the state the branch leaves
  have hposted : postedBy (nmeaReaderParseLine line) r = postedBy (nmeaReaderParseLine line') r := by
    simp only [postedBy_nmeaReaderParseLine, hlong, hbranch]
  exact ⟨by rw [hexec], by rw [hexec], by rw [hexec], by rw [hexec], by rw [hexec], hposted⟩

section TwoRuns

variable {body : List UInt8} {k : Nat} {line line' : List UInt8}

/-- A GSA sentence is looked at when its status has a first byte other than `1`, be it the comma
behind an empty status. -/
theorem gsa_status_iff (hcut : ¬StatusCutOff body k) :
    (firstByte body 2 ≠ 0 ∧ firstByte body 2 ≠ byte '1') ↔
      (firstByte (withEmptyFields body k) 2 ≠ 0 ∧
        firstByte (withEmptyFields body k) 2 ≠ byte '1') := by
  have hfield := field_withEmptyFields body k 2
  have hle := length_countedFields_le body k
  -- a status with bytes begins with the same one; an empty one must be there in both
  cases hbytes : field body 2 with
  | cons b rest => rw [firstByte_of_field hbytes, firstByte_of_field (hfield.trans hbytes)]
  | nil =>
    rw [firstByte_of_nil hbytes, firstByte_of_nil (hfield.trans hbytes)]
    by_cases hcount : 2 < (countedFields body).length
    · rw [if_pos hcount, if_pos (by omega)]
    · have hcount' : ¬2 < (countedFields (withEmptyFields body k)).length := fun hlt =>
        hcut ⟨Nat.le_of_not_lt hcount, hlt⟩
      rw [if_neg hcount, if_neg hcount']

theorem field_of_cutOff (hcut : StatusCutOff body k) {i : Nat} (hi : 2 ≤ i) : field body i = [] := by
  rw [← getD_countedFields, List.getElem?_eq_none (hcut.1.trans hi)]
  rfl

section CutOff

variable (hcut : StatusCutOff body k)
include hcut

/-- A GSA sentence that ends before its status does nothing. -/
theorem exec_nmeaReaderBranch_of_cutOff (hgsa : IsSentence (bytes "GSA") line)
    (hline : nmeaBody line = body) (r : NmeaReader R) : (nmeaReaderBranch line).exec r = r := by
  have hfirst : (nmeaTokenizerGet (nmeaTokenizerInit line) 2).first = 0 := by
    rw [first_nmeaTokenizerGet line (by decide), hline,
      firstByte_of_nil (field_of_cutOff hcut (Nat.le_refl 2)), if_neg (Nat.not_lt_of_le hcut.1)]
  rw [nmeaReaderBranch_gsa hgsa, nmeaReaderParseGsa, exec_when, if_neg fun h => h.1 hfirst]

/-- With an empty status and nothing behind it, it clears the mask. -/
theorem exec_nmeaReaderBranch_of_emptyStatus (hgsa : IsSentence (bytes "GSA") line')
    (hline : nmeaBody line' = withEmptyFields body k) (r : NmeaReader R) :
    (nmeaReaderBranch line').exec r = { r with svStatus.usedInFixMask := 0 } := by
  have hfield {i : Nat} (hi : 2 ≤ i) : field (nmeaBody line') i = [] := by
    rw [hline, field_withEmptyFields, field_of_cutOff hcut hi]
  -- the first byte is the comma behind the empty status
  have hfirst : (nmeaTokenizerGet (nmeaTokenizerInit line') 2).first = byte ',' := by
    rw [first_nmeaTokenizerGet line' (by decide), firstByte_of_nil (hfield (Nat.le_refl 2)), hline,
      if_pos hcut.2]
  -- the numbers are all empty
  have hempty : EmptyFrom (nmeaTokenizerInit line') 3 := by
    intro i hlo hi
    rw [text_nmeaTokenizerGet line' hi, len_nmeaTokenizerGet line' hi,
      hfield (Nat.le_of_succ_le hlo)]
    exact ⟨rfl, rfl⟩
  rw [nmeaReaderBranch_gsa hgsa, exec_nmeaReaderParseGsa_of_empty hempty r]
  rw [hfirst]
  decide

/-- So the two differ where there is a mask to be cleared. -/
theorem sameEffect_cutOff_iff (hgsa : IsSentence (bytes "GSA") line)
    (hgsa' : IsSentence (bytes "GSA") line') (hline : nmeaBody line = body)
    (hline' : nmeaBody line' = withEmptyFields body k) (r : NmeaReader R) :
    SameEffect r line line' ↔ r.svStatus.usedInFixMask = 0 := by
  have hexec := exec_nmeaReaderBranch_of_cutOff hcut hgsa hline r
  have hexec' := exec_nmeaReaderBranch_of_emptyStatus hcut hgsa' hline' r
  constructor
  · intro hsame
    -- the masks are the old one and zero
    have hmask := congrArg GpsSvStatus.usedInFixMask hsame.svStatus
    rwa [exec_nmeaReaderParseLine, exec_nmeaReaderParseLine, if_pos hgsa.1, if_pos hgsa'.1,
      usedInFixMask_posted, usedInFixMask_posted, hexec, hexec'] at hmask
  · intro hzero
    apply sameEffect_of_exec (iff_of_true hgsa.1 hgsa'.1)
    rw [hexec, hexec', ← hzero]

end CutOff

/-- **Commas at the end**: a line does the same with and without `k` further empty fields,
unless it is a GSA sentence that ends before its fix status, the commas supply that field, and
there is a mask to be cleared. -/
theorem empty_fields_iff (body : List UInt8) (k : Nat) (line line' : List UInt8)
    (hline : nmeaBody line = body) (hline' : nmeaBody line' = withEmptyFields body k)
    (h9 : 9 ≤ line.length) (h9' : 9 ≤ line'.length) (r : NmeaReader R) :
    SameEffect r line line' ↔
      ¬(IsSentence (bytes "GSA") line ∧ StatusCutOff body k ∧ r.svStatus.usedInFixMask ≠ 0) := by
  have hfields := sameFields_nmeaTokenizerInit hline hline'
  have hlong : LongEnough line ↔ LongEnough line' := by
    simp only [LongEnough, h9, h9', hline, hline', field_withEmptyFields]
  have hid : sentenceId line' = sentenceId line := by
    rw [sentenceId, sentenceId, hline, hline', field_withEmptyFields]
  by_cases hgsa : IsSentence (bytes "GSA") line
  · have hgsa' : IsSentence (bytes "GSA") line' := ⟨hlong.mp hgsa.1, hid.trans hgsa.2⟩
    by_cases hcut : StatusCutOff body k
    · -- the branch is entered for the longer line only
      rw [sameEffect_cutOff_iff hcut hgsa hgsa' hline hline']
      simp only [hgsa, hcut, true_and, ne_eq, not_not]
    · refine iff_of_true (sameEffect_of_exec hlong ?_) fun h => hcut h.2.1
      -- both enter the branch, or neither does
      have hstatus := gsa_status_iff hcut
      rw [← hline', ← hline, ← first_nmeaTokenizerGet line (by decide),
        ← first_nmeaTokenizerGet line' (by decide)] at hstatus
      rw [nmeaReaderBranch_gsa hgsa, nmeaReaderBranch_gsa hgsa',
        nmeaReaderParseGsa_congr hfields hstatus]
  · refine iff_of_true (sameEffect_of_exec hlong ?_) fun h => hgsa h.1
    -- the other branches see no difference
    unfold nmeaReaderBranch
    by_cases hlen : LongEnough line
    · have hne : sentenceId line ≠ bytes "GSA" := fun h => hgsa ⟨hlen, h⟩
      rw [Prog.when, Prog.when, if_pos hlen, if_pos (hlong.mp hlen), hid,
        nmeaReaderParseSentence_congr hfields hne]
    · rw [Prog.when, Prog.when, if_neg hlen, if_neg fun h => hlen (hlong.mpr h)]

/-- A position sentence may end in as many empty fields as one likes. -/
theorem empty_fields_gll :
    SameEffect (readerAfterInit (R := ℚ) ⟨true, true, true⟩) (bytes "$GPGLL,4916.45,N\n")
      (bytes "$GPGLL,4916.45,N,,,\n") :=
  (empty_fields_iff (bytes "GPGLL,4916.45,N") 3 _ _ (by decide) (by decide) (by decide)
    (by decide) _).mpr fun h => absurd h.1 (by decide +kernel)

/-- A reader whose mask says that satellite 7 is used. -/
def maskedReader : NmeaReader ℚ :=
  (nmeaReaderParseLine (bytes "$GPGSA,A,3,7\n")).exec (readerAfterInit ⟨true, true, true⟩)

/-- Cut off before the status, the sentence leaves the mask; with an empty status it clears it. -/
theorem empty_status_clears_mask :
    ¬SameEffect maskedReader (bytes "$GPGSA,A\n") (bytes "$GPGSA,A,,\n") := by
  intro h
  have hmask := congrArg GpsSvStatus.usedInFixMask h.svStatus
  revert hmask
  decide +kernel

end TwoRuns

end OdroidU2.Gps
