import OdroidU2.Gps.SatelliteList
import OdroidU2.Gps.TokenizerFields

/-!
# Sentences

One call of `nmea_reader_parse` in its parts: the branch of the sentence, the fix that is
posted after it, and the satellite status that is posted last.

- `nmeaReaderParseLine_eq` — a line is a sentence when it and its first field are long enough
- `exec_nmeaReaderParseLine`, `postedBy_nmeaReaderParseLine` — the reader after a line, and
  what is posted
- `fix_nmeaReaderBranch` — a branch stores the fields that it accepts, and flags them
-/

namespace OdroidU2.Gps

open OdroidU2.Foundations Prog

variable {R : Type} [Libc R]

/-! ## §1 Tokens and Fields -/

/-- `p[0]` of the token of field `i`: of an empty field it is the comma after it, of an
absent one the terminator of the dummy string. -/
def firstByte (body : List UInt8) (i : Nat) : UInt8 :=
  match field body i with
  | b :: _ => b
  | [] => if i < (countedFields body).length then byte ',' else 0

theorem firstByte_of_field {body : List UInt8} {i : Nat} {b : UInt8} {rest : List UInt8}
    (h : field body i = b :: rest) : firstByte body i = b := by
  simp [firstByte, h]

theorem firstByte_of_nil {body : List UInt8} {i : Nat} (h : field body i = []) :
    firstByte body i = if i < (countedFields body).length then byte ',' else 0 := by
  simp [firstByte, h]

theorem len_of_mem_tokensOf {fuel : Nat} {p : List UInt8} :
    ∀ tok ∈ tokensOf fuel p, tok.len = commaOffset tok.p := by
  -- token by token: each ends at the next comma
  induction fuel generalizing p with
  | zero => exact nofun
  | succ fuel ih =>
    intro tok htok
    rw [tokensOf] at htok
    split at htok
    · cases htok
    · rcases List.mem_cons.mp htok with rfl | hrest
      · rfl
      · exact ih tok hrest

/-- The token of a field is one of the table, or the one of the dummy string. -/
theorem nmeaTokenizerGet_cases (line : List UInt8) {i : Nat} (hi : i < maxNmeaTokens) :
    (∃ tok, nmeaTokenizerGet (nmeaTokenizerInit line) i = tok ∧ tok.p ≠ [] ∧
      tok.len = commaOffset tok.p ∧ i < (countedFields (nmeaBody line)).length) ∨
    (nmeaTokenizerGet (nmeaTokenizerInit line) i = Token.dummy ∧
      (countedFields (nmeaBody line)).length ≤ i) := by
  have hlen := length_nmeaTokenizerInit line
  rw [nmeaTokenizerGet]
  cases hget : (nmeaTokenizerInit line).tokens[i]? with
  | none =>
    -- past the end of the table
    have hle := List.getElem?_eq_none_iff.mp hget
    exact .inr ⟨rfl, by omega⟩
  | some tok =>
    -- a token of the table is a suffix of the body that begins a field
    obtain ⟨hlt, -⟩ := List.getElem?_eq_some_iff.mp hget
    have hmem := List.mem_of_getElem? hget
    rw [tokens_nmeaTokenizerInit] at hmem
    have hmem' := List.mem_of_mem_take hmem
    exact .inl ⟨tok, rfl, (tokensOf_suffix tok hmem').1, len_of_mem_tokensOf tok hmem', by omega⟩

theorem len_nmeaTokenizerGet (line : List UInt8) {i : Nat} (hi : i < maxNmeaTokens) :
    (nmeaTokenizerGet (nmeaTokenizerInit line) i).len = (field (nmeaBody line) i).length := by
  rw [← text_nmeaTokenizerGet line hi]
  rcases nmeaTokenizerGet_cases line hi with ⟨tok, htok, -, hlen, -⟩ | ⟨hdummy, -⟩
  · have hle := commaOffset_le tok.p
    rw [htok, Token.text, List.length_take]
    omega
  · rw [hdummy]
    rfl

theorem first_nmeaTokenizerGet (line : List UInt8) {i : Nat} (hi : i < maxNmeaTokens) :
    (nmeaTokenizerGet (nmeaTokenizerInit line) i).first = firstByte (nmeaBody line) i := by
  have htext := text_nmeaTokenizerGet line hi
  rcases nmeaTokenizerGet_cases line hi with ⟨tok, htok, hne, hlen, hcount⟩ | ⟨hdummy, hcount⟩
  · rw [htok, Token.text, hlen] at htext
    rw [htok, Token.first]
    obtain ⟨b, rest, hp⟩ := List.exists_cons_of_ne_nil hne
    by_cases hb : b = byte ','
    · -- an empty field: the comma behind it
      rw [firstByte_of_nil (by rw [← htext, hp]; simp [commaOffset, hb]), if_pos hcount, hp]
      exact hb
    · rw [hp]
      -- the field is not empty, and the token begins with its first byte
      have hfield : field (nmeaBody line) i = b :: rest.take (commaOffset rest) := by
        rw [← htext, hp]
        simp [commaOffset, hb]
      exact (firstByte_of_field hfield).symm
  · -- the dummy token begins with the terminator
    rw [hdummy] at htext ⊢
    rw [firstByte_of_nil htext.symm, if_neg (Nat.not_lt_of_le hcount)]
    rfl

/-! ## §2 The Parts of a Call -/

/-- The sentence id, whose first two characters are ignored. -/
def sentenceId (line : List UInt8) : List UInt8 := ((field (nmeaBody line) 0).drop 2).take 3

/-- Neither discarded as too short nor ignored for the length of its id. -/
def LongEnough (line : List UInt8) : Prop :=
  9 ≤ line.length ∧ 5 ≤ (field (nmeaBody line) 0).length

instance (line : List UInt8) : Decidable (LongEnough line) := by unfold LongEnough; infer_instance

/-- A sentence of this kind. -/
def IsSentence (id line : List UInt8) : Prop := LongEnough line ∧ sentenceId line = id

instance decidableIsSentence (id line : List UInt8) : Decidable (IsSentence id line) := by
  unfold IsSentence
  infer_instance

/-- A line is a sentence of one kind. -/
theorem IsSentence.ne {id id' line : List UInt8} (h : IsSentence id line) (hne : id ≠ id') :
    ¬IsSentence id' line := fun h' => hne (h.2.symm.trans h'.2)

theorem sentenceId_eq {line : List UInt8}
    (hlen : 5 ≤ (nmeaTokenizerGet (nmeaTokenizerInit line) 0).len) :
    ((nmeaTokenizerGet (nmeaTokenizerInit line) 0).p.drop 2).take 3 = sentenceId line := by
  rw [sentenceId, ← text_nmeaTokenizerGet line (by decide), Token.text, List.drop_take,
    List.take_take]
  congr 1
  omega

/-- `nmea_reader_parse` looks at sentences only. -/
theorem nmeaReaderParseLine_eq (line : List UInt8) :
    nmeaReaderParseLine (R := R) line = Prog.when (LongEnough line) (do
      nmeaReaderParseSentence (nmeaTokenizerInit line) (sentenceId line)
      nmeaReaderPostFix
      nmeaReaderPostSvStatus) := by
  rw [nmeaReaderParseLine]
  unfold LongEnough Prog.when
  -- the two tests of the source, on the line and on its first token
  by_cases h9 : 9 ≤ line.length
  · simp only [h9, if_true, true_and, ← len_nmeaTokenizerGet line (i := 0) (by decide)]
    by_cases h5 : 5 ≤ (nmeaTokenizerGet (nmeaTokenizerInit line) 0).len
    · rw [if_pos h5, if_pos h5, sentenceId_eq h5]
    · rw [if_neg h5, if_neg h5]
  · simp only [h9, if_false, false_and]

/-- The branch of a line, without what is posted after it. -/
def nmeaReaderBranch (line : List UInt8) : NmeaM R Unit :=
  Prog.when (LongEnough line) (nmeaReaderParseSentence (nmeaTokenizerInit line) (sentenceId line))

section Branches

variable {line : List UInt8}

theorem nmeaReaderBranch_of_isSentence {id : List UInt8} (h : IsSentence id line) :
    nmeaReaderBranch (R := R) line = nmeaReaderParseSentence (nmeaTokenizerInit line) id := by
  rw [nmeaReaderBranch, Prog.when, if_pos h.1, h.2]

theorem nmeaReaderBranch_gga (h : IsSentence (bytes "GGA") line) :
    nmeaReaderBranch (R := R) line = nmeaReaderParseGga (nmeaTokenizerInit line) := by
  rw [nmeaReaderBranch_of_isSentence h, nmeaReaderParseSentence, if_pos rfl]

theorem nmeaReaderBranch_gsa (h : IsSentence (bytes "GSA") line) :
    nmeaReaderBranch (R := R) line = nmeaReaderParseGsa (nmeaTokenizerInit line) := by
  rw [nmeaReaderBranch_of_isSentence h, nmeaReaderParseSentence, if_neg (by decide), if_pos rfl]

theorem nmeaReaderBranch_gll (h : IsSentence (bytes "GLL") line) :
    nmeaReaderBranch (R := R) line = nmeaReaderParseGll (nmeaTokenizerInit line) := by
  rw [nmeaReaderBranch_of_isSentence h, nmeaReaderParseSentence, if_neg (by decide),
    if_neg (by decide), if_pos rfl]

theorem nmeaReaderBranch_rmc (h : IsSentence (bytes "RMC") line) :
    nmeaReaderBranch (R := R) line = nmeaReaderParseRmc (nmeaTokenizerInit line) := by
  rw [nmeaReaderBranch_of_isSentence h, nmeaReaderParseSentence, if_neg (by decide),
    if_neg (by decide), if_neg (by decide), if_pos rfl]

theorem nmeaReaderBranch_gsv (h : IsSentence (bytes "GSV") line) :
    nmeaReaderBranch (R := R) line = nmeaReaderParseGsv (nmeaTokenizerInit line) := by
  rw [nmeaReaderBranch_of_isSentence h, nmeaReaderParseSentence_gsv]

/-- A line of any other kind is ignored. -/
theorem nmeaReaderBranch_other (hgga : ¬IsSentence (bytes "GGA") line)
    (hgsa : ¬IsSentence (bytes "GSA") line) (hgll : ¬IsSentence (bytes "GLL") line)
    (hrmc : ¬IsSentence (bytes "RMC") line) (hgsv : ¬IsSentence (bytes "GSV") line) :
    nmeaReaderBranch (R := R) line = pure () := by
  rw [nmeaReaderBranch, Prog.when]
  split
  · rename_i hlong
    rw [nmeaReaderParseSentence, if_neg fun h => hgga ⟨hlong, h⟩, if_neg fun h => hgsa ⟨hlong, h⟩,
      if_neg fun h => hgll ⟨hlong, h⟩, if_neg fun h => hrmc ⟨hlong, h⟩,
      if_neg fun h => hgsv ⟨hlong, h⟩]
  · rfl

end Branches

/-! ## §3 What Is Posted -/

/-- A command that is posted. -/
def Action.posted? : Action → Option Cmd
  | .post cmd => some cmd
  | _ => none

/-- The commands a program posts, in order. -/
def postedBy {α : Type} (p : NmeaM R α) (r : NmeaReader R) : List Cmd :=
  (p.log r).filterMap fun e => e.1.posted?

/-- The fix is posted: it has flags, a position sentence asked for it, and a callback wants it. -/
def NmeaReader.FixDue (r : NmeaReader R) : Prop := (r.fix.flags ≠ 0 ∧ r.update) ∧ r.callback

instance (r : NmeaReader R) : Decidable r.FixDue := by unfold NmeaReader.FixDue; infer_instance

/-- The satellite status is posted. -/
def NmeaReader.SvStatusDue (r : NmeaReader R) : Prop := r.svStatusChanged ∧ r.svStatusCallback

instance (r : NmeaReader R) : Decidable r.SvStatusDue := by
  unfold NmeaReader.SvStatusDue
  infer_instance

/-- The reader after the fix has been posted. -/
def NmeaReader.fixPosted (r : NmeaReader R) : NmeaReader R :=
  if r.FixDue then { r with fix.flags := 0, update := false } else r

/-- The reader after the satellite status has been posted. -/
def NmeaReader.svStatusPosted (r : NmeaReader R) : NmeaReader R :=
  if r.SvStatusDue then { r with svStatusChanged := false } else r

/-- The date of the reader: year, month and day. -/
def NmeaReader.date (r : NmeaReader R) : Int × Int × Int := (r.utcYear, r.utcMon, r.utcDay)

/-- A property of the reader at the moment its fix is posted. -/
def AtFix (Q : NmeaReader R → Prop) (a : Action) (r : NmeaReader R) : Prop :=
  a = .post .locationCb → Q r

section Posts

omit [Libc R]

@[simp] theorem exec_nmeaReaderPostFix (r : NmeaReader R) :
    nmeaReaderPostFix.exec r = r.fixPosted := by
  simp only [nmeaReaderPostFix, exec_bind, val_read, exec_read, exec_when,
    exec_setPendingCallback, exec_assign, NmeaReader.fixPosted, NmeaReader.FixDue]
  rw [ite_and (P := r.fix.flags ≠ 0 ∧ r.update = true)]

@[simp] theorem exec_nmeaReaderPostSvStatus (r : NmeaReader R) :
    nmeaReaderPostSvStatus.exec r = r.svStatusPosted := by
  simp only [nmeaReaderPostSvStatus, exec_bind, val_read, exec_read, exec_when,
    exec_setPendingCallback, exec_assign, NmeaReader.svStatusPosted, NmeaReader.SvStatusDue]
  rw [ite_and]

section PostedBy

variable {α β : Type} (r : NmeaReader R)

theorem postedBy_bind (p : NmeaM R α) (f : α → NmeaM R β) :
    postedBy (p >>= f) r = postedBy p r ++ postedBy (f (p.val r)) (p.exec r) := by
  rw [postedBy, log_bind, List.filterMap_append]
  rfl

theorem postedBy_read_bind (f : NmeaReader R → NmeaM R β) :
    postedBy (read >>= f) r = postedBy (f r) r := by
  rw [postedBy_bind]
  rfl

theorem postedBy_when (c : Prop) [Decidable c] (p : NmeaM R Unit) :
    postedBy (Prog.when c p) r = if c then postedBy p r else [] := by
  unfold Prog.when
  split
  · rfl
  · rfl

/-- What is posted when both conditions hold. -/
theorem postedBy_when_when (c d : Prop) [Decidable c] [Decidable d] (p : NmeaM R Unit) :
    postedBy (Prog.when c (Prog.when d p)) r = if c ∧ d then postedBy p r else [] := by
  rw [postedBy_when, postedBy_when, ite_and]

end PostedBy

theorem postedBy_nmeaReaderPostFix (r : NmeaReader R) :
    postedBy nmeaReaderPostFix r = if r.FixDue then [.locationCb] else [] := by
  rw [nmeaReaderPostFix, postedBy_read_bind, postedBy_when_when]
  rfl

theorem postedBy_nmeaReaderPostSvStatus (r : NmeaReader R) :
    postedBy nmeaReaderPostSvStatus r = if r.SvStatusDue then [.svStatusCb] else [] := by
  rw [nmeaReaderPostSvStatus, postedBy_read_bind, postedBy_when_when]
  rfl

/-- Posting the fix does not decide whether the satellite status is posted. -/
theorem svStatusDue_fixPosted (r : NmeaReader R) : r.fixPosted.SvStatusDue ↔ r.SvStatusDue := by
  unfold NmeaReader.fixPosted
  split <;> exact Iff.rfl

/-- The posts leave the satellite status alone. -/
theorem svStatus_posted (r : NmeaReader R) : r.fixPosted.svStatusPosted.svStatus = r.svStatus := by
  unfold NmeaReader.svStatusPosted NmeaReader.fixPosted
  split_ifs <;> rfl

theorem usedInFixMask_posted (r : NmeaReader R) :
    r.fixPosted.svStatusPosted.svStatus.usedInFixMask = r.svStatus.usedInFixMask := by
  rw [svStatus_posted]

theorem emits_atFix_nmeaReaderPostFix {Q : NmeaReader R → Prop} (r : NmeaReader R) :
    nmeaReaderPostFix.Emits (AtFix Q) r ↔ (r.FixDue → Q r) := by
  simp [nmeaReaderPostFix, AtFix, NmeaReader.FixDue, and_imp]

theorem emits_atFix_nmeaReaderPostSvStatus {Q : NmeaReader R → Prop} (r : NmeaReader R) :
    nmeaReaderPostSvStatus.Emits (AtFix Q) r := by
  simp [nmeaReaderPostSvStatus, AtFix]

end Posts

/-- A branch posts nothing. -/
theorem emits_nmeaReaderBranch (line : List UInt8) (r : NmeaReader R) :
    (nmeaReaderBranch line).Emits (fun a _ => a.posted? = none) r := by
  have h : KeptByGsv (fun _ : NmeaReader R => True) (fun a _ => a.posted? = none) :=
    { fix := fun _ _ _ => ⟨trivial, rfl⟩
      date := fun _ _ _ _ _ => ⟨trivial, rfl⟩
      mask := fun _ _ _ => ⟨trivial, rfl, fun _ => rfl⟩
      changed := fun _ _ _ => ⟨trivial, rfl⟩
      update := fun _ _ _ => ⟨trivial, rfl⟩
      svStatus := fun _ _ _ => ⟨trivial, rfl, fun _ => rfl⟩ }
  exact ((Keeps.when fun _ => keeps_nmeaReaderParseSentence h _ _) r trivial).2

theorem postedBy_nmeaReaderBranch (line : List UInt8) (r : NmeaReader R) :
    postedBy (nmeaReaderBranch line) r = [] := by
  apply List.filterMap_eq_nil_iff.mpr
  intro e he
  exact emits_nmeaReaderBranch line r e he

/-- **The reader after a line**: its branch, then the two posts. -/
theorem exec_nmeaReaderParseLine (line : List UInt8) (r : NmeaReader R) :
    (nmeaReaderParseLine line).exec r =
      if LongEnough line then ((nmeaReaderBranch line).exec r).fixPosted.svStatusPosted else r := by
  rw [nmeaReaderParseLine_eq, nmeaReaderBranch]
  simp only [exec_when, exec_bind, exec_nmeaReaderPostFix, exec_nmeaReaderPostSvStatus]
  split
  · rfl
  · rfl

/-- **What a line posts** depends on the reader its branch leaves. -/
theorem postedBy_nmeaReaderParseLine (line : List UInt8) (r : NmeaReader R) :
    postedBy (nmeaReaderParseLine line) r =
      if LongEnough line then
        (if ((nmeaReaderBranch line).exec r).FixDue then [.locationCb] else []) ++
        if ((nmeaReaderBranch line).exec r).SvStatusDue then [.svStatusCb] else []
      else [] := by
  have hbranch := postedBy_nmeaReaderBranch line r
  rw [nmeaReaderParseLine_eq]
  unfold nmeaReaderBranch at hbranch ⊢
  by_cases h : LongEnough line
  · simp only [Prog.when, if_pos h] at hbranch ⊢
    -- the branch posts nothing; the posts come after it
    rw [postedBy_bind, postedBy_bind, hbranch, exec_nmeaReaderPostFix, postedBy_nmeaReaderPostFix,
      postedBy_nmeaReaderPostSvStatus]
    simp only [svStatusDue_fixPosted, List.nil_append]
  · simp only [Prog.when, if_neg h]
    rfl

/-- The callbacks that are installed, for the fix and for the satellite status. -/
def NmeaReader.callbacks (r : NmeaReader R) : Bool × Bool := (r.callback, r.svStatusCallback)

/-- Nothing the parser does installs or removes a callback. -/
theorem callbacks_nmeaReaderBranch (line : List UInt8) (r : NmeaReader R) :
    ((nmeaReaderBranch line).exec r).callbacks = r.callbacks := by
  have h : KeptByGsv (fun t : NmeaReader R => t.callbacks = r.callbacks) (fun _ _ => True) :=
    { fix := fun _ _ ht => ⟨ht, trivial⟩
      date := fun _ _ _ _ ht => ⟨ht, trivial⟩
      mask := fun _ _ ht => ⟨ht, trivial, fun _ => trivial⟩
      changed := fun _ _ ht => ⟨ht, trivial⟩
      update := fun _ _ ht => ⟨ht, trivial⟩
      svStatus := fun _ _ ht => ⟨ht, trivial, fun _ => trivial⟩ }
  exact ((Keeps.when fun _ => keeps_nmeaReaderParseSentence h _ _) r rfl).1

/-- The callbacks stay as they are. -/
theorem callbacks_nmeaReaderParseLine (line : List UInt8) (r : NmeaReader R) :
    ((nmeaReaderParseLine line).exec r).callbacks = r.callbacks := by
  rw [exec_nmeaReaderParseLine]
  split
  · rw [← callbacks_nmeaReaderBranch line r]
    unfold NmeaReader.svStatusPosted NmeaReader.fixPosted
    split_ifs <;> rfl
  · rfl

/-- The fix is posted by lines that are long enough, when it is due. -/
theorem locationCb_mem_postedBy (line : List UInt8) (r : NmeaReader R) :
    .locationCb ∈ postedBy (nmeaReaderParseLine line) r ↔
      LongEnough line ∧ ((nmeaReaderBranch line).exec r).FixDue := by
  rw [postedBy_nmeaReaderParseLine]
  by_cases hlong : LongEnough line
  · by_cases hdue : ((nmeaReaderBranch line).exec r).FixDue
    · simp [hlong, hdue]
    · rw [if_pos hlong, if_neg hdue]
      -- the other post of the line is that of the satellites
      refine iff_of_false (fun h => ?_) fun h => hdue h.2
      split at h <;> simp at h
  · rw [if_neg hlong]
    exact iff_of_false List.not_mem_nil fun h => hlong h.1

/-- The fix after a line: posting it clears the flags. -/
theorem fix_nmeaReaderParseLine (line : List UInt8) (r : NmeaReader R) :
    ((nmeaReaderParseLine line).exec r).fix =
      if LongEnough line ∧ ((nmeaReaderBranch line).exec r).FixDue then
        { ((nmeaReaderBranch line).exec r).fix with flags := 0 }
      else ((nmeaReaderBranch line).exec r).fix := by
  have hsv (t : NmeaReader R) : t.svStatusPosted.fix = t.fix := by
    unfold NmeaReader.svStatusPosted
    split <;> rfl
  rw [exec_nmeaReaderParseLine]
  by_cases hlong : LongEnough line
  · -- the flags are cleared by the first post
    rw [if_pos hlong, hsv, NmeaReader.fixPosted]
    by_cases hdue : ((nmeaReaderBranch line).exec r).FixDue
    · rw [if_pos hdue, if_pos ⟨hlong, hdue⟩]
    · rw [if_neg hdue, if_neg fun h => hdue h.2]
  · rw [if_neg hlong, if_neg fun h => hlong h.1, nmeaReaderBranch, exec_when, if_neg hlong]

/-- A property at the fix is one of the reader the branch leaves, if the fix is posted. -/
theorem emits_atFix_nmeaReaderParseLine {Q : NmeaReader R → Prop} (line : List UInt8)
    (r : NmeaReader R) :
    (nmeaReaderParseLine line).Emits (AtFix Q) r ↔
      (LongEnough line → ((nmeaReaderBranch line).exec r).FixDue →
        Q ((nmeaReaderBranch line).exec r)) := by
  -- the branch posts nothing
  have hquiet : (nmeaReaderBranch line).Emits (AtFix Q) r := by
    refine (emits_nmeaReaderBranch line r).mono fun a t ha hpost => ?_
    rw [hpost] at ha
    cases ha
  rw [nmeaReaderParseLine_eq]
  unfold nmeaReaderBranch at hquiet ⊢
  by_cases h : LongEnough line
  · simp only [Prog.when, if_pos h] at hquiet ⊢
    simp only [emits_bind, hquiet, emits_atFix_nmeaReaderPostFix,
      emits_atFix_nmeaReaderPostSvStatus, true_and, and_true, h, true_implies]
  · rw [Prog.when, if_neg h]
    exact iff_of_true (emits_pure _ _) fun h' => absurd h' h

end OdroidU2.Gps
