import OdroidU2.Gps.ExactLibc
import OdroidU2.Gps.ReaderInvariants
import Mathlib

/-!
# The Satellite List

The GSV branch appends to `sv_status.sv_list` at an index bounded only by the number of
satellites the sentence announces.  This file computes where one sentence leaves
`num_svs` (`exec_nmeaReaderParseGsvLoop`) and from it exactly which byte streams keep
every store inside the array.

The argument is a step lemma for each layer (the loop, the sentence, the byte) and one
induction over the stream.
-/

namespace OdroidU2.Gps

open OdroidU2.Foundations Prog

variable {R : Type} [Libc R]

/-! ## §1 What Must Hold -/

/-- A store into the satellite list is inside the array. -/
def SvStoreInBounds : Action → NmeaReader R → Prop
  | .svStore curr, _ => 0 ≤ curr ∧ curr < gpsMaxSvs
  | _, _ => True

/-- `num_svs` counts entries of the array. -/
def NumSvsInRange (r : NmeaReader R) : Prop :=
  0 ≤ r.svStatus.numSvs ∧ r.svStatus.numSvs ≤ gpsMaxSvs

/-- A run stores inside the array only and leaves a valid count. -/
def SvSafe {α : Type} (p : NmeaM R α) (r : NmeaReader R) : Prop :=
  p.Emits SvStoreInBounds r ∧ NumSvsInRange (p.exec r)

/-! ## §2 What One GSV Sentence Asks For -/

/-- The PRN of slot `i` of a GSV sentence. -/
def gsvPrn (tzer : NmeaTokenizer) (i : Nat) : Int := str2int (nmeaTokenizerGet tzer (i * 4 + 4)).text

/-- How many of the `n` slots from `i` on carry a satellite, that is, a positive PRN. -/
def gsvSatellites (tzer : NmeaTokenizer) (n i : Nat) : Nat :=
  (List.range' i n).countP (fun i => 0 < gsvPrn tzer i)

/-- Is this line a GSV sentence? -/
def IsGsv (line : List UInt8) : Prop :=
  let tok := nmeaTokenizerGet (nmeaTokenizerInit line) 0
  9 ≤ line.length ∧ 5 ≤ tok.len ∧ (tok.p.drop 2).take 3 = bytes "GSV"

instance (line : List UInt8) : Decidable (IsGsv line) := by unfold IsGsv; infer_instance

/-- The count a GSV sentence starts from: sentence number 1 empties the list. -/
def gsvBase (tzer : NmeaTokenizer) (numSvs : Int) : Int :=
  if str2int (nmeaTokenizerGet tzer 2).text = 1 then 0 else numSvs

/-- The sentence leaves room: it announces at most 32 satellites, or those it carries
fit behind the ones already listed. -/
def GsvFits (r : NmeaReader R) (line : List UInt8) : Prop :=
  let tzer := nmeaTokenizerInit line
  IsGsv line → str2int (nmeaTokenizerGet tzer 3).text ≤ gpsMaxSvs ∨
    gsvBase tzer r.svStatus.numSvs + gsvSatellites tzer 4 0 ≤ gpsMaxSvs

/-- Every sentence handed to `nmea_reader_parse` fits. -/
def ParsesFit : Action → NmeaReader R → Prop
  | .parse line, r => GsvFits r line
  | _, _ => True

/-! ## §3 The Loop -/

/-- Where the loop leaves `num_svs`, from `curr` with `n` slots left. -/
def gsvNumSvs (tzer : NmeaTokenizer) (noSatellites : Int) (n i : Nat) (curr : Int) : Int :=
  if curr < noSatellites then min noSatellites (curr + gsvSatellites tzer n i) else curr

theorem gsvSatellites_succ (tzer : NmeaTokenizer) (n i : Nat) :
    gsvSatellites tzer (n + 1) i =
      gsvSatellites tzer n (i + 1) + if 0 < gsvPrn tzer i then 1 else 0 := by
  simp [gsvSatellites, List.range'_succ, List.countP_cons]

theorem le_gsvNumSvs (tzer : NmeaTokenizer) (noSatellites : Int) (n i : Nat) (curr : Int) :
    curr ≤ gsvNumSvs tzer noSatellites n i curr := by
  unfold gsvNumSvs
  split <;> omega

/-- One slot of the loop: a positive PRN moves the count on, any other leaves it. -/
theorem gsvNumSvs_succ (tzer : NmeaTokenizer) (noSatellites : Int) (n i : Nat) (curr : Int) :
    gsvNumSvs tzer noSatellites (n + 1) i curr =
      if curr < noSatellites then
        if 0 < gsvPrn tzer i then gsvNumSvs tzer noSatellites n (i + 1) (curr + 1)
        else gsvNumSvs tzer noSatellites n (i + 1) curr
      else curr := by
  unfold gsvNumSvs
  rw [gsvSatellites_succ]
  split_ifs <;> push_cast <;> omega

omit [Libc R] in
@[simp] theorem numSvs_modifySv (r : NmeaReader R) (curr : Int) (f : GpsSvInfo R → GpsSvInfo R) :
    (r.modifySv curr f).svStatus.numSvs = r.svStatus.numSvs := by
  unfold NmeaReader.modifySv
  split <;> rfl

omit [Libc R] in
@[simp] theorem exec_svStore (r : NmeaReader R) (curr : Int) (f : GpsSvInfo R → GpsSvInfo R) :
    (svStore curr f).exec r = r.modifySv curr f := rfl

omit [Libc R] in
@[simp] theorem emits_svStore (r : NmeaReader R) (curr : Int) (f : GpsSvInfo R → GpsSvInfo R) :
    (svStore curr f).Emits SvStoreInBounds r ↔ 0 ≤ curr ∧ curr < gpsMaxSvs :=
  emits_act _ _ _

@[simp] theorem numSvs_nmeaReaderStoreSv (tzer : NmeaTokenizer) (i : Nat) (curr prn : Int)
    (r : NmeaReader R) :
    ((nmeaReaderStoreSv tzer i curr prn).exec r).svStatus.numSvs = r.svStatus.numSvs + 1 := by
  simp [nmeaReaderStoreSv]

@[simp] theorem emits_nmeaReaderStoreSv (tzer : NmeaTokenizer) (i : Nat) (curr prn : Int)
    (r : NmeaReader R) :
    (nmeaReaderStoreSv tzer i curr prn).Emits SvStoreInBounds r ↔ 0 ≤ curr ∧ curr < gpsMaxSvs := by
  simp [nmeaReaderStoreSv, SvStoreInBounds]

/-- The loop's final count. -/
theorem numSvs_nmeaReaderParseGsvLoop (tzer : NmeaTokenizer) (noSatellites : Int) (n i : Nat)
    (r : NmeaReader R) :
    ((nmeaReaderParseGsvLoop tzer noSatellites n i r.svStatus.numSvs).exec r).svStatus.numSvs =
      gsvNumSvs tzer noSatellites n i r.svStatus.numSvs := by
  induction n generalizing i r with
  | zero =>
    simp only [nmeaReaderParseGsvLoop, exec_pure, gsvNumSvs, gsvSatellites, List.range'_zero,
      List.countP_nil]
    split <;> omega
  | succ n ih =>
    rw [gsvNumSvs_succ, nmeaReaderParseGsvLoop, exec_bind, exec_read, val_read, exec_when]
    by_cases hroom : r.svStatus.numSvs < noSatellites
    · rw [if_pos hroom, if_pos hroom]
      by_cases hprn : 0 < gsvPrn tzer i
      · -- an entry with a number is stored and counted
        have hih := ih (i + 1) ((nmeaReaderStoreSv tzer i r.svStatus.numSvs (gsvPrn tzer i)).exec r)
        rw [numSvs_nmeaReaderStoreSv] at hih
        rw [if_pos hprn, ← hih]
        simp only [gsvPrn] at hprn
        simp [hprn, gsvPrn]
      · -- an entry without one is passed over, and not counted
        rw [if_neg hprn, ← ih (i + 1) r]
        simp only [gsvPrn] at hprn
        simp [hprn]
    · -- the announced number is reached: no entry is looked at any more
      rw [if_neg hroom, if_neg hroom]

/-- The loop stores inside the array exactly when it ends with a valid count: the stores
are at the indices from the first count up to the last. -/
theorem emits_nmeaReaderParseGsvLoop (tzer : NmeaTokenizer) (noSatellites : Int) (n i : Nat)
    (r : NmeaReader R) (hr : NumSvsInRange r) :
    (nmeaReaderParseGsvLoop tzer noSatellites n i r.svStatus.numSvs).Emits SvStoreInBounds r ↔
      gsvNumSvs tzer noSatellites n i r.svStatus.numSvs ≤ gpsMaxSvs := by
  induction n generalizing i r with
  | zero =>
    have hcount := hr.2
    simp only [nmeaReaderParseGsvLoop, emits_pure, gsvNumSvs, gsvSatellites, List.range'_zero,
      List.countP_nil, true_iff]
    split <;> omega
  | succ n ih =>
    rw [gsvNumSvs_succ, nmeaReaderParseGsvLoop, emits_bind, exec_read, val_read, emits_when]
    by_cases hroom : r.svStatus.numSvs < noSatellites
    · rw [if_pos hroom]
      by_cases hprn : 0 < gsvPrn tzer i
      · rw [if_pos hprn]
        simp only [gsvPrn] at hprn
        simp only [hroom, hprn, if_true, true_implies, emits_read, true_and, emits_bind,
          emits_nmeaReaderStoreSv]
        have hnext := numSvs_nmeaReaderStoreSv tzer i r.svStatus.numSvs
          (str2int (nmeaTokenizerGet tzer (i * 4 + 4)).text) r
        -- the index is valid exactly while the list is not full
        rcases lt_or_eq_of_le hr.2 with hlt | hfull
        · have hih := ih (i + 1) _ (show NumSvsInRange
            ((nmeaReaderStoreSv tzer i r.svStatus.numSvs _).exec r) from by
              unfold NumSvsInRange
              rw [hnext]
              exact ⟨by linarith [hr.1], by omega⟩)
          rw [hnext] at hih
          rw [hih]
          exact and_iff_right ⟨hr.1, hlt⟩
        · -- the list is full: the store is out of bounds, and the count passes 32
          have hle := le_gsvNumSvs tzer noSatellites n (i + 1) (r.svStatus.numSvs + 1)
          constructor
          · rintro ⟨⟨-, hlt⟩, -⟩
            omega
          · intro hle'
            omega
      · rw [if_neg hprn, ← ih (i + 1) r hr]
        simp only [gsvPrn] at hprn
        simp [hprn, hroom]
    · simp [hroom, hr.2]

/-! ## §4 One Sentence -/

omit [Libc R] in
/-- The branches other than GSV leave the satellite list and its count alone. -/
theorem keptByParse_numSvs (n : Int) :
    KeptByParse (fun r : NmeaReader R => r.svStatus.numSvs = n) SvStoreInBounds where
  fix _ _ hr := ⟨hr, trivial⟩
  date _ _ _ _ hr := ⟨hr, trivial⟩
  mask _ _ hr := ⟨hr, trivial, fun _ => trivial⟩
  changed _ _ hr := ⟨hr, trivial⟩
  update _ _ hr := ⟨hr, trivial⟩

omit [Libc R] in
theorem allowsPosts_numSvs (n : Int) :
    AllowsPosts (fun r : NmeaReader R => r.svStatus.numSvs = n) SvStoreInBounds where
  locationCb _ _ _ := trivial
  svStatusCb _ _ _ := trivial

omit [Libc R] in
/-- A run that keeps the count and does not store is safe. -/
theorem svSafe_of_keeps {α : Type} {p : NmeaM R α} {r : NmeaReader R}
    (hp : Keeps (fun t : NmeaReader R => t.svStatus.numSvs = r.svStatus.numSvs) SvStoreInBounds p)
    (hr : NumSvsInRange r) : SvSafe p r := by
  obtain ⟨hcount, hstores⟩ := hp r rfl
  refine ⟨hstores, ?_⟩
  rw [NumSvsInRange, hcount]
  exact hr

omit [Libc R] in
/-- What keeps the count does not matter to the safety of what came before it. -/
theorem svSafe_bind_iff {α β : Type} {p : NmeaM R α} {q : α → NmeaM R β} {r : NmeaReader R}
    (hq : ∀ n a, Keeps (fun t : NmeaReader R => t.svStatus.numSvs = n) SvStoreInBounds (q a)) :
    SvSafe (p >>= q) r ↔ SvSafe p r := by
  obtain ⟨hcount, hstores⟩ := hq (p.exec r).svStatus.numSvs (p.val r) (p.exec r) rfl
  simp only [SvSafe, emits_bind, exec_bind, NumSvsInRange, hcount, hstores, and_true]

/-- The count after the loop is valid exactly when the sentence leaves room. -/
theorem gsvNumSvs_le_iff (tzer : NmeaTokenizer) (noSatellites : Int) (n i : Nat) {curr : Int}
    (hcurr : curr ≤ gpsMaxSvs) :
    gsvNumSvs tzer noSatellites n i curr ≤ gpsMaxSvs ↔
      noSatellites ≤ gpsMaxSvs ∨ curr + gsvSatellites tzer n i ≤ gpsMaxSvs := by
  unfold gsvNumSvs
  split <;> omega

omit [Libc R] in
/-- What stores inside the array beforehand only sets the stage. -/
theorem svSafe_bind_of_emits {α β : Type} {p : NmeaM R α} {q : α → NmeaM R β}
    {r : NmeaReader R} (hp : p.Emits SvStoreInBounds r) :
    SvSafe (p >>= q) r ↔ SvSafe (q (p.val r)) (p.exec r) := by
  simp only [SvSafe, emits_bind, exec_bind, hp, true_and]

omit [Libc R] in
theorem numSvs_nmeaReaderStartGsv (sentence : Int) (r : NmeaReader R) :
    ((nmeaReaderStartGsv sentence).exec r).svStatus.numSvs =
      if sentence = 1 then 0 else r.svStatus.numSvs := by
  rw [nmeaReaderStartGsv, exec_when]
  split <;> rfl

omit [Libc R] in
theorem emits_nmeaReaderStartGsv (sentence : Int) (r : NmeaReader R) :
    (nmeaReaderStartGsv sentence).Emits SvStoreInBounds r := by
  simp [nmeaReaderStartGsv, SvStoreInBounds]

/-- The GSV branch is safe exactly when the sentence leaves room. -/
theorem svSafe_nmeaReaderParseGsv_iff (tzer : NmeaTokenizer) (r : NmeaReader R)
    (hr : NumSvsInRange r) :
    SvSafe (nmeaReaderParseGsv tzer) r ↔
      (str2int (nmeaTokenizerGet tzer 3).text ≤ gpsMaxSvs ∨
        gsvBase tzer r.svStatus.numSvs + gsvSatellites tzer 4 0 ≤ gpsMaxSvs) := by
  unfold nmeaReaderParseGsv
  set noSatellites := str2int (nmeaTokenizerGet tzer 3).text
  set sentence := str2int (nmeaTokenizerGet tzer 2).text with hsentence
  by_cases hany : 0 < noSatellites
  · -- `start` is the reader once sentence number 1 has emptied the list
    set start := (nmeaReaderStartGsv sentence).exec r with hstart
    have hbase : start.svStatus.numSvs = gsvBase tzer r.svStatus.numSvs :=
      numSvs_nmeaReaderStartGsv sentence r
    have hrange : NumSvsInRange start := by
      rw [NumSvsInRange, hbase, gsvBase]
      split
      · exact ⟨le_rfl, by decide⟩
      · exact hr
    have hcount := numSvs_nmeaReaderParseGsvLoop tzer noSatellites 4 0 start
    -- the last count of the loop tells whether all its stores were in bounds
    have hstores := emits_nmeaReaderParseGsvLoop tzer noSatellites 4 0 start hrange
    have hge := le_gsvNumSvs tzer noSatellites 4 0 start.svStatus.numSvs
    rw [when, if_pos hany, svSafe_bind_of_emits (emits_nmeaReaderStartGsv sentence r),
      svSafe_bind_of_emits (emits_read _), svSafe_bind_iff fun n _ => Keeps.when fun _ =>
        keeps_assign fun t => (keptByParse_numSvs n).changed t true, exec_read, val_read, ← hstart,
      ← hbase, ← gsvNumSvs_le_iff tzer noSatellites 4 0 hrange.2, SvSafe, NumSvsInRange, hcount,
      hstores]
    exact ⟨fun h => h.1, fun h => ⟨h, hrange.1.trans hge, h⟩⟩
  · have hsmall : noSatellites ≤ gpsMaxSvs := by unfold gpsMaxSvs; omega
    -- a sentence that announces no satellite stores nothing
    rw [when, if_neg hany]
    exact iff_of_true ⟨emits_pure _ _, hr⟩ (.inl hsmall)

/-- A GSV line reaches the GSV branch. -/
theorem nmeaReaderParseSentence_gsv (tzer : NmeaTokenizer) :
    nmeaReaderParseSentence (R := R) tzer (bytes "GSV") = nmeaReaderParseGsv tzer := by
  rw [nmeaReaderParseSentence, if_neg (by decide), if_neg (by decide), if_neg (by decide),
    if_neg (by decide), if_pos rfl]

/-- Parsing one line is safe exactly when the line fits. -/
theorem svSafe_nmeaReaderParseLine_iff (line : List UInt8) (r : NmeaReader R)
    (hr : NumSvsInRange r) : SvSafe (nmeaReaderParseLine line) r ↔ GsvFits r line := by
  by_cases hgsv : IsGsv line
  · obtain ⟨hlen, htok, hid⟩ := hgsv
    have hfix := fun n => keeps_nmeaReaderPostFix (R := R) (keptByParse_numSvs n) (allowsPosts_numSvs n)
    have hsv := fun n => keeps_nmeaReaderPostSvStatus (R := R) (keptByParse_numSvs n)
      (allowsPosts_numSvs n)
    -- the posts after the sentence change neither the list nor its count
    rw [nmeaReaderParseLine, when, if_pos hlen, when, if_pos htok, hid,
      nmeaReaderParseSentence_gsv,
      svSafe_bind_iff fun n _ => Keeps.bind (hfix n) fun _ => hsv n,
      svSafe_nmeaReaderParseGsv_iff _ r hr]
    exact ⟨fun h _ => h, fun h => h ⟨hlen, htok, hid⟩⟩
  · refine iff_of_true (svSafe_of_keeps ?_ hr) fun h => absurd h hgsv
    have h := keptByParse_numSvs (R := R) r.svStatus.numSvs
    have hpost := allowsPosts_numSvs (R := R) r.svStatus.numSvs
    refine Keeps.when fun hlen => Keeps.when fun htok => ?_
    have hid := fun hid => hgsv ⟨hlen, htok, hid⟩
    exact Keeps.bind (keeps_nmeaReaderParseSentence_of_ne h _ hid) fun _ =>
      Keeps.bind (keeps_nmeaReaderPostFix h hpost) fun _ => keeps_nmeaReaderPostSvStatus h hpost

/-! ## §5 One Byte -/

/-- The parser does not call itself. -/
theorem emits_parsesFit_nmeaReaderParseLine (line : List UInt8) (r : NmeaReader R) :
    (nmeaReaderParseLine line).Emits ParsesFit r := by
  -- only a parse has to fit, and no action here is one
  have h : KeptByGsv (fun _ : NmeaReader R => True) ParsesFit :=
    { fix := fun _ _ _ => ⟨trivial, trivial⟩
      date := fun _ _ _ _ _ => ⟨trivial, trivial⟩
      mask := fun _ _ _ => ⟨trivial, trivial, fun _ => trivial⟩
      changed := fun _ _ _ => ⟨trivial, trivial⟩
      update := fun _ _ _ => ⟨trivial, trivial⟩
      svStatus := fun _ _ _ => ⟨trivial, trivial, fun _ => trivial⟩ }
  have hpost : AllowsPosts (fun _ : NmeaReader R => True) ParsesFit :=
    ⟨fun _ _ _ => trivial, fun _ _ _ => trivial⟩
  exact (keeps_nmeaReaderParseLine h hpost line r trivial).2

/-- One call of the parser is safe exactly when its line fits. -/
theorem svSafe_nmeaReaderParse_iff (r : NmeaReader R) (hr : NumSvsInRange r) :
    SvSafe nmeaReaderParse r ↔ nmeaReaderParse.Emits ParsesFit r := by
  have hline := svSafe_nmeaReaderParseLine_iff (r.inBuf.take r.pos) r hr
  have hcall : (act (Action.parse (r.inBuf.take r.pos)) id).Emits SvStoreInBounds r :=
    (emits_act (P := SvStoreInBounds) _ _ _).mpr trivial
  rw [nmeaReaderParse, svSafe_bind_of_emits (emits_read _), val_read, exec_read,
    svSafe_bind_of_emits hcall, exec_act]
  simp only [emits_bind, emits_read, val_read, exec_read, emits_act, exec_act, true_and, id_eq,
    emits_parsesFit_nmeaReaderParseLine, and_true]
  exact hline

omit [Libc R] in
theorem emits_svStoreInBounds_nmeaReaderStore (c : UInt8) (r : NmeaReader R) :
    (nmeaReaderStore c).Emits SvStoreInBounds r := by
  simp [nmeaReaderStore, SvStoreInBounds]

omit [Libc R] in
theorem emits_parsesFit_nmeaReaderStore (c : UInt8) (r : NmeaReader R) :
    (nmeaReaderStore c).Emits ParsesFit r := by
  simp [nmeaReaderStore, ParsesFit]

/-- The end of a line is safe exactly when the line fits. -/
theorem svSafe_nmeaReaderEndLine_iff (r : NmeaReader R) (hr : NumSvsInRange r) :
    SvSafe nmeaReaderEndLine r ↔ nmeaReaderEndLine.Emits ParsesFit r := by
  rw [nmeaReaderEndLine, svSafe_bind_iff, svSafe_nmeaReaderParse_iff r hr]
  · simp [ParsesFit]
  · intro n _
    exact Keeps.read_bind fun _ _ =>
      Keeps.bind (Keeps.when fun _ => keeps_act fun _ ht => ⟨ht, trivial⟩) fun _ =>
      keeps_assign fun _ ht => ⟨ht, trivial⟩

/-- **Step lemma**: one byte is safe exactly when the sentence it completes, if any, fits. -/
theorem svSafe_nmeaReaderAddc_iff (c : UInt8) (r : NmeaReader R) (hr : NumSvsInRange r) :
    SvSafe (nmeaReaderAddc c) r ↔ (nmeaReaderAddc c).Emits ParsesFit r := by
  rw [nmeaReaderAddc, svSafe_bind_of_emits (emits_read r), emits_bind, val_read, exec_read,
    and_iff_right (emits_read r)]
  split_ifs with hover hfull
  -- a byte that is skipped, or finds the buffer full, parses nothing
  · exact iff_of_true ⟨(emits_assign _ _).mpr trivial, hr⟩ ((emits_assign _ _).mpr trivial)
  · simp only [SvSafe, emits_bind, emits_assign, exec_bind, exec_assign]
    exact iff_of_true ⟨⟨trivial, trivial⟩, hr⟩ ⟨trivial, trivial⟩
  · rw [svSafe_bind_of_emits (emits_svStoreInBounds_nmeaReaderStore c r), emits_bind,
      and_iff_right (emits_parsesFit_nmeaReaderStore c r), exec_nmeaReaderStore]
    by_cases hc : c = byte '\n'
    · rw [when, if_pos hc]
      exact svSafe_nmeaReaderEndLine_iff (r.store c) hr
    · rw [when, if_neg hc]
      exact iff_of_true ⟨emits_pure _ _, hr⟩ (emits_pure _ _)

/-! ## §6 Streams -/

/-- What must hold of a stream fed from `r`: every store is in bounds, and the count is
valid after every byte. -/
def StreamSafe (s : List UInt8) (r : NmeaReader R) : Prop :=
  (nmeaReaderAddAll s).Emits SvStoreInBounds r ∧
    ∀ p, p <+: s → NumSvsInRange ((nmeaReaderAddAll p).exec r)

theorem streamSafe_cons_iff (c : UInt8) (s : List UInt8) (r : NmeaReader R)
    (hr : NumSvsInRange r) :
    StreamSafe (c :: s) r ↔
      SvSafe (nmeaReaderAddc c) r ∧ StreamSafe s ((nmeaReaderAddc c).exec r) := by
  simp only [StreamSafe, SvSafe, nmeaReaderAddAll, emits_bind]
  constructor
  · -- a prefix that is not empty begins with `c`
    rintro ⟨⟨hc, hs⟩, hprefix⟩
    refine ⟨⟨hc, ?_⟩, hs, fun p hp => ?_⟩
    · exact hprefix [c] (List.prefix_cons_inj c |>.mpr List.nil_prefix)
    · exact hprefix (c :: p) (List.prefix_cons_inj c |>.mpr hp)
  · rintro ⟨⟨hc, hcount⟩, hs, hprefix⟩
    refine ⟨⟨hc, hs⟩, fun p hp => ?_⟩
    rcases List.prefix_cons_iff.mp hp with rfl | ⟨q, rfl, hq⟩
    · exact hr
    · exact hprefix q hq

/-- **Run lemma**: a stream is safe exactly when every sentence parsed on the way fits. -/
theorem streamSafe_iff (s : List UInt8) (r : NmeaReader R) (hr : NumSvsInRange r) :
    StreamSafe s r ↔ (nmeaReaderAddAll s).Emits ParsesFit r := by
  induction s generalizing r with
  | nil =>
    refine iff_of_true ⟨emits_pure _ _, fun p hp => ?_⟩ (emits_pure _ _)
    rw [List.prefix_nil.mp hp]
    exact hr
  | cons c s ih =>
    rw [streamSafe_cons_iff c s r hr, nmeaReaderAddAll, emits_bind, svSafe_nmeaReaderAddc_iff c r hr]
    -- the next byte starts from a valid count, since this one was safe
    refine and_congr_right fun hc => ih _ ?_
    exact ((svSafe_nmeaReaderAddc_iff c r hr).mpr hc).2

/-- From the initial state, the stores of the GSV branch stay in the array and the count
stays valid exactly as long as every GSV sentence fits. -/
theorem satellite_list_safe_iff (cbs : GpsCallbacks) (s : List UInt8) :
    StreamSafe s (readerAfterInit (R := R) cbs) ↔
      (nmeaReaderAddAll s).Emits ParsesFit (readerAfterInit (R := R) cbs) := by
  apply streamSafe_iff s _
  simp [exec_readerAfterInit, NumSvsInRange, nmeaReaderInit]

/-- Nine sentences that announce 99 satellites and are never numbered 1. -/
def overlongCycle : List UInt8 :=
  (List.replicate 9 (bytes "$GPGSV,9,2,99,1,,,,1,,,,1,,,,1\n")).flatten

/-- The ninth sentence of `overlongCycle` writes past the array. -/
theorem satellite_list_overflows :
    ¬ StreamSafe overlongCycle (readerAfterInit (R := ℚ) ⟨true, true, true⟩) := by
  intro h
  have hfinal := (h.2 overlongCycle List.prefix_rfl).2
  have hcount : ((nmeaReaderAddAll overlongCycle).exec
      (readerAfterInit (R := ℚ) ⟨true, true, true⟩)).svStatus.numSvs = 36 := by decide +kernel
  rw [hcount] at hfinal
  exact absurd hfinal (by decide)

end OdroidU2.Gps
