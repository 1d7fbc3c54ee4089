import OdroidU2.Gps.Numbers
import OdroidU2.Gps.Sentences
import OdroidU2.Gps.SvStatusCallback

/-!
# Satellite Cycles

A receiver spreads its satellites over GSV sentences, four to a sentence.  The GSV branch puts
them together again: the first sentence of a cycle empties the list, each sentence appends its
satellites at `num_svs`, and the last one has the list posted.  No other sentence touches the
list, so it does not matter what comes in between.

- `exec_nmeaReaderParseGsvLoop` — what one sentence appends
- `cycle_is_stored` — a complete cycle leaves the list of its satellites, from any reader
- `long_elevation_is_zero` — a number of sixteen bytes is stored as zero
-/

namespace OdroidU2.Gps

open OdroidU2.Foundations Prog

variable {R : Type} [Libc R]

/-! ## §1 Cycles -/

/-- The digits of this number, with or without leading zeros. -/
def IsNumber (s : List UInt8) (n : Nat) : Prop := AllDigits s ∧ digitsValue s = n

instance (s : List UInt8) (n : Nat) : Decidable (IsNumber s n) := by
  unfold IsNumber
  infer_instance

/-- The number of a satellite: a positive number of at most nine digits. -/
def IsPrn (s : List UInt8) : Prop := AllDigits s ∧ s.length ≤ 9 ∧ 0 < digitsValue s

instance (s : List UInt8) : Decidable (IsPrn s) := by unfold IsPrn; infer_instance

/-- Sentence `number` of `total` that announce `N` satellites, with the numbers of its own. -/
def IsGsvSentence (N total number : Nat) (line : List UInt8) : Prop :=
  IsSentence (bytes "GSV") line ∧
    (IsNumber (field (nmeaBody line) 1) total ∧ IsNumber (field (nmeaBody line) 2) number ∧
      IsNumber (field (nmeaBody line) 3) N) ∧
    ∀ j < 4, 4 * (number - 1) + j < N → IsPrn (field (nmeaBody line) (j * 4 + 4))

instance (N total number : Nat) (line : List UInt8) :
    Decidable (IsGsvSentence N total number line) := by
  unfold IsGsvSentence
  infer_instance

/-- The GSV sentences among some lines. -/
def gsvSentences (lines : List (List UInt8)) : List (List UInt8) :=
  lines.filter (IsSentence (bytes "GSV") ·)

/-- The GSV sentences among these lines are a complete cycle of `N` satellites, in order. -/
def IsCycle (N : Nat) (lines : List (List UInt8)) : Prop :=
  (1 ≤ N ∧ N ≤ gpsMaxSvs) ∧ (gsvSentences lines).length = (N + 3) / 4 ∧
    ∀ i < (gsvSentences lines).length,
      IsGsvSentence N (gsvSentences lines).length (i + 1) ((gsvSentences lines)[i]?.getD [])

instance (N : Nat) (lines : List (List UInt8)) : Decidable (IsCycle N lines) := by
  unfold IsCycle
  infer_instance

/-- The satellite in slot `j` of a sentence, its other fields read by `value`. -/
def satelliteAt (value : List UInt8 → R) (body : List UInt8) (j : Nat) : GpsSvInfo R where
  prn := digitsValue (field body (j * 4 + 4))
  elevation := value (field body (j * 4 + 5))
  azimuth := value (field body (j * 4 + 6))
  snr := value (field body (j * 4 + 7))

/-- Satellite `k` of a cycle. -/
def transmitted (value : List UInt8 → R) (sentences : List (List UInt8)) (k : Nat) : GpsSvInfo R :=
  satelliteAt value (nmeaBody (sentences[k / 4]?.getD [])) (k % 4)

/-- The reader after some lines. -/
def NmeaReader.afterLines (r : NmeaReader R) (lines : List (List UInt8)) : NmeaReader R :=
  lines.foldl (fun r line => (nmeaReaderParseLine line).exec r) r

/-- What a cycle that ends with this line must leave: the satellites it has transmitted, and the
command that tells about them. -/
structure CycleStored (value : List UInt8 → R) (N : Nat) (lines : List (List UInt8))
    (last : List UInt8) (r : NmeaReader R) : Prop where
  satellites : (r.afterLines (lines ++ [last])).satellites =
    ((N : Int), (List.range N).map (transmitted value (gsvSentences (lines ++ [last]))))
  posted : r.svStatusCallback →
    .svStatusCb ∈ postedBy (nmeaReaderParseLine last) (r.afterLines lines)

/-- The number a field denotes, as a `float`. -/
def fieldValue (s : List UInt8) : R := Libc.narrow (Libc.strtod s)

/-- The number a field is read as: zero when it has sixteen bytes or more. -/
def readValue (s : List UInt8) : R :=
  if s.length ≤ 15 then fieldValue s else Libc.narrow (Libc.lit 0)

/-! ## §2 The Loop -/

theorem str2int_of_isNumber {s : List UInt8} {n : Nat} (h : IsNumber s n) (hn : n ≤ gpsMaxSvs) :
    str2int s = n := by
  rw [str2int_eq, if_pos h.1, h.2]
  unfold gpsMaxSvs at hn
  exact int32_of_range (by omega) (by omega)

theorem IsPrn.str2int_eq {s : List UInt8} (h : IsPrn s) : str2int s = digitsValue s :=
  str2int_of_short h.1 h.2.1

theorem narrow_str2float (s : List UInt8) : Libc.narrow (str2float (R := R) s) = readValue s := by
  unfold str2float readValue fieldValue
  by_cases hlen : s.length ≤ 15
  · rw [if_pos hlen, if_neg (by omega)]
  · rw [if_neg hlen, if_pos (by omega)]

section Loop

/-- The entry that slot `i` of a sentence makes. -/
def gsvEntry (tzer : NmeaTokenizer) (i : Nat) : GpsSvInfo R where
  prn := gsvPrn tzer i
  elevation := readValue (nmeaTokenizerGet tzer (i * 4 + 5)).text
  azimuth := readValue (nmeaTokenizerGet tzer (i * 4 + 6)).text
  snr := readValue (nmeaTokenizerGet tzer (i * 4 + 7)).text

/-- The reader with this entry at the end of its list. -/
def NmeaReader.appendSv (r : NmeaReader R) (entry : GpsSvInfo R) : NmeaReader R :=
  { r with
    svStatus.numSvs := r.svStatus.numSvs + 1
    svStatus.svList := r.svStatus.svList.modify r.svStatus.numSvs.toNat fun _ => entry }

variable {tzer : NmeaTokenizer}

/-- All four fields of the entry are overwritten. -/
theorem exec_nmeaReaderStoreSv (i : Nat) {r : NmeaReader R} (hr : 0 ≤ r.svStatus.numSvs) :
    (nmeaReaderStoreSv tzer i r.svStatus.numSvs (gsvPrn tzer i)).exec r =
      r.appendSv (gsvEntry tzer i) := by
  simp only [nmeaReaderStoreSv, exec_bind, exec_svStore, exec_assign, narrow_str2float,
    NmeaReader.modifySv, if_pos hr, List.modify_modify_eq]
  rfl

/-- **One sentence**: from `c` satellites on, the loop appends what fits into the `N` announced,
as long as all of these have a positive number. -/
theorem exec_nmeaReaderParseGsvLoop (N n i c : Nat) {r : NmeaReader R}
    (hcount : r.svStatus.numSvs = c) (hprn : ∀ j < n, c + j < N → 0 < gsvPrn tzer (i + j)) :
    (nmeaReaderParseGsvLoop tzer N n i r.svStatus.numSvs).exec r =
      ((List.range' i (min n (N - c))).map (gsvEntry tzer)).foldl NmeaReader.appendSv r := by
  induction n generalizing i c r with
  | zero => simp [nmeaReaderParseGsvLoop]
  | succ n ih =>
    rw [nmeaReaderParseGsvLoop, exec_bind, exec_read, val_read, exec_when]
    by_cases hroom : c < N
    · -- room for one more: its number is positive, so it is stored
      have hfirst : 0 < gsvPrn tzer i := hprn 0 (Nat.succ_pos n) hroom
      have hlt : r.svStatus.numSvs < N := by omega
      have hnext := ih (i + 1) (c + 1) (r := r.appendSv (gsvEntry tzer i))
        (by simp [NmeaReader.appendSv, hcount])
        fun j hj hfits => by
          have h := hprn (j + 1) (Nat.succ_lt_succ hj) (by omega)
          rwa [← Nat.add_assoc, Nat.add_right_comm] at h
      have hslots : min (n + 1) (N - c) = min n (N - (c + 1)) + 1 := by omega
      rw [if_pos hlt, hslots, List.range'_succ, List.map_cons, List.foldl_cons, ← hnext]
      unfold gsvPrn at hfirst
      rw [exec_ite, if_pos hfirst, exec_bind]
      have hstore : (nmeaReaderStoreSv tzer i r.svStatus.numSvs (gsvPrn tzer i)).exec r =
          r.appendSv (gsvEntry tzer i) := exec_nmeaReaderStoreSv i (by omega)
      unfold gsvPrn at hstore
      rw [hstore]
      rfl
    · -- the list is complete
      have hge : ¬r.svStatus.numSvs < N := by omega
      have hnone : min (n + 1) (N - c) = 0 := by omega
      rw [if_neg hge, hnone]
      rfl

end Loop

/-! ## §3 The List -/

section List

/-- The list of the reader, kept in an array of the declared size. -/
structure NmeaReader.Lists (r : NmeaReader R) (entries : List (GpsSvInfo R)) : Prop where
  size : r.svStatus.svList.length = gpsMaxSvs
  satellites : r.satellites = ((entries.length : Int), entries)

omit [Libc R] in
theorem NmeaReader.Lists.numSvs {r : NmeaReader R} {entries : List (GpsSvInfo R)}
    (h : r.Lists entries) : r.svStatus.numSvs = entries.length := congrArg Prod.fst h.satellites

omit [Libc R] in
theorem NmeaReader.Lists.take {r : NmeaReader R} {entries : List (GpsSvInfo R)}
    (h : r.Lists entries) : r.svStatus.svList.take entries.length = entries := by
  have htake := congrArg Prod.snd h.satellites
  rw [NmeaReader.satellites, h.numSvs, Int.toNat_natCast] at htake
  exact htake

omit [Libc R] in
/-- An entry more, as long as there is room in the array. -/
theorem NmeaReader.Lists.appendSv {r : NmeaReader R} {entries : List (GpsSvInfo R)}
    (h : r.Lists entries) (hroom : entries.length < gpsMaxSvs) (entry : GpsSvInfo R) :
    (r.appendSv entry).Lists (entries ++ [entry]) := by
  have hlt : entries.length < r.svStatus.svList.length := by rwa [h.size]
  have hcount : (r.appendSv entry).svStatus.numSvs = ((entries ++ [entry]).length : Int) := by
    simp [NmeaReader.appendSv, h.numSvs]
  refine ⟨?_, ?_⟩
  · rw [← h.size]
    exact List.length_modify _ _ _
  · rw [NmeaReader.satellites, hcount, Int.toNat_natCast, List.length_append,
      List.length_singleton]
    refine Prod.ext rfl ?_
    -- the entry at `num_svs` is written, and those before it are not
    show (r.svStatus.svList.modify r.svStatus.numSvs.toNat fun _ => entry).take _ = _
    rw [h.numSvs, Int.toNat_natCast, List.take_add_one, List.take_modify, List.getElem?_modify_eq,
      List.getElem?_eq_getElem hlt, h.take, List.modify_eq_self le_rfl]
    rfl

omit [Libc R] in
theorem NmeaReader.Lists.appendSvs {r : NmeaReader R} {entries : List (GpsSvInfo R)}
    (h : r.Lists entries) (more : List (GpsSvInfo R))
    (hroom : entries.length + more.length ≤ gpsMaxSvs) :
    (more.foldl NmeaReader.appendSv r).Lists (entries ++ more) := by
  induction more generalizing r entries with
  | nil => simpa using h
  | cons entry more ih =>
    rw [List.length_cons] at hroom
    -- the entry goes behind those listed, and the rest behind it
    have hnext := h.appendSv (by omega) entry
    have hall := ih hnext (by rw [List.length_append, List.length_singleton]; omega)
    rwa [List.append_assoc, List.singleton_append] at hall

end List

/-! ## §4 One Sentence -/

/-- What the GSV branch does when satellites are announced. -/
theorem exec_nmeaReaderParseGsv {tzer : NmeaTokenizer} {r : NmeaReader R}
    (hany : 0 < str2int (nmeaTokenizerGet tzer 3).text) :
    (nmeaReaderParseGsv tzer).exec r =
      let start := (nmeaReaderStartGsv (str2int (nmeaTokenizerGet tzer 2).text)).exec r
      let listed := (nmeaReaderParseGsvLoop tzer (str2int (nmeaTokenizerGet tzer 3).text) 4 0
        start.svStatus.numSvs).exec start
      if str2int (nmeaTokenizerGet tzer 2).text = str2int (nmeaTokenizerGet tzer 1).text then
        { listed with svStatusChanged := true }
      else listed := by
  rw [nmeaReaderParseGsv, exec_when, if_pos hany]
  simp only [exec_bind, exec_read, val_read, exec_when, exec_assign]

/-- Between two lines, with `i` sentences of the cycle taken: the list has the satellites of
these, and before the first one it may have any. -/
structure CycleSoFar (sentences : List (List UInt8)) (N i : Nat) (r : NmeaReader R) : Prop where
  size : r.svStatus.svList.length = gpsMaxSvs
  satellites : 0 < i →
    r.Lists ((List.range (min N (4 * i))).map (transmitted readValue sentences))

section Sentence

variable {line : List UInt8} {N i total : Nat}

/-- A slot with a number makes the entry of its satellite. -/
theorem gsvEntry_eq {j : Nat} (hj : j < 4) (hprn : IsPrn (field (nmeaBody line) (j * 4 + 4))) :
    gsvEntry (R := R) (nmeaTokenizerInit line) j = satelliteAt readValue (nmeaBody line) j := by
  have htext (k : Nat) (hk : k < 8) : (nmeaTokenizerGet (nmeaTokenizerInit line) (j * 4 + k)).text =
      field (nmeaBody line) (j * 4 + k) := by
    apply text_nmeaTokenizerGet line
    unfold maxNmeaTokens
    omega
  simp only [gsvEntry, gsvPrn, satelliteAt, htext 4 (by decide), htext 5 (by decide),
    htext 6 (by decide), htext 7 (by decide), hprn.str2int_eq]

/-- Sentence `i` carries the satellites from `4 * i` on. -/
theorem map_gsvEntry {sentences : List (List UInt8)} (hline : sentences[i]? = some line)
    (hgsv : IsGsvSentence N total (i + 1) line) :
    (List.range' 0 (min 4 (N - 4 * i))).map (gsvEntry (nmeaTokenizerInit line)) =
      (List.range (min 4 (N - 4 * i))).map
        fun j => transmitted (R := R) readValue sentences (4 * i + j) := by
  rw [← List.range_eq_range']
  apply List.map_congr_left
  intro j hj
  have hslot := List.mem_range.mp hj
  -- satellite `4 * i + j` is slot `j` of sentence `i`
  have hdiv : (4 * i + j) / 4 = i := by omega
  have hmod : (4 * i + j) % 4 = j := by omega
  have hprn := hgsv.2.2 j (by omega) (by rw [Nat.add_sub_cancel]; omega)
  rw [gsvEntry_eq (by omega) hprn, transmitted, hdiv, hmod, hline]
  rfl

/-- The satellites of one sentence more. -/
theorem map_range_next {α : Type} (f : Nat → α) (hi : 4 * i < N) :
    (List.range (min N (4 * (i + 1)))).map f = (List.range (min N (4 * i))).map f ++
      (List.range (min 4 (N - 4 * i))).map fun j => f (4 * i + j) := by
  have hcount : min N (4 * i) = 4 * i := by omega
  have hnext : min N (4 * (i + 1)) = 4 * i + min 4 (N - 4 * i) := by omega
  rw [hnext, hcount, List.range_add, List.map_append, List.map_map]
  rfl

/-- The numbers of a GSV sentence, as the branch reads them. -/
theorem IsGsvSentence.str2int_eq (h : IsGsvSentence N total (i + 1) line) (hN : N ≤ gpsMaxSvs)
    (htotal : total ≤ gpsMaxSvs) (hi : i < total) :
    str2int (nmeaTokenizerGet (nmeaTokenizerInit line) 1).text = total ∧
      str2int (nmeaTokenizerGet (nmeaTokenizerInit line) 2).text = (i + 1 : Nat) ∧
      str2int (nmeaTokenizerGet (nmeaTokenizerInit line) 3).text = N := by
  obtain ⟨hnum1, hnum2, hnum3⟩ := h.2.1
  simp only [text_nmeaTokenizerGet line (i := 1) (by decide),
    text_nmeaTokenizerGet line (i := 2) (by decide), text_nmeaTokenizerGet line (i := 3) (by decide)]
  exact ⟨str2int_of_isNumber hnum1 htotal, str2int_of_isNumber hnum2 (by omega),
    str2int_of_isNumber hnum3 hN⟩

/-- What is listed when the loop begins: the first sentence empties the list. -/
theorem CycleSoFar.start {sentences : List (List UInt8)} {r : NmeaReader R}
    (h : CycleSoFar sentences N i r) :
    ((nmeaReaderStartGsv ((i + 1 : Nat) : Int)).exec r).Lists
      ((List.range (min N (4 * i))).map (transmitted readValue sentences)) := by
  rw [nmeaReaderStartGsv, exec_when]
  -- the first sentence of a cycle starts the list anew
  cases i with
  | zero =>
    rw [if_pos (by rfl)]
    exact ⟨h.size, by simp [NmeaReader.satellites]⟩
  | succ i =>
    rw [if_neg (by omega)]
    exact h.satellites (Nat.succ_pos i)

/-- The loop appends the satellites of the sentence. -/
theorem lists_nmeaReaderParseGsvLoop {sentences : List (List UInt8)} {start : NmeaReader R}
    (hbefore : start.Lists ((List.range (min N (4 * i))).map (transmitted readValue sentences)))
    (hline : sentences[i]? = some line) (hgsv : IsGsvSentence N total (i + 1) line)
    (hN : N ≤ gpsMaxSvs) (hfits : 4 * i < N) :
    ((nmeaReaderParseGsvLoop (nmeaTokenizerInit line) N 4 0 start.svStatus.numSvs).exec
      start).Lists ((List.range (min N (4 * (i + 1)))).map (transmitted readValue sentences)) := by
  -- the sentences before were full
  have hcount : start.svStatus.numSvs = (4 * i : Nat) := by
    rw [hbefore.numSvs, List.length_map, List.length_range, min_eq_right hfits.le]
  -- the slots that are announced have numbers
  have hpositive (j : Nat) (hj : j < 4) (hlt : 4 * i + j < N) :
      0 < gsvPrn (nmeaTokenizerInit line) (0 + j) := by
    have hprn := hgsv.2.2 j hj (by rwa [Nat.add_sub_cancel])
    have htext := text_nmeaTokenizerGet line (i := j * 4 + 4) (by unfold maxNmeaTokens; omega)
    rw [Nat.zero_add, gsvPrn, htext, hprn.str2int_eq]
    exact_mod_cast hprn.2.2
  rw [exec_nmeaReaderParseGsvLoop N 4 0 (4 * i) hcount hpositive, map_gsvEntry hline hgsv,
    map_range_next _ hfits]
  apply hbefore.appendSvs _
  simp only [List.length_map, List.length_range]
  omega

/-- **Step lemma**: the next sentence of the cycle adds its satellites, and the last one marks the
list as changed. -/
theorem CycleSoFar.branch {sentences : List (List UInt8)} {r : NmeaReader R}
    (h : CycleSoFar sentences N i r) (hline : sentences[i]? = some line)
    (hgsv : IsGsvSentence N total (i + 1) line) (hN : N ≤ gpsMaxSvs)
    (htotal : total = (N + 3) / 4) (hi : i < total) :
    CycleSoFar sentences N (i + 1) ((nmeaReaderBranch line).exec r) ∧
      (i + 1 = total → ((nmeaReaderBranch line).exec r).svStatusChanged) := by
  have hfits : 4 * i < N := by omega
  have hsmall : total ≤ gpsMaxSvs := by
    unfold gpsMaxSvs at hN ⊢
    omega
  -- total, number and count are read as they are written
  obtain ⟨hread1, hread2, hread3⟩ := hgsv.str2int_eq hN hsmall hi
  have hlists := lists_nmeaReaderParseGsvLoop h.start hline hgsv hN hfits
  rw [nmeaReaderBranch_gsv hgsv.1, exec_nmeaReaderParseGsv (by omega), hread1, hread2, hread3]
  simp only [Nat.cast_inj]
  split
  · exact ⟨⟨hlists.size, fun _ => ⟨hlists.size, hlists.satellites⟩⟩, fun _ => rfl⟩
  · rename_i hlast
    exact ⟨⟨hlists.size, fun _ => hlists⟩, fun h => absurd h hlast⟩

end Sentence

/-! ## §5 The Cycle -/

section Cycle

variable {line : List UInt8} {N : Nat} {sentences : List (List UInt8)}

/-- The posts leave the list alone. -/
theorem CycleSoFar.parseLine {i : Nat} {r : NmeaReader R}
    (h : CycleSoFar sentences N i ((nmeaReaderBranch line).exec r)) (hlong : LongEnough line) :
    CycleSoFar sentences N i ((nmeaReaderParseLine line).exec r) := by
  have hstatus : ((nmeaReaderParseLine line).exec r).svStatus =
      ((nmeaReaderBranch line).exec r).svStatus := by
    rw [exec_nmeaReaderParseLine, if_pos hlong, svStatus_posted]
  refine ⟨by rw [hstatus]; exact h.size, fun hi => ⟨by rw [hstatus]; exact h.size, ?_⟩⟩
  rw [NmeaReader.satellites, hstatus]
  exact (h.satellites hi).satellites

/-- The other branches write to none of it. -/
theorem keptByParse_cycleSoFar (i : Nat) :
    KeptByParse (CycleSoFar (R := R) sentences N i) (fun _ _ => True) where
  fix _ _ hr := ⟨⟨hr.size, fun hi => ⟨hr.size, (hr.satellites hi).satellites⟩⟩, trivial⟩
  date _ _ _ _ hr := ⟨⟨hr.size, fun hi => ⟨hr.size, (hr.satellites hi).satellites⟩⟩, trivial⟩
  mask _ _ hr :=
    ⟨⟨hr.size, fun hi => ⟨hr.size, (hr.satellites hi).satellites⟩⟩, trivial, fun _ => trivial⟩
  changed _ _ hr := ⟨⟨hr.size, fun hi => ⟨hr.size, (hr.satellites hi).satellites⟩⟩, trivial⟩
  update _ _ hr := ⟨⟨hr.size, fun hi => ⟨hr.size, (hr.satellites hi).satellites⟩⟩, trivial⟩

/-- A line of another kind leaves the cycle where it is. -/
theorem CycleSoFar.other {i : Nat} {r : NmeaReader R} (h : CycleSoFar sentences N i r)
    (hline : ¬IsSentence (bytes "GSV") line) :
    CycleSoFar sentences N i ((nmeaReaderParseLine line).exec r) := by
  -- the other branches do not write to the list
  have hkept : KeptByParse (CycleSoFar (R := R) sentences N i) fun _ _ => True :=
    keptByParse_cycleSoFar i
  have hposts : AllowsPosts (CycleSoFar (R := R) sentences N i) (fun _ _ => True) :=
    ⟨fun _ _ _ => trivial, fun _ _ _ => trivial⟩
  have hkeeps : Keeps (CycleSoFar (R := R) sentences N i) (fun _ _ => True)
      (nmeaReaderParseLine line) := by
    rw [nmeaReaderParseLine_eq]
    refine Keeps.when fun hlong => Keeps.bind ?_ fun _ => ?_
    · exact keeps_nmeaReaderParseSentence_of_ne hkept _ fun hid => hline ⟨hlong, hid⟩
    · exact Keeps.bind (keeps_nmeaReaderPostFix hkept hposts) fun _ =>
        keeps_nmeaReaderPostSvStatus hkept hposts
  exact (hkeeps r h).1

/-- The sentence whose turn it is. -/
theorem IsCycle.sentence {lines : List (List UInt8)} (h : IsCycle N lines) {i : Nat}
    (hline : (gsvSentences lines)[i]? = some line) :
    IsGsvSentence N (gsvSentences lines).length (i + 1) line ∧ i < (gsvSentences lines).length := by
  obtain ⟨hi, -⟩ := List.getElem?_eq_some_iff.mp hline
  have hsentence := h.2.2 i hi
  rw [hline] at hsentence
  exact ⟨hsentence, hi⟩

/-- **Run lemma**: whatever comes in between, the list grows with the sentences of the cycle. -/
theorem CycleSoFar.afterLines {all lines : List (List UInt8)} (hcycle : IsCycle N all) {i : Nat}
    {r : NmeaReader R} (h : CycleSoFar (gsvSentences all) N i r)
    (hrest : gsvSentences lines <+: (gsvSentences all).drop i) :
    CycleSoFar (gsvSentences all) N (i + (gsvSentences lines).length) (r.afterLines lines) := by
  induction lines generalizing i r with
  | nil => exact h
  | cons line rest ih =>
    by_cases hgsv : IsSentence (bytes "GSV") line
    · -- the next sentence of the cycle
      have hcons : gsvSentences (line :: rest) = line :: gsvSentences rest :=
        List.filter_cons_of_pos (by simpa using hgsv)
      rw [hcons] at hrest ⊢
      obtain ⟨tail, hdrop, hprefix⟩ := List.cons_prefix_iff.mp hrest
      have hline : (gsvSentences all)[i]? = some line := by
        rw [← List.head?_drop, hdrop, List.head?_cons]
      have htail : (gsvSentences all).drop (i + 1) = tail := by
        rw [← List.tail_drop, hdrop, List.tail_cons]
      obtain ⟨hsentence, hi⟩ := hcycle.sentence hline
      have hnext := (h.branch hline hsentence hcycle.1.2 hcycle.2.1 hi).1.parseLine hgsv.1
      have hall := ih hnext (by rwa [htail])
      rwa [Nat.add_assoc, Nat.add_comm 1] at hall
    · -- a line in between
      have hskip : gsvSentences (line :: rest) = gsvSentences rest :=
        List.filter_cons_of_neg (by simpa using hgsv)
      rw [hskip] at hrest ⊢
      exact ih (h.other hgsv) hrest

/-- No line installs or removes the satellite status callback. -/
theorem svStatusCallback_afterLines (r : NmeaReader R) (lines : List (List UInt8)) :
    (r.afterLines lines).svStatusCallback = r.svStatusCallback := by
  induction lines generalizing r with
  | nil => rfl
  | cons line rest ih =>
    exact (ih _).trans (congrArg Prod.snd (callbacks_nmeaReaderParseLine line r))

end Cycle

/-- **Satellite cycles**: after the last sentence of a complete cycle the list has the satellites
that were transmitted, each with the values its fields are read as, and the command is posted. -/
theorem cycle_is_stored (r : NmeaReader R) (hsize : r.svStatus.svList.length = gpsMaxSvs) (N : Nat)
    (lines : List (List UInt8)) (last : List UInt8) (hlast : IsSentence (bytes "GSV") last)
    (hcycle : IsCycle N (lines ++ [last])) : CycleStored readValue N lines last r := by
  have hsplit : gsvSentences (lines ++ [last]) = gsvSentences lines ++ [last] := by
    rw [gsvSentences, List.filter_append]
    exact congrArg _ (List.filter_cons_of_pos (by simpa using hlast))
  -- any reader may start a cycle
  have hstart : CycleSoFar (gsvSentences (lines ++ [last])) N 0 r :=
    ⟨hsize, fun h => absurd h (Nat.lt_irrefl 0)⟩
  have hprefix : gsvSentences lines <+: gsvSentences (lines ++ [last]) := by
    rw [hsplit]
    exact List.prefix_append _ _
  -- up to the last sentence, then the last one
  have hbefore := hstart.afterLines hcycle hprefix
  rw [Nat.zero_add] at hbefore
  have hline : (gsvSentences (lines ++ [last]))[(gsvSentences lines).length]? = some last := by
    rw [hsplit, List.getElem?_concat_length]
  obtain ⟨hsentence, hi⟩ := hcycle.sentence hline
  obtain ⟨hafter, hchanged⟩ := hbefore.branch hline hsentence hcycle.1.2 hcycle.2.1 hi
  have htotal : (gsvSentences lines).length + 1 = (gsvSentences (lines ++ [last])).length := by
    rw [hsplit, List.length_append, List.length_singleton]
  refine ⟨?_, fun hcallback => ?_⟩
  · -- the last sentence completes the list
    have hall : min N (4 * ((gsvSentences lines).length + 1)) = N := by
      have hlen := hcycle.2.1
      omega
    have hlists := (hafter.parseLine hlast.1).satellites (Nat.succ_pos _)
    rw [NmeaReader.afterLines, List.foldl_append]
    have hsatellites := hlists.satellites
    rw [hall, List.length_map, List.length_range] at hsatellites
    exact hsatellites
  · -- and marks it as changed, so it is posted
    have hinstalled : ((nmeaReaderBranch last).exec (r.afterLines lines)).svStatusCallback :=
      ((congrArg Prod.snd (callbacks_nmeaReaderBranch last _)).trans
        (svStatusCallback_afterLines r lines)).trans hcallback
    have hdue : ((nmeaReaderBranch last).exec (r.afterLines lines)).SvStatusDue :=
      ⟨hchanged htotal, hinstalled⟩
    rw [postedBy_nmeaReaderParseLine, if_pos hlast.1, if_pos hdue]
    exact List.mem_append_right _ List.mem_cons_self

/-- Five satellites, with other sentences in between. -/
theorem cycle_of_five_is_stored :
    CycleStored (R := ℚ) readValue 5
      [bytes "$GPGSV,2,1,05,01,40,083,46,02,17,308,41,12,07,344,39,14,22,228,45*75\n",
        bytes "$GPGSA,A,3,01,02,,,,,,,,,,,,,\n", bytes "$GPTXT,hello\n"]
      (bytes "$GPGSV,2,2,05,25,13,170,*7B\n") (readerAfterInit ⟨true, true, true⟩) :=
  cycle_is_stored _ (by decide +kernel) 5 _ _ (by decide +kernel) (by decide +kernel)

/-- An elevation of 45 degrees in sixteen bytes. -/
def paddedSentence : List UInt8 := bytes "$GPGSV,1,1,1,7,0000000000000045,083,46\n"

/-- The elevation is stored as zero. -/
theorem long_elevation_is_zero :
    (IsSentence (bytes "GSV") paddedSentence ∧ IsCycle 1 ([] ++ [paddedSentence])) ∧
      ¬CycleStored (R := ℚ) fieldValue 1 [] paddedSentence (readerAfterInit ⟨true, true, true⟩) := by
  refine ⟨by decide +kernel, fun h => ?_⟩
  have hlist := h.satellites
  revert hlist
  decide +kernel

end OdroidU2.Gps
