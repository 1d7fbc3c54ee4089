import Mathlib
import OdroidU2.Gps.CompleteLines
import OdroidU2.Gps.Reports

/-!
# Streams of Reports

A receiver sends reports among other lines.  The reader posts one fix for each report, in the
order of the reports and with what the report says, whatever the other lines are, as long as
they ask for no fix themselves.  A GGA sentence before a report adds its altitude.

- `postedFixes_nmeaReaderParseLine` — the fixes that one line posts
- `assemble` — which report is due, and with which altitude
- `fixes_of_stream` — the reader posts what is due
-/

namespace OdroidU2.Gps

open OdroidU2.Foundations Prog

/-! ## §1 Posted Fixes -/

section Fixes

variable {R : Type}

/-- The fix that an action posts, as it is at that moment. -/
def postedFix? (e : Action × NmeaReader R) : Option (GpsLocation R) :=
  if e.1 = .post .locationCb then some e.2.fix else none

/-- The fixes that a program posts, in order. -/
def postedFixes {α : Type} (p : NmeaM R α) (r : NmeaReader R) : List (GpsLocation R) :=
  (p.log r).filterMap postedFix?

@[simp] theorem postedFixes_bind {α β : Type} (p : NmeaM R α) (f : α → NmeaM R β)
    (r : NmeaReader R) :
    postedFixes (p >>= f) r = postedFixes p r ++ postedFixes (f (p.val r)) (p.exec r) := by
  rw [postedFixes, log_bind, List.filterMap_append]
  rfl

theorem postedFixes_read_bind {β : Type} (f : NmeaReader R → NmeaM R β) (r : NmeaReader R) :
    postedFixes (read >>= f) r = postedFixes (f r) r := by
  rw [postedFixes_bind]
  rfl

/-- A run that posts no location. -/
theorem postedFixes_eq_nil {α : Type} {p : NmeaM R α} {r : NmeaReader R}
    (h : p.Emits (fun a _ => a ≠ .post .locationCb) r) : postedFixes p r = [] := by
  apply List.filterMap_eq_nil_iff.mpr
  intro e he
  exact if_neg (h e he)

theorem postedFixes_nmeaReaderPostFix (r : NmeaReader R) :
    postedFixes nmeaReaderPostFix r = if r.FixDue then [r.fix] else [] := by
  rw [nmeaReaderPostFix, postedFixes_read_bind]
  -- there are flags and a callback, or nothing is posted
  by_cases hdue : r.FixDue
  · rw [if_pos hdue, Prog.when, if_pos hdue.1, Prog.when, if_pos hdue.2]
    rfl
  · rw [if_neg hdue]
    apply postedFixes_eq_nil
    simp only [emits_when, emits_bind, emits_setPendingCallback, emits_assign]
    exact fun hflags hcallback => absurd ⟨hflags, hcallback⟩ hdue

end Fixes

variable {R : Type} [Libc R]

/-- **The fixes of a line**: at most one, which its branch has made. -/
theorem postedFixes_nmeaReaderParseLine (line : List UInt8) (r : NmeaReader R) :
    postedFixes (nmeaReaderParseLine line) r =
      if LongEnough line ∧ ((nmeaReaderBranch line).exec r).FixDue then
        [((nmeaReaderBranch line).exec r).fix]
      else [] := by
  -- neither the branch of the sentence nor the post of the satellites posts a fix
  have hbranch : postedFixes (nmeaReaderBranch line) r = [] := by
    apply postedFixes_eq_nil
    refine (emits_nmeaReaderBranch line r).mono fun a t ha hpost => ?_
    rw [hpost] at ha
    cases ha
  have hsv (t : NmeaReader R) : postedFixes nmeaReaderPostSvStatus t = [] := by
    apply postedFixes_eq_nil
    simp [nmeaReaderPostSvStatus]
  rw [nmeaReaderParseLine_eq]
  unfold nmeaReaderBranch at hbranch ⊢
  by_cases h : LongEnough line
  · simp only [Prog.when, if_pos h] at hbranch ⊢
    rw [postedFixes_bind, postedFixes_bind, hbranch, hsv, postedFixes_nmeaReaderPostFix]
    simp [h]
  · rw [Prog.when, if_neg h, if_neg fun hdue => h hdue.1]
    rfl

/-! ## §2 Bytes and Lines -/

omit [Libc R] in
/-- The two readers differ in the buffer only. -/
def SameButFrame (r t : NmeaReader R) : Prop :=
  ∃ pos overflow inBuf, t = { r with pos := pos, overflow := overflow, inBuf := inBuf }

omit [Libc R] in
theorem SameButFrame.refl (r : NmeaReader R) : SameButFrame r r := ⟨r.pos, r.overflow, r.inBuf, rfl⟩

omit [Libc R] in
theorem SameButFrame.trans {r t u : NmeaReader R} (h : SameButFrame r t) (h' : SameButFrame t u) :
    SameButFrame r u := by
  obtain ⟨pos, overflow, inBuf, rfl⟩ := h
  obtain ⟨pos', overflow', inBuf', rfl⟩ := h'
  exact ⟨pos', overflow', inBuf', rfl⟩

omit [Libc R] in
theorem sameButFrame_store (r : NmeaReader R) (c : UInt8) : SameButFrame r (r.store c) :=
  ⟨_, r.overflow, _, rfl⟩

/-- **Step lemma**: a byte that ends no line posts nothing and changes the buffer only. -/
theorem addc_inside {c : UInt8} (hc : c ≠ byte '\n') (r : NmeaReader R) :
    SameButFrame r ((nmeaReaderAddc c).exec r) ∧ postedFixes (nmeaReaderAddc c) r = [] := by
  constructor
  · rw [exec_nmeaReaderAddc]
    split_ifs
    · exact ⟨r.pos, _, r.inBuf, rfl⟩
    · exact ⟨_, _, r.inBuf, rfl⟩
    · exact sameButFrame_store r c
  · apply postedFixes_eq_nil
    simp [nmeaReaderAddc, nmeaReaderStore, hc]

/-- **Run lemma**: bytes inside a line. -/
theorem addAll_inside {s : List UInt8} (hs : byte '\n' ∉ s) (r : NmeaReader R) :
    SameButFrame r ((nmeaReaderAddAll s).exec r) ∧ postedFixes (nmeaReaderAddAll s) r = [] := by
  induction s generalizing r with
  | nil => exact ⟨.refl r, rfl⟩
  | cons c s ih =>
    rw [List.mem_cons, not_or] at hs
    obtain ⟨hsame, hposts⟩ := addc_inside (Ne.symm hs.1) r
    obtain ⟨hsame', hposts'⟩ := ih hs.2 ((nmeaReaderAddc c).exec r)
    rw [nmeaReaderAddAll, exec_bind, postedFixes_bind, hposts, hposts']
    exact ⟨hsame.trans hsame', rfl⟩

theorem exec_nmeaReaderAddAll_append (s t : List UInt8) (r : NmeaReader R) :
    (nmeaReaderAddAll (s ++ t)).exec r = (nmeaReaderAddAll t).exec ((nmeaReaderAddAll s).exec r) := by
  induction s generalizing r with
  | nil => rfl
  | cons c s ih => rw [List.cons_append, nmeaReaderAddAll, nmeaReaderAddAll, exec_bind, exec_bind, ih]

theorem postedFixes_nmeaReaderAddAll_append (s t : List UInt8) (r : NmeaReader R) :
    postedFixes (nmeaReaderAddAll (s ++ t)) r =
      postedFixes (nmeaReaderAddAll s) r ++
        postedFixes (nmeaReaderAddAll t) ((nmeaReaderAddAll s).exec r) := by
  induction s generalizing r with
  | nil => rfl
  | cons c s ih =>
    rw [List.cons_append, nmeaReaderAddAll, nmeaReaderAddAll, postedFixes_bind, postedFixes_bind,
      exec_bind, ih, List.append_assoc]

theorem skipping_inside {s : List UInt8} (hs : byte '\n' ∉ s) {r : NmeaReader R}
    (h : Skipping r) : Skipping ((nmeaReaderAddAll s).exec r) := by
  induction s generalizing r with
  | nil => exact h
  | cons c s ih =>
    rw [List.mem_cons, not_or] at hs
    -- only the end of the line stops the skipping
    have hnext := (addc_of_skipping h c).1
    rw [if_neg (Ne.symm hs.1)] at hnext
    exact ih hs.2 hnext

/-- Where the buffer stands after bytes inside a line. -/
theorem mode_inside {s : List UInt8} (hs : byte '\n' ∉ s) {r : NmeaReader R} {cur : List UInt8}
    (h : Collecting r cur) :
    if cur.length + s.length ≤ nmeaMaxSize then Collecting ((nmeaReaderAddAll s).exec r) (cur ++ s)
    else Skipping ((nmeaReaderAddAll s).exec r) := by
  induction s generalizing r cur with
  | nil =>
    have hroom : cur.length + ([] : List UInt8).length ≤ nmeaMaxSize := h.room
    rw [if_pos hroom, List.append_nil]
    exact h
  | cons c s ih =>
    rw [List.mem_cons, not_or] at hs
    rw [nmeaReaderAddAll, exec_bind]
    rcases lt_or_eq_of_le h.room with hroom | hfull
    · have hnext := ih hs.2 (addc_of_collecting h hroom (Ne.symm hs.1)).1
      rw [List.length_append, List.length_singleton, List.append_assoc, Nat.add_assoc,
        Nat.add_comm 1] at hnext
      exact hnext
    · -- the buffer is full
      have hlong : ¬cur.length + (c :: s).length ≤ nmeaMaxSize := by
        rw [hfull, List.length_cons]
        omega
      rw [if_neg hlong]
      exact skipping_inside hs.2 (addc_of_full h hfull c).1

/-- The newline that ends a stored line posts what the line posts. -/
theorem postedFixes_newline {r : NmeaReader R} {cur : List UInt8} (h : Collecting r cur)
    (hroom : cur.length < nmeaMaxSize) :
    postedFixes (nmeaReaderAddc (byte '\n')) r =
      postedFixes (nmeaReaderParseLine (cur ++ [byte '\n'])) (r.store (byte '\n')) := by
  have hpos : ¬nmeaMaxSize ≤ r.pos := by
    rw [h.pos]
    omega
  have hstored := h.store hroom (byte '\n')
  have hstore : postedFixes (nmeaReaderStore (byte '\n')) r = [] :=
    postedFixes_eq_nil (by simp [nmeaReaderStore])
  have hcall (line : List UInt8) (t : NmeaReader R) : postedFixes (act (.parse line) id) t = [] :=
    postedFixes_eq_nil (by simp)
  -- the post of the sentence itself is no post of a fix
  have htail (t : NmeaReader R) : postedFixes (do
      let r ← read
      when r.nmeaCallback do
        setPendingCallback .nmeaCb
      assign fun r => { r with pos := 0 }) t = [] :=
    postedFixes_eq_nil (by simp)
  rw [nmeaReaderAddc, postedFixes_read_bind, h.overflow, if_neg (by decide), if_neg hpos,
    postedFixes_bind, hstore, when, if_pos rfl, exec_nmeaReaderStore, nmeaReaderEndLine,
    postedFixes_bind, htail, nmeaReaderParse, postedFixes_read_bind, postedFixes_bind, hcall,
    exec_act, hstored.held]
  exact List.append_nil _

/-- A whole line, short or long, is followed by the next one. -/
structure LineRead (line : List UInt8) (r t : NmeaReader R) (fixes : List (GpsLocation R)) : Prop where
  collecting : Collecting t []
  /-- A short line is parsed, a long one dropped. -/
  parsed : ∃ r₁, SameButFrame r r₁ ∧
    if ShortLine line then
      SameButFrame ((nmeaReaderParseLine line).exec r₁) t ∧
        fixes = postedFixes (nmeaReaderParseLine line) r₁
    else SameButFrame r₁ t ∧ fixes = []

/-- **One line more**, unless it has exactly 84 bytes. -/
theorem lineRead_addAll {s : List UInt8} (hs : byte '\n' ∉ s) (hfits : s.length ≠ nmeaMaxSize)
    {r : NmeaReader R} (h : Collecting r []) :
    LineRead (s ++ [byte '\n']) r ((nmeaReaderAddAll (s ++ [byte '\n'])).exec r)
      (postedFixes (nmeaReaderAddAll (s ++ [byte '\n'])) r) := by
  obtain ⟨hsame, hposts⟩ := addAll_inside hs r
  have hmode := mode_inside hs h
  rw [List.length_nil, Nat.zero_add, List.nil_append] at hmode
  rw [exec_nmeaReaderAddAll_append, postedFixes_nmeaReaderAddAll_append, hposts, List.nil_append]
  set r₁ := (nmeaReaderAddAll s).exec r with hr₁
  have hone : (nmeaReaderAddAll [byte '\n']).exec r₁ = (nmeaReaderAddc (byte '\n')).exec r₁ := rfl
  have honePosts : postedFixes (nmeaReaderAddAll [byte '\n']) r₁ =
      postedFixes (nmeaReaderAddc (byte '\n')) r₁ := by
    rw [nmeaReaderAddAll, postedFixes_bind]
    exact List.append_nil _
  rw [hone, honePosts]
  by_cases hshort : s.length < nmeaMaxSize
  · -- the line is stored, and its newline has it parsed
    rw [if_pos hshort.le] at hmode
    have hline : ShortLine (s ++ [byte '\n']) := by
      rw [ShortLine, List.length_append, List.length_singleton]
      exact hshort
    have hpos : ¬nmeaMaxSize ≤ r₁.pos := by
      rw [hmode.pos]
      omega
    refine ⟨(addc_of_newline hmode hshort).1, r₁.store (byte '\n'),
      hsame.trans (sameButFrame_store r₁ _), ?_⟩
    rw [if_pos hline, exec_nmeaReaderAddc, hmode.overflow, if_neg (by decide), if_neg hpos,
      if_pos rfl, exec_nmeaReaderEndLine, (hmode.store hshort _).held]
    exact ⟨⟨0, _, _, rfl⟩, postedFixes_newline hmode hshort⟩
  · -- the line was given up, and its newline ends that
    have hlong : ¬s.length ≤ nmeaMaxSize := by omega
    rw [if_neg hlong] at hmode
    have hline : ¬ShortLine (s ++ [byte '\n']) := by
      rw [ShortLine, List.length_append, List.length_singleton]
      omega
    have hnext := (addc_of_skipping hmode (byte '\n')).1
    rw [if_pos rfl] at hnext
    refine ⟨hnext, r₁, hsame, ?_⟩
    rw [if_neg hline, exec_nmeaReaderAddc, hmode.overflow, if_pos rfl]
    refine ⟨⟨_, _, _, rfl⟩, postedFixes_eq_nil ?_⟩
    simp [nmeaReaderAddc, hmode.overflow]

/-! ## §3 Reports Among Other Lines -/

/-- A line that asks for no fix, without its newline.  A line of 84 bytes costs the line after
it, so there is none of these. -/
structure OtherLine where
  text : List UInt8
  newline_not_mem : byte '\n' ∉ text
  fits : text.length ≠ nmeaMaxSize
  quiet : ShortLine (text ++ [byte '\n']) → ¬AsksForFix (text ++ [byte '\n'])

/-- What a receiver sends. -/
inductive Piece where
  | report (rep : Report) (sum : UInt8) (cr : Bool)
  | other (l : OtherLine)

/-- The bytes before the newline. -/
def Piece.text : Piece → List UInt8
  | .report rep sum cr => rep.text sum cr
  | .other l => l.text

/-- The line of a piece. -/
def Piece.line (piece : Piece) : List UInt8 := piece.text ++ [byte '\n']

/-- The bytes of a stream. -/
def stream (pieces : List Piece) : List UInt8 := pieces.flatMap Piece.line

/-- The altitude that the next fix has, after a line that asks for none. -/
def OtherLine.altitude (l : OtherLine) (altitude : Option ℚ) : Option ℚ :=
  if ShortLine (l.text ++ [byte '\n']) then
    (acceptedBy (l.text ++ [byte '\n'])).altitude.or altitude
  else altitude

/-- The fixes that are due: one for each report, with the last altitude since the one before. -/
def assemble (altitude : Option ℚ) : List Piece → List (Report × Option ℚ)
  | [] => []
  | .report rep _ _ :: pieces => (rep, altitude) :: assemble none pieces
  | .other l :: pieces => assemble (l.altitude altitude) pieces

/-- The flags, but for the accuracy, which is stored without its flag when it is 99.99. -/
def flagsButAccuracy (fix : GpsLocation ℚ) : BitVec 16 := fix.flags &&& ~~~gpsLocationHasAccuracy

/-- The fix says what the report says, and has the altitude, if there is one. -/
structure Report.IsFix (rep : Report) (altitude : Option ℚ) (fix : GpsLocation ℚ) : Prop where
  flags : flagsButAccuracy fix = gpsLocationHasLatLong ||| gpsLocationHasSpeed |||
    gpsLocationHasBearing ||| FixFields.flag altitude gpsLocationHasAltitude
  latitude : fix.latitude = rep.latitude.value
  longitude : fix.longitude = rep.longitude.value
  speed : fix.speed = rep.speed / 10 * (514444 / 1000000)
  bearing : fix.bearing = rep.course / 10
  timestamp : fix.timestamp = rep.moment.instant
  altitude : ∀ x ∈ altitude, fix.altitude = x

/-- The reader waits for a report, and the next fix has this altitude. -/
structure Awaiting (altitude : Option ℚ) (r : NmeaReader ℚ) : Prop where
  callback : r.callback
  update : r.update = false
  flags : flagsButAccuracy r.fix = FixFields.flag altitude gpsLocationHasAltitude
  altitude : ∀ x ∈ altitude, r.fix.altitude = x

theorem Awaiting.sameButFrame {altitude : Option ℚ} {r t : NmeaReader ℚ} (h : Awaiting altitude r)
    (hsame : SameButFrame r t) : Awaiting altitude t := by
  obtain ⟨pos, overflow, inBuf, rfl⟩ := hsame
  exact ⟨h.callback, h.update, h.flags, h.altitude⟩

/-- A line that asks for no fix accepts an altitude or an accuracy, and nothing else. -/
theorem acceptedBy_of_quiet {line : List UInt8} (h : ¬AsksForFix line) :
    acceptedBy (R := ℚ) line =
      { altitude := (acceptedBy (R := ℚ) line).altitude,
        accuracy := (acceptedBy (R := ℚ) line).accuracy } := by
  have hnone : ({} : FixFields ℚ) =
      { altitude := ({} : FixFields ℚ).altitude, accuracy := ({} : FixFields ℚ).accuracy } := rfl
  by_cases hgga : IsSentence (bytes "GGA") line
  · rw [acceptedBy_gga hgga, acceptedByGga]
    split
    · rfl
    · exact hnone
  by_cases hgsa : IsSentence (bytes "GSA") line
  · rw [acceptedBy_gsa hgsa, acceptedByGsa]
    split
    · rfl
    · exact hnone
  by_cases hgll : IsSentence (bytes "GLL") line
  · -- the position of a void sentence is not looked at
    rw [acceptedBy_gll hgll, acceptedByGll, if_neg fun hvalid => h (.inl ⟨hgll, hvalid⟩)]
  by_cases hrmc : IsSentence (bytes "RMC") line
  · rw [acceptedBy_rmc hrmc, acceptedByRmc, if_neg fun hvalid => h (.inr ⟨hrmc, hvalid⟩)]
  · rw [acceptedBy, if_neg hgga, if_neg hgsa, if_neg hgll, if_neg hrmc]

/-- The flags after a branch. -/
theorem flagsButAccuracy_nmeaReaderBranch (line : List UInt8) (r : NmeaReader ℚ) :
    flagsButAccuracy ((nmeaReaderBranch line).exec r).fix =
      flagsButAccuracy r.fix ||| (acceptedBy (R := ℚ) line).flags &&& ~~~gpsLocationHasAccuracy := by
  obtain ⟨accuracy, timestamp, hfix, -⟩ := fix_nmeaReaderBranch line r
  rw [hfix]
  exact BitVec.and_or_distrib_right

/-- The marker after a line. -/
theorem update_nmeaReaderParseLine (line : List UInt8) (r : NmeaReader ℚ) :
    ((nmeaReaderParseLine line).exec r).update =
      if LongEnough line ∧ ((nmeaReaderBranch line).exec r).FixDue then false
      else ((nmeaReaderBranch line).exec r).update := by
  -- the post of the satellites does not touch `update`
  have hsv (t : NmeaReader ℚ) : t.svStatusPosted.update = t.update := by
    unfold NmeaReader.svStatusPosted
    split <;> rfl
  rw [exec_nmeaReaderParseLine]
  by_cases hlong : LongEnough line
  · rw [if_pos hlong, hsv, NmeaReader.fixPosted]
    by_cases hdue : ((nmeaReaderBranch line).exec r).FixDue
    · rw [if_pos hdue, if_pos ⟨hlong, hdue⟩]
    · rw [if_neg hdue, if_neg fun h => hdue h.2]
  · rw [if_neg hlong, if_neg fun h => hlong h.1, nmeaReaderBranch, exec_when, if_neg hlong]

section Steps

variable {altitude : Option ℚ} {r : NmeaReader ℚ}

/-- **Step lemma**: a line that asks for no fix posts none, and may set the altitude. -/
theorem Awaiting.other (h : Awaiting altitude r) {line : List UInt8} (hquiet : ¬AsksForFix line) :
    Awaiting ((acceptedBy line).altitude.or altitude) ((nmeaReaderParseLine line).exec r) ∧
      postedFixes (nmeaReaderParseLine line) r = [] := by
  -- the line asks for no fix and none was waiting, so none is due
  have hnotDue : ¬(LongEnough line ∧ ((nmeaReaderBranch line).exec r).FixDue) := by
    rw [fixDue_nmeaReaderBranch_iff h.callback, h.update]
    simp [hquiet]
  have hfix : ((nmeaReaderParseLine line).exec r).fix = ((nmeaReaderBranch line).exec r).fix := by
    rw [fix_nmeaReaderParseLine, if_neg hnotDue]
  refine ⟨⟨?_, ?_, ?_, ?_⟩, ?_⟩
  · rw [callback_nmeaReaderParseLine]
    exact h.callback
  · rw [update_nmeaReaderParseLine, if_neg hnotDue, update_nmeaReaderBranch, h.update]
    simp [hquiet]
  · -- all the flags it can add are those of an altitude
    have haltitude (x : Option ℚ) : FixFields.flag x gpsLocationHasAltitude &&&
        ~~~gpsLocationHasAccuracy = FixFields.flag x gpsLocationHasAltitude := by
      cases x <;> simp [FixFields.flag, gpsLocationHasAltitude, gpsLocationHasAccuracy]
    have haccuracy (x : Option ℚ) : FixFields.flag x gpsLocationHasAccuracy &&&
        ~~~gpsLocationHasAccuracy = 0 := by
      cases x <;> simp [FixFields.flag, gpsLocationHasAccuracy]
    have hnone (mask : BitVec 16) : FixFields.flag (none : Option ℚ) mask = 0 := rfl
    have hnonePosition (mask : BitVec 16) : FixFields.flag (none : Option (ℚ × ℚ)) mask = 0 := rfl
    rw [hfix, flagsButAccuracy_nmeaReaderBranch, h.flags, acceptedBy_of_quiet hquiet,
      FixFields.flags, FixFields.flag_or, BitVec.and_or_distrib_right, BitVec.and_or_distrib_right,
      BitVec.and_or_distrib_right, BitVec.and_or_distrib_right, haltitude, haccuracy, hnone, hnone,
      hnonePosition]
    simp [BitVec.or_comm]
  · -- the altitude awaited is that of the last line that had one
    obtain ⟨accuracy, timestamp, hstored, -⟩ := fix_nmeaReaderBranch line r
    intro x hx
    rw [hfix, hstored]
    show (acceptedBy line).altitude.getD r.fix.altitude = x
    cases hnew : (acceptedBy (R := ℚ) line).altitude with
    | none =>
      rw [hnew, Option.none_or] at hx
      exact h.altitude x hx
    | some y =>
      rw [hnew, Option.some_or] at hx
      exact Option.some.inj hx
  · rw [postedFixes_nmeaReaderParseLine, if_neg hnotDue]

/-- **Step lemma**: a report posts its fix. -/
theorem Awaiting.report (h : Awaiting altitude r) (rep : Report) (sum : UInt8) (cr : Bool) :
    Awaiting none ((nmeaReaderParseLine (rep.line sum cr)).exec r) ∧
      ∃ fix, postedFixes (nmeaReaderParseLine (rep.line sum cr)) r = [fix] ∧
        rep.IsFix altitude fix := by
  have haccepted := rep.acceptedBy_line sum cr
  have hflags : rep.accepted.flags =
      gpsLocationHasLatLong ||| gpsLocationHasBearing ||| gpsLocationHasSpeed := by
    simp [FixFields.flags, FixFields.flag, Report.accepted]
  -- a valid RMC sentence with a position in it makes a fix due at once
  have hdue : LongEnough (rep.line sum cr) ∧
      ((nmeaReaderBranch (rep.line sum cr)).exec r).FixDue := by
    refine ⟨rep.longEnough_line sum cr, ?_⟩
    rw [fixDue_nmeaReaderBranch_iff h.callback, haccepted, hflags]
    refine ⟨fun hzero => ?_, .inr (.inr (rep.isValidRmc_line sum cr))⟩
    exact absurd (BitVec.or_eq_zero_iff.mp hzero).2 (by decide)
  have hfix := fix_nmeaReaderParseLine (rep.line sum cr) r
  rw [if_pos hdue] at hfix
  refine ⟨⟨?_, ?_, ?_, fun x hx => by cases hx⟩,
    ((nmeaReaderBranch (rep.line sum cr)).exec r).fix, ?_, ?_⟩
  · rw [callback_nmeaReaderParseLine]
    exact h.callback
  · rw [update_nmeaReaderParseLine, if_pos hdue]
  · rw [hfix]
    simp [flagsButAccuracy, FixFields.flag]
  · rw [postedFixes_nmeaReaderParseLine, if_pos hdue]
  · -- the branch stores the report over an altitude, if there is one
    obtain ⟨accuracy, timestamp, hstored, -⟩ := fix_nmeaReaderBranch (rep.line sum cr) r
    rw [haccepted] at hstored
    refine ⟨?_, ?_, ?_, ?_, ?_, rep.timestamp_line sum cr r, ?_⟩
    · rw [flagsButAccuracy_nmeaReaderBranch, h.flags, haccepted, hflags]
      cases altitude <;>
        simp [FixFields.flag, gpsLocationHasLatLong, gpsLocationHasBearing, gpsLocationHasSpeed,
          gpsLocationHasAltitude, gpsLocationHasAccuracy]
    · rw [hstored]
      rfl
    · rw [hstored]
      rfl
    · rw [hstored]
      rfl
    · rw [hstored]
      rfl
    · intro x hx
      rw [hstored]
      exact h.altitude x hx

end Steps

/-! ## §4 Whole Streams -/

theorem Piece.newline_not_mem_text (piece : Piece) : byte '\n' ∉ piece.text := by
  cases piece with
  | report rep sum cr => exact rep.newline_not_mem_text sum cr
  | other l => exact l.newline_not_mem

theorem Piece.length_text_ne (piece : Piece) : piece.text.length ≠ nmeaMaxSize := by
  cases piece with
  | report rep sum cr =>
    have hlen := rep.length_line sum cr
    rw [Report.line, List.length_append, List.length_singleton] at hlen
    show (rep.text sum cr).length ≠ 83
    split at hlen <;> omega
  | other l => exact l.fits

theorem stream_cons (piece : Piece) (pieces : List Piece) :
    stream (piece :: pieces) = piece.line ++ stream pieces := List.flatMap_cons

theorem Report.shortLine_line (rep : Report) (sum : UInt8) (cr : Bool) :
    ShortLine (rep.line sum cr) := by
  rw [ShortLine, length_line]
  split <;> decide

/-- One piece more. -/
theorem Piece.lineRead (piece : Piece) {r : NmeaReader ℚ} (h : Collecting r []) :
    LineRead piece.line r ((nmeaReaderAddAll piece.line).exec r)
      (postedFixes (nmeaReaderAddAll piece.line) r) :=
  lineRead_addAll piece.newline_not_mem_text piece.length_text_ne h

/-- **Run lemma**: the fixes that a stream posts are those that are due. -/
theorem fixes_of_stream (pieces : List Piece) {altitude : Option ℚ} {r : NmeaReader ℚ}
    (hcol : Collecting r []) (h : Awaiting altitude r) :
    List.Forall₂ (fun due fix => due.1.IsFix due.2 fix) (assemble altitude pieces)
      (postedFixes (nmeaReaderAddAll (stream pieces)) r) := by
  -- piece by piece; all that one leaves for the next is an altitude
  induction pieces generalizing altitude r with
  | nil => exact List.Forall₂.nil
  | cons piece pieces ih =>
    obtain ⟨hcol', r₁, hsame, hparsed⟩ := piece.lineRead hcol
    have h₁ := h.sameButFrame hsame
    rw [stream_cons, postedFixes_nmeaReaderAddAll_append]
    cases piece with
    | report rep sum cr =>
      have hline : (Piece.report rep sum cr).line = rep.line sum cr := rfl
      rw [hline] at hparsed hcol' ⊢
      rw [if_pos (rep.shortLine_line sum cr)] at hparsed
      obtain ⟨hsame', hfixes⟩ := hparsed
      obtain ⟨hnext, fix, hposted, hfix⟩ := h₁.report rep sum cr
      rw [hfixes, hposted]
      exact List.Forall₂.cons hfix (ih hcol' (hnext.sameButFrame hsame'))
    | other l =>
      have hline : (Piece.other l).line = l.text ++ [byte '\n'] := rfl
      rw [hline] at hparsed hcol' ⊢
      rw [assemble, OtherLine.altitude]
      by_cases hshort : ShortLine (l.text ++ [byte '\n'])
      · rw [if_pos hshort] at hparsed ⊢
        obtain ⟨hsame', hfixes⟩ := hparsed
        obtain ⟨hnext, hposted⟩ := h₁.other (l.quiet hshort)
        rw [hfixes, hposted]
        exact ih hcol' (hnext.sameButFrame hsame')
      · -- a line that did not fit
        rw [if_neg hshort] at hparsed ⊢
        obtain ⟨hsame', hfixes⟩ := hparsed
        rw [hfixes]
        exact ih hcol' (h₁.sameButFrame hsame')

/-- Where a stream is cut off, some pieces are whole, and perhaps another one has begun. -/
theorem prefix_stream {pieces : List Piece} {s : List UInt8} (h : s <+: stream pieces) :
    ∃ done rest part, pieces = done ++ rest ∧ s = stream done ++ part ∧ byte '\n' ∉ part := by
  -- the prefix ends inside the first piece or goes past it
  induction pieces generalizing s with
  | nil => exact ⟨[], [], [], rfl, List.prefix_nil.mp h, List.not_mem_nil⟩
  | cons piece pieces ih =>
    rw [stream_cons] at h
    rcases List.prefix_or_prefix_of_prefix h (List.prefix_append _ _) with hin | ⟨s', rfl⟩
    · -- with the newline, or before it
      rcases List.prefix_concat_iff.mp hin with rfl | hpart
      · exact ⟨[piece], pieces, [], rfl, by simp [stream, Piece.line], List.not_mem_nil⟩
      · exact ⟨[], piece :: pieces, s, rfl, rfl,
          fun hmem => piece.newline_not_mem_text (hpart.subset hmem)⟩
    · obtain ⟨done, rest, part, rfl, rfl, hpart⟩ := ih ((List.prefix_append_right_inj _).mp h)
      refine ⟨piece :: done, rest, part, rfl, ?_, hpart⟩
      rw [stream_cons, List.append_assoc]

end OdroidU2.Gps
