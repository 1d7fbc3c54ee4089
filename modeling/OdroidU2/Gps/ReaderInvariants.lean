import OdroidU2.Gps.Reader

/-!
# What the Parser Keeps

Invariants of the shared reader that hold in every intermediate state of
`nmea_reader_parse`.  The assignments of the parser fall into a few groups; an invariant
that survives each group is kept by every function, and the induction over the code is
done once:

- `KeptByUpdates` — the fix and the date, written by the update functions
- `KeptByParse` — also the flags and the mask
- `KeptByGsv` — also the satellite list, written by the GSV branch only
- `AllowsPosts` — the commands posted after the sentence, each with what led to it
- `KeptByAddc` — also the framing of lines
-/

namespace OdroidU2.Gps

open OdroidU2.Foundations Prog

variable {R : Type} [Libc R]
variable {I : NmeaReader R → Prop} {P : Action → NmeaReader R → Prop}

/-! ## §1 Groups of Assignments -/

/-- `I` survives the assignments of the update functions, and `P` allows them. -/
structure KeptByUpdates (I : NmeaReader R → Prop) (P : Action → NmeaReader R → Prop) :
    Prop where
  fix : ∀ r x, I r → I { r with fix := x } ∧ P .assign { r with fix := x }
  date : ∀ r y m d, I r → I { r with utcYear := y, utcMon := m, utcDay := d } ∧
    P .assign { r with utcYear := y, utcMon := m, utcDay := d }

/-- `I` also survives what the branches other than GSV do. -/
structure KeptByParse (I : NmeaReader R → Prop) (P : Action → NmeaReader R → Prop) : Prop
    extends KeptByUpdates I P where
  mask : ∀ r x, I r → I { r with svStatus.usedInFixMask := x } ∧
    P .assign { r with svStatus.usedInFixMask := x } ∧
    ∀ k, P (.maskShift k) { r with svStatus.usedInFixMask := x }
  changed : ∀ r b, I r → I { r with svStatusChanged := b } ∧
    P .assign { r with svStatusChanged := b }
  update : ∀ r b, I r → I { r with update := b } ∧ P .assign { r with update := b }

/-- `I` also survives any change of the satellite list. -/
structure KeptByGsv (I : NmeaReader R → Prop) (P : Action → NmeaReader R → Prop) : Prop
    extends KeptByParse I P where
  svStatus : ∀ r x, I r → I { r with svStatus := x } ∧
    P .assign { r with svStatus := x } ∧ ∀ curr, P (.svStore curr) { r with svStatus := x }

/-- `P` allows the commands the parser posts: a fix only when it is not empty, and the
satellite status only when it changed. -/
structure AllowsPosts (I : NmeaReader R → Prop) (P : Action → NmeaReader R → Prop) : Prop where
  locationCb : ∀ r, I r → r.fix.flags ≠ 0 → P (.post .locationCb) r
  svStatusCb : ∀ r, I r → r.svStatusChanged → P (.post .svStatusCb) r

/-- `I` also survives what `nmea_reader_addc` does around the parser. -/
structure KeptByAddc (I : NmeaReader R → Prop) (P : Action → NmeaReader R → Prop) : Prop
    extends KeptByGsv I P, AllowsPosts I P where
  frame : ∀ r pos overflow inBuf, I r →
    I { r with pos := pos, overflow := overflow, inBuf := inBuf } ∧
    P .assign { r with pos := pos, overflow := overflow, inBuf := inBuf } ∧
    ∀ idx, P (.inStore idx) { r with pos := pos, overflow := overflow, inBuf := inBuf }
  parse : ∀ r line, I r → P (.parse line) r
  nmeaCb : ∀ r, I r → P (.post .nmeaCb) r

omit [Libc R] in
theorem keeps_assign {f : NmeaReader R → NmeaReader R}
    (hf : ∀ r, I r → I (f r) ∧ P .assign (f r)) : Keeps I P (assign f) :=
  keeps_act hf

/-! ## §2 The Update Functions -/

section Updates

variable (h : KeptByUpdates I P)
include h

theorem keeps_nmeaReaderUpdateTime (tok : Token) :
    Keeps I P (nmeaReaderUpdateTime (R := R) tok) := by
  refine Keeps.ite (fun _ => keeps_pure _) fun _ => Keeps.read_bind fun r _ => ?_
  -- the date of the day is written only where no year is known, the fix in any case
  refine Keeps.bind (Keeps.when fun _ => ?_) fun _ => Keeps.read_bind fun r _ => ?_
  · exact Keeps.bind (keeps_assign fun r => h.date r _ _ _) fun _ =>
      Keeps.bind (keeps_assign fun r => h.date r _ _ _) fun _ =>
      keeps_assign fun r => h.date r _ _ _
  · exact Keeps.bind (keeps_assign fun r => h.fix r _) fun _ => keeps_pure _

theorem keeps_nmeaReaderUpdateDate (date time : Token) :
    Keeps I P (nmeaReaderUpdateDate (R := R) date time) := by
  refine Keeps.ite (fun _ => keeps_pure _) fun _ => ?_
  refine Keeps.ite (fun _ => keeps_pure _) fun _ => ?_
  exact Keeps.bind (keeps_assign fun r => h.date r _ _ _) fun _ =>
    Keeps.bind (keeps_assign fun r => h.date r _ _ _) fun _ =>
    Keeps.bind (keeps_assign fun r => h.date r _ _ _) fun _ =>
    keeps_nmeaReaderUpdateTime h time

theorem keeps_nmeaReaderUpdateLatlong (lat : Token) (latHemi : UInt8) (lon : Token)
    (lonHemi : UInt8) : Keeps I P (nmeaReaderUpdateLatlong (R := R) lat latHemi lon lonHemi) := by
  refine Keeps.ite (fun _ => keeps_pure _) fun _ => ?_
  refine Keeps.ite (fun _ => keeps_pure _) fun _ => ?_
  exact Keeps.bind (keeps_assign fun r => h.fix r _) fun _ =>
    Keeps.bind (keeps_assign fun r => h.fix r _) fun _ =>
    Keeps.bind (keeps_assign fun r => h.fix r _) fun _ => keeps_pure _

theorem keeps_nmeaReaderUpdateAltitude (altitude units : Token) :
    Keeps I P (nmeaReaderUpdateAltitude (R := R) altitude units) := by
  refine Keeps.ite (fun _ => keeps_pure _) fun _ => ?_
  exact Keeps.bind (keeps_assign fun r => h.fix r _) fun _ =>
    Keeps.bind (keeps_assign fun r => h.fix r _) fun _ => keeps_pure _

theorem keeps_nmeaReaderUpdateAccuracy (accuracy : Token) :
    Keeps I P (nmeaReaderUpdateAccuracy (R := R) accuracy) := by
  refine Keeps.ite (fun _ => keeps_pure _) fun _ => ?_
  refine Keeps.bind (keeps_assign fun r => h.fix r _) fun _ => Keeps.read_bind fun r _ => ?_
  refine Keeps.ite (fun _ => keeps_pure _) fun _ => ?_
  exact Keeps.bind (keeps_assign fun r => h.fix r _) fun _ => keeps_pure _

theorem keeps_nmeaReaderUpdateBearing (bearing : Token) :
    Keeps I P (nmeaReaderUpdateBearing (R := R) bearing) := by
  refine Keeps.ite (fun _ => keeps_pure _) fun _ => ?_
  exact Keeps.bind (keeps_assign fun r => h.fix r _) fun _ =>
    Keeps.bind (keeps_assign fun r => h.fix r _) fun _ => keeps_pure _

theorem keeps_nmeaReaderUpdateSpeed (speed : Token) :
    Keeps I P (nmeaReaderUpdateSpeed (R := R) speed) := by
  refine Keeps.ite (fun _ => keeps_pure _) fun _ => ?_
  exact Keeps.bind (keeps_assign fun r => h.fix r _) fun _ =>
    Keeps.bind (keeps_assign fun r => h.fix r _) fun _ => keeps_pure _

end Updates

/-! ## §3 The Branches -/

section Branches

variable (h : KeptByParse I P)
include h

theorem keeps_nmeaReaderParseGga (tzer : NmeaTokenizer) :
    Keeps I P (nmeaReaderParseGga (R := R) tzer) := by
  refine Keeps.when fun _ => ?_
  exact Keeps.bind (keeps_nmeaReaderUpdateAltitude h.toKeptByUpdates _ _) fun _ => keeps_pure _

omit [Libc R] in
theorem keeps_nmeaReaderParseGsaLoop (tzer : NmeaTokenizer) (is : List Nat) :
    Keeps I P (nmeaReaderParseGsaLoop (R := R) tzer is) := by
  induction is with
  | nil => exact keeps_pure ()
  | cons i rest ih =>
    refine Keeps.bind (Keeps.when fun _ => ?_) fun _ => ih
    exact Keeps.bind (keeps_act fun r hr => ⟨(h.mask r _ hr).1, (h.mask r _ hr).2.2 _⟩) fun _ =>
      keeps_assign fun r => h.changed r _

theorem keeps_nmeaReaderParseGsa (tzer : NmeaTokenizer) :
    Keeps I P (nmeaReaderParseGsa (R := R) tzer) := by
  refine Keeps.when fun _ => ?_
  exact Keeps.bind (keeps_nmeaReaderUpdateAccuracy h.toKeptByUpdates _) fun _ =>
    Keeps.bind (keeps_assign fun r hr => ⟨(h.mask r _ hr).1, (h.mask r _ hr).2.1⟩) fun _ =>
    keeps_nmeaReaderParseGsaLoop h tzer _

theorem keeps_nmeaReaderParseGll (tzer : NmeaTokenizer) :
    Keeps I P (nmeaReaderParseGll (R := R) tzer) := by
  refine Keeps.when fun _ => ?_
  exact Keeps.bind (keeps_nmeaReaderUpdateLatlong h.toKeptByUpdates _ _ _ _) fun _ =>
    keeps_assign fun r => h.update r _

theorem keeps_nmeaReaderParseRmc (tzer : NmeaTokenizer) :
    Keeps I P (nmeaReaderParseRmc (R := R) tzer) := by
  refine Keeps.when fun _ => ?_
  exact Keeps.bind (keeps_nmeaReaderUpdateDate h.toKeptByUpdates _ _) fun _ =>
    Keeps.bind (keeps_nmeaReaderUpdateLatlong h.toKeptByUpdates _ _ _ _) fun _ =>
    Keeps.bind (keeps_nmeaReaderUpdateBearing h.toKeptByUpdates _) fun _ =>
    Keeps.bind (keeps_nmeaReaderUpdateSpeed h.toKeptByUpdates _) fun _ =>
    keeps_assign fun r => h.update r _

/-- A sentence other than GSV does nothing beyond the groups of `KeptByParse`. -/
theorem keeps_nmeaReaderParseSentence_of_ne (tzer : NmeaTokenizer) {id : List UInt8}
    (hid : id ≠ bytes "GSV") : Keeps I P (nmeaReaderParseSentence (R := R) tzer id) := by
  refine Keeps.ite (fun _ => keeps_nmeaReaderParseGga h tzer) fun _ => ?_
  refine Keeps.ite (fun _ => keeps_nmeaReaderParseGsa h tzer) fun _ => ?_
  refine Keeps.ite (fun _ => keeps_nmeaReaderParseGll h tzer) fun _ => ?_
  refine Keeps.ite (fun _ => keeps_nmeaReaderParseRmc h tzer) fun _ => ?_
  exact Keeps.ite (fun hgsv => absurd hgsv hid) fun _ => keeps_pure ()

end Branches

/-! ## §4 The Whole Parser -/

section Parser

variable (h : KeptByGsv I P)
include h

omit [Libc R] in
theorem keeps_svStore (curr : Int) (f : GpsSvInfo R → GpsSvInfo R) :
    Keeps I P (svStore curr f) := by
  apply keeps_act
  intro r hr
  have hkept : I (r.modifySv curr f) ∧ P (.svStore curr) (r.modifySv curr f) := by
    unfold NmeaReader.modifySv
    -- a store outside the list changes no entry, and is still an action of the log
    split
    · exact ⟨(h.svStatus r _ hr).1, (h.svStatus r _ hr).2.2 curr⟩
    · exact ⟨hr, (h.svStatus r r.svStatus hr).2.2 curr⟩
  exact hkept

theorem keeps_nmeaReaderStoreSv (tzer : NmeaTokenizer) (i : Nat) (curr prn : Int) :
    Keeps I P (nmeaReaderStoreSv (R := R) tzer i curr prn) := by
  exact Keeps.bind (keeps_svStore h curr _) fun _ =>
    Keeps.bind (keeps_svStore h curr _) fun _ =>
    Keeps.bind (keeps_svStore h curr _) fun _ =>
    Keeps.bind (keeps_svStore h curr _) fun _ =>
    keeps_assign fun r hr => ⟨(h.svStatus r _ hr).1, (h.svStatus r _ hr).2.1⟩

theorem keeps_nmeaReaderParseGsvLoop (tzer : NmeaTokenizer) (noSatellites : Int)
    (n i : Nat) (curr : Int) :
    Keeps I P (nmeaReaderParseGsvLoop (R := R) tzer noSatellites n i curr) := by
  induction n generalizing i curr with
  | zero => exact keeps_pure ()
  | succ n ih =>
    refine Keeps.read_bind fun _ _ => Keeps.when fun _ => ?_
    refine Keeps.ite (fun _ => ?_) fun _ => ih (i + 1) curr
    exact Keeps.bind (keeps_nmeaReaderStoreSv h tzer i curr _) fun _ => ih (i + 1) (curr + 1)

omit [Libc R] in
theorem keeps_nmeaReaderStartGsv (sentence : Int) :
    Keeps I P (nmeaReaderStartGsv (R := R) sentence) := by
  refine Keeps.when fun _ => Keeps.bind (keeps_assign fun r => h.changed r _) fun _ => ?_
  exact keeps_assign fun r hr => ⟨(h.svStatus r _ hr).1, (h.svStatus r _ hr).2.1⟩

theorem keeps_nmeaReaderParseGsv (tzer : NmeaTokenizer) :
    Keeps I P (nmeaReaderParseGsv (R := R) tzer) := by
  refine Keeps.when fun _ => Keeps.bind (keeps_nmeaReaderStartGsv h _) fun _ => ?_
  exact Keeps.read_bind fun r _ =>
    Keeps.bind (keeps_nmeaReaderParseGsvLoop h tzer _ _ _ _) fun _ =>
    Keeps.when fun _ => keeps_assign fun r => h.changed r _

theorem keeps_nmeaReaderParseSentence (tzer : NmeaTokenizer) (id : List UInt8) :
    Keeps I P (nmeaReaderParseSentence (R := R) tzer id) := by
  by_cases hid : id = bytes "GSV"
  · rw [hid, nmeaReaderParseSentence, if_neg (by decide), if_neg (by decide),
      if_neg (by decide), if_neg (by decide), if_pos rfl]
    exact keeps_nmeaReaderParseGsv h tzer
  · exact keeps_nmeaReaderParseSentence_of_ne h.toKeptByParse tzer hid

end Parser

/-! ## §5 Posting, and the Whole Parser -/

section Posts

variable (h : KeptByParse I P) (hpost : AllowsPosts I P)
include h hpost

omit [Libc R] in
theorem keeps_nmeaReaderPostFix : Keeps I P (nmeaReaderPostFix (R := R)) := by
  intro r hr
  obtain ⟨hflags, hlog⟩ := h.fix r { r.fix with flags := 0 } hr
  obtain ⟨hupdate, hlog'⟩ := h.update { r with fix.flags := 0 } false hflags
  have hcmd := hpost.locationCb r hr
  simp only [nmeaReaderPostFix, exec_bind, emits_bind, val_read, exec_read, emits_read,
    exec_when, emits_when, exec_setPendingCallback, emits_setPendingCallback, exec_assign,
    emits_assign, true_and]
  -- a fix posted and cleared; no callback to post it to; no fix due
  split_ifs with hfix hcb
  · exact ⟨hupdate, fun _ _ => ⟨hcmd hfix.1, hlog, hlog'⟩⟩
  · exact ⟨hr, fun _ hcb' => absurd hcb' hcb⟩
  · exact ⟨hr, fun hfix' => absurd hfix' hfix⟩

omit [Libc R] in
theorem keeps_nmeaReaderPostSvStatus : Keeps I P (nmeaReaderPostSvStatus (R := R)) := by
  intro r hr
  obtain ⟨hchanged, hlog⟩ := h.changed r false hr
  have hcmd := hpost.svStatusCb r hr
  simp only [nmeaReaderPostSvStatus, exec_bind, emits_bind, val_read, exec_read, emits_read,
    exec_when, emits_when, exec_setPendingCallback, emits_setPendingCallback, exec_assign,
    emits_assign, true_and]
  -- changed and asked for: posted and cleared; otherwise nothing happens
  split_ifs with hsv hcb
  · exact ⟨hchanged, fun _ _ => ⟨hcmd hsv, hlog⟩⟩
  · exact ⟨hr, fun _ hcb' => absurd hcb' hcb⟩
  · exact ⟨hr, fun hsv' => absurd hsv' hsv⟩

end Posts

/-- An invariant kept by every group of assignments is kept by the whole parser. -/
theorem keeps_nmeaReaderParseLine (h : KeptByGsv I P) (hpost : AllowsPosts I P)
    (line : List UInt8) : Keeps I P (nmeaReaderParseLine (R := R) line) := by
  refine Keeps.when fun _ => Keeps.when fun _ => ?_
  exact Keeps.bind (keeps_nmeaReaderParseSentence h _ _) fun _ =>
    Keeps.bind (keeps_nmeaReaderPostFix h.toKeptByParse hpost) fun _ =>
    keeps_nmeaReaderPostSvStatus h.toKeptByParse hpost

/-! ## §6 `nmea_reader_addc` -/

section Addc

variable (h : KeptByAddc I P)
include h

omit [Libc R] in
theorem keeps_nmeaReaderStore (c : UInt8) : Keeps I P (nmeaReaderStore (R := R) c) := by
  refine Keeps.read_bind fun r _ => Keeps.bind (keeps_act fun t ht => ?_) fun _ => ?_
  · exact ⟨(h.frame t _ _ _ ht).1, (h.frame t _ _ _ ht).2.2 _⟩
  · exact keeps_assign fun t ht => ⟨(h.frame t _ _ _ ht).1, (h.frame t _ _ _ ht).2.1⟩

theorem keeps_nmeaReaderEndLine : Keeps I P (nmeaReaderEndLine (R := R)) := by
  have hline := keeps_nmeaReaderParseLine h.toKeptByGsv h.toAllowsPosts
  refine Keeps.bind ?_ fun _ => Keeps.read_bind fun _ _ => Keeps.bind ?_ fun _ => ?_
  · exact Keeps.read_bind fun r _ =>
      Keeps.bind (keeps_act fun t ht => ⟨ht, h.parse t _ ht⟩) fun _ => hline _
  · exact Keeps.when fun _ => keeps_act fun t ht => ⟨ht, h.nmeaCb t ht⟩
  · exact keeps_assign fun t ht => ⟨(h.frame t _ _ _ ht).1, (h.frame t _ _ _ ht).2.1⟩

/-- An invariant kept by every group of assignments is kept by `nmea_reader_addc`. -/
theorem keeps_nmeaReaderAddc (c : UInt8) : Keeps I P (nmeaReaderAddc (R := R) c) := by
  -- an assignment to `pos` or `overflow` is of no concern to the invariant
  have hframe : ∀ f : NmeaReader R → NmeaReader R,
      (∀ t, ∃ pos overflow, f t = { t with pos := pos, overflow := overflow }) →
      Keeps I P (assign f) := by
    intro f hf
    apply keeps_assign
    intro t ht
    obtain ⟨pos, overflow, heq⟩ := hf t
    rw [heq]
    exact ⟨(h.frame t _ _ _ ht).1, (h.frame t _ _ _ ht).2.1⟩
  refine Keeps.read_bind fun r _ => Keeps.ite (fun _ => ?_) fun _ => Keeps.ite (fun _ => ?_) fun _ => ?_
  · exact hframe _ fun t => ⟨t.pos, _, rfl⟩
  · exact Keeps.bind (hframe _ fun t => ⟨t.pos, true, rfl⟩) fun _ =>
      hframe _ fun t => ⟨0, t.overflow, rfl⟩
  · exact Keeps.bind (keeps_nmeaReaderStore h c) fun _ =>
      Keeps.when fun _ => keeps_nmeaReaderEndLine h

end Addc

end OdroidU2.Gps
