import OdroidU2.Gps.NmeaCallback
import OdroidU2.Gps.SatelliteList

/-!
# Satellite Status Callbacks

The GSV sentences of a cycle build the satellite list in place: number 1 empties it, and
the one numbered with the total makes `nmea_reader_parse` post `CMD_SV_STATUS_CB`.  So does
a GSA sentence, wherever the cycle is.  `main_loop` passes a pointer to the list, and the
callback sees it as it is by then.

- `sv_looks_right` — what has to hold when the callback looks
- `sv_list_cut_short` — a GSA sentence inside a cycle
-/

namespace OdroidU2.Gps

open OdroidU2.Foundations Prog

variable {R : Type} [Libc R]

/-! ## §1 What a Satellite Status Callback Must See -/

/-- The satellite list: `num_svs`, and as many entries of `sv_list`. -/
def NmeaReader.satellites (r : NmeaReader R) : Int × List (GpsSvInfo R) :=
  (r.svStatus.numSvs, r.svStatus.svList.take r.svStatus.numSvs.toNat)

/-- Is this line a GSV sentence that announces satellites?  The GSV branch passes over any
other. -/
def AnnouncesSatellites (line : List UInt8) : Prop :=
  IsGsv line ∧ 0 < str2int (nmeaTokenizerGet (nmeaTokenizerInit line) 3).text

instance : DecidablePred AnnouncesSatellites := fun line => by
  unfold AnnouncesSatellites
  infer_instance

/-- Is it numbered with the total? -/
def EndsCycle (line : List UInt8) : Prop :=
  AnnouncesSatellites line ∧ str2int (nmeaTokenizerGet (nmeaTokenizerInit line) 2).text =
    str2int (nmeaTokenizerGet (nmeaTokenizerInit line) 1).text

instance : DecidablePred EndsCycle := fun line => by
  unfold EndsCycle
  infer_instance

/-- The reader after a stream. -/
def readerAfter (cbs : GpsCallbacks) (s : List UInt8) : NmeaReader R :=
  (nmeaReaderAddAll s).exec (readerAfterInit cbs)

/-- The list as it stood right after some sentence of the stream that was numbered with its
total. -/
def OfCompletedCycle (cbs : GpsCallbacks) (s : List UInt8) (list : Int × List (GpsSvInfo R)) : Prop :=
  ∃ p c, p ++ [c] <+: s ∧
    (∃ line ∈ parses (nmeaReaderAddc c) (readerAfter (R := R) cbs p), EndsCycle line) ∧
    list = (readerAfter cbs (p ++ [c])).satellites

/-- Was this a satellite status command of `nmea_reader_parse`?  The one
`nmea_reader_set_callbacks` posts comes before the first byte. -/
def Posted.IsSvStatus (e : Posted R) : Prop := e.cmd = .svStatusCb ∧ 0 < e.taken

instance (e : Posted R) : Decidable e.IsSvStatus := by unfold Posted.IsSvStatus; infer_instance

/-- Everything satellite status callbacks have seen so far is the list of a completed cycle. -/
def SvLooksRight (cbs : GpsCallbacks) (s : GpsState R) : Prop :=
  ∀ l ∈ s.looks, l.posted.IsSvStatus → OfCompletedCycle cbs s.taken l.reader.satellites

/-- The last sentence of the stream that announces satellites is numbered with its total. -/
def CycleTaken (s : List UInt8) : Prop :=
  ∃ line ∈ ((delivered false (lines s)).filter (AnnouncesSatellites ·)).getLast?, EndsCycle line

instance (s : List UInt8) : Decidable (CycleTaken s) := by unfold CycleTaken; infer_instance

/-- What the reader thread has left to do of its call does not touch the list. -/
def ListSettled (s : GpsState R) : Prop := ∀ e ∈ s.pending, e.2.satellites = s.reader.satellites

/-- A satellite status callback looks at the list only when the reader thread is not about to
change it, and the last sentence about it was numbered with its total. -/
def LooksBetweenCycles (s : GpsState R) (a : GpsStep) : Prop :=
  a = .look → ∀ e ∈ s.mainLoop.command?, e.IsSvStatus → ListSettled s ∧ CycleTaken s.taken

instance [DecidableEq R] (s : GpsState R) (a : GpsStep) : Decidable (LooksBetweenCycles s a) := by
  unfold LooksBetweenCycles ListSettled
  infer_instance

/-! ## §2 What Changes the List -/

omit [Libc R] in
/-- The branches other than GSV leave the list alone. -/
theorem keptByParse_satellites (list : Int × List (GpsSvInfo R)) :
    KeptByParse (fun r : NmeaReader R => r.satellites = list) (fun _ _ => True) where
  fix _ _ hr := ⟨hr, trivial⟩
  date _ _ _ _ hr := ⟨hr, trivial⟩
  mask _ _ hr := ⟨hr, trivial, fun _ => trivial⟩
  changed _ _ hr := ⟨hr, trivial⟩
  update _ _ hr := ⟨hr, trivial⟩

omit [Libc R] in
theorem allowsPosts_satellites (list : Int × List (GpsSvInfo R)) :
    AllowsPosts (fun r : NmeaReader R => r.satellites = list) (fun _ _ => True) where
  locationCb _ _ _ := trivial
  svStatusCb _ _ _ := trivial

/-- A line that announces no satellites leaves the list alone. -/
theorem satellites_nmeaReaderParseLine {line : List UInt8} (hline : ¬AnnouncesSatellites line)
    (r : NmeaReader R) : ((nmeaReaderParseLine line).exec r).satellites = r.satellites := by
  have h := keptByParse_satellites (R := R) r.satellites
  have hpost := allowsPosts_satellites (R := R) r.satellites
  have hkeeps : Keeps (fun t : NmeaReader R => t.satellites = r.satellites) (fun _ _ => True)
      (nmeaReaderParseLine line) := by
    refine Keeps.when fun hlen => Keeps.when fun htok => Keeps.bind ?_ fun _ =>
      Keeps.bind (keeps_nmeaReaderPostFix h hpost) fun _ => keeps_nmeaReaderPostSvStatus h hpost
    by_cases hid : ((nmeaTokenizerGet (nmeaTokenizerInit line) 0).p.drop 2).take 3 = bytes "GSV"
    · -- the GSV branch passes over it
      rw [hid, nmeaReaderParseSentence_gsv]
      exact Keeps.when fun hany => absurd ⟨⟨hlen, htok, hid⟩, hany⟩ hline
    · exact keeps_nmeaReaderParseSentence_of_ne h _ hid
  exact (hkeeps r rfl).1

/-- A byte that completes no such line leaves the list alone. -/
theorem satellites_nmeaReaderAddc (c : UInt8) (r : NmeaReader R)
    (h : ∀ line ∈ parses (nmeaReaderAddc c) r, ¬AnnouncesSatellites line) :
    ((nmeaReaderAddc c).exec r).satellites = r.satellites := by
  rw [exec_nmeaReaderAddc]
  split_ifs with hover hfull hc
  · rfl
  · rfl
  · -- the newline completes a line, which announces nothing
    have hline := h ((r.store c).inBuf.take (r.store c).pos)
    rw [parses_nmeaReaderAddc, if_neg (by simp [hover, hfull, hc])] at hline
    rw [exec_nmeaReaderEndLine]
    exact satellites_nmeaReaderParseLine (hline (List.mem_singleton_self _)) (r.store c)
  · rfl

/-- One byte completes one line at most. -/
theorem parses_eq_singleton {c : UInt8} {r : NmeaReader R} {line : List UInt8}
    (h : line ∈ parses (nmeaReaderAddc c) r) : parses (nmeaReaderAddc c) r = [line] := by
  rw [parses_nmeaReaderAddc] at h ⊢
  split_ifs at h ⊢
  · cases h
  · rw [List.mem_singleton.mp h]

theorem readerAfter_concat (cbs : GpsCallbacks) (s : List UInt8) (c : UInt8) :
    readerAfter (R := R) cbs (s ++ [c]) = (nmeaReaderAddc c).exec (readerAfter cbs s) :=
  exec_nmeaReaderAddAll_concat s c _

/-- The lines up to a byte, and the one that it completes. -/
theorem delivered_concat (R : Type) [Libc R] (cbs : GpsCallbacks) (s : List UInt8) (c : UInt8) :
    delivered false (lines (s ++ [c])) =
      delivered false (lines s) ++ parses (nmeaReaderAddc c) (readerAfter (R := R) cbs s) := by
  rw [← parsedLines_eq_delivered (R := R) cbs, ← parsedLines_eq_delivered (R := R) cbs,
    parsedLines_concat, readerAfter]

/-- **Run lemma**: while no sentence about the list follows the one numbered with its total,
the list stays as that one left it. -/
theorem ofCompletedCycle_readerAfter (cbs : GpsCallbacks) (s : List UInt8) (h : CycleTaken s) :
    OfCompletedCycle (R := R) cbs s (readerAfter cbs s).satellites := by
  induction s using List.reverseRecOn with
  | nil =>
    obtain ⟨line, hline, -⟩ := h
    cases hline
  | append_singleton s c ih =>
    rw [CycleTaken, delivered_concat R cbs, List.filter_append] at h
    by_cases hany : ∃ line ∈ parses (nmeaReaderAddc c) (readerAfter (R := R) cbs s),
        AnnouncesSatellites line
    · -- the byte completes the last such sentence
      obtain ⟨line, hparsed, hannounces⟩ := hany
      refine ⟨s, c, List.prefix_rfl, ⟨line, hparsed, ?_⟩, rfl⟩
      obtain ⟨last, hlast, hends⟩ := h
      rw [parses_eq_singleton hparsed, List.filter_singleton, decide_eq_true hannounces,
        cond_true, List.getLast?_concat, Option.mem_some_iff] at hlast
      rw [hlast]
      exact hends
    · have hnone : ∀ line ∈ parses (nmeaReaderAddc c) (readerAfter (R := R) cbs s),
          ¬AnnouncesSatellites line := fun line hline hannounces => hany ⟨line, hline, hannounces⟩
      have hfilter : (parses (nmeaReaderAddc c) (readerAfter (R := R) cbs s)).filter
          (AnnouncesSatellites ·) = [] :=
        List.filter_eq_nil_iff.mpr fun line hline => by simpa using hnone line hline
      rw [hfilter, List.append_nil] at h
      -- the list is still the one that the last such sentence has left
      obtain ⟨p, d, hp, hline, hlist⟩ := ih h
      refine ⟨p, d, hp.trans (List.prefix_append s [c]), hline, ?_⟩
      rw [readerAfter_concat, satellites_nmeaReaderAddc c _ hnone, hlist]

theorem OfCompletedCycle.mono {cbs : GpsCallbacks} {s s' : List UInt8}
    {list : Int × List (GpsSvInfo R)} (h : OfCompletedCycle cbs s list) (hs : s <+: s') :
    OfCompletedCycle cbs s' list := by
  obtain ⟨p, c, hp, hrest⟩ := h
  exact ⟨p, c, hp.trans hs, hrest⟩

/-- A cycle is completed by a sentence of the stream. -/
theorem OfCompletedCycle.exists_line {cbs : GpsCallbacks} {s : List UInt8}
    {list : Int × List (GpsSvInfo R)} (h : OfCompletedCycle cbs s list) :
    ∃ line ∈ delivered false (lines s), EndsCycle line := by
  obtain ⟨p, c, hp, ⟨line, hline, hends⟩, -⟩ := h
  induction s using List.reverseRecOn with
  | nil => cases p <;> cases List.prefix_nil.mp hp
  | append_singleton s d ih =>
    rw [delivered_concat R cbs]
    rcases List.prefix_concat_iff.mp hp with heq | hp
    · -- the byte that completes the sentence is the last one
      obtain ⟨rfl, hc⟩ := List.append_inj' heq rfl
      cases hc
      exact ⟨line, List.mem_append_right _ hline, hends⟩
    · obtain ⟨line', hline', hends'⟩ := ih hp
      exact ⟨line', List.mem_append_left _ hline', hends'⟩

/-! ## §3 The Invariant -/

/-- What holds while callbacks look between cycles only. -/
structure SvHeld (cbs : GpsCallbacks) (s : GpsState R) : Prop where
  settled : s.settled = readerAfter cbs s.taken
  looks : SvLooksRight cbs s

theorem svHeld_init (cbs : GpsCallbacks) : SvHeld cbs (GpsState.init (R := R) cbs) where
  settled := lastState_log _ _
  looks := by
    intro l hl
    rw [looks_init] at hl
    cases hl

omit [Libc R] in
/-- When the reader thread is done with the list, it is the one the call in progress leaves. -/
theorem ListSettled.satellites_settled {s : GpsState R} (h : ListSettled s) :
    s.settled.satellites = s.reader.satellites :=
  lastState_of_all (Q := fun r : NmeaReader R => r.satellites = s.reader.satellites) rfl h

/-- **Step lemma**: a step that looks between cycles, if at all, keeps the invariant. -/
theorem svHeld_step (cbs : GpsCallbacks) (s : GpsState R) (a : GpsStep) (t : GpsState R)
    (hs : SvHeld cbs s) (hlooks : LooksBetweenCycles s a) (h : gpsMachine.step s a = some t) :
    SvHeld cbs t where
  settled := by
    rcases pending_of_step h with ⟨c, rfl, -, -, hbytes⟩ | ⟨-, hsettled, hbytes⟩
    · rw [settled_of_addc h, hs.settled, hbytes, readerAfter_concat]
    · rw [hsettled, hbytes, hs.settled]
  looks := by
    intro l hl hsv
    have htaken : s.taken <+: t.taken := by
      rcases pending_of_step h with ⟨c, -, -, -, hbytes⟩ | ⟨-, -, hbytes⟩
      · exact hbytes ▸ List.prefix_append _ _
      · exact hbytes ▸ List.prefix_rfl
    -- an earlier look goes on being right; a new one is taken between two cycles
    rcases looks_of_step h hl with hold | ⟨rfl, hloop, hread⟩
    · exact (hs.looks l hold hsv).mono htaken
    · have hcommand : l.posted ∈ s.mainLoop.command? := by rw [hloop]; rfl
      obtain ⟨hlist, hcycle⟩ := hlooks rfl l.posted hcommand hsv
      rw [hread, ← hlist.satellites_settled, hs.settled]
      exact (ofCompletedCycle_readerAfter cbs s.taken hcycle).mono htaken

/-- In every run in which the callbacks look between cycles only, they see the list of a
completed cycle. -/
theorem sv_looks_right (cbs : GpsCallbacks) (steps : List GpsStep)
    (hlooks : gpsMachine.AllSteps LooksBetweenCycles (GpsState.init (R := R) cbs) steps) :
    ∀ s ∈ gpsMachine.run (GpsState.init (R := R) cbs) steps, SvLooksRight cbs s := by
  intro s hrun
  exact (gpsMachine.run_invariant_of (svHeld_step cbs) (svHeld_init cbs) hlooks hrun).looks

/-- The driver starts with a satellite status callback installed and is called back for it. -/
def startSvStatus : List GpsStep := List.replicate 5 .reader ++ [.recv, .dispatch, .ret]

/-- The cycle of one sentence is taken and posted, and `main_loop` answers. -/
def wholeCycle : List GpsStep :=
  startSvStatus ++ takeBytes (bytes "$GPGSV,1,1,1,7,,,") ++
    .addc (byte '\n') :: List.replicate 12 .reader ++ [.recv, .dispatch, .look, .ret]

/-- The callback sees the list of that cycle. -/
theorem sv_looks_right_after_cycle :
    (gpsMachine.run (GpsState.init (R := ℚ) ⟨false, true, false⟩) wholeCycle).map
      (·.looks.length) = some 1 ∧
    ∀ s ∈ gpsMachine.run (GpsState.init (R := ℚ) ⟨false, true, false⟩) wholeCycle,
      SvLooksRight ⟨false, true, false⟩ s :=
  ⟨by decide +kernel, sv_looks_right _ _ (by decide +kernel)⟩

/-- The first of two GSV sentences, and a GSA sentence. -/
def insideCycle : List UInt8 := bytes "$GPGSV,2,1,5,7,,,\n$GPGSA,A,3,7\n"

/-- The GSA sentence is posted, and `main_loop` answers. -/
def gsaInsideCycle : List GpsStep :=
  startSvStatus ++ takeBytes (bytes "$GPGSV,2,1,5,7,,,") ++
    .addc (byte '\n') :: List.replicate 11 .reader ++ takeBytes (bytes "$GPGSA,A,3,7") ++
    .addc (byte '\n') :: List.replicate 7 .reader ++ [.recv, .dispatch, .look]

/-- The callback is given a list although no cycle has been completed. -/
theorem sv_list_cut_short :
    ¬ ∀ s ∈ gpsMachine.run (GpsState.init (R := ℚ) ⟨false, true, false⟩) gsaInsideCycle,
      SvLooksRight ⟨false, true, false⟩ s := by
  intro h
  -- the callback looks after one of the two sentences of the cycle
  have hlook : (gpsMachine.run (GpsState.init (R := ℚ) ⟨false, true, false⟩) gsaInsideCycle).any
      (fun s => decide (s.taken = insideCycle) &&
        s.looks.any fun l => decide l.posted.IsSvStatus) := by
    decide +kernel
  obtain ⟨s, hs, hlook⟩ := (Option.any_eq_true _ _).mp hlook
  rw [Bool.and_eq_true, decide_eq_true_iff] at hlook
  obtain ⟨htaken, hlook⟩ := hlook
  obtain ⟨l, hl, hsv⟩ := List.any_eq_true.mp hlook
  have hcycle := h s hs l hl (of_decide_eq_true hsv)
  rw [htaken] at hcycle
  exact absurd hcycle.exists_line (by decide +kernel)

end OdroidU2.Gps
