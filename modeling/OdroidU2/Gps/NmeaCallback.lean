import OdroidU2.Gps.Dispatch
import OdroidU2.Gps.Framing

/-!
# NMEA Callbacks

`main_loop` passes `r->in` and `r->pos + 1` to the NMEA callback.  The position is reset
right after the post, so the pair names the posted sentence only at one kind of moment:
when the reader has since taken the sentence's bytes *again*, all but the last one, and
what it took before that was short enough to leave the old newline in place.

- `AtRepeat` — that moment, as a condition on the bytes of the stream
- `NmeaHeld` — the invariant that carries the sentence through the buffer
-/

namespace OdroidU2.Gps

open OdroidU2.Foundations Prog

variable {R : Type} [Libc R]

/-! ## §1 The Line in Progress -/

/-- The bytes after the last newline of a stream, of which `cur` was read before. -/
def splitPartial (cur : List UInt8) : List UInt8 → List UInt8
  | [] => cur
  | c :: rest => if c = byte '\n' then splitPartial [] rest else splitPartial (cur ++ [c]) rest

/-- The bytes after the last newline of a stream. -/
def partialLine (s : List UInt8) : List UInt8 := splitPartial [] s

theorem splitPartial_concat (cur s : List UInt8) (c : UInt8) :
    splitPartial cur (s ++ [c]) = if c = byte '\n' then [] else splitPartial cur s ++ [c] := by
  induction s generalizing cur with
  | nil => rfl
  | cons d rest ih =>
    rw [List.cons_append, splitPartial, splitPartial]
    split
    · exact ih []
    · exact ih _

theorem splitLines_concat (cur s : List UInt8) (c : UInt8) :
    splitLines cur (s ++ [c]) =
      splitLines cur s ++ if c = byte '\n' then [splitPartial cur s ++ [c]] else [] := by
  induction s generalizing cur with
  | nil => rfl
  | cons d rest ih =>
    rw [List.cons_append, splitLines, splitLines, splitPartial]
    -- a line that ends inside `s` leaves the last one as it is
    split
    · rw [ih [], List.cons_append]
    · exact ih _

/-- A byte extends the line in progress, or completes it. -/
theorem partialLine_concat (s : List UInt8) (c : UInt8) :
    partialLine (s ++ [c]) = if c = byte '\n' then [] else partialLine s ++ [c] :=
  splitPartial_concat [] s c

theorem lines_concat (s : List UInt8) (c : UInt8) :
    lines (s ++ [c]) = lines s ++ if c = byte '\n' then [partialLine s ++ [c]] else [] :=
  splitLines_concat [] s c

/-! ## §2 What an NMEA Callback Must See -/

/-- The sentence whose completion posted a command. -/
def Posted.sentence (e : Posted R) : List UInt8 := e.reader.inBuf.take e.reader.pos

/-- Was this an NMEA command of `nmea_reader_addc`?  The one `nmea_reader_set_callbacks`
posts comes before the first byte. -/
def Posted.IsSentence (e : Posted R) : Prop := e.cmd = .nmeaCb ∧ 0 < e.taken

instance (e : Posted R) : Decidable e.IsSentence := by unfold Posted.IsSentence; infer_instance

/-- A callback was given the length of the sentence, and sees its bytes. -/
def SeesSentence (l : Look R) : Prop :=
  l.length = some l.posted.sentence.length ∧
    l.reader.inBuf.take l.posted.sentence.length = l.posted.sentence

instance (l : Look R) : Decidable (SeesSentence l) := by unfold SeesSentence; infer_instance

/-- Everything NMEA callbacks have seen so far is the sentence that was posted. -/
def NmeaLooksRight (s : GpsState R) : Prop :=
  ∀ l ∈ s.looks, l.posted.IsSentence → SeesSentence l

instance (s : GpsState R) : Decidable (NmeaLooksRight s) := by
  unfold NmeaLooksRight
  infer_instance

/-- After `sentence`, the stream went on with lines no longer than it, and then with
all of its bytes but the newline. -/
def AtRepeat (sentence since : List UInt8) : Prop :=
  (∀ line ∈ lines since, line.length ≤ sentence.length) ∧
    partialLine since = sentence.dropLast

instance (sentence since : List UInt8) : Decidable (AtRepeat sentence since) := by
  unfold AtRepeat
  infer_instance

/-- An NMEA callback starts, and follows its pointer, only when no call of
`nmea_reader_addc` is in progress and the stream repeats the sentence. -/
def CalledAtRepeat (s : GpsState R) (a : GpsStep) : Prop :=
  a = .dispatch ∨ a = .look → ∀ e ∈ s.mainLoop.command?, e.IsSentence →
    s.pending.isEmpty ∧ AtRepeat e.sentence (s.taken.drop e.taken)

instance (s : GpsState R) (a : GpsStep) : Decidable (CalledAtRepeat s a) := by
  unfold CalledAtRepeat
  infer_instance

/-! ## §3 The Sentence in the Buffer -/

/-- The buffer still ends a line of `n` bytes where the sentence did, and the reader
collects the line in progress, which is shorter. -/
def HoldsNewline (r : NmeaReader R) (n : Nat) (since : List UInt8) : Prop :=
  (∀ line ∈ lines since, line.length ≤ n) → (partialLine since).length < n →
    Collecting r (partialLine since) ∧ r.inBuf[n - 1]? = some (byte '\n')

/-- What is known of a posted sentence, when the code in progress will leave `t`. -/
structure SentenceHeld (t : NmeaReader R) (sentence since : List UInt8) : Prop where
  short : ShortLine sentence
  ends : ∃ body, sentence = body ++ [byte '\n']
  held : HoldsNewline t sentence.length since

/-- Inside the buffer, a byte goes to the end of the line in progress. -/
theorem inBuf_addc {r : NmeaReader R} {cur : List UInt8} (h : Collecting r cur)
    (hroom : cur.length < nmeaMaxSize) (c : UInt8) :
    ((nmeaReaderAddc c).exec r).inBuf = r.inBuf.set cur.length c := by
  have hpos : ¬ nmeaMaxSize ≤ r.pos := by rw [h.pos]; omega
  have hstore : (r.store c).inBuf = r.inBuf.set cur.length c := by rw [NmeaReader.store, h.pos]
  rw [exec_nmeaReaderAddc, h.overflow, if_neg (by decide), if_neg hpos]
  -- at the end of a line the parser runs too, and leaves the buffer alone
  split
  · obtain ⟨hframe, -⟩ :=
      nmeaReaderParseLine_sameFrame ((r.store c).inBuf.take (r.store c).pos) (r.store c)
    rw [exec_nmeaReaderEndLine, hframe.inBuf, hstore]
  · exact hstore

/-- One byte keeps the newline of the sentence in its place. -/
theorem HoldsNewline.addc {r : NmeaReader R} {n : Nat} {since : List UInt8}
    (hn : n ≤ nmeaMaxSize) (h : HoldsNewline r n since) (c : UInt8) :
    HoldsNewline ((nmeaReaderAddc c).exec r) n (since ++ [c]) := by
  intro hlines hunfinished
  rw [lines_concat] at hlines
  rw [partialLine_concat] at hunfinished ⊢
  have hold : ∀ line ∈ lines since, line.length ≤ n :=
    fun line hl => hlines line (List.mem_append_left _ hl)
  by_cases hc : c = byte '\n'
  · -- the newline goes to the sentence's own place, or to one before it
    subst hc
    rw [if_pos rfl] at hlines ⊢
    have hlen : (partialLine since).length < n := by
      have hline := hlines _ (List.mem_append_right _ List.mem_cons_self)
      rw [List.length_append, List.length_singleton] at hline
      omega
    obtain ⟨hcollect, hlast⟩ := h hold hlen
    obtain ⟨hnext, -⟩ := addc_of_newline hcollect (by omega)
    refine ⟨hnext, ?_⟩
    rw [inBuf_addc hcollect (by omega), List.getElem?_set]
    split
    · rw [if_pos (by rw [hcollect.size]; omega)]
    · exact hlast
  · -- any other byte goes to a place before it
    rw [if_neg hc] at hunfinished hlines ⊢
    rw [List.length_append, List.length_singleton] at hunfinished
    obtain ⟨hcollect, hlast⟩ := h hold (by omega)
    obtain ⟨hnext, -⟩ := addc_of_collecting hcollect (by omega) hc
    refine ⟨hnext, ?_⟩
    rw [inBuf_addc hcollect (by omega), List.getElem?_set_ne (by omega)]
    exact hlast

omit [Libc R] in
/-- At the moment of the condition the position and the buffer are the sentence's. -/
theorem SentenceHeld.at_repeat {r : NmeaReader R} {sentence since : List UInt8}
    (h : SentenceHeld r sentence since) (hrepeat : AtRepeat sentence since) :
    r.pos + 1 = sentence.length ∧ r.inBuf.take sentence.length = sentence := by
  obtain ⟨body, hbody⟩ := h.ends
  obtain ⟨hlines, hunfinished⟩ := hrepeat
  have hlen : sentence.length = body.length + 1 := by
    rw [hbody, List.length_append, List.length_singleton]
  -- the unfinished line is the sentence without its newline
  have hdrop : partialLine since = body := by rw [hunfinished, hbody, List.dropLast_concat]
  -- so the buffer holds it, and behind it still the newline of the time before
  obtain ⟨hcollect, hlast⟩ := h.held hlines (by rw [hdrop, hlen]; exact Nat.lt_succ_self _)
  have hpos : r.pos = body.length := by rw [hcollect.pos, hdrop]
  refine ⟨by rw [hpos, hlen], ?_⟩
  rw [hlen, List.take_add_one, ← hpos, hcollect.held, hdrop, hbody]
  rw [hlen, Nat.add_sub_cancel, ← hpos] at hlast
  rw [hlast]
  rfl

/-! ## §4 What Is Posted -/

/-- What a sentence command says about the reader the call will leave. -/
def PostsSentence (final : NmeaReader R) (a : Action) (t : NmeaReader R) : Prop :=
  a = .post .nmeaCb → SentenceHeld final (t.inBuf.take t.pos) []

theorem emits_postsSentence_nmeaReaderEndLine (r final : NmeaReader R)
    (h : ∀ t, SameFrame r t → SentenceHeld final (t.inBuf.take t.pos) []) :
    nmeaReaderEndLine.Emits (PostsSentence final) r := by
  obtain ⟨hframe, hparser⟩ := nmeaReaderParseLine_sameFrame (r.inBuf.take r.pos) r
  have hline : (nmeaReaderParseLine (r.inBuf.take r.pos)).Emits (PostsSentence final) r :=
    hparser.mono fun _ _ haction hpost => absurd hpost haction.2.2
  simp only [nmeaReaderEndLine, nmeaReaderParse, emits_bind, emits_read, val_read, exec_read,
    exec_bind, emits_act, exec_act, id_eq, emits_when, emits_setPendingCallback, emits_assign]
  refine ⟨⟨trivial, fun hpost => ?_, hline⟩, trivial, fun _ _ => h _ hframe, fun hpost => ?_⟩
  · cases hpost
  · cases hpost

/-- The line that `c` completes is held by the reader the call leaves. -/
theorem sentenceHeld_endLine {r t : NmeaReader R} (hover : r.overflow = false)
    (hroom : r.pos < nmeaMaxSize) (hsize : r.inBuf.length = nmeaMaxSize + 1)
    (ht : SameFrame (r.store (byte '\n')) t) :
    SentenceHeld (nmeaReaderEndLine.exec (r.store (byte '\n'))) (t.inBuf.take t.pos) [] := by
  have hlt : r.pos < r.inBuf.length := by omega
  -- what was posted is the line just stored, newline included
  have hsentence : t.inBuf.take t.pos = r.inBuf.take r.pos ++ [byte '\n'] := by
    rw [ht.inBuf, ht.pos, take_store hlt]
  have hlen : (t.inBuf.take t.pos).length = r.pos + 1 := by
    rw [hsentence, List.length_append, List.length_singleton, List.length_take_of_le hlt.le]
  -- the parser in between leaves the buffer alone
  obtain ⟨hframe, -⟩ := nmeaReaderParseLine_sameFrame
    ((r.store (byte '\n')).inBuf.take (r.store (byte '\n')).pos) (r.store (byte '\n'))
  refine ⟨by rw [ShortLine, hlen]; exact hroom, ⟨_, hsentence⟩, fun _ _ => ?_⟩
  rw [exec_nmeaReaderEndLine, hlen, Nat.add_sub_cancel]
  refine ⟨⟨hframe.overflow.trans hover, ?_, rfl, Nat.zero_le _, rfl⟩, ?_⟩
  · rw [hframe.inBuf, NmeaReader.store, List.length_set, hsize]
  · rw [hframe.inBuf, NmeaReader.store, List.getElem?_set_self hlt]

/-- A call of `nmea_reader_addc` posts a sentence only once it is in the buffer, newline
and all, and then starts the next line. -/
theorem emits_postsSentence_nmeaReaderAddc (c : UInt8) (r : NmeaReader R)
    (hsize : r.inBuf.length = nmeaMaxSize + 1) :
    (nmeaReaderAddc c).Emits (PostsSentence ((nmeaReaderAddc c).exec r)) r := by
  set final := (nmeaReaderAddc c).exec r with hfinal
  rw [exec_nmeaReaderAddc] at hfinal
  have hstore : (nmeaReaderStore c).Emits (PostsSentence final) r := by
    simp [nmeaReaderStore, PostsSentence]
  -- an assignment posts nothing
  have hassign (f : NmeaReader R → NmeaReader R) (t : NmeaReader R) :
      (assign f).Emits (PostsSentence final) t := by
    refine (emits_assign _ _).mpr fun hpost => ?_
    cases hpost
  rw [nmeaReaderAddc, emits_bind, val_read, exec_read, and_iff_right (emits_read r)]
  split_ifs at hfinal ⊢ with hover hfull
  · exact hassign _ r
  · exact (emits_bind _ _ _).mpr ⟨hassign _ _, hassign _ _⟩
  · -- the end of a line: the sentence is the stored line
    rename_i hc
    subst hc
    refine (emits_bind _ _ _).mpr ⟨hstore, (emits_when _ _ _).mpr fun _ => ?_⟩
    apply emits_postsSentence_nmeaReaderEndLine
    intro t ht
    rw [hfinal]
    exact sentenceHeld_endLine (Bool.not_eq_true _ |>.mp hover) (by omega) hsize ht
  · rename_i hc
    exact (emits_bind _ _ _).mpr ⟨hstore, (emits_when _ _ _).mpr fun hc' => absurd hc' hc⟩

theorem length_inBuf_addc (c : UInt8) (r : NmeaReader R) :
    ((nmeaReaderAddc c).exec r).inBuf.length = r.inBuf.length := by
  have hstore : (r.store c).inBuf.length = r.inBuf.length := List.length_set
  rw [exec_nmeaReaderAddc]
  split_ifs
  · rfl
  · rfl
  · obtain ⟨hframe, -⟩ :=
      nmeaReaderParseLine_sameFrame ((r.store c).inBuf.take (r.store c).pos) (r.store c)
    rw [exec_nmeaReaderEndLine, hframe.inBuf, hstore]
  · exact hstore

/-! ## §5 The Invariant -/

/-- What holds while NMEA callbacks are made at repeats only: every outstanding sentence is
held by the buffer as far as the stream allows. -/
structure NmeaHeld (s : GpsState R) : Prop where
  size : s.settled.inBuf.length = nmeaMaxSize + 1
  pending : s.taken ≠ [] → ∀ e ∈ s.pending, PostsSentence s.settled e.1 e.2
  outstanding : ∀ e ∈ s.outstanding, e.IsSentence → e.taken ≤ s.taken.length ∧
    SentenceHeld s.settled e.sentence (s.taken.drop e.taken)
  length : ∀ e len, s.mainLoop = .calling e len → e.IsSentence → len = some e.sentence.length
  looks : NmeaLooksRight s

theorem nmeaHeld_init (cbs : GpsCallbacks) : NmeaHeld (GpsState.init (R := R) cbs) where
  size := by
    have hsettled : (GpsState.init (R := R) cbs).settled = readerAfterInit cbs :=
      lastState_log _ _
    rw [hsettled]
    exact (collecting_readerAfterInit cbs).size
  pending h := absurd rfl h
  outstanding := by
    intro e he
    rw [outstanding_init] at he
    cases he
  length := by
    intro e len hcall
    cases hcall
  looks := by
    intro l hl
    rw [looks_init] at hl
    cases hl

/-- An outstanding sentence stays held whatever the step does. -/
theorem sentenceHeld_of_step {s t : GpsState R} {a : GpsStep} (h : gpsMachine.step s a = some t)
    {e : Posted R} (htaken : e.taken ≤ s.taken.length)
    (hheld : SentenceHeld s.settled e.sentence (s.taken.drop e.taken)) :
    e.taken ≤ t.taken.length ∧ SentenceHeld t.settled e.sentence (t.taken.drop e.taken) := by
  -- only a byte that is taken moves the settled reader
  rcases pending_of_step h with ⟨c, rfl, -, -, hbytes⟩ | ⟨-, hsettled, hbytes⟩
  · rw [settled_of_addc h, hbytes, List.length_append, List.drop_append_of_le_length htaken]
    exact ⟨by omega, hheld.short, hheld.ends, hheld.held.addc hheld.short c⟩
  · rw [hsettled, hbytes]
    exact ⟨htaken, hheld⟩

omit [Libc R] in
/-- A sentence that has just been posted is held. -/
theorem sentenceHeld_of_posted {s : GpsState R} (hs : NmeaHeld s) {x : Action} {r : NmeaReader R}
    {rest : List (Action × NmeaReader R)} (hpending : s.pending = (x, r) :: rest)
    {e : Posted R} (he : e ∈ s.posted x r) (hsentence : e.IsSentence) :
    e.taken ≤ s.taken.length ∧ SentenceHeld s.settled e.sentence (s.taken.drop e.taken) := by
  obtain ⟨hcmd, hpos⟩ := hsentence
  -- of the reader's actions only a post puts something into the socket
  cases x <;> simp only [GpsState.posted, List.not_mem_nil, List.mem_singleton] at he
  subst he
  have hbytes : s.taken ≠ [] := List.ne_nil_of_length_pos hpos
  have hpost := hs.pending hbytes _ (by rw [hpending]; exact List.mem_cons_self)
  refine ⟨le_rfl, ?_⟩
  rw [List.drop_length]
  exact hpost (congrArg Action.post hcmd)

omit [Libc R] in
/-- At a repeat the reader gives the dispatcher the sentence and its length. -/
theorem reader_at_repeat {s : GpsState R} {a : GpsStep} (hs : NmeaHeld s)
    (hrepeat : CalledAtRepeat s a) (ha : a = .dispatch ∨ a = .look) {e : Posted R}
    (he : s.mainLoop.command? = some e) (hsentence : e.IsSentence) :
    s.reader.pos + 1 = e.sentence.length ∧
      s.reader.inBuf.take e.sentence.length = e.sentence := by
  have hmem : e ∈ s.outstanding := by simp [GpsState.outstanding, he]
  obtain ⟨hidle, hstream⟩ := hrepeat ha e he hsentence
  obtain ⟨-, hheld⟩ := hs.outstanding e hmem hsentence
  -- nothing is pending, so the reader seen is the settled one
  rw [← settled_of_isEmpty hidle]
  exact hheld.at_repeat hstream

/-- **Step lemma**: a step that calls back at a repeat, if at all, keeps the invariant. -/
theorem nmeaHeld_step (s : GpsState R) (a : GpsStep) (t : GpsState R) (hs : NmeaHeld s)
    (hrepeat : CalledAtRepeat s a) (h : gpsMachine.step s a = some t) : NmeaHeld t where
  size := by
    rcases pending_of_step h with ⟨c, rfl, -, -, -⟩ | ⟨-, hsettled, -⟩
    · rw [settled_of_addc h, length_inBuf_addc, hs.size]
    · rw [hsettled, hs.size]
  pending := by
    intro hbytes e he
    rcases pending_of_step h with ⟨c, rfl, hidle, hcall, -⟩ | ⟨hsuffix, hsettled, htaken⟩
    · have hreader : s.settled = s.reader := settled_of_isEmpty (by rw [hidle]; rfl)
      have hsize := hs.size
      rw [settled_of_addc h, hreader]
      rw [hcall] at he
      rw [hreader] at hsize
      exact emits_postsSentence_nmeaReaderAddc c s.reader hsize e he
    · rw [hsettled]
      exact hs.pending (by rwa [htaken] at hbytes) e (hsuffix.subset he)
  outstanding := by
    intro e he hsentence
    rcases outstanding_of_step h he with hold | ⟨x, r, rest, rfl, hpending, hnew⟩ | hother
    · obtain ⟨htaken, hheld⟩ := hs.outstanding e hold hsentence
      exact sentenceHeld_of_step h htaken hheld
    · -- the reader thread posts it now, from a buffer that holds it
      obtain ⟨htaken, hheld⟩ := sentenceHeld_of_posted hs hpending hnew hsentence
      exact sentenceHeld_of_step h htaken hheld
    · -- the other threads post no sentence
      rcases hother with hother | hother <;> cases hsentence.1.symm.trans hother
  length := by
    intro e len hcall hsentence
    rcases calling_of_step h hcall with hold | ⟨rfl, hloop, hdispatch⟩
    · exact hs.length e len hold hsentence
    · have hcommand : s.mainLoop.command? = some e := by rw [hloop]; rfl
      -- the length is read at the dispatch, and there the position is back where it was
      obtain ⟨hlen, -⟩ := reader_at_repeat hs hrepeat (.inl rfl) hcommand hsentence
      rw [mainLoopDispatch, hsentence.1, MainLoop.calling.injEq] at hdispatch
      rw [← hdispatch.2, hlen]
  looks := by
    intro l hl hsentence
    rcases looks_of_step h hl with hold | ⟨rfl, hloop, hread⟩
    · exact hs.looks l hold hsentence
    · have hcommand : s.mainLoop.command? = some l.posted := by rw [hloop]; rfl
      -- the bytes are read at the look, and there the buffer holds them again
      obtain ⟨-, hbytes⟩ := reader_at_repeat hs hrepeat (.inr rfl) hcommand hsentence
      refine ⟨hs.length l.posted l.length hloop hsentence, ?_⟩
      rw [hread]
      exact hbytes

/-- In every run that calls back at repeats only, NMEA callbacks see the posted sentence. -/
theorem nmea_looks_right (cbs : GpsCallbacks) (steps : List GpsStep)
    (hrepeat : gpsMachine.AllSteps CalledAtRepeat (GpsState.init (R := R) cbs) steps) :
    ∀ s ∈ gpsMachine.run (GpsState.init (R := R) cbs) steps, NmeaLooksRight s := by
  intro s hrun
  exact (gpsMachine.run_invariant_of nmeaHeld_step (nmeaHeld_init cbs) hrepeat hrun).looks

/-- The driver starts with an NMEA callback installed and is called back for it. -/
def startNmea : List GpsStep :=
  List.replicate 4 .reader ++ [.recv, .dispatch, .ret]

/-- The reader thread takes bytes of a sentence. -/
def takeBytes (s : List UInt8) : List GpsStep := s.flatMap fun c => [.addc c, .reader, .reader]

/-- The reader thread takes the newline, posts the sentence, and resets the position. -/
def takeNewline : List GpsStep := .addc (byte '\n') :: List.replicate 5 .reader

/-- A two-byte sentence is sent twice, and the first callback is made inside the second. -/
theorem nmea_looks_right_at_repeat :
    (gpsMachine.run (GpsState.init (R := ℚ) ⟨false, false, true⟩)
      (startNmea ++ takeBytes (bytes "ab") ++ takeNewline ++ takeBytes (bytes "ab") ++
        [.recv, .dispatch, .look, .ret])).map (·.looks.length) = some 1 ∧
    ∀ s ∈ gpsMachine.run (GpsState.init (R := ℚ) ⟨false, false, true⟩)
      (startNmea ++ takeBytes (bytes "ab") ++ takeNewline ++ takeBytes (bytes "ab") ++
        [.recv, .dispatch, .look, .ret]), NmeaLooksRight s :=
  ⟨by decide +kernel, nmea_looks_right _ _ (by decide +kernel)⟩

/-- `main_loop` answers as soon as the reader is idle, and the callback is given one byte. -/
theorem nmea_length_wrong :
    ¬ ∀ s ∈ gpsMachine.run (GpsState.init (R := ℚ) ⟨false, false, true⟩)
      (startNmea ++ takeBytes (bytes "$GPGGA,,,,,,0") ++ takeNewline ++
        [.recv, .dispatch, .look]), NmeaLooksRight s := by
  decide +kernel

end OdroidU2.Gps
