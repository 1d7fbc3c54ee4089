import Mathlib
import OdroidU2.Gps.ExactLibc
import OdroidU2.Gps.ReaderInvariants

/-!
# Line Framing

`nmea_reader_addc` cuts the byte stream into lines.  The abstract framer `delivered`
works on the lines of the stream; `parsedLines_eq_delivered` shows that the reader
simulates it, through a relation for each of its two modes:

- `Collecting r cur` — the buffer holds the line begun so far
- `Skipping r` — the overflow flag is set, and bytes are dropped up to a newline

A line of exactly 84 bytes sets the flag with its own newline, so that the flag stays set
over the *next* line.
-/

namespace OdroidU2.Gps

open OdroidU2.Foundations Prog

variable {R : Type} [Libc R]

/-! ## §1 Lines of a Stream -/

/-- The newline-terminated lines of a stream, of which `cur` was read before. -/
def splitLines (cur : List UInt8) : List UInt8 → List (List UInt8)
  | [] => []
  | c :: rest =>
    if c = byte '\n' then (cur ++ [c]) :: splitLines [] rest else splitLines (cur ++ [c]) rest

/-- The newline-terminated lines of a stream. -/
def lines (s : List UInt8) : List (List UInt8) := splitLines [] s

/-- A line the buffer has room for. -/
def ShortLine (line : List UInt8) : Prop := line.length ≤ nmeaMaxSize

instance : DecidablePred ShortLine := fun line => by unfold ShortLine; infer_instance

/-- The lines a framer hands on that swallows the line after one of exactly 84 bytes. -/
def delivered : Bool → List (List UInt8) → List (List UInt8)
  | _, [] => []
  | true, _ :: ls => delivered false ls
  | false, l :: ls =>
    if ShortLine l then l :: delivered false ls
    else delivered (decide (l.length = nmeaMaxSize + 1)) ls

theorem delivered_true (ls : List (List UInt8)) : delivered true ls = delivered false ls.tail := by
  cases ls with
  | nil => rfl
  | cons l ls => rfl

theorem delivered_cons_of_short {l : List UInt8} (hl : ShortLine l) (ls : List (List UInt8)) :
    delivered false (l :: ls) = l :: delivered false ls := by
  rw [delivered, if_pos hl]

/-- The lines after the one in progress do not depend on how it began. -/
theorem tail_splitLines (cur cur' s : List UInt8) :
    (splitLines cur s).tail = (splitLines cur' s).tail := by
  induction s generalizing cur cur' with
  | nil => rfl
  | cons c rest ih =>
    unfold splitLines
    -- only the first line takes up `cur`
    split
    · rfl
    · exact ih _ _

/-- A line begun with 84 bytes or more is dropped, and costs no other line. -/
theorem delivered_splitLines_of_long {cur : List UInt8} (hcur : nmeaMaxSize < cur.length)
    (s : List UInt8) :
    delivered false (splitLines cur s) = delivered false (splitLines cur s).tail := by
  -- byte after byte: the line is already too long, and grows on until it ends
  induction s generalizing cur with
  | nil => rfl
  | cons c rest ih =>
    rw [splitLines]
    split
    · have hlong : ¬ ShortLine (cur ++ [c]) := by
        simp only [ShortLine, List.length_append, List.length_singleton]
        omega
      -- nor is it the one length after which the next line is lost too
      have hnot84 : (cur ++ [c]).length ≠ nmeaMaxSize + 1 := by
        simp only [List.length_append, List.length_singleton]
        omega
      rw [delivered, if_neg hlong, decide_eq_false hnot84, List.tail_cons]
    · exact ih (by simp only [List.length_append, List.length_singleton]; omega)

/-! ## §2 What the Parser Leaves Alone -/

/-- The line an action hands to the parser. -/
def Action.parsed? : Action → Option (List UInt8)
  | .parse line => some line
  | _ => none

/-- The lines a run hands to `nmea_reader_parse`, in order. -/
def parses {α : Type} (p : NmeaM R α) (r : NmeaReader R) : List (List UInt8) :=
  (p.log r).filterMap fun e => e.1.parsed?

/-- The lines `nmea_reader_parse` sees while a stream is fed from `r`. -/
def parsedLines (s : List UInt8) (r : NmeaReader R) : List (List UInt8) :=
  parses (nmeaReaderAddAll s) r

/-- The fields of the reader that frame the lines are those of `r`. -/
structure SameFrame (r t : NmeaReader R) : Prop where
  pos : t.pos = r.pos
  overflow : t.overflow = r.overflow
  inBuf : t.inBuf = r.inBuf
  nmeaCallback : t.nmeaCallback = r.nmeaCallback

/-- What the parser does to a reader framed as `r`: it neither stores into the buffer nor
calls itself, posts no sentence, and leaves the framing alone. -/
def ParserAction (r : NmeaReader R) (e : Action) (t : NmeaReader R) : Prop :=
  SameFrame r t ∧ e.parsed? = none ∧ e ≠ .post .nmeaCb

omit [Libc R] in
theorem keptByGsv_sameFrame (r : NmeaReader R) : KeptByGsv (SameFrame r) (ParserAction r) where
  fix _ _ ht := ⟨⟨ht.1, ht.2, ht.3, ht.4⟩, ⟨ht.1, ht.2, ht.3, ht.4⟩, rfl, nofun⟩
  date _ _ _ _ ht := ⟨⟨ht.1, ht.2, ht.3, ht.4⟩, ⟨ht.1, ht.2, ht.3, ht.4⟩, rfl, nofun⟩
  mask _ _ ht := ⟨⟨ht.1, ht.2, ht.3, ht.4⟩, ⟨⟨ht.1, ht.2, ht.3, ht.4⟩, rfl, nofun⟩,
    fun _ => ⟨⟨ht.1, ht.2, ht.3, ht.4⟩, rfl, nofun⟩⟩
  changed _ _ ht := ⟨⟨ht.1, ht.2, ht.3, ht.4⟩, ⟨ht.1, ht.2, ht.3, ht.4⟩, rfl, nofun⟩
  update _ _ ht := ⟨⟨ht.1, ht.2, ht.3, ht.4⟩, ⟨ht.1, ht.2, ht.3, ht.4⟩, rfl, nofun⟩
  svStatus _ _ ht := ⟨⟨ht.1, ht.2, ht.3, ht.4⟩, ⟨⟨ht.1, ht.2, ht.3, ht.4⟩, rfl, nofun⟩,
    fun _ => ⟨⟨ht.1, ht.2, ht.3, ht.4⟩, rfl, nofun⟩⟩

omit [Libc R] in
theorem allowsPosts_sameFrame (r : NmeaReader R) : AllowsPosts (SameFrame r) (ParserAction r) where
  locationCb _ ht _ := ⟨ht, rfl, nofun⟩
  svStatusCb _ ht _ := ⟨ht, rfl, nofun⟩

/-- The parser keeps the framing in every state of its run. -/
theorem nmeaReaderParseLine_sameFrame (line : List UInt8) (r : NmeaReader R) :
    SameFrame r ((nmeaReaderParseLine line).exec r) ∧
      (nmeaReaderParseLine line).Emits (ParserAction r) r :=
  keeps_nmeaReaderParseLine (keptByGsv_sameFrame r) (allowsPosts_sameFrame r) line r
    ⟨rfl, rfl, rfl, rfl⟩

omit [Libc R] in
@[simp] theorem parses_bind {α β : Type} (p : NmeaM R α) (q : α → NmeaM R β) (r : NmeaReader R) :
    parses (p >>= q) r = parses p r ++ parses (q (p.val r)) (p.exec r) := by
  simp [parses]

omit [Libc R] in
/-- A run without calls of the parser. -/
theorem parses_eq_nil {α : Type} {p : NmeaM R α} {r : NmeaReader R}
    (h : p.Emits (fun e _ => e.parsed? = none) r) : parses p r = [] :=
  List.filterMap_eq_nil_iff.mpr h

theorem parses_nmeaReaderParseLine (line : List UInt8) (r : NmeaReader R) :
    parses (nmeaReaderParseLine line) r = [] :=
  parses_eq_nil ((nmeaReaderParseLine_sameFrame line r).2.mono fun _ _ h => h.2.1)

/-- At a newline the parser is called once, on the stored line. -/
theorem parses_nmeaReaderEndLine (r : NmeaReader R) :
    parses nmeaReaderEndLine r = [r.inBuf.take r.pos] := by
  have hcall : parses (act (.parse (r.inBuf.take r.pos)) id) r = [r.inBuf.take r.pos] := rfl
  have hread : ∀ t : NmeaReader R, parses read t = [] := fun t => rfl
  -- what follows the parse hands no further line on
  have htail : ∀ t : NmeaReader R, parses (do
      let r ← read
      when r.nmeaCallback do
        setPendingCallback .nmeaCb
      assign fun r => { r with pos := 0 }) t = [] := by
    intro t
    apply parses_eq_nil
    simp [Action.parsed?]
  rw [nmeaReaderEndLine, parses_bind, htail, nmeaReaderParse, parses_bind, hread, val_read,
    exec_read, parses_bind, hcall, exec_act, parses_nmeaReaderParseLine]
  rfl

/-- `nmea_reader_addc` calls the parser on the line that a newline ends, if the line fits. -/
theorem parses_nmeaReaderAddc (c : UInt8) (r : NmeaReader R) :
    parses (nmeaReaderAddc c) r =
      if r.overflow ∨ nmeaMaxSize ≤ r.pos ∨ c ≠ byte '\n' then []
      else [(r.store c).inBuf.take (r.store c).pos] := by
  have hread : parses read r = [] := rfl
  have hassign : ∀ (f : NmeaReader R → NmeaReader R) t, parses (assign f) t = [] := fun _ _ => rfl
  have hstore : parses (nmeaReaderStore c) r = [] :=
    parses_eq_nil (by simp [nmeaReaderStore, Action.parsed?])
  rw [nmeaReaderAddc, parses_bind, hread, val_read, exec_read, List.nil_append]
  -- the branches of the source: a line being skipped, a buffer that is full, a byte stored
  by_cases hover : r.overflow
  · rw [if_pos hover, if_pos (.inl hover), hassign]
  · rw [if_neg hover]
    by_cases hfull : nmeaMaxSize ≤ r.pos
    · rw [if_pos hfull, if_pos (.inr (.inl hfull)), parses_bind, hassign, hassign]
      rfl
    · rw [if_neg hfull, parses_bind, hstore, exec_nmeaReaderStore, List.nil_append]
      by_cases hc : c = byte '\n'
      · rw [when, if_pos hc, if_neg (by simp [hover, hfull, hc]), parses_nmeaReaderEndLine]
      · rw [when, if_neg hc, if_pos (.inr (.inr hc))]
        rfl

/-! ## §3 The Simulation -/

/-- The reader is collecting a line, of which the buffer holds `cur`. -/
structure Collecting (r : NmeaReader R) (cur : List UInt8) : Prop where
  overflow : r.overflow = false
  size : r.inBuf.length = nmeaMaxSize + 1
  pos : r.pos = cur.length
  room : cur.length ≤ nmeaMaxSize
  held : r.inBuf.take r.pos = cur

/-- The reader is dropping bytes up to the next newline. -/
structure Skipping (r : NmeaReader R) : Prop where
  overflow : r.overflow = true
  size : r.inBuf.length = nmeaMaxSize + 1
  pos : r.pos = 0

omit [Libc R] in
/-- The buffer after a store holds one byte more. -/
theorem take_store {r : NmeaReader R} (h : r.pos < r.inBuf.length) (c : UInt8) :
    (r.store c).inBuf.take (r.store c).pos = r.inBuf.take r.pos ++ [c] := by
  have hset : (r.inBuf.set r.pos c)[r.pos]? = some c := by
    rw [List.getElem?_set_self h]
  rw [NmeaReader.store, List.take_add_one, hset, List.take_set_of_le le_rfl]
  rfl

omit [Libc R] in
theorem Collecting.store {r : NmeaReader R} {cur : List UInt8} (h : Collecting r cur)
    (hroom : cur.length < nmeaMaxSize) (c : UInt8) : Collecting (r.store c) (cur ++ [c]) where
  overflow := h.overflow
  size := by rw [NmeaReader.store, List.length_set, h.size]
  pos := by rw [NmeaReader.store, h.pos, List.length_append, List.length_singleton]
  room := by rw [List.length_append, List.length_singleton]; exact hroom
  held := by
    have hlt : r.pos < r.inBuf.length := by rw [h.pos, h.size]; omega
    rw [take_store hlt, h.held]

/-- After the end of a line the reader collects the next one. -/
theorem Collecting.endLine {r : NmeaReader R} {cur : List UInt8} (h : Collecting r cur) :
    Collecting (nmeaReaderEndLine.exec r) [] := by
  -- the parser leaves the buffer alone
  obtain ⟨hframe, -⟩ := nmeaReaderParseLine_sameFrame (r.inBuf.take r.pos) r
  rw [exec_nmeaReaderEndLine]
  exact
    { overflow := hframe.overflow.trans h.overflow
      size := by rw [hframe.inBuf, h.size]
      pos := rfl
      room := Nat.zero_le _
      held := rfl }

/-- **Step lemma, full buffer**: the byte is dropped and the flag set, even by a newline. -/
theorem addc_of_full {r : NmeaReader R} {cur : List UInt8} (h : Collecting r cur)
    (hfull : cur.length = nmeaMaxSize) (c : UInt8) :
    Skipping ((nmeaReaderAddc c).exec r) ∧ parses (nmeaReaderAddc c) r = [] := by
  have hpos : nmeaMaxSize ≤ r.pos := by rw [h.pos, hfull]
  -- the byte is dropped, a newline too, and the reader skips from here on
  refine ⟨?_, parses_eq_nil ?_⟩
  · rw [exec_nmeaReaderAddc, h.overflow, if_neg (by decide), if_pos hpos]
    exact ⟨rfl, h.size, rfl⟩
  · simp [nmeaReaderAddc, h.overflow, hpos, Action.parsed?]

/-- **Step lemma, inside a line**: the byte is stored. -/
theorem addc_of_collecting {r : NmeaReader R} {cur : List UInt8} (h : Collecting r cur)
    (hroom : cur.length < nmeaMaxSize) {c : UInt8} (hc : c ≠ byte '\n') :
    Collecting ((nmeaReaderAddc c).exec r) (cur ++ [c]) ∧ parses (nmeaReaderAddc c) r = [] := by
  have hpos : ¬ nmeaMaxSize ≤ r.pos := by rw [h.pos]; omega
  refine ⟨?_, parses_eq_nil ?_⟩
  · rw [exec_nmeaReaderAddc, h.overflow, if_neg (by decide), if_neg hpos, if_neg hc]
    exact h.store hroom c
  · simp [nmeaReaderAddc, nmeaReaderStore, h.overflow, hpos, hc, Action.parsed?]

/-- **Step lemma, end of a line**: the whole line is parsed, and the buffer starts anew. -/
theorem addc_of_newline {r : NmeaReader R} {cur : List UInt8} (h : Collecting r cur)
    (hroom : cur.length < nmeaMaxSize) :
    Collecting ((nmeaReaderAddc (byte '\n')).exec r) [] ∧
      parses (nmeaReaderAddc (byte '\n')) r = [cur ++ [byte '\n']] := by
  have hpos : ¬ nmeaMaxSize ≤ r.pos := by rw [h.pos]; omega
  have hstored := h.store hroom (byte '\n')
  -- the state after the byte, then the line the parser gets
  constructor
  · rw [exec_nmeaReaderAddc, h.overflow, if_neg (by decide), if_neg hpos, if_pos rfl]
    exact hstored.endLine
  · have hread : parses read r = [] := rfl
    have hstore : parses (nmeaReaderStore (byte '\n')) r = [] :=
      parses_eq_nil (by simp [nmeaReaderStore, Action.parsed?])
    rw [nmeaReaderAddc, parses_bind, hread, val_read, exec_read, h.overflow, if_neg (by decide),
      if_neg hpos, parses_bind, hstore, when, if_pos rfl, exec_nmeaReaderStore,
      parses_nmeaReaderEndLine, hstored.held]
    rfl

/-- **Step lemma, overflow**: bytes are dropped, and a newline clears the flag. -/
theorem addc_of_skipping {r : NmeaReader R} (h : Skipping r) (c : UInt8) :
    (if c = byte '\n' then Collecting ((nmeaReaderAddc c).exec r) []
      else Skipping ((nmeaReaderAddc c).exec r)) ∧ parses (nmeaReaderAddc c) r = [] := by
  refine ⟨?_, parses_eq_nil ?_⟩
  · rw [exec_nmeaReaderAddc, h.overflow, if_pos rfl]
    -- the newline ends the skipping, any other byte is thrown away
    split
    · rename_i hc
      rw [hc]
      exact ⟨rfl, h.size, h.pos, Nat.zero_le _, by rw [h.pos]; rfl⟩
    · rename_i hc
      exact ⟨decide_eq_true hc, h.size, h.pos⟩
  · simp [nmeaReaderAddc, h.overflow, Action.parsed?]

theorem parsedLines_cons (c : UInt8) (s : List UInt8) (r : NmeaReader R) :
    parsedLines (c :: s) r =
      parses (nmeaReaderAddc c) r ++ parsedLines s ((nmeaReaderAddc c).exec r) := by
  rw [parsedLines, nmeaReaderAddAll, parses_bind, parsedLines]

theorem exec_nmeaReaderAddAll_concat (s : List UInt8) (c : UInt8) (r : NmeaReader R) :
    (nmeaReaderAddAll (s ++ [c])).exec r = (nmeaReaderAddc c).exec ((nmeaReaderAddAll s).exec r) := by
  induction s generalizing r with
  | nil => rfl
  | cons d s ih => rw [List.cons_append, nmeaReaderAddAll, nmeaReaderAddAll, exec_bind, exec_bind, ih]

theorem parsedLines_concat (s : List UInt8) (c : UInt8) (r : NmeaReader R) :
    parsedLines (s ++ [c]) r =
      parsedLines s r ++ parses (nmeaReaderAddc c) ((nmeaReaderAddAll s).exec r) := by
  -- the reader changes with each byte
  induction s generalizing r with
  | nil =>
    rw [List.nil_append, parsedLines_cons]
    exact List.append_nil _
  | cons d s ih =>
    rw [List.cons_append, parsedLines_cons, parsedLines_cons, ih, nmeaReaderAddAll, exec_bind,
      List.append_assoc]

/-- **Run lemma**: in either mode the reader hands on what the abstract framer delivers. -/
theorem parsedLines_of_mode (s : List UInt8) (r : NmeaReader R) :
    (∀ cur, Collecting r cur → parsedLines s r = delivered false (splitLines cur s)) ∧
      (Skipping r → ∀ cur, parsedLines s r = delivered false (splitLines cur s).tail) := by
  induction s generalizing r with
  | nil => exact ⟨fun _ _ => rfl, fun _ _ => rfl⟩
  | cons c rest ih =>
    constructor
    · intro cur h
      rw [parsedLines_cons]
      rcases lt_or_eq_of_le h.room with hroom | hfull
      · by_cases hc : c = byte '\n'
        · -- the newline completes a short line, and the next one begins
          subst hc
          obtain ⟨hnext, hparse⟩ := addc_of_newline h hroom
          have hshort : ShortLine (cur ++ [byte '\n']) := by
            simp only [ShortLine, List.length_append, List.length_singleton]
            omega
          rw [hparse, (ih _).1 [] hnext, splitLines, if_pos rfl, delivered_cons_of_short hshort]
          rfl
        · obtain ⟨hnext, hparse⟩ := addc_of_collecting h hroom hc
          rw [hparse, (ih _).1 _ hnext, splitLines, if_neg hc]
          rfl
      · -- the buffer is full: the rest of the line is skipped, whatever the byte is
        obtain ⟨hnext, hparse⟩ := addc_of_full h hfull c
        have hlen : (cur ++ [c]).length = nmeaMaxSize + 1 := by
          rw [List.length_append, List.length_singleton, hfull]
        rw [hparse, (ih _).2 hnext (cur ++ [c]), List.nil_append, splitLines]
        split
        · -- the newline itself set the flag: the next line is swallowed
          rw [delivered, if_neg (by simp only [ShortLine, hlen]; omega), decide_eq_true hlen,
            delivered_true, tail_splitLines]
        · -- the line goes on, and is too long to be delivered
          rw [delivered_splitLines_of_long (by omega)]
    · intro h cur
      -- skipping ends with the newline, and not before
      obtain ⟨hnext, hparse⟩ := addc_of_skipping h c
      rw [parsedLines_cons, hparse, List.nil_append, splitLines]
      split_ifs at hnext ⊢ with hc
      · rw [(ih _).1 [] hnext, List.tail_cons]
      · exact (ih _).2 hnext _

theorem collecting_readerAfterInit (cbs : GpsCallbacks) :
    Collecting (readerAfterInit (R := R) cbs) [] := by
  rw [exec_readerAfterInit]
  exact ⟨rfl, by simp [nmeaReaderInit], rfl, Nat.zero_le _, rfl⟩

/-- **Simulation**: the parser sees exactly the lines the abstract framer delivers. -/
theorem parsedLines_eq_delivered (cbs : GpsCallbacks) (s : List UInt8) :
    parsedLines s (readerAfterInit (R := R) cbs) = delivered false (lines s) :=
  (parsedLines_of_mode s _).1 [] (collecting_readerAfterInit cbs)

/-! ## §4 When No Short Line Is Lost -/

/-- How many lines of exactly 84 bytes a list of lines ends with. -/
def overlongRun (ls : List (List UInt8)) : Nat :=
  ls.foldl (fun n l => if l.length = nmeaMaxSize + 1 then n + 1 else 0) 0

theorem overlongRun_concat (ls : List (List UInt8)) (l : List UInt8) :
    overlongRun (ls ++ [l]) = if l.length = nmeaMaxSize + 1 then overlongRun ls + 1 else 0 := by
  rw [overlongRun, List.foldl_append]
  rfl

/-- The framer, started in a mode, swallows no short line. -/
def NoLineLost : Bool → List (List UInt8) → Prop
  | _, [] => True
  | true, l :: ls => ¬ ShortLine l ∧ NoLineLost false ls
  | false, l :: ls => NoLineLost (decide (l.length = nmeaMaxSize + 1)) ls

theorem filter_cons_of_short {l : List UInt8} (hl : ShortLine l) (ls : List (List UInt8)) :
    (l :: ls).filter ShortLine = l :: ls.filter ShortLine := by
  rw [List.filter_cons, if_pos (decide_eq_true hl)]

theorem filter_cons_of_long {l : List UInt8} (hl : ¬ ShortLine l) (ls : List (List UInt8)) :
    (l :: ls).filter ShortLine = ls.filter ShortLine := by
  rw [List.filter_cons, decide_eq_false hl, if_neg Bool.false_ne_true]

theorem length_delivered_le (skip : Bool) (ls : List (List UInt8)) :
    (delivered skip ls).length ≤ (ls.filter ShortLine).length := by
  -- line by line: a short line delivers itself or is the one that is lost
  induction ls generalizing skip with
  | nil => cases skip <;> exact le_rfl
  | cons l ls ih =>
    by_cases hl : ShortLine l
    · rw [filter_cons_of_short hl, List.length_cons]
      cases skip with
      -- the short line after a line of 84 bytes
      | true => exact (ih false).trans (Nat.le_succ _)
      | false =>
        rw [delivered_cons_of_short hl, List.length_cons]
        exact Nat.succ_le_succ (ih false)
    · rw [filter_cons_of_long hl]
      cases skip with
      | true => exact ih false
      | false =>
        rw [delivered, if_neg hl]
        exact ih _

/-- The framer delivers all short lines exactly when it swallows none. -/
theorem delivered_eq_filter_iff (skip : Bool) (ls : List (List UInt8)) :
    delivered skip ls = ls.filter ShortLine ↔ NoLineLost skip ls := by
  induction ls generalizing skip with
  | nil => cases skip <;> exact iff_of_true rfl trivial
  | cons l ls ih =>
    by_cases hl : ShortLine l
    · rw [filter_cons_of_short hl]
      cases skip with
      | true =>
        -- the line is swallowed: what is delivered is too short to be the filtered list
        refine iff_of_false (fun heq => ?_) fun h => h.1 hl
        have hle := length_delivered_le false ls
        have hlen := congrArg List.length heq
        rw [delivered_true, List.tail_cons, List.length_cons] at hlen
        omega
      | false =>
        have hnot84 : l.length ≠ nmeaMaxSize + 1 := by
          simp only [ShortLine] at hl
          omega
        rw [delivered_cons_of_short hl, List.cons.injEq, and_iff_right rfl, ih, NoLineLost,
          decide_eq_false hnot84]
    · rw [filter_cons_of_long hl]
      cases skip with
      | true => rw [delivered_true, List.tail_cons, ih, NoLineLost, and_iff_right hl]
      | false => rw [delivered, if_neg hl, ih, NoLineLost]

/-- The mode of the framer is the parity of the run of 84-byte lines before it. -/
theorem noLineLost_iff (seen ls : List (List UInt8)) :
    NoLineLost (decide (Odd (overlongRun seen))) ls ↔
      ∀ pre l post, ls = pre ++ l :: post → ShortLine l → Even (overlongRun (seen ++ pre)) := by
  induction ls generalizing seen with
  | nil => simp [NoLineLost]
  | cons l ls ih =>
    have hrest := ih (seen ++ [l])
    rw [overlongRun_concat] at hrest
    -- the condition on the list is the one on its head and the one on its tail
    have hsplit : (∀ pre l' post, l :: ls = pre ++ l' :: post → ShortLine l' →
        Even (overlongRun (seen ++ pre))) ↔ (ShortLine l → Even (overlongRun seen)) ∧
        ∀ pre l' post, ls = pre ++ l' :: post → ShortLine l' →
          Even (overlongRun (seen ++ [l] ++ pre)) := by
      constructor
      · intro h
        refine ⟨fun hl => ?_, fun pre l' post heq hl' => ?_⟩
        · simpa using h [] l ls rfl hl
        · simpa using h (l :: pre) l' post (by rw [heq]; rfl) hl'
      · rintro ⟨hhead, htail⟩ pre l' post heq hl'
        cases pre with
        | nil =>
          obtain ⟨rfl, rfl⟩ := List.cons.inj heq
          simpa using hhead hl'
        | cons p pre =>
          obtain ⟨rfl, rfl⟩ := List.cons.inj heq
          simpa using htail pre l' post rfl hl'
    rw [hsplit, ← hrest]
    by_cases hodd : Odd (overlongRun seen)
    · -- the flag is set: this line is swallowed, and the run is over or goes on evenly
      have heven : ¬ Even (overlongRun seen) := Nat.not_even_iff_odd.mpr hodd
      have hmode : ¬ Odd (if l.length = nmeaMaxSize + 1 then overlongRun seen + 1 else 0) := by
        split
        · exact Nat.not_odd_iff_even.mpr hodd.add_one
        · decide
      rw [decide_eq_true hodd, decide_eq_false hmode, NoLineLost]
      exact and_congr_left fun _ => ⟨fun hl hs => absurd hs hl, fun h hl => heven (h hl)⟩
    · -- the flag is not set: only a line of 84 bytes sets it
      have heven : Even (overlongRun seen) := Nat.not_odd_iff_even.mp hodd
      have hmode : Odd (if l.length = nmeaMaxSize + 1 then overlongRun seen + 1 else 0) ↔
          l.length = nmeaMaxSize + 1 := by
        split_ifs with h84
        · exact iff_of_true heven.add_one h84
        · exact iff_of_false (by decide) h84
      rw [decide_eq_false hodd, decide_eq_decide.mpr hmode, NoLineLost,
        and_iff_right fun _ => heven]

/-- Every short line of the stream is parsed exactly once, complete and in order, and
nothing else is parsed, exactly when every short line follows an even number of
consecutive lines of 84 bytes. -/
theorem parsedLines_eq_filter_iff (cbs : GpsCallbacks) (s : List UInt8) :
    parsedLines s (readerAfterInit (R := R) cbs) = (lines s).filter ShortLine ↔
      ∀ pre l post, lines s = pre ++ l :: post → ShortLine l → Even (overlongRun pre) := by
  have hmode : decide (Odd (overlongRun [])) = false := rfl
  rw [parsedLines_eq_delivered, delivered_eq_filter_iff, ← hmode, noLineLost_iff]
  rfl

/-- A line of 84 bytes, and a valid sentence after it. -/
def overlongThenValid : List UInt8 :=
  List.replicate 83 (byte 'A') ++ [byte '\n'] ++ bytes "$GPGLL,4916.45,N,12311.12,W,225444,A\n"

/-- The valid sentence after a line of 84 bytes is lost. -/
theorem short_line_lost :
    parsedLines overlongThenValid (readerAfterInit (R := ℚ) ⟨true, true, true⟩) ≠
      (lines overlongThenValid).filter ShortLine := by
  decide +kernel

end OdroidU2.Gps
