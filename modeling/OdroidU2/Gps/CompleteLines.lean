import Mathlib
import OdroidU2.Gps.Framing

/-!
# Complete Lines

Whatever `nmea_reader_addc` is fed, a call of `nmea_reader_parse` sees one whole line.  The
reader either holds all bytes since the last newline or drops bytes up to the next one, so a
line that was begun and then abandoned in the overflow branch leaves nothing behind that a
later line could be glued to.

- `framed_concat` — one byte keeps the two modes, and parses at most the line it ends
- `parse_sees_complete_lines` — lines, order and stores of every stream
-/

namespace OdroidU2.Gps

open OdroidU2.Foundations Prog

variable {R : Type} [Libc R]

/-! ## §1 The Line in Progress -/

/-- The bytes of a stream after its last newline. -/
def unterminated (s : List UInt8) : List UInt8 := s.rtakeWhile (· ≠ byte '\n')

@[simp] theorem unterminated_nil : unterminated [] = [] := rfl

theorem unterminated_newline (s : List UInt8) : unterminated (s ++ [byte '\n']) = [] :=
  List.rtakeWhile_concat_neg _ _ _ (by simp)

theorem unterminated_concat {c : UInt8} (hc : c ≠ byte '\n') (s : List UInt8) :
    unterminated (s ++ [c]) = unterminated s ++ [c] :=
  List.rtakeWhile_concat_pos _ _ _ (decide_eq_true hc)

/-- The framer hands on some of the lines, in their order. -/
theorem delivered_sublist (skip : Bool) (ls : List (List UInt8)) :
    (delivered skip ls).Sublist ls := by
  -- line by line: each is delivered as it stands or left out
  induction ls generalizing skip with
  | nil => cases skip <;> exact List.Sublist.refl _
  | cons l ls ih =>
    cases skip with
    | true => exact (ih false).cons l
    | false =>
      rw [delivered]
      split
      · exact (ih false).cons_cons l
      · exact (ih _).cons l

/-! ## §2 Stores into the Buffer -/

/-- A store into `r->in` stays below `NMEA_MAX_SIZE`, the last index of the array. -/
def StoreInside (e : Action) (_ : NmeaReader R) : Prop := ∀ idx, e = .inStore idx → idx ≤ 82

omit [Libc R] in
/-- The parser stores nothing into the line it reads. -/
theorem keptByGsv_storeInside : KeptByGsv (R := R) (fun _ => True) StoreInside where
  fix _ _ _ := ⟨trivial, nofun⟩
  date _ _ _ _ _ := ⟨trivial, nofun⟩
  mask _ _ _ := ⟨trivial, nofun, fun _ => nofun⟩
  changed _ _ _ := ⟨trivial, nofun⟩
  update _ _ _ := ⟨trivial, nofun⟩
  svStatus _ _ _ := ⟨trivial, nofun, fun _ => nofun⟩

omit [Libc R] in
theorem allowsPosts_storeInside : AllowsPosts (R := R) (fun _ => True) StoreInside where
  locationCb _ _ _ := nofun
  svStatusCb _ _ _ := nofun

/-- Only an index that passed the test of the position is stored at. -/
theorem emits_storeInside_nmeaReaderAddc (c : UInt8) (r : NmeaReader R) :
    (nmeaReaderAddc c).Emits StoreInside r := by
  have hparse (line : List UInt8) (t : NmeaReader R) :
      (nmeaReaderParseLine line).Emits StoreInside t :=
    (keeps_nmeaReaderParseLine keptByGsv_storeInside allowsPosts_storeInside line t trivial).2
  have hend (t : NmeaReader R) : nmeaReaderEndLine.Emits StoreInside t := by
    simp [nmeaReaderEndLine, nmeaReaderParse, setPendingCallback, StoreInside, hparse]
  rw [nmeaReaderAddc, emits_bind, val_read, exec_read, emits_ite, emits_ite]
  refine ⟨emits_read r, ?_⟩
  split_ifs with hover hfull
  · simp [StoreInside]
  · simp [StoreInside]
  · -- the position was tested, and a position is an index of the array but for the last one
    have hroom : r.pos ≤ 82 := by
      unfold nmeaMaxSize at hfull
      omega
    simp [nmeaReaderStore, StoreInside, hroom, hend]

theorem emits_storeInside_nmeaReaderAddAll (s : List UInt8) (r : NmeaReader R) :
    (nmeaReaderAddAll s).Emits StoreInside r := by
  induction s generalizing r with
  | nil => simp [nmeaReaderAddAll]
  | cons c s ih =>
    rw [nmeaReaderAddAll, emits_bind]
    exact ⟨emits_storeInside_nmeaReaderAddc c r, ih _⟩

/-! ## §3 One Byte -/

/-- The reader after a stream: it holds the line in progress, or drops what is left of a line
that did not fit. -/
def Framed (s : List UInt8) (r : NmeaReader R) : Prop := Collecting r (unterminated s) ∨ Skipping r

/-- **Step lemma**: a byte keeps the reader framed, and the only line it can hand to the
parser is the one it completes. -/
theorem framed_concat {s : List UInt8} {r : NmeaReader R} (h : Framed s r) (c : UInt8) :
    Framed (s ++ [c]) ((nmeaReaderAddc c).exec r) ∧
      (parses (nmeaReaderAddc c) r = [] ∨
        c = byte '\n' ∧ parses (nmeaReaderAddc c) r = [unterminated s ++ [c]]) := by
  rcases h with hcol | hskip
  · rcases lt_or_eq_of_le hcol.room with hroom | hfull
    · by_cases hc : c = byte '\n'
      · -- the newline ends the line in progress
        subst hc
        obtain ⟨hnext, hparse⟩ := addc_of_newline hcol hroom
        exact ⟨.inl (by rwa [unterminated_newline]), .inr ⟨rfl, hparse⟩⟩
      · obtain ⟨hnext, hparse⟩ := addc_of_collecting hcol hroom hc
        exact ⟨.inl (by rwa [unterminated_concat hc]), .inl hparse⟩
    · -- the buffer is full: the stored part of the line is given up
      obtain ⟨hnext, hparse⟩ := addc_of_full hcol hfull c
      exact ⟨.inr hnext, .inl hparse⟩
  · obtain ⟨hnext, hparse⟩ := addc_of_skipping hskip c
    refine ⟨?_, .inl hparse⟩
    split_ifs at hnext with hc
    · -- the line that did not fit is over, and the next one starts with an empty buffer
      subst hc
      exact .inl (by rwa [unterminated_newline])
    · exact .inr hnext

/-- **Run lemma**: the reader is framed after every stream. -/
theorem framed_nmeaReaderAddAll (cbs : GpsCallbacks) (s : List UInt8) :
    Framed s ((nmeaReaderAddAll s).exec (readerAfterInit (R := R) cbs)) := by
  -- from the end: `Framed` speaks of the bytes taken so far
  induction s using List.reverseRecOn with
  | nil =>
    rw [nmeaReaderAddAll, exec_pure]
    exact .inl (collecting_readerAfterInit cbs)
  | append_singleton s c ih =>
    rw [exec_nmeaReaderAddAll_concat]
    exact (framed_concat ih c).1

/-! ## §4 Every Stream -/

/-- Over every stream the calls of `nmea_reader_parse` see lines of the stream, complete and
in stream order; a byte causes a call only if it is the newline, and the call sees the bytes
since the newline before, through this one; and every store into `r->in` is at an index from
0 to 82. -/
theorem parse_sees_complete_lines (cbs : GpsCallbacks) (s : List UInt8) :
    (parsedLines s (readerAfterInit (R := R) cbs)).Sublist (lines s) ∧
      (∀ c, parses (nmeaReaderAddc c)
          ((nmeaReaderAddAll s).exec (readerAfterInit (R := R) cbs)) = [] ∨
        c = byte '\n' ∧ parses (nmeaReaderAddc c)
          ((nmeaReaderAddAll s).exec (readerAfterInit (R := R) cbs)) = [unterminated s ++ [c]]) ∧
      (nmeaReaderAddAll s).Emits StoreInside (readerAfterInit (R := R) cbs) := by
  -- which lines, when, and where the bytes go
  refine ⟨?_, fun c => ?_, emits_storeInside_nmeaReaderAddAll s _⟩
  · rw [parsedLines_eq_delivered]
    exact delivered_sublist false (lines s)
  · exact (framed_concat (framed_nmeaReaderAddAll cbs s) c).2

end OdroidU2.Gps
