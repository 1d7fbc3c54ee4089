import Mathlib
import OdroidU2.Gps.Tokenizer

/-!
# The Fields of a Sentence

What the tokenizer is for: the body of a sentence is split at its commas.  The tokens are
compared with the reference split `List.splitOn` first (§2), and the pointer arithmetic of
`nmea_tokenizer_init` with the list form of the tokenizer after that (§4).

- `text_nmeaTokenizerGet` — a token is a field, or empty where there is none
- `nmea_tokenizer_splits` — the same of the pointers, none of which leaves the body
-/

namespace OdroidU2.Gps

open OdroidU2.Foundations

/-! ## §1 The Reference Split -/

/-- The comma-separated fields of a body. -/
def fields (body : List UInt8) : List (List UInt8) := body.splitOn (byte ',')

/-- Field `i`, empty where the body has no such field. -/
def field (body : List UInt8) (i : Nat) : List UInt8 := (fields body)[i]?.getD []

/-- The fields without an empty last one. -/
def countedFields (body : List UInt8) : List (List UInt8) :=
  if (fields body).getLast? = some [] then (fields body).dropLast else fields body

theorem fields_ne_nil (body : List UInt8) : fields body ≠ [] := List.splitOn_ne_nil _ _

theorem fields_nil : fields [] = [[]] := (rfl)

theorem fields_of_not_mem {q : List UInt8} (hq : byte ',' ∉ q) : fields q = [q] :=
  List.splitOn_eq_singleton hq

theorem fields_append_comma {q : List UInt8} (hq : byte ',' ∉ q) (rest : List UInt8) :
    fields (q ++ byte ',' :: rest) = q :: fields rest :=
  List.splitOn_append_cons_self_of_not_mem hq rest

theorem countedFields_nil : countedFields [] = [] := by
  simp [countedFields, fields_nil]

theorem countedFields_of_not_mem {q : List UInt8} (hq : byte ',' ∉ q) (hne : q ≠ []) :
    countedFields q = [q] := by
  simp [countedFields, fields_of_not_mem hq, hne]

theorem countedFields_append_comma {q : List UInt8} (hq : byte ',' ∉ q) (rest : List UInt8) :
    countedFields (q ++ byte ',' :: rest) = q :: countedFields rest := by
  have hne := fields_ne_nil rest
  rw [countedFields, countedFields, fields_append_comma hq]
  obtain ⟨f, fs, hfs⟩ := List.exists_cons_of_ne_nil hne
  rw [hfs, List.getLast?_cons_cons, List.dropLast_cons_of_ne_nil (List.cons_ne_nil f fs)]
  split <;> rfl

/-- A field that is not counted is empty. -/
theorem getD_countedFields (body : List UInt8) (i : Nat) :
    (countedFields body)[i]?.getD [] = field body i := by
  unfold countedFields field
  split
  · rename_i hlast
    obtain ⟨init, hinit⟩ := List.getLast?_eq_some_iff.mp hlast
    rw [hinit, List.dropLast_concat, List.getElem?_append]
    split
    · rfl
    · rename_i hlen
      rw [List.getElem?_eq_none (Nat.le_of_not_lt hlen)]
      -- index `i` is that of the empty last field, or beyond it
      cases i - init.length with
      | zero => rfl
      | succ j => rfl
  · rfl

/-! ## §2 The Tokens Are the Fields -/

/-- The tokens the loop cuts, without the limit of the table. -/
def tokensOf : Nat → List UInt8 → List Token
  | 0, _ => []
  | fuel + 1, p =>
    if p = [] then [] else ⟨p, commaOffset p⟩ :: tokensOf fuel (p.drop (commaOffset p + 1))

theorem tokens_push (t : NmeaTokenizer) (tok : Token) :
    (t.push tok).tokens = (t.tokens ++ [tok]).take maxNmeaTokens := by
  have hle := t.count_le
  unfold NmeaTokenizer.push
  -- with `maxNmeaTokens` already there the new one is dropped
  split
  · rename_i hlt
    rw [List.take_of_length_le]
    simpa using Nat.succ_le_of_lt hlt
  · rename_i hge
    have hfull : t.tokens.length = maxNmeaTokens := le_antisymm hle (Nat.le_of_not_lt hge)
    rw [← hfull, List.take_left]

theorem take_take_append {α : Type} (n : Nat) (xs ys : List α) :
    (xs.take n ++ ys).take n = (xs ++ ys).take n := by
  rw [List.take_append, List.take_append, List.take_take, Nat.min_self, List.length_take]
  congr 2
  omega

/-- The loop fills the table with the first twenty tokens. -/
theorem tokens_nmeaTokenizerLoop (fuel : Nat) (p : List UInt8) (t : NmeaTokenizer) :
    (nmeaTokenizerLoop fuel p t).tokens = (t.tokens ++ tokensOf fuel p).take maxNmeaTokens := by
  induction fuel generalizing p t with
  | zero => simp [nmeaTokenizerLoop, tokensOf, List.take_of_length_le t.count_le]
  | succ fuel ih =>
    rw [nmeaTokenizerLoop, tokensOf]
    split
    · simp [List.take_of_length_le t.count_le]
    · -- cutting the list at each push is the same as cutting it once, at the end
      rw [ih, tokens_push, take_take_append, List.append_assoc, List.singleton_append]

theorem tokens_nmeaTokenizerInit (line : List UInt8) :
    (nmeaTokenizerInit line).tokens =
      (tokensOf (nmeaBody line).length (nmeaBody line)).take maxNmeaTokens := by
  simp only [nmeaTokenizerInit, tokens_nmeaTokenizerLoop, List.nil_append]

/-- A list is a field with nothing behind it, or a field, a comma and the rest. -/
theorem commaOffset_cases (p : List UInt8) :
    ∃ q, byte ',' ∉ q ∧ commaOffset p = q.length ∧
      (p = q ∨ ∃ rest, p = q ++ byte ',' :: rest) := by
  refine ⟨p.takeWhile (· ≠ byte ','), fun hmem => ?_, rfl, ?_⟩
  · simpa using List.mem_takeWhile_imp hmem
  · have hsplit := (List.takeWhile_append_dropWhile (p := (· ≠ byte ',')) (l := p)).symm
    -- `memchr` finds no comma, or stops at the first one
    cases hrest : p.dropWhile (· ≠ byte ',') with
    | nil =>
      rw [hrest, List.append_nil] at hsplit
      exact .inl hsplit
    | cons b rest =>
      have hb := List.head?_dropWhile_not (fun b => decide (b ≠ byte ',')) p
      rw [hrest] at hb hsplit
      have hcomma : b = byte ',' := by simpa using hb
      rw [hcomma] at hsplit
      exact .inr ⟨rest, hsplit⟩

/-- The texts of the tokens are the counted fields. -/
theorem text_tokensOf {fuel : Nat} {p : List UInt8} (hfuel : p.length ≤ fuel) :
    (tokensOf fuel p).map Token.text = countedFields p := by
  -- induction on the fuel, which a token uses up by one
  induction fuel generalizing p with
  | zero =>
    rw [List.eq_nil_of_length_eq_zero (Nat.le_zero.mp hfuel), countedFields_nil]
    rfl
  | succ fuel ih =>
    rw [tokensOf]
    split
    · rename_i hnil
      rw [hnil, countedFields_nil, List.map_nil]
    · rename_i hne
      obtain ⟨q, hq, hoff, hp | ⟨rest, hp⟩⟩ := commaOffset_cases p
      · -- no comma: one last field
        rw [hoff, hp, List.drop_of_length_le (Nat.le_succ _)]
        cases fuel with
        | zero => simp [tokensOf, Token.text, countedFields_of_not_mem hq (hp ▸ hne)]
        | succ fuel => simp [tokensOf, Token.text, countedFields_of_not_mem hq (hp ▸ hne)]
      · -- a field and its comma: the rest of the body is shorter
        have hdrop : p.drop (q.length + 1) = rest := by
          rw [hp, List.append_cons]
          exact List.drop_left' (by simp)
        have hlen : rest.length ≤ fuel := by
          rw [hp, List.length_append, List.length_cons] at hfuel
          omega
        rw [hoff, hdrop, List.map_cons, ih hlen, hp, countedFields_append_comma hq]
        simp [Token.text]

/-- A token is never past the end of the body. -/
theorem tokensOf_suffix {fuel : Nat} {p : List UInt8} :
    ∀ tok ∈ tokensOf fuel p, tok.p ≠ [] ∧ tok.p <:+ p := by
  -- each token begins where the text not yet read begins
  induction fuel generalizing p with
  | zero => exact nofun
  | succ fuel ih =>
    intro tok htok
    rw [tokensOf] at htok
    split at htok
    · cases htok
    · rename_i hne
      rcases List.mem_cons.mp htok with rfl | hrest
      · exact ⟨hne, List.suffix_rfl⟩
      · exact ⟨(ih tok hrest).1, (ih tok hrest).2.trans (List.drop_suffix _ _)⟩

/-- **Tokens are fields**: the text of token `i` is field `i` of the body. -/
theorem text_nmeaTokenizerGet (line : List UInt8) {i : Nat} (hi : i < maxNmeaTokens) :
    (nmeaTokenizerGet (nmeaTokenizerInit line) i).text = field (nmeaBody line) i := by
  rw [nmeaTokenizerGet, tokens_nmeaTokenizerInit, List.getElem?_take_of_lt hi,
    ← getD_countedFields, ← text_tokensOf (Nat.le_refl _), List.getElem?_map]
  cases (tokensOf (nmeaBody line).length (nmeaBody line))[i]? with
  | none => rfl
  | some tok => rfl

/-- How many tokens there are. -/
theorem length_nmeaTokenizerInit (line : List UInt8) :
    (nmeaTokenizerInit line).tokens.length =
      min maxNmeaTokens (countedFields (nmeaBody line)).length := by
  rw [tokens_nmeaTokenizerInit, List.length_take, ← text_tokensOf (Nat.le_refl _), List.length_map]

/-! ## §3 The Pointers of `nmea_tokenizer_init` -/

/-- The pointers `[p, end)` into a buffer, as offsets. -/
structure Span where
  p : Nat
  stop : Nat
  deriving DecidableEq, Repr

/-- The bytes between the two pointers. -/
def Span.text (mem : List UInt8) (s : Span) : List UInt8 := (mem.drop s.p).take (s.stop - s.p)

/-- The initial `$` is optional. -/
def skipDollar (mem : List UInt8) (s : Span) : Span :=
  if s.p < s.stop ∧ mem[s.p]? = some (byte '$') then { s with p := s.p + 1 } else s

/-- Remove the trailing newline. -/
def cutNewline (mem : List UInt8) (s : Span) : Span :=
  if s.p < s.stop ∧ mem[s.stop - 1]? = some (byte '\n') then
    let s := { s with stop := s.stop - 1 }
    if s.p < s.stop ∧ mem[s.stop - 1]? = some (byte '\r') then { s with stop := s.stop - 1 } else s
  else s

/-- Get rid of the checksum at the end of the sentence. -/
def cutChecksum (mem : List UInt8) (s : Span) : Span :=
  if s.p + 3 ≤ s.stop ∧ mem[s.stop - 3]? = some (byte '*') then { s with stop := s.stop - 3 } else s

/-- The pointers after the stripping steps. -/
def bodySpan (mem : List UInt8) (s : Span) : Span := cutChecksum mem (cutNewline mem (skipDollar mem s))

/-- `memchr(p, ',', end - p)` -/
def memchrComma (mem : List UInt8) (s : Span) : Option Nat :=
  (List.range' s.p (s.stop - s.p)).find? fun q => mem[q]? = some (byte ',')

/-- The `while (p < end)` loop, with the table filled so far. -/
def cutTokens (mem : List UInt8) (stop : Nat) : Nat → Nat → List Span → List Span
  | 0, _, tokens => tokens
  | fuel + 1, p, tokens =>
    if p < stop then
      let q := (memchrComma mem ⟨p, stop⟩).getD stop
      let tokens := if tokens.length < maxNmeaTokens then tokens ++ [⟨p, q⟩] else tokens
      cutTokens mem stop fuel (if q < stop then q + 1 else q) tokens
    else tokens

/-- A buffer and the two pointers into it that `nmea_tokenizer_init` is given. -/
structure Buffer extends Span where
  mem : List UInt8
  p_le : p ≤ stop
  stop_le : stop ≤ mem.length

/-- The bytes the tokenizer is given. -/
def Buffer.line (buf : Buffer) : List UInt8 := buf.toSpan.text buf.mem

/-- The pointers `nmea_tokenizer_init` cuts at the commas. -/
def Buffer.body (buf : Buffer) : Span := bodySpan buf.mem buf.toSpan

/-- The table `nmea_tokenizer_init` leaves. -/
def Buffer.tokens (buf : Buffer) : List Span :=
  cutTokens buf.mem buf.body.stop (buf.body.stop - buf.body.p) buf.body.p []

/-- `nmea_tokenizer_get` on that table, `none` for the token of the dummy string. -/
def Buffer.get (buf : Buffer) (index : Nat) : Option Span := buf.tokens[index]?

/-- The bytes of such a token. -/
def Buffer.text (buf : Buffer) (tok : Option Span) : List UInt8 := tok.elim [] (Span.text buf.mem)

/-! ## §4 The Pointers Stay in the Body -/

section Pointers

variable {mem : List UInt8} {s : Span}

/-- The pointers are in order and inside the buffer. -/
structure Span.Valid (mem : List UInt8) (s : Span) : Prop where
  p_le : s.p ≤ s.stop
  stop_le : s.stop ≤ mem.length

theorem getElem?_text (mem : List UInt8) (s : Span) (i : Nat) :
    (s.text mem)[i]? = if i < s.stop - s.p then mem[s.p + i]? else none := by
  rw [Span.text, List.getElem?_take, List.getElem?_drop]

theorem Span.Valid.length_text (hs : s.Valid mem) : (s.text mem).length = s.stop - s.p := by
  have hp := hs.p_le
  have hstop := hs.stop_le
  rw [Span.text, List.length_take, List.length_drop]
  omega

theorem Span.Valid.text_eq_nil_iff (hs : s.Valid mem) : s.text mem = [] ↔ s.stop ≤ s.p := by
  rw [← List.length_eq_zero_iff, hs.length_text, Nat.sub_eq_zero_iff_le]

/-- Moving the first pointer drops bytes from the front. -/
theorem text_advance (mem : List UInt8) (s : Span) (n : Nat) :
    (⟨s.p + n, s.stop⟩ : Span).text mem = (s.text mem).drop n := by
  rw [Span.text, Span.text, List.drop_take, List.drop_drop, Nat.sub_add_eq]

/-- Moving the second pointer drops bytes from the back. -/
theorem Span.Valid.text_retreat (hs : s.Valid mem) {n : Nat} (hn : s.p + n ≤ s.stop) :
    (⟨s.p, s.stop - n⟩ : Span).text mem = (s.text mem).take ((s.text mem).length - n) := by
  rw [hs.length_text, Span.text, Span.text, List.take_take]
  congr 1
  show s.stop - n - s.p = _
  omega

/-- The last byte but `n`, where there are that many. -/
theorem Span.Valid.getElem?_last (hs : s.Valid mem) {n : Nat} (hn : s.p + n ≤ s.stop) (h0 : 0 < n) :
    (s.text mem)[(s.text mem).length - n]? = mem[s.stop - n]? := by
  rw [getElem?_text, hs.length_text, if_pos (by omega)]
  congr 1
  omega

theorem Span.Valid.head?_text (hs : s.Valid mem) (b : UInt8) :
    (s.text mem).head? = some b ↔ s.p < s.stop ∧ mem[s.p]? = some b := by
  have hp := hs.p_le
  rw [List.head?_eq_getElem?, getElem?_text]
  -- an empty span has no first byte, whatever stands at its place in memory
  by_cases hlt : s.p < s.stop
  · rw [if_pos (Nat.sub_pos_of_lt hlt)]
    simp [hlt]
  · rw [if_neg (by omega)]
    simp [hlt]

theorem Span.Valid.getLast?_text (hs : s.Valid mem) (b : UInt8) :
    (s.text mem).getLast? = some b ↔ s.p < s.stop ∧ mem[s.stop - 1]? = some b := by
  rw [List.getLast?_eq_getElem?]
  by_cases hlt : s.p < s.stop
  · rw [hs.getElem?_last (n := 1) hlt Nat.one_pos, and_iff_right hlt]
  · have hnil : s.text mem = [] := hs.text_eq_nil_iff.mpr (Nat.le_of_not_lt hlt)
    simp [hnil, hlt]

/-- A step that strips keeps the pointers in order, inside where they were. -/
structure Within (mem : List UInt8) (s t : Span) : Prop extends t.Valid mem where
  le_p : s.p ≤ t.p
  stop_le_stop : t.stop ≤ s.stop

theorem Within.trans {t u : Span} (hst : Within mem s t) (htu : Within mem t u) : Within mem s u where
  toValid := htu.toValid
  le_p := hst.le_p.trans htu.le_p
  stop_le_stop := htu.stop_le_stop.trans hst.stop_le_stop

theorem Span.Valid.within (hs : s.Valid mem) : Within mem s s := ⟨hs, le_rfl, le_rfl⟩

theorem Span.Valid.retreat (hs : s.Valid mem) {n : Nat} (hn : s.p + n ≤ s.stop) :
    Within mem s { s with stop := s.stop - n } where
  p_le := Nat.le_sub_of_add_le hn
  stop_le := (Nat.sub_le _ _).trans hs.stop_le
  le_p := Nat.le_refl s.p
  stop_le_stop := Nat.sub_le _ _

theorem Span.Valid.skipDollar (hs : s.Valid mem) : Within mem s (skipDollar mem s) ∧
    (Gps.skipDollar mem s).text mem =
      if (s.text mem).head? = some (byte '$') then (s.text mem).tail else s.text mem := by
  simp only [Gps.skipDollar, hs.head?_text]
  split
  · rename_i h
    refine ⟨⟨⟨h.1, hs.stop_le⟩, Nat.le_succ _, Nat.le_refl _⟩, ?_⟩
    rw [← List.drop_one, ← text_advance]
  · exact ⟨hs.within, rfl⟩

theorem Span.Valid.cutNewline (hs : s.Valid mem) : Within mem s (cutNewline mem s) ∧
    (Gps.cutNewline mem s).text mem = dropNewline (s.text mem) := by
  simp only [Gps.cutNewline, dropNewline, hs.getLast?_text]
  split
  · rename_i h
    -- one byte shorter, and the same question about the byte before it
    have hcut := hs.retreat (n := 1) h.1
    have htext := hs.text_retreat (n := 1) h.1
    rw [← List.dropLast_eq_take] at htext
    simp only [← htext, hcut.getLast?_text]
    split
    · rename_i h'
      refine ⟨hcut.trans (hcut.toValid.retreat (n := 1) h'.1), ?_⟩
      rw [List.dropLast_eq_take, ← hcut.toValid.text_retreat (n := 1) h'.1]
    · exact ⟨hcut, rfl⟩
  · exact ⟨hs.within, rfl⟩

theorem Span.Valid.cutChecksum (hs : s.Valid mem) : Within mem s (cutChecksum mem s) ∧
    (Gps.cutChecksum mem s).text mem = dropChecksum (s.text mem) := by
  have hlen : 3 ≤ (s.text mem).length ↔ s.p + 3 ≤ s.stop := by
    rw [hs.length_text]
    omega
  unfold Gps.cutChecksum dropChecksum
  -- with fewer than three bytes the source does not look for an asterisk
  by_cases h3 : s.p + 3 ≤ s.stop
  · simp only [hlen, h3, true_and, hs.getElem?_last h3 (by decide)]
    split
    · exact ⟨hs.retreat h3, hs.text_retreat h3⟩
    · exact ⟨hs.within, rfl⟩
  · simp only [hlen, h3, false_and, if_false]
    exact ⟨hs.within, trivial⟩

/-- The ends never cross, and what is left between them is the body of the line. -/
theorem Span.Valid.bodySpan (hs : s.Valid mem) : Within mem s (bodySpan mem s) ∧
    (Gps.bodySpan mem s).text mem = nmeaBody (s.text mem) := by
  obtain ⟨hdollar, htext⟩ := hs.skipDollar
  obtain ⟨hnewline, htext'⟩ := hdollar.cutNewline
  obtain ⟨hchecksum, htext''⟩ := hnewline.cutChecksum
  refine ⟨(hdollar.trans hnewline).trans hchecksum, ?_⟩
  rw [Gps.bodySpan, htext'', htext', htext]
  rfl

/-- `memchr` finds the first comma. -/
theorem Span.Valid.memchrComma (hs : s.Valid mem) :
    (memchrComma mem s).getD s.stop = s.p + commaOffset (s.text mem) := by
  obtain ⟨p, stop⟩ := s
  -- induction on the bytes between the two pointers
  induction hn : stop - p generalizing p with
  | zero =>
    have hnil : (⟨p, stop⟩ : Span).text mem = [] := by simp [Span.text, hn]
    have hp : p ≤ stop := hs.p_le
    rw [Gps.memchrComma, hnil]
    simp only [hn, List.range'_zero, List.find?_nil, Option.getD_none]
    show stop = p + 0
    omega
  | succ n ih =>
    have hp : p ≤ stop := hs.p_le
    have hstop : stop ≤ mem.length := hs.stop_le
    have hlt : p < mem.length := by omega
    have hcons : (⟨p, stop⟩ : Span).text mem = mem[p] :: (⟨p + 1, stop⟩ : Span).text mem := by
      have htail : stop - (p + 1) = n := by omega
      rw [Span.text, Span.text, List.drop_eq_getElem_cons hlt]
      simp only [hn, htail, List.take_succ_cons]
    have hih := ih (p + 1) ⟨by show p + 1 ≤ stop; omega, hstop⟩ (by omega)
    rw [hcons]
    simp only [Gps.memchrComma, hn, List.range'_succ, List.find?_cons, List.getElem?_eq_getElem hlt]
    -- the first byte is the comma, or it is one more to skip
    by_cases hcomma : mem[p] = byte ','
    · simp [hcomma, commaOffset]
    · have hoff : commaOffset (mem[p] :: (⟨p + 1, stop⟩ : Span).text mem) =
          commaOffset ((⟨p + 1, stop⟩ : Span).text mem) + 1 := by
        simp [commaOffset, hcomma]
      have htail : stop - (p + 1) = n := by omega
      simp only [Gps.memchrComma, htail] at hih
      simp only [Option.some.injEq, hcomma, decide_false, hih, hoff]
      omega

end Pointers

/-- The token at these pointers, in a body that ends at `stop`. -/
def Span.token (mem : List UInt8) (stop : Nat) (s : Span) : Token :=
  ⟨(⟨s.p, stop⟩ : Span).text mem, s.stop - s.p⟩

theorem commaOffset_le (p : List UInt8) : commaOffset p ≤ p.length :=
  (List.takeWhile_sublist _).length_le

/-- After a token: one past the comma, or the end. -/
theorem Span.Valid.next {mem : List UInt8} {p stop q : Nat} (hs : (⟨p, stop⟩ : Span).Valid mem)
    (hq : q = p + commaOffset ((⟨p, stop⟩ : Span).text mem)) :
    (⟨if q < stop then q + 1 else q, stop⟩ : Span).Valid mem ∧
    (⟨if q < stop then q + 1 else q, stop⟩ : Span).text mem =
      ((⟨p, stop⟩ : Span).text mem).drop (commaOffset ((⟨p, stop⟩ : Span).text mem) + 1) := by
  have hle := commaOffset_le ((⟨p, stop⟩ : Span).text mem)
  rw [hs.length_text] at hle
  have hp : p ≤ stop := hs.p_le
  have hstop : stop ≤ mem.length := hs.stop_le
  replace hle : commaOffset ((⟨p, stop⟩ : Span).text mem) ≤ stop - p := hle
  split
  · -- `memchr` has found a comma, and `p` moves past it
    rename_i hlt
    refine ⟨⟨hlt, hstop⟩, ?_⟩
    rw [← text_advance, hq, Nat.add_assoc]
  · -- there is none, and `p` moves to the end
    rename_i hge
    have hend : q = stop := by omega
    refine ⟨⟨hend.le, hstop⟩, ?_⟩
    rw [List.drop_eq_nil_of_le, Span.text, hend, Nat.sub_self, List.take_zero]
    rw [hs.length_text]
    show stop - p ≤ _
    omega

/-- The loop over pointers does what the loop over lists does. -/
theorem map_token_cutTokens {mem : List UInt8} {stop : Nat} (fuel p : Nat) (tokens : List Span)
    (t : NmeaTokenizer) (hs : (⟨p, stop⟩ : Span).Valid mem)
    (ht : tokens.map (Span.token mem stop) = t.tokens) :
    (cutTokens mem stop fuel p tokens).map (Span.token mem stop) =
      (nmeaTokenizerLoop fuel ((⟨p, stop⟩ : Span).text mem) t).tokens := by
  -- pass by pass: the pointers of the one loop and the texts of the other go on together
  induction fuel generalizing p tokens t with
  | zero => exact ht
  | succ fuel ih =>
    rw [cutTokens, nmeaTokenizerLoop]
    by_cases hlt : p < stop
    · have hne : (⟨p, stop⟩ : Span).text mem ≠ [] := fun h =>
        absurd (hs.text_eq_nil_iff.mp h) (Nat.not_le_of_lt hlt)
      have hq : (memchrComma mem ⟨p, stop⟩).getD stop =
          p + commaOffset ((⟨p, stop⟩ : Span).text mem) := hs.memchrComma
      obtain ⟨hvalid, htext⟩ := hs.next hq
      rw [if_pos hlt, if_neg hne, ← htext]
      apply ih _ _ _ hvalid
      -- the same token goes into both tables
      have hlen : tokens.length = t.tokens.length := by rw [← ht, List.length_map]
      have htoken : Span.token mem stop ⟨p, (memchrComma mem ⟨p, stop⟩).getD stop⟩ =
          ⟨(⟨p, stop⟩ : Span).text mem, commaOffset ((⟨p, stop⟩ : Span).text mem)⟩ := by
        rw [Span.token, hq]
        simp
      unfold NmeaTokenizer.push
      rw [hlen]
      split
      · rw [List.map_append, ht, List.map_singleton, htoken]
      · exact ht
    · rw [if_neg hlt, if_pos (hs.text_eq_nil_iff.mpr (Nat.le_of_not_lt hlt))]
      exact ht

/-- A token begins inside the body and does not end behind it. -/
def Span.InBody (body s : Span) : Prop := body.p ≤ s.p ∧ s.p < body.stop ∧ s.stop ≤ body.stop

theorem inBody_cutTokens {mem : List UInt8} {start stop : Nat} (fuel p : Nat) (tokens : List Span)
    (hs : (⟨p, stop⟩ : Span).Valid mem) (hp : start ≤ p)
    (htokens : ∀ s ∈ tokens, Span.InBody ⟨start, stop⟩ s) :
    ∀ s ∈ cutTokens mem stop fuel p tokens, Span.InBody ⟨start, stop⟩ s := by
  induction fuel generalizing p tokens with
  | zero => exact htokens
  | succ fuel ih =>
    rw [cutTokens]
    split
    · rename_i hlt
      have hq : (memchrComma mem ⟨p, stop⟩).getD stop =
          p + commaOffset ((⟨p, stop⟩ : Span).text mem) := hs.memchrComma
      -- the comma that ends the token is not behind the end
      have hle := commaOffset_le ((⟨p, stop⟩ : Span).text mem)
      rw [hs.length_text] at hle
      replace hle : commaOffset ((⟨p, stop⟩ : Span).text mem) ≤ stop - p := hle
      -- the pointers stay in the body, and so does the new token
      apply ih _ _ (hs.next hq).1 (by split <;> omega)
      split
      · intro s hmem
        rcases List.mem_append.mp hmem with hold | hnew
        · exact htokens s hold
        · rw [List.mem_singleton.mp hnew]
          refine ⟨hp, hlt, ?_⟩
          show (memchrComma mem ⟨p, stop⟩).getD stop ≤ stop
          omega
      · exact htokens
    · exact htokens

/-! ## §5 The Tokenizer Splits at the Commas -/

namespace Buffer

variable (buf : Buffer)

theorem valid : buf.toSpan.Valid buf.mem := ⟨buf.p_le, buf.stop_le⟩

/-- The body lies inside the buffer that was given. -/
theorem within_body : Within buf.mem buf.toSpan buf.body := buf.valid.bodySpan.1

theorem text_body : buf.body.text buf.mem = nmeaBody buf.line := buf.valid.bodySpan.2

/-- The pointers that are cut out are the tokens of the line. -/
theorem map_token_tokens :
    buf.tokens.map (Span.token buf.mem buf.body.stop) = (nmeaTokenizerInit buf.line).tokens := by
  have hvalid : (⟨buf.body.p, buf.body.stop⟩ : Span).Valid buf.mem := buf.within_body.toValid
  rw [nmeaTokenizerInit, ← buf.text_body, buf.within_body.toValid.length_text]
  exact map_token_cutTokens _ _ _ _ hvalid rfl

/-- So `nmea_tokenizer_get` gives the same token, of the table or of the dummy string. -/
theorem token_get (i : Nat) :
    ((buf.get i).map (Span.token buf.mem buf.body.stop)).getD Token.dummy =
      nmeaTokenizerGet (nmeaTokenizerInit buf.line) i := by
  rw [nmeaTokenizerGet, ← buf.map_token_tokens, List.getElem?_map, get]

theorem inBody_of_get {i : Nat} {s : Span} (hs : buf.get i = some s) : Span.InBody buf.body s :=
  inBody_cutTokens _ _ _ buf.within_body.toValid (Nat.le_refl _) (fun _ h => by cases h) s
    (List.mem_of_getElem? hs)

theorem text_token {s : Span} (hs : Span.InBody buf.body s) :
    (s.token buf.mem buf.body.stop).text = s.text buf.mem := by
  have hstop := hs.2.2
  simp only [Span.token, Token.text, Span.text, List.take_take]
  congr 1
  omega

/-- **The tokenizer splits at the commas**: for any buffer the ends of the body never cross
nor leave the buffer, token `i` is field `i` of the body, the count is that of the fields but
an empty last one, up to twenty, and the first byte of a token is in the body or in the dummy
string. -/
theorem nmea_tokenizer_splits :
    (buf.p ≤ buf.body.p ∧ buf.body.p ≤ buf.body.stop ∧ buf.body.stop ≤ buf.stop) ∧
    buf.body.text buf.mem = nmeaBody buf.line ∧
    buf.tokens.length = min maxNmeaTokens (countedFields (nmeaBody buf.line)).length ∧
    ∀ i < maxNmeaTokens, buf.text (buf.get i) = field (nmeaBody buf.line) i ∧
      ∀ s ∈ buf.get i, buf.body.p ≤ s.p ∧ s.p < buf.body.stop ∧ s.stop ≤ buf.body.stop := by
  have hwithin := buf.within_body
  refine ⟨⟨hwithin.le_p, hwithin.p_le, hwithin.stop_le_stop⟩, buf.text_body, ?_, fun i hi => ?_⟩
  · rw [← length_nmeaTokenizerInit, ← buf.map_token_tokens, List.length_map]
  · refine ⟨?_, fun s hs => buf.inBody_of_get hs⟩
    -- token `i` of the pointers is token `i` of the lists, which is field `i`
    rw [← text_nmeaTokenizerGet buf.line hi, ← buf.token_get]
    cases hget : buf.get i with
    | none => rfl
    | some s => exact (buf.text_token (buf.inBody_of_get hget)).symm

end Buffer

end OdroidU2.Gps
