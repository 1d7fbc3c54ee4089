import OdroidU2.Gps.Types

/-!
# NMEA Tokenizer

`nmea_tokenizer.c`: the line is stripped of its decoration and cut at the commas into at
most twenty tokens.  A token is a pair of pointers into the line, so it carries the
bytes that follow it as well: `tok.p[0]` of an empty field is the next separator.
-/

namespace OdroidU2.Gps

open OdroidU2.Foundations

/-! ## §1 Tokens -/

/-- `Token`: the bytes of the body from `tok.p` on, and `tok.end - tok.p`. -/
structure Token where
  p : List UInt8
  len : Nat
  deriving DecidableEq, Repr

/-- The bytes `[tok.p, tok.end)`. -/
def Token.text (tok : Token) : List UInt8 := tok.p.take tok.len

/-- `tok.p[0]` -/
def Token.first (tok : Token) : UInt8 := tok.p.headD 0

/-- The token of `dummy = ""`: its first byte is the terminator. -/
def Token.dummy : Token := ⟨[0], 0⟩

/-- `MAX_NMEA_TOKENS` -/
def maxNmeaTokens : Nat := 20

/-- `NmeaTokenizer`: the first `count` entries of `tokens[MAX_NMEA_TOKENS]`. -/
structure NmeaTokenizer where
  tokens : List Token
  count_le : tokens.length ≤ maxNmeaTokens

/-- `t->tokens[count++] = tok`, unless the array is full. -/
def NmeaTokenizer.push (t : NmeaTokenizer) (tok : Token) : NmeaTokenizer :=
  if h : t.tokens.length < maxNmeaTokens then
    ⟨t.tokens ++ [tok], by simpa using Nat.succ_le_of_lt h⟩
  else t

/-! ## §2 The Body of a Line -/

/-- Drop one trailing newline, and the carriage return before it. -/
def dropNewline (line : List UInt8) : List UInt8 :=
  if line.getLast? = some (byte '\n') then
    let line := line.dropLast
    if line.getLast? = some (byte '\r') then line.dropLast else line
  else line

/-- Drop a trailing checksum: a `*` and the two bytes after it. -/
def dropChecksum (text : List UInt8) : List UInt8 :=
  if 3 ≤ text.length ∧ text[text.length - 3]? = some (byte '*') then
    text.take (text.length - 3)
  else text

/-- The part of a line between the optional `$` and the checksum. -/
def nmeaBody (line : List UInt8) : List UInt8 :=
  let line := if line.head? = some (byte '$') then line.tail else line
  dropChecksum (dropNewline line)

/-! ## §3 `nmea_tokenizer_init` and `nmea_tokenizer_get` -/

/-- Offset of the first comma, or the length when there is none (`memchr`). -/
def commaOffset (p : List UInt8) : Nat := (p.takeWhile (· ≠ byte ',')).length

/-- The `while (p < end)` loop.  Every iteration consumes a byte, so the length of the
body is fuel enough. -/
def nmeaTokenizerLoop : Nat → List UInt8 → NmeaTokenizer → NmeaTokenizer
  | 0, _, t => t
  | fuel + 1, p, t =>
    if p = [] then t
    else nmeaTokenizerLoop fuel (p.drop (commaOffset p + 1)) (t.push ⟨p, commaOffset p⟩)

/-- `nmea_tokenizer_init` on the bytes `[p, end)`. -/
def nmeaTokenizerInit (line : List UInt8) : NmeaTokenizer :=
  let body := nmeaBody line
  nmeaTokenizerLoop body.length body ⟨[], by decide⟩

/-- `nmea_tokenizer_get` -/
def nmeaTokenizerGet (t : NmeaTokenizer) (index : Nat) : Token :=
  t.tokens[index]?.getD Token.dummy

end OdroidU2.Gps
