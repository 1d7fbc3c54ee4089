import OdroidU2.Gps.Tokenizer

/-!
# NMEA Reader

`nmea_reader.c`, function by function.  Each function is a program over the shared
reader, one action per assignment, so that the same definitions give the sequential
meaning (`Prog.exec`) and the steps another thread can observe (`Prog.log`).
-/

namespace OdroidU2.Gps

open OdroidU2.Foundations

variable {R : Type} [Libc R]

/-! ## §1 Numbers -/

/-- The loop of `str2int`: `result = result * 10 + c` in a 32-bit `int`. -/
def str2intLoop : Int → List UInt8 → Int
  | result, [] => result
  | result, b :: rest =>
    let c : Int := (b.toNat : Int) - 48
    if 0 ≤ c ∧ c < 10 then str2intLoop (int32 (result * 10 + c)) rest else -1

/-- `str2int` -/
def str2int (s : List UInt8) : Int := str2intLoop 0 s

/-- `str2float`: fields of sixteen bytes and more read as zero. -/
def str2float (s : List UInt8) : R :=
  if 16 ≤ s.length then Libc.lit 0 else Libc.strtod s

/-! ## §2 Initialisation -/

/-- The reader `nmea_reader_init` leaves. -/
def nmeaReaderInit : NmeaReader R where
  pos := 0
  overflow := false
  utcYear := -1
  utcMon := -1
  utcDay := -1
  fix :=
    { flags := 0
      latitude := Libc.lit 0
      longitude := Libc.lit 0
      altitude := Libc.lit 0
      speed := Libc.lit 0
      bearing := Libc.lit 0
      accuracy := Libc.lit 0
      timestamp := 0 }
  svStatus :=
    { numSvs := 0
      svList := List.replicate gpsMaxSvs
        { prn := 0, snr := Libc.lit 0, elevation := Libc.lit 0, azimuth := Libc.lit 0 }
      usedInFixMask := 0 }
  svStatusChanged := false
  callback := false
  svStatusCallback := false
  nmeaCallback := false
  inBuf := List.replicate (nmeaMaxSize + 1) 0
  update := false

/-- `nmea_reader_set_callbacks` -/
def nmeaReaderSetCallbacks (cbs : Option GpsCallbacks) : NmeaM R Unit := do
  match cbs with
  | none => pure ()
  | some cbs =>
    assign fun r => { r with callback := cbs.locationCb }
    let r ← Prog.read
    Prog.when (cbs.locationCb ∧ r.fix.flags ≠ 0) do
      setPendingCallback .locationCb
      assign fun r => { r with fix.flags := 0 }
    assign fun r => { r with svStatusCallback := cbs.svStatusCb }
    Prog.when cbs.svStatusCb do
      setPendingCallback .svStatusCb
      assign fun r => { r with svStatusChanged := false }
    assign fun r => { r with nmeaCallback := cbs.nmeaCb }
    Prog.when cbs.nmeaCb do
      setPendingCallback .nmeaCb

/-- The reader `odroid_gps_init` leaves: initialised, and the callbacks installed. -/
def readerAfterInit (cbs : GpsCallbacks) : NmeaReader R :=
  (nmeaReaderSetCallbacks (some cbs)).exec nmeaReaderInit

/-- Installing the callbacks changes nothing else: the fix is still empty. -/
theorem exec_readerAfterInit (cbs : GpsCallbacks) :
    readerAfterInit (R := R) cbs =
      { nmeaReaderInit with
        callback := cbs.locationCb, svStatusCallback := cbs.svStatusCb,
        nmeaCallback := cbs.nmeaCb } := by
  simp [readerAfterInit, nmeaReaderSetCallbacks, nmeaReaderInit]

/-! ## §3 The Update Functions -/

/-- `nmea_reader_update_time` -/
def nmeaReaderUpdateTime (tok : Token) : NmeaM R Int := do
  if tok.len < 6 then
    return -1
  let r ← Prog.read
  Prog.when (r.utcYear < 0) do
    -- no date yet, get current one
    let tm := Libc.gmtimeNow R
    assign fun r => { r with utcYear := tm.tmYear + 1900 }
    assign fun r => { r with utcMon := tm.tmMon + 1 }
    assign fun r => { r with utcDay := tm.tmMday }
  let hour := str2int (tok.text.take 2)
  let minute := str2int ((tok.text.drop 2).take 2)
  let seconds : R := str2float (tok.text.drop 4)
  let milliseconds := Libc.mul seconds (Libc.lit 1000)
  let r ← Prog.read
  let tm : Tm :=
    { tmHour := hour, tmMin := minute, tmSec := 0, tmYear := r.utcYear - 1900,
      tmMon := r.utcMon - 1, tmMday := r.utcDay }
  let fixTime := Libc.timegm64 R tm * 1000 + Libc.trunc milliseconds
  assign fun r => { r with fix.timestamp := fixTime }
  return 0

/-- `nmea_reader_update_date` -/
def nmeaReaderUpdateDate (date time : Token) : NmeaM R Int := do
  if date.len ≠ 6 then
    return -1
  let day := str2int (date.text.take 2)
  let mon := str2int ((date.text.drop 2).take 2)
  let year := str2int ((date.text.drop 4).take 2) + 2000
  -- `(day | mon | year) < 0`: the sign bit of one of the three
  if day < 0 ∨ mon < 0 ∨ year < 0 then
    return -1
  assign fun r => { r with utcYear := year }
  assign fun r => { r with utcMon := mon }
  assign fun r => { r with utcDay := day }
  nmeaReaderUpdateTime time

/-- `convert_from_hhmm` -/
def convertFromHhmm (tok : Token) : R :=
  let val : R := str2float tok.text
  let degrees : Int := Libc.trunc (Libc.div (Libc.floor val) (Libc.lit 100))
  let minutes := Libc.sub val (Libc.mul (Libc.ofInt degrees) (Libc.lit 100))
  Libc.add (Libc.ofInt degrees) (Libc.div minutes (Libc.lit 60))

/-- `nmea_reader_update_latlong` -/
def nmeaReaderUpdateLatlong (latitude : Token) (latitudeHemi : UInt8) (longitude : Token)
    (longitudeHemi : UInt8) : NmeaM R Int := do
  if latitude.len < 6 then
    return -1
  let lat : R := convertFromHhmm latitude
  let lat := if latitudeHemi = byte 'S' then Libc.neg lat else lat
  if longitude.len < 6 then
    return -1
  let lon : R := convertFromHhmm longitude
  let lon := if longitudeHemi = byte 'W' then Libc.neg lon else lon
  assign fun r => { r with fix.flags := r.fix.flags ||| gpsLocationHasLatLong }
  assign fun r => { r with fix.latitude := lat }
  assign fun r => { r with fix.longitude := lon }
  return 0

/-- `nmea_reader_update_altitude` -/
def nmeaReaderUpdateAltitude (altitude _units : Token) : NmeaM R Int := do
  if altitude.len = 0 then
    return -1
  assign fun r => { r with fix.flags := r.fix.flags ||| gpsLocationHasAltitude }
  assign fun r => { r with fix.altitude := str2float altitude.text }
  return 0

/-- `nmea_reader_update_accuracy` -/
def nmeaReaderUpdateAccuracy (accuracy : Token) : NmeaM R Int := do
  if accuracy.len = 0 then
    return -1
  assign fun r => { r with fix.accuracy := Libc.narrow (str2float accuracy.text) }
  let r ← Prog.read
  if Libc.eq r.fix.accuracy (Libc.lit (9999 / 100)) then
    return 0
  assign fun r => { r with fix.flags := r.fix.flags ||| gpsLocationHasAccuracy }
  return 0

/-- `nmea_reader_update_bearing` -/
def nmeaReaderUpdateBearing (bearing : Token) : NmeaM R Int := do
  if bearing.len = 0 then
    return -1
  assign fun r => { r with fix.flags := r.fix.flags ||| gpsLocationHasBearing }
  assign fun r => { r with fix.bearing := Libc.narrow (str2float bearing.text) }
  return 0

/-- `nmea_reader_update_speed`, which converts knots to metres a second. -/
def nmeaReaderUpdateSpeed (speed : Token) : NmeaM R Int := do
  if speed.len = 0 then
    return -1
  assign fun r => { r with fix.flags := r.fix.flags ||| gpsLocationHasSpeed }
  assign fun r => { r with
    fix.speed := Libc.narrow (Libc.mul (str2float speed.text) (Libc.lit (514444 / 1000000))) }
  return 0

/-! ## §4 The Sentences of `nmea_reader_parse` -/

/-- The GGA branch: the altitude of a fix. -/
def nmeaReaderParseGga (tzer : NmeaTokenizer) : NmeaM R Unit := do
  let tokFixstaus := nmeaTokenizerGet tzer 6
  Prog.when (byte '0' < tokFixstaus.first) do
    let _ ← nmeaReaderUpdateAltitude (nmeaTokenizerGet tzer 9) (nmeaTokenizerGet tzer 10)

/-- `for (i = 3; i <= 14; ++i)` of the GSA branch, over the indices still to visit.
A shift by 32 or more is undefined in C; here it gives zero. -/
def nmeaReaderParseGsaLoop (tzer : NmeaTokenizer) : List Nat → NmeaM R Unit
  | [] => pure ()
  | i :: rest => do
    let prn := str2int (nmeaTokenizerGet tzer i).text
    Prog.when (0 < prn) do
      Prog.act (.maskShift (prn - 1)) fun r => { r with
        svStatus.usedInFixMask := r.svStatus.usedInFixMask ||| (1#32 <<< (prn - 1).toNat) }
      assign fun r => { r with svStatusChanged := true }
    nmeaReaderParseGsaLoop tzer rest

/-- The GSA branch: accuracy and the satellites used in the fix. -/
def nmeaReaderParseGsa (tzer : NmeaTokenizer) : NmeaM R Unit := do
  let tokFixStatus := nmeaTokenizerGet tzer 2
  Prog.when (tokFixStatus.first ≠ 0 ∧ tokFixStatus.first ≠ byte '1') do
    let _ ← nmeaReaderUpdateAccuracy (nmeaTokenizerGet tzer 15)
    assign fun r => { r with svStatus.usedInFixMask := 0 }
    nmeaReaderParseGsaLoop tzer (List.range' 3 12)

/-- The GLL branch.  The second test of the status repeats the first one, and the time
token is not used. -/
def nmeaReaderParseGll (tzer : NmeaTokenizer) : NmeaM R Unit := do
  Prog.when ((nmeaTokenizerGet tzer 6).first = byte 'A') do
    let _ ← nmeaReaderUpdateLatlong (nmeaTokenizerGet tzer 1) (nmeaTokenizerGet tzer 2).first
      (nmeaTokenizerGet tzer 3) (nmeaTokenizerGet tzer 4).first
    assign fun r => { r with update := true }

/-- The RMC branch. -/
def nmeaReaderParseRmc (tzer : NmeaTokenizer) : NmeaM R Unit := do
  Prog.when ((nmeaTokenizerGet tzer 2).first = byte 'A') do
    let _ ← nmeaReaderUpdateDate (nmeaTokenizerGet tzer 9) (nmeaTokenizerGet tzer 1)
    let _ ← nmeaReaderUpdateLatlong (nmeaTokenizerGet tzer 3) (nmeaTokenizerGet tzer 4).first
      (nmeaTokenizerGet tzer 5) (nmeaTokenizerGet tzer 6).first
    let _ ← nmeaReaderUpdateBearing (nmeaTokenizerGet tzer 8)
    let _ ← nmeaReaderUpdateSpeed (nmeaTokenizerGet tzer 7)
    assign fun r => { r with update := true }

/-- The reader after a store into `sv_list[curr]`. -/
def NmeaReader.modifySv (r : NmeaReader R) (curr : Int) (f : GpsSvInfo R → GpsSvInfo R) :
    NmeaReader R :=
  if 0 ≤ curr then { r with svStatus.svList := r.svStatus.svList.modify curr.toNat f } else r

/-- A store into a field of `r->sv_status.sv_list[curr]`.  In C a store outside the
array is undefined; here it changes nothing, and the logged `curr` tells it apart. -/
def svStore (curr : Int) (f : GpsSvInfo R → GpsSvInfo R) : NmeaM R Unit :=
  Prog.act (.svStore curr) fun r => r.modifySv curr f

/-- Slot `i` of a GSV sentence stored at `sv_list[curr]`. -/
def nmeaReaderStoreSv (tzer : NmeaTokenizer) (i : Nat) (curr prn : Int) : NmeaM R Unit := do
  let tokElevation := nmeaTokenizerGet tzer (i * 4 + 5)
  let tokAzimuth := nmeaTokenizerGet tzer (i * 4 + 6)
  let tokSnr := nmeaTokenizerGet tzer (i * 4 + 7)
  svStore curr fun sv => { sv with prn := prn }
  svStore curr fun sv => { sv with elevation := Libc.narrow (str2float tokElevation.text) }
  svStore curr fun sv => { sv with azimuth := Libc.narrow (str2float tokAzimuth.text) }
  svStore curr fun sv => { sv with snr := Libc.narrow (str2float tokSnr.text) }
  assign fun r => { r with svStatus.numSvs := r.svStatus.numSvs + 1 }

/-- The `while` loop of the GSV branch, with `n = 4 - i` iterations left. -/
def nmeaReaderParseGsvLoop (tzer : NmeaTokenizer) (noSatellites : Int) :
    Nat → Nat → Int → NmeaM R Unit
  | 0, _, _ => pure ()
  | n + 1, i, curr => do
    let r ← Prog.read
    Prog.when (r.svStatus.numSvs < noSatellites) do
      let prn := str2int (nmeaTokenizerGet tzer (i * 4 + 4)).text
      if 0 < prn then
        nmeaReaderStoreSv tzer i curr prn
        nmeaReaderParseGsvLoop tzer noSatellites n (i + 1) (curr + 1)
      else
        nmeaReaderParseGsvLoop tzer noSatellites n (i + 1) curr

/-- Sentence number 1 empties the satellite list. -/
def nmeaReaderStartGsv (sentence : Int) : NmeaM R Unit :=
  Prog.when (sentence = 1) do
    assign fun r => { r with svStatusChanged := false }
    assign fun r => { r with svStatus.numSvs := 0 }

/-- The GSV branch: the satellites in view, spread over several sentences. -/
def nmeaReaderParseGsv (tzer : NmeaTokenizer) : NmeaM R Unit := do
  let noSatellites := str2int (nmeaTokenizerGet tzer 3).text
  Prog.when (0 < noSatellites) do
    let sentence := str2int (nmeaTokenizerGet tzer 2).text
    let totalSentences := str2int (nmeaTokenizerGet tzer 1).text
    nmeaReaderStartGsv sentence
    let r ← Prog.read
    nmeaReaderParseGsvLoop tzer noSatellites 4 0 r.svStatus.numSvs
    Prog.when (sentence = totalSentences) do
      assign fun r => { r with svStatusChanged := true }

/-- The branch taken on the sentence id, whose first two characters are ignored. -/
def nmeaReaderParseSentence (tzer : NmeaTokenizer) (id : List UInt8) : NmeaM R Unit :=
  if id = bytes "GGA" then nmeaReaderParseGga tzer
  else if id = bytes "GSA" then nmeaReaderParseGsa tzer
  else if id = bytes "GLL" then nmeaReaderParseGll tzer
  else if id = bytes "RMC" then nmeaReaderParseRmc tzer
  else if id = bytes "GSV" then nmeaReaderParseGsv tzer
  else pure ()

/-- Post the fix once a position sentence asked for it. -/
def nmeaReaderPostFix : NmeaM R Unit := do
  let r ← Prog.read
  Prog.when (r.fix.flags ≠ 0 ∧ r.update) do
    Prog.when r.callback do
      setPendingCallback .locationCb
      assign fun r => { r with fix.flags := 0 }
      assign fun r => { r with update := false }

/-- Post the satellite status once it changed. -/
def nmeaReaderPostSvStatus : NmeaM R Unit := do
  let r ← Prog.read
  Prog.when r.svStatusChanged do
    Prog.when r.svStatusCallback do
      setPendingCallback .svStatusCb
      assign fun r => { r with svStatusChanged := false }

/-! ## §5 `nmea_reader_parse` and `nmea_reader_addc` -/

/-- `nmea_reader_parse` on the line in `r->in[0..r->pos)`. -/
def nmeaReaderParseLine (line : List UInt8) : NmeaM R Unit := do
  Prog.when (9 ≤ line.length) do
    let tzer := nmeaTokenizerInit line
    let tok := nmeaTokenizerGet tzer 0
    Prog.when (5 ≤ tok.len) do
      nmeaReaderParseSentence tzer ((tok.p.drop 2).take 3)
      nmeaReaderPostFix
      nmeaReaderPostSvStatus

/-- `nmea_reader_parse`, with its call logged. -/
def nmeaReaderParse : NmeaM R Unit := do
  let r ← Prog.read
  Prog.act (.parse (r.inBuf.take r.pos)) id
  nmeaReaderParseLine (r.inBuf.take r.pos)

/-- `r->in[r->pos] = (char) c; r->pos += 1;` -/
def nmeaReaderStore (c : UInt8) : NmeaM R Unit := do
  let r ← Prog.read
  Prog.act (.inStore r.pos) fun r => { r with inBuf := r.inBuf.set r.pos c }
  assign fun r => { r with pos := r.pos + 1 }

/-- What `nmea_reader_addc` does at a newline. -/
def nmeaReaderEndLine : NmeaM R Unit := do
  nmeaReaderParse
  let r ← Prog.read
  Prog.when r.nmeaCallback do
    setPendingCallback .nmeaCb
  assign fun r => { r with pos := 0 }

/-- `nmea_reader_addc` -/
def nmeaReaderAddc (c : UInt8) : NmeaM R Unit := do
  let r ← Prog.read
  if r.overflow then
    assign fun r => { r with overflow := decide (c ≠ byte '\n') }
  else if nmeaMaxSize ≤ r.pos then
    assign fun r => { r with overflow := true }
    assign fun r => { r with pos := 0 }
  else
    nmeaReaderStore c
    Prog.when (c = byte '\n') do
      nmeaReaderEndLine

/-- Bytes handed to `nmea_reader_addc` one by one, as `gps_state_thread` does. -/
def nmeaReaderAddAll : List UInt8 → NmeaM R Unit
  | [] => pure ()
  | c :: rest => do
    nmeaReaderAddc c
    nmeaReaderAddAll rest

/-! ## §6 The Reader After a Byte -/

/-- The reader after a byte went into the buffer. -/
def NmeaReader.store (r : NmeaReader R) (c : UInt8) : NmeaReader R :=
  { r with inBuf := r.inBuf.set r.pos c, pos := r.pos + 1 }

omit [Libc R] in
@[simp] theorem exec_nmeaReaderStore (c : UInt8) (r : NmeaReader R) :
    (nmeaReaderStore c).exec r = r.store c := rfl

/-- The reader once the parser has seen the line and the position is reset. -/
theorem exec_nmeaReaderEndLine (r : NmeaReader R) :
    nmeaReaderEndLine.exec r =
      { (nmeaReaderParseLine (r.inBuf.take r.pos)).exec r with pos := 0 } := by
  simp [nmeaReaderEndLine, nmeaReaderParse]

/-- `nmea_reader_addc` as a function of the reader: the three cases of the source, and
the newline that ends a stored line. -/
theorem exec_nmeaReaderAddc (c : UInt8) (r : NmeaReader R) :
    (nmeaReaderAddc c).exec r =
      if r.overflow then { r with overflow := decide (c ≠ byte '\n') }
      else if nmeaMaxSize ≤ r.pos then { r with overflow := true, pos := 0 }
      else if c = byte '\n' then nmeaReaderEndLine.exec (r.store c)
      else r.store c := by
  simp [nmeaReaderAddc]

end OdroidU2.Gps
