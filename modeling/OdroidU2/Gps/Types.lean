import Mathlib
import OdroidU2.Foundations.CInt
import OdroidU2.Foundations.Prog

/-!
# GPS Data Types

The records of `nmea_reader.h` and of Android's `hardware/gps.h` that the NMEA reader
fills, the commands that cross the control socket, and the C library calls it relies on.

`double` and `float` values are kept abstract: the reader computes them with the
operations of `Libc` and otherwise only stores them.
-/

namespace OdroidU2.Gps

open OdroidU2.Foundations

/-! ## §1 The C Library -/

/-- The fields of a `struct tm` that the reader sets and reads. -/
structure Tm where
  tmYear : Int
  tmMon : Int
  tmMday : Int
  tmHour : Int
  tmMin : Int
  tmSec : Int
  deriving DecidableEq, Repr

/-- The floating-point arithmetic and the library calls of the reader, over an arbitrary
type `R` of `double` values. -/
class Libc (R : Type) where
  /-- A `double` literal of the source. -/
  lit : ℚ → R
  /-- Conversion of an `int` to `double`. -/
  ofInt : Int → R
  add : R → R → R
  sub : R → R → R
  mul : R → R → R
  div : R → R → R
  neg : R → R
  floor : R → R
  /-- Conversion to an integer type: the fraction is dropped. -/
  trunc : R → Int
  /-- Conversion of a `double` to the nearest `float`. -/
  narrow : R → R
  /-- The comparison `==`. -/
  eq : R → R → Bool
  /-- `strtod` on the bytes before the terminator. -/
  strtod : List UInt8 → R
  /-- `timegm64`: seconds since the epoch. -/
  timegm64 : Tm → Int
  /-- `gmtime_r` of `time(NULL)`. -/
  gmtimeNow : Tm

/-! ## §2 The Records of `hardware/gps.h` -/

/-- `GPS_MAX_SVS` of `hardware/gps.h`. -/
def gpsMaxSvs : Nat := 32

/-- `GPS_LOCATION_HAS_LAT_LONG` -/
def gpsLocationHasLatLong : BitVec 16 := 0x0001
/-- `GPS_LOCATION_HAS_ALTITUDE` -/
def gpsLocationHasAltitude : BitVec 16 := 0x0002
/-- `GPS_LOCATION_HAS_SPEED` -/
def gpsLocationHasSpeed : BitVec 16 := 0x0004
/-- `GPS_LOCATION_HAS_BEARING` -/
def gpsLocationHasBearing : BitVec 16 := 0x0008
/-- `GPS_LOCATION_HAS_ACCURACY` -/
def gpsLocationHasAccuracy : BitVec 16 := 0x0010

/-- `GpsLocation` -/
structure GpsLocation (R : Type) where
  flags : BitVec 16
  latitude : R
  longitude : R
  altitude : R
  speed : R
  bearing : R
  accuracy : R
  timestamp : Int
  deriving DecidableEq

/-- `GpsSvInfo` -/
structure GpsSvInfo (R : Type) where
  prn : Int
  snr : R
  elevation : R
  azimuth : R
  deriving DecidableEq

/-- `GpsSvStatus` -/
structure GpsSvStatus (R : Type) where
  numSvs : Int
  svList : List (GpsSvInfo R)
  usedInFixMask : BitVec 32
  deriving DecidableEq

/-- Which callbacks of a `GpsCallbacks` are not `NULL`. -/
structure GpsCallbacks where
  locationCb : Bool
  svStatusCb : Bool
  nmeaCb : Bool
  deriving DecidableEq, Repr

/-! ## §3 The Reader -/

/-- The one-byte commands of the control socket, in the order of the source's `enum`. -/
inductive Cmd where
  | statusCb
  | agpsStatusCb
  | svStatusCb
  | locationCb
  | nmeaCb
  | niCb
  | quit
  deriving DecidableEq, Repr

/-- `NMEA_MAX_SIZE` -/
def nmeaMaxSize : Nat := 83

/-- `NmeaReader`, without `utc_diff`, which nothing reads, and with each callback pointer
reduced to whether it is set. -/
structure NmeaReader (R : Type) where
  pos : Nat
  overflow : Bool
  utcYear : Int
  utcMon : Int
  utcDay : Int
  fix : GpsLocation R
  svStatus : GpsSvStatus R
  svStatusChanged : Bool
  callback : Bool
  svStatusCallback : Bool
  nmeaCallback : Bool
  /-- `char in[NMEA_MAX_SIZE + 1]` -/
  inBuf : List UInt8
  update : Bool
  deriving DecidableEq

/-- The atomic actions of the reader thread on the shared reader. -/
inductive Action where
  /-- An assignment to a field. -/
  | assign
  /-- A store into `r->in[idx]`. -/
  | inStore (idx : Nat)
  /-- A store into a field of `r->sv_status.sv_list[curr]`. -/
  | svStore (curr : Int)
  /-- The evaluation of `1ul << amount`, with the store of its result into the mask. -/
  | maskShift (amount : Int)
  /-- A call of `nmea_reader_parse` that sees `line` in `r->in[0..r->pos)`. -/
  | parse (line : List UInt8)
  /-- A call of `r->set_pending_callback_cb`. -/
  | post (cmd : Cmd)
  deriving DecidableEq, Repr

/-- Code of the reader thread: programs over the shared reader. -/
abbrev NmeaM (R : Type) := Prog (NmeaReader R) Action

/-- An assignment to fields of `*r`. -/
def assign {R : Type} (f : NmeaReader R → NmeaReader R) : NmeaM R Unit :=
  Prog.act .assign f

/-- `r->set_pending_callback_cb(cmd)` -/
def setPendingCallback {R : Type} (cmd : Cmd) : NmeaM R Unit :=
  Prog.act (.post cmd) id

section ActionLemmas

variable {R : Type} {P : Action → NmeaReader R → Prop}

@[simp] theorem exec_assign (f : NmeaReader R → NmeaReader R) (r : NmeaReader R) :
    (assign f).exec r = f r := (rfl)

@[simp] theorem log_assign (f : NmeaReader R → NmeaReader R) (r : NmeaReader R) :
    (assign f).log r = [(.assign, f r)] := (rfl)

@[simp] theorem emits_assign (f : NmeaReader R → NmeaReader R) (r : NmeaReader R) :
    (assign f).Emits P r ↔ P .assign (f r) := Prog.emits_act _ _ _

@[simp] theorem exec_setPendingCallback (cmd : Cmd) (r : NmeaReader R) :
    (setPendingCallback cmd).exec r = r := (rfl)

@[simp] theorem log_setPendingCallback (cmd : Cmd) (r : NmeaReader R) :
    (setPendingCallback cmd).log r = [(.post cmd, r)] := (rfl)

@[simp] theorem emits_setPendingCallback (cmd : Cmd) (r : NmeaReader R) :
    (setPendingCallback cmd).Emits P r ↔ P (.post cmd) r := Prog.emits_act _ _ _

end ActionLemmas

end OdroidU2.Gps
