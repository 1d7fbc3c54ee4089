import OdroidU2.Foundations.Machine

/-!
# The `MemoryStream` of `GrabJpegFrame`

The encoder writes into a `FILE`, whose other end is a pipe.  A thread copies what arrives
there into the buffer of the stream, until a `read` returns nothing more.  `closeStream`
closes the `FILE` under the lock and waits, once, for the thread to signal that it is done.

The thread asks for `size - bytesWritten` bytes: once the buffer is full it takes the 0 that
`read` returns for the end of the file.

- `memoryStream_right_iff` — the sizes for which every interleaving goes well
- `full_buffer_blocks` — a picture as long as its frame
-/

namespace OdroidU2.Camera

open OdroidU2.Foundations

/-! ## §1 The Stream and Its Two Threads -/

/-- Where the thread that encodes is. -/
inductive EncoderAt where
  /-- In `saveYUYVtoJPEG`. -/
  | writing
  /-- At `AutoMutex l(lock)` in `closeStream`. -/
  | locking
  /-- In `fclose(file)`. -/
  | closing
  /-- At `exitedCondition.wait(lock)`. -/
  | closed
  /-- Asleep in `exitedCondition.wait(lock)`. -/
  | waiting
  /-- Awake again, without the lock. -/
  | woken
  /-- At the end of `closeStream`. -/
  | leaving
  | returned
  deriving DecidableEq, Repr

/-- Where `readPipe` is. -/
inductive ReaderAt where
  | reading
  /-- At `close(pipefd[0])`. -/
  | closing
  /-- At `AutoMutex l(lock)`. -/
  | locking
  /-- At `exitedCondition.signal()`. -/
  | signalling
  /-- At its end. -/
  | leaving
  | exited
  deriving DecidableEq, Repr

/-- The threads that take the lock. -/
inductive StreamThread where
  | encoder
  | reader
  deriving DecidableEq, Repr

/-- A `MemoryStream` with the bytes on their way to it. -/
structure MemoryStream where
  /-- What the encoder has still to write. -/
  toWrite : List UInt8
  /-- What the `FILE` has not passed on. -/
  fileBuf : List UInt8
  pipe : List UInt8
  /-- Is `file` open, and with it `pipefd[1]`? -/
  file : Bool
  /-- Is `pipefd[0]` open? -/
  pipefd0 : Bool
  /-- The bytes of `buffer` before `buf`. -/
  stored : List UInt8
  size : Nat
  bytesWritten : Nat
  lock : Option StreamThread
  encoder : EncoderAt
  reader : ReaderAt
  deriving DecidableEq, Repr

/-- One step of one thread. -/
inductive StreamStep where
  /-- The encoder hands the `FILE` its next `n` bytes. -/
  | fwrite (n : Nat)
  /-- The `FILE` writes `n` bytes to the pipe. -/
  | flush (n : Nat)
  | closeStream
  | lock
  | fclose
  | wait
  /-- `wait` returns without a signal. -/
  | wakeUnsignalled
  /-- `wait` takes the lock again. -/
  | relock
  | unlock
  /-- `read` returns, with `n` bytes if there are any. -/
  | read (n : Nat)
  | readFails
  | closePipe
  | readerLock
  | signal
  | readerUnlock
  deriving DecidableEq, Repr

namespace MemoryStream

/-- The constructor, with the pipe, the `FILE` and the thread it makes, and what the encoder
will write. -/
def new (bytes : List UInt8) (sz : Nat) : MemoryStream where
  toWrite := bytes
  fileBuf := []
  pipe := []
  file := true
  pipefd0 := true
  stored := []
  size := sz
  bytesWritten := 0
  lock := none
  encoder := .writing
  reader := .reading

variable (s : MemoryStream)

def getOffset : Nat := s.bytesWritten

/-- `fwrite` of the next bytes. -/
def fwrite (n : Nat) : Option MemoryStream :=
  if s.encoder = .writing then
    some { s with toWrite := s.toWrite.drop n, fileBuf := s.fileBuf ++ s.toWrite.take n }
  else none

/-- A `write` to the pipe.  It fails when nobody can read from the pipe any more, and the bytes
are lost. -/
def flush (n : Nat) : Option MemoryStream :=
  if s.encoder = .writing ∨ s.encoder = .closing then
    some { s with
      fileBuf := s.fileBuf.drop n
      pipe := if s.pipefd0 then s.pipe ++ s.fileBuf.take n else s.pipe }
  else none

/-- The test of `closeStream`.  The destructor calls it again after it has returned. -/
def closeStream : Option MemoryStream :=
  if s.encoder = .writing ∧ s.toWrite = [] ∨ s.encoder = .returned then
    some { s with encoder := if s.file then .locking else .returned }
  else none

/-- `AutoMutex l(lock)` in `closeStream`, and the same when `wait` returns. -/
def takeLock (before after : EncoderAt) : Option MemoryStream :=
  if s.encoder = before ∧ s.lock = none then
    some { s with encoder := after, lock := some .encoder }
  else none

/-- `fclose(file); file = NULL`, once everything is passed on. -/
def fclose : Option MemoryStream :=
  if s.encoder = .closing ∧ s.fileBuf = [] then
    some { s with file := false, encoder := .closed }
  else none

/-- `exitedCondition.wait(lock)` gives the lock back and falls asleep. -/
def wait : Option MemoryStream :=
  if s.encoder = .closed then some { s with encoder := .waiting, lock := none } else none

def wakeUnsignalled : Option MemoryStream :=
  if s.encoder = .waiting then some { s with encoder := .woken } else none

def unlock : Option MemoryStream :=
  if s.encoder = .leaving then some { s with encoder := .returned, lock := none } else none

/-- `n` bytes arrive in the buffer. -/
def store (n : Nat) : MemoryStream :=
  { s with
    pipe := s.pipe.drop n
    stored := s.stored ++ s.pipe.take n
    bytesWritten := s.bytesWritten + n }

/-- What `read(pipefd[0], buf, size - bytesWritten)` may return: up to as many bytes as were
asked for, and 0 if none were asked for or no more can come. -/
def mayRead (n : Nat) : Bool :=
  if s.size - s.bytesWritten = 0 then n = 0
  else if s.pipe = [] then n = 0 && !s.file
  else 0 < n && n ≤ s.size - s.bytesWritten && n ≤ s.pipe.length

/-- The condition of the loop of `readPipe`, and its body. -/
def read (n : Nat) : Option MemoryStream :=
  if s.reader = .reading ∧ s.mayRead n then
    some (if 0 < n then s.store n else { s with reader := .closing })
  else none

def readFails : Option MemoryStream :=
  if s.reader = .reading then some { s with reader := .closing } else none

/-- `close(pipefd[0])` -/
def closePipe : Option MemoryStream :=
  if s.reader = .closing then some { s with pipefd0 := false, reader := .locking } else none

def readerLock : Option MemoryStream :=
  if s.reader = .locking ∧ s.lock = none then
    some { s with reader := .signalling, lock := some .reader }
  else none

/-- `exitedCondition.signal()` wakes who is waiting, if anybody is. -/
def signal : Option MemoryStream :=
  if s.reader = .signalling then
    some { s with
      reader := .leaving
      encoder := if s.encoder = .waiting then .woken else s.encoder }
  else none

def readerUnlock : Option MemoryStream :=
  if s.reader = .leaving then some { s with reader := .exited, lock := none } else none

/-- One step of one thread. -/
def step : StreamStep → Option MemoryStream
  | .fwrite n => s.fwrite n
  | .flush n => s.flush n
  | .closeStream => s.closeStream
  | .lock => s.takeLock .locking .closing
  | .fclose => s.fclose
  | .wait => s.wait
  | .wakeUnsignalled => s.wakeUnsignalled
  | .relock => s.takeLock .woken .leaving
  | .unlock => s.unlock
  | .read n => s.read n
  | .readFails => s.readFails
  | .closePipe => s.closePipe
  | .readerLock => s.readerLock
  | .signal => s.signal
  | .readerUnlock => s.readerUnlock

end MemoryStream

/-- Every interleaving of the encoder, `closeStream` and `readPipe`. -/
def streamMachine : Machine MemoryStream StreamStep := ⟨MemoryStream.step⟩

/-! ## §2 The Property -/

/-- `closeStream` does not wait for a thread that is gone, and once it has returned the buffer
holds what was written. -/
structure StreamRight (bytes : List UInt8) (s : MemoryStream) : Prop where
  awaited : ¬(s.encoder = .waiting ∧ s.reader = .exited)
  stored : s.encoder = .returned → s.stored = bytes
  getOffset : s.encoder = .returned → s.getOffset = bytes.length

/-- A step of a thread, when no `read` fails and no `wait` returns without a signal. -/
def Undisturbed : StreamStep → Prop
  | .wakeUnsignalled | .readFails => False
  | _ => True

/-- In every interleaving, every state is right. -/
def AlwaysRight (bytes : List UInt8) (size : Nat) : Prop :=
  ∀ steps t, (∀ a ∈ steps, Undisturbed a) → streamMachine.run (.new bytes size) steps = some t →
    StreamRight bytes t

/-! ## §3 A Buffer with Room

While the buffer has room the reader gets its 0 only after the `FILE` is closed, and so only
after `closeStream` has taken the lock, which it gives up when it waits. -/

/-- Before it takes the lock. -/
def ReaderAt.beforeLock : ReaderAt → Bool
  | .reading | .closing | .locking => true
  | _ => false

/-- Where the two threads are together, who has the lock, and whether the `FILE` is open. -/
inductive Phase : EncoderAt → ReaderAt → Option StreamThread → Bool → Prop where
  | writing : Phase .writing .reading none true
  | locking : Phase .locking .reading none true
  | closing : Phase .closing .reading (some .encoder) true
  | closed {r : ReaderAt} (before : r.beforeLock = true) : Phase .closed r (some .encoder) false
  | waiting {r : ReaderAt} (before : r.beforeLock = true) : Phase .waiting r none false
  | signalling : Phase .waiting .signalling (some .reader) false
  | signalled : Phase .woken .leaving (some .reader) false
  | woken : Phase .woken .exited none false
  | leaving : Phase .leaving .exited (some .encoder) false
  | returned : Phase .returned .exited none false

namespace Phase

variable {e : EncoderAt} {r : ReaderAt} {l : Option StreamThread} {f : Bool}

/-- The reader goes on to its end only after the `FILE` is closed. -/
theorem reading_of_open (h : Phase e r l true) : r = .reading := by
  cases h <;> rfl

theorem open_of_writing (h : Phase .writing r l f) : f = true := by
  cases h
  rfl

theorem open_of_closing (h : Phase .closing r l f) : f = true := by
  cases h
  rfl

theorem closed_of_returned (h : Phase .returned r l f) : f = false := by
  cases h
  rfl

theorem exited_of_returned (h : Phase .returned r l f) : r = .exited := by
  cases h
  rfl

/-- Who waits is waited for. -/
theorem awaited (h : Phase .waiting r l f) : r ≠ .exited := by
  cases h with
  | waiting before =>
    rintro rfl
    exact absurd before nofun
  | signalling => exact nofun

theorem closeStream (h : Phase .writing r l f) : Phase .locking r l f := by
  cases h
  exact .locking

theorem lock (h : Phase .locking r none f) : Phase .closing r (some .encoder) f := by
  cases h
  exact .closing

theorem fclose (h : Phase .closing r l f) : Phase .closed r l false := by
  cases h
  exact .closed rfl

theorem wait (h : Phase .closed r l f) : Phase .waiting r none f := by
  cases h with
  | closed before => exact .waiting before

theorem relock (h : Phase .woken r none f) : Phase .leaving r (some .encoder) f := by
  cases h
  exact .leaving

theorem unlock (h : Phase .leaving r l f) : Phase .returned r none f := by
  cases h
  exact .returned

theorem endOfFile (h : Phase e .reading l false) : Phase e .closing l false := by
  cases h with
  | closed => exact .closed rfl
  | waiting => exact .waiting rfl

theorem closePipe (h : Phase e .closing l f) : Phase e .locking l f := by
  cases h with
  | closed => exact .closed rfl
  | waiting => exact .waiting rfl

/-- The lock is free for the reader only once `closeStream` waits. -/
theorem readerLock (h : Phase e .locking none f) : Phase e .signalling (some .reader) f := by
  cases h
  exact .signalling

theorem signal (h : Phase e .signalling l f) :
    Phase (if e = .waiting then .woken else e) .leaving l f := by
  cases h with
  | closed before => exact absurd before nofun
  | waiting before => exact absurd before nofun
  | signalling => exact .signalled

theorem readerUnlock (h : Phase e .leaving l f) : Phase e .exited none f := by
  cases h with
  | closed before => exact absurd before nofun
  | waiting before => exact absurd before nofun
  | signalled => exact .woken

end Phase

/-- Every byte is in the buffer or on its way there, and nothing is left behind. -/
structure OnTheWay (bytes : List UInt8) (s : MemoryStream) : Prop where
  phase : Phase s.encoder s.reader s.lock s.file
  split : s.stored ++ (s.pipe ++ (s.fileBuf ++ s.toWrite)) = bytes
  bytesWritten : s.bytesWritten = s.stored.length
  toWrite : s.encoder ≠ .writing → s.toWrite = []
  fileBuf : s.file = false → s.fileBuf = []
  pipe : s.reader ≠ .reading → s.pipe = []
  pipefd0 : s.reader = .reading → s.pipefd0 = true
  room : bytes.length < s.size

namespace OnTheWay

variable {bytes : List UInt8} {s t : MemoryStream}

theorem new {size : Nat} (h : bytes.length < size) : OnTheWay bytes (.new bytes size) where
  phase := .writing
  split := rfl
  bytesWritten := rfl
  toWrite h := absurd rfl h
  fileBuf _ := rfl
  pipe _ := rfl
  pipefd0 _ := rfl
  room := h

theorem fwrite (h : OnTheWay bytes s) {n : Nat} (hstep : s.fwrite n = some t) :
    OnTheWay bytes t := by
  obtain ⟨hwriting, hstep⟩ := Option.ite_none_right_eq_some.mp hstep
  cases hstep
  -- the encoder is writing, so the file is open
  have hopen := (hwriting ▸ h.phase).open_of_writing
  refine { h with
    split := ?_
    toWrite := fun hne => absurd hwriting hne
    fileBuf := fun hclosed => ?_ }
  · rw [List.append_assoc, List.take_append_drop]
    exact h.split
  · exact absurd (hopen.symm.trans hclosed) nofun

/-- While the `FILE` is open there is somebody to read from the pipe. -/
theorem flush (h : OnTheWay bytes s) {n : Nat} (hstep : s.flush n = some t) :
    OnTheWay bytes t := by
  obtain ⟨hat, hstep⟩ := Option.ite_none_right_eq_some.mp hstep
  cases hstep
  have hopen : s.file = true := by
    -- stdio flushes while the encoder writes, or in `fclose`
    rcases hat with hat | hat
    · exact (hat ▸ h.phase).open_of_writing
    · exact (hat ▸ h.phase).open_of_closing
  have hreading : s.reader = .reading := (hopen ▸ h.phase).reading_of_open
  refine { h with
    split := ?_
    fileBuf := fun hclosed => absurd (hopen.symm.trans hclosed) nofun
    pipe := fun hne => absurd hreading hne }
  -- the bytes go from the buffer of the file into the pipe, in their order
  rw [if_pos (h.pipefd0 hreading), List.append_assoc, ← List.append_assoc (s.fileBuf.take n),
    List.take_append_drop]
  exact h.split

theorem closeStream (h : OnTheWay bytes s) (hstep : s.closeStream = some t) :
    OnTheWay bytes t := by
  obtain ⟨hat, hstep⟩ := Option.ite_none_right_eq_some.mp hstep
  cases hstep
  -- the first call, or a second one after the first has returned
  rcases hat with ⟨hwriting, hall⟩ | hreturned
  · have hphase := hwriting ▸ h.phase
    refine { h with phase := ?_, toWrite := fun _ => hall }
    rw [if_pos hphase.open_of_writing]
    exact hphase.closeStream
  · have hphase := hreturned ▸ h.phase
    have hdone : s.toWrite = [] := h.toWrite (by rw [hreturned]; exact nofun)
    refine { h with phase := ?_, toWrite := fun _ => hdone }
    rw [if_neg (by rw [hphase.closed_of_returned]; exact nofun)]
    exact hphase

/-- Past `saveYUYVtoJPEG` only the place of the encoder, the lock and the `FILE` change. -/
theorem encoderMoves (h : OnTheWay bytes s) {e : EncoderAt} {l : Option StreamThread}
    (hpast : s.encoder ≠ .writing) (hphase : Phase e s.reader l s.file) :
    OnTheWay bytes { s with encoder := e, lock := l } :=
  { h with phase := hphase, toWrite := fun _ => h.toWrite hpast }

theorem lock (h : OnTheWay bytes s) (hstep : s.takeLock .locking .closing = some t) :
    OnTheWay bytes t := by
  obtain ⟨⟨hlocking, hfree⟩, hstep⟩ := Option.ite_none_right_eq_some.mp hstep
  cases hstep
  exact h.encoderMoves (by rw [hlocking]; exact nofun) (hlocking ▸ hfree ▸ h.phase).lock

theorem fclose (h : OnTheWay bytes s) (hstep : s.fclose = some t) : OnTheWay bytes t := by
  obtain ⟨⟨hclosing, hflushed⟩, hstep⟩ := Option.ite_none_right_eq_some.mp hstep
  cases hstep
  have hall : s.toWrite = [] := h.toWrite (by rw [hclosing]; exact nofun)
  exact { h with
    phase := (hclosing ▸ h.phase).fclose
    toWrite := fun _ => hall
    fileBuf := fun _ => hflushed }

theorem wait (h : OnTheWay bytes s) (hstep : s.wait = some t) : OnTheWay bytes t := by
  obtain ⟨hclosed, hstep⟩ := Option.ite_none_right_eq_some.mp hstep
  cases hstep
  exact h.encoderMoves (by rw [hclosed]; exact nofun) (hclosed ▸ h.phase).wait

theorem relock (h : OnTheWay bytes s) (hstep : s.takeLock .woken .leaving = some t) :
    OnTheWay bytes t := by
  obtain ⟨⟨hwoken, hfree⟩, hstep⟩ := Option.ite_none_right_eq_some.mp hstep
  cases hstep
  exact h.encoderMoves (by rw [hwoken]; exact nofun) (hwoken ▸ hfree ▸ h.phase).relock

theorem unlock (h : OnTheWay bytes s) (hstep : s.unlock = some t) : OnTheWay bytes t := by
  obtain ⟨hleaving, hstep⟩ := Option.ite_none_right_eq_some.mp hstep
  cases hstep
  exact h.encoderMoves (by rw [hleaving]; exact nofun) (hleaving ▸ h.phase).unlock

/-- The buffer has room for more than what has been written. -/
theorem room_left (h : OnTheWay bytes s) : s.size - s.bytesWritten ≠ 0 := by
  have hlength := congrArg List.length h.split
  have hroom := h.room
  rw [List.length_append, ← h.bytesWritten] at hlength
  omega

/-- `read` takes bytes off the pipe, or the `FILE` is closed and nothing is left. -/
theorem read (h : OnTheWay bytes s) {n : Nat} (hstep : s.read n = some t) : OnTheWay bytes t := by
  obtain ⟨⟨hreading, hmay⟩, hstep⟩ := Option.ite_none_right_eq_some.mp hstep
  cases hstep
  rw [MemoryStream.mayRead, if_neg h.room_left] at hmay
  -- a read of zero bytes is the end of the file here, since there is room left in the buffer
  by_cases hempty : s.pipe = []
  · rw [if_pos hempty, Bool.and_eq_true, decide_eq_true_iff, Bool.not_eq_true'] at hmay
    obtain ⟨rfl, hclosed⟩ := hmay
    rw [if_neg (Nat.lt_irrefl 0)]
    refine { h with phase := ?_, pipe := fun _ => hempty, pipefd0 := nofun }
    have hphase := hreading ▸ hclosed ▸ h.phase
    exact hclosed ▸ hphase.endOfFile
  · rw [if_neg hempty, Bool.and_eq_true, Bool.and_eq_true, decide_eq_true_iff,
      decide_eq_true_iff, decide_eq_true_iff] at hmay
    obtain ⟨⟨hpos, -⟩, havailable⟩ := hmay
    rw [if_pos hpos]
    refine { h with split := ?_, bytesWritten := ?_, pipe := fun hne => absurd hreading hne }
    · rw [MemoryStream.store, List.append_assoc, ← List.append_assoc (s.pipe.take n),
        List.take_append_drop]
      exact h.split
    · rw [MemoryStream.store, List.length_append, List.length_take_of_le havailable,
        ← h.bytesWritten]

/-- Past its loop only the place of the reader, the lock and the encoder's place change. -/
theorem readerMoves (h : OnTheWay bytes s) {e : EncoderAt} {r : ReaderAt}
    {l : Option StreamThread} (hpast : s.reader ≠ .reading) (hpast' : r ≠ .reading)
    (hencoder : e ≠ .writing → s.encoder ≠ .writing) (hphase : Phase e r l s.file) :
    OnTheWay bytes { s with encoder := e, reader := r, lock := l } :=
  { h with
    phase := hphase
    toWrite := fun hne => h.toWrite (hencoder hne)
    pipe := fun _ => h.pipe hpast
    pipefd0 := fun hr => absurd hr hpast' }

theorem closePipe (h : OnTheWay bytes s) (hstep : s.closePipe = some t) : OnTheWay bytes t := by
  obtain ⟨hclosing, hstep⟩ := Option.ite_none_right_eq_some.mp hstep
  cases hstep
  have hdrained : s.pipe = [] := h.pipe (by rw [hclosing]; exact nofun)
  exact { h with
    phase := (hclosing ▸ h.phase).closePipe
    pipe := fun _ => hdrained
    pipefd0 := nofun }

theorem readerLock (h : OnTheWay bytes s) (hstep : s.readerLock = some t) :
    OnTheWay bytes t := by
  obtain ⟨⟨hlocking, hfree⟩, hstep⟩ := Option.ite_none_right_eq_some.mp hstep
  cases hstep
  exact h.readerMoves (by rw [hlocking]; exact nofun) nofun id
    (hlocking ▸ hfree ▸ h.phase).readerLock

theorem signal (h : OnTheWay bytes s) (hstep : s.signal = some t) : OnTheWay bytes t := by
  obtain ⟨hsignalling, hstep⟩ := Option.ite_none_right_eq_some.mp hstep
  cases hstep
  refine h.readerMoves (by rw [hsignalling]; exact nofun) nofun ?_ (hsignalling ▸ h.phase).signal
  intro hne hwriting
  rw [hwriting] at hne
  exact hne rfl

theorem readerUnlock (h : OnTheWay bytes s) (hstep : s.readerUnlock = some t) :
    OnTheWay bytes t := by
  obtain ⟨hleaving, hstep⟩ := Option.ite_none_right_eq_some.mp hstep
  cases hstep
  exact h.readerMoves (by rw [hleaving]; exact nofun) nofun id (hleaving ▸ h.phase).readerUnlock

/-- Every step of every thread keeps the bytes together. -/
theorem step {a : StreamStep} (h : OnTheWay bytes s) (ha : Undisturbed a)
    (hstep : streamMachine.step s a = some t) : OnTheWay bytes t := by
  -- one lemma for each step; the two excluded are a wait that returns unsignalled and a read that
  -- fails
  cases a with
  | fwrite n => exact h.fwrite hstep
  | flush n => exact h.flush hstep
  | closeStream => exact h.closeStream hstep
  | lock => exact h.lock hstep
  | fclose => exact h.fclose hstep
  | wait => exact h.wait hstep
  | wakeUnsignalled => exact absurd ha id
  | relock => exact h.relock hstep
  | unlock => exact h.unlock hstep
  | read n => exact h.read hstep
  | readFails => exact absurd ha id
  | closePipe => exact h.closePipe hstep
  | readerLock => exact h.readerLock hstep
  | signal => exact h.signal hstep
  | readerUnlock => exact h.readerUnlock hstep

/-- Once `closeStream` has returned, everything has arrived. -/
theorem right (h : OnTheWay bytes s) : StreamRight bytes s := by
  -- at the return nothing is on the way any more
  have hstored : s.encoder = .returned → s.stored = bytes := by
    intro hreturned
    have hphase := hreturned ▸ h.phase
    have hsplit := h.split
    rw [h.pipe (by rw [hphase.exited_of_returned]; exact nofun),
      h.fileBuf hphase.closed_of_returned, h.toWrite (by rw [hreturned]; exact nofun),
      List.append_nil, List.append_nil, List.append_nil] at hsplit
    exact hsplit
  refine ⟨?_, hstored, fun hreturned => ?_⟩
  · rintro ⟨hwaiting, hexited⟩
    exact (hwaiting ▸ h.phase).awaited hexited
  · rw [MemoryStream.getOffset, h.bytesWritten, hstored hreturned]

end OnTheWay

/-! ## §4 A Buffer That Fills Up

Once the buffer is full the reader comes to its end by itself: it may signal before anybody
waits. -/

/-- The reader has copied the bytes `done`, and the encoder has not written the rest. -/
def MemoryStream.partly (done rest : List UInt8) (size : Nat) : MemoryStream :=
  { MemoryStream.new rest size with stored := done, bytesWritten := done.length }

/-- One byte goes all the way. -/
def oneByte : List StreamStep := [.fwrite 1, .flush 1, .read 1]

/-- The reader comes to its end. -/
def readerEnds : List StreamStep := [.read 0, .closePipe, .readerLock, .signal, .readerUnlock]

/-- The encoder writes `n` more bytes to a pipe nobody reads from, and closes the stream. -/
def encoderEnds (n : Nat) : List StreamStep :=
  [.fwrite n, .flush n, .closeStream, .lock, .fclose, .wait]

/-- The reader is done before `closeStream` is called. -/
def readerFirst (size n : Nat) : List StreamStep :=
  (List.replicate size oneByte).flatten ++ (readerEnds ++ encoderEnds n)

/-- The next byte arrives, while there is room for it. -/
theorem run_oneByte {done : List UInt8} {size : Nat} (hroom : done.length < size) (b : UInt8)
    (rest : List UInt8) :
    streamMachine.run (.partly done (b :: rest) size) oneByte =
      some (.partly (done ++ [b]) rest size) := by
  have hleft : size - done.length ≠ 0 := by omega
  have hone : 1 ≤ size - done.length := by omega
  simp [oneByte, streamMachine, MemoryStream.step, MemoryStream.fwrite, MemoryStream.flush,
    MemoryStream.read, MemoryStream.mayRead, MemoryStream.store, MemoryStream.partly,
    MemoryStream.new, hleft, hone]

theorem run_bytes {done bytes : List UInt8} {size : Nat}
    (hroom : done.length + bytes.length ≤ size) (rest : List UInt8) :
    streamMachine.run (.partly done (bytes ++ rest) size)
      (List.replicate bytes.length oneByte).flatten = some (.partly (done ++ bytes) rest size) := by
  -- one byte after the other goes all the way into the buffer
  induction bytes generalizing done with
  | nil =>
    rw [List.append_nil]
    exact rfl
  | cons b bytes ih =>
    rw [List.length_cons] at hroom
    have hfirst : done.length < size := by omega
    rw [List.length_cons, List.replicate_succ, List.flatten_cons, Machine.run_append,
      List.cons_append, run_oneByte hfirst, Option.bind_some, List.append_cons done b bytes]
    apply ih
    rw [List.length_append, List.length_singleton]
    omega

/-- The buffer is full: the reader takes that for the end of the file. -/
theorem run_ends (done rest : List UInt8) :
    ∃ t, streamMachine.run (.partly done rest done.length)
        (readerEnds ++ encoderEnds rest.length) = some t ∧
      t.encoder = .waiting ∧ t.reader = .exited := by
  simp [readerEnds, encoderEnds, streamMachine, MemoryStream.step, MemoryStream.fwrite,
    MemoryStream.flush, MemoryStream.read, MemoryStream.mayRead, MemoryStream.closePipe,
    MemoryStream.readerLock, MemoryStream.signal, MemoryStream.readerUnlock,
    MemoryStream.closeStream, MemoryStream.takeLock, MemoryStream.fclose, MemoryStream.wait,
    MemoryStream.partly, MemoryStream.new]

theorem run_readerFirst (bytes rest : List UInt8) :
    ∃ t, streamMachine.run (.new (bytes ++ rest) bytes.length)
        (readerFirst bytes.length rest.length) = some t ∧
      t.encoder = .waiting ∧ t.reader = .exited := by
  have hfull : streamMachine.run (.partly [] (bytes ++ rest) bytes.length) _ =
      some (.partly ([] ++ bytes) rest bytes.length) := run_bytes (by simp) rest
  obtain ⟨t, hrun, hblocked⟩ := run_ends bytes rest
  refine ⟨t, ?_, hblocked⟩
  rw [readerFirst, Machine.run_append]
  exact (congrArg (Option.bind · _) hfull).trans hrun

theorem undisturbed_readerFirst (size n : Nat) : ∀ a ∈ readerFirst size n, Undisturbed a := by
  have hbyte : ∀ a ∈ oneByte, Undisturbed a := by simp [oneByte, Undisturbed]
  have hreader : ∀ a ∈ readerEnds, Undisturbed a := by simp [readerEnds, Undisturbed]
  have hencoder : ∀ a ∈ encoderEnds n, Undisturbed a := by simp [encoderEnds, Undisturbed]
  intro a ha
  rw [readerFirst, List.mem_append, List.mem_append] at ha
  rcases ha with ha | ha | ha
  · obtain ⟨l, hl, ha⟩ := List.mem_flatten.mp ha
    exact hbyte a (List.eq_of_mem_replicate hl ▸ ha)
  · exact hreader a ha
  · exact hencoder a ha

/-- A buffer that the bytes fill leaves `closeStream` waiting. -/
theorem not_alwaysRight_of_full {bytes : List UInt8} {size : Nat} (hfull : size ≤ bytes.length) :
    ¬AlwaysRight bytes size := by
  intro hright
  have hsize : (bytes.take size).length = size := List.length_take_of_le hfull
  obtain ⟨t, hrun, hwaiting, hexited⟩ := run_readerFirst (bytes.take size) (bytes.drop size)
  rw [List.take_append_drop, hsize] at hrun
  exact (hright _ t (undisturbed_readerFirst _ _) hrun).awaited ⟨hwaiting, hexited⟩

/-! ## §5 Every Interleaving -/

/-- **The `MemoryStream`**: in every interleaving of the encoder, `closeStream` and `readPipe`
`closeStream` never waits for a reader that is gone and returns with all the bytes in the
buffer, exactly when the encoder writes fewer bytes than the buffer has room for. -/
theorem memoryStream_right_iff (bytes : List UInt8) (size : Nat) :
    AlwaysRight bytes size ↔ bytes.length < size := by
  constructor
  · intro hright
    by_contra hfull
    exact not_alwaysRight_of_full (Nat.not_lt.mp hfull) hright
  · intro hroom steps t hundisturbed hrun
    have hway := streamMachine.run_invariant_of (I := OnTheWay bytes) (C := fun _ => Undisturbed)
      (fun _ _ _ hs ha hstep => hs.step ha hstep) (.new hroom)
      (streamMachine.allSteps_of_forall hundisturbed) hrun
    exact hway.right

/-- A frame of 160 by 120 pixels at two bytes each, whose picture is as long as the frame: the
reader is gone when `closeStream` begins to wait for it. -/
theorem full_buffer_blocks :
    (∃ t, streamMachine.run (.new (List.replicate 38400 0xff) 38400) (readerFirst 38400 0) = some t ∧
      t.encoder = .waiting ∧ t.reader = .exited) ∧
    ¬AlwaysRight (List.replicate 38400 0xff) 38400 := by
  have hlength : (List.replicate 38400 (0xff : UInt8)).length = 38400 := List.length_replicate
  constructor
  · have hrun := run_readerFirst (List.replicate 38400 0xff) []
    rwa [List.append_nil, hlength] at hrun
  · exact not_alwaysRight_of_full (Nat.le_of_eq hlength.symm)

end OdroidU2.Camera
