import OdroidU2.Camera.CameraHardware

/-!
# Who Holds `mLock`

The entry points of `CameraHardware` take `mLock` for their whole body; `stopPreview` takes
it three times, and `pictureThread` not at all.  `previewThread` locks and unlocks by hand:
it returns in between when `dequeue_buffer` fails, and it calls the client in between.

A thread is the list of the points it has still to go through.

- `lock_right_iff` — when a run leaves no thread waiting in vain
- `failed_dequeue_keeps_lock` — a run that does
-/

namespace OdroidU2.Camera

open OdroidU2.Foundations CameraHardware

/-! ## §1 The Threads -/

/-- The threads: any number of the client's, the one of `autoFocus` among them, and the
preview threads in the order they are made. -/
inductive HalThread where
  | client (n : Nat)
  | preview (n : Nat)
  deriving DecidableEq, Repr

/-- The entry points that take `mLock`, with what decides how they go on. -/
inductive EntryPoint where
  | setCallbacks
  /-- Is there a window, and not an abandoned one? -/
  | setPreviewWindow (window : Bool)
  | enableMsgType (msgType : BitVec 32)
  | disableMsgType (msgType : BitVec 32)
  | msgTypeEnabled (msgType : BitVec 32)
  /-- Does the capture start? -/
  | startPreview (starts : Bool)
  | stopPreview
  | previewEnabled
  | startRecording
  | autoFocus
  /-- Can a video node be opened? -/
  | takePicture (opened : Bool)
  | setParameters
  | getParameters
  deriving DecidableEq, Repr

/-- The points a thread goes through. -/
inductive Point where
  /-- `mLock.lock()`, or the start of the scope of an `Autolock`. -/
  | lock
  | unlock
  /-- The body of an entry point that takes the lock for all of it. -/
  | body (f : EntryPoint)
  /-- `if (!previewStopped)` -/
  | ifNotStopped
  /-- `if (mNativeWindow != NULL)` -/
  | ifWindow
  | dequeueBuffer
  /-- The test of `mMsgEnabled` in `previewThread`. -/
  | ifPreviewMsg
  /-- `mDataFn` in `previewThread`. -/
  | mDataFn
  /-- `previewStopped = true` -/
  | setStopped
  /-- `previewThread = mPreviewThread` -/
  | getThread
  | requestExitAndWait
  /-- `Uninit`, `StopStreaming` and `Close`. -/
  | shutDown
  /-- `mPreviewThread.clear()` -/
  | clearThread
  /-- `if (mMsgEnabled & msgType)` in `pictureThread`. -/
  | ifPictureMsg (msgType : BitVec 32)
  /-- `mNotifyFn` or `mDataFn` in `pictureThread`. -/
  | pictureCallback
  deriving DecidableEq, Repr

/-- `stopPreview` -/
def stopPreviewPoints : List Point :=
  [.lock, .setStopped, .unlock, .lock, .getThread, .unlock, .requestExitAndWait, .shutDown,
    .lock, .clearThread, .unlock]

/-- `pictureThread` -/
def pictureThreadPoints (opened : Bool) : List Point :=
  .ifPictureMsg msgShutter :: if opened then [.ifPictureMsg msgCompressedImage, .shutDown] else []

/-- The points of an entry point. -/
def EntryPoint.points : EntryPoint → List Point
  | stopPreview => stopPreviewPoints
  | takePicture opened => stopPreviewPoints ++ pictureThreadPoints opened
  | f => [.lock, .body f, .unlock]

/-- `mLock` with the members that decide which way a thread goes. -/
structure LockState where
  mLock : Option HalThread
  mNativeWindow : Bool
  mMsgEnabled : BitVec 32
  previewStopped : Bool
  mPreviewThread : Option Nat
  /-- How many preview threads have been made. -/
  made : Nat
  /-- The preview threads that have ended. -/
  exited : List Nat
  /-- The local `previewThread` of a thread's `stopPreview`. -/
  previewThread : HalThread → Option Nat
  todo : HalThread → List Point

/-- A new `CameraHardware`. -/
def LockState.init : LockState where
  mLock := none
  mNativeWindow := false
  mMsgEnabled := 0
  previewStopped := true
  mPreviewThread := none
  made := 0
  exited := []
  previewThread _ := none
  todo _ := []

/-- One step of one thread. -/
inductive LockStep where
  /-- A thread of the client calls an entry point. -/
  | call (n : Nat) (f : EntryPoint)
  /-- A preview thread calls `previewThread`. -/
  | loop (n : Nat)
  /-- A preview thread ends; the `Thread` class decides when. -/
  | exit (n : Nat)
  /-- A thread goes through its next point. -/
  | run (t : HalThread)
  /-- `dequeue_buffer` returns. -/
  | dequeueBuffer (t : HalThread) (err : Int)
  /-- The client is called back, and calls these entry points. -/
  | callback (t : HalThread) (calls : List EntryPoint)
  deriving DecidableEq, Repr

namespace LockState

variable (s : LockState) (t : HalThread)

/-- The thread has these points before it. -/
def goto (points : List Point) : LockState := { s with todo := Function.update s.todo t points }

/-- `mMsgEnabled & msgType` -/
def msgEnabled (msgType : BitVec 32) : Bool := s.mMsgEnabled &&& msgType != 0

/-- What the body of an entry point does to the members. -/
def effect : EntryPoint → LockState
  | .setPreviewWindow window => { s with mNativeWindow := window }
  | .enableMsgType msgType => { s with mMsgEnabled := s.mMsgEnabled ||| msgType }
  | .disableMsgType msgType => { s with mMsgEnabled := s.mMsgEnabled &&& ~~~msgType }
  | .startPreview starts =>
    if s.mPreviewThread = none ∧ starts then
      { s with previewStopped := false, mPreviewThread := some s.made, made := s.made + 1 }
    else s
  | _ => s

/-- `requestExitAndWait` returns once the preview thread has ended, and at once if it is the
one that calls it. -/
def threadEnded : Bool :=
  match s.previewThread t with
  | none => true
  | some n => n ∈ s.exited || t = .preview n

/-- A thread goes through a point, with the rest behind it. -/
def runPoint (rest : List Point) : Point → Option LockState
  | .lock => if s.mLock = none then some { s.goto t rest with mLock := some t } else none
  | .unlock => some { s.goto t rest with mLock := none }
  | .body f => some ((s.effect f).goto t rest)
  | .ifNotStopped =>
    some (s.goto t (if s.previewStopped then rest else .lock :: .ifWindow :: .unlock :: rest))
  | .ifWindow => some (s.goto t (if s.mNativeWindow then .dequeueBuffer :: rest else rest))
  | .ifPreviewMsg =>
    some (s.goto t (if s.msgEnabled msgPreviewFrame || s.msgEnabled msgVideoFrame then
      .mDataFn :: rest else rest))
  | .setStopped => some { s.goto t rest with previewStopped := true }
  | .getThread =>
    some { s.goto t rest with previewThread := Function.update s.previewThread t s.mPreviewThread }
  | .requestExitAndWait => if s.threadEnded t then some (s.goto t rest) else none
  | .shutDown => some (s.goto t rest)
  | .clearThread => some { s.goto t rest with mPreviewThread := none }
  | .ifPictureMsg msgType =>
    some (s.goto t (if s.msgEnabled msgType then .pictureCallback :: rest else rest))
  | .dequeueBuffer | .mDataFn | .pictureCallback => none

/-- The thread's next point. -/
def next? : Option Point := (s.todo t).head?

end LockState

/-- One step of one thread. -/
def lockStep (s : LockState) : LockStep → Option LockState
  | .call n f => if s.todo (.client n) = [] then some (s.goto (.client n) f.points) else none
  | .loop n =>
    if (n < s.made ∧ n ∉ s.exited) ∧ s.todo (.preview n) = [] then
      some (s.goto (.preview n) [.ifNotStopped])
    else none
  | .exit n =>
    if (n < s.made ∧ n ∉ s.exited) ∧ s.todo (.preview n) = [] then
      some { s with exited := n :: s.exited }
    else none
  | .run t =>
    match s.todo t with
    | [] => none
    | pt :: rest => s.runPoint t rest pt
  | .dequeueBuffer t err =>
    if s.next? t = some .dequeueBuffer then
      -- `return -1` leaves `previewThread` without an unlock
      some (s.goto t (if err ≠ 0 then [] else .ifPreviewMsg :: (s.todo t).tail))
    else none
  | .callback t calls =>
    if s.next? t = some .mDataFn ∨ s.next? t = some .pictureCallback then
      some (s.goto t (calls.flatMap EntryPoint.points ++ (s.todo t).tail))
    else none

/-- Every interleaving of the client's threads and the preview threads. -/
def lockMachine : Machine LockState LockStep := ⟨lockStep⟩

/-! ## §2 The Property -/

/-- Is there an unlock before the next lock? -/
def inSection : List Point → Bool
  | [] => false
  | .lock :: _ => false
  | .unlock :: _ => true
  | _ :: rest => inSection rest

/-- Who waits for `mLock` waits for another thread, which is in its critical section, and who
has returned does not hold it. -/
structure LockRight (s : LockState) : Prop where
  waiting : ∀ t u, s.next? t = some .lock → s.mLock = some u → t ≠ u ∧ inSection (s.todo u)
  returned : ∀ t, s.todo t = [] → s.mLock ≠ some t

/-- The step leaves `mLock` right. -/
def StepLocksRight (s : LockState) (a : LockStep) : Prop :=
  ∀ s', lockMachine.step s a = some s' → LockRight s'

/-- `dequeue_buffer` succeeds, and the client calls no entry point when `previewThread` calls
it back. -/
def KeepsToSection (s : LockState) : LockStep → Prop
  | .dequeueBuffer t err => s.next? t = some .dequeueBuffer → err = 0
  | .callback t calls => s.next? t = some .mDataFn → calls = []
  | _ => True

instance (s : LockState) (a : LockStep) : Decidable (KeepsToSection s a) :=
  match a with
  | .dequeueBuffer t err => inferInstanceAs (Decidable (s.next? t = some .dequeueBuffer → err = 0))
  | .callback t calls => inferInstanceAs (Decidable (s.next? t = some .mDataFn → calls = []))
  | .call _ _ | .loop _ | .exit _ | .run _ => .isTrue trivial

/-! ## §3 Critical Sections -/

/-- Is the point inside a critical section? -/
def Point.underLock : Point → Bool
  | body _ | ifWindow | dequeueBuffer | ifPreviewMsg | mDataFn | setStopped | getThread
  | clearThread => true
  | _ => false

/-- Is the point neither a lock nor an unlock? -/
def Point.isPlain : Point → Bool
  | lock | unlock => false
  | _ => true

/-- From here on the thread, which holds `mLock` or does not, alternates between lock and
unlock, ends without the lock, and has every other point where it belongs. -/
def bracketed : Bool → List Point → Bool
  | held, [] => !held
  | held, .lock :: rest => !held && bracketed true rest
  | held, .unlock :: rest => held && bracketed false rest
  | held, pt :: rest => held == pt.underLock && bracketed held rest

/-- The holder of `mLock` is in its critical section, and every thread alternates. -/
def Bracketed (s : LockState) : Prop := ∀ t, bracketed (s.mLock = some t) (s.todo t) = true

section Sections

variable {held : Bool} {rest : List Point}

theorem bracketed_lock : bracketed held (.lock :: rest) = (!held && bracketed true rest) := rfl

theorem bracketed_unlock : bracketed held (.unlock :: rest) = (held && bracketed false rest) := rfl

theorem bracketed_cons (pt : Point) (hplain : pt.isPlain = true) :
    bracketed held (pt :: rest) = (held == pt.underLock && bracketed held rest) := by
  cases pt with
  | lock => exact absurd hplain nofun
  | unlock => exact absurd hplain nofun
  | _ => rfl

/-- A thread that alternates from inside has its unlock before it. -/
theorem inSection_of_bracketed {l : List Point} (h : bracketed true l = true) :
    inSection l = true := by
  induction l with
  | nil => exact h
  | cons pt rest ih =>
    cases pt with
    | lock => exact h
    | unlock => rfl
    | _ => exact ih (Bool.and_eq_true_iff.mp h).2

/-- An entry point takes the lock before it does anything else. -/
theorem points_eq (f : EntryPoint) : ∃ rest, f.points = .lock :: rest := by
  cases f <;> exact ⟨_, rfl⟩

/-- An entry point called without the lock gives back all that it takes. -/
theorem bracketed_points (f : EntryPoint) :
    bracketed false (f.points ++ rest) = bracketed false rest := by
  cases f with
  | takePicture opened => cases opened <;> rfl
  | _ => rfl

theorem bracketed_calls (calls : List EntryPoint) :
    bracketed false (calls.flatMap EntryPoint.points ++ rest) = bracketed false rest := by
  induction calls with
  | nil => rfl
  | cons f calls ih => rw [List.flatMap_cons, List.append_assoc, bracketed_points, ih]

end Sections

/-! ## §4 Steps -/

section Steps

variable {s s' : LockState} {t : HalThread}

theorem goto_todo_self {l : List Point} : (s.goto t l).todo t = l := Function.update_self ..

theorem bracketed_init : Bracketed .init := fun _ => rfl

theorem Bracketed.lockRight (h : Bracketed s) : LockRight s := by
  constructor
  · intro t u hnext hu
    obtain ⟨rest, htodo⟩ := List.head?_eq_some_iff.mp hnext
    have hwaiter := h t
    rw [htodo, bracketed_lock, Bool.and_eq_true, Bool.not_eq_true', decide_eq_false_iff_not]
      at hwaiter
    have hholder := h u
    rw [decide_eq_true hu] at hholder
    -- the holder alternates from inside, so its unlock comes first; the waiter does not hold it
    refine ⟨?_, inSection_of_bracketed hholder⟩
    rintro rfl
    exact hwaiter.1 hu
  · intro t hdone hheld
    -- a thread that has nothing left to do ends without the lock
    have hreturned := h t
    rw [hdone, decide_eq_true hheld] at hreturned
    exact absurd hreturned nofun

/-- What a step of the thread `t` can do to the lock: take it, give it back, or go on with it
or without it. -/
inductive Moves (s : LockState) (t : HalThread) (s' : LockState) : Prop where
  | locks (rest : List Point) (todo : s.todo t = .lock :: rest) (free : s.mLock = none)
      (mLock : s'.mLock = some t) (todo' : s'.todo = Function.update s.todo t rest)
  | unlocks (rest : List Point) (todo : s.todo t = .unlock :: rest)
      (mLock : s'.mLock = none) (todo' : s'.todo = Function.update s.todo t rest)
  | goesOn (l : List Point) (mLock : s'.mLock = s.mLock)
      (todo' : s'.todo = Function.update s.todo t l)
      (bracketed : bracketed (s.mLock = some t) (s.todo t) = true →
        bracketed (s.mLock = some t) l = true)

/-- The step keeps every thread alternating. -/
theorem Bracketed.moves (h : Bracketed s) (hmoves : Moves s t s') : Bracketed s' := by
  intro u
  cases hmoves with
  | locks rest todo free mLock todo' =>
    rw [mLock, todo']
    by_cases hu : u = t
    · -- `t` holds it now
      subst hu
      have hlock := h u
      rw [todo, bracketed_lock, Bool.and_eq_true] at hlock
      rw [Function.update_self, decide_eq_true rfl]
      exact hlock.2
    · -- nobody held the lock, so the others go on without it
      have hother := h u
      rw [free, decide_eq_false nofun] at hother
      rw [Function.update_of_ne hu, decide_eq_false (by simpa using Ne.symm hu)]
      exact hother
  | unlocks rest todo mLock todo' =>
    have hunlock := h t
    rw [todo, bracketed_unlock, Bool.and_eq_true, decide_eq_true_iff] at hunlock
    rw [mLock, todo', decide_eq_false nofun]
    by_cases hu : u = t
    · subst hu
      rw [Function.update_self]
      exact hunlock.2
    · -- only `t` can have held it
      have hother := h u
      rw [hunlock.1, decide_eq_false (by simpa using Ne.symm hu)] at hother
      rw [Function.update_of_ne hu]
      exact hother
  | goesOn l mLock todo' bracketed =>
    rw [mLock, todo']
    by_cases hu : u = t
    · subst hu
      rw [Function.update_self]
      exact bracketed (h u)
    · rw [Function.update_of_ne hu]
      exact h u

@[simp] theorem effect_mLock (f : EntryPoint) : (s.effect f).mLock = s.mLock := by
  cases f with
  | startPreview starts => rw [LockState.effect, apply_ite LockState.mLock, ite_self]
  | _ => rfl

@[simp] theorem effect_todo (f : EntryPoint) : (s.effect f).todo = s.todo := by
  cases f with
  | startPreview starts => rw [LockState.effect, apply_ite LockState.todo, ite_self]
  | _ => rfl

/-- Going on past a point that is no lock and no unlock, perhaps through others of its kind. -/
theorem moves_on {pt : Point} {rest : List Point} (htodo : s.todo t = pt :: rest)
    (l : List Point) (hmLock : s'.mLock = s.mLock)
    (htodo' : s'.todo = Function.update s.todo t l)
    (hl : ∀ held, bracketed held (pt :: rest) = true → bracketed held l = true) :
    Moves s t s' :=
  .goesOn l hmLock htodo' fun h => hl _ (htodo ▸ h)

theorem bracketed_skip (pt : Point) {rest : List Point} (hplain : pt.isPlain = true) (held : Bool)
    (h : bracketed held (pt :: rest) = true) : bracketed held rest = true := by
  rw [bracketed_cons pt hplain, Bool.and_eq_true] at h
  exact h.2

/-- A test that goes on to another point of its kind, or past it. -/
theorem bracketed_test (pt next : Point) {rest : List Point} (hplain : pt.isPlain = true)
    (hplain' : next.isPlain = true) (hkind : pt.underLock = next.underLock) (c held : Bool)
    (h : bracketed held (pt :: rest) = true) :
    bracketed held (if c then next :: rest else rest) = true := by
  cases c with
  | true =>
    rw [if_pos rfl, bracketed_cons next hplain', ← hkind, ← bracketed_cons pt hplain]
    exact h
  | false => exact bracketed_skip pt hplain held h

/-- The lock is taken and given back inside the test. -/
theorem bracketed_ifNotStopped {rest : List Point} (stopped : Bool) (held : Bool)
    (h : bracketed held (.ifNotStopped :: rest) = true) :
    bracketed held (if stopped then rest else .lock :: .ifWindow :: .unlock :: rest) = true := by
  cases stopped with
  | true => exact bracketed_skip .ifNotStopped rfl held h
  | false =>
    cases held with
    | true => exact absurd h nofun
    | false => exact bracketed_skip .ifNotStopped rfl false h

theorem moves_of_runPoint {pt : Point} {rest : List Point} (htodo : s.todo t = pt :: rest)
    (hrun : s.runPoint t rest pt = some s') : Moves s t s' := by
  cases pt with
  | lock =>
    obtain ⟨hfree, hrun⟩ := Option.ite_none_right_eq_some.mp hrun
    cases hrun
    exact .locks rest htodo hfree rfl rfl
  | unlock =>
    cases hrun
    exact .unlocks rest htodo rfl rfl
  | body f =>
    cases hrun
    refine moves_on htodo rest (effect_mLock f) ?_ (bracketed_skip _ rfl)
    rw [LockState.goto, effect_todo]
  -- `previewThread` looks at `mPreviewStopped` before it locks, and unlocks only if it has locked
  | ifNotStopped =>
    cases hrun
    exact moves_on htodo _ rfl rfl (bracketed_ifNotStopped _)
  | ifWindow =>
    cases hrun
    exact moves_on htodo _ rfl rfl (bracketed_test _ .dequeueBuffer rfl rfl rfl _)
  | ifPreviewMsg =>
    cases hrun
    exact moves_on htodo _ rfl rfl (bracketed_test _ .mDataFn rfl rfl rfl _)
  | setStopped =>
    cases hrun
    exact moves_on htodo rest rfl rfl (bracketed_skip _ rfl)
  | getThread =>
    cases hrun
    exact moves_on htodo rest rfl rfl (bracketed_skip _ rfl)
  | requestExitAndWait =>
    obtain ⟨-, hrun⟩ := Option.ite_none_right_eq_some.mp hrun
    cases hrun
    exact moves_on htodo rest rfl rfl (bracketed_skip _ rfl)
  | shutDown =>
    cases hrun
    exact moves_on htodo rest rfl rfl (bracketed_skip _ rfl)
  | clearThread =>
    cases hrun
    exact moves_on htodo rest rfl rfl (bracketed_skip _ rfl)
  | ifPictureMsg msgType =>
    cases hrun
    exact moves_on htodo _ rfl rfl (bracketed_test _ .pictureCallback rfl rfl rfl _)
  -- what the window and the client answer are steps of their own
  | dequeueBuffer => exact absurd hrun nofun
  | mDataFn => exact absurd hrun nofun
  | pictureCallback => exact absurd hrun nofun

theorem next?_eq_some {pt : Point} :
    s.next? t = some pt ↔ ∃ rest, s.todo t = pt :: rest := List.head?_eq_some_iff

/-- A thread that has returned starts anew, without the lock. -/
theorem moves_of_start (h : s.todo t = []) {l : List Point} (hl : bracketed false l = true) :
    Moves s t (s.goto t l) := by
  refine .goesOn l rfl rfl fun hdone => ?_
  rw [h, bracketed, Bool.not_eq_true'] at hdone
  rw [hdone]
  exact hl

/-- Every step that keeps to its section keeps every thread alternating. -/
theorem bracketed_step {a : LockStep} (h : Bracketed s) (ha : KeepsToSection s a)
    (hstep : lockMachine.step s a = some s') : Bracketed s' := by
  cases a with
  | call n f =>
    obtain ⟨hdone, hstep⟩ := Option.ite_none_right_eq_some.mp hstep
    cases hstep
    refine h.moves (moves_of_start hdone ?_)
    rw [← List.append_nil f.points, bracketed_points]
    rfl
  | loop n =>
    obtain ⟨⟨-, hdone⟩, hstep⟩ := Option.ite_none_right_eq_some.mp hstep
    cases hstep
    exact h.moves (moves_of_start hdone rfl)
  | exit n =>
    obtain ⟨-, hstep⟩ := Option.ite_none_right_eq_some.mp hstep
    cases hstep
    exact h
  | run t =>
    cases htodo : s.todo t with
    | nil => simp [lockMachine, lockStep, htodo] at hstep
    | cons pt rest =>
      simp only [lockMachine, lockStep, htodo] at hstep
      exact h.moves (moves_of_runPoint htodo hstep)
  | dequeueBuffer t err =>
    obtain ⟨hnext, hstep⟩ := Option.ite_none_right_eq_some.mp hstep
    cases hstep
    obtain ⟨rest, htodo⟩ := next?_eq_some.mp hnext
    -- the window has answered 0, so `previewThread` goes on to its unlock
    rw [if_neg (not_not_intro (ha hnext)), htodo]
    exact h.moves (moves_on htodo _ rfl rfl
      (bracketed_test .dequeueBuffer .ifPreviewMsg rfl rfl rfl true))
  | callback t calls =>
    obtain ⟨hnext, hstep⟩ := Option.ite_none_right_eq_some.mp hstep
    cases hstep
    rcases hnext with hnext | hnext
    · -- `mDataFn` is called under the lock, and its client calls nothing
      rw [ha hnext]
      obtain ⟨rest, htodo⟩ := next?_eq_some.mp hnext
      rw [htodo]
      exact h.moves (moves_on htodo rest rfl rfl (bracketed_skip _ rfl))
    · -- `pictureThread` calls back without the lock, whatever its client then calls
      obtain ⟨rest, htodo⟩ := next?_eq_some.mp hnext
      rw [htodo]
      refine h.moves (moves_on htodo _ rfl rfl fun held hheld => ?_)
      cases held with
      | true => exact absurd hheld nofun
      | false => exact (bracketed_calls calls).trans (bracketed_skip _ rfl false hheld)

/-- Inside `previewThread`'s section the thread holds the lock. -/
theorem Bracketed.held (h : Bracketed s) {pt : Point} (hnext : s.next? t = some pt)
    (hplain : pt.isPlain = true) (hinside : pt.underLock = true) : s.mLock = some t := by
  obtain ⟨rest, htodo⟩ := next?_eq_some.mp hnext
  have ht := h t
  rw [htodo, bracketed_cons pt hplain, Bool.and_eq_true, hinside, beq_true,
    decide_eq_true_iff] at ht
  exact ht.1

/-- A step leaves the lock right exactly when it keeps to its section. -/
theorem stepLocksRight_iff (h : Bracketed s) (a : LockStep) :
    StepLocksRight s a ↔ KeepsToSection s a := by
  constructor
  · intro hright
    cases a with
    | dequeueBuffer t err =>
      intro hnext
      by_contra herr
      have hstep : lockMachine.step s (.dequeueBuffer t err) = some (s.goto t []) := by
        simp [lockMachine, lockStep, hnext, herr]
      -- the thread has returned, and nobody has unlocked
      exact (hright _ hstep).returned t goto_todo_self (h.held hnext rfl rfl)
    | callback t calls =>
      intro hnext
      cases calls with
      | nil => rfl
      | cons f calls =>
        obtain ⟨rest, hpoints⟩ := points_eq f
        have hstep : lockMachine.step s (.callback t (f :: calls)) =
            some (s.goto t ((f :: calls).flatMap EntryPoint.points ++ (s.todo t).tail)) := by
          simp [lockMachine, lockStep, hnext]
        -- the thread is about to wait for itself
        refine absurd rfl ((hright _ hstep).waiting t t ?_ (h.held hnext rfl rfl)).1
        rw [LockState.next?, goto_todo_self, List.flatMap_cons, hpoints]
        rfl
    | _ => trivial
  · intro ha s' hstep
    exact (bracketed_step h ha hstep).lockRight

end Steps

/-! ## §5 Runs -/

/-- **`mLock`**: in a run no thread ever waits for `mLock` while it holds it itself or a thread
holds it that is past its critical section, and no return of `previewThread` leaves it locked,
exactly when every `dequeue_buffer` of the run succeeds and the client calls no entry point
from a callback of `previewThread`. -/
theorem lock_right_iff (steps : List LockStep) :
    lockMachine.AllSteps StepLocksRight .init steps ↔
      lockMachine.AllSteps KeepsToSection .init steps :=
  lockMachine.allSteps_iff (fun _ a hs => stepLocksRight_iff hs a)
    (fun _ _ _ hs ha hstep => bracketed_step hs ha hstep) bracketed_init steps

/-- A preview starts, and its first `dequeue_buffer` fails; then another thread calls. -/
def failedDequeue : List LockStep :=
  .call 0 (.setPreviewWindow true) :: List.replicate 3 (.run (.client 0)) ++
    .call 0 (.startPreview true) :: List.replicate 3 (.run (.client 0)) ++
    .loop 0 :: List.replicate 3 (.run (.preview 0)) ++
    [.dequeueBuffer (.preview 0) (-19), .call 1 (.enableMsgType msgPreviewFrame)]

/-- `previewThread` has returned with `mLock`, and the other thread waits for it. -/
theorem failed_dequeue_keeps_lock :
    (lockMachine.run .init failedDequeue).map
      (fun s => (s.mLock, s.todo (.preview 0), s.next? (.client 1))) =
        some (some (.preview 0), [], some .lock) ∧
    ¬lockMachine.AllSteps StepLocksRight .init failedDequeue := by
  refine ⟨by decide, fun h => ?_⟩
  have hkeeps := (lockMachine.allSteps_iff (fun _ a hs => stepLocksRight_iff hs a)
    (fun _ _ _ hs ha hstep => bracketed_step hs ha hstep) bracketed_init failedDequeue).mp h
  exact absurd hkeeps (by decide)

end OdroidU2.Camera
