import OdroidU2.Gps.Session

/-!
# One Descriptor, One Thread

`start_gps` is guarded by `ctrl_state`, which no code ever moves from `ST_UNDEFINED`: every
start opens the receiver and creates a thread, whether a session is running or not, and
`state.fd` remembers the descriptor of the last one.

- `one_session_iff` — when a run never has two descriptors or two threads, and every stop
  closes what was opened
- `second_start_opens_again` — two starts in a row
-/

namespace OdroidU2.Gps

open OdroidU2.Foundations Prog

/-! ## §1 Runs -/

/-- The calls of the framework, and the steps of the `gps_state_thread`s. -/
inductive SessionStep where
  | odroidGpsStart (out : StartOutcome)
  | odroidGpsStop
  | threadBegins (i : Nat)
  | threadEnds (i : Nat)
  deriving DecidableEq, Repr

/-- The code a call runs. -/
def SessionStep.code (externalGps : Bool) : SessionStep → SessionM Unit
  | odroidGpsStart out => Gps.odroidGpsStart externalGps out
  | odroidGpsStop => Gps.odroidGpsStop
  | _ => pure ()

/-- One call, or one step of a thread.  A thread ends on an event of the descriptor it
watches, which must be open. -/
def sessionStep (externalGps : Bool) (s : GpsSession) : SessionStep → Option GpsSession
  | .odroidGpsStart out => some ((odroidGpsStart externalGps out).exec s)
  | .odroidGpsStop => some (odroidGpsStop.exec s)
  | .threadBegins i => if s.threads[i]? = some ⟨none⟩ then some (s.threadBegins i) else none
  | .threadEnds i =>
    match s.watches i with
    | some fd => if fd ∈ s.opened then some (s.threadEnds i) else none
    | none => none

/-- The receiver under any calls, answers and events. -/
def sessionMachine (externalGps : Bool) : Machine GpsSession SessionStep := ⟨sessionStep externalGps⟩

/-! ## §2 The Property -/

/-- At most one descriptor and one thread. -/
structure AtMostOne (s : GpsSession) : Prop where
  opened : s.opened.length ≤ 1
  threads : s.threads.length ≤ 1

/-- A session is running from a start that has opened the receiver until its descriptor is
closed. -/
def SessionRuns (s : GpsSession) : Prop := s.opened ≠ []

/-- An action that opens no descriptor and creates no thread. -/
def SessionEvent.startsNothing : SessionEvent → Bool
  | openDevice _ ok => !ok
  | createThread ok => !ok
  | _ => true

/-- A call keeps to one descriptor and one thread in every state it goes through, starts
nothing while a session is running, and leaves no descriptor open if it is a stop. -/
structure KeepsToOne (externalGps : Bool) (s : GpsSession) (a : SessionStep) : Prop where
  during : Emits (fun _ t => AtMostOne t) (a.code externalGps) s
  after : ∀ t, (sessionMachine externalGps).step s a = some t → AtMostOne t
  start : SessionRuns s → Emits (fun e _ => e.startsNothing) (a.code externalGps) s
  stop : a = .odroidGpsStop → (odroidGpsStop.exec s).opened = []

/-- A start that opens the receiver finds no descriptor of an earlier one and, if it gets
its thread, no thread; a stop finds the open descriptor in `state.fd`. -/
def FindsItsOwn (externalGps : Bool) (s : GpsSession) : SessionStep → Prop
  | .odroidGpsStart out =>
    out.opens externalGps → s.opened = [] ∧ (out.threadCreated → s.threads = [])
  | .odroidGpsStop => ∀ fd ∈ s.opened, fd = s.fd
  | _ => True

/-! ## §3 What the Calls Do -/

section Calls

variable {externalGps : Bool} {s : GpsSession}

/-- What holds between calls that keep to one. -/
structure OneSession (s : GpsSession) : Prop extends AtMostOne s where
  ctrlState : s.ctrlState = stUndefined

theorem oneSession_init : OneSession GpsSession.init where
  opened := Nat.zero_le _
  threads := Nat.zero_le _
  ctrlState := rfl

/-- A start, as far as descriptors and threads go: it opens the receiver and creates a
thread. -/
theorem emits_odroidGpsStart {Q : SessionEvent → List Int → List GpsStateThread → Prop}
    (out : StartOutcome) (hctrl : s.ctrlState = stUndefined)
    (hquiet : ∀ e, e.startsNothing → Q e s.opened s.threads) :
    Emits (fun e t => Q e t.opened t.threads) (odroidGpsStart externalGps out) s ↔
      (out.opens externalGps →
        Q (.openDevice (out.device externalGps) true) (s.nextFd :: s.opened) s.threads ∧
        Q (.post .statusCb) (s.nextFd :: s.opened) s.threads ∧
        Q (.createThread out.threadCreated) (s.nextFd :: s.opened)
          (if out.threadCreated then s.threads ++ [⟨none⟩] else s.threads)) := by
  simp only [odroidGpsStart, startGps, assignStatus, sessionPost, emits_bind, emits_act,
    emits_read, val_read, exec_act, exec_read, emits_when, true_and, id]
  rw [emits_openReceiver externalGps out _ fun device => hquiet (.openDevice device false) rfl,
    exec_openReceiver]
  have hassign := hquiet .assignStatus rfl
  have hpost := hquiet (.post .statusCb) rfl
  have hguard : s.ctrlState = stStopped ∨ s.ctrlState = stFailed ∨ s.ctrlState = stUndefined :=
    .inr (.inr hctrl)
  have hopened : 0 ≤ ({ s with status := .sessionBegin } : GpsSession).receiverOpened.fd :=
    Int.natCast_nonneg s.nextFd
  cases hopens : out.opens externalGps with
  | true =>
    -- the receiver is open, so `SESSION_BEGIN` is posted and the thread created
    rw [createThread, emits_act]
    simp only [hassign, hpost, hguard, hopened, forall_true_left, true_and, if_true]
    cases out.threadCreated with
    | true => exact Iff.rfl
    | false => exact Iff.rfl
  | false =>
    refine iff_of_true ⟨hassign, hpost, fun _ => ⟨hassign, nofun, fun hfd => ?_⟩⟩ nofun
    -- `state.fd` is -1, and the start ends with `ENGINE_ON`
    rw [if_neg nofun] at hfd
    have hnegative : (0 : Int) ≤ -1 := hfd
    exact absurd hnegative (by decide)

/-- A stop closes the descriptor in `state.fd`. -/
theorem exec_odroidGpsStop (hctrl : s.ctrlState = stUndefined) :
    odroidGpsStop.exec s =
      { s with opened := s.opened.erase s.fd, fd := -1, status := .sessionEnd } := by
  -- `ctrl_state` is never set, so the guard does not return
  have hguard : ¬(s.ctrlState = stStopping ∨ s.ctrlState = stStopped) := by
    rw [hctrl]
    decide
  simp only [odroidGpsStop, stopGps, closeFd, assignStatus, sessionPost, exec_bind, exec_act,
    exec_read, val_read, exec_when, hguard, not_false_eq_true, if_true, id]

/-- A stop opens nothing. -/
theorem emits_odroidGpsStop {Q : SessionEvent → List Int → List GpsStateThread → Prop}
    (hquiet : ∀ e opened, e.startsNothing → opened.Sublist s.opened → Q e opened s.threads) :
    Emits (fun e t => Q e t.opened t.threads) odroidGpsStop s := by
  -- closing takes at most one descriptor away
  have herase : (s.opened.erase s.fd).Sublist s.opened := List.erase_sublist
  simp only [odroidGpsStop, stopGps, closeFd, assignStatus, sessionPost, emits_bind, emits_act,
    emits_read, exec_bind, exec_act, exec_read, val_read, emits_when, true_and, id]
  exact fun _ => ⟨hquiet _ _ rfl herase, hquiet _ _ rfl herase, hquiet _ _ rfl herase,
    hquiet _ _ rfl herase⟩

end Calls

/-! ## §4 Runs That Keep to One -/

section Runs

variable {externalGps : Bool} {s : GpsSession}

/-- One more descriptor is all right only if there was none. -/
theorem length_cons_le_one_iff {α : Type} {a : α} {l : List α} : (a :: l).length ≤ 1 ↔ l = [] := by
  simp

/-- A start keeps to one descriptor and one thread exactly when it finds none. -/
theorem atMostOne_odroidGpsStart_iff (h : OneSession s) (out : StartOutcome) :
    Emits (fun _ t => AtMostOne t) (odroidGpsStart externalGps out) s ↔
      FindsItsOwn externalGps s (.odroidGpsStart out) := by
  have hemits : Emits _ (odroidGpsStart externalGps out) s ↔ _ := emits_odroidGpsStart
    (Q := fun _ opened threads => opened.length ≤ 1 ∧ threads.length ≤ 1) out h.ctrlState
    fun _ _ => ⟨h.opened, h.threads⟩
  have hiff (t : GpsSession) : AtMostOne t ↔ t.opened.length ≤ 1 ∧ t.threads.length ≤ 1 :=
    ⟨fun ht => ⟨ht.opened, ht.threads⟩, fun ht => ⟨ht.1, ht.2⟩⟩
  simp only [hiff]
  rw [hemits, FindsItsOwn]
  apply imp_congr_right
  intro _
  simp only [length_cons_le_one_iff]
  cases out.threadCreated with
  | true =>
    -- a thread that is created is one more
    rw [if_pos rfl, List.length_append]
    constructor
    · intro hone
      exact ⟨hone.1.1, fun _ => List.eq_nil_of_length_eq_zero (Nat.le_zero.mp
        (Nat.le_of_add_le_add_right hone.2.2.2))⟩
    · rintro ⟨hnone, hthreads⟩
      rw [hthreads rfl]
      exact ⟨⟨hnone, Nat.zero_le 1⟩, ⟨hnone, Nat.zero_le 1⟩, hnone, Nat.le_refl 1⟩
  | false =>
    exact ⟨fun hone => ⟨hone.1.1, nofun⟩, fun hnone => ⟨⟨hnone.1, h.threads⟩, ⟨hnone.1, h.threads⟩,
      hnone.1, h.threads⟩⟩

/-- While a session runs, such a start opens nothing. -/
theorem startsNothing_odroidGpsStart (h : OneSession s) {out : StartOutcome}
    (hfinds : FindsItsOwn externalGps s (.odroidGpsStart out)) (hruns : SessionRuns s) :
    Emits (fun e _ => e.startsNothing) (odroidGpsStart externalGps out) s := by
  have hemits : Emits _ (odroidGpsStart externalGps out) s ↔ _ := emits_odroidGpsStart
    (Q := fun e _ _ => e.startsNothing) out h.ctrlState fun _ he => he
  exact hemits.mpr fun hopens => absurd (hfinds hopens).1 hruns

/-- What a stop leaves open: nothing exactly when `state.fd` is all there was. -/
theorem opened_odroidGpsStop_iff (h : OneSession s) :
    (odroidGpsStop.exec s).opened = [] ↔ ∀ fd ∈ s.opened, fd = s.fd := by
  rw [exec_odroidGpsStop h.ctrlState]
  match hopened : s.opened, h.opened with
  | [], _ => exact iff_of_true rfl nofun
  | [fd], _ =>
    -- a stop closes the one descriptor there is, if `state.fd` names it
    by_cases hfd : fd = s.fd
    · subst hfd
      exact iff_of_true (by simp) (by simp)
    · exact iff_of_false (by simp [hfd]) (by simp [hfd])
  | _ :: _ :: _, hlength => simp at hlength

/-- A stop keeps to what there is. -/
theorem atMostOne_odroidGpsStop (h : OneSession s) :
    Emits (fun _ t => AtMostOne t) odroidGpsStop s := by
  have hemits := emits_odroidGpsStop (s := s)
    (Q := fun _ opened threads => opened.length ≤ 1 ∧ threads.length ≤ 1)
    fun _ _ _ hsub => ⟨hsub.length_le.trans h.opened, h.threads⟩
  exact hemits.mono fun _ _ ht => ⟨ht.1, ht.2⟩

/-- A thread that begins or ends makes no descriptor and no thread. -/
theorem OneSession.thread {t : GpsSession} (h : OneSession s) (hopened : t.opened = s.opened)
    (hthreads : t.threads.length ≤ s.threads.length) (hctrl : t.ctrlState = s.ctrlState) :
    OneSession t where
  opened := hopened ▸ h.opened
  threads := hthreads.trans h.threads
  ctrlState := hctrl.trans h.ctrlState

/-- `ctrl_state` never moves. -/
theorem ctrlState_odroidGpsStart (out : StartOutcome) (hctrl : s.ctrlState = stUndefined) :
    ((odroidGpsStart externalGps out).exec s).ctrlState = stUndefined := by
  -- no path through the call assigns `ctrl_state`
  have hcall : (odroidGpsStart externalGps out).exec s =
      (startGps externalGps out).exec { s with status := .engineOn } := rfl
  rw [hcall, exec_startGps externalGps out { s with status := .engineOn } hctrl]
  split
  · cases out.threadCreated with
    | true => exact hctrl
    | false => exact hctrl
  · exact hctrl

theorem oneSession_step {t : GpsSession} {a : SessionStep} (h : OneSession s)
    (hfinds : FindsItsOwn externalGps s a) (hstep : (sessionMachine externalGps).step s a = some t) :
    OneSession t := by
  cases a with
  | odroidGpsStart out =>
    cases hstep
    exact ⟨((atMostOne_odroidGpsStart_iff h out).mpr hfinds).exec h.toAtMostOne,
      ctrlState_odroidGpsStart out h.ctrlState⟩
  | odroidGpsStop =>
    cases hstep
    refine ⟨(atMostOne_odroidGpsStop h).exec h.toAtMostOne, ?_⟩
    rw [exec_odroidGpsStop h.ctrlState]
    exact h.ctrlState
  | threadBegins i =>
    obtain ⟨-, hexec⟩ := Option.ite_none_right_eq_some.mp hstep
    cases hexec
    exact h.thread rfl (List.length_modify _ _ _).le rfl
  | threadEnds i =>
    simp only [sessionMachine, sessionStep] at hstep
    split at hstep
    · obtain ⟨-, hexec⟩ := Option.ite_none_right_eq_some.mp hstep
      cases hexec
      exact h.thread rfl (List.eraseIdx_sublist _ _).length_le rfl
    · -- a thread that has not begun has no descriptor to end on
      cases hstep

/-- One step keeps to one exactly when it finds its own. -/
theorem keepsToOne_iff (h : OneSession s) (a : SessionStep) :
    KeepsToOne externalGps s a ↔ FindsItsOwn externalGps s a := by
  constructor
  · intro hkeeps
    cases a with
    | odroidGpsStart out => exact (atMostOne_odroidGpsStart_iff h out).mp hkeeps.during
    | odroidGpsStop => exact (opened_odroidGpsStop_iff h).mp (hkeeps.stop rfl)
    | threadBegins => trivial
    | threadEnds => trivial
  · intro hfinds
    -- after the step there is at most one of each, by the step lemma
    have hafter (t : GpsSession) (hstep : (sessionMachine externalGps).step s a = some t) :
        AtMostOne t := (oneSession_step h hfinds hstep).toAtMostOne
    cases a with
    | odroidGpsStart out =>
      exact ⟨(atMostOne_odroidGpsStart_iff h out).mpr hfinds, hafter,
        startsNothing_odroidGpsStart h hfinds, nofun⟩
    | odroidGpsStop =>
      refine ⟨atMostOne_odroidGpsStop h, hafter, fun _ => ?_, fun _ => ?_⟩
      · exact emits_odroidGpsStop (Q := fun e _ _ => e.startsNothing) fun _ _ he _ => he
      · -- the last of the four demands is on the stop alone
        exact (opened_odroidGpsStop_iff h).mpr hfinds
    | threadBegins => exact ⟨emits_pure _ _, hafter, fun _ => emits_pure _ _, nofun⟩
    | threadEnds => exact ⟨emits_pure _ _, hafter, fun _ => emits_pure _ _, nofun⟩

/-- **One session at a time**: in a run of the receiver there is never more than one
descriptor or thread, no start in a running session opens or creates anything, and no stop
leaves a descriptor open, exactly when every start that opens the receiver finds neither
and every stop finds the open descriptor in `state.fd`. -/
theorem one_session_iff (externalGps : Bool) (steps : List SessionStep) :
    (sessionMachine externalGps).AllSteps (KeepsToOne externalGps) GpsSession.init steps ↔
      (sessionMachine externalGps).AllSteps (FindsItsOwn externalGps) GpsSession.init steps :=
  (sessionMachine externalGps).allSteps_iff (fun _ a hs => keepsToOne_iff hs a)
    (fun _ _ _ hs hfinds hstep => oneSession_step hs hfinds hstep) oneSession_init steps

/-- Two starts in a row, with a receiver that can be opened. -/
def startedTwice : List SessionStep :=
  [.odroidGpsStart { ttyACM0 := true }, .odroidGpsStart { ttyACM0 := true }, .odroidGpsStop]

/-- The second start opens a second descriptor and creates a second thread, and the stop leaves
the first descriptor open. -/
theorem second_start_opens_again :
    ((sessionMachine true).run GpsSession.init startedTwice).map
      (fun s => (s.opened, s.threads.length)) = some ([1], 2) ∧
    ¬(sessionMachine true).AllSteps (KeepsToOne true) GpsSession.init startedTwice := by
  refine ⟨by decide, fun h => ?_⟩
  obtain ⟨-, h⟩ := ((sessionMachine true).allSteps_iff (fun _ a hs => keepsToOne_iff hs a)
    (fun _ _ _ hs hfinds hstep => oneSession_step hs hfinds hstep)
    oneSession_init startedTwice).mp h
  exact absurd ((h _ rfl).1 rfl).1 nofun

end Runs

end OdroidU2.Gps
