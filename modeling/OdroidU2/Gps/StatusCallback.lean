import OdroidU2.Gps.Session

/-!
# Status Callbacks

Starting and stopping the receiver store the new status into `gps_status.status` and post
`CMD_STATUS_CB`; `main_loop` passes a pointer to that same variable.  The callback sees the
status that was posted while nobody stores another one before it returns.

- `statuses_right` — the statuses delivered are the statuses posted, in their order
- `failed_start_begins_session` — a start that cannot open the receiver reports a session
-/

namespace OdroidU2.Gps

open OdroidU2.Foundations Prog

/-! ## §1 The Two Threads -/

/-- A command byte on its way.  Only `cmd` crosses the socket; the rest records for the
specification what the session was when the command was posted. -/
structure StatusPost where
  cmd : Cmd
  status : GpsStatusValue
  fd : Int
  deriving DecidableEq, Repr

/-- Where `main_loop` is. -/
inductive StatusLoop where
  | polling
  | received (e : StatusPost)
  /-- Inside the status callback. -/
  | calling (e : StatusPost)
  deriving DecidableEq, Repr

/-- The session, the control socket and `main_loop`. -/
structure StatusState where
  gps : GpsSession
  /-- The rest of the call in progress, action by action. -/
  pending : List (SessionEvent × GpsSession)
  /-- The unread bytes of the control socket. -/
  control : List StatusPost
  mainLoop : StatusLoop
  /-- What the status callback has been given. -/
  delivered : List GpsStatusValue
  /-- The calls of `set_pending_command(CMD_STATUS_CB)` so far. -/
  posted : List StatusPost
  deriving DecidableEq, Repr

/-- Is it a `CMD_STATUS_CB`? -/
def StatusPost.isStatus (e : StatusPost) : Bool := e.cmd == .statusCb

namespace StatusState

/-- The driver after `odroid_gps_init`. -/
def init : StatusState where
  gps := .init
  pending := []
  control := []
  mainLoop := .polling
  delivered := []
  posted := []

/-- The command `main_loop` is working on. -/
def current (s : StatusState) : List StatusPost :=
  match s.mainLoop with
  | .polling => []
  | .received e | .calling e => [e]

/-- The status commands that were posted and whose callback has not been given its status. -/
def outstanding (s : StatusState) : List StatusPost :=
  (s.current ++ s.control).filter StatusPost.isStatus

/-- What an action of a call puts into the socket. -/
def posts : SessionEvent × GpsSession → List StatusPost
  | (.post cmd, g) => [⟨cmd, g.status, g.fd⟩]
  | _ => []

end StatusState

/-- One step of one thread. -/
inductive StatusStep where
  /-- The framework calls `odroid_gps_start`. -/
  | odroidGpsStart (out : StartOutcome)
  /-- The framework calls `odroid_gps_stop`. -/
  | odroidGpsStop
  /-- The call in progress takes its next action. -/
  | caller
  /-- Another thread posts a command of its own. -/
  | setPendingCommand (cmd : Cmd)
  /-- `main_loop` reads a byte from the socket. -/
  | recv
  /-- `main_loop` enters its `switch`. -/
  | dispatch
  /-- The status callback reads the status and returns. -/
  | statusCallback
  deriving DecidableEq, Repr

/-- One step of the two threads.  `CMD_QUIT` is posted by `odroid_gps_cleanup` only. -/
def statusStep (externalGps : Bool) (s : StatusState) : StatusStep → Option StatusState
  | .odroidGpsStart out =>
    if s.pending = [] then some { s with pending := (odroidGpsStart externalGps out).log s.gps }
    else none
  | .odroidGpsStop =>
    if s.pending = [] then some { s with pending := odroidGpsStop.log s.gps } else none
  | .caller =>
    match s.pending with
    | [] => none
    | e :: rest =>
      some { s with
        gps := e.2
        pending := rest
        control := s.control ++ StatusState.posts e
        posted := s.posted ++ (StatusState.posts e).filter StatusPost.isStatus }
  | .setPendingCommand cmd =>
    if cmd = .statusCb ∨ cmd = .quit then none
    else some { s with control := s.control ++ [⟨cmd, s.gps.status, s.gps.fd⟩] }
  | .recv =>
    match s.mainLoop, s.control with
    | .polling, e :: rest => some { s with control := rest, mainLoop := .received e }
    | _, _ => none
  | .dispatch =>
    match s.mainLoop with
    | .received e => some { s with mainLoop := if e.isStatus then .calling e else .polling }
    | _ => none
  | .statusCallback =>
    match s.mainLoop with
    | .calling _ => some { s with mainLoop := .polling, delivered := s.delivered ++ [s.gps.status] }
    | _ => none

/-- Every interleaving of the calls with `main_loop`. -/
def statusMachine (externalGps : Bool) : Machine StatusState StatusStep := ⟨statusStep externalGps⟩

/-! ## §2 The Property -/

/-- The statuses delivered are the statuses posted, in their order, less those whose callback
is still to come; and a session is reported to begin only with the receiver open. -/
structure StatusesRight (s : StatusState) : Prop where
  in_order : s.posted.map StatusPost.status =
    s.delivered ++ s.outstanding.map StatusPost.status
  receiver_open : ∀ e ∈ s.posted, e.status = .sessionBegin → 0 ≤ e.fd

/-- A step stores a new status only while no status command is outstanding. -/
def StoresWhenDelivered (s : StatusState) (a : StatusStep) : Prop :=
  a = .caller → ∀ e ∈ s.pending.head?, e.2.status ≠ s.gps.status → s.outstanding = []

instance (s : StatusState) (a : StatusStep) : Decidable (StoresWhenDelivered s a) := by
  unfold StoresWhenDelivered
  infer_instance

/-! ## §3 The Invariant -/

/-- A status command with `SESSION_BEGIN` is posted with the receiver open. -/
def PostsOpen (e : SessionEvent) (g : GpsSession) : Prop :=
  e = .post .statusCb → g.status = .sessionBegin → 0 ≤ g.fd

theorem emits_postsOpen_odroidGpsStart (externalGps : Bool) (out : StartOutcome) (g : GpsSession) :
    (odroidGpsStart externalGps out).Emits PostsOpen g := by
  have hopen (t : GpsSession) : (openReceiver externalGps out).Emits PostsOpen t :=
    (emits_openReceiver externalGps out t fun _ => nofun).mpr fun _ => nofun
  simp only [odroidGpsStart, startGps, createThread, assignStatus, sessionPost, emits_bind,
    emits_act, emits_read, emits_when, hopen, true_and]
  -- `SESSION_BEGIN` is posted past the test of `state.fd`
  refine ⟨nofun, fun _ => nofun, fun _ => ⟨nofun, fun hfd => ⟨fun _ _ => hfd, nofun⟩⟩⟩

theorem emits_postsOpen_odroidGpsStop (g : GpsSession) : odroidGpsStop.Emits PostsOpen g := by
  simp [odroidGpsStop, stopGps, closeFd, assignStatus, sessionPost, PostsOpen]

/-- What holds while statuses are stored only when nothing is outstanding. -/
structure StatusHeld (s : StatusState) : Prop extends StatusesRight s where
  pending : ∀ e ∈ s.pending, PostsOpen e.1 e.2
  held : ∀ e ∈ s.outstanding, e.status = s.gps.status
  calling : ∀ e, s.mainLoop = .calling e → e.isStatus

theorem statusHeld_init : StatusHeld StatusState.init where
  in_order := rfl
  receiver_open := nofun
  pending := nofun
  held := nofun
  calling := nofun

section Step

variable {externalGps : Bool} {s t : StatusState}

theorem outstanding_append (control : List StatusPost) :
    ({ s with control := s.control ++ control } : StatusState).outstanding =
      s.outstanding ++ control.filter StatusPost.isStatus := by
  rw [StatusState.outstanding, ← List.append_assoc, List.filter_append]
  rfl

/-- The post of a status command, when the caller gets to it. -/
theorem filter_posts {e : SessionEvent × GpsSession} (he : PostsOpen e.1 e.2) :
    ∀ x ∈ (StatusState.posts e).filter StatusPost.isStatus,
      x.status = e.2.status ∧ (x.status = .sessionBegin → 0 ≤ x.fd) := by
  obtain ⟨event, g⟩ := e
  intro x hx
  obtain ⟨hx, hstatus⟩ := List.mem_filter.mp hx
  -- only a post puts a command into the socket
  cases event with
  | post cmd =>
    obtain rfl := List.mem_singleton.mp hx
    have hcmd : cmd = .statusCb := by simpa [StatusPost.isStatus] using hstatus
    exact ⟨rfl, he (congrArg _ hcmd)⟩
  | openDevice | closeFd | createThread | assignStatus | assignFd => cases hx

/-- The caller keeps the invariant if it stores no other status too early. -/
theorem StatusHeld.caller (h : StatusHeld s) {e : SessionEvent × GpsSession}
    {rest : List (SessionEvent × GpsSession)} (hpending : s.pending = e :: rest)
    (hstores : e.2.status ≠ s.gps.status → s.outstanding = []) :
    StatusHeld { s with
      gps := e.2
      pending := rest
      control := s.control ++ StatusState.posts e
      posted := s.posted ++ (StatusState.posts e).filter StatusPost.isStatus } := by
  have hposts := filter_posts (h.pending e (by rw [hpending]; exact List.mem_cons_self))
  have hall := outstanding_append (s := s) (StatusState.posts e)
  refine ⟨⟨?_, ?_⟩, ?_, ?_, h.calling⟩
  · rw [List.map_append, h.in_order, List.append_assoc, ← List.map_append, ← hall]
    rfl
  · intro x hx
    rcases List.mem_append.mp hx with hx | hx
    · exact h.receiver_open x hx
    · exact (hposts x hx).2
  · intro x hx
    exact h.pending x (by rw [hpending]; exact List.mem_cons_of_mem e hx)
  · intro x hx
    have hx : x ∈ s.outstanding ++ (StatusState.posts e).filter StatusPost.isStatus := hall ▸ hx
    rcases List.mem_append.mp hx with hx | hx
    · -- something was outstanding, so the status is still the one posted
      have hsame : e.2.status = s.gps.status := by
        by_contra hne
        rw [hstores hne] at hx
        cases hx
      rw [hsame]
      exact h.held x hx
    · -- a command posted just now carries the status just stored
      exact (hposts x hx).1

/-- What takes nothing out of the queue of the outstanding commands keeps the invariant. -/
theorem StatusHeld.of_outstanding (h : StatusHeld s) (hsame : t.outstanding = s.outstanding)
    (hrecord : (t.gps, t.pending, t.delivered, t.posted) =
      (s.gps, s.pending, s.delivered, s.posted))
    (hcalling : ∀ e, t.mainLoop = .calling e → e.isStatus) : StatusHeld t := by
  simp only [Prod.mk.injEq] at hrecord
  obtain ⟨hgps, hpending, hdelivered, hposted⟩ := hrecord
  -- the invariant speaks of the record and of what is outstanding only
  refine ⟨⟨?_, ?_⟩, ?_, ?_, hcalling⟩
  · rw [hposted, hdelivered, hsame]
    exact h.in_order
  · rw [hposted]
    exact h.receiver_open
  · rw [hpending]
    exact h.pending
  · rw [hsame, hgps]
    exact h.held

/-- `main_loop` calls back for a status command and passes over any other. -/
theorem StatusHeld.dispatch (h : StatusHeld s) {e : StatusPost} (hloop : s.mainLoop = .received e) :
    StatusHeld { s with mainLoop := if e.isStatus then .calling e else .polling } := by
  refine h.of_outstanding ?_ rfl fun e' he' => ?_
  · simp only [StatusState.outstanding, StatusState.current, hloop]
    cases hstatus : e.isStatus with
    | true => rfl
    -- another command was not counted as outstanding
    | false => exact (List.filter_cons_of_neg (by rw [hstatus]; exact nofun)).symm
  · cases hstatus : e.isStatus with
    | true =>
      rw [hstatus, if_pos rfl] at he'
      cases he'
      exact hstatus
    | false =>
      rw [hstatus, if_neg nofun] at he'
      cases he'

/-- The callback is given what was posted. -/
theorem StatusHeld.statusCallback (h : StatusHeld s) {e : StatusPost}
    (hloop : s.mainLoop = .calling e) :
    StatusHeld { s with mainLoop := .polling, delivered := s.delivered ++ [s.gps.status] } := by
  have hall : s.outstanding = e :: s.control.filter StatusPost.isStatus := by
    rw [StatusState.outstanding, StatusState.current, hloop]
    exact List.filter_cons_of_pos (h.calling e hloop)
  -- nothing has been stored since the command was posted
  have hgiven : e.status = s.gps.status := h.held e (by rw [hall]; exact List.mem_cons_self)
  refine ⟨⟨?_, h.receiver_open⟩, h.pending, fun x hx => ?_, nofun⟩
  · have horder := h.in_order
    rw [hall, List.map_cons, hgiven] at horder
    exact horder.trans (List.append_cons _ _ _)
  · exact h.held x (by rw [hall]; exact List.mem_cons_of_mem e hx)

/-- **Step lemma**: a step that stores no status too early keeps the invariant. -/
theorem statusHeld_step {a : StatusStep} (h : StatusHeld s) (hstores : StoresWhenDelivered s a)
    (hstep : (statusMachine externalGps).step s a = some t) : StatusHeld t := by
  simp only [statusMachine] at hstep
  cases a with
  -- a call begins: its actions are still to be carried out
  | odroidGpsStart out =>
    obtain ⟨-, hexec⟩ := Option.ite_none_right_eq_some.mp hstep
    cases hexec
    exact ⟨⟨h.in_order, h.receiver_open⟩, emits_postsOpen_odroidGpsStart externalGps out s.gps,
      h.held, h.calling⟩
  | odroidGpsStop =>
    obtain ⟨-, hexec⟩ := Option.ite_none_right_eq_some.mp hstep
    cases hexec
    exact ⟨⟨h.in_order, h.receiver_open⟩, emits_postsOpen_odroidGpsStop s.gps, h.held, h.calling⟩
  | caller =>
    cases hpending : s.pending with
    | nil => simp only [statusStep, hpending, reduceCtorEq] at hstep
    | cons e rest =>
      simp only [statusStep, hpending, Option.some.injEq] at hstep
      subst hstep
      exact h.caller hpending (hstores rfl e (by rw [hpending]; rfl))
  | setPendingCommand cmd =>
    simp only [statusStep, Option.ite_none_left_eq_some, Option.some.injEq, not_or] at hstep
    obtain ⟨hcmd, rfl⟩ := hstep
    refine h.of_outstanding ?_ rfl h.calling
    -- the command is no status command
    rw [outstanding_append]
    simp [StatusPost.isStatus, hcmd.1]
  | recv =>
    cases hloop : s.mainLoop <;> cases hcontrol : s.control <;>
      simp only [statusStep, hloop, hcontrol, reduceCtorEq, Option.some.injEq] at hstep
    -- the command moves from the socket into `main_loop`, and stays outstanding
    subst hstep
    refine h.of_outstanding ?_ rfl nofun
    simp only [StatusState.outstanding, StatusState.current, hloop, hcontrol, List.nil_append,
      List.singleton_append]
  | dispatch =>
    cases hloop : s.mainLoop with
    | polling | calling => simp only [statusStep, hloop, reduceCtorEq] at hstep
    | received e =>
      simp only [statusStep, hloop, Option.some.injEq] at hstep
      subst hstep
      exact h.dispatch hloop
  | statusCallback =>
    cases hloop : s.mainLoop with
    | polling | received => simp only [statusStep, hloop, reduceCtorEq] at hstep
    | calling e =>
      simp only [statusStep, hloop, Option.some.injEq] at hstep
      subst hstep
      exact h.statusCallback hloop

end Step

/-! ## §4 Runs -/

/-- In every run in which a new status is stored only while no status command is
outstanding, the statuses delivered are the statuses posted, and none reports a session for a
start that could not open the receiver. -/
theorem statuses_right (externalGps : Bool) (steps : List StatusStep)
    (hstores : (statusMachine externalGps).AllSteps StoresWhenDelivered .init steps) :
    ∀ s ∈ (statusMachine externalGps).run .init steps, StatusesRight s := by
  intro s hrun
  have hheld := (statusMachine externalGps).run_invariant_of
    (fun _ _ _ hs hC hstep => statusHeld_step hs hC hstep) statusHeld_init hstores hrun
  exact hheld.toStatusesRight

/-- The answer of `main_loop` to one command. -/
def answersOnce : List StatusStep := [.recv, .dispatch, .statusCallback]

/-- A start and a stop whose callbacks come before the next status is stored. -/
def deliveredInTime : List StatusStep :=
  .odroidGpsStart { ttyACM0 := true } :: List.replicate 2 .caller ++ answersOnce ++
    List.replicate 4 .caller ++ answersOnce ++
    .odroidGpsStop :: List.replicate 4 .caller ++ answersOnce

/-- All three are delivered. -/
theorem statuses_right_in_time :
    ((statusMachine true).run .init deliveredInTime).map StatusState.delivered =
      some [.engineOn, .sessionBegin, .sessionEnd] ∧
    ∀ s ∈ (statusMachine true).run .init deliveredInTime, StatusesRight s :=
  ⟨by decide, statuses_right true deliveredInTime (by decide)⟩

/-- The receiver cannot be opened, and `main_loop` answers when `odroid_gps_start` has
returned. -/
def failedStart : List StatusStep :=
  .odroidGpsStart {} :: List.replicate 5 .caller ++ answersOnce

/-- `ENGINE_ON` was posted, and the callback is told that a session has begun. -/
theorem failed_start_begins_session :
    ((statusMachine true).run .init failedStart).map
      (fun s => (s.posted.map StatusPost.status, s.delivered, s.gps.opened)) =
      some ([.engineOn], [.sessionBegin], []) ∧
    ¬∀ s ∈ (statusMachine true).run .init failedStart, StatusesRight s := by
  -- one status posted, another delivered
  have hrun : ((statusMachine true).run .init failedStart).any fun s =>
      decide (s.posted.map StatusPost.status ≠
        s.delivered ++ s.outstanding.map StatusPost.status) := by decide
  refine ⟨by decide, fun h => ?_⟩
  obtain ⟨s, hs, hne⟩ := (Option.any_eq_true _ _).mp hrun
  exact of_decide_eq_true hne (h s hs).in_order

end OdroidU2.Gps
