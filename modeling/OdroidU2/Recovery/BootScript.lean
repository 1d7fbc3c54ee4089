import OdroidU2.Foundations.CutOff
import OdroidU2.Foundations.Machine

/-!
# The Boot Script on the SD Card

The board starts what `boot.scr` on its SD card says.  To start the recovery, `pseudorec-to-sd`
saves that script and writes one of its own, with the two images it loads; the recovery runs
`postrecoveryboot.sh`, which puts the saved script back.  Both are shell scripts without any
locking: they can be cut off at every byte they write, and go on after a copy that failed.

The boot loader of the board is not part of this repository.  It is a parameter, and the results
name what they ask of it.

- `request_exposes_iff` — when a request that is cut off leaves a script without its images
- `script_survives_iff` — the runs in which the user's script is always somewhere on the card
- `rounds_restore_iff` — the rounds after which the card has the user's script again
-/

namespace OdroidU2.Recovery

open OdroidU2.Foundations Prog

/-! ## §1 The Two Scripts -/

/-- The files on the card that the scripts name. -/
inductive CardFile
  /-- `boot.scr` -/
  | bootScr
  /-- `boot.scr-recoverybak` -/
  | bootScrRecoverybak
  /-- `recovery-uboot.img` -/
  | recoveryUboot
  /-- `recovery-kernel` -/
  | recoveryKernel
deriving DecidableEq

/-- The first partition of the card: `/storage/sdcard`, `/sdcard` and `/tmp/sdr` are names of its
root directory. -/
abbrev Card := Files CardFile UInt8

/-- The files under `/system/pseudorec`. -/
structure Pseudorec where
  bootScr : List UInt8
  recoveryUboot : List UInt8
  recoveryKernel : List UInt8

/-- `if [ -f /storage/sdcard/boot.scr ]; then cp -f …/boot.scr /sdcard/boot.scr-recoverybak; fi` -/
def backupScript (room : CardFile → ℕ) : Prog Card (FileAction CardFile) Unit := do
  let card ← read
  match card .bootScr with
  | some script => write .bootScrRecoverybak script (room .bootScrRecoverybak)
  | none => pure ()

/-- The three copies from `/system/pseudorec`. -/
def copyRecovery (system : Pseudorec) (room : CardFile → ℕ) :
    Prog Card (FileAction CardFile) Unit := do
  write .bootScr system.bootScr (room .bootScr)
  write .recoveryUboot system.recoveryUboot (room .recoveryUboot)
  write .recoveryKernel system.recoveryKernel (room .recoveryKernel)

/-- `pseudorec-to-sd`, between the mount and the `sync`.  Of each file the card takes as many bytes
as it has room for. -/
def pseudorecToSd (system : Pseudorec) (room : CardFile → ℕ) :
    Prog Card (FileAction CardFile) Unit := do
  backupScript room
  copyRecovery system room

/-- `postrecoveryboot.sh`, between the mount and the unmount. -/
def postrecoveryboot (room : ℕ) : Prog Card (FileAction CardFile) Unit := do
  let card ← read
  match card .bootScrRecoverybak with
  | some script => write .bootScr script room
  | none => remove .bootScr

/-- All that `recoveryboot.txt`, the source of the recovery's `boot.scr`, needs is whole on the card:
the script itself and the two images it loads. -/
def Whole (system : Pseudorec) (card : Card) : Prop :=
  card .bootScr = some system.bootScr ∧ card .recoveryUboot = some system.recoveryUboot ∧
    card .recoveryKernel = some system.recoveryKernel

/-- The card has the script of the recovery, and an image that the script loads is not whole. -/
def Exposed (system : Pseudorec) (card : Card) : Prop :=
  card .bootScr = some system.bootScr ∧ ¬Whole system card

/-- The boot loader: does the board, started with this card, come to the recovery? -/
abbrev Loader := Card → Bool

/-- Nothing but its own script starts the recovery. -/
def Loader.OnlyByScript (recovers : Loader) (system : Pseudorec) : Prop :=
  ∀ card, recovers card = true → card .bootScr = some system.bootScr

/-- The script starts the recovery when it is whole and finds its images. -/
def Loader.RunsScript (recovers : Loader) (system : Pseudorec) : Prop :=
  ∀ card, Whole system card → recovers card = true

/-- The card has room for the files of the recovery. -/
structure Pseudorec.Fits (system : Pseudorec) (room : CardFile → ℕ) : Prop where
  bootScr : system.bootScr.length ≤ room .bootScr
  recoveryUboot : system.recoveryUboot.length ≤ room .recoveryUboot
  recoveryKernel : system.recoveryKernel.length ≤ room .recoveryKernel

instance (system : Pseudorec) (room : CardFile → ℕ) : Decidable (system.Fits room) :=
  decidable_of_iff (system.bootScr.length ≤ room .bootScr ∧
      system.recoveryUboot.length ≤ room .recoveryUboot ∧
      system.recoveryKernel.length ≤ room .recoveryKernel)
    ⟨fun h => ⟨h.1, h.2.1, h.2.2⟩, fun h => ⟨h.1, h.2, h.3⟩⟩

/-! ## §2 The Card at Every Moment of a Request -/

section Request

variable {system : Pseudorec} {room : CardFile → ℕ} {card : Card}

/-- The writes it takes to save the script. -/
def savingTime (room : CardFile → ℕ) (card : Card) : ℕ :=
  (card .bootScr).elim 0 fun script => 1 + min (room .bootScrRecoverybak) script.length

theorem steps_backupScript : (backupScript room).steps card = savingTime room card := by
  rw [backupScript, steps_bind, steps_read, Nat.zero_add, val_read, exec_read]
  unfold savingTime
  cases h : card .bootScr with
  | none => rfl
  | some script => exact steps_write ..

/-- Without a script there is nothing to save. -/
theorem moment_backupScript_none (h : card .bootScr = none) (j : ℕ) :
    (backupScript room).moment card j = card := by
  rw [backupScript, moment_read_bind, h]
  exact moment_pure () card j

theorem moment_backupScript_some {script : List UInt8} (h : card .bootScr = some script) (j : ℕ) :
    (backupScript room).moment card j =
      (write .bootScrRecoverybak script (room .bootScrRecoverybak)).moment card j := by
  rw [backupScript, moment_read_bind, h]

/-- Saving the script changes nothing but the backup. -/
theorem moment_backupScript_of_ne {file : CardFile} (hfile : file ≠ .bootScrRecoverybak) (j : ℕ) :
    (backupScript room).moment card j file = card file := by
  cases h : card .bootScr with
  | none => rw [moment_backupScript_none h]
  | some script => rw [moment_backupScript_some h, moment_write_of_ne hfile]

theorem exec_backupScript_of_ne {file : CardFile} (hfile : file ≠ .bootScrRecoverybak) :
    (backupScript room).exec card file = card file := by
  rw [← moment_of_steps_le le_rfl, moment_backupScript_of_ne hfile]

/-- The backup after a script has been saved. -/
theorem exec_backupScript_backup : (backupScript room).exec card .bootScrRecoverybak =
    (card .bootScr).elim (card .bootScrRecoverybak)
      fun script => some (script.take (room .bootScrRecoverybak)) := by
  -- the state at the end is the moment after the last step
  rw [← moment_of_steps_le le_rfl]
  cases h : card .bootScr with
  | none => rw [moment_backupScript_none h, Option.elim_none]
  | some script =>
    rw [moment_backupScript_some h, Option.elim_some, steps_backupScript, savingTime, h,
      Option.elim_some, ← steps_write .bootScrRecoverybak script _ card,
      moment_of_steps_le le_rfl, exec_write, Function.update_self]

/-- Only `backupScript` changes the backup. -/
theorem moment_request_backup (j : ℕ) :
    (pseudorecToSd system room).moment card j .bootScrRecoverybak =
      (backupScript room).moment card j .bootScrRecoverybak := by
  refine moment_bind_left (g := fun t : Card => t .bootScrRecoverybak) (fun k => ?_) j
  unfold copyRecovery
  rw [moment_write_bind_of_ne (by decide), moment_write_bind_of_ne (by decide),
    moment_write_of_ne (by decide), exec_write_of_ne (by decide), exec_write_of_ne (by decide)]

/-- The other files wait until the script has been saved. -/
theorem moment_request_of_ne {file : CardFile} (hfile : file ≠ .bootScrRecoverybak) (j : ℕ) :
    (pseudorecToSd system room).moment card j file =
      (copyRecovery system room).moment ((backupScript room).exec card)
        (j - savingTime room card) file := by
  rw [← steps_backupScript]
  exact moment_bind_right (g := fun t : Card => t file)
    (fun _ => moment_backupScript_of_ne hfile _) j

/-- `boot.scr` is the first of the three copies. -/
theorem moment_request_bootScr (j : ℕ) :
    (pseudorecToSd system room).moment card j .bootScr =
      (write .bootScr system.bootScr (room .bootScr)).moment ((backupScript room).exec card)
        (j - savingTime room card) .bootScr := by
  rw [moment_request_of_ne (by decide)]
  -- `boot.scr` is the first file copied, and the later copies leave it alone
  unfold copyRecovery
  refine moment_bind_left (g := fun t : Card => t .bootScr) (fun k => ?_) _
  rw [moment_write_bind_of_ne (by decide), moment_write_of_ne (by decide),
    exec_write_of_ne (by decide)]

/-- The first image follows. -/
theorem moment_copyRecovery_uboot (j : ℕ) :
    (copyRecovery system room).moment card j .recoveryUboot =
      (write .recoveryUboot system.recoveryUboot (room .recoveryUboot)).moment
        ((write .bootScr system.bootScr (room .bootScr)).exec card)
        (j - (1 + min (room .bootScr) system.bootScr.length)) .recoveryUboot := by
  unfold copyRecovery
  rw [moment_write_bind_of_ne (by decide)]
  -- what comes after the second copy does not touch this file
  refine moment_bind_left (g := fun t : Card => t .recoveryUboot) (fun k => ?_) _
  rw [moment_write_of_ne (by decide)]

/-- The kernel is the last one. -/
theorem moment_copyRecovery_kernel (j : ℕ) :
    (copyRecovery system room).moment card j .recoveryKernel =
      (write .recoveryKernel system.recoveryKernel (room .recoveryKernel)).moment
        ((write .recoveryUboot system.recoveryUboot (room .recoveryUboot)).exec
          ((write .bootScr system.bootScr (room .bootScr)).exec card))
        (j - (1 + min (room .bootScr) system.bootScr.length) -
          (1 + min (room .recoveryUboot) system.recoveryUboot.length)) .recoveryKernel := by
  unfold copyRecovery
  rw [moment_write_bind_of_ne (by decide), moment_write_bind_of_ne (by decide)]

/-- The three files after the copies. -/
theorem exec_copyRecovery : (copyRecovery system room).exec card =
    Function.update (Function.update (Function.update card
      .bootScr (some (system.bootScr.take (room .bootScr))))
      .recoveryUboot (some (system.recoveryUboot.take (room .recoveryUboot))))
      .recoveryKernel (some (system.recoveryKernel.take (room .recoveryKernel))) := by
  unfold copyRecovery
  rw [exec_bind, exec_bind, exec_write, exec_write, exec_write]

end Request

/-! ## §3 A Request That Is Cut Off -/

section Moments

variable {system : Pseudorec} {room : CardFile → ℕ} {card : Card}

/-- When the script of the recovery is whole. -/
def scriptTime (system : Pseudorec) (room : CardFile → ℕ) (card : Card) : ℕ :=
  savingTime room card + (1 + system.bootScr.length)

/-- When the first image is whole as well. -/
def ubootTime (system : Pseudorec) (room : CardFile → ℕ) (card : Card) : ℕ :=
  scriptTime system room card + (1 + system.recoveryUboot.length)

/-- When all is whole. -/
def requestTime (system : Pseudorec) (room : CardFile → ℕ) (card : Card) : ℕ :=
  ubootTime system room card + (1 + system.recoveryKernel.length)

/-- When the script is that of the recovery: once it is written, and before it is touched if it was
so already. -/
theorem bootScr_whole_iff (hfits : system.Fits room) (j : ℕ) :
    (pseudorecToSd system room).moment card j .bootScr = some system.bootScr ↔
      scriptTime system room card ≤ j ∨
        j ≤ savingTime room card ∧ card .bootScr = some system.bootScr := by
  rw [moment_request_bootScr, moment_write_whole_iff hfits.bootScr,
    exec_backupScript_of_ne (by decide), scriptTime]

theorem recoveryUboot_whole_iff (hfits : system.Fits room) (j : ℕ) :
    (pseudorecToSd system room).moment card j .recoveryUboot = some system.recoveryUboot ↔
      ubootTime system room card ≤ j ∨
        j ≤ scriptTime system room card ∧ card .recoveryUboot = some system.recoveryUboot := by
  rw [moment_request_of_ne (by decide), moment_copyRecovery_uboot, Nat.min_eq_right hfits.bootScr,
    Nat.sub_sub, moment_write_whole_iff hfits.recoveryUboot, exec_write_of_ne (by decide),
    exec_backupScript_of_ne (by decide), ubootTime, scriptTime]

theorem recoveryKernel_whole_iff (hfits : system.Fits room) (j : ℕ) :
    (pseudorecToSd system room).moment card j .recoveryKernel = some system.recoveryKernel ↔
      requestTime system room card ≤ j ∨
        j ≤ ubootTime system room card ∧ card .recoveryKernel = some system.recoveryKernel := by
  rw [moment_request_of_ne (by decide), moment_copyRecovery_kernel, Nat.min_eq_right hfits.bootScr,
    Nat.min_eq_right hfits.recoveryUboot, Nat.sub_sub, Nat.sub_sub,
    moment_write_whole_iff hfits.recoveryKernel, exec_write_of_ne (by decide),
    exec_write_of_ne (by decide), exec_backupScript_of_ne (by decide), requestTime, ubootTime,
    scriptTime]
  simp only [Nat.add_assoc]

/-- **A request that is cut off.**  `pseudorec-to-sd` writes the script of the recovery before the
images that the script loads.  On whatever card, it leaves the script without an image at all the
moments from the last byte of the script to the last byte of the kernel, but for the one or two at
which an image that an earlier request has left is still to be emptied; and before it touches the
script only if the card was so. -/
theorem request_exposes_iff (hfits : system.Fits room) (j : ℕ) :
    Exposed system ((pseudorecToSd system room).moment card j) ↔
      (scriptTime system room card ≤ j ∧ j < requestTime system room card ∧
          ¬(j = scriptTime system room card ∧ card .recoveryUboot = some system.recoveryUboot ∧
            card .recoveryKernel = some system.recoveryKernel) ∧
          ¬(j = ubootTime system room card ∧
            card .recoveryKernel = some system.recoveryKernel)) ∨
        j ≤ savingTime room card ∧ Exposed system card := by
  have hscript : savingTime room card < scriptTime system room card := by
    unfold scriptTime
    omega
  have huboot : scriptTime system room card < ubootTime system room card := by
    unfold ubootTime
    omega
  have hkernel : ubootTime system room card < requestTime system room card := by
    unfold requestTime
    omega
  simp only [Exposed, Whole, bootScr_whole_iff hfits, recoveryUboot_whole_iff hfits,
    recoveryKernel_whole_iff hfits]
  -- what was whole before the request is given, the rest is the order of the moments
  by_cases hscriptBefore : card .bootScr = some system.bootScr <;>
    by_cases hubootBefore : card .recoveryUboot = some system.recoveryUboot <;>
    by_cases hkernelBefore : card .recoveryKernel = some system.recoveryKernel <;>
    simp only [hscriptBefore, hubootBefore, hkernelBefore, and_true, and_false, or_false, true_and,
      not_true_eq_false, not_false_eq_true] <;>
    omega

/-- Files of two bytes. -/
def smallPseudorec : Pseudorec where
  bootScr := [1, 2]
  recoveryUboot := [3, 4]
  recoveryKernel := [5, 6]

/-- The card has a script of the user and the images of an earlier request, and the kernel has just
been emptied. -/
theorem request_exposes_iff_small :
    Exposed smallPseudorec
      ((pseudorecToSd smallPseudorec fun _ => 2).moment
        (fun
          | .bootScr => some [7]
          | .bootScrRecoverybak => none
          | .recoveryUboot => some [3, 4]
          | .recoveryKernel => some [5, 6]) 9) := by
  rw [request_exposes_iff (by decide)]
  left
  decide

end Moments

/-! ## §4 The User's Script -/

section Survival

variable {system : Pseudorec} {recovers : Loader}

/-- A script of the user: not empty, and not the one the recovery writes. -/
def OwnScript (system : Pseudorec) : Type :=
  { script : Option (List UInt8) // script ≠ some [] ∧ script ≠ some system.bootScr }

/-- The card, and the script the user last put there. -/
structure Owned (system : Pseudorec) where
  card : Card
  own : OwnScript system

/-- What happens to the card.  A request and a start may be cut off after some of their writes. -/
inductive CardStep (system : Pseudorec)
  /-- the user puts a script on the card, or removes the one that is there -/
  | leave (script : OwnScript system)
  /-- `pseudorec-to-sd` -/
  | request (room : CardFile → ℕ) (cut : ℕ)
  /-- the board is started; the recovery, if it comes to it, runs `postrecoveryboot.sh` -/
  | start (room : ℕ) (cut : ℕ)

/-- The scripts that run when the board is started. -/
def startUp (recovers : Loader) (room : ℕ) : Prog Card (FileAction CardFile) Unit := do
  let card ← read
  if recovers card then
    postrecoveryboot room

/-- The card and its user. -/
def cardMachine (system : Pseudorec) (recovers : Loader) :
    Machine (Owned system) (CardStep system) where
  step s
    | .leave script => some { card := Function.update s.card .bootScr script.val, own := script }
    | .request room cut => some { s with card := (pseudorecToSd system room).moment s.card cut }
    | .start room cut => some { s with card := (startUp recovers room).moment s.card cut }

/-- The user's script, if there is one, is whole in one of the two files. -/
def Kept (own : Option (List UInt8)) (card : Card) : Prop :=
  own.isSome → card .bootScr = own ∨ card .bootScrRecoverybak = own

/-- It is so at every moment of a step. -/
def KeptThroughout (recovers : Loader) (s : Owned system) : CardStep system → Prop
  | .leave _ => True
  | .request room cut => ∀ j ≤ cut, Kept s.own.val ((pseudorecToSd system room).moment s.card j)
  | .start room cut => ∀ j ≤ cut, Kept s.own.val ((startUp recovers room).moment s.card j)

/-- A request saves what the user has left: there is nothing to save, or `boot.scr` is the user's
script and the card has room for it, or the request is cut off before it gets that far. -/
def SavesOwn (s : Owned system) : CardStep system → Prop
  | .request room cut =>
    s.own.val = none ∨ s.card .bootScr = none ∨ cut = 0 ∨
      s.card .bootScr = s.own.val ∧
        (∀ script ∈ s.own.val, script.length ≤ room .bootScrRecoverybak ∨
          cut ≤ 1 + room .bootScrRecoverybak)
  | _ => True

/-- While the script is being saved it stays where it is. -/
theorem request_bootScr_of_saving {room : CardFile → ℕ} {card : Card} {j : ℕ}
    (hj : j ≤ savingTime room card) :
    (pseudorecToSd system room).moment card j .bootScr = card .bootScr := by
  rw [moment_request_bootScr, Nat.sub_eq_zero_of_le hj, moment_zero,
    exec_backupScript_of_ne (by decide)]

/-- And then it is emptied. -/
theorem request_bootScr_emptied (room : CardFile → ℕ) (card : Card) :
    (pseudorecToSd system room).moment card (savingTime room card + 1) .bootScr = some [] := by
  rw [moment_request_bootScr, Nat.add_sub_cancel_left, moment_write_one, Function.update_self]

theorem request_backup_some {room : CardFile → ℕ} {card : Card} {script : List UInt8}
    (h : card .bootScr = some script) (j : ℕ) :
    (pseudorecToSd system room).moment card (j + 1) .bootScrRecoverybak =
      some ((script.take (room .bootScrRecoverybak)).take j) := by
  rw [moment_request_backup, moment_backupScript_some h, moment_write, Function.update_self]

/-- A request that finds the user's script in place. -/
theorem request_kept_own {own : OwnScript system} {card : Card} {script : List UInt8}
    (hown : own.val = some script) (hscr : card .bootScr = some script) (room : CardFile → ℕ)
    (cut : ℕ) : (∀ j ≤ cut, Kept own.val ((pseudorecToSd system room).moment card j)) ↔
      script.length ≤ room .bootScrRecoverybak ∨ cut ≤ 1 + room .bootScrRecoverybak := by
  have hne : script ≠ [] := fun h => own.property.1 (h ▸ hown)
  have hsaving : savingTime room card = 1 + min (room .bootScrRecoverybak) script.length := by
    rw [savingTime, hscr, Option.elim_some]
  constructor
  · intro h
    by_contra hlost
    -- the copy is not whole, and `boot.scr` has just been emptied
    rcases h (savingTime room card + 1) (by omega) (by rw [hown]; rfl) with hboot | hback
    · rw [request_bootScr_emptied, hown, Option.some.injEq] at hboot
      exact hne hboot.symm
    · rw [request_backup_some hscr, hown, Option.some.injEq, List.take_take] at hback
      have hlen := congrArg List.length hback
      rw [List.length_take] at hlen
      omega
  · intro h j hj _
    by_cases hsaved : j ≤ savingTime room card
    · left
      rw [request_bootScr_of_saving hsaved, hscr, hown]
    · right
      obtain ⟨i, rfl⟩ : ∃ i, j = i + 1 := ⟨j - 1, by omega⟩
      rw [request_backup_some hscr, hown, List.take_take, List.take_of_length_le (by omega)]

/-- A request that finds another one there overwrites the backup. -/
theorem request_kept_other {own : OwnScript system} {card : Card} {script other : List UInt8}
    (hown : own.val = some script) (hscr : card .bootScr = some other) (hne : other ≠ script)
    (hkept : Kept own.val card) (room : CardFile → ℕ) (cut : ℕ) :
    (∀ j ≤ cut, Kept own.val ((pseudorecToSd system room).moment card j)) ↔ cut = 0 := by
  constructor
  · intro h
    by_contra hcut
    have hsaving : 1 ≤ savingTime room card := by
      rw [savingTime, hscr, Option.elim_some]
      exact Nat.le_add_right 1 _
    -- after one step `cp` has emptied the backup, and the script was nowhere else
    rcases h 1 (by omega) (by rw [hown]; rfl) with hboot | hback
    · rw [request_bootScr_of_saving hsaving, hscr, hown, Option.some.injEq] at hboot
      exact hne hboot
    · rw [request_backup_some hscr 0, hown, List.take_zero] at hback
      exact own.property.1 (hown.trans hback.symm)
  · -- a request cut before its first step leaves the card as it was
    rintro rfl j hj
    obtain rfl : j = 0 := Nat.le_zero.mp hj
    exact hkept

theorem request_kept_iff {s : Owned system} (hkept : Kept s.own.val s.card)
    (room : CardFile → ℕ) (cut : ℕ) :
    KeptThroughout recovers s (.request room cut) ↔ SavesOwn s (.request room cut) := by
  obtain ⟨card, own⟩ := s
  show (∀ j ≤ cut, Kept own.val ((pseudorecToSd system room).moment card j)) ↔ _
  rw [SavesOwn]
  dsimp only at hkept ⊢
  -- where the user's script lies before the request: nowhere, only in the backup, or in `boot.scr`
  cases hown : own.val with
  | none =>
    refine iff_of_true (fun j _ h => ?_) (Or.inl rfl)
    cases h
  | some script =>
    rw [← hown]
    cases hscr : card .bootScr with
    | none =>
      -- the backup is the user's script, and it is left alone
      have hback : card .bootScrRecoverybak = own.val := by
        rcases hkept (by rw [hown]; rfl) with h | h
        · rw [← h, hscr] at hown
          cases hown
        · exact h
      refine iff_of_true (fun j _ _ => Or.inr ?_) (Or.inr (Or.inl rfl))
      rw [moment_request_backup, moment_backupScript_none hscr, hback]
    | some other =>
      -- a `boot.scr` that is not the user's is copied over the backup that was
      by_cases hsame : other = script
      · subst hsame
        rw [request_kept_own hown hscr]
        have hcut : cut = 0 → cut ≤ 1 + room .bootScrRecoverybak := by omega
        simp only [hown, reduceCtorEq, false_or, Option.mem_some_iff, forall_eq', true_and]
        exact (or_iff_right_of_imp fun h => Or.inr (hcut h)).symm
      · rw [request_kept_other hown hscr hsame hkept]
        simp only [hown, reduceCtorEq, false_or, Option.some.injEq, hsame, false_and, or_false]

/-- Starting the board loses nothing: the recovery copies the backup and leaves it alone. -/
theorem start_kept (hloader : recovers.OnlyByScript system) {s : Owned system}
    (hkept : Kept s.own.val s.card) (room cut : ℕ) :
    KeptThroughout recovers s (.start room cut) := by
  intro j _
  rw [startUp, moment_read_bind]
  split
  · rename_i hrecovers
    intro hsome
    right
    -- the board has started the recovery: `boot.scr` is not the user's script
    have hscr : s.card .bootScr = some system.bootScr := hloader s.card hrecovers
    have hback : s.card .bootScrRecoverybak = s.own.val := by
      rcases hkept hsome with h | h
      · exact absurd (h.symm.trans hscr) s.own.property.2
      · exact h
    obtain ⟨script, hscript⟩ := Option.isSome_iff_exists.mp hsome
    rw [postrecoveryboot, moment_read_bind, hback, hscript]
    exact (moment_write_of_ne (by decide) ..).trans (hback.trans hscript)
  · rw [moment_pure]
    exact hkept

/-- **The user's script survives.**  In every order of the user's changes, requests and starts, any
of which may be cut off after any of its writes: the script is whole on the card at every moment
exactly when every request saves it. -/
theorem script_survives_iff (hloader : recovers.OnlyByScript system) {s : Owned system}
    (hkept : Kept s.own.val s.card) (steps : List (CardStep system)) :
    (cardMachine system recovers).AllSteps (KeptThroughout recovers) s steps ↔
      (cardMachine system recovers).AllSteps SavesOwn s steps := by
  apply (cardMachine system recovers).allSteps_iff (I := fun s => Kept s.own.val s.card) _ _ hkept
  · -- in a state that keeps the script, only a request has to ask for anything
    intro s step hs
    cases step with
    | leave script => exact Iff.rfl
    | request room cut => exact request_kept_iff hs room cut
    | start room cut => exact iff_of_true (start_kept hloader hs room cut) trivial
  · -- and each step that asks for enough keeps it
    intro s step t hs hC hstep
    cases step with
    | leave script =>
      obtain rfl := Option.some.inj hstep
      -- a script just left is what `boot.scr` holds
      intro _
      exact Or.inl (Function.update_self CardFile.bootScr _ s.card)
    | request room cut =>
      obtain rfl := Option.some.inj hstep
      have hthroughout : KeptThroughout recovers s (.request room cut) :=
        (request_kept_iff hs room cut).mpr hC
      exact hthroughout cut le_rfl
    | start room cut =>
      obtain rfl := Option.some.inj hstep
      exact start_kept hloader hs room cut cut le_rfl

/-- A boot loader that comes to the recovery through its script. -/
def followsScript : Loader := fun card => card .bootScr = some smallPseudorec.bootScr

theorem onlyByScript_followsScript : followsScript.OnlyByScript smallPseudorec :=
  fun _ h => of_decide_eq_true h

theorem script_survives_iff_small :
    ¬(cardMachine smallPseudorec followsScript).AllSteps (KeptThroughout followsScript)
      { card := fun _ => none, own := ⟨none, by decide⟩ }
      [.leave ⟨some [7], by decide⟩, .request (fun _ => 2) 5, .request (fun _ => 2) 5] := by
  have hkept : Kept none (fun _ => none) := fun h => absurd h (by decide)
  rw [script_survives_iff onlyByScript_followsScript hkept]
  simp only [Machine.AllSteps, cardMachine, SavesOwn]
  decide

end Survival

/-! ## §5 Rounds -/

section Rounds

variable {system : Pseudorec} {recovers : Loader}

/-- One round: the user leaves a script, or none; a request; and the start that follows it. -/
structure Round where
  left : Option (List UInt8)
  room : CardFile → ℕ
  back : ℕ

/-- The card after a round that nothing cuts off. -/
def Round.after (system : Pseudorec) (recovers : Loader) (card : Card) (round : Round) : Card :=
  (startUp recovers round.back).exec
    ((pseudorecToSd system round.room).exec (Function.update card .bootScr round.left))

def roundMachine (system : Pseudorec) (recovers : Loader) : Machine Card Round where
  step card round := some (round.after system recovers card)

/-- The card has the user's script again. -/
def Restores (system : Pseudorec) (recovers : Loader) (card : Card) (round : Round) : Prop :=
  round.after system recovers card .bootScr = round.left

/-- The card has room for both copies of the script. -/
def Round.Fits (round : Round) : Prop :=
  ∀ script ∈ round.left,
    script.length ≤ round.room .bootScrRecoverybak ∧ script.length ≤ round.back

/-- What a round makes of the backup. -/
def Round.saved (round : Round) (card : Card) : Option (List UInt8) :=
  round.left.elim (card .bootScrRecoverybak)
    fun script => some (script.take (round.room .bootScrRecoverybak))

theorem exec_request (room : CardFile → ℕ) (card : Card) (file : CardFile) :
    (pseudorecToSd system room).exec card file =
      (copyRecovery system room).exec ((backupScript room).exec card) file := rfl

/-- A request that nothing cuts off leaves the card whole. -/
theorem whole_exec_request {room : CardFile → ℕ} (hfits : system.Fits room) (card : Card) :
    Whole system ((pseudorecToSd system room).exec card) := by
  unfold Whole
  rw [exec_request, exec_request, exec_request, exec_copyRecovery,
    List.take_of_length_le hfits.bootScr, List.take_of_length_le hfits.recoveryUboot,
    List.take_of_length_le hfits.recoveryKernel]
  simp

theorem exec_request_backup (round : Round) (card : Card) :
    (pseudorecToSd system round.room).exec (Function.update card .bootScr round.left)
      .bootScrRecoverybak = round.saved card := by
  rw [exec_request, exec_copyRecovery, Function.update_of_ne (by decide),
    Function.update_of_ne (by decide), Function.update_of_ne (by decide), exec_backupScript_backup,
    Function.update_self, Function.update_of_ne (by decide), Round.saved]

/-- The card after a round. -/
theorem after_eq (hloader : recovers.RunsScript system) {round : Round}
    (hfits : system.Fits round.room) (card : Card) :
    round.after system recovers card .bootScr = (round.saved card).map (·.take round.back) ∧
      round.after system recovers card .bootScrRecoverybak = round.saved card := by
  -- a whole request puts the recovery's script and both images on the card, so it starts
  have hrecovers :=
    hloader _ (whole_exec_request hfits (Function.update card .bootScr round.left))
  have hback : (pseudorecToSd system round.room).exec (Function.update card .bootScr round.left)
      .bootScrRecoverybak = round.saved card := exec_request_backup round card
  rw [Round.after]
  generalize (pseudorecToSd system round.room).exec (Function.update card .bootScr round.left) =
    asked at hrecovers hback
  rw [startUp, exec_bind, val_read, exec_read, if_pos hrecovers, postrecoveryboot, exec_bind,
    val_read, exec_read]
  -- `postrecoveryboot.sh` looks for the backup: without one it removes `boot.scr`
  cases hsaved : round.saved card with
  | none =>
    rw [hback, hsaved]
    dsimp only
    rw [remove, exec_act]
    exact ⟨Function.update_self .., hback.trans hsaved⟩
  | some script =>
    rw [hback, hsaved]
    dsimp only
    rw [exec_write]
    exact ⟨Function.update_self .., hback.trans hsaved⟩

/-- One round: a script that fits is restored, and no script only if there is no backup. -/
theorem restores_iff (hloader : recovers.RunsScript system) {round : Round}
    (hfits : system.Fits round.room) (card : Card) :
    Restores system recovers card round ↔
      round.Fits ∧ (round.left = none → card .bootScrRecoverybak = none) := by
  rw [Restores, (after_eq hloader hfits card).1, Round.Fits, Round.saved]
  -- without a script at the start, `boot.scr` must be gone afterwards, and an old backup would be
  -- put there
  cases hleft : round.left with
  | none =>
    rw [Option.elim_none, Option.map_eq_none_iff]
    simp
  | some script =>
    simp only [Option.elim_some, Option.map_some, Option.some.injEq, List.take_take,
      List.take_eq_self_iff, Option.mem_some_iff, forall_eq', reduceCtorEq, false_implies, and_true]
    omega

/-- **Rounds.**  Nothing removes the backup.  All rounds of a list give the user's script back
exactly when all scripts fit and no round without a script comes after one with a script, or finds a
backup on the card. -/
theorem rounds_restore_iff (hloader : recovers.RunsScript system) {rounds : List Round}
    (hfits : ∀ round ∈ rounds, system.Fits round.room) (card : Card) :
    (roundMachine system recovers).AllSteps (Restores system recovers) card rounds ↔
      (∀ round ∈ rounds, round.Fits) ∧
        rounds.Pairwise (fun earlier later => earlier.left.isSome → later.left.isSome) ∧
        ((card .bootScrRecoverybak).isSome → ∀ round ∈ rounds, round.left.isSome) := by
  -- round by round; all the later ones see of a round is whether it left a backup on the card
  induction rounds generalizing card with
  | nil => simp [Machine.AllSteps]
  | cons round rounds ih =>
    obtain ⟨hround, hrest⟩ := List.forall_mem_cons.mp hfits
    -- a backup once made is never removed
    have hsaved : ((round.after system recovers card) .bootScrRecoverybak).isSome ↔
        round.left.isSome ∨ (card .bootScrRecoverybak).isSome := by
      rw [(after_eq hloader hround card).2, Round.saved]
      cases round.left <;> simp
    -- so a round that starts without a script needs a card without a backup
    have hnone : (round.left = none → card .bootScrRecoverybak = none) ↔
        ((card .bootScrRecoverybak).isSome → round.left.isSome) := by
      cases round.left <;> cases card .bootScrRecoverybak <;> simp
    have hstep : (∀ t, (roundMachine system recovers).step card round = some t →
        (roundMachine system recovers).AllSteps (Restores system recovers) t rounds) ↔
          (roundMachine system recovers).AllSteps (Restores system recovers)
            (round.after system recovers card) rounds :=
      ⟨fun h => h _ rfl, fun h t ht => Option.some.inj ht ▸ h⟩
    rw [Machine.AllSteps, hstep, ih hrest, restores_iff hloader hround, hnone, hsaved,
      List.forall_mem_cons, List.pairwise_cons, List.forall_mem_cons]
    constructor
    · rintro ⟨⟨hfit, hbackup⟩, hrounds, hpairs, hall⟩
      exact ⟨⟨hfit, hrounds⟩, ⟨fun later hlater hleft => hall (Or.inl hleft) later hlater, hpairs⟩,
        fun h => ⟨hbackup h, hall (Or.inr h)⟩⟩
    · rintro ⟨⟨hfit, hrounds⟩, ⟨hlater, hpairs⟩, hbackup⟩
      refine ⟨⟨hfit, fun h => (hbackup h).1⟩, hrounds, hpairs, ?_⟩
      rintro (hleft | h) later hmem
      · exact hlater later hmem hleft
      · exact (hbackup h).2 later hmem

theorem rounds_restore_iff_small :
    ¬(roundMachine smallPseudorec followsScript).AllSteps (Restores smallPseudorec followsScript)
      (fun _ => none)
      [{ left := some [7], room := fun _ => 2, back := 2 },
       { left := none, room := fun _ => 2, back := 2 }] := by
  have hloader : followsScript.RunsScript smallPseudorec := fun _ h => decide_eq_true h.1
  rw [rounds_restore_iff hloader (by decide)]
  simp

end Rounds

end OdroidU2.Recovery
