import Mathlib
import OdroidU2.Foundations.Machine

/-!
# The Camera Module

`CameraHal_Module.cpp`: opening and closing the devices of the camera module, and the
operations of a device.  The module advertises two cameras.  All devices share the static
pointer `V4L2CameraHardware`, which every open overwrites and every close deletes, so an
operation reaches the device it was called on only while that device is the one opened
last.

- `devices_apart_iff` — when the devices of a run do not get in each other's way
- `first_device_reaches_second` — two open devices that do
-/

namespace OdroidU2.Camera

open OdroidU2.Foundations

/-! ## §1 The Module -/

/-- The state of the module.  Objects of class `CameraHardware` are numbered in the order
of their creation. -/
structure HalModule where
  /-- `V4L2CameraHardware` -/
  hardware : Option Nat
  nextHardware : Nat
  /-- The objects that have not been deleted. -/
  live : List Nat
  /-- For every open device the object that was created when it was opened.  The module
  keeps no such table. -/
  createdFor : Int → Option Nat
  /-- The device opened last, unless one has been closed since.  The module has no such
  variable: it records the order of the calls. -/
  lastOpened : Option Int

namespace HalModule

/-- `num_cameras` of `camera_get_number_of_cameras` -/
def cameraGetNumberOfCameras : Int := 2

/-- `num_cameras` of `camera_device_open`: the greatest number it accepts -/
def numCameras : Int := 1

/-- `EINVAL` -/
def einval : Int := 22

/-- `ENOMEM` -/
def enomem : Int := 12

/-- The end of `camera_device_open`: the pointer is that of a new object. -/
def newDevice (cameraid : Int) (s : HalModule) : HalModule :=
  { s with
    hardware := some s.nextHardware
    nextHardware := s.nextHardware + 1
    live := s.nextHardware :: s.live
    createdFor := Function.update s.createdFor cameraid (some s.nextHardware)
    lastOpened := some cameraid }

/-- `camera_device_open` of the device with that name, a number; either `malloc` can fail. -/
def cameraDeviceOpen (name : Option Int) (deviceAllocated opsAllocated : Bool) (s : HalModule) :
    Int × HalModule :=
  match name with
  | none => (0, s)
  | some cameraid =>
    if cameraid > numCameras then (-einval, s)
    else if !deviceAllocated then (-enomem, s)
    else if !opsAllocated then (-enomem, s)
    else (0, s.newDevice cameraid)

/-- `delete V4L2CameraHardware`, which does nothing to a null pointer -/
def deleteHardware (s : HalModule) : List Nat :=
  match s.hardware with
  | none => s.live
  | some h => s.live.erase h

/-- `camera_device_close` -/
def cameraDeviceClose (cameraid : Int) (s : HalModule) : Int × HalModule :=
  (0, { s with
    live := s.deleteHardware
    hardware := none
    createdFor := Function.update s.createdFor cameraid none
    lastOpened := none })

/-- The module when it has been loaded. -/
def loaded : HalModule where
  hardware := none
  nextHardware := 0
  live := []
  createdFor := fun _ => none
  lastOpened := none

end HalModule

/-- The functions of `camera_device_ops`. -/
inductive DeviceOp where
  | setPreviewWindow | setCallbacks | enableMsgType | disableMsgType | msgTypeEnabled
  | startPreview | stopPreview | previewEnabled | storeMetaDataInBuffers
  | startRecording | stopRecording | recordingEnabled | releaseRecordingFrame
  | autoFocus | cancelAutoFocus | takePicture | cancelPicture
  | setParameters | getParameters | putParameters | sendCommand | release | dump
  deriving DecidableEq, Repr

/-- Does the function call a method of `*V4L2CameraHardware`?  Three return a constant. -/
def DeviceOp.callsHardware : DeviceOp → Bool
  | storeMetaDataInBuffers | sendCommand | dump => false
  | _ => true

/-! ## §2 Runs -/

/-- The calls of the camera service. -/
inductive HalCall where
  | cameraDeviceOpen (cameraid : Int) (deviceAllocated opsAllocated : Bool)
  | cameraDeviceClose (cameraid : Int)
  | deviceOp (cameraid : Int) (op : DeviceOp)
  deriving DecidableEq, Repr

namespace HalModule

/-- A device is open from a successful `camera_device_open` until it is closed. -/
def isOpen (s : HalModule) (cameraid : Int) : Bool := (s.createdFor cameraid).isSome

/-- The service opens the cameras it was told of, each at most once at a time, and uses and
closes what is open. -/
def allows (s : HalModule) : HalCall → Bool
  | .cameraDeviceOpen cameraid _ _ =>
    decide (0 ≤ cameraid ∧ cameraid < cameraGetNumberOfCameras) && !s.isOpen cameraid
  | .cameraDeviceClose cameraid | .deviceOp cameraid _ => s.isOpen cameraid

/-- What a call does to the module. -/
def call (s : HalModule) : HalCall → HalModule
  | .cameraDeviceOpen cameraid deviceAllocated opsAllocated =>
    (cameraDeviceOpen (some cameraid) deviceAllocated opsAllocated s).2
  | .cameraDeviceClose cameraid => (cameraDeviceClose cameraid s).2
  | .deviceOp _ _ => s

end HalModule

/-- The module under the calls of the service. -/
def halMachine : Machine HalModule HalCall where
  step s c := if s.allows c then some (s.call c) else none

/-! ## §3 The Property -/

/-- The operation reaches a live object that was created for the device. -/
def ReachesOwn (s : HalModule) (cameraid : Int) : Prop :=
  ∃ h ∈ s.live, s.hardware = some h ∧ s.createdFor cameraid = some h

/-- A call keeps the devices apart: an operation reaches the object of its device, and a
close leaves the objects of the other devices in place. -/
def DevicesApart (s : HalModule) (c : HalCall) : Prop :=
  s.allows c →
  match c with
  | .cameraDeviceOpen _ _ _ => True
  | .cameraDeviceClose cameraid =>
    ∀ other ≠ cameraid, ∀ h, s.createdFor other = some h →
      h ∈ (HalModule.cameraDeviceClose cameraid s).2.live
  | .deviceOp cameraid op => op.callsHardware → ReachesOwn s cameraid

/-- The call is made in the right order: an operation for the device opened last, with no
close since, and a close for that device or when a close came last. -/
def InOrder (s : HalModule) (c : HalCall) : Prop :=
  s.allows c →
  match c with
  | .cameraDeviceOpen _ _ _ => True
  | .cameraDeviceClose cameraid => ∀ last ∈ s.lastOpened, last = cameraid
  | .deviceOp cameraid op => op.callsHardware → s.lastOpened = some cameraid

/-! ## §4 What the Pointer Points To -/

/-- The pointer is that of the device opened last, every open device has its object, and no
two have the same. -/
structure Owned (s : HalModule) : Prop where
  live_nodup : s.live.Nodup
  pointer : s.hardware = s.lastOpened.bind s.createdFor
  last_open : ∀ cameraid ∈ s.lastOpened, s.isOpen cameraid
  created_live : ∀ cameraid, ∀ h, s.createdFor cameraid = some h → h ∈ s.live
  live_lt : ∀ h ∈ s.live, h < s.nextHardware
  created_ne : ∀ cameraid other h, s.createdFor cameraid = some h →
    s.createdFor other = some h → cameraid = other

theorem owned_loaded : Owned HalModule.loaded where
  live_nodup := List.nodup_nil
  pointer := rfl
  last_open := nofun
  created_live := nofun
  live_lt := nofun
  created_ne := nofun

namespace Owned

variable {s : HalModule}

theorem createdFor_newDevice (s : HalModule) (cameraid : Int) :
    (s.newDevice cameraid).createdFor =
      Function.update s.createdFor cameraid (some s.nextHardware) := rfl

/-- The pointer while a device is the one opened last. -/
theorem hardware_eq (h : Owned s) {cameraid : Int} (hlast : s.lastOpened = some cameraid) :
    s.hardware = s.createdFor cameraid := by
  rw [h.pointer, hlast]
  rfl

/-- An operation reaches its own device exactly when that was opened last. -/
theorem reachesOwn_iff (h : Owned s) {cameraid : Int} (hopen : s.isOpen cameraid) :
    ReachesOwn s cameraid ↔ s.lastOpened = some cameraid := by
  constructor
  · rintro ⟨hw, _, hpointer, hcreated⟩
    cases hlast : s.lastOpened with
    -- before any open, and after a close, the pointer is `NULL`
    | none =>
      rw [h.pointer, hlast] at hpointer
      cases hpointer
    -- the pointer is the object of the device opened last, and no two devices share one
    | some last =>
      rw [h.hardware_eq hlast] at hpointer
      rw [h.created_ne _ _ _ hcreated hpointer]
  · intro hlast
    obtain ⟨hw, hcreated⟩ := Option.isSome_iff_exists.mp hopen
    exact ⟨hw, h.created_live _ _ hcreated, (h.hardware_eq hlast).trans hcreated, hcreated⟩

/-- A close hits another device exactly when that was opened last. -/
theorem close_keeps_iff (h : Owned s) (cameraid : Int) :
    (∀ other ≠ cameraid, ∀ hw, s.createdFor other = some hw → hw ∈ s.deleteHardware) ↔
      ∀ last ∈ s.lastOpened, last = cameraid := by
  constructor
  · intro hkeeps last hlast
    by_contra hne
    obtain ⟨hw, hcreated⟩ := Option.isSome_iff_exists.mp (h.last_open last hlast)
    have hpointer : s.hardware = some hw := (h.hardware_eq hlast).trans hcreated
    -- that device would have to keep the object that `delete` takes
    have hmem := hkeeps last hne hw hcreated
    rw [HalModule.deleteHardware, hpointer] at hmem
    exact h.live_nodup.not_mem_erase hmem
  · intro hlast other hne hw hcreated
    rw [HalModule.deleteHardware]
    cases hpointer : s.hardware with
    | none => exact h.created_live other hw hcreated
    | some hw' =>
      -- the object deleted is that of the device that is closed
      have hdelete : hw ≠ hw' := by
        rintro rfl
        cases hopened : s.lastOpened with
        | none =>
          rw [h.pointer, hopened] at hpointer
          cases hpointer
        | some last =>
          rw [h.hardware_eq hopened] at hpointer
          exact hne ((h.created_ne _ _ _ hcreated hpointer).trans (hlast last hopened))
      exact (List.mem_erase_of_ne hdelete).mpr (h.created_live other hw hcreated)

/-- A device that is opened gets an object of its own. -/
theorem newDevice (h : Owned s) (cameraid : Int) : Owned (s.newDevice cameraid) := by
  -- the new object's number has not been given out before
  have hfresh : s.nextHardware ∉ s.live := fun hmem => Nat.lt_irrefl _ (h.live_lt _ hmem)
  have hself (hw : Nat) (hcreated : (s.newDevice cameraid).createdFor cameraid = some hw) :
      hw = s.nextHardware := by
    rw [createdFor_newDevice, Function.update_self] at hcreated
    exact (Option.some.inj hcreated).symm
  have hold (other : Int) (hw : Nat) (hne : other ≠ cameraid)
      (hcreated : (s.newDevice cameraid).createdFor other = some hw) :
      s.createdFor other = some hw := by
    rwa [createdFor_newDevice, Function.update_of_ne hne] at hcreated
  refine ⟨List.nodup_cons.mpr ⟨hfresh, h.live_nodup⟩, ?_, ?_, ?_, ?_, ?_⟩
  · exact (Function.update_self cameraid (some s.nextHardware) s.createdFor).symm
  · intro last hlast
    cases hlast
    rw [HalModule.isOpen, createdFor_newDevice, Function.update_self, Option.isSome_some]
  · intro other hw hcreated
    by_cases hne : other = cameraid
    · subst hne
      rw [hself hw hcreated]
      exact List.mem_cons_self
    · exact List.mem_cons_of_mem _ (h.created_live other hw (hold other hw hne hcreated))
  · intro hw hmem
    rcases List.mem_cons.mp hmem with rfl | hmem
    · exact Nat.lt_succ_self _
    · exact Nat.lt_succ_of_lt (h.live_lt hw hmem)
  · -- two devices with one object: neither of them can be the new device
    intro other other' hw hcreated hcreated'
    -- the new object belongs to no other device
    have hnew (d : Int) (hd : s.createdFor d = some hw) : hw ≠ s.nextHardware := by
      rintro rfl
      exact hfresh (h.created_live d _ hd)
    by_cases hne : other = cameraid
    · subst hne
      by_cases hne' : other' = other
      · exact hne'.symm
      · exact absurd (hself hw hcreated) (hnew other' (hold other' hw hne' hcreated'))
    · by_cases hne' : other' = cameraid
      · subst hne'
        exact absurd (hself hw hcreated') (hnew other (hold other hw hne hcreated))
      · exact h.created_ne other other' hw (hold other hw hne hcreated)
          (hold other' hw hne' hcreated')

theorem cameraDeviceOpen (h : Owned s) (cameraid : Int) (deviceAllocated opsAllocated : Bool) :
    Owned (HalModule.cameraDeviceOpen (some cameraid) deviceAllocated opsAllocated s).2 := by
  rw [HalModule.cameraDeviceOpen]
  split_ifs
  · exact h
  · exact h
  · exact h
  · exact h.newDevice cameraid

/-- A close that keeps the other objects leaves every other device its own. -/
theorem cameraDeviceClose (h : Owned s) (cameraid : Int)
    (hlast : ∀ last ∈ s.lastOpened, last = cameraid) :
    Owned (HalModule.cameraDeviceClose cameraid s).2 := by
  have hsub : s.deleteHardware.Sublist s.live := by
    rw [HalModule.deleteHardware]
    split
    · exact List.Sublist.refl _
    · exact List.erase_sublist
  have hold (other : Int) (hw : Nat)
      (hcreated : Function.update s.createdFor cameraid none other = some hw) :
      other ≠ cameraid ∧ s.createdFor other = some hw := by
    by_cases hne : other = cameraid
    · rw [hne, Function.update_self] at hcreated
      cases hcreated
    · rw [Function.update_of_ne hne] at hcreated
      exact ⟨hne, hcreated⟩
  -- after a close the pointer is `NULL`, so no device was opened last
  refine ⟨h.live_nodup.sublist hsub, rfl, nofun, ?_, ?_, ?_⟩
  · intro other hw hcreated
    obtain ⟨hne, hcreated⟩ := hold other hw hcreated
    exact (h.close_keeps_iff cameraid).mpr hlast other hne hw hcreated
  · exact fun hw hmem => h.live_lt hw (hsub.subset hmem)
  · intro other other' hw hcreated hcreated'
    exact h.created_ne other other' hw (hold other hw hcreated).2 (hold other' hw hcreated').2

end Owned

/-! ## §5 Runs That Keep the Devices Apart -/

/-- One call keeps the devices apart exactly when it is made in the right order. -/
theorem devicesApart_iff {s : HalModule} (h : Owned s) (c : HalCall) :
    DevicesApart s c ↔ InOrder s c := by
  apply imp_congr_right
  intro hallowed
  cases c with
  | cameraDeviceOpen => exact Iff.rfl
  | cameraDeviceClose cameraid => exact h.close_keeps_iff cameraid
  | deviceOp cameraid op => exact imp_congr_right fun _ => h.reachesOwn_iff hallowed

/-- Such a call leaves every open device its object. -/
theorem owned_step {s t : HalModule} {c : HalCall} (h : Owned s) (horder : InOrder s c)
    (hstep : halMachine.step s c = some t) : Owned t := by
  rw [halMachine, Option.ite_none_right_eq_some, Option.some.injEq] at hstep
  obtain ⟨hallowed, rfl⟩ := hstep
  cases c with
  | cameraDeviceOpen cameraid deviceAllocated opsAllocated => exact h.cameraDeviceOpen _ _ _
  | cameraDeviceClose cameraid => exact h.cameraDeviceClose cameraid (horder hallowed)
  | deviceOp => exact h

/-- **Devices apart**: in a run of the module every operation reaches the object of its own
device, and every close leaves the other objects in place, exactly when every call of the
run is made in the right order. -/
theorem devices_apart_iff (calls : List HalCall) :
    halMachine.AllSteps DevicesApart HalModule.loaded calls ↔
      halMachine.AllSteps InOrder HalModule.loaded calls :=
  halMachine.allSteps_iff (fun _ c hs => devicesApart_iff hs c)
    (fun _ _ _ hs horder hstep => owned_step hs horder hstep) owned_loaded calls

/-- The preview of the first camera is started after the second camera has been opened. -/
def secondCameraOpened : List HalCall :=
  [.cameraDeviceOpen 0 true true, .cameraDeviceOpen 1 true true, .deviceOp 0 .startPreview]

/-- It is started on the object of the second. -/
theorem first_device_reaches_second :
    (halMachine.run HalModule.loaded secondCameraOpened).map
      (fun s => (s.hardware, s.createdFor 0, s.createdFor 1)) = some (some 1, some 0, some 1) ∧
    ¬halMachine.AllSteps DevicesApart HalModule.loaded secondCameraOpened := by
  refine ⟨by decide, fun h => ?_⟩
  obtain ⟨-, h⟩ := h
  obtain ⟨-, h⟩ := h _ rfl
  obtain ⟨hw, -, hpointer, hcreated⟩ := (h _ rfl).1 rfl rfl
  cases hpointer
  cases hcreated

end OdroidU2.Camera
