import Mathlib
import OdroidU2.Ota.TargetFiles
import OdroidU2.Ota.Updater

/-!
# `WriteIncrementalOTAPackage`

The generator of incremental packages: it classifies the files of the target build, adds
patches and whole files to the output zip, and appends the commands of the script.

The device-specific hooks and the extra script are empty.  The script is put together
from its parts, each under the loop of the source that appends it.
-/

namespace OdroidU2.Ota

open OdroidU2.Foundations

/-! ## §1 Options -/

/-- `OPTIONS`, as far as an incremental package depends on it. -/
structure Options where
  requireVerbatim : List FileName := []
  prohibitVerbatim : List FileName := [.plain ["system", "build.prop"]]
  patchThreshold : ℚ := 95 / 100
  wipeUserData : Bool := false
  /-- `None` for `auto` -/
  overrideDevice : Option String := none
  /-- `GetTypeAndDevice("/boot", OPTIONS.info_dict)` -/
  bootType : String
  bootDevice : String

/-- `system/build.prop` -/
def buildPropName : FileName := .plain ["system", "build.prop"]

/-! ## §2 Which Files Are Patched -/

/-- An item of `patch_list`. -/
structure PatchEntry where
  name : FileName
  target : Bytes
  source : Bytes
  patch : Bytes
  deriving DecidableEq, Repr

/-- `verbatim_targets` with the data that goes into the zip, and `diffs`. -/
structure Classified where
  verbatim : List (FileName × Bytes)
  diffs : List (FileName × Bytes × Bytes)

/-- The order of names in `sorted`. -/
def nameLe (a b : FileName) : Prop := a.text ≤ b.text

instance : DecidableRel nameLe := fun a b => by unfold nameLe; infer_instance

/-- `sorted(d.keys())` -/
def sortedKeys (d : Dict FileName Bytes) : List FileName := d.keys.insertionSort nameLe

/-- One file of the target build. -/
def classifyFile (tools : Tools) (opts : Options) (sourceData : Dict FileName Bytes)
    (acc : Classified) (fn : FileName) (tf : Bytes) : Except PyError Classified :=
  let verbatim := acc.verbatim ++ [(fn, tf)]
  match sourceData.get? fn with
  | none =>
    if fn ∈ opts.prohibitVerbatim then
      .error (.externalError ("\"" ++ fn.text ++ "\" must be sent verbatim"))
    else .ok { acc with verbatim := verbatim }
  | some sf =>
    if fn ∈ opts.requireVerbatim then
      if fn ∈ opts.prohibitVerbatim then
        .error (.externalError ("\"" ++ fn.text ++ "\" must be sent verbatim"))
      else .ok { acc with verbatim := verbatim }
    else if tools.sha1.digest tf ≠ tools.sha1.digest sf then
      .ok { acc with diffs := acc.diffs ++ [(fn, tf, sf)] }
    else .ok acc

/-- The loop over `sorted(target_data.keys())`. -/
def classify (tools : Tools) (opts : Options) (targetData sourceData : Dict FileName Bytes) :
    Except PyError Classified :=
  (sortedKeys targetData).foldlM (fun acc fn =>
    match targetData.get? fn with
    | none => .error .keyError
    | some tf => classifyFile tools opts sourceData acc fn tf) ⟨[], []⟩

/-- `d is None or len(d) > tf.size * OPTIONS.patch_threshold` -/
def SendWhole (opts : Options) (tf : Bytes) : Option Bytes → Prop
  | none => True
  | some d => (d.length : ℚ) > tf.length * opts.patchThreshold

instance (opts : Options) (tf : Bytes) (d : Option Bytes) : Decidable (SendWhole opts tf d) := by
  unfold SendWhole
  split <;> infer_instance

/-- `patch_list`: the diffs that are worth a patch. -/
def patchList (tools : Tools) (opts : Options) (diffs : List (FileName × Bytes × Bytes)) :
    List PatchEntry :=
  diffs.filterMap fun (fn, tf, sf) =>
    match tools.diff.computePatch fn tf sf with
    | some d => if SendWhole opts tf (some d) then none else some ⟨fn, tf, sf, d⟩
    | none => none

/-- The diffs that are sent whole after all. -/
def sentWhole (tools : Tools) (opts : Options) (diffs : List (FileName × Bytes × Bytes)) :
    List (FileName × Bytes) :=
  (diffs.filter fun (fn, tf, sf) => SendWhole opts tf (tools.diff.computePatch fn tf sf)).map
    fun (fn, tf, _) => (fn, tf)

/-- What the classification decides. -/
structure Plan where
  verbatimTargets : List (FileName × Bytes)
  patchList : List PatchEntry
  targetData : Dict FileName Bytes
  sourceData : Dict FileName Bytes

/-- The classification of the files of two builds. -/
def makePlan (tools : Tools) (opts : Options) (target source : List ZipEntry) :
    Except PyError Plan := do
  let targetData := loadSystemFiles target
  let sourceData := loadSystemFiles source
  let c ← classify tools opts targetData sourceData
  return {
    verbatimTargets := c.verbatim ++ sentWhole tools opts c.diffs
    patchList := patchList tools opts c.diffs
    targetData := targetData
    sourceData := sourceData }

/-- `largest_source_size` -/
def Plan.largestSourceSize (plan : Plan) : Nat :=
  plan.patchList.foldl (fun m e => max m e.source.length) 0

/-! ## §3 The Boot Image -/

/-- The boot images when they differ, with the patch between them. -/
structure BootUpdate where
  source : Bytes
  target : Bytes
  patch : Bytes

/-- `boot.img`, also of `patch/boot.img.p` -/
def bootPatchName : FileName := .plain ["boot.img"]

/-- `len(d)` fails when the differ finds no patch. -/
def bootUpdate (tools : Tools) (target source : Bytes) : Except PyError (Option BootUpdate) :=
  if source = target then .ok none
  else match tools.diff.computePatch bootPatchName target source with
    | none => .error .typeError
    | some patch => .ok (some ⟨source, target, patch⟩)

/-- `"%s:%s:%d:%s:%d:%s" % (boot_type, boot_device, ...)` -/
def BootUpdate.partition (tools : Tools) (opts : Options) (b : BootUpdate) : PatchTarget :=
  .partition opts.bootType opts.bootDevice b.source.length (tools.sha1.digest b.source)
    b.target.length (tools.sha1.digest b.target)

/-! ## §4 The Parts of the Script -/

section Parts

variable (tools : Tools) (opts : Options) (plan : Plan)

/-- `script.PatchCheck("/"+fn, tf.sha1, sf.sha1)` -/
def patchCheckCmd (e : PatchEntry) : Cmd :=
  .patchCheck (.file e.name.path) [tools.sha1.digest e.target, tools.sha1.digest e.source]

/-- `script.ApplyPatch("/"+fn, "-", tf.size, tf.sha1, sf.sha1, "patch/"+fn+".p")` -/
def applyPatchCmd (e : PatchEntry) : Cmd :=
  .applyPatch (.file e.name.path) e.target.length (tools.sha1.digest e.target)
    (tools.sha1.digest e.source) e.name

/-- The commands up to the first change. -/
def verifyCmds (sourceFp targetFp device : String) (boot : Option BootUpdate)
    (updatingRecovery : Bool) : List Cmd :=
  [.mount ["system"], .assertSomeFingerprint [sourceFp, targetFp], .assertDevice device,
    .print "Verifying current system..."] ++
  plan.patchList.map (patchCheckCmd tools) ++
  (boot.map fun b => Cmd.patchCheck (b.partition tools opts) []).toList ++
  (if plan.patchList ≠ [] ∨ updatingRecovery ∨ boot.isSome then
    [.cacheFreeSpaceCheck plan.largestSourceSize] else []) ++
  [.comment "---- start making changes here ----"]

/-- The names `script.DeleteFiles` is given first. -/
def unneededFiles : List FileName :=
  plan.verbatimTargets.map Prod.fst ++
    (sortedKeys plan.sourceData).filter (fun fn => fn ∉ plan.targetData.keys) ++
    [.plain ["system", "recovery.img"]]

/-- Erase user data, and remove unneeded files. -/
def removeCmds : List Cmd :=
  (if opts.wipeUserData then [.print "Erasing user data...", .formatPartition ["data"]] else []) ++
  .print "Removing unneeded files..." :: deleteFilesCmds (unneededFiles plan)

/-- Patch all system files but `build.prop`. -/
def patchCmds : List Cmd :=
  .print "Patching system files..." ::
    (plan.patchList.filter fun e => e.name ≠ buildPropName).map (applyPatchCmd tools)

/-- Patch the boot image. -/
def bootCmds (boot : Option BootUpdate) : List Cmd :=
  match boot with
  | none => []
  | some b => [.print "Patching boot image...",
      .applyPatch (b.partition tools opts) b.target.length (tools.sha1.digest b.target)
        (tools.sha1.digest b.source) bootPatchName]

/-- `MakeRecoveryPatch` brings its own files. -/
def recoveryCmds (updatingRecovery : Bool) : List Cmd :=
  if updatingRecovery then
    [.deleteFiles [.plain ["system", "recovery-from-boot.p"],
      .plain ["system", "etc", "install-recovery.sh"]]]
  else []

/-- `to_delete` -/
def symlinksToDelete (sourceSymlinks targetSymlinks : List (LinkDest String × Path)) :
    List FileName :=
  let targetDict := Dict.ofList (targetSymlinks.map fun s => (s.2, s.1))
  (sourceSymlinks.filter fun s => s.2 ∉ targetDict.keys).map fun s => .plain s.2

/-- `to_create` -/
def symlinksToCreate (sourceSymlinks targetSymlinks : List (LinkDest String × Path)) :
    List (LinkDest String × Path) :=
  let sourceDict := Dict.ofList (sourceSymlinks.map fun s => (s.2, s.1))
  targetSymlinks.filter fun s => sourceDict.get? s.2 ≠ some s.1

/-- Unpack whole files, and bring the symbolic links up to date. -/
def unpackCmds (sourceSymlinks targetSymlinks : List (LinkDest String × Path)) : List Cmd :=
  let toCreate := symlinksToCreate sourceSymlinks targetSymlinks
  deleteFilesCmds (symlinksToDelete sourceSymlinks targetSymlinks) ++
  (if plan.verbatimTargets ≠ [] then
    [.print "Unpacking new files...", .unpackPackageDir ["system"] ["system"]] else []) ++
  .print "Symlinks and permissions..." ::
    (deleteFilesCmds (toCreate.map fun s => .plain s.2) ++ makeSymlinksCmds toCreate)

/-- Patch `build.prop` last. -/
def finishCmds : List Cmd :=
  .print "Patching remaining system files..." ::
    ((plan.patchList.filter fun e => e.name = buildPropName).map (applyPatchCmd tools) ++
      [.setPermissions ["system", "build.prop"] 0 0 0o644])

end Parts

/-! ## §5 The Package -/

/-- What `WriteIncrementalOTAPackage` produces: the script, the entries of the output zip
and the metadata. -/
structure Output where
  script : List Cmd
  package : Package
  metadata : List (String × String)

/-- The device `AppendAssertions` asserts. -/
def assertedDevice (opts : Options) (target : Build) : Except PyError String :=
  match opts.overrideDevice with
  | none => getBuildProp "ro.product.device" target.buildProp
  | some device => .ok device

/-- The Items that exist before `CopySystemFiles`. -/
def recoveryItems (updatingRecovery : Bool) : Except PyError Items :=
  if updatingRecovery then do
    let items ← getItem Dict.empty ["system", "recovery-from-boot.p"] false
    getItem items ["system", "etc", "install-recovery.sh"] false
  else .ok Dict.empty

/-- The permission commands, with the Items they come from. -/
def permissionCmds (order : DictOrder) (target : Build) (updatingRecovery : Bool) :
    Except PyError (List Cmd × Items) := do
  let items ← recoveryItems updatingRecovery
  let (_, items) ← copySystemFiles target.system items
  let items := getMetadata items target.metadata
  return (← setSystemPermissions order items, items)

/-- `WriteIncrementalOTAPackage`.  Whether the recovery image changes is computed from
images the source never builds; `updatingRecovery` stands for that expression. -/
def writeIncrementalOTAPackage (tools : Tools) (order : DictOrder) (opts : Options)
    (target source : Build) (updatingRecovery : Except PyError Bool) : Except PyError Output := do
  let preDevice ← getBuildProp "ro.product.device" source.buildProp
  let postTimestamp ← getBuildProp "ro.build.date.utc" target.buildProp
  let plan ← makePlan tools opts target.system source.system
  let sourceFp ← getBuildProp "ro.build.fingerprint" source.buildProp
  let targetFp ← getBuildProp "ro.build.fingerprint" target.buildProp
  let updatingRecovery ← updatingRecovery
  let device ← assertedDevice opts target
  let boot ← bootUpdate tools target.boot source.boot
  let (permissions, items) ← permissionCmds order target updatingRecovery
  let (sourceSymlinks, _) ← copySystemFiles source.system items
  let targetSymlinks := symlinksOf target.system
  return {
    script :=
      verifyCmds tools opts plan sourceFp targetFp device boot updatingRecovery ++
      removeCmds opts plan ++ patchCmds tools plan ++ bootCmds tools opts boot ++
      recoveryCmds updatingRecovery ++ unpackCmds plan sourceSymlinks targetSymlinks ++
      permissions ++ finishCmds tools plan
    package :=
      { system := plan.verbatimTargets
        patches := plan.patchList.map (fun e => (e.name, e.patch)) ++
          (boot.map fun b => (bootPatchName, b.patch)).toList }
    metadata := [("pre-device", preDevice), ("post-timestamp", postTimestamp),
      ("pre-build", sourceFp), ("post-build", targetFp)] }

end OdroidU2.Ota
