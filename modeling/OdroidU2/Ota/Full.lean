import OdroidU2.Foundations.Segments
import OdroidU2.Ota.Incremental

/-!
# `WriteFullOTAPackage`

The generator of full packages, and the updater on what only a full script asks of it: a
single file of the package written to `/tmp`, and a program that is run.  `installboot.sh`
copies the kernel and the ramdisk to fixed places of the flash, outside every partition.

The device-specific hooks and the extra script are empty.
-/

namespace OdroidU2.Ota

open OdroidU2.Foundations

/-! ## §1 Options and Builds -/

/-- `OPTIONS`, as far as a full package depends on it. -/
structure FullOptions extends Options where
  backuptool : Bool := false

/-- A target-files package with the files that are read beside it. -/
structure FullBuild extends Build where
  /-- `BOOT/kernel` -/
  kernel : Bytes
  /-- `BOOT/ramdisk.img` -/
  ramdisk : Bytes
  /-- `$OUT/installboot.sh` -/
  installScript : Bytes
  /-- `selinux_fc` of the info dictionary, with the contents of that file. -/
  selinuxFc : Option (Path × Bytes)

/-! ## §2 The Script -/

/-- The commands of a full script. -/
inductive FullCmd where
  | base (c : Cmd)
  | unmount (mountPoint : Path)
  | unmountAll
  | runBackup (command : String)
  | packageExtractFile (entry : String) (dest : Path)
  | runProgram (program : Path)
  deriving DecidableEq, Repr

/-- `/tmp/ramdisk-uboot.img` -/
def ramdiskPath : Path := ["tmp", "ramdisk-uboot.img"]

/-- `/tmp/kernel` -/
def kernelPath : Path := ["tmp", "kernel"]

/-- `/tmp/installboot.sh` -/
def installbootPath : Path := ["tmp", "installboot.sh"]

/-- `if OPTIONS.backuptool` at the start. -/
def backupCmds (opts : FullOptions) : List FullCmd :=
  if opts.backuptool then
    [.base (.mount ["system"]), .runBackup "backup", .unmount ["system"]]
  else []

/-- `if OPTIONS.wipe_user_data` -/
def wipeCmds (opts : FullOptions) : List FullCmd :=
  if opts.wipeUserData then [.base (.formatPartition ["data"])] else []

/-- Format `/system` and fill it. -/
def systemCmds (symlinks : List (LinkDest String × Path)) (permissions : List Cmd) : List Cmd :=
  [.formatPartition ["system"], .mount ["system"], .unpackPackageDir ["system"] ["system"]] ++
    makeSymlinksCmds symlinks ++ permissions

/-- `if OPTIONS.backuptool` at the end. -/
def restoreCmds (opts : FullOptions) : List FullCmd :=
  if opts.backuptool then [.runBackup "restore"] else []

/-- What is appended to `script.script` by hand. -/
def installbootCmds : List FullCmd :=
  [.packageExtractFile "ramdisk-uboot.img" ramdiskPath,
    .packageExtractFile "kernel" kernelPath,
    .packageExtractFile "installboot.sh" installbootPath,
    .base (.setPermissions installbootPath 0 0 0o777),
    .runProgram installbootPath]

/-! ## §3 The Package -/

/-- The output zip of a full package. -/
structure FullPackage extends Package where
  /-- The entries at the top of the zip. -/
  files : List (String × Bytes)
  deriving DecidableEq, Repr

/-- `WritePolicyConfig`: the policy goes into the zip under its `basename`. -/
def policyFile (selinuxFc : Option (Path × Bytes)) : List (String × Bytes) :=
  (selinuxFc.map fun f => (f.1.getLast?.getD "", f.2)).toList

/-- What `WriteFullOTAPackage` produces. -/
structure FullOutput where
  script : List FullCmd
  package : FullPackage
  metadata : List (String × String)

/-- `WriteFullOTAPackage` -/
def writeFullOTAPackage (order : DictOrder) (opts : FullOptions) (build : FullBuild) :
    Except PyError FullOutput := do
  let postBuild ← getBuildProp "ro.build.fingerprint" build.buildProp
  let preDevice ← getBuildProp "ro.product.device" build.buildProp
  let postTimestamp ← getBuildProp "ro.build.date.utc" build.buildProp
  let device ← assertedDevice opts.toOptions build.toBuild
  let (symlinks, items) ← copySystemFiles build.system Dict.empty
  let items := getMetadata items build.metadata
  let permissions ← setSystemPermissions order items
  return {
    script :=
      .base (.assertDevice device) :: backupCmds opts ++ wipeCmds opts ++
      (systemCmds symlinks permissions).map .base ++ restoreCmds opts ++ installbootCmds ++
      [.unmountAll]
    package :=
      { system := build.system.filterMap loadEntry
        patches := []
        files := policyFile build.selinuxFc ++ [("kernel", build.kernel),
          ("ramdisk-uboot.img", build.ramdisk), ("installboot.sh", build.installScript)] }
    metadata := [("post-build", postBuild), ("pre-device", preDevice),
      ("post-timestamp", postTimestamp)] }

/-! ## §4 The Updater -/

/-- `dd conv=notrunc seek=<seek> bs=1 if=<input> of=/dev/block/mmcblk0` -/
structure Dd where
  seek : Nat
  input : Path
  deriving DecidableEq, Repr

/-- `installboot.sh` -/
def installboot : List Dd := [⟨1256960, kernelPath⟩, ⟨9645568, ramdiskPath⟩]

/-- What a full script relies on. -/
structure Installer extends Recovery where
  /-- What `backuptool.sh` does to the device. -/
  backup : (command : String) → DeviceTree → DeviceTree
  /-- The commands the shell finds in a script of `dd` commands. -/
  shell : Bytes → List Dd

/-- A device with its flash. -/
structure FullDevice extends Device where
  /-- `/dev/block/mmcblk0`, byte by byte. -/
  flash : Nat → UInt8
  flashSize : Nat

/-- `package_extract_file`, which makes no directories and ignores errors. -/
def extractFile (rec : Recovery) (pkg : FullPackage) (fs : DeviceTree) (entry : String)
    (dest : Path) : DeviceTree :=
  match pkg.files.find? fun f => f.1 = entry, fs.resolve dest with
  | some f, some q =>
    match fs q with
    | none => Function.update fs q (some (.file f.2 rec.filePerm))
    | some (.file _ perm) => Function.update fs q (some (.file f.2 perm))
    | some _ => fs
  | _, _ => fs

/-- May the program be run? -/
def Executable (perm : Perm) : Prop := perm.mode.toNat &&& 0o111 ≠ 0

instance (perm : Perm) : Decidable (Executable perm) := by
  unfold Executable
  infer_instance

/-- One `dd`: a missing input writes nothing, and nothing is written behind the end. -/
def runDd (size : Nat) (fs : DeviceTree) (flash : Nat → UInt8) (c : Dd) : Nat → UInt8 :=
  match readFile fs c.input with
  | none => flash
  | some (data, _) => writeSegment size c.seek data flash

/-- `run_program`, whose exit status is ignored. -/
def runProgram (inst : Installer) (d : FullDevice) (program : Path) : FullDevice :=
  match readFile d.fs program with
  | none => d
  | some (data, perm) =>
    if Executable perm then
      { d with flash := (inst.shell data).foldl (runDd d.flashSize d.fs) d.flash }
    else d

/-- Execute one command of a full script. -/
def execFull (inst : Installer) (pkg : FullPackage) (d : FullDevice) :
    FullCmd → Option FullDevice
  | .base c => (exec inst.toRecovery pkg.toPackage d.toDevice c).map fun d' =>
    { d with toDevice := d' }
  | .unmount _ => some d
  | .unmountAll => some d
  | .runBackup command => some { d with fs := inst.backup command d.fs }
  | .packageExtractFile entry dest =>
    some { d with fs := extractFile inst.toRecovery pkg d.fs entry dest }
  | .runProgram program => some (runProgram inst d program)

/-- Execute a full script. -/
def runFull (inst : Installer) (pkg : FullPackage) (d : FullDevice) (script : List FullCmd) :
    Option FullDevice :=
  script.foldlM (execFull inst pkg) d

section

variable (inst : Installer) (pkg : FullPackage) (d : FullDevice)

@[simp] theorem runFull_nil : runFull inst pkg d [] = some d := rfl

@[simp] theorem runFull_cons (c : FullCmd) (script : List FullCmd) :
    runFull inst pkg d (c :: script) =
      (execFull inst pkg d c).bind fun d => runFull inst pkg d script := rfl

theorem runFull_append (script script' : List FullCmd) :
    runFull inst pkg d (script ++ script') =
      (runFull inst pkg d script).bind fun d => runFull inst pkg d script' :=
  List.foldlM_append

end

end OdroidU2.Ota
