import OdroidU2.Ota.Script

/-!
# Running an Update Script

The recovery updater that executes a script on the device.  It is not part of the
repository; its commands behave as documented:

- `delete` ignores what is missing, and directories
- `apply_patch` accepts a file that is patched already
- `symlink` and `package_extract_dir` create the directories they need
- a command that fails aborts the script
-/

namespace OdroidU2.Ota

open OdroidU2.Foundations

/-! ## §1 The Device and Its Recovery -/

/-- What the updater relies on. -/
structure Recovery extends Tools where
  /-- A patch of the differ makes the target of the source. -/
  apply_compute : ∀ {name : FileName} {target source patch : Bytes},
    diff.computePatch name target source = some patch →
      diff.applyPatch patch source = some target
  /-- The value of `ro.build.fingerprint` in the contents of a `build.prop`. -/
  fingerprint : Bytes → Option String
  /-- Permissions of the directories and of the files it creates. -/
  dirPerm : Perm
  filePerm : Perm

/-- The output zip, as far as the updater reads it. -/
structure Package where
  /-- Everything below `system/`, in the order of the zip. -/
  system : List (FileName × Bytes)
  /-- The entries `patch/<name>.p`. -/
  patches : List (FileName × Bytes)
  deriving DecidableEq, Repr

/-- The device that runs the script. -/
structure Device where
  fs : DeviceTree
  /-- The boot partition. -/
  boot : Bytes
  /-- `ro.product.device` -/
  productDevice : String
  /-- What `/cache` has room for. -/
  cacheSpace : Nat

/-- A recovery whose digests are the contents, whose patches are whole files, and whose
`build.prop` holds the fingerprint and nothing else. -/
def plainRecovery : Recovery where
  sha1 := ⟨id, Function.injective_id⟩
  diff :=
    { computePatch := fun _ target _ => some target
      applyPatch := fun patch _ => some patch }
  apply_compute := Eq.symm
  fingerprint data := some (String.ofList (data.map fun b => Char.ofNat b.toNat))
  dirPerm := ⟨0, 0, 0o755⟩
  filePerm := ⟨0, 0, 0o644⟩

/-! ## §2 The Commands -/

/-- `delete`; a name that ends in a slash cannot be unlinked. -/
def deleteFile (fs : DeviceTree) (name : FileName) : DeviceTree :=
  if name.slash then fs else fs.unlink name.path

/-- One entry of `package_extract_dir`. -/
def extractEntry (rec : Recovery) (src dst : Path) (fs : DeviceTree) (entry : FileName × Bytes) :
    Option DeviceTree :=
  if src <+: entry.1.path then
    let path := dst ++ entry.1.path.drop src.length
    if entry.1.slash then fs.mkdirs rec.dirPerm path
    else fs.writeFile rec.dirPerm rec.filePerm path entry.2
  else some fs

/-- Patch `data` into what has the digest `tgtSha1`, unless it has that digest already. -/
def patchData (rec : Recovery) (pkg : Package) (data : Bytes) (tgtSha1 srcSha1 : Digest)
    (patch : FileName) : Option Bytes :=
  if rec.sha1.digest data = tgtSha1 then some data
  else if rec.sha1.digest data = srcSha1 then do
    let blob ← (pkg.patches.find? fun e => e.1 = patch).map Prod.snd
    let new ← rec.diff.applyPatch blob data
    if rec.sha1.digest new = tgtSha1 then some new else none
  else none

/-- Whatever the patch makes has the digest of the target. -/
theorem digest_patchData {rec : Recovery} {pkg : Package} {data new : Bytes}
    {tgtSha1 srcSha1 : Digest} {patch : FileName}
    (h : patchData rec pkg data tgtSha1 srcSha1 patch = some new) :
    rec.sha1.digest new = tgtSha1 := by
  unfold patchData at h
  -- the data is the target's already, or the patch has made it so
  split_ifs at h with htarget hsource
  · rw [← Option.some.inj h]
    exact htarget
  · obtain ⟨blob, -, h⟩ := Option.bind_eq_some_iff.mp h
    obtain ⟨made, -, h⟩ := Option.bind_eq_some_iff.mp h
    split_ifs at h with hmade
    rw [← Option.some.inj h]
    exact hmade

/-- The source or the target becomes the target, if the zip has the patch between them. -/
theorem patchData_eq {rec : Recovery} {pkg : Package} {name : FileName}
    {data target source patch : Bytes} (hdata : data = source ∨ data = target)
    (hpatch : rec.diff.computePatch name target source = some patch)
    (hfind : (pkg.patches.find? fun e => e.1 = name).map Prod.snd = some patch) :
    patchData rec pkg data (rec.sha1.digest target) (rec.sha1.digest source) name =
      some target := by
  rw [patchData]
  by_cases heq : rec.sha1.digest data = rec.sha1.digest target
  · -- patched by an earlier run
    rw [if_pos heq, rec.sha1.injective heq]
  · have hsource : data = source :=
      hdata.resolve_right fun h => heq (congrArg rec.sha1.digest h)
    have happly := rec.apply_compute hpatch
    rw [if_neg heq, if_pos (by rw [hsource]), hfind, hsource]
    simp only [Option.bind_eq_bind, Option.bind_some, happly, if_true]

/-- The contents of the file a path leads to. -/
def readFile (fs : DeviceTree) (path : Path) : Option (Bytes × Perm) :=
  match fs.lookup path with
  | some (.file data perm) => some (data, perm)
  | _ => none

/-- Write the patched file under its name, with the permissions it had. -/
def replaceFile (fs : DeviceTree) (path : Path) (data : Bytes) (perm : Perm) : Option DeviceTree :=
  (fs.resolveParent path).map fun q => Function.update fs q (some (.file data perm))

/-- What a command does to the file system of the device. -/
def execTree (rec : Recovery) (pkg : Package) (fs : DeviceTree) : Cmd → Option DeviceTree
  | .assertSomeFingerprint fp => do
    let (data, _) ← readFile fs ["system", "build.prop"]
    let value ← rec.fingerprint data
    if value ∈ fp then some fs else none
  | .patchCheck (.file path) sha1s => do
    let (data, _) ← readFile fs path
    if rec.sha1.digest data ∈ sha1s then some fs else none
  | .formatPartition partition =>
    some fun q => if partition <+: q ∧ q ≠ partition then none else fs q
  | .deleteFiles names => some (names.foldl deleteFile fs)
  | .applyPatch (.file path) _ tgtSha1 srcSha1 patch => do
    let (data, perm) ← readFile fs path
    let new ← patchData rec pkg data tgtSha1 srcSha1 patch
    if new = data then some fs else replaceFile fs path new perm
  | .unpackPackageDir src dst => pkg.system.foldlM (extractEntry rec src dst) fs
  | .symlink dest link => fs.symlink rec.dirPerm dest link
  | .setPermissions name uid gid mode => fs.setPerm ⟨uid, gid, mode⟩ name
  | .setPermissionsRecursive name uid gid dmode fmode =>
    fs.setPermRecursive ⟨uid, gid, dmode⟩ ⟨uid, gid, fmode⟩ name
  | _ => some fs

/-- What a command does to the boot partition. -/
def execBoot (rec : Recovery) (pkg : Package) (boot : Bytes) : Cmd → Option Bytes
  | .patchCheck (.partition _ _ _ sourceSha1 _ targetSha1) _ =>
    if rec.sha1.digest boot = sourceSha1 ∨ rec.sha1.digest boot = targetSha1 then some boot
    else none
  | .applyPatch (.partition ..) _ tgtSha1 srcSha1 patch =>
    patchData rec pkg boot tgtSha1 srcSha1 patch
  | _ => some boot

/-- The conditions a command checks that no command changes. -/
def Device.Allows (d : Device) : Cmd → Prop
  | .assertDevice device => d.productDevice = device
  | .cacheFreeSpaceCheck amount => amount ≤ d.cacheSpace
  | _ => True

instance (d : Device) (c : Cmd) : Decidable (d.Allows c) := by
  unfold Device.Allows
  induction c using Cmd.casesOn <;> infer_instance

/-- Execute one command; `none` aborts the script. -/
def exec (rec : Recovery) (pkg : Package) (d : Device) (c : Cmd) : Option Device :=
  if d.Allows c then do
    let fs ← execTree rec pkg d.fs c
    let boot ← execBoot rec pkg d.boot c
    some { d with fs := fs, boot := boot }
  else none

/-- Execute a script. -/
def runScript (rec : Recovery) (pkg : Package) (d : Device) (script : List Cmd) : Option Device :=
  script.foldlM (exec rec pkg) d

/-- What a script does to the file system alone. -/
def runTree (rec : Recovery) (pkg : Package) (fs : DeviceTree) (script : List Cmd) :
    Option DeviceTree :=
  script.foldlM (execTree rec pkg) fs

/-- What a script does to the boot partition alone. -/
def runBoot (rec : Recovery) (pkg : Package) (boot : Bytes) (script : List Cmd) : Option Bytes :=
  script.foldlM (execBoot rec pkg) boot

/-! ## §3 The Parts of a Run -/

section Runs

variable (rec : Recovery) (pkg : Package)

@[simp] theorem runTree_nil (fs : DeviceTree) : runTree rec pkg fs [] = some fs := rfl

@[simp] theorem runTree_cons (fs : DeviceTree) (c : Cmd) (script : List Cmd) :
    runTree rec pkg fs (c :: script) =
      (execTree rec pkg fs c).bind fun fs => runTree rec pkg fs script :=
  rfl

theorem runTree_append (fs : DeviceTree) (script script' : List Cmd) :
    runTree rec pkg fs (script ++ script') =
      (runTree rec pkg fs script).bind fun fs => runTree rec pkg fs script' :=
  List.foldlM_append

@[simp] theorem runBoot_cons (boot : Bytes) (c : Cmd) (script : List Cmd) :
    runBoot rec pkg boot (c :: script) =
      (execBoot rec pkg boot c).bind fun boot => runBoot rec pkg boot script :=
  rfl

/-- The file system and the boot partition do not depend on each other: a script runs to
its end when both parts do, and every command is allowed. -/
theorem runScript_eq_some_iff {d d' : Device} {script : List Cmd} :
    runScript rec pkg d script = some d' ↔
      (∀ c ∈ script, d.Allows c) ∧ runTree rec pkg d.fs script = some d'.fs ∧
        runBoot rec pkg d.boot script = some d'.boot ∧
        d'.productDevice = d.productDevice ∧ d'.cacheSpace = d.cacheSpace := by
  -- command by command: the tree and the boot partition do not see each other
  induction script generalizing d with
  | nil =>
    obtain ⟨fs, boot, productDevice, cacheSpace⟩ := d
    obtain ⟨fs', boot', productDevice', cacheSpace'⟩ := d'
    simp only [runScript, runTree, runBoot, List.foldlM_nil, Option.pure_def, Option.some.injEq,
      Device.mk.injEq, List.not_mem_nil, false_implies, implies_true, true_and]
    exact ⟨fun ⟨h1, h2, h3, h4⟩ => ⟨h1, h2, h3.symm, h4.symm⟩,
      fun ⟨h1, h2, h3, h4⟩ => ⟨h1, h2, h3.symm, h4.symm⟩⟩
  | cons c script ih =>
    have hcons : runScript rec pkg d (c :: script) =
        (exec rec pkg d c).bind fun d => runScript rec pkg d script := rfl
    rw [hcons, runTree_cons, runBoot_cons, List.forall_mem_cons, exec]
    by_cases hc : d.Allows c
    · rw [if_pos hc]
      cases hfs : execTree rec pkg d.fs c with
      | none => simp
      | some fs =>
        cases hboot : execBoot rec pkg d.boot c with
        | none => simp
        | some boot =>
          have hallow : ∀ x : Cmd, Device.Allows { d with fs := fs, boot := boot } x ↔ d.Allows x :=
            fun x => by cases x <;> rfl
          simp only [Option.bind_eq_bind, Option.bind_some, ih, hallow, hc, true_and]
    · simp [hc]

end Runs

end OdroidU2.Ota
