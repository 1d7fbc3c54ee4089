import OdroidU2.Foundations.FileTree

/-!
# The Commands of an Update Script

What `odroid_ota_from_target_files` asks the edify generator to append.  A script is a
list of commands; `SetProgress` and `ShowProgress`, which only move a bar, are left out.

Paths are lists of names from the root of the device, without the leading slash: the
name `system/bin/sh` of the source is `["system", "bin", "sh"]`.
-/

namespace OdroidU2.Ota

open OdroidU2.Foundations

/-! ## §1 Names and Contents -/

/-- A path of the device. -/
abbrev Path := List String

/-- The contents of a file. -/
abbrev Bytes := List UInt8

/-- A SHA-1 digest. -/
abbrev Digest := List UInt8

instance : LawfulBEq Path := inferInstance

instance : LawfulBEq Digest := inferInstance

/-- Owner, group and mode. -/
structure Perm where
  uid : Int
  gid : Int
  mode : Int
  deriving DecidableEq, Repr

/-- The file system of the device. -/
abbrev DeviceTree := FileTree String Bytes Perm

/-- A file name of the script generator: `fn`, which ends in a slash for a directory. -/
structure FileName where
  path : Path
  slash : Bool
  deriving DecidableEq, Repr

/-- The name of a file that is not a directory. -/
def FileName.plain (path : Path) : FileName := ⟨path, false⟩

/-- The text of a path, with a slash between the names. -/
def pathText (path : Path) : String := "/".intercalate path

/-- The text of a name, by which names are sorted. -/
def FileName.text (name : FileName) : String :=
  if name.slash then pathText name.path ++ "/" else pathText name.path

/-! ## §2 What the Generator and the Updater Share -/

/-- SHA-1, assumed free of collisions. -/
structure Sha1 where
  digest : Bytes → Digest
  injective : Function.Injective digest

/-- The binary differ and its patcher. -/
structure DiffTool where
  /-- `ComputePatch`: the differ, which the name of the file selects, may find no patch. -/
  computePatch : (name : FileName) → (target source : Bytes) → Option Bytes
  applyPatch : (patch source : Bytes) → Option Bytes

/-- The digests and patches of both sides. -/
structure Tools where
  sha1 : Sha1
  diff : DiffTool

/-! ## §3 Commands -/

/-- What `apply_patch` and its check work on. -/
inductive PatchTarget where
  | file (path : Path)
  /-- A partition, with the size and digest of its source and of its target image. -/
  | partition (kind device : String) (sourceSize : Nat) (sourceSha1 : Digest)
      (targetSize : Nat) (targetSha1 : Digest)
  deriving DecidableEq, Repr

/-- The commands of a script. -/
inductive Cmd where
  | mount (mountPoint : Path)
  | assertSomeFingerprint (fp : List String)
  | assertDevice (device : String)
  | print (message : String)
  | comment (message : String)
  | patchCheck (target : PatchTarget) (sha1s : List Digest)
  | cacheFreeSpaceCheck (amount : Nat)
  | formatPartition (partition : Path)
  | deleteFiles (names : List FileName)
  | applyPatch (target : PatchTarget) (tgtSize : Nat) (tgtSha1 srcSha1 : Digest)
      (patch : FileName)
  | unpackPackageDir (src dst : Path)
  | symlink (dest : LinkDest String) (link : Path)
  | setPermissions (name : Path) (uid gid mode : Int)
  | setPermissionsRecursive (name : Path) (uid gid dmode fmode : Int)
  deriving DecidableEq, Repr

/-- The path a permission command names. -/
def Cmd.permPath? : Cmd → Option Path
  | .setPermissions name _ _ _ => some name
  | .setPermissionsRecursive name _ _ _ _ => some name
  | _ => none

/-- `script.DeleteFiles`, which appends nothing for an empty list. -/
def deleteFilesCmds (names : List FileName) : List Cmd :=
  if names = [] then [] else [.deleteFiles names]

theorem mem_deleteFilesCmds_iff {names : List FileName} {c : Cmd} :
    c ∈ deleteFilesCmds names ↔ names ≠ [] ∧ c = .deleteFiles names := by
  rw [deleteFilesCmds]
  split
  · next hnil => simp [hnil]
  · next hnil => simp [hnil]

/-- `script.MakeSymlinks` -/
def makeSymlinksCmds (symlinks : List (LinkDest String × Path)) : List Cmd :=
  symlinks.map fun s => .symlink s.1 s.2

theorem mem_makeSymlinksCmds_iff {symlinks : List (LinkDest String × Path)} {c : Cmd} :
    c ∈ makeSymlinksCmds symlinks ↔ ∃ s ∈ symlinks, c = .symlink s.1 s.2 := by
  simp only [makeSymlinksCmds, List.mem_map, eq_comm (a := c)]

end OdroidU2.Ota
