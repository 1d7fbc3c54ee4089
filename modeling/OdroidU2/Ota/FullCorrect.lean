import Mathlib
import OdroidU2.Foundations.Throughout
import OdroidU2.Ota.FullTree

/-!
# A Full Package Makes the Build on Any Device

A full script does not ask what the device holds: all it needs is a mount point for `/system`
and a directory `/tmp`.

Main results:

- `full_makes_build` — the script runs to its end, and leaves the build below `/system` and
  the kernel and the ramdisk in the flash
- `full_restarts` — cut off after any command and started again, it ends the same
- `kernel_intact_iff` — when the ramdisk does not overwrite the kernel
-/

namespace OdroidU2.Ota

open OdroidU2.Foundations FileTree

/-! ## §1 Ready Devices -/

/-- The files that are extracted to `/tmp`. -/
def stagedPaths : List Path := [ramdiskPath, kernelPath, installbootPath]

/-- A tree with a mount point for `/system`, a directory `/tmp`, and no directory or link
where files are extracted to. -/
structure Ready (fs : DeviceTree) : Prop where
  tree : Treelike fs
  system : DirAt fs ["system"]
  tmp : DirAt fs ["tmp"]
  staged : ∀ p ∈ stagedPaths, ∀ n ∈ fs p, n.isDir = false ∧ n.isLink = false

/-- A device the package is for. -/
structure ReadyFor (opts : FullOptions) (build : FullBuild) (d : FullDevice) : Prop where
  ready : Ready d.fs
  device : opts.overrideDevice.or (build.buildProp "ro.product.device") = some d.productDevice

/-- A well-formed system image whose owners are numbered from zero on, a policy file with a
name of its own, and the `installboot.sh` of this repository. -/
structure FullBuild.Sound (inst : Installer) (build : FullBuild) : Prop where
  system : WellFormed build.system
  owners : ∀ line ∈ build.metadata, 0 ≤ line.perm.uid ∧ 0 ≤ line.perm.gid
  policy : ∀ f ∈ policyFile build.selinuxFc,
    f.1 ≠ "kernel" ∧ f.1 ≠ "ramdisk-uboot.img" ∧ f.1 ≠ "installboot.sh"
  shell : inst.shell build.installScript = installboot

/-- The paths `backuptool.sh` works on: what it saves and restores below `/system`, and
directories of its own below `/tmp`. -/
structure BackupSound (inst : Installer) (touched : Path → Prop) : Prop where
  tree : ∀ command fs, Treelike fs → Treelike (inst.backup command fs)
  frame : ∀ command fs p, ¬touched p → inst.backup command fs p = fs p
  spared : ∀ p ∈ ["system"] :: ["tmp"] :: stagedPaths, ¬touched p

/-- The path is left alone by `backuptool.sh`. -/
def Spared (opts : FullOptions) (touched : Path → Prop) (p : Path) : Prop :=
  opts.backuptool = true → ¬touched p

/-- The path is wiped with the user data. -/
def Wiped (opts : FullOptions) (p : Path) : Prop :=
  opts.wipeUserData = true ∧ ["data"] <+: p ∧ p ≠ ["data"]

/-- The flash with the kernel and the ramdisk in it. -/
def bootFlash (build : FullBuild) (size : Nat) (flash : Nat → UInt8) : Nat → UInt8 :=
  writeSegment size 9645568 build.ramdisk (writeSegment size 1256960 build.kernel flash)

/-- The byte belongs to neither the kernel nor the ramdisk, or is behind the end. -/
def OffBoot (build : FullBuild) (size i : Nat) : Prop :=
  size ≤ i ∨
    ¬InSegment 1256960 build.kernel.length i ∧ ¬InSegment 9645568 build.ramdisk.length i

section

variable {fs fs' : DeviceTree}

/-- Readiness is about what there is at a few paths. -/
theorem Ready.of_contents (h : Ready fs) (ht : Treelike fs')
    (hsame : ∀ p ∈ ["system"] :: ["tmp"] :: stagedPaths,
      (fs' p).map Node.contents = (fs p).map Node.contents) : Ready fs' := by
  -- a directory is one by its contents, whatever its permissions
  have hdir {p : Path} (hp : p ∈ ["system"] :: ["tmp"] :: stagedPaths) (hne : p ≠ [])
      (hdir : DirAt fs p) : DirAt fs' p := by
    have hsome := hdir.resolve_left hne
    have hp := hsame p hp
    right
    cases hfs' : fs' p with
    | none =>
      rw [hfs'] at hp
      rw [Option.map_eq_none_iff.mp hp.symm] at hsome
      cases hsome
    | some n =>
      rw [hfs'] at hp
      obtain ⟨m, hm, hcontents⟩ := Option.map_eq_some_iff.mp hp.symm
      rw [hm, Option.any_some] at hsome
      rw [Option.any_some, ← n.isDir_contents, ← hcontents, m.isDir_contents]
      exact hsome
  refine ⟨ht, hdir (by simp) (by simp) h.system, hdir (by simp) (by simp) h.tmp, ?_⟩
  intro p hp n hn
  have hcontents := hsame p (by simp [hp])
  rw [Option.mem_def.mp hn] at hcontents
  obtain ⟨m, hm, hcontents⟩ := Option.map_eq_some_iff.mp hcontents.symm
  rw [← n.isDir_contents, ← n.isLink_contents, ← hcontents, m.isDir_contents, m.isLink_contents]
  exact h.staged p hp m hm

/-- Paths of `/tmp` are no paths of `/system`. -/
theorem stagedPath_outside {p : Path} (hp : p ∈ stagedPaths) : ¬["system"] <+: p := by
  simp only [stagedPaths, List.mem_cons, List.not_mem_nil, or_false] at hp
  rcases hp with rfl | rfl | rfl <;> decide

theorem Ready.dirAt (h : Ready fs) {p : Path} (hp : p ∈ stagedPaths) :
    ∀ q, q <+: p → q ≠ p → DirAt fs q := by
  -- the staged files lie in `/tmp`
  have hcases : ∀ name : String, ∀ q : Path, q <+: ["tmp", name] → q ≠ ["tmp", name] →
      DirAt fs q := by
    intro name q hq hne
    rcases List.prefix_cons_iff.mp hq with rfl | ⟨r, rfl, hr⟩
    · exact .inl rfl
    · rcases List.prefix_cons_iff.mp hr with rfl | ⟨r', rfl, hr'⟩
      · exact h.tmp
      · rw [List.prefix_nil.mp hr'] at hne
        exact absurd rfl hne
  simp only [stagedPaths, List.mem_cons, List.not_mem_nil, or_false] at hp
  rcases hp with rfl | rfl | rfl <;> exact hcases _

end

/-! ## §2 What Was Emitted -/

/-- The intermediate results of a generator that succeeds. -/
structure FullEmitted (order : DictOrder) (opts : FullOptions) (build : FullBuild) where
  device : String
  items : Items
  permissions : List Cmd
  device_eq : opts.overrideDevice.or (build.buildProp "ro.product.device") = some device
  items_eq : copySystemItems Dict.empty build.system = .ok items
  permissions_eq : setSystemPermissions order (getMetadata items build.metadata) = .ok permissions

namespace FullEmitted

variable {order : DictOrder} {opts : FullOptions} {build : FullBuild}
variable (E : FullEmitted order opts build)

/-- The commands that make `/system`. -/
def system : List Cmd := systemCmds (symlinksOf build.system) E.permissions

/-- The whole script. -/
def script : List FullCmd :=
  .base (.assertDevice E.device) :: backupCmds opts ++ wipeCmds opts ++ E.system.map .base ++
    restoreCmds opts ++ installbootCmds ++ [.unmountAll]

/-- The output zip. -/
def package (_ : FullEmitted order opts build) : FullPackage where
  system := build.system.filterMap loadEntry
  patches := []
  files := policyFile build.selinuxFc ++ [("kernel", build.kernel),
    ("ramdisk-uboot.img", build.ramdisk), ("installboot.sh", build.installScript)]

end FullEmitted

theorem assertedDevice_ok {opts : Options} {build : Build} {device : String} :
    assertedDevice opts build = .ok device ↔
      opts.overrideDevice.or (build.buildProp "ro.product.device") = some device := by
  unfold assertedDevice
  cases opts.overrideDevice with
  | none => exact getBuildProp_ok
  | some name => simp

/-- A generator that succeeds emitted its script in these parts. -/
theorem exists_fullEmitted {order : DictOrder} {opts : FullOptions} {build : FullBuild}
    {out : FullOutput} (h : writeFullOTAPackage order opts build = .ok out) :
    ∃ E : FullEmitted order opts build, out.script = E.script ∧ out.package = E.package := by
  -- the properties are read first, and any of them may be missing
  obtain ⟨postBuild, -, h⟩ := bind_eq_ok_iff.mp h
  obtain ⟨preDevice, -, h⟩ := bind_eq_ok_iff.mp h
  obtain ⟨postTimestamp, -, h⟩ := bind_eq_ok_iff.mp h
  obtain ⟨device, hdevice, h⟩ := bind_eq_ok_iff.mp h
  obtain ⟨⟨symlinks, items⟩, hcopy, h⟩ := bind_eq_ok_iff.mp h
  obtain ⟨items', hitems, hcopy⟩ := bind_eq_ok_iff.mp hcopy
  cases hcopy
  obtain ⟨permissions, hpermissions, h⟩ := bind_eq_ok_iff.mp h
  cases h
  exact ⟨⟨device, items, permissions, assertedDevice_ok.mp hdevice, hitems, hpermissions⟩, rfl, rfl⟩

/-! ## §3 The Commands That Make `/system` -/

/-- The device with another tree. -/
def FullDevice.withFs (d : FullDevice) (fs : DeviceTree) : FullDevice := { d with fs := fs }

/-- The commands that concern the tree alone, and that every device allows. -/
def Cmd.TreeOnly : Cmd → Prop
  | .mount _ => True
  | .formatPartition _ => True
  | .unpackPackageDir .. => True
  | .symlink .. => True
  | .setPermissions .. => True
  | .setPermissionsRecursive .. => True
  | _ => False

theorem treeOnly_of_permPath? {c : Cmd} {p : Path} (h : c.permPath? = some p) : c.TreeOnly := by
  cases c <;> first | exact trivial | cases h

section Steps

variable (inst : Installer) (pkg : FullPackage)

theorem execFull_treeOnly {c : Cmd} (hc : c.TreeOnly) (d : FullDevice) :
    execFull inst pkg d (.base c) =
      (execTree inst.toRecovery pkg.toPackage d.fs c).map d.withFs := by
  -- such a command asserts nothing and does not touch the boot partition
  have hallows : d.toDevice.Allows c := by
    cases c <;> first | exact trivial | cases hc
  have hboot : execBoot inst.toRecovery pkg.toPackage d.boot c = some d.boot := by
    cases c <;> first | rfl | cases hc
  rw [execFull, exec, if_pos hallows]
  cases execTree inst.toRecovery pkg.toPackage d.fs c with
  | none => rfl
  | some fs =>
    simp only [Option.bind_eq_bind, Option.bind_some, hboot, Option.map_some]
    rfl

/-- A script of such commands. -/
theorem runFull_treeOnly {script : List Cmd} (hscript : ∀ c ∈ script, c.TreeOnly)
    (d : FullDevice) : runFull inst pkg d (script.map .base) =
      (runTree inst.toRecovery pkg.toPackage d.fs script).map d.withFs := by
  -- command by command
  induction script generalizing d with
  | nil => rfl
  | cons c script ih =>
    rw [List.map_cons, runFull_cons, runTree_cons,
      execFull_treeOnly inst pkg (hscript c List.mem_cons_self)]
    cases execTree inst.toRecovery pkg.toPackage d.fs c with
    | none => rfl
    | some fs =>
      rw [Option.map_some, Option.bind_some, Option.bind_some,
        ih fun c hc => hscript c (List.mem_cons_of_mem _ hc)]
      rfl

/-- What holds of the tree throughout such a script. -/
theorem throughout_treeOnly {script : List Cmd} (hscript : ∀ c ∈ script, c.TreeOnly)
    {Q : DeviceTree → Prop} {d : FullDevice} {fs : DeviceTree}
    (h : Throughout (execTree inst.toRecovery pkg.toPackage) Q fs script) :
    Throughout (execFull inst pkg) (fun d₁ => ∃ fs, d₁ = d.withFs fs ∧ Q fs) (d.withFs fs)
      (script.map .base) := by
  -- command by command
  induction script generalizing fs with
  | nil => exact throughout_nil ⟨fs, rfl, h.start⟩
  | cons c script ih =>
    refine throughout_cons ⟨fs, rfl, h.start⟩ fun d₁ hd₁ => ?_
    rw [execFull_treeOnly inst pkg (hscript c List.mem_cons_self)] at hd₁
    obtain ⟨fs₁, hfs₁, rfl⟩ := Option.map_eq_some_iff.mp hd₁
    exact ih (fun c hc => hscript c (List.mem_cons_of_mem _ hc)) (h.tail hfs₁)

end Steps

section System

variable {inst : Installer} {order : DictOrder} {opts : FullOptions} {build : FullBuild}
variable (E : FullEmitted order opts build) (hbuild : build.Sound inst)
include hbuild

theorem FullEmitted.treeOnly : ∀ c ∈ E.system, c.TreeOnly := by
  obtain ⟨tree, -, hpermissions⟩ := exists_treeOf hbuild.system E.items_eq E.permissions_eq
  intro c hc
  simp only [FullEmitted.system, systemCmds, List.mem_append, List.mem_cons, List.not_mem_nil,
    or_false] at hc
  -- the mount, the format, the files, the links, the permissions
  rcases hc with ((rfl | rfl | rfl) | hlink) | hperm
  · trivial
  · trivial
  · trivial
  · obtain ⟨s, -, rfl⟩ := List.mem_map.mp hlink
    trivial
  · rw [hpermissions] at hperm
    obtain ⟨j, -, hpath⟩ := permPath?_recurse _ _ _ c hperm
    exact treeOnly_of_permPath? hpath

omit hbuild in
/-- A permission command changes permissions, below `/system` alone. -/
theorem sameContents_of_permission {fs fs' : DeviceTree} {tree : Item} {c : Cmd}
    {best : Item → Subtree} (htree : TreeOf build.toBuild tree)
    (hc : c ∈ recurse best tree Subtree.unset) (ht : Treelike fs) (hhas : HasTree fs tree)
    (h : execTree inst.toRecovery E.package.toPackage fs c = some fs') :
    SameContents fs fs' ∧ ∀ p, ¬["system"] <+: p → fs' p = fs p := by
  obtain ⟨j, hj, hpath⟩ := permPath?_recurse _ _ _ c hc
  obtain ⟨q, -, hname, -⟩ := htree.sound j hj
  have hout {p : Path} (hp : ¬["system"] <+: p) : ¬j.name <+: p := by
    rw [hname]
    exact fun hpre => hp (List.IsPrefix.trans ⟨q, rfl⟩ hpre)
  -- the permissions are set one by one or for a whole directory
  cases c with
  | setPermissions name uid gid mode =>
    obtain rfl := Option.some.inj hpath
    obtain ⟨fs₁, hrun, hsame, hframe, -⟩ := execTree_setPermissions inst.toRecovery
      E.package.toPackage ht (hhas j hj) ⟨uid, gid, mode⟩
    obtain rfl := Option.some.inj (hrun.symm.trans h)
    exact ⟨hsame, fun p hp => hframe p fun heq => hout hp (heq ▸ List.prefix_rfl)⟩
  | setPermissionsRecursive name uid gid dmode fmode =>
    obtain rfl := Option.some.inj hpath
    obtain ⟨fs₁, hrun, hsame, hframe, -⟩ := execTree_setPermissionsRecursive inst.toRecovery
      E.package.toPackage ht (hhas j hj) ⟨uid, gid, dmode, fmode⟩
    obtain rfl := Option.some.inj (hrun.symm.trans h)
    exact ⟨hsame, fun p hp => hframe p (hout hp)⟩
  | _ => cases hpath

/-- While the empty partition is filled, its root stays a directory. -/
theorem FullEmitted.throughout_filling {fs : DeviceTree} (ht : Treelike fs)
    (hroot : DirAt fs ["system"]) (hempty : ∀ q, q ≠ [] → fs ("system" :: q) = none) :
    Throughout (execTree inst.toRecovery E.package.toPackage)
      (fun fs₁ => Treelike fs₁ ∧
        (fs₁ ["system"]).map Node.contents = (fs ["system"]).map Node.contents ∧
        ∀ p, ¬["system"] <+: p → fs₁ p = fs p) fs
      (.unpackPackageDir ["system"] ["system"] :: makeSymlinksCmds (symlinksOf build.system)) := by
  have hsound : SoundTree (DirOf build.toBuild) fs := soundTree_of_empty ht hroot hempty
  have hsome : fs ["system"] ≠ none := hroot.ne_none (List.cons_ne_nil _ _)
  -- outside, and at the root, every command leaves the value alone
  let N : Path → Place → Prop := fun p n =>
    (¬["system"] <+: p ∨ p = ["system"]) → n = fs p
  have hclosed : ∀ p, ∀ c ∈ Cmd.unpackPackageDir ["system"] ["system"] ::
      makeSymlinksCmds (symlinksOf build.system), ∀ n n', N p n →
      act inst.toRecovery E.package.toPackage c p n = some n' → N p n' := by
    intro p c hc n n' hn hact hp
    obtain rfl := hn hp
    have hp' : ¬["system"] <+: p ∨ (p = ["system"] ∧ fs p ≠ none) := by
      refine hp.imp_right fun h => ⟨h, ?_⟩
      rw [h]
      exact hsome
    -- the files are unpacked below `/system`, and the links are made there
    rcases List.mem_cons.mp hc with rfl | hc
    · have hunpack : act inst.toRecovery E.package.toPackage
          (.unpackPackageDir ["system"] ["system"]) p (fs p) = some (fs p) :=
        Pointwise.follow_of_id _ _ fun x hx => extractAt_outside hbuild.system hx hp'
      exact Option.some.inj (hact.symm.trans hunpack)
    · obtain ⟨s, hs, rfl⟩ := List.mem_map.mp hc
      exact Option.some.inj (hact.symm.trans (act_symlink_of_outside hbuild.system hs hp'))
  refine (Pointwise.throughout_of_follow (fun c hc => execTree_actsAs inst.toRecovery
    E.package.toPackage (fits_filling hbuild.system rfl c hc)) hclosed hsound
    (fun p _ => rfl) (follow_filling inst.toRecovery hbuild.system rfl hroot hempty)).imp ?_
  rintro fs₁ ⟨hs, hN⟩
  exact ⟨hs.tree, by rw [hN ["system"] (.inr rfl)], fun p hp => hN p (.inl hp)⟩

/-- While `/system` is made, the device stays ready, and nothing changes outside. -/
theorem FullEmitted.throughout_system {fs : DeviceTree} (h : Ready fs) :
    Throughout (execTree inst.toRecovery E.package.toPackage)
      (fun fs₁ => Ready fs₁ ∧ ∀ p, ¬["system"] <+: p → fs₁ p = fs p) fs E.system := by
  -- every command of this part leaves the staged files and `/tmp` alone
  have hready {fs₁ : DeviceTree} (ht : Treelike fs₁)
      (hroot : (fs₁ ["system"]).map Node.contents = (fs ["system"]).map Node.contents)
      (hout : ∀ p, ¬["system"] <+: p → fs₁ p = fs p) : Ready fs₁ := by
    refine h.of_contents ht fun p hp => ?_
    rcases List.mem_cons.mp hp with rfl | hp
    · exact hroot
    · rcases List.mem_cons.mp hp with rfl | hp
      · rw [hout _ (by decide)]
      · rw [hout _ (stagedPath_outside hp)]
  -- formatting leaves an empty `/system`
  have hformatted : Ready (formatted fs) ∧ ∀ p, ¬["system"] <+: p → formatted fs p = fs p :=
    ⟨hready (treelike_formatted h.tree) rfl fun _ => formatted_outside, fun _ => formatted_outside⟩
  rw [FullEmitted.system, systemCmds_eq]
  refine throughout_append ?_ fun fs₁ hfs₁ => ?_
  · refine throughout_cons ⟨h, fun _ _ => rfl⟩ fun fs₁ hfs₁ => ?_
    obtain rfl : formatted fs = fs₁ := Option.some.inj hfs₁
    refine throughout_cons hformatted fun fs₂ hfs₂ => ?_
    obtain rfl : formatted fs = fs₂ := Option.some.inj hfs₂
    exact throughout_nil hformatted
  · obtain rfl : formatted fs = fs₁ := Option.some.inj hfs₁
    have hroot : DirAt (formatted fs) ["system"] := h.system
    have hempty : ∀ q, q ≠ [] → formatted fs ("system" :: q) = none := fun q hq => formatted_cons hq
    refine throughout_append ?_ fun fs₂ hfs₂ => ?_
    · exact (E.throughout_filling hbuild (treelike_formatted h.tree) hroot hempty).imp
        fun fs₂ h₂ => ⟨hready h₂.1 h₂.2.1 fun p hp => (h₂.2.2 p hp).trans (formatted_outside hp),
          fun p hp => (h₂.2.2 p hp).trans (formatted_outside hp)⟩
    · have hpkg : E.package.toPackage.system = build.system.filterMap loadEntry := rfl
      obtain ⟨hrun, ht₂⟩ := runTree_filling inst.toRecovery hbuild.system hpkg
        (treelike_formatted h.tree) hroot hempty
      obtain rfl := Option.some.inj (hrun.symm.trans hfs₂)
      obtain ⟨tree, htree, hpermissions⟩ :=
        exists_treeOf hbuild.system E.items_eq E.permissions_eq
      have hfilled : ∀ p, ¬["system"] <+: p →
          filledTree inst.toRecovery build.toBuild (formatted fs) p = fs p := by
        intro p hp
        rw [filledTree_of_ne, formatted_outside hp]
        rintro q - rfl
        exact hp ⟨q, rfl⟩
      -- only permissions change from here on
      rw [hpermissions]
      let P : DeviceTree → Prop := fun fs₃ =>
        SameContents (filledTree inst.toRecovery build.toBuild (formatted fs)) fs₃ ∧
          ∀ p, ¬["system"] <+: p → fs₃ p = fs p
      have hstart : P (filledTree inst.toRecovery build.toBuild (formatted fs)) :=
        ⟨.refl _, hfilled⟩
      refine (throughout_of_step ?_ hstart).imp ?_
      · rintro c hc fs₃ fs₄ ⟨hsame, hout⟩ hstep
        obtain ⟨hsame', hout'⟩ := sameContents_of_permission E htree hc (hsame.treelike ht₂)
          (fun j hj => hsame.hasItem (htree.hasTree _ hroot j hj)) hstep
        exact ⟨hsame.trans hsame', fun p hp => (hout' p hp).trans (hout p hp)⟩
      · rintro fs₃ ⟨hsame, hout⟩
        refine ⟨hready (hsame.treelike ht₂) ((hsame ["system"]).trans ?_) hout, hout⟩
        rw [filledTree_of_ne _ fun q hq heq => hq ((List.cons_inj_right "system").mp heq).symm]
        rfl

end System

/-! ## §4 The Boot Files -/

section Boot

variable {fs : DeviceTree}

/-- Only the names below `/tmp` are staged. -/
theorem ne_of_staged {p : Path} (hp : p ∈ stagedPaths) :
    p ≠ [] ∧ p ≠ ["system"] ∧ p ≠ ["tmp"] ∧ p.dropLast = ["tmp"] := by
  simp only [stagedPaths, List.mem_cons, List.not_mem_nil, or_false] at hp
  rcases hp with rfl | rfl | rfl <;> decide

theorem Ready.update_file (h : Ready fs) {dest : Path} (hdest : dest ∈ stagedPaths) (data : Bytes)
    (perm : Perm) : Ready (Function.update fs dest (some (.file data perm))) := by
  obtain ⟨hne, hsystem, htmp, hlast⟩ := ne_of_staged hdest
  -- the old file, if there is one, is no directory
  have hleaf : (fs dest).any Node.isDir = false := by
    cases hn : fs dest with
    | none => rfl
    | some n => exact (h.staged dest hdest n hn).1
  refine ⟨h.tree.update_leaf hne (hlast ▸ h.tmp) hleaf, ?_, ?_, fun p hp n hn => ?_⟩
  · rw [DirAt, Function.update_of_ne hsystem.symm]
    exact h.system
  · rw [DirAt, Function.update_of_ne htmp.symm]
    exact h.tmp
  · -- the new file is a plain one, and the other two are as they were
    by_cases heq : p = dest
    · subst heq
      rw [Function.update_self] at hn
      obtain rfl := Option.some.inj hn
      exact ⟨rfl, rfl⟩
    · rw [Function.update_of_ne heq] at hn
      exact h.staged p hp n hn

/-- A staged file is read from where it is. -/
theorem Ready.readFile (h : Ready fs) {p : Path} {data : Bytes} {perm : Perm}
    (hfile : fs p = some (.file data perm)) : Ota.readFile fs p = some (data, perm) := by
  have hlink : NoLinkAt fs p := by
    rw [noLinkAt_iff, hfile]
    rfl
  rw [Ota.readFile, h.tree.lookup (h.tree.plain (by simp [hfile])) hlink, hfile]

/-- The tree once a file is extracted, which keeps the permissions of a file that is there. -/
def staged (rec : Recovery) (fs : DeviceTree) (dest : Path) (data : Bytes) : DeviceTree :=
  Function.update fs dest (some (.file data (((fs dest).bind Node.perm?).getD rec.filePerm)))

theorem extractFile_eq {rec : Recovery} {pkg : FullPackage} (h : Ready fs) {dest : Path}
    (hdest : dest ∈ stagedPaths) {entry : String} {f : String × Bytes}
    (hfind : (pkg.files.find? fun f => f.1 = entry) = some f) :
    extractFile rec pkg fs entry dest = staged rec fs dest f.2 := by
  have hlink : NoLinkAt fs dest := fun n hn => (h.staged dest hdest n hn).2
  rw [extractFile, hfind, resolve_of_dirAt (h.dirAt hdest) hlink]
  -- a file left by an earlier attempt is overwritten
  cases hn : fs dest with
  | none => simp [staged, hn]
  | some n =>
    have hleaf := h.staged dest hdest n hn
    cases n with
    | dir perm => cases hleaf.1
    | file data perm => simp [staged, hn, Node.perm?]
    | link dest => cases hleaf.2

theorem execFull_packageExtractFile {inst : Installer} {pkg : FullPackage} {d : FullDevice}
    (h : Ready d.fs) {dest : Path} (hdest : dest ∈ stagedPaths) {entry : String}
    {f : String × Bytes} (hfind : (pkg.files.find? fun f => f.1 = entry) = some f) :
    execFull inst pkg d (.packageExtractFile entry dest) =
      some (d.withFs (staged inst.toRecovery d.fs dest f.2)) := by
  rw [execFull, extractFile_eq h hdest hfind]
  rfl

end Boot

section BootRun

variable {inst : Installer} {order : DictOrder} {opts : FullOptions} {build : FullBuild}
variable (E : FullEmitted order opts build)

/-- The files of the package are found under their names. -/
theorem FullEmitted.find_files (hbuild : build.Sound inst) :
    (E.package.files.find? fun f => f.1 = "kernel") = some ("kernel", build.kernel) ∧
    (E.package.files.find? fun f => f.1 = "ramdisk-uboot.img") =
      some ("ramdisk-uboot.img", build.ramdisk) ∧
    (E.package.files.find? fun f => f.1 = "installboot.sh") =
      some ("installboot.sh", build.installScript) := by
  -- the policy file comes first in the package, and is called none of these
  have hpolicy (name : String) (h : ∀ f ∈ policyFile build.selinuxFc, f.1 ≠ name) :
      ((policyFile build.selinuxFc).find? fun f => f.1 = name) = none := by
    rw [List.find?_eq_none]
    intro f hf
    simp [h f hf]
  refine ⟨?_, ?_, ?_⟩
  · rw [package, List.find?_append, hpolicy _ fun f hf => (hbuild.policy f hf).1]
    rfl
  · rw [package, List.find?_append, hpolicy _ fun f hf => (hbuild.policy f hf).2.1]
    rfl
  · rw [package, List.find?_append, hpolicy _ fun f hf => (hbuild.policy f hf).2.2]
    rfl

/-- The tree with the three files in `/tmp`, the program executable. -/
def bootTree (rec : Recovery) (build : FullBuild) (fs : DeviceTree) : DeviceTree :=
  Function.update (staged rec (staged rec fs ramdiskPath build.ramdisk) kernelPath build.kernel)
    installbootPath (some (.file build.installScript ⟨0, 0, 0o777⟩))

theorem bootTree_of_not_staged {rec : Recovery} {fs : DeviceTree} {p : Path}
    (hp : p ∉ stagedPaths) : bootTree rec build fs p = fs p := by
  simp only [stagedPaths, List.mem_cons, List.not_mem_nil, or_false, not_or] at hp
  rw [bootTree, Function.update_of_ne hp.2.2, staged, Function.update_of_ne hp.2.1, staged,
    Function.update_of_ne hp.1]

/-- The device once the boot files are in the flash. -/
def FullDevice.booted (d : FullDevice) (rec : Recovery) (build : FullBuild) : FullDevice :=
  { d with fs := bootTree rec build d.fs, flash := bootFlash build d.flashSize d.flash }

/-- `installboot.sh` finds both files and copies them. -/
theorem runProgram_bootTree (hbuild : build.Sound inst) {d : FullDevice} (h : Ready d.fs) :
    Ready (bootTree inst.toRecovery build d.fs) ∧
      runProgram inst (d.withFs (bootTree inst.toRecovery build d.fs)) installbootPath =
        d.booted inst.toRecovery build := by
  have hready : Ready (bootTree inst.toRecovery build d.fs) :=
    ((h.update_file (by simp [stagedPaths]) _ _).update_file (by simp [stagedPaths]) _ _).update_file
      (by simp [stagedPaths]) _ _
  have hscript := hready.readFile (Function.update_self installbootPath _ _)
  -- the later files leave the earlier ones alone
  obtain ⟨perm, hkernel⟩ : ∃ perm,
      bootTree inst.toRecovery build d.fs kernelPath = some (.file build.kernel perm) := by
    rw [bootTree, Function.update_of_ne (by decide), staged, Function.update_self]
    exact ⟨_, rfl⟩
  obtain ⟨perm', hramdisk⟩ : ∃ perm,
      bootTree inst.toRecovery build d.fs ramdiskPath = some (.file build.ramdisk perm) := by
    rw [bootTree, Function.update_of_ne (by decide), staged, Function.update_of_ne (by decide),
      staged, Function.update_self]
    exact ⟨_, rfl⟩
  refine ⟨hready, ?_⟩
  have hfs : (d.withFs (bootTree inst.toRecovery build d.fs)).fs =
      bootTree inst.toRecovery build d.fs := rfl
  rw [runProgram, hfs, hscript]
  dsimp only
  rw [if_pos (by decide), hbuild.shell]
  simp only [installboot, List.foldl_cons, List.foldl_nil, runDd, hready.readFile hkernel,
    hready.readFile hramdisk]
  rfl

end BootRun

/-! ## §5 The Parts of a Run -/

/-- What may have changed on a device while the script runs. -/
structure Between (opts : FullOptions) (build : FullBuild) (touched : Path → Prop)
    (d d₁ : FullDevice) : Prop where
  ready : Ready d₁.fs
  boot : d₁.boot = d.boot
  device : d₁.productDevice = d.productDevice
  size : d₁.flashSize = d.flashSize
  others : ∀ p, ¬["system"] <+: p → p ∉ stagedPaths → Spared opts touched p → ¬Wiped opts p →
    d₁.fs p = d.fs p
  flash : ∀ i, OffBoot build d.flashSize i → d₁.flash i = d.flash i

theorem writeSegment_of_ge {size start i : Nat} {data : Bytes} {m : Nat → UInt8} (hi : size ≤ i) :
    writeSegment size start data m i = m i :=
  if_neg fun h => Nat.not_lt.mpr hi h.2

theorem bootFlash_of_off {build : FullBuild} {size i : Nat} {flash : Nat → UInt8}
    (hi : OffBoot build size i) : bootFlash build size flash i = flash i := by
  rcases hi with hi | ⟨hkernel, hramdisk⟩
  · rw [bootFlash, writeSegment_of_ge hi, writeSegment_of_ge hi]
  · rw [bootFlash, writeSegment_of_not_in hramdisk, writeSegment_of_not_in hkernel]

/-- What the two files overwrite does not matter. -/
theorem bootFlash_congr {build : FullBuild} {size : Nat} {flash flash' : Nat → UInt8}
    (h : ∀ i, OffBoot build size i → flash i = flash' i) :
    bootFlash build size flash = bootFlash build size flash' := by
  funext i
  -- `dd` writes the whole of the two segments, whatever was in them
  by_cases hoff : OffBoot build size i
  · rw [bootFlash_of_off hoff, bootFlash_of_off hoff, h i hoff]
  · rw [OffBoot, not_or, Nat.not_le, not_and_or, not_not, not_not] at hoff
    obtain ⟨hsize, hin⟩ := hoff
    have hwrite {start : Nat} {data : Bytes} (hin : InSegment start data.length i)
        (m m' : Nat → UInt8) :
        writeSegment size start data m i = writeSegment size start data m' i := by
      obtain ⟨hle, hlt⟩ := hin
      have hj : i - start < data.length := by omega
      rw [writeSegment, writeSegment, if_pos ⟨hle, hsize⟩, if_pos ⟨hle, hsize⟩,
        List.getElem?_eq_getElem hj]
      rfl
    -- the ramdisk is written over the kernel's tail
    by_cases hramdisk : InSegment 9645568 build.ramdisk.length i
    · exact hwrite hramdisk _ _
    · rw [bootFlash, bootFlash, writeSegment_of_not_in hramdisk, writeSegment_of_not_in hramdisk]
      exact hwrite (hin.resolve_right hramdisk) _ _

section Parts

variable {inst : Installer} {order : DictOrder} {opts : FullOptions} {build : FullBuild}
variable {touched : Path → Prop} {d d₁ d₂ : FullDevice}

theorem Between.trans (h : Between opts build touched d d₁)
    (h' : Between opts build touched d₁ d₂) : Between opts build touched d d₂ where
  ready := h'.ready
  boot := h'.boot.trans h.boot
  device := h'.device.trans h.device
  size := h'.size.trans h.size
  others := fun p hs ht ht' hw => (h'.others p hs ht ht' hw).trans (h.others p hs ht ht' hw)
  flash := fun i hi => (h'.flash i (h.size.symm ▸ hi)).trans (h.flash i hi)

/-- Only the tree has changed. -/
theorem between_withFs {fs : DeviceTree} (hready : Ready fs)
    (hothers : ∀ p, ¬["system"] <+: p → p ∉ stagedPaths → Spared opts touched p →
      ¬Wiped opts p → fs p = d.fs p) : Between opts build touched d (d.withFs fs) :=
  ⟨hready, rfl, rfl, rfl, hothers, fun _ _ => rfl⟩

/-- `backuptool.sh` leaves the device ready. -/
theorem BackupSound.ready (hbackup : BackupSound inst touched) (command : String)
    {fs : DeviceTree} (h : Ready fs) : Ready (inst.backup command fs) :=
  h.of_contents (hbackup.tree command fs h.tree) fun p hp => by
    rw [hbackup.frame command fs p (hbackup.spared p hp)]

/-- The tree `backuptool.sh` leaves behind, if it is run. -/
def backedUp (inst : Installer) (opts : FullOptions) (command : String) (fs : DeviceTree) :
    DeviceTree :=
  if opts.backuptool then inst.backup command fs else fs

variable (hbackup : opts.backuptool = true → BackupSound inst touched)
include hbackup

theorem ready_backedUp (command : String) {fs : DeviceTree} (h : Ready fs) :
    Ready (backedUp inst opts command fs) := by
  rw [backedUp]
  split
  · next htool => exact (hbackup htool).ready command h
  · exact h

theorem backedUp_of_spared (command : String) (fs : DeviceTree) {p : Path}
    (hp : Spared opts touched p) : backedUp inst opts command fs p = fs p := by
  rw [backedUp]
  split
  · next htool => exact (hbackup htool).frame command fs p (hp htool)
  · rfl

/-- The backup before anything changes. -/
theorem run_backup (build : FullBuild) (pkg : FullPackage) (h : Ready d.fs) :
    runFull inst pkg d (backupCmds opts) =
        some (d.withFs (backedUp inst opts "backup" d.fs)) ∧
      Throughout (execFull inst pkg) (Between opts build touched d) d (backupCmds opts) := by
  have hstart : Between opts build touched d d := between_withFs h fun _ _ _ _ _ => rfl
  have hdone : Between opts build touched d (d.withFs (backedUp inst opts "backup" d.fs)) :=
    between_withFs (ready_backedUp hbackup "backup" h)
      fun p _ _ hp _ => backedUp_of_spared hbackup "backup" d.fs hp
  -- with the option the script mounts, runs `backuptool.sh backup` and unmounts
  by_cases htool : opts.backuptool = true
  · have hmount : execFull inst pkg d (.base (.mount ["system"])) = some d :=
      execFull_treeOnly inst pkg (c := .mount ["system"]) trivial d
    have hrun : execFull inst pkg d (.runBackup "backup") =
        some (d.withFs (backedUp inst opts "backup" d.fs)) := by
      rw [backedUp, if_pos htool]
      rfl
    have hunmount : ∀ d, execFull inst pkg d (.unmount ["system"]) = some d := fun d => rfl
    rw [backupCmds, if_pos htool]
    refine ⟨?_, ?_⟩
    · simp only [runFull_cons, hmount, hrun, hunmount, Option.bind_some, runFull_nil]
    · rw [throughout_cons_iff hmount, throughout_cons_iff hrun, throughout_cons_iff (hunmount _)]
      exact ⟨hstart, hstart, hdone, throughout_nil hdone⟩
  · rw [backupCmds, if_neg htool, backedUp, if_neg htool]
    exact ⟨rfl, throughout_nil hstart⟩

/-- What was saved is restored. -/
theorem run_restore (build : FullBuild) (pkg : FullPackage) (h : Ready d.fs) :
    runFull inst pkg d (restoreCmds opts) =
        some (d.withFs (backedUp inst opts "restore" d.fs)) ∧
      Throughout (execFull inst pkg) (Between opts build touched d) d (restoreCmds opts) := by
  have hstart : Between opts build touched d d := between_withFs h fun _ _ _ _ _ => rfl
  have hdone : Between opts build touched d (d.withFs (backedUp inst opts "restore" d.fs)) :=
    between_withFs (ready_backedUp hbackup "restore" h)
      fun p _ _ hp _ => backedUp_of_spared hbackup "restore" d.fs hp
  -- with the option the script runs `backuptool.sh restore`
  by_cases htool : opts.backuptool = true
  · have hrun : execFull inst pkg d (.runBackup "restore") =
        some (d.withFs (backedUp inst opts "restore" d.fs)) := by
      rw [backedUp, if_pos htool]
      rfl
    rw [restoreCmds, if_pos htool, throughout_cons_iff hrun, runFull_cons, hrun]
    exact ⟨rfl, hstart, throughout_nil hdone⟩
  · rw [restoreCmds, if_neg htool, backedUp, if_neg htool]
    exact ⟨rfl, throughout_nil hstart⟩

omit hbackup

/-- The tree without user data, if it is wiped. -/
def wipedTree (opts : FullOptions) (fs : DeviceTree) : DeviceTree :=
  if opts.wipeUserData then fun p => if ["data"] <+: p ∧ p ≠ ["data"] then none else fs p else fs

theorem wipedTree_of_wiped {fs : DeviceTree} {p : Path} (hp : Wiped opts p) :
    wipedTree opts fs p = none := by
  rw [wipedTree, if_pos hp.1]
  exact if_pos hp.2

theorem wipedTree_of_not_wiped {fs : DeviceTree} {p : Path} (hp : ¬Wiped opts p) :
    wipedTree opts fs p = fs p := by
  rw [wipedTree]
  split
  · next hwipe => exact if_neg fun h => hp ⟨hwipe, h⟩
  · rfl

theorem ready_wipedTree {fs : DeviceTree} (h : Ready fs) : Ready (wipedTree opts fs) := by
  have ht : Treelike (wipedTree opts fs) := by
    rw [wipedTree]
    split
    · have hsound : SoundTree (fun _ => False) fs := ⟨h.tree, fun _ h => h.elim⟩
      exact (actsAs_formatPartition plainRecovery ⟨[], []⟩ ["data"] fs _ hsound fun _ => rfl).2.tree
    · exact h.tree
  refine h.of_contents ht fun p hp => ?_
  -- nothing that has to be ready lies in `/data`
  have hdata : ¬["data"] <+: p := by
    simp only [stagedPaths, List.mem_cons, List.not_mem_nil, or_false] at hp
    rcases hp with rfl | rfl | rfl | rfl | rfl <;> decide
  rw [wipedTree_of_not_wiped fun h => hdata h.2.1]

theorem run_wipe (inst : Installer) (build : FullBuild) (touched : Path → Prop)
    (pkg : FullPackage) (h : Ready d.fs) :
    runFull inst pkg d (wipeCmds opts) = some (d.withFs (wipedTree opts d.fs)) ∧
      Throughout (execFull inst pkg) (Between opts build touched d) d (wipeCmds opts) := by
  have hstart : Between opts build touched d d := between_withFs h fun _ _ _ _ _ => rfl
  have hdone : Between opts build touched d (d.withFs (wipedTree opts d.fs)) :=
    between_withFs (ready_wipedTree h) fun p _ _ _ hp => wipedTree_of_not_wiped hp
  -- with the option the script formats `/data`
  by_cases hwipe : opts.wipeUserData = true
  · have hrun : execFull inst pkg d (.base (.formatPartition ["data"])) =
        some (d.withFs (wipedTree opts d.fs)) := by
      rw [wipedTree, if_pos hwipe]
      exact execFull_treeOnly inst pkg (c := .formatPartition ["data"]) trivial d
    rw [wipeCmds, if_pos hwipe, throughout_cons_iff hrun, runFull_cons, hrun]
    exact ⟨rfl, hstart, throughout_nil hdone⟩
  · rw [wipeCmds, if_neg hwipe, wipedTree, if_neg hwipe]
    exact ⟨rfl, throughout_nil hstart⟩

variable (E : FullEmitted order opts build) (hbuild : build.Sound inst)
include hbuild

/-- `/system` is made anew. -/
theorem FullEmitted.run_system (h : Ready d.fs) :
    (∃ fs, runFull inst E.package d (E.system.map .base) = some (d.withFs fs) ∧
      Ready fs ∧ (∀ q, fs ("system" :: q) = builtPlace build.toBuild q) ∧
      ∀ p, ¬["system"] <+: p → fs p = d.fs p) ∧
    Throughout (execFull inst E.package) (Between opts build touched d) d
      (E.system.map .base) := by
  have hthrough := E.throughout_system hbuild h
  have hpkg : E.package.toPackage.system = build.system.filterMap loadEntry := rfl
  obtain ⟨fs, hrun, -, hsystem, hout⟩ := runTree_systemCmds inst.toRecovery hbuild.system
    hbuild.owners E.items_eq E.permissions_eq hpkg h.tree h.system
  -- where the script ends is one of the states it goes through
  have hready : Ready fs := (hthrough.final hrun).1
  refine ⟨⟨fs, ?_, hready, hsystem, hout⟩, ?_⟩
  · rw [runFull_treeOnly inst E.package (E.treeOnly hbuild), FullEmitted.system, hrun]
    rfl
  · refine (throughout_treeOnly inst E.package (d := d) (E.treeOnly hbuild) hthrough).imp ?_
    rintro d₁ ⟨fs₁, rfl, hready₁, hout₁⟩
    exact between_withFs hready₁ fun p hp _ _ _ => hout₁ p hp

/-- The boot files are extracted and copied. -/
theorem FullEmitted.run_installboot (h : Ready d.fs) :
    runFull inst E.package d (installbootCmds ++ [.unmountAll]) =
        some (d.booted inst.toRecovery build) ∧
      Ready (d.booted inst.toRecovery build).fs ∧
      Throughout (execFull inst E.package) (Between opts build touched d) d
        (installbootCmds ++ [.unmountAll]) := by
  obtain ⟨hkernel, hramdisk, hscript⟩ := E.find_files hbuild
  -- the tree after each of the three files
  let fs₁ := staged inst.toRecovery d.fs ramdiskPath build.ramdisk
  let fs₂ := staged inst.toRecovery fs₁ kernelPath build.kernel
  let fs₃ := staged inst.toRecovery fs₂ installbootPath build.installScript
  have h₁ : Ready fs₁ := h.update_file (by simp [stagedPaths]) _ _
  have h₂ : Ready fs₂ := h₁.update_file (by simp [stagedPaths]) _ _
  have h₃ : Ready fs₃ := h₂.update_file (by simp [stagedPaths]) _ _
  obtain ⟨h₄, hprogram⟩ := runProgram_bootTree hbuild h
  -- the commands one by one: extract the three files, make the script executable, run it
  have hstep₁ : execFull inst E.package d (.packageExtractFile "ramdisk-uboot.img" ramdiskPath) =
      some (d.withFs fs₁) :=
    execFull_packageExtractFile h (by simp [stagedPaths]) hramdisk
  have hstep₂ : execFull inst E.package (d.withFs fs₁)
      (.packageExtractFile "kernel" kernelPath) = some (d.withFs fs₂) :=
    execFull_packageExtractFile (d := d.withFs fs₁) h₁ (by simp [stagedPaths]) hkernel
  have hstep₃ : execFull inst E.package (d.withFs fs₂)
      (.packageExtractFile "installboot.sh" installbootPath) = some (d.withFs fs₃) :=
    execFull_packageExtractFile (d := d.withFs fs₂) h₂ (by simp [stagedPaths]) hscript
  have hstep₄ : execFull inst E.package (d.withFs fs₃)
      (.base (.setPermissions installbootPath 0 0 0o777)) = some (d.withFs (bootTree inst.toRecovery build d.fs)) := by
    obtain ⟨perm, hfile⟩ : ∃ perm, fs₃ installbootPath = some (.file build.installScript perm) :=
      ⟨_, Function.update_self _ _ _⟩
    have hlink : NoLinkAt fs₃ installbootPath := by
      rw [noLinkAt_iff, hfile]
      rfl
    have hset : execTree inst.toRecovery E.package.toPackage fs₃
        (.setPermissions installbootPath 0 0 0o777) = _ :=
      setPerm_eq (⟨0, 0, 0o777⟩ : Perm) h₃.tree (h₃.tree.plain (by simp [hfile])) hlink
    have hfs : (d.withFs fs₃).fs = fs₃ := rfl
    rw [execFull_treeOnly inst E.package (treeOnly_of_permPath? rfl), hfs, hset, hfile,
      Option.map_some, Option.map_some]
    have hboot : Function.update fs₃ installbootPath
        (some (.file build.installScript ⟨0, 0, 0o777⟩)) = bootTree inst.toRecovery build d.fs :=
      Function.update_idem ..
    exact congrArg (fun fs => some (d.withFs fs)) hboot
  have hstep₅ : execFull inst E.package (d.withFs (bootTree inst.toRecovery build d.fs))
      (.runProgram installbootPath) = some (d.booted inst.toRecovery build) :=
    congrArg some hprogram
  have hstep₆ : execFull inst E.package (d.booted inst.toRecovery build) .unmountAll =
      some (d.booted inst.toRecovery build) := rfl
  -- each of them changes staged files only, until the script writes the flash
  have hbetween {fs : DeviceTree} (hready : Ready fs) (hfs : ∀ p, p ∉ stagedPaths →
      fs p = d.fs p) : Between opts build touched d (d.withFs fs) :=
    between_withFs hready fun p _ hp _ _ => hfs p hp
  have hne {p : Path} (hp : p ∉ stagedPaths) :
      p ≠ ramdiskPath ∧ p ≠ kernelPath ∧ p ≠ installbootPath := by
    simpa [stagedPaths] using hp
  have hbooted : Between opts build touched d (d.booted inst.toRecovery build) :=
    ⟨h₄, rfl, rfl, rfl, fun p _ hp _ _ => bootTree_of_not_staged hp, fun i hi => bootFlash_of_off hi⟩
  refine ⟨?_, h₄, ?_⟩
  · simp only [installbootCmds, List.cons_append, List.nil_append, runFull_cons, hstep₁, hstep₂,
      hstep₃, hstep₄, hstep₅, hstep₆, Option.bind_some, runFull_nil]
  · simp only [installbootCmds, List.cons_append, List.nil_append]
    rw [throughout_cons_iff hstep₁, throughout_cons_iff hstep₂, throughout_cons_iff hstep₃,
      throughout_cons_iff hstep₄, throughout_cons_iff hstep₅, throughout_cons_iff hstep₆]
    refine ⟨hbetween h fun _ _ => rfl, hbetween h₁ fun p hp => ?_, hbetween h₂ fun p hp => ?_,
      hbetween h₃ fun p hp => ?_, hbetween h₄ fun p hp => bootTree_of_not_staged hp, hbooted,
      throughout_nil hbooted⟩
    · exact Function.update_of_ne (hne hp).1 ..
    · exact (Function.update_of_ne (hne hp).2.1 ..).trans (Function.update_of_ne (hne hp).1 ..)
    · exact (Function.update_of_ne (hne hp).2.2 ..).trans
        ((Function.update_of_ne (hne hp).2.1 ..).trans (Function.update_of_ne (hne hp).1 ..))

end Parts

/-! ## §6 The Whole Script -/

/-- What a full package makes of a device. -/
structure MakesBuild (opts : FullOptions) (build : FullBuild) (touched : Path → Prop)
    (d d' : FullDevice) : Prop where
  system : ∀ q, Spared opts touched ("system" :: q) →
    d'.fs ("system" :: q) = builtPlace build.toBuild q
  wiped : ∀ p, Wiped opts p → Spared opts touched p → d'.fs p = none
  others : ∀ p, ¬["system"] <+: p → p ∉ stagedPaths → Spared opts touched p → ¬Wiped opts p →
    d'.fs p = d.fs p
  flash : d'.flash = bootFlash build d.flashSize d.flash
  boot : d'.boot = d.boot

section Script

variable {inst : Installer} {order : DictOrder} {opts : FullOptions} {build : FullBuild}
variable {touched : Path → Prop} (E : FullEmitted order opts build) (hbuild : build.Sound inst)
variable (hbackup : opts.backuptool = true → BackupSound inst touched) {d : FullDevice}
include hbuild hbackup

/-- **Run lemma**: the script runs to its end, and throughout the device stays ready. -/
theorem FullEmitted.run_script (hd : ReadyFor opts build d) :
    (∃ d', runFull inst E.package d E.script = some d' ∧
      MakesBuild opts build touched d d') ∧
    Throughout (execFull inst E.package) (Between opts build touched d) d E.script := by
  have hscript : E.script = [.base (.assertDevice E.device)] ++ (backupCmds opts ++
      (wipeCmds opts ++ (E.system.map .base ++ (restoreCmds opts ++
        (installbootCmds ++ [.unmountAll]))))) := by
    simp [FullEmitted.script]
  have hassert : execFull inst E.package d (.base (.assertDevice E.device)) = some d := by
    have hallows : d.toDevice.Allows (.assertDevice E.device) :=
      Option.some.inj (hd.device.symm.trans E.device_eq)
    rw [execFull, exec, if_pos hallows]
    rfl
  -- the parts, one after the other
  obtain ⟨hrun₁, hthrough₁⟩ := run_backup hbackup build E.package hd.ready
  have h₁ := hthrough₁.final hrun₁
  set d₁ := d.withFs (backedUp inst opts "backup" d.fs) with hd₁
  obtain ⟨hrun₂, hthrough₂⟩ := run_wipe inst build touched E.package h₁.ready
  have h₂ := h₁.trans (hthrough₂.final hrun₂)
  set d₂ := d₁.withFs (wipedTree opts d₁.fs) with hd₂
  obtain ⟨⟨fs, hrun₃, hready₃, hsystem, hout⟩, hthrough₃⟩ := E.run_system hbuild h₂.ready
  have h₃ := h₂.trans (hthrough₃.final hrun₃)
  set d₃ := d₂.withFs fs with hd₃
  obtain ⟨hrun₄, hthrough₄⟩ := run_restore hbackup build E.package h₃.ready
  have h₄ := h₃.trans (hthrough₄.final hrun₄)
  set d₄ := d₃.withFs (backedUp inst opts "restore" d₃.fs) with hd₄
  obtain ⟨hrun₅, hready₅, hthrough₅⟩ := E.run_installboot hbuild h₄.ready
  have h₅ := h₄.trans (hthrough₅.final hrun₅)
  have hrun : runFull inst E.package d E.script =
      some (d₄.booted inst.toRecovery build) := by
    rw [hscript, List.singleton_append, runFull_cons, hassert, Option.bind_some, runFull_append,
      hrun₁, Option.bind_some, runFull_append, hrun₂, Option.bind_some, runFull_append, hrun₃,
      Option.bind_some, runFull_append, hrun₄, Option.bind_some, hrun₅]
  refine ⟨⟨_, hrun, ?_⟩, ?_⟩
  · -- what is spared by the backup is as the last part that names it left it
    have hfs {p : Path} (hp : p ∉ stagedPaths) (hspared : Spared opts touched p) :
        (d₄.booted inst.toRecovery build).fs p = fs p :=
      (bootTree_of_not_staged hp).trans (backedUp_of_spared hbackup "restore" d₃.fs hspared)
    refine ⟨fun q hq => ?_, fun p hp hspared => ?_, h₅.others, ?_, h₅.boot⟩
    · exact (hfs (fun h => stagedPath_outside h ⟨q, rfl⟩) hq).trans (hsystem q)
    · have hdata {q : Path} (hq : q = ["system"] ∨ q ∈ stagedPaths) : ¬["data"] <+: q := by
        simp only [stagedPaths, List.mem_cons, List.not_mem_nil, or_false] at hq
        rcases hq with rfl | rfl | rfl | rfl <;> decide
      have hsystem' : ¬["system"] <+: p := by
        obtain ⟨-, ⟨q, rfl⟩, -⟩ := hp
        rw [List.singleton_append, List.prefix_cons_iff]
        simp
      rw [hfs (fun h => hdata (.inr h) hp.2.1) hspared, hout p hsystem']
      exact wipedTree_of_wiped hp
    · rfl
  · rw [hscript]
    refine (throughout_cons_iff hassert).mpr ⟨hthrough₁.start, hthrough₁.append hrun₁ ?_⟩
    refine (hthrough₂.imp fun _ h => h₁.trans h).append hrun₂ ?_
    refine (hthrough₃.imp fun _ h => h₂.trans h).append hrun₃ ?_
    refine (hthrough₄.imp fun _ h => h₃.trans h).append hrun₄ ?_
    exact hthrough₅.imp fun _ h => h₄.trans h

end Script

/-- **A full package makes its build on any device**: whatever the device holds, the script
does not abort; below `/system` there is exactly the build with the permissions that are
listed, the flash holds the kernel and the ramdisk, user data is wiped if that was asked for,
and nothing else changes but files in `/tmp` and what `backuptool.sh` restores. -/
theorem full_makes_build (inst : Installer) (order : DictOrder) (opts : FullOptions)
    (build : FullBuild) (hbuild : build.Sound inst) (touched : Path → Prop)
    (hbackup : opts.backuptool = true → BackupSound inst touched) (out : FullOutput)
    (hout : writeFullOTAPackage order opts build = .ok out) (d : FullDevice)
    (hd : ReadyFor opts build d) :
    ∃ d', runFull inst out.package d out.script = some d' ∧
      MakesBuild opts build touched d d' := by
  obtain ⟨E, hscript, hpackage⟩ := exists_fullEmitted hout
  rw [hscript, hpackage]
  exact (E.run_script hbuild hbackup hd).1

/-! ## §7 A Device to Install On -/

/-- A build with a shell of its own and small boot files. -/
def smallFullBuild : FullBuild where
  toBuild := smallTarget
  kernel := [1, 2]
  ramdisk := [3]
  installScript := [35]
  selinuxFc := some (["root", "file_contexts"], [4])

/-- A recovery whose shell reads every program as `installboot.sh`, and whose backup tool
finds nothing to keep. -/
def plainInstaller : Installer where
  toRecovery := plainRecovery
  backup _ fs := fs
  shell _ := installboot

/-- Wipe the user data, and back up. -/
def fullOptions : FullOptions where
  toOptions := { smallOptions with wipeUserData := true }
  backuptool := true

/-- A device with another build and a directory `/tmp`. -/
def smallFullDevice : FullDevice where
  fs := Function.update (installed smallSource.system ⟨0, 0, 0o755⟩) ["tmp"]
    (some (.dir ⟨0, 0, 0o755⟩))
  boot := []
  productDevice := "odroidu2"
  cacheSpace := 0
  flash _ := 0
  flashSize := 16777216

theorem sound_smallFullBuild : smallFullBuild.Sound plainInstaller where
  system := by decide
  owners := by decide
  policy := by decide
  shell := rfl

theorem backupSound_plain : BackupSound plainInstaller fun _ => False where
  tree := fun _ _ h => h
  frame := fun _ _ _ _ => rfl
  spared := fun _ _ h => h

theorem readyFor_small : ReadyFor fullOptions smallFullBuild smallFullDevice where
  ready :=
    { tree := by
        have hwf : WellFormed smallSource.system := by decide
        exact (treelike_installed hwf _).update_leaf (by decide) (.inl rfl) rfl
      system := .inr rfl
      tmp := .inr rfl
      staged := by
        intro p hp n hn
        -- nothing is staged yet
        have hnone : ∀ p ∈ stagedPaths, smallFullDevice.fs p = none := by decide
        rw [hnone p hp] at hn
        cases hn }
  device := rfl

theorem full_makes_build_small : ∃ out d', writeFullOTAPackage .insertion fullOptions
      smallFullBuild = .ok out ∧
    runFull plainInstaller out.package smallFullDevice out.script = some d' ∧
    MakesBuild fullOptions smallFullBuild (fun _ => False) smallFullDevice d' := by
  obtain ⟨out, hout⟩ : ∃ out, writeFullOTAPackage .insertion fullOptions smallFullBuild =
    .ok out := ⟨_, rfl⟩
  obtain ⟨d', hd'⟩ := full_makes_build plainInstaller .insertion fullOptions smallFullBuild
    sound_smallFullBuild (fun _ => False) (fun _ => backupSound_plain) out hout smallFullDevice
    readyFor_small
  exact ⟨out, d', hout, hd'⟩

/-! ## §8 Cut Off and Started Again -/

/-- **A full package can be started again**: cut off after any command, with whatever the
interrupted copies have left where the kernel and the ramdisk go, the script runs to its end
when it is started again, and makes the same tree and the same flash as without the cut. -/
theorem full_restarts (inst : Installer) (order : DictOrder) (opts : FullOptions)
    (build : FullBuild) (hbuild : build.Sound inst) (touched : Path → Prop)
    (hbackup : opts.backuptool = true → BackupSound inst touched) (out : FullOutput)
    (hout : writeFullOTAPackage order opts build = .ok out) (d : FullDevice)
    (hd : ReadyFor opts build d) (done rest : List FullCmd) (hcut : out.script = done ++ rest) :
    ∃ d' d₁, runFull inst out.package d out.script = some d' ∧
      runFull inst out.package d done = some d₁ ∧
      ∀ torn, (∀ i, OffBoot build d.flashSize i → torn i = d₁.flash i) →
        ∃ d₂, runFull inst out.package { d₁ with flash := torn } out.script = some d₂ ∧
          d₂.flash = d'.flash ∧
          ∀ p, p ∉ stagedPaths → Spared opts touched p → d₂.fs p = d'.fs p := by
  obtain ⟨E, hscript, hpackage⟩ := exists_fullEmitted hout
  rw [hscript] at hcut ⊢
  rw [hpackage]
  obtain ⟨⟨d', hrun', hmakes'⟩, hthrough⟩ := E.run_script hbuild hbackup hd
  -- the script runs as far as it was cut off
  obtain ⟨d₁, hrun₁⟩ : ∃ d₁, runFull inst E.package d done = some d₁ := by
    rw [hcut, runFull_append] at hrun'
    obtain ⟨d₁, hrun₁, -⟩ := Option.bind_eq_some_iff.mp hrun'
    exact ⟨d₁, hrun₁⟩
  rw [hcut] at hthrough
  -- where it was cut off the device is ready for another run
  have hbetween := hthrough.of_run hrun₁
  refine ⟨d', d₁, hrun', hrun₁, fun torn htorn => ?_⟩
  have hd₂ : ReadyFor opts build { d₁ with flash := torn } :=
    ⟨hbetween.ready, hd.device.trans (congrArg some hbetween.device.symm)⟩
  obtain ⟨⟨d₂, hrun₂, hmakes₂⟩, -⟩ := E.run_script hbuild hbackup hd₂
  refine ⟨d₂, hrun₂, ?_, fun p hp hspared => ?_⟩
  · have hsize : ({ d₁ with flash := torn } : FullDevice).flashSize = d.flashSize := hbetween.size
    rw [hmakes₂.flash, hmakes'.flash, hsize]
    exact bootFlash_congr fun i hi => (htorn i hi).trans (hbetween.flash i hi)
  · -- `/system` is made anew; outside of it and of `/data` nothing has changed
    by_cases hsystem : ["system"] <+: p
    · obtain ⟨q, rfl⟩ := prefix_system hsystem
      rw [hmakes₂.system q hspared, hmakes'.system q hspared]
    · by_cases hwiped : Wiped opts p
      · rw [hmakes₂.wiped p hwiped hspared, hmakes'.wiped p hwiped hspared]
      · rw [hmakes₂.others p hsystem hp hspared hwiped, hmakes'.others p hsystem hp hspared hwiped]
        exact hbetween.others p hsystem hp hspared hwiped

theorem full_restarts_small : ∃ out, writeFullOTAPackage .insertion fullOptions smallFullBuild =
      .ok out ∧
    ∃ d' d₁, runFull plainInstaller out.package smallFullDevice out.script = some d' ∧
      runFull plainInstaller out.package smallFullDevice (out.script.take 7) = some d₁ ∧
      ∀ torn, (∀ i, OffBoot smallFullBuild smallFullDevice.flashSize i → torn i = d₁.flash i) →
        ∃ d₂, runFull plainInstaller out.package { d₁ with flash := torn } out.script = some d₂ ∧
          d₂.flash = d'.flash ∧
          ∀ p, p ∉ stagedPaths → Spared fullOptions (fun _ => False) p → d₂.fs p = d'.fs p := by
  obtain ⟨out, hout⟩ : ∃ out, writeFullOTAPackage .insertion fullOptions smallFullBuild =
    .ok out := ⟨_, rfl⟩
  exact ⟨out, hout, full_restarts plainInstaller .insertion fullOptions smallFullBuild
    sound_smallFullBuild (fun _ => False) (fun _ => backupSound_plain) out hout smallFullDevice
    readyFor_small _ _ (List.take_append_drop 7 out.script).symm⟩

/-! ## §9 The Kernel and the Ramdisk -/

/-- **When the kernel survives**: after a full package the flash holds the whole ramdisk, and
the whole kernel exactly when what the kernel has from byte 8388608 on is what the ramdisk
begins with; a kernel that ends before leaves nothing to compare.  No other byte of the flash
has changed. -/
theorem kernel_intact_iff (inst : Installer) (order : DictOrder) (opts : FullOptions)
    (build : FullBuild) (hbuild : build.Sound inst) (touched : Path → Prop)
    (hbackup : opts.backuptool = true → BackupSound inst touched) (out : FullOutput)
    (hout : writeFullOTAPackage order opts build = .ok out) (d d' : FullDevice)
    (hd : ReadyFor opts build d) (hkernel : 1256960 + build.kernel.length ≤ d.flashSize)
    (hramdisk : 9645568 + build.ramdisk.length ≤ d.flashSize)
    (hrun : runFull inst out.package d out.script = some d') :
    Holds d'.flash 9645568 build.ramdisk ∧
      (Holds d'.flash 1256960 build.kernel ↔
        ∀ j b b', build.kernel[8388608 + j]? = some b → build.ramdisk[j]? = some b' → b = b') ∧
      ∀ i, ¬InSegment 1256960 build.kernel.length i →
        ¬InSegment 9645568 build.ramdisk.length i → d'.flash i = d.flash i := by
  obtain ⟨E, hscript, hpackage⟩ := exists_fullEmitted hout
  rw [hscript, hpackage] at hrun
  obtain ⟨⟨d₁, hrun₁, hmakes⟩, -⟩ := E.run_script hbuild hbackup hd
  obtain rfl : d₁ = d' := Option.some.inj (hrun₁.symm.trans hrun)
  rw [hmakes.flash]
  refine ⟨holds_writeSegment hramdisk, ?_, fun i hi hi' => bootFlash_of_off (.inr ⟨hi, hi'⟩)⟩
  rw [bootFlash, holds_writeSegment_iff (holds_writeSegment hkernel) hramdisk]
  -- a shared byte is `8388608` bytes further into the kernel than into the ramdisk
  constructor
  · intro hagree j b b' hb hb'
    exact hagree (8388608 + j) j b b' (by omega) hb hb'
  · intro hagree j j' b b' hcell hb hb'
    obtain rfl : j = 8388608 + j' := by omega
    exact hagree j' b b' hb hb'

theorem kernel_intact_iff_small : ∃ out d', writeFullOTAPackage .insertion fullOptions
      smallFullBuild = .ok out ∧
    runFull plainInstaller out.package smallFullDevice out.script = some d' ∧
    Holds d'.flash 9645568 smallFullBuild.ramdisk ∧
      (Holds d'.flash 1256960 smallFullBuild.kernel ↔
        ∀ j b b', smallFullBuild.kernel[8388608 + j]? = some b →
          smallFullBuild.ramdisk[j]? = some b' → b = b') ∧
      ∀ i, ¬InSegment 1256960 smallFullBuild.kernel.length i →
        ¬InSegment 9645568 smallFullBuild.ramdisk.length i → d'.flash i = smallFullDevice.flash i := by
  obtain ⟨out, hout⟩ : ∃ out, writeFullOTAPackage .insertion fullOptions smallFullBuild =
    .ok out := ⟨_, rfl⟩
  obtain ⟨E, hscript, hpackage⟩ := exists_fullEmitted hout
  have hbackup : fullOptions.backuptool = true → BackupSound plainInstaller fun _ => False :=
    fun _ => backupSound_plain
  obtain ⟨⟨d', hrun, -⟩, -⟩ := E.run_script sound_smallFullBuild hbackup readyFor_small
  rw [← hscript, ← hpackage] at hrun
  exact ⟨out, d', hout, hrun, kernel_intact_iff plainInstaller .insertion fullOptions
    smallFullBuild sound_smallFullBuild (fun _ => False) hbackup out hout
    smallFullDevice d' readyFor_small (by decide) (by decide) hrun⟩

end OdroidU2.Ota
