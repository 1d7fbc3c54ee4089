import OdroidU2.Foundations.Phases
import OdroidU2.Ota.IncrementalPlan

/-!
# The Parts of an Incremental Script

The script of a package that was written to its end, whatever `updating_recovery` was: a
part that only looks at the device, and a part that changes it.

- `exists_parts` — what a package that was written to its end consists of
- `looks_of_mem_verify`, `installStep_of_mem` — what each part is made of
- `patches_cases`, `mem_deleteFiles` — the commands that patch and that delete
-/

namespace OdroidU2.Ota

open OdroidU2.Foundations

/-! ## §1 Kinds of Commands -/

/-- The command deletes, formats, patches, extracts, links or changes permissions. -/
def Cmd.Changes : Cmd → Prop
  | .formatPartition .. | .deleteFiles .. | .applyPatch .. | .unpackPackageDir .. | .symlink ..
  | .setPermissions .. | .setPermissionsRecursive .. => True
  | _ => False

instance (c : Cmd) : Decidable c.Changes := by
  unfold Cmd.Changes
  induction c using Cmd.casesOn <;> infer_instance

/-- The command is an `apply_patch`. -/
def Cmd.Patches (c : Cmd) : Prop :=
  ∃ target tgtSize tgtSha1 srcSha1 patch, c = .applyPatch target tgtSize tgtSha1 srcSha1 patch

/-- The command is an `apply_patch_check`. -/
def Cmd.IsPatchCheck (c : Cmd) : Prop := ∃ target sha1s, c = .patchCheck target sha1s

/-- The names `script.DeleteFiles` is given for the new recovery image. -/
def recoveryFiles : List FileName :=
  [.plain ["system", "recovery-from-boot.p"], .plain ["system", "etc", "install-recovery.sh"]]

/-! ## §2 The Parts -/

/-- The intermediate results of a package that was written to its end. -/
structure Parts (tools : Tools) (order : DictOrder) (opts : Options) (target source : Build)
    (updatingRecovery : Bool) where
  plan : Plan
  sourceFp : String
  targetFp : String
  device : String
  boot : Option BootUpdate
  permissions : List Cmd
  items : Items
  makePlan_eq : makePlan tools opts target.system source.system = .ok plan
  boot_eq : bootUpdate tools target.boot source.boot = .ok boot
  permissions_eq : permissionCmds order target updatingRecovery = .ok (permissions, items)
  copySource_ok : ∃ links, copySystemFiles source.system items = .ok links

namespace Parts

variable {tools : Tools} {order : DictOrder} {opts : Options} {target source : Build}
variable {updatingRecovery : Bool} (E : Parts tools order opts target source updatingRecovery)

/-- The part that only looks at the device. -/
def verify : List Cmd :=
  verifyCmds tools opts E.plan E.sourceFp E.targetFp E.device E.boot updatingRecovery

/-- The part that changes the device, up to the symbolic links. -/
def remove : List Cmd :=
  removeCmds opts E.plan ++ patchCmds tools E.plan ++ bootCmds tools opts E.boot ++
    recoveryCmds updatingRecovery

/-- The part that brings in what is new. -/
def unpack : List Cmd :=
  unpackCmds E.plan (symlinksOf source.system) (symlinksOf target.system)

/-- The part that changes the device. -/
def install : List Cmd :=
  E.remove ++ E.unpack ++ E.permissions ++ finishCmds tools E.plan

/-- The whole script. -/
def script : List Cmd := E.verify ++ E.install

/-- The output zip. -/
def package : Package where
  system := E.plan.verbatimTargets
  patches := E.plan.patchList.map (fun e => (e.name, e.patch)) ++
    (E.boot.map fun b => (bootPatchName, b.patch)).toList

end Parts

/-- A package that was written to its end consists of its parts. -/
theorem exists_parts {tools : Tools} {order : DictOrder} {opts : Options} {target source : Build}
    {updating : Except PyError Bool} {out : Output}
    (h : writeIncrementalOTAPackage tools order opts target source updating = .ok out) :
    ∃ u, updating = .ok u ∧ ∃ E : Parts tools order opts target source u,
      out.script = E.script ∧ out.package = E.package := by
  -- the steps of the function in their order; each of them can raise
  obtain ⟨preDevice, -, h⟩ := bind_eq_ok_iff.mp h
  obtain ⟨postTimestamp, -, h⟩ := bind_eq_ok_iff.mp h
  obtain ⟨plan, hplan, h⟩ := bind_eq_ok_iff.mp h
  obtain ⟨sourceFp, -, h⟩ := bind_eq_ok_iff.mp h
  obtain ⟨targetFp, -, h⟩ := bind_eq_ok_iff.mp h
  obtain ⟨u, hu, h⟩ := bind_eq_ok_iff.mp h
  obtain ⟨device, -, h⟩ := bind_eq_ok_iff.mp h
  obtain ⟨boot, hboot, h⟩ := bind_eq_ok_iff.mp h
  obtain ⟨⟨permissions, items⟩, hpermissions, h⟩ := bind_eq_ok_iff.mp h
  obtain ⟨⟨links, items'⟩, hcopy, h⟩ := bind_eq_ok_iff.mp h
  have hlinks : links = symlinksOf source.system := by
    obtain ⟨items₁, -, hcopy⟩ := bind_eq_ok_iff.mp hcopy
    cases hcopy
    rfl
  subst hlinks
  cases h
  refine ⟨u, hu, ⟨plan, sourceFp, targetFp, device, boot, permissions, items, hplan, hboot,
    hpermissions, _, hcopy⟩, ?_, rfl⟩
  simp [Parts.script, Parts.verify, Parts.install, Parts.remove, Parts.unpack]

/-- The boot image is updated when it differs. -/
theorem bootUpdate_ok {tools : Tools} {target source : Bytes} {boot : Option BootUpdate}
    (h : bootUpdate tools target source = .ok boot) :
    (boot = none ∧ target = source) ∨
      ∃ patch, boot = some ⟨source, target, patch⟩ ∧ target ≠ source := by
  rw [bootUpdate] at h
  -- equal images, a difference that cannot be computed, a patch
  split at h
  · next heq =>
    cases h
    exact .inl ⟨rfl, heq.symm⟩
  · next hne =>
    split at h
    · cases h
    · next patch hpatch =>
      cases h
      exact .inr ⟨patch, rfl, fun heq => hne heq.symm⟩

/-! ## §3 The Permission Commands -/

/-- How the permission commands come about. -/
theorem permissionCmds_ok {order : DictOrder} {target : Build} {u : Bool} {cmds : List Cmd}
    {items : Items} (h : permissionCmds order target u = .ok (cmds, items)) :
    ∃ items₀ items₁, recoveryItems u = .ok items₀ ∧
      copySystemItems items₀ target.system = .ok items₁ ∧
      items = getMetadata items₁ target.metadata ∧ setSystemPermissions order items = .ok cmds := by
  -- the items of the recovery, those of the build, the metadata, the commands
  obtain ⟨items₀, hitems₀, h⟩ := bind_eq_ok_iff.mp h
  obtain ⟨⟨links, items₁⟩, hcopy, h⟩ := bind_eq_ok_iff.mp h
  obtain ⟨items₁', hitems₁, hcopy⟩ := bind_eq_ok_iff.mp hcopy
  cases hcopy
  obtain ⟨cmds', hset, h⟩ := bind_eq_ok_iff.mp h
  cases h
  exact ⟨items₀, items₁, hitems₀, hitems₁, rfl, hset⟩

/-- `SetPermissions` on the Item of `system`. -/
theorem setSystemPermissions_ok {order : DictOrder} {items : Items} {cmds : List Cmd}
    (h : setSystemPermissions order items = .ok cmds) :
    ∃ items₁ tree, getItem items ["system"] false = .ok items₁ ∧
      itemTree items₁ (itemFuel items₁) ["system"] = .ok tree ∧ tree.isDir = true ∧
      cmds = recurse (bestSubtree order) tree Subtree.unset := by
  obtain ⟨items₁, hitems₁, h⟩ := bind_eq_ok_iff.mp h
  obtain ⟨tree, htree, h⟩ := bind_eq_ok_iff.mp h
  rw [setPermissions] at h
  by_cases hdir : tree.isDir = true
  · rw [if_pos hdir] at h
    cases h
    exact ⟨items₁, tree, hitems₁, htree, hdir, rfl⟩
  · -- `assert self.dir`
    rw [if_neg hdir] at h
    cases h

namespace Parts

variable {tools : Tools} {order : DictOrder} {opts : Options} {target source : Build}
variable {updatingRecovery : Bool} (E : Parts tools order opts target source updatingRecovery)

/-- Every permission command names a path. -/
theorem permPath?_of_mem_permissions {c : Cmd} (hc : c ∈ E.permissions) :
    ∃ path, c.permPath? = some path := by
  obtain ⟨-, -, -, -, -, hset⟩ := permissionCmds_ok E.permissions_eq
  obtain ⟨-, tree, -, -, -, hcmds⟩ := setSystemPermissions_ok hset
  rw [hcmds] at hc
  obtain ⟨j, -, hj⟩ := permPath?_recurse (bestSubtree order) tree Subtree.unset c hc
  exact ⟨j.name, hj⟩

/-! ## §4 What the Parts Are Made Of -/

/-- Nothing is changed while the device is looked at. -/
theorem looks_of_mem_verify {c : Cmd} (hc : c ∈ E.verify) : ¬c.Changes := by
  simp only [verify, verifyCmds, List.mem_append, List.mem_cons, List.not_mem_nil, or_false,
    List.mem_map, Option.mem_toList, Option.map_eq_some_iff] at hc
  -- the first part of the script only looks
  rcases hc with ((((rfl | rfl | rfl | rfl) | ⟨e, -, rfl⟩) | ⟨b, -, rfl⟩) | hspace) | rfl
  · exact id
  · exact id
  · exact id
  · exact id
  · exact id
  · exact id
  · split at hspace
    · rw [List.mem_singleton.mp hspace]
      exact id
    · cases hspace
  · exact id

/-- A command that is appended while the device is changed. -/
inductive InstallStep : Cmd → Prop where
  | print (message : String) : InstallStep (.print message)
  | wipe : InstallStep (.formatPartition ["data"])
  | delete (names : List FileName) : InstallStep (.deleteFiles names)
  | patch (e : PatchEntry) (mem : e ∈ E.plan.patchList) : InstallStep (applyPatchCmd tools e)
  | patchBoot (b : BootUpdate) (mem : E.boot = some b) :
      InstallStep (.applyPatch (b.partition tools opts) b.target.length (tools.sha1.digest b.target)
        (tools.sha1.digest b.source) bootPatchName)
  | unpack : InstallStep (.unpackPackageDir ["system"] ["system"])
  | link (s : LinkDest String × Path)
      (mem : s ∈ symlinksToCreate (symlinksOf source.system) (symlinksOf target.system)) :
      InstallStep (.symlink s.1 s.2)
  | permission (c : Cmd) (path : Path) (names : c.permPath? = some path) : InstallStep c

theorem installStep_of_mem_remove {c : Cmd} (hc : c ∈ E.remove) : E.InstallStep c := by
  simp only [remove, removeCmds, patchCmds, bootCmds, recoveryCmds, List.mem_append,
    List.mem_cons, List.mem_map, List.mem_filter, mem_deleteFilesCmds_iff] at hc
  -- the commands in the order in which the source emits them
  rcases hc with (((hwipe | rfl | ⟨-, rfl⟩) | rfl | ⟨e, ⟨he, -⟩, rfl⟩) | hboot) | hrecovery
  · split at hwipe
    · simp only [List.mem_cons, List.not_mem_nil, or_false] at hwipe
      rcases hwipe with rfl | rfl
      · exact .print _
      · exact .wipe
    · cases hwipe
  · exact .print _
  · exact .delete _
  · exact .print _
  · exact .patch e he
  · split at hboot
    · cases hboot
    · next b hb =>
      simp only [List.mem_cons, List.not_mem_nil, or_false] at hboot
      rcases hboot with rfl | rfl
      · exact .print _
      · exact .patchBoot b hb
  · split at hrecovery
    · rw [List.mem_singleton.mp hrecovery]
      exact .delete _
    · cases hrecovery

theorem installStep_of_mem_unpack {c : Cmd} (hc : c ∈ E.unpack) : E.InstallStep c := by
  simp only [unpack, unpackCmds, List.mem_append, List.mem_cons, mem_deleteFilesCmds_iff,
    mem_makeSymlinksCmds_iff] at hc
  -- deleted files, unpacked files, old links, new links
  rcases hc with (⟨-, rfl⟩ | hunpack) | rfl | ⟨-, rfl⟩ | ⟨s, hs, rfl⟩
  · exact .delete _
  · split at hunpack
    · simp only [List.mem_cons, List.not_mem_nil, or_false] at hunpack
      rcases hunpack with rfl | rfl
      · exact .print _
      · exact .unpack
    · cases hunpack
  · exact .print _
  · exact .delete _
  · exact .link s hs

/-- Every command of the second part is one of these. -/
theorem installStep_of_mem {c : Cmd} (hc : c ∈ E.install) : E.InstallStep c := by
  simp only [install, finishCmds, List.mem_append, List.mem_cons, List.mem_map, List.mem_filter,
    List.not_mem_nil, or_false] at hc
  rcases hc with ((hremove | hunpack) | hpermission) | rfl | ⟨e, ⟨he, -⟩, rfl⟩ | rfl
  · exact E.installStep_of_mem_remove hremove
  · exact E.installStep_of_mem_unpack hunpack
  · obtain ⟨path, hpath⟩ := E.permPath?_of_mem_permissions hpermission
    exact .permission c path hpath
  · exact .print _
  · exact .patch e he
  · exact .permission _ _ rfl

/-- No check comes after the first part. -/
theorem not_isPatchCheck_of_mem_install {c : Cmd} (hc : c ∈ E.install) : ¬c.IsPatchCheck := by
  rintro ⟨target, sha1s, rfl⟩
  cases E.installStep_of_mem hc with
  | permission _ path names => cases names

/-- What is patched: a file of the patch list, or the boot partition. -/
theorem patches_cases {c : Cmd} (hc : c ∈ E.install) (hpatches : c.Patches) :
    (∃ e ∈ E.plan.patchList, c = applyPatchCmd tools e) ∨
      ∃ b, E.boot = some b ∧ c = .applyPatch (b.partition tools opts) b.target.length
        (tools.sha1.digest b.target) (tools.sha1.digest b.source) bootPatchName := by
  obtain ⟨_, _, _, _, _, rfl⟩ := hpatches
  have hstep := E.installStep_of_mem hc
  generalize hcmd : Cmd.applyPatch _ _ _ _ _ = c at hstep
  -- a patch is one of a file or the one of the boot image
  cases hstep with
  | patch e he => exact .inl ⟨e, he, rfl⟩
  | patchBoot b hb => exact .inr ⟨b, hb, rfl⟩
  | permission _ path names =>
    rw [← hcmd] at names
    cases names
  | _ => cases hcmd

/-- The delete commands, none of which has an empty list. -/
theorem deleteFiles_mem_script {names : List FileName} : .deleteFiles names ∈ E.script ↔
    names ≠ [] ∧ (names = unneededFiles E.plan ∨
      (updatingRecovery = true ∧ names = recoveryFiles) ∨
      names = symlinksToDelete (symlinksOf source.system) (symlinksOf target.system) ∨
      names = (symlinksToCreate (symlinksOf source.system) (symlinksOf target.system)).map
        fun s => .plain s.2) := by
  -- none of the other parts deletes anything
  have hverify : .deleteFiles names ∉ E.verify := fun h => E.looks_of_mem_verify h trivial
  have hpermission : .deleteFiles names ∉ E.permissions := by
    intro h
    obtain ⟨path, hpath⟩ := E.permPath?_of_mem_permissions h
    cases hpath
  have hwipe : .deleteFiles names ∉ (if opts.wipeUserData then
      [Cmd.print "Erasing user data...", .formatPartition ["data"]] else []) := by
    split <;> simp
  have hpatch (e : PatchEntry) : applyPatchCmd tools e ≠ .deleteFiles names := nofun
  have hboot : .deleteFiles names ∉ bootCmds tools opts E.boot := by
    unfold bootCmds
    split <;> simp
  have hrecovery : .deleteFiles names ∈ recoveryCmds updatingRecovery ↔
      updatingRecovery = true ∧ names = recoveryFiles := by
    rw [recoveryCmds]
    split
    · next hu => simp [hu, recoveryFiles]
    · next hu => simp [hu]
  have hunpack : .deleteFiles names ∉ (if E.plan.verbatimTargets ≠ [] then
      [Cmd.print "Unpacking new files...", .unpackPackageDir ["system"] ["system"]] else []) := by
    split <;> simp
  -- what is left are the four lists
  simp only [script, install, remove, unpack, removeCmds, patchCmds, unpackCmds, finishCmds,
    List.mem_append, List.mem_cons, List.mem_map, List.not_mem_nil, mem_deleteFilesCmds_iff,
    mem_makeSymlinksCmds_iff, hverify, hpermission, hwipe, hpatch, hboot, hrecovery, hunpack,
    reduceCtorEq, and_false, exists_false, false_or, or_false, Cmd.deleteFiles.injEq]
  have hnil : recoveryFiles ≠ [] := List.cons_ne_nil _ _
  constructor
  · rintro ((⟨hne, rfl⟩ | ⟨hu, rfl⟩) | ⟨hne, rfl⟩ | ⟨hne, rfl⟩)
    · exact ⟨hne, .inl rfl⟩
    · exact ⟨hnil, .inr (.inl ⟨hu, rfl⟩)⟩
    · exact ⟨hne, .inr (.inr (.inl rfl))⟩
    · exact ⟨hne, .inr (.inr (.inr rfl))⟩
  · rintro ⟨hne, rfl | hu | rfl | rfl⟩
    · exact .inl (.inl ⟨hne, rfl⟩)
    · exact .inl (.inr hu)
    · exact .inr (.inl ⟨hne, rfl⟩)
    · exact .inr (.inr ⟨hne, rfl⟩)

/-- The names that some delete command is given. -/
theorem mem_deleteFiles {fn : FileName} :
    (∃ names, .deleteFiles names ∈ E.script ∧ fn ∈ names) ↔
      fn ∈ unneededFiles E.plan ∨ (updatingRecovery = true ∧ fn ∈ recoveryFiles) ∨
      fn ∈ symlinksToDelete (symlinksOf source.system) (symlinksOf target.system) ∨
      fn ∈ (symlinksToCreate (symlinksOf source.system) (symlinksOf target.system)).map
        fun s => FileName.plain s.2 := by
  constructor
  · rintro ⟨names, hnames, hfn⟩
    -- the four places at which the script deletes
    rcases E.deleteFiles_mem_script.mp hnames with ⟨-, rfl | ⟨hu, rfl⟩ | rfl | rfl⟩
    · exact .inl hfn
    · exact .inr (.inl ⟨hu, hfn⟩)
    · exact .inr (.inr (.inl hfn))
    · exact .inr (.inr (.inr hfn))
  · have hmem {names : List FileName} (hfn : fn ∈ names) (h : _) :=
      E.deleteFiles_mem_script.mpr ⟨List.ne_nil_of_mem hfn, h⟩
    rintro (hfn | ⟨hu, hfn⟩ | hfn | hfn)
    · exact ⟨_, hmem hfn (.inl rfl), hfn⟩
    · exact ⟨_, hmem hfn (.inr (.inl ⟨hu, rfl⟩)), hfn⟩
    · exact ⟨_, hmem hfn (.inr (.inr (.inl rfl))), hfn⟩
    · exact ⟨_, hmem hfn (.inr (.inr (.inr rfl))), hfn⟩

end Parts

end OdroidU2.Ota
