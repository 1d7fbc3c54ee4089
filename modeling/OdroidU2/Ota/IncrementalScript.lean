import OdroidU2.Ota.IncrementalPlan
import OdroidU2.Ota.LocalEffects

/-!
# The Commands of an Incremental Package

What each command of an incremental script can be, and that all of them fit the
directories of the two builds: then the updater runs the script at each path alone.
-/

namespace OdroidU2.Ota

open OdroidU2.Foundations

/-! ## §1 Two Builds and a Device -/

/-- Two builds an incremental package can lead between.  The fingerprint of a build is
the one in its `build.prop`. -/
structure UpdatePair (rec : Recovery) (target source : Build) : Prop where
  target_wf : WellFormed target.system
  source_wf : WellFormed source.system
  kinds : ∀ p n m, imageAt target.system p = some n → imageAt source.system p = some m →
    n.isDir = m.isDir
  target_buildProp : ∃ data, imageAt target.system ["build.prop"] = some (.file data ()) ∧
    rec.fingerprint data = target.buildProp "ro.build.fingerprint"
  source_buildProp : ∃ data, imageAt source.system ["build.prop"] = some (.file data ()) ∧
    rec.fingerprint data = source.buildProp "ro.build.fingerprint"
  target_recoveryImg : imageAt target.system ["recovery.img"] = none
  source_recoveryImg : imageAt source.system ["recovery.img"] = none

/-- A device that holds the source build, and that the package is for. -/
structure HoldsSource (opts : Options) (target source : Build) (d : Device) : Prop where
  tree : d.fs.Treelike
  root : d.fs.DirAt ["system"]
  system : ∀ p, p ≠ [] → (d.fs ("system" :: p)).map Node.contents = imageAt source.system p
  boot : d.boot = source.boot
  device : opts.overrideDevice.or (target.buildProp "ro.product.device") = some d.productDevice
  cache : ∀ p data, imageAt source.system p = some (.file data ()) → data.length ≤ d.cacheSpace

/-! ## §2 What Was Emitted -/

/-- The intermediate results of a generator that succeeds. -/
structure Emitted (tools : Tools) (order : DictOrder) (opts : Options) (target source : Build) where
  plan : Plan
  sourceFp : String
  targetFp : String
  device : String
  boot : Option BootUpdate
  permissions : List Cmd
  items : Items
  makePlan_eq : makePlan tools opts target.system source.system = .ok plan
  sourceFp_eq : source.buildProp "ro.build.fingerprint" = some sourceFp
  targetFp_eq : target.buildProp "ro.build.fingerprint" = some targetFp
  device_eq : opts.overrideDevice.or (target.buildProp "ro.product.device") = some device
  boot_eq : bootUpdate tools target.boot source.boot = .ok boot
  permissions_eq : permissionCmds order target false = .ok (permissions, items)

namespace Emitted

variable {tools : Tools} {order : DictOrder} {opts : Options} {target source : Build}
variable (E : Emitted tools order opts target source)

/-- The links that are deleted because the target build has none there. -/
def toDelete (_ : Emitted tools order opts target source) : List FileName :=
  symlinksToDelete (symlinksOf source.system) (symlinksOf target.system)

/-- The links that are created. -/
def toCreate (_ : Emitted tools order opts target source) : List (LinkDest String × Path) :=
  symlinksToCreate (symlinksOf source.system) (symlinksOf target.system)

/-- The script up to the permissions. -/
def changes : List Cmd :=
  verifyCmds tools opts E.plan E.sourceFp E.targetFp E.device E.boot false ++
    removeCmds opts E.plan ++ patchCmds tools E.plan ++ bootCmds tools opts E.boot ++
    unpackCmds E.plan (symlinksOf source.system) (symlinksOf target.system)

/-- The whole script. -/
def script : List Cmd := E.changes ++ E.permissions ++ finishCmds tools E.plan

/-- The output zip. -/
def package : Package where
  system := E.plan.verbatimTargets
  patches := E.plan.patchList.map (fun e => (e.name, e.patch)) ++
    (E.boot.map fun b => (bootPatchName, b.patch)).toList

end Emitted

theorem getBuildProp_ok {prop value : String} {buildProp : String → Option String} :
    getBuildProp prop buildProp = .ok value ↔ buildProp prop = some value := by
  unfold getBuildProp
  cases buildProp prop <;> simp

/-- A generator that succeeds emitted its script in these parts. -/
theorem exists_emitted {tools : Tools} {order : DictOrder} {opts : Options}
    {target source : Build} {out : Output}
    (h : writeIncrementalOTAPackage tools order opts target source (.ok false) = .ok out) :
    ∃ E : Emitted tools order opts target source,
      out.script = E.script ∧ out.package = E.package := by
  -- the steps of the function in their order; each of them can raise
  obtain ⟨preDevice, -, h⟩ := bind_eq_ok_iff.mp h
  obtain ⟨postTimestamp, -, h⟩ := bind_eq_ok_iff.mp h
  obtain ⟨plan, hplan, h⟩ := bind_eq_ok_iff.mp h
  obtain ⟨sourceFp, hsourceFp, h⟩ := bind_eq_ok_iff.mp h
  obtain ⟨targetFp, htargetFp, h⟩ := bind_eq_ok_iff.mp h
  obtain ⟨updating, hupdating, h⟩ := bind_eq_ok_iff.mp h
  cases hupdating
  obtain ⟨device, hdevice, h⟩ := bind_eq_ok_iff.mp h
  obtain ⟨boot, hboot, h⟩ := bind_eq_ok_iff.mp h
  obtain ⟨⟨permissions, items⟩, hpermissions, h⟩ := bind_eq_ok_iff.mp h
  obtain ⟨⟨links, items'⟩, hcopy, h⟩ := bind_eq_ok_iff.mp h
  obtain ⟨items₁, -, hcopy⟩ := bind_eq_ok_iff.mp hcopy
  cases hcopy
  cases h
  unfold assertedDevice at hdevice
  have hdevice' : opts.overrideDevice.or (target.buildProp "ro.product.device") = some device := by
    cases hover : opts.overrideDevice with
    | none =>
      rw [hover] at hdevice
      rw [Option.none_or]
      exact getBuildProp_ok.mp hdevice
    | some name =>
      rw [hover] at hdevice
      cases hdevice
      rfl
  refine ⟨⟨plan, sourceFp, targetFp, device, boot, permissions, items, hplan,
    getBuildProp_ok.mp hsourceFp, getBuildProp_ok.mp htargetFp, hdevice', hboot, hpermissions⟩,
    ?_, rfl⟩
  simp [Emitted.script, Emitted.changes, recoveryCmds]

/-! ## §3 The Commands One by One -/

namespace Emitted

variable {tools : Tools} {order : DictOrder} {opts : Options} {target source : Build}
variable (E : Emitted tools order opts target source)

/-- The names some delete command is given. -/
def Dropped (fn : FileName) : Prop :=
  fn ∈ unneededFiles E.plan ∨ fn ∈ E.toDelete ∨ fn ∈ E.toCreate.map fun s => FileName.plain s.2

/-- The commands of the script. -/
inductive Step : Cmd → Prop where
  | mount : Step (.mount ["system"])
  | print (message : String) : Step (.print message)
  | comment (message : String) : Step (.comment message)
  | fingerprint : Step (.assertSomeFingerprint [E.sourceFp, E.targetFp])
  | device : Step (.assertDevice E.device)
  | check (e : PatchEntry) (mem : e ∈ E.plan.patchList) : Step (patchCheckCmd tools e)
  | checkBoot (b : BootUpdate) (mem : E.boot = some b) :
      Step (.patchCheck (b.partition tools opts) [])
  | space : Step (.cacheFreeSpaceCheck E.plan.largestSourceSize)
  | wipe (wipes : opts.wipeUserData = true) : Step (.formatPartition ["data"])
  | delete (names : List FileName) (dropped : ∀ fn ∈ names, E.Dropped fn) :
      Step (.deleteFiles names)
  | patch (e : PatchEntry) (mem : e ∈ E.plan.patchList) : Step (applyPatchCmd tools e)
  | patchBoot (b : BootUpdate) (mem : E.boot = some b) :
      Step (.applyPatch (b.partition tools opts) b.target.length (tools.sha1.digest b.target)
        (tools.sha1.digest b.source) bootPatchName)
  | unpack : Step (.unpackPackageDir ["system"] ["system"])
  | link (s : LinkDest String × Path) (mem : s ∈ E.toCreate) : Step (.symlink s.1 s.2)
  | permission (c : Cmd) (mem : c ∈ E.permissions) : Step c
  | buildProp : Step (.setPermissions ["system", "build.prop"] 0 0 0o644)

theorem mem_deleteFilesCmds {names : List FileName} {c : Cmd} (h : c ∈ deleteFilesCmds names) :
    c = .deleteFiles names :=
  (mem_deleteFilesCmds_iff.mp h).2

theorem step_of_verify : ∀ c ∈ verifyCmds tools opts E.plan E.sourceFp E.targetFp E.device E.boot
    false, E.Step c := by
  intro c hc
  simp only [verifyCmds, List.mem_append, List.mem_cons, List.not_mem_nil, or_false] at hc
  -- the commands in the order in which the source emits them
  rcases hc with ((((rfl | rfl | rfl | rfl) | hcheck) | hboot) | hspace) | rfl
  · exact .mount
  · exact .fingerprint
  · exact .device
  · exact .print _
  · obtain ⟨e, he, rfl⟩ := List.mem_map.mp hcheck
    exact .check e he
  · obtain ⟨b, hb, rfl⟩ := Option.map_eq_some_iff.mp (Option.mem_toList.mp hboot)
    exact .checkBoot b hb
  · split at hspace
    · rw [List.mem_singleton.mp hspace]
      exact .space
    · cases hspace
  · exact .comment _

theorem step_of_remove : ∀ c ∈ removeCmds opts E.plan, E.Step c := by
  intro c hc
  simp only [removeCmds, List.mem_append, List.mem_cons] at hc
  -- wipe the data if asked to, then delete what is not needed
  rcases hc with hwipe | rfl | hdelete
  · split at hwipe
    · rename_i hw
      simp only [List.mem_cons, List.not_mem_nil, or_false] at hwipe
      rcases hwipe with rfl | rfl
      · exact .print _
      · exact .wipe hw
    · cases hwipe
  · exact .print _
  · rw [mem_deleteFilesCmds hdelete]
    exact .delete _ fun fn hfn => .inl hfn

theorem step_of_patch : ∀ c ∈ patchCmds tools E.plan, E.Step c := by
  intro c hc
  rcases List.mem_cons.mp hc with rfl | hc
  · exact .print _
  · obtain ⟨e, he, rfl⟩ := List.mem_map.mp hc
    exact .patch e (List.mem_filter.mp he).1

theorem step_of_boot : ∀ c ∈ bootCmds tools opts E.boot, E.Step c := by
  intro c hc
  unfold bootCmds at hc
  split at hc
  · cases hc
  · rename_i b hb
    rcases List.mem_cons.mp hc with rfl | hc
    · exact .print _
    · rw [List.mem_singleton.mp hc]
      exact .patchBoot b hb

theorem step_of_unpack : ∀ c ∈ unpackCmds E.plan (symlinksOf source.system)
    (symlinksOf target.system), E.Step c := by
  intro c hc
  simp only [unpackCmds, List.mem_append, List.mem_cons] at hc
  -- deleted links, unpacked files, links to make anew, the links
  rcases hc with (hdelete | hunpack) | rfl | hdelete | hlink
  · rw [mem_deleteFilesCmds hdelete]
    exact .delete _ fun fn hfn => .inr (.inl hfn)
  · split at hunpack
    · simp only [List.mem_cons, List.not_mem_nil, or_false] at hunpack
      rcases hunpack with rfl | rfl
      · exact .print _
      · exact .unpack
    · cases hunpack
  · exact .print _
  · rw [mem_deleteFilesCmds hdelete]
    exact .delete _ fun fn hfn => .inr (.inr hfn)
  · obtain ⟨s, hs, rfl⟩ := List.mem_map.mp hlink
    exact .link s hs

theorem step_of_finish : ∀ c ∈ finishCmds tools E.plan, E.Step c := by
  intro c hc
  rcases List.mem_cons.mp hc with rfl | hc
  · exact .print _
  · rcases List.mem_append.mp hc with hc | hc
    · obtain ⟨e, he, rfl⟩ := List.mem_map.mp hc
      exact .patch e (List.mem_filter.mp he).1
    · rw [List.mem_singleton.mp hc]
      exact .buildProp

/-- Every command of the script is one of these. -/
theorem step_of_mem {c : Cmd} (hc : c ∈ E.script) : E.Step c := by
  simp only [script, changes, List.mem_append] at hc
  rcases hc with (((((hc | hc) | hc) | hc) | hc) | hc) | hc
  · exact E.step_of_verify c hc
  · exact E.step_of_remove c hc
  · exact E.step_of_patch c hc
  · exact E.step_of_boot c hc
  · exact E.step_of_unpack c hc
  · exact .permission c hc
  · exact E.step_of_finish c hc

end Emitted

/-! ## §4 Every Command Fits the Directories -/

/-- The directories of a build, and `/system` itself. -/
def DirOf (build : Build) (a : Path) : Prop :=
  ∃ p, a = "system" :: p ∧ (p = [] ∨ imageAt build.system p = some (.dir ()))

section OneBuild

variable {build : Build} {p : Path}

theorem dirOf_cons : DirOf build ("system" :: p) ↔
    p = [] ∨ imageAt build.system p = some (.dir ()) := by
  constructor
  · rintro ⟨q, hq, hdir⟩
    rw [(List.cons_inj_right "system").mp hq]
    exact hdir
  · exact fun h => ⟨p, rfl, h⟩

/-- Above an entry there are directories. -/
theorem below_dirOf (hz : WellFormed build.system) (hp : imageAt build.system p ≠ none) :
    Below (DirOf build) ("system" :: p) := by
  intro a ha hpre hne
  obtain ⟨q, rfl, hq⟩ := (List.prefix_cons_iff.mp hpre).resolve_left ha
  have hqp : q ≠ p := fun h => hne (by rw [h])
  rw [dirOf_cons]
  by_cases hnil : q = []
  · exact .inl hnil
  · exact .inr (imageAt_above hz hp hnil hq hqp)

theorem below_dirOf_name {c : String} : Below (DirOf build) ["system", c] := by
  intro a ha hpre hne
  obtain ⟨q, rfl, hq⟩ := (List.prefix_cons_iff.mp hpre).resolve_left ha
  rw [dirOf_cons]
  rcases List.prefix_cons_iff.mp hq with hnil | ⟨r, rfl, hr⟩
  · exact .inl hnil
  · rw [List.prefix_nil.mp hr] at hne
    exact absurd rfl hne

/-- A file or a link is no directory. -/
theorem filePath_dirOf (hz : WellFormed build.system) {n : Node String Bytes Unit}
    (hp : imageAt build.system p = some n) (hn : n.isDir = false) :
    FilePath (DirOf build) ("system" :: p) := by
  refine ⟨below_dirOf hz (by simp [hp]), List.cons_ne_nil _ _, ?_⟩
  rw [dirOf_cons, hp]
  rintro (hnil | hdir)
  · exact ne_nil_of_leaf hz hp hn hnil
  · cases hdir
    cases hn

end OneBuild

/-- The directories of the two builds, and `/system` itself. -/
def DirIn (target source : Build) (a : Path) : Prop :=
  ∃ p, a = "system" :: p ∧
    (p = [] ∨ imageAt target.system p = some (.dir ()) ∨ imageAt source.system p = some (.dir ()))

section Directories

variable {rec : Recovery} {target source : Build} (hpair : UpdatePair rec target source) {p : Path}

theorem dirIn_cons : DirIn target source ("system" :: p) ↔
    p = [] ∨ imageAt target.system p = some (.dir ()) ∨ imageAt source.system p = some (.dir ()) := by
  constructor
  · rintro ⟨q, hq, hdir⟩
    rw [(List.cons_inj_right "system").mp hq]
    exact hdir
  · exact fun h => ⟨p, rfl, h⟩

include hpair

/-- Above every entry of either build there are directories. -/
theorem UpdatePair.below (hp : imageAt target.system p ≠ none ∨ imageAt source.system p ≠ none) :
    Below (DirIn target source) ("system" :: p) := by
  intro a ha hpre hne
  rcases hp with hp | hp
  · obtain ⟨q, rfl, hq⟩ := below_dirOf hpair.target_wf hp a ha hpre hne
    exact dirIn_cons.mpr (hq.imp_right .inl)
  · obtain ⟨q, rfl, hq⟩ := below_dirOf hpair.source_wf hp a ha hpre hne
    exact dirIn_cons.mpr (hq.imp_right .inr)

/-- A file or link of either build is no directory of the other. -/
theorem UpdatePair.not_dirIn {n : Node String Bytes Unit} (hn : n.isDir = false)
    (hp : imageAt target.system p = some n ∨ imageAt source.system p = some n) :
    ¬ DirIn target source ("system" :: p) := by
  rw [dirIn_cons]
  -- no path is a directory in one build and something else in the other
  rintro (hnil | hdir | hdir)
  · exact hp.elim (fun h => ne_nil_of_leaf hpair.target_wf h hn hnil)
      fun h => ne_nil_of_leaf hpair.source_wf h hn hnil
  · rcases hp with hp | hp
    · rw [hdir] at hp
      cases hp
      cases hn
    · exact Bool.noConfusion (hn.symm.trans (hpair.kinds p _ _ hdir hp).symm)
  · rcases hp with hp | hp
    · exact Bool.noConfusion (hn.symm.trans (hpair.kinds p _ _ hp hdir))
    · rw [hdir] at hp
      cases hp
      cases hn

theorem UpdatePair.filePath {n : Node String Bytes Unit} (hn : n.isDir = false)
    (hp : imageAt target.system p = some n) : FilePath (DirIn target source) ("system" :: p) :=
  ⟨hpair.below (.inl (by rw [hp]; exact Option.some_ne_none n)), List.cons_ne_nil _ _,
    hpair.not_dirIn hn (.inl hp)⟩

/-- A device that holds the source build is sound. -/
theorem HoldsSource.sound {opts : Options} {d : Device} (h : HoldsSource opts target source d) :
    SoundTree (DirIn target source) d.fs where
  tree := h.tree
  free := by
    intro a ha
    obtain ⟨p, rfl, hp⟩ := ha
    by_cases hnil : p = []
    · rw [hnil]
      exact h.root.freeAt
    · right
      intro n hn
      have hsystem := h.system p hnil
      rw [Option.mem_def.mp hn, Option.map_some] at hsystem
      rw [← n.isDir_contents]
      -- where either build has a directory, the device has one or nothing
      rcases hp with hp | hp | hp
      · exact absurd hp hnil
      · exact (hpair.kinds p _ _ hp hsystem.symm).symm
      · rw [hp] at hsystem
        rw [Option.some.inj hsystem]
        rfl

end Directories

namespace Emitted

variable {rec : Recovery} {order : DictOrder} {opts : Options} {target source : Build}
variable (E : Emitted rec.toTools order opts target source)
variable (hpair : UpdatePair rec target source)
include hpair

/-- What is patched are files of both builds. -/
theorem patchList_file {e : PatchEntry} (he : e ∈ E.plan.patchList) :
    ∃ p, e.name = .plain ("system" :: p) ∧ imageAt target.system p = some (.file e.target ()) ∧
      imageAt source.system p = some (.file e.source ()) := by
  obtain ⟨p, hname, htarget, hsource, -⟩ :=
    file_of_mem_patchList E.makePlan_eq hpair.target_wf hpair.source_wf he
  exact ⟨p, hname, htarget, hsource⟩

/-- What is sent whole is a file or a directory of the target build. -/
theorem verbatimTargets_path {x : FileName × Bytes} (hx : x ∈ E.plan.verbatimTargets) :
    ∃ p n, x.1.path = "system" :: p ∧ imageAt target.system p = some n ∧
      loadedData n x.1.slash = some x.2 :=
  (get?_loadSystemFiles hpair.target_wf).mp ((mem_verbatimTargets E.makePlan_eq).mp hx).1

/-- Everything that is deleted is below `/system`. -/
theorem dropped_path {fn : FileName} (h : E.Dropped fn) : ∃ p, fn.path = "system" :: p ∧
    (imageAt target.system p ≠ none ∨ imageAt source.system p ≠ none ∨ p = ["recovery.img"]) := by
  -- files that are not needed any more, links to delete, links to make anew
  rcases h with h | h | h
  · simp only [unneededFiles, List.mem_append, List.mem_singleton] at h
    rcases h with (h | h) | rfl
    · obtain ⟨x, hx, rfl⟩ := List.mem_map.mp h
      obtain ⟨p, n, hpath, himage, -⟩ := E.verbatimTargets_path hpair hx
      exact ⟨p, hpath, .inl (by simp [himage])⟩
    · obtain ⟨data, hdata⟩ := mem_sortedKeys.mp (List.mem_filter.mp h).1
      rw [(makePlan_data E.makePlan_eq).2] at hdata
      obtain ⟨p, n, hpath, himage, -⟩ := (get?_loadSystemFiles hpair.source_wf).mp hdata
      exact ⟨p, hpath, .inr (.inl (by simp [himage]))⟩
    · exact ⟨_, rfl, .inr (.inr rfl)⟩
  · obtain ⟨p, rfl, ⟨dest, himage⟩, -⟩ :=
      (mem_symlinksToDelete hpair.source_wf hpair.target_wf).mp h
    exact ⟨p, rfl, .inr (.inl (by simp [himage]))⟩
  · obtain ⟨s, hs, rfl⟩ := List.mem_map.mp h
    obtain ⟨p, hpath, himage, -⟩ := (mem_symlinksToCreate hpair.source_wf hpair.target_wf).mp hs
    exact ⟨p, hpath, .inl (by simp [himage])⟩

theorem fits_delete {fn : FileName} (h : E.Dropped fn) :
    Below (DirIn target source) fn.path ∧ fn.path ≠ [] := by
  obtain ⟨p, hpath, hp⟩ := E.dropped_path hpair h
  rw [hpath]
  refine ⟨?_, List.cons_ne_nil _ _⟩
  rcases hp with hp | hp | rfl
  · exact hpair.below (.inl hp)
  · exact hpair.below (.inr hp)
  · -- nothing but `/system` is above `recovery.img`
    intro a ha hpre hne
    obtain ⟨q, rfl, hq⟩ := (List.prefix_cons_iff.mp hpre).resolve_left ha
    rcases List.prefix_cons_iff.mp hq with rfl | ⟨t, rfl, ht⟩
    · exact dirIn_cons.mpr (.inl rfl)
    · rw [List.prefix_nil.mp ht] at hne
      exact absurd rfl hne

/-- Every command of the script fits the directories. -/
theorem fits {c : Cmd} (hc : E.Step c) : c.Fits (DirIn target source) E.package := by
  have hprop : Below (DirIn target source) ["system", "build.prop"] := by
    obtain ⟨data, himage, -⟩ := hpair.target_buildProp
    exact hpair.below (.inl (by simp [himage]))
  cases hc with
  | mount | print | comment | device | checkBoot | space | patchBoot => trivial
  | fingerprint => exact hprop
  | check e mem =>
    obtain ⟨p, hname, himage, -⟩ := E.patchList_file hpair mem
    show Below _ e.name.path
    rw [hname]
    exact hpair.below (.inl (by simp [himage]))
  | wipe wipes => trivial
  | delete names dropped => exact fun fn hfn _ => E.fits_delete hpair (dropped fn hfn)
  | patch e mem =>
    obtain ⟨p, hname, himage, -⟩ := E.patchList_file hpair mem
    show Below _ e.name.path ∧ e.name.path ≠ []
    rw [hname]
    exact ⟨hpair.below (.inl (by simp [himage])), List.cons_ne_nil _ _⟩
  | unpack =>
    intro x hx _
    obtain ⟨p, n, hpath, himage, hdata⟩ := E.verbatimTargets_path hpair hx
    have heq : ["system"] ++ x.1.path.drop ["system"].length = "system" :: p := by
      rw [hpath]
      rfl
    rw [heq]
    split
    · rename_i hslash
      -- an entry for a directory
      rw [hslash] at hdata
      refine ⟨hpair.below (.inl (by simp [himage])), dirIn_cons.mpr (.inr (.inl ?_))⟩
      rw [himage]
      cases n <;> first | rfl | cases hdata
    · rename_i hslash
      -- an entry for a file: it is no directory in either build
      rw [Bool.not_eq_true] at hslash
      rw [hslash] at hdata
      refine hpair.filePath ?_ himage
      cases n <;> first | rfl | cases hdata
  | link s mem =>
    obtain ⟨p, hpath, himage, -⟩ := (mem_symlinksToCreate hpair.source_wf hpair.target_wf).mp mem
    show FilePath _ s.2
    rw [hpath]
    exact hpair.filePath rfl himage
  | permission _ mem =>
    obtain ⟨p, hpath, hp⟩ := permPath?_permissionCmds hpair.target_wf E.permissions_eq c mem
    have hbelow : Below (DirIn target source) ("system" :: p) := by
      rcases hp with rfl | ⟨n, himage, -⟩
      · intro a ha hpre hne
        obtain ⟨q, rfl, hq⟩ := (List.prefix_cons_iff.mp hpre).resolve_left ha
        rw [List.prefix_nil.mp hq] at hne
        exact absurd rfl hne
      · exact hpair.below (.inl (by simp [himage]))
    cases c with
    | setPermissions name uid gid mode =>
      cases hpath
      exact hbelow
    | setPermissionsRecursive name uid gid dmode fmode =>
      cases hpath
      exact hbelow
    | _ => cases hpath
  | buildProp => exact hprop

/-- The updater runs the script at each path alone. -/
theorem actsAs {c : Cmd} (hc : c ∈ E.script) :
    Pointwise.ActsAs (SoundTree (DirIn target source))
      (fun fs => execTree rec E.package fs c) (act rec E.package c) :=
  execTree_actsAs rec E.package (E.fits hpair (E.step_of_mem hc))

end Emitted

end OdroidU2.Ota
