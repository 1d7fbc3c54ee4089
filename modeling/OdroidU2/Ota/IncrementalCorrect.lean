import Mathlib
import OdroidU2.Ota.PathOutcomes
import OdroidU2.Ota.Permissions

/-!
# An Incremental Package Makes the Target Build

Main result:

- `incremental_makes_target` — on a device that holds the source build, the script runs to
  its end, the files and links of `/system` are those of the target build afterwards, and
  permissions are set only where something is
-/

namespace OdroidU2.Ota

open OdroidU2.Foundations Pointwise

/-! ## §1 Every Path Is Settled -/

/-- Regular files and symbolic links. -/
def leafOf (n : Option (Node String Bytes Unit)) : Option (Node String Bytes Unit) :=
  n.filter fun n => !n.isDir

theorem leafOf_of_isDir {n : Node String Bytes Unit} (h : n.isDir = true) :
    leafOf (some n) = none := by
  simp [leafOf, h]

/-- What the target build says about a value: the same file or link, or none. -/
def Agrees (target : Build) (p : Path) (n : Place) : Prop :=
  ∀ q, p = "system" :: q → leafOf (n.map Node.contents) = leafOf (imageAt target.system q)

/-- Is `build.prop` sent whole? -/
def BuildPropSentWhole (tools : Tools) (opts : Options) (target source : Build) : Prop :=
  ∃ tf sf, imageAt target.system ["build.prop"] = some (.file tf ()) ∧
    imageAt source.system ["build.prop"] = some (.file sf ()) ∧
    Whole tools opts buildPropName tf (some sf)

namespace Emitted

variable {rec : Recovery} {order : DictOrder} {opts : Options} {target source : Build}
variable (E : Emitted rec.toTools order opts target source)
variable (hpair : UpdatePair rec target source) {q : Path}
include hpair

/-- What is neither deleted nor patched is the same in both builds. -/
theorem same_of_not_dropped (hdir : ¬ DirIn target source ("system" :: q))
    (hdrop : ¬ E.Dropped (.plain ("system" :: q)))
    (hpatch : ∀ e ∈ E.plan.patchList, e.name ≠ .plain ("system" :: q)) :
    imageAt source.system q = imageAt target.system q := by
  cases ht : imageAt target.system q with
  | none =>
    cases hs : imageAt source.system q with
    | none => rfl
    | some n =>
      cases n with
      -- gone in the target build: a file is unneeded, a link is to be deleted
      | dir perm => exact absurd (dirIn_cons.mpr (.inr (.inr hs))) hdir
      | file sf perm =>
        refine absurd (.inl ((E.mem_unneeded hpair).mpr (.inr (.inl ?_)))) hdrop
        rw [hs, ht]
        exact ⟨rfl, rfl⟩
      | link dest =>
        refine absurd (.inr (.inl ((E.mem_toDelete hpair).mpr ⟨⟨dest, hs⟩, ?_⟩))) hdrop
        rintro ⟨dest', ht'⟩
        rw [ht] at ht'
        cases ht'
  | some t =>
    cases t with
    | dir perm => exact absurd (dirIn_cons.mpr (.inr (.inl ht))) hdir
    | file tf perm =>
      -- a file of the target build that is not sent whole
      have hwhole : ¬ E.SentWhole q tf := fun h =>
        hdrop (.inl ((E.mem_unneeded hpair).mpr (.inl ⟨tf, ht, h⟩)))
      cases hs : fileData (imageAt source.system q) with
      | none =>
        refine absurd ?_ hwhole
        unfold SentWhole
        rw [hs]
        trivial
      | some sf =>
        have hs := fileData_eq_some_iff.mp hs
        by_cases hne : tf = sf
        · rw [hs, hne]
        · -- two different files are patched
          obtain ⟨e, he, hname, -⟩ := E.exists_patch hpair ht hs hne hwhole
          exact absurd hname (hpatch e he)
    | link dest =>
      -- a link that differs is created anew, so it is deleted first
      by_contra hne
      refine hdrop (.inr (.inr ((E.mem_toCreate_names hpair).mpr ⟨⟨dest, ht⟩, ?_⟩)))
      rw [ht]
      exact hne

/-- A directory of the builds is settled. -/
theorem exists_settles_dir {d : Device} (hd : HoldsSource opts target source d)
    (hdir : DirIn target source ("system" :: q)) :
    ∃ N final, N (d.fs ("system" :: q)) ∧ E.Settles ("system" :: q) N final ∧
      Agrees target ("system" :: q) final := by
  have hagrees : ∀ perm, Agrees target ("system" :: q)
      (setAll E.permissions ("system" :: q) (some (.dir perm))) := by
    intro perm q' hq'
    obtain rfl := (List.cons_inj_right "system").mp hq'
    rw [contents_setAll]
    cases ht : imageAt target.system q with
    | none => rfl
    | some t =>
      cases hleaf : t.isDir with
      | true =>
        rw [leafOf_of_isDir hleaf]
        exact leafOf_of_isDir rfl
      | false => exact absurd hdir (hpair.not_dirIn hleaf (.inl ht))
  have hthere : ∀ perm, d.fs ("system" :: q) = some (.dir perm) →
      ∃ N final, N (d.fs ("system" :: q)) ∧ E.Settles ("system" :: q) N final ∧
        Agrees target ("system" :: q) final := by
    intro perm hfs
    have hsettles := settles_dir hpair E hdir False perm False.elim
    exact ⟨_, _, .inr ⟨perm, hfs, .inr rfl⟩, hsettles, hagrees perm⟩
  -- the root of `/system` is mounted, so it is there
  by_cases hnil : q = []
  · subst hnil
    have hroot := hd.root.resolve_left (List.cons_ne_nil _ _)
    cases hfs : d.fs ["system"] with
    | none =>
      rw [hfs] at hroot
      cases hroot
    | some n =>
      cases n with
      | dir perm => exact hfs ▸ hthere perm hfs
      | _ =>
        rw [hfs] at hroot
        cases hroot
  · have hsystem := hd.system q hnil
    cases hs : imageAt source.system q with
    | none =>
      -- a directory of the target build alone is sent
      rw [hs] at hsystem
      have hfs := Option.map_eq_none_iff.mp hsystem
      have ht : imageAt target.system q = some (.dir ()) := by
        rcases dirIn_cons.mp hdir with h | h | h
        · exact absurd h hnil
        · exact h
        · rw [hs] at h
          cases h
      have hmem : (FileName.dir ("system" :: q), ([] : Bytes)) ∈ E.plan.verbatimTargets := by
        refine (mem_verbatimTargets E.makePlan_eq).mpr
          ⟨(get?_loadSystemFiles_dir hpair.target_wf).mpr ⟨ht, rfl⟩, ?_⟩
        cases hget : (loadSystemFiles source.system).get? (.dir ("system" :: q)) with
        | none => trivial
        | some data =>
          have himage := ((get?_loadSystemFiles_dir hpair.source_wf).mp hget).1
          rw [hs] at himage
          cases himage
      have hsettles := settles_dir hpair E hdir True rec.dirPerm fun _ => ⟨rfl, hmem⟩
      exact ⟨_, _, .inl ⟨trivial, hfs⟩, hsettles, hagrees _⟩
    | some s =>
      rw [hs] at hsystem
      -- a directory of the source build is on the device
      obtain ⟨n, hfs, rfl⟩ := Option.map_eq_some_iff.mp hsystem
      cases n with
      | dir perm => exact hthere perm hfs
      | file data perm => exact absurd hdir (hpair.not_dirIn rfl (.inr hs))
      | link dest => exact absurd hdir (hpair.not_dirIn rfl (.inr hs))

/-- A path of files and links is settled. -/
theorem exists_settles_leaf {d : Device} (hd : HoldsSource opts target source d)
    (hne : "system" :: q ≠ ["system", "build.prop"])
    (hdir : ¬ DirIn target source ("system" :: q)) :
    ∃ N final, N (d.fs ("system" :: q)) ∧ E.Settles ("system" :: q) N final ∧
      Agrees target ("system" :: q) final := by
  have hnil : q ≠ [] := by
    rintro rfl
    exact hdir (dirIn_cons.mpr (.inl rfl))
  have hsystem := hd.system q hnil
  have hagrees : ∀ m : Place, m.map Node.contents = imageAt target.system q →
      Agrees target ("system" :: q) (setAll E.permissions ("system" :: q) m) := by
    intro m hm q' hq'
    obtain rfl := (List.cons_inj_right "system").mp hq'
    rw [contents_setAll, hm]
  by_cases hdrop : E.Dropped (.plain ("system" :: q))
  · -- a path that is deleted is made anew as the target build has it
    have hcontents : (replaced rec (imageAt target.system q)).map Node.contents =
        imageAt target.system q := by
      cases ht : imageAt target.system q with
      | none => rfl
      | some t =>
        cases t with
        | dir perm => exact absurd (dirIn_cons.mpr (.inr (.inl ht))) hdir
        | file tf perm => rfl
        | link dest => rfl
    have hsettles := settles_of_changes hpair hne (kept_leaf E hdir)
      (fun n hn => ⟨_, changes_replaced hpair E hdir hdrop hn fun h => absurd h hne,
        Like.refl E _ _⟩) ?_
    · refine ⟨_, _, ?_, hsettles, hagrees _ hcontents⟩
      -- the source build has no directory there
      cases hfs : d.fs ("system" :: q) with
      | none => rfl
      | some n =>
        rw [hfs] at hsystem
        cases n with
        | dir perm => exact absurd (dirIn_cons.mpr (.inr (.inr hsystem.symm))) hdir
        | file data perm => rfl
        | link dest => rfl
    · rintro (h | ⟨m, hm, hlink⟩)
      · exact absurd h hnil
      · rw [hm]
        cases m with
        | dir perm => exact absurd (dirIn_cons.mpr (.inr (.inl hm))) hdir
        | file tf perm => rintro (h | h) <;> cases h
        | link dest => cases hlink
  · by_cases hpatch : ∃ e ∈ E.plan.patchList, e.name = .plain ("system" :: q)
    · obtain ⟨e, he, hname⟩ := hpatch
      -- a file that is patched holds the data of one of the builds at any time
      obtain ⟨ht, hs, -⟩ := E.not_whole_of_patch hpair he hname
      rw [hs] at hsystem
      obtain ⟨n, hfs, hn⟩ := Option.map_eq_some_iff.mp hsystem
      cases n with
      | file data perm =>
        cases hn
        refine ⟨_, _, ⟨_, perm, hfs, .inl rfl, .inr rfl⟩,
          settles_patched hpair E hne he hname perm, hagrees _ ?_⟩
        rw [ht]
        rfl
      | dir perm => cases hn
      | link dest => cases hn
    · have hpatch : ∀ e ∈ E.plan.patchList, e.name ≠ .plain ("system" :: q) :=
        fun e he hname => hpatch ⟨e, he, hname⟩
      -- what is neither deleted nor patched stays as it was
      have hsame := hsystem.trans (E.same_of_not_dropped hpair hdir hdrop hpatch)
      exact ⟨_, _, Like.refl E _ _, settles_same hpair E hne hdir hdrop hpatch hsame,
        hagrees _ hsame⟩

/-- The contents of `build.prop` on the device and in both builds. -/
theorem buildProp_files {d : Device} (hd : HoldsSource opts target source d) :
    ∃ tf sf perm, imageAt target.system ["build.prop"] = some (.file tf ()) ∧
      imageAt source.system ["build.prop"] = some (.file sf ()) ∧
      d.fs ["system", "build.prop"] = some (.file sf perm) := by
  obtain ⟨tf, ht, -⟩ := hpair.target_buildProp
  obtain ⟨sf, hs, -⟩ := hpair.source_buildProp
  have hsystem := hd.system ["build.prop"] (List.cons_ne_nil _ _)
  rw [hs] at hsystem
  obtain ⟨n, hfs, hn⟩ := Option.map_eq_some_iff.mp hsystem
  -- a `build.prop` is a file in both builds, so the device has one
  cases n with
  | file data perm =>
    cases hn
    exact ⟨tf, sf, perm, ht, hs, hfs⟩
  | dir perm => cases hn
  | link dest => cases hn

omit hpair in
theorem agrees_buildProp {tf : Bytes}
    (ht : imageAt target.system ["build.prop"] = some (.file tf ())) (perm : Perm) :
    Agrees target ["system", "build.prop"] (some (.file tf perm)) := by
  intro q hq
  obtain rfl := (List.cons_inj_right "system").mp hq
  rw [ht]
  rfl

/-- Every path is settled, but for a `build.prop` that is sent whole. -/
theorem exists_settles {d : Device} (hd : HoldsSource opts target source d) (p : Path)
    (hwhole : p = ["system", "build.prop"] → ¬ BuildPropSentWhole rec.toTools opts target source) :
    ∃ N final, N (d.fs p) ∧ E.Settles p N final ∧ Agrees target p final := by
  by_cases hp : ["system"] <+: p
  · obtain ⟨q, rfl⟩ := prefix_system hp
    by_cases hdir : DirIn target source ("system" :: q)
    · exact E.exists_settles_dir hpair hd hdir
    · by_cases hprop : "system" :: q = ["system", "build.prop"]
      · obtain ⟨tf, sf, perm, ht, hs, hfs⟩ := buildProp_files hpair hd
        -- `build.prop` is patched last, so the fingerprint can be asked for until then
        have hnot : ¬ E.SentWhole ["build.prop"] tf := by
          intro h
          unfold SentWhole at h
          rw [hs] at h
          exact hwhole hprop ⟨tf, sf, ht, hs, h⟩
        rw [hprop]
        refine ⟨_, _, ⟨sf, perm, hfs, ?_⟩, settles_buildProp hpair E ht hs hnot,
          agrees_buildProp ht _⟩
        by_cases heq : tf = sf
        · exact .inl heq.symm
        · obtain ⟨e, he, hname, -, hsource⟩ := E.exists_patch hpair ht hs heq hnot
          exact .inr ⟨e, he, hname, hsource.symm⟩
      · exact E.exists_settles_leaf hpair hd hprop hdir
  · -- outside `/system` only user data is wiped
    obtain ⟨final, hsettles⟩ := settles_outside hpair E hp (d.fs p)
    refine ⟨_, final, .inl rfl, hsettles, ?_⟩
    rintro q rfl
    exact absurd ⟨q, rfl⟩ hp

/-- From the source build, the script runs to its end at every path. -/
theorem exists_follow {d : Device} (hd : HoldsSource opts target source d) (p : Path) :
    ∃ final, follow (act rec E.package) p (d.fs p) E.script = some final ∧
      Agrees target p final := by
  -- a `build.prop` sent whole is deleted and unpacked again; everything else settles
  by_cases hwhole : p = ["system", "build.prop"] ∧ BuildPropSentWhole rec.toTools opts target source
  · obtain ⟨rfl, tf, sf, ht, hs, hwhole⟩ := hwhole
    obtain ⟨tf', sf', perm, ht', hs', hfs⟩ := buildProp_files hpair hd
    rw [ht] at ht'
    cases ht'
    rw [hs] at hs'
    cases hs'
    have hsent : E.SentWhole ["build.prop"] tf := by
      unfold SentWhole
      rw [hs]
      exact hwhole
    exact ⟨_, by rw [hfs]; exact follow_whole_buildProp hpair E ht hs hsent perm,
      agrees_buildProp ht _⟩
  · obtain ⟨N, final, hN, hsettles, hagrees⟩ :=
      E.exists_settles hpair hd p fun hp h => hwhole ⟨hp, h⟩
    exact ⟨final, hsettles.ends _ hN, hagrees⟩

end Emitted

/-! ## §2 The Boot Partition and the Checks -/

namespace Emitted

variable {rec : Recovery} {order : DictOrder} {opts : Options} {target source : Build}
variable (E : Emitted rec.toTools order opts target source)

/-- What is known about the boot images. -/
theorem boot_cases : (E.boot = none ∧ source.boot = target.boot) ∨
    ∃ b, E.boot = some b ∧ b.source = source.boot ∧ b.target = target.boot ∧
      rec.diff.computePatch bootPatchName b.target b.source = some b.patch := by
  have hboot := E.boot_eq
  unfold bootUpdate at hboot
  split_ifs at hboot with hsame
  · exact .inl ⟨(Except.ok.inj hboot).symm, hsame⟩
  · split at hboot
    · cases hboot
    · rename_i patch hpatch
      exact .inr ⟨_, (Except.ok.inj hboot).symm, rfl, rfl, hpatch⟩

variable (hpair : UpdatePair rec target source)
include hpair

/-- The boot patch is in the zip. -/
theorem find_bootPatch {b : BootUpdate} (hb : E.boot = some b) :
    (E.package.patches.find? fun x => x.1 = bootPatchName).map Prod.snd = some b.patch := by
  -- the patches of the files are named after paths below `/system`
  have hnone : (E.plan.patchList.map fun e => (e.name, e.patch)).find?
      (fun x => x.1 = bootPatchName) = none := by
    rw [List.find?_eq_none]
    intro x hx
    obtain ⟨e, he, rfl⟩ := List.mem_map.mp hx
    obtain ⟨q, hname, -⟩ := E.patchList_file hpair he
    rw [decide_eq_true_iff, hname]
    exact fun h => absurd (List.head_eq_of_cons_eq (FileName.plain_inj.mp h)) (by decide)
  rw [package, List.find?_append, hnone, hb]
  rfl

/-- Patching the boot partition makes the target image, or finds it made. -/
theorem execBoot_patch {b : BootUpdate} (hb : E.boot = some b) {boot : Bytes}
    (hboot : boot = b.source ∨ boot = b.target)
    (hpatch : rec.diff.computePatch bootPatchName b.target b.source = some b.patch) :
    patchData rec E.package boot (rec.sha1.digest b.target) (rec.sha1.digest b.source)
      bootPatchName = some b.target :=
  patchData_eq hboot hpatch (E.find_bootPatch hpair hb)

/-- The commands for the boot partition, on either image. -/
theorem execBoot_cases {boot : Bytes} (hboot : boot = source.boot ∨ boot = target.boot) {c : Cmd}
    (hc : c ∈ E.script) : execBoot rec E.package boot c = some boot ∨
      execBoot rec E.package boot c = some target.boot := by
  -- what the update of the boot image holds, if there is one
  have hb : ∀ b, E.boot = some b → b.source = source.boot ∧ b.target = target.boot ∧
      rec.diff.computePatch bootPatchName b.target b.source = some b.patch := by
    intro b hb
    rcases E.boot_cases with ⟨hnone, -⟩ | ⟨b', hb', h⟩
    · rw [hb] at hnone
      cases hnone
    · rw [hb] at hb'
      cases hb'
      exact h
  -- only the patch of the boot image writes it
  cases E.step_of_mem hc with
  | checkBoot b mem =>
    obtain ⟨hsource, htarget, -⟩ := hb b mem
    left
    -- a check passes on either image
    rw [BootUpdate.partition, execBoot, hsource, htarget, if_pos]
    rcases hboot with rfl | rfl
    · exact .inl rfl
    · exact .inr rfl
  | patchBoot b mem =>
    obtain ⟨hsource, htarget, hpatch⟩ := hb b mem
    right
    rw [← hsource, ← htarget] at hboot
    rw [← htarget]
    exact E.execBoot_patch hpair mem hboot hpatch
  | permission _ mem =>
    obtain ⟨q, hq, -⟩ := permPath?_permissionCmds hpair.target_wf E.permissions_eq c mem
    cases c <;> first | exact .inl rfl | cases hq
  | _ => exact .inl rfl

/-- The boot partition stays one of the two images. -/
theorem runBoot_mem {boot boot' : Bytes} (hboot : boot = source.boot ∨ boot = target.boot)
    {script : List Cmd} (hscript : ∀ c ∈ script, c ∈ E.script)
    (hrun : runBoot rec E.package boot script = some boot') :
    boot' = source.boot ∨ boot' = target.boot := by
  refine follow_mem (fun c (_ : Unit) boot => execBoot rec E.package boot c) ()
    (N := fun boot => boot = source.boot ∨ boot = target.boot) (fun c hc b b' hb hexec => ?_)
    hboot hrun
  -- a command leaves the image alone or makes it that of the target
  rcases E.execBoot_cases hpair hb (hscript c hc) with h | h
  · rw [h] at hexec
    exact Option.some.inj hexec ▸ hb
  · rw [h] at hexec
    exact .inr (Option.some.inj hexec).symm

/-- The script ends with the target image, from either. -/
theorem runBoot_script {boot : Bytes} (hboot : boot = source.boot ∨ boot = target.boot) :
    runBoot rec E.package boot E.script = some target.boot := by
  have hfix : ∀ c ∈ E.script, execBoot rec E.package target.boot c = some target.boot :=
    fun c hc => (E.execBoot_cases hpair (.inr rfl) hc).elim id id
  -- two equal images, or one patch among commands that change nothing more
  rcases E.boot_cases with ⟨-, hsame⟩ | ⟨b, hb, hsource, htarget, hpatch⟩
  · have heq : boot = target.boot := hboot.elim (fun h => h.trans hsame) id
    rw [heq]
    exact follow_of_id (fun c (_ : Unit) boot => execBoot rec E.package boot c) () hfix
  · refine follow_of_hit (fun c (_ : Unit) boot => execBoot rec E.package boot c) ()
      (fun c hc => E.execBoot_cases hpair hboot hc) hfix
      ⟨.applyPatch (b.partition rec.toTools opts) b.target.length (rec.sha1.digest b.target)
        (rec.sha1.digest b.source) bootPatchName, ?_, ?_⟩
    · simp [script, changes, bootCmds, hb]
    · rw [← hsource, ← htarget] at hboot
      rw [← htarget]
      exact E.execBoot_patch hpair hb hboot hpatch

/-- The package is for the device, and `/cache` has room for the largest file. -/
theorem allows {d : Device} (hd : HoldsSource opts target source d) {c : Cmd}
    (hc : c ∈ E.script) : d.Allows c := by
  -- only two commands ask for anything: the name of the device and the room in the cache
  cases E.step_of_mem hc with
  | device =>
    have hdevice := hd.device
    rw [E.device_eq] at hdevice
    exact (Option.some.inj hdevice).symm
  | space =>
    -- the largest source is no larger than what the cache can hold
    have hmax : ∀ (l : List PatchEntry) (m : Nat), m ≤ d.cacheSpace →
        (∀ e ∈ l, e.source.length ≤ d.cacheSpace) →
        l.foldl (fun m e => max m e.source.length) m ≤ d.cacheSpace := by
      intro l
      induction l with
      | nil => exact fun m hm _ => hm
      | cons e l ih =>
        intro m hm hl
        exact ih _ (max_le hm (hl e List.mem_cons_self))
          fun e he => hl e (List.mem_cons_of_mem _ he)
    apply hmax _ 0 (Nat.zero_le _)
    intro e he
    obtain ⟨q, -, -, hs⟩ := E.patchList_file hpair he
    exact hd.cache q e.source hs
  | permission _ mem =>
    obtain ⟨q, hq, -⟩ := permPath?_permissionCmds hpair.target_wf E.permissions_eq c mem
    exact allows_of_permPath? hq
  | _ => trivial

end Emitted

/-! ## §3 The Update -/

section Update

variable {rec : Recovery} {order : DictOrder} {opts : Options} {target source : Build}
variable (E : Emitted rec.toTools order opts target source)
variable (hpair : UpdatePair rec target source)
include hpair

/-- The whole script runs, path by path. -/
theorem Emitted.exists_run {d : Device} (hd : HoldsSource opts target source d) :
    ∃ d', runScript rec E.package d E.script = some d' ∧ ∀ p,
      follow (act rec E.package) p (d.fs p) E.script = some (d'.fs p) ∧ Agrees target p (d'.fs p) := by
  choose final hfinal using fun p => E.exists_follow hpair hd p
  have hrun := (run_of_follow (fun c hc => E.actsAs hpair hc) d.fs final (hd.sound hpair)
    fun p => (hfinal p).1).1
  refine ⟨{ d with fs := final, boot := target.boot }, ?_, hfinal⟩
  rw [runScript_eq_some_iff]
  exact ⟨fun c hc => E.allows hpair hd hc, hrun, E.runBoot_script hpair (.inl hd.boot), rfl, rfl⟩

/-- The script may be cut off anywhere: up to there it runs, path by path. -/
theorem Emitted.exists_run_prefix {d : Device} (hd : HoldsSource opts target source d)
    {done rest : List Cmd} (hsplit : E.script = done ++ rest) :
    ∃ d₁, runScript rec E.package d done = some d₁ ∧ SoundTree (DirIn target source) d₁.fs ∧
      ∀ p, follow (act rec E.package) p (d.fs p) done = some (d₁.fs p) ∧
        follow (act rec E.package) p (d₁.fs p) rest ≠ none := by
  have hdone : ∀ c ∈ done, c ∈ E.script := fun c hc => hsplit ▸ List.mem_append_left rest hc
  -- at each path the prefix gets through, since the whole script does
  have hmid : ∀ p, ∃ n, follow (act rec E.package) p (d.fs p) done = some n ∧
      follow (act rec E.package) p n rest ≠ none := by
    intro p
    obtain ⟨final, hfinal, -⟩ := E.exists_follow hpair hd p
    rw [hsplit, follow_append] at hfinal
    obtain ⟨n, hn, hrest⟩ := Option.bind_eq_some_iff.mp hfinal
    exact ⟨n, hn, by rw [hrest]; exact Option.some_ne_none _⟩
  -- the tree it leaves, built from the node at each path
  choose mid hmid hrest using hmid
  obtain ⟨hrun, hsound⟩ := run_of_follow (fun c hc => E.actsAs hpair (hdone c hc)) d.fs mid
    (hd.sound hpair) hmid
  have hboot := E.runBoot_script hpair (.inl hd.boot)
  rw [hsplit, runBoot, List.foldlM_append] at hboot
  obtain ⟨boot, hboot, -⟩ := Option.bind_eq_some_iff.mp hboot
  refine ⟨{ d with fs := mid, boot := boot }, ?_, hsound, fun p => ⟨hmid p, hrest p⟩⟩
  rw [runScript_eq_some_iff]
  exact ⟨fun c hc => E.allows hpair hd (hdone c hc), hrun, hboot, rfl, rfl⟩

end Update

/-- **An incremental package makes the target build**: on a device that holds the source
build the script does not abort, leaves exactly the files and links of the target build
below `/system`, and sets permissions only of what is there. -/
theorem incremental_makes_target (rec : Recovery) (order : DictOrder) (opts : Options)
    (target source : Build) (hpair : UpdatePair rec target source) (out : Output)
    (hout : writeIncrementalOTAPackage rec.toTools order opts target source (.ok false) = .ok out)
    (d : Device) (hd : HoldsSource opts target source d) :
    (∃ d', runScript rec out.package d out.script = some d' ∧ ∀ p,
      leafOf ((d'.fs ("system" :: p)).map Node.contents) = leafOf (imageAt target.system p)) ∧
    ∀ done c rest q, out.script = done ++ c :: rest → c.permPath? = some q →
      ∃ d₁, runScript rec out.package d done = some d₁ ∧ d₁.fs q ≠ none := by
  obtain ⟨E, hscript, hpackage⟩ := exists_emitted hout
  rw [hscript, hpackage]
  constructor
  · obtain ⟨d', hrun, hfinal⟩ := E.exists_run hpair hd
    exact ⟨d', hrun, fun p => (hfinal ("system" :: p)).2 p rfl⟩
  · intro done c rest q hsplit hpath
    obtain ⟨d₁, hrun, -, hpaths⟩ := E.exists_run_prefix hpair hd hsplit
    refine ⟨d₁, hrun, fun hnone => ?_⟩
    -- a permission command fails at a path that does not exist
    have hrest := (hpaths q).2
    rw [hnone, follow_cons] at hrest
    obtain ⟨n, hn⟩ := Option.ne_none_iff_exists'.mp hrest
    obtain ⟨n', hact, -⟩ := Option.bind_eq_some_iff.mp hn
    exact (act_permission_some rec _ hpath hact).2 rfl (.inl rfl)

/-! ## §4 A Device to Update -/

instance (z : List ZipEntry) : Decidable (WellFormed z) :=
  decidable_of_iff ((z.map ZipEntry.path).Nodup ∧
      (∀ e ∈ z, ∀ p ∈ e.path.inits, p ≠ [] → p ≠ e.path → .dir p ∈ z) ∧
      ∀ e ∈ z, e.path = [] → e = .dir [])
    ⟨fun h => ⟨h.1, fun e he p h0 hp hne => h.2.1 e he p ((List.mem_inits _ _).mpr hp) h0 hne, h.2.2⟩,
      fun h => ⟨h.unique, fun e he p hp h0 hne => h.above e he p h0 ((List.mem_inits _ _).mp hp) hne,
        h.root⟩⟩

/-- Contents with permissions. -/
def withPerm (perm : Perm) : Node String Bytes Unit → Node String Bytes Perm
  | .dir _ => .dir perm
  | .file data _ => .file data perm
  | .link dest => .link dest

/-- A device tree with a build in `/system` and nothing else. -/
def installed (z : List ZipEntry) (perm : Perm) : DeviceTree
  | "system" :: p => if p = [] then some (.dir perm) else (imageAt z p).map (withPerm perm)
  | _ => none

theorem installed_cons (z : List ZipEntry) (perm : Perm) {p : Path} (hp : p ≠ []) :
    installed z perm ("system" :: p) = (imageAt z p).map (withPerm perm) :=
  if_neg hp

theorem contents_installed (z : List ZipEntry) (perm : Perm) {p : Path} (hp : p ≠ []) :
    (installed z perm ("system" :: p)).map Node.contents = imageAt z p := by
  rw [installed_cons _ _ hp, Option.map_map]
  cases imageAt z p with
  | none => rfl
  | some n => cases n <;> rfl

/-- What is installed is a tree. -/
theorem treelike_installed {z : List ZipEntry} (hz : WellFormed z) (perm : Perm) :
    (installed z perm).Treelike := by
  intro p c hp
  unfold installed at hp
  split at hp
  · rename_i q heq
    cases p with
    | nil => exact .inl rfl
    | cons x p =>
      obtain ⟨rfl, rfl⟩ := List.cons_eq_cons.mp heq
      right
      -- the parent of an entry is a directory of the build, or `/system` itself
      by_cases hnil : p = []
      · subst hnil
        rfl
      · rw [installed_cons z perm hnil]
        rw [if_neg (by simp)] at hp
        have hentry : imageAt z (p ++ [c]) ≠ none := by
          intro h
          apply hp
          show (imageAt z (p ++ [c])).map (withPerm perm) = none
          rw [h]
          rfl
        rw [imageAt_above hz hentry hnil (List.prefix_append _ _) (by simp)]
        rfl
  · exact absurd rfl hp

/-- A device with the source build installed holds it. -/
theorem holdsSource_installed {opts : Options} {target source : Build}
    (hz : WellFormed source.system) (perm : Perm) {device : String} {space : Nat}
    (hdevice : opts.overrideDevice.or (target.buildProp "ro.product.device") = some device)
    (hspace : ∀ p data, imageAt source.system p = some (.file data ()) → data.length ≤ space) :
    HoldsSource opts target source ⟨installed source.system perm, source.boot, device, space⟩ where
  tree := treelike_installed hz perm
  root := .inr rfl
  system := fun _ hp => contents_installed source.system perm hp
  boot := rfl
  device := hdevice
  cache := hspace

/-- A build with a shell of its own. -/
def smallSource : Build where
  system := [.dir ["bin"], .file ["bin", "sh"] [1], .file ["build.prop"] [115]]
  metadata := []
  buildProp prop := some (if prop = "ro.build.fingerprint" then "s" else "odroidu2")
  boot := [7]

/-- A build whose shell is a link to another program. -/
def smallTarget : Build where
  system := [.dir ["bin"], .symlink ["bin", "sh"] ⟨false, [.down "busybox"]⟩,
    .file ["bin", "busybox"] [2], .file ["build.prop"] [116]]
  metadata := [⟨["system"], ⟨0, 0, 0o755⟩⟩, ⟨["system", "bin"], ⟨0, 2000, 0o755⟩⟩,
    ⟨["system", "bin", "busybox"], ⟨0, 2000, 0o755⟩⟩, ⟨["system", "build.prop"], ⟨0, 0, 0o644⟩⟩]
  buildProp prop := some (if prop = "ro.build.fingerprint" then "t" else "odroidu2")
  boot := [8]

def smallOptions : Options where
  bootType := "EMMC"
  bootDevice := "/dev/block/mmcblk0p5"

theorem updatePair_small : UpdatePair plainRecovery smallTarget smallSource where
  target_wf := by decide
  source_wf := by decide
  kinds := by
    intro p n m hn hm
    obtain ⟨e, he, rfl, rfl⟩ := (imageAt_eq_some_iff (by decide)).mp hn
    obtain ⟨e', he', hpath, rfl⟩ := (imageAt_eq_some_iff (by decide)).mp hm
    -- no path is a directory in one of the builds and a file in the other
    have hkinds : ∀ e ∈ smallTarget.system, ∀ e' ∈ smallSource.system, e'.path = e.path →
        e.node.isDir = e'.node.isDir := by decide
    exact hkinds e he e' he' hpath
  target_buildProp := ⟨[116], rfl, rfl⟩
  source_buildProp := ⟨[115], rfl, rfl⟩
  target_recoveryImg := rfl
  source_recoveryImg := rfl

/-- A device with the small source build. -/
def smallHolder : Device :=
  ⟨installed smallSource.system ⟨0, 0, 0o755⟩, smallSource.boot, "odroidu2", 1⟩

theorem holdsSource_small : HoldsSource smallOptions smallTarget smallSource smallHolder := by
  apply holdsSource_installed (by decide) _ rfl
  intro p data hp
  have hspace : ∀ e ∈ smallSource.system, ∀ data, e.node = .file data () → data.length ≤ 1 := by
    simp [smallSource, ZipEntry.node]
  obtain ⟨e, he, -, hnode⟩ := (imageAt_eq_some_iff (by decide)).mp hp
  exact hspace e he data hnode

theorem incremental_makes_target_small : ∃ out, writeIncrementalOTAPackage plainRecovery.toTools
    DictOrder.insertion smallOptions smallTarget smallSource (.ok false) = .ok out ∧
    (∃ d', runScript plainRecovery out.package smallHolder out.script = some d' ∧ ∀ p,
      leafOf ((d'.fs ("system" :: p)).map Node.contents) =
        leafOf (imageAt smallTarget.system p)) ∧
    ∀ done c rest q, out.script = done ++ c :: rest → c.permPath? = some q →
      ∃ d₁, runScript plainRecovery out.package smallHolder done = some d₁ ∧ d₁.fs q ≠ none := by
  obtain ⟨out, hout⟩ : ∃ out, writeIncrementalOTAPackage plainRecovery.toTools DictOrder.insertion
      smallOptions smallTarget smallSource (.ok false) = .ok out := ⟨_, rfl⟩
  exact ⟨out, hout, incremental_makes_target plainRecovery DictOrder.insertion smallOptions
    smallTarget smallSource updatePair_small out hout smallHolder holdsSource_small⟩

end OdroidU2.Ota
