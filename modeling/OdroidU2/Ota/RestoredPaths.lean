import OdroidU2.Ota.IncrementalCorrect
import OdroidU2.Ota.IncrementalParts

/-!
# Paths That a Recovery Update Deletes

A path that the script deletes is to come back before its permissions are set.  What is
sent whole is unpacked, and links are created anew.  The files of `MakeRecoveryPatch` are in
the package too, but below `recovery/`, and the commands that would unpack them are commented
out.

- `Parts.restoresDeleted_script_iff` — what comes back, for any two builds
- `restoresDeleted_iff` — which paths decide it
- `installRecovery_not_restored` — a script for two builds that are the same
-/

namespace OdroidU2.Ota

open OdroidU2.Foundations

/-! ## §1 Deleted and Created Again -/

/-- Does the command create the path, or something below it? -/
def Recreates (pkg : Package) (path : Path) : Cmd → Prop
  | .unpackPackageDir src dst =>
    ∃ e ∈ pkg.system, src <+: e.1.path ∧ path <+: dst ++ e.1.path.drop src.length
  | .symlink _ link => path <+: link
  | _ => False

instance (pkg : Package) (path : Path) (c : Cmd) : Decidable (Recreates pkg path c) := by
  unfold Recreates
  induction c using Cmd.casesOn <;> infer_instance

/-- The path is a regular file of a build. -/
def FileIn (z : List ZipEntry) (path : Path) : Prop :=
  ∃ p data, path = "system" :: p ∧ .file p data ∈ z

/-- Every path that the script deletes and that is a file of the target build or named by a
permission command is created by a later command, before a permission command names it. -/
def RestoresDeleted (target : Build) (out : Output) : Prop :=
  ∀ done names rest, out.script = done ++ .deleteFiles names :: rest →
    ∀ path, .plain path ∈ names →
      (FileIn target.system path ∨ ∃ c ∈ out.script, c.permPath? = some path) →
      ∃ mid c after, rest = mid ++ c :: after ∧ Recreates out.package path c ∧
        ∀ d ∈ done ++ .deleteFiles names :: mid, d.permPath? ≠ some path

/-- Something at or below the path is sent whole. -/
def SentBelow (tools : Tools) (opts : Options) (target source : Build) (path : Path) : Prop :=
  ∃ fn tf, path <+: fn.path ∧ (loadSystemFiles target.system).get? fn = some tf ∧
    Whole tools opts fn tf ((loadSystemFiles source.system).get? fn)

/-- A link at or below the path is created. -/
def LinkedBelow (target source : Build) (path : Path) : Prop :=
  ∃ s ∈ symlinksToCreate (symlinksOf source.system) (symlinksOf target.system), path <+: s.2

namespace Parts

variable {tools : Tools} {order : DictOrder} {opts : Options} {target source : Build}
variable {updatingRecovery : Bool} (E : Parts tools order opts target source updatingRecovery)

/-- No permission is set before the links are there. -/
theorem permPath?_of_mem_before {c : Cmd} (hc : c ∈ E.verify ++ E.remove ++ E.unpack) :
    c.permPath? = none := by
  rw [List.mem_append, List.mem_append] at hc
  -- permissions are set in the last part only
  rcases hc with (hverify | hremove) | hunpack
  · -- the verification only looks
    have hlooks := E.looks_of_mem_verify hverify
    cases c <;> first | rfl | exact absurd trivial hlooks
  · simp only [remove, removeCmds, patchCmds, bootCmds, recoveryCmds, List.mem_append,
      List.mem_cons, List.mem_map, List.mem_filter, mem_deleteFilesCmds_iff] at hremove
    rcases hremove with (((hwipe | rfl | ⟨-, rfl⟩) | rfl | ⟨e, -, rfl⟩) | hboot) | hrecovery
    · split at hwipe
      · simp only [List.mem_cons, List.not_mem_nil, or_false] at hwipe
        rcases hwipe with rfl | rfl <;> rfl
      · cases hwipe
    · rfl
    · rfl
    · rfl
    · rfl
    · split at hboot
      · cases hboot
      · simp only [List.mem_cons, List.not_mem_nil, or_false] at hboot
        rcases hboot with rfl | rfl <;> rfl
    · split at hrecovery
      · rw [List.mem_singleton.mp hrecovery]
        rfl
      · cases hrecovery
  · simp only [unpack, unpackCmds, List.mem_append, List.mem_cons, mem_deleteFilesCmds_iff,
      mem_makeSymlinksCmds_iff] at hunpack
    rcases hunpack with (⟨-, rfl⟩ | hwhole) | rfl | ⟨-, rfl⟩ | ⟨s, -, rfl⟩
    · rfl
    · split at hwhole
      · simp only [List.mem_cons, List.not_mem_nil, or_false] at hwhole
        rcases hwhole with rfl | rfl <;> rfl
      · cases hwhole
    · rfl
    · rfl
    · rfl

/-- Nothing is deleted once the links are being made. -/
theorem deleteFiles_not_mem_after {names : List FileName} :
    .deleteFiles names ∉ E.permissions ++ finishCmds tools E.plan := by
  intro h
  simp only [finishCmds, List.mem_append, List.mem_cons, List.mem_map, List.not_mem_nil,
    or_false] at h
  rcases h with h | h | ⟨e, -, h⟩ | h
  · obtain ⟨path, hpath⟩ := E.permPath?_of_mem_permissions h
    cases hpath
  · cases h
  · cases h
  · cases h

/-- A command that creates a path comes late enough, when the deletion is not found from
there on. -/
theorem restored_of_split {path : Path} {names : List FileName} {done rest X Y Z : List Cmd}
    {c : Cmd} (hscript : E.script = done ++ .deleteFiles names :: rest)
    (hbefore : E.verify ++ E.remove ++ E.unpack = X ++ c :: Y)
    (hafter : E.permissions ++ finishCmds tools E.plan = Z) (hc : Recreates E.package path c)
    (hnot : .deleteFiles names ∉ c :: (Y ++ Z)) :
    ∃ mid c after, rest = mid ++ c :: after ∧ Recreates E.package path c ∧
      ∀ d ∈ done ++ .deleteFiles names :: mid, d.permPath? ≠ some path := by
  -- the same script, cut at the command that brings the path back
  have hsplit : X ++ c :: (Y ++ Z) = done ++ .deleteFiles names :: rest := by
    rw [← hscript, script, install, ← hafter]
    have heq : E.verify ++ E.remove ++ E.unpack ++ (E.permissions ++ finishCmds tools E.plan) =
        X ++ c :: Y ++ (E.permissions ++ finishCmds tools E.plan) := by rw [hbefore]
    simpa using heq.symm
  obtain ⟨mid, hrest, hX⟩ := suffix_of_not_mem hsplit hnot
  refine ⟨mid, c, _, hrest, hc, fun d hd => ?_⟩
  rw [← hX] at hd
  rw [E.permPath?_of_mem_before (hbefore ▸ List.mem_append_left _ hd)]
  exact (Option.some_ne_none _).symm

/-- What the package unpacks. -/
theorem recreates_unpack_iff {path : Path} :
    Recreates E.package path (.unpackPackageDir ["system"] ["system"]) ↔
      SentBelow tools opts target source path := by
  -- every file of the build lies below `/system`
  have hsystem {fn : FileName} {tf : Bytes}
      (hfn : (loadSystemFiles target.system).get? fn = some tf) : ∃ p, fn.path = "system" :: p := by
    obtain ⟨x, hx, hload⟩ := List.mem_filterMap.mp (Dict.mem_of_get?_ofList hfn)
    exact ⟨x.path, (loadEntry_eq_some_iff.mp hload).1⟩
  constructor
  · rintro ⟨⟨fn, tf⟩, he, -, hpath⟩
    obtain ⟨htarget, hwhole⟩ := (mem_verbatimTargets E.makePlan_eq).mp he
    obtain ⟨p, hp⟩ := hsystem htarget
    refine ⟨fn, tf, ?_, htarget, hwhole⟩
    rw [hp] at hpath ⊢
    exact hpath
  · rintro ⟨fn, tf, hpath, htarget, hwhole⟩
    obtain ⟨p, hp⟩ := hsystem htarget
    refine ⟨(fn, tf), (mem_verbatimTargets E.makePlan_eq).mpr ⟨htarget, hwhole⟩, ?_, ?_⟩
    · rw [hp]
      exact ⟨p, rfl⟩
    · rw [hp] at hpath ⊢
      exact hpath

/-- Nothing is deleted after the links are being made. -/
theorem exists_link_split {s : LinkDest String × Path}
    (hs : s ∈ symlinksToCreate (symlinksOf source.system) (symlinksOf target.system)) :
    ∃ X Y, E.verify ++ E.remove ++ E.unpack = X ++ .symlink s.1 s.2 :: Y ∧
      ∀ names, .deleteFiles names ∉ Y := by
  obtain ⟨L₁, L₂, hlinks⟩ := List.mem_iff_append.mp hs
  -- the links come last of all before the permissions
  refine ⟨E.verify ++ E.remove ++ (deleteFilesCmds (symlinksToDelete (symlinksOf source.system)
      (symlinksOf target.system)) ++
    (if E.plan.verbatimTargets ≠ [] then
      [.print "Unpacking new files...", .unpackPackageDir ["system"] ["system"]] else []) ++
    .print "Symlinks and permissions..." :: (deleteFilesCmds ((symlinksToCreate
      (symlinksOf source.system) (symlinksOf target.system)).map fun s => .plain s.2) ++
    makeSymlinksCmds L₁)), makeSymlinksCmds L₂, ?_, fun names hmem => ?_⟩
  · simp [unpack, unpackCmds, makeSymlinksCmds, hlinks]
  · obtain ⟨s', -, hs'⟩ := mem_makeSymlinksCmds_iff.mp hmem
    cases hs'

/-- After the unpacking only the links to be created are deleted. -/
theorem exists_unpack_split (hwhole : E.plan.verbatimTargets ≠ []) :
    ∃ X Y, E.verify ++ E.remove ++ E.unpack =
        X ++ .unpackPackageDir ["system"] ["system"] :: Y ∧
      ∀ names, .deleteFiles names ∈ Y → names = (symlinksToCreate (symlinksOf source.system)
        (symlinksOf target.system)).map fun s => .plain s.2 := by
  -- behind the unpacking only the links made anew are deleted
  refine ⟨E.verify ++ E.remove ++ (deleteFilesCmds (symlinksToDelete (symlinksOf source.system)
      (symlinksOf target.system)) ++ [.print "Unpacking new files..."]),
    .print "Symlinks and permissions..." :: (deleteFilesCmds ((symlinksToCreate
      (symlinksOf source.system) (symlinksOf target.system)).map fun s => .plain s.2) ++
    makeSymlinksCmds (symlinksToCreate (symlinksOf source.system) (symlinksOf target.system))),
    by simp [unpack, unpackCmds, hwhole], fun names hmem => ?_⟩
  simp only [List.mem_cons, List.mem_append, mem_deleteFilesCmds_iff, mem_makeSymlinksCmds_iff]
    at hmem
  rcases hmem with h | ⟨-, h⟩ | ⟨s, -, h⟩
  · cases h
  · exact Cmd.deleteFiles.inj h
  · cases h

/-- What comes back: a path at or below which something is sent whole, or a link is
created. -/
theorem restoresDeleted_script_iff {out : Output} (hscript : out.script = E.script)
    (hpackage : out.package = E.package) :
    RestoresDeleted target out ↔
      ∀ path, (∃ names, .deleteFiles names ∈ E.script ∧ .plain path ∈ names) →
        (FileIn target.system path ∨ ∃ c ∈ E.script, c.permPath? = some path) →
        SentBelow tools opts target source path ∨ LinkedBelow target source path := by
  rw [RestoresDeleted, hscript, hpackage]
  constructor
  · rintro h path ⟨names, hnames, hmem⟩ hneeded
    obtain ⟨done, rest, hsplit⟩ := List.mem_iff_append.mp hnames
    obtain ⟨mid, c, after, rfl, hc, -⟩ := h done names rest hsplit path hmem hneeded
    have hcmem : c ∈ E.script := by simp [hsplit]
    -- only the unpacking and the links recreate anything
    rcases List.mem_append.mp hcmem with hverify | hinstall
    · have hlooks := E.looks_of_mem_verify hverify
      cases c <;> first | exact absurd trivial hlooks | cases hc
    · cases E.installStep_of_mem hinstall with
      | unpack => exact .inl (E.recreates_unpack_iff.mp hc)
      | link s hs => exact .inr ⟨s, hs, hc⟩
      | permission c p hp => cases c <;> first | exact False.elim hc | cases hp
      | _ => cases hc
  · intro h done names rest hsplit path hmem hneeded
    have hback := h path ⟨names, by simp [hsplit], hmem⟩ hneeded
    by_cases hlinked : LinkedBelow target source path
    · -- the links come after the last deletion
      obtain ⟨s, hs, hpath⟩ := hlinked
      obtain ⟨X, Y, hbefore, hnone⟩ := E.exists_link_split hs
      apply E.restored_of_split hsplit hbefore rfl hpath
      rw [List.mem_cons, List.mem_append, not_or, not_or]
      exact ⟨nofun, hnone names, E.deleteFiles_not_mem_after⟩
    · -- the only deletion after the unpacking is that of the links to be created
      have hsent := hback.resolve_right hlinked
      have hwhole : E.plan.verbatimTargets ≠ [] := by
        obtain ⟨fn, tf, -, htarget, hwhole⟩ := hsent
        exact List.ne_nil_of_mem ((mem_verbatimTargets E.makePlan_eq).mpr ⟨htarget, hwhole⟩)
      obtain ⟨X, Y, hbefore, honly⟩ := E.exists_unpack_split hwhole
      apply E.restored_of_split hsplit hbefore rfl (E.recreates_unpack_iff.mpr hsent)
      rw [List.mem_cons, List.mem_append, not_or, not_or]
      refine ⟨nofun, fun hlater => ?_, E.deleteFiles_not_mem_after⟩
      rw [honly names hlater] at hmem
      obtain ⟨s, hs, heq⟩ := List.mem_map.mp hmem
      exact hlinked ⟨s, hs, by rw [← FileName.plain_inj.mp heq]⟩

end Parts

/-! ## §2 Which Paths Decide -/

/-- The source build has a file or a link where the target build has nothing. -/
def GoneFrom (target source : Build) (p : Path) : Prop :=
  (∃ n, imageAt source.system p = some n ∧ n.isDir = false) ∧ imageAt target.system p = none

/-- `SetPermissions` names the path, when the recovery image changes. -/
def SetsPermissionsOf (order : DictOrder) (target : Build) (path : Path) : Prop :=
  ∃ cmds items, permissionCmds order target true = .ok (cmds, items) ∧
    ∃ c ∈ cmds, c.permPath? = some path

/-- What is deleted whatever the builds are. -/
def alwaysDeleted : List Path :=
  [["recovery.img"], ["recovery-from-boot.p"], ["etc", "install-recovery.sh"]]

section

variable {tools : Tools} {opts : Options} {target source : Build}

theorem fileIn_iff {z : List ZipEntry} (hz : WellFormed z) {p : Path} :
    FileIn z ("system" :: p) ↔ ∃ data, imageAt z p = some (.file data ()) := by
  constructor
  · rintro ⟨q, data, hq, hmem⟩
    obtain rfl := (List.cons_inj_right "system").mp hq
    exact ⟨data, (imageAt_eq_some_iff hz).mpr ⟨_, hmem, rfl, rfl⟩⟩
  · rintro ⟨data, himage⟩
    obtain ⟨e, he, rfl, hnode⟩ := (imageAt_eq_some_iff hz).mp himage
    -- only a file entry stands for a file
    cases e with
    | file path data' => exact ⟨path, data', rfl, he⟩
    | dir path => cases hnode
    | symlink path dest => cases hnode

/-- What is of another kind in the target build is sent whole or created. -/
theorem comes_of_kind (ht : WellFormed target.system) (hs : WellFormed source.system) {p : Path}
    {n n' : Node String Bytes Unit} (htarget : imageAt target.system p = some n)
    (hsource : imageAt source.system p = some n')
    (hkind : n.isDir ≠ n'.isDir ∨ n.isLink ≠ n'.isLink) :
    SentBelow tools opts target source ("system" :: p) ∨
      LinkedBelow target source ("system" :: p) := by
  cases n with
  -- a directory has a name of its own, with a slash at the end
  | dir perm =>
    refine .inl ⟨.dir ("system" :: p), [], List.prefix_rfl,
      (get?_loadSystemFiles_dir ht).mpr ⟨htarget, rfl⟩, ?_⟩
    cases hget : (loadSystemFiles source.system).get? (.dir ("system" :: p)) with
    | none => trivial
    | some data =>
      obtain ⟨hdir, -⟩ := (get?_loadSystemFiles_dir hs).mp hget
      obtain rfl := Option.some.inj (hsource.symm.trans hdir)
      simp at hkind
  | file data perm =>
    refine .inl ⟨.plain ("system" :: p), data, List.prefix_rfl,
      (get?_loadSystemFiles_plain ht).mpr htarget, ?_⟩
    cases hget : (loadSystemFiles source.system).get? (.plain ("system" :: p)) with
    | none => trivial
    | some data' =>
      have hfile := (get?_loadSystemFiles_plain hs).mp hget
      obtain rfl := Option.some.inj (hsource.symm.trans hfile)
      simp [Node.isDir, Node.isLink] at hkind
  -- a link is made anew, the source having another node there
  | link dest =>
    refine .inr ⟨(dest, "system" :: p), (mem_symlinksToCreate hs ht).mpr ⟨p, rfl, htarget, ?_⟩,
      List.prefix_rfl⟩
    intro hlink
    obtain rfl := Option.some.inj (hsource.symm.trans hlink)
    simp at hkind

/-- Where the target build has nothing, nothing comes. -/
theorem not_comes_of_gone (tools : Tools) (opts : Options) (ht : WellFormed target.system)
    (hs : WellFormed source.system) {p : Path} (hp : p ≠ [])
    (hgone : imageAt target.system p = none) :
    ¬SentBelow tools opts target source ("system" :: p) ∧
      ¬LinkedBelow target source ("system" :: p) := by
  -- nothing is below it either
  have habove {q : Path} (hq : imageAt target.system q ≠ none) (hpq : p <+: q) : False := by
    by_cases heq : p = q
    · exact hq (heq ▸ hgone)
    · have hdir := imageAt_above ht hq hp hpq heq
      rw [hgone] at hdir
      cases hdir
  constructor
  · rintro ⟨fn, tf, hpath, htarget, -⟩
    obtain ⟨q, n, hq, himage, -⟩ := (get?_loadSystemFiles ht).mp htarget
    rw [hq] at hpath
    exact habove (himage ▸ Option.some_ne_none n) ((List.prefix_cons_inj "system").mp hpath)
  · rintro ⟨s, hmem, hpath⟩
    obtain ⟨q, hq, himage, -⟩ := (mem_symlinksToCreate hs ht).mp hmem
    rw [hq] at hpath
    exact habove (himage ▸ Option.some_ne_none _) ((List.prefix_cons_inj "system").mp hpath)

variable {order : DictOrder} (E : Parts tools order opts target source true)

/-- What the permission commands of the script name. -/
theorem Parts.named_iff {path : Path} :
    (∃ c ∈ E.script, c.permPath? = some path) ↔
      SetsPermissionsOf order target path ∨ path = ["system", "build.prop"] := by
  -- permissions are set by the Items and, at the very end, on `build.prop`
  have hbefore {c : Cmd} (hc : c ∈ E.verify ++ E.remove ++ E.unpack) := E.permPath?_of_mem_before hc
  have hscript {c : Cmd} : c ∈ E.script ↔ c ∈ E.verify ++ E.remove ++ E.unpack ∨
      c ∈ E.permissions ∨ c ∈ finishCmds tools E.plan := by
    simp [Parts.script, Parts.install, or_assoc]
  have hsets : SetsPermissionsOf order target path ↔
      ∃ c ∈ E.permissions, c.permPath? = some path := by
    constructor
    · rintro ⟨cmds, items, hcmds, h⟩
      cases hcmds.symm.trans E.permissions_eq
      exact h
    · exact fun h => ⟨E.permissions, E.items, E.permissions_eq, h⟩
  rw [hsets]
  constructor
  · rintro ⟨c, hc, hpath⟩
    -- before the permissions, in them, or in the last commands
    rcases hscript.mp hc with hc | hc | hc
    · rw [hbefore hc] at hpath
      cases hpath
    · exact .inl ⟨c, hc, hpath⟩
    · simp only [finishCmds, List.mem_cons, List.mem_append, List.mem_map, List.not_mem_nil,
        or_false] at hc
      rcases hc with rfl | ⟨e, -, rfl⟩ | rfl
      · cases hpath
      · cases hpath
      · exact .inr (Option.some.inj hpath).symm
  · rintro (⟨c, hc, hpath⟩ | rfl)
    · exact ⟨c, hscript.mpr (.inr (.inl hc)), hpath⟩
    · exact ⟨.setPermissions ["system", "build.prop"] 0 0 0o644,
        hscript.mpr (.inr (.inr (by simp [finishCmds]))), rfl⟩

/-- Where the source build alone has a file or a link, it is deleted. -/
theorem Parts.deletes_gone (ht : WellFormed target.system) (hs : WellFormed source.system)
    {p : Path} (hgone : GoneFrom target source p) :
    ∃ names, .deleteFiles names ∈ E.script ∧ .plain ("system" :: p) ∈ names := by
  obtain ⟨htargetData, hsourceData⟩ := makePlan_data E.makePlan_eq
  obtain ⟨⟨n, hn, hdir⟩, hnone⟩ := hgone
  rw [E.mem_deleteFiles]
  -- a file is deleted with the files not needed, a link with the links
  cases n with
  | dir perm => cases hdir
  | file data perm =>
    left
    rw [unneededFiles, List.mem_append, List.mem_append, List.mem_filter, hsourceData, htargetData]
    refine .inl (.inr ⟨mem_sortedKeys.mpr ⟨data, (get?_loadSystemFiles_plain hs).mpr hn⟩, ?_⟩)
    rw [decide_eq_true_iff, Dict.mem_keys_iff]
    rintro ⟨data', hdata'⟩
    rw [get?_loadSystemFiles_plain ht, hnone] at hdata'
    cases hdata'
  | link dest =>
    refine .inr (.inr (.inl ((mem_symlinksToDelete hs ht).mpr ⟨p, rfl, ⟨dest, hn⟩, ?_⟩)))
    rintro ⟨dest', hdest'⟩
    rw [hnone] at hdest'
    cases hdest'

/-- What is deleted: what comes anyway, what is always deleted, and what is a file or a link
in the source build and of another kind, or nothing, in the target build. -/
theorem Parts.deleted_cases (ht : WellFormed target.system) (hs : WellFormed source.system)
    {path : Path} (h : ∃ names, .deleteFiles names ∈ E.script ∧ .plain path ∈ names) :
    (SentBelow tools opts target source path ∨ LinkedBelow target source path) ∨
      (∃ p ∈ alwaysDeleted, path = "system" :: p) ∨
      ∃ p, path = "system" :: p ∧ GoneFrom target source p := by
  obtain ⟨htargetData, hsourceData⟩ := makePlan_data E.makePlan_eq
  -- a file or a link of the source build, of another kind in the target build
  have hkind {p : Path} {n' : Node String Bytes Unit} (hsource : imageAt source.system p = some n')
      (hdir : n'.isDir = false)
      (htarget : ∀ n, imageAt target.system p = some n →
        n.isDir ≠ n'.isDir ∨ n.isLink ≠ n'.isLink) :
      (SentBelow tools opts target source ("system" :: p) ∨
        LinkedBelow target source ("system" :: p)) ∨ GoneFrom target source p := by
    cases hn : imageAt target.system p with
    | none => exact .inr ⟨⟨n', hsource, hdir⟩, hn⟩
    | some n => exact .inl (comes_of_kind ht hs hn hsource (htarget n hn))
  -- the four places at which the script deletes
  rcases E.mem_deleteFiles.mp h with hunneeded | ⟨-, hrecovery⟩ | hdelete | hcreate
  · rw [unneededFiles, List.mem_append, List.mem_append, List.mem_filter, hsourceData, htargetData,
      mem_sortedKeys, decide_eq_true_iff, Dict.mem_keys_iff] at hunneeded
    rcases hunneeded with (hverbatim | ⟨⟨data, hsource⟩, hnot⟩) | himage
    · obtain ⟨⟨fn, tf⟩, hmem, rfl⟩ := List.mem_map.mp hverbatim
      obtain ⟨htarget, hwhole⟩ := (mem_verbatimTargets E.makePlan_eq).mp hmem
      exact .inl (.inl ⟨_, tf, List.prefix_rfl, htarget, hwhole⟩)
    · obtain ⟨p, n', hp, -, -⟩ := (get?_loadSystemFiles hs).mp hsource
      obtain rfl : path = "system" :: p := hp
      have hfile := (get?_loadSystemFiles_plain hs).mp hsource
      refine (hkind hfile rfl fun n hn => ?_).imp_right fun hgone => .inr ⟨p, rfl, hgone⟩
      cases n with
      | dir perm => exact .inl fun h => Bool.noConfusion h
      | file data' perm => exact absurd ⟨data', (get?_loadSystemFiles_plain ht).mpr hn⟩ hnot
      | link dest => exact .inr fun h => Bool.noConfusion h
    · rw [List.mem_singleton, FileName.plain_inj] at himage
      exact .inr (.inl ⟨["recovery.img"], by decide, himage⟩)
  · simp only [recoveryFiles, List.mem_cons, FileName.plain_inj, List.not_mem_nil, or_false]
      at hrecovery
    rcases hrecovery with rfl | rfl
    · exact .inr (.inl ⟨["recovery-from-boot.p"], by decide, rfl⟩)
    · exact .inr (.inl ⟨["etc", "install-recovery.sh"], by decide, rfl⟩)
  · obtain ⟨p, hp, ⟨dest, hsource⟩, hnot⟩ := (mem_symlinksToDelete hs ht).mp hdelete
    obtain rfl := FileName.plain_inj.mp hp
    refine (hkind hsource rfl fun n hn => ?_).imp_right fun hgone => .inr ⟨p, rfl, hgone⟩
    cases n with
    | dir perm => exact .inl fun h => Bool.noConfusion h
    | file data perm => exact .inr fun h => Bool.noConfusion h
    | link dest' => exact absurd ⟨dest', hn⟩ hnot
  · obtain ⟨s, hmem, hpath⟩ := List.mem_map.mp hcreate
    obtain rfl := FileName.plain_inj.mp hpath
    exact .inl (.inr ⟨s, hmem, List.prefix_rfl⟩)

end

/-- **What a recovery update deletes for good**: for every pair of builds, all options and
every differ, every deleted path that matters comes back in time exactly when what is always
deleted, as far as it matters, is brought along, and `etc` and `build.prop` are not files or
links of the source build alone, `etc` as far as permissions are set for it. -/
theorem restoresDeleted_iff (tools : Tools) (order : DictOrder) (opts : Options)
    (target source : Build) (ht : WellFormed target.system) (hs : WellFormed source.system)
    (out : Output)
    (hout : writeIncrementalOTAPackage tools order opts target source (.ok true) = .ok out) :
    RestoresDeleted target out ↔
      (∀ p ∈ alwaysDeleted,
        FileIn target.system ("system" :: p) ∨ SetsPermissionsOf order target ("system" :: p) →
        SentBelow tools opts target source ("system" :: p) ∨
          LinkedBelow target source ("system" :: p)) ∧
      (GoneFrom target source ["etc"] → ¬SetsPermissionsOf order target ["system", "etc"]) ∧
      ¬GoneFrom target source ["build.prop"] := by
  obtain ⟨u, hu, E, hscript, hpackage⟩ := exists_parts hout
  cases hu
  rw [E.restoresDeleted_script_iff hscript hpackage]
  simp only [E.named_iff]
  constructor
  · intro h
    -- what is gone from the target build does not come back
    have hgone {p : Path} (hp : p ≠ []) (hgone : GoneFrom target source p)
        (hsets : SetsPermissionsOf order target ("system" :: p) ∨
          "system" :: p = ["system", "build.prop"]) : False := by
      obtain ⟨hsent, hlinked⟩ := not_comes_of_gone tools opts ht hs hp hgone.2
      exact (h _ (E.deletes_gone ht hs hgone) (.inr hsets)).elim hsent hlinked
    refine ⟨fun p hp hneeded => h _ ?_ (hneeded.imp_right .inl),
      fun hetc hsets => hgone (List.cons_ne_nil _ _) hetc (.inl hsets),
      fun hprop => hgone (List.cons_ne_nil _ _) hprop (.inr rfl)⟩
    -- the three paths are deleted whatever the builds are
    rw [E.mem_deleteFiles]
    simp only [alwaysDeleted, List.mem_cons, List.not_mem_nil, or_false] at hp
    rcases hp with rfl | rfl | rfl
    · exact .inl (by simp [unneededFiles])
    · exact .inr (.inl ⟨rfl, by decide⟩)
    · exact .inr (.inl ⟨rfl, by decide⟩)
  · rintro ⟨halways, hetc, hprop⟩ path hdeleted hneeded
    -- a deleted path comes back, is one of the three, or is gone
    rcases E.deleted_cases ht hs hdeleted with hcomes | ⟨p, hp, rfl⟩ | ⟨p, rfl, hgone⟩
    · exact hcomes
    · refine halways p hp (hneeded.imp_right fun hsets => hsets.resolve_right fun heq => ?_)
      obtain rfl := (List.cons_inj_right "system").mp heq
      revert hp
      decide
    · -- where it is gone, only permissions can ask for it
      rcases hneeded with hfile | ⟨cmds, items, hcmds, c, hc, hpath⟩ | heq
      · obtain ⟨data, hdata⟩ := (fileIn_iff ht).mp hfile
        rw [hgone.2] at hdata
        cases hdata
      · have hsets : SetsPermissionsOf order target ("system" :: p) :=
          ⟨cmds, items, hcmds, c, hc, hpath⟩
        obtain ⟨q, hq, hname⟩ := permPath?_of_updating ht hcmds c hc
        obtain rfl := (List.cons_inj_right "system").mp (Option.some.inj (hpath.symm.trans hq))
        rcases hname with rfl | ⟨n, hn, -⟩ | ⟨-, hrecovery⟩
        · -- the root is a directory
          obtain ⟨⟨n, hn, hdir⟩, -⟩ := hgone
          exact absurd rfl (ne_nil_of_leaf hs hn hdir)
        · rw [hgone.2] at hn
          cases hn
        · simp only [recoveryPaths, List.mem_cons, List.not_mem_nil, or_false] at hrecovery
          rcases hrecovery with rfl | rfl | rfl
          · exact halways _ (by decide) (.inr hsets)
          · exact absurd hsets (hetc hgone)
          · exact halways _ (by decide) (.inr hsets)
      · obtain rfl := (List.cons_inj_right "system").mp heq
        exact absurd hgone hprop

/-- A build with two files in `etc`, and with the files of a recovery update. -/
def etcBuild (recovery : List ZipEntry) : Build where
  system := [.dir ["etc"], .file ["etc", "hosts"] [1], .file ["etc", "gps.conf"] [2]] ++
    (recovery ++ [.file ["build.prop"] [3]])
  metadata := [⟨["system"], ⟨0, 0, 0o755⟩⟩, ⟨["system", "etc"], ⟨0, 0, 0o755⟩⟩,
    ⟨["system", "etc", "hosts"], ⟨0, 0, 0o644⟩⟩, ⟨["system", "etc", "gps.conf"], ⟨0, 0, 0o644⟩⟩,
    ⟨["system", "build.prop"], ⟨0, 0, 0o644⟩⟩]
  buildProp _ := some "odroidu2"
  boot := [4]

/-- The files of a recovery update, as files of the build. -/
def ownRecovery : List ZipEntry :=
  [.file ["etc", "install-recovery.sh"] [5], .file ["recovery-from-boot.p"] [6]]

/-- When the target build has both files and the source build none, they are unpacked. -/
theorem restoresDeleted_iff_own : ∃ out, writeIncrementalOTAPackage plainRecovery.toTools
      DictOrder.insertion smallOptions (etcBuild ownRecovery) (etcBuild []) (.ok true) = .ok out ∧
    RestoresDeleted (etcBuild ownRecovery) out := by
  obtain ⟨out, hout⟩ : ∃ out, writeIncrementalOTAPackage plainRecovery.toTools
      DictOrder.insertion smallOptions (etcBuild ownRecovery) (etcBuild []) (.ok true) =
        .ok out := ⟨_, rfl⟩
  -- a new file is sent whole
  have hsent (p : Path) (data : Bytes) (hfn : (loadSystemFiles (etcBuild ownRecovery).system).get?
      (.plain ("system" :: p)) = some data) (hnew : (loadSystemFiles (etcBuild []).system).get?
      (.plain ("system" :: p)) = none) : SentBelow plainRecovery.toTools smallOptions
        (etcBuild ownRecovery) (etcBuild []) ("system" :: p) :=
    ⟨_, data, List.prefix_rfl, hfn, by rw [hnew]; trivial⟩
  refine ⟨out, hout, (restoresDeleted_iff _ _ _ _ _ (by decide) (by decide) out hout).mpr
    ⟨?_, ?_, ?_⟩⟩
  · intro p hp hneeded
    simp only [alwaysDeleted, List.mem_cons, List.not_mem_nil, or_false] at hp
    rcases hp with rfl | rfl | rfl
    · -- there is no `recovery.img`
      rcases hneeded with hfile | ⟨cmds, items, hcmds, c, hc, hpath⟩
      · obtain ⟨data, hdata⟩ := (fileIn_iff (by decide)).mp hfile
        cases hdata
      · obtain ⟨q, hq, hname⟩ := permPath?_of_updating (by decide) hcmds c hc
        obtain rfl := (List.cons_inj_right "system").mp (Option.some.inj (hpath.symm.trans hq))
        rcases hname with hname | ⟨n, hn, -⟩ | ⟨-, hname⟩
        · cases hname
        · cases hn
        · exact absurd hname (by decide)
    · exact .inl (hsent _ [6] rfl rfl)
    · exact .inl (hsent _ [5] rfl rfl)
  · rintro ⟨-, hgone⟩
    cases hgone
  · rintro ⟨-, hgone⟩
    cases hgone

/-- Two builds that are the same: `install-recovery.sh` is deleted, never comes back, and its
permissions are set. -/
theorem installRecovery_not_restored : ∃ out, writeIncrementalOTAPackage plainRecovery.toTools
      DictOrder.insertion smallOptions (etcBuild []) (etcBuild []) (.ok true) = .ok out ∧
    ¬RestoresDeleted (etcBuild []) out := by
  obtain ⟨out, hout⟩ : ∃ out, writeIncrementalOTAPackage plainRecovery.toTools
      DictOrder.insertion smallOptions (etcBuild []) (etcBuild []) (.ok true) =
        .ok out := ⟨_, rfl⟩
  have hnamed : ∃ c ∈ out.script,
      c.permPath? = some ["system", "etc", "install-recovery.sh"] := by
    cases hout
    decide +kernel
  refine ⟨out, hout, ?_⟩
  obtain ⟨u, hu, E, hscript, hpackage⟩ := exists_parts hout
  cases hu
  rw [hscript] at hnamed
  rw [E.restoresDeleted_script_iff hscript hpackage]
  intro h
  -- nothing of the build lies at or above the path, and no link does
  rcases h _ (E.mem_deleteFiles.mpr (.inr (.inl ⟨rfl, by decide⟩))) (.inr hnamed) with
    ⟨fn, tf, hpath, hfn, -⟩ | ⟨s, hs, -⟩
  · have hnone : ∀ fn ∈ (loadSystemFiles (etcBuild []).system).keys,
        ¬["system", "etc", "install-recovery.sh"] <+: fn.path := by decide
    exact hnone fn ((Dict.mem_keys_iff _ _).mpr ⟨tf, hfn⟩) hpath
  · cases hs

end OdroidU2.Ota
