import OdroidU2.Ota.IncrementalCorrect
import OdroidU2.Ota.IncrementalParts
import OdroidU2.Ota.UpdatedTree

/-!
# Unchanged Files

A regular file that is the same in both builds is to keep its contents at every point of an
incremental script.  Only the first delete command can take one: the names of new files are
deleted while links of the source build still lead elsewhere, and `recovery.img` is deleted
whatever it is.

- `Parts.script_phases` — the parts of the script with their own invariants
- `Parts.throughout_keeps` — the unchanged files, from one part to the next
- `keepsUnchanged_iff` — when all unchanged files are kept
- `linked_file_deleted` — a script that deletes one
-/

namespace OdroidU2.Ota

open OdroidU2.Foundations FileTree

/-! ## §1 Keeping the Unchanged Files -/

/-- After every prefix of the script, every unchanged file has its contents. -/
def KeepsUnchanged (rec : Recovery) (target source : Build) (out : Output) (d : Device) : Prop :=
  ∀ done d₁, done <+: out.script → runScript rec out.package d done = some d₁ →
    ∀ p data, Unchanged rec.toTools target source p data →
      ∃ perm, readFile d₁.fs ("system" :: p) = some (data, perm)

/-- The first delete command of the script comes to a name, and finds the tree `fs`. -/
def ComesToDelete (rec : Recovery) (out : Output) (d : Device) (fn : FileName)
    (fs : DeviceTree) : Prop :=
  ∃ before n₁ n₂ rest d₁, out.script = before ++ .deleteFiles (n₁ ++ fn :: n₂) :: rest ∧
    (∀ names, .deleteFiles names ∉ before) ∧ runScript rec out.package d before = some d₁ ∧
    fs = n₁.foldl deleteFile d₁.fs

/-- The target build has the file or directory, and the source build does not. -/
def NewFile (target source : Build) (fn : FileName) : Prop :=
  fn ∈ (loadSystemFiles target.system).keys ∧ fn ∉ (loadSystemFiles source.system).keys

/-- The name may be deleted: it is not `recovery.img` or a required file when that is
unchanged, and a new one does not lead to an unchanged file. -/
structure Spares (tools : Tools) (opts : Options) (target source : Build) (fn : FileName)
    (fs : DeviceTree) : Prop where
  recoveryImg : fn = .plain ["system", "recovery.img"] →
    ∀ data, ¬Unchanged tools target source ["recovery.img"] data
  required : fn ∈ opts.requireVerbatim → ∀ p data, fn = .plain ("system" :: p) →
    ¬Unchanged tools target source p data
  new : NewFile target source fn → fn.slash = false → ∀ p data,
    fs.resolveParent fn.path = some ("system" :: p) → ¬Unchanged tools target source p data

/-! ## §2 The Phases of the Script -/

namespace Parts

variable {tools : Tools} {order : DictOrder} {opts : Options} {target source : Build}
variable (E : Parts tools order opts target source false)

/-- The commands up to the first deletion. -/
def upToDelete : List Cmd :=
  E.verify ++ ((if opts.wipeUserData then
    [.print "Erasing user data...", .formatPartition ["data"]] else []) ++
      [.print "Removing unneeded files..."])

/-- The patches. -/
def patches : List Cmd := patchCmds tools E.plan ++ bootCmds tools opts E.boot

/-- The commands after the links of the source build alone are deleted. -/
def settle : List Cmd :=
  (if E.plan.verbatimTargets ≠ [] then
    [.print "Unpacking new files...", .unpackPackageDir ["system"] ["system"]] else []) ++
  .print "Symlinks and permissions..." ::
    (deleteFilesCmds ((symlinksToCreate (symlinksOf source.system)
      (symlinksOf target.system)).map fun s => .plain s.2) ++
    makeSymlinksCmds (symlinksToCreate (symlinksOf source.system) (symlinksOf target.system))) ++
  E.permissions ++ finishCmds tools E.plan

theorem script_phases : E.script = E.upToDelete ++ .deleteFiles (unneededFiles E.plan) ::
    (E.patches ++ (deleteFilesCmds (symlinksToDelete (symlinksOf source.system)
      (symlinksOf target.system)) ++ E.settle)) := by
  have hunneeded : deleteFilesCmds (unneededFiles E.plan) =
      [.deleteFiles (unneededFiles E.plan)] := by
    rw [deleteFilesCmds, if_neg]
    simp [unneededFiles]
  simp [script, install, remove, unpack, removeCmds, recoveryCmds, unpackCmds, upToDelete, patches,
    settle, hunneeded]

/-- Up to the first deletion a command does nothing to `/system`. -/
theorem upToDelete_cases {c : Cmd} (hc : c ∈ E.upToDelete) :
    ¬c.Changes ∨ c = .formatPartition ["data"] := by
  rw [upToDelete, List.mem_append] at hc
  -- up to the first delete the script only looks, or wipes `/data`
  rcases hc with hverify | hremove
  · exact .inl (E.looks_of_mem_verify hverify)
  · split at hremove
    · simp only [List.cons_append, List.nil_append, List.mem_cons, List.not_mem_nil,
        or_false] at hremove
      rcases hremove with rfl | rfl | rfl
      · exact .inl id
      · exact .inr rfl
      · exact .inl id
    · rw [List.nil_append, List.mem_singleton] at hremove
      rw [hremove]
      exact .inl id

/-- Where the first delete command stands, and what it is given. -/
theorem first_delete {done rest : List Cmd} {names : List FileName}
    (h : E.script = done ++ .deleteFiles names :: rest)
    (hdone : ∀ names, .deleteFiles names ∉ done) :
    done = E.upToDelete ∧ names = unneededFiles E.plan := by
  rw [script_phases] at h
  -- nothing is deleted before
  have hfirst : ∀ c ∈ E.upToDelete, ¬∃ names, c = .deleteFiles names := by
    rintro c hc ⟨names, rfl⟩
    rcases E.upToDelete_cases hc with hlooks | heq
    · exact hlooks trivial
    · cases heq
  obtain ⟨hdone, hnames⟩ := first_unique h hfirst ⟨_, rfl⟩
    (fun c hc ⟨names, hc'⟩ => hdone names (hc' ▸ hc)) ⟨names, rfl⟩
  exact ⟨hdone, Cmd.deleteFiles.inj hnames⟩

/-- What the patches are. -/
theorem patches_mem {c : Cmd} (hc : c ∈ E.patches) :
    (∃ e ∈ E.plan.patchList, c = applyPatchCmd tools e) ∨ ∀ rec pkg fs, execTree rec pkg fs c =
      some fs := by
  simp only [patches, patchCmds, bootCmds, List.mem_append, List.mem_cons, List.mem_map,
    List.mem_filter] at hc
  -- files are patched in the tree, the boot image is not part of it
  rcases hc with (rfl | ⟨e, ⟨he, -⟩, rfl⟩) | hboot
  · exact .inr fun _ _ _ => rfl
  · exact .inl ⟨e, he, rfl⟩
  · split at hboot
    · cases hboot
    · simp only [List.mem_cons, List.not_mem_nil, or_false] at hboot
      rcases hboot with rfl | rfl
      · exact .inr fun _ _ _ => rfl
      · exact .inr fun _ _ _ => rfl

/-- A command that only brings in what the target build has. -/
inductive SettleStep : Cmd → Prop where
  | print (message : String) : SettleStep (.print message)
  | unpack : SettleStep (.unpackPackageDir ["system"] ["system"])
  | delete : SettleStep (.deleteFiles ((symlinksToCreate (symlinksOf source.system)
      (symlinksOf target.system)).map fun s => .plain s.2))
  | link (s : LinkDest String × Path)
      (mem : s ∈ symlinksToCreate (symlinksOf source.system) (symlinksOf target.system)) :
      SettleStep (.symlink s.1 s.2)
  | permission (c : Cmd) (path : Path) (names : c.permPath? = some path) : SettleStep c
  | patch (e : PatchEntry) (mem : e ∈ E.plan.patchList) : SettleStep (applyPatchCmd tools e)

theorem settleStep_of_mem {c : Cmd} (hc : c ∈ E.settle) : E.SettleStep c := by
  simp only [settle, finishCmds, List.mem_append, List.mem_cons, List.mem_map, List.mem_filter,
    List.not_mem_nil, or_false, mem_deleteFilesCmds_iff, mem_makeSymlinksCmds_iff] at hc
  -- the commands behind the patches, in the order of the source
  rcases hc with ((hunpack | rfl | ⟨-, rfl⟩ | ⟨s, hs, rfl⟩) | hpermission) |
    rfl | ⟨e, ⟨he, -⟩, rfl⟩ | rfl
  · split at hunpack
    · simp only [List.mem_cons, List.not_mem_nil, or_false] at hunpack
      rcases hunpack with rfl | rfl
      · exact .print _
      · exact .unpack
    · cases hunpack
  · exact .print _
  · exact .delete
  · exact .link s hs
  · obtain ⟨path, hpath⟩ := E.permPath?_of_mem_permissions hpermission
    exact .permission c path hpath
  · exact .print _
  · exact .patch e he
  · exact .permission _ _ rfl

end Parts

/-! ## §3 Every Point of the Script -/

section Points

variable {rec : Recovery} {order : DictOrder} {opts : Options} {target source : Build}
variable (E : Parts rec.toTools order opts target source false)
variable {pkg : Package} {d d' : Device} {fs fs' : DeviceTree}

/-- A command acts on the tree of the device. -/
theorem execTree_of_exec {c : Cmd} (h : exec rec pkg d c = some d') :
    execTree rec pkg d.fs c = some d'.fs := by
  rw [exec, Option.ite_none_right_eq_some] at h
  obtain ⟨fs, hfs, h⟩ := Option.bind_eq_some_iff.mp h.2
  obtain ⟨boot, -, h⟩ := Option.bind_eq_some_iff.mp h
  cases h
  exact hfs

/-- A command that only looks. -/
theorem execTree_of_looks {c : Cmd} (hc : ¬c.Changes) (h : execTree rec pkg fs c = some fs') :
    fs' = fs := by
  -- a command that looks ends the script or leaves the tree as it is
  cases c with
  | assertSomeFingerprint fp =>
    obtain ⟨x, -, h⟩ := Option.bind_eq_some_iff.mp h
    obtain ⟨value, -, h⟩ := Option.bind_eq_some_iff.mp h
    rw [Option.ite_none_right_eq_some, Option.some.injEq] at h
    exact h.2.symm
  | patchCheck target sha1s =>
    cases target with
    | file path =>
      obtain ⟨x, -, h⟩ := Option.bind_eq_some_iff.mp h
      rw [Option.ite_none_right_eq_some, Option.some.injEq] at h
      exact h.2.symm
    | «partition» => exact (Option.some.inj h).symm
  | mount mountPoint => exact (Option.some.inj h).symm
  | assertDevice device => exact (Option.some.inj h).symm
  | print message => exact (Option.some.inj h).symm
  | comment message => exact (Option.some.inj h).symm
  | cacheFreeSpaceCheck amount => exact (Option.some.inj h).symm
  | _ => exact absurd trivial hc

/-- User data may be wiped. -/
theorem HoldsBuild.wipe (h : HoldsBuild source fs)
    (hexec : execTree rec pkg fs (.formatPartition ["data"]) = some fs') :
    HoldsBuild source fs' := by
  -- formatting `/data` does not reach `/system`
  have hsystem (p : Path) : fs' ("system" :: p) = fs ("system" :: p) := by
    rw [← Option.some.inj hexec]
    exact if_neg fun hbelow => absurd (List.cons_prefix_cons.mp hbelow.1).1 (by decide)
  have hsound : SoundTree (fun _ => False) fs := ⟨h.tree, fun _ => False.elim⟩
  have hact := actsAs_formatPartition rec pkg ["data"] fs fs' hsound fun p => by
    rw [← Option.some.inj hexec]
    rfl
  refine ⟨hact.2.tree, ?_, fun p hp => by rw [hsystem p, h.system p hp]⟩
  have hroot := h.root
  rw [DirAt, hsystem []]
  exact hroot

/-- The device holds the source build until the first deletion. -/
theorem throughout_upToDelete (pkg : Package) (h : HoldsBuild source d.fs) :
    Throughout (exec rec pkg) (fun d => HoldsBuild source d.fs) d E.upToDelete := by
  refine throughout_of_step (fun c hc d d' hd hexec => ?_) h
  have hexec := execTree_of_exec hexec
  rcases E.upToDelete_cases hc with hlooks | rfl
  · rw [execTree_of_looks hlooks hexec]
    exact hd
  · exact hd.wipe hexec

variable (ht : WellFormed target.system) (hs : WellFormed source.system)

include ht hs in
/-- What is sent whole is not unchanged, unless that is required. -/
theorem not_unchanged_of_verbatim {fn : FileName} {tf data : Bytes} {p : Path}
    (hfn : (fn, tf) ∈ E.plan.verbatimTargets) (hname : fn = .plain ("system" :: p))
    (hrequired : fn ∉ opts.requireVerbatim) : ¬Unchanged rec.toTools target source p data := by
  intro hun
  obtain ⟨htarget, hwhole⟩ := (mem_verbatimTargets E.makePlan_eq).mp hfn
  subst hname
  rw [(get?_loadSystemFiles_plain hs).mpr hun.1] at hwhole
  rcases hwhole with hreq | ⟨hne, -⟩
  · exact hrequired hreq
  · exact not_unchanged_of_ne ((get?_loadSystemFiles_plain ht).mp htarget) hun.1 hne hun

include ht hs in
/-- A name of the first delete command takes an unchanged file only where it is not spared. -/
theorem not_unchanged_of_unneeded (h : Shrunk source fs) {fn : FileName}
    (hfn : fn ∈ unneededFiles E.plan) (hspares : Spares rec.toTools opts target source fn fs)
    (hslash : fn.slash = false) {p : Path} {data : Bytes}
    (hq : fs.resolveParent fn.path = some ("system" :: p)) :
    ¬Unchanged rec.toTools target source p data := by
  intro hun
  obtain ⟨htargetData, hsourceData⟩ := makePlan_data E.makePlan_eq
  rw [unneededFiles, List.mem_append, List.mem_append, List.mem_filter, hsourceData, htargetData,
    mem_sortedKeys, decide_eq_true_iff, Dict.mem_keys_iff, List.mem_singleton] at hfn
  rcases hfn with (hverbatim | ⟨⟨sf, hsource⟩, hnot⟩) | himg
  · obtain ⟨⟨fn, tf⟩, hmem, rfl⟩ := List.mem_map.mp hverbatim
    obtain ⟨htarget, -⟩ := (mem_verbatimTargets E.makePlan_eq).mp hmem
    cases hsource : (loadSystemFiles source.system).get? fn with
    | none =>
      -- the one case in which the name need not lead to itself
      have hnew : NewFile target source fn := by
        rw [NewFile, Dict.mem_keys_iff, Dict.mem_keys_iff]
        exact ⟨⟨tf, htarget⟩, by simp [hsource]⟩
      exact hspares.new hnew hslash p data hq hun
    | some sf =>
      obtain rfl := h.leads_self hs hsource hslash hq
      refine not_unchanged_of_verbatim E ht hs hmem rfl (fun hrequired => ?_) hun
      exact hspares.required hrequired p data rfl hun
  · obtain rfl := h.leads_self hs hsource hslash hq
    exact hnot ⟨data, (get?_loadSystemFiles_plain ht).mpr hun.inTarget⟩
  · subst himg
    have hself := h.resolveParent (p := ["recovery.img"]) below_dirOf_name
    obtain rfl := (List.cons_inj_right "system").mp (Option.some.inj (hself.symm.trans hq))
    exact hspares.recoveryImg rfl data hun

include ht hs in
/-- The first deletion clears what the source build alone has. -/
theorem Shrunk.cleared (h : Shrunk source fs) :
    Cleared target source ((unneededFiles E.plan).foldl Ota.deleteFile fs) := by
  intro p data hp hnot
  obtain ⟨htargetData, hsourceData⟩ := makePlan_data E.makePlan_eq
  refine h.gone_of_mem ?_ (below_dirOf hs (by simp [hp])) (ne_nil_of_leaf hs hp rfl) (by simp [hp])
  rw [unneededFiles, List.mem_append, List.mem_append, List.mem_filter, hsourceData, htargetData,
    mem_sortedKeys, decide_eq_true_iff, Dict.mem_keys_iff]
  refine .inl (.inr ⟨⟨data, (get?_loadSystemFiles_plain hs).mpr hp⟩, ?_⟩)
  rintro ⟨data', hdata'⟩
  exact hnot data' ((get?_loadSystemFiles_plain ht).mp hdata')

include ht hs in
/-- Patches leave a pruned tree. -/
theorem throughout_patches (pkg : Package) (h : Pruned rec.toTools target source d.fs) :
    Throughout (exec rec pkg) (fun d => Pruned rec.toTools target source d.fs) d E.patches := by
  refine throughout_of_step (fun c hc d d' hd hexec => ?_) h
  have hexec := execTree_of_exec hexec
  rcases E.patches_mem hc with ⟨e, he, rfl⟩ | hid
  · obtain ⟨p, hname, htarget, hsource, hne⟩ := file_of_mem_patchList E.makePlan_eq ht hs he
    rw [applyPatchCmd, hname] at hexec
    have hp := ne_nil_of_leaf hs hsource rfl
    -- a patched file of the source build is no link
    have hlink : d.fs.NoLinkAt ("system" :: p) := by
      apply hd.shrunk.noLinkAt hp
      rintro ⟨dest, hdest⟩
      rw [hsource] at hdest
      cases hdest
    have hplain := hd.shrunk.sound.plain (below_dirOf hs (p := p) (by simp [hsource]))
    obtain ⟨data, perm, new, hfile, hd'⟩ :=
      execTree_applyPatch hd.shrunk.tree hplain hlink (List.cons_ne_nil _ _) hexec
    change d'.fs = Function.update d.fs ("system" :: p) _ at hd'
    rw [hd']
    -- its new contents are no loss: it is not an unchanged file
    refine ⟨hd.shrunk.update_file hfile,
      hd.keeps.update _ (fun _ => not_unchanged_of_ne htarget hsource hne) rfl,
      fun r data hr hnot => ?_⟩
    have hrp : "system" :: r ≠ "system" :: p := by
      intro heq
      rw [(List.cons_inj_right "system").mp heq] at hnot
      exact hnot _ htarget
    rw [Function.update_of_ne hrp]
    exact hd.cleared r data hr hnot
  · -- the boot patch and the messages leave the tree alone
    rw [← Option.some.inj ((hid rec pkg d.fs).symm.trans hexec)]
    exact hd

/-- The names of a list are deleted, if there are any. -/
theorem run_deleteFilesCmds {names : List FileName}
    (h : (deleteFilesCmds names).foldlM (exec rec pkg) d = some d') :
    d'.fs = names.foldl deleteFile d.fs := by
  rw [deleteFilesCmds] at h
  -- without names there is no command
  split at h
  · next hnil =>
    rw [hnil]
    exact congrArg Device.fs (Option.some.inj h).symm
  · rw [List.foldlM_cons] at h
    obtain ⟨d₁, hexec, hrun⟩ := Option.bind_eq_some_iff.mp h
    rw [← Option.some.inj hrun]
    exact (Option.some.inj (execTree_of_exec hexec)).symm

include ht hs in
/-- What the target build has is brought in. -/
theorem throughout_settle (h : Settling rec.toTools target source d.fs)
    (hrequired : ∀ p data, Unchanged rec.toTools target source p data →
      .plain ("system" :: p) ∉ opts.requireVerbatim) :
    Throughout (exec rec E.package) (fun d => Settling rec.toTools target source d.fs) d
      E.settle := by
  refine throughout_of_step (fun c hc d d' hd hexec => ?_) h
  have hexec := execTree_of_exec hexec
  cases E.settleStep_of_mem hc with
  | print message =>
    rw [← Option.some.inj hexec]
    exact hd
  | unpack =>
    -- entry by entry; an unchanged file is not among them, as it is not required
    have hrun : Throughout (extractEntry rec ["system"] ["system"])
        (Settling rec.toTools target source) d.fs E.package.system := by
      refine throughout_of_step (fun e he fs fs' hfs hexec => ?_) hd
      obtain ⟨htarget, -⟩ := (mem_verbatimTargets E.makePlan_eq).mp he
      refine hfs.extractEntry ht htarget (fun hslash p data hpath hun => ?_) hexec
      have hname : e.1 = .plain ("system" :: p) := by rw [FileName.eq_plain hslash, hpath]
      exact not_unchanged_of_verbatim E ht hs he hname (hname ▸ hrequired p data hun) hun
    exact hrun.final hexec
  | delete =>
    rw [← Option.some.inj hexec]
    -- the names are links of the target build, and no unchanged file is one
    apply hd.deleteFiles ht
    intro fn hfn
    obtain ⟨s, hmem, rfl⟩ := List.mem_map.mp hfn
    obtain ⟨p, hp, himage, -⟩ := (mem_symlinksToCreate hs ht).mp hmem
    exact ⟨p, by rw [hp], _, himage⟩
  | link s mem =>
    obtain ⟨p, hp, himage, -⟩ := (mem_symlinksToCreate hs ht).mp mem
    rw [hp] at hexec
    exact hd.symlink ht himage hexec
  | permission c path names => exact hd.permission names hexec
  | patch e mem =>
    obtain ⟨p, hname, htarget, hsource, hne⟩ := file_of_mem_patchList E.makePlan_eq ht hs mem
    rw [applyPatchCmd, hname] at hexec
    exact hd.patch ht htarget (fun _ => not_unchanged_of_ne htarget hsource hne) hexec

include ht hs in
/-- When every name of the first delete command is spared, the unchanged files are kept
throughout the script. -/
theorem Parts.throughout_keeps {out : Output} (hscript : out.script = E.script)
    (hpackage : out.package = E.package) (hd : HoldsBuild source d.fs)
    (hspares : ∀ fn fs, ComesToDelete rec out d fn fs →
      Spares rec.toTools opts target source fn fs) :
    Throughout (exec rec E.package)
      (fun d => d.fs.Treelike ∧ Keeps rec.toTools target source d.fs) d E.script := by
  have hbefore := throughout_upToDelete E E.package hd
  have hscript' := hscript.trans E.script_phases
  rw [script_phases]
  refine throughout_append (hbefore.imp fun d h => ⟨h.tree, h.keeps hs⟩) fun d₁ hrun => ?_
  have hholds := hbefore.final hrun
  -- each name of the first delete command, on the tree it finds
  have hcomes {n₁ n₂ : List FileName} {fn : FileName}
      (hnames : unneededFiles E.plan = n₁ ++ fn :: n₂) :
      Spares rec.toTools opts target source fn (n₁.foldl deleteFile d₁.fs) := by
    refine hspares fn _ ⟨E.upToDelete, n₁, n₂, _, d₁, hnames ▸ hscript', fun names hmem => ?_,
      hpackage ▸ hrun, rfl⟩
    rcases E.upToDelete_cases hmem with hlooks | heq
    · exact hlooks trivial
    · cases heq
  refine throughout_cons ⟨hholds.tree, hholds.keeps hs⟩ fun d₂ hexec => ?_
  have hd₂ : (unneededFiles E.plan).foldl deleteFile d₁.fs = d₂.fs :=
    Option.some.inj (execTree_of_exec hexec)
  -- all of them are spared, so the tree is pruned and has the unchanged files
  have hpruned : Pruned rec.toTools target source d₂.fs := by
    rw [← hd₂]
    have hkeeps := (hholds.keeps hs).foldl fun n₁ fn n₂ hnames hslash p data hq =>
      not_unchanged_of_unneeded E ht hs (hholds.shrunk.foldl n₁) (by simp [hnames])
        (hcomes hnames) hslash hq
    exact ⟨hholds.shrunk.foldl _, hkeeps, hholds.shrunk.cleared E ht hs⟩
  have hpatches := throughout_patches E ht hs E.package hpruned
  refine throughout_append (hpatches.imp fun d h => ⟨h.shrunk.tree, h.keeps⟩) fun d₃ hrun => ?_
  have hpruned := hpatches.final hrun
  -- the links of the source build go, and then the target build comes
  have hlinks : Throughout (exec rec E.package) (fun d => Pruned rec.toTools target source d.fs) d₃
      (deleteFilesCmds (symlinksToDelete (symlinksOf source.system)
        (symlinksOf target.system))) := by
    refine throughout_of_step (fun c hc d d' hd hexec => ?_) hpruned
    obtain ⟨-, rfl⟩ := mem_deleteFilesCmds_iff.mp hc
    rw [← Option.some.inj (execTree_of_exec hexec)]
    exact hd.deleteLinks ht hs
  refine throughout_append (hlinks.imp fun d h => ⟨h.shrunk.tree, h.keeps⟩) fun d₄ hrun => ?_
  have hsettling : Settling rec.toTools target source d₄.fs := by
    rw [run_deleteFilesCmds hrun]
    exact hpruned.settling ht hs
  refine (throughout_settle E ht hs hsettling fun p data hun hrequired => ?_).imp
    fun d h => ⟨h.sound.tree, h.keeps⟩
  -- a required file is among the names of the first delete command
  have hverbatim : (.plain ("system" :: p), data) ∈ E.plan.verbatimTargets := by
    rw [mem_verbatimTargets E.makePlan_eq, (get?_loadSystemFiles_plain hs).mpr hun.1]
    exact ⟨(get?_loadSystemFiles_plain ht).mpr hun.inTarget, .inl hrequired⟩
  have hmem : .plain ("system" :: p) ∈ unneededFiles E.plan := by
    rw [unneededFiles, List.mem_append, List.mem_append]
    exact .inl (.inl (List.mem_map_of_mem hverbatim))
  obtain ⟨n₁, n₂, hnames⟩ := List.mem_iff_append.mp hmem
  exact (hcomes hnames).required hrequired p data rfl hun

include hs in
/-- A name that leads to an unchanged file is the end of that file. -/
theorem Parts.not_keepsUnchanged {out : Output} (hscript : out.script = E.script)
    (hpackage : out.package = E.package) (hd : HoldsBuild source d.fs) {fn : FileName}
    (hcomes : ComesToDelete rec out d fn fs) (hslash : fn.slash = false) {p : Path}
    {data : Bytes} (hun : Unchanged rec.toTools target source p data)
    (hq : Shrunk source fs → fs.resolveParent fn.path = some ("system" :: p)) :
    ¬KeepsUnchanged rec target source out d := by
  obtain ⟨before, n₁, n₂, rest, d₁, hsplit, hfirst, hrun, rfl⟩ := hcomes
  intro hkeeps
  have hbelow : Below (DirOf source) ("system" :: p) := below_dirOf hs (by simp [hun.1])
  obtain ⟨rfl, -⟩ := E.first_delete (hscript.symm.trans hsplit) hfirst
  rw [hpackage] at hrun
  have hholds := (throughout_upToDelete E E.package hd).final hrun
  have hmid := hholds.shrunk.foldl n₁
  -- the run goes on to the end of the delete command
  let d₂ : Device := { d₁ with fs := (n₁ ++ fn :: n₂).foldl deleteFile d₁.fs }
  have hrun₂ : runScript rec out.package d (E.upToDelete ++ [.deleteFiles (n₁ ++ fn :: n₂)]) =
      some d₂ := by
    rw [hpackage, runScript, List.foldlM_append]
    refine Option.bind_eq_some_iff.mpr ⟨d₁, hrun, ?_⟩
    have hallows : d₁.Allows (.deleteFiles (n₁ ++ fn :: n₂)) := trivial
    rw [List.foldlM_cons, exec, if_pos hallows]
    rfl
  obtain ⟨perm, hread⟩ := hkeeps _ d₂ ⟨rest, by simp [hsplit]⟩ hrun₂ p data hun
  -- the name resolves to the file, so the file is gone and nothing brings it back before the end
  have hgone : d₂.fs ("system" :: p) = none := by
    show (n₁ ++ fn :: n₂).foldl deleteFile d₁.fs _ = none
    rw [List.foldl_append, List.foldl_cons]
    apply foldl_deleteFile_none
    exact deleteFile_of_resolveParent hslash (hq hmid) (hmid.leaf (hun.ne_nil hs) (by simp [hun.1]))
  rw [(hholds.shrunk.foldl (n₁ ++ fn :: n₂)).readFile_none hbelow hgone] at hread
  cases hread

include ht hs in
/-- Without a link of the source build at a directory of the target build, new names lead to
themselves or nowhere. -/
theorem Parts.spares_of_no_link {out : Output} (hscript : out.script = E.script)
    (hpackage : out.package = E.package) (hd : HoldsBuild source d.fs)
    (hlink : ∀ p, imageAt target.system p = some (.dir ()) → ¬LinkIn source.system p)
    (himg : ∀ data, ¬Unchanged rec.toTools target source ["recovery.img"] data)
    (hrequired : ∀ p data, Unchanged rec.toTools target source p data →
      .plain ("system" :: p) ∉ opts.requireVerbatim) {fn : FileName}
    (hcomes : ComesToDelete rec out d fn fs) : Spares rec.toTools opts target source fn fs := by
  obtain ⟨before, n₁, n₂, rest, d₁, hsplit, hfirst, hrun, rfl⟩ := hcomes
  obtain ⟨rfl, -⟩ := E.first_delete (hscript.symm.trans hsplit) hfirst
  rw [hpackage] at hrun
  have hfs := ((throughout_upToDelete E E.package hd).final hrun).shrunk.foldl n₁
  refine ⟨fun _ => himg, fun hreq p data hfn hun => hrequired p data hun (hfn ▸ hreq),
    fun hnew hslash p data hq hun => ?_⟩
  obtain ⟨htarget, hsource⟩ := hnew
  obtain ⟨tf, htarget⟩ := (Dict.mem_keys_iff _ _).mp htarget
  obtain ⟨p', n, hpath, himage, -⟩ := (get?_loadSystemFiles ht).mp htarget
  rw [hpath] at hq
  -- above a new file are directories of the target build, none of them a link
  have habove (q : Path) (hq : q <+: "system" :: p') (hne : q ≠ "system" :: p') (h0 : q ≠ []) :
      (n₁.foldl deleteFile d₁.fs).NoLinkAt q := by
    obtain ⟨r, rfl, hr⟩ := (List.prefix_cons_iff.mp hq).resolve_left h0
    by_cases hnil : r = []
    · exact (hfs.dirs _ (dirOf_cons.mpr (.inl hnil))).freeAt.noLinkAt h0
    · refine hfs.noLinkAt hnil (hlink r ?_)
      exact imageAt_above ht (by simp [himage]) hnil hr fun heq => hne (by rw [heq])
  rcases resolveParent_of_noLinkAt habove with hself | hnone
  · obtain rfl := (List.cons_inj_right "system").mp (Option.some.inj (hself.symm.trans hq))
    -- the name leads to itself, but a new file is no unchanged one
    refine hsource ((Dict.mem_keys_iff _ _).mpr ⟨data, ?_⟩)
    rw [FileName.eq_plain hslash, hpath]
    exact (get?_loadSystemFiles_plain hs).mpr hun.1
  · rw [hnone] at hq
    cases hq

end Points

/-- **When the unchanged files are kept**: for every pair of builds, all options, every
differ and every device that holds the source build, the unchanged files have their contents
after every prefix of the script exactly when every name of the first delete command is
spared, on the tree that it finds. -/
theorem keepsUnchanged_iff (rec : Recovery) (order : DictOrder) (opts : Options)
    (target source : Build) (ht : WellFormed target.system) (hs : WellFormed source.system)
    (out : Output)
    (hout : writeIncrementalOTAPackage rec.toTools order opts target source (.ok false) = .ok out)
    (d : Device) (hd : HoldsBuild source d.fs) :
    KeepsUnchanged rec target source out d ↔
      ∀ fn fs, ComesToDelete rec out d fn fs → Spares rec.toTools opts target source fn fs := by
  obtain ⟨u, hu, E, hscript, hpackage⟩ := exists_parts hout
  cases hu
  constructor
  · intro hkeeps fn fs hcomes
    -- a file deleted under its own name
    have hself {p : Path} {data : Bytes} (hun : Unchanged rec.toTools target source p data)
        (hfn : fn = .plain ("system" :: p)) : False := by
      subst hfn
      refine E.not_keepsUnchanged hs hscript hpackage hd hcomes rfl hun (fun hfs => ?_) hkeeps
      exact hfs.resolveParent (below_dirOf hs (by simp [hun.1]))
    refine ⟨fun hfn data hun => hself hun hfn, fun _ p data hfn hun => hself hun hfn,
      fun _ hslash p data hq hun => ?_⟩
    exact E.not_keepsUnchanged hs hscript hpackage hd hcomes hslash hun (fun _ => hq) hkeeps
  · intro hspares done d₁ hdone hrun p data hun
    rw [hscript] at hdone
    rw [hpackage] at hrun
    have hthroughout := E.throughout_keeps ht hs hscript hpackage hd hspares
    obtain ⟨htree, hkeeps⟩ := hthroughout done d₁ hdone hrun
    exact hkeeps.readFile htree hun

/-- A build with a library, and with `vendor` as a directory, as a link or not at all. -/
def vendorBuild (fingerprint : UInt8) (vendor : List ZipEntry) : Build where
  system := [.dir ["lib"], .file ["lib", "libc.so"] [1]] ++
    (vendor ++ [.file ["build.prop"] [fingerprint]])
  metadata := [⟨["system"], ⟨0, 0, 0o755⟩⟩, ⟨["system", "lib"], ⟨0, 0, 0o755⟩⟩,
    ⟨["system", "lib", "libc.so"], ⟨0, 0, 0o644⟩⟩, ⟨["system", "vendor"], ⟨0, 0, 0o755⟩⟩,
    ⟨["system", "vendor", "libc.so"], ⟨0, 0, 0o644⟩⟩, ⟨["system", "build.prop"], ⟨0, 0, 0o644⟩⟩]
  buildProp prop := some (if prop = "ro.build.fingerprint" then
    String.ofList [Char.ofNat fingerprint.toNat] else "odroidu2")
  boot := [7]

/-- `vendor` with a library of its own. -/
def vendorDir : List ZipEntry := [.dir ["vendor"], .file ["vendor", "libc.so"] [2]]

/-- `vendor` as another name of `lib`. -/
def vendorLink : List ZipEntry := [.symlink ["vendor"] ⟨false, [.down "lib"]⟩]

/-- A device with a build. -/
def vendorHolder (build : Build) : Device :=
  ⟨installed build.system ⟨0, 0, 0o755⟩, build.boot, "odroidu2", 1⟩

theorem holdsBuild_vendorHolder (build : Build) (hz : WellFormed build.system) :
    HoldsBuild build (vendorHolder build).fs where
  tree := treelike_installed hz _
  root := .inr rfl
  system := fun _ hp => contents_installed build.system _ hp

/-- When the source build has no `vendor`, the library in `lib` is kept. -/
theorem keepsUnchanged_iff_vendor : ∃ out, writeIncrementalOTAPackage plainRecovery.toTools
      DictOrder.insertion smallOptions (vendorBuild 116 vendorDir) (vendorBuild 115 [])
        (.ok false) = .ok out ∧
    KeepsUnchanged plainRecovery (vendorBuild 116 vendorDir) (vendorBuild 115 []) out
      (vendorHolder (vendorBuild 115 [])) := by
  obtain ⟨out, hout⟩ : ∃ out, writeIncrementalOTAPackage plainRecovery.toTools
      DictOrder.insertion smallOptions (vendorBuild 116 vendorDir) (vendorBuild 115 [])
        (.ok false) = .ok out := ⟨_, rfl⟩
  have hd := holdsBuild_vendorHolder (vendorBuild 115 []) (by decide)
  refine ⟨out, hout, (keepsUnchanged_iff _ _ _ _ _ (by decide) (by decide) out hout _ hd).mpr
    fun fn fs hcomes => ?_⟩
  obtain ⟨u, hu, E, hscript, hpackage⟩ := exists_parts hout
  cases hu
  -- without a link no name leads elsewhere
  have hlinks : ∀ e ∈ (vendorBuild 115 []).system, e.node.isLink = false := by decide
  refine E.spares_of_no_link (by decide) (by decide) hscript hpackage hd (fun p _ hlink => ?_)
    (fun data hun => ?_) (fun p data _ => List.not_mem_nil) hcomes
  · obtain ⟨dest, hdest⟩ := hlink
    obtain ⟨e, he, -, hnode⟩ := (imageAt_eq_some_iff (by decide)).mp hdest
    have hnot := hlinks e he
    rw [hnode] at hnot
    cases hnot
  · cases hun.1

/-- `vendor` is a link to `lib` in the source build, and a directory in the target build:
deleting the new `vendor/libc.so` deletes the library in `lib`. -/
theorem linked_file_deleted : ∃ out, writeIncrementalOTAPackage plainRecovery.toTools
      DictOrder.insertion smallOptions (vendorBuild 116 vendorDir) (vendorBuild 115 vendorLink)
        (.ok false) = .ok out ∧
    HoldsBuild (vendorBuild 115 vendorLink) (vendorHolder (vendorBuild 115 vendorLink)).fs ∧
    ¬KeepsUnchanged plainRecovery (vendorBuild 116 vendorDir) (vendorBuild 115 vendorLink) out
      (vendorHolder (vendorBuild 115 vendorLink)) := by
  obtain ⟨out, hout⟩ : ∃ out, writeIncrementalOTAPackage plainRecovery.toTools
      DictOrder.insertion smallOptions (vendorBuild 116 vendorDir) (vendorBuild 115 vendorLink)
        (.ok false) = .ok out := ⟨_, rfl⟩
  refine ⟨out, hout, holdsBuild_vendorHolder _ (by decide), fun hkeeps => ?_⟩
  -- after the delete command the library can no longer be read
  have hrun : (runScript plainRecovery out.package (vendorHolder (vendorBuild 115 vendorLink))
      (out.script.take 9)).map (fun d => readFile d.fs ["system", "lib", "libc.so"]) =
        some none := by
    cases hout
    decide +kernel
  obtain ⟨d₁, hd₁, hnone⟩ := Option.map_eq_some_iff.mp hrun
  obtain ⟨perm, hread⟩ := hkeeps _ d₁ (List.take_prefix 9 _) hd₁ ["lib", "libc.so"] [1]
    ⟨rfl, [1], rfl, rfl⟩
  rw [hnone] at hread
  cases hread

end OdroidU2.Ota
