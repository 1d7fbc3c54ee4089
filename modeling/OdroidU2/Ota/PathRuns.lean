import OdroidU2.Ota.IncrementalScript

/-!
# Following an Incremental Script at One Path

The script deletes, patches, unpacks and links in separate loops.  At one path only few of
its commands matter: these lemmas follow each part of the script there.
-/

namespace OdroidU2.Ota

open OdroidU2.Foundations Pointwise

/-! ## §1 Permissions -/

/-- The permissions a command gives to a directory and to a file at a path. -/
def Cmd.permAt? (p : Path) : Cmd → Option (Perm × Perm)
  | .setPermissions q uid gid mode =>
    if p = q then some (⟨uid, gid, mode⟩, ⟨uid, gid, mode⟩) else none
  | .setPermissionsRecursive q uid gid dmode fmode =>
    if q <+: p then some (⟨uid, gid, dmode⟩, ⟨uid, gid, fmode⟩) else none
  | _ => none

/-- A file or a directory. -/
def Settable (n : Place) : Prop := ¬ (n.isNone = true ∨ linkAt n = true)

/-- Give these permissions, if any. -/
def setAt (perms : Option (Perm × Perm)) (n : Place) : Place :=
  match perms with
  | none => n
  | some (dperm, fperm) => n.map (Node.setPerm dperm fperm)

/-- What permission commands leave at a path, one after the other. -/
def setAll (script : List Cmd) (p : Path) (n : Place) : Place :=
  script.foldl (fun n c => setAt (c.permAt? p) n) n

theorem contents_setAt (perms : Option (Perm × Perm)) (n : Place) :
    (setAt perms n).map Node.contents = n.map Node.contents := by
  cases perms with
  | none => rfl
  | some perms =>
    cases n with
    | none => rfl
    | some n => exact congrArg some (n.contents_setPerm _ _)

theorem settable_congr {n m : Place} (h : n.map Node.contents = m.map Node.contents) :
    Settable n ↔ Settable m := by
  cases n with
  | none =>
    cases m with
    | none => rfl
    | some m => cases h
  | some n =>
    cases m with
    | none => cases h
    | some m =>
      -- whether permissions can be set depends on the contents only
      have hlink : n.isLink = m.isLink := by
        rw [← n.isLink_contents, ← m.isLink_contents, Option.some.inj h]
      simp [Settable, linkAt, hlink]

/-- What is set depends on the contents only. -/
theorem setAt_congr {perms : Perm × Perm} {n m : Place}
    (h : n.map Node.contents = m.map Node.contents) : setAt (some perms) n = setAt (some perms) m := by
  cases n with
  | none =>
    cases m with
    | none => rfl
    | some m => cases h
  | some n =>
    cases m with
    | none => cases h
    | some m => cases n <;> cases m <;> cases Option.some.inj h <;> rfl

theorem contents_setAll (script : List Cmd) (p : Path) (n : Place) :
    (setAll script p n).map Node.contents = n.map Node.contents := by
  induction script generalizing n with
  | nil => rfl
  | cons c script ih => exact (ih _).trans (contents_setAt _ n)

/-- Where some command sets the permissions, those before do not matter. -/
theorem setAll_congr {script : List Cmd} {p : Path} (hset : ∃ c ∈ script, c.permAt? p ≠ none)
    {n m : Place} (h : n.map Node.contents = m.map Node.contents) :
    setAll script p n = setAll script p m := by
  -- command by command; from the first that names the path on, the two values are equal
  induction script generalizing n m with
  | nil =>
    obtain ⟨c, hc, -⟩ := hset
    cases hc
  | cons c script ih =>
    show setAll script p (setAt (c.permAt? p) n) = setAll script p (setAt (c.permAt? p) m)
    cases hperm : c.permAt? p with
    | some perms => rw [setAt_congr h]
    | none =>
      obtain ⟨c', hc', hset⟩ := hset
      rcases List.mem_cons.mp hc' with rfl | hc'
      · exact absurd hperm hset
      · exact ih ⟨c', hc', hset⟩ h

section Permissions

variable (rec : Recovery) (pkg : Package)

theorem act_permission {c : Cmd} {q : Path} (hc : c.permPath? = some q) (p : Path) {n : Place}
    (hset : p = q → Settable n) : act rec pkg c p n = some (setAt (c.permAt? p) n) := by
  -- the two commands that set permissions; the recursive one can fail at its top only
  cases c with
  | setPermissions name uid gid mode =>
    cases hc
    rw [act, Cmd.permAt?]
    split
    · rename_i hp
      rw [if_neg (hset hp)]
      rfl
    · rfl
  | setPermissionsRecursive name uid gid dmode fmode =>
    cases hc
    have hgood : ¬ (p = q ∧ (n.isNone = true ∨ linkAt n = true)) := fun h => hset h.1 h.2
    rw [act, if_neg hgood, Cmd.permAt?]
    split <;> rfl
  | _ => cases hc

/-- Permission commands at a path. -/
theorem follow_permissions {script : List Cmd} {p : Path} {n : Place}
    (hperm : ∀ c ∈ script, ∃ q, c.permPath? = some q)
    (hset : ∀ c ∈ script, c.permPath? = some p → Settable n) :
    follow (act rec pkg) p n script = some (setAll script p n) := by
  -- command by command; none of them turns a node into one that cannot be set
  induction script generalizing n with
  | nil => rfl
  | cons c script ih =>
    obtain ⟨q, hq⟩ := hperm c List.mem_cons_self
    have hself : p = q → Settable n := fun h => hset c List.mem_cons_self (h ▸ hq)
    rw [follow_cons, act_permission rec pkg hq p hself, Option.bind_some]
    refine ih (fun c hc => hperm c (List.mem_cons_of_mem _ hc)) fun c' hc' hp => ?_
    exact (settable_congr (contents_setAt _ n)).mpr (hset c' (List.mem_cons_of_mem _ hc') hp)

/-- A permission command that succeeds. -/
theorem act_permission_some {c : Cmd} {q : Path} (hc : c.permPath? = some q) {p : Path}
    {n n' : Place} (h : act rec pkg c p n = some n') :
    n' = setAt (c.permAt? p) n ∧ (p = q → Settable n) := by
  have hset : p = q → Settable n := by
    rintro rfl hbad
    -- at its own path the command has not failed, so something settable is there
    cases c with
    | setPermissions name uid gid mode =>
      cases hc
      rw [act, if_pos rfl, if_pos hbad] at h
      cases h
    | setPermissionsRecursive name uid gid dmode fmode =>
      cases hc
      rw [act, if_pos ⟨rfl, hbad⟩] at h
      cases h
    | _ => cases hc
  rw [act_permission rec pkg hc p hset] at h
  exact ⟨(Option.some.inj h).symm, hset⟩

end Permissions

/-! ## §2 Sets of Values the Script Stays In -/

theorem prefix_system {p : Path} (hp : ["system"] <+: p) : ∃ q, p = "system" :: q := by
  obtain ⟨q, rfl⟩ := hp
  exact ⟨q, rfl⟩

theorem dropLeaf_of_leaf {n : Place} (h : n.any Node.isDir = false) : dropLeaf n = none := by
  rw [dropLeaf, h]
  rfl

/-- Directories are made where there is nothing. -/
theorem mkdirsAt_cases (rec : Recovery) (path p : Path) (n : Place) :
    mkdirsAt rec path p n = n ∨
      (p ≠ [] ∧ p <+: path ∧ n = none ∧ mkdirsAt rec path p n = some (.dir rec.dirPerm)) := by
  rw [mkdirsAt]
  split
  · rename_i h
    cases n with
    | none => exact .inr ⟨h.1, h.2, rfl, rfl⟩
    | some n => exact .inl rfl
  · exact .inl rfl

namespace Emitted

variable {rec : Recovery} {order : DictOrder} {opts : Options} {target source : Build}
variable (E : Emitted rec.toTools order opts target source)

/-- A set of values at a path is kept by each thing the script can do there. -/
structure Kept (p : Path) (N : Place → Prop) : Prop where
  perms : ∀ c ∈ E.script, ∀ perms, c.permAt? p = some perms → ∀ n, N n → N (setAt (some perms) n)
  drop : E.Dropped (.plain p) → ∀ n, N n → N (dropLeaf n)
  patch : ∀ e ∈ E.plan.patchList, e.name = .plain p → ∀ data perm, N (some (.file data perm)) →
    N (some (.file e.target perm))
  write : ∀ tf, (.plain p, tf) ∈ E.plan.verbatimTargets → ∀ n n', N n →
    writeAt rec tf n = some n' → N n'
  mkdir : DirIn target source p → N none → N (some (.dir rec.dirPerm))
  link : ∀ s ∈ E.toCreate, s.2 = p → N none → N (some (.link s.1))

variable (hpair : UpdatePair rec target source)
include hpair

/-- Patching makes the target of the source, or finds it made. -/
theorem act_applyPatch_some {e : PatchEntry} (he : e ∈ E.plan.patchList) {p : Path} {n n' : Place}
    (h : act rec E.package (applyPatchCmd rec.toTools e) p n = some n') :
    n' = n ∨ (e.name = .plain p ∧ ∃ data perm, n = some (.file data perm) ∧
      n' = some (.file e.target perm)) := by
  obtain ⟨q, hname, -, -⟩ := E.patchList_file hpair he
  unfold applyPatchCmd at h
  rw [act, hname] at h
  split_ifs at h with hp
  · right
    refine ⟨by rw [hname, hp]; rfl, ?_⟩
    -- `apply_patch` reads the file, or the script stops
    split at h
    · cases h
    · rename_i data perm hfile
      refine ⟨data, perm, fileAt_eq_some hfile, ?_⟩
      split at h
      · cases h
      · rename_i new hnew
        have hnew : new = e.target := rec.sha1.injective (digest_patchData hnew)
        rw [← Option.some.inj h, hnew]
  · exact .inl (Option.some.inj h).symm

/-- Unpacking puts every entry where its name says. -/
theorem extractAt_eq {x : FileName × Bytes} (hx : x ∈ E.plan.verbatimTargets) (p : Path)
    (n : Place) : extractAt rec ["system"] ["system"] x p n =
      if x.1.slash then some (mkdirsAt rec x.1.path p n)
      else if p = x.1.path then writeAt rec x.2 n
      else some (mkdirsAt rec x.1.path.dropLast p n) := by
  obtain ⟨q, m, hpath, -, -⟩ := E.verbatimTargets_path hpair hx
  -- the entries of the package lie below `system`, as the device's paths do
  have hsrc : ["system"] <+: x.1.path := by
    rw [hpath]
    exact ⟨q, rfl⟩
  have heq : ["system"] ++ x.1.path.drop ["system"].length = x.1.path := by
    rw [hpath]
    rfl
  rw [extractAt, if_pos hsrc, heq]

/-- Unpacking makes directories only where they belong. -/
theorem dirIn_of_extract {x : FileName × Bytes} (hx : x ∈ E.plan.verbatimTargets) {p : Path}
    (h0 : p ≠ []) (hp : p <+: if x.1.slash then x.1.path else x.1.path.dropLast) :
    DirIn target source p := by
  have hfits := E.fits hpair .unpack x hx (by
    obtain ⟨q, m, hpath, -, -⟩ := E.verbatimTargets_path hpair hx
    rw [hpath]
    exact ⟨q, rfl⟩)
  have heq : ["system"] ++ x.1.path.drop ["system"].length = x.1.path := by
    obtain ⟨q, m, hpath, -, -⟩ := E.verbatimTargets_path hpair hx
    rw [hpath]
    rfl
  rw [heq] at hfits
  -- a directory that is sent, or what lies above a file that is sent
  split_ifs at hfits hp with hslash
  · by_cases hne : p = x.1.path
    · rw [hne]
      exact hfits.2
    · exact hfits.1 p h0 hp hne
  · obtain ⟨hp, hne⟩ := (FileTree.prefix_dropLast hfits.2.1).mp hp
    exact hfits.1 p h0 hp hne

/-- A set kept by each thing the script can do is kept by the script. -/
theorem Kept.act {E : Emitted rec.toTools order opts target source} {p : Path}
    {N : Place → Prop} (h : E.Kept p N) (hp : ["system"] <+: p) {c : Cmd} (hc : c ∈ E.script)
    {n n' : Place} (hn : N n) (hact : act rec E.package c p n = some n') : N n' := by
  -- a permission command sets permissions and nothing else
  have hpermission : ∀ q, c.permPath? = some q → N n' := by
    intro q hq
    rw [(act_permission_some rec _ hq hact).1]
    cases hat : c.permAt? p with
    | none => exact hn
    | some perms => exact h.perms c hc perms hat n hn
  have hfits := E.fits hpair (E.step_of_mem hc)
  -- directories are made on the way to another path only where one belongs
  have hmkdirs : ∀ {y}, N y → ∀ path, (p ≠ [] → p <+: path → DirIn target source p) →
      N (mkdirsAt rec path p y) := by
    intro y hy path hdir
    rcases mkdirsAt_cases rec path p y with hsame | ⟨h0, hpre, rfl, hmade⟩
    · rw [hsame]
      exact hy
    · rw [hmade]
      exact h.mkdir (hdir h0 hpre) hy
  cases E.step_of_mem hc with
  | mount | print | comment | device | checkBoot | space | patchBoot =>
    exact Option.some.inj hact ▸ hn
  | fingerprint =>
    rw [act_assertSomeFingerprint hact]
    exact hn
  | check e mem =>
    rw [act_patchCheck hact]
    exact hn
  | wipe wipes =>
    rw [Ota.act, if_neg] at hact
    · exact Option.some.inj hact ▸ hn
    · -- `/data` is not above a path of `/system`
      rintro ⟨hdata, -⟩
      obtain ⟨q, rfl⟩ := prefix_system hp
      have hhead := (List.cons_prefix_cons.mp hdata).1
      exact absurd hhead (by decide)
  | delete names dropped =>
    rw [Ota.act] at hact
    rw [← Option.some.inj hact]
    split
    · rename_i hmem
      exact h.drop (dropped _ hmem) n hn
    · exact hn
  | patch e mem =>
    rcases E.act_applyPatch_some hpair mem hact with rfl | ⟨hname, data, perm, rfl, rfl⟩
    · exact hn
    · exact h.patch e mem hname data perm hn
  | unpack =>
    refine follow_mem _ p (fun x hx y y' hy hextract => ?_) hn hact
    rw [E.extractAt_eq hpair hx] at hextract
    have hdir := fun h0 => E.dirIn_of_extract hpair hx (p := p) h0
    split_ifs at hextract hdir with hslash hpath
    · rw [← Option.some.inj hextract]
      exact hmkdirs hy _ hdir
    · -- the entry names the path itself
      have hname : x.1 = .plain p := by
        rw [FileName.eq_plain (Bool.not_eq_true _ |>.mp hslash), hpath]
      refine h.write x.2 ?_ y y' hy hextract
      rw [← hname]
      exact hx
    · rw [← Option.some.inj hextract]
      exact hmkdirs hy _ hdir
  | link s mem =>
    rw [Ota.act] at hact
    split_ifs at hact with hlink hnone
    · rw [← Option.some.inj hact]
      -- a link is made only where there is nothing
      rw [Option.isNone_iff_eq_none.mp hnone] at hn
      exact h.link s mem hlink.symm hn
    · rw [← Option.some.inj hact]
      apply hmkdirs hn _
      intro h0 hpre
      obtain ⟨hpre, hne⟩ := (FileTree.prefix_dropLast hfits.2.1).mp hpre
      exact hfits.1 p h0 hpre hne
  | permission _ mem =>
    obtain ⟨q, hq, -⟩ := permPath?_permissionCmds hpair.target_wf E.permissions_eq c mem
    exact hpermission _ hq
  | buildProp => exact hpermission _ rfl

/-! ## §3 The Parts of the Script -/

/-- `AssertSomeFingerprint` passes. -/
def PassesFingerprint (p : Path) (n : Place) : Prop :=
  p = ["system", "build.prop"] → ∃ data perm value, n = some (.file data perm) ∧
    rec.fingerprint data = some value ∧ (value = E.sourceFp ∨ value = E.targetFp)

/-- The patch checks of a path pass. -/
def PassesChecks (p : Path) (n : Place) : Prop :=
  ∀ e ∈ E.plan.patchList, e.name.path = p →
    ∃ data perm, n = some (.file data perm) ∧ (data = e.source ∨ data = e.target)

omit hpair in
/-- The checks at the head of the script. -/
theorem follow_verify {p : Path} {n : Place} (hprop : E.PassesFingerprint p n)
    (hcheck : E.PassesChecks p n) :
    follow (Ota.act rec E.package) p n (verifyCmds rec.toTools opts E.plan E.sourceFp E.targetFp
      E.device E.boot false) = some n := by
  apply follow_of_id _ _
  intro c hc
  simp only [verifyCmds, List.mem_append, List.mem_cons, List.not_mem_nil, or_false] at hc
  rcases hc with ((((rfl | rfl | rfl | rfl) | hpatch) | hboot) | hspace) | rfl
  · rfl
  · rw [Ota.act]
    split
    · rename_i hp
      -- the fingerprint of `build.prop` is one of the two that are accepted
      obtain ⟨data, perm, value, rfl, hvalue, hmem⟩ := hprop hp
      have hin : value ∈ [E.sourceFp, E.targetFp] := by simpa using hmem
      simp only [fileAt, hvalue, if_pos hin]
    · rfl
  · rfl
  · rfl
  · obtain ⟨e, he, rfl⟩ := List.mem_map.mp hpatch
    rw [patchCheckCmd, Ota.act]
    split
    · rename_i hp
      -- the file has the digest of the source or of the target
      obtain ⟨data, perm, rfl, hdata⟩ := hcheck e he hp.symm
      have hin : rec.sha1.digest data ∈ [rec.sha1.digest e.target, rec.sha1.digest e.source] := by
        rcases hdata with rfl | rfl <;> simp
      simp only [fileAt, if_pos hin]
    · rfl
  · obtain ⟨b, -, rfl⟩ := Option.map_eq_some_iff.mp (Option.mem_toList.mp hboot)
    rfl
  · split at hspace
    · rw [List.mem_singleton.mp hspace]
      rfl
    · cases hspace
  · rfl

omit hpair in
theorem follow_deleteFilesCmds (names : List FileName) (p : Path) (n : Place) :
    follow (Ota.act rec E.package) p n (deleteFilesCmds names) =
      some (if FileName.plain p ∈ names then dropLeaf n else n) := by
  unfold deleteFilesCmds
  split
  · rename_i hnil
    rw [hnil]
    rfl
  · rfl

omit hpair in
/-- Unneeded files go, the rest of `/system` stays. -/
theorem follow_remove {p : Path} (hp : ["system"] <+: p) (n : Place) :
    follow (Ota.act rec E.package) p n (removeCmds opts E.plan) =
      some (if FileName.plain p ∈ unneededFiles E.plan then dropLeaf n else n) := by
  -- wiping the data does not reach `/system`
  have hdata : ¬ (["data"] <+: p ∧ p ≠ ["data"]) := by
    rintro ⟨hdata, -⟩
    obtain ⟨q, rfl⟩ := prefix_system hp
    exact absurd (List.cons_prefix_cons.mp hdata).1 (by decide)
  have hwipe : follow (Ota.act rec E.package) p n (if opts.wipeUserData then
      [.print "Erasing user data...", .formatPartition ["data"]] else []) = some n := by
    split
    · apply follow_of_id _ _
      intro c hc
      simp only [List.mem_cons, List.not_mem_nil, or_false] at hc
      rcases hc with rfl | rfl
      · rfl
      · rw [Ota.act, if_neg hdata]
    · rfl
  rw [removeCmds, follow_append, hwipe, Option.bind_some]
  exact E.follow_deleteFilesCmds (unneededFiles E.plan) p n

omit hpair in
/-- The patch of a listed file is in the zip, under its name. -/
theorem find_patch {e : PatchEntry} (he : e ∈ E.plan.patchList) (hboot : e.name ≠ bootPatchName) :
    (E.package.patches.find? fun x => x.1 = e.name).map Prod.snd = some e.patch := by
  have hmem : (e.name, e.patch) ∈ E.package.patches :=
    List.mem_append_left _ (List.mem_map.mpr ⟨e, he, rfl⟩)
  -- the list is searched by name, so another entry may come first
  cases hfind : E.package.patches.find? fun x => x.1 = e.name with
  | none =>
    have hall := List.find?_eq_none.mp hfind _ hmem
    simp at hall
  | some x =>
    have hname : x.1 = e.name := by simpa using List.find?_some hfind
    rw [Option.map_some]
    congr 1
    rcases List.mem_append.mp (List.mem_of_find?_eq_some hfind) with hx | hx
    · -- every entry with this name has the same patch
      obtain ⟨e', he', rfl⟩ := List.mem_map.mp hx
      obtain ⟨htarget, hsource, -, -, hpatch⟩ := (mem_patchList E.makePlan_eq).mp he
      obtain ⟨htarget', hsource', -, -, hpatch'⟩ := (mem_patchList E.makePlan_eq).mp he'
      have hname : e'.name = e.name := hname
      rw [hname, htarget, Option.some.injEq] at htarget'
      rw [hname, hsource, Option.some.injEq] at hsource'
      rw [← htarget', ← hsource', hname, hpatch] at hpatch'
      exact (Option.some.inj hpatch').symm
    · -- the patch of the boot image has a name of its own
      obtain ⟨b, -, rfl⟩ := Option.map_eq_some_iff.mp (Option.mem_toList.mp hx)
      exact absurd hname.symm hboot

/-- A file with either contents is patched. -/
theorem act_applyPatch {e : PatchEntry} (he : e ∈ E.plan.patchList) {p : Path}
    (hname : e.name = .plain p) {data : Bytes} (hdata : data = e.source ∨ data = e.target)
    (perm : Perm) :
    Ota.act rec E.package (applyPatchCmd rec.toTools e) p (some (.file data perm)) =
      some (some (.file e.target perm)) := by
  have hpatched : patchData rec E.package data (rec.sha1.digest e.target)
      (rec.sha1.digest e.source) e.name = some e.target := by
    have hboot : e.name ≠ bootPatchName := by
      obtain ⟨q, hq, -, -⟩ := E.patchList_file hpair he
      intro h
      rw [hq] at h
      exact absurd (List.head_eq_of_cons_eq (FileName.plain_inj.mp h)) (by decide)
    -- the patch was computed for this very target
    obtain ⟨-, -, -, -, hpatch⟩ := (mem_patchList E.makePlan_eq).mp he
    exact patchData_eq hdata hpatch (E.find_patch he hboot)
  unfold applyPatchCmd
  rw [Ota.act, if_pos (by rw [hname]; rfl)]
  simp only [fileAt, hpatched]

omit hpair in
theorem act_applyPatch_of_ne {e : PatchEntry} {p : Path} (hp : e.name.path ≠ p) (n : Place) :
    Ota.act rec E.package (applyPatchCmd rec.toTools e) p n = some n := by
  rw [applyPatchCmd, Ota.act, if_neg hp.symm]

omit hpair in
/-- Patches of other files. -/
theorem follow_patches_of_ne {l : List PatchEntry} {p : Path} (hp : ∀ e ∈ l, e.name.path ≠ p)
    (n : Place) :
    follow (Ota.act rec E.package) p n (l.map (applyPatchCmd rec.toTools)) = some n := by
  apply follow_of_id _ _
  intro c hc
  obtain ⟨e, he, rfl⟩ := List.mem_map.mp hc
  exact E.act_applyPatch_of_ne (hp e he) n

/-- Patches among which one is for the file. -/
theorem follow_patches {l : List PatchEntry} (hl : ∀ e ∈ l, e ∈ E.plan.patchList) {e : PatchEntry}
    (he : e ∈ l) {p : Path} (hname : e.name = .plain p) {data : Bytes}
    (hdata : data = e.source ∨ data = e.target) (perm : Perm) :
    follow (Ota.act rec E.package) p (some (.file data perm)) (l.map (applyPatchCmd rec.toTools)) =
      some (some (.file e.target perm)) := by
  -- every patch of the list passes over the file or makes the target of it
  have hboth : ∀ e' ∈ l, ∀ d, d = e.source ∨ d = e.target →
      Ota.act rec E.package (applyPatchCmd rec.toTools e') p (some (.file d perm)) =
          some (some (.file d perm)) ∨
        Ota.act rec E.package (applyPatchCmd rec.toTools e') p (some (.file d perm)) =
          some (some (.file e.target perm)) := by
    intro e' he' d hd
    by_cases hp : e'.name.path = p
    · right
      obtain ⟨q, hq, htarget', hsource'⟩ := E.patchList_file hpair (hl e' he')
      obtain ⟨q', hq', htarget, hsource⟩ := E.patchList_file hpair (hl e he)
      have hname' : e'.name = .plain p := by rw [hq] at hp ⊢; rw [← hp]; rfl
      have hqq : q = q' := by
        have hplain := hq.symm.trans (hname'.trans (hname.symm.trans hq'))
        exact (List.cons_inj_right "system").mp (FileName.plain_inj.mp hplain)
      -- an entry with this name has the same contents
      subst hqq
      have ht : e.target = e'.target := by
        rw [htarget] at htarget'
        exact (Node.file.inj (Option.some.inj htarget')).1
      have hs : e.source = e'.source := by
        rw [hsource] at hsource'
        exact (Node.file.inj (Option.some.inj hsource')).1
      rw [ht]
      rw [ht, hs] at hd
      exact E.act_applyPatch hpair (hl e' he') hname' hd perm
    · exact .inl (E.act_applyPatch_of_ne hp _)
  apply follow_of_hit
  · intro c hc
    obtain ⟨e', he', rfl⟩ := List.mem_map.mp hc
    exact hboth e' he' data hdata
  · intro c hc
    obtain ⟨e', he', rfl⟩ := List.mem_map.mp hc
    exact (hboth e' he' e.target (.inr rfl)).elim id id
  · exact ⟨_, List.mem_map.mpr ⟨e, he, rfl⟩, E.act_applyPatch hpair (hl e he) hname hdata perm⟩

omit hpair in
theorem follow_boot (p : Path) (n : Place) :
    follow (Ota.act rec E.package) p n (bootCmds rec.toTools opts E.boot) = some n := by
  unfold bootCmds
  split <;> rfl

/-- Where no directory belongs, unpacking makes none. -/
theorem mkdirsAt_of_not_dirIn {x : FileName × Bytes} (hx : x ∈ E.plan.verbatimTargets) {p : Path}
    (hdir : ¬ DirIn target source p) (n : Place) :
    mkdirsAt rec (if x.1.slash then x.1.path else x.1.path.dropLast) p n = n := by
  rcases mkdirsAt_cases rec _ p n with hsame | ⟨h0, hpre, -⟩
  · exact hsame
  · exact absurd (E.dirIn_of_extract hpair hx h0 hpre) hdir

/-- One entry, at a path where no directory belongs. -/
theorem extractAt_leaf {x : FileName × Bytes} (hx : x ∈ E.plan.verbatimTargets) {p : Path}
    (hdir : ¬ DirIn target source p) (n : Place) :
    extractAt rec ["system"] ["system"] x p n =
      if x.1 = .plain p then writeAt rec x.2 n else some n := by
  have hmkdirs := E.mkdirsAt_of_not_dirIn hpair hx hdir n
  rw [E.extractAt_eq hpair hx]
  -- a directory is made elsewhere; a file is written if it is this one
  cases hslash : x.1.slash with
  | true =>
    rw [hslash, if_pos rfl] at hmkdirs
    rw [if_pos rfl, hmkdirs, if_neg]
    intro heq
    rw [heq] at hslash
    cases hslash
  | false =>
    have hname : x.1 = .plain p ↔ p = x.1.path := by
      rw [FileName.eq_plain hslash, FileName.plain_inj]
      exact eq_comm
    rw [hslash, if_neg Bool.false_ne_true] at hmkdirs
    simp only [Bool.false_eq_true, if_false, hname, hmkdirs]

/-- Unpacking where no directory belongs and nothing is sent whole. -/
theorem follow_unpack_of_not_mem {p : Path} (hdir : ¬ DirIn target source p)
    (hp : ∀ tf, (.plain p, tf) ∉ E.plan.verbatimTargets) (n : Place) :
    follow (extractAt rec ["system"] ["system"]) p n E.plan.verbatimTargets = some n := by
  apply follow_of_id _ _
  intro x hx
  rw [E.extractAt_leaf hpair hx hdir, if_neg]
  intro heq
  apply hp x.2
  rw [← heq]
  exact hx

/-- Unpacking a file that is sent whole. -/
theorem follow_unpack_file {p : Path} (hdir : ¬ DirIn target source p) {tf : Bytes}
    (hp : (.plain p, tf) ∈ E.plan.verbatimTargets) :
    follow (extractAt rec ["system"] ["system"]) p none E.plan.verbatimTargets =
      some (some (.file tf rec.filePerm)) := by
  -- a name is sent with one content, that of the target build
  have hsame : ∀ x ∈ E.plan.verbatimTargets, x.1 = .plain p → x.2 = tf := by
    intro x hx heq
    have hget := ((mem_verbatimTargets E.makePlan_eq).mp hx).1
    rw [heq, ((mem_verbatimTargets E.makePlan_eq).mp hp).1] at hget
    exact (Option.some.inj hget).symm
  apply follow_of_hit
  · intro x hx
    rw [E.extractAt_leaf hpair hx hdir]
    split
    · rename_i heq
      rw [hsame x hx heq]
      exact .inr rfl
    · exact .inl rfl
  · intro x hx
    rw [E.extractAt_leaf hpair hx hdir]
    split
    · rename_i heq
      rw [hsame x hx heq]
      rfl
    · rfl
  · refine ⟨_, hp, ?_⟩
    rw [E.extractAt_leaf hpair hp hdir, if_pos rfl]
    rfl

/-- One entry, at a directory of the builds. -/
theorem extractAt_dir {x : FileName × Bytes} (hx : x ∈ E.plan.verbatimTargets) {p : Path}
    (hdir : DirIn target source p) (n : Place) :
    extractAt rec ["system"] ["system"] x p n =
      some (mkdirsAt rec (if x.1.slash then x.1.path else x.1.path.dropLast) p n) := by
  rw [E.extractAt_eq hpair hx]
  split
  · rfl
  · rename_i hslash
    rw [if_neg]
    rintro rfl
    -- a file is no directory
    obtain ⟨q, m, hpath, himage, hdata⟩ := E.verbatimTargets_path hpair hx
    rw [Bool.not_eq_true _ |>.mp hslash] at hdata
    rw [hpath] at hdir
    refine hpair.not_dirIn ?_ (.inl himage) hdir
    cases m <;> first | rfl | cases hdata

/-- A directory that is there stays as it is. -/
theorem follow_unpack_dir {p : Path} (hdir : DirIn target source p) (perm : Perm) :
    follow (extractAt rec ["system"] ["system"]) p (some (.dir perm)) E.plan.verbatimTargets =
      some (some (.dir perm)) := by
  apply follow_of_id _ _
  intro x hx
  rw [E.extractAt_dir hpair hx hdir]
  rcases mkdirsAt_cases rec _ p (some (.dir perm)) with hsame | ⟨-, -, hnone, -⟩
  · rw [hsame]
  · cases hnone

/-- A directory that is sent is made. -/
theorem follow_unpack_newDir {p : Path} (hdir : DirIn target source p) {data : Bytes}
    (hp : (.dir p, data) ∈ E.plan.verbatimTargets) :
    follow (extractAt rec ["system"] ["system"]) p none E.plan.verbatimTargets =
      some (some (.dir rec.dirPerm)) := by
  apply follow_of_hit
  · intro x hx
    rw [E.extractAt_dir hpair hx hdir]
    rcases mkdirsAt_cases rec _ p none with hsame | ⟨-, -, -, hmade⟩
    · exact .inl (congrArg some hsame)
    · exact .inr (congrArg some hmade)
  · intro x hx
    rw [E.extractAt_dir hpair hx hdir]
    rcases mkdirsAt_cases rec _ p (some (.dir rec.dirPerm)) with hsame | ⟨-, -, hnone, -⟩
    · rw [hsame]
    · cases hnone
  · refine ⟨_, hp, ?_⟩
    -- the entry itself makes the directory, unless an entry below has
    have h0 : p ≠ [] := by
      obtain ⟨q, rfl, -⟩ := hdir
      exact List.cons_ne_nil _ _
    rw [E.extractAt_dir hpair hp hdir]
    exact congrArg some (if_pos ⟨h0, List.prefix_rfl⟩)

/-- The commands for links elsewhere. -/
theorem follow_links_of_not_mem {p : Path} {n : Place} (hn : DirIn target source p → n ≠ none)
    {l : List (LinkDest String × Path)} (hl : ∀ s ∈ l, s ∈ E.toCreate ∧ s.2 ≠ p) :
    follow (Ota.act rec E.package) p n (makeSymlinksCmds l) = some n := by
  apply follow_of_id _ _
  intro c hc
  obtain ⟨s, hs, rfl⟩ := List.mem_map.mp hc
  obtain ⟨hmem, hne⟩ := hl s hs
  rw [Ota.act, if_neg hne.symm]
  -- a link elsewhere at most makes a directory above itself, and what is above is there
  rcases mkdirsAt_cases rec s.2.dropLast p n with hsame | ⟨h0, hpre, hnone, -⟩
  · rw [hsame]
  · have hfits : FilePath (DirIn target source) s.2 := E.fits hpair (.link s hmem)
    obtain ⟨hpre, hne'⟩ := (FileTree.prefix_dropLast hfits.2.1).mp hpre
    exact absurd hnone (hn (hfits.1 p h0 hpre hne'))

/-- A link is created where there is nothing. -/
theorem follow_links {s : LinkDest String × Path} (hs : s ∈ E.toCreate) :
    follow (Ota.act rec E.package) s.2 none (makeSymlinksCmds E.toCreate) =
      some (some (.link s.1)) := by
  have hdir : ¬ DirIn target source s.2 := (E.fits hpair (.link s hs) : FilePath _ s.2).2.2
  have hnodup := nodup_symlinksToCreate hpair.target_wf (symlinksOf source.system)
  change (E.toCreate.map Prod.snd).Nodup at hnodup
  -- the link is named once
  obtain ⟨before, after, hsplit⟩ := List.append_of_mem hs
  rw [hsplit, List.map_append, List.map_cons, List.nodup_append, List.nodup_cons] at hnodup
  obtain ⟨-, ⟨hafter, -⟩, hbefore⟩ := hnodup
  have hmem : ∀ x, x ∈ before ∨ x ∈ after → x ∈ E.toCreate := by
    intro x hx
    rw [hsplit]
    simp only [List.mem_append, List.mem_cons]
    exact hx.elim .inl fun h => .inr (.inr h)
  have hcmds : makeSymlinksCmds E.toCreate =
      makeSymlinksCmds before ++ Cmd.symlink s.1 s.2 :: makeSymlinksCmds after := by
    rw [hsplit]
    simp [makeSymlinksCmds]
  rw [hcmds, follow_append]
  have hmade : Ota.act rec E.package (.symlink s.1 s.2) s.2 none = some (some (.link s.1)) := by
    rw [Ota.act, if_pos rfl]
    rfl
  -- the links before and after are elsewhere
  rw [E.follow_links_of_not_mem hpair (fun h => absurd h hdir), Option.bind_some, follow_cons,
    hmade, Option.bind_some, E.follow_links_of_not_mem hpair (fun h => absurd h hdir)]
  · intro x hx
    refine ⟨hmem x (.inr hx), fun heq => hafter ?_⟩
    rw [← heq]
    exact List.mem_map_of_mem hx
  · intro x hx
    refine ⟨hmem x (.inl hx), fun heq => ?_⟩
    exact hbefore x.2 (List.mem_map_of_mem hx) s.2 List.mem_cons_self heq

omit hpair in
/-- Unpacking and linking, in its four steps. -/
theorem follow_unpackCmds (p : Path) (n : Place) :
    follow (Ota.act rec E.package) p n
        (unpackCmds E.plan (symlinksOf source.system) (symlinksOf target.system)) =
      (follow (extractAt rec ["system"] ["system"]) p
          (if FileName.plain p ∈ E.toDelete then dropLeaf n else n) E.plan.verbatimTargets).bind
        fun m => follow (Ota.act rec E.package) p
          (if FileName.plain p ∈ E.toCreate.map (fun s => FileName.plain s.2) then dropLeaf m else m)
          (makeSymlinksCmds E.toCreate) := by
  -- the two commands are left out of the script when nothing is sent
  have hunpack : ∀ m, follow (Ota.act rec E.package) p m (if E.plan.verbatimTargets ≠ [] then
      [.print "Unpacking new files...", .unpackPackageDir ["system"] ["system"]] else []) =
        follow (extractAt rec ["system"] ["system"]) p m E.plan.verbatimTargets := by
    intro m
    split
    · have hact : Ota.act rec E.package (.unpackPackageDir ["system"] ["system"]) p m =
          follow (extractAt rec ["system"] ["system"]) p m E.plan.verbatimTargets := rfl
      rw [follow_cons, act_print, Option.bind_some, follow_cons, hact]
      exact Option.bind_fun_some _
    · rename_i hnil
      rw [not_not.mp hnil]
      rfl
  rw [unpackCmds, follow_append, follow_append, E.follow_deleteFilesCmds, Option.bind_some, hunpack]
  congr 1
  funext m
  rw [follow_cons, act_print, Option.bind_some, follow_append, E.follow_deleteFilesCmds,
    Option.bind_some]
  rfl

omit hpair in
/-- The end of the script concerns `build.prop` alone. -/
theorem follow_finish_of_ne {p : Path} (hp : p ≠ ["system", "build.prop"]) (n : Place) :
    follow (Ota.act rec E.package) p n (finishCmds rec.toTools E.plan) = some n := by
  rw [finishCmds, follow_cons, act_print, Option.bind_some, follow_append,
    E.follow_patches_of_ne (p := p), Option.bind_some, follow_cons, Ota.act, if_neg hp]
  · rfl
  · intro e he heq
    have hname : e.name = buildPropName := by simpa using (List.mem_filter.mp he).2
    rw [hname] at heq
    exact hp heq.symm

end Emitted

end OdroidU2.Ota
