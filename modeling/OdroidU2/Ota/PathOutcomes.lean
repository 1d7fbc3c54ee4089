import OdroidU2.Ota.PathRuns

/-!
# What an Incremental Script Makes of Each Path

At every path there is a set of values that holds on the source build, that no command of
the script leaves, and from each of which the whole script ends in the same value.  Which
set that is depends on what the two builds have there.
-/

namespace OdroidU2.Ota

open OdroidU2.Foundations Pointwise

/-! ## §1 What the Tables Say About One Path -/

/-- The contents of a regular file. -/
def fileData : Option (Node String Bytes Unit) → Option Bytes
  | some (.file data _) => some data
  | _ => none

theorem fileData_eq_some_iff {n : Option (Node String Bytes Unit)} {data : Bytes} :
    fileData n = some data ↔ n = some (.file data ()) := by
  constructor
  · intro h
    unfold fileData at h
    split at h
    · cases h
      rfl
    · cases h
  · rintro rfl
    rfl

theorem get?_plain {z : List ZipEntry} (hz : WellFormed z) (q : Path) :
    (loadSystemFiles z).get? (.plain ("system" :: q)) = fileData (imageAt z q) := by
  apply Option.ext
  intro data
  rw [get?_loadSystemFiles_plain hz, fileData_eq_some_iff]

namespace Emitted

variable {rec : Recovery} {order : DictOrder} {opts : Options} {target source : Build}
variable (E : Emitted rec.toTools order opts target source)

/-- Is the file of the target build at a path sent whole? -/
def SentWhole (_ : Emitted rec.toTools order opts target source) (q : Path) (tf : Bytes) : Prop :=
  Whole rec.toTools opts (.plain ("system" :: q)) tf (fileData (imageAt source.system q))

variable (hpair : UpdatePair rec target source) {q : Path}
include hpair

theorem mem_verbatim_plain {tf : Bytes} : (.plain ("system" :: q), tf) ∈ E.plan.verbatimTargets ↔
    imageAt target.system q = some (.file tf ()) ∧ E.SentWhole q tf := by
  rw [mem_verbatimTargets E.makePlan_eq, get?_plain hpair.target_wf, get?_plain hpair.source_wf,
    fileData_eq_some_iff]
  rfl

/-- The files that are deleted first. -/
theorem mem_unneeded : .plain ("system" :: q) ∈ unneededFiles E.plan ↔
    (∃ tf, imageAt target.system q = some (.file tf ()) ∧ E.SentWhole q tf) ∨
    ((fileData (imageAt source.system q)).isSome ∧ fileData (imageAt target.system q) = none) ∨
    q = ["recovery.img"] := by
  simp only [unneededFiles, List.mem_append, List.mem_map, List.mem_filter, List.mem_singleton,
    Prod.exists, exists_and_right, exists_eq_right, or_assoc, E.mem_verbatim_plain hpair,
    decide_not, Bool.not_eq_true', decide_eq_false_iff_not, FileName.plain_inj,
    List.cons_inj_right, mem_sortedKeys]
  refine or_congr_right (or_congr_left (and_congr ?_ ?_))
  · rw [(makePlan_data E.makePlan_eq).2, get?_plain hpair.source_wf, Option.isSome_iff_exists]
  · rw [(makePlan_data E.makePlan_eq).1, ← Dict.get?_eq_none_iff, get?_plain hpair.target_wf]

theorem mem_toDelete : .plain ("system" :: q) ∈ E.toDelete ↔
    LinkIn source.system q ∧ ¬ LinkIn target.system q := by
  rw [toDelete, mem_symlinksToDelete hpair.source_wf hpair.target_wf]
  constructor
  · rintro ⟨p, hp, hlink⟩
    obtain rfl := (List.cons_inj_right "system").mp (FileName.plain_inj.mp hp)
    exact hlink
  · exact fun h => ⟨q, rfl, h⟩

theorem mem_toCreate {s : LinkDest String × Path} (hs : s.2 = "system" :: q) : s ∈ E.toCreate ↔
    imageAt target.system q = some (.link s.1) ∧ imageAt source.system q ≠ some (.link s.1) := by
  rw [toCreate, mem_symlinksToCreate hpair.source_wf hpair.target_wf]
  constructor
  · rintro ⟨p, hp, hlink⟩
    rw [hs] at hp
    obtain rfl := (List.cons_inj_right "system").mp hp
    exact hlink
  · exact fun h => ⟨q, hs, h⟩

theorem mem_toCreate_names : .plain ("system" :: q) ∈ E.toCreate.map (fun s => FileName.plain s.2) ↔
    LinkIn target.system q ∧ imageAt source.system q ≠ imageAt target.system q := by
  rw [List.mem_map]
  constructor
  · rintro ⟨s, hs, hname⟩
    obtain ⟨htarget, hsource⟩ := (E.mem_toCreate hpair (FileName.plain_inj.mp hname)).mp hs
    exact ⟨⟨s.1, htarget⟩, by rw [htarget]; exact hsource⟩
  · rintro ⟨⟨dest, htarget⟩, hne⟩
    rw [htarget] at hne
    exact ⟨(dest, "system" :: q), (E.mem_toCreate hpair rfl).mpr ⟨htarget, hne⟩, rfl⟩

/-- A file of both builds that differs and is not sent whole is patched. -/
theorem exists_patch {tf sf : Bytes} (ht : imageAt target.system q = some (.file tf ()))
    (hs : imageAt source.system q = some (.file sf ())) (hne : tf ≠ sf)
    (hwhole : ¬ E.SentWhole q tf) :
    ∃ e ∈ E.plan.patchList, e.name = .plain ("system" :: q) ∧ e.target = tf ∧ e.source = sf := by
  unfold SentWhole at hwhole
  rw [hs] at hwhole
  have hsend : ¬ SendWhole opts tf (rec.diff.computePatch (.plain ("system" :: q)) tf sf) :=
    fun h => hwhole (.inr ⟨hne, h⟩)
  -- a file whose difference cannot be computed would be sent whole
  cases hpatch : rec.diff.computePatch (.plain ("system" :: q)) tf sf with
  | none =>
    rw [hpatch] at hsend
    exact absurd trivial hsend
  | some d =>
    refine ⟨⟨.plain ("system" :: q), tf, sf, d⟩, (mem_patchList E.makePlan_eq).mpr ?_, rfl, rfl, rfl⟩
    rw [get?_plain hpair.target_wf, get?_plain hpair.source_wf, ht, hs]
    exact ⟨rfl, rfl, hne, hwhole, hpatch⟩

/-- What is patched is no directory, is not sent whole, and not dropped either. -/
theorem not_whole_of_patch {e : PatchEntry} (he : e ∈ E.plan.patchList)
    (hname : e.name = .plain ("system" :: q)) :
    imageAt target.system q = some (.file e.target ()) ∧
      imageAt source.system q = some (.file e.source ()) ∧ ¬ E.SentWhole q e.target := by
  obtain ⟨-, -, -, hwhole, -⟩ := (mem_patchList E.makePlan_eq).mp he
  obtain ⟨q', hq, ht, hs⟩ := E.patchList_file hpair he
  rw [hname] at hq hwhole
  -- a patch is named after the path of its file
  obtain rfl := (List.cons_inj_right "system").mp (FileName.plain_inj.mp hq)
  refine ⟨ht, hs, ?_⟩
  unfold SentWhole
  rw [hs]
  exact hwhole

end Emitted

/-! ## §2 From the Changes to the Whole Script -/

namespace Emitted

variable {rec : Recovery} {order : DictOrder} {opts : Options} {target source : Build}
variable (E : Emitted rec.toTools order opts target source)

/-- The script settles a path: it stays in a set of values, and from each of them it ends
in the same value. -/
structure Settles (p : Path) (N : Place → Prop) (final : Place) : Prop where
  kept : ∀ c ∈ E.script, ∀ n n', N n → act rec E.package c p n = some n' → N n'
  ends : ∀ n, N n → follow (act rec E.package) p n E.script = some final

/-- Some permission command reaches the path. -/
def Covered (p : Path) : Prop := ∃ c ∈ E.permissions, c.permAt? p ≠ none

/-- The contents of `m`, and its permissions unless a permission command reaches the path. -/
def Like (p : Path) (m n : Place) : Prop :=
  n.map Node.contents = m.map Node.contents ∧ (E.Covered p ∨ n = m)

theorem Like.refl (p : Path) (m : Place) : E.Like p m m := ⟨rfl, .inr rfl⟩

variable {E}

theorem Like.setAll {p : Path} {m n : Place} (h : E.Like p m n) :
    setAll E.permissions p n = setAll E.permissions p m := by
  rcases h.2 with hcovered | heq
  · exact setAll_congr hcovered h.1
  · rw [heq]

/-- But for `build.prop`, what sets permissions is a permission command. -/
theorem covered_of_perm {p : Path} (hne : p ≠ ["system", "build.prop"]) {c : Cmd}
    (hc : c ∈ E.script) {perms : Perm × Perm} (hperm : c.permAt? p = some perms) :
    E.Covered p := by
  have hsome : c.permAt? p ≠ none := by
    rw [hperm]
    exact Option.some_ne_none _
  -- outside of the permissions only `build.prop` has its own set
  cases E.step_of_mem hc with
  | permission _ mem => exact ⟨c, mem, hsome⟩
  | buildProp =>
    rw [Cmd.permAt?, if_neg hne] at hperm
    cases hperm
  | _ => cases hperm

variable (hpair : UpdatePair rec target source)
include hpair

/-- After the changes come the permissions. -/
theorem follow_permissions_at (E : Emitted rec.toTools order opts target source) {q : Path}
    {n : Place} (hset : (q = [] ∨ ∃ m, imageAt target.system q = some m ∧ m.isLink = false) →
      Settable n) :
    follow (act rec E.package) ("system" :: q) n E.permissions =
      some (Ota.setAll E.permissions ("system" :: q) n) := by
  -- permissions are set where the target build has a file or a directory
  refine follow_permissions rec _ (fun c hc => ?_) fun c hc hpath => hset ?_
  · obtain ⟨p, hp, -⟩ := permPath?_permissionCmds hpair.target_wf E.permissions_eq c hc
    exact ⟨_, hp⟩
  · obtain ⟨p, hp, hentry⟩ := permPath?_permissionCmds hpair.target_wf E.permissions_eq c hc
    rw [hpath] at hp
    obtain rfl := (List.cons_inj_right "system").mp (Option.some.inj hp)
    exact hentry

/-- Changes that lead to one value settle the path. -/
theorem settles_of_changes {E : Emitted rec.toTools order opts target source} {q : Path}
    (hne : "system" :: q ≠ ["system", "build.prop"]) {N : Place → Prop} {m : Place}
    (hkept : E.Kept ("system" :: q) N)
    (hchanges : ∀ n, N n → ∃ m', follow (act rec E.package) ("system" :: q) n E.changes = some m' ∧
      E.Like ("system" :: q) m m')
    (hset : (q = [] ∨ ∃ m, imageAt target.system q = some m ∧ m.isLink = false) → Settable m) :
    E.Settles ("system" :: q) N (Ota.setAll E.permissions ("system" :: q) m) where
  kept := by
    intro c hc n n' hn hact
    exact hkept.act hpair ⟨q, rfl⟩ hc hn hact
  -- the changes lead to one of the values, the permissions make them equal
  ends := by
    intro n hn
    obtain ⟨m', hm', hlike⟩ := hchanges n hn
    have hset' := fun h => (settable_congr hlike.1).mpr (hset h)
    rw [script, follow_append, follow_append, hm', Option.bind_some,
      follow_permissions_at hpair E hset', Option.bind_some, E.follow_finish_of_ne hne, hlike.setAll]

omit hpair in
/-- The changes, part by part. -/
theorem follow_changes (E : Emitted rec.toTools order opts target source) {p : Path} {n : Place}
    (hp : ["system"] <+: p) (hprop : E.PassesFingerprint p n) (hcheck : E.PassesChecks p n) :
    follow (act rec E.package) p n E.changes =
      (follow (act rec E.package) p
          (if FileName.plain p ∈ unneededFiles E.plan then dropLeaf n else n)
          (patchCmds rec.toTools E.plan)).bind
        fun m => follow (act rec E.package) p m
          (unpackCmds E.plan (symlinksOf source.system) (symlinksOf target.system)) := by
  -- verification and boot image do not touch the path; what is left is deletes, patches, unpacking
  rw [changes, follow_append, follow_append, follow_append, follow_append,
    E.follow_verify hprop hcheck, Option.bind_some, E.follow_remove hp, Option.bind_some]
  cases follow (act rec E.package) p
    (if FileName.plain p ∈ unneededFiles E.plan then dropLeaf n else n)
    (patchCmds rec.toTools E.plan) with
  | none => rfl
  | some m =>
    rw [Option.bind_some, E.follow_boot, Option.bind_some]

/-! ## §3 The Path of a File or Link -/

section Leaves

variable (E : Emitted rec.toTools order opts target source) {q : Path}

/-- Away from the patched files, patching does nothing. -/
theorem follow_patchCmds_of_ne {p : Path} (hp : ∀ e ∈ E.plan.patchList, e.name = .plain p →
    e.name = buildPropName) (n : Place) :
    follow (act rec E.package) p n (patchCmds rec.toTools E.plan) = some n := by
  rw [patchCmds, follow_cons, act_print, Option.bind_some]
  refine E.follow_patches_of_ne (fun e he heq => ?_) n
  obtain ⟨hmem, hne⟩ := List.mem_filter.mp he
  -- the patch of `build.prop` is kept for the end
  obtain ⟨p', hname, -⟩ := E.patchList_file hpair hmem
  have hplain : e.name = .plain p := by
    rw [hname] at heq ⊢
    rw [← heq]
    rfl
  simp [hp e hmem hplain] at hne

theorem name_eq_plain {e : PatchEntry} (he : e ∈ E.plan.patchList) {p : Path}
    (hp : e.name.path = p) : e.name = .plain p := by
  obtain ⟨p', hname, -⟩ := E.patchList_file hpair he
  rw [hname] at hp ⊢
  rw [← hp]
  rfl

omit hpair in
/-- Where no directory belongs, none is made. -/
theorem kept_leaf (hdir : ¬ DirIn target source ("system" :: q)) :
    E.Kept ("system" :: q) fun n => n.any Node.isDir = false where
  perms := by
    intro c hc perms hperm n hn
    cases n with
    | none => rfl
    | some n => exact (n.isDir_setPerm _ _).trans hn
  drop := by
    intro hdrop n hn
    rw [dropLeaf_of_leaf hn]
    rfl
  patch := fun e he hname data perm hn => rfl
  write := by
    intro tf htf n n' hn hwrite
    -- a write puts a file where a file or nothing is
    unfold writeAt at hwrite
    split at hwrite
    · cases hwrite
      rfl
    · cases hwrite
      rfl
    · cases hwrite
  mkdir := fun h => absurd h hdir
  link := fun s hs hpath hn => rfl

/-- What the script leaves at a path where it deletes what was there. -/
def replaced (rec : Recovery) : Option (Node String Bytes Unit) → Place
  | some (.file tf _) => some (.file tf rec.filePerm)
  | some (.link dest) => some (.link dest)
  | _ => none

/-- What the first two delete commands leave at a path. -/
def afterDeletes (p : Path) (n : Place) : Place :=
  if FileName.plain p ∈ E.toDelete then
    dropLeaf (if FileName.plain p ∈ unneededFiles E.plan then dropLeaf n else n)
  else if FileName.plain p ∈ unneededFiles E.plan then dropLeaf n
  else n

section Deletes

omit hpair

variable {p : Path} {n : Place} (hn : n.any Node.isDir = false)
include hn

theorem isDir_ite_dropLeaf (c : Prop) [Decidable c] :
    (if c then dropLeaf n else n).any Node.isDir = false := by
  split
  · rw [dropLeaf_of_leaf hn]
    rfl
  · exact hn

/-- They leave no directory where there was none. -/
theorem isDir_afterDeletes : (E.afterDeletes p n).any Node.isDir = false := by
  unfold afterDeletes
  split
  · rw [dropLeaf_of_leaf (isDir_ite_dropLeaf hn _)]
    rfl
  · exact isDir_ite_dropLeaf hn _

/-- A file or link that one of them names is gone. -/
theorem afterDeletes_of_named
    (h : FileName.plain p ∈ unneededFiles E.plan ∨ FileName.plain p ∈ E.toDelete) :
    E.afterDeletes p n = none := by
  unfold afterDeletes
  rcases h with h | h
  · rw [if_pos h, dropLeaf_of_leaf hn]
    exact ite_self _
  · rw [if_pos h, dropLeaf_of_leaf (isDir_ite_dropLeaf hn _)]

end Deletes

/-- A file of the target build at a path that is deleted is sent whole. -/
theorem sentWhole_of_dropped (hdrop : E.Dropped (.plain ("system" :: q))) {tf : Bytes}
    (ht : imageAt target.system q = some (.file tf ())) : E.SentWhole q tf := by
  rcases hdrop with h | h | h
  · rcases (E.mem_unneeded hpair).mp h with ⟨tf', ht', hwhole⟩ | ⟨-, hnone⟩ | rfl
    · rw [ht] at ht'
      cases ht'
      exact hwhole
    · rw [ht] at hnone
      cases hnone
    · rw [hpair.target_recoveryImg] at ht
      cases ht
  · -- in the place of a link there was no file to make a patch from
    obtain ⟨⟨dest, hs⟩, -⟩ := (E.mem_toDelete hpair).mp h
    unfold SentWhole
    rw [hs]
    trivial
  · obtain ⟨⟨dest, ht'⟩, -⟩ := (E.mem_toCreate_names hpair).mp h
    rw [ht] at ht'
    cases ht'

section Replaced

variable (hdir : ¬ DirIn target source ("system" :: q))

/-- The changes at a path that is deleted: two deletes, the unpacking, the third delete, the
links.  No patch names it. -/
theorem follow_changes_of_dropped (hdrop : E.Dropped (.plain ("system" :: q))) {n : Place}
    (hprop : E.PassesFingerprint ("system" :: q) n) :
    follow (act rec E.package) ("system" :: q) n E.changes =
      (follow (extractAt rec ["system"] ["system"]) ("system" :: q)
          (E.afterDeletes ("system" :: q) n) E.plan.verbatimTargets).bind
        fun m => follow (act rec E.package) ("system" :: q)
          (if FileName.plain ("system" :: q) ∈ E.toCreate.map (fun s => FileName.plain s.2) then
            dropLeaf m else m) (makeSymlinksCmds E.toCreate) := by
  -- what is deleted is not patched
  have hpatch : ∀ e ∈ E.plan.patchList, e.name ≠ .plain ("system" :: q) := by
    intro e he hname
    obtain ⟨ht, -, hnot⟩ := E.not_whole_of_patch hpair he hname
    exact hnot (E.sentWhole_of_dropped hpair hdrop ht)
  have hpre : ["system"] <+: "system" :: q := ⟨q, rfl⟩
  have hnocheck : E.PassesChecks ("system" :: q) n :=
    fun e he hp => absurd (name_eq_plain hpair E he hp) (hpatch e he)
  rw [follow_changes E hpre hprop hnocheck,
    follow_patchCmds_of_ne hpair E fun e he hname => absurd hname (hpatch e he),
    Option.bind_some, E.follow_unpackCmds]
  rfl

include hdir

/-- Where the target build has no file, nothing is unpacked. -/
theorem follow_unpack_of_no_file (ht : ∀ tf, imageAt target.system q ≠ some (.file tf ()))
    (n : Place) :
    follow (extractAt rec ["system"] ["system"]) ("system" :: q) n E.plan.verbatimTargets =
      some n :=
  E.follow_unpack_of_not_mem hpair hdir (fun tf hmem => ht tf ((E.mem_verbatim_plain hpair).mp hmem).1)
    n

/-- Where it has no link, none is made. -/
theorem follow_links_of_no_link (ht : ¬ LinkIn target.system q) (n : Place) :
    follow (act rec E.package) ("system" :: q) n (makeSymlinksCmds E.toCreate) = some n := by
  refine E.follow_links_of_not_mem hpair (fun h => absurd h hdir) fun s hs => ⟨hs, fun heq => ?_⟩
  exact ht ⟨s.1, ((E.mem_toCreate hpair heq).mp hs).1⟩

/-- A path whose file or link is deleted: the changes make it anew, if need be. -/
theorem changes_replaced (hdrop : E.Dropped (.plain ("system" :: q))) {n : Place}
    (hn : n.any Node.isDir = false) (hprop : E.PassesFingerprint ("system" :: q) n) :
    follow (act rec E.package) ("system" :: q) n E.changes =
      some (replaced rec (imageAt target.system q)) := by
  rw [E.follow_changes_of_dropped hpair hdrop hprop]
  cases ht : imageAt target.system q with
  | none =>
    have hlink : ¬ LinkIn target.system q := by
      rintro ⟨dest, h⟩
      rw [ht] at h
      cases h
    -- one of the first two delete commands names the path
    have hnamed : FileName.plain ("system" :: q) ∈ unneededFiles E.plan ∨
        FileName.plain ("system" :: q) ∈ E.toDelete := by
      rcases hdrop with h | h | h
      · exact .inl h
      · exact .inr h
      · exact absurd ((E.mem_toCreate_names hpair).mp h).1 hlink
    rw [E.afterDeletes_of_named hn hnamed,
      E.follow_unpack_of_no_file hpair hdir (by simp [ht]), Option.bind_some,
      if_neg fun h => hlink ((E.mem_toCreate_names hpair).mp h).1,
      E.follow_links_of_no_link hpair hdir hlink]
    rfl
  | some t =>
    cases t with
    | dir perm => exact absurd (dirIn_cons.mpr (.inr (.inl ht))) hdir
    | file tf perm =>
      have hlink : ¬ LinkIn target.system q := by
        rintro ⟨dest, h⟩
        rw [ht] at h
        cases h
      -- a file that is sent whole is deleted first, and unpacked where nothing is left
      have hwhole := E.sentWhole_of_dropped hpair hdrop ht
      have hunneeded := (E.mem_unneeded hpair).mpr (.inl ⟨tf, ht, hwhole⟩)
      rw [E.afterDeletes_of_named hn (.inl hunneeded),
        E.follow_unpack_file hpair hdir ((E.mem_verbatim_plain hpair).mpr ⟨ht, hwhole⟩),
        Option.bind_some, if_neg fun h => hlink ((E.mem_toCreate_names hpair).mp h).1,
        E.follow_links_of_no_link hpair hdir hlink]
      rfl
    | link dest =>
      -- the last delete command names the path, whatever the first two did
      have hsource : imageAt source.system q ≠ some (.link dest) := by
        intro hs
        rcases hdrop with h | h | h
        · rcases (E.mem_unneeded hpair).mp h with ⟨tf, ht', -⟩ | ⟨hfile, -⟩ | rfl
          · rw [ht] at ht'
            cases ht'
          · rw [hs] at hfile
            cases hfile
          · rw [hpair.target_recoveryImg] at ht
            cases ht
        · exact ((E.mem_toDelete hpair).mp h).2 ⟨dest, ht⟩
        · have hne := ((E.mem_toCreate_names hpair).mp h).2
          rw [ht] at hne
          exact hne hs
      have hmem : (dest, "system" :: q) ∈ E.toCreate := (E.mem_toCreate hpair rfl).mpr ⟨ht, hsource⟩
      have hcreate := (E.mem_toCreate_names hpair).mpr ⟨⟨dest, ht⟩, ht ▸ hsource⟩
      rw [E.follow_unpack_of_no_file hpair hdir (by simp [ht]), Option.bind_some,
        if_pos hcreate, dropLeaf_of_leaf (E.isDir_afterDeletes hn)]
      exact E.follow_links hpair hmem

end Replaced

/-- A file that is not sent whole is not deleted. -/
theorem not_dropped_of_files {tf : Bytes} (ht : imageAt target.system q = some (.file tf ()))
    (hwhole : ¬ E.SentWhole q tf) : ¬ E.Dropped (.plain ("system" :: q)) :=
  fun h => hwhole (E.sentWhole_of_dropped hpair h ht)

/-- Neither sent whole nor created as a link. -/
theorem not_mem_of_not_dropped (hdrop : ¬ E.Dropped (.plain ("system" :: q))) :
    (∀ tf, (.plain ("system" :: q), tf) ∉ E.plan.verbatimTargets) ∧
      ∀ s ∈ E.toCreate, s.2 ≠ "system" :: q := by
  constructor
  · intro tf htf
    exact hdrop (.inl ((E.mem_unneeded hpair).mpr
      (.inl ⟨tf, (E.mem_verbatim_plain hpair).mp htf⟩)))
  · intro s hs heq
    refine hdrop (.inr (.inr (List.mem_map.mpr ⟨s, hs, ?_⟩)))
    rw [heq]

/-- A path that is not deleted: at most, it is patched. -/
theorem changes_not_dropped (hdir : ¬ DirIn target source ("system" :: q))
    (hdrop : ¬ E.Dropped (.plain ("system" :: q))) {n : Place}
    (hprop : E.PassesFingerprint ("system" :: q) n) (hcheck : E.PassesChecks ("system" :: q) n) :
    follow (act rec E.package) ("system" :: q) n E.changes =
      follow (act rec E.package) ("system" :: q) n (patchCmds rec.toTools E.plan) := by
  have hpre : ["system"] <+: "system" :: q := ⟨q, rfl⟩
  obtain ⟨hverbatim, hcreate⟩ := not_mem_of_not_dropped hpair E hdrop
  rw [follow_changes E hpre hprop hcheck, if_neg fun h => hdrop (.inl h)]
  -- nothing is unpacked to a path that was not deleted before
  have hunpack : ∀ m, follow (act rec E.package) ("system" :: q) m
      (unpackCmds E.plan (symlinksOf source.system) (symlinksOf target.system)) = some m := by
    intro m
    rw [E.follow_unpackCmds, if_neg fun h => hdrop (.inr (.inl h)),
      E.follow_unpack_of_not_mem hpair hdir hverbatim, Option.bind_some,
      if_neg fun h => hdrop (.inr (.inr h))]
    exact E.follow_links_of_not_mem hpair (fun h => absurd h hdir) fun s hs => ⟨hs, hcreate s hs⟩
  simp only [hunpack]
  exact Option.bind_fun_some _

/-- What stays as it is in both builds. -/
theorem settles_same (hne : "system" :: q ≠ ["system", "build.prop"])
    (hdir : ¬ DirIn target source ("system" :: q)) (hdrop : ¬ E.Dropped (.plain ("system" :: q)))
    (hpatch : ∀ e ∈ E.plan.patchList, e.name ≠ .plain ("system" :: q)) {n : Place}
    (hn : n.map Node.contents = imageAt target.system q) :
    E.Settles ("system" :: q) (E.Like ("system" :: q) n)
      (Ota.setAll E.permissions ("system" :: q) n) := by
  obtain ⟨hverbatim, hcreate⟩ := not_mem_of_not_dropped hpair E hdrop
  refine settles_of_changes hpair hne ?kept ?changes ?set
  case kept =>
    exact
      { perms := fun c hc perms hperm m hm =>
          ⟨(contents_setAt _ m).trans hm.1, .inl (covered_of_perm hne hc hperm)⟩
        drop := fun h => absurd h hdrop
        patch := fun e he hname => absurd hname (hpatch e he)
        write := fun tf htf => absurd htf (hverbatim tf)
        mkdir := fun h => absurd h hdir
        link := fun s hs heq => absurd heq (hcreate s hs) }
  case changes =>
    intro m hm
    refine ⟨m, ?_, hm⟩
    -- nothing is patched here, so nothing is checked
    have hnocheck : E.PassesChecks ("system" :: q) m :=
      fun e he hp => absurd (name_eq_plain hpair E he hp) (hpatch e he)
    rw [changes_not_dropped hpair E hdir hdrop (fun h => absurd h hne) hnocheck]
    exact follow_patchCmds_of_ne hpair E (fun e he hname => absurd hname (hpatch e he)) m
  case set =>
    rintro (rfl | ⟨m, hm, hlink⟩) hbad
    · exact hdir (dirIn_cons.mpr (.inl rfl))
    · rw [hm] at hn
      obtain ⟨x, rfl, rfl⟩ := Option.map_eq_some_iff.mp hn
      -- no link in the image, so none on the device
      rw [x.isLink_contents] at hlink
      rcases hbad with hnone | hbad
      · cases hnone
      · exact Bool.noConfusion (hlink.symm.trans hbad)

/-- A file that is patched. -/
theorem settles_patched (hne : "system" :: q ≠ ["system", "build.prop"]) {e : PatchEntry}
    (he : e ∈ E.plan.patchList) (hname : e.name = .plain ("system" :: q)) (perm : Perm) :
    E.Settles ("system" :: q)
      (fun n => ∃ data perm', n = some (.file data perm') ∧ (data = e.source ∨ data = e.target) ∧
        (E.Covered ("system" :: q) ∨ perm' = perm))
      (Ota.setAll E.permissions ("system" :: q) (some (.file e.target perm))) := by
  obtain ⟨ht, hs, hwhole⟩ := E.not_whole_of_patch hpair he hname
  have hdir := hpair.not_dirIn rfl (.inl ht)
  have hdrop := not_dropped_of_files hpair E ht hwhole
  obtain ⟨hverbatim, hcreate⟩ := not_mem_of_not_dropped hpair E hdrop
  -- all entries for the file agree
  have hsame : ∀ e' ∈ E.plan.patchList, e'.name = .plain ("system" :: q) →
      e'.target = e.target ∧ e'.source = e.source := by
    intro e' he' hname'
    obtain ⟨ht', hs', -⟩ := E.not_whole_of_patch hpair he' hname'
    rw [ht] at ht'
    rw [hs] at hs'
    exact ⟨(Node.file.inj (Option.some.inj ht')).1.symm,
      (Node.file.inj (Option.some.inj hs')).1.symm⟩
  refine settles_of_changes hpair hne ?kept ?changes ?set
  -- the file holds one of the two contents throughout
  case kept =>
    refine
      { perms := ?_
        drop := fun h => absurd h hdrop
        patch := ?_
        write := fun tf htf => absurd htf (hverbatim tf)
        mkdir := fun h => absurd h hdir
        link := fun s hs heq => absurd heq (hcreate s hs) }
    · rintro c hc perms hperm n ⟨data, perm', rfl, hdata, -⟩
      exact ⟨data, perms.2, rfl, hdata, .inl (covered_of_perm hne hc hperm)⟩
    · rintro e' he' hname' data perm' ⟨data', perm'', heq, hdata, hperm⟩
      cases heq
      exact ⟨e'.target, perm', rfl, .inr (hsame e' he' hname').1, hperm⟩
  -- and from either the patch makes the target's
  case changes =>
    rintro n ⟨data, perm', rfl, hdata, hperm⟩
    refine ⟨some (.file e.target perm'), ?_, rfl, ?_⟩
    · have hcheck : E.PassesChecks ("system" :: q) (some (.file data perm')) := by
        intro e' he' hp
        obtain ⟨ht', hs'⟩ := hsame e' he' (name_eq_plain hpair E he' hp)
        exact ⟨data, perm', rfl, by rw [ht', hs']; exact hdata⟩
      rw [changes_not_dropped hpair E hdir hdrop (fun h => absurd h hne) hcheck, patchCmds,
        follow_cons, act_print, Option.bind_some]
      refine E.follow_patches hpair (fun e he => (List.mem_filter.mp he).1) ?_ hname hdata perm'
      refine List.mem_filter.mpr ⟨he, ?_⟩
      have hnot : e.name ≠ buildPropName := by
        intro h
        rw [hname] at h
        exact hne (FileName.plain_inj.mp h)
      simpa using hnot
    · exact hperm.imp id fun h => by rw [h]
  case set =>
    rintro - (h | h) <;> cases h

end Leaves

/-! ## §4 The Path of a Directory -/

section Directories

variable (E : Emitted rec.toTools order opts target source) {q : Path}

/-- Nothing but directories and permissions concerns a directory. -/
theorem not_mem_of_dirIn (hdir : DirIn target source ("system" :: q)) :
    (∀ e ∈ E.plan.patchList, e.name ≠ .plain ("system" :: q)) ∧
      (∀ tf, (.plain ("system" :: q), tf) ∉ E.plan.verbatimTargets) ∧
      ∀ s ∈ E.toCreate, s.2 ≠ "system" :: q := by
  refine ⟨fun e he hname => ?_, fun tf htf => ?_, fun s hs heq => ?_⟩
  · exact hpair.not_dirIn rfl (.inl (E.not_whole_of_patch hpair he hname).1) hdir
  · exact hpair.not_dirIn rfl (.inl ((E.mem_verbatim_plain hpair).mp htf).1) hdir
  · exact hpair.not_dirIn rfl (.inl ((E.mem_toCreate hpair heq).mp hs).1) hdir

theorem dirIn_ne_buildProp (hdir : DirIn target source ("system" :: q)) :
    "system" :: q ≠ ["system", "build.prop"] := by
  intro heq
  obtain ⟨data, himage, -⟩ := hpair.target_buildProp
  rw [heq] at hdir
  exact hpair.not_dirIn rfl (.inl himage) hdir

/-- The changes at a directory: it is unpacked if it is missing. -/
theorem changes_dir (hdir : DirIn target source ("system" :: q)) {n : Place}
    (hn : n = none ∨ ∃ perm, n = some (.dir perm)) {perm : Perm}
    (hunpack : follow (extractAt rec ["system"] ["system"]) ("system" :: q) n
      E.plan.verbatimTargets = some (some (.dir perm))) :
    follow (act rec E.package) ("system" :: q) n E.changes = some (some (.dir perm)) := by
  obtain ⟨hpatch, -, hcreate⟩ := not_mem_of_dirIn hpair E hdir
  have hpre : ["system"] <+: "system" :: q := ⟨q, rfl⟩
  have hnocheck : E.PassesChecks ("system" :: q) n :=
    fun e he hp => absurd (name_eq_plain hpair E he hp) (hpatch e he)
  -- a delete takes no directory away
  have hkeep : dropLeaf n = n := by
    rcases hn with rfl | ⟨perm, rfl⟩ <;> rfl
  have hprop : E.PassesFingerprint ("system" :: q) n :=
    fun h => absurd h (dirIn_ne_buildProp hpair hdir)
  rw [follow_changes E hpre hprop hnocheck, hkeep, ite_self,
    follow_patchCmds_of_ne hpair E fun e he hname => absurd hname (hpatch e he),
    Option.bind_some, E.follow_unpackCmds, hkeep, ite_self, hunpack, Option.bind_some]
  have hdrop : dropLeaf (some (.dir perm)) = some (.dir perm) := rfl
  rw [hdrop, ite_self]
  exact E.follow_links_of_not_mem hpair (fun _ => Option.some_ne_none _)
    fun s hs => ⟨hs, hcreate s hs⟩

/-- A directory, which may be missing at first if it is sent. -/
theorem settles_dir (hdir : DirIn target source ("system" :: q)) (fresh : Prop) (perm : Perm)
    (hfresh : fresh → perm = rec.dirPerm ∧ (.dir ("system" :: q), []) ∈ E.plan.verbatimTargets) :
    E.Settles ("system" :: q)
      (fun n => (fresh ∧ n = none) ∨
        ∃ perm', n = some (.dir perm') ∧ (E.Covered ("system" :: q) ∨ perm' = perm))
      (Ota.setAll E.permissions ("system" :: q) (some (.dir perm))) := by
  obtain ⟨hpatch, hverbatim, hcreate⟩ := not_mem_of_dirIn hpair E hdir
  have hne := dirIn_ne_buildProp hpair hdir
  refine settles_of_changes hpair hne ?kept ?changes ?set
  case kept =>
    refine
      { perms := ?_
        drop := ?_
        patch := fun e he hname => absurd hname (hpatch e he)
        write := fun tf htf => absurd htf (hverbatim tf)
        mkdir := ?_
        link := fun s hs heq => absurd heq (hcreate s hs) }
    · rintro c hc perms hperm n (⟨hf, rfl⟩ | ⟨perm', rfl, -⟩)
      · -- a directory that is still missing has no permissions to set
        exact .inl ⟨hf, rfl⟩
      · exact .inr ⟨perms.1, rfl, .inl (covered_of_perm hne hc hperm)⟩
    · rintro - n (⟨hf, rfl⟩ | ⟨perm', rfl, hperm⟩)
      · exact .inl ⟨hf, rfl⟩
      · exact .inr ⟨perm', rfl, hperm⟩
    · -- only what is missing is made, with the permissions of the recovery
      rintro - (⟨hf, -⟩ | ⟨perm', heq, -⟩)
      · exact .inr ⟨_, rfl, .inr (hfresh hf).1.symm⟩
      · cases heq
  case changes =>
    rintro n (⟨hf, rfl⟩ | ⟨perm', rfl, hperm⟩)
    · -- missing: the unpacking makes it
      obtain ⟨rfl, hmem⟩ := hfresh hf
      exact ⟨_, changes_dir hpair E hdir (.inl rfl) (E.follow_unpack_newDir hpair hdir hmem),
        Like.refl E _ _⟩
    · refine ⟨_, changes_dir hpair E hdir (.inr ⟨perm', rfl⟩)
        (E.follow_unpack_dir hpair hdir perm'), rfl, ?_⟩
      exact hperm.imp id fun h => by rw [h]
  case set =>
    rintro - (h | h) <;> cases h

end Directories

/-! ## §5 `build.prop` -/

section BuildProp

variable (E : Emitted rec.toTools order opts target source)

/-- The end of the script, at `build.prop`: patched if it is listed, then set. -/
theorem follow_finish_buildProp {tf data : Bytes}
    (ht : imageAt target.system ["build.prop"] = some (.file tf ()))
    (hdata : data = tf ∨ ∃ e ∈ E.plan.patchList, e.name = buildPropName ∧ data = e.source)
    (perm : Perm) :
    follow (act rec E.package) ["system", "build.prop"] (some (.file data perm))
      (finishCmds rec.toTools E.plan) = some (some (.file tf ⟨0, 0, 0o644⟩)) := by
  have hset : ∀ perm', follow (act rec E.package) ["system", "build.prop"] (some (.file tf perm'))
      [.setPermissions ["system", "build.prop"] 0 0 0o644] =
        some (some (.file tf ⟨0, 0, 0o644⟩)) := fun _ => rfl
  rw [finishCmds, follow_cons, act_print, Option.bind_some, follow_append]
  by_cases hlisted : ∃ e ∈ E.plan.patchList, e.name = buildPropName
  · -- the patch makes the target of the source, or finds it made
    obtain ⟨e, he, hname⟩ := hlisted
    obtain ⟨ht', -, -⟩ := E.not_whole_of_patch hpair (q := ["build.prop"]) he hname
    have htf : e.target = tf := by
      rw [ht] at ht'
      exact (Node.file.inj (Option.some.inj ht')).1.symm
    have hdata' : data = e.source ∨ data = e.target := by
      rcases hdata with rfl | ⟨e', he', hname', rfl⟩
      · exact .inr htf.symm
      · left
        obtain ⟨-, hs, -⟩ := E.not_whole_of_patch hpair (q := ["build.prop"]) he hname
        obtain ⟨-, hs', -⟩ := E.not_whole_of_patch hpair (q := ["build.prop"]) he' hname'
        rw [hs] at hs'
        exact (Node.file.inj (Option.some.inj hs')).1.symm
    have hmem : e ∈ E.plan.patchList.filter fun e => e.name = buildPropName :=
      List.mem_filter.mpr ⟨he, by simpa using hname⟩
    rw [E.follow_patches hpair (fun e he => (List.mem_filter.mp he).1) hmem hname hdata' perm,
      Option.bind_some, htf, hset]
  · -- `build.prop` is not patched, so both builds have the same
    have hnone : ∀ e ∈ E.plan.patchList.filter fun e => e.name = buildPropName,
        e.name.path ≠ ["system", "build.prop"] := by
      intro e he
      obtain ⟨hmem, hname⟩ := List.mem_filter.mp he
      exact absurd ⟨e, hmem, by simpa using hname⟩ hlisted
    have htf : data = tf := by
      refine hdata.resolve_right ?_
      rintro ⟨e, he, hname, -⟩
      exact hlisted ⟨e, he, hname⟩
    rw [E.follow_patches_of_ne hnone, Option.bind_some, htf, hset]

/-- The permissions keep a file a file. -/
theorem follow_rest_buildProp {tf data : Bytes}
    (ht : imageAt target.system ["build.prop"] = some (.file tf ()))
    (hdata : data = tf ∨ ∃ e ∈ E.plan.patchList, e.name = buildPropName ∧ data = e.source)
    (perm : Perm) {n : Place}
    (hchanges : follow (act rec E.package) ["system", "build.prop"] n E.changes =
      some (some (.file data perm))) :
    follow (act rec E.package) ["system", "build.prop"] n E.script =
      some (some (.file tf ⟨0, 0, 0o644⟩)) := by
  have hsettable : Settable (some (.file data perm)) := by
    rintro (h | h) <;> cases h
  have hcontents := contents_setAll E.permissions ["system", "build.prop"] (some (.file data perm))
  obtain ⟨m, hm, hfile⟩ := Option.map_eq_some_iff.mp hcontents
  -- setting permissions leaves the contents, so it is still a file
  cases m with
  | file data' perm' =>
    cases hfile
    rw [script, follow_append, follow_append, hchanges, Option.bind_some,
      follow_permissions_at hpair E fun _ => hsettable, hm, Option.bind_some]
    exact follow_finish_buildProp hpair E ht hdata perm'
  | dir perm' => cases hfile
  | link dest => cases hfile

/-- The assertion accepts the source build. -/
theorem passes_source {sf : Bytes} (hs : imageAt source.system ["build.prop"] = some (.file sf ()))
    (perm : Perm) : E.PassesFingerprint ["system", "build.prop"] (some (.file sf perm)) := by
  intro _
  obtain ⟨data, hs', hfp⟩ := hpair.source_buildProp
  rw [hs] at hs'
  cases hs'
  exact ⟨sf, perm, _, rfl, hfp.trans E.sourceFp_eq, .inl rfl⟩

/-- `build.prop` is settled, unless it is sent whole. -/
theorem settles_buildProp {tf sf : Bytes}
    (ht : imageAt target.system ["build.prop"] = some (.file tf ()))
    (hs : imageAt source.system ["build.prop"] = some (.file sf ()))
    (hwhole : ¬ E.SentWhole ["build.prop"] tf) :
    E.Settles ["system", "build.prop"]
      (fun n => ∃ data perm, n = some (.file data perm) ∧
        (data = tf ∨ ∃ e ∈ E.plan.patchList, e.name = buildPropName ∧ data = e.source))
      (some (.file tf ⟨0, 0, 0o644⟩)) := by
  have hdir := hpair.not_dirIn rfl (.inl ht)
  have hdrop := not_dropped_of_files hpair E ht hwhole
  obtain ⟨hverbatim, hcreate⟩ := not_mem_of_not_dropped hpair E hdrop
  have hfiles : ∀ e ∈ E.plan.patchList, e.name = buildPropName → e.target = tf ∧ e.source = sf := by
    intro e he hname
    obtain ⟨ht', hs', -⟩ := E.not_whole_of_patch hpair (q := ["build.prop"]) he hname
    rw [ht] at ht'
    rw [hs] at hs'
    exact ⟨(Node.file.inj (Option.some.inj ht')).1.symm,
      (Node.file.inj (Option.some.inj hs')).1.symm⟩
  -- the file holds one of the two contents throughout
  have hkept : E.Kept ["system", "build.prop"] fun n => ∃ data perm, n = some (.file data perm) ∧
      (data = tf ∨ ∃ e ∈ E.plan.patchList, e.name = buildPropName ∧ data = e.source) := by
    refine
      { perms := ?_
        drop := fun h => absurd h hdrop
        patch := ?_
        write := fun data h => absurd h (hverbatim data)
        mkdir := fun h => absurd h hdir
        link := fun s hs heq => absurd heq (hcreate s hs) }
    · rintro c hc perms hperm n ⟨data, perm, rfl, hdata⟩
      exact ⟨data, perms.2, rfl, hdata⟩
    · intro e he hname data perm _
      exact ⟨e.target, perm, rfl, .inl (hfiles e he hname).1⟩
  refine ⟨fun c hc n n' hn hact => hkept.act hpair ⟨["build.prop"], rfl⟩ hc hn hact, ?_⟩
  rintro n ⟨data, perm, rfl, hdata⟩
  apply follow_rest_buildProp hpair E ht hdata perm
  -- the assertion accepts the fingerprints of both builds
  have hprop : E.PassesFingerprint ["system", "build.prop"] (some (.file data perm)) := by
    intro _
    rcases hdata with rfl | ⟨e, he, hname, rfl⟩
    · obtain ⟨data', ht', hfp⟩ := hpair.target_buildProp
      rw [ht] at ht'
      cases ht'
      exact ⟨data, perm, _, rfl, hfp.trans E.targetFp_eq, .inr rfl⟩
    · rw [(hfiles e he hname).2]
      exact passes_source hpair E hs perm rfl
  have hcheck : E.PassesChecks ["system", "build.prop"] (some (.file data perm)) := by
    intro e he hp
    obtain ⟨htarget, hsource⟩ := hfiles e he (name_eq_plain hpair E he hp)
    refine ⟨data, perm, rfl, ?_⟩
    rcases hdata with rfl | ⟨e', he', hname', rfl⟩
    · exact .inr htarget.symm
    · exact .inl ((hfiles e' he' hname').2.trans hsource.symm)
  rw [changes_not_dropped hpair E hdir hdrop hprop hcheck]
  exact follow_patchCmds_of_ne hpair E (fun e he hname => hname) _

/-- A `build.prop` that is sent whole is made from the source build. -/
theorem follow_whole_buildProp {tf sf : Bytes}
    (ht : imageAt target.system ["build.prop"] = some (.file tf ()))
    (hs : imageAt source.system ["build.prop"] = some (.file sf ()))
    (hwhole : E.SentWhole ["build.prop"] tf) (perm : Perm) :
    follow (act rec E.package) ["system", "build.prop"] (some (.file sf perm)) E.script =
      some (some (.file tf ⟨0, 0, 0o644⟩)) := by
  -- sent whole, the file is deleted with the others and unpacked again
  have hdrop : E.Dropped (.plain ["system", "build.prop"]) :=
    .inl ((E.mem_unneeded hpair).mpr (.inl ⟨tf, ht, hwhole⟩))
  have hchanges := changes_replaced hpair E (hpair.not_dirIn rfl (.inl ht)) hdrop
    (n := some (.file sf perm)) rfl (passes_source hpair E hs perm)
  rw [ht] at hchanges
  exact follow_rest_buildProp hpair E ht (.inl rfl) rec.filePerm hchanges

end BuildProp

/-! ## §6 Paths Outside `/system` -/

section Outside

variable (E : Emitted rec.toTools order opts target source)

omit hpair in
theorem mkdirsAt_outside {p path q : Path} (hne : ∀ q, p ≠ "system" :: q)
    (hpath : path <+: "system" :: q) (n : Place) : mkdirsAt rec path p n = n := by
  rcases mkdirsAt_cases rec path p n with hsame | ⟨h0, hpre, -⟩
  · exact hsame
  · obtain ⟨t, ht, -⟩ := (List.prefix_cons_iff.mp (hpre.trans hpath)).resolve_left h0
    exact absurd ht (hne t)

/-- The script leaves paths outside `/system` alone, but for user data. -/
theorem act_outside {p : Path} (hp : ¬ ["system"] <+: p) {c : Cmd} (hc : c ∈ E.script) :
    (c = .formatPartition ["data"] ∧ opts.wipeUserData = true) ∨
      ∀ n, act rec E.package c p n = some n := by
  have hne : ∀ q, p ≠ "system" :: q := by
    rintro q rfl
    exact hp ⟨q, rfl⟩
  -- permissions are set at or below paths in `/system`
  have hpermission : ∀ q, c.permPath? = some ("system" :: q) →
      ∀ n, act rec E.package c p n = some n := by
    intro q hq n
    have hnone : c.permAt? p = none := by
      cases c with
      | setPermissions name uid gid mode =>
        cases hq
        exact if_neg (hne q)
      | setPermissionsRecursive name uid gid dmode fmode =>
        cases hq
        refine if_neg fun hpre => hp ?_
        exact List.IsPrefix.trans ⟨q, rfl⟩ hpre
      | _ => cases hq
    rw [act_permission rec _ hq p fun h => absurd h (hne q), hnone]
    rfl
  cases E.step_of_mem hc with
  | mount | print | comment | device | checkBoot | space | patchBoot => exact .inr fun _ => rfl
  | fingerprint =>
    right
    intro n
    rw [act, if_neg (hne _)]
  | check e mem =>
    right
    intro n
    obtain ⟨q, hname, -⟩ := E.patchList_file hpair mem
    rw [patchCheckCmd, act, if_neg]
    rw [hname]
    exact hne q
  | wipe wipes => exact .inl ⟨rfl, wipes⟩
  | delete names dropped =>
    right
    intro n
    rw [act, if_neg]
    intro hmem
    obtain ⟨q, hq, -⟩ := E.dropped_path hpair (dropped _ hmem)
    exact hne q hq
  | patch e mem =>
    right
    intro n
    obtain ⟨q, hname, -⟩ := E.patchList_file hpair mem
    refine E.act_applyPatch_of_ne ?_ n
    rw [hname]
    exact (hne q).symm
  | unpack =>
    right
    intro n
    -- every entry is unpacked below `/system`, and so are its directories
    apply follow_of_id _ _
    intro x hx
    obtain ⟨q, m, hpath, -, -⟩ := E.verbatimTargets_path hpair hx
    have hself : p ≠ x.1.path := by
      rw [hpath]
      exact hne q
    have habove : ∀ path, path <+: x.1.path → mkdirsAt rec path p n = n := by
      intro path hpre
      rw [hpath] at hpre
      exact mkdirsAt_outside hne hpre n
    rw [E.extractAt_eq hpair hx, habove _ List.prefix_rfl, habove _ (List.dropLast_prefix _),
      if_neg hself, ite_self]
  | link s mem =>
    right
    intro n
    obtain ⟨q, hpath, -⟩ := (mem_symlinksToCreate hpair.source_wf hpair.target_wf).mp mem
    have hself : p ≠ s.2 := by
      rw [hpath]
      exact hne q
    have habove : s.2.dropLast <+: "system" :: q := by
      rw [← hpath]
      exact List.dropLast_prefix _
    rw [act, if_neg hself, mkdirsAt_outside hne habove]
  | permission _ mem =>
    obtain ⟨q, hq, -⟩ := permPath?_permissionCmds hpair.target_wf E.permissions_eq c mem
    exact .inr (hpermission q hq)
  | buildProp => exact .inr (hpermission _ rfl)

/-- What is outside stays, or is wiped. -/
theorem settles_outside {p : Path} (hp : ¬ ["system"] <+: p) (n : Place) :
    ∃ final, E.Settles p (fun m => m = n ∨ m = final) final := by
  by_cases hwipe : opts.wipeUserData = true ∧ ["data"] <+: p ∧ p ≠ ["data"]
  · -- user data: whatever is there is gone once the partition is formatted
    have hformat : ∀ m, act rec E.package (.formatPartition ["data"]) p m = some none :=
      fun m => by rw [act, if_pos hwipe.2]
    have hmem : Cmd.formatPartition ["data"] ∈ E.script := by
      simp [script, changes, removeCmds, hwipe.1]
    refine ⟨none, fun c hc m m' hm hact => ?_, fun m _ => ?_⟩
    · rcases act_outside hpair E hp hc with ⟨rfl, -⟩ | hid
      · rw [hformat] at hact
        exact .inr (Option.some.inj hact).symm
      · rw [hid] at hact
        exact Option.some.inj hact ▸ hm
    · refine follow_of_hit _ _ (fun c hc => ?_) (fun c hc => ?_) ⟨_, hmem, hformat m⟩
      · rcases act_outside hpair E hp hc with ⟨rfl, -⟩ | hid
        · exact .inr (hformat m)
        · exact .inl (hid m)
      · rcases act_outside hpair E hp hc with ⟨rfl, -⟩ | hid
        · exact hformat none
        · exact hid none
  · -- no command of the script does anything here
    have hid : ∀ c ∈ E.script, ∀ m, act rec E.package c p m = some m := by
      intro c hc m
      rcases act_outside hpair E hp hc with ⟨rfl, hw⟩ | hid
      · rw [act, if_neg fun h => hwipe ⟨hw, h⟩]
      · exact hid m
    refine ⟨n, fun c hc m m' hm hact => ?_, fun m hm => ?_⟩
    · rw [hid c hc] at hact
      exact Option.some.inj hact ▸ hm
    · rw [or_self] at hm
      rw [hm]
      exact follow_of_id _ _ fun c hc => hid c hc n

end Outside

end Emitted

end OdroidU2.Ota
