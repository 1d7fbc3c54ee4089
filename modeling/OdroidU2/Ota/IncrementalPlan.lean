import OdroidU2.Ota.Incremental

/-!
# What an Incremental Package Plans for Each Path

The classification of `WriteIncrementalOTAPackage` goes through several loops over several
tables.  Here it is read off per path: what two builds have there decides whether the path
is sent whole, patched, deleted or linked, and which paths the permission commands name.
-/

namespace OdroidU2.Ota

open OdroidU2.Foundations

/-! ## §1 Builds -/

/-- What an entry puts at its path. -/
def ZipEntry.node : ZipEntry → Node String Bytes Unit
  | .dir _ => .dir ()
  | .file _ data => .file data ()
  | .symlink _ dest => .link dest

/-- What the entries of a zip put at a path below `SYSTEM/`. -/
def imageAt (z : List ZipEntry) (p : Path) : Option (Node String Bytes Unit) :=
  (z.find? fun e => e.path = p).map ZipEntry.node

/-- Unique paths, a zip entry for every directory, and no entry below a file or a link. -/
structure WellFormed (z : List ZipEntry) : Prop where
  unique : (z.map ZipEntry.path).Nodup
  above : ∀ e ∈ z, ∀ p, p ≠ [] → p <+: e.path → p ≠ e.path → .dir p ∈ z
  root : ∀ e ∈ z, e.path = [] → e = .dir []

section Image

variable {z : List ZipEntry} (hz : WellFormed z)
include hz

theorem imageAt_eq_some_iff {p : Path} {n : Node String Bytes Unit} :
    imageAt z p = some n ↔ ∃ e ∈ z, e.path = p ∧ e.node = n := by
  rw [imageAt, Option.map_eq_some_iff]
  constructor
  · rintro ⟨e, he, rfl⟩
    exact ⟨e, List.mem_of_find?_eq_some he, by simpa using List.find?_some he, rfl⟩
  · rintro ⟨e, he, rfl, rfl⟩
    cases hfind : z.find? fun e' => e'.path = e.path with
    | none =>
      have hall := List.find?_eq_none.mp hfind e he
      simp at hall
    | some e' =>
      have hpath : e'.path = e.path := by simpa using List.find?_some hfind
      -- paths are unique, so the entry found is this one
      have heq := List.inj_on_of_nodup_map hz.unique (List.mem_of_find?_eq_some hfind) he hpath
      exact ⟨e', rfl, by rw [heq]⟩

theorem imageAt_dir {p : Path} : imageAt z p = some (.dir ()) ↔ .dir p ∈ z := by
  rw [imageAt_eq_some_iff hz]
  constructor
  · rintro ⟨e, he, rfl, hnode⟩
    cases e with
    | dir path => exact he
    | file path data => cases hnode
    | symlink path dest => cases hnode
  · exact fun h => ⟨_, h, rfl, rfl⟩

theorem imageAt_link {p : Path} {dest : LinkDest String} :
    imageAt z p = some (.link dest) ↔ .symlink p dest ∈ z := by
  rw [imageAt_eq_some_iff hz]
  constructor
  · rintro ⟨e, he, rfl, hnode⟩
    -- only a link entry stands for a link
    cases e with
    | dir path => cases hnode
    | file path data => cases hnode
    | symlink path dest =>
      cases hnode
      exact he
  · exact fun h => ⟨_, h, rfl, rfl⟩

/-- Above a path with an entry there are directories. -/
theorem imageAt_above {p q : Path} (hp : imageAt z p ≠ none) (hq : q ≠ []) (hqp : q <+: p)
    (hne : q ≠ p) : imageAt z q = some (.dir ()) := by
  obtain ⟨n, hn⟩ := Option.ne_none_iff_exists'.mp hp
  obtain ⟨e, he, rfl, -⟩ := (imageAt_eq_some_iff hz).mp hn
  exact (imageAt_dir hz).mpr (hz.above e he q hq hqp hne)

/-- A file or a link is not at the root. -/
theorem ne_nil_of_leaf {p : Path} {n : Node String Bytes Unit} (hp : imageAt z p = some n)
    (hn : n.isDir = false) : p ≠ [] := by
  rintro rfl
  obtain ⟨e, he, hroot, rfl⟩ := (imageAt_eq_some_iff hz).mp hp
  rw [hz.root e he hroot] at hn
  cases hn

end Image

/-! ## §2 The Files of a Build -/

/-- The name of a directory. -/
def FileName.dir (path : Path) : FileName := ⟨path, true⟩

theorem FileName.eq_plain {fn : FileName} (h : fn.slash = false) : fn = .plain fn.path := by
  obtain ⟨path, slash⟩ := fn
  subst h
  rfl

theorem FileName.plain_inj {p q : Path} : FileName.plain p = .plain q ↔ p = q := by
  simp [FileName.plain]

/-- A directory has no contents. -/
def loadedData : Node String Bytes Unit → Bool → Option Bytes
  | .dir _, true => some []
  | .file data _, false => some data
  | _, _ => none

theorem loadEntry_eq_some_iff {e : ZipEntry} {fn : FileName} {data : Bytes} :
    loadEntry e = some (fn, data) ↔
      fn.path = "system" :: e.path ∧ loadedData e.node fn.slash = some data := by
  obtain ⟨path, slash⟩ := fn
  cases e <;> cases slash <;> simp [loadEntry, loadedData, ZipEntry.node, ZipEntry.path, eq_comm]

/-- `LoadSystemFiles` holds exactly the files and directories of the build. -/
theorem get?_loadSystemFiles {z : List ZipEntry} (hz : WellFormed z) {fn : FileName}
    {data : Bytes} : (loadSystemFiles z).get? fn = some data ↔
      ∃ p n, fn.path = "system" :: p ∧ imageAt z p = some n ∧
        loadedData n fn.slash = some data := by
  -- a zip with one entry for each path gives each name once
  have hnodup : ((z.filterMap loadEntry).map Prod.fst).Nodup := by
    have hpaths : (z.map ZipEntry.path).Nodup := hz.unique
    rw [List.Nodup, List.pairwise_map] at hpaths ⊢
    rw [List.pairwise_filterMap]
    refine hpaths.imp fun {e e'} hne x hx y hy heq => hne ?_
    obtain ⟨fn, data⟩ := x
    obtain ⟨fn', data'⟩ := y
    obtain rfl : fn = fn' := heq
    have hpath := (loadEntry_eq_some_iff.mp hx).1
    rw [(loadEntry_eq_some_iff.mp hy).1] at hpath
    exact (List.cons_inj_right "system").mp hpath.symm
  rw [loadSystemFiles, Dict.get?_ofList hnodup, List.mem_filterMap]
  constructor
  · rintro ⟨e, he, hload⟩
    obtain ⟨hpath, hdata⟩ := loadEntry_eq_some_iff.mp hload
    exact ⟨e.path, e.node, hpath, (imageAt_eq_some_iff hz).mpr ⟨e, he, rfl, rfl⟩, hdata⟩
  · rintro ⟨p, n, hpath, himage, hdata⟩
    obtain ⟨e, he, rfl, rfl⟩ := (imageAt_eq_some_iff hz).mp himage
    exact ⟨e, he, loadEntry_eq_some_iff.mpr ⟨hpath, hdata⟩⟩

theorem get?_loadSystemFiles_plain {z : List ZipEntry} (hz : WellFormed z) {p : Path}
    {data : Bytes} : (loadSystemFiles z).get? (.plain ("system" :: p)) = some data ↔
      imageAt z p = some (.file data ()) := by
  rw [get?_loadSystemFiles hz]
  constructor
  · rintro ⟨q, n, hpath, himage, hdata⟩
    obtain rfl : p = q := (List.cons_inj_right "system").mp hpath
    -- a name without a slash at its end is that of a file
    cases n with
    | dir perm => cases hdata
    | file data' perm =>
      cases hdata
      exact himage
    | link dest => cases hdata
  · exact fun himage => ⟨p, _, rfl, himage, rfl⟩

theorem get?_loadSystemFiles_dir {z : List ZipEntry} (hz : WellFormed z) {p : Path}
    {data : Bytes} : (loadSystemFiles z).get? (.dir ("system" :: p)) = some data ↔
      imageAt z p = some (.dir ()) ∧ data = [] := by
  rw [get?_loadSystemFiles hz]
  constructor
  · rintro ⟨q, n, hpath, himage, hdata⟩
    obtain rfl : p = q := (List.cons_inj_right "system").mp hpath
    -- a name with a slash at its end is that of a directory, loaded with no data
    cases n with
    | dir perm =>
      cases hdata
      exact ⟨himage, rfl⟩
    | file data' perm => cases hdata
    | link dest => cases hdata
  · rintro ⟨himage, rfl⟩
    exact ⟨p, _, rfl, himage, rfl⟩

/-! ## §3 The Classification -/

section Classification

variable (tools : Tools) (opts : Options)

/-- Is a file of the target build sent whole, given the file of the source build? -/
def Whole (fn : FileName) (tf : Bytes) : Option Bytes → Prop
  | none => True
  | some sf => fn ∈ opts.requireVerbatim ∨
    (tf ≠ sf ∧ SendWhole opts tf (tools.diff.computePatch fn tf sf))

theorem digest_ne_iff (a b : Bytes) : tools.sha1.digest a ≠ tools.sha1.digest b ↔ a ≠ b :=
  not_congr tools.sha1.injective.eq_iff

theorem classifyFile_ok {sourceData : Dict FileName Bytes} {acc c : Classified} {fn : FileName}
    {tf : Bytes} (h : classifyFile tools opts sourceData acc fn tf = .ok c) :
    (∀ x, x ∈ c.verbatim ↔ x ∈ acc.verbatim ∨
      (x = (fn, tf) ∧ (sourceData.get? fn = none ∨ fn ∈ opts.requireVerbatim))) ∧
    (∀ x, x ∈ c.diffs ↔ x ∈ acc.diffs ∨ ∃ sf, x = (fn, tf, sf) ∧ sourceData.get? fn = some sf ∧
      fn ∉ opts.requireVerbatim ∧ tf ≠ sf) := by
  unfold classifyFile at h
  cases hsource : sourceData.get? fn with
  | none =>
    rw [hsource] at h
    dsimp only at h
    split_ifs at h
    cases h
    -- a new file is sent whole
    exact ⟨by simp, by simp⟩
  | some sf =>
    rw [hsource] at h
    dsimp only at h
    split_ifs at h with hrequire hprohibit hdiff
    · -- a file that must be sent whole is, whatever the source build has
      cases h
      exact ⟨by simp [hrequire], by simp [hrequire]⟩
    · -- a different file is to be patched
      cases h
      have hne := (digest_ne_iff tools tf sf).mp hdiff
      refine ⟨by simp [hrequire], fun x => ?_⟩
      rw [List.mem_append, List.mem_singleton]
      refine or_congr_right ⟨fun hx => ⟨sf, hx, rfl, hrequire, hne⟩, ?_⟩
      rintro ⟨sf', rfl, hsf, -, -⟩
      cases hsf
      rfl
    · cases h
      -- a file with the same digest is neither sent nor patched
      have heq : tf = sf := by
        by_contra hne
        exact hdiff ((digest_ne_iff tools tf sf).mpr hne)
      refine ⟨by simp [hrequire], fun x => ⟨.inl, ?_⟩⟩
      rintro (hx | ⟨sf', rfl, hsf, -, hne⟩)
      · exact hx
      · cases hsf
        exact absurd heq hne

theorem classify_loop {targetData sourceData : Dict FileName Bytes} {l : List FileName}
    {acc c : Classified}
    (h : l.foldlM (fun acc fn =>
      match targetData.get? fn with
      | none => Except.error PyError.keyError
      | some tf => classifyFile tools opts sourceData acc fn tf) acc = .ok c) :
    (∀ x, x ∈ c.verbatim ↔ x ∈ acc.verbatim ∨ (x.1 ∈ l ∧ targetData.get? x.1 = some x.2 ∧
      (sourceData.get? x.1 = none ∨ x.1 ∈ opts.requireVerbatim))) ∧
    (∀ x, x ∈ c.diffs ↔ x ∈ acc.diffs ∨ (x.1 ∈ l ∧ targetData.get? x.1 = some x.2.1 ∧
      sourceData.get? x.1 = some x.2.2 ∧ x.1 ∉ opts.requireVerbatim ∧ x.2.1 ≠ x.2.2)) := by
  -- file by file, over the loop of the source with its two lists
  induction l generalizing acc with
  | nil =>
    cases h
    exact ⟨by simp, by simp⟩
  | cons fn l ih =>
    rw [List.foldlM_cons] at h
    cases htarget : targetData.get? fn with
    -- the names come from the dict, so this does not happen
    | none =>
      rw [htarget] at h
      cases h
    | some tf =>
      rw [htarget] at h
      dsimp only at h
      cases hfile : classifyFile tools opts sourceData acc fn tf with
      | error e =>
        rw [hfile] at h
        cases h
      | ok acc₁ =>
        rw [hfile] at h
        -- what this file adds, and what the rest adds to that
        obtain ⟨hverbatim, hdiffs⟩ := classifyFile_ok tools opts hfile
        obtain ⟨ihverbatim, ihdiffs⟩ := ih h
        constructor
        · intro x
          rw [ihverbatim, hverbatim, or_assoc, List.mem_cons]
          refine or_congr_right ⟨?_, ?_⟩
          · rintro (⟨rfl, hwhole⟩ | ⟨hl, hx⟩)
            · exact ⟨.inl rfl, htarget, hwhole⟩
            · exact ⟨.inr hl, hx⟩
          · rintro ⟨rfl | hl, hx, hwhole⟩
            · rw [htarget] at hx
              cases hx
              exact .inl ⟨rfl, hwhole⟩
            · exact .inr ⟨hl, hx, hwhole⟩
        · intro x
          rw [ihdiffs, hdiffs, or_assoc, List.mem_cons]
          refine or_congr_right ⟨?_, ?_⟩
          · rintro (⟨sf, rfl, hsource, hrequire, hne⟩ | ⟨hl, hx⟩)
            · exact ⟨.inl rfl, htarget, hsource, hrequire, hne⟩
            · exact ⟨.inr hl, hx⟩
          · rintro ⟨rfl | hl, hx, hsource, hrequire, hne⟩
            · rw [htarget] at hx
              cases hx
              exact .inl ⟨_, rfl, hsource, hrequire, hne⟩
            · exact .inr ⟨hl, hx, hsource, hrequire, hne⟩

theorem mem_sortedKeys {d : Dict FileName Bytes} {fn : FileName} :
    fn ∈ sortedKeys d ↔ ∃ data, d.get? fn = some data := by
  rw [sortedKeys, List.mem_insertionSort, Dict.mem_keys_iff]

variable {tools opts} {target source : List ZipEntry} {plan : Plan}

theorem makePlan_data (h : makePlan tools opts target source = .ok plan) :
    plan.targetData = loadSystemFiles target ∧ plan.sourceData = loadSystemFiles source := by
  obtain ⟨c, -, hplan⟩ := bind_eq_ok_iff.mp h
  cases hplan
  exact ⟨rfl, rfl⟩

/-- The files that are sent whole. -/
theorem mem_verbatimTargets (h : makePlan tools opts target source = .ok plan)
    {fn : FileName} {tf : Bytes} :
    (fn, tf) ∈ plan.verbatimTargets ↔ (loadSystemFiles target).get? fn = some tf ∧
      Whole tools opts fn tf ((loadSystemFiles source).get? fn) := by
  obtain ⟨c, hc, hplan⟩ := bind_eq_ok_iff.mp h
  cases hplan
  obtain ⟨hverbatim, hdiffs⟩ := classify_loop tools opts hc
  have hkey : ∀ {tf}, (loadSystemFiles target).get? fn = some tf →
      fn ∈ sortedKeys (loadSystemFiles target) := fun h => mem_sortedKeys.mpr ⟨_, h⟩
  show (fn, tf) ∈ c.verbatim ++ sentWhole tools opts c.diffs ↔ _
  rw [List.mem_append, hverbatim, sentWhole, List.mem_map]
  simp only [List.mem_filter, hdiffs, decide_eq_true_eq, List.not_mem_nil, false_or, Prod.exists,
    Prod.mk.injEq]
  -- sent whole from the start, or because no patch was worth it
  constructor
  · rintro (⟨-, htarget, hwhole⟩ | ⟨fn', tf', sf, ⟨⟨-, htarget, hsource, -, hne⟩, hsend⟩, rfl, rfl⟩)
    · refine ⟨htarget, ?_⟩
      cases hsource : (loadSystemFiles source).get? fn with
      | none => trivial
      | some sf => exact .inl (hwhole.resolve_left (by simp [hsource]))
    · -- a file that was to be patched, but is sent whole instead
      refine ⟨htarget, ?_⟩
      rw [hsource]
      exact .inr ⟨hne, hsend⟩
  · rintro ⟨htarget, hwhole⟩
    cases hsource : (loadSystemFiles source).get? fn with
    | none => exact .inl ⟨hkey htarget, htarget, .inl rfl⟩
    | some sf =>
      rw [hsource] at hwhole
      by_cases hrequire : fn ∈ opts.requireVerbatim
      · exact .inl ⟨hkey htarget, htarget, .inr hrequire⟩
      · obtain ⟨hne, hsend⟩ := hwhole.resolve_left hrequire
        exact .inr ⟨fn, tf, sf, ⟨⟨hkey htarget, htarget, hsource, hrequire, hne⟩, hsend⟩, rfl, rfl⟩

/-- The files that are patched. -/
theorem mem_patchList (h : makePlan tools opts target source = .ok plan) {e : PatchEntry} :
    e ∈ plan.patchList ↔ (loadSystemFiles target).get? e.name = some e.target ∧
      (loadSystemFiles source).get? e.name = some e.source ∧ e.target ≠ e.source ∧
      ¬ Whole tools opts e.name e.target (some e.source) ∧
      tools.diff.computePatch e.name e.target e.source = some e.patch := by
  obtain ⟨c, hc, hplan⟩ := bind_eq_ok_iff.mp h
  cases hplan
  obtain ⟨-, hdiffs⟩ := classify_loop tools opts hc
  show e ∈ patchList tools opts c.diffs ↔ _
  rw [patchList, List.mem_filterMap]
  simp only [Prod.exists, hdiffs, List.not_mem_nil, false_or]
  -- a difference that could be computed, and is not too large a part of the file
  constructor
  · rintro ⟨fn, tf, sf, ⟨-, htarget, hsource, hrequire, hne⟩, hentry⟩
    split at hentry
    · rename_i d hpatch
      -- there is a patch, and it is small enough
      split_ifs at hentry with hsend
      cases hentry
      refine ⟨htarget, hsource, hne, ?_, hpatch⟩
      rintro (hreq | ⟨-, hwhole⟩)
      · exact hrequire hreq
      · rw [hpatch] at hwhole
        exact hsend hwhole
    · cases hentry
  · obtain ⟨fn, tf, sf, d⟩ := e
    rintro ⟨htarget, hsource, hne, hwhole, hpatch⟩
    rw [Whole, not_or, not_and] at hwhole
    refine ⟨fn, tf, sf, ⟨mem_sortedKeys.mpr ⟨tf, htarget⟩, htarget, hsource, hwhole.1, hne⟩, ?_⟩
    have hsend := hwhole.2 hne
    rw [hpatch] at hsend
    simp only [hpatch, if_neg hsend]

/-- What is patched are files of both builds that differ. -/
theorem file_of_mem_patchList (h : makePlan tools opts target source = .ok plan)
    (ht : WellFormed target) (hs : WellFormed source) {e : PatchEntry} (he : e ∈ plan.patchList) :
    ∃ p, e.name = .plain ("system" :: p) ∧ imageAt target p = some (.file e.target ()) ∧
      imageAt source p = some (.file e.source ()) ∧ e.target ≠ e.source := by
  obtain ⟨htarget, hsource, hne, -, -⟩ := (mem_patchList h).mp he
  cases hslash : e.name.slash with
  | true =>
    -- directories have no contents that could differ
    have hnil {z : List ZipEntry} {data : Bytes} (hz : WellFormed z)
        (hget : (loadSystemFiles z).get? e.name = some data) : data = [] := by
      obtain ⟨p, n, -, -, hdata⟩ := (get?_loadSystemFiles hz).mp hget
      rw [hslash] at hdata
      cases n <;> cases hdata
      rfl
    rw [hnil ht htarget, hnil hs hsource] at hne
    exact absurd rfl hne
  | false =>
    obtain ⟨p, -, hpath, -, -⟩ := (get?_loadSystemFiles ht).mp htarget
    have hname : e.name = .plain ("system" :: p) := by
      rw [FileName.eq_plain hslash, hpath]
    rw [hname] at htarget hsource
    exact ⟨p, hname, (get?_loadSystemFiles_plain ht).mp htarget,
      (get?_loadSystemFiles_plain hs).mp hsource, hne⟩

end Classification

/-! ## §4 Symbolic Links -/

section Symlinks

variable {z target source : List ZipEntry}

theorem symlinkOf_eq_some_iff {e : ZipEntry} {s : LinkDest String × Path} :
    symlinkOf e = some s ↔ s.2 = "system" :: e.path ∧ e.node = .link s.1 := by
  obtain ⟨dest, link⟩ := s
  cases e with
  | dir path => simp [symlinkOf, ZipEntry.node]
  | file path data => simp [symlinkOf, ZipEntry.node]
  | symlink path dest' =>
    simp only [symlinkOf, ZipEntry.node, ZipEntry.path, Option.some.injEq, Prod.mk.injEq,
      Node.link.injEq]
    rw [and_comm, eq_comm (a := "system" :: path)]

theorem mem_symlinksOf (hz : WellFormed z) {dest : LinkDest String} {link : Path} :
    (dest, link) ∈ symlinksOf z ↔
      ∃ p, link = "system" :: p ∧ imageAt z p = some (.link dest) := by
  rw [symlinksOf, List.mem_insertionSort, List.mem_filterMap]
  constructor
  · rintro ⟨e, he, hlink⟩
    obtain ⟨hpath, hnode⟩ := symlinkOf_eq_some_iff.mp hlink
    exact ⟨e.path, hpath, (imageAt_eq_some_iff hz).mpr ⟨e, he, rfl, hnode⟩⟩
  · rintro ⟨p, rfl, himage⟩
    exact ⟨_, (imageAt_link hz).mp himage, rfl⟩

theorem mem_symlinksOf_cons (hz : WellFormed z) {dest : LinkDest String} {p : Path} :
    (dest, "system" :: p) ∈ symlinksOf z ↔ imageAt z p = some (.link dest) := by
  rw [mem_symlinksOf hz]
  constructor
  · rintro ⟨q, hq, himage⟩
    rw [(List.cons_inj_right "system").mp hq]
    exact himage
  · exact fun h => ⟨p, rfl, h⟩

/-- Each link is listed once. -/
theorem nodup_symlinksOf (hz : WellFormed z) : ((symlinksOf z).map Prod.snd).Nodup := by
  have hperm := (List.perm_insertionSort symlinkLe (z.filterMap symlinkOf)).map Prod.snd
  rw [symlinksOf, hperm.nodup_iff]
  have hpaths := hz.unique
  rw [List.Nodup, List.pairwise_map] at hpaths ⊢
  rw [List.pairwise_filterMap]
  refine hpaths.imp fun {e e'} hne x hx y hy heq => hne ?_
  have hpath := (symlinkOf_eq_some_iff.mp hx).1
  rw [heq, (symlinkOf_eq_some_iff.mp hy).1] at hpath
  exact (List.cons_inj_right "system").mp hpath.symm

/-- `target_symlinks_d` and `source_symlinks_d` -/
theorem get?_symlinks (hz : WellFormed z) {p : Path} {dest : LinkDest String} :
    (Dict.ofList ((symlinksOf z).map fun s => (s.2, s.1))).get? ("system" :: p) = some dest ↔
      imageAt z p = some (.link dest) := by
  -- no path has two links, so the dict loses none of them
  have hnodup : (((symlinksOf z).map fun s => (s.2, s.1)).map Prod.fst).Nodup := by
    rw [List.map_map]
    exact nodup_symlinksOf hz
  rw [Dict.get?_ofList hnodup, ← mem_symlinksOf_cons hz, List.mem_map]
  constructor
  · rintro ⟨s, hs, heq⟩
    obtain ⟨hlink, hdest⟩ := Prod.mk.inj heq
    rw [← hlink, ← hdest]
    exact hs
  · exact fun h => ⟨_, h, rfl⟩

/-- Is there a link at a path of the build? -/
def LinkIn (z : List ZipEntry) (p : Path) : Prop := ∃ dest, imageAt z p = some (.link dest)

/-- The links that are deleted: what is a link in the source build only. -/
theorem mem_symlinksToDelete (hs : WellFormed source) (ht : WellFormed target) {fn : FileName} :
    fn ∈ symlinksToDelete (symlinksOf source) (symlinksOf target) ↔
      ∃ p, fn = .plain ("system" :: p) ∧ LinkIn source p ∧ ¬ LinkIn target p := by
  -- the keys of the dict are the paths of the target's links
  have hkeys : ∀ p, ("system" :: p) ∈
      (Dict.ofList ((symlinksOf target).map fun s => (s.2, s.1))).keys ↔ LinkIn target p := by
    intro p
    rw [Dict.mem_keys_iff]
    exact exists_congr fun dest => get?_symlinks ht
  simp only [symlinksToDelete, List.mem_map, List.mem_filter, decide_not, Bool.not_eq_true',
    decide_eq_false_iff_not, Prod.exists]
  constructor
  · rintro ⟨dest, link, ⟨hmem, hnot⟩, rfl⟩
    obtain ⟨p, rfl, himage⟩ := (mem_symlinksOf hs).mp hmem
    exact ⟨p, rfl, ⟨dest, himage⟩, fun h => hnot ((hkeys p).mpr h)⟩
  · rintro ⟨p, rfl, ⟨dest, himage⟩, hnot⟩
    exact ⟨dest, _, ⟨(mem_symlinksOf_cons hs).mpr himage, fun h => hnot ((hkeys p).mp h)⟩, rfl⟩

/-- The links that are created: what the source build does not have as it is. -/
theorem mem_symlinksToCreate (hs : WellFormed source) (ht : WellFormed target)
    {s : LinkDest String × Path} :
    s ∈ symlinksToCreate (symlinksOf source) (symlinksOf target) ↔
      ∃ p, s.2 = "system" :: p ∧ imageAt target p = some (.link s.1) ∧
        imageAt source p ≠ some (.link s.1) := by
  obtain ⟨dest, link⟩ := s
  simp only [symlinksToCreate, List.mem_filter, decide_eq_true_eq]
  -- a link with another destination is made anew
  constructor
  · rintro ⟨hmem, hne⟩
    obtain ⟨p, rfl, himage⟩ := (mem_symlinksOf ht).mp hmem
    exact ⟨p, rfl, himage, fun h => hne ((get?_symlinks hs).mpr h)⟩
  · rintro ⟨p, rfl, himage, hne⟩
    exact ⟨(mem_symlinksOf_cons ht).mpr himage, fun h => hne ((get?_symlinks hs).mp h)⟩

/-- The links that are created have distinct paths. -/
theorem nodup_symlinksToCreate (ht : WellFormed target)
    (sourceSymlinks : List (LinkDest String × Path)) :
    ((symlinksToCreate sourceSymlinks (symlinksOf target)).map Prod.snd).Nodup :=
  (nodup_symlinksOf ht).sublist (List.Sublist.map _ List.filter_sublist)

end Symlinks

/-! ## §5 The Paths of the Permission Commands -/

/-- What the Items of a build may be called: the names above and at its files and
directories. -/
def ItemName (z : List ZipEntry) (q : Path) : Prop :=
  q = ["system"] ∨ ∃ e ∈ z, (loadEntry e).isSome ∧ q ≠ [] ∧ q <+: e.devicePath

/-- The children of every Item satisfy `G`. -/
def ChildrenAll (G : Path → Prop) (items : Items) : Prop :=
  ∀ name r, items.get? name = some r → ∀ child ∈ r.children, G child

section Items

variable {G : Path → Prop} {items items' : Items}

theorem ChildrenAll.set (h : ChildrenAll G items) {name : Path} {r : ItemRecord}
    (hr : ∀ child ∈ r.children, G child) : ChildrenAll G (items.set name r) := by
  intro k r' hget child hchild
  rw [Dict.get?_set] at hget
  split_ifs at hget
  · cases hget
    exact hr child hchild
  · exact h k r' hget child hchild

theorem ChildrenAll.getItemRev (h : ChildrenAll G items) {l : List String} {dir : Bool}
    (hG : ∀ q, q ≠ [] → q <+: l.reverse → G q)
    (hget : getItemRev items l dir = .ok items') : ChildrenAll G items' := by
  induction l generalizing items items' dir with
  | nil =>
    rw [Ota.getItemRev] at hget
    cases hget
    split_ifs
    · exact h
    · exact h.set (fun _ hchild => by cases hchild)
  | cons x parent ih =>
    rw [Ota.getItemRev] at hget
    split_ifs at hget
    · -- an Item that is there already is returned as it is
      cases hget
      exact h
    · obtain ⟨items₁, hparent, hget⟩ := bind_eq_ok_iff.mp hget
      obtain ⟨items₂, happend, hget⟩ := bind_eq_ok_iff.mp hget
      cases hget
      have h₁ : ChildrenAll G items₁ := by
        refine ih h (fun q hq hpre => hG q hq ?_) hparent
        rw [List.reverse_cons]
        exact hpre.trans (List.prefix_append _ _)
      have h₂ : ChildrenAll G items₂ := by
        unfold appendChild at happend
        split at happend
        · cases happend
        · rename_i r hr
          split_ifs at happend
          cases happend
          apply h₁.set
          intro child hchild
          -- the parent gets the new Item for a child
          rcases List.mem_append.mp hchild with hold | hnew
          · exact h₁ _ r hr child hold
          · rw [List.mem_singleton.mp hnew]
            exact hG _ (by simp) List.prefix_rfl
      exact h₂.set (fun _ hchild => by cases hchild)

theorem ChildrenAll.copySystemItems (h : ChildrenAll G items) {z : List ZipEntry}
    (hG : ∀ q, ItemName z q → G q) (hcopy : copySystemItems items z = .ok items') :
    ChildrenAll G items' := by
  -- entry by entry: each makes items for itself and for what lies above it
  induction z generalizing items with
  | nil =>
    cases hcopy
    exact h
  | cons e z ih =>
    have hrest : ∀ q, ItemName z q → G q := by
      rintro q (rfl | ⟨e', he', hload, hq, hpre⟩)
      · exact hG _ (.inl rfl)
      · exact hG _ (.inr ⟨e', List.mem_cons_of_mem e he', hload, hq, hpre⟩)
    have hself : (loadEntry e).isSome → ∀ q, q ≠ [] → q <+: e.devicePath.reverse.reverse → G q := by
      intro hload q hq hpre
      rw [List.reverse_reverse] at hpre
      exact hG q (.inr ⟨e, List.mem_cons_self, hload, hq, hpre⟩)
    cases e with
    | dir path =>
      obtain ⟨items₁, hget, hcopy⟩ := bind_eq_ok_iff.mp hcopy
      exact ih (h.getItemRev (hself rfl) hget) hrest hcopy
    | file path data =>
      obtain ⟨items₁, hget, hcopy⟩ := bind_eq_ok_iff.mp hcopy
      exact ih (h.getItemRev (hself rfl) hget) hrest hcopy
    | symlink path dest => exact ih h hrest hcopy

theorem ChildrenAll.overrideMetadata (h : ChildrenAll G items) (name : Path) (perm : Perm) :
    ChildrenAll G (overrideMetadata items name perm) := by
  unfold Ota.overrideMetadata
  split
  · exact h
  · rename_i r hr
    exact h.set fun child hchild => h _ r hr child hchild

theorem ChildrenAll.applyMetadata (h : ChildrenAll G items) (line : MetadataLine) :
    ChildrenAll G (applyMetadata items line) := by
  unfold Ota.applyMetadata
  split
  · exact h
  · rename_i r hr
    refine h.set fun child hchild => h _ r hr child ?_
    unfold sortChildren at hchild
    split at hchild
    · exact (List.mem_insertionSort _).mp hchild
    · exact hchild

theorem ChildrenAll.getMetadata (h : ChildrenAll G items) (lines : List MetadataLine) :
    ChildrenAll G (getMetadata items lines) := by
  have hlines : ChildrenAll G (lines.foldl Ota.applyMetadata items) := by
    induction lines generalizing items with
    | nil => exact h
    | cons line lines ih => exact ih (h.applyMetadata line)
  exact (hlines.overrideMetadata _ _).overrideMetadata _ _

/-- The names of a tree of Items. -/
theorem ChildrenAll.itemTree (h : ChildrenAll G items) {fuel : Nat} {name : Path} {item : Item}
    (hname : G name) (htree : itemTree items fuel name = .ok item) :
    ∀ j ∈ item.subitems, G j.name := by
  -- along the recursion into the children
  induction fuel generalizing name item with
  | zero => cases htree
  | succ fuel ih =>
    rw [Ota.itemTree] at htree
    cases hget : items.get? name with
    | none =>
      rw [hget] at htree
      cases htree
    | some r =>
      obtain ⟨dir, perm, children⟩ := r
      rw [hget] at htree
      cases perm with
      -- an Item whose metadata was never set stops the script
      | none => cases htree
      | some perm =>
        cases dir with
        | false =>
          cases htree
          intro j hj
          obtain rfl := List.mem_singleton.mp hj
          exact hname
        | true =>
          obtain ⟨l, hl, htree⟩ := bind_eq_ok_iff.mp htree
          cases htree
          intro j hj
          rcases Item.mem_subitems_dir.mp hj with rfl | ⟨k, hk, hjk⟩
          · exact hname
          · obtain ⟨child, hchild, htree⟩ := mapM_ok hl k hk
            exact ih (h name _ hget child hchild) htree j hjk

end Items

/-- The names `MakeRecoveryPatch` gives Items to, below `system`. -/
def recoveryPaths : List Path := [["recovery-from-boot.p"], ["etc"], ["etc", "install-recovery.sh"]]

/-- The Items that exist before `CopySystemFiles`. -/
theorem childrenAll_recoveryItems {G : Path → Prop} (hroot : G ["system"])
    (hG : ∀ p ∈ recoveryPaths, G ("system" :: p)) {items : Items}
    (h : recoveryItems true = .ok items) : ChildrenAll G items := by
  -- an item is made for each path and for what lies above it
  have hpre (name q : Path) (hname : "system" :: name ∈ recoveryPaths.map ("system" :: ·))
      (habove : ∀ r, r <+: name → r = [] ∨ r ∈ recoveryPaths) (hq : q ≠ [])
      (hpre : q <+: ("system" :: name).reverse.reverse) : G q := by
    rw [List.reverse_reverse] at hpre
    obtain ⟨r, rfl, hr⟩ := (List.prefix_cons_iff.mp hpre).resolve_left hq
    rcases habove r hr with rfl | hr
    · exact hroot
    · exact hG r hr
  have hempty : ChildrenAll G Dict.empty := by
    intro name r hget
    cases hget
  obtain ⟨items₁, hitems₁, h⟩ := bind_eq_ok_iff.mp h
  refine (hempty.getItemRev (hpre ["recovery-from-boot.p"] · (by decide) ?_) hitems₁).getItemRev
    (hpre ["etc", "install-recovery.sh"] · (by decide) ?_) h
  · intro r hr
    rcases List.prefix_cons_iff.mp hr with rfl | ⟨t, rfl, ht⟩
    · exact .inl rfl
    · rw [List.prefix_nil.mp ht]
      exact .inr (by decide)
  · intro r hr
    rcases List.prefix_cons_iff.mp hr with rfl | ⟨t, rfl, ht⟩
    · exact .inl rfl
    · rcases List.prefix_cons_iff.mp ht with rfl | ⟨t', rfl, ht'⟩
      · exact .inr (by decide)
      · rw [List.prefix_nil.mp ht']
        exact .inr (by decide)

/-- Permission commands name the root, a file or directory of the target build, or an Item
of `MakeRecoveryPatch`. -/
theorem permPath?_of_updating {order : DictOrder} {target : Build} {u : Bool}
    {script : List Cmd} {items : Items} (ht : WellFormed target.system)
    (h : permissionCmds order target u = .ok (script, items)) :
    ∀ c ∈ script, ∃ p, c.permPath? = some ("system" :: p) ∧
      (p = [] ∨ (∃ n, imageAt target.system p = some n ∧ n.isLink = false) ∨
        (u = true ∧ p ∈ recoveryPaths)) := by
  obtain ⟨items₀, hitems₀, h⟩ := bind_eq_ok_iff.mp h
  obtain ⟨⟨links, items₁⟩, hcopy, h⟩ := bind_eq_ok_iff.mp h
  obtain ⟨items₁', hitems₁, hcopy⟩ := bind_eq_ok_iff.mp hcopy
  cases hcopy
  obtain ⟨script', hset, h⟩ := bind_eq_ok_iff.mp h
  cases h
  obtain ⟨items₂, hitems₂, hset⟩ := bind_eq_ok_iff.mp hset
  obtain ⟨system, hsystem, hset⟩ := bind_eq_ok_iff.mp hset
  -- whatever is a child is named by the build, or by `MakeRecoveryPatch`
  let G : Path → Prop := fun q => ItemName target.system q ∨
    (u = true ∧ ∃ p ∈ recoveryPaths, q = "system" :: p)
  have h₀ : ChildrenAll G items₀ := by
    cases u with
    | false =>
      cases hitems₀
      intro name r hget
      cases hget
    | true =>
      exact childrenAll_recoveryItems (.inl (.inl rfl)) (fun p hp => .inr ⟨rfl, p, hp, rfl⟩) hitems₀
  have h₁ := h₀.copySystemItems (fun _ hq => .inl hq) hitems₁
  have h₂ := (h₁.getMetadata target.metadata).getItemRev (by
    intro q hq hpre
    refine .inl (.inl ?_)
    rcases List.prefix_cons_iff.mp hpre with rfl | ⟨t, rfl, ht⟩
    · exact absurd rfl hq
    · rw [List.prefix_nil.mp ht]) hitems₂
  -- so every item of the tree has one of these names
  have hnames := h₂.itemTree (.inl (.inl rfl)) hsystem
  intro c hc
  split at hset
  · cases hset
  · rename_i cmds hcmds
    cases hset
    unfold setPermissions at hcmds
    split_ifs at hcmds
    cases hcmds
    obtain ⟨j, hj, hpath⟩ := permPath?_recurse _ _ _ c hc
    rw [hpath]
    rcases hnames j hj with (hroot | ⟨e, he, hload, hne, hpre⟩) | ⟨hu, p, hp, hname⟩
    · exact ⟨[], by rw [hroot], .inl rfl⟩
    · obtain ⟨p, hp, hpre⟩ := (List.prefix_cons_iff.mp hpre).resolve_left hne
      refine ⟨p, by rw [hp], ?_⟩
      by_cases hnil : p = []
      · exact .inl hnil
      · refine .inr (.inl ?_)
        by_cases heq : p = e.path
        · refine ⟨e.node, (imageAt_eq_some_iff ht).mpr ⟨e, he, heq.symm, rfl⟩, ?_⟩
          cases e <;> first | rfl | cases hload
        · exact ⟨.dir (), (imageAt_dir ht).mpr (ht.above e he p hnil hpre heq), rfl⟩
    · exact ⟨p, by rw [hname], .inr (.inr ⟨hu, hp⟩)⟩

/-- Permission commands name the root, or a file or directory of the target build. -/
theorem permPath?_permissionCmds {order : DictOrder} {target : Build} {script : List Cmd}
    {items : Items} (ht : WellFormed target.system)
    (h : permissionCmds order target false = .ok (script, items)) :
    ∀ c ∈ script, ∃ p, c.permPath? = some ("system" :: p) ∧
      (p = [] ∨ ∃ n, imageAt target.system p = some n ∧ n.isLink = false) := by
  intro c hc
  obtain ⟨p, hpath, hp⟩ := permPath?_of_updating ht h c hc
  refine ⟨p, hpath, hp.imp_right fun hp => hp.resolve_right ?_⟩
  rintro ⟨hu, -⟩
  cases hu

end OdroidU2.Ota
