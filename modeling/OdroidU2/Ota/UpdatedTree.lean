import OdroidU2.Ota.IncrementalScript

/-!
# The Tree of a Device That Is Updated

What an incremental script deletes is worked out from names, but the device follows its
symbolic links.  As long as only names are deleted, and files patched, all directories of the
source build are there; once the links of the source build alone are gone, nothing is in the
way of the directories of the target build.

- `Shrunk` — the tree while names are deleted, and files are patched
- `Pruned` — the tree after the first deletion, with the unchanged files
- `Settling` — the tree once no link is in the way of the target build
- `Pruned.settling` — how the one becomes the other
-/

namespace OdroidU2.Ota

open OdroidU2.Foundations FileTree

/-! ## §1 Unchanged Files -/

/-- A device tree with a build in `/system`, whatever else there is. -/
structure HoldsBuild (build : Build) (fs : DeviceTree) : Prop where
  tree : fs.Treelike
  root : fs.DirAt ["system"]
  system : ∀ p, p ≠ [] → (fs ("system" :: p)).map Node.contents = imageAt build.system p

/-- A regular file with the same path and the same sha1 in both builds. -/
def Unchanged (tools : Tools) (target source : Build) (p : Path) (data : Bytes) : Prop :=
  imageAt source.system p = some (.file data ()) ∧ ∃ tf,
    imageAt target.system p = some (.file tf ()) ∧ tools.sha1.digest tf = tools.sha1.digest data

section Unchanged

variable {tools : Tools} {target source : Build} {p : Path} {data : Bytes}

theorem Unchanged.inTarget (h : Unchanged tools target source p data) :
    imageAt target.system p = some (.file data ()) := by
  obtain ⟨-, tf, htarget, hdigest⟩ := h
  rw [htarget, tools.sha1.injective hdigest]

/-- A file is not at the root of the zip. -/
theorem Unchanged.ne_nil (hs : WellFormed source.system)
    (h : Unchanged tools target source p data) : p ≠ [] :=
  ne_nil_of_leaf hs h.1 rfl

/-- A file that differs is not unchanged. -/
theorem not_unchanged_of_ne {tf sf : Bytes}
    (htarget : imageAt target.system p = some (.file tf ()))
    (hsource : imageAt source.system p = some (.file sf ())) (hne : tf ≠ sf) :
    ¬Unchanged tools target source p data := by
  intro hun
  rw [hun.inTarget] at htarget
  rw [hun.1] at hsource
  cases htarget
  cases hsource
  exact hne rfl

end Unchanged

/-! ## §2 Deleting on a Shrunk Tree -/

/-- What is left of the source build has its kind, and all its directories are left. -/
structure Shrunk (source : Build) (fs : DeviceTree) : Prop where
  tree : fs.Treelike
  dirs : ∀ a, DirOf source a → fs.DirAt a
  old : ∀ p, p ≠ [] → ∀ n, fs ("system" :: p) = some n → ∃ m, imageAt source.system p = some m ∧
    m.isDir = n.isDir ∧ m.isLink = n.isLink

/-- Every unchanged file is there. -/
def Keeps (tools : Tools) (target source : Build) (fs : DeviceTree) : Prop :=
  ∀ p data, Unchanged tools target source p data →
    (fs ("system" :: p)).map Node.contents = some (.file data ())

section Deleting

variable {tools : Tools} {target source : Build} {fs : DeviceTree} {p : Path}

theorem HoldsBuild.shrunk (h : HoldsBuild source fs) : Shrunk source fs where
  tree := h.tree
  dirs := by
    rintro a ⟨p, rfl, hp⟩
    -- a directory of the build is one on the device
    by_cases hnil : p = []
    · rw [hnil]
      exact h.root
    · right
      have hsystem := h.system p hnil
      rw [hp.resolve_left hnil, Option.map_eq_some_iff] at hsystem
      obtain ⟨n, hn, hdir⟩ := hsystem
      rw [hn, Option.any_some, ← n.isDir_contents, hdir]
      rfl
  old := by
    intro p hp n hn
    have hsystem := h.system p hp
    rw [hn, Option.map_some] at hsystem
    exact ⟨n.contents, hsystem.symm, n.isDir_contents, n.isLink_contents⟩

theorem HoldsBuild.keeps (hs : WellFormed source.system) (h : HoldsBuild source fs) :
    Keeps tools target source fs := by
  intro p data hp
  rw [h.system p (hp.ne_nil hs), hp.1]

/-- What is there after a name is deleted was there before. -/
theorem deleteFile_apply (fs : DeviceTree) (fn : FileName) (q : Path) :
    deleteFile fs fn q = none ∨ deleteFile fs fn q = fs q := by
  rw [deleteFile]
  split
  · exact .inr rfl
  · exact unlink_apply fs fn.path q

theorem foldl_deleteFile_none {q : Path} (h : fs q = none) (names : List FileName) :
    names.foldl deleteFile fs q = none := by
  induction names generalizing fs with
  | nil => exact h
  | cons fn names ih =>
    apply ih
    rcases deleteFile_apply fs fn q with hnone | hsame
    · exact hnone
    · rw [hsame, h]

/-- A name leads somewhere: what is there and no directory is gone. -/
theorem deleteFile_of_resolveParent {fn : FileName} {q : Path} (hslash : fn.slash = false)
    (hq : fs.resolveParent fn.path = some q) (hleaf : (fs q).any Node.isDir = false) :
    deleteFile fs fn q = none := by
  rw [deleteFile, if_neg (by simp [hslash]), unlink, hq]
  dsimp only
  rw [if_neg (by simp [hleaf]), Function.update_self]

theorem Shrunk.deleteFile (h : Shrunk source fs) (fn : FileName) :
    Shrunk source (deleteFile fs fn) := by
  refine ⟨?_, fun a ha => ?_, fun p hp n hn => h.old p hp n ?_⟩
  · rw [Ota.deleteFile]
    split
    · exact h.tree
    · exact h.tree.unlink fn.path
  · rw [Ota.deleteFile]
    split
    · exact h.dirs a ha
    · exact (h.dirs a ha).unlink fn.path
  · -- a delete takes nodes away and changes none
    rcases deleteFile_apply fs fn ("system" :: p) with hnone | hsame
    · rw [hnone] at hn
      cases hn
    · rw [← hsame, hn]

theorem Shrunk.foldl (h : Shrunk source fs) (names : List FileName) :
    Shrunk source (names.foldl Ota.deleteFile fs) := by
  induction names generalizing fs with
  | nil => exact h
  | cons fn names ih => exact ih (h.deleteFile fn)

theorem Shrunk.sound (h : Shrunk source fs) : SoundTree (DirOf source) fs :=
  ⟨h.tree, fun a ha => (h.dirs a ha).freeAt⟩

/-- A path below directories of the source build leads to itself. -/
theorem Shrunk.resolveParent (h : Shrunk source fs)
    (hbelow : Below (DirOf source) ("system" :: p)) :
    fs.resolveParent ("system" :: p) = some ("system" :: p) := by
  apply resolveParent_of_dirAt (List.cons_ne_nil _ _)
  intro q hq hne
  by_cases hnil : q = []
  · exact .inl hnil
  · exact h.dirs q (hbelow q hnil hq hne)

/-- What the source build has no directory at is no directory. -/
theorem Shrunk.leaf (h : Shrunk source fs) (hp : p ≠ [])
    (hnot : imageAt source.system p ≠ some (.dir ())) :
    (fs ("system" :: p)).any Node.isDir = false := by
  cases hn : fs ("system" :: p) with
  | none => rfl
  | some n =>
    obtain ⟨m, hm, hdir, -⟩ := h.old p hp n hn
    rw [Option.any_some, ← hdir]
    -- what is left at a path is of the kind the build has there
    cases m with
    | dir perm => exact absurd hm hnot
    | file data perm => rfl
    | link dest => rfl

/-- A name that is deleted is gone in the end. -/
theorem Shrunk.gone_of_mem (h : Shrunk source fs) {names : List FileName}
    (hmem : .plain ("system" :: p) ∈ names) (hbelow : Below (DirOf source) ("system" :: p))
    (hp : p ≠ []) (hnot : imageAt source.system p ≠ some (.dir ())) :
    names.foldl Ota.deleteFile fs ("system" :: p) = none := by
  obtain ⟨n₁, n₂, rfl⟩ := List.mem_iff_append.mp hmem
  have hmid := h.foldl n₁
  rw [List.foldl_append, List.foldl_cons]
  apply foldl_deleteFile_none
  exact deleteFile_of_resolveParent rfl (hmid.resolveParent hbelow) (hmid.leaf hp hnot)

/-- A name that leads to no unchanged file may be deleted. -/
theorem Keeps.deleteFile (h : Keeps tools target source fs) {fn : FileName}
    (hspares : fn.slash = false → ∀ p data, fs.resolveParent fn.path = some ("system" :: p) →
      ¬Unchanged tools target source p data) :
    Keeps tools target source (deleteFile fs fn) := by
  intro p data hp
  rw [Ota.deleteFile]
  split
  · exact h p data hp
  · next hslash =>
    -- the name resolves to nothing, or to a path that is none of those to be kept
    rcases unlink_cases fs fn.path with hsame | ⟨q, hq, -, hupdate⟩
    · rw [hsame]
      exact h p data hp
    · have hne : "system" :: p ≠ q := by
        rintro rfl
        exact hspares (Bool.not_eq_true _ |>.mp hslash) p data hq hp
      rw [hupdate, Function.update_of_ne hne]
      exact h p data hp

theorem Keeps.foldl (h : Keeps tools target source fs) {names : List FileName}
    (hspares : ∀ n₁ fn n₂, names = n₁ ++ fn :: n₂ → fn.slash = false → ∀ p data,
      (n₁.foldl Ota.deleteFile fs).resolveParent fn.path = some ("system" :: p) →
        ¬Unchanged tools target source p data) :
    Keeps tools target source (names.foldl Ota.deleteFile fs) := by
  induction names generalizing fs with
  | nil => exact h
  | cons fn names ih =>
    apply ih (h.deleteFile (hspares [] fn names rfl))
    intro n₁ fn' n₂ hnames
    exact hspares (fn :: n₁) fn' n₂ (by rw [hnames, List.cons_append])

theorem Keeps.update (h : Keeps tools target source fs) {q : Path} (n : Place)
    (hne : ∀ data, ¬Unchanged tools target source p data) (hq : q = "system" :: p) :
    Keeps tools target source (Function.update fs q n) := by
  intro r data hr
  have hrq : "system" :: r ≠ q := by
    rintro rfl
    rw [(List.cons_inj_right "system").mp hq] at hr
    exact hne data hr
  rw [Function.update_of_ne hrq]
  exact h r data hr

/-- On a tree with directories above it, an unchanged file is found. -/
theorem Keeps.readFile (htree : fs.Treelike) (h : Keeps tools target source fs) {data : Bytes}
    (hp : Unchanged tools target source p data) :
    ∃ perm, readFile fs ("system" :: p) = some (data, perm) := by
  obtain ⟨n, hn, hfile⟩ := Option.map_eq_some_iff.mp (h p data hp)
  -- a file whose contents are kept is read where it is
  cases n with
  | dir perm => cases hfile
  | link dest => cases hfile
  | file data' perm =>
    cases hfile
    have hsome : fs ("system" :: p) ≠ none := by simp [hn]
    have hlookup := htree.lookup (htree.plain hsome) fun m hm => by
      rw [hn] at hm
      cases hm
      rfl
    exact ⟨perm, by rw [Ota.readFile, hlookup, hn]⟩

/-- What is gone is not found. -/
theorem Shrunk.readFile_none (h : Shrunk source fs)
    (hbelow : Below (DirOf source) ("system" :: p)) (hnone : fs ("system" :: p) = none) :
    readFile fs ("system" :: p) = none := by
  have hlookup := h.tree.lookup (h.sound.plain hbelow) fun m hm => by
    rw [hnone] at hm
    cases hm
  rw [Ota.readFile, hlookup, hnone]

/-- A name that the source build has leads to itself. -/
theorem Shrunk.leads_self (hs : WellFormed source.system) (h : Shrunk source fs)
    {fn : FileName} {data : Bytes}
    (hfn : (loadSystemFiles source.system).get? fn = some data) (hslash : fn.slash = false)
    (hq : fs.resolveParent fn.path = some ("system" :: p)) : fn = .plain ("system" :: p) := by
  obtain ⟨p', n, hpath, himage, -⟩ := (get?_loadSystemFiles hs).mp hfn
  rw [hpath, h.resolveParent (below_dirOf hs (by simp [himage])), Option.some.injEq] at hq
  rw [FileName.eq_plain hslash, hpath, hq]

end Deleting

/-! ## §3 Patching -/

section Patching

variable {rec : Recovery} {pkg : Package} {tools : Tools} {target source : Build}
variable {fs fs' : DeviceTree} {p q : Path}

/-- A patch that succeeds has found a file, and writes that file alone. -/
theorem execTree_applyPatch {size : Nat} {tgtSha1 srcSha1 : Digest} {patch : FileName}
    (ht : fs.Treelike) (hplain : fs.Plain q) (hlink : fs.NoLinkAt q) (hq : q ≠ [])
    (h : execTree rec pkg fs (.applyPatch (.file q) size tgtSha1 srcSha1 patch) = some fs') :
    ∃ data perm new, fs q = some (.file data perm) ∧
      fs' = Function.update fs q (some (.file new perm)) := by
  obtain ⟨⟨data, perm⟩, hread, h⟩ := Option.bind_eq_some_iff.mp h
  obtain ⟨new, -, h⟩ := Option.bind_eq_some_iff.mp h
  have hnode : fs q = some (.file data perm) := by
    rw [Ota.readFile, ht.lookup hplain hlink] at hread
    split at hread
    · next hfile =>
      cases hread
      exact hfile
    · cases hread
  refine ⟨data, perm, new, hnode, ?_⟩
  -- a file that is up to date already is left alone; any other is replaced
  by_cases hsame : new = data
  · rw [if_pos hsame] at h
    rw [hsame, ← hnode, Function.update_eq_self]
    exact (Option.some.inj h).symm
  · rw [if_neg hsame] at h
    have hparent : fs.resolveParent q = some q :=
      resolveParent_of_dirAt hq fun r hr hne => ht.dirAt (by simp [hnode]) hr hne
    rw [replaceFile, hparent] at h
    exact (Option.some.inj h).symm

/-- A file in place of a file. -/
theorem Shrunk.update_file (h : Shrunk source fs) {data new : Bytes} {perm : Perm}
    (hfile : fs q = some (.file data perm)) :
    Shrunk source (Function.update fs q (some (.file new perm))) := by
  -- a patched file is still a file
  have hkind (r : Path) : (Function.update fs q (some (.file new perm)) r).map Node.isDir =
      (fs r).map Node.isDir := by
    by_cases hr : r = q
    · rw [hr, Function.update_self, hfile]
      rfl
    · rw [Function.update_of_ne hr]
  refine ⟨h.tree.of_same hkind, fun a ha => (h.dirs a ha).imp_right fun hdir => ?_,
    fun r hr n hn => ?_⟩
  · have hne : a ≠ q := by
      rintro rfl
      rw [hfile] at hdir
      cases hdir
    rw [Function.update_of_ne hne]
    exact hdir
  · by_cases hrq : "system" :: r = q
    · rw [hrq, Function.update_self] at hn
      cases hn
      exact h.old r hr (.file data perm) (hrq ▸ hfile)
    · rw [Function.update_of_ne hrq] at hn
      exact h.old r hr n hn

/-- Where the source build has a file, no link is left. -/
theorem Shrunk.noLinkAt (h : Shrunk source fs) (hp : p ≠ []) (hnot : ¬LinkIn source.system p) :
    fs.NoLinkAt ("system" :: p) := by
  intro n hn
  obtain ⟨m, hm, -, hlink⟩ := h.old p hp n hn
  rw [← hlink]
  cases m with
  | dir perm => rfl
  | file data perm => rfl
  | link dest => exact absurd ⟨dest, hm⟩ hnot

end Patching

/-! ## §4 Settling -/

/-- Only directories are in the way of the target build's directories, no link is in the
way of its files, and the unchanged files are there. -/
structure Settling (tools : Tools) (target source : Build) (fs : DeviceTree) : Prop where
  sound : SoundTree (DirOf target) fs
  noLink : ∀ p data, imageAt target.system p = some (.file data ()) →
    fs.NoLinkAt ("system" :: p)
  keeps : Keeps tools target source fs

section Settling

variable {rec : Recovery} {pkg : Package} {tools : Tools} {target source : Build}
variable {fs fs' : DeviceTree} {p : Path}

/-- Permissions do not matter. -/
theorem Settling.of_contents (h : Settling tools target source fs)
    (hsame : ∀ q, (fs' q).map Node.contents = (fs q).map Node.contents) :
    Settling tools target source fs' := by
  -- kinds are part of the contents
  have hkind (f : Node String Bytes Unit → Bool) (g : Node String Bytes Perm → Bool)
      (hfg : ∀ n, f n.contents = g n) (q : Path) : (fs' q).map g = (fs q).map g := by
    have hmap := congrArg (Option.map f) (hsame q)
    rw [Option.map_map, Option.map_map, funext hfg (f := f ∘ Node.contents)] at hmap
    exact hmap
  refine ⟨h.sound.of_same (hkind _ _ Node.isDir_contents), fun p data hp n hn => ?_,
    fun p data hp => (hsame _).trans (h.keeps p data hp)⟩
  have hlink := hkind _ _ Node.isLink_contents ("system" :: p)
  rw [Option.mem_def.mp hn, Option.map_some] at hlink
  obtain ⟨m, hm, heq⟩ := Option.map_eq_some_iff.mp hlink.symm
  rw [← heq]
  exact h.noLink p data hp m hm

/-- Directories where the target build has them. -/
theorem Settling.withDirs (h : Settling tools target source fs) (perm : Perm) {a : Path}
    (ha : ∀ b, b ≠ [] → b <+: a → DirOf target b) :
    Settling tools target source (fs.withDirs perm a) := by
  refine ⟨h.sound.withDirs perm ha, fun p data hp n hn => ?_, fun p data hp => ?_⟩
  · -- what was there is as it was, and what is new is a directory
    cases hold : fs ("system" :: p) with
    | some m =>
      rw [Option.mem_def, withDirs_of_some hold] at hn
      exact h.noLink p data hp n (hold.trans hn)
    | none =>
      rw [Option.mem_def, FileTree.withDirs, hold] at hn
      split at hn
      · cases hn
        rfl
      · cases hn
  · obtain ⟨n, hn, hfile⟩ := Option.map_eq_some_iff.mp (h.keeps p data hp)
    rw [withDirs_of_some hn, Option.map_some, hfile]

/-- A leaf at a path of the target build where nothing is unchanged. -/
theorem Settling.update_leaf (h : Settling tools target source fs)
    (hp : FilePath (DirOf target) ("system" :: p)) (hdir : fs.DirAt ("system" :: p).dropLast)
    (hleaf : (fs ("system" :: p)).any Node.isDir = false) (n : Node String Bytes Perm)
    (hlink : n.isLink = true → LinkIn target.system p)
    (hne : ∀ data, ¬Unchanged tools target source p data) :
    Settling tools target source (Function.update fs ("system" :: p) (some n)) := by
  refine ⟨h.sound.update_leaf hp hdir hleaf n, fun r data hr m hm => ?_,
    h.keeps.update _ hne rfl⟩
  -- a link is put only where the target build has one
  by_cases hrp : r = p
  · rw [hrp, Option.mem_def, Function.update_self] at hm
    cases hm
    rw [Bool.eq_false_iff]
    intro hlinked
    obtain ⟨dest, hdest⟩ := hlink hlinked
    rw [hrp, hdest] at hr
    cases hr
  · have hne' : "system" :: r ≠ "system" :: p := fun heq =>
      hrp ((List.cons_inj_right "system").mp heq)
    rw [Option.mem_def, Function.update_of_ne hne'] at hm
    exact h.noLink r data hr m hm

/-- A directory of the target build is made. -/
theorem Settling.mkdirs (h : Settling tools target source fs) (ht : WellFormed target.system)
    {perm : Perm} (hp : imageAt target.system p = some (.dir ()))
    (hexec : fs.mkdirs perm ("system" :: p) = some fs') : Settling tools target source fs' := by
  -- the target build has directories all the way down to the one made
  have habove : ∀ b, b ≠ [] → b <+: "system" :: p → DirOf target b := by
    intro b hb hpre
    by_cases heq : b = "system" :: p
    · rw [heq, dirOf_cons]
      exact .inr hp
    · exact below_dirOf ht (by simp [hp]) b hb hpre heq
  have hmk : fs.mkdirs perm ("system" :: p) = some (fs.withDirs perm ("system" :: p)) := by
    apply mkdirs_eq
    intro b hb
    by_cases h0 : b = []
    · exact .inl h0
    · exact h.sound.free b (habove b h0 hb)
  rw [← Option.some.inj (hmk.symm.trans hexec)]
  exact h.withDirs perm habove

/-- The directories above a path of the target build, and a leaf at it. -/
theorem Settling.putLeaf (h : Settling tools target source fs)
    (hp : FilePath (DirOf target) ("system" :: p)) (perm : Perm)
    (hleaf : (fs ("system" :: p)).any Node.isDir = false) (n : Node String Bytes Perm)
    (hlink : n.isLink = true → LinkIn target.system p)
    (hne : ∀ data, ¬Unchanged tools target source p data) :
    Settling tools target source (Function.update
      (fs.withDirs perm ("system" :: p).dropLast) ("system" :: p) (some n)) := by
  obtain ⟨-, hdir⟩ := h.sound.withDirs_dropLast perm hp
  -- what lies above is a directory of the target build
  have habove (b : Path) (hb : b ≠ []) (hpre : b <+: ("system" :: p).dropLast) :
      DirOf target b := by
    obtain ⟨hpre, hne⟩ := (prefix_dropLast hp.2.1).mp hpre
    exact hp.1 b hb hpre hne
  refine (h.withDirs perm habove).update_leaf hp hdir ?_ n hlink hne
  rw [FileTree.withDirs_dropLast fs perm hp.2.1]
  exact hleaf

/-- A file of the target build is written. -/
theorem Settling.writeFile (h : Settling tools target source fs) (ht : WellFormed target.system)
    {dperm fperm : Perm} {data tf : Bytes} (hp : imageAt target.system p = some (.file tf ()))
    (hne : ∀ data, ¬Unchanged tools target source p data)
    (hexec : fs.writeFile dperm fperm ("system" :: p) data = some fs') :
    Settling tools target source fs' := by
  have hfit := filePath_dirOf ht hp rfl
  obtain ⟨hleaf, perm, rfl⟩ :=
    writeFile_ok (h.sound.plain hfit.1) hfit.2.1 (h.noLink p tf hp) hexec
  exact h.putLeaf hfit dperm hleaf _ nofun hne

/-- Whole files and directories of the target build are extracted. -/
theorem Settling.extractEntry (h : Settling tools target source fs)
    (ht : WellFormed target.system) {fn : FileName} {tf : Bytes}
    (hfn : (loadSystemFiles target.system).get? fn = some tf)
    (hne : fn.slash = false → ∀ p data, fn.path = "system" :: p →
      ¬Unchanged tools target source p data)
    (hexec : extractEntry rec ["system"] ["system"] fs (fn, tf) = some fs') :
    Settling tools target source fs' := by
  obtain ⟨p, n, hpath, himage, hdata⟩ := (get?_loadSystemFiles ht).mp hfn
  rw [Ota.extractEntry, hpath, if_pos ⟨p, rfl⟩] at hexec
  change (if fn.slash then fs.mkdirs rec.dirPerm ("system" :: p)
    else fs.writeFile rec.dirPerm rec.filePerm ("system" :: p) tf) = some fs' at hexec
  -- an entry with a slash at its end makes a directory, any other writes a file
  cases hslash : fn.slash with
  | true =>
    rw [hslash, if_pos rfl] at hexec
    rw [hslash] at hdata
    cases n with
    | dir perm => exact h.mkdirs ht himage hexec
    | file data perm => cases hdata
    | link dest => cases hdata
  | false =>
    rw [hslash, if_neg Bool.false_ne_true] at hexec
    rw [hslash] at hdata
    cases n with
    | dir perm => cases hdata
    | file data perm => exact h.writeFile ht himage (fun data => hne hslash p data hpath) hexec
    | link dest => cases hdata

/-- A link of the target build is deleted, before it is made anew. -/
theorem Settling.deleteFile (h : Settling tools target source fs) (ht : WellFormed target.system)
    (hp : LinkIn target.system p) :
    Settling tools target source (deleteFile fs (.plain ("system" :: p))) := by
  obtain ⟨dest, hdest⟩ := hp
  have hfit := filePath_dirOf ht hdest rfl
  show Settling tools target source (fs.unlink ("system" :: p))
  rw [unlink_eq h.sound.tree (h.sound.plain hfit.1) hfit.2.1]
  -- a directory is not deleted
  split
  · exact h
  · next hleaf =>
    have hleaf := Bool.not_eq_true _ |>.mp hleaf
    refine ⟨h.sound.update_none hfit.2.1 hleaf, fun r data hr m hm => ?_,
      h.keeps.update none (fun data hun => ?_) rfl⟩
    · by_cases hrp : "system" :: r = "system" :: p
      · rw [hrp, Option.mem_def, Function.update_self] at hm
        cases hm
      · rw [Option.mem_def, Function.update_of_ne hrp] at hm
        exact h.noLink r data hr m hm
    · rw [hun.inTarget] at hdest
      cases hdest

/-- So are all of a list. -/
theorem Settling.deleteFiles (h : Settling tools target source fs)
    (ht : WellFormed target.system) {names : List FileName}
    (hnames : ∀ fn ∈ names, ∃ p, fn = .plain ("system" :: p) ∧ LinkIn target.system p) :
    Settling tools target source (names.foldl Ota.deleteFile fs) := by
  induction names generalizing fs with
  | nil => exact h
  | cons fn names ih =>
    obtain ⟨p, rfl, hp⟩ := hnames fn List.mem_cons_self
    exact ih (h.deleteFile ht hp) fun fn hfn => hnames fn (List.mem_cons_of_mem _ hfn)

/-- A link of the target build is made. -/
theorem Settling.symlink (h : Settling tools target source fs) (ht : WellFormed target.system)
    {dest : LinkDest String} (hp : imageAt target.system p = some (.link dest))
    (hexec : fs.symlink rec.dirPerm dest ("system" :: p) = some fs') :
    Settling tools target source fs' := by
  have hfit := filePath_dirOf ht hp rfl
  rw [symlink_eq (h.sound.plain hfit.1) hfit.2.1, Option.ite_none_right_eq_some,
    Option.some.injEq] at hexec
  obtain ⟨hnone, rfl⟩ := hexec
  -- a link is made only where nothing is
  have hleaf : (fs ("system" :: p)).any Node.isDir = false := by
    rw [Option.isNone_iff_eq_none.mp hnone]
    rfl
  refine h.putLeaf hfit _ hleaf _ (fun _ => ⟨dest, hp⟩) fun data hun => ?_
  rw [hun.inTarget] at hp
  cases hp

/-- A file that differs is patched. -/
theorem Settling.patch (h : Settling tools target source fs) (ht : WellFormed target.system)
    {tf : Bytes} (hp : imageAt target.system p = some (.file tf ()))
    (hne : ∀ data, ¬Unchanged tools target source p data) {size : Nat}
    {tgtSha1 srcSha1 : Digest} {patch : FileName}
    (hexec : execTree rec pkg fs
      (.applyPatch (.file ("system" :: p)) size tgtSha1 srcSha1 patch) = some fs') :
    Settling tools target source fs' := by
  have hfit := filePath_dirOf ht hp rfl
  -- the file replaced is the one named: there is no link at the path
  obtain ⟨data, perm, new, hfile, rfl⟩ := execTree_applyPatch h.sound.tree
    (h.sound.plain hfit.1) (h.noLink p tf hp) hfit.2.1 hexec
  refine h.update_leaf hfit ?_ (by rw [hfile]; rfl) _ nofun hne
  obtain ⟨hpre, hprop⟩ := (prefix_dropLast hfit.2.1).mp List.prefix_rfl
  exact h.sound.tree.dirAt (by simp [hfile]) hpre hprop

/-- Permissions are set, wherever the path leads. -/
theorem Settling.permission (h : Settling tools target source fs) {c : Cmd} {path : Path}
    (hc : c.permPath? = some path) (hexec : execTree rec pkg fs c = some fs') :
    Settling tools target source fs' := by
  cases c with
  | setPermissions name uid gid mode => exact h.of_contents (contents_of_setPerm hexec)
  | setPermissionsRecursive name uid gid dmode fmode =>
    exact h.of_contents (contents_of_setPermRecursive hexec)
  | _ => cases hc

end Settling

/-! ## §5 From Pruned to Settling -/

/-- What the source build alone has as a file is gone. -/
def Cleared (target source : Build) (fs : DeviceTree) : Prop :=
  ∀ p data, imageAt source.system p = some (.file data ()) →
    (∀ data', imageAt target.system p ≠ some (.file data' ())) → fs ("system" :: p) = none

/-- The tree between the first deletion and the next one. -/
structure Pruned (tools : Tools) (target source : Build) (fs : DeviceTree) : Prop where
  shrunk : Shrunk source fs
  keeps : Keeps tools target source fs
  cleared : Cleared target source fs

section Pruned

variable {tools : Tools} {target source : Build} {fs : DeviceTree}
variable (ht : WellFormed target.system) (hs : WellFormed source.system)

include ht hs in
/-- The links of the source build alone lead to themselves. -/
theorem Pruned.deleteLinks (h : Pruned tools target source fs) :
    Pruned tools target source ((symlinksToDelete (symlinksOf source.system)
      (symlinksOf target.system)).foldl deleteFile fs) := by
  refine ⟨h.shrunk.foldl _, h.keeps.foldl fun n₁ fn n₂ hnames _ p data hq hun => ?_,
    fun p data hp hnot => foldl_deleteFile_none (h.cleared p data hp hnot) _⟩
  have hfn : fn ∈ symlinksToDelete (symlinksOf source.system) (symlinksOf target.system) := by
    simp [hnames]
  obtain ⟨p', rfl, ⟨dest, hdest⟩, -⟩ := (mem_symlinksToDelete hs ht).mp hfn
  -- no link lies above a link of the source build, so the name resolves to itself
  have hbelow : Below (DirOf source) ("system" :: p') := below_dirOf hs (by simp [hdest])
  have hself := (h.shrunk.foldl n₁).resolveParent hbelow
  obtain rfl := (List.cons_inj_right "system").mp (Option.some.inj (hself.symm.trans hq))
  rw [hun.1] at hdest
  cases hdest

include ht hs in
/-- With those links deleted, nothing is in the way of the target build. -/
theorem Pruned.settling (h : Pruned tools target source fs) :
    Settling tools target source ((symlinksToDelete (symlinksOf source.system)
      (symlinksOf target.system)).foldl deleteFile fs) := by
  have hpruned := h.deleteLinks ht hs
  -- a link of the source build alone is gone
  have hgone {p : Path} {dest : LinkDest String} (hp : imageAt source.system p = some (.link dest))
      (hnot : ¬LinkIn target.system p) : (symlinksToDelete (symlinksOf source.system)
        (symlinksOf target.system)).foldl deleteFile fs ("system" :: p) = none :=
    h.shrunk.gone_of_mem ((mem_symlinksToDelete hs ht).mpr ⟨p, rfl, ⟨dest, hp⟩, hnot⟩)
      (below_dirOf hs (by simp [hp])) (ne_nil_of_leaf hs hp rfl) (by simp [hp])
  refine ⟨⟨hpruned.shrunk.tree, ?_⟩, fun p data hp => ?_, hpruned.keeps⟩
  · rintro a ⟨p, rfl, hp⟩
    -- where the target build has a directory, the source build had one, nothing, or a node that is
    -- gone
    by_cases hnil : p = []
    · exact (hpruned.shrunk.dirs _ (dirOf_cons.mpr (.inl hnil))).freeAt
    · have hdir := hp.resolve_left hnil
      cases hsource : imageAt source.system p with
      | none =>
        right
        intro n hn
        obtain ⟨m, hm, -⟩ := hpruned.shrunk.old p hnil n hn
        rw [hsource] at hm
        cases hm
      | some n =>
        cases n with
        | dir perm => exact (hpruned.shrunk.dirs _ (dirOf_cons.mpr (.inr hsource))).freeAt
        | file data perm =>
          right
          rw [hpruned.cleared p data hsource (by simp [hdir])]
          exact nofun
        | link dest =>
          have hnot : ¬LinkIn target.system p := by
            rintro ⟨dest', hdest'⟩
            rw [hdir] at hdest'
            cases hdest'
          right
          rw [hgone hsource hnot]
          exact nofun
  · by_cases hlink : LinkIn source.system p
    · obtain ⟨dest, hdest⟩ := hlink
      have hnot : ¬LinkIn target.system p := by
        rintro ⟨dest', hdest'⟩
        rw [hp] at hdest'
        cases hdest'
      intro n hn
      rw [Option.mem_def, hgone hdest hnot] at hn
      cases hn
    · exact hpruned.shrunk.noLinkAt (ne_nil_of_leaf ht hp rfl) hlink

end Pruned

end OdroidU2.Ota
