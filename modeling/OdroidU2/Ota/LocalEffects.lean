import OdroidU2.Foundations.Pointwise
import OdroidU2.Ota.Updater

/-!
# What a Command Does at One Path

As long as no link or file stands above the paths a script names, the updater resolves
each of them to itself, and every command acts at each path on its own.  `act` says how;
`execTree_actsAs` shows that the updater refines it, under the invariant `SoundTree`.
-/

namespace OdroidU2.Ota

open OdroidU2.Foundations FileTree

/-- What the device has at one path. -/
abbrev Place := Option (Node String Bytes Perm)

/-! ## §1 Local Effects -/

/-- Unlink what is there, unless it is a directory. -/
def dropLeaf (n : Place) : Place := if n.any Node.isDir then n else none

/-- Make a directory unless something is there. -/
def ensureDir (perm : Perm) (n : Place) : Place := some (n.getD (.dir perm))

/-- The contents and permissions of a regular file. -/
def fileAt : Place → Option (Bytes × Perm)
  | some (.file data perm) => some (data, perm)
  | _ => none

/-- Is there a symbolic link? -/
def linkAt (n : Place) : Bool := n.any Node.isLink

theorem fileAt_eq_some {n : Place} {data : Bytes} {perm : Perm}
    (h : fileAt n = some (data, perm)) : n = some (.file data perm) := by
  unfold fileAt at h
  split at h
  · cases h
    rfl
  · cases h

section Local

variable (rec : Recovery) (pkg : Package)

/-- Make the directories of `path`, seen at `p`. -/
def mkdirsAt (path p : Path) (n : Place) : Place :=
  if p ≠ [] ∧ p <+: path then ensureDir rec.dirPerm n else n

/-- Write a regular file. -/
def writeAt (data : Bytes) : Place → Option Place
  | none => some (some (.file data rec.filePerm))
  | some (.file _ perm) => some (some (.file data perm))
  | _ => none

/-- One entry of `package_extract_dir`, seen at `p`. -/
def extractAt (src dst : Path) (entry : FileName × Bytes) (p : Path) (n : Place) : Option Place :=
  if src <+: entry.1.path then
    let path := dst ++ entry.1.path.drop src.length
    if entry.1.slash then some (mkdirsAt rec path p n)
    else if p = path then writeAt rec entry.2 n
    else some (mkdirsAt rec path.dropLast p n)
  else some n

/-- A command, seen at `p`. -/
def act (c : Cmd) (p : Path) (n : Place) : Option Place :=
  match c with
  | .assertSomeFingerprint fp =>
    if p = ["system", "build.prop"] then
      match fileAt n with
      | none => none
      | some (data, _) =>
        match rec.fingerprint data with
        | none => none
        | some value => if value ∈ fp then some n else none
    else some n
  | .patchCheck (.file q) sha1s =>
    if p = q then
      match fileAt n with
      | none => none
      | some (data, _) => if rec.sha1.digest data ∈ sha1s then some n else none
    else some n
  | .formatPartition q => some (if q <+: p ∧ p ≠ q then none else n)
  | .deleteFiles names => some (if FileName.plain p ∈ names then dropLeaf n else n)
  | .applyPatch (.file q) _ tgtSha1 srcSha1 patch =>
    if p = q then
      match fileAt n with
      | none => none
      | some (data, perm) =>
        match patchData rec pkg data tgtSha1 srcSha1 patch with
        | none => none
        | some new => some (some (.file new perm))
    else some n
  | .unpackPackageDir src dst =>
    Pointwise.follow (fun entry p n => extractAt rec src dst entry p n) p n pkg.system
  | .symlink dest link =>
    if p = link then if n.isNone then some (some (.link dest)) else none
    else some (mkdirsAt rec link.dropLast p n)
  | .setPermissions q uid gid mode =>
    if p = q then
      if n.isNone ∨ linkAt n then none
      else some (n.map (Node.setPerm ⟨uid, gid, mode⟩ ⟨uid, gid, mode⟩))
    else some n
  | .setPermissionsRecursive q uid gid dmode fmode =>
    if p = q ∧ (n.isNone ∨ linkAt n) then none
    else some (if q <+: p then n.map (Node.setPerm ⟨uid, gid, dmode⟩ ⟨uid, gid, fmode⟩) else n)
  | _ => some n

@[simp] theorem act_print (message : String) (p : Path) (n : Place) :
    act rec pkg (.print message) p n = some n := rfl

variable {rec pkg} {p : Path} {n n' : Place}

/-- An assertion that passes leaves everything as it was. -/
theorem act_assertSomeFingerprint {fp : List String}
    (h : act rec pkg (.assertSomeFingerprint fp) p n = some n') : n' = n := by
  unfold act at h
  dsimp only at h
  -- only at `build.prop` is there anything to check
  split_ifs at h
  · split at h
    · cases h
    · split at h
      · cases h
      · split_ifs at h
        exact (Option.some.inj h).symm
  · exact (Option.some.inj h).symm

theorem act_patchCheck {q : Path} {sha1s : List Digest}
    (h : act rec pkg (.patchCheck (.file q) sha1s) p n = some n') : n' = n := by
  unfold act at h
  dsimp only at h
  split_ifs at h
  · split at h
    · cases h
    · split_ifs at h
      exact (Option.some.inj h).symm
  · exact (Option.some.inj h).symm

end Local

/-! ## §2 Sound Trees -/

/-- A treelike tree with no file and no link where a directory of `dirs` belongs. -/
structure SoundTree (dirs : Path → Prop) (fs : DeviceTree) : Prop where
  tree : Treelike fs
  free : ∀ a, dirs a → FreeAt fs a

/-- Directories belong above the path. -/
def Below (dirs : Path → Prop) (p : Path) : Prop := ∀ a, a ≠ [] → a <+: p → a ≠ p → dirs a

/-- A file belongs at the path. -/
def FilePath (dirs : Path → Prop) (p : Path) : Prop := Below dirs p ∧ p ≠ [] ∧ ¬ dirs p

/-- The paths a command names fit the directories. -/
def Cmd.Fits (dirs : Path → Prop) (pkg : Package) : Cmd → Prop
  | .assertSomeFingerprint _ => Below dirs ["system", "build.prop"]
  | .patchCheck (.file p) _ => Below dirs p
  | .deleteFiles names => ∀ fn ∈ names, fn.slash = false → Below dirs fn.path ∧ fn.path ≠ []
  | .applyPatch (.file p) _ _ _ _ => Below dirs p ∧ p ≠ []
  | .unpackPackageDir src dst => ∀ e ∈ pkg.system, src <+: e.1.path →
    if e.1.slash then
      Below dirs (dst ++ e.1.path.drop src.length) ∧ dirs (dst ++ e.1.path.drop src.length)
    else FilePath dirs (dst ++ e.1.path.drop src.length)
  | .symlink _ link => FilePath dirs link
  | .setPermissions p _ _ _ => Below dirs p
  | .setPermissionsRecursive p _ _ _ _ => Below dirs p
  | _ => True

section Sound

variable {dirs : Path → Prop} {fs : DeviceTree} {p : Path}

theorem SoundTree.plain (h : SoundTree dirs fs) (hp : Below dirs p) : Plain fs p := by
  intro q hq hne
  by_cases h0 : q = []
  · exact .inl h0
  · exact h.free q (hp q h0 hq hne)

theorem noLinkAt_iff : NoLinkAt fs p ↔ linkAt (fs p) = false := by
  rw [NoLinkAt, linkAt]
  cases fs p <;> simp

/-- The commands for permissions fail on a missing path and on a link. -/
theorem exists_of_settable (h : ¬ ((fs p).isNone = true ∨ linkAt (fs p) = true)) :
    ∃ n, fs p = some n ∧ NoLinkAt fs p := by
  rw [not_or, Bool.not_eq_true, Bool.not_eq_true] at h
  obtain ⟨n, hn⟩ := Option.isSome_iff_exists.mp (Option.isNone_eq_false_iff.mp h.1)
  exact ⟨n, hn, noLinkAt_iff.mpr h.2⟩

/-- Reading a path finds what is there. -/
theorem SoundTree.readFile (h : SoundTree dirs fs) (hp : Below dirs p) {data : Bytes} {perm : Perm}
    (hfile : fileAt (fs p) = some (data, perm)) : readFile fs p = some (data, perm) := by
  have hnode := fileAt_eq_some hfile
  have hlink : NoLinkAt fs p := by
    rw [noLinkAt_iff, hnode]
    rfl
  rw [Ota.readFile, h.tree.lookup (h.plain hp) hlink, hnode]

/-- Where nothing but contents and permissions differ, the tree is as sound. -/
theorem SoundTree.of_same (h : SoundTree dirs fs) {fs' : DeviceTree}
    (hsame : ∀ q, (fs' q).map Node.isDir = (fs q).map Node.isDir) : SoundTree dirs fs' where
  tree := h.tree.of_same hsame
  free := by
    intro a ha
    -- the kinds are the same, and the property is about kinds
    rcases h.free a ha with h0 | hdir
    · exact .inl h0
    · right
      intro n hn
      have hmap := hsame a
      rw [Option.mem_def.mp hn, Option.map_some] at hmap
      obtain ⟨m, hm, hdirm⟩ := Option.map_eq_some_iff.mp hmap.symm
      rw [← hdirm]
      exact hdir m hm

/-- Making directories where they belong. -/
theorem SoundTree.withDirs (h : SoundTree dirs fs) (perm : Perm)
    (hp : ∀ a, a ≠ [] → a <+: p → dirs a) : SoundTree dirs (fs.withDirs perm p) where
  tree := h.tree.withDirs fun a ha => by
    by_cases h0 : a = []
    · exact .inl h0
    · exact h.free a (hp a h0 ha)
  free := by
    intro a ha
    -- what is new is a directory
    by_cases hap : a ≠ [] ∧ a <+: p
    · exact (DirAt.withDirs (h.free a ha) hap.2).freeAt
    · have hsame : fs.withDirs perm p a = fs a := if_neg hap
      rw [FreeAt, hsame]
      exact h.free a ha

/-- A leaf where a file belongs, below directories that are there. -/
theorem SoundTree.update_leaf (h : SoundTree dirs fs) (hp : FilePath dirs p)
    (hdir : DirAt fs p.dropLast) (hleaf : (fs p).any Node.isDir = false)
    (n : Node String Bytes Perm) : SoundTree dirs (Function.update fs p (some n)) where
  tree := h.tree.update_leaf hp.2.1 hdir hleaf
  free := by
    intro a ha
    have hne : a ≠ p := by
      rintro rfl
      exact hp.2.2 ha
    rw [FreeAt, Function.update_of_ne hne]
    exact h.free a ha

theorem SoundTree.update_none (h : SoundTree dirs fs) (hp : p ≠ [])
    (hleaf : (fs p).any Node.isDir = false) : SoundTree dirs (Function.update fs p none) where
  tree := h.tree.update_none hp hleaf
  free := by
    intro a ha
    by_cases hne : a = p
    · subst hne
      right
      simp
    · rw [FreeAt, Function.update_of_ne hne]
      exact h.free a ha

/-- The directories above a file path, once made. -/
theorem SoundTree.withDirs_dropLast (h : SoundTree dirs fs) (perm : Perm) (hp : FilePath dirs p) :
    SoundTree dirs (fs.withDirs perm p.dropLast) ∧
      DirAt (fs.withDirs perm p.dropLast) p.dropLast := by
  have hsound : SoundTree dirs (fs.withDirs perm p.dropLast) := by
    apply h.withDirs perm
    intro a h0 ha
    obtain ⟨ha, hne⟩ := (prefix_dropLast hp.2.1).mp ha
    exact hp.1 a h0 ha hne
  have hlast := (prefix_dropLast hp.2.1).mp (List.prefix_refl p.dropLast)
  exact ⟨hsound, (mkdirs_dropLast perm (h.plain hp.1) hp.2.1).2 _ hlast.1 hlast.2⟩

end Sound

/-! ## §3 The Updater Refines the Local Effects -/

section Refinement

variable (rec : Recovery) (pkg : Package) {dirs : Path → Prop}

/-- A command that leaves every path alone. -/
theorem actsAs_of_id {F : DeviceTree → Option DeviceTree} {l : Path → Place → Option Place}
    (hl : ∀ p n n', l p n = some n' → n' = n)
    (hF : ∀ fs, SoundTree dirs fs → (∀ p, l p (fs p) = some (fs p)) → F fs = some fs) :
    Pointwise.ActsAs (SoundTree dirs) F l := by
  intro fs f hs hf
  obtain rfl : f = fs := funext fun p => hl p _ _ (hf p)
  exact ⟨hF f hs hf, hs⟩

theorem actsAs_assertSomeFingerprint {fp : List String}
    (hfits : (Cmd.assertSomeFingerprint fp).Fits dirs pkg) :
    Pointwise.ActsAs (SoundTree dirs) (fun fs => execTree rec pkg fs (.assertSomeFingerprint fp))
      (act rec pkg (.assertSomeFingerprint fp)) := by
  apply actsAs_of_id fun p n n' => act_assertSomeFingerprint
  intro fs hs hf
  -- what happens at the path of `build.prop` decides for the whole tree
  have hprop := hf ["system", "build.prop"]
  rw [act, if_pos rfl] at hprop
  split at hprop
  · cases hprop
  · rename_i data perm hfile
    split at hprop
    · cases hprop
    · rename_i value hvalue
      split_ifs at hprop with hmem
      rw [execTree, hs.readFile hfits hfile]
      simp [hvalue, hmem]

theorem actsAs_patchCheck {q : Path} {sha1s : List Digest}
    (hfits : (Cmd.patchCheck (.file q) sha1s).Fits dirs pkg) :
    Pointwise.ActsAs (SoundTree dirs) (fun fs => execTree rec pkg fs (.patchCheck (.file q) sha1s))
      (act rec pkg (.patchCheck (.file q) sha1s)) := by
  apply actsAs_of_id fun p n n' => act_patchCheck
  intro fs hs hf
  -- the file that is checked decides for the whole tree
  have hq := hf q
  rw [act, if_pos rfl] at hq
  split at hq
  · cases hq
  · rename_i data perm hfile
    split_ifs at hq with hmem
    rw [execTree, hs.readFile hfits hfile]
    simp [hmem]

theorem actsAs_formatPartition (q : Path) :
    Pointwise.ActsAs (SoundTree dirs) (fun fs => execTree rec pkg fs (.formatPartition q))
      (act rec pkg (.formatPartition q)) := by
  intro fs f hs hf
  have heq : f = fun p => if q <+: p ∧ p ≠ q then none else fs p :=
    funext fun p => (Option.some.inj (hf p)).symm
  subst heq
  refine ⟨rfl, fun p c hp => ?_, fun a ha => ?_⟩
  · have hp : (if q <+: p ++ [c] ∧ p ++ [c] ≠ q then none else fs (p ++ [c])) ≠ none := hp
    obtain ⟨hbelow, hp⟩ := ite_ne_left_iff.mp hp
    rcases hs.tree p c (Ne.symm hp) with h0 | hdir
    · exact .inl h0
    · right
      -- what is above a path that stays is not below the partition either
      have hstays : ¬ (q <+: p ∧ p ≠ q) := by
        rintro ⟨hqp, hne⟩
        refine hbelow ⟨hqp.trans (List.prefix_append p [c]), fun heq => ?_⟩
        have hle := hqp.length_le
        rw [← heq, List.length_append, List.length_singleton] at hle
        omega
      have hsame : (if q <+: p ∧ p ≠ q then none else fs p) = fs p := if_neg hstays
      exact (congrArg (fun n => Option.any Node.isDir n) hsame).trans hdir
  · rcases hs.free a ha with h0 | hdir
    · exact .inl h0
    · right
      intro n hn
      have hn : (if q <+: a ∧ a ≠ q then none else fs a) = some n := hn
      split_ifs at hn
      exact hdir n hn

/-- One name of a delete command. -/
theorem actsAs_deleteFile {fn : FileName}
    (hfits : fn.slash = false → Below dirs fn.path ∧ fn.path ≠ []) :
    Pointwise.ActsAs (SoundTree dirs) (fun fs => some (deleteFile fs fn))
      (fun p n => some (if FileName.plain p = fn then dropLeaf n else n)) := by
  intro fs f hs hf
  have heq : f = fun p => if FileName.plain p = fn then dropLeaf (fs p) else fs p :=
    funext fun p => (Option.some.inj (hf p)).symm
  unfold deleteFile
  cases hslash : fn.slash with
  | true =>
    -- a name with a slash is a directory, and `unlink` fails on it
    have hne : ∀ p, FileName.plain p ≠ fn := by
      rintro p rfl
      cases hslash
    simp only [hne, if_false] at heq
    rw [heq]
    exact ⟨rfl, hs⟩
  | false =>
    obtain ⟨hbelow, h0⟩ := hfits hslash
    have hname : ∀ p, FileName.plain p = fn ↔ p = fn.path := by
      intro p
      obtain ⟨path, slash⟩ := fn
      subst hslash
      simp [FileName.plain]
    show some (unlink fs fn.path) = some f ∧ SoundTree dirs f
    rw [unlink_eq hs.tree (hs.plain hbelow) h0]
    split
    · -- a directory stays
      rename_i hdir
      have hsame : f = fs := by
        rw [heq]
        funext p
        by_cases hp : p = fn.path
        · simp [hname, hp, dropLeaf, hdir]
        · simp [hname, hp]
      rw [hsame]
      exact ⟨rfl, hs⟩
    · rename_i hdir
      -- a file or a link, or nothing, leaves nothing
      have hsame : f = Function.update fs fn.path none := by
        rw [heq]
        funext p
        by_cases hp : p = fn.path
        · simp [hname, hp, dropLeaf, hdir]
        · simp [hname, hp]
      rw [hsame]
      exact ⟨rfl, hs.update_none h0 (Bool.not_eq_true _ |>.mp hdir)⟩

theorem dropLeaf_dropLeaf (n : Place) : dropLeaf (dropLeaf n) = dropLeaf n := by
  unfold dropLeaf
  split <;> simp_all

/-- Deleting is the same however often a name is given. -/
theorem follow_delete (names : List FileName) (p : Path) (n : Place) :
    Pointwise.follow (fun fn p n => some (if FileName.plain p = fn then dropLeaf n else n)) p n
      names = some (if FileName.plain p ∈ names then dropLeaf n else n) := by
  induction names generalizing n with
  | nil => simp
  | cons fn rest ih =>
    rw [Pointwise.follow_cons, Option.bind_some, ih]
    by_cases hfn : FileName.plain p = fn
    · rw [if_pos hfn, dropLeaf_dropLeaf, ite_self, if_pos (hfn ▸ List.mem_cons_self)]
    · simp [hfn]

theorem run_delete (names : List FileName) (fs : DeviceTree) :
    Pointwise.run (fun fn fs => some (deleteFile fs fn)) fs names =
      some (names.foldl deleteFile fs) := by
  induction names generalizing fs with
  | nil => rfl
  | cons fn rest ih =>
    have hcons : Pointwise.run (fun fn fs => some (deleteFile fs fn)) fs (fn :: rest) =
        Pointwise.run (fun fn fs => some (deleteFile fs fn)) (deleteFile fs fn) rest := rfl
    rw [hcons, ih, List.foldl_cons]

theorem actsAs_deleteFiles {names : List FileName} (hfits : (Cmd.deleteFiles names).Fits dirs pkg) :
    Pointwise.ActsAs (SoundTree dirs) (fun fs => execTree rec pkg fs (.deleteFiles names))
      (act rec pkg (.deleteFiles names)) := by
  intro fs f hs hf
  obtain ⟨hrun, hsound⟩ :=
    Pointwise.run_of_follow (fun fn hfn => actsAs_deleteFile (hfits fn hfn)) fs f hs
      fun p => (follow_delete names p (fs p)).trans (hf p)
  exact ⟨(run_delete names fs).symm.trans hrun, hsound⟩

theorem actsAs_applyPatch {q : Path} {size : Nat} {tgtSha1 srcSha1 : Digest} {patch : FileName}
    (hfits : (Cmd.applyPatch (.file q) size tgtSha1 srcSha1 patch).Fits dirs pkg) :
    Pointwise.ActsAs (SoundTree dirs)
      (fun fs => execTree rec pkg fs (.applyPatch (.file q) size tgtSha1 srcSha1 patch))
      (act rec pkg (.applyPatch (.file q) size tgtSha1 srcSha1 patch)) := by
  intro fs f hs hf
  obtain ⟨hbelow, h0⟩ := hfits
  have hq := hf q
  rw [act, if_pos rfl] at hq
  split at hq
  · cases hq
  · rename_i data perm hfile
    split at hq
    · cases hq
    · rename_i new hnew
      -- only the path of the file can change
      have hf' : f = Function.update fs q (some (.file new perm)) := by
        refine Function.eq_update_iff.mpr ⟨(Option.some.inj hq).symm, fun p hp => ?_⟩
        have hact := hf p
        rw [act, if_neg hp] at hact
        exact (Option.some.inj hact).symm
      have hnode := fileAt_eq_some hfile
      have hexec : execTree rec pkg fs (.applyPatch (.file q) size tgtSha1 srcSha1 patch) =
          if new = data then some fs else replaceFile fs q new perm := by
        rw [execTree, hs.readFile hbelow hfile]
        simp [hnew]
      constructor
      · show execTree rec pkg fs (.applyPatch (.file q) size tgtSha1 srcSha1 patch) = some f
        rw [hexec, hf']
        -- a file that is patched already is not written
        split
        · rename_i hsame
          rw [hsame, ← hnode, Function.update_eq_self]
        · obtain ⟨d, c, rfl⟩ := List.eq_nil_or_concat' q |>.resolve_left h0
          rcases hs.tree.resolveParent (hs.plain hbelow) with ⟨-, hparent⟩ | ⟨hnone, -⟩
          · rw [replaceFile, hparent]
            rfl
          · rw [hnone] at hnode
            cases hnode
      · -- the tree keeps its shape: a file stays a file
        apply hs.of_same
        intro p
        rw [hf']
        by_cases hp : p = q
        · subst hp
          rw [Function.update_self, hnode]
          rfl
        · rw [Function.update_of_ne hp]

/-- An entry for a directory: the directories are made down to it. -/
theorem actsAs_mkdirs {path : Path} (hbelow : Below dirs path) (hpath : dirs path) :
    Pointwise.ActsAs (SoundTree dirs) (fun fs => mkdirs fs rec.dirPerm path)
      (fun p n => some (mkdirsAt rec path p n)) := by
  intro fs f hs hf
  -- all that lies above `path` is meant to be a directory
  have habove : ∀ a, a ≠ [] → a <+: path → dirs a := by
    intro a ha hap
    by_cases hne : a = path
    · exact hne ▸ hpath
    · exact hbelow a ha hap hne
  -- so the function of one path describes the tree `mkdirs` leaves
  have hf' : f = withDirs fs rec.dirPerm path :=
    funext fun p => (Option.some.inj (hf p)).symm
  rw [hf']
  refine ⟨mkdirs_eq fun a ha => ?_, hs.withDirs rec.dirPerm habove⟩
  by_cases h0 : a = []
  · exact .inl h0
  · exact hs.free a (habove a h0 ha)

/-- An entry for a file: the directories above it, then the file. -/
theorem actsAs_writeFile {path : Path} {data : Bytes} (hfits : FilePath dirs path) :
    Pointwise.ActsAs (SoundTree dirs)
      (fun fs => writeFile fs rec.dirPerm rec.filePerm path data)
      (fun p n => if p = path then writeAt rec data n
        else some (mkdirsAt rec path.dropLast p n)) := by
  intro fs f hs hf
  obtain ⟨hsound, hdir⟩ := hs.withDirs_dropLast rec.dirPerm hfits
  have hpath : writeAt rec data (fs path) = some (f path) := (if_pos rfl).symm.trans (hf path)
  -- only a file or a free name can be written to
  have hfile : ∀ n ∈ fs path, n.isDir = false ∧ n.isLink = false := by
    intro n hn
    rw [Option.mem_def.mp hn] at hpath
    cases n with
    | dir perm => cases hpath
    | file data perm => exact ⟨rfl, rfl⟩
    | link dest => cases hpath
  have hleaf : (withDirs fs rec.dirPerm path.dropLast path).any Node.isDir = false := by
    rw [FileTree.withDirs_dropLast fs rec.dirPerm hfits.2.1]
    cases hnode : fs path with
    | none => rfl
    | some n => exact (hfile n hnode).1
  -- so the function of one path describes the tree the write leaves
  have hf' : f = Function.update (withDirs fs rec.dirPerm path.dropLast) path
      (some (.file data (((fs path).bind Node.perm?).getD rec.filePerm))) := by
    refine Function.eq_update_iff.mpr ⟨?_, fun p hp => ?_⟩
    · cases hnode : fs path with
      | none =>
        rw [hnode] at hpath
        exact (Option.some.inj hpath).symm
      | some n =>
        rw [hnode] at hpath
        cases n with
        | dir perm => cases hpath
        | file data perm => exact (Option.some.inj hpath).symm
        | link dest => cases hpath
    · exact (Option.some.inj ((if_neg hp).symm.trans (hf p))).symm
  rw [hf']
  exact ⟨writeFile_eq (hs.plain hfits.1) hfits.2.1 hfile, hsound.update_leaf hfits hdir hleaf _⟩

/-- One entry of the package. -/
theorem actsAs_extractEntry {src dst : Path} {e : FileName × Bytes}
    (hfits : src <+: e.1.path →
      if e.1.slash then
        Below dirs (dst ++ e.1.path.drop src.length) ∧ dirs (dst ++ e.1.path.drop src.length)
      else FilePath dirs (dst ++ e.1.path.drop src.length)) :
    Pointwise.ActsAs (SoundTree dirs) (fun fs => extractEntry rec src dst fs e)
      (extractAt rec src dst e) := by
  intro fs f hs hf
  unfold extractAt at hf
  unfold extractEntry
  by_cases hsrc : src <+: e.1.path
  · have hfits := hfits hsrc
    simp only [if_pos hsrc] at hf ⊢
    cases hslash : e.1.slash with
    | true =>
      rw [hslash, if_pos rfl] at hfits
      simp only [hslash, if_true] at hf ⊢
      exact actsAs_mkdirs rec hfits.1 hfits.2 fs f hs hf
    | false =>
      rw [hslash, if_neg Bool.false_ne_true] at hfits
      simp only [hslash, Bool.false_eq_true, if_false] at hf ⊢
      exact actsAs_writeFile rec hfits fs f hs hf
  · -- an entry from elsewhere in the package is passed over
    simp only [if_neg hsrc] at hf ⊢
    have hf' : f = fs := funext fun p => (Option.some.inj (hf p)).symm
    rw [hf']
    exact ⟨rfl, hs⟩

theorem actsAs_unpackPackageDir {src dst : Path}
    (hfits : (Cmd.unpackPackageDir src dst).Fits dirs pkg) :
    Pointwise.ActsAs (SoundTree dirs) (fun fs => execTree rec pkg fs (.unpackPackageDir src dst))
      (act rec pkg (.unpackPackageDir src dst)) :=
  Pointwise.run_of_follow fun e he => actsAs_extractEntry rec (hfits e he)

theorem actsAs_symlink {dest : LinkDest String} {link : Path}
    (hfits : (Cmd.symlink dest link).Fits dirs pkg) :
    Pointwise.ActsAs (SoundTree dirs) (fun fs => execTree rec pkg fs (.symlink dest link))
      (act rec pkg (.symlink dest link)) := by
  intro fs f hs hf
  have hlink := hf link
  rw [act, if_pos rfl, Option.ite_none_right_eq_some, Option.some.injEq] at hlink
  obtain ⟨hnone, hlink⟩ := hlink
  obtain ⟨hsound, hdir⟩ := hs.withDirs_dropLast rec.dirPerm hfits
  -- `symlink` fails on any name that is taken, so the link goes to a free one
  have hleaf : (withDirs fs rec.dirPerm link.dropLast link).any Node.isDir = false := by
    rw [FileTree.withDirs_dropLast fs rec.dirPerm hfits.2.1, Option.isNone_iff_eq_none.mp hnone]
    rfl
  have hf' : f = Function.update (withDirs fs rec.dirPerm link.dropLast) link
      (some (.link dest)) := by
    refine Function.eq_update_iff.mpr ⟨hlink.symm, fun p hp => ?_⟩
    have hother := hf p
    rw [act, if_neg hp] at hother
    exact (Option.some.inj hother).symm
  rw [hf']
  refine ⟨?_, hsound.update_leaf hfits hdir hleaf _⟩
  exact (symlink_eq (hs.plain hfits.1) hfits.2.1).trans (if_pos hnone)

theorem actsAs_setPermissions {q : Path} {uid gid mode : Int}
    (hfits : (Cmd.setPermissions q uid gid mode).Fits dirs pkg) :
    Pointwise.ActsAs (SoundTree dirs)
      (fun fs => execTree rec pkg fs (.setPermissions q uid gid mode))
      (act rec pkg (.setPermissions q uid gid mode)) := by
  intro fs f hs hf
  have hq := hf q
  rw [act, if_pos rfl] at hq
  split_ifs at hq with hbad
  obtain ⟨n, hn, hlink⟩ := exists_of_settable hbad
  -- only the path named has a new value
  have hf' : f = Function.update fs q (some (n.setPerm ⟨uid, gid, mode⟩ ⟨uid, gid, mode⟩)) := by
    rw [hn] at hq
    refine Function.eq_update_iff.mpr ⟨(Option.some.inj hq).symm, fun p hp => ?_⟩
    have hother := hf p
    rw [act, if_neg hp] at hother
    exact (Option.some.inj hother).symm
  constructor
  · refine (setPerm_eq ⟨uid, gid, mode⟩ hs.tree (hs.plain hfits) hlink).trans ?_
    rw [hn, Option.map_some, hf']
  · apply hs.of_same
    intro p
    rw [hf']
    by_cases hp : p = q
    · subst hp
      rw [Function.update_self, hn, Option.map_some, Option.map_some, Node.isDir_setPerm]
    · rw [Function.update_of_ne hp]

theorem actsAs_setPermissionsRecursive {q : Path} {uid gid dmode fmode : Int}
    (hfits : (Cmd.setPermissionsRecursive q uid gid dmode fmode).Fits dirs pkg) :
    Pointwise.ActsAs (SoundTree dirs)
      (fun fs => execTree rec pkg fs (.setPermissionsRecursive q uid gid dmode fmode))
      (act rec pkg (.setPermissionsRecursive q uid gid dmode fmode)) := by
  intro fs f hs hf
  have hbad : ¬ ((fs q).isNone = true ∨ linkAt (fs q) = true) := by
    intro hbad
    have hq := hf q
    rw [act, if_pos ⟨rfl, hbad⟩] at hq
    cases hq
  obtain ⟨n, hn, hlink⟩ := exists_of_settable hbad
  -- everything at and below the path named has new permissions
  have hf' : f = fun p => if q <+: p then
      (fs p).map (Node.setPerm ⟨uid, gid, dmode⟩ ⟨uid, gid, fmode⟩) else fs p := by
    funext p
    have hact := hf p
    -- the command fails only at the top of the subtree, which is there and no link
    have hgood : ¬ (p = q ∧ ((fs p).isNone = true ∨ linkAt (fs p) = true)) := by
      rintro ⟨rfl, hone⟩
      exact hbad hone
    rw [act, if_neg hgood] at hact
    exact (Option.some.inj hact).symm
  rw [hf']
  constructor
  · refine (setPermRecursive_eq ⟨uid, gid, dmode⟩ ⟨uid, gid, fmode⟩ hs.tree (hs.plain hfits)
      hlink).trans ?_
    rw [hn, Option.map_some]
  · apply hs.of_same
    intro p
    split
    · cases fs p with
      | none => rfl
      | some m => exact congrArg some (m.isDir_setPerm _ _)
    · rfl

/-- **Refinement**: every command whose paths fit the directories acts locally. -/
theorem execTree_actsAs {c : Cmd} (hfits : c.Fits dirs pkg) :
    Pointwise.ActsAs (SoundTree dirs) (fun fs => execTree rec pkg fs c) (act rec pkg c) := by
  -- the commands that concern the boot partition or the device leave the tree alone
  have hid : ∀ c : Cmd, (∀ fs, execTree rec pkg fs c = some fs) →
      (∀ p n, act rec pkg c p n = some n) →
      Pointwise.ActsAs (SoundTree dirs) (fun fs => execTree rec pkg fs c) (act rec pkg c) := by
    intro c hexec hact
    refine actsAs_of_id (fun p n n' h => ?_) fun fs _ _ => hexec fs
    rw [hact] at h
    exact (Option.some.inj h).symm
  -- one lemma for each command that looks at the tree or changes it
  cases c with
  | mount mountPoint => exact hid _ (fun _ => rfl) fun _ _ => rfl
  | assertSomeFingerprint fp => exact actsAs_assertSomeFingerprint rec pkg hfits
  | assertDevice device => exact hid _ (fun _ => rfl) fun _ _ => rfl
  | print message => exact hid _ (fun _ => rfl) fun _ _ => rfl
  | comment message => exact hid _ (fun _ => rfl) fun _ _ => rfl
  | patchCheck target sha1s =>
    cases target with
    | file path => exact actsAs_patchCheck rec pkg hfits
    | «partition» => exact hid _ (fun _ => rfl) fun _ _ => rfl
  | cacheFreeSpaceCheck amount => exact hid _ (fun _ => rfl) fun _ _ => rfl
  | formatPartition p => exact actsAs_formatPartition rec pkg p
  | deleteFiles names => exact actsAs_deleteFiles rec pkg hfits
  | applyPatch target size tgtSha1 srcSha1 patch =>
    cases target with
    | file path => exact actsAs_applyPatch rec pkg hfits
    | «partition» => exact hid _ (fun _ => rfl) fun _ _ => rfl
  | unpackPackageDir src dst => exact actsAs_unpackPackageDir rec pkg hfits
  | symlink dest link => exact actsAs_symlink rec pkg hfits
  | setPermissions name uid gid mode => exact actsAs_setPermissions rec pkg hfits
  | setPermissionsRecursive name uid gid dmode fmode =>
    exact actsAs_setPermissionsRecursive rec pkg hfits

end Refinement

end OdroidU2.Ota
