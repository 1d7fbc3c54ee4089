import Mathlib
import OdroidU2.Ota.Full
import OdroidU2.Ota.IncrementalCorrect
import OdroidU2.Ota.IncrementalParts
import OdroidU2.Ota.ItemRecords

/-!
# What a Full Package Makes of `/system`

A partition that was formatted holds nothing, so what the script makes of it depends on the
build alone: `builtPlace` says what it is, path by path, with the permissions of the metadata
listing.

- `perm_getMetadata` — the permissions of the Items are those listed
- `follow_unpack`, `follow_links` — unpacking and linking, at each path alone
- `runTree_systemCmds` — formatting and filling `/system`, from any tree
-/

namespace OdroidU2.Ota

open OdroidU2.Foundations FileTree Pointwise

/-! ## §1 What Is Built -/

/-- The permissions `GetMetadata` gives a name: those of the files this script generates, or
those of the last line for the name. -/
def listedPerm (lines : List MetadataLine) (name : Path) : Option Perm :=
  if name = ["system", "etc", "install-recovery.sh"] then some ⟨0, 0, 0o544⟩
  else if name = ["system", "recovery-from-boot.p"] then some ⟨0, 0, 0o644⟩
  else (lines.reverse.find? fun line => line.name = name).map MetadataLine.perm

/-- A node with its permissions, if they are listed. -/
def withListed (perm : Option Perm) : Node String Bytes Unit → Place
  | .dir _ => perm.map .dir
  | .file data _ => perm.map (.file data ·)
  | .link dest => some (.link dest)

/-- What a build has below `/system`, which itself is a directory. -/
def builtNode (build : Build) (q : Path) : Option (Node String Bytes Unit) :=
  if q = [] then some (.dir ()) else imageAt build.system q

/-- What `/system` holds once a build is installed. -/
def builtPlace (build : Build) (q : Path) : Place :=
  (builtNode build q).bind (withListed (listedPerm build.metadata ("system" :: q)))

/-! ## §2 The Metadata -/

section Metadata

variable {items : Items}

theorem perm_applyMetadata (line : MetadataLine) {q : Path} {r : ItemRecord}
    (hr : items.get? q = some r) : ∃ r', (applyMetadata items line).get? q = some r' ∧
      r'.perm = if line.name = q then some line.perm else r.perm := by
  rw [applyMetadata]
  -- a line sets the permissions of the item it names and of no other
  by_cases hq : line.name = q
  · subst hq
    rw [hr]
    refine ⟨_, by rw [Dict.get?_set, if_pos rfl], ?_⟩
    rw [if_pos rfl, sortChildren]
    split <;> rfl
  · rw [if_neg hq]
    split
    · exact ⟨r, hr, rfl⟩
    · exact ⟨r, by rw [Dict.get?_set, if_neg (Ne.symm hq)]; exact hr, rfl⟩

/-- The lines of the listing: the last one for a name counts. -/
theorem perm_applyLines (lines : List MetadataLine) {q : Path} {r : ItemRecord}
    (hr : items.get? q = some r) : ∃ r', (lines.foldl applyMetadata items).get? q = some r' ∧
      r'.perm = ((lines.reverse.find? fun line => line.name = q).map MetadataLine.perm).or r.perm := by
  -- line by line: of two lines about one item the later one counts
  induction lines generalizing items r with
  | nil => exact ⟨r, hr, rfl⟩
  | cons line lines ih =>
    obtain ⟨r₁, hr₁, hperm₁⟩ := perm_applyMetadata line hr
    obtain ⟨r', hr', hperm⟩ := ih hr₁
    refine ⟨r', hr', ?_⟩
    rw [hperm, hperm₁, List.reverse_cons, List.find?_append]
    cases lines.reverse.find? fun line => line.name = q with
    | some line' => rfl
    | none =>
      by_cases hq : line.name = q
      · simp [hq]
      · simp [hq]

theorem perm_overrideMetadata (name : Path) (perm : Perm) {q : Path} {r : ItemRecord}
    (hr : items.get? q = some r) : ∃ r', (overrideMetadata items name perm).get? q = some r' ∧
      r'.perm = if q = name then some perm else r.perm := by
  rw [overrideMetadata]
  -- only the item named has its permissions set by hand
  by_cases hq : q = name
  · subst hq
    rw [hr, if_pos rfl]
    exact ⟨_, by rw [Dict.get?_set, if_pos rfl], rfl⟩
  · rw [if_neg hq]
    split
    · exact ⟨r, hr, rfl⟩
    · exact ⟨r, by rw [Dict.get?_set, if_neg hq]; exact hr, rfl⟩

/-- **`GetMetadata`**: a new Item ends up with the permissions that are listed. -/
theorem perm_getMetadata {lines : List MetadataLine} {q : Path} {r r' : ItemRecord}
    (hr : items.get? q = some r) (hfresh : r.perm = none)
    (hr' : (getMetadata items lines).get? q = some r') : r'.perm = listedPerm lines q := by
  obtain ⟨r₁, hr₁, hperm₁⟩ := perm_applyLines lines hr
  obtain ⟨r₂, hr₂, hperm₂⟩ := perm_overrideMetadata
    ["system", "recovery-from-boot.p"] ⟨0, 0, 0o644⟩ hr₁
  obtain ⟨r₃, hr₃, hperm₃⟩ := perm_overrideMetadata
    ["system", "etc", "install-recovery.sh"] ⟨0, 0, 0o544⟩ hr₂
  obtain rfl : r₃ = r' := Option.some.inj (hr₃.symm.trans hr')
  rw [hperm₃, hperm₂, hperm₁, hfresh, Option.or_none]
  rfl

end Metadata

/-! ## §3 Unpacking and Linking -/

/-- What unpacking puts at a path: symbolic links are no entries of the package. -/
def unpackedPlace (rec : Recovery) (build : Build) (q : Path) : Place :=
  match imageAt build.system q with
  | some (.dir _) => some (.dir rec.dirPerm)
  | some (.file data _) => some (.file data rec.filePerm)
  | _ => none

/-- What is there once the links are made too. -/
def filledPlace (rec : Recovery) (build : Build) (q : Path) : Place :=
  match imageAt build.system q with
  | some (.link dest) => some (.link dest)
  | _ => unpackedPlace rec build q

section Filling

variable {rec : Recovery} {pkg : Package} {build : Build} {p q : Path} {n : Place}

theorem unpackedPlace_dir (h : imageAt build.system q = some (.dir ())) :
    unpackedPlace rec build q = some (.dir rec.dirPerm) := by
  rw [unpackedPlace, h]

theorem unpackedPlace_file {data : Bytes} (h : imageAt build.system q = some (.file data ())) :
    unpackedPlace rec build q = some (.file data rec.filePerm) := by
  rw [unpackedPlace, h]

variable (hz : WellFormed build.system)
include hz

/-- An entry of the package is a directory or a file of the build. -/
theorem exists_of_entry {x : FileName × Bytes} (hx : x ∈ build.system.filterMap loadEntry) :
    ∃ q' m, imageAt build.system q' = some m ∧ x.1.path = "system" :: q' ∧
      loadedData m x.1.slash = some x.2 := by
  obtain ⟨e, he, hload⟩ := List.mem_filterMap.mp hx
  obtain ⟨hpath, hdata⟩ := loadEntry_eq_some_iff.mp hload
  exact ⟨e.path, e.node, (imageAt_eq_some_iff hz).mpr ⟨e, he, rfl, rfl⟩, hpath, hdata⟩

omit hz in
/-- One entry for a path below `/system`. -/
theorem extractAt_system {x : FileName × Bytes} {q' : Path} (hpath : x.1.path = "system" :: q') :
    extractAt rec ["system"] ["system"] x p n =
      if x.1.slash then some (mkdirsAt rec ("system" :: q') p n)
      else if p = "system" :: q' then writeAt rec x.2 n
      else some (mkdirsAt rec ("system" :: q').dropLast p n) := by
  have hpre : ["system"] <+: x.1.path := ⟨q', by rw [hpath]; rfl⟩
  -- below `/system` an entry goes where its path in the package says
  have hdrop : ["system"] ++ x.1.path.drop (["system"] : Path).length = "system" :: q' := by
    rw [hpath]
    rfl
  rw [extractAt, if_pos hpre]
  dsimp only
  rw [hdrop]

/-- Where unpacking makes directories there are directories in the build. -/
theorem imageAt_of_above {q' : Path} (hq : q ≠ []) (hq' : imageAt build.system q' ≠ none)
    (hpre : "system" :: q <+: ("system" :: q').dropLast) :
    imageAt build.system q = some (.dir ()) := by
  obtain ⟨hpre, hne⟩ := (prefix_dropLast (List.cons_ne_nil _ _)).mp hpre
  refine imageAt_above hz hq' hq ((List.prefix_cons_inj "system").mp hpre) ?_
  rintro rfl
  exact hne rfl

/-- **Step lemma**: an entry leaves a path alone, or makes there what is unpacked. -/
theorem extractAt_mem {x : FileName × Bytes} (hx : x ∈ build.system.filterMap loadEntry)
    (hq : q ≠ []) (hn : n = none ∨ n = unpackedPlace rec build q) :
    extractAt rec ["system"] ["system"] x ("system" :: q) n = some n ∨
      extractAt rec ["system"] ["system"] x ("system" :: q) n =
        some (unpackedPlace rec build q) := by
  obtain ⟨q', m, himage, hpath, hdata⟩ := exists_of_entry hz hx
  rw [extractAt_system hpath]
  -- directories are made down to the entry, or above it
  have hmkdirs {path : Path} (hdir : "system" :: q <+: path →
      imageAt build.system q = some (.dir ())) :
      some (mkdirsAt rec path ("system" :: q) n) = some n ∨
        some (mkdirsAt rec path ("system" :: q) n) = some (unpackedPlace rec build q) := by
    rcases mkdirsAt_cases rec path ("system" :: q) n with hsame | ⟨-, hpre, -, hmade⟩
    · exact .inl (congrArg some hsame)
    · right
      rw [hmade, unpackedPlace_dir (hdir hpre)]
  split
  · next hslash =>
    -- only a directory has a slash
    have himage : imageAt build.system q' = some (.dir ()) := by
      rw [hslash] at hdata
      cases m with
      | dir perm => exact himage
      | file data perm => cases hdata
      | link dest => cases hdata
    apply hmkdirs
    intro hpre
    have hpre := (List.prefix_cons_inj "system").mp hpre
    by_cases heq : q = q'
    · rw [heq, himage]
    · exact imageAt_above hz (by simp [himage]) hq hpre heq
  · next hslash =>
    split
    · next heq =>
      right
      obtain rfl := (List.cons_inj_right "system").mp heq
      rw [Bool.not_eq_true] at hslash
      rw [hslash] at hdata
      cases m with
      | dir perm => cases hdata
      | link dest => cases hdata
      | file data perm =>
        cases hdata
        rw [unpackedPlace_file himage] at hn ⊢
        -- a file that was written before is written again
        rcases hn with rfl | rfl
        · rfl
        · rfl
    · exact hmkdirs (imageAt_of_above hz hq (by simp [himage]))

/-- Unpacking, at a path below `/system`. -/
theorem follow_unpack (hq : q ≠ []) :
    follow (extractAt rec ["system"] ["system"]) ("system" :: q) none
      (build.system.filterMap loadEntry) = some (unpackedPlace rec build q) := by
  -- either no entry puts anything at the path, or the entry for it does and the others find it
  -- there
  by_cases hnone : unpackedPlace rec build q = none
  · rw [hnone]
    apply follow_of_id
    intro x hx
    have hcases : extractAt rec ["system"] ["system"] x ("system" :: q) none = some none ∨ _ :=
      extractAt_mem hz hx hq (.inl rfl)
    rw [hnone, or_self] at hcases
    exact hcases
  · apply follow_of_hit
    · intro x hx
      exact extractAt_mem hz hx hq (.inl rfl)
    · intro x hx
      exact (extractAt_mem hz hx hq (.inr rfl)).elim id id
    · -- the entry for the path itself
      have hentry : ∀ m data slash, imageAt build.system q = some m →
          loadedData m slash = some data →
          (⟨"system" :: q, slash⟩, data) ∈ build.system.filterMap loadEntry := by
        intro m data slash himage hdata
        obtain ⟨e, he, rfl, rfl⟩ := (imageAt_eq_some_iff hz).mp himage
        exact List.mem_filterMap.mpr ⟨e, he, loadEntry_eq_some_iff.mpr ⟨rfl, hdata⟩⟩
      cases himage : imageAt build.system q with
      | none => exact absurd (by rw [unpackedPlace, himage]) hnone
      | some m =>
        cases m with
        | dir perm =>
          refine ⟨_, hentry _ [] true himage rfl, ?_⟩
          rw [extractAt_system rfl, if_pos rfl, unpackedPlace_dir himage]
          exact congrArg some (if_pos ⟨List.cons_ne_nil _ _, List.prefix_rfl⟩)
        | file data perm =>
          refine ⟨_, hentry _ data false himage rfl, ?_⟩
          rw [extractAt_system rfl, if_neg Bool.false_ne_true, if_pos rfl,
            unpackedPlace_file himage]
          rfl
        | link dest => exact absurd (by rw [unpackedPlace, himage]) hnone

/-- Unpacking leaves `/system` itself alone, and everything outside. -/
theorem extractAt_outside {x : FileName × Bytes} (hx : x ∈ build.system.filterMap loadEntry)
    (hp : ¬["system"] <+: p ∨ (p = ["system"] ∧ n ≠ none)) :
    extractAt rec ["system"] ["system"] x p n = some n := by
  obtain ⟨q', m, himage, hpath, hdata⟩ := exists_of_entry hz hx
  have hmkdirs {path : Path} (hpre : path <+: "system" :: q') :
      some (mkdirsAt rec path p n) = some n := by
    rcases mkdirsAt_cases rec path p n with hsame | ⟨h0, hp', hnone, -⟩
    · exact congrArg some hsame
    · rcases hp with hp | ⟨-, hn⟩
      · obtain ⟨r, rfl, -⟩ := (List.prefix_cons_iff.mp (hp'.trans hpre)).resolve_left h0
        exact absurd ⟨r, rfl⟩ hp
      · exact absurd hnone hn
  rw [extractAt_system hpath]
  split
  · exact hmkdirs List.prefix_rfl
  · next hslash =>
    rw [if_neg, hmkdirs (List.dropLast_prefix _)]
    rintro rfl
    rcases hp with hp | ⟨hroot, -⟩
    · exact hp ⟨q', rfl⟩
    · -- the root of `/system` is no file
      obtain rfl := (List.cons_inj_right "system").mp hroot
      rw [Bool.not_eq_true] at hslash
      rw [hslash] at hdata
      cases m with
      | dir perm => cases hdata
      | file data perm => exact ne_nil_of_leaf hz himage rfl rfl
      | link dest => cases hdata

/-- The command for another link. -/
theorem act_symlink_of_ne {s : LinkDest String × Path} (hs : s ∈ symlinksOf build.system)
    (hp : s.2 ≠ p) (hn : ∀ q, p = "system" :: q →
      q = [] ∨ imageAt build.system q = some (.dir ()) → n ≠ none) :
    Ota.act rec pkg (.symlink s.1 s.2) p n = some n := by
  obtain ⟨q', hlink, himage⟩ := (mem_symlinksOf hz).mp hs
  rw [Ota.act, if_neg hp.symm]
  -- the only thing a link elsewhere can do here is make a directory above itself, and that one is
  -- there already
  rcases mkdirsAt_cases rec s.2.dropLast p n with hsame | ⟨h0, hpre, hnone, -⟩
  · rw [hsame]
  · rw [hlink] at hpre
    obtain ⟨q, rfl, -⟩ :=
      (List.prefix_cons_iff.mp (hpre.trans (List.dropLast_prefix _))).resolve_left h0
    refine absurd hnone (hn q rfl ?_)
    by_cases hq : q = []
    · exact .inl hq
    · exact .inr (imageAt_of_above hz hq (by simp [himage]) hpre)

/-- Linking leaves `/system` itself alone, and everything outside. -/
theorem act_symlink_of_outside {s : LinkDest String × Path} (hs : s ∈ symlinksOf build.system)
    (hp : ¬["system"] <+: p ∨ (p = ["system"] ∧ n ≠ none)) :
    Ota.act rec pkg (.symlink s.1 s.2) p n = some n := by
  obtain ⟨q, hlink, himage⟩ := (mem_symlinksOf hz).mp hs
  -- every link lies below `/system`
  refine act_symlink_of_ne hz hs ?_ ?_
  · rw [hlink]
    rintro rfl
    rcases hp with hp | ⟨hroot, -⟩
    · exact hp ⟨q, rfl⟩
    · exact ne_nil_of_leaf hz himage rfl ((List.cons_inj_right "system").mp hroot)
  · rintro q rfl -
    rcases hp with hp | ⟨-, hn⟩
    · exact absurd ⟨q, rfl⟩ hp
    · exact hn

/-- Linking, at a path below `/system`. -/
theorem follow_links (hq : q ≠ []) :
    follow (Ota.act rec pkg) ("system" :: q) (unpackedPlace rec build q)
      (makeSymlinksCmds (symlinksOf build.system)) = some (filledPlace rec build q) := by
  -- the directories above a link have been unpacked before
  have hthere : ∀ q', "system" :: q = "system" :: q' →
      q' = [] ∨ imageAt build.system q' = some (.dir ()) → unpackedPlace rec build q ≠ none := by
    intro q' heq hdir
    obtain rfl := (List.cons_inj_right "system").mp heq
    rw [unpackedPlace_dir (hdir.resolve_left hq)]
    exact Option.some_ne_none _
  by_cases hlink : LinkIn build.system q
  · obtain ⟨dest, himage⟩ := hlink
    have hnone : unpackedPlace rec build q = none := by rw [unpackedPlace, himage]
    have hfilled : filledPlace rec build q = some (.link dest) := by rw [filledPlace, himage]
    -- the link is named once
    have hnodup := nodup_symlinksOf hz
    obtain ⟨before, after, hsplit⟩ := List.append_of_mem ((mem_symlinksOf_cons hz).mpr himage)
    have hmem : ∀ s, s ∈ before ∨ s ∈ after → s ∈ symlinksOf build.system := by
      intro s hs
      rw [hsplit]
      simp only [List.mem_append, List.mem_cons]
      exact hs.elim .inl fun h => .inr (.inr h)
    rw [hsplit, List.map_append, List.map_cons, List.nodup_append, List.nodup_cons] at hnodup
    obtain ⟨-, ⟨hafter, -⟩, hbefore⟩ := hnodup
    have hmake : Ota.act rec pkg (.symlink dest ("system" :: q)) ("system" :: q) none =
        some (some (.link dest)) := by
      rw [Ota.act, if_pos rfl]
      rfl
    rw [hsplit, makeSymlinksCmds, List.map_append, List.map_cons, follow_append, follow_of_id,
      Option.bind_some, follow_cons, hnone, hmake, Option.bind_some, follow_of_id, hfilled]
    · intro c hc
      obtain ⟨s, hs, rfl⟩ := List.mem_map.mp hc
      refine act_symlink_of_ne hz (hmem s (.inr hs)) (fun heq => hafter ?_)
        fun _ _ _ => Option.some_ne_none _
      exact List.mem_map.mpr ⟨s, hs, heq⟩
    · intro c hc
      obtain ⟨s, hs, rfl⟩ := List.mem_map.mp hc
      refine act_symlink_of_ne hz (hmem s (.inl hs)) (fun heq => ?_) hthere
      exact hbefore _ (List.mem_map_of_mem hs) _ List.mem_cons_self heq
  · have hfilled : filledPlace rec build q = unpackedPlace rec build q := by
      rw [filledPlace]
      split
      · next dest himage => exact absurd ⟨dest, himage⟩ hlink
      · rfl
    rw [hfilled]
    apply follow_of_id
    intro c hc
    obtain ⟨s, hs, rfl⟩ := List.mem_map.mp hc
    refine act_symlink_of_ne hz hs (fun heq => hlink ⟨s.1, ?_⟩) hthere
    rw [← mem_symlinksOf_cons hz, ← heq]
    exact hs

end Filling

/-! ## §4 Permissions -/

section Permissions

variable {build : Build}

/-- The entries of a well-formed zip fit together. -/
theorem WellFormed.namesFit {z : List ZipEntry} (hz : WellFormed z) : NamesFit z := by
  intro e he hitem hfile e' he' hitem' hpre
  have hpre : e.path <+: e'.path := (List.prefix_cons_inj "system").mp hpre
  have hroot : e.path ≠ [] := by
    intro h
    rw [hz.root e he h] at hfile
    cases hfile
  by_cases heq : e.path = e'.path
  · obtain rfl := List.inj_on_of_nodup_map hz.unique he he' heq
    exact ⟨rfl, hfile⟩
  · -- what is above an entry is a directory, and not this file
    have hdir := hz.above e' he' e.path hroot hpre heq
    have hsame := List.inj_on_of_nodup_map hz.unique he hdir rfl
    rw [hsame] at hfile
    cases hfile

/-- The Items are the directories and files that are built. -/
theorem ItemsOf.builtNode {items : Items} (h : ItemsOf build.system items)
    (hz : WellFormed build.system) (hsystem : ["system"] ∈ items.keys) (q : Path) :
    ("system" :: q ∈ items.keys ↔ ∃ m, builtNode build q = some m ∧ m.isLink = false) ∧
      ∀ r m, items.get? ("system" :: q) = some r → builtNode build q = some m →
        r.dir = m.isDir := by
  -- what the build has at the path of an entry is the entry itself
  have hnode {e : ZipEntry} (he : e ∈ build.system) (hpath : e.path ≠ []) :
      Ota.builtNode build e.path = some e.node := by
    rw [Ota.builtNode, if_neg hpath]
    exact (imageAt_eq_some_iff hz).mpr ⟨e, he, rfl, rfl⟩
  have hkind {e : ZipEntry} : e.isItem = true ↔ e.node.isLink = false := by
    cases e <;> simp [ZipEntry.isItem, ZipEntry.node, Node.isLink]
  have hdirs {e : ZipEntry} : e.isDir = e.node.isDir := by
    cases e <;> rfl
  by_cases hq : q = []
  · subst hq
    refine ⟨iff_of_true hsystem ⟨.dir (), rfl, rfl⟩, fun r m hr hm => ?_⟩
    cases hm
    -- above or at an entry that is a directory or a file
    obtain ⟨e, he, hitem, hpre⟩ := (h.keys _).mp hsystem
    refine (h.dirs _ r hr).mpr ⟨e, he, hitem, hpre, fun heq => ?_⟩
    have hroot := (List.cons_inj_right "system").mp heq
    rw [hz.root e he hroot.symm]
    rfl
  · have habove {e : ZipEntry} (he : e ∈ build.system) (hpre : "system" :: q <+: e.devicePath)
        (hne : q ≠ e.path) : Ota.builtNode build q = some (.dir ()) := by
      rw [Ota.builtNode, if_neg hq, imageAt_dir hz]
      exact hz.above e he q hq ((List.prefix_cons_inj "system").mp hpre) hne
    constructor
    · rw [h.keys]
      constructor
      · rintro ⟨e, he, hitem, hpre⟩
        by_cases heq : q = e.path
        · subst heq
          exact ⟨_, hnode he hq, hkind.mp hitem⟩
        · exact ⟨_, habove he hpre heq, rfl⟩
      · rintro ⟨m, hm, hlink⟩
        rw [Ota.builtNode, if_neg hq] at hm
        obtain ⟨e, he, rfl, rfl⟩ := (imageAt_eq_some_iff hz).mp hm
        exact ⟨e, he, hkind.mpr hlink, List.prefix_rfl⟩
    · intro r m hr hm
      rw [Bool.eq_iff_iff, h.dirs _ r hr]
      constructor
      · rintro ⟨e, he, hitem, hpre, hself⟩
        by_cases heq : q = e.path
        · subst heq
          rw [hnode he hq] at hm
          cases hm
          rw [← hdirs]
          exact hself rfl
        · rw [habove he hpre heq] at hm
          cases hm
          rfl
      · intro hdir
        rw [Ota.builtNode, if_neg hq] at hm
        obtain ⟨e, he, rfl, rfl⟩ := (imageAt_eq_some_iff hz).mp hm
        refine ⟨e, he, hkind.mpr ?_, List.prefix_rfl, fun _ => hdirs.trans hdir⟩
        cases e <;> first | rfl | cases hdir

/-- `SetPermissions` fails unless something is below `system`. -/
theorem mem_keys_of_setSystemPermissions {order : DictOrder} {items : Items} {script : List Cmd}
    (h : setSystemPermissions order items = .ok script) :
    ["system"] ∈ items.keys ∧ ∃ tree, itemTree items (itemFuel items) ["system"] = .ok tree ∧
      script = recurse (bestSubtree order) tree Subtree.unset := by
  obtain ⟨items₁, tree, hitems₁, htree, -, hscript⟩ := setSystemPermissions_ok h
  rw [getItem, List.reverse_singleton, getItemRev] at hitems₁
  split at hitems₁
  · next hmem =>
    cases hitems₁
    exact ⟨hmem, tree, htree, hscript⟩
  · -- a new Item has no metadata
    obtain ⟨items₂, -, hitems₁⟩ := bind_eq_ok_iff.mp hitems₁
    obtain ⟨items₃, -, hitems₁⟩ := bind_eq_ok_iff.mp hitems₁
    cases hitems₁
    rw [itemFuel, itemTree, List.reverse_singleton, Dict.get?_set, if_pos rfl] at htree
    cases htree

/-- The tree `SetPermissions` works on has an item for every directory and file that is
built, with the permissions that are listed. -/
structure TreeOf (build : Build) (tree : Item) : Prop where
  name : tree.name = ["system"]
  wellNamed : tree.WellNamed
  sound : ∀ j ∈ tree.subitems, ∃ q m, j.name = "system" :: q ∧ builtNode build q = some m ∧
    m.isLink = false ∧ j.isDir = m.isDir ∧ listedPerm build.metadata j.name = some j.perm
  complete : ∀ q m, builtNode build q = some m → m.isLink = false →
    ∃ j ∈ tree.subitems, j.name = "system" :: q

theorem treeOf_itemTree {items : Items} {tree : Item} (hz : WellFormed build.system)
    (hitems : ItemsOf build.system items) (hsystem : ["system"] ∈ items.keys)
    (htree : itemTree (getMetadata items build.metadata)
      (itemFuel (getMetadata items build.metadata)) ["system"] = .ok tree) :
    TreeOf build tree := by
  have hshape := SameShape.getMetadata items build.metadata
  have hlinked := hshape.linked hitems.linked
  obtain ⟨hname, hwell, hnames, hrecords⟩ := hlinked.itemTree_spec htree
  have hvisits := (hlinked.visits_spec (itemFuel (getMetadata items build.metadata))
    ((hshape.keys _).mpr hsystem) fun q hq => by
      have := length_lt_itemFuel hq
      omega).2
  refine ⟨hname, hwell, fun j hj => ?_, fun q m hm hlink => ?_⟩
  · -- an item of the tree stands for a node of the build, with the permissions the metadata lists
    -- for it
    obtain ⟨r', hr', hdir, hperm⟩ := hrecords j hj
    have hmem : j.name ∈ visits (getMetadata items build.metadata)
        (itemFuel (getMetadata items build.metadata)) ["system"] :=
      hnames ▸ List.mem_map_of_mem hj
    obtain ⟨hkey, q, hq⟩ := (hvisits _).mp hmem
    rw [hshape.keys] at hkey
    have hq : j.name = "system" :: q := hq.symm
    rw [hq] at hkey hr' ⊢
    obtain ⟨m, hm, hlink⟩ := ((hitems.builtNode hz hsystem q).1).mp hkey
    obtain ⟨r, hr⟩ := (Dict.mem_keys_iff _ _).mp hkey
    refine ⟨q, m, rfl, hm, hlink, ?_, ?_⟩
    · rw [← hdir, (hshape.records _ r r' hr hr').1]
      exact (hitems.builtNode hz hsystem q).2 r m hr hm
    · rw [← perm_getMetadata hr (hitems.fresh _ r hr) hr']
      exact hperm
  · -- and every node that is no link has an item in the tree
    have hkey := ((hitems.builtNode hz hsystem q).1).mpr ⟨m, hm, hlink⟩
    have hmem := (hvisits ("system" :: q)).mpr ⟨(hshape.keys _).mpr hkey, q, rfl⟩
    rw [← hnames] at hmem
    obtain ⟨j, hj, hname⟩ := List.mem_map.mp hmem
    exact ⟨j, hj, hname⟩

/-- Whatever is listed for the files this script generates is no negative owner. -/
theorem listedPerm_nonneg {lines : List MetadataLine}
    (hpos : ∀ line ∈ lines, 0 ≤ line.perm.uid ∧ 0 ≤ line.perm.gid) {name : Path} {perm : Perm}
    (h : listedPerm lines name = some perm) : 0 ≤ perm.uid ∧ 0 ≤ perm.gid := by
  unfold listedPerm at h
  -- the two files with permissions of their own, and those of the metadata
  split at h
  · cases h
    exact ⟨le_rfl, le_rfl⟩
  · split at h
    · cases h
      exact ⟨le_rfl, le_rfl⟩
    · obtain ⟨line, hfind, rfl⟩ := Option.map_eq_some_iff.mp h
      exact hpos line (List.mem_reverse.mp (List.mem_of_find?_eq_some hfind))

end Permissions

/-! ## §5 Formatting and Filling `/system` -/

section System

variable (rec : Recovery) {pkg : Package} {build : Build}

/-- The tree once the partition is formatted, unpacked and linked. -/
def filledTree (build : Build) (fs : DeviceTree) : DeviceTree := fun p =>
  match p with
  | "system" :: q => if q = [] then fs p else filledPlace rec build q
  | _ => fs p

theorem filledTree_cons {fs : DeviceTree} {q : Path} (hq : q ≠ []) :
    filledTree rec build fs ("system" :: q) = filledPlace rec build q :=
  if_neg hq

theorem filledTree_of_ne {fs : DeviceTree} {p : Path} (hp : ∀ q, q ≠ [] → p ≠ "system" :: q) :
    filledTree rec build fs p = fs p := by
  unfold filledTree
  split
  · next q =>
    by_cases hq : q = []
    · exact if_pos hq
    · exact absurd rfl (hp q hq)
  · rfl

/-- Every command that fills the partition fits the directories of the build. -/
theorem fits_filling (hz : WellFormed build.system)
    (hpkg : pkg.system = build.system.filterMap loadEntry) :
    ∀ c ∈ Cmd.unpackPackageDir ["system"] ["system"] ::
      makeSymlinksCmds (symlinksOf build.system), c.Fits (DirOf build) pkg := by
  intro c hc
  rcases List.mem_cons.mp hc with rfl | hc
  · -- an entry is unpacked where the build has its node
    intro x hx _
    obtain ⟨q, m, himage, hpath, hdata⟩ := exists_of_entry hz (hpkg ▸ hx)
    have hdrop : ["system"] ++ x.1.path.drop (["system"] : Path).length = "system" :: q := by
      rw [hpath]
      rfl
    rw [hdrop]
    split
    · next hslash =>
      rw [hslash] at hdata
      cases m with
      | dir perm => exact ⟨below_dirOf hz (by simp [himage]), dirOf_cons.mpr (.inr himage)⟩
      | file data perm => cases hdata
      | link dest => cases hdata
    · next hslash =>
      rw [Bool.not_eq_true] at hslash
      rw [hslash] at hdata
      cases m with
      | dir perm => cases hdata
      | file data perm => exact filePath_dirOf hz himage rfl
      | link dest => cases hdata
  · -- and a link is made where the build has the link
    obtain ⟨s, hs, rfl⟩ := List.mem_map.mp hc
    obtain ⟨q, hlink, himage⟩ := (mem_symlinksOf hz).mp hs
    show FilePath (DirOf build) s.2
    rw [hlink]
    exact filePath_dirOf hz himage rfl

/-- Filling an empty partition, at each path. -/
theorem follow_filling (hz : WellFormed build.system)
    (hpkg : pkg.system = build.system.filterMap loadEntry) {fs : DeviceTree}
    (hroot : DirAt fs ["system"]) (hempty : ∀ q, q ≠ [] → fs ("system" :: q) = none) (p : Path) :
    follow (act rec pkg) p (fs p) (.unpackPackageDir ["system"] ["system"] ::
      makeSymlinksCmds (symlinksOf build.system)) = some (filledTree rec build fs p) := by
  have hunpack (n : Place) : act rec pkg (.unpackPackageDir ["system"] ["system"]) p n =
      follow (extractAt rec ["system"] ["system"]) p n (build.system.filterMap loadEntry) := by
    rw [← hpkg]
    rfl
  rw [follow_cons, hunpack]
  -- below `/system` nothing is there before: formatting has emptied it
  by_cases hp : ∃ q, q ≠ [] ∧ p = "system" :: q
  · obtain ⟨q, hq, rfl⟩ := hp
    rw [hempty q hq, follow_unpack hz hq, Option.bind_some, filledTree_cons rec hq]
    exact follow_links hz hq
  · -- `/system` itself, and everything outside
    have hp : ∀ q, q ≠ [] → p ≠ "system" :: q := fun q hq heq => hp ⟨q, hq, heq⟩
    have hself : p = ["system"] → fs p ≠ none := by
      rintro rfl
      exact hroot.ne_none (List.cons_ne_nil _ _)
    have hcases : ¬["system"] <+: p ∨ (p = ["system"] ∧ fs p ≠ none) := by
      by_cases hpre : ["system"] <+: p
      · obtain ⟨q, rfl⟩ := prefix_system hpre
        have hq : q = [] := by
          by_contra hq
          exact hp q hq rfl
        subst hq
        exact .inr ⟨rfl, hself rfl⟩
      · exact .inl hpre
    rw [filledTree_of_ne rec hp, follow_of_id _ _ fun x hx => extractAt_outside hz hx hcases,
      Option.bind_some]
    apply follow_of_id
    intro c hc
    obtain ⟨s, hs, rfl⟩ := List.mem_map.mp hc
    exact act_symlink_of_outside hz hs hcases

/-- Nothing is where a directory belongs. -/
theorem soundTree_of_empty {fs : DeviceTree} (ht : Treelike fs) (hroot : DirAt fs ["system"])
    (hempty : ∀ q, q ≠ [] → fs ("system" :: q) = none) : SoundTree (DirOf build) fs := by
  refine ⟨ht, ?_⟩
  rintro a ⟨q, rfl, -⟩
  by_cases hq : q = []
  · subst hq
    exact hroot.freeAt
  · right
    simp [hempty q hq]

/-- Filling an empty partition. -/
theorem runTree_filling (hz : WellFormed build.system)
    (hpkg : pkg.system = build.system.filterMap loadEntry) {fs : DeviceTree} (ht : Treelike fs)
    (hroot : DirAt fs ["system"]) (hempty : ∀ q, q ≠ [] → fs ("system" :: q) = none) :
    runTree rec pkg fs (.unpackPackageDir ["system"] ["system"] ::
        makeSymlinksCmds (symlinksOf build.system)) = some (filledTree rec build fs) ∧
      Treelike (filledTree rec build fs) := by
  have hsound : SoundTree (DirOf build) fs := soundTree_of_empty ht hroot hempty
  have hacts := run_of_follow fun c hc => execTree_actsAs rec pkg (fits_filling hz hpkg c hc)
  obtain ⟨hrun, htree⟩ := hacts fs (filledTree rec build fs) hsound
    (follow_filling rec hz hpkg hroot hempty)
  exact ⟨hrun, htree.tree⟩

/-- What is filled in is what is built, but for the permissions. -/
theorem contents_filledTree {fs : DeviceTree} (hroot : DirAt fs ["system"]) (q : Path) :
    (filledTree rec build fs ("system" :: q)).map Node.contents = builtNode build q := by
  -- the root keeps its node, every other path has the one of the build
  by_cases hq : q = []
  · subst hq
    rw [filledTree_of_ne rec fun q hq heq => hq ((List.cons_inj_right "system").mp heq).symm]
    have hdir := hroot.resolve_left (List.cons_ne_nil _ _)
    cases hfs : fs ["system"] with
    | none =>
      rw [hfs] at hdir
      cases hdir
    | some n =>
      rw [hfs] at hdir
      cases n with
      | dir perm => rfl
      | file data perm => cases hdir
      | link dest => cases hdir
  · rw [filledTree_cons rec hq, builtNode, if_neg hq, filledPlace]
    split
    · next himage =>
      rw [himage]
      rfl
    · next hlink =>
      rw [unpackedPlace]
      split
      · next himage =>
        rw [himage]
        rfl
      · next himage =>
        rw [himage]
        rfl
      · next hdir hfile =>
        cases himage : imageAt build.system q with
        | none => rfl
        | some m =>
          cases m with
          | dir perm => exact absurd himage (hdir perm)
          | file data perm => exact absurd himage (hfile data perm)
          | link dest => exact absurd himage (hlink dest)

/-- Contents and permissions make a node. -/
theorem eq_withListed {n : Place} {m : Node String Bytes Unit} {perm : Option Perm}
    (hcontents : n.map Node.contents = some m)
    (hperm : m.isLink = false → n.bind Node.perm? = perm ∧ perm ≠ none) :
    n = withListed perm m := by
  obtain ⟨k, rfl, rfl⟩ := Option.map_eq_some_iff.mp hcontents
  -- a link has no permissions of its own
  cases k with
  | dir perm =>
    obtain ⟨rfl, -⟩ := hperm rfl
    rfl
  | file data perm =>
    obtain ⟨rfl, -⟩ := hperm rfl
    rfl
  | link dest => rfl

/-- The tree once the partition is formatted. -/
def formatted (fs : DeviceTree) : DeviceTree := fun p =>
  if ["system"] <+: p ∧ p ≠ ["system"] then none else fs p

theorem formatted_cons {fs : DeviceTree} {q : Path} (hq : q ≠ []) :
    formatted fs ("system" :: q) = none :=
  if_pos ⟨⟨q, rfl⟩, fun heq => hq ((List.cons_inj_right "system").mp heq)⟩

theorem formatted_outside {fs : DeviceTree} {p : Path} (hp : ¬["system"] <+: p) :
    formatted fs p = fs p :=
  if_neg fun h => hp h.1

theorem treelike_formatted {fs : DeviceTree} (ht : Treelike fs) : Treelike (formatted fs) := by
  have hsound : SoundTree (fun _ => False) fs := ⟨ht, fun _ h => h.elim⟩
  exact (actsAs_formatPartition plainRecovery ⟨[], []⟩ ["system"] fs (formatted fs) hsound
    fun _ => rfl).2.tree

/-- The script in its parts. -/
theorem systemCmds_eq (symlinks : List (LinkDest String × Path)) (permissions : List Cmd) :
    systemCmds symlinks permissions = [.formatPartition ["system"], .mount ["system"]] ++
      ((.unpackPackageDir ["system"] ["system"] :: makeSymlinksCmds symlinks) ++ permissions) := by
  simp [systemCmds]

/-- The permission commands come from a tree of what is built. -/
theorem exists_treeOf {order : DictOrder} {items : Items} {permissions : List Cmd}
    (hz : WellFormed build.system) (hcopy : copySystemItems Dict.empty build.system = .ok items)
    (hset : setSystemPermissions order (getMetadata items build.metadata) = .ok permissions) :
    ∃ tree, TreeOf build tree ∧
      permissions = recurse (bestSubtree order) tree Subtree.unset := by
  obtain ⟨items', hcopy', hitems⟩ := itemsOf_nil.loop hz.namesFit (List.nil_append _).symm
  obtain rfl : items' = items := Except.ok.inj (hcopy'.symm.trans hcopy)
  obtain ⟨hsystem, tree, htree, hscript⟩ := mem_keys_of_setSystemPermissions hset
  exact ⟨tree, treeOf_itemTree hz hitems
    (((SameShape.getMetadata items' build.metadata).keys _).mp hsystem) htree, hscript⟩

/-- The filled partition has every item. -/
theorem TreeOf.hasTree {tree : Item} (h : TreeOf build tree) {fs : DeviceTree}
    (hroot : DirAt fs ["system"]) : HasTree (filledTree rec build fs) tree := by
  intro j hj
  obtain ⟨q, m, hname, hm, hlink, hdir, -⟩ := h.sound j hj
  have hnode : (filledTree rec build fs ("system" :: q)).map Node.contents = builtNode build q :=
    contents_filledTree rec hroot q
  rw [hm] at hnode
  obtain ⟨n, hn, rfl⟩ := Option.map_eq_some_iff.mp hnode
  exact ⟨n, by rw [hname, hn], by rw [hdir, n.isDir_contents], by rw [← hlink, n.isLink_contents]⟩

/-- **The partition is made anew**: from any tree with a directory `/system`, formatting and
filling it makes exactly what is built, with the permissions that are listed, and changes
nothing else. -/
theorem runTree_systemCmds {order : DictOrder} {items : Items} {permissions : List Cmd}
    (hz : WellFormed build.system)
    (hpos : ∀ line ∈ build.metadata, 0 ≤ line.perm.uid ∧ 0 ≤ line.perm.gid)
    (hcopy : copySystemItems Dict.empty build.system = .ok items)
    (hset : setSystemPermissions order (getMetadata items build.metadata) = .ok permissions)
    (hpkg : pkg.system = build.system.filterMap loadEntry) {fs : DeviceTree} (ht : Treelike fs)
    (hroot : DirAt fs ["system"]) :
    ∃ fs', runTree rec pkg fs (systemCmds (symlinksOf build.system) permissions) = some fs' ∧
      Treelike fs' ∧ (∀ q, fs' ("system" :: q) = builtPlace build q) ∧
      ∀ p, ¬["system"] <+: p → fs' p = fs p := by
  have hroot₀ : DirAt (formatted fs) ["system"] := hroot
  obtain ⟨hrun₁, ht₁⟩ := runTree_filling rec hz hpkg (treelike_formatted ht) hroot₀
    fun q hq => formatted_cons hq
  obtain ⟨tree, htree, rfl⟩ := exists_treeOf hz hcopy hset
  obtain ⟨fs', hrun₂, hsame, hframe, hperm⟩ := setsOwn rec pkg (bestSubtree order) tree
    htree.wellNamed (fun j hj => by
      obtain ⟨q, m, -, -, -, -, hlisted⟩ := htree.sound j hj
      exact listedPerm_nonneg hpos hlisted)
    (filledTree rec build (formatted fs)) Subtree.unset ht₁ (htree.hasTree rec hroot₀) (.inl rfl)
  -- first the tree is filled, then the permissions are set, and each part ends where the next
  -- begins
  refine ⟨fs', ?_, hsame.treelike ht₁, fun q => ?_, fun p hp => ?_⟩
  · have hformat : runTree rec pkg fs [.formatPartition ["system"], .mount ["system"]] =
        some (formatted fs) := rfl
    rw [systemCmds_eq, runTree_append, hformat, Option.bind_some, runTree_append, hrun₁,
      Option.bind_some, hrun₂]
  · have hnode := (hsame ("system" :: q)).trans (contents_filledTree rec hroot₀ q)
    rw [builtPlace]
    cases hm : builtNode build q with
    | none =>
      rw [hm] at hnode
      exact Option.map_eq_none_iff.mp hnode
    | some m =>
      rw [hm] at hnode
      refine eq_withListed hnode fun hlink => ?_
      -- what is no link is an item
      obtain ⟨j, hj, hname⟩ := htree.complete q m hm hlink
      obtain ⟨-, -, -, -, -, -, hlisted⟩ := htree.sound j hj
      have hset := hperm j hj
      rw [hname] at hlisted hset
      rw [hlisted]
      exact ⟨hset, Option.some_ne_none _⟩
  · have hne : ∀ q, q ≠ [] → p ≠ "system" :: q := by
      rintro q - rfl
      exact hp ⟨q, rfl⟩
    rw [hframe p (by rw [htree.name]; exact hp), filledTree_of_ne rec hne, formatted_outside hp]

end System

end OdroidU2.Ota
