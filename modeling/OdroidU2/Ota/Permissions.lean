import OdroidU2.Ota.Item
import OdroidU2.Ota.Updater

/-!
# `SetPermissions` Sets Every Permission

The commands `Item.SetPermissions` appends leave every item of the tree with its own
owner, group and mode, whatever was there before and whatever subtrees are thought best.

The invariant of the recursion: when it reaches an item with `current`, either no tuple
has been set yet, or the item and everything below it has been set to `current`
(`SetTo`).  A recursive command establishes it for the whole subtree, a command for one
item breaks it for that item only, and siblings do not touch each other.
-/

namespace OdroidU2.Ota

open OdroidU2.Foundations FileTree

variable (rec : Recovery) (pkg : Package)

/-! ## §1 What the Device Holds -/

/-- The permissions the device has at a path. -/
def permAt (fs : DeviceTree) (p : Path) : Option Perm := (fs p).bind Node.perm?

/-- The device has a directory or a file where the item says so. -/
def HasItem (fs : DeviceTree) (i : Item) : Prop :=
  ∃ n, fs i.name = some n ∧ n.isDir = i.isDir ∧ n.isLink = false

/-- The device has every item of the tree. -/
def HasTree (fs : DeviceTree) (i : Item) : Prop := ∀ j ∈ i.subitems, HasItem fs j

/-- Every item has a non-negative owner and group. -/
def OwnersNonneg (i : Item) : Prop := ∀ j ∈ i.subitems, 0 ≤ j.perm.uid ∧ 0 ≤ j.perm.gid

/-- Nothing but permissions differs. -/
def SameContents (fs fs' : DeviceTree) : Prop :=
  ∀ q, (fs' q).map Node.contents = (fs q).map Node.contents

/-- The item and everything below it has been set to `current`, if anything has. -/
def SetTo (fs : DeviceTree) (i : Item) (current : Subtree) : Prop :=
  current = Subtree.unset ∨ ∀ j ∈ i.subitems, permAt fs j.name = some (current.permFor j)

theorem SameContents.refl (fs : DeviceTree) : SameContents fs fs := fun _ => rfl

theorem SameContents.trans {fs₁ fs₂ fs₃ : DeviceTree} (h : SameContents fs₁ fs₂)
    (h' : SameContents fs₂ fs₃) : SameContents fs₁ fs₃ :=
  fun q => (h' q).trans (h q)

theorem SameContents.treelike {fs fs' : DeviceTree} (h : SameContents fs fs')
    (ht : Treelike fs) : Treelike fs' := by
  apply ht.of_same
  intro q
  have hdir := congrArg (Option.map Node.isDir) (h q)
  simpa [Option.map_map, Function.comp_def, Node.isDir_contents] using hdir

theorem SameContents.hasItem {fs fs' : DeviceTree} (h : SameContents fs fs') {i : Item}
    (hi : HasItem fs i) : HasItem fs' i := by
  obtain ⟨n, hn, hdir, hlink⟩ := hi
  have hmap := h i.name
  rw [hn, Option.map_some, Option.map_eq_some_iff] at hmap
  obtain ⟨n', hn', hcontents⟩ := hmap
  refine ⟨n', hn', ?_, ?_⟩
  · rw [← n'.isDir_contents, hcontents, n.isDir_contents, hdir]
  · rw [← n'.isLink_contents, hcontents, n.isLink_contents, hlink]

/-! ## §2 One Command -/

/-- After `set_perm` a file or directory has the permissions given. -/
theorem perm?_setPerm {n : Node String Bytes Perm} (hlink : n.isLink = false) (dperm fperm : Perm) :
    (n.setPerm dperm fperm).perm? = some (if n.isDir then dperm else fperm) := by
  cases n with
  | dir _ => rfl
  | file _ _ => rfl
  | link _ => cases hlink

theorem HasItem.ne_none {fs : DeviceTree} {i : Item} (h : HasItem fs i) : fs i.name ≠ none := by
  obtain ⟨n, hn, -, -⟩ := h
  rw [hn]
  exact Option.some_ne_none n

theorem HasItem.noLinkAt {fs : DeviceTree} {i : Item} (h : HasItem fs i) :
    NoLinkAt fs i.name := by
  obtain ⟨n, hn, -, hlink⟩ := h
  intro m hm
  rw [hn, Option.mem_some_iff] at hm
  rw [← hm, hlink]

/-- The command for one item. -/
theorem execTree_setPermissions {fs : DeviceTree} {i : Item} (ht : Treelike fs)
    (hi : HasItem fs i) (perm : Perm) :
    ∃ fs', execTree rec pkg fs (.setPermissions i.name perm.uid perm.gid perm.mode) = some fs' ∧
      SameContents fs fs' ∧ (∀ q, q ≠ i.name → fs' q = fs q) ∧
      permAt fs' i.name = some perm := by
  have hplain := ht.plain hi.ne_none
  have hrun : execTree rec pkg fs (.setPermissions i.name perm.uid perm.gid perm.mode) = _ :=
    setPerm_eq perm ht hplain hi.noLinkAt
  obtain ⟨n, hn, -, hlink⟩ := hi
  rw [hn, Option.map_some] at hrun
  refine ⟨_, hrun, fun q => ?_, fun q hq => Function.update_of_ne hq .., ?_⟩
  · -- new permissions, the same contents
    by_cases hq : q = i.name
    · subst hq
      rw [Function.update_self, hn, Option.map_some, Option.map_some, Node.contents_setPerm]
    · rw [Function.update_of_ne hq]
  · rw [permAt, Function.update_self, Option.bind_some, perm?_setPerm hlink, ite_self]

/-- The command for a directory and everything below it. -/
theorem execTree_setPermissionsRecursive {fs : DeviceTree} {i : Item} (ht : Treelike fs)
    (hi : HasItem fs i) (b : Subtree) :
    ∃ fs', execTree rec pkg fs (.setPermissionsRecursive i.name b.uid b.gid b.dmode b.fmode) =
        some fs' ∧
      SameContents fs fs' ∧ (∀ q, ¬ i.name <+: q → fs' q = fs q) ∧
      ∀ j, i.name <+: j.name → HasItem fs j → permAt fs' j.name = some (b.permFor j) := by
  have hplain := ht.plain hi.ne_none
  have hrun := setPermRecursive_eq (⟨b.uid, b.gid, b.dmode⟩ : Perm) ⟨b.uid, b.gid, b.fmode⟩ ht
    hplain hi.noLinkAt
  obtain ⟨n, hn, -, -⟩ := hi
  rw [hn, Option.map_some] at hrun
  refine ⟨_, hrun, fun q => ?_, fun q hq => if_neg hq, ?_⟩
  · dsimp only
    split
    · rw [Option.map_map]
      congr 1
      funext m
      exact m.contents_setPerm _ _
    · rfl
  · -- an item below gets the directory's or the file's mode by its kind
    intro j hj hjhas
    obtain ⟨m, hm, hdir, hlink⟩ := hjhas
    rw [permAt, if_pos hj, hm, Option.map_some, Option.bind_some, perm?_setPerm hlink, hdir,
      Subtree.permFor]
    split <;> rfl

/-- `set_perm` for an item that is set to `current`, or to nothing yet. -/
theorem runTree_setOwn {fs : DeviceTree} {i : Item} {current : Subtree} (ht : Treelike fs)
    (hi : HasItem fs i) (hpos : 0 ≤ i.perm.uid) (hset : SetTo fs i current) :
    ∃ fs', runTree rec pkg fs (setOwn i current) = some fs' ∧ SameContents fs fs' ∧
      (∀ q, q ≠ i.name → fs' q = fs q) ∧ permAt fs' i.name = some i.perm := by
  rw [setOwn]
  by_cases hsame : i.perm = current.permFor i
  · rw [if_neg (not_not_intro hsame)]
    refine ⟨fs, rfl, .refl fs, fun _ _ => rfl, ?_⟩
    rcases hset with rfl | hset
    · -- no item has the owner `-1`
      have huid : i.perm.uid = -1 := congrArg Perm.uid hsame
      omega
    · rw [hset i i.self_mem_subitems, ← hsame]
  · -- the item differs from what its directory was set to, so it has a command of its own
    obtain ⟨fs', hrun, hsameContents, hframe, hperm⟩ :=
      execTree_setPermissions rec pkg ht hi i.perm
    rw [if_pos hsame, runTree_cons, hrun]
    exact ⟨fs', rfl, hsameContents, hframe, hperm⟩

/-! ## §3 The Recursion -/

/-- What the recursion does at an item: it succeeds, touches permissions below the item
only, and leaves every item below with its own. -/
def SetsOwn (best : Item → Subtree) (i : Item) : Prop :=
  ∀ fs current, Treelike fs → HasTree fs i → SetTo fs i current →
    ∃ fs', runTree rec pkg fs (recurse best i current) = some fs' ∧ SameContents fs fs' ∧
      (∀ q, ¬ i.name <+: q → fs' q = fs q) ∧ ∀ j ∈ i.subitems, permAt fs' j.name = some j.perm

/-- Different names in one directory are apart. -/
theorem not_prefix_of_ne {name q : Path} {x y : String} (hxy : x ≠ y) (hy : name ++ [y] <+: q) :
    ¬ name ++ [x] <+: q := by
  intro hx
  have hle := List.prefix_of_prefix_length_le hx hy (by simp)
  obtain ⟨-, heq⟩ := List.append_inj' (hle.eq_of_length (by simp)) rfl
  exact hxy (List.cons.inj heq).1

/-- The children of a directory, one after the other. -/
theorem runTree_recurseAll (best : Item → Subtree) (name : Path) (l : List Item)
    (hspec : ∀ i ∈ l, SetsOwn rec pkg best i) (hwell : ∀ i ∈ l, i.WellNamed)
    (hbelow : ∀ i ∈ l, ∃ x, i.name = name ++ [x]) (hapart : (l.map Item.name).Nodup)
    (fs : DeviceTree) (current : Subtree) (ht : Treelike fs) (hhas : ∀ i ∈ l, HasTree fs i)
    (hset : ∀ i ∈ l, SetTo fs i current) :
    ∃ fs', runTree rec pkg fs (recurseAll best l current) = some fs' ∧ SameContents fs fs' ∧
      (∀ q, (∀ i ∈ l, ¬ i.name <+: q) → fs' q = fs q) ∧
      ∀ i ∈ l, ∀ j ∈ i.subitems, permAt fs' j.name = some j.perm := by
  induction l generalizing fs with
  | nil => exact ⟨fs, rfl, .refl fs, fun _ _ => rfl, fun _ h => by cases h⟩
  | cons i rest ih =>
    rw [List.map_cons, List.nodup_cons] at hapart
    -- what is below one child is not below another
    have hother : ∀ k ∈ rest, ∀ q, k.name <+: q → ¬ i.name <+: q := by
      intro k hk q hkq
      obtain ⟨x, hx⟩ := hbelow i List.mem_cons_self
      obtain ⟨y, hy⟩ := hbelow k (List.mem_cons_of_mem i hk)
      rw [hy] at hkq
      rw [hx]
      refine not_prefix_of_ne (fun hxy => hapart.1 ?_) hkq
      exact List.mem_map.mpr ⟨k, hk, by rw [hx, hy, hxy]⟩
    obtain ⟨fs₁, hrun₁, hsame₁, hframe₁, hown₁⟩ := hspec i List.mem_cons_self fs current ht
      (hhas i List.mem_cons_self) (hset i List.mem_cons_self)
    -- what the first child does stays below it, so the others are still set to `current`
    have hset₁ : ∀ k ∈ rest, SetTo fs₁ k current := by
      intro k hk
      apply (hset k (List.mem_cons_of_mem i hk)).imp id
      intro hk' j hj
      have hbelowk := (hwell k (List.mem_cons_of_mem i hk)).named_below hj
      rw [permAt, hframe₁ _ (hother k hk _ hbelowk)]
      exact hk' j hj
    obtain ⟨fs₂, hrun₂, hsame₂, hframe₂, hown₂⟩ :=
      ih (fun k hk => hspec k (List.mem_cons_of_mem i hk))
        (fun k hk => hwell k (List.mem_cons_of_mem i hk))
        (fun k hk => hbelow k (List.mem_cons_of_mem i hk)) hapart.2 fs₁ (hsame₁.treelike ht)
        (fun k hk j hj => hsame₁.hasItem (hhas k (List.mem_cons_of_mem i hk) j hj)) hset₁
    refine ⟨fs₂, ?_, hsame₁.trans hsame₂, fun q hq => ?_, fun k hk j hj => ?_⟩
    · rw [recurseAll, runTree_append, hrun₁, Option.bind_some, hrun₂]
    · rw [hframe₂ q fun k hk => hq k (List.mem_cons_of_mem i hk),
        hframe₁ q (hq i List.mem_cons_self)]
    · rcases List.mem_cons.mp hk with rfl | hk
      · -- the later children leave this one alone
        have hbelowi := (hwell k List.mem_cons_self).named_below hj
        rw [permAt, hframe₂ _ fun k' hk' hk'' => hother k' hk' _ hk'' hbelowi]
        exact hown₁ j hj
      · exact hown₂ k hk j hj

/-- **Step lemma**: the recursive command, if any, sets the subtree to the best tuple. -/
theorem runTree_setBest (fs : DeviceTree) (current b : Subtree) (i : Item) (ht : Treelike fs)
    (hwell : i.WellNamed) (hhas : HasTree fs i) (hset : SetTo fs i current) :
    ∃ fs', runTree rec pkg fs (if current ≠ b then
        [.setPermissionsRecursive i.name b.uid b.gid b.dmode b.fmode] else []) = some fs' ∧
      SameContents fs fs' ∧ (∀ q, ¬ i.name <+: q → fs' q = fs q) ∧ SetTo fs' i b := by
  -- the command is emitted only where the best setting changes
  by_cases hb : current = b
  · rw [if_neg (not_not_intro hb)]
    exact ⟨fs, rfl, .refl fs, fun _ _ => rfl, hb ▸ hset⟩
  · obtain ⟨fs', hrun, hsame, hframe, hperm⟩ := execTree_setPermissionsRecursive rec pkg ht
      (hhas i i.self_mem_subitems) b
    rw [if_pos hb, runTree_cons, hrun]
    exact ⟨fs', rfl, hsame, hframe, .inr fun j hj => hperm j (hwell.named_below hj) (hhas j hj)⟩

/-- The recursion sets every item, by induction on the tree. -/
theorem setsOwn (best : Item → Subtree) (i : Item) (hwell : i.WellNamed)
    (hpos : OwnersNonneg i) : SetsOwn rec pkg best i := by
  induction i using Item.ind with
  | file name perm =>
    intro fs current ht hhas hset
    have hself := Item.self_mem_subitems (.file name perm)
    obtain ⟨fs', hrun, hsame, hframe, hperm⟩ :=
      runTree_setOwn rec pkg ht (hhas _ hself) (hpos _ hself).1 hset
    refine ⟨fs', hrun, hsame, fun q hq => hframe q ?_, fun j hj => ?_⟩
    · rintro rfl
      exact hq List.prefix_rfl
    · obtain rfl := List.mem_singleton.mp hj
      exact hperm
  | dir name perm children ih =>
    intro fs current ht hhas hset
    set dir := Item.dir name perm children with hdir
    set b := best dir with hb
    have hself := dir.self_mem_subitems
    -- first the whole subtree, then the directory itself, then the children
    obtain ⟨fs₁, hrun₁, hsame₁, hframe₁, hset₁⟩ :=
      runTree_setBest rec pkg fs current b dir ht hwell hhas hset
    obtain ⟨fs₂, hrun₂, hsame₂, hframe₂, hperm₂⟩ := runTree_setOwn rec pkg
      (hsame₁.treelike ht) (hsame₁.hasItem (hhas dir hself)) (hpos dir hself).1 hset₁
    obtain ⟨below, apart, wellNamed⟩ := hwell.children
    have hchild : ∀ i ∈ children, ∀ j ∈ i.subitems, j ∈ dir.subitems :=
      fun i hi j hj => Item.mem_subitems_dir.mpr (.inr ⟨i, hi, hj⟩)
    have hbelow : ∀ i ∈ children, ∀ q, i.name <+: q → q ≠ name := by
      intro i hi q hq heq
      obtain ⟨x, hx⟩ := below i hi
      have hle := hq.length_le
      rw [hx, heq, List.length_append, List.length_singleton] at hle
      omega
    have hsame₁₂ := hsame₁.trans hsame₂
    -- the directory's own command leaves the children as the recursive one has set them
    have hset₂ : ∀ i ∈ children, SetTo fs₂ i b := by
      intro i hi
      apply hset₁.imp id
      intro h j hj
      have hne := hbelow i hi _ ((wellNamed i hi).named_below hj)
      rw [permAt, hframe₂ _ hne]
      exact h j (hchild i hi j hj)
    obtain ⟨fs₃, hrun₃, hsame₃, hframe₃, hperm₃⟩ := runTree_recurseAll rec pkg best name children
      (fun i hi => ih i hi (wellNamed i hi) fun j hj => hpos j (hchild i hi j hj)) wellNamed below
      apart fs₂ b (hsame₁₂.treelike ht)
      (fun i hi j hj => hsame₁₂.hasItem (hhas j (hchild i hi j hj))) hset₂
    refine ⟨fs₃, ?_, hsame₁₂.trans hsame₃, fun q hq => ?_, fun j hj => ?_⟩
    · -- the commands in the order of `recurse`
      have hcmds : recurse best dir current =
          (if current ≠ b then
            [.setPermissionsRecursive dir.name b.uid b.gid b.dmode b.fmode] else []) ++
            (setOwn dir b ++ recurseAll best children b) := by
        rw [hdir, recurse]
        rfl
      rw [hcmds, runTree_append, hrun₁, Option.bind_some, runTree_append, hrun₂, Option.bind_some,
        hrun₃]
    · have hchildren : ∀ i ∈ children, ¬ i.name <+: q := by
        intro i hi hiq
        obtain ⟨x, hx⟩ := below i hi
        exact hq ((hx ▸ List.prefix_append name [x]).trans hiq)
      have hne : q ≠ dir.name := by
        rintro rfl
        exact hq List.prefix_rfl
      rw [hframe₃ q hchildren, hframe₂ q hne, hframe₁ q hq]
    · rcases Item.mem_subitems_dir.mp hj with rfl | ⟨i, hi, hji⟩
      · -- the children's commands leave the directory itself alone
        have hframe : fs₃ dir.name = fs₂ dir.name :=
          hframe₃ name fun i hi hin => hbelow i hi name hin rfl
        rw [← hdir, permAt, hframe]
        exact hperm₂
      · exact hperm₃ i hi j hji

/-! ## §4 The Script -/

/-- A permission command concerns the file system alone, and every device allows it. -/
theorem runBoot_permissions {script : List Cmd} (boot : Bytes)
    (hperm : ∀ c ∈ script, ∃ p, c.permPath? = some p) :
    runBoot rec pkg boot script = some boot := by
  induction script with
  | nil => rfl
  | cons c script ih =>
    obtain ⟨p, hp⟩ := hperm c List.mem_cons_self
    have hc : execBoot rec pkg boot c = some boot := by
      cases c <;> first | rfl | cases hp
    rw [runBoot_cons, hc, Option.bind_some]
    exact ih fun c hc => hperm c (List.mem_cons_of_mem _ hc)

theorem allows_of_permPath? {d : Device} {c : Cmd} {p : Path} (hp : c.permPath? = some p) :
    d.Allows c := by
  cases c <;> first | exact trivial | cases hp

/-- Executing the commands of `SetPermissions` leaves every item of the tree with exactly
its own owner, group and mode, and changes nothing but permissions. -/
theorem setPermissions_sets_own (order : DictOrder) (tree : ItemTree)
    (hpos : OwnersNonneg tree.root) (d : Device) (ht : Treelike d.fs)
    (hhas : HasTree d.fs tree.root) (script : List Cmd)
    (hscript : setPermissions order tree.root = some script) :
    ∃ d', runScript rec pkg d script = some d' ∧ SameContents d.fs d'.fs ∧
      ∀ i ∈ tree.root.subitems, permAt d'.fs i.name = some i.perm := by
  rw [setPermissions, Option.ite_none_right_eq_some, Option.some.injEq] at hscript
  obtain ⟨-, rfl⟩ := hscript
  obtain ⟨fs, hrun, hsame, -, hown⟩ := setsOwn rec pkg (bestSubtree order) tree.root
    tree.wellNamed hpos d.fs Subtree.unset ht hhas (.inl rfl)
  -- the script does nothing but set permissions
  have hperm : ∀ c ∈ recurse (bestSubtree order) tree.root Subtree.unset,
      ∃ p, c.permPath? = some p := by
    intro c hc
    obtain ⟨j, -, hj⟩ := permPath?_recurse _ _ _ c hc
    exact ⟨j.name, hj⟩
  refine ⟨{ d with fs := fs }, ?_, hsame, hown⟩
  rw [runScript_eq_some_iff]
  refine ⟨fun c hc => ?_, hrun, runBoot_permissions rec pkg d.boot hperm, rfl, rfl⟩
  obtain ⟨p, hp⟩ := hperm c hc
  exact allows_of_permPath? hp

/-- A system image with one program. -/
def smallTree : ItemTree where
  root := .dir ["system"] ⟨0, 0, 0o755⟩
    [.dir ["system", "bin"] ⟨0, 2000, 0o755⟩ [.file ["system", "bin", "sh"] ⟨0, 2000, 0o755⟩],
      .file ["system", "build.prop"] ⟨0, 0, 0o644⟩]
  wellNamed := by
    refine .dir _ _ _ (by simp [Item.name]) (by simp [Item.name]) fun i hi => ?_
    rcases List.mem_pair.mp hi with rfl | rfl
    · refine .dir _ _ _ (by simp [Item.name]) (by simp [Item.name]) fun i hi => ?_
      rw [List.mem_singleton.mp hi]
      exact .file _ _
    · exact .file _ _

/-- A device with the files of `smallTree`, all owned by someone else. -/
def smallDevice : Device where
  fs := Function.update (Function.update (Function.update (Function.update (fun _ => none)
    ["system"] (some (.dir ⟨7, 7, 0⟩))) ["system", "bin"] (some (.dir ⟨7, 7, 0⟩)))
    ["system", "bin", "sh"] (some (.file [1] ⟨7, 7, 0⟩)))
    ["system", "build.prop"] (some (.file [2] ⟨7, 7, 0⟩))
  boot := []
  productDevice := "odroidu2"
  cacheSpace := 0

theorem treelike_smallDevice : Treelike smallDevice.fs := by
  refine Treelike.update_leaf (Treelike.update_leaf (Treelike.update_leaf (Treelike.update_leaf
    treelike_empty ?_ ?_ ?_) ?_ ?_ ?_) ?_ ?_ ?_) ?_ ?_ ?_
  all_goals first | exact .inl rfl | exact .inr rfl | decide

/-- The permissions of the small device are set. -/
theorem setPermissions_sets_own_small :
    ∃ d', runScript plainRecovery ⟨[], []⟩ smallDevice
        ((setPermissions .insertion smallTree.root).getD []) = some d' ∧
      SameContents smallDevice.fs d'.fs ∧
      ∀ i ∈ smallTree.root.subitems, permAt d'.fs i.name = some i.perm := by
  refine setPermissions_sets_own plainRecovery ⟨[], []⟩ .insertion smallTree ?_ smallDevice
    treelike_smallDevice ?_ _ rfl
  · intro j hj
    simp only [smallTree, Item.subitems, Item.subitemsAll, List.append_nil, List.cons_append,
      List.nil_append, List.mem_cons, List.not_mem_nil, or_false] at hj
    rcases hj with rfl | rfl | rfl | rfl <;> exact ⟨by decide, by decide⟩
  · intro j hj
    simp only [smallTree, Item.subitems, Item.subitemsAll, List.append_nil, List.cons_append,
      List.nil_append, List.mem_cons, List.not_mem_nil, or_false] at hj
    rcases hj with rfl | rfl | rfl | rfl <;> exact ⟨_, rfl, rfl, rfl⟩

end OdroidU2.Ota
