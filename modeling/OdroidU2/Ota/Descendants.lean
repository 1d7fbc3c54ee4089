import OdroidU2.Foundations.ObjectHeap
import OdroidU2.Ota.BestSubtree

/-!
# The Tables of Descendants

`CountChildMetadata` returns the very dictionary that it stores as `descendants`, and its caller
reads that dictionary while it counts into another one.  Here the dictionaries are objects: what
is shared is a reference, and a count into one of them could show through the other.  It does
not, because every call counts into a dictionary of its own.

- `Counted` — what one call leaves behind, and what it leaves alone
- `countChildMetadata_spec` — every call, by induction over the tree
- `descendants_count` — every table, when the whole tree has been counted
- `table_eq_countChildMetadata` — the tables are the dictionaries of the model without objects
-/

namespace OdroidU2.Ota

open OdroidU2.Foundations

/-! ## §1 Item Objects -/

/-- An `Item` object: a file, or a directory with its children.  An Item that the listing of the
metadata does not name keeps `None` for `uid`, `gid` and `mode`. -/
inductive ItemObject where
  | file (name : Path) (perm : Option Perm)
  | dir (name : Path) (perm : Option Perm) (children : List ItemObject)

/-- `(uid, gid, dmode, fmode)`, each of which may be `None`. -/
structure DescendantKey where
  uid : Option Int
  gid : Option Int
  dmode : Option Int
  fmode : Option Int
  deriving DecidableEq, Repr

namespace ItemObject

/-- `item.name`, by which `Item.ITEMS` tells the objects apart. -/
def name : ItemObject → Path
  | .file name _ => name
  | .dir name _ _ => name

/-- `item.dir` -/
def isDir : ItemObject → Bool
  | .file .. => false
  | .dir .. => true

/-- The tuple under which an item itself is counted. -/
def key : ItemObject → DescendantKey
  | .file _ perm => ⟨perm.map Perm.uid, perm.map Perm.gid, none, perm.map Perm.mode⟩
  | .dir _ perm _ => ⟨perm.map Perm.uid, perm.map Perm.gid, perm.map Perm.mode, none⟩

mutual

/-- The item and everything below it. -/
def subitems : ItemObject → List ItemObject
  | .file name perm => [.file name perm]
  | .dir name perm children => .dir name perm children :: subitemsAll children

/-- The items of a list and everything below them. -/
def subitemsAll : List ItemObject → List ItemObject
  | [] => []
  | i :: rest => subitems i ++ subitemsAll rest

end

/-- The keys of the item and its descendants. -/
def keys (i : ItemObject) : List DescendantKey := i.subitems.map key

/-- The names of the item and its descendants. -/
def names (i : ItemObject) : List Path := i.subitems.map name

/-- Induction over the tree. -/
theorem ind {P : ItemObject → Prop} (file : ∀ name perm, P (.file name perm))
    (dir : ∀ name perm children, (∀ i ∈ children, P i) → P (.dir name perm children))
    (item : ItemObject) : P item :=
  @ItemObject.rec P (fun l => ∀ i ∈ l, P i) file dir
    (fun _ h => by cases h)
    (fun _ _ hhead htail i hi => (List.mem_cons.mp hi).elim (fun h => h ▸ hhead) (htail i)) item

theorem self_mem_subitems (i : ItemObject) : i ∈ i.subitems := by
  cases i with
  | file name perm => exact List.mem_singleton.mpr rfl
  | dir name perm children => exact List.mem_cons_self

end ItemObject

/-! ## §2 `CountChildMetadata` with Its Dictionaries -/

/-- The dictionaries created so far, and the one that each Item has as `descendants`. -/
structure CountState where
  dicts : ObjectHeap (Dict DescendantKey Nat)
  descendants : Path → Option Nat

namespace CountState

/-- `d = self.descendants = {key: 1}` -/
def newTable (s : CountState) (name : Path) (key : DescendantKey) : CountState where
  dicts := s.dicts.alloc (Dict.empty.set key 1)
  descendants := Function.update s.descendants name (some s.dicts.size)

/-- `d[k] = d.get(k, 0) + v` -/
def bump (s : CountState) (d : Nat) (k : DescendantKey) (v : Nat) : CountState :=
  { s with dicts := s.dicts.modify d fun table => table.bump k v }

/-- The entries of the dictionary that a reference names, in the order of `iteritems`. -/
def iteritems (order : DictOrder) (s : CountState) (r : Nat) : List (DescendantKey × Nat) :=
  ((s.dicts.get? r).map order.iteritems).getD []

/-- `for k, v in r.iteritems(): d[k] = d.get(k, 0) + v`, with `r` another dictionary than `d`. -/
def merge (order : DictOrder) (s : CountState) (d r : Nat) : CountState :=
  (s.iteritems order r).foldl (fun s e => s.bump d e.1 e.2) s

/-- The table that an Item has as `descendants`. -/
def table (s : CountState) (name : Path) : Option (Dict DescendantKey Nat) :=
  (s.descendants name).bind s.dicts.get?

end CountState

namespace ItemObject

mutual

/-- `Item.CountChildMetadata` as far as it counts, with the dictionary it returns.  It asserts that
it is called on a directory. -/
def countChildMetadata (order : DictOrder) : ItemObject → CountState → Option (Nat × CountState)
  | .file .., _ => none
  | .dir name perm children, s =>
    let d := s.dicts.size
    (countChildren order d children (s.newTable name (ItemObject.dir name perm children).key)).map
      fun s => (d, s)

/-- The loop over `self.children`. -/
def countChildren (order : DictOrder) (d : Nat) : List ItemObject → CountState → Option CountState
  | [], s => some s
  | i :: rest, s =>
    if i.isDir then
      (countChildMetadata order i s).bind fun (r, s) =>
        countChildren order d rest (s.merge order d r)
    else countChildren order d rest (s.bump d i.key 1)

end

end ItemObject

/-! ## §3 Changing One Dictionary -/

section Tables

variable {s : CountState} {d : Nat} {keys : List DescendantKey}

/-- The dictionary `d` counts these keys. -/
def CountState.Tallies (s : CountState) (d : Nat) (keys : List DescendantKey) : Prop :=
  ∃ table, s.dicts.get? d = some table ∧ Tally table keys

/-- Between the two states only the dictionary `d` has changed, and none was created. -/
structure ChangesOnly (d : Nat) (s t : CountState) : Prop where
  size : t.dicts.size = s.dicts.size
  other : ∀ q, q ≠ d → t.dicts.get? q = s.dicts.get? q
  descendants : t.descendants = s.descendants

theorem changesOnly_bump (s : CountState) (d : Nat) (k : DescendantKey) (v : Nat) :
    ChangesOnly d s (s.bump d k v) where
  size := ObjectHeap.size_modify _ _ _
  other _ hq := ObjectHeap.get?_modify_of_ne hq _
  descendants := rfl

theorem ChangesOnly.trans {t u : CountState} (h : ChangesOnly d s t) (h' : ChangesOnly d t u) :
    ChangesOnly d s u where
  size := h'.size.trans h.size
  other q hq := (h'.other q hq).trans (h.other q hq)
  descendants := h'.descendants.trans h.descendants

theorem changesOnly_foldl (l : List (DescendantKey × Nat)) (s : CountState) :
    ChangesOnly d s (l.foldl (fun s e => s.bump d e.1 e.2) s) := by
  induction l generalizing s with
  | nil => exact ⟨rfl, fun _ _ => rfl, rfl⟩
  | cons e l ih => exact (changesOnly_bump s d e.1 e.2).trans (ih _)

/-- Counting entries into a dictionary is a matter of its contents alone. -/
theorem get?_foldl_bump {table : Dict DescendantKey Nat} (l : List (DescendantKey × Nat))
    (h : s.dicts.get? d = some table) :
    (l.foldl (fun s e => s.bump d e.1 e.2) s).dicts.get? d =
      some (l.foldl (fun t e => t.bump e.1 e.2) table) := by
  induction l generalizing s table with
  | nil => exact h
  | cons e l ih => exact ih (ObjectHeap.get?_modify_self h _)

theorem CountState.Tallies.bump (h : s.Tallies d keys) (k : DescendantKey) :
    (s.bump d k 1).Tallies d (k :: keys) := by
  obtain ⟨table, hget, htally⟩ := h
  exact ⟨_, ObjectHeap.get?_modify_self hget _, htally.bump k Nat.one_pos⟩

/-- Merging adds what the other dictionary counts. -/
theorem CountState.Tallies.merge {r : Nat} {keys' : List DescendantKey} (h : s.Tallies d keys)
    (h' : s.Tallies r keys') (order : DictOrder) :
    (s.merge order d r).Tallies d (keys' ++ keys) := by
  obtain ⟨table, hget, htally⟩ := h
  obtain ⟨table', hget', htally'⟩ := h'
  -- the dict of the child is read where it was left, whatever else was counted since
  have hitems : s.iteritems order r = order.iteritems table' := by
    rw [CountState.iteritems, hget']
    rfl
  refine ⟨_, get?_foldl_bump _ hget, ?_⟩
  have hmerge := htally'.merge htally (order.perm table') id
  rw [List.map_id] at hmerge
  rw [hitems]
  exact hmerge

end Tables

/-! ## §4 What a Call Leaves Behind -/

/-- The Items of a list have their tables: every directory among them has as `descendants` a
dictionary created since there were `n` of them, and it counts the directory and everything
below. -/
def HaveTables (items : List ItemObject) (n : Nat) (t : CountState) : Prop :=
  ∀ c ∈ items, c.isDir = true → ∃ q, n ≤ q ∧ t.descendants c.name = some q ∧ t.Tallies q c.keys

/-- What one call of `CountChildMetadata` leaves behind: a new dictionary, which it returns, tables
for the directories below, and every other dictionary as it was. -/
structure Counted (i : ItemObject) (s : CountState) (r : Nat) (t : CountState) : Prop where
  size_le : s.dicts.size ≤ r
  old : ∀ q < s.dicts.size, t.dicts.get? q = s.dicts.get? q
  grown : s.dicts.size ≤ t.dicts.size
  other : ∀ p ∉ i.names, t.descendants p = s.descendants p
  returned : t.descendants i.name = some r
  tables : HaveTables i.subitems s.dicts.size t

/-- What the loop has done once it has counted these Items into the dictionary `d`. -/
structure CountedInto (d : Nat) (items : List ItemObject) (s t : CountState) : Prop where
  old : ∀ q < s.dicts.size, q ≠ d → t.dicts.get? q = s.dicts.get? q
  grown : s.dicts.size ≤ t.dicts.size
  other : ∀ p ∉ items.map ItemObject.name, t.descendants p = s.descendants p
  tables : HaveTables items s.dicts.size t
  target : ∀ keys, s.Tallies d keys → t.Tallies d (items.map ItemObject.key ++ keys)

section Loop

variable {s t u : CountState} {d : Nat} {items : List ItemObject}

theorem CountState.Tallies.lt {q : Nat} {keys : List DescendantKey} (h : s.Tallies q keys) :
    q < s.dicts.size := by
  obtain ⟨table, hget, -⟩ := h
  exact (List.getElem?_eq_some_iff.mp hget).1

theorem CountState.Tallies.congr {q : Nat} {keys : List DescendantKey} (h : s.Tallies q keys)
    (hsame : t.dicts.get? q = s.dicts.get? q) : t.Tallies q keys := by
  obtain ⟨table, hget, htally⟩ := h
  exact ⟨table, hsame.trans hget, htally⟩

theorem CountState.Tallies.perm {q : Nat} {keys keys' : List DescendantKey} (h : s.Tallies q keys)
    (hperm : keys.Perm keys') : s.Tallies q keys' := by
  obtain ⟨table, hget, htally⟩ := h
  exact ⟨table, hget, htally.perm hperm⟩

/-- Tables stay while only the dictionary `d`, which is older, is changed and other Items get
theirs. -/
theorem HaveTables.later {n : Nat} (h : HaveTables items n s) (hd : d < n)
    (hold : ∀ q < s.dicts.size, q ≠ d → t.dicts.get? q = s.dicts.get? q)
    (hother : ∀ c ∈ items, t.descendants c.name = s.descendants c.name) : HaveTables items n t := by
  intro c hc hdir
  obtain ⟨q, hq, hname, htally⟩ := h c hc hdir
  exact ⟨q, hq, (hother c hc).trans hname, htally.congr (hold q htally.lt (by omega))⟩

/-- Some Items, and then others with other names. -/
theorem CountedInto.append {xs ys : List ItemObject} (h : CountedInto d xs s u)
    (h' : CountedInto d ys u t) (hd : d < s.dicts.size)
    (hnames : ((xs ++ ys).map ItemObject.name).Nodup) : CountedInto d (xs ++ ys) s t := by
  rw [List.map_append, List.nodup_append] at hnames
  have hgrown := h.grown
  refine ⟨fun q hq hne => ?_, h.grown.trans h'.grown, fun p hp => ?_, ?_, fun keys hkeys => ?_⟩
  · exact (h'.old q (by omega) hne).trans (h.old q hq hne)
  · rw [List.map_append, List.mem_append, not_or] at hp
    exact (h'.other p hp.2).trans (h.other p hp.1)
  · have hxs : HaveTables xs s.dicts.size t := by
      refine h.tables.later hd h'.old fun c hc => h'.other c.name fun hmem => ?_
      exact hnames.2.2 _ (List.mem_map_of_mem hc) _ hmem rfl
    have hys : HaveTables ys s.dicts.size t := by
      intro c hc hdir
      obtain ⟨q, hq, hrest⟩ := h'.tables c hc hdir
      exact ⟨q, hgrown.trans hq, hrest⟩
    intro c hc
    exact (List.mem_append.mp hc).elim (hxs c) (hys c)
  · -- the keys of both lists are counted, in whatever order
    apply (h'.target _ (h.target keys hkeys)).perm
    rw [List.map_append, ← List.append_assoc]
    exact List.perm_append_comm.append_right keys

/-- A file is counted under its own tuple. -/
theorem countedInto_file (name : Path) (perm : Option Perm) (s : CountState) (d : Nat) :
    CountedInto d [.file name perm] s (s.bump d (ItemObject.file name perm).key 1) := by
  have honly := changesOnly_bump s d (ItemObject.file name perm).key 1
  refine ⟨fun q _ hq => honly.other q hq, honly.size.ge, fun p _ => congrFun honly.descendants p, ?_,
    fun keys hkeys => hkeys.bump _⟩
  intro c hc hdir
  obtain rfl := List.mem_singleton.mp hc
  cases hdir

/-- A directory is counted by its own call, and then merged. -/
theorem Counted.countedInto {i : ItemObject} {r : Nat} (h : Counted i s r u) (hdir : i.isDir = true)
    (hd : d < s.dicts.size) (order : DictOrder) :
    CountedInto d i.subitems s (u.merge order d r) := by
  have honly : ChangesOnly d u (u.merge order d r) := changesOnly_foldl _ u
  have hdesc (p : Path) : (u.merge order d r).descendants p = u.descendants p :=
    congrFun honly.descendants p
  refine ⟨fun q hq hne => ?_, honly.size ▸ h.grown, fun p hp => (hdesc p).trans (h.other p hp), ?_,
    fun keys hkeys => ?_⟩
  · exact (honly.other q hne).trans (h.old q hq)
  · exact h.tables.later hd (fun q _ hne => honly.other q hne) fun c _ => hdesc c.name
  · -- the dictionary that was returned is the table of the child
    obtain ⟨q, -, hname, htally⟩ := h.tables i i.self_mem_subitems hdir
    obtain rfl := Option.some.inj (h.returned.symm.trans hname)
    exact (hkeys.congr (h.old d hd)).merge htally order

/-- **Run lemma for the loop**: the children are counted one after the other. -/
theorem countChildren_spec (order : DictOrder) {l : List ItemObject}
    (hl : ∀ i ∈ l, i.isDir = true → i.names.Nodup → ∀ s, ∃ r t,
      i.countChildMetadata order s = some (r, t) ∧ Counted i s r t)
    (hnames : ((ItemObject.subitemsAll l).map ItemObject.name).Nodup) (hd : d < s.dicts.size) :
    ∃ t, ItemObject.countChildren order d l s = some t ∧
      CountedInto d (ItemObject.subitemsAll l) s t := by
  -- child by child; the dict of the parent grows, the others stay as they were returned
  induction l generalizing s with
  | nil =>
    refine ⟨s, rfl, fun _ _ _ => rfl, le_rfl, fun _ _ => rfl, ?_, fun _ hkeys => hkeys⟩
    intro c hc
    cases hc
  | cons i rest ih =>
    obtain ⟨hi, hrest⟩ := List.forall_mem_cons.mp hl
    rw [ItemObject.subitemsAll] at hnames ⊢
    obtain ⟨hnamesi, hnamesrest⟩ : i.names.Nodup ∧
        ((ItemObject.subitemsAll rest).map ItemObject.name).Nodup := by
      rw [List.map_append, List.nodup_append] at hnames
      exact ⟨hnames.1, hnames.2.1⟩
    rw [ItemObject.countChildren]
    cases i with
    -- a file adds one to the parent's dict
    | file name perm =>
      have hfirst := countedInto_file name perm s d
      obtain ⟨t, hrun, ht⟩ := ih hrest hnamesrest (lt_of_lt_of_le hd hfirst.grown)
      exact ⟨t, hrun, hfirst.append ht hd hnames⟩
    -- a directory has a dict of its own, merged into the parent's
    | dir name perm children =>
      obtain ⟨r, u, hcall, hcounted⟩ := hi rfl hnamesi s
      have hfirst := hcounted.countedInto rfl hd order
      obtain ⟨t, hrun, ht⟩ := ih hrest hnamesrest (lt_of_lt_of_le hd hfirst.grown)
      refine ⟨t, ?_, hfirst.append ht hd hnames⟩
      rw [hcall]
      exact hrun

end Loop

/-- **Every call**, by induction over the tree. -/
theorem countChildMetadata_spec (order : DictOrder) (i : ItemObject) (hdir : i.isDir = true)
    (hnames : i.names.Nodup) (s : CountState) :
    ∃ r t, i.countChildMetadata order s = some (r, t) ∧ Counted i s r t := by
  induction i using ItemObject.ind generalizing s with
  | file name perm => cases hdir
  | dir name perm children ih =>
    have hself : (ItemObject.dir name perm children).names =
        name :: (ItemObject.subitemsAll children).map ItemObject.name := rfl
    rw [hself, List.nodup_cons] at hnames
    obtain ⟨hfresh, hbelow⟩ := hnames
    -- the new dictionary counts the directory itself
    obtain ⟨k, hk⟩ : ∃ k, k = (ItemObject.dir name perm children).key := ⟨_, rfl⟩
    have hnew : (s.newTable name k).Tallies s.dicts.size [k] :=
      ⟨_, ObjectHeap.get?_alloc_self s.dicts _, Tally.empty.bump k Nat.one_pos⟩
    have hsize : (s.newTable name k).dicts.size = s.dicts.size + 1 := ObjectHeap.size_alloc _ _
    obtain ⟨t, hrun, ht⟩ := countChildren_spec order (fun i hi hdir hnames s => ih i hi hdir hnames s)
      hbelow hnew.lt
    have hgrown := ht.grown
    have hreturned : t.descendants name = some s.dicts.size := by
      rw [ht.other name hfresh]
      exact Function.update_self name _ _
    refine ⟨s.dicts.size, t, ?_, le_rfl, fun q hq => ?_, by omega, fun p hp => ?_, hreturned, ?_⟩
    · rw [ItemObject.countChildMetadata, ← hk, hrun]
      rfl
    · exact (ht.old q (by omega) (by omega)).trans (ObjectHeap.get?_alloc_of_lt hq _)
    · rw [hself, List.mem_cons, not_or] at hp
      exact (ht.other p hp.2).trans (Function.update_of_ne hp.1 _ _)
    · intro c hc hcdir
      rw [ItemObject.subitems, List.mem_cons] at hc
      rcases hc with rfl | hc
      · -- the directory itself, and what its children added
        refine ⟨_, le_rfl, hreturned, (ht.target [k] hnew).perm ?_⟩
        rw [hk]
        exact List.perm_append_singleton _ _
      · obtain ⟨q, hq, hrest⟩ := ht.tables c hc hcdir
        exact ⟨q, by omega, hrest⟩

/-! ## §5 Every Table -/

/-- The Items below a directory of `Item.ITEMS`, each of which is registered under its own name. -/
structure ItemObjectTree where
  root : ItemObject
  isDir : root.isDir = true
  names : root.names.Nodup

/-- The state after `CountChildMetadata` of a tree. -/
def ItemObjectTree.counted (tree : ItemObjectTree) (order : DictOrder) (s : CountState) :
    Option CountState :=
  (tree.root.countChildMetadata order s).map Prod.snd

/-- How many directories and files of the subtree have exactly these values. -/
def ItemObject.countOf (i : ItemObject) (k : DescendantKey) : Nat :=
  i.subitems.countP fun c => c.key = k

theorem ItemObject.count_keys (i : ItemObject) (k : DescendantKey) :
    i.keys.count k = i.countOf k := by
  rw [keys, countOf, List.count, List.countP_map]
  apply List.countP_congr
  intro c _
  simp

/-- What is below an item of a tree is below the root, in the same order. -/
theorem ItemObject.subitems_sublist {c i : ItemObject} (hc : c ∈ i.subitems) :
    c.subitems.Sublist i.subitems := by
  -- a subitem is the item itself or lies below one of its children
  induction i using ItemObject.ind with
  | file name perm =>
    obtain rfl := List.mem_singleton.mp hc
    exact List.Sublist.refl _
  | dir name perm children ih =>
    rw [subitems, List.mem_cons] at hc
    rcases hc with rfl | hc
    · exact List.Sublist.refl _
    · apply List.Sublist.cons
      induction children with
      | nil => cases hc
      | cons j rest ihrest =>
        obtain ⟨hj, hrest⟩ := List.forall_mem_cons.mp ih
        rw [subitemsAll, List.mem_append] at hc
        rcases hc with hc | hc
        · exact (hj hc).trans (List.sublist_append_left _ _)
        · exact (ihrest hrest hc).trans (List.sublist_append_right _ _)

/-- The subtree of a directory of a tree. -/
def ItemObjectTree.below (tree : ItemObjectTree) {c : ItemObject} (hc : c ∈ tree.root.subitems)
    (hdir : c.isDir = true) : ItemObjectTree where
  root := c
  isDir := hdir
  names := tree.names.sublist ((ItemObject.subitems_sublist hc).map ItemObject.name)

/-- The table of a directory, once the tree has been counted. -/
theorem tally_table (order : DictOrder) (tree : ItemObjectTree) (s : CountState) :
    ∃ t, tree.counted order s = some t ∧ ∀ c ∈ tree.root.subitems, c.isDir = true →
      ∃ table, t.table c.name = some table ∧ Tally table c.keys := by
  obtain ⟨r, t, hrun, hcounted⟩ := countChildMetadata_spec order tree.root tree.isDir tree.names s
  refine ⟨t, by rw [ItemObjectTree.counted, hrun]; rfl, fun c hc hdir => ?_⟩
  obtain ⟨q, -, hname, table, hget, htally⟩ := hcounted.tables c hc hdir
  refine ⟨table, ?_, htally⟩
  rw [CountState.table, hname]
  exact hget

/-- After `CountChildMetadata` of a tree, whatever was counted before, the table of every directory
in it has at each key the number of directories and files of the subtree, the directory itself
included, with exactly these values; and it has what it has after the count of that directory
alone. -/
theorem descendants_count (order : DictOrder) (tree : ItemObjectTree) (s : CountState)
    (item : ItemObject) (hitem : item ∈ tree.root.subitems) (hdir : item.isDir = true) :
    ∃ t table, tree.counted order s = some t ∧ t.table item.name = some table ∧
      (∀ k, table.get? k = if item.countOf k = 0 then none else some (item.countOf k)) ∧
      ∀ s', ∃ t' table', (tree.below hitem hdir).counted order s' = some t' ∧
        t'.table item.name = some table' ∧ ∀ k, table.get? k = table'.get? k := by
  obtain ⟨t, hrun, htables⟩ := tally_table order tree s
  obtain ⟨table, htable, htally⟩ := htables item hitem hdir
  refine ⟨t, table, hrun, htable, fun k => ?_, fun s' => ?_⟩
  · rw [htally k, item.count_keys]
  · -- counted on its own, the subtree gives the same table
    obtain ⟨t', hrun', htables'⟩ := tally_table order (tree.below hitem hdir) s'
    obtain ⟨table', htable', htally'⟩ := htables' item item.self_mem_subitems hdir
    exact ⟨t', table', hrun', htable', fun k => (htally k).trans (htally' k).symm⟩

/-- A directory with a file and a directory of the same owner, that has another file. -/
def twoLevels : ItemObjectTree where
  root := .dir ["system"] (some ⟨0, 0, 0o755⟩)
    [.file ["system", "a"] (some ⟨0, 0, 0o644⟩),
      .dir ["system", "bin"] (some ⟨0, 0, 0o755⟩)
        [.file ["system", "bin", "b"] (some ⟨0, 0, 0o644⟩)]]
  isDir := rfl
  names := by decide

/-- No dictionary has been created yet. -/
def CountState.empty : CountState := ⟨⟨[]⟩, fun _ => none⟩

example : ((twoLevels.counted .insertion .empty).bind fun t => t.table ["system"]).map Dict.entries =
    some [(⟨some 0, some 0, some 0o755, none⟩, 2), (⟨some 0, some 0, none, some 0o644⟩, 2)] := by
  decide

/-- The tables of the outer directory. -/
theorem descendants_count_twoLevels :
    ∃ t table, twoLevels.counted .insertion .empty = some t ∧
      t.table twoLevels.root.name = some table ∧
      (∀ k, table.get? k = if twoLevels.root.countOf k = 0 then none
        else some (twoLevels.root.countOf k)) ∧
      ∀ s', ∃ t' table',
        (twoLevels.below twoLevels.root.self_mem_subitems rfl).counted .insertion s' = some t' ∧
          t'.table twoLevels.root.name = some table' ∧ ∀ k, table.get? k = table'.get? k :=
  descendants_count .insertion twoLevels .empty twoLevels.root twoLevels.root.self_mem_subitems rfl

/-! ## §6 Items With Their Metadata -/

mutual

/-- The object of an Item that has its metadata. -/
def Item.object : Item → ItemObject
  | .file name perm => .file name (some perm)
  | .dir name perm children => .dir name (some perm) (objects children)

/-- The objects of a list of Items. -/
def objects : List Item → List ItemObject
  | [] => []
  | i :: rest => i.object :: objects rest

end

/-- The tuple of an Item that has its metadata. -/
def MetadataKey.object (k : MetadataKey) : DescendantKey := ⟨some k.uid, some k.gid, k.dmode, k.fmode⟩

theorem MetadataKey.object_injective : Function.Injective MetadataKey.object := by
  rintro ⟨u, g, dm, fm⟩ ⟨u', g', dm', fm'⟩ h
  simpa [MetadataKey.object] using h

@[simp] theorem Item.name_object (i : Item) : i.object.name = i.name := by
  cases i <;> simp [Item.object, ItemObject.name, Item.name]

@[simp] theorem Item.isDir_object (i : Item) : i.object.isDir = i.isDir := by
  cases i <;> simp [Item.object, ItemObject.isDir, Item.isDir]

theorem Item.key_object (i : Item) : i.object.key = i.key.object := by
  cases i <;> simp [Item.object, ItemObject.key, Item.key, MetadataKey.object]

theorem Item.subitems_object (i : Item) : i.object.subitems = i.subitems.map Item.object := by
  -- both lists are made in the order of the children
  induction i using Item.ind with
  | file name perm => simp [Item.object, ItemObject.subitems, Item.subitems]
  | dir name perm children ih =>
    have hall : ItemObject.subitemsAll (objects children) =
        (Item.subitemsAll children).map Item.object := by
      induction children with
      | nil => simp [objects, ItemObject.subitemsAll, Item.subitemsAll]
      | cons j rest ihrest =>
        obtain ⟨hj, hrest⟩ := List.forall_mem_cons.mp ih
        rw [objects, ItemObject.subitemsAll, Item.subitemsAll, List.map_append, hj, ihrest hrest]
    rw [Item.object, ItemObject.subitems, Item.subitems, List.map_cons, hall, Item.object]

theorem Item.keys_object (i : Item) : i.object.keys = i.keys.map MetadataKey.object := by
  rw [ItemObject.keys, Item.subitems_object, Item.keys, List.map_map, List.map_map]
  apply List.map_congr_left
  exact fun j _ => j.key_object

/-- The names below children that are named apart from each other are distinct. -/
theorem nodup_subitemsAll {name : Path} {children : List Item}
    (below : ∀ i ∈ children, ∃ x, i.name = name ++ [x]) (apart : (children.map Item.name).Nodup)
    (wellNamed : ∀ i ∈ children, i.WellNamed)
    (ih : ∀ i ∈ children, (i.subitems.map Item.name).Nodup) :
    ((Item.subitemsAll children).map Item.name).Nodup := by
  induction children with
  | nil => exact List.nodup_nil
  | cons i rest ihrest =>
    obtain ⟨⟨x, hx⟩, hbelow⟩ := List.forall_mem_cons.mp below
    obtain ⟨hi, hrest⟩ := List.forall_mem_cons.mp ih
    obtain ⟨hwell, hwellrest⟩ := List.forall_mem_cons.mp wellNamed
    rw [List.map_cons, List.nodup_cons] at apart
    rw [Item.subitemsAll, List.map_append, List.nodup_append]
    refine ⟨hi, ihrest hbelow apart.2 hwellrest hrest, fun p hp q hq heq => ?_⟩
    obtain ⟨j, hj, rfl⟩ := List.mem_map.mp hp
    obtain ⟨j', hj', rfl⟩ := List.mem_map.mp hq
    obtain ⟨i', hi', hji'⟩ := Item.mem_subitemsAll.mp hj'
    obtain ⟨x', hx'⟩ := hbelow i' hi'
    -- both children lead to one path, at the same depth
    have hprefix := hwell.named_below hj
    have hprefix' := (hwellrest i' hi').named_below hji'
    rw [← heq] at hprefix'
    have hsame : i.name = i'.name :=
      (List.prefix_of_prefix_length_le hprefix hprefix' (by rw [hx, hx']; simp)).eq_of_length
        (by rw [hx, hx']; simp)
    exact apart.1 (hsame ▸ List.mem_map_of_mem hi')

/-- The names below an Item are distinct. -/
theorem Item.WellNamed.nodup {i : Item} (h : i.WellNamed) : (i.subitems.map Item.name).Nodup := by
  induction i using Item.ind with
  | file name perm => simp [Item.subitems]
  | dir name perm children ih =>
    obtain ⟨below, apart, wellNamed⟩ := h.children
    rw [Item.subitems, List.map_cons, List.nodup_cons]
    refine ⟨fun hmem => ?_, nodup_subitemsAll below apart wellNamed fun i hi => ih i hi (wellNamed i hi)⟩
    -- what is below a directory has a longer name
    obtain ⟨j, hj, hname⟩ := List.mem_map.mp hmem
    obtain ⟨i, hi, hji⟩ := Item.mem_subitemsAll.mp hj
    obtain ⟨x, hx⟩ := below i hi
    have hprefix := ((wellNamed i hi).named_below hji).length_le
    rw [hx, hname, List.length_append] at hprefix
    exact absurd hprefix (Nat.not_succ_le_self _)

/-- The objects of a tree of Items. -/
def ItemTree.objectTree (tree : ItemTree) (hdir : tree.root.isDir = true) : ItemObjectTree where
  root := tree.root.object
  isDir := by rw [Item.isDir_object, hdir]
  names := by
    have hnames : tree.root.object.names = tree.root.subitems.map Item.name := by
      rw [ItemObject.names, Item.subitems_object, List.map_map]
      exact List.map_congr_left fun j _ => j.name_object
    rw [hnames]
    exact tree.wellNamed.nodup

/-- **Refinement**: where the Items have their metadata, the table of every directory is the
dictionary that `countChildMetadata` gives for it. -/
theorem table_eq_countChildMetadata (order : DictOrder) (tree : ItemTree)
    (hroot : tree.root.isDir = true) (s : CountState) :
    ∃ t, (tree.objectTree hroot).counted order s = some t ∧
      ∀ c ∈ tree.root.subitems, c.isDir = true → ∃ table, t.table c.name = some table ∧
        ∀ k : MetadataKey, table.get? k.object = (countChildMetadata order c).get? k := by
  obtain ⟨t, hrun, htables⟩ := tally_table order (tree.objectTree hroot) s
  refine ⟨t, hrun, fun c hc hdir => ?_⟩
  -- the object of a subitem is among the objects counted
  have hobject : c.object ∈ (tree.objectTree hroot).root.subitems := by
    rw [ItemTree.objectTree, Item.subitems_object]
    exact List.mem_map_of_mem hc
  obtain ⟨table, htable, htally⟩ := htables c.object hobject (by rw [Item.isDir_object, hdir])
  rw [Item.name_object] at htable
  refine ⟨table, htable, fun k => ?_⟩
  rw [htally k.object, tally_countChildMetadata order c hdir k, Item.keys_object,
    List.count_map_of_injective _ _ MetadataKey.object_injective]

end OdroidU2.Ota
