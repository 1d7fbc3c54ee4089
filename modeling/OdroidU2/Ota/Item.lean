import Mathlib
import OdroidU2.Foundations.Dict
import OdroidU2.Ota.Script

/-!
# Items and Their Permissions

The `Item` tree of the system image, how `CountChildMetadata` picks the best arguments of
`set_perm_recursive` for each directory, and how `SetPermissions` turns the tree into
commands.

An `Item` of this file has its metadata.  The names are full paths, as in the source;
`ItemTree` is a tree whose names fit together, which is how `Item.Get` builds it.
-/

namespace OdroidU2.Ota

open OdroidU2.Foundations

/-! ## §1 Items -/

/-- `Item`: a file, or a directory with its children, with `uid`, `gid` and `mode`. -/
inductive Item where
  | file (name : Path) (perm : Perm)
  | dir (name : Path) (perm : Perm) (children : List Item)

namespace Item

/-- `item.name` -/
def name : Item → Path
  | .file name _ => name
  | .dir name _ _ => name

/-- `item.uid`, `item.gid` and `item.mode` -/
def perm : Item → Perm
  | .file _ perm => perm
  | .dir _ perm _ => perm

/-- `item.dir` -/
def isDir : Item → Bool
  | .file .. => false
  | .dir .. => true

mutual

/-- The item and everything below it. -/
def subitems : Item → List Item
  | .file name perm => [.file name perm]
  | .dir name perm children => .dir name perm children :: subitemsAll children

/-- The items of a list and everything below them. -/
def subitemsAll : List Item → List Item
  | [] => []
  | i :: rest => subitems i ++ subitemsAll rest

end

/-- The children of every directory are named after it, and apart from each other. -/
inductive WellNamed : Item → Prop where
  | file (name : Path) (perm : Perm) : WellNamed (.file name perm)
  | dir (name : Path) (perm : Perm) (children : List Item)
      (below : ∀ i ∈ children, ∃ x, i.name = name ++ [x])
      (apart : (children.map Item.name).Nodup)
      (wellNamed : ∀ i ∈ children, WellNamed i) : WellNamed (.dir name perm children)

/-- Induction over the tree. -/
theorem ind {P : Item → Prop} (file : ∀ name perm, P (.file name perm))
    (dir : ∀ name perm children, (∀ i ∈ children, P i) → P (.dir name perm children))
    (item : Item) : P item :=
  @Item.rec P (fun l => ∀ i ∈ l, P i) file dir
    (fun _ h => by cases h)
    (fun _ _ hhead htail i hi => (List.mem_cons.mp hi).elim (fun h => h ▸ hhead) (htail i)) item

theorem mem_subitemsAll {i : Item} {l : List Item} :
    i ∈ subitemsAll l ↔ ∃ j ∈ l, i ∈ j.subitems := by
  induction l with
  | nil => simp [subitemsAll]
  | cons j rest ih => simp [subitemsAll, ih]

theorem mem_subitems_dir {i : Item} {name : Path} {perm : Perm} {children : List Item} :
    i ∈ (Item.dir name perm children).subitems ↔
      i = .dir name perm children ∨ ∃ j ∈ children, i ∈ j.subitems := by
  rw [subitems, List.mem_cons, mem_subitemsAll]

theorem self_mem_subitems (i : Item) : i ∈ i.subitems := by
  cases i with
  | file name perm => exact List.mem_singleton.mpr rfl
  | dir name perm children => exact List.mem_cons_self

theorem WellNamed.children {name : Path} {perm : Perm} {children : List Item}
    (h : (Item.dir name perm children).WellNamed) :
    (∀ i ∈ children, ∃ x, i.name = name ++ [x]) ∧ (children.map Item.name).Nodup ∧
      ∀ i ∈ children, i.WellNamed := by
  cases h with
  | dir _ _ _ below apart wellNamed => exact ⟨below, apart, wellNamed⟩

/-- Everything below an item is named below it. -/
theorem WellNamed.named_below {i j : Item} (h : i.WellNamed) (hj : j ∈ i.subitems) :
    i.name <+: j.name := by
  -- down the tree: a child's name has its parent's as a prefix
  induction i using Item.ind with
  | file name perm =>
    obtain rfl := List.mem_singleton.mp hj
    exact List.prefix_rfl
  | dir name perm children ih =>
    rcases mem_subitems_dir.mp hj with rfl | ⟨k, hk, hjk⟩
    · exact List.prefix_rfl
    · obtain ⟨below, -, wellNamed⟩ := h.children
      obtain ⟨x, hx⟩ := below k hk
      have hchild : name <+: k.name := by rw [hx]; exact List.prefix_append name [x]
      exact hchild.trans (ih k hk (wellNamed k hk) hjk)

end Item

/-- A tree of items whose names fit together. -/
structure ItemTree where
  root : Item
  wellNamed : root.WellNamed

/-! ## §2 `CountChildMetadata` -/

/-- A key of the counting dict: a directory has no `fmode`, a file no `dmode`. -/
structure MetadataKey where
  uid : Int
  gid : Int
  dmode : Option Int
  fmode : Option Int
  deriving DecidableEq, Repr

/-- `(uid, gid, dmode, fmode)` of `set_perm_recursive` -/
structure Subtree where
  uid : Int
  gid : Int
  dmode : Int
  fmode : Int
  deriving DecidableEq, Repr

/-- The key under which an item itself is counted. -/
def Item.key : Item → MetadataKey
  | .file _ perm => ⟨perm.uid, perm.gid, none, some perm.mode⟩
  | .dir _ perm _ => ⟨perm.uid, perm.gid, some perm.mode, none⟩

mutual

/-- The dict `Item.CountChildMetadata` returns, and sets as `descendants`. -/
def countChildMetadata (order : DictOrder) : Item → Dict MetadataKey Nat
  | .file .. => Dict.empty
  | .dir name perm children =>
    countChildren order children (Dict.empty.set (Item.dir name perm children).key 1)

/-- The loop over `self.children`. -/
def countChildren (order : DictOrder) : List Item → Dict MetadataKey Nat → Dict MetadataKey Nat
  | [], d => d
  | i :: rest, d =>
    countChildren order rest <|
      if i.isDir then
        (order.iteritems (countChildMetadata order i)).foldl (fun d e => d.bump e.1 e.2) d
      else d.bump i.key 1

end

/-- The order of `(count, (uid, gid))` tuples. -/
def countLe (a b : Nat × (Int × Int)) : Prop :=
  a.1 < b.1 ∨ (a.1 = b.1 ∧ (a.2.1 < b.2.1 ∨ (a.2.1 = b.2.1 ∧ a.2.2 ≤ b.2.2)))

instance : DecidableRel countLe := fun a b => by unfold countLe; infer_instance

/-- `MostPopularKey` -/
def mostPopularKey (order : DictOrder) (d : Dict (Int × Int) Nat) (default : Int × Int) :
    Int × Int :=
  let x := (order.iteritems d).map fun e => (e.2, e.1)
  (((x.insertionSort countLe).getLast?).map Prod.snd).getD default

/-- How often each `(uid, gid)` occurs. -/
def countOwners (entries : List (MetadataKey × Nat)) : Dict (Int × Int) Nat :=
  entries.foldl (fun ug e => ug.bump (e.1.uid, e.1.gid) e.2) Dict.empty

/-- `if mode is not None and count >= best[0]: best = (count, mode)` -/
def takeBest (best : Nat × Int) (mode : Option Int) (count : Nat) : Nat × Int :=
  match mode with
  | none => best
  | some mode => if best.1 ≤ count then (count, mode) else best

/-- `best_dmode` and `best_fmode` for one `(uid, gid)`. -/
def bestModes (ug : Int × Int) (entries : List (MetadataKey × Nat)) : (Nat × Int) × (Nat × Int) :=
  entries.foldl (fun best e =>
    if (e.1.uid, e.1.gid) ≠ ug then best
    else (takeBest best.1 e.1.dmode e.2, takeBest best.2 e.1.fmode e.2)) ((0, 0o755), (0, 0o644))

/-- `self.best_subtree` of a directory. -/
def bestSubtree (order : DictOrder) (item : Item) : Subtree :=
  let d := order.iteritems (countChildMetadata order item)
  let ug := mostPopularKey order (countOwners d) (0, 0)
  let best := bestModes ug d
  ⟨ug.1, ug.2, best.1.2, best.2.2⟩

/-! ## §3 `SetPermissions` -/

/-- The mode of `current` that concerns an item. -/
def Subtree.permFor (current : Subtree) (item : Item) : Perm :=
  ⟨current.uid, current.gid, if item.isDir then current.dmode else current.fmode⟩

/-- `set_perm` for an item, unless it has its permissions already. -/
def setOwn (item : Item) (current : Subtree) : List Cmd :=
  if item.perm ≠ current.permFor item then
    [.setPermissions item.name item.perm.uid item.perm.gid item.perm.mode]
  else []

mutual

/-- The inner function `recurse` of `Item.SetPermissions`, for any choice of the best
subtrees. -/
def recurse (best : Item → Subtree) : Item → Subtree → List Cmd
  | .file name perm, current => setOwn (.file name perm) current
  | .dir name perm children, current =>
    let b := best (.dir name perm children)
    (if current ≠ b then [.setPermissionsRecursive name b.uid b.gid b.dmode b.fmode] else []) ++
      (setOwn (.dir name perm children) b ++ recurseAll best children b)

/-- `for i in item.children: recurse(i, current)` -/
def recurseAll (best : Item → Subtree) : List Item → Subtree → List Cmd
  | [], _ => []
  | i :: rest, current => recurse best i current ++ recurseAll best rest current

end

/-- The tuple no item is set to. -/
def Subtree.unset : Subtree := ⟨-1, -1, -1, -1⟩

/-- `Item.SetPermissions`, which asserts that it is called on a directory. -/
def setPermissions (order : DictOrder) (item : Item) : Option (List Cmd) :=
  if item.isDir then some (recurse (bestSubtree order) item Subtree.unset) else none

/-- `recurse` names items of the tree only. -/
theorem permPath?_recurse (best : Item → Subtree) (i : Item) (current : Subtree) :
    ∀ c ∈ recurse best i current, ∃ j ∈ i.subitems, c.permPath? = some j.name := by
  have hown : ∀ (k : Item) (cur : Subtree), ∀ c ∈ setOwn k cur, c.permPath? = some k.name := by
    intro k cur c hc
    rw [setOwn] at hc
    split at hc
    · rw [List.mem_singleton.mp hc]
      rfl
    · cases hc
  induction i using Item.ind generalizing current with
  | file name perm =>
    intro c hc
    exact ⟨_, Item.self_mem_subitems _, hown _ _ c hc⟩
  | dir name perm children ih =>
    intro c hc
    have hself := Item.self_mem_subitems (.dir name perm children)
    rw [recurse] at hc
    rcases List.mem_append.mp hc with hc | hc
    · -- the command for the whole subtree, or none
      split at hc
      · rw [List.mem_singleton.mp hc]
        exact ⟨_, hself, rfl⟩
      · cases hc
    · rcases List.mem_append.mp hc with hc | hc
      · exact ⟨_, hself, hown _ _ c hc⟩
      · -- the commands of the children
        have hall : ∀ (l : List Item) (cur : Subtree), c ∈ recurseAll best l cur →
            ∃ i ∈ l, c ∈ recurse best i cur := by
          intro l cur hl
          induction l with
          | nil => cases hl
          | cons k rest ihl =>
            rw [recurseAll] at hl
            rcases List.mem_append.mp hl with hl | hl
            · exact ⟨k, List.mem_cons_self, hl⟩
            · obtain ⟨i, hi, hci⟩ := ihl hl
              exact ⟨i, List.mem_cons_of_mem k hi, hci⟩
        obtain ⟨i, hi, hci⟩ := hall children _ hc
        obtain ⟨j, hj, hpath⟩ := ih i hi _ c hci
        exact ⟨j, Item.mem_subitems_dir.mpr (.inr ⟨i, hi, hj⟩), hpath⟩

end OdroidU2.Ota
