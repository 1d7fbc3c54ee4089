import OdroidU2.Foundations.Tally
import OdroidU2.Ota.Item

/-!
# The Best Arguments of `set_perm_recursive`

`CountChildMetadata` is to set `best_subtree` to the owner, group and modes that match the
most descendants of a directory.  It first takes the owner and group that most descendants
have, and then the modes that most of those have.  When these descendants have many
different modes, another owner can match more.

- `tally_countChildMetadata` — the dict counts every descendant
- `bestSubtree_leads`, `matchCount_le_bestSubtree` — which tuple is chosen
- `bestSubtree_optimal_iff` — when no other tuple matches more
- `spread_modes_not_best` — a directory where another one does
-/

namespace OdroidU2.Ota

open OdroidU2.Foundations

/-! ## §1 What a Tuple Matches -/

/-- How many of the item and its descendants a tuple matches: a directory by owner, group
and `dmode`, a file by owner, group and `fmode`. -/
def Subtree.matchCount (t : Subtree) (item : Item) : Nat :=
  item.subitems.countP fun i => i.perm = t.permFor i

/-- The keys of the item and its descendants. -/
def Item.keys (item : Item) : List MetadataKey := item.subitems.map Item.key

/-- Owner and group. -/
def MetadataKey.owner (k : MetadataKey) : Int × Int := (k.uid, k.gid)

/-- How many of the item and its descendants have an owner and group. -/
def Item.ownerCount (item : Item) (o : Int × Int) : Nat :=
  item.subitems.countP fun i => (i.perm.uid, i.perm.gid) = o

/-- The keys a tuple matches. -/
def Subtree.dirKey (t : Subtree) : MetadataKey := ⟨t.uid, t.gid, some t.dmode, none⟩
def Subtree.fileKey (t : Subtree) : MetadataKey := ⟨t.uid, t.gid, none, some t.fmode⟩

theorem Subtree.matchCount_eq (t : Subtree) (item : Item) :
    t.matchCount item = item.keys.count t.dirKey + item.keys.count t.fileKey := by
  rw [matchCount, Item.keys]
  -- item by item: a directory can match the directory's mode only, a file the file's mode only
  induction item.subitems with
  | nil => rfl
  | cons i l ih =>
    rw [List.countP_cons, ih, List.map_cons, List.count_cons, List.count_cons]
    obtain ⟨uid, gid, dmode, fmode⟩ := t
    cases i with
    | file name perm =>
      obtain ⟨u, g, m⟩ := perm
      simp [Item.perm, Item.key, Subtree.permFor, Item.isDir, Subtree.dirKey, Subtree.fileKey]
      omega
    | dir name perm children =>
      obtain ⟨u, g, m⟩ := perm
      simp [Item.perm, Item.key, Subtree.permFor, Item.isDir, Subtree.dirKey, Subtree.fileKey]
      omega

theorem Item.ownerCount_eq (item : Item) (o : Int × Int) :
    item.ownerCount o = (item.keys.map MetadataKey.owner).countP fun o' => o' = o := by
  rw [ownerCount, Item.keys, List.map_map, List.countP_map]
  apply List.countP_congr
  intro i _
  have howner : (i.perm.uid, i.perm.gid) = MetadataKey.owner i.key := by cases i <;> rfl
  rw [decide_eq_true_iff, Function.comp, Function.comp, decide_eq_true_iff, howner]

/-! ## §2 The Dict -/

/-- `CountChildMetadata` counts the directory and every descendant. -/
theorem tally_countChildMetadata (order : DictOrder) (item : Item) (hdir : item.isDir = true) :
    Tally (countChildMetadata order item) item.keys := by
  -- along the recursion of `CountChildMetadata`, and inside it over the children
  induction item using Item.ind with
  | file name perm => cases hdir
  | dir name perm children ih =>
    have hloop : ∀ (l : List Item) (d : Dict MetadataKey Nat) (keys : List MetadataKey),
        (∀ i ∈ l, i ∈ children) → Tally d keys →
        Tally (countChildren order l d) ((Item.subitemsAll l).map Item.key ++ keys) := by
      intro l
      induction l with
      | nil => exact fun d keys _ h => h
      | cons i l ihl =>
        intro d keys hsub h
        obtain ⟨hi, hrest⟩ := List.forall_mem_cons.mp hsub
        rw [countChildren, Item.subitemsAll, List.map_append]
        -- the dict of a child is merged, and a file is counted once
        have hchild : Tally (if i.isDir then
            (order.iteritems (countChildMetadata order i)).foldl (fun d e => d.bump e.1 e.2) d
            else d.bump i.key 1) (i.subitems.map Item.key ++ keys) := by
          cases i with
          | file name perm => exact h.bump _ Nat.one_pos
          | dir name perm grandchildren =>
            have hmerge := (ih _ hi rfl).merge h (order.perm _) id
            rwa [List.map_id] at hmerge
        apply (ihl _ _ hrest hchild).perm
        rw [← List.append_assoc]
        exact List.perm_append_comm.append_right keys
    -- the directory itself is the first entry of its dict
    have hself : Tally (Dict.empty.set (Item.dir name perm children).key 1)
        [(Item.dir name perm children).key] :=
      Tally.empty.bump (Item.dir name perm children).key Nat.one_pos
    exact (hloop children _ _ (fun _ hi => hi) hself).perm (List.perm_append_singleton _ _)

/-! ## §3 The Choice -/

instance : Std.Total countLe where
  total := by
    intro a b
    unfold countLe
    omega

instance : IsTrans (Nat × (Int × Int)) countLe where
  trans := by
    intro a b c hab hbc
    unfold countLe at *
    omega

/-- Most of the descendants have this owner and group; among several such pairs it is the
largest. -/
def Item.Leads (item : Item) (o : Int × Int) : Prop :=
  ∀ o', countLe (item.ownerCount o', o') (item.ownerCount o, o)

theorem Item.Leads.unique {item : Item} {o o' : Int × Int} (h : item.Leads o)
    (h' : item.Leads o') : o = o' := by
  have hle := h o'
  have hle' := h' o
  unfold countLe at hle hle'
  obtain ⟨u, g⟩ := o
  obtain ⟨u', g'⟩ := o'
  simp only [Prod.mk.injEq] at *
  omega

/-- The last of a sorted list is the largest. -/
theorem countLe_getLast {l : List (Nat × (Int × Int))} (hsorted : l.Pairwise countLe)
    (hne : l ≠ []) : ∀ a ∈ l, countLe a (l.getLast hne) := by
  intro a ha
  rw [← List.dropLast_append_getLast hne, List.pairwise_append] at hsorted
  rw [← List.dropLast_append_getLast hne, List.mem_append, List.mem_singleton] at ha
  rcases ha with ha | rfl
  · exact hsorted.2.2 a ha _ (List.mem_singleton_self _)
  · exact (Std.Total.total _ _).elim id id

/-- `MostPopularKey` takes the largest pair of count and key. -/
theorem mostPopularKey_spec (order : DictOrder) {d : Dict (Int × Int) Nat}
    (cnt : Int × Int → Nat) (h : ∀ e, e ∈ d.entries ↔ 0 < e.2 ∧ cnt e.1 = e.2)
    (hne : ∃ k, 0 < cnt k) (default o' : Int × Int) :
    countLe (cnt o', o') (cnt (mostPopularKey order d default),
      mostPopularKey order d default) := by
  let sorted := ((order.iteritems d).map fun e => (e.2, e.1)).insertionSort countLe
  have hmem (a : Nat × (Int × Int)) : a ∈ sorted ↔ 0 < a.1 ∧ cnt a.2 = a.1 := by
    rw [List.mem_insertionSort, List.mem_map]
    constructor
    · rintro ⟨e, he, rfl⟩
      exact (h e).mp ((order.perm d).mem_iff.mp he)
    · intro ha
      exact ⟨(a.2, a.1), (order.perm d).mem_iff.mpr ((h _).mpr ha), rfl⟩
  have hcounted (k : Int × Int) (hk : 0 < cnt k) : (cnt k, k) ∈ sorted :=
    (hmem _).mpr ⟨hk, rfl⟩
  obtain ⟨k, hk⟩ := hne
  have hsorted : sorted ≠ [] := List.ne_nil_of_mem (hcounted k hk)
  have hlast : mostPopularKey order d default = (sorted.getLast hsorted).2 := by
    show ((sorted.getLast?).map Prod.snd).getD default = _
    rw [List.getLast?_eq_some_getLast hsorted]
    rfl
  have hcount := (hmem _).mp (List.getLast_mem hsorted)
  rw [hlast, hcount.2]
  by_cases ho : 0 < cnt o'
  · exact countLe_getLast (List.pairwise_insertionSort countLe _) hsorted _ (hcounted o' ho)
  · -- a pair that no descendant has
    rw [Nat.eq_zero_of_not_pos ho]
    exact .inl hcount.1

theorem takeBest_le (best : Nat × Int) (mode : Option Int) (count : Nat) :
    best.1 ≤ (takeBest best mode count).1 := by
  cases mode with
  | none => exact le_rfl
  | some mode =>
    unfold takeBest
    dsimp only
    split
    · assumption
    · exact le_rfl

theorem count_le_takeBest (best : Nat × Int) (mode : Int) (count : Nat) :
    count ≤ (takeBest best (some mode) count).1 := by
  unfold takeBest
  dsimp only
  split
  · exact le_rfl
  · next hcount => exact Nat.le_of_not_le hcount

theorem takeBest_cases (best : Nat × Int) (mode : Option Int) (count : Nat) :
    takeBest best mode count = best ∨
      ∃ m, mode = some m ∧ takeBest best mode count = (count, m) := by
  cases mode with
  | none => exact .inl rfl
  | some mode =>
    unfold takeBest
    dsimp only
    split
    · exact .inr ⟨mode, rfl, rfl⟩
    · exact .inl rfl

/-- The best mode of a loop over entries, for the modes that `sel` selects. -/
def bestMode (sel : MetadataKey → Option Int) (entries : List (MetadataKey × Nat))
    (best : Nat × Int) : Nat × Int :=
  entries.foldl (fun best e => takeBest best (sel e.1) e.2) best

/-- The two modes are chosen independently, from the entries of the owner. -/
theorem bestModes_eq (ug : Int × Int) (entries : List (MetadataKey × Nat)) :
    bestModes ug entries =
      (bestMode MetadataKey.dmode (entries.filter fun e => e.1.owner = ug) (0, 0o755),
        bestMode MetadataKey.fmode (entries.filter fun e => e.1.owner = ug) (0, 0o644)) := by
  rw [bestModes]
  generalize ((0, 0o755) : Nat × Int) = dbest
  generalize ((0, 0o644) : Nat × Int) = fbest
  -- the loop passes over the entries of other owners
  induction entries generalizing dbest fbest with
  | nil => rfl
  | cons e entries ih =>
    rw [List.foldl_cons]
    by_cases howner : e.1.owner = ug
    · rw [List.filter_cons_of_pos (by simpa using howner)]
      rw [if_neg (show ¬(e.1.uid, e.1.gid) ≠ ug from not_not.mpr howner)]
      exact ih _ _
    · rw [List.filter_cons_of_neg (by simpa using howner)]
      rw [if_pos (show (e.1.uid, e.1.gid) ≠ ug from howner)]
      exact ih _ _

theorem le_bestMode (sel : MetadataKey → Option Int) (entries : List (MetadataKey × Nat))
    (best : Nat × Int) : best.1 ≤ (bestMode sel entries best).1 := by
  induction entries generalizing best with
  | nil => exact le_rfl
  | cons e entries ih => exact (takeBest_le best (sel e.1) e.2).trans (ih _)

/-- No entry of a selected mode has a larger count. -/
theorem count_le_bestMode {sel : MetadataKey → Option Int} {entries : List (MetadataKey × Nat)}
    {e : MetadataKey × Nat} (he : e ∈ entries) {m : Int} (hsel : sel e.1 = some m)
    (best : Nat × Int) : e.2 ≤ (bestMode sel entries best).1 := by
  induction he generalizing best with
  | head entries =>
    have hthis := count_le_takeBest best m e.2
    rw [← hsel] at hthis
    exact hthis.trans (le_bestMode sel entries _)
  | tail e' _ ih => exact ih _

/-- The best mode is that of an entry, unless the loop leaves it as it was. -/
theorem bestMode_cases (sel : MetadataKey → Option Int) (entries : List (MetadataKey × Nat))
    (best : Nat × Int) :
    bestMode sel entries best = best ∨
      ∃ e ∈ entries, sel e.1 = some (bestMode sel entries best).2 ∧
        e.2 = (bestMode sel entries best).1 := by
  -- the best so far is the one to start from or comes from an entry
  induction entries generalizing best with
  | nil => exact .inl rfl
  | cons e entries ih =>
    show bestMode sel entries _ = best ∨ ∃ e' ∈ e :: entries,
      sel e'.1 = some (bestMode sel entries _).2 ∧ e'.2 = (bestMode sel entries _).1
    rcases ih (takeBest best (sel e.1) e.2) with hsame | ⟨e', he', hbest⟩
    · rw [hsame]
      rcases takeBest_cases best (sel e.1) e.2 with hbest | ⟨m, hm, hbest⟩
      · exact .inl hbest
      · rw [hbest]
        exact .inr ⟨e, List.mem_cons_self, hm, rfl⟩
    · exact .inr ⟨e', List.mem_cons_of_mem e he', hbest⟩

/-- The chosen mode is one that the largest number of items of the owner have.  `mk` makes
the key of a mode. -/
theorem count_le_of_bestMode {entries : List (MetadataKey × Nat)} {keys : List MetadataKey}
    (h : ∀ e, e ∈ entries ↔ 0 < e.2 ∧ keys.count e.1 = e.2) (ug : Int × Int)
    (sel : MetadataKey → Option Int) (mk : Int → MetadataKey)
    (hmk : ∀ m, (mk m).owner = ug ∧ sel (mk m) = some m)
    (hkey : ∀ k ∈ keys, k.owner = ug → ∀ m, sel k = some m → k = mk m) (default m : Int) :
    keys.count (mk m) ≤
      keys.count (mk (bestMode sel (entries.filter fun e => e.1.owner = ug) (0, default)).2) := by
  rcases Nat.eq_zero_or_pos (keys.count (mk m)) with hzero | hpos
  · omega
  have hentry : (mk m, keys.count (mk m)) ∈ entries.filter fun e => e.1.owner = ug :=
    List.mem_filter.mpr ⟨(h _).mpr ⟨hpos, rfl⟩, decide_eq_true (hmk m).1⟩
  have hle := count_le_bestMode hentry (hmk m).2 (0, default)
  rcases bestMode_cases sel (entries.filter fun e => e.1.owner = ug) (0, default) with
    hsame | ⟨e, he, hsel, hbest⟩
  · -- some mode was counted
    rw [hsame] at hle
    exact absurd (hpos.trans_le hle) (Nat.lt_irrefl 0)
  · obtain ⟨he, hown⟩ := List.mem_filter.mp he
    obtain ⟨hepos, hcount⟩ := (h e).mp he
    have hmem : e.1 ∈ keys := List.count_pos_iff.mp (hcount ▸ hepos)
    rw [← hkey e.1 hmem (of_decide_eq_true hown) _ hsel, hcount, hbest]
    exact hle

/-! ## §4 The Best Subtree -/

section

variable (order : DictOrder) (name : Path) (perm : Perm) (children : List Item)

/-- The chosen owner and group are those that most descendants have. -/
theorem bestSubtree_leads :
    (Item.dir name perm children).Leads
      ((bestSubtree order (.dir name perm children)).uid,
        (bestSubtree order (.dir name perm children)).gid) := by
  have htally := tally_countChildMetadata order (.dir name perm children) rfl
  have howners : Tally (countOwners (order.iteritems
      (countChildMetadata order (.dir name perm children))))
      ((Item.dir name perm children).keys.map MetadataKey.owner) := by
    have hmerge := htally.merge Tally.empty (order.perm _) MetadataKey.owner
    rwa [List.append_nil] at hmerge
  intro o'
  refine mostPopularKey_spec order (Item.dir name perm children).ownerCount ?_ ?_ _ o'
  · intro e
    rw [Item.ownerCount_eq]
    exact howners.mem_entries_iff
  · -- the directory itself has an owner
    refine ⟨(perm.uid, perm.gid), List.countP_pos_iff.mpr ?_⟩
    exact ⟨.dir name perm children, List.mem_cons_self, decide_eq_true rfl⟩

/-- No modes match more of what the chosen owner and group have. -/
theorem matchCount_le_bestSubtree {t : Subtree}
    (howner : (t.uid, t.gid) = ((bestSubtree order (.dir name perm children)).uid,
      (bestSubtree order (.dir name perm children)).gid)) :
    t.matchCount (.dir name perm children) ≤
      (bestSubtree order (.dir name perm children)).matchCount (.dir name perm children) := by
  have htally := tally_countChildMetadata order (.dir name perm children) rfl
  have hmem (e : MetadataKey × Nat) :
      e ∈ order.iteritems (countChildMetadata order (.dir name perm children)) ↔
        0 < e.2 ∧ (Item.dir name perm children).keys.count e.1 = e.2 :=
    (order.perm _).mem_iff.trans htally.mem_entries_iff
  -- a key has the mode of a directory or that of a file
  have hkeys : ∀ k ∈ (Item.dir name perm children).keys,
      (∀ m, k.dmode = some m → k.fmode = none) ∧ ∀ m, k.fmode = some m → k.dmode = none := by
    intro k hk
    obtain ⟨i, -, rfl⟩ := List.mem_map.mp hk
    cases i <;> simp [Item.key]
  have hmodes := bestModes_eq (t.uid, t.gid)
    (order.iteritems (countChildMetadata order (.dir name perm children)))
  have hdmode : (bestSubtree order (.dir name perm children)).dmode = _ :=
    (congrArg (fun ug => (bestModes ug _).1.2) howner.symm).trans (congrArg (·.1.2) hmodes)
  have hfmode : (bestSubtree order (.dir name perm children)).fmode = _ :=
    (congrArg (fun ug => (bestModes ug _).2.2) howner.symm).trans (congrArg (·.2.2) hmodes)
  obtain ⟨huid, hgid⟩ := Prod.mk.inj howner
  rw [Subtree.matchCount_eq, Subtree.matchCount_eq, Subtree.dirKey, Subtree.dirKey,
    Subtree.fileKey, Subtree.fileKey, ← huid, ← hgid, hdmode, hfmode]
  -- the two modes are chosen independently, each by its own count
  apply Nat.add_le_add
  · refine count_le_of_bestMode hmem (t.uid, t.gid) MetadataKey.dmode
      (fun m => ⟨t.uid, t.gid, some m, none⟩) (fun m => ⟨rfl, rfl⟩) ?_ 0o755 t.dmode
    intro k hk hown m hm
    have hnone := (hkeys k hk).1 m hm
    obtain ⟨uid, gid, dmode, fmode⟩ := k
    cases hown
    cases hm
    cases hnone
    rfl
  · refine count_le_of_bestMode hmem (t.uid, t.gid) MetadataKey.fmode
      (fun m => ⟨t.uid, t.gid, none, some m⟩) (fun m => ⟨rfl, rfl⟩) ?_ 0o644 t.fmode
    intro k hk hown m hm
    have hnone := (hkeys k hk).2 m hm
    obtain ⟨uid, gid, dmode, fmode⟩ := k
    cases hown
    cases hm
    cases hnone
    rfl

/-- No tuple matches more descendants than the chosen one, exactly when some tuple that
matches the most has the owner and group that most descendants have. -/
theorem bestSubtree_optimal_iff :
    (∀ t : Subtree, t.matchCount (.dir name perm children) ≤
        (bestSubtree order (.dir name perm children)).matchCount (.dir name perm children)) ↔
      ∃ t : Subtree, (Item.dir name perm children).Leads (t.uid, t.gid) ∧
        ∀ t' : Subtree, t'.matchCount (.dir name perm children) ≤
          t.matchCount (.dir name perm children) := by
  constructor
  · intro hbest
    exact ⟨_, bestSubtree_leads order name perm children, hbest⟩
  · intro ⟨t, hleads, ht⟩ t'
    -- the owner that leads is unique, and it is the one the loop has chosen
    have howner := hleads.unique (bestSubtree_leads order name perm children)
    exact (ht t').trans (matchCount_le_bestSubtree order name perm children howner)

end

/-- The owner `0` has the directory and three files, all of different modes, and the owner
`1` three files of one mode. -/
def spreadModes : Item :=
  .dir ["d"] ⟨0, 0, 0o755⟩ [.file ["d", "a"] ⟨0, 0, 0o600⟩, .file ["d", "b"] ⟨0, 0, 0o640⟩,
    .file ["d", "c"] ⟨0, 0, 0o644⟩, .file ["d", "e"] ⟨1, 1, 0o644⟩,
    .file ["d", "f"] ⟨1, 1, 0o644⟩, .file ["d", "g"] ⟨1, 1, 0o644⟩]

/-- The owner `0` is chosen and two items match; three match the owner `1`. -/
theorem spread_modes_not_best :
    (bestSubtree DictOrder.insertion spreadModes).matchCount spreadModes = 2 ∧
      (⟨1, 1, 0o755, 0o644⟩ : Subtree).matchCount spreadModes = 3 := by
  decide +kernel

end OdroidU2.Ota
