import OdroidU2.Ota.TargetFiles

/-!
# The Items Form a Tree

`Item.Get` creates an Item with all the directories above it, each before its own entry or
after it, and links an Item into its parent before it registers it.  Whatever the order of
the entries of a zip, the records of `Item.ITEMS` end up as one tree.

- `Linked` — every Item is a child of the Item of its `dirname`, once, and of no other
- `getItemRev_spec` — one `Item.Get`
- `items_of_entries` — the loop of `CopySystemFiles`
-/

namespace OdroidU2.Ota

open OdroidU2.Foundations

/-! ## §1 The Links -/

/-- Every Item but the root is a child of the Item of its `dirname`, once, and of no other
Item, and that Item is a directory. -/
structure Linked (items : Items) : Prop where
  children : ∀ q r, items.get? q = some r → ∀ c,
    r.children.count c = if c ∈ items.keys ∧ c ≠ [] ∧ c.dropLast = q then 1 else 0
  parent : ∀ c ∈ items.keys, c ≠ [] → ∃ r, items.get? c.dropLast = some r ∧ r.dir = true

theorem linked_empty : Linked Dict.empty :=
  ⟨fun _ _ h _ => (by cases h), fun _ h _ => (by cases h)⟩

section

variable {items : Items}

theorem mem_keys_of_get? {q : Path} {r : ItemRecord} (h : items.get? q = some r) :
    q ∈ items.keys :=
  (Dict.mem_keys_iff _ _).mpr ⟨r, h⟩

/-- The children of an Item are registered right below it. -/
theorem Linked.mem_children_iff (h : Linked items) {q c : Path} {r : ItemRecord}
    (hr : items.get? q = some r) :
    c ∈ r.children ↔ c ∈ items.keys ∧ c ≠ [] ∧ c.dropLast = q := by
  rw [← List.count_pos_iff, h.children q r hr c]
  split
  · next hc => exact iff_of_true Nat.one_pos hc
  · next hc => exact iff_of_false (Nat.lt_irrefl 0) hc

/-- Everything above an Item is registered. -/
theorem Linked.mem_of_prefix (h : Linked items) {q c : Path} (hc : c ∈ items.keys)
    (hq : q <+: c) : q ∈ items.keys := by
  induction c using List.reverseRecOn with
  | nil => rwa [List.prefix_nil.mp hq]
  | append_singleton p x ih =>
    rcases List.prefix_concat_iff.mp hq with rfl | hq
    · exact hc
    · obtain ⟨r, hr, -⟩ := h.parent _ hc (by simp)
      rw [List.dropLast_concat] at hr
      exact ih (mem_keys_of_get? hr) hq

/-- A new Item below a directory. -/
def addItem (items : Items) (parent : Path) (r : ItemRecord) (x : String) (dir : Bool) : Items :=
  (items.set parent { r with children := r.children ++ [parent ++ [x]] }).set (parent ++ [x])
    ⟨dir, none, []⟩

theorem mem_keys_addItem {parent q : Path} {r : ItemRecord} {x : String} {dir : Bool}
    (hr : items.get? parent = some r) :
    q ∈ (addItem items parent r x dir).keys ↔ q = parent ++ [x] ∨ q ∈ items.keys := by
  rw [addItem, Dict.mem_keys_set, Dict.mem_keys_set]
  refine or_congr_right (or_iff_right_of_imp ?_)
  rintro rfl
  exact mem_keys_of_get? hr

theorem get?_addItem {parent q : Path} {r : ItemRecord} {x : String} {dir : Bool} :
    (addItem items parent r x dir).get? q =
      if q = parent ++ [x] then some ⟨dir, none, []⟩
      else if q = parent then some { r with children := r.children ++ [parent ++ [x]] }
      else items.get? q := by
  rw [addItem, Dict.get?_set, Dict.get?_set]

theorem Linked.addItem (h : Linked items) {parent : Path} {r : ItemRecord} {x : String}
    {dir : Bool} (hr : items.get? parent = some r) (hdir : r.dir = true)
    (hnew : parent ++ [x] ∉ items.keys) : Linked (addItem items parent r x dir) := by
  have hself : parent ≠ parent ++ [x] := by simp
  constructor
  · intro q r' hr' c
    rw [get?_addItem] at hr'
    simp only [mem_keys_addItem hr]
    split at hr'
    · -- the new Item has no children, and nothing is named below it
      next hq =>
      cases hr'
      subst hq
      rw [List.count_nil, if_neg]
      rintro ⟨rfl | hc, hne, hlast⟩
      · rw [List.dropLast_concat] at hlast
        exact hself hlast
      · obtain ⟨r', hr', -⟩ := h.parent c hc hne
        rw [hlast] at hr'
        exact hnew (mem_keys_of_get? hr')
    · split at hr'
      · next hq =>
        cases hr'
        subst hq
        -- the parent gets the new name, which it did not have
        rw [List.count_append, h.children q r hr c, List.count_singleton]
        by_cases hc : c = q ++ [x]
        · subst hc
          simp [hnew]
        · have hne : ¬q ++ [x] = c := fun heq => hc heq.symm
          simp [hc, hne]
      · next hq =>
        -- any other Item keeps its children, and the new name is not below it
        rw [h.children q r' hr' c]
        by_cases hc : c = parent ++ [x]
        · subst hc
          have hne : ¬parent = q := fun heq => hq heq.symm
          simp [hnew, hne]
        · simp [hc]
  · intro c hc hne
    rw [get?_addItem]
    rcases (mem_keys_addItem hr).mp hc with rfl | hc
    · rw [List.dropLast_concat, if_neg hself, if_pos rfl]
      exact ⟨_, rfl, hdir⟩
    · obtain ⟨r', hr', hdir'⟩ := h.parent c hc hne
      have hne' : c.dropLast ≠ parent ++ [x] := fun heq => hnew (heq ▸ mem_keys_of_get? hr')
      rw [if_neg hne']
      split
      · exact ⟨_, rfl, hdir⟩
      · exact ⟨r', hr', hdir'⟩

/-! ## §2 One `Item.Get` -/

/-- What `Item.Get(name, dir)` leaves behind: the Item and everything above it, the new ones
above as directories, and the old ones as they were. -/
structure Got (items items' : Items) (name : Path) (dir : Bool) : Prop where
  linked : Linked items'
  keys : ∀ q, q ∈ items'.keys ↔ q ∈ items.keys ∨ q <+: name
  old : ∀ q r r', items.get? q = some r → items'.get? q = some r' →
    r'.dir = r.dir ∧ r'.perm = r.perm
  new : ∀ q r', q ∉ items.keys → items'.get? q = some r' →
    (r'.dir = true ↔ q = name → dir = true) ∧ r'.perm = none

theorem Got.refl {name : Path} {dir : Bool} (h : Linked items) (hname : name ∈ items.keys) :
    Got items items name dir where
  linked := h
  keys := fun q => ⟨.inl, fun hq => hq.elim id (h.mem_of_prefix hname)⟩
  old := by
    intro q r r' hr hr'
    rw [hr] at hr'
    cases hr'
    exact ⟨rfl, rfl⟩
  new := fun q r' hq hr' => absurd (mem_keys_of_get? hr') hq

/-- Below a directory that is there now, one more Item. -/
theorem Got.addItem {items₁ : Items} {parent : Path} {r : ItemRecord} {x : String} {dir : Bool}
    (h : Got items items₁ parent true) (hr : items₁.get? parent = some r) (hdir : r.dir = true)
    (hnew : parent ++ [x] ∉ items.keys) :
    Got items (addItem items₁ parent r x dir) (parent ++ [x]) dir := by
  have hnew₁ : parent ++ [x] ∉ items₁.keys := by
    rw [h.keys, not_or]
    refine ⟨hnew, fun hpre => ?_⟩
    have hlen := hpre.length_le
    rw [List.length_append, List.length_singleton] at hlen
    omega
  refine ⟨h.linked.addItem hr hdir hnew₁, fun q => ?_, fun q r₀ r' hr₀ hr' => ?_,
    fun q r' hq hr' => ?_⟩
  · -- the new Item is the only key added to what the parent's call has added
    rw [mem_keys_addItem hr, h.keys, List.prefix_concat_iff]
    exact or_left_comm
  · -- an Item that was there keeps its kind and its permissions
    rw [get?_addItem] at hr'
    split at hr'
    · next heq => exact absurd (heq ▸ mem_keys_of_get? hr₀) hnew
    · split at hr'
      · next heq =>
        subst heq
        cases hr'
        exact h.old _ r₀ r hr₀ hr
      · exact h.old q r₀ r' hr₀ hr'
  · rw [get?_addItem] at hr'
    split at hr'
    · next heq =>
      cases hr'
      exact ⟨by simp [heq], rfl⟩
    · next hne =>
      -- the Items above are there already, or directories
      have hdir' : ∀ r', items₁.get? q = some r' → r'.dir = true ∧ r'.perm = none := fun r' hr' =>
        ⟨((h.new q r' hq hr').1).mpr fun _ => rfl, (h.new q r' hq hr').2⟩
      split at hr'
      · next heq =>
        subst heq
        cases hr'
        have hparent := hdir' r hr
        exact ⟨iff_of_true hparent.1 fun heq => absurd heq hne, hparent.2⟩
      · have hrecord := hdir' r' hr'
        exact ⟨iff_of_true hrecord.1 fun heq => absurd heq hne, hrecord.2⟩

/-- The first Item is the root. -/
theorem Got.root {dir : Bool} (h : Linked items) (hroot : ([] : Path) ∉ items.keys) :
    Got items (items.set [] ⟨dir, none, []⟩) [] dir := by
  -- without the root there is nothing yet
  have hempty : ∀ q, q ∉ items.keys := fun q hq => hroot (h.mem_of_prefix hq List.nil_prefix)
  have hget (q : Path) : items.get? q = none := (Dict.get?_eq_none_iff _ _).mpr (hempty q)
  have hkeys (q : Path) : q ∈ (items.set [] ⟨dir, none, []⟩).keys ↔ q = [] := by
    rw [Dict.mem_keys_set, or_iff_left (hempty q)]
  refine ⟨⟨fun q r hr c => ?_, fun c hc hne => absurd ((hkeys c).mp hc) hne⟩, fun q => ?_,
    fun q r r' hr => ?_, fun q r' _ hr' => ?_⟩
  · rw [Dict.get?_set, hget] at hr
    split at hr
    · cases hr
      rw [List.count_nil, if_neg]
      exact fun hc => hc.2.1 ((hkeys c).mp hc.1)
    · cases hr
  · rw [hkeys, or_iff_right (hempty q), List.prefix_nil]
  · rw [hget] at hr
    cases hr
  · rw [Dict.get?_set, hget] at hr'
    split at hr'
    · next hq =>
      cases hr'
      exact ⟨by simp [hq], rfl⟩
    · cases hr'

/-- `Item.Get` below directories. -/
theorem getItemRev_spec (l : List String) (dir : Bool) (h : Linked items)
    (habove : ∀ q r, q <+: l.reverse → q ≠ l.reverse → items.get? q = some r → r.dir = true) :
    ∃ items', getItemRev items l dir = .ok items' ∧ Got items items' l.reverse dir := by
  induction l generalizing dir with
  | nil =>
    rw [getItemRev]
    by_cases hroot : ([] : Path) ∈ items.keys
    · rw [if_pos hroot]
      exact ⟨items, rfl, Got.refl h hroot⟩
    · rw [if_neg hroot]
      exact ⟨_, rfl, Got.root h hroot⟩
  | cons x parent ih =>
    rw [getItemRev, List.reverse_cons]
    split
    · next hmem => exact ⟨items, rfl, Got.refl h hmem⟩
    · next hnew =>
      have hpre (q : Path) (hq : q <+: parent.reverse) :
          q <+: parent.reverse ++ [x] ∧ q ≠ parent.reverse ++ [x] := by
        refine ⟨hq.trans (List.prefix_append _ _), ?_⟩
        rintro rfl
        have hlen := hq.length_le
        rw [List.length_append, List.length_singleton] at hlen
        omega
      rw [List.reverse_cons] at habove
      -- the parent is asked for first, as a directory
      obtain ⟨items₁, hparent, hgot⟩ := ih true fun q r hq _ =>
        habove q r (hpre q hq).1 (hpre q hq).2
      obtain ⟨r, hr⟩ := (Dict.mem_keys_iff _ _).mp ((hgot.keys _).mpr (.inr List.prefix_rfl))
      -- and so it is one: registered by now, or before
      have hdir : r.dir = true := by
        by_cases hold : parent.reverse ∈ items.keys
        · obtain ⟨r₀, hr₀⟩ := (Dict.mem_keys_iff _ _).mp hold
          rw [(hgot.old _ r₀ r hr₀ hr).1]
          exact habove _ r₀ (hpre _ List.prefix_rfl).1 (hpre _ List.prefix_rfl).2 hr₀
        · exact (hgot.new _ r hold hr).1.mpr fun _ => rfl
      refine ⟨_, ?_, hgot.addItem hr hdir hnew⟩
      have happend : appendChild items₁ parent.reverse (parent.reverse ++ [x]) =
          .ok (items₁.set parent.reverse
            { r with children := r.children ++ [parent.reverse ++ [x]] }) := by
        simp only [appendChild, hr, hdir, if_true]
      rw [hparent]
      show (appendChild items₁ parent.reverse (parent.reverse ++ [x]) >>= _) = _
      rw [happend]
      rfl

end

/-! ## §3 The Loop of `CopySystemFiles` -/

/-- Is an Item created for the entry? -/
def ZipEntry.isItem : ZipEntry → Bool
  | .symlink .. => false
  | _ => true

/-- Is the entry a directory? -/
def ZipEntry.isDir : ZipEntry → Bool
  | .dir _ => true
  | _ => false

/-- No name is both a file and a directory, or a file and above another entry. -/
def NamesFit (z : List ZipEntry) : Prop :=
  ∀ e ∈ z, e.isItem = true → e.isDir = false → ∀ e' ∈ z, e'.isItem = true →
    e.devicePath <+: e'.devicePath → e'.devicePath = e.devicePath ∧ e'.isDir = false

/-- The name of an entry, or above one. -/
def ItemNamed (z : List ZipEntry) (q : Path) : Prop :=
  ∃ e ∈ z, e.isItem = true ∧ q <+: e.devicePath

/-- The name of a directory entry, or above some entry. -/
def DirNamed (z : List ZipEntry) (q : Path) : Prop :=
  ∃ e ∈ z, e.isItem = true ∧ q <+: e.devicePath ∧ (q = e.devicePath → e.isDir = true)

/-- The Items of the entries, before they have metadata. -/
structure ItemsOf (z : List ZipEntry) (items : Items) : Prop where
  linked : Linked items
  keys : ∀ q, q ∈ items.keys ↔ ItemNamed z q
  dirs : ∀ q r, items.get? q = some r → (r.dir = true ↔ DirNamed z q)
  fresh : ∀ q r, items.get? q = some r → r.perm = none

theorem itemNamed_append {z z' : List ZipEntry} {q : Path} :
    ItemNamed (z ++ z') q ↔ ItemNamed z q ∨ ItemNamed z' q := by
  simp only [ItemNamed, List.mem_append, or_and_right, exists_or]

theorem dirNamed_append {z z' : List ZipEntry} {q : Path} :
    DirNamed (z ++ z') q ↔ DirNamed z q ∨ DirNamed z' q := by
  simp only [DirNamed, List.mem_append, or_and_right, exists_or]

theorem DirNamed.itemNamed {z : List ZipEntry} {q : Path} (h : DirNamed z q) : ItemNamed z q := by
  obtain ⟨e, he, hitem, hq, -⟩ := h
  exact ⟨e, he, hitem, hq⟩

/-- A name that is no directory is the name of a file. -/
theorem ItemNamed.exists_file {z : List ZipEntry} {q : Path} (h : ItemNamed z q)
    (hdir : ¬DirNamed z q) : ∃ e ∈ z, e.isItem = true ∧ e.isDir = false ∧ q = e.devicePath := by
  obtain ⟨e, he, hitem, hq⟩ := h
  have hself : ¬(q = e.devicePath → e.isDir = true) := fun hself => hdir ⟨e, he, hitem, hq, hself⟩
  rw [Classical.not_imp, Bool.not_eq_true] at hself
  exact ⟨e, he, hitem, hself.2, hself.1⟩

/-- What is above an entry is the name of a directory, also among the entries before it. -/
theorem dirNamed_of_above {z z₁ : List ZipEntry} {e : ZipEntry} (hz : NamesFit z) (he : e ∈ z)
    (hsub : ∀ e ∈ z₁, e ∈ z) (hitem : e.isItem = true) {q : Path} (hq : q <+: e.devicePath)
    (hdir : q = e.devicePath → e.isDir = true) (hnamed : ItemNamed z₁ q) : DirNamed z₁ q := by
  by_contra hno
  obtain ⟨e₁, he₁, hitem₁, hfile₁, rfl⟩ := hnamed.exists_file hno
  obtain ⟨hpath, hfile⟩ := hz e₁ (hsub e₁ he₁) hitem₁ hfile₁ e he hitem hq
  exact Bool.noConfusion (hfile.symm.trans (hdir hpath.symm))

/-- One entry. -/
theorem ItemsOf.step {z z₁ : List ZipEntry} {items : Items} {e : ZipEntry} (h : ItemsOf z₁ items)
    (hz : NamesFit z) (he : e ∈ z) (hsub : ∀ e ∈ z₁, e ∈ z) (hitem : e.isItem = true) :
    ∃ items', getItem items e.devicePath e.isDir = .ok items' ∧ ItemsOf (z₁ ++ [e]) items' := by
  have hnamed (q : Path) : ItemNamed [e] q ↔ q <+: e.devicePath := by
    simp [ItemNamed, hitem]
  have hdirNamed (q : Path) :
      DirNamed [e] q ↔ q <+: e.devicePath ∧ (q = e.devicePath → e.isDir = true) := by
    simp [DirNamed, hitem]
  -- an Item already above the entry is a directory, the names being fit
  have hold {q : Path} (hq : q <+: e.devicePath) (hdir : q = e.devicePath → e.isDir = true)
      {r : ItemRecord} (hr : items.get? q = some r) : r.dir = true :=
    (h.dirs q r hr).mpr (dirNamed_of_above hz he hsub hitem hq hdir
      ((h.keys q).mp (mem_keys_of_get? hr)))
  obtain ⟨items', hget, hgot⟩ := getItemRev_spec e.devicePath.reverse e.isDir
    h.linked (by
      rw [List.reverse_reverse]
      exact fun q r hq hne hr => hold hq (fun heq => absurd heq hne) hr)
  rw [List.reverse_reverse] at hgot
  refine ⟨items', hget, hgot.linked, fun q => ?_, fun q r' hr' => ?_, fun q r' hr' => ?_⟩
  · rw [hgot.keys, h.keys, itemNamed_append, hnamed]
  · rw [dirNamed_append, hdirNamed]
    cases hq : items.get? q with
    | none =>
      -- a new Item is named by this entry alone
      have hnot := (Dict.get?_eq_none_iff _ _).mp hq
      have hpre : q <+: e.devicePath := ((hgot.keys q).mp (mem_keys_of_get? hr')).resolve_left hnot
      have hno : ¬DirNamed z₁ q := fun hdir => hnot ((h.keys q).mpr hdir.itemNamed)
      rw [(hgot.new q r' hnot hr').1, or_iff_right hno, and_iff_right hpre]
    | some r =>
      rw [(hgot.old q r r' hq hr').1]
      refine ⟨fun hdir => .inl ((h.dirs q r hq).mp hdir), ?_⟩
      rintro (hdir | ⟨hpre, hdir⟩)
      · exact (h.dirs q r hq).mpr hdir
      · exact hold hpre hdir hq
  · cases hq : items.get? q with
    | none => exact (hgot.new q r' ((Dict.get?_eq_none_iff _ _).mp hq) hr').2
    | some r =>
      rw [(hgot.old q r r' hq hr').2]
      exact h.fresh q r hq

/-- The loop, from the Items of the entries before it. -/
theorem ItemsOf.loop {z z₁ z₂ : List ZipEntry} {items : Items} (h : ItemsOf z₁ items)
    (hz : NamesFit z) (hsplit : z = z₁ ++ z₂) :
    ∃ items', copySystemItems items z₂ = .ok items' ∧ ItemsOf z items' := by
  -- entry by entry, with the ones that have been read in `z₁`
  induction z₂ generalizing z₁ items with
  | nil =>
    rw [List.append_nil] at hsplit
    exact ⟨items, rfl, hsplit ▸ h⟩
  | cons e z₂ ih =>
    have hsplit' : z = (z₁ ++ [e]) ++ z₂ := by rw [hsplit, List.append_assoc]; rfl
    have he : e ∈ z := by simp [hsplit]
    have hsub : ∀ e ∈ z₁, e ∈ z := fun e' he' => by simp [hsplit, he']
    have hentry (hitem : e.isItem = true) : ∃ items₁, getItem items e.devicePath e.isDir =
        .ok items₁ ∧ ∃ items', copySystemItems items₁ z₂ = .ok items' ∧ ItemsOf z items' := by
      obtain ⟨items₁, hget, h₁⟩ := h.step hz he hsub hitem
      exact ⟨items₁, hget, ih h₁ hsplit'⟩
    cases e with
    | dir path =>
      obtain ⟨items₁, hget, items', hrest, h'⟩ := hentry rfl
      exact ⟨items', bind_eq_ok_iff.mpr ⟨items₁, hget, hrest⟩, h'⟩
    | file path data =>
      obtain ⟨items₁, hget, items', hrest, h'⟩ := hentry rfl
      exact ⟨items', bind_eq_ok_iff.mpr ⟨items₁, hget, hrest⟩, h'⟩
    -- a link makes no Item
    | symlink path dest =>
      refine ih ⟨h.linked, fun q => ?_, fun q r hr => ?_, h.fresh⟩ hsplit'
      · rw [h.keys, itemNamed_append]
        simp [ItemNamed, ZipEntry.isItem]
      · rw [h.dirs q r hr, dirNamed_append]
        simp [DirNamed, ZipEntry.isItem]

theorem itemsOf_nil : ItemsOf [] Dict.empty :=
  ⟨linked_empty, fun q => by simp [ItemNamed, Dict.empty, Dict.keys],
    fun _ _ h => (by cases h), fun _ _ h => (by cases h)⟩

/-! ## §4 Metadata Keeps the Tree -/

/-- The same Items with the same children, in any order. -/
structure SameShape (items items' : Items) : Prop where
  keys : ∀ q, q ∈ items'.keys ↔ q ∈ items.keys
  records : ∀ q r r', items.get? q = some r → items'.get? q = some r' →
    r'.dir = r.dir ∧ r'.children.Perm r.children

namespace SameShape

variable {items items' items₁ : Items}

theorem refl (items : Items) : SameShape items items where
  keys := fun _ => Iff.rfl
  records := by
    intro q r r' hr hr'
    rw [hr] at hr'
    cases hr'
    exact ⟨rfl, .refl _⟩

theorem exists_old (h : SameShape items items') {q : Path} {r' : ItemRecord}
    (hr' : items'.get? q = some r') : ∃ r, items.get? q = some r :=
  (Dict.mem_keys_iff _ _).mp ((h.keys q).mp (mem_keys_of_get? hr'))

theorem trans (h : SameShape items items₁) (h' : SameShape items₁ items') :
    SameShape items items' where
  keys := fun q => (h'.keys q).trans (h.keys q)
  records := by
    intro q r r' hr hr'
    obtain ⟨r₁, hr₁⟩ := h'.exists_old hr'
    obtain ⟨hdir, hperm⟩ := h.records q r r₁ hr hr₁
    obtain ⟨hdir', hperm'⟩ := h'.records q r₁ r' hr₁ hr'
    exact ⟨hdir'.trans hdir, hperm'.trans hperm⟩

/-- An Item is replaced by one with the same children. -/
theorem set {q : Path} {r r' : ItemRecord} (hr : items.get? q = some r) (hdir : r'.dir = r.dir)
    (hperm : r'.children.Perm r.children) : SameShape items (items.set q r') where
  keys := by
    intro k
    rw [Dict.mem_keys_set, or_iff_right_of_imp]
    rintro rfl
    exact mem_keys_of_get? hr
  records := by
    intro k r₀ r₁ hr₀ hr₁
    rw [Dict.get?_set] at hr₁
    -- the record that was replaced, and the others
    split at hr₁
    · next hk =>
      subst hk
      rw [hr] at hr₀
      cases hr₀
      cases hr₁
      exact ⟨hdir, hperm⟩
    · rw [hr₀] at hr₁
      cases hr₁
      exact ⟨rfl, .refl _⟩

theorem linked (h : SameShape items items') (hlinked : Linked items) : Linked items' where
  children := by
    intro q r' hr' c
    obtain ⟨r, hr⟩ := h.exists_old hr'
    rw [(h.records q r r' hr hr').2.count_eq, hlinked.children q r hr c]
    simp only [h.keys]
  parent := by
    intro c hc hne
    obtain ⟨r, hr, hdir⟩ := hlinked.parent c ((h.keys c).mp hc) hne
    obtain ⟨r', hr'⟩ := (Dict.mem_keys_iff _ _).mp ((h.keys _).mpr (mem_keys_of_get? hr))
    exact ⟨r', hr', (h.records _ r r' hr hr').1.trans hdir⟩

theorem applyMetadata (items : Items) (line : MetadataLine) :
    SameShape items (applyMetadata items line) := by
  rw [Ota.applyMetadata]
  -- a line about no Item at all does nothing here
  split
  · exact refl items
  · next r hr =>
    refine set hr ?_ ?_
    · rw [sortChildren]
      split <;> rfl
    · rw [sortChildren]
      split
      · exact List.perm_insertionSort _ _
      · exact .refl _

theorem overrideMetadata (items : Items) (name : Path) (perm : Perm) :
    SameShape items (overrideMetadata items name perm) := by
  rw [Ota.overrideMetadata]
  split
  · exact refl items
  · next r hr => exact set hr rfl (.refl _)

/-- `GetMetadata` sorts the children and sets the metadata. -/
theorem getMetadata (items : Items) (lines : List MetadataLine) :
    SameShape items (getMetadata items lines) := by
  have hlines : SameShape items (lines.foldl Ota.applyMetadata items) := by
    induction lines generalizing items with
    | nil => exact refl items
    | cons line lines ih => exact (applyMetadata items line).trans (ih _)
  exact (hlines.trans (overrideMetadata _ _ _)).trans (overrideMetadata _ _ _)

end SameShape

/-! ## §5 What `SetPermissions` Visits -/

/-- The names of the Items that `recurse` of `SetPermissions` is called on: the Item itself,
and for a directory whatever is visited from its children. -/
def visits (items : Items) : Nat → Path → List Path
  | 0, _ => []
  | fuel + 1, name =>
    match items.get? name with
    | none => []
    | some r => name :: if r.dir then r.children.flatMap (visits items fuel) else []

section Visits

variable {items : Items}

/-- The names that are not the Item itself are below one of its children. -/
theorem Linked.below_iff (h : Linked items) {name q : Path} {r : ItemRecord}
    (hr : items.get? name = some r) :
    q ∈ items.keys ∧ name <+: q ↔ q = name ∨ ∃ c ∈ r.children, q ∈ items.keys ∧ c <+: q := by
  constructor
  · rintro ⟨hq, t, rfl⟩
    -- the Item itself, or what lies below one of its children
    cases t with
    | nil => exact .inl (by simp)
    | cons x t =>
      have hpre : name ++ [x] <+: name ++ x :: t := ⟨t, by simp⟩
      refine .inr ⟨name ++ [x], ?_, hq, hpre⟩
      rw [h.mem_children_iff hr]
      exact ⟨h.mem_of_prefix hq hpre, by simp, by simp⟩
  · rintro (rfl | ⟨c, hc, hq, hpre⟩)
    · exact ⟨mem_keys_of_get? hr, List.prefix_rfl⟩
    · obtain ⟨-, -, hlast⟩ := (h.mem_children_iff hr).mp hc
      exact ⟨hq, (hlast ▸ List.dropLast_prefix c).trans hpre⟩

/-- Only directories have children. -/
theorem Linked.dir_of_mem_children (h : Linked items) {name c : Path} {r : ItemRecord}
    (hr : items.get? name = some r) (hc : c ∈ r.children) : r.dir = true := by
  obtain ⟨hkey, hne, hlast⟩ := (h.mem_children_iff hr).mp hc
  obtain ⟨r', hr', hdir⟩ := h.parent c hkey hne
  rw [hlast, hr] at hr'
  cases hr'
  exact hdir

theorem Linked.nodup_children (h : Linked items) {name : Path} {r : ItemRecord}
    (hr : items.get? name = some r) : r.children.Nodup := by
  rw [List.nodup_iff_count_le_one]
  intro c
  rw [h.children name r hr c]
  split <;> omega

/-- From an Item everything below it is visited, once. -/
theorem Linked.visits_spec (h : Linked items) (fuel : Nat) {name : Path}
    (hname : name ∈ items.keys) (hfuel : ∀ q ∈ items.keys, q.length < name.length + fuel) :
    (visits items fuel name).Nodup ∧
      ∀ q, q ∈ visits items fuel name ↔ q ∈ items.keys ∧ name <+: q := by
  induction fuel generalizing name with
  | zero => exact absurd (hfuel name hname) (Nat.lt_irrefl _)
  | succ fuel ih =>
    obtain ⟨r, hr⟩ := (Dict.mem_keys_iff _ _).mp hname
    have hchild (c : Path) (hc : c ∈ r.children) : name.length + 1 = c.length ∧
        (visits items fuel c).Nodup ∧
          ∀ q, q ∈ visits items fuel c ↔ q ∈ items.keys ∧ c <+: q := by
      obtain ⟨hkey, hne, hlast⟩ := (h.mem_children_iff hr).mp hc
      have hlen : name.length + 1 = c.length := by
        have hpos := List.length_pos_iff.mpr hne
        rw [← hlast, List.length_dropLast]
        omega
      refine ⟨hlen, ih hkey fun q hq => ?_⟩
      have := hfuel q hq
      omega
    simp only [visits, hr]
    split
    · constructor
      · rw [List.nodup_cons, List.nodup_flatMap]
        refine ⟨fun hmem => ?_, fun c hc => (hchild c hc).2.1, ?_⟩
        · -- what is visited from a child has a longer name
          obtain ⟨c, hc, hmem⟩ := List.mem_flatMap.mp hmem
          have hlen := (((hchild c hc).2.2 name).mp hmem).2.length_le
          have := (hchild c hc).1
          omega
        · apply (h.nodup_children hr).pairwise_of_forall_ne
          -- two children of one length are not above the same name
          intro c hc c' hc' hne q hq hq'
          have hpre := (((hchild c hc).2.2 q).mp hq).2
          have hpre' := (((hchild c' hc').2.2 q).mp hq').2
          refine hne (List.IsPrefix.eq_of_length (List.prefix_of_prefix_length_le hpre hpre' ?_) ?_)
          · have := (hchild c hc).1
            have := (hchild c' hc').1
            omega
          · have := (hchild c hc).1
            have := (hchild c' hc').1
            omega
      · intro q
        rw [h.below_iff hr, List.mem_cons, List.mem_flatMap]
        refine or_congr_right (exists_congr fun c => and_congr_right fun hc => ?_)
        exact (hchild c hc).2.2 q
    · next hfile =>
      refine ⟨List.nodup_singleton name, fun q => ?_⟩
      have hnone : ¬∃ c ∈ r.children, q ∈ items.keys ∧ c <+: q := by
        rintro ⟨c, hc, -⟩
        exact hfile (h.dir_of_mem_children hr hc)
      rw [h.below_iff hr, or_iff_left hnone, List.mem_singleton]

/-- `itemFuel` is enough. -/
theorem length_lt_itemFuel {q : Path} (hq : q ∈ items.keys) : q.length < itemFuel items := by
  have hmax : ∀ (l : List Nat), ∀ n ∈ l, n ≤ l.foldr max 0 := by
    intro l
    induction l with
    | nil => exact fun n hn => by cases hn
    | cons m l ih =>
      intro n hn
      rcases List.mem_cons.mp hn with rfl | hn
      · exact Nat.le_max_left _ _
      · exact Nat.le_trans (ih n hn) (Nat.le_max_right _ _)
  exact Nat.lt_succ_of_le (hmax _ _ (List.mem_map.mpr ⟨q, hq, rfl⟩))

/-- The tree that `SetPermissions` works on: its names fit together, it consists of what is
visited, and every Item of it is as it is registered. -/
theorem Linked.itemTree_spec (h : Linked items) {fuel : Nat} {name : Path} {tree : Item}
    (htree : itemTree items fuel name = .ok tree) :
    tree.name = name ∧ tree.WellNamed ∧ tree.subitems.map Item.name = visits items fuel name ∧
      ∀ j ∈ tree.subitems, ∃ r, items.get? j.name = some r ∧ r.dir = j.isDir ∧
        r.perm = some j.perm := by
  induction fuel generalizing name tree with
  | zero => cases htree
  | succ fuel ih =>
    rw [itemTree] at htree
    split at htree
    · cases htree
    · cases htree
    · next perm children hget =>
      cases htree
      refine ⟨rfl, .file name perm, by simp [visits, hget, Item.subitems, Item.name], ?_⟩
      -- a file is the only Item of its tree
      intro j hj
      obtain rfl := List.mem_singleton.mp hj
      exact ⟨_, hget, rfl, rfl⟩
    · next perm children hget =>
      obtain ⟨l, hl, heq⟩ := bind_eq_ok_iff.mp htree
      clear htree
      cases heq
      -- the trees of the children, in the order of their names
      have hchildren := mapM_forall₂ hl
      have hchild (i : Item) (hi : i ∈ l) : ∃ c ∈ children, itemTree items fuel c = .ok i :=
        mapM_ok hl i hi
      have hnames : l.map Item.name = children := by
        clear hl hchild hget
        induction hchildren with
        | nil => rfl
        | cons hci _ ihl => rw [List.map_cons, ihl, (ih hci).1]
      refine ⟨rfl, .dir name perm l ?_ ?_ ?_, ?_, ?_⟩
      · intro i hi
        obtain ⟨c, hc, hci⟩ := hchild i hi
        obtain ⟨-, hne, hlast⟩ := (h.mem_children_iff hget).mp hc
        exact ⟨c.getLast hne, by rw [(ih hci).1, ← hlast, List.dropLast_append_getLast]⟩
      · rw [hnames]
        exact h.nodup_children hget
      · intro i hi
        obtain ⟨c, hc, hci⟩ := hchild i hi
        exact (ih hci).2.1
      · have hall : (Item.subitemsAll l).map Item.name = children.flatMap (visits items fuel) := by
          clear hl hchild hnames hget
          induction hchildren with
          | nil => rfl
          | cons hci _ ihl =>
            rw [Item.subitemsAll, List.map_append, List.flatMap_cons, ihl, (ih hci).2.2.1]
        simp [visits, hget, Item.subitems, Item.name, hall]
      · intro j hj
        rcases Item.mem_subitems_dir.mp hj with rfl | ⟨i, hi, hji⟩
        · exact ⟨_, hget, rfl, rfl⟩
        · obtain ⟨c, hc, hci⟩ := hchild i hi
          exact (ih hci).2.2.2 j hji

end Visits

/-! ## §6 The Items of a Zip -/

/-- **`CopySystemFiles` builds a tree**: for entries in any order and with repetitions, of
which none is both a file and a directory or above another entry, the loop registers exactly
the names of the entries and everything above them; every Item but the root is once a child
of the Item of its `dirname` and of no other Item; an Item is a directory exactly when an
entry says so or it is above one; and with any metadata `SetPermissions` visits every Item
below `system` once. -/
theorem items_of_entries (z : List ZipEntry) (hz : NamesFit z) :
    ∃ items, copySystemItems Dict.empty z = .ok items ∧
      (∀ q, q ∈ items.keys ↔ ItemNamed z q) ∧
      (∀ q r, items.get? q = some r → ∀ c,
        r.children.count c = if c ∈ items.keys ∧ c ≠ [] ∧ c.dropLast = q then 1 else 0) ∧
      (∀ c ∈ items.keys, c ≠ [] → c.dropLast ∈ items.keys) ∧
      (∀ q r, items.get? q = some r → (r.dir = true ↔ DirNamed z q)) ∧
      ∀ lines, ["system"] ∈ items.keys →
        ∀ q, (visits (getMetadata items lines) (itemFuel (getMetadata items lines))
            ["system"]).count q = if q ∈ items.keys ∧ ["system"] <+: q then 1 else 0 := by
  obtain ⟨items, hcopy, h⟩ := itemsOf_nil.loop hz (List.nil_append z).symm
  refine ⟨items, hcopy, h.keys, h.linked.children, fun c hc hne => ?_, h.dirs, ?_⟩
  · exact h.linked.mem_of_prefix hc (List.dropLast_prefix c)
  · intro lines hsystem q
    -- the metadata changes no key and no kind, and children only in their order
    have hshape := SameShape.getMetadata items lines
    obtain ⟨hnodup, hmem⟩ := (hshape.linked h.linked).visits_spec
      (itemFuel (getMetadata items lines)) ((hshape.keys _).mpr hsystem)
      fun q hq => by
        have := length_lt_itemFuel hq
        omega
    rw [hnodup.count]
    simp only [hmem, hshape.keys]

/-- A file, then its directory, then the file again. -/
def unorderedEntries : List ZipEntry :=
  [.file ["bin", "sh"] [1], .file ["build.prop"] [115], .dir ["bin"], .file ["bin", "sh"] [1]]

instance (z : List ZipEntry) : Decidable (NamesFit z) := by
  unfold NamesFit
  infer_instance

theorem items_of_entries_unordered :
    ∃ items, copySystemItems Dict.empty unorderedEntries = .ok items ∧
      (∀ q, q ∈ items.keys ↔ ItemNamed unorderedEntries q) ∧
      (∀ q r, items.get? q = some r → ∀ c,
        r.children.count c = if c ∈ items.keys ∧ c ≠ [] ∧ c.dropLast = q then 1 else 0) ∧
      (∀ c ∈ items.keys, c ≠ [] → c.dropLast ∈ items.keys) ∧
      (∀ q r, items.get? q = some r → (r.dir = true ↔ DirNamed unorderedEntries q)) ∧
      ∀ lines, ["system"] ∈ items.keys →
        ∀ q, (visits (getMetadata items lines) (itemFuel (getMetadata items lines))
            ["system"]).count q = if q ∈ items.keys ∧ ["system"] <+: q then 1 else 0 :=
  items_of_entries unorderedEntries (by decide)

end OdroidU2.Ota
