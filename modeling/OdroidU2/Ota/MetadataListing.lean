import OdroidU2.Foundations.Columns
import OdroidU2.Ota.ItemRecords

/-!
# The Metadata Listing

`Item.GetMetadata` reads lines `name uid gid mode`, from a file of the package or from
`fs_config`, and splits them at white space.  The name is the first column and is not
quoted, so a name with a space in it is more than one column: `split` then yields too many
values, and the whole listing is lost.

- `getMetadataText` — `GetMetadata` on the text of a listing
- `getMetadataText_listing` — a listing of names without white space is read as it is meant
- `listingIsRead_iff` — and only such a listing
- `spaced_name_fails` — a file with a space in its name
-/

namespace OdroidU2.Ota

open OdroidU2.Foundations

/-! ## §1 Reading a Listing -/

/-- The name of an Item as it is written. -/
def nameText (p : Path) : List Char := (pathText p).toList

/-- `cls.ITEMS.get(name, None)` -/
def findItem (items : Items) (name : List Char) : Option Path :=
  items.keys.find? fun p => nameText p = name

/-- `int(s, base)`, which fails on anything else. -/
def intOf (base : Nat) (s : List Char) : Except PyError Int :=
  match pyInt base s with
  | none => .error .valueError
  | some n => .ok n

/-- One line: `name, uid, gid, mode = line.split()`, and the Item is set if there is one. -/
def applyLine (items : Items) (line : List Char) : Except PyError Items :=
  match columns isSpace line with
  | [name, uid, gid, mode] =>
    match findItem items name with
    | none => .ok items
    | some p => do
      let uid ← intOf 10 uid
      let gid ← intOf 10 gid
      let mode ← intOf 8 mode
      .ok (applyMetadata items ⟨p, ⟨uid, gid, mode⟩⟩)
  | _ => .error .valueError

/-- The metadata of the two files that the script generates itself. -/
def overrideGenerated (items : Items) : Items :=
  overrideMetadata (overrideMetadata items ["system", "recovery-from-boot.p"] ⟨0, 0, 0o644⟩)
    ["system", "etc", "install-recovery.sh"] ⟨0, 0, 0o544⟩

/-- `Item.GetMetadata` on the text it reads; empty lines are skipped. -/
def getMetadataText (items : Items) (output : List Char) : Except PyError Items := do
  let items ← ((output.splitOn '\n').filter fun line => line ≠ []).foldlM applyLine items
  .ok (overrideGenerated items)

/-! ## §2 Printing a Listing -/

/-- An Item as `fs_config` prints it. -/
structure ListedItem where
  name : Path
  uid : Int
  gid : Int
  mode : Nat
  deriving DecidableEq, Repr

namespace ListedItem

/-- `"%s %d %d %o"` -/
def text (l : ListedItem) : List Char :=
  nameText l.name ++ ' ' :: (decimal l.uid ++ ' ' :: (decimal l.gid ++ ' ' :: octal l.mode))

/-- The metadata that is listed. -/
def line (l : ListedItem) : MetadataLine := ⟨l.name, ⟨l.uid, l.gid, l.mode⟩⟩

end ListedItem

/-- One line for each, ended by a newline. -/
def listingText (listing : List ListedItem) : List Char :=
  listing.flatMap fun l => l.text ++ ['\n']

/-- The name has white space in it. -/
def HasSpace (p : Path) : Prop := ∃ c ∈ nameText p, isSpace c = true

/-- Items with different names, as they are before the metadata is read, and a listing with
one line for each that has a name. -/
structure Listing (items : Items) where
  lines : List ListedItem
  names : (lines.map ListedItem.name).Perm (items.keys.filter fun p => nameText p ≠ [])
  distinct : (items.keys.map nameText).Nodup
  noNewline : ∀ p ∈ items.keys, '\n' ∉ nameText p
  fresh : ∀ p r, items.get? p = some r → r.perm = none

/-- The two paths whose metadata the generator sets itself. -/
def generatedPaths : List Path :=
  [["system", "recovery-from-boot.p"], ["system", "etc", "install-recovery.sh"]]

/-- `GetMetadata` returns, and every listed Item has what is listed, the two generated files
apart. -/
def ListingIsRead {items : Items} (listing : Listing items) : Prop :=
  ∃ items', getMetadataText items (listingText listing.lines) = .ok items' ∧
    ∀ l ∈ listing.lines, l.name ∉ generatedPaths →
      ∃ r, items'.get? l.name = some r ∧ r.perm = some l.line.perm

/-! ## §3 One Line -/

section Line

variable {items : Items}

/-- The text of a line has the columns of the name, and three more. -/
theorem columns_text (l : ListedItem) : columns isSpace l.text =
    columns isSpace (nameText l.name) ++ [decimal l.uid, decimal l.gid, octal l.mode] := by
  rw [ListedItem.text, columns_append_cons _ _ rfl,
    columns_cons_column decimal_ne_nil isSpace_decimal rfl,
    columns_cons_column decimal_ne_nil isSpace_decimal rfl,
    columns_eq_singleton octal_ne_nil isSpace_octal]

theorem columns_name {p : Path} (hne : nameText p ≠ []) (hspace : ¬HasSpace p) :
    columns isSpace (nameText p) = [nameText p] := by
  apply columns_eq_singleton hne
  intro c hc
  rw [← Bool.not_eq_true]
  exact fun h => hspace ⟨c, hc, h⟩

/-- The Item of a name is found. -/
theorem findItem_nameText (hdistinct : (items.keys.map nameText).Nodup) {p : Path}
    (hp : p ∈ items.keys) : findItem items (nameText p) = some p := by
  rw [findItem]
  cases hfind : items.keys.find? fun q => nameText q = nameText p with
  | none => exact absurd (List.find?_eq_none.mp hfind p hp) (by simp)
  | some q =>
    have hq : nameText q = nameText p := by simpa using List.find?_some hfind
    rw [List.inj_on_of_nodup_map hdistinct (List.mem_of_find?_eq_some hfind) hp hq]

/-- A line whose name has no white space is read as it is meant. -/
theorem applyLine_text (hdistinct : (items.keys.map nameText).Nodup) {l : ListedItem}
    (hname : l.name ∈ items.keys) (hne : nameText l.name ≠ []) (hspace : ¬HasSpace l.name) :
    applyLine items l.text = .ok (applyMetadata items l.line) := by
  rw [applyLine, columns_text, columns_name hne hspace]
  simp only [List.singleton_append, findItem_nameText hdistinct hname, intOf, pyInt_decimal,
    pyInt_octal]
  rfl

/-- A line sets no Item whose name has white space in it. -/
theorem applyLine_spaced {items' : Items} {text : List Char}
    (h : applyLine items text = .ok items') {p : Path} (hspace : HasSpace p) :
    items'.get? p = items.get? p := by
  unfold applyLine at h
  split at h
  · next name uid gid mode hcolumns =>
    split at h
    · cases h
      rfl
    · next q hfind =>
      -- what is found is named by a column
      have hq : nameText q = name := by simpa using List.find?_some hfind
      have hne : p ≠ q := by
        rintro rfl
        obtain ⟨c, hc, hsep⟩ := hspace
        have hmem : name ∈ columns isSpace text := by rw [hcolumns]; exact List.mem_cons_self
        rw [hq] at hc
        exact Bool.noConfusion (hsep.symm.trans (not_sep_of_mem_columns hmem c hc))
      obtain ⟨uid, -, h⟩ := bind_eq_ok_iff.mp h
      obtain ⟨gid, -, h⟩ := bind_eq_ok_iff.mp h
      obtain ⟨mode, -, h⟩ := bind_eq_ok_iff.mp h
      cases h
      rw [applyMetadata]
      split
      · rfl
      · rw [Dict.get?_set, if_neg hne]
  · cases h

end Line

/-! ## §4 The Whole Listing -/

section Whole

variable {items : Items}

theorem keys_applyMetadata (items : Items) (line : MetadataLine) :
    (applyMetadata items line).keys = items.keys := by
  rw [applyMetadata]
  split
  · rfl
  · next r hr => rw [Dict.keys_set, if_pos (mem_keys_of_get? hr)]

theorem newline_not_mem_text {l : ListedItem} (hname : '\n' ∉ nameText l.name) :
    '\n' ∉ l.text := by
  have hspace {s : List Char} (hs : ∀ c ∈ s, isSpace c = false) : '\n' ∉ s := fun h =>
    Bool.noConfusion (hs _ h)
  simp only [ListedItem.text, List.mem_append, List.mem_cons, not_or]
  exact ⟨hname, by decide, hspace isSpace_decimal, by decide, hspace isSpace_decimal, by decide,
    hspace isSpace_octal⟩

/-- A listing is split into its lines. -/
theorem lines_listingText {lines : List ListedItem} (hnames : ∀ l ∈ lines, '\n' ∉ nameText l.name) :
    ((listingText lines).splitOn '\n').filter (fun line => line ≠ []) =
      lines.map ListedItem.text := by
  -- line by line: no name has a newline in it
  induction lines with
  | nil => rfl
  | cons l lines ih =>
    obtain ⟨hl, hrest⟩ := List.forall_mem_cons.mp hnames
    have hne : l.text ≠ [] := by simp [ListedItem.text]
    rw [listingText, List.flatMap_cons, List.append_assoc, List.singleton_append,
      List.splitOn_append_cons_self, List.splitOn_eq_singleton (newline_not_mem_text hl),
      List.singleton_append, List.filter_cons_of_pos (by simpa using hne), List.map_cons]
    exact congrArg _ (ih hrest)

/-- Lines whose names have no white space are read one after the other. -/
theorem foldlM_applyLine {lines : List ListedItem} (hdistinct : (items.keys.map nameText).Nodup)
    (hnames : ∀ l ∈ lines, l.name ∈ items.keys ∧ nameText l.name ≠ [] ∧ ¬HasSpace l.name) :
    (lines.map ListedItem.text).foldlM applyLine items =
      .ok ((lines.map ListedItem.line).foldl applyMetadata items) := by
  -- line by line; a line changes no name, so the rest is read as before
  induction lines generalizing items with
  | nil => rfl
  | cons l lines ih =>
    obtain ⟨⟨hname, hne, hspace⟩, hrest⟩ := List.forall_mem_cons.mp hnames
    rw [List.map_cons, List.foldlM_cons, applyLine_text hdistinct hname hne hspace, List.map_cons,
      List.foldl_cons]
    apply ih
    · rwa [keys_applyMetadata]
    · rwa [keys_applyMetadata]

/-- No line of a listing sets an Item whose name has white space in it. -/
theorem get?_foldlM_applyLine {texts : List (List Char)} {items' : Items}
    (h : texts.foldlM applyLine items = .ok items') {p : Path} (hspace : HasSpace p) :
    items'.get? p = items.get? p := by
  induction texts generalizing items with
  | nil =>
    cases h
    rfl
  | cons text texts ih =>
    rw [List.foldlM_cons] at h
    obtain ⟨items₁, hline, hrest⟩ := bind_eq_ok_iff.mp h
    rw [ih hrest, applyLine_spaced hline hspace]

theorem get?_overrideGenerated {p : Path} (hp : p ∉ generatedPaths) :
    (overrideGenerated items).get? p = items.get? p := by
  have hoverride (items : Items) (name : Path) (perm : Perm) (hne : p ≠ name) :
      (overrideMetadata items name perm).get? p = items.get? p := by
    rw [overrideMetadata]
    split
    · rfl
    · rw [Dict.get?_set, if_neg hne]
  rw [generatedPaths, List.mem_cons, List.mem_singleton, not_or] at hp
  rw [overrideGenerated, hoverride _ _ _ hp.2, hoverride _ _ _ hp.1]

/-- An Item that is listed once has what is listed. -/
theorem perm_foldl_applyMetadata {lines : List MetadataLine}
    (hnodup : (lines.map MetadataLine.name).Nodup) {line : MetadataLine} (hline : line ∈ lines)
    (hname : line.name ∈ items.keys) :
    ∃ r, (lines.foldl applyMetadata items).get? line.name = some r ∧
      r.perm = some line.perm := by
  -- a line leaves alone what it does not name
  have hother (lines : List MetadataLine) (items : Items) {p : Path}
      (hp : p ∉ lines.map MetadataLine.name) :
      (lines.foldl applyMetadata items).get? p = items.get? p := by
    induction lines generalizing items with
    | nil => rfl
    | cons x lines ih =>
      rw [List.map_cons, List.mem_cons, not_or] at hp
      rw [List.foldl_cons, ih _ hp.2, applyMetadata]
      split
      · rfl
      · rw [Dict.get?_set, if_neg hp.1]
  induction lines generalizing items with
  | nil => cases hline
  | cons x lines ih =>
    rw [List.map_cons, List.nodup_cons] at hnodup
    rw [List.foldl_cons]
    rcases List.mem_cons.mp hline with rfl | hline
    · obtain ⟨r, hr⟩ := (Dict.mem_keys_iff _ _).mp hname
      rw [hother _ _ hnodup.1, applyMetadata, hr, Dict.get?_set, if_pos rfl]
      refine ⟨_, rfl, ?_⟩
      rw [sortChildren]
      split <;> rfl
    · exact ih hnodup.2 hline (by rwa [keys_applyMetadata])

end Whole

section Listing

variable {items : Items} (listing : Listing items)

theorem Listing.name_mem_iff {p : Path} :
    (∃ l ∈ listing.lines, l.name = p) ↔ p ∈ items.keys ∧ nameText p ≠ [] := by
  rw [← List.mem_map, listing.names.mem_iff, List.mem_filter, decide_eq_true_eq]

/-- A listing of names without white space is read as it is meant. -/
theorem getMetadataText_listing (hspace : ∀ p ∈ items.keys, ¬HasSpace p) :
    getMetadataText items (listingText listing.lines) =
      .ok (getMetadata items (listing.lines.map ListedItem.line)) := by
  have hname (l : ListedItem) (hl : l ∈ listing.lines) :
      l.name ∈ items.keys ∧ nameText l.name ≠ [] := listing.name_mem_iff.mp ⟨l, hl, rfl⟩
  rw [getMetadataText, lines_listingText fun l hl => listing.noNewline _ (hname l hl).1,
    foldlM_applyLine listing.distinct fun l hl =>
      ⟨(hname l hl).1, (hname l hl).2, hspace _ (hname l hl).1⟩]
  rfl

/-- A name with white space in it is not read. -/
theorem not_listingIsRead {p : Path} (hp : p ∈ items.keys) (hspace : HasSpace p) :
    ¬ListingIsRead listing := by
  rintro ⟨items', hread, hset⟩
  have hne : nameText p ≠ [] := by
    obtain ⟨c, hc, -⟩ := hspace
    exact List.ne_nil_of_mem hc
  obtain ⟨l, hl, rfl⟩ := listing.name_mem_iff.mpr ⟨hp, hne⟩
  have hgenerated : l.name ∉ generatedPaths := by
    intro hmem
    have hplain : ∀ p ∈ generatedPaths, (nameText p).any isSpace = false := by decide
    obtain ⟨c, hc, hsep⟩ := hspace
    exact Bool.noConfusion ((hplain _ hmem).symm.trans (List.any_eq_true.mpr ⟨c, hc, hsep⟩))
  obtain ⟨r', hr', hperm⟩ := hset l hl hgenerated
  -- its Item still is as it was before
  obtain ⟨items₁, hlines, hread⟩ := bind_eq_ok_iff.mp hread
  cases hread
  rw [get?_overrideGenerated hgenerated, get?_foldlM_applyLine hlines hspace] at hr'
  rw [listing.fresh _ r' hr'] at hperm
  cases hperm

/-- **When a listing is read**: for Items with any names without a newline, and a listing
with one line for each in any order, `GetMetadata` returns and sets every Item to what is
listed exactly when no name has white space in it. -/
theorem listingIsRead_iff : ListingIsRead listing ↔ ∀ p ∈ items.keys, ¬HasSpace p := by
  constructor
  · exact fun hread p hp hspace => not_listingIsRead listing hp hspace hread
  · intro hspace
    refine ⟨_, getMetadataText_listing listing hspace, fun l hl hgenerated => ?_⟩
    -- each Item has one line, so its permissions are not set twice
    have hnodup : ((listing.lines.map ListedItem.line).map MetadataLine.name).Nodup := by
      rw [List.map_map]
      exact listing.names.nodup_iff.mpr (items.nodup.filter _)
    have hname := (listing.name_mem_iff.mp ⟨l, hl, rfl⟩).1
    obtain ⟨r, hr, hperm⟩ := perm_foldl_applyMetadata hnodup
      (List.mem_map.mpr ⟨l, hl, rfl⟩) hname
    refine ⟨r, ?_, hperm⟩
    show (overrideGenerated _).get? l.name = some r
    rw [get?_overrideGenerated hgenerated]
    exact hr

end Listing

/-- The Items of a build with one file. -/
def spacedItems : Items where
  entries := [([], ⟨true, none, [["system"]]⟩), (["system"], ⟨true, none, [["system", "my file"]]⟩),
    (["system", "my file"], ⟨false, none, []⟩)]
  nodup := by decide

/-- What `fs_config` prints for them. -/
def spacedListing : Listing spacedItems where
  lines := [⟨["system"], 0, 0, 0o755⟩, ⟨["system", "my file"], 0, 0, 0o644⟩]
  names := by decide
  distinct := by decide
  noNewline := by decide
  fresh := by
    intro p r hr
    have hall : ∀ e ∈ spacedItems.entries, e.2.perm = none := by decide
    exact hall _ ((Dict.get?_eq_some_iff _ _ _).mp hr)

/-- `too many values to unpack` -/
theorem spaced_name_fails :
    getMetadataText spacedItems (listingText spacedListing.lines) = .error .valueError ∧
      ¬ListingIsRead spacedListing := by
  have hspace : HasSpace ["system", "my file"] := ⟨' ', by decide, rfl⟩
  exact ⟨rfl, not_listingIsRead spacedListing (by decide) hspace⟩

end OdroidU2.Ota
