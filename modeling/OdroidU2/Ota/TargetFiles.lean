import OdroidU2.Ota.Item

/-!
# Target-Files Packages

What `odroid_ota_from_target_files` reads from a target-files zip: the entries below
`SYSTEM/`, the metadata listing, the build properties and the boot image; and how
`CopySystemFiles` and `GetMetadata` turn them into the tree of Items.

The class attribute `Item.ITEMS` is an explicit state.  A record of it holds the names of
its children, and `itemTree` follows them.
-/

namespace OdroidU2.Ota

open OdroidU2.Foundations

/-! ## §1 Packages -/

/-- How the script generator can fail. -/
inductive PyError where
  /-- `common.ExternalError` -/
  | externalError (message : String)
  | assertionError
  | attributeError
  | keyError
  | nameError
  | recursionError
  | typeError
  | valueError
  deriving DecidableEq, Repr

/-- A step that succeeds, followed by what it is followed by. -/
theorem bind_eq_ok_iff {ε α β : Type} {x : Except ε α} {f : α → Except ε β} {b : β} :
    x >>= f = .ok b ↔ ∃ a, x = .ok a ∧ f a = .ok b := by
  -- an exception goes through; a value goes on
  cases x with
  | error e =>
    constructor
    · intro h
      cases h
    · rintro ⟨a, h, -⟩
      cases h
  | ok a =>
    constructor
    · intro h
      exact ⟨a, rfl, h⟩
    · rintro ⟨a', h, hf⟩
      cases h
      exact hf

theorem mapM_ok {ε α β : Type} {f : α → Except ε β} {l : List α} {l' : List β}
    (h : l.mapM f = .ok l') : ∀ y ∈ l', ∃ x ∈ l, f x = .ok y := by
  -- element by element
  induction l generalizing l' with
  | nil =>
    rw [List.mapM_nil] at h
    cases h
    simp
  | cons x l ih =>
    rw [List.mapM_cons] at h
    obtain ⟨y, hy, h⟩ := bind_eq_ok_iff.mp h
    obtain ⟨l₁, hl₁, h⟩ := bind_eq_ok_iff.mp h
    cases h
    intro z hz
    rcases List.mem_cons.mp hz with rfl | hz
    · exact ⟨x, List.mem_cons_self, hy⟩
    · obtain ⟨x', hx', hfx'⟩ := ih hl₁ z hz
      exact ⟨x', List.mem_cons_of_mem x hx', hfx'⟩

theorem mapM_forall₂ {ε α β : Type} {f : α → Except ε β} {l : List α} {l' : List β}
    (h : l.mapM f = .ok l') : List.Forall₂ (fun a b => f a = .ok b) l l' := by
  -- element by element
  induction l generalizing l' with
  | nil =>
    rw [List.mapM_nil] at h
    cases h
    exact .nil
  | cons a l ih =>
    rw [List.mapM_cons] at h
    obtain ⟨b, hb, h⟩ := bind_eq_ok_iff.mp h
    obtain ⟨l₁, hl₁, h⟩ := bind_eq_ok_iff.mp h
    cases h
    exact .cons hb (ih hl₁)

/-- An entry below `SYSTEM/`.  A directory has a trailing slash and no contents, a
symbolic link has the link's text for contents. -/
inductive ZipEntry where
  | dir (path : Path)
  | file (path : Path) (data : Bytes)
  | symlink (path : Path) (dest : LinkDest String)
  deriving DecidableEq, Repr

/-- `info.filename[7:]`, less the slash of a directory. -/
def ZipEntry.path : ZipEntry → Path
  | .dir path => path
  | .file path _ => path
  | .symlink path _ => path

/-- The name of the entry on the device, without the leading slash. -/
def ZipEntry.devicePath (e : ZipEntry) : Path := "system" :: e.path

/-- A line `name uid gid mode` of the metadata listing. -/
structure MetadataLine where
  name : Path
  perm : Perm
  deriving DecidableEq, Repr

/-- A target-files package. -/
structure Build where
  /-- The entries below `SYSTEM/`, in the order of the zip. -/
  system : List ZipEntry
  /-- `META/filesystem_config.txt`, or the output of `fs_config`. -/
  metadata : List MetadataLine
  /-- The `build.prop` of the info dictionary. -/
  buildProp : String → Option String
  /-- The data of `GetBootableImage`. -/
  boot : Bytes

/-- An entry of `LoadSystemFiles`, which leaves symbolic links out. -/
def loadEntry : ZipEntry → Option (FileName × Bytes)
  | .dir path => some (⟨"system" :: path, true⟩, [])
  | .file path data => some (⟨"system" :: path, false⟩, data)
  | .symlink .. => none

/-- `LoadSystemFiles` -/
def loadSystemFiles (z : List ZipEntry) : Dict FileName Bytes := Dict.ofList (z.filterMap loadEntry)

/-- `GetBuildProp`.  Its message formats the builtin `property`, not the name asked for. -/
def getBuildProp (prop : String) (buildProp : String → Option String) : Except PyError String :=
  match buildProp prop with
  | some value => .ok value
  | none => .error (.externalError "couldn't find <type 'property'> in build.prop")

/-! ## §2 `Item.ITEMS` -/

/-- An Item of `Item.ITEMS`.  A file has no `children` attribute. -/
structure ItemRecord where
  dir : Bool
  perm : Option Perm
  children : List Path
  deriving DecidableEq, Repr

/-- `Item.ITEMS` -/
abbrev Items := Dict Path ItemRecord

/-- `self.parent.children.append(self)` -/
def appendChild (items : Items) (parent child : Path) : Except PyError Items :=
  match items.get? parent with
  | none => .error .keyError
  | some r =>
    if r.dir then .ok (items.set parent { r with children := r.children ++ [child] })
    else .error .attributeError

/-- `Item.Get`, on the reversed name: an Item that is missing is created, below a parent
that is created as a directory if it is missing too. -/
def getItemRev (items : Items) : List String → Bool → Except PyError Items
  | [], dir => .ok <|
    if ([] : Path) ∈ items.keys then items else items.set [] ⟨dir, none, []⟩
  | x :: parent, dir =>
    if (x :: parent).reverse ∈ items.keys then .ok items
    else do
      let items ← getItemRev items parent true
      let items ← appendChild items parent.reverse (x :: parent).reverse
      .ok (items.set (x :: parent).reverse ⟨dir, none, []⟩)

/-- `Item.Get(name, dir)` -/
def getItem (items : Items) (name : Path) (dir : Bool) : Except PyError Items :=
  getItemRev items name.reverse dir

/-- The text of a symbolic link. -/
def linkText (dest : LinkDest String) : String :=
  (if dest.absolute then "/" else "") ++ "/".intercalate (dest.steps.map fun
    | .up => ".."
    | .down name => name)

/-- The order of `(dest, link)` tuples. -/
def symlinkLe (a b : LinkDest String × Path) : Prop :=
  linkText a.1 < linkText b.1 ∨
    (linkText a.1 = linkText b.1 ∧ pathText a.2 ≤ pathText b.2)

instance : DecidableRel symlinkLe := fun a b => by unfold symlinkLe; infer_instance

/-- The `(dest, link)` of a symbolic link. -/
def symlinkOf : ZipEntry → Option (LinkDest String × Path)
  | .symlink path dest => some (dest, "system" :: path)
  | _ => none

/-- The Item calls of the loop of `CopySystemFiles`. -/
def copySystemItems (items : Items) : List ZipEntry → Except PyError Items
  | [] => .ok items
  | .dir path :: rest => do copySystemItems (← getItem items ("system" :: path) true) rest
  | .file path _ :: rest => do copySystemItems (← getItem items ("system" :: path) false) rest
  | .symlink .. :: rest => copySystemItems items rest

/-- The list `CopySystemFiles` returns. -/
def symlinksOf (z : List ZipEntry) : List (LinkDest String × Path) :=
  (z.filterMap symlinkOf).insertionSort symlinkLe

/-- `CopySystemFiles`, without an output zip and without substitutes: the symbolic links,
and `Item.ITEMS` afterwards. -/
def copySystemFiles (z : List ZipEntry) (items : Items) :
    Except PyError (List (LinkDest String × Path) × Items) := do
  let items ← copySystemItems items z
  return (symlinksOf z, items)

/-! ## §3 Metadata -/

/-- `i.children.sort(key=lambda i: i.name)` -/
def sortChildren (r : ItemRecord) : ItemRecord :=
  if r.dir then { r with children := r.children.insertionSort fun a b => pathText a ≤ pathText b }
  else r

/-- One line of the listing. -/
def applyMetadata (items : Items) (line : MetadataLine) : Items :=
  match items.get? line.name with
  | none => items
  | some r => items.set line.name (sortChildren { r with perm := some line.perm })

/-- `if i: i.uid, i.gid, i.mode = ...` -/
def overrideMetadata (items : Items) (name : Path) (perm : Perm) : Items :=
  match items.get? name with
  | none => items
  | some r => items.set name { r with perm := some perm }

/-- `Item.GetMetadata` -/
def getMetadata (items : Items) (lines : List MetadataLine) : Items :=
  let items := lines.foldl applyMetadata items
  let items := overrideMetadata items ["system", "recovery-from-boot.p"] ⟨0, 0, 0o644⟩
  overrideMetadata items ["system", "etc", "install-recovery.sh"] ⟨0, 0, 0o544⟩

/-! ## §4 The Tree of Items -/

/-- The Item at a name with everything below it.  An Item without metadata cannot be
formatted into a command. -/
def itemTree (items : Items) : Nat → Path → Except PyError Item
  | 0, _ => .error .recursionError
  | fuel + 1, name =>
    match items.get? name with
    | none => .error .keyError
    | some ⟨_, none, _⟩ => .error .typeError
    | some ⟨false, some perm, _⟩ => .ok (.file name perm)
    | some ⟨true, some perm, children⟩ => do
      return .dir name perm (← children.mapM (itemTree items fuel))

/-- Names below a name are longer, so this is fuel enough. -/
def itemFuel (items : Items) : Nat := (items.keys.map List.length).foldr max 0 + 1

/-- `Item.Get("system").SetPermissions(script)` -/
def setSystemPermissions (order : DictOrder) (items : Items) : Except PyError (List Cmd) := do
  let items ← getItem items ["system"] false
  let system ← itemTree items (itemFuel items) ["system"]
  match setPermissions order system with
  | none => .error .assertionError
  | some script => .ok script

end OdroidU2.Ota
