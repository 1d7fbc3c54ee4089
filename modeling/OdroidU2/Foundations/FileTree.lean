import Mathlib

/-!
# File Trees with Symbolic Links

A file system as a partial function from paths to nodes, with the path resolution and
the system calls an installer makes.

- `FileTree.resolve` — follow every symbolic link of a path
- `unlink`, `mkdirs`, `writeFile`, `symlink`, `setPerm`, `setPermRecursive` — the calls
- `FileTree.Treelike` — every node hangs below directories
- `FileTree.Plain` — no leaf stands above a path

For a plain path of a treelike tree resolution is the identity, and each call acts on
every path on its own; the `_eq` lemmas say how.  Wherever a path leads, unlinking takes
away at most a leaf, and setting permissions changes nothing else.
-/

namespace OdroidU2.Foundations

/-! ## §1 Trees -/

/-- One component of the text of a symbolic link. -/
inductive LinkStep (κ : Type) where
  /-- `..` -/
  | up
  /-- A name. -/
  | down (name : κ)
  deriving DecidableEq, Repr

/-- The text of a symbolic link. -/
structure LinkDest (κ : Type) where
  absolute : Bool
  steps : List (LinkStep κ)
  deriving DecidableEq, Repr

/-- What a path names: a directory, a regular file or a symbolic link, with names in `κ`,
contents in `δ` and permissions in `π`. -/
inductive Node (κ δ π : Type) where
  | dir (perm : π)
  | file (data : δ) (perm : π)
  | link (dest : LinkDest κ)
  deriving DecidableEq, Repr

/-- A file system: what each absolute path names, if anything. -/
abbrev FileTree (κ δ π : Type) := List κ → Option (Node κ δ π)

variable {κ δ π : Type}

namespace Node

/-- The node with new permissions, which a symbolic link does not have. -/
def setPerm (dperm fperm : π) : Node κ δ π → Node κ δ π
  | .dir _ => .dir dperm
  | .file data _ => .file data fperm
  | .link dest => .link dest

/-- The permissions, if any. -/
def perm? : Node κ δ π → Option π
  | .dir perm => some perm
  | .file _ perm => some perm
  | .link _ => none

/-- Is this a directory? -/
def isDir : Node κ δ π → Bool
  | .dir _ => true
  | _ => false

/-- Is this a symbolic link? -/
def isLink : Node κ δ π → Bool
  | .link _ => true
  | _ => false

/-- What the node is, whatever its permissions. -/
def contents : Node κ δ π → Node κ δ Unit
  | .dir _ => .dir ()
  | .file data _ => .file data ()
  | .link dest => .link dest

@[simp] theorem contents_setPerm (dperm fperm : π) (n : Node κ δ π) :
    (n.setPerm dperm fperm).contents = n.contents := by
  cases n <;> rfl

theorem isDir_contents (n : Node κ δ π) : n.contents.isDir = n.isDir := by
  cases n <;> rfl

theorem isLink_contents (n : Node κ δ π) : n.contents.isLink = n.isLink := by
  cases n <;> rfl

@[simp] theorem isDir_setPerm (dperm fperm : π) (n : Node κ δ π) :
    (n.setPerm dperm fperm).isDir = n.isDir := by
  cases n <;> rfl

@[simp] theorem isLink_setPerm (dperm fperm : π) (n : Node κ δ π) :
    (n.setPerm dperm fperm).isLink = n.isLink := by
  cases n <;> rfl

end Node

namespace FileTree

/-! ## §2 Resolution -/

/-- Walk the steps from the directory `done`, with `follow` for symbolic links.  Only the
last step may name nothing, or a file. -/
def walkWith (t : FileTree κ δ π) (follow : List κ → List (LinkStep κ) → Option (List κ))
    (done : List κ) : List (LinkStep κ) → Option (List κ)
  | [] => some done
  | .up :: rest => walkWith t follow done.dropLast rest
  | .down c :: rest =>
    match t (done ++ [c]) with
    | some (.dir _) => walkWith t follow (done ++ [c]) rest
    | some (.link dest) => follow (if dest.absolute then [] else done) (dest.steps ++ rest)
    | _ => if rest.isEmpty then some (done ++ [c]) else none

/-- Walk with at most `n` symbolic links less one. -/
def walk (t : FileTree κ δ π) : Nat → List κ → List (LinkStep κ) → Option (List κ)
  | 0 => fun _ _ => none
  | n + 1 => walkWith t (walk t n)

/-- How many symbolic links a resolution follows before it gives up. -/
def maxLinks : Nat := 40

/-- The path itself, once every symbolic link on it has been followed. -/
def resolve (t : FileTree κ δ π) (p : List κ) : Option (List κ) :=
  t.walk (maxLinks + 1) [] (p.map .down)

/-- The directory of the path with its links followed, and then the last name. -/
def resolveParent (t : FileTree κ δ π) (p : List κ) : Option (List κ) :=
  match p.getLast? with
  | none => none
  | some c =>
    match t.resolve p.dropLast with
    | none => none
    | some d => if d = [] ∨ (t d).any Node.isDir then some (d ++ [c]) else none

/-- What opening the path for reading finds. -/
def lookup (t : FileTree κ δ π) (p : List κ) : Option (Node κ δ π) := (t.resolve p).bind t

/-! ## §3 System Calls -/

section Calls

variable [DecidableEq κ]

/-- Remove a file or a symbolic link; every error is ignored. -/
def unlink (t : FileTree κ δ π) (p : List κ) : FileTree κ δ π :=
  match t.resolveParent p with
  | none => t
  | some q => if (t q).any Node.isDir then t else Function.update t q none

/-- Create a directory unless there is one. -/
def mkdir (t : FileTree κ δ π) (perm : π) (p : List κ) : Option (FileTree κ δ π) :=
  match t.resolve p with
  | none => none
  | some q =>
    match t q with
    | none => some (Function.update t q (some (.dir perm)))
    | some (.dir _) => some t
    | some _ => none

/-- Create the directories from `done` on, one name after the other. -/
def mkdirsFrom (perm : π) (t : FileTree κ δ π) (done : List κ) : List κ → Option (FileTree κ δ π)
  | [] => some t
  | c :: rest =>
    match t.mkdir perm (done ++ [c]) with
    | none => none
    | some t => mkdirsFrom perm t (done ++ [c]) rest

/-- Create a directory and every missing one above it. -/
def mkdirs (t : FileTree κ δ π) (perm : π) (p : List κ) : Option (FileTree κ δ π) :=
  mkdirsFrom perm t [] p

/-- Write a file, below directories created as needed.  A file that exists keeps its
permissions. -/
def writeFile (t : FileTree κ δ π) (dperm fperm : π) (p : List κ) (data : δ) :
    Option (FileTree κ δ π) := do
  let t ← t.mkdirs dperm p.dropLast
  let q ← t.resolve p
  match t q with
  | none => some (Function.update t q (some (.file data fperm)))
  | some (.file _ perm) => some (Function.update t q (some (.file data perm)))
  | some _ => none

/-- Create a symbolic link, below directories created as needed.  It fails if the name
is taken. -/
def symlink (t : FileTree κ δ π) (dperm : π) (dest : LinkDest κ) (p : List κ) :
    Option (FileTree κ δ π) := do
  let t ← t.mkdirs dperm p.dropLast
  let q ← t.resolveParent p
  if (t q).isNone then some (Function.update t q (some (.link dest))) else none

/-- Set the permissions of what the path names. -/
def setPerm (t : FileTree κ δ π) (perm : π) (p : List κ) : Option (FileTree κ δ π) := do
  let q ← t.resolve p
  let n ← t q
  some (Function.update t q (some (n.setPerm perm perm)))

/-- Set the permissions of everything below the path, itself included. -/
def setPermRecursive (t : FileTree κ δ π) (dperm fperm : π) (p : List κ) :
    Option (FileTree κ δ π) := do
  let q ← t.resolve p
  let _ ← t q
  some fun r => if q <+: r then (t r).map (Node.setPerm dperm fperm) else t r

end Calls

/-! ## §4 Plain Paths of Treelike Trees -/

/-- The path names a directory; the root always does. -/
def DirAt (t : FileTree κ δ π) (p : List κ) : Prop := p = [] ∨ (t p).any Node.isDir = true

/-- The path names a directory or nothing. -/
def FreeAt (t : FileTree κ δ π) (p : List κ) : Prop := p = [] ∨ ∀ n ∈ t p, n.isDir = true

/-- The path does not name a symbolic link. -/
def NoLinkAt (t : FileTree κ δ π) (p : List κ) : Prop := ∀ n ∈ t p, n.isLink = false

/-- Every node hangs below a directory. -/
def Treelike (t : FileTree κ δ π) : Prop := ∀ p c, t (p ++ [c]) ≠ none → t.DirAt p

/-- No file and no link stands above the path. -/
def Plain (t : FileTree κ δ π) (p : List κ) : Prop := ∀ q, q <+: p → q ≠ p → t.FreeAt q

section Lemmas

variable {t : FileTree κ δ π} {p q : List κ}

theorem DirAt.freeAt (h : t.DirAt p) : t.FreeAt p := by
  rcases h with h | h
  · exact .inl h
  · right
    intro n hn
    rw [hn, Option.any_some] at h
    exact h

theorem FreeAt.noLinkAt (h : t.FreeAt p) (hp : p ≠ []) : t.NoLinkAt p := by
  intro n hn
  have hdir := (h.resolve_left hp) n hn
  cases n <;> first | rfl | cases hdir

theorem FreeAt.dirAt (h : t.FreeAt p) (hp : t p ≠ none) : t.DirAt p := by
  rcases h with h | h
  · exact .inl h
  · obtain ⟨n, hn⟩ := Option.ne_none_iff_exists'.mp hp
    right
    rw [hn, Option.any_some]
    exact h n hn

theorem DirAt.ne_none (h : t.DirAt p) (hp : p ≠ []) : t p ≠ none := by
  intro hnone
  have hdir := h.resolve_left hp
  rw [hnone] at hdir
  cases hdir

/-- In a treelike tree directories stand above everything that exists. -/
theorem Treelike.dirAt (ht : t.Treelike) (hp : t p ≠ none) (hq : q <+: p) (hne : q ≠ p) :
    t.DirAt q := by
  obtain ⟨r, rfl⟩ := hq
  -- up from `p`, one component at a time: what has a node below it is a directory
  induction r using List.reverseRecOn with
  | nil => exact absurd (List.append_nil q).symm hne
  | append_singleton r c ih =>
    rw [← List.append_assoc] at hp
    have hparent := ht _ c hp
    by_cases hr : r = []
    · rw [hr, List.append_nil] at hparent
      exact hparent
    · have hlong : q ++ r ≠ [] := by simp [hr]
      refine ih (hparent.ne_none hlong) fun heq => hr ?_
      exact List.self_eq_append_right.mp heq

theorem Plain.of_concat {c : κ} (h : t.Plain (p ++ [c])) : t.Plain p := by
  intro q hq hne
  apply h q (hq.trans (List.prefix_append p [c]))
  intro heq
  have hle := hq.length_le
  rw [heq, List.length_append, List.length_singleton] at hle
  omega

theorem Treelike.plain (ht : t.Treelike) (hp : t p ≠ none) : t.Plain p :=
  fun _ hq hne => (ht.dirAt hp hq hne).freeAt

/-- Along a path with no leaf above it and no link at its end, a walk goes straight on, or
stops where a directory is missing. -/
theorem walkWith_plain (t : FileTree κ δ π) (f : List κ → List (LinkStep κ) → Option (List κ))
    (done cs : List κ)
    (hfree : ∀ q, q <+: cs → q ≠ [] → q ≠ cs → t.FreeAt (done ++ q))
    (hlast : cs ≠ [] → t.NoLinkAt (done ++ cs)) :
    t.walkWith f done (cs.map .down) = some (done ++ cs) ∨
      (t.walkWith f done (cs.map .down) = none ∧
        ∃ q, q <+: cs ∧ q ≠ [] ∧ q ≠ cs ∧ t (done ++ q) = none) := by
  -- along the components: every one but the last is a directory or missing, and a missing one stops
  -- the walk
  induction cs generalizing done with
  | nil => exact .inl (by rw [List.append_nil]; rfl)
  | cons c rest ih =>
    rw [List.map_cons, walkWith]
    by_cases hrest : rest = []
    · -- the last component may be anything but a link, and need not be there
      subst hrest
      have hnolink := hlast (List.cons_ne_nil _ _)
      cases hnode : t (done ++ [c]) with
      | none => exact .inl rfl
      | some n =>
        cases n with
        | dir perm => exact .inl rfl
        | file data perm => exact .inl rfl
        | link dest => cases hnolink _ hnode
    · -- the others must be there and be directories
      have hhead : [c] ≠ c :: rest := fun heq => hrest (List.cons.inj heq).2.symm
      have hc := hfree [c] (List.prefix_cons_inj c |>.mpr List.nil_prefix) (List.cons_ne_nil _ _) hhead
      have hc := hc.resolve_left (by simp)
      cases hnode : t (done ++ [c]) with
      | none =>
        refine .inr ⟨?_, [c], List.prefix_cons_inj c |>.mpr List.nil_prefix, List.cons_ne_nil _ _,
          hhead, hnode⟩
        simp [hrest]
      | some n =>
        cases n with
        | file data perm => cases hc _ hnode
        | link dest => cases hc _ hnode
        | dir perm =>
          -- the walk goes on below `c`
          have hbelow : ∀ q, done ++ [c] ++ q = done ++ c :: q := fun q => by simp
          have hfree' : ∀ q, q <+: rest → q ≠ [] → q ≠ rest → t.FreeAt (done ++ [c] ++ q) := by
            intro q hq _ hne
            rw [hbelow]
            exact hfree (c :: q) (List.prefix_cons_inj c |>.mpr hq) (List.cons_ne_nil _ _)
              fun heq => hne (List.cons.inj heq).2
          have hlast' : rest ≠ [] → t.NoLinkAt (done ++ [c] ++ rest) := by
            intro _
            rw [hbelow]
            exact hlast (List.cons_ne_nil _ _)
          rcases ih (done ++ [c]) hfree' hlast' with hwalk | ⟨hwalk, q, hq, hq0, hne, hnone⟩
          · exact .inl (by rw [hbelow] at hwalk; exact hwalk)
          · refine .inr ⟨hwalk, c :: q, List.prefix_cons_inj c |>.mpr hq, List.cons_ne_nil _ _,
              fun heq => hne (List.cons.inj heq).2, ?_⟩
            rw [hbelow] at hnone
            exact hnone

theorem resolve_plain (hplain : t.Plain p) (hlast : t.NoLinkAt p) :
    t.resolve p = some p ∨
      (t.resolve p = none ∧ ∃ q, q <+: p ∧ q ≠ [] ∧ q ≠ p ∧ t q = none) :=
  walkWith_plain t _ [] p (fun q hq _ hne => hplain q hq hne) fun _ => hlast

/-- Where directories stand above the path, resolution is the identity. -/
theorem resolve_of_dirAt (hdirs : ∀ q, q <+: p → q ≠ p → t.DirAt q) (hlast : t.NoLinkAt p) :
    t.resolve p = some p := by
  rcases resolve_plain (fun q hq hne => (hdirs q hq hne).freeAt) hlast with
    h | ⟨-, q, hq, hq0, hne, hnone⟩
  · exact h
  · exact absurd hnone ((hdirs q hq hne).ne_none hq0)

/-- What exists is found where it is. -/
theorem Treelike.resolve (ht : t.Treelike) (hp : t p ≠ none) (hlast : t.NoLinkAt p) :
    t.resolve p = some p :=
  resolve_of_dirAt (fun _ hq hne => ht.dirAt hp hq hne) hlast

theorem Treelike.lookup (ht : t.Treelike) (hplain : t.Plain p) (hlast : t.NoLinkAt p) :
    t.lookup p = t p := by
  rcases resolve_plain hplain hlast with h | ⟨h, q, hq, hq0, hne, hnone⟩
  · rw [FileTree.lookup, h]
    rfl
  · -- a missing directory: nothing is below it
    have hp : t p = none := by
      by_contra hp
      exact (ht.dirAt hp hq hne).ne_none hq0 hnone
    rw [FileTree.lookup, h, hp]
    rfl

theorem Treelike.resolveParent (ht : t.Treelike) {c : κ} (hplain : t.Plain (p ++ [c])) :
    (t.DirAt p ∧ t.resolveParent (p ++ [c]) = some (p ++ [c])) ∨
      (t (p ++ [c]) = none ∧ t.resolveParent (p ++ [c]) = none) := by
  have hne : p ≠ p ++ [c] := by simp
  have hfree : t.FreeAt p := hplain p (List.prefix_append p [c]) hne
  rw [FileTree.resolveParent, List.getLast?_concat, List.dropLast_concat]
  by_cases hdir : t.DirAt p
  · left
    refine ⟨hdir, ?_⟩
    -- no link is in the way
    have hresolve : t.resolve p = some p := by
      by_cases hp : p = []
      · subst hp
        rfl
      · exact ht.resolve (hdir.ne_none hp) (hfree.noLinkAt hp)
    rw [hresolve]
    exact if_pos hdir
  · right
    have hp : p ≠ [] := fun hp => hdir (.inl hp)
    -- the directory is missing, so there is nothing in it
    have hnone : t p = none := by
      by_contra hsome
      exact hdir (hfree.dirAt hsome)
    refine ⟨by_contra fun hsome => hdir (ht p c hsome), ?_⟩
    cases hresolve : t.resolve p with
    | none => rfl
    | some d =>
      rcases resolve_plain hplain.of_concat (hfree.noLinkAt hp) with h | ⟨h, -⟩
      · rw [hresolve] at h
        cases h
        exact if_neg hdir
      · rw [hresolve] at h
        cases h

end Lemmas

/-! ## §5 What Each Call Does to a Plain Path -/

section CallLemmas

variable [DecidableEq κ] {t : FileTree κ δ π} {p : List κ}

/-- The tree with the missing directories down to `p`. -/
def withDirs (t : FileTree κ δ π) (perm : π) (p : List κ) : FileTree κ δ π :=
  fun q => if q ≠ [] ∧ q <+: p then some ((t q).getD (.dir perm)) else t q

theorem unlink_eq (ht : t.Treelike) (hplain : t.Plain p) (hp : p ≠ []) :
    t.unlink p = if (t p).any Node.isDir then t else Function.update t p none := by
  obtain ⟨d, c, rfl⟩ := List.eq_nil_or_concat' p |>.resolve_left hp
  rw [unlink]
  -- either the parent is there, and the name is its own, or there is nothing to remove
  rcases ht.resolveParent hplain with ⟨-, h⟩ | ⟨hnone, h⟩
  · rw [h]
  · rw [h, hnone]
    exact (Function.update_eq_self_iff.mpr hnone.symm).symm

theorem mkdir_eq (perm : π) (hdirs : ∀ q, q <+: p → q ≠ p → t.DirAt q) (hp : p ≠ [])
    (hfree : t.FreeAt p) :
    t.mkdir perm p = some (Function.update t p (some ((t p).getD (.dir perm)))) := by
  rw [mkdir, resolve_of_dirAt hdirs (hfree.noLinkAt hp)]
  have hdir := hfree.resolve_left hp
  -- a directory that is there stays as it is; nothing else can be there
  cases hnode : t p with
  | none => simp [hnode]
  | some n =>
    cases n with
    | dir perm' => simp [hnode]
    | file data perm' => cases hdir _ hnode
    | link dest => cases hdir _ hnode

omit [DecidableEq κ] in
theorem DirAt.getD {perm : π} (h : t.DirAt p) (hp : p ≠ []) :
    some ((t p).getD (.dir perm)) = t p := by
  obtain ⟨n, hn⟩ := Option.ne_none_iff_exists'.mp (h.ne_none hp)
  rw [hn, Option.getD_some]

/-- A tree with the directories above a path has nothing to add for them. -/
theorem withDirs_of_dirAt {perm : π} (h : ∀ q, q <+: p → t.DirAt q) : t.withDirs perm p = t := by
  funext q
  rw [withDirs]
  split
  · rename_i hq
    exact (h q hq.2).getD hq.1
  · rfl

theorem withDirs_update {perm : π} {r : List κ} (hp : p ≠ []) (hr : p <+: r) :
    withDirs (Function.update t p (some ((t p).getD (.dir perm)))) perm r = t.withDirs perm r := by
  funext q
  by_cases hq : q = p
  · subst hq
    simp [withDirs, hp, hr]
  · simp [withDirs, hq]

/-- Making the directory at `p` leaves directories where they are. -/
theorem DirAt.update_dir {perm : π} {q : List κ} (hfree : t.FreeAt p)
    (h : q = p ∨ t.DirAt q) :
    DirAt (Function.update t p (some ((t p).getD (.dir perm)))) q := by
  by_cases hq : q = p
  · -- at `p` itself: the directory just made, or the one that stood there
    subst hq
    rcases hfree with h0 | hdir
    · exact .inl h0
    · right
      rw [Function.update_self, Option.any_some]
      cases hnode : t q with
      | none => rfl
      | some n => exact hdir n hnode
  · -- anywhere else nothing changes
    rcases h.resolve_left hq with h0 | hdir
    · exact .inl h0
    · right
      rw [Function.update_of_ne hq]
      exact hdir

theorem FreeAt.update_dir {perm : π} {q : List κ} (hfree : t.FreeAt p) (h : t.FreeAt q) :
    FreeAt (Function.update t p (some ((t p).getD (.dir perm)))) q := by
  by_cases hq : q = p
  · exact (DirAt.update_dir hfree (.inl hq)).freeAt
  · rcases h with h0 | hdir
    · exact .inl h0
    · right
      rw [Function.update_of_ne hq]
      exact hdir

theorem mkdirsFrom_eq {perm : π} {done rest : List κ} (hdone : ∀ q, q <+: done → t.DirAt q)
    (hfree : ∀ q, q <+: rest → t.FreeAt (done ++ q)) :
    mkdirsFrom perm t done rest = some (t.withDirs perm (done ++ rest)) := by
  -- down the path: the tree after one `mkdir` is the one the induction hypothesis speaks of
  induction rest generalizing t done with
  | nil =>
    rw [mkdirsFrom, List.append_nil, withDirs_of_dirAt hdone]
  | cons c rest ih =>
    have hassoc : ∀ q, done ++ [c] ++ q = done ++ c :: q := fun q => by simp
    have hc : t.FreeAt (done ++ [c]) := hfree [c] (List.prefix_cons_inj c |>.mpr List.nil_prefix)
    -- all that lies above the new directory exists already
    have habove : ∀ q, q <+: done ++ [c] → q = done ++ [c] ∨ t.DirAt q := by
      intro q hq
      rcases List.prefix_concat_iff.mp hq with h | h
      · exact .inl h
      · exact .inr (hdone q h)
    have hmk := mkdir_eq perm (fun q hq hne => (habove q hq).resolve_left hne)
      (by simp) hc
    rw [mkdirsFrom, hmk]
    dsimp only
    -- the directories still missing are those below the one just made
    rw [ih, withDirs_update (by simp), hassoc]
    · rw [hassoc]
      exact List.prefix_append_right_inj done |>.mpr (List.prefix_cons_inj c |>.mpr List.nil_prefix)
    · intro q hq
      exact DirAt.update_dir hc (habove q hq)
    · intro q hq
      refine FreeAt.update_dir hc ?_
      rw [hassoc]
      exact hfree (c :: q) (List.prefix_cons_inj c |>.mpr hq)

/-- Below free names only, all missing directories are made. -/
theorem mkdirs_eq {perm : π} (hfree : ∀ q, q <+: p → t.FreeAt q) :
    t.mkdirs perm p = some (t.withDirs perm p) :=
  mkdirsFrom_eq (fun _ hq => .inl (List.prefix_nil.mp hq)) hfree

omit [DecidableEq κ] in
theorem prefix_dropLast {q : List κ} (hp : p ≠ []) : q <+: p.dropLast ↔ q <+: p ∧ q ≠ p := by
  obtain ⟨d, c, rfl⟩ := List.eq_nil_or_concat' p |>.resolve_left hp
  rw [List.dropLast_concat, List.prefix_concat_iff]
  constructor
  · intro h
    refine ⟨.inr h, fun heq => ?_⟩
    -- the whole path is longer than its parent
    have hle := h.length_le
    rw [heq, List.length_append, List.length_singleton] at hle
    omega
  · rintro ⟨h, hne⟩
    exact h.resolve_left hne

theorem DirAt.withDirs {perm : π} {q : List κ} (hfree : t.FreeAt q) (hq : q <+: p) :
    DirAt (t.withDirs perm p) q := by
  by_cases h0 : q = []
  · exact .inl h0
  · right
    rw [FileTree.withDirs, if_pos ⟨h0, hq⟩, Option.any_some]
    -- a directory is made where there is nothing; what is there already is one
    cases hnode : t q with
    | none => rfl
    | some n => exact (hfree.resolve_left h0) n hnode

theorem withDirs_dropLast (t : FileTree κ δ π) (perm : π) (hp : p ≠ []) : t.withDirs perm p.dropLast p = t p := by
  rw [withDirs, if_neg]
  rintro ⟨-, h⟩
  exact ((prefix_dropLast hp).mp h).2 rfl

/-- The directories a call makes above a plain path. -/
theorem mkdirs_dropLast (perm : π) (hplain : t.Plain p) (hp : p ≠ []) :
    t.mkdirs perm p.dropLast = some (t.withDirs perm p.dropLast) ∧
      ∀ q, q <+: p → q ≠ p → DirAt (t.withDirs perm p.dropLast) q := by
  have hfree : ∀ q, q <+: p.dropLast → t.FreeAt q := by
    intro q hq
    obtain ⟨hq, hne⟩ := (prefix_dropLast hp).mp hq
    exact hplain q hq hne
  exact ⟨mkdirs_eq hfree, fun q hq hne =>
    DirAt.withDirs (hplain q hq hne) ((prefix_dropLast hp).mpr ⟨hq, hne⟩)⟩

/-- Writing a file at a plain path that names a file or nothing. -/
theorem writeFile_eq {dperm fperm : π} {data : δ} (hplain : t.Plain p) (hp : p ≠ [])
    (hfile : ∀ n ∈ t p, n.isDir = false ∧ n.isLink = false) :
    t.writeFile dperm fperm p data = some (Function.update (t.withDirs dperm p.dropLast) p
      (some (.file data (((t p).bind Node.perm?).getD fperm)))) := by
  obtain ⟨hmk, hdirs⟩ := mkdirs_dropLast dperm hplain hp
  have hsame := withDirs_dropLast t dperm hp
  -- `p` is no link, so the write lands at `p` itself
  have hresolve : (t.withDirs dperm p.dropLast).resolve p = some p := by
    apply resolve_of_dirAt hdirs
    intro n hn
    rw [hsame] at hn
    exact (hfile n hn).2
  rw [writeFile, hmk]
  simp only [Option.bind_eq_bind, Option.bind_some, hresolve, hsame]
  -- the permission of an overwritten file is kept, a new file gets `fperm`
  cases hnode : t p with
  | none => rfl
  | some n =>
    obtain ⟨hdir, hlink⟩ := hfile n hnode
    cases n with
    | dir perm => cases hdir
    | file data' perm => rfl
    | link dest => cases hlink

omit [DecidableEq κ] in
/-- Where directories stand above the path, its directory is found. -/
theorem resolveParent_of_dirAt (hp : p ≠ []) (hdirs : ∀ q, q <+: p → q ≠ p → t.DirAt q) :
    t.resolveParent p = some p := by
  obtain ⟨d, c, rfl⟩ := List.eq_nil_or_concat' p |>.resolve_left hp
  have hd : t.DirAt d := hdirs d (List.prefix_append d [c]) (by simp)
  -- the parent resolves to itself, so only its last component is left to be looked up
  have hresolve : t.resolve d = some d := by
    by_cases h0 : d = []
    · rw [h0]
      rfl
    · refine resolve_of_dirAt (fun q hq _ => ?_) (hd.freeAt.noLinkAt h0)
      apply hdirs q (hq.trans (List.prefix_append d [c]))
      intro heq
      have hle := hq.length_le
      rw [heq, List.length_append, List.length_singleton] at hle
      omega
  rw [resolveParent, List.getLast?_concat, List.dropLast_concat, hresolve]
  exact if_pos hd

/-- Creating a symbolic link at a plain path succeeds exactly when the name is free. -/
theorem symlink_eq {dperm : π} {dest : LinkDest κ} (hplain : t.Plain p) (hp : p ≠ []) :
    t.symlink dperm dest p = if (t p).isNone then
      some (Function.update (t.withDirs dperm p.dropLast) p (some (.link dest))) else none := by
  obtain ⟨hmk, hdirs⟩ := mkdirs_dropLast dperm hplain hp
  have hsame := withDirs_dropLast t dperm hp
  have hresolve : (t.withDirs dperm p.dropLast).resolveParent p = some p :=
    resolveParent_of_dirAt hp hdirs
  rw [symlink, hmk]
  simp only [Option.bind_eq_bind, Option.bind_some, hresolve, hsame]

/-- Setting permissions at a plain path that names no link. -/
theorem setPerm_eq (perm : π) (ht : t.Treelike) (hplain : t.Plain p) (hlink : t.NoLinkAt p) :
    t.setPerm perm p =
      (t p).map fun n => Function.update t p (some (n.setPerm perm perm)) := by
  have hlookup := ht.lookup hplain hlink
  rw [lookup] at hlookup
  rw [setPerm]
  -- either the path resolves to itself or nothing is there
  rcases resolve_plain hplain hlink with h | ⟨h, -⟩
  · rw [h]
    cases hnode : t p <;> simp [hnode]
  · rw [h] at hlookup ⊢
    rw [← hlookup]
    rfl

theorem setPermRecursive_eq (dperm fperm : π) (ht : t.Treelike) (hplain : t.Plain p)
    (hlink : t.NoLinkAt p) :
    t.setPermRecursive dperm fperm p = (t p).map fun _ =>
      fun r => if p <+: r then (t r).map (Node.setPerm dperm fperm) else t r := by
  have hlookup := ht.lookup hplain hlink
  rw [lookup] at hlookup
  rw [setPermRecursive]
  -- either the path resolves to itself or nothing is there
  rcases resolve_plain hplain hlink with h | ⟨h, -⟩
  · rw [h]
    cases hnode : t p <;> simp [hnode]
  · rw [h] at hlookup ⊢
    rw [← hlookup]
    rfl

end CallLemmas

/-! ## §6 Treelike Trees Stay Treelike -/

section Preservation

variable {t t' : FileTree κ δ π} {p : List κ}

theorem treelike_empty : Treelike (fun _ => none : FileTree κ δ π) :=
  fun _ _ h => absurd rfl h

/-- A tree with the same directories and no other names is treelike. -/
theorem Treelike.of_same (ht : t.Treelike)
    (h : ∀ q, (t' q).map Node.isDir = (t q).map Node.isDir) : t'.Treelike := by
  intro q c hq
  -- the two trees have nodes at the same paths
  have hnone : t (q ++ [c]) ≠ none := by
    intro hnone
    have hmap := h (q ++ [c])
    rw [hnone, Option.map_none, Option.map_eq_none_iff] at hmap
    exact hq hmap
  rcases ht q c hnone with h0 | hdir
  · exact .inl h0
  · right
    -- and directories at the same paths
    have hany : ∀ n : Option (Node κ δ π), n.any Node.isDir = (n.map Node.isDir).getD false := by
      intro n
      cases n <;> rfl
    rw [hany, h q, ← hany]
    exact hdir

variable [DecidableEq κ]

/-- Removing a leaf. -/
theorem Treelike.update_none (ht : t.Treelike) (hp : p ≠ []) (hleaf : (t p).any Node.isDir = false) :
    Treelike (Function.update t p none) := by
  intro q c hq
  -- the node below survives, so it is not `p`
  have hne : q ++ [c] ≠ p := by
    rintro rfl
    exact hq (Function.update_self ..)
  rw [Function.update_of_ne hne] at hq
  rcases ht q c hq with h0 | hdir
  · exact .inl h0
  · right
    have hqp : q ≠ p := by
      rintro rfl
      rw [hleaf] at hdir
      cases hdir
    rw [Function.update_of_ne hqp]
    exact hdir

/-- Making the directories down to a path. -/
theorem Treelike.withDirs {perm : π} (ht : t.Treelike) (hfree : ∀ q, q <+: p → t.FreeAt q) :
    Treelike (t.withDirs perm p) := by
  intro q c hq
  rw [FileTree.withDirs] at hq
  split at hq
  · -- a node the call made, or one above it: its parent is on the way to `p`
    rename_i hprefix
    have hqp := (List.prefix_append q [c]).trans hprefix.2
    exact DirAt.withDirs (hfree q hqp) hqp
  · rcases ht q c hq with h0 | hdir
    · exact .inl h0
    · right
      rw [FileTree.withDirs]
      split
      · rw [Option.any_some]
        -- the parent may itself be one of the directories just made
        cases hnode : t q with
        | none => rfl
        | some n =>
          rw [hnode, Option.any_some] at hdir
          exact hdir
      · exact hdir

/-- A leaf in place of a leaf, or of nothing, below a directory. -/
theorem Treelike.update_leaf {n : Node κ δ π} (ht : t.Treelike) (hp : p ≠ [])
    (hdir : t.DirAt p.dropLast) (hleaf : (t p).any Node.isDir = false) :
    Treelike (Function.update t p (some n)) := by
  intro q c hq
  by_cases heq : q ++ [c] = p
  · -- the node is the one written: its parent was asked for in `hdir`
    have hqp : q ≠ p := by
      rintro rfl
      simp at heq
    have hlast : p.dropLast = q := by rw [← heq, List.dropLast_concat]
    rw [hlast] at hdir
    rcases hdir with h0 | hdir
    · exact .inl h0
    · right
      rw [Function.update_of_ne hqp]
      exact hdir
  · -- any other node: its parent is a directory, so not the leaf at `p`
    rw [Function.update_of_ne heq] at hq
    rcases ht q c hq with h0 | hdir'
    · exact .inl h0
    · right
      have hqp : q ≠ p := by
        rintro rfl
        rw [hleaf] at hdir'
        cases hdir'
      rw [Function.update_of_ne hqp]
      exact hdir'

end Preservation

/-! ## §7 Calls on Any Path -/

section AnyPath

variable [DecidableEq κ] {t t' : FileTree κ δ π} {p q : List κ}

omit [DecidableEq κ] in
theorem resolveParent_ne_nil (h : t.resolveParent p = some q) : q ≠ [] := by
  rw [resolveParent] at h
  split at h
  · cases h
  · split at h
    · cases h
    · rw [Option.ite_none_right_eq_some, Option.some.injEq] at h
      rw [← h.2]
      -- the last component is appended, so the path is not the root
      exact List.append_ne_nil_of_right_ne_nil _ (List.cons_ne_nil _ _)

omit [DecidableEq κ] in
/-- Without links a walk goes straight on, or stops. -/
theorem walkWith_of_noLinkAt (f : List κ → List (LinkStep κ) → Option (List κ)) (done : List κ)
    {cs : List κ} (h : ∀ q, q <+: cs → q ≠ [] → t.NoLinkAt (done ++ q)) :
    t.walkWith f done (cs.map .down) = some (done ++ cs) ∨
      t.walkWith f done (cs.map .down) = none := by
  induction cs generalizing done with
  | nil => exact .inl (by rw [List.append_nil]; rfl)
  | cons c rest ih =>
    have hc := h [c] (List.prefix_cons_inj c |>.mpr List.nil_prefix) (List.cons_ne_nil _ _)
    rw [List.map_cons, walkWith]
    have hstop : (if (rest.map LinkStep.down).isEmpty then some (done ++ [c]) else none) =
        some (done ++ c :: rest) ∨
          (if (rest.map LinkStep.down).isEmpty then some (done ++ [c]) else none) = none := by
      cases rest with
      | nil => exact .inl rfl
      | cons c' rest => exact .inr rfl
    cases hnode : t (done ++ [c]) with
    | none => exact hstop
    | some n =>
      cases n with
      | file data perm => exact hstop
      | link dest => cases hc _ hnode
      | dir perm =>
        -- the walk goes on below `c`
        have hbelow (q : List κ) : done ++ [c] ++ q = done ++ c :: q := by simp
        have hrest := ih (done ++ [c]) fun q hq _ => by
          rw [hbelow]
          exact h (c :: q) (List.prefix_cons_inj c |>.mpr hq) (List.cons_ne_nil _ _)
        rw [hbelow] at hrest
        exact hrest

omit [DecidableEq κ] in
/-- Without links above it, a path leads to itself or nowhere. -/
theorem resolveParent_of_noLinkAt (h : ∀ q, q <+: p → q ≠ p → q ≠ [] → t.NoLinkAt q) :
    t.resolveParent p = some p ∨ t.resolveParent p = none := by
  rcases List.eq_nil_or_concat' p with rfl | ⟨d, c, rfl⟩
  · exact .inr rfl
  · rw [resolveParent, List.getLast?_concat, List.dropLast_concat]
    -- without links on the way the parent resolves to itself or not at all
    have hwalk : t.resolve d = some d ∨ t.resolve d = none := by
      apply walkWith_of_noLinkAt _ []
      intro q hq h0
      refine h q (hq.trans (List.prefix_append d [c])) (fun heq => ?_) h0
      have hle := hq.length_le
      rw [heq, List.length_append, List.length_singleton] at hle
      omega
    rcases hwalk with hd | hnone
    · rw [hd]
      dsimp only
      split
      · exact .inl rfl
      · exact .inr rfl
    · rw [hnone]
      exact .inr rfl

/-- Unlinking does nothing, or removes the leaf that the path leads to. -/
theorem unlink_cases (t : FileTree κ δ π) (p : List κ) :
    t.unlink p = t ∨ ∃ q, t.resolveParent p = some q ∧ (t q).any Node.isDir = false ∧
      t.unlink p = Function.update t q none := by
  rw [unlink]
  cases hq : t.resolveParent p with
  | none => exact .inl rfl
  | some q =>
    by_cases hdir : (t q).any Node.isDir = true
    · exact .inl (if_pos hdir)
    · exact .inr ⟨q, rfl, Bool.not_eq_true _ |>.mp hdir, if_neg hdir⟩

theorem Treelike.unlink (ht : t.Treelike) (p : List κ) : (t.unlink p).Treelike := by
  rcases unlink_cases t p with h | ⟨q, hq, hleaf, h⟩
  · rw [h]
    exact ht
  · rw [h]
    exact ht.update_none (resolveParent_ne_nil hq) hleaf

/-- What is there after unlinking was there before. -/
theorem unlink_apply (t : FileTree κ δ π) (p q : List κ) :
    t.unlink p q = none ∨ t.unlink p q = t q := by
  rcases unlink_cases t p with h | ⟨r, -, -, h⟩
  · exact .inr (congrFun h q)
  · rw [h]
    by_cases hq : q = r
    · exact .inl (hq ▸ Function.update_self ..)
    · exact .inr (Function.update_of_ne hq ..)

/-- Directories are not unlinked. -/
theorem DirAt.unlink (h : t.DirAt q) (p : List κ) : (t.unlink p).DirAt q := by
  rcases unlink_cases t p with hsame | ⟨r, -, hleaf, hupdate⟩
  · -- nothing was there to unlink
    rw [hsame]
    exact h
  · -- what was unlinked was no directory, so it was not `q`
    apply h.imp_right
    intro hdir
    have hne : q ≠ r := by
      rintro rfl
      rw [hleaf] at hdir
      cases hdir
    rw [hupdate, Function.update_of_ne hne]
    exact hdir

/-- What a write at a plain path finds and leaves. -/
theorem writeFile_ok {dperm fperm : π} {data : δ} (hplain : t.Plain p) (hp : p ≠ [])
    (hlink : t.NoLinkAt p) (h : t.writeFile dperm fperm p data = some t') :
    (t p).any Node.isDir = false ∧ ∃ perm,
      t' = Function.update (t.withDirs dperm p.dropLast) p (some (.file data perm)) := by
  have hleaf : (t p).any Node.isDir = false := by
    rw [Bool.eq_false_iff]
    intro hdir
    -- a directory cannot be written to
    obtain ⟨hmk, hdirs⟩ := mkdirs_dropLast dperm hplain hp
    have hsame := withDirs_dropLast t dperm hp
    have hresolve : (t.withDirs dperm p.dropLast).resolve p = some p := by
      apply resolve_of_dirAt hdirs
      intro n hn
      rw [hsame] at hn
      exact hlink n hn
    obtain ⟨n, hn, hdir⟩ := Option.any_eq_true _ _ |>.mp hdir
    rw [writeFile, hmk] at h
    simp only [Option.bind_eq_bind, Option.bind_some, hresolve, hsame, hn] at h
    cases n with
    | dir perm => cases h
    | file data' perm => cases hdir
    | link dest => cases hdir
  refine ⟨hleaf, _, (Option.some.inj ((writeFile_eq hplain hp fun n hn => ?_).symm.trans h)).symm⟩
  rw [Option.mem_def.mp hn] at hleaf
  exact ⟨hleaf, hlink n hn⟩

/-- Making directories leaves what exists as it is. -/
theorem withDirs_of_some {perm : π} {n : Node κ δ π} (h : t q = some n) :
    t.withDirs perm p q = some n := by
  rw [withDirs, h]
  exact ite_self _

/-- Permissions are all that changes, wherever the path leads. -/
theorem contents_of_setPerm {perm : π} (h : t.setPerm perm p = some t') (r : List κ) :
    (t' r).map Node.contents = (t r).map Node.contents := by
  obtain ⟨q, -, h⟩ := Option.bind_eq_some_iff.mp h
  obtain ⟨n, hn, h⟩ := Option.bind_eq_some_iff.mp h
  rw [← Option.some.inj h]
  -- one node changes, and only in its permissions
  by_cases hr : r = q
  · rw [hr, Function.update_self, hn, Option.map_some, Option.map_some, Node.contents_setPerm]
  · rw [Function.update_of_ne hr]

theorem contents_of_setPermRecursive {dperm fperm : π}
    (h : t.setPermRecursive dperm fperm p = some t') (r : List κ) :
    (t' r).map Node.contents = (t r).map Node.contents := by
  obtain ⟨q, -, h⟩ := Option.bind_eq_some_iff.mp h
  obtain ⟨n, -, h⟩ := Option.bind_eq_some_iff.mp h
  rw [← Option.some.inj h]
  dsimp only
  split
  · rw [Option.map_map]
    exact congrArg (fun f => Option.map f (t r)) (funext (Node.contents_setPerm dperm fperm))
  · rfl

end AnyPath

end FileTree

end OdroidU2.Foundations
