import Mathlib

/-!
# Dictionaries

A finite map as the list of its entries in the order of insertion, with each key once.
The order in which a program *iterates* over a dictionary is not the order of insertion;
`DictOrder` is any fixed choice of it.
-/

namespace OdroidU2.Foundations

/-! ## §1 Dictionaries -/

/-- A dictionary: entries in the order of insertion, each key once. -/
structure Dict (κ ν : Type) where
  entries : List (κ × ν)
  nodup : (entries.map Prod.fst).Nodup

namespace Dict

variable {κ ν : Type}

/-- The empty dictionary. -/
def empty : Dict κ ν := ⟨[], List.nodup_nil⟩

/-- The keys, in the order of insertion. -/
def keys (d : Dict κ ν) : List κ := d.entries.map Prod.fst

variable [DecidableEq κ]

/-- The value at a key. -/
def get? (d : Dict κ ν) (k : κ) : Option ν := (d.entries.find? fun e => e.1 = k).map Prod.snd

/-- Assign to a key.  A key that is present keeps its place. -/
def set (d : Dict κ ν) (k : κ) (v : ν) : Dict κ ν :=
  if h : k ∈ d.keys then
    { entries := d.entries.map fun e => if e.1 = k then (k, v) else e
      nodup := by
        have hkeys : (d.entries.map fun e => if e.1 = k then (k, v) else e).map Prod.fst =
            d.entries.map Prod.fst := by
          rw [List.map_map]
          apply List.map_congr_left
          intro e _
          by_cases he : e.1 = k <;> simp [he]
        rw [hkeys]
        exact d.nodup }
  else
    { entries := d.entries ++ [(k, v)]
      nodup := by
        rw [List.map_append, List.map_singleton]
        exact List.nodup_append.mpr ⟨d.nodup, List.nodup_singleton k,
          fun a ha b hb hab => h (by
            obtain rfl := List.mem_singleton.mp hb
            exact hab ▸ ha)⟩ }

/-- `d[k] = d.get(k, 0) + v` -/
def bump (d : Dict κ Nat) (k : κ) (v : Nat) : Dict κ Nat := d.set k ((d.get? k).getD 0 + v)

/-- Assign a list of entries, one after the other. -/
def ofList (l : List (κ × ν)) : Dict κ ν := l.foldl (fun d e => d.set e.1 e.2) empty

/-- An entry is what the dictionary holds at its key. -/
theorem get?_eq_some_iff (d : Dict κ ν) (k : κ) (v : ν) :
    d.get? k = some v ↔ (k, v) ∈ d.entries := by
  rw [get?, Option.map_eq_some_iff]
  constructor
  · rintro ⟨e, he, rfl⟩
    have hkey : e.1 = k := by simpa using List.find?_some he
    have hmem := List.mem_of_find?_eq_some he
    rw [← hkey]
    exact hmem
  · intro hmem
    cases hfind : d.entries.find? fun e => e.1 = k with
    | none =>
      have hall := List.find?_eq_none.mp hfind (k, v) hmem
      simp at hall
    | some e =>
      have hkey : e.1 = k := by simpa using List.find?_some hfind
      refine ⟨e, rfl, ?_⟩
      -- the keys are distinct, so the entry found is the only one with this key
      have heq := List.inj_on_of_nodup_map d.nodup (List.mem_of_find?_eq_some hfind) hmem hkey
      rw [heq]

theorem get?_eq_none_iff (d : Dict κ ν) (k : κ) : d.get? k = none ↔ k ∉ d.keys := by
  rw [get?, Option.map_eq_none_iff, List.find?_eq_none, keys, List.mem_map, not_exists]
  apply forall_congr'
  intro e
  rw [decide_eq_true_iff, not_and]

theorem mem_keys_iff (d : Dict κ ν) (k : κ) : k ∈ d.keys ↔ ∃ v, d.get? k = some v := by
  rw [← Option.isSome_iff_exists, ← not_iff_not, Option.not_isSome_iff_eq_none, get?_eq_none_iff]

theorem mem_entries_set (d : Dict κ ν) (k : κ) (v : ν) (e : κ × ν) :
    e ∈ (d.set k v).entries ↔ e = (k, v) ∨ (e.1 ≠ k ∧ e ∈ d.entries) := by
  rw [set]
  split
  · -- the key is there: its entry is replaced where it stands
    rename_i hk
    rw [List.mem_map]
    constructor
    · rintro ⟨e', he', rfl⟩
      by_cases hkey : e'.1 = k
      · exact .inl (if_pos hkey)
      · rw [if_neg hkey]
        exact .inr ⟨hkey, he'⟩
    · rintro (rfl | ⟨hkey, he⟩)
      · obtain ⟨e', he', hkey⟩ := List.mem_map.mp hk
        exact ⟨e', he', if_pos hkey⟩
      · exact ⟨e, he, if_neg hkey⟩
  · -- the key is new: the entry goes to the end
    rename_i hk
    rw [List.mem_append, List.mem_singleton, or_comm]
    refine or_congr_right ⟨fun he => ⟨fun hkey => hk ?_, he⟩, fun h => h.2⟩
    exact List.mem_map.mpr ⟨e, he, hkey⟩

theorem get?_set (d : Dict κ ν) (k k' : κ) (v : ν) :
    (d.set k v).get? k' = if k' = k then some v else d.get? k' := by
  apply Option.ext
  intro w
  rw [get?_eq_some_iff, mem_entries_set]
  split
  · rename_i hkey
    simp [hkey, eq_comm]
  · rename_i hkey
    rw [get?_eq_some_iff]
    simp [hkey]

theorem keys_set (d : Dict κ ν) (k : κ) (v : ν) :
    (d.set k v).keys = if k ∈ d.keys then d.keys else d.keys ++ [k] := by
  rw [set]
  -- the old entry keeps its place, a new one goes to the end
  split
  · rw [keys, List.map_map]
    apply List.map_congr_left
    intro e _
    by_cases he : e.1 = k <;> simp [he]
  · rw [keys, List.map_append]
    rfl

theorem mem_keys_set (d : Dict κ ν) (k k' : κ) (v : ν) :
    k' ∈ (d.set k v).keys ↔ k' = k ∨ k' ∈ d.keys := by
  rw [keys_set]
  split
  · rename_i hk
    exact ⟨.inr, fun h => h.elim (fun heq => heq ▸ hk) id⟩
  · rw [List.mem_append, List.mem_singleton, or_comm]

/-- Whatever is found after assigning a list of entries is one of them. -/
theorem mem_of_get?_ofList {l : List (κ × ν)} {k : κ} {v : ν} (h : (ofList l).get? k = some v) :
    (k, v) ∈ l := by
  -- the fold starts from any dictionary, so that the induction can pass one entry on
  have hfold : ∀ d : Dict κ ν, (l.foldl (fun d e => d.set e.1 e.2) d).get? k = some v →
      (k, v) ∈ l ∨ d.get? k = some v := by
    clear h
    induction l with
    | nil => exact fun d h => .inr h
    | cons e l ih =>
      intro d h
      rcases ih _ h with hmem | hget
      · exact .inl (List.mem_cons_of_mem e hmem)
      · rw [get?_set] at hget
        split at hget
        · next hkey =>
          cases hget
          exact .inl (by simp [hkey])
        · exact .inr hget
  exact (hfold empty h).resolve_right (by simp [empty, get?])

theorem mem_keys_ofList {l : List (κ × ν)} {k : κ} :
    k ∈ (ofList l).keys ↔ k ∈ l.map Prod.fst := by
  -- for any dictionary to start from, so that the induction can carry the keys set so far
  have hfold : ∀ d : Dict κ ν, k ∈ (l.foldl (fun d e => d.set e.1 e.2) d).keys ↔
      k ∈ l.map Prod.fst ∨ k ∈ d.keys := by
    induction l with
    | nil => simp
    | cons e l ih =>
      intro d
      rw [List.foldl_cons, ih, mem_keys_set, List.map_cons, List.mem_cons, or_left_comm, or_assoc]
  rw [ofList, hfold]
  simp [empty, keys]

/-- Assigning distinct keys one after the other yields exactly these entries. -/
theorem get?_ofList {l : List (κ × ν)} (hl : (l.map Prod.fst).Nodup) (k : κ) (v : ν) :
    (ofList l).get? k = some v ↔ (k, v) ∈ l := by
  -- for a dictionary to start from whose keys the list does not name
  have hfold : ∀ d : Dict κ ν, (∀ e ∈ l, e.1 ∉ d.keys) →
      ((l.foldl (fun d e => d.set e.1 e.2) d).get? k = some v ↔
        (k, v) ∈ l ∨ d.get? k = some v) := by
    induction l with
    | nil => exact fun d _ => by simp
    | cons e l ih =>
      intro d hd
      rw [List.map_cons, List.nodup_cons] at hl
      rw [List.foldl_cons, ih hl.2, get?_set, List.mem_cons]
      · -- the first entry is found by its own key alone: no later one has it
        by_cases hkey : k = e.1
        · subst hkey
          have hnot : (e.1, v) ∉ l := fun hmem => hl.1 (List.mem_map.mpr ⟨_, hmem, rfl⟩)
          have hnone : d.get? e.1 = none := (d.get?_eq_none_iff e.1).mpr (hd e List.mem_cons_self)
          simp [hnot, hnone, Prod.ext_iff, eq_comm]
        · have hne : (k, v) ≠ e := fun heq => hkey (congrArg Prod.fst heq)
          simp [hkey, hne]
      · -- after `set` the keys are still ones that the rest does not name
        intro e' he' hmem
        rcases (mem_keys_set d _ _ _).mp hmem with heq | hold
        · exact hl.1 (List.mem_map.mpr ⟨e', he', heq⟩)
        · exact hd e' (List.mem_cons_of_mem _ he') hold
  have hempty : (empty : Dict κ ν).get? k = none := rfl
  rw [ofList, hfold empty (fun _ _ h => by cases h), hempty]
  simp

end Dict

/-! ## §2 Iteration -/

/-- In which order a program iterates over the entries of its dictionaries.  The order
may depend on the whole history of a dictionary, but every entry comes once. -/
structure DictOrder where
  iteritems : ∀ {κ ν : Type}, Dict κ ν → List (κ × ν)
  perm : ∀ {κ ν : Type} (d : Dict κ ν), (iteritems d).Perm d.entries

/-- Iteration in the order of insertion. -/
def DictOrder.insertion : DictOrder := ⟨fun d => d.entries, fun _ => List.Perm.refl _⟩

end OdroidU2.Foundations
