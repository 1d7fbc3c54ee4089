import Mathlib
import OdroidU2.Foundations.Dict

/-!
# Counting with a Dictionary

A dictionary that counts: it holds how often each element of a list occurs, and nothing for
an element that does not occur.  Dictionaries that count are merged entry by entry, in any
order, and counted anew under other keys.

- `Tally` — a dictionary counts a list
- `Tally.merge` — adding the entries of one tally, under keys of their own, to another
-/

namespace OdroidU2.Foundations

variable {κ ν : Type} [DecidableEq κ]

/-- The dictionary holds how often each element occurs in the list. -/
def Tally (d : Dict κ Nat) (l : List κ) : Prop :=
  ∀ k, d.get? k = if l.count k = 0 then none else some (l.count k)

namespace Tally

variable {d : Dict κ Nat} {l l' : List κ}

theorem empty : Tally (Dict.empty : Dict κ Nat) [] := fun _ => rfl

theorem perm (h : Tally d l) (hl : l.Perm l') : Tally d l' := by
  intro k
  rw [h k, hl.count_eq]

theorem getD (h : Tally d l) (k : κ) : (d.get? k).getD 0 = l.count k := by
  rw [h k]
  split
  · next hzero => rw [hzero]; rfl
  · rfl

theorem mem_entries_iff (h : Tally d l) {e : κ × Nat} :
    e ∈ d.entries ↔ 0 < e.2 ∧ l.count e.1 = e.2 := by
  obtain ⟨k, v⟩ := e
  rw [← Dict.get?_eq_some_iff, h k]
  split
  · -- a key that was never counted has no entry
    next hzero =>
    refine iff_of_false (by simp) fun ⟨hpos, hcount⟩ => ?_
    rw [hzero] at hcount
    exact absurd hcount (Nat.ne_of_lt hpos)
  · next hpos =>
    rw [Option.some.injEq]
    refine ⟨fun hcount => ⟨?_, hcount⟩, fun hcount => hcount.2⟩
    rw [← hcount]
    exact Nat.pos_of_ne_zero hpos

/-- More of one element. -/
theorem bump (h : Tally d l) (k : κ) {v : Nat} (hv : 0 < v) :
    Tally (d.bump k v) (List.replicate v k ++ l) := by
  intro k'
  rw [Dict.bump, Dict.get?_set, List.count_append, List.count_replicate, h.getD]
  -- only the count of `k` changes, and it is positive after the step
  by_cases hk : k' = k
  · subst hk
    rw [if_pos rfl, if_pos (beq_self_eq_true k'), if_neg (by omega), Nat.add_comm]
  · have hne : ¬(k == k') = true := by simpa using Ne.symm hk
    rw [if_neg hk, if_neg hne, Nat.zero_add]
    exact h k'

/-- The elements that entries stand for, under keys of their own. -/
def spread (f : κ → ν) (entries : List (κ × Nat)) : List ν :=
  entries.flatMap fun e => List.replicate e.2 (f e.1)

/-- The entries of a tally stand for its list. -/
theorem spread_perm (h : Tally d l) {entries : List (κ × Nat)} (hperm : entries.Perm d.entries)
    (f : κ → ν) : (spread f entries).Perm (l.map f) := by
  -- under their own keys, every key comes as often as it is counted
  have hself : (spread id d.entries).Perm l := by
    rw [List.perm_iff_count]
    intro k
    have hcount : ∀ entries : List (κ × Nat), (entries.map Prod.fst).Nodup →
        (spread id entries).count k = ((entries.find? fun e => e.1 = k).map Prod.snd).getD 0 := by
      intro entries
      induction entries with
      | nil => exact fun _ => rfl
      | cons e entries ih =>
        intro hnodup
        rw [List.map_cons, List.nodup_cons] at hnodup
        have hrest := ih hnodup.2
        rw [spread] at hrest ⊢
        rw [List.flatMap_cons, List.count_append, hrest, List.count_replicate, List.find?_cons, id]
        by_cases hk : e.1 = k
        · -- the key does not come again
          have hnone : entries.find? (fun e => e.1 = k) = none := by
            rw [List.find?_eq_none]
            intro e' he'
            rw [decide_eq_true_eq, ← hk]
            exact fun heq => hnodup.1 (List.mem_map.mpr ⟨e', he', heq⟩)
          simp [hk, hnone]
        · simp [hk]
    -- the count of a key is what the tally says
    rw [hcount d.entries d.nodup]
    exact h.getD k
  have hmap : ∀ entries : List (κ × Nat), spread f entries = (spread id entries).map f := by
    intro entries
    rw [spread, spread, List.map_flatMap]
    simp only [List.map_replicate, id]
  rw [hmap]
  exact ((hperm.flatMap_right _).trans hself).map f

/-- The entries of another tally are added one by one, under keys of their own. -/
theorem merge [DecidableEq ν] {d' : Dict ν Nat} {l' : List ν} (h : Tally d l) (h' : Tally d' l')
    {entries : List (κ × Nat)} (hperm : entries.Perm d.entries) (f : κ → ν) :
    Tally (entries.foldl (fun d' e => d'.bump (f e.1) e.2) d') (l.map f ++ l') := by
  have hpos : ∀ e ∈ entries, 0 < e.2 := fun e he =>
    (h.mem_entries_iff.mp (hperm.mem_iff.mp he)).1
  -- for any tally to start from: each entry adds as many copies of its image as it counts
  have hfold : ∀ (entries : List (κ × Nat)) (d' : Dict ν Nat) (l' : List ν),
      (∀ e ∈ entries, 0 < e.2) → Tally d' l' →
      Tally (entries.foldl (fun d' e => d'.bump (f e.1) e.2) d') (spread f entries ++ l') := by
    intro entries
    induction entries with
    | nil => exact fun d' l' _ h' => h'
    | cons e entries ih =>
      intro d' l' hpos h'
      obtain ⟨he, hrest⟩ := List.forall_mem_cons.mp hpos
      -- the copies of this entry may stand before or after those of the others
      apply (ih _ _ hrest (h'.bump (f e.1) he)).perm
      rw [spread, spread, List.flatMap_cons, List.append_assoc, ← List.append_assoc]
      rw [← List.append_assoc]
      exact List.perm_append_comm.append_right l'
  exact (hfold entries d' l' hpos h').perm ((h.spread_perm hperm f).append_right l')

end Tally

end OdroidU2.Foundations
