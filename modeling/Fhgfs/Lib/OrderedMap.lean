import Fhgfs.Lib.OrderedSet
import Mathlib.Algebra.Order.BigOperators.Group.List
import Mathlib.Algebra.Order.Group.Int
import Mathlib.Data.UInt

/-!
# Ordered maps

A map in the way of `std::map`: the set of its key-value pairs, ordered by key. `put` is the
update of an element in place, or its insertion, `mapVal` a loop that updates every element.
`find_put`, `find_remove` and `find_mapVal` describe the updates by lookups, and `total_of_agree`
what they do to a sum over all entries.
-/

namespace Fhgfs

open List OrderedSet Option Function

/-- Pairs of a key and a value, at most one for each key. -/
abbrev OrderedMap (κ υ : Type) [LinearOrder κ] := OrderedSet (Prod.fst : κ × υ → κ)

namespace OrderedMap

variable {κ υ : Type} [LinearOrder κ]

def find (m : OrderedMap κ υ) (k : κ) : Option υ :=
  (m.elems.find? (fun p => decide (p.1 = k))).map Prod.snd

def lookup (ps : List (κ × υ)) (k : κ) : Option υ :=
  (ps.find? (fun p => decide (p.1 = k))).map Prod.snd

theorem find_eq_lookup (m : OrderedMap κ υ) (k : κ) : m.find k = lookup m.elems k := rfl

theorem lookup_cons (p : κ × υ) (ps : List (κ × υ)) (k : κ) :
    lookup (p :: ps) k = if p.1 = k then some p.2 else lookup ps k := by
  unfold lookup
  rw [find?_cons]
  by_cases h : p.1 = k <;> simp [h]

variable {k : κ} {ps : List (κ × υ)}

theorem lookup_eq_none (h : ∀ p ∈ ps, p.1 ≠ k) : lookup ps k = none := by
  unfold lookup
  rw [find?_eq_none.mpr, map_none]
  intro p hp
  simpa using h p hp

theorem lookup_map {υ' : Type} (f : υ → υ') (ps : List (κ × υ)) (k : κ) :
    lookup (ps.map fun p => (p.1, f p.2)) k = (lookup ps k).map f := by
  induction ps with
  | nil => rfl
  | cons p ps ih =>
    rw [map_cons, lookup_cons, lookup_cons, ih]
    split <;> rfl

theorem lookup_filter (f : κ → Bool) (ps : List (κ × υ)) (k : κ) :
    lookup (ps.filter fun p => f p.1) k = if f k then lookup ps k else none := by
  induction ps with
  | nil => simp [lookup]
  | cons p ps ih =>
    by_cases hKeep : f p.1 = true
    · rw [filter_cons_of_pos (by simpa using hKeep), lookup_cons, ih, lookup_cons]
      by_cases hk : p.1 = k
      · subst hk
        simp [hKeep]
      · simp [hk]
    · rw [filter_cons_of_neg (by simpa using hKeep), ih, lookup_cons]
      by_cases hk : p.1 = k
      · subst hk
        simp [hKeep]
      · simp [hk]

def remove (m : OrderedMap κ υ) (k : κ) : OrderedMap κ υ :=
  m.filter (fun p => decide (p.1 ≠ k))

def put (m : OrderedMap κ υ) (k : κ) (v : υ) : OrderedMap κ υ := (m.remove k).insert (k, v)

variable {m : OrderedMap κ υ} {v : υ}

theorem find_eq_some : m.find k = some v ↔ (k, v) ∈ m := by
  have hKey : ∀ p, m.elems.find? (fun p => decide (p.1 = k)) = some p → p.1 = k ∧ p ∈ m := by
    intro p hp
    exact ⟨by simpa using find?_some hp, mem_of_find?_eq_some hp⟩
  unfold find
  rw [map_eq_some_iff]
  constructor
  · rintro ⟨p, hp, rfl⟩
    obtain ⟨rfl, hIn⟩ := hKey p hp
    exact hIn
  · intro h
    have hSome : (m.elems.find? (fun p => decide (p.1 = k))).isSome = true := by
      rw [find?_isSome]
      exact ⟨(k, v), h, by simp⟩
    obtain ⟨p, hp⟩ := isSome_iff_exists.mp hSome
    obtain ⟨hSame, hIn⟩ := hKey p hp
    refine ⟨p, hp, ?_⟩
    rw [eq_of_key_eq hIn h hSame]

theorem find_eq_none : m.find k = none ↔ ∀ v, (k, v) ∉ m := by
  rw [eq_none_iff_forall_ne_some]
  exact forall_congr' fun v => not_congr find_eq_some

@[simp] theorem find_empty (k : κ) : find (empty : OrderedMap κ υ) k = none := rfl

theorem find_congr {m m' : OrderedMap κ υ}
    (h : ∀ v, (k, v) ∈ m ↔ (k, v) ∈ m') : m.find k = m'.find k := by
  refine ext fun v => ?_
  rw [find_eq_some, find_eq_some, h]

theorem mem_remove {p : κ × υ} : p ∈ m.remove k ↔ p ∈ m ∧ p.1 ≠ k := by
  simp [remove]

theorem mem_put {p : κ × υ} : p ∈ m.put k v ↔ (p ∈ m ∧ p.1 ≠ k) ∨ p = (k, v) := by
  unfold put
  rw [mem_insert, mem_remove]
  refine or_congr Iff.rfl (and_iff_left ?_)
  intro z hz
  exact (mem_remove.mp hz).2

theorem find_remove (m : OrderedMap κ υ) (k k' : κ) :
    (m.remove k).find k' = if k' = k then none else m.find k' := by
  split
  · rename_i hSame
    rw [find_eq_none]
    intro v hv
    exact (mem_remove.mp hv).2 hSame
  · rename_i hOther
    refine find_congr fun v => ?_
    rw [mem_remove]
    exact and_iff_left hOther

theorem find_put (m : OrderedMap κ υ) (k k' : κ) (v : υ) :
    (m.put k v).find k' = if k' = k then some v else m.find k' := by
  split
  · rename_i hSame
    rw [find_eq_some, mem_put, hSame]
    exact Or.inr rfl
  · rename_i hOther
    refine find_congr fun w => ?_
    rw [mem_put, Prod.mk.injEq]
    simp [hOther]

section

variable [DecidableEq κ] (m : OrderedMap κ υ) (k : κ)

theorem find_put_eq_update (v : υ) : (m.put k v).find = update m.find k (some v) := by
  funext k'
  rw [find_put, update_apply]
  congr

theorem find_remove_eq_update : (m.remove k).find = update m.find k none := by
  funext k'
  rw [find_remove, update_apply]
  congr

end

section

variable (m : OrderedMap κ υ)

@[simp] theorem find_remove_self (k : κ) : (m.remove k).find k = none := by
  rw [find_remove, if_pos rfl]

@[simp] theorem find_put_self (k : κ) (v : υ) : (m.put k v).find k = some v := by
  rw [find_put, if_pos rfl]

theorem find_remove_of_ne {k k' : κ} (h : k' ≠ k) : (m.remove k).find k' = m.find k' := by
  rw [find_remove, if_neg h]

theorem find_put_of_ne {k k' : κ} (v : υ) (h : k' ≠ k) : (m.put k v).find k' = m.find k' := by
  rw [find_put, if_neg h]

theorem find_insert (k k' : κ) (v : υ) :
    find (insert m (k, v)) k' = if k' = k then some ((m.find k).getD v) else m.find k' := by
  split
  · rename_i hSame
    subst hSame
    rw [find_eq_some, mem_insert]
    cases hFind : m.find k' with
    | some w => exact Or.inl (find_eq_some.mp hFind)
    | none =>
      refine Or.inr ⟨rfl, fun z hz hKey => ?_⟩
      obtain rfl : z.1 = k' := hKey
      exact find_eq_none.mp hFind z.2 hz
  · rename_i hOther
    refine find_congr fun w => ?_
    rw [mem_insert, Prod.mk.injEq]
    simp [hOther]

end

variable (f : υ → υ)

/-- Every value replaced by its image; the keys stay. -/
def mapVal (m : OrderedMap κ υ) : OrderedMap κ υ :=
  ⟨m.elems.map (fun p => (p.1, f p.2)), m.ascending.map _ fun _ _ h => h⟩

theorem find_mapVal (m : OrderedMap κ υ) (k : κ) : (m.mapVal f).find k = (m.find k).map f := by
  unfold find mapVal
  rw [List.find?_map, Option.map_map, Option.map_map]
  rfl

theorem ext_find {m m' : OrderedMap κ υ} (h : ∀ k, m.find k = m'.find k) : m = m' := by
  refine ext_mem fun p => ?_
  rw [← find_eq_some (k := p.1), ← find_eq_some (k := p.1), h]

theorem mapVal_put (m : OrderedMap κ υ) (k : κ) (v : υ) :
    (m.put k v).mapVal f = (m.mapVal f).put k (f v) := by
  apply ext_find
  intro k'
  rw [find_mapVal, find_put, find_put, find_mapVal]
  split <;> rfl

theorem mapVal_remove (m : OrderedMap κ υ) (k : κ) :
    (m.remove k).mapVal f = (m.mapVal f).remove k := by
  apply ext_find
  intro k'
  rw [find_mapVal, find_remove, find_remove, find_mapVal]
  split <;> rfl

theorem mapVal_foldl_remove (ks : List κ) (m : OrderedMap κ υ) :
    (ks.foldl remove m).mapVal f = ks.foldl remove (m.mapVal f) := by
  induction ks generalizing m with
  | nil => rfl
  | cons k ks ih => rw [foldl_cons, foldl_cons, ih, mapVal_remove]

theorem mapVal_mapVal (f g : υ → υ) (m : OrderedMap κ υ) :
    (m.mapVal g).mapVal f = m.mapVal (f ∘ g) := by
  apply ext_find
  intro k
  rw [find_mapVal, find_mapVal, find_mapVal, Option.map_map]

theorem perm_cons_remove (h : m.find k = some v) : m.elems.Perm ((k, v) :: (m.remove k).elems) := by
  refine (perm_ext_iff_of_nodup m.nodup_elems ?_).mpr fun p => ?_
  · refine nodup_cons.mpr ⟨fun hIn => ?_, nodup_elems _⟩
    exact (mem_remove.mp hIn).2 rfl
  · have hIn : p ∈ (m.remove k).elems ↔ p ∈ m.elems ∧ p.1 ≠ k := mem_remove
    rw [mem_cons, hIn]
    constructor
    · intro hp
      by_cases hk : p.1 = k
      · exact Or.inl (eq_of_key_eq hp (find_eq_some.mp h) hk)
      · exact Or.inr ⟨hp, hk⟩
    · rintro (rfl | ⟨hp, -⟩)
      · exact find_eq_some.mp h
      · exact hp

theorem remove_of_find (h : m.find k = none) : m.remove k = m := by
  refine ext_find fun k' => ?_
  rw [find_remove]
  split
  · rename_i hk
    rw [hk, h]
  · rfl

theorem put_perm (m : OrderedMap κ υ) (k : κ) (v : υ) :
    (m.put k v).elems.Perm ((k, v) :: (m.remove k).elems) := by
  have hRemove : (m.put k v).remove k = m.remove k := by
    refine ext_find fun k' => ?_
    rw [find_remove, find_remove]
    split
    · rfl
    · exact find_put_of_ne m v ‹_›
  have hPerm := perm_cons_remove (find_put_self m k v)
  rwa [hRemove] at hPerm

theorem mem_keys : k ∈ m.elems.map Prod.fst ↔ ∃ v, m.find k = some v := by
  simp only [find_eq_some, OrderedSet.mem_def, List.mem_map, Prod.exists, exists_and_right,
    exists_eq_right]

theorem nodup_keys (m : OrderedMap κ υ) : (m.elems.map Prod.fst).Nodup :=
  List.Pairwise.map Prod.fst (fun _ _ h => h.ne) m.ascending

theorem find_foldl_remove (ks : List κ) (m : OrderedMap κ υ) (k : κ) :
    (ks.foldl remove m).find k = if k ∈ ks then none else m.find k := by
  induction ks generalizing m with
  | nil => simp
  | cons k₁ ks ih =>
    rw [foldl_cons, ih, find_remove]
    by_cases hIn : k ∈ ks <;> by_cases hSame : k = k₁ <;> simp [hIn, hSame]

theorem find_foldl_put_of_not_mem
    (h : k ∉ ps.map Prod.fst) : (ps.foldl (fun m p => put m p.1 p.2) m).find k = m.find k := by
  induction ps generalizing m with
  | nil => rfl
  | cons p ps ih =>
    rw [map_cons, mem_cons, not_or] at h
    rw [foldl_cons, ih h.2, find_put_of_ne _ _ h.1]

theorem find_foldl_put_of_mem (hKeys : (ps.map Prod.fst).Nodup) {p : κ × υ} (h : p ∈ ps) :
    (ps.foldl (fun m p => put m p.1 p.2) m).find p.1 = some p.2 := by
  induction ps generalizing m with
  | nil => cases h
  | cons q ps ih =>
    obtain ⟨hFirst, hRest⟩ := nodup_cons.mp hKeys
    rw [foldl_cons]
    rcases mem_cons.mp h with rfl | hLater
    · rw [find_foldl_put_of_not_mem hFirst, find_put_self]
    · exact ih hRest hLater

theorem find_foldl_put {υ' : Type} (f : υ → υ') (m : OrderedMap κ υ) (k : κ) :
    ((m.elems.map fun p => (p.1, f p.2)).foldl (fun m p => put m p.1 p.2)
      OrderedSet.empty).find k = (m.find k).map f := by
  have hKeys : (m.elems.map fun p => (p.1, f p.2)).map Prod.fst = m.elems.map Prod.fst := by
    rw [List.map_map]
    rfl
  cases hFind : m.find k with
  | none =>
    rw [find_foldl_put_of_not_mem, find_empty, map_none]
    rw [hKeys, mem_keys, hFind]
    exact fun h => some_ne_none _ h.choose_spec.symm
  | some v =>
    have hIn : (k, f v) ∈ m.elems.map fun p => (p.1, f p.2) :=
      mem_map.mpr ⟨(k, v), find_eq_some.mp hFind, rfl⟩
    exact find_foldl_put_of_mem (by rw [hKeys]; exact nodup_keys m) hIn

theorem elems_of_find
    (h : ∀ k', m.find k' = if k' = k then some v else none) : m.elems = [(k, v)] := by
  have hSingle : m = ⟨[(k, v)], pairwise_singleton _ _⟩ := by
    refine ext_find fun k' => ?_
    rw [h]
    by_cases hSame : k = k' <;> simp [find, hSame, eq_comm]
  rw [hSingle]

theorem find_of_elems (h : m.elems = [(k, v)]) (k' : κ) :
    m.find k' = if k' = k then some v else none := by
  unfold find
  rw [h]
  by_cases hSame : k = k' <;> simp [hSame, eq_comm]

theorem put_put (m : OrderedMap κ υ) (k : κ) (v v' : υ) : (m.put k v).put k v' = m.put k v' := by
  refine ext_find fun k' => ?_
  by_cases hSame : k' = k <;> simp [find_put, hSame]

/-! ## Sums over all entries -/

def total (f : υ → Int) (m : OrderedMap κ υ) : Int := (m.elems.map (fun p => f p.2)).sum

theorem total_congr {f g : υ → Int}
    (h : ∀ k v, m.find k = some v → f v = g v) : m.total f = m.total g := by
  unfold total
  rw [map_congr_left]
  intro p hp
  exact h p.1 p.2 (find_eq_some.mpr hp)

theorem total_nonneg {f : υ → Int} (h : ∀ k v, m.find k = some v → 0 ≤ f v) : 0 ≤ m.total f := by
  refine sum_nonneg fun n hn => ?_
  obtain ⟨p, hp, rfl⟩ := mem_map.mp hn
  exact h p.1 p.2 (find_eq_some.mpr hp)

theorem total_eq_add_remove (f : υ → Int) (m : OrderedMap κ υ) (k : κ) :
    m.total f = (m.find k).elim 0 f + (m.remove k).total f := by
  cases hFind : m.find k with
  | none =>
    simp [remove_of_find hFind]
  | some v =>
    have hSum := ((perm_cons_remove hFind).map (fun p => f p.2)).sum_eq
    rwa [map_cons, sum_cons] at hSum

theorem total_of_agree (f : υ → Int) {m m' : OrderedMap κ υ}
    (h : ∀ k', k' ≠ k → m'.find k' = m.find k') :
    m'.total f = m.total f - (m.find k).elim 0 f + (m'.find k).elim 0 f := by
  have hRest : m'.remove k = m.remove k := by
    refine ext_find fun k' => ?_
    rw [find_remove, find_remove]
    split
    · rfl
    · exact h k' ‹_›
  rw [total_eq_add_remove f m' k, total_eq_add_remove f m k, hRest]
  omega

end OrderedMap

end Fhgfs
