import Mathlib.Data.List.Nodup
import Mathlib.Tactic.Common

/-!
# Insertion-ordered dictionaries

The dictionary of a scripting language: keys are distinct, iteration follows the order of first
insertion, assigning to a key that is present keeps its place, and the oldest entry can be popped.
Lookups are stated through membership of the entry list (`get?_eq_some_iff`), so that facts about
`set`, `erase`, `filter` and `evictOldest` compose by their `mem_` lemmas alone.
-/

namespace Chatbit.Lib

/-- A dictionary as the list of its items in insertion order. -/
@[ext]
structure OrderedDict (κ ν : Type) where
  entries : List (κ × ν)
  nodup : (entries.map Prod.fst).Nodup

namespace OrderedDict

variable {κ ν : Type}

instance [DecidableEq κ] [DecidableEq ν] : DecidableEq (OrderedDict κ ν) := fun d d' =>
  decidable_of_iff (d.entries = d'.entries) OrderedDict.ext_iff.symm

/-- `{}` -/
def empty : OrderedDict κ ν := ⟨[], List.nodup_nil⟩

/-- `len(d)` -/
def length (d : OrderedDict κ ν) : ℕ := d.entries.length

def keys (d : OrderedDict κ ν) : List κ := d.entries.map Prod.fst

/-- `list(d.values())` -/
def values (d : OrderedDict κ ν) : List ν := d.entries.map Prod.snd

variable [DecidableEq κ]

/-- `d.get(k)` -/
def get? (d : OrderedDict κ ν) (k : κ) : Option ν :=
  (d.entries.find? fun e => e.1 = k).map Prod.snd

/-- Replacing a value keeps the keys in their order. -/
theorem keys_replace (l : List (κ × ν)) (k : κ) (v : ν) :
    (l.map fun e => if e.1 = k then (k, v) else e).map Prod.fst = l.map Prod.fst := by
  rw [List.map_map]
  refine List.map_congr_left fun e _ => ?_
  by_cases h : e.1 = k <;> simp [h]

/-- `d[k] = v`: a key that is present keeps its place, a new one goes to the end. -/
def set (d : OrderedDict κ ν) (k : κ) (v : ν) : OrderedDict κ ν :=
  if h : k ∈ d.keys then
    ⟨d.entries.map fun e => if e.1 = k then (k, v) else e, by rw [keys_replace]; exact d.nodup⟩
  else
    ⟨d.entries ++ [(k, v)], by
      rw [List.map_append, List.nodup_append]
      refine ⟨d.nodup, List.nodup_singleton _, ?_⟩
      intro a ha b hb
      obtain rfl : b = k := by simpa using hb
      exact fun hab => h (hab ▸ ha)⟩

/-- The dictionary restricted to the items that satisfy `p`. -/
def filter (d : OrderedDict κ ν) (p : κ → ν → Bool) : OrderedDict κ ν :=
  ⟨d.entries.filter fun e => p e.1 e.2, d.nodup.sublist (List.filter_sublist.map _)⟩

/-- `del d[k]`, or `d.pop(k, None)` -/
def erase (d : OrderedDict κ ν) (k : κ) : OrderedDict κ ν := d.filter fun k' _ => k' ≠ k

/-- `while len(d) > bound: d.popitem(last=False)` -/
def evictOldest (d : OrderedDict κ ν) (bound : ℕ) : OrderedDict κ ν :=
  ⟨d.entries.drop (d.length - bound), d.nodup.sublist ((List.drop_sublist _ _).map _)⟩

/-- Pop the oldest items as long as they satisfy `p`. -/
def dropWhile (d : OrderedDict κ ν) (p : κ → ν → Bool) : OrderedDict κ ν :=
  ⟨d.entries.dropWhile fun e => p e.1 e.2, d.nodup.sublist ((List.dropWhile_sublist _).map _)⟩

/-- The keys that `evictOldest` pops. -/
def evicted (d : OrderedDict κ ν) (bound : ℕ) : List κ := d.keys.take (d.length - bound)

/-- There is one entry for a key, the one that a lookup finds. -/
theorem get?_eq_some_iff {d : OrderedDict κ ν} {k : κ} {v : ν} :
    d.get? k = some v ↔ (k, v) ∈ d.entries := by
  obtain ⟨l, hl⟩ := d
  simp only [get?]
  induction l with
  | nil => simp
  | cons e l ih =>
    obtain ⟨hnot, hl'⟩ := List.nodup_cons.mp hl
    by_cases he : e.1 = k
    · have hk : ∀ w, (k, w) ∉ l := fun w hw => hnot (he ▸ List.mem_map_of_mem hw)
      subst he
      simp [hk, Prod.ext_iff, eq_comm]
    · have hne : (k, v) ≠ e := fun h => he (h ▸ rfl)
      simp only [List.find?_cons, he, decide_false, List.mem_cons, hne, false_or]
      exact ih hl'

omit [DecidableEq κ] in
/-- The keys are those of the entries. -/
theorem mem_keys_iff {d : OrderedDict κ ν} {k : κ} : k ∈ d.keys ↔ ∃ v, (k, v) ∈ d.entries := by
  simp [keys]

/-- A lookup fails exactly for the keys that are not there. -/
theorem get?_eq_none_iff {d : OrderedDict κ ν} {k : κ} : d.get? k = none ↔ k ∉ d.keys := by
  rw [mem_keys_iff, Option.eq_none_iff_forall_ne_some]
  simp [get?_eq_some_iff]

theorem mem_keys_of_get? {d : OrderedDict κ ν} {k : κ} {v : ν} (h : d.get? k = some v) :
    k ∈ d.keys := mem_keys_iff.mpr ⟨v, get?_eq_some_iff.mp h⟩

theorem exists_get?_of_mem_keys {d : OrderedDict κ ν} {k : κ} (h : k ∈ d.keys) :
    ∃ v, d.get? k = some v := by
  obtain ⟨v, hv⟩ := mem_keys_iff.mp h
  exact ⟨v, get?_eq_some_iff.mpr hv⟩

/-- Setting a key replaces its entry, and leaves the others. -/
theorem mem_set {d : OrderedDict κ ν} {k k' : κ} {v v' : ν} :
    (k', v') ∈ (d.set k v).entries ↔ (k' = k ∧ v' = v) ∨ (k' ≠ k ∧ (k', v') ∈ d.entries) := by
  by_cases h : k ∈ d.keys
  · simp only [set, h, dite_true, List.mem_map]
    constructor
    · rintro ⟨e, he, heq⟩
      by_cases hk : e.1 = k
      · exact Or.inl (by simpa [hk, eq_comm] using heq)
      · rw [if_neg hk] at heq
        subst heq
        exact Or.inr ⟨hk, he⟩
    · rintro (⟨rfl, rfl⟩ | ⟨hne, hmem⟩)
      · obtain ⟨w, hw⟩ := mem_keys_iff.mp h
        exact ⟨_, hw, by simp⟩
      · exact ⟨_, hmem, by simp [hne]⟩
  · have hk : ∀ w, (k, w) ∉ d.entries := fun w hw => h (mem_keys_iff.mpr ⟨w, hw⟩)
    simp only [set, h, dite_false, List.mem_append, List.mem_singleton, Prod.mk.injEq]
    constructor
    · rintro (hmem | heq)
      · exact Or.inr ⟨fun hkk => hk _ (hkk ▸ hmem), hmem⟩
      · exact Or.inl heq
    · rintro (heq | ⟨-, hmem⟩)
      · exact Or.inr heq
      · exact Or.inl hmem

omit [DecidableEq κ] in
/-- A filter leaves the entries that satisfy it. -/
theorem mem_filter {d : OrderedDict κ ν} {p : κ → ν → Bool} {k : κ} {v : ν} :
    (k, v) ∈ (d.filter p).entries ↔ (k, v) ∈ d.entries ∧ p k v = true := by
  simp [filter]

/-- Erasing a key leaves the entries of the others. -/
theorem mem_erase {d : OrderedDict κ ν} {k k' : κ} {v' : ν} :
    (k', v') ∈ (d.erase k).entries ↔ k' ≠ k ∧ (k', v') ∈ d.entries := by
  rw [erase, mem_filter]
  simp [and_comm]

@[simp] theorem get?_empty (k : κ) : (empty : OrderedDict κ ν).get? k = none := rfl

@[simp] theorem get?_set_self (d : OrderedDict κ ν) (k : κ) (v : ν) :
    (d.set k v).get? k = some v :=
  get?_eq_some_iff.mpr (mem_set.mpr (Or.inl ⟨rfl, rfl⟩))

theorem get?_set_of_ne (d : OrderedDict κ ν) {k k' : κ} (v : ν) (h : k' ≠ k) :
    (d.set k v).get? k' = d.get? k' := by
  refine Option.ext fun w => ?_
  rw [get?_eq_some_iff, get?_eq_some_iff, mem_set]
  simp [h]

@[simp] theorem get?_erase_self (d : OrderedDict κ ν) (k : κ) : (d.erase k).get? k = none := by
  rw [get?_eq_none_iff, mem_keys_iff]
  simp [mem_erase]

theorem get?_erase_of_ne (d : OrderedDict κ ν) {k k' : κ} (h : k' ≠ k) :
    (d.erase k).get? k' = d.get? k' := by
  refine Option.ext fun w => ?_
  rw [get?_eq_some_iff, get?_eq_some_iff, mem_erase]
  simp [h]

/-- A new key goes to the end. -/
theorem entries_set_of_not_mem {d : OrderedDict κ ν} {k : κ} (h : k ∉ d.keys) (v : ν) :
    (d.set k v).entries = d.entries ++ [(k, v)] := by
  rw [set, dif_neg h]

/-- A key that is present keeps its place. -/
theorem keys_set_of_mem {d : OrderedDict κ ν} {k : κ} (h : k ∈ d.keys) (v : ν) :
    (d.set k v).keys = d.keys := by
  rw [set, dif_pos h]
  exact keys_replace d.entries k v

theorem mem_keys_set (d : OrderedDict κ ν) (k : κ) (v : ν) : k ∈ (d.set k v).keys :=
  mem_keys_of_get? (get?_set_self d k v)

/-- Setting a key adds this key at most. -/
theorem mem_keys_set_iff {d : OrderedDict κ ν} {k k' : κ} {v : ν} :
    k' ∈ (d.set k v).keys ↔ k' = k ∨ k' ∈ d.keys := by
  by_cases h : k' = k
  · subst h
    exact iff_of_true (mem_keys_set d k' v) (Or.inl rfl)
  · simp [mem_keys_iff, mem_set, h]

/-- The last assignment to a key counts. -/
theorem set_set (d : OrderedDict κ ν) (k : κ) (v w : ν) : (d.set k v).set k w = d.set k w := by
  have hmem := mem_keys_set d k v
  apply OrderedDict.ext
  by_cases h : k ∈ d.keys
  · rw [set, dif_pos hmem]
    simp only [set, dif_pos h, List.map_map]
    refine List.map_congr_left fun e _ => ?_
    by_cases he : e.1 = k <;> simp [he]
  · rw [set, dif_pos hmem]
    simp only [set, dif_neg h, List.map_append, List.map_singleton, if_true]
    rw [List.map_congr_left, List.map_id]
    intro e he
    exact if_neg fun heq : e.1 = k => h (heq ▸ List.mem_map_of_mem he)

/-- Deleting a key forgets what was assigned to it. -/
theorem erase_set_self (d : OrderedDict κ ν) (k : κ) (v : ν) : (d.set k v).erase k = d.erase k := by
  apply OrderedDict.ext
  by_cases h : k ∈ d.keys
  · simp only [set, h, dite_true, erase, filter, List.filter_map]
    rw [List.map_congr_left, List.map_id]
    · exact List.filter_congr fun e _ => by by_cases he : e.1 = k <;> simp [he]
    · intro e he
      have hne : e.1 ≠ k := by
        intro heq
        simp [heq] at he
      simp [hne]
  · simp [set, h, erase, filter]

/-- A lookup after a filter finds the value if it satisfies the filter. -/
theorem get?_filter (d : OrderedDict κ ν) (p : κ → ν → Bool) (k : κ) :
    (d.filter p).get? k = (d.get? k).filter (p k) := by
  refine Option.ext fun w => ?_
  rw [get?_eq_some_iff, mem_filter, Option.filter_eq_some_iff, get?_eq_some_iff]

/-- Setting a key that is there does not add an entry. -/
theorem length_set (d : OrderedDict κ ν) (k : κ) (v : ν) :
    (d.set k v).length = if k ∈ d.keys then d.length else d.length + 1 := by
  by_cases h : k ∈ d.keys <;> simp [set, h, length]

/-- Erasing a key that is there removes one entry. -/
theorem length_erase {d : OrderedDict κ ν} {k : κ} (h : k ∈ d.keys) :
    (d.erase k).length + 1 = d.length := by
  have hkeys : (d.erase k).keys = d.keys.erase k := by
    unfold keys
    rw [List.Nodup.erase_eq_filter d.nodup, List.filter_map]
    refine congrArg _ (List.filter_congr fun e _ => ?_)
    by_cases he : e.1 = k <;> simp [he]
  have hlen := List.length_erase_add_one h
  rw [← hkeys] at hlen
  simpa [keys, length] using hlen

omit [DecidableEq κ] in
theorem nodup_keys (d : OrderedDict κ ν) : d.keys.Nodup := d.nodup

omit [DecidableEq κ] in
theorem length_keys (d : OrderedDict κ ν) : d.keys.length = d.length := List.length_map _

/-- Assigning what a key has already changes nothing. -/
theorem set_of_get? {d : OrderedDict κ ν} {k : κ} {v : ν} (h : d.get? k = some v) :
    d.set k v = d := by
  have hmem := mem_keys_of_get? h
  apply OrderedDict.ext
  rw [set, dif_pos hmem]
  refine (List.map_congr_left fun e he => ?_).trans (List.map_id _)
  split_ifs with hk
  · -- the key has one entry
    have he' : d.get? k = some e.2 := get?_eq_some_iff.mpr (hk ▸ he)
    rw [h] at he'
    exact Prod.ext hk.symm (Option.some.inj he')
  · rfl

/-- A filter that every entry satisfies changes nothing. -/
theorem filter_of_forall {d : OrderedDict κ ν} {p : κ → ν → Bool}
    (h : ∀ k v, d.get? k = some v → p k v = true) : d.filter p = d := by
  apply OrderedDict.ext
  exact List.filter_eq_self.mpr fun e he => h e.1 e.2 (get?_eq_some_iff.mpr he)

theorem erase_of_not_mem {d : OrderedDict κ ν} {k : κ} (h : k ∉ d.keys) : d.erase k = d :=
  filter_of_forall fun k' _ hget => decide_eq_true fun heq : k' = k =>
    h (heq ▸ mem_keys_of_get? hget)

theorem erase_erase (d : OrderedDict κ ν) (k : κ) : (d.erase k).erase k = d.erase k :=
  erase_of_not_mem (get?_eq_none_iff.mp (get?_erase_self d k))

/-! ## Changing the values -/

/-- The same keys in the same order, with other values. -/
def mapValues {μ : Type} (f : ν → μ) (d : OrderedDict κ ν) : OrderedDict κ μ :=
  ⟨d.entries.map fun e => (e.1, f e.2), by
    rw [List.map_map]
    exact d.nodup⟩

section MapValues

variable {μ : Type} (f : ν → μ) (d : OrderedDict κ ν) (k : κ)

omit [DecidableEq κ] in
theorem keys_mapValues : (d.mapValues f).keys = d.keys := List.map_map

theorem get?_mapValues : (d.mapValues f).get? k = (d.get? k).map f := by
  unfold get? mapValues
  rw [List.find?_map, Option.map_map, Option.map_map]
  rfl

/-- Erasing commutes with mapping the values. -/
theorem mapValues_erase : (d.erase k).mapValues f = (d.mapValues f).erase k := by
  apply OrderedDict.ext
  show (d.entries.filter _).map _ = (d.entries.map _).filter _
  rw [List.filter_map]
  rfl

/-- Setting commutes with mapping the values. -/
theorem mapValues_set (v : ν) : (d.set k v).mapValues f = (d.mapValues f).set k (f v) := by
  apply OrderedDict.ext
  by_cases h : k ∈ d.keys
  · have h' : k ∈ (d.mapValues f).keys := (keys_mapValues f d).symm ▸ h
    rw [set, set, dif_pos h, dif_pos h']
    simp only [mapValues, List.map_map]
    refine List.map_congr_left fun e _ => ?_
    by_cases he : e.1 = k <;> simp [he]
  · rw [entries_set_of_not_mem ((keys_mapValues f d).symm ▸ h)]
    simp [mapValues, entries_set_of_not_mem h]

end MapValues

/-! ## Evicting the oldest items -/

omit [DecidableEq κ] in
/-- Eviction adds no entry. -/
theorem mem_of_mem_evictOldest {d : OrderedDict κ ν} {bound : ℕ} {e : κ × ν}
    (h : e ∈ (d.evictOldest bound).entries) : e ∈ d.entries :=
  List.mem_of_mem_drop h

omit [DecidableEq κ] in
/-- Every item either stays or is popped. -/
theorem mem_evictOldest_or_evicted {d : OrderedDict κ ν} {k : κ} {v : ν} (bound : ℕ)
    (h : (k, v) ∈ d.entries) :
    (k, v) ∈ (d.evictOldest bound).entries ∨ k ∈ d.evicted bound := by
  rw [← List.take_append_drop (d.length - bound) d.entries, List.mem_append] at h
  rcases h with h | h
  · refine Or.inr ?_
    rw [evicted, keys, ← List.map_take]
    exact List.mem_map_of_mem h
  · exact Or.inl h

omit [DecidableEq κ] in
/-- Eviction leaves no more entries than the bound. -/
theorem length_evictOldest_le (d : OrderedDict κ ν) (bound : ℕ) :
    (d.evictOldest bound).length ≤ bound := by
  unfold length evictOldest
  rw [List.length_drop]
  unfold length
  omega

omit [DecidableEq κ] in
/-- Nothing is evicted where there is room. -/
theorem evictOldest_of_le {d : OrderedDict κ ν} {bound : ℕ} (h : d.length ≤ bound) :
    d.evictOldest bound = d := by
  apply OrderedDict.ext
  simp [evictOldest, Nat.sub_eq_zero_of_le h]

/-- Assignments to new keys add items in their order. -/
theorem entries_foldl_set (d : OrderedDict κ ν) {l : List (κ × ν)}
    (hnodup : (l.map Prod.fst).Nodup) (hnew : ∀ e ∈ l, e.1 ∉ d.keys) :
    (l.foldl (fun d e => d.set e.1 e.2) d).entries = d.entries ++ l := by
  induction l generalizing d with
  | nil => exact (List.append_nil _).symm
  | cons e l ih =>
    rw [List.map_cons, List.nodup_cons] at hnodup
    have hentries := entries_set_of_not_mem (hnew e List.mem_cons_self) e.2
    rw [List.foldl_cons, ih _ hnodup.2, hentries, List.append_assoc]
    · rfl
    · intro e' he' hmem
      rcases mem_keys_set_iff.mp hmem with heq | hmem
      · exact hnodup.1 (heq ▸ List.mem_map_of_mem he')
      · exact hnew e' (List.mem_cons_of_mem _ he') hmem

/-- A dictionary is what its items make when they are assigned in order. -/
theorem foldl_set_entries (d : OrderedDict κ ν) :
    d.entries.foldl (fun d e => d.set e.1 e.2) empty = d :=
  OrderedDict.ext (entries_foldl_set empty d.nodup fun _ _ => List.not_mem_nil)

end OrderedDict

end Chatbit.Lib
