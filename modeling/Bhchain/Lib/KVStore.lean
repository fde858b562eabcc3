import Mathlib
import Bhchain.Lib.SortedMerge

/-!
# A key-value store as a key-sorted association list

An IAVL store is a map from keys to values that iterates in key order.
This module models it as a list of entries strictly increasing in key,
so that a prefix iteration is a filter of the list and keeps its order.
`get`, `set` and `delete` are the three operations a keeper performs;
`set` inserts at the place of its key, replacing an old value.

What clients prove about stores is mostly conservation: a quantity summed
over all entries changes, under `set` and `delete`, by exactly what the
touched entry contributes. `total_set` and `total_delete` say so once.
-/

namespace KVStore

open SortedMerge

variable {κ ν : Type} [LinearOrder κ]

/-- The value stored under a key. -/
def get (k : κ) : List (κ × ν) → Option ν
  | [] => none
  | (a, v) :: l => if a = k then some v else get k l

/-- Store a value under a key, in key order. -/
def set (k : κ) (v : ν) : List (κ × ν) → List (κ × ν)
  | [] => [(k, v)]
  | (a, w) :: l =>
    if k < a then (k, v) :: (a, w) :: l
    else if k = a then (k, v) :: l
    else (a, w) :: set k v l

/-- Remove a key. -/
def delete (k : κ) (l : List (κ × ν)) : List (κ × ν) := l.filter (fun e => e.1 ≠ k)

@[simp] theorem get_nil (k : κ) : get k ([] : List (κ × ν)) = none := rfl

theorem get_cons (k a : κ) (v : ν) (l : List (κ × ν)) :
    get k ((a, v) :: l) = if a = k then some v else get k l := rfl

/-- `get` reads the first entry of the key. -/
theorem get_eq_find (k : κ) : ∀ l : List (κ × ν), get k l = (l.find? fun e => e.1 = k).map Prod.snd
  | [] => rfl
  | (a, v) :: l => by
    rw [get_cons, List.find?_cons, get_eq_find k l]
    by_cases h : a = k <;> simp [h]

/-- A key no entry carries is absent. -/
theorem get_eq_none {k : κ} {l : List (κ × ν)} (h : ∀ e ∈ l, e.1 ≠ k) : get k l = none := by
  induction l with
  | nil => rfl
  | cons e l ih =>
    obtain ⟨a, v⟩ := e
    rw [get_cons, if_neg (h _ List.mem_cons_self)]
    exact ih (fun f hf => h f (List.mem_cons_of_mem _ hf))

/-- The entry of a key in a sorted store is what `get` returns. -/
theorem get_of_mem {k : κ} {v : ν} {l : List (κ × ν)} (hs : Sorted l) (hm : (k, v) ∈ l) :
    get k l = some v := by
  induction l with
  | nil => cases hm
  | cons e l ih =>
    obtain ⟨a, w⟩ := e
    rw [get_cons]
    rcases List.mem_cons.mp hm with h | hm
    · cases h
      exact if_pos rfl
    · rw [if_neg (ne_of_lt (hs.head_lt hm))]
      exact ih hs.tail hm

theorem mem_of_get {k : κ} {v : ν} : ∀ {l : List (κ × ν)}, get k l = some v → (k, v) ∈ l
  | [], h => by cases h
  | (a, w) :: l, h => by
    rw [get_cons] at h
    split at h
    · cases h
      subst a
      exact List.mem_cons_self
    · exact List.mem_cons_of_mem _ (mem_of_get h)

/-- Deleting a key below every key of a sorted list changes nothing. -/
theorem delete_of_lt {k : κ} {l : List (κ × ν)} (h : ∀ e ∈ l, k < e.1) : delete k l = l := by
  unfold delete
  rw [List.filter_eq_self]
  intro e he
  simpa using ne_of_gt (h e he)

theorem Sorted.delete {l : List (κ × ν)} (hs : Sorted l) (k : κ) : Sorted (delete k l) :=
  List.Pairwise.filter _ hs

theorem get_delete (k k' : κ) (l : List (κ × ν)) :
    get k' (delete k l) = if k' = k then none else get k' l := by
  induction l with
  | nil => split <;> rfl
  | cons e l ih =>
    obtain ⟨a, w⟩ := e
    unfold delete at ih ⊢
    by_cases hak : a = k
    · -- the deleted entry
      subst hak
      rw [List.filter_cons_of_neg (by simp), ih, get_cons]
      by_cases h : k' = a
      · rw [if_pos h, if_pos h]
      · rw [if_neg h, if_neg h, if_neg (Ne.symm h)]
    · rw [List.filter_cons_of_pos (by simpa using hak), get_cons, get_cons, ih]
      by_cases h : k' = k
      · subst h
        rw [if_pos rfl, if_neg hak, if_pos rfl]
      · rw [if_neg h, if_neg h]

/-- **`set` is a new entry in front of the deletion of its key**, up to
order. -/
theorem set_perm (k : κ) (v : ν) : ∀ {l : List (κ × ν)}, Sorted l →
    (set k v l).Perm ((k, v) :: delete k l)
  | [], _ => List.Perm.refl _
  | (a, w) :: l, hs => by
    simp only [set]
    split_ifs with hlt heq
    · -- `k` goes in front and deletes nothing
      rw [delete_of_lt (fun e he => ?_)]
      rcases List.mem_cons.mp he with rfl | he
      · exact hlt
      · exact lt_trans hlt (hs.head_lt he)
    · -- `k` replaces the head
      subst heq
      have hdel : delete k ((k, w) :: l) = l := by
        unfold delete
        rw [List.filter_cons_of_neg (by simp)]
        exact delete_of_lt (fun e he => hs.head_lt he)
      rw [hdel]
    · -- `k` goes further down
      have hak : a ≠ k := fun h => heq h.symm
      have hdel : delete k ((a, w) :: l) = (a, w) :: delete k l := by
        unfold delete
        rw [List.filter_cons_of_pos (by simpa using hak)]
      rw [hdel]
      exact ((set_perm k v hs.tail).cons _).trans (List.Perm.swap _ _ _)

theorem get_set (k k' : κ) (v : ν) :
    ∀ l : List (κ × ν), get k' (set k v l) = if k' = k then some v else get k' l
  | [] => by
    rw [set, get_cons, get_nil]
    by_cases h : k' = k
    · rw [if_pos h.symm, if_pos h]
    · rw [if_neg (Ne.symm h), if_neg h]
  | (a, w) :: l => by
    simp only [set]
    by_cases hlt : k < a
    · -- the new entry goes in front
      rw [if_pos hlt, get_cons, get_cons]
      by_cases h : k' = k
      · rw [if_pos h.symm, if_pos h]
      · rw [if_neg (Ne.symm h), if_neg h]
    by_cases heq : k = a
    · -- the new entry replaces the head
      subst heq
      rw [if_neg hlt, if_pos rfl, get_cons, get_cons]
      by_cases h : k' = k
      · rw [if_pos h.symm, if_pos h]
      · rw [if_neg (Ne.symm h), if_neg h, if_neg (Ne.symm h)]
    · -- the new entry goes further down
      rw [if_neg hlt, if_neg heq, get_cons, get_cons, get_set k k' v l]
      by_cases h : k' = k
      · subst h
        rw [if_neg (Ne.symm heq), if_pos rfl, if_pos rfl]
      · rw [if_neg h, if_neg h]

/-- An entry of `set k v l` is the new one or an old one. -/
theorem mem_set {k : κ} {v : ν} {e : κ × ν} :
    ∀ {l : List (κ × ν)}, e ∈ set k v l → e = (k, v) ∨ e ∈ l
  | [], h => Or.inl (List.mem_singleton.mp h)
  | (a, w) :: l, h => by
    simp only [set] at h
    split_ifs at h
    · exact (List.mem_cons.mp h).imp id id
    · exact (List.mem_cons.mp h).imp id (List.mem_cons_of_mem _)
    · rcases List.mem_cons.mp h with h | h
      · exact Or.inr (h ▸ List.mem_cons_self)
      · exact (mem_set h).imp id (List.mem_cons_of_mem _)

/-- `set` keeps a store sorted. -/
theorem Sorted.set {l : List (κ × ν)} (hs : Sorted l) (k : κ) (v : ν) :
    Sorted (KVStore.set k v l) := by
  induction l with
  | nil => exact List.pairwise_singleton _ _
  | cons e l ih =>
    obtain ⟨a, w⟩ := e
    simp only [KVStore.set]
    split_ifs with hlt heq
    · -- in front: below the head, hence below everything
      refine sorted_cons.mpr ⟨fun f hf => ?_, hs⟩
      rcases List.mem_cons.mp hf with rfl | hf
      · exact hlt
      · exact lt_trans hlt (hs.head_lt hf)
    · -- in place of the head
      subst heq
      exact sorted_cons.mpr ⟨fun f hf => hs.head_lt hf, hs.tail⟩
    · -- further down: the head stays below the new key and the rest
      have hak : a < k := lt_of_le_of_ne (not_lt.mp hlt) (Ne.symm heq)
      refine sorted_cons.mpr ⟨fun f hf => ?_, ih hs.tail⟩
      rcases mem_set hf with rfl | hf
      · exact hak
      · exact hs.head_lt hf

section total

/-- The sum of a quantity over all entries. -/
def total (f : κ → ν → ℤ) (l : List (κ × ν)) : ℤ := (l.map (fun e => f e.1 e.2)).sum

/-- What one key contributes to a total. -/
def contrib (f : κ → ν → ℤ) (k : κ) (l : List (κ × ν)) : ℤ :=
  match get k l with
  | some v => f k v
  | none => 0

theorem contrib_cons (f : κ → ν → ℤ) (k a : κ) (w : ν) (l : List (κ × ν)) :
    contrib f k ((a, w) :: l) = if a = k then f k w else contrib f k l := by
  unfold contrib
  rw [get_cons]
  by_cases hak : a = k
  · subst hak
    rw [if_pos rfl, if_pos rfl]
  · rw [if_neg hak, if_neg hak]

/-- **Deleting a key takes its contribution out of a total.** -/
theorem total_delete (f : κ → ν → ℤ) (k : κ) :
    ∀ {l : List (κ × ν)}, Sorted l → total f (delete k l) = total f l - contrib f k l
  | [], _ => rfl
  | (a, w) :: l, hs => by
    unfold total delete at *
    rw [contrib_cons]
    by_cases hak : a = k
    · -- the deleted entry is the head; no later key is `k`
      subst hak
      rw [List.filter_cons_of_neg (by simp), if_pos rfl]
      have hrest : l.filter (fun e => e.1 ≠ a) = l :=
        delete_of_lt (fun e he => hs.head_lt he)
      rw [hrest, List.map_cons, List.sum_cons]
      dsimp only
      omega
    · rw [List.filter_cons_of_pos (by simpa using hak), if_neg hak, List.map_cons,
        List.sum_cons, List.map_cons, List.sum_cons]
      have ih := total_delete f k hs.tail
      unfold total delete at ih
      rw [ih]
      omega

/-- **Setting a key replaces its contribution to a total.** -/
theorem total_set (f : κ → ν → ℤ) (k : κ) (v : ν) {l : List (κ × ν)} (hs : Sorted l) :
    total f (set k v l) = total f l - contrib f k l + f k v := by
  have hperm := (set_perm k v hs).map (fun e => f e.1 e.2)
  unfold total at *
  rw [hperm.sum_eq, List.map_cons, List.sum_cons]
  have hdel := total_delete f k hs
  unfold total at hdel
  rw [hdel]
  dsimp only
  omega

/-- **A total is the sum of the contributions of any finite set of keys
that holds the store's keys**: on a sorted list each key has one entry. -/
theorem total_eq_sum_contrib (f : κ → ν → ℤ) :
    ∀ {l : List (κ × ν)}, Sorted l → ∀ (K : Finset κ), (∀ e ∈ l, e.1 ∈ K) →
      total f l = ∑ k ∈ K, contrib f k l
  | [], _, K, _ => by
    simp [total, contrib]
  | (a, w) :: l, hs, K, hK => by
    have ha : a ∈ K := hK (a, w) List.mem_cons_self
    have ih := total_eq_sum_contrib f hs.tail K (fun e he => hK e (List.mem_cons_of_mem _ he))
    -- the head's key has no entry further on
    have hfresh : contrib f a l = 0 := by
      unfold contrib
      rw [get_eq_none fun e he => ne_of_gt (hs.head_lt he)]
    have hsplit : ∀ k ∈ K, contrib f k ((a, w) :: l) =
        (if a = k then f k w else 0) + contrib f k l := by
      intro k _
      rw [contrib_cons]
      by_cases hak : a = k
      · subst hak
        rw [if_pos rfl, if_pos rfl, hfresh, add_zero]
      · rw [if_neg hak, if_neg hak, zero_add]
    unfold total at ih ⊢
    rw [Finset.sum_congr rfl hsplit, Finset.sum_add_distrib, Finset.sum_ite_eq K a, if_pos ha,
      ← ih, List.map_cons, List.sum_cons]

end total

/-- **A store**: its entries strictly increasing in key, so that each key
has at most one entry. The operations keep the order by construction. -/
structure Store (κ ν : Type) [LinearOrder κ] where
  entries : List (κ × ν)
  sorted : Sorted entries

namespace Store

/-- The store with no entry. -/
def empty : Store κ ν := ⟨[], List.Pairwise.nil⟩

/-- `store.Get`. -/
def get (st : Store κ ν) (k : κ) : Option ν := KVStore.get k st.entries

/-- `store.Has`. -/
def has (st : Store κ ν) (k : κ) : Bool := (st.get k).isSome

/-- `store.Set`. -/
def set (st : Store κ ν) (k : κ) (v : ν) : Store κ ν :=
  ⟨KVStore.set k v st.entries, KVStore.Sorted.set st.sorted k v⟩

/-- `store.Delete`. -/
def delete (st : Store κ ν) (k : κ) : Store κ ν :=
  ⟨KVStore.delete k st.entries, KVStore.Sorted.delete st.sorted k⟩

/-- Whether the store has no entry. -/
def isEmpty (st : Store κ ν) : Bool := st.entries.isEmpty

/-- The sum of a quantity over all entries. -/
def total (f : κ → ν → ℤ) (st : Store κ ν) : ℤ := KVStore.total f st.entries

@[simp] theorem get_empty (k : κ) : (empty : Store κ ν).get k = none := rfl

@[simp] theorem get_set (st : Store κ ν) (k k' : κ) (v : ν) :
    (st.set k v).get k' = if k' = k then some v else st.get k' :=
  KVStore.get_set k k' v st.entries

@[simp] theorem get_delete (st : Store κ ν) (k k' : κ) :
    (st.delete k).get k' = if k' = k then none else st.get k' :=
  KVStore.get_delete k k' st.entries

@[simp] theorem total_empty (f : κ → ν → ℤ) : (empty : Store κ ν).total f = 0 := rfl

/-- An entry is a key and the value `get` returns for it. -/
theorem mem_iff_get {st : Store κ ν} {k : κ} {v : ν} : (k, v) ∈ st.entries ↔ st.get k = some v :=
  ⟨get_of_mem st.sorted, mem_of_get⟩

/-- **The entries of a store are its keys with a value**: it is empty exactly
when `get` finds nothing anywhere. -/
theorem isEmpty_iff (st : Store κ ν) : st.isEmpty = true ↔ ∀ k, st.get k = none := by
  unfold isEmpty
  rw [List.isEmpty_iff]
  constructor
  · intro h k
    unfold get
    rw [h, KVStore.get_nil]
  · intro h
    cases hl : st.entries with
    | nil => rfl
    | cons e l =>
      -- the head entry is found by `get`
      have hm : (e.1, e.2) ∈ st.entries := by rw [hl]; exact List.mem_cons_self
      rw [mem_iff_get, h] at hm
      cases hm

theorem total_set (f : κ → ν → ℤ) (st : Store κ ν) (k : κ) (v : ν) :
    (st.set k v).total f = st.total f - contrib f k st.entries + f k v :=
  KVStore.total_set f k v st.sorted

theorem total_delete (f : κ → ν → ℤ) (st : Store κ ν) (k : κ) :
    (st.delete k).total f = st.total f - contrib f k st.entries :=
  KVStore.total_delete f k st.sorted

/-- **Totals agree where every key contributes alike.** -/
theorem total_congr {f g : κ → ν → ℤ} {st st' : Store κ ν}
    (h : ∀ k, contrib f k st.entries = contrib g k st'.entries) : st.total f = st'.total g := by
  -- both totals are sums over the keys of either store
  let K := (st.entries.map Prod.fst).toFinset ∪ (st'.entries.map Prod.fst).toFinset
  have hst : ∀ e ∈ st.entries, e.1 ∈ K := fun e he =>
    Finset.mem_union_left _ (List.mem_toFinset.mpr (List.mem_map_of_mem he))
  have hst' : ∀ e ∈ st'.entries, e.1 ∈ K := fun e he =>
    Finset.mem_union_right _ (List.mem_toFinset.mpr (List.mem_map_of_mem he))
  unfold total
  rw [total_eq_sum_contrib f st.sorted K hst, total_eq_sum_contrib g st'.sorted K hst']
  exact Finset.sum_congr rfl fun k _ => h k

/-- What a key contributes is read off `get`. -/
theorem contrib_eq (f : κ → ν → ℤ) (st : Store κ ν) {k : κ} {v : ν} (h : st.get k = some v) :
    contrib f k st.entries = f k v := by
  unfold contrib
  rw [show KVStore.get k st.entries = some v from h]

theorem contrib_eq_zero (f : κ → ν → ℤ) (st : Store κ ν) {k : κ} (h : st.get k = none) :
    contrib f k st.entries = 0 := by
  unfold contrib
  rw [show KVStore.get k st.entries = none from h]

/-- Deleting an absent key leaves the store as it was. -/
theorem delete_of_get_eq_none {st : Store κ ν} {k : κ} (h : st.get k = none) : st.delete k = st := by
  obtain ⟨entries, sorted⟩ := st
  have hkeys : ∀ e ∈ entries, e.1 ≠ k := by
    rintro ⟨a, v⟩ he rfl
    have hget : KVStore.get a entries = some v := get_of_mem sorted he
    exact absurd (hget.symm.trans h) (by simp)
  simp only [delete, KVStore.delete, Store.mk.injEq]
  exact List.filter_eq_self.mpr fun e he => decide_eq_true (hkeys e he)

section nonneg

variable {f : κ → ν → ℤ} {st : Store κ ν}

/-- **A quantity non-negative on every entry has a non-negative total.** -/
theorem total_nonneg (hf : ∀ k v, st.get k = some v → 0 ≤ f k v) : 0 ≤ st.total f := by
  unfold total KVStore.total
  apply List.sum_nonneg
  intro x hx
  obtain ⟨e, he, rfl⟩ := List.mem_map.mp hx
  exact hf e.1 e.2 (mem_iff_get.mp he)

/-- **A quantity non-negative on every entry bounds each entry's share by
the total.** -/
theorem le_total (hf : ∀ k v, st.get k = some v → 0 ≤ f k v) {k : κ} {v : ν}
    (hk : st.get k = some v) : f k v ≤ st.total f := by
  unfold total KVStore.total
  apply List.single_le_sum
  · intro x hx
    obtain ⟨e, he, rfl⟩ := List.mem_map.mp hx
    exact hf e.1 e.2 (mem_iff_get.mp he)
  · exact List.mem_map.mpr ⟨(k, v), mem_iff_get.mpr hk, rfl⟩

end nonneg

theorem total_of_isEmpty (f : κ → ν → ℤ) {st : Store κ ν} (h : st.isEmpty = true) :
    st.total f = 0 := by
  unfold isEmpty at h
  unfold total KVStore.total
  rw [List.isEmpty_iff.mp h]
  rfl

end Store

end KVStore
