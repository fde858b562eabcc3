import Bhchain.CacheKV.Iterator
import Bhchain.Lib.Transition

/-!
# A cache-wrapped store refines a map

`cachekv.Store` wraps a parent store in an in-memory cache. Its state lives in three
structures. `cache` maps each key read or written to a `cValue`: the value (`nil` when
absent), whether it is a delete, and whether it is dirty, that is, not yet written to the
parent. `unsortedCache` holds the dirty keys that have not yet moved into `sortedCache`, the
list of dirty items in key order that the iterators read. An iterator first moves the dirty
keys of its domain from the unsorted set into the sorted list (`dirtyItems`), and then merges
that list with the parent's iterator.

The store is meant to behave as a map: the parent with the sets and deletes applied. The
abstract layer is `mapCall`, which is that map answering the same calls. `Store.lookup` reads the
map off a cache-wrapped store, and `Store.WF` says that the three structures agree. Every
call keeps `WF` and answers as the map does (`record_simulates`). So over any sequence of
calls the two give the same outputs, and `Write` leaves a fresh store over the map
(`cacheKV_refines_map`).

The source's Go maps are modelled as stores of sorted keys (`KVStore.Store`). The order in
which Go ranges over a map matters nowhere, because `dirtyItems` and `Write` sort the keys
they collect. Keys may be of any linear order; the source's are byte strings under
`bytes.Compare`. An iterator call is modelled by what a consumer reads from it to its end.
That is what it yields when no `Set` or `Delete` comes while it is open.
-/

namespace CacheKV

open Overlay Transition

variable {κ ν : Type} [LinearOrder κ]

/-- `cValue`: a cached value (`nil` is `none`), whether it is a delete, and whether it is
dirty. -/
structure CValue (ν : Type) where
  value : Option ν
  deleted : Bool
  dirty : Bool

/-- `Store`: the cache over a parent store. -/
structure Store (κ ν : Type) [LinearOrder κ] where
  cache : KVStore.Store κ (CValue ν)
  unsortedCache : KVStore.Store κ Unit
  sortedCache : List (κ × Option ν)
  parent : KVStore.Store κ ν

/-- `NewStore`. -/
def newStore (parent : KVStore.Store κ ν) : Store κ ν :=
  ⟨KVStore.Store.empty, KVStore.Store.empty, [], parent⟩

/-! ## The merge loop of `dirtyItems` -/

/-- One item of the sorted list against the sorted batch, in the loop of `dirtyItems`. A batch
item before it is inserted before it, an equal one replaces it, and a later one waits for the
rest of the list (`rest`). When the batch is empty, the loop stops and the list stays. -/
def mergeStep (sitem : κ × Option ν) (sorted : List (κ × Option ν))
    (rest : List (κ × Option ν) → List (κ × Option ν)) :
    List (κ × Option ν) → List (κ × Option ν)
  | [] => sitem :: sorted
  | uitem :: unsorted =>
    match compare uitem.1 sitem.1 with
    | .lt => uitem :: mergeStep sitem sorted rest unsorted
    | .eq => uitem :: rest unsorted
    | .gt => sitem :: rest (uitem :: unsorted)

/-- The merge loop of `dirtyItems`, over the sorted list. What is left of the batch when the
list ends is pushed at the back. -/
def mergeDirty : List (κ × Option ν) → List (κ × Option ν) → List (κ × Option ν)
  | [], unsorted => unsorted
  | sitem :: sorted, unsorted => mergeStep sitem sorted (mergeDirty sorted) unsorted

section merge

open SortedMerge

/-- The merge invents no key. -/
theorem keys_mergeStep {sitem : κ × Option ν} {sorted : List (κ × Option ν)}
    (hrest : ∀ zs e, e ∈ mergeDirty sorted zs → e.1 ∈ keys sorted ∨ e.1 ∈ keys zs) :
    ∀ (unsorted : List (κ × Option ν)) (e : κ × Option ν),
      e ∈ mergeStep sitem sorted (mergeDirty sorted) unsorted →
        e.1 ∈ keys (sitem :: sorted) ∨ e.1 ∈ keys unsorted
  | [], _, he => Or.inl (mem_keys_of_mem he)
  | uitem :: unsorted, e, he => by
    simp only [mergeStep] at he
    split at he
    · -- the batch item goes first
      rcases List.mem_cons.1 he with rfl | he
      · exact Or.inr (mem_keys_of_mem List.mem_cons_self)
      · exact (keys_mergeStep hrest unsorted e he).imp id (List.mem_cons_of_mem _)
    · -- the batch item replaces the list's
      rcases List.mem_cons.1 he with rfl | he
      · exact Or.inr (mem_keys_of_mem List.mem_cons_self)
      · exact (hrest unsorted e he).imp (List.mem_cons_of_mem _) (List.mem_cons_of_mem _)
    · -- the list's item goes first
      rcases List.mem_cons.1 he with rfl | he
      · exact Or.inl (mem_keys_of_mem List.mem_cons_self)
      · exact (hrest _ e he).imp (List.mem_cons_of_mem _) id

theorem keys_mergeDirty : ∀ (sorted unsorted : List (κ × Option ν)) (e : κ × Option ν),
    e ∈ mergeDirty sorted unsorted → e.1 ∈ keys sorted ∨ e.1 ∈ keys unsorted
  | [], _, _, he => Or.inr (mem_keys_of_mem he)
  | _ :: sorted, unsorted, e, he => keys_mergeStep (keys_mergeDirty sorted) unsorted e he

/-- **The merge of sorted lists is sorted.** -/
theorem sorted_mergeDirty : ∀ {sorted unsorted : List (κ × Option ν)}, Sorted sorted →
    Sorted unsorted → Sorted (mergeDirty sorted unsorted)
  | [], _, _, hu => hu
  | sitem :: sorted, unsorted, hs, hu => by
    induction unsorted with
    | nil => exact hs
    | cons uitem unsorted ih =>
      simp only [mergeDirty, mergeStep] at ih ⊢
      split
      · -- the batch item is below the list's item and below the rest of the batch
        rename_i hc
        have hlt : uitem.1 < sitem.1 := compare_lt_iff_lt.1 hc
        refine sorted_cons.2 ⟨fun f hf => ?_, ih hu.tail⟩
        rcases keys_mergeStep (keys_mergeDirty sorted) unsorted f hf with h | h
        · exact lt_of_lt_of_le hlt (hs.head_le_of_mem_keys h)
        · exact hu.head_lt_of_mem_keys h
      · rename_i hc
        have heq : uitem.1 = sitem.1 := compare_eq_iff_eq.1 hc
        refine sorted_cons.2 ⟨fun f hf => ?_, sorted_mergeDirty hs.tail hu.tail⟩
        rcases keys_mergeDirty sorted unsorted f hf with h | h
        · exact heq ▸ hs.head_lt_of_mem_keys h
        · exact hu.head_lt_of_mem_keys h
      · rename_i hc
        have hgt : sitem.1 < uitem.1 := compare_gt_iff_gt.1 hc
        refine sorted_cons.2 ⟨fun f hf => ?_, sorted_mergeDirty hs.tail hu⟩
        rcases keys_mergeDirty sorted (uitem :: unsorted) f hf with h | h
        · exact hs.head_lt_of_mem_keys h
        · exact lt_of_lt_of_le hgt (hu.head_le_of_mem_keys h)

/-- One item of the list against the batch: the batch wins at its keys, provided the merge of
the rest of the list lets it win. -/
theorem get_mergeStep {k : κ} {sitem : κ × Option ν} {sorted : List (κ × Option ν)}
    (hs : Sorted (sitem :: sorted))
    (hrest : ∀ zs, Sorted zs →
      KVStore.get k (mergeDirty sorted zs) = (KVStore.get k zs).or (KVStore.get k sorted)) :
    ∀ {unsorted : List (κ × Option ν)}, Sorted unsorted →
      KVStore.get k (mergeStep sitem sorted (mergeDirty sorted) unsorted) =
        (KVStore.get k unsorted).or (KVStore.get k (sitem :: sorted))
  | [], _ => rfl
  | (b, y) :: unsorted, hu => by
    obtain ⟨a, x⟩ := sitem
    simp only [mergeStep]
    split
    · -- the batch item goes first
      rw [KVStore.get_cons k b y, get_mergeStep hs hrest hu.tail, KVStore.get_cons k b y unsorted]
      by_cases hbk : b = k
      · rw [if_pos hbk, if_pos hbk]
        rfl
      · rw [if_neg hbk, if_neg hbk]
    · -- the batch item replaces the list's one
      rename_i hc
      obtain rfl : b = a := compare_eq_iff_eq.1 hc
      rw [KVStore.get_cons k b y, hrest _ hu.tail, KVStore.get_cons k b y unsorted,
        KVStore.get_cons k b x sorted]
      by_cases hbk : b = k
      · rw [if_pos hbk, if_pos hbk]
        rfl
      · rw [if_neg hbk, if_neg hbk, if_neg hbk]
    · -- the list's item goes first, and the batch does not have its key
      rename_i hc
      have hab : a < b := compare_gt_iff_gt.1 hc
      rw [KVStore.get_cons k a x (mergeDirty sorted ((b, y) :: unsorted)), hrest _ hu,
        KVStore.get_cons k a x sorted]
      by_cases hak : a = k
      · subst hak
        rw [if_pos rfl, if_pos rfl,
          Ascending.get_eq_none_of_rel (r := fun a b => a < b) hu hab]
        rfl
      · rw [if_neg hak, if_neg hak]

/-- **The batch wins.** After the merge a key holds the batch's item if the batch has one,
and the list's item otherwise. -/
theorem get_mergeDirty (k : κ) : ∀ {sorted unsorted : List (κ × Option ν)}, Sorted sorted →
    Sorted unsorted →
      KVStore.get k (mergeDirty sorted unsorted) =
        (KVStore.get k unsorted).or (KVStore.get k sorted)
  | [], _, _, _ => by rw [mergeDirty, KVStore.get_nil, Option.or_none]
  | _ :: _, _, hs, hu => get_mergeStep hs (fun _ hz => get_mergeDirty k hs.tail hz) hu

end merge

/-- The entries of a map in a domain, in key order, as iterator items. -/
def domainItems (m : KVStore.Store κ ν) (start endKey : Option κ) : List (κ × Option ν) :=
  (m.entries.filter fun e => isKeyInDomain e.1 start endKey).map fun e => (e.1, some e.2)

namespace Store

/-- `setCacheValue`, the only write to the cache. A dirty key also goes into the unsorted
set. -/
def setCacheValue (store : Store κ ν) (key : κ) (value : Option ν) (deleted dirty : Bool) :
    Store κ ν :=
  { store with
    cache := store.cache.set key ⟨value, deleted, dirty⟩
    unsortedCache := if dirty then store.unsortedCache.set key () else store.unsortedCache }

/-- `Get`: the cached value, or else the parent's value, which is then cached as clean. -/
def get (store : Store κ ν) (key : κ) : Option ν × Store κ ν :=
  match store.cache.get key with
  | none =>
    let value := store.parent.get key
    (value, store.setCacheValue key value false false)
  | some cacheValue => (cacheValue.value, store)

/-- `Set`. -/
def set (store : Store κ ν) (key : κ) (value : ν) : Store κ ν :=
  store.setCacheValue key (some value) false true

/-- `Has`: whether `Get` returns a value. -/
def has (store : Store κ ν) (key : κ) : Bool × Store κ ν :=
  ((store.get key).1.isSome, (store.get key).2)

/-- `Delete`. -/
def delete (store : Store κ ν) (key : κ) : Store κ ν :=
  store.setCacheValue key none true true

/-- One dirty entry in `Write`. A delete is deleted from the parent and a value is set on it.
A `nil` value that is not a delete is skipped, because the parent does not have the key. -/
def writeEntry (parent : KVStore.Store κ ν) (entry : κ × CValue ν) : KVStore.Store κ ν :=
  if entry.2.deleted then parent.delete entry.1
  else
    match entry.2.value with
    | none => parent
    | some value => parent.set entry.1 value

/-- `Write`: the dirty entries, in key order, are written to the parent, and then the cache is
cleared. -/
def write (store : Store κ ν) : Store κ ν :=
  newStore ((store.cache.entries.filter fun e => e.2.dirty).foldl writeEntry store.parent)

/-- `dirtyItems(start, end)`: the dirty keys of the domain leave the unsorted set, and their
items are merged into the sorted list. The unsorted set is a store of sorted keys, so its keys
come out in the order `sort.Slice` gives them. -/
def dirtyItems (store : Store κ ν) (start endKey : Option κ) : Store κ ν :=
  let unsorted :=
    (store.unsortedCache.entries.filter fun e => isKeyInDomain e.1 start endKey).map
      fun e => (e.1, (store.cache.get e.1).bind CValue.value)
  { store with
    unsortedCache :=
      ⟨store.unsortedCache.entries.filter fun e => !isKeyInDomain e.1 start endKey,
        List.Pairwise.filter _ store.unsortedCache.sorted⟩
    sortedCache := mergeDirty store.sortedCache unsorted }

/-- `iterator(start, end, ascending)`: what a consumer reads from the merge of two iterators,
once `dirtyItems` has run. One is the parent's iterator over the domain, which yields the
domain's entries in key order, or reversed. The other is the `memIterator` over the sorted
list. -/
def iterator (store : Store κ ν) (start endKey : Option κ) (ascending : Bool) :
    List (κ × Option ν) × Store κ ν :=
  let inDomain := store.parent.entries.filter fun e => isKeyInDomain e.1 start endKey
  let parent := if ascending then inDomain else inDomain.reverse
  let store := store.dirtyItems start endKey
  (items ascending parent (newMemIterator start endKey store.sortedCache ascending), store)

/-! ## The map a store stands for, and the invariant -/

/-- The map a cache-wrapped store stands for: the cached value where there is one, and the
parent's value elsewhere. -/
def lookup (store : Store κ ν) (key : κ) : Option ν :=
  match store.cache.get key with
  | some cacheValue => cacheValue.value
  | none => store.parent.get key

/-- **The invariant of a cache-wrapped store**: the cache, the unsorted set and the sorted list
agree with one another and with the parent. -/
structure WF (store : Store κ ν) : Prop where
  /-- A clean entry holds the parent's value. -/
  clean : ∀ key cv, store.cache.get key = some cv → cv.dirty = false →
    cv.value = store.parent.get key
  /-- A dirty entry is a delete exactly when its value is `nil`, as `Set` never stores `nil`. -/
  deleted_iff : ∀ key cv, store.cache.get key = some cv → cv.dirty = true →
    (cv.deleted = true ↔ cv.value = none)
  /-- The unsorted keys are dirty. -/
  unsorted_dirty : ∀ key, store.unsortedCache.has key = true →
    ∃ cv, store.cache.get key = some cv ∧ cv.dirty = true
  sorted : SortedMerge.Sorted store.sortedCache
  /-- An item of the sorted list waits in the unsorted set, or holds its key's dirty value. -/
  item : ∀ key o, KVStore.get key store.sortedCache = some o →
    store.unsortedCache.has key = true ∨
      ∃ cv, store.cache.get key = some cv ∧ cv.dirty = true ∧ cv.value = o
  /-- A dirty key that is out of the unsorted set has its item in the sorted list. -/
  dirty : ∀ key cv, store.cache.get key = some cv → cv.dirty = true →
    store.unsortedCache.has key = false → KVStore.get key store.sortedCache = some cv.value

variable {store : Store κ ν} {key k : κ}

theorem wf_newStore (parent : KVStore.Store κ ν) : (newStore parent).WF where
  clean _ _ h := by cases h
  deleted_iff _ _ h := by cases h
  unsorted_dirty _ h := by cases h
  sorted := List.Pairwise.nil
  item _ _ h := by cases h
  dirty _ _ h := by cases h

theorem lookup_newStore (parent : KVStore.Store κ ν) (k : κ) :
    (newStore parent).lookup k = parent.get k := rfl

/-! ### `setCacheValue` -/

@[simp] theorem cache_get_setCacheValue (value : Option ν) (deleted dirty : Bool) :
    (store.setCacheValue key value deleted dirty).cache.get k =
      if k = key then some ⟨value, deleted, dirty⟩ else store.cache.get k :=
  KVStore.Store.get_set _ _ _ _

theorem has_setCacheValue_true (value : Option ν) (deleted : Bool) :
    (store.setCacheValue key value deleted true).unsortedCache.has k =
      if k = key then true else store.unsortedCache.has k := by
  unfold setCacheValue KVStore.Store.has
  rw [if_pos rfl, KVStore.Store.get_set]
  split <;> rfl

theorem lookup_setCacheValue (value : Option ν) (deleted dirty : Bool) :
    (store.setCacheValue key value deleted dirty).lookup k =
      if k = key then value else store.lookup k := by
  unfold lookup
  rw [cache_get_setCacheValue]
  by_cases hk : k = key
  · rw [if_pos hk, if_pos hk]
  · rw [if_neg hk, if_neg hk]
    rfl

/-- A write of a dirty value keeps the invariant, when the value is `nil` exactly for a
delete. -/
theorem WF.setCacheValue_dirty (h : store.WF) {value : Option ν} {deleted : Bool}
    (hdel : deleted = true ↔ value = none) :
    (store.setCacheValue key value deleted true).WF where
  clean k cv hk hcv := by
    rw [cache_get_setCacheValue] at hk
    split at hk
    · cases hk
      cases hcv
    · exact h.clean k cv hk hcv
  deleted_iff k cv hk hcv := by
    rw [cache_get_setCacheValue] at hk
    split at hk
    · cases hk
      exact hdel
    · exact h.deleted_iff k cv hk hcv
  unsorted_dirty k hk := by
    rw [has_setCacheValue_true] at hk
    rw [cache_get_setCacheValue]
    split
    · exact ⟨_, rfl, rfl⟩
    · rename_i hne
      rw [if_neg hne] at hk
      exact h.unsorted_dirty k hk
  sorted := h.sorted
  item k o hk := by
    rw [has_setCacheValue_true, cache_get_setCacheValue]
    split
    · exact Or.inl rfl
    · exact h.item k o hk
  dirty k cv hk hcv hnot := by
    rw [has_setCacheValue_true] at hnot
    rw [cache_get_setCacheValue] at hk
    split at hk
    · rename_i hkey
      rw [if_pos hkey] at hnot
      cases hnot
    · rename_i hkey
      rw [if_neg hkey] at hnot
      exact h.dirty k cv hk hcv hnot

/-- Caching the parent's value, clean, at a key not yet cached keeps the invariant. -/
theorem WF.setCacheValue_clean (h : store.WF) (hnone : store.cache.get key = none) :
    (store.setCacheValue key (store.parent.get key) false false).WF where
  clean k cv hk hcv := by
    rw [cache_get_setCacheValue] at hk
    split at hk
    · rename_i hkey
      cases hk
      rw [hkey]
      rfl
    · exact h.clean k cv hk hcv
  deleted_iff k cv hk hcv := by
    rw [cache_get_setCacheValue] at hk
    split at hk
    · cases hk
      cases hcv
    · exact h.deleted_iff k cv hk hcv
  unsorted_dirty k hk := by
    -- an unsorted key is cached, so it is not the key written here
    obtain ⟨cv, hcv, hd⟩ := h.unsorted_dirty k hk
    have hkey : k ≠ key := by
      rintro rfl
      rw [hnone] at hcv
      cases hcv
    exact ⟨cv, by rw [cache_get_setCacheValue, if_neg hkey, hcv], hd⟩
  sorted := h.sorted
  item k o hk := by
    rcases h.item k o hk with hu | ⟨cv, hcv, hd, hv⟩
    · exact Or.inl hu
    · have hkey : k ≠ key := by
        rintro rfl
        rw [hnone] at hcv
        cases hcv
      exact Or.inr ⟨cv, by rw [cache_get_setCacheValue, if_neg hkey, hcv], hd, hv⟩
  dirty k cv hk hcv hnot := by
    rw [cache_get_setCacheValue] at hk
    split at hk
    · cases hk
      cases hcv
    · exact h.dirty k cv hk hcv hnot

/-! ### `Get`, `Set`, `Has` and `Delete` -/

/-- **`Get` reads the map.** -/
theorem get_fst (store : Store κ ν) (key : κ) : (store.get key).1 = store.lookup key := by
  unfold get lookup
  cases store.cache.get key <;> rfl

theorem lookup_get (store : Store κ ν) (key k : κ) :
    (store.get key).2.lookup k = store.lookup k := by
  unfold get
  cases hc : store.cache.get key with
  | none =>
    -- the parent's value is cached, and it is what the map held
    show (store.setCacheValue key (store.parent.get key) false false).lookup k = _
    rw [lookup_setCacheValue]
    by_cases hk : k = key
    · rw [if_pos hk, hk]
      unfold lookup
      rw [hc]
    · rw [if_neg hk]
  | some cv => rfl

theorem WF.get (h : store.WF) (key : κ) : (store.get key).2.WF := by
  unfold Store.get
  split
  · rename_i hnone
    exact h.setCacheValue_clean hnone
  · exact h

theorem WF.set (h : store.WF) (key : κ) (value : ν) : (store.set key value).WF :=
  h.setCacheValue_dirty (by simp)

theorem WF.delete (h : store.WF) (key : κ) : (store.delete key).WF :=
  h.setCacheValue_dirty (by simp)

/-! ### `dirtyItems` -/

theorem lookup_dirtyItems (store : Store κ ν) (start endKey : Option κ) :
    (store.dirtyItems start endKey).lookup = store.lookup := rfl

theorem has_dirtyItems (start endKey : Option κ) :
    (store.dirtyItems start endKey).unsortedCache.has k =
      (store.unsortedCache.has k && !isKeyInDomain k start endKey) := by
  unfold dirtyItems KVStore.Store.has KVStore.Store.get
  dsimp only
  rw [get_filter (fun k => !isKeyInDomain k start endKey)]
  by_cases hd : isKeyInDomain k start endKey = true
  · rw [if_neg (by simp [hd]), hd]
    simp
  · rw [if_pos (by simpa using hd)]
    simp [hd]

/-- After `dirtyItems`, a key of the domain waiting in the unsorted set holds its cached value
in the sorted list. Elsewhere the list is as it was. -/
theorem get_sortedCache_dirtyItems (h : store.WF) (start endKey : Option κ) (k : κ) :
    KVStore.get k (store.dirtyItems start endKey).sortedCache =
      if isKeyInDomain k start endKey = true ∧ store.unsortedCache.has k = true then
        some ((store.cache.get k).bind CValue.value)
      else KVStore.get k store.sortedCache := by
  have hbatch : SortedMerge.Sorted
      ((store.unsortedCache.entries.filter fun e => isKeyInDomain e.1 start endKey).map
        fun e => (e.1, (store.cache.get e.1).bind CValue.value)) :=
    List.pairwise_map.2 (List.Pairwise.filter _ store.unsortedCache.sorted)
  unfold dirtyItems
  dsimp only
  rw [get_mergeDirty k h.sorted hbatch,
    get_map_of_key (fun k => (store.cache.get k).bind CValue.value),
    get_filter (fun k => isKeyInDomain k start endKey)]
  unfold KVStore.Store.has KVStore.Store.get
  by_cases hd : isKeyInDomain k start endKey = true
  · rw [if_pos hd]
    cases KVStore.get k store.unsortedCache.entries with
    | none => simp
    | some u => simp [hd]
  · rw [if_neg hd, if_neg (by simp [hd])]
    rfl

theorem WF.dirtyItems (h : store.WF) (start endKey : Option κ) :
    (store.dirtyItems start endKey).WF where
  clean := h.clean
  deleted_iff := h.deleted_iff
  unsorted_dirty k hk := by
    rw [has_dirtyItems, Bool.and_eq_true] at hk
    exact h.unsorted_dirty k hk.1
  sorted := by
    unfold Store.dirtyItems
    exact sorted_mergeDirty h.sorted
      (List.pairwise_map.2 (List.Pairwise.filter _ store.unsortedCache.sorted))
  item k o hk := by
    rw [get_sortedCache_dirtyItems h] at hk
    rw [has_dirtyItems]
    split at hk
    · -- a moved item holds the cached value, which is dirty
      rename_i hmoved
      obtain ⟨cv, hcv, hd⟩ := h.unsorted_dirty k hmoved.2
      rw [hcv] at hk
      exact Or.inr ⟨cv, hcv, hd, Option.some.inj hk⟩
    · rename_i hstay
      rcases h.item k o hk with hu | hcv
      · -- an unsorted key out of the domain stays unsorted
        have hout : isKeyInDomain k start endKey = false := by
          simpa [hu] using hstay
        exact Or.inl (by rw [hu, hout]; rfl)
      · exact Or.inr hcv
  dirty k cv hk hcv hnot := by
    have hk : store.cache.get k = some cv := hk
    rw [has_dirtyItems] at hnot
    rw [get_sortedCache_dirtyItems h]
    split
    · rw [hk]
      rfl
    · rename_i hstay
      -- not moved and not left unsorted: it was not unsorted at all
      have hout : store.unsortedCache.has k = false := by
        cases hu : store.unsortedCache.has k
        · rfl
        · rw [hu] at hnot hstay
          simp only [Bool.true_and, Bool.not_eq_false'] at hnot
          exact absurd ⟨hnot, rfl⟩ hstay
      exact h.dirty k cv hk hcv hout

/-- **Out of the unsorted set, the sorted list over the parent shows the map.** -/
theorem WF.view_eq_lookup (h : store.WF) (hk : store.unsortedCache.has k = false) :
    view store.parent.entries store.sortedCache k = store.lookup k := by
  -- a key that is not dirty has no item in the sorted list
  have hnone : (∀ cv, store.cache.get k = some cv → cv.dirty = false) →
      KVStore.get k store.sortedCache = none := by
    intro hclean
    cases hg : KVStore.get k store.sortedCache with
    | none => rfl
    | some o =>
      rcases h.item k o hg with hu | ⟨cv, hcv, hd, -⟩
      · rw [hk] at hu
        cases hu
      · rw [hclean cv hcv] at hd
        cases hd
  unfold lookup
  cases hc : store.cache.get k with
  | none =>
    rw [view_of_get_patch_eq_none (hnone fun cv hcv => by rw [hc] at hcv; cases hcv)]
    rfl
  | some cv =>
    cases hd : cv.dirty
    · rw [view_of_get_patch_eq_none (hnone fun cv' hcv' => by
        rw [hc] at hcv'
        cases hcv'
        exact hd)]
      exact (h.clean k cv hc hd).symm
    · exact view_of_get_patch (h.dirty k cv hc hd hk)

/-- A key of the domain is out of the unsorted set after `dirtyItems`. -/
theorem has_dirtyItems_of_mem (start endKey : Option κ) (hk : isKeyInDomain k start endKey = true) :
    (store.dirtyItems start endKey).unsortedCache.has k = false := by
  rw [has_dirtyItems, hk]
  simp

/-! ### Iterators -/

theorem domainItems_sorted (m : KVStore.Store κ ν) (start endKey : Option κ) :
    SortedMerge.Sorted (domainItems m start endKey) :=
  List.pairwise_map.2 (List.Pairwise.filter _ m.sorted)

theorem get_domainItems (m : KVStore.Store κ ν) (start endKey : Option κ) (k : κ) :
    KVStore.get k (domainItems m start endKey) =
      if isKeyInDomain k start endKey = true then (m.get k).map some else none := by
  unfold domainItems
  rw [get_map_snd, get_filter (fun k => isKeyInDomain k start endKey)]
  split <;> rfl

/-- **An iterator yields the map's entries of the domain**: in key order ascending, reversed
descending, with the map's values and no delete. -/
theorem iterator_fst (h : store.WF) {m : KVStore.Store κ ν} (hm : ∀ k, store.lookup k = m.get k)
    (start endKey : Option κ) (ascending : Bool) :
    (store.iterator start endKey ascending).1 =
      if ascending then domainItems m start endKey else (domainItems m start endKey).reverse := by
  have h' := h.dirtyItems start endKey
  -- the two iterators, before the walk direction is chosen
  have hP : SortedMerge.Sorted
      (store.parent.entries.filter fun e => isKeyInDomain e.1 start endKey) :=
    List.Pairwise.filter _ store.parent.sorted
  have hC : SortedMerge.Sorted
      ((store.dirtyItems start endKey).sortedCache.filter fun e => isKeyInDomain e.1 start endKey) :=
    List.Pairwise.filter _ h'.sorted
  have hmem : itemsInDomain start endKey false (store.dirtyItems start endKey).sortedCache =
      (store.dirtyItems start endKey).sortedCache.filter fun e => isKeyInDomain e.1 start endKey :=
    itemsInDomain_eq_filter h'.sorted fun h => by cases h
  have hview : ∀ k, view (store.parent.entries.filter fun e => isKeyInDomain e.1 start endKey)
      ((store.dirtyItems start endKey).sortedCache.filter fun e => isKeyInDomain e.1 start endKey)
        k = if isKeyInDomain k start endKey = true then m.get k else none := by
    intro k
    rw [view_filter (fun k => isKeyInDomain k start endKey)]
    split
    · rename_i hk
      rw [← hm k, ← lookup_dirtyItems store start endKey]
      exact h'.view_eq_lookup (has_dirtyItems_of_mem start endKey hk)
    · rfl
  unfold iterator newMemIterator
  dsimp only
  rw [hmem]
  cases ascending
  · -- descending: both iterators read their lists backwards
    simp only [Bool.false_eq_true, ↓reduceIte]
    obtain ⟨hasc, hget⟩ := items_spec false
      (ascending_reverse.2 hP) (ascending_reverse.2 hC)
    refine Ascending.eq_of_get_eq hasc (ascending_reverse.2 (domainItems_sorted m start endKey))
      fun k => ?_
    rw [hget, view_reverse (r := fun a b => a < b) hP hC, hview,
      Ascending.get_reverse (r := fun a b => a < b) (domainItems_sorted m start endKey),
      get_domainItems]
    split <;> rfl
  · simp only [↓reduceIte]
    obtain ⟨hasc, hget⟩ := items_spec true hP hC
    refine Ascending.eq_of_get_eq hasc (domainItems_sorted m start endKey) fun k => ?_
    rw [hget, hview, get_domainItems]
    split <;> rfl

/-! ### `Write` -/

/-- One written entry changes the parent at its key only: a delete leaves nothing, a value
leaves the value, and a `nil` value leaves the parent's. -/
theorem get_writeEntry (parent : KVStore.Store κ ν) (a : κ) (cv : CValue ν) (k : κ) :
    (writeEntry parent (a, cv)).get k =
      if k = a then (if cv.deleted then none else cv.value.or (parent.get k))
      else parent.get k := by
  unfold writeEntry
  dsimp only
  by_cases hdel : cv.deleted = true
  · rw [if_pos hdel, KVStore.Store.get_delete]
    by_cases hk : k = a
    · rw [if_pos hk, if_pos hk, if_pos hdel]
    · rw [if_neg hk, if_neg hk]
  · rw [if_neg hdel]
    cases hv : cv.value with
    | none =>
      by_cases hk : k = a
      · rw [if_pos hk, if_neg hdel]
        rfl
      · rw [if_neg hk]
    | some v =>
      show (parent.set a v).get k = _
      rw [KVStore.Store.get_set]
      by_cases hk : k = a
      · rw [if_pos hk, if_pos hk, if_neg hdel]
        rfl
      · rw [if_neg hk, if_neg hk]

/-- Writing sorted entries one by one: a key takes what its entry writes, or keeps the parent's
value. -/
theorem get_foldl_writeEntry (k : κ) : ∀ {entries : List (κ × CValue ν)}
    (parent : KVStore.Store κ ν), SortedMerge.Sorted entries →
      (entries.foldl writeEntry parent).get k =
        match KVStore.get k entries with
        | some cv => if cv.deleted then none else cv.value.or (parent.get k)
        | none => parent.get k
  | [], _, _ => rfl
  | (a, cv) :: entries, parent, hs => by
    rw [List.foldl_cons, get_foldl_writeEntry k _ hs.tail, KVStore.get_cons]
    by_cases hak : a = k
    · -- the entry's key is written once, by this entry
      subst hak
      rw [if_pos rfl, Ascending.get_tail_head (r := fun a b => a < b) hs, get_writeEntry,
        if_pos rfl]
    · rw [if_neg hak]
      cases KVStore.get k entries with
      | none => rw [get_writeEntry, if_neg (Ne.symm hak)]
      | some cv' => rw [get_writeEntry, if_neg (Ne.symm hak)]

/-- **`Write` leaves the map in the parent.** -/
theorem WF.write_get (h : store.WF) (k : κ) : store.write.parent.get k = store.lookup k := by
  unfold Store.write newStore
  dsimp only
  rw [get_foldl_writeEntry k _ (List.Pairwise.filter _ store.cache.sorted),
    Ascending.get_filter_snd (r := fun a b => a < b) store.cache.sorted]
  have hget : KVStore.get k store.cache.entries = store.cache.get k := rfl
  unfold lookup
  rw [hget]
  cases hc : store.cache.get k with
  | none => rfl
  | some cv =>
    cases hd : cv.dirty
    · simp only [Option.filter_some, hd, Bool.false_eq_true, if_false]
      exact (h.clean k cv hc hd).symm
    · simp only [Option.filter_some, hd, if_true]
      -- a dirty entry is a delete exactly when its value is `nil`
      by_cases hdel : cv.deleted = true
      · rw [if_pos hdel, ((h.deleted_iff k cv hc hd).1 hdel)]
      · rw [if_neg hdel]
        obtain ⟨v, hv⟩ := Option.ne_none_iff_exists'.1
          (fun hv => hdel ((h.deleted_iff k cv hc hd).2 hv))
        rw [hv]
        rfl

end Store

/-! ## Calls, and the map they act on -/

/-- The calls a cache-wrapped store answers. -/
inductive Call (κ ν : Type)
  | get (key : κ)
  | has (key : κ)
  | set (key : κ) (value : ν)
  | delete (key : κ)
  | iterator (start endKey : Option κ)
  | reverseIterator (start endKey : Option κ)
  | write

/-- What a call returns: a value, a flag, the items an iterator yields, or nothing. -/
inductive Output (κ ν : Type)
  | value (value : Option ν)
  | flag (flag : Bool)
  | items (items : List (κ × Option ν))
  | done

/-- A cache-wrapped store answering a call. -/
def Store.call (store : Store κ ν) : Call κ ν → Output κ ν × Store κ ν
  | .get key => (.value (store.get key).1, (store.get key).2)
  | .has key => (.flag (store.has key).1, (store.has key).2)
  | .set key value => (.done, store.set key value)
  | .delete key => (.done, store.delete key)
  | .iterator start endKey =>
    (.items (store.iterator start endKey true).1, (store.iterator start endKey true).2)
  | .reverseIterator start endKey =>
    (.items (store.iterator start endKey false).1, (store.iterator start endKey false).2)
  | .write => (.done, store.write)

/-- **The map a cache-wrapped store stands for**, answering the same calls. A set or delete
acts at once, an iterator yields the domain's entries in order or reversed, and `Write` does
nothing. -/
def mapCall (m : KVStore.Store κ ν) : Call κ ν → Output κ ν × KVStore.Store κ ν
  | .get key => (.value (m.get key), m)
  | .has key => (.flag (m.get key).isSome, m)
  | .set key value => (.done, m.set key value)
  | .delete key => (.done, m.delete key)
  | .iterator start endKey => (.items (domainItems m start endKey), m)
  | .reverseIterator start endKey => (.items (domainItems m start endKey).reverse, m)
  | .write => (.done, m)

/-- A step of a run that records what each call returns. -/
def record {σ : Type} (call : σ → Call κ ν → Output κ ν × σ) (s : σ × List (Output κ ν))
    (c : Call κ ν) : σ × List (Output κ ν) :=
  ((call s.1 c).2, s.2 ++ [(call s.1 c).1])

/-! ## The refinement -/

/-- A run of the cache-wrapped store against a run of the map: the store keeps its invariant
and stands for the map, and both runs have returned the same outputs. -/
def Refines (s : Store κ ν × List (Output κ ν)) (t : KVStore.Store κ ν × List (Output κ ν)) :
    Prop :=
  s.1.WF ∧ (∀ k, s.1.lookup k = t.1.get k) ∧ s.2 = t.2

theorem refines_init (parent : KVStore.Store κ ν) : Refines (newStore parent, []) (parent, []) :=
  ⟨Store.wf_newStore parent, Store.lookup_newStore parent, rfl⟩

/-- **Each call answers as the map does**, and keeps the two runs related. -/
theorem record_simulates {s : Store κ ν × List (Output κ ν)}
    {t : KVStore.Store κ ν × List (Output κ ν)} (h : Refines s t) (c : Call κ ν) :
    Refines (record Store.call s c) (record mapCall t c) := by
  obtain ⟨store, outs⟩ := s
  obtain ⟨m, outs'⟩ := t
  obtain ⟨hwf, hm, houts⟩ := h
  dsimp only at hwf hm houts
  subst houts
  cases c with
  | get key =>
    refine ⟨hwf.get key, fun k => (Store.lookup_get store key k).trans (hm k), ?_⟩
    simp only [record, Store.call, mapCall, Store.get_fst, hm]
  | has key =>
    refine ⟨hwf.get key, fun k => (Store.lookup_get store key k).trans (hm k), ?_⟩
    simp only [record, Store.call, mapCall, Store.has, Store.get_fst, hm]
  | set key value =>
    refine ⟨hwf.set key value, fun k => ?_, rfl⟩
    simp only [record, Store.call, mapCall, Store.set, Store.lookup_setCacheValue,
      KVStore.Store.get_set, hm]
  | delete key =>
    refine ⟨hwf.delete key, fun k => ?_, rfl⟩
    simp only [record, Store.call, mapCall, Store.delete, Store.lookup_setCacheValue,
      KVStore.Store.get_delete, hm]
  | iterator start endKey =>
    refine ⟨hwf.dirtyItems start endKey, hm, ?_⟩
    simp only [record, Store.call, mapCall, Store.iterator_fst hwf hm, if_true]
  | reverseIterator start endKey =>
    refine ⟨hwf.dirtyItems start endKey, hm, ?_⟩
    simp only [record, Store.call, mapCall, Store.iterator_fst hwf hm, Bool.false_eq_true,
      if_false]
  | write =>
    refine ⟨Store.wf_newStore _, fun k => (hwf.write_get k).trans (hm k), rfl⟩

/-- **The cache-wrapped store refines the map.** Run any sequence of calls on a new store over
a parent, and run them on the parent as a map. Both runs return the same outputs: `Get`
returns the map's value, `Has` whether there is one, and an iterator the map's entries of
its domain, ascending or descending. A `Write` after the sequence leaves a new store whose
parent is the map. -/
theorem cacheKV_refines_map (parent : KVStore.Store κ ν) (calls : List (Call κ ν)) :
    (run (record Store.call) (newStore parent, []) calls).2 =
        (run (record mapCall) (parent, []) calls).2 ∧
      (run (record Store.call) (newStore parent, []) (calls ++ [.write])).1 =
        newStore (run (record mapCall) (parent, []) calls).1 := by
  have hrun : Refines (run (record Store.call) (newStore parent, []) calls)
      (run (record mapCall) (parent, []) calls) :=
    run_simulation (R := Refines) (fun _ _ c h => record_simulates h c) calls (refines_init parent)
  refine ⟨hrun.2.2, ?_⟩
  rw [run_append, run_cons, run_nil]
  show (run (record Store.call) (newStore parent, []) calls).1.write = _
  have hparent := store_eq_of_get_eq fun k => (hrun.1.write_get k).trans (hrun.2.1 k)
  rw [← hparent]
  rfl

end CacheKV
