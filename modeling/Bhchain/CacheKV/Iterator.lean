import Bhchain.Lib.Overlay

/-!
# The iterators of a cache-wrapped store

`store/cachekv` iterates by merging two iterators. One is the parent store's
iterator over the domain. The other is a `memIterator` over the cache's sorted
list of dirty items, in which an item with a `nil` value is a delete. The
`cacheMergeIterator` walks both in step: where the keys tie, the cache shadows
the parent, and a delete in the cache hides the parent's item.

An iterator is modelled by the items it has left, in the order it yields them.
`Valid` says there is one, `Key` and `Value` read the first, and `Next` drops
it. A `memIterator` keeps a slice and reads it from the front when ascending and
from the back when descending. So it yields the slice, or the slice reversed.
Descending, the merge iterator's `compare` is `bytes.Compare` negated. Both
directions are therefore one walk along a strict order, `walkLt ascending`, and
every proof below is made once for both.

The result is `items_spec`. Take a merge iterator over a parent and a cache that
both ascend along the walk. What a consumer reads from it ascends as well. It
holds exactly the entries that the cache shows over the parent
(`Overlay.view`), and it holds no delete.
-/

namespace CacheKV

open KVStore Overlay

variable {κ ν : Type} [LinearOrder κ]

/-- `IsKeyInDomain` of tm-db: not below `start`, and below `end`. A `nil` bound is `none`. -/
def isKeyInDomain (key : κ) (start endKey : Option κ) : Bool :=
  start.all (fun s => decide (s ≤ key)) && endKey.all (fun e => decide (key < e))

/-! ## `memIterator` -/

/-- The loop of `newMemIterator`. It skips the items before the domain and keeps those in
it, up to the first item out of it once inside (`entered`). -/
def itemsInDomain (start endKey : Option κ) (entered : Bool) :
    List (κ × Option ν) → List (κ × Option ν)
  | [] => []
  | item :: items =>
    if !isKeyInDomain item.1 start endKey then
      if entered then [] else itemsInDomain start endKey entered items
    else item :: itemsInDomain start endKey true items

/-- `newMemIterator`, as the items it yields. `Key` and `Value` read the front of the slice
when ascending and its back when descending, and `Next` drops that item. -/
def newMemIterator (start endKey : Option κ) (items : List (κ × Option ν)) (ascending : Bool) :
    List (κ × Option ν) :=
  let itemsInDomain := itemsInDomain start endKey false items
  if ascending then itemsInDomain else itemsInDomain.reverse

/-! ## `cacheMergeIterator` -/

/-- `compare` of the merge iterator: `bytes.Compare`, negated when descending. -/
def cmp (ascending : Bool) (a b : κ) : Ordering := if ascending then compare a b else compare b a

/-- `skipCacheDeletes(until)`: move the cache past its deletes before `until`, or past all its
leading deletes when `until` is `nil`. -/
def skipCacheDeletes (ascending : Bool) (untilKey : Option κ) :
    List (κ × Option ν) → List (κ × Option ν)
  | [] => []
  | c :: cache =>
    if c.2.isNone && untilKey.all (fun u => cmp ascending c.1 u == .lt) then
      skipCacheDeletes ascending untilKey cache
    else c :: cache

theorem length_skipCacheDeletes_le (ascending : Bool) (untilKey : Option κ) :
    ∀ cache : List (κ × Option ν), (skipCacheDeletes ascending untilKey cache).length ≤ cache.length
  | [] => le_refl _
  | c :: cache => by
    rw [skipCacheDeletes]
    split
    · exact (length_skipCacheDeletes_le ascending untilKey cache).trans (Nat.le_succ _)
    · exact le_refl _

theorem cmp_swap_of_gt {ascending : Bool} {a b : κ} (h : cmp ascending a b = .gt) :
    cmp ascending b a = .lt := by
  cases ascending
  · simp only [cmp, Bool.false_eq_true, if_false] at h ⊢
    exact compare_lt_iff_lt.2 (compare_gt_iff_gt.1 h)
  · simp only [cmp, if_true] at h ⊢
    exact compare_lt_iff_lt.2 (compare_gt_iff_gt.1 h)

/-- `skipUntilExistsOrInvalid`: move both iterators until the merged one stands on an item
that exists, and return them with `Valid`. -/
def skipUntilExistsOrInvalid (ascending : Bool) :
    List (κ × ν) → List (κ × Option ν) → (List (κ × ν) × List (κ × Option ν)) × Bool
  | [], cache =>
    let cache := skipCacheDeletes ascending none cache
    (([], cache), !cache.isEmpty)
  | p :: parent, [] => ((p :: parent, []), true)
  | p :: parent, c :: cache =>
    match h : cmp ascending p.1 c.1 with
    | .lt => ((p :: parent, c :: cache), true)
    | .eq =>
      -- a delete in the cache hides the parent's item
      if c.2.isNone then skipUntilExistsOrInvalid ascending parent cache
      else ((p :: parent, c :: cache), true)
    | .gt =>
      if hc : c.2.isNone then
        skipUntilExistsOrInvalid ascending (p :: parent)
          (skipCacheDeletes ascending (some p.1) (c :: cache))
      else ((p :: parent, c :: cache), true)
termination_by parent cache => parent.length + cache.length
decreasing_by
  · simp only [List.length_cons]
    omega
  · have hskip : skipCacheDeletes ascending (some p.1) (c :: cache) =
        skipCacheDeletes ascending (some p.1) cache := by
      rw [skipCacheDeletes, if_pos (by simp [hc, cmp_swap_of_gt h])]
    rw [hskip]
    have := length_skipCacheDeletes_le ascending (some p.1) cache
    simp only [List.length_cons]
    omega

section skipEquations

variable {ascending : Bool} {p : κ × ν} {parent : List (κ × ν)} {c : κ × Option ν}
  {cache : List (κ × Option ν)}

theorem skipUntilExistsOrInvalid_nil (cache : List (κ × Option ν)) :
    skipUntilExistsOrInvalid ascending [] cache =
      (([], skipCacheDeletes ascending none cache), !(skipCacheDeletes ascending none cache).isEmpty) := by
  rw [skipUntilExistsOrInvalid]

theorem skipUntilExistsOrInvalid_cons_nil :
    skipUntilExistsOrInvalid ascending (p :: parent) [] = ((p :: parent, []), true) := by
  rw [skipUntilExistsOrInvalid]

theorem skipUntilExistsOrInvalid_of_lt (h : cmp ascending p.1 c.1 = .lt) :
    skipUntilExistsOrInvalid ascending (p :: parent) (c :: cache) =
      ((p :: parent, c :: cache), true) := by
  rw [skipUntilExistsOrInvalid]
  split <;> simp_all

theorem skipUntilExistsOrInvalid_of_eq (h : cmp ascending p.1 c.1 = .eq) :
    skipUntilExistsOrInvalid ascending (p :: parent) (c :: cache) =
      if c.2.isNone then skipUntilExistsOrInvalid ascending parent cache
      else ((p :: parent, c :: cache), true) := by
  rw [skipUntilExistsOrInvalid]
  split <;> simp_all

theorem skipUntilExistsOrInvalid_of_gt (h : cmp ascending p.1 c.1 = .gt) :
    skipUntilExistsOrInvalid ascending (p :: parent) (c :: cache) =
      if c.2.isNone then
        skipUntilExistsOrInvalid ascending (p :: parent)
          (skipCacheDeletes ascending (some p.1) (c :: cache))
      else ((p :: parent, c :: cache), true) := by
  rw [skipUntilExistsOrInvalid]
  split <;> simp_all

end skipEquations

/-- `Key` and `Value` once the iterator stands on an item that exists. They read the parent's
item when the cache is done or comes after it, and the cache's item otherwise. On a tie the
key is the parent's and the value the cache's. -/
def current (ascending : Bool) : List (κ × ν) → List (κ × Option ν) → Option (κ × Option ν)
  | [], [] => none
  | [], c :: _ => some c
  | p :: _, [] => some (p.1, some p.2)
  | p :: _, c :: _ =>
    match cmp ascending p.1 c.1 with
    | .lt => some (p.1, some p.2)
    | .eq => some (p.1, c.2)
    | .gt => some c

/-- `Next` once the iterator stands on an item that exists: the iterators at the current key
move on. -/
def advance (ascending : Bool) :
    List (κ × ν) → List (κ × Option ν) → List (κ × ν) × List (κ × Option ν)
  | [], cache => ([], cache.tail)
  | _ :: parent, [] => (parent, [])
  | p :: parent, c :: cache =>
    match cmp ascending p.1 c.1 with
    | .lt => (parent, c :: cache)
    | .eq => (parent, cache)
    | .gt => (p :: parent, cache)

/-! ## The walk

Ascending, the merge iterator walks along `<`, and descending along `>`. `cmp` answers
`.lt`, `.eq` or `.gt` as the first key comes before, at or after the second one on the walk.
-/

/-- The strict order a merge iterator walks: `<` ascending, `>` descending. -/
def walkLt : Bool → κ → κ → Prop
  | true, a, b => a < b
  | false, a, b => b < a

instance (ascending : Bool) : IsStrictOrder κ (walkLt ascending) where
  irrefl a := by
    cases ascending
    · exact lt_irrefl a
    · exact lt_irrefl a
  trans a b c := by
    cases ascending
    · exact fun hab hbc => lt_trans hbc hab
    · exact lt_trans

section walk

variable {ascending : Bool} {a b : κ}

theorem cmp_eq_lt_iff : cmp ascending a b = .lt ↔ walkLt ascending a b := by
  cases ascending
  · simp only [cmp, Bool.false_eq_true, if_false, walkLt, compare_lt_iff_lt]
  · simp only [cmp, if_true, walkLt, compare_lt_iff_lt]

theorem cmp_eq_eq_iff : cmp ascending a b = .eq ↔ a = b := by
  cases ascending
  · simp only [cmp, Bool.false_eq_true, if_false, compare_eq_iff_eq]
    exact eq_comm
  · simp only [cmp, if_true, compare_eq_iff_eq]

theorem cmp_eq_gt_iff : cmp ascending a b = .gt ↔ walkLt ascending b a := by
  cases ascending
  · simp only [cmp, Bool.false_eq_true, if_false, walkLt, compare_gt_iff_gt]
  · simp only [cmp, if_true, walkLt, compare_gt_iff_gt]

/-- A key is the walk's minimum of two heads, and another key is at or after one of them. -/
theorem eq_or_walkLt_of_heads {k x k' : κ}
    (hx : k = x ∨ walkLt ascending k x) (hk' : k' = x ∨ walkLt ascending x k') :
    k' = k ∨ walkLt ascending k k' := by
  rcases hx with rfl | hx
  · exact hk'
  · rcases hk' with rfl | hk'
    · exact Or.inr hx
    · exact Or.inr (trans_of (walkLt ascending) hx hk')

end walk

/-! ## What the skips keep -/

/-- The merge iterator stands on an item that exists. This is the state in which
`skipUntilExistsOrInvalid` returns `true`. -/
def OnItem (ascending : Bool) : List (κ × ν) → List (κ × Option ν) → Prop
  | [], [] => False
  | [], c :: _ => c.2.isSome
  | _ :: _, [] => True
  | p :: _, c :: _ => cmp ascending p.1 c.1 = .lt ∨ c.2.isSome

section skip

theorem skipCacheDeletes_suffix {ascending : Bool} (untilKey : Option κ) :
    ∀ cache : List (κ × Option ν), List.IsSuffix (skipCacheDeletes ascending untilKey cache) cache
  | [] => List.suffix_refl _
  | c :: cache => by
    rw [skipCacheDeletes]
    split
    · exact (skipCacheDeletes_suffix untilKey cache).trans (List.suffix_cons c cache)
    · exact List.suffix_refl _

/-- With no bound, the cache is left at an item that is not a delete, or at its end. -/
theorem isSome_of_skipCacheDeletes_none {ascending : Bool} {c : κ × Option ν}
    {rest : List (κ × Option ν)} :
    ∀ {cache : List (κ × Option ν)}, skipCacheDeletes ascending none cache = c :: rest →
      c.2.isSome
  | [], h => by cases h
  | d :: cache, h => by
    rw [skipCacheDeletes] at h
    split at h
    · exact isSome_of_skipCacheDeletes_none h
    · rename_i hd
      cases h
      exact Option.isSome_iff_ne_none.2 (by simpa using hd)

/-- **Skipping deletes hides nothing.** The deletes skipped come before `untilKey`, where
the parent has no key, so the view stays the same. -/
theorem view_skipCacheDeletes {ascending : Bool} {parent : List (κ × ν)} {untilKey : Option κ}
    (hP : ∀ e ∈ parent, ∃ x, untilKey = some x ∧ ¬walkLt ascending e.1 x) (k : κ) :
    ∀ {cache : List (κ × Option ν)}, Ascending (walkLt ascending) cache →
      view parent (skipCacheDeletes ascending untilKey cache) k = view parent cache k
  | [], _ => rfl
  | c :: cache, hC => by
    rw [skipCacheDeletes]
    split
    · rename_i hskip
      rw [view_skipCacheDeletes hP k hC.tail]
      obtain ⟨a, o⟩ := c
      by_cases hk : a = k
      · -- the skipped delete: its key is in neither the rest of the cache nor the parent
        subst hk
        simp only [Bool.and_eq_true, Option.isNone_iff_eq_none] at hskip
        obtain ⟨rfl, huntil⟩ := hskip
        have hhead : get a ((a, none) :: cache) = some none := by rw [get_cons, if_pos rfl]
        have htail : get a cache = none := hC.get_tail_head
        rw [view_of_get_patch hhead, view_of_get_patch_eq_none htail]
        refine get_eq_none fun e he hea => ?_
        obtain ⟨x, rfl, hx⟩ := hP e he
        simp only [Option.all_some, beq_iff_eq, cmp_eq_lt_iff] at huntil
        exact hx (hea ▸ huntil)
      · rw [view_cons_patch_of_ne hk]
    · rfl

/-- `skipUntilExistsOrInvalid` only moves the iterators forward. -/
theorem skipUntilExistsOrInvalid_suffix (ascending : Bool) (parent : List (κ × ν))
    (cache : List (κ × Option ν)) :
    List.IsSuffix (skipUntilExistsOrInvalid ascending parent cache).1.1 parent ∧
      List.IsSuffix (skipUntilExistsOrInvalid ascending parent cache).1.2 cache := by
  fun_induction skipUntilExistsOrInvalid ascending parent cache with
  | case1 cache => exact ⟨List.suffix_refl _, skipCacheDeletes_suffix none cache⟩
  | case2 p parent => exact ⟨List.suffix_refl _, List.suffix_refl _⟩
  | case3 p parent c cache => exact ⟨List.suffix_refl _, List.suffix_refl _⟩
  | case4 p parent c cache _ _ ih =>
    exact ⟨ih.1.trans (List.suffix_cons p parent), ih.2.trans (List.suffix_cons c cache)⟩
  | case5 p parent c cache => exact ⟨List.suffix_refl _, List.suffix_refl _⟩
  | case6 p parent c cache _ _ ih => exact ⟨ih.1, ih.2.trans (skipCacheDeletes_suffix _ _)⟩
  | case7 p parent c cache => exact ⟨List.suffix_refl _, List.suffix_refl _⟩

/-- **Skipping hides nothing.** `skipUntilExistsOrInvalid` leaves the view through the
iterators as it was. -/
theorem view_skipUntilExistsOrInvalid (ascending : Bool) (parent : List (κ × ν))
    (cache : List (κ × Option ν)) (hP : Ascending (walkLt ascending) parent)
    (hC : Ascending (walkLt ascending) cache) (k : κ) :
    view (skipUntilExistsOrInvalid ascending parent cache).1.1
      (skipUntilExistsOrInvalid ascending parent cache).1.2 k = view parent cache k := by
  fun_induction skipUntilExistsOrInvalid ascending parent cache with
  | case1 cache => exact view_skipCacheDeletes (fun e he => by cases he) k hC
  | case2 => rfl
  | case3 => rfl
  | case4 p parent c cache heq hdel ih =>
    -- the delete and the parent's item share a key, which neither tail has
    rw [ih hP.tail hC.tail]
    obtain ⟨a, v⟩ := p
    obtain ⟨b, o⟩ := c
    obtain rfl : a = b := cmp_eq_eq_iff.1 heq
    by_cases hk : a = k
    · subst hk
      obtain rfl : o = none := Option.isNone_iff_eq_none.1 hdel
      have hhead : get a ((a, none) :: cache) = some none := by rw [get_cons, if_pos rfl]
      rw [view_of_get_patch hhead, view_of_get_patch_eq_none hC.get_tail_head,
        hP.get_tail_head]
    · rw [view_cons_patch_of_ne hk, view_cons_base_of_ne hk]
  | case5 => rfl
  | case6 p parent c cache _ _ ih =>
    -- the deletes skipped come before the parent's key, so the parent has none of them
    rw [ih hP (hC.sublist (skipCacheDeletes_suffix (some p.1) (c :: cache)).sublist)]
    refine view_skipCacheDeletes (fun e he => ⟨p.1, rfl, ?_⟩) k hC
    rcases hP.eq_or_rel he with h | h
    · rw [h]
      exact irrefl_of (walkLt ascending) p.1
    · exact asymm_of (walkLt ascending) h
  | case7 => rfl

/-- An invalid merge iterator has run both iterators to their end. -/
theorem skipUntilExistsOrInvalid_of_false (ascending : Bool) (parent : List (κ × ν))
    (cache : List (κ × Option ν)) (h : (skipUntilExistsOrInvalid ascending parent cache).2 = false) :
    (skipUntilExistsOrInvalid ascending parent cache).1 = ([], []) := by
  fun_induction skipUntilExistsOrInvalid ascending parent cache with
  | case1 cache =>
    simp only [Bool.not_eq_false', List.isEmpty_iff] at h
    simp only [h]
  | case2 => cases h
  | case3 => cases h
  | case4 _ _ _ _ _ _ ih => exact ih h
  | case5 => cases h
  | case6 _ _ _ _ _ _ ih => exact ih h
  | case7 => cases h

/-- A valid merge iterator stands on an item that exists. -/
theorem onItem_skipUntilExistsOrInvalid (ascending : Bool) (parent : List (κ × ν))
    (cache : List (κ × Option ν)) (h : (skipUntilExistsOrInvalid ascending parent cache).2 = true) :
    OnItem ascending (skipUntilExistsOrInvalid ascending parent cache).1.1
      (skipUntilExistsOrInvalid ascending parent cache).1.2 := by
  fun_induction skipUntilExistsOrInvalid ascending parent cache with
  | case1 cache =>
    show OnItem ascending [] (skipCacheDeletes ascending none cache)
    change (!(skipCacheDeletes ascending none cache).isEmpty) = true at h
    cases hs : skipCacheDeletes ascending none cache with
    | nil =>
      rw [hs] at h
      cases h
    | cons c rest => exact isSome_of_skipCacheDeletes_none hs
  | case2 => trivial
  | case3 _ _ _ _ hlt => exact Or.inl hlt
  | case4 _ _ _ _ _ _ ih => exact ih h
  | case5 _ _ _ _ _ hdel => exact Or.inr (Option.isSome_iff_ne_none.2 (by simpa using hdel))
  | case6 _ _ _ _ _ _ ih => exact ih h
  | case7 _ _ _ _ _ hdel => exact Or.inr (Option.isSome_iff_ne_none.2 (by simpa using hdel))

/-- On an item that exists, `skipUntilExistsOrInvalid` does nothing. -/
theorem skipUntilExistsOrInvalid_of_onItem {ascending : Bool} :
    ∀ {parent : List (κ × ν)} {cache : List (κ × Option ν)}, OnItem ascending parent cache →
      skipUntilExistsOrInvalid ascending parent cache = ((parent, cache), true)
  | [], c :: cache, h => by
    have hne : c.2 ≠ none := Option.isSome_iff_ne_none.1 h
    have hkeep : skipCacheDeletes ascending none (c :: cache) = c :: cache := by
      rw [skipCacheDeletes, if_neg]
      simp [hne]
    rw [skipUntilExistsOrInvalid_nil, hkeep]
    rfl
  | _ :: _, [], _ => skipUntilExistsOrInvalid_cons_nil
  | p :: parent, c :: cache, h => by
    have hsome : cmp ascending p.1 c.1 ≠ .lt → ¬c.2.isNone := by
      intro hne
      have hs : c.2.isSome := by simpa [OnItem, hne] using h
      simpa [Option.isSome_iff_ne_none] using hs
    cases hc : cmp ascending p.1 c.1 with
    | lt => exact skipUntilExistsOrInvalid_of_lt hc
    | eq => rw [skipUntilExistsOrInvalid_of_eq hc, if_neg (hsome (by simp [hc]))]
    | gt => rw [skipUntilExistsOrInvalid_of_gt hc, if_neg (hsome (by simp [hc]))]

/-- `Key`, `Value` and `Next` run `skipUntilExistsOrInvalid` again after `Valid` has: this
second run does nothing. -/
theorem skipUntilExistsOrInvalid_idem (ascending : Bool) (parent : List (κ × ν))
    (cache : List (κ × Option ν)) (h : (skipUntilExistsOrInvalid ascending parent cache).2 = true) :
    skipUntilExistsOrInvalid ascending (skipUntilExistsOrInvalid ascending parent cache).1.1
        (skipUntilExistsOrInvalid ascending parent cache).1.2 =
      ((skipUntilExistsOrInvalid ascending parent cache).1, true) :=
  skipUntilExistsOrInvalid_of_onItem (onItem_skipUntilExistsOrInvalid ascending parent cache h)

end skip

/-! ## Standing on an item -/

section item

variable {ascending : Bool} {parent : List (κ × ν)} {cache : List (κ × Option ν)} {k : κ}
  {o : Option ν}

/-- On an item that exists, `Key` and `Value` read an entry of the view that is not a delete. -/
theorem current_of_onItem (hC : Ascending (walkLt ascending) cache)
    (h : OnItem ascending parent cache) :
    ∃ k v, current ascending parent cache = some (k, some v) ∧ view parent cache k = some v := by
  match parent, cache, h with
  | [], (b, o) :: cache, h =>
    obtain ⟨w, rfl⟩ := Option.isSome_iff_exists.1 h
    refine ⟨b, w, rfl, view_of_get_patch ?_⟩
    rw [get_cons, if_pos rfl]
  | (a, v) :: parent, [], _ =>
    refine ⟨a, v, rfl, ?_⟩
    rw [view_nil_patch, get_cons, if_pos rfl]
  | (a, v) :: parent, (b, o) :: cache, h =>
    cases hc : cmp ascending a b with
    | lt =>
      -- the parent's key comes first, and the cache does not have it
      refine ⟨a, v, by simp only [current, hc], ?_⟩
      rw [view_of_get_patch_eq_none (hC.get_eq_none_of_rel (cmp_eq_lt_iff.1 hc)), get_cons,
        if_pos rfl]
    | eq =>
      obtain rfl : a = b := cmp_eq_eq_iff.1 hc
      obtain ⟨w, rfl⟩ := Option.isSome_iff_exists.1 (by simpa [OnItem, hc] using h)
      refine ⟨a, w, by simp only [current, hc], view_of_get_patch ?_⟩
      rw [get_cons, if_pos rfl]
    | gt =>
      obtain ⟨w, rfl⟩ := Option.isSome_iff_exists.1 (by simpa [OnItem, hc] using h)
      refine ⟨b, w, by simp only [current, hc], view_of_get_patch ?_⟩
      rw [get_cons, if_pos rfl]

/-- The current key comes at or before the heads of both iterators. -/
theorem current_le_heads (hcur : current ascending parent cache = some (k, o)) :
    (∀ p ∈ parent.head?, k = p.1 ∨ walkLt ascending k p.1) ∧
      ∀ c ∈ cache.head?, k = c.1 ∨ walkLt ascending k c.1 := by
  match parent, cache, hcur with
  | [], [], hcur => cases hcur
  | [], _ :: _, hcur =>
    simp only [current, Option.some.injEq] at hcur
    subst hcur
    simp
  | _ :: _, [], hcur =>
    simp only [current, Option.some.injEq, Prod.mk.injEq] at hcur
    obtain ⟨rfl, -⟩ := hcur
    simp
  | p :: _, c :: _, hcur =>
    simp only [List.head?_cons, Option.mem_def, Option.some.injEq, forall_eq']
    cases hc : cmp ascending p.1 c.1 with
    | lt =>
      simp only [current, hc, Option.some.injEq, Prod.mk.injEq] at hcur
      obtain ⟨rfl, -⟩ := hcur
      exact ⟨Or.inl rfl, Or.inr (cmp_eq_lt_iff.1 hc)⟩
    | eq =>
      simp only [current, hc, Option.some.injEq, Prod.mk.injEq] at hcur
      obtain ⟨rfl, -⟩ := hcur
      exact ⟨Or.inl rfl, Or.inl (cmp_eq_eq_iff.1 hc)⟩
    | gt =>
      simp only [current, hc, Option.some.injEq] at hcur
      subst hcur
      exact ⟨Or.inr (cmp_eq_gt_iff.1 hc), Or.inl rfl⟩

/-- **The current item comes first.** Every key the view shows is the current key or
comes after it. -/
theorem eq_or_walkLt_of_current (hP : Ascending (walkLt ascending) parent)
    (hC : Ascending (walkLt ascending) cache) (hcur : current ascending parent cache = some (k, o))
    {k' : κ} {w : ν} (hv : view parent cache k' = some w) : k' = k ∨ walkLt ascending k k' := by
  obtain ⟨hkP, hkC⟩ := current_le_heads hcur
  rcases mem_keys_of_view hv with ⟨d, hd, rfl⟩ | ⟨e, he, rfl⟩
  · cases cache with
    | nil => cases hd
    | cons c cache => exact eq_or_walkLt_of_heads (hkC c rfl) (hC.eq_or_rel hd)
  · cases parent with
    | nil => cases he
    | cons p parent => exact eq_or_walkLt_of_heads (hkP p rfl) (hP.eq_or_rel he)

/-- **`Next` removes the current key.** After it the view is the same but for that key. -/
theorem view_advance (hP : Ascending (walkLt ascending) parent)
    (hC : Ascending (walkLt ascending) cache) (hcur : current ascending parent cache = some (k, o))
    (k' : κ) :
    view (advance ascending parent cache).1 (advance ascending parent cache).2 k' =
      if k' = k then none else view parent cache k' := by
  match parent, cache, hcur with
  | [], [], hcur => cases hcur
  | [], (b, o') :: cache, hcur =>
    simp only [current, Option.some.injEq, Prod.mk.injEq] at hcur
    obtain ⟨rfl, -⟩ := hcur
    by_cases hk : k' = b
    · subst hk
      rw [if_pos rfl]
      exact (view_of_get_patch_eq_none hC.get_tail_head).trans rfl
    · rw [if_neg hk, view_cons_patch_of_ne (Ne.symm hk)]
      rfl
  | (a, v) :: parent, [], hcur =>
    simp only [current, Option.some.injEq, Prod.mk.injEq] at hcur
    obtain ⟨rfl, -⟩ := hcur
    by_cases hk : k' = a
    · subst hk
      rw [if_pos rfl]
      exact hP.get_tail_head
    · rw [if_neg hk, view_cons_base_of_ne (Ne.symm hk)]
      rfl
  | (a, v) :: parent, (b, o') :: cache, hcur =>
    cases hc : cmp ascending a b with
    | lt =>
      simp only [current, hc, Option.some.injEq, Prod.mk.injEq] at hcur
      obtain ⟨rfl, -⟩ := hcur
      simp only [advance, hc]
      by_cases hk : k' = a
      · subst hk
        rw [if_pos rfl, view_of_get_patch_eq_none (hC.get_eq_none_of_rel (cmp_eq_lt_iff.1 hc))]
        exact hP.get_tail_head
      · rw [if_neg hk, view_cons_base_of_ne (Ne.symm hk)]
    | eq =>
      simp only [current, hc, Option.some.injEq, Prod.mk.injEq] at hcur
      obtain ⟨rfl, -⟩ := hcur
      obtain rfl : a = b := cmp_eq_eq_iff.1 hc
      simp only [advance, hc]
      by_cases hk : k' = a
      · subst hk
        rw [if_pos rfl, view_of_get_patch_eq_none hC.get_tail_head]
        exact hP.get_tail_head
      · rw [if_neg hk, view_cons_base_of_ne (Ne.symm hk), view_cons_patch_of_ne (Ne.symm hk)]
    | gt =>
      simp only [current, hc, Option.some.injEq, Prod.mk.injEq] at hcur
      obtain ⟨rfl, -⟩ := hcur
      simp only [advance, hc]
      by_cases hk : k' = b
      · subst hk
        rw [if_pos rfl, view_of_get_patch_eq_none hC.get_tail_head]
        exact hP.get_eq_none_of_rel (cmp_eq_gt_iff.1 hc)
      · rw [if_neg hk, view_cons_patch_of_ne (Ne.symm hk)]

/-- `Next` only moves the iterators forward. -/
theorem advance_suffix (ascending : Bool) (parent : List (κ × ν)) (cache : List (κ × Option ν)) :
    List.IsSuffix (advance ascending parent cache).1 parent ∧
      List.IsSuffix (advance ascending parent cache).2 cache := by
  match parent, cache with
  | [], cache => exact ⟨List.suffix_refl _, List.tail_suffix cache⟩
  | p :: parent, [] => exact ⟨List.suffix_cons p parent, List.suffix_refl _⟩
  | p :: parent, c :: cache =>
    cases hc : cmp ascending p.1 c.1 with
    | lt => simpa only [advance, hc] using ⟨List.suffix_cons p parent, List.suffix_refl _⟩
    | eq => simpa only [advance, hc] using ⟨List.suffix_cons p parent, List.suffix_cons c cache⟩
    | gt => simpa only [advance, hc] using ⟨List.suffix_refl _, List.suffix_cons c cache⟩

/-- On an item, `Next` moves at least one of the iterators. -/
theorem length_advance_lt (h : OnItem ascending parent cache) :
    (advance ascending parent cache).1.length + (advance ascending parent cache).2.length <
      parent.length + cache.length := by
  match parent, cache, h with
  | [], _ :: cache, _ => simp [advance]
  | _ :: parent, [], _ => simp [advance]
  | p :: parent, c :: cache, _ =>
    cases hc : cmp ascending p.1 c.1 with
    | lt => simp only [advance, hc, List.length_cons]; omega
    | eq => simp only [advance, hc, List.length_cons]; omega
    | gt => simp only [advance, hc, List.length_cons]; omega

end item

/-! ## Reading a merge iterator to its end -/

/-- What a consumer reads from a merge iterator to its end. While `Valid`, it reads `Key`
and `Value` and then calls `Next`. `Key`, `Value` and `Next` each run
`skipUntilExistsOrInvalid` again, which does nothing after `Valid` has run it
(`skipUntilExistsOrInvalid_idem`). -/
def items (ascending : Bool) (parent : List (κ × ν)) (cache : List (κ × Option ν)) :
    List (κ × Option ν) :=
  match h : skipUntilExistsOrInvalid ascending parent cache with
  | ((parent', cache'), true) =>
    (current ascending parent' cache').toList ++
      items ascending (advance ascending parent' cache').1 (advance ascending parent' cache').2
  | (_, false) => []
termination_by parent.length + cache.length
decreasing_by
  have hsuf := skipUntilExistsOrInvalid_suffix ascending parent cache
  have hon := onItem_skipUntilExistsOrInvalid ascending parent cache
  rw [h] at hsuf hon
  dsimp only at hsuf hon
  have := length_advance_lt (hon rfl)
  have := hsuf.1.length_le
  have := hsuf.2.length_le
  omega

/-- **The merge iterator reads the view.** Take a parent and a cache that ascend along the
walk. What a consumer reads from their merge iterator ascends along the walk too. It finds
at each key what the cache shows over the parent, and never a delete. -/
theorem items_spec (ascending : Bool) {parent : List (κ × ν)} {cache : List (κ × Option ν)}
    (hP : Ascending (walkLt ascending) parent) (hC : Ascending (walkLt ascending) cache) :
    Ascending (walkLt ascending) (items ascending parent cache) ∧
      ∀ k, get k (items ascending parent cache) = (view parent cache k).map some := by
  fun_induction items ascending parent cache with
  | case1 parent cache parent' cache' hskip ih =>
    have hsuf := skipUntilExistsOrInvalid_suffix ascending parent cache
    have hview := view_skipUntilExistsOrInvalid ascending parent cache hP hC
    have hon := onItem_skipUntilExistsOrInvalid ascending parent cache
    rw [hskip] at hsuf hview hon
    dsimp only at hsuf hview hon
    have hP' := hP.sublist hsuf.1.sublist
    have hC' := hC.sublist hsuf.2.sublist
    have hadv := advance_suffix ascending parent' cache'
    obtain ⟨hasc, hget⟩ := ih (hP'.sublist hadv.1.sublist) (hC'.sublist hadv.2.sublist)
    obtain ⟨k, v, hcur, hkv⟩ := current_of_onItem hC' (hon rfl)
    rw [hcur, Option.toList_some, List.singleton_append]
    refine ⟨ascending_cons.2 ⟨fun f hf => ?_, hasc⟩, fun k' => ?_⟩
    · -- a later item is visible after `Next`, so its key comes after the current one
      obtain ⟨a, o⟩ := f
      have hg := hget a
      rw [hasc.get_of_mem hf] at hg
      obtain ⟨w, hw, -⟩ := Option.map_eq_some_iff.1 hg.symm
      rw [view_advance hP' hC' hcur a] at hw
      by_cases hak : a = k
      · rw [if_pos hak] at hw
        cases hw
      · rw [if_neg hak] at hw
        rcases eq_or_walkLt_of_current hP' hC' hcur hw with h | h
        · exact absurd h hak
        · exact h
    · rw [get_cons, hget k', view_advance hP' hC' hcur k', ← hview k']
      by_cases hk : k = k'
      · subst hk
        rw [if_pos rfl, hkv]
        rfl
      · rw [if_neg hk, if_neg (Ne.symm hk)]
  | case2 parent cache x hskip =>
    -- an invalid iterator has run both iterators out, so nothing is visible
    have hview := view_skipUntilExistsOrInvalid ascending parent cache hP hC
    have hnil := skipUntilExistsOrInvalid_of_false ascending parent cache
    rw [hskip] at hview hnil
    refine ⟨ascending_nil, fun k => ?_⟩
    rw [← hview k, hnil rfl]
    rfl

/-! ## The domain -/

theorem isKeyInDomain_iff {key : κ} {start endKey : Option κ} :
    isKeyInDomain key start endKey = true ↔ (∀ s ∈ start, s ≤ key) ∧ ∀ e ∈ endKey, key < e := by
  cases start <;> cases endKey <;> simp [isKeyInDomain]

/-- **`newMemIterator` keeps the domain.** On a list sorted by key, the loop of
`newMemIterator` yields exactly the items of the domain. Once it has entered the domain, a key
out of it is past `end`, and so are all the keys after it. -/
theorem itemsInDomain_eq_filter {start endKey : Option κ} :
    ∀ {entered : Bool} {items : List (κ × Option ν)}, SortedMerge.Sorted items →
      (entered = true → ∀ item ∈ items, ∀ s ∈ start, s ≤ item.1) →
      itemsInDomain start endKey entered items =
        items.filter fun item => isKeyInDomain item.1 start endKey
  | _, [], _, _ => rfl
  | entered, item :: items, hs, hent => by
    rw [itemsInDomain, List.filter_cons]
    by_cases hin : isKeyInDomain item.1 start endKey = true
    · rw [if_neg (by simp [hin]), if_pos hin,
        itemsInDomain_eq_filter hs.tail fun _ i hi s hsi =>
          le_trans ((isKeyInDomain_iff.1 hin).1 s hsi) (le_of_lt (hs.head_lt hi))]
    · rw [if_pos (by simpa using hin), if_neg hin]
      cases entered
      · exact itemsInDomain_eq_filter hs.tail (fun h => by cases h)
      · -- past `end`: nothing after it is in the domain
        rw [if_pos rfl]
        have hstart := hent rfl item List.mem_cons_self
        cases endKey with
        | none => exact absurd (isKeyInDomain_iff.2 ⟨hstart, by simp⟩) hin
        | some e =>
          have hend : e ≤ item.1 :=
            not_lt.1 fun hlt => hin (isKeyInDomain_iff.2 ⟨hstart, by simpa using hlt⟩)
          refine (List.filter_eq_nil_iff.2 fun i hi hin' => ?_).symm
          have hlt := (isKeyInDomain_iff.1 hin').2 e rfl
          exact absurd (lt_of_le_of_lt hend (hs.head_lt hi)) (not_lt.2 (le_of_lt hlt))

end CacheKV
