import Bhchain.Openswap.Orderbook
import Bhchain.Lib.SortedTree
import Bhchain.Lib.Transition
import Mathlib.Data.Prod.Lex

/-!
# The order book's three indexes (`x/openswap/orderbook`)

`Orderbook.lean` reads the two orderings of a book off its map of orders
by ID, and the matching modules use that reading. The code keeps three
indexes instead, updated together by `AddOrder` and `DelOrder`: the map
`idToOrder`, a red-black tree `ordersByPrice` under `compareOrderByPrice`,
and a red-black tree `ordersByExpiredTime` under
`compareOrderByExpiredTime`, which holds only the orders that expire
(`ExpiredTime ≥ 0`). This module models the three (each tree as its keys
in order, `SortedTree`) and proves that they stay one book: the trees hold
exactly the orders of the map, in the orders their comparators mean, so
that the iterators and `GetExpiredOrder` return what `Orderbook.lean` reads
off the map (`refines_book`). The invariant is `Orderbook.WF`, kept by each
call (`WF.addOrder`, `WF.delOrder`) and so by every run (`wf_run`).

Both facts rest on the comparators being strict total orders on the
orders a book is given, and neither comparator is one on all orders:

* `compareOrderByPrice` answers zero for two orders of one ID whatever
  their prices, so it orders only orders whose IDs tell them apart, and
  the book must never be given two different orders of one ID;
* `compareOrderByExpiredTime` subtracts two `int64` expiry times, which
  wraps for times of opposite signs far apart; the tree only ever
  compares times `≥ 0`, whose difference always fits.
-/

namespace Openswap

open Sdk KVStore SortedTree Transition

/-! ## The two orders of a book -/

namespace Order

/-- What `LessThan` compares: the price, then the creation time, then the
ID. -/
def priceKey (o : Order) : Lex (ℤ × Lex (ℤ × String)) := toLex (o.price.val, toLex (o.createdTime, o.orderID))

/-- What `compareOrderByExpiredTime` compares: the expiry time, then the
ID. -/
def expiryKey (o : Order) : Lex (ℤ × String) := toLex (o.expiredTime, o.orderID)

theorem lessThan_iff (o o₂ : Order) : o.lessThan o₂ = true ↔ o.priceKey < o₂.priceKey := by
  unfold lessThan priceKey Dec.equal Dec.lt
  simp only [Prod.Lex.toLex_lt_toLex]
  split_ifs with hp hc
  · simp_all
  · simp_all
  · simp only [decide_eq_true_eq] at hp ⊢
    constructor
    · exact Or.inl
    · rintro (h | ⟨h, -⟩)
      · exact h
      · exact absurd h hp

theorem expiresBefore_iff (o o₂ : Order) : o.expiresBefore o₂ = true ↔ o.expiryKey < o₂.expiryKey := by
  unfold expiresBefore expiryKey
  simp only [Prod.Lex.toLex_lt_toLex]
  split_ifs with he
  · simp [he]
  · simp [he]

theorem priceKey_injective_of_orderID {o o₂ : Order} (h : o.priceKey = o₂.priceKey) :
    o.orderID = o₂.orderID := by
  unfold priceKey at h
  simp only [toLex_inj, Prod.mk.injEq] at h
  exact h.2.2

theorem expiryKey_eq_iff {o o₂ : Order} :
    o.expiryKey = o₂.expiryKey ↔ o.expiredTime = o₂.expiredTime ∧ o.orderID = o₂.orderID := by
  unfold expiryKey
  simp only [toLex_inj, Prod.mk.injEq]

end Order

/-- **The orders a book may be given**: no two of one ID, and expiry times
that fit an `int64`. -/
structure Admissible (S : Set Order) : Prop where
  orderID_injOn : Set.InjOn Order.orderID S
  expiredTime_lt : ∀ o ∈ S, o.expiredTime < 2 ^ 63

namespace Trees

/-! ## The comparators -/

/-- `strings.Compare`. -/
def stringsCompare (a b : String) : ℤ := if a = b then 0 else if a < b then -1 else 1

/-- **`compareOrderByPrice`**: zero on one ID, otherwise by `LessThan`. -/
def compareOrderByPrice (l r : Order) : ℤ :=
  if l.orderID = r.orderID then 0 else if l.lessThan r then -1 else 1

/-- **`compareOrderByExpiredTime`**: by ID on one expiry time, otherwise the
`int64` difference of the times. -/
def compareOrderByExpiredTime (l r : Order) : ℤ :=
  if l.expiredTime = r.expiredTime then stringsCompare l.orderID r.orderID
  else (l.expiredTime - r.expiredTime).bmod (2 ^ 64)

/-- Below zero exactly when the first key is smaller. -/
theorem compareOrderByPrice_neg_iff {l r : Order} (h : l.orderID ≠ r.orderID) :
    compareOrderByPrice l r < 0 ↔ l.priceKey < r.priceKey := by
  unfold compareOrderByPrice
  rw [if_neg h, ← Order.lessThan_iff]
  split_ifs with hlt <;> simp [hlt]

/-- Two `int64` times `≥ 0` subtract without wrapping. -/
theorem bmod_sub_of_nonneg {a b : ℤ} (ha : 0 ≤ a) (ha' : a < 2 ^ 63) (hb : 0 ≤ b) (hb' : b < 2 ^ 63) :
    (a - b).bmod (2 ^ 64) = a - b :=
  Int.bmod_eq_of_le (by push_cast; omega) (by push_cast; omega)

/-- On expiry times `≥ 0` the comparator is below zero exactly when the
first key is smaller. -/
theorem compareOrderByExpiredTime_neg_iff {l r : Order}
    (hl : 0 ≤ l.expiredTime ∧ l.expiredTime < 2 ^ 63) (hr : 0 ≤ r.expiredTime ∧ r.expiredTime < 2 ^ 63) :
    compareOrderByExpiredTime l r < 0 ↔ l.expiryKey < r.expiryKey := by
  unfold compareOrderByExpiredTime Order.expiryKey stringsCompare
  simp only [Prod.Lex.toLex_lt_toLex]
  split_ifs with he hid hlt
  · simp [he, hid]
  · simp [he, hlt]
  · -- one time, and the first ID is not the smaller
    simp only [he, lt_self_iff_false, true_and, false_or]
    exact iff_of_false (by omega) hlt
  · rw [bmod_sub_of_nonneg hl.1 hl.2 hr.1 hr.2]
    simp only [he, false_and, or_false]
    omega

/-- `compareOrderByPrice` is zero exactly on one ID. -/
theorem compareOrderByPrice_eq_zero_iff (l r : Order) :
    compareOrderByPrice l r = 0 ↔ l.orderID = r.orderID := by
  unfold compareOrderByPrice
  split_ifs <;> simp_all

/-- On expiry times `≥ 0`, `compareOrderByExpiredTime` is zero exactly on
equal keys. -/
theorem compareOrderByExpiredTime_eq_zero_iff {l r : Order}
    (hl : 0 ≤ l.expiredTime ∧ l.expiredTime < 2 ^ 63) (hr : 0 ≤ r.expiredTime ∧ r.expiredTime < 2 ^ 63) :
    compareOrderByExpiredTime l r = 0 ↔ l.expiryKey = r.expiryKey := by
  rw [Order.expiryKey_eq_iff]
  unfold compareOrderByExpiredTime stringsCompare
  split_ifs with he hid hlt
  · simp [he, hid]
  · simp [he, hid]
  · simp [he, hid]
  · -- different times: their difference is not zero
    rw [bmod_sub_of_nonneg hl.1 hl.2 hr.1 hr.2]
    simp only [he, false_and, iff_false]
    omega

/-- The orders of `S` that go into the expiry tree. -/
def expiring (S : Set Order) : Set Order := {o | o ∈ S ∧ 0 ≤ o.expiredTime}

/-- **`compareOrderByPrice` is a strict total order on the orders a book may
be given**: the order of their price keys. -/
theorem lawfulOn_compareOrderByPrice {S : Set Order} (hS : Admissible S) :
    LawfulOn compareOrderByPrice S := by
  have hinj : Set.InjOn Order.priceKey S := fun a ha b hb h =>
    hS.orderID_injOn ha hb (Order.priceKey_injective_of_orderID h)
  refine LawfulOn.of_key Order.priceKey hinj (fun a ha b hb => ?_) (fun a ha b hb => ?_)
  · by_cases hid : a.orderID = b.orderID
    · -- one ID: one order, below neither itself
      obtain rfl := hS.orderID_injOn ha hb hid
      simp [compareOrderByPrice]
    · exact compareOrderByPrice_neg_iff hid
  · rw [compareOrderByPrice_eq_zero_iff]
    exact ⟨fun h => congrArg _ (hS.orderID_injOn ha hb h), Order.priceKey_injective_of_orderID⟩

/-- **`compareOrderByExpiredTime` is a strict total order on the orders a
book puts in its expiry tree**: the order of their expiry keys. -/
theorem lawfulOn_compareOrderByExpiredTime {S : Set Order} (hS : Admissible S) :
    LawfulOn compareOrderByExpiredTime (expiring S) := by
  have hrange : ∀ o ∈ expiring S, 0 ≤ o.expiredTime ∧ o.expiredTime < 2 ^ 63 :=
    fun o ho => ⟨ho.2, hS.expiredTime_lt o ho.1⟩
  have hinj : Set.InjOn Order.expiryKey (expiring S) := fun a ha b hb h =>
    hS.orderID_injOn ha.1 hb.1 (Order.expiryKey_eq_iff.mp h).2
  exact LawfulOn.of_key Order.expiryKey hinj
    (fun a ha b hb => compareOrderByExpiredTime_neg_iff (hrange a ha) (hrange b hb))
    (fun a ha b hb => compareOrderByExpiredTime_eq_zero_iff (hrange a ha) (hrange b hb))

/-! ## The book -/

/-- **`Orderbook`**, each tree as its keys in order. -/
structure Orderbook where
  ordersByPrice : List Order
  ordersByExpiredTime : List Order
  idToOrder : Store String Order

namespace Orderbook

/-- `NewOrderbook`. -/
def new : Orderbook := ⟨[], [], .empty⟩

/-- **`AddOrder`**: into the price tree, into the expiry tree if it
expires, and into the map under its ID. -/
def addOrder (o : Orderbook) (order : Order) : Orderbook where
  ordersByPrice := put compareOrderByPrice order o.ordersByPrice
  ordersByExpiredTime :=
    if 0 ≤ order.expiredTime then put compareOrderByExpiredTime order o.ordersByExpiredTime
    else o.ordersByExpiredTime
  idToOrder := o.idToOrder.set order.orderID order

/-- **`DelOrder`**: the order the map has under the ID leaves the trees it
is in, and the map. -/
def delOrder (o : Orderbook) (orderID : String) : Orderbook :=
  match o.idToOrder.get orderID with
  | none => o
  | some order =>
    { ordersByPrice := remove compareOrderByPrice order o.ordersByPrice
      ordersByExpiredTime :=
        if 0 ≤ order.expiredTime then remove compareOrderByExpiredTime order o.ordersByExpiredTime
        else o.ordersByExpiredTime
      idToOrder := o.idToOrder.delete orderID }

/-- **`GetExpiredOrder`**: the expiry tree in order, up to the first order
that expires after `currentTime`. -/
def getExpiredOrder (o : Orderbook) (currentTime : ℤ) : List Order :=
  o.ordersByExpiredTime.takeWhile fun order => !decide (order.expiredTime > currentTime)

/-- `Iterator`: the price tree in order. -/
def iterator (o : Orderbook) : List Order := o.ordersByPrice

/-- `ReverseIterator`: the price tree from its end. -/
def reverseIterator (o : Orderbook) : List Order := o.ordersByPrice.reverse

/-- What `Orderbook.lean` keeps of a book: the map. -/
def toBook (o : Orderbook) : Openswap.Orderbook := ⟨o.idToOrder⟩

/-- The book holds an order: the map has it under its ID. -/
def Holds (o : Orderbook) (order : Order) : Prop := o.idToOrder.get order.orderID = some order

end Orderbook

/-- The calls that change a book. -/
inductive Call where
  | addOrder (order : Order)
  | delOrder (orderID : String)

/-- A call on a book. -/
def step (o : Orderbook) : Call → Orderbook
  | .addOrder order => o.addOrder order
  | .delOrder orderID => o.delOrder orderID

/-- The same call on the book of `Orderbook.lean`. -/
def bookStep (b : Openswap.Orderbook) : Call → Openswap.Orderbook
  | .addOrder order => b.addOrder order
  | .delOrder orderID => b.delOrder orderID

/-- The orders a run of calls gives the book. -/
def added (cs : List Call) : List Order :=
  cs.filterMap fun
    | .addOrder order => some order
    | .delOrder _ => none

/-! ## The three indexes agree -/

namespace Orderbook

/-- **The three indexes agree**: the map holds each order under its own
ID, and only orders of `S`; the price tree holds exactly the orders of the
map and the expiry tree exactly those that expire, each sorted by its
comparator. -/
structure WF (S : Set Order) (o : Orderbook) : Prop where
  orderID_eq : ∀ id order, o.idToOrder.get id = some order → order.orderID = id
  mem_S : ∀ id order, o.idToOrder.get id = some order → order ∈ S
  sorted_byPrice : Sorted compareOrderByPrice o.ordersByPrice
  mem_byPrice : ∀ order, order ∈ o.ordersByPrice ↔ o.Holds order
  sorted_byExpiry : Sorted compareOrderByExpiredTime o.ordersByExpiredTime
  mem_byExpiry : ∀ order, order ∈ o.ordersByExpiredTime ↔ o.Holds order ∧ 0 ≤ order.expiredTime

variable {S : Set Order} {o : Orderbook}

theorem wf_new : WF S new where
  orderID_eq _ _ h := by simp [new] at h
  mem_S _ _ h := by simp [new] at h
  sorted_byPrice := sorted_nil
  mem_byPrice _ := by simp [new, Holds]
  sorted_byExpiry := sorted_nil
  mem_byExpiry _ := by simp [new, Holds]

theorem WF.byPrice_subset (hw : WF S o) : ∀ b ∈ o.ordersByPrice, b ∈ S :=
  fun b hb => hw.mem_S _ b ((hw.mem_byPrice b).mp hb)

theorem WF.byExpiry_subset (hw : WF S o) : ∀ b ∈ o.ordersByExpiredTime, b ∈ expiring S := by
  intro b hb
  obtain ⟨hheld, hexp⟩ := (hw.mem_byExpiry b).mp hb
  exact ⟨hw.mem_S _ b hheld, hexp⟩

/-- Two orders of `S` the book holds under one ID are one order. -/
theorem WF.eq_of_holds (hw : WF S o) (hS : Admissible S) {x order : Order} (hx : o.Holds x)
    (ho : order ∈ S) (hid : x.orderID = order.orderID) : x = order :=
  hS.orderID_injOn (hw.mem_S _ x hx) ho hid

/-! ### `AddOrder` -/

/-- After `AddOrder` the book holds the order and what it held. -/
theorem WF.holds_addOrder (hw : WF S o) (hS : Admissible S) {order : Order} (ho : order ∈ S)
    (x : Order) : (o.addOrder order).Holds x ↔ x = order ∨ o.Holds x := by
  show (o.idToOrder.set order.orderID order).get x.orderID = some x ↔ _
  rw [Store.get_set]
  by_cases hid : x.orderID = order.orderID
  · -- one ID: whatever the book held under it was this order
    rw [if_pos hid, Option.some.injEq]
    exact ⟨fun h => Or.inl h.symm, fun h => (h.elim id (hw.eq_of_holds hS · ho hid)).symm⟩
  · rw [if_neg hid]
    exact ⟨Or.inr, fun h => h.resolve_left fun hx => hid (hx ▸ rfl)⟩

/-- **`AddOrder` keeps the indexes in agreement.** -/
theorem WF.addOrder (hw : WF S o) (hS : Admissible S) {order : Order} (ho : order ∈ S) :
    WF S (o.addOrder order) where
  orderID_eq id x h := by
    rw [show (o.addOrder order).idToOrder = o.idToOrder.set order.orderID order from rfl,
      Store.get_set] at h
    split_ifs at h with hid
    · exact (Option.some.inj h) ▸ hid.symm
    · exact hw.orderID_eq id x h
  mem_S id x h := by
    rw [show (o.addOrder order).idToOrder = o.idToOrder.set order.orderID order from rfl,
      Store.get_set] at h
    split_ifs at h
    · exact (Option.some.inj h) ▸ ho
    · exact hw.mem_S id x h
  sorted_byPrice := (lawfulOn_compareOrderByPrice hS).sorted_put ho hw.sorted_byPrice hw.byPrice_subset
  mem_byPrice x := by
    rw [hw.holds_addOrder hS ho, ← hw.mem_byPrice x]
    exact (lawfulOn_compareOrderByPrice hS).mem_put ho hw.byPrice_subset x
  sorted_byExpiry := by
    show Sorted _ (if 0 ≤ order.expiredTime then _ else _)
    split_ifs with he
    · exact (lawfulOn_compareOrderByExpiredTime hS).sorted_put ⟨ho, he⟩ hw.sorted_byExpiry
        hw.byExpiry_subset
    · exact hw.sorted_byExpiry
  mem_byExpiry x := by
    show x ∈ (if 0 ≤ order.expiredTime then _ else _) ↔ _
    rw [hw.holds_addOrder hS ho]
    split_ifs with he
    · -- the order joins the tree, and it expires
      rw [(lawfulOn_compareOrderByExpiredTime hS).mem_put ⟨ho, he⟩ hw.byExpiry_subset x,
        hw.mem_byExpiry x]
      constructor
      · rintro (rfl | ⟨hx, hxe⟩)
        · exact ⟨Or.inl rfl, he⟩
        · exact ⟨Or.inr hx, hxe⟩
      · rintro ⟨rfl | hx, hxe⟩
        · exact Or.inl rfl
        · exact Or.inr ⟨hx, hxe⟩
    · -- the order does not expire, so the tree is right without it
      rw [hw.mem_byExpiry x]
      constructor
      · rintro ⟨hx, hxe⟩
        exact ⟨Or.inr hx, hxe⟩
      · rintro ⟨rfl | hx, hxe⟩
        · exact absurd hxe he
        · exact ⟨hx, hxe⟩

/-! ### `DelOrder` -/

/-- After `DelOrder` the book holds what it held under the other IDs. -/
theorem holds_delOrder (o : Orderbook) (orderID : String) (x : Order) :
    (o.delOrder orderID).Holds x ↔ o.Holds x ∧ x.orderID ≠ orderID := by
  unfold delOrder
  split
  · -- nothing under the ID, so nothing held is under it
    rename_i hnone
    refine ⟨fun hx => ⟨hx, fun hid => ?_⟩, fun h => h.1⟩
    rw [Holds, hid, hnone] at hx
    cases hx
  · show (o.idToOrder.delete orderID).get x.orderID = some x ↔ _
    rw [Store.get_delete]
    split_ifs with hid
    · simp [hid]
    · simp [Holds, hid]

/-- A held order is the one under an ID exactly when it has that ID. -/
theorem WF.ne_iff (hw : WF S o) {orderID : String} {order x : Order}
    (horder : o.idToOrder.get orderID = some order) (hx : o.Holds x) :
    x ≠ order ↔ x.orderID ≠ orderID := by
  constructor
  · intro hne hid
    rw [Holds, hid, horder] at hx
    exact hne (Option.some.inj hx).symm
  · rintro hid rfl
    exact hid (hw.orderID_eq _ _ horder)

/-- **`DelOrder` keeps the indexes in agreement.** -/
theorem WF.delOrder (hw : WF S o) (hS : Admissible S) (orderID : String) :
    WF S (o.delOrder orderID) := by
  have hheld := holds_delOrder o orderID
  unfold Orderbook.delOrder at hheld ⊢
  split
  · exact hw
  · rename_i order horder
    rw [horder] at hheld
    have hoS : order ∈ S := hw.mem_S _ _ horder
    refine ⟨fun id x h => ?_, fun id x h => ?_, ?_, fun x => ?_, ?_, fun x => ?_⟩
    · rw [Store.get_delete] at h
      split_ifs at h
      exact hw.orderID_eq id x h
    · rw [Store.get_delete] at h
      split_ifs at h
      exact hw.mem_S id x h
    · exact hw.sorted_byPrice.remove order
    · rw [hheld x, (lawfulOn_compareOrderByPrice hS).mem_remove hoS hw.sorted_byPrice
        hw.byPrice_subset x, hw.mem_byPrice x]
      exact and_congr_right (hw.ne_iff horder)
    · show Sorted _ (if 0 ≤ order.expiredTime then _ else _)
      split_ifs
      · exact hw.sorted_byExpiry.remove order
      · exact hw.sorted_byExpiry
    · show x ∈ (if 0 ≤ order.expiredTime then _ else _) ↔ _
      rw [hheld x]
      split_ifs with he
      · rw [(lawfulOn_compareOrderByExpiredTime hS).mem_remove ⟨hoS, he⟩ hw.sorted_byExpiry
          hw.byExpiry_subset x, hw.mem_byExpiry x]
        constructor
        · rintro ⟨⟨hx, hxe⟩, hne⟩
          exact ⟨⟨hx, (hw.ne_iff horder hx).mp hne⟩, hxe⟩
        · rintro ⟨⟨hx, hid⟩, hxe⟩
          exact ⟨⟨hx, hxe⟩, (hw.ne_iff horder hx).mpr hid⟩
      · -- the order was not in the expiry tree, nor is any other of its ID
        rw [hw.mem_byExpiry x]
        constructor
        · rintro ⟨hx, hxe⟩
          refine ⟨⟨hx, (hw.ne_iff horder hx).mp ?_⟩, hxe⟩
          rintro rfl
          exact he hxe
        · rintro ⟨⟨hx, -⟩, hxe⟩
          exact ⟨hx, hxe⟩

end Orderbook

/-! ## Over every run -/

theorem Orderbook.WF.step {S : Set Order} {o : Orderbook} (hw : o.WF S) (hS : Admissible S)
    (c : Call) (hc : ∀ order ∈ added [c], order ∈ S) : (step o c).WF S := by
  cases c with
  | addOrder order => exact hw.addOrder hS (hc order (by simp [added]))
  | delOrder orderID => exact hw.delOrder hS orderID

/-- **A run of calls keeps the indexes in agreement**, when the orders it
adds are ones a book may be given. -/
theorem wf_run {S : Set Order} (hS : Admissible S) (cs : List Call)
    (hcs : ∀ order ∈ added cs, order ∈ S) : (run step Orderbook.new cs).WF S := by
  refine run_invariant_of_mem cs (fun o c hc hw => hw.step hS c fun order ho => hcs order ?_)
    Orderbook.wf_new
  simp only [added, List.mem_filterMap] at ho ⊢
  obtain ⟨c', hc', hsome⟩ := ho
  exact ⟨c', List.mem_singleton.mp hc' ▸ hc, hsome⟩

/-! ## What the iterators and `GetExpiredOrder` return -/

theorem lessThan_of_compareOrderByPrice_neg {a b : Order} (h : compareOrderByPrice a b < 0) :
    a.lessThan b = true := by
  have hid : a.orderID ≠ b.orderID := fun hid => by
    rw [(compareOrderByPrice_eq_zero_iff a b).mpr hid] at h
    exact lt_irrefl 0 h
  exact (Order.lessThan_iff a b).mpr ((compareOrderByPrice_neg_iff hid).mp h)

theorem expiresBefore_of_compareOrderByExpiredTime_neg {S : Set Order} (hS : Admissible S)
    {a b : Order} (ha : a ∈ expiring S) (hb : b ∈ expiring S) (h : compareOrderByExpiredTime a b < 0) :
    a.expiresBefore b = true :=
  (Order.expiresBefore_iff a b).mpr ((compareOrderByExpiredTime_neg_iff
    ⟨ha.2, hS.expiredTime_lt a ha.1⟩ ⟨hb.2, hS.expiredTime_lt b hb.1⟩).mp h)

namespace Orderbook

variable {S : Set Order} {o : Orderbook}

/-- The orders `Orderbook.lean` reads off a book are the orders it holds. -/
theorem WF.mem_orders (hw : WF S o) (x : Order) : x ∈ o.toBook.orders ↔ o.Holds x := by
  show x ∈ o.idToOrder.entries.map Prod.snd ↔ _
  rw [List.mem_map]
  constructor
  · rintro ⟨⟨id, y⟩, he, rfl⟩
    have hget := Store.mem_iff_get.mp he
    rw [Holds, hw.orderID_eq id y hget]
    exact hget
  · intro hx
    exact ⟨(x.orderID, x), Store.mem_iff_get.mpr hx, rfl⟩

theorem WF.nodup_orders (hw : WF S o) : o.toBook.orders.Nodup := by
  refine List.Nodup.map_on (fun e he f hf hef => ?_) ?_
  · -- an order is held under its own ID only
    have he' := hw.orderID_eq _ _ (Store.mem_iff_get.mp he)
    have hf' := hw.orderID_eq _ _ (Store.mem_iff_get.mp hf)
    exact Prod.ext (he'.symm.trans ((congrArg Order.orderID hef).trans hf')) hef
  · -- the entries are strictly increasing in key
    refine List.Pairwise.imp (fun {e f} h hef => ?_) o.idToOrder.sorted
    subst hef
    exact lt_irrefl _ h

/-- **The price tree holds exactly the orders of the map.** -/
theorem WF.perm_byPrice (hw : WF S o) (hS : Admissible S) : o.ordersByPrice.Perm o.toBook.orders := by
  have hnd : o.ordersByPrice.Nodup := List.Pairwise.imp_of_mem (fun ha hb hab =>
    (lawfulOn_compareOrderByPrice hS).ne_of_neg (hw.byPrice_subset _ ha) (hw.byPrice_subset _ hb) hab)
    hw.sorted_byPrice
  exact (List.perm_ext_iff_of_nodup hnd hw.nodup_orders).mpr fun x =>
    (hw.mem_byPrice x).trans (hw.mem_orders x).symm

/-- **The expiry tree holds exactly the orders of the map that expire.** -/
theorem WF.perm_byExpiry (hw : WF S o) (hS : Admissible S) :
    o.ordersByExpiredTime.Perm (o.toBook.orders.filter fun x => 0 ≤ x.expiredTime) := by
  have hnd : o.ordersByExpiredTime.Nodup := List.Pairwise.imp_of_mem (fun ha hb hab =>
    (lawfulOn_compareOrderByExpiredTime hS).ne_of_neg (hw.byExpiry_subset _ ha)
      (hw.byExpiry_subset _ hb) hab) hw.sorted_byExpiry
  refine (List.perm_ext_iff_of_nodup hnd (hw.nodup_orders.filter _)).mpr fun x => ?_
  rw [hw.mem_byExpiry x, List.mem_filter, hw.mem_orders x, decide_eq_true_iff]

/-- **`Iterator` yields the orders strictly ascending in `LessThan`.** -/
theorem WF.pairwise_iterator (hw : WF S o) : o.iterator.Pairwise fun a b => a.lessThan b = true :=
  List.Pairwise.imp lessThan_of_compareOrderByPrice_neg hw.sorted_byPrice

theorem WF.pairwise_byExpiry (hw : WF S o) (hS : Admissible S) :
    o.ordersByExpiredTime.Pairwise fun a b => a.expiresBefore b = true :=
  List.Pairwise.imp_of_mem (fun ha hb hab => expiresBefore_of_compareOrderByExpiredTime_neg hS
    (hw.byExpiry_subset _ ha) (hw.byExpiry_subset _ hb) hab) hw.sorted_byExpiry

theorem lessThan_asymm (a b : Order) (h : a.lessThan b = true) : ¬ b.lessThan a = true := by
  rw [Order.lessThan_iff] at h ⊢
  exact lt_asymm h

theorem expiresBefore_asymm (a b : Order) (h : a.expiresBefore b = true) :
    ¬ b.expiresBefore a = true := by
  rw [Order.expiresBefore_iff] at h ⊢
  exact lt_asymm h

/-- A call does to the map what the same call does to the book of
`Orderbook.lean`. -/
theorem toBook_step (o : Orderbook) (c : Call) : (step o c).toBook = bookStep o.toBook c := by
  cases c with
  | addOrder order => rfl
  | delOrder orderID =>
    show (o.delOrder orderID).toBook = ⟨o.idToOrder.delete orderID⟩
    unfold delOrder
    split
    · -- nothing to delete: the map is as it was
      rename_i hnone
      exact congrArg Openswap.Orderbook.mk (Store.delete_of_get_eq_none hnone).symm
    · rfl

theorem toBook_run (o : Orderbook) (cs : List Call) :
    (run step o cs).toBook = run bookStep o.toBook cs :=
  run_simulation (R := fun (o : Orderbook) (b : Openswap.Orderbook) => o.toBook = b)
    (fun o _ c h => by rw [toBook_step, h]) cs rfl

/-- `Iterator` is what `byPrice` reads off the map. -/
theorem WF.iterator_eq_byPrice (hw : WF S o) (hS : Admissible S) : o.iterator = o.toBook.byPrice :=
  (insertionSort_eq_of_perm lessThan_asymm (hw.perm_byPrice hS).symm hw.pairwise_iterator).symm

/-- `GetExpiredOrder` is what `getExpiredOrder` reads off the map. -/
theorem WF.getExpiredOrder_eq_book (hw : WF S o) (hS : Admissible S) (currentTime : ℤ) :
    o.getExpiredOrder currentTime = o.toBook.getExpiredOrder currentTime := by
  have hsort : (o.toBook.orders.filter fun x => 0 ≤ x.expiredTime).insertionSort
      (fun a b => a.expiresBefore b = true) = o.ordersByExpiredTime :=
    insertionSort_eq_of_perm expiresBefore_asymm (hw.perm_byExpiry hS).symm (hw.pairwise_byExpiry hS)
  unfold getExpiredOrder Openswap.Orderbook.getExpiredOrder
  rw [hsort]
  -- the walk's test and the abstract one are the same
  congr 1
  funext x
  by_cases h : x.expiredTime ≤ currentTime
  · simp [h]
  · simp [h, lt_of_not_ge h]

end Orderbook

/-- **The three indexes refine the book `Orderbook.lean` reads.** After a
run of calls whose orders a book may be given, `Iterator`,
`ReverseIterator` and `GetExpiredOrder` return what `byPrice`,
`byPriceReverse` and `getExpiredOrder` read off the map after the same
calls. -/
theorem refines_book (cs : List Call) (hS : Admissible {order | order ∈ added cs}) :
    (run step Orderbook.new cs).iterator = (run bookStep Openswap.Orderbook.empty cs).byPrice ∧
      (run step Orderbook.new cs).reverseIterator =
        (run bookStep Openswap.Orderbook.empty cs).byPriceReverse ∧
      ∀ currentTime, (run step Orderbook.new cs).getExpiredOrder currentTime =
        (run bookStep Openswap.Orderbook.empty cs).getExpiredOrder currentTime := by
  have hw := wf_run hS cs fun _ h => h
  have hbook : (run step Orderbook.new cs).toBook = run bookStep Openswap.Orderbook.empty cs :=
    Orderbook.toBook_run Orderbook.new cs
  rw [← hbook]
  refine ⟨hw.iterator_eq_byPrice hS, ?_, hw.getExpiredOrder_eq_book hS⟩
  rw [Orderbook.reverseIterator, Openswap.Orderbook.byPriceReverse, ← hw.iterator_eq_byPrice hS]
  rfl

end Trees

end Openswap
