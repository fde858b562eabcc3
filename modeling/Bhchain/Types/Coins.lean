import Mathlib
import Bhchain.Lib.SortedMerge
import Bhchain.Types.Errors

/-!
# Coins (`types/coin.go`)

A `Coin` is a denomination and an amount; `Coins` is a list of coins
sorted by denomination with positive amounts, one per denomination. The
arithmetic of `Coins` is the merging arithmetic of `SortedMerge`, at
`String` denominations (ordered as Go's `strings.Compare` orders them:
lexicographically by code point) and integer amounts. Amounts are
`sdk.Int`, which is an integer that panics beyond 255 bits; the model uses
`ℤ` and leaves the overflow panic out.

Where the Go code panics – `NewCoin` on a bad denomination or a negative
amount, `Sub` on a negative difference – the model returns the panic as a
`Failure`, so that a caller can state that the panic is not reached.
-/

namespace Sdk

/-- A denomination (`Coin.Denom`, a token symbol). -/
abbrev Denom := String

/-- **`sdk.Coin`**: a denomination and an amount. -/
abbrev Coin := Denom × ℤ

/-- **`sdk.Coins`**: coins sorted by denomination. -/
abbrev Coins := List Coin

/-- `validateDenom`: the denomination matches `[a-zA-Z0-9]{2,40}`. -/
def validDenom (d : Denom) : Bool :=
  decide (2 ≤ d.length) && decide (d.length ≤ 40) && d.toList.all Char.isAlphanum

/-- `Coin.IsValid`: a valid denomination and a non-negative amount. -/
def Coin.isValid (c : Coin) : Bool := validDenom c.1 && decide (0 ≤ c.2)

/-- The native token's symbol (`sdk.NativeToken`). -/
def nativeToken : Denom := "hbc"

/-- The panic of `Coins.Sub`. -/
def negativeCoinAmount : Failure := .panic "negative coin amount"

/-- **`NewCoin`**: panics on an invalid denomination or a negative amount. -/
def newCoin (denom : Denom) (amount : ℤ) : Except Failure Coin :=
  if !validDenom denom then .error (.panic "invalid denom: %s")
  else if amount < 0 then .error (.panic "negative coin amount: %v")
  else .ok (denom, amount)

/-- What `NewCoin` builds when it does not panic. -/
theorem newCoin_eq_ok {denom : Denom} {amount : ℤ} {c : Coin} :
    newCoin denom amount = .ok c ↔ validDenom denom = true ∧ 0 ≤ amount ∧ c = (denom, amount) := by
  unfold newCoin
  by_cases hd : validDenom denom = true
  · by_cases ha : amount < 0
    · simp [hd, ha]
    · simp only [hd, ha, Bool.not_true, Bool.false_eq_true, if_false, Except.ok.injEq, true_and]
      exact ⟨fun h => ⟨not_lt.mp ha, h.symm⟩, fun h => h.2.symm⟩
  · simp [hd]

/-- `NewCoin` panics, but never with the panic of `Sub`. -/
theorem newCoin_ne_negativeCoinAmount (denom : Denom) (amount : ℤ) :
    newCoin denom amount ≠ .error negativeCoinAmount := by
  unfold newCoin negativeCoinAmount
  split
  · simp
  · split <;> simp

/-- An `sdk.Error` is not the panic of `Sub`. -/
theorem error_ne_negativeCoinAmount (code : CodeType) (msg : String) :
    Failure.error code msg ≠ negativeCoinAmount := by
  simp [negativeCoinAmount]

theorem nilPointerDereference_ne_negativeCoinAmount : nilPointerDereference ≠ negativeCoinAmount := by
  decide

/-- `NewCoins` of one coin that `NewCoin` built: a zero coin is dropped.
(The panics of `NewCoins` on a duplicate or invalid coin cannot happen for
one valid coin.) -/
def newCoins (c : Coin) : Coins := SortedMerge.keepNonzero c

namespace Coins

/-- **`Coins.Add`** (`safeAdd`): the merging sum. -/
def add (a b : Coins) : Coins := SortedMerge.mergeAdd a b

/-- **`Coins.SafeSub`**: the merging difference, and whether some amount
of it is negative. -/
def safeSub (a b : Coins) : Coins × Bool :=
  let diff := SortedMerge.mergeAdd a (SortedMerge.negate b)
  (diff, SortedMerge.anyNegative diff)

/-- **`Coins.Sub`**: the difference, or the panic where some amount of it is
negative. -/
def sub (a b : Coins) : Except Failure Coins :=
  let r := safeSub a b
  if r.2 then .error negativeCoinAmount else .ok r.1

/-- **`Coins.AmountOf`**: binary search by denomination. -/
def amountOf (c : Coins) (d : Denom) : ℤ := SortedMerge.binaryLookup d c

/-- **`Coins.Empty`**. -/
def empty (c : Coins) : Bool := c.isEmpty

/-- `Coins.IsAnyNegative`. -/
def isAnyNegative (c : Coins) : Bool := SortedMerge.anyNegative c

/-- A well-formed coin set: sorted by denomination, no zero amount. -/
def WF (c : Coins) : Prop := SortedMerge.Sorted c ∧ SortedMerge.NoZero c

open SortedMerge

/-- On a sorted coin set the binary search reads the amount of the
denomination. -/
theorem amountOf_eq_lookup {c : Coins} (hc : WF c) (d : Denom) :
    c.amountOf d = lookup d c :=
  binaryLookup_eq_lookup d c hc.1

theorem wf_nil : WF ([] : Coins) := ⟨List.Pairwise.nil, fun _ h => by cases h⟩

@[simp] theorem amountOf_nil (d : Denom) : Coins.amountOf [] d = 0 := amountOf_eq_lookup wf_nil d

theorem wf_newCoins (c : Coin) : WF (newCoins c) := by
  refine ⟨?_, noZero_keepNonzero c⟩
  unfold newCoins keepNonzero
  split
  · exact List.Pairwise.nil
  · exact List.pairwise_singleton _ _

@[simp] theorem amountOf_newCoins (d' d : Denom) (x : ℤ) :
    (newCoins (d', x)).amountOf d = if d' = d then x else 0 := by
  rw [amountOf_eq_lookup (wf_newCoins _)]
  unfold newCoins keepNonzero
  by_cases hx : x = 0
  · subst hx
    simp
  · simp [hx, lookup_cons]

theorem wf_add {a b : Coins} (ha : WF a) (hb : WF b) : WF (a.add b) :=
  ⟨sorted_mergeAdd ha.1 hb.1, noZero_mergeAdd a b⟩

/-- **`Add` adds the amount of every denomination.** -/
theorem amountOf_add {a b : Coins} (ha : WF a) (hb : WF b) (d : Denom) :
    (a.add b).amountOf d = a.amountOf d + b.amountOf d := by
  rw [amountOf_eq_lookup (wf_add ha hb), amountOf_eq_lookup ha, amountOf_eq_lookup hb]
  exact lookup_mergeAdd d ha.1 hb.1

/-- The difference `Sub` computes, before its sign check. -/
theorem wf_safeSub {a b : Coins} (ha : WF a) (hb : WF b) : WF (safeSub a b).1 :=
  ⟨sorted_mergeAdd ha.1 hb.1.negate, noZero_mergeAdd _ _⟩

theorem amountOf_safeSub {a b : Coins} (ha : WF a) (hb : WF b) (d : Denom) :
    (safeSub a b).1.amountOf d = a.amountOf d - b.amountOf d := by
  rw [amountOf_eq_lookup (wf_safeSub ha hb), amountOf_eq_lookup ha, amountOf_eq_lookup hb]
  exact lookup_mergeAdd_negate d ha.1 hb.1

/-- The sign check of `Sub` finds a denomination where `b` exceeds `a`. -/
theorem safeSub_neg_iff {a b : Coins} (ha : WF a) (hb : WF b) :
    (safeSub a b).2 = true ↔ ∃ d, a.amountOf d < b.amountOf d := by
  show anyNegative (safeSub a b).1 = true ↔ _
  rw [anyNegative_iff (wf_safeSub ha hb).1]
  simp only [← amountOf_eq_lookup (wf_safeSub ha hb), amountOf_safeSub ha hb]
  exact exists_congr (fun d => by omega)

/-- **`Sub` panics exactly when some denomination would go negative.** -/
theorem sub_eq_error_iff {a b : Coins} (ha : WF a) (hb : WF b) {e : Failure} :
    a.sub b = .error e ↔ e = negativeCoinAmount ∧ ∃ d, a.amountOf d < b.amountOf d := by
  unfold sub
  rw [← safeSub_neg_iff ha hb]
  by_cases h : (safeSub a b).2 = true
  · simp only [h, if_true, Except.error.injEq, and_true]
    exact eq_comm
  · simp [h]

/-- What `Sub` returns: a well-formed set holding the differences. -/
theorem sub_eq_ok {a b c : Coins} (ha : WF a) (hb : WF b) (h : a.sub b = .ok c) :
    WF c ∧ ∀ d, c.amountOf d = a.amountOf d - b.amountOf d := by
  unfold sub at h
  dsimp only at h
  split at h
  · cases h
  · cases h
    exact ⟨wf_safeSub ha hb, amountOf_safeSub ha hb⟩

/-- **`Sub` of a set bounded by `a` does not panic.** -/
theorem sub_isOk {a b : Coins} (ha : WF a) (hb : WF b) (h : ∀ d, b.amountOf d ≤ a.amountOf d) :
    ∃ c, a.sub b = .ok c := by
  cases hs : a.sub b with
  | ok c => exact ⟨c, rfl⟩
  | error e =>
    -- the panic needs a denomination where `b` exceeds `a`
    obtain ⟨-, d, hd⟩ := (sub_eq_error_iff ha hb).mp hs
    exact absurd (h d) (not_le.mpr hd)

/-- **A well-formed set is empty exactly when every amount is zero.** -/
theorem empty_iff {c : Coins} (hc : WF c) : c.empty = true ↔ ∀ d, c.amountOf d = 0 := by
  unfold empty
  rw [List.isEmpty_iff, eq_nil_iff_lookup hc.2]
  simp only [amountOf_eq_lookup hc]

/-! ### Sets of nonnegative amounts -/

/-- **No amount of the set is negative.** -/
def Nonneg (c : Coins) : Prop := ∀ e ∈ c, 0 ≤ e.2

theorem nonneg_nil : Nonneg [] := fun _ h => by cases h

theorem nonneg_newCoins {c : Coin} (hc : 0 ≤ c.2) : Nonneg (newCoins c) := fun e he => by
  rw [mem_keepNonzero he]
  exact hc

/-- A set with no negative entry reads no negative amount. -/
theorem lookup_nonneg {c : Coins} (hc : Nonneg c) (d : Denom) : 0 ≤ lookup d c := by
  by_cases h : lookup d c = 0
  · rw [h]
  · obtain ⟨e, he, -, hv⟩ := exists_mem_of_lookup_ne_zero h
    rw [← hv]
    exact hc e he

/-- **The sum of two sets with no negative amount has none.** -/
theorem nonneg_add {a b : Coins} (ha : WF a) (hb : WF b) (hna : Nonneg a) (hnb : Nonneg b) :
    Nonneg (a.add b) := by
  intro e he
  -- an entry of the sum carries the sum's amount of its denomination
  have hv : lookup e.1 (a.add b) = e.2 := lookup_of_mem (k := e.1) (v := e.2) (wf_add ha hb).1 he
  rw [← hv, add, lookup_mergeAdd e.1 ha.1 hb.1]
  exact add_nonneg (lookup_nonneg hna _) (lookup_nonneg hnb _)

end Coins

end Sdk
