import Bhchain.Types.Coins
import Bhchain.Lib.Transition
import Mathlib.Algebra.BigOperators.Group.Finset.Piecewise

/-!
# Balances and held balances (`x/transfer/keeper/send.go`)

Every module moves money through the transfer keeper. An address holds,
per symbol, a spendable balance (`BalanceKey`) and a held balance
(`HoldBalanceKey`): money set aside for a pending withdrawal, a limit
order or a key generation fee. `LockCoin` moves an amount from the first
to the second, `UnlockCoin` back, `SubCoinHold` spends from the held
balance.

Each operation is a fallible update of the two maps. An error is the
operation refusing: a coin that fails `IsValid` (`ErrInvalidCoins`), or a
balance below the amount asked (`ErrInsufficientCoins`). None of them
panics.
-/

namespace Transfer

open Sdk

/-- A custody unit address (`sdk.CUAddress`). -/
abbrev CUAddress := String

/-- **The balance store of the transfer keeper.** -/
structure Balances where
  balance : CUAddress × Denom → ℤ
  hold : CUAddress × Denom → ℤ

namespace Balances

/-- No balance anywhere. -/
def empty : Balances := ⟨fun _ => 0, fun _ => 0⟩

/-- `GetBalance`. -/
def getBalance (b : Balances) (addr : CUAddress) (symbol : Denom) : ℤ := b.balance (addr, symbol)

/-- `GetHoldBalance`. -/
def getHoldBalance (b : Balances) (addr : CUAddress) (symbol : Denom) : ℤ := b.hold (addr, symbol)

/-- `setBalance`. -/
def setBalance (b : Balances) (addr : CUAddress) (symbol : Denom) (v : ℤ) : Balances :=
  { b with balance := Function.update b.balance (addr, symbol) v }

/-- `setHoldBalance`. -/
def setHoldBalance (b : Balances) (addr : CUAddress) (symbol : Denom) (v : ℤ) : Balances :=
  { b with hold := Function.update b.hold (addr, symbol) v }

@[simp] theorem getBalance_setBalance (b : Balances) (a a' : CUAddress) (s s' : Denom) (v : ℤ) :
    (b.setBalance a s v).getBalance a' s' = if (a', s') = (a, s) then v else b.getBalance a' s' := by
  simp [getBalance, setBalance, Function.update_apply]

@[simp] theorem getHoldBalance_setBalance (b : Balances) (a a' : CUAddress) (s s' : Denom)
    (v : ℤ) : (b.setBalance a s v).getHoldBalance a' s' = b.getHoldBalance a' s' := rfl

@[simp] theorem getHoldBalance_setHoldBalance (b : Balances) (a a' : CUAddress) (s s' : Denom)
    (v : ℤ) : (b.setHoldBalance a s v).getHoldBalance a' s' =
      if (a', s') = (a, s) then v else b.getHoldBalance a' s' := by
  simp [getHoldBalance, setHoldBalance, Function.update_apply]

@[simp] theorem getBalance_setHoldBalance (b : Balances) (a a' : CUAddress) (s s' : Denom)
    (v : ℤ) : (b.setHoldBalance a s v).getBalance a' s' = b.getBalance a' s' := rfl

/-- **`AddCoin`**. -/
def addCoin (b : Balances) (addr : CUAddress) (coin : Coin) : Except Failure Balances :=
  if !coin.isValid then .error (errInvalidCoins "invalid coin %s")
  else .ok (b.setBalance addr coin.1 (b.getBalance addr coin.1 + coin.2))

/-- **`SubCoin`**. -/
def subCoin (b : Balances) (addr : CUAddress) (coin : Coin) : Except Failure Balances :=
  if !coin.isValid then .error (errInvalidCoins "invalid coin %s")
  else if b.getBalance addr coin.1 < coin.2 then
    .error (errInsufficientCoins "token %s balance not enough, has %s, need %s")
  else .ok (b.setBalance addr coin.1 (b.getBalance addr coin.1 - coin.2))

/-- **`AddCoinHold`**. -/
def addCoinHold (b : Balances) (addr : CUAddress) (coin : Coin) : Except Failure Balances :=
  if !coin.isValid then .error (errInvalidCoins "invalid coin %s")
  else .ok (b.setHoldBalance addr coin.1 (b.getHoldBalance addr coin.1 + coin.2))

/-- What a successful `AddCoin` did. -/
theorem addCoin_eq_ok {b b' : Balances} {addr : CUAddress} {coin : Coin}
    (h : b.addCoin addr coin = .ok b') :
    coin.isValid = true ∧ b' = b.setBalance addr coin.1 (b.getBalance addr coin.1 + coin.2) := by
  unfold addCoin at h
  split at h
  · cases h
  · rename_i hvalid
    cases h
    exact ⟨by simpa using hvalid, rfl⟩

/-- What a successful `SubCoin` did. -/
theorem subCoin_eq_ok {b b' : Balances} {addr : CUAddress} {coin : Coin}
    (h : b.subCoin addr coin = .ok b') :
    coin.isValid = true ∧ coin.2 ≤ b.getBalance addr coin.1 ∧
      b' = b.setBalance addr coin.1 (b.getBalance addr coin.1 - coin.2) := by
  unfold subCoin at h
  split at h
  · cases h
  · rename_i hvalid
    split at h
    · cases h
    · rename_i henough
      cases h
      exact ⟨by simpa using hvalid, not_lt.mp henough, rfl⟩

/-- **`SubCoinHold`**. -/
def subCoinHold (b : Balances) (addr : CUAddress) (coin : Coin) : Except Failure Balances :=
  if !coin.isValid then .error (errInvalidCoins "invalid coin %s")
  else if b.getHoldBalance addr coin.1 < coin.2 then
    .error (errInsufficientCoins "token %s balance not enough, has %s, need %s")
  else .ok (b.setHoldBalance addr coin.1 (b.getHoldBalance addr coin.1 - coin.2))

/-- **`LockCoin`**: from the balance to the held balance. -/
def lockCoin (b : Balances) (addr : CUAddress) (coin : Coin) : Except Failure Balances := do
  let b ← b.subCoin addr coin
  b.addCoinHold addr coin

/-- **`UnlockCoin`**: from the held balance back to the balance. -/
def unlockCoin (b : Balances) (addr : CUAddress) (coin : Coin) : Except Failure Balances := do
  let b ← b.subCoinHold addr coin
  b.addCoin addr coin

/-- **`SendCoin`**. -/
def sendCoin (b : Balances) (fromAddr toAddr : CUAddress) (coin : Coin) :
    Except Failure Balances := do
  let b ← b.subCoin fromAddr coin
  b.addCoin toAddr coin

/-- What a successful `SendCoin` did: a `SubCoin` from the sender, then an
`AddCoin` to the receiver. -/
theorem sendCoin_eq_ok {b b' : Balances} {fromAddr toAddr : CUAddress} {coin : Coin}
    (h : b.sendCoin fromAddr toAddr coin = .ok b') :
    ∃ b₁, b.subCoin fromAddr coin = .ok b₁ ∧ b₁.addCoin toAddr coin = .ok b' :=
  Transition.bind_eq_ok.mp h

/-- The balance operations fail with an error, never a panic. -/
theorem addCoin_ne_panic (b : Balances) (addr : CUAddress) (coin : Coin) (m : String) :
    b.addCoin addr coin ≠ .error (.panic m) := by
  unfold addCoin errInvalidCoins
  split <;> simp

theorem subCoin_ne_panic (b : Balances) (addr : CUAddress) (coin : Coin) (m : String) :
    b.subCoin addr coin ≠ .error (.panic m) := by
  unfold subCoin errInvalidCoins errInsufficientCoins
  split
  · simp
  · split <;> simp

theorem sendCoin_ne_panic (b : Balances) (fromAddr toAddr : CUAddress) (coin : Coin) (m : String) :
    b.sendCoin fromAddr toAddr coin ≠ .error (.panic m) := by
  intro h
  rcases Transition.bind_eq_error.mp h with h | ⟨b₁, -, h⟩
  · exact subCoin_ne_panic b fromAddr coin m h
  · exact addCoin_ne_panic b₁ toAddr coin m h

theorem addCoin_ne_negativeCoinAmount (b : Balances) (addr : CUAddress) (coin : Coin) :
    b.addCoin addr coin ≠ .error negativeCoinAmount :=
  addCoin_ne_panic b addr coin _

theorem subCoin_ne_negativeCoinAmount (b : Balances) (addr : CUAddress) (coin : Coin) :
    b.subCoin addr coin ≠ .error negativeCoinAmount :=
  subCoin_ne_panic b addr coin _

theorem sendCoin_ne_negativeCoinAmount (b : Balances) (fromAddr toAddr : CUAddress) (coin : Coin) :
    b.sendCoin fromAddr toAddr coin ≠ .error negativeCoinAmount :=
  sendCoin_ne_panic b fromAddr toAddr coin _

/-- The ordering check of `Coins.IsValid` after the first coin: each
denomination above the previous one, each amount positive. -/
def validTail (lowDenom : Denom) : Coins → Bool
  | [] => true
  | c :: cs => decide (lowDenom < c.1) && decide (0 < c.2) && validTail c.1 cs

/-- **`Coins.IsValid`**. Only the first denomination is matched against
the denomination pattern. -/
def coinsIsValid : Coins → Bool
  | [] => true
  | c :: cs => validDenom c.1 && decide (0 < c.2) && validTail c.1 cs

/-- Apply a per-coin operation to every coin in order, stopping at the
first error (the loops of `AddCoins`, `SubCoins`, `SubCoinsHold`,
`LockCoins`, `UnlockCoins`). -/
def forCoins (op : Balances → CUAddress → Coin → Except Failure Balances) (addr : CUAddress) :
    Balances → Coins → Except Failure Balances
  | b, [] => .ok b
  | b, c :: cs => do
    let b ← op b addr c
    forCoins op addr b cs

/-- `AddCoins`. -/
def addCoins (b : Balances) (addr : CUAddress) (coins : Coins) : Except Failure Balances :=
  if !coinsIsValid coins then .error (errInvalidCoins "invalid coins %s")
  else forCoins addCoin addr b coins

/-- `SubCoins`. -/
def subCoins (b : Balances) (addr : CUAddress) (coins : Coins) : Except Failure Balances :=
  if !coinsIsValid coins then .error (errInvalidCoins "invalid coins %s")
  else forCoins subCoin addr b coins

/-- `SubCoinsHold`. -/
def subCoinsHold (b : Balances) (addr : CUAddress) (coins : Coins) : Except Failure Balances :=
  if !coinsIsValid coins then .error (errInvalidCoins "invalid coins %s")
  else forCoins subCoinHold addr b coins

/-- `LockCoins`. -/
def lockCoins (b : Balances) (addr : CUAddress) (coins : Coins) : Except Failure Balances :=
  if !coinsIsValid coins then .error (errInvalidCoins "invalid coins %s")
  else forCoins lockCoin addr b coins

/-- `UnlockCoins`. -/
def unlockCoins (b : Balances) (addr : CUAddress) (coins : Coins) : Except Failure Balances :=
  if !coinsIsValid coins then .error (errInvalidCoins "invalid coins %s")
  else forCoins unlockCoin addr b coins

/-- `SendCoins`: `SendCoin` coin by coin, stopping at the first error. -/
def sendCoins (b : Balances) (fromAddr toAddr : CUAddress) (coins : Coins) :
    Except Failure Balances :=
  forCoins (fun b addr coin => b.sendCoin addr toAddr coin) fromAddr b coins

/-! ### Balances summed over a set of addresses

A keeper call moves money between a few addresses. Summing a symbol's
balance over a set that holds them all gives a quantity the call changes
only by what enters or leaves the set; `SameOutside` says that nothing
outside the set moved. -/

section sums

/-- **The balance of a symbol summed over a set of addresses.** -/
def sumOver (b : Balances) (A : Finset CUAddress) (d : Denom) : ℤ := ∑ a ∈ A, b.getBalance a d

/-- No balance outside `A` differs between `b` and `b'`. -/
def SameOutside (A : Finset CUAddress) (b b' : Balances) : Prop :=
  ∀ a ∉ A, ∀ d, b'.getBalance a d = b.getBalance a d

theorem SameOutside.refl (A : Finset CUAddress) (b : Balances) : SameOutside A b b :=
  fun _ _ _ => rfl

theorem SameOutside.trans {A : Finset CUAddress} {b₁ b₂ b₃ : Balances} (h₁ : SameOutside A b₁ b₂)
    (h₂ : SameOutside A b₂ b₃) : SameOutside A b₁ b₃ :=
  fun a ha d => (h₂ a ha d).trans (h₁ a ha d)

variable {A : Finset CUAddress} {b b' : Balances} {addr : CUAddress} {coin : Coin}

/-- Writing one balance inside `A` moves the sum by the change. -/
theorem sumOver_setBalance (ha : addr ∈ A) (s d : Denom) (v : ℤ) :
    (b.setBalance addr s v).sumOver A d =
      b.sumOver A d + if s = d then v - b.getBalance addr s else 0 := by
  unfold sumOver
  by_cases hsd : s = d
  · subst hsd
    rw [if_pos rfl]
    -- only the entry of `addr` changes
    have hpoint : ∀ x ∈ A, (b.setBalance addr s v).getBalance x s =
        b.getBalance x s + if x = addr then v - b.getBalance addr s else 0 := by
      intro x _
      rw [getBalance_setBalance]
      by_cases hx : x = addr
      · subst hx
        simp
      · simp [hx]
    rw [Finset.sum_congr rfl hpoint, Finset.sum_add_distrib, Finset.sum_ite_eq' A addr, if_pos ha]
  · rw [if_neg hsd, Int.add_zero]
    apply Finset.sum_congr rfl
    intro x _
    rw [getBalance_setBalance, if_neg (fun h => hsd (Prod.ext_iff.mp h).2.symm)]

theorem sameOutside_setBalance (ha : addr ∈ A) (s : Denom) (v : ℤ) :
    SameOutside A b (b.setBalance addr s v) := by
  intro x hx d
  -- `x` lies outside `A` and `addr` inside, so they differ
  have hne : (x, d) ≠ (addr, s) := by
    intro h
    cases h
    exact hx ha
  rw [getBalance_setBalance, if_neg hne]

theorem sumOver_of_addCoin (h : b.addCoin addr coin = .ok b') (ha : addr ∈ A) (d : Denom) :
    b'.sumOver A d = b.sumOver A d + if coin.1 = d then coin.2 else 0 := by
  obtain ⟨-, rfl⟩ := addCoin_eq_ok h
  rw [sumOver_setBalance ha]
  split <;> omega

theorem sumOver_of_subCoin (h : b.subCoin addr coin = .ok b') (ha : addr ∈ A) (d : Denom) :
    b'.sumOver A d = b.sumOver A d - if coin.1 = d then coin.2 else 0 := by
  obtain ⟨-, -, rfl⟩ := subCoin_eq_ok h
  rw [sumOver_setBalance ha]
  split <;> omega

theorem sameOutside_of_addCoin (h : b.addCoin addr coin = .ok b') (ha : addr ∈ A) :
    SameOutside A b b' := by
  obtain ⟨-, rfl⟩ := addCoin_eq_ok h
  exact sameOutside_setBalance ha _ _

theorem sameOutside_of_subCoin (h : b.subCoin addr coin = .ok b') (ha : addr ∈ A) :
    SameOutside A b b' := by
  obtain ⟨-, -, rfl⟩ := subCoin_eq_ok h
  exact sameOutside_setBalance ha _ _

/-- **A transfer between two addresses of `A` keeps the sum.** -/
theorem sumOver_of_sendCoin {fromAddr toAddr : CUAddress}
    (h : b.sendCoin fromAddr toAddr coin = .ok b') (hf : fromAddr ∈ A) (ht : toAddr ∈ A)
    (d : Denom) : b'.sumOver A d = b.sumOver A d := by
  obtain ⟨b₁, hsub, hadd⟩ := sendCoin_eq_ok h
  rw [sumOver_of_addCoin hadd ht, sumOver_of_subCoin hsub hf]
  omega

theorem sameOutside_of_sendCoin {fromAddr toAddr : CUAddress}
    (h : b.sendCoin fromAddr toAddr coin = .ok b') (hf : fromAddr ∈ A) (ht : toAddr ∈ A) :
    SameOutside A b b' := by
  obtain ⟨b₁, hsub, hadd⟩ := sendCoin_eq_ok h
  exact (sameOutside_of_subCoin hsub hf).trans (sameOutside_of_addCoin hadd ht)

end sums

/-! ### One balance -/

section one

variable {b b' : Balances} {addr : CUAddress} {coin : Coin}

/-- **Adding a coin lowers no balance**: a valid coin is not negative. -/
theorem getBalance_le_of_addCoin (h : b.addCoin addr coin = .ok b') (a : CUAddress) (d : Denom) :
    b.getBalance a d ≤ b'.getBalance a d := by
  obtain ⟨hvalid, rfl⟩ := addCoin_eq_ok h
  have hpos : 0 ≤ coin.2 := by
    simp only [Coin.isValid, Bool.and_eq_true, decide_eq_true_eq] at hvalid
    exact hvalid.2
  rw [getBalance_setBalance]
  split_ifs with he
  · obtain ⟨rfl, rfl⟩ := Prod.mk.inj he
    omega
  · exact le_rfl

theorem getBalance_le_of_forCoins_addCoin :
    ∀ {coins : Coins} {b b' : Balances}, forCoins addCoin addr b coins = .ok b' →
      ∀ a d, b.getBalance a d ≤ b'.getBalance a d
  | [], _, _, h, _, _ => by
    cases h
    exact le_rfl
  | _ :: _, _, _, h, a, d => by
    obtain ⟨b₁, h₁, h₂⟩ := Transition.bind_eq_ok.mp h
    exact (getBalance_le_of_addCoin h₁ a d).trans (getBalance_le_of_forCoins_addCoin h₂ a d)

/-- Adding coins lowers no balance either. -/
theorem getBalance_le_of_addCoins {coins : Coins} (h : b.addCoins addr coins = .ok b')
    (a : CUAddress) (d : Denom) : b.getBalance a d ≤ b'.getBalance a d := by
  unfold addCoins at h
  split at h
  · cases h
  · exact getBalance_le_of_forCoins_addCoin h a d

/-- **Adding a coin credits the address by its amount.** -/
theorem getBalance_of_addCoin (h : b.addCoin addr coin = .ok b') :
    b'.getBalance addr coin.1 = b.getBalance addr coin.1 + coin.2 := by
  obtain ⟨-, rfl⟩ := addCoin_eq_ok h
  simp

/-- Taking a coin from one address leaves every other address's balances. -/
theorem getBalance_of_subCoin_of_ne (h : b.subCoin addr coin = .ok b') {a : CUAddress}
    (ha : a ≠ addr) (d : Denom) : b'.getBalance a d = b.getBalance a d := by
  obtain ⟨-, -, rfl⟩ := subCoin_eq_ok h
  simp [ha]

end one

/-! ### Per-coin operations as shifts of the two balances

`AddCoin`, `SubCoin`, `SubCoinHold`, `LockCoin` and `UnlockCoin` each move
a fixed multiple of the coin's amount into the balance and into the held
balance of one address, and touch nothing else. A loop of such an
operation over a coin set with distinct denominations then moves that
multiple of the set's amount of each denomination. -/

section shifts

open SortedMerge

/-- **A per-coin operation that shifts** the balance of the address in the
coin's denomination by `kb` times the coin's amount and its held balance
by `kh` times, and changes nothing else. -/
def Shifts (op : Balances → CUAddress → Coin → Except Failure Balances) (kb kh : ℤ) : Prop :=
  ∀ b addr c b', op b addr c = .ok b' → ∀ a d,
    b'.getBalance a d = b.getBalance a d + (if a = addr ∧ d = c.1 then kb * c.2 else 0) ∧
      b'.getHoldBalance a d = b.getHoldBalance a d + (if a = addr ∧ d = c.1 then kh * c.2 else 0)

theorem shifts_addCoin : Shifts addCoin 1 0 := by
  intro b addr c b' h a d
  obtain ⟨-, rfl⟩ := addCoin_eq_ok h
  by_cases had : a = addr ∧ d = c.1
  · obtain ⟨rfl, rfl⟩ := had
    simp
  · have hne : (a, d) ≠ (addr, c.1) := fun h => had (Prod.mk.inj h)
    simp [had, hne]

theorem shifts_subCoin : Shifts subCoin (-1) 0 := by
  intro b addr c b' h a d
  obtain ⟨-, -, rfl⟩ := subCoin_eq_ok h
  by_cases had : a = addr ∧ d = c.1
  · obtain ⟨rfl, rfl⟩ := had
    simp only [getBalance_setBalance, getHoldBalance_setBalance, if_pos, and_self]
    omega
  · have hne : (a, d) ≠ (addr, c.1) := fun h => had (Prod.mk.inj h)
    simp [had, hne]

theorem shifts_addCoinHold : Shifts addCoinHold 0 1 := by
  intro b addr c b' h a d
  unfold addCoinHold at h
  split at h
  · cases h
  · cases h
    by_cases had : a = addr ∧ d = c.1
    · obtain ⟨rfl, rfl⟩ := had
      simp
    · have hne : (a, d) ≠ (addr, c.1) := fun h => had (Prod.mk.inj h)
      simp [had, hne]

theorem shifts_subCoinHold : Shifts subCoinHold 0 (-1) := by
  intro b addr c b' h a d
  unfold subCoinHold at h
  split at h
  · cases h
  · split at h
    · cases h
    · cases h
      by_cases had : a = addr ∧ d = c.1
      · obtain ⟨rfl, rfl⟩ := had
        simp only [getHoldBalance_setHoldBalance, getBalance_setHoldBalance, if_pos, and_self]
        omega
      · have hne : (a, d) ≠ (addr, c.1) := fun h => had (Prod.mk.inj h)
        simp [had, hne]

/-- **Shifts compose**: one operation after another shifts by the sums. -/
theorem Shifts.bind {op₁ op₂ : Balances → CUAddress → Coin → Except Failure Balances}
    {kb₁ kh₁ kb₂ kh₂ : ℤ} (h₁ : Shifts op₁ kb₁ kh₁) (h₂ : Shifts op₂ kb₂ kh₂) :
    Shifts (fun b addr c => op₁ b addr c >>= fun b => op₂ b addr c) (kb₁ + kb₂) (kh₁ + kh₂) := by
  intro b addr c b' h a d
  obtain ⟨b₁, hb₁, hb'⟩ := Transition.bind_eq_ok.mp h
  obtain ⟨hbal₁, hhold₁⟩ := h₁ b addr c b₁ hb₁ a d
  obtain ⟨hbal₂, hhold₂⟩ := h₂ b₁ addr c b' hb' a d
  rw [hbal₂, hhold₂, hbal₁, hhold₁]
  by_cases hc : a = addr ∧ d = c.1
  · simp only [hc, and_self, if_true]
    constructor <;> ring
  · simp only [hc, if_false, add_zero, and_self]

theorem shifts_lockCoin : Shifts lockCoin (-1) 1 := shifts_subCoin.bind shifts_addCoinHold

theorem shifts_unlockCoin : Shifts unlockCoin 1 (-1) := shifts_subCoinHold.bind shifts_addCoin

/-- **A loop of a shifting operation over distinct denominations** shifts
each denomination by the set's amount of it. -/
theorem forCoins_shifts {op : Balances → CUAddress → Coin → Except Failure Balances} {kb kh : ℤ}
    (hop : Shifts op kb kh) {addr : CUAddress} :
    ∀ {coins : Coins} {b b' : Balances}, Sorted coins → forCoins op addr b coins = .ok b' →
      ∀ a d, b'.getBalance a d = b.getBalance a d + (if a = addr then kb * lookup d coins else 0) ∧
        b'.getHoldBalance a d =
          b.getHoldBalance a d + (if a = addr then kh * lookup d coins else 0)
  | [], _, _, _, h, a, d => by
    cases h
    simp
  | c :: cs, b, b', hs, h, a, d => by
    obtain ⟨b₁, hb₁, hrest⟩ := Transition.bind_eq_ok.mp h
    obtain ⟨hbal₁, hhold₁⟩ := hop b addr c b₁ hb₁ a d
    obtain ⟨hbal, hhold⟩ := forCoins_shifts hop hs.tail hrest a d
    rw [hbal, hhold, hbal₁, hhold₁, lookup_cons]
    -- the head's denomination does not occur again in a sorted set
    by_cases hd : c.1 = d
    · have htail : lookup d cs = 0 := lookup_eq_zero fun f hf => by
        rw [← hd]
        exact ne_of_gt (hs.head_lt hf)
      subst hd
      by_cases ha : a = addr <;> simp [ha, htail]
    · have hd' : ¬d = c.1 := fun h => hd h.symm
      by_cases ha : a = addr <;> simp [ha, hd, hd']

/-- The ordering check of `Coins.IsValid` makes the set strictly increasing
in denomination. -/
theorem sorted_of_validTail : ∀ {lowDenom : Denom} {coins : Coins}, validTail lowDenom coins = true →
    (∀ f ∈ coins, lowDenom < f.1) ∧ Sorted coins
  | _, [], _ => ⟨fun _ h => (by cases h), sorted_nil⟩
  | _, c :: cs, h => by
    simp only [validTail, Bool.and_eq_true, decide_eq_true_eq] at h
    obtain ⟨⟨hlow, -⟩, htail⟩ := h
    obtain ⟨hbelow, hsorted⟩ := sorted_of_validTail htail
    refine ⟨fun f hf => ?_, sorted_cons.mpr ⟨hbelow, hsorted⟩⟩
    rcases List.mem_cons.mp hf with rfl | hf
    · exact hlow
    · exact lt_trans hlow (hbelow f hf)

theorem sorted_of_coinsIsValid {coins : Coins} (h : coinsIsValid coins = true) : Sorted coins := by
  cases coins with
  | nil => exact sorted_nil
  | cons c cs =>
    simp only [coinsIsValid, Bool.and_eq_true] at h
    obtain ⟨hbelow, hsorted⟩ := sorted_of_validTail h.2
    exact sorted_cons.mpr ⟨hbelow, hsorted⟩

variable {b b' : Balances} {addr : CUAddress} {coins : Coins}

/-- **`LockCoins`** moves each amount of the set from the address's balance
to its held balance. -/
theorem lockCoins_eq_ok (h : b.lockCoins addr coins = .ok b') (a : CUAddress) (d : Denom) :
    b'.getBalance a d = b.getBalance a d - (if a = addr then lookup d coins else 0) ∧
      b'.getHoldBalance a d = b.getHoldBalance a d + (if a = addr then lookup d coins else 0) := by
  unfold lockCoins at h
  split at h
  · cases h
  · rename_i hvalid
    obtain ⟨hbal, hhold⟩ :=
      forCoins_shifts shifts_lockCoin (sorted_of_coinsIsValid (by simpa using hvalid)) h a d
    rw [hbal, hhold]
    by_cases ha : a = addr
    · simp only [ha, if_true]
      constructor <;> ring
    · simp only [ha, if_false, add_zero, sub_zero, and_self]

/-- **`UnlockCoins`** moves each amount of the set back from the held
balance to the balance. -/
theorem unlockCoins_eq_ok (h : b.unlockCoins addr coins = .ok b') (a : CUAddress) (d : Denom) :
    b'.getBalance a d = b.getBalance a d + (if a = addr then lookup d coins else 0) ∧
      b'.getHoldBalance a d = b.getHoldBalance a d - (if a = addr then lookup d coins else 0) := by
  unfold unlockCoins at h
  split at h
  · cases h
  · rename_i hvalid
    obtain ⟨hbal, hhold⟩ :=
      forCoins_shifts shifts_unlockCoin (sorted_of_coinsIsValid (by simpa using hvalid)) h a d
    rw [hbal, hhold]
    by_cases ha : a = addr
    · simp only [ha, if_true]
      constructor <;> ring
    · simp only [ha, if_false, add_zero, sub_zero, and_self]

/-- **`SubCoinsHold`** spends each amount of the set from the held
balance. -/
theorem subCoinsHold_eq_ok (h : b.subCoinsHold addr coins = .ok b') (a : CUAddress) (d : Denom) :
    b'.getBalance a d = b.getBalance a d ∧
      b'.getHoldBalance a d = b.getHoldBalance a d - (if a = addr then lookup d coins else 0) := by
  unfold subCoinsHold at h
  split at h
  · cases h
  · rename_i hvalid
    obtain ⟨hbal, hhold⟩ :=
      forCoins_shifts shifts_subCoinHold (sorted_of_coinsIsValid (by simpa using hvalid)) h a d
    rw [hbal, hhold]
    by_cases ha : a = addr
    · simp only [ha, if_true]
      constructor <;> ring
    · simp only [ha, if_false, add_zero, sub_zero, and_self]

/-- **`AddCoins`** credits each amount of the set to the balance. -/
theorem addCoins_eq_ok (h : b.addCoins addr coins = .ok b') (a : CUAddress) (d : Denom) :
    b'.getBalance a d = b.getBalance a d + (if a = addr then lookup d coins else 0) ∧
      b'.getHoldBalance a d = b.getHoldBalance a d := by
  unfold addCoins at h
  split at h
  · cases h
  · rename_i hvalid
    obtain ⟨hbal, hhold⟩ :=
      forCoins_shifts shifts_addCoin (sorted_of_coinsIsValid (by simpa using hvalid)) h a d
    rw [hbal, hhold]
    by_cases ha : a = addr
    · simp only [ha, if_true]
      constructor <;> ring
    · simp only [ha, if_false, add_zero, and_self]

end shifts

end Balances

end Transfer
