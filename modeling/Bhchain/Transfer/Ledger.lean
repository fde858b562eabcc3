import Bhchain.Transfer.Lifecycle

/-!
# What the withdrawal handlers owe

A withdrawal keeps money in three places: the user's balance, the user's
held balance, and the order. `Withdrawal` moves the amount and the gas fee
from the balance into the held balance; a cancellation, by the user or by
the key nodes' confirmation of an invalid request, moves them back; the
settlement of `WithdrawalFinish` spends them from the held balance, refunds
what the chain did not use, and leaves on the order the fee it finally
cost.

This module states what that bookkeeping is for, over every run of the
withdrawal handlers from genesis:

* the held balance of every address and denomination is exactly what its
  pending orders (`Begin`, `WaitSign`, `SignFinish`) lock: their amounts in
  their symbol and their gas fees in their chain's token;
* an address's balance, its held balance and what its settled orders paid
  out add up to its genesis balance;
* a stored order only moves forward along its life cycle, keeping its
  owner, symbol and amount, and an order in a terminated status is never
  written again: no withdrawal is settled or refunded twice.

The last point rests on the evidence boxes. `checkWithdrawalOrders` lets an
expected `SignFinish` match `Finish` and `Failed`, so a settled order passes
the checks of `WithdrawalFinish` again. What prevents a second settlement is
that every settled order's transaction hash names a box that is already
confirmed, and a confirmed box never reports a first confirmation again;
the invariant `Ledger` carries that fact along with the sums.

Two properties of the environment are assumed (`WithdrawalEnv.Valid`): the
token keeper keeps each token under its own symbol, and the CU keeper keeps
CUs at valid addresses only, so that the order `Withdrawal` writes is
stored.
-/

namespace Sdk.OrderStatus

/-- **The life cycle of a status**: `Begin` leads to every status, `WaitSign`
to itself and what follows signing, `SignFinish` to itself and the two
outcomes, and each terminated status only to itself. -/
def leadsTo : OrderStatus → OrderStatus → Bool
  | .begin, _ => true
  | .waitSign, s => s == .waitSign || s == .signFinish || s == .finish || s == .failed
  | .signFinish, s => s == .signFinish || s == .finish || s == .failed
  | s, s' => s == s'

theorem leadsTo_refl (s : OrderStatus) : s.leadsTo s = true := by
  cases s <;> decide

theorem leadsTo_trans {s₁ s₂ s₃ : OrderStatus} (h₁ : s₁.leadsTo s₂ = true)
    (h₂ : s₂.leadsTo s₃ = true) : s₁.leadsTo s₃ = true := by
  revert h₁ h₂
  cases s₁ <;> cases s₂ <;> cases s₃ <;> decide

/-- A settled order: `WithdrawalFinish` ended it `Finish` or `Failed`. -/
def settled (s : OrderStatus) : Bool := s == .finish || s == .failed

/-- A pending order is not settled. -/
theorem settled_eq_false {s : OrderStatus} (h : s.terminated = false) : s.settled = false := by
  revert h
  cases s <;> decide

end Sdk.OrderStatus

namespace Sdk

/-- **What a withdrawal locks** of a denomination: its amount in its symbol
and its gas fee in its chain's token. -/
def OrderWithdrawal.locked (chain : Denom) (w : OrderWithdrawal) (d : Denom) : ℤ :=
  (if w.symbol = d then w.amount else 0) + (if chain = d then w.gasFee else 0)

/-- **What a settled withdrawal paid out** of a denomination: its amount, if
the transfer on the chain succeeded, and the gas fee it was finally
charged. -/
def OrderWithdrawal.paid (chain : Denom) (w : OrderWithdrawal) (d : Denom) : ℤ :=
  (if w.status = .finish ∧ w.symbol = d then w.amount else 0) + (if chain = d then w.gasFee else 0)

end Sdk

namespace Transfer

open Sdk Transition OrderKeeper KVStore SortedMerge

/-! ## What an order locks and what it paid -/

/-- **The token that pays a symbol's gas**: its token's `Chain`. -/
def WithdrawalEnv.chainOf (env : WithdrawalEnv) (symbol : Denom) : Denom :=
  ((env.getIBCToken symbol).map IBCToken.chain).getD symbol

theorem WithdrawalEnv.chainOf_eq {env : WithdrawalEnv} {symbol : Denom} {t : IBCToken}
    (h : env.getIBCToken symbol = some t) : env.chainOf symbol = t.chain := by
  simp [chainOf, h]

theorem lookup_newCoins (c d : Denom) (x : ℤ) : lookup d (newCoins (c, x)) = if c = d then x else 0 := by
  rw [← Coins.amountOf_eq_lookup (Coins.wf_newCoins _), Coins.amountOf_newCoins]

theorem lookup_add {a b : Coins} (ha : Coins.WF a) (hb : Coins.WF b) (d : Denom) :
    lookup d (a.add b) = lookup d a + lookup d b := by
  rw [← Coins.amountOf_eq_lookup (Coins.wf_add ha hb), Coins.amountOf_add ha hb,
    Coins.amountOf_eq_lookup ha, Coins.amountOf_eq_lookup hb]

/-- The coins the handlers lock, release or spend for an order read, at
each denomination, what the order locks. -/
theorem lookup_need (symbol chain d : Denom) (amount gasFee : ℤ) :
    lookup d ((newCoins (symbol, amount)).add (newCoins (chain, gasFee))) =
      (if symbol = d then amount else 0) + (if chain = d then gasFee else 0) := by
  rw [lookup_add (Coins.wf_newCoins _) (Coins.wf_newCoins _), lookup_newCoins, lookup_newCoins]

variable (env : WithdrawalEnv)

/-- **What an address's orders hold** of a denomination: each pending
withdrawal of the address locks its amount and fee. -/
def heldFor (a : CUAddress) (d : Denom) (_ : String) : Order → ℤ
  | .withdrawal w =>
    if w.cuAddress = a ∧ w.status.terminated = false then w.locked (env.chainOf w.symbol) d else 0
  | .other _ => 0

/-- **What an address's orders paid out** of a denomination: each settled
withdrawal of the address. -/
def paidFor (a : CUAddress) (d : Denom) (_ : String) : Order → ℤ
  | .withdrawal w =>
    if w.cuAddress = a ∧ w.status.settled = true then w.paid (env.chainOf w.symbol) d else 0
  | .other _ => 0

/-- **What the environment must keep**: each token under its own symbol,
and each CU at a valid address. -/
structure WithdrawalEnv.Valid : Prop where
  token_symbol : ∀ d t, env.getIBCToken d = some t → t.symbol = d
  cu_addr_valid : ∀ a t, env.getCU a = some t → env.isValidAddr a = true

/-! ## Totals over the order store -/

/-- What an ID contributes to a total over the orders, read off `GetOrder`. -/
theorem contrib_orders (f : String → Order → ℤ) (k : Keeper) (id : String) :
    contrib f id k.orders.entries = ((k.getOrder id).map (f id)).getD 0 := by
  simp only [contrib, Keeper.getOrder, Store.get]
  cases KVStore.get id k.orders.entries <;> rfl

/-- **Storing an order at a valid address replaces its ID's contribution to
a total.** -/
theorem total_setOrder {k : Keeper} {v : String → Bool} {order : Order}
    (hv : v order.getCUAddress = true) (f : String → Order → ℤ) :
    (k.setOrder v order).orders.total f =
      k.orders.total f - contrib f order.getID k.orders.entries + f order.getID order := by
  unfold Keeper.setOrder
  rw [if_neg (by simp [hv])]
  split <;> exact Store.total_set ..

/-- **Rewriting a stored withdrawal** moves a total by the difference of the
two orders' weights. -/
theorem total_rewrite {k : Keeper} {v : String → Bool} (hk : k.WF v) {id : String}
    {w w' : OrderWithdrawal} (hget : k.getOrder id = some (.withdrawal w)) (hid : w'.id = w.id)
    (haddr : w'.cuAddress = w.cuAddress) (f : String → Order → ℤ) :
    (k.setOrder v (.withdrawal w')).orders.total f =
      k.orders.total f - f id (.withdrawal w) + f id (.withdrawal w') := by
  have hkey : w.id = id := hk.keys_agree id _ hget
  have hv : v (Order.withdrawal w').getCUAddress = true := by
    have := hk.addr_valid id _ hget
    simpa [Order.getCUAddress, Order.base, haddr] using this
  rw [total_setOrder hv, Order.getID_withdrawal, hid, hkey, contrib_orders, hget]
  rfl

/-- Under the store invariant, rewriting a stored withdrawal under its ID
and owner writes that ID and no other. -/
theorem getOrder_rewrite {k k' : Keeper} {v : String → Bool} (hk : k.WF v) {id : String}
    {w w' : OrderWithdrawal} (hget : k.getOrder id = some (.withdrawal w))
    (hok : k' = k.setOrder v (.withdrawal w')) (hid : w'.id = w.id)
    (haddr : w'.cuAddress = w.cuAddress) (id' : String) :
    k'.getOrder id' = if id' = id then some (.withdrawal w') else k.getOrder id' := by
  subst hok
  by_cases hid' : id' = id
  · subst hid'
    rw [if_pos rfl]
    exact hk.getOrder_setOrder_update hget (by simp [hid]) (by simp [Order.getCUAddress, Order.base, haddr])
  · rw [if_neg hid']
    refine Keeper.getOrder_setOrder_of_ne _ _ _ ?_
    rw [Order.getID_withdrawal, hid, show w.id = id from hk.keys_agree id _ hget]
    exact hid'

/-! ## The ledger invariant -/

variable (balance : CUAddress × Denom → ℤ)

/-- **The withdrawal ledger.** Orders sit under their IDs at valid
addresses; every settled order's transaction was confirmed by the key
nodes; the held balance of each address and denomination is what its
pending orders lock; and its balance, held balance and what its settled
orders paid out add up to its genesis balance. -/
structure Ledger (s : State) : Prop where
  wf : s.ok.WF env.isValidAddr
  settled_confirmed : ∀ id w, s.ok.getOrder id = some (.withdrawal w) → w.status.settled = true →
    s.evidence.Confirmed Evidence.VoteBox.kind w.txhash
  held : ∀ a d, s.trk.getHoldBalance a d = s.ok.orders.total (heldFor env a d)
  conserved : ∀ a d, s.trk.getBalance a d + s.trk.getHoldBalance a d +
    s.ok.orders.total (paidFor env a d) = balance (a, d)

/-- **What a step may do to the stored orders**: keep each, or move a
pending withdrawal forward in its life cycle, keeping its owner, symbol
and amount. -/
def OrdersStep (s s' : State) : Prop :=
  ∀ id o, s.ok.getOrder id = some o → s'.ok.getOrder id = some o ∨
    ∃ w w', o = .withdrawal w ∧ w.status.terminated = false ∧
      s'.ok.getOrder id = some (.withdrawal w') ∧ w.status.leadsTo w'.status = true ∧
      w'.cuAddress = w.cuAddress ∧ w'.symbol = w.symbol ∧ w'.amount = w.amount

theorem OrdersStep.refl (s : State) : OrdersStep s s := fun _ _ h => .inl h

theorem OrdersStep.trans {s₁ s₂ s₃ : State} (h₁₂ : OrdersStep s₁ s₂) (h₂₃ : OrdersStep s₂ s₃) :
    OrdersStep s₁ s₃ := by
  intro id o h₁
  rcases h₁₂ id o h₁ with h₂ | ⟨w, w', rfl, hpending, h₂, hleads, haddr, hsym, hamt⟩
  · exact h₂₃ id o h₂
  · -- the order moved forward once; a second move composes with it
    rcases h₂₃ id _ h₂ with h₃ | ⟨_, w'', heq, -, h₃, hleads', haddr', hsym', hamt'⟩
    · exact .inr ⟨w, w', rfl, hpending, h₃, hleads, haddr, hsym, hamt⟩
    · cases heq
      exact .inr ⟨w, w'', rfl, hpending, h₃, OrderStatus.leadsTo_trans hleads hleads',
        haddr'.trans haddr, hsym'.trans hsym, hamt'.trans hamt⟩

variable {env balance}

/-! ## What one order write does to the ledger -/

section weights

variable {a : CUAddress} {d : Denom} {id : String} {w w' : OrderWithdrawal}

theorem heldFor_pending (hp : w.status.terminated = false) :
    heldFor env a d id (.withdrawal w) =
      if w.cuAddress = a then w.locked (env.chainOf w.symbol) d else 0 := by
  simp [heldFor, hp]

theorem heldFor_terminated (ht : w.status.terminated = true) : heldFor env a d id (.withdrawal w) = 0 := by
  simp [heldFor, ht]

theorem paidFor_unsettled (hs : w.status.settled = false) : paidFor env a d id (.withdrawal w) = 0 := by
  simp [paidFor, hs]

theorem paidFor_settled (hs : w.status.settled = true) :
    paidFor env a d id (.withdrawal w) =
      if w.cuAddress = a then w.paid (env.chainOf w.symbol) d else 0 := by
  simp [paidFor, hs]

/-- Two pending withdrawals of one owner, symbol, amount and fee hold
alike. -/
theorem heldFor_eq_of_pending (hp : w.status.terminated = false) (hp' : w'.status.terminated = false)
    (haddr : w'.cuAddress = w.cuAddress) (hsym : w'.symbol = w.symbol) (hamt : w'.amount = w.amount)
    (hfee : w'.gasFee = w.gasFee) :
    heldFor env a d id (.withdrawal w') = heldFor env a d id (.withdrawal w) := by
  rw [heldFor_pending hp, heldFor_pending hp']
  simp only [OrderWithdrawal.locked, haddr, hsym, hamt, hfee]

end weights

section steps

variable {s s' : State}

/-- A vote keeps every confirmation. -/
theorem confirmed_vote {k : Evidence.Keeper String (Evidence.VoteBox CUAddress TxVote)} {x : String}
    (hc : k.Confirmed Evidence.VoteBox.kind x) (voteID : String) (voter : CUAddress) (v : TxVote)
    (height n : ℕ) : (k.vote voteID voter v height n).2.Confirmed Evidence.VoteBox.kind x :=
  (Evidence.Keeper.confirmed_voteWithCustomBox Evidence.VoteBox.lawful_kind hc voteID voter v height n
    Evidence.newVoteBox).2

/-- A vote on a confirmed box reports no first confirmation. -/
theorem vote_first_of_confirmed {k : Evidence.Keeper String (Evidence.VoteBox CUAddress TxVote)}
    {x : String} (hc : k.Confirmed Evidence.VoteBox.kind x) (voter : CUAddress) (v : TxVote)
    (height n : ℕ) : (k.vote x voter v height n).1.1 = false :=
  (Evidence.Keeper.confirmed_voteWithCustomBox Evidence.VoteBox.lawful_kind hc x voter v height n
    Evidence.newVoteBox).1 rfl

/-- A vote that reports a first confirmation leaves its box confirmed. -/
theorem confirmed_vote_of_first {k : Evidence.Keeper String (Evidence.VoteBox CUAddress TxVote)}
    {x : String} {voter : CUAddress} {v : TxVote} {height n : ℕ}
    (h : (k.vote x voter v height n).1.1 = true) :
    (k.vote x voter v height n).2.Confirmed Evidence.VoteBox.kind x :=
  Evidence.Keeper.confirmed_of_first Evidence.VoteBox.lawful_kind h

/-- Only the evidence changed, and no confirmation was lost. -/
theorem Ledger.withEvidence (hL : Ledger env balance s) (hok : s'.ok = s.ok) (htrk : s'.trk = s.trk)
    (hconf : ∀ x, s.evidence.Confirmed Evidence.VoteBox.kind x →
      s'.evidence.Confirmed Evidence.VoteBox.kind x) :
    Ledger env balance s' := by
  refine ⟨hok ▸ hL.wf, fun id w hget hs => hconf _ (hL.settled_confirmed id w (hok ▸ hget) hs),
    fun a d => ?_, fun a d => ?_⟩
  · rw [hok, htrk]
    exact hL.held a d
  · rw [hok, htrk]
    exact hL.conserved a d

/-- **Rewriting one stored withdrawal** keeps the ledger when the balances
move as the order's weights do: the held balance by the change of what it
holds, the balance and held balance together against the change of what
it paid. -/
theorem Ledger.rewrite (hL : Ledger env balance s) {id : String} {w w' : OrderWithdrawal}
    (hget : s.ok.getOrder id = some (.withdrawal w))
    (hok : s'.ok = s.ok.setOrder env.isValidAddr (.withdrawal w')) (hid : w'.id = w.id)
    (haddr : w'.cuAddress = w.cuAddress)
    (hconf : ∀ x, s.evidence.Confirmed Evidence.VoteBox.kind x →
      s'.evidence.Confirmed Evidence.VoteBox.kind x)
    (hsettled : w'.status.settled = true → s'.evidence.Confirmed Evidence.VoteBox.kind w'.txhash)
    (hheld : ∀ a d, s'.trk.getHoldBalance a d - s.trk.getHoldBalance a d =
      heldFor env a d id (.withdrawal w') - heldFor env a d id (.withdrawal w))
    (hpaid : ∀ a d, s'.trk.getBalance a d + s'.trk.getHoldBalance a d -
      (s.trk.getBalance a d + s.trk.getHoldBalance a d) =
      paidFor env a d id (.withdrawal w) - paidFor env a d id (.withdrawal w')) :
    Ledger env balance s' := by
  refine ⟨hok ▸ hL.wf.setOrder _, fun id' w'' hget' hs => ?_, fun a d => ?_, fun a d => ?_⟩
  · -- the rewritten order, or one the rewrite left
    rw [getOrder_rewrite hL.wf hget hok hid haddr] at hget'
    split at hget'
    · cases hget'
      exact hsettled hs
    · exact hconf _ (hL.settled_confirmed id' w'' hget' hs)
  · rw [hok, total_rewrite hL.wf hget hid haddr, ← hL.held a d]
    have := hheld a d
    omega
  · rw [hok, total_rewrite hL.wf hget hid haddr, ← hL.conserved a d]
    have := hpaid a d
    omega

/-- **Rewriting a pending withdrawal into a pending one** of the same
owner, symbol, amount and fee keeps the ledger, with the balances
untouched. -/
theorem Ledger.rewrite_pending (hL : Ledger env balance s) {id : String} {w w' : OrderWithdrawal}
    (hget : s.ok.getOrder id = some (.withdrawal w))
    (hok : s'.ok = s.ok.setOrder env.isValidAddr (.withdrawal w')) (hid : w'.id = w.id)
    (haddr : w'.cuAddress = w.cuAddress) (hsym : w'.symbol = w.symbol) (hamt : w'.amount = w.amount)
    (hfee : w'.gasFee = w.gasFee) (hp : w.status.terminated = false)
    (hp' : w'.status.terminated = false) (htrk : s'.trk = s.trk)
    (hconf : ∀ x, s.evidence.Confirmed Evidence.VoteBox.kind x →
      s'.evidence.Confirmed Evidence.VoteBox.kind x) :
    Ledger env balance s' := by
  refine hL.rewrite hget hok hid haddr hconf (fun hs => ?_) (fun a d => ?_) (fun a d => ?_)
  · rw [OrderStatus.settled_eq_false hp'] at hs
    cases hs
  · rw [htrk, heldFor_eq_of_pending hp hp' haddr hsym hamt hfee, sub_self, sub_self]
  · rw [htrk, paidFor_unsettled (OrderStatus.settled_eq_false hp),
      paidFor_unsettled (OrderStatus.settled_eq_false hp'), sub_self, sub_self]

/-- **Releasing a pending withdrawal**: ending it in a terminated status
other than a settlement, with its amount and fee moved back from the held
balance to the balance, keeps the ledger. -/
theorem Ledger.release (hL : Ledger env balance s) {id : String} {w w' : OrderWithdrawal}
    {tokenInfo : IBCToken} (hget : s.ok.getOrder id = some (.withdrawal w))
    (hok : s'.ok = s.ok.setOrder env.isValidAddr (.withdrawal w')) (hid : w'.id = w.id)
    (haddr : w'.cuAddress = w.cuAddress) (hp : w.status.terminated = false)
    (ht : w'.status.terminated = true) (hs : w'.status.settled = false)
    (htoken : env.getIBCToken w.symbol = some tokenInfo)
    (hunlock : s.trk.unlockCoins w.cuAddress
      ((newCoins (w.symbol, w.amount)).add (newCoins (tokenInfo.chain, w.gasFee))) = .ok s'.trk)
    (hconf : ∀ x, s.evidence.Confirmed Evidence.VoteBox.kind x →
      s'.evidence.Confirmed Evidence.VoteBox.kind x) :
    Ledger env balance s' := by
  refine hL.rewrite hget hok hid haddr hconf (fun h => ?_) (fun a d => ?_) (fun a d => ?_)
  · rw [hs] at h
    cases h
  · -- the held balance drops by what the order locked
    obtain ⟨-, hhold⟩ := Balances.unlockCoins_eq_ok hunlock a d
    rw [hhold, heldFor_terminated ht, heldFor_pending hp, WithdrawalEnv.chainOf_eq htoken, lookup_need]
    by_cases ha : a = w.cuAddress
    · subst ha
      simp only [if_true, OrderWithdrawal.locked]
      ring
    · simp [ha, Ne.symm ha]
  · obtain ⟨hbal, hhold⟩ := Balances.unlockCoins_eq_ok hunlock a d
    rw [hbal, hhold, paidFor_unsettled (OrderStatus.settled_eq_false hp), paidFor_unsettled hs]
    ring

/-- **Storing a new withdrawal in `Begin`** under a free ID, with its
amount and fee moved from the balance to the held balance, keeps the
ledger. -/
theorem Ledger.insert (hL : Ledger env balance s) {w : OrderWithdrawal} {tokenInfo : IBCToken}
    {o : Order} (hnone : s.ok.getOrder w.id = none)
    (hok : s'.ok = (s.ok.addProcessOrder o).setOrder env.isValidAddr (.withdrawal w))
    (hv : env.isValidAddr w.cuAddress = true) (hbegin : w.status = .begin)
    (htoken : env.getIBCToken w.symbol = some tokenInfo)
    (hlock : s.trk.lockCoins w.cuAddress
      ((newCoins (w.symbol, w.amount)).add (newCoins (tokenInfo.chain, w.gasFee))) = .ok s'.trk)
    (hev : s'.evidence = s.evidence) :
    Ledger env balance s' := by
  have hp : w.status.terminated = false := by rw [hbegin]; rfl
  -- the new order adds its weight to every total
  have htotal : ∀ f : String → Order → ℤ, s'.ok.orders.total f = s.ok.orders.total f + f w.id (.withdrawal w) := by
    intro f
    rw [hok, total_setOrder hv, Keeper.orders_addProcessOrder, Order.getID_withdrawal, contrib_orders,
      hnone]
    simp
  refine ⟨hok ▸ (hL.wf.addProcessOrder o).setOrder _, fun id w' hget hs => ?_, fun a d => ?_,
    fun a d => ?_⟩
  · rw [hok, Keeper.getOrder_setOrder, Keeper.getOrder_addProcessOrder] at hget
    split at hget
    · cases hget
      rw [OrderStatus.settled_eq_false hp] at hs
      cases hs
    · exact hev ▸ hL.settled_confirmed id w' hget hs
  · obtain ⟨-, hhold⟩ := Balances.lockCoins_eq_ok hlock a d
    rw [htotal, ← hL.held a d, hhold, heldFor_pending hp, WithdrawalEnv.chainOf_eq htoken, lookup_need]
    by_cases ha : a = w.cuAddress
    · subst ha
      simp only [if_true, OrderWithdrawal.locked]
    · simp [ha, Ne.symm ha]
  · obtain ⟨hbal, hhold⟩ := Balances.lockCoins_eq_ok hlock a d
    rw [htotal, ← hL.conserved a d, hbal, hhold, paidFor_unsettled (OrderStatus.settled_eq_false hp)]
    ring

/-- **Moving one pending withdrawal forward** is a step of the orders. -/
theorem OrdersStep.rewrite {v : String → Bool} (hk : s.ok.WF v) {id : String}
    {w w' : OrderWithdrawal} (hget : s.ok.getOrder id = some (.withdrawal w))
    (hok : s'.ok = s.ok.setOrder v (.withdrawal w')) (hid : w'.id = w.id)
    (haddr : w'.cuAddress = w.cuAddress) (hp : w.status.terminated = false)
    (hleads : w.status.leadsTo w'.status = true) (hsym : w'.symbol = w.symbol)
    (hamt : w'.amount = w.amount) : OrdersStep s s' := by
  intro id' o h'
  rw [getOrder_rewrite hk hget hok hid haddr]
  by_cases hid' : id' = id
  · subst hid'
    rw [hget] at h'
    cases h'
    exact .inr ⟨w, w', rfl, hp, if_pos rfl, hleads, haddr, hsym, hamt⟩
  · exact .inl (by rw [if_neg hid', h'])

/-- A step that leaves the orders is a step of the orders. -/
theorem OrdersStep.of_ok (hok : s'.ok = s.ok) : OrdersStep s s' := fun _ _ h => .inl (hok ▸ h)

/-! ## The handlers -/

variable {height : ℕ} {fromCUAddr : CUAddress} {orderID : String}

/-- **`Withdrawal` keeps the ledger**: the new order locks what the call
moved into the held balance. -/
theorem ledger_withdrawal (hV : env.Valid) (hL : Ledger env balance s) {toAddr symbol : String}
    {amt gasFee : ℤ} (h : withdrawal env s height fromCUAddr toAddr orderID symbol amt gasFee = .ok s') :
    Ledger env balance s' ∧ OrdersStep s s' := by
  obtain ⟨cuType, tokenInfo, w₀, w, hcu, htoken, hnone, hlock, -, -, hid, haddr, hsym, hamt, hfee,
    hbegin, hok, hev⟩ := withdrawal_eq_ok h
  subst hid haddr hsym hamt hfee
  refine ⟨hL.insert hnone hok (hV.cu_addr_valid _ _ hcu) hbegin htoken hlock hev, fun id o hget => .inl ?_⟩
  -- the fresh ID held nothing, so every stored order keeps its place
  have hne : id ≠ w.id := fun h => by rw [h, hnone] at hget; cases hget
  rw [hok, Keeper.getOrder_setOrder_of_ne _ _ _ (by rw [Order.getID_withdrawal]; exact hne),
    Keeper.getOrder_addProcessOrder, hget]

/-- **`WithdrawalConfirm` keeps the ledger**: a ballot only adds to the
boxes; the one that confirms marks the order valid, or releases it. -/
theorem ledger_withdrawalConfirm (hL : Ledger env balance s) {valid : Bool}
    (h : withdrawalConfirm env s height fromCUAddr orderID valid = .ok s') :
    Ledger env balance s' ∧ OrdersStep s s' := by
  obtain ⟨w, tokenInfo, flags, ev, hget, hbegin, htoken, hvote, hev, hnone, hvalid, hinvalid⟩ :=
    withdrawalConfirm_eq_ok h
  have hp : w.status.terminated = false := by rw [hbegin]; rfl
  have hconf : ∀ x, s.evidence.Confirmed Evidence.VoteBox.kind x →
      s'.evidence.Confirmed Evidence.VoteBox.kind x := fun x hc => by
    have := confirmed_vote hc orderID fromCUAddr (newTxVote 0 valid) height env.keyNodeCount
    rwa [hvote, ← hev] at this
  cases hflag : flags.1 with
  | false =>
    -- the box is not confirmed yet: only the ballot is recorded
    obtain ⟨hok, htrk⟩ := hnone hflag
    exact ⟨hL.withEvidence hok htrk hconf, OrdersStep.of_ok hok⟩
  | true =>
    cases valid with
    | true =>
      -- the order is marked valid and stays in `Begin`
      obtain ⟨hok, htrk⟩ := hvalid hflag rfl
      exact ⟨hL.rewrite_pending hget hok rfl rfl rfl rfl rfl hp hp htrk hconf,
        OrdersStep.rewrite hL.wf hget hok rfl rfl hp (OrderStatus.leadsTo_refl _) rfl rfl⟩
    | false =>
      -- the order is cancelled and its lock released
      obtain ⟨hok, hunlock⟩ := hinvalid hflag rfl
      exact ⟨hL.release hget hok rfl rfl hp rfl rfl htoken hunlock hconf,
        OrdersStep.rewrite hL.wf hget hok rfl rfl hp (by rw [hbegin]; rfl) rfl rfl⟩

/-- **`CancelWithdrawal` keeps the ledger**: the order ends `Cancel` and its
lock is released. -/
theorem ledger_cancelWithdrawal (hL : Ledger env balance s)
    (h : cancelWithdrawal env s fromCUAddr orderID = .ok s') :
    Ledger env balance s' ∧ OrdersStep s s' := by
  obtain ⟨w, tokenInfo, hget, haddr, hbegin, htoken, hunlock, hok, hev⟩ := cancelWithdrawal_eq_ok h
  have hp : w.status.terminated = false := by rw [hbegin]; rfl
  subst haddr
  exact ⟨hL.release hget hok rfl rfl hp rfl rfl htoken hunlock fun _ h => hev ▸ h,
    OrdersStep.rewrite hL.wf hget hok rfl rfl hp (by rw [hbegin]; rfl) rfl rfl⟩

/-- **A signing step keeps the ledger**: it moves pending orders to a
pending status, with the balances and the evidence untouched. -/
theorem SignsOrders.ledger {orderIDs : List String} {before after : OrderStatus}
    (hb : before.terminated = false) (ha : after.terminated = false)
    (hleads : before.leadsTo after = true) (hL : Ledger env balance s)
    (h : SignsOrders env s s' orderIDs before after) : Ledger env balance s' ∧ OrdersStep s s' := by
  obtain ⟨hnodup, hstored, ⟨update, hupd, hloop⟩, htrk, hev⟩ := h
  obtain ⟨hwf, hout, hin⟩ := updateWithdrawalOrders_eq_ok (fun w => (hupd w).1) (fun w => (hupd w).2.1)
    orderIDs hL.wf hnodup (fun id hid => (hstored id hid).imp fun _ h => h.1) hloop
  -- a listed ID holds the update of the order it held, in status `before`
  have hlisted : ∀ id ∈ orderIDs, ∃ w, s.ok.getOrder id = some (.withdrawal w) ∧
      w.status = before ∧ s'.ok.getOrder id = some (.withdrawal (update w)) := by
    intro id hid
    obtain ⟨w, hw, hw'⟩ := hin id hid
    obtain ⟨w₁, hw₁, hst⟩ := hstored id hid
    rw [hw] at hw₁
    cases hw₁
    exact ⟨w, hw, hst, hw'⟩
  -- so every total over the orders that the update does not change is kept
  have hsame : ∀ f : String → Order → ℤ, (∀ id w, w.status = before →
      f id (.withdrawal (update w)) = f id (.withdrawal w)) →
      s'.ok.orders.total f = s.ok.orders.total f := by
    intro f hf
    refine Store.total_congr fun id => ?_
    rw [contrib_orders, contrib_orders]
    by_cases hid : id ∈ orderIDs
    · obtain ⟨w, hw, hst, hw'⟩ := hlisted id hid
      rw [hw, hw']
      exact congrArg (fun x => (some x).getD 0) (hf id w hst)
    · rw [hout id hid]
  have hpending : ∀ w : OrderWithdrawal, w.status = before →
      w.status.terminated = false ∧ (update w).status.terminated = false := fun w hst =>
    ⟨hst ▸ hb, (hupd w).2.2.2.2.2 ▸ ha⟩
  refine ⟨⟨hwf, fun id w' hget hs => ?_, fun a d => ?_, fun a d => ?_⟩, fun id o hget => ?_⟩
  · rw [hev]
    by_cases hid : id ∈ orderIDs
    · obtain ⟨w, -, hst, hw'⟩ := hlisted id hid
      rw [hget] at hw'
      cases hw'
      rw [OrderStatus.settled_eq_false (hpending w hst).2] at hs
      cases hs
    · exact hL.settled_confirmed id w' ((hout id hid).symm.trans hget) hs
  · rw [htrk, hL.held a d]
    refine (hsame _ fun id w hst => ?_).symm
    obtain ⟨hp, hp'⟩ := hpending w hst
    obtain ⟨-, haddr, hsym, hamt, hfee, -⟩ := hupd w
    exact heldFor_eq_of_pending hp hp' haddr hsym hamt hfee
  · rw [htrk, hsame _ fun id w hst => ?_]
    · exact hL.conserved a d
    · obtain ⟨hp, hp'⟩ := hpending w hst
      rw [paidFor_unsettled (OrderStatus.settled_eq_false hp),
        paidFor_unsettled (OrderStatus.settled_eq_false hp')]
  · by_cases hid : id ∈ orderIDs
    · obtain ⟨w, hw, hst, hw'⟩ := hlisted id hid
      rw [hw] at hget
      cases hget
      obtain ⟨-, haddr, hsym, hamt, -, hafter⟩ := hupd w
      exact .inr ⟨w, update w, rfl, (hpending w hst).1, hw', by rw [hst, hafter]; exact hleads, haddr,
        hsym, hamt⟩
    · exact .inl ((hout id hid).trans hget)

/-! ## The settlement -/

/-- **The gas refund**: the unused gas of a withdrawal of the chain's own
token, and the order with its fee lowered to the cost. -/
theorem gasRefund_eq_ok {chain : Denom} {costFee : ℤ} {w w₁ : OrderWithdrawal} {refund : Coins}
    (h : gasRefund chain costFee w = .ok (refund, w₁)) :
    Coins.WF refund ∧
      (∀ d, lookup d refund =
        if costFee < w.gasFee ∧ w.symbol = chain ∧ chain = d then w.gasFee - costFee else 0) ∧
      w₁ = { w with gasFee := if costFee < w.gasFee ∧ w.symbol = chain then costFee else w.gasFee } := by
  unfold gasRefund at h
  split at h
  · rename_i hcond
    simp only [bind_eq_ok, pure_eq_ok] at h
    obtain ⟨refundCoin, hrc, heq⟩ := h
    obtain ⟨-, -, rfl⟩ := newCoin_eq_ok.mp hrc
    obtain ⟨rfl, rfl⟩ := Prod.mk.inj heq
    refine ⟨Coins.wf_add Coins.wf_nil (Coins.wf_newCoins _), fun d => ?_, by rw [if_pos hcond]⟩
    rw [lookup_add Coins.wf_nil (Coins.wf_newCoins _), lookup_newCoins, lookup_nil, zero_add]
    by_cases hd : chain = d <;> simp [hcond, hd]
  · rename_i hcond
    cases h
    refine ⟨Coins.wf_nil, fun d => ?_, by rw [if_neg hcond]⟩
    rw [if_neg fun h => hcond ⟨h.1, h.2.1⟩, lookup_nil]

/-- `addRefund` credits the refund, or nothing when there is none. -/
theorem addRefund_eq_ok {trk trk' : Balances} {addr : CUAddress} {refund : Coins}
    (h : addRefund trk addr refund = .ok trk') (a : CUAddress) (d : Denom) :
    trk'.getBalance a d = trk.getBalance a d + (if a = addr then lookup d refund else 0) ∧
      trk'.getHoldBalance a d = trk.getHoldBalance a d := by
  unfold addRefund at h
  split at h
  · rename_i hempty
    cases h
    rw [List.isEmpty_iff.mp hempty]
    simp
  · exact Balances.addCoins_eq_ok h a d

/-- **One settlement, with its balances**: the held amount and fee are
spent, the unused gas and, for a failed transfer, the amount are credited
back, and the order is written settled with its fee lowered to the
cost. -/
theorem settleWithdrawalOrder_balances {env₀ : Env} {chain symbol : Denom} {costFee : ℤ}
    {valid : Bool} {orderID : String}
    (h : settleWithdrawalOrder env₀ chain symbol costFee valid s orderID = .ok s') :
    ∃ w, s.ok.getOrder orderID = some (.withdrawal w) ∧
      s'.ok = s.ok.setOrder env₀.isValidAddr (.withdrawal
        { w with
          gasFee := if costFee < w.gasFee ∧ w.symbol = chain then costFee else w.gasFee
          status := if valid then .finish else .failed }) ∧
      s'.evidence = s.evidence ∧
      ∀ a d, s'.trk.getBalance a d = s.trk.getBalance a d + (if a = w.cuAddress then
          (if costFee < w.gasFee ∧ w.symbol = chain ∧ chain = d then w.gasFee - costFee else 0) +
            (if valid = false ∧ symbol = d then w.amount else 0) else 0) ∧
        s'.trk.getHoldBalance a d = s.trk.getHoldBalance a d - (if a = w.cuAddress then
          (if symbol = d then w.amount else 0) + (if chain = d then w.gasFee else 0) else 0) := by
  unfold settleWithdrawalOrder at h
  simp only [bind_eq_ok, pure_eq_ok, orFail_eq_ok] at h
  obtain ⟨order, hget, w, hw, feeCoin, hfeeCoin, coin, hcoin, trk, hsub, ⟨refund, w₁⟩, hrefund, trk',
    hadd, rfl⟩ := h
  rw [Order.asWithdrawal_eq_some] at hw
  subst hw
  obtain ⟨-, -, rfl⟩ := newCoin_eq_ok.mp hfeeCoin
  obtain ⟨-, -, rfl⟩ := newCoin_eq_ok.mp hcoin
  obtain ⟨hwf, hlookup, rfl⟩ := gasRefund_eq_ok hrefund
  refine ⟨w, hget, rfl, rfl, fun a d => ?_⟩
  obtain ⟨-, hhold⟩ := Balances.subCoinsHold_eq_ok hsub a d
  obtain ⟨hbal', hhold'⟩ := addRefund_eq_ok hadd a d
  obtain ⟨hbal, -⟩ := Balances.subCoinsHold_eq_ok hsub a d
  -- what is credited back: the unused gas, and the amount when the transfer failed
  have hcredit : lookup d (if valid then refund else refund.add (newCoins (symbol, w.amount))) =
      (if costFee < w.gasFee ∧ w.symbol = chain ∧ chain = d then w.gasFee - costFee else 0) +
        (if valid = false ∧ symbol = d then w.amount else 0) := by
    cases valid
    · rw [if_neg Bool.false_ne_true, lookup_add hwf (Coins.wf_newCoins _), hlookup, lookup_newCoins]
      simp
    · rw [if_pos rfl, hlookup]
      simp
  exact ⟨by rw [hbal', hbal, hcredit], by rw [hhold', hhold, lookup_need]⟩

/-- **What a settlement spends of a withdrawal's lock it credits back or
records as paid**, at every denomination. -/
theorem credit_add_paid (w : OrderWithdrawal) (chain : Denom) (costFee : ℤ) (valid : Bool) (d : Denom) :
    (if costFee < w.gasFee ∧ w.symbol = chain ∧ chain = d then w.gasFee - costFee else 0) +
        (if valid = false ∧ w.symbol = d then w.amount else 0) +
      OrderWithdrawal.paid chain
        { w with
          gasFee := if costFee < w.gasFee ∧ w.symbol = chain then costFee else w.gasFee
          status := if valid then .finish else .failed } d =
      w.locked chain d := by
  unfold OrderWithdrawal.paid OrderWithdrawal.locked
  cases valid <;> dsimp only <;> split_ifs <;> simp_all <;> omega

/-- **One settlement keeps the ledger**, for an order in `SignFinish` whose
transaction the key nodes confirmed, settled in its own chain's token. -/
theorem Ledger.settle (hL : Ledger env balance s) {chain symbol : Denom} {costFee : ℤ}
    {valid : Bool} {id : String} {w : OrderWithdrawal} (hget : s.ok.getOrder id = some (.withdrawal w))
    (hstatus : w.status = .signFinish) (hsym : w.symbol = symbol) (hchain : env.chainOf symbol = chain)
    (hconf : s.evidence.Confirmed Evidence.VoteBox.kind w.txhash)
    (h : settleWithdrawalOrder env.toEnv chain symbol costFee valid s id = .ok s') :
    Ledger env balance s' ∧ OrdersStep s s' := by
  obtain ⟨w₀, hget₀, hok, hev, hbal⟩ := settleWithdrawalOrder_balances h
  rw [hget] at hget₀
  cases hget₀
  subst hsym hchain
  have hp : w.status.terminated = false := by rw [hstatus]; rfl
  have hsettled : (if valid then OrderStatus.finish else .failed).settled = true := by
    cases valid <;> rfl
  refine ⟨hL.rewrite hget hok rfl rfl (fun _ h => hev ▸ h) (fun _ => hev ▸ hconf) (fun a d => ?_)
    (fun a d => ?_), OrdersStep.rewrite hL.wf hget hok rfl rfl hp ?_ rfl rfl⟩
  · -- the held balance drops by the lock, and the settled order holds nothing
    obtain ⟨-, hhold⟩ := hbal a d
    rw [hhold, heldFor_terminated (by cases valid <;> rfl), heldFor_pending hp]
    by_cases ha : a = w.cuAddress
    · subst ha
      simp only [if_true, OrderWithdrawal.locked]
      ring
    · simp [ha, Ne.symm ha]
  · -- what is not credited back is paid
    obtain ⟨hbal', hhold⟩ := hbal a d
    rw [hbal', hhold, paidFor_unsettled (OrderStatus.settled_eq_false hp), paidFor_settled hsettled]
    have hsum := credit_add_paid w (env.chainOf w.symbol) costFee valid d
    by_cases ha : a = w.cuAddress
    · subst ha
      simp only [if_true]
      unfold OrderWithdrawal.locked at hsum
      linarith
    · simp [ha, Ne.symm ha]
  · rw [hstatus]
    cases valid <;> rfl

/-- **The settlement loop keeps the ledger**, on distinct orders of one
symbol in `SignFinish` carrying a transaction whose box is confirmed. -/
theorem ledger_settleWithdrawalOrders {chain symbol : Denom} {costFee : ℤ} {valid : Bool}
    {txhash : String} (hchain : env.chainOf symbol = chain) :
    ∀ (orderIDs : List String) {s s' : State}, Ledger env balance s → orderIDs.Nodup →
      s.evidence.Confirmed Evidence.VoteBox.kind txhash →
      (∀ id ∈ orderIDs, ∃ w, s.ok.getOrder id = some (.withdrawal w) ∧ w.status = .signFinish ∧
        w.symbol = symbol ∧ w.txhash = txhash) →
      settleWithdrawalOrders env.toEnv chain symbol costFee valid s orderIDs = .ok s' →
      Ledger env balance s' ∧ OrdersStep s s'
  | [], s, _, hL, _, _, _, h => by
    cases h
    exact ⟨hL, OrdersStep.refl s⟩
  | orderID :: orderIDs, s, _, hL, hnodup, hconf, hall, h => by
    obtain ⟨s₁, h₁, hrest⟩ := bind_eq_ok.mp h
    obtain ⟨w, hget, hstatus, hsym, htx⟩ := hall orderID List.mem_cons_self
    obtain ⟨hL₁, hstep₁⟩ := hL.settle hget hstatus hsym hchain (htx ▸ hconf) h₁
    obtain ⟨-, hframe, -, hev⟩ := settleWithdrawalOrder_getOrder hL.wf h₁
    obtain ⟨hnotin, hnodup'⟩ := List.nodup_cons.mp hnodup
    -- the orders the rest of the loop settles are untouched by this pass
    have hall' : ∀ id ∈ orderIDs, ∃ w, s₁.ok.getOrder id = some (.withdrawal w) ∧
        w.status = .signFinish ∧ w.symbol = symbol ∧ w.txhash = txhash := by
      intro id hid
      rw [hframe id fun h => hnotin (h ▸ hid)]
      exact hall id (List.mem_cons_of_mem _ hid)
    obtain ⟨hL', hstep⟩ :=
      ledger_settleWithdrawalOrders hchain orderIDs hL₁ hnodup' (hev ▸ hconf) hall' hrest
    exact ⟨hL', hstep₁.trans hstep⟩

/-- **The operation CU's order write keeps the ledger**: it records the
cost on a pending order, and every order keeps its status, symbol and
transaction. -/
theorem ledger_opCUOrderUpdate (hL : Ledger env balance s) {id : String} {order : OrderWithdrawal}
    (hget : s.ok.getOrder id = some (.withdrawal order)) (hp : order.status.terminated = false)
    {tokenInfo : IBCToken} {costFee : ℤ}
    (h : opCUOrderUpdate env.toEnv s tokenInfo order costFee = .ok s') :
    Ledger env balance s' ∧ OrdersStep s s' ∧ s'.evidence = s.evidence ∧
      ∀ id' w, s.ok.getOrder id' = some (.withdrawal w) → ∃ w', s'.ok.getOrder id' = some (.withdrawal w') ∧
        w'.status = w.status ∧ w'.symbol = w.symbol ∧ w'.txhash = w.txhash := by
  unfold opCUOrderUpdate at h
  split at h
  · cases h
    exact ⟨hL, OrdersStep.refl s, rfl, fun _ w hw => ⟨w, hw, rfl, rfl, rfl⟩⟩
  · -- an account-based token: the cost is written on the order
    have hs' := Except.ok.inj h
    have hok : s'.ok = s.ok.setOrder env.isValidAddr (.withdrawal { order with costFee := costFee }) := by
      rw [← hs']
    have hev : s'.evidence = s.evidence := by rw [← hs']
    refine ⟨hL.rewrite_pending hget hok rfl rfl rfl rfl rfl hp hp (by rw [← hs']) fun _ h => hev ▸ h,
      OrdersStep.rewrite hL.wf hget hok rfl rfl hp (OrderStatus.leadsTo_refl _) rfl rfl, hev,
      fun id' w hw => ?_⟩
    rw [getOrder_rewrite hL.wf hget hok rfl rfl]
    by_cases hid : id' = id
    · subst hid
      rw [hget] at hw
      cases hw
      exact ⟨_, if_pos rfl, rfl, rfl, rfl⟩
    · exact ⟨w, by rw [if_neg hid, hw], rfl, rfl, rfl⟩
  · cases h

/-- **`WithdrawalFinish` keeps the ledger.** A ballot that does not
confirm only adds to the boxes. One that confirms settles orders that were
signed and not settled: the checks let settled orders through, but every
settled order's transaction box is already confirmed, and a vote there
never reports a first confirmation. -/
theorem ledger_withdrawalFinish (hV : env.Valid) (hL : Ledger env balance s) {orderIDs : List String}
    {costFee : ℤ} {valid : Bool}
    (h : withdrawalFinish env.toEnv s height fromCUAddr orderIDs costFee valid = .ok s') :
    Ledger env balance s' ∧ OrdersStep s s' := by
  unfold withdrawalFinish at h
  simp only [bind_eq_ok, orFail_eq_ok, failIf_eq_ok] at h
  obtain ⟨-, -, orderID₀, hhead, ord, hget, w, hw, h⟩ := h
  rw [Order.asWithdrawal_eq_some] at hw
  subst hw
  -- the state after the ballot
  let s₁ : State := { s with evidence := (s.evidence.vote w.txhash fromCUAddr (newTxVote costFee true)
    height env.keyNodeCount).2 }
  have hL₁ : Ledger env balance s₁ := hL.withEvidence rfl rfl fun x hc => confirmed_vote hc _ _ _ _ _
  cases hflag : (s.evidence.vote w.txhash fromCUAddr (newTxVote costFee true) height
    env.keyNodeCount).1.1 with
  | false =>
    rw [hflag, if_neg Bool.false_ne_true, pure_eq_ok] at h
    subst h
    exact ⟨hL₁, OrdersStep.of_ok rfl⟩
  | true =>
    rw [hflag, if_pos rfl] at h
    -- a first confirmation: the box was not confirmed, so the first order is not settled
    have hunsettled : w.status.settled = false := by
      cases hs : w.status.settled
      · rfl
      · have := vote_first_of_confirmed (hL.settled_confirmed _ _ hget hs) fromCUAddr
          (newTxVote costFee true) height env.keyNodeCount
        rw [hflag] at this
        cases this
    have hconf₁ : s₁.evidence.Confirmed Evidence.VoteBox.kind w.txhash := confirmed_vote_of_first hflag
    unfold withdrawalFinishConfirmed at h
    simp only [bind_eq_ok, orFail_eq_ok] at h
    obtain ⟨⟨tokenInfo, ws⟩, hcheck, order, horder, -, -, s₂, hop, hsettle⟩ := h
    obtain ⟨orderID₀', w₀, hhead', hget₀, htoken, hnodup, hall, hmem⟩ := checkWithdrawalOrders_eq_ok hcheck
    rw [hhead] at hhead'
    cases hhead'
    have hw₀ : w₀ = w := by
      have := hget₀.symm.trans hget
      simpa using this
    subst hw₀
    -- so it is in `SignFinish`, and so is every order of the report
    have hsign : w₀.status = .signFinish := by
      obtain ⟨w', hw'⟩ := hall orderID₀ (List.mem_of_mem_head? hhead)
      have hw'₀ : w' = w₀ := by
        have := hw'.1.symm.trans hget
        simpa using this
      subst hw'₀
      rcases (OrderStatus.signFinish_match_iff _).mp hw'.2.1 with hst | hst | hst
      · exact hst
      · rw [hst] at hunsettled
        cases hunsettled
      · rw [hst] at hunsettled
        cases hunsettled
    obtain ⟨idₒ, -, hchecked⟩ := hmem order (List.mem_of_mem_head? horder)
    have hpo : order.status.terminated = false := by rw [hchecked.2.2.1, hsign]; rfl
    obtain ⟨hL₂, hstep₂, hev₂, hkept⟩ := ledger_opCUOrderUpdate hL₁ hchecked.1 hpo hop
    have hsymbol : tokenInfo.symbol = w₀.symbol := hV.token_symbol _ _ htoken
    have hall₂ : ∀ id ∈ orderIDs, ∃ w, s₂.ok.getOrder id = some (.withdrawal w) ∧
        w.status = .signFinish ∧ w.symbol = tokenInfo.symbol ∧ w.txhash = w₀.txhash := by
      intro id hid
      obtain ⟨w', hget', -, hst, -, hsym, htx⟩ := hall id hid
      obtain ⟨w'', hget'', hst', hsym', htx'⟩ := hkept id w' hget'
      exact ⟨w'', hget'', hst'.trans (hst.trans hsign), hsym'.trans (hsym.trans hsymbol.symm),
        htx'.trans htx⟩
    have hchain : env.chainOf tokenInfo.symbol = tokenInfo.chain := by
      rw [hsymbol]
      exact WithdrawalEnv.chainOf_eq htoken
    obtain ⟨hL', hstep'⟩ :=
      ledger_settleWithdrawalOrders hchain orderIDs hL₂ hnodup (hev₂ ▸ hconf₁) hall₂ hsettle
    exact ⟨hL', (OrdersStep.of_ok rfl : OrdersStep s s₁).trans (hstep₂.trans hstep')⟩

/-! ## The machine -/

/-- **Every withdrawal message keeps the ledger**, and moves the orders
forward only. -/
theorem ledger_handler (hV : env.Valid) (hL : Ledger env balance s) {msg : Lifecycle.Msg}
    (h : Lifecycle.handler env s height msg = .ok s') : Ledger env balance s' ∧ OrdersStep s s' := by
  cases msg with
  | withdrawal msg =>
    simp only [Lifecycle.handler, handleMsgWithdrawal, bind_eq_ok, failIf_eq_ok, orFail_eq_ok] at h
    obtain ⟨-, -, fromCUAddr, -, h⟩ := h
    exact ledger_withdrawal hV hL h
  | withdrawalConfirm msg =>
    simp only [Lifecycle.handler, handleMsgWithdrawalConfirm, bind_eq_ok, failIf_eq_ok,
      orFail_eq_ok] at h
    obtain ⟨-, -, fromCUAddr, -, h⟩ := h
    exact ledger_withdrawalConfirm hL h
  | withdrawalWaitSign msg =>
    simp only [Lifecycle.handler, handleMsgWithdrawalWaitSign, bind_eq_ok, failIf_eq_ok] at h
    obtain ⟨-, -, h⟩ := h
    exact (withdrawalWaitSign_eq_ok h).ledger rfl rfl rfl hL
  | withdrawalSignFinish msg =>
    simp only [Lifecycle.handler, handleMsgWithdrawalSignFinish, bind_eq_ok, failIf_eq_ok] at h
    obtain ⟨-, -, h⟩ := h
    exact (withdrawalSignFinish_eq_ok h).ledger rfl rfl rfl hL
  | withdrawalFinish msg =>
    simp only [Lifecycle.handler, handleMsgWithdrawalFinish, bind_eq_ok, failIf_eq_ok,
      orFail_eq_ok] at h
    obtain ⟨-, -, fromCU, -, h⟩ := h
    exact ledger_withdrawalFinish hV hL h
  | cancelWithdrawal msg =>
    simp only [Lifecycle.handler, handleMsgCancelWithdrawal, bind_eq_ok, failIf_eq_ok,
      orFail_eq_ok] at h
    obtain ⟨-, -, fromCUAddr, -, h⟩ := h
    exact ledger_cancelWithdrawal hL h

/-- **One transaction keeps the ledger**, and moves the orders forward
only: a rejected one changes nothing. -/
theorem ledger_step (hV : env.Valid) (hL : Ledger env balance s) (tx : Lifecycle.Tx) :
    Ledger env balance (Lifecycle.step env s tx) ∧ OrdersStep s (Lifecycle.step env s tx) := by
  unfold Lifecycle.step
  refine commit_preserves (I := fun s' => Ledger env balance s' ∧ OrdersStep s s') (fun s' h => ?_)
    ⟨hL, OrdersStep.refl s⟩
  simp only [Lifecycle.deliverTx, bind_eq_ok] at h
  obtain ⟨-, -, h⟩ := h
  exact ledger_handler hV hL h

end steps

/-- At genesis nothing is held and no order is stored. -/
theorem ledger_init : Ledger env balance (Lifecycle.init balance) where
  wf := Keeper.wf_empty
  settled_confirmed _ _ h := by cases h
  held _ _ := rfl
  conserved _ _ := by
    show balance _ + 0 + 0 = balance _
    ring

/-- **The ledger holds in every state a run from genesis reaches.** -/
theorem ledger_of_reachable (hV : env.Valid) {s : State}
    (h : Reachable (Lifecycle.step env) (Lifecycle.init balance) s) : Ledger env balance s :=
  h.invariant ledger_init fun _ tx hL => (ledger_step hV hL tx).1

/-- **Along any run from a state of the ledger, the orders only move
forward.** -/
theorem ordersStep_run (hV : env.Valid) {s : State} (hL : Ledger env balance s)
    (txs : List Lifecycle.Tx) : OrdersStep s (run (Lifecycle.step env) s txs) :=
  run_rel OrdersStep.refl (fun _ _ _ => OrdersStep.trans)
    (fun s tx (hL : Ledger env balance s) => (ledger_step hV hL tx).1)
    (fun s tx (hL : Ledger env balance s) => (ledger_step hV hL tx).2) txs hL

/-! ## A withdrawal from request to settlement

`alice` withdraws 10 `eth` with a gas fee of 1; three of four key nodes
confirm the request, the operation CU signs, and three key nodes report
the transaction with a cost of 1. -/

/-- The key nodes and the token of `keyNodeEnv`, a withdrawal fee rate of
one, every address valid and owned by no CU, and an operation CU whose
checks pass. -/
def keyNodeWithdrawalEnv : WithdrawalEnv :=
  { keyNodeEnv with
    withdrawalFeeRate := fun _ => Dec.one
    validAddress := fun _ _ addr => (true, addr)
    getCUFromExtAddress := fun _ _ => none
    opCUWaitSign := fun _ _ _ _ _ => .ok ⟨"opaddr", 1, 0⟩
    opCUSignFinish := fun _ _ _ => .ok "h" }

theorem keyNodeWithdrawalEnv_valid : keyNodeWithdrawalEnv.Valid where
  token_symbol d t h := by
    simp only [keyNodeWithdrawalEnv, keyNodeEnv] at h
    split at h
    · cases h
      subst d
      rfl
    · cases h
  cu_addr_valid _ _ _ := rfl

/-- `alice` starts with 20 `eth`. -/
def aliceBalance (p : CUAddress × Denom) : ℤ := if p = ("alice", "eth") then 20 else 0

/-- The request, the three confirmations, the two signing steps and the
three reports. -/
def withdrawalRun : List Lifecycle.Tx :=
  [⟨1, .withdrawal ⟨"alice", "ext", "eth", 10, 1, "w1"⟩⟩,
    ⟨2, .withdrawalConfirm ⟨"k1", "w1", true⟩⟩,
    ⟨2, .withdrawalConfirm ⟨"k2", "w1", true⟩⟩,
    ⟨2, .withdrawalConfirm ⟨"k3", "w1", true⟩⟩,
    ⟨3, .withdrawalWaitSign ⟨"opcu", ["w1"], ["sighash"], "raw", "k1"⟩⟩,
    ⟨4, .withdrawalSignFinish ⟨["w1"], "signed", "k1"⟩⟩,
    ⟨5, .withdrawalFinish ⟨"k1", ["w1"], 1, true⟩⟩,
    ⟨5, .withdrawalFinish ⟨"k2", ["w1"], 1, true⟩⟩,
    ⟨5, .withdrawalFinish ⟨"k3", ["w1"], 1, true⟩⟩]

/-- The state after the first `n` transactions of the run. -/
def withdrawalRunState (n : ℕ) : State :=
  run (Lifecycle.step keyNodeWithdrawalEnv) (Lifecycle.init aliceBalance) (withdrawalRun.take n)

/-- The order as the request stores it. -/
def requestedWithdrawal : OrderWithdrawal :=
  { cuAddress := "alice", id := "w1", orderType := .withdrawal, symbol := "eth", status := .begin,
    height := 1, amount := 10, gasFee := 1, costFee := 0, withdrawToAddress := "ext",
    fromAddress := "", opCUaddress := "", utxoInNum := 0, txhash := "", rawData := "",
    signedTx := "", withdrawStatus := .unconfirmed }

/-- The order as the settlement leaves it. -/
def settledWithdrawal : OrderWithdrawal :=
  { cuAddress := "alice", id := "w1", orderType := .withdrawal, symbol := "eth", status := .finish,
    height := 3, amount := 10, gasFee := 1, costFee := 1, withdrawToAddress := "ext",
    fromAddress := "opaddr", opCUaddress := "opcu", utxoInNum := 0, txhash := "h", rawData := "raw",
    signedTx := "signed", withdrawStatus := .valid }

/-! ## What every run from genesis keeps -/

/-- **The held balance of every address and denomination is what its
pending withdrawals lock**, in every state a run from genesis reaches. -/
theorem hold_balance_locks_pending_withdrawals (hV : env.Valid) {s : State}
    (h : Reachable (Lifecycle.step env) (Lifecycle.init balance) s) (a : CUAddress) (d : Denom) :
    s.trk.getHoldBalance a d = s.ok.orders.total (heldFor env a d) :=
  (ledger_of_reachable hV h).held a d

/-- Once the order is signed, `alice` holds the 11 `eth` it locks. -/
theorem hold_balance_locks_signed_withdrawal :
    (withdrawalRunState 6).trk.getHoldBalance "alice" "eth" =
        (withdrawalRunState 6).ok.orders.total (heldFor keyNodeWithdrawalEnv "alice" "eth") ∧
      (withdrawalRunState 6).trk.getHoldBalance "alice" "eth" = 11 :=
  ⟨hold_balance_locks_pending_withdrawals keyNodeWithdrawalEnv_valid ⟨_, rfl⟩ "alice" "eth",
    by decide +kernel⟩

/-- **No coin of a withdrawal is lost or made**: in every state a run from
genesis reaches, an address's balance, its held balance and what its
settled withdrawals paid out add up to its genesis balance. -/
theorem withdrawal_funds_conserved (hV : env.Valid) {s : State}
    (h : Reachable (Lifecycle.step env) (Lifecycle.init balance) s) (a : CUAddress) (d : Denom) :
    s.trk.getBalance a d + s.trk.getHoldBalance a d + s.ok.orders.total (paidFor env a d) =
      balance (a, d) :=
  (ledger_of_reachable hV h).conserved a d

/-- After the settlement `alice` has 9 `eth`, holds none, and her order
paid out 11. -/
theorem withdrawal_funds_conserved_after_settlement :
    (withdrawalRunState 9).trk.getBalance "alice" "eth" +
        (withdrawalRunState 9).trk.getHoldBalance "alice" "eth" +
        (withdrawalRunState 9).ok.orders.total (paidFor keyNodeWithdrawalEnv "alice" "eth") = 20 ∧
      (withdrawalRunState 9).trk.getBalance "alice" "eth" = 9 ∧
      (withdrawalRunState 9).trk.getHoldBalance "alice" "eth" = 0 :=
  ⟨withdrawal_funds_conserved keyNodeWithdrawalEnv_valid ⟨_, rfl⟩ "alice" "eth",
    by decide +kernel, by decide +kernel⟩

/-- **Every settled withdrawal's transaction was confirmed by the key
nodes**: its box is confirmed, in every state a run from genesis
reaches. -/
theorem settled_withdrawal_was_confirmed (hV : env.Valid) {s : State}
    (h : Reachable (Lifecycle.step env) (Lifecycle.init balance) s) {id : String}
    {w : OrderWithdrawal} (hget : s.ok.getOrder id = some (.withdrawal w))
    (hs : w.status.settled = true) : s.evidence.Confirmed Evidence.VoteBox.kind w.txhash :=
  (ledger_of_reachable hV h).settled_confirmed id w hget hs

theorem settled_withdrawal_was_confirmed_in_run :
    (withdrawalRunState 9).evidence.Confirmed Evidence.VoteBox.kind settledWithdrawal.txhash :=
  settled_withdrawal_was_confirmed keyNodeWithdrawalEnv_valid ⟨_, rfl⟩
    (show (withdrawalRunState 9).ok.getOrder "w1" = some (.withdrawal settledWithdrawal) by decide +kernel)
    rfl

/-- **A terminated withdrawal is never written again**: once `Finish`,
`Failed` or `Cancel`, the stored order stays as it is over every further
run. In particular no withdrawal is settled, refunded or released
twice. -/
theorem terminated_withdrawal_never_changes (hV : env.Valid) {s : State}
    (h : Reachable (Lifecycle.step env) (Lifecycle.init balance) s) {id : String}
    {w : OrderWithdrawal} (hget : s.ok.getOrder id = some (.withdrawal w))
    (ht : w.status.terminated = true) (txs : List Lifecycle.Tx) :
    (run (Lifecycle.step env) s txs).ok.getOrder id = some (.withdrawal w) := by
  rcases ordersStep_run hV (ledger_of_reachable hV h) txs id _ hget with hkept | ⟨_, _, heq, hp, -⟩
  · exact hkept
  · -- only a pending order moves
    cases heq
    rw [ht] at hp
    cases hp

/-- A late report of failure by the fourth key node passes the checks of
`WithdrawalFinish` and is counted, yet the settled order stays `Finish`. -/
theorem late_failure_report_leaves_settled_withdrawal :
    (run (Lifecycle.step keyNodeWithdrawalEnv) (withdrawalRunState 9)
        [⟨6, .withdrawalFinish ⟨"k4", ["w1"], 1, false⟩⟩]).ok.getOrder "w1" =
      some (.withdrawal settledWithdrawal) :=
  terminated_withdrawal_never_changes keyNodeWithdrawalEnv_valid ⟨_, rfl⟩ (by decide +kernel) rfl _

/-- **A withdrawal only moves forward in its life cycle**: over every run
from a reachable state, the stored order's status leads from the old one,
and its owner, symbol and amount are kept. -/
theorem withdrawal_status_moves_forward (hV : env.Valid) {s : State}
    (h : Reachable (Lifecycle.step env) (Lifecycle.init balance) s) {id : String}
    {w : OrderWithdrawal} (hget : s.ok.getOrder id = some (.withdrawal w)) (txs : List Lifecycle.Tx) :
    ∃ w', (run (Lifecycle.step env) s txs).ok.getOrder id = some (.withdrawal w') ∧
      w.status.leadsTo w'.status = true ∧ w'.cuAddress = w.cuAddress ∧ w'.symbol = w.symbol ∧
      w'.amount = w.amount := by
  rcases ordersStep_run hV (ledger_of_reachable hV h) txs id _ hget with
    hkept | ⟨_, w', heq, -, hget', hleads, haddr, hsym, hamt⟩
  · exact ⟨w, hkept, OrderStatus.leadsTo_refl _, rfl, rfl, rfl⟩
  · cases heq
    exact ⟨w', hget', hleads, haddr, hsym, hamt⟩

/-- The requested order, followed through the rest of the run. -/
theorem requested_withdrawal_moves_forward :
    ∃ w', (run (Lifecycle.step keyNodeWithdrawalEnv) (withdrawalRunState 1)
        (withdrawalRun.drop 1)).ok.getOrder "w1" = some (.withdrawal w') ∧
      requestedWithdrawal.status.leadsTo w'.status = true ∧
      w'.cuAddress = requestedWithdrawal.cuAddress ∧ w'.symbol = requestedWithdrawal.symbol ∧
      w'.amount = requestedWithdrawal.amount :=
  withdrawal_status_moves_forward keyNodeWithdrawalEnv_valid ⟨_, rfl⟩ (by decide +kernel) _

end Transfer
