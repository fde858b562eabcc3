import Bhchain.Openswap.Keeper

/-!
# The end of a block: the book, matching and repurchase (`x/openswap/keeper/order.go`)

At the end of every block the keeper brings its in-memory book up to date
and matches it against the pairs. `UpdateOrdersInMatching` first expires
the orders of the book whose expiry time has come, then adds the orders
placed during the block and removes those cancelled during it; the
transactions left both lists of IDs in the store. `MatchingOrders` then
runs each market in rounds: a round offers every sell order, cheapest
first, then every buy order, dearest first, to the pair until one whose
price does not suit it; the orders a round filled leave the book and the
index of unfinished orders, and a round that swapped nothing ends the
market. Every `RepurchaseDuration` blocks, `RepurchaseAndBurn` swaps the
repurchase funds into the repurchase token, without fees, and burns it.

The book holds pointers to the orders it matches, so the order that
`limitSwap` or `ExpireOrder` mutates is the book's own. The model writes
each mutated order back into the book (`Manager.addOrder` replaces the
order of its ID). What this synchronises, and what not, is the point of
the module: `ExpireOrder` finishes the book's copy but never takes it out
of the book, and `CancelOrders` finishes a fresh copy read from the store,
leaving the book's copy as it was until `removeOrderFromMatching`.

A panic in an end-blocker halts the chain; the model returns it as a
`Failure`. A market's loop runs until a round swaps nothing; the model
gives it fuel, one round more than the funds its orders have locked
(`matchingFuel`). `Mining`, which runs first in `EndBlock`, mints the
mining token to the module account and moves the mining masks, none of
which the modelled calls read; it is left out.
-/

namespace Openswap

open Sdk Transfer KVStore Transition

variable (env : Env)

/-! ## Bringing the book up to date -/

/-- **`ExpireOrder`** on the book's copy of an order: finished as
`Expired`, it stays in the book. -/
def expireOrder (blockTime : ℤ) (s : State) (order : Order) : State :=
  let (order, s) := finishOrderWithStatus s blockTime order .expired
  { s with manager := s.manager.addOrder order }

/-- **`clearExpiredOrders`**: `ExpireOrder` on every expired order of the
book. -/
def clearExpiredOrders (blockTime : ℤ) (s : State) : State :=
  (s.manager.getExpiredOrders blockTime).foldl (expireOrder blockTime) s

/-- **`insertOrderToMatching`**: the orders placed since the last end of
block enter the book as the store has them, unless they have finished.
An ID with no order is dereferenced. -/
def insertOrderToMatching (s : State) : Except Failure State := do
  let mgr ← s.waitToInsert.foldlM (fun mgr orderID => do
      let order ← orFail (s.getOrder orderID) nilPointerDereference
      pure (if order.isFinished then mgr else mgr.addOrder order)) s.manager
  pure { s with manager := mgr, waitToInsert := [] }

/-- **`removeOrderFromMatching`**: the orders cancelled since the last end
of block leave the book. An ID with no order is dereferenced. -/
def removeOrderFromMatching (s : State) : Except Failure State := do
  let mgr ← s.waitToRemove.foldlM (fun mgr orderID => do
      let order ← orFail (s.getOrder orderID) nilPointerDereference
      pure (mgr.delOrder order)) s.manager
  pure { s with manager := mgr, waitToRemove := [] }

/-- **`UpdateOrdersInMatching`**: expire, then insert, then remove. -/
def updateOrdersInMatching (blockTime : ℤ) (s : State) : Except Failure State := do
  let s ← insertOrderToMatching (clearExpiredOrders blockTime s)
  removeOrderFromMatching s

/-! ## Matching -/

/-- One pass of a round over a book (`for iter.Next()`): offer each order
in turn to the pair, up to the first whose price does not suit it. It
returns the pair, the state, whether some order swapped and the orders
that filled, in book order. An order that swapped nothing (no event, or
an event of input `0`) is passed over without counting. -/
def matchPass (blockTime : ℤ) :
    TradingPair → State → List Order → Except Failure (TradingPair × State × Bool × List Order)
  | pair, s, [] => pure (pair, s, false, [])
  | pair, s, order :: orders => do
    let (r, s) ← limitSwap env s blockTime order pair
    -- `limitSwap` mutated the book's own order
    let s := { s with manager := s.manager.addOrder r.order }
    if !r.priceSuitable then pure (r.pair, s, false, [])
    else if r.eventAmountIn.getD 0 = 0 then matchPass blockTime r.pair s orders
    else do
      let (pair, s, _, finishedOrders) ← matchPass blockTime r.pair s orders
      pure (pair, s, true, if r.order.status = .filled then r.order :: finishedOrders else finishedOrders)

/-- **One round of `MatchingOrders`** on a market: the sell book cheapest
first, then the buy book dearest first, each as it stands when its pass
starts. -/
def matchRound (blockTime : ℤ) (m : Market) (pair : TradingPair) (s : State) :
    Except Failure (TradingPair × State × Bool × List Order) := do
  let (pair, s, sellOrderMatched, sellFinished) ←
    matchPass env blockTime pair s (s.manager.currentMarket m).sellOrders.byPrice
  let (pair, s, buyOrderMatched, buyFinished) ←
    matchPass env blockTime pair s (s.manager.currentMarket m).buyOrders.byPriceReverse
  pure (pair, s, sellOrderMatched || buyOrderMatched, sellFinished ++ buyFinished)

/-- The end of a round: the filled orders leave the unfinished index and
the book. -/
def removeFinishedOrders (s : State) (finishedOrders : List Order) : State :=
  finishedOrders.foldl (fun s order =>
    { s.delUnfinishedOrder order with manager := s.manager.delOrder order }) s

/-- The rounds of a market, while one swaps something. -/
def matchMarket (blockTime : ℤ) (m : Market) : ℕ → TradingPair → State → Except Failure State
  | 0, _, s => pure s
  | fuel + 1, pair, s => do
    let (pair, s, matched, finishedOrders) ← matchRound env blockTime m pair s
    if matched then matchMarket blockTime m fuel pair (removeFinishedOrders s finishedOrders)
    else pure s

/-- The fuel of a market's loop: one round more than the funds its orders
have locked. -/
def matchingFuel (m : Market) : ℕ :=
  ((m.sellOrders.orders ++ m.buyOrders.orders).map (fun o => o.lockedFund.toNat)).sum + 1

/-- **`MatchingOrders`**: the markets in key order, each against its pair
as the store has it; a market whose pair is missing is skipped. -/
def matchingOrders (blockTime : ℤ) (s : State) : Except Failure State :=
  s.manager.getMarkets.foldlM (fun s m =>
    match s.getTradingPair m.dexID m.baseSymbol m.quoteSymbol with
    | none => pure s
    | some pair => matchMarket env blockTime m (matchingFuel (s.manager.currentMarket m)) pair s) s

/-! ## What the matching keeps

A pass, a round and the loop of a market only chain fills of `limitSwap`,
each written back into the book, and the removals at the end of a round.
A relation between states that each of those respects, carrying a
property of the pair the next fill trades on, is respected by the whole
loop. `Shares.lean` and `Trades.lean` instantiate it. -/

/-- **What the matching needs of a relation `R` to keep it**: reflexive
where `I` holds of the pair about to be traded, and transitive; each fill
of an order with `P`, written back into the book, is related and keeps
`I` of the pair it leaves, and so is the end of a round. -/
structure MatchingRel (blockTime : ℤ) (R : State → State → Prop) (I : TradingPair → State → Prop)
    (P : Order → Prop) : Prop where
  refl : ∀ {pair s}, I pair s → R s s
  trans : ∀ {s₁ s₂ s₃}, R s₁ s₂ → R s₂ s₃ → R s₁ s₃
  fill : ∀ {pair s order res}, P order → I pair s → limitSwap env s blockTime order pair = .ok res →
    R s { res.2 with manager := res.2.manager.addOrder res.1.order } ∧
      I res.1.pair { res.2 with manager := res.2.manager.addOrder res.1.order }
  remove : ∀ {pair s} (finishedOrders : List Order), I pair s →
    R s (removeFinishedOrders s finishedOrders) ∧ I pair (removeFinishedOrders s finishedOrders)

namespace MatchingRel

variable {env} {blockTime : ℤ} {R : State → State → Prop} {I : TradingPair → State → Prop}
  {P : Order → Prop}

/-- **A pass keeps the relation**, by induction on the orders it offers. -/
theorem matchPass (hR : MatchingRel env blockTime R I P) :
    ∀ (orders : List Order) {pair : TradingPair} {s : State}
      {res : TradingPair × State × Bool × List Order},
      (∀ order ∈ orders, P order) → I pair s → Openswap.matchPass env blockTime pair s orders = .ok res →
      R s res.2.1 ∧ I res.1 res.2.1
  | [], _, _, _, _, hI, h => by
    rw [Openswap.matchPass, pure_eq_ok] at h
    subst h
    exact ⟨hR.refl hI, hI⟩
  | order :: orders, _, _, _, hP, hI, h => by
    rw [Openswap.matchPass] at h
    obtain ⟨⟨result, s₁⟩, hswap, h⟩ := bind_eq_ok.mp h
    obtain ⟨h₁, hI₁⟩ := hR.fill (hP order List.mem_cons_self) hI hswap
    have hrest : ∀ o ∈ orders, P o := fun o ho => hP o (List.mem_cons_of_mem order ho)
    dsimp only at h h₁ hI₁
    split at h
    · -- the price no longer suits: the pass stops after the fill
      rw [pure_eq_ok] at h
      subst h
      exact ⟨h₁, hI₁⟩
    split at h
    · obtain ⟨h₂, hI₂⟩ := hR.matchPass orders hrest hI₁ h
      exact ⟨hR.trans h₁ h₂, hI₂⟩
    · obtain ⟨⟨pair₂, s₂, matched, finishedOrders⟩, hpass, h⟩ := bind_eq_ok.mp h
      rw [pure_eq_ok] at h
      subst h
      obtain ⟨h₂, hI₂⟩ := hR.matchPass orders hrest hI₁ hpass
      exact ⟨hR.trans h₁ h₂, hI₂⟩

/-- **A round keeps the relation**, when the orders of both books of the
market, as each pass finds them, have `P`. -/
theorem matchRound (hR : MatchingRel env blockTime R I P) (m : Market)
    (hbook : ∀ {pair s}, I pair s → (∀ o ∈ (s.manager.currentMarket m).sellOrders.byPrice, P o) ∧
      ∀ o ∈ (s.manager.currentMarket m).buyOrders.byPriceReverse, P o)
    {pair : TradingPair} {s : State} {res : TradingPair × State × Bool × List Order} (hI : I pair s)
    (h : Openswap.matchRound env blockTime m pair s = .ok res) : R s res.2.1 ∧ I res.1 res.2.1 := by
  unfold Openswap.matchRound at h
  obtain ⟨⟨pair₁, s₁, sellOrderMatched, sellFinished⟩, h₁, h⟩ := bind_eq_ok.mp h
  obtain ⟨hR₁, hI₁⟩ := hR.matchPass _ (hbook hI).1 hI h₁
  obtain ⟨⟨pair₂, s₂, buyOrderMatched, buyFinished⟩, h₂, h⟩ := bind_eq_ok.mp h
  obtain ⟨hR₂, hI₂⟩ := hR.matchPass _ (hbook hI₁).2 hI₁ h₂
  rw [pure_eq_ok] at h
  subst h
  exact ⟨hR.trans hR₁ hR₂, hI₂⟩

/-- **The loop of a market keeps the relation**, by induction on the fuel. -/
theorem matchMarket (hR : MatchingRel env blockTime R I P) (m : Market)
    (hbook : ∀ {pair s}, I pair s → (∀ o ∈ (s.manager.currentMarket m).sellOrders.byPrice, P o) ∧
      ∀ o ∈ (s.manager.currentMarket m).buyOrders.byPriceReverse, P o) :
    ∀ (fuel : ℕ) {pair : TradingPair} {s s' : State}, I pair s →
      Openswap.matchMarket env blockTime m fuel pair s = .ok s' → R s s'
  | 0, _, _, _, hI, h => by
    rw [Openswap.matchMarket, pure_eq_ok] at h
    subst h
    exact hR.refl hI
  | fuel + 1, _, _, _, hI, h => by
    rw [Openswap.matchMarket] at h
    obtain ⟨⟨pair₁, s₁, matched, finishedOrders⟩, hround, h⟩ := bind_eq_ok.mp h
    obtain ⟨hR₁, hI₁⟩ := hR.matchRound m hbook hI hround
    dsimp only at h
    split at h
    · -- a round that swapped: the filled orders leave, and the loop goes on
      obtain ⟨hR₂, hI₂⟩ := hR.remove finishedOrders hI₁
      exact hR.trans hR₁ (hR.trans hR₂ (hR.matchMarket m hbook fuel hI₂ h))
    · rw [pure_eq_ok] at h
      subst h
      exact hR₁

end MatchingRel

/-! ## Repurchase -/

/-- `getRepurchaseFunds`: the funds of the store in key order, summed into
coins (`NewCoins` drops a zero fund). -/
def State.getRepurchaseFunds (s : State) : Coins :=
  s.repurchaseFunds.entries.foldl (fun funds e => funds.add (newCoins e)) []

/-- One fund of `RepurchaseAndBurn`: the repurchase token counts as it is;
another token is swapped into it through its dex-0 pair, without fees, if
there is one. The fund is deleted either way. -/
def repurchaseFund (acc : ℤ × State) (coin : Coin) : ℤ × State :=
  let (total, s) := acc
  let (total, s) :=
    if coin.1 = env.repurchaseToken then (total + coin.2, s)
    else match s.getTradingPair 0 coin.1 env.repurchaseToken with
      | none => (total, s)
      | some pair =>
        let (r, s) := swap env s (getFeeRates env pair) pair coin.1 coin.2 true
        (total + r.amountOut, s)
  (total, { s with repurchaseFunds := s.repurchaseFunds.delete coin.1 })

/-- **`RepurchaseAndBurn`**: every `RepurchaseDuration` blocks, turn the
funds into the repurchase token, credit it to the module account
(discarding the error) and burn it from there, which panics if it
cannot. -/
def repurchaseAndBurn (height : ℤ) (s : State) : Except Failure State :=
  if height % env.repurchaseDuration ≠ 0 then pure s
  else
    let (totalRepurchaseAmount, s) := s.getRepurchaseFunds.foldl (repurchaseFund env) (0, s)
    if 0 < totalRepurchaseAmount then
      let burnedCoins := newCoins (env.repurchaseToken, totalRepurchaseAmount)
      let trk := orKeep (s.trk.addCoins env.moduleCUAddress burnedCoins) s.trk
      -- `BurnCoins` panics with the error of `SubCoins`
      match trk.subCoins env.moduleCUAddress burnedCoins with
      | .ok trk => pure { s with trk := trk }
      | .error (.error _ msg) => .error (.panic msg)
      | .error e => .error e
    else pure s

/-! ## The end-blocker and the restart -/

/-- **`EndBlock`** of the module (after `Mining`). -/
def endBlock (height blockTime : ℤ) (s : State) : Except Failure State := do
  let s ← updateOrdersInMatching blockTime s
  let s ← matchingOrders env blockTime s
  repurchaseAndBurn env height s

/-- **`Manager.Init`**: a new book, given every unfinished order by
`IteratorAllUnfinishedOrder` through `Manager.AddOrder`. -/
def managerInit (s : State) : Except Failure Manager :=
  iteratorAllUnfinishedOrder env s Manager.addOrder Manager.empty

end Openswap
