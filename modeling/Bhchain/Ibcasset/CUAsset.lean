import Bhchain.Types.Coins

/-!
# The assets of a custody unit (`x/ibcasset/types/ibcasset.go`)

A custody unit keeps, per external chain and token, the addresses it owns
there: an `Asset` is a denomination, an address and the key node epoch
whose key signs for it. `SetAssetAddress(d, a, e)` either fills in a
placeholder of `d` (an asset of epoch `0`) or calls `AddAsset`, which
refuses a second asset of `(d, e)`, drops the assets that are two epochs
or more older than `e` (crediting their remaining gas to `GasUsed`), and
appends the new one.

The age test is `epoch - asset.Epoch >= 2` on `uint64`. For an asset of an
epoch *later* than `e` the difference wraps around, and the test passes:
a call with `e ≥ 3` drops every later asset of every denomination
(`mem_deleteOldAssets`). `Deposit` makes such calls, with the epoch of the
chain's asset that received the deposit, which may be older than the
custody unit's other assets (`setAssetAddress_drops_later_asset`).

Left out: the nonce, the send switch's reads and the pubkey of an asset
record; and the panic of `NewCoin` on a negative remaining gas, which
`NewAsset` starts at zero.
-/

namespace Ibcasset

open Sdk

/-- **`sdk.Asset`**, without its nonce. -/
structure Asset where
  denom : Denom
  address : String
  epoch : UInt64
  enableSendTx : Bool
  gasRemained : ℤ
  deriving DecidableEq, Repr

/-- `NewAsset`. -/
def newAsset (denom : Denom) (address : String) (epoch : UInt64) (enableSendTx : Bool) : Asset :=
  ⟨denom, address, epoch, enableSendTx, 0⟩

/-- **`CUIBCAsset`**, the fields the asset calls read and write. -/
structure CUIBCAsset where
  assets : List Asset
  gasUsed : Coins
  deriving DecidableEq, Repr

namespace CUIBCAsset

/-- A custody unit without assets. -/
def fresh : CUIBCAsset := ⟨[], []⟩

/-- `GetAsset`: the first asset of the denomination and epoch; `none` is
`NilAsset`. -/
def getAsset (cu : CUIBCAsset) (denom : Denom) (epoch : UInt64) : Option Asset :=
  cu.assets.find? fun asset => asset.denom = denom ∧ asset.epoch = epoch

/-- `GetAssetByAddr`. -/
def getAssetByAddr (cu : CUIBCAsset) (denom : Denom) (addr : String) : Option Asset :=
  cu.assets.find? fun asset => asset.denom = denom ∧ asset.address = addr

/-- `AddGasUsed`. -/
def addGasUsed (cu : CUIBCAsset) (coins : Coins) : CUIBCAsset :=
  { cu with gasUsed := cu.gasUsed.add coins }

/-- The first loop of `AddAsset`: placeholders of the denomination take
the address and the epoch, until an asset of the denomination and epoch
stops the loop with an error, the rewrites before it kept. -/
def rewritePlaceholders (denom : Denom) (address : String) (epoch : UInt64) :
    List Asset → List Asset × Bool
  | [] => ([], false)
  | asset :: assets =>
    if asset.denom = denom ∧ asset.epoch = epoch then (asset :: assets, true)
    else
      let asset := if asset.denom = denom ∧ asset.epoch = 0 then
          { asset with address := address, epoch := epoch }
        else asset
      let (assets, found) := rewritePlaceholders denom address epoch assets
      (asset :: assets, found)

/-- The age test of `AddAsset`, on `uint64`. -/
def isOld (epoch : UInt64) (asset : Asset) : Bool := 3 ≤ epoch ∧ 2 ≤ epoch - asset.epoch

/-- The second loop of `AddAsset`: drop the old assets, in order, adding
the nonzero remaining gas of each to `GasUsed`. -/
def deleteOldAssets (epoch : UInt64) : List Asset → Coins → List Asset × Coins
  | [], gasUsed => ([], gasUsed)
  | asset :: assets, gasUsed =>
    if isOld epoch asset then
      let gasUsed := if asset.gasRemained ≠ 0 then gasUsed.add (newCoins (asset.denom, asset.gasRemained))
        else gasUsed
      deleteOldAssets epoch assets gasUsed
    else
      let (assets, gasUsed) := deleteOldAssets epoch assets gasUsed
      (asset :: assets, gasUsed)

/-- **`AddAsset`**: the custody unit as the call leaves it, and the error
it returns. -/
def addAsset (cu : CUIBCAsset) (denom : Denom) (address : String) (epoch : UInt64) :
    CUIBCAsset × Option String :=
  let (assets, found) := rewritePlaceholders denom address epoch cu.assets
  if found then ({ cu with assets := assets }, some "asset already exist")
  else
    let (assets, gasUsed) := deleteOldAssets epoch assets cu.gasUsed
    (⟨assets ++ [newAsset denom address epoch true], gasUsed⟩, none)

/-- The first placeholder of the denomination, given the address and the
epoch; `none` when there is none. -/
def fillPlaceholder (denom : Denom) (address : String) (epoch : UInt64) :
    List Asset → Option (List Asset)
  | [] => none
  | asset :: assets =>
    if asset.denom = denom ∧ asset.epoch = 0 then
      some ({ asset with address := address, epoch := epoch } :: assets)
    else (fillPlaceholder denom address epoch assets).map (asset :: ·)

/-- **`SetAssetAddress`**. -/
def setAssetAddress (cu : CUIBCAsset) (denom : Denom) (address : String) (epoch : UInt64) :
    CUIBCAsset × Option String :=
  match fillPlaceholder denom address epoch cu.assets with
  | some assets => ({ cu with assets := assets }, none)
  | none => cu.addAsset denom address epoch

end CUIBCAsset

/-- The asset lookup of `BaseKeeper.Deposit` (`x/transfer/keeper/deposit.go`):
a deposit of a token to an address the custody unit holds for the token's
chain registers the address for the token too, with the epoch of the
chain's asset. -/
def depositAssetLookup (cu : CUIBCAsset) (symbol chain : Denom) (canonicalToAddr : String) :
    Except Failure CUIBCAsset :=
  match cu.getAssetByAddr symbol canonicalToAddr with
  | some _ => .ok cu
  | none =>
    match cu.getAssetByAddr chain canonicalToAddr with
    | some asset =>
      if symbol ≠ chain then .ok (cu.setAssetAddress symbol canonicalToAddr asset.epoch).1
      else .error (errInvalidTx "Deposit addr %s does not belong to CU %s")
    | none => .error (errInvalidTx "Deposit addr %s does not belong to CU %s")

/-! ## Which assets `AddAsset` drops -/

namespace CUIBCAsset

/-- **The age test wraps around**: from epoch `3` on, it holds of the
assets two epochs or more older, and of every later one. -/
theorem isOld_iff {epoch : UInt64} (h : 3 ≤ epoch) (asset : Asset) :
    isOld epoch asset = true ↔ asset.epoch.toNat + 2 ≤ epoch.toNat ∨ epoch.toNat < asset.epoch.toNat := by
  have hepoch := UInt64.toNat_lt_size epoch
  have hasset := UInt64.toNat_lt_size asset.epoch
  simp only [UInt64.size] at hepoch hasset
  have h3 : 3 ≤ epoch.toNat := UInt64.le_iff_toNat_le.mp h
  simp only [isOld, h, true_and, decide_eq_true_eq, UInt64.le_iff_toNat_le, UInt64.toNat_ofNat]
  rcases Nat.lt_or_ge epoch.toNat asset.epoch.toNat with hlater | hearlier
  · -- a later asset: the difference wraps around, far above `2`
    rw [UInt64.toNat_sub, Nat.mod_eq_of_lt (by omega)]
    omega
  · rw [UInt64.toNat_sub_of_le _ _ (UInt64.le_iff_toNat_le.mpr hearlier)]
    omega

/-- What the second loop of `AddAsset` keeps. -/
theorem mem_deleteOldAssets {epoch : UInt64} {asset : Asset} :
    ∀ (assets : List Asset) (gasUsed : Coins),
      asset ∈ (deleteOldAssets epoch assets gasUsed).1 ↔ asset ∈ assets ∧ isOld epoch asset = false
  | [], _ => by simp [deleteOldAssets]
  | a :: assets, gasUsed => by
    unfold deleteOldAssets
    split
    · rename_i hold
      rw [mem_deleteOldAssets assets, List.mem_cons]
      constructor
      · rintro ⟨hmem, hfresh⟩
        exact ⟨.inr hmem, hfresh⟩
      · rintro ⟨rfl | hmem, hfresh⟩
        · rw [hold] at hfresh
          cases hfresh
        · exact ⟨hmem, hfresh⟩
    · rename_i hfresh
      simp only [List.mem_cons, mem_deleteOldAssets assets]
      constructor
      · rintro (rfl | ⟨hmem, hkeep⟩)
        · exact ⟨.inl rfl, by simpa using hfresh⟩
        · exact ⟨.inr hmem, hkeep⟩
      · rintro ⟨rfl | hmem, hkeep⟩
        · exact .inl rfl
        · exact .inr ⟨hmem, hkeep⟩

/-- **From epoch `3` on, `AddAsset` keeps no later asset**: of every
denomination, the assets of an epoch after the call's are dropped. -/
theorem addAsset_drops_later {cu : CUIBCAsset} {denom : Denom} {address : String} {epoch : UInt64}
    (h : 3 ≤ epoch) (hok : (cu.addAsset denom address epoch).2 = none) :
    ∀ asset ∈ (cu.addAsset denom address epoch).1.assets, asset.epoch.toNat ≤ epoch.toNat := by
  intro asset hmem
  unfold addAsset at hok hmem
  rcases hrw : rewritePlaceholders denom address epoch cu.assets with ⟨assets, found⟩
  rcases hdel : deleteOldAssets epoch assets cu.gasUsed with ⟨kept, gasUsed⟩
  rw [hrw] at hok hmem
  -- the call did not stop at an existing asset, so it went through the second loop
  cases found with
  | true => cases hok
  | false =>
    simp only [Bool.false_eq_true, ↓reduceIte, hdel, List.mem_append, List.mem_singleton] at hmem
    rcases hmem with hkept | rfl
    · have hfresh := ((mem_deleteOldAssets assets cu.gasUsed).mp (by rw [hdel]; exact hkept)).2
      by_contra hlater
      have hold := (isOld_iff h asset).mpr (.inr (Nat.lt_of_not_le hlater))
      rw [hold] at hfresh
      cases hfresh
    · exact le_rfl

/-! ## A deposit that drops an address -/

/-- `alice`'s custody unit after two key generations: an `eth` address at
epoch `3`, and a `btc` address at epoch `4`. -/
def aliceAssets : CUIBCAsset :=
  ((fresh.setAssetAddress "eth" "0xa11ce" 3).1.setAssetAddress "btc" "bc1qa11ce" 4).1

/-- **A deposit drops a later address.** A deposit of `usdt` to `alice`'s
`eth` address registers it for `usdt` with the `eth` asset's epoch `3`;
the call succeeds and drops her `btc` address of epoch `4`, which
`GetAsset` and `GetAssetByAddr` no longer find. -/
theorem setAssetAddress_drops_later_asset :
    aliceAssets.getAsset "btc" 4 = some (newAsset "btc" "bc1qa11ce" 4 true) ∧
      depositAssetLookup aliceAssets "usdt" "eth" "0xa11ce" =
        .ok (aliceAssets.setAssetAddress "usdt" "0xa11ce" 3).1 ∧
      (aliceAssets.setAssetAddress "usdt" "0xa11ce" 3).2 = none ∧
      (aliceAssets.setAssetAddress "usdt" "0xa11ce" 3).1.getAsset "btc" 4 = none ∧
      (aliceAssets.setAssetAddress "usdt" "0xa11ce" 3).1.getAssetByAddr "btc" "bc1qa11ce" = none := by
  decide +kernel

end CUIBCAsset

end Ibcasset
