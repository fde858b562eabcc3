import Mathlib
import Bhchain.Openswap.Expiry
import Bhchain.Order.Keeper
import Bhchain.Lib.BigEndian
import Bhchain.Lib.ByteString

/-!
# The keys of the swap store (`x/openswap/types/keys.go`)

The keeper model of `Keeper.lean` keys its maps by what the byte keys
encode: liquidity by address and pair, the unfinished index by order ID.
The store itself holds byte strings (their builders are in `Types.lean`),
and two kinds of key are read back. A liquidity key is the prefix `0x03`,
the 20 bytes of the address, the dex as a big-endian `uint32`, and
`"<tokenA>-<tokenB>"`; `DecodeLiquidityKey` splits what follows the dex on
`-`. An unfinished-order key is the prefix `0x05`, the address, the dex,
`"<base>-<quote>:"` and the order ID; `GetOrderIDFromUnfinishedOrderKey`
splits what follows the dex on `:`. Both panic unless they get exactly two
parts.

A valid symbol is letters and digits, so the pair's part never holds a
separator and the liquidity key decodes to what it encodes
(`decodeLiquidityKey_liquidityKey`), and the prefixes of an address and a
pair select exactly the keys of that address and pair
(`addrLiquidityKeyPrefix_prefix_iff`, `unfinishedOrderKeyPrefixWithPair_prefix_iff`).
The order ID is another matter: `ValidateBasic` accepts what
`uuid.FromString` accepts, and that includes the `urn:uuid:` form, whose
two colons make the order's key split in four; it is the only accepted
form with a colon (`urn_of_colon_mem_bytesOf`). Decoding the key of such
an order panics (`getOrderIDFromUnfinishedOrderKey_unfinishedOrderKey`),
and `Manager.Init` (`managerInit`) decodes every unfinished key in the
first `BeginBlock` after a node starts. When every key decodes, the
iteration reads every unfinished order back
(`iteratorAllUnfinishedOrder_eq_ok`); once such an order is indexed, the
node cannot restart (`restartNode_fails_of_colon`).

The model's addresses are names; the bytes of an address are the
environment's `addrBytes`, `sdk.AddrLen` of them for a valid one.
-/

namespace Openswap

open Sdk Transfer Transition
open OrderKeeper (Bytes bytesOf bytesOf_inj)

/-- **`Symbol.IsValid`**: `reDnm`, two to forty ASCII letters and digits. -/
def Symbol.isValid (s : Symbol) : Bool :=
  decide (2 ≤ s.length ∧ s.length ≤ 40) && s.toList.all Char.isAlphanum

/-! ## The bytes of a symbol -/

theorem bytesOf_append (s t : String) : bytesOf (s ++ t) = bytesOf s ++ bytesOf t := by
  simp [OrderKeeper.bytesOf, String.toList_append]

@[simp] theorem bytesOf_dash : bytesOf "-" = [45] := rfl

@[simp] theorem bytesOf_colon : bytesOf ":" = [58] := rfl

/-- An ASCII byte is in the bytes of a text exactly where its character is. -/
theorem mem_bytesOf_ascii (s : String) {b : ℕ} (hb : b < 128) :
    Fin.ofNat 256 b ∈ bytesOf s ↔ ∃ c ∈ s.toList, c.toNat = b :=
  ByteString.mem_encode_ascii s.toList hb

/-- A letter or digit is neither of the two separators, `-` and `:`. -/
theorem toNat_ne_of_isAlphanum {c : Char} (h : c.isAlphanum = true) :
    c.toNat ≠ 45 ∧ c.toNat ≠ 58 := by
  have hv : c.toNat = c.val.toNat := rfl
  simp only [Char.isAlphanum, Char.isAlpha, Char.isUpper, Char.isLower, Char.isDigit,
    Bool.or_eq_true, Bool.and_eq_true, decide_eq_true_eq, UInt32.le_iff_toNat_le] at h
  simp at h
  omega

/-- A byte of a symbol that is a letter or digit. -/
theorem not_mem_bytesOf_of_isValid' {s : Symbol} (hs : s.isValid = true) {b : ℕ}
    (hb : b = 45 ∨ b = 58) : Fin.ofNat 256 b ∉ bytesOf s := by
  rw [mem_bytesOf_ascii s (by omega)]
  rintro ⟨c, hc, rfl⟩
  have halnum : c.isAlphanum = true := by
    simp only [Symbol.isValid, Bool.and_eq_true, List.all_eq_true] at hs
    exact hs.2 c hc
  have := toNat_ne_of_isAlphanum halnum
  omega

/-- **The bytes of a valid symbol hold no separator.** -/
theorem not_mem_bytesOf_of_isValid {s : Symbol} (hs : s.isValid = true) :
    (45 : Fin 256) ∉ bytesOf s ∧ (58 : Fin 256) ∉ bytesOf s :=
  ⟨not_mem_bytesOf_of_isValid' hs (.inl rfl), not_mem_bytesOf_of_isValid' hs (.inr rfl)⟩

/-! ## Reading the keys back -/

/-- The dex of a key is read from the four bytes after its address prefix. -/
theorem decode_dex {p : Bytes} (hp : p.length = 1 + addrLen) {dexID : ℕ} (hdex : dexID < 2 ^ 32)
    (rest : Bytes) :
    BigEndian.decode (((p ++ (uint32ToBigEndian dexID ++ rest)).drop (1 + addrLen)).take 4) = dexID := by
  rw [List.drop_left' hp, uint32ToBigEndian, BigEndian.decode_take_encode_append]
  exact Nat.mod_eq_of_lt (by omega)

/-- What follows the address prefix and the dex. -/
theorem drop_dex {p : Bytes} (hp : p.length = 1 + addrLen) (dexID : ℕ) (rest : Bytes) :
    (p ++ (uint32ToBigEndian dexID ++ rest)).drop (1 + addrLen + 4) = rest := by
  rw [← List.drop_drop, List.drop_left' hp, uint32ToBigEndian, BigEndian.drop_encode_append]

theorem length_le_dex {p : Bytes} (hp : p.length = 1 + addrLen) (dexID : ℕ) (rest : Bytes) :
    1 + addrLen + 4 ≤ (p ++ (uint32ToBigEndian dexID ++ rest)).length := by
  simp [hp, uint32ToBigEndian]

/-- **A liquidity key** is its address prefix, the dex, and the two symbols
on either side of a `-`. -/
theorem liquidityKey_eq (addr : Bytes) (dexID : ℕ) (tokenA tokenB : Symbol) :
    liquidityKey addr dexID tokenA tokenB =
      addrLiquidityKeyPrefix addr ++ (uint32ToBigEndian dexID ++ (bytesOf tokenA ++ 45 :: bytesOf tokenB)) := by
  simp [liquidityKey, addrLiquidityKeyPrefixWithDexID, bytesOf_append]

theorem length_addrLiquidityKeyPrefix {addr : Bytes} (haddr : addr.length = addrLen) :
    (addrLiquidityKeyPrefix addr).length = 1 + addrLen := by
  simp [addrLiquidityKeyPrefix, liquidityKeyPrefix, haddr, Nat.add_comm]

/-- **`DecodeLiquidityKey` inverts `LiquidityKey`** for a 20-byte address, a
`uint32` dex and valid symbols. -/
theorem decodeLiquidityKey_liquidityKey {addr : Bytes} (haddr : addr.length = addrLen) {dexID : ℕ}
    (hdex : dexID < 2 ^ 32) {tokenA tokenB : Symbol} (hA : tokenA.isValid = true)
    (hB : tokenB.isValid = true) :
    decodeLiquidityKey (liquidityKey addr dexID tokenA tokenB) =
      .ok (dexID, bytesOf tokenA, bytesOf tokenB) := by
  have hp := length_addrLiquidityKeyPrefix haddr
  have hlen : liquidityKeyPrefix.length + addrLen = 1 + addrLen := by simp [liquidityKeyPrefix, Nat.add_comm]
  -- neither symbol holds the `-` the key is split on
  have hsplit : (bytesOf tokenA ++ 45 :: bytesOf tokenB).splitOn 45 = [bytesOf tokenA, bytesOf tokenB] := by
    rw [List.splitOn_append_cons_self_of_not_mem (not_mem_bytesOf_of_isValid hA).1,
      List.splitOn_eq_singleton (not_mem_bytesOf_of_isValid hB).1]
  unfold decodeLiquidityKey
  rw [liquidityKey_eq, hlen, if_neg (not_lt.mpr (length_le_dex hp dexID _)), drop_dex hp, hsplit,
    decode_dex hp hdex]

/-- The pair prefix is the address prefix, the dex, and the pair with its
`-` and its `:`. -/
theorem unfinishedOrderKeyPrefixWithPair_eq (addr : Bytes) (dexID : ℕ) (baseSymbol quoteSymbol : Symbol) :
    unfinishedOrderKeyPrefixWithPair addr dexID baseSymbol quoteSymbol =
      unfinishedOrderKeyPrefixWithAddr addr ++
        (uint32ToBigEndian dexID ++ (bytesOf baseSymbol ++ 45 :: (bytesOf quoteSymbol ++ [58]))) := by
  simp [unfinishedOrderKeyPrefixWithPair, bytesOf_append]

/-- **An unfinished-order key** is the address prefix, the dex, the pair
and its `:`, then the order ID. -/
theorem unfinishedOrderKey_eq (addrBytes : CUAddress → Bytes) (order : Order) :
    unfinishedOrderKey addrBytes order =
      unfinishedOrderKeyPrefixWithAddr (addrBytes order.fromAddr) ++ (uint32ToBigEndian order.dexID ++
        ((bytesOf order.baseSymbol ++ 45 :: bytesOf order.quoteSymbol) ++ 58 :: bytesOf order.orderID)) := by
  simp [unfinishedOrderKey, unfinishedOrderKeyPrefixWithPair_eq]

theorem length_unfinishedOrderKeyPrefixWithAddr {addr : Bytes} (haddr : addr.length = addrLen) :
    (unfinishedOrderKeyPrefixWithAddr addr).length = 1 + addrLen := by
  simp [unfinishedOrderKeyPrefixWithAddr, unfinishedOrderKeyPrefix, haddr, Nat.add_comm]

/-- **What `GetOrderIDFromUnfinishedOrderKey` reads off an order's key**:
its ID when the ID holds no `:`, and a panic when it does. The pair before
it never holds one. -/
theorem getOrderIDFromUnfinishedOrderKey_unfinishedOrderKey {addrBytes : CUAddress → Bytes}
    {order : Order} (haddr : (addrBytes order.fromAddr).length = addrLen)
    (hbase : order.baseSymbol.isValid = true) (hquote : order.quoteSymbol.isValid = true) :
    getOrderIDFromUnfinishedOrderKey (unfinishedOrderKey addrBytes order) =
      if (58 : Fin 256) ∈ bytesOf order.orderID then .error (.panic "invalid key")
      else .ok (bytesOf order.orderID) := by
  have hp := length_unfinishedOrderKeyPrefixWithAddr haddr
  have hlen : unfinishedOrderKeyPrefix.length + addrLen + 4 = 1 + addrLen + 4 := by
    simp [unfinishedOrderKeyPrefix, Nat.add_comm]
  have hpair : (58 : Fin 256) ∉ bytesOf order.baseSymbol ++ 45 :: bytesOf order.quoteSymbol := by
    simp only [List.mem_append, List.mem_cons, not_or]
    exact ⟨(not_mem_bytesOf_of_isValid hbase).2, by decide, (not_mem_bytesOf_of_isValid hquote).2⟩
  unfold getOrderIDFromUnfinishedOrderKey
  rw [unfinishedOrderKey_eq, hlen, if_neg (not_lt.mpr (length_le_dex hp _ _)), drop_dex hp,
    List.splitOn_append_cons_self_of_not_mem hpair]
  split_ifs with hid
  · -- a `:` in the ID cuts the rest in two parts or more
    have hparts := ByteString.two_le_length_splitOn hid
    generalize (bytesOf order.orderID).splitOn 58 = parts at hparts ⊢
    rcases parts with _ | ⟨x, _ | ⟨y, rest⟩⟩
    · simp at hparts
    · simp at hparts
    · rfl
  · rw [List.splitOn_eq_singleton hid]

/-! ## The prefixes select the keys of an address and a pair -/

theorem uint32ToBigEndian_inj {n m : ℕ} (hn : n < 2 ^ 32) (hm : m < 2 ^ 32) :
    uint32ToBigEndian n = uint32ToBigEndian m ↔ n = m := by
  constructor
  · intro h
    have hdec := congrArg BigEndian.decode h
    rwa [uint32ToBigEndian, uint32ToBigEndian, BigEndian.decode_encode_of_lt (by omega),
      BigEndian.decode_encode_of_lt (by omega)] at hdec
  · rintro rfl
    rfl

/-- **The address prefix of the liquidity keys selects the keys of that
address**, among addresses of `sdk.AddrLen` bytes. -/
theorem addrLiquidityKeyPrefix_prefix_iff {addr addr' : Bytes} (haddr : addr.length = addrLen)
    (haddr' : addr'.length = addrLen) (dexID : ℕ) (tokenA tokenB : Symbol) :
    (addrLiquidityKeyPrefix addr).IsPrefix (liquidityKey addr' dexID tokenA tokenB) ↔ addr = addr' := by
  rw [liquidityKey_eq, addrLiquidityKeyPrefix, addrLiquidityKeyPrefix, List.append_assoc,
    List.prefix_append_right_inj]
  constructor
  · -- the first `addrLen` bytes of the key are the address
    intro h
    rw [List.prefix_iff_eq_take.mp h]
    exact List.take_left' (haddr'.trans haddr.symm)
  · rintro rfl
    exact List.prefix_append _ _

/-- **The pair prefix of the unfinished-order keys selects the keys of the
orders of that address, dex and pair**: the `:` after the pair keeps one
pair's prefix from reaching into the keys of a pair whose quote symbol
extends its own. -/
theorem unfinishedOrderKeyPrefixWithPair_prefix_iff {addrBytes : CUAddress → Bytes} {order : Order}
    {addr : Bytes} {dexID : ℕ} {baseSymbol quoteSymbol : Symbol} (haddr : addr.length = addrLen)
    (hfrom : (addrBytes order.fromAddr).length = addrLen) (hdex : dexID < 2 ^ 32)
    (horder : order.dexID < 2 ^ 32) (hbase : baseSymbol.isValid = true)
    (hquote : quoteSymbol.isValid = true) (hbase' : order.baseSymbol.isValid = true)
    (hquote' : order.quoteSymbol.isValid = true) :
    (unfinishedOrderKeyPrefixWithPair addr dexID baseSymbol quoteSymbol).IsPrefix
        (unfinishedOrderKey addrBytes order) ↔
      addrBytes order.fromAddr = addr ∧ order.dexID = dexID ∧ order.baseSymbol = baseSymbol ∧
        order.quoteSymbol = quoteSymbol := by
  simp only [unfinishedOrderKeyPrefixWithPair_eq, unfinishedOrderKey_eq, unfinishedOrderKeyPrefixWithAddr,
    List.append_assoc, List.cons_append, List.prefix_append_right_inj]
  -- the address and the dex have fixed widths; the pair is cut at its `-`, then at its `:`
  rw [List.prefix_append_inj_of_length_eq (by rw [haddr, hfrom]),
    List.prefix_append_inj_of_length_eq (by simp [uint32ToBigEndian]),
    ByteString.append_cons_prefix_iff _ _ (not_mem_bytesOf_of_isValid hbase).1
      (not_mem_bytesOf_of_isValid hbase').1,
    ByteString.append_cons_prefix_iff _ _ (not_mem_bytesOf_of_isValid hquote).2
      (not_mem_bytesOf_of_isValid hquote').2,
    uint32ToBigEndian_inj hdex horder, bytesOf_inj, bytesOf_inj]
  simp only [List.nil_prefix, and_true]
  constructor
  · rintro ⟨haddr, hdex, hbase, hquote⟩
    exact ⟨haddr.symm, hdex.symm, hbase.symm, hquote.symm⟩
  · rintro ⟨haddr, hdex, hbase, hquote⟩
    exact ⟨haddr.symm, hdex.symm, hbase.symm, hquote.symm⟩

/-! ## Reading the unfinished orders back -/

/-- **The iteration reads every unfinished order back** when the key of
each decodes to its ID: every indexed ID has an order stored under it, of
that ID, with no `:` in it, valid symbols and an owner of `sdk.AddrLen`
bytes. `Manager.Init` then builds the book of the stored unfinished
orders. -/
theorem iteratorAllUnfinishedOrder_eq_ok {β : Type} {env : Env} {s : State} (f : β → Order → β)
    (init : β)
    (h : ∀ e ∈ s.unfinished.entries, ∃ order, s.getOrder e.1 = some order ∧ order.orderID = e.1 ∧
      (58 : Fin 256) ∉ bytesOf e.1 ∧ (env.addrBytes order.fromAddr).length = addrLen ∧
      order.baseSymbol.isValid = true ∧ order.quoteSymbol.isValid = true) :
    iteratorAllUnfinishedOrder env s f init =
      .ok ((s.unfinished.entries.filterMap fun e => s.getOrder e.1).foldl f init) := by
  unfold iteratorAllUnfinishedOrder
  generalize s.unfinished.entries = l at h ⊢
  induction l generalizing init with
  | nil => rfl
  | cons e l ih =>
    obtain ⟨order, hget, hid, hcolon, haddr, hbase, hquote⟩ := h e List.mem_cons_self
    -- the key of the entry decodes to the bytes of its ID, which find its order
    have hdecode := getOrderIDFromUnfinishedOrderKey_unfinishedOrderKey haddr hbase hquote
    rw [hid, if_neg hcolon] at hdecode
    rw [List.foldlM_cons, List.filterMap_cons, hget]
    simp only [orFail, ok_bind, hdecode, State.getOrderOfBytes_bytesOf, hget, List.foldl_cons]
    exact ih (f init order) (fun e' he' => h e' (List.mem_cons_of_mem e he'))

/-! ## An order ID in the `urn:uuid:` form -/

/-- The namespace UUID of RFC 4122's examples, in the `urn:uuid:` form that
`uuid.FromString` accepts. -/
def urnOrderID : String := "urn:uuid:6ba7b810-9dad-11d1-80b4-00c04fd430c8"

/-- An address of `sdk.AddrLen` bytes for every name. -/
def twentyByteAddr (_ : CUAddress) : Bytes := List.replicate addrLen 0xa1

/-- `bob` pools `btc` and `usdt`, and `alice` sells `10` `btc` under the
`urn:uuid:` ID, with no expiry. -/
def urnPlaced : State :=
  Transition.run (step expiryEnv) (State.init expiryGenesis)
    [.tx 1 (.addLiquidity ⟨"bob", 0, "btc", "usdt", 2000, 2000, 0⟩), .tx 1 (sellBtc "alice" urnOrderID (-1))]

/-- `alice`'s order as the store holds it after the block. -/
def urnOrder : Order where
  orderID := urnOrderID
  dexID := 0
  fromAddr := "alice"
  referer := "alice"
  receiver := "alice"
  createdTime := 1
  expiredTime := -1
  finishedTime := 0
  status := .new
  side := .sell
  baseSymbol := "btc"
  quoteSymbol := "usdt"
  price := Dec.ofInt 2
  amountIn := 10
  lockedFund := 10
  feeRate := ⟨Dec.zero, Dec.zero, Dec.zero⟩

/-- **The key of an accepted order does not decode.** The order is placed
and indexed as unfinished, and reading its ID back off its key panics: the
two colons of the ID split the rest of the key in four. -/
theorem urnOrder_key_panics :
    urnPlaced.getOrder urnOrderID = some urnOrder ∧ urnPlaced.unfinished.get urnOrderID = some () ∧
      getOrderIDFromUnfinishedOrderKey (unfinishedOrderKey twentyByteAddr urnOrder) =
        .error (.panic "invalid key") := by
  refine ⟨by decide +kernel, by decide +kernel, ?_⟩
  rw [getOrderIDFromUnfinishedOrderKey_unfinishedOrderKey (by rfl) (by decide) (by decide),
    if_pos (by decide)]

/-! ## A restart after such an order -/

/-- **`Manager.Init` builds no book once the unfinished index lists an
order whose ID holds a `:`**: the iteration over that order's key panics,
whatever book it has built before. -/
theorem managerInit_ne_ok_of_colon {env : Env} {s : State} {orderID : String} {order : Order}
    (hidx : s.unfinished.get orderID = some ()) (hget : s.getOrder orderID = some order)
    (haddr : (env.addrBytes order.fromAddr).length = addrLen)
    (hbase : order.baseSymbol.isValid = true) (hquote : order.quoteSymbol.isValid = true)
    (hcolon : (58 : Fin 256) ∈ bytesOf order.orderID) (mgr : Manager) :
    managerInit env s ≠ .ok mgr := by
  unfold managerInit iteratorAllUnfinishedOrder
  refine foldlM_ne_ok_of_mem (fun mgr mgr' h => ?_) (KVStore.Store.mem_iff_get.mpr hidx)
  simp only [bind_eq_ok, orFail_eq_ok, hget, Option.some.injEq, exists_eq_left',
    getOrderIDFromUnfinishedOrderKey_unfinishedOrderKey haddr hbase hquote, if_pos hcolon] at h
  obtain ⟨_, h, -⟩ := h
  cases h

/-- **A restart fails once the unfinished index lists an order whose ID
holds a `:`**, such as the `urn:uuid:` form that `ValidateBasic` accepts:
the first `BeginBlock` of the node panics in `Manager.Init`. -/
theorem restartNode_fails_of_colon {env : Env} {s : State} {orderID : String} {order : Order}
    (hidx : s.unfinished.get orderID = some ()) (hget : s.getOrder orderID = some order)
    (haddr : (env.addrBytes order.fromAddr).length = addrLen)
    (hbase : order.baseSymbol.isValid = true) (hquote : order.quoteSymbol.isValid = true)
    (hcolon : (58 : Fin 256) ∈ bytesOf order.orderID) :
    ∃ e, restartNode env s = .error e := by
  cases hinit : managerInit env s with
  | error e => exact ⟨e, by simp only [restartNode, hinit]; rfl⟩
  | ok mgr => exact absurd hinit (managerInit_ne_ok_of_colon hidx hget haddr hbase hquote hcolon mgr)

/-- **Of the order IDs `IsIllegalOrderID` accepts, only those in the
`urn:uuid:` form hold the `:` that stops the decoding.** -/
theorem urn_of_colon_mem_bytesOf {orderID : String} (h : isIllegalOrderID orderID = false)
    (hc : (58 : Fin 256) ∈ bytesOf orderID) : orderID.toList.take 9 = "urn:uuid:".toList := by
  obtain ⟨c, hmem, hcode⟩ := (mem_bytesOf_ascii orderID (b := 58) (by omega)).mp hc
  have hcolon : c = ':' := Char.toNat_inj.mp (by rw [hcode]; rfl)
  exact urn_of_colon_mem_orderID h (hcolon ▸ hmem)

/-- After `alice` places her order under the `urn:uuid:` ID, a restart of
the node fails. -/
theorem restart_after_urnPlaced_fails : ∃ e, restartNode expiryEnv urnPlaced = .error e :=
  @restartNode_fails_of_colon expiryEnv urnPlaced urnOrderID urnOrder (by decide +kernel)
    (by decide +kernel) (by rfl) (by decide) (by decide) (by decide)

/-- The panic is that of `GetOrderIDFromUnfinishedOrderKey`. -/
example : (restartNode expiryEnv urnPlaced).map (fun _ => ()) = .error (.panic "invalid key") := by
  decide +kernel

end Openswap
