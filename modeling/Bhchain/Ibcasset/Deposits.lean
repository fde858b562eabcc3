import Bhchain.Types.Coins
import Bhchain.Types.Collect
import Bhchain.Lib.KeyedList

/-!
# The deposit items of the ibcasset store (`x/ibcasset/keeper.go`)

The ibcasset keeper stores each deposit item under
`DepositStoreKey(symbol, addr, hash, index)`: a prefix of the CU and the
symbol, then the item's output. The model keeps the items of one prefix as
a keyed list (`Lib.KeyedList`), keyed by the output: `GetDeposit` and
`IsDepositExist` read the item of a key, `SaveDeposit` writes one in place,
and `GetDepositList` lists the items of a prefix, skipping those
`AddDepositItem` refuses (an empty hash). Key order, which only decides the
order of that list, is not kept: the handlers only ask whether some item of
the list has a status.
-/

namespace Ibcasset

open Sdk

/-- **The deposit items**, by symbol and CU. -/
structure DepositStore where
  items : Denom → String → DepositList

namespace DepositStore

/-- No item. -/
def empty : DepositStore := ⟨fun _ _ => []⟩

/-- `GetDepositList`. -/
def getDepositList (st : DepositStore) (symbol : Denom) (address : String) : DepositList :=
  (st.items symbol address).filter DepositItem.isValid

/-- `GetDeposit`; `none` is `DepositNil`. -/
def getDeposit (st : DepositStore) (symbol : Denom) (address hash : String) (index : ℕ) :
    Option DepositItem :=
  KeyedList.lookup DepositItem.key (hash, index) (st.items symbol address)

/-- `IsDepositExist`. -/
def isDepositExist (st : DepositStore) (symbol : Denom) (address hash : String) (index : ℕ) :
    Bool :=
  (st.getDeposit symbol address hash index).isSome

/-- `SaveDeposit`: store the item under its output. -/
def saveDeposit (st : DepositStore) (symbol : Denom) (address : String) (item : DepositItem) :
    DepositStore :=
  ⟨fun s a =>
    if s = symbol ∧ a = address then KeyedList.upsert DepositItem.key item (st.items s a)
    else st.items s a⟩

/-- **`SetDepositStatus`**: change the status of a stored item. -/
def setDepositStatus (st : DepositStore) (symbol : Denom) (address hash : String) (index : ℕ)
    (status : DepositItemStatus) : Except String DepositStore :=
  match st.getDeposit symbol address hash index with
  | none => .error "deposit not exist %v%v"
  | some item => .ok (st.saveDeposit symbol address { item with status := status })

@[simp] theorem getDeposit_empty (symbol : Denom) (address hash : String) (index : ℕ) :
    empty.getDeposit symbol address hash index = none := rfl

theorem items_saveDeposit (st : DepositStore) (symbol : Denom) (address : String)
    (item : DepositItem) (s : Denom) (a : String) :
    (st.saveDeposit symbol address item).items s a =
      if s = symbol ∧ a = address then KeyedList.upsert DepositItem.key item (st.items s a)
      else st.items s a := rfl

/-- **What `SaveDeposit` does to the reads**: the item is read under its
prefix and output, and nothing else changes. -/
theorem getDeposit_saveDeposit (st : DepositStore) (symbol : Denom) (address : String)
    (item : DepositItem) (s : Denom) (a hash : String) (index : ℕ) :
    (st.saveDeposit symbol address item).getDeposit s a hash index =
      if s = symbol ∧ a = address ∧ item.key = (hash, index) then some item
      else st.getDeposit s a hash index := by
  unfold getDeposit
  rw [items_saveDeposit]
  by_cases hp : s = symbol ∧ a = address
  · rw [if_pos hp, KeyedList.lookup_upsert]
    simp [hp]
  · -- another prefix: its list is untouched
    rw [if_neg hp, if_neg (fun h => hp ⟨h.1, h.2.1⟩)]

/-- The item `GetDeposit` reads is stored under the output it was asked
for. -/
theorem key_of_getDeposit {st : DepositStore} {symbol : Denom} {address hash : String}
    {index : ℕ} {item : DepositItem} (h : st.getDeposit symbol address hash index = some item) :
    item.key = (hash, index) :=
  KeyedList.key_of_lookup _ h

/-- What a successful `SetDepositStatus` did: it found the item, and wrote it
back with the new status. -/
theorem setDepositStatus_eq_ok {st st' : DepositStore} {symbol : Denom} {address hash : String}
    {index : ℕ} {status : DepositItemStatus}
    (h : st.setDepositStatus symbol address hash index status = .ok st') :
    ∃ item, st.getDeposit symbol address hash index = some item ∧
      st' = st.saveDeposit symbol address { item with status := status } := by
  unfold setDepositStatus at h
  split at h
  · cases h
  · rename_i item hget
    cases h
    exact ⟨item, hget, rfl⟩

/-- `SetDepositStatus` fails only where there is no item. -/
theorem setDepositStatus_of_getDeposit {st : DepositStore} {symbol : Denom}
    {address hash : String} {index : ℕ} {item : DepositItem}
    (h : st.getDeposit symbol address hash index = some item) (status : DepositItemStatus) :
    st.setDepositStatus symbol address hash index status =
      .ok (st.saveDeposit symbol address { item with status := status }) := by
  simp [setDepositStatus, h]

end DepositStore

end Ibcasset
