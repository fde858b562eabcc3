import Mathlib.Data.Int.Notation
import Mathlib.Order.Basic

/-!
# Orders (`types/order.go`)

Every cross-chain operation is an order kept by the order keeper: a key
generation, a deposit, a withdrawal, a collect, a system transfer or an
operation-CU asset transfer. They share `OrderBase`, whose status walks
`Begin → WaitSign → SignFinish → {Finish, Failed}`, with `Cancel` for a
withdrawal dropped before it is broadcast.

Two comparisons of statuses are used by the handlers. `Match` is equality,
loosened so that an expected `SignFinish` also accepts the two statuses a
finished order can be in; `Terminated` is the numeric comparison
`s ≥ Finish`, which makes `Finish`, `Cancel` and `Failed` final.

Of the order kinds the model keeps the withdrawal's own fields; the other
kinds are carried by their base fields.
-/

namespace Sdk

/-- `OrderType`, with the codes of `types/order.go`. -/
inductive OrderType where
  | keyGen
  | withdrawal
  | collect
  | deposit
  | sysTransfer
  | opcuAssetTransfer
  deriving DecidableEq, Repr

/-- The numeric code of an order type. -/
def OrderType.toNat : OrderType → ℕ
  | .keyGen => 1
  | .withdrawal => 2
  | .collect => 3
  | .deposit => 4
  | .sysTransfer => 5
  | .opcuAssetTransfer => 6

/-- `OrderStatus`, with the codes of `types/order.go`. -/
inductive OrderStatus where
  | begin
  | waitSign
  | signFinish
  | finish
  /-- cancelled without broadcasting to the chain -/
  | cancel
  /-- failed after broadcasting to the chain -/
  | failed
  deriving DecidableEq, Repr

namespace OrderStatus

/-- The numeric code of a status. -/
def toNat : OrderStatus → ℕ
  | .begin => 1
  | .waitSign => 2
  | .signFinish => 3
  | .finish => 4
  | .cancel => 5
  | .failed => 6

/-- **`OrderStatus.Match`**: `s` equals `other`, or `s` is `SignFinish`
and `other` is one of the statuses a finished order is in. -/
def «match» (s other : OrderStatus) : Bool :=
  s == other || (s == .signFinish && (other == .finish || other == .failed))

/-- **`OrderStatus.Terminated`**: `s >= OrderStatusFinish`. -/
def terminated (s : OrderStatus) : Bool := decide (finish.toNat ≤ s.toNat)

theorem terminated_iff (s : OrderStatus) :
    s.terminated = true ↔ s = .finish ∨ s = .cancel ∨ s = .failed := by
  cases s <;> decide

/-- An expected status other than `SignFinish` matches only itself. -/
theorem match_iff_of_ne {s other : OrderStatus} (hs : s ≠ .signFinish) :
    s.match other = true ↔ s = other := by
  cases s <;> cases other <;> simp_all [«match»]

/-- An expected `SignFinish` matches exactly the three statuses it names. -/
theorem signFinish_match_iff (other : OrderStatus) :
    signFinish.match other = true ↔ other = .signFinish ∨ other = .finish ∨ other = .failed := by
  cases other <;> decide

end OrderStatus

/-- `WithdrawStatus`: whether the key nodes confirmed a withdrawal request
valid. -/
inductive WithdrawStatus where
  | unconfirmed
  /-- confirmed valid by a majority of the key nodes -/
  | valid
  /-- confirmed invalid (for example a withdrawal to a contract address) -/
  | invalid
  deriving DecidableEq, Repr

/-- **`OrderBase`**: the fields every order carries. -/
structure OrderBase where
  cuAddress : String
  id : String
  orderType : OrderType
  symbol : String
  status : OrderStatus
  height : ℕ
  deriving DecidableEq, Repr

/-- **`OrderWithdrawal`**. Raw and signed transactions are byte strings,
modelled as `String`s, of which only emptiness and equality are read. -/
structure OrderWithdrawal extends OrderBase where
  amount : ℤ
  gasFee : ℤ
  costFee : ℤ
  withdrawToAddress : String
  fromAddress : String
  opCUaddress : String
  utxoInNum : ℕ
  txhash : String
  rawData : String
  signedTx : String
  withdrawStatus : WithdrawStatus
  deriving DecidableEq, Repr

/-- **`sdk.Order`**: a withdrawal with its own fields, or an order of
another kind by its base fields. -/
inductive Order where
  | withdrawal (o : OrderWithdrawal)
  | other (b : OrderBase)
  deriving DecidableEq, Repr

namespace Order

/-- The base fields of an order. -/
def base : Order → OrderBase
  | .withdrawal o => o.toOrderBase
  | .other b => b

/-- `GetID`. -/
def getID (o : Order) : String := o.base.id

/-- `GetOrderType`. -/
def getOrderType (o : Order) : OrderType := o.base.orderType

/-- `GetOrderStatus`. -/
def getOrderStatus (o : Order) : OrderStatus := o.base.status

/-- `GetCUAddress`. -/
def getCUAddress (o : Order) : String := o.base.cuAddress

/-- The type assertion `order.(*sdk.OrderWithdrawal)`. -/
def asWithdrawal : Order → Option OrderWithdrawal
  | .withdrawal o => some o
  | .other _ => none

@[simp] theorem asWithdrawal_withdrawal (o : OrderWithdrawal) :
    (Order.withdrawal o).asWithdrawal = some o := rfl

theorem asWithdrawal_eq_some {o : Order} {w : OrderWithdrawal} :
    o.asWithdrawal = some w ↔ o = .withdrawal w := by
  cases o <;> simp [asWithdrawal]

@[simp] theorem getOrderStatus_withdrawal (o : OrderWithdrawal) :
    (Order.withdrawal o).getOrderStatus = o.status := rfl

@[simp] theorem getID_withdrawal (o : OrderWithdrawal) : (Order.withdrawal o).getID = o.id := rfl

/-- `SetOrderStatus`. -/
def setOrderStatus : Order → OrderStatus → Order
  | .withdrawal o, s => .withdrawal { o with status := s }
  | .other b, s => .other { b with status := s }

@[simp] theorem setOrderStatus_withdrawal (o : OrderWithdrawal) (s : OrderStatus) :
    (Order.withdrawal o).setOrderStatus s = .withdrawal { o with status := s } := rfl

end Order

/-! ## Order IDs

An order ID must be a UUID that `uuid.FromString` of `satori/go.uuid`
(v1.2.0, `go.mod`) reads. Its `UnmarshalText` picks a form by the length
of the text: 32 hex digits, the canonical 8-4-4-4-12 groups, the braced
form, or the `urn:uuid:` form; the hex digits are of either case. Every
character of an accepted text is ASCII, so counting characters here and
bytes in `Go` agree on every text either accepts. -/

namespace Uuid

/-- A digit `hex.Decode` reads. -/
def isHexDigit (c : Char) : Bool :=
  c.isDigit || ('a' ≤ c && c ≤ 'f') || ('A' ≤ c && c ≤ 'F')

/-- `decodeHashLike`: 32 hex digits. -/
def decodeHashLike (t : List Char) : Bool := t.all isHexDigit

/-- `decodeCanonical`: a `-` at 8, 13, 18 and 23, hex digits elsewhere. -/
def decodeCanonical (t : List Char) : Bool :=
  t.zipIdx.all fun (c, i) => if i ∈ [8, 13, 18, 23] then c == '-' else isHexDigit c

/-- `decodePlain`: the hash-like or the canonical form, by length. -/
def decodePlain (t : List Char) : Bool :=
  if t.length = 32 then decodeHashLike t
  else if t.length = 36 then decodeCanonical t
  else false

/-- `decodeBraced`: a plain UUID between braces. -/
def decodeBraced (t : List Char) : Bool :=
  t.head? == some '\x7b' && t.getLast? == some '\x7d' && decodePlain (t.drop 1).dropLast

/-- `decodeURN`: `urn:uuid:`, then a plain UUID. -/
def decodeURN (t : List Char) : Bool :=
  t.take 9 == "urn:uuid:".toList && decodePlain (t.drop 9)

/-- **`UnmarshalText`**, as whether it succeeds: the form is chosen by the
length of the text. -/
def unmarshalText (t : List Char) : Bool :=
  if t.length = 32 then decodeHashLike t
  else if t.length = 36 then decodeCanonical t
  else if t.length = 38 then decodeBraced t
  else if t.length = 41 ∨ t.length = 45 then decodeURN t
  else false

/-! ### Where a text `UnmarshalText` reads can hold a `:` -/

theorem ne_colon_of_isHexDigit {c : Char} (h : isHexDigit c = true) : c ≠ ':' := by
  rintro rfl
  exact absurd h (by decide)

theorem colon_not_mem_of_decodeHashLike {t : List Char} (h : decodeHashLike t = true) : ':' ∉ t :=
  fun hc => ne_colon_of_isHexDigit (List.all_eq_true.mp h ':' hc) rfl

theorem colon_not_mem_of_decodeCanonical {t : List Char} (h : decodeCanonical t = true) :
    ':' ∉ t := by
  intro hc
  obtain ⟨i, hi⟩ := List.mem_iff_getElem?.mp hc
  -- the position of the `:` is one of a `-` or of a hex digit
  have hpos : (if i ∈ [8, 13, 18, 23] then ':' == '-' else isHexDigit ':') = true :=
    List.all_eq_true.mp h (':', i) (List.mem_zipIdx_iff_getElem?.mpr hi)
  split at hpos <;> exact absurd hpos (by decide)

theorem colon_not_mem_of_decodePlain {t : List Char} (h : decodePlain t = true) : ':' ∉ t := by
  unfold decodePlain at h
  split_ifs at h
  · exact colon_not_mem_of_decodeHashLike h
  · exact colon_not_mem_of_decodeCanonical h

theorem colon_not_mem_of_decodeBraced {t : List Char} (h : decodeBraced t = true) : ':' ∉ t := by
  simp only [decodeBraced, Bool.and_eq_true, beq_iff_eq, List.head?_eq_getElem?,
    List.getLast?_eq_getElem?] at h
  obtain ⟨⟨hfirst, hlast⟩, hplain⟩ := h
  intro hc
  obtain ⟨i, hi⟩ := List.mem_iff_getElem?.mp hc
  have hlt : i < t.length := (List.getElem?_eq_some_iff.mp hi).1
  -- the `:` is not the first character, nor the last, so it is inside the braces
  rcases Nat.eq_zero_or_pos i with rfl | hpos
  · rw [hfirst] at hi
    cases hi
  by_cases hend : i = t.length - 1
  · rw [← hend, hi] at hlast
    cases hlast
  have hinner : ((t.drop 1).dropLast)[i - 1]? = some ':' := by
    rw [List.getElem?_dropLast, if_pos (by simp; omega), List.getElem?_drop,
      show 1 + (i - 1) = i by omega, hi]
  exact colon_not_mem_of_decodePlain hplain (List.mem_iff_getElem?.mpr ⟨i - 1, hinner⟩)

/-- **Of the texts `UnmarshalText` reads, only the `urn:uuid:` form holds a
`:`.** -/
theorem urn_of_colon_mem {t : List Char} (h : unmarshalText t = true) (hc : ':' ∈ t) :
    t.take 9 = "urn:uuid:".toList := by
  unfold unmarshalText at h
  split_ifs at h
  · exact absurd hc (colon_not_mem_of_decodeHashLike h)
  · exact absurd hc (colon_not_mem_of_decodeCanonical h)
  · exact absurd hc (colon_not_mem_of_decodeBraced h)
  · simp only [decodeURN, Bool.and_eq_true, beq_iff_eq] at h
    exact h.1

end Uuid

/-- **`IsIllegalOrderID`**: `uuid.FromString` fails on the ID. -/
def isIllegalOrderID (orderID : String) : Bool := !Uuid.unmarshalText orderID.toList

/-- An order ID `IsIllegalOrderID` accepts holds a `:` only in the
`urn:uuid:` form. -/
theorem urn_of_colon_mem_orderID {orderID : String} (h : isIllegalOrderID orderID = false)
    (hc : ':' ∈ orderID.toList) : orderID.toList.take 9 = "urn:uuid:".toList :=
  Uuid.urn_of_colon_mem (by simpa [isIllegalOrderID] using h) hc

/-- `IsIllegalOrderIDList`: an ID that is not a UUID, or one seen before. -/
def isIllegalOrderIDList (isIllegalOrderID : String → Bool) : List String → List String → Bool
  | _, [] => false
  | seen, id :: ids =>
    isIllegalOrderID id || decide (id ∈ seen) || isIllegalOrderIDList isIllegalOrderID (id :: seen) ids

end Sdk
