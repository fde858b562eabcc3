import Mathlib
import Bhchain.Lib.RingBuffer
import Bhchain.Lib.BigEndian
import Bhchain.Lib.KVStore
import Bhchain.Lib.Transition
import Bhchain.Transfer.Balance
import Bhchain.Types.Dec

/-!
# Misbehaviour counting (`x/evidence/keeper/behaviour.go`, `keeper.go`)

The evidence keeper counts, for each behaviour name and validator, how
often the validator misbehaved among its last `BehaviourWindow` calls of
`HandleBehaviour`. It does not keep the calls: the `i`-th call since the
last reset writes its flag to slot `i % W` of a bit array, over the flag
of the call `W` before it, and moves a counter by the difference. When the
counter exceeds `MaxMisbehaviourCount` the validator is slashed and
jailed, and the counter, the offset and the bit array start over.

`BehaviourSpec` says what this is for: the flags since the last
punishment, and a punishment whenever the misbehaviours among the last `W`
of them exceed the maximum. The store keeps that record (`Keeps`): the
offset is the number of calls since the last reset, the bit array is the
ring buffer of their flags (`RingBuffer.ring`) and the counter is the
count of the window, which is the number of marked bits; and the two
punish on the same calls (`runBehaviour_keeps`).

`RecordMisbehaviourVoter` feeds the calls for the votes of the key nodes.
A vote ID that first confirms at a height is queued under the key
`0x04 ‖ BigEndian(height) ‖ voteID`; the end-blocker of each block after
`BehaviourCountDelayBlock` iterates in reverse the keys from `0x04` up to
the bare prefix of `currentHeight - BehaviourCountDelayBlock + 1`, which
by the big-endian order are those of the heights at most
`currentHeight - BehaviourCountDelayBlock` (`isKeyInDomain_voteKey`),
records the behaviour of the epoch's key nodes for each, and deletes them.
Over any run of blocks of increasing heights, each confirmed vote is
therefore recorded once, by the first block old enough for it
(`confirmedVote_recorded_once`).

Left out: the staking keeper's slashing and jailing, modelled by the
record of the calls; and the byte keys of the behaviour records, which
are those of a behaviour name and an address, as a pair.
-/

namespace Evidence

open Sdk Transfer RingBuffer Transition

/-! ## The behaviour of a validator -/

/-- **`ValidatorBehaviour`**: the calls counted since the last reset and
the misbehaviours among the last `BehaviourWindow` of them. The source
keeps both as `int64`; the offset only counts up from zero. -/
structure ValidatorBehaviour where
  indexOffset : ℕ
  misbehaviourCounter : ℤ
  deriving DecidableEq, Repr

/-- The zero `ValidatorBehaviour` that a missing key reads as. -/
def ValidatorBehaviour.zero : ValidatorBehaviour := ⟨0, 0⟩

/-- **`BehaviourParams`** of each behaviour name (`GetWithSubkey`). -/
structure BehaviourParams where
  behaviourWindow : String → ℤ
  maxMisbehaviourCount : String → ℤ
  behaviourSlashFraction : String → Dec

/-- A `SlashByOperator` call, and the `JailByOperator` call after it. -/
structure Punishment where
  validator : CUAddress
  height : ℕ
  slashFraction : Dec
  deriving DecidableEq, Repr

/-- **The behaviour store**: the `ValidatorBehaviourKey` and
`ValidatorBehaviourBitArrayKey` entries of each behaviour name and
validator, and the punishments asked of the staking keeper, in order. -/
structure BehaviourState where
  behaviours : String × CUAddress → ValidatorBehaviour
  bitArray : String × CUAddress → ℕ → Bool
  punished : List Punishment

namespace BehaviourState

/-- A store without behaviour records. -/
def empty : BehaviourState := ⟨fun _ => .zero, fun _ _ => false, []⟩

/-- `GetValidatorBehaviour`. -/
def getValidatorBehaviour (s : BehaviourState) (key : String × CUAddress) : ValidatorBehaviour :=
  s.behaviours key

/-- `SetValidatorBehaviour`. -/
def setValidatorBehaviour (s : BehaviourState) (key : String × CUAddress) (vb : ValidatorBehaviour) :
    BehaviourState :=
  { s with behaviours := Function.update s.behaviours key vb }

/-- `GetValidatorBehaviourBitArray`: a missing bit is not a misbehaviour. -/
def getValidatorBehaviourBitArray (s : BehaviourState) (key : String × CUAddress) (index : ℕ) : Bool :=
  s.bitArray key index

/-- `SetValidatorBehaviourBitArray`. -/
def setValidatorBehaviourBitArray (s : BehaviourState) (key : String × CUAddress) (index : ℕ)
    (mis : Bool) : BehaviourState :=
  { s with bitArray := Function.update s.bitArray key (Function.update (s.bitArray key) index mis) }

/-- `clearValidatorBehaviourBitArray`: every bit of the key, deleted by a
prefix iteration. -/
def clearValidatorBehaviourBitArray (s : BehaviourState) (key : String × CUAddress) : BehaviourState :=
  { s with bitArray := Function.update s.bitArray key fun _ => false }

/-- `SlashByOperator`, then `JailByOperator`. -/
def slashAndJail (s : BehaviourState) (validator : CUAddress) (height : ℕ) (fraction : Dec) :
    BehaviourState :=
  { s with punished := s.punished ++ [⟨validator, height, fraction⟩] }

end BehaviourState

open BehaviourState

/-- **`HandleBehaviour`**. The slot is `IndexOffset % BehaviourWindow`,
which for a nonnegative offset is Go's `%` by the window's absolute
value. -/
def handleBehaviour (params : BehaviourParams) (s : BehaviourState) (behaviourKey : String)
    (validator : CUAddress) (height : ℕ) (normal : Bool) : BehaviourState :=
  let key := (behaviourKey, validator)
  let vb := s.getValidatorBehaviour key
  let index := vb.indexOffset % (params.behaviourWindow behaviourKey).natAbs
  let vb := { vb with indexOffset := vb.indexOffset + 1 }
  let previous := s.getValidatorBehaviourBitArray key index
  let misbehaved := !normal
  let (s, vb) :=
    if !previous && misbehaved then
      (s.setValidatorBehaviourBitArray key index true,
        { vb with misbehaviourCounter := vb.misbehaviourCounter + 1 })
    else if previous && !misbehaved then
      (s.setValidatorBehaviourBitArray key index false,
        { vb with misbehaviourCounter := vb.misbehaviourCounter - 1 })
    else (s, vb)
  let (s, vb) :=
    if vb.misbehaviourCounter > params.maxMisbehaviourCount behaviourKey then
      -- reset, so that the validator is not slashed again upon rebonding
      ((s.slashAndJail validator height (params.behaviourSlashFraction behaviourKey)).clearValidatorBehaviourBitArray
        key, { vb with misbehaviourCounter := 0, indexOffset := 0 })
    else (s, vb)
  s.setValidatorBehaviour key vb

/-- **One call of `HandleBehaviour`**: the slot of the call takes its flag,
and the counter moves by the flag it writes less the flag it replaces;
past the maximum, the record starts over and the validator is punished. -/
theorem handleBehaviour_eq (params : BehaviourParams) (s : BehaviourState) (behaviourKey : String)
    (validator : CUAddress) (height : ℕ) (normal : Bool) :
    handleBehaviour params s behaviourKey validator height normal =
      let key := (behaviourKey, validator)
      let vb := s.behaviours key
      let index := vb.indexOffset % (params.behaviourWindow behaviourKey).natAbs
      let counter := vb.misbehaviourCounter + ((!normal).toNat : ℤ) - (s.bitArray key index).toNat
      if counter > params.maxMisbehaviourCount behaviourKey then
        ⟨Function.update s.behaviours key .zero, Function.update s.bitArray key fun _ => false,
          s.punished ++ [⟨validator, height, params.behaviourSlashFraction behaviourKey⟩]⟩
      else
        ⟨Function.update s.behaviours key ⟨vb.indexOffset + 1, counter⟩,
          Function.update s.bitArray key (Function.update (s.bitArray key) index !normal), s.punished⟩ := by
  simp only [handleBehaviour, getValidatorBehaviour, getValidatorBehaviourBitArray,
    setValidatorBehaviourBitArray, setValidatorBehaviour, clearValidatorBehaviourBitArray, slashAndJail]
  -- the three cases of the switch, as the flag replaced and the flag written; where they are
  -- equal the bit array is left as it was
  rcases Bool.eq_false_or_eq_true (s.bitArray (behaviourKey, validator)
      ((s.behaviours (behaviourKey, validator)).indexOffset % (params.behaviourWindow behaviourKey).natAbs))
    with hprev | hprev <;>
    cases normal <;>
    simp only [hprev, Bool.not_false, Bool.not_true, Bool.and_self, Bool.and_false, Bool.false_and,
      Bool.toNat_false, Bool.toNat_true, Bool.false_eq_true, ↓reduceIte, Nat.cast_zero,
      Nat.cast_one, add_zero, sub_zero, add_sub_cancel_right] <;>
    split_ifs <;> simp [ValidatorBehaviour.zero, sub_eq_add_neg, ← hprev]

/-! ## What the behaviour record is for -/

/-- The window of a behaviour name's calls. -/
def windowOf (params : BehaviourParams) (behaviourKey : String) : ℕ :=
  (params.behaviourWindow behaviourKey).toNat

/-- **The behaviour record a validator should have**: for each behaviour
name and validator, the misbehaviour flags of its calls since its last
punishment; and the punishments. -/
structure BehaviourSpec where
  history : String × CUAddress → List Bool
  punished : List Punishment

namespace BehaviourSpec

/-- No calls yet. -/
def empty : BehaviourSpec := ⟨fun _ => [], []⟩

/-- **A call**: its flag joins the history, and once the misbehaviours
among the last `W` calls exceed the maximum the validator is punished and
the history starts over. -/
def handle (params : BehaviourParams) (σ : BehaviourSpec) (behaviourKey : String) (validator : CUAddress)
    (height : ℕ) (normal : Bool) : BehaviourSpec :=
  let key := (behaviourKey, validator)
  let history := σ.history key ++ [!normal]
  if ((window (windowOf params behaviourKey) history).count true : ℤ) >
      params.maxMisbehaviourCount behaviourKey then
    ⟨Function.update σ.history key [],
      σ.punished ++ [⟨validator, height, params.behaviourSlashFraction behaviourKey⟩]⟩
  else ⟨Function.update σ.history key history, σ.punished⟩

end BehaviourSpec

/-- **The store keeps the record**: for every behaviour name and
validator, the offset counts the calls since the last reset, the bit
array is the ring buffer of their flags, and the counter is the number of
misbehaviours among the last `W`; and the punishments are the same. -/
structure Keeps (params : BehaviourParams) (s : BehaviourState) (σ : BehaviourSpec) : Prop where
  offset : ∀ key, (s.getValidatorBehaviour key).indexOffset = (σ.history key).length
  bits : ∀ key, s.bitArray key = ring (windowOf params key.1) false (σ.history key)
  counter : ∀ key, (s.getValidatorBehaviour key).misbehaviourCounter =
    (window (windowOf params key.1) (σ.history key)).count true
  punished : s.punished = σ.punished

theorem keeps_empty (params : BehaviourParams) : Keeps params BehaviourState.empty BehaviourSpec.empty where
  offset _ := rfl
  bits _ := rfl
  counter _ := by
    simp [getValidatorBehaviour, BehaviourState.empty, BehaviourSpec.empty, ValidatorBehaviour.zero, window]
  punished := rfl

/-- **One call keeps the record**, for a behaviour name of a positive
window. -/
theorem Keeps.handle {params : BehaviourParams} {s : BehaviourState} {σ : BehaviourSpec}
    (h : Keeps params s σ) {behaviourKey : String} (hW : 0 < params.behaviourWindow behaviourKey)
    (validator : CUAddress) (height : ℕ) (normal : Bool) :
    Keeps params (handleBehaviour params s behaviourKey validator height normal)
      (σ.handle params behaviourKey validator height normal) := by
  set key := (behaviourKey, validator) with hkey
  set W := windowOf params behaviourKey with hWdef
  have hWpos : 0 < W := by simp [hWdef, windowOf]; omega
  have hnat : (params.behaviourWindow behaviourKey).natAbs = W := by simp [hWdef, windowOf]; omega
  -- the slot of the call is the slot of the `n`-th flag, `n` the calls so far
  have hoffset : (s.behaviours key).indexOffset = (σ.history key).length := h.offset key
  have hbits : s.bitArray key = ring W false (σ.history key) := h.bits key
  have hcount := count_window_append_singleton hWpos (σ.history key) (!normal)
  have hcounter : (s.behaviours key).misbehaviourCounter + ((!normal).toNat : ℤ) -
      (s.bitArray key ((s.behaviours key).indexOffset % (params.behaviourWindow behaviourKey).natAbs)).toNat =
      ((window W (σ.history key ++ [!normal])).count true : ℤ) := by
    have hc : (s.behaviours key).misbehaviourCounter = (window W (σ.history key)).count true := h.counter key
    rw [hoffset, hnat, hbits, hc]
    omega
  have hoff : ∀ k, (s.behaviours k).indexOffset = (σ.history k).length := h.offset
  have hcnt : ∀ k, (s.behaviours k).misbehaviourCounter =
      (window (windowOf params k.1) (σ.history k)).count true := h.counter
  rw [handleBehaviour_eq]
  simp only [BehaviourSpec.handle, ← hkey, ← hWdef, hcounter]
  split
  · -- past the maximum: both start over and punish
    refine ⟨fun k => ?_, fun k => ?_, fun k => ?_, by simp [h.punished]⟩ <;> by_cases hk : k = key
    · subst hk
      simp [getValidatorBehaviour, ValidatorBehaviour.zero]
    · simp [getValidatorBehaviour, hk, hoff k]
    · subst hk
      simp
    · simp [hk, h.bits k]
    · subst hk
      simp [getValidatorBehaviour, ValidatorBehaviour.zero, window]
    · simp [getValidatorBehaviour, hk, hcnt k]
  · -- below it: the flag joins the history and the ring buffer
    refine ⟨fun k => ?_, fun k => ?_, fun k => ?_, h.punished⟩ <;> by_cases hk : k = key
    · subst hk
      simp [getValidatorBehaviour, hoffset]
    · simp [getValidatorBehaviour, hk, hoff k]
    · subst hk
      simp only [Function.update_self]
      rw [hbits, hoffset, hnat, ring_append_singleton]
    · simp [hk, h.bits k]
    · subst hk
      simp [getValidatorBehaviour]
      rfl
    · simp [getValidatorBehaviour, hk, hcnt k]

/-- A call of `HandleBehaviour`. -/
structure BehaviourCall where
  behaviourKey : String
  validator : CUAddress
  height : ℕ
  normal : Bool
  deriving DecidableEq, Repr

/-- The store after some calls of `HandleBehaviour`, in order. -/
def runBehaviour (params : BehaviourParams) (s : BehaviourState) (calls : List BehaviourCall) :
    BehaviourState :=
  run (fun s c => handleBehaviour params s c.behaviourKey c.validator c.height c.normal) s calls

/-- The record after some calls, in order. -/
def BehaviourSpec.run (params : BehaviourParams) (σ : BehaviourSpec) (calls : List BehaviourCall) :
    BehaviourSpec :=
  Transition.run (fun σ c => σ.handle params c.behaviourKey c.validator c.height c.normal) σ calls

/-- **Every run of calls keeps the record**, when every behaviour name has
a positive window. -/
theorem runBehaviour_keeps {params : BehaviourParams} (hW : ∀ name, 0 < params.behaviourWindow name)
    {s : BehaviourState} {σ : BehaviourSpec} (h : Keeps params s σ) (calls : List BehaviourCall) :
    Keeps params (runBehaviour params s calls) (σ.run params calls) :=
  run_simulation (R := Keeps params) (fun _ _ c hk => hk.handle (hW c.behaviourKey) c.validator c.height c.normal)
    calls h

/-- The bits a record stores lie in its window. -/
theorem Keeps.bits_of_le {params : BehaviourParams} {s : BehaviourState} {σ : BehaviourSpec}
    (h : Keeps params s σ) (key : String × CUAddress) (hW : 0 < params.behaviourWindow key.1) {j : ℕ}
    (hj : windowOf params key.1 ≤ j) : s.bitArray key j = false := by
  have hpos : 0 < windowOf params key.1 := by simp [windowOf]; omega
  rw [h.bits key]
  apply ring_eq_default
  intro i _ heq
  have := Nat.mod_lt i hpos
  omega

/-! ## The queue of confirmed votes -/

/-- A byte of a store key. -/
abbrev Byte := Fin 256

/-- `BehaviourCountDelayBlock`. -/
def behaviourCountDelayBlock : UInt64 := 10

/-- `VoteBehaviourKey`. -/
def voteBehaviourKey : String := "Vote"

/-- `ConfirmedVoteKey`. -/
def confirmedVoteKey : List Byte := [4]

/-- **`GetConfirmedVoteKeyPrefix`**: the prefix, then the height on eight
bytes, big-endian. -/
def getConfirmedVoteKeyPrefix (height : UInt64) : List Byte :=
  confirmedVoteKey ++ BigEndian.encode 256 8 height.toNat

/-- **`DecodeConfirmedVoteKey`**: the height from the eight bytes after the
prefix, and the vote ID from the rest. -/
def decodeConfirmedVoteKey (key : List Byte) : UInt64 × List Byte :=
  (UInt64.ofNat (BigEndian.decode ((key.drop confirmedVoteKey.length).take 8)),
    key.drop (confirmedVoteKey.length + 8))

/-- `IsKeyInDomain` of the store iterators: not below the start, and below
the end if there is one. -/
def isKeyInDomain (key start : List Byte) (endKey : Option (List Byte)) : Bool :=
  !decide (key < start) && endKey.all fun e => decide (key < e)

/-- What the end-blocker reads besides its own store. -/
structure VoterEnv where
  params : BehaviourParams
  /-- the key nodes of `GetEpochByHeight` of the staking keeper -/
  keyNodeSet : UInt64 → List CUAddress
  /-- the voters of `ValidVotes` of the vote box of a vote ID -/
  validVoters : List Byte → List CUAddress

/-- **The store of the end-blocker**: the confirmed votes queued under
their keys, the behaviour records, and the votes processed so far, each
with the height of the block that processed it. -/
structure VoterState where
  confirmed : KVStore.Store (List Byte) Unit
  behaviour : BehaviourState
  processed : List (UInt64 × UInt64 × List Byte)

namespace VoterState

/-- Nothing queued or recorded. -/
def empty : VoterState := ⟨KVStore.Store.empty, BehaviourState.empty, []⟩

/-- `setConfirmedVote`. -/
def setConfirmedVote (s : VoterState) (voteID : List Byte) (height : UInt64) : VoterState :=
  { s with confirmed := s.confirmed.set (getConfirmedVoteKeyPrefix height ++ voteID) () }

end VoterState

/-- The behaviour of the epoch's key nodes on one confirmed vote: each is
normal if it is among the voters of the vote's valid votes. -/
def recordVote (env : VoterEnv) (s : VoterState) (currentHeight : UInt64) (key : List Byte) : VoterState :=
  let (height, voteID) := decodeConfirmedVoteKey key
  let validVotes := env.validVoters voteID
  let behaviour := (env.keyNodeSet height).foldl
    (fun b validator => handleBehaviour env.params b voteBehaviourKey validator height.toNat (validator ∈ validVotes))
    s.behaviour
  { s with behaviour := behaviour, processed := s.processed ++ [(currentHeight, height, voteID)] }

/-- The keys the reverse iterator of `RecordMisbehaviourVoter` visits, in
its order: from `ConfirmedVoteKey` up to the bare prefix of the height
`currentHeight - BehaviourCountDelayBlock + 1`, descending. -/
def votesToRecord (s : VoterState) (currentHeight : UInt64) : List (List Byte) :=
  ((s.confirmed.entries.filter fun e => isKeyInDomain e.1 confirmedVoteKey
      (some (getConfirmedVoteKeyPrefix (currentHeight - behaviourCountDelayBlock + 1)))).map Prod.fst).reverse

/-- **`RecordMisbehaviourVoter`**: the votes confirmed at least
`BehaviourCountDelayBlock` blocks ago are recorded, then deleted after the
iteration. -/
def recordMisbehaviourVoter (env : VoterEnv) (s : VoterState) (currentHeight : UInt64) : VoterState :=
  if currentHeight ≤ behaviourCountDelayBlock then s
  else
    let toDeleted := votesToRecord s currentHeight
    let s := toDeleted.foldl (fun s key => recordVote env s currentHeight key) s
    { s with confirmed := toDeleted.foldl (fun c key => c.delete key) s.confirmed }

/-- A block: the vote IDs that first confirm in it, in order, then the
end-blocker. -/
structure Block where
  height : UInt64
  confirmations : List (List Byte)

/-- One block. -/
def blockStep (env : VoterEnv) (s : VoterState) (b : Block) : VoterState :=
  recordMisbehaviourVoter env (b.confirmations.foldl (fun s voteID => s.setConfirmedVote voteID b.height) s)
    b.height

/-! ## Which votes the end-blocker records -/

/-- The key under which `setConfirmedVote` queues a vote ID. -/
def voteKey (height : UInt64) (voteID : List Byte) : List Byte := getConfirmedVoteKeyPrefix height ++ voteID

/-- **A vote key decodes to its height and vote ID.** -/
theorem decodeConfirmedVoteKey_voteKey (height : UInt64) (voteID : List Byte) :
    decodeConfirmedVoteKey (voteKey height voteID) = (height, voteID) := by
  have hlt : height.toNat < 256 ^ 8 := height.toNat_lt_size
  have hdrop : (voteKey height voteID).drop confirmedVoteKey.length =
      BigEndian.encode 256 8 height.toNat ++ voteID := by
    simp [voteKey, getConfirmedVoteKeyPrefix, confirmedVoteKey]
  simp only [decodeConfirmedVoteKey, ← List.drop_drop, hdrop, BigEndian.decode_take_encode_append,
    BigEndian.drop_encode_append, Nat.mod_eq_of_lt hlt, UInt64.ofNat_toNat]

theorem voteKey_injective {height height' : UInt64} {voteID voteID' : List Byte}
    (h : voteKey height voteID = voteKey height' voteID') : height = height' ∧ voteID = voteID' := by
  have hdec := congrArg decodeConfirmedVoteKey h
  rw [decodeConfirmedVoteKey_voteKey, decodeConfirmedVoteKey_voteKey, Prod.mk.injEq] at hdec
  exact hdec

/-- The end of the range, as a number: `currentHeight - 10 + 1`, without
wrapping once `currentHeight` is past `10`. -/
theorem toNat_rangeEnd {currentHeight : UInt64} (hcur : behaviourCountDelayBlock < currentHeight) :
    (currentHeight - behaviourCountDelayBlock + 1).toNat = currentHeight.toNat - 9 := by
  have hlt := currentHeight.toNat_lt_size
  have h10 : 10 < currentHeight.toNat := UInt64.lt_iff_toNat_lt.mp hcur
  have hsub : (currentHeight - behaviourCountDelayBlock).toNat = currentHeight.toNat - 10 :=
    UInt64.toNat_sub_of_le _ _ (UInt64.le_iff_toNat_le.mpr (by simp [behaviourCountDelayBlock]; omega))
  rw [UInt64.toNat_add, hsub]
  simp only [UInt64.toNat_one, UInt64.size] at hlt ⊢
  omega

/-- **The range selects the votes old enough**: after the first
`BehaviourCountDelayBlock` blocks, the key of a vote of `height` lies in
the range of `currentHeight` exactly when `height + 10 ≤ currentHeight`,
by the big-endian order of the heights. -/
theorem isKeyInDomain_voteKey {currentHeight : UInt64} (hcur : behaviourCountDelayBlock < currentHeight)
    (height : UInt64) (voteID : List Byte) :
    isKeyInDomain (voteKey height voteID) confirmedVoteKey
        (some (getConfirmedVoteKeyPrefix (currentHeight - behaviourCountDelayBlock + 1))) =
      decide (height.toNat + 10 ≤ currentHeight.toNat) := by
  have hn : height.toNat < 256 ^ 8 := height.toNat_lt_size
  have hm : (currentHeight - behaviourCountDelayBlock + 1).toNat < 256 ^ 8 := UInt64.toNat_lt_size _
  have hend := toNat_rangeEnd hcur
  have h10 : 10 < currentHeight.toNat := UInt64.lt_iff_toNat_lt.mp hcur
  have hlt : confirmedVoteKey ++ (BigEndian.encode 256 8 height.toNat ++ voteID) <
      confirmedVoteKey ++ BigEndian.encode 256 8 (currentHeight - behaviourCountDelayBlock + 1).toNat ↔
      height.toNat + 10 ≤ currentHeight.toNat := by
    rw [BigEndian.key_lt_bound_iff confirmedVoteKey voteID hn hm, hend]
    omega
  unfold isKeyInDomain voteKey getConfirmedVoteKeyPrefix
  simp only [List.append_assoc, Option.all_some, hlt, BigEndian.not_append_lt, decide_false, Bool.not_false,
    Bool.true_and]

/-- A vote of a positive height is in the range exactly when it is old
enough; before `BehaviourCountDelayBlock` the end-blocker does nothing. -/
theorem inRange_voteKey {height : UInt64} (hpos : 0 < height) (currentHeight : UInt64) (voteID : List Byte) :
    (behaviourCountDelayBlock < currentHeight ∧
        isKeyInDomain (voteKey height voteID) confirmedVoteKey
          (some (getConfirmedVoteKeyPrefix (currentHeight - behaviourCountDelayBlock + 1))) = true) ↔
      height.toNat + behaviourCountDelayBlock.toNat ≤ currentHeight.toNat := by
  have h0 : 0 < height.toNat := UInt64.lt_iff_toNat_lt.mp hpos
  have hD : behaviourCountDelayBlock.toNat = 10 := rfl
  constructor
  · rintro ⟨hcur, hin⟩
    rw [isKeyInDomain_voteKey hcur, decide_eq_true_iff] at hin
    omega
  · intro hle
    have hcur : behaviourCountDelayBlock < currentHeight := UInt64.lt_iff_toNat_lt.mpr (by omega)
    exact ⟨hcur, by rw [isKeyInDomain_voteKey hcur, decide_eq_true_iff]; omega⟩

/-! ### What each part of a block does to the queue and the record -/

section steps

variable (env : VoterEnv)

theorem setConfirmedVote_confirmed (s : VoterState) (voteID : List Byte) (height : UInt64) :
    (s.setConfirmedVote voteID height).confirmed = s.confirmed.set (voteKey height voteID) () := rfl

theorem get_foldl_setConfirmedVote (height : UInt64) (k : List Byte) :
    ∀ (voteIDs : List (List Byte)) (s : VoterState),
      (voteIDs.foldl (fun s voteID => s.setConfirmedVote voteID height) s).confirmed.get k = some () ↔
        s.confirmed.get k = some () ∨ ∃ voteID ∈ voteIDs, k = voteKey height voteID
  | [], s => by simp
  | voteID :: voteIDs, s => by
    rw [List.foldl_cons, get_foldl_setConfirmedVote height k voteIDs, setConfirmedVote_confirmed,
      KVStore.Store.get_set]
    by_cases hk : k = voteKey height voteID <;> simp [hk]

theorem processed_foldl_setConfirmedVote (height : UInt64) :
    ∀ (voteIDs : List (List Byte)) (s : VoterState),
      (voteIDs.foldl (fun s voteID => s.setConfirmedVote voteID height) s).processed = s.processed
  | [], _ => rfl
  | _ :: voteIDs, _ => processed_foldl_setConfirmedVote height voteIDs _

/-- Recording votes appends them to the record, and leaves the queue. -/
theorem foldl_recordVote (currentHeight : UInt64) :
    ∀ (keys : List (List Byte)) (s : VoterState),
      (keys.foldl (fun s key => recordVote env s currentHeight key) s).confirmed = s.confirmed ∧
        (keys.foldl (fun s key => recordVote env s currentHeight key) s).processed =
          s.processed ++ keys.map fun key => (currentHeight, decodeConfirmedVoteKey key)
  | [], s => by simp
  | key :: keys, s => by
    obtain ⟨hc, hp⟩ := foldl_recordVote currentHeight keys (recordVote env s currentHeight key)
    rw [List.foldl_cons, hc, hp]
    exact ⟨rfl, by simp [recordVote]⟩

theorem get_foldl_delete (k : List Byte) :
    ∀ (keys : List (List Byte)) (c : KVStore.Store (List Byte) Unit),
      (keys.foldl (fun c key => c.delete key) c).get k = if k ∈ keys then none else c.get k
  | [], c => by simp
  | key :: keys, c => by
    rw [List.foldl_cons, get_foldl_delete k keys]
    by_cases hk : k = key <;> simp [hk]

theorem mem_votesToRecord (s : VoterState) (currentHeight : UInt64) (k : List Byte) :
    k ∈ votesToRecord s currentHeight ↔ s.confirmed.get k = some () ∧
      isKeyInDomain k confirmedVoteKey
        (some (getConfirmedVoteKeyPrefix (currentHeight - behaviourCountDelayBlock + 1))) = true := by
  simp only [votesToRecord, List.mem_reverse, List.mem_map, List.mem_filter, Prod.exists,
    ← KVStore.Store.mem_iff_get]
  constructor
  · rintro ⟨k', u, ⟨hmem, hin⟩, rfl⟩
    exact ⟨hmem, hin⟩
  · rintro ⟨hmem, hin⟩
    exact ⟨k, (), ⟨hmem, hin⟩, rfl⟩

/-- The reverse iteration visits each key once. -/
theorem nodup_votesToRecord (s : VoterState) (currentHeight : UInt64) :
    (votesToRecord s currentHeight).Nodup := by
  have hkeys : (s.confirmed.entries.map Prod.fst).Nodup :=
    (List.pairwise_map.mpr s.confirmed.sorted).imp ne_of_lt
  exact List.nodup_reverse.mpr (hkeys.sublist (List.Sublist.map Prod.fst List.filter_sublist))

/-- **What `RecordMisbehaviourVoter` leaves queued**: what was, less the
keys of its range. -/
theorem get_recordMisbehaviourVoter (s : VoterState) (currentHeight : UInt64) (k : List Byte) :
    (recordMisbehaviourVoter env s currentHeight).confirmed.get k = some () ↔
      s.confirmed.get k = some () ∧
        ¬ (behaviourCountDelayBlock < currentHeight ∧ isKeyInDomain k confirmedVoteKey
          (some (getConfirmedVoteKeyPrefix (currentHeight - behaviourCountDelayBlock + 1))) = true) := by
  unfold recordMisbehaviourVoter
  split
  · rename_i hle
    simp [UInt64.not_lt.mpr hle]
  · rename_i hgt
    simp only [(foldl_recordVote env currentHeight _ s).1, get_foldl_delete, mem_votesToRecord]
    rw [UInt64.not_le] at hgt
    by_cases hq : s.confirmed.get k = some () <;> by_cases hin : isKeyInDomain k confirmedVoteKey
      (some (getConfirmedVoteKeyPrefix (currentHeight - behaviourCountDelayBlock + 1))) = true <;>
      simp [hq, hin, hgt]

/-- **What `RecordMisbehaviourVoter` records**: the keys of its range, in
the order of the reverse iteration. -/
theorem processed_recordMisbehaviourVoter (s : VoterState) (currentHeight : UInt64) :
    (recordMisbehaviourVoter env s currentHeight).processed = s.processed ++
      if behaviourCountDelayBlock < currentHeight then
        (votesToRecord s currentHeight).map fun key => (currentHeight, decodeConfirmedVoteKey key)
      else [] := by
  unfold recordMisbehaviourVoter
  split
  · rename_i hle
    simp [UInt64.not_lt.mpr hle]
  · rename_i hgt
    rw [UInt64.not_le] at hgt
    simp only [(foldl_recordVote env currentHeight _ s).2, if_pos hgt]

end steps

/-! ### Every confirmed vote is recorded once -/

section run

variable (env : VoterEnv)

/-- **The queue holds vote keys of some heights**, and the record only
votes of those heights. -/
structure QueueOf (heights : UInt64 → Prop) (s : VoterState) : Prop where
  keys : ∀ k, s.confirmed.get k = some () → ∃ height voteID, heights height ∧ k = voteKey height voteID
  processed : ∀ e ∈ s.processed, heights e.2.1

theorem queueOf_empty : QueueOf (fun _ => False) VoterState.empty where
  keys _ h := by simp [VoterState.empty] at h
  processed _ h := by simp [VoterState.empty] at h

theorem QueueOf.mono {heights heights' : UInt64 → Prop} {s : VoterState} (h : QueueOf heights s)
    (hle : ∀ height, heights height → heights' height) : QueueOf heights' s where
  keys k hk := by
    obtain ⟨height, voteID, hh, rfl⟩ := h.keys k hk
    exact ⟨height, voteID, hle _ hh, rfl⟩
  processed e he := hle _ (h.processed e he)

/-- A block's confirmations queue vote keys of its height. -/
theorem QueueOf.confirm {heights : UInt64 → Prop} {s : VoterState} (h : QueueOf heights s) (c : Block) :
    QueueOf (fun height => heights height ∨ height = c.height)
      (c.confirmations.foldl (fun s voteID => s.setConfirmedVote voteID c.height) s) where
  keys k hk := by
    rw [get_foldl_setConfirmedVote] at hk
    rcases hk with hq | ⟨voteID, -, rfl⟩
    · obtain ⟨height, voteID, hh, rfl⟩ := h.keys k hq
      exact ⟨height, voteID, .inl hh, rfl⟩
    · exact ⟨c.height, voteID, .inr rfl, rfl⟩
  processed e he := by
    rw [processed_foldl_setConfirmedVote] at he
    exact .inl (h.processed e he)

/-- The end-blocker records only votes of the keys queued. -/
theorem QueueOf.record {heights : UInt64 → Prop} {s : VoterState} (h : QueueOf heights s)
    (currentHeight : UInt64) : QueueOf heights (recordMisbehaviourVoter env s currentHeight) where
  keys k hk := h.keys k ((get_recordMisbehaviourVoter env s currentHeight k).mp hk).1
  processed e he := by
    rw [processed_recordMisbehaviourVoter, List.mem_append] at he
    rcases he with he | he
    · exact h.processed e he
    · split at he
      · obtain ⟨k, hk, rfl⟩ := List.mem_map.mp he
        obtain ⟨height, voteID, hh, rfl⟩ := h.keys k ((mem_votesToRecord _ _ _).mp hk).1
        simpa [decodeConfirmedVoteKey_voteKey] using hh
      · cases he

theorem QueueOf.steps {heights : UInt64 → Prop} :
    ∀ {s : VoterState} (bs : List Block), QueueOf heights s →
      QueueOf (fun height => heights height ∨ ∃ c ∈ bs, height = c.height) (run (blockStep env) s bs)
  | _, [], h => h.mono fun _ hh => .inl hh
  | _, c :: bs, h => by
    rw [run_cons]
    refine (QueueOf.steps bs ((h.confirm c).record env c.height)).mono ?_
    rintro height ((hh | rfl) | ⟨c', hc', rfl⟩)
    · exact .inl hh
    · exact .inr ⟨c, List.mem_cons_self, rfl⟩
    · exact .inr ⟨c', List.mem_cons_of_mem c hc', rfl⟩

/-- The votes of a list of vote keys visited once each, told apart by
their decoded height and vote ID. -/
theorem filter_map_decode {keys : List (List Byte)} (hnd : keys.Nodup)
    (hkeys : ∀ k ∈ keys, ∃ height voteID, k = voteKey height voteID) (currentHeight height : UInt64)
    (voteID : List Byte) :
    (keys.map fun k => (currentHeight, decodeConfirmedVoteKey k)).filter (fun e => e.2 = (height, voteID)) =
      if voteKey height voteID ∈ keys then [(currentHeight, height, voteID)] else [] := by
  have hsame : keys.filter (fun k => decodeConfirmedVoteKey k = (height, voteID)) =
      keys.filter (· = voteKey height voteID) := by
    apply List.filter_congr
    intro k hk
    obtain ⟨height', voteID', rfl⟩ := hkeys k hk
    rw [decodeConfirmedVoteKey_voteKey]
    by_cases hk' : voteKey height' voteID' = voteKey height voteID
    · obtain ⟨rfl, rfl⟩ := voteKey_injective hk'
      simp
    · simp only [hk', decide_false, decide_eq_false_iff_not, Prod.mk.injEq]
      rintro ⟨rfl, rfl⟩
      exact hk' rfl
  rw [List.filter_map]
  simp only [Function.comp_def]
  rw [hsame, List.filter_eq]
  split
  · rename_i hmem
    rw [List.count_eq_one_of_mem hnd hmem, List.replicate_one]
    simp [decodeConfirmedVoteKey_voteKey]
  · rename_i hmem
    rw [List.count_eq_zero_of_not_mem hmem]
    rfl

/-- **What one block records of a vote**: the vote, once, if its key is
queued after the block's confirmations and lies in the block's range. -/
theorem blockStep_processed_filter {s : VoterState} (hs : QueueOf (fun _ => True) s) (c : Block)
    (height : UInt64) (voteID : List Byte) :
    (blockStep env s c).processed.filter (fun e => e.2 = (height, voteID)) =
      s.processed.filter (fun e => e.2 = (height, voteID)) ++
        if (c.confirmations.foldl (fun s voteID => s.setConfirmedVote voteID c.height) s).confirmed.get
              (voteKey height voteID) = some () ∧
            (behaviourCountDelayBlock < c.height ∧ isKeyInDomain (voteKey height voteID) confirmedVoteKey
              (some (getConfirmedVoteKeyPrefix (c.height - behaviourCountDelayBlock + 1))) = true) then
          [(c.height, height, voteID)]
        else [] := by
  rw [blockStep, processed_recordMisbehaviourVoter, processed_foldl_setConfirmedVote, List.filter_append]
  congr 1
  split
  · rename_i hcur
    -- the keys the block records are vote keys, each once
    have hkeys : ∀ k ∈ votesToRecord (c.confirmations.foldl
        (fun s voteID => s.setConfirmedVote voteID c.height) s) c.height,
        ∃ height voteID, k = voteKey height voteID := by
      intro k hk
      obtain ⟨height', voteID', -, rfl⟩ := (hs.confirm c).keys k ((mem_votesToRecord _ _ _).mp hk).1
      exact ⟨height', voteID', rfl⟩
    rw [filter_map_decode (nodup_votesToRecord _ _) hkeys]
    simp only [mem_votesToRecord, hcur, true_and]
  · rename_i hcur
    simp [hcur]

/-- **The block of a vote's confirmation** queues it, and does not record
it yet. -/
theorem blockStep_confirming {s : VoterState} (hs : QueueOf (fun _ => True) s) {c : Block}
    (hpos : 0 < c.height) {voteID : List Byte} (hv : voteID ∈ c.confirmations) :
    (blockStep env s c).confirmed.get (voteKey c.height voteID) = some () ∧
      (blockStep env s c).processed.filter (fun e => e.2 = (c.height, voteID)) =
        s.processed.filter (fun e => e.2 = (c.height, voteID)) := by
  have hqueued : (c.confirmations.foldl (fun s voteID => s.setConfirmedVote voteID c.height) s).confirmed.get
      (voteKey c.height voteID) = some () := (get_foldl_setConfirmedVote _ _ _ _).mpr (.inr ⟨voteID, hv, rfl⟩)
  -- a vote is not old enough in its own block
  have hyoung : ¬ (behaviourCountDelayBlock < c.height ∧ isKeyInDomain (voteKey c.height voteID)
      confirmedVoteKey (some (getConfirmedVoteKeyPrefix (c.height - behaviourCountDelayBlock + 1))) = true) := by
    rw [inRange_voteKey hpos]
    simp [behaviourCountDelayBlock]
  refine ⟨by rw [blockStep, get_recordMisbehaviourVoter]; exact ⟨hqueued, hyoung⟩, ?_⟩
  rw [blockStep_processed_filter env hs, if_neg (fun h => hyoung h.2), List.append_nil]

/-- **One block later than a vote**: the vote is recorded there if it is
queued and old enough, and leaves the queue then. -/
theorem blockStep_later {height : UInt64} (hpos : 0 < height) (voteID : List Byte) {s : VoterState}
    (hs : QueueOf (fun _ => True) s) {c : Block} (hc : height < c.height) :
    ((blockStep env s c).confirmed.get (voteKey height voteID) = some () ↔
        s.confirmed.get (voteKey height voteID) = some () ∧
          ¬ height.toNat + behaviourCountDelayBlock.toNat ≤ c.height.toNat) ∧
      (blockStep env s c).processed.filter (fun e => e.2 = (height, voteID)) =
        s.processed.filter (fun e => e.2 = (height, voteID)) ++
          if s.confirmed.get (voteKey height voteID) = some () ∧
              height.toNat + behaviourCountDelayBlock.toNat ≤ c.height.toNat then
            [(c.height, height, voteID)]
          else [] := by
  -- the block's own confirmations are of its height, not the vote's
  have hown : ∀ voteID' ∈ c.confirmations, voteKey height voteID ≠ voteKey c.height voteID' := by
    intro voteID' _ heq
    rw [(voteKey_injective heq).1] at hc
    exact UInt64.lt_irrefl _ hc
  have hqueued : (c.confirmations.foldl (fun s voteID => s.setConfirmedVote voteID c.height) s).confirmed.get
      (voteKey height voteID) = some () ↔ s.confirmed.get (voteKey height voteID) = some () := by
    rw [get_foldl_setConfirmedVote]
    exact ⟨fun h => h.resolve_right fun ⟨voteID', hmem, heq⟩ => hown voteID' hmem heq, .inl⟩
  have hrange := inRange_voteKey hpos c.height voteID
  refine ⟨by rw [blockStep, get_recordMisbehaviourVoter, hqueued, hrange], ?_⟩
  rw [blockStep_processed_filter env hs]
  simp only [hqueued, hrange]

/-- **Over later blocks, a queued vote is recorded once**, at the first of
them old enough for it; a vote not queued is not recorded. -/
theorem processed_run_later {height : UInt64} (hpos : 0 < height) (voteID : List Byte) :
    ∀ (bs : List Block) {s : VoterState}, QueueOf (fun _ => True) s → (∀ c ∈ bs, height < c.height) →
      (run (blockStep env) s bs).processed.filter (fun e => e.2 = (height, voteID)) =
        s.processed.filter (fun e => e.2 = (height, voteID)) ++
          if s.confirmed.get (voteKey height voteID) = some () then
            ((bs.find? fun c => height.toNat + behaviourCountDelayBlock.toNat ≤ c.height.toNat).map
              fun c => (c.height, height, voteID)).toList
          else []
  | [], s, _, _ => by simp
  | c :: bs, s, hs, hlater => by
    obtain ⟨hqueued, hrecorded⟩ := blockStep_later env hpos voteID hs (hlater c List.mem_cons_self)
    have hs' : QueueOf (fun _ => True) (blockStep env s c) := ((hs.confirm c).record env c.height).mono fun _ _ => trivial
    rw [run_cons, processed_run_later hpos voteID bs hs' fun c' hc' => hlater c' (List.mem_cons_of_mem c hc'), hrecorded,
      List.append_assoc]
    congr 1
    -- queued and old enough, queued and not yet, or not queued
    by_cases hq : s.confirmed.get (voteKey height voteID) = some ()
    · by_cases hold : height.toNat + behaviourCountDelayBlock.toNat ≤ c.height.toNat
      · have hgone : ¬ (blockStep env s c).confirmed.get (voteKey height voteID) = some () :=
          fun h => (hqueued.mp h).2 hold
        simp [hq, hold, hgone, List.find?_cons_of_pos]
      · have hstays : (blockStep env s c).confirmed.get (voteKey height voteID) = some () :=
          hqueued.mpr ⟨hq, hold⟩
        simp [hq, hold, hstays, List.find?_cons_of_neg]
    · have hgone : ¬ (blockStep env s c).confirmed.get (voteKey height voteID) = some () :=
        fun h => hq (hqueued.mp h).1
      simp [hq, hgone]

end run

/-- **Every confirmed vote is recorded exactly once**, by the end-blocker
of the first block whose height is at least its height plus
`BehaviourCountDelayBlock`, and never if the run has no such block: over
any run of blocks of increasing heights from an empty queue, for a vote ID
that first confirms in a block of positive height. -/
theorem confirmedVote_recorded_once (env : VoterEnv) {blocks : List Block}
    (hinc : blocks.Pairwise fun b c => b.height < c.height) {b : Block} (hb : b ∈ blocks)
    (hpos : 0 < b.height) {voteID : List Byte} (hv : voteID ∈ b.confirmations) :
    (run (blockStep env) VoterState.empty blocks).processed.filter (fun e => e.2 = (b.height, voteID)) =
      ((blocks.find? fun c => b.height.toNat + behaviourCountDelayBlock.toNat ≤ c.height.toNat).map
        fun c => (c.height, b.height, voteID)).toList := by
  obtain ⟨l₁, l₂, rfl⟩ := List.append_of_mem hb
  rw [List.pairwise_append, List.pairwise_cons] at hinc
  obtain ⟨-, ⟨hlater, -⟩, hbefore⟩ := hinc
  have hearlier : ∀ c ∈ l₁, c.height.toNat < b.height.toNat :=
    fun c hc => UInt64.lt_iff_toNat_lt.mp (hbefore c hc b List.mem_cons_self)
  -- before the vote's block its key is not queued, and nothing of it is recorded
  have hq₁ := queueOf_empty.steps env l₁
  have hnot : ¬ (run (blockStep env) VoterState.empty l₁).confirmed.get (voteKey b.height voteID) = some () := by
    intro hk
    obtain ⟨height, voteID', hheight, heq⟩ := hq₁.keys _ hk
    obtain ⟨c, hc, rfl⟩ := hheight.resolve_left id
    have := hearlier c hc
    rw [(voteKey_injective heq).1] at this
    exact lt_irrefl _ this
  have hnone : (run (blockStep env) VoterState.empty l₁).processed.filter
      (fun e => e.2 = (b.height, voteID)) = [] := by
    rw [List.filter_eq_nil_iff]
    intro e he
    obtain ⟨c, hc, hce⟩ := (hq₁.processed e he).resolve_left id
    have := hearlier c hc
    simp only [decide_eq_true_eq]
    intro heq
    rw [heq] at hce
    rw [← hce] at this
    exact lt_irrefl _ this
  have hq₁' := hq₁.mono fun _ _ => trivial
  obtain ⟨hqueued, hsame⟩ := blockStep_confirming env hq₁' hpos hv
  have hq₂ : QueueOf (fun _ => True) (blockStep env (run (blockStep env) VoterState.empty l₁) b) :=
    ((hq₁'.confirm b).record env b.height).mono fun _ _ => trivial
  -- no block up to the vote's own is old enough for it
  have hfind : (l₁.find? fun c => b.height.toNat + behaviourCountDelayBlock.toNat ≤ c.height.toNat) = none :=
    List.find?_eq_none.mpr fun c hc => by have := hearlier c hc; simp; omega
  rw [run_append, run_cons, processed_run_later env hpos voteID l₂ hq₂ hlater, hsame, hnone, if_pos hqueued,
    List.nil_append, List.find?_append, hfind, Option.none_or,
    List.find?_cons_of_neg (by simp [behaviourCountDelayBlock])]

/-- `DefaultBehaviourParams`: a window of `30000` calls, at most `20000`
misbehaviours, a slash of `1%`. -/
def defaultBehaviourParams : BehaviourParams := ⟨fun _ => 30000, fun _ => 20000, fun _ => Dec.withPrec 1 2⟩

/-- **The misbehaviour record and the vote queue.** For parameters of
positive windows, after any run of `HandleBehaviour` calls from an empty
store, the offset of each behaviour name and validator counts its calls
since its last punishment, the counter is the number of misbehaviours
among the last `min(offset, W)` of them, which is the number of marked
bits, no bit beyond the window is marked, and the punishments are those
of the calls at which that number exceeds the maximum. And over any run
of blocks of increasing heights, each vote confirmed in a block of
positive height is recorded once, by the first block at least
`BehaviourCountDelayBlock` higher, or never if there is none. -/
theorem misbehaviour_window_and_vote_queue (params : BehaviourParams)
    (hW : ∀ name, 0 < params.behaviourWindow name) (calls : List BehaviourCall) (env : VoterEnv)
    {blocks : List Block} (hinc : blocks.Pairwise fun b c => b.height < c.height) :
    (let s := runBehaviour params BehaviourState.empty calls
     let σ := BehaviourSpec.empty.run params calls
     (∀ key, (s.getValidatorBehaviour key).indexOffset = (σ.history key).length ∧
        (s.getValidatorBehaviour key).misbehaviourCounter =
          ((window (windowOf params key.1) (σ.history key)).count true : ℤ) ∧
        (window (windowOf params key.1) (σ.history key)).count true =
          marked (windowOf params key.1) (s.bitArray key) ∧
        ∀ j, windowOf params key.1 ≤ j → s.bitArray key j = false) ∧
      s.punished = σ.punished) ∧
    ∀ b ∈ blocks, 0 < b.height → ∀ voteID ∈ b.confirmations,
      (run (blockStep env) VoterState.empty blocks).processed.filter (fun e => e.2 = (b.height, voteID)) =
        ((blocks.find? fun c => b.height.toNat + behaviourCountDelayBlock.toNat ≤ c.height.toNat).map
          fun c => (c.height, b.height, voteID)).toList := by
  have hk := runBehaviour_keeps hW (keeps_empty params) calls
  refine ⟨⟨fun key => ⟨hk.offset key, hk.counter key, ?_, fun j hj => hk.bits_of_le key (hW key.1) hj⟩,
    hk.punished⟩, fun b hb hpos voteID hv => confirmedVote_recorded_once env hinc hb hpos hv⟩
  have hpos : 0 < windowOf params key.1 := by have := hW key.1; simp [windowOf]; omega
  rw [hk.bits key, marked_ring hpos]

/-- Under the default parameters, a vote confirmed at height `1` is
recorded by the block at height `11`. -/
theorem vote_recorded_after_delay :
    (∀ name, 0 < defaultBehaviourParams.behaviourWindow name) ∧
      [(⟨1, [[7]]⟩ : Block), ⟨5, []⟩, ⟨11, []⟩].Pairwise (fun b c => b.height < c.height) ∧
      (run (blockStep ⟨defaultBehaviourParams, fun _ => [], fun _ => []⟩) VoterState.empty
          [⟨1, [[7]]⟩, ⟨5, []⟩, ⟨11, []⟩]).processed.filter (fun e => e.2 = (1, [7])) = [(11, 1, [7])] := by
  have hW : ∀ name, 0 < defaultBehaviourParams.behaviourWindow name := fun _ => by
    simp [defaultBehaviourParams]
  have hinc : [(⟨1, [[7]]⟩ : Block), ⟨5, []⟩, ⟨11, []⟩].Pairwise (fun b c => b.height < c.height) := by decide
  refine ⟨hW, hinc, ?_⟩
  rw [(misbehaviour_window_and_vote_queue defaultBehaviourParams hW []
    ⟨defaultBehaviourParams, fun _ => [], fun _ => []⟩ hinc).2 ⟨1, [[7]]⟩ (by simp) (by decide) [7] (by simp)]
  decide

end Evidence
