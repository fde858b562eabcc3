import Mathlib.Algebra.Order.Archimedean.Real.Basic
import Mathlib.Tactic.Linarith
import Bhchain.Evidence.Keeper
import Bhchain.Lib.Median
import Bhchain.Transfer.Balance
import Bhchain.Types.Dec
import Bhchain.Types.Token

/-!
# Gas price consensus (`x/token`)

Key nodes report the gas price of the external chains with `SynGasPrice`.
The reports on one chain within a bucket of ten blocks are ballots of one
`GasPriceVoteBox`. The box confirms as soon as it holds the threshold of
ballots *and* the threshold of them lie within `[0.9, 1.2]` times the
median of all its ballots; `updateGasPrice` then writes the integer
average of those ballots into every token of the chain.

The median is what makes this robust. When more than half of the ballots
lie in an interval `[lo, hi]`, both middles of the sorted ballots lie in
it, hence so does the median, and every ballot kept is within `[0.9, 1.2]`
times it: the price written lies in `[0.9 · lo, 1.2 · hi]`, whatever the
other voters sent (`gasPrice_consensus`). Two details of the source do
not disturb this: the bounds are decimals, but a whole number times `0.9`
or `1.2` is exact, so the test is `9 · m ≤ 10 · p ≤ 12 · m` on integers
(`withinLimits_iff`); and `IntMedian` sorts the price slice in place
before the filter runs over it, which reorders the prices but does not
change how many of them pass.
-/

namespace Sdk

/-- **`IntMedian`** (`types/int.go`): sort, then take the middle element of
an odd list, and the sum of the two middle elements halved by `Quo`
(toward zero) of an even one. The source asks for a nonempty list; on the
empty one, where it panics, the model returns `0`. -/
def intMedian (ints : List ℤ) : ℤ :=
  let sorted := ints.insertionSort (· ≤ ·)
  let half := sorted.length / 2
  if sorted.length % 2 = 1 then sorted.getD half 0
  else (sorted.getD (half - 1) 0 + sorted.getD half 0).tdiv 2

/-- **The median lies in every interval that holds more than half of the
list.** -/
theorem intMedian_mem_of_majority {ints : List ℤ} {lo hi : ℤ}
    (h : ints.length < 2 * ints.countP (fun x => decide (lo ≤ x ∧ x ≤ hi))) :
    lo ≤ intMedian ints ∧ intMedian ints ≤ hi := by
  set sorted := ints.insertionSort (· ≤ ·) with hsorted
  have hperm : sorted.Perm ints := List.perm_insertionSort _ ints
  have hpair : sorted.Pairwise (· ≤ ·) := List.pairwise_insertionSort _ ints
  rw [← hperm.length_eq, ← hperm.countP_eq] at h
  obtain ⟨hlo', hhi', hlow, hhigh⟩ := List.middles_mem_of_majority hpair h
  -- the lower middle is at most the upper one
  have hmid : sorted[(sorted.length - 1) / 2] ≤ sorted[sorted.length / 2] := by
    rcases Nat.lt_or_eq_of_le (Nat.div_le_div_right (c := 2) (Nat.sub_le sorted.length 1)) with
      hlt | heq
    · exact List.pairwise_iff_getElem.mp hpair _ _ hlo' hhi' hlt
    · simp only [heq, le_refl]
  unfold intMedian
  rw [← hsorted]
  dsimp only
  split
  · -- odd: the two middles are one element
    have hodd : (sorted.length - 1) / 2 = sorted.length / 2 := by omega
    rw [List.getD_eq_getElem?_getD, List.getElem?_eq_getElem hhi', Option.getD_some]
    simp only [hodd] at hlow
    exact ⟨hlow, hhigh⟩
  · have heven : sorted.length / 2 - 1 = (sorted.length - 1) / 2 := by omega
    simp only [heven, List.getD_eq_getElem?_getD, List.getElem?_eq_getElem hlo',
      List.getElem?_eq_getElem hhi', Option.getD_some]
    obtain ⟨hge, hle⟩ := Int.le_add_tdiv_two_le hmid
    exact ⟨le_trans hlow hge, le_trans hle hhigh⟩

/-- The same for a real interval: the integers in it are those between its
rounded ends. -/
theorem intMedian_mem_of_majority_real {ints : List ℤ} {lo hi : ℝ}
    (h : ints.length < 2 * ints.countP (fun x : ℤ => decide (lo ≤ (x : ℝ) ∧ (x : ℝ) ≤ hi))) :
    lo ≤ intMedian ints ∧ (intMedian ints : ℝ) ≤ hi := by
  have hround : ints.countP (fun x : ℤ => decide (lo ≤ (x : ℝ) ∧ (x : ℝ) ≤ hi)) =
      ints.countP (fun x => decide (⌈lo⌉ ≤ x ∧ x ≤ ⌊hi⌋)) :=
    List.countP_congr (fun x _ => by simp [Int.ceil_le, Int.le_floor])
  rw [hround] at h
  obtain ⟨hlo, hhi⟩ := intMedian_mem_of_majority h
  exact ⟨Int.ceil_le.mp hlo, Int.le_floor.mp hhi⟩

end Sdk

namespace Token

open Sdk Evidence Transfer Transition

variable {A : Type}

/-- `priceUpLimitRatio`: `1.2`. -/
def priceUpLimitRatio : Dec := Dec.withPrec 12 1

/-- `priceLowLimitRatio`: `0.9`. -/
def priceLowLimitRatio : Dec := Dec.withPrec 9 1

/-- The test that `AddVote` and `ValidVotes` both make of a price: between
`0.9` and `1.2` times the median, compared as decimals. -/
def withinLimits (median price : ℤ) : Bool :=
  let priceUpLimit := (Dec.ofInt median).mul priceUpLimitRatio
  let priceLowLimit := (Dec.ofInt median).mul priceLowLimitRatio
  let gasPrice := Dec.ofInt price
  gasPrice.lte priceUpLimit && gasPrice.gte priceLowLimit

/-- **The decimal limits are exact**: the test is `9 · median ≤ 10 · price
≤ 12 · median` on integers. -/
theorem withinLimits_iff {median price : ℤ} :
    withinLimits median price = true ↔ 9 * median ≤ 10 * price ∧ 10 * price ≤ 12 * median := by
  unfold withinLimits
  rw [Dec.ofInt_mul, Dec.ofInt_mul]
  simp only [Dec.lte, Dec.gte, Dec.ofInt, priceUpLimitRatio, priceLowLimitRatio, Dec.withPrec,
    precisionInt, precision, Bool.and_eq_true]
  norm_num
  omega

/-- **`GasPriceVoteBox`** (`x/token/types/vote.go`). A `GasPriceVoteItem`
is a ballot whose vote is the price. -/
structure GasPriceVoteBox (A : Type) where
  confirmThreshold : ℕ
  voteItems : List (VoteItem A ℤ)
  confirmed : Bool
  confirmedMedian : ℤ

namespace GasPriceVoteBox

variable [DecidableEq A]

/-- `NewGasPriceVoteBox`. -/
def newGasPriceVoteBox (confirmThreshold : ℕ) : GasPriceVoteBox A :=
  ⟨confirmThreshold, [], false, 0⟩

/-- **`GasPriceVoteBox.AddVote`**: the ballot update of the default box;
then, on an unconfirmed box of at least the threshold of ballots, the
median of all prices, and a confirmation if at least the threshold of
prices lie within its limits. -/
def addVote (box : GasPriceVoteBox A) (voter : A) (price : ℤ) : Bool × GasPriceVoteBox A :=
  let box₁ := { box with voteItems := setVote box.confirmed voter price box.voteItems }
  if box.confirmed || decide (box₁.voteItems.length < box.confirmThreshold) then (false, box₁)
  else
    let gasPrices := box₁.voteItems.map VoteItem.vote
    let medianGasPrice := intMedian gasPrices
    -- `IntMedian` has sorted `gasPrices` in place: the filter runs over the sorted slice
    let newGasPrices := (gasPrices.insertionSort (· ≤ ·)).filter (withinLimits medianGasPrice)
    if newGasPrices.length < box.confirmThreshold then (false, box₁)
    else (true, { box₁ with confirmed := true, confirmedMedian := medianGasPrice })

/-- **`GasPriceVoteBox.ValidVotes`**: once confirmed, the ballots within the
limits of the confirmed median. -/
def validVotes (box : GasPriceVoteBox A) : List (VoteItem A ℤ) :=
  if box.confirmed then box.voteItems.filter (fun item => withinLimits box.confirmedMedian item.vote)
  else []

/-- The gas price box as a box kind. -/
def kind : BoxKind (GasPriceVoteBox A) A ℤ := ⟨addVote, GasPriceVoteBox.confirmed, validVotes⟩

/-- **What a confirming ballot did**: the box was not confirmed, at least
the threshold of ballots lie within the limits of the median of all of
them, and the box is now confirmed with that median. -/
theorem addVote_eq_true {box : GasPriceVoteBox A} {voter : A} {price : ℤ}
    (h : (box.addVote voter price).1 = true) :
    let items := setVote false voter price box.voteItems
    let median := intMedian (items.map VoteItem.vote)
    box.confirmed = false ∧
      box.confirmThreshold ≤ (items.filter (fun item => withinLimits median item.vote)).length ∧
      (box.addVote voter price).2 = ⟨box.confirmThreshold, items, true, median⟩ := by
  intro items median
  unfold addVote at h ⊢
  dsimp only at h ⊢
  split at h
  · cases h
  · rename_i hopen
    rw [if_neg hopen]
    have hconf : box.confirmed = false := by
      simp only [Bool.or_eq_true, decide_eq_true_eq, not_or] at hopen
      simpa using hopen.1
    split at h
    · cases h
    · rename_i hcount
      rw [if_neg hcount]
      rw [hconf] at hcount ⊢
      refine ⟨rfl, ?_, rfl⟩
      -- the sorted prices pass the test as often as the ballots do
      have hsame : ((items.map VoteItem.vote).insertionSort (· ≤ ·)).countP (withinLimits median) =
          items.countP (fun item => withinLimits median item.vote) := by
        rw [(List.perm_insertionSort _ _).countP_eq, List.countP_map]
        rfl
      rw [← List.countP_eq_length_filter, ← hsame, List.countP_eq_length_filter]
      exact not_lt.mp hcount

@[simp] theorem confirmThreshold_addVote (box : GasPriceVoteBox A) (voter : A) (price : ℤ) :
    (box.addVote voter price).2.confirmThreshold = box.confirmThreshold := by
  unfold addVote
  dsimp only
  split
  · rfl
  · split <;> rfl

/-- A run of ballots keeps the threshold the box was made with. -/
theorem confirmThreshold_addVotes (box : GasPriceVoteBox A) (calls : List (A × ℤ)) :
    (kind.addVotes box calls).confirmThreshold = box.confirmThreshold := by
  induction calls generalizing box with
  | nil => rfl
  | cons c cs ih =>
    rw [BoxKind.addVotes_cons, ih]
    exact confirmThreshold_addVote box c.1 c.2

/-- **The valid votes of a confirming ballot** are the ballots within
`[0.9, 1.2]` times the median of all of them, and there are at least the
threshold of them. -/
theorem validVotes_addVote_eq_true {box : GasPriceVoteBox A} {voter : A} {price : ℤ}
    (h : (box.addVote voter price).1 = true) :
    let box' := (box.addVote voter price).2
    let median := intMedian (box'.voteItems.map VoteItem.vote)
    box'.validVotes = box'.voteItems.filter
        (fun item => 9 * median ≤ 10 * item.vote ∧ 10 * item.vote ≤ 12 * median) ∧
      box.confirmThreshold ≤ box'.validVotes.length := by
  intro box' median
  obtain ⟨-, hcount, hbox'⟩ := addVote_eq_true h
  -- the valid votes are the filter by the decimal test, which is the integer one
  have hvalid : box'.validVotes = box'.voteItems.filter
      (fun item => 9 * median ≤ 10 * item.vote ∧ 10 * item.vote ≤ 12 * median) := by
    simp only [box', median, hbox', validVotes, if_pos]
    exact List.filter_congr (fun item _ => by rw [Bool.eq_iff_iff, withinLimits_iff]; simp)
  refine ⟨hvalid, ?_⟩
  simp only [box', hbox', validVotes, if_pos]
  exact hcount

theorem lawful_kind : (kind : BoxKind (GasPriceVoteBox A) A ℤ).Lawful where
  confirmed_of_first box voter price h := by
    simp only [kind] at h ⊢
    rw [(addVote_eq_true h).2.2]
  of_confirmed box voter price hc := by
    simp only [kind] at hc
    simp [kind, addVote, hc]

end GasPriceVoteBox

/-- **`Keeper.updateGasPrice`**: the integer average of the valid votes,
truncated by `QuoRaw`, becomes the gas price of every token of the chain;
without a valid vote nothing changes. -/
def updateGasPrice (tokens : Denom → Option IBCToken) (chain : Denom)
    (validVotes : List (VoteItem A ℤ)) : Denom → Option IBCToken :=
  let totalGasFee := (validVotes.map VoteItem.vote).sum
  let count := validVotes.length
  if 0 < count then
    let averageGasPrice := totalGasFee.tdiv count
    fun symbol => (tokens symbol).map fun tokenInfo =>
      if tokenInfo.chain = chain then { tokenInfo with gasPrice := averageGasPrice } else tokenInfo
  else tokens

/-- What `updateGasPrice` leaves under each symbol. -/
theorem updateGasPrice_apply (tokens : Denom → Option IBCToken) (chain : Denom)
    (validVotes : List (VoteItem A ℤ)) (symbol : Denom) :
    updateGasPrice tokens chain validVotes symbol = (tokens symbol).map fun tokenInfo =>
      if tokenInfo.chain = chain ∧ validVotes ≠ [] then
        { tokenInfo with gasPrice := (validVotes.map VoteItem.vote).sum.tdiv validVotes.length }
      else tokenInfo := by
  unfold updateGasPrice
  dsimp only
  split
  · rename_i hpos
    have hne : validVotes ≠ [] := List.ne_nil_of_length_pos hpos
    simp [hne]
  · rename_i hzero
    have hnil : validVotes = [] := List.eq_nil_of_length_eq_zero (by omega)
    simp [hnil]

/-- **The average of prices within the limits of a median is within
them**: truncation toward zero never leaves `[0.9, 1.2]` times the median,
because every price is a whole number at least `⌈0.9 · median⌉`. -/
theorem average_mem_limits {validVotes : List (VoteItem A ℤ)} (hne : validVotes ≠ []) {median : ℤ}
    (hmem : ∀ item ∈ validVotes, 9 * median ≤ 10 * item.vote ∧ 10 * item.vote ≤ 12 * median) :
    let average := (validVotes.map VoteItem.vote).sum.tdiv validVotes.length
    9 * median ≤ 10 * average ∧ 10 * average ≤ 12 * median := by
  intro average
  -- some price is within the limits, so the median is not negative
  obtain ⟨item, hitem⟩ := List.exists_mem_of_ne_nil _ hne
  have hmed : 0 ≤ median := by
    have := hmem item hitem
    omega
  have hbounds : ∀ x ∈ validVotes.map VoteItem.vote, (9 * median + 9) / 10 ≤ x ∧ x ≤ 12 * median / 10 := by
    intro x hx
    obtain ⟨item, hitem, rfl⟩ := List.mem_map.mp hx
    have := hmem item hitem
    omega
  have havg := Int.le_sum_tdiv_length_le (fun hnil => hne (List.map_eq_nil_iff.mp hnil)) (by omega) hbounds
  rw [List.length_map] at havg
  omega

/-- **A confirmed price is robust**: when more than half of the ballots of
a confirming box lie in `[lo, hi]` and some ballot is valid, the average of
the valid ones lies in `[0.9 · lo, 1.2 · hi]`. -/
theorem average_mem_of_majority [DecidableEq A] {box : GasPriceVoteBox A} {voter : A} {price : ℤ}
    (h : (box.addVote voter price).1 = true) {lo hi : ℝ}
    (hmaj : (box.addVote voter price).2.voteItems.length < 2 * (box.addVote voter price).2.voteItems.countP
      (fun item => decide (lo ≤ (item.vote : ℝ) ∧ (item.vote : ℝ) ≤ hi)))
    (hne : (box.addVote voter price).2.validVotes ≠ []) :
    let validVotes := (box.addVote voter price).2.validVotes
    let average := (validVotes.map VoteItem.vote).sum.tdiv validVotes.length
    9 / 10 * lo ≤ (average : ℝ) ∧ (average : ℝ) ≤ 12 / 10 * hi := by
  intro validVotes average
  obtain ⟨hvalid, -⟩ := GasPriceVoteBox.validVotes_addVote_eq_true h
  set median := intMedian ((box.addVote voter price).2.voteItems.map VoteItem.vote)
  -- the majority holds the median
  have hmed : lo ≤ median ∧ (median : ℝ) ≤ hi := by
    apply intMedian_mem_of_majority_real
    rw [List.length_map, List.countP_map]
    exact hmaj
  -- every valid price is within the limits of the median
  have hmem : ∀ item ∈ validVotes, 9 * median ≤ 10 * item.vote ∧ 10 * item.vote ≤ 12 * median := by
    intro item hitem
    have hkept : item ∈ (box.addVote voter price).2.validVotes := hitem
    rw [hvalid] at hkept
    simpa using (List.mem_filter.mp hkept).2
  obtain ⟨hlow, hhigh⟩ := average_mem_limits hne hmem
  have hlow' : (9 : ℝ) * median ≤ 10 * average := by exact_mod_cast hlow
  have hhigh' : (10 : ℝ) * average ≤ 12 * median := by exact_mod_cast hhigh
  constructor <;> linarith [hmed.1, hmed.2]

/-- **Robust gas price consensus.** Over any run of ballots on a gas price
box of threshold `t`, a ballot that confirms the box is the first to do
so; the valid votes are then exactly the ballots within `[0.9, 1.2]` times
the median of all ballots, at least `t` of them; `updateGasPrice` writes
their integer average into every token of the chain (nothing, without a
valid vote); and if more than half of the ballots lie in `[lo, hi]`, that
average lies in `[0.9 · lo, 1.2 · hi]`, whatever the other ballots are. -/
theorem gasPrice_consensus [DecidableEq A] (t : ℕ) (pre : List (A × ℤ)) (voter : A) (price : ℤ)
    (h : ((GasPriceVoteBox.kind.addVotes (GasPriceVoteBox.newGasPriceVoteBox t) pre).addVote
      voter price).1 = true) :
    let box := ((GasPriceVoteBox.kind.addVotes (GasPriceVoteBox.newGasPriceVoteBox t) pre).addVote
      voter price).2
    let median := intMedian (box.voteItems.map VoteItem.vote)
    let average := (box.validVotes.map VoteItem.vote).sum.tdiv box.validVotes.length
    true ∉ GasPriceVoteBox.kind.addVoteFlags (GasPriceVoteBox.newGasPriceVoteBox t) pre ∧
      box.validVotes = box.voteItems.filter
        (fun item => 9 * median ≤ 10 * item.vote ∧ 10 * item.vote ≤ 12 * median) ∧
      t ≤ box.validVotes.length ∧
      (∀ tokens chain symbol, updateGasPrice tokens chain box.validVotes symbol =
        (tokens symbol).map fun tokenInfo =>
          if tokenInfo.chain = chain ∧ box.validVotes ≠ [] then { tokenInfo with gasPrice := average }
          else tokenInfo) ∧
      ∀ lo hi : ℝ, box.voteItems.length <
          2 * box.voteItems.countP (fun item => decide (lo ≤ (item.vote : ℝ) ∧ (item.vote : ℝ) ≤ hi)) →
        box.validVotes ≠ [] → 9 / 10 * lo ≤ (average : ℝ) ∧ (average : ℝ) ≤ 12 / 10 * hi := by
  intro box median average
  obtain ⟨hvalid, hcount⟩ := GasPriceVoteBox.validVotes_addVote_eq_true h
  rw [GasPriceVoteBox.confirmThreshold_addVotes] at hcount
  exact ⟨BoxKind.not_mem_addVoteFlags GasPriceVoteBox.lawful_kind h, hvalid, hcount,
    fun tokens chain symbol => updateGasPrice_apply tokens chain _ symbol,
    fun lo hi hmaj hne => average_mem_of_majority h hmaj hne⟩

/-- Threshold 3, ballots 100, 105 and 1000: the outlier leaves only two
valid votes, so the third ballot does not confirm; the fourth, 95, does,
with the three ballots near the median valid, and with three of the four
ballots in [95, 105] the average (100) is within the bounds. -/
theorem gasPrice_consensus_outlier :
    let box := (GasPriceVoteBox.kind.addVotes (GasPriceVoteBox.newGasPriceVoteBox 3)
      [(0, 100), (1, 105), (2, 1000)]).addVote 3 95
    let average := (box.2.validVotes.map VoteItem.vote).sum.tdiv box.2.validVotes.length
    box.1 = true ∧
      true ∉ GasPriceVoteBox.kind.addVoteFlags (GasPriceVoteBox.newGasPriceVoteBox 3)
        [(0, 100), (1, 105), (2, 1000)] ∧
      3 ≤ box.2.validVotes.length ∧ average = 100 ∧
      9 / 10 * 95 ≤ (average : ℝ) ∧ (average : ℝ) ≤ 12 / 10 * 105 := by
  intro box average
  have h := gasPrice_consensus 3 [(0, 100), (1, 105), (2, 1000)] 3 95 (by decide)
  have hitems : box.2.voteItems.map VoteItem.vote = [100, 105, 1000, 95] := by decide
  -- three of the four ballots lie in [95, 105]
  have hmaj : box.2.voteItems.length < 2 * box.2.voteItems.countP
      (fun item => decide ((95 : ℝ) ≤ (item.vote : ℝ) ∧ (item.vote : ℝ) ≤ 105)) := by
    have hcount : box.2.voteItems.countP
        (fun item => decide ((95 : ℝ) ≤ (item.vote : ℝ) ∧ (item.vote : ℝ) ≤ 105)) =
        [100, 105, 1000, 95].countP (fun x : ℤ => decide ((95 : ℝ) ≤ (x : ℝ) ∧ (x : ℝ) ≤ 105)) := by
      rw [← hitems, List.countP_map]
      rfl
    rw [← List.length_map (f := VoteItem.vote), hitems, hcount]
    norm_num [List.countP_cons]
  exact ⟨by decide, h.1, h.2.2.1, by decide, h.2.2.2.2 95 105 hmaj (by decide)⟩

/-! ## `SynGasPrice` -/

/-- `GasPriceBucketWindow`. -/
def gasPriceBucketWindow : ℕ := 10

/-- One entry of the list `SynGasPrice` takes (`sdk.TokensGasPrice`). -/
structure TokensGasPrice where
  chain : Denom
  gasPrice : ℤ
  deriving DecidableEq, Repr

/-- What `SynGasPrice` reads from the rest of the chain, in the block of a
transaction. -/
structure Env where
  /-- the height of the current block -/
  blockHeight : ℕ
  /-- `CUAddressFromBase58`, `none` on an error -/
  cuAddressFromBase58 : String → Option CUAddress
  /-- the key node set of the current epoch, which both `IsActiveKeyNode` and
  `VoteWithCustomBox` read -/
  keyNodeSet : List CUAddress

/-- **The state `SynGasPrice` writes**: the tokens by symbol, and the gas
price boxes by chain and bucket (the vote ID `"chain-bucket"`). -/
structure State where
  tokens : Denom → Option IBCToken
  evidence : Evidence.Keeper (Denom × ℕ) (GasPriceVoteBox CUAddress)

/-- The store at genesis, over any tokens. -/
def State.init (tokens : Denom → Option IBCToken) : State := ⟨tokens, .empty⟩

/-- One round of the voting loop of `SynGasPrice`: the ballot, and on a
first confirmation the update of the chain's gas price. -/
def synGasPriceVote (curBlockHeight keyNodes : ℕ) (address : CUAddress) (bucket : ℕ) (s : State)
    (item : TokensGasPrice) : State :=
  let ((firstConfirmed, _, validVotes), evidence) :=
    s.evidence.voteWithCustomBox GasPriceVoteBox.kind (item.chain, bucket) address item.gasPrice
      curBlockHeight keyNodes GasPriceVoteBox.newGasPriceVoteBox
  { tokens := if firstConfirmed then updateGasPrice s.tokens item.chain validVotes else s.tokens,
    evidence := evidence }

/-- **`Keeper.SynGasPrice`**: a report of a key node on a height of the last
ten blocks, on chains that exist; every entry is a ballot of its chain's
box of the height's bucket. -/
def synGasPrice (env : Env) (s : State) (fromAddr : String) (height : ℕ)
    (tokensGasPrice : List TokensGasPrice) : Except Failure (List TokensGasPrice × State) := do
  let curBlockHeight := env.blockHeight
  failIf (height ≥ curBlockHeight ∨ curBlockHeight - height > gasPriceBucketWindow)
    (errInvalidTx "invalid height %d, current block height is %d")
  let address ← orFail (env.cuAddressFromBase58 fromAddr) (errInvalidAddress "can't decode addr:%s")
  let validatorNum := env.keyNodeSet.length
  failIf (validatorNum = 0) (errInsufficientValidatorNum "validator's number:%v")
  failIf (address ∉ env.keyNodeSet) (errInvalidTx "FromCu: %v is not a validator")
  failIf (tokensGasPrice.any fun item => (s.tokens item.chain).isNone)
    (errInvalidTx "Chain %s not exists")
  let bucket := height / gasPriceBucketWindow
  pure (tokensGasPrice,
    Transition.run (synGasPriceVote curBlockHeight validatorNum address bucket) s tokensGasPrice)

/-- `MsgSynGasPrice`. -/
structure MsgSynGasPrice where
  fromAddr : String
  height : ℕ
  gasPrice : List TokensGasPrice
  deriving DecidableEq, Repr

/-- `MsgSynGasPrice.ValidateBasic`. -/
def MsgSynGasPrice.validateBasic (env : Env) (msg : MsgSynGasPrice) : Except Failure Unit := do
  failIf (env.cuAddressFromBase58 msg.fromAddr).isNone
    (errInvalidAddress "from address can not be empty or invalid:%v")
  failIf (msg.gasPrice = []) (errInvalidTx "empty gas price list")

/-- `handleMsgSynGasPrice`, without its event. -/
def handleMsgSynGasPrice (env : Env) (s : State) (msg : MsgSynGasPrice) : Except Failure State := do
  let (_, s') ← synGasPrice env s msg.fromAddr msg.height msg.gasPrice
  pure s'

/-- A transaction: the message, and the block it is delivered in. -/
structure Tx where
  env : Env
  msg : MsgSynGasPrice

/-- `runTx` of a `MsgSynGasPrice`. -/
def deliverTx (s : State) (tx : Tx) : Except Failure State := do
  tx.msg.validateBasic tx.env
  handleMsgSynGasPrice tx.env s tx.msg

/-- One transaction, rolled back when it fails. -/
def step (s : State) (tx : Tx) : State := commit (fun s => deliverTx s tx) s

/-- **What an accepted report checked and did**: the height is one of the
last ten blocks, the sender is a key node of a nonempty set, every chain
exists, and the entries are ballots in order. -/
theorem synGasPrice_eq_ok {env : Env} {s s' : State} {fromAddr : String} {height : ℕ}
    {tokensGasPrice r : List TokensGasPrice}
    (h : synGasPrice env s fromAddr height tokensGasPrice = .ok (r, s')) :
    height < env.blockHeight ∧ env.blockHeight - height ≤ gasPriceBucketWindow ∧
      ∃ address, env.cuAddressFromBase58 fromAddr = some address ∧ address ∈ env.keyNodeSet ∧
        (∀ item ∈ tokensGasPrice, (s.tokens item.chain).isSome) ∧ r = tokensGasPrice ∧
        s' = Transition.run (synGasPriceVote env.blockHeight env.keyNodeSet.length address
          (height / gasPriceBucketWindow)) s tokensGasPrice := by
  simp only [synGasPrice, bind_eq_ok, failIf_eq_ok, orFail_eq_ok, pure_eq_ok] at h
  obtain ⟨-, hheight, address, haddr, -, -, -, hmem, -, hchains, hres⟩ := h
  obtain ⟨rfl, rfl⟩ := Prod.mk.inj hres
  refine ⟨by omega, by omega, address, haddr, by simpa using hmem, ?_, rfl, rfl⟩
  intro item hitem
  simp only [Bool.not_eq_true, List.any_eq_false] at hchains
  simpa [Option.isSome_iff_ne_none] using hchains item hitem

/-! ### Every box of the store was built by ballots -/

/-- The invariant the gas price store keeps. -/
def State.Built (s : State) : Prop :=
  s.evidence.Built GasPriceVoteBox.kind GasPriceVoteBox.newGasPriceVoteBox

theorem built_synGasPriceVote {s : State} (hs : s.Built) (curBlockHeight keyNodes : ℕ)
    (address : CUAddress) (bucket : ℕ) (item : TokensGasPrice) :
    (synGasPriceVote curBlockHeight keyNodes address bucket s item).Built := by
  unfold State.Built synGasPriceVote
  exact Keeper.built_voteWithCustomBox hs _ address item.gasPrice curBlockHeight keyNodes

/-- **One transaction keeps every box built**, accepted or rolled back. -/
theorem built_step {s : State} (hs : s.Built) (tx : Tx) : (step s tx).Built := by
  refine commit_preserves (fun s' hok => ?_) hs
  simp only [deliverTx, handleMsgSynGasPrice, bind_eq_ok, pure_eq_ok] at hok
  obtain ⟨-, -, ⟨r, s''⟩, hsyn, rfl⟩ := hok
  obtain ⟨-, -, address, -, -, -, -, rfl⟩ := synGasPrice_eq_ok hsyn
  exact Transition.run_invariant (I := State.Built)
    (fun s item hs => built_synGasPriceVote hs _ _ address _ item) _ hs

theorem reachable_built {tokens : Denom → Option IBCToken} {s : State}
    (h : Reachable step (State.init tokens) s) : s.Built := by
  have hinit : (State.init tokens).Built := Keeper.built_empty
  exact h.invariant hinit (fun s tx hs => built_step hs tx)

/-- **A first confirmation in `SynGasPrice` writes a robust price.** In a
store whose boxes were built by ballots (every reachable one), a ballot
that first-confirms its box has valid votes; every token of the chain gets
their integer average, and that average lies in `[0.9 · lo, 1.2 · hi]` for
every interval holding more than half of the box's ballots. -/
theorem synGasPriceVote_writes_robust_price {s : State} (hs : s.Built) (curBlockHeight keyNodes : ℕ)
    (address : CUAddress) (bucket : ℕ) (item : TokensGasPrice)
    (h : (s.evidence.voteWithCustomBox GasPriceVoteBox.kind (item.chain, bucket) address item.gasPrice
      curBlockHeight keyNodes GasPriceVoteBox.newGasPriceVoteBox).1.1 = true) :
    let box := ((s.evidence.boxFor (item.chain, bucket) keyNodes
      GasPriceVoteBox.newGasPriceVoteBox).addVote address item.gasPrice).2
    let average := (box.validVotes.map VoteItem.vote).sum.tdiv box.validVotes.length
    box.validVotes ≠ [] ∧
      (∀ symbol tokenInfo, s.tokens symbol = some tokenInfo → tokenInfo.chain = item.chain →
        (synGasPriceVote curBlockHeight keyNodes address bucket s item).tokens symbol =
          some { tokenInfo with gasPrice := average }) ∧
      ∀ lo hi : ℝ, box.voteItems.length <
          2 * box.voteItems.countP (fun item => decide (lo ≤ (item.vote : ℝ) ∧ (item.vote : ℝ) ≤ hi)) →
        9 / 10 * lo ≤ (average : ℝ) ∧ (average : ℝ) ≤ 12 / 10 * hi := by
  intro box average
  -- the box was made with the threshold of a key node set, which is positive
  obtain ⟨n, calls, hbuilt⟩ := Keeper.boxFor_built hs (item.chain, bucket) keyNodes
  set box₀ := s.evidence.boxFor (item.chain, bucket) keyNodes GasPriceVoteBox.newGasPriceVoteBox
  have hfirst : (box₀.addVote address item.gasPrice).1 = true := h
  have hthreshold : box₀.confirmThreshold = majority23 n := by
    rw [hbuilt, GasPriceVoteBox.confirmThreshold_addVotes]
    rfl
  obtain ⟨-, hcount⟩ := GasPriceVoteBox.validVotes_addVote_eq_true hfirst
  have hne : box.validVotes ≠ [] := by
    intro hnil
    change box₀.confirmThreshold ≤ box.validVotes.length at hcount
    rw [hnil, hthreshold, majority23] at hcount
    simp at hcount
  refine ⟨hne, fun symbol tokenInfo htoken hchain => ?_,
    fun lo hi hmaj => average_mem_of_majority hfirst hmaj hne⟩
  have hvotes : (s.evidence.voteWithCustomBox GasPriceVoteBox.kind (item.chain, bucket) address
      item.gasPrice curBlockHeight keyNodes GasPriceVoteBox.newGasPriceVoteBox).1.2.2 = box.validVotes := rfl
  simp only [synGasPriceVote, h, if_true, hvotes, updateGasPrice_apply, htoken, Option.map_some]
  rw [if_pos ⟨hchain, hne⟩]

end Token
