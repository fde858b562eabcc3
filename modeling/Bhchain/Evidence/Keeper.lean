import Bhchain.Evidence.VoteBox

/-!
# The evidence keeper

`Keeper.VoteWithCustomBox` (`x/evidence/keeper/keeper.go`) is the one
entry point of the other modules into the vote boxes: load the box of a
vote ID, or make a new one whose threshold is `Majority23` of the current
epoch's key nodes, add the ballot, remember the height of a first
confirmation, and store the box back. `Vote` is the same call with the
default box.

A box is anything with the three methods of `exported.VoteBox`
(`BoxKind`): the default `VoteBox`, the retry box of the transfer module
and the gas price box of the token module each give their own. The store
is modelled by the two keys the call writes: the box of each vote ID, and
the list of `(height, voteID)` confirmation records. The size of the
current key node set comes from the staking keeper and is an argument of
each call.

Two facts hold for every box kind whose `AddVote` reports a confirmation
only on an unconfirmed box and leaves it confirmed (`BoxKind.Lawful`): a
vote ID is first-confirmed at most once over any run of calls, and the
confirmation records a run appends are exactly the heights of the calls
that reported one (`voteWithCustomBox_confirms_once`). For the default box
the keeper invariant that every stored box satisfies `VoteBox.WF` adds what
the handlers of the transfer module rely on: a call that reports a first
confirmation confirmed its own vote, held by at least the threshold of
distinct key nodes (`vote_first_confirmed`).
-/

namespace Evidence

variable {I B A β : Type} [DecidableEq I]

/-- **What the keeper calls of a box** (`exported.VoteBox`). -/
structure BoxKind (B A β : Type) where
  addVote : B → A → β → Bool × B
  hasConfirmed : B → Bool
  validVotes : B → List (VoteItem A β)

/-- **A box kind that confirms once**: a call that reports a confirmation
leaves the box confirmed, and a call on a confirmed box reports none and
leaves it confirmed. -/
structure BoxKind.Lawful (kind : BoxKind B A β) : Prop where
  confirmed_of_first : ∀ box voter vote, (kind.addVote box voter vote).1 = true →
    kind.hasConfirmed (kind.addVote box voter vote).2 = true
  of_confirmed : ∀ box voter vote, kind.hasConfirmed box = true →
    (kind.addVote box voter vote).1 = false ∧
      kind.hasConfirmed (kind.addVote box voter vote).2 = true

/-- The default box. -/
def VoteBox.kind [DecidableEq A] [DecidableEq β] : BoxKind (VoteBox A β) A β :=
  ⟨VoteBox.addVote, VoteBox.hasConfirmed, VoteBox.validVotes⟩

theorem VoteBox.lawful_kind [DecidableEq A] [DecidableEq β] :
    (VoteBox.kind : BoxKind (VoteBox A β) A β).Lawful where
  confirmed_of_first _ _ _ h := VoteBox.confirmed_of_addVote h
  of_confirmed _ voter vote hc :=
    ⟨(VoteBox.addVote_of_confirmed hc voter vote).1, (VoteBox.addVote_of_confirmed hc voter vote).2.1⟩

/-- The part of the evidence store that `VoteWithCustomBox` reads and
writes. -/
structure Keeper (I B : Type) where
  voteBoxes : I → Option B
  confirmedVotes : List (ℕ × I)

namespace Keeper

/-- The empty store. -/
def empty : Keeper I B := ⟨fun _ => none, []⟩

/-- `setVoteBox`. -/
def setVoteBox (k : Keeper I B) (voteID : I) (box : B) : Keeper I B :=
  { k with voteBoxes := Function.update k.voteBoxes voteID (some box) }

/-- `setConfirmedVote`. -/
def setConfirmedVote (k : Keeper I B) (voteID : I) (height : ℕ) : Keeper I B :=
  { k with confirmedVotes := k.confirmedVotes ++ [(height, voteID)] }

/-- The box a call works on: the stored one, or a new one over the current
key node set. -/
def boxFor (k : Keeper I B) (voteID : I) (keyNodes : ℕ) (newVoteBox : ℕ → B) : B :=
  (k.voteBoxes voteID).getD (newVoteBox (majority23 keyNodes))

/-- **`Keeper.VoteWithCustomBox`**: the first-confirmation flag, whether
the box is confirmed, its valid votes, and the new store. -/
def voteWithCustomBox (kind : BoxKind B A β) (k : Keeper I B) (voteID : I) (voter : A) (vote : β)
    (height : ℕ) (keyNodes : ℕ) (newVoteBox : ℕ → B) :
    (Bool × Bool × List (VoteItem A β)) × Keeper I B :=
  let box := k.boxFor voteID keyNodes newVoteBox
  let added := kind.addVote box voter vote
  let k₁ := if added.1 then k.setConfirmedVote voteID height else k
  ((added.1, kind.hasConfirmed added.2, kind.validVotes added.2), k₁.setVoteBox voteID added.2)

/-- **`Keeper.Vote`**: `VoteWithCustomBox` with the default box. -/
def vote [DecidableEq A] [DecidableEq β] (k : Keeper I (VoteBox A β)) (voteID : I) (voter : A)
    (v : β) (height : ℕ) (keyNodes : ℕ) :
    (Bool × Bool × List (VoteItem A β)) × Keeper I (VoteBox A β) :=
  k.voteWithCustomBox VoteBox.kind voteID voter v height keyNodes newVoteBox

omit [DecidableEq I] in
@[simp] theorem confirmedVotes_setVoteBox [DecidableEq I] (k : Keeper I B) (voteID : I) (box : B) :
    (k.setVoteBox voteID box).confirmedVotes = k.confirmedVotes := rfl

@[simp] theorem voteBoxes_setVoteBox (k : Keeper I B) (voteID : I) (box : B) :
    (k.setVoteBox voteID box).voteBoxes = Function.update k.voteBoxes voteID (some box) := rfl

omit [DecidableEq I] in
@[simp] theorem voteBoxes_setConfirmedVote (k : Keeper I B) (voteID : I) (height : ℕ) :
    (k.setConfirmedVote voteID height).voteBoxes = k.voteBoxes := rfl

section call

variable (kind : BoxKind B A β) (k : Keeper I B) (voteID : I) (voter : A) (v : β)
  (height keyNodes : ℕ) (newVoteBox : ℕ → B)

/-- The box a call stores. -/
theorem voteBoxes_voteWithCustomBox :
    (k.voteWithCustomBox kind voteID voter v height keyNodes newVoteBox).2.voteBoxes =
      Function.update k.voteBoxes voteID
        (some (kind.addVote (k.boxFor voteID keyNodes newVoteBox) voter v).2) := by
  unfold voteWithCustomBox
  dsimp only
  rw [voteBoxes_setVoteBox]
  -- recording a confirmation does not touch the boxes
  congr 1
  split <;> rfl

/-- The first-confirmation flag a call returns. -/
theorem fst_voteWithCustomBox :
    (k.voteWithCustomBox kind voteID voter v height keyNodes newVoteBox).1.1 =
      (kind.addVote (k.boxFor voteID keyNodes newVoteBox) voter v).1 := rfl

/-- A call records its height exactly when it reports a first confirmation. -/
theorem confirmedVotes_voteWithCustomBox :
    (k.voteWithCustomBox kind voteID voter v height keyNodes newVoteBox).2.confirmedVotes =
      k.confirmedVotes ++
        if (kind.addVote (k.boxFor voteID keyNodes newVoteBox) voter v).1 then [(height, voteID)]
        else [] := by
  unfold voteWithCustomBox
  dsimp only
  split <;> simp [setConfirmedVote, *]

end call

/-- A vote ID whose stored box is confirmed. -/
def Confirmed (kind : BoxKind B A β) (k : Keeper I B) (voteID : I) : Prop :=
  ∃ box, k.voteBoxes voteID = some box ∧ kind.hasConfirmed box = true

section lawful

variable {kind : BoxKind B A β} (hlaw : kind.Lawful)
include hlaw

/-- A call that reports a first confirmation leaves its vote ID confirmed. -/
theorem confirmed_of_first {k : Keeper I B} {voteID : I} {voter : A} {v : β}
    {height keyNodes : ℕ} {newVoteBox : ℕ → B}
    (h : (k.voteWithCustomBox kind voteID voter v height keyNodes newVoteBox).1.1 = true) :
    (k.voteWithCustomBox kind voteID voter v height keyNodes newVoteBox).2.Confirmed kind voteID :=
  ⟨_, by rw [voteBoxes_voteWithCustomBox, Function.update_self],
    hlaw.confirmed_of_first _ voter v ((fst_voteWithCustomBox ..).symm.trans h)⟩

/-- **Confirmation is permanent**, and a call on a confirmed vote ID never
reports a first confirmation. -/
theorem confirmed_voteWithCustomBox {k : Keeper I B} {id : I} (hc : k.Confirmed kind id)
    (voteID : I) (voter : A) (v : β) (height keyNodes : ℕ) (newVoteBox : ℕ → B) :
    (voteID = id → (k.voteWithCustomBox kind voteID voter v height keyNodes newVoteBox).1.1 = false) ∧
      (k.voteWithCustomBox kind voteID voter v height keyNodes newVoteBox).2.Confirmed kind id := by
  obtain ⟨box, hbox, hconf⟩ := hc
  by_cases hid : voteID = id
  · subst hid
    have hfor : k.boxFor voteID keyNodes newVoteBox = box := by
      unfold boxFor
      rw [hbox]
      rfl
    obtain ⟨hfalse, hstill⟩ := hlaw.of_confirmed box voter v hconf
    refine ⟨fun _ => by rw [fst_voteWithCustomBox, hfor]; exact hfalse, _, ?_, hstill⟩
    rw [voteBoxes_voteWithCustomBox, Function.update_self, hfor]
  · refine ⟨fun h => absurd h hid, box, ?_, hconf⟩
    rw [voteBoxes_voteWithCustomBox, Function.update_of_ne (Ne.symm hid)]
    exact hbox

end lawful

/-! ## Runs of calls -/

/-- One call of `VoteWithCustomBox`, with every argument it takes. -/
structure VoteCall (I B A β : Type) where
  voteID : I
  voter : A
  vote : β
  height : ℕ
  keyNodes : ℕ
  newVoteBox : ℕ → B

/-- Apply one call. -/
def call (kind : BoxKind B A β) (k : Keeper I B) (c : VoteCall I B A β) :
    (Bool × Bool × List (VoteItem A β)) × Keeper I B :=
  k.voteWithCustomBox kind c.voteID c.voter c.vote c.height c.keyNodes c.newVoteBox

/-- The store after a run of calls. -/
def runCalls (kind : BoxKind B A β) (k : Keeper I B) (cs : List (VoteCall I B A β)) : Keeper I B :=
  Transition.run (fun k c => (call kind k c).2) k cs

/-- Each call of a run with the first-confirmation flag it returned. -/
def runFlags (kind : BoxKind B A β) : Keeper I B → List (VoteCall I B A β) →
    List (VoteCall I B A β × Bool)
  | _, [] => []
  | k, c :: cs => (c, (call kind k c).1.1) :: runFlags kind (call kind k c).2 cs

/-- The calls of a run that first-confirmed `id`. -/
def firstConfirmations (id : I) (flags : List (VoteCall I B A β × Bool)) : ℕ :=
  flags.countP (fun f => f.1.voteID = id ∧ f.2 = true)

/-- The confirmation records of the calls that reported one. -/
def confirmationRecords (flags : List (VoteCall I B A β × Bool)) : List (ℕ × I) :=
  flags.filterMap (fun f => if f.2 then some (f.1.height, f.1.voteID) else none)

/-- **A run appends the records of its confirming calls**, in order. -/
theorem confirmedVotes_runCalls (kind : BoxKind B A β) :
    ∀ (k : Keeper I B) (cs : List (VoteCall I B A β)),
      (runCalls kind k cs).confirmedVotes = k.confirmedVotes ++ confirmationRecords (runFlags kind k cs)
  | k, [] => by simp [runCalls, runFlags, confirmationRecords]
  | k, c :: cs => by
    have ih := confirmedVotes_runCalls kind (call kind k c).2 cs
    simp only [runCalls, Transition.run_cons] at ih ⊢
    rw [ih, runFlags, call, confirmedVotes_voteWithCustomBox]
    unfold confirmationRecords
    rw [List.filterMap_cons, ← fst_voteWithCustomBox kind k c.voteID c.voter c.vote c.height c.keyNodes
      c.newVoteBox]
    split <;> simp [*]

section lawful

variable {kind : BoxKind B A β} (hlaw : kind.Lawful)
include hlaw

/-- After a confirmation no call of a run first-confirms again. -/
theorem firstConfirmations_of_confirmed {id : I} :
    ∀ {k : Keeper I B} (cs : List (VoteCall I B A β)), k.Confirmed kind id →
      firstConfirmations id (runFlags kind k cs) = 0
  | _, [], _ => rfl
  | k, c :: cs, hc => by
    obtain ⟨hflag, hnext⟩ :=
      confirmed_voteWithCustomBox hlaw hc c.voteID c.voter c.vote c.height c.keyNodes c.newVoteBox
    unfold firstConfirmations runFlags
    rw [List.countP_cons]
    have ih := firstConfirmations_of_confirmed (k := (call kind k c).2) cs hnext
    unfold firstConfirmations at ih
    rw [ih]
    by_cases hid : c.voteID = id
    · simp [call, hflag hid]
    · simp [hid]

/-- **A vote ID is first-confirmed at most once**, over any run of calls:
whatever the interleaving of voters, vote IDs, votes and box constructors. -/
theorem firstConfirmed_at_most_once (id : I) :
    ∀ (k : Keeper I B) (cs : List (VoteCall I B A β)), firstConfirmations id (runFlags kind k cs) ≤ 1
  | _, [] => Nat.zero_le _
  | k, c :: cs => by
    unfold firstConfirmations runFlags
    rw [List.countP_cons]
    by_cases hhit : c.voteID = id ∧ (call kind k c).1.1 = true
    · -- this call confirms: the box of `id` is confirmed for the rest of the run
      obtain ⟨hid, hflag⟩ := hhit
      subst hid
      have hrest := firstConfirmations_of_confirmed hlaw (k := (call kind k c).2) cs
        (confirmed_of_first hlaw hflag)
      unfold firstConfirmations at hrest
      rw [hrest]
      simp [hflag]
    · -- it does not: the rest of the run carries the bound
      have ih := firstConfirmed_at_most_once id (call kind k c).2 cs
      unfold firstConfirmations at ih
      have hzero : decide (c.voteID = id ∧ (call kind k c).1.1 = true) = false := by simpa using hhit
      simp only [hzero]
      simpa using ih

end lawful

/-! ## The default box -/

section default

variable [DecidableEq A] [DecidableEq β]

/-- The box a `Vote` call stores. -/
theorem voteBoxes_vote (k : Keeper I (VoteBox A β)) (voteID : I) (voter : A) (v : β)
    (height keyNodes : ℕ) :
    (k.vote voteID voter v height keyNodes).2.voteBoxes =
      Function.update k.voteBoxes voteID
        (some ((k.boxFor voteID keyNodes newVoteBox).addVote voter v).2) :=
  voteBoxes_voteWithCustomBox ..

/-- The first-confirmation flag a `Vote` call returns. -/
theorem fst_vote (k : Keeper I (VoteBox A β)) (voteID : I) (voter : A) (v : β)
    (height keyNodes : ℕ) :
    (k.vote voteID voter v height keyNodes).1.1 =
      ((k.boxFor voteID keyNodes newVoteBox).addVote voter v).1 := rfl

/-- **The keeper invariant** of the default box: every stored box is well
formed. -/
def WF (k : Keeper I (VoteBox A β)) : Prop := ∀ voteID box, k.voteBoxes voteID = some box → box.WF

omit [DecidableEq I] [DecidableEq A] in
theorem wf_empty : WF (empty : Keeper I (VoteBox A β)) := fun _ _ h => by cases h

omit [DecidableEq I] [DecidableEq A] in
/-- The box a call works on is well formed. -/
theorem wf_boxFor {k : Keeper I (VoteBox A β)} (hk : k.WF) (voteID : I) (keyNodes : ℕ) :
    (k.boxFor voteID keyNodes newVoteBox).WF := by
  unfold boxFor
  cases h : k.voteBoxes voteID with
  | none => exact VoteBox.wf_newVoteBox (Nat.succ_pos _)
  | some box => exact hk voteID box h

/-- **`Vote` keeps the keeper invariant.** -/
theorem wf_vote {k : Keeper I (VoteBox A β)} (hk : k.WF) (voteID : I) (voter : A) (v : β)
    (height keyNodes : ℕ) : (k.vote voteID voter v height keyNodes).2.WF := by
  intro id box hbox
  rw [voteBoxes_vote] at hbox
  by_cases hid : id = voteID
  · subst hid
    rw [Function.update_self] at hbox
    cases hbox
    exact VoteBox.wf_addVote (wf_boxFor hk id keyNodes) voter v
  · rw [Function.update_of_ne hid] at hbox
    exact hk id box hbox

/-- **A first confirmation confirms the caller's own vote**, held by at
least the threshold of distinct key nodes, in a box that was not confirmed
before the call. -/
theorem vote_first_confirmed {k : Keeper I (VoteBox A β)} (hk : k.WF) {voteID : I} {voter : A}
    {v : β} {height keyNodes : ℕ} (h : (k.vote voteID voter v height keyNodes).1.1 = true) :
    (k.boxFor voteID keyNodes newVoteBox).confirmed = false ∧
      ∃ box, (k.vote voteID voter v height keyNodes).2.voteBoxes voteID = some box ∧
        box.confirmed = true ∧ box.result = some v ∧ (∀ item ∈ box.validVotes, item.vote = v) ∧
        (voters box.validVotes).Nodup ∧ box.confirmThreshold ≤ box.validVotes.length := by
  set box₀ := k.boxFor voteID keyNodes newVoteBox with hbox₀
  have hw₀ : box₀.WF := wf_boxFor hk voteID keyNodes
  have hadd : box₀.addVote voter v = (true, (box₀.addVote voter v).2) :=
    Prod.ext (by rw [fst_vote] at h; exact h) rfl
  obtain ⟨hc₀, hc, hres, -⟩ := VoteBox.addVote_first_confirmed hw₀ hadd
  obtain ⟨r, hr, hall, hnodup, hlen⟩ := VoteBox.validVotes_quorum (VoteBox.wf_addVote hw₀ voter v) hc
  -- the result the quorum holds is the caller's vote
  have hrv : r = v := Option.some.inj (hr.symm.trans hres)
  subst hrv
  refine ⟨hc₀, (box₀.addVote voter r).2, ?_, hc, hres, hall, hnodup, hlen⟩
  rw [voteBoxes_vote, Function.update_self]

end default

end Keeper

/-! ## Runs of ballots on one box -/

namespace BoxKind

/-- A box after a run of ballots. -/
def addVotes (kind : BoxKind B A β) (box : B) (calls : List (A × β)) : B :=
  Transition.run (fun box c => (kind.addVote box c.1 c.2).2) box calls

/-- What each ballot of a run returned. -/
def addVoteFlags (kind : BoxKind B A β) : B → List (A × β) → List Bool
  | _, [] => []
  | box, c :: cs => (kind.addVote box c.1 c.2).1 :: kind.addVoteFlags (kind.addVote box c.1 c.2).2 cs

@[simp] theorem addVotes_nil (kind : BoxKind B A β) (box : B) : kind.addVotes box [] = box := rfl

@[simp] theorem addVotes_cons (kind : BoxKind B A β) (box : B) (c : A × β) (calls : List (A × β)) :
    kind.addVotes box (c :: calls) = kind.addVotes (kind.addVote box c.1 c.2).2 calls := rfl

/-- One more ballot at the end of a run. -/
theorem addVotes_concat (kind : BoxKind B A β) (box : B) (calls : List (A × β)) (c : A × β) :
    kind.addVotes box (calls ++ [c]) = (kind.addVote (kind.addVotes box calls) c.1 c.2).2 :=
  Transition.run_append _ box calls [c]

section lawful

variable {kind : BoxKind B A β} (hlaw : kind.Lawful)
include hlaw

/-- A confirmed box stays confirmed over any run of ballots. -/
theorem hasConfirmed_addVotes {box : B} (hc : kind.hasConfirmed box = true) :
    ∀ calls : List (A × β), kind.hasConfirmed (kind.addVotes box calls) = true := by
  intro calls
  induction calls generalizing box with
  | nil => exact hc
  | cons c cs ih => exact ih (hlaw.of_confirmed box c.1 c.2 hc).2

/-- **A ballot that reports a confirmation is the first of its run to
report one.** -/
theorem not_mem_addVoteFlags {box : B} {calls : List (A × β)} {voter : A} {v : β}
    (h : (kind.addVote (kind.addVotes box calls) voter v).1 = true) :
    true ∉ kind.addVoteFlags box calls := by
  induction calls generalizing box with
  | nil => simp [addVoteFlags]
  | cons c cs ih =>
    rw [addVotes_cons] at h
    simp only [addVoteFlags, List.mem_cons, not_or]
    refine ⟨fun hfirst => ?_, ih h⟩
    -- an earlier confirmation would have left the box confirmed to the end
    have hconf := hasConfirmed_addVotes hlaw (hlaw.confirmed_of_first box c.1 c.2 hfirst.symm) cs
    rw [(hlaw.of_confirmed _ voter v hconf).1] at h
    cases h

end lawful

end BoxKind

/-! ## Every stored box was built by ballots -/

namespace Keeper

/-- **Every stored box was made by the constructor of its kind**, with the
threshold of a key node set, and has taken a run of ballots since. -/
def Built (kind : BoxKind B A β) (newVoteBox : ℕ → B) (k : Keeper I B) : Prop :=
  ∀ voteID box, k.voteBoxes voteID = some box →
    ∃ keyNodes calls, box = kind.addVotes (newVoteBox (majority23 keyNodes)) calls

variable {kind : BoxKind B A β} {newVoteBox : ℕ → B}

omit [DecidableEq I] in
theorem built_empty : (empty : Keeper I B).Built kind newVoteBox := fun _ _ h => by cases h

omit [DecidableEq I] in
/-- The box a call works on is built, stored or new. -/
theorem boxFor_built {k : Keeper I B} (hk : k.Built kind newVoteBox) (voteID : I) (keyNodes : ℕ) :
    ∃ n calls, k.boxFor voteID keyNodes newVoteBox = kind.addVotes (newVoteBox (majority23 n)) calls := by
  unfold boxFor
  cases hbox : k.voteBoxes voteID with
  | none => exact ⟨keyNodes, [], rfl⟩
  | some box => exact hk voteID box hbox

/-- **A call keeps every stored box built.** -/
theorem built_voteWithCustomBox {k : Keeper I B} (hk : k.Built kind newVoteBox) (voteID : I)
    (voter : A) (v : β) (height keyNodes : ℕ) :
    (k.voteWithCustomBox kind voteID voter v height keyNodes newVoteBox).2.Built kind newVoteBox := by
  intro id box hbox
  rw [voteBoxes_voteWithCustomBox] at hbox
  by_cases hid : id = voteID
  · -- the box of the call: the box it worked on, one ballot later
    subst hid
    rw [Function.update_self, Option.some.injEq] at hbox
    obtain ⟨n, calls, hfor⟩ := boxFor_built hk id keyNodes
    exact ⟨n, calls ++ [(voter, v)], by rw [← hbox, hfor, BoxKind.addVotes_concat]⟩
  · rw [Function.update_of_ne hid] at hbox
    exact hk id box hbox

end Keeper

/-! ## The retry box of the transfer module -/

/-- **`OrderRetryVoteBox`** (`x/transfer/types/vote.go`): ballots of
evidence lists, confirmed once the threshold of voters has voted, whatever
they voted. An `OrderRetryVoteItem` is a ballot whose vote is the voter's
evidences. -/
structure OrderRetryVoteBox (A E : Type) where
  confirmThreshold : ℕ
  voteItems : List (VoteItem A E)
  confirmed : Bool

namespace OrderRetryVoteBox

variable {E : Type} [DecidableEq A]

/-- `NewOrderRetryVoteBox`. -/
def newOrderRetryVoteBox (confirmThreshold : ℕ) : OrderRetryVoteBox A E :=
  ⟨confirmThreshold, [], false⟩

/-- **`OrderRetryVoteBox.AddVote`**: the ballot update of the default box,
then a confirmation as soon as the box holds the threshold of ballots. -/
def addVote (box : OrderRetryVoteBox A E) (voter : A) (evidences : E) :
    Bool × OrderRetryVoteBox A E :=
  let box₁ := { box with voteItems := setVote box.confirmed voter evidences box.voteItems }
  if box.confirmed || decide (box₁.voteItems.length < box.confirmThreshold) then (false, box₁)
  else (true, { box₁ with confirmed := true })

/-- **`OrderRetryVoteBox.ValidVotes`**: every ballot, once confirmed. -/
def validVotes (box : OrderRetryVoteBox A E) : List (VoteItem A E) :=
  if box.confirmed then box.voteItems else []

/-- The retry box as a box kind. -/
def kind : BoxKind (OrderRetryVoteBox A E) A E :=
  ⟨addVote, OrderRetryVoteBox.confirmed, validVotes⟩

theorem lawful_kind : (kind : BoxKind (OrderRetryVoteBox A E) A E).Lawful where
  confirmed_of_first box voter evidences h := by
    simp only [kind, addVote] at h ⊢
    split at h
    · cases h
    · rename_i hnot
      rw [if_neg hnot]
  of_confirmed box voter evidences hc := by
    simp only [kind] at hc
    simp [kind, addVote, hc]

end OrderRetryVoteBox

/-- **Vote box safety.** Over any run of `AddVote` calls on a box made by
`NewVoteBox(Majority23(n))`, split at a call that reports a confirmation:
no other call reports one; that call confirms its own vote, held by at
least `Majority23(n)` distinct voters, and `ValidVotes` is exactly the
ballots carrying it; afterwards the box stays confirmed with that result
and keeps every ballot, so no recorded voter's vote changes. And for every
box kind that confirms once (the default box and the retry box among
them), `VoteWithCustomBox` first-confirms a vote ID at most once over any
run, recording the height of exactly the calls that report a first
confirmation. -/
theorem voteBox_confirms_once [DecidableEq A] [DecidableEq β] (n : ℕ) (pre : List (A × β))
    (p : A) (v : β) (post : List (A × β))
    (h : (((newVoteBox (majority23 n) : VoteBox A β).addVotes pre).addVote p v).1 = true) :
    let box := (((newVoteBox (majority23 n) : VoteBox A β).addVotes pre).addVote p v).2
    ((true ∉ VoteBox.addVoteFlags (newVoteBox (majority23 n)) pre ∧
        true ∉ VoteBox.addVoteFlags box post) ∧
      (box.result = some v ∧ box.validVotes = box.voteItems.filter (fun item => item.vote = v) ∧
        (voters box.validVotes).Nodup ∧ majority23 n ≤ box.validVotes.length) ∧
      ((box.addVotes post).confirmed = true ∧ (box.addVotes post).result = some v ∧
        ∀ item ∈ box.voteItems, item ∈ (box.addVotes post).voteItems)) ∧
    ((VoteBox.kind : BoxKind (VoteBox A β) A β).Lawful ∧
      ∀ {E : Type}, (OrderRetryVoteBox.kind : BoxKind (OrderRetryVoteBox A E) A E).Lawful) ∧
    ∀ {I B : Type} [DecidableEq I] (kind : BoxKind B A β), kind.Lawful →
      ∀ (id : I) (k : Keeper I B) (cs : List (Keeper.VoteCall I B A β)),
        Keeper.firstConfirmations id (Keeper.runFlags kind k cs) ≤ 1 ∧
          (Keeper.runCalls kind k cs).confirmedVotes =
            k.confirmedVotes ++ Keeper.confirmationRecords (Keeper.runFlags kind k cs) := by
  intro box
  refine ⟨VoteBox.addVotes_split_confirmed (VoteBox.wf_newVoteBox (Nat.succ_pos _)) pre p v post h,
    ⟨VoteBox.lawful_kind, OrderRetryVoteBox.lawful_kind⟩, ?_⟩
  intro I B _ kind hlaw id k cs
  exact ⟨Keeper.firstConfirmed_at_most_once hlaw id k cs, Keeper.confirmedVotes_runCalls kind k cs⟩

/-- Four key nodes (threshold 3): voter 1 changes its vote before the box
confirms, voter 3's ballot confirms it with three distinct voters, and the
later ballots, a change of vote among them, confirm nothing and keep the
result. -/
theorem voteBox_confirms_once_four_nodes :
    (((newVoteBox (majority23 4) : VoteBox ℕ Bool).addVotes
        [(0, true), (1, false), (2, false), (1, true)]).addVote 3 true).1 = true ∧
      true ∉ VoteBox.addVoteFlags (((newVoteBox (majority23 4) : VoteBox ℕ Bool).addVotes
        [(0, true), (1, false), (2, false), (1, true)]).addVote 3 true).2 [(2, true), (0, false)] ∧
      majority23 4 ≤ (((newVoteBox (majority23 4) : VoteBox ℕ Bool).addVotes
        [(0, true), (1, false), (2, false), (1, true)]).addVote 3 true).2.validVotes.length ∧
      ((((newVoteBox (majority23 4) : VoteBox ℕ Bool).addVotes
        [(0, true), (1, false), (2, false), (1, true)]).addVote 3 true).2.addVotes
          [(2, true), (0, false)]).result = some true := by
  have h := voteBox_confirms_once (A := ℕ) 4 [(0, true), (1, false), (2, false), (1, true)] 3 true
    [(2, true), (0, false)] (by decide)
  exact ⟨by decide, h.1.1.2, h.1.2.1.2.2.2, h.1.2.2.2.1⟩

end Evidence
