import Mathlib.Data.List.Count
import Mathlib.Data.List.Nodup
import Bhchain.Lib.Transition

/-!
# The evidence vote box

Cross-chain facts reach the chain as messages of the key nodes, and a
fact is acted on once enough key nodes agree on it. The evidence module
collects the votes of one fact in a `VoteBox`
(`x/evidence/types/vote.go`): a list of ballots, one per voter, a
threshold, and the result once some vote value has gathered the
threshold. `AddVote` records a ballot – a voter may change its ballot
until the box confirms – and says whether this call confirmed the box.

Votes are compared by their JSON encoding. The votes this development
feeds the box (`TxVote`, a cost fee and a flag) encode injectively, so the
model compares them with `DecidableEq`.

The invariant `VoteBox.WF` says what a box reachable from `NewVoteBox`
looks like: the threshold is positive (it is `Majority23` of the key node
count), every voter holds one ballot, an unconfirmed box has no value at
the threshold, and a confirmed box's result is at the threshold. From it
`addVote_first_confirmed` reads the agreement property of the box: the
call that confirms a box confirms **its own vote**, and that vote is held
by at least threshold distinct voters. A message that confirms cannot
confirm anything else than what it voted.
-/

namespace Evidence

variable {A β : Type} [DecidableEq A] [DecidableEq β]

/-- One ballot: a vote and the key node that cast it. -/
structure VoteItem (A β : Type) where
  vote : β
  voter : A
deriving DecidableEq, Repr

/-- **The default vote box** (`types.VoteBox`). `result` is the Go
`Result`, nil until the box confirms. -/
structure VoteBox (A β : Type) where
  confirmThreshold : ℕ
  voteItems : List (VoteItem A β)
  confirmed : Bool
  result : Option β
deriving DecidableEq, Repr

/-- `NewVoteBox`: an empty box with the given threshold. -/
def newVoteBox (confirmThreshold : ℕ) : VoteBox A β :=
  ⟨confirmThreshold, [], false, none⟩

/-- `sdk.Majority23`: the threshold of a box over `num` key nodes. -/
def majority23 (num : ℕ) : ℕ := 2 * num / 3 + 1

/-- The ballots of `voter`'s vote: the first loop of `AddVote`. An
existing ballot of the voter takes the new vote unless the box is
confirmed; a new voter's ballot is appended. -/
def setVote (confirmed : Bool) (voter : A) (vote : β) :
    List (VoteItem A β) → List (VoteItem A β)
  | [] => [⟨vote, voter⟩]
  | item :: items =>
    if item.voter = voter then
      (if confirmed then item else { item with vote := vote }) :: items
    else item :: setVote confirmed voter vote items

/-- The counting loop of `AddVote`: scan the ballots with a running
counter per vote value and stop at the first value whose count reaches
the threshold. -/
def firstReaching (threshold : ℕ) (counter : β → ℕ) :
    List (VoteItem A β) → Option β
  | [] => none
  | item :: items =>
    let counter' := Function.update counter item.vote (counter item.vote + 1)
    if threshold ≤ counter' item.vote then some item.vote
    else firstReaching threshold counter' items

namespace VoteBox

/-- **`VoteBox.AddVote`**: record the ballot, then count if the box is
not yet confirmed and holds at least the threshold of ballots. The flag is
`true` exactly when this call confirmed the box. -/
def addVote (box : VoteBox A β) (voter : A) (vote : β) : Bool × VoteBox A β :=
  let box₁ := { box with voteItems := setVote box.confirmed voter vote box.voteItems }
  if box.confirmed || decide (box₁.voteItems.length < box.confirmThreshold) then
    (false, box₁)
  else
    match firstReaching box.confirmThreshold (fun _ => 0) box₁.voteItems with
    | some r => (true, { box₁ with confirmed := true, result := some r })
    | none => (false, box₁)

/-- **`VoteBox.ValidVotes`**: the ballots that carry the result, once
confirmed. -/
def validVotes (box : VoteBox A β) : List (VoteItem A β) :=
  if box.confirmed then box.voteItems.filter (fun item => some item.vote = box.result)
  else []

/-- `VoteBox.HasConfirmed`. -/
def hasConfirmed (box : VoteBox A β) : Bool := box.confirmed

end VoteBox

/-- How many ballots carry the vote `v`. -/
def votesFor (v : β) (items : List (VoteItem A β)) : ℕ :=
  items.countP (fun item => item.vote = v)

/-- The voters of a ballot list. -/
def voters (items : List (VoteItem A β)) : List A := items.map VoteItem.voter

/-! ## The ballot update -/

section setVote

omit [DecidableEq A] in
@[simp] theorem votesFor_nil (v : β) : votesFor v ([] : List (VoteItem A β)) = 0 := rfl

omit [DecidableEq A] in
theorem votesFor_cons (v : β) (item : VoteItem A β) (items : List (VoteItem A β)) :
    votesFor v (item :: items) = votesFor v items + if item.vote = v then 1 else 0 := by
  unfold votesFor
  rw [List.countP_cons]
  simp

omit [DecidableEq A] in
theorem votesFor_le_length (v : β) (items : List (VoteItem A β)) :
    votesFor v items ≤ items.length :=
  List.countP_le_length

omit [DecidableEq β] in
/-- A voter already in the list keeps the voter list; a new one is appended. -/
theorem voters_setVote (c : Bool) (p : A) (v : β) (items : List (VoteItem A β)) :
    voters (setVote c p v items) =
      if p ∈ voters items then voters items else voters items ++ [p] := by
  induction items with
  | nil => rfl
  | cons item items ih =>
    unfold setVote
    by_cases hp : item.voter = p
    · -- the voter's own ballot: it keeps its place
      have hmem : p ∈ voters (item :: items) := hp ▸ List.mem_cons_self
      rw [if_pos hp, if_pos hmem]
      split <;> simp [voters]
    · rw [if_neg hp]
      simp only [voters, List.map_cons] at ih ⊢
      rw [ih]
      by_cases hmem : p ∈ items.map VoteItem.voter
      · simp [hmem]
      · simp [hmem, Ne.symm hp]

omit [DecidableEq β] in
/-- **Every voter keeps one ballot.** -/
theorem nodup_voters_setVote {c : Bool} {p : A} {v : β} {items : List (VoteItem A β)}
    (h : (voters items).Nodup) : (voters (setVote c p v items)).Nodup := by
  rw [voters_setVote]
  split
  · exact h
  · exact h.append (List.nodup_singleton p) (by simpa using ‹p ∉ voters items›)

/-- A ballot update never adds to the count of a vote other than the new one. -/
theorem votesFor_setVote_le {c : Bool} {p : A} {v u : β} (huv : u ≠ v)
    (items : List (VoteItem A β)) : votesFor u (setVote c p v items) ≤ votesFor u items := by
  induction items with
  | nil => simp [setVote, votesFor_cons, Ne.symm huv]
  | cons item items ih =>
    unfold setVote
    split
    · split
      · exact Nat.le_refl _
      · rw [votesFor_cons, votesFor_cons, if_neg (Ne.symm huv)]
        exact Nat.le_add_right _ _
    · rw [votesFor_cons, votesFor_cons]
      exact Nat.add_le_add_right ih _

omit [DecidableEq β] in
/-- In a confirmed box no ballot changes: an update only appends. -/
theorem mem_setVote_of_confirmed {p : A} {v : β} {items : List (VoteItem A β)}
    {item : VoteItem A β} (h : item ∈ items) : item ∈ setVote true p v items := by
  induction items with
  | nil => cases h
  | cons i items ih =>
    unfold setVote
    rcases List.mem_cons.mp h with rfl | h
    · split <;> exact List.mem_cons_self
    · split
      · exact List.mem_cons_of_mem _ h
      · exact List.mem_cons_of_mem _ (ih h)

/-- The count of a vote does not drop in a confirmed box. -/
theorem votesFor_setVote_confirmed (p : A) (v u : β) (items : List (VoteItem A β)) :
    votesFor u items ≤ votesFor u (setVote true p v items) := by
  induction items with
  | nil => exact Nat.zero_le _
  | cons item items ih =>
    unfold setVote
    split
    · exact Nat.le_refl _
    · rw [votesFor_cons, votesFor_cons]
      exact Nat.add_le_add_right ih _

end setVote

/-! ## The counting loop -/

section firstReaching

omit [DecidableEq A] in
/-- The value the loop stops at has reached the threshold. -/
theorem firstReaching_some {t : ℕ} {counter : β → ℕ} {r : β} :
    ∀ {items : List (VoteItem A β)}, firstReaching t counter items = some r →
      t ≤ counter r + votesFor r items
  | [], h => by cases h
  | item :: items, h => by
    simp only [firstReaching] at h
    split at h
    · -- the loop stops at this ballot
      cases h
      rw [votesFor_cons, if_pos rfl, Function.update_self] at *
      omega
    · -- it goes on, with the counter of this ballot's vote raised by one
      have ih := firstReaching_some h
      rw [votesFor_cons]
      by_cases hr : item.vote = r
      · subst hr
        rw [Function.update_self] at ih
        rw [if_pos rfl]
        omega
      · rw [Function.update_of_ne (Ne.symm hr)] at ih
        rw [if_neg hr]
        omega

omit [DecidableEq A] in
/-- A loop that finds nothing leaves every value below the threshold. -/
theorem firstReaching_none {t : ℕ} {counter : β → ℕ} :
    ∀ {items : List (VoteItem A β)}, firstReaching t counter items = none →
      ∀ u, counter u < t → counter u + votesFor u items < t
  | [], _, u, hu => by simpa using hu
  | item :: items, h, u, hu => by
    simp only [firstReaching] at h
    split at h
    · cases h
    · rename_i hnot
      have hstep : Function.update counter item.vote (counter item.vote + 1) u < t := by
        by_cases hu' : u = item.vote
        · subst hu'
          rw [Function.update_self] at hnot ⊢
          omega
        · rw [Function.update_of_ne hu']
          exact hu
      have ih := firstReaching_none h u hstep
      rw [votesFor_cons]
      by_cases hv : item.vote = u
      · subst hv
        rw [Function.update_self] at ih
        rw [if_pos rfl]
        omega
      · rw [Function.update_of_ne (Ne.symm hv)] at ih
        rw [if_neg hv]
        omega

end firstReaching

/-! ## The invariant of a box and what `AddVote` does to it -/

namespace VoteBox

/-- **The invariant of a vote box reachable from `NewVoteBox`.** -/
structure WF (box : VoteBox A β) : Prop where
  threshold_pos : 0 < box.confirmThreshold
  nodup : (voters box.voteItems).Nodup
  unconfirmed : box.confirmed = false →
    box.result = none ∧ ∀ u, votesFor u box.voteItems < box.confirmThreshold
  confirmed_result : box.confirmed = true →
    ∃ r, box.result = some r ∧ box.confirmThreshold ≤ votesFor r box.voteItems

omit [DecidableEq A] in
theorem wf_newVoteBox {t : ℕ} (ht : 0 < t) : WF (newVoteBox t : VoteBox A β) where
  threshold_pos := ht
  nodup := List.nodup_nil
  unconfirmed := fun _ => ⟨rfl, fun _ => ht⟩
  confirmed_result := fun h => by cases h

/-- The box after the ballot update, before counting. -/
abbrev withBallot (box : VoteBox A β) (voter : A) (vote : β) : VoteBox A β :=
  { box with voteItems := setVote box.confirmed voter vote box.voteItems }

theorem addVote_of_confirmed_eq {box : VoteBox A β} (hc : box.confirmed = true) (p : A) (v : β) :
    box.addVote p v = (false, box.withBallot p v) := by
  simp [addVote, hc]

theorem addVote_of_short {box : VoteBox A β} {p : A} {v : β} (hc : box.confirmed = false)
    (hlen : (box.withBallot p v).voteItems.length < box.confirmThreshold) :
    box.addVote p v = (false, box.withBallot p v) := by
  simp only [hc] at hlen
  simp [addVote, hc, hlen]

theorem addVote_of_count {box : VoteBox A β} {p : A} {v : β} (hc : box.confirmed = false)
    (hlen : ¬(box.withBallot p v).voteItems.length < box.confirmThreshold) :
    box.addVote p v =
      match firstReaching box.confirmThreshold (fun _ => 0) (box.withBallot p v).voteItems with
      | some r => (true, { box.withBallot p v with confirmed := true, result := some r })
      | none => (false, box.withBallot p v) := by
  simp only [withBallot, hc] at hlen ⊢
  simp [addVote, hc, hlen]

/-- **The four outcomes of `AddVote`**: the box was already confirmed,
there are too few ballots, the count finds no value at the threshold, or
it finds one and the box confirms. -/
theorem addVote_cases (box : VoteBox A β) (p : A) (v : β) :
    (box.confirmed = true ∧ box.addVote p v = (false, box.withBallot p v)) ∨
    (box.confirmed = false ∧
      (box.withBallot p v).voteItems.length < box.confirmThreshold ∧
      box.addVote p v = (false, box.withBallot p v)) ∨
    (box.confirmed = false ∧
      firstReaching box.confirmThreshold (fun _ => 0) (box.withBallot p v).voteItems = none ∧
      box.addVote p v = (false, box.withBallot p v)) ∨
    (∃ r, box.confirmed = false ∧
      firstReaching box.confirmThreshold (fun _ => 0) (box.withBallot p v).voteItems = some r ∧
      box.addVote p v =
        (true, { box.withBallot p v with confirmed := true, result := some r })) := by
  cases hc : box.confirmed
  · by_cases hlen : (box.withBallot p v).voteItems.length < box.confirmThreshold
    · exact Or.inr (Or.inl ⟨rfl, hlen, addVote_of_short hc hlen⟩)
    · have heq := addVote_of_count hc hlen
      cases hr : firstReaching box.confirmThreshold (fun _ => 0) (box.withBallot p v).voteItems with
      | none => exact Or.inr (Or.inr (Or.inl ⟨rfl, rfl, by rw [heq, hr]⟩))
      | some r => exact Or.inr (Or.inr (Or.inr ⟨r, rfl, rfl, by rw [heq, hr]⟩))
  · exact Or.inl ⟨rfl, addVote_of_confirmed_eq hc p v⟩

/-- **`AddVote` keeps the invariant.** -/
theorem wf_addVote {box : VoteBox A β} (hw : WF box) (p : A) (v : β) :
    WF (box.addVote p v).2 := by
  have hnodup := nodup_voters_setVote (c := box.confirmed) (p := p) (v := v) hw.nodup
  rcases addVote_cases box p v with ⟨hc, heq⟩ | ⟨hc, hlen, heq⟩ | ⟨hc, hr, heq⟩ | ⟨r, hc, hr, heq⟩
  · -- already confirmed: the result stays, and its count cannot drop
    rw [heq]
    obtain ⟨r, hres, hcount⟩ := hw.confirmed_result hc
    refine ⟨hw.threshold_pos, hnodup, fun h => absurd (hc.symm.trans h) (by decide),
      fun _ => ⟨r, hres, ?_⟩⟩
    show box.confirmThreshold ≤ votesFor r (setVote box.confirmed p v box.voteItems)
    rw [hc]
    exact Nat.le_trans hcount (votesFor_setVote_confirmed p v r _)
  · -- too few ballots: no count can reach the threshold
    rw [heq]
    exact ⟨hw.threshold_pos, hnodup,
      fun _ => ⟨(hw.unconfirmed hc).1, fun u => Nat.lt_of_le_of_lt (votesFor_le_length u _) hlen⟩,
      fun h => absurd (hc.symm.trans h) (by decide)⟩
  · -- the count found nothing
    rw [heq]
    refine ⟨hw.threshold_pos, hnodup, fun _ => ⟨(hw.unconfirmed hc).1, fun u => ?_⟩,
      fun h => absurd (hc.symm.trans h) (by decide)⟩
    simpa using firstReaching_none hr u hw.threshold_pos
  · -- the count found `r`: the box confirms with it
    rw [heq]
    refine ⟨hw.threshold_pos, hnodup, fun h => ?_, fun _ => ⟨r, rfl, ?_⟩⟩
    · simp at h
    · simpa using firstReaching_some hr

/-- **The call that confirms a box confirms its own vote.** Before it, no
value was at the threshold; the ballot update raised only the count of the
new vote; so the value the count stops at is that vote. -/
theorem addVote_first_confirmed {box box' : VoteBox A β} {p : A} {v : β} (hw : WF box)
    (h : box.addVote p v = (true, box')) :
    box.confirmed = false ∧ box'.confirmed = true ∧ box'.result = some v ∧
      box'.voteItems = setVote false p v box.voteItems := by
  rcases addVote_cases box p v with ⟨-, heq⟩ | ⟨-, -, heq⟩ | ⟨-, -, heq⟩ | ⟨r, hc, hr, heq⟩
  · rw [heq] at h; cases h
  · rw [heq] at h; cases h
  · rw [heq] at h; cases h
  · rw [heq] at h
    cases h
    have hreach := firstReaching_some hr
    simp only [Nat.zero_add] at hreach
    have hrv : r = v := by
      by_contra hne
      -- a value other than the new vote only lost ballots, and was below the threshold
      have hle := votesFor_setVote_le (c := box.confirmed) (p := p) hne box.voteItems
      have hlt := ((hw.unconfirmed hc).2 r)
      omega
    subst hrv
    refine ⟨hc, rfl, rfl, ?_⟩
    show setVote box.confirmed p r box.voteItems = _
    rw [hc]

/-- Once confirmed, a box stays confirmed with the same result, keeps
every ballot, and never reports a first confirmation again. -/
theorem addVote_of_confirmed {box : VoteBox A β} (hc : box.confirmed = true) (p : A) (v : β) :
    (box.addVote p v).1 = false ∧ (box.addVote p v).2.confirmed = true ∧
      (box.addVote p v).2.result = box.result ∧
      ∀ item ∈ box.voteItems, item ∈ (box.addVote p v).2.voteItems := by
  rcases addVote_cases box p v with ⟨-, heq⟩ | ⟨hc', -⟩ | ⟨hc', -⟩ | ⟨_, hc', -⟩
  · rw [heq]
    refine ⟨rfl, hc, rfl, fun item hi => ?_⟩
    show item ∈ setVote box.confirmed p v box.voteItems
    rw [hc]
    exact mem_setVote_of_confirmed hi
  all_goals exact absurd (hc.symm.trans hc') (by decide)

omit [DecidableEq A] in
/-- **A confirmed box holds a quorum for its result**: its valid votes all
carry the result, come from distinct voters, and are at least the
threshold in number. -/
theorem validVotes_quorum {box : VoteBox A β} (hw : WF box) (hc : box.confirmed = true) :
    ∃ r, box.result = some r ∧ (∀ item ∈ box.validVotes, item.vote = r) ∧
      (voters box.validVotes).Nodup ∧ box.confirmThreshold ≤ box.validVotes.length := by
  obtain ⟨r, hres, hcount⟩ := hw.confirmed_result hc
  have hvalid : box.validVotes = box.voteItems.filter (fun item => item.vote = r) := by
    unfold validVotes
    rw [if_pos hc, hres]
    simp
  refine ⟨r, hres, fun item hi => ?_, ?_, ?_⟩
  · rw [hvalid] at hi
    simpa using (List.mem_filter.mp hi).2
  · rw [hvalid]
    exact hw.nodup.sublist (List.Sublist.map _ List.filter_sublist)
  · rw [hvalid, ← List.countP_eq_length_filter]
    exact hcount

/-! ## Runs of ballots -/

/-- The box after a run of ballots, each a voter and its vote. -/
def addVotes (box : VoteBox A β) (calls : List (A × β)) : VoteBox A β :=
  Transition.run (fun box c => (box.addVote c.1 c.2).2) box calls

/-- What each call of a run of ballots returned. -/
def addVoteFlags : VoteBox A β → List (A × β) → List Bool
  | _, [] => []
  | box, c :: cs => (box.addVote c.1 c.2).1 :: addVoteFlags (box.addVote c.1 c.2).2 cs

@[simp] theorem addVotes_nil (box : VoteBox A β) : box.addVotes [] = box := rfl

@[simp] theorem addVotes_cons (box : VoteBox A β) (c : A × β) (calls : List (A × β)) :
    box.addVotes (c :: calls) = (box.addVote c.1 c.2).2.addVotes calls := rfl

theorem confirmThreshold_addVote (box : VoteBox A β) (p : A) (v : β) :
    (box.addVote p v).2.confirmThreshold = box.confirmThreshold := by
  rcases addVote_cases box p v with ⟨-, heq⟩ | ⟨-, -, heq⟩ | ⟨-, -, heq⟩ | ⟨r, -, -, heq⟩ <;>
    rw [heq]

theorem confirmThreshold_addVotes :
    ∀ (box : VoteBox A β) (calls : List (A × β)),
      (box.addVotes calls).confirmThreshold = box.confirmThreshold
  | _, [] => rfl
  | box, c :: calls => by
    rw [addVotes_cons, confirmThreshold_addVotes, confirmThreshold_addVote]

/-- A call that reports a confirmation leaves the box confirmed. -/
theorem confirmed_of_addVote {box : VoteBox A β} {p : A} {v : β} (h : (box.addVote p v).1 = true) :
    (box.addVote p v).2.confirmed = true := by
  rcases addVote_cases box p v with ⟨-, heq⟩ | ⟨-, -, heq⟩ | ⟨-, -, heq⟩ | ⟨r, -, -, heq⟩ <;>
    rw [heq] at h ⊢
  all_goals first | rfl | cases h

theorem wf_addVotes {box : VoteBox A β} (hw : WF box) (calls : List (A × β)) :
    WF (box.addVotes calls) :=
  Transition.run_invariant (I := WF) (fun _ c hw => wf_addVote hw c.1 c.2) calls hw

/-- **A confirmed box stays as it is** along any run: no call reports a
confirmation, the result stays, and every ballot is kept. -/
theorem addVotes_of_confirmed {box : VoteBox A β} (hc : box.confirmed = true) :
    ∀ calls : List (A × β), true ∉ addVoteFlags box calls ∧
      (box.addVotes calls).confirmed = true ∧ (box.addVotes calls).result = box.result ∧
      ∀ item ∈ box.voteItems, item ∈ (box.addVotes calls).voteItems
  | [] => ⟨List.not_mem_nil, hc, rfl, fun _ hi => hi⟩
  | c :: calls => by
    obtain ⟨hflag, hc₁, hres₁, hitems₁⟩ := addVote_of_confirmed hc c.1 c.2
    obtain ⟨hflags, hc₂, hres₂, hitems₂⟩ := addVotes_of_confirmed hc₁ calls
    refine ⟨?_, hc₂, hres₂.trans hres₁, fun item hi => hitems₂ item (hitems₁ item hi)⟩
    rw [addVoteFlags, hflag]
    simpa using hflags

/-- A run in which some call reports a confirmation ends confirmed. -/
theorem confirmed_of_mem_addVoteFlags :
    ∀ {box : VoteBox A β} (calls : List (A × β)), true ∈ addVoteFlags box calls →
      (box.addVotes calls).confirmed = true
  | _, [], h => by cases h
  | box, c :: calls, h => by
    rw [addVoteFlags, List.mem_cons] at h
    rw [addVotes_cons]
    rcases h with h | h
    · -- this call confirmed, and the rest keeps the box confirmed
      exact (addVotes_of_confirmed (confirmed_of_addVote h.symm) calls).2.1
    · exact confirmed_of_mem_addVoteFlags calls h

/-- **A run of ballots split at a confirming call.** No other call of the
run reports a confirmation; the confirming call confirms the caller's own
vote, held by at least the threshold of distinct voters, and the valid
votes are exactly the ballots carrying it; afterwards the box stays
confirmed with that result and keeps every ballot. -/
theorem addVotes_split_confirmed {box₀ : VoteBox A β} (hw₀ : WF box₀) (pre : List (A × β))
    (p : A) (v : β) (post : List (A × β)) (h : ((box₀.addVotes pre).addVote p v).1 = true) :
    let box := ((box₀.addVotes pre).addVote p v).2
    (true ∉ addVoteFlags box₀ pre ∧ true ∉ addVoteFlags box post) ∧
      (box.result = some v ∧ box.validVotes = box.voteItems.filter (fun item => item.vote = v) ∧
        (voters box.validVotes).Nodup ∧ box₀.confirmThreshold ≤ box.validVotes.length) ∧
      ((box.addVotes post).confirmed = true ∧ (box.addVotes post).result = some v ∧
        ∀ item ∈ box.voteItems, item ∈ (box.addVotes post).voteItems) := by
  intro box
  have hw : WF (box₀.addVotes pre) := wf_addVotes hw₀ pre
  obtain ⟨hc₀, hc, hres, -⟩ := addVote_first_confirmed hw (Prod.ext h rfl)
  obtain ⟨r, hr, -, hnodup, hlen⟩ := validVotes_quorum (wf_addVote hw p v) hc
  have hrv : r = v := Option.some.inj (hr.symm.trans hres)
  subst hrv
  -- a confirmation before the call would have left the box confirmed
  have hpre : true ∉ addVoteFlags box₀ pre := fun hmem => by
    rw [confirmed_of_mem_addVoteFlags pre hmem] at hc₀
    cases hc₀
  obtain ⟨hpost, hc', hres', hitems⟩ := addVotes_of_confirmed hc post
  have hvalid : box.validVotes = box.voteItems.filter (fun item => item.vote = r) := by
    unfold validVotes
    rw [if_pos hc, hres]
    simp
  have hthreshold : box.confirmThreshold = box₀.confirmThreshold := by
    rw [confirmThreshold_addVote, confirmThreshold_addVotes]
  exact ⟨⟨hpre, hpost⟩, ⟨hres, hvalid, hnodup, hthreshold ▸ hlen⟩, ⟨hc', hres'.trans hres, hitems⟩⟩

end VoteBox

end Evidence
