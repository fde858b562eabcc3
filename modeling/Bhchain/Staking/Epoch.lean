import Bhchain.Transfer.Balance

/-!
# Key node epochs (`x/staking/keeper/epoch.go`, `x/staking/proposal_handler.go`)

The key nodes that sign for the custody units change by epochs. An epoch
is stored under its index, and its start height is indexed to its index;
the current epoch at a height is the one of the latest start height not
above it (`GetEpochByHeight`, a reverse iteration). `StartNewEpoch` closes
the current epoch at the block's height and opens the next index at the
next height; outside genesis the new epoch starts a key migration, which
`SetMigrationFinished` marks as done.

Governance changes the key nodes by an `UpdateKeyNodesProposal`. Its
handler refuses while the current epoch's migration is unfinished, which
is meant to keep one migration at a time. But the gov end-blocker runs
every passing proposal of a block, each in a cache context written back on
success, at the same height; and at that height the current epoch is still
the old one, whose migration is finished, since the new one starts at the
next height. A second proposal of the block passes the check, closes the
old epoch again, and writes the same new index over the first one with
its own key nodes, starting a second migration to it
(`second_proposal_overwrites_new_epoch`). In general, from every store
whose start heights point to stored epochs (`State.Indexed`, which every
run keeps), a passing proposal leaves the epoch current at its height as
it was (`handleUpdateKeyNodesProposal_current`), and every passing
proposal of a block starts the same epoch (`step_govEndBlock_migrations`).

`AfterNewEpoch` is modelled by the record of the epochs it was called for;
what it does to the other modules is left out.
-/

namespace Staking

open Sdk Transfer Transition

/-- **`sdk.Epoch`**. An `EndBlockNum` of `0` is an open epoch. -/
structure Epoch where
  index : ℕ
  startBlockNum : ℕ
  endBlockNum : ℕ
  keyNodeSet : List CUAddress
  migrationFinished : Bool
  deriving DecidableEq, Repr

/-- The zero `Epoch` that `GetEpoch` returns for a missing index. -/
def Epoch.zero : Epoch := ⟨0, 0, 0, [], false⟩

/-- What the proposal handler reads of a validator. -/
structure Validator where
  jailed : Bool
  tokens : ℤ
  lastKeyNodeHeartbeatHeight : ℕ
  deriving DecidableEq, Repr

/-- `CanBeKeyNode`. -/
def Validator.canBeKeyNode (v : Validator) (minDelegation : ℤ) : Bool :=
  !v.jailed && decide (minDelegation ≤ v.tokens)

/-- The staking parameters and validators the proposal handler reads. -/
structure Env where
  minKeyNodeDelegation : ℤ
  maxCandidateKeyNodeHeartbeatInterval : ℕ
  maxKeyNodes : ℕ
  getValidator : CUAddress → Option Validator

/-- **The epoch store**: `EpochKey` by index, `EpochByHeightKey` by start
height, and the epochs `AfterNewEpoch` was called for, in order. -/
structure State where
  epochs : ℕ → Option Epoch
  epochByHeight : ℕ → Option ℕ
  migrations : List ℕ

namespace State

/-- An empty store. -/
def empty : State := ⟨fun _ => none, fun _ => none, []⟩

/-- `GetEpoch`, with the zero epoch when the index is missing. -/
def getEpoch (s : State) (index : ℕ) : Epoch := (s.epochs index).getD Epoch.zero

/-- **`GetEpochByHeight`**: the reverse iteration over the start heights up
to `height`; without one, epoch `1` with its migration finished. -/
def getEpochByHeight (s : State) (height : ℕ) : Epoch :=
  match ((List.range (height + 1)).reverse.findSome? s.epochByHeight) with
  | some index => s.getEpoch index
  | none => { Epoch.zero with migrationFinished := true, index := 1 }

/-- `SetEpoch`. -/
def setEpoch (s : State) (epoch : Epoch) : State :=
  { s with epochs := Function.update s.epochs epoch.index (some epoch) }

/-- `SetEpochByHeight`. -/
def setEpochByHeight (s : State) (epoch : Epoch) : State :=
  { s with epochByHeight := Function.update s.epochByHeight epoch.startBlockNum (some epoch.index) }

/-- **`StartNewEpoch`** at the block's height. -/
def startNewEpoch (s : State) (height : ℕ) (vals : List CUAddress) : Epoch × State :=
  let (lastIndex, migrationFinished, s) :=
    if height = 0 then (0, true, s)
    else
      let currentEpoch := { s.getEpochByHeight height with endBlockNum := height }
      (currentEpoch.index, false, s.setEpoch currentEpoch)
  let newEpoch : Epoch := ⟨lastIndex + 1, height + 1, 0, vals, migrationFinished⟩
  (newEpoch, (s.setEpoch newEpoch).setEpochByHeight newEpoch)

/-- `IsMigrationFinished`. -/
def isMigrationFinished (s : State) (height : ℕ) : Bool := (s.getEpochByHeight height).migrationFinished

/-- `SetMigrationFinished`. -/
def setMigrationFinished (s : State) (height : ℕ) : State :=
  s.setEpoch { s.getEpochByHeight height with migrationFinished := true }

/-- `AfterNewEpoch`, as the record of the migration it starts. -/
def afterNewEpoch (s : State) (epoch : Epoch) : State := { s with migrations := s.migrations ++ [epoch.index] }

end State

/-- **`UpdateKeyNodesProposal`**, without its title and description. -/
structure UpdateKeyNodesProposal where
  addKeyNodes : List CUAddress
  removeKeyNodes : List CUAddress
  deriving DecidableEq, Repr

/-- `OneSixthCeil`. -/
def oneSixthCeil (num : ℕ) : ℕ := (num + 5) / 6

def errBadUpdateKeyNodesTime : Failure :=
  .error .stakingInvalidInput "cannot update keynodes until migration finishes"

def errRemoveTooManyKeyNodes : Failure := .error .invalidValidator "removing too many keynodes"

def errRemoveNotKeyNode : Failure := .error .invalidValidator "not a key node"

def errAddDuplicatedKeyNode : Failure := .error .invalidValidator "add duplicated key node"

def errNoValidatorFound : Failure := .error .invalidValidator "validator does not exist for that address"

def errNoQualification : Failure := .error .invalidValidator "validator has no qualification to be keynode"

def errKeyNodeNumExceeds : Failure := .error .invalidValidator "key node number exceeds the threshold"

/-- The removal loop of the proposal handler: each removed address must be
a key node, and leaves the list at its first occurrence. -/
def removeKeyNodes (curKeyNodes : List CUAddress) : List CUAddress → Except Failure (List CUAddress)
  | [] => .ok curKeyNodes
  | addr :: addrs => do
    failIf (addr ∉ curKeyNodes) errRemoveNotKeyNode
    removeKeyNodes (curKeyNodes.erase addr) addrs

/-- The addition loop of the proposal handler: each added address must be
new, a qualified validator with a recent heartbeat (the `uint64`
difference of heights), and fit under `MaxKeyNodes`. -/
def addKeyNodes (env : Env) (blkHeight : ℕ) (curKeyNodes : List CUAddress) :
    List CUAddress → Except Failure (List CUAddress)
  | [] => .ok curKeyNodes
  | addr :: addrs => do
    failIf (addr ∈ curKeyNodes) errAddDuplicatedKeyNode
    let validator ← orFail (env.getValidator addr) errNoValidatorFound
    failIf (!validator.canBeKeyNode env.minKeyNodeDelegation ∨ validator.lastKeyNodeHeartbeatHeight = 0 ∨
        (blkHeight + 2 ^ 64 - validator.lastKeyNodeHeartbeatHeight) % 2 ^ 64 >
          env.maxCandidateKeyNodeHeartbeatInterval)
      errNoQualification
    failIf (curKeyNodes.length ≥ env.maxKeyNodes) errKeyNodeNumExceeds
    addKeyNodes env blkHeight (curKeyNodes ++ [addr]) addrs

/-- **`handleUpdateKeyNodesProposal`** at the block's height. -/
def handleUpdateKeyNodesProposal (env : Env) (s : State) (height : ℕ)
    (proposal : UpdateKeyNodesProposal) : Except Failure State := do
  failIf (!s.isMigrationFinished height) errBadUpdateKeyNodesTime
  let curKeyNodes := (s.getEpochByHeight height).keyNodeSet
  let maxRemoveNum := oneSixthCeil curKeyNodes.length
  failIf (proposal.removeKeyNodes.length > maxRemoveNum ∨
      proposal.removeKeyNodes.length ≥ curKeyNodes.length)
    errRemoveTooManyKeyNodes
  let curKeyNodes ← removeKeyNodes curKeyNodes proposal.removeKeyNodes
  let curKeyNodes ← addKeyNodes env height curKeyNodes proposal.addKeyNodes
  let (epoch, s) := s.startNewEpoch height curKeyNodes
  pure (s.afterNewEpoch epoch)

/-- The events of the chain that touch the epochs. -/
inductive Event where
  /-- `InitGenesis`: the first epoch, at height `0` -/
  | genesis (keyNodes : List CUAddress)
  /-- the gov end-blocker of a block, with the proposals that passed, in
  queue order -/
  | govEndBlock (height : ℕ) (passed : List UpdateKeyNodesProposal)
  /-- `checkOpcusMigrationStatus` marking the migration finished -/
  | migrationFinished (height : ℕ)

/-- **One event.** Each passing proposal runs in its own cache context,
written back only when it succeeds. -/
def step (env : Env) (s : State) : Event → State
  | .genesis keyNodes => (s.startNewEpoch 0 keyNodes).2
  | .govEndBlock height passed =>
    run (fun s proposal => commit (fun s => handleUpdateKeyNodesProposal env s height proposal) s) s passed
  | .migrationFinished height => s.setMigrationFinished height

/-! ## The current epoch at the height of a change -/

namespace State

variable {s : State}

@[simp] theorem setEpoch_epochs (s : State) (epoch : Epoch) :
    (s.setEpoch epoch).epochs = Function.update s.epochs epoch.index (some epoch) := rfl

@[simp] theorem setEpoch_epochByHeight (s : State) (epoch : Epoch) :
    (s.setEpoch epoch).epochByHeight = s.epochByHeight := rfl

@[simp] theorem setEpoch_migrations (s : State) (epoch : Epoch) :
    (s.setEpoch epoch).migrations = s.migrations := rfl

@[simp] theorem setEpochByHeight_epochs (s : State) (epoch : Epoch) :
    (s.setEpochByHeight epoch).epochs = s.epochs := rfl

@[simp] theorem setEpochByHeight_epochByHeight (s : State) (epoch : Epoch) :
    (s.setEpochByHeight epoch).epochByHeight =
      Function.update s.epochByHeight epoch.startBlockNum (some epoch.index) := rfl

@[simp] theorem setEpochByHeight_migrations (s : State) (epoch : Epoch) :
    (s.setEpochByHeight epoch).migrations = s.migrations := rfl

@[simp] theorem afterNewEpoch_migrations (s : State) (epoch : Epoch) :
    (s.afterNewEpoch epoch).migrations = s.migrations ++ [epoch.index] := rfl

/-- `AfterNewEpoch` does not touch the epoch store. -/
@[simp] theorem getEpochByHeight_afterNewEpoch (s : State) (epoch : Epoch) (height : ℕ) :
    (s.afterNewEpoch epoch).getEpochByHeight height = s.getEpochByHeight height := rfl

/-- **Every start height is indexed to a stored epoch of that index**, as
`SetEpoch` and `SetEpochByHeight` write them. -/
def Indexed (s : State) : Prop :=
  ∀ height index, s.epochByHeight height = some index → ∃ e, s.epochs index = some e ∧ e.index = index

theorem indexed_empty : empty.Indexed := fun _ _ h => nomatch h

theorem Indexed.setEpoch (hs : s.Indexed) (epoch : Epoch) : (s.setEpoch epoch).Indexed := by
  intro height index hidx
  obtain ⟨e, he, hindex⟩ := hs height index hidx
  by_cases hi : index = epoch.index
  · exact ⟨epoch, by simp [hi], hi.symm⟩
  · exact ⟨e, by simp [Function.update_of_ne hi, he], hindex⟩

/-- An epoch just stored may be indexed by its start height. -/
theorem Indexed.setEpochByHeight (hs : s.Indexed) {epoch : Epoch}
    (hstored : s.epochs epoch.index = some epoch) : (s.setEpochByHeight epoch).Indexed := by
  intro height index hidx
  by_cases hh : height = epoch.startBlockNum
  · subst hh
    simp only [setEpochByHeight_epochByHeight, Function.update_self, Option.some.injEq] at hidx
    subst hidx
    exact ⟨epoch, hstored, rfl⟩
  · simp only [setEpochByHeight_epochByHeight, Function.update_of_ne hh] at hidx
    exact hs height index hidx

/-- **`StartNewEpoch` outside genesis**: the current epoch closed at the
height, and the next index opened at the next height. -/
theorem startNewEpoch_of_pos {height : ℕ} (hpos : 0 < height) (vals : List CUAddress) :
    s.startNewEpoch height vals =
      let currentEpoch := { s.getEpochByHeight height with endBlockNum := height }
      let newEpoch : Epoch := ⟨currentEpoch.index + 1, height + 1, 0, vals, false⟩
      (newEpoch, ((s.setEpoch currentEpoch).setEpoch newEpoch).setEpochByHeight newEpoch) := by
  simp [startNewEpoch, Nat.pos_iff_ne_zero.mp hpos]

/-- `StartNewEpoch` at genesis: epoch `1`, its migration finished. -/
theorem startNewEpoch_zero (vals : List CUAddress) :
    s.startNewEpoch 0 vals =
      (⟨1, 1, 0, vals, true⟩, (s.setEpoch ⟨1, 1, 0, vals, true⟩).setEpochByHeight ⟨1, 1, 0, vals, true⟩) :=
  rfl

theorem Indexed.startNewEpoch (hs : s.Indexed) (height : ℕ) (vals : List CUAddress) :
    (s.startNewEpoch height vals).2.Indexed := by
  rcases Nat.eq_zero_or_pos height with rfl | hpos
  · -- genesis writes the new epoch only
    rw [startNewEpoch_zero]
    exact (hs.setEpoch _).setEpochByHeight (by simp)
  · rw [startNewEpoch_of_pos hpos]
    exact ((hs.setEpoch _).setEpoch _).setEpochByHeight (by simp)

theorem Indexed.setMigrationFinished (hs : s.Indexed) (height : ℕ) :
    (s.setMigrationFinished height).Indexed :=
  hs.setEpoch _

/-- A search that never reads `start` does not see what is stored there. -/
theorem findSome?_update_of_not_mem {f : ℕ → Option ℕ} {start : ℕ} (v : Option ℕ) :
    ∀ {l : List ℕ}, start ∉ l → l.findSome? (Function.update f start v) = l.findSome? f
  | [], _ => rfl
  | x :: xs, hnot => by
    rw [List.mem_cons, not_or] at hnot
    simp only [List.findSome?_cons, Function.update_of_ne (Ne.symm hnot.1),
      findSome?_update_of_not_mem v hnot.2]

/-- **At the height of `StartNewEpoch`, the current epoch is still the old
one**, with its index, key nodes and migration flag: the new epoch starts
at the next height. -/
theorem getEpochByHeight_startNewEpoch (hs : s.Indexed) {height : ℕ} (hpos : 0 < height)
    (vals : List CUAddress) :
    let e := s.getEpochByHeight height
    let e' := (s.startNewEpoch height vals).2.getEpochByHeight height
    e'.index = e.index ∧ e'.keyNodeSet = e.keyNodeSet ∧ e'.migrationFinished = e.migrationFinished := by
  rw [startNewEpoch_of_pos hpos]
  unfold getEpochByHeight
  simp only [setEpochByHeight_epochByHeight, setEpoch_epochByHeight]
  rw [findSome?_update_of_not_mem _ (by simp)]
  rcases hfind : (List.range (height + 1)).reverse.findSome? s.epochByHeight with _ | index
  · simp
  · -- the search found a start height indexed to `index`, stored under it
    obtain ⟨start, -, hstart⟩ := List.exists_of_findSome?_eq_some hfind
    obtain ⟨e, he, rfl⟩ := hs start _ hstart
    simp [getEpoch, he]

end State

variable {env : Env} {s s' : State} {height : ℕ} {proposal : UpdateKeyNodesProposal}

/-- What a passing proposal does: under a finished migration, it starts a
new epoch of some key nodes. -/
theorem handleUpdateKeyNodesProposal_eq_ok
    (h : handleUpdateKeyNodesProposal env s height proposal = .ok s') :
    s.isMigrationFinished height = true ∧
      ∃ vals, s' = (s.startNewEpoch height vals).2.afterNewEpoch (s.startNewEpoch height vals).1 := by
  simp only [handleUpdateKeyNodesProposal, bind_eq_ok, failIf_eq_ok, pure_eq_ok] at h
  obtain ⟨-, hfinished, -, -, removed, -, vals, -, rfl⟩ := h
  exact ⟨by simpa using hfinished, vals, rfl⟩

/-- **A passing proposal starts the epoch after the current one, and leaves
the current one as it was**, so that the next proposal of the block is
checked against the same epoch. -/
theorem handleUpdateKeyNodesProposal_current (hs : s.Indexed) (hpos : 0 < height)
    (h : handleUpdateKeyNodesProposal env s height proposal = .ok s') :
    s'.Indexed ∧ (s'.getEpochByHeight height).index = (s.getEpochByHeight height).index ∧
      (s'.getEpochByHeight height).keyNodeSet = (s.getEpochByHeight height).keyNodeSet ∧
      s'.isMigrationFinished height = s.isMigrationFinished height ∧
      s'.migrations = s.migrations ++ [(s.getEpochByHeight height).index + 1] := by
  obtain ⟨-, vals, rfl⟩ := handleUpdateKeyNodesProposal_eq_ok h
  obtain ⟨hindex, hkeys, hfinished⟩ := State.getEpochByHeight_startNewEpoch hs hpos vals
  refine ⟨hs.startNewEpoch height vals, hindex, hkeys, hfinished, ?_⟩
  simp [State.startNewEpoch_of_pos hpos]

/-- **Every passing proposal of a block starts the same epoch.** The gov
end-blocker at a height after genesis appends to the migrations, once per
proposal that passes, the index after the epoch current at that height;
the check against an unfinished migration never sees the earlier ones. -/
theorem step_govEndBlock_migrations (hs : s.Indexed) (hpos : 0 < height)
    (passed : List UpdateKeyNodesProposal) :
    ∃ k, (step env s (.govEndBlock height passed)).migrations =
      s.migrations ++ List.replicate k ((s.getEpochByHeight height).index + 1) := by
  -- the run over the proposals keeps the store indexed and the current
  -- epoch's index, and appends only that index plus one
  suffices hrun : ∀ (t : State) (passed : List UpdateKeyNodesProposal), t.Indexed →
      (t.getEpochByHeight height).index = (s.getEpochByHeight height).index →
      ∃ k, (run (fun t p => commit (fun t => handleUpdateKeyNodesProposal env t height p) t) t
        passed).migrations = t.migrations ++ List.replicate k ((s.getEpochByHeight height).index + 1) by
    exact hrun s passed hs rfl
  intro t passed
  induction passed generalizing t with
  | nil => exact fun _ _ => ⟨0, by simp⟩
  | cons p ps ih =>
    intro ht hindex
    rcases hp : handleUpdateKeyNodesProposal env t height p with e | t'
    · -- a failed proposal is rolled back
      simpa [commit_of_error (f := fun t => handleUpdateKeyNodesProposal env t height p) hp]
        using ih t ht hindex
    · obtain ⟨ht', hindex', -, -, hmig⟩ := handleUpdateKeyNodesProposal_current ht hpos hp
      obtain ⟨k, hk⟩ := ih t' ht' (hindex'.trans hindex)
      refine ⟨k + 1, ?_⟩
      simp only [run_cons, commit_of_ok (f := fun t => handleUpdateKeyNodesProposal env t height p) hp,
        hk, hmig, hindex, List.append_assoc]
      simp [List.replicate_succ]

theorem step_indexed (hs : s.Indexed) (event : Event) : (step env s event).Indexed := by
  cases event with
  | genesis keyNodes => exact hs.startNewEpoch 0 keyNodes
  | govEndBlock height passed =>
    refine run_invariant (I := State.Indexed)
      (fun t p ht => commit_preserves (fun t' hp => ?_) ht) passed hs
    obtain ⟨-, vals, rfl⟩ := handleUpdateKeyNodesProposal_eq_ok hp
    exact ht.startNewEpoch height vals
  | migrationFinished height => exact hs.setMigrationFinished height

/-- Every store the chain reaches is indexed. -/
theorem indexed_of_reachable (h : Reachable (step env) State.empty s) : s.Indexed :=
  h.invariant State.indexed_empty fun _ event ht => step_indexed ht event

/-! ## Two proposals in one block -/

/-- Seven key nodes. -/
def sevenKeyNodes : List CUAddress := ["n1", "n2", "n3", "n4", "n5", "n6", "n7"]

/-- No validator is looked up: the proposals only remove key nodes. -/
def epochEnv : Env := ⟨0, 0, 100, fun _ => none⟩

/-- The store after the genesis epoch `1` of the seven key nodes. -/
def sevenGenesis : State := step epochEnv State.empty (.genesis sevenKeyNodes)

/-- **A second proposal of a block overwrites the new epoch.** After the
genesis epoch `1` of seven key nodes, two proposals pass in the block at
height `10`, one removing `n7` and one removing `n6`. The first starts
epoch `2` without `n7`; the second, checked against epoch `1` again,
writes epoch `2` once more, without `n6` but with `n7`, and starts a
second migration to it. -/
theorem second_proposal_overwrites_new_epoch :
    ((step epochEnv sevenGenesis (.govEndBlock 10 [⟨[], ["n7"]⟩])).epochs 2).map Epoch.keyNodeSet =
        some ["n1", "n2", "n3", "n4", "n5", "n6"] ∧
      ((step epochEnv sevenGenesis (.govEndBlock 10 [⟨[], ["n7"]⟩, ⟨[], ["n6"]⟩])).epochs 2).map
        Epoch.keyNodeSet = some ["n1", "n2", "n3", "n4", "n5", "n7"] ∧
      (step epochEnv sevenGenesis (.govEndBlock 10 [⟨[], ["n7"]⟩, ⟨[], ["n6"]⟩])).migrations = [2, 2] ∧
      ((step epochEnv sevenGenesis (.govEndBlock 10 [⟨[], ["n7"]⟩, ⟨[], ["n6"]⟩])).epochs 2).map
        Epoch.migrationFinished = some false ∧
      (step epochEnv sevenGenesis (.govEndBlock 10 [⟨[], ["n7"]⟩, ⟨[], ["n6"]⟩])).epochs 3 = none := by
  decide +kernel

end Staking
