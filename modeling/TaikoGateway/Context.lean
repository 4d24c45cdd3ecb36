/-
TaikoGateway/Context.lean

What the sequencer knows of the two chains (`SequencerContext`): the headers
of L1 blocks, from which anchors are taken, and the L2 blocks that are not yet
proposed, whose last one is the parent of the next block.  L2 blocks come from
this gateway and from others.

The timestamp of the last L2 block received is only logged, and is left out.
-/
import TaikoGateway.Sorting

namespace TaikoGateway

/-- What the sequencer is doing. -/
inductive SequencerState
  /-- syncing L1 and L2 blocks -/
  | sync (lastL1 : Nat)
  /-- simulated the anchor and sequencing user txs -/
  | sorting (sortData : SortData)

/-- `SequencerState::default()` -/
def SequencerState.default : SequencerState := .sync 0

namespace SequencerState

/-- The block under construction. -/
def sortData? : SequencerState → Option SortData
  | .sync _ => none
  | .sorting sortData => some sortData

theorem sortData?_eq_some {state : SequencerState} {sd : SortData} :
    state.sortData? = some sd ↔ state = .sorting sd := by
  cases state with
  | sync lastL1 => simp [sortData?]
  | sorting sortData => simp [sortData?]

end SequencerState

structure SequencerContext where
  coinbase : Address
  l1SafeLag : Nat
  lastL1Receive : Instant
  state : SequencerState
  /-- anchor data to use for next batches -/
  anchor : Option AnchorParams
  /-- L2 blocks by number, the unproposed ones -/
  l2Headers : List ParentParams
  /-- last L1 headers, with a buffer for L1 reorgs -/
  l1Headers : BTreeMap Header
  /-- our L2 blocks which are not yet confirmed by L1 -/
  toVerify : BTreeMap Header
  /-- anchor block id of the parent block -/
  parentAnchorBlockId : Nat

namespace SequencerContext

def new (l1SafeLag : Nat) (coinbase : Address) (now : Instant) : SequencerContext :=
  { coinbase := coinbase
    l1SafeLag := l1SafeLag
    lastL1Receive := now
    state := .default
    anchor := none
    l2Headers := []
    l1Headers := ∅
    toVerify := ∅
    parentAnchorBlockId := 0 }

def newL1Block (ctx : SequencerContext) (newHeader : Header) (now : Instant) : SequencerContext :=
  let kept := ctx.l1Headers.filter fun n _ => decide (u64Sub newHeader.number ctx.l1SafeLag ≤ n)
  { ctx with
    l1Headers := kept.insert newHeader.number newHeader
    lastL1Receive := now }

/-- Makes a block the parent of the next one.  A block without transactions is
skipped; one whose anchor does not decode becomes the parent but leaves the
anchor block id as it was. -/
def updateParentBlockId (ctx : SequencerContext) (block : Block) :
    Except Panic SequencerContext :=
  match block.transactions.asTransactions.bind (·.head?) with
  | none => .ok ctx
  | some blockAnchor =>
      if blockAnchor.fromAddr ≠ goldenTouchAddress then .error .anchorNotGoldenTouch
      else do
        let parentParams ← ParentParams.fromHeaderAndAnchorNonce block blockAnchor.inner.nonce
        let ctx := { ctx with l2Headers := ctx.l2Headers ++ [parentParams] }
        match blockAnchor.inner.input.abiDecode with
        | none => .ok ctx
        | some anchorCall => .ok { ctx with parentAnchorBlockId := anchorCall.anchorBlockId }

/-- Inserts a preconfirmed L2 block, ours or another gateway's; returns whether
a reorg happened. -/
def newPreconfL2Block (ctx : SequencerContext) (newBlock : Block) :
    Except Panic (Bool × SequencerContext) :=
  let header := newBlock.header
  let ctx :=
    if header.beneficiary = ctx.coinbase then
      { ctx with toVerify := ctx.toVerify.insert header.number header }
    else ctx
  match ctx.l2Headers.getLast? with
  | none => do
      -- first block
      let ctx ← ctx.updateParentBlockId newBlock
      .ok (false, ctx)
  | some lastSeen =>
      if lastSeen.blockNumber + 1 = header.number ∧ lastSeen.hash = header.parentHash then do
        -- happy case, we have the previous block
        let ctx ← ctx.updateParentBlockId newBlock
        .ok (false, ctx)
      else
        match ctx.l2Headers.find? (fun p => p.blockNumber = header.number) with
        | some seen =>
            if seen.hash ≠ header.hash then do
              -- reorg, reset this and all following blocks
              let ctx ← updateParentBlockId
                { ctx with
                  l2Headers := ctx.l2Headers.takeWhile fun p => p.blockNumber ≠ header.number
                  toVerify := ctx.toVerify.filter fun bn _ => decide (bn < header.number) }
                newBlock
              .ok (true, ctx)
            else .ok (false, ctx) -- saw this block before
        | none =>
            if lastSeen.blockNumber < header.number then do
              -- missed some blocks
              let ctx ← ctx.updateParentBlockId newBlock
              .ok (false, ctx)
            else .ok (false, ctx) -- missed some previous blocks

/-- A block of ours that L1 confirmed must be the one we built. -/
def newOriginL2Block (ctx : SequencerContext) (newHeader : Header) :
    Except Panic SequencerContext := do
  let toVerify ←
    match ctx.toVerify[newHeader.number]? with
    | some preconfHeader =>
        if preconfHeader.hash ≠ newHeader.hash then .error .blockVerifyMismatch
        else .ok (ctx.toVerify.erase newHeader.number)
    | none =>
        match ctx.toVerify.toList.head? with
        | some (bn, _) =>
            -- we missed some blocks
            if bn < newHeader.number then
              .ok (ctx.toVerify.filter fun bn _ => decide (newHeader.number < bn))
            else .ok ctx.toVerify
        | none => .ok ctx.toVerify
  -- prune L2 blocks, keep the last origin block
  .ok { ctx with
    toVerify := toVerify
    l2Headers := ctx.l2Headers.dropWhile fun p => p.blockNumber < newHeader.number }

/-- The header with the lowest number. -/
def safeL1Header (ctx : SequencerContext) : Option Header :=
  ctx.l1Headers.toList.head?.map Prod.snd

def l2Parent (ctx : SequencerContext) : Except Panic ParentParams :=
  match ctx.l2Headers.getLast? with
  | some parent => .ok parent
  | none => .error .l2HeadersEmpty

/-! ### What the operations change -/

variable {ctx ctx' : SequencerContext}

theorem l2Parent_mem {parent : ParentParams} (h : ctx.l2Parent = .ok parent) :
    parent ∈ ctx.l2Headers := by
  rw [l2Parent] at h
  split at h
  · rename_i last hlast
    cases h
    exact List.mem_of_getLast? hlast
  · cases h

/-- A block that becomes the parent is pushed with its own data; one without
transactions is ignored. -/
theorem updateParentBlockId_cases {block : Block} (h : ctx.updateParentBlockId block = .ok ctx') :
    (block.transactions.asTransactions.bind (·.head?) = none ∧ ctx' = ctx) ∨
      ∃ parent parentAnchorBlockId, block.transactions.asTransactions.bind (·.head?) ≠ none ∧
        ctx' = { ctx with
          l2Headers := ctx.l2Headers ++ [parent], parentAnchorBlockId := parentAnchorBlockId } ∧
        parent.beneficiary = block.header.beneficiary ∧
        parent.block = block ∧ parent.blockNumber = block.header.number ∧
        parent.hash = block.header.hash ∧ parent.timestamp = block.header.timestamp := by
  simp only [updateParentBlockId] at h
  split at h
  · rename_i hnone
    cases h
    exact Or.inl ⟨hnone, rfl⟩
  · rename_i blockAnchor htx
    have hne : block.transactions.asTransactions.bind (·.head?) ≠ none := by
      rw [htx]
      exact Option.some_ne_none blockAnchor
    split at h
    · cases h
    · obtain ⟨parent, hparent, h⟩ := Except.bind_eq_ok_iff.mp h
      simp only [ParentParams.fromHeaderAndAnchorNonce] at hparent
      split at hparent
      · cases hparent
        split at h
        · cases h
          exact Or.inr ⟨_, ctx.parentAnchorBlockId, hne, rfl, rfl, rfl, rfl, rfl, rfl⟩
        · cases h
          exact Or.inr ⟨_, _, hne, rfl, rfl, rfl, rfl, rfl, rfl⟩
      · cases hparent

/-- `ctx'` differs from `ctx` in what it knows of L2 blocks; the parameters it
has of them were there before, or are those of the new block. -/
def L2Update (newBlock : Block) (ctx ctx' : SequencerContext) : Prop :=
  ∃ l2Headers toVerify parentAnchorBlockId,
    ctx' = { ctx with
      l2Headers := l2Headers, toVerify := toVerify
      parentAnchorBlockId := parentAnchorBlockId } ∧
    ∀ parent ∈ l2Headers, parent ∈ ctx.l2Headers ∨
      parent.block = newBlock ∧ parent.blockNumber = newBlock.header.number ∧
        parent.hash = newBlock.header.hash ∧ parent.timestamp = newBlock.header.timestamp

theorem L2Update.of_subset {newBlock : Block} {l2Headers : List ParentParams}
    (h : ∀ parent ∈ l2Headers, parent ∈ ctx.l2Headers) (toVerify : BTreeMap Header) :
    L2Update newBlock ctx { ctx with l2Headers := l2Headers, toVerify := toVerify } :=
  ⟨l2Headers, toVerify, ctx.parentAnchorBlockId, rfl, fun parent hp => Or.inl (h parent hp)⟩

theorem L2Update.push {newBlock : Block} {c c' : SequencerContext}
    (h : L2Update newBlock ctx c) (hc : c.updateParentBlockId newBlock = .ok c') :
    L2Update newBlock ctx c' := by
  obtain ⟨l2Headers, toVerify, id, rfl, hmem⟩ := h
  rcases updateParentBlockId_cases hc with ⟨-, rfl⟩ | ⟨parent, id', -, rfl, -, hparent⟩
  · exact ⟨l2Headers, toVerify, id, rfl, hmem⟩
  · refine ⟨l2Headers ++ [parent], toVerify, id', rfl, fun p hp => ?_⟩
    rcases List.mem_append.mp hp with hp | hp
    · exact hmem p hp
    · rw [List.mem_singleton.mp hp]
      exact Or.inr hparent

/-- A preconfirmed block is an `L2Update`. -/
theorem newPreconfL2Block_cases {newBlock : Block} {reorged : Bool}
    (h : ctx.newPreconfL2Block newBlock = .ok (reorged, ctx')) : L2Update newBlock ctx ctx' := by
  simp only [newPreconfL2Block] at h
  -- what is noted for verification does not matter to the rest
  obtain ⟨toVerify, htoVerify⟩ : ∃ toVerify,
      (if newBlock.header.beneficiary = ctx.coinbase then
        { ctx with toVerify := ctx.toVerify.insert newBlock.header.number newBlock.header }
      else ctx) = { ctx with toVerify := toVerify } := by
    split
    · exact ⟨_, rfl⟩
    · exact ⟨ctx.toVerify, rfl⟩
  rw [htoVerify] at h
  have hkeep : L2Update newBlock ctx { ctx with toVerify := toVerify } :=
    .of_subset (fun _ hp => hp) toVerify
  have hpush : ∀ {c : SequencerContext} {r : Bool}, L2Update newBlock ctx c →
      (c.updateParentBlockId newBlock >>= fun c => .ok (r, c)) = .ok (reorged, ctx') →
      L2Update newBlock ctx ctx' := by
    intro c r hc h
    obtain ⟨c', hc', hok⟩ := Except.bind_eq_ok_iff.mp h
    cases hok
    exact hc.push hc'
  split at h
  · exact hpush hkeep h
  · split at h
    · exact hpush hkeep h
    · split at h
      · split at h
        · -- a reorg drops the blocks from this one on
          refine hpush (.of_subset (fun p hp => ?_) _) h
          exact (List.takeWhile_sublist _).subset hp
        · cases h
          exact hkeep
      · split at h
        · exact hpush hkeep h
        · cases h
          exact hkeep

/-- A confirmed block only prunes. -/
theorem newOriginL2Block_cases {newHeader : Header}
    (h : ctx.newOriginL2Block newHeader = .ok ctx') :
    ∃ l2Headers toVerify, ctx' = { ctx with l2Headers := l2Headers, toVerify := toVerify } ∧
      ∀ parent ∈ l2Headers, parent ∈ ctx.l2Headers := by
  have hprune : ∀ toVerify : BTreeMap Header,
      Except.ok ({ ctx with
        toVerify := toVerify
        l2Headers := ctx.l2Headers.dropWhile fun p => p.blockNumber < newHeader.number } :
          SequencerContext) = (.ok ctx' : Except Panic SequencerContext) →
      ∃ l2Headers toVerify, ctx' = { ctx with l2Headers := l2Headers, toVerify := toVerify } ∧
        ∀ parent ∈ l2Headers, parent ∈ ctx.l2Headers := by
    intro toVerify h
    cases h
    exact ⟨_, toVerify, rfl, fun p hp => (List.dropWhile_sublist _).subset hp⟩
  simp only [newOriginL2Block] at h
  split at h
  · split at h
    · cases h
    · exact hprune _ h
  · split at h
    · split at h
      · exact hprune _ h
      · exact hprune _ h
    · exact hprune _ h

end SequencerContext

end TaikoGateway
