/-
TaikoGateway/Resync.lean

Proposing again the blocks that are on the L2 chain but not yet on L1
(`resync`).  The blocks are grouped by the anchor they carry and every group is
checked against the rules of the inbox.  If all groups pass, the same batches
are proposed, one anchor after the other; otherwise all blocks are proposed
under one new anchor.

The RPC answers are an input (`ResyncEnv`).  The result lists the requests in
the order in which they are handed to `propose_batch`.

Main result (`resync_inOrder_iff`): the requests propose every block once, in
ascending order, each request a contiguous range, exactly when the anchor ids
of the blocks do not decrease and no request starts with a block that is too
large for a batch.  The anchor ids matter because the groups are read back in
the order of the anchors (`Regroup`), also on the path that re-anchors.
-/
import TaikoGateway.Lib.Regroup
import TaikoGateway.Lookahead
import TaikoGateway.Request

namespace TaikoGateway

/-! ### Checks -/

inductive ResyncError
  /-- an RPC call failed or returned nothing -/
  | rpc
  /-- "missing anchor tx in block" -/
  | missingAnchorTx (blockNumber : Nat)
  /-- "expected anchor tx to be from golden touch!" -/
  | notGoldenTouch
  /-- the input of the anchor does not decode -/
  | abiDecode
  /-- "missing proposed block" -/
  | missingProposedBlock (blockNumber : Nat)
  /-- an assertion failed -/
  | panic (panic : Panic)
  deriving DecidableEq

/-- Why a batch would not be accepted on L1. -/
inductive BatchParamsError
  /-- "no blocks to propose" -/
  | noBlocks
  /-- "too many blocks to propose" -/
  | tooManyBlocks
  /-- "anchor block id too small" -/
  | anchorTooSmall
  /-- "anchor block id too large" -/
  | anchorTooLarge
  /-- "anchor block id smaller than parent" -/
  | anchorSmallerThanParent
  /-- "timestamp too large" -/
  | timestampTooLarge
  /-- "block timestamps should increase" -/
  | timestampsDecrease
  /-- "last timestamp too small" -/
  | lastTimestampTooSmall
  /-- "first timestamp too small" -/
  | firstTimestampTooSmall
  /-- "first timestamp smaller than parent" -/
  | firstTimestampSmallerThanParent
  deriving DecidableEq, Repr

def ensure {ε : Type} (p : Prop) [Decidable p] (err : ε) : Except ε Unit :=
  if p then .ok () else .error err

/-- Checks similar to `_validateBatchParams` in the inbox. -/
def validateBatchParams (l2ParentAnchorBlockId l2ParentTimestamp l1Block l1Timestamp
    anchorBlockId : Nat) (blocks : List Block) (config : TaikoChainParams) :
    Except BatchParamsError Unit := do
  ensure (blocks ≠ []) .noBlocks
  ensure (blocks.length ≤ config.maxBlocksPerBatch) .tooManyBlocks
  ensure (anchorBlockId + config.safeAnchorHeightOffset ≥ l1Block) .anchorTooSmall
  ensure (anchorBlockId < l1Block) .anchorTooLarge
  ensure (anchorBlockId ≥ l2ParentAnchorBlockId) .anchorSmallerThanParent
  let firstTimestamp := (blocks.head?.map (·.header.timestamp)).getD 0
  let lastTimestamp := (blocks.getLast?.map (·.header.timestamp)).getD 0
  ensure (lastTimestamp ≤ l1Timestamp) .timestampTooLarge
  ensure (lastTimestamp ≥ firstTimestamp) .timestampsDecrease
  let totalTimeShift := lastTimestamp - firstTimestamp
  ensure (lastTimestamp ≥ totalTimeShift) .lastTimestampTooSmall
  ensure (firstTimestamp + config.safeAnchorHeightOffset * 12 ≥ l1Timestamp)
    .firstTimestampTooSmall
  ensure (firstTimestamp ≥ l2ParentTimestamp) .firstTimestampSmallerThanParent

/-- The anchor block id a block carries, checked the way `resync` does. -/
def checkedAnchorBlockId (block : Block) : Except ResyncError Nat :=
  match block.transactions.asTransactions.bind (·.head?) with
  | none => .error (.missingAnchorTx block.header.number)
  | some anchorTx =>
      if anchorTx.fromAddr ≠ goldenTouchAddress then .error .notGoldenTouch
      else
        match anchorTx.inner.input.abiDecode with
        | none => .error .abiDecode
        | some anchorData => .ok anchorData.anchorBlockId

/-! ### Resync -/

structure PendingProposal where
  /-- both inclusive -/
  startBlockNum : Nat
  endBlockNum : Nat
  anchorBlockId : Nat
  nonce : Nat
  txHash : B256
  deriving DecidableEq, Repr

/-- The parts of the proposer that `resync` reads; `compressedSize` is the
compressor. -/
structure ProposerManager where
  params : TaikoChainParams
  batchTargetSize : Nat
  safeL1Lag : Nat
  beacon : BeaconHandle
  compressedSize : List Order → Nat

/-- The RPC answers (`none`: failed or empty) and clock readings of one
`resync`. -/
structure ResyncEnv where
  pendingProposals : Option (List PendingProposal)
  /-- L2 block by number, with full transactions -/
  getBlock : Nat → Option Block
  /-- latest L1 header -/
  l1Block : Option Header
  /-- the L2 block `origin` -/
  l2Parent : Option Block
  /-- L1 header by number -/
  getL1Block : Nat → Option Header
  /-- clock at the validation of the `i`-th group -/
  utc : Nat → Nat
  /-- clock when re-anchoring -/
  overrideUtc : Nat
  /-- L2 header by number, after the proposals -/
  getNewBlock : Nat → Option Header

/-- The requests handed to `propose_batch`, in order, and how the call ended. -/
structure ResyncOutcome where
  issued : List Proposal
  result : Except ResyncError Unit

def fetchNBlocks (getBlock : Nat → Option Block) (start last : Nat) :
    Except ResyncError (List Block) :=
  match (List.range' start (last + 1 - start)).mapM getBlock with
  | none => .error .rpc
  | some blocks => .ok blocks

/-- `to_propose.entry(anchor_block_id).or_default().push(block)` for every
block. -/
def groupByAnchor (blocks : List Block) : Except ResyncError (BTreeMap (List Block)) :=
  blocks.foldlM (fun toPropose block => do
    let anchorBlockId ← checkedAnchorBlockId block
    .ok (Regroup.push (fun _ => anchorBlockId) toPropose block)) ∅

/-- Number of the first and of the last block of a group. -/
def startBlock (blocks : List Block) : Nat := (blocks.head?.map (·.header.number)).getD 0
def endBlock (blocks : List Block) : Nat := (blocks.getLast?.map (·.header.number)).getD 0

/-- A group that is already pending is not checked. -/
def isPending (allPending : List PendingProposal) (anchorBlockId : Nat) (blocks : List Block) :
    Bool :=
  allPending.any fun p =>
    p.anchorBlockId = anchorBlockId ∧ p.startBlockNum = startBlock blocks ∧
      p.endBlockNum = endBlock blocks

/-- What the validation loop carries from group to group. -/
structure Validation where
  willReorg : Bool
  l2ParentAnchorBlockId : Nat
  l2ParentTimestamp : Nat
  /-- number of groups validated so far -/
  index : Nat

def validateGroup (m : ProposerManager) (env : ResyncEnv) (allPending : List PendingProposal)
    (l1Head : Nat) (v : Validation) (group : Nat × List Block) : Validation :=
  if isPending allPending group.1 group.2 then v
  else
    let l1Timestamp := m.beacon.timestampOfSlot (m.beacon.currentSlot (env.utc v.index) + 1)
    let valid := validateBatchParams v.l2ParentAnchorBlockId v.l2ParentTimestamp
      (l1Head + 1) -- assume we land next block
      l1Timestamp group.1 group.2 m.params
    { willReorg := v.willReorg || !valid.isOk
      l2ParentAnchorBlockId := group.1
      l2ParentTimestamp := (group.2.getLast?.map (·.header.timestamp)).getD 0
      index := v.index + 1 }

/-- Whether some group would not be accepted as it is. -/
def willReorg (m : ProposerManager) (env : ResyncEnv) (allPending : List PendingProposal)
    (l1Head parentAnchorBlockId parentTimestamp : Nat) (groups : List (Nat × List Block)) : Bool :=
  (groups.foldl (validateGroup m env allPending l1Head)
    ⟨false, parentAnchorBlockId, parentTimestamp, 0⟩).willReorg

def liftPanic {α : Type} : Except Panic α → Except ResyncError α
  | .ok a => .ok a
  | .error e => .error (.panic e)

/-- Arguments for proposing a group as it is. -/
def ProposerManager.sameArgs (m : ProposerManager) (anchorBlockId : Nat) : RequestArgs :=
  { anchorBlockId := anchorBlockId
    timestampOverride := none
    timeshiftOverride := none
    maxBlocksPerBatch := m.params.maxBlocksPerBatch
    batchTargetSize := m.batchTargetSize }

/-- The timestamp of all re-anchored blocks: as recent as possible. -/
def ProposerManager.overrideTimestamp (m : ProposerManager) (utc : Nat) : Nat :=
  m.beacon.timestampOfSlot (u64Sub (m.beacon.currentSlot utc) 1) % 2 ^ 64

/-- Arguments for proposing all blocks with a new anchor. -/
def ProposerManager.reorgArgs (m : ProposerManager) (anchorBlockId utc : Nat) : RequestArgs :=
  { m.sameArgs anchorBlockId with
    timestampOverride := some (m.overrideTimestamp utc)
    timeshiftOverride := some 0 }

/-- Re-anchors all blocks, in as few batches as possible. -/
def proposeReorgedBatch (m : ProposerManager) (env : ResyncEnv) (l1Head : Nat)
    (blocks : List Block) : Except ResyncError (List Proposal) :=
  let safeL1Head := l1Head - m.safeL1Lag
  match env.getL1Block safeL1Head with
  | none => .error .rpc
  | some l1Block =>
      liftPanic (requestFromBlocks m.compressedSize (m.reorgArgs l1Block.number env.overrideUtc)
        blocks)

/-- Proposes one anchor after the other. -/
def proposeGroups (m : ProposerManager) (groups : List (Nat × List Block)) :
    Except ResyncError (List Proposal) :=
  groups.foldlM (fun issued group => do
    let requests ← liftPanic (requestFromBlocks m.compressedSize (m.sameArgs group.1) group.2)
    .ok (issued ++ requests)) []

/-- The proposed blocks, by number, are fetched again; a mismatch is only
logged. -/
def verifyProposed (env : ResyncEnv) (groups : List (Nat × List Block)) :
    Except ResyncError Unit :=
  let toVerify : BTreeMap Block := (groups.flatMap Prod.snd).foldl
    (fun toVerify block => toVerify.insert block.header.number block) ∅
  toVerify.toList.forM fun entry =>
    match env.getNewBlock entry.1 with
    | none => .error (.missingProposedBlock entry.1)
    | some _ => .ok ()

def resync (m : ProposerManager) (env : ResyncEnv) (origin last : Nat) :
    Except ResyncError ResyncOutcome := do
  let allPending := env.pendingProposals.getD []
  let blocks ← fetchNBlocks env.getBlock (origin + 1) last
  let toPropose ← groupByAnchor blocks
  match env.l1Block, env.l2Parent with
  | some l1Block, some l2Parent => do
      let l1Head := l1Block.number
      let l2ParentAnchorBlockId ← checkedAnchorBlockId l2Parent
      if willReorg m env allPending l1Head l2ParentAnchorBlockId l2Parent.header.timestamp
          toPropose.toList then
        let issued ← proposeReorgedBatch m env l1Head (Regroup.flatten toPropose)
        .ok ⟨issued, .ok ()⟩
      else
        let issued ← proposeGroups m toPropose.toList
        .ok ⟨issued, verifyProposed env toPropose.toList⟩
  | _, _ => .error .rpc

/-! ### Anchors and order -/

/-- The anchor block id of a block whose anchor is valid. -/
def anchorOf (block : Block) : Nat := ((checkedAnchorBlockId block).toOption).getD 0

/-- The block starts with a valid anchor tx. -/
def Anchored (block : Block) : Prop := (checkedAnchorBlockId block).isOk = true

instance (block : Block) : Decidable (Anchored block) := inferInstanceAs (Decidable (_ = true))

theorem Anchored.checked {block : Block} (h : Anchored block) :
    checkedAnchorBlockId block = .ok (anchorOf block) := by
  unfold Anchored at h
  unfold anchorOf
  cases hb : checkedAnchorBlockId block with
  | error e => rw [hb] at h; cases h
  | ok a => rfl

/-- The anchor ids do not go back. -/
def AnchorsOrdered (blocks : List Block) : Prop :=
  blocks.Pairwise fun b b' => anchorOf b ≤ anchorOf b'

instance (blocks : List Block) : Decidable (AnchorsOrdered blocks) :=
  inferInstanceAs (Decidable (List.Pairwise _ _))

/-- The block fits a batch of its own. -/
def ProposerManager.Fits (m : ProposerManager) (block : Block) : Prop :=
  1 ≤ m.params.maxBlocksPerBatch ∧ m.compressedSize (blockOrders block) ≤ m.batchTargetSize

/-- Whether the validation of these blocks sends `resync` down the
re-anchoring path. -/
def reanchors (m : ProposerManager) (env : ResyncEnv) (blocks : List Block) : Bool :=
  match env.l1Block, env.l2Parent with
  | some l1Block, some l2Parent =>
      willReorg m env (env.pendingProposals.getD []) l1Block.number (anchorOf l2Parent)
        l2Parent.header.timestamp (Regroup.groups anchorOf blocks).toList
  | _, _ => false

/-- The block opens a request: it is the first of all when re-anchoring, the
first with its anchor otherwise. -/
def Opens (reanchoring : Bool) (blocks : List Block) (block : Block) : Prop :=
  if reanchoring then blocks.head? = some block
  else blocks.find? (fun b => anchorOf b = anchorOf block) = some block

/-- The blocks of a proposal are the range that its parameters announce. -/
structure Proposal.Contiguous (p : Proposal) : Prop where
  ne_nil : p.blocks ≠ []
  numbers : p.blocks.map (·.header.number) =
    List.range' p.request.startBlockNum p.blocks.length
  count : p.request.blockParams.length = p.blocks.length
  last : p.request.endBlockNum + 1 = p.request.startBlockNum + p.blocks.length

/-- Every block of `origin + 1, …, last` is proposed once, in ascending order,
each request a contiguous range. -/
def InOrder (origin last : Nat) (issued : List Proposal) : Prop :=
  (∀ p ∈ issued, p.Contiguous) ∧
    issued.flatMap (fun p => p.blocks.map (·.header.number)) =
      List.range' (origin + 1) (last - origin)

theorem groupByAnchor_eq {blocks : List Block} (h : ∀ b ∈ blocks, Anchored b) :
    groupByAnchor blocks = .ok (Regroup.groups anchorOf blocks) := by
  unfold groupByAnchor Regroup.groups
  generalize (∅ : BTreeMap (List Block)) = toPropose
  induction blocks generalizing toPropose with
  | nil => rfl
  | cons block blocks ih =>
      rw [List.foldlM_cons, (h block List.mem_cons_self).checked]
      exact ih (fun b hb => h b (List.mem_cons_of_mem _ hb)) _

/-! ### The requests of a path -/

/-- The proposals have these blocks in order; all of them cover their blocks
exactly when the opening blocks fit, and already when none of them is
empty. -/
structure Issues (m : ProposerManager) (opening : Block → Prop) (blocks : List Block)
    (issued : List Proposal) : Prop where
  blocks : issued.flatMap (·.blocks) = blocks
  covers_iff : (∀ p ∈ issued, p.Covers) ↔ ∀ b, opening b → m.Fits b
  covers_of_ne_nil : (∀ p ∈ issued, p.blocks ≠ []) → ∀ p ∈ issued, p.Covers

variable {m : ProposerManager}

theorem requestFromBlocks_issues (m : ProposerManager) (args : RequestArgs)
    (hmax : args.maxBlocksPerBatch = m.params.maxBlocksPerBatch)
    (hsize : args.batchTargetSize = m.batchTargetSize) {blocks : List Block} (hne : blocks ≠ []) :
    ∃ ps, requestFromBlocks m.compressedSize args blocks = .ok ps ∧
      Issues m (fun b => blocks.head? = some b) blocks ps := by
  obtain ⟨first, rest, rfl⟩ := List.exists_cons_of_ne_nil hne
  obtain ⟨ps, hps, hblocks, hcase⟩ := requestFromBlocks_spec m.compressedSize args first rest
  have hfits : FirstFits m.compressedSize args first ↔ m.Fits first := by
    rw [FirstFits, hmax, hsize]
    rfl
  refine ⟨ps, hps, hblocks, ?_, ?_⟩
  · rcases hcase with ⟨hfit, hall⟩ | ⟨hfit, empty, ps', rfl, hempty, -⟩
    · apply iff_of_true hall
      intro b hb
      obtain rfl := Option.some.inj hb
      exact hfits.mp hfit
    · refine iff_of_false (fun hall => ?_) fun hb => hfit (hfits.mpr (hb first rfl))
      exact (hall empty List.mem_cons_self).ne_nil hempty
  · intro hall
    rcases hcase with ⟨-, hcovers⟩ | ⟨-, empty, ps', rfl, hempty, -⟩
    · exact hcovers
    · exact absurd hempty (hall empty List.mem_cons_self)

theorem Issues.append {opening opening' : Block → Prop} {blocks blocks' : List Block}
    {ps ps' : List Proposal} (h : Issues m opening blocks ps)
    (h' : Issues m opening' blocks' ps') :
    Issues m (fun b => opening b ∨ opening' b) (blocks ++ blocks') (ps ++ ps') where
  blocks := by rw [List.flatMap_append, h.blocks, h'.blocks]
  covers_iff := by
    rw [List.forall_mem_append, h.covers_iff, h'.covers_iff]
    constructor
    · rintro ⟨hb, hb'⟩ b (ho | ho)
      exacts [hb b ho, hb' b ho]
    · intro hb
      exact ⟨fun b ho => hb b (Or.inl ho), fun b ho => hb b (Or.inr ho)⟩
  covers_of_ne_nil := by
    rw [List.forall_mem_append, List.forall_mem_append]
    exact fun hne => ⟨h.covers_of_ne_nil hne.1, h'.covers_of_ne_nil hne.2⟩

theorem Issues.congr {opening opening' : Block → Prop} {blocks : List Block}
    {ps : List Proposal} (h : Issues m opening blocks ps)
    (hiff : ∀ b, opening b ↔ opening' b) : Issues m opening' blocks ps where
  blocks := h.blocks
  covers_iff := by
    rw [h.covers_iff]
    exact forall_congr' fun b => by rw [hiff b]
  covers_of_ne_nil := h.covers_of_ne_nil

theorem proposeGroups_concat {groups : List (Nat × List Block)} {g : Nat × List Block}
    {ps ps' : List Proposal} (hps : proposeGroups m groups = .ok ps)
    (hps' : requestFromBlocks m.compressedSize (m.sameArgs g.1) g.2 = .ok ps') :
    proposeGroups m (groups ++ [g]) = .ok (ps ++ ps') := by
  unfold proposeGroups at hps ⊢
  rw [List.foldlM_append, hps]
  simp only [List.foldlM_cons, List.foldlM_nil, hps', liftPanic, bind, Except.bind, pure,
    Except.pure]

/-- Group after group. -/
theorem proposeGroups_issues {groups : List (Nat × List Block)} (hne : ∀ g ∈ groups, g.2 ≠ []) :
    ∃ ps, proposeGroups m groups = .ok ps ∧
      Issues m (fun b => ∃ g ∈ groups, g.2.head? = some b) (groups.flatMap Prod.snd) ps := by
  induction groups using List.reverseRecOn with
  | nil => exact ⟨[], rfl, ⟨rfl, by simp, by simp⟩⟩
  | append_singleton groups g ih =>
      obtain ⟨ps, hps, hissues⟩ := ih fun g' hg' => hne g' (List.mem_append_left _ hg')
      obtain ⟨ps', hps', hissues'⟩ := requestFromBlocks_issues m
        (m.sameArgs g.1) rfl rfl (hne g (by simp))
      refine ⟨ps ++ ps', proposeGroups_concat hps hps', ?_⟩
      rw [List.flatMap_append, List.flatMap_singleton]
      apply (hissues.append hissues').congr
      intro b
      simp [or_and_right, exists_or]

/-! ### Order -/

/-- A piece of an ascending range is an ascending range. -/
theorem range'_of_append {pre piece post : List Nat} {start n : Nat}
    (h : pre ++ piece ++ post = List.range' start n) :
    piece = List.range' (start + pre.length) piece.length := by
  have hlen : pre.length + piece.length + post.length = n := by
    simpa [Nat.add_assoc] using congrArg List.length h
  have hsplit : List.range' start n = List.range' start pre.length ++
      List.range' (start + pre.length) piece.length ++
      List.range' (start + pre.length + piece.length) post.length := by
    rw [List.range'_append_1, Nat.add_assoc, List.range'_append_1, hlen]
  rw [hsplit] at h
  have hfront := List.append_inj_left h (by simp)
  exact List.append_inj_right hfront (by simp)

/-- Covering proposals of ascending blocks are contiguous. -/
theorem contiguous_of_covers {issued : List Proposal} {start n : Nat}
    (hcovers : ∀ p ∈ issued, p.Covers)
    (hnumbers : issued.flatMap (fun p => p.blocks.map (·.header.number)) = List.range' start n) :
    ∀ p ∈ issued, p.Contiguous := by
  intro p hp
  have hcov := hcovers p hp
  obtain ⟨pre, post, rfl⟩ := List.append_of_mem hp
  rw [List.flatMap_append, List.flatMap_cons, ← List.append_assoc] at hnumbers
  have hpiece := range'_of_append hnumbers
  rw [List.length_map] at hpiece
  obtain ⟨k, hk⟩ : ∃ k, p.blocks.length = k + 1 :=
    Nat.exists_eq_succ_of_ne_zero (by simpa using hcov.ne_nil)
  -- the announced start and end are the first and the last number of the range
  have hfirst := hcov.start
  have hlast := hcov.last
  rw [← List.head?_map, hpiece, hk, List.head?_range', if_neg (by omega)] at hfirst
  rw [← List.getLast?_map, hpiece, hk, List.getLast?_range', if_neg (by omega)] at hlast
  have hstart := Option.some.inj hfirst
  have hend := Option.some.inj hlast
  exact ⟨hcov.ne_nil, by rw [hpiece, hstart], hcov.count, by omega⟩

/-! ### Main result -/

/-- The RPC calls of one `resync` succeed: `blocks` are the blocks
`origin + 1, …, last`, and every anchor tx is valid. -/
structure ResyncAnswers (env : ResyncEnv) (origin last : Nat) (blocks : List Block) : Prop where
  fetched : fetchNBlocks env.getBlock (origin + 1) last = .ok blocks
  numbers : blocks.map (·.header.number) = List.range' (origin + 1) (last - origin)
  anchored : ∀ b ∈ blocks, Anchored b
  l1Block : env.l1Block.isSome
  l2Parent : ∃ l2Parent, env.l2Parent = some l2Parent ∧ Anchored l2Parent
  getL1Block : ∀ n, (env.getL1Block n).isSome

variable {env : ResyncEnv} {origin last : Nat} {blocks : List Block}

theorem groups_ne_nil (blocks : List Block) :
    ∀ g ∈ (Regroup.groups anchorOf blocks).toList, g.2 ≠ [] :=
  fun _ hg => (Regroup.mem_toList_groups hg).2

/-- The blocks that open a group are those that come first with their
anchor. -/
theorem exists_group_head_iff {b : Block} :
    (∃ g ∈ (Regroup.groups anchorOf blocks).toList, g.2.head? = some b) ↔
      blocks.find? (fun b' => anchorOf b' = anchorOf b) = some b := by
  constructor
  · rintro ⟨⟨k, group⟩, hg, hhead⟩
    obtain ⟨rfl, -⟩ := Regroup.mem_toList_groups hg
    have hb : b ∈ blocks.filter fun b' => anchorOf b' = k := List.mem_of_mem_head? hhead
    have hk : anchorOf b = k := by simpa using (List.mem_filter.mp hb).2
    rw [hk, ← List.head?_filter]
    exact hhead
  · intro hfind
    rw [← List.head?_filter] at hfind
    have hne : blocks.filter (fun b' => anchorOf b' = anchorOf b) ≠ [] := by
      intro hnil
      rw [hnil] at hfind
      cases hfind
    refine ⟨(anchorOf b, _), Std.ExtTreeMap.mem_toList_iff_getElem?_eq_some.mpr ?_, hfind⟩
    rw [Regroup.getElem?_groups, if_neg hne]

/-- The two paths of `resync`. -/
theorem resync_eq (m : ProposerManager)
    (hfetched : fetchNBlocks env.getBlock (origin + 1) last = .ok blocks)
    (hanchored : ∀ b ∈ blocks, Anchored b) {l1Block : Header} (hl1 : env.l1Block = some l1Block)
    {l2Parent : Block} (hl2 : env.l2Parent = some l2Parent) (hparent : Anchored l2Parent) :
    resync m env origin last =
      if reanchors m env blocks then
        (proposeReorgedBatch m env l1Block.number (Regroup.regroup anchorOf blocks)).map
          fun issued => ⟨issued, .ok ()⟩
      else
        (proposeGroups m (Regroup.groups anchorOf blocks).toList).map
          fun issued => ⟨issued, verifyProposed env (Regroup.groups anchorOf blocks).toList⟩ := by
  simp only [resync, reanchors, hfetched, groupByAnchor_eq hanchored, hl1, hl2,
    hparent.checked, bind, Except.bind]
  rfl

/-- On the re-anchoring path there is something to anchor. -/
theorem regroup_ne_nil (hre : reanchors m env blocks = true) :
    Regroup.regroup anchorOf blocks ≠ [] := by
  intro hnil
  have hempty : (Regroup.groups anchorOf blocks).toList = [] := by
    rw [List.eq_nil_iff_forall_not_mem]
    intro g hg
    have hflat := List.flatMap_eq_nil_iff.mp hnil g hg
    exact groups_ne_nil blocks g hg hflat
  rw [reanchors, hempty] at hre
  split at hre <;> cases hre

/-- The requests of a whole `resync`, over the regrouped blocks. -/
theorem resync_issues (m : ProposerManager) (h : ResyncAnswers env origin last blocks) :
    ∃ outcome, resync m env origin last = .ok outcome ∧
      Issues m (fun b =>
          if reanchors m env blocks then (Regroup.regroup anchorOf blocks).head? = some b
          else blocks.find? (fun b' => anchorOf b' = anchorOf b) = some b)
        (Regroup.regroup anchorOf blocks) outcome.issued := by
  obtain ⟨l1Block, hl1⟩ := Option.isSome_iff_exists.mp h.l1Block
  obtain ⟨l2Parent, hl2, hparent⟩ := h.l2Parent
  rw [resync_eq m h.fetched h.anchored hl1 hl2 hparent]
  by_cases hre : reanchors m env blocks = true
  · rw [if_pos hre]
    obtain ⟨safeBlock, hsafe⟩ := Option.isSome_iff_exists.mp
      (h.getL1Block (l1Block.number - m.safeL1Lag))
    obtain ⟨ps, hps, hissues⟩ := requestFromBlocks_issues m
      (m.reorgArgs safeBlock.number env.overrideUtc) rfl rfl (regroup_ne_nil hre)
    refine ⟨⟨ps, .ok ()⟩, ?_, hissues.congr fun b => by rw [if_pos hre]⟩
    simp only [proposeReorgedBatch, hsafe, hps, liftPanic]
    rfl
  · rw [if_neg hre]
    obtain ⟨ps, hps, hissues⟩ := proposeGroups_issues (m := m) (groups_ne_nil blocks)
    refine ⟨⟨ps, verifyProposed env _⟩, by rw [hps]; rfl, hissues.congr fun b => ?_⟩
    rw [if_neg hre]
    exact exists_group_head_iff

/-- Blocks that are numbered without repetition are determined by their
numbers. -/
theorem eq_of_numbers {xs ys : List Block} (hmem : ∀ x ∈ xs, x ∈ ys)
    (hnodup : (ys.map (·.header.number)).Nodup)
    (heq : xs.map (·.header.number) = ys.map (·.header.number)) : xs = ys := by
  have hlen : xs.length = ys.length := by simpa using congrArg List.length heq
  apply List.ext_getElem hlen
  intro i hx hy
  have hnumber : xs[i].header.number = ys[i].header.number := by
    have hget := congrArg (fun ns => ns[i]?) heq
    simpa [hx, hy] using hget
  exact List.inj_on_of_nodup_map hnodup (hmem _ (List.getElem_mem hx)) (List.getElem_mem hy) hnumber

/-- **When `resync` proposes in order.**  For blocks `origin + 1, …, last` with
valid anchors, the requests of `resync` propose every block exactly once, in
ascending order and in contiguous ranges, iff the anchor ids of the blocks do
not decrease and every block that opens a request fits a batch. -/
theorem resync_inOrder_iff (m : ProposerManager) (env : ResyncEnv) (origin last : Nat)
    (blocks : List Block) (h : ResyncAnswers env origin last blocks) :
    ∃ outcome, resync m env origin last = .ok outcome ∧
      (InOrder origin last outcome.issued ↔
        AnchorsOrdered blocks ∧ ∀ b, Opens (reanchors m env blocks) blocks b → m.Fits b) := by
  obtain ⟨outcome, houtcome, hissues⟩ := resync_issues m h
  refine ⟨outcome, houtcome, ?_⟩
  have hflat : outcome.issued.flatMap (fun p => p.blocks.map (·.header.number)) =
      (Regroup.regroup anchorOf blocks).map (·.header.number) := by
    rw [← hissues.blocks, List.map_flatMap]
  constructor
  · rintro ⟨hcontiguous, hnumbers⟩
    -- the numbers ascend, so regrouping did not move any block
    have hsame : Regroup.regroup anchorOf blocks = blocks := by
      apply eq_of_numbers (fun x hx => Regroup.mem_regroup.mp hx)
      · rw [h.numbers]
        exact List.nodup_range'
      · rw [← hflat, hnumbers, h.numbers]
    refine ⟨(Regroup.regroup_eq_self_iff _ _).mp hsame, fun b hb => ?_⟩
    have hcovers := hissues.covers_of_ne_nil fun p hp => (hcontiguous p hp).ne_nil
    apply hissues.covers_iff.mp hcovers b
    rwa [hsame]
  · rintro ⟨hordered, hfits⟩
    have hsame : Regroup.regroup anchorOf blocks = blocks :=
      (Regroup.regroup_eq_self_iff _ _).mpr hordered
    rw [hsame] at hflat hissues
    have hcovers := hissues.covers_iff.mpr fun b hb => hfits b hb
    have hnumbers := hflat.trans h.numbers
    exact ⟨contiguous_of_covers hcovers hnumbers, hnumbers⟩

section Sample

/-- Block `number` of a chain with 12 seconds per block, anchored to
`anchorBlockId` and otherwise empty. -/
def sampleBlock (number anchorBlockId : Nat) : Block :=
  { header := { (default : Header) with number := number, timestamp := 1200 + 12 * number }
    transactions := .full [{
      fromAddr := goldenTouchAddress
      inner := {
        nonce := number
        maxFeePerGas := 0
        priorityFeeOrPrice := 0
        input := .anchorV3 { (default : AnchorV3Call) with anchorBlockId := anchorBlockId }
        encoded2718 := [] } }] }

/-- Answers for three blocks on top of block 0, with these anchors, when the
L1 head is block 110. -/
def sampleEnv3 (anchors : Nat → Nat) : ResyncEnv :=
  { pendingProposals := some []
    getBlock := fun n => some (sampleBlock n (anchors n))
    l1Block := some { (default : Header) with number := 110 }
    l2Parent := some (sampleBlock 0 90)
    getL1Block := fun n => some { (default : Header) with number := n }
    utc := fun _ => 1320
    overrideUtc := 1320
    getNewBlock := fun n => some (sampleBlock n (anchors n)).header }

/-- A proposer whose compressor adds nine bytes to the raw transactions. -/
def sampleManager : ProposerManager :=
  { params := {
      (default : TaikoChainParams) with
      maxAnchorHeightOffset := 64
      maxBlocksPerBatch := 768 }
    batchTargetSize := 125000
    safeL1Lag := 4
    beacon := { sampleBeacon with genesisTimeSec := 0 }
    compressedSize := fun orders => 9 + (orders.map (·.raw.length)).sum }

theorem resync_inOrder_iff_ordered :
    ∃ outcome, resync sampleManager (sampleEnv3 fun n => 100 + n / 3) 0 3 = .ok outcome ∧
      InOrder 0 3 outcome.issued := by
  obtain ⟨outcome, houtcome, hiff⟩ := resync_inOrder_iff sampleManager
    (sampleEnv3 fun n => 100 + n / 3) 0 3 [sampleBlock 1 100, sampleBlock 2 100, sampleBlock 3 101]
    ⟨rfl, by decide, by decide, rfl, ⟨_, rfl, by decide⟩, fun _ => rfl⟩
  refine ⟨outcome, houtcome, hiff.mpr ⟨by decide, ?_⟩⟩
  intro b hb
  have hmem : b ∈ [sampleBlock 1 100, sampleBlock 2 100, sampleBlock 3 101] := by
    unfold Opens at hb
    split at hb
    · exact List.mem_of_mem_head? hb
    · exact List.mem_of_find?_eq_some hb
  have hfits : ∀ b ∈ [sampleBlock 1 100, sampleBlock 2 100, sampleBlock 3 101],
      1 ≤ sampleManager.params.maxBlocksPerBatch ∧
        sampleManager.compressedSize (blockOrders b) ≤ sampleManager.batchTargetSize := by
    decide
  exact hfits b hmem

/-- With anchors 100, 101, 100 block 3 is proposed before block 2. -/
theorem resync_anchors_go_back :
    ResyncAnswers (sampleEnv3 fun n => if n = 2 then 101 else 100) 0 3
        [sampleBlock 1 100, sampleBlock 2 101, sampleBlock 3 100] ∧
      ∃ outcome, resync sampleManager (sampleEnv3 fun n => if n = 2 then 101 else 100) 0 3 =
          .ok outcome ∧
        outcome.issued.map (fun p => p.blocks.map (·.header.number)) = [[1, 3, 2]] ∧
        ¬ InOrder 0 3 outcome.issued := by
  refine ⟨⟨rfl, by decide, by decide, rfl, ⟨_, rfl, by decide⟩, fun _ => rfl⟩, ?_⟩
  have hrun :
      (resync sampleManager (sampleEnv3 fun n => if n = 2 then 101 else 100) 0 3).toOption.map
        (fun outcome => outcome.issued.map fun p => p.blocks.map (·.header.number)) =
          some [[1, 3, 2]] := by
    decide +kernel
  obtain ⟨outcome, houtcome, hissued⟩ := Option.map_eq_some_iff.mp hrun
  refine ⟨outcome, Except.toOption_eq_some_iff.mp houtcome, hissued, fun hinOrder => ?_⟩
  have hnumbers := hinOrder.2
  rw [List.flatMap_def, hissued] at hnumbers
  exact absurd hnumbers (by decide)

end Sample

end TaikoGateway
