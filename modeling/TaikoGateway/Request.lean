/-
TaikoGateway/Request.lean

Building batches from blocks that are already on the L2 chain
(`request_from_blocks`): blocks are added to the current batch until its tx
list compresses to more than the target size, or it has enough blocks; then a
new batch is started at that block.

The compressor is third-party code, so `compressedSize` is a parameter: the
length of the encoded and compressed tx list.

A `Proposal` is a batch together with the blocks whose parameters were pushed
into it.  The blocks are not in the source; they say what the batch proposes.
`requestFromBlocks_split` is the specification: the blocks are split greedily
(`Greedy.split`), where a batch is `FullFor` a block that would make it too
large, and every proposal is built from one group.  The first group is empty
exactly when the first block alone does not fit (`FirstFits`).
-/
import TaikoGateway.Lib.Greedy
import TaikoGateway.Types

namespace TaikoGateway

/-! ### The builder -/

/-- The arguments of `request_from_blocks`, the blocks apart. -/
structure RequestArgs where
  anchorBlockId : Nat
  timestampOverride : Option Nat
  timeshiftOverride : Option Nat
  maxBlocksPerBatch : Nat
  batchTargetSize : Nat
  deriving DecidableEq, Repr

/-- A batch and, as a record of the run, the blocks it was built from. -/
structure Proposal where
  request : ProposeBatchParams
  blocks : List Block

/-- The orders of a block: everything not sent by the golden touch key. -/
def blockOrders (block : Block) : List Order :=
  (block.transactions.intoTransactions.filter fun tx => tx.fromAddr ≠ goldenTouchAddress).map
    fun tx => .newWithSender tx.inner tx.fromAddr

section Builder

variable (compressedSize : List Order → Nat) (args : RequestArgs)

/-- The timestamp a block is proposed with. -/
def RequestArgs.timestamp (block : Block) : Nat :=
  args.timestampOverride.getD block.header.timestamp

/-- The parameters before the first block. -/
def startParams (first : Block) : ProposeBatchParams :=
  { anchorBlockId := args.anchorBlockId
    startBlockNum := first.header.number
    endBlockNum := first.header.number
    blockParams := []
    allTxList := []
    compressedEst := 0
    lastTimestamp := args.timestamp first
    coinbase := first.header.beneficiary }

/-- Whether the current batch is full before this block. -/
def startsNewBatch (cur : ProposeBatchParams) (block : Block) : Prop :=
  args.batchTargetSize < compressedSize (cur.allTxList ++ blockOrders block) ∨
    args.maxBlocksPerBatch ≤ cur.blockParams.length

instance (cur : ProposeBatchParams) (block : Block) :
    Decidable (startsNewBatch compressedSize args cur block) :=
  inferInstanceAs (Decidable (_ ∨ _))

/-- The parameters of a new batch that starts at this block. -/
def newParams (cur : ProposeBatchParams) (coinbase : Address) (block : Block) :
    ProposeBatchParams :=
  { anchorBlockId := args.anchorBlockId
    startBlockNum := block.header.number
    endBlockNum := 0 -- set later
    blockParams := []
    allTxList := blockOrders block
    compressedEst := compressedSize (cur.allTxList ++ blockOrders block)
    lastTimestamp := args.timestamp block
    coinbase := coinbase }

/-- The current batch with this block's orders. -/
def extendParams (cur : ProposeBatchParams) (block : Block) : ProposeBatchParams :=
  { cur with
    allTxList := cur.allTxList ++ blockOrders block
    compressedEst := compressedSize (cur.allTxList ++ blockOrders block) }

/-- A shift of more than a `u8` becomes 0. -/
def timeShift (cur : ProposeBatchParams) (block : Block) : Nat :=
  let shift := block.header.timestamp - cur.lastTimestamp
  args.timeshiftOverride.getD (if shift < 2 ^ 8 then shift else 0)

def pushBlock (cur : ProposeBatchParams) (block : Block) : ProposeBatchParams :=
  { cur with
    lastTimestamp := args.timestamp block
    endBlockNum := block.header.number
    blockParams := cur.blockParams ++
      [{ numTransactions := u64Sub block.transactions.length 1 % 2 ^ 16 -- without the anchor
         timeShift := timeShift args cur block
         signalSlots := [] }] }

/-- The loop body: the finished batches and the current one. -/
def addBlock (coinbase : Address) (st : List Proposal × Proposal) (block : Block) :
    List Proposal × Proposal :=
  if startsNewBatch compressedSize args st.2.request block then
    (st.1 ++ [st.2],
      { request := pushBlock args (newParams compressedSize args st.2.request coinbase block) block
        blocks := [block] })
  else
    (st.1,
      { request := pushBlock args (extendParams compressedSize st.2.request block) block
        blocks := st.2.blocks ++ [block] })

def requestFromBlocks (fullBlocks : List Block) : Except Panic (List Proposal) :=
  match fullBlocks with
  | [] => .error .noBlocksToPropose
  | first :: _ =>
      -- assume that all blocks have the same coinbase
      let coinbase := first.header.beneficiary
      let st := fullBlocks.foldl (addBlock compressedSize args coinbase)
        ([], { request := startParams args first, blocks := [] })
      .ok (st.1 ++ [st.2])

/-- The first block is not too large for a batch of its own. -/
def FirstFits (first : Block) : Prop :=
  1 ≤ args.maxBlocksPerBatch ∧ compressedSize (blockOrders first) ≤ args.batchTargetSize

end Builder

/-! ### What a proposal covers -/

/-- The proposal has blocks, and its start, end and count are theirs. -/
structure Proposal.Covers (p : Proposal) : Prop where
  start : p.blocks.head?.map (·.header.number) = some p.request.startBlockNum
  last : p.blocks.getLast?.map (·.header.number) = some p.request.endBlockNum
  count : p.request.blockParams.length = p.blocks.length

theorem Proposal.Covers.ne_nil {p : Proposal} (h : p.Covers) : p.blocks ≠ [] := by
  intro hnil
  have hstart := h.start
  rw [hnil] at hstart
  cases hstart

section Spec

variable (compressedSize : List Order → Nat) (args : RequestArgs)

/-- A batch with these blocks has no room for one more. -/
def FullFor (blocks : List Block) (block : Block) : Prop :=
  args.batchTargetSize < compressedSize (blocks.flatMap blockOrders ++ blockOrders block) ∨
    args.maxBlocksPerBatch ≤ blocks.length

instance (blocks : List Block) (block : Block) :
    Decidable (FullFor compressedSize args blocks block) :=
  inferInstanceAs (Decidable (_ ∨ _))

/-- The request is built from the blocks of the proposal; one without blocks
stands before the block `first`. -/
structure Proposal.Built (first : Block) (p : Proposal) : Prop where
  anchor : p.request.anchorBlockId = args.anchorBlockId
  start : p.request.startBlockNum = (p.blocks.head?.getD first).header.number
  last : p.request.endBlockNum = (p.blocks.getLast?.getD first).header.number
  timestamp : p.request.lastTimestamp = args.timestamp (p.blocks.getLast?.getD first)
  orders : p.request.allTxList = p.blocks.flatMap blockOrders
  counts : p.request.blockParams.map (·.numTransactions) =
    p.blocks.map fun b => u64Sub b.transactions.length 1 % 2 ^ 16
  shifts : ∀ shift, args.timeshiftOverride = some shift →
    ∀ params ∈ p.request.blockParams, params.timeShift = shift

variable {compressedSize args} {first : Block} {p : Proposal}

theorem Proposal.Built.count (h : p.Built args first) :
    p.request.blockParams.length = p.blocks.length := by
  have hlength := congrArg List.length h.counts
  rwa [List.length_map, List.length_map] at hlength

theorem Proposal.Built.covers (h : p.Built args first) (hne : p.blocks ≠ []) : p.Covers where
  start := by
    rw [List.head?_eq_some_head hne, h.start, List.head?_eq_some_head hne]
    rfl
  last := by
    rw [List.getLast?_eq_some_getLast hne, h.last, List.getLast?_eq_some_getLast hne]
    rfl
  count := h.count

theorem Proposal.Built.startsNewBatch_iff (h : p.Built args first) (block : Block) :
    startsNewBatch compressedSize args p.request block ↔
      FullFor compressedSize args p.blocks block := by
  rw [startsNewBatch, FullFor, h.orders, h.count]

theorem built_start (first : Block) :
    Proposal.Built args first { request := startParams args first, blocks := [] } :=
  ⟨rfl, rfl, rfl, rfl, rfl, rfl, fun _ _ _ hparams => absurd hparams List.not_mem_nil⟩

theorem timeShift_of_override {cur : ProposeBatchParams} {block : Block} {shift : Nat}
    (h : args.timeshiftOverride = some shift) : timeShift args cur block = shift := by
  rw [timeShift, h]
  rfl

/-- A batch that starts at a block. -/
theorem built_single {cur : ProposeBatchParams} {block : Block}
    (hanchor : cur.anchorBlockId = args.anchorBlockId)
    (hstart : cur.startBlockNum = block.header.number) (hparams : cur.blockParams = [])
    (horders : cur.allTxList = blockOrders block) :
    Proposal.Built args first { request := pushBlock args cur block, blocks := [block] } where
  anchor := hanchor
  start := hstart
  last := rfl
  timestamp := rfl
  orders := by rw [List.flatMap_singleton, ← horders]; rfl
  counts := by simp [pushBlock, hparams]
  shifts := by
    intro shift hshift
    simp only [pushBlock, hparams, List.nil_append, List.forall_mem_singleton]
    exact timeShift_of_override hshift

/-- A batch with one block more. -/
theorem Proposal.Built.extend (h : p.Built args first) (block : Block)
    (hstart : p.blocks = [] → p.request.startBlockNum = block.header.number) :
    Proposal.Built args first
      { request := pushBlock args (extendParams compressedSize p.request block) block
        blocks := p.blocks ++ [block] } where
  anchor := h.anchor
  start := by
    show p.request.startBlockNum = _
    cases hblocks : p.blocks with
    | nil => exact hstart hblocks
    | cons b bs =>
        rw [h.start, hblocks]
        rfl
  last := by rw [List.getLast?_concat]; rfl
  timestamp := by rw [List.getLast?_concat]; rfl
  orders := by
    show p.request.allTxList ++ blockOrders block = _
    rw [h.orders, List.flatMap_append, List.flatMap_singleton]
  counts := by
    show (p.request.blockParams ++ [_]).map _ = _
    rw [List.map_append, h.counts, List.map_append]
    rfl
  shifts := by
    intro shift hshift
    show ∀ params ∈ p.request.blockParams ++ [_], _
    rw [List.forall_mem_append, List.forall_mem_singleton]
    exact ⟨h.shifts shift hshift, timeShift_of_override hshift⟩

variable (compressedSize args) in
/-- **The loop** splits the blocks greedily, and builds the batches from the
groups. -/
theorem foldl_addBlock_split (coinbase : Address) (blocks : List Block) :
    ∀ (finished : List Proposal) {cur : Proposal},
      (∀ p ∈ finished, p.Built args first) → cur.Built args first →
      (cur.blocks = [] → ∀ b ∈ blocks.head?, cur.request.startBlockNum = b.header.number) →
      ∃ ps, (blocks.foldl (addBlock compressedSize args coinbase) (finished, cur)).1 ++
          [(blocks.foldl (addBlock compressedSize args coinbase) (finished, cur)).2] =
            finished ++ ps ∧
        ps.map (·.blocks) = Greedy.split (FullFor compressedSize args) cur.blocks blocks ∧
        ∀ p ∈ ps, p.Built args first := by
  induction blocks with
  | nil =>
      intro finished cur hfinished hcur hstart
      exact ⟨[cur], rfl, rfl, by simpa using hcur⟩
  | cons block blocks ih =>
      intro finished cur hfinished hcur hstart
      rw [List.foldl_cons, addBlock, Greedy.split]
      by_cases hnew : startsNewBatch compressedSize args cur.request block
      · rw [if_pos hnew, if_pos ((hcur.startsNewBatch_iff block).mp hnew)]
        have hfinished' : ∀ p ∈ finished ++ [cur], p.Built args first := by
          rw [List.forall_mem_append, List.forall_mem_singleton]
          exact ⟨hfinished, hcur⟩
        obtain ⟨ps, hps, hsplit, hbuilt⟩ := ih (finished ++ [cur]) hfinished'
          (@built_single args first
            (newParams compressedSize args cur.request coinbase block) block rfl rfl rfl rfl)
          fun hnil => by cases hnil
        refine ⟨cur :: ps, ?_, ?_, List.forall_mem_cons.mpr ⟨hcur, hbuilt⟩⟩
        · rw [hps, List.append_assoc]
          rfl
        · rw [List.map_cons, hsplit]
      · rw [if_neg hnew, if_neg fun h => hnew ((hcur.startsNewBatch_iff block).mpr h)]
        exact ih finished hfinished (hcur.extend block fun hnil => hstart hnil block rfl)
          fun hnil => by simp at hnil

variable (compressedSize args)

/-- **What `requestFromBlocks` returns**: batches built from the groups of a
greedy split of the blocks. -/
theorem requestFromBlocks_split (first : Block) (rest : List Block) :
    ∃ ps, requestFromBlocks compressedSize args (first :: rest) = .ok ps ∧
      ps.map (·.blocks) = Greedy.split (FullFor compressedSize args) [] (first :: rest) ∧
      ∀ p ∈ ps, p.Built args first := by
  obtain ⟨ps, hps, hsplit, hbuilt⟩ := foldl_addBlock_split compressedSize args
    first.header.beneficiary (first :: rest) [] (by simp) (built_start first)
    fun _ b hb => by cases hb; rfl
  exact ⟨ps, congrArg Except.ok hps, hsplit, hbuilt⟩

/-- The empty batch at the start is full for the first block iff that does not
fit. -/
theorem fullFor_nil (first : Block) :
    FullFor compressedSize args [] first ↔ ¬ FirstFits compressedSize args first := by
  simp only [FullFor, FirstFits, List.flatMap_nil, List.nil_append, List.length_nil]
  omega

/-- The groups are nonempty if the first block fits a batch; otherwise there is
an empty one before the others. -/
theorem split_cases (first : Block) (rest : List Block) :
    let groups := Greedy.split (FullFor compressedSize args) [] (first :: rest)
    FirstFits compressedSize args first ∧ (∀ g ∈ groups, g ≠ []) ∨
      ¬ FirstFits compressedSize args first ∧
        ∃ groups', groups = [] :: groups' ∧ ∀ g ∈ groups', g ≠ [] := by
  intro groups
  have hne : ∀ g ∈ Greedy.split (FullFor compressedSize args) [first] rest, g ≠ [] :=
    Greedy.ne_nil_of_mem_split rest (List.cons_ne_nil _ _)
  by_cases hfits : FirstFits compressedSize args first
  · refine Or.inl ⟨hfits, ?_⟩
    show ∀ g ∈ Greedy.split (FullFor compressedSize args) [] (first :: rest), g ≠ []
    rw [Greedy.split, if_neg ((fullFor_nil ..).not.mpr (not_not.mpr hfits))]
    exact hne
  · refine Or.inr ⟨hfits, _, ?_, hne⟩
    show Greedy.split (FullFor compressedSize args) [] (first :: rest) = _
    rw [Greedy.split, if_pos ((fullFor_nil ..).mpr hfits)]

/-- The proposals have the blocks in order.  If the first block fits a batch,
every proposal covers its blocks; otherwise there is an empty proposal before
the others. -/
theorem requestFromBlocks_spec (first : Block) (rest : List Block) :
    ∃ ps, requestFromBlocks compressedSize args (first :: rest) = .ok ps ∧
      ps.flatMap (·.blocks) = first :: rest ∧
      (FirstFits compressedSize args first ∧ (∀ p ∈ ps, p.Covers) ∨
        ¬ FirstFits compressedSize args first ∧
          ∃ empty ps', ps = empty :: ps' ∧ empty.blocks = [] ∧ ∀ p ∈ ps', p.Covers) := by
  obtain ⟨ps, hps, hsplit, hbuilt⟩ := requestFromBlocks_split compressedSize args first rest
  have hcovers : ∀ p ∈ ps, p.blocks ≠ [] → p.Covers := fun p hp hne => (hbuilt p hp).covers hne
  refine ⟨ps, hps, ?_, ?_⟩
  · rw [List.flatMap_def, hsplit, Greedy.flatten_split, List.nil_append]
  · rcases split_cases compressedSize args first rest with ⟨hfits, hne⟩ | ⟨hfits, groups, heq, hne⟩
    · refine Or.inl ⟨hfits, fun p hp => hcovers p hp ?_⟩
      apply hne p.blocks
      rw [← hsplit]
      exact List.mem_map_of_mem hp
    · rw [heq] at hsplit
      obtain ⟨empty, ps', rfl, hempty, hrest⟩ := List.map_eq_cons_iff.mp hsplit
      refine Or.inr ⟨hfits, empty, ps', rfl, hempty, fun p hp => ?_⟩
      refine hcovers p (List.mem_cons_of_mem _ hp) (hne p.blocks ?_)
      rw [← hrest]
      exact List.mem_map_of_mem hp

end Spec

end TaikoGateway
