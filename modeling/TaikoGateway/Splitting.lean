/-
TaikoGateway/Splitting.lean

What the batches of `request_from_blocks` are, for every compressor and all
limits.

* `partitions_iff`: they partition the blocks, each batch announcing exactly
  its own, unless the first block alone is too large; then an empty batch goes
  ahead of the others.
* `split_greedy`: a batch of several blocks respects both limits, and a batch
  ends only where the next block would break one.
* `slices_iff`: the tx counts of a batch cut its tx list into the blocks' own
  txs, unless a block has a further tx of the golden touch key, which is
  counted but not listed, or more txs than a `u16` counts.
-/
import TaikoGateway.Resync

namespace TaikoGateway

variable {compressedSize : List Order → Nat} {args : RequestArgs} {first : Block} {p : Proposal}

/-! ### Partition -/

/-- The batches have the blocks in order, nothing lost or repeated, and each of
them has blocks and announces these. -/
structure Partitions (blocks : List Block) (ps : List Proposal) : Prop where
  blocks : ps.flatMap (·.blocks) = blocks
  covers : ∀ p ∈ ps, p.Covers

/-- **The batches partition the blocks** exactly when the first block alone is
within the size limit. -/
theorem partitions_iff (compressedSize : List Order → Nat) (args : RequestArgs)
    (hmax : 1 ≤ args.maxBlocksPerBatch) (first : Block) (rest : List Block) :
    ∃ ps, requestFromBlocks compressedSize args (first :: rest) = .ok ps ∧
      (Partitions (first :: rest) ps ↔
        compressedSize (blockOrders first) ≤ args.batchTargetSize) := by
  obtain ⟨ps, hps, hblocks, hcase⟩ := requestFromBlocks_spec compressedSize args first rest
  refine ⟨ps, hps, ?_⟩
  rcases hcase with ⟨⟨-, hsize⟩, hcovers⟩ | ⟨hfits, empty, ps', rfl, hempty, -⟩
  · exact iff_of_true ⟨hblocks, hcovers⟩ hsize
  · refine iff_of_false (fun h => ?_) fun hsize => hfits ⟨hmax, hsize⟩
    exact (h.covers empty List.mem_cons_self).ne_nil hempty

section Sample

/-- A tx whose encoding has this many bytes. -/
def sizedTx (bytes : Nat) : Transaction :=
  { fromAddr := 5
    inner :=
      { nonce := 0
        maxFeePerGas := 1
        priorityFeeOrPrice := 0
        input := .other []
        encoded2718 := List.replicate bytes 0 } }

/-- Block `number` with these txs after the anchor. -/
def blockWithTxs (number : Nat) (txs : List Transaction) : Block :=
  { sampleBlock number 100 with
    transactions := .full ((sampleBlock number 100).transactions.intoTransactions ++ txs) }

/-- At most 20 bytes, and at most two blocks. -/
def tightArgs : RequestArgs :=
  { sampleManager.sameArgs 100 with
    maxBlocksPerBatch := 2
    batchTargetSize := 20 }

theorem partitions_iff_sample :
    ∃ ps, requestFromBlocks sampleManager.compressedSize tightArgs
        [blockWithTxs 1 [sizedTx 5], blockWithTxs 2 [sizedTx 30], blockWithTxs 3 []] = .ok ps ∧
      Partitions [blockWithTxs 1 [sizedTx 5], blockWithTxs 2 [sizedTx 30], blockWithTxs 3 []]
        ps := by
  obtain ⟨ps, hps, hiff⟩ := partitions_iff sampleManager.compressedSize tightArgs (by decide)
    (blockWithTxs 1 [sizedTx 5]) [blockWithTxs 2 [sizedTx 30], blockWithTxs 3 []]
  exact ⟨ps, hps, hiff.mpr (by decide +kernel)⟩

/-- A first block of 30 bytes: the first batch has no block. -/
theorem oversized_first_block :
    ∃ ps, requestFromBlocks sampleManager.compressedSize tightArgs
        [blockWithTxs 1 [sizedTx 30]] = .ok ps ∧
      ps.map (fun p => p.request.blockParams.length) = [0, 1] ∧
      ps.map (fun p => (p.request.startBlockNum, p.request.endBlockNum)) = [(1, 1), (1, 1)] ∧
      ¬ Partitions [blockWithTxs 1 [sizedTx 30]] ps := by
  refine ⟨_, rfl, by decide +kernel, by decide +kernel, fun h => ?_⟩
  exact (h.covers _ List.mem_cons_self).ne_nil rfl

end Sample

/-! ### Greedy limits -/

/-- The batch ends where the next one starts because the next block would have
made it too large, or it has all the blocks it may have. -/
def EndsBefore (compressedSize : List Order → Nat) (args : RequestArgs) (p q : Proposal) : Prop :=
  ∃ block, q.blocks.head? = some block ∧
    (args.batchTargetSize < compressedSize (p.request.allTxList ++ blockOrders block) ∨
      args.maxBlocksPerBatch ≤ p.request.blockParams.length)

theorem Proposal.Built.fullFor_iff (h : p.Built args first) (block : Block) :
    FullFor compressedSize args p.blocks block ↔
      args.batchTargetSize < compressedSize (p.request.allTxList ++ blockOrders block) ∨
        args.maxBlocksPerBatch ≤ p.request.blockParams.length := by
  rw [← h.startsNewBatch_iff, startsNewBatch]

/-- A batch whose blocks all found room is within the limits. -/
theorem Proposal.Built.limits (h : p.Built args first)
    (hfits : Greedy.Fits (FullFor compressedSize args) p.blocks) (htwo : 2 ≤ p.blocks.length) :
    compressedSize p.request.allTxList ≤ args.batchTargetSize ∧
      p.request.blockParams.length ≤ args.maxBlocksPerBatch := by
  -- the last block was added to the ones before it
  obtain hnil | ⟨pre, last, hblocks⟩ := List.eq_nil_or_concat' p.blocks
  · rw [hnil, List.length_nil] at htwo
    omega
  have hpre : pre ≠ [] := by
    rintro rfl
    rw [hblocks] at htwo
    simp at htwo
  have hroom := hfits pre last [] hblocks hpre
  rw [FullFor, not_or, not_lt, not_le] at hroom
  constructor
  · rw [h.orders, hblocks, List.flatMap_append, List.flatMap_singleton]
    exact hroom.1
  · rw [h.count, hblocks, List.length_append, List.length_singleton]
    exact hroom.2

/-- **The split is greedy.**  Every batch of several blocks is within the size
limit and the block limit, and a batch starts only at a block that did not fit
the batch before it. -/
theorem split_greedy (compressedSize : List Order → Nat) (args : RequestArgs) (first : Block)
    (rest : List Block) :
    ∃ ps, requestFromBlocks compressedSize args (first :: rest) = .ok ps ∧
      (∀ p ∈ ps, 2 ≤ p.blocks.length →
        compressedSize p.request.allTxList ≤ args.batchTargetSize ∧
          p.request.blockParams.length ≤ args.maxBlocksPerBatch) ∧
      ps.IsChain (EndsBefore compressedSize args) := by
  obtain ⟨ps, hps, hsplit, hbuilt⟩ := requestFromBlocks_split compressedSize args first rest
  refine ⟨ps, hps, fun p hp htwo => (hbuilt p hp).limits ?_ htwo, ?_⟩
  · apply Greedy.fits_of_mem_split (first :: rest) Greedy.fits_nil p.blocks
    rw [← hsplit]
    exact List.mem_map_of_mem hp
  · have hchain := @Greedy.isChain_split _ (FullFor compressedSize args) _ (first :: rest) []
    rw [← hsplit, List.isChain_map] at hchain
    apply hchain.imp_of_mem_imp
    intro p q hp _ h
    obtain ⟨block, hblock, hfull⟩ := h
    exact ⟨block, hblock, ((hbuilt p hp).fullFor_iff block).mp hfull⟩

/-! ### Slices of the tx list -/

/-- Cutting a list into slices of these lengths gives `xss` and leaves nothing
over iff `xss` are pieces of these lengths that make up the list. -/
theorem splitLengths_eq_iff {α : Type*} {sizes : List Nat} {xs : List α} {xss : List (List α)} :
    (sizes.sum = xs.length ∧ sizes.splitLengths xs = xss) ↔
      xss.map List.length = sizes ∧ xss.flatten = xs := by
  constructor
  · rintro ⟨hsum, rfl⟩
    exact ⟨List.map_splitLengths_length xs sizes hsum.le,
      List.flatten_splitLengths xs sizes hsum.ge⟩
  · rintro ⟨rfl, rfl⟩
    refine ⟨by rw [List.length_flatten], ?_⟩
    induction xss with
    | nil => rfl
    | cons x xss ih =>
        rw [List.map_cons, List.flatten_cons, List.splitLengths_cons, List.take_left,
          List.drop_left, ih]

/-- Lists that are parts of others make up the same list only if they are
these. -/
theorem eq_of_flatMap_eq {ι α : Type*} {f g : ι → List α} {is : List ι}
    (hsub : ∀ i ∈ is, (f i).Sublist (g i)) (h : is.flatMap f = is.flatMap g) :
    ∀ i ∈ is, f i = g i := by
  induction is with
  | nil => simp
  | cons i is ih =>
      rw [List.forall_mem_cons] at hsub ⊢
      obtain ⟨hfirst, hrest⟩ := hsub
      rw [List.flatMap_cons, List.flatMap_cons] at h
      have hlength := congrArg List.length h
      have hle := (List.Sublist.flatMap_right is hrest).length_le
      rw [List.length_append, List.length_append] at hlength
      have heq : f i = g i := hfirst.eq_of_length_le (by omega)
      rw [heq] at h
      exact ⟨heq, ih hrest (List.append_cancel_left h)⟩

/-- What `resync` checks of a block: its first tx is one of the golden touch
key. -/
def AnchorFirst (block : Block) : Prop :=
  ∃ tx, block.transactions.asTransactions.bind (·.head?) = some tx ∧
    tx.fromAddr = goldenTouchAddress

/-- The tx counts of a batch add up to its tx list, and cut it into the txs
after the anchor of its blocks. -/
structure Proposal.SlicesMatch (p : Proposal) : Prop where
  total : (p.request.blockParams.map (·.numTransactions)).sum = p.request.allTxList.length
  slices : (p.request.blockParams.map (·.numTransactions)).splitLengths p.request.allTxList =
    p.blocks.map Block.userOrders

/-- The txs after the anchor are few enough for a `u16`, and none of them is of
the golden touch key. -/
structure Block.Countable (block : Block) : Prop where
  others : ∀ tx ∈ block.transactions.intoTransactions.tail, tx.fromAddr ≠ goldenTouchAddress
  count : block.transactions.intoTransactions.tail.length < 2 ^ 16

theorem blockOrders_sublist {block : Block} (h : AnchorFirst block) :
    (blockOrders block).Sublist block.userOrders := by
  obtain ⟨tx, htx, hgolden⟩ := h
  obtain ⟨header, txs | hashes | -⟩ := block
  · obtain ⟨rest, rfl⟩ := List.head?_eq_some_iff.mp htx
    simp only [blockOrders, BlockTransactions.intoTransactions, Block.userOrders, List.tail_cons,
      List.filter_cons_of_neg, hgolden, ne_eq, not_true_eq_false, decide_false,
      Bool.false_eq_true, not_false_eq_true]
    exact List.filter_sublist.map _
  · cases htx
  · cases htx

/-- A block is listed as it is counted iff it is `Countable`. -/
theorem countable_iff {block : Block} (h : AnchorFirst block) :
    block.Countable ↔ block.userOrders.length = u64Sub block.transactions.length 1 % 2 ^ 16 ∧
      blockOrders block = block.userOrders := by
  obtain ⟨tx, htx, hgolden⟩ := h
  obtain ⟨header, txs | hashes | -⟩ := block
  · obtain ⟨rest, rfl⟩ := List.head?_eq_some_iff.mp htx
    have hcount : u64Sub (BlockTransactions.full (tx :: rest)).length 1 = rest.length :=
      u64Sub_of_le (Nat.succ_pos rest.length)
    have hlisted : blockOrders ⟨header, .full (tx :: rest)⟩ =
        Block.userOrders ⟨header, .full (tx :: rest)⟩ ↔
          ∀ tx ∈ rest, tx.fromAddr ≠ goldenTouchAddress := by
      simp only [blockOrders, BlockTransactions.intoTransactions, Block.userOrders,
        List.tail_cons, List.filter_cons_of_neg, hgolden, ne_eq, not_true_eq_false, decide_false,
        Bool.false_eq_true, not_false_eq_true]
      constructor
      · intro heq
        have hlength := congrArg List.length heq
        rw [List.length_map, List.length_map, List.length_filter_eq_length_iff] at hlength
        simpa using hlength
      · intro hothers
        rw [List.filter_eq_self.mpr (by simpa using hothers)]
    rw [hcount, hlisted]
    have hlength : (Block.userOrders ⟨header, .full (tx :: rest)⟩).length = rest.length :=
      List.length_map _
    rw [hlength]
    constructor
    · rintro ⟨hothers, hfew⟩
      exact ⟨(Nat.mod_eq_of_lt hfew).symm, hothers⟩
    · rintro ⟨hmod, hothers⟩
      refine ⟨hothers, ?_⟩
      show rest.length < 2 ^ 16
      rw [hmod]
      exact Nat.mod_lt _ (by decide)
  · cases htx
  · cases htx

theorem Proposal.Built.slicesMatch_iff (h : p.Built args first)
    (hanchor : ∀ b ∈ p.blocks, AnchorFirst b) :
    p.SlicesMatch ↔ ∀ b ∈ p.blocks, b.Countable := by
  have hcut : p.SlicesMatch ↔
      (p.blocks.map Block.userOrders).map List.length =
          p.request.blockParams.map (·.numTransactions) ∧
        (p.blocks.map Block.userOrders).flatten = p.request.allTxList :=
    (⟨fun h => ⟨h.1, h.2⟩, fun h => ⟨h.1, h.2⟩⟩ : p.SlicesMatch ↔ _ ∧ _).trans
      splitLengths_eq_iff
  rw [hcut, h.counts, h.orders, List.map_map, List.map_inj_left, ← List.flatMap_def]
  constructor
  · rintro ⟨hcounts, hlisted⟩ b hb
    have heq := eq_of_flatMap_eq (fun b hb => blockOrders_sublist (hanchor b hb)) hlisted.symm
    exact (countable_iff (hanchor b hb)).mpr ⟨hcounts b hb, heq b hb⟩
  · intro hall
    refine ⟨fun b hb => ((countable_iff (hanchor b hb)).mp (hall b hb)).1, ?_⟩
    exact List.flatMap_congr fun b hb => ((countable_iff (hanchor b hb)).mp (hall b hb)).2.symm

/-- **The tx counts cut the tx list into the blocks' own txs**, in all batches,
exactly when no block has a second tx of the golden touch key, or more txs
after its anchor than a `u16` counts. -/
theorem slices_iff (compressedSize : List Order → Nat) (args : RequestArgs) (first : Block)
    (rest : List Block) (hanchor : ∀ b ∈ first :: rest, AnchorFirst b) :
    ∃ ps, requestFromBlocks compressedSize args (first :: rest) = .ok ps ∧
      ((∀ p ∈ ps, p.SlicesMatch) ↔ ∀ b ∈ first :: rest, b.Countable) := by
  obtain ⟨ps, hps, hsplit, hbuilt⟩ := requestFromBlocks_split compressedSize args first rest
  have hblocks : ps.flatMap (·.blocks) = first :: rest := by
    rw [List.flatMap_def, hsplit, Greedy.flatten_split, List.nil_append]
  have hmem : ∀ p ∈ ps, ∀ b ∈ p.blocks, b ∈ first :: rest := by
    intro p hp b hb
    rw [← hblocks]
    exact List.mem_flatMap.mpr ⟨p, hp, hb⟩
  have hiff : ∀ p ∈ ps, (p.SlicesMatch ↔ ∀ b ∈ p.blocks, b.Countable) := fun p hp =>
    (hbuilt p hp).slicesMatch_iff fun b hb => hanchor b (hmem p hp b hb)
  refine ⟨ps, hps, ?_⟩
  constructor
  · intro hslices b hb
    rw [← hblocks] at hb
    obtain ⟨p, hp, hb⟩ := List.mem_flatMap.mp hb
    exact (hiff p hp).mp (hslices p hp) b hb
  · intro hall p hp
    exact (hiff p hp).mpr fun b hb => hall b (hmem p hp b hb)

section Sample

/-- A tx of the golden touch key that is not an anchor. -/
def goldenTx : Transaction := { sizedTx 5 with fromAddr := goldenTouchAddress }

theorem slices_iff_sample :
    ∃ ps, requestFromBlocks sampleManager.compressedSize tightArgs
        [blockWithTxs 1 [sizedTx 5, sizedTx 6], blockWithTxs 2 [sizedTx 30]] = .ok ps ∧
      ∀ p ∈ ps, p.SlicesMatch := by
  obtain ⟨ps, hps, hiff⟩ := slices_iff sampleManager.compressedSize tightArgs
    (blockWithTxs 1 [sizedTx 5, sizedTx 6]) [blockWithTxs 2 [sizedTx 30]]
    (by rintro b hb; fin_cases hb <;> exact ⟨_, rfl, rfl⟩)
  refine ⟨ps, hps, hiff.mpr fun b hb => ?_⟩
  fin_cases hb <;> exact ⟨by decide, by decide⟩

/-- The tx of the golden touch key in block 1 is counted but not listed, so the
only tx in the list, that of block 2, is given to block 1. -/
theorem golden_tx_shifts_slices :
    (∀ b ∈ [blockWithTxs 1 [goldenTx], blockWithTxs 2 [sizedTx 5]], AnchorFirst b) ∧
      ∃ p, requestFromBlocks sampleManager.compressedSize tightArgs
          [blockWithTxs 1 [goldenTx], blockWithTxs 2 [sizedTx 5]] = .ok [p] ∧
        p.request.blockParams.map (·.numTransactions) = [1, 1] ∧
        p.request.allTxList = (blockWithTxs 2 [sizedTx 5]).userOrders ∧ ¬ p.SlicesMatch := by
  refine ⟨by rintro b hb; fin_cases hb <;> exact ⟨_, rfl, rfl⟩, _, rfl, by decide +kernel,
    by decide +kernel, fun h => ?_⟩
  exact absurd h.total (by decide +kernel)

end Sample

end TaikoGateway
