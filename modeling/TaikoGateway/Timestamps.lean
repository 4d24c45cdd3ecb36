/-
TaikoGateway/Timestamps.lean

The timestamps a batch gives its blocks on L1: the last one is sent as it is,
the others by the shifts between neighbours, so that a block has the last
timestamp less the shifts after it.

A shift is one byte, and one that is longer is sent as 0.  The batches of
`request_from_blocks` give all blocks their timestamps exactly when no block
is 256 seconds or more after the block before it in its batch
(`timestamps_encoded_iff`); `validate_batch_params` does not look at the gaps
(`long_gap_lost`).
-/
import TaikoGateway.Resync

namespace TaikoGateway

/-! ### Suffix sums -/

namespace Shifts

/-- Every one of `ts` is `last` less the shifts after its place. -/
def Encodes (last : Nat) (shifts ts : List Nat) : Prop :=
  ∀ i t, ts[i]? = some t → t + (shifts.drop (i + 1)).sum = last

theorem encodes_nil (last : Nat) (shifts : List Nat) : Encodes last shifts [] := by
  intro i t h
  simp at h

theorem encodes_single (t d : Nat) : Encodes t [d] [t] := by
  intro i u h
  rw [List.getElem?_singleton] at h
  split at h
  · rename_i hi
    cases h
    simp [hi]
  · cases h

/-- One more time is encoded exactly when its shift leads to it. -/
theorem encodes_concat_iff {last t d : Nat} {shifts ts : List Nat}
    (hlength : shifts.length = ts.length) (hlast : ts.getLast? = some last) :
    Encodes t (shifts ++ [d]) (ts ++ [t]) ↔ Encodes last shifts ts ∧ last + d = t := by
  -- the shifts after an old place are the old ones and the new one
  have hdrop : ∀ i, i < ts.length →
      ((shifts ++ [d]).drop (i + 1)).sum = (shifts.drop (i + 1)).sum + d := by
    intro i hi
    rw [List.drop_append_of_le_length (by omega), List.sum_append, List.sum_singleton]
  constructor
  · intro h
    have hne : ts ≠ [] := by
      rintro rfl
      cases hlast
    have hpos : 0 < ts.length := List.length_pos_iff.mpr hne
    have hd : last + d = t := by
      have hget : (ts ++ [t])[ts.length - 1]? = some last := by
        rw [List.getElem?_append_left (by omega), ← List.getLast?_eq_getElem?, hlast]
      have hsum := h _ _ hget
      rw [hdrop _ (by omega), List.drop_eq_nil_of_le (by omega), List.sum_nil] at hsum
      omega
    refine ⟨fun i u hu => ?_, hd⟩
    obtain ⟨hi, -⟩ := List.getElem?_eq_some_iff.mp hu
    have hsum := h i u (by rwa [List.getElem?_append_left hi])
    rw [hdrop i hi] at hsum
    omega
  · rintro ⟨h, hd⟩ i u hu
    by_cases hi : i < ts.length
    · rw [List.getElem?_append_left hi] at hu
      have hsum := h i u hu
      rw [hdrop i hi]
      omega
    · rw [List.getElem?_append_right (by omega), List.getElem?_singleton] at hu
      split at hu
      · cases hu
        rw [List.drop_eq_nil_of_le (by rw [List.length_append, List.length_singleton]; omega)]
        rfl
      · cases hu

end Shifts

/-! ### Batches -/

/-- The timestamps of the blocks, as L1 reads them off the batch, are their
own. -/
structure Proposal.EncodesTimestamps (p : Proposal) : Prop where
  firstShift : ∀ first ∈ p.request.blockParams.head?, first.timeShift = 0
  encodes : Shifts.Encodes p.request.lastTimestamp (p.request.blockParams.map (·.timeShift))
    (p.blocks.map (·.header.timestamp))

section Batches

variable (compressedSize : List Order → Nat) (args : RequestArgs)

/-- A block that stays in the batch of the block `prev` before it is less than
256 seconds after it.  `orders` and `count` are the tx list and the number of
blocks of that batch. -/
def GapsFit : List Order → Nat → Block → List Block → Prop
  | _, _, _, [] => True
  | orders, count, prev, block :: rest =>
      if args.batchTargetSize < compressedSize (orders ++ blockOrders block) ∨
          args.maxBlocksPerBatch ≤ count then
        GapsFit (blockOrders block) 1 block rest
      else
        block.header.timestamp < prev.header.timestamp + 2 ^ 8 ∧
          GapsFit (orders ++ blockOrders block) (count + 1) block rest

instance GapsFit.decidable : ∀ (orders : List Order) (count : Nat) (prev : Block)
    (blocks : List Block), Decidable (GapsFit compressedSize args orders count prev blocks)
  | _, _, _, [] => isTrue trivial
  | orders, count, prev, block :: rest =>
      have := GapsFit.decidable (blockOrders block) 1 block rest
      have := GapsFit.decidable (orders ++ blockOrders block) (count + 1) block rest
      inferInstanceAs (Decidable (
        if args.batchTargetSize < compressedSize (orders ++ blockOrders block) ∨
          args.maxBlocksPerBatch ≤ count
        then GapsFit compressedSize args (blockOrders block) 1 block rest
        else block.header.timestamp < prev.header.timestamp + 2 ^ 8 ∧
          GapsFit compressedSize args (orders ++ blockOrders block) (count + 1) block rest))

/-- A batch with this tx list and number of blocks, the last of them `prev`. -/
structure Proposal.EndsAt (p : Proposal) (orders : List Order) (count : Nat) (prev : Block) :
    Prop where
  allTxList : p.request.allTxList = orders
  length_blockParams : p.request.blockParams.length = count
  length_blocks : p.blocks.length = count
  pos : 0 < count
  last : p.blocks.getLast? = some prev
  lastTimestamp : p.request.lastTimestamp = prev.header.timestamp

variable {compressedSize args} {p : Proposal} {orders : List Order} {count : Nat}
  {prev block : Block}

theorem startsNewBatch_iff (h : p.EndsAt orders count prev) :
    startsNewBatch compressedSize args p.request block ↔
      args.batchTargetSize < compressedSize (orders ++ blockOrders block) ∨
        args.maxBlocksPerBatch ≤ count := by
  rw [startsNewBatch, h.allTxList, h.length_blockParams]

/-- A batch of one block. -/
theorem endsAt_single {cur : ProposeBatchParams} (hparams : cur.blockParams = [])
    (horders : cur.allTxList = orders) (hts : args.timestampOverride = none) :
    Proposal.EndsAt { request := pushBlock args cur block, blocks := [block] } orders 1 block := by
  refine ⟨horders, ?_, rfl, Nat.one_pos, rfl, ?_⟩
  · simp [pushBlock, hparams]
  · simp [pushBlock, RequestArgs.timestamp, hts]

theorem encodesTimestamps_single {cur : ProposeBatchParams} (hparams : cur.blockParams = [])
    (hlast : cur.lastTimestamp = block.header.timestamp) (hts : args.timestampOverride = none)
    (hshift : args.timeshiftOverride = none) :
    Proposal.EncodesTimestamps { request := pushBlock args cur block, blocks := [block] } := by
  constructor
  · intro first hfirst
    simp only [pushBlock, hparams, List.nil_append, List.head?_cons, Option.mem_some_iff] at hfirst
    rw [← hfirst]
    simp [timeShift, hshift, hlast]
  · simp only [pushBlock, hparams, List.nil_append, List.map_cons, List.map_nil,
      RequestArgs.timestamp, hts, Option.getD_none]
    exact Shifts.encodes_single _ _

theorem Proposal.EndsAt.extend (h : p.EndsAt orders count prev)
    (hts : args.timestampOverride = none) :
    Proposal.EndsAt
      { request := pushBlock args (extendParams compressedSize p.request block) block
        blocks := p.blocks ++ [block] } (orders ++ blockOrders block) (count + 1) block := by
  refine ⟨?_, ?_, ?_, Nat.succ_pos _, List.getLast?_concat, ?_⟩
  · simp [pushBlock, extendParams, h.allTxList]
  · simp [pushBlock, extendParams, h.length_blockParams]
  · simp [h.length_blocks]
  · simp [pushBlock, RequestArgs.timestamp, hts]

/-- One more block keeps the encoding exactly when the shift to it fits a
byte. -/
theorem Proposal.EndsAt.encodesTimestamps_extend_iff (h : p.EndsAt orders count prev)
    (hle : prev.header.timestamp ≤ block.header.timestamp) (hts : args.timestampOverride = none)
    (hshift : args.timeshiftOverride = none) :
    Proposal.EncodesTimestamps
        { request := pushBlock args (extendParams compressedSize p.request block) block
          blocks := p.blocks ++ [block] } ↔
      p.EncodesTimestamps ∧ block.header.timestamp < prev.header.timestamp + 2 ^ 8 := by
  have hlength : (p.request.blockParams.map (·.timeShift)).length =
      (p.blocks.map (·.header.timestamp)).length := by
    rw [List.length_map, List.length_map, h.length_blockParams, h.length_blocks]
  have hlast : (p.blocks.map (·.header.timestamp)).getLast? = some p.request.lastTimestamp := by
    rw [List.getLast?_map, h.last, h.lastTimestamp]
    rfl
  have hne : p.request.blockParams ≠ [] := by
    intro hnil
    have hcount := h.length_blockParams
    rw [hnil] at hcount
    exact absurd hcount h.pos.ne
  -- a gap that does not fit is encoded as 0, which is right only for a gap of 0
  have hshiftTo : p.request.lastTimestamp + timeShift args
      (extendParams compressedSize p.request block) block = block.header.timestamp ↔
      block.header.timestamp < prev.header.timestamp + 2 ^ 8 := by
    rw [h.lastTimestamp]
    simp only [timeShift, extendParams, hshift, Option.getD_none, h.lastTimestamp]
    split <;> omega
  rw [← hshiftTo]
  constructor
  · rintro ⟨hfirst, hencodes⟩
    simp only [pushBlock, extendParams, List.map_append, List.map_cons, List.map_nil,
      RequestArgs.timestamp, hts, Option.getD_none] at hencodes hfirst
    obtain ⟨hold, hnew⟩ := (Shifts.encodes_concat_iff hlength hlast).mp hencodes
    refine ⟨⟨fun first hmem => ?_, hold⟩, hnew⟩
    exact hfirst first (by rwa [List.head?_append_of_ne_nil _ hne])
  · rintro ⟨⟨hfirst, hencodes⟩, hnew⟩
    constructor
    · intro first hmem
      simp only [pushBlock, extendParams] at hmem
      rw [List.head?_append_of_ne_nil _ hne] at hmem
      exact hfirst first hmem
    · simp only [pushBlock, extendParams, List.map_append, List.map_cons, List.map_nil,
        RequestArgs.timestamp, hts, Option.getD_none]
      exact (Shifts.encodes_concat_iff hlength hlast).mpr ⟨hencodes, hnew⟩

variable (compressedSize) in
/-- **The loop.**  From a current batch the batches all give their blocks the
right timestamps exactly when the current one does and the further gaps fit. -/
theorem foldl_addBlock_encodes_iff (hts : args.timestampOverride = none)
    (hshift : args.timeshiftOverride = none) (coinbase : Address) (blocks : List Block) :
    ∀ (finished : List Proposal) {cur : Proposal} {orders : List Order} {count : Nat}
      {prev : Block},
      cur.EndsAt orders count prev →
      ((prev :: blocks).map (·.header.timestamp)).Pairwise (· ≤ ·) →
      ((∀ p ∈ (blocks.foldl (addBlock compressedSize args coinbase) (finished, cur)).1 ++
          [(blocks.foldl (addBlock compressedSize args coinbase) (finished, cur)).2],
          p.EncodesTimestamps) ↔
        (∀ p ∈ finished, p.EncodesTimestamps) ∧ cur.EncodesTimestamps ∧
          GapsFit compressedSize args orders count prev blocks) := by
  induction blocks with
  | nil =>
      intro finished cur orders count prev hcur hsorted
      rw [List.foldl_nil, List.forall_mem_append, List.forall_mem_singleton, GapsFit, and_true]
  | cons block blocks ih =>
      intro finished cur orders count prev hcur hsorted
      rw [List.map_cons, List.pairwise_cons] at hsorted
      obtain ⟨hprev, hrest⟩ := hsorted
      have hle : prev.header.timestamp ≤ block.header.timestamp :=
        hprev _ (by simp)
      -- a block that opens a batch has shift 0 there, so its gap is free
      rw [List.foldl_cons, GapsFit, addBlock]
      by_cases hnew : startsNewBatch compressedSize args cur.request block
      · rw [if_pos hnew, if_pos ((startsNewBatch_iff hcur).mp hnew),
          ih _ (endsAt_single rfl rfl hts) hrest, List.forall_mem_append, List.forall_mem_singleton]
        have hsingle := @encodesTimestamps_single args block
          (newParams compressedSize args cur.request coinbase block) rfl
          (by simp [newParams, RequestArgs.timestamp, hts]) hts hshift
        constructor
        · rintro ⟨⟨hfinished, hencodes⟩, -, hgaps⟩
          exact ⟨hfinished, hencodes, hgaps⟩
        · rintro ⟨hfinished, hencodes, hgaps⟩
          exact ⟨⟨hfinished, hencodes⟩, hsingle, hgaps⟩
      · rw [if_neg hnew, if_neg fun h => hnew ((startsNewBatch_iff hcur).mpr h),
          ih _ (hcur.extend hts) hrest, hcur.encodesTimestamps_extend_iff hle hts hshift, and_assoc]

end Batches

/-- **The timestamps on L1.**  For blocks in the order of their timestamps,
without overrides, every batch gives its blocks their own timestamps exactly
when no block is 256 seconds or more after the block before it in its batch. -/
theorem timestamps_encoded_iff (compressedSize : List Order → Nat) (args : RequestArgs)
    (hts : args.timestampOverride = none) (hshift : args.timeshiftOverride = none)
    (first : Block) (rest : List Block)
    (hsorted : ((first :: rest).map (·.header.timestamp)).Pairwise (· ≤ ·)) :
    ∃ ps, requestFromBlocks compressedSize args (first :: rest) = .ok ps ∧
      ((∀ p ∈ ps, p.EncodesTimestamps) ↔
        GapsFit compressedSize args (blockOrders first) 1 first rest) := by
  refine ⟨_, rfl, ?_⟩
  rw [List.foldl_cons, addBlock]
  have hstart : (startParams args first).lastTimestamp = first.header.timestamp := by
    simp [startParams, RequestArgs.timestamp, hts]
  have hempty : Proposal.EncodesTimestamps { request := startParams args first, blocks := [] } :=
    ⟨fun bp hbp => (by cases hbp), Shifts.encodes_nil _ _⟩
  by_cases hnew : startsNewBatch compressedSize args (startParams args first) first
  · -- the batch before the first block stays empty
    rw [if_pos hnew]
    have hloop := foldl_addBlock_encodes_iff compressedSize hts hshift first.header.beneficiary
      rest
      [{ request := startParams args first, blocks := [] }]
      (@endsAt_single args _ first
        (newParams compressedSize args (startParams args first) first.header.beneficiary first)
        rfl rfl hts) hsorted
    have hsingle := @encodesTimestamps_single args first
      (newParams compressedSize args (startParams args first) first.header.beneficiary first) rfl
      (by simp [newParams, RequestArgs.timestamp, hts]) hts hshift
    refine hloop.trans ⟨fun h => h.2.2, fun h => ⟨?_, hsingle, h⟩⟩
    exact List.forall_mem_singleton.mpr hempty
  · rw [if_neg hnew]
    have hloop := foldl_addBlock_encodes_iff compressedSize hts hshift first.header.beneficiary
      rest []
      (@endsAt_single args (blockOrders first) first
        (extendParams compressedSize (startParams args first) first) rfl rfl hts) hsorted
    have hsingle := @encodesTimestamps_single args first
      (extendParams compressedSize (startParams args first) first) rfl hstart hts hshift
    refine hloop.trans ⟨fun h => h.2.2, fun h => ⟨fun p hp => ?_, hsingle, h⟩⟩
    cases hp

section Sample

/-- Two blocks, the second this many seconds after the first. -/
def gapBlocks (gap : Nat) : List Block :=
  [ sampleBlock 1 100,
    { sampleBlock 2 100 with
      header := { (sampleBlock 2 100).header with timestamp := 1212 + gap } } ]

/-- A gap of a minute is encoded. -/
theorem timestamps_encoded_iff_sample :
    ∃ ps, requestFromBlocks sampleManager.compressedSize (sampleManager.sameArgs 100)
        (gapBlocks 60) = .ok ps ∧ ∀ p ∈ ps, p.EncodesTimestamps := by
  obtain ⟨ps, hps, hiff⟩ := timestamps_encoded_iff sampleManager.compressedSize
    (sampleManager.sameArgs 100) rfl rfl (sampleBlock 1 100) (gapBlocks 60).tail (by decide)
  exact ⟨ps, hps, hiff.mpr (by decide +kernel)⟩

/-- A gap of five minutes is accepted, and sent as 0. -/
theorem long_gap_lost :
    validateBatchParams 90 1200 111 1800 100 (gapBlocks 300) sampleManager.params = .ok () ∧
      ∃ p, requestFromBlocks sampleManager.compressedSize (sampleManager.sameArgs 100)
          (gapBlocks 300) = .ok [p] ∧
        p.request.lastTimestamp = 1512 ∧
        p.request.blockParams.map (·.timeShift) = [0, 0] ∧
        p.blocks.map (·.header.timestamp) = [1212, 1512] ∧ ¬ p.EncodesTimestamps := by
  refine ⟨by decide +kernel, _, rfl, by decide +kernel, by decide +kernel, by decide +kernel,
    fun h => ?_⟩
  have hfirst := h.encodes 0 1212 (by decide +kernel)
  exact absurd hfirst (by decide +kernel)

end Sample

end TaikoGateway
