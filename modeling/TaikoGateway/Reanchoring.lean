/-
TaikoGateway/Reanchoring.lean

The new anchor and timestamp on the re-anchoring path of `resync`
(`propose_reorged_batch`).

Both are computed from the L1 head, the safe lag and the current slot, and not
compared with the L2 parent, as `validate_batch_params` does for batches with
the anchors of their blocks.  The requests respect the parent iff its anchor is
not among the last `safe_l1_lag` L1 blocks and its timestamp is not after the
start of the slot before the current one (`reanchored_aboveParent_iff`).
-/
import TaikoGateway.PendingGroups

namespace TaikoGateway

variable {m : ProposerManager} {env : ResyncEnv}

/-- The timestamp of the first block of a batch, as the inbox computes it. -/
def ProposeBatchParams.firstTimestamp (request : ProposeBatchParams) : Nat :=
  request.lastTimestamp - (request.blockParams.map (·.timeShift)).sum

/-- The rules of `validateBatchParams` on the parent. -/
structure ProposeBatchParams.AboveParent (request : ProposeBatchParams) (l2Parent : Block) :
    Prop where
  anchor : anchorOf l2Parent ≤ request.anchorBlockId
  timestamp : l2Parent.header.timestamp ≤ request.firstTimestamp

/-- Re-anchored blocks all have the override timestamp. -/
theorem Proposal.Built.reorged {anchorBlockId utc : Nat} {first : Block} {p : Proposal}
    (h : p.Built (m.reorgArgs anchorBlockId utc) first) :
    p.request.anchorBlockId = anchorBlockId ∧
      p.request.firstTimestamp = m.overrideTimestamp utc := by
  refine ⟨h.anchor, ?_⟩
  have hshifts : (p.request.blockParams.map (·.timeShift)).sum = 0 := by
    rw [List.sum_eq_zero_iff]
    intro shift hshift
    obtain ⟨params, hparams, rfl⟩ := List.mem_map.mp hshift
    exact h.shifts 0 rfl params hparams
  rw [ProposeBatchParams.firstTimestamp, hshifts, Nat.sub_zero, h.timestamp]
  rfl

variable {origin last : Nat} {blocks : List Block}

/-- **When the re-anchored requests respect the parent**: its anchor is below
the safe lag, and its timestamp is not after the start of the slot before the
current one. -/
theorem reanchored_aboveParent_iff (m : ProposerManager) (env : ResyncEnv) (origin last : Nat)
    (blocks : List Block) (l1Block safeBlock : Header) (l2Parent : Block)
    (hfetched : fetchNBlocks env.getBlock (origin + 1) last = .ok blocks)
    (hanchored : ∀ b ∈ blocks, Anchored b) (hl1 : env.l1Block = some l1Block)
    (hl2 : env.l2Parent = some l2Parent) (hparent : Anchored l2Parent)
    (hsafe : env.getL1Block (l1Block.number - m.safeL1Lag) = some safeBlock)
    (hnumber : safeBlock.number = l1Block.number - m.safeL1Lag)
    (hreanchors : reanchors m env blocks = true) :
    ∃ outcome, resync m env origin last = .ok outcome ∧
      ((∀ p ∈ outcome.issued, p.request.AboveParent l2Parent) ↔
        anchorOf l2Parent ≤ l1Block.number - m.safeL1Lag ∧
          l2Parent.header.timestamp ≤ m.beacon.timestampOfSlot
            (u64Sub (m.beacon.currentSlot env.overrideUtc) 1) % 2 ^ 64) := by
  obtain ⟨first, rest, hfirst⟩ := List.exists_cons_of_ne_nil (regroup_ne_nil hreanchors)
  obtain ⟨ps, hps, hsplit, hbuilt⟩ := requestFromBlocks_split m.compressedSize
    (m.reorgArgs safeBlock.number env.overrideUtc) first rest
  refine ⟨⟨ps, .ok ()⟩, ?_, ?_⟩
  · rw [resync_eq m hfetched hanchored hl1 hl2 hparent, if_pos hreanchors, hfirst]
    simp only [proposeReorgedBatch, hsafe, hps, liftPanic]
    rfl
  rw [← hnumber]
  constructor
  · intro hall
    -- there is at least one request
    obtain ⟨group, groups, hgroups⟩ := @Greedy.exists_split_eq _
      (FullFor m.compressedSize (m.reorgArgs safeBlock.number env.overrideUtc)) _
      (first :: rest) []
    rw [hgroups] at hsplit
    obtain ⟨p, ps', rfl, -, -⟩ := List.map_eq_cons_iff.mp hsplit
    obtain ⟨hanchor, htimestamp⟩ := (hbuilt p List.mem_cons_self).reorged
    have habove := hall p List.mem_cons_self
    exact ⟨habove.anchor.trans_eq hanchor, habove.timestamp.trans_eq htimestamp⟩
  · rintro ⟨hanchorLe, htimestampLe⟩ p hp
    obtain ⟨hanchor, htimestamp⟩ := (hbuilt p hp).reorged
    exact ⟨hanchorLe.trans_eq hanchor.symm, htimestampLe.trans_eq htimestamp.symm⟩

section Sample

/-- An empty block with this timestamp, anchored to 109. -/
def recentBlock (number timestamp : Nat) : Block :=
  { sampleBlock number 109 with
    header := { (default : Header) with number := number, timestamp := timestamp } }

/-- Blocks 10 and 11 on top of block 9, when the L1 head is block 110 with
timestamp 1320. -/
def recentEnv (parentTimestamp : Nat) (parentAnchor : Nat) : ResyncEnv :=
  { sampleEnv3 fun _ => 109 with
    getBlock := fun n => some (recentBlock n (1296 + 2 * n))
    l1Block := some { (default : Header) with number := 110, timestamp := 1320 }
    l2Parent := some { sampleBlock 9 parentAnchor with
      header := { (default : Header) with number := 9, timestamp := parentTimestamp } }
    overrideUtc := 1325 }

/-- One block a batch: blocks with the same anchor have to be re-anchored. -/
def singleManager : ProposerManager :=
  { sampleManager with params := { sampleManager.params with maxBlocksPerBatch := 1 } }

theorem reanchored_aboveParent_iff_old :
    ∃ outcome, resync singleManager (recentEnv 1300 104) 9 11 = .ok outcome ∧
      ∀ p ∈ outcome.issued, p.request.AboveParent
        { sampleBlock 9 104 with
          header := { (default : Header) with number := 9, timestamp := 1300 } } := by
  obtain ⟨outcome, houtcome, hiff⟩ := reanchored_aboveParent_iff singleManager
    (recentEnv 1300 104) 9 11 [recentBlock 10 1316, recentBlock 11 1318]
    { (default : Header) with number := 110, timestamp := 1320 }
    { (default : Header) with number := 106 } _ rfl (by decide) rfl rfl (by decide) rfl rfl
    (by decide +kernel)
  exact ⟨outcome, houtcome, hiff.mpr (by decide +kernel)⟩

/-- The parent is anchored to the L1 block before the head and has a timestamp
in the slot before the current one: the new anchor is 106 and the new timestamp
1308. -/
theorem reanchored_below_parent :
    ((recentEnv 1314 109).l1Block.map fun l1Block =>
        (l1Block.number, l1Block.timestamp)) = some (110, 1320) ∧
      (recentEnv 1314 109).overrideUtc = 1325 ∧
      reanchors singleManager (recentEnv 1314 109) [recentBlock 10 1316, recentBlock 11 1318] =
        true ∧
      ∃ l2Parent, (recentEnv 1314 109).l2Parent = some l2Parent ∧
        anchorOf l2Parent = 109 ∧ l2Parent.header.timestamp = 1314 ∧
        ∃ outcome, resync singleManager (recentEnv 1314 109) 9 11 = .ok outcome ∧
          ∃ p ∈ outcome.issued, p.request.anchorBlockId = 106 ∧
            p.request.firstTimestamp = 1308 ∧ ¬ p.request.AboveParent l2Parent := by
  refine ⟨rfl, rfl, by decide +kernel, _, rfl, by decide, rfl, ?_⟩
  have hrun : (resync singleManager (recentEnv 1314 109) 9 11).toOption.bind
      (fun outcome => (outcome.issued.map (·.request)).head?.map fun request =>
        (request.anchorBlockId, request.firstTimestamp)) = some (106, 1308) := by
    decide +kernel
  obtain ⟨outcome, houtcome, hissued⟩ := Option.bind_eq_some_iff.mp hrun
  obtain ⟨request, hrequest, hfields⟩ := Option.map_eq_some_iff.mp hissued
  obtain ⟨p, hp, rfl⟩ := List.mem_map.mp (List.mem_of_mem_head? hrequest)
  obtain ⟨hanchor, htimestamp⟩ := Prod.mk.inj hfields
  refine ⟨outcome, Except.toOption_eq_some_iff.mp houtcome, p, hp, hanchor, htimestamp, ?_⟩
  intro habove
  have hle := habove.anchor
  rw [hanchor] at hle
  exact absurd hle (by decide)

end Sample

end TaikoGateway
