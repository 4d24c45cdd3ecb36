/-
TaikoGateway/Aborts.lean

Which assertions a turn of the loop can reach.  A tick aborts only for the
reasons in `tickPanics`; the transition for those in `transitionPanics`, or
because `accumulate` rejects the block that was sealed, or because the next
block would be older than its parent (`transition_aborts`).
-/
import TaikoGateway.Chains

namespace TaikoGateway

open Except (AbortsIn)

variable {S : Set Panic}

/-! ### The pool -/

theorem TxList.put_abortsIn (hS : .txListWrongSender ∈ S) (l : TxList) (tx : Order) :
    AbortsIn S (l.put tx) :=
  .ite (.ok _) (.error hS)

theorem TxList.weight_abortsIn (hS : .txListEmpty ∈ S) (l : TxList) : AbortsIn S l.weight := by
  simp only [TxList.weight]
  split
  · exact .ok _
  · exact .error hS

namespace ActiveOrders

theorem putIn_abortsIn (hS : .txListWrongSender ∈ S) (order : Order) (ls : List TxList) :
    AbortsIn S (putIn order ls) := by
  induction ls with
  | nil => exact (TxList.put_abortsIn hS _ _).bind fun _ _ => .ok _
  | cons l ls ih =>
      refine .ite ?_ ?_
      · exact (TxList.put_abortsIn hS _ _).bind fun _ _ => .ok _
      · exact ih.bind fun _ _ => .ok _

theorem put_abortsIn (hS : .txListWrongSender ∈ S) (a : ActiveOrders) (order : Order) :
    AbortsIn S (a.put order) :=
  (putIn_abortsIn hS order a.txLists).bind fun _ _ => .ok _

theorem new_abortsIn (hS : .txListEmpty ∈ S) (order : HashOrder) (txs : HashMap TxList) :
    AbortsIn S (ActiveOrders.new order txs) := by
  refine .ite (.ok _) ?_
  refine .bind (.mapM (fun l => ?_) _) fun _ _ => .ok _
  exact (TxList.weight_abortsIn hS l).bind fun _ _ => .ok _

end ActiveOrders

namespace TxPool

theorem put_abortsIn (hS : .txListWrongSender ∈ S) (p : TxPool) (tx : Order) (parentBlock : Nat) :
    AbortsIn S (p.put tx parentBlock) := by
  have hinsert : ∀ q : TxPool, AbortsIn S
      ((q.txLists[tx.sender]?.getD (.new tx.sender)).put tx >>= fun l =>
        Except.ok { q with txLists := q.txLists.insert tx.sender l }) :=
    fun q => (TxList.put_abortsIn hS _ _).bind fun _ _ => .ok _
  simp only [TxPool.put]
  split
  · exact hinsert { p with
      nonces := if p.nonces.nonces.isEmpty then p.nonces else p.nonces.clear }
  · split
    · exact .ite (.ok _) (hinsert p)
    · exact hinsert p

theorem activeOrders_abortsIn (hS : .txListEmpty ∈ S) (hS' : .activeListEmpty ∈ S) (p : TxPool)
    (order : HashOrder) (blockNumber baseFee : Nat) :
    AbortsIn S (p.activeOrders order blockNumber baseFee) := by
  have hactive : AbortsIn S (p.getActiveForNonces order baseFee) := by
    refine AbortsIn.bind (.foldlM (fun active entry => ?_) _ _) fun active _ => ?_
    · obtain ⟨sender, l⟩ := entry
      simp only
      split
      · split
        · split
          · exact .error hS'
          · exact .ok _
        · exact .ok _
      · exact .ok _
    · exact .ite (.ok _) ((ActiveOrders.new_abortsIn hS _ _).bind fun _ _ => .ok _)
  refine .ite ?_ (hactive.bind fun _ _ => .ok _)
  exact .ite (.ok _) ((ActiveOrders.new_abortsIn hS _ _).bind fun _ _ => .ok _)

end TxPool

/-! ### Sorting -/

namespace SortData

theorem handleNewTx_abortsIn (hS : .txListWrongSender ∈ S) (sd : SortData) (order : Order) :
    AbortsIn S (sd.handleNewTx order) := by
  have hput : AbortsIn S (sd.activeOrders.put order) := ActiveOrders.put_abortsIn hS _ _
  refine .ite (.ok _) ?_
  split
  · exact .ite (.ok _) (hput.bind fun _ _ => .ok _)
  · exact hput.bind fun _ _ => .ok _

theorem handleValid_abortsIn (hS : .txListWrongSender ∈ S) (sd : SortData) (valid : ValidOrder) :
    AbortsIn S (sd.handleValid valid) := by
  refine .ite (.ok _) ?_
  split
  · exact .ok _
  · exact .ite ((ActiveOrders.put_abortsIn hS _ _).bind fun _ _ => .ok _)
      ((ActiveOrders.put_abortsIn hS _ _).bind fun _ _ => .ok _)

theorem handleSim_abortsIn (hS : .txListWrongSender ∈ S) (sd : SortData) (sim : SimulatedOrder) :
    AbortsIn S (sd.handleSim sim) := by
  refine .ite (.ok _) ?_
  split
  · exact handleValid_abortsIn hS _ _
  · exact handleValid_abortsIn hS _ _
  · exact .ok _

theorem maybeApplyNext_abortsIn (hS : .nextBestStale ∈ S) (hS' : .nextBestOverGas ∈ S)
    (config : SequencerConfig) (sd : SortData) : AbortsIn S (maybeApplyNext config sd) := by
  simp only [maybeApplyNext]
  split
  · exact .ok _
  · exact .ite (.error hS) (.ite (.error hS') (.ok _))

theorem maybeSimNextBatch_abortsIn (hS : .nextBestStale ∈ S) (hS' : .nextBestOverGas ∈ S)
    (config : SequencerConfig) (sd : SortData) (now : Instant) :
    AbortsIn S (sd.maybeSimNextBatch config now) := by
  refine .ite (.ok _) ?_
  exact (maybeApplyNext_abortsIn hS hS' config sd).bind fun _ _ => .ite (.ok _) (.ok _)

end SortData

/-! ### The context -/

namespace SequencerContext

theorem updateParentBlockId_abortsIn (hS : .anchorNotGoldenTouch ∈ S)
    (hS' : .gasUsedTooLarge ∈ S) (ctx : SequencerContext) (block : Block) :
    AbortsIn S (ctx.updateParentBlockId block) := by
  simp only [updateParentBlockId]
  split
  · exact .ok _
  · refine .ite (.error hS) ?_
    refine AbortsIn.bind ?_ fun _ _ => ?_
    · exact .ite (.ok _) (.error hS')
    · split
      · exact .ok _
      · exact .ok _

theorem newPreconfL2Block_abortsIn (hS : .anchorNotGoldenTouch ∈ S)
    (hS' : .gasUsedTooLarge ∈ S) (ctx : SequencerContext) (newBlock : Block) :
    AbortsIn S (ctx.newPreconfL2Block newBlock) := by
  have hupdate : ∀ (ctx : SequencerContext) (reorged : Bool), AbortsIn S
      (ctx.updateParentBlockId newBlock >>= fun ctx => .ok (reorged, ctx)) :=
    fun ctx _ => (updateParentBlockId_abortsIn hS hS' ctx newBlock).bind fun _ _ => .ok _
  simp only [newPreconfL2Block]
  split
  · exact hupdate _ false
  · refine .ite (hupdate _ false) ?_
    split
    · exact .ite (hupdate _ true) (.ok _)
    · exact .ite (hupdate _ false) (.ok _)

theorem newOriginL2Block_abortsIn (hS : .blockVerifyMismatch ∈ S) (ctx : SequencerContext)
    (newHeader : Header) : AbortsIn S (ctx.newOriginL2Block newHeader) := by
  simp only [newOriginL2Block]
  split
  · split
    · exact .error hS
    · exact .ok _
  · split
    · split
      · exact .ok _
      · exact .ok _
    · exact .ok _

theorem l2Parent_abortsIn {ctx : SequencerContext} (hS : ctx.l2Headers = [] → .l2HeadersEmpty ∈ S) :
    AbortsIn S ctx.l2Parent := by
  simp only [l2Parent]
  split
  · exact .ok _
  · rename_i hnone
    exact .error (hS (List.getLast?_eq_none_iff.mp hnone))

end SequencerContext

/-! ### The tick -/

/-- The reasons for which a tick aborts. -/
def tickPanics : List Panic :=
  [.anchorNotGoldenTouch, .gasUsedTooLarge, .blockVerifyMismatch, .l2HeadersEmpty,
    .txListWrongSender, .reorgedBatch, .failedSim]

namespace Sequencer

variable {env : Env}

section Tick

variable {s : Sequencer} (hS : ∀ p ∈ tickPanics, p ≠ .l2HeadersEmpty → p ∈ S)

include hS

theorem recvBlocks_abortsIn (i : RecvInput) : AbortsIn S (s.recvBlocks i) := by
  have hl2 : ∀ (s : Sequencer) (b : Block), AbortsIn S (s.recvL2Block b) := by
    intro s b
    refine (SequencerContext.newPreconfL2Block_abortsIn (hS _ (by decide) (by decide))
      (hS _ (by decide) (by decide)) s.ctx b).bind fun r _ => ?_
    obtain ⟨reorged, ctx⟩ := r
    simp only
    split
    · split
      · exact .error (hS .reorgedBatch (by decide) (by decide))
      · exact .ok _
    · exact .ok _
  refine AbortsIn.bind (.foldlM hl2 _ _) fun s _ => AbortsIn.bind (.foldlM ?_ _ _) fun _ _ => .ok _
  exact SequencerContext.newOriginL2Block_abortsIn (hS _ (by decide) (by decide))

theorem fetchTxs_abortsIn (hhead : s.ctx.l2Headers = [] → .l2HeadersEmpty ∈ S) (txs : List Order) :
    AbortsIn S (s.fetchTxs txs) := by
  apply (SequencerContext.l2Parent_abortsIn hhead).bind
  intro parent _
  refine .foldlM (fun s tx => ?_) _ _
  have hput : ∀ state, AbortsIn S (s.txPool.put tx parent.blockNumber >>= fun txPool =>
      .ok { s with ctx := { s.ctx with state := state }, txPool := txPool }) :=
    fun state => (TxPool.put_abortsIn (hS _ (by decide) (by decide)) _ _ _).bind fun _ _ => .ok _
  simp only [handleTx]
  split
  · apply (SortData.handleNewTx_abortsIn (hS _ (by decide) (by decide)) _ _).bind
    intro sd _
    exact AbortsIn.bind (.ok _) fun state _ => hput state
  · exact AbortsIn.bind (.ok _) fun state _ => hput state

theorem handleSims_abortsIn (sim : Option (Except String SimulatedOrder)) :
    AbortsIn S (s.handleSims sim) := by
  simp only [handleSims]
  split
  · exact .ok _
  · exact .error (hS _ (by decide) (by decide))
  · split
    · exact .ok _
    · exact (SortData.handleSim_abortsIn (hS _ (by decide) (by decide)) _ _).bind fun _ _ => .ok _

omit hS in
theorem checkCanPropose_abortsIn (hhead : s.ctx.l2Headers = [] → .l2HeadersEmpty ∈ S)
    (i : TickInput) : AbortsIn S (s.checkCanPropose env i) := by
  simp only [checkCanPropose]
  split
  · split
    · refine AbortsIn.bind ?_ fun _ _ => .ok _
      apply (SequencerContext.l2Parent_abortsIn hhead).bind
      intro _ _
      split
      · exact .ok _
      · exact .ok _
    · exact AbortsIn.bind (.ok _) fun _ _ => .ok _
  · exact .ok _

omit hS in
theorem refresh_abortsIn (hhead : s.ctx.l2Headers = [] → .l2HeadersEmpty ∈ S) (i : TickInput) :
    AbortsIn S (s.refresh env i) := by
  refine .ite ?_ (.ok _)
  refine .ite ?_ (.ok _)
  refine (SequencerContext.l2Parent_abortsIn fun hnil => hhead ?_).bind fun _ _ => .ok _
  rwa [(maybeRefreshAnchor_chains s i).l2Headers] at hnil

/-- A parent is missing in a tick only if there is none once the blocks have
arrived. -/
theorem tick_abortsIn (i : TickInput)
    (hhead : ∀ t, s.recvBlocks i.recv = .ok t → t.ctx.l2Headers = [] → .l2HeadersEmpty ∈ S) :
    AbortsIn S (s.tick env i) := by
  apply (recvBlocks_abortsIn hS i.recv).bind
  intro t ht
  have h : t.ctx.l2Headers = [] → .l2HeadersEmpty ∈ S := hhead t ht
  apply (fetchTxs_abortsIn hS h i.txs).bind
  intro t1 ht1
  rw [← (fetchTxs_chains ht1).l2Headers] at h
  apply (handleSims_abortsIn hS i.sim).bind
  intro t2 ht2
  rw [← (handleSims_chains ht2).l2Headers, ← @checkCanSequence_ctx env t2 i] at h
  apply (checkCanPropose_abortsIn h i).bind
  intro t3 ht3
  rw [← checkCanPropose_ctx ht3] at h
  exact (refresh_abortsIn h i).bind fun _ _ => .ok _

end Tick

/-! ### The transition -/

/-- The reasons for which the transition aborts, apart from the two that
depend on what was sealed before. -/
def transitionPanics : List Panic :=
  [.l2HeadersEmpty, .tooManyAnchorErrors, .anchorNotGoldenTouch, .gasUsedTooLarge, .failedSeal,
    .nextBestStale, .nextBestOverGas, .txListEmpty, .activeListEmpty]

/-- The assertions about the result that a round applies. -/
def roundPanics : List Panic := [.nextBestStale, .nextBestOverGas]

section Transition

variable {i : TransitionInput} {s : Sequencer} {p : Panic}

section Headed

variable (hS : ∀ p ∈ transitionPanics, p ≠ .l2HeadersEmpty → p ∉ roundPanics → p ∈ S)
  (hhead : s.ctx.l2Headers = [] → .l2HeadersEmpty ∈ S)

include hhead

theorem statusGate_abortsIn (i : TransitionInput) : AbortsIn S (s.statusGate i) := by
  refine .ite ?_ (.ok _)
  split
  · exact (SequencerContext.l2Parent_abortsIn hhead).bind fun _ _ => .ite (.ok _) (.ok _)
  · exact .ok _

theorem syncGate_abortsIn (lastL1 : Nat) (i : TransitionInput) :
    AbortsIn S (s.syncGate env lastL1 i) := by
  intro p h
  simp only [syncGate] at h
  repeat' split at h
  all_goals first
    | cases h
    | exact (statusGate_abortsIn hhead i).bind (fun _ _ => .ok _) p h

/-- Anchoring aborts when there is no parent, or it is younger than the block. -/
theorem anchorBlock_aborts (h : s.anchorBlock env i = .error p) :
    p ∈ S ∨ ∃ anchor parent, s.ctx.anchor = some anchor ∧ s.ctx.l2Parent = .ok parent ∧
      computeNextBaseFee (blockTimestamp env i.anchorUtc) parent i.baseFee = .error p := by
  simp only [anchorBlock] at h
  cases hanchor : s.ctx.anchor with
  | none =>
      rw [hanchor] at h
      cases h
  | some anchor =>
      simp only [hanchor] at h
      rcases Except.bind_eq_error_iff.mp h with h | ⟨parent, hparent, h⟩
      · exact Or.inl (SequencerContext.l2Parent_abortsIn hhead p h)
      · rcases Except.bind_eq_error_iff.mp h with h | ⟨baseFee, -, h⟩
        · exact Or.inr ⟨anchor, parent, rfl, hparent, h⟩
        · cases baseFee with
          | error err => cases h
          | ok l2BaseFee =>
              simp only at h
              split at h <;> cases h

include hS

theorem startBlock_aborts {size : Nat} (h : s.startBlock env size i = .error p) :
    p ∈ S ∨ ∃ anchor parent, s.ctx.anchor = some anchor ∧ s.ctx.l2Parent = .ok parent ∧
      computeNextBaseFee (blockTimestamp env i.anchorUtc) parent i.baseFee = .error p := by
  simp only [startBlock] at h
  rcases Except.bind_eq_error_iff.mp h with h | ⟨anchored, -, h⟩
  · exact anchorBlock_aborts hhead h
  · cases anchored with
    | ok r =>
        have hactive : AbortsIn S
            (s.txPool.activeOrders i.hashOrder r.2.blockNumber r.2.baseFee) :=
          TxPool.activeOrders_abortsIn (hS _ (by decide) (by decide) (by decide))
            (hS _ (by decide) (by decide) (by decide))
            _ _ _ _
        exact Or.inl (hactive.bind (fun _ _ => .ok _) p h)
    | error err =>
        have hcount : AbortsIn S
            (if maxAnchorErrors < s.anchorErrorCount + 1 then .error .tooManyAnchorErrors
            else .ok { s with
              timings := { s.timings with lastAnchorError := i.anchorErrorAt }
              anchorErrorCount := s.anchorErrorCount + 1 }) :=
          .ite (.error (hS _ (by decide) (by decide) (by decide))) (.ok _)
        exact Or.inl (hcount p h)

end Headed

theorem finishBlock_aborts {sd : SortData}
    (hS : ∀ p ∈ transitionPanics, p ≠ .l2HeadersEmpty → p ∉ roundPanics → p ∈ S)
    (h : s.finishBlock env sd i = .error p) :
    p ∈ S ∨ ∃ block, sealAnswer i sd.stateId = .ok block ∧
      accumulate env s.proposerRequest (sealOf sd block) = .error p := by
  simp only [finishBlock] at h
  rcases Except.bind_eq_error_iff.mp h with h | ⟨result, -, h⟩
  · simp only [sealBlock] at h
    cases hseal : i.sealBlock sd.stateId with
    | error err =>
        rw [hseal] at h
        cases h
    | ok res =>
        rw [hseal] at h
        cases hgossip : i.gossip res.builtBlock with
        | error err => simp only [hgossip, reduceCtorEq] at h
        | ok u =>
            simp only [hgossip] at h
            -- our own block goes through the same arrival as a received one
            rcases Except.bind_eq_error_iff.mp h with h | ⟨r, -, h⟩
            · exact Or.inl (SequencerContext.newPreconfL2Block_abortsIn
                (hS _ (by decide) (by decide) (by decide))
                (hS _ (by decide) (by decide) (by decide)) s.ctx res.builtBlock p h)
            · rcases Except.bind_eq_error_iff.mp h with h | ⟨request, -, h⟩
              · exact Or.inr ⟨res.builtBlock, sealAnswer_eq_ok.mpr ⟨res, hseal, hgossip, rfl⟩, h⟩
              · cases h
  · apply Or.inl
    split at h
    · cases h
    · cases h
    · split at h
      · cases h
      · cases h
        exact hS _ (by decide) (by decide) (by decide)

/-- A parent is missing in the transition only if there is none before it, and
a result cannot be applied only if there is a round that applies it. -/
theorem transition_abortsIn
    (hS : ∀ p ∈ transitionPanics, p ≠ .l2HeadersEmpty → p ∉ roundPanics → p ∈ S)
    (hhead : s.ctx.l2Headers = [] → .l2HeadersEmpty ∈ S)
    (hround : ∀ sd, s.ctx.state = .sorting sd →
      AbortsIn S (sd.maybeSimNextBatch env.config i.simNow))
    (h : s.stateTransition env i = .error p) :
    p ∈ S ∨
      (∃ g size anchor parent, s.anchoring env i = some (g, size) ∧ g.ctx.anchor = some anchor ∧
        g.ctx.l2Parent = .ok parent ∧
        computeNextBaseFee (blockTimestamp env i.anchorUtc) parent i.baseFee = .error p) ∨
      (∃ sd block, s.ctx.state = .sorting sd ∧ sealAnswer i sd.stateId = .ok block ∧
        accumulate env s.proposerRequest (sealOf sd block) = .error p) := by
  cases hs : s.ctx.state with
  | sync lastL1 =>
      simp only [stateTransition, hs] at h
      have hhead' : s.takeState.ctx.l2Headers = [] → .l2HeadersEmpty ∈ S := hhead
      rcases Except.bind_eq_error_iff.mp h with h | ⟨gate, hgate, h⟩
      · exact Or.inl (syncGate_abortsIn hhead' lastL1 i p h)
      · cases gate with
        | wait g => cases h
        | build g size =>
            have hanchoring : s.anchoring env i = some (g, size) := by
              simp only [anchoring, hs, hgate]
            have hctx := (anchoring_eq_some hanchoring).2.2.ctx
            rw [← hctx] at hhead'
            rcases startBlock_aborts hS hhead' h with h | ⟨anchor, parent, hanchor, hparent, h⟩
            · exact Or.inl h
            · exact Or.inr (Or.inl ⟨g, size, anchor, parent, hanchoring, hanchor, hparent, h⟩)
  | sorting sd =>
      simp only [stateTransition, hs] at h
      split at h
      · cases h
      · split at h
        · rcases finishBlock_aborts hS h with h | ⟨block, hanswer, h⟩
          · exact Or.inl h
          · exact Or.inr (Or.inr ⟨sd, block, rfl, hanswer, h⟩)
        · exact Or.inl ((hround sd hs).bind (fun _ _ => .ok _) p h)

/-- **Where the transition can abort.** -/
theorem transition_aborts (h : s.stateTransition env i = .error p) :
    p ∈ transitionPanics ∨
      (∃ g size anchor parent, s.anchoring env i = some (g, size) ∧ g.ctx.anchor = some anchor ∧
        g.ctx.l2Parent = .ok parent ∧
        computeNextBaseFee (blockTimestamp env i.anchorUtc) parent i.baseFee = .error p) ∨
      (∃ sd block, s.ctx.state = .sorting sd ∧ sealAnswer i sd.stateId = .ok block ∧
        accumulate env s.proposerRequest (sealOf sd block) = .error p) :=
  @transition_abortsIn {p | p ∈ transitionPanics} env i s p (fun _ hp _ _ => hp)
    (fun _ => by decide)
    (fun _ _ => SortData.maybeSimNextBatch_abortsIn (by decide) (by decide) _ _ _) h

end Transition

/-- A turn aborts in its tick, or in its transition. -/
theorem iteration_aborts {s : Sequencer} {i : Input} {p : Panic}
    (h : s.iteration env i = .error p) :
    p ∈ tickPanics ∨ ∃ t, s.ticked env i = some t ∧
      t.stateTransition env i.transition = .error p := by
  simp only [iteration] at h
  split at h
  · rename_i hready
    rcases Except.bind_eq_error_iff.mp h with h | ⟨t, htick, h⟩
    · exact Or.inl (@tick_abortsIn {p | p ∈ tickPanics} env { s with looping := true }
        (fun _ hp _ => hp) i.tick (fun _ _ _ => by decide) p h)
    · refine Or.inr ⟨t, ?_, h⟩
      rw [ticked, if_pos hready]
      exact Except.toOption_eq_some_iff.mpr htick
  · exact Or.inl (@recvBlocks_abortsIn {p | p ∈ tickPanics} s (fun _ hp _ => hp) i.tick.recv p h)

end Sequencer
end TaikoGateway
