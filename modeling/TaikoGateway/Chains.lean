/-
TaikoGateway/Chains.lean

What a turn does to what the sequencer knows of the two chains.

* Behind `recv_blocks` a tick leaves it alone (`tick_chains`).
* A step of a tick changes the stored L2 blocks by a delivery (`TickStep.l2`),
  the transition by the delivery of the sealed block (`Transition.chains`).
-/
import TaikoGateway.Loop

namespace TaikoGateway

/-- The headers and blocks in the two contexts are the same. -/
structure SequencerContext.SameChains (ctx ctx' : SequencerContext) : Prop where
  l1Headers : ctx'.l1Headers = ctx.l1Headers
  l2Headers : ctx'.l2Headers = ctx.l2Headers
  l1SafeLag : ctx'.l1SafeLag = ctx.l1SafeLag

namespace SequencerContext.SameChains

variable {ctx ctx' ctx'' : SequencerContext}

theorem refl (ctx : SequencerContext) : SameChains ctx ctx := ⟨rfl, rfl, rfl⟩

theorem trans (h : SameChains ctx ctx') (h' : SameChains ctx' ctx'') : SameChains ctx ctx'' :=
  ⟨h'.l1Headers.trans h.l1Headers, h'.l2Headers.trans h.l2Headers, h'.l1SafeLag.trans h.l1SafeLag⟩

end SequencerContext.SameChains

namespace Sequencer

open SequencerContext (SameChains)

variable {env : Env} {s s' : Sequencer}

/-! ### Receiving -/

/-- `s` when the L1 headers have arrived. -/
def recvL1Blocks (s : Sequencer) (i : RecvInput) : Sequencer :=
  { s with
    ctx := i.l1Blocks.foldl (fun (ctx : SequencerContext) h => ctx.newL1Block h i.now) s.ctx }

theorem recvL1Blocks_l2Headers (s : Sequencer) (i : RecvInput) :
    (s.recvL1Blocks i).ctx.l2Headers = s.ctx.l2Headers := by
  have hfold : ∀ (hs : List Header) (ctx : SequencerContext),
      (hs.foldl (fun (ctx : SequencerContext) h => ctx.newL1Block h i.now) ctx).l2Headers =
        ctx.l2Headers := by
    intro hs
    induction hs with
    | nil => exact fun _ => rfl
    | cons header hs ih => exact fun ctx => ih (ctx.newL1Block header i.now)
  exact hfold i.l1Blocks s.ctx

theorem recvBlocks_eq_ok {i : RecvInput} (h : s.recvBlocks i = .ok s') :
    ∃ t ctx, i.l2Blocks.foldlM recvL2Block (s.recvL1Blocks i) = .ok t ∧
      i.originBlocks.foldlM SequencerContext.newOriginL2Block t.ctx = .ok ctx ∧
      s' = { t with ctx := ctx } := by
  simp only [recvBlocks, Except.bind_eq_ok_iff] at h
  obtain ⟨t, hl2, ctx, horigin, hok⟩ := h
  cases hok
  exact ⟨t, ctx, hl2, horigin, rfl⟩

/-! ### The rest of a tick -/

theorem sendBatchToProposer_chains (s : Sequencer) (stateCheck : Bool) :
    SameChains s.ctx (s.sendBatchToProposer stateCheck).ctx := by
  simp only [sendBatchToProposer]
  split
  · exact ⟨rfl, rfl, rfl⟩
  · split <;> exact ⟨rfl, rfl, rfl⟩

theorem handleTx_chains {parentBlock : Nat} {tx : Order} (h : handleTx parentBlock s tx = .ok s') :
    SameChains s.ctx s'.ctx := by
  obtain ⟨state, txPool, -, rfl, -⟩ := handleTx_eq_ok h
  exact ⟨rfl, rfl, rfl⟩

theorem fetchTxs_chains {txs : List Order} (h : s.fetchTxs txs = .ok s') :
    SameChains s.ctx s'.ctx := by
  obtain ⟨parent, -, h⟩ := Except.bind_eq_ok_iff.mp h
  exact Run.run_invariant (fun t : Sequencer => SameChains s.ctx t.ctx) txs
    (fun tx _ t t' ht htx => ht.trans (handleTx_chains htx)) (.refl s.ctx) h

theorem handleSims_chains {sim : Option (Except String SimulatedOrder)}
    (h : s.handleSims sim = .ok s') : SameChains s.ctx s'.ctx := by
  rcases handleSims_eq_ok h with ⟨rfl, -⟩ | ⟨r, sd, sd', -, -, -, rfl⟩
  · exact .refl s'.ctx
  · exact ⟨rfl, rfl, rfl⟩

theorem checkCanSequence_ctx (s : Sequencer) (i : TickInput) :
    (s.checkCanSequence env i).ctx = s.ctx := by
  simp only [checkCanSequence]
  split <;> rfl

theorem checkCanPropose_ctx {i : TickInput} (h : s.checkCanPropose env i = .ok s') :
    s'.ctx = s.ctx := by
  obtain ⟨lookahead, t, canPropose, rfl, rfl | ⟨target, rfl⟩⟩ := checkCanPropose_eq_ok h <;> rfl

theorem maybeRefreshAnchor_chains (s : Sequencer) (i : TickInput) :
    SameChains s.ctx (s.maybeRefreshAnchor env i).ctx := by
  rcases maybeRefreshAnchor_cases env s i with hsame | ⟨header, hupdate, -⟩
  · rw [hsame]
    exact .refl s.ctx
  · rw [hupdate, updateAnchor_eq]
    have hset : SameChains s.ctx (s.setAnchor header i.anchorCreatedUtc).ctx := ⟨rfl, rfl, rfl⟩
    exact hset.trans (sendBatchToProposer_chains _ true)

theorem refresh_chains {i : TickInput} (h : s.refresh env i = .ok s') :
    SameChains s.ctx s'.ctx := by
  obtain ⟨t, ht, hs'⟩ := refresh_eq_ok h
  have hanchor : SameChains s.ctx t.ctx := by
    rcases ht with rfl | rfl
    · exact .refl t.ctx
    · exact maybeRefreshAnchor_chains s i
  rcases hs' with rfl | ⟨parentBlock, timings, rfl⟩ <;> exact hanchor

theorem clearProposal_chains (s : Sequencer) (i : TickInput) :
    SameChains s.ctx (s.clearProposal env i).ctx := by
  apply clearProposal_induction (fun t => SameChains s.ctx t.ctx)
  · intro lookahead
    exact .refl s.ctx
  · intro t ht
    exact ht.trans (sendBatchToProposer_chains t true)

/-- **Behind `recv_blocks` a tick leaves the chains alone.** -/
theorem tick_chains {i : TickInput} (h : s.tick env i = .ok s') :
    ∃ t, s.recvBlocks i.recv = .ok t ∧ SameChains t.ctx s'.ctx := by
  simp only [tick, Except.bind_eq_ok_iff] at h
  obtain ⟨t, hrecv, s2, htxs, s3, hsims, s4, hpropose, s5, hrefresh, h⟩ := h
  cases h
  refine ⟨t, hrecv, ?_⟩
  have h3 : SameChains t.ctx s3.ctx := (fetchTxs_chains htxs).trans (handleSims_chains hsims)
  rw [← @checkCanSequence_ctx env s3 i, ← checkCanPropose_ctx hpropose] at h3
  exact h3.trans ((refresh_chains hrefresh).trans (clearProposal_chains s5 i))

/-- A turn without a tick is one before the sequencer is ready, and only
receives. -/
theorem iteration_of_not_ticked {i : Input} (h : s.iteration env i = .ok s')
    (hnone : s.ticked env i = none) :
    (s.looping || s.isReady env) = false ∧ s.recvBlocks i.tick.recv = .ok s' := by
  simp only [iteration] at h
  split at h
  · rename_i hready
    obtain ⟨t, htick, -⟩ := Except.bind_eq_ok_iff.mp h
    rw [ticked, if_pos hready, htick] at hnone
    cases hnone
  · rename_i hready
    exact ⟨Bool.not_eq_true _ ▸ hready, h⟩

/-! ### Steps and transitions -/

/-- A step of a tick changes the stored blocks by a delivery only. -/
theorem TickStep.l2 {i : TickInput} (h : TickStep env i s s') :
    s'.ctx.l2Headers = s.ctx.l2Headers ∨
      (∃ block reorged, block ∈ i.recv.l2Blocks ∧
        s.ctx.newPreconfL2Block block = .ok (reorged, s'.ctx)) ∨
      ∃ header, s.ctx.newOriginL2Block header = .ok s'.ctx := by
  cases h with
  | l1Block header => exact Or.inl rfl
  | l2Block block hmem hrecv =>
      obtain ⟨reorged, ctx, hctx, rfl, -⟩ := recvL2Block_eq_ok hrecv
      exact Or.inr (Or.inl ⟨block, reorged, hmem, hctx⟩)
  | originBlock header horigin => exact Or.inr (Or.inr ⟨header, horigin⟩)
  | newTx tx hstate htx => exact Or.inl rfl
  | sim sim hsim hstate hsd => exact Or.inl rfl
  | startSequencing lookahead skip flags => exact Or.inl rfl
  | resync origin target => exact Or.inl rfl
  | updateAnchor header hsafe hnewer =>
      rw [updateAnchor_eq]
      have hsame := sendBatchToProposer_chains (s.setAnchor header i.anchorCreatedUtc) true
      exact Or.inl hsame.l2Headers
  | sendBatch => exact Or.inl (sendBatchToProposer_chains s true).l2Headers
  | quiet txPool lookahead skip timings looping flags hflags => exact Or.inl rfl

theorem flushIfStale_chains (s : Sequencer) (anchorParams : AnchorParams) :
    SameChains s.ctx (s.flushIfStale anchorParams).ctx := by
  simp only [flushIfStale]
  split
  · exact sendBatchToProposer_chains s false
  · exact .refl s.ctx

/-- The transition changes the chains by the delivery of the sealed block. -/
theorem Transition.chains {i : TransitionInput} (h : Transition env i s s') :
    SameChains s.ctx s'.ctx ∨
      ∃ sd block reorged ctx, s.ctx.state = .sorting sd ∧ sd.shouldDiscard = false ∧
        sd.shouldSeal i.sealNow = true ∧ sealAnswer i sd.stateId = .ok block ∧
        s.takeState.ctx.newPreconfL2Block block = .ok (reorged, ctx) ∧ SameChains ctx s'.ctx := by
  have hctx : ∀ g : Sequencer, g.ctx = s.takeState.ctx → SameChains s.ctx g.ctx := by
    intro g hg
    rw [hg]
    exact ⟨rfl, rfl, rfl⟩
  cases h with
  | @wait g _ lastL1' hstate hg =>
      rcases hg with rfl | hg
      · exact Or.inl ⟨rfl, rfl, rfl⟩
      · have hsame := hctx g hg.ctx
        exact Or.inl ⟨hsame.l1Headers, hsame.l2Headers, hsame.l1SafeLag⟩
  | @anchored g _ _ _ active txPool timings hgate hanchor =>
      have hsame := hctx g (anchoring_ctx hgate)
      exact Or.inl ⟨hsame.l1Headers, hsame.l2Headers, hsame.l1SafeLag⟩
  | @anchorFailed g _ timings count hgate =>
      have hsame := hctx g (anchoring_ctx hgate)
      exact Or.inl ⟨hsame.l1Headers, hsame.l2Headers, hsame.l1SafeLag⟩
  | @discarded sd hstate hdiscard =>
      have hflush := flushIfStale_chains { s.takeState with txPool := s.txPool.clearNonces }
        sd.blockInfo.anchorParams
      exact Or.inl ⟨hflush.l1Headers, hflush.l2Headers, hflush.l1SafeLag⟩
  | @sealed sd block _ ctx request timings hstate hdiscard hseal hanswer hctx hrequest =>
      have hflush := flushIfStale_chains (s.takeState.withSealed sd block ctx request)
        sd.blockInfo.anchorParams
      exact Or.inr ⟨_, _, _, _, hstate, hdiscard, hseal, hanswer, hctx, hflush⟩
  | sealFailed hstate hdiscard hseal hanswer htolerated => exact Or.inl ⟨rfl, rfl, rfl⟩
  | round hstate hround => exact Or.inl ⟨rfl, rfl, rfl⟩

end Sequencer
end TaikoGateway
