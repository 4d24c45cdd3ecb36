/-
TaikoGateway/SharedAnchor.lean

The pending batch and the block under construction have one anchor
(`SharesAnchor`), and the assertion about it in `seal_block`.

A refresh of the anchor while a block is being sorted leaves the old batch
pending until the block is finished.  A sealed block and a discarded one send
it then; a failed seal that is tolerated does not.  So the property holds along
a run exactly when no such failure leaves a stale batch behind
(`sharesAnchor_iff`); `stale_batch_aborts` is a run where one does.
-/
import TaikoGateway.Aborts
import TaikoGateway.Batches

namespace TaikoGateway
namespace Sequencer

variable {env : Env}

/-! ### The property -/

/-- The pending batch has the anchor of the next block in `Sync`, and of the
block under construction in `Sorting`. -/
structure SharesAnchor (s : Sequencer) : Prop where
  sync : ∀ lastL1 request anchor, s.ctx.state = .sync lastL1 → s.proposerRequest = some request →
    s.ctx.anchor = some anchor → request.anchorBlockId = anchor.blockId
  sorting : ∀ sd request, s.ctx.state = .sorting sd → s.proposerRequest = some request →
    request.anchorBlockId = sd.blockInfo.anchorParams.blockId

/-- `SharesAnchor`, and a block under construction means that there is an
anchor. -/
structure AnchorInv (s : Sequencer) : Prop where
  shares : SharesAnchor s
  anchored : ∀ sd, s.ctx.state = .sorting sd → ∃ anchor, s.ctx.anchor = some anchor

/-- When a failed seal is tolerated, no batch is pending, or its anchor is
still the current one. -/
def FailedSealLeavesNoStaleBatch (env : Env) (s : Sequencer) (i : Input) : Prop :=
  ∀ t sd err, s.ticked env i = some t → t.ctx.state = .sorting sd → sd.shouldDiscard = false →
    sd.shouldSeal i.transition.sealNow = true → sealAnswer i.transition sd.stateId = .error err →
    Tolerated err →
    t.proposerRequest = none ∨ t.needsAnchorRefresh sd.blockInfo.anchorParams = false

/-! ### Steps of a tick -/

theorem AnchorInv.of_sync_none {s : Sequencer} {l : Nat} (hstate : s.ctx.state = .sync l)
    (hnone : s.proposerRequest = none) : AnchorInv s := by
  refine ⟨⟨?_, ?_⟩, ?_⟩
  · intro _ request _ _ hrequest
    rw [hnone] at hrequest
    cases hrequest
  · intro sd _ hsd
    rw [hstate] at hsd
    cases hsd
  · intro sd hsd
    rw [hstate] at hsd
    cases hsd

/-- With the same anchor and at most the same batch, a step that keeps the
block under construction keeps the invariant. -/
theorem AnchorInv.keep {i : TickInput} {s s' : Sequencer} (hs : AnchorInv s)
    (hstate : StateStep i s.ctx.state s'.ctx.state) (hanchor : s'.ctx.anchor = s.ctx.anchor)
    (hrequest : s'.proposerRequest = s.proposerRequest ∨ s'.proposerRequest = none) :
    AnchorInv s' := by
  have hpending : ∀ request, s'.proposerRequest = some request →
      s.proposerRequest = some request := by
    intro request h
    rcases hrequest with heq | hnone
    · rwa [heq] at h
    · rw [hnone] at h
      cases h
  generalize hold : s.ctx.state = old at hstate
  generalize hnew : s'.ctx.state = new at hstate
  cases hstate with
  | sync lastL1 =>
      refine ⟨⟨?_, ?_⟩, ?_⟩
      · intro _ request anchor _ hreq hanch
        rw [hanchor] at hanch
        exact hs.shares.sync lastL1 request anchor hold (hpending request hreq) hanch
      · intro sd _ hsd
        rw [hnew] at hsd
        cases hsd
      · intro sd hsd
        rw [hnew] at hsd
        cases hsd
  | @sorting sd sd' hsame hbest =>
      refine ⟨⟨?_, ?_⟩, ?_⟩
      · intro lastL1 _ _ hsync
        rw [hnew] at hsync
        cases hsync
      · intro sd'' request hsd hreq
        rw [hnew] at hsd
        cases hsd
        rw [hsame.blockInfo]
        exact hs.shares.sorting sd request hold (hpending request hreq)
      · intro _ _
        rw [hanchor]
        exact hs.anchored sd hold

/-- A refresh sends the batch of the old anchor, or leaves it for the block
under construction. -/
theorem AnchorInv.refresh {s : Sequencer} (hs : AnchorInv s) (header : Header) (utc : Nat) :
    AnchorInv ((s.setAnchor header utc).sendBatchToProposer true) := by
  cases hstate : s.ctx.state with
  | sync lastL1 =>
      have hstate' : (s.setAnchor header utc).ctx.state = .sync lastL1 := hstate
      cases hrequest : s.proposerRequest with
      | none =>
          have hsend : (s.setAnchor header utc).sendBatchToProposer true =
              s.setAnchor header utc := by
            simp only [sendBatchToProposer, setAnchor, hstate, hrequest]
          rw [hsend]
          exact .of_sync_none hstate' hrequest
      | some request =>
          refine .of_sync_none (l := lastL1) ?_ ?_
          · simp only [sendBatchToProposer, setAnchor, hstate, hrequest]
            rfl
          · simp only [sendBatchToProposer, setAnchor, hstate, hrequest]
            rfl
  | sorting sd =>
      have hsend : (s.setAnchor header utc).sendBatchToProposer true =
          { s.setAnchor header utc with
            ctx := { (s.setAnchor header utc).ctx with state := .sorting sd.setShouldSeal } } := by
        simp only [sendBatchToProposer, setAnchor, hstate]
      rw [hsend]
      refine ⟨⟨?_, ?_⟩, ?_⟩
      · intro lastL1 _ _ hsync
        cases hsync
      · intro sd' request hsd hreq
        cases hsd
        exact hs.shares.sorting sd request hstate hreq
      · intro _ _
        exact ⟨_, rfl⟩

theorem AnchorInv.tickStep {i : TickInput} {s s' : Sequencer} (h : TickStep env i s s')
    (hs : AnchorInv s) : AnchorInv s' := by
  rcases h.anchor with hsame | ⟨header, -, rfl⟩
  · apply hs.keep h.state hsame
    rcases h.batches with ⟨hrequest, -⟩ | ⟨request, -, hnone, -⟩
    · exact Or.inl hrequest
    · exact Or.inr hnone
  · exact hs.refresh header i.anchorCreatedUtc

/-! ### The transition -/

/-- After the flush of a stale batch, what is pending has the current anchor. -/
theorem AnchorInv.flush {s : Sequencer} {l : Nat} {anchorParams : AnchorParams}
    (hstate : s.ctx.state = .sync l)
    (hrequest : ∀ request, s.proposerRequest = some request →
      request.anchorBlockId = anchorParams.blockId) :
    AnchorInv (s.flushIfStale anchorParams) := by
  cases hpending : s.proposerRequest with
  | none =>
      have hflush : s.flushIfStale anchorParams = s := by
        simp only [flushIfStale, sendBatchToProposer, hpending, ite_self]
      rw [hflush]
      exact .of_sync_none hstate hpending
  | some request =>
      cases hstale : s.needsAnchorRefresh anchorParams with
      | true =>
          refine .of_sync_none (l := l) ?_ ?_
          · simp only [flushIfStale, sendBatchToProposer, hstale, hpending, if_true]
            exact hstate
          · simp only [flushIfStale, sendBatchToProposer, hstale, hpending, if_true]
            rfl
      | false =>
          have hflush : s.flushIfStale anchorParams = s := by
            simp only [flushIfStale, hstale, Bool.false_eq_true, if_false]
          rw [hflush]
          refine ⟨⟨?_, ?_⟩, ?_⟩
          · intro _ request' anchor _ hreq hanchor
            simp only [needsAnchorRefresh, hanchor, ne_eq, decide_not, Bool.not_eq_false',
              decide_eq_true_eq] at hstale
            rw [hrequest request' hreq, hstale]
          · intro sd _ hsd
            rw [hstate] at hsd
            cases hsd
          · intro sd hsd
            rw [hstate] at hsd
            cases hsd

/-- A sealed block gives the batch its anchor. -/
theorem anchorBlockId_of_accumulate {r : Option ProposeBatchParams} {b : Sealed}
    {request : ProposeBatchParams} (h : accumulate env r b = .ok request) :
    request.anchorBlockId = b.blockInfo.anchorParams.blockId := by
  obtain ⟨-, ⟨-, rfl⟩ | ⟨before, -, hanchor, -, rfl⟩⟩ := accumulate_eq_ok h
  · rfl
  · exact hanchor

theorem AnchorInv.of_sync {s s' : Sequencer} {l k : Nat} (hs : AnchorInv s)
    (hstate : s.ctx.state = .sync l) (hstate' : s'.ctx.state = .sync k)
    (hanchor : s'.ctx.anchor = s.ctx.anchor) (hrequest : s'.proposerRequest = s.proposerRequest) :
    AnchorInv s' := by
  refine ⟨⟨?_, ?_⟩, ?_⟩
  · intro _ request anchor _ hreq hanch
    rw [hrequest] at hreq
    rw [hanchor] at hanch
    exact hs.shares.sync l request anchor hstate hreq hanch
  · intro sd _ hsd
    rw [hstate'] at hsd
    cases hsd
  · intro sd hsd
    rw [hstate'] at hsd
    cases hsd

/-- **The transition keeps the invariant**, if a tolerated failure leaves no
stale batch behind. -/
theorem AnchorInv.transition {i : TransitionInput} {s s' : Sequencer} (hs : AnchorInv s)
    (hfailed : ∀ sd err, s.ctx.state = .sorting sd → sd.shouldDiscard = false →
      sd.shouldSeal i.sealNow = true → sealAnswer i sd.stateId = .error err → Tolerated err →
      s.proposerRequest = none ∨ s.needsAnchorRefresh sd.blockInfo.anchorParams = false)
    (h : Transition env i s s') : AnchorInv s' := by
  cases h with
  | @wait g lastL1 lastL1' hstate hg =>
      have hgs : g.ctx.anchor = s.ctx.anchor ∧ g.proposerRequest = s.proposerRequest := by
        rcases hg with rfl | hg
        · exact ⟨rfl, rfl⟩
        · exact ⟨congrArg (fun ctx => ctx.anchor) hg.ctx, hg.batches.1⟩
      exact hs.of_sync (k := lastL1') hstate rfl hgs.1 hgs.2
  | @anchored g size stateId blockInfo active txPool timings hgate hanchor =>
      obtain ⟨⟨lastL1, hstate⟩, -, hg⟩ := anchoring_eq_some hgate
      obtain ⟨anchor, parent, baseFee, _, _, hctx, -, -, rfl, -⟩ := anchorBlock_eq_ok hanchor
      have hrequest : g.proposerRequest = s.proposerRequest := hg.batches.1
      have hcurrent : s.ctx.anchor = some anchor := by
        rw [hg.ctx] at hctx
        exact hctx
      refine ⟨⟨?_, ?_⟩, ?_⟩
      · intro lastL1 _ _ hsync
        cases hsync
      -- the new block takes the current anchor, and the pending batch has it already
      · intro sd request hsd hreq
        cases hsd
        exact hs.shares.sync lastL1 request anchor hstate (hrequest.symm.trans hreq) hcurrent
      · intro _ _
        exact ⟨anchor, hctx⟩
  | @anchorFailed g size timings count hgate =>
      obtain ⟨⟨lastL1, hstate⟩, -, hg⟩ := anchoring_eq_some hgate
      exact hs.of_sync (k := 0) hstate (congrArg SequencerContext.state hg.ctx)
        (congrArg (fun ctx => ctx.anchor) hg.ctx) hg.batches.1
  | @discarded sd hstate hdiscard =>
      apply AnchorInv.flush (l := 0) rfl
      intro request hreq
      exact hs.shares.sorting sd request hstate hreq
  | @sealed sd block reorged ctx request timings hstate hdiscard hseal hanswer hctx hrequest =>
      obtain ⟨l2Headers, toVerify, id, hctx', -⟩ := SequencerContext.newPreconfL2Block_cases hctx
      have hflush : AnchorInv ((s.takeState.withSealed sd block ctx request).flushIfStale
          sd.blockInfo.anchorParams) := by
        refine AnchorInv.flush (l := 0) ?_ fun request' hreq => ?_
        · rw [hctx']
          rfl
        · cases hreq
          exact anchorBlockId_of_accumulate hrequest
      exact ⟨⟨hflush.shares.sync, hflush.shares.sorting⟩, hflush.anchored⟩
  | @sealFailed sd err hstate hdiscard hseal hanswer htolerated =>
      rcases hfailed sd err hstate hdiscard hseal hanswer htolerated with hnone | hcurrent
      · exact .of_sync_none (l := 0) rfl hnone
      -- a failed seal does not flush; where the batch is not stale a flush does nothing
      · have hflush : ({ s.takeState with txPool := s.txPool.clearNonces } : Sequencer) =
            ({ s.takeState with txPool := s.txPool.clearNonces } : Sequencer).flushIfStale
              sd.blockInfo.anchorParams := by
          have hcurrent' : ({ s.takeState with txPool := s.txPool.clearNonces } :
              Sequencer).needsAnchorRefresh sd.blockInfo.anchorParams = false := hcurrent
          simp only [flushIfStale, hcurrent', Bool.false_eq_true, if_false]
        rw [hflush]
        apply AnchorInv.flush (l := 0) rfl
        intro request hreq
        exact hs.shares.sorting sd request hstate hreq
  | @round sd sd' orders hstate hround =>
      have hinfo := SortData.maybeSimNextBatch_blockInfo hround
      refine ⟨⟨?_, ?_⟩, ?_⟩
      · intro lastL1 _ _ hsync
        cases hsync
      · intro sd'' request hsd hreq
        cases hsd
        rw [hinfo]
        exact hs.shares.sorting sd request hstate hreq
      · intro _ _
        exact hs.anchored sd hstate

/-! ### Runs -/

theorem anchorInv_new (env : Env) (lookahead : LookaheadHandle) (now : Instant) :
    AnchorInv (.new env lookahead now) :=
  .of_sync_none (l := 0) rfl rfl

section Turn

variable {s : Sequencer} {i : Input}

theorem AnchorInv.ticked {t : Sequencer} (hs : AnchorInv s) (h : s.ticked env i = some t) :
    AnchorInv t :=
  chain_keeps AnchorInv AnchorInv.tickStep hs (ticked_chain h)

theorem AnchorInv.iteration {s' : Sequencer} (hs : AnchorInv s)
    (hfailed : FailedSealLeavesNoStaleBatch env s i) (h : s.iteration env i = .ok s') :
    AnchorInv s' := by
  refine iteration_keeps AnchorInv AnchorInv.tickStep (fun htick ht htrans => ?_) hs h
  refine ht.transition (fun sd err hstate hdiscard hseal hanswer htolerated => ?_) htrans
  exact hfailed _ sd err htick hstate hdiscard hseal hanswer htolerated

/-- The assertion holds whenever it is reached. -/
theorem AnchorInv.not_mismatch (hs : AnchorInv s) :
    s.iteration env i ≠ .error .anchorIdMismatch := by
  intro h
  rcases iteration_aborts h with htick | ⟨t, htick, h⟩
  · exact absurd htick (by decide)
  · have ht : AnchorInv t := hs.ticked htick
    rcases transition_aborts h with hother | ⟨_, _, _, _, -, -, -, h⟩ | ⟨sd, block, hstate, -, h⟩
    · exact absurd hother (by decide)
    · simp only [computeNextBaseFee] at h
      split at h <;> cases h
    · rcases accumulate_aborts h with hshift | ⟨hcount, -⟩ | ⟨-, request, hrequest, hne⟩
      · cases hshift
      · cases hcount
      · exact hne (ht.shares.sorting sd request hstate hrequest)

/-- A tolerated failure over a stale batch leaves the two anchors apart. -/
theorem AnchorInv.failedSeal_of_sharesAnchor (hs : AnchorInv s)
    (h : ∀ s', s.iteration env i = .ok s' → SharesAnchor s') :
    FailedSealLeavesNoStaleBatch env s i := by
  intro t sd err htick hstate hdiscard hseal hanswer htolerated
  have ht : AnchorInv t := hs.ticked htick
  by_contra hstale
  rw [not_or, Bool.not_eq_false] at hstale
  obtain ⟨hpending, hrefresh⟩ := hstale
  obtain ⟨request, hrequest⟩ := Option.ne_none_iff_exists'.mp hpending
  obtain ⟨anchor, hanchor⟩ := ht.anchored sd hstate
  have hfinish : t.takeState.finishBlock env sd i.transition =
      .ok { t.takeState with txPool := t.txPool.clearNonces } := by
    have hresult : t.takeState.sealBlock env sd i.transition = .ok (.error err) :=
      sealBlock_eq_error.mpr hanswer
    rw [finishBlock, hresult]
    rcases htolerated with ⟨status, message, rfl⟩ | hnil
    · rfl
    · cases err <;> first | rfl | cases hnil | exact if_pos hnil
  have hdone : s.iteration env i = .ok { t.takeState with txPool := t.txPool.clearNonces } := by
    rw [iteration_of_ticked htick, stateTransition, hstate]
    simp only [hdiscard, hseal, Bool.false_eq_true, if_false, if_true]
    exact hfinish
  have hsync : request.anchorBlockId = anchor.blockId :=
    (h _ hdone).sync 0 request anchor rfl hrequest hanchor
  have hsorting : request.anchorBlockId = sd.blockInfo.anchorParams.blockId :=
    ht.shares.sorting sd request hstate hrequest
  simp only [needsAnchorRefresh, hanchor, decide_eq_true_eq] at hrefresh
  exact hrefresh (hsync.symm.trans hsorting)

end Turn

/-- **The shared anchor.**  Along a run the pending batch shares the anchor of
the block under construction in every state, and the assertion in `seal_block`
is never violated, exactly when no tolerated failure of a seal leaves a stale
batch behind. -/
theorem sharesAnchor_iff (env : Env) (lookahead : LookaheadHandle) (now : Instant)
    (is : List Input) :
    Run.Along (iteration env) (fun s i _ => FailedSealLeavesNoStaleBatch env s i)
        (.new env lookahead now) is ↔
      Run.Along (iteration env)
        (fun s i r => TurnReaches env SharesAnchor s i r ∧ r ≠ .error .anchorIdMismatch)
        (.new env lookahead now) is := by
  refine Run.Along.congr_of_invariant AnchorInv (fun s i hs => ?_)
    (fun s i s' hs hfailed h => hs.iteration hfailed h) is (anchorInv_new env lookahead now)
  constructor
  · intro hfailed
    refine ⟨⟨fun t ht => ?_, fun s' h => ?_⟩, hs.not_mismatch⟩
    · exact (hs.ticked ht).shares
    · exact (hs.iteration hfailed h).shares
  · rintro ⟨⟨-, hdone⟩, -⟩
    exact hs.failedSeal_of_sharesAnchor hdone

section Sample

open Sample

/-- Block 11 is sealed; while block 12 is being sorted the anchor becomes 102,
and gossiping block 12 fails. -/
def staleRun : List Input :=
  [ receiving [l1Header 100] [block 10 10 9 0 90] (turn 0 50),
    simulating (anchorTx 11 100) (blockEnv 11 52) 1 (turn 3000 50),
    sealing 1 (block 11 11 10 52 100) (turn 6000 53),
    simulating (anchorTx 12 100) (blockEnv 12 56) 2 (turn 6000 54),
    receiving [l1Header 102] [] (gossipFailing (sealing 2 (block 12 12 11 56 100) (turn 7000 70))),
    simulating (anchorTx 12 102) (blockEnv 12 74) 3 (turn 9000 72),
    sealing 3 (block 12 13 11 74 102) (turn 12000 75) ]

/-- After the failed seal the batch of block 11 stays pending, and the next
sealed block aborts. -/
theorem stale_batch_aborts :
    staleRun.foldlM (iteration Sample.env) Sample.start = .error .anchorIdMismatch := by
  have h : (staleRun.foldlM (iteration Sample.env) Sample.start).abort =
      some Panic.anchorIdMismatch := by decide +kernel
  exact Except.abort_eq_some_iff.mp h

end Sample

end Sequencer
end TaikoGateway
