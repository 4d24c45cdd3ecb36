/-
TaikoGateway/Handover.lean

The end of an operator's turn.

From its cutoff slot on an operator that is not the next one as well has to
stop: it may not start blocks, and has to send the batch it has, so that the
next operator builds on blocks that are all proposed.  The loop does both by
two questions to the same lookahead handle, one at the start of the tick and
one at its end, and there may be a block under construction in between.

Main result (`handover_drains`): whatever happened before, two turns after the
cutoff no block is under construction and no batch is pending, and it stays so.
The block that was under construction is sealed or dropped, no other block is
started, and every block sealed so far is in a batch that was sent.
-/
import TaikoGateway.ParentRules

namespace TaikoGateway

open LookaheadHandle (cutoffSlot operators)

/-! ### Readings after the cutoff -/

/-- A reading of this lookahead in its own epoch, at the cutoff or later. -/
structure ClosingReading (b : BeaconHandle) (last : Lookahead) (e : LookaheadEnv) : Prop where
  enabled : e.preconfsEnabled = true
  lookahead : e.lookahead = last
  epoch : b.currentEpoch e.utc = last.updatedEpoch
  late : cutoffSlot b e.handoverWindowSlots last.updatedEpoch ≤ b.currentSlot e.utc

instance (b : BeaconHandle) (last : Lookahead) (e : LookaheadEnv) :
    Decidable (ClosingReading b last e) :=
  decidable_of_iff
    (e.preconfsEnabled = true ∧ e.lookahead = last ∧ b.currentEpoch e.utc = last.updatedEpoch ∧
      cutoffSlot b e.handoverWindowSlots last.updatedEpoch ≤ b.currentSlot e.utc)
    ⟨fun ⟨h1, h2, h3, h4⟩ => ⟨h1, h2, h3, h4⟩, fun ⟨h1, h2, h3, h4⟩ => ⟨h1, h2, h3, h4⟩⟩

/-- The readings of one tick. -/
structure ClosingTick (b : BeaconHandle) (last : Lookahead) (i : TickInput) : Prop where
  isCurrentOperator : i.isCurrentOperatorEnv.lookahead = last
  canSequence : ClosingReading b last i.canSequenceEnv
  canPropose : i.canProposeEnv.lookahead = last
  shouldClear : ClosingReading b last i.shouldClearEnv

instance (b : BeaconHandle) (last : Lookahead) (i : TickInput) :
    Decidable (ClosingTick b last i) :=
  decidable_of_iff
    (i.isCurrentOperatorEnv.lookahead = last ∧ ClosingReading b last i.canSequenceEnv ∧
      i.canProposeEnv.lookahead = last ∧ ClosingReading b last i.shouldClearEnv)
    ⟨fun ⟨h1, h2, h3, h4⟩ => ⟨h1, h2, h3, h4⟩, fun ⟨h1, h2, h3, h4⟩ => ⟨h1, h2, h3, h4⟩⟩

namespace LookaheadHandle

variable {b : BeaconHandle} {last : Lookahead} {h : LookaheadHandle} {e : LookaheadEnv}
  {operator : Address}

/-- The handle has this copy. -/
structure Has (b : BeaconHandle) (last : Lookahead) (h : LookaheadHandle) : Prop where
  beacon : h.beacon = b
  last : h.last = last

theorem Has.maybeRefresh (hh : h.Has b last) (he : e.lookahead = last) :
    (h.maybeRefresh e).Has b last := by
  refine ⟨(maybeRefresh_beacon h e).trans hh.beacon, ?_⟩
  unfold LookaheadHandle.maybeRefresh
  split
  · exact he
  · exact hh.last

theorem Has.canSequence (hh : h.Has b last) (he : e.lookahead = last) :
    (h.canSequence e operator).2.Has b last := by
  unfold LookaheadHandle.canSequence
  split
  · exact hh
  · exact hh.maybeRefresh he

theorem Has.canPropose (hh : h.Has b last) (he : e.lookahead = last) :
    (h.canPropose e operator).2.Has b last := by
  have hrefresh := hh.maybeRefresh he
  unfold LookaheadHandle.canPropose
  split
  · exact hh
  · dsimp only
    split
    · split <;> exact hrefresh
    · split <;> exact hrefresh

theorem Has.shouldClearProposal (hh : h.Has b last) (he : e.lookahead = last) :
    (h.shouldClearProposal e operator).2.Has b last := by
  have hrefresh := hh.maybeRefresh he
  unfold LookaheadHandle.shouldClearProposal
  split
  · exact hh
  · dsimp only
    split
    · exact hrefresh
    · split
      · exact hrefresh
      · split
        · exact hrefresh
        · split <;> exact hrefresh

/-- After the cutoff the operator may not start blocks. -/
theorem Has.canSequence_closing (hh : h.Has b last) (he : ClosingReading b last e)
    (hcurr : last.curr = operator) (hnext : last.next ≠ operator) :
    (h.canSequence e operator).1.1 = false := by
  have hrefresh := hh.maybeRefresh he.lookahead
  rw [← Bool.not_eq_true, canSequence_eq_true_iff he.enabled]
  simp only [hh.beacon, hrefresh.last, he.epoch]
  have hops : operators last last.updatedEpoch = (last.curr, last.next) := if_pos (Or.inr rfl)
  rw [hops]
  rintro (⟨-, hsame | hturn⟩ | ⟨hother, -⟩)
  · exact hnext hsame.symm
  · rw [CurrentTurn, he.epoch] at hturn
    exact absurd hturn (Nat.not_lt.mpr he.late)
  · exact hother hcurr.symm

/-- It has to send what it has. -/
theorem Has.shouldClearProposal_closing (hh : h.Has b last) (he : ClosingReading b last e)
    (hcurr : last.curr = operator) (hnext : last.next ≠ operator) :
    (h.shouldClearProposal e operator).1.1 = true := by
  have hrefresh := hh.maybeRefresh he.lookahead
  simp only [LookaheadHandle.shouldClearProposal, he.enabled, Bool.not_true, Bool.false_eq_true,
    if_false, hrefresh.beacon, hrefresh.last, he.epoch]
  rw [if_neg (not_not.mpr rfl), if_neg (not_not.mpr hcurr.symm), if_neg (Ne.symm hnext),
    if_neg (Nat.not_lt.mpr he.late)]

end LookaheadHandle

namespace Sequencer

open Relation (ReflTransGen)

variable {env : Env} {b : BeaconHandle} {last : Lookahead} {s s' t : Sequencer}

/-! ### The handle of the loop -/

/-- The step uses no handle, and does not restart the loop. -/
structure SameHandle (s s' : Sequencer) : Prop where
  lookahead : s'.lookahead = s.lookahead
  looping : s'.looping = s.looping

namespace SameHandle

theorem refl (s : Sequencer) : SameHandle s s := ⟨rfl, rfl⟩

theorem trans (h : SameHandle s t) (h' : SameHandle t s') : SameHandle s s' :=
  ⟨h'.lookahead.trans h.lookahead, h'.looping.trans h.looping⟩

end SameHandle

theorem sendBatchToProposer_sameHandle (s : Sequencer) (stateCheck : Bool) :
    SameHandle s (s.sendBatchToProposer stateCheck) := by
  simp only [sendBatchToProposer]
  split
  · exact ⟨rfl, rfl⟩
  · split <;> exact ⟨rfl, rfl⟩

theorem sendBatchToProposer_flags (s : Sequencer) (stateCheck : Bool) :
    (s.sendBatchToProposer stateCheck).flags = s.flags := by
  simp only [sendBatchToProposer]
  split
  · rfl
  · split <;> rfl

theorem recvBlocks_sameHandle {i : RecvInput} (h : s.recvBlocks i = .ok s') :
    SameHandle s s' := by
  obtain ⟨t, ctx, hl2, -, rfl⟩ := recvBlocks_eq_ok h
  have hstart : SameHandle s (s.recvL1Blocks i) := ⟨rfl, rfl⟩
  have ht : SameHandle s t := by
    apply Run.run_invariant (SameHandle s) i.l2Blocks _ hstart hl2
    intro block _ u u' hu hblock
    obtain ⟨reorged, ctx, -, rfl, -⟩ := recvL2Block_eq_ok hblock
    exact ⟨hu.lookahead, hu.looping⟩
  exact ⟨ht.lookahead, ht.looping⟩

theorem fetchTxs_sameHandle {txs : List Order} (h : s.fetchTxs txs = .ok s') :
    SameHandle s s' := by
  obtain ⟨parent, -, h⟩ := Except.bind_eq_ok_iff.mp h
  apply Run.run_invariant (SameHandle s) txs _ (.refl s) h
  intro tx _ u u' hu htx
  obtain ⟨state, txPool, -, rfl, -⟩ := handleTx_eq_ok htx
  exact ⟨hu.lookahead, hu.looping⟩

theorem handleSims_sameHandle {sim : Option (Except String SimulatedOrder)}
    (h : s.handleSims sim = .ok s') : SameHandle s s' := by
  rcases handleSims_eq_ok h with ⟨rfl, -⟩ | ⟨r, sd, sd', -, -, -, rfl⟩
  · exact .refl s'
  · exact ⟨rfl, rfl⟩

theorem refresh_sameHandle {i : TickInput} (h : s.refresh env i = .ok s') : SameHandle s s' := by
  obtain ⟨t, ht, hs'⟩ := refresh_eq_ok h
  have hanchor : SameHandle s t := by
    rcases ht with rfl | rfl
    · exact .refl t
    · rcases maybeRefreshAnchor_cases env s i with hsame | ⟨header, hupdate, -⟩
      · rw [hsame]
        exact .refl s
      · rw [hupdate, updateAnchor_eq]
        have hset : SameHandle s (s.setAnchor header i.anchorCreatedUtc) := ⟨rfl, rfl⟩
        exact hset.trans (sendBatchToProposer_sameHandle _ true)
  rcases hs' with rfl | ⟨parentBlock, timings, rfl⟩
  · exact hanchor
  · exact ⟨hanchor.lookahead, hanchor.looping⟩

theorem checkCanSequence_looping (s : Sequencer) (i : TickInput) :
    (s.checkCanSequence env i).looping = s.looping := by
  simp only [checkCanSequence]
  split <;> rfl

/-- The handle answers `can_propose`. -/
theorem checkCanPropose_handle {i : TickInput} (h : s.checkCanPropose env i = .ok s') :
    s'.lookahead = (s.lookahead.canPropose i.canProposeEnv env.config.operatorAddress).2 ∧
      s'.looping = s.looping ∧ s'.flags.canSequence = s.flags.canSequence := by
  simp only [checkCanPropose] at h
  split at h
  · split at h
    · obtain ⟨u, hu, hok⟩ := Except.bind_eq_ok_iff.mp h
      cases hok
      rcases checkResync_eq_ok hu with rfl | ⟨target, rfl⟩ <;> exact ⟨rfl, rfl, rfl⟩
    · obtain ⟨u, hu, hok⟩ := Except.bind_eq_ok_iff.mp h
      cases hu
      cases hok
      exact ⟨rfl, rfl, rfl⟩
  · cases h
    exact ⟨rfl, rfl, rfl⟩

theorem clearProposal_eq (s : Sequencer) (i : TickInput) :
    s.clearProposal env i =
      let asked := s.lookahead.shouldClearProposal i.shouldClearEnv env.config.operatorAddress
      let s := { s with lookahead := asked.2 }
      let s := if asked.1.1 then s.sendBatchToProposer true else s
      if s.checkTimeShift i.timeShiftUtc then s.sendBatchToProposer true else s := rfl

theorem clearProposal_flags (s : Sequencer) (i : TickInput) :
    (s.clearProposal env i).flags = s.flags := by
  apply clearProposal_induction (fun t => t.flags = s.flags)
  · intro lookahead
    rfl
  · intro t ht
    exact (sendBatchToProposer_flags t true).trans ht

/-- The handle answers `should_clear_proposal`. -/
theorem clearProposal_handle (s : Sequencer) (i : TickInput) :
    SameHandle { s with lookahead :=
        (s.lookahead.shouldClearProposal i.shouldClearEnv env.config.operatorAddress).2 }
      (s.clearProposal env i) := by
  have hsend : ∀ (c : Bool) (u : Sequencer),
      SameHandle u (if c then u.sendBatchToProposer true else u) := by
    intro c u
    cases c with
    | false => exact .refl u
    | true => exact sendBatchToProposer_sameHandle u true
  rw [clearProposal_eq]
  exact (hsend _ _).trans (hsend _ _)

theorem flushIfStale_sameHandle (s : Sequencer) (anchorParams : AnchorParams) :
    SameHandle s (s.flushIfStale anchorParams) := by
  unfold flushIfStale
  split
  · exact sendBatchToProposer_sameHandle s false
  · exact .refl s

theorem StatusGate.sameHandle {i : TransitionInput} {r : Sequencer × Bool}
    (h : StatusGate i s r) : SameHandle s r.1 := by
  obtain ⟨timings, needs, events, heq, -⟩ := h.eq
  rw [heq]
  exact ⟨rfl, rfl⟩

theorem Transition.sameHandle {i : TransitionInput} (h : Transition env i t s') :
    SameHandle t s' := by
  have htake : SameHandle t t.takeState := ⟨rfl, rfl⟩
  have hanchoring : ∀ {g : Sequencer} {size : Nat}, t.anchoring env i = some (g, size) →
      SameHandle t g := fun hgate => htake.trans (anchoring_eq_some hgate).2.2.sameHandle
  cases h with
  | wait lastL1 hstate hg =>
      rcases hg with rfl | hg
      · exact ⟨rfl, rfl⟩
      · have hsame := htake.trans hg.sameHandle
        exact ⟨hsame.lookahead, hsame.looping⟩
  | anchored active txPool timings hgate hanchor =>
      have hsame := hanchoring hgate
      exact ⟨hsame.lookahead, hsame.looping⟩
  | anchorFailed timings count hgate =>
      have hsame := hanchoring hgate
      exact ⟨hsame.lookahead, hsame.looping⟩
  | discarded hstate hdiscard =>
      exact ⟨(flushIfStale_sameHandle _ _).lookahead, (flushIfStale_sameHandle _ _).looping⟩
  | sealed timings hstate hdiscard hseal hanswer hctx hrequest =>
      exact ⟨(flushIfStale_sameHandle _ _).lookahead, (flushIfStale_sameHandle _ _).looping⟩
  | sealFailed hstate hdiscard hseal hanswer htolerated => exact ⟨rfl, rfl⟩
  | round hstate hround => exact ⟨rfl, rfl⟩

theorem tick_looping {i : TickInput} (h : s.tick env i = .ok t) : t.looping = s.looping := by
  simp only [tick, Except.bind_eq_ok_iff] at h
  obtain ⟨s1, hrecv, s2, htxs, s3, hsims, s4, hpropose, s5, hrefresh, h⟩ := h
  obtain rfl := Except.ok.inj h
  have h3 : SameHandle s s3 :=
    (recvBlocks_sameHandle hrecv).trans ((fetchTxs_sameHandle htxs).trans
      (handleSims_sameHandle hsims))
  rw [(clearProposal_handle s5 i).looping]
  exact (refresh_sameHandle hrefresh).looping.trans ((checkCanPropose_handle hpropose).2.1.trans
    ((checkCanSequence_looping s3 i).trans h3.looping))

/-! ### A closing turn -/

/-- Nothing is under construction. -/
def Synced (s : Sequencer) : Prop := ∃ lastL1, s.ctx.state = .sync lastL1

/-- The batch was sent, or will be when the block is finished. -/
def Closes (s : Sequencer) : Prop :=
  (s.Synced ∧ s.proposerRequest = none) ∨ ∃ sd, s.ctx.state = .sorting sd ∧ sd.sealFlag = true

theorem sendBatchToProposer_closes (s : Sequencer) : (s.sendBatchToProposer true).Closes := by
  simp only [sendBatchToProposer]
  cases hstate : s.ctx.state with
  | sync lastL1 =>
      left
      cases hrequest : s.proposerRequest with
      | none => exact ⟨⟨lastL1, hstate⟩, hrequest⟩
      | some request => exact ⟨⟨lastL1, hstate⟩, rfl⟩
  | sorting sd => exact Or.inr ⟨sd.setShouldSeal, rfl, rfl⟩

theorem clearProposal_closes {i : TickInput}
    (hyes : (s.lookahead.shouldClearProposal i.shouldClearEnv
      env.config.operatorAddress).1.1 = true) : (s.clearProposal env i).Closes := by
  rw [clearProposal_eq]
  simp only [hyes, if_true]
  split <;> exact sendBatchToProposer_closes _

/-- The tick of a closing turn stops the sequencing and asks for the batch. -/
theorem tick_closing {i : TickInput} (hclosing : ClosingTick b last i)
    (hcurr : last.curr = env.config.operatorAddress)
    (hnext : last.next ≠ env.config.operatorAddress)
    (hhas : (s.lookahead.maybeRefresh i.isCurrentOperatorEnv).Has b last)
    (h : s.tick env i = .ok t) :
    t.lookahead.Has b last ∧ t.flags.canSequence = false ∧ t.Closes := by
  simp only [tick, Except.bind_eq_ok_iff] at h
  obtain ⟨s1, hrecv, s2, htxs, s3, hsims, s4, hpropose, s5, hrefresh, h⟩ := h
  obtain rfl := Except.ok.inj h
  have h3 : SameHandle s s3 :=
    (recvBlocks_sameHandle hrecv).trans ((fetchTxs_sameHandle htxs).trans
      (handleSims_sameHandle hsims))
  rw [← h3.lookahead] at hhas
  -- the first question: may we sequence
  have hseq : (s3.checkCanSequence env i).lookahead.Has b last ∧
      (s3.checkCanSequence env i).flags.canSequence = false := by
    have hno := hhas.canSequence_closing hclosing.canSequence hcurr hnext
    have hafter : ((s3.lookahead.maybeRefresh i.isCurrentOperatorEnv).canSequence
        i.canSequenceEnv env.config.operatorAddress).2.Has b last :=
      hhas.canSequence hclosing.canSequence.lookahead
    simp only [checkCanSequence, LookaheadHandle.isCurrentOperator, hno, Bool.and_false,
      Bool.false_and, Bool.false_eq_true, if_false]
    exact ⟨hafter, trivial⟩
  -- the handle goes on to `can_propose`
  have hmid : s4.lookahead.Has b last ∧ s4.flags.canSequence = false := by
    obtain ⟨hlook, -, hflag⟩ := checkCanPropose_handle hpropose
    rw [hlook, hflag]
    exact ⟨hseq.1.canPropose hclosing.canPropose, hseq.2⟩
  -- nothing is refreshed without `can_sequence`
  have hsame : s5 = s4 := by
    simp only [refresh, hmid.2, Bool.false_eq_true, if_false] at hrefresh
    exact (Except.ok.inj hrefresh).symm
  rw [hsame]
  refine ⟨?_, ?_, clearProposal_closes
    (hmid.1.shouldClearProposal_closing hclosing.shouldClear hcurr hnext)⟩
  · rw [(clearProposal_handle s4 i).lookahead]
    exact hmid.1.shouldClearProposal hclosing.shouldClear.lookahead
  · rw [clearProposal_flags]
    exact hmid.2

/-- However a block is finished, none is under construction then. -/
theorem finishBlock_synced {sd : SortData} {i : TransitionInput}
    (h : t.takeState.finishBlock env sd i = .ok s') : s'.Synced := by
  simp only [finishBlock] at h
  obtain ⟨result, hresult, h⟩ := Except.bind_eq_ok_iff.mp h
  cases result with
  | ok u =>
      cases h
      obtain ⟨block, reorged, ctx, request, -, hctx, -, rfl⟩ := sealBlock_eq_ok hresult
      exact ⟨0, sealed_state hctx request⟩
  | error err =>
      split at h
      · rename_i heq
        cases heq
      · cases h
        exact ⟨0, rfl⟩
      · split at h
        · cases h
          exact ⟨0, rfl⟩
        · cases h

/-- Without `can_sequence` no block is started. -/
theorem Transition.synced {i : TransitionInput} (hseq : t.flags.canSequence = false)
    (hsync : t.Synced) (h : Transition env i t s') : s'.Synced := by
  obtain ⟨lastL1, hstate⟩ := hsync
  have hnever : ∀ {g : Sequencer} {size : Nat}, t.anchoring env i ≠ some (g, size) := by
    intro g size hgate
    have hflag := (anchoring_eq_some hgate).2.1.canSequence
    rw [hseq] at hflag
    cases hflag
  cases h with
  | wait lastL1' hstate' hg => exact ⟨lastL1', rfl⟩
  | anchored active txPool timings hgate hanchor => exact absurd hgate hnever
  | anchorFailed timings count hgate => exact absurd hgate hnever
  | discarded hstate' hdiscard => cases hstate.symm.trans hstate'
  | sealed timings hstate' hdiscard hseal hanswer hctx hrequest =>
      cases hstate.symm.trans hstate'
  | sealFailed hstate' hdiscard hseal hanswer htolerated => cases hstate.symm.trans hstate'
  | round hstate' hround => cases hstate.symm.trans hstate'

/-- The transition of a closing turn finishes the block under construction. -/
theorem stateTransition_closing {i : TransitionInput} (hseq : t.flags.canSequence = false)
    (hcloses : t.Closes) (h : t.stateTransition env i = .ok s') : s'.Synced := by
  rcases hcloses with ⟨hsync, -⟩ | ⟨sd, hstate, hflag⟩
  · exact (transition_of_eq_ok h).synced hseq hsync
  · simp only [stateTransition, hstate, SortData.shouldSeal, hflag, Bool.true_or, if_true] at h
    split at h
    · cases h
      exact ⟨0, flushIfStale_state _ _⟩
    · exact finishBlock_synced h

/-- Without a block under construction the transition leaves the batches
alone. -/
theorem Transition.drained {i : TransitionInput} (hsync : t.Synced)
    (hnone : t.proposerRequest = none) (h : Transition env i t s') :
    s'.proposerRequest = none ∧ s'.seals = t.seals := by
  obtain ⟨lastL1, hstate⟩ := hsync
  rcases h.batches with (hsame | ⟨request, hrequest, -⟩) | ⟨sd, block, request, hseals, -⟩
  · exact ⟨hsame.1.trans hnone, hsame.seals⟩
  · cases hnone.symm.trans hrequest
  · cases hstate.symm.trans hseals.state

/-! ### Turn after turn -/

/-- A tick leaves the block under construction as it is. -/
theorem chain_state {i : TickInput} (h : ReflTransGen (TickStep env i) s t) :
    (s.Synced ∧ t.Synced) ∨ ∃ sd sd', s.ctx.state = .sorting sd ∧ t.ctx.state = .sorting sd' ∧
      SortData.SameBlock sd sd' := by
  induction h with
  | refl =>
      cases hstate : s.ctx.state with
      | sync lastL1 => exact Or.inl ⟨⟨lastL1, hstate⟩, lastL1, hstate⟩
      | sorting sd => exact Or.inr ⟨sd, sd, rfl, rfl, .refl sd⟩
  | @tail u t _ hstep ih =>
      have hsame := hstep.state
      rcases ih with ⟨hs, lastL1, hu⟩ | ⟨sd, sd', hs, hu, hbefore⟩
      · rw [hu] at hsame
        cases ht : t.ctx.state with
        | sync lastL1' => exact Or.inl ⟨hs, lastL1', ht⟩
        | sorting sd'' =>
            rw [ht] at hsame
            cases hsame
      · rw [hu] at hsame
        cases ht : t.ctx.state with
        | sync lastL1' =>
            rw [ht] at hsame
            cases hsame
        | sorting sd'' =>
            rw [ht] at hsame
            cases hsame with
            | sorting hafter hbest =>
                exact Or.inr ⟨sd, sd'', hs, rfl, hafter.blockInfo.trans hbefore.blockInfo,
                  hafter.stateId.trans hbefore.stateId, hafter.orders.trans hbefore.orders⟩

theorem chain_seals {i : TickInput} (h : ReflTransGen (TickStep env i) s t) :
    t.seals = s.seals := by
  induction h with
  | refl => rfl
  | tail _ hstep ih => exact hstep.seals.trans ih

/-- At most the block under construction, as it is. -/
def Finishes (s : Sequencer) (bs : List Sealed) : Prop :=
  bs = [] ∨ ∃ sd b, s.ctx.state = .sorting sd ∧ b.blockInfo = sd.blockInfo ∧
    b.orders = sd.orders ∧ bs = [b]

/-- The loop runs with this copy, and nothing is under construction. -/
structure Closed (b : BeaconHandle) (last : Lookahead) (s : Sequencer) : Prop where
  looping : s.looping = true
  has : s.lookahead.Has b last
  synced : s.Synced

/-- **A closing turn.**  The block under construction is finished and no other
one started; if there was none, the batch is sent. -/
theorem iteration_closing {i : Input} (hlooping : s.looping = true)
    (hclosing : ClosingTick b last i.tick) (hcurr : last.curr = env.config.operatorAddress)
    (hnext : last.next ≠ env.config.operatorAddress)
    (hhas : (s.lookahead.maybeRefresh i.tick.isCurrentOperatorEnv).Has b last)
    (h : s.iteration env i = .ok s') :
    s'.Closed b last ∧ (∃ bs, s'.seals = s.seals ++ bs ∧ s.Finishes bs) ∧
      (s.Synced → s'.proposerRequest = none ∧ s'.seals = s.seals) := by
  simp only [iteration, hlooping, Bool.true_or, if_true] at h
  obtain ⟨t, htick, htrans⟩ := Except.bind_eq_ok_iff.mp h
  obtain ⟨hcopy, hseq, hcloses⟩ :=
    @tick_closing env b last { s with looping := true } t i.tick hclosing hcurr hnext hhas htick
  have hchain : ReflTransGen (TickStep env i.tick) s t :=
    .head (.quiet s.txPool s.lookahead s.previousSkipReason s.timings true s.flags id)
      (tick_chain htick)
  have htransition := transition_of_eq_ok htrans
  have hseals := chain_seals hchain
  refine ⟨⟨?_, ?_, stateTransition_closing hseq hcloses htrans⟩, ?_, ?_⟩
  · rw [htransition.sameHandle.looping, tick_looping htick]
  · rw [htransition.sameHandle.lookahead]
    exact hcopy
  · rcases htransition.seals with hsame | ⟨sd', block, hsorting, -, hsealed⟩
    · exact ⟨[], by rw [hsame, hseals, List.append_nil], Or.inl rfl⟩
    · refine ⟨[sealOf sd' block], by rw [hsealed, hseals], Or.inr ?_⟩
      rcases chain_state hchain with ⟨-, lastL1, hsync⟩ | ⟨sd, sd'', hs, hsorting', hsame⟩
      · cases hsync.symm.trans hsorting
      · obtain rfl : sd'' = sd' := SequencerState.sorting.inj (hsorting'.symm.trans hsorting)
        exact ⟨sd, _, hs, hsame.blockInfo, hsame.orders, rfl⟩
  · intro hsync
    rcases chain_state hchain with ⟨-, hsynced⟩ | ⟨sd, sd', hs, -, -⟩
    · have hnone : t.proposerRequest = none := by
        rcases hcloses with ⟨-, hnone⟩ | ⟨sd, hsorting, -⟩
        · exact hnone
        · obtain ⟨lastL1, hstate⟩ := hsynced
          cases hstate.symm.trans hsorting
      obtain ⟨hafter, hsame⟩ := htransition.drained hsynced hnone
      exact ⟨hafter, hsame.trans hseals⟩
    · obtain ⟨lastL1, hstate⟩ := hsync
      cases hstate.symm.trans hs

/-- Every turn after the first one. -/
theorem closed_iteration {i : Input} (hclosing : ClosingTick b last i.tick)
    (hcurr : last.curr = env.config.operatorAddress)
    (hnext : last.next ≠ env.config.operatorAddress) (hs : s.Closed b last)
    (h : s.iteration env i = .ok s') :
    s'.Closed b last ∧ s'.proposerRequest = none ∧ s'.seals = s.seals := by
  have hhas := hs.has.maybeRefresh hclosing.isCurrentOperator
  obtain ⟨hclosed, -, hdrained⟩ :=
    iteration_closing hs.looping hclosing hcurr hnext hhas h
  exact ⟨hclosed, hdrained hs.synced⟩

/-! ### Main result -/

/-- **The handover.**  An operator whose turn ends, by a lookahead that names
another operator as the next one, is in its loop; all readings from here on are
after the cutoff.  After two turns or more no block is under construction, no
batch is pending, and every block sealed so far is in a batch that was sent; the
only block sealed meanwhile is the one that was under construction. -/
theorem handover_drains (env : Env) (lookahead : LookaheadHandle) (now : Instant)
    (before closing : List Input) (last : Lookahead) (s s' : Sequencer)
    (hs : before.foldlM (iteration env) (.new env lookahead now) = .ok s)
    (hlooping : s.looping = true) (hcurr : last.curr = env.config.operatorAddress)
    (hnext : last.next ≠ env.config.operatorAddress)
    (hview : ∀ i ∈ closing.head?, s.lookahead.view i.tick.isCurrentOperatorEnv = last)
    (hclosing : ∀ i ∈ closing, ClosingTick s.lookahead.beacon last i.tick)
    (htwo : 2 ≤ closing.length) (hs' : closing.foldlM (iteration env) s = .ok s') :
    s'.Synced ∧ s'.proposerRequest = none ∧ s'.seals = s'.proposedBatches.flatMap (·.seals) ∧
      ∃ bs, s'.seals = s.seals ++ bs ∧ s.Finishes bs := by
  have haccounted : Accounted env s' := by
    apply @accounted_of_run env lookahead now (before ++ closing)
    rw [List.foldlM_append, hs]
    exact hs'
  obtain _ | ⟨first, _ | ⟨second, rest⟩⟩ := closing
  · simp at htwo
  · simp at htwo
  rw [List.forall_mem_cons, List.forall_mem_cons] at hclosing
  obtain ⟨hfirst, hsecond, hrest⟩ := hclosing
  rw [List.foldlM_cons] at hs'
  obtain ⟨s1, h1, hs'⟩ := Except.bind_eq_ok_iff.mp hs'
  rw [List.foldlM_cons] at hs'
  obtain ⟨s2, h2, hs'⟩ := Except.bind_eq_ok_iff.mp hs'
  have hhas : (s.lookahead.maybeRefresh first.tick.isCurrentOperatorEnv).Has
      s.lookahead.beacon last :=
    ⟨LookaheadHandle.maybeRefresh_beacon _ _, hview first rfl⟩
  obtain ⟨hclosed, hfinishes, -⟩ := iteration_closing hlooping hfirst hcurr hnext hhas h1
  -- from the second turn on the batch stays empty
  have hend : s'.Closed s.lookahead.beacon last ∧ s'.proposerRequest = none ∧
      s'.seals = s1.seals := by
    apply Run.run_invariant (fun u : Sequencer => u.Closed s.lookahead.beacon last ∧
      u.proposerRequest = none ∧ u.seals = s1.seals) rest _ _ hs'
    · intro i hi u u' hu hstep
      obtain ⟨hclosed', hnone, hsame⟩ := closed_iteration (hrest i hi) hcurr hnext hu.1 hstep
      exact ⟨hclosed', hnone, hsame.trans hu.2.2⟩
    · exact closed_iteration hsecond hcurr hnext hclosed h2
  obtain ⟨hclosed', hnone, hseals⟩ := hend
  refine ⟨hclosed'.synced, hnone, ?_, by rw [hseals]; exact hfinishes⟩
  have hpending : s'.pendingSeals = [] := by
    have hmade := haccounted.pending
    rw [hnone] at hmade
    exact accumulateAll_eq_none hmade
  rw [seals, hpending, List.append_nil]

section Sample

open Sample

/-- Operator 9 is next, and the window is open. -/
def handoverEnv (now : Instant) : LookaheadEnv := ⟨⟨7, 9, 0⟩, true, 1000000, now, 60⟩

/-- A turn with these readings. -/
def closingTurn (now : Instant) : Input :=
  let i := turn now 60
  { i with
    tick := { i.tick with
      isCurrentOperatorEnv := handoverEnv now
      canSequenceEnv := handoverEnv now
      canProposeEnv := handoverEnv now
      shouldClearEnv := handoverEnv now } }

/-- Block 11 is sealed, and block 12 is anchored. -/
def buildingRun : List Input :=
  [ receiving [l1Header 100] [block 10 10 9 0 90] (turn 0 50),
    simulating (anchorTx 11 100) (blockEnv 11 52) 1 (turn 3000 50),
    sealing 1 (block 11 11 10 52 100) (turn 6000 53),
    simulating (anchorTx 12 100) (blockEnv 12 56) 3 (turn 6000 54) ]

/-- Two turns after the cutoff. -/
def closingRun : List Input :=
  [sealing 3 (block 12 12 11 56 100) (closingTurn 7000), closingTurn 8000]

/-- Block 12 is finished, and both blocks are proposed. -/
theorem handover_drains_building :
    ∃ s s', buildingRun.foldlM (iteration Sample.env) Sample.start = .ok s ∧
      closingRun.foldlM (iteration Sample.env) s = .ok s' ∧
      s.seals.map (·.block.header.number) = [11] ∧
      s'.seals.map (·.block.header.number) = [11, 12] ∧
      (s'.Synced ∧ s'.proposerRequest = none ∧ s'.seals = s'.proposedBatches.flatMap (·.seals) ∧
        ∃ bs, s'.seals = s.seals ++ bs ∧ s.Finishes bs) := by
  have hchecks : ((buildingRun.foldlM (iteration Sample.env) Sample.start).toOption.bind fun s =>
      ((closingRun.foldlM (iteration Sample.env) s).toOption).map fun s' =>
        (s.looping, s.lookahead.view (handoverEnv 7000),
          decide (∀ i ∈ closingRun, ClosingTick s.lookahead.beacon ⟨7, 9, 0⟩ i.tick),
          s.seals.map (·.block.header.number), s'.seals.map (·.block.header.number))) =
      some (true, ⟨7, 9, 0⟩, true, [11], [11, 12]) := by
    decide +kernel
  obtain ⟨s, hs, hchecks⟩ := Option.bind_eq_some_iff.mp hchecks
  obtain ⟨s', hs', hchecks⟩ := Option.map_eq_some_iff.mp hchecks
  simp only [Prod.mk.injEq, decide_eq_true_eq] at hchecks
  obtain ⟨hlooping, hview, hclosing, hbefore, hafter⟩ := hchecks
  have hrun := Except.toOption_eq_some_iff.mp hs
  have hrun' := Except.toOption_eq_some_iff.mp hs'
  exact ⟨s, s', hrun, hrun', hbefore, hafter, handover_drains Sample.env Sample.lookahead 0
    buildingRun closingRun ⟨7, 9, 0⟩ s s' hrun hlooping rfl (by decide)
    (fun i hi => by cases hi; exact hview) hclosing (by decide) hrun'⟩

end Sample

end Sequencer
end TaikoGateway
