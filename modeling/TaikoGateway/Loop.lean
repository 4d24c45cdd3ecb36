/-
TaikoGateway/Loop.lean

What one turn of the sequencer loop can do, said once.

* A tick is a chain of `TickStep`s (`tick_chain`), one constructor for each
  thing a tick can do to the state.
* `stateTransition` does one `Transition` (`transition_of_eq_ok`), one
  constructor for each way out of `Sync` and `Sorting`.
* `anchoring s i` is the state in which `anchor_block` is called, if it is.

`iteration_keeps` is the resulting rule for invariants of the loop; every
invariant of the later modules is a case analysis over the two relations.
-/
import TaikoGateway.Sequencer

namespace TaikoGateway
namespace Sequencer

open Relation (ReflTransGen)

variable {env : Env}

/-! ### Steps of a tick -/

/-- The steps of a tick.  `quiet` has the fields that no statement about the
loop depends on; the flag may only be cleared by it. -/
inductive TickStep (env : Env) (i : TickInput) : Sequencer → Sequencer → Prop
  | l1Block {s : Sequencer} (header : Header) :
      TickStep env i s { s with ctx := s.ctx.newL1Block header i.recv.now }
  | l2Block {s s' : Sequencer} (block : Block) (hmem : block ∈ i.recv.l2Blocks)
      (h : s.recvL2Block block = .ok s') : TickStep env i s s'
  | originBlock {s : Sequencer} {ctx : SequencerContext} (header : Header)
      (h : s.ctx.newOriginL2Block header = .ok ctx) : TickStep env i s { s with ctx := ctx }
  | newTx {s : Sequencer} {sd sd' : SortData} (tx : Order) (hstate : s.ctx.state = .sorting sd)
      (h : sd.handleNewTx tx = .ok sd') :
      TickStep env i s { s with ctx := { s.ctx with state := .sorting sd' } }
  | sim {s : Sequencer} {sd sd' : SortData} (sim : SimulatedOrder) (hsim : i.sim = some (.ok sim))
      (hstate : s.ctx.state = .sorting sd) (h : sd.handleSim sim = .ok sd') :
      TickStep env i s { s with ctx := { s.ctx with state := .sorting sd' } }
  | startSequencing {s : Sequencer} (lookahead : LookaheadHandle)
      (previousSkipReason : Option String) (flags : SequencerFlags) :
      TickStep env i s (log { s with
        lookahead := lookahead, previousSkipReason := previousSkipReason, flags := flags
        needsStatusCheck := true } .startedSequencing)
  | resync {s : Sequencer} (origin target : Nat) :
      TickStep env i s (s.log (.proposed (.resync origin target)))
  | updateAnchor {s : Sequencer} (header : Header) (hsafe : s.ctx.safeL1Header = some header)
      (hnewer : ∀ a, s.ctx.anchor = some a → a.blockId < header.number) :
      TickStep env i s (s.updateAnchor header i.anchorCreatedUtc)
  | sendBatch {s : Sequencer} : TickStep env i s (s.sendBatchToProposer true)
  | quiet {s : Sequencer} (txPool : TxPool) (lookahead : LookaheadHandle)
      (previousSkipReason : Option String) (timings : Timings) (looping : Bool)
      (flags : SequencerFlags) (hflags : flags.canSequence = true → s.flags.canSequence = true) :
      TickStep env i s { s with
        txPool := txPool, lookahead := lookahead, previousSkipReason := previousSkipReason
        timings := timings, looping := looping, flags := flags }

section Chain

variable {i : TickInput} {s s' : Sequencer}

theorem l1Blocks_chain :
    ∀ (hs : List Header) (s : Sequencer), ReflTransGen (TickStep env i) s
      { s with ctx := hs.foldl (fun ctx h => ctx.newL1Block h i.recv.now) s.ctx } := by
  intro hs
  induction hs with
  | nil => exact fun s => .refl
  | cons header hs ih => exact fun s => .head (.l1Block header) (ih _)

theorem originBlocks_chain :
    ∀ (hs : List Header) {s : Sequencer} {ctx : SequencerContext},
      hs.foldlM SequencerContext.newOriginL2Block s.ctx = .ok ctx →
      ReflTransGen (TickStep env i) s { s with ctx := ctx } := by
  intro hs
  induction hs with
  | nil =>
      intro s ctx h
      obtain rfl : s.ctx = ctx := by simpa [pure, Except.pure] using h
      exact .refl
  | cons header hs ih =>
      intro s ctx h
      rw [List.foldlM_cons] at h
      obtain ⟨ctx', hfirst, hrest⟩ := Except.bind_eq_ok_iff.mp h
      exact .head (.originBlock header hfirst) (@ih { s with ctx := ctx' } ctx hrest)

theorem recvBlocks_chain (h : s.recvBlocks i.recv = .ok s') :
    ReflTransGen (TickStep env i) s s' := by
  simp only [recvBlocks, Except.bind_eq_ok_iff] at h
  obtain ⟨t, hl2, ctx, horigin, h⟩ := h
  cases h
  have h2 : ReflTransGen (TickStep env i) _ t :=
    Run.reflTransGen_of_foldlM i.recv.l2Blocks
      (fun block hmem s s' h => TickStep.l2Block block hmem h) hl2
  exact (l1Blocks_chain i.recv.l1Blocks s).trans (h2.trans (originBlocks_chain _ horigin))

/-- A tx goes to the pool, and to the block under construction. -/
theorem handleTx_eq_ok {parentBlock : Nat} {tx : Order} (h : handleTx parentBlock s tx = .ok s') :
    ∃ state txPool, s.txPool.put tx parentBlock = .ok txPool ∧
      s' = { s with ctx := { s.ctx with state := state }, txPool := txPool } ∧
      ((∃ lastL1, s.ctx.state = .sync lastL1 ∧ state = .sync lastL1) ∨
        ∃ sd sd', s.ctx.state = .sorting sd ∧ sd.handleNewTx tx = .ok sd' ∧
          state = .sorting sd') := by
  cases hs : s.ctx.state with
  | sync lastL1 =>
      simp only [handleTx, hs] at h
      obtain ⟨state, hstate, txPool, hput, hok⟩ : ∃ state, Except.ok (.sync lastL1) = .ok state ∧
          ∃ txPool, s.txPool.put tx parentBlock = .ok txPool ∧
            Except.ok { s with ctx := { s.ctx with state := state }, txPool := txPool } =
              Except.ok s' := by
        simpa only [Except.bind_eq_ok_iff] using h
      cases hok
      cases hstate
      exact ⟨.sync lastL1, txPool, hput, rfl, Or.inl ⟨lastL1, rfl, rfl⟩⟩
  | sorting sd =>
      simp only [handleTx, hs, Except.bind_eq_ok_iff] at h
      obtain ⟨sd', hsd, state, hstate, txPool, hput, hok⟩ := h
      cases hok
      cases hstate
      exact ⟨.sorting sd', txPool, hput, rfl, Or.inr ⟨sd, sd', rfl, hsd, rfl⟩⟩

theorem handleTx_chain {parentBlock : Nat} {tx : Order} (h : handleTx parentBlock s tx = .ok s') :
    ReflTransGen (TickStep env i) s s' := by
  obtain ⟨state, txPool, -, rfl, ⟨lastL1, hs, rfl⟩ | ⟨sd, sd', hs, hsd, rfl⟩⟩ := handleTx_eq_ok h
  · rw [← hs]
    exact .single (.quiet txPool s.lookahead s.previousSkipReason s.timings s.looping s.flags id)
  · exact .head (.newTx tx hs hsd)
      (.single (.quiet txPool s.lookahead s.previousSkipReason s.timings s.looping s.flags id))

theorem fetchTxs_chain {txs : List Order} (h : s.fetchTxs txs = .ok s') :
    ReflTransGen (TickStep env i) s s' := by
  simp only [fetchTxs, Except.bind_eq_ok_iff] at h
  obtain ⟨parent, -, h⟩ := h
  have hchain : ReflTransGen (ReflTransGen (TickStep env i)) s s' :=
    Run.reflTransGen_of_foldlM txs (fun tx _ s s' h => handleTx_chain h) h
  rwa [Relation.reflTransGen_eq_self] at hchain

/-- A result goes to the block under construction, if there is one. -/
theorem handleSims_eq_ok {sim : Option (Except String SimulatedOrder)}
    (h : s.handleSims sim = .ok s') :
    s' = s ∧ (∀ r, sim = some (.ok r) → ∃ lastL1, s.ctx.state = .sync lastL1) ∨
      ∃ r sd sd', sim = some (.ok r) ∧ s.ctx.state = .sorting sd ∧ sd.handleSim r = .ok sd' ∧
        s' = { s with ctx := { s.ctx with state := .sorting sd' } } := by
  rcases sim with _ | (err | r)
  · cases h
    exact Or.inl ⟨rfl, fun r hr => by cases hr⟩
  · cases h
  · cases hs : s.ctx.state with
    | sync lastL1 =>
        simp only [handleSims, hs] at h
        cases h
        exact Or.inl ⟨rfl, fun _ _ => ⟨lastL1, rfl⟩⟩
    | sorting sd =>
        simp only [handleSims, hs] at h
        obtain ⟨sd', hsd, hok⟩ := Except.bind_eq_ok_iff.mp h
        cases hok
        exact Or.inr ⟨r, sd, sd', rfl, rfl, hsd, rfl⟩

theorem handleSims_chain (h : s.handleSims i.sim = .ok s') :
    ReflTransGen (TickStep env i) s s' := by
  rcases handleSims_eq_ok h with ⟨rfl, -⟩ | ⟨sim, sd, sd', hsim, hs, hsd, rfl⟩
  · exact .refl
  · exact .single (.sim sim hsim hs hsd)

theorem checkCanSequence_chain : ReflTransGen (TickStep env i) s (s.checkCanSequence env i) := by
  simp only [checkCanSequence]
  split
  · exact .single (.startSequencing _ _ _)
  · rename_i hstart
    refine .single (.quiet s.txPool _ _ s.timings s.looping _ fun hseq => ?_)
    cases hs : s.flags.canSequence with
    | true => rfl
    | false =>
        rw [hs, Bool.not_false, Bool.and_true] at hstart
        exact absurd hseq hstart

/-- A resync is asked for, or nothing changes. -/
theorem checkResync_eq_ok {origin : Nat} (h : s.checkResync origin = .ok s') :
    s' = s ∨ ∃ target, s' = s.log (.proposed (.resync origin target)) := by
  simp only [checkResync] at h
  obtain ⟨parent, -, h⟩ := Except.bind_eq_ok_iff.mp h
  have hlog : ∀ target : Nat,
      (if origin < target then s.log (.proposed (.resync origin target)) else s) = s ∨
        ∃ target', (if origin < target then s.log (.proposed (.resync origin target)) else s) =
          s.log (.proposed (.resync origin target')) := by
    intro target
    by_cases hlt : origin < target
    · exact Or.inr ⟨target, if_pos hlt⟩
    · exact Or.inl (if_neg hlt)
  split at h
  all_goals
    cases h
    exact hlog _

/-- The lookahead and a flag change, and a resync may be asked for. -/
theorem checkCanPropose_eq_ok (h : s.checkCanPropose env i = .ok s') :
    ∃ lookahead t canPropose, s' = { t with flags := { t.flags with canPropose := canPropose } } ∧
      (t = { s with lookahead := lookahead } ∨
        ∃ target, t = log { s with lookahead := lookahead }
          (.proposed (.resync i.l2Origin target))) := by
  simp only [checkCanPropose] at h
  split at h
  · split at h
    · obtain ⟨t, ht, hok⟩ := Except.bind_eq_ok_iff.mp h
      cases hok
      exact ⟨_, t, _, rfl, checkResync_eq_ok ht⟩
    · obtain ⟨t, ht, hok⟩ := Except.bind_eq_ok_iff.mp h
      cases ht
      cases hok
      exact ⟨_, _, _, rfl, Or.inl rfl⟩
  · cases h
    refine ⟨(s.lookahead.canPropose i.canProposeEnv env.config.operatorAddress).2, _,
      s.flags.canPropose, ?_, Or.inl rfl⟩
    rfl

theorem checkCanPropose_chain (h : s.checkCanPropose env i = .ok s') :
    ReflTransGen (TickStep env i) s s' := by
  obtain ⟨lookahead, t, canPropose, rfl, ht⟩ := checkCanPropose_eq_ok h
  have hlook : TickStep env i s { s with lookahead := lookahead } :=
    .quiet s.txPool _ s.previousSkipReason s.timings s.looping s.flags id
  have hflag : TickStep env i t { t with flags := { t.flags with canPropose := canPropose } } :=
    .quiet t.txPool t.lookahead t.previousSkipReason t.timings t.looping _ id
  rcases ht with rfl | ⟨target, rfl⟩
  · exact .head hlook (.single hflag)
  · exact .head hlook (.head (.resync i.l2Origin target) (.single hflag))

/-- The anchor is replaced by a newer safe header, or nothing changes. -/
theorem maybeRefreshAnchor_cases (env : Env) (s : Sequencer) (i : TickInput) :
    s.maybeRefreshAnchor env i = s ∨
      ∃ header, s.maybeRefreshAnchor env i = s.updateAnchor header i.anchorCreatedUtc ∧
        s.ctx.safeL1Header = some header ∧
        ∀ a, s.ctx.anchor = some a → a.blockId < header.number := by
  simp only [maybeRefreshAnchor]
  split
  · exact Or.inl rfl
  · rename_i header hsafe hanchor
    refine Or.inr ⟨header, rfl, hsafe, fun a ha => ?_⟩
    rw [hanchor] at ha
    cases ha
  · rename_i header anchor hsafe hanchor
    by_cases hle : header.number ≤ anchor.blockId
    · rw [if_pos hle]
      exact Or.inl rfl
    · have hnewer : ∀ a, s.ctx.anchor = some a → a.blockId < header.number := by
        intro a ha
        rw [hanchor] at ha
        cases ha
        exact Nat.lt_of_not_le hle
      rw [if_neg hle]
      split
      · exact Or.inr ⟨header, rfl, hsafe, hnewer⟩
      · split
        · exact Or.inr ⟨header, rfl, hsafe, hnewer⟩
        · exact Or.inl rfl

/-- The anchor may be refreshed, and the pool reported. -/
theorem refresh_eq_ok (h : s.refresh env i = .ok s') :
    ∃ t, (t = s ∨ t = s.maybeRefreshAnchor env i) ∧
      (s' = t ∨ ∃ parentBlock timings, s' = { t with
        txPool := t.txPool.reportAndSanityCheck parentBlock i.drawn i.simulatorNonce
        timings := timings }) := by
  simp only [refresh] at h
  split at h
  · refine ⟨_, Or.inr rfl, ?_⟩
    simp only [reportTxPool] at h
    split at h
    · obtain ⟨parent, -, hok⟩ := Except.bind_eq_ok_iff.mp h
      cases hok
      exact Or.inr ⟨_, _, rfl⟩
    · cases h
      exact Or.inl rfl
  · cases h
    exact ⟨_, Or.inl rfl, Or.inl rfl⟩

theorem refresh_chain (h : s.refresh env i = .ok s') : ReflTransGen (TickStep env i) s s' := by
  obtain ⟨t, ht, hs'⟩ := refresh_eq_ok h
  have hanchor : ReflTransGen (TickStep env i) s t := by
    rcases ht with rfl | rfl
    · exact .refl
    · rcases maybeRefreshAnchor_cases env s i with hsame | ⟨header, hupdate, hsafe, hnewer⟩
      · rw [hsame]
      · rw [hupdate]
        exact .single (.updateAnchor header hsafe hnewer)
  rcases hs' with rfl | ⟨parentBlock, timings, rfl⟩
  · exact hanchor
  · exact hanchor.tail (.quiet _ _ _ _ _ _ id)

/-- The lookahead changes, and the batch may be sent. -/
theorem clearProposal_induction (P : Sequencer → Prop)
    (hlook : ∀ lookahead, P { s with lookahead := lookahead })
    (hsend : ∀ t, P t → P (t.sendBatchToProposer true)) : P (s.clearProposal env i) := by
  have hsends : ∀ (c : Bool) (t : Sequencer), P t →
      P (if c then t.sendBatchToProposer true else t) := by
    intro c t ht
    cases c with
    | false => exact ht
    | true => exact hsend t ht
  exact hsends _ _ (hsends _ _ (hlook _))

theorem clearProposal_chain : ReflTransGen (TickStep env i) s (s.clearProposal env i) := by
  apply clearProposal_induction (ReflTransGen (TickStep env i) s)
  · intro lookahead
    exact .single (.quiet s.txPool _ s.previousSkipReason s.timings s.looping s.flags id)
  · intro t ht
    exact ht.tail .sendBatch

/-- What a tick does behind `recv_blocks` has nothing to do with the blocks that
it reads. -/
theorem tick_behind (recv : RecvInput) (h : s.tick env i = .ok s') :
    ∃ t, s.recvBlocks i.recv = .ok t ∧
      ReflTransGen (TickStep env { i with recv := recv }) t s' := by
  simp only [tick, Except.bind_eq_ok_iff] at h
  obtain ⟨s1, hrecv, s2, htxs, s3, hsims, s4, hpropose, s5, hrefresh, h⟩ := h
  cases h
  refine ⟨s1, hrecv, ?_⟩
  have h2 : ReflTransGen (TickStep env { i with recv := recv }) s1 s2 := fetchTxs_chain htxs
  have h3 : ReflTransGen (TickStep env { i with recv := recv }) s2 s3 := handleSims_chain hsims
  have hsequence : ReflTransGen (TickStep env { i with recv := recv }) s3
      (s3.checkCanSequence env i) := checkCanSequence_chain
  have h4 : ReflTransGen (TickStep env { i with recv := recv }) (s3.checkCanSequence env i) s4 :=
    checkCanPropose_chain hpropose
  have h5 : ReflTransGen (TickStep env { i with recv := recv }) s4 s5 := refresh_chain hrefresh
  have hclear : ReflTransGen (TickStep env { i with recv := recv }) s5 (s5.clearProposal env i) :=
    clearProposal_chain
  exact h2.trans (h3.trans (hsequence.trans (h4.trans (h5.trans hclear))))

/-- **A tick is a chain of `TickStep`s.** -/
theorem tick_chain (h : s.tick env i = .ok s') : ReflTransGen (TickStep env i) s s' := by
  obtain ⟨t, hrecv, hrest⟩ := tick_behind i.recv h
  exact (recvBlocks_chain hrecv).trans hrest

end Chain

/-! ### What a tick does to the block under construction -/

/-- A tick does not start or end a block, and does not change what is in it. -/
inductive StateStep (i : TickInput) : SequencerState → SequencerState → Prop
  | sync (lastL1 : Nat) : StateStep i (.sync lastL1) (.sync lastL1)
  | sorting {sd sd' : SortData} (hsame : SortData.SameBlock sd sd')
      (hbest : sd'.nextBest = sd.nextBest ∨
        ∃ sim v, i.sim = some (.ok sim) ∧ sd'.nextBest = some v ∧
          v.originStateId = sim.originStateId ∧ v.order = sim.order ∧
          sim.Produces v.newStateId) :
      StateStep i (.sorting sd) (.sorting sd')

theorem StateStep.refl (i : TickInput) (state : SequencerState) : StateStep i state state := by
  cases state with
  | sync lastL1 => exact .sync lastL1
  | sorting sd => exact .sorting (.refl sd) (Or.inl rfl)

theorem recvL2Block_eq_ok {s s' : Sequencer} {block : Block} (h : s.recvL2Block block = .ok s') :
    ∃ reorged ctx, s.ctx.newPreconfL2Block block = .ok (reorged, ctx) ∧
      s' = { s with ctx := ctx } ∧
      (reorged = true → ∀ request, s.proposerRequest = some request →
        request.endBlockNum < block.header.number) := by
  simp only [recvL2Block] at h
  obtain ⟨⟨reorged, ctx⟩, hctx, h⟩ := Except.bind_eq_ok_iff.mp h
  refine ⟨reorged, ctx, hctx, ?_⟩
  simp only at h
  split at h
  · rename_i req hreq
    split at h
    · cases h
    · rename_i hlt
      cases h
      refine ⟨rfl, fun _ request hrequest => ?_⟩
      have heq : some request = some req := hrequest.symm.trans hreq
      cases heq
      exact Nat.lt_of_not_le hlt
  · rename_i hne
    cases h
    exact ⟨rfl, fun hreorged request hrequest => absurd hrequest (hne request hreorged)⟩

/-- Sending the batch may make the block under construction seal early. -/
theorem sendBatchToProposer_state (i : TickInput) (s : Sequencer) (stateCheck : Bool) :
    StateStep i s.ctx.state (s.sendBatchToProposer stateCheck).ctx.state := by
  simp only [sendBatchToProposer]
  split
  · rename_i sd hstate
    rw [hstate]
    exact .sorting ⟨rfl, rfl, rfl⟩ (Or.inl rfl)
  · split
    · exact .refl i _
    · exact .refl i _

theorem sendBatchToProposer_anchor (s : Sequencer) (stateCheck : Bool) :
    (s.sendBatchToProposer stateCheck).ctx.anchor = s.ctx.anchor := by
  simp only [sendBatchToProposer]
  split
  · rfl
  · split <;> rfl

/-- `s` with the anchor of this L1 header. -/
def setAnchor (s : Sequencer) (header : Header) (createdUtc : Nat) : Sequencer :=
  { s with ctx := { s.ctx with anchor := some ⟨header.number, header.stateRoot, createdUtc⟩ } }

theorem updateAnchor_eq (s : Sequencer) (header : Header) (createdUtc : Nat) :
    s.updateAnchor header createdUtc = (s.setAnchor header createdUtc).sendBatchToProposer true :=
  rfl

theorem TickStep.state {i : TickInput} {s s' : Sequencer} (h : TickStep env i s s') :
    StateStep i s.ctx.state s'.ctx.state := by
  cases h with
  | l1Block header => exact .refl i _
  | l2Block block hmem hrecv =>
      obtain ⟨reorged, ctx, hctx, rfl, -⟩ := recvL2Block_eq_ok hrecv
      obtain ⟨l2Headers, toVerify, id, rfl, -⟩ := SequencerContext.newPreconfL2Block_cases hctx
      exact .refl i _
  | originBlock header horigin =>
      obtain ⟨l2Headers, toVerify, rfl, -⟩ := SequencerContext.newOriginL2Block_cases horigin
      exact .refl i _
  | newTx tx hstate htx =>
      obtain ⟨hsame, hbest⟩ := SortData.handleNewTx_same htx
      rw [hstate]
      exact .sorting hsame (Or.inl hbest)
  | sim sim hsim hstate hsd =>
      obtain ⟨hsame, hbest⟩ := SortData.handleSim_same hsd
      rw [hstate]
      refine .sorting hsame (hbest.imp id ?_)
      rintro ⟨v, hv, horigin, horder, hproduces⟩
      exact ⟨sim, v, hsim, hv, horigin, horder, hproduces⟩
  | startSequencing lookahead skip flags => exact .refl i _
  | resync origin target => exact .refl i _
  | updateAnchor header hsafe hnewer =>
      rw [updateAnchor_eq]
      exact sendBatchToProposer_state i (s.setAnchor header i.anchorCreatedUtc) true
  | sendBatch => exact sendBatchToProposer_state i _ true
  | quiet txPool lookahead skip timings looping flags hflags => exact .refl i _

/-- Only a refresh changes the anchor, and only to a later one. -/
theorem TickStep.anchor {i : TickInput} {s s' : Sequencer} (h : TickStep env i s s') :
    s'.ctx.anchor = s.ctx.anchor ∨
      ∃ header, (∀ a, s.ctx.anchor = some a → a.blockId < header.number) ∧
        s' = (s.setAnchor header i.anchorCreatedUtc).sendBatchToProposer true := by
  cases h with
  | l1Block header => exact Or.inl rfl
  | l2Block block hmem hrecv =>
      obtain ⟨reorged, ctx, hctx, rfl, -⟩ := recvL2Block_eq_ok hrecv
      obtain ⟨l2Headers, toVerify, id, rfl, -⟩ := SequencerContext.newPreconfL2Block_cases hctx
      exact Or.inl rfl
  | originBlock header horigin =>
      obtain ⟨l2Headers, toVerify, rfl, -⟩ := SequencerContext.newOriginL2Block_cases horigin
      exact Or.inl rfl
  | newTx tx hstate htx => exact Or.inl rfl
  | sim sim hsim hstate hsd => exact Or.inl rfl
  | startSequencing lookahead skip flags => exact Or.inl rfl
  | resync origin target => exact Or.inl rfl
  | updateAnchor header hsafe hnewer => exact Or.inr ⟨header, hnewer, rfl⟩
  | sendBatch => exact Or.inl (sendBatchToProposer_anchor s true)
  | quiet txPool lookahead skip timings looping flags hflags => exact Or.inl rfl

/-! ### Anchoring -/

/-- The state in which `anchor_block` is called, if it is, and the maximal size
of the block. -/
def anchoring (env : Env) (s : Sequencer) (i : TransitionInput) : Option (Sequencer × Nat) :=
  match s.ctx.state with
  | .sync lastL1 =>
      match s.takeState.syncGate env lastL1 i with
      | .ok (.build g size) => some (g, size)
      | _ => none
  | .sorting _ => none

/-- What the status check can do: nothing is due, the check is passed, or the
block has to wait. -/
inductive StatusGate (i : TransitionInput) (s : Sequencer) : Sequencer × Bool → Prop
  | skipped (h : s.needsStatusCheck = false ∨ s.timings.shouldCheckStatus i.statusNow = false) :
      StatusGate i s (s, true)
  | passed (timings : Timings) (statusBlock : Nat) (parent : ParentParams)
      (hparent : s.ctx.l2Parent = .ok parent) (hle : statusBlock ≤ parent.blockNumber) :
      StatusGate i s
        ({ s.log (.statusBlock statusBlock parent.blockNumber) with
            timings := timings, needsStatusCheck := false }, true)
  | behind (timings : Timings) (statusBlock : Nat) (parent : ParentParams)
      (hlt : parent.blockNumber < statusBlock) :
      StatusGate i s
        ({ s.log (.statusBlock statusBlock parent.blockNumber) with timings := timings }, false)
  | noAnswer (timings : Timings) : StatusGate i s ({ s with timings := timings }, false)

section Gate

variable {i : TransitionInput} {s : Sequencer}

theorem statusGate_cases {r : Sequencer × Bool} (h : s.statusGate i = .ok r) :
    StatusGate i s r := by
  simp only [statusGate] at h
  split at h
  · split at h
    · obtain ⟨parent, hparent, h⟩ := Except.bind_eq_ok_iff.mp h
      split at h
      · rename_i hlt
        cases h
        exact .behind _ _ parent hlt
      · rename_i hlt
        cases h
        exact .passed _ _ parent hparent (Nat.le_of_not_lt hlt)
    · cases h
      exact .noAnswer _
  · rename_i hskip
    cases h
    refine .skipped ?_
    rwa [Bool.and_eq_true, not_and_or, Bool.not_eq_true, Bool.not_eq_true] at hskip

/-- The guards of `Sync` that come before the status check. -/
structure GuardsPass (env : Env) (s : Sequencer) (i : TransitionInput) : Prop where
  safeL1 : ∃ header, s.ctx.safeL1Header = some header ∧
    s.ctx.parentAnchorBlockId ≤ header.number
  canSequence : s.flags.canSequence = true
  room : (s.proposerRequest.map (·.compressedEst)).getD 0 < env.config.batchTargetSize
  canRetryAnchor : s.timings.canRetryAnchor i.retryNow = true
  canProduceBlock : s.timings.canProduceBlock i.produceNow = true

/-- The guards of `Sync`: either one of them fails and nothing is changed but
the state, or the status check decides. -/
theorem syncGate_cases {lastL1 : Nat} {gate : Gate} (h : s.syncGate env lastL1 i = .ok gate) :
    (¬ GuardsPass env s i ∧ ∃ s', gate = .wait s' ∧
        (s' = s ∨ ∃ l, s' = { s with ctx := { s.ctx with state := .sync l } })) ∨
      (GuardsPass env s i ∧ ∃ s' go size, s.statusGate i = .ok (s', go) ∧
        gate = if go then .build s' size else .wait s') := by
  simp only [syncGate] at h
  split at h
  · rename_i hsafe
    cases h
    refine Or.inl ⟨fun hg => ?_, _, rfl, Or.inr ⟨_, rfl⟩⟩
    obtain ⟨header, hheader, -⟩ := hg.safeL1
    rw [hsafe] at hheader
    cases hheader
  · rename_i header hsafe
    split at h
    · rename_i hlt
      cases h
      refine Or.inl ⟨fun hg => ?_, _, rfl, Or.inr ⟨_, rfl⟩⟩
      obtain ⟨header', hheader, hle⟩ := hg.safeL1
      rw [hsafe] at hheader
      cases hheader
      exact absurd hlt (Nat.not_lt.mpr hle)
    · rename_i hlt
      split at h
      · rename_i hseq
        cases h
        refine Or.inl ⟨fun hg => ?_, s, rfl, Or.inl rfl⟩
        rw [hg.canSequence] at hseq
        exact absurd hseq (by decide)
      · rename_i hseq
        split at h
        · rename_i hroom
          cases h
          exact Or.inl ⟨fun hg => absurd hg.room (by omega), s, rfl, Or.inl rfl⟩
        · rename_i hroom
          split at h
          · rename_i hretry
            cases h
            refine Or.inl ⟨fun hg => ?_, s, rfl, Or.inl rfl⟩
            rw [hg.canRetryAnchor] at hretry
            exact absurd hretry (by decide)
          · rename_i hretry
            split at h
            · rename_i hproduce
              cases h
              refine Or.inl ⟨fun hg => ?_, s, rfl, Or.inl rfl⟩
              rw [hg.canProduceBlock] at hproduce
              exact absurd hproduce (by decide)
            · rename_i hproduce
              obtain ⟨⟨s', go⟩, hstatus, hok⟩ := Except.bind_eq_ok_iff.mp h
              cases hok
              refine Or.inr ⟨⟨⟨header, hsafe, Nat.le_of_not_lt hlt⟩, ?_, by omega, ?_, ?_⟩,
                s', go, _, hstatus, rfl⟩
              · simpa using hseq
              · simpa using hretry
              · simpa using hproduce

/-- When the guards pass, the status check decides. -/
theorem syncGate_of_guards (hguards : GuardsPass env s i) (lastL1 : Nat) :
    ∃ size, s.syncGate env lastL1 i = s.statusGate i >>= fun r =>
      .ok (if r.2 then .build r.1 size else .wait r.1) := by
  obtain ⟨header, hsafe, hle⟩ := hguards.safeL1
  have hroom : ¬ env.config.batchTargetSize -
      (s.proposerRequest.map (·.compressedEst)).getD 0 = 0 := by
    have hlt := hguards.room
    omega
  simp only [syncGate, hsafe, if_neg (Nat.not_lt.mpr hle), hguards.canSequence, if_neg hroom,
    hguards.canRetryAnchor, hguards.canProduceBlock, Bool.not_true, Bool.false_eq_true, if_false]
  exact ⟨_, rfl⟩

/-- The status check changes nothing but its own fields, and only logs that it
asked. -/
theorem StatusGate.eq {r : Sequencer × Bool} (h : StatusGate i s r) :
    ∃ timings needsStatusCheck events,
      r.1 = { s with
        timings := timings, needsStatusCheck := needsStatusCheck
        events := s.events ++ events } ∧
      ∀ e ∈ events, ∃ statusBlock local_, e = .statusBlock statusBlock local_ := by
  cases h with
  | skipped h => exact ⟨s.timings, s.needsStatusCheck, [], by simp, by simp⟩
  | passed timings statusBlock parent hparent hle =>
      exact ⟨timings, false, [.statusBlock statusBlock parent.blockNumber], rfl, by simp⟩
  | behind timings statusBlock parent hlt =>
      exact ⟨timings, s.needsStatusCheck, [.statusBlock statusBlock parent.blockNumber], rfl,
        by simp⟩
  | noAnswer timings => exact ⟨timings, s.needsStatusCheck, [], by simp, by simp⟩

theorem StatusGate.ctx {g : Sequencer} {go : Bool} (h : StatusGate i s (g, go)) :
    g.ctx = s.ctx := by
  obtain ⟨timings, needs, events, heq, -⟩ := h.eq
  simp only at heq
  rw [heq]

/-- An anchor is simulated when all guards pass, the status check included. -/
theorem anchoring_eq_some {g : Sequencer} {size : Nat} (h : s.anchoring env i = some (g, size)) :
    (∃ lastL1, s.ctx.state = .sync lastL1) ∧ GuardsPass env s i ∧
      StatusGate i s.takeState (g, true) := by
  simp only [anchoring] at h
  cases hs : s.ctx.state with
  | sorting sd => simp only [hs, reduceCtorEq] at h
  | sync lastL1 =>
      simp only [hs] at h
      split at h
      · rename_i g' size' hgate
        cases h
        rcases syncGate_cases hgate with ⟨-, s', hwait, -⟩ | ⟨hguards, s', go, size', hstatus, hgo⟩
        · cases hwait
        · cases go with
          | false => cases hgo
          | true =>
              cases hgo
              exact ⟨⟨lastL1, rfl⟩,
                ⟨hguards.safeL1, hguards.canSequence, hguards.room, hguards.canRetryAnchor,
                  hguards.canProduceBlock⟩, statusGate_cases hstatus⟩
      · cases h

theorem anchoring_ctx {g : Sequencer} {size : Nat} (h : s.anchoring env i = some (g, size)) :
    g.ctx = s.takeState.ctx :=
  (anchoring_eq_some h).2.2.ctx

/-- What a simulated anchor was made from. -/
theorem anchorBlock_eq_ok {stateId : StateId} {blockInfo : BlockInfo}
    (h : s.anchorBlock env i = .ok (.ok (stateId, blockInfo))) :
    ∃ anchor parent baseFee gasUsed payment, s.ctx.anchor = some anchor ∧
      s.ctx.l2Parent = .ok parent ∧ parent.timestamp ≤ blockTimestamp env i.anchorUtc ∧
      blockInfo = ⟨anchor, parent.blockNumber + 1, baseFee, parent.hash⟩ ∧
      i.simulateAnchor (assembleAnchorV3 env parent anchor baseFee)
        (getBlockEnvFromAnchor (parent.blockNumber + 1) env.chainConfig.blockMaxGasLimit
          env.config.coinbaseAddress (blockTimestamp env i.anchorUtc) baseFee) =
        .ok (.success stateId gasUsed payment) := by
  simp only [anchorBlock] at h
  split at h
  · cases h
  · rename_i anchor hanchor
    obtain ⟨parent, hparent, h⟩ := Except.bind_eq_ok_iff.mp h
    obtain ⟨answer, hanswer, h⟩ := Except.bind_eq_ok_iff.mp h
    simp only [computeNextBaseFee] at hanswer
    split at hanswer
    · rename_i hle
      cases hanswer
      split at h
      · cases h
      · rename_i baseFee hfee
        split at h
        · rename_i stateId' gasUsed payment hsim
          cases h
          exact ⟨anchor, parent, baseFee, gasUsed, payment, hanchor, hparent, hle, rfl, hsim⟩
        · cases h
        · cases h
    · cases hanswer

end Gate

/-! ### Sealing -/

/-- The answer to sealing and then gossiping a block. -/
def sealAnswer (i : TransitionInput) (stateId : StateId) : Except SequencerError Block := do
  let res ← i.sealBlock stateId
  i.gossip res.builtBlock
  .ok res.builtBlock

/-- The failed seals that do not abort. -/
def Tolerated (err : SequencerError) : Prop :=
  (∃ status message, err = .softBlock status message) ∨ err.isNilBlock = true

/-- The block that a seal adds to the batch. -/
def sealOf (sd : SortData) (block : Block) : Sealed :=
  ⟨block, sd.blockInfo, sd.orders, sd.uncompressedSize⟩

/-- The state after a block is added to the batch, before a due flush. -/
def withSealed (s : Sequencer) (sd : SortData) (block : Block) (ctx : SequencerContext)
    (request : ProposeBatchParams) : Sequencer :=
  log { s with
    txPool := s.txPool.updateNewBlock sd.nonces
    ctx := ctx
    proposerRequest := some request } (.sealed (sealOf sd block))

/-- The flush of a batch whose anchor has been replaced. -/
def flushIfStale (s : Sequencer) (anchorParams : AnchorParams) : Sequencer :=
  if s.needsAnchorRefresh anchorParams then s.sendBatchToProposer false else s

theorem flushIfStale_state (s : Sequencer) (anchorParams : AnchorParams) :
    (s.flushIfStale anchorParams).ctx.state = s.ctx.state := by
  simp only [flushIfStale, sendBatchToProposer]
  split
  · split <;> rfl
  · rfl

theorem flushIfStale_anchor (s : Sequencer) (anchorParams : AnchorParams) :
    (s.flushIfStale anchorParams).ctx.anchor = s.ctx.anchor := by
  simp only [flushIfStale]
  split
  · exact sendBatchToProposer_anchor s false
  · rfl

section Seal

variable {i : TransitionInput} {s : Sequencer} {sd : SortData}

theorem sealAnswer_eq_ok {stateId : StateId} {block : Block} :
    sealAnswer i stateId = .ok block ↔
      ∃ res, i.sealBlock stateId = .ok res ∧ i.gossip res.builtBlock = .ok () ∧
        res.builtBlock = block := by
  simp only [sealAnswer, Except.bind_eq_ok_iff, Except.ok.injEq]
  constructor
  · rintro ⟨res, hseal, u, hgossip, heq⟩
    exact ⟨res, hseal, hgossip, heq⟩
  · rintro ⟨res, hseal, hgossip, heq⟩
    exact ⟨res, hseal, (), hgossip, heq⟩

theorem sealAnswer_eq_error {stateId : StateId} {err : SequencerError} :
    sealAnswer i stateId = .error err ↔
      i.sealBlock stateId = .error err ∨
        ∃ res, i.sealBlock stateId = .ok res ∧ i.gossip res.builtBlock = .error err := by
  simp only [sealAnswer, Except.bind_eq_error_iff]
  simp

/-- A seal fails exactly when sealing or gossiping does. -/
theorem sealBlock_eq_error {err : SequencerError} :
    s.sealBlock env sd i = .ok (.error err) ↔ sealAnswer i sd.stateId = .error err := by
  rw [sealAnswer_eq_error]
  simp only [sealBlock]
  cases hseal : i.sealBlock sd.stateId with
  | error err' => simp
  | ok res =>
      cases hgossip : i.gossip res.builtBlock with
      | error err' => simp [hgossip]
      | ok u => simp [hgossip, Except.bind_eq_ok_iff]

theorem sealBlock_eq_ok {t : Sequencer} (h : s.sealBlock env sd i = .ok (.ok t)) :
    ∃ block reorged ctx request, sealAnswer i sd.stateId = .ok block ∧
      s.ctx.newPreconfL2Block block = .ok (reorged, ctx) ∧
      accumulate env s.proposerRequest (sealOf sd block) = .ok request ∧
      t = (s.withSealed sd block ctx request).flushIfStale sd.blockInfo.anchorParams := by
  simp only [sealBlock] at h
  cases hseal : i.sealBlock sd.stateId with
  | error err =>
      rw [hseal] at h
      cases h
  | ok res =>
      rw [hseal] at h
      cases hgossip : i.gossip res.builtBlock with
      | error err =>
          simp only [hgossip, Except.ok.injEq, reduceCtorEq] at h
      | ok u =>
          simp only [hgossip, Except.bind_eq_ok_iff] at h
          obtain ⟨⟨reorged, ctx⟩, hctx, request, hrequest, h⟩ := h
          have hanswer : sealAnswer i sd.stateId = .ok res.builtBlock :=
            sealAnswer_eq_ok.mpr ⟨res, hseal, hgossip, rfl⟩
          cases h
          exact ⟨res.builtBlock, reorged, ctx, request, hanswer, hctx, hrequest, rfl⟩

end Seal

/-! ### The transition -/

/-- What `stateTransition` can do. -/
inductive Transition (env : Env) (i : TransitionInput) : Sequencer → Sequencer → Prop
  /-- stay in `Sync` -/
  | wait {s g : Sequencer} {lastL1 : Nat} (lastL1' : Nat) (hstate : s.ctx.state = .sync lastL1)
      (hg : g = s.takeState ∨ StatusGate i s.takeState (g, false)) :
      Transition env i s { g with ctx := { g.ctx with state := .sync lastL1' } }
  | anchored {s g : Sequencer} {size : Nat} {stateId : StateId} {blockInfo : BlockInfo}
      (active : ActiveOrders) (txPool : TxPool) (timings : Timings)
      (hgate : s.anchoring env i = some (g, size))
      (hanchor : g.anchorBlock env i = .ok (.ok (stateId, blockInfo))) :
      Transition env i s { g with
        anchorErrorCount := 0
        txPool := txPool
        timings := timings
        ctx := { g.ctx with
          state := .sorting (SortData.new blockInfo stateId active env.chainConfig.blockMaxGasLimit
            env.config.targetBlockTime size env.config i.sortNow) } }
  | anchorFailed {s g : Sequencer} {size : Nat} (timings : Timings) (anchorErrorCount : Nat)
      (hgate : s.anchoring env i = some (g, size)) :
      Transition env i s { g with timings := timings, anchorErrorCount := anchorErrorCount }
  | discarded {s : Sequencer} {sd : SortData} (hstate : s.ctx.state = .sorting sd)
      (hdiscard : sd.shouldDiscard = true) :
      Transition env i s
        ({ s.takeState with txPool := s.txPool.clearNonces }.flushIfStale sd.blockInfo.anchorParams)
  | sealed {s : Sequencer} {sd : SortData} {block : Block} {reorged : Bool}
      {ctx : SequencerContext} {request : ProposeBatchParams} (timings : Timings)
      (hstate : s.ctx.state = .sorting sd) (hdiscard : sd.shouldDiscard = false)
      (hseal : sd.shouldSeal i.sealNow = true) (hanswer : sealAnswer i sd.stateId = .ok block)
      (hctx : s.takeState.ctx.newPreconfL2Block block = .ok (reorged, ctx))
      (hrequest : accumulate env s.proposerRequest (sealOf sd block) = .ok request) :
      Transition env i s
        { (s.takeState.withSealed sd block ctx request).flushIfStale sd.blockInfo.anchorParams with
          timings := timings }
  | sealFailed {s : Sequencer} {sd : SortData} {err : SequencerError}
      (hstate : s.ctx.state = .sorting sd) (hdiscard : sd.shouldDiscard = false)
      (hseal : sd.shouldSeal i.sealNow = true) (hanswer : sealAnswer i sd.stateId = .error err)
      (htolerated : Tolerated err) :
      Transition env i s { s.takeState with txPool := s.txPool.clearNonces }
  | round {s : Sequencer} {sd sd' : SortData} {orders : List Order}
      (hstate : s.ctx.state = .sorting sd)
      (hround : sd.maybeSimNextBatch env.config i.simNow = .ok (sd', orders)) :
      Transition env i s { s with ctx := { s.ctx with state := .sorting sd' } }

section Transition

variable {i : TransitionInput} {s s' : Sequencer}

/-- After a seal no block is under construction. -/
theorem sealed_state {sd : SortData} {block : Block} {reorged : Bool} {ctx : SequencerContext}
    (hctx : s.takeState.ctx.newPreconfL2Block block = .ok (reorged, ctx))
    (request : ProposeBatchParams) :
    ((s.takeState.withSealed sd block ctx request).flushIfStale
      sd.blockInfo.anchorParams).ctx.state = .sync 0 := by
  obtain ⟨l2Headers, toVerify, id, rfl, -⟩ := SequencerContext.newPreconfL2Block_cases hctx
  exact flushIfStale_state _ _

theorem startBlock_cases {g : Sequencer} {size : Nat} (hgate : s.anchoring env i = some (g, size))
    (h : g.startBlock env size i = .ok s') : Transition env i s s' := by
  simp only [startBlock] at h
  obtain ⟨anchored, hanchor, h⟩ := Except.bind_eq_ok_iff.mp h
  cases anchored with
  | error err =>
      simp only at h
      split at h
      · cases h
      · cases h
        exact .anchorFailed _ _ hgate
  | ok r =>
      obtain ⟨stateId, blockInfo⟩ := r
      obtain ⟨⟨active, txPool⟩, -, h⟩ := Except.bind_eq_ok_iff.mp h
      cases h
      exact .anchored _ _ _ hgate hanchor

theorem finishBlock_cases {sd : SortData} (hstate : s.ctx.state = .sorting sd)
    (hdiscard : sd.shouldDiscard = false) (hseal : sd.shouldSeal i.sealNow = true)
    (h : s.takeState.finishBlock env sd i = .ok s') : Transition env i s s' := by
  simp only [finishBlock] at h
  obtain ⟨result, hresult, h⟩ := Except.bind_eq_ok_iff.mp h
  cases result with
  | ok t =>
      cases h
      obtain ⟨block, reorged, ctx, request, hanswer, hctx, hrequest, rfl⟩ :=
        sealBlock_eq_ok hresult
      exact .sealed _ hstate hdiscard hseal hanswer hctx hrequest
  -- both tolerated failures drop the block and clear the nonces; any other aborts
  | error err =>
      have hanswer : sealAnswer i sd.stateId = .error err := sealBlock_eq_error.mp hresult
      have hfail : Tolerated err → Transition env i s
          { s.takeState with txPool := s.txPool.clearNonces } := fun htolerated =>
        .sealFailed hstate hdiscard hseal hanswer htolerated
      split at h
      · rename_i heq
        cases heq
      · rename_i status message heq
        cases heq
        cases h
        exact hfail (Or.inl ⟨status, message, rfl⟩)
      · rename_i err' hne heq
        cases heq
        split at h
        · rename_i hnil
          cases h
          exact hfail (Or.inr hnil)
        · cases h

/-- **`stateTransition` does one `Transition`.** -/
theorem transition_of_eq_ok (h : s.stateTransition env i = .ok s') : Transition env i s s' := by
  cases hs : s.ctx.state with
  | sync lastL1 =>
      simp only [stateTransition, hs] at h
      obtain ⟨gate, hgate, h⟩ := Except.bind_eq_ok_iff.mp h
      cases gate with
      | build g size =>
          have hanchoring : s.anchoring env i = some (g, size) := by
            simp only [anchoring, hs, hgate]
          exact startBlock_cases hanchoring h
      | wait g =>
          cases h
          rcases syncGate_cases hgate with ⟨-, g, hwait, hg⟩ | ⟨-, g, go, size, hstatus, hgo⟩
          · cases hwait
            rcases hg with rfl | ⟨l, rfl⟩
            · exact .wait (g := s.takeState) 0 hs (Or.inl rfl)
            · exact .wait (g := s.takeState) l hs (Or.inl rfl)
          · cases go with
            | true => cases hgo
            | false =>
                cases hgo
                have hg := statusGate_cases hstatus
                obtain ⟨timings, needs, events, heq, -⟩ := hg.eq
                -- the state was taken, so it is the default one, and the status check leaves it
                have hsame : s' = { s' with ctx := { s'.ctx with state := .sync 0 } } := by
                  have heq' : s' = _ := heq
                  rw [heq']
                  rfl
                rw [hsame]
                exact .wait 0 hs (Or.inr hg)
  | sorting sd =>
      simp only [stateTransition, hs] at h
      split at h
      · rename_i hdiscard
        cases h
        exact .discarded hs hdiscard
      · rename_i hdiscard
        rw [Bool.not_eq_true] at hdiscard
        split at h
        · rename_i hseal
          exact finishBlock_cases hs hdiscard hseal h
        · obtain ⟨⟨sd', orders⟩, hround, h⟩ := Except.bind_eq_ok_iff.mp h
          cases h
          exact .round hs hround

end Transition

/-! ### Turns of the loop -/

/-- The state after the tick of this turn; before the sequencer is ready there
is no tick. -/
def ticked (env : Env) (s : Sequencer) (i : Input) : Option Sequencer :=
  if s.looping || s.isReady env then ({ s with looping := true }.tick env i.tick).toOption
  else none

section Turn

variable {i : Input} {s s' t : Sequencer}

theorem ticked_chain (h : s.ticked env i = some t) : ReflTransGen (TickStep env i.tick) s t := by
  simp only [ticked] at h
  split at h
  · have hchain := tick_chain (Except.toOption_eq_some_iff.mp h)
    exact .head (.quiet s.txPool s.lookahead s.previousSkipReason s.timings true s.flags id) hchain
  · cases h

/-- A turn ticks and does one transition, or only reads blocks. -/
theorem iteration_cases (h : s.iteration env i = .ok s') :
    (∃ t, s.ticked env i = some t ∧ Transition env i.transition t s') ∨
      (s.ticked env i = none ∧ ReflTransGen (TickStep env i.tick) s s') := by
  simp only [iteration] at h
  split at h
  · rename_i hready
    obtain ⟨t, htick, htrans⟩ := Except.bind_eq_ok_iff.mp h
    refine Or.inl ⟨t, ?_, transition_of_eq_ok htrans⟩
    rw [ticked, if_pos hready]
    exact Except.toOption_eq_some_iff.mpr htick
  · rename_i hready
    refine Or.inr ⟨?_, recvBlocks_chain h⟩
    rw [ticked, if_neg hready]

theorem iteration_of_ticked (h : s.ticked env i = some t) :
    s.iteration env i = t.stateTransition env i.transition := by
  simp only [ticked] at h
  split at h
  · rename_i hready
    have htick := Except.toOption_eq_some_iff.mp h
    rw [iteration, if_pos hready, htick]
    rfl
  · cases h

/-- `P` holds of the states this turn reaches: after the tick, and at its end. -/
def TurnReaches (env : Env) (P : Sequencer → Prop) (s : Sequencer) (i : Input)
    (r : Except Panic Sequencer) : Prop :=
  (∀ t, s.ticked env i = some t → P t) ∧ ∀ s', r = .ok s' → P s'

/-- A property kept by the steps of a tick holds after the tick. -/
theorem chain_keeps (Inv : Sequencer → Prop)
    (hstep : ∀ {s s'}, TickStep env i.tick s s' → Inv s → Inv s') (hs : Inv s)
    (h : ReflTransGen (TickStep env i.tick) s t) : Inv t := by
  induction h with
  | refl => exact hs
  | tail _ hlast ih => exact hstep hlast ih

/-- **The rule for invariants of the loop.** -/
theorem iteration_keeps (Inv : Sequencer → Prop)
    (hstep : ∀ {s s'}, TickStep env i.tick s s' → Inv s → Inv s')
    (htrans : ∀ {t s'}, s.ticked env i = some t → Inv t → Transition env i.transition t s' → Inv s')
    (hs : Inv s) (h : s.iteration env i = .ok s') : Inv s' := by
  rcases iteration_cases h with ⟨t, htick, ht⟩ | ⟨-, hchain⟩
  · exact htrans htick (chain_keeps Inv hstep hs (ticked_chain htick)) ht
  · exact chain_keeps Inv hstep hs hchain

end Turn

end Sequencer

/-! ### A small setting

One operator that is both current and next, blocks of two seconds, an anchor
that is too old after twelve.  The concrete runs of the later modules are in
this setting; block hashes are chosen by hand. -/

namespace Sample

def config : SequencerConfig :=
  { operatorAddress := 7
    coinbaseAddress := 7
    l1SafeLag := 1
    l1Delay := 1000000
    targetBlockTime := 2000
    anchorBatchLag := 1
    batchTargetSize := 1000
    maxSimsPerLoop := 10
    throttleQueueTarget := 10
    minOrdersBeforeSeal := 0
    maxBlockSkips := 1
    throttle := fun maxBlockSize _ => maxBlockSize
    estimateCompressedSize := id }

def env : Env :=
  { config := config
    chainConfig := ⟨default, 100, 1000000, 10⟩
    encodeAnchor := fun _ _ _ => [] }

def lookahead : LookaheadHandle :=
  { checked := 0
    last := ⟨7, 7, 0⟩
    handoverStartBufferMs := 0
    beacon := {
      sampleBeacon with
      slotsPerEpoch := 1000000
      genesisTimeSec := 0
      slotsPerEpoch_pos := by decide } }

def lookaheadEnv : LookaheadEnv := ⟨⟨7, 7, 0⟩, true, 4, 0, 0⟩

/-- The start of the loop. -/
def start : Sequencer := .new env lookahead 0

def l1Header (number : Nat) : Header := ⟨number, number, 0, 0, 0, 0, 0⟩

/-- The anchor tx of a block, with the anchor's L1 block. -/
def anchorTx (number anchorBlockId : Nat) : Order :=
  .newWithSender ⟨number, 1, 0, .anchorV3 ⟨anchorBlockId, 0, 0, default, []⟩, []⟩ goldenTouchAddress

/-- A block of the coinbase. -/
def blockWith (orders : List Order) (number hash parentHash timestamp anchorBlockId : Nat) :
    Block :=
  ⟨⟨number, hash, parentHash, timestamp, 7, 0, 0⟩,
    .full ((anchorTx number anchorBlockId :: orders).map fun order => ⟨order.sender, order.tx⟩)⟩

/-- A block of the coinbase without user txs. -/
def block : (number hash parentHash timestamp anchorBlockId : Nat) → Block := blockWith []

/-- A user tx. -/
def userTx : Order := .newWithSender ⟨0, 1, 0, .other [], [1, 2, 3]⟩ 5

/-- A tx of this sender. -/
def senderTx (sender nonce : Nat) : Order := .newWithSender ⟨nonce, 1, 0, .other [], [1]⟩ sender

/-- The environment a block is anchored in. -/
def blockEnv (number timestamp : Nat) : BlockEnv :=
  Sequencer.getBlockEnvFromAnchor number 1000000 7 timestamp 1

/-- A turn at these times on which nothing arrives and nothing is answered. -/
def turn (now : Instant) (utc : Nat) : Input :=
  { tick :=
      { recv := ⟨[], [], [], now⟩
        txs := []
        sim := none
        isProposeDelayed := false
        l1DelayNow := now
        isCurrentOperatorEnv := lookaheadEnv
        canSequenceEnv := lookaheadEnv
        canProposeEnv := lookaheadEnv
        l2Origin := 10
        anchorAgeUtc := utc
        anchorCreatedUtc := utc
        txPoolNow := now
        drawn := 0
        simulatorNonce := none
        shouldClearEnv := lookaheadEnv
        timeShiftUtc := utc }
    transition :=
      { pendingProposals := 0
        retryNow := now
        produceNow := now
        statusNow := now
        statusCheckedAt := now
        statusBlock := .ok 0
        anchorUtc := utc
        baseFee := .ok 1
        simulateAnchor := fun _ _ => .error "no simulator"
        hashOrder := .byKey
        sortNow := now
        produceFrom := now
        anchorErrorAt := now
        sealNow := now
        sealBlock := fun _ => .error (.rpc "no simulator")
        gossip := fun _ => .ok ()
        sealedAt := now
        simNow := now } }

/-- These blocks arrive in the turn. -/
def receiving (l1Blocks : List Header) (l2Blocks : List Block) (i : Input) : Input :=
  { i with tick := { i.tick with recv := ⟨l1Blocks, l2Blocks, [], i.tick.recv.now⟩ } }

/-- These txs arrive in the turn. -/
def receivingTxs (txs : List Order) (i : Input) : Input :=
  { i with tick := { i.tick with txs := txs } }

/-- The simulator has simulated this order on a state. -/
def simulated (order : Order) (originStateId stateId : StateId) (i : Input) : Input :=
  { i with
    tick := { i.tick with sim := some (.ok ⟨originStateId, .success stateId 21000 1, order⟩) } }

/-- The simulator answers this anchor, in this environment, with a state. -/
def simulating (order : Order) (blockEnv : BlockEnv) (stateId : StateId) (i : Input) : Input :=
  { i with
    transition :=
      { i.transition with
        simulateAnchor := fun order' blockEnv' =>
          if order' = order ∧ blockEnv' = blockEnv then .ok (.success stateId 0 0)
          else .error "unknown anchor" } }

/-- The simulator seals this state into a block. -/
def sealing (stateId : StateId) (block : Block) (i : Input) : Input :=
  { i with
    transition :=
      { i.transition with
        sealBlock := fun stateId' =>
          if stateId' = stateId then .ok ⟨block⟩ else .error (.rpc "unknown state") } }

/-- The status endpoint answers this block. -/
def answeringStatus (statusBlock : Nat) (i : Input) : Input :=
  { i with transition := { i.transition with statusBlock := .ok statusBlock } }

/-- The gossip endpoint fails. -/
def gossipFailing (i : Input) : Input :=
  { i with
    transition := { i.transition with gossip := fun _ => .error (.softBlock 500 "unavailable") } }

end Sample

end TaikoGateway
