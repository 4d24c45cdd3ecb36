/-
TaikoGateway/ParentRules.lean

The L1 rules for a block and its parent: the anchor of a block is not before
its parent's, and neither is its timestamp (`ParentRules`).

The guard in `Sync` compares the parent's anchor with the safe L1 block, but
the block is built with the cached anchor, which may be older; the timestamp is
not compared at all.  Blocks this process has sealed cannot break the rules:
the cached anchor only moves forward (`TickStep.anchorReached`), and so does
the clock.  So the rules hold along a run exactly when they hold at the blocks
of other gateways on which a block is started (`parentRules_iff`);
`foreign_parent_breaks_rules` has one run for each rule.
-/
import TaikoGateway.Chains
import TaikoGateway.StateIds

namespace TaikoGateway

/-- A sealed block has the timestamp of the environment it was simulated in. -/
def HonestTimestamps (denote : StateId → BlockState) (i : Input) : Prop :=
  ∀ stateId res, i.transition.sealBlock stateId = .ok res →
    res.builtBlock.header.timestamp = (denote stateId).blockEnv.timestamp

namespace Sequencer

variable {env : Env} {denote : StateId → BlockState}

/-! ### The rules -/

/-- The rules for a block with this anchor and timestamp on this parent. -/
def ParentRules (parent : ParentParams) (anchor : AnchorParams) (timestamp : Nat) : Prop :=
  (∀ id, parent.block.anchorBlockId = some id → id ≤ anchor.blockId) ∧ parent.timestamp ≤ timestamp

instance (parent : ParentParams) (anchor : AnchorParams) (timestamp : Nat) :
    Decidable (ParentRules parent anchor timestamp) :=
  inferInstanceAs (Decidable ((∀ id ∈ parent.block.anchorBlockId, id ≤ anchor.blockId) ∧ _))

/-- Blocks are anchored by the rules. -/
def AnchorsByRules (env : Env) (s : Sequencer) (i : Input) : Prop :=
  ∀ t g size anchor parent, s.ticked env i = some t →
    t.anchoring env i.transition = some (g, size) → g.ctx.anchor = some anchor →
    g.ctx.l2Parent = .ok parent →
    ParentRules parent anchor (blockTimestamp env i.transition.anchorUtc)

/-- All blocks sealed so far. -/
def seals (s : Sequencer) : List Sealed :=
  s.proposedBatches.flatMap (·.seals) ++ s.pendingSeals

/-- On a parent that this process has not sealed, blocks are anchored by the
rules. -/
def ForeignParentsByRules (env : Env) (s : Sequencer) (i : Input) : Prop :=
  ∀ t g size anchor parent, s.ticked env i = some t →
    t.anchoring env i.transition = some (g, size) → g.ctx.anchor = some anchor →
    g.ctx.l2Parent = .ok parent → (∀ b ∈ t.seals, b.block ≠ parent.block) →
    ParentRules parent anchor (blockTimestamp env i.transition.anchorUtc)

instance (env : Env) (s : Sequencer) (i : Input) : Decidable (ForeignParentsByRules env s i) :=
  decidable_of_iff
    (∀ t ∈ s.ticked env i, ∀ g ∈ t.anchoring env i.transition, ∀ anchor ∈ g.1.ctx.anchor,
      ∀ parent ∈ g.1.ctx.l2Parent.toOption, (∀ b ∈ t.seals, b.block ≠ parent.block) →
        ParentRules parent anchor (blockTimestamp env i.transition.anchorUtc))
    (by
      simp only [ForeignParentsByRules, Option.mem_def, Except.toOption_eq_some_iff]
      constructor
      · intro h t g size anchor parent ht hg hanchor hparent
        exact h t ht (g, size) hg anchor hanchor parent hparent
      · intro h t ht g hg anchor hanchor parent hparent
        exact h t g.1 g.2 anchor parent ht hg hanchor hparent)

/-! ### Sealed blocks -/

theorem SameBatches.seals {s s' : Sequencer} (h : SameBatches s s') : s'.seals = s.seals := by
  rw [Sequencer.seals, proposedBatches, pendingSeals, h.2]
  rfl

theorem SentBatch.seals {s s' : Sequencer} (h : SentBatch s s') : s'.seals = s.seals := by
  obtain ⟨request, -, -, hlog⟩ := h
  rw [Sequencer.seals, proposedBatches, pendingSeals, hlog]
  simp [Sequencer.seals]

theorem SealedBlock.seals {s s' : Sequencer} {b : Sealed} {request : ProposeBatchParams}
    (h : SealedBlock s s' b request) : s'.seals = s.seals ++ [b] := by
  obtain ⟨-, hlog⟩ := h
  rw [Sequencer.seals, proposedBatches, pendingSeals, hlog]
  simp [Sequencer.seals]

theorem TickStep.seals {i : TickInput} {s s' : Sequencer} (h : TickStep env i s s') :
    s'.seals = s.seals := by
  rcases h.batches with hsame | hsent
  · exact hsame.seals
  · exact hsent.seals

/-- A transition seals at most the block under construction. -/
theorem Transition.seals {i : TransitionInput} {s s' : Sequencer} (h : Transition env i s s') :
    s'.seals = s.seals ∨
      ∃ sd block, s.ctx.state = .sorting sd ∧ sealAnswer i sd.stateId = .ok block ∧
        s'.seals = s.seals ++ [sealOf sd block] := by
  rcases h.batches with (hsame | hsent) | ⟨sd, block, request, hseals, -, t, ht, hflush⟩
  · exact Or.inl hsame.seals
  · exact Or.inl hsent.seals
  · refine Or.inr ⟨sd, block, hseals.state, hseals.answer, ?_⟩
    rcases hflush with hsame | hsent
    · rw [hsame.seals, ht.seals]
    · rw [hsent.seals, ht.seals]

theorem BatchesSatisfy.of_mem_seals {Q : Sealed → Prop} {s : Sequencer}
    (hs : BatchesSatisfy (fun _ bs => ∀ b ∈ bs, Q b) s) {b : Sealed} (hb : b ∈ s.seals) : Q b := by
  rcases List.mem_append.mp hb with hb | hb
  · obtain ⟨batch, hbatch, hb⟩ := List.mem_flatMap.mp hb
    exact hs.proposed batch hbatch b hb
  · exact hs.pending b hb

/-- A sealed block carries the anchor it was built with. -/
theorem SealedFrom.anchorBlockId {b : Sealed} (h : SealedFrom env b) :
    b.block.anchorBlockId = some b.blockInfo.anchorParams.blockId := by
  obtain ⟨anchored, ⟨parent, timestamp, -, -, rfl⟩, htxs⟩ := h
  simp only [Block.anchorBlockId, htxs]
  rfl

/-! ### The anchor moves forward -/

/-- The current anchor is at this block or after it. -/
def AnchorReached (s : Sequencer) (blockId : Nat) : Prop :=
  ∃ anchor, s.ctx.anchor = some anchor ∧ blockId ≤ anchor.blockId

theorem AnchorReached.congr {s s' : Sequencer} {blockId : Nat} (hs : AnchorReached s blockId)
    (h : s'.ctx.anchor = s.ctx.anchor) : AnchorReached s' blockId := by
  rw [AnchorReached, h]
  exact hs

theorem TickStep.anchorReached {i : TickInput} {s s' : Sequencer} {blockId : Nat}
    (h : TickStep env i s s') (hs : AnchorReached s blockId) : AnchorReached s' blockId := by
  rcases h.anchor with hsame | ⟨header, hnewer, rfl⟩
  · exact hs.congr hsame
  · obtain ⟨anchor, hanchor, hle⟩ := hs
    refine ⟨_, sendBatchToProposer_anchor (s.setAnchor header i.anchorCreatedUtc) true, ?_⟩
    exact hle.trans (hnewer anchor hanchor).le

/-- The transition does not change the anchor. -/
theorem Transition.anchor {i : TransitionInput} {s s' : Sequencer} (h : Transition env i s s') :
    s'.ctx.anchor = s.ctx.anchor := by
  cases h with
  | wait lastL1' hstate hg =>
      rcases hg with rfl | hg
      · rfl
      · have hctx := hg.ctx
        exact congrArg (fun ctx => ctx.anchor) hctx
  | anchored active txPool timings hgate hanchor =>
      have hctx := anchoring_ctx hgate
      exact congrArg (fun ctx => ctx.anchor) hctx
  | anchorFailed timings count hgate =>
      have hctx := anchoring_ctx hgate
      exact congrArg (fun ctx => ctx.anchor) hctx
  | discarded hstate hdiscard => exact flushIfStale_anchor _ _
  | @sealed sd block reorged ctx request timings hstate hdiscard hseal hanswer hctx hrequest =>
      obtain ⟨_, _, _, hctx', -⟩ := SequencerContext.newPreconfL2Block_cases hctx
      have hanchor : ctx.anchor = s.ctx.anchor := by
        rw [hctx']
        rfl
      exact (flushIfStale_anchor _ _).trans hanchor
  | sealFailed hstate hdiscard hseal hanswer htolerated => rfl
  | round hstate hround => rfl

/-! ### What is known of L2 blocks -/

/-- The parameters of known blocks have their timestamps. -/
def ParamsInv (s : Sequencer) : Prop :=
  ∀ parent ∈ s.ctx.l2Headers, parent.timestamp = parent.block.header.timestamp

theorem ParamsInv.congr {s s' : Sequencer} (hs : ParamsInv s)
    (h : s'.ctx.l2Headers = s.ctx.l2Headers) : ParamsInv s' := by
  rw [ParamsInv, h]
  exact hs

theorem ParamsInv.update {s s' : Sequencer} {block : Block} {ctx ctx' : SequencerContext}
    (hs : ParamsInv s) (hctx : ctx.l2Headers = s.ctx.l2Headers)
    (hctx' : s'.ctx.l2Headers = ctx'.l2Headers) (h : SequencerContext.L2Update block ctx ctx') :
    ParamsInv s' := by
  obtain ⟨l2Headers, toVerify, id, rfl, hmem⟩ := h
  intro parent hp
  rw [hctx'] at hp
  rcases hmem parent hp with hold | ⟨hblock, -, -, htimestamp⟩
  · rw [hctx] at hold
    exact hs parent hold
  · rw [htimestamp, hblock]

theorem ParamsInv.tickStep {i : TickInput} {s s' : Sequencer} (h : TickStep env i s s')
    (hs : ParamsInv s) : ParamsInv s' := by
  rcases h.l2 with hsame | ⟨block, reorged, -, hcall⟩ | ⟨header, hcall⟩
  · exact hs.congr hsame
  · exact hs.update rfl rfl (SequencerContext.newPreconfL2Block_cases hcall)
  · obtain ⟨l2Headers, toVerify, heq, hmem⟩ := SequencerContext.newOriginL2Block_cases hcall
    intro parent hp
    rw [heq] at hp
    exact hs parent (hmem parent hp)

theorem ParamsInv.transition {i : TransitionInput} {s s' : Sequencer} (hs : ParamsInv s)
    (h : Transition env i s s') : ParamsInv s' := by
  rcases h.chains with hsame | ⟨sd, block, reorged, ctx, -, -, -, -, hcall, hsame⟩
  · exact hs.congr hsame.l2Headers
  · have htaken : s.takeState.ctx.l2Headers = s.ctx.l2Headers := rfl
    exact hs.update htaken hsame.l2Headers (SequencerContext.newPreconfL2Block_cases hcall)

/-! ### The invariant -/

theorem blockTimestamp_mono (env : Env) {utc utc' : Nat} (h : utc ≤ utc') :
    blockTimestamp env utc ≤ blockTimestamp env utc' :=
  Nat.add_le_add_right h _

/-- What is built or sealed has an anchor that was reached, and a timestamp the
clock has reached; `utc` is the last reading. -/
structure RulesInv (env : Env) (denote : StateId → BlockState) (utc : Nat) (s : Sequencer) :
    Prop where
  simulator : SimulatorInv env denote s
  params : ParamsInv s
  sorting : ∀ sd, s.ctx.state = .sorting sd →
    AnchorReached s sd.blockInfo.anchorParams.blockId ∧
      (denote sd.stateId).blockEnv.timestamp ≤ blockTimestamp env utc
  seals : ∀ b ∈ s.seals, AnchorReached s b.blockInfo.anchorParams.blockId ∧
    b.block.header.timestamp ≤ blockTimestamp env utc

section Turn

variable {s s' t : Sequencer} {i : Input} {utc : Nat}

theorem RulesInv.later {utc' : Nat} (hs : RulesInv env denote utc s) (h : utc ≤ utc') :
    RulesInv env denote utc' s := by
  have hle := blockTimestamp_mono env h
  refine ⟨hs.simulator, hs.params, fun sd hsd => ?_, fun b hb => ?_⟩
  · exact ⟨(hs.sorting sd hsd).1, (hs.sorting sd hsd).2.trans hle⟩
  · exact ⟨(hs.seals b hb).1, (hs.seals b hb).2.trans hle⟩

theorem RulesInv.tickStep (hhonest : HonestSimulator denote i) (h : TickStep env i.tick s s')
    (hs : RulesInv env denote utc s) : RulesInv env denote utc s' := by
  refine ⟨hs.simulator.tickStep hhonest h, hs.params.tickStep h, ?_, ?_⟩
  · intro sd' hstate'
    have hstate := h.state
    rw [hstate'] at hstate
    generalize hold : s.ctx.state = old at hstate
    cases hstate with
    | @sorting sd _ hsame hbest =>
        obtain ⟨hreached, htimestamp⟩ := hs.sorting sd hold
        rw [hsame.blockInfo, hsame.stateId]
        exact ⟨h.anchorReached hreached, htimestamp⟩
  · intro b hb
    rw [h.seals] at hb
    obtain ⟨hreached, htimestamp⟩ := hs.seals b hb
    exact ⟨h.anchorReached hreached, htimestamp⟩

theorem RulesInv.ticked (hhonest : HonestSimulator denote i) (hs : RulesInv env denote utc s)
    (h : s.ticked env i = some t) : RulesInv env denote utc t :=
  chain_keeps (RulesInv env denote utc) (RulesInv.tickStep hhonest) hs (ticked_chain h)

/-- The block that a transition starts or goes on with. -/
theorem RulesInv.sorting_of_transition (hhonest : HonestSimulator denote i)
    (ht : RulesInv env denote utc t) (hutc : utc ≤ i.transition.anchorUtc)
    (h : Transition env i.transition t s') {sd' : SortData}
    (hstate' : s'.ctx.state = .sorting sd') :
    AnchorReached s' sd'.blockInfo.anchorParams.blockId ∧
      (denote sd'.stateId).blockEnv.timestamp ≤ blockTimestamp env i.transition.anchorUtc := by
  have hreached : ∀ {blockId : Nat}, AnchorReached t blockId → AnchorReached s' blockId :=
    fun hold => hold.congr h.anchor
  have hle := blockTimestamp_mono env hutc
  obtain ⟨-, ⟨g, size, stateId, blockInfo, active, hgate, hanchor, rfl⟩ |
    ⟨sd, orders, hstate, hround⟩⟩ := h.sorting_cases hstate'
  · obtain ⟨anchor, parent, baseFee, _, _, hcurrent, -, -, rfl, hsim⟩ := anchorBlock_eq_ok hanchor
    have hdenote := hhonest.anchor _ _ _ _ _ hsim
    refine ⟨hreached ⟨anchor, ?_, le_rfl⟩, ?_⟩
    · rw [anchoring_ctx hgate] at hcurrent
      exact hcurrent
    · show (denote stateId).blockEnv.timestamp ≤ _
      rw [hdenote]
      exact le_rfl
  · obtain ⟨hold, htimestamp⟩ := ht.sorting sd hstate
    rcases SortData.maybeSimNextBatch_cases hround with
      ⟨hsame, -⟩ | ⟨v, hv, horigin, hinfo, hid, -, -⟩
    · rw [hsame.blockInfo, hsame.stateId]
      exact ⟨hreached hold, htimestamp.trans hle⟩
    · -- the applied result has the environment of the state it was simulated on
      have hnext := (ht.simulator.stateIds sd hstate).2 v hv
      rw [hinfo, hid, hnext, horigin]
      exact ⟨hreached hold, htimestamp.trans hle⟩

theorem RulesInv.transition (hhonest : HonestSimulator denote i)
    (htimestamps : HonestTimestamps denote i) (ht : RulesInv env denote utc t)
    (hutc : utc ≤ i.transition.anchorUtc) (h : Transition env i.transition t s') :
    RulesInv env denote i.transition.anchorUtc s' := by
  have hreached : ∀ {blockId : Nat}, AnchorReached t blockId → AnchorReached s' blockId :=
    fun hold => hold.congr h.anchor
  have hle := blockTimestamp_mono env hutc
  have hold : ∀ b ∈ t.seals, AnchorReached s' b.blockInfo.anchorParams.blockId ∧
      b.block.header.timestamp ≤ blockTimestamp env i.transition.anchorUtc :=
    fun b hb => ⟨hreached (ht.seals b hb).1, (ht.seals b hb).2.trans hle⟩
  refine ⟨ht.simulator.transition hhonest h, ht.params.transition h,
    fun sd hsd => ht.sorting_of_transition hhonest hutc h hsd, fun b hb => ?_⟩
  rcases h.seals with hsame | ⟨sd, block, hstate, hanswer, hseals⟩
  · rw [hsame] at hb
    exact hold b hb
  · rw [hseals] at hb
    rcases List.mem_append.mp hb with hb | hb
    · exact hold b hb
    · rw [List.mem_singleton.mp hb]
      obtain ⟨hsorting, htimestamp⟩ := ht.sorting sd hstate
      obtain ⟨res, hseal, -, rfl⟩ := sealAnswer_eq_ok.mp hanswer
      refine ⟨hreached hsorting, ?_⟩
      show res.builtBlock.header.timestamp ≤ _
      rw [htimestamps _ _ hseal]
      exact htimestamp.trans hle

theorem RulesInv.iteration (hhonest : HonestSimulator denote i)
    (htimestamps : HonestTimestamps denote i) (hs : RulesInv env denote utc s)
    (hutc : utc ≤ i.transition.anchorUtc) (h : s.iteration env i = .ok s') :
    RulesInv env denote i.transition.anchorUtc s' := by
  rcases iteration_cases h with ⟨t, htick, htrans⟩ | ⟨-, hchain⟩
  · exact (hs.ticked hhonest htick).transition hhonest htimestamps hutc htrans
  · exact (chain_keeps (RulesInv env denote utc) (RulesInv.tickStep hhonest) hs hchain).later hutc

/-! ### Runs -/

/-- A parent that this process sealed is never in the way. -/
theorem RulesInv.anchorsByRules (hhonest : HonestSimulator denote i)
    (hs : RulesInv env denote utc s) (hutc : utc ≤ i.transition.anchorUtc)
    (hforeign : ForeignParentsByRules env s i) : AnchorsByRules env s i := by
  intro t g size anchor parent htick hgate hanchor hparent
  have ht : RulesInv env denote utc t := hs.ticked hhonest htick
  by_cases hown : ∃ b ∈ t.seals, b.block = parent.block
  · obtain ⟨b, hb, hblock⟩ := hown
    obtain ⟨⟨current, hcurrent, hle⟩, htimestamp⟩ := ht.seals b hb
    have hctx : g.ctx = t.takeState.ctx := anchoring_ctx hgate
    have hsame : current = anchor := by
      rw [hctx] at hanchor
      exact Option.some.inj (hcurrent.symm.trans hanchor)
    have hsealed : SealedFrom env b := ht.simulator.seals.of_mem_seals hb
    refine ⟨fun id hid => ?_, ?_⟩
    · rw [← hblock, hsealed.anchorBlockId] at hid
      cases hid
      rw [← hsame]
      exact hle
    · have hmem : parent ∈ t.ctx.l2Headers := by
        rw [hctx] at hparent
        exact SequencerContext.l2Parent_mem hparent
      rw [ht.params parent hmem, ← hblock]
      exact htimestamp.trans (blockTimestamp_mono env hutc)
  · rw [not_exists] at hown
    exact hforeign t g size anchor parent htick hgate hanchor hparent
      fun b hb hblock => hown b ⟨hb, hblock⟩

/-- By the rules, the assertion in `compute_next_base_fee` holds. -/
theorem not_timestampBeforeParent (h : AnchorsByRules env s i) :
    s.iteration env i ≠ .error .timestampBeforeParent := by
  intro habort
  rcases iteration_aborts habort with htick | ⟨t, htick, habort⟩
  · exact absurd htick (by decide)
  · rcases transition_aborts habort with
      hother | ⟨g, size, anchor, parent, hgate, hanchor, hparent, hfee⟩ | ⟨sd, block, -, -, hacc⟩
    · exact absurd hother (by decide)
    · have hle := (h t g size anchor parent htick hgate hanchor hparent).2
      rw [computeNextBaseFee, if_pos hle] at hfee
      cases hfee
    · rcases accumulate_aborts hacc with hp | ⟨hp, -⟩ | ⟨hp, -⟩ <;> cases hp

end Turn

/-- **The L1 rules.**  With an honest simulator and a clock that does not go
backwards, along a run every block is anchored by the rules and
`compute_next_base_fee` never aborts, exactly when the blocks that are anchored
on another gateway's block are anchored by the rules. -/
theorem parentRules_iff (env : Env) (denote : StateId → BlockState) (lookahead : LookaheadHandle)
    (now : Instant) (is : List Input) (hhonest : ∀ i ∈ is, HonestSimulator denote i)
    (htimestamps : ∀ i ∈ is, HonestTimestamps denote i)
    (hclock : (is.map (·.transition.anchorUtc)).Pairwise (· ≤ ·)) :
    Run.Along (iteration env) (fun s i _ => ForeignParentsByRules env s i)
        (.new env lookahead now) is ↔
      Run.Along (iteration env)
        (fun s i r => AnchorsByRules env s i ∧ r ≠ .error .timestampBeforeParent)
        (.new env lookahead now) is := by
  have hnew : RulesInv env denote 0 (.new env lookahead now) :=
    ⟨simulatorInv_new env denote lookahead now, fun _ hp => absurd hp List.not_mem_nil,
      (fun _ hstate => by cases hstate), fun _ hb => absurd hb List.not_mem_nil⟩
  refine Run.Along.congr_of_clock (fun i => i.transition.anchorUtc) (RulesInv env denote)
    (fun i => HonestSimulator denote i ∧ HonestTimestamps denote i) (fun utc s i hs hi hutc => ?_)
    (fun utc s i s' hs hi hutc h => hs.iteration hi.1 hi.2 hutc h) is hnew
    (fun i hi => ⟨hhonest i hi, htimestamps i hi⟩) (fun _ _ => Nat.zero_le _) hclock
  constructor
  · intro hforeign
    have hrules := hs.anchorsByRules hi.1 hutc hforeign
    exact ⟨hrules, not_timestampBeforeParent hrules⟩
  · rintro ⟨hrules, -⟩ t g size anchor parent htick hgate hanchor hparent _
    exact hrules t g size anchor parent htick hgate hanchor hparent

section Sample

open Sample

theorem timestamps_sampleRun : ∀ i ∈ sampleRun, HonestTimestamps sampleDenote i := by
  intro i hi stateId res h
  simp only [sampleRun, List.mem_cons, List.not_mem_nil, or_false] at hi
  rcases hi with rfl | rfl | rfl | rfl | rfl | rfl
  case inr.inr.inr.inr.inl =>
    simp only [Sample.sealing] at h
    split at h
    · rename_i hsame
      cases h
      rw [hsame]
      rfl
    · cases h
  all_goals cases h

/-- In the sample run the rules hold. -/
theorem parentRules_iff_sample :
    Run.Along (iteration Sample.env)
      (fun s i r => AnchorsByRules Sample.env s i ∧ r ≠ .error .timestampBeforeParent)
      Sample.start sampleRun :=
  (parentRules_iff Sample.env sampleDenote Sample.lookahead 0 sampleRun honest_sampleRun
    timestamps_sampleRun (by decide)).mp (by decide +kernel)

/-- The cached anchor is 100; a block of another gateway arrives with anchor
104, which is safe by then. -/
def laterAnchorRun : List Input :=
  [ receiving [l1Header 100] [block 10 10 9 0 90] (turn 0 50),
    turn 3000 50,
    receiving [l1Header 105] [block 11 99 10 52 104]
      (simulating (anchorTx 12 100) (blockEnv 12 54) 1 (turn 4000 52)) ]

/-- A block of another gateway arrives whose timestamp is ahead of ours. -/
def laterTimestampRun : List Input :=
  [ receiving [l1Header 100] [block 10 10 9 0 90] (turn 0 50),
    turn 3000 50,
    receiving [] [block 11 99 10 60 100]
      (simulating (anchorTx 12 100) (blockEnv 12 54) 1 (turn 4000 52)) ]

/-- In the first run a block with anchor 100 is started on a parent with
anchor 104; the second aborts. -/
theorem foreign_parent_breaks_rules :
    (∃ s sd parent, laterAnchorRun.foldlM (iteration Sample.env) Sample.start = .ok s ∧
        s.ctx.state = .sorting sd ∧ s.ctx.l2Parent = .ok parent ∧
        sd.blockInfo.parentHash = parent.hash ∧ parent.block.anchorBlockId = some 104 ∧
        sd.blockInfo.anchorParams.blockId = 100) ∧
      laterTimestampRun.foldlM (iteration Sample.env) Sample.start =
        .error .timestampBeforeParent := by
  constructor
  · have h : (laterAnchorRun.foldlM (iteration Sample.env) Sample.start).toOption.bind
        (fun s => s.ctx.state.sortData?.bind fun sd => s.ctx.l2Parent.toOption.map fun parent =>
          (decide (sd.blockInfo.parentHash = parent.hash), parent.block.anchorBlockId,
            sd.blockInfo.anchorParams.blockId)) = some (true, some 104, 100) := by
      decide +kernel
    obtain ⟨s, hrun, h⟩ := Option.bind_eq_some_iff.mp h
    obtain ⟨sd, hsd, h⟩ := Option.bind_eq_some_iff.mp h
    obtain ⟨parent, hparent, h⟩ := Option.map_eq_some_iff.mp h
    obtain ⟨hhash, h⟩ := Prod.mk.inj h
    obtain ⟨hparentAnchor, hanchor⟩ := Prod.mk.inj h
    exact ⟨s, sd, parent, Except.toOption_eq_some_iff.mp hrun,
      SequencerState.sortData?_eq_some.mp hsd, Except.toOption_eq_some_iff.mp hparent,
      of_decide_eq_true hhash, hparentAnchor, hanchor⟩
  · have h : (laterTimestampRun.foldlM (iteration Sample.env) Sample.start).abort =
        some Panic.timestampBeforeParent := by decide +kernel
    exact Except.abort_eq_some_iff.mp h

end Sample

end Sequencer
end TaikoGateway
