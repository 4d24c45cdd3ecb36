/-
TaikoGateway/DerivedSeals.lean

The blocks that L1 derives from the batches of a run are the blocks that were
sealed.

A sealed block is announced to the L2 network right away; its batch is sent
later, as counts, time shifts and one tx list.  Users rely on the two being the
same chain: `derived_sealed` says that the batches sent so far, proposed one
after the other, derive to the sealed blocks in order, up to those that are
still pending.

The simulator is honest here, also about headers.  The one condition on the
run is the one of contiguous batches: no block is started on a block of another
gateway while a batch is pending.  Then the assertion on timestamps in
`compute_next_base_fee` is what makes the time shifts right, whatever the clock
does.
-/
import TaikoGateway.Derivation
import TaikoGateway.TimeShift

namespace TaikoGateway

open BlobEncoding

/-- A sealed block has the header of the environment it was simulated in. -/
def HonestHeaders (denote : StateId → BlockState) (i : Input) : Prop :=
  ∀ stateId res, i.transition.sealBlock stateId = .ok res →
    res.builtBlock.header.number = (denote stateId).blockEnv.number ∧
      res.builtBlock.header.timestamp = (denote stateId).blockEnv.timestamp ∧
      res.builtBlock.header.beneficiary = (denote stateId).blockEnv.coinbase

/-! ### Consecutive numbers -/

/-- Numbers that go up by one are a range. -/
theorem eq_range'_of_isChain {n : Nat} {ns : List Nat}
    (h : (n :: ns).IsChain fun a b => b = a + 1) : n :: ns = List.range' n (ns.length + 1) := by
  induction ns generalizing n with
  | nil => rfl
  | cons m ns ih =>
      rw [List.isChain_cons_cons] at h
      obtain ⟨rfl, hrest⟩ := h
      rw [List.length_cons, List.range'_succ, ← ih hrest]

/-- They can be counted from the last one. -/
theorem eq_range'_last {ns : List Nat} {last : Nat} (h : ns.IsChain fun a b => b = a + 1)
    (hlast : ns.getLast? = some last) : ns = List.range' (last + 1 - ns.length) ns.length := by
  cases ns with
  | nil => rfl
  | cons n ns =>
      have hrange := eq_range'_of_isChain h
      have hnum : last = n + ns.length := by
        rw [hrange, List.getLast?_range'] at hlast
        simp only [Nat.add_one_ne_zero, if_false, Option.some.injEq] at hlast
        omega
      rw [List.length_cons, hnum, show n + ns.length + 1 - (ns.length + 1) = n by omega]
      exact hrange

namespace Sequencer

variable {env : Env} {denote : StateId → BlockState}

/-! ### The condition -/

/-- A block that is started while blocks are pending is started on the last of
them. -/
def StartsOnPending (env : Env) (s : Sequencer) (i : Input) : Prop :=
  ∀ t g size anchored parent last, s.ticked env i = some t →
    t.anchoring env i.transition = some (g, size) →
    g.anchorBlock env i.transition = .ok (.ok anchored) → g.ctx.l2Parent = .ok parent →
    t.pendingSeals.getLast? = some last → parent.block = last.block

instance (env : Env) (s : Sequencer) (i : Input) : Decidable (StartsOnPending env s i) :=
  decidable_of_iff
    (∀ t ∈ s.ticked env i, ∀ g ∈ t.anchoring env i.transition,
      ∀ r ∈ (g.1.anchorBlock env i.transition).toOption, ∀ _a ∈ r.toOption,
        ∀ parent ∈ g.1.ctx.l2Parent.toOption, ∀ last ∈ t.pendingSeals.getLast?,
          parent.block = last.block)
    (by
      simp only [StartsOnPending, Option.mem_def, Except.toOption_eq_some_iff]
      constructor
      · intro h t g size a parent last ht hg hr hparent hlast
        exact h t ht (g, size) hg (.ok a) hr a rfl parent hparent last hlast
      · intro h t ht g hg r hr a ha parent hparent last hlast
        rw [ha] at hr
        exact h t g.1 g.2 a parent last ht hg hr hparent hlast)

/-! ### The numbers of known blocks -/

/-- The parameters of known blocks have their numbers. -/
def NumbersInv (s : Sequencer) : Prop :=
  ∀ parent ∈ s.ctx.l2Headers, parent.blockNumber = parent.block.header.number

theorem NumbersInv.update {s s' : Sequencer} {block : Block} {ctx ctx' : SequencerContext}
    (hs : NumbersInv s) (hctx : ctx.l2Headers = s.ctx.l2Headers)
    (hctx' : s'.ctx.l2Headers = ctx'.l2Headers) (h : SequencerContext.L2Update block ctx ctx') :
    NumbersInv s' := by
  obtain ⟨l2Headers, toVerify, id, rfl, hmem⟩ := h
  intro parent hp
  rw [hctx'] at hp
  rcases hmem parent hp with hold | ⟨hblock, hnumber, -, -⟩
  · rw [hctx] at hold
    exact hs parent hold
  · rw [hnumber, hblock]

theorem NumbersInv.tickStep {i : TickInput} {s s' : Sequencer} (h : TickStep env i s s')
    (hs : NumbersInv s) : NumbersInv s' := by
  rcases h.l2 with hsame | ⟨block, reorged, -, hcall⟩ | ⟨header, hcall⟩
  · intro parent hp
    rw [hsame] at hp
    exact hs parent hp
  · exact hs.update rfl rfl (SequencerContext.newPreconfL2Block_cases hcall)
  · obtain ⟨l2Headers, toVerify, heq, hmem⟩ := SequencerContext.newOriginL2Block_cases hcall
    intro parent hp
    rw [heq] at hp
    exact hs parent (hmem parent hp)

theorem NumbersInv.transition {i : TransitionInput} {s s' : Sequencer} (hs : NumbersInv s)
    (h : Transition env i s s') : NumbersInv s' := by
  rcases h.chains with hsame | ⟨sd, block, reorged, ctx, -, -, -, -, hcall, hsame⟩
  · intro parent hp
    rw [hsame.l2Headers] at hp
    exact hs parent hp
  · have htaken : s.takeState.ctx.l2Headers = s.ctx.l2Headers := rfl
    exact hs.update htaken hsame.l2Headers (SequencerContext.newPreconfL2Block_cases hcall)

/-! ### The invariant -/

/-- What the headers of the blocks in a batch have to be. -/
structure HeadersDescribed (env : Env) (request : Option ProposeBatchParams) (bs : List Sealed) :
    Prop where
  encoded : Encoded request bs
  numbers : (bs.map (·.block.header.number)).IsChain fun a b => b = a + 1
  coinbases : ∀ b ∈ bs, b.block.header.beneficiary = env.config.coinbaseAddress

theorem headersDescribed_none (env : Env) : HeadersDescribed env none [] :=
  ⟨rfl, List.isChain_nil, fun _ hb => absurd hb List.not_mem_nil⟩

/-- The environment of the block under construction is of our coinbase, and
goes on after the last pending block. -/
structure GoesOn (env : Env) (denote : StateId → BlockState) (s : Sequencer) (sd : SortData) :
    Prop where
  coinbase : (denote sd.stateId).blockEnv.coinbase = env.config.coinbaseAddress
  next : ∀ last, s.pendingSeals.getLast? = some last →
    (denote sd.stateId).blockEnv.number = last.block.header.number + 1 ∧
      last.block.header.timestamp ≤ (denote sd.stateId).blockEnv.timestamp

structure DerivedInv (env : Env) (denote : StateId → BlockState) (s : Sequencer) : Prop where
  run : StateIdsRunInv env denote s
  params : ParamsInv s
  numbers : NumbersInv s
  headers : BatchesSatisfy (HeadersDescribed env) s
  sorting : ∀ sd, s.ctx.state = .sorting sd → GoesOn env denote s sd

theorem derivedInv_new (env : Env) (denote : StateId → BlockState) (lookahead : LookaheadHandle)
    (now : Instant) : DerivedInv env denote (.new env lookahead now) where
  run := ⟨simulatorInv_new env denote lookahead now, .new accumulateAll_nil env lookahead now,
    .new (fun _ hb => absurd hb List.not_mem_nil) env lookahead now⟩
  params := fun _ hp => absurd hp List.not_mem_nil
  numbers := fun _ hp => absurd hp List.not_mem_nil
  headers := .new (headersDescribed_none env) env lookahead now
  sorting := fun _ hstate => by cases hstate

section Turn

variable {s s' t : Sequencer} {i : Input}

theorem StateIdsRunInv.tickStep (hhonest : HonestSimulator denote i)
    (h : TickStep env i.tick s s') (hs : StateIdsRunInv env denote s) :
    StateIdsRunInv env denote s' :=
  ⟨hs.simulator.tickStep hhonest h, hs.accounted.tickStep accumulateAll_nil h,
    hs.small.tickStep (fun _ hb => absurd hb List.not_mem_nil) h⟩

theorem DerivedInv.tickStep (hhonest : HonestSimulator denote i) (h : TickStep env i.tick s s')
    (hs : DerivedInv env denote s) : DerivedInv env denote s' := by
  refine ⟨hs.run.tickStep hhonest h, hs.params.tickStep h, hs.numbers.tickStep h,
    hs.headers.tickStep (headersDescribed_none env) h, fun sd' hstate' => ?_⟩
  have hstate := h.state
  rw [hstate'] at hstate
  generalize hold : s.ctx.state = old at hstate
  cases hstate with
  | @sorting sd _ hsame hbest =>
      obtain ⟨hcoinbase, hnext⟩ := hs.sorting sd hold
      rw [← hsame.stateId] at hcoinbase hnext
      refine ⟨hcoinbase, fun last hlast => hnext last ?_⟩
      -- a tick at most sends the pending batch
      rcases pendingSeals_of_tickStep h with hkept | hnil
      · rwa [hkept] at hlast
      · rw [hnil] at hlast
        cases hlast

theorem DerivedInv.ticked (hhonest : HonestSimulator denote i) (hs : DerivedInv env denote s)
    (h : s.ticked env i = some t) : DerivedInv env denote t :=
  chain_keeps (DerivedInv env denote) (DerivedInv.tickStep hhonest) hs (ticked_chain h)

/-- A block is started on the last pending one, and the assertion on timestamps
holds; a round stays in the environment. -/
theorem DerivedInv.goesOn_of_transition (hhonest : HonestSimulator denote i)
    (htick : s.ticked env i = some t) (hstarts : StartsOnPending env s i)
    (ht : DerivedInv env denote t) (h : Transition env i.transition t s') {sd' : SortData}
    (hstate' : s'.ctx.state = .sorting sd') : GoesOn env denote s' sd' := by
  obtain ⟨hsame, hcases⟩ := h.sorting_cases hstate'
  have hpending : s'.pendingSeals = t.pendingSeals := by
    rw [pendingSeals, pendingSeals, hsame.2]
  rcases hcases with ⟨g, size, stateId, blockInfo, active, hgate, hanchor, rfl⟩ |
    ⟨sd, orders, hstate, hround⟩
  · obtain ⟨anchor, parent, baseFee, _, _, -, hparent, hle, rfl, hsim⟩ := anchorBlock_eq_ok hanchor
    have hdenote := hhonest.anchor _ _ _ _ _ hsim
    have hmem : parent ∈ t.ctx.l2Headers := by
      rw [anchoring_ctx hgate] at hparent
      exact SequencerContext.l2Parent_mem hparent
    refine ⟨?_, fun last hlast => ?_⟩
    · show (denote stateId).blockEnv.coinbase = _
      rw [hdenote]
      rfl
    · rw [hpending] at hlast
      have hblock := hstarts t g size _ parent last htick hgate hanchor hparent hlast
      show (denote stateId).blockEnv.number = _ ∧ _ ≤ (denote stateId).blockEnv.timestamp
      rw [hdenote, ← hblock, ← ht.numbers parent hmem, ← ht.params parent hmem]
      exact ⟨rfl, hle⟩
  · obtain ⟨hcoinbase, hnext⟩ := ht.sorting sd hstate
    have henv : (denote sd'.stateId).blockEnv = (denote sd.stateId).blockEnv := by
      rcases SortData.maybeSimNextBatch_cases hround with
        ⟨hkept, -⟩ | ⟨v, hv, horigin, -, hid, -, -⟩
      · rw [hkept.stateId]
      · -- the applied result has the environment of the state it was simulated on
        have hdenote := (ht.run.simulator.stateIds sd hstate).2 v hv
        rw [hid, hdenote, horigin]
        rfl
    exact ⟨henv ▸ hcoinbase, fun last hlast => henv ▸ hnext last (hpending ▸ hlast)⟩

/-- The header of a sealed block goes on after the pending ones. -/
theorem DerivedInv.headers_sealed (hheaders : HonestHeaders denote i)
    (ht : DerivedInv env denote t) {sd : SortData} {block : Block} {request : ProposeBatchParams}
    (hstate : t.ctx.state = .sorting sd)
    (hanswer : sealAnswer i.transition sd.stateId = .ok block)
    (hrequest : accumulate env t.proposerRequest (sealOf sd block) = .ok request) :
    HeadersDescribed env (some request) (t.pendingSeals ++ [sealOf sd block]) := by
  obtain ⟨res, hseal, -, rfl⟩ := sealAnswer_eq_ok.mp hanswer
  obtain ⟨hnumber, htimestamp, hbeneficiary⟩ := hheaders _ _ hseal
  obtain ⟨hcoinbase, hnext⟩ := ht.sorting sd hstate
  have hpending := ht.headers.pending
  refine ⟨?_, ?_, ?_⟩
  · obtain ⟨-, ⟨hnone, rfl⟩ | ⟨before, hbefore, -, -, rfl⟩⟩ := accumulate_eq_ok hrequest
    · have hnil : t.pendingSeals = [] := by
        have hencoded := hpending.encoded
        rwa [hnone] at hencoded
      rw [hnil]
      exact encodesTimestamps_first _
    · rw [hbefore] at hpending
      have hencoded : EncodesTimestamps before t.pendingSeals := hpending.encoded
      obtain ⟨last, hlast, hts⟩ : ∃ last, t.pendingSeals.getLast? = some last ∧
          last.block.header.timestamp = before.lastTimestamp := by
        have hlast := hencoded.last
        rw [List.getLast?_map] at hlast
        exact Option.map_eq_some_iff.mp hlast
      apply hencoded.concat
      rw [← hts]
      exact (hnext last hlast).2.trans htimestamp.ge
  · rw [List.map_append]
    apply List.IsChain.append hpending.numbers (List.isChain_singleton _)
    intro n hn m hm
    rw [List.getLast?_map] at hn
    obtain ⟨last, hlast, rfl⟩ := Option.map_eq_some_iff.mp hn
    cases hm
    exact hnumber.trans (hnext last hlast).1
  · intro b hb
    rcases List.mem_append.mp hb with hb | hb
    · exact hpending.coinbases b hb
    · rw [List.mem_singleton.mp hb]
      exact hbeneficiary.trans hcoinbase

theorem DerivedInv.transition (hhonest : HonestSimulator denote i)
    (hheaders : HonestHeaders denote i) (hsmall : SmallBlocks i) (htick : s.ticked env i = some t)
    (hstarts : StartsOnPending env s i) (ht : DerivedInv env denote t)
    (h : Transition env i.transition t s') : DerivedInv env denote s' := by
  have hnone : ∀ b ∈ ([] : List Sealed), b.block.userOrders.length < 2 ^ 16 :=
    fun _ hb => absurd hb List.not_mem_nil
  refine ⟨⟨ht.run.simulator.transition hhonest h, ?_, ?_⟩, ht.params.transition h,
    ht.numbers.transition h, ?_, fun sd' hstate' =>
      ht.goesOn_of_transition hhonest htick hstarts h hstate'⟩
  · exact ht.run.accounted.of_transition h
  · apply BatchesSatisfy.transition hnone ht.run.small _ h
    intro sd block request hseals _ b hb
    rcases List.mem_append.mp hb with hb | hb
    · exact ht.run.small.pending b hb
    · rw [List.mem_singleton.mp hb]
      obtain ⟨res, hseal, -, rfl⟩ := sealAnswer_eq_ok.mp hseals.answer
      exact hsmall _ _ hseal
  · apply ht.headers.transition (headersDescribed_none env) _ h
    intro sd block request hseals hrequest
    exact ht.headers_sealed hheaders hseals.state hseals.answer hrequest

theorem DerivedInv.iteration (hhonest : HonestSimulator denote i)
    (hheaders : HonestHeaders denote i) (hsmall : SmallBlocks i)
    (hstarts : StartsOnPending env s i) (hs : DerivedInv env denote s)
    (h : s.iteration env i = .ok s') : DerivedInv env denote s' :=
  iteration_keeps (DerivedInv env denote) (DerivedInv.tickStep hhonest)
    (fun htick ht htrans => ht.transition hhonest hheaders hsmall htick hstarts htrans) hs h

end Turn

/-! ### Batches -/

/-- **The request of a batch stands for its blocks.** -/
theorem DerivedInv.derived {s : Sequencer} (hs : DerivedInv env denote s) {b : SealedBatch}
    (hb : b ∈ s.proposedBatches) :
    b.request.derived = b.seals.map (·.block.content) := by
  have hdescribes : Describes env b.request b.seals :=
    accumulateAll_describes (hs.run.accounted.proposed b hb)
  have hsealed := hs.run.simulator.seals.proposed b hb
  have hheaders := hs.headers.proposed b hb
  have hencoded : EncodesTimestamps b.request b.seals := hheaders.encoded
  have horders : ∀ x ∈ b.seals, x.block.userOrders = x.orders :=
    fun x hx => (hsealed x hx).userOrders
  have hlast : (b.seals.map (·.block.header.number)).getLast? = some b.request.endBlockNum := by
    rw [List.getLast?_map]
    exact hdescribes.last
  apply derived_eq
  · rw [List.map_map, hdescribes.counts]
    apply List.map_congr_left
    intro x hx
    show x.orders.length % 2 ^ 16 = (x.block.userOrders.map (·.tx)).length
    rw [List.length_map, horders x hx, Nat.mod_eq_of_lt]
    rw [← horders x hx]
    exact hs.run.small.proposed b hb x hx
  · rw [hdescribes.txs, List.map_flatMap, List.flatMap_map]
    apply List.flatMap_congr
    intro x hx
    show x.orders.map (·.tx) = x.block.userOrders.map (·.tx)
    rw [horders x hx]
  · rw [List.map_map]
    exact hencoded.encodes
  · have hrange := eq_range'_last hheaders.numbers hlast
    rw [List.length_map] at hrange
    rw [List.map_map, List.length_map]
    exact hrange
  · intro block hblock
    obtain ⟨x, hx, rfl⟩ := List.mem_map.mp hblock
    refine ⟨(hheaders.coinbases x hx).trans hdescribes.coinbase.symm, ?_⟩
    show x.block.anchorBlockId = _
    rw [(hsealed x hx).anchorBlockId, hdescribes.anchor x hx]

/-! ### Runs -/

/-- The blocks sealed so far, in order. -/
def sealedBlocks (s : Sequencer) : List Block :=
  s.events.filterMap fun e =>
    match e with
    | .sealed b => some b.block
    | _ => none

theorem record_seals (l : BatchLog) (events : List Event) :
    ((events.foldl BatchLog.record l).proposed.flatMap (·.seals) ++
        (events.foldl BatchLog.record l).pending).map (·.block) =
      (l.proposed.flatMap (·.seals) ++ l.pending).map (·.block) ++
        events.filterMap fun e =>
          match e with
          | .sealed b => some b.block
          | _ => none := by
  induction events generalizing l with
  | nil => simp
  | cons e events ih =>
      rw [List.foldl_cons, ih]
      cases e with
      | sealed b => simp [BatchLog.record]
      | proposed request => cases request <;> simp [BatchLog.record]
      | startedSequencing => simp [BatchLog.record]
      | statusBlock statusBlock local_ => simp [BatchLog.record]

/-- Every sealed block is in one batch, and they are in order. -/
theorem seals_eq_sealedBlocks (s : Sequencer) : s.seals.map (·.block) = s.sealedBlocks :=
  record_seals ⟨[], []⟩ s.events

/-- Each batch sent so far derives to the blocks that were sealed into it;
proposed one after the other they derive to the sealed blocks up to the pending
ones. -/
def DerivesSeals (abi : Abi) (kzg : Kzg) (codec : TxListCodec) (proposer : Address)
    (s : Sequencer) : Prop :=
  (∀ b ∈ s.proposedBatches,
      derivedBlocks abi kzg codec proposer b.request = some (b.seals.map (·.block.content))) ∧
    ∃ batches, s.proposedBatches.mapM (fun b => derivedBlocks abi kzg codec proposer b.request) =
        some batches ∧
      batches.flatten ++ s.pendingSeals.map (·.block.content) = s.sealedBlocks.map Block.content

/-- The size assertion admits the tx list of every batch sent so far. -/
def BatchesAdmitted (codec : TxListCodec) (s : Sequencer) : Prop :=
  ∀ b ∈ s.proposedBatches,
    (codec.encodeAndCompressOrders b.request.allTxList).length / maxBlobDataSize ≤
      maxBlobsPerBlockDencun

theorem DerivedInv.derivesSeals {abi : Abi} {kzg : Kzg} {codec : TxListCodec} {s : Sequencer}
    (hundo : abi.Undoes) (hkzg : kzg.Accepts) (proposer : Address)
    (hs : DerivedInv env denote s) (hadmitted : BatchesAdmitted codec s) :
    DerivesSeals abi kzg codec proposer s := by
  have hderived : ∀ b ∈ s.proposedBatches,
      derivedBlocks abi kzg codec proposer b.request =
        some (b.seals.map (·.block.content)) := by
    intro b hb
    rw [derivedBlocks_eq hundo hkzg b.request proposer (hadmitted b hb), hs.derived hb]
  refine ⟨hderived, s.proposedBatches.map fun b => b.seals.map (·.block.content), ?_, ?_⟩
  · exact mapM_eq_some_map hderived
  · rw [← seals_eq_sealedBlocks, Sequencer.seals, List.map_append, List.map_append, List.map_map,
      List.map_map, ← List.flatMap_def, List.map_flatMap]
    rfl

/-- **L1 has the chain that was sealed.**  With an honest simulator, blocks of
fewer than 2^16 user txs, and blocks that are only started on the last pending
one while there is one: in every state of every run in which the size assertion
admits the batches sent so far, each of these derives to its own blocks, and in
order they derive to exactly the blocks sealed so far, less the pending ones. -/
theorem derived_sealed {abi : Abi} {kzg : Kzg} (codec : TxListCodec) (hundo : abi.Undoes)
    (hkzg : kzg.Accepts) (proposer : Address) (env : Env) (denote : StateId → BlockState)
    (lookahead : LookaheadHandle) (now : Instant) (is : List Input)
    (hhonest : ∀ i ∈ is, HonestSimulator denote i ∧ HonestHeaders denote i ∧ SmallBlocks i)
    (hstarts : Run.Along (iteration env) (fun s i _ => StartsOnPending env s i)
      (.new env lookahead now) is) :
    Run.Along (iteration env)
      (TurnReaches env fun s =>
        BatchesAdmitted codec s → DerivesSeals abi kzg codec proposer s)
      (.new env lookahead now) is := by
  have hassumed : Run.Along (iteration env)
      (fun _ i _ => HonestSimulator denote i ∧ HonestHeaders denote i ∧ SmallBlocks i)
      (.new env lookahead now) is := Run.Along.of_forall_mem hhonest _
  apply Run.Along.mono_of_invariant (DerivedInv env denote) _ _ is
    (derivedInv_new env denote lookahead now) (hassumed.and hstarts)
  · rintro s i hs ⟨⟨hhonest, hheaders, hsmall⟩, hstarts⟩
    exact ⟨fun t ht => (hs.ticked hhonest ht).derivesSeals hundo hkzg proposer,
      fun s' hdone => (hs.iteration hhonest hheaders hsmall hstarts hdone).derivesSeals hundo hkzg
        proposer⟩
  · rintro s i s' hs ⟨⟨hhonest, hheaders, hsmall⟩, hstarts⟩ hdone
    exact hs.iteration hhonest hheaders hsmall hstarts hdone

end Sequencer

/-! ### Honest headers in the small setting -/

namespace HonestHeaders

variable {denote : StateId → BlockState} {i : Input}

theorem turn (denote : StateId → BlockState) (now : Instant) (utc : Nat) :
    HonestHeaders denote (Sample.turn now utc) := by
  intro stateId res h
  cases h

theorem answerSeal {stateId : StateId} {block : Block}
    (h : block.header.number = (denote stateId).blockEnv.number ∧
      block.header.timestamp = (denote stateId).blockEnv.timestamp ∧
      block.header.beneficiary = (denote stateId).blockEnv.coinbase) (i : Input) :
    HonestHeaders denote (Sample.sealing stateId block i) := by
  intro stateId' res heq
  simp only [Sample.sealing] at heq
  split at heq
  · rename_i hsame
    cases heq
    rw [hsame]
    exact h
  · cases heq

end HonestHeaders

namespace Sequencer

theorem smallBlocks_turn (now : Instant) (utc : Nat) : SmallBlocks (Sample.turn now utc) := by
  intro stateId res h
  cases h

theorem smallBlocks_answerSeal {block : Block} (h : block.userOrders.length < 2 ^ 16)
    (stateId : StateId) (i : Input) : SmallBlocks (Sample.sealing stateId block i) := by
  intro stateId' res heq
  simp only [Sample.sealing] at heq
  split at heq
  · cases heq
    exact h
  · cases heq

section Sample

open Sample

theorem headers_twoBlocksRun :
    ∀ i ∈ twoBlocksRun, HonestHeaders twoBlocksDenote i ∧ SmallBlocks i := by
  intro i hi
  simp only [twoBlocksRun, List.mem_cons, List.not_mem_nil, or_false] at hi
  rcases hi with rfl | rfl | rfl | rfl | rfl | rfl | rfl | rfl
  · exact ⟨.turn _ 0 50, smallBlocks_turn 0 50⟩
  · exact ⟨.turn _ 3000 50, smallBlocks_turn 3000 50⟩
  · exact ⟨.turn _ 3100 50, smallBlocks_turn 3100 50⟩
  · exact ⟨.turn _ 3200 50, smallBlocks_turn 3200 50⟩
  · exact ⟨.answerSeal ⟨rfl, rfl, rfl⟩ _, smallBlocks_answerSeal (by decide) 2 _⟩
  · exact ⟨.turn _ 6000 54, smallBlocks_turn 6000 54⟩
  · exact ⟨.answerSeal ⟨rfl, rfl, rfl⟩ _, smallBlocks_answerSeal (by decide) 3 _⟩
  · exact ⟨.turn _ 9100 400, smallBlocks_turn 9100 400⟩

theorem honest_twoBlocksRun : ∀ i ∈ twoBlocksRun, HonestSimulator twoBlocksDenote i ∧
    HonestHeaders twoBlocksDenote i ∧ SmallBlocks i :=
  fun i hi => ⟨simulator_twoBlocksRun i hi, headers_twoBlocksRun i hi⟩

deriving instance Encodable for BaseFeeConfig, AnchorV3Call, Calldata, TxEnvelope

/-- The list of the user tx: its bytes as a string, behind a list header. -/
def encodedUserTx : Bytes := [0xc4, 0x83, 1, 2, 3]

/-- A zlib stream of it. -/
def compressedUserTx : Bytes :=
  [0x78, 0x9c, 0x3b, 0xd2, 0xcc, 0xc8, 0xc4, 0x0c, 0, 5, 0xef, 1, 0x4e]

/-- The codec, as it is on this list. -/
def userTxCodec : TxListCodec where
  encode := (codecFor [userTx.tx] encodedUserTx).1
  decode := (codecFor [userTx.tx] encodedUserTx).2
  compress := (codecFor encodedUserTx compressedUserTx).1
  decompress := (codecFor encodedUserTx compressedUserTx).2
  decode_encode := codecFor_undoes ⟨0xc4, List.mem_cons_self, by decide⟩
  decompress_compress := codecFor_undoes ⟨0x78, List.mem_cons_self, by decide⟩

def twoBlocksParams : BatchParams :=
  ⟨7, 7, 0, 100, 56, false, .ofSizes 1 13, [⟨1, 0, []⟩, ⟨0, 4, []⟩]⟩

def encodedTwoBlocks : Bytes :=
  [0x20, 7, 7, 0, 100, 56, 0, 0x100, 0x1c0, 0xa0, 0, 1, 0, 13, 0, 2, 0x40, 0xc0, 1, 0, 0x60, 0,
    0, 4, 0x60, 0].flatMap word

def encodedTwoBlocksParams : Bytes := [0x40, 0x60, 0, 832].flatMap word ++ encodedTwoBlocks

def encodedTwoBlocksCall : Bytes :=
  [0xc9, 0x39, 0xac, 0x47] ++ [0x60, 0x440, 12, 960].flatMap word ++ encodedTwoBlocksParams ++
    word 0

/-- The encodings, as they are on the batch of this run. -/
def twoBlocksAbi : Abi :=
  { encodeBatchParams := (codecFor twoBlocksParams encodedTwoBlocks).1
    decodeBatchParams := (codecFor twoBlocksParams encodedTwoBlocks).2
    encodeParams := (codecFor ([], encodedTwoBlocks) encodedTwoBlocksParams).1
    decodeParams := (codecFor ([], encodedTwoBlocks) encodedTwoBlocksParams).2
    encodeCall := (codecFor ⟨encodedTwoBlocksParams, [], 12⟩ encodedTwoBlocksCall).1
    decodeCall := (codecFor ⟨encodedTwoBlocksParams, [], 12⟩ encodedTwoBlocksCall).2 }

theorem twoBlocksAbi_undoes : twoBlocksAbi.Undoes where
  batchParams := codecFor_undoes ⟨0x20, by decide +kernel, by decide⟩
  params := codecFor_undoes ⟨0x40, by decide +kernel, by decide⟩
  call := codecFor_undoes ⟨0xc9, List.mem_cons_self, by decide⟩

/-- In this run, which sends one batch of two blocks, compressed to 13 bytes. -/
theorem derived_sealed_twoBlocks :
    Run.Along (iteration Sample.env)
        (TurnReaches Sample.env fun s => BatchesAdmitted userTxCodec s →
          DerivesSeals twoBlocksAbi pointAtInfinity userTxCodec 7 s) Sample.start twoBlocksRun ∧
      (twoBlocksRun.foldlM (iteration Sample.env) Sample.start).toOption.map
        (fun s => s.proposedBatches.map fun b => (b.request.blockParams.map (·.numTransactions),
          (userTxCodec.encodeAndCompressOrders b.request.allTxList).length)) =
        some [([1, 0], 13)] :=
  ⟨derived_sealed userTxCodec twoBlocksAbi_undoes pointAtInfinity_accepts 7 Sample.env
    twoBlocksDenote Sample.lookahead 0 twoBlocksRun honest_twoBlocksRun (by decide +kernel),
    by decide +kernel⟩

end Sample

end Sequencer
end TaikoGateway
