/-
TaikoGateway/StateIds.lean

The block as the simulator has it, under a state id, and as the sequencer has
it, as a list of orders, are the same block.

The simulator is another process.  What is assumed of it is said by a map
`denote` from state ids to blocks: its answers agree with the map
(`HonestSimulator`).  Then the state id of the block under construction
denotes its anchor followed by its orders in every reachable state, whatever
arrives in between; a sealed block has these orders; and a batch that is sent
cuts into the user txs of its blocks (`stateIds_denote`).
-/
import TaikoGateway.Aborts
import TaikoGateway.Batches

namespace TaikoGateway

/-! ### The simulator -/

/-- What a state id stands for: the anchor, the environment it was simulated
in, and the orders simulated after it. -/
structure BlockState where
  anchor : Order
  blockEnv : BlockEnv
  orders : List Order

def Order.asTransaction (order : Order) : Transaction := ⟨order.sender, order.tx⟩

namespace BlockState

def followedBy (st : BlockState) (orders : List Order) : BlockState :=
  { st with orders := st.orders ++ orders }

/-- The transactions of the block that is sealed from the state. -/
def transactions (st : BlockState) : List Transaction :=
  (st.anchor :: st.orders).map Order.asTransaction

theorem followedBy_nil (st : BlockState) : st.followedBy [] = st := by
  rw [followedBy, List.append_nil]

theorem followedBy_followedBy (st : BlockState) (orders more : List Order) :
    (st.followedBy orders).followedBy more = st.followedBy (orders ++ more) := by
  simp only [followedBy, List.append_assoc]

end BlockState

/-- The simulator's answers in this turn agree with `denote`. -/
structure HonestSimulator (denote : StateId → BlockState) (i : Input) : Prop where
  sim : ∀ sim stateId, i.tick.sim = some (.ok sim) → sim.Produces stateId →
    denote stateId = (denote sim.originStateId).followedBy [sim.order]
  anchor : ∀ order blockEnv stateId gasUsed payment,
    i.transition.simulateAnchor order blockEnv = .ok (.success stateId gasUsed payment) →
    denote stateId = ⟨order, blockEnv, []⟩
  sealing : ∀ stateId res, i.transition.sealBlock stateId = .ok res →
    res.builtBlock.transactions = .full (denote stateId).transactions

namespace Sequencer

variable {env : Env} {denote : StateId → BlockState}

/-! ### State ids of the block under construction -/

/-- The state after the anchor of this block. -/
def AnchorState (env : Env) (info : BlockInfo) (st : BlockState) : Prop :=
  ∃ parent timestamp, parent.blockNumber + 1 = info.blockNumber ∧ parent.hash = info.parentHash ∧
    st = ⟨assembleAnchorV3 env parent info.anchorParams info.baseFee,
      getBlockEnvFromAnchor info.blockNumber env.chainConfig.blockMaxGasLimit
        env.config.coinbaseAddress timestamp info.baseFee, []⟩

/-- The state id denotes the anchor state followed by exactly the orders. -/
def Denotes (env : Env) (denote : StateId → BlockState) (sd : SortData) : Prop :=
  ∃ anchored, AnchorState env sd.blockInfo anchored ∧
    denote sd.stateId = anchored.followedBy sd.orders

/-- The result that is applied next was simulated on the state it names. -/
def NextDenotes (denote : StateId → BlockState) (sd : SortData) : Prop :=
  ∀ v, sd.nextBest = some v → denote v.newStateId = (denote v.originStateId).followedBy [v.order]

def StateIdInv (env : Env) (denote : StateId → BlockState) (s : Sequencer) : Prop :=
  ∀ sd, s.ctx.state = .sorting sd → Denotes env denote sd ∧ NextDenotes denote sd

theorem Denotes.same {sd sd' : SortData} (h : Denotes env denote sd)
    (hsame : SortData.SameBlock sd sd') : Denotes env denote sd' := by
  obtain ⟨anchored, hanchored, hdenote⟩ := h
  refine ⟨anchored, ?_, ?_⟩
  · rwa [hsame.blockInfo]
  · rwa [hsame.stateId, hsame.orders]

theorem StateIdInv.of_sync {s : Sequencer} {l : Nat} (h : s.ctx.state = .sync l) :
    StateIdInv env denote s := by
  intro sd hsd
  rw [h] at hsd
  cases hsd

/-- Late and stale results leave the block as it is; one for the current state
may become the next to apply. -/
theorem StateIdInv.tickStep {i : Input} (hhonest : HonestSimulator denote i) {s s' : Sequencer}
    (h : TickStep env i.tick s s') (hs : StateIdInv env denote s) : StateIdInv env denote s' := by
  have hstate := h.state
  generalize hold : s.ctx.state = old at hstate
  generalize hnew : s'.ctx.state = new at hstate
  cases hstate with
  | sync lastL1 => exact .of_sync hnew
  | @sorting sd sd' hsame hbest =>
      intro sd'' hsd
      rw [hnew] at hsd
      cases hsd
      obtain ⟨hdenotes, hnext⟩ := hs sd hold
      refine ⟨hdenotes.same hsame, ?_⟩
      rcases hbest with hkept | ⟨sim, v, hsim, hv, horigin, horder, hproduces⟩
      · intro v hv
        rw [hkept] at hv
        exact hnext v hv
      · intro v' hv'
        rw [hv] at hv'
        cases hv'
        rw [horigin, horder]
        exact hhonest.sim sim v.newStateId hsim hproduces

/-- **The transition**: a block starts with its anchor state, and a round moves
the state id and the orders together. -/
theorem StateIdInv.transition {i : Input} (hhonest : HonestSimulator denote i) {s s' : Sequencer}
    (hs : StateIdInv env denote s) (h : Transition env i.transition s s') :
    StateIdInv env denote s' := by
  intro sd' hsd'
  obtain ⟨-, ⟨g, size, stateId, blockInfo, active, hgate, hanchor, rfl⟩ |
    ⟨sd, orders, hstate, hround⟩⟩ := h.sorting_cases hsd'
  · obtain ⟨anchor, parent, baseFee, gasUsed, payment, -, -, -, rfl, hsim⟩ :=
      anchorBlock_eq_ok hanchor
    have hdenote := hhonest.anchor _ _ _ _ _ hsim
    refine ⟨⟨denote stateId, ⟨parent, _, rfl, rfl, hdenote⟩, ?_⟩, ?_⟩
    · exact (BlockState.followedBy_nil _).symm
    · intro v hv
      cases hv
  · obtain ⟨hdenotes, hnext⟩ := hs sd hstate
    rcases SortData.maybeSimNextBatch_cases hround with
      ⟨hsame, hbest⟩ | ⟨v, hv, horigin, hinfo, hid, horders, hbest⟩
    · refine ⟨hdenotes.same hsame, fun v hv => ?_⟩
      rw [hbest] at hv
      exact hnext v hv
    · obtain ⟨anchored, hanchored, hdenote⟩ := hdenotes
      refine ⟨⟨anchored, ?_, ?_⟩, fun v' hv' => ?_⟩
      · rwa [hinfo]
      · calc denote sd'.stateId = denote v.newStateId := by rw [hid]
          _ = (denote v.originStateId).followedBy [v.order] := hnext v hv
          _ = (anchored.followedBy sd.orders).followedBy [v.order] := by rw [horigin, hdenote]
          _ = anchored.followedBy sd'.orders := by
              rw [BlockState.followedBy_followedBy, horders]
      · rw [hbest] at hv'
        cases hv'

/-! ### Sealed blocks -/

/-- The sealed block has its anchor and then the orders it was sealed from. -/
def SealedFrom (env : Env) (b : Sealed) : Prop :=
  ∃ anchored, AnchorState env b.blockInfo anchored ∧
    b.block.transactions = .full (anchored.followedBy b.orders).transactions

theorem sealedFrom_of_answer {i : Input} (hhonest : HonestSimulator denote i) {sd : SortData}
    (hdenotes : Denotes env denote sd) {block : Block}
    (hanswer : sealAnswer i.transition sd.stateId = .ok block) :
    SealedFrom env (sealOf sd block) := by
  obtain ⟨anchored, hanchored, hdenote⟩ := hdenotes
  obtain ⟨res, hseal, -, rfl⟩ := sealAnswer_eq_ok.mp hanswer
  refine ⟨anchored, hanchored, ?_⟩
  show res.builtBlock.transactions = _
  rw [hhonest.sealing _ _ hseal, hdenote]
  rfl

namespace SealedFrom

variable {b : Sealed}

/-- The transactions after the anchor are the orders. -/
theorem userOrders (h : SealedFrom env b) : b.block.userOrders = b.orders := by
  obtain ⟨anchored, ⟨parent, timestamp, -, -, rfl⟩, htxs⟩ := h
  simp only [Block.userOrders, htxs, BlockTransactions.intoTransactions,
    BlockState.transactions, BlockState.followedBy, List.nil_append, List.map_cons, List.tail_cons,
    List.map_map]
  exact List.map_id _

theorem length_transactions (h : SealedFrom env b) :
    b.block.transactions.length = b.orders.length + 1 := by
  obtain ⟨anchored, ⟨parent, timestamp, -, -, rfl⟩, htxs⟩ := h
  simp [htxs, BlockTransactions.length, BlockState.transactions, BlockState.followedBy]

end SealedFrom

/-- The state ids denote their blocks, and every block that was sealed is the
one its orders say. -/
structure SimulatorInv (env : Env) (denote : StateId → BlockState) (s : Sequencer) : Prop where
  stateIds : StateIdInv env denote s
  seals : BatchesSatisfy (fun _ bs => ∀ b ∈ bs, SealedFrom env b) s

section Turn

variable {s s' t : Sequencer} {i : Input}

theorem simulatorInv_new (env : Env) (denote : StateId → BlockState) (lookahead : LookaheadHandle)
    (now : Instant) : SimulatorInv env denote (.new env lookahead now) :=
  ⟨.of_sync (l := 0) rfl, .new (fun _ hb => absurd hb List.not_mem_nil) env lookahead now⟩

theorem SimulatorInv.tickStep (hhonest : HonestSimulator denote i)
    (h : TickStep env i.tick s s') (hs : SimulatorInv env denote s) :
    SimulatorInv env denote s' :=
  ⟨hs.stateIds.tickStep hhonest h,
    hs.seals.tickStep (fun _ hb => absurd hb List.not_mem_nil) h⟩

theorem SimulatorInv.transition (hhonest : HonestSimulator denote i)
    (hs : SimulatorInv env denote s) (h : Transition env i.transition s s') :
    SimulatorInv env denote s' := by
  refine ⟨hs.stateIds.transition hhonest h,
    hs.seals.transition (fun _ hb => absurd hb List.not_mem_nil) ?_ h⟩
  intro sd block request hseals _ b hb
  rcases List.mem_append.mp hb with hb | hb
  · exact hs.seals.pending b hb
  · rw [List.mem_singleton.mp hb]
    exact sealedFrom_of_answer hhonest (hs.stateIds sd hseals.state).1 hseals.answer

theorem SimulatorInv.ticked (hhonest : HonestSimulator denote i) (hs : SimulatorInv env denote s)
    (h : s.ticked env i = some t) : SimulatorInv env denote t :=
  chain_keeps (SimulatorInv env denote) (SimulatorInv.tickStep hhonest) hs (ticked_chain h)

theorem SimulatorInv.iteration (hhonest : HonestSimulator denote i)
    (hs : SimulatorInv env denote s) (h : s.iteration env i = .ok s') :
    SimulatorInv env denote s' :=
  iteration_keeps (SimulatorInv env denote) (SimulatorInv.tickStep hhonest)
    (fun _ ht htrans => ht.transition hhonest htrans) hs h

/-- The blocks have as many transactions as the orders they were sealed from. -/
theorem SimulatorInv.not_txCountMismatch (hhonest : HonestSimulator denote i)
    (hs : SimulatorInv env denote s) : s.iteration env i ≠ .error .txCountMismatch := by
  intro h
  rcases iteration_aborts h with htick | ⟨t, htick, h⟩
  · exact absurd htick (by decide)
  · have ht : SimulatorInv env denote t := hs.ticked hhonest htick
    rcases transition_aborts h with hother | ⟨_, _, _, _, -, -, -, h⟩ |
      ⟨sd, block, hstate, hanswer, h⟩
    · exact absurd hother (by decide)
    · simp only [computeNextBaseFee] at h
      split at h <;> cases h
    · have hlength := (sealedFrom_of_answer hhonest (ht.stateIds sd hstate).1
        hanswer).length_transactions
      rcases accumulate_aborts h with hshift | ⟨-, hne⟩ | ⟨hanchor, -⟩
      · cases hshift
      · exact hne hlength
      · cases hanchor

end Turn

/-! ### Batches that are sent -/

/-- Cutting a concatenation at the lengths of its parts gives the parts. -/
theorem splitLengths_flatMap {α β : Type*} (f : α → List β) (xs : List α) :
    (xs.map fun x => (f x).length).splitLengths (xs.flatMap f) = xs.map f := by
  induction xs with
  | nil => rfl
  | cons x xs ih =>
      rw [List.map_cons, List.flatMap_cons, List.splitLengths_cons, List.take_left,
        List.drop_left, ih]
      rfl

/-- Cutting the orders of the batch at the lengths it announces gives the user
txs of its blocks, with nothing left over. -/
def CutsIntoBlocks (b : SealedBatch) : Prop :=
  (b.request.blockParams.map (·.numTransactions)).splitLengths b.request.allTxList =
      b.seals.map (·.block.userOrders) ∧
    (b.request.blockParams.map (·.numTransactions)).sum = b.request.allTxList.length

/-- The number of user txs of a block fits a `u16`. -/
def SmallBlocks (i : Input) : Prop :=
  ∀ stateId res, i.transition.sealBlock stateId = .ok res →
    res.builtBlock.userOrders.length < 2 ^ 16

def SmallSeals : Sequencer → Prop :=
  BatchesSatisfy fun _ bs => ∀ b ∈ bs, b.block.userOrders.length < 2 ^ 16

theorem SmallSeals.iteration {s s' : Sequencer} {i : Input} (hsmall : SmallBlocks i)
    (hs : SmallSeals s) (h : s.iteration env i = .ok s') : SmallSeals s' := by
  have hnone : ∀ b ∈ ([] : List Sealed), b.block.userOrders.length < 2 ^ 16 :=
    fun _ hb => absurd hb List.not_mem_nil
  refine iteration_keeps SmallSeals (fun hstep hs => BatchesSatisfy.tickStep hnone hstep hs)
    (fun _ ht htrans => BatchesSatisfy.transition hnone ht ?_ htrans) hs h
  intro sd block request hseals _ b hb
  rcases List.mem_append.mp hb with hb | hb
  · exact ht.pending b hb
  · rw [List.mem_singleton.mp hb]
    obtain ⟨res, hseal, -, rfl⟩ := sealAnswer_eq_ok.mp hseals.answer
    exact hsmall _ _ hseal

/-- What a request describes, it cuts into. -/
theorem cutsIntoBlocks_of_describes {b : SealedBatch} (hdescribes : Describes env b.request b.seals)
    (hsealed : ∀ x ∈ b.seals, SealedFrom env x)
    (hsmall : ∀ x ∈ b.seals, x.block.userOrders.length < 2 ^ 16) : CutsIntoBlocks b := by
  have horders : ∀ x ∈ b.seals, x.block.userOrders = x.orders :=
    fun x hx => (hsealed x hx).userOrders
  have hcounts : b.request.blockParams.map (·.numTransactions) =
      b.seals.map fun x => x.orders.length := by
    rw [hdescribes.counts]
    refine List.map_congr_left fun x hx => Nat.mod_eq_of_lt ?_
    rw [← horders x hx]
    exact hsmall x hx
  refine ⟨?_, ?_⟩
  · rw [hcounts, hdescribes.txs, splitLengths_flatMap]
    exact List.map_congr_left fun x hx => (horders x hx).symm
  · rw [hcounts, hdescribes.txs, List.length_flatMap]

/-! ### Runs -/

/-- The block under construction is the one its state id denotes, and every
batch that was sent cuts into its blocks. -/
structure StatesAgree (env : Env) (denote : StateId → BlockState) (s : Sequencer) : Prop where
  denotes : ∀ sd, s.ctx.state = .sorting sd → Denotes env denote sd
  cuts : ∀ b ∈ s.proposedBatches, CutsIntoBlocks b

/-- The invariant of a run. -/
structure StateIdsRunInv (env : Env) (denote : StateId → BlockState) (s : Sequencer) : Prop where
  simulator : SimulatorInv env denote s
  accounted : Accounted env s
  small : SmallSeals s

theorem StateIdsRunInv.statesAgree {s : Sequencer} (hs : StateIdsRunInv env denote s) :
    StatesAgree env denote s := by
  refine ⟨fun sd hsd => (hs.simulator.stateIds sd hsd).1, fun b hb => ?_⟩
  exact cutsIntoBlocks_of_describes (accumulateAll_describes (hs.accounted.proposed b hb))
    (hs.simulator.seals.proposed b hb) (hs.small.proposed b hb)

theorem StateIdsRunInv.ticked {s t : Sequencer} {i : Input} (hhonest : HonestSimulator denote i)
    (hs : StateIdsRunInv env denote s) (h : s.ticked env i = some t) :
    StateIdsRunInv env denote t := by
  have hchain := ticked_chain h
  refine ⟨hs.simulator.ticked hhonest h, ?_, ?_⟩
  · exact chain_keeps (Accounted env) (fun hstep hs => hs.tickStep accumulateAll_nil hstep)
      hs.accounted hchain
  · exact chain_keeps SmallSeals (fun hstep hs => BatchesSatisfy.tickStep
      (fun _ hb => absurd hb List.not_mem_nil) hstep hs) hs.small hchain

/-- **State ids and orders agree.**  With an honest simulator and blocks of
fewer than 2^16 user txs, in every state of every run the state id of the block
under construction denotes its anchor state followed by exactly its orders,
and every batch that was sent cuts into the user txs of its blocks; the count
of transactions in `seal_block` never aborts. -/
theorem stateIds_denote (env : Env) (denote : StateId → BlockState) (lookahead : LookaheadHandle)
    (now : Instant) (is : List Input) (hhonest : ∀ i ∈ is, HonestSimulator denote i)
    (hsmall : ∀ i ∈ is, SmallBlocks i) :
    Run.Along (iteration env)
      (fun s i r => TurnReaches env (StatesAgree env denote) s i r ∧ r ≠ .error .txCountMismatch)
      (.new env lookahead now) is := by
  have hnew : StateIdsRunInv env denote (.new env lookahead now) :=
    ⟨simulatorInv_new env denote lookahead now, .new accumulateAll_nil env lookahead now,
      .new (fun _ hb => absurd hb List.not_mem_nil) env lookahead now⟩
  have hkeep : ∀ s i s', StateIdsRunInv env denote s → HonestSimulator denote i ∧ SmallBlocks i →
      s.iteration env i = .ok s' → StateIdsRunInv env denote s' := by
    intro s i s' hs hi h
    exact ⟨hs.simulator.iteration hi.1 h, accounted_iteration hs.accounted h,
      hs.small.iteration hi.2 h⟩
  refine Run.Along.of_assumed (StateIdsRunInv env denote)
    (fun i => HonestSimulator denote i ∧ SmallBlocks i) (fun s i hs hi => ?_) hkeep is hnew
    fun i hi => ⟨hhonest i hi, hsmall i hi⟩
  refine ⟨⟨fun t ht => ?_, fun s' h => ?_⟩, hs.simulator.not_txCountMismatch hi.1⟩
  · exact (hs.ticked hi.1 ht).statesAgree
  · exact (hkeep s i s' hs hi h).statesAgree

end Sequencer

/-! ### Honest answers in the small setting

A turn of the small setting is honest, and stays so with an answer that
agrees with `denote`. -/

namespace HonestSimulator

variable {denote : StateId → BlockState} {i : Input}

theorem turn (denote : StateId → BlockState) (now : Instant) (utc : Nat) :
    HonestSimulator denote (Sample.turn now utc) where
  sim := by
    intro sim stateId h
    cases h
  anchor := by
    intro order blockEnv stateId gasUsed payment h
    cases h
  sealing := by
    intro stateId res h
    cases h

theorem receiving (h : HonestSimulator denote i)
    (l1Blocks : List Header) (l2Blocks : List Block) :
    HonestSimulator denote (Sample.receiving l1Blocks l2Blocks i) :=
  ⟨h.sim, h.anchor, h.sealing⟩

theorem receivingTxs (h : HonestSimulator denote i)
    (txs : List Order) : HonestSimulator denote (Sample.receivingTxs txs i) :=
  ⟨h.sim, h.anchor, h.sealing⟩

theorem simulating (h : HonestSimulator denote i) {order : Order}
    {blockEnv : BlockEnv} {stateId : StateId} (hdenote : denote stateId = ⟨order, blockEnv, []⟩) :
    HonestSimulator denote (Sample.simulating order blockEnv stateId i) := by
  refine ⟨h.sim, ?_, h.sealing⟩
  intro order' blockEnv' stateId' gasUsed payment heq
  simp only [Sample.simulating] at heq
  split at heq
  · rename_i hsame
    cases heq
    rw [hsame.1, hsame.2, hdenote]
  · cases heq

theorem simulated (h : HonestSimulator denote i) {order : Order}
    {origin stateId : StateId} (hdenote : denote stateId = (denote origin).followedBy [order]) :
    HonestSimulator denote (Sample.simulated order origin stateId i) := by
  refine ⟨?_, h.anchor, h.sealing⟩
  intro sim stateId' hsim hproduces
  cases hsim
  obtain ⟨gasUsed, payment, hresult | hresult⟩ := hproduces
  · cases hresult
    exact hdenote
  · cases hresult

theorem answerSeal (h : HonestSimulator denote i) {stateId : StateId}
    {block : Block} (htxs : block.transactions = .full (denote stateId).transactions) :
    HonestSimulator denote (Sample.sealing stateId block i) := by
  refine ⟨h.sim, h.anchor, ?_⟩
  intro stateId' res heq
  simp only [Sample.sealing] at heq
  split at heq
  · rename_i hsame
    cases heq
    rw [hsame]
    exact htxs
  · cases heq

end HonestSimulator

namespace Sequencer

section Sample

open Sample

/-- State 1 is block 11 after its anchor, state 2 after the user tx too. -/
def sampleDenote : StateId → BlockState
  | 2 => ⟨anchorTx 11 100, blockEnv 11 52, [userTx]⟩
  | _ => ⟨anchorTx 11 100, blockEnv 11 52, []⟩

/-- Block 11 is built with one user tx, and its batch is sent when the time
shift gets long. -/
def sampleRun : List Input :=
  [ receiving [l1Header 100] [block 10 10 9 0 90] (turn 0 50),
    simulating (anchorTx 11 100) (blockEnv 11 52) 1 (turn 3000 50),
    receivingTxs [userTx] (turn 3100 50),
    simulated userTx 1 2 (turn 3200 50),
    sealing 2 (blockWith [userTx] 11 11 10 52 100) (turn 6000 53),
    turn 6100 400 ]

theorem honest_sampleRun : ∀ i ∈ sampleRun, HonestSimulator sampleDenote i := by
  intro i hi
  simp only [sampleRun, List.mem_cons, List.not_mem_nil, or_false] at hi
  rcases hi with rfl | rfl | rfl | rfl | rfl | rfl
  · exact (HonestSimulator.turn _ _ _).receiving _ _
  · exact (HonestSimulator.turn _ _ _).simulating rfl
  · exact (HonestSimulator.turn _ _ _).receivingTxs _
  · exact (HonestSimulator.turn _ _ _).simulated rfl
  · exact (HonestSimulator.turn _ _ _).answerSeal rfl
  · exact HonestSimulator.turn _ _ _

theorem small_sampleRun : ∀ i ∈ sampleRun, SmallBlocks i := by
  intro i hi stateId res h
  simp only [sampleRun, List.mem_cons, List.not_mem_nil, or_false] at hi
  rcases hi with rfl | rfl | rfl | rfl | rfl | rfl
  case inr.inr.inr.inr.inl =>
    simp only [Sample.sealing] at h
    split at h
    · cases h
      decide
    · cases h
  all_goals cases h

/-- In the sample run, which sends one batch with the user tx. -/
theorem stateIds_denote_sample :
    Run.Along (iteration Sample.env)
        (fun s i r => TurnReaches Sample.env (StatesAgree Sample.env sampleDenote) s i r ∧
          r ≠ .error .txCountMismatch) Sample.start sampleRun ∧
      (sampleRun.foldlM (iteration Sample.env) Sample.start).toOption.map
        (fun s => s.proposedBatches.map (·.request.allTxList)) = some [[userTx]] :=
  ⟨stateIds_denote Sample.env sampleDenote Sample.lookahead 0 sampleRun honest_sampleRun
    small_sampleRun, by decide +kernel⟩

/-- State 1 is block 11 after its anchor, state 2 after the user tx too, and
state 3 is block 12. -/
def twoBlocksDenote : StateId → BlockState
  | 2 => ⟨anchorTx 11 100, blockEnv 11 52, [userTx]⟩
  | 3 => ⟨anchorTx 12 100, blockEnv 12 56, []⟩
  | _ => ⟨anchorTx 11 100, blockEnv 11 52, []⟩

/-- Block 11 is sealed with a user tx and block 12 without; their batch is sent
when the time shift gets long. -/
def twoBlocksRun : List Input :=
  [ receiving [l1Header 100] [block 10 10 9 0 90] (turn 0 50),
    simulating (anchorTx 11 100) (blockEnv 11 52) 1 (turn 3000 50),
    receivingTxs [userTx] (turn 3100 50),
    simulated userTx 1 2 (turn 3200 50),
    sealing 2 (blockWith [userTx] 11 11 10 52 100) (turn 6000 53),
    simulating (anchorTx 12 100) (blockEnv 12 56) 3 (turn 6000 54),
    sealing 3 (block 12 12 11 56 100) (turn 9000 57),
    turn 9100 400 ]

theorem simulator_twoBlocksRun : ∀ i ∈ twoBlocksRun, HonestSimulator twoBlocksDenote i := by
  intro i hi
  simp only [twoBlocksRun, List.mem_cons, List.not_mem_nil, or_false] at hi
  rcases hi with rfl | rfl | rfl | rfl | rfl | rfl | rfl | rfl
  · exact (HonestSimulator.turn _ _ _).receiving _ _
  · exact (HonestSimulator.turn _ _ _).simulating rfl
  · exact (HonestSimulator.turn _ _ _).receivingTxs _
  · exact (HonestSimulator.turn _ _ _).simulated rfl
  · exact (HonestSimulator.turn _ _ _).answerSeal rfl
  · exact (HonestSimulator.turn _ _ _).simulating rfl
  · exact (HonestSimulator.turn _ _ _).answerSeal rfl
  · exact HonestSimulator.turn _ _ _

end Sample

end Sequencer
end TaikoGateway
