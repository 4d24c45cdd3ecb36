/-
TaikoGateway/BaseFee.lean

Every user tx in a block pays the base fee of the block.

`first_ready` asks an order for its fee before it is sent to the simulator, and
nothing does so afterwards: an order gets into a block because a result for the
current state names it.  So the check holds for the block as long as results
answer simulations that were sent for this very state (`BlockPays`), however
late they come.

Main result (`sealed_pay_baseFee`): in every run no sealed block has a user tx
whose fee cap is below its base fee, and the `debug_assert` at
`CapLessThanBaseFee` is not reached when the simulator is right about fees.
-/
import TaikoGateway.InFlight
import TaikoGateway.ParentRules

namespace TaikoGateway

/-- The order can pay this base fee. -/
def Order.Pays (baseFee : Nat) (o : Order) : Prop := baseFee ≤ o.tx.maxFeePerGas

theorem Order.validForBaseFee_iff {o : Order} {baseFee : Nat} :
    o.validForBaseFee baseFee = true ↔ o.Pays baseFee := by
  unfold Order.validForBaseFee Order.Pays
  exact decide_eq_true_iff

/-! ### Orders that are sent -/

/-- The order that is taken out of a list was asked for its fee. -/
theorem TxList.firstReady_pays {l l' : TxList} {stateNonce : Option Nat} {baseFee : Nat}
    {order : Order} (h : l.firstReady stateNonce baseFee = (some order, l')) :
    order.Pays baseFee := by
  rw [← Order.validForBaseFee_iff]
  cases stateNonce with
  | some nonce =>
      simp only [firstReady] at h
      split at h
      · split at h
        · rename_i tx htx hfee
          cases h
          exact hfee
        · cases h
      · cases h
  | none =>
      simp only [firstReady] at h
      split at h
      · rename_i hfee
        split at h
        · rename_i nonce tx hfirst
          cases h
          simpa only [hasTxByFee, hfirst] using hfee
        · cases h
      · cases h

theorem ActiveOrders.nextBest_pays {n : SortingNonces} {baseFee : Nat} {ls : List TxList} :
    ∀ (max : Nat), ∀ o ∈ (nextBest n baseFee ls max).1, o.Pays baseFee := by
  induction ls with
  | nil =>
      intro max o ho
      simp [nextBest] at ho
  | cons l ls ih =>
      intro max
      cases max with
      | zero =>
          intro o ho
          cases ho
      | succ max =>
          simp only [nextBest]
          split
          · rename_i order l' hready
            exact List.forall_mem_cons.mpr ⟨TxList.firstReady_pays hready, ih max⟩
          · exact ih (max + 1)

theorem SortData.taken_pays (config : SequencerConfig) (sd : SortData) :
    ∀ o ∈ (sd.taken config).1, o.Pays sd.blockInfo.baseFee :=
  ActiveOrders.nextBest_pays config.maxSimsPerLoop

/-! ### The block under construction -/

/-- What is in the block, what is applied to it next, and what is being
simulated on its state pays its base fee. -/
structure BlockPays (pending : List Spawned) (sd : SortData) : Prop where
  orders : ∀ o ∈ sd.orders, o.Pays sd.blockInfo.baseFee
  best : ∀ v, sd.nextBest = some v → v.order.Pays sd.blockInfo.baseFee
  inFlight : ∀ r ∈ pending, r.tag = sd.stateId → r.payload.Pays sd.blockInfo.baseFee

namespace BlockPays

variable {pending pending' : List Spawned} {sd sd' : SortData}

theorem subset (hs : BlockPays pending sd) (h : ∀ r ∈ pending', r ∈ pending) :
    BlockPays pending' sd :=
  ⟨hs.orders, hs.best, fun r hr => hs.inFlight r (h r hr)⟩

theorem congr (hs : BlockPays pending sd) (hsame : SortData.SameBlock sd sd')
    (hbest : ∀ v, sd'.nextBest = some v → v.order.Pays sd.blockInfo.baseFee) :
    BlockPays pending sd' := by
  constructor
  · rw [hsame.orders, hsame.blockInfo]
    exact hs.orders
  · rw [hsame.blockInfo]
    exact hbest
  · rw [hsame.stateId, hsame.blockInfo]
    exact hs.inFlight

/-- A result for the current state is of an order that was sent for it. -/
theorem answer {sim : SimulatedOrder} (hs : BlockPays pending sd)
    (hanswer : sim.spawned ∈ pending) (h : sd.handleSim sim = .ok sd') :
    BlockPays pending sd' := by
  have hkept : sd'.nextBest = sd.nextBest →
      ∀ v, sd'.nextBest = some v → v.order.Pays sd.blockInfo.baseFee :=
    fun hbest v hv => hs.best v (hbest.symm.trans hv)
  cases SortData.handleSim_cases h with
  | stale hstale => exact hs
  | invalid reason hid hresult =>
      obtain ⟨hsame, hbest⟩ := SortData.handleInvalid_same sd.answered sim.order reason
      exact hs.congr ⟨hsame.blockInfo, hsame.stateId, hsame.orders⟩ (hkept hbest)
  | overGas hid hvalid hgas => exact hs.congr ⟨rfl, rfl, rfl⟩ (hkept rfl)
  | best activeOrders hid hvalid hgas hactive =>
      refine hs.congr ⟨rfl, rfl, rfl⟩ fun v hv => ?_
      cases hv
      obtain ⟨-, horder, -⟩ := SimulatedOrder.validOrder_eq_some hvalid
      rw [horder]
      exact hs.inFlight sim.spawned hanswer hid.symm
  | worse activeOrders hid hvalid hactive => exact hs.congr ⟨rfl, rfl, rfl⟩ (hkept rfl)

theorem blockStep {i : TickInput} (hs : BlockPays pending sd)
    (hanswer : ∀ sim ∈ i.answer, sim.spawned ∈ pending) (h : Sequencer.BlockStep i sd sd') :
    BlockPays pending sd' := by
  cases h with
  | same => exact hs
  | newTx tx htx =>
      obtain ⟨hsame, hbest⟩ := SortData.handleNewTx_same htx
      exact hs.congr hsame fun v hv => hs.best v (hbest.symm.trans hv)
  | sim sim hsim hresult =>
      exact hs.answer (hanswer sim (SimHistory.answer_eq_some.mpr hsim)) hresult
  | early => exact hs.congr ⟨rfl, rfl, rfl⟩ hs.best

/-- Nothing is being simulated on the state of a new anchor. -/
theorem start {blockInfo : BlockInfo} {stateId : StateId} {active : ActiveOrders}
    {gasLimit targetBlockTime size now : Nat} {config : SequencerConfig}
    (hnone : ∀ r ∈ pending, r.tag ≠ stateId) :
    BlockPays pending (.new blockInfo stateId active gasLimit targetBlockTime size config now) := by
  refine ⟨fun o ho => absurd ho List.not_mem_nil, fun v hv => ?_, fun r hr htag => ?_⟩
  · cases hv
  · exact absurd htag (hnone r hr)

variable {config : SequencerConfig} {h h' : SortHistory}

/-- The order that is applied was the best, and the state after it is new. -/
theorem apply (hs : BlockPays h.pending h.sd) (hf : h.Flights)
    (happly : SortData.ApplyStep config h.sd sd) : BlockPays h.pending sd := by
  cases happly with
  | nothing hbest => exact hs
  | applied next hbest horigin hgas =>
      obtain ⟨-, -, hnone⟩ := hf.best next hbest
      refine ⟨fun o ho => ?_, fun v hv => ?_, fun r hr htag => ?_⟩
      · rcases List.mem_append.mp ho with ho | ho
        · exact hs.orders o ho
        · rw [List.mem_singleton.mp ho]
          exact hs.best next hbest
      · cases hv
      · exact absurd htag (hnone r hr)

/-- A round sends orders that were asked for their fee. -/
theorem round {now : Instant} (hs : BlockPays h.pending h.sd) (hf : h.Flights)
    (hround : h.round config now = .ok h') : BlockPays h'.pending h'.sd := by
  cases SortHistory.round_step hround with
  | idle hidle => exact hs
  | waiting hidle happly hwait => exact hs.apply hf happly
  | @sent sd hidle happly hwait =>
      have happlied : BlockPays h.pending sd := hs.apply hf happly
      refine ⟨happlied.orders, happlied.best, fun r hr htag => ?_⟩
      rcases List.mem_append.mp hr with hold | hnew
      · exact happlied.inFlight r hold htag
      · exact sd.taken_pays config r.payload (Outstanding.mem_sendAll.mp hnew).2

end BlockPays

namespace SimHistory

open Sequencer

variable {env : Env} {denote : StateId → BlockState} {h h' : SimHistory} {pending : List Spawned}
  {s s' t : Sequencer}

/-! ### The invariant -/

/-- The block under construction pays, and so do the blocks that were sealed. -/
structure PaysInv (pending : List Spawned) (s : Sequencer) : Prop where
  block : ∀ sd, s.ctx.state = .sorting sd → BlockPays pending sd
  seals : ∀ b ∈ s.seals, ∀ o ∈ b.orders, o.Pays b.blockInfo.baseFee

namespace PaysInv

theorem new (env : Env) (lookahead : LookaheadHandle) (now : Instant) :
    PaysInv [] (.new env lookahead now) :=
  ⟨nofun, fun _ hb => absurd hb List.not_mem_nil⟩

theorem tickStep {i : TickInput} (hanswer : ∀ sim ∈ i.answer, sim.spawned ∈ pending)
    (h : TickStep env i s s') (hs : PaysInv pending s) : PaysInv pending s' := by
  constructor
  · intro sd' hsd'
    obtain ⟨sd, hsd, hstep⟩ := h.block hsd'
    exact (hs.block sd hsd).blockStep hanswer hstep
  · rw [h.seals]
    exact hs.seals

theorem ticked {i : Input} (hanswers : Answers env h i) (hs : PaysInv h.pending h.s)
    (ht : h.s.ticked env i = some t) : PaysInv (h.afterTick i.tick t).pending t := by
  have hready : (h.s.looping || h.s.isReady env) = true := by
    simp only [Sequencer.ticked] at ht
    split at ht
    · assumption
    · cases ht
  have hpays : PaysInv h.pending t := chain_keeps (PaysInv h.pending)
    (tickStep fun sim hsim => (hanswers.sim hready sim hsim).1) hs (ticked_chain ht)
  have hsub : ∀ r ∈ (h.afterTick i.tick t).pending, r ∈ h.pending := by
    intro r hr
    simp only [afterTick] at hr
    split at hr
    · exact hr
    · exact List.mem_of_mem_erase hr
  exact ⟨fun sd hsd => (hpays.block sd hsd).subset hsub, hpays.seals⟩

theorem transition {i : TransitionInput} (hflights : SimInv env h)
    (hs : PaysInv h.pending h.s) (hanchor : ∀ id ∈ anchorId h.s s', id ∉ h.used)
    (htrans : Transition env i h.s s') : PaysInv (h.afterTransition env i s').pending s' := by
  constructor
  · intro sd' hsd'
    obtain ⟨-, ⟨g, size, stateId, blockInfo, active, hgate, -, rfl⟩ |
      ⟨sd, orders, hstate, hround⟩⟩ := htrans.sorting_cases hsd'
    · obtain ⟨⟨lastL1, hstate⟩, -, -⟩ := anchoring_eq_some hgate
      have hfresh : stateId ∉ h.used := hanchor stateId (by rw [anchorId, hstate, hsd']; rfl)
      rw [afterTransition, hstate, hsd']
      exact .start fun r hr htag => hfresh (htag ▸ hflights.pending r hr)
    · have hstep : (h.block sd).round env.config i.simNow = .ok
          ⟨sd', h.pending ++ Outstanding.sendAll sd'.stateId orders, h.used,
            h.applied ++ sd.appliedBy i.simNow⟩ := by
        show (sd.maybeSimNextBatch env.config i.simNow >>= _) = _
        rw [hround]
        rfl
      have hblock : BlockPays (h.block sd).pending (h.block sd).sd := hs.block sd hstate
      rw [afterTransition, hstate, hsd']
      simp only [hround]
      exact hblock.round (hflights.block sd hstate).1 hstep
  · intro b hb
    rcases htrans.seals with hsame | ⟨sd, block, hstate, -, hseals⟩
    · exact hs.seals b (hsame ▸ hb)
    · rw [hseals] at hb
      rcases List.mem_append.mp hb with hold | hnew
      · exact hs.seals b hold
      · rw [List.mem_singleton.mp hnew]
        exact (hs.block sd hstate).orders

theorem turn {i : Input} (hflights : SimInv env h) (hanswers : Answers env h i)
    (hs : PaysInv h.pending h.s) (hturn : h.turn env i = .ok h') : PaysInv h'.pending h'.s := by
  obtain ⟨s', hiter, hturn⟩ := Except.bind_eq_ok_iff.mp hturn
  cases ht : h.s.ticked env i with
  | none =>
      rw [ht] at hturn
      cases hturn
      obtain ⟨-, hrecv⟩ := iteration_of_not_ticked hiter ht
      have hchain : Relation.ReflTransGen (TickStep env i.tick) h.s s' := recvBlocks_chain hrecv
      refine ⟨fun sd hsd => ?_, ?_⟩
      · exact hs.block sd ((recvBlocks_state hrecv).symm.trans hsd)
      · show ∀ b ∈ s'.seals, _
        rw [chain_keeps (fun t => t.seals = h.s.seals) (fun hstep hs => hstep.seals.trans hs) rfl
          hchain]
        exact hs.seals
  | some t =>
      rw [ht] at hturn
      cases hturn
      have hafter : PaysInv (h.afterTick i.tick t).pending (h.afterTick i.tick t).s := by
        rw [afterTick_s]
        exact hs.ticked hanswers ht
      have htrans := transition_of_eq_ok ((iteration_of_ticked ht).symm.trans hiter)
      rw [← afterTick_s h i.tick t] at htrans
      have hs' : ((h.afterTick i.tick t).afterTransition env i.transition s').s = s' := by
        simp only [afterTransition]
        split <;> rfl
      rw [hs']
      refine hafter.transition (hflights.ticked hanswers ht) (fun id hid => ?_) htrans
      rw [afterTick_s] at hid
      exact hanswers.anchor t ht s' (Except.toOption_eq_some_iff.mpr hiter) id hid

end PaysInv

/-! ### Runs -/

/-- A fee cap is only found too low when it is, in the environment of the state
the order was simulated on. -/
def HonestFees (denote : StateId → BlockState) (i : Input) : Prop :=
  ∀ sim ∈ i.tick.answer, sim.executionResult = .invalid .capLessThanBaseFee →
    ¬ sim.order.Pays (denote sim.originStateId).blockEnv.basefee

/-- The turn gets to the `debug_assert`: a result for the current state says
that the fee cap of the order is too low. -/
def CapAssertFails (env : Env) (h : SimHistory) (i : Input) : Prop :=
  (h.s.looping || h.s.isReady env) = true ∧ ∃ sd sim, h.s.ctx.state = .sorting sd ∧
    sim ∈ i.tick.answer ∧ sim.originStateId = sd.stateId ∧
    sim.executionResult = .invalid .capLessThanBaseFee

/-- The environment of the current state has the base fee of the block. -/
theorem basefee_of_denotes {sd : SortData} (h : Denotes env denote sd) :
    (denote sd.stateId).blockEnv.basefee = sd.blockInfo.baseFee := by
  obtain ⟨anchored, ⟨parent, timestamp, -, -, rfl⟩, hdenote⟩ := h
  rw [hdenote]
  rfl

theorem PaysInv.not_capAssertFails {i : Input} (hs : PaysInv h.pending h.s)
    (hsimulator : SimulatorInv env denote h.s) (hanswers : Answers env h i)
    (hfees : HonestFees denote i) : ¬ CapAssertFails env h i := by
  rintro ⟨hready, sd, sim, hstate, hsim, hid, hresult⟩
  apply hfees sim hsim hresult
  rw [hid, basefee_of_denotes (hsimulator.stateIds sd hstate).1]
  exact (hs.block sd hstate).inFlight sim.spawned (hanswers.sim hready sim hsim).1 hid

/-- **User txs pay the base fee.**  With an honest simulator, in every run the
user txs of every sealed block have a fee cap of at least the base fee of the
block, and no turn gets to the `debug_assert`. -/
theorem sealed_pay_baseFee (env : Env) (denote : StateId → BlockState)
    (henv : env.config.estimateCompressedSize 0 = 0) (lookahead : LookaheadHandle)
    (now : Instant) (is : List Input) (hhonest : ∀ i ∈ is, HonestSimulator denote i)
    (hfees : ∀ i ∈ is, HonestFees denote i)
    (hanswers : Run.Along (turn env) (fun h i _ => Answers env h i)
      (.new env lookahead now) is) :
    Run.Along (turn env)
      (fun h i r => ¬ CapAssertFails env h i ∧ ∀ h', r = .ok h' → ∀ b ∈ h'.s.seals,
        ∀ o ∈ b.block.userOrders, b.blockInfo.baseFee ≤ o.tx.maxFeePerGas)
      (.new env lookahead now) is := by
  have hkeep : ∀ h i h', (SimInv env h ∧ PaysInv h.pending h.s ∧ SimulatorInv env denote h.s) →
      Answers env h i → HonestSimulator denote i → h.turn env i = .ok h' →
      SimInv env h' ∧ PaysInv h'.pending h'.s ∧ SimulatorInv env denote h'.s := by
    rintro h i h' ⟨hflights, hpays, hsimulator⟩ hanswers hhonest hturn
    have hiter : h.s.iteration env i = .ok h'.s := by
      rw [← turn_eq, hturn]
      rfl
    exact ⟨hflights.turn henv hanswers hturn, hpays.turn hflights hanswers hturn,
      hsimulator.iteration hhonest hiter⟩
  have hassumed : Run.Along (turn env)
      (fun h i _ => Answers env h i ∧ HonestSimulator denote i ∧ HonestFees denote i)
      (.new env lookahead now) is :=
    hanswers.and (Run.Along.of_forall_mem (fun i hi => ⟨hhonest i hi, hfees i hi⟩) _)
  refine Run.Along.mono_of_invariant
    (fun h => SimInv env h ∧ PaysInv h.pending h.s ∧ SimulatorInv env denote h.s)
    (fun h i hs hi => ?_) (fun h i h' hs hi hturn => hkeep h i h' hs hi.1 hi.2.1 hturn) is
    ⟨.new env lookahead now, .new env lookahead now, simulatorInv_new env denote lookahead now⟩
    hassumed
  obtain ⟨hanswers, hhonest, hfees⟩ := hi
  refine ⟨hs.2.1.not_capAssertFails hs.2.2 hanswers hfees, fun h' hturn b hb o ho => ?_⟩
  obtain ⟨-, hpays, hsimulator⟩ := hkeep h i h' hs hanswers hhonest hturn
  have hsealed : SealedFrom env b := hsimulator.seals.of_mem_seals hb
  rw [hsealed.userOrders] at ho
  exact hpays.seals b hb o ho

section Sample

open Sample

theorem honestFees_sampleRun : ∀ i ∈ Sequencer.sampleRun, HonestFees Sequencer.sampleDenote i := by
  intro i hi sim hsim hresult
  simp only [Sequencer.sampleRun, List.mem_cons, List.not_mem_nil, or_false] at hi
  rcases hi with rfl | rfl | rfl | rfl | rfl | rfl
  case inr.inr.inr.inl =>
    cases hsim
    cases hresult
  all_goals cases hsim

/-- In the sample run, which seals one block with base fee 1 and a user tx
whose fee cap is 1. -/
theorem sealed_pay_baseFee_sample :
    Run.Along (turn Sample.env)
        (fun h i r => ¬ CapAssertFails Sample.env h i ∧ ∀ h', r = .ok h' → ∀ b ∈ h'.s.seals,
          ∀ o ∈ b.block.userOrders, b.blockInfo.baseFee ≤ o.tx.maxFeePerGas)
        (.new Sample.env Sample.lookahead 0) Sequencer.sampleRun ∧
      (Sequencer.sampleRun.foldlM (iteration Sample.env) Sample.start).toOption.map
        (fun s => s.seals.map fun b =>
          (b.blockInfo.baseFee, b.block.userOrders.map (·.tx.maxFeePerGas))) = some [(1, [1])] :=
  ⟨sealed_pay_baseFee Sample.env Sequencer.sampleDenote rfl Sample.lookahead 0 Sequencer.sampleRun
    honest_sampleRun honestFees_sampleRun (by decide +kernel), by decide +kernel⟩

end Sample

end SimHistory
end TaikoGateway
