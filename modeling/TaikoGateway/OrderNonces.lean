/-
TaikoGateway/OrderNonces.lean

The orders of one sender in a block have consecutive nonces
(`orders_consecutive`), whatever the simulator answers.

Orders leave and re-enter the active set: they are taken for simulation, put
back when another result is better, and delivered again.  What counts is the
nonce at which they are taken.  Once the sender has an order in the block, the
nonce map for sorting has the next nonce, an order of the sender is taken at
that nonce only, and a result for it can be applied only while no other order
has been: applying moves to a state on which nothing has been simulated
(`Flights`).  What the map for the parent state has learnt from results does
not count then.
-/
import TaikoGateway.Lib.PerKey
import TaikoGateway.Loop
import TaikoGateway.SortRun

namespace TaikoGateway

/-- The orders of each sender have consecutive nonces. -/
def ConsecutiveNonces (orders : List Order) : Prop :=
  PerKey.Consecutive Order.sender Order.nonce orders

namespace SortData

/-- The order has the nonce that is next for its sender, if the sender has an
order in the block. -/
def Follows (sd : SortData) (order : Order) : Prop :=
  ∀ n, sd.nonces.sorting.get order.sender = some n → order.nonce = n

/-- What matches the known nonces follows the block. -/
theorem follows_of_matches {sd : SortData} {order : Order} (h : sd.nonces.Matches order) :
    sd.Follows order := by
  intro n hn
  apply h n
  rw [SortingNonces.getNonce, hn]
  rfl

end SortData

namespace SortHistory

variable {config : SequencerConfig} {h h' : SortHistory}

/-! ### The invariant -/

structure OrderNonces (h : SortHistory) : Prop where
  active : h.sd.activeOrders.WellFormed
  consecutive : ConsecutiveNonces h.sd.orders
  /-- the map for sorting has the next nonce of the senders in the block -/
  sorting : ∀ sender, h.sd.nonces.sorting.get sender =
    PerKey.next Order.sender Order.nonce sender h.sd.orders
  pending : ∀ r ∈ h.pending, r.tag = h.sd.stateId → h.sd.Follows r.payload
  best : ∀ v, h.sd.nextBest = some v → h.sd.Follows v.order

namespace OrderNonces

theorem start {sd : SortData} {pending : List Spawned} {used : List StateId}
    (hpending : ∀ r ∈ pending, r.tag ∈ used) (hfresh : sd.stateId ∉ used)
    (hactive : sd.activeOrders.WellFormed) (horders : sd.orders = []) (hbest : sd.nextBest = none)
    (hsorting : sd.nonces.sorting.nonces = ∅) :
    OrderNonces (SortHistory.start sd pending used) := by
  refine ⟨hactive, ?_, fun sender => ?_, fun r hr htag => ?_, fun v hv => ?_⟩
  · show ConsecutiveNonces sd.orders
    rw [horders]
    exact PerKey.consecutive_nil
  · show sd.nonces.sorting.get sender = PerKey.next _ _ sender sd.orders
    rw [horders, StateNonces.get, hsorting]
    simp [PerKey.next, PerKey.numbersOf]
  · exact absurd (htag ▸ hpending r hr) hfresh
  · cases hbest.symm.trans hv

/-- The invariant depends on the block, the map for sorting and the active
orders only. -/
theorem congr (hn : OrderNonces h) (hsame : SortData.SameBlock h.sd h'.sd)
    (hsorting : h'.sd.nonces.sorting = h.sd.nonces.sorting)
    (hactive : h'.sd.activeOrders.WellFormed)
    (hbest : ∀ v, h'.sd.nextBest = some v → h.sd.Follows v.order)
    (hpending : ∀ r ∈ h'.pending, r ∈ h.pending) : OrderNonces h' := by
  have hfollows : ∀ order, h.sd.Follows order → h'.sd.Follows order := by
    intro order hfollows n hn
    rw [hsorting] at hn
    exact hfollows n hn
  refine ⟨hactive, ?_, fun sender => ?_, fun r hr htag => ?_, fun v hv => ?_⟩
  · rw [hsame.orders]
    exact hn.consecutive
  · rw [hsorting, hsame.orders]
    exact hn.sorting sender
  · exact hfollows _ (hn.pending r (hpending r hr) (htag.trans hsame.stateId))
  · exact hfollows _ (hbest v hv)

theorem newTx {order : Order} (hn : OrderNonces h) (hstep : h.newTx order = .ok h') :
    OrderNonces h' := by
  obtain ⟨sd, hsd, hok⟩ := Except.bind_eq_ok_iff.mp hstep
  cases hok
  rcases SortData.handleNewTx_cases hsd with rfl | ⟨activeOrders, hput, rfl⟩
  · exact hn
  · exact hn.congr ⟨rfl, rfl, rfl⟩ rfl (hn.active.put hput) hn.best fun _ hr => hr

theorem sealEarly (hn : OrderNonces h) : OrderNonces h.sealEarly :=
  hn.congr ⟨rfl, rfl, rfl⟩ rfl hn.active hn.best fun _ hr => hr

theorem handleInvalid_sorting (sd : SortData) (order : Order) (reason : InvalidReason) :
    (sd.handleInvalid order reason).nonces.sorting = sd.nonces.sorting := by
  cases reason <;> rfl

theorem handleInvalid_active {sd : SortData} (h : sd.activeOrders.WellFormed) (order : Order)
    (reason : InvalidReason) : (sd.handleInvalid order reason).activeOrders.WellFormed := by
  cases reason
  case insufficientFunds have_ want => exact h.removeSender order.sender
  all_goals exact h

/-- A result for the current state is of an order that follows the block, so it
may become the best; the others are only put back. -/
theorem answer {sim : SimulatedOrder} (hn : OrderNonces h) (hanswer : h.AnsweredBy sim)
    (hstep : h.answer sim = .ok h') : OrderNonces h' := by
  obtain ⟨sd, hsd, hok⟩ := Except.bind_eq_ok_iff.mp hstep
  cases hok
  have hsub : ∀ r ∈ h.pending.erase sim.spawned, r ∈ h.pending :=
    fun r hr => List.mem_of_mem_erase hr
  rcases SortData.handleSim_cases hsd with hstale | ⟨reason, hid, -⟩ | ⟨hid, -, -⟩ |
    ⟨activeOrders, hid, hvalid, -, hactive⟩ | ⟨activeOrders, hid, -, hactive⟩
  · exact hn.congr (.refl h.sd) rfl hn.active hn.best hsub
  · obtain ⟨hsame, hbest⟩ := SortData.handleInvalid_same h.sd.answered sim.order reason
    have hactive : h.sd.answered.activeOrders.WellFormed := hn.active
    refine hn.congr ⟨hsame.blockInfo, hsame.stateId, hsame.orders⟩
      (handleInvalid_sorting _ _ _) (handleInvalid_active hactive _ _) (fun v hv => ?_) hsub
    exact hn.best v (hbest.symm.trans hv)
  · exact hn.congr ⟨rfl, rfl, rfl⟩ rfl hn.active hn.best hsub
  · refine hn.congr ⟨rfl, rfl, rfl⟩ rfl ?_ (fun v hv => ?_) hsub
    · rcases hactive with rfl | ⟨best, -, hput⟩
      · exact hn.active
      · exact hn.active.put hput
    · cases hv
      rw [(SimulatedOrder.validOrder_eq_some hvalid).2.1]
      exact hn.pending _ hanswer.pending hid.symm
  · exact hn.congr ⟨rfl, rfl, rfl⟩ rfl (hn.active.put hactive) hn.best hsub

/-- Applying the best result appends the next nonce of its sender. -/
theorem apply {sd : SortData} (hn : OrderNonces h) (hf : Flights h)
    (happly : SortData.ApplyStep config h.sd sd) : OrderNonces { h with sd := sd } := by
  cases happly with
  | nothing hbest => exact hn
  | applied next hbest horigin hgas =>
      have hfollows := hn.best next hbest
      refine ⟨hn.active, hn.consecutive.append fun n hnext => ?_, fun sender => ?_,
        fun r hr htag => ?_, fun v hv => by cases hv⟩
      · exact hfollows n ((hn.sorting _).trans hnext)
      · show (h.sd.nonces.sorting.nonces.insert next.order.sender (next.order.nonce + 1))[sender]? =
          PerKey.next _ _ sender (h.sd.orders ++ [next.order])
        rw [PerKey.next_append, Std.ExtTreeMap.getElem?_insert]
        by_cases hs : next.order.sender = sender
        · rw [if_pos hs, if_pos (by simpa using hs)]
        · rw [if_neg hs, if_neg (by simpa using hs)]
          exact hn.sorting sender
      · exact absurd htag ((hf.best next hbest).2.2 r hr)

/-- What a round takes for simulation follows the block. -/
theorem round {now : Instant} (hn : OrderNonces h) (hf : Flights h)
    (hstep : h.round config now = .ok h') : OrderNonces h' := by
  cases round_step hstep with
  | idle hidle => exact hn
  | waiting hidle happly hwait =>
      have hn' := hn.apply hf happly
      exact ⟨hn'.active, hn'.consecutive, hn'.sorting, hn'.pending, hn'.best⟩
  | @sent sd hidle happly hwait =>
      have hn' := hn.apply hf happly
      have hmatches := ActiveOrders.getNextBest_matches hn'.active config.maxSimsPerLoop sd.nonces
        sd.blockInfo.baseFee
      refine ⟨hn'.active.getNextBest _ _ _, hn'.consecutive, hn'.sorting, ?_, hn'.best⟩
      intro r hr htag
      rcases List.mem_append.mp hr with hold | hnew
      · exact hn'.pending r hold htag
      · exact SortData.follows_of_matches (hmatches _ (Outstanding.mem_sendAll.mp hnew).2)

theorem step {e : SortEvent} (hn : OrderNonces h) (hf : Flights h) (hanswers : h.Answers e)
    (hstep : h.step config e = .ok h') : OrderNonces h' := by
  cases e with
  | newTx order => exact hn.newTx hstep
  | sim sim => exact hn.answer (hanswers sim rfl) hstep
  | round now => exact hn.round hf hstep
  | sealEarly =>
      cases hstep
      exact hn.sealEarly

end OrderNonces

/-! ### Runs -/

/-- **Orders are consecutive.**  A block is built from a snapshot of any pool,
with any simulations of earlier blocks still out.  However new transactions,
results and rounds follow each other, and whatever the results say, the orders
of each sender in the block have consecutive nonces, and none is in it
twice.  Nonces are below `2 ^ 64 - 1`, as the protocol has them. -/
theorem orders_consecutive (config : SequencerConfig) (blockInfo : BlockInfo)
    (anchorStateId : StateId) (gasLimit targetBlockTime maxBlockSize now : Nat) {p p' : TxPool}
    (hpool : p.Reachable) (hashOrder : HashOrder) {active : Option ActiveOrders}
    (hactive : p.activeOrders hashOrder blockInfo.blockNumber blockInfo.baseFee = .ok (active, p'))
    {pending : List Spawned} {used : List StateId} (hpending : ∀ r ∈ pending, r.tag ∈ used)
    (hfresh : anchorStateId ∉ used) {es : List SortEvent} {h₀ h : SortHistory}
    (hstart : h₀ = .start (.new blockInfo anchorStateId (active.getD .empty) gasLimit
      targetBlockTime maxBlockSize config now) pending used)
    (hanswers : Run.Along (step config) (fun h e _ => h.Answers e) h₀ es)
    (hrun : es.foldlM (step config) h₀ = .ok h) :
    ConsecutiveNonces h.sd.orders ∧
      (h.sd.orders.map fun order => (order.sender, order.nonce)).Nodup := by
  subst hstart
  have hinit : Flights (.start (.new blockInfo anchorStateId (active.getD .empty) gasLimit
      targetBlockTime maxBlockSize config now) pending used) ∧
      OrderNonces (.start (.new blockInfo anchorStateId (active.getD .empty) gasLimit
      targetBlockTime maxBlockSize config now) pending used) :=
    ⟨.start hpending hfresh rfl rfl,
      .start hpending hfresh (hpool.wellFormed.activeOrders hactive).1 rfl rfl rfl⟩
  have hend := Run.Along.invariant (fun h => Flights h ∧ OrderNonces h)
    (fun h e h' hinv hanswers hstep =>
      ⟨hinv.1.step hanswers hstep, hinv.2.step hinv.1 hanswers hstep⟩) es hinit hanswers hrun
  exact ⟨hend.2.consecutive, hend.2.consecutive.nodup⟩

section Sample

open Sample

/-- A block that starts from an empty pool, at the state after its anchor;
a simulation of an earlier block is still out. -/
def sampleStart : SortHistory :=
  .start (.new ⟨⟨100, 0, 0⟩, 11, 1, 10⟩ 20 (Option.getD none .empty) 1000000 2000 1000
    Sample.config 0) [⟨10, senderTx 5 0⟩] [10]

def sampleSim (originStateId stateId payment : Nat) (order : Order) : SortEvent :=
  .sim ⟨originStateId, .success stateId 21000 payment, order⟩

/-- Two txs of sender 5 and one of sender 6.  The first tx of sender 5 is
delivered again while it is being simulated, and the result of the earlier
block arrives late. -/
def sampleEvents : List SortEvent :=
  [ .newTx (senderTx 5 0), .newTx (senderTx 5 1), .newTx (senderTx 6 3), .round 1,
    .newTx (senderTx 5 0), sampleSim 20 21 2 (senderTx 5 0), sampleSim 10 11 9 (senderTx 5 0),
    sampleSim 20 22 1 (senderTx 6 3), .round 2, sampleSim 21 23 2 (senderTx 5 1),
    sampleSim 21 24 1 (senderTx 6 3), .round 3, sampleSim 23 25 1 (senderTx 6 3), .round 4 ]

theorem answers_sample :
    Run.Along (step Sample.config) (fun h e _ => h.Answers e) sampleStart sampleEvents := by
  decide +kernel

/-- The sample run includes all three txs. -/
theorem orders_consecutive_sample :
    ∃ h, sampleEvents.foldlM (step Sample.config) sampleStart = .ok h ∧
      h.sd.orders = [senderTx 5 0, senderTx 5 1, senderTx 6 3] ∧
      ConsecutiveNonces h.sd.orders ∧
        (h.sd.orders.map fun order => (order.sender, order.nonce)).Nodup := by
  have horders : (sampleEvents.foldlM (step Sample.config) sampleStart).toOption.map
      (fun h => h.sd.orders) = some [senderTx 5 0, senderTx 5 1, senderTx 6 3] := by
    decide +kernel
  obtain ⟨h, hrun, horders⟩ := Option.map_eq_some_iff.mp horders
  have hrun := Except.toOption_eq_some_iff.mp hrun
  have hpending : ∀ r ∈ [(⟨10, senderTx 5 0⟩ : Spawned)], r.tag ∈ [10] := by decide
  exact ⟨h, hrun, horders, orders_consecutive Sample.config ⟨⟨100, 0, 0⟩, 11, 1, 10⟩ 20 1000000
    2000 1000 0 .new .byKey rfl hpending (by decide) rfl answers_sample hrun⟩

end Sample

end SortHistory

end TaikoGateway
