/-
TaikoGateway/Sorting.lean

Building one block (`SortData`).  Orders are simulated in rounds on the state
built so far; the best result of a round is appended to the block when the
next round starts.  The state of the block is known to the simulator under an
id, `stateId`, and to the sequencer as the list `orders`.

Telemetry and logging are left out.

What the operations do to the block so far (`blockInfo`, `stateId`, `orders`)
and to the result that is applied next (`nextBest`) is said by one lemma each,
at the end.
-/
import TaikoGateway.TxPool

namespace TaikoGateway

/-- The configuration of the sequencer.  `throttle` stands for the throttling
formula and `estimateCompressedSize` for the size estimate, both computed with
floats in the source. -/
structure SequencerConfig where
  operatorAddress : Address
  coinbaseAddress : Address
  l1SafeLag : Nat
  l1Delay : Duration
  /-- milliseconds -/
  targetBlockTime : Duration
  anchorBatchLag : Nat
  batchTargetSize : Nat
  maxSimsPerLoop : Nat
  throttleQueueTarget : Nat
  minOrdersBeforeSeal : Nat
  maxBlockSkips : Nat
  /-- block size, given the maximal size and how far the queue of proposals is
  over its target -/
  throttle : Nat → Nat → Nat
  estimateCompressedSize : Nat → Nat

structure SortData where
  blockInfo : BlockInfo
  /-- state id for the next transactions or to be sealed -/
  stateId : StateId
  activeOrders : ActiveOrders
  /-- simulated nonces -/
  nonces : SortingNonces
  /-- all orders in the current block, without the anchor -/
  orders : List Order
  /-- cumulative size of the sequenced txs -/
  uncompressedSize : Nat
  targetSeal : Instant
  targetBlockTime : Duration
  builderPayment : Nat
  gasRemaining : Nat
  maxBlockSize : Nat
  /-- best order simulated on `stateId` -/
  nextBest : Option ValidOrder
  /-- the next round waits until this is 0 -/
  inFlightSims : Nat
  sealFlag : Bool
  discardFlag : Bool
  waitingForNewTxs : Bool
  minOrdersBeforeSeal : Nat
  maxBlockSkips : Nat

/-- The simulation gives this state: the order can be included. -/
def SimulatedOrder.Produces (sim : SimulatedOrder) (stateId : StateId) : Prop :=
  ∃ gasUsed builderPayment, sim.executionResult = .success stateId gasUsed builderPayment ∨
    sim.executionResult = .revert stateId gasUsed builderPayment

namespace SortData

def new (blockInfo : BlockInfo) (anchorStateId : StateId) (activeOrders : ActiveOrders)
    (gasLimit : Nat) (targetBlockTime : Duration) (maxBlockSize : Nat)
    (config : SequencerConfig) (now : Instant) : SortData :=
  { blockInfo := blockInfo
    stateId := anchorStateId
    activeOrders := activeOrders
    nonces := .new blockInfo.blockNumber
    orders := []
    uncompressedSize := 0
    targetSeal := now + targetBlockTime
    targetBlockTime := targetBlockTime
    builderPayment := 0
    gasRemaining := gasLimit
    maxBlockSize := maxBlockSize
    nextBest := none
    inFlightSims := 0
    sealFlag := false
    discardFlag := false
    waitingForNewTxs := false
    minOrdersBeforeSeal := config.minOrdersBeforeSeal
    maxBlockSkips := config.maxBlockSkips }

/-! ### Limits -/

def isValid (sd : SortData) (stateId : StateId) : Bool := decide (sd.stateId = stateId)

def setShouldSeal (sd : SortData) : SortData := { sd with sealFlag := true }

def isPastTargetSeal (sd : SortData) (now : Instant) : Bool := decide (sd.targetSeal < now)

def isPastMaxSkip (sd : SortData) (now : Instant) : Bool :=
  decide (sd.targetSeal + sd.targetBlockTime * (sd.maxBlockSkips % 2 ^ 32) < now)

def isEnoughOrders (sd : SortData) : Bool := decide (sd.minOrdersBeforeSeal ≤ sd.orders.length)

def shouldSeal (sd : SortData) (now : Instant) : Bool :=
  sd.sealFlag || (sd.isEnoughOrders && sd.isPastTargetSeal now) || sd.isPastMaxSkip now

def shouldDiscard (sd : SortData) : Bool := sd.discardFlag

/-! ### New transactions -/

def handleNewTx (sd : SortData) (order : Order) : Except Panic SortData :=
  if !order.validForBaseFee sd.blockInfo.baseFee then .ok sd
  else
    match sd.nonces.getNonce order.sender with
    | some stateNonce =>
        if order.nonce < stateNonce then .ok sd
        else do
          let activeOrders ← sd.activeOrders.put order
          .ok { sd with waitingForNewTxs := false, activeOrders := activeOrders }
    | none => do
        let activeOrders ← sd.activeOrders.put order
        .ok { sd with waitingForNewTxs := false, activeOrders := activeOrders }

/-! ### Rounds -/

/-- Applies the best order of the last round. -/
def maybeApplyNext (config : SequencerConfig) (sd : SortData) : Except Panic SortData :=
  match sd.nextBest with
  | none => .ok sd
  | some next =>
      if !sd.isValid next.originStateId then .error .nextBestStale
      else if sd.gasRemaining < next.gasUsed then .error .nextBestOverGas
      else
        let uncompressedSize := sd.uncompressedSize + next.order.raw.length
        .ok { sd with
          nextBest := none
          nonces := sd.nonces.insertSorting next.order.sender (next.order.nonce + 1)
          stateId := next.newStateId
          builderPayment := sd.builderPayment + next.builderPayment
          gasRemaining := sd.gasRemaining - next.gasUsed
          uncompressedSize := uncompressedSize
          orders := sd.orders ++ [next.order]
          -- exceeding block size, sealing early
          sealFlag := sd.sealFlag ||
            decide (sd.maxBlockSize < config.estimateCompressedSize uncompressedSize) }

/-- An order that cannot be included. -/
def handleInvalid (sd : SortData) (order : Order) : InvalidReason → SortData
  | .nonceTooLow _ state => { sd with nonces := sd.nonces.insertState order.sender state }
  | .nonceTooHigh _ state => { sd with nonces := sd.nonces.insertState order.sender state }
  | .notEnoughGas => { sd with sealFlag := true }
  | .capLessThanBaseFee => { sd with nonces := sd.nonces.insertState order.sender order.nonce }
  | .insufficientFunds _ _ =>
      { sd with
        nonces := sd.nonces.insertState order.sender order.nonce
        activeOrders := sd.activeOrders.removeSender order.sender }
  | .stateIdNotFound _ => { sd with discardFlag := true }
  | .uknown _ => sd

/-- An order that can be included: keep the better one, put the other back. -/
def handleValid (sd : SortData) (valid : ValidOrder) : Except Panic SortData :=
  if sd.gasRemaining < valid.gasUsed then .ok sd
  else
    match sd.nextBest with
    | none => .ok { sd with nextBest := some valid }
    | some best =>
        if best.builderPayment < valid.builderPayment then do
          let activeOrders ← sd.activeOrders.put best.order
          .ok { sd with nextBest := some valid, activeOrders := activeOrders }
        else do
          let activeOrders ← sd.activeOrders.put valid.order
          .ok { sd with activeOrders := activeOrders }

/-- Handles a new simulation result; stale ones are ignored. -/
def handleSim (sd : SortData) (sim : SimulatedOrder) : Except Panic SortData :=
  if !sd.isValid sim.originStateId then .ok sd
  else
    let sd := { sd with inFlightSims := u64Sub sd.inFlightSims 1 }
    match sim.executionResult with
    | .success stateId gasUsed builderPayment =>
        sd.handleValid ⟨sim.originStateId, stateId, gasUsed, builderPayment, sim.order⟩
    | .revert stateId gasUsed builderPayment =>
        sd.handleValid ⟨sim.originStateId, stateId, gasUsed, builderPayment, sim.order⟩
    | .invalid reason => .ok (sd.handleInvalid sim.order reason)

/-- Starts the next round when nothing is in flight.  Also returns the orders
that are sent to the simulator, to be simulated on `stateId`. -/
def maybeSimNextBatch (config : SequencerConfig) (sd : SortData) (now : Instant) :
    Except Panic (SortData × List Order) :=
  if 0 < sd.inFlightSims ∨ sd.shouldSeal now = true then .ok (sd, [])
  else do
    let sd ← maybeApplyNext config sd
    if sd.waitingForNewTxs then .ok (sd, [])
    else
      let (orders, activeOrders) :=
        sd.activeOrders.getNextBest config.maxSimsPerLoop sd.nonces sd.blockInfo.baseFee
      let inFlightSims := sd.inFlightSims + orders.length
      .ok ({ sd with
        activeOrders := activeOrders
        inFlightSims := inFlightSims
        waitingForNewTxs := sd.waitingForNewTxs || decide (inFlightSims = 0) }, orders)

/-! ### What the operations change -/

/-- The two have the same block so far. -/
structure SameBlock (sd sd' : SortData) : Prop where
  blockInfo : sd'.blockInfo = sd.blockInfo
  stateId : sd'.stateId = sd.stateId
  orders : sd'.orders = sd.orders

theorem SameBlock.refl (sd : SortData) : SameBlock sd sd := ⟨rfl, rfl, rfl⟩

variable {sd sd' : SortData}

theorem handleNewTx_same {order : Order} (h : sd.handleNewTx order = .ok sd') :
    SameBlock sd sd' ∧ sd'.nextBest = sd.nextBest := by
  have hput : (do
      let activeOrders ← sd.activeOrders.put order
      Except.ok { sd with waitingForNewTxs := false, activeOrders := activeOrders }) =
        Except.ok sd' → SameBlock sd sd' ∧ sd'.nextBest = sd.nextBest := by
    intro h
    obtain ⟨activeOrders, -, h⟩ := Except.bind_eq_ok_iff.mp h
    cases h
    exact ⟨⟨rfl, rfl, rfl⟩, rfl⟩
  simp only [handleNewTx] at h
  split at h
  · cases h
    exact ⟨.refl sd, rfl⟩
  · split at h
    · split at h
      · cases h
        exact ⟨.refl sd, rfl⟩
      · exact hput h
    · exact hput h

/-- A result for the current state may become the next to apply; nothing else
of the block changes. -/
theorem handleValid_same {valid : ValidOrder} (h : sd.handleValid valid = .ok sd') :
    SameBlock sd sd' ∧ (sd'.nextBest = sd.nextBest ∨ sd'.nextBest = some valid) := by
  simp only [handleValid] at h
  split at h
  · cases h
    exact ⟨.refl sd, Or.inl rfl⟩
  · split at h
    · cases h
      exact ⟨⟨rfl, rfl, rfl⟩, Or.inr rfl⟩
    · split at h
      · obtain ⟨activeOrders, -, h⟩ := Except.bind_eq_ok_iff.mp h
        cases h
        exact ⟨⟨rfl, rfl, rfl⟩, Or.inr rfl⟩
      · obtain ⟨activeOrders, -, h⟩ := Except.bind_eq_ok_iff.mp h
        cases h
        exact ⟨⟨rfl, rfl, rfl⟩, Or.inl rfl⟩

theorem handleInvalid_same (sd : SortData) (order : Order) (reason : InvalidReason) :
    SameBlock sd (sd.handleInvalid order reason) ∧
      (sd.handleInvalid order reason).nextBest = sd.nextBest := by
  cases reason <;> exact ⟨⟨rfl, rfl, rfl⟩, rfl⟩

theorem handleSim_same {sim : SimulatedOrder} (h : sd.handleSim sim = .ok sd') :
    SameBlock sd sd' ∧
      (sd'.nextBest = sd.nextBest ∨
        ∃ v, sd'.nextBest = some v ∧ v.originStateId = sim.originStateId ∧ v.order = sim.order ∧
          sim.Produces v.newStateId) := by
  simp only [handleSim] at h
  split at h
  · cases h
    exact ⟨.refl sd, Or.inl rfl⟩
  · split at h
    · rename_i stateId gasUsed builderPayment hresult
      obtain ⟨⟨hinfo, hid, horders⟩, hbest⟩ := handleValid_same h
      refine ⟨⟨hinfo, hid, horders⟩, hbest.imp id fun hbest => ?_⟩
      exact ⟨_, hbest, rfl, rfl, gasUsed, builderPayment, Or.inl hresult⟩
    · rename_i stateId gasUsed builderPayment hresult
      obtain ⟨⟨hinfo, hid, horders⟩, hbest⟩ := handleValid_same h
      refine ⟨⟨hinfo, hid, horders⟩, hbest.imp id fun hbest => ?_⟩
      exact ⟨_, hbest, rfl, rfl, gasUsed, builderPayment, Or.inr hresult⟩
    · rename_i reason hresult
      cases h
      obtain ⟨⟨hinfo, hid, horders⟩, hbest⟩ := handleInvalid_same
        { sd with inFlightSims := u64Sub sd.inFlightSims 1 } sim.order reason
      exact ⟨⟨hinfo, hid, horders⟩, Or.inl hbest⟩

/-- Applying the best order: the state becomes that of its result, and the
order is appended. -/
theorem maybeApplyNext_cases {config : SequencerConfig}
    (h : maybeApplyNext config sd = .ok sd') :
    sd' = sd ∨
      ∃ next, sd.nextBest = some next ∧ next.originStateId = sd.stateId ∧
        sd'.blockInfo = sd.blockInfo ∧ sd'.stateId = next.newStateId ∧
        sd'.orders = sd.orders ++ [next.order] ∧ sd'.nextBest = none := by
  simp only [maybeApplyNext] at h
  split at h
  · cases h
    exact Or.inl rfl
  · rename_i next hnext
    split at h
    · cases h
    · rename_i hvalid
      split at h
      · cases h
      · cases h
        have horigin : sd.stateId = next.originStateId := by simpa [isValid] using hvalid
        exact Or.inr ⟨next, hnext, horigin.symm, rfl, rfl, rfl, rfl⟩

theorem maybeSimNextBatch_cases {config : SequencerConfig} {now : Instant} {sent : List Order}
    (h : sd.maybeSimNextBatch config now = .ok (sd', sent)) :
    (SameBlock sd sd' ∧ sd'.nextBest = sd.nextBest) ∨
      ∃ next, sd.nextBest = some next ∧ next.originStateId = sd.stateId ∧
        sd'.blockInfo = sd.blockInfo ∧ sd'.stateId = next.newStateId ∧
        sd'.orders = sd.orders ++ [next.order] ∧ sd'.nextBest = none := by
  simp only [maybeSimNextBatch] at h
  split at h
  · cases h
    exact Or.inl ⟨.refl sd, rfl⟩
  · obtain ⟨applied, happly, h⟩ := Except.bind_eq_ok_iff.mp h
    -- the orders that are sent do not change the block
    have hrest : SameBlock applied sd' ∧ sd'.nextBest = applied.nextBest := by
      split at h
      · cases h
        exact ⟨.refl _, rfl⟩
      · cases h
        exact ⟨⟨rfl, rfl, rfl⟩, rfl⟩
    rcases maybeApplyNext_cases happly with heq | ⟨next, hnext, horigin, happlied⟩
    · rw [heq] at hrest
      exact Or.inl hrest
    · obtain ⟨⟨hinfo, hid, horders⟩, hbest⟩ := hrest
      obtain ⟨hinfo', hid', horders', hbest'⟩ := happlied
      exact Or.inr ⟨next, hnext, horigin, hinfo.trans hinfo', hid.trans hid',
        horders.trans horders', hbest.trans hbest'⟩

theorem maybeSimNextBatch_blockInfo {config : SequencerConfig} {now : Instant}
    {sent : List Order} (h : sd.maybeSimNextBatch config now = .ok (sd', sent)) :
    sd'.blockInfo = sd.blockInfo := by
  rcases maybeSimNextBatch_cases h with ⟨hsame, -⟩ | ⟨next, -, -, hinfo, -⟩
  · exact hsame.blockInfo
  · exact hinfo

end SortData

end TaikoGateway
