/-
TaikoGateway/SortRun.lean

Runs of `SortData`: new transactions, simulation results and rounds in any
order, as the loop feeds them to one block.

* The operations are taken apart once: `SimStep` has a constructor for each
  thing a result can do, `ApplyStep` and `RoundStep` for what a round can.
* A `SortHistory` is a `SortData` with what its surroundings remember: the
  simulations that have not been answered, the state ids the simulator has
  returned, and the results that have been applied.  `SortHistory.step` is one
  event of a run.
* `Answers` is what is assumed of the simulator: a simulation is answered
  once, with the order it was given, and a state id is returned once.

Simulations of earlier blocks may be among those that have not been answered.
-/
import TaikoGateway.PoolShape
import TaikoGateway.Sorting
import TaikoGateway.Lib.Outstanding

namespace TaikoGateway

open Outstanding (Request)

/-- The result as it is kept, if the order can be included. -/
def SimulatedOrder.validOrder (sim : SimulatedOrder) : Option ValidOrder :=
  match sim.executionResult with
  | .success stateId gasUsed builderPayment =>
      some ⟨sim.originStateId, stateId, gasUsed, builderPayment, sim.order⟩
  | .revert stateId gasUsed builderPayment =>
      some ⟨sim.originStateId, stateId, gasUsed, builderPayment, sim.order⟩
  | .invalid _ => none

/-- The state ids the simulator returns with the result. -/
def SimulatedOrder.produced (sim : SimulatedOrder) : List StateId :=
  (sim.validOrder.map (·.newStateId)).toList

theorem SimulatedOrder.validOrder_eq_some {sim : SimulatedOrder} {v : ValidOrder}
    (h : sim.validOrder = some v) :
    v.originStateId = sim.originStateId ∧ v.order = sim.order ∧ sim.produced = [v.newStateId] ∧
      (sim.executionResult = .success v.newStateId v.gasUsed v.builderPayment ∨
        sim.executionResult = .revert v.newStateId v.gasUsed v.builderPayment) := by
  have hproduced : sim.produced = [v.newStateId] := by simp [produced, h]
  simp only [validOrder] at h
  split at h
  · rename_i hresult
    cases h
    exact ⟨rfl, rfl, hproduced, Or.inl hresult⟩
  · rename_i hresult
    cases h
    exact ⟨rfl, rfl, hproduced, Or.inr hresult⟩
  · cases h

namespace SortData

variable {config : SequencerConfig} {sd sd' : SortData}

/-! ### The operations, case by case -/

theorem handleNewTx_cases {order : Order} (h : sd.handleNewTx order = .ok sd') :
    sd' = sd ∨ ∃ activeOrders, sd.activeOrders.put order = .ok activeOrders ∧
      sd' = { sd with waitingForNewTxs := false, activeOrders := activeOrders } := by
  have hput : (do
      let activeOrders ← sd.activeOrders.put order
      Except.ok { sd with waitingForNewTxs := false, activeOrders := activeOrders }) =
        Except.ok sd' →
      ∃ activeOrders, sd.activeOrders.put order = .ok activeOrders ∧
        sd' = { sd with waitingForNewTxs := false, activeOrders := activeOrders } := by
    intro h
    obtain ⟨activeOrders, hactive, hok⟩ := Except.bind_eq_ok_iff.mp h
    cases hok
    exact ⟨activeOrders, hactive, rfl⟩
  simp only [handleNewTx] at h
  split at h
  · cases h
    exact Or.inl rfl
  · split at h
    · split at h
      · cases h
        exact Or.inl rfl
      · exact Or.inr (hput h)
    · exact Or.inr (hput h)

/-- One result has arrived. -/
def answered (sd : SortData) : SortData := { sd with inFlightSims := u64Sub sd.inFlightSims 1 }

/-- What a result can do. -/
inductive SimStep (sd : SortData) (sim : SimulatedOrder) : SortData → Prop
  /-- simulated on another state -/
  | stale (hstale : sd.stateId ≠ sim.originStateId) : SimStep sd sim sd
  | invalid (reason : InvalidReason) (hid : sd.stateId = sim.originStateId)
      (hresult : sim.executionResult = .invalid reason) :
      SimStep sd sim (sd.answered.handleInvalid sim.order reason)
  | overGas {valid : ValidOrder} (hid : sd.stateId = sim.originStateId)
      (hvalid : sim.validOrder = some valid) (hgas : sd.gasRemaining < valid.gasUsed) :
      SimStep sd sim sd.answered
  /-- the best so far; the one before is put back -/
  | best {valid : ValidOrder} (activeOrders : ActiveOrders) (hid : sd.stateId = sim.originStateId)
      (hvalid : sim.validOrder = some valid) (hgas : valid.gasUsed ≤ sd.gasRemaining)
      (hactive : activeOrders = sd.activeOrders ∨
        ∃ best, sd.nextBest = some best ∧ sd.activeOrders.put best.order = .ok activeOrders) :
      SimStep sd sim { sd.answered with nextBest := some valid, activeOrders := activeOrders }
  | worse {valid : ValidOrder} (activeOrders : ActiveOrders) (hid : sd.stateId = sim.originStateId)
      (hvalid : sim.validOrder = some valid)
      (hactive : sd.activeOrders.put sim.order = .ok activeOrders) :
      SimStep sd sim { sd.answered with activeOrders := activeOrders }

theorem handleSim_cases {sim : SimulatedOrder} (h : sd.handleSim sim = .ok sd') :
    SimStep sd sim sd' := by
  have hkept : ∀ valid, sd.stateId = sim.originStateId → sim.validOrder = some valid →
      sd.answered.handleValid valid = .ok sd' → SimStep sd sim sd' := by
    intro valid hid hvalid h
    simp only [handleValid] at h
    split at h
    · rename_i hgas
      cases h
      exact .overGas hid hvalid hgas
    · rename_i hgas
      have hgas : valid.gasUsed ≤ sd.gasRemaining := Nat.le_of_not_lt hgas
      split at h
      -- the loser of the comparison goes back to the active orders
      · cases h
        exact .best sd.activeOrders hid hvalid hgas (Or.inl rfl)
      · rename_i best hbest
        split at h
        · obtain ⟨activeOrders, hactive, hok⟩ := Except.bind_eq_ok_iff.mp h
          cases hok
          exact .best activeOrders hid hvalid hgas (Or.inr ⟨best, hbest, hactive⟩)
        · obtain ⟨activeOrders, hactive, hok⟩ := Except.bind_eq_ok_iff.mp h
          cases hok
          rw [(SimulatedOrder.validOrder_eq_some hvalid).2.1] at hactive
          exact .worse activeOrders hid hvalid hactive
  simp only [handleSim, isValid, Bool.not_eq_true', decide_eq_false_iff_not] at h
  by_cases hid : sd.stateId = sim.originStateId
  · rw [if_neg (not_not.mpr hid)] at h
    split at h
    · rename_i hresult
      exact hkept _ hid (by simp only [SimulatedOrder.validOrder, hresult]) h
    · rename_i hresult
      exact hkept _ hid (by simp only [SimulatedOrder.validOrder, hresult]) h
    · rename_i reason hresult
      cases h
      exact .invalid reason hid hresult
  · rw [if_pos hid] at h
    cases h
    exact .stale hid

/-- The block with this result applied. -/
def withApplied (config : SequencerConfig) (sd : SortData) (next : ValidOrder) : SortData :=
  { sd with
    nextBest := none
    nonces := sd.nonces.insertSorting next.order.sender (next.order.nonce + 1)
    stateId := next.newStateId
    builderPayment := sd.builderPayment + next.builderPayment
    gasRemaining := sd.gasRemaining - next.gasUsed
    uncompressedSize := sd.uncompressedSize + next.order.raw.length
    orders := sd.orders ++ [next.order]
    sealFlag := sd.sealFlag || decide (sd.maxBlockSize <
      config.estimateCompressedSize (sd.uncompressedSize + next.order.raw.length)) }

inductive ApplyStep (config : SequencerConfig) (sd : SortData) : SortData → Prop
  | nothing (hbest : sd.nextBest = none) : ApplyStep config sd sd
  | applied (next : ValidOrder) (hbest : sd.nextBest = some next)
      (horigin : next.originStateId = sd.stateId) (hgas : next.gasUsed ≤ sd.gasRemaining) :
      ApplyStep config sd (sd.withApplied config next)

theorem maybeApplyNext_step (h : maybeApplyNext config sd = .ok sd') :
    ApplyStep config sd sd' := by
  simp only [maybeApplyNext] at h
  split at h
  · rename_i hbest
    cases h
    exact .nothing hbest
  · rename_i next hbest
    split at h
    · cases h
    · rename_i hvalid
      split at h
      · cases h
      · rename_i hgas
        cases h
        have horigin : sd.stateId = next.originStateId := by simpa [isValid] using hvalid
        exact .applied next hbest horigin.symm (Nat.le_of_not_lt hgas)

/-- Nothing is best once the best result is applied; without one nothing changes. -/
theorem ApplyStep.nextBest (h : ApplyStep config sd sd') :
    sd'.nextBest = none ∧ (sd.nextBest = none → sd' = sd) := by
  cases h with
  | nothing hbest => exact ⟨hbest, fun _ => rfl⟩
  | applied next hbest horigin hgas =>
      refine ⟨rfl, fun hnone => ?_⟩
      cases hbest.symm.trans hnone

/-- The next round does not start. -/
def Idle (sd : SortData) (now : Instant) : Prop := 0 < sd.inFlightSims ∨ sd.shouldSeal now = true

instance (sd : SortData) (now : Instant) : Decidable (sd.Idle now) :=
  inferInstanceAs (Decidable (_ ∨ _))

/-- The orders taken for the next round. -/
def taken (config : SequencerConfig) (sd : SortData) : List Order × ActiveOrders :=
  sd.activeOrders.getNextBest config.maxSimsPerLoop sd.nonces sd.blockInfo.baseFee

/-- The block when these orders have been sent to the simulator. -/
def withSent (sd : SortData) (sent : List Order × ActiveOrders) : SortData :=
  { sd with
    activeOrders := sent.2
    inFlightSims := sd.inFlightSims + sent.1.length
    waitingForNewTxs := sd.waitingForNewTxs || decide (sd.inFlightSims + sent.1.length = 0) }

/-- What a round can do, and the orders it sends. -/
inductive RoundStep (config : SequencerConfig) (sd : SortData) (now : Instant) :
    SortData × List Order → Prop
  | idle (hidle : sd.Idle now) : RoundStep config sd now (sd, [])
  | waiting {sd' : SortData} (hidle : ¬ sd.Idle now) (happly : ApplyStep config sd sd')
      (hwait : sd'.waitingForNewTxs = true) : RoundStep config sd now (sd', [])
  | sent {sd' : SortData} (hidle : ¬ sd.Idle now) (happly : ApplyStep config sd sd')
      (hwait : sd'.waitingForNewTxs = false) :
      RoundStep config sd now (sd'.withSent (sd'.taken config), (sd'.taken config).1)

theorem maybeSimNextBatch_step {now : Instant} {r : SortData × List Order}
    (h : sd.maybeSimNextBatch config now = .ok r) : RoundStep config sd now r := by
  simp only [maybeSimNextBatch] at h
  split at h
  · rename_i hidle
    cases h
    exact .idle hidle
  · rename_i hidle
    obtain ⟨applied, happly, h⟩ := Except.bind_eq_ok_iff.mp h
    split at h
    · rename_i hwait
      cases h
      exact .waiting hidle (maybeApplyNext_step happly) hwait
    · rename_i hwait
      cases h
      exact .sent hidle (maybeApplyNext_step happly) (by simpa using hwait)

/-- A round that starts finds nothing in flight and no reason to seal. -/
theorem not_idle {now : Instant} (h : ¬ sd.Idle now) :
    sd.inFlightSims = 0 ∧ sd.shouldSeal now = false := by
  rw [Idle, not_or] at h
  exact ⟨Nat.eq_zero_of_not_pos h.1, Bool.not_eq_true _ ▸ h.2⟩

theorem sealFlag_of_shouldSeal {now : Instant} (h : sd.shouldSeal now = false) :
    sd.sealFlag = false := by
  rw [shouldSeal, Bool.or_eq_false_iff, Bool.or_eq_false_iff] at h
  exact h.1.1

/-- The result that a round applies, if it starts. -/
def appliedBy (sd : SortData) (now : Instant) : List ValidOrder :=
  if sd.Idle now then [] else sd.nextBest.toList

end SortData

/-! ### Histories -/

/-- A simulation: the state it runs on, and its order. -/
abbrev Spawned := Request StateId Order

instance : LawfulBEq Spawned := inferInstance

/-- The simulation a result is of. -/
def SimulatedOrder.spawned (sim : SimulatedOrder) : Spawned := ⟨sim.originStateId, sim.order⟩

structure SortHistory where
  sd : SortData
  /-- simulations that have not been answered, of this and of earlier blocks -/
  pending : List Spawned
  /-- state ids the simulator has returned -/
  used : List StateId
  /-- results applied to the block -/
  applied : List ValidOrder

inductive SortEvent
  | newTx (order : Order)
  | sim (sim : SimulatedOrder)
  | round (now : Instant)
  | sealEarly

namespace SortHistory

/-- The history when a block starts from this anchor state. -/
def start (sd : SortData) (pending : List Spawned) (used : List StateId) : SortHistory :=
  { sd := sd, pending := pending, used := sd.stateId :: used, applied := [] }

def newTx (h : SortHistory) (order : Order) : Except Panic SortHistory := do
  let sd ← h.sd.handleNewTx order
  .ok { h with sd := sd }

def answer (h : SortHistory) (sim : SimulatedOrder) : Except Panic SortHistory := do
  let sd ← h.sd.handleSim sim
  .ok { h with
    sd := sd
    pending := h.pending.erase sim.spawned
    used := sim.produced ++ h.used }

def round (config : SequencerConfig) (h : SortHistory) (now : Instant) :
    Except Panic SortHistory := do
  let (sd, orders) ← h.sd.maybeSimNextBatch config now
  .ok { h with
    sd := sd
    pending := h.pending ++ Outstanding.sendAll sd.stateId orders
    applied := h.applied ++ h.sd.appliedBy now }

def sealEarly (h : SortHistory) : SortHistory := { h with sd := h.sd.setShouldSeal }

def step (config : SequencerConfig) (h : SortHistory) : SortEvent → Except Panic SortHistory
  | .newTx order => h.newTx order
  | .sim sim => h.answer sim
  | .round now => h.round config now
  | .sealEarly => .ok h.sealEarly

/-- What a round can do to a history. -/
inductive RoundStep (config : SequencerConfig) (h : SortHistory) (now : Instant) :
    SortHistory → Prop
  | idle (hidle : h.sd.Idle now) : RoundStep config h now h
  | waiting {sd : SortData} (hidle : ¬ h.sd.Idle now) (happly : SortData.ApplyStep config h.sd sd)
      (hwait : sd.waitingForNewTxs = true) :
      RoundStep config h now { h with sd := sd, applied := h.applied ++ h.sd.nextBest.toList }
  | sent {sd : SortData} (hidle : ¬ h.sd.Idle now) (happly : SortData.ApplyStep config h.sd sd)
      (hwait : sd.waitingForNewTxs = false) :
      RoundStep config h now { h with
        sd := sd.withSent (sd.taken config)
        pending := h.pending ++ Outstanding.sendAll sd.stateId (sd.taken config).1
        applied := h.applied ++ h.sd.nextBest.toList }

theorem round_step {config : SequencerConfig} {h h' : SortHistory} {now : Instant}
    (hstep : h.round config now = .ok h') : RoundStep config h now h' := by
  obtain ⟨⟨sd, orders⟩, hsd, hok⟩ := Except.bind_eq_ok_iff.mp hstep
  cases hok
  cases SortData.maybeSimNextBatch_step hsd with
  | idle hidle =>
      simp only [SortData.appliedBy, if_pos hidle, Outstanding.append_sendAll_nil, List.append_nil]
      exact .idle hidle
  | waiting hidle happly hwait =>
      simp only [SortData.appliedBy, if_neg hidle, Outstanding.append_sendAll_nil]
      exact .waiting hidle happly hwait
  | sent hidle happly hwait =>
      simp only [SortData.appliedBy, if_neg hidle]
      exact .sent hidle happly hwait

/-- The result answers a simulation that has not been answered, and the state
ids in it are new. -/
structure AnsweredBy (h : SortHistory) (sim : SimulatedOrder) : Prop where
  pending : sim.spawned ∈ h.pending
  fresh : ∀ id ∈ sim.produced, id ∉ h.used

instance (h : SortHistory) (sim : SimulatedOrder) : Decidable (h.AnsweredBy sim) :=
  decidable_of_iff (sim.spawned ∈ h.pending ∧ ∀ id ∈ sim.produced, id ∉ h.used)
    ⟨fun ⟨hpending, hfresh⟩ => ⟨hpending, hfresh⟩, fun ⟨hpending, hfresh⟩ => ⟨hpending, hfresh⟩⟩

/-- What is assumed of the simulator. -/
def Answers (h : SortHistory) (e : SortEvent) : Prop := ∀ sim, e = .sim sim → h.AnsweredBy sim

instance (h : SortHistory) : (e : SortEvent) → Decidable (h.Answers e)
  | .sim sim => decidable_of_iff (h.AnsweredBy sim)
      ⟨fun h sim' heq => by cases heq; exact h, fun h => h sim rfl⟩
  | .newTx _ => isTrue fun _ heq => by cases heq
  | .round _ => isTrue fun _ heq => by cases heq
  | .sealEarly => isTrue fun _ heq => by cases heq

/-! ### Simulations in flight -/

/-- The counter is the number of simulations on the current state that have
not been answered, and the result to apply next leads to a state that nothing
has been simulated on. -/
structure Flights (h : SortHistory) : Prop where
  count : h.sd.inFlightSims = Outstanding.outstanding h.sd.stateId h.pending
  current : h.sd.stateId ∈ h.used
  pending : ∀ r ∈ h.pending, r.tag ∈ h.used
  best : ∀ v, h.sd.nextBest = some v →
    v.originStateId = h.sd.stateId ∧ v.newStateId ∈ h.used ∧ ∀ r ∈ h.pending, r.tag ≠ v.newStateId

namespace Flights

variable {config : SequencerConfig} {h h' : SortHistory}

theorem start {sd : SortData} {pending : List Spawned} {used : List StateId}
    (hpending : ∀ r ∈ pending, r.tag ∈ used) (hfresh : sd.stateId ∉ used)
    (hcount : sd.inFlightSims = 0) (hbest : sd.nextBest = none) :
    Flights (SortHistory.start sd pending used) := by
  refine ⟨?_, List.mem_cons_self, fun r hr => List.mem_cons_of_mem _ (hpending r hr), ?_⟩
  · show sd.inFlightSims = _
    rw [hcount, Outstanding.outstanding_eq_zero]
    intro r hr htag
    exact hfresh (htag ▸ hpending r hr)
  · intro v hv
    cases hbest.symm.trans hv

/-- The invariant depends on the counter, the state and the best result only. -/
theorem congr (hf : Flights h) {sd : SortData} (hcount : sd.inFlightSims = h.sd.inFlightSims)
    (hid : sd.stateId = h.sd.stateId) (hbest : sd.nextBest = h.sd.nextBest) :
    Flights { h with sd := sd } := by
  refine ⟨?_, ?_, hf.pending, ?_⟩
  · show sd.inFlightSims = Outstanding.outstanding sd.stateId h.pending
    rw [hcount, hid]
    exact hf.count
  · show sd.stateId ∈ h.used
    rw [hid]
    exact hf.current
  · intro v hv
    show v.originStateId = sd.stateId ∧ _
    rw [hid]
    exact hf.best v (hbest.symm.trans hv)

theorem newTx {order : Order} (hf : Flights h) (hstep : h.newTx order = .ok h') : Flights h' := by
  obtain ⟨sd, hsd, hok⟩ := Except.bind_eq_ok_iff.mp hstep
  cases hok
  rcases SortData.handleNewTx_cases hsd with rfl | ⟨activeOrders, -, rfl⟩
  · exact hf
  · exact hf.congr rfl rfl rfl

theorem sealEarly (hf : Flights h) : Flights h.sealEarly := hf.congr rfl rfl rfl

/-- The counter is not 0 when a result for the current state arrives. -/
theorem inFlight_pos (hf : Flights h) {sim : SimulatedOrder} (hanswer : h.AnsweredBy sim)
    (hid : h.sd.stateId = sim.originStateId) : 0 < h.sd.inFlightSims := by
  rw [hf.count]
  exact Outstanding.outstanding_pos hanswer.pending hid.symm

/-- A result is taken off the simulations, whatever is done with it. -/
theorem answer {sim : SimulatedOrder} (hf : Flights h) (hanswer : h.AnsweredBy sim)
    (hstep : h.answer sim = .ok h') : Flights h' := by
  obtain ⟨sd, hsd, hok⟩ := Except.bind_eq_ok_iff.mp hstep
  cases hok
  have hsub : ∀ r ∈ h.pending.erase sim.spawned, r ∈ h.pending :=
    fun r hr => List.mem_of_mem_erase hr
  have hused : ∀ id ∈ h.used, id ∈ sim.produced ++ h.used :=
    fun id hid => List.mem_append_right _ hid
  have hkept : ∀ v, h.sd.nextBest = some v → v.originStateId = h.sd.stateId ∧
      v.newStateId ∈ sim.produced ++ h.used ∧
      ∀ r ∈ h.pending.erase sim.spawned, r.tag ≠ v.newStateId := by
    intro v hv
    obtain ⟨horigin, hnew, hnone⟩ := hf.best v hv
    exact ⟨horigin, hused _ hnew, fun r hr => hnone r (hsub r hr)⟩
  -- a new best result leads to a state id that has just been returned
  have hbest : ∀ v, sim.validOrder = some v → h.sd.stateId = sim.originStateId →
      v.originStateId = h.sd.stateId ∧ v.newStateId ∈ sim.produced ++ h.used ∧
      ∀ r ∈ h.pending.erase sim.spawned, r.tag ≠ v.newStateId := by
    intro v hv hid
    obtain ⟨horigin, -, hproduced, -⟩ := SimulatedOrder.validOrder_eq_some hv
    have hmem : v.newStateId ∈ sim.produced := by rw [hproduced]; exact List.mem_singleton_self _
    refine ⟨horigin.trans hid.symm, List.mem_append_left _ hmem, fun r hr htag => ?_⟩
    exact hanswer.fresh _ hmem (htag ▸ hf.pending r (hsub r hr))
  have hcount : h.sd.stateId = sim.originStateId → u64Sub h.sd.inFlightSims 1 =
      Outstanding.outstanding h.sd.stateId (h.pending.erase sim.spawned) := by
    intro hid
    rw [u64Sub_of_le (hf.inFlight_pos hanswer hid), hf.count,
      Outstanding.outstanding_erase hanswer.pending hid.symm]
  have hpending : ∀ r ∈ h.pending.erase sim.spawned, r.tag ∈ sim.produced ++ h.used :=
    fun r hr => hused _ (hf.pending r (hsub r hr))
  rcases SortData.handleSim_cases hsd with hstale | ⟨reason, hid, -⟩ | ⟨hid, -, -⟩ |
    ⟨activeOrders, hid, hvalid, -, -⟩ | ⟨activeOrders, hid, -, -⟩
  · refine ⟨?_, hused _ hf.current, hpending, hkept⟩
    rw [Outstanding.outstanding_erase_of_ne (fun htag => hstale htag.symm)]
    exact hf.count
  · have hsame : ∀ sd : SortData, (sd.handleInvalid sim.order reason).inFlightSims =
        sd.inFlightSims := fun sd => by cases reason <;> rfl
    obtain ⟨⟨-, hsid, -⟩, hnext⟩ :=
      SortData.handleInvalid_same h.sd.answered sim.order reason
    refine ⟨?_, ?_, hpending, fun v hv => ?_⟩
    · rw [hsame, hsid]
      exact hcount hid
    · rw [hsid]
      exact hused _ hf.current
    · rw [hsid]
      exact hkept v (hnext.symm.trans hv)
  · exact ⟨hcount hid, hused _ hf.current, hpending, hkept⟩
  · refine ⟨hcount hid, hused _ hf.current, hpending, fun v hv => ?_⟩
    cases hv
    exact hbest _ hvalid hid
  · exact ⟨hcount hid, hused _ hf.current, hpending, hkept⟩

/-- Applying the best result moves to a state with nothing in flight. -/
theorem apply {sd : SortData} (hf : Flights h) (hzero : h.sd.inFlightSims = 0)
    (happly : SortData.ApplyStep config h.sd sd) :
    Flights { h with sd := sd } ∧ sd.inFlightSims = 0 ∧ sd.nextBest = none := by
  cases happly with
  | nothing hbest => exact ⟨hf, hzero, hbest⟩
  | applied next hbest horigin hgas =>
      obtain ⟨-, hused, hnone⟩ := hf.best next hbest
      refine ⟨⟨?_, hused, hf.pending, fun v hv => by cases hv⟩, hzero, rfl⟩
      show h.sd.inFlightSims = _
      rw [hzero]
      exact (Outstanding.outstanding_eq_zero hnone).symm

theorem round {now : Instant} (hf : Flights h) (hstep : h.round config now = .ok h') :
    Flights h' := by
  cases round_step hstep with
  | idle hidle => exact hf
  | waiting hidle happly hwait =>
      have hf' := (hf.apply (SortData.not_idle hidle).1 happly).1
      exact ⟨hf'.count, hf'.current, hf'.pending, hf'.best⟩
  | @sent sd hidle happly hwait =>
      obtain ⟨⟨hcount, hcurrent, hpending, -⟩, hzero, hbest⟩ :=
        hf.apply (SortData.not_idle hidle).1 happly
      refine ⟨?_, hcurrent, ?_, fun v hv => by cases hbest.symm.trans hv⟩
      · show sd.inFlightSims + (sd.taken config).1.length = _
        rw [hcount]
        exact (Outstanding.outstanding_sendAll _).symm
      · intro r hr
        rcases List.mem_append.mp hr with hold | hnew
        · exact hpending r hold
        · rw [(Outstanding.mem_sendAll.mp hnew).1]
          exact hcurrent

theorem step {e : SortEvent} (hf : Flights h) (hanswers : h.Answers e)
    (hstep : h.step config e = .ok h') : Flights h' := by
  cases e with
  | newTx order => exact hf.newTx hstep
  | sim sim => exact hf.answer (hanswers sim rfl) hstep
  | round now => exact hf.round hstep
  | sealEarly =>
      cases hstep
      exact hf.sealEarly

end Flights

end SortHistory

end TaikoGateway
