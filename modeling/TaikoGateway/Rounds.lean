/-
TaikoGateway/Rounds.lean

How the rounds of a block end.

A round that finds nothing to simulate leaves the block waiting for new
transactions.  It does so only when nothing can be included: while the block
waits, no result is out, none is to be applied, and no list has an order that
is ready (`waiting_idle`).

Without new transactions it comes to that.  A round takes orders out, and the
results put back all of them but one at most: either the best one is kept, or
none fits and none is put back.  So each round that sends something uses up an
order, whatever the results are (`rounds_end`).
-/
import TaikoGateway.BatchOrder

namespace TaikoGateway

/-! ### Taking orders -/

namespace ActiveOrders

/-- The number of orders in the lists. -/
def count (ls : List TxList) : Nat := (ls.map TxList.len).sum

theorem count_cons (l : TxList) (ls : List TxList) : count (l :: ls) = l.len + count ls := by
  simp [count]

/-- An order that is taken is gone. -/
theorem len_firstReady {l l' : TxList} {stateNonce : Option Nat} {baseFee : Nat} {order : Order}
    (h : l.firstReady stateNonce baseFee = (some order, l')) : l'.len + 1 = l.len := by
  rcases l.firstReady_cases stateNonce baseFee with hnone | ⟨nonce, o, hget, -, hsome⟩
  · cases hnone.symm.trans h
  · cases hsome.symm.trans h
    have hmem : nonce ∈ l.txs := by
      rw [← Std.ExtTreeMap.isSome_getElem?_iff_mem, hget]
      rfl
    have hpos : l.txs.size ≠ 0 := by
      intro hzero
      rw [← Std.ExtTreeMap.eq_empty_iff_size_eq_zero] at hzero
      rw [hzero] at hget
      cases Std.ExtTreeMap.getElem?_empty.symm.trans hget
    show (l.txs.erase nonce).size + 1 = l.txs.size
    rw [Std.ExtTreeMap.size_erase, if_pos (Std.ExtTreeMap.mem_iff_contains.mp hmem)]
    omega

theorem count_nextBest {n : SortingNonces} {baseFee : Nat} {ls : List TxList} :
    ∀ max, count (nextBest n baseFee ls max).2 + (nextBest n baseFee ls max).1.length =
      count ls := by
  induction ls with
  | nil => exact fun _ => rfl
  | cons l ls ih =>
      intro max
      cases max with
      | zero => rfl
      | succ max =>
          simp only [nextBest]
          split
          · rename_i order l' hready
            have hlen := len_firstReady hready
            have hrest := ih max
            rw [count_cons, count_cons, List.length_cons]
            omega
          · rename_i l' hready
            have hrest := ih (max + 1)
            rw [TxList.firstReady_none hready, count_cons, count_cons]
            show l.len + _ + (nextBest n baseFee ls (max + 1)).1.length = _
            omega

/-- Nothing is taken only where no list has an order that is ready. -/
theorem nextBest_eq_nil {n : SortingNonces} {baseFee max : Nat} {ls : List TxList}
    (h : (nextBest n baseFee ls (max + 1)).1 = []) :
    (∀ l ∈ ls, (l.firstReady (n.getNonce l.sender) baseFee).1 = none) ∧
      (nextBest n baseFee ls (max + 1)).2 = ls := by
  induction ls with
  | nil => exact ⟨fun l hl => (by cases hl), rfl⟩
  | cons l ls ih =>
      simp only [nextBest] at h ⊢
      split at h
      · cases h
      · rename_i l' hready
        obtain ⟨hnone, hlists⟩ := ih h
        refine ⟨List.forall_mem_cons.mpr ⟨by rw [hready], hnone⟩, ?_⟩
        rw [TxList.firstReady_none hready]
        exact congrArg (l :: ·) hlists

/-! ### Putting orders back -/

theorem count_place (order : Order) (ls : List TxList) :
    count (place order ls) ≤ count ls + 1 := by
  induction ls with
  | nil =>
      show ((∅ : BTreeMap Order).insert order.nonce order).size + 0 ≤ 0 + 1
      rw [Std.ExtTreeMap.size_insert]
      split <;> simp
  | cons l ls ih =>
      rw [place]
      split
      · have hsize : (l.txs.insert order.nonce order).size ≤ l.txs.size + 1 :=
          Std.ExtTreeMap.size_insert_le
        rw [count_cons, count_cons]
        show (l.txs.insert order.nonce order).size + _ ≤ l.txs.size + _ + 1
        omega
      · rw [count_cons, count_cons]
        omega

theorem count_remove (sender : Address) (ls : List TxList) : count (remove sender ls) ≤ count ls :=
  ((List.eraseP_sublist (l := ls)).map TxList.len).sum_le_sum fun _ _ => Nat.zero_le _

theorem count_settled (a : ActiveOrders) (sim : SimulatedOrder) (back : Option Order) :
    count (a.settled sim back).txLists ≤ count a.txLists + back.toList.length := by
  cases back with
  | some order => exact count_place order a.txLists
  | none =>
      simp only [settled]
      split
      · exact count_remove sim.order.sender a.txLists
      · exact Nat.le_refl _

end ActiveOrders

/-! ### A block that waits -/

namespace SortData

/-- No list has an order that is ready. -/
def NothingReady (sd : SortData) : Prop :=
  ∀ l ∈ sd.activeOrders.txLists,
    (l.firstReady (sd.nonces.getNonce l.sender) sd.blockInfo.baseFee).1 = none

/-- A block that waits has nothing to include. -/
structure WaitsIdle (sd : SortData) : Prop where
  idle : sd.waitingForNewTxs = true →
    sd.inFlightSims = 0 ∧ sd.nextBest = none ∧ sd.NothingReady

variable {config : SequencerConfig} {sd sd' : SortData}

theorem WaitsIdle.of_false (h : sd.waitingForNewTxs = false) : WaitsIdle sd := by
  constructor
  intro hwait
  cases h.symm.trans hwait

/-- Applying the best result does not make the block wait. -/
theorem WaitsIdle.apply (h : WaitsIdle sd) (happly : ApplyStep config sd sd') : WaitsIdle sd' := by
  cases happly with
  | nothing hbest => exact h
  | applied next hbest horigin hgas =>
      constructor
      intro hwait
      cases hbest.symm.trans (h.idle hwait).2.1

/-- A round that sends nothing leaves a block with nothing ready. -/
theorem WaitsIdle.withSent (hmax : 1 ≤ config.maxSimsPerLoop) (hzero : sd.inFlightSims = 0)
    (hbest : sd.nextBest = none) (hwait : sd.waitingForNewTxs = false) :
    WaitsIdle (sd.withSent (sd.taken config)) := by
  constructor
  intro hwait'
  have hnone : (sd.taken config).1 = [] := by
    have hcount : (sd.waitingForNewTxs ||
        decide (sd.inFlightSims + (sd.taken config).1.length = 0)) = true := hwait'
    rw [hwait, Bool.false_or, decide_eq_true_eq, hzero, Nat.zero_add] at hcount
    exact List.length_eq_zero_iff.mp hcount
  obtain ⟨max, hmax⟩ := Nat.exists_eq_add_of_le' hmax
  have htaken : (ActiveOrders.nextBest sd.nonces sd.blockInfo.baseFee sd.activeOrders.txLists
      (max + 1)).1 = [] := by
    rw [← hmax]
    exact hnone
  obtain ⟨hready, hlists⟩ := ActiveOrders.nextBest_eq_nil htaken
  refine ⟨?_, hbest, ?_⟩
  · show sd.inFlightSims + (sd.taken config).1.length = 0
    rw [hzero, hnone]
    rfl
  · show ∀ l ∈ (sd.taken config).2.txLists, _
    have hsame : (sd.taken config).2.txLists = sd.activeOrders.txLists := by
      rw [← hmax] at hlists
      exact hlists
    rw [hsame]
    exact hready

end SortData

namespace SortHistory

variable {config : SequencerConfig} {h₀ h h' : SortHistory} {es : List SortEvent}

theorem waitsIdle_step (hmax : 1 ≤ config.maxSimsPerLoop) {e : SortEvent}
    (hw : SortData.WaitsIdle h.sd) (hf : Flights h) (hanswers : h.Answers e)
    (hstep : h.step config e = .ok h') : SortData.WaitsIdle h'.sd := by
  cases e with
  | newTx order =>
      obtain ⟨sd, hsd, hok⟩ := Except.bind_eq_ok_iff.mp hstep
      cases hok
      rcases SortData.handleNewTx_cases hsd with rfl | ⟨activeOrders, -, rfl⟩
      · exact hw
      · exact .of_false rfl
  | sim sim =>
      obtain ⟨sd, hsd, hok⟩ := Except.bind_eq_ok_iff.mp hstep
      cases hok
      by_cases hid : h.sd.stateId = sim.originStateId
      -- a block with a result to come does not wait
      · have hpos := hf.inFlight_pos (hanswers sim rfl) hid
        rw [SortData.handleSim_eq hid] at hsd
        cases hsd
        constructor
        intro hwait
        have hzero := (hw.idle hwait).1
        omega
      · rw [SortData.handleSim_stale hid] at hsd
        cases hsd
        exact hw
  | round now =>
      cases round_step hstep with
      | idle hidle => exact hw
      | waiting hidle happly hwait => exact hw.apply happly
      | @sent sd hidle happly hwait =>
          obtain ⟨-, hzero, hbest⟩ := hf.apply (SortData.not_idle hidle).1 happly
          exact .withSent hmax hzero hbest hwait
  | sealEarly =>
      cases hstep
      constructor
      intro hwait
      exact hw.idle hwait

/-- **The sorter does not wait while an order could be included.**  With room
for a simulation in a round, and each simulation answered once: in every state
that sorting reaches, a block that waits for new transactions has no simulation
out, no result to apply, and no order that is ready. -/
theorem waiting_idle (hmax : 1 ≤ config.maxSimsPerLoop) (hreached : Reached config h₀ es h)
    (hwait : h.sd.waitingForNewTxs = true) :
    h.sd.inFlightSims = 0 ∧ h.inFlight = [] ∧ h.sd.nextBest = none ∧ h.sd.NothingReady := by
  have hstart : Flights h₀ ∧ SortData.WaitsIdle h₀.sd := by
    refine ⟨hreached.started.onePerSender.1, ?_⟩
    cases hreached.started with
    | intro => exact .of_false rfl
  have hend := Run.Along.invariant (fun h => Flights h ∧ SortData.WaitsIdle h.sd)
    (fun _ _ _ hinv hanswers hstep =>
      ⟨hinv.1.step hanswers hstep, waitsIdle_step hmax hinv.2 hinv.1 hanswers hstep⟩) es hstart
    hreached.answers hreached.run
  obtain ⟨hzero, hbest, hready⟩ := hend.2.idle hwait
  refine ⟨hzero, ?_, hbest, hready⟩
  rw [← List.length_eq_zero_iff]
  show (Outstanding.ofRound h.sd.stateId h.pending).length = 0
  rw [Outstanding.length_ofRound, ← hend.1.count]
  exact hzero

section Sample

open Sample

/-- The first tx of sender 5 is included; the third is there, the second is not. -/
def idleEvents : List SortEvent :=
  [.newTx (senderTx 5 0), .round 1, sampleSim 20 21 1 (senderTx 5 0), .newTx (senderTx 5 2),
    .round 2]

theorem waiting_idle_sample :
    ∃ h, Reached Sample.config sampleStart idleEvents h ∧ h.sd.inFlightSims = 0 ∧
      h.inFlight = [] ∧ h.sd.nextBest = none ∧ h.sd.NothingReady := by
  have hrun : (idleEvents.foldlM (step Sample.config) sampleStart).toOption.map
      (·.sd.waitingForNewTxs) = some true := by
    decide +kernel
  obtain ⟨h, hrun, hwait⟩ := Option.map_eq_some_iff.mp hrun
  have hanswers : Run.Along (step Sample.config) (fun h e _ => h.Answers e) sampleStart
      idleEvents := by
    decide +kernel
  have hreached : Reached Sample.config sampleStart idleEvents h :=
    ⟨started_sampleStart, hanswers, Except.toOption_eq_some_iff.mp hrun⟩
  exact ⟨h, hreached, waiting_idle (by decide) hreached hwait⟩

end Sample

end SortHistory

/-! ### Rounds without new transactions -/

namespace SortData

variable {config : SequencerConfig} {sd sd' : SortData}

/-- The best result can be applied. -/
def Applicable (sd : SortData) : Prop :=
  ∀ v, sd.nextBest = some v → v.originStateId = sd.stateId ∧ v.gasUsed ≤ sd.gasRemaining

/-- The results are those of the simulations of these orders on the state. -/
def AnswersAll (sims : List SimulatedOrder) (sd : SortData) (sent : List Order) : Prop :=
  (sims.map (·.spawned)).Perm (Outstanding.sendAll sd.stateId sent)

/-- The call sends nothing: the block is to be sealed, or waits. -/
def Stops (config : SequencerConfig) (sd : SortData) (now : Instant) : Prop :=
  ∃ sd', sd.maybeSimNextBatch config now = .ok (sd', []) ∧
    (sd.shouldSeal now = true ∨ sd'.waitingForNewTxs = true)

/-- Whenever the calls come and whatever the results are, at most `n` more
rounds send orders, and the call after them stops. -/
def EndsWithin (config : SequencerConfig) : Nat → SortData → Prop
  | 0, sd => ∀ now, sd.Stops config now
  | n + 1, sd => ∀ now, sd.Stops config now ∨
      ∃ sd' sent, sd.maybeSimNextBatch config now = .ok (sd', sent) ∧ sent ≠ [] ∧
        ∀ sims, AnswersAll sims sd' sent →
          ∃ sd'', sims.foldlM handleSim sd' = .ok sd'' ∧ EndsWithin config n sd''

/-- The orders, and the best one, after a result. -/
theorem count_settled (sd : SortData) (sim : SimulatedOrder) :
    ActiveOrders.count (sd.settled sim).activeOrders.txLists +
        (sd.settled sim).nextBest.toList.length ≤
      ActiveOrders.count sd.activeOrders.txLists + sd.nextBest.toList.length + 1 := by
  have hcount := sd.activeOrders.count_settled sim (sd.putBack sim)
  have hbalance : (sd.putBack sim).toList.length + (sd.bestWith sim).toList.length ≤
      sd.nextBest.toList.length + 1 := by
    rw [putBack, bestWith]
    rcases sim.fitting sd.gasRemaining with - | v
    · simp
    · rcases sd.nextBest with - | best
      · exact Nat.le_refl 1
      · simp only [Confluence.keep, Confluence.loser]
        split <;> exact Nat.le_refl 2
  show ActiveOrders.count (sd.activeOrders.settled sim (sd.putBack sim)).txLists +
    (sd.bestWith sim).toList.length ≤ _
  omega

/-- A result that leaves nothing best puts nothing back. -/
theorem count_settled_of_none {sim : SimulatedOrder} (h : (sd.settled sim).nextBest = none) :
    sd.nextBest = none ∧ ActiveOrders.count (sd.settled sim).activeOrders.txLists ≤
      ActiveOrders.count sd.activeOrders.txLists := by
  have hbest : sd.bestWith sim = none := h
  have hnone : sd.nextBest = none ∧ sim.fitting sd.gasRemaining = none := by
    have hstart : Confluence.IsBest ValidOrder.builderPayment sd.nextBest.toList sd.nextBest :=
      Confluence.isBest_toList sd.nextBest
    have hnil := (hstart.keep (sim.fitting sd.gasRemaining)).empty hbest
    rw [List.append_eq_nil_iff] at hnil
    exact ⟨Option.toList_eq_nil_iff.mp hnil.1, Option.toList_eq_nil_iff.mp hnil.2⟩
  refine ⟨hnone.1, ?_⟩
  have hback : sd.putBack sim = none := by
    rw [putBack, hnone.2, Confluence.loser_none]
    rfl
  have hcount := sd.activeOrders.count_settled sim (sd.putBack sim)
  rw [hback] at hcount
  show ActiveOrders.count (sd.activeOrders.settled sim (sd.putBack sim)).txLists ≤ _
  rw [hback]
  exact hcount

/-- **All results of a batch** put back at most all orders but one. -/
theorem count_foldl_settled (sims : List SimulatedOrder) (sd : SortData) :
    ActiveOrders.count (sims.foldl settled sd).activeOrders.txLists +
        (sims.foldl settled sd).nextBest.toList.length ≤
      ActiveOrders.count sd.activeOrders.txLists + sd.nextBest.toList.length + sims.length ∧
    ((sims.foldl settled sd).nextBest = none →
      ActiveOrders.count (sims.foldl settled sd).activeOrders.txLists ≤
        ActiveOrders.count sd.activeOrders.txLists) := by
  induction sims using List.reverseRecOn with
  | nil => exact ⟨Nat.le_refl _, fun _ => Nat.le_refl _⟩
  | append_singleton sims sim ih =>
      rw [List.foldl_append, List.length_append]
      show ActiveOrders.count ((sims.foldl settled sd).settled sim).activeOrders.txLists +
          ((sims.foldl settled sd).settled sim).nextBest.toList.length ≤ _ + (sims.length + 1) ∧
        (((sims.foldl settled sd).settled sim).nextBest = none →
          ActiveOrders.count ((sims.foldl settled sd).settled sim).activeOrders.txLists ≤ _)
      refine ⟨?_, fun hnone => ?_⟩
      · have hstep := (sims.foldl settled sd).count_settled sim
        omega
      · obtain ⟨hnone', hstep⟩ := count_settled_of_none hnone
        exact Nat.le_trans hstep (ih.2 hnone')

theorem inFlightSims_foldl_settled (sims : List SimulatedOrder) {sd : SortData}
    (h : sims.length ≤ sd.inFlightSims) :
    (sims.foldl settled sd).inFlightSims = sd.inFlightSims - sims.length := by
  induction sims generalizing sd with
  | nil => rfl
  | cons sim sims ih =>
      rw [List.length_cons] at h
      have hone : (sd.settled sim).inFlightSims = sd.inFlightSims - 1 := u64Sub_of_le (by omega)
      rw [List.foldl_cons, ih (by omega), hone, List.length_cons]
      omega

theorem foldl_settled_same (sims : List SimulatedOrder) (sd : SortData) :
    (sims.foldl settled sd).stateId = sd.stateId ∧
      (sims.foldl settled sd).gasRemaining = sd.gasRemaining := by
  induction sims generalizing sd with
  | nil => exact ⟨rfl, rfl⟩
  | cons sim sims ih => exact ih (sd.settled sim)

/-- After the results of a batch, the next round can start. -/
theorem applicable_foldl_settled {sims : List SimulatedOrder} (h : sd.Applicable)
    (horigin : ∀ sim ∈ sims, sd.stateId = sim.originStateId) :
    (sims.foldl settled sd).Applicable := by
  intro v hv
  obtain ⟨hid, hgas⟩ := foldl_settled_same sims sd
  rw [hid, hgas]
  rcases List.mem_append.mp ((isBest_foldl_settled sims sd).mem v hv) with hold | hnew
  · exact h v (Option.mem_toList.mp hold)
  · obtain ⟨sim, hsim, hfit⟩ := List.mem_filterMap.mp hnew
    obtain ⟨hvalid, hle, -⟩ := SimulatedOrder.fitting_eq_some hfit
    exact ⟨(SimulatedOrder.validOrder_eq_some hvalid).1.trans (horigin sim hsim).symm, hle⟩

/-- A best result that can be applied is applied. -/
theorem maybeApplyNext_total (h : sd.Applicable) :
    ∃ sd', maybeApplyNext config sd = .ok sd' ∧ sd'.activeOrders = sd.activeOrders ∧
      sd'.inFlightSims = sd.inFlightSims ∧ sd'.nextBest = none := by
  simp only [maybeApplyNext]
  split
  · rename_i hbest
    exact ⟨sd, rfl, rfl, rfl, hbest⟩
  · rename_i next hbest
    obtain ⟨horigin, hgas⟩ := h next hbest
    rw [if_neg (by simp [isValid, horigin]), if_neg (Nat.not_lt.mpr hgas)]
    exact ⟨_, rfl, rfl, rfl, rfl⟩

theorem maybeSimNextBatch_idle {now : Instant} (h : sd.Idle now) :
    sd.maybeSimNextBatch config now = .ok (sd, []) :=
  if_pos h

theorem maybeSimNextBatch_eq {now : Instant} {applied : SortData} (h : ¬ sd.Idle now)
    (happly : maybeApplyNext config sd = .ok applied) :
    sd.maybeSimNextBatch config now = if applied.waitingForNewTxs then .ok (applied, [])
      else .ok (applied.withSent (applied.taken config), (applied.taken config).1) := by
  rw [Idle] at h
  rw [maybeSimNextBatch, if_neg h, happly]
  rfl

/-- Orders are taken out of the lists. -/
theorem count_taken (config : SequencerConfig) (sd : SortData) :
    ActiveOrders.count (sd.taken config).2.txLists + (sd.taken config).1.length =
      ActiveOrders.count sd.activeOrders.txLists :=
  ActiveOrders.count_nextBest config.maxSimsPerLoop

theorem count_taken_pos (hsent : (sd.taken config).1 ≠ []) :
    0 < ActiveOrders.count sd.activeOrders.txLists := by
  have htaken := count_taken config sd
  have hpos : 0 < (sd.taken config).1.length := List.length_pos_iff.mpr hsent
  omega

/-- The orders that were sent and come back are less than those that were there. -/
theorem answered_round (hzero : sd.inFlightSims = 0) (hnone : sd.nextBest = none)
    (hsent : (sd.taken config).1 ≠ []) {sims : List SimulatedOrder}
    (hsims : AnswersAll sims (sd.withSent (sd.taken config)) (sd.taken config).1) :
    ∃ sd'', sims.foldlM handleSim (sd.withSent (sd.taken config)) = .ok sd'' ∧
      sd''.inFlightSims = 0 ∧ sd''.Applicable ∧
      ActiveOrders.count sd''.activeOrders.txLists <
        ActiveOrders.count sd.activeOrders.txLists := by
  have horigin : ∀ sim ∈ sims, (sd.withSent (sd.taken config)).stateId = sim.originStateId := by
    intro sim hsim
    have hmem := hsims.mem_iff.mp (List.mem_map_of_mem hsim)
    exact (Outstanding.mem_sendAll.mp hmem).1.symm
  have hlength : sims.length = (sd.taken config).1.length := by
    have hperm := hsims.length_eq
    rwa [List.length_map, Outstanding.sendAll, List.length_map] at hperm
  have hflight : (sd.withSent (sd.taken config)).inFlightSims = sims.length := by
    show sd.inFlightSims + (sd.taken config).1.length = sims.length
    rw [hzero, hlength, Nat.zero_add]
  refine ⟨_, handleSims_eq sims horigin, ?_, ?_, ?_⟩
  · rw [inFlightSims_foldl_settled sims (Nat.le_of_eq hflight.symm), hflight, Nat.sub_self]
  · apply applicable_foldl_settled _ horigin
    intro v hv
    cases hnone.symm.trans hv
  · have htaken := count_taken config sd
    have hpos : 0 < (sd.taken config).1.length := List.length_pos_iff.mpr hsent
    obtain ⟨hsum, hless⟩ := count_foldl_settled sims (sd.withSent (sd.taken config))
    have hlists : (sd.withSent (sd.taken config)).activeOrders.txLists =
        (sd.taken config).2.txLists := rfl
    have hstart : (sd.withSent (sd.taken config)).nextBest.toList.length = 0 := by
      show sd.nextBest.toList.length = 0
      rw [hnone]
      rfl
    rw [hlists] at hsum hless
    cases hfinal : (sims.foldl settled (sd.withSent (sd.taken config))).nextBest with
    | none =>
        have hle := hless hfinal
        omega
    -- a best result is one that does not come back
    | some v =>
        rw [hfinal] at hsum
        have hone : (some v).toList.length = 1 := rfl
        omega

/-- **A round** stops, or sends orders and leaves at least one less once they
are answered. -/
theorem round_spec (hzero : sd.inFlightSims = 0) (hbest : sd.Applicable) (now : Instant) :
    sd.Stops config now ∨
      ∃ sd' sent, sd.maybeSimNextBatch config now = .ok (sd', sent) ∧ sent ≠ [] ∧
        0 < ActiveOrders.count sd.activeOrders.txLists ∧
        ∀ sims, AnswersAll sims sd' sent → ∃ sd'', sims.foldlM handleSim sd' = .ok sd'' ∧
          sd''.inFlightSims = 0 ∧ sd''.Applicable ∧
          ActiveOrders.count sd''.activeOrders.txLists <
            ActiveOrders.count sd.activeOrders.txLists := by
  by_cases hidle : sd.Idle now
  · have hseal : sd.shouldSeal now = true := hidle.resolve_left (by omega)
    exact Or.inl ⟨sd, maybeSimNextBatch_idle hidle, Or.inl hseal⟩
  obtain ⟨applied, happly, hactive, hcount, hnone⟩ := @maybeApplyNext_total config sd hbest
  have hround := maybeSimNextBatch_eq hidle happly
  cases hwait : applied.waitingForNewTxs with
  | true => exact Or.inl ⟨applied, by rw [hround, hwait]; rfl, Or.inr hwait⟩
  | false =>
      rw [hwait, if_neg Bool.false_ne_true] at hround
      by_cases hsent : (applied.taken config).1 = []
      · refine Or.inl ⟨_, by rw [hround, hsent], Or.inr ?_⟩
        show (applied.waitingForNewTxs ||
          decide (applied.inFlightSims + (applied.taken config).1.length = 0)) = true
        rw [hsent, hcount, hzero]
        simp
      · have hpos := count_taken_pos hsent
        rw [hactive] at hpos
        refine Or.inr ⟨_, _, hround, hsent, hpos, fun sims hsims => ?_⟩
        rw [← hactive]
        exact answered_round (hcount.trans hzero) hnone hsent hsims

/-- **Rounds use up the orders.**  A block with `n` active orders, nothing in
flight and no best result: without new transactions at most `n` rounds send
something, whatever the results are and whenever the calls come; then a call
finds that the block is to be sealed, or leaves it waiting. -/
theorem rounds_end (config : SequencerConfig) (hzero : sd.inFlightSims = 0)
    (hbest : sd.nextBest = none) :
    EndsWithin config (ActiveOrders.count sd.activeOrders.txLists) sd := by
  have hends : ∀ (n : Nat) (sd : SortData), sd.inFlightSims = 0 → sd.Applicable →
      ActiveOrders.count sd.activeOrders.txLists ≤ n → EndsWithin config n sd := by
    intro n
    induction n with
    | zero =>
        intro sd hzero hbest hcount now
        rcases @round_spec config sd hzero hbest now with hstops |
          ⟨sd', sent, -, -, hpos, -⟩
        · exact hstops
        -- without orders nothing is sent
        · omega
    | succ n ih =>
        intro sd hzero hbest hcount now
        apply (@round_spec config sd hzero hbest now).imp id
        rintro ⟨sd', sent, hround, hsent, -, hanswers⟩
        refine ⟨sd', sent, hround, hsent, fun sims hsims => ?_⟩
        obtain ⟨sd'', hrun, hzero', hbest', hless⟩ := hanswers sims hsims
        exact ⟨sd'', hrun, ih sd'' hzero' hbest' (by omega)⟩
  apply hends _ sd hzero _ (Nat.le_refl _)
  intro v hv
  cases hbest.symm.trans hv

section Sample

open Sample

/-- Two senders with an order each. -/
def twoOrders : SortData :=
  { SortHistory.sampleStart.sd with
    activeOrders := (ActiveOrders.empty.placed (senderTx 5 0)).placed (senderTx 6 0) }

theorem rounds_end_twoOrders : EndsWithin Sample.config 2 twoOrders := by
  have hcount : ActiveOrders.count twoOrders.activeOrders.txLists = 2 := by decide +kernel
  rw [← hcount]
  exact rounds_end Sample.config rfl rfl

end Sample

end SortData

end TaikoGateway
