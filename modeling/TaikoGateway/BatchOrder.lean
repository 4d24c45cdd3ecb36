/-
TaikoGateway/BatchOrder.lean

The results of a batch may be handled in any order.

A batch has at most one order of a sender (`OnePerSender`), so two results touch
different lists and different nonces, and the orders that go back have lists to
go back to.  What is left is the comparison with the best result, which does
not depend on the order if no two payments are equal
(`Confluence.losers_comm`).
-/
import TaikoGateway.OnePerSender

namespace TaikoGateway

open Confluence (keep loser IsBest)

/-! ### Results of different senders commute -/

theorem SortingNonces.insertState_comm (n : SortingNonces) {a b : Address} (hne : a ≠ b)
    (x y : Nat) :
    (n.insertState a x).insertState b y = (n.insertState b y).insertState a x := by
  have hmap : (n.state.nonces.insert a x).insert b y = (n.state.nonces.insert b y).insert a x := by
    apply Std.ExtTreeMap.ext_getElem?
    intro k
    simp only [Std.ExtTreeMap.getElem?_insert, Nat.compare_eq_eq]
    by_cases ha : a = k
    · have hb : b ≠ k := fun hb => hne (ha.trans hb.symm)
      simp [ha, hb]
    · simp [ha]
  simp only [insertState, StateNonces.insert, hmap]

theorem SortingNonces.learn_comm (n : SortingNonces) {i j : SimulatedOrder}
    (hne : i.order.sender ≠ j.order.sender) : (n.learn i).learn j = (n.learn j).learn i := by
  cases hi : i.learnt with
  | none => simp only [learn, hi]
  | some x =>
      cases hj : j.learnt with
      | none => simp only [learn, hi, hj]
      | some y =>
          simp only [learn, hi, hj]
          exact n.insertState_comm hne x y

namespace ActiveOrders

variable {a : ActiveOrders} {i j : SimulatedOrder}

theorem placed_comm {o o' : Order} (hne : o.sender ≠ o'.sender) (ho : o.sender ∈ senders a.txLists)
    (ho' : o'.sender ∈ senders a.txLists) : (a.placed o).placed o' = (a.placed o').placed o := by
  simp only [placed]
  rw [place_comm hne ho ho']

/-- A result that removes the list of its sender commutes with an order of
another sender. -/
theorem settled_placed {o : Order} (hne : o.sender ≠ i.order.sender)
    (ho : o.sender ∈ senders a.txLists) :
    (a.settled i none).placed o = (a.placed o).settled i none := by
  cases hi : i.outOfFunds with
  | false => rw [settled_of_not_outOfFunds hi, settled_of_not_outOfFunds hi]; rfl
  | true =>
      simp only [settled, hi, if_true, placed, removeSender]
      exact congrArg (ActiveOrders.mk · a.numTxs) (place_remove hne ho)

theorem settled_none_comm (hne : i.order.sender ≠ j.order.sender) :
    (a.settled i none).settled j none = (a.settled j none).settled i none := by
  cases hi : i.outOfFunds with
  | false =>
      rw [settled_of_not_outOfFunds hi, settled_of_not_outOfFunds hi]
      rfl
  | true =>
      cases hj : j.outOfFunds with
      | false =>
          rw [settled_of_not_outOfFunds hj, settled_of_not_outOfFunds hj]
          rfl
      | true =>
          simp only [settled, hi, hj, if_true, removeSender]
          exact congrArg (ActiveOrders.mk · a.numTxs) (remove_comm hne.symm a.txLists)

end ActiveOrders

namespace SortData

variable {sd : SortData} {i j : SimulatedOrder} {sims : List SimulatedOrder}

/-- The results are of orders of different senders, the best one included, all
of which have lists, and no two that fit have the same payment. -/
structure Awaits (sd : SortData) (sims : List SimulatedOrder) : Prop where
  senders : (sd.flying (sims.map (·.order))).Nodup
  listed : ∀ s ∈ sd.flying (sims.map (·.order)), s ∈ ActiveOrders.senders sd.activeOrders.txLists
  payments : ((sims.filterMap (·.fitting sd.gasRemaining)).map (·.builderPayment)).Nodup

theorem Awaits.perm (h : sd.Awaits sims) {sims' : List SimulatedOrder} (hperm : sims.Perm sims') :
    sd.Awaits sims' := by
  have hflying := sd.flying_perm (hperm.map (·.order))
  constructor
  · exact hflying.nodup_iff.mp h.senders
  · intro s hs
    exact h.listed s (hflying.mem_iff.mpr hs)
  · exact ((hperm.filterMap _).map _).nodup_iff.mp h.payments

theorem Awaits.handled (h : sd.Awaits (i :: sims)) : (sd.settled i).Awaits sims := by
  constructor
  · exact nodup_flying_settled h.senders
  · intro s hs
    obtain ⟨hs, hne⟩ := mem_flying_settled h.senders hs
    exact ActiveOrders.mem_senders_settled (h.listed s hs) hne
  · have hpayments := h.payments
    show ((sims.filterMap (·.fitting sd.gasRemaining)).map _).Nodup
    cases hi : i.fitting sd.gasRemaining with
    | none =>
        rw [List.filterMap_cons_none hi] at hpayments
        exact hpayments
    | some v =>
        rw [List.filterMap_cons_some hi] at hpayments
        exact (List.nodup_cons.mp hpayments).2

/-- Two results of different senders with lists, which the best result so far
is not of, and of different payments if both fit. -/
structure Apart (sd : SortData) (i j : SimulatedOrder) : Prop where
  senders : i.order.sender ≠ j.order.sender
  left : i.order.sender ∈ ActiveOrders.senders sd.activeOrders.txLists
  right : j.order.sender ∈ ActiveOrders.senders sd.activeOrders.txLists
  best : ∀ best, sd.nextBest = some best →
    best.order.sender ∈ ActiveOrders.senders sd.activeOrders.txLists ∧
      best.order.sender ≠ i.order.sender ∧ best.order.sender ≠ j.order.sender
  payments : ∀ v w, i.fitting sd.gasRemaining = some v → j.fitting sd.gasRemaining = some w →
    v.builderPayment ≠ w.builderPayment

theorem Awaits.apart (h : sd.Awaits (i :: j :: sims)) : sd.Apart i j := by
  let orders := sims.map (·.order)
  have hsenders : (i.order.sender :: j.order.sender :: sd.flying orders).Nodup := h.senders
  have hlisted : ∀ s ∈ i.order.sender :: j.order.sender :: sd.flying orders,
      s ∈ ActiveOrders.senders sd.activeOrders.txLists := h.listed
  rw [List.forall_mem_cons, List.forall_mem_cons] at hlisted
  obtain ⟨hleft, hright, hrest⟩ := hlisted
  obtain ⟨hnewi, hsenders⟩ := List.nodup_cons.mp hsenders
  obtain ⟨hnewj, -⟩ := List.nodup_cons.mp hsenders
  refine ⟨?_, hleft, hright, ?_, ?_⟩
  · intro heq
    exact hnewi (heq ▸ List.mem_cons_self)
  · intro best hnext
    have hmem : best.order.sender ∈ sd.flying orders := by
      apply List.mem_append_right
      rw [hnext]
      exact List.mem_singleton_self _
    refine ⟨hrest _ hmem, ?_, ?_⟩
    · intro heq
      exact hnewi (heq ▸ List.mem_cons_of_mem _ hmem)
    · intro heq
      exact hnewj (heq ▸ hmem)
  · intro v w hv hw heq
    have hnodup := h.payments
    rw [List.filterMap_cons_some hv, List.filterMap_cons_some hw, List.map_cons, List.map_cons]
      at hnodup
    exact (List.nodup_cons.mp hnodup).1 (heq ▸ List.mem_cons_self)

namespace Apart

theorem symm (h : sd.Apart i j) : sd.Apart j i where
  senders := h.senders.symm
  left := h.right
  right := h.left
  best := by
    intro best hnext
    obtain ⟨hmem, hi, hj⟩ := h.best best hnext
    exact ⟨hmem, hj, hi⟩
  payments := fun v w hv hw => (h.payments w v hw hv).symm

/-- An order that goes back for one result is not of the sender of the other. -/
theorem putBack (h : sd.Apart i j) {o : Order} (ho : sd.putBack i = some o) :
    o.sender ∈ ActiveOrders.senders sd.activeOrders.txLists ∧ o.sender ≠ j.order.sender := by
  rcases (putBack_cases ho).2 with ⟨best, hnext, rfl⟩ | rfl
  · obtain ⟨hmem, -, hj⟩ := h.best best hnext
    exact ⟨hmem, hj⟩
  · exact ⟨h.left, h.senders⟩

/-- Orders of one sender that go back for either result are the same, the old
best one. -/
theorem eq_of_sender (h : sd.Apart i j) {o o' : Order} (ho : sd.putBack i = some o)
    (ho' : sd.putBack j = some o') (hsame : o.sender = o'.sender) : o = o' := by
  have hj := (h.putBack ho).2
  have hi := (h.symm.putBack ho').2
  rcases (putBack_cases ho).2 with ⟨best, hbest, rfl⟩ | rfl
  · rcases (putBack_cases ho').2 with ⟨best', hbest', rfl⟩ | rfl
    · cases hbest.symm.trans hbest'
      rfl
    · exact absurd hsame hj
  · exact absurd hsame.symm hi

/-- The same order goes back for each result, whichever comes first. -/
theorem settled_active (h : sd.Apart i j) :
    (sd.activeOrders.settled i (sd.putBack i)).settled j (sd.putBack j) =
      (sd.activeOrders.settled j (sd.putBack j)).settled i (sd.putBack i) := by
  cases hi : sd.putBack i with
  | none =>
      cases hj : sd.putBack j with
      | none => exact ActiveOrders.settled_none_comm h.senders
      | some o =>
          obtain ⟨hmem, hne⟩ := h.symm.putBack hj
          exact ActiveOrders.settled_placed hne hmem
  | some o =>
      obtain ⟨hmem, hne⟩ := h.putBack hi
      cases hj : sd.putBack j with
      | none => exact (ActiveOrders.settled_placed hne hmem).symm
      | some o' =>
          by_cases hsame : o.sender = o'.sender
          · rw [h.eq_of_sender hi hj hsame]
            rfl
          · exact ActiveOrders.placed_comm hsame hmem (h.symm.putBack hj).1

theorem active (h : sd.Apart i j) :
    (sd.settled i).activeOrders.settled j ((sd.settled i).putBack j) =
      (sd.settled j).activeOrders.settled i ((sd.settled j).putBack i) := by
  show (sd.activeOrders.settled i (sd.putBack i)).settled j ((sd.settled i).putBack j) =
    (sd.activeOrders.settled j (sd.putBack j)).settled i ((sd.settled j).putBack i)
  rcases @Confluence.losers_comm _ _ sd.nextBest _ _ h.payments with
    ⟨hfirst, hsecond⟩ | ⟨hsomei, hsomej, hfirst, hsecond⟩
  · have hi : (sd.settled j).putBack i = sd.putBack i :=
      congrArg (Option.map ValidOrder.order) hfirst.symm
    have hj : (sd.settled i).putBack j = sd.putBack j :=
      congrArg (Option.map ValidOrder.order) hsecond
    rw [hi, hj]
    exact h.settled_active
  -- both fit, and the orders that go back do so in the same order
  · have hi : sd.putBack i = sd.putBack j := congrArg (Option.map ValidOrder.order) hfirst
    have hj : (sd.settled i).putBack j = (sd.settled j).putBack i :=
      congrArg (Option.map ValidOrder.order) hsecond
    obtain ⟨v, hv⟩ := Option.isSome_iff_exists.mp hsomei
    obtain ⟨w, hw⟩ := Option.isSome_iff_exists.mp hsomej
    have hfundsi := SimulatedOrder.not_outOfFunds hv
    have hfundsj := SimulatedOrder.not_outOfFunds hw
    rw [ActiveOrders.settled_of_not_outOfFunds hfundsi,
      ActiveOrders.settled_of_not_outOfFunds hfundsj,
      ActiveOrders.settled_of_not_outOfFunds hfundsj,
      ActiveOrders.settled_of_not_outOfFunds hfundsi, hi, hj]

/-- **Two results commute.** -/
theorem settled_comm (h : sd.Apart i j) : (sd.settled i).settled j = (sd.settled j).settled i := by
  have hnext : (sd.settled i).bestWith j = (sd.settled j).bestWith i :=
    Confluence.keep_comm h.payments
  show { sd with
      inFlightSims := u64Sub (u64Sub sd.inFlightSims 1) 1
      nonces := (sd.nonces.learn i).learn j
      sealFlag := (sd.sealFlag || i.outOfGas) || j.outOfGas
      discardFlag := (sd.discardFlag || i.stateLost) || j.stateLost
      nextBest := (sd.settled i).bestWith j
      activeOrders := (sd.settled i).activeOrders.settled j ((sd.settled i).putBack j) } = _
  rw [hnext, h.active, sd.nonces.learn_comm h.senders, Bool.or_right_comm,
    Bool.or_right_comm sd.discardFlag]
  rfl

end Apart

/-! ### All results of a batch -/

/-- Results for the current state, one after the other. -/
theorem handleSims_eq (sims : List SimulatedOrder) {sd : SortData}
    (h : ∀ sim ∈ sims, sd.stateId = sim.originStateId) :
    sims.foldlM handleSim sd = .ok (sims.foldl settled sd) := by
  induction sims generalizing sd with
  | nil => rfl
  | cons sim sims ih =>
      rw [List.forall_mem_cons] at h
      rw [List.foldlM_cons, handleSim_eq h.1]
      exact ih h.2

/-- The best result of all. -/
theorem nextBest_foldl_settled (sims : List SimulatedOrder) (sd : SortData) :
    (sims.foldl settled sd).nextBest =
      (sims.map (·.fitting sd.gasRemaining)).foldl (keep (·.builderPayment)) sd.nextBest := by
  induction sims generalizing sd with
  | nil => rfl
  | cons sim sims ih => exact ih (sd.settled sim)

theorem isBest_foldl_settled (sims : List SimulatedOrder) (sd : SortData) :
    IsBest (·.builderPayment) (sd.nextBest.toList ++ sims.filterMap (·.fitting sd.gasRemaining))
      (sims.foldl settled sd).nextBest := by
  have hstart : IsBest ValidOrder.builderPayment sd.nextBest.toList sd.nextBest :=
    Confluence.isBest_toList sd.nextBest
  have hbest := Confluence.isBest_foldl_keep (sims.map (·.fitting sd.gasRemaining)) hstart
  have hfit : (sims.map (·.fitting sd.gasRemaining)).reduceOption =
      sims.filterMap (·.fitting sd.gasRemaining) := by
    rw [List.reduceOption, List.filterMap_map]
    rfl
  rw [hfit] at hbest
  rw [nextBest_foldl_settled]
  exact hbest

/-- **Confluence**, in one state. -/
theorem Awaits.foldl_settled (h : sd.Awaits sims) {sims' : List SimulatedOrder}
    (hperm : sims.Perm sims') : sims.foldl settled sd = sims'.foldl settled sd :=
  Confluence.foldl_perm Awaits (fun _ _ _ hperm h => h.perm hperm) (fun _ _ _ h => h.handled)
    (fun _ _ _ _ h => h.apart.settled_comm) hperm h

end SortData

/-! ### Batches of a run -/

namespace SortHistory

variable {config : SequencerConfig} {h₀ h : SortHistory} {es : List SortEvent}

/-- Since a round that started, no result for the state it simulates on has
been handled. -/
def WholeBatch (config : SequencerConfig) (h₀ : SortHistory) (es : List SortEvent) : Prop :=
  ∃ es₁ now es₂ h₁ h₂, es = es₁ ++ .round now :: es₂ ∧
    es₁.foldlM (step config) h₀ = .ok h₁ ∧ ¬ h₁.sd.Idle now ∧ h₁.round config now = .ok h₂ ∧
    ∀ sim, .sim sim ∈ es₂ → sim.originStateId ≠ h₂.sd.stateId

/-- A round leaves no best result, and needs none to go on with the state. -/
theorem nextBest_round {now : Instant} {h h' : SortHistory} (hstep : h.round config now = .ok h') :
    (¬ h.sd.Idle now → h'.sd.nextBest = none) ∧
      (h.sd.nextBest = none → h'.sd.nextBest = none ∧ h'.sd.stateId = h.sd.stateId) := by
  cases round_step hstep with
  | idle hidle => exact ⟨fun hbusy => absurd hidle hbusy, fun hnone => ⟨hnone, rfl⟩⟩
  | waiting hidle happly hwait =>
      obtain ⟨hbest, hsame⟩ := happly.nextBest
      exact ⟨fun _ => hbest, fun hnone => ⟨hbest, congrArg (·.stateId) (hsame hnone)⟩⟩
  | sent hidle happly hwait =>
      obtain ⟨hbest, hsame⟩ := happly.nextBest
      exact ⟨fun _ => hbest, fun hnone => ⟨hbest, congrArg (·.stateId) (hsame hnone)⟩⟩

/-- Nothing is best, and the state is this one. -/
structure Quiet (stateId : StateId) (h : SortHistory) : Prop where
  nextBest : h.sd.nextBest = none
  stateId_eq : h.sd.stateId = stateId

/-- A step that brings no result for the state leaves nothing best. -/
theorem Quiet.step {stateId : StateId} {g g' : SortHistory} {e : SortEvent} (hg : g.Quiet stateId)
    (hstale : ∀ sim, e = .sim sim → sim.originStateId ≠ stateId)
    (hstep : step config g e = .ok g') : g'.Quiet stateId := by
  cases e with
  | newTx order =>
      obtain ⟨sd, hsd, hok⟩ := Except.bind_eq_ok_iff.mp hstep
      cases hok
      obtain ⟨hsame, hbest⟩ := SortData.handleNewTx_same hsd
      exact ⟨hbest.trans hg.nextBest, hsame.stateId.trans hg.stateId_eq⟩
  | sim sim =>
      obtain ⟨sd, hsd, hok⟩ := Except.bind_eq_ok_iff.mp hstep
      cases hok
      have hid : g.sd.stateId ≠ sim.originStateId := fun hid =>
        hstale sim rfl (hid.symm.trans hg.stateId_eq)
      rw [SortData.handleSim_stale hid] at hsd
      cases hsd
      exact ⟨hg.nextBest, hg.stateId_eq⟩
  | round now =>
      obtain ⟨hbest, hid⟩ := (nextBest_round hstep).2 hg.nextBest
      exact ⟨hbest, hid.trans hg.stateId_eq⟩
  | sealEarly =>
      cases hstep
      exact ⟨hg.nextBest, hg.stateId_eq⟩

/-- While a batch is whole, nothing is best. -/
theorem nextBest_of_wholeBatch (hrun : es.foldlM (step config) h₀ = .ok h)
    (hwhole : WholeBatch config h₀ es) : h.sd.nextBest = none := by
  obtain ⟨es₁, now, es₂, h₁, h₂, rfl, hrun₁, hbusy, hround, hstale⟩ := hwhole
  rw [List.foldlM_append] at hrun
  obtain ⟨h₁', hrun₁', hrest⟩ := Except.bind_eq_ok_iff.mp hrun
  cases hrun₁.symm.trans hrun₁'
  rw [List.foldlM_cons] at hrest
  obtain ⟨h₂', hround', hrun₂⟩ := Except.bind_eq_ok_iff.mp hrest
  cases hround.symm.trans hround'
  have hstart : h₂.Quiet h₂.sd.stateId := ⟨(nextBest_round hround).1 hbusy, rfl⟩
  have hend : h.Quiet h₂.sd.stateId := by
    refine Run.run_invariant (Quiet h₂.sd.stateId) es₂ (fun e he g g' hg hstep => ?_) hstart hrun₂
    apply hg.step _ hstep
    rintro sim rfl
    exact hstale sim he
  exact hend.nextBest

/-- **A batch may be answered in any order.**  Take any state that sorting can
reach, and one result for every simulation that is out on it, where no two
results that fit have the same builder payment.  Handling them in any other
order gives the same block, and the best result is the one with the highest
payment of those that fit, and of an earlier one of the batch, if there is one. -/
theorem batch_confluent (hreached : Reached config h₀ es h) {sims sims' : List SimulatedOrder}
    (hbatch : (sims.map (·.spawned)).Perm (h.pending.filter fun r => r.tag = h.sd.stateId))
    (hpayments : ((sims.filterMap (·.fitting h.sd.gasRemaining)).map (·.builderPayment)).Nodup)
    (hperm : sims.Perm sims') :
    ∃ sd', sims.foldlM SortData.handleSim h.sd = .ok sd' ∧
      sims'.foldlM SortData.handleSim h.sd = .ok sd' ∧
      IsBest (·.builderPayment)
        (h.sd.nextBest.toList ++ sims.filterMap (·.fitting h.sd.gasRemaining)) sd'.nextBest ∧
      (WholeBatch config h₀ es →
        IsBest (·.builderPayment) (sims.filterMap (·.fitting h.sd.gasRemaining)) sd'.nextBest) := by
  obtain ⟨-, ho⟩ := hreached.onePerSender
  have horigin : ∀ sim ∈ sims, h.sd.stateId = sim.originStateId := by
    intro sim hsim
    have hmem := hbatch.mem_iff.mp (List.mem_map_of_mem hsim)
    have htag : sim.spawned.tag = h.sd.stateId := by simpa using (List.mem_filter.mp hmem).2
    exact htag.symm
  have horders : (sims.map (·.order)).Perm h.inFlight := by
    have hpayloads := hbatch.map (·.payload)
    rw [List.map_map] at hpayloads
    exact hpayloads
  have hflying := h.sd.flying_perm horders
  have hawaits : h.sd.Awaits sims :=
    ⟨hflying.nodup_iff.mpr ho.flying, fun s hs => ho.listed s (hflying.mem_iff.mp hs), hpayments⟩
  have hbest := SortData.isBest_foldl_settled sims h.sd
  refine ⟨_, SortData.handleSims_eq sims horigin, ?_, hbest, fun hwhole => ?_⟩
  · rw [hawaits.foldl_settled hperm]
    exact SortData.handleSims_eq sims' fun sim hsim => horigin sim (hperm.mem_iff.mpr hsim)
  · rw [nextBest_of_wholeBatch hreached.run hwhole] at hbest
    exact hbest

section Sample

open Sample

theorem started_sampleStart : Started Sample.config sampleStart := by
  have hactive : TxPool.new.activeOrders .byKey 11 1 = .ok (none, TxPool.new) := rfl
  exact .intro ⟨⟨100, 0, 0⟩, 11, 1, 10⟩ 20 1000000 2000 1000 0 TxPool.wellFormed_new .byKey hactive
    (by decide) (by decide)

/-- A round has sent a tx of sender 5 and one of sender 6. -/
def sentEvents : List SortEvent := [.newTx (senderTx 5 0), .newTx (senderTx 6 3), .round 1]

/-- Both succeed, and that of sender 6 pays more. -/
def sentResults : List SimulatedOrder :=
  [⟨20, .success 21 21000 1, senderTx 5 0⟩, ⟨20, .revert 22 21000 2, senderTx 6 3⟩]

theorem reached_sentEvents :
    ∃ h, Reached Sample.config sampleStart sentEvents h ∧
      (sentResults.map (·.spawned)).Perm (h.pending.filter fun r => r.tag = h.sd.stateId) ∧
      h.sd.gasRemaining = 1000000 := by
  have hrun : (sentEvents.foldlM (step Sample.config) sampleStart).toOption.map
      (fun h => (h.pending.filter fun r => r.tag = h.sd.stateId, h.sd.gasRemaining)) =
      some (sentResults.map (·.spawned), 1000000) := by
    decide +kernel
  obtain ⟨h, hrun, hsent⟩ := Option.map_eq_some_iff.mp hrun
  obtain ⟨hpending, hgas⟩ := Prod.mk.inj hsent
  have hanswers : Run.Along (step Sample.config) (fun h e _ => h.Answers e) sampleStart
      sentEvents := by
    decide +kernel
  exact ⟨h, ⟨started_sampleStart, hanswers, Except.toOption_eq_some_iff.mp hrun⟩,
    by rw [hpending], hgas⟩

/-- The two results, exchanged. -/
theorem batch_confluent_sample :
    ∃ h sd', Reached Sample.config sampleStart sentEvents h ∧
      sentResults.foldlM SortData.handleSim h.sd = .ok sd' ∧
      sentResults.reverse.foldlM SortData.handleSim h.sd = .ok sd' := by
  obtain ⟨h, hreached, hbatch, hgas⟩ := reached_sentEvents
  have hpayments : ((sentResults.filterMap (·.fitting h.sd.gasRemaining)).map
      (·.builderPayment)).Nodup := by
    rw [hgas]
    decide
  obtain ⟨sd', hrun, hrun', -⟩ :=
    batch_confluent hreached hbatch hpayments (List.reverse_perm sentResults).symm
  exact ⟨h, sd', hreached, hrun, hrun'⟩

end Sample

end SortHistory

end TaikoGateway
