/-
TaikoGateway/OnePerSender.lean

The active orders have one list for a sender, and a round takes at most one
order of a list.  So at most one order of a sender is simulated on the current
state, or is the best one on it (`OnePerSender`), and the list it was taken
from is still there when it goes back.

`Reached` are the states of a block under construction: it starts from a
snapshot of a pool, and new transactions, results and rounds follow in any
order.
-/
import TaikoGateway.OrderNonces
import TaikoGateway.PoolSelection
import TaikoGateway.SimResult

namespace TaikoGateway

/-! ### What a result leaves -/

namespace ActiveOrders

variable {a : ActiveOrders} {i : SimulatedOrder}

/-- The order goes back, if there is one. -/
def placeBack (a : ActiveOrders) : Option Order → ActiveOrders
  | some order => a.placed order
  | none => a

theorem settled_of_not_outOfFunds (h : i.outOfFunds = false) (back : Option Order) :
    a.settled i back = a.placeBack back := by
  cases back with
  | none => simp only [settled, placeBack, h, Bool.false_eq_true, if_false]
  | some order => rfl

/-- The sender keeps its list, unless the result is one of the sender and
removes it. -/
theorem mem_senders_settled {back : Option Order} {s : Address} (h : s ∈ senders a.txLists)
    (hne : i.outOfFunds = true → s ≠ i.order.sender) :
    s ∈ senders (a.settled i back).txLists := by
  cases back with
  | some order => exact mem_senders_place h
  | none =>
      cases hi : i.outOfFunds with
      | false =>
          rw [settled_of_not_outOfFunds hi]
          exact h
      | true =>
          simp only [settled, hi, if_true]
          exact mem_senders_remove (hne hi) h

theorem nodup_settled (h : (senders a.txLists).Nodup) (i : SimulatedOrder) (back : Option Order) :
    (senders (a.settled i back).txLists).Nodup := by
  cases back with
  | some order => exact nodup_place h
  | none =>
      simp only [settled]
      split
      · exact nodup_remove h
      · exact h

end ActiveOrders

namespace SortData

variable {sd : SortData} {i : SimulatedOrder}

/-- The senders of these orders and of the best one. -/
def flying (sd : SortData) (orders : List Order) : List Address :=
  orders.map (·.sender) ++ sd.nextBest.toList.map (·.order.sender)

theorem flying_perm {orders orders' : List Order} (hperm : orders.Perm orders') :
    (sd.flying orders).Perm (sd.flying orders') :=
  (hperm.map (·.sender)).append_right _

/-- The senders that are left when one result has been handled. -/
theorem mem_flying_settled {orders : List Order} {s : Address}
    (h : (sd.flying (i.order :: orders)).Nodup) (hs : s ∈ (sd.settled i).flying orders) :
    s ∈ sd.flying (i.order :: orders) ∧ (i.outOfFunds = true → s ≠ i.order.sender) := by
  have hs : s ∈ orders.map (·.sender) ++ (sd.bestWith i).toList.map (·.order.sender) := hs
  rcases sd.bestWith_cases i with hbest | ⟨v, hv, hbest⟩
  · rw [hbest] at hs
    refine ⟨List.mem_cons_of_mem _ hs, ?_⟩
    rintro - rfl
    exact (List.nodup_cons.mp h).1 hs
  · have hfunds := SimulatedOrder.not_outOfFunds hv
    refine ⟨?_, fun htrue => by cases hfunds.symm.trans htrue⟩
    rw [hbest] at hs
    rcases List.mem_append.mp hs with hs | hs
    · exact List.mem_cons_of_mem _ (List.mem_append_left _ hs)
    · have hsender : s = v.order.sender := List.mem_singleton.mp hs
      rw [hsender, (SimulatedOrder.fitting_eq_some hv).2.2]
      exact List.mem_cons_self

theorem nodup_flying_settled {orders : List Order} (h : (sd.flying (i.order :: orders)).Nodup) :
    ((sd.settled i).flying orders).Nodup := by
  show (orders.map (·.sender) ++ (sd.bestWith i).toList.map (·.order.sender)).Nodup
  obtain ⟨hnew, hrest⟩ := List.nodup_cons.mp h
  rcases sd.bestWith_cases i with hbest | ⟨v, hv, hbest⟩
  · rw [hbest]
    exact hrest
  · rw [hbest]
    show (_ ++ [v.order.sender]).Nodup
    rw [(SimulatedOrder.fitting_eq_some hv).2.2]
    apply List.nodup_append_comm.mpr
    apply List.nodup_cons.mpr
    exact ⟨fun hmem => hnew (List.mem_append_left _ hmem),
      hrest.sublist (List.sublist_append_left _ _)⟩

end SortData

/-! ### The invariant -/

namespace ActiveOrders

/-- A round takes at most one order of a sender, and leaves all lists there. -/
theorem nextBest_senders {n : SortingNonces} {baseFee : Nat} {ls : List TxList} :
    ∀ (max : Nat), (∀ l ∈ ls, l.WellFormed) →
      ((nextBest n baseFee ls max).1.map (·.sender)).Sublist (senders ls) ∧
        senders (nextBest n baseFee ls max).2 = senders ls := by
  induction ls with
  | nil =>
      intro max _
      exact ⟨List.Sublist.refl [], rfl⟩
  | cons l ls ih =>
      intro max h
      rw [List.forall_mem_cons] at h
      cases max with
      | zero => exact ⟨List.nil_sublist _, rfl⟩
      | succ max =>
          simp only [nextBest]
          split
          · rename_i order l' hready
            obtain ⟨hsender, -, -, rfl⟩ := h.1.firstReady_some hready
            obtain ⟨horders, hlists⟩ := ih max h.2
            refine ⟨?_, congrArg (l.sender :: ·) hlists⟩
            rw [List.map_cons, hsender]
            exact horders.cons_cons l.sender
          · rename_i l' hready
            rw [TxList.firstReady_none hready]
            obtain ⟨horders, hlists⟩ := ih (max + 1) h.2
            exact ⟨horders.cons l.sender, congrArg (l.sender :: ·) hlists⟩

theorem WellFormed.placed {a : ActiveOrders} (h : a.WellFormed) (order : Order) :
    (a.placed order).WellFormed := h.put (a.put_eq order)

theorem WellFormed.settled {a : ActiveOrders} (h : a.WellFormed) (sim : SimulatedOrder)
    (back : Option Order) : (a.settled sim back).WellFormed := by
  cases back with
  | some order => exact h.placed order
  | none =>
      simp only [ActiveOrders.settled]
      split
      · exact h.removeSender sim.order.sender
      · exact h

end ActiveOrders

namespace SortHistory

/-- The orders that are simulated on the current state. -/
def inFlight (h : SortHistory) : List Order := Outstanding.ofRound h.sd.stateId h.pending

/-- The active orders have one list for a sender, and at most one order of a
sender is simulated on the current state or best on it; its list is still
there. -/
structure OnePerSender (h : SortHistory) : Prop where
  active : h.sd.activeOrders.WellFormed
  senders : (ActiveOrders.senders h.sd.activeOrders.txLists).Nodup
  flying : (h.sd.flying h.inFlight).Nodup
  listed : ∀ s ∈ h.sd.flying h.inFlight, s ∈ ActiveOrders.senders h.sd.activeOrders.txLists

namespace OnePerSender

variable {config : SequencerConfig} {h h' : SortHistory}

/-- Nothing is simulated and nothing is best. -/
theorem of_grounded (hactive : h.sd.activeOrders.WellFormed)
    (hsenders : (ActiveOrders.senders h.sd.activeOrders.txLists).Nodup)
    (hbest : h.sd.nextBest = none) (hnone : h.inFlight = []) : OnePerSender h := by
  have hflying : h.sd.flying h.inFlight = [] := by
    rw [SortData.flying, hnone, hbest]
    rfl
  constructor
  · exact hactive
  · exact hsenders
  · rw [hflying]
    exact .nil
  · rw [hflying]
    intro s hs
    cases hs

theorem start {sd : SortData} {pending : List Spawned} {used : List StateId}
    (hpending : ∀ r ∈ pending, r.tag ∈ used) (hfresh : sd.stateId ∉ used)
    (hactive : sd.activeOrders.WellFormed)
    (hsenders : (ActiveOrders.senders sd.activeOrders.txLists).Nodup) (hbest : sd.nextBest = none) :
    OnePerSender (.start sd pending used) := by
  apply of_grounded hactive hsenders hbest
  apply Outstanding.ofRound_eq_nil
  intro r hr htag
  exact hfresh (htag ▸ hpending r hr)

theorem newTx {order : Order} (ho : OnePerSender h) (hstep : h.newTx order = .ok h') :
    OnePerSender h' := by
  obtain ⟨sd, hsd, hok⟩ := Except.bind_eq_ok_iff.mp hstep
  cases hok
  rcases SortData.handleNewTx_cases hsd with rfl | ⟨activeOrders, hput, rfl⟩
  · exact ho
  · rw [ActiveOrders.put_eq] at hput
    cases hput
    refine ⟨ho.active.placed order, ActiveOrders.nodup_place ho.senders, ho.flying, fun s hs => ?_⟩
    exact ActiveOrders.mem_senders_place (ho.listed s hs)

theorem sealEarly (ho : OnePerSender h) : OnePerSender h.sealEarly :=
  ⟨ho.active, ho.senders, ho.flying, ho.listed⟩

/-- The order of the result is one of those that are simulated. -/
theorem answer {sim : SimulatedOrder} (ho : OnePerSender h) (hanswer : h.AnsweredBy sim)
    (hstep : h.answer sim = .ok h') : OnePerSender h' := by
  obtain ⟨sd, hsd, hok⟩ := Except.bind_eq_ok_iff.mp hstep
  cases hok
  by_cases hid : h.sd.stateId = sim.originStateId
  · rw [SortData.handleSim_eq hid] at hsd
    cases hsd
    have hperm := h.sd.flying_perm (Outstanding.ofRound_erase hanswer.pending hid.symm)
    have hflying := hperm.nodup_iff.mp ho.flying
    refine ⟨ho.active.settled sim _, ActiveOrders.nodup_settled ho.senders sim _,
      SortData.nodup_flying_settled hflying, fun s hs => ?_⟩
    obtain ⟨hs, hne⟩ := SortData.mem_flying_settled hflying hs
    exact ActiveOrders.mem_senders_settled (ho.listed s (hperm.mem_iff.mpr hs)) hne
  · rw [SortData.handleSim_stale hid] at hsd
    cases hsd
    have hsame : (Outstanding.ofRound h.sd.stateId (h.pending.erase sim.spawned)).Perm h.inFlight :=
      Outstanding.ofRound_erase_of_ne fun htag => hid htag.symm
    have hperm := h.sd.flying_perm hsame
    exact ⟨ho.active, ho.senders, hperm.nodup_iff.mpr ho.flying,
      fun s hs => ho.listed s (hperm.mem_iff.mp hs)⟩

/-- Where a round starts, nothing is simulated, and nothing is best once the
best result is applied. -/
theorem apply {sd : SortData} (ho : OnePerSender h) (hf : Flights h)
    (hzero : h.sd.inFlightSims = 0) (happly : SortData.ApplyStep config h.sd sd) :
    OnePerSender { h with sd := sd } ∧ Outstanding.ofRound sd.stateId h.pending = [] := by
  have hnone : Outstanding.ofRound sd.stateId h.pending = [] := by
    rw [← List.length_eq_zero_iff, Outstanding.length_ofRound]
    obtain ⟨hf', hzero', -⟩ := hf.apply hzero happly
    exact hf'.count.symm.trans hzero'
  refine ⟨?_, hnone⟩
  cases happly with
  | nothing hbest => exact of_grounded ho.active ho.senders hbest hnone
  | applied next hbest horigin hgas => exact of_grounded ho.active ho.senders rfl hnone

theorem round {now : Instant} (ho : OnePerSender h) (hf : Flights h)
    (hstep : h.round config now = .ok h') : OnePerSender h' := by
  cases round_step hstep with
  | idle hidle => exact ho
  | waiting hidle happly hwait =>
      have ho' := (ho.apply hf (SortData.not_idle hidle).1 happly).1
      exact ⟨ho'.active, ho'.senders, ho'.flying, ho'.listed⟩
  | @sent sd hidle happly hwait =>
      have hzero := (SortData.not_idle hidle).1
      obtain ⟨ho', hnone⟩ := ho.apply hf hzero happly
      obtain ⟨-, -, hbest⟩ := hf.apply hzero happly
      obtain ⟨horders, hlists⟩ := @ActiveOrders.nextBest_senders sd.nonces sd.blockInfo.baseFee _
        config.maxSimsPerLoop ho'.active
      -- what is simulated now is what has been taken, one of each list
      let sent := Outstanding.ofRound sd.stateId
        (h.pending ++ Outstanding.sendAll sd.stateId (sd.taken config).1)
      have hflying : (sd.withSent (sd.taken config)).flying sent =
          (sd.taken config).1.map (·.sender) := by
        simp only [sent]
        rw [Outstanding.ofRound_sendAll, hnone]
        show (sd.taken config).1.map _ ++ sd.nextBest.toList.map _ = _
        have hnext : sd.nextBest = none := hbest
        rw [hnext]
        exact List.append_nil _
      have hsenders : ActiveOrders.senders (sd.taken config).2.txLists =
          ActiveOrders.senders sd.activeOrders.txLists := hlists
      refine ⟨ho'.active.getNextBest _ _ _, ?_, ?_, fun s hs => ?_⟩
      · show (ActiveOrders.senders (sd.taken config).2.txLists).Nodup
        rw [hsenders]
        exact ho'.senders
      · show ((sd.withSent (sd.taken config)).flying sent).Nodup
        rw [hflying]
        exact ho'.senders.sublist horders
      · show s ∈ ActiveOrders.senders (sd.taken config).2.txLists
        have hs : s ∈ (sd.withSent (sd.taken config)).flying sent := hs
        rw [hflying] at hs
        rw [hsenders]
        exact horders.subset hs

theorem step {e : SortEvent} (ho : OnePerSender h) (hf : Flights h) (hanswers : h.Answers e)
    (hstep : h.step config e = .ok h') : OnePerSender h' := by
  cases e with
  | newTx order => exact ho.newTx hstep
  | sim sim => exact ho.answer (hanswers sim rfl) hstep
  | round now => exact ho.round hf hstep
  | sealEarly =>
      cases hstep
      exact ho.sealEarly

end OnePerSender

/-! ### Runs of a block -/

/-- A block starts from a snapshot of a pool, with simulations of earlier
blocks still out, at a state that nothing has been simulated on. -/
inductive Started (config : SequencerConfig) : SortHistory → Prop
  | intro (blockInfo : BlockInfo) (anchorStateId : StateId)
      (gasLimit targetBlockTime maxBlockSize now : Nat) {p p' : TxPool} (hpool : p.WellFormed)
      (hashOrder : HashOrder) {active : Option ActiveOrders}
      (hactive : p.activeOrders hashOrder blockInfo.blockNumber blockInfo.baseFee =
        .ok (active, p'))
      {pending : List Spawned} {used : List StateId} (hpending : ∀ r ∈ pending, r.tag ∈ used)
      (hfresh : anchorStateId ∉ used) :
      Started config (.start (.new blockInfo anchorStateId (active.getD .empty) gasLimit
        targetBlockTime maxBlockSize config now) pending used)

/-- The events lead from the start of a block to `h`, and the simulator answers
each simulation once. -/
structure Reached (config : SequencerConfig) (h₀ : SortHistory) (es : List SortEvent)
    (h : SortHistory) : Prop where
  started : Started config h₀
  answers : Run.Along (step config) (fun h e _ => h.Answers e) h₀ es
  run : es.foldlM (step config) h₀ = .ok h

variable {config : SequencerConfig} {h₀ h : SortHistory} {es : List SortEvent}

theorem Started.onePerSender (h : Started config h₀) : Flights h₀ ∧ OnePerSender h₀ := by
  cases h with
  | intro blockInfo anchorStateId gasLimit targetBlockTime maxBlockSize now hpool hashOrder hactive
      hpending hfresh =>
      exact ⟨.start hpending hfresh rfl rfl, .start hpending hfresh (hpool.activeOrders hactive).1
        (TxPool.activeOrders_selects hpool hactive).senders rfl⟩

theorem Reached.onePerSender (hreached : Reached config h₀ es h) : Flights h ∧ OnePerSender h :=
  Run.Along.invariant (fun h => Flights h ∧ OnePerSender h)
    (fun _ _ _ hinv hanswers hstep =>
      ⟨hinv.1.step hanswers hstep, hinv.2.step hinv.1 hanswers hstep⟩) es
    hreached.started.onePerSender hreached.answers hreached.run

end SortHistory

end TaikoGateway
