/-
TaikoGateway/SimResult.lean

What a simulation result does, as functions that cannot fail.

Putting an order into the active orders always succeeds (`placed`), so a
result for the current state has one outcome (`settled`, `handleSim_eq`).  It
is given field by field: the nonce that is learnt, the flags that are set, the
best result so far, and the order that goes back to the active orders
(`putBack`) or the list that leaves them.

Operations on the lists of different senders commute, as long as the senders
have lists (`placed_comm` and the lemmas after it): an order without one would
open a list behind the others.
-/
import TaikoGateway.Lib.Confluence
import TaikoGateway.SortRun

namespace TaikoGateway

open Confluence (keep loser)

/-! ### Lists of the active orders -/

namespace ActiveOrders

def senders (ls : List TxList) : List Address := ls.map (·.sender)

/-- The lists with the order in the first list of its sender, or in a new one
behind the others. -/
def place (order : Order) : List TxList → List TxList
  | [] => [{ TxList.new order.sender with txs := (∅ : BTreeMap Order).insert order.nonce order }]
  | l :: ls =>
      if l.sender = order.sender then { l with txs := l.txs.insert order.nonce order } :: ls
      else l :: place order ls

/-- The lists without the first one of the sender. -/
def remove (sender : Address) (ls : List TxList) : List TxList :=
  ls.eraseP fun l => l.sender = sender

theorem putIn_eq (order : Order) (ls : List TxList) : putIn order ls = .ok (place order ls) := by
  induction ls with
  | nil =>
      have hput : (TxList.new order.sender).put order = .ok { TxList.new order.sender with
          txs := (∅ : BTreeMap Order).insert order.nonce order } := if_pos rfl
      rw [putIn, hput]
      rfl
  | cons l ls ih =>
      rw [putIn, place]
      by_cases h : l.sender = order.sender
      · have hput : l.put order = .ok { l with txs := l.txs.insert order.nonce order } := if_pos h
        rw [if_pos h, if_pos h, hput]
        rfl
      · rw [if_neg h, if_neg h, ih]
        rfl

theorem senders_place (order : Order) (ls : List TxList) :
    senders (place order ls) =
      if order.sender ∈ senders ls then senders ls else senders ls ++ [order.sender] := by
  induction ls with
  | nil => rfl
  | cons l ls ih =>
      rw [place]
      by_cases h : l.sender = order.sender
      · rw [if_pos h, if_pos]
        · rfl
        · rw [senders, List.map_cons, h]
          exact List.mem_cons_self
      · rw [if_neg h]
        show l.sender :: senders (place order ls) = _
        have hmem : order.sender ∈ senders (l :: ls) ↔ order.sender ∈ senders ls := by
          rw [senders, List.map_cons, List.mem_cons]
          exact or_iff_right fun heq => h heq.symm
        rw [ih, if_congr hmem rfl rfl]
        split <;> rfl

theorem mem_senders_place {order : Order} {ls : List TxList} {s : Address}
    (h : s ∈ senders ls) : s ∈ senders (place order ls) := by
  rw [senders_place]
  split
  · exact h
  · exact List.mem_append_left _ h

theorem nodup_place {order : Order} {ls : List TxList} (h : (senders ls).Nodup) :
    (senders (place order ls)).Nodup := by
  rw [senders_place]
  split
  · exact h
  · rename_i hnew
    exact List.nodup_append_comm.mpr (List.nodup_cons.mpr ⟨hnew, h⟩)

theorem mem_senders_remove {sender : Address} {ls : List TxList} {s : Address} (hne : s ≠ sender)
    (h : s ∈ senders ls) : s ∈ senders (remove sender ls) := by
  obtain ⟨l, hl, rfl⟩ := List.mem_map.mp h
  exact List.mem_map.mpr ⟨l, (List.mem_eraseP_of_neg (by simpa using hne)).mpr hl, rfl⟩

theorem nodup_remove {sender : Address} {ls : List TxList} (h : (senders ls).Nodup) :
    (senders (remove sender ls)).Nodup :=
  h.sublist ((List.eraseP_sublist (l := ls)).map _)

/-- Two senders with lists take orders in any order. -/
theorem place_comm {o o' : Order} (hne : o.sender ≠ o'.sender) :
    ∀ {ls : List TxList}, o.sender ∈ senders ls → o'.sender ∈ senders ls →
      place o (place o' ls) = place o' (place o ls) := by
  intro ls
  induction ls with
  | nil =>
      intro h
      cases h
  | cons l ls ih =>
      intro ho ho'
      rw [senders, List.map_cons, List.mem_cons] at ho ho'
      by_cases h : l.sender = o.sender
      · have h' : l.sender ≠ o'.sender := fun heq => hne (h.symm.trans heq)
        rw [place, if_neg h', place, if_pos h, place, if_pos h, place, if_neg h']
      · by_cases h' : l.sender = o'.sender
        · rw [place, if_pos h', place, if_neg h, place, if_neg h, place, if_pos h']
        · rw [place, if_neg h', place, if_neg h, place, if_neg h, place, if_neg h']
          congr 1
          apply ih
          · exact ho.resolve_left fun heq => h heq.symm
          · exact ho'.resolve_left fun heq => h' heq.symm

theorem place_remove {o : Order} {sender : Address} (hne : o.sender ≠ sender) :
    ∀ {ls : List TxList}, o.sender ∈ senders ls →
      place o (remove sender ls) = remove sender (place o ls) := by
  intro ls
  induction ls with
  | nil =>
      intro h
      cases h
  | cons l ls ih =>
      intro ho
      rw [senders, List.map_cons, List.mem_cons] at ho
      by_cases h : l.sender = o.sender
      · have hs : l.sender ≠ sender := fun heq => hne (h.symm.trans heq)
        have hkeep : ∀ (k : TxList) (ks : List TxList), k.sender = l.sender →
            remove sender (k :: ks) = k :: remove sender ks := by
          intro k ks hk
          exact List.eraseP_cons_of_neg (by rw [hk]; simpa using hs)
        have hnew := hkeep { l with txs := l.txs.insert o.nonce o } ls rfl
        rw [hkeep l ls rfl, place, if_pos h, place, if_pos h, hnew]
      · by_cases hs : l.sender = sender
        · have hdrop : ∀ ks : List TxList, remove sender (l :: ks) = ks := fun ks =>
            List.eraseP_cons_of_pos (by simpa using hs)
          rw [hdrop, place, if_neg h, hdrop]
        · have hkeep : ∀ ks : List TxList, remove sender (l :: ks) = l :: remove sender ks :=
            fun ks => List.eraseP_cons_of_neg (by simpa using hs)
          rw [hkeep, place, if_neg h, place, if_neg h, hkeep,
            ih (ho.resolve_left fun heq => h heq.symm)]

theorem remove_comm {s s' : Address} (hne : s ≠ s') (ls : List TxList) :
    remove s (remove s' ls) = remove s' (remove s ls) := by
  apply List.eraseP_comm
  intro l _
  by_contra hboth
  rw [not_or, not_not, not_not, decide_eq_true_eq, decide_eq_true_eq] at hboth
  exact hne (hboth.2.symm.trans hboth.1)

def placed (a : ActiveOrders) (order : Order) : ActiveOrders :=
  { a with txLists := place order a.txLists }

theorem put_eq (a : ActiveOrders) (order : Order) : a.put order = .ok (a.placed order) := by
  rw [put, putIn_eq]
  rfl

end ActiveOrders

/-! ### The outcome of a result -/

namespace SimulatedOrder

/-- The result as it is kept, if the order can be included in this much gas. -/
def fitting (gas : Nat) (sim : SimulatedOrder) : Option ValidOrder :=
  sim.validOrder.filter fun v => decide (v.gasUsed ≤ gas)

/-- What an invalid result says of the nonce of the sender. -/
def learnt (sim : SimulatedOrder) : Option Nat :=
  match sim.executionResult with
  | .invalid (.nonceTooLow _ state) => some state
  | .invalid (.nonceTooHigh _ state) => some state
  | .invalid .capLessThanBaseFee => some sim.order.nonce
  | .invalid (.insufficientFunds _ _) => some sim.order.nonce
  | _ => none

def outOfGas (sim : SimulatedOrder) : Bool :=
  match sim.executionResult with
  | .invalid .notEnoughGas => true
  | _ => false

def outOfFunds (sim : SimulatedOrder) : Bool :=
  match sim.executionResult with
  | .invalid (.insufficientFunds _ _) => true
  | _ => false

def stateLost (sim : SimulatedOrder) : Bool :=
  match sim.executionResult with
  | .invalid (.stateIdNotFound _) => true
  | _ => false

theorem fitting_eq_some {gas : Nat} {sim : SimulatedOrder} {v : ValidOrder}
    (h : sim.fitting gas = some v) :
    sim.validOrder = some v ∧ v.gasUsed ≤ gas ∧ v.order = sim.order := by
  obtain ⟨hvalid, hgas⟩ := Option.filter_eq_some_iff.mp h
  exact ⟨hvalid, by simpa using hgas, (validOrder_eq_some hvalid).2.1⟩

/-- Only an invalid result removes the list of its sender. -/
theorem not_outOfFunds {gas : Nat} {sim : SimulatedOrder} {v : ValidOrder}
    (h : sim.fitting gas = some v) : sim.outOfFunds = false := by
  obtain ⟨-, -, -, hresult | hresult⟩ := validOrder_eq_some (fitting_eq_some h).1
  · simp only [outOfFunds, hresult]
  · simp only [outOfFunds, hresult]

end SimulatedOrder

def SortingNonces.learn (n : SortingNonces) (sim : SimulatedOrder) : SortingNonces :=
  match sim.learnt with
  | some nonce => n.insertState sim.order.sender nonce
  | none => n

/-- The active orders after a result, with the order that goes back. -/
def ActiveOrders.settled (a : ActiveOrders) (sim : SimulatedOrder) (back : Option Order) :
    ActiveOrders :=
  match back with
  | some order => a.placed order
  | none => if sim.outOfFunds then a.removeSender sim.order.sender else a

namespace SortData

variable {sd : SortData} {sim : SimulatedOrder}

/-- The best result so far, with this one. -/
def bestWith (sd : SortData) (sim : SimulatedOrder) : Option ValidOrder :=
  keep (·.builderPayment) sd.nextBest (sim.fitting sd.gasRemaining)

/-- The order that loses against the best result, and goes back. -/
def putBack (sd : SortData) (sim : SimulatedOrder) : Option Order :=
  (loser (·.builderPayment) sd.nextBest (sim.fitting sd.gasRemaining)).map (·.order)

/-- The block after a result for its current state. -/
def settled (sd : SortData) (sim : SimulatedOrder) : SortData :=
  { sd with
    inFlightSims := u64Sub sd.inFlightSims 1
    nonces := sd.nonces.learn sim
    sealFlag := sd.sealFlag || sim.outOfGas
    discardFlag := sd.discardFlag || sim.stateLost
    nextBest := sd.bestWith sim
    activeOrders := sd.activeOrders.settled sim (sd.putBack sim) }

theorem handleValid_eq {v : ValidOrder} (hvalid : sim.validOrder = some v) :
    sd.answered.handleValid v = .ok (sd.settled sim) := by
  obtain ⟨-, -, -, hresult⟩ := SimulatedOrder.validOrder_eq_some hvalid
  have hnonces : sd.nonces.learn sim = sd.nonces := by
    rcases hresult with h | h <;> simp only [SortingNonces.learn, SimulatedOrder.learnt, h]
  have hgasFlag : sim.outOfGas = false := by
    rcases hresult with h | h <;> simp only [SimulatedOrder.outOfGas, h]
  have hfunds : sim.outOfFunds = false := by
    rcases hresult with h | h <;> simp only [SimulatedOrder.outOfFunds, h]
  have hlost : sim.stateLost = false := by
    rcases hresult with h | h <;> simp only [SimulatedOrder.stateLost, h]
  have hsettled : sd.settled sim = { sd.answered with
      nextBest := sd.bestWith sim
      activeOrders := sd.activeOrders.settled sim (sd.putBack sim) } := by
    simp only [settled, hnonces, hgasFlag, hlost, Bool.or_false]
    rfl
  rw [hsettled]
  show (if sd.gasRemaining < v.gasUsed then _ else _) = _
  by_cases hgas : sd.gasRemaining < v.gasUsed
  · have hfit : sim.fitting sd.gasRemaining = none := by
      rw [SimulatedOrder.fitting, hvalid]
      simp [Option.filter, hgas]
    rw [if_pos hgas, putBack, bestWith, hfit, Confluence.loser_none, Confluence.keep_none]
    simp only [Option.map_none, ActiveOrders.settled, hfunds]
    rfl
  · have hfit : sim.fitting sd.gasRemaining = some v := by
      rw [SimulatedOrder.fitting, hvalid]
      simp [Option.filter, Nat.le_of_not_lt hgas]
    rw [if_neg hgas, putBack, bestWith, hfit]
    cases hnext : sd.nextBest with
    | none =>
        simp only [answered, hnext, keep, loser, Option.map_none, ActiveOrders.settled, hfunds]
        rfl
    | some best =>
        simp only [answered, hnext]
        by_cases hlt : best.builderPayment < v.builderPayment
        · simp only [keep, loser, if_pos hlt]
          show (do let activeOrders ← sd.activeOrders.put best.order; _) = _
          rw [ActiveOrders.put_eq]
          rfl
        · simp only [keep, loser, if_neg hlt]
          show (do let activeOrders ← sd.activeOrders.put v.order; _) = _
          rw [ActiveOrders.put_eq, ← hnext]
          rfl

theorem handleInvalid_eq {reason : InvalidReason}
    (hresult : sim.executionResult = .invalid reason) :
    sd.answered.handleInvalid sim.order reason = sd.settled sim := by
  have hfit : sim.fitting sd.gasRemaining = none := by
    simp only [SimulatedOrder.fitting, SimulatedOrder.validOrder, hresult, Option.filter_none]
  cases reason <;>
    simp [settled, answered, handleInvalid, putBack, bestWith, hfit, hresult,
      SortingNonces.learn, SimulatedOrder.learnt, SimulatedOrder.outOfGas,
      SimulatedOrder.outOfFunds, SimulatedOrder.stateLost, ActiveOrders.settled]

/-- **A result for the current state** has this outcome. -/
theorem handleSim_eq (hid : sd.stateId = sim.originStateId) :
    sd.handleSim sim = .ok (sd.settled sim) := by
  have hvalid : sd.isValid sim.originStateId = true := by simp [isValid, hid]
  simp only [handleSim, hvalid, Bool.not_true, Bool.false_eq_true, if_false]
  split
  · rename_i hresult
    exact handleValid_eq (by simp only [SimulatedOrder.validOrder, hresult])
  · rename_i hresult
    exact handleValid_eq (by simp only [SimulatedOrder.validOrder, hresult])
  · rename_i reason hresult
    exact congrArg Except.ok (handleInvalid_eq hresult)

theorem handleSim_stale (hid : sd.stateId ≠ sim.originStateId) : sd.handleSim sim = .ok sd := by
  have hvalid : sd.isValid sim.originStateId = false := by simp [isValid, hid]
  simp only [handleSim, hvalid, Bool.not_false, if_true]

/-- The result that is kept is the old one, or this one. -/
theorem bestWith_cases (sd : SortData) (sim : SimulatedOrder) :
    sd.bestWith sim = sd.nextBest ∨
      ∃ v, sim.fitting sd.gasRemaining = some v ∧ sd.bestWith sim = some v := by
  cases hfit : sim.fitting sd.gasRemaining with
  | none =>
      rw [bestWith, hfit]
      exact Or.inl (Confluence.keep_none sd.nextBest)
  | some v =>
      rw [bestWith, hfit]
      exact (Confluence.keep_eq_or sd.nextBest (some v)).imp id fun hkeep => ⟨v, rfl, hkeep⟩

/-- The order that goes back is that of the old best result, or this result's,
which fits. -/
theorem putBack_cases {order : Order} (h : sd.putBack sim = some order) :
    (sim.fitting sd.gasRemaining).isSome ∧
      ((∃ best, sd.nextBest = some best ∧ best.order = order) ∨ sim.order = order) := by
  obtain ⟨c, hc, rfl⟩ := Option.map_eq_some_iff.mp h
  obtain ⟨hfit, hbest | hnew⟩ := Confluence.loser_eq_some hc
  · exact ⟨hfit, Or.inl ⟨c, hbest, rfl⟩⟩
  · exact ⟨hfit, Or.inr (SimulatedOrder.fitting_eq_some hnew).2.2.symm⟩

end SortData

end TaikoGateway
