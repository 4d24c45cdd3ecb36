/-
TaikoGateway/NewBlock.lean

The pool after a sealed block.

`update_new_block` merges two maps into the nonce cache, in one of two ways.
What it does to one sender is the same either way: the cache has what sorting
knows of the sender, and otherwise at most what it had, and the list of the
sender is forwarded to what sorting knows (`get_updateNewBlock`,
`getElem?_updateNewBlock`).

With an honest simulator what sorting knows are account nonces (`Learnt`), so
the cache is right after the block, except for the sender of the anchor: no
order of the block is the anchor, and a nonce of its sender that is already
cached stays as it is (`updateNewBlock_iff`).
-/
import TaikoGateway.Lib.KeyedFold
import TaikoGateway.Loop
import TaikoGateway.SortRun

namespace TaikoGateway

/-! ### The update, sender by sender -/

/-- What is left of a list behind the nonce, if anything is. -/
def forwarded (l : Option TxList) (nonce : Nat) : Option TxList :=
  (l.map fun l => l.forward nonce).filter fun l => !l.isEmpty

/-- The order of the sender at this nonce. -/
def orderAt (l : Option TxList) (nonce : Nat) : Option Order := l.bind fun l => l.txs[nonce]?

theorem TxList.isEmpty_iff {l : TxList} : l.isEmpty = true ↔ ∀ k : Nat, l.txs[k]? = none := by
  rw [isEmpty, Std.ExtTreeMap.isEmpty_iff]
  constructor
  · intro h k
    rw [h]
    exact Std.ExtTreeMap.getElem?_empty
  · intro h
    exact Std.ExtTreeMap.ext_getElem? fun k => (h k).trans Std.ExtTreeMap.getElem?_empty.symm

theorem TxList.getElem?_forward (l : TxList) (nonce k : Nat) :
    (l.forward nonce).txs[k]? = if k < nonce then none else l.txs[k]? := by
  show (l.txs.filter fun k _ => decide (nonce ≤ k))[k]? = _
  rw [Std.ExtTreeMap.getElem?_filter']
  by_cases hk : k < nonce
  · rw [if_pos hk, Option.filter_eq_none_iff]
    intro o _
    simpa using hk
  · rw [if_neg hk]
    cases l.txs[k]? with
    | none => rfl
    | some o => simp [Option.filter, Nat.le_of_not_lt hk]

theorem orderAt_forwarded (l : Option TxList) (nonce k : Nat) :
    orderAt (forwarded l nonce) k = if k < nonce then none else orderAt l k := by
  cases l with
  | none => simp [orderAt, forwarded]
  | some l =>
      have hforward := l.getElem?_forward nonce k
      cases hempty : (l.forward nonce).isEmpty with
      | true =>
          rw [TxList.isEmpty_iff.mp hempty k] at hforward
          simpa [orderAt, forwarded, Option.filter, hempty] using hforward
      | false => simpa [orderAt, forwarded, Option.filter, hempty] using hforward

theorem forwarded_forwarded (l : Option TxList) {n m : Nat} (hle : n ≤ m) :
    forwarded (forwarded l n) m = forwarded l m := by
  cases l with
  | none => rfl
  | some l =>
      have htwice : (l.forward n).forward m = l.forward m := by
        have htxs : ((l.forward n).forward m).txs = (l.forward m).txs := by
          apply Std.ExtTreeMap.ext_getElem?
          intro k
          rw [TxList.getElem?_forward, TxList.getElem?_forward, TxList.getElem?_forward]
          by_cases hk : k < m
          · rw [if_pos hk, if_pos hk]
          · rw [if_neg hk, if_neg hk, if_neg (by omega)]
        exact congrArg (TxList.mk l.sender) htxs
      cases hempty : (l.forward n).isEmpty with
      | false => simp [forwarded, Option.filter, hempty, htwice]
      | true =>
          have hm : (l.forward m).isEmpty = true := by
            rw [TxList.isEmpty_iff] at hempty ⊢
            intro k
            rw [← htwice, TxList.getElem?_forward, hempty k, ite_self]
          simp [forwarded, Option.filter, hempty, hm]

theorem StateNonces.get_insert (n : StateNonces) (sender : Address) (nonce : Nat) (a : Address) :
    (n.insert sender nonce).get a = if sender = a then some nonce else n.get a := by
  show (n.nonces.insert sender nonce)[a]? = _
  rw [Std.ExtTreeMap.getElem?_insert]
  by_cases ha : sender = a
  · rw [if_pos ha, if_pos (by simpa using ha)]
  · rw [if_neg ha, if_neg (by simpa using ha)]
    rfl

/-- State nonces are replaced by those of the block. -/
theorem SortingNonces.get_allMerged (n : SortingNonces) (a : Address) :
    n.allMerged.get a = n.getNonce a := by
  have hlocal : KeyedFold.Local StateNonces.get (fun v _ => some v)
      (fun (s : StateNonces) (e : Address × Nat) => s.insert e.1 e.2) :=
    fun s e k => s.get_insert e.1 e.2 k
  rw [allMerged, hlocal.get_foldl_toList, getNonce]
  show ((n.sorting.get a).map _).getD _ = _
  cases n.sorting.get a <;> rfl

theorem SortingNonces.validBlock_allMerged (n : SortingNonces) :
    n.allMerged.validBlock = n.validBlock := by
  have hfold : ∀ (es : List (Address × Nat)) (s : StateNonces),
      (es.foldl (fun s e => s.insert e.1 e.2) s).validBlock = s.validBlock := by
    intro es
    induction es with
    | nil => exact fun s => rfl
    | cons e es ih => exact fun s => ih (s.insert e.1 e.2)
  exact hfold _ n.state

/-- Folding over a nonce map updates at each sender what the map has of it. -/
theorem StateNonces.get_foldl {σ α : Type*} {get : σ → Address → α} {upd : Nat → α → α}
    {step : σ → Address × Nat → σ} (h : KeyedFold.Local get upd step) (n : StateNonces) (s : σ)
    (a : Address) :
    get (n.nonces.toList.foldl step s) a =
      ((n.get a).map fun v => upd v (get s a)).getD (get s a) :=
  h.get_foldl_toList n.nonces s a

namespace TxPool

def listOf (p : TxPool) (a : Address) : Option TxList := p.txLists[a]?

def cached (p : TxPool) (a : Address) : Option Nat := p.nonces.get a

theorem forwardSender_nonces (p : TxPool) (sender : Address) (nonce : Nat) :
    (p.forwardSender sender nonce).nonces = p.nonces := by
  unfold forwardSender
  split <;> rfl

theorem forwardSender_lists : KeyedFold.Local listOf (fun v l => forwarded l v)
    (fun p (e : Address × Nat) => p.forwardSender e.1 e.2) :=
  fun p e a => getElem?_forwardSender p e.1 e.2 a

theorem foldl_forwardSender_nonces (es : List (Address × Nat)) (p : TxPool) :
    (es.foldl (fun p e => p.forwardSender e.1 e.2) p).nonces = p.nonces := by
  induction es generalizing p with
  | nil => rfl
  | cons e es ih =>
      rw [List.foldl_cons, ih]
      exact forwardSender_nonces p e.1 e.2

/-- One entry, while the caches are merged. -/
def mergeEntry (p : TxPool) (entry : Address × Nat) : TxPool :=
  ({ p with nonces := p.nonces.insert entry.1 entry.2 }).forwardSender entry.1 entry.2

theorem mergeEntry_get : KeyedFold.Local cached (fun v _ => some v) mergeEntry := by
  intro p e a
  rw [cached, mergeEntry, forwardSender_nonces]
  exact p.nonces.get_insert e.1 e.2 a

theorem mergeEntry_lists : KeyedFold.Local listOf (fun v l => forwarded l v) mergeEntry :=
  fun p e a => getElem?_forwardSender { p with nonces := p.nonces.insert e.1 e.2 } e.1 e.2 a

theorem foldl_mergeEntry_validBlock (es : List (Address × Nat)) (p : TxPool) :
    (es.foldl mergeEntry p).nonces.validBlock = p.nonces.validBlock := by
  induction es generalizing p with
  | nil => rfl
  | cons e es ih =>
      rw [List.foldl_cons, ih, mergeEntry, forwardSender_nonces]
      rfl

/-- The pool with the caches merged, before the block number goes up. -/
def merged (p : TxPool) (n : SortingNonces) : TxPool :=
  if p.nonces.validBlock = n.validBlock then n.allIter.foldl mergeEntry p
  else n.allMerged.nonces.toList.foldl (fun p e => p.forwardSender e.1 e.2)
    { p with nonces := n.allMerged }

theorem updateNewBlock_eq (p : TxPool) (n : SortingNonces) :
    p.updateNewBlock n = { p.merged n with
      nonces := { (p.merged n).nonces with validBlock := (p.merged n).nonces.validBlock + 1 } } :=
  rfl

theorem validBlock_updateNewBlock (p : TxPool) (n : SortingNonces) :
    (p.updateNewBlock n).nonces.validBlock = n.validBlock + 1 := by
  have hmerged : (p.merged n).nonces.validBlock = n.validBlock := by
    rw [merged]
    split
    · rename_i hsame
      rw [foldl_mergeEntry_validBlock, hsame]
    · rw [foldl_forwardSender_nonces]
      exact n.validBlock_allMerged
  rw [updateNewBlock_eq, hmerged]

/-- The cache has what sorting knows, and what it had if that was for the same
block. -/
theorem cached_updateNewBlock (p : TxPool) (n : SortingNonces) (a : Address) :
    (p.updateNewBlock n).cached a =
      if p.nonces.validBlock = n.validBlock then (n.getNonce a).or (p.cached a)
      else n.getNonce a := by
  show (p.merged n).cached a = _
  rw [merged]
  split
  · rw [SortingNonces.allIter, List.foldl_append, StateNonces.get_foldl mergeEntry_get,
      StateNonces.get_foldl mergeEntry_get, SortingNonces.getNonce]
    cases n.sorting.get a <;> cases n.state.get a <;> rfl
  · rw [cached, foldl_forwardSender_nonces]
    exact n.get_allMerged a

/-- The lists are forwarded to what sorting knows, as long as it has learnt no
nonce of a sender beyond that after the sender's orders. -/
theorem listOf_updateNewBlock (p : TxPool) {n : SortingNonces}
    (hle : ∀ a x y, n.state.get a = some x → n.sorting.get a = some y → x ≤ y) (a : Address) :
    (p.updateNewBlock n).listOf a =
      ((n.getNonce a).map fun m => forwarded (p.listOf a) m).getD (p.listOf a) := by
  show (p.merged n).listOf a = _
  rw [merged]
  split
  · rw [SortingNonces.allIter, List.foldl_append, StateNonces.get_foldl mergeEntry_lists,
      StateNonces.get_foldl mergeEntry_lists, SortingNonces.getNonce]
    cases hy : n.sorting.get a with
    | none => cases n.state.get a <;> rfl
    | some y =>
        cases hx : n.state.get a with
        | none => rfl
        | some x => exact forwarded_forwarded _ (hle a x y hx hy)
  · rw [StateNonces.get_foldl forwardSender_lists, n.get_allMerged]
    rfl

end TxPool

/-! ### An honest simulator -/

/-- The account nonces after a tx of the sender. -/
def advance (accounts : Address → Nat) (sender : Address) : Address → Nat :=
  Function.update accounts sender (accounts sender + 1)

theorem advance_apply (accounts : Address → Nat) (sender a : Address) :
    advance accounts sender a = if a = sender then accounts sender + 1 else accounts a :=
  Function.update_apply accounts sender _ a

/-- The result agrees with the account nonces of the states: nonce errors
report them, the other errors and the inclusion happen at the nonce of the
account only, and the inclusion advances only the sender's. -/
structure HonestResult (accounts : StateId → Address → Nat) (sim : SimulatedOrder) : Prop where
  nonceTooLow : ∀ tx state, sim.executionResult = .invalid (.nonceTooLow tx state) →
    state = accounts sim.originStateId sim.order.sender
  nonceTooHigh : ∀ tx state, sim.executionResult = .invalid (.nonceTooHigh tx state) →
    state = accounts sim.originStateId sim.order.sender
  fee : sim.executionResult = .invalid .capLessThanBaseFee →
    sim.order.nonce = accounts sim.originStateId sim.order.sender
  funds : ∀ have_ want, sim.executionResult = .invalid (.insufficientFunds have_ want) →
    sim.order.nonce = accounts sim.originStateId sim.order.sender
  included : ∀ v, sim.validOrder = some v →
    sim.order.nonce = accounts sim.originStateId sim.order.sender ∧
      accounts v.newStateId = advance (accounts sim.originStateId) sim.order.sender

/-- What sorting knows agrees with the accounts: `before` are the nonces of the
state after the anchor. -/
structure Learnt (accounts : StateId → Address → Nat) (before : Address → Nat) (sd : SortData) :
    Prop where
  sorting : ∀ a n, sd.nonces.sorting.get a = some n → n = accounts sd.stateId a
  /-- no order of the sender is in the block -/
  untouched : ∀ a, sd.nonces.sorting.get a = none → accounts sd.stateId a = before a
  state : ∀ a n, sd.nonces.state.get a = some n → n ≤ accounts sd.stateId a ∧
    (sd.nonces.sorting.get a = none → n = accounts sd.stateId a)
  best : ∀ v, sd.nextBest = some v →
    v.order.nonce = accounts v.originStateId v.order.sender ∧
      accounts v.newStateId = advance (accounts v.originStateId) v.order.sender
  validBlock : sd.nonces.validBlock = sd.blockInfo.blockNumber

namespace Learnt

variable {accounts : StateId → Address → Nat} {before : Address → Nat} {sd sd' : SortData}
  {config : SequencerConfig}

theorem new (blockInfo : BlockInfo) (anchorStateId : StateId) (active : ActiveOrders)
    (gasLimit targetBlockTime maxBlockSize : Nat) (config : SequencerConfig) (now : Instant) :
    Learnt accounts (accounts anchorStateId)
      (.new blockInfo anchorStateId active gasLimit targetBlockTime maxBlockSize config now) := by
  have hnone : ∀ a, (StateNonces.new blockInfo.blockNumber).get a = none :=
    fun a => Std.ExtTreeMap.getElem?_empty
  refine ⟨fun a n h => ?_, fun a _ => rfl, fun a n h => ?_, fun v hv => (by cases hv), rfl⟩
  · cases (hnone a).symm.trans h
  · cases (hnone a).symm.trans h

theorem getNonce (h : Learnt accounts before sd) {a : Address} {n : Nat}
    (hn : sd.nonces.getNonce a = some n) : n = accounts sd.stateId a := by
  rw [SortingNonces.getNonce] at hn
  cases hs : sd.nonces.sorting.get a with
  | some m =>
      rw [hs] at hn
      cases hn
      exact h.sorting a n hs
  | none =>
      rw [hs] at hn
      exact (h.state a n hn).2 hs

theorem untouched_of_getNonce (h : Learnt accounts before sd) {a : Address}
    (hn : sd.nonces.getNonce a = none) : accounts sd.stateId a = before a :=
  h.untouched a (Option.or_eq_none_iff.mp hn).1

theorem state_le (h : Learnt accounts before sd) (a : Address) (x y : Nat)
    (hx : sd.nonces.state.get a = some x) (hy : sd.nonces.sorting.get a = some y) : x ≤ y := by
  rw [h.sorting a y hy]
  exact (h.state a x hx).1

/-- Fields that do not matter may change. -/
theorem congr (h : Learnt accounts before sd) (hinfo : sd'.blockInfo = sd.blockInfo)
    (hid : sd'.stateId = sd.stateId) (hnonces : sd'.nonces = sd.nonces)
    (hbest : ∀ v, sd'.nextBest = some v →
      v.order.nonce = accounts v.originStateId v.order.sender ∧
        accounts v.newStateId = advance (accounts v.originStateId) v.order.sender) :
    Learnt accounts before sd' := by
  refine ⟨?_, ?_, ?_, hbest, ?_⟩
  · rw [hnonces, hid]
    exact h.sorting
  · rw [hnonces, hid]
    exact h.untouched
  · rw [hnonces, hid]
    exact h.state
  · rw [hnonces, hinfo]
    exact h.validBlock

/-- Sorting learns the nonce of an account. -/
theorem insertState (h : Learnt accounts before sd) {sender : Address} {nonce : Nat}
    (hnonce : nonce = accounts sd.stateId sender) :
    Learnt accounts before { sd with nonces := sd.nonces.insertState sender nonce } := by
  refine ⟨h.sorting, h.untouched, fun a n hn => ?_, h.best, h.validBlock⟩
  have hget : (sd.nonces.state.insert sender nonce).get a = some n := hn
  rw [StateNonces.get_insert] at hget
  split at hget
  · rename_i ha
    cases hget
    cases ha
    exact ⟨hnonce.le, fun _ => hnonce⟩
  · exact h.state a n hget

theorem newTx {order : Order} (h : Learnt accounts before sd)
    (hstep : sd.handleNewTx order = .ok sd') : Learnt accounts before sd' := by
  rcases SortData.handleNewTx_cases hstep with rfl | ⟨activeOrders, -, rfl⟩
  · exact h
  · exact h.congr rfl rfl rfl h.best

theorem answer {sim : SimulatedOrder} (h : Learnt accounts before sd)
    (hhonest : HonestResult accounts sim) (hstep : sd.handleSim sim = .ok sd') :
    Learnt accounts before sd' := by
  rcases SortData.handleSim_cases hstep with - | ⟨reason, hid, hresult⟩ | ⟨-, -, -⟩ |
    ⟨activeOrders, -, hvalid, -, -⟩ | ⟨activeOrders, -, -, -⟩
  · exact h
  · have hanswered : Learnt accounts before sd.answered := h.congr rfl rfl rfl h.best
    have hid' : sd.answered.stateId = sim.originStateId := hid
    -- a nonce error reports the account nonce; a fee or funds error comes at it only
    cases reason with
    | nonceTooLow tx state =>
        exact hanswered.insertState (by rw [hid']; exact hhonest.nonceTooLow tx state hresult)
    | nonceTooHigh tx state =>
        exact hanswered.insertState (by rw [hid']; exact hhonest.nonceTooHigh tx state hresult)
    | capLessThanBaseFee =>
        exact hanswered.insertState (by rw [hid']; exact hhonest.fee hresult)
    | insufficientFunds have_ want =>
        have hfunds : sim.order.nonce = accounts sd.answered.stateId sim.order.sender := by
          rw [hid']
          exact hhonest.funds have_ want hresult
        exact (hanswered.insertState hfunds).congr rfl rfl rfl h.best
    | notEnoughGas => exact hanswered.congr rfl rfl rfl h.best
    | stateIdNotFound state => exact hanswered.congr rfl rfl rfl h.best
    | uknown reason => exact hanswered
  · exact h.congr rfl rfl rfl h.best
  -- the answer becomes the best one: it was simulated at the account nonce
  · refine h.congr rfl rfl rfl fun v hv => ?_
    cases hv
    obtain ⟨horigin, horder, -, -⟩ := SimulatedOrder.validOrder_eq_some hvalid
    rw [horigin, horder]
    exact hhonest.included _ hvalid
  · exact h.congr rfl rfl rfl h.best

/-- Applying a result advances the nonce of its sender, in the state and in the
map. -/
theorem apply (h : Learnt accounts before sd) (hstep : SortData.ApplyStep config sd sd') :
    Learnt accounts before sd' := by
  cases hstep with
  | nothing hbest => exact h
  | applied next hbest horigin hgas =>
      -- the applied result was simulated on the current state
      obtain ⟨hnonce, hadvance⟩ := h.best next hbest
      rw [horigin] at hnonce hadvance
      have hget : ∀ a, (sd.withApplied config next).nonces.sorting.get a =
          if next.order.sender = a then some (next.order.nonce + 1)
          else sd.nonces.sorting.get a :=
        fun a => sd.nonces.sorting.get_insert _ _ a
      have haccounts : ∀ a, accounts (sd.withApplied config next).stateId a =
          if a = next.order.sender then accounts sd.stateId next.order.sender + 1
          else accounts sd.stateId a := by
        intro a
        show accounts next.newStateId a = _
        rw [hadvance, advance_apply]
      refine ⟨fun a n hn => ?_, fun a hn => ?_, fun a n hn => ?_, fun v hv => (by cases hv),
        h.validBlock⟩
      · rw [hget] at hn
        rw [haccounts]
        split at hn
        · rename_i ha
          cases hn
          rw [if_pos ha.symm, hnonce]
        · rename_i ha
          rw [if_neg (Ne.symm ha)]
          exact h.sorting a n hn
      · rw [hget] at hn
        rw [haccounts]
        split at hn
        · cases hn
        · rename_i ha
          rw [if_neg (Ne.symm ha)]
          exact h.untouched a hn
      -- a learnt nonce may now lie below the account nonce, but then the applied one hides it
      · obtain ⟨hle, heq⟩ := h.state a n hn
        rw [hget, haccounts]
        by_cases ha : a = next.order.sender
        · rw [if_pos ha, if_pos ha.symm]
          rw [ha] at hle
          exact ⟨Nat.le_succ_of_le hle, fun hnone => by cases hnone⟩
        · rw [if_neg ha, if_neg (Ne.symm ha)]
          exact ⟨hle, heq⟩

theorem round {now : Instant} {sent : List Order} (h : Learnt accounts before sd)
    (hstep : sd.maybeSimNextBatch config now = .ok (sd', sent)) : Learnt accounts before sd' := by
  cases SortData.maybeSimNextBatch_step hstep with
  | idle hidle => exact h
  | waiting hidle happly hwait => exact h.apply happly
  | sent hidle happly hwait =>
      have happlied := h.apply happly
      exact happlied.congr rfl rfl rfl happlied.best

theorem setShouldSeal (h : Learnt accounts before sd) : Learnt accounts before sd.setShouldSeal :=
  h.congr rfl rfl rfl h.best

end Learnt

namespace SortHistory

variable {accounts : StateId → Address → Nat} {before : Address → Nat} {config : SequencerConfig}

/-- The result in this event, if there is one, is honest. -/
def HonestEvent (accounts : StateId → Address → Nat) (e : SortEvent) : Prop :=
  ∀ sim, e = .sim sim → HonestResult accounts sim

/-- What sorting knows of the accounts, for a block with this number. -/
def LearntFor (accounts : StateId → Address → Nat) (before : Address → Nat) (blockNumber : Nat)
    (h : SortHistory) : Prop :=
  Learnt accounts before h.sd ∧ h.sd.blockInfo.blockNumber = blockNumber

theorem LearntFor.step {blockNumber : Nat} {h h' : SortHistory} {e : SortEvent}
    (hs : LearntFor accounts before blockNumber h) (hhonest : HonestEvent accounts e)
    (hstep : h.step config e = .ok h') : LearntFor accounts before blockNumber h' := by
  obtain ⟨hlearnt, hnumber⟩ := hs
  cases e with
  | newTx order =>
      obtain ⟨sd, hsd, hok⟩ := Except.bind_eq_ok_iff.mp hstep
      cases hok
      refine ⟨hlearnt.newTx hsd, ?_⟩
      rwa [(SortData.handleNewTx_same hsd).1.blockInfo]
  | sim sim =>
      obtain ⟨sd, hsd, hok⟩ := Except.bind_eq_ok_iff.mp hstep
      cases hok
      refine ⟨hlearnt.answer (hhonest sim rfl) hsd, ?_⟩
      rwa [(SortData.handleSim_same hsd).1.blockInfo]
  | round now =>
      obtain ⟨⟨sd, orders⟩, hsd, hok⟩ := Except.bind_eq_ok_iff.mp hstep
      cases hok
      refine ⟨hlearnt.round hsd, ?_⟩
      rwa [SortData.maybeSimNextBatch_blockInfo hsd]
  | sealEarly =>
      cases hstep
      exact ⟨hlearnt.setShouldSeal, hnumber⟩

end SortHistory

/-! ### The pool after the block -/

/-- The pool is up to date with a block of this number that leaves these
account nonces: the cache is for the next block and right, the senders that
sorting knows of have lost the orders their nonce has passed, and no list is
empty. -/
structure Updated (accounts : Address → Nat) (blockNumber : Nat) (n : SortingNonces)
    (p q : TxPool) : Prop where
  validBlock : q.nonces.validBlock = blockNumber + 1
  cached : ∀ a k, q.cached a = some k → k = accounts a
  removed : ∀ a m, n.getNonce a = some m → ∀ k,
    orderAt (q.listOf a) k = if k < accounts a then none else orderAt (p.listOf a) k
  kept : ∀ a, n.getNonce a = none → ∀ k, orderAt (q.listOf a) k = orderAt (p.listOf a) k
  nonempty : ∀ a l, q.listOf a = some l → l.isEmpty = false

/-- The cache, where it is for this block, has the nonces of the parent. -/
def TxPool.CacheCorrect (p : TxPool) (blockNumber : Nat) (parent : Address → Nat) : Prop :=
  p.nonces.validBlock = blockNumber → ∀ a k, p.cached a = some k → k = parent a

/-- A cached nonce of the anchor's sender is one that sorting has learnt too. -/
def TxPool.AnchorLearnt (p : TxPool) (n : SortingNonces) (blockNumber : Nat) : Prop :=
  p.nonces.validBlock = blockNumber → p.cached goldenTouchAddress ≠ none →
    n.getNonce goldenTouchAddress ≠ none

instance (p : TxPool) (n : SortingNonces) (blockNumber : Nat) :
    Decidable (p.AnchorLearnt n blockNumber) :=
  inferInstanceAs (Decidable (_ → _ → _))

/-- The cache after the update. -/
theorem Learnt.cached_updateNewBlock {accounts : StateId → Address → Nat} {parent : Address → Nat}
    {sd : SortData} (h : Learnt accounts (advance parent goldenTouchAddress) sd) {p : TxPool}
    (hcache : p.CacheCorrect sd.blockInfo.blockNumber parent)
    (hanchor : p.AnchorLearnt sd.nonces sd.blockInfo.blockNumber) {a : Address} {k : Nat}
    (hk : (p.updateNewBlock sd.nonces).cached a = some k) : k = accounts sd.stateId a := by
  rw [p.cached_updateNewBlock, h.validBlock] at hk
  cases hknown : sd.nonces.getNonce a with
  | some m =>
      rw [hknown] at hk
      rw [← h.getNonce hknown]
      split at hk
      · cases hk
        rfl
      · cases hk
        rfl
  | none =>
      rw [hknown] at hk
      split at hk
      · rename_i hsame
        -- the sender is not that of the anchor, and has no order in the block
        have hk : p.cached a = some k := hk
        have ha : a ≠ goldenTouchAddress := by
          rintro rfl
          exact hanchor hsame (by rw [hk]; simp) hknown
        rw [h.untouched_of_getNonce hknown, advance_apply, if_neg ha]
        exact hcache hsame a k hk
      · cases hk

/-- Only the nonce of the anchor's sender can be wrong after the update. -/
theorem Learnt.updated_iff {accounts : StateId → Address → Nat} {parent : Address → Nat}
    {sd : SortData} (h : Learnt accounts (advance parent goldenTouchAddress) sd) {p : TxPool}
    (hpool : p.WellFormed) (hcache : p.CacheCorrect sd.blockInfo.blockNumber parent) :
    Updated (accounts sd.stateId) sd.blockInfo.blockNumber sd.nonces p
        (p.updateNewBlock sd.nonces) ↔
      p.AnchorLearnt sd.nonces sd.blockInfo.blockNumber := by
  constructor
  -- the kept entry is the nonce before the anchor, one below the one after it
  · intro hupdated hsame hsome hnone
    obtain ⟨k, hk⟩ := Option.ne_none_iff_exists'.mp hsome
    have hkept : (p.updateNewBlock sd.nonces).cached goldenTouchAddress = some k := by
      rw [p.cached_updateNewBlock, h.validBlock, if_pos hsame, hnone, hk]
      rfl
    have hafter := hupdated.cached goldenTouchAddress k hkept
    rw [h.untouched_of_getNonce hnone, advance_apply, if_pos rfl,
      hcache hsame goldenTouchAddress k hk] at hafter
    omega
  · intro hanchor
    refine ⟨?_, fun a k hk => h.cached_updateNewBlock hcache hanchor hk, fun a m hm k => ?_,
      fun a hnone k => ?_, ?_⟩
    · rw [p.validBlock_updateNewBlock, h.validBlock]
    · rw [p.listOf_updateNewBlock h.state_le, hm, ← h.getNonce hm]
      exact orderAt_forwarded (p.listOf a) m k
    · rw [p.listOf_updateNewBlock h.state_le, hnone]
      rfl
    · exact (hpool.updateNewBlock sd.nonces).nonempty

namespace SortHistory

/-- **The pool after a block.**  Let the pool cache be right for the parent,
where it is for this block, and let the block be sorted with an honest
simulator from the state after its anchor.  Then `update_new_block` leaves the
pool up to date with the state of the block, unless the cache has a nonce of
the anchor's sender that sorting has not learnt. -/
theorem updateNewBlock_iff (config : SequencerConfig) (accounts : StateId → Address → Nat)
    (parent : Address → Nat) {p : TxPool} (hpool : p.Reachable) (blockInfo : BlockInfo)
    (anchorStateId : StateId) (active : ActiveOrders)
    (gasLimit targetBlockTime maxBlockSize now : Nat) {pending : List Spawned}
    {used : List StateId} {es : List SortEvent} {h₀ h : SortHistory}
    (hstart : h₀ = .start (.new blockInfo anchorStateId active gasLimit targetBlockTime
      maxBlockSize config now) pending used)
    (hanchor : accounts anchorStateId = advance parent goldenTouchAddress)
    (hcache : p.CacheCorrect blockInfo.blockNumber parent)
    (hhonest : ∀ e ∈ es, HonestEvent accounts e) (hrun : es.foldlM (step config) h₀ = .ok h) :
    Updated (accounts h.sd.stateId) blockInfo.blockNumber h.sd.nonces p
        (p.updateNewBlock h.sd.nonces) ↔
      p.AnchorLearnt h.sd.nonces blockInfo.blockNumber := by
  subst hstart
  have hinit : LearntFor accounts (advance parent goldenTouchAddress) blockInfo.blockNumber
      (.start (.new blockInfo anchorStateId active gasLimit targetBlockTime maxBlockSize config
        now) pending used) := by
    refine ⟨?_, rfl⟩
    rw [← hanchor]
    exact .new blockInfo anchorStateId active gasLimit targetBlockTime maxBlockSize config now
  obtain ⟨hlearnt, hnumber⟩ := Run.run_invariant
    (LearntFor accounts (advance parent goldenTouchAddress) blockInfo.blockNumber) es
    (fun e he _ _ hs hstep => hs.step (hhonest e he) hstep) hinit hrun
  rw [← hnumber] at hcache ⊢
  exact hlearnt.updated_iff hpool.wellFormed hcache

section Sample

open Sample

/-- Nonces at block 10: 7 of the anchor's sender, 3 of sender 6. -/
def parentNonces (a : Address) : Nat :=
  if a = goldenTouchAddress then 7 else if a = 6 then 3 else 0

/-- State 20 is after the anchor of block 11, state 21 after a tx of sender 5. -/
def blockNonces : StateId → Address → Nat
  | 21 => advance (advance parentNonces goldenTouchAddress) 5
  | _ => advance parentNonces goldenTouchAddress

/-- The pool with this tx. -/
def withTx (p : TxPool) (tx : Order) : TxPool := (p.put tx 10).toOption.getD p

theorem withTx_reachable {p : TxPool} (h : p.Reachable) (tx : Order) : (withTx p tx).Reachable := by
  cases hput : p.put tx 10 with
  | error e =>
      rw [withTx, hput]
      exact h
  | ok q =>
      rw [withTx, hput]
      exact h.put tx 10 hput

/-- A pool that has learnt a nonce while block 10 was sorted. -/
def poolKnowing (sender nonce : Nat) : TxPool :=
  TxPool.new.updateNewBlock ((SortingNonces.new 10).insertState sender nonce)

theorem poolKnowing_reachable (sender nonce : Nat) : (poolKnowing sender nonce).Reachable :=
  .updateNewBlock _ .new

theorem poolKnowing_correct {sender nonce : Nat} (hnonce : nonce = parentNonces sender) :
    (poolKnowing sender nonce).CacheCorrect 11 parentNonces := by
  intro _ a k hk
  have hother : ¬ TxPool.new.nonces.validBlock =
      ((SortingNonces.new 10).insertState sender nonce).validBlock := (by decide : ¬ 0 = 10)
  rw [poolKnowing, TxPool.cached_updateNewBlock, if_neg hother] at hk
  have hget : ((StateNonces.new 10).insert sender nonce).get a = some k := by
    cases hs : (StateNonces.new 10).get a with
    | none =>
        simpa [SortingNonces.getNonce, SortingNonces.insertState, SortingNonces.new, hs] using hk
    | some n => cases hs.symm.trans Std.ExtTreeMap.getElem?_empty
  rw [StateNonces.get_insert] at hget
  split at hget
  · rename_i ha
    cases hget
    rw [hnonce, ha]
  · cases hget.symm.trans Std.ExtTreeMap.getElem?_empty

/-- Block 11 after its anchor. -/
def block11 : SortHistory :=
  .start (.new ⟨⟨100, 0, 0⟩, 11, 1, 10⟩ 20 .empty 1000000 2000 1000 Sample.config 0) [] []

/-- Block 11 with one of two txs of sender 5. -/
def block11Events : List SortEvent :=
  [ .newTx (senderTx 5 0),
    .newTx (senderTx 5 1),
    .round 1,
    .sim ⟨20, .success 21 21000 1, senderTx 5 0⟩,
    .round 2 ]

theorem honest_block11Events : ∀ e ∈ block11Events, HonestEvent blockNonces e := by
  intro e he sim hsim
  simp only [block11Events, List.mem_cons, List.not_mem_nil, or_false] at he
  rcases he with rfl | rfl | rfl | rfl | rfl
  case inr.inr.inr.inl =>
    cases hsim
    refine ⟨fun _ _ h => (by cases h), fun _ _ h => (by cases h), fun h => (by cases h),
      fun _ _ h => (by cases h), fun v hv => ?_⟩
    cases hv
    exact ⟨rfl, rfl⟩
  all_goals cases hsim

/-- After block 11 the pool has lost the tx that is in the block, and only
that. -/
theorem updateNewBlock_iff_sample :
    ∃ h, block11Events.foldlM (step Sample.config) block11 = .ok h ∧ h.sd.orders = [senderTx 5 0] ∧
      Updated (blockNonces h.sd.stateId) 11 h.sd.nonces
        (withTx (withTx (poolKnowing 6 3) (senderTx 5 0)) (senderTx 5 1))
        ((withTx (withTx (poolKnowing 6 3) (senderTx 5 0)) (senderTx 5 1)).updateNewBlock
          h.sd.nonces) := by
  have horders : (block11Events.foldlM (step Sample.config) block11).toOption.map
      (fun h => h.sd.orders) = some [senderTx 5 0] := by
    decide +kernel
  obtain ⟨h, hrun, horders⟩ := Option.map_eq_some_iff.mp horders
  have hrun := Except.toOption_eq_some_iff.mp hrun
  have hpool := withTx_reachable (withTx_reachable (poolKnowing_reachable 6 3) (senderTx 5 0))
    (senderTx 5 1)
  have hsame : (withTx (withTx (poolKnowing 6 3) (senderTx 5 0)) (senderTx 5 1)).nonces =
      (poolKnowing 6 3).nonces := rfl
  have hcache : (withTx (withTx (poolKnowing 6 3) (senderTx 5 0)) (senderTx 5 1)).CacheCorrect 11
      parentNonces := by
    intro hvalid a k hk
    rw [hsame] at hvalid
    rw [TxPool.cached, hsame] at hk
    exact poolKnowing_correct rfl hvalid a k hk
  have hanchor : (withTx (withTx (poolKnowing 6 3) (senderTx 5 0)) (senderTx 5 1)).cached
      goldenTouchAddress = none := by
    decide +kernel
  refine ⟨h, hrun, horders, (updateNewBlock_iff Sample.config blockNonces parentNonces hpool
    ⟨⟨100, 0, 0⟩, 11, 1, 10⟩ 20 .empty 1000000 2000 1000 0 rfl rfl hcache honest_block11Events
    hrun).mpr ?_⟩
  exact fun _ hsome => absurd hanchor hsome

/-- The pool has learnt, from a tx of the anchor's sender that cannot be
included, that its nonce is 7.  Block 11 is sealed without an order: its anchor
has made the nonce 8, and the cache still has 7 for block 12. -/
theorem anchor_nonce_stale :
    (poolKnowing goldenTouchAddress 7).Reachable ∧
      (poolKnowing goldenTouchAddress 7).CacheCorrect 11 parentNonces ∧
      blockNonces block11.sd.stateId = advance parentNonces goldenTouchAddress ∧
      ((poolKnowing goldenTouchAddress 7).updateNewBlock block11.sd.nonces).cached
        goldenTouchAddress = some 7 ∧
      blockNonces block11.sd.stateId goldenTouchAddress = 8 ∧
      ¬ Updated (blockNonces block11.sd.stateId) 11 block11.sd.nonces
        (poolKnowing goldenTouchAddress 7)
        ((poolKnowing goldenTouchAddress 7).updateNewBlock block11.sd.nonces) := by
  have hcached : ((poolKnowing goldenTouchAddress 7).updateNewBlock block11.sd.nonces).cached
      goldenTouchAddress = some 7 := by
    decide +kernel
  have hafter : blockNonces block11.sd.stateId goldenTouchAddress = 8 := by decide +kernel
  refine ⟨poolKnowing_reachable _ _, poolKnowing_correct (by decide +kernel), rfl, hcached, hafter,
    fun hupdated => ?_⟩
  have hwrong := hupdated.cached goldenTouchAddress 7 hcached
  rw [hafter] at hwrong
  omega

end Sample

end SortHistory

end TaikoGateway
