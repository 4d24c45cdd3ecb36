/-
TaikoGateway/Replacements.lean

A transaction that replaces another one at the same sender and nonce.

While a block is built, every transaction goes to the block (`handle_new_tx`)
and to the pool (`put`).  Both overwrite what they have at its nonce, so they
should agree on it (`Feed.Agree`).  They fall apart in two cases only
(`Feed.Undisplaced`, `agree_iff`):

* the block puts back an order that lost, over the one that replaced it while
  it was being simulated;
* the block refuses a replacement that the pool takes, and keeps the order that
  was replaced.
-/
import TaikoGateway.BatchOrder

namespace TaikoGateway

/-! ### Orders of the lists -/

namespace ActiveOrders

/-- A list of the sender has this order at the nonce. -/
def HasAt (ls : List TxList) (sender : Address) (nonce : Nat) (o : Order) : Prop :=
  ∃ l ∈ ls, l.sender = sender ∧ l.txs[nonce]? = some o

/-- The placed order is at its nonce, and it alone. -/
theorem hasAt_place {o a : Order} {sender : Address} {nonce : Nat} :
    ∀ {ls : List TxList}, (senders ls).Nodup →
      (HasAt (place o ls) sender nonce a ↔
        if o.sender = sender ∧ o.nonce = nonce then a = o else HasAt ls sender nonce a) := by
  have hget : ∀ txs : BTreeMap Order, (txs.insert o.nonce o)[nonce]? =
      if o.nonce = nonce then some o else txs[nonce]? := by
    intro txs
    rw [Std.ExtTreeMap.getElem?_insert]
    simp only [Std.LawfulEqCmp.compare_eq_iff_eq]
  intro ls
  induction ls with
  | nil =>
      intro _
      simp only [HasAt, place, List.mem_singleton, exists_eq_left, hget]
      show (o.sender = sender ∧ _) ↔ _
      by_cases hs : o.sender = sender
      · by_cases hn : o.nonce = nonce
        · simp [hs, hn, eq_comm]
        · simp [hs, hn]
      · simp [hs]
  | cons l ls ih =>
      intro h
      obtain ⟨hnew, hrest⟩ := List.nodup_cons.mp h
      have hcons : ∀ (k : TxList) (ks : List TxList), HasAt (k :: ks) sender nonce a ↔
          (k.sender = sender ∧ k.txs[nonce]? = some a) ∨ HasAt ks sender nonce a := by
        intro k ks
        simp [HasAt]
      rw [place]
      by_cases hl : l.sender = o.sender
      -- the first list of the sender is the only one
      · rw [if_pos hl, hcons, hcons, hget]
        by_cases hs : o.sender = sender
        · have hnone : ¬ HasAt ls sender nonce a := by
            rintro ⟨k, hk, hsender, -⟩
            apply hnew
            have hsame : k.sender = l.sender := hsender.trans (hs.symm.trans hl.symm)
            exact List.mem_map.mpr ⟨k, hk, hsame⟩
          by_cases hn : o.nonce = nonce
          · simp [hs, hn, hl, hnone, eq_comm]
          · simp [hs, hn, hl, hnone]
        · have hs' : l.sender ≠ sender := fun heq => hs (hl.symm.trans heq)
          simp [hs, hs']
      · rw [if_neg hl, hcons, hcons, ih hrest]
        by_cases hs : o.sender = sender
        · have hs' : l.sender ≠ sender := fun heq => hl (heq.trans hs.symm)
          simp [hs']
        · simp [hs]

/-- A round leaves only what was there. -/
theorem hasAt_nextBest {n : SortingNonces} {baseFee : Nat} {sender : Address} {nonce : Nat}
    {o : Order} {ls : List TxList} :
    ∀ max, HasAt (nextBest n baseFee ls max).2 sender nonce o → HasAt ls sender nonce o := by
  induction ls with
  | nil => exact fun _ h => h
  | cons l ls ih =>
      intro max h
      cases max with
      | zero => exact h
      | succ max =>
          have hcons : ∀ (m : Nat) (k : TxList), k.sender = l.sender →
              (∀ o, k.txs[nonce]? = some o → l.txs[nonce]? = some o) →
              HasAt (k :: (nextBest n baseFee ls m).2) sender nonce o →
              HasAt (l :: ls) sender nonce o := by
            rintro m k hk htxs ⟨k', hk', hsender, hget⟩
            rcases List.mem_cons.mp hk' with rfl | hk'
            · exact ⟨l, List.mem_cons_self, hk.symm.trans hsender, htxs o hget⟩
            · obtain ⟨l', hl', hrest⟩ := ih m ⟨k', hk', hsender, hget⟩
              exact ⟨l', List.mem_cons_of_mem l hl', hrest⟩
          simp only [nextBest] at h
          split at h
          · rename_i order l' hready
            rcases l.firstReady_cases (n.getNonce l.sender) baseFee with
              hnone | ⟨taken, o', -, -, hsome⟩
            · cases hnone.symm.trans hready
            · cases hsome.symm.trans hready
              refine hcons max { l with txs := l.txs.erase taken } rfl (fun o hget => ?_) h
              rw [Std.ExtTreeMap.getElem?_erase] at hget
              split at hget
              · cases hget
              · exact hget
          · rename_i l' hready
            rw [TxList.firstReady_none hready] at h
            exact hcons (max + 1) l rfl (fun _ hget => hget) h

/-- What the lists have after a result. -/
theorem hasAt_settled {a : ActiveOrders} (h : (senders a.txLists).Nodup) {sim : SimulatedOrder}
    {back : Option Order} {sender : Address} {nonce : Nat} {o : Order}
    (hat : HasAt (a.settled sim back).txLists sender nonce o) :
    (back = some o ∧ o.sender = sender ∧ o.nonce = nonce) ∨ HasAt a.txLists sender nonce o := by
  cases back with
  | some order =>
      have hplaced : HasAt (place order a.txLists) sender nonce o := hat
      rw [hasAt_place h] at hplaced
      split at hplaced
      · rename_i hkey
        rw [hplaced]
        exact Or.inl ⟨rfl, hkey⟩
      · exact Or.inr hplaced
  | none =>
      simp only [settled] at hat
      split at hat
      · obtain ⟨l, hl, hrest⟩ := hat
        exact Or.inr ⟨l, List.mem_of_mem_eraseP hl, hrest⟩
      · exact Or.inr hat

end ActiveOrders

/-! ### The pool and its cache -/

namespace TxPool

variable {p p' : TxPool}

/-- The order that the pool has at this nonce of the sender. -/
def stored (p : TxPool) (sender : Address) (nonce : Nat) : Option Order :=
  orderAt (p.listOf sender) nonce

/-- The pool has nothing below a cached nonce. -/
def NothingPassed (p : TxPool) : Prop :=
  ∀ sender n, p.cached sender = some n → ∀ k, k < n → p.stored sender k = none

/-- The nonce is below a cached one that counts. -/
def Discards (p : TxPool) (tx : Order) (parentBlock : Nat) : Prop :=
  p.nonces.isValidParent parentBlock = true ∧ ∃ n, p.cached tx.sender = some n ∧ tx.nonce < n

theorem put_of_discards {tx : Order} {parentBlock : Nat} (h : p.Discards tx parentBlock) :
    p.put tx parentBlock = .ok { p with discardedOrders := p.discardedOrders + 1 } := by
  obtain ⟨hvalid, n, hn, hlt⟩ := h
  have hget : p.nonces.get tx.sender = some n := hn
  simp [TxPool.put, hvalid, hget, hlt]

/-- A cache of another block is emptied. -/
theorem cached_of_stale {tx : Order} {parentBlock : Nat} (hput : p.put tx parentBlock = .ok p')
    (h : p.nonces.isValidParent parentBlock = false) (a : Address) : p'.cached a = none := by
  simp only [TxPool.put, h, Bool.not_false, if_true] at hput
  obtain ⟨l, -, hok⟩ := Except.bind_eq_ok_iff.mp hput
  cases hok
  show (if p.nonces.nonces.isEmpty then p.nonces else p.nonces.clear).nonces[a]? = none
  split
  · rename_i hempty
    rw [Std.ExtTreeMap.isEmpty_iff.mp hempty]
    exact Std.ExtTreeMap.getElem?_empty
  · exact Std.ExtTreeMap.getElem?_empty

/-- A tx that is not discarded is stored, in a list of its sender. -/
theorem put_of_not_discards (hp : p.WellFormed) {tx : Order} {parentBlock : Nat}
    (h : ¬ p.Discards tx parentBlock) :
    ∃ p', p.put tx parentBlock = .ok p' ∧
      (∀ sender nonce, p'.stored sender nonce =
        if tx.sender = sender ∧ tx.nonce = nonce then some tx else p.stored sender nonce) ∧
      (∀ sender n, p'.cached sender = some n →
        p.cached sender = some n ∧ (tx.sender = sender → n ≤ tx.nonce)) := by
  obtain ⟨p', hput⟩ := put_total hp tx parentBlock
  refine ⟨p', hput, ?_, ?_⟩
  · cases put_step hput with
    | discarded n hvalid hn hlt => exact absurd ⟨hvalid, n, hn, hlt⟩ h
    | inserted hl hnonces =>
        obtain ⟨-, rfl⟩ := TxList.put_eq_ok hl
        intro sender nonce
        simp only [stored, listOf, Std.ExtTreeMap.getElem?_insert]
        by_cases hs : tx.sender = sender
        · subst hs
          by_cases hn : tx.nonce = nonce
          · simp [orderAt, hn]
          · cases hlist : p.txLists[tx.sender]? with
            | none => simp [orderAt, hn, TxList.new]
            | some l => simp [orderAt, hn, Std.ExtTreeMap.getElem?_insert]
        · simp [hs]
  · intro sender n hn
    have hold := (Shrinks.put hput).cached sender n hn
    refine ⟨hold, ?_⟩
    rintro rfl
    by_contra hlt
    apply h
    refine ⟨?_, n, hold, Nat.lt_of_not_le hlt⟩
    by_contra hvalid
    cases (cached_of_stale hput (by simpa using hvalid) tx.sender).symm.trans hn

/-- Behind an arrival the pool has the tx at its nonce, unless it discards it, and
what it had elsewhere. -/
theorem stored_put (hp : p.WellFormed) {tx o : Order} {parentBlock : Nat} {sender : Address}
    {nonce : Nat} (hput : p.put tx parentBlock = .ok p') :
    p'.stored sender nonce = some o ↔
      (¬ p.Discards tx parentBlock ∧ (tx.sender = sender ∧ tx.nonce = nonce) ∧ tx = o) ∨
        ((p.Discards tx parentBlock ∨ ¬ (tx.sender = sender ∧ tx.nonce = nonce)) ∧
          p.stored sender nonce = some o) := by
  by_cases hdiscards : p.Discards tx parentBlock
  · cases hput.symm.trans (put_of_discards hdiscards)
    show p.stored sender nonce = some o ↔ _
    simp [hdiscards]
  · obtain ⟨q, hq, hstored, -⟩ := put_of_not_discards hp hdiscards
    cases hput.symm.trans hq
    rw [hstored]
    by_cases hkey : tx.sender = sender ∧ tx.nonce = nonce <;> simp [hdiscards, hkey]

namespace NothingPassed

/-- What the pool discards is at a nonce where it has nothing. -/
theorem stored_of_discards (h : p.NothingPassed) {tx : Order} {parentBlock : Nat}
    (hdiscards : p.Discards tx parentBlock) : p.stored tx.sender tx.nonce = none := by
  obtain ⟨-, n, hn, hlt⟩ := hdiscards
  exact h tx.sender n hn tx.nonce hlt

theorem of_nonces (h : p.NothingPassed) (hlists : p'.txLists = p.txLists)
    (hcached : ∀ a n, p'.cached a = some n → p.cached a = some n) : p'.NothingPassed := by
  intro sender n hn k hk
  rw [stored, listOf, hlists]
  exact h sender n (hcached sender n hn) k hk

theorem put (h : p.NothingPassed) (hp : p.WellFormed) {tx : Order} {parentBlock : Nat}
    (hput : p.put tx parentBlock = .ok p') : p'.NothingPassed := by
  by_cases hdiscards : p.Discards tx parentBlock
  · cases hput.symm.trans (put_of_discards hdiscards)
    exact h.of_nonces rfl fun _ _ hn => hn
  · obtain ⟨q, hq, hstored, hcached⟩ := put_of_not_discards hp hdiscards
    cases hput.symm.trans hq
    intro sender n hn k hk
    obtain ⟨hold, hle⟩ := hcached sender n hn
    rw [hstored]
    split
    · rename_i hkey
      have hle := hle hkey.1
      omega
    · exact h sender n hold k hk

theorem mergeEntry (h : p.NothingPassed) (e : Address × Nat) : (p.mergeEntry e).NothingPassed := by
  intro sender n hn k hk
  rw [mergeEntry_get] at hn
  rw [stored, mergeEntry_lists]
  split at hn
  · rename_i hs
    cases hn
    rw [if_pos hs, orderAt_forwarded, if_pos hk]
  · rename_i hs
    rw [if_neg hs]
    exact h sender n hn k hk

/-- The lists are forwarded to all that is cached. -/
theorem merged (h : p.NothingPassed) (n : SortingNonces) : (p.merged n).NothingPassed := by
  rw [TxPool.merged]
  split
  · exact List.foldlRecOn _ _ h fun q hq e _ => hq.mergeEntry e
  · intro sender k hk j hj
    rw [cached, foldl_forwardSender_nonces] at hk
    have hget : n.allMerged.get sender = some k := hk
    rw [stored, StateNonces.get_foldl forwardSender_lists, hget]
    show orderAt (forwarded _ k) j = none
    rw [orderAt_forwarded, if_pos hj]

theorem updateNewBlock (h : p.NothingPassed) (n : SortingNonces) :
    (p.updateNewBlock n).NothingPassed :=
  (h.merged n).of_nonces rfl fun _ _ hn => hn

theorem clearNonces (h : p.NothingPassed) : p.clearNonces.NothingPassed :=
  h.of_nonces rfl fun a n hn => (by cases hn.symm.trans Std.ExtTreeMap.getElem?_empty)

end NothingPassed

/-- A snapshot takes nothing from the pool. -/
theorem activeOrders_txLists {order : HashOrder} {blockNumber baseFee : Nat}
    {a : Option ActiveOrders} (h : p.activeOrders order blockNumber baseFee = .ok (a, p')) :
    p'.txLists = p.txLists := by
  simp only [TxPool.activeOrders] at h
  split at h
  · split at h
    · cases h
      rfl
    · obtain ⟨b, -, hok⟩ := Except.bind_eq_ok_iff.mp h
      cases hok
      rfl
  · obtain ⟨b, -, hok⟩ := Except.bind_eq_ok_iff.mp h
    cases hok
    rfl

theorem Reachable.nothingPassed (h : Reachable p) : p.NothingPassed := by
  induction h with
  | new =>
      intro sender n _ k _
      show orderAt (∅ : HashMap TxList)[sender]? k = none
      rw [Std.ExtTreeMap.getElem?_empty]
      rfl
  | put tx parentBlock hp hput ih => exact ih.put hp.wellFormed hput
  | activeOrders order blockNumber baseFee _ hactive ih =>
      exact ih.of_nonces (activeOrders_txLists hactive) (Shrinks.activeOrders hactive).cached
  | updateNewBlock n _ ih => exact ih.updateNewBlock n
  | clearNonces _ ih => exact ih.clearNonces
  | @reportAndSanityCheck p parentBlock drawn simulatorNonce _ ih =>
      rcases p.reportAndSanityCheck_cases parentBlock drawn simulatorNonce with hsame | hclear
      · rw [hsame]
        exact ih
      · rw [hclear]
        exact ih.clearNonces

/-- What a snapshot has is what the pool has. -/
theorem stored_of_hasAt (hp : p.WellFormed) {order : HashOrder} {blockNumber baseFee : Nat}
    {a : Option ActiveOrders} (h : p.activeOrders order blockNumber baseFee = .ok (a, p'))
    {sender : Address} {nonce : Nat} {o : Order}
    (hat : ActiveOrders.HasAt (a.getD .empty).txLists sender nonce o) :
    p'.stored sender nonce = some o := by
  obtain ⟨l, hl, rfl, hget⟩ := hat
  obtain ⟨s, hs⟩ := (activeOrders_shows hp h l).mp hl
  obtain ⟨k, hk, hoffered⟩ := Option.bind_eq_some_iff.mp hs
  have hsender : l.sender = s := (offered_spec hoffered).1.trans (hp.sender s k hk)
  have hlist : p'.listOf l.sender = some k := by
    rw [listOf, activeOrders_txLists h, hsender]
    exact hk
  -- what is offered is a part of the list
  have hpart : k.txs[nonce]? = some o := by
    rw [offered] at hoffered
    split at hoffered
    · split at hoffered
      · cases hoffered
        rw [TxList.getElem?_forward] at hget
        split at hget
        · cases hget
        · exact hget
      · cases hoffered
    · split at hoffered
      · cases hoffered
        exact hget
      · cases hoffered
  rw [stored, hlist]
  exact hpart

end TxPool

/-! ### The block -/

namespace SortData

variable {sd : SortData}

/-- The block does not take the tx. -/
def Refuses (sd : SortData) (tx : Order) : Prop :=
  tx.validForBaseFee sd.blockInfo.baseFee = false ∨
    ∃ n, sd.nonces.getNonce tx.sender = some n ∧ tx.nonce < n

theorem handleNewTx_of_refuses {tx : Order} (h : sd.Refuses tx) : sd.handleNewTx tx = .ok sd := by
  rcases h with hfee | ⟨n, hn, hlt⟩
  · simp [handleNewTx, hfee]
  · simp [handleNewTx, hn, hlt]

theorem handleNewTx_of_not_refuses {tx : Order} (h : ¬ sd.Refuses tx) :
    sd.handleNewTx tx = .ok { sd with
      waitingForNewTxs := false, activeOrders := sd.activeOrders.placed tx } := by
  rw [Refuses, not_or, Bool.not_eq_false] at h
  obtain ⟨hfee, hnonce⟩ := h
  simp only [handleNewTx, hfee, ActiveOrders.put_eq]
  cases hn : sd.nonces.getNonce tx.sender with
  | none => rfl
  | some n =>
      have hle : ¬ tx.nonce < n := fun hlt => hnonce ⟨n, hn, hlt⟩
      simp only [if_neg hle]
      rfl

theorem handleNewTx_total (sd : SortData) (tx : Order) : ∃ sd', sd.handleNewTx tx = .ok sd' := by
  by_cases hrefuses : sd.Refuses tx
  · exact ⟨_, handleNewTx_of_refuses hrefuses⟩
  · exact ⟨_, handleNewTx_of_not_refuses hrefuses⟩

/-- Behind an arrival the block has the tx at its nonce, unless it refuses it, and
what it had elsewhere. -/
theorem hasAt_newTx (hs : (ActiveOrders.senders sd.activeOrders.txLists).Nodup) {sd' : SortData}
    {tx o : Order} {sender : Address} {nonce : Nat} (h : sd.handleNewTx tx = .ok sd') :
    ActiveOrders.HasAt sd'.activeOrders.txLists sender nonce o ↔
      (¬ sd.Refuses tx ∧ (tx.sender = sender ∧ tx.nonce = nonce) ∧ o = tx) ∨
        ((sd.Refuses tx ∨ ¬ (tx.sender = sender ∧ tx.nonce = nonce)) ∧
          ActiveOrders.HasAt sd.activeOrders.txLists sender nonce o) := by
  by_cases hrefuses : sd.Refuses tx
  · cases h.symm.trans (handleNewTx_of_refuses hrefuses)
    simp [hrefuses]
  · cases h.symm.trans (handleNewTx_of_not_refuses hrefuses)
    show ActiveOrders.HasAt (ActiveOrders.place tx sd.activeOrders.txLists) sender nonce o ↔ _
    rw [ActiveOrders.hasAt_place hs]
    by_cases hkey : tx.sender = sender ∧ tx.nonce = nonce <;> simp [hrefuses, hkey]

theorem handleSim_total (sd : SortData) (sim : SimulatedOrder) :
    ∃ sd', sd.handleSim sim = .ok sd' := by
  by_cases hid : sd.stateId = sim.originStateId
  · exact ⟨_, handleSim_eq hid⟩
  · exact ⟨_, handleSim_stale hid⟩

/-- The order is that of the best result or of the new one, whichever pays
less; a new one that pays the same loses. -/
def Loses (sd : SortData) (sim : SimulatedOrder) (o : Order) : Prop :=
  ∃ best v, sd.nextBest = some best ∧ sim.fitting sd.gasRemaining = some v ∧
    (best.builderPayment < v.builderPayment ∧ o = best.order ∨
      v.builderPayment ≤ best.builderPayment ∧ o = sim.order)

theorem putBack_eq_some {sim : SimulatedOrder} {o : Order} :
    sd.putBack sim = some o ↔ sd.Loses sim o := by
  rw [putBack, Loses]
  cases hbest : sd.nextBest with
  | none => cases sim.fitting sd.gasRemaining <;> simp [Confluence.loser]
  | some best =>
      cases hv : sim.fitting sd.gasRemaining with
      | none => simp [Confluence.loser]
      | some v =>
          have horder := (SimulatedOrder.fitting_eq_some hv).2.2
          simp only [Confluence.loser]
          by_cases hlt : best.builderPayment < v.builderPayment
          · simp [hlt, eq_comm]
          · simp [hlt, horder, eq_comm, Nat.le_of_not_lt hlt]

/-- A round leaves only what was there. -/
theorem hasAt_round {config : SequencerConfig} {now : Instant} {r : SortData × List Order}
    (h : sd.maybeSimNextBatch config now = .ok r) {sender : Address} {nonce : Nat} {o : Order}
    (hat : ActiveOrders.HasAt r.1.activeOrders.txLists sender nonce o) :
    ActiveOrders.HasAt sd.activeOrders.txLists sender nonce o := by
  have hsame : ∀ {sd' : SortData}, ApplyStep config sd sd' →
      sd'.activeOrders = sd.activeOrders := by
    intro sd' happly
    cases happly with
    | nothing hbest => rfl
    | applied next hbest horigin hgas => rfl
  cases maybeSimNextBatch_step h with
  | idle hidle => exact hat
  | waiting hidle happly hwait =>
      rw [← hsame happly]
      exact hat
  | sent hidle happly hwait =>
      rw [← hsame happly]
      exact ActiveOrders.hasAt_nextBest config.maxSimsPerLoop hat

end SortData

/-! ### Both together -/

/-- The block that is built and the pool, and what has arrived. -/
structure Feed where
  block : SortHistory
  pool : TxPool
  /-- the last order that arrived, for each sender and nonce -/
  last : Address → Nat → Option Order

/-- A turn does one of these, with this block as the parent. -/
structure FeedEvent where
  event : SortEvent
  parentBlock : Nat

namespace Feed

/-- `fetch_txs` gives a tx to the block first, and then to the pool. -/
def step (config : SequencerConfig) (f : Feed) (e : FeedEvent) : Except Panic Feed := do
  let block ← f.block.step config e.event
  match e.event with
  | .newTx tx => do
      let pool ← f.pool.put tx e.parentBlock
      .ok ⟨block, pool, fun sender nonce =>
        if tx.sender = sender ∧ tx.nonce = nonce then some tx else f.last sender nonce⟩
  | _ => .ok { f with block := block }

def active (f : Feed) : List TxList := f.block.sd.activeOrders.txLists

/-- What the block and the pool both have at a nonce is the same order, the last
one that arrived. -/
def Agree (f : Feed) : Prop :=
  ∀ sender nonce o o', ActiveOrders.HasAt f.active sender nonce o →
    f.pool.stored sender nonce = some o' → o = o' ∧ f.last sender nonce = some o'

/-- The step does not set an order of the block against the one that replaced
it: an order that goes back has not been replaced, and a tx that the block
refuses and the pool takes does not replace one that the block has. -/
def Undisplaced (f : Feed) (e : FeedEvent) : Prop :=
  match e.event with
  | .newTx tx => f.block.sd.Refuses tx → ¬ f.pool.Discards tx e.parentBlock →
      ∀ o, ActiveOrders.HasAt f.active tx.sender tx.nonce o → o = tx
  | .sim sim => f.block.sd.stateId = sim.originStateId → ∀ o, f.block.sd.Loses sim o →
      ∀ o', f.pool.stored o.sender o.nonce = some o' → o' = o
  | _ => True

/-- A block starts from a snapshot of a pool. -/
inductive Started (config : SequencerConfig) : Feed → Prop
  | intro (blockInfo : BlockInfo) (anchorStateId : StateId)
      (gasLimit targetBlockTime maxBlockSize now : Nat) {p p' : TxPool} (hpool : p.Reachable)
      (hashOrder : HashOrder) {active : Option ActiveOrders}
      (hactive : p.activeOrders hashOrder blockInfo.blockNumber blockInfo.baseFee =
        .ok (active, p'))
      {pending : List Spawned} {used : List StateId} (hpending : ∀ r ∈ pending, r.tag ∈ used)
      (hfresh : anchorStateId ∉ used) :
      Started config ⟨.start (.new blockInfo anchorStateId (active.getD .empty) gasLimit
        targetBlockTime maxBlockSize config now) pending used, p', p'.stored⟩

/-! ### What always holds -/

structure Inv (f : Feed) : Prop where
  flights : f.block.Flights
  onePerSender : f.block.OnePerSender
  wellFormed : f.pool.WellFormed
  passed : f.pool.NothingPassed
  last : ∀ sender nonce o, f.pool.stored sender nonce = some o → f.last sender nonce = some o

variable {config : SequencerConfig} {f f' : Feed}

theorem Started.inv (h : Started config f) : f.Inv ∧ f.Agree := by
  cases h with
  | intro blockInfo anchorStateId gasLimit targetBlockTime maxBlockSize now hpool hashOrder hactive
      hpending hfresh =>
      have hreached := TxPool.Reachable.activeOrders hashOrder _ _ hpool hactive
      have hstarted : SortHistory.Started config _ := .intro blockInfo anchorStateId gasLimit
        targetBlockTime maxBlockSize now hpool.wellFormed hashOrder hactive hpending hfresh
      obtain ⟨hflights, hone⟩ := hstarted.onePerSender
      refine ⟨⟨hflights, hone, hreached.wellFormed, hreached.nothingPassed,
        fun _ _ _ h => h⟩, fun sender nonce o o' hat hstored => ?_⟩
      have hsnapshot := TxPool.stored_of_hasAt hpool.wellFormed hactive hat
      cases hsnapshot.symm.trans hstored
      exact ⟨rfl, hstored⟩

theorem step_eq_ok {e : FeedEvent} (h : f.step config e = .ok f') :
    f.block.step config e.event = .ok f'.block ∧
      ((∃ tx, e.event = .newTx tx ∧ f.pool.put tx e.parentBlock = .ok f'.pool ∧
          ∀ sender nonce, f'.last sender nonce =
            if tx.sender = sender ∧ tx.nonce = nonce then some tx else f.last sender nonce) ∨
        ((∀ tx, e.event ≠ .newTx tx) ∧ f'.pool = f.pool ∧ f'.last = f.last)) := by
  obtain ⟨event, parentBlock⟩ := e
  obtain ⟨block, hblock, hrest⟩ := Except.bind_eq_ok_iff.mp h
  cases event with
  | newTx tx =>
      obtain ⟨pool, hpool, hok⟩ := Except.bind_eq_ok_iff.mp hrest
      cases hok
      exact ⟨hblock, Or.inl ⟨tx, rfl, hpool, fun _ _ => rfl⟩⟩
  | sim sim =>
      cases hrest
      exact ⟨hblock, Or.inr ⟨fun tx htx => (by cases htx), rfl, rfl⟩⟩
  | round now =>
      cases hrest
      exact ⟨hblock, Or.inr ⟨fun tx htx => (by cases htx), rfl, rfl⟩⟩
  | sealEarly =>
      cases hrest
      exact ⟨hblock, Or.inr ⟨fun tx htx => (by cases htx), rfl, rfl⟩⟩

/-- The pool has what arrived last: what it discards is at a nonce where it has
nothing. -/
theorem Inv.step (hi : f.Inv) {e : FeedEvent} (hanswers : f.block.Answers e.event)
    (h : f.step config e = .ok f') : f'.Inv := by
  obtain ⟨hblock, hpool⟩ := step_eq_ok h
  have hflights := hi.flights.step hanswers hblock
  have hone := hi.onePerSender.step hi.flights hanswers hblock
  rcases hpool with ⟨tx, -, hput, hlast⟩ | ⟨-, hpool, hlast⟩
  · refine ⟨hflights, hone, hi.wellFormed.put hput, hi.passed.put hi.wellFormed hput,
      fun sender nonce o hstored => ?_⟩
    rw [hlast]
    rcases (TxPool.stored_put hi.wellFormed hput).mp hstored with
      ⟨-, hkey, rfl⟩ | ⟨hkept, hstored⟩
    · exact if_pos hkey
    · rw [if_neg]
      · exact hi.last sender nonce o hstored
      -- what is discarded would be at a nonce with an order
      · rintro ⟨rfl, rfl⟩
        have hdiscards := hkept.resolve_right fun hne => hne ⟨rfl, rfl⟩
        cases (hi.passed.stored_of_discards hdiscards).symm.trans hstored
  · refine ⟨hflights, hone, ?_, ?_, ?_⟩
    · rw [hpool]
      exact hi.wellFormed
    · rw [hpool]
      exact hi.passed
    · rw [hpool, hlast]
      exact hi.last

/-! ### When they agree -/

/-- Both have at most one order at a nonce, so it is enough that none differ. -/
theorem Inv.agree (hi : f.Inv) (h : ∀ sender nonce o o',
    ActiveOrders.HasAt f.active sender nonce o → f.pool.stored sender nonce = some o' → o = o') :
    f.Agree :=
  fun sender nonce o o' hat hstored => ⟨h sender nonce o o' hat hstored, hi.last _ _ _ hstored⟩

/-- A tx makes them fall apart exactly where the block refuses it and keeps the
one that it replaces in the pool. -/
theorem agree_newTx (hi : f.Inv) (ha : f.Agree) {tx : Order} {parentBlock : Nat}
    (h : f.step config ⟨.newTx tx, parentBlock⟩ = .ok f') :
    f'.Agree ↔ f.Undisplaced ⟨.newTx tx, parentBlock⟩ := by
  have hi' := hi.step (fun sim hsim => (by cases hsim)) h
  obtain ⟨hblock, hput⟩ := step_eq_ok h
  obtain ⟨tx', htx, hput, -⟩ := hput.resolve_right fun hne => hne.1 tx rfl
  cases htx
  obtain ⟨sd, hsd, hok⟩ := Except.bind_eq_ok_iff.mp hblock
  have hactive : f'.active = sd.activeOrders.txLists :=
    congrArg (·.sd.activeOrders.txLists) (Except.ok.inj hok).symm
  have hsenders := hi.onePerSender.senders
  constructor
  · intro hagree hrefuses htakes o hat
    have hat' : ActiveOrders.HasAt f'.active tx.sender tx.nonce o := by
      rw [hactive]
      exact (SortData.hasAt_newTx hsenders hsd).mpr (Or.inr ⟨Or.inl hrefuses, hat⟩)
    have hstored' := (TxPool.stored_put hi.wellFormed hput).mpr
      (Or.inl ⟨htakes, ⟨rfl, rfl⟩, rfl⟩)
    exact (hagree tx.sender tx.nonce o tx hat' hstored').1
  · intro hkeeps
    apply hi'.agree
    intro sender nonce o o' hat hstored
    rw [hactive] at hat
    have hstored := (TxPool.stored_put hi.wellFormed hput).mp hstored
    rcases (SortData.hasAt_newTx hsenders hsd).mp hat with ⟨-, hkey, hplaced⟩ | ⟨hblocks, hat⟩
    · rcases hstored with ⟨-, -, hput⟩ | ⟨hpools, hstored⟩
      · exact hplaced.trans hput
      -- discarded, so the pool has nothing at the nonce
      · have hdiscards := hpools.resolve_right fun hne => hne hkey
        obtain ⟨rfl, rfl⟩ := hkey
        cases (hi.passed.stored_of_discards hdiscards).symm.trans hstored
    · rcases hstored with ⟨htakes, ⟨rfl, rfl⟩, rfl⟩ | ⟨hpools, hstored⟩
      · have hrefuses := hblocks.resolve_right fun hne => hne ⟨rfl, rfl⟩
        exact hkeeps hrefuses htakes o hat
      · exact (ha sender nonce o o' hat hstored).1

/-- A result makes them fall apart exactly where the order that goes back has
been replaced. -/
theorem agree_sim (hi : f.Inv) (ha : f.Agree) {sim : SimulatedOrder} {parentBlock : Nat}
    (hanswers : f.block.Answers (.sim sim)) (h : f.step config ⟨.sim sim, parentBlock⟩ = .ok f') :
    f'.Agree ↔ f.Undisplaced ⟨.sim sim, parentBlock⟩ := by
  have hi' := hi.step hanswers h
  obtain ⟨hblock, hput⟩ := step_eq_ok h
  obtain ⟨-, hpool, -⟩ := hput.resolve_left fun ⟨tx, htx, _⟩ => (by cases htx)
  obtain ⟨sd, hsd, hok⟩ := Except.bind_eq_ok_iff.mp hblock
  have hactive : f'.active = sd.activeOrders.txLists :=
    congrArg (·.sd.activeOrders.txLists) (Except.ok.inj hok).symm
  have hold : ∀ sender nonce o o', ActiveOrders.HasAt f.active sender nonce o →
      f.pool.stored sender nonce = some o' → o = o' :=
    fun sender nonce o o' hat hstored => (ha sender nonce o o' hat hstored).1
  by_cases hid : f.block.sd.stateId = sim.originStateId
  · rw [SortData.handleSim_eq hid] at hsd
    cases hsd
    constructor
    · intro hagree _ o hloses o' hstored
      rw [← SortData.putBack_eq_some] at hloses
      have hat : ActiveOrders.HasAt f'.active o.sender o.nonce o := by
        rw [hactive]
        show ActiveOrders.HasAt (f.block.sd.activeOrders.settled sim _).txLists _ _ o
        rw [hloses]
        exact (ActiveOrders.hasAt_place hi.onePerSender.senders).mpr (by simp)
      exact (hagree o.sender o.nonce o o' hat (by rw [hpool]; exact hstored)).1.symm
    · intro hkeeps
      apply hi'.agree
      intro sender nonce o o' hat hstored
      rw [hactive] at hat
      rw [hpool] at hstored
      rcases ActiveOrders.hasAt_settled hi.onePerSender.senders hat with
        ⟨hback, rfl, rfl⟩ | hat
      · exact (hkeeps hid o (SortData.putBack_eq_some.mp hback) o' hstored).symm
      · exact hold sender nonce o o' hat hstored
  · rw [SortData.handleSim_stale hid] at hsd
    cases hsd
    refine iff_of_true (hi'.agree fun sender nonce o o' hat hstored => ?_)
      (fun hcurrent => absurd hcurrent hid)
    rw [hactive] at hat
    rw [hpool] at hstored
    exact hold sender nonce o o' hat hstored

/-- The other steps take orders out of the block, at most. -/
theorem agree_step (hi : f.Inv) (ha : f.Agree) {e : FeedEvent} (hanswers : f.block.Answers e.event)
    (h : f.step config e = .ok f') : f'.Agree ↔ f.Undisplaced e := by
  have hfewer : (∀ tx, e.event ≠ .newTx tx) → (∀ sender nonce o,
      ActiveOrders.HasAt f'.active sender nonce o → ActiveOrders.HasAt f.active sender nonce o) →
      f'.Agree := by
    intro hne hfewer
    obtain ⟨-, hput⟩ := step_eq_ok h
    obtain ⟨-, hpool, -⟩ := hput.resolve_left fun ⟨tx, htx, _⟩ => hne tx htx
    apply (hi.step hanswers h).agree
    intro sender nonce o o' hat hstored
    rw [hpool] at hstored
    exact (ha sender nonce o o' (hfewer sender nonce o hat) hstored).1
  obtain ⟨event, parentBlock⟩ := e
  cases event with
  | newTx tx => exact agree_newTx hi ha h
  | sim sim => exact agree_sim hi ha hanswers h
  | round now =>
      apply iff_of_true _ trivial
      apply hfewer (fun tx htx => (by cases htx))
      intro sender nonce o hat
      obtain ⟨⟨sd, orders⟩, hsd, hok⟩ := Except.bind_eq_ok_iff.mp (step_eq_ok h).1
      have hactive : f'.active = sd.activeOrders.txLists :=
        congrArg (·.sd.activeOrders.txLists) (Except.ok.inj hok).symm
      rw [hactive] at hat
      exact SortData.hasAt_round hsd hat
  | sealEarly =>
      apply iff_of_true _ trivial
      apply hfewer (fun tx htx => (by cases htx))
      intro sender nonce o hat
      have hblock : f.block.sealEarly = f'.block := Except.ok.inj (step_eq_ok h).1
      have hactive : f'.active = f.active := congrArg (·.sd.activeOrders.txLists) hblock.symm
      rw [hactive] at hat
      exact hat

/-- Txs and results are always handled. -/
theorem step_total (hi : f.Inv) {e : FeedEvent} (hdisplaced : ¬ f.Undisplaced e) :
    ∃ f', f.step config e = .ok f' := by
  obtain ⟨event, parentBlock⟩ := e
  cases event with
  | newTx tx =>
      obtain ⟨pool, hpool⟩ := TxPool.put_total hi.wellFormed tx parentBlock
      obtain ⟨sd, hsd⟩ := f.block.sd.handleNewTx_total tx
      have hstep : f.block.step config (.newTx tx) = .ok { f.block with sd := sd } :=
        Except.bind_eq_ok_iff.mpr ⟨sd, hsd, rfl⟩
      simp only [step, hstep, hpool]
      exact ⟨_, rfl⟩
  | sim sim =>
      obtain ⟨sd, hsd⟩ := f.block.sd.handleSim_total sim
      exact ⟨_, Except.bind_eq_ok_iff.mpr ⟨_, Except.bind_eq_ok_iff.mpr ⟨sd, hsd, rfl⟩, rfl⟩⟩
  | round now => exact absurd trivial hdisplaced
  | sealEarly => exact absurd trivial hdisplaced

/-- **The block and the pool agree in every state of a run exactly when no step
displaces a replacement.** -/
theorem agree_iff (hstart : Started config f) {es : List FeedEvent}
    (hanswers : Run.Along (step config) (fun f e _ => f.block.Answers e.event) f es) :
    f.Agree ∧ Run.Along (step config) (fun _ _ r => ∀ f', r = .ok f' → f'.Agree) f es ↔
      Run.Along (step config) (fun f e _ => f.Undisplaced e) f es := by
  have hstep : ∀ f e, f.Inv ∧ f.Agree →
      (f.block.Answers e.event ∧ (∀ f', step config f e = .ok f' → f'.Agree) ↔
        f.block.Answers e.event ∧ f.Undisplaced e) := by
    rintro f e ⟨hi, ha⟩
    apply and_congr_right
    intro hanswers
    constructor
    · intro hagree
      by_contra hdisplaced
      obtain ⟨f', h⟩ := step_total hi hdisplaced
      exact hdisplaced ((agree_step hi ha hanswers h).mp (hagree f' h))
    · intro hkeeps f' h
      exact (agree_step hi ha hanswers h).mpr hkeeps
  have hrun := Run.Along.congr_of_invariant
    (P := fun f e r => f.block.Answers e.event ∧ ∀ f', r = .ok f' → Agree f')
    (Q := fun f e _ => f.block.Answers e.event ∧ f.Undisplaced e)
    (fun f => f.Inv ∧ f.Agree) hstep
    (fun f e f' hi hagree h => ⟨hi.1.step hagree.1 h, hagree.2 f' h⟩) es hstart.inv
  constructor
  · rintro ⟨-, hagree⟩
    exact (hrun.mp (hanswers.and hagree)).mono fun _ _ h => h.2
  · intro hkeeps
    exact ⟨hstart.inv.2, (hrun.mpr (hanswers.and hkeeps)).mono fun _ _ h => h.2⟩

section Sample

open Sample SortHistory

/-- The block of `sampleStart`, whose pool is empty. -/
def emptyFeed : Feed := ⟨sampleStart, .new, TxPool.new.stored⟩

theorem started_emptyFeed : Started Sample.config emptyFeed := by
  have hactive : TxPool.new.activeOrders .byKey 11 1 = .ok (none, TxPool.new) := rfl
  exact .intro ⟨⟨100, 0, 0⟩, 11, 1, 10⟩ 20 1000000 2000 1000 0 .new .byKey hactive
    (by decide) (by decide)

/-- Pays more than the tx of the same sender and nonce. -/
def replacingTx : Order := TxPool.payingTx 0 2

/-- The tx of sender 5 is replaced while it is being simulated; then it loses
against the one of sender 6. -/
def displacingEvents : List FeedEvent :=
  [.newTx (senderTx 5 0), .newTx (senderTx 6 0), .round 1, .newTx replacingTx,
    sampleSim 20 22 2 (senderTx 6 0), sampleSim 20 21 1 (senderTx 5 0)].map fun e => ⟨e, 10⟩

theorem answers_displacingEvents :
    Run.Along (step Sample.config) (fun f e _ => f.block.Answers e.event) emptyFeed
      displacingEvents := by
  decide +kernel

theorem run_displacingEvents :
    ∃ f, displacingEvents.foldlM (step Sample.config) emptyFeed = .ok f ∧ ¬ f.Agree := by
  have hrun : (displacingEvents.foldlM (step Sample.config) emptyFeed).toOption.map (fun f =>
      (f.active.any fun l => l.sender = 5 ∧ l.txs[0]? = some (senderTx 5 0),
        f.pool.stored 5 0)) = some (true, some replacingTx) := by
    decide +kernel
  obtain ⟨f, hrun, hends⟩ := Option.map_eq_some_iff.mp hrun
  obtain ⟨hany, hstored⟩ := Prod.mk.inj hends
  refine ⟨f, Except.toOption_eq_some_iff.mp hrun, fun hagree => ?_⟩
  obtain ⟨l, hl, hhas⟩ := List.any_eq_true.mp hany
  have hat : ActiveOrders.HasAt f.active 5 0 (senderTx 5 0) := ⟨l, hl, by simpa using hhas⟩
  have hsame := (hagree 5 0 _ _ hat hstored).1
  revert hsame
  decide

/-- The order that was replaced is active again, and may be included. -/
theorem replacement_displaced :
    Started Sample.config emptyFeed ∧
      Run.Along (step Sample.config) (fun f e _ => f.block.Answers e.event) emptyFeed
        displacingEvents ∧
      ∃ f, displacingEvents.foldlM (step Sample.config) emptyFeed = .ok f ∧ ¬ f.Agree :=
  ⟨started_emptyFeed, answers_displacingEvents, run_displacingEvents⟩

instance (sd : SortData) (tx : Order) : Decidable (sd.Refuses tx) :=
  decidable_of_iff (tx.validForBaseFee sd.blockInfo.baseFee = false ∨
    ∃ n ∈ sd.nonces.getNonce tx.sender, tx.nonce < n) Iff.rfl

instance (p : TxPool) (tx : Order) (parentBlock : Nat) : Decidable (p.Discards tx parentBlock) :=
  decidable_of_iff (p.nonces.isValidParent parentBlock = true ∧
    ∃ n ∈ p.cached tx.sender, tx.nonce < n) Iff.rfl

instance : (f : Feed) → (e : FeedEvent) → Decidable (f.Undisplaced e)
  | f, ⟨.newTx tx, parentBlock⟩ =>
      decidable_of_iff (f.block.sd.Refuses tx → ¬ f.pool.Discards tx parentBlock →
          ∀ l ∈ f.active, ∀ o ∈ l.txs[tx.nonce]?, l.sender = tx.sender → o = tx) (by
        refine imp_congr_right fun _ => imp_congr_right fun _ => ⟨?_, ?_⟩
        · rintro h o ⟨l, hl, hsender, ho⟩
          exact h l hl o ho hsender
        · intro h l hl o ho hsender
          exact h o ⟨l, hl, hsender, ho⟩)
  | f, ⟨.sim sim, _⟩ =>
      decidable_of_iff (f.block.sd.stateId = sim.originStateId → ∀ o ∈ f.block.sd.putBack sim,
          ∀ o' ∈ f.pool.stored o.sender o.nonce, o' = o) (by
        simp only [Undisplaced, Option.mem_def, SortData.putBack_eq_some])
  | _, ⟨.round _, _⟩ => isTrue trivial
  | _, ⟨.sealEarly, _⟩ => isTrue trivial

/-- The tx of sender 5 is replaced before it is simulated; the replacement loses
against the tx of sender 6, and goes back. -/
def replacingEvents : List FeedEvent :=
  [.newTx (senderTx 5 0), .newTx replacingTx, .newTx (senderTx 6 0), .round 1,
    sampleSim 20 22 2 (senderTx 6 0), sampleSim 20 21 1 replacingTx].map fun e => ⟨e, 10⟩

/-- Block and pool agree along this run, at whose end both have the replacement;
the run in which they do not agree displaces one. -/
theorem agree_iff_replacements :
    (emptyFeed.Agree ∧ Run.Along (step Sample.config) (fun _ _ r => ∀ f', r = .ok f' → f'.Agree)
        emptyFeed replacingEvents) ∧
      (replacingEvents.foldlM (step Sample.config) emptyFeed).toOption.map (fun f =>
          (f.active.filterMap fun l => l.txs[0]?, f.pool.stored 5 0)) =
        some ([replacingTx], some replacingTx) ∧
      ¬ Run.Along (step Sample.config) (fun f e _ => f.Undisplaced e) emptyFeed
        displacingEvents := by
  refine ⟨(agree_iff started_emptyFeed (by decide +kernel)).mpr (by decide +kernel),
    by decide +kernel, fun hkeeps => ?_⟩
  obtain ⟨hstart, hagree⟩ := (agree_iff started_emptyFeed answers_displacingEvents).mpr hkeeps
  obtain ⟨f, hrun, hends⟩ := run_displacingEvents
  exact hends (Run.Along.invariant Agree (fun _ _ _ _ hkept h => hkept _ h) displacingEvents hstart
    hagree hrun)

end Sample

end Feed

end TaikoGateway
