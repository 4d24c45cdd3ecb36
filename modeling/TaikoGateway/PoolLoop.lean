/-
TaikoGateway/PoolLoop.lean

What a turn does to the pool.

The nonce cache is written by a seal only.  Everything else leaves it alone or
clears it (`TxPool.Shrinks`): the txs and the check of a tick (`tick_pool`),
and the snapshot for a new block (`syncTransition_pool`).

What the two readers of the cache do with it is said in `put_keeps` and in
`activeOrders_shows`: a tx is dropped, or a list left out of the snapshot, only
for a cached nonce, for the base fee or for a missing nonce.
-/
import TaikoGateway.NewBlock
import TaikoGateway.ParentRules

namespace TaikoGateway

namespace TxPool

variable {p p' p'' : TxPool}

/-- The cache is for the same block, and has no nonce it did not have. -/
structure Shrinks (p p' : TxPool) : Prop where
  wellFormed : p.WellFormed → p'.WellFormed
  validBlock : p'.nonces.validBlock = p.nonces.validBlock
  cached : ∀ a k, p'.cached a = some k → p.cached a = some k

namespace Shrinks

theorem refl (p : TxPool) : Shrinks p p := ⟨id, rfl, fun _ _ h => h⟩

theorem trans (h : Shrinks p p') (h' : Shrinks p' p'') : Shrinks p p'' :=
  ⟨fun hp => h'.wellFormed (h.wellFormed hp), h'.validBlock.trans h.validBlock,
    fun a k hk => h.cached a k (h'.cached a k hk)⟩

theorem of_eq (h : p' = p) : Shrinks p p' := by
  rw [h]
  exact .refl p

theorem of_nonces (hwf : p.WellFormed → p'.WellFormed) (h : p'.nonces = p.nonces) :
    Shrinks p p' := by
  refine ⟨hwf, by rw [h], fun a k hk => ?_⟩
  rwa [TxPool.cached, h] at hk

theorem of_clear (hwf : p.WellFormed → p'.WellFormed) (h : p'.nonces = p.nonces.clear) :
    Shrinks p p' := by
  refine ⟨hwf, by rw [h]; rfl, fun a k hk => ?_⟩
  rw [TxPool.cached, h] at hk
  cases hk.symm.trans Std.ExtTreeMap.getElem?_empty

theorem clearNonces (p : TxPool) : Shrinks p p.clearNonces := .of_clear (·.clearNonces) rfl

theorem put {tx : Order} {parentBlock : Nat} (h : p.put tx parentBlock = .ok p') :
    Shrinks p p' := by
  have hwf : p.WellFormed → p'.WellFormed := fun hp => hp.put h
  cases put_step h with
  | discarded k hvalid hk hlt => exact .of_nonces hwf rfl
  | inserted hl hnonces =>
      rcases hnonces with rfl | rfl
      · exact .of_nonces hwf rfl
      · exact .of_clear hwf rfl

theorem activeOrders {order : HashOrder} {blockNumber baseFee : Nat} {a : Option ActiveOrders}
    (h : p.activeOrders order blockNumber baseFee = .ok (a, p')) : Shrinks p p' := by
  have hwf : p.WellFormed → p'.WellFormed := fun hp => (hp.activeOrders h).2
  simp only [TxPool.activeOrders] at h
  split at h
  · split at h
    · cases h
      exact .of_clear hwf rfl
    · obtain ⟨b, -, hok⟩ := Except.bind_eq_ok_iff.mp h
      cases hok
      exact .of_clear hwf rfl
  · obtain ⟨b, -, hok⟩ := Except.bind_eq_ok_iff.mp h
    cases hok
    exact .of_nonces hwf rfl

theorem reportAndSanityCheck (p : TxPool) (parentBlock : Nat) (drawn : Address)
    (simulatorNonce : Option Nat) :
    Shrinks p (p.reportAndSanityCheck parentBlock drawn simulatorNonce) := by
  rcases p.reportAndSanityCheck_cases parentBlock drawn simulatorNonce with hsame | hclear
  · rw [hsame]
    exact .refl p
  · rw [hclear]
    exact .clearNonces p

end Shrinks

/-! ### Readers of the cache -/

/-- **A tx is kept**, unless its nonce is below a cached one that counts. -/
theorem put_keeps {tx : Order} {parentBlock : Nat} (h : p.put tx parentBlock = .ok p') :
    orderAt (p'.listOf tx.sender) tx.nonce = some tx ∨
      p.nonces.isValidParent parentBlock = true ∧
        ∃ k, p.cached tx.sender = some k ∧ tx.nonce < k := by
  cases put_step h with
  | discarded k hvalid hk hlt => exact Or.inr ⟨hvalid, k, hk, hlt⟩
  | inserted hl hnonces =>
      obtain ⟨-, rfl⟩ := TxList.put_eq_ok hl
      exact Or.inl (by simp [orderAt, listOf])

/-- The cached nonce of the sender, if the cache is for this block. -/
def cachedFor (p : TxPool) (blockNumber : Nat) (a : Address) : Option Nat :=
  if p.nonces.isValidBlock blockNumber then p.cached a else none

/-- What a snapshot takes over of a list. -/
def offered (p : TxPool) (blockNumber baseFee : Nat) (l : TxList) : Option TxList :=
  match p.cachedFor blockNumber l.sender with
  | some nonce => if l.hasTxByNonce nonce baseFee then some (l.forward nonce) else none
  | none => if l.hasTxByFee baseFee then some l else none

/-- A snapshot of lists has what is in them. -/
theorem mem_snapshot {order : HashOrder} {txs : HashMap TxList} {a : ActiveOrders}
    (h : ActiveOrders.new order txs = .ok a) (l : TxList) :
    l ∈ a.txLists ↔ ∃ s : Address, txs[s]? = some l := by
  rw [(ActiveOrders.new_perm h).mem_iff, List.mem_map]
  constructor
  · rintro ⟨⟨s, l'⟩, hmem, rfl⟩
    exact ⟨s, Std.ExtTreeMap.mem_toList_iff_getElem?_eq_some.mp hmem⟩
  · rintro ⟨s, hs⟩
    exact ⟨(s, l), Std.ExtTreeMap.mem_toList_iff_getElem?_eq_some.mpr hs, rfl⟩

/-- The list of one more sender, as it is offered, if it is. -/
def collect (p : TxPool) (blockNumber baseFee : Nat) (active : HashMap TxList)
    (entry : Address × TxList) : HashMap TxList :=
  ((p.offered blockNumber baseFee entry.2).map (active.insert entry.1)).getD active

/-- A step writes the key of its own sender, so the order of the senders does not
matter. -/
theorem collect_local (p : TxPool) (blockNumber baseFee : Nat) :
    KeyedFold.Local (fun (m : HashMap TxList) (s : Address) => m[s]?)
      (fun l x => (p.offered blockNumber baseFee l).or x) (p.collect blockNumber baseFee) := by
  intro m entry s
  rw [collect]
  cases hl : p.offered blockNumber baseFee entry.2 with
  | none => simp [hl]
  | some l => simp [hl, Std.ExtTreeMap.getElem?_insert]

/-- The collected lists are those that are offered. -/
theorem getElem?_collected (p : TxPool) (blockNumber baseFee : Nat) (s : Address) :
    (p.txLists.toList.foldl (p.collect blockNumber baseFee) ∅)[s]? =
      (p.listOf s).bind (p.offered blockNumber baseFee) := by
  have hget := (p.collect_local blockNumber baseFee).get_foldl_toList p.txLists ∅ s
  rw [hget, listOf]
  cases p.txLists[s]? with
  | none => simp
  | some l => simp

/-- The lists that `get_active_for_nonces` collects. -/
theorem getActiveForNonces_eq_ok (hp : p.WellFormed) {order : HashOrder} {blockNumber baseFee : Nat}
    (hvalid : p.nonces.isValidBlock blockNumber = true) {a : Option ActiveOrders}
    (h : p.getActiveForNonces order baseFee = .ok a) :
    ∃ active : HashMap TxList,
      (∀ s, active[s]? = (p.listOf s).bind (p.offered blockNumber baseFee)) ∧
        (a = none ∧ active.isEmpty = true ∨
          ∃ b, a = some b ∧ ActiveOrders.new order active = .ok b) := by
  obtain ⟨active, hfold, hok⟩ := Except.bind_eq_ok_iff.mp h
  -- the loop without its errors
  have hcollected : active = p.txLists.toList.foldl (p.collect blockNumber baseFee) ∅ := by
    refine Run.eq_foldl_of_foldlM p.txLists.toList (fun entry hentry s s' hstep => ?_) hfold
    obtain ⟨sender, l⟩ := entry
    have hsender : l.sender = sender :=
      hp.sender sender l (Std.ExtTreeMap.mem_toList_iff_getElem?_eq_some.mp hentry)
    have hcached : p.cachedFor blockNumber l.sender = p.nonces.get sender := by
      rw [cachedFor, if_pos hvalid, hsender]
      rfl
    rw [collect, offered, hcached]
    cases hk : p.nonces.get sender with
    | none =>
        simp only [hk] at hstep
        cases hstep
        simp only
        split <;> rfl
    | some nonce =>
        simp only [hk] at hstep
        simp only
        split at hstep
        · rename_i hdue
          rw [if_pos hdue]
          split at hstep
          · cases hstep
          · cases hstep
            rfl
        · rename_i hdue
          rw [if_neg hdue]
          cases hstep
          rfl
  refine ⟨active, fun s => ?_, ?_⟩
  · rw [hcollected]
    exact p.getElem?_collected blockNumber baseFee s
  · split at hok
    · rename_i hempty
      cases hok
      exact Or.inl ⟨rfl, hempty⟩
    · obtain ⟨b, hb, hok⟩ := Except.bind_eq_ok_iff.mp hok
      cases hok
      exact Or.inr ⟨b, rfl, hb⟩

/-- The lists that `active_orders` collects, with a cache or without. -/
theorem activeOrders_eq_ok (hp : p.WellFormed) {order : HashOrder} {blockNumber baseFee : Nat}
    {a : Option ActiveOrders} (h : p.activeOrders order blockNumber baseFee = .ok (a, p')) :
    ∃ active : HashMap TxList,
      (∀ s, active[s]? = (p.listOf s).bind (p.offered blockNumber baseFee)) ∧
        (a = none ∧ active.isEmpty = true ∨
          ∃ b, a = some b ∧ ActiveOrders.new order active = .ok b) := by
  simp only [TxPool.activeOrders] at h
  split at h
  · rename_i hvalid
    -- without a cache only the fee of the first tx counts
    have hoffered : ∀ k, p.offered blockNumber baseFee k =
        if k.hasTxByFee baseFee then some k else none := by
      intro k
      rw [offered, cachedFor, if_neg (by simpa using hvalid)]
    have hget : ∀ s, (p.txLists.filter fun _ l => l.hasTxByFee baseFee)[s]? =
        (p.listOf s).bind (p.offered blockNumber baseFee) := by
      intro s
      rw [Std.ExtTreeMap.getElem?_filter', listOf]
      cases p.txLists[s]? with
      | none => rfl
      | some k => simp [hoffered, Option.filter]
    refine ⟨_, hget, ?_⟩
    split at h
    · rename_i hempty
      cases h
      refine Or.inl ⟨rfl, ?_⟩
      rw [Std.ExtTreeMap.isEmpty_iff.mp hempty]
      rfl
    · obtain ⟨b, hb, hok⟩ := Except.bind_eq_ok_iff.mp h
      cases hok
      exact Or.inr ⟨b, rfl, hb⟩
  · rename_i hvalid
    obtain ⟨b, hb, hok⟩ := Except.bind_eq_ok_iff.mp h
    cases hok
    exact getActiveForNonces_eq_ok hp (by simpa using hvalid) hb

/-- **A snapshot has the lists that are offered**, and no others. -/
theorem activeOrders_shows (hp : p.WellFormed) {order : HashOrder} {blockNumber baseFee : Nat}
    {a : Option ActiveOrders} (h : p.activeOrders order blockNumber baseFee = .ok (a, p'))
    (l : TxList) :
    l ∈ (a.getD .empty).txLists ↔
      ∃ s, (p.listOf s).bind (p.offered blockNumber baseFee) = some l := by
  obtain ⟨active, hget, ⟨rfl, hempty⟩ | ⟨b, rfl, hnew⟩⟩ := activeOrders_eq_ok hp h
  · have hnone : ∀ s, (p.listOf s).bind (p.offered blockNumber baseFee) = none := by
      intro s
      rw [← hget, Std.ExtTreeMap.isEmpty_iff.mp hempty]
      exact Std.ExtTreeMap.getElem?_empty
    simp [hnone, ActiveOrders.empty]
  · show l ∈ b.txLists ↔ _
    rw [mem_snapshot hnew]
    exact exists_congr fun s => by rw [hget]

end TxPool

namespace Sequencer

open TxPool (Shrinks)

variable {env : Env} {s s' : Sequencer}

/-! ### The tick -/

theorem recvBlocks_txPool {i : RecvInput} (h : s.recvBlocks i = .ok s') :
    s'.txPool = s.txPool := by
  obtain ⟨t, ctx, hl2, -, rfl⟩ := recvBlocks_eq_ok h
  have hstart : (s.recvL1Blocks i).txPool = s.txPool := rfl
  have ht : t.txPool = s.txPool := by
    refine Run.run_invariant (fun t : Sequencer => t.txPool = s.txPool) i.l2Blocks
      (fun block _ u u' hu hrecv => ?_) hstart hl2
    obtain ⟨reorged, ctx, -, rfl, -⟩ := recvL2Block_eq_ok hrecv
    exact hu
  exact ht

theorem fetchTxs_pool {txs : List Order} (h : s.fetchTxs txs = .ok s') :
    Shrinks s.txPool s'.txPool := by
  obtain ⟨parent, -, hfold⟩ := Except.bind_eq_ok_iff.mp h
  refine Run.run_invariant (fun t : Sequencer => Shrinks s.txPool t.txPool) txs
    (fun tx _ u u' hu htx => ?_) (.refl s.txPool) hfold
  obtain ⟨state, txPool, hput, rfl, -⟩ := handleTx_eq_ok htx
  exact hu.trans (.put hput)

theorem handleSims_txPool {sim : Option (Except String SimulatedOrder)}
    (h : s.handleSims sim = .ok s') : s'.txPool = s.txPool := by
  rcases handleSims_eq_ok h with ⟨rfl, -⟩ | ⟨r, sd, sd', -, -, -, rfl⟩ <;> rfl

theorem checkCanSequence_txPool (s : Sequencer) (i : TickInput) :
    (s.checkCanSequence env i).txPool = s.txPool := by
  simp only [checkCanSequence]
  split <;> rfl

theorem checkCanPropose_txPool {i : TickInput} (h : s.checkCanPropose env i = .ok s') :
    s'.txPool = s.txPool := by
  obtain ⟨lookahead, t, canPropose, rfl, rfl | ⟨target, rfl⟩⟩ := checkCanPropose_eq_ok h <;> rfl

theorem sendBatchToProposer_txPool (s : Sequencer) (stateCheck : Bool) :
    (s.sendBatchToProposer stateCheck).txPool = s.txPool := by
  simp only [sendBatchToProposer]
  split
  · rfl
  · split <;> rfl

theorem maybeRefreshAnchor_txPool (s : Sequencer) (i : TickInput) :
    (s.maybeRefreshAnchor env i).txPool = s.txPool := by
  rcases maybeRefreshAnchor_cases env s i with hsame | ⟨header, hupdate, -⟩
  · rw [hsame]
  · rw [hupdate]
    exact sendBatchToProposer_txPool (s.setAnchor header i.anchorCreatedUtc) true

theorem refresh_pool {i : TickInput} (h : s.refresh env i = .ok s') :
    Shrinks s.txPool s'.txPool := by
  obtain ⟨t, ht, hs'⟩ := refresh_eq_ok h
  have hanchor : t.txPool = s.txPool := by
    rcases ht with rfl | rfl
    · rfl
    · exact maybeRefreshAnchor_txPool s i
  rw [← hanchor]
  rcases hs' with rfl | ⟨parentBlock, timings, rfl⟩
  · exact .refl _
  · exact .reportAndSanityCheck _ _ _ _

theorem clearProposal_txPool (s : Sequencer) (i : TickInput) :
    (s.clearProposal env i).txPool = s.txPool := by
  apply clearProposal_induction (fun t => t.txPool = s.txPool)
  · intro lookahead
    rfl
  · intro t ht
    exact (sendBatchToProposer_txPool t true).trans ht

/-- **A tick writes no nonce into the cache.** -/
theorem tick_pool {i : TickInput} (h : s.tick env i = .ok s') : Shrinks s.txPool s'.txPool := by
  simp only [tick, Except.bind_eq_ok_iff] at h
  obtain ⟨s1, hrecv, s2, htxs, s3, hsims, s4, hpropose, s5, hrefresh, h⟩ := h
  cases h
  have h2 : Shrinks s1.txPool s2.txPool := fetchTxs_pool htxs
  rw [recvBlocks_txPool hrecv, ← handleSims_txPool hsims,
    ← @checkCanSequence_txPool env s3 i, ← checkCanPropose_txPool hpropose] at h2
  rw [clearProposal_txPool]
  exact h2.trans (refresh_pool hrefresh)

theorem ticked_pool {i : Input} {t : Sequencer} (h : s.ticked env i = some t) :
    Shrinks s.txPool t.txPool := by
  simp only [ticked] at h
  split at h
  · exact @tick_pool env { s with looping := true } t i.tick (Except.toOption_eq_some_iff.mp h)
  · cases h

/-! ### The transition -/

theorem flushIfStale_txPool (s : Sequencer) (anchorParams : AnchorParams) :
    (s.flushIfStale anchorParams).txPool = s.txPool := by
  simp only [flushIfStale]
  split
  · exact sendBatchToProposer_txPool s false
  · rfl

theorem StatusGate.txPool {i : TransitionInput} {g : Sequencer} {go : Bool}
    (h : StatusGate i s (g, go)) : g.txPool = s.txPool := by
  obtain ⟨timings, needs, events, heq, -⟩ := h.eq
  simp only at heq
  rw [heq]

/-- The snapshot that a block is started from. -/
theorem startBlock_pool {i : TransitionInput} {g : Sequencer} {size : Nat}
    (h : g.startBlock env size i = .ok s') :
    s'.txPool = g.txPool ∨
      ∃ stateId blockInfo active, g.anchorBlock env i = .ok (.ok (stateId, blockInfo)) ∧
        g.txPool.activeOrders i.hashOrder blockInfo.blockNumber blockInfo.baseFee =
          .ok (active, s'.txPool) := by
  simp only [startBlock] at h
  obtain ⟨anchored, hanchored, h⟩ := Except.bind_eq_ok_iff.mp h
  cases anchored with
  | error err =>
      simp only at h
      split at h
      · cases h
      · cases h
        exact Or.inl rfl
  | ok r =>
      obtain ⟨stateId, blockInfo⟩ := r
      obtain ⟨⟨active, txPool⟩, hactive, hok⟩ := Except.bind_eq_ok_iff.mp h
      cases hok
      exact Or.inr ⟨stateId, blockInfo, active, hanchored, hactive⟩

/-- **Starting a block writes no nonce into the cache**, and neither does
waiting. -/
theorem syncTransition_pool {i : TransitionInput} {lastL1 : Nat}
    (hstate : s.ctx.state = .sync lastL1) (h : s.stateTransition env i = .ok s') :
    Shrinks s.txPool s'.txPool := by
  simp only [stateTransition, hstate] at h
  obtain ⟨gate, hgate, h⟩ := Except.bind_eq_ok_iff.mp h
  cases gate with
  | build g size =>
      have hanchoring : s.anchoring env i = some (g, size) := by
        simp only [anchoring, hstate, hgate]
      have hpool : g.txPool = s.txPool := (anchoring_eq_some hanchoring).2.2.txPool
      rw [← hpool]
      rcases startBlock_pool h with hsame | ⟨stateId, blockInfo, active, -, hactive⟩
      · exact .of_eq hsame
      · exact .activeOrders hactive
  | wait g =>
      cases h
      rcases syncGate_cases hgate with ⟨-, g, hwait, hg⟩ | ⟨-, g, go, size, hstatus, hgo⟩
      · cases hwait
        rcases hg with rfl | ⟨l, rfl⟩ <;> exact .refl s.txPool
      · cases go with
        | true => cases hgo
        | false =>
            cases hgo
            exact .of_eq (statusGate_cases hstatus).txPool

end Sequencer
end TaikoGateway
