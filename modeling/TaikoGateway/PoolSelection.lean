/-
TaikoGateway/PoolSelection.lean

Which lists `active_orders` selects, and that it always returns.

Any sequence of operations runs through and leaves a well-formed pool, and
every snapshot of it is a `Selection`: one non-empty list a sender, sorted by
the priority fee of the first order, and a list whose sender is cached starts
at the cached nonce (`pool_operations`).

A sender that could be included is left out in one case.  Where the cache does
not say the nonce of the sender, the fee of the first order in its list is
tested, and this order may be a leftover below the nonce (`HiddenByLeftover`,
`activeOrders_offers_iff`).  The same pool with a cache offers the sender.
-/
import TaikoGateway.PoolLoop

namespace TaikoGateway

/-! ### First orders -/

namespace TxList

theorem weight_eq_ok {l : TxList} (h : l.isEmpty = false) : ∃ w, l.weight = .ok w := by
  obtain ⟨k, o, hfirst⟩ := first_isSome h
  exact ⟨o.tx.priorityFeeOrPrice, by rw [weight, hfirst]⟩

theorem hasTxByFee_iff {l : TxList} {baseFee : Nat} :
    l.hasTxByFee baseFee = true ↔
      ∃ k o, l.first = some (k, o) ∧ o.validForBaseFee baseFee = true := by
  cases hfirst : l.first with
  | none => simp [hasTxByFee, hfirst]
  | some e =>
      obtain ⟨k, o⟩ := e
      simp [hasTxByFee, hfirst]

theorem hasTxByNonce_iff {l : TxList} {nonce baseFee : Nat} :
    l.hasTxByNonce nonce baseFee = true ↔
      ∃ o, l.txs[nonce]? = some o ∧ o.validForBaseFee baseFee = true := by
  cases hget : l.txs[nonce]? with
  | none => simp [hasTxByNonce, hget]
  | some o => simp [hasTxByNonce, hget]

theorem isEmpty_of_getElem? {l : TxList} {k : Nat} {o : Order} (h : l.txs[k]? = some o) :
    l.isEmpty = false := by
  cases hempty : l.isEmpty with
  | false => rfl
  | true => cases (isEmpty_iff.mp hempty k).symm.trans h

/-- With an order at the nonce that pays, the first one fails the test only if it
is a leftover. -/
theorem hasTxByFee_iff_of_due {l : TxList} {nonce baseFee : Nat} {o : Order}
    (ho : l.txs[nonce]? = some o) (hfee : o.validForBaseFee baseFee = true) :
    l.hasTxByFee baseFee = true ↔ ¬ ∃ k first, l.first = some (k, first) ∧ k < nonce ∧
      first.validForBaseFee baseFee = false := by
  rw [hasTxByFee_iff]
  constructor
  · rintro ⟨k, first, hfirst, hrich⟩ ⟨k', first', hfirst', -, hpoor⟩
    cases hfirst.symm.trans hfirst'
    cases hrich.symm.trans hpoor
  · intro hnone
    obtain ⟨k, first, hfirst⟩ := first_isSome (isEmpty_of_getElem? ho)
    refine ⟨k, first, hfirst, ?_⟩
    by_contra hpoor
    have hne : k ≠ nonce := by
      rintro rfl
      cases ho.symm.trans (first_eq_some hfirst)
      exact hpoor hfee
    have hlt : k < nonce := Nat.lt_of_le_of_ne (first_le hfirst ho) hne
    exact hnone ⟨k, first, hfirst, hlt, by simpa using hpoor⟩

/-- A list with an order at the nonce starts there once it is forwarded. -/
theorem first_forward {l : TxList} {nonce : Nat} {o : Order} (h : l.txs[nonce]? = some o) :
    (l.forward nonce).first = some (nonce, o) := by
  have hkept : (l.forward nonce).txs[nonce]? = some o := by
    rw [getElem?_forward, if_neg (Nat.lt_irrefl nonce)]
    exact h
  obtain ⟨k, o', hfirst⟩ := first_isSome (isEmpty_of_getElem? hkept)
  have hk := first_eq_some hfirst
  have hle : k ≤ nonce := first_le hfirst hkept
  have hge : nonce ≤ k := by
    rw [getElem?_forward] at hk
    split at hk
    · cases hk
    · exact Nat.le_of_not_lt ‹_›
  obtain rfl : k = nonce := Nat.le_antisymm hle hge
  cases hkept.symm.trans hk
  exact hfirst

end TxList

/-! ### Snapshots of lists -/

namespace ActiveOrders

/-- The lists are sorted by decreasing priority fee of the first order. -/
def SortedByWeight (ls : List TxList) : Prop :=
  ls.Pairwise fun l l' => ∃ w w', l.weight = .ok w ∧ l'.weight = .ok w' ∧ w' ≤ w

/-- The order of `sortByWeight`. -/
def Decreasing (a b : Nat × TxList) : Prop := b.1 ≤ a.1

instance : DecidableRel Decreasing := fun a b => inferInstanceAs (Decidable (b.1 ≤ a.1))

instance : Std.Total Decreasing := ⟨fun a b => Nat.le_total b.1 a.1⟩

instance : IsTrans (Nat × TxList) Decreasing := ⟨fun _ _ _ hab hbc => Nat.le_trans hbc hab⟩

theorem sortByWeight_sorted {keyed : List (Nat × TxList)}
    (h : ∀ e ∈ keyed, e.2.weight = .ok e.1) : SortedByWeight (sortByWeight keyed) := by
  have hsorted := List.pairwise_insertionSort Decreasing keyed
  show List.Pairwise _ (List.map Prod.snd (keyed.insertionSort Decreasing))
  rw [List.pairwise_map]
  apply hsorted.imp_of_mem
  intro a b ha hb hle
  rw [List.mem_insertionSort] at ha hb
  exact ⟨a.1, b.1, h a ha, h b hb, hle⟩

/-- No list of the map is empty. -/
def NonemptyLists (txs : HashMap TxList) : Prop :=
  ∀ (s : Address) (l : TxList), txs[s]? = some l → l.isEmpty = false

theorem nonemptyLists_empty : NonemptyLists ∅ := by
  intro s l hl
  cases Std.ExtTreeMap.getElem?_empty.symm.trans hl

theorem NonemptyLists.insert {txs : HashMap TxList} (h : NonemptyLists txs) (sender : Address)
    {l : TxList} (hl : l.isEmpty = false) : NonemptyLists (txs.insert sender l) := by
  intro s k hk
  rw [Std.ExtTreeMap.getElem?_insert] at hk
  split at hk
  · cases hk
    exact hl
  · exact h s k hk

/-- A snapshot of non-empty lists can be taken, and is sorted. -/
theorem new_total (order : HashOrder) {txs : HashMap TxList} (h : NonemptyLists txs) :
    ∃ a, ActiveOrders.new order txs = .ok a ∧ SortedByWeight a.txLists := by
  have hmem : ∀ l ∈ order.values txs, l.isEmpty = false := by
    intro l hl
    obtain ⟨⟨s, k⟩, hentry, rfl⟩ := List.mem_map.mp ((order.perm txs).mem_iff.mp hl)
    exact h s k (Std.ExtTreeMap.mem_toList_iff_getElem?_eq_some.mp hentry)
  simp only [ActiveOrders.new]
  split
  · rename_i hshort
    refine ⟨_, rfl, ?_⟩
    show SortedByWeight (order.values txs)
    cases hlists : order.values txs with
    | nil => exact .nil
    | cons l ls =>
        rw [hlists, List.length_cons] at hshort
        have hnil : ls = [] := List.length_eq_zero_iff.mp (by omega)
        rw [hnil]
        exact List.pairwise_singleton _ l
  · obtain ⟨keyed, hkeyed, hweights⟩ := Except.exists_mapM
      (f := fun l : TxList => l.weight >>= fun w => (.ok (w, l) : Except Panic (Nat × TxList)))
      (fun l hl => by
        obtain ⟨w, hw⟩ := TxList.weight_eq_ok (hmem l hl)
        exact ⟨(w, l), Except.bind_eq_ok_iff.mpr ⟨w, hw, rfl⟩⟩)
    refine ⟨_, Except.bind_eq_ok_iff.mpr ⟨keyed, hkeyed, rfl⟩, sortByWeight_sorted ?_⟩
    intro e he
    obtain ⟨l, -, hl⟩ := hweights e he
    obtain ⟨w, hw, hok⟩ := Except.bind_eq_ok_iff.mp hl
    cases hok
    exact hw

/-- Lists under their own senders make a snapshot with one list a sender. -/
theorem nodup_of_new {order : HashOrder} {txs : HashMap TxList} {a : ActiveOrders}
    (hsender : ∀ (s : Address) (l : TxList), txs[s]? = some l → l.sender = s)
    (h : ActiveOrders.new order txs = .ok a) : (a.txLists.map (·.sender)).Nodup := by
  have hkeys : txs.toList.map (fun e => e.2.sender) = txs.toList.map Prod.fst := by
    apply List.map_congr_left
    intro e he
    exact hsender e.1 e.2 (Std.ExtTreeMap.mem_toList_iff_getElem?_eq_some.mp he)
  rw [((new_perm h).map (·.sender)).nodup_iff, List.map_map]
  show (txs.toList.map fun e => e.2.sender).Nodup
  rw [hkeys]
  exact List.pairwise_map.mpr ((Std.ExtTreeMap.distinct_keys_toList (t := txs)).imp
    fun hne heq => hne (by rw [heq]; exact Std.ReflCmp.compare_self))

end ActiveOrders

namespace TxPool

variable {p p' : TxPool}

/-! ### Selection -/

/-- The lists of a snapshot of the pool. -/
structure Selection (p : TxPool) (blockNumber baseFee : Nat) (ls : List TxList) : Prop where
  nonempty : ∀ l ∈ ls, l.isEmpty = false
  senders : (ls.map (·.sender)).Nodup
  sorted : ActiveOrders.SortedByWeight ls
  /-- a list whose sender is cached starts at the cached nonce -/
  cached : p.nonces.isValidBlock blockNumber = true → ∀ l ∈ ls, ∀ nonce,
    p.cached l.sender = some nonce →
      ∃ o, l.first = some (nonce, o) ∧ o.validForBaseFee baseFee = true

/-- What is offered of a list is the sender's, and not empty. -/
theorem offered_spec {blockNumber baseFee : Nat} {l k : TxList}
    (h : p.offered blockNumber baseFee l = some k) :
    k.sender = l.sender ∧ k.isEmpty = false ∧
      ∀ nonce, p.cachedFor blockNumber l.sender = some nonce →
        ∃ o, k.first = some (nonce, o) ∧ o.validForBaseFee baseFee = true := by
  rw [offered] at h
  split at h
  · rename_i nonce hcached
    split at h
    · rename_i hdue
      cases h
      obtain ⟨o, ho, hfee⟩ := TxList.hasTxByNonce_iff.mp hdue
      have hfirst := TxList.first_forward ho
      refine ⟨rfl, TxList.isEmpty_of_getElem? (TxList.first_eq_some hfirst), fun n hn => ?_⟩
      cases hcached.symm.trans hn
      exact ⟨o, hfirst, hfee⟩
    · cases h
  · rename_i hcached
    split at h
    · rename_i hdue
      cases h
      obtain ⟨n, o, hfirst, -⟩ := TxList.hasTxByFee_iff.mp hdue
      refine ⟨rfl, TxList.isEmpty_of_getElem? (TxList.first_eq_some hfirst), fun n hn => ?_⟩
      cases hcached.symm.trans hn
    · cases h

/-- Collecting the lists of cached nonces never meets an empty one. -/
theorem getActiveForNonces_total (hp : p.WellFormed) (order : HashOrder) (baseFee : Nat) :
    ∃ a, p.getActiveForNonces order baseFee = .ok a := by
  refine Except.exists_bind (Run.run_total ActiveOrders.NonemptyLists _ ?_
    ActiveOrders.nonemptyLists_empty) fun active hactive => ?_
  · rintro ⟨sender, l⟩ hentry active hactive
    have hl : l.isEmpty = false :=
      hp.nonempty sender l (Std.ExtTreeMap.mem_toList_iff_getElem?_eq_some.mp hentry)
    simp only
    split
    · rename_i stateNonce _
      split
      · rename_i hdue
        obtain ⟨o, ho, -⟩ := TxList.hasTxByNonce_iff.mp hdue
        have hforward : (l.forward stateNonce).isEmpty = false :=
          TxList.isEmpty_of_getElem? (TxList.first_eq_some (TxList.first_forward ho))
        rw [if_neg (by rw [hforward]; exact Bool.false_ne_true)]
        exact ⟨_, rfl, hactive.insert sender hforward⟩
      · exact ⟨active, rfl, hactive⟩
    · refine ⟨_, rfl, ?_⟩
      split
      · exact hactive.insert sender hl
      · exact hactive
  · split
    · exact ⟨none, rfl⟩
    · obtain ⟨a, ha, -⟩ := ActiveOrders.new_total order hactive
      exact ⟨some a, Except.bind_eq_ok_iff.mpr ⟨a, ha, rfl⟩⟩

/-- **A snapshot can always be taken.** -/
theorem activeOrders_total (hp : p.WellFormed) (order : HashOrder) (blockNumber baseFee : Nat) :
    ∃ r, p.activeOrders order blockNumber baseFee = .ok r := by
  simp only [TxPool.activeOrders]
  split
  · split
    · exact ⟨_, rfl⟩
    · have hlists : ActiveOrders.NonemptyLists
          (p.txLists.filter fun _ l => l.hasTxByFee baseFee) := by
        intro s l hl
        rw [Std.ExtTreeMap.getElem?_filter'] at hl
        exact hp.nonempty s l (Option.filter_eq_some_iff.mp hl).1
      obtain ⟨a, ha, -⟩ := ActiveOrders.new_total order hlists
      exact ⟨_, Except.bind_eq_ok_iff.mpr ⟨a, ha, rfl⟩⟩
  · obtain ⟨a, ha⟩ := getActiveForNonces_total hp order baseFee
    exact ⟨_, Except.bind_eq_ok_iff.mpr ⟨a, ha, rfl⟩⟩

/-- **What a snapshot of a well-formed pool is.** -/
theorem activeOrders_selects (hp : p.WellFormed) {order : HashOrder} {blockNumber baseFee : Nat}
    {a : Option ActiveOrders} (h : p.activeOrders order blockNumber baseFee = .ok (a, p')) :
    Selection p blockNumber baseFee (a.getD .empty).txLists := by
  obtain ⟨active, hget, ⟨rfl, -⟩ | ⟨b, rfl, hnew⟩⟩ := activeOrders_eq_ok hp h
  · exact ⟨fun l hl => (by cases hl), .nil, .nil, fun _ l hl => (by cases hl)⟩
  -- each collected list is one that was offered
  · have hactive : ∀ (s : Address) (k : TxList), active[s]? = some k → k.sender = s ∧
        k.isEmpty = false ∧ ∀ nonce, p.cachedFor blockNumber s = some nonce →
          ∃ o, k.first = some (nonce, o) ∧ o.validForBaseFee baseFee = true := by
      intro s k hk
      rw [hget] at hk
      obtain ⟨l, hl, hoffered⟩ := Option.bind_eq_some_iff.mp hk
      have hsender : l.sender = s := hp.sender s l hl
      rw [← hsender]
      exact offered_spec hoffered
    obtain ⟨b', hb', hsorted⟩ := ActiveOrders.new_total order fun s k hk => (hactive s k hk).2.1
    cases hnew.symm.trans hb'
    show Selection p blockNumber baseFee b.txLists
    refine ⟨?_, ActiveOrders.nodup_of_new (fun s k hk => (hactive s k hk).1) hnew, hsorted, ?_⟩
    · intro l hl
      obtain ⟨s, hs⟩ := (mem_snapshot hnew l).mp hl
      exact (hactive s l hs).2.1
    · intro hvalid l hl nonce hnonce
      obtain ⟨s, hs⟩ := (mem_snapshot hnew l).mp hl
      obtain ⟨hsender, -, hfirst⟩ := hactive s l hs
      apply hfirst nonce
      rw [cachedFor, if_pos hvalid, ← hsender]
      exact hnonce

/-! ### Sequences of operations -/

/-- An operation on the pool, with its arguments. -/
inductive Op
  | put (tx : Order) (parentBlock : Nat)
  | activeOrders (order : HashOrder) (blockNumber baseFee : Nat)
  | updateNewBlock (n : SortingNonces)
  | updateReset (n : SortingNonces)
  | clearNonces

def apply (p : TxPool) : Op → Except Panic TxPool
  | .put tx parentBlock => p.put tx parentBlock
  | .activeOrders order blockNumber baseFee => do
      let (_, p) ← p.activeOrders order blockNumber baseFee
      .ok p
  | .updateNewBlock n => .ok (p.updateNewBlock n)
  | .updateReset n => .ok (p.updateReset n)
  | .clearNonces => .ok p.clearNonces

/-- The list of a sender takes an order of the sender. -/
theorem put_total (hp : p.WellFormed) (tx : Order) (parentBlock : Nat) :
    ∃ q, p.put tx parentBlock = .ok q := by
  have hlist : ∃ l, (p.txLists[tx.sender]?.getD (.new tx.sender)).put tx = .ok l :=
    ⟨_, if_pos (hp.getD tx.sender).2⟩
  obtain ⟨l, hl⟩ := hlist
  simp only [TxPool.put]
  split
  · exact ⟨_, Except.bind_eq_ok_iff.mpr ⟨l, hl, rfl⟩⟩
  · split
    · split
      · exact ⟨_, rfl⟩
      · exact ⟨_, Except.bind_eq_ok_iff.mpr ⟨l, hl, rfl⟩⟩
    · exact ⟨_, Except.bind_eq_ok_iff.mpr ⟨l, hl, rfl⟩⟩

/-- No operation aborts on a well-formed pool, and each leaves one. -/
theorem WellFormed.apply (hp : p.WellFormed) (op : Op) :
    ∃ q, p.apply op = .ok q ∧ q.WellFormed := by
  cases op with
  | put tx parentBlock =>
      obtain ⟨q, hq⟩ := put_total hp tx parentBlock
      exact ⟨q, hq, hp.put hq⟩
  | activeOrders order blockNumber baseFee =>
      obtain ⟨⟨a, q⟩, hq⟩ := activeOrders_total hp order blockNumber baseFee
      exact ⟨q, Except.bind_eq_ok_iff.mpr ⟨(a, q), hq, rfl⟩, (hp.activeOrders hq).2⟩
  | updateNewBlock n => exact ⟨_, rfl, hp.updateNewBlock n⟩
  | updateReset n => exact ⟨_, rfl, hp.updateReset n⟩
  | clearNonces => exact ⟨_, rfl, hp.clearNonces⟩

/-- **The pool after any sequence of operations.**  No operation aborts.  In
the pool that is reached every list is non-empty, is the list of its sender,
and has each order at the order's nonce; and a snapshot of it for any block
can be taken, and is a `Selection`. -/
theorem pool_operations (ops : List Op) :
    ∃ p, ops.foldlM apply .new = .ok p ∧ p.WellFormed ∧
      ∀ order blockNumber baseFee, ∃ a q, p.activeOrders order blockNumber baseFee = .ok (a, q) ∧
        Selection p blockNumber baseFee (a.getD .empty).txLists := by
  obtain ⟨p, hrun, hp⟩ := Run.run_total WellFormed ops (fun op _ p hp => hp.apply op) wellFormed_new
  refine ⟨p, hrun, hp, fun order blockNumber baseFee => ?_⟩
  obtain ⟨⟨a, q⟩, hq⟩ := activeOrders_total hp order blockNumber baseFee
  exact ⟨a, q, hq, activeOrders_selects hp hq⟩

/-! ### Senders that are left out -/

/-- The sender has an order at its account nonce that pays the base fee. -/
def Includable (p : TxPool) (baseFee : Nat) (accounts : Address → Nat) (sender : Address) : Prop :=
  ∃ o, orderAt (p.listOf sender) (accounts sender) = some o ∧ o.validForBaseFee baseFee = true

/-- The cache does not cover the sender, and the first order in its list is a
leftover below the account nonce that does not pay the base fee. -/
def HiddenByLeftover (p : TxPool) (blockNumber baseFee : Nat) (accounts : Address → Nat)
    (sender : Address) : Prop :=
  p.cachedFor blockNumber sender = none ∧
    ∃ l k o, p.listOf sender = some l ∧ l.first = some (k, o) ∧ k < accounts sender ∧
      o.validForBaseFee baseFee = false

/-- A snapshot has a list of the sender if one is offered. -/
theorem mem_senders (hp : p.WellFormed) {order : HashOrder} {blockNumber baseFee : Nat}
    {a : Option ActiveOrders} (h : p.activeOrders order blockNumber baseFee = .ok (a, p'))
    (sender : Address) :
    sender ∈ (a.getD .empty).txLists.map (·.sender) ↔
      ∃ l k, p.listOf sender = some l ∧ p.offered blockNumber baseFee l = some k := by
  rw [List.mem_map]
  constructor
  · rintro ⟨k, hk, rfl⟩
    obtain ⟨s, hs⟩ := (activeOrders_shows hp h k).mp hk
    obtain ⟨l, hl, hoffered⟩ := Option.bind_eq_some_iff.mp hs
    have hsender : k.sender = s := (offered_spec hoffered).1.trans (hp.sender s l hl)
    rw [hsender]
    exact ⟨l, k, hl, hoffered⟩
  · rintro ⟨l, k, hl, hoffered⟩
    refine ⟨k, (activeOrders_shows hp h k).mpr ⟨sender, ?_⟩, ?_⟩
    · rw [hl]
      exact hoffered
    · exact (offered_spec hoffered).1.trans (hp.sender sender l hl)

/-- A sender that could be included is left out exactly behind a leftover. -/
theorem mem_senders_of_includable (hp : p.WellFormed) {accounts : Address → Nat}
    {order : HashOrder} {blockNumber baseFee : Nat} (hcache : p.CacheCorrect blockNumber accounts)
    {a : Option ActiveOrders} (h : p.activeOrders order blockNumber baseFee = .ok (a, p'))
    {sender : Address} (hdue : p.Includable baseFee accounts sender) :
    sender ∈ (a.getD .empty).txLists.map (·.sender) ↔
      ¬ p.HiddenByLeftover blockNumber baseFee accounts sender := by
  obtain ⟨o, ho, hfee⟩ := hdue
  obtain ⟨l, hl, ho⟩ := Option.bind_eq_some_iff.mp ho
  have hsender : l.sender = sender := hp.sender sender l hl
  rw [mem_senders hp h]
  cases hcached : p.cachedFor blockNumber sender with
  -- a cached nonce is the account nonce, so it is the order there that is tested
  | some nonce =>
      have hnonce : nonce = accounts sender := by
        rw [cachedFor] at hcached
        split at hcached
        · rename_i hvalid
          exact hcache (by simpa [StateNonces.isValidBlock] using hvalid) sender nonce hcached
        · cases hcached
      have hoffered : p.offered blockNumber baseFee l = some (l.forward nonce) := by
        rw [offered, hsender, hcached]
        exact if_pos (TxList.hasTxByNonce_iff.mpr ⟨o, hnonce ▸ ho, hfee⟩)
      constructor
      · rintro - ⟨hnone, -⟩
        cases hcached.symm.trans hnone
      · intro _
        exact ⟨l, _, hl, hoffered⟩
  -- otherwise the first order is tested, which has at most the account nonce
  | none =>
      have hoffered : p.offered blockNumber baseFee l =
          if l.hasTxByFee baseFee then some l else none := by
        rw [offered, hsender, hcached]
      constructor
      · rintro ⟨l', k, hl', hk⟩ ⟨-, l'', n, first, hl'', hleftover⟩
        cases hl.symm.trans hl'
        cases hl.symm.trans hl''
        rw [hoffered, if_neg] at hk
        · cases hk
        · intro hpays
          exact (TxList.hasTxByFee_iff_of_due ho hfee).mp hpays ⟨n, first, hleftover⟩
      · intro hshown
        refine ⟨l, l, hl, ?_⟩
        rw [hoffered, if_pos]
        apply (TxList.hasTxByFee_iff_of_due ho hfee).mpr
        rintro ⟨k, first, hleftover⟩
        exact hshown ⟨hcached, l, k, first, hl, hleftover⟩

/-- **Who is left out of a snapshot.**  Let the cache, where it is for this
block, have the account nonces.  Every sender with an order at its account
nonce that pays the base fee is offered exactly when none of them is hidden by
a leftover. -/
theorem activeOrders_offers_iff (hp : p.WellFormed) {accounts : Address → Nat}
    {order : HashOrder} {blockNumber baseFee : Nat} (hcache : p.CacheCorrect blockNumber accounts)
    {a : Option ActiveOrders} (h : p.activeOrders order blockNumber baseFee = .ok (a, p')) :
    (∀ sender, p.Includable baseFee accounts sender →
        sender ∈ (a.getD .empty).txLists.map (·.sender)) ↔
      ∀ sender, p.Includable baseFee accounts sender →
        ¬ p.HiddenByLeftover blockNumber baseFee accounts sender :=
  forall_congr' fun _ => forall_congr' fun hdue => mem_senders_of_includable hp hcache h hdue

section Sample

open Sample

/-- A tx of sender 5 with this nonce and fee. -/
def payingTx (nonce maxFee : Nat) : Order := .newWithSender ⟨nonce, maxFee, 0, .other [], [1]⟩ 5

/-- The tx at nonce 0 is mined, and was cheaper than the base fee is now. -/
def leftoverPool : TxPool :=
  SortHistory.withTx (SortHistory.withTx .new (payingTx 0 1)) (payingTx 1 10)

theorem leftoverPool_wellFormed : leftoverPool.WellFormed :=
  (SortHistory.withTx_reachable (SortHistory.withTx_reachable .new _) _).wellFormed

/-- Nothing is cached, for whatever block. -/
theorem leftoverPool_cacheCorrect (blockNumber : Nat) (accounts : Address → Nat) :
    leftoverPool.CacheCorrect blockNumber accounts := by
  intro _ a k hk
  have hempty : leftoverPool.nonces.nonces = ∅ := by
    decide +kernel
  rw [cached, StateNonces.get, hempty] at hk
  cases Std.ExtTreeMap.getElem?_empty.symm.trans hk

theorem leftoverPool_includable : leftoverPool.Includable 5 (fun _ => 1) 5 :=
  ⟨payingTx 1 10, by decide +kernel, rfl⟩

/-- The tx at the account nonce 1 pays the base fee 5, and its sender is not
offered. -/
theorem activeOrders_hides :
    ¬ ∀ (p p' : TxPool) (accounts : Address → Nat) (order : HashOrder) (blockNumber baseFee : Nat)
        (a : Option ActiveOrders), p.WellFormed → p.CacheCorrect blockNumber accounts →
        p.activeOrders order blockNumber baseFee = .ok (a, p') →
        ∀ sender, p.Includable baseFee accounts sender →
          sender ∈ (a.getD .empty).txLists.map (·.sender) := by
  intro h
  have hsenders : (leftoverPool.activeOrders .byKey 11 5).toOption.map
      (fun r => (r.1.getD .empty).txLists.map (·.sender)) = some [] := by
    decide +kernel
  obtain ⟨⟨a, q⟩, hrun, hnone⟩ := Option.map_eq_some_iff.mp hsenders
  have hmem := h leftoverPool q (fun _ => 1) .byKey 11 5 a leftoverPool_wellFormed
    (leftoverPool_cacheCorrect 11 _) (Except.toOption_eq_some_iff.mp hrun) 5
    leftoverPool_includable
  rw [hnone] at hmem
  cases hmem

/-- At the base fee 1 the leftover pays too, and hides nothing. -/
theorem activeOrders_offers_leftover :
    ∃ a q, leftoverPool.activeOrders .byKey 11 1 = .ok (a, q) ∧
      (a.getD .empty).txLists.map (·.sender) = [5] ∧
      ((∀ sender, leftoverPool.Includable 1 (fun _ => 1) sender →
          sender ∈ (a.getD .empty).txLists.map (·.sender)) ↔
        ∀ sender, leftoverPool.Includable 1 (fun _ => 1) sender →
          ¬ leftoverPool.HiddenByLeftover 11 1 (fun _ => 1) sender) := by
  have hsenders : (leftoverPool.activeOrders .byKey 11 1).toOption.map
      (fun r => (r.1.getD .empty).txLists.map (·.sender)) = some [5] := by
    decide +kernel
  obtain ⟨⟨a, q⟩, hrun, hsome⟩ := Option.map_eq_some_iff.mp hsenders
  have hrun := Except.toOption_eq_some_iff.mp hrun
  exact ⟨a, q, hrun, hsome, activeOrders_offers_iff leftoverPool_wellFormed
    (leftoverPool_cacheCorrect 11 _) hrun⟩

end Sample

end TxPool

end TaikoGateway
