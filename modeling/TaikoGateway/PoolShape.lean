/-
TaikoGateway/PoolShape.lean

The shape of the pool and of its snapshots: a list has the orders of its
sender, each at its nonce, and the pool has for a sender a list of that
sender, never an empty one.  All operations keep the shape (`WellFormed.put`,
`WellFormed.activeOrders`, and so on).

`getNextBest_matches` is what sorting gets out of it: an order that is taken
for simulation has the nonce that is known of its sender.
-/
import TaikoGateway.TxPool

namespace TaikoGateway

/-! ### Orders of one sender -/

/-- The orders are the sender's, each at its nonce. -/
structure TxList.WellFormed (l : TxList) : Prop where
  sender : ∀ (k : Nat) (o : Order), l.txs[k]? = some o → o.sender = l.sender
  nonce : ∀ (k : Nat) (o : Order), l.txs[k]? = some o → o.nonce = k

namespace TxList

theorem wellFormed_new (sender : Address) : (TxList.new sender).WellFormed := by
  constructor <;> intro k o h <;> simp [new] at h

theorem put_eq_ok {l l' : TxList} {tx : Order} (h : l.put tx = .ok l') :
    l.sender = tx.sender ∧ l' = { l with txs := l.txs.insert tx.nonce tx } := by
  simp only [put] at h
  split at h
  · rename_i hsender
    cases h
    exact ⟨hsender, rfl⟩
  · cases h

theorem first_eq_some {l : TxList} {k : Nat} {o : Order} (h : l.first = some (k, o)) :
    l.txs[k]? = some o :=
  Std.ExtTreeMap.mem_toList_iff_getElem?_eq_some.mp (List.mem_of_mem_head? h)

/-- The first order has the lowest nonce. -/
theorem first_le {l : TxList} {k k' : Nat} {o o' : Order} (h : l.first = some (k, o))
    (hk' : l.txs[k']? = some o') : k ≤ k' := by
  have hsorted := Std.ExtTreeMap.ordered_keys_toList (t := l.txs)
  have hmem := Std.ExtTreeMap.mem_toList_iff_getElem?_eq_some.mpr hk'
  rw [List.eq_cons_of_mem_head? h] at hsorted hmem
  rcases List.mem_cons.mp hmem with heq | hrest
  · cases heq
    exact Nat.le_refl k
  · have hlt : compare k k' = .lt := (List.pairwise_cons.mp hsorted).1 (k', o') hrest
    exact Nat.le_of_lt (Nat.compare_eq_lt.mp hlt)

theorem first_isSome {l : TxList} (h : l.isEmpty = false) : ∃ k o, l.first = some (k, o) := by
  have hne : l.txs.toList ≠ [] := by
    intro hnil
    rw [Std.ExtTreeMap.toList_eq_nil_iff] at hnil
    rw [isEmpty, Std.ExtTreeMap.isEmpty_iff.mpr hnil] at h
    cases h
  exact ⟨_, _, List.head?_eq_some_head hne⟩

namespace WellFormed

variable {l l' : TxList}

/-- Fewer orders are no less well formed. -/
theorem mono (h : l.WellFormed) {txs : BTreeMap Order}
    (hsub : ∀ (k : Nat) (o : Order), txs[k]? = some o → l.txs[k]? = some o) :
    WellFormed { l with txs := txs } :=
  ⟨fun k o ho => h.sender k o (hsub k o ho), fun k o ho => h.nonce k o (hsub k o ho)⟩

theorem put (h : l.WellFormed) {tx : Order} (hput : l.put tx = .ok l') :
    l'.WellFormed ∧ l'.sender = l.sender ∧ l'.isEmpty = false := by
  obtain ⟨hsender, rfl⟩ := put_eq_ok hput
  have hget : ∀ (k : Nat) (o : Order), (l.txs.insert tx.nonce tx)[k]? = some o →
      (tx.nonce = k ∧ tx = o) ∨ l.txs[k]? = some o := by
    intro k o ho
    rw [Std.ExtTreeMap.getElem?_insert] at ho
    split at ho
    · rename_i hk
      cases ho
      exact Or.inl ⟨by simpa using hk, rfl⟩
    · exact Or.inr ho
  refine ⟨⟨fun k o ho => ?_, fun k o ho => ?_⟩, rfl, ?_⟩
  · rcases hget k o ho with ⟨-, rfl⟩ | hold
    · exact hsender.symm
    · exact h.sender k o hold
  · rcases hget k o ho with ⟨hk, rfl⟩ | hold
    · exact hk
    · exact h.nonce k o hold
  · simp [isEmpty]

theorem erase (h : l.WellFormed) (nonce : Nat) :
    WellFormed { l with txs := l.txs.erase nonce } := by
  apply h.mono
  intro k o ho
  rw [Std.ExtTreeMap.getElem?_erase] at ho
  split at ho
  · cases ho
  · exact ho

theorem forward (h : l.WellFormed) (stateNonce : Nat) : (l.forward stateNonce).WellFormed := by
  apply h.mono
  intro k o ho
  rw [Std.ExtTreeMap.getElem?_filter'] at ho
  exact (Option.filter_eq_some_iff.mp ho).1

end WellFormed

/-- Nothing is taken out, or the order with the nonce that is known, if one
is. -/
theorem firstReady_cases (l : TxList) (stateNonce : Option Nat) (baseFee : Nat) :
    l.firstReady stateNonce baseFee = (none, l) ∨
      ∃ nonce order, l.txs[nonce]? = some order ∧ (∀ n, stateNonce = some n → nonce = n) ∧
        l.firstReady stateNonce baseFee =
          (some order, { l with txs := l.txs.erase nonce }) := by
  cases stateNonce with
  | some n =>
      simp only [firstReady]
      split
      · rename_i order horder
        split
        · exact Or.inr ⟨n, order, horder, fun m hm => Option.some.inj hm, rfl⟩
        · exact Or.inl rfl
      · exact Or.inl rfl
  -- no nonce is known: the lowest one of the sender is tried
  | none =>
      simp only [firstReady]
      split
      · split
        · rename_i nonce order hfirst
          exact Or.inr ⟨nonce, order, first_eq_some hfirst, fun m hm => (by cases hm), rfl⟩
        · exact Or.inl rfl
      · exact Or.inl rfl

/-- The order that is taken out is the sender's, has the nonce that was asked
for, and is removed. -/
theorem WellFormed.firstReady_some {l l' : TxList} (h : l.WellFormed) {stateNonce : Option Nat}
    {baseFee : Nat} {order : Order}
    (hready : l.firstReady stateNonce baseFee = (some order, l')) :
    order.sender = l.sender ∧ (∀ n, stateNonce = some n → order.nonce = n) ∧
      l.txs[order.nonce]? = some order ∧ l' = { l with txs := l.txs.erase order.nonce } := by
  rcases l.firstReady_cases stateNonce baseFee with hnone | ⟨nonce, order', horder, hstate, hsome⟩
  · cases hnone.symm.trans hready
  · cases hsome.symm.trans hready
    obtain rfl := h.nonce nonce order horder
    exact ⟨h.sender _ order horder, hstate, horder, rfl⟩

theorem firstReady_none {l l' : TxList} {stateNonce : Option Nat} {baseFee : Nat}
    (hready : l.firstReady stateNonce baseFee = (none, l')) : l' = l := by
  rcases l.firstReady_cases stateNonce baseFee with hnone | ⟨nonce, order, -, -, hsome⟩
  · exact (Prod.mk.inj (hnone.symm.trans hready)).2.symm
  · cases hsome.symm.trans hready

end TxList

/-! ### Active orders -/

/-- All lists are well formed. -/
def ActiveOrders.WellFormed (a : ActiveOrders) : Prop := ∀ l ∈ a.txLists, l.WellFormed

/-- The order has the nonce that is known of its sender, if one is. -/
def SortingNonces.Matches (n : SortingNonces) (order : Order) : Prop :=
  ∀ nonce, n.getNonce order.sender = some nonce → order.nonce = nonce

namespace ActiveOrders

theorem wellFormed_empty : ActiveOrders.empty.WellFormed := by
  intro l hl
  cases hl

theorem putIn_wellFormed {order : Order} {ls ls' : List TxList} (h : ∀ l ∈ ls, l.WellFormed)
    (hput : putIn order ls = .ok ls') : ∀ l ∈ ls', l.WellFormed := by
  induction ls generalizing ls' with
  | nil =>
      obtain ⟨l', hl', hok⟩ := Except.bind_eq_ok_iff.mp hput
      cases hok
      exact List.forall_mem_singleton.mpr ((TxList.wellFormed_new _).put hl').1
  | cons l ls ih =>
      rw [List.forall_mem_cons] at h
      simp only [putIn] at hput
      split at hput
      · obtain ⟨l', hl', hok⟩ := Except.bind_eq_ok_iff.mp hput
        cases hok
        exact List.forall_mem_cons.mpr ⟨(h.1.put hl').1, h.2⟩
      · obtain ⟨ls'', hls'', hok⟩ := Except.bind_eq_ok_iff.mp hput
        cases hok
        exact List.forall_mem_cons.mpr ⟨h.1, ih h.2 hls''⟩

theorem WellFormed.put {a a' : ActiveOrders} (h : a.WellFormed) {order : Order}
    (hput : a.put order = .ok a') : a'.WellFormed := by
  obtain ⟨ls, hls, hok⟩ := Except.bind_eq_ok_iff.mp hput
  cases hok
  exact putIn_wellFormed h hls

theorem WellFormed.removeSender {a : ActiveOrders} (h : a.WellFormed) (sender : Address) :
    (a.removeSender sender).WellFormed :=
  fun l hl => h l (List.eraseP_sublist.subset hl)

/-- What is taken matches what is known of the nonces. -/
theorem nextBest_spec {n : SortingNonces} {baseFee : Nat} {ls : List TxList} :
    ∀ (max : Nat), (∀ l ∈ ls, l.WellFormed) →
      (∀ o ∈ (nextBest n baseFee ls max).1, n.Matches o) ∧
        ∀ l ∈ (nextBest n baseFee ls max).2, l.WellFormed := by
  induction ls with
  | nil =>
      intro max h
      simp [nextBest]
  | cons l ls ih =>
      intro max h
      rw [List.forall_mem_cons] at h
      cases max with
      | zero => exact ⟨fun o ho => (by cases ho), List.forall_mem_cons.mpr h⟩
      | succ max =>
          simp only [nextBest]
          split
          · rename_i order l' hready
            obtain ⟨hsender, hnonce, -, rfl⟩ := h.1.firstReady_some hready
            obtain ⟨horders, hlists⟩ := ih max h.2
            refine ⟨List.forall_mem_cons.mpr ⟨fun nonce hknown => ?_, horders⟩,
              List.forall_mem_cons.mpr ⟨h.1.erase _, hlists⟩⟩
            rw [hsender] at hknown
            exact hnonce nonce hknown
          · rename_i l' hready
            rw [TxList.firstReady_none hready]
            obtain ⟨horders, hlists⟩ := ih (max + 1) h.2
            exact ⟨horders, List.forall_mem_cons.mpr ⟨h.1, hlists⟩⟩

theorem getNextBest_matches {a : ActiveOrders} (h : a.WellFormed) (max : Nat) (n : SortingNonces)
    (baseFee : Nat) : ∀ o ∈ (a.getNextBest max n baseFee).1, n.Matches o :=
  (nextBest_spec max h).1

theorem WellFormed.getNextBest {a : ActiveOrders} (h : a.WellFormed) (max : Nat)
    (n : SortingNonces) (baseFee : Nat) : (a.getNextBest max n baseFee).2.WellFormed :=
  (nextBest_spec max h).2

/-- A snapshot has the lists it was made from, in some order. -/
theorem new_perm {order : HashOrder} {txs : HashMap TxList} {a : ActiveOrders}
    (h : ActiveOrders.new order txs = .ok a) : a.txLists.Perm (txs.toList.map Prod.snd) := by
  simp only [ActiveOrders.new] at h
  split at h
  · cases h
    exact order.perm txs
  · obtain ⟨keyed, hkeyed, hok⟩ := Except.bind_eq_ok_iff.mp h
    cases hok
    have hmap : keyed.map Prod.snd = order.values txs := by
      refine Except.map_of_mapM (fun l entry hentry => ?_) hkeyed
      obtain ⟨w, -, hw⟩ := Except.bind_eq_ok_iff.mp hentry
      cases hw
      rfl
    rw [sortByWeight]
    have hsorted :=
      (List.perm_insertionSort (fun a b : Nat × TxList => b.1 ≤ a.1) keyed).map Prod.snd
    rw [hmap] at hsorted
    exact hsorted.trans (order.perm txs)

end ActiveOrders

/-! ### The pool -/

/-- The pool has for a sender a non-empty, well-formed list of that sender. -/
structure TxPool.WellFormed (p : TxPool) : Prop where
  sender : ∀ (a : Address) (l : TxList), p.txLists[a]? = some l → l.sender = a
  lists : ∀ (a : Address) (l : TxList), p.txLists[a]? = some l → l.WellFormed
  nonempty : ∀ (a : Address) (l : TxList), p.txLists[a]? = some l → l.isEmpty = false

namespace TxPool

theorem wellFormed_new : TxPool.new.WellFormed := by
  constructor <;> intro a l h <;> simp [new] at h

variable {p p' : TxPool}

/-- The list of the sender loses what its nonce has passed, and goes when it
is empty. -/
theorem getElem?_forwardSender (p : TxPool) (sender : Address) (stateNonce : Nat) (a : Address) :
    (p.forwardSender sender stateNonce).txLists[a]? =
      if sender = a then
        (p.txLists[a]?.map fun l => l.forward stateNonce).filter fun l => !l.isEmpty
      else p.txLists[a]? := by
  unfold forwardSender
  by_cases ha : sender = a
  · subst ha
    rw [if_pos rfl]
    cases hl : p.txLists[sender]? with
    | none => simp [hl]
    | some l =>
        cases hempty : (l.forward stateNonce).isEmpty with
        | true => simp [hempty, Option.filter]
        | false => simp [hempty, Option.filter]
  · rw [if_neg ha]
    cases hl : p.txLists[sender]? with
    | none => rfl
    | some l =>
        cases hempty : (l.forward stateNonce).isEmpty with
        | true => simp [hempty, Std.ExtTreeMap.getElem?_erase, ha]
        | false => simp [hempty, Std.ExtTreeMap.getElem?_insert, ha]

/-- What `put` can do. -/
inductive PutStep (p : TxPool) (tx : Order) (parentBlock : Nat) : TxPool → Prop
  /-- the nonce is below a cached one that counts -/
  | discarded (k : Nat) (hvalid : p.nonces.isValidParent parentBlock = true)
      (hk : p.nonces.get tx.sender = some k) (hlt : tx.nonce < k) :
      PutStep p tx parentBlock { p with discardedOrders := p.discardedOrders + 1 }
  | inserted {l : TxList} {nonces : StateNonces}
      (hl : (p.txLists[tx.sender]?.getD (.new tx.sender)).put tx = .ok l)
      (hnonces : nonces = p.nonces ∨ nonces = p.nonces.clear) :
      PutStep p tx parentBlock { p with txLists := p.txLists.insert tx.sender l, nonces := nonces }

theorem put_step {tx : Order} {parentBlock : Nat} (h : p.put tx parentBlock = .ok p') :
    PutStep p tx parentBlock p' := by
  have hinsert : ∀ nonces, nonces = p.nonces ∨ nonces = p.nonces.clear →
      ((p.txLists[tx.sender]?.getD (.new tx.sender)).put tx >>= fun l =>
        Except.ok { p with txLists := p.txLists.insert tx.sender l, nonces := nonces }) = .ok p' →
      PutStep p tx parentBlock p' := by
    intro nonces hnonces h
    obtain ⟨l, hl, hok⟩ := Except.bind_eq_ok_iff.mp h
    cases hok
    exact .inserted hl hnonces
  simp only [TxPool.put] at h
  split at h
  · refine hinsert (if p.nonces.nonces.isEmpty then p.nonces else p.nonces.clear) ?_ h
    split
    · exact Or.inl rfl
    · exact Or.inr rfl
  · rename_i hvalid
    split at h
    · rename_i k hk
      split at h
      · rename_i hlt
        cases h
        exact .discarded k (by simpa using hvalid) hk hlt
      · exact hinsert p.nonces (Or.inl rfl) h
    · exact hinsert p.nonces (Or.inl rfl) h

/-- The check keeps the pool, or empties the cache. -/
theorem reportAndSanityCheck_cases (p : TxPool) (parentBlock : Nat) (drawn : Address)
    (simulatorNonce : Option Nat) :
    p.reportAndSanityCheck parentBlock drawn simulatorNonce = p ∨
      p.reportAndSanityCheck parentBlock drawn simulatorNonce = p.clearNonces := by
  unfold TxPool.reportAndSanityCheck
  split
  · simp only
    split
    · split
      · exact Or.inr rfl
      · exact Or.inl rfl
    · exact Or.inl rfl
  · exact Or.inl rfl

namespace WellFormed

/-- The shape does not depend on the nonce cache. -/
theorem congr (h : p.WellFormed) (hsame : p'.txLists = p.txLists) : p'.WellFormed := by
  constructor
  · rw [hsame]
    exact h.sender
  · rw [hsame]
    exact h.lists
  · rw [hsame]
    exact h.nonempty

/-- One list is replaced. -/
theorem insert (h : p.WellFormed) {l : TxList} (hl : l.WellFormed) (hne : l.isEmpty = false)
    (hlists : p'.txLists = p.txLists.insert l.sender l) : p'.WellFormed := by
  have hget : ∀ (a : Address) (k : TxList), p'.txLists[a]? = some k →
      (l.sender = a ∧ l = k) ∨ p.txLists[a]? = some k := by
    intro a k hk
    rw [hlists, Std.ExtTreeMap.getElem?_insert] at hk
    split at hk
    · rename_i ha
      cases hk
      exact Or.inl ⟨by simpa using ha, rfl⟩
    · exact Or.inr hk
  constructor
  · intro a k hk
    rcases hget a k hk with ⟨ha, rfl⟩ | hold
    · exact ha
    · exact h.sender a k hold
  · intro a k hk
    rcases hget a k hk with ⟨-, rfl⟩ | hold
    · exact hl
    · exact h.lists a k hold
  · intro a k hk
    rcases hget a k hk with ⟨-, rfl⟩ | hold
    · exact hne
    · exact h.nonempty a k hold

/-- One list is removed. -/
theorem erase (h : p.WellFormed) (sender : Address)
    (hlists : p'.txLists = p.txLists.erase sender) : p'.WellFormed := by
  have hget : ∀ (a : Address) (k : TxList), p'.txLists[a]? = some k → p.txLists[a]? = some k := by
    intro a k hk
    rw [hlists, Std.ExtTreeMap.getElem?_erase] at hk
    split at hk
    · cases hk
    · exact hk
  exact ⟨fun a k hk => h.sender a k (hget a k hk), fun a k hk => h.lists a k (hget a k hk),
    fun a k hk => h.nonempty a k (hget a k hk)⟩

/-- The list of a sender, or a new one. -/
theorem getD (h : p.WellFormed) (sender : Address) :
    (p.txLists[sender]?.getD (.new sender)).WellFormed ∧
      (p.txLists[sender]?.getD (.new sender)).sender = sender := by
  cases hl : p.txLists[sender]? with
  | none => exact ⟨TxList.wellFormed_new sender, rfl⟩
  | some l => exact ⟨h.lists sender l hl, h.sender sender l hl⟩

theorem put (h : p.WellFormed) {tx : Order} {parentBlock : Nat}
    (hput : p.put tx parentBlock = .ok p') : p'.WellFormed := by
  cases put_step hput with
  | discarded k hvalid hk hlt => exact h.congr rfl
  | @inserted l nonces hl hnonces =>
      obtain ⟨hold, hsender⟩ := h.getD tx.sender
      obtain ⟨hl', hsame, hne⟩ := hold.put hl
      apply h.insert hl' hne
      rw [hsame, hsender]

theorem forwardSender (h : p.WellFormed) (sender : Address) (stateNonce : Nat) :
    (p.forwardSender sender stateNonce).WellFormed := by
  -- a list of the result is an old one, or what is left of an old one
  have hget : ∀ (a : Address) (k : TxList),
      (p.forwardSender sender stateNonce).txLists[a]? = some k →
      p.txLists[a]? = some k ∨
        ∃ l, p.txLists[a]? = some l ∧ l.forward stateNonce = k ∧ k.isEmpty = false := by
    intro a k hk
    rw [getElem?_forwardSender] at hk
    split at hk
    · obtain ⟨hk, hne⟩ := Option.filter_eq_some_iff.mp hk
      obtain ⟨l, hl, rfl⟩ := Option.map_eq_some_iff.mp hk
      exact Or.inr ⟨l, hl, rfl, by simpa using hne⟩
    · exact Or.inl hk
  constructor
  · intro a k hk
    rcases hget a k hk with hold | ⟨l, hl, rfl, -⟩
    · exact h.sender a k hold
    · exact h.sender a l hl
  · intro a k hk
    rcases hget a k hk with hold | ⟨l, hl, rfl, -⟩
    · exact h.lists a k hold
    · exact (h.lists a l hl).forward stateNonce
  · intro a k hk
    rcases hget a k hk with hold | ⟨l, hl, rfl, hne⟩
    · exact h.nonempty a k hold
    · exact hne

theorem foldl {f : TxPool → Address × Nat → TxPool}
    (hf : ∀ q e, q.WellFormed → (f q e).WellFormed) (es : List (Address × Nat))
    (h : p.WellFormed) : (es.foldl f p).WellFormed := by
  induction es generalizing p with
  | nil => exact h
  | cons e es ih => exact ih (hf p e h)

/-- The entries of a nonce map are merged into the cache. -/
theorem mergeNonces (h : p.WellFormed) (es : List (Address × Nat)) :
    (es.foldl (fun (p : TxPool) entry =>
      ({ p with nonces := p.nonces.insert entry.1 entry.2 }).forwardSender entry.1 entry.2)
      p).WellFormed := by
  apply foldl _ es h
  intro q e hq
  have hq' : WellFormed { q with nonces := q.nonces.insert e.1 e.2 } := hq.congr rfl
  exact hq'.forwardSender e.1 e.2

/-- The lists are forwarded to the entries of a nonce map. -/
theorem forwardSenders (h : p.WellFormed) (es : List (Address × Nat)) :
    (es.foldl (fun p entry => p.forwardSender entry.1 entry.2) p).WellFormed :=
  foldl (fun _ e hq => hq.forwardSender e.1 e.2) es h

theorem updateReset (h : p.WellFormed) (n : SortingNonces) : (p.updateReset n).WellFormed := by
  unfold TxPool.updateReset
  split
  · exact h.mergeNonces _
  · apply forwardSenders
    exact h.congr rfl

theorem updateNewBlock (h : p.WellFormed) (n : SortingNonces) :
    (p.updateNewBlock n).WellFormed := by
  unfold TxPool.updateNewBlock
  simp only
  split
  · exact congr (h.mergeNonces _) rfl
  · have hreset : WellFormed { p with nonces := n.allMerged } := h.congr rfl
    exact congr (hreset.forwardSenders _) rfl

theorem clearNonces (h : p.WellFormed) : p.clearNonces.WellFormed := h.congr rfl

theorem reportAndSanityCheck (h : p.WellFormed) (parentBlock : Nat) (drawn : Address)
    (simulatorNonce : Option Nat) :
    (p.reportAndSanityCheck parentBlock drawn simulatorNonce).WellFormed := by
  rcases p.reportAndSanityCheck_cases parentBlock drawn simulatorNonce with hsame | hclear
  · rw [hsame]
    exact h
  · rw [hclear]
    exact h.clearNonces

/-- A snapshot made from well-formed lists is well formed. -/
theorem snapshot {order : HashOrder} {txs : HashMap TxList} {a : ActiveOrders}
    (hlists : ∀ (s : Address) (l : TxList), txs[s]? = some l → l.WellFormed)
    (h : ActiveOrders.new order txs = .ok a) : a.WellFormed := by
  intro l hl
  obtain ⟨⟨sender, k⟩, hmem, rfl⟩ := List.mem_map.mp ((ActiveOrders.new_perm h).mem_iff.mp hl)
  exact hlists sender k (Std.ExtTreeMap.mem_toList_iff_getElem?_eq_some.mp hmem)

theorem getActiveForNonces (h : p.WellFormed) {order : HashOrder} {baseFee : Nat}
    {a : Option ActiveOrders} (hactive : p.getActiveForNonces order baseFee = .ok a) :
    ∀ b, a = some b → b.WellFormed := by
  obtain ⟨active, hfold, hok⟩ := Except.bind_eq_ok_iff.mp hactive
  have hlists : ∀ (s : Address) (l : TxList), active[s]? = some l → l.WellFormed := by
    refine Run.run_invariant (fun active : HashMap TxList =>
      ∀ (s : Address) (l : TxList), active[s]? = some l → l.WellFormed) p.txLists.toList
      (fun entry hentry active active' hactive hstep => ?_) (fun s l hl => by simp at hl) hfold
    obtain ⟨sender, l⟩ := entry
    have hl : l.WellFormed :=
      h.lists sender l (Std.ExtTreeMap.mem_toList_iff_getElem?_eq_some.mp hentry)
    -- at most a well-formed list of the sender is added
    have hinsert : ∀ k : TxList, k.WellFormed → active' = active.insert sender k →
        ∀ (s : Address) (l : TxList), active'[s]? = some l → l.WellFormed := by
      rintro k hk rfl s m hm
      rw [Std.ExtTreeMap.getElem?_insert] at hm
      split at hm
      · cases hm
        exact hk
      · exact hactive s m hm
    simp only at hstep
    split at hstep
    · rename_i stateNonce hstate
      split at hstep
      · split at hstep
        · cases hstep
        · cases hstep
          exact hinsert _ (hl.forward stateNonce) rfl
      · cases hstep
        exact hactive
    · by_cases hfee : l.hasTxByFee baseFee = true
      · rw [if_pos hfee] at hstep
        cases hstep
        exact hinsert l hl rfl
      · rw [if_neg hfee] at hstep
        cases hstep
        exact hactive
  split at hok
  · cases hok
    intro b hb
    cases hb
  · obtain ⟨b, hb, hok⟩ := Except.bind_eq_ok_iff.mp hok
    cases hok
    intro b' hb'
    cases hb'
    exact snapshot hlists hb

/-- The snapshot of a pool, and the pool after it. -/
theorem activeOrders (h : p.WellFormed) {order : HashOrder} {blockNumber baseFee : Nat}
    {a : Option ActiveOrders} (hactive : p.activeOrders order blockNumber baseFee = .ok (a, p')) :
    (a.getD .empty).WellFormed ∧ p'.WellFormed := by
  have hsome : (∀ b, a = some b → b.WellFormed) → (a.getD .empty).WellFormed := by
    intro hb
    cases a with
    | none => exact ActiveOrders.wellFormed_empty
    | some b => exact hb b rfl
  simp only [TxPool.activeOrders] at hactive
  split at hactive
  · split at hactive
    · cases hactive
      exact ⟨hsome fun b hb => (by cases hb), h.congr rfl⟩
    · obtain ⟨b, hb, hok⟩ := Except.bind_eq_ok_iff.mp hactive
      cases hok
      refine ⟨hsome fun b' hb' => ?_, h.congr rfl⟩
      cases hb'
      refine snapshot (fun s l hl => ?_) hb
      rw [Std.ExtTreeMap.getElem?_filter'] at hl
      exact h.lists s l (Option.filter_eq_some_iff.mp hl).1
  · obtain ⟨b, hb, hok⟩ := Except.bind_eq_ok_iff.mp hactive
    cases hok
    exact ⟨hsome (h.getActiveForNonces hb), h⟩

end WellFormed

/-- The pools that the operations lead to. -/
inductive Reachable : TxPool → Prop
  | new : Reachable .new
  | put {p p' : TxPool} (tx : Order) (parentBlock : Nat) (h : Reachable p)
      (hput : p.put tx parentBlock = .ok p') : Reachable p'
  | activeOrders {p p' : TxPool} {a : Option ActiveOrders} (order : HashOrder)
      (blockNumber baseFee : Nat) (h : Reachable p)
      (hactive : p.activeOrders order blockNumber baseFee = .ok (a, p')) : Reachable p'
  | updateNewBlock {p : TxPool} (n : SortingNonces) (h : Reachable p) :
      Reachable (p.updateNewBlock n)
  | clearNonces {p : TxPool} (h : Reachable p) : Reachable p.clearNonces
  | reportAndSanityCheck {p : TxPool} (parentBlock : Nat) (drawn : Address)
      (simulatorNonce : Option Nat) (h : Reachable p) :
      Reachable (p.reportAndSanityCheck parentBlock drawn simulatorNonce)

/-- **Every pool has the shape.** -/
theorem Reachable.wellFormed {p : TxPool} (h : Reachable p) : p.WellFormed := by
  induction h with
  | new => exact wellFormed_new
  | put tx parentBlock _ hput ih => exact ih.put hput
  | activeOrders order blockNumber baseFee _ hactive ih => exact (ih.activeOrders hactive).2
  | updateNewBlock n _ ih => exact ih.updateNewBlock n
  | clearNonces _ ih => exact ih.clearNonces
  | reportAndSanityCheck parentBlock drawn simulatorNonce _ ih =>
      exact ih.reportAndSanityCheck parentBlock drawn simulatorNonce

end TxPool

end TaikoGateway
