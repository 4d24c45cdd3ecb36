/-
TaikoGateway/ProposalOrder.lean

All batches of a proposer (`ProposerManager::run`).  The requests are taken one
after the other, and each of them is one call of `propose_batch`, which returns
before the next one starts; a call that gives up may leave transactions behind
that L1 still includes while later calls run.

Each call sees the world of `ProposeBatch` (`Proposer.view`): the transactions
of the other calls are to it those of another user of the key.  A step of the
proposer is one step of the running call, and for every other call either none
or one of that other user (`view_absorb_other`), so what is known of one call holds
of all of them at once.

Main results.

* `landed_ascending`: in every run, whatever fails and whatever is included
  late, no batch is on L1 twice, and the batches are on L1 in the order of the
  requests.
* `landed_eq_range`: when no nonce check is fooled and every call returned
  `Ok`, exactly the batches of the requests are on L1, each once and in order.
-/
import TaikoGateway.ProposeBatch

namespace TaikoGateway.ProposeBatch

/-! ### The proposer -/

/-- A transaction of the key.  Other users of the key are no call. -/
structure CallTx where
  hash : Nat
  nonce : Nat
  call : Option Nat
  deriving DecidableEq, Repr

structure CallInclusion where
  tx : CallTx
  success : Bool
  deriving DecidableEq, Repr

/-- A call of `propose_batch`. -/
structure BatchCall where
  vars : LoopVars := {}
  phase : Phase := .start
  deriving DecidableEq, Repr

/-- `propose_batch` has returned. -/
def BatchCall.Returned (c : BatchCall) : Prop := c.phase = .done .ok ∨ c.phase = .done .gaveUp

instance (c : BatchCall) : Decidable c.Returned := inferInstanceAs (Decidable (_ ∨ _))

structure Proposer where
  /-- transaction count of the signer -/
  accountNonce : Nat
  /-- transactions of the signer that L1 may still include -/
  pool : List CallTx
  /-- the last one first -/
  included : List CallInclusion
  /-- one for each request so far; only the last one can be running -/
  calls : List BatchCall
  deriving DecidableEq, Repr

inductive ProposerEvent
  /-- the next request is received -/
  | nextRequest
  /-- an event of the running call -/
  | attempt (e : Event)
  /-- another user of the key sends a transaction -/
  | otherSent (hash nonce : Nat)
  /-- L1 includes a transaction -/
  | included (tx : CallTx) (success : Bool)
  deriving DecidableEq, Repr

/-- The events that are steps of the call itself. -/
def Event.ofCall : Event → Bool
  | .otherSent _ _ => false
  | .included _ _ => false
  | _ => true

/-- The transaction, to this call. -/
def CallTx.seenBy (k : Nat) (tx : CallTx) : Tx :=
  ⟨tx.hash, tx.nonce, if tx.call = some k then .batch else .other⟩

def CallInclusion.seenBy (k : Nat) (i : CallInclusion) : Inclusion := ⟨i.tx.seenBy k, i.success⟩

namespace Proposer

def init (accountNonce : Nat) (others : List (Nat × Nat)) : Proposer :=
  { accountNonce := accountNonce
    pool := others.map fun o => ⟨o.1, o.2, none⟩
    included := []
    calls := [] }

def call (p : Proposer) (k : Nat) : BatchCall := p.calls.getD k {}

/-- The running call, if there is one. -/
def running (p : Proposer) : Nat := p.calls.length - 1

/-- The world of a call. -/
def view (p : Proposer) (k : Nat) : World :=
  { accountNonce := p.accountNonce
    pool := p.pool.map (CallTx.seenBy k)
    included := p.included.map (CallInclusion.seenBy k)
    vars := (p.call k).vars
    phase := (p.call k).phase }

/-- The running call has gone on; what it sent is in the pool. -/
def absorb (p : Proposer) (w : World) : Proposer :=
  let sent := w.pool.take (w.pool.length - p.pool.length)
  { p with
    pool := sent.map (fun tx => ⟨tx.hash, tx.nonce, some p.running⟩) ++ p.pool
    calls := p.calls.set p.running ⟨w.vars, w.phase⟩ }

def step (p : Proposer) : ProposerEvent → Except Unit Proposer
  | .nextRequest =>
      -- the call before has returned
      if ∀ c ∈ p.calls.getLast?, c.Returned then .ok { p with calls := p.calls ++ [{}] }
      else .error ()
  | .attempt e =>
      if p.calls ≠ [] ∧ e.ofCall = true then do
        let w ← (p.view p.running).step e
        .ok (p.absorb w)
      else .error ()
  | .otherSent hash nonce => .ok { p with pool := ⟨hash, nonce, none⟩ :: p.pool }
  | .included tx success =>
      if tx ∈ p.pool ∧ tx.nonce = p.accountNonce then
        .ok { p with
          accountNonce := p.accountNonce + 1
          included := ⟨tx, success⟩ :: p.included }
      else .error ()

/-- The calls whose batch is on L1, in the order of L1. -/
def landed (p : Proposer) : List Nat :=
  p.included.reverse.filterMap fun i => if i.success then i.tx.call else none

end Proposer

/-! ### Steps of a call -/

section Attempt

variable {w w' : World} {e : Event}

/-- A step of the call touches neither the account nor L1; it sends at most one
transaction, of its batch. -/
structure AttemptEffect (w w' : World) : Prop where
  accountNonce : w'.accountNonce = w.accountNonce
  included : w'.included = w.included
  pool : w'.pool = w.pool ∨ ∃ tx, tx.kind = .batch ∧ w'.pool = tx :: w.pool
  recorded : w'.vars.lastUsedNonce = w.vars.lastUsedNonce ∨ w'.vars.lastUsedNonce = none ∨
    w'.vars.lastUsedNonce = some w.accountNonce

theorem AttemptEffect.attemptFailed (w : World) (err : AttemptError) :
    AttemptEffect w (w.attemptFailed err) := by
  obtain ⟨vars, phase, heq, hlast, -⟩ := w.attemptFailed_spec err
  rw [heq]
  exact ⟨rfl, rfl, Or.inl rfl, Or.inl hlast⟩

theorem AttemptEffect.readReceipt (w : World) (receipt : Inclusion) :
    AttemptEffect w (w.readReceipt receipt) := by
  unfold World.readReceipt
  split
  · exact ⟨rfl, rfl, Or.inl rfl, Or.inl rfl⟩
  · have h := AttemptEffect.attemptFailed
      { w with vars := { w.vars with lastUsedNonce := none } } (.other "failed to propose block")
    refine ⟨h.accountNonce, h.included, h.pool, ?_⟩
    rcases h.recorded with hnone | hrecorded
    · exact Or.inr (Or.inl hnone)
    · exact Or.inr hrecorded

theorem World.Step.attempt (hinv : w.Inv) (he : e.ofCall = true) (h : w.Step e w') :
    AttemptEffect w w' := by
  have hcur := hinv.phaseOk
  unfold World.PhaseOk at hcur
  cases h with
  | nonceRead hphase =>
      unfold World.readNonce
      split
      · exact ⟨rfl, rfl, Or.inl rfl, Or.inl rfl⟩
      · exact ⟨rfl, rfl, Or.inl rfl, Or.inr (Or.inr rfl)⟩
  | txBuilt hash hphase => exact ⟨rfl, rfl, Or.inl rfl, Or.inl rfl⟩
  | blockRead hphase => exact ⟨rfl, rfl, Or.inl rfl, Or.inl rfl⟩
  | bundleSent hphase =>
      rw [hphase] at hcur
      exact ⟨rfl, rfl, Or.inr ⟨_, hcur.1, rfl⟩, Or.inl rfl⟩
  | bundlesDone hphase => exact ⟨rfl, rfl, Or.inl rfl, Or.inl rfl⟩
  | mempoolSent hphase =>
      rw [hphase] at hcur
      exact ⟨rfl, rfl, Or.inr ⟨_, hcur.1, rfl⟩, Or.inl rfl⟩
  | receiptRead hphase hreceipt htx => exact .readReceipt w _
  | failedUnsent err accepted => exact .attemptFailed w err
  | @failedSent tx sent err hphase =>
      rw [hphase] at hcur
      have h := AttemptEffect.attemptFailed { w with pool := tx :: w.pool } err
      refine ⟨h.accountNonce, h.included, Or.inr ⟨tx, hcur.1, ?_⟩, h.recorded⟩
      obtain ⟨vars, phase, heq, -⟩ :=
        World.attemptFailed_spec { w with pool := tx :: w.pool } err
      rw [heq]
  | otherSent hash nonce => cases he
  | included success hpool hnonce => cases he

end Attempt

/-! ### What a step is to each call -/

namespace Proposer

variable {p p' : Proposer} {k : Nat}

theorem running_lt (h : p.calls ≠ []) : p.running < p.calls.length := by
  have hpos := List.length_pos_iff.mpr h
  unfold running
  omega

theorem call_set {c : BatchCall} {j : Nat} (hj : j < p.calls.length) :
    (p.calls.set j c).getD k {} = if k = j then c else p.call k := by
  rw [List.getD_eq_getElem?_getD, List.getElem?_set, call, List.getD_eq_getElem?_getD]
  by_cases h : k = j
  · rw [if_pos h.symm, if_pos (h ▸ hj), if_pos h]
    rfl
  · rw [if_neg (Ne.symm h), if_neg h]

/-- What the running call sent, as one more transaction or none. -/
theorem absorb_pool (h : AttemptEffect (p.view p.running) w) :
    ((p.absorb w).pool = p.pool ∧ w.pool = (p.view p.running).pool) ∨
      ∃ tx, tx.kind = .batch ∧ w.pool = tx :: (p.view p.running).pool ∧
        (p.absorb w).pool = ⟨tx.hash, tx.nonce, some p.running⟩ :: p.pool := by
  have hlength : (p.view p.running).pool.length = p.pool.length := List.length_map _
  rcases h.pool with hsame | ⟨tx, htx, hsent⟩
  · refine Or.inl ⟨?_, hsame⟩
    simp only [absorb, hsame, hlength, Nat.sub_self, List.take_zero, List.map_nil, List.nil_append]
  · refine Or.inr ⟨tx, htx, hsent, ?_⟩
    have hone : (tx :: (p.view p.running).pool).length - p.pool.length = 1 := by
      rw [List.length_cons, hlength]
      omega
    simp only [absorb, hsent, hone, List.take_succ_cons, List.take_zero, List.map_cons,
      List.map_nil, List.singleton_append]

/-- To the running call the step is its own. -/
theorem view_absorb_running (hne : p.calls ≠ []) (h : AttemptEffect (p.view p.running) w) :
    (p.absorb w).view p.running = w := by
  have hcall : (p.absorb w).call p.running = ⟨w.vars, w.phase⟩ := by
    rw [call, absorb, call_set (running_lt hne), if_pos rfl]
  have hpool : (p.absorb w).pool.map (CallTx.seenBy p.running) = w.pool := by
    rcases absorb_pool h with ⟨hpool, hsame⟩ | ⟨tx, htx, hsent, hpool⟩
    · rw [hpool, hsame]
      rfl
    · rw [hpool, hsent, List.map_cons]
      congr 1
      obtain ⟨hash, nonce, kind⟩ := tx
      cases htx
      simp [CallTx.seenBy]
  have hincluded := h.included
  have hnonce := h.accountNonce
  obtain ⟨accountNonce, pool, included, vars, phase⟩ := w
  simp only [view, hcall, hpool] at hincluded hnonce ⊢
  rw [hincluded, hnonce]
  rfl

/-- To the others it is none, or one of another user of the key. -/
theorem view_absorb_other (hne : p.calls ≠ []) (h : AttemptEffect (p.view p.running) w)
    (hk : k ≠ p.running) :
    (p.absorb w).view k = p.view k ∨
      ∃ hash nonce, (p.absorb w).view k =
        { p.view k with pool := ⟨hash, nonce, .other⟩ :: (p.view k).pool } := by
  have hcall : (p.absorb w).call k = p.call k := by
    rw [call, absorb, call_set (running_lt hne), if_neg hk]
  rcases absorb_pool h with ⟨hpool, -⟩ | ⟨tx, -, -, hpool⟩
  · left
    simp only [view, hcall, hpool]
    rfl
  · right
    have hseen : CallTx.seenBy k ⟨tx.hash, tx.nonce, some p.running⟩ =
        ⟨tx.hash, tx.nonce, .other⟩ := by
      rw [CallTx.seenBy, if_neg fun heq => hk (Option.some.inj heq).symm]
    refine ⟨tx.hash, tx.nonce, ?_⟩
    simp only [view, hcall, hpool, List.map_cons, hseen]
    rfl

/-! ### Invariants -/

/-- The nonce the call has recorded last. -/
def recorded (p : Proposer) (k : Nat) : Option Nat := (p.call k).vars.lastUsedNonce

/-- A transaction of a call is of one that has started. -/
def Started (p : Proposer) (tx : CallTx) : Prop := ∀ k, tx.call = some k → k < p.calls.length

structure Inv (p : Proposer) : Prop where
  below : ∀ i ∈ p.included, i.tx.nonce < p.accountNonce
  descending : p.included.Pairwise fun i j => j.tx.nonce < i.tx.nonce
  pool : ∀ tx ∈ p.pool, p.Started tx
  included : ∀ i ∈ p.included, p.Started i.tx
  views : ∀ k, (p.view k).Inv
  /-- a later call has not recorded an earlier nonce -/
  recorded : ∀ j k m n, j < k → p.recorded j = some m → p.recorded k = some n → m ≤ n

/-- The nonces go down, so they determine the inclusion. -/
theorem eq_of_nonce {included : List CallInclusion}
    (h : included.Pairwise fun i j => j.tx.nonce < i.tx.nonce) {i j : CallInclusion}
    (hi : i ∈ included) (hj : j ∈ included) (hij : i.tx.nonce = j.tx.nonce) : i = j := by
  have hnodup : (included.map (·.tx.nonce)).Nodup := by
    rw [List.Nodup, List.pairwise_map]
    exact h.imp fun hlt => hlt.ne'
  exact List.inj_on_of_nodup_map hnodup hi hj hij

/-- A call that has not started has no transactions. -/
theorem inv_view_of_not_started (hbelow : ∀ i ∈ p.included, i.tx.nonce < p.accountNonce)
    (hdescending : p.included.Pairwise fun i j => j.tx.nonce < i.tx.nonce)
    (hpool : ∀ tx ∈ p.pool, p.Started tx) (hincluded : ∀ i ∈ p.included, p.Started i.tx)
    (hk : p.calls.length ≤ k) : (p.view k).Inv := by
  have hother : ∀ tx, p.Started tx → (tx.seenBy k).kind ≠ .batch := by
    intro tx hstarted hbatch
    have hcall : tx.call = some k := by
      by_contra hne
      rw [CallTx.seenBy, if_neg hne] at hbatch
      cases hbatch
    exact absurd (hstarted k hcall) (Nat.not_lt.mpr hk)
  have hnone : p.call k = {} := by
    rw [call, List.getD_eq_getElem?_getD, List.getElem?_eq_none hk]
    rfl
  refine ⟨⟨?_, ?_, ?_, ?_, ?_⟩, ?_⟩
  · intro i hi
    obtain ⟨j, hj, rfl⟩ := List.mem_map.mp hi
    exact hbelow j hj
  · intro i hi j hj hij
    obtain ⟨i', hi', rfl⟩ := List.mem_map.mp hi
    obtain ⟨j', hj', rfl⟩ := List.mem_map.mp hj
    rw [eq_of_nonce hdescending hi' hj' hij]
  · intro n hn
    have hn' : (p.call k).vars.lastUsedNonce = some n := hn
    rw [hnone] at hn'
    cases hn'
  · intro tx htx hbatch
    obtain ⟨tx', htx', rfl⟩ := List.mem_map.mp htx
    exact absurd hbatch (hother tx' (hpool tx' htx'))
  · intro i hi hbatch
    obtain ⟨j, hj, rfl⟩ := List.mem_map.mp hi
    exact absurd hbatch (hother j.tx (hincluded j hj))
  · show World.PhaseOk _
    simp only [World.PhaseOk, view, hnone]

theorem inv_init (accountNonce : Nat) (others : List (Nat × Nat)) :
    (init accountNonce others).Inv := by
  have hpool : ∀ tx ∈ (init accountNonce others).pool, (init accountNonce others).Started tx := by
    intro tx htx k hk
    obtain ⟨o, -, rfl⟩ := List.mem_map.mp htx
    cases hk
  refine ⟨by simp [init], List.Pairwise.nil, hpool, by simp [init], ?_, ?_⟩
  · intro k
    exact inv_view_of_not_started (by simp [init]) List.Pairwise.nil hpool (by simp [init])
      (Nat.zero_le k)
  · intro j k m n _ hm
    cases hm

theorem call_nextRequest (p : Proposer) (k : Nat) :
    call { p with calls := p.calls ++ [{}] } k = p.call k := by
  simp only [call, List.getD_eq_getElem?_getD, List.getElem?_append]
  split
  · rfl
  · rename_i hlt
    rw [List.getElem?_eq_none (Nat.not_lt.mp hlt), List.getElem?_singleton]
    split <;> rfl

theorem view_nextRequest (p : Proposer) (k : Nat) :
    view { p with calls := p.calls ++ [{}] } k = p.view k := by
  simp only [view, call_nextRequest]

/-- A new call is another one that has not started yet. -/
theorem Inv.nextRequest (h : p.Inv) : Inv { p with calls := p.calls ++ [{}] } := by
  have hstarted : ∀ tx, p.Started tx → Started { p with calls := p.calls ++ [{}] } tx := by
    intro tx htx k hk
    have hlt := htx k hk
    simp only [List.length_append, List.length_singleton]
    omega
  refine ⟨h.below, h.descending, fun tx htx => hstarted tx (h.pool tx htx),
    fun i hi => hstarted i.tx (h.included i hi), fun k => ?_, ?_⟩
  · rw [view_nextRequest]
    exact h.views k
  · intro j k m n hjk hm hn
    simp only [Proposer.recorded, call_nextRequest] at hm hn
    exact h.recorded j k m n hjk hm hn

/-- The running call goes on. -/
theorem Inv.absorb (h : p.Inv) (hne : p.calls ≠ []) {e : Event} (he : e.ofCall = true)
    {w : World} (hstep : (p.view p.running).Step e w) : (p.absorb w).Inv := by
  have heffect := hstep.attempt (h.views p.running) he
  have hlength : (p.absorb w).calls.length = p.calls.length := List.length_set
  have hstarted : ∀ tx, p.Started tx → (p.absorb w).Started tx := by
    intro tx htx k hk
    rw [hlength]
    exact htx k hk
  have hrecorded : ∀ k, (p.absorb w).recorded k =
      if k = p.running then w.vars.lastUsedNonce else p.recorded k := by
    intro k
    have hcall : (p.absorb w).call k = if k = p.running then ⟨w.vars, w.phase⟩ else p.call k :=
      call_set (running_lt hne)
    rw [Proposer.recorded, hcall]
    split <;> rfl
  refine ⟨h.below, h.descending, ?_, fun i hi => hstarted i.tx (h.included i hi), fun k => ?_, ?_⟩
  · intro tx htx
    rcases absorb_pool heffect with ⟨hpool, -⟩ | ⟨tx', -, -, hpool⟩
    · rw [hpool] at htx
      exact hstarted tx (h.pool tx htx)
    · rw [hpool] at htx
      rcases List.mem_cons.mp htx with rfl | htx
      · intro k hk
        obtain rfl := Option.some.inj hk
        rw [hlength]
        exact running_lt hne
      · exact hstarted tx (h.pool tx htx)
  · by_cases hk : k = p.running
    · rw [hk, view_absorb_running hne heffect]
      exact (h.views p.running).step hstep
    · rcases view_absorb_other hne heffect hk with hsame | ⟨hash, nonce, hother⟩
      · rw [hsame]
        exact h.views k
      · rw [hother]
        exact (h.views k).step (.otherSent hash nonce)
  · intro j k m n hjk hm hn
    rw [hrecorded] at hm hn
    by_cases hj : j = p.running
    · -- no call has started after the running one
      have hk : p.call k = {} := by
        rw [call, List.getD_eq_getElem?_getD, List.getElem?_eq_none]
        · rfl
        · unfold running at hj
          omega
      rw [if_neg (by omega), Proposer.recorded, hk] at hn
      cases hn
    · rw [if_neg hj] at hm
      by_cases hk : k = p.running
      · rw [if_pos hk] at hn
        rcases heffect.recorded with hsame | hnone | hnow
        · rw [hsame] at hn
          exact h.recorded j p.running m n (hk ▸ hjk) hm hn
        · rw [hnone] at hn
          cases hn
        · rw [hnow] at hn
          obtain rfl := Option.some.inj hn
          exact ((h.views j).ledger.recorded m hm).1
      · rw [if_neg hk] at hn
        exact h.recorded j k m n hjk hm hn

/-- L1 includes a transaction. -/
theorem Inv.include (h : p.Inv) {tx : CallTx} (htx : tx ∈ p.pool)
    (hnonce : tx.nonce = p.accountNonce) (success : Bool) :
    Inv { p with
      accountNonce := p.accountNonce + 1
      included := ⟨tx, success⟩ :: p.included } where
  below := by
    intro i hi
    show i.tx.nonce < p.accountNonce + 1
    rcases List.mem_cons.mp hi with rfl | hi
    · exact hnonce ▸ Nat.lt_succ_self _
    · exact (h.below i hi).trans (Nat.lt_succ_self _)
  descending := by
    apply List.Pairwise.cons _ h.descending
    intro i hi
    show i.tx.nonce < tx.nonce
    rw [hnonce]
    exact h.below i hi
  pool := h.pool
  included := by
    intro i hi
    rcases List.mem_cons.mp hi with rfl | hi
    · exact h.pool tx htx
    · exact h.included i hi
  views := by
    intro k
    have hstep : (p.view k).Step (.included (tx.seenBy k) success)
        (view { p with
          accountNonce := p.accountNonce + 1
          included := ⟨tx, success⟩ :: p.included } k) :=
      .included success (List.mem_map_of_mem htx) hnonce
    exact (h.views k).step hstep
  recorded := h.recorded

/-- To every call, another user of the key is one. -/
theorem Inv.otherSent (h : p.Inv) (hash nonce : Nat) :
    Inv { p with pool := ⟨hash, nonce, none⟩ :: p.pool } where
  below := h.below
  descending := h.descending
  pool := by
    intro tx htx
    rcases List.mem_cons.mp htx with rfl | htx
    · intro k hk
      cases hk
    · exact h.pool tx htx
  included := h.included
  views := by
    intro k
    have hstep : (p.view k).Step (.otherSent hash nonce)
        (view { p with pool := ⟨hash, nonce, none⟩ :: p.pool } k) := .otherSent hash nonce
    exact (h.views k).step hstep
  recorded := h.recorded

/-- A step of the running call, as the proposer takes it. -/
theorem step_attempt_eq_ok {e : Event} (h : p.step (.attempt e) = .ok p') :
    p.calls ≠ [] ∧ e.ofCall = true ∧
      ∃ w, (p.view p.running).step e = .ok w ∧ p' = p.absorb w := by
  simp only [step] at h
  split at h
  · rename_i hrunning
    obtain ⟨w, hw, hok⟩ := Except.bind_eq_ok_iff.mp h
    exact ⟨hrunning.1, hrunning.2, w, hw, (Except.ok.inj hok).symm⟩
  · cases h

theorem Inv.step (h : p.Inv) {e : ProposerEvent} (hstep : p.step e = .ok p') : p'.Inv := by
  cases e with
  | nextRequest =>
      simp only [Proposer.step] at hstep
      split at hstep
      · cases hstep
        exact h.nextRequest
      · cases hstep
  | attempt e =>
      obtain ⟨hne, he, w, hw, rfl⟩ := step_attempt_eq_ok hstep
      exact h.absorb hne he (World.step_cases hw)
  | otherSent hash nonce =>
      cases hstep
      exact h.otherSent hash nonce
  | included tx success =>
      simp only [Proposer.step] at hstep
      split at hstep
      · rename_i hpossible
        cases hstep
        exact h.include hpossible.1 hpossible.2 success
      · cases hstep

/-! ### Main results -/

/-- A batch that is on L1 has the nonce its call recorded last. -/
theorem Inv.recorded_of_landed (h : p.Inv) {i : CallInclusion} (hi : i ∈ p.included)
    (hsuccess : i.success = true) (hk : i.tx.call = some k) : p.recorded k = some i.tx.nonce := by
  have hlanded := (h.views k).ledger.landed (i.seenBy k) (List.mem_map_of_mem hi)
  apply hlanded _ hsuccess
  show (if i.tx.call = some k then TxKind.batch else .other) = .batch
  rw [if_pos hk]

theorem Inv.ascending (h : p.Inv) : p.landed.Pairwise (· < ·) := by
  rw [landed, List.pairwise_filterMap, List.pairwise_reverse]
  apply h.descending.imp_of_mem
  intro i j hi hj hlt k hk k' hk'
  -- `j` is on L1 before `i`
  split at hk
  · rename_i hsuccess
    split at hk'
    · rename_i hsuccess'
      have hrecorded := h.recorded_of_landed hj hsuccess hk
      have hrecorded' := h.recorded_of_landed hi hsuccess' hk'
      by_contra hge
      rcases Nat.lt_or_eq_of_le (Nat.not_lt.mp hge) with hbefore | rfl
      · have hle := h.recorded k' k _ _ hbefore hrecorded' hrecorded
        omega
      · rw [hrecorded] at hrecorded'
        have heq := Option.some.inj hrecorded'
        omega
    · cases hk'
  · cases hk

/-- **Once, and in order.**  In every run of the proposer, with any number of
requests, failures, replaced, dropped and late transactions and other users of
the key: no batch is on L1 twice, and the batches on L1 are in the order of
their requests. -/
theorem landed_ascending (accountNonce : Nat) (others : List (Nat × Nat))
    (es : List ProposerEvent) (p : Proposer)
    (h : es.foldlM step (init accountNonce others) = .ok p) : p.landed.Pairwise (· < ·) :=
  (Run.run_invariant Inv es (fun _ _ _ _ hp hstep => hp.step hstep) (inv_init _ _)
    h).ascending

section Sample

/-- The first batch is replaced by a tx with higher fees, and gives up; the
second one is sent meanwhile, reverts and is sent again. -/
def lateRun : List ProposerEvent :=
  [ .nextRequest, .attempt .nonceRead, .attempt (.txBuilt 1), .attempt .blockRead,
    .attempt .bundlesDone, .attempt .mempoolSent,
    .attempt (.failed .txNotIncludedInNextBlocks false), .attempt .nonceRead,
    .attempt (.txBuilt 2), .attempt .blockRead, .attempt .bundlesDone, .attempt .mempoolSent,
    .attempt (.failed .notPreconferOrFallback false),
    .nextRequest, .otherSent 9 6, .included ⟨1, 5, some 0⟩ true, .attempt .nonceRead,
    .attempt (.txBuilt 3), .attempt .blockRead, .attempt .bundlesDone, .attempt .mempoolSent,
    .included ⟨3, 6, some 1⟩ false, .attempt .receiptRead, .attempt .nonceRead,
    .attempt (.txBuilt 4), .attempt .blockRead, .attempt .bundlesDone, .attempt .mempoolSent,
    .included ⟨4, 7, some 1⟩ true, .attempt .receiptRead ]

theorem landed_ascending_lateRun :
    ∃ p, lateRun.foldlM step (init 5 []) = .ok p ∧ p.landed = [0, 1] ∧
      p.landed.Pairwise (· < ·) := by
  have hrun : (lateRun.foldlM step (init 5 [])).toOption.map landed = some [0, 1] := by
    decide +kernel
  obtain ⟨p, hp, hlanded⟩ := Option.map_eq_some_iff.mp hrun
  have hp' := Except.toOption_eq_some_iff.mp hp
  exact ⟨p, hp', hlanded, landed_ascending 5 [] lateRun p hp'⟩

end Sample

instance (w : World) : Decidable w.NonceUsedByBatch :=
  inferInstanceAs (Decidable (∀ n ∈ w.vars.lastUsedNonce, ∀ i ∈ w.included, i.tx.nonce = n →
    i.tx.kind = .batch ∧ i.success = true))

instance (w : World) (e : Event) : Decidable (w.CheckIsRight e) :=
  inferInstanceAs (Decidable (_ → _ → _ → _))

/-- The nonce checks of the running call are right. -/
def CheckIsRight (p : Proposer) : ProposerEvent → Prop
  | .attempt e => (p.view p.running).CheckIsRight e
  | .nextRequest => True
  | .otherSent _ _ => True
  | .included _ _ => True

instance (p : Proposer) : (e : ProposerEvent) → Decidable (p.CheckIsRight e)
  | .attempt e => inferInstanceAs (Decidable ((p.view p.running).CheckIsRight e))
  | .nextRequest => isTrue trivial
  | .otherSent _ _ => isTrue trivial
  | .included _ _ => isTrue trivial

/-- Whatever returned `Ok` is on L1. -/
def OkMeansIncluded (p : Proposer) : Prop := ∀ k, (p.view k).OkMeansIncluded

/-- A step of others leaves a call where it is. -/
theorem okMeansIncluded_of_step {w w' : World} {e : Event} (h : w.OkMeansIncluded)
    (hstep : w.Step e w') (hphase : w'.phase = w.phase) : w'.OkMeansIncluded := by
  intro hok
  exact (h (hphase.symm.trans hok)).step hstep

theorem OkMeansIncluded.step (h : p.Inv) (hok : p.OkMeansIncluded) {e : ProposerEvent}
    (hright : p.CheckIsRight e) (hstep : p.step e = .ok p') : p'.OkMeansIncluded := by
  intro k
  cases e with
  | nextRequest =>
      simp only [Proposer.step] at hstep
      split at hstep
      · cases hstep
        rw [view_nextRequest]
        exact hok k
      · cases hstep
  | attempt e =>
      obtain ⟨hne, he, w, hw, rfl⟩ := step_attempt_eq_ok hstep
      have hw' := World.step_cases hw
      have heffect := hw'.attempt (h.views p.running) he
      by_cases hk : k = p.running
      · rw [hk, view_absorb_running hne heffect]
        exact (World.checkIsRight_iff (h.views p.running) (hok p.running) e).mp hright w hw
      · rcases view_absorb_other hne heffect hk with hsame | ⟨hash, nonce, hother⟩
        · rw [hsame]
          exact hok k
        · rw [hother]
          exact okMeansIncluded_of_step (hok k) (.otherSent hash nonce) rfl
  | otherSent hash nonce =>
      cases hstep
      exact okMeansIncluded_of_step (hok k) (.otherSent hash nonce) rfl
  | included tx success =>
      simp only [Proposer.step] at hstep
      split at hstep
      · rename_i hpossible
        cases hstep
        exact okMeansIncluded_of_step (hok k)
          (.included success (List.mem_map_of_mem hpossible.1) hpossible.2) rfl
      · cases hstep

/-- What returned `Ok` has landed, and nothing else but what has started. -/
theorem Inv.mem_landed (h : p.Inv) (hok : p.OkMeansIncluded)
    (hall : ∀ c ∈ p.calls, c.phase = .done .ok) (k : Nat) :
    k ∈ p.landed ↔ k < p.calls.length := by
  rw [landed, List.mem_filterMap]
  constructor
  · rintro ⟨i, hi, hk⟩
    split at hk
    · exact h.included i (List.mem_reverse.mp hi) k hk
    · cases hk
  · intro hk
    have hdone : (p.view k).phase = .done .ok := by
      apply hall (p.call k)
      rw [call, List.getD_eq_getElem?_getD, List.getElem?_eq_getElem hk]
      exact List.getElem_mem hk
    obtain ⟨i, hi, hbatch, hsuccess⟩ := hok k hdone
    obtain ⟨j, hj, rfl⟩ := List.mem_map.mp hi
    have hsuccess' : j.success = true := hsuccess
    refine ⟨j, List.mem_reverse.mpr hj, ?_⟩
    rw [if_pos hsuccess']
    by_contra hne
    have hother : (if j.tx.call = some k then TxKind.batch else .other) = .batch := hbatch
    rw [if_neg hne] at hother
    cases hother

/-- **Nothing is lost.**  When the nonce checks of a run are right and all its
calls returned `Ok`, what is on L1 are the batches of the requests, each of them
once and in their order. -/
theorem landed_eq_range (accountNonce : Nat) (others : List (Nat × Nat))
    (es : List ProposerEvent) (p : Proposer)
    (hright : Run.Along step (fun p e _ => p.CheckIsRight e) (init accountNonce others) es)
    (h : es.foldlM step (init accountNonce others) = .ok p)
    (hall : ∀ c ∈ p.calls, c.phase = .done .ok) : p.landed = List.range p.calls.length := by
  have hinv : p.Inv ∧ p.OkMeansIncluded := by
    apply Run.Along.invariant (fun p => p.Inv ∧ p.OkMeansIncluded) _ es _ hright h
    · intro p e p' hp hcheck hstep
      exact ⟨hp.1.step hstep, OkMeansIncluded.step hp.1 hp.2 hcheck hstep⟩
    · refine ⟨inv_init _ _, fun k hdone => ?_⟩
      cases hdone
  apply hinv.1.ascending.eq_of_mem_iff List.pairwise_lt_range
  intro k
  rw [hinv.1.mem_landed hinv.2 hall, List.mem_range]

section Sample

/-- Two batches; the first one lands between the attempts. -/
def resentRun : List ProposerEvent :=
  [ .nextRequest, .attempt .nonceRead, .attempt (.txBuilt 1), .attempt .blockRead,
    .attempt .bundlesDone, .attempt .mempoolSent,
    .attempt (.failed .txNotIncludedInNextBlocks false), .included ⟨1, 5, some 0⟩ true,
    .attempt .nonceRead,
    .nextRequest, .attempt .nonceRead, .attempt (.txBuilt 2), .attempt .blockRead,
    .attempt .bundleSent, .included ⟨2, 6, some 1⟩ true, .attempt .bundlesDone,
    .attempt .receiptRead ]

theorem landed_eq_range_resentRun :
    ∃ p, resentRun.foldlM step (init 5 []) = .ok p ∧ p.calls.length = 2 ∧
      p.landed = List.range p.calls.length := by
  have hrun : (resentRun.foldlM step (init 5 [])).toOption.map (fun p =>
      (p.calls.length, decide (∀ c ∈ p.calls, c.phase = .done .ok))) = some (2, true) := by
    decide +kernel
  obtain ⟨p, hp, hchecks⟩ := Option.map_eq_some_iff.mp hrun
  rw [Prod.mk.injEq, decide_eq_true_eq] at hchecks
  have hp' := Except.toOption_eq_some_iff.mp hp
  exact ⟨p, hp', hchecks.1, landed_eq_range 5 [] resentRun p (by decide +kernel) hp' hchecks.2⟩

end Sample

end Proposer

end TaikoGateway.ProposeBatch
