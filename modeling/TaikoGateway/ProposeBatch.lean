/-
TaikoGateway/ProposeBatch.lean

Sending one batch to L1 (`propose_batch`, `propose_one_batch`).  An attempt
reads the account nonce, builds and sends a transaction with it and waits for
the receipt; a failed attempt is repeated.  An attempt that finds the account
nonce past the nonce of the previous attempt concludes that the batch is on
L1 already and returns `Ok`.

The world around it (`World`) has the account of the signer, the transactions
of this key that may still be included, and those that were.  One `Event` is
one step of anybody: of the attempt, of L1, or of another user of the key
(the balance manager deposits bonds with the same key).  An event that is not
possible in a state is an `error`.

Main result (`propose_batch_ok_iff`): in a run, `Ok` always means that the
batch is on L1, exactly when at every nonce check that passes, the transaction
that used up the recorded nonce is a successful one of this batch.  Nothing in
the code checks that.
-/
import TaikoGateway.Lib.Run

namespace TaikoGateway.ProposeBatch

/-! ### The retry loop -/

/-- `u128` arithmetic in a release build: wraps. -/
def u128 (n : Nat) : Nat := n % 2 ^ 128

theorem u128_of_lt {n : Nat} (h : n < 2 ^ 128) : u128 n = n := Nat.mod_eq_of_lt h

/-- The errors of an attempt that `propose_batch` tells apart. -/
inductive AttemptError
  | txNotIncludedInNextBlocks
  | timestampTooLarge
  | notPreconferOrFallback
  | invalidLastBlockId (actual expected : Nat)
  | underpricedTipCap (sent queued : Nat)
  | underpricedBlobFeeCap (sent queued : Nat)
  | underpricedGasFeeCap (sent queued : Nat)
  | underpricedUnknown
  /-- any other error -/
  | other (err : String)
  deriving DecidableEq, Repr

/-- The local variables of the loop.  `lastUsedNonce` is `none` for
`u64::MAX`, which no account nonce exceeds. -/
structure LoopVars where
  retries : Nat := 0
  bumpFees : Bool := false
  lastUsedNonce : Option Nat := none
  tipCap : Option Nat := none
  blobFeeCap : Option Nat := none
  gasFeeCap : Option Nat := none
  deriving DecidableEq, Repr

def maxRetries : Nat := 3

/-- How the loop goes on after an error. -/
inductive AfterError
  | retry (vars : LoopVars)
  /-- `break`: the batch is given up -/
  | stop
  /-- "max retries reached to propose batch" -/
  | panic
  deriving DecidableEq, Repr

def LoopVars.countRetry (v : LoopVars) : AfterError :=
  if v.retries + 1 = maxRetries then .panic else .retry { v with retries := v.retries + 1 }

def LoopVars.onError (v : LoopVars) : AttemptError → AfterError
  | .txNotIncludedInNextBlocks => .retry { v with bumpFees := true }
  | .timestampTooLarge => .retry v
  | .notPreconferOrFallback => .stop
  | .invalidLastBlockId actual expected =>
      -- this batch was most likely already proposed, skip
      if actual > expected then .stop else v.countRetry
  | .underpricedTipCap _ queued => .retry { v with tipCap := some (u128 (2 * queued)) }
  | .underpricedBlobFeeCap _ queued => .retry { v with blobFeeCap := some (u128 (2 * queued)) }
  | .underpricedGasFeeCap _ queued => .retry { v with gasFeeCap := some (u128 (2 * queued)) }
  | .underpricedUnknown => .retry v
  | .other _ => v.countRetry

theorem LoopVars.countRetry_eq_retry {v v' : LoopVars} (h : v.countRetry = .retry v') :
    v' = { v with retries := v.retries + 1 } := by
  unfold LoopVars.countRetry at h
  split at h
  · cases h
  · cases h; rfl

/-- No error changes the recorded nonce. -/
theorem LoopVars.onError_lastUsedNonce {v v' : LoopVars} {err : AttemptError}
    (h : v.onError err = .retry v') : v'.lastUsedNonce = v.lastUsedNonce := by
  cases err with
  | invalidLastBlockId actual expected =>
      simp only [LoopVars.onError] at h
      split at h
      · cases h
      · rw [countRetry_eq_retry h]
  | other err => rw [countRetry_eq_retry h]
  | notPreconferOrFallback => cases h
  | txNotIncludedInNextBlocks => cases h; rfl
  | timestampTooLarge => cases h; rfl
  | underpricedTipCap sent queued => cases h; rfl
  | underpricedBlobFeeCap sent queued => cases h; rfl
  | underpricedGasFeeCap sent queued => cases h; rfl
  | underpricedUnknown => cases h; rfl

/-! ### The world -/

/-- What a transaction of the signer is for. -/
inductive TxKind
  /-- it carries the calldata of this batch -/
  | batch
  /-- anything else: a bond deposit, an earlier batch -/
  | other
  deriving DecidableEq, Repr

structure Tx where
  hash : Nat
  nonce : Nat
  kind : TxKind
  deriving DecidableEq, Repr

/-- A transaction on L1 and the status of its receipt. -/
structure Inclusion where
  tx : Tx
  success : Bool
  deriving DecidableEq, Repr

inductive Outcome
  /-- `propose_one_batch` returned `Ok` -/
  | ok
  /-- left by a `break` -/
  | gaveUp
  | panicked
  deriving DecidableEq, Repr

/-- Where `propose_one_batch` is. -/
inductive Phase
  /-- before `get_nonce` -/
  | start
  /-- the nonce is recorded, the transaction is not built yet -/
  | building (nonce : Nat)
  /-- before the first `get_last_block_number` -/
  | readingBlock (tx : Tx)
  /-- sending bundles to the builder, if there is one -/
  | sendingBundles (tx : Tx)
  /-- waiting for the receipt -/
  | waiting (tx : Tx) (sentMempool : Bool)
  | done (outcome : Outcome)
  deriving DecidableEq, Repr

structure World where
  /-- transaction count of the signer -/
  accountNonce : Nat
  /-- transactions of the signer that L1 may still include -/
  pool : List Tx
  included : List Inclusion
  vars : LoopVars
  phase : Phase
  deriving DecidableEq, Repr

inductive Event
  /-- `get_nonce` answers -/
  | nonceRead
  /-- the transaction is built; `hash` is its hash -/
  | txBuilt (hash : Nat)
  | blockRead
  /-- a bundle reaches the builder -/
  | bundleSent
  | bundlesDone
  | mempoolSent
  /-- `get_tx_receipt` answers with a receipt -/
  | receiptRead
  /-- the attempt fails here; a failed send may still have reached the node -/
  | failed (err : AttemptError) (accepted : Bool)
  /-- another user of the key sends a transaction -/
  | otherSent (hash nonce : Nat)
  /-- L1 includes a transaction -/
  | included (tx : Tx) (success : Bool)
  deriving DecidableEq, Repr

namespace World

/-- Nothing of this batch exists yet; the pool may hold other transactions. -/
def init (accountNonce : Nat) (others : List (Nat × Nat)) : World :=
  { accountNonce := accountNonce
    pool := others.map fun o => ⟨o.1, o.2, .other⟩
    included := []
    vars := {}
    phase := .start }

/-- The error branch of the loop. -/
def attemptFailed (w : World) (err : AttemptError) : World :=
  match w.vars.onError err with
  | .retry vars => { w with vars := vars, phase := .start }
  | .stop => { w with phase := .done .gaveUp }
  | .panic => { w with phase := .done .panicked }

/-- The account nonce is past the nonce of the previous attempt. -/
def nonceIsHigher (w : World) : Prop := ∃ n, w.vars.lastUsedNonce = some n ∧ n < w.accountNonce

instance (w : World) : Decidable w.nonceIsHigher :=
  match h : w.vars.lastUsedNonce with
  | none => isFalse fun ⟨n, hn, _⟩ => by rw [h] at hn; cases hn
  | some n => decidable_of_iff (n < w.accountNonce)
      ⟨fun hlt => ⟨n, h, hlt⟩, fun ⟨n', hn', hlt⟩ => by rw [h] at hn'; cases hn'; exact hlt⟩

def readNonce (w : World) : World :=
  -- most likely tx got already confirmed
  if w.nonceIsHigher then { w with phase := .done .ok }
  else
    { w with
      vars := { w.vars with lastUsedNonce := some w.accountNonce }
      phase := .building w.accountNonce }

/-- The receipt of the attempt's transaction. -/
def readReceipt (w : World) (receipt : Inclusion) : World :=
  if receipt.success then { w with phase := .done .ok }
  else
    -- retry with new nonce
    attemptFailed { w with vars := { w.vars with lastUsedNonce := none } }
      (.other "failed to propose block")

def step (w : World) : Event → Except Unit World
  | .nonceRead =>
      match w.phase with
      | .start => .ok w.readNonce
      | _ => .error ()
  | .txBuilt hash =>
      match w.phase with
      | .building nonce => .ok { w with phase := .readingBlock ⟨hash, nonce, .batch⟩ }
      | _ => .error ()
  | .blockRead =>
      match w.phase with
      | .readingBlock tx => .ok { w with phase := .sendingBundles tx }
      | _ => .error ()
  | .bundleSent =>
      match w.phase with
      | .sendingBundles tx => .ok { w with pool := tx :: w.pool }
      | _ => .error ()
  | .bundlesDone =>
      match w.phase with
      | .sendingBundles tx => .ok { w with phase := .waiting tx false }
      | _ => .error ()
  | .mempoolSent =>
      match w.phase with
      | .waiting tx false => .ok { w with pool := tx :: w.pool, phase := .waiting tx true }
      | _ => .error ()
  | .receiptRead =>
      match w.phase with
      | .waiting tx _ =>
          match w.included.find? (fun i => i.tx = tx) with
          | some receipt => .ok (w.readReceipt receipt)
          | none => .error ()
      | _ => .error ()
  | .failed err accepted =>
      match w.phase with
      | .start => .ok (w.attemptFailed err)
      | .building _ => .ok (w.attemptFailed err)
      | .readingBlock _ => .ok (w.attemptFailed err)
      | .waiting tx _ =>
          .ok (attemptFailed { w with pool := if accepted then tx :: w.pool else w.pool } err)
      | .sendingBundles _ => .error ()
      | .done _ => .error ()
  | .otherSent hash nonce => .ok { w with pool := ⟨hash, nonce, .other⟩ :: w.pool }
  | .included tx success =>
      if tx ∈ w.pool ∧ tx.nonce = w.accountNonce then
        .ok { w with
          accountNonce := w.accountNonce + 1
          included := ⟨tx, success⟩ :: w.included }
      else .error ()

end World

/-! ### What `Ok` should mean -/

/-- The batch is on L1. -/
def World.BatchIncluded (w : World) : Prop :=
  ∃ i ∈ w.included, i.tx.kind = .batch ∧ i.success = true

/-- `Ok` means that the batch is on L1. -/
def World.OkMeansIncluded (w : World) : Prop := w.phase = .done .ok → w.BatchIncluded

/-- The recorded nonce, where it is used up, was used up by a successful
transaction of this batch. -/
def World.NonceUsedByBatch (w : World) : Prop :=
  ∀ n, w.vars.lastUsedNonce = some n → ∀ i ∈ w.included, i.tx.nonce = n →
    i.tx.kind = .batch ∧ i.success = true

/-! ### Invariants -/

/-- The transaction can only be included as the one with the recorded
nonce. -/
def World.Pinned (w : World) (tx : Tx) : Prop :=
  tx.nonce < w.accountNonce ∨ w.vars.lastUsedNonce = some tx.nonce

/-- The running attempt uses the recorded nonce. -/
def World.PhaseOk (w : World) : Prop :=
  match w.phase with
  | .start => True
  | .building nonce => w.vars.lastUsedNonce = some nonce
  | .readingBlock tx => tx.kind = .batch ∧ w.vars.lastUsedNonce = some tx.nonce
  | .sendingBundles tx => tx.kind = .batch ∧ w.vars.lastUsedNonce = some tx.nonce
  | .waiting tx _ => tx.kind = .batch ∧ w.vars.lastUsedNonce = some tx.nonce
  | .done _ => True

/-- The recorded nonce against the transactions sent and included so far. -/
structure World.Ledger (w : World) : Prop where
  below : ∀ i ∈ w.included, i.tx.nonce < w.accountNonce
  unique : ∀ i ∈ w.included, ∀ j ∈ w.included, i.tx.nonce = j.tx.nonce → i = j
  recorded : ∀ n, w.vars.lastUsedNonce = some n →
    n ≤ w.accountNonce ∧ (n < w.accountNonce → ∃ i ∈ w.included, i.tx.nonce = n)
  pinned : ∀ tx ∈ w.pool, tx.kind = .batch → w.Pinned tx
  /-- a successful transaction of the batch has the recorded nonce -/
  landed : ∀ i ∈ w.included, i.tx.kind = .batch → i.success = true →
    w.vars.lastUsedNonce = some i.tx.nonce

/-- What holds in every state, whatever the other users of the key do. -/
structure World.Inv (w : World) : Prop where
  ledger : w.Ledger
  phaseOk : w.PhaseOk

namespace World

variable {w w' : World} {tx : Tx}

theorem inv_init (accountNonce : Nat) (others : List (Nat × Nat)) :
    (init accountNonce others).Inv := by
  refine ⟨⟨by simp [init], by simp [init], by simp [init], ?_, by simp [init]⟩, trivial⟩
  intro tx htx hbatch
  obtain ⟨o, -, rfl⟩ := List.mem_map.mp htx
  cases hbatch

/-- A failed attempt changes the loop variables and the phase only, and keeps
the recorded nonce. -/
theorem attemptFailed_spec (w : World) (err : AttemptError) :
    ∃ vars phase, w.attemptFailed err = { w with vars := vars, phase := phase } ∧
      vars.lastUsedNonce = w.vars.lastUsedNonce ∧
      (phase = .start ∨ phase = .done .gaveUp ∨ phase = .done .panicked) := by
  unfold attemptFailed
  cases herr : w.vars.onError err with
  | retry vars => exact ⟨vars, .start, rfl, LoopVars.onError_lastUsedNonce herr, Or.inl rfl⟩
  | stop => exact ⟨w.vars, .done .gaveUp, rfl, rfl, Or.inr (Or.inl rfl)⟩
  | panic => exact ⟨w.vars, .done .panicked, rfl, rfl, Or.inr (Or.inr rfl)⟩

/-- After a failed attempt no transaction is current, so the ledger is all
there is to keep. -/
theorem Ledger.attemptFailed (h : w.Ledger) (err : AttemptError) : (w.attemptFailed err).Inv := by
  obtain ⟨vars, phase, heq, hlast, hphase⟩ := w.attemptFailed_spec err
  rw [heq]
  refine ⟨⟨h.below, h.unique, ?_, ?_, ?_⟩, ?_⟩
  · intro n hn
    exact h.recorded n (hlast ▸ hn)
  · intro tx htx hbatch
    rcases h.pinned tx htx hbatch with hlt | hrec
    · exact Or.inl hlt
    · exact Or.inr (hlast.trans hrec)
  · intro i hi hbatch hsuccess
    exact hlast.trans (h.landed i hi hbatch hsuccess)
  · rcases hphase with rfl | rfl | rfl <;> trivial

/-- Another transaction in the pool is harmless if it is not of this batch or
uses the recorded nonce. -/
theorem Ledger.addToPool (h : w.Ledger) (htx : tx.kind = .batch → w.Pinned tx) :
    Ledger { w with pool := tx :: w.pool } := by
  refine ⟨h.below, h.unique, h.recorded, ?_, h.landed⟩
  intro tx' htx'
  rcases List.mem_cons.mp htx' with rfl | htx'
  · exact htx
  · exact h.pinned tx' htx'

theorem Ledger.setPhase (h : w.Ledger) (phase : Phase) : Ledger { w with phase := phase } :=
  ⟨h.below, h.unique, h.recorded, h.pinned, h.landed⟩

theorem Ledger.readNonce (h : w.Ledger) : w.readNonce.Inv := by
  unfold World.readNonce
  split
  · exact ⟨h.setPhase _, trivial⟩
  · next hhigher =>
      -- whatever was recorded is the account nonce itself
      have hsame : ∀ n, w.vars.lastUsedNonce = some n → n = w.accountNonce := by
        intro n hn
        have hle := (h.recorded n hn).1
        have hge : ¬ n < w.accountNonce := fun hlt => hhigher ⟨n, hn, hlt⟩
        omega
      refine ⟨⟨h.below, h.unique, ?_, ?_, ?_⟩, rfl⟩
      · intro n hn
        obtain rfl := Option.some.inj hn
        exact ⟨le_rfl, fun hlt => absurd hlt (lt_irrefl _)⟩
      · intro tx htx hbatch
        rcases h.pinned tx htx hbatch with hlt | hrec
        · exact Or.inl hlt
        · exact Or.inr (congrArg some (hsame _ hrec).symm)
      · intro i hi hbatch hsuccess
        have hnonce := hsame _ (h.landed i hi hbatch hsuccess)
        exact absurd hnonce (h.below i hi).ne

/-- A receipt of the transaction with the recorded nonce. -/
theorem Ledger.readReceipt (h : w.Ledger) {receipt : Inclusion} (hreceipt : receipt ∈ w.included)
    (hlast : w.vars.lastUsedNonce = some receipt.tx.nonce) : (w.readReceipt receipt).Inv := by
  unfold World.readReceipt
  split
  · exact ⟨h.setPhase _, trivial⟩
  · next hfailed =>
      -- the recorded nonce is used up by a transaction that reverted
      suffices hledger : Ledger { w with vars := { w.vars with lastUsedNonce := none } } from
        hledger.attemptFailed _
      refine ⟨h.below, h.unique, ?_, ?_, ?_⟩
      · intro n hn
        cases hn
      · intro tx htx hbatch
        rcases h.pinned tx htx hbatch with hlt | hrec
        · exact Or.inl hlt
        · rw [hlast] at hrec
          exact Or.inl (Option.some.inj hrec ▸ h.below receipt hreceipt)
      · intro i hi hbatch hsuccess
        have hrec := h.landed i hi hbatch hsuccess
        rw [hlast] at hrec
        have hi' := h.unique receipt hreceipt i hi (Option.some.inj hrec)
        rw [← hi'] at hsuccess
        exact absurd hsuccess hfailed

theorem Ledger.include (h : w.Ledger) (hpool : tx ∈ w.pool) (hnonce : tx.nonce = w.accountNonce)
    (success : Bool) :
    Ledger { w with
      accountNonce := w.accountNonce + 1
      included := ⟨tx, success⟩ :: w.included } := by
  refine ⟨?_, ?_, ?_, ?_, ?_⟩
  · intro i hi
    show i.tx.nonce < w.accountNonce + 1
    rcases List.mem_cons.mp hi with rfl | hi
    · exact hnonce ▸ Nat.lt_succ_self _
    · exact (h.below i hi).trans (Nat.lt_succ_self _)
  · intro i hi j hj hij
    rcases List.mem_cons.mp hi with rfl | hi <;> rcases List.mem_cons.mp hj with rfl | hj
    · rfl
    · exact absurd (hij.symm.trans hnonce) (h.below j hj).ne
    · exact absurd (hij.trans hnonce) (h.below i hi).ne
    · exact h.unique i hi j hj hij
  · intro n hn
    show n ≤ w.accountNonce + 1 ∧ (n < w.accountNonce + 1 → _)
    obtain ⟨hle, hused⟩ := h.recorded n hn
    refine ⟨by omega, fun hlt => ?_⟩
    rcases Nat.lt_or_ge n w.accountNonce with hlt' | hge
    · obtain ⟨i, hi, hin⟩ := hused hlt'
      exact ⟨i, List.mem_cons_of_mem _ hi, hin⟩
    · exact ⟨⟨tx, success⟩, List.mem_cons_self, show tx.nonce = n by omega⟩
  · intro tx' htx' hbatch
    rcases h.pinned tx' htx' hbatch with hlt | hrec
    · exact Or.inl (hlt.trans (Nat.lt_succ_self _))
    · exact Or.inr hrec
  · intro i hi hbatch hsuccess
    rcases List.mem_cons.mp hi with rfl | hi
    · -- a pinned transaction that is included now has the recorded nonce
      rcases h.pinned tx hpool hbatch with hlt | hrec
      · exact absurd hnonce hlt.ne
      · exact hrec
    · exact h.landed i hi hbatch hsuccess

/-! ### One step -/

/-- The steps that are possible, one case for each way an event can go. -/
inductive Step (w : World) : Event → World → Prop
  | nonceRead : w.phase = .start → Step w .nonceRead w.readNonce
  | txBuilt {nonce : Nat} (hash : Nat) : w.phase = .building nonce →
      Step w (.txBuilt hash) { w with phase := .readingBlock ⟨hash, nonce, .batch⟩ }
  | blockRead {tx : Tx} : w.phase = .readingBlock tx →
      Step w .blockRead { w with phase := .sendingBundles tx }
  | bundleSent {tx : Tx} : w.phase = .sendingBundles tx →
      Step w .bundleSent { w with pool := tx :: w.pool }
  | bundlesDone {tx : Tx} : w.phase = .sendingBundles tx →
      Step w .bundlesDone { w with phase := .waiting tx false }
  | mempoolSent {tx : Tx} : w.phase = .waiting tx false →
      Step w .mempoolSent { w with pool := tx :: w.pool, phase := .waiting tx true }
  | receiptRead {tx : Tx} {sent : Bool} {receipt : Inclusion} : w.phase = .waiting tx sent →
      receipt ∈ w.included → receipt.tx = tx → Step w .receiptRead (w.readReceipt receipt)
  | failedUnsent (err : AttemptError) (accepted : Bool) :
      Step w (.failed err accepted) (w.attemptFailed err)
  | failedSent {tx : Tx} {sent : Bool} (err : AttemptError) : w.phase = .waiting tx sent →
      Step w (.failed err true) (attemptFailed { w with pool := tx :: w.pool } err)
  | otherSent (hash nonce : Nat) :
      Step w (.otherSent hash nonce) { w with pool := ⟨hash, nonce, .other⟩ :: w.pool }
  | included {tx : Tx} (success : Bool) : tx ∈ w.pool → tx.nonce = w.accountNonce →
      Step w (.included tx success)
        { w with
          accountNonce := w.accountNonce + 1
          included := ⟨tx, success⟩ :: w.included }

theorem step_cases {e : Event} (hstep : w.step e = .ok w') : w.Step e w' := by
  cases e with
  | nonceRead =>
      simp only [World.step] at hstep
      split at hstep <;> cases hstep
      next hphase => exact .nonceRead hphase
  | txBuilt hash =>
      simp only [World.step] at hstep
      split at hstep <;> cases hstep
      next hphase => exact .txBuilt hash hphase
  | blockRead =>
      simp only [World.step] at hstep
      split at hstep <;> cases hstep
      next hphase => exact .blockRead hphase
  | bundleSent =>
      simp only [World.step] at hstep
      split at hstep <;> cases hstep
      next hphase => exact .bundleSent hphase
  | bundlesDone =>
      simp only [World.step] at hstep
      split at hstep <;> cases hstep
      next hphase => exact .bundlesDone hphase
  | mempoolSent =>
      simp only [World.step] at hstep
      split at hstep <;> cases hstep
      next hphase => exact .mempoolSent hphase
  | receiptRead =>
      simp only [World.step] at hstep
      split at hstep
      · next tx sent hphase =>
          split at hstep <;> cases hstep
          next receipt hfind =>
            have htx : receipt.tx = tx := by simpa using List.find?_some hfind
            exact .receiptRead hphase (List.mem_of_find?_eq_some hfind) htx
      · cases hstep
  | failed err accepted =>
      simp only [World.step] at hstep
      split at hstep <;> cases hstep
      · exact .failedUnsent err accepted
      · exact .failedUnsent err accepted
      · exact .failedUnsent err accepted
      -- a send that fails may still have reached the mempool
      · next tx sent hphase =>
          cases accepted with
          | false => exact .failedUnsent err false
          | true => exact .failedSent err hphase
  | otherSent hash nonce => cases hstep; exact .otherSent hash nonce
  | included tx success =>
      simp only [World.step] at hstep
      split at hstep <;> cases hstep
      next hpossible => exact .included success hpossible.1 hpossible.2

theorem Inv.step (h : w.Inv) {e : Event} (hstep : w.Step e w') : w'.Inv := by
  obtain ⟨hledger, hphaseOk⟩ := h
  have hcur := hphaseOk
  unfold PhaseOk at hcur
  cases hstep with
  | nonceRead hphase => exact hledger.readNonce
  | txBuilt hash hphase =>
      rw [hphase] at hcur
      exact ⟨hledger.setPhase _, rfl, hcur⟩
  | blockRead hphase =>
      rw [hphase] at hcur
      exact ⟨hledger.setPhase _, hcur⟩
  | bundleSent hphase =>
      rw [hphase] at hcur
      exact ⟨hledger.addToPool fun _ => Or.inr hcur.2, hphaseOk⟩
  | bundlesDone hphase =>
      rw [hphase] at hcur
      exact ⟨hledger.setPhase _, hcur⟩
  | mempoolSent hphase =>
      rw [hphase] at hcur
      exact ⟨(hledger.addToPool fun _ => Or.inr hcur.2).setPhase _, hcur⟩
  | receiptRead hphase hreceipt htx =>
      -- the receipt is one of the transaction that was built from this batch
      rw [hphase] at hcur
      exact hledger.readReceipt hreceipt (htx ▸ hcur.2)
  | failedUnsent err accepted => exact hledger.attemptFailed err
  | failedSent err hphase =>
      rw [hphase] at hcur
      exact (hledger.addToPool fun _ => Or.inr hcur.2).attemptFailed err
  | otherSent hash nonce =>
      exact ⟨hledger.addToPool (fun hbatch => by cases hbatch), hphaseOk⟩
  | included success hpool hnonce => exact ⟨hledger.include hpool hnonce success, hphaseOk⟩

/-! ### Main result -/

/-- A nonce check that passes is right: the recorded nonce was used up by a
successful transaction of this batch. -/
def CheckIsRight (w : World) (e : Event) : Prop :=
  e = .nonceRead → w.phase = .start → w.nonceIsHigher → w.NonceUsedByBatch

@[simp] theorem attemptFailed_included (w : World) (err : AttemptError) :
    (w.attemptFailed err).included = w.included := by
  obtain ⟨vars, phase, heq, -⟩ := w.attemptFailed_spec err
  rw [heq]

theorem attemptFailed_phase_ne (w : World) (err : AttemptError) :
    (w.attemptFailed err).phase ≠ .done .ok := by
  obtain ⟨vars, phase, heq, -, hphase⟩ := w.attemptFailed_spec err
  rw [heq]
  rcases hphase with rfl | rfl | rfl <;> simp

/-- What is on L1 stays on L1. -/
theorem Step.included_subset {e : Event} (hstep : w.Step e w') :
    ∀ i ∈ w.included, i ∈ w'.included := by
  intro i hi
  cases hstep with
  | nonceRead hphase =>
      unfold readNonce
      split <;> exact hi
  | receiptRead hphase hreceipt htx =>
      unfold readReceipt
      split
      · exact hi
      · rwa [attemptFailed_included]
  | failedUnsent err accepted => rwa [attemptFailed_included]
  | failedSent err hphase => rwa [attemptFailed_included]
  | included success hpool hnonce => exact List.mem_cons_of_mem _ hi
  | txBuilt hash hphase => exact hi
  | blockRead hphase => exact hi
  | bundleSent hphase => exact hi
  | bundlesDone hphase => exact hi
  | mempoolSent hphase => exact hi
  | otherSent hash nonce => exact hi

theorem BatchIncluded.step {e : Event} (h : w.BatchIncluded) (hstep : w.Step e w') :
    w'.BatchIncluded := by
  obtain ⟨i, hi, hbatch⟩ := h
  exact ⟨i, hstep.included_subset i hi, hbatch⟩

/-- The two ways to return `Ok`: by the nonce check, or with the receipt of a
successful transaction. -/
theorem step_ok_cases (h : w.Inv) {e : Event} (hstep : w.Step e w')
    (hok : w'.phase = .done .ok) :
    w.phase = .done .ok ∨ (e = .nonceRead ∧ w.phase = .start ∧ w.nonceIsHigher) ∨
      w.BatchIncluded := by
  have hcur := h.phaseOk
  unfold PhaseOk at hcur
  cases hstep with
  | nonceRead hstart =>
      -- the nonce is read at the start of every attempt, also the first
      unfold readNonce at hok
      split at hok
      · next hhigher => exact Or.inr (Or.inl ⟨rfl, hstart, hhigher⟩)
      · cases hok
  | receiptRead hphase hreceipt htx =>
      rw [hphase] at hcur
      unfold readReceipt at hok
      split at hok
      · next hsuccess => exact Or.inr (Or.inr ⟨_, hreceipt, htx ▸ hcur.1, hsuccess⟩)
      · exact absurd hok (attemptFailed_phase_ne _ _)
  | failedUnsent err accepted => exact absurd hok (attemptFailed_phase_ne _ _)
  | failedSent err hphase => exact absurd hok (attemptFailed_phase_ne _ _)
  | bundleSent hphase => exact Or.inl hok
  | otherSent hash nonce => exact Or.inl hok
  | included success hpool hnonce => exact Or.inl hok
  | txBuilt hash hphase => cases hok
  | blockRead hphase => cases hok
  | bundlesDone hphase => cases hok
  | mempoolSent hphase => cases hok

/-- One step: `Ok` goes on to mean that the batch is on L1 iff a nonce check
that passes in this step is right. -/
theorem checkIsRight_iff (h : w.Inv) (hok : w.OkMeansIncluded) (e : Event) :
    w.CheckIsRight e ↔ ∀ w', w.step e = .ok w' → w'.OkMeansIncluded := by
  constructor
  · intro hcheck w' hstep hdone
    replace hstep := step_cases hstep
    rcases step_ok_cases h hstep hdone with hbefore | ⟨he, hstart, hhigher⟩ | hincluded
    · exact (hok hbefore).step hstep
    · -- the recorded nonce is used up, and by assumption by this batch
      obtain ⟨n, hn, hlt⟩ := hhigher
      obtain ⟨i, hi, hin⟩ := (h.ledger.recorded n hn).2 hlt
      have hbatch := hcheck he hstart ⟨n, hn, hlt⟩ n hn i hi hin
      exact BatchIncluded.step ⟨i, hi, hbatch⟩ hstep
    · exact hincluded.step hstep
  · intro hprop he hstart hhigher n hn i hi hin
    subst he
    have hstep : w.step .nonceRead = .ok { w with phase := .done .ok } := by
      simp only [World.step, hstart, readNonce, if_pos hhigher]
    obtain ⟨j, hj, hbatch, hsuccess⟩ := hprop _ hstep rfl
    -- the transaction that landed has the recorded nonce too
    have hrec := h.ledger.landed j hj hbatch hsuccess
    rw [hn] at hrec
    have hij := h.ledger.unique i hi j hj (hin.trans (Option.some.inj hrec))
    rw [hij]
    exact ⟨hbatch, hsuccess⟩

/-- **When `Ok` means that the batch is on L1.**  For every run, whatever the
order of attempts, failures, inclusions and other transactions of the key: in
all states reached, a returned `Ok` means that a transaction with this batch's
calldata was included successfully, iff every nonce check that passes is
right. -/
theorem propose_batch_ok_iff (accountNonce : Nat) (others : List (Nat × Nat))
    (es : List Event) :
    Run.Along step (fun w e _ => w.CheckIsRight e) (init accountNonce others) es ↔
      Run.Along step (fun _ _ r => ∀ w', r = .ok w' → w'.OkMeansIncluded)
        (init accountNonce others) es := by
  refine Run.Along.congr_of_invariant (fun w => w.Inv ∧ w.OkMeansIncluded) ?_ ?_ es
    ⟨inv_init _ _, fun hdone => by cases hdone⟩
  · rintro w e ⟨hinv, hok⟩
    exact checkIsRight_iff hinv hok e
  · rintro w e w' ⟨hinv, hok⟩ hcheck hstep
    exact ⟨hinv.step (step_cases hstep), (checkIsRight_iff hinv hok e).mp hcheck w' hstep⟩

/-- A bond deposit takes nonce 5 while the first attempt fails to build its
transaction: the second attempt returns `Ok`, and nothing of the batch was
ever sent. -/
theorem propose_batch_dropped :
    ∃ (es : List Event) (w : World), es.foldlM step (init 5 []) = .ok w ∧
      w.phase = .done .ok ∧ ¬ w.BatchIncluded ∧ ∀ tx ∈ w.pool, tx.kind ≠ .batch := by
  refine ⟨[.nonceRead, .failed (.other "failed to build") false, .otherSent 1 5,
    .included ⟨1, 5, .other⟩ true, .nonceRead], _, rfl, rfl, ?_, by decide⟩
  rintro ⟨i, hi, hbatch, -⟩
  obtain rfl := List.mem_singleton.mp hi
  cases hbatch

end World

end TaikoGateway.ProposeBatch
