/-
TaikoGateway/Fees.lean

The fees of the transactions of `propose_batch` (`build_eip1559`,
`build_eip4844`), over all attempts of one call.

The two gas fees start from the provider's estimate with a buffer.  Each is
replaced on its own once the node has named its cap in an underpriced error,
both are doubled after a transaction was not included, and both are raised to
the minimum fee.  Only the last two keep the order of the two fees: a raised
tip cap is not carried over to the max fee.  So a transaction can promise more
per gas to the proposer than it pays in total, and no node accepts it.

Main result (`fees_valid_iff`): as long as no product leaves `u128`, in a run
every transaction has a tip of at most its max fee iff at every attempt the
caps that are set fit each other and the estimate, or the tip is below the
minimum (`TipFits`).

An attempt here is a whole `propose_one_batch`; `attempt_in_world` finds its
steps in the world of `ProposeBatch`.
-/
import TaikoGateway.ProposeBatch
import TaikoGateway.Types

namespace TaikoGateway.ProposeBatch

/-! ### Fees -/

def defaultMaxFeePerGas : Nat := 10000000000
def defaultMaxPriorityFeePerGas : Nat := 1000000000
def defaultMaxFeePerBlobGas : Nat := 5000000
def bufferPercentage : Nat := 140
def gasBufferPercentage : Nat := 180

/-- The two gas fees, of an estimate or of a transaction. -/
structure GasFees where
  maxFeePerGas : Nat
  maxPriorityFeePerGas : Nat
  deriving DecidableEq, Repr

/-- What the builders go on with when the estimate fails. -/
def defaultFees : GasFees := ⟨defaultMaxFeePerGas, defaultMaxPriorityFeePerGas⟩

/-- "add buffer" -/
def buffered (fee : Nat) : Nat := u128 (fee * bufferPercentage) / 100

def bumped (bumpFees : Bool) (fee : Nat) : Nat := if bumpFees then u128 (fee * 2) else fee

/-- A fee with a buffer: of the cap, once it is set, else of the estimate. -/
def cappedFee (cap : Option Nat) (estimate : Nat) : Nat :=
  match cap with
  | some cap => u128 (buffered cap + 1)
  | none => buffered estimate

/-- The max fee per gas, where the cap gets no buffer. -/
def cappedMaxFee (gasFeeCap : Option Nat) (estimate : Nat) : Nat :=
  match gasFeeCap with
  | some cap => u128 (cap + 1)
  | none => buffered estimate

/-- The gas fees of both builders. -/
def gasFees (estimate : GasFees) (bumpFees : Bool) (tipCap gasFeeCap : Option Nat)
    (minPriorityFee : Nat) : GasFees :=
  { maxFeePerGas :=
      max (bumped bumpFees (cappedMaxFee gasFeeCap estimate.maxFeePerGas)) minPriorityFee
    maxPriorityFeePerGas :=
      max (bumped bumpFees (cappedFee tipCap estimate.maxPriorityFeePerGas)) minPriorityFee }

def gasLimit (gas : Nat) : Nat := u128 (gas * gasBufferPercentage) / 100 % 2 ^ 64

/-! ### The builders -/

structure OsakaForkInfo where
  osakaTime : Nat
  bpo1Time : Nat
  bpo2Time : Nat
  deriving DecidableEq, Repr

inductive BlobParams
  | prague
  | osaka
  | bpo1
  | bpo2
  deriving DecidableEq, Repr

def blobParams (osakaForkInfo : Option OsakaForkInfo) (currentTime : Nat) : BlobParams :=
  match osakaForkInfo with
  | none => .prague
  | some info =>
      if currentTime ≥ info.bpo2Time then .bpo2
      else if currentTime ≥ info.bpo1Time then .bpo1
      else if currentTime ≥ info.osakaTime then .osaka
      else .prague

structure L1Client where
  chainId : Nat
  routerAddress : Address
  osakaForkInfo : Option OsakaForkInfo

/-- What the node and the clock answer while a transaction is built. -/
structure Answers where
  gas : Except AttemptError Nat
  /-- `estimate_eip1559_fees`, `none` if it fails -/
  fees : Option GasFees
  currentTime : Nat
  /-- the latest block, by the blob fee after it -/
  latestBlock : Except AttemptError (Option (BlobParams → Option Nat))

def Answers.estimate (answers : Answers) : GasFees := answers.fees.getD defaultFees

/-- The fields of a `TxEip1559` that are not left empty. -/
structure TxEip1559 where
  chainId : Nat
  nonce : Nat
  gasLimit : Nat
  maxFeePerGas : Nat
  maxPriorityFeePerGas : Nat
  toAddress : Address
  input : Bytes
  deriving DecidableEq, Repr

structure TxEip4844 where
  chainId : Nat
  nonce : Nat
  gasLimit : Nat
  maxFeePerGas : Nat
  maxPriorityFeePerGas : Nat
  toAddress : Address
  input : Bytes
  maxFeePerBlobGas : Nat
  blobVersionedHashes : List B256
  deriving DecidableEq, Repr

inductive TxEnvelope
  | eip1559 (tx : TxEip1559)
  | eip4844 (tx : TxEip4844)
  deriving DecidableEq, Repr

namespace TxEnvelope

def maxFeePerGas : TxEnvelope → Nat
  | eip1559 tx => tx.maxFeePerGas
  | eip4844 tx => tx.maxFeePerGas

def maxPriorityFeePerGas : TxEnvelope → Nat
  | eip1559 tx => tx.maxPriorityFeePerGas
  | eip4844 tx => tx.maxPriorityFeePerGas

def maxFeePerBlobGas : TxEnvelope → Option Nat
  | eip1559 _ => none
  | eip4844 tx => some tx.maxFeePerBlobGas

end TxEnvelope

namespace L1Client

def buildEip1559 (c : L1Client) (answers : Answers) (input : Bytes) (nonce : Nat)
    (bumpFees : Bool) (tipCap gasFeeCap : Option Nat) (minPriorityFee : Nat) :
    Except AttemptError TxEnvelope := do
  let gas ← answers.gas
  let fees := gasFees answers.estimate bumpFees tipCap gasFeeCap minPriorityFee
  return .eip1559
    { chainId := c.chainId
      nonce := nonce
      gasLimit := gasLimit gas
      maxFeePerGas := fees.maxFeePerGas
      maxPriorityFeePerGas := fees.maxPriorityFeePerGas
      toAddress := c.routerAddress
      input := input }

/-- `sidecar` is the list of its versioned hashes. -/
def buildEip4844 (c : L1Client) (answers : Answers) (input : Bytes) (nonce : Nat)
    (sidecar : List B256) (bumpFees : Bool) (tipCap blobFeeCap gasFeeCap : Option Nat)
    (minPriorityFee : Nat) : Except AttemptError TxEnvelope := do
  let gas ← answers.gas
  let fees := gasFees answers.estimate bumpFees tipCap gasFeeCap minPriorityFee
  let latest ← answers.latestBlock
  let blobGasFee :=
    (latest.bind fun nextBlockBlobFee =>
      nextBlockBlobFee (blobParams c.osakaForkInfo answers.currentTime)).getD
      defaultMaxFeePerBlobGas
  return .eip4844
    { chainId := c.chainId
      nonce := nonce
      gasLimit := gasLimit gas
      maxFeePerGas := fees.maxFeePerGas
      maxPriorityFeePerGas := fees.maxPriorityFeePerGas
      toAddress := c.routerAddress
      input := input
      -- the blob fee has no minimum
      maxFeePerBlobGas := bumped bumpFees (cappedFee blobFeeCap blobGasFee)
      blobVersionedHashes := sidecar }

variable {c : L1Client} {answers : Answers} {input : Bytes} {nonce minPriorityFee : Nat}
  {sidecar : List B256} {bumpFees : Bool} {tipCap blobFeeCap gasFeeCap : Option Nat}
  {tx : TxEnvelope}

theorem buildEip1559_fees
    (h : c.buildEip1559 answers input nonce bumpFees tipCap gasFeeCap minPriorityFee = .ok tx) :
    ⟨tx.maxFeePerGas, tx.maxPriorityFeePerGas⟩ =
        gasFees answers.estimate bumpFees tipCap gasFeeCap minPriorityFee ∧
      tx.maxFeePerBlobGas = none := by
  obtain ⟨gas, -, h⟩ := Except.bind_eq_ok_iff.mp h
  cases h
  exact ⟨rfl, rfl⟩

theorem buildEip4844_fees
    (h : c.buildEip4844 answers input nonce sidecar bumpFees tipCap blobFeeCap gasFeeCap
      minPriorityFee = .ok tx) :
    ⟨tx.maxFeePerGas, tx.maxPriorityFeePerGas⟩ =
        gasFees answers.estimate bumpFees tipCap gasFeeCap minPriorityFee ∧
      ∃ blobGasFee,
        tx.maxFeePerBlobGas = some (bumped bumpFees (cappedFee blobFeeCap blobGasFee)) := by
  obtain ⟨gas, -, h⟩ := Except.bind_eq_ok_iff.mp h
  obtain ⟨latest, -, h⟩ := Except.bind_eq_ok_iff.mp h
  cases h
  exact ⟨rfl, _, rfl⟩

end L1Client

/-! ### Attempts -/

/-- What is the same in all attempts of a call of `propose_batch`. -/
structure Call where
  client : L1Client
  minPriorityFee : Nat
  input : Bytes
  sidecar : Option (List B256)

/-- What happens to the transaction of an attempt once it is built. -/
inductive SendResult
  | receipt (success : Bool)
  | failed (err : AttemptError)
  deriving DecidableEq, Repr

/-- What the node answers in one attempt. -/
structure Attempt where
  nonce : Except AttemptError Nat
  answers : Answers
  result : SendResult

/-- `nonce > *last_used_nonce` -/
def LoopVars.nonceIsHigher (v : LoopVars) (nonce : Nat) : Bool :=
  match v.lastUsedNonce with
  | none => false
  | some last => last < nonce

def AfterError.next : AfterError → Except Outcome LoopVars
  | .retry vars => .ok vars
  | .stop => .error .gaveUp
  | .panic => .error .panicked

namespace Call

def buildTx (call : Call) (v : LoopVars) (answers : Answers) (nonce : Nat) :
    Except AttemptError TxEnvelope :=
  match call.sidecar with
  | some sidecar =>
      call.client.buildEip4844 answers call.input nonce sidecar v.bumpFees v.tipCap v.blobFeeCap
        v.gasFeeCap call.minPriorityFee
  | none =>
      call.client.buildEip1559 answers call.input nonce v.bumpFees v.tipCap v.gasFeeCap
        call.minPriorityFee

/-- `propose_one_batch`; it writes `last_used_nonce`. -/
def proposeOneBatch (call : Call) (v : LoopVars) (a : Attempt) :
    LoopVars × Except AttemptError Unit :=
  match a.nonce with
  | .error err => (v, .error err)
  | .ok nonce =>
      if v.nonceIsHigher nonce then (v, .ok ())
      else
        let used := { v with lastUsedNonce := some nonce }
        match call.buildTx v a.answers nonce, a.result with
        | .error err, _ => (used, .error err)
        | .ok _, .failed err => (used, .error err)
        | .ok _, .receipt true => (used, .ok ())
        -- retry with new nonce
        | .ok _, .receipt false =>
            ({ v with lastUsedNonce := none }, .error (.other "failed to propose block"))

/-- The transaction that an attempt builds, if it gets that far. -/
def built (call : Call) (v : LoopVars) (a : Attempt) : Option TxEnvelope :=
  match a.nonce with
  | .error _ => none
  | .ok nonce =>
      if v.nonceIsHigher nonce then none else (call.buildTx v a.answers nonce).toOption

theorem built_eq_some_iff {call : Call} {v : LoopVars} {a : Attempt} {tx : TxEnvelope} :
    call.built v a = some tx ↔
      ∃ nonce, (a.nonce = .ok nonce ∧ v.nonceIsHigher nonce = false) ∧
        call.buildTx v a.answers nonce = .ok tx := by
  unfold built
  split
  · next hnonce => simp [hnonce]
  · next nonce hnonce =>
      cases hhigher : v.nonceIsHigher nonce with
      | true => simp [hnonce, hhigher]
      | false => simp [hnonce, hhigher, Except.toOption_eq_some_iff]

/-- One round of the loop of `propose_batch`. -/
def attempt (call : Call) (v : LoopVars) (a : Attempt) : Except Outcome LoopVars :=
  match call.proposeOneBatch v a with
  | (_, .ok ()) => .error .ok
  | (v, .error err) => (v.onError err).next

variable {call : Call} {v : LoopVars} {a : Attempt} {tx : TxEnvelope}

/-- The fees of a built transaction; only one with blobs has a blob fee. -/
theorem built_fees (h : call.built v a = some tx) :
    ⟨tx.maxFeePerGas, tx.maxPriorityFeePerGas⟩ =
        gasFees a.answers.estimate v.bumpFees v.tipCap v.gasFeeCap call.minPriorityFee ∧
      ∃ blobGasFee, tx.maxFeePerBlobGas =
        call.sidecar.map fun _ => bumped v.bumpFees (cappedFee v.blobFeeCap blobGasFee) := by
  obtain ⟨nonce, -, hbuild⟩ := built_eq_some_iff.mp h
  unfold buildTx at hbuild
  cases hsidecar : call.sidecar with
  | some sidecar =>
      rw [hsidecar] at hbuild
      exact L1Client.buildEip4844_fees hbuild
  | none =>
      rw [hsidecar] at hbuild
      obtain ⟨hgas, hblob⟩ := L1Client.buildEip1559_fees hbuild
      exact ⟨hgas, 0, hblob⟩

end Call

/-! ### Attempts in the world -/

/-- The world after an attempt that ended in this way. -/
def World.After (w : World) : Except Outcome LoopVars → Prop
  | .ok vars => w.phase = .start ∧ w.vars = vars
  | .error outcome => w.phase = .done outcome

theorem World.attemptFailed_after (w : World) (err : AttemptError) :
    (w.attemptFailed err).After (w.vars.onError err).next := by
  unfold World.attemptFailed
  cases w.vars.onError err with
  | retry vars => exact ⟨rfl, rfl⟩
  | stop => rfl
  | panic => rfl

theorem World.nonceIsHigher_iff (w : World) :
    w.nonceIsHigher ↔ w.vars.nonceIsHigher w.accountNonce = true := by
  unfold World.nonceIsHigher LoopVars.nonceIsHigher
  cases w.vars.lastUsedNonce with
  | none => simp
  | some last => simp

/-- The transaction is built, sent to the mempool and included by L1 before
anything else happens. -/
def includedAtOnce (tx : Tx) (success : Bool) : List Event :=
  [.txBuilt tx.hash, .blockRead, .bundlesDone, .mempoolSent, .included tx success, .receiptRead]

theorem includedAtOnce_run (w : World) {tx : Tx} (hphase : w.phase = .building tx.nonce)
    (hnonce : tx.nonce = w.accountNonce) (hkind : tx.kind = .batch) (success : Bool) :
    (includedAtOnce tx success).foldlM World.step w =
      .ok (World.readReceipt
        { w with
          accountNonce := w.accountNonce + 1
          pool := tx :: w.pool
          included := ⟨tx, success⟩ :: w.included
          phase := .waiting tx true } ⟨tx, success⟩) := by
  obtain ⟨hash, nonce, kind⟩ := tx
  obtain rfl : kind = .batch := hkind
  obtain rfl : nonce = w.accountNonce := hnonce
  simp [includedAtOnce, World.step, hphase, bind, Except.bind, pure, Except.pure]

/-- An attempt is a run of the world, if it reads the account nonce of the
world. -/
theorem attempt_in_world (call : Call) {w : World} (hstart : w.phase = .start) (a : Attempt)
    (hnonce : ∀ nonce, a.nonce = .ok nonce → nonce = w.accountNonce) :
    ∃ (es : List Event) (w' : World), es.foldlM World.step w = .ok w' ∧
      w'.After (call.attempt w.vars a) := by
  have hread : w.step .nonceRead = .ok w.readNonce := by
    simp only [World.step, hstart]
  unfold Call.attempt Call.proposeOneBatch
  cases hn : a.nonce with
  | error err =>
      refine ⟨[.failed err false], w.attemptFailed err, ?_, w.attemptFailed_after err⟩
      simp [World.step, hstart]
  | ok nonce =>
      obtain rfl := hnonce nonce hn
      cases hhigher : w.vars.nonceIsHigher w.accountNonce with
      | true =>
          refine ⟨[.nonceRead], w.readNonce, by simp [hread], ?_⟩
          simp [World.readNonce, w.nonceIsHigher_iff, hhigher, World.After]
      | false =>
          have hrun : ∀ es : List Event, (Event.nonceRead :: es).foldlM World.step w =
              es.foldlM World.step { w with
                vars := { w.vars with lastUsedNonce := some w.accountNonce }
                phase := .building w.accountNonce } := by
            intro es
            rw [List.foldlM_cons, hread]
            simp [World.readNonce, w.nonceIsHigher_iff, hhigher, bind, Except.bind]
          simp only [hhigher, Bool.false_eq_true, if_false]
          cases call.buildTx w.vars a.answers w.accountNonce with
          | error err =>
              exact ⟨[.nonceRead, .failed err false], _, (hrun _).trans rfl,
                World.attemptFailed_after _ err⟩
          | ok tx =>
              cases a.result with
              | failed err =>
                  exact ⟨[.nonceRead, .txBuilt 0, .failed err false], _, (hrun _).trans rfl,
                    World.attemptFailed_after _ err⟩
              | receipt success =>
                  refine ⟨.nonceRead :: includedAtOnce ⟨0, w.accountNonce, .batch⟩ success, _,
                    (hrun _).trans (includedAtOnce_run _ rfl rfl rfl success), ?_⟩
                  cases success with
                  | true => rfl
                  | false => exact World.attemptFailed_after _ _

/-! ### The tip and the max fee -/

section Tip

/-- What the provider promises of its estimate. -/
def Answers.Ordered (answers : Answers) : Prop :=
  ∀ estimate, answers.fees = some estimate →
    estimate.maxPriorityFeePerGas ≤ estimate.maxFeePerGas

/-- The default fees are in order, too. -/
theorem Answers.Ordered.estimate {answers : Answers} (h : answers.Ordered) :
    answers.estimate.maxPriorityFeePerGas ≤ answers.estimate.maxFeePerGas := by
  unfold Answers.estimate
  cases hfees : answers.fees with
  | none => decide
  | some estimate => exact h estimate hfees

/-- A fee with its buffer, as long as it is in range. -/
def withBuffer (fee : Nat) : Nat := fee * bufferPercentage / 100

theorem buffered_of_lt {fee : Nat} (h : fee * bufferPercentage < 2 ^ 128) :
    buffered fee = withBuffer fee := by
  rw [buffered, u128_of_lt h, withBuffer]

theorem buffered_lt (fee : Nat) : buffered fee < 2 ^ 126 := by
  have hlt : u128 (fee * bufferPercentage) < 2 ^ 128 := Nat.mod_lt _ (by decide)
  exact Nat.div_lt_of_lt_mul (hlt.trans (by decide))

/-- A capped fee does not depend on the estimate. -/
theorem cappedFee_some (cap estimate : Nat) : cappedFee (some cap) estimate = buffered cap + 1 :=
  u128_of_lt (by have := buffered_lt cap; omega)

theorem cappedFee_lt (cap : Option Nat) (estimate : Nat) : cappedFee cap estimate < 2 ^ 127 := by
  cases cap with
  | none => exact (buffered_lt estimate).trans (by decide)
  | some cap =>
      rw [cappedFee_some]
      have := buffered_lt cap
      omega

/-- By how much the bump multiplies a fee. -/
def bumpFactor (bumpFees : Bool) : Nat := if bumpFees then 2 else 1

theorem bumped_of_lt {fee : Nat} (h : fee < 2 ^ 127) (bumpFees : Bool) :
    bumped bumpFees fee = bumpFactor bumpFees * fee := by
  cases bumpFees with
  | false => simp [bumped, bumpFactor]
  | true =>
      have hdouble : fee * 2 < 2 ^ 128 := by omega
      rw [bumped, if_pos rfl, u128_of_lt hdouble, bumpFactor, if_pos rfl, Nat.mul_comm]

/-- No product of the fees leaves `u128`. -/
structure InRange (v : LoopVars) (estimate : GasFees) : Prop where
  estimate : estimate.maxFeePerGas * bufferPercentage < 2 ^ 128
  tipCap : ∀ cap, v.tipCap = some cap → cap * bufferPercentage < 2 ^ 128
  gasFeeCap : ∀ cap, v.gasFeeCap = some cap → cap + 1 < 2 ^ 127

/-- The tip, before it is bumped and raised to the minimum. -/
def LoopVars.tip (v : LoopVars) (estimate : GasFees) : Nat :=
  match v.tipCap with
  | some cap => withBuffer cap + 1
  | none => withBuffer estimate.maxPriorityFeePerGas

/-- The max fee, before it is bumped and raised to the minimum. -/
def LoopVars.maxFee (v : LoopVars) (estimate : GasFees) : Nat :=
  match v.gasFeeCap with
  | some cap => cap + 1
  | none => withBuffer estimate.maxFeePerGas

/-- The caps that are set fit each other and the estimate. -/
def LoopVars.CapsFit (v : LoopVars) (estimate : GasFees) : Prop :=
  match v.tipCap, v.gasFeeCap with
  | none, none => True
  | some tipCap, none => withBuffer tipCap < withBuffer estimate.maxFeePerGas
  | none, some gasFeeCap => withBuffer estimate.maxPriorityFeePerGas ≤ gasFeeCap + 1
  | some tipCap, some gasFeeCap => withBuffer tipCap ≤ gasFeeCap

/-- The caps fit, or the minimum fee is above the tip. -/
def LoopVars.TipFits (v : LoopVars) (estimate : GasFees) (minPriorityFee : Nat) : Prop :=
  v.CapsFit estimate ∨ bumpFactor v.bumpFees * v.tip estimate ≤ minPriorityFee

variable {v : LoopVars} {estimate : GasFees}

theorem InRange.tip_eq (hrange : InRange v estimate)
    (hordered : estimate.maxPriorityFeePerGas ≤ estimate.maxFeePerGas) :
    cappedFee v.tipCap estimate.maxPriorityFeePerGas = v.tip estimate := by
  unfold LoopVars.tip
  cases hcap : v.tipCap with
  | none => exact buffered_of_lt (lt_of_le_of_lt (Nat.mul_le_mul_right _ hordered) hrange.estimate)
  | some cap => rw [cappedFee_some, buffered_of_lt (hrange.tipCap cap hcap)]

theorem InRange.maxFee_eq (hrange : InRange v estimate) :
    cappedMaxFee v.gasFeeCap estimate.maxFeePerGas = v.maxFee estimate ∧
      v.maxFee estimate < 2 ^ 127 := by
  unfold LoopVars.maxFee
  cases hcap : v.gasFeeCap with
  | none =>
      have heq := buffered_of_lt hrange.estimate
      exact ⟨heq, heq ▸ (buffered_lt _).trans (by decide)⟩
  | some cap =>
      have hlt := hrange.gasFeeCap cap hcap
      exact ⟨u128_of_lt (hlt.trans (by decide)), hlt⟩

/-- Before the bump and the minimum, the tip is at most the max fee iff the
caps fit. -/
theorem LoopVars.tip_le_maxFee_iff
    (hordered : estimate.maxPriorityFeePerGas ≤ estimate.maxFeePerGas) :
    v.tip estimate ≤ v.maxFee estimate ↔ v.CapsFit estimate := by
  unfold LoopVars.tip LoopVars.maxFee LoopVars.CapsFit
  cases v.tipCap with
  | none =>
      cases v.gasFeeCap with
      | none => simp [withBuffer, Nat.div_le_div_right, Nat.mul_le_mul_right, hordered]
      | some gasFeeCap => exact Iff.rfl
  | some tipCap =>
      cases v.gasFeeCap with
      | none => exact Nat.succ_le_iff
      | some gasFeeCap => exact Nat.succ_le_succ_iff

/-- The minimum fee raises both fees, so it keeps their order, and makes it
if it is above the tip. -/
theorem InRange.gasFees_tip_le_iff (hrange : InRange v estimate)
    (hordered : estimate.maxPriorityFeePerGas ≤ estimate.maxFeePerGas) (minPriorityFee : Nat) :
    (gasFees estimate v.bumpFees v.tipCap v.gasFeeCap minPriorityFee).maxPriorityFeePerGas ≤
        (gasFees estimate v.bumpFees v.tipCap v.gasFeeCap minPriorityFee).maxFeePerGas ↔
      v.TipFits estimate minPriorityFee := by
  obtain ⟨hmaxFee, hlt⟩ := hrange.maxFee_eq
  have htip := hrange.tip_eq hordered
  have hfactor : 0 < bumpFactor v.bumpFees := by
    unfold bumpFactor
    split <;> decide
  rw [LoopVars.TipFits, ← LoopVars.tip_le_maxFee_iff hordered]
  simp only [gasFees, hmaxFee, bumped_of_lt hlt, htip, bumped_of_lt (htip ▸ cappedFee_lt _ _)]
  rw [max_le_iff, and_iff_left (le_max_right _ _), le_max_iff, Nat.mul_le_mul_left_iff hfactor]

end Tip

/-! ### Main result -/

namespace Call

/-- The transaction of an attempt, if it gets one, promises a tip of at most
its max fee. -/
def FeesValid (call : Call) (v : LoopVars) (a : Attempt) : Prop :=
  ∀ tx, call.built v a = some tx → tx.maxPriorityFeePerGas ≤ tx.maxFeePerGas

/-- The tip fits, if the attempt builds a transaction. -/
def TipFits (call : Call) (v : LoopVars) (a : Attempt) : Prop :=
  (call.built v a).isSome → v.TipFits a.answers.estimate call.minPriorityFee

theorem feesValid_iff {call : Call} {v : LoopVars} {a : Attempt}
    (hrange : InRange v a.answers.estimate) (hordered : a.answers.Ordered) :
    call.FeesValid v a ↔ call.TipFits v a := by
  have hfees := hrange.gasFees_tip_le_iff hordered.estimate call.minPriorityFee
  unfold FeesValid TipFits
  cases hbuilt : call.built v a with
  | none => simp
  | some tx =>
      obtain ⟨heq, -⟩ := built_fees hbuilt
      simp only [Option.some.injEq, forall_eq', Option.isSome_some, true_imp_iff]
      rw [← hfees, ← heq]

/-- **When every transaction has a tip of at most its max fee.**  For every
history of attempts and every sequence of ordered estimates: if no product
leaves `u128` and the tip fits at every attempt, every transaction built has
valid fees, and as long as no product leaves `u128` the tip has to fit. -/
theorem fees_valid_iff (call : Call) (as : List Attempt)
    (hordered : ∀ a ∈ as, a.answers.Ordered) :
    (Run.Along call.attempt (fun v a _ => InRange v a.answers.estimate ∧ call.TipFits v a) {} as →
      Run.Along call.attempt (fun v a _ => call.FeesValid v a) {} as) ∧
    (Run.Along call.attempt (fun v a _ => InRange v a.answers.estimate) {} as →
      Run.Along call.attempt (fun v a _ => call.FeesValid v a) {} as →
        Run.Along call.attempt (fun v a _ => call.TipFits v a) {} as) := by
  have hordered' : Run.Along call.attempt (fun _ a _ => a.answers.Ordered) {} as :=
    Run.Along.of_forall_mem hordered _
  constructor
  · intro hfit
    apply Run.Along.mono _ as (hfit.and hordered')
    rintro v a ⟨⟨hrange, hcaps⟩, ha⟩
    exact (feesValid_iff hrange ha).mpr hcaps
  · intro hrange hvalid
    apply Run.Along.mono _ as ((hrange.and hvalid).and hordered')
    rintro v a ⟨⟨hrange, hvalid⟩, ha⟩
    exact (feesValid_iff hrange ha).mp hvalid

def sampleCall : Call :=
  { client := { chainId := 1, routerAddress := 7, osakaForkInfo := none }
    minPriorityFee := 1000000000
    input := []
    sidecar := some [9] }

/-- The estimate is 20 gwei with a tip of 1 gwei. -/
def sampleAnswers : Answers :=
  { gas := .ok 400000
    fees := some ⟨20000000000, 1000000000⟩
    currentTime := 1800000000
    latestBlock := .ok none }

theorem sampleAnswers_ordered : sampleAnswers.Ordered := by
  intro estimate h
  cases h
  decide

/-- A queued transaction of 15 gwei: both fees are valid with its cap. -/
theorem fees_valid_iff_sample :
    Run.Along sampleCall.attempt (fun v a _ => sampleCall.FeesValid v a) {}
      [⟨.ok 5, sampleAnswers, .failed (.underpricedGasFeeCap 28000000000 15000000000)⟩,
        ⟨.ok 5, sampleAnswers, .receipt true⟩] := by
  refine (fees_valid_iff sampleCall _ ?_).1 ?_
  · simp [sampleAnswers_ordered]
  · refine ⟨⟨⟨by decide, by simp, by simp⟩, fun _ => Or.inl trivial⟩, fun v hv => ?_⟩
    cases hv
    have hfits : withBuffer 1000000000 ≤ u128 (2 * 15000000000) + 1 := by decide
    refine ⟨⟨⟨by decide, by simp, ?_⟩, fun _ => Or.inl hfits⟩, fun v hv => ?_⟩
    · intro cap hcap
      cases hcap
      decide
    · cases hv

/-- A queued transaction with a tip of 14 gwei: the next attempt offers a tip
of 39.2 gwei under a max fee of 28 gwei. -/
theorem tip_above_maxFee :
    ∃ (call : Call) (as : List Attempt), (∀ a ∈ as, a.answers.Ordered) ∧
      ¬ Run.Along call.attempt (fun v a _ => call.FeesValid v a) {} as := by
  refine ⟨sampleCall,
    [⟨.ok 5, sampleAnswers, .failed (.underpricedTipCap 1400000000 14000000000)⟩,
      ⟨.ok 5, sampleAnswers, .receipt true⟩], by simp [sampleAnswers_ordered], fun h => ?_⟩
  have hsecond := (h.2 _ rfl).1 _ rfl
  exact absurd hsecond (by decide)

end Call

end TaikoGateway.ProposeBatch
