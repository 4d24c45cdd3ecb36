/-
TaikoGateway/Types.lean

The data shared by the sequencer and the proposer: transactions, orders,
headers, blocks, simulation results, and the parameters of a batch proposal.

Conventions used throughout.

* Machine integers are natural numbers.  Where the source narrows (`as u16`,
  `try_into::<u8>`) or subtracts something that may be larger, the width is
  explicit: `u64Sub` is the wrapping subtraction of a release build.
* `Instant`s and `Duration`s are milliseconds of a monotone clock, wall-clock
  times (`utcnow_sec`) are seconds.
* A `BTreeMap` keyed by an integer is an extensional ordered map.  A
  `HashMap` is the same map; where the source iterates over one, the order
  is an explicit parameter (`HashOrder`).
* Calldata is represented by what the ABI decoder makes of it: either an
  `anchorV3` call or other bytes.
* An abort of the process (`panic!`, `assert!`, `expect`, `unwrap`) is an
  `Except.error` carrying a `Panic`.
-/
import TaikoGateway.Lib.Run

namespace TaikoGateway

abbrev Address := Nat
abbrev B256 := Nat
abbrev StateId := Nat
abbrev Instant := Nat
abbrev Duration := Nat
abbrev Bytes := List UInt8

abbrev BTreeMap (α : Type) := Std.ExtTreeMap Nat α
abbrev HashMap (α : Type) := Std.ExtTreeMap Nat α

/-- `u64` (and `usize`) subtraction in a release build: wraps below zero. -/
def u64Sub (a b : Nat) : Nat := if b ≤ a then a - b else 2 ^ 64 + a - b

theorem u64Sub_of_le {a b : Nat} (h : b ≤ a) : u64Sub a b = a - b := if_pos h

/-- The assertions and unwraps that can abort the process. -/
inductive Panic
  /-- `assert_eq!(block_anchor.from(), GOLDEN_TOUCH_ADDRESS)` -/
  | anchorNotGoldenTouch
  /-- `header.gas_used.try_into().unwrap()` into a `u32` -/
  | gasUsedTooLarge
  /-- `verify_and_log_block` with `panic_on_error` -/
  | blockVerifyMismatch
  /-- `.expect("l2 headers should never be empty")` -/
  | l2HeadersEmpty
  /-- `assert!(self.is_valid(next_best.origin_state_id))` -/
  | nextBestStale
  /-- `assert!(self.gas_remaining >= next_best.gas_used)` -/
  | nextBestOverGas
  /-- `assert_eq!(self.sender, *tx.sender())` -/
  | txListWrongSender
  /-- `.expect("txlist shouldn't be called when empty")` -/
  | txListEmpty
  /-- `assert!(!tx_list.is_empty())` -/
  | activeListEmpty
  /-- "reorged block in batch, triggering resync" -/
  | reorgedBatch
  /-- "failed sim" -/
  | failedSim
  /-- "too many anchor errors, resetting" -/
  | tooManyAnchorErrors
  /-- `assert!(timestamp >= parent.timestamp)` -/
  | timestampBeforeParent
  /-- `assert_eq!(request.anchor_block_id, anchor_params.block_id)` -/
  | anchorIdMismatch
  /-- `.expect("exceeed u8 time shift")` -/
  | timeShiftTooLarge
  /-- "mismatch in tx from block and sorting" -/
  | txCountMismatch
  /-- "failed seal block" -/
  | failedSeal
  /-- `assert!(!full_blocks.is_empty(), "no blocks to propose")` -/
  | noBlocksToPropose
  deriving DecidableEq, Repr

/-! ### Transactions and orders -/

/-- The key that signs the anchor transaction of every block. -/
def goldenTouchAddress : Address := 0x0000777735367b36bC9B61C50022d9D0700dB4Ec

/-- Gas limit of the anchor transaction. -/
def anchorGasLimit : Nat := 1000000

structure BaseFeeConfig where
  adjustmentQuotient : Nat
  sharingPctg : Nat
  gasIssuancePerSecond : Nat
  minGasExcess : Nat
  maxGasIssuancePerBlock : Nat
  deriving DecidableEq, Repr, Inhabited

/-- Arguments of `anchorV3`. -/
structure AnchorV3Call where
  anchorBlockId : Nat
  anchorStateRoot : B256
  parentGasUsed : Nat
  baseFeeConfig : BaseFeeConfig
  signalSlots : List B256
  deriving DecidableEq, Repr, Inhabited

/-- Calldata, up to what `anchorV3Call::abi_decode` sees of it. -/
inductive Calldata
  | anchorV3 (call : AnchorV3Call)
  | other (bytes : Bytes)
  deriving DecidableEq

/-- `anchorV3Call::abi_decode`. -/
def Calldata.abiDecode : Calldata → Option AnchorV3Call
  | .anchorV3 call => some call
  | .other _ => none

/-- The parts of a signed transaction the gateway reads. -/
structure TxEnvelope where
  nonce : Nat
  maxFeePerGas : Nat
  priorityFeeOrPrice : Nat
  input : Calldata
  encoded2718 : Bytes
  deriving DecidableEq

/-- A transaction to sequence, with its recovered signer. -/
structure Order where
  sender : Address
  tx : TxEnvelope
  deriving DecidableEq

def Order.newWithSender (tx : TxEnvelope) (sender : Address) : Order := ⟨sender, tx⟩

def Order.nonce (o : Order) : Nat := o.tx.nonce

/-- Both constructors of the source set `raw` to the encoding of `tx`. -/
def Order.raw (o : Order) : Bytes := o.tx.encoded2718

def Order.validForBaseFee (o : Order) (baseFee : Nat) : Bool := decide (baseFee ≤ o.tx.maxFeePerGas)

/-- A transaction as the RPC returns it in a full block. -/
structure Transaction where
  fromAddr : Address
  inner : TxEnvelope
  deriving DecidableEq

/-! ### Headers and blocks -/

structure Header where
  number : Nat
  hash : B256
  parentHash : B256
  timestamp : Nat
  beneficiary : Address
  gasUsed : Nat
  stateRoot : B256
  deriving DecidableEq, Repr, Inhabited

inductive BlockTransactions
  | full (txs : List Transaction)
  | hashes (hs : List B256)
  | uncle
  deriving DecidableEq

namespace BlockTransactions

def asTransactions : BlockTransactions → Option (List Transaction)
  | full txs => some txs
  | _ => none

/-- Empty when the block came without full transactions. -/
def intoTransactions : BlockTransactions → List Transaction
  | full txs => txs
  | _ => []

def length : BlockTransactions → Nat
  | full txs => txs.length
  | hashes hs => hs.length
  | uncle => 0

end BlockTransactions

structure Block where
  header : Header
  transactions : BlockTransactions
  deriving DecidableEq

/-- The anchor block id a block carries: that of its first transaction, when
there is one and it decodes as `anchorV3`. -/
def Block.anchorBlockId (b : Block) : Option Nat := do
  let txs ← b.transactions.asTransactions
  let anchorTx ← txs.head?
  let call ← anchorTx.inner.input.abiDecode
  some call.anchorBlockId

/-- The orders of a block: its transactions after the anchor. -/
def Block.userOrders (b : Block) : List Order :=
  b.transactions.intoTransactions.tail.map fun tx => .newWithSender tx.inner tx.fromAddr

structure AnchorParams where
  blockId : Nat
  stateRoot : B256
  createdAt : Nat
  deriving DecidableEq, Repr, Inhabited

structure ParentParams where
  timestamp : Nat
  gasUsed : Nat
  blockNumber : Nat
  hash : B256
  anchorNonce : Nat
  beneficiary : Address
  /-- The block these are of.  Not in the source; it says in statements about
  runs which block the parent is. -/
  block : Block
  deriving DecidableEq

/-- Takes the header from the block.  Gas used is narrowed to a `u32`. -/
def ParentParams.fromHeaderAndAnchorNonce (block : Block) (anchorNonce : Nat) :
    Except Panic ParentParams :=
  if block.header.gasUsed < 2 ^ 32 then
    .ok { timestamp := block.header.timestamp
          gasUsed := block.header.gasUsed
          blockNumber := block.header.number
          hash := block.header.hash
          anchorNonce := anchorNonce
          beneficiary := block.header.beneficiary
          block := block }
  else .error .gasUsedTooLarge

/-- The block environment an anchor is simulated in. -/
structure BlockEnv where
  number : Nat
  coinbase : Address
  timestamp : Nat
  gasLimit : Nat
  basefee : Nat
  deriving DecidableEq, Repr, Inhabited

/-! ### Simulation -/

inductive InvalidReason
  | nonceTooLow (tx state : Nat)
  | nonceTooHigh (tx state : Nat)
  | notEnoughGas
  | capLessThanBaseFee
  | insufficientFunds (have_ want : Nat)
  | stateIdNotFound (state : Nat)
  | uknown (reason : String)
  deriving DecidableEq, Repr

inductive ExecutionResult
  | success (stateId : StateId) (gasUsed builderPayment : Nat)
  | revert (stateId : StateId) (gasUsed builderPayment : Nat)
  | invalid (reason : InvalidReason)
  deriving DecidableEq, Repr

/-- Result of simulating `order` on `originStateId`. -/
structure SimulatedOrder where
  originStateId : StateId
  executionResult : ExecutionResult
  order : Order
  deriving DecidableEq

/-- An order that can be applied to the block. -/
structure ValidOrder where
  originStateId : StateId
  newStateId : StateId
  gasUsed : Nat
  builderPayment : Nat
  order : Order
  deriving DecidableEq

structure BlockInfo where
  /-- data used in the anchor simulation -/
  anchorParams : AnchorParams
  /-- parent + 1 -/
  blockNumber : Nat
  baseFee : Nat
  parentHash : B256
  deriving DecidableEq, Repr, Inhabited

/-! ### Batches -/

structure BlockParams where
  numTransactions : Nat
  timeShift : Nat
  signalSlots : List B256
  deriving DecidableEq, Repr, Inhabited

/-- A batch to propose; `{}` is the source's `Default`. -/
structure ProposeBatchParams where
  anchorBlockId : Nat := 0
  startBlockNum : Nat := 0
  endBlockNum : Nat := 0
  lastTimestamp : Nat := 0
  blockParams : List BlockParams := []
  /-- all orders of the batch, without anchors -/
  allTxList : List Order := []
  /-- estimated size of the encoded and compressed tx list -/
  compressedEst : Nat := 0
  coinbase : Address := 0
  deriving DecidableEq

inductive ProposalRequest
  | batch (request : ProposeBatchParams)
  | resync (origin endBlock : Nat)
  deriving DecidableEq

/-! ### Configuration -/

/-- Chain parameters read from the inbox contract. -/
structure TaikoChainParams where
  baseFeeConfig : BaseFeeConfig
  /-- max distance between the anchor and the L1 block of the proposal -/
  maxAnchorHeightOffset : Nat
  blockMaxGasLimit : Nat
  maxBlocksPerBatch : Nat
  deriving DecidableEq, Repr, Inhabited

def TaikoChainParams.safeAnchorHeightOffset (p : TaikoChainParams) : Nat :=
  u64Sub p.maxAnchorHeightOffset 2

end TaikoGateway
