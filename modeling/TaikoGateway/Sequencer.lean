/-
TaikoGateway/Sequencer.lean

The sequencer loop: `tick` reads the channels and the clocks, then
`stateTransition` goes on with the block.  One `iteration` is one turn of the
loop; before the sequencer is ready it only reads blocks.

Everything an iteration reads from outside (channels, clocks, RPC answers,
values shared with other threads) is in its `Input`; an abort of the process
is an `Except.error`.  `events` records what was done, for the statements
about runs; nothing reads it.

The fields of the source that are only logged or exported as metrics are left
out, as are the URLs and the JWT secret.
-/
import TaikoGateway.Context
import TaikoGateway.Lib.Run
import TaikoGateway.Lookahead

namespace TaikoGateway

/-! ### State -/

structure SequencerFlags where
  /-- can we sequence new blocks -/
  canSequence : Bool := false
  /-- can we propose new batches -/
  canPropose : Bool := false
  /-- is block proposing delayed -/
  proposingDelayed : Bool := false
  /-- is the L1 block fetch delayed -/
  l1Delayed : Bool := false
  /-- is it our turn to sequence based on the lookahead -/
  lookaheadSequence : Bool := false
  deriving DecidableEq, Repr

structure Timings where
  lastAnchorError : Instant
  lastStatusCheck : Instant
  lastTxPoolCheck : Instant
  startProduceBlock : Instant
  deriving DecidableEq, Repr

namespace Timings

def new (now : Instant) : Timings := ⟨now, now, now, now⟩

def shouldLogTxPool (t : Timings) (now : Instant) : Bool := decide (30000 < now - t.lastTxPoolCheck)

def canRetryAnchor (t : Timings) (now : Instant) : Bool := decide (500 < now - t.lastAnchorError)

def shouldCheckStatus (t : Timings) (now : Instant) : Bool :=
  decide (2000 < now - t.lastStatusCheck)

def canProduceBlock (t : Timings) (now : Instant) : Bool := decide (t.startProduceBlock < now)

end Timings

/-- More errors than this in a row abort the process. -/
def maxAnchorErrors : Nat := 20

inductive SequencerError
  /-- the server answered with an error -/
  | rpcCall (message : String)
  /-- any other RPC error -/
  | rpc (err : String)
  | softBlock (status : Nat) (err : String)
  | status (status : Nat) (err : String)
  | reqwest (err : String)
  | serdeJson (err : String)
  deriving DecidableEq, Repr

def SequencerError.isNilBlock : SequencerError → Bool
  | .rpcCall message => decide ("block is nil".toList <:+: message.toList)
  | _ => false

/-- A sealed block with what it was sealed from. -/
structure Sealed where
  block : Block
  blockInfo : BlockInfo
  orders : List Order
  uncompressedSize : Nat
  deriving DecidableEq

inductive Event
  /-- `can_sequence` went from false to true -/
  | startedSequencing
  /-- `get_status_block` answered, and the local block it was compared to -/
  | statusBlock (statusBlock lastLocalBlock : Nat)
  /-- a block was sealed and added to the pending batch -/
  | sealed (sealed : Sealed)
  | proposed (request : ProposalRequest)
  deriving DecidableEq

structure Sequencer where
  ctx : SequencerContext
  txPool : TxPool
  lookahead : LookaheadHandle
  flags : SequencerFlags
  proposerRequest : Option ProposeBatchParams
  anchorErrorCount : Nat
  /-- whether we need to call status and check highest unsafe block id -/
  needsStatusCheck : Bool
  timings : Timings
  previousSkipReason : Option String
  /-- past the wait for the first blocks -/
  looping : Bool
  events : List Event

/-- `encodeAnchor` is the signing and encoding of the anchor tx: its nonce, max
fee and call. -/
structure Env where
  config : SequencerConfig
  chainConfig : TaikoChainParams
  encodeAnchor : Nat → Nat → AnchorV3Call → Bytes

namespace Sequencer

def new (env : Env) (lookahead : LookaheadHandle) (now : Instant) : Sequencer :=
  { ctx := .new env.config.l1SafeLag env.config.coinbaseAddress now
    txPool := .new
    lookahead := lookahead
    flags := {}
    proposerRequest := none
    anchorErrorCount := 0
    needsStatusCheck := true
    timings := .new now
    previousSkipReason := none
    looping := false
    events := [] }

def log (s : Sequencer) (e : Event) : Sequencer := { s with events := s.events ++ [e] }

end Sequencer

/-! ### Inputs -/

structure RecvInput where
  l1Blocks : List Header
  l2Blocks : List Block
  originBlocks : List Header
  now : Instant

structure TickInput where
  recv : RecvInput
  /-- from RPC, then from the mempool -/
  txs : List Order
  /-- `sim_rx.try_recv()` -/
  sim : Option (Except String SimulatedOrder)
  isProposeDelayed : Bool
  l1DelayNow : Instant
  isCurrentOperatorEnv : LookaheadEnv
  canSequenceEnv : LookaheadEnv
  canProposeEnv : LookaheadEnv
  l2Origin : Nat
  anchorAgeUtc : Nat
  anchorCreatedUtc : Nat
  txPoolNow : Instant
  drawn : Address
  simulatorNonce : Option Nat
  shouldClearEnv : LookaheadEnv
  timeShiftUtc : Nat

/-- Answer of the simulator to `seal_block`. -/
structure SealBlockResponse where
  builtBlock : Block

structure TransitionInput where
  pendingProposals : Nat
  retryNow : Instant
  produceNow : Instant
  statusNow : Instant
  statusCheckedAt : Instant
  statusBlock : Except SequencerError Nat
  anchorUtc : Nat
  /-- answer of `getBasefeeV2` -/
  baseFee : Except String Nat
  /-- answer of the simulator to an anchor tx on a block environment -/
  simulateAnchor : Order → BlockEnv → Except String ExecutionResult
  hashOrder : HashOrder
  sortNow : Instant
  produceFrom : Instant
  anchorErrorAt : Instant
  sealNow : Instant
  sealBlock : StateId → Except SequencerError SealBlockResponse
  gossip : Block → Except SequencerError Unit
  sealedAt : Instant
  simNow : Instant

structure Input where
  tick : TickInput
  transition : TransitionInput

namespace Sequencer

variable (env : Env)

/-! ### Batches -/

/-- Sends the pending batch to the proposer.  While a block is being sorted,
with `stateCheck`, the block is sealed first. -/
def sendBatchToProposer (s : Sequencer) (stateCheck : Bool) : Sequencer :=
  match stateCheck, s.ctx.state with
  | true, .sorting sd => { s with ctx := { s.ctx with state := .sorting sd.setShouldSeal } }
  | _, _ =>
      match s.proposerRequest with
      | some request => { s with proposerRequest := none }.log (.proposed (.batch request))
      | none => s

def needsAnchorRefresh (s : Sequencer) (anchorParams : AnchorParams) : Bool :=
  match s.ctx.anchor with
  | some a => decide (a.blockId ≠ anchorParams.blockId)
  | none => true

/-! ### Tick -/

def recvL2Block (s : Sequencer) (newBlock : Block) : Except Panic Sequencer := do
  let (reorged, ctx) ← s.ctx.newPreconfL2Block newBlock
  let s := { s with ctx := ctx }
  match reorged, s.proposerRequest with
  | true, some req =>
      -- a reorg that affected this batch
      if newBlock.header.number ≤ req.endBlockNum then .error .reorgedBatch else .ok s
  | _, _ => .ok s

def recvBlocks (s : Sequencer) (i : RecvInput) : Except Panic Sequencer := do
  let ctx := i.l1Blocks.foldl (fun (ctx : SequencerContext) h => ctx.newL1Block h i.now) s.ctx
  let s ← i.l2Blocks.foldlM recvL2Block { s with ctx := ctx }
  let ctx ← i.originBlocks.foldlM SequencerContext.newOriginL2Block s.ctx
  .ok { s with ctx := ctx }

def handleTx (parentBlock : Nat) (s : Sequencer) (tx : Order) : Except Panic Sequencer := do
  let state ←
    match s.ctx.state with
    | .sorting sd => do
        let sd ← sd.handleNewTx tx
        .ok (SequencerState.sorting sd)
    | .sync lastL1 => .ok (.sync lastL1)
  let txPool ← s.txPool.put tx parentBlock
  .ok { s with ctx := { s.ctx with state := state }, txPool := txPool }

def fetchTxs (s : Sequencer) (txs : List Order) : Except Panic Sequencer := do
  let parent ← s.ctx.l2Parent
  txs.foldlM (handleTx parent.blockNumber) s

def handleSims (s : Sequencer) (sim : Option (Except String SimulatedOrder)) :
    Except Panic Sequencer :=
  match sim with
  | none => .ok s
  | some (.error _) => .error .failedSim
  | some (.ok simRes) =>
      match s.ctx.state with
      | .sync _ => .ok s -- ignore stale sims
      | .sorting sd => do
          let sd ← sd.handleSim simRes
          .ok { s with ctx := { s.ctx with state := .sorting sd } }

def checkCanSequence (s : Sequencer) (i : TickInput) : Sequencer :=
  let isL1Delayed := decide (env.config.l1Delay < i.l1DelayNow - s.ctx.lastL1Receive)
  let (isCurrentOperator, lookahead) :=
    s.lookahead.isCurrentOperator i.isCurrentOperatorEnv env.config.operatorAddress
  let ((canSequence, reason), lookahead) :=
    lookahead.canSequence i.canSequenceEnv env.config.operatorAddress
  let previousSkipReason :=
    if canSequence ≠ s.flags.lookaheadSequence then s.previousSkipReason
    else if isCurrentOperator && !canSequence && s.previousSkipReason.isNone then some reason
    else if !isCurrentOperator then none
    else s.previousSkipReason
  let flags :=
    { s.flags with
      proposingDelayed := i.isProposeDelayed
      l1Delayed := isL1Delayed
      lookaheadSequence := canSequence
      canSequence := !i.isProposeDelayed && !isL1Delayed && canSequence }
  let s' :=
    { s with lookahead := lookahead, previousSkipReason := previousSkipReason, flags := flags }
  -- only when we start sequencing
  if flags.canSequence && !s.flags.canSequence then
    { s' with needsStatusCheck := true }.log .startedSequencing
  else s'

/-- If some blocks haven't landed yet, resync to the latest anchor. -/
def checkResync (s : Sequencer) (origin : Nat) : Except Panic Sequencer := do
  let parent ← s.ctx.l2Parent
  let target :=
    match s.proposerRequest with
    | some p => u64Sub p.startBlockNum 1
    | none => parent.blockNumber
  .ok (if origin < target then s.log (.proposed (.resync origin target)) else s)

def checkCanPropose (s : Sequencer) (i : TickInput) : Except Panic Sequencer := do
  let ((canPropose, _), lookahead) :=
    s.lookahead.canPropose i.canProposeEnv env.config.operatorAddress
  let s := { s with lookahead := lookahead }
  if canPropose ≠ s.flags.canPropose then do
    let s ← if canPropose then s.checkResync i.l2Origin else .ok s
    .ok { s with flags := { s.flags with canPropose := canPropose } }
  else .ok s

def updateAnchor (s : Sequencer) (safeL1Header : Header) (createdUtc : Nat) : Sequencer :=
  let new : AnchorParams :=
    { blockId := safeL1Header.number
      stateRoot := safeL1Header.stateRoot
      createdAt := createdUtc }
  { s with ctx := { s.ctx with anchor := some new } }.sendBatchToProposer true

def maybeRefreshAnchor (s : Sequencer) (i : TickInput) : Sequencer :=
  match s.ctx.safeL1Header, s.ctx.anchor with
  | none, _ => s
  | some safeL1Header, none => s.updateAnchor safeL1Header i.anchorCreatedUtc
  | some safeL1Header, some ctxAnchor =>
      if safeL1Header.number ≤ ctxAnchor.blockId then s -- no point in checking
      else if env.config.anchorBatchLag * 12 < u64Sub i.anchorAgeUtc ctxAnchor.createdAt then
        -- anchor too old
        s.updateAnchor safeL1Header i.anchorCreatedUtc
      else
        let currentBatchSize := (s.proposerRequest.map (·.compressedEst)).getD 0
        if env.config.batchTargetSize < currentBatchSize then
          -- batch too big
          s.updateAnchor safeL1Header i.anchorCreatedUtc
        else s

def reportTxPool (s : Sequencer) (i : TickInput) : Except Panic Sequencer :=
  if s.timings.shouldLogTxPool i.txPoolNow then do
    let parent ← s.ctx.l2Parent
    .ok { s with
      txPool := s.txPool.reportAndSanityCheck parent.blockNumber i.drawn i.simulatorNonce
      timings := { s.timings with lastTxPoolCheck := i.txPoolNow } }
  else .ok s

/-- Refreshes the anchor, if we can sequence. -/
def refresh (s : Sequencer) (i : TickInput) : Except Panic Sequencer :=
  if s.flags.canSequence then (s.maybeRefreshAnchor env i).reportTxPool i else .ok s

def checkTimeShift (s : Sequencer) (utc : Nat) : Bool :=
  match s.proposerRequest with
  | some p => decide (230 < utc - p.lastTimestamp)
  | none => false

/-- Clears the proposal if it's late, or its time shift gets too long. -/
def clearProposal (s : Sequencer) (i : TickInput) : Sequencer :=
  let ((shouldClear, _), lookahead) :=
    s.lookahead.shouldClearProposal i.shouldClearEnv env.config.operatorAddress
  let s := { s with lookahead := lookahead }
  let s := if shouldClear then s.sendBatchToProposer true else s
  if s.checkTimeShift i.timeShiftUtc then s.sendBatchToProposer true else s

def tick (s : Sequencer) (i : TickInput) : Except Panic Sequencer := do
  let s ← s.recvBlocks i.recv
  let s ← s.fetchTxs i.txs
  let s ← s.handleSims i.sim
  let s := s.checkCanSequence env i
  let s ← s.checkCanPropose env i
  let s ← s.refresh env i
  .ok (s.clearProposal env i)

/-! ### Anchoring -/

/-- The guards of `Sync` before a block is anchored. -/
inductive Gate
  /-- stay in `Sync` -/
  | wait (s : Sequencer)
  /-- anchor a block of at most this size -/
  | build (s : Sequencer) (throttledBlockSize : Nat)

/-- Checks the highest unsafe block when that is due; `false` when the block
has to wait. -/
def statusGate (s : Sequencer) (i : TransitionInput) : Except Panic (Sequencer × Bool) :=
  if s.needsStatusCheck && s.timings.shouldCheckStatus i.statusNow then
    let s := { s with timings := { s.timings with lastStatusCheck := i.statusCheckedAt } }
    match i.statusBlock with
    | .ok statusBlock => do
        let parent ← s.ctx.l2Parent
        let s := s.log (.statusBlock statusBlock parent.blockNumber)
        if parent.blockNumber < statusBlock then .ok (s, false)
        else .ok ({ s with needsStatusCheck := false }, true)
    | .error _ => .ok (s, false)
  else .ok (s, true)

/-- The arm of `Sync` up to the call of `anchor_block`.  The state in `s` is
already reset to its default. -/
def syncGate (s : Sequencer) (lastL1 : Nat) (i : TransitionInput) : Except Panic Gate :=
  let stay (s : Sequencer) (lastL1 : Nat) : Gate :=
    .wait { s with ctx := { s.ctx with state := .sync lastL1 } }
  match s.ctx.safeL1Header with
  | none => .ok (stay s lastL1)
  | some safeL1Header =>
      let safeL1 := safeL1Header.number
      -- need to wait for L1 blocks
      if safeL1 < s.ctx.parentAnchorBlockId then .ok (stay s safeL1)
      else if !s.flags.canSequence then .ok (.wait s)
      else
        let maxBlockSize :=
          env.config.batchTargetSize - (s.proposerRequest.map (·.compressedEst)).getD 0
        let throttledBlockSize := env.config.throttle maxBlockSize
          (i.pendingProposals - env.config.throttleQueueTarget)
        if maxBlockSize = 0 then .ok (.wait s)
        else if !s.timings.canRetryAnchor i.retryNow then .ok (.wait s)
        else if !s.timings.canProduceBlock i.produceNow then .ok (.wait s)
        else do
          let (s, go) ← s.statusGate i
          .ok (if go then .build s throttledBlockSize else .wait s)

/-- Block environment of the anchor simulation. -/
def getBlockEnvFromAnchor (blockNumber maxGasLimit : Nat) (coinbase : Address)
    (timestamp baseFee : Nat) : BlockEnv :=
  { number := blockNumber
    coinbase := coinbase
    timestamp := timestamp
    gasLimit := maxGasLimit + anchorGasLimit
    basefee := baseFee }

/-- The timestamp of the next block. -/
def blockTimestamp (utc : Nat) : Nat := utc + env.config.targetBlockTime / 1000

def computeNextBaseFee (timestamp : Nat) (parent : ParentParams) (answer : Except String Nat) :
    Except Panic (Except String Nat) :=
  if parent.timestamp ≤ timestamp then .ok answer else .error .timestampBeforeParent

def assembleAnchorV3 (parent : ParentParams) (anchor : AnchorParams) (l2BaseFee : Nat) : Order :=
  let call : AnchorV3Call :=
    { anchorBlockId := anchor.blockId
      anchorStateRoot := anchor.stateRoot
      parentGasUsed := parent.gasUsed
      baseFeeConfig := env.chainConfig.baseFeeConfig
      signalSlots := [] }
  .newWithSender
    { nonce := parent.anchorNonce + 1
      maxFeePerGas := l2BaseFee
      priorityFeeOrPrice := 0
      input := .anchorV3 call
      encoded2718 := env.encodeAnchor (parent.anchorNonce + 1) l2BaseFee call }
    goldenTouchAddress

/-- Simulates the anchor of the next block; the inner `error` is a failed
anchoring. -/
def anchorBlock (s : Sequencer) (i : TransitionInput) :
    Except Panic (Except String (StateId × BlockInfo)) :=
  match s.ctx.anchor with
  | none => .ok (.error "no anchor")
  | some anchor => do
      let parent ← s.ctx.l2Parent
      let timestamp := blockTimestamp env i.anchorUtc
      let baseFee ← computeNextBaseFee timestamp parent i.baseFee
      match baseFee with
      | .error err => .ok (.error err)
      | .ok l2BaseFee =>
          let blockEnv := getBlockEnvFromAnchor (parent.blockNumber + 1)
            env.chainConfig.blockMaxGasLimit env.config.coinbaseAddress timestamp l2BaseFee
          let blockInfo : BlockInfo :=
            { anchorParams := anchor
              blockNumber := parent.blockNumber + 1
              baseFee := l2BaseFee
              parentHash := parent.hash }
          match i.simulateAnchor (assembleAnchorV3 env parent anchor l2BaseFee) blockEnv with
          | .ok (.success stateId _ _) => .ok (.ok (stateId, blockInfo))
          | .ok _ => .ok (.error "failed simulate anchor")
          | .error err => .ok (.error err)

/-- The rest of the arm of `Sync`. -/
def startBlock (s : Sequencer) (throttledBlockSize : Nat) (i : TransitionInput) :
    Except Panic Sequencer := do
  let anchored ← s.anchorBlock env i
  match anchored with
  | .ok (stateId, blockInfo) => do
      let (active, txPool) ←
        s.txPool.activeOrders i.hashOrder blockInfo.blockNumber blockInfo.baseFee
      let sortData := SortData.new blockInfo stateId (active.getD .empty)
        env.chainConfig.blockMaxGasLimit env.config.targetBlockTime throttledBlockSize env.config
        i.sortNow
      .ok { s with
        anchorErrorCount := 0
        txPool := txPool
        -- don't produce blocks too frequently
        timings :=
          { s.timings with startProduceBlock := i.produceFrom + env.config.targetBlockTime }
        ctx := { s.ctx with state := .sorting sortData } }
  | .error _ =>
      if maxAnchorErrors < s.anchorErrorCount + 1 then .error .tooManyAnchorErrors
      else
        .ok { s with
          timings := { s.timings with lastAnchorError := i.anchorErrorAt }
          anchorErrorCount := s.anchorErrorCount + 1 }

/-! ### Sealing -/

/-- Adds a sealed block to the pending batch. -/
def accumulate (request : Option ProposeBatchParams) (b : Sealed) :
    Except Panic ProposeBatchParams := do
  let block := b.block
  let (request, timeShift) ←
    match request with
    | none =>
        .ok (({ anchorBlockId := b.blockInfo.anchorParams.blockId
                startBlockNum := block.header.number
                coinbase := env.config.coinbaseAddress } : ProposeBatchParams), 0)
    | some request =>
        if request.anchorBlockId ≠ b.blockInfo.anchorParams.blockId then .error .anchorIdMismatch
        else
          let shift := block.header.timestamp - request.lastTimestamp
          if shift < 2 ^ 8 then .ok (request, shift) else .error .timeShiftTooLarge
  let blockParams : BlockParams :=
    { numTransactions := u64Sub block.transactions.length 1 % 2 ^ 16 -- exclude anchor tx
      timeShift := timeShift
      signalSlots := [] }
  -- with anchor
  if block.transactions.length ≠ b.orders.length + 1 then .error .txCountMismatch
  else
    .ok { request with
      endBlockNum := block.header.number
      lastTimestamp := block.header.timestamp
      blockParams := request.blockParams ++ [blockParams]
      allTxList := request.allTxList ++ b.orders
      compressedEst :=
        request.compressedEst + env.config.estimateCompressedSize b.uncompressedSize }

/-- Seals, gossips and adds the block to the batch; the inner `error` is a
failed seal, which changes nothing. -/
def sealBlock (s : Sequencer) (sd : SortData) (i : TransitionInput) :
    Except Panic (Except SequencerError Sequencer) :=
  match i.sealBlock sd.stateId with
  | .error err => .ok (.error err)
  | .ok res =>
      let block := res.builtBlock
      -- fail if gossiping fails
      match i.gossip block with
      | .error err => .ok (.error err)
      | .ok () => do
          let (_, ctx) ← s.ctx.newPreconfL2Block block
          let b : Sealed := ⟨block, sd.blockInfo, sd.orders, sd.uncompressedSize⟩
          let request ← accumulate env s.proposerRequest b
          let s := ({ s with
            txPool := s.txPool.updateNewBlock sd.nonces
            ctx := ctx
            proposerRequest := some request }).log (.sealed b)
          .ok (.ok (if s.needsAnchorRefresh sd.blockInfo.anchorParams then
            s.sendBatchToProposer false else s))

def discardBlock (s : Sequencer) (sd : SortData) : Sequencer :=
  let s := { s with txPool := s.txPool.clearNonces }
  if s.needsAnchorRefresh sd.blockInfo.anchorParams then s.sendBatchToProposer false else s

/-- Seals the block; some failed seals are tolerated. -/
def finishBlock (s : Sequencer) (sd : SortData) (i : TransitionInput) :
    Except Panic Sequencer := do
  let result ← s.sealBlock env sd i
  match result with
  | .ok s => .ok { s with timings := { s.timings with lastTxPoolCheck := i.sealedAt } }
  | .error (.softBlock _ _) => .ok { s with txPool := s.txPool.clearNonces }
  | .error err =>
      if err.isNilBlock then .ok { s with txPool := s.txPool.clearNonces }
      else .error .failedSeal

/-! ### The loop -/

/-- `mem::take` leaves the default state in `ctx` during the transition. -/
def takeState (s : Sequencer) : Sequencer := { s with ctx := { s.ctx with state := .default } }

def stateTransition (s : Sequencer) (i : TransitionInput) : Except Panic Sequencer :=
  match s.ctx.state with
  | .sync lastL1 => do
      let gate ← s.takeState.syncGate env lastL1 i
      match gate with
      | .wait s => .ok s
      | .build s throttledBlockSize => s.startBlock env throttledBlockSize i
  | .sorting sd =>
      if sd.shouldDiscard then .ok (s.takeState.discardBlock sd)
      else if sd.shouldSeal i.sealNow then s.takeState.finishBlock env sd i
      else do
        -- the returned orders are being simulated from here on
        let (sd, _) ← sd.maybeSimNextBatch env.config i.simNow
        .ok { s with ctx := { s.ctx with state := .sorting sd } }

def isReady (s : Sequencer) : Bool :=
  decide (env.config.l1SafeLag ≤ s.ctx.l1Headers.size) && s.ctx.l2Headers.getLast?.isSome

/-- One turn of the main loop, or of the wait before it. -/
def iteration (s : Sequencer) (i : Input) : Except Panic Sequencer :=
  if s.looping || s.isReady env then do
    let s ← { s with looping := true }.tick env i.tick
    s.stateTransition env i.transition
  else s.recvBlocks i.tick.recv

end Sequencer

end TaikoGateway
