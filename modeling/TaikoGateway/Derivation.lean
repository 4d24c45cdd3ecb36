/-
TaikoGateway/Derivation.lean

What L1 makes of a batch that is proposed.

The proposer compresses the tx list into blobs and sends the parameters of the
batch in the calldata.  The L2 blocks are read off that tx alone: the tx list
is cut at the numbers of txs, the last block has the expected id and the
timestamp of the batch, and every block before it is one lower and earlier by
the time shift of the block after it (`derive`).

A request therefore stands for a list of blocks (`ProposeBatchParams.derived`),
and `derive_prepareBatch` says that the encoders keep it: whatever the request,
what `prepare_batch` makes of it derives to the blocks it stands for.
`blocksFrom_eq` is the converse reading, for the modules that build requests
from blocks: counts, shifts and numbers that are those of a list of blocks give
that list back.

RLP and zlib are those of other crates and are a parameter here.
-/
import TaikoGateway.Propose
import TaikoGateway.Timestamps

namespace TaikoGateway

open BlobEncoding Blocks

/-! ### Tx lists -/

/-- The RLP encoding of a tx list, and its compression, with what undoes
them. -/
structure TxListCodec where
  encode : List TxEnvelope → Bytes
  decode : Bytes → Option (List TxEnvelope)
  compress : Bytes → Bytes
  decompress : Bytes → Option Bytes
  decode_encode : ∀ txs, decode (encode txs) = some txs
  decompress_compress : ∀ bytes, decompress (compress bytes) = some bytes

namespace TxListCodec

def encodeAndCompressOrders (codec : TxListCodec) (orders : List Order) : Bytes :=
  codec.compress (codec.encode (orders.map (·.tx)))

/-- Decompresses, then decodes. -/
def txsOf (codec : TxListCodec) (bytes : Bytes) : Option (List TxEnvelope) :=
  (codec.decompress bytes).bind codec.decode

theorem txsOf_encodeAndCompressOrders (codec : TxListCodec) (orders : List Order) :
    codec.txsOf (codec.encodeAndCompressOrders orders) = some (orders.map (·.tx)) := by
  rw [txsOf, encodeAndCompressOrders, codec.decompress_compress, Option.bind_some,
    codec.decode_encode]

end TxListCodec

/-! ### The proposal of a request -/

/-- The proposer always picks blobs. -/
def shouldUseBlobs (_compressedSize : Nat) : Bool := true

/-- Zero stands for the last batch. -/
def lastMetaHash : B256 := 0

/-- The input of the proposal tx, and its sidecar. -/
def prepareBatch (abi : Abi) (kzg : Kzg) (codec : TxListCodec) (proposer : Address)
    (request : ProposeBatchParams) : Except ProposePanic (Bytes × Option BlobTransactionSidecar) :=
  let compressed := codec.encodeAndCompressOrders request.allTxList
  -- the tx list is taken out of the request
  let request := { request with allTxList := [] }
  if shouldUseBlobs compressed.length then do
    let (input, sidecar) ← proposeBatchBlobs abi kzg request lastMetaHash proposer compressed
    .ok (input, some sidecar)
  else .ok (proposeBatchCalldata abi request lastMetaHash proposer compressed, none)

/-! ### Blocks on L1 -/

/-- A block as far as L1 determines it. -/
structure DerivedBlock where
  number : Nat
  timestamp : Nat
  coinbase : Address
  anchorBlockId : Option Nat
  txs : List TxEnvelope
  deriving DecidableEq

/-- The blocks of a batch, from the first one's number.  A block takes as many
of the txs as are left, and is earlier than `last` by the time shifts after
it. -/
def blocksFrom (last : Nat) (coinbase : Address) (anchorBlockId : Nat) :
    Nat → List BlockParams → List TxEnvelope → List DerivedBlock
  | _, [], _ => []
  | number, params :: rest, txs =>
      { number := number
        timestamp := last - (rest.map (·.timeShift)).sum
        coinbase := coinbase
        anchorBlockId := some anchorBlockId
        txs := txs.take params.numTransactions } ::
      blocksFrom last coinbase anchorBlockId (number + 1) rest (txs.drop params.numTransactions)

/-- The compressed tx list: in the calldata, or the given part of the blobs put
together. -/
def BlobParams.data (params : BlobParams) (txList : Bytes) (blobs : List Blob) : Option Bytes :=
  if params.numBlobs = 0 then some txList
  else do
    let parts ← ((blobs.drop params.firstBlobIndex).take params.numBlobs).mapM decodeBlob
    some ((parts.flatten.drop params.byteOffset).take params.byteSize)

/-- The blocks that L1 reads off a proposal tx. -/
def derive (abi : Abi) (codec : TxListCodec) (input : Bytes)
    (sidecar : Option BlobTransactionSidecar) : Option (List DerivedBlock) := do
  let call ← abi.decodeCall input
  let (_, params) ← abi.decodeParams call.params
  let batch ← abi.decodeBatchParams params
  let data ← batch.blobParams.data call.txList ((sidecar.map (·.blobs)).getD [])
  let txs ← codec.txsOf data
  some (blocksFrom batch.lastBlockTimestamp batch.coinbase batch.anchorBlockId
    (call.expectedLastBlockId + 1 - batch.blocks.length) batch.blocks txs)

/-- What L1 has after a request was proposed. -/
def derivedBlocks (abi : Abi) (kzg : Kzg) (codec : TxListCodec) (proposer : Address)
    (request : ProposeBatchParams) : Option (List DerivedBlock) := do
  let (input, sidecar) ← (prepareBatch abi kzg codec proposer request).toOption
  derive abi codec input sidecar

/-- The blocks a request stands for. -/
def ProposeBatchParams.derived (request : ProposeBatchParams) : List DerivedBlock :=
  blocksFrom request.lastTimestamp request.coinbase request.anchorBlockId
    (request.endBlockNum + 1 - request.blockParams.length) request.blockParams
    (request.allTxList.map (·.tx))

/-! ### The encoders keep the blocks -/

section Encoders

variable {abi : Abi} {kzg : Kzg} {codec : TxListCodec} {request : ProposeBatchParams}
  {parentMetaHash : B256} {proposer : Address} {compressed input : Bytes}
  {sidecar : BlobTransactionSidecar}

/-- The parameters of the batch, up to the blobs. -/
theorem proposeBatchBlobs_input
    (h : proposeBatchBlobs abi kzg request parentMetaHash proposer compressed =
      .ok (input, sidecar)) :
    input = abi.calldata (request.toBatchParams parentMetaHash proposer
      (.ofSizes sidecar.blobs.length compressed.length)) [] request.endBlockNum := by
  simp only [proposeBatchBlobs] at h
  split at h
  · cases h
  · obtain ⟨blobs, -, h⟩ := Except.bind_eq_ok_iff.mp h
    obtain ⟨made, -, h⟩ := Except.bind_eq_ok_iff.mp h
    cases h
    rfl

theorem prepareBatch_of_blobs
    (huse : shouldUseBlobs (codec.encodeAndCompressOrders request.allTxList).length = true)
    (h : proposeBatchBlobs abi kzg { request with allTxList := [] } lastMetaHash proposer
      (codec.encodeAndCompressOrders request.allTxList) = .ok (input, sidecar)) :
    prepareBatch abi kzg codec proposer request = .ok (input, some sidecar) := by
  simp only [prepareBatch, huse, if_true]
  exact Except.bind_eq_ok_iff.mpr ⟨(input, sidecar), h, rfl⟩

/-- The blobs give the compressed tx list back. -/
theorem data_of_blobs {blobs : List Blob} (hfew : blobs.length < 2 ^ 8)
    (hsize : compressed.length < 2 ^ 32)
    (hdecoded : blobs.mapM decodeBlob = some (chunks maxBlobDataSize compressed))
    (hlength : blobs.length = (chunks maxBlobDataSize compressed).length) :
    (BlobParams.ofSizes blobs.length compressed.length).data [] blobs = some compressed := by
  have hflatten := flatten_chunks maxBlobDataSize_pos compressed
  simp only [BlobParams.data, BlobParams.ofSizes, Nat.mod_eq_of_lt hfew, Nat.mod_eq_of_lt hsize]
  split
  · -- nothing was compressed
    rename_i hnone
    rw [hlength, List.length_eq_zero_iff] at hnone
    rw [hnone] at hflatten
    rw [← hflatten]
    rfl
  · rw [List.drop_zero, List.take_length, hdecoded]
    show some ((List.drop 0 (chunks maxBlobDataSize compressed).flatten).take _) = _
    rw [hflatten, List.drop_zero, List.take_length]

theorem derive_calldata (hundo : abi.Undoes) {blobParams : BlobParams} {txList data : Bytes}
    {txs : List TxEnvelope} (maybeSidecar : Option BlobTransactionSidecar)
    (hdata : blobParams.data txList ((maybeSidecar.map (·.blobs)).getD []) = some data)
    (htxs : codec.txsOf data = some txs) :
    derive abi codec (abi.calldata (request.toBatchParams parentMetaHash proposer blobParams)
        txList request.endBlockNum) maybeSidecar =
      some (blocksFrom request.lastTimestamp request.coinbase request.anchorBlockId
        (request.endBlockNum + 1 - request.blockParams.length) request.blockParams txs) := by
  simp only [derive, Abi.calldata, hundo.call, Option.bind_eq_bind, Option.bind_some,
    hundo.params, hundo.batchParams, ProposeBatchParams.toBatchParams, hdata, htxs]

/-- The encoder for the calldata keeps the blocks. -/
theorem derive_proposeBatchCalldata (hundo : abi.Undoes) (request : ProposeBatchParams)
    (parentMetaHash : B256) (proposer : Address) :
    derive abi codec (proposeBatchCalldata abi { request with allTxList := [] } parentMetaHash
      proposer (codec.encodeAndCompressOrders request.allTxList)) none = some request.derived := by
  have hdata : (BlobParams.ofSizes 0 (codec.encodeAndCompressOrders request.allTxList).length).data
      (codec.encodeAndCompressOrders request.allTxList) [] =
        some (codec.encodeAndCompressOrders request.allTxList) := rfl
  exact derive_calldata hundo none hdata (codec.txsOf_encodeAndCompressOrders request.allTxList)

/-- **The encoders keep the blocks.**  A tx list that six blobs hold, and every
other one that the size assertion admits, is proposed in a tx that derives to
the blocks of the request, whichever encoder the proposer picks. -/
theorem derive_prepareBatch (hundo : abi.Undoes) (hkzg : kzg.Accepts)
    (request : ProposeBatchParams) (proposer : Address)
    (hadmitted : (codec.encodeAndCompressOrders request.allTxList).length / maxBlobDataSize ≤
      maxBlobsPerBlockDencun) :
    ∃ input maybeSidecar, prepareBatch abi kzg codec proposer request = .ok (input, maybeSidecar) ∧
      derive abi codec input maybeSidecar = some request.derived := by
  cases huse : shouldUseBlobs (codec.encodeAndCompressOrders request.allTxList).length with
  | false =>
      refine ⟨_, none, ?_, derive_proposeBatchCalldata hundo request lastMetaHash proposer⟩
      simp only [prepareBatch, huse]
      rfl
  | true =>
      obtain ⟨sidecar, blobParams, hok, hlength, -, -, hdecoded⟩ := proposeBatchBlobs_eq abi
        { request with allTxList := [] } lastMetaHash proposer hkzg hadmitted
      have hinput := proposeBatchBlobs_input hok
      have hlt := length_lt_of_admitted hadmitted
      have hseven := (length_chunks_le_iff _ 7).mpr hlt.le
      have hsize : 7 * maxBlobDataSize < 2 ^ 32 := by decide
      refine ⟨_, some sidecar, prepareBatch_of_blobs huse hok, ?_⟩
      have hdata := data_of_blobs (by omega) (by omega) hdecoded hlength
      rw [hinput]
      exact derive_calldata hundo (some sidecar) hdata
        (codec.txsOf_encodeAndCompressOrders request.allTxList)

theorem derivedBlocks_eq (hundo : abi.Undoes) (hkzg : kzg.Accepts) (request : ProposeBatchParams)
    (proposer : Address)
    (hadmitted : (codec.encodeAndCompressOrders request.allTxList).length / maxBlobDataSize ≤
      maxBlobsPerBlockDencun) :
    derivedBlocks abi kzg codec proposer request = some request.derived := by
  obtain ⟨input, maybeSidecar, hok, hderive⟩ :=
    derive_prepareBatch hundo hkzg request proposer hadmitted
  simp only [derivedBlocks, hok, Except.toOption, Option.bind_eq_bind, Option.bind_some, hderive]

end Encoders

/-! ### Requests made from blocks -/

theorem mapM_eq_some_map {α β : Type*} {f : α → Option β} {g : α → β} {as : List α}
    (h : ∀ a ∈ as, f a = some (g a)) : as.mapM f = some (as.map g) := by
  induction as with
  | nil => rfl
  | cons a as ih =>
      rw [List.forall_mem_cons] at h
      rw [List.mapM_cons, h.1, ih h.2]
      rfl

/-- Without the first place, the times are those of the shifts that are left. -/
theorem Shifts.Encodes.tail {last d t : Nat} {shifts ts : List Nat}
    (h : Shifts.Encodes last (d :: shifts) (t :: ts)) : Shifts.Encodes last shifts ts :=
  fun i u hu => h (i + 1) u hu

theorem Shifts.Encodes.head {last d t : Nat} {shifts ts : List Nat}
    (h : Shifts.Encodes last (d :: shifts) (t :: ts)) : t + shifts.sum = last := h 0 t rfl

/-- **Reading back.**  Parameters that count the txs of these blocks and encode
their timestamps, with the numbers going up by one, give the blocks back. -/
theorem blocksFrom_eq {last : Nat} {coinbase : Address} {anchorBlockId : Nat}
    {blocks : List DerivedBlock} :
    ∀ {first : Nat} {params : List BlockParams},
      params.map (·.numTransactions) = blocks.map (·.txs.length) →
      Shifts.Encodes last (params.map (·.timeShift)) (blocks.map (·.timestamp)) →
      blocks.map (·.number) = List.range' first blocks.length →
      (∀ b ∈ blocks, b.coinbase = coinbase ∧ b.anchorBlockId = some anchorBlockId) →
      blocksFrom last coinbase anchorBlockId first params (blocks.flatMap (·.txs)) = blocks := by
  induction blocks with
  | nil =>
      intro first params hcounts htimes hnumbers hsame
      rw [List.map_nil, List.map_eq_nil_iff] at hcounts
      rw [hcounts]
      rfl
  | cons b blocks ih =>
      intro first params hcounts htimes hnumbers hsame
      obtain ⟨p, rest, rfl, hcount, hrest⟩ := List.map_eq_cons_iff.mp hcounts
      rw [List.map_cons, List.length_cons, List.range'_succ, List.cons.injEq] at hnumbers
      rw [List.forall_mem_cons] at hsame
      obtain ⟨hnumber, hnumbers⟩ := hnumbers
      obtain ⟨⟨hcoinbase, hanchor⟩, hsame⟩ := hsame
      have htime : b.timestamp + (rest.map (·.timeShift)).sum = last := htimes.head
      rw [blocksFrom, List.flatMap_cons, hcount, List.take_left, List.drop_left,
        ih hrest htimes.tail hnumbers hsame]
      obtain ⟨number, timestamp, coinbase', anchorBlockId', txs⟩ := b
      congr 2
      · exact hnumber.symm
      · show last - _ = timestamp
        exact Nat.sub_eq_of_eq_add htime.symm
      · exact hcoinbase.symm
      · exact hanchor.symm

/-- The block as L1 would have it. -/
def Block.content (b : Block) : DerivedBlock :=
  { number := b.header.number
    timestamp := b.header.timestamp
    coinbase := b.header.beneficiary
    anchorBlockId := b.anchorBlockId
    txs := b.userOrders.map (·.tx) }

/-- A request that counts the txs of these blocks, encodes their timestamps and
ends with the last of them stands for these blocks. -/
theorem derived_eq {request : ProposeBatchParams} {blocks : List DerivedBlock}
    (hcounts : request.blockParams.map (·.numTransactions) = blocks.map (·.txs.length))
    (htxs : request.allTxList.map (·.tx) = blocks.flatMap (·.txs))
    (htimes : Shifts.Encodes request.lastTimestamp (request.blockParams.map (·.timeShift))
      (blocks.map (·.timestamp)))
    (hnumbers : blocks.map (·.number) =
      List.range' (request.endBlockNum + 1 - blocks.length) blocks.length)
    (hsame : ∀ b ∈ blocks, b.coinbase = request.coinbase ∧
      b.anchorBlockId = some request.anchorBlockId) :
    request.derived = blocks := by
  have hlength : request.blockParams.length = blocks.length := by
    have h := congrArg List.length hcounts
    rwa [List.length_map, List.length_map] at h
  rw [ProposeBatchParams.derived, htxs, hlength]
  exact blocksFrom_eq hcounts htimes hnumbers hsame

end TaikoGateway
