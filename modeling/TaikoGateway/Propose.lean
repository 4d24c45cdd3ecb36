/-
TaikoGateway/Propose.lean

The call that proposes a batch.

The compressed tx list goes into the calldata, or into the blobs of a sidecar;
the parameters of the batch are the same up to `blobParams`.  On restart the
pending calls are decoded again.  The first block is not sent: the decoder
computes it from the last block and the number of blocks.

The ABI encodings and the KZG commitments are those of other crates and are
parameters here.

* `sidecar_iff`: the size assertion rounds down and the chunks are rounded up,
  so just above six full blobs a seventh one is made.
* `decode_iff`: the decoder subtracts before it adds, which goes below zero for
  a batch that starts at block 0.
-/
import TaikoGateway.Blob

namespace TaikoGateway

open BlobEncoding Blocks

/-! ### The call -/

structure BlobParams where
  blobHashes : List B256
  firstBlobIndex : Nat
  numBlobs : Nat
  byteOffset : Nat
  byteSize : Nat
  deriving DecidableEq, Encodable

deriving instance Encodable for BlockParams

structure BatchParams where
  proposer : Address
  coinbase : Address
  parentMetaHash : B256
  anchorBlockId : Nat
  lastBlockTimestamp : Nat
  revertIfNotFirstProposal : Bool
  blobParams : BlobParams
  blocks : List BlockParams
  deriving DecidableEq, Encodable

structure ProposeBatchWithExpectedLastBlockIdCall where
  params : Bytes
  txList : Bytes
  /-- a `uint96` -/
  expectedLastBlockId : Nat
  deriving DecidableEq

/-- The encodings that are nested in the calldata. -/
structure Abi where
  encodeBatchParams : BatchParams → Bytes
  decodeBatchParams : Bytes → Option BatchParams
  /-- `abi_encode_params` of two byte strings -/
  encodeParams : Bytes × Bytes → Bytes
  decodeParams : Bytes → Option (Bytes × Bytes)
  encodeCall : ProposeBatchWithExpectedLastBlockIdCall → Bytes
  decodeCall : Bytes → Option ProposeBatchWithExpectedLastBlockIdCall

/-- Decoding undoes encoding. -/
structure Abi.Undoes (abi : Abi) : Prop where
  batchParams : ∀ b, abi.decodeBatchParams (abi.encodeBatchParams b) = some b
  params : ∀ p, abi.decodeParams (abi.encodeParams p) = some p
  call : ∀ c, abi.decodeCall (abi.encodeCall c) = some c

/-- `None` where the source has an error. -/
structure Kzg where
  blobToKzgCommitment : Blob → Option Bytes
  computeBlobKzgProof : Blob → Bytes → Option Bytes

/-- Field elements below the modulus can be committed to. -/
def Kzg.Accepts (kzg : Kzg) : Prop :=
  ∀ blob, Canonical blob → ∃ commitment proof, kzg.blobToKzgCommitment blob = some commitment ∧
    kzg.computeBlobKzgProof blob commitment = some proof

structure BlobTransactionSidecar where
  blobs : List Blob
  commitments : List Bytes
  proofs : List Bytes

/-! ### Encoding -/

inductive ProposePanic
  /-- "too many bytes to encode in blobs" -/
  | tooManyBytes
  | blob (panic : BlobPanic)
  /-- "failed to compute commitment" -/
  | commitmentFailed
  /-- "failed to compute proof" -/
  | proofFailed

def maxBlobsPerBlockDencun : Nat := 6

/-- `from_kzg` takes the blobs as they are. -/
def blobsToSidecar (kzg : Kzg) (blobs : List Blob) :
    Except ProposePanic BlobTransactionSidecar := do
  let computed ← blobs.mapM fun blob => do
    let commitment ← (kzg.blobToKzgCommitment blob).elim (.error .commitmentFailed) .ok
    let proof ← (kzg.computeBlobKzgProof blob commitment).elim (.error .proofFailed) .ok
    .ok (commitment, proof)
  .ok ⟨blobs, computed.map Prod.fst, computed.map Prod.snd⟩

/-- The parameters of the batch, in both encoders. -/
def ProposeBatchParams.toBatchParams (request : ProposeBatchParams) (parentMetaHash : B256)
    (proposer : Address) (blobParams : BlobParams) : BatchParams :=
  { proposer := proposer
    coinbase := request.coinbase
    parentMetaHash := parentMetaHash
    anchorBlockId := request.anchorBlockId
    lastBlockTimestamp := request.lastTimestamp
    revertIfNotFirstProposal := false
    blobParams := blobParams
    blocks := request.blockParams }

/-- The calldata, with an empty forced tx list. -/
def Abi.calldata (abi : Abi) (batchParams : BatchParams) (txList : Bytes) (endBlockNum : Nat) :
    Bytes :=
  let encodedParams := abi.encodeParams ([], abi.encodeBatchParams batchParams)
  abi.encodeCall
    { params := encodedParams, txList := txList, expectedLastBlockId := endBlockNum }

/-- Narrowed to the `u8` and the `u32` of the contract. -/
def BlobParams.ofSizes (numBlobs byteSize : Nat) : BlobParams :=
  { blobHashes := [], firstBlobIndex := 0, numBlobs := numBlobs % 2 ^ 8, byteOffset := 0
    byteSize := byteSize % 2 ^ 32 }

def proposeBatchCalldata (abi : Abi) (request : ProposeBatchParams) (parentMetaHash : B256)
    (proposer : Address) (compressed : Bytes) : Bytes :=
  let blobParams := .ofSizes 0 compressed.length
  let batchParams := request.toBatchParams parentMetaHash proposer blobParams
  abi.calldata batchParams compressed request.endBlockNum

def proposeBatchBlobs (abi : Abi) (kzg : Kzg) (request : ProposeBatchParams)
    (parentMetaHash : B256) (proposer : Address) (compressed : Bytes) :
    Except ProposePanic (Bytes × BlobTransactionSidecar) :=
  if ¬ compressed.length / maxBlobDataSize ≤ maxBlobsPerBlockDencun then .error .tooManyBytes
  else do
    let blobs ← (chunks maxBlobDataSize compressed).mapM fun c => (encodeBlob c).mapError .blob
    let sidecar ← blobsToSidecar kzg blobs
    let blobParams := .ofSizes sidecar.blobs.length compressed.length
    let batchParams := request.toBatchParams parentMetaHash proposer blobParams
    .ok (abi.calldata batchParams [] request.endBlockNum, sidecar)

/-! ### Decoding -/

inductive DecodeError
  /-- an `abi_decode` fails -/
  | abi
  /-- `.try_into().unwrap()` into a `u64` -/
  | lastBlockTooLarge
  /-- a subtraction below zero, in a build with overflow checks -/
  | subtractOverflow
  /-- an addition above the largest `u64`, in a build with overflow checks -/
  | addOverflow
  deriving DecidableEq

/-- `a - b` of two `u64`s: wraps, or aborts where overflow is checked. -/
def subU64 (checks : Bool) (a b : Nat) : Except DecodeError Nat :=
  if b ≤ a then .ok (a - b)
  else if checks then .error .subtractOverflow else .ok (u64Sub a b)

def addU64 (checks : Bool) (a b : Nat) : Except DecodeError Nat :=
  if a + b < 2 ^ 64 then .ok (a + b)
  else if checks then .error .addOverflow else .ok ((a + b) % 2 ^ 64)

/-- Start block, last block and anchor block of a call. -/
def decodeProposeBatchWithExpectedLastBlockIdCall (abi : Abi) (checks : Bool) (data : Bytes) :
    Except DecodeError (Nat × Nat × Nat) := do
  let call ← (abi.decodeCall data).elim (.error .abi) .ok
  let (_, params) ← (abi.decodeParams call.params).elim (.error .abi) .ok
  let batchParams ← (abi.decodeBatchParams params).elim (.error .abi) .ok
  let nBlocks := batchParams.blocks.length
  let lastBlock ←
    if call.expectedLastBlockId < 2 ^ 64 then .ok call.expectedLastBlockId
    else .error .lastBlockTooLarge
  let beforeStart ← subU64 checks lastBlock nBlocks
  let startBlock ← addU64 checks beforeStart 1
  .ok (startBlock, lastBlock, batchParams.anchorBlockId)

/-! ### The sidecar -/

/-- The sidecar carries the compressed tx list, as the parameters say. -/
structure Carried (compressed : Bytes) (blobParams : BlobParams)
    (sidecar : BlobTransactionSidecar) : Prop where
  few : sidecar.blobs.length ≤ maxBlobsPerBlockDencun
  /-- no chunk is too large for a blob -/
  fits : ∀ c ∈ chunks maxBlobDataSize compressed, c.length ≤ maxBlobDataSize
  numBlobs : blobParams.numBlobs = sidecar.blobs.length
  byteSize : blobParams.byteSize = compressed.length
  decoded : ∃ parts, sidecar.blobs.mapM decodeBlob = some parts ∧ parts.flatten = compressed ∧
    parts.flatten.length = blobParams.byteSize

theorem maxBlobDataSize_pos : 0 < maxBlobDataSize := by decide

/-- What the assertion admits is less than seven blobs. -/
theorem length_lt_of_admitted {compressed : Bytes}
    (h : compressed.length / maxBlobDataSize ≤ maxBlobsPerBlockDencun) :
    compressed.length < 7 * maxBlobDataSize :=
  (Nat.div_lt_iff_lt_mul maxBlobDataSize_pos).mp (Nat.lt_succ_of_le h)

/-- The number of blobs is rounded up. -/
theorem length_chunks_le_iff (compressed : Bytes) (k : Nat) :
    (chunks maxBlobDataSize compressed).length ≤ k ↔ compressed.length ≤ k * maxBlobDataSize := by
  rw [length_chunks, ← Nat.lt_succ_iff, Nat.div_lt_iff_lt_mul maxBlobDataSize_pos]
  have hpos := maxBlobDataSize_pos
  rw [Nat.succ_mul]
  omega

/-- Every chunk is encoded, and decodes to itself. -/
theorem encodeBlobs_total {cs : List Bytes} (h : ∀ c ∈ cs, c.length ≤ maxBlobDataSize) :
    ∃ blobs, (cs.mapM fun c => (encodeBlob c).mapError ProposePanic.blob) = .ok blobs ∧
      blobs.length = cs.length ∧ blobs.mapM decodeBlob = some cs ∧
      ∀ blob ∈ blobs, Canonical blob := by
  induction cs with
  | nil => exact ⟨[], rfl, rfl, rfl, fun blob hblob => (by cases hblob)⟩
  | cons c cs ih =>
      rw [List.forall_mem_cons] at h
      obtain ⟨blob, henc, hcanonical⟩ := encodeBlob_total h.1
      obtain ⟨blobs, hencs, hlength, hdecs, hall⟩ := ih h.2
      refine ⟨blob :: blobs, ?_, congrArg (· + 1) hlength, ?_, ?_⟩
      · rw [List.mapM_cons, henc, hencs]
        rfl
      · rw [List.mapM_cons, decodeBlob_of_encodeBlob henc, hdecs]
        rfl
      · rw [List.forall_mem_cons]
        exact ⟨hcanonical, hall⟩

theorem blobsToSidecar_total {kzg : Kzg} (hkzg : kzg.Accepts) {blobs : List Blob}
    (h : ∀ blob ∈ blobs, Canonical blob) :
    ∃ sidecar, blobsToSidecar kzg blobs = .ok sidecar ∧ sidecar.blobs = blobs := by
  obtain ⟨computed, hcomputed, -⟩ := Except.exists_mapM
    (f := fun blob => do
      let commitment ← (kzg.blobToKzgCommitment blob).elim (.error .commitmentFailed) .ok
      let proof ← (kzg.computeBlobKzgProof blob commitment).elim (.error .proofFailed) .ok
      (.ok (commitment, proof) : Except ProposePanic (Bytes × Bytes)))
    (fun blob hblob => by
      obtain ⟨commitment, proof, hcommitment, hproof⟩ := hkzg blob (h blob hblob)
      refine ⟨(commitment, proof), ?_⟩
      simp only [hcommitment, Option.elim_some, bind, Except.bind, hproof])
  exact ⟨_, Except.bind_eq_ok_iff.mpr ⟨computed, hcomputed, rfl⟩, rfl⟩

section Encoders

variable (abi : Abi) {kzg : Kzg} (request : ProposeBatchParams) (parentMetaHash : B256)
  (proposer : Address) {compressed : Bytes}

/-- **What `propose_batch_blobs` returns**, for all that the assertion admits. -/
theorem proposeBatchBlobs_eq (hkzg : kzg.Accepts)
    (hadmitted : compressed.length / maxBlobDataSize ≤ maxBlobsPerBlockDencun) :
    ∃ sidecar blobParams, proposeBatchBlobs abi kzg request parentMetaHash proposer compressed =
        .ok (abi.calldata (request.toBatchParams parentMetaHash proposer blobParams) []
          request.endBlockNum, sidecar) ∧
      sidecar.blobs.length = (chunks maxBlobDataSize compressed).length ∧
      blobParams.numBlobs = sidecar.blobs.length ∧ blobParams.byteSize = compressed.length ∧
      sidecar.blobs.mapM decodeBlob = some (chunks maxBlobDataSize compressed) := by
  obtain ⟨blobs, hencs, hlength, hdecs, hcanonical⟩ :=
    @encodeBlobs_total (chunks maxBlobDataSize compressed) fun c hc => length_of_mem_chunks hc
  obtain ⟨sidecar, hsidecar, rfl⟩ := blobsToSidecar_total hkzg hcanonical
  have hlt := length_lt_of_admitted hadmitted
  have hseven : (chunks maxBlobDataSize compressed).length ≤ 7 :=
    (length_chunks_le_iff compressed 7).mpr hlt.le
  refine ⟨sidecar, .ofSizes sidecar.blobs.length compressed.length, ?_, hlength, ?_, ?_, hdecs⟩
  · rw [proposeBatchBlobs, if_neg (not_not.mpr hadmitted)]
    exact Except.bind_eq_ok_iff.mpr ⟨_, hencs, Except.bind_eq_ok_iff.mpr ⟨sidecar, hsidecar, rfl⟩⟩
  -- at most seven blobs, and less than 2^20 bytes
  · apply Nat.mod_eq_of_lt
    rw [hlength]
    omega
  · apply Nat.mod_eq_of_lt
    have hsize : 7 * maxBlobDataSize < 2 ^ 32 := by decide
    omega

/-- **A sidecar for every list that is admitted**, and one of at most six blobs
exactly for those that six blobs can hold.  The rest holds for all of them. -/
theorem sidecar_iff (hkzg : kzg.Accepts)
    (hadmitted : compressed.length / maxBlobDataSize ≤ maxBlobsPerBlockDencun) :
    (∃ sidecar blobParams, proposeBatchBlobs abi kzg request parentMetaHash proposer compressed =
        .ok (abi.calldata (request.toBatchParams parentMetaHash proposer blobParams) []
          request.endBlockNum, sidecar) ∧
      Carried compressed blobParams sidecar) ↔
      compressed.length ≤ maxBlobsPerBlockDencun * maxBlobDataSize := by
  obtain ⟨sidecar, blobParams, hok, hlength, hnum, hsize, hdecs⟩ :=
    proposeBatchBlobs_eq abi request parentMetaHash proposer hkzg hadmitted
  rw [← length_chunks_le_iff, ← hlength]
  constructor
  · rintro ⟨sidecar', blobParams', hok', hcarried⟩
    have hsame : sidecar' = sidecar :=
      congrArg Prod.snd (Except.ok.inj (hok'.symm.trans hok))
    rw [← hsame]
    exact hcarried.few
  · intro hfew
    have hflatten := flatten_chunks maxBlobDataSize_pos compressed
    exact ⟨sidecar, blobParams, hok, hfew, fun c hc => length_of_mem_chunks hc, hnum, hsize,
      _, hdecs, hflatten, by rw [hflatten, hsize]⟩

end Encoders

section Sample

/-- Always the point at infinity. -/
def pointAtInfinity : Kzg :=
  let point := 0xc0 :: List.replicate 47 0
  ⟨fun _ => some point, fun _ _ => some point⟩

theorem pointAtInfinity_accepts : pointAtInfinity.Accepts := fun _ _ => ⟨_, _, rfl, rfl⟩

/-- A codec that has these bytes for one value. -/
def codecFor {α : Type} [Encodable α] [DecidableEq α] (value : α) (encoded : Bytes) :
    (α → Bytes) × (Bytes → Option α) :=
  (fun a => if a = value then encoded else List.replicate (Encodable.encode a) 0,
    fun bytes => if bytes = encoded then some value else Encodable.decode bytes.length)

theorem codecFor_undoes {α : Type} [Encodable α] [DecidableEq α] {value : α} {encoded : Bytes}
    (h : ∃ b ∈ encoded, b ≠ 0) (a : α) :
    (codecFor value encoded).2 ((codecFor value encoded).1 a) = some a := by
  simp only [codecFor]
  by_cases ha : a = value
  · rw [if_pos ha, if_pos rfl, ha]
  · rw [if_neg ha, if_neg, List.length_replicate, Encodable.encodek]
    intro hzero
    obtain ⟨b, hb, hne⟩ := h
    rw [← hzero] at hb
    exact hne (List.eq_of_mem_replicate hb)

instance encodableByte : Encodable UInt8 :=
  Encodable.ofLeftInverse UInt8.toNat UInt8.ofNat fun _ => UInt8.ofNat_toNat

deriving instance Encodable for ProposeBatchWithExpectedLastBlockIdCall

/-- A 32-byte word. -/
def word (n : Nat) : Bytes := (List.range 32).map fun i => UInt8.ofNat (n / 256 ^ (31 - i))

/-- The batch of `test_encode_decode`. -/
def testRequest : ProposeBatchParams :=
  { anchorBlockId := 99, lastTimestamp := 1, startBlockNum := 1, endBlockNum := 2
    blockParams := [⟨10, 1, []⟩, ⟨10, 1, []⟩] }

def testBatchParams : BatchParams := testRequest.toBatchParams 0 0 (.ofSizes 0 0)

/-- Its fields, with the offsets of `blobParams` and `blocks`. -/
def encodedBatchParams : Bytes :=
  [0x20, 0, 0, 0, 99, 1, 0, 0x100, 0x1c0, 0xa0, 0, 0, 0, 0, 0, 2, 0x40, 0xc0, 10, 1, 0x60, 0,
    10, 1, 0x60, 0].flatMap word

def encodedParams : Bytes := [0x40, 0x60, 0, 832].flatMap word ++ encodedBatchParams

/-- Behind the selector. -/
def encodedCall : Bytes :=
  [0xc9, 0x39, 0xac, 0x47] ++ [0x60, 0x440, 2, 960].flatMap word ++ encodedParams ++ word 0

/-- The encodings, as they are on the batch of the test. -/
def testAbi : Abi :=
  { encodeBatchParams := (codecFor testBatchParams encodedBatchParams).1
    decodeBatchParams := (codecFor testBatchParams encodedBatchParams).2
    encodeParams := (codecFor ([], encodedBatchParams) encodedParams).1
    decodeParams := (codecFor ([], encodedBatchParams) encodedParams).2
    encodeCall := (codecFor ⟨encodedParams, [], 2⟩ encodedCall).1
    decodeCall := (codecFor ⟨encodedParams, [], 2⟩ encodedCall).2 }

theorem testAbi_undoes : testAbi.Undoes where
  batchParams := codecFor_undoes ⟨0x20, by decide +kernel, by decide⟩
  params := codecFor_undoes ⟨0x40, by decide +kernel, by decide⟩
  call := codecFor_undoes ⟨0xc9, List.mem_cons_self, by decide⟩

theorem sidecar_iff_abc :
    ∃ sidecar blobParams, proposeBatchBlobs testAbi pointAtInfinity testRequest 0 0 [97, 98, 99] =
        .ok (testAbi.calldata (testRequest.toBatchParams 0 0 blobParams) [] 2, sidecar) ∧
      Carried [97, 98, 99] blobParams sidecar :=
  (sidecar_iff testAbi testRequest 0 0 pointAtInfinity_accepts (by decide)).mpr (by decide)

/-- One byte more than six blobs hold is admitted, and makes a seventh blob. -/
theorem seventh_blob :
    let compressed := List.replicate (6 * maxBlobDataSize + 1) (0 : UInt8)
    compressed.length / maxBlobDataSize ≤ maxBlobsPerBlockDencun ∧
      ∃ input sidecar, proposeBatchBlobs testAbi pointAtInfinity testRequest 0 0 compressed =
          .ok (input, sidecar) ∧
        sidecar.blobs.length = 7 := by
  have hadmitted : (List.replicate (6 * maxBlobDataSize + 1) (0 : UInt8)).length / maxBlobDataSize ≤
      maxBlobsPerBlockDencun := by
    rw [List.length_replicate]
    decide
  obtain ⟨sidecar, blobParams, hok, hlength, -⟩ :=
    proposeBatchBlobs_eq testAbi testRequest 0 0 pointAtInfinity_accepts hadmitted
  refine ⟨hadmitted, _, sidecar, hok, ?_⟩
  rw [hlength, length_chunks, List.length_replicate]
  rfl

end Sample

/-! ### The blocks of a call -/

/-- The parameters in the calldata. -/
def Abi.batchParamsOf (abi : Abi) (data : Bytes) : Option BatchParams := do
  let call ← abi.decodeCall data
  let (_, params) ← abi.decodeParams call.params
  abi.decodeBatchParams params

/-- The decoder returns the blocks and the anchor of the request, whether or not
overflow is checked. -/
def Decodes (abi : Abi) (request : ProposeBatchParams) (data : Bytes) : Prop :=
  ∀ checks, decodeProposeBatchWithExpectedLastBlockIdCall abi checks data =
    .ok (request.startBlockNum, request.endBlockNum, request.anchorBlockId)

section Decoder

variable {abi : Abi} {kzg : Kzg} {request : ProposeBatchParams} (parentMetaHash : B256)
  (proposer : Address)

theorem batchParamsOf_calldata (hundo : abi.Undoes) (batchParams : BatchParams) (txList : Bytes)
    (last : Nat) : abi.batchParamsOf (abi.calldata batchParams txList last) = some batchParams := by
  simp only [Abi.batchParamsOf, Abi.calldata, hundo.call, bind, Option.bind, hundo.params,
    hundo.batchParams]

/-- What is left of the decoder once the encodings are undone. -/
theorem decode_calldata (hundo : abi.Undoes) (checks : Bool) {batchParams : BatchParams}
    {txList : Bytes} {last : Nat} (hlast : last < 2 ^ 64) :
    decodeProposeBatchWithExpectedLastBlockIdCall abi checks
        (abi.calldata batchParams txList last) =
      (subU64 checks last batchParams.blocks.length >>= fun beforeStart =>
        addU64 checks beforeStart 1 >>= fun startBlock =>
          .ok (startBlock, last, batchParams.anchorBlockId)) := by
  simp only [decodeProposeBatchWithExpectedLastBlockIdCall, Abi.calldata, hundo.call,
    Option.elim_some, bind, Except.bind, hundo.params, hundo.batchParams, if_pos hlast]

/-- With a first block above 0 nothing overflows. -/
theorem decodes_calldata (hundo : abi.Undoes) (blobParams : BlobParams) (txList : Bytes)
    (hblocks : 1 ≤ request.blockParams.length)
    (hlast : request.endBlockNum + 1 = request.startBlockNum + request.blockParams.length)
    (hu64 : request.endBlockNum < 2 ^ 64) (hstart : 1 ≤ request.startBlockNum) :
    Decodes abi request (abi.calldata (request.toBatchParams parentMetaHash proposer blobParams)
      txList request.endBlockNum) := by
  intro checks
  rw [decode_calldata hundo checks hu64]
  show (subU64 checks request.endBlockNum request.blockParams.length >>= _) = _
  rw [subU64, if_pos (by omega)]
  show (addU64 checks _ 1 >>= _) = _
  rw [addU64, if_pos (by omega)]
  show Except.ok (request.endBlockNum - request.blockParams.length + 1, _, _) = _
  congr 2
  omega

/-- From block 0 on, the last block is below the number of blocks. -/
theorem decode_overflows (hundo : abi.Undoes) (blobParams : BlobParams) (txList : Bytes)
    (hlast : request.endBlockNum + 1 = request.startBlockNum + request.blockParams.length)
    (hu64 : request.endBlockNum < 2 ^ 64) (hstart : request.startBlockNum = 0) :
    decodeProposeBatchWithExpectedLastBlockIdCall abi true
      (abi.calldata (request.toBatchParams parentMetaHash proposer blobParams) txList
        request.endBlockNum) = .error .subtractOverflow := by
  rw [decode_calldata hundo true hu64]
  show (subU64 true request.endBlockNum request.blockParams.length >>= _) = _
  rw [subU64, if_neg (by omega)]
  rfl

/-- **The decoder returns what either encoder was given**, and the encoders
differ in the blob parameters only, exactly for batches that start above
block 0. -/
theorem decode_iff (compressed : Bytes) (hundo : abi.Undoes) (hkzg : kzg.Accepts)
    (hblocks : 1 ≤ request.blockParams.length)
    (hend : request.endBlockNum = request.startBlockNum + request.blockParams.length - 1)
    (hu64 : request.endBlockNum < 2 ^ 64) :
    (Decodes abi request (proposeBatchCalldata abi request parentMetaHash proposer compressed) ∧
      (compressed.length / maxBlobDataSize ≤ maxBlobsPerBlockDencun →
        ∃ input sidecar b b',
          proposeBatchBlobs abi kzg request parentMetaHash proposer compressed =
            .ok (input, sidecar) ∧
          Decodes abi request input ∧
          abi.batchParamsOf (proposeBatchCalldata abi request parentMetaHash proposer compressed) =
            some b ∧
          abi.batchParamsOf input = some b' ∧ b' = { b with blobParams := b'.blobParams })) ↔
      1 ≤ request.startBlockNum := by
  have hlast : request.endBlockNum + 1 = request.startBlockNum + request.blockParams.length := by
    omega
  constructor
  · rintro ⟨hdecodes, -⟩
    by_contra hstart
    have herror := decode_overflows parentMetaHash proposer hundo (.ofSizes 0 compressed.length)
      compressed hlast hu64 (by omega)
    cases herror.symm.trans (hdecodes true)
  · intro hstart
    refine ⟨decodes_calldata _ _ hundo _ _ hblocks hlast hu64 hstart, fun hadmitted => ?_⟩
    obtain ⟨sidecar, blobParams, hok, -⟩ :=
      proposeBatchBlobs_eq abi request parentMetaHash proposer hkzg hadmitted
    exact ⟨_, sidecar, _, _, hok, decodes_calldata _ _ hundo _ _ hblocks hlast hu64 hstart,
      batchParamsOf_calldata hundo _ _ _, batchParamsOf_calldata hundo _ _ _, rfl⟩

end Decoder

section Sample

theorem decode_iff_test :
    Decodes testAbi testRequest (proposeBatchCalldata testAbi testRequest 0 0 []) ∧
      ∃ input sidecar, proposeBatchBlobs testAbi pointAtInfinity testRequest 0 0 [] =
          .ok (input, sidecar) ∧
        Decodes testAbi testRequest input := by
  obtain ⟨hcalldata, hblobs⟩ := (@decode_iff testAbi pointAtInfinity testRequest 0 0 []
    testAbi_undoes pointAtInfinity_accepts (by decide) (by decide) (by decide)).mpr (by decide)
  obtain ⟨input, sidecar, -, -, hok, hdecodes, -⟩ := hblobs (by decide)
  exact ⟨hcalldata, input, sidecar, hok, hdecodes⟩

/-- The batch of block 0 alone. -/
def genesisRequest : ProposeBatchParams := { blockParams := [⟨0, 0, []⟩] }

theorem genesis_overflows :
    genesisRequest.endBlockNum =
        genesisRequest.startBlockNum + genesisRequest.blockParams.length - 1 ∧
      decodeProposeBatchWithExpectedLastBlockIdCall testAbi true
        (proposeBatchCalldata testAbi genesisRequest 0 0 []) = .error .subtractOverflow :=
  ⟨rfl, decode_overflows 0 0 testAbi_undoes _ _ rfl (by decide) rfl⟩

end Sample

end TaikoGateway
