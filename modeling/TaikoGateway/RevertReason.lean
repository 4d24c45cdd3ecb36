/-
TaikoGateway/RevertReason.lean

Why L1 reverts a proposal, as read from the text of an error
(`extract_revert_reason`, `RevertReason::try_from`).  The data of the revert is
the hex text between the first `data: "0x` and the quote behind it; the inbox,
the whitelist and the router are asked in this order what it says.

`attemptError` is the whole of what `propose_batch` makes of the text of an
error; without a revert it is what the pool of the node says
(`FailReason.attemptError`).  `onError_attemptError` says which texts end the
loop, and how it goes on after every revert of the three contracts.
-/
import TaikoGateway.FailReason
import TaikoGateway.Lib.Bytes
import TaikoGateway.Lib.Hex

namespace TaikoGateway

open Text

/-! ### The errors of the contracts -/

/-- An error in the ABI of a contract; its data starts with the selector. -/
structure ErrorAbi where
  name : String
  selector : ByteArr 4
  deriving DecidableEq

def errorAbi (name : String) (a b c d : UInt8) : ErrorAbi := ⟨name, ⟨[a, b, c, d], rfl⟩⟩

/-- The errors of the inbox. -/
inductive TaikoL1Errors
  | accessDenied | anchorBlockIdSmallerThanParent | anchorBlockIdTooLarge
  | anchorBlockIdTooSmall | arraySizesMismatch | batchNotFound | batchVerified
  | beyondCurrentFork | blobNotFound | blobNotSpecified | blockNotFound | contractPaused
  | customProposerMissing | customProposerNotAllowed | ethTransferFailed | etherNotPaidAsBond
  | funcNotImplemented | firstBlockTimeShiftNotZero | forkNotActivated | invalidPauseStatus
  | insufficientBond | invalidBlobCreatedIn | invalidBlobParams | invalidGenesisBlockHash
  | invalidParams | invalidTransitionBlockHash | invalidTransitionParentHash
  | invalidTransitionStateRoot | metaHashMismatch | msgValueNotZero | noBlocksToProve
  | notFirstProposal | notInboxWrapper | parentMetaHashMismatch | reentrantCall
  | resolverNotFound | sameTransition | signalNotSent | timestampSmallerThanParent
  | timestampTooLarge | timestampTooSmall | tooManyBatches | tooManyBlocks | tooManySignals
  | transitionNotFound | zeroAddress | zeroValue | zeroAnchorBlockHash
  deriving DecidableEq, Repr

/-- The errors of the whitelist. -/
inductive PreconfWhitelistErrors
  | accessDenied | funcNotImplemented | invalidPauseStatus | invalidOperatorAddress
  | invalidOperatorCount | invalidOperatorIndex | operatorAlreadyExists
  | operatorAlreadyRemoved | operatorNotAvailableYet | reentrantCall | resolverNotFound
  | zeroAddress | zeroValue
  deriving DecidableEq, Repr

/-- The errors of the router. -/
inductive PreconfRouterErrors
  | accessDenied | funcNotImplemented | forcedInclusionNotSupported | invalidPauseStatus
  | invalidLastBlockId (actual expected : Fin (2 ^ 96)) | notPreconferOrFallback
  | proposerIsNotPreconfer | reentrantCall | resolverNotFound | zeroAddress | zeroValue
  deriving DecidableEq, Repr

def TaikoL1Errors.abi : TaikoL1Errors → ErrorAbi
  | .accessDenied => errorAbi "ACCESS_DENIED" 0x95 0x38 0x3e 0xa1
  | .anchorBlockIdSmallerThanParent => errorAbi "AnchorBlockIdSmallerThanParent" 0xfe 0x16 0x98 0xb2
  | .anchorBlockIdTooLarge => errorAbi "AnchorBlockIdTooLarge" 0x7f 0x14 0xda 0xf8
  | .anchorBlockIdTooSmall => errorAbi "AnchorBlockIdTooSmall" 0x46 0xaf 0xbf 0x54
  | .arraySizesMismatch => errorAbi "ArraySizesMismatch" 0x83 0xc7 0xec 0xa6
  | .batchNotFound => errorAbi "BatchNotFound" 0x9e 0x15 0xe1 0xbc
  | .batchVerified => errorAbi "BatchVerified" 0xc6 0x3c 0x8b 0xfd
  | .beyondCurrentFork => errorAbi "BeyondCurrentFork" 0x88 0x79 0xee 0x78
  | .blobNotFound => errorAbi "BlobNotFound" 0xf7 0x65 0xf4 0x5e
  | .blobNotSpecified => errorAbi "BlobNotSpecified" 0xf9 0x11 0x43 0x8d
  | .blockNotFound => errorAbi "BlockNotFound" 0xfe 0xb3 0x2e 0xbd
  | .contractPaused => errorAbi "ContractPaused" 0xab 0x35 0x69 0x6f
  | .customProposerMissing => errorAbi "CustomProposerMissing" 0x10 0x21 0x3a 0xd7
  | .customProposerNotAllowed => errorAbi "CustomProposerNotAllowed" 0xc2 0x5c 0x48 0xe2
  | .ethTransferFailed => errorAbi "ETH_TRANSFER_FAILED" 0x98 0xce 0x26 0x9a
  | .etherNotPaidAsBond => errorAbi "EtherNotPaidAsBond" 0x01 0x8a 0xd7 0xd6
  | .funcNotImplemented => errorAbi "FUNC_NOT_IMPLEMENTED" 0x18 0x57 0x1f 0x1e
  | .firstBlockTimeShiftNotZero => errorAbi "FirstBlockTimeShiftNotZero" 0x32 0x4d 0x60 0x78
  | .forkNotActivated => errorAbi "ForkNotActivated" 0x0d 0xb2 0x61 0x69
  | .invalidPauseStatus => errorAbi "INVALID_PAUSE_STATUS" 0xba 0xe6 0xe2 0xa9
  | .insufficientBond => errorAbi "InsufficientBond" 0xe9 0x2c 0x46 0x9f
  | .invalidBlobCreatedIn => errorAbi "InvalidBlobCreatedIn" 0x0f 0x49 0xf0 0x66
  | .invalidBlobParams => errorAbi "InvalidBlobParams" 0x26 0x77 0xeb 0xff
  | .invalidGenesisBlockHash => errorAbi "InvalidGenesisBlockHash" 0xcd 0x21 0xcd 0x43
  | .invalidParams => errorAbi "InvalidParams" 0xa8 0x6b 0x65 0x12
  | .invalidTransitionBlockHash => errorAbi "InvalidTransitionBlockHash" 0xac 0x97 0xcf 0xc7
  | .invalidTransitionParentHash => errorAbi "InvalidTransitionParentHash" 0x19 0xea 0xd3 0x41
  | .invalidTransitionStateRoot => errorAbi "InvalidTransitionStateRoot" 0x6c 0x01 0x18 0xeb
  | .metaHashMismatch => errorAbi "MetaHashMismatch" 0x41 0x9b 0x53 0xb7
  | .msgValueNotZero => errorAbi "MsgValueNotZero" 0x79 0x8e 0xe6 0xf1
  | .noBlocksToProve => errorAbi "NoBlocksToProve" 0x36 0x7b 0x91 0xca
  | .notFirstProposal => errorAbi "NotFirstProposal" 0x09 0xe2 0x9f 0xae
  | .notInboxWrapper => errorAbi "NotInboxWrapper" 0x5e 0x9e 0x44 0x49
  | .parentMetaHashMismatch => errorAbi "ParentMetaHashMismatch" 0xff 0x62 0x6f 0x77
  | .reentrantCall => errorAbi "REENTRANT_CALL" 0xdf 0xc6 0x0d 0x85
  | .resolverNotFound => errorAbi "RESOLVER_NOT_FOUND" 0x4b 0x6f 0x57 0xf5
  | .sameTransition => errorAbi "SameTransition" 0xed 0x62 0x22 0xff
  | .signalNotSent => errorAbi "SignalNotSent" 0x86 0x01 0xa5 0xfe
  | .timestampSmallerThanParent => errorAbi "TimestampSmallerThanParent" 0x21 0x38 0x9b 0x84
  | .timestampTooLarge => errorAbi "TimestampTooLarge" 0x3d 0x32 0xff 0xdb
  | .timestampTooSmall => errorAbi "TimestampTooSmall" 0x19 0x99 0xae 0xd2
  | .tooManyBatches => errorAbi "TooManyBatches" 0xa4 0x64 0x21 0x4b
  | .tooManyBlocks => errorAbi "TooManyBlocks" 0x7f 0x06 0xd5 0x7a
  | .tooManySignals => errorAbi "TooManySignals" 0xc5 0x77 0xd3 0x83
  | .transitionNotFound => errorAbi "TransitionNotFound" 0x76 0xbe 0x38 0xbc
  | .zeroAddress => errorAbi "ZERO_ADDRESS" 0x53 0x8b 0xa4 0xf9
  | .zeroValue => errorAbi "ZERO_VALUE" 0xec 0x73 0x29 0x59
  | .zeroAnchorBlockHash => errorAbi "ZeroAnchorBlockHash" 0x2b 0x44 0xf0 0x10

def PreconfWhitelistErrors.abi : PreconfWhitelistErrors → ErrorAbi
  | .accessDenied => errorAbi "ACCESS_DENIED" 0x95 0x38 0x3e 0xa1
  | .funcNotImplemented => errorAbi "FUNC_NOT_IMPLEMENTED" 0x18 0x57 0x1f 0x1e
  | .invalidPauseStatus => errorAbi "INVALID_PAUSE_STATUS" 0xba 0xe6 0xe2 0xa9
  | .invalidOperatorAddress => errorAbi "InvalidOperatorAddress" 0xeb 0x32 0xd3 0xbf
  | .invalidOperatorCount => errorAbi "InvalidOperatorCount" 0x7d 0x94 0x3b 0x8f
  | .invalidOperatorIndex => errorAbi "InvalidOperatorIndex" 0x03 0xf4 0xa7 0x8e
  | .operatorAlreadyExists => errorAbi "OperatorAlreadyExists" 0x28 0x9c 0x94 0x94
  | .operatorAlreadyRemoved => errorAbi "OperatorAlreadyRemoved" 0x86 0x31 0xca 0xc0
  | .operatorNotAvailableYet => errorAbi "OperatorNotAvailableYet" 0x83 0x73 0x8f 0x36
  | .reentrantCall => errorAbi "REENTRANT_CALL" 0xdf 0xc6 0x0d 0x85
  | .resolverNotFound => errorAbi "RESOLVER_NOT_FOUND" 0x4b 0x6f 0x57 0xf5
  | .zeroAddress => errorAbi "ZERO_ADDRESS" 0x53 0x8b 0xa4 0xf9
  | .zeroValue => errorAbi "ZERO_VALUE" 0xec 0x73 0x29 0x59

def PreconfRouterErrors.abi : PreconfRouterErrors → ErrorAbi
  | .accessDenied => errorAbi "ACCESS_DENIED" 0x95 0x38 0x3e 0xa1
  | .funcNotImplemented => errorAbi "FUNC_NOT_IMPLEMENTED" 0x18 0x57 0x1f 0x1e
  | .forcedInclusionNotSupported => errorAbi "ForcedInclusionNotSupported" 0xa8 0x6f 0x00 0xfe
  | .invalidPauseStatus => errorAbi "INVALID_PAUSE_STATUS" 0xba 0xe6 0xe2 0xa9
  | .invalidLastBlockId _ _ => errorAbi "InvalidLastBlockId" 0x05 0x80 0xa5 0x37
  | .notPreconferOrFallback => errorAbi "NotPreconferOrFallback" 0xc0 0xec 0x4b 0x50
  | .proposerIsNotPreconfer => errorAbi "ProposerIsNotPreconfer" 0x81 0x36 0x64 0x1e
  | .reentrantCall => errorAbi "REENTRANT_CALL" 0xdf 0xc6 0x0d 0x85
  | .resolverNotFound => errorAbi "RESOLVER_NOT_FOUND" 0x4b 0x6f 0x57 0xf5
  | .zeroAddress => errorAbi "ZERO_ADDRESS" 0x53 0x8b 0xa4 0xf9
  | .zeroValue => errorAbi "ZERO_VALUE" 0xec 0x73 0x29 0x59

/-- The errors of one contract: their ABI, and the numbers an error carries. -/
class SolInterface (E : Type) where
  abi : E → ErrorAbi
  args : E → List Nat

instance : SolInterface TaikoL1Errors := ⟨TaikoL1Errors.abi, fun _ => []⟩

instance : SolInterface PreconfWhitelistErrors := ⟨PreconfWhitelistErrors.abi, fun _ => []⟩

instance : SolInterface PreconfRouterErrors where
  abi := PreconfRouterErrors.abi
  args
    | .invalidLastBlockId actual expected => [actual.val, expected.val]
    | _ => []

section Interface

variable {E : Type} [SolInterface E]

def selector (err : E) : ByteArr 4 := (SolInterface.abi err).selector

/-- The data of a revert with this error: each number takes a word. -/
def abiEncode (err : E) : List UInt8 :=
  (selector err).1 ++ (SolInterface.args err).flatMap (beBytes 32)

/-- `abi_decode`, which reads what a contract reverts with, and looks for an
error by its selector. -/
structure SolDecoder (E : Type) [SolInterface E] where
  abiDecode : List UInt8 → Option E
  abiDecode_abiEncode : ∀ err, abiDecode (abiEncode err) = some err
  selector_of_abiDecode : ∀ {data err}, abiDecode data = some err → (selector err).1 <+: data

theorem selector_abiEncode (err : E) : (selector err).1 <+: abiEncode err :=
  List.prefix_append _ _

/-- Data starts with one selector. -/
theorem selector_unique {a b : ByteArr 4} {data : List UInt8} (ha : a.1 <+: data)
    (hb : b.1 <+: data) : a = b := by
  apply Subtype.ext
  have hlength : a.1.length = b.1.length := a.2.trans b.2.symm
  exact (List.prefix_of_prefix_length_le ha hb hlength.le).eq_of_length hlength

/-- A contract does not read what starts with a selector it does not have. -/
theorem SolDecoder.abiDecode_eq_none (d : SolDecoder E) {sel : ByteArr 4} {data : List UInt8}
    (hsel : ∀ err : E, selector err ≠ sel) (hdata : sel.1 <+: data) : d.abiDecode data = none := by
  rw [Option.eq_none_iff_forall_ne_some]
  intro err herr
  exact hsel err (selector_unique (d.selector_of_abiDecode herr) hdata)

end Interface

/-! ### Extracting -/

/-- Behind it is the data of a revert. -/
def revertMarker : List Char := "data: \"0x".toList

def quote : List Char := "\"".toList

def extractRevertReason {E : Type} (abiDecode : List UInt8 → Option E) (input : List Char) :
    Option E := do
  let (_, code) ← splitOnce input revertMarker
  -- the end of the hex data
  let (hexStr, _) ← splitOnce code quote
  let bytes ← Hex.decode hexStr
  abiDecode bytes

/-- The text has this data in it. -/
def Reverts (input : List Char) (data : List UInt8) : Prop :=
  ∃ lead hexStr trail, input = lead ++ revertMarker ++ (hexStr ++ quote ++ trail) ∧
    FirstAfter revertMarker lead ∧ Hex.IsHex hexStr data

section Extract

variable {E : Type} {abiDecode : List UInt8 → Option E} {input : List Char} {data : List UInt8}
  {err : E}

theorem firstAfter_quote {hexStr : List Char} (h : Hex.IsHex hexStr data) :
    FirstAfter quote hexStr :=
  .of_notMem rfl (h.notMem (by decide) (by decide))

theorem extractRevertReason_eq_some_iff :
    extractRevertReason abiDecode input = some err ↔
      ∃ data, Reverts input data ∧ abiDecode data = some err := by
  have hmarker : revertMarker ≠ [] := by decide
  have hquote : quote ≠ [] := by decide
  simp only [extractRevertReason, Option.bind_eq_bind, Option.bind_eq_some_iff, Prod.exists,
    splitOnce_eq_some_iff hmarker, splitOnce_eq_some_iff hquote, Hex.decode_eq_some_iff]
  constructor
  · rintro ⟨lead, _, ⟨rfl, hlead⟩, hexStr, trail, ⟨rfl, -⟩, data, hdata, herr⟩
    exact ⟨data, ⟨lead, hexStr, trail, rfl, hlead, hdata⟩, herr⟩
  · rintro ⟨data, ⟨lead, hexStr, trail, rfl, hlead, hdata⟩, herr⟩
    exact ⟨lead, _, ⟨rfl, hlead⟩, hexStr, trail, ⟨rfl, firstAfter_quote hdata⟩, data, hdata, herr⟩

theorem reverts_iff : Reverts input data ↔ extractRevertReason some input = some data := by
  rw [extractRevertReason_eq_some_iff]
  constructor
  · intro h
    exact ⟨data, h, rfl⟩
  · rintro ⟨data', h, hdata⟩
    rwa [← Option.some.inj hdata]

/-- Nothing is read from a text but the data that it has. -/
theorem extractRevertReason_of_reverts (h : Reverts input data)
    (abiDecode : List UInt8 → Option E) : extractRevertReason abiDecode input = abiDecode data := by
  apply Option.ext
  intro err
  rw [extractRevertReason_eq_some_iff]
  constructor
  · rintro ⟨data', h', herr⟩
    rwa [← Option.some.inj ((reverts_iff.mp h').symm.trans (reverts_iff.mp h))]
  · intro herr
    exact ⟨data, h, herr⟩

theorem extractRevertReason_eq_none (h : ∀ data, ¬ Reverts input data)
    (abiDecode : List UInt8 → Option E) : extractRevertReason abiDecode input = none := by
  rw [Option.eq_none_iff_forall_ne_some]
  intro err herr
  obtain ⟨data, hdata, -⟩ := extractRevertReason_eq_some_iff.mp herr
  exact h data hdata

end Extract

/-! ### The three contracts -/

inductive RevertReason
  | taikoL1 (err : TaikoL1Errors)
  | preconfWhitelist (err : PreconfWhitelistErrors)
  | preconfRouter (err : PreconfRouterErrors)
  deriving DecidableEq, Repr

structure ContractDecoders where
  taikoL1 : SolDecoder TaikoL1Errors
  preconfWhitelist : SolDecoder PreconfWhitelistErrors
  preconfRouter : SolDecoder PreconfRouterErrors

namespace RevertReason

open ProposeBatch (AttemptError LoopVars AfterError)

/-- `RevertReason::try_from`. -/
def tryFrom (d : ContractDecoders) (value : List Char) : Option RevertReason :=
  match extractRevertReason d.taikoL1.abiDecode value with
  | some err => some (.taikoL1 err)
  | none =>
      match extractRevertReason d.preconfWhitelist.abiDecode value with
      | some err => some (.preconfWhitelist err)
      | none =>
          match extractRevertReason d.preconfRouter.abiDecode value with
          | some err => some (.preconfRouter err)
          | none => none

/-- The text of an error, for the logs. -/
def debug (abi : ErrorAbi) : String := abi.name ++ "(" ++ abi.name ++ ")"

/-- What `propose_batch` makes of a revert. -/
def toAttemptError : RevertReason → AttemptError
  | .taikoL1 .timestampTooLarge => .timestampTooLarge
  | .taikoL1 err => .other ("unhandled TaikoInbox revert: " ++ debug err.abi)
  | .preconfRouter .notPreconferOrFallback => .notPreconferOrFallback
  | .preconfRouter (.invalidLastBlockId actual expected) =>
      .invalidLastBlockId actual.val expected.val
  | .preconfRouter err => .other ("unhandled PreconfRouter revert: " ++ debug err.abi)
  | .preconfWhitelist err => .other ("unhandled PreconfWhitelist revert: " ++ debug err.abi)

/-- What `propose_batch` makes of the text of an error. -/
def attemptError (d : ContractDecoders) (u : CaseTable) (errStr : String) : AttemptError :=
  match tryFrom d errStr.toList with
  | some reason => reason.toAttemptError
  | none => FailReason.attemptError u errStr

/-- The router refuses the batch for good: it is not our turn, or L1 is past the
last block of the batch. -/
def GivesUp : PreconfRouterErrors → Prop
  | .notPreconferOrFallback => True
  | .invalidLastBlockId actual expected => expected < actual
  | _ => False

/-- What a contract reverts with. -/
def data : RevertReason → List UInt8
  | .taikoL1 err => abiEncode err
  | .preconfWhitelist err => abiEncode err
  | .preconfRouter err => abiEncode err

/-- How the loop is to go on after a revert. -/
def verdict (vars : LoopVars) : RevertReason → AfterError
  | .taikoL1 .timestampTooLarge => .retry vars
  | .preconfRouter .notPreconferOrFallback => .stop
  | .preconfRouter (.invalidLastBlockId actual expected) =>
      if expected < actual then .stop else vars.countRetry
  | _ => vars.countRetry

section Verdict

variable {d : ContractDecoders} {u : CaseTable} {vars : LoopVars} {input : List Char}
  {errStr : String} {data : List UInt8} {err : PreconfRouterErrors}

theorem onError_toAttemptError (vars : LoopVars) (reason : RevertReason) :
    vars.onError reason.toAttemptError = reason.verdict vars := by
  rcases reason with err | err | err
  · cases err <;> rfl
  · rfl
  · cases err <;> rfl

theorem countRetry_ne_stop (vars : LoopVars) : vars.countRetry ≠ .stop := by
  unfold LoopVars.countRetry
  split
  · exact AfterError.noConfusion
  · exact AfterError.noConfusion

/-- The inbox has none of the errors that give up. -/
theorem taikoL1_selector_ne (hgive : GivesUp err) (err' : TaikoL1Errors) :
    selector err' ≠ selector err := by
  cases err with
  | notPreconferOrFallback => cases err' <;> decide
  | invalidLastBlockId actual expected =>
      show selector err' ≠ (errorAbi "InvalidLastBlockId" 0x05 0x80 0xa5 0x37).selector
      cases err' <;> decide
  | _ => exact hgive.elim

/-- Nor has the whitelist. -/
theorem preconfWhitelist_selector_ne (hgive : GivesUp err) (err' : PreconfWhitelistErrors) :
    selector err' ≠ selector err := by
  cases err with
  | notPreconferOrFallback => cases err' <;> decide
  | invalidLastBlockId actual expected =>
      show selector err' ≠ (errorAbi "InvalidLastBlockId" 0x05 0x80 0xa5 0x37).selector
      cases err' <;> decide
  | _ => exact hgive.elim

/-- Only the inbox reverts with a timestamp that is too large. -/
theorem ne_timestampTooLarge {reason : RevertReason} {err' : TaikoL1Errors}
    (hreason : ∀ e, reason ≠ .taikoL1 e) (hsel : (selector err').1 <+: reason.data) :
    err' ≠ .timestampTooLarge := by
  rintro rfl
  cases reason with
  | taikoL1 e => exact hreason e rfl
  | preconfWhitelist e =>
      have hsame := selector_unique hsel (selector_abiEncode e)
      revert hsame
      cases e <;> decide
  | preconfRouter e =>
      have hsame := selector_unique hsel (selector_abiEncode e)
      cases e with
      | invalidLastBlockId actual expected =>
          have hne : selector TaikoL1Errors.timestampTooLarge ≠
              (errorAbi "InvalidLastBlockId" 0x05 0x80 0xa5 0x37).selector := by decide
          exact hne hsame
      | _ => exact absurd hsame (by decide)

theorem verdict_taikoL1 {err : TaikoL1Errors} (h : err ≠ .timestampTooLarge) :
    (taikoL1 err).verdict vars = vars.countRetry := by
  cases err with
  | timestampTooLarge => exact absurd rfl h
  | _ => rfl

theorem verdict_preconfRouter (h : ¬ GivesUp err) :
    (preconfRouter err).verdict vars = vars.countRetry := by
  cases err with
  | notPreconferOrFallback => exact absurd trivial h
  | invalidLastBlockId actual expected => exact if_neg h
  | _ => rfl

theorem verdict_eq_stop_iff {reason : RevertReason} :
    reason.verdict vars = .stop ↔ ∃ err, reason = .preconfRouter err ∧ GivesUp err := by
  have hcount := countRetry_ne_stop vars
  cases reason with
  | taikoL1 err =>
      refine iff_of_false ?_ (fun ⟨e, he, _⟩ => by cases he)
      by_cases herr : err = .timestampTooLarge
      · rw [herr]
        exact AfterError.noConfusion
      · rwa [verdict_taikoL1 herr]
  | preconfWhitelist err => exact iff_of_false hcount (fun ⟨e, he, _⟩ => by cases he)
  | preconfRouter err =>
      by_cases hgive : GivesUp err
      · refine iff_of_true ?_ ⟨err, rfl, hgive⟩
        cases err with
        | notPreconferOrFallback => rfl
        | invalidLastBlockId actual expected => exact if_pos hgive
        | _ => exact hgive.elim
      · rw [verdict_preconfRouter hgive]
        refine iff_of_false hcount ?_
        rintro ⟨e, he, hgive'⟩
        cases he
        exact hgive hgive'

/-- The contracts are asked for data in this order. -/
def read (d : ContractDecoders) (data : List UInt8) : Option RevertReason :=
  ((d.taikoL1.abiDecode data).map taikoL1).or
    (((d.preconfWhitelist.abiDecode data).map preconfWhitelist).or
      ((d.preconfRouter.abiDecode data).map preconfRouter))

theorem tryFrom_of_reverts (h : Reverts input data) : tryFrom d input = read d data := by
  simp only [tryFrom, read, extractRevertReason_of_reverts h]
  cases d.taikoL1.abiDecode data with
  | some err => rfl
  | none =>
      cases d.preconfWhitelist.abiDecode data with
      | some err => rfl
      | none => cases d.preconfRouter.abiDecode data <;> rfl

theorem tryFrom_eq_none (h : ∀ data, ¬ Reverts input data) : tryFrom d input = none := by
  simp only [tryFrom, extractRevertReason_eq_none h]

/-- What the router gives up on, only the router reads. -/
theorem read_of_givesUp (h : d.preconfRouter.abiDecode data = some err) (hgive : GivesUp err) :
    read d data = some (.preconfRouter err) := by
  have hsel := d.preconfRouter.selector_of_abiDecode h
  have hinbox := d.taikoL1.abiDecode_eq_none (taikoL1_selector_ne hgive) hsel
  have hwhitelist := d.preconfWhitelist.abiDecode_eq_none (preconfWhitelist_selector_ne hgive) hsel
  rw [read, hinbox, hwhitelist, h]
  rfl

theorem abiDecode_of_read (h : read d data = some (.preconfRouter err)) :
    d.preconfRouter.abiDecode data = some err := by
  have hread : d.taikoL1.abiDecode data = none ∧ d.preconfWhitelist.abiDecode data = none ∧
      d.preconfRouter.abiDecode data = some err := by
    simpa [read, Option.or_eq_some_iff] using h
  exact hread.2.2

/-- Whichever contract reads the data of a revert, the loop goes on as it is to. -/
theorem read_data (d : ContractDecoders) (vars : LoopVars) (reason : RevertReason) :
    ∃ reason', read d reason.data = some reason' ∧
      reason'.verdict vars = reason.verdict vars := by
  cases reason with
  | taikoL1 err =>
      refine ⟨_, ?_, rfl⟩
      rw [read, data, d.taikoL1.abiDecode_abiEncode]
      rfl
  | preconfWhitelist err =>
      cases hinbox : d.taikoL1.abiDecode (preconfWhitelist err).data with
      | some err' =>
          have hne := ne_timestampTooLarge (fun e he => by cases he)
            (d.taikoL1.selector_of_abiDecode hinbox)
          refine ⟨.taikoL1 err', ?_, verdict_taikoL1 hne⟩
          rw [read, hinbox]
          rfl
      | none =>
          refine ⟨.preconfWhitelist err, ?_, rfl⟩
          rw [read, hinbox, data, d.preconfWhitelist.abiDecode_abiEncode]
          rfl
  | preconfRouter err =>
      have hrouter := d.preconfRouter.abiDecode_abiEncode err
      by_cases hgive : GivesUp err
      · exact ⟨.preconfRouter err, read_of_givesUp hrouter hgive, rfl⟩
      · rw [verdict_preconfRouter hgive]
        cases hinbox : d.taikoL1.abiDecode (preconfRouter err).data with
        | some err' =>
            have hne := ne_timestampTooLarge (fun e he => by cases he)
              (d.taikoL1.selector_of_abiDecode hinbox)
            refine ⟨.taikoL1 err', ?_, verdict_taikoL1 hne⟩
            rw [read, hinbox]
            rfl
        | none =>
            cases hwhitelist : d.preconfWhitelist.abiDecode (preconfRouter err).data with
            | some err' =>
                refine ⟨.preconfWhitelist err', ?_, rfl⟩
                rw [read, hinbox, hwhitelist]
                rfl
            | none =>
                refine ⟨.preconfRouter err, ?_, verdict_preconfRouter hgive⟩
                rw [read, hinbox, hwhitelist, data, hrouter]
                rfl

theorem onError_failReason_ne_stop (u : CaseTable) (vars : LoopVars) (errStr : String) :
    vars.onError (FailReason.attemptError u errStr) ≠ .stop := by
  intro hstop
  cases hread : FailReason.tryExtract u errStr with
  | none =>
      rw [FailReason.attemptError, hread] at hstop
      exact countRetry_ne_stop vars hstop
  | some reason =>
      rw [FailReason.attemptError, hread] at hstop
      cases reason <;> cases hstop

theorem onError_of_tryFrom {reason : RevertReason} (u : CaseTable) (vars : LoopVars)
    (h : tryFrom d errStr.toList = some reason) :
    vars.onError (attemptError d u errStr) = reason.verdict vars := by
  rw [attemptError, h]
  exact onError_toAttemptError vars reason

/-- **The text of an error and the loop**: it ends on the texts with data that
the router gives up on, and on no others; every revert of the three contracts is
followed as that contract's; a text without a revert is the node's. -/
theorem onError_attemptError (d : ContractDecoders) (u : CaseTable) (vars : LoopVars)
    (errStr : String) :
    (vars.onError (attemptError d u errStr) = .stop ↔
        ∃ data err, Reverts errStr.toList data ∧ d.preconfRouter.abiDecode data = some err ∧
          GivesUp err) ∧
      (∀ reason : RevertReason, Reverts errStr.toList reason.data →
        vars.onError (attemptError d u errStr) = reason.verdict vars) ∧
      ((∀ data, ¬ Reverts errStr.toList data) →
        attemptError d u errStr = FailReason.attemptError u errStr) := by
  refine ⟨⟨?_, ?_⟩, ?_, ?_⟩
  · intro hstop
    cases hreason : tryFrom d errStr.toList with
    | none =>
        rw [attemptError, hreason] at hstop
        exact absurd hstop (onError_failReason_ne_stop u vars errStr)
    | some reason =>
        rw [onError_of_tryFrom u vars hreason, verdict_eq_stop_iff] at hstop
        obtain ⟨err, rfl, hgive⟩ := hstop
        by_cases hdata : ∃ data, Reverts errStr.toList data
        · obtain ⟨data, hdata⟩ := hdata
          rw [tryFrom_of_reverts hdata] at hreason
          exact ⟨data, err, hdata, abiDecode_of_read hreason, hgive⟩
        · rw [tryFrom_eq_none (not_exists.mp hdata)] at hreason
          cases hreason
  · rintro ⟨data, err, hdata, hdecode, hgive⟩
    have hreason := (tryFrom_of_reverts hdata).trans (read_of_givesUp hdecode hgive)
    rw [onError_of_tryFrom u vars hreason]
    exact verdict_eq_stop_iff.mpr ⟨err, rfl, hgive⟩
  · intro reason hdata
    obtain ⟨reason', hread, hverdict⟩ := read_data d vars reason
    rw [onError_of_tryFrom u vars ((tryFrom_of_reverts hdata).trans hread), hverdict]
  · intro hnone
    rw [attemptError, tryFrom_eq_none hnone]

end Verdict

section Sample

/-- Errors without numbers, found by their selectors. -/
def findError {E : Type} [SolInterface E] (all : List E) (data : List UInt8) : Option E :=
  all.find? fun err => (selector err).1.isPrefixOf data

theorem selector_of_findError {E : Type} [SolInterface E] {all : List E} {data : List UInt8}
    {err : E} (h : findError all data = some err) : (selector err).1 <+: data := by
  unfold findError at h
  have hstart := List.find?_some h
  exact List.isPrefixOf_iff_prefix.mp hstart

def sampleTaikoL1 : SolDecoder TaikoL1Errors where
  abiDecode := findError
    [.accessDenied, .anchorBlockIdSmallerThanParent, .anchorBlockIdTooLarge,
      .anchorBlockIdTooSmall, .arraySizesMismatch, .batchNotFound, .batchVerified,
      .beyondCurrentFork, .blobNotFound, .blobNotSpecified, .blockNotFound, .contractPaused,
      .customProposerMissing, .customProposerNotAllowed, .ethTransferFailed, .etherNotPaidAsBond,
      .funcNotImplemented, .firstBlockTimeShiftNotZero, .forkNotActivated, .invalidPauseStatus,
      .insufficientBond, .invalidBlobCreatedIn, .invalidBlobParams, .invalidGenesisBlockHash,
      .invalidParams, .invalidTransitionBlockHash, .invalidTransitionParentHash,
      .invalidTransitionStateRoot, .metaHashMismatch, .msgValueNotZero, .noBlocksToProve,
      .notFirstProposal, .notInboxWrapper, .parentMetaHashMismatch, .reentrantCall,
      .resolverNotFound, .sameTransition, .signalNotSent, .timestampSmallerThanParent,
      .timestampTooLarge, .timestampTooSmall, .tooManyBatches, .tooManyBlocks, .tooManySignals,
      .transitionNotFound, .zeroAddress, .zeroValue, .zeroAnchorBlockHash]
  abiDecode_abiEncode err := by cases err <;> rfl
  selector_of_abiDecode := selector_of_findError

def samplePreconfWhitelist : SolDecoder PreconfWhitelistErrors where
  abiDecode := findError
    [.accessDenied, .funcNotImplemented, .invalidPauseStatus, .invalidOperatorAddress,
      .invalidOperatorCount, .invalidOperatorIndex, .operatorAlreadyExists,
      .operatorAlreadyRemoved, .operatorNotAvailableYet, .reentrantCall, .resolverNotFound,
      .zeroAddress, .zeroValue]
  abiDecode_abiEncode err := by cases err <;> rfl
  selector_of_abiDecode := selector_of_findError

/-- The selector of `InvalidLastBlockId`. -/
def lastBlockIdSelector : List UInt8 := [0x05, 0x80, 0xa5, 0x37]

def decodePreconfRouter (data : List UInt8) : Option PreconfRouterErrors :=
  if lastBlockIdSelector.isPrefixOf data then
    if 64 ≤ (data.drop 4).length then
      some (.invalidLastBlockId (Fin.ofNat _ (ofBytes ((data.drop 4).take 32)))
        (Fin.ofNat _ (ofBytes (((data.drop 4).drop 32).take 32))))
    else none
  else
    findError
      [.accessDenied, .funcNotImplemented, .forcedInclusionNotSupported, .invalidPauseStatus,
        .notPreconferOrFallback, .proposerIsNotPreconfer, .reentrantCall, .resolverNotFound,
        .zeroAddress, .zeroValue] data

theorem decodePreconfRouter_lastBlockId (actual expected : Fin (2 ^ 96)) :
    decodePreconfRouter (abiEncode (PreconfRouterErrors.invalidLastBlockId actual expected)) =
      some (.invalidLastBlockId actual expected) := by
  have hdata : abiEncode (PreconfRouterErrors.invalidLastBlockId actual expected) =
      lastBlockIdSelector ++ (beBytes 32 actual.val ++ (beBytes 32 expected.val ++ [])) := rfl
  have hactual : ofBytes (beBytes 32 actual.val) = actual.val := ofBytes_beBytes (by omega)
  have hexpected : ofBytes (beBytes 32 expected.val) = expected.val := ofBytes_beBytes (by omega)
  have hlength := length_beBytes 32
  have hstart : lastBlockIdSelector.isPrefixOf (lastBlockIdSelector ++
      (beBytes 32 actual.val ++ beBytes 32 expected.val)) = true :=
    List.isPrefixOf_iff_prefix.mpr (List.prefix_append _ _)
  have hlong : 64 ≤ (beBytes 32 actual.val ++ beBytes 32 expected.val).length := by
    simp only [List.length_append, hlength]
    exact le_refl 64
  rw [hdata, List.append_nil, decodePreconfRouter, if_pos hstart,
    List.drop_left' (show lastBlockIdSelector.length = 4 from rfl), if_pos hlong,
    List.take_left' (hlength _), List.drop_left' (hlength _),
    List.take_of_length_le (hlength _).le, hactual, hexpected, Fin.ofNat_val_eq_self,
    Fin.ofNat_val_eq_self]

def samplePreconfRouter : SolDecoder PreconfRouterErrors where
  abiDecode := decodePreconfRouter
  abiDecode_abiEncode err := by
    cases err with
    | invalidLastBlockId actual expected => exact decodePreconfRouter_lastBlockId actual expected
    | _ => rfl
  selector_of_abiDecode {data err} h := by
    rw [decodePreconfRouter] at h
    split at h
    · rename_i hpre
      split at h
      · cases h
        exact List.isPrefixOf_iff_prefix.mp hpre
      · cases h
    · exact selector_of_findError h

def sampleDecoders : ContractDecoders :=
  ⟨sampleTaikoL1, samplePreconfWhitelist, samplePreconfRouter⟩

theorem onError_attemptError_sample :
    (∀ vars : LoopVars, vars.onError (attemptError sampleDecoders FailReason.sampleTable
        ("server returned an error response: error code 3: execution reverted, data: " ++
          "\"0x0580A537000000000000000000000000000000000000000000000000000000000001E274" ++
          "000000000000000000000000000000000000000000000000000000000001e2c6\"")) =
      vars.countRetry) ∧
    ∀ vars : LoopVars, vars.onError (attemptError sampleDecoders FailReason.sampleTable
        ("server returned an error response: error code 3: execution reverted, data: " ++
          "\"0xc0ec4b50\"")) = .stop := by
  constructor
  · intro vars
    have hverdict := onError_attemptError sampleDecoders FailReason.sampleTable vars
    apply (hverdict _).2.1 (.preconfRouter (.invalidLastBlockId 123508 123590))
    rw [reverts_iff]
    decide +kernel
  · intro vars
    have hverdict := onError_attemptError sampleDecoders FailReason.sampleTable vars
    apply (hverdict _).2.1 (.preconfRouter .notPreconferOrFallback)
    rw [reverts_iff]
    decide +kernel

end Sample

end RevertReason

end TaikoGateway
