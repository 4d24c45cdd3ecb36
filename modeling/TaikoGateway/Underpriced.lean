/-
TaikoGateway/Underpriced.lean

Underpriced errors in one call of `propose_batch`.  They are repeated without
counting a retry, so only the caps bound them: an error that names a cap sets
it to twice the fee of the queued transaction, and nothing resets it.

Main result (`underpriced_bounded`): if the node names a cap only when it is
offered less than twice the queued fee, every attempt after an error offers
enough in the cap it named, so the errors name different caps and are at most
three.  It needs that the fees leave room for the buffer in `u128`: a cap of
2^121 already overflows (`underpriced_overflow`).

An underpriced error that names no cap changes nothing and is repeated
forever; nothing is said about those.
-/
import TaikoGateway.Fees

namespace TaikoGateway.ProposeBatch

/-! ### Caps -/

/-- The fees that an underpriced error can name. -/
inductive Cap
  | tip
  | gasFee
  | blobFee
  deriving DecidableEq, Repr

instance : Fintype Cap := ⟨{.tip, .gasFee, .blobFee}, fun cap => by cases cap <;> decide⟩

/-- The cap that an error names, and the fee of the queued transaction. -/
def AttemptError.underpriced : AttemptError → Option (Cap × Nat)
  | .underpricedTipCap _ queued => some (.tip, queued)
  | .underpricedGasFeeCap _ queued => some (.gasFee, queued)
  | .underpricedBlobFeeCap _ queued => some (.blobFee, queued)
  | _ => none

def LoopVars.cap (v : LoopVars) : Cap → Option Nat
  | .tip => v.tipCap
  | .gasFee => v.gasFeeCap
  | .blobFee => v.blobFeeCap

/-- What a transaction offers in a cap. -/
def TxEnvelope.offer (tx : TxEnvelope) : Cap → Option Nat
  | .tip => some tx.maxPriorityFeePerGas
  | .gasFee => some tx.maxFeePerGas
  | .blobFee => tx.maxFeePerBlobGas

/-- An error sets the cap that it names and no other. -/
theorem LoopVars.onError_cap {v v' : LoopVars} {err : AttemptError} (h : v.onError err = .retry v')
    (cap : Cap) :
    v'.cap cap = match err.underpriced with
      | some (named, queued) => if named = cap then some (u128 (2 * queued)) else v.cap cap
      | none => v.cap cap := by
  cases err with
  | invalidLastBlockId actual expected =>
      simp only [LoopVars.onError] at h
      split at h
      · cases h
      · rw [countRetry_eq_retry h]; cases cap <;> rfl
  | other err => rw [countRetry_eq_retry h]; cases cap <;> rfl
  | notPreconferOrFallback => cases h
  | txNotIncludedInNextBlocks => cases h; cases cap <;> rfl
  | timestampTooLarge => cases h; rfl
  | underpricedTipCap sent queued => cases h; cases cap <;> rfl
  | underpricedBlobFeeCap sent queued => cases h; cases cap <;> rfl
  | underpricedGasFeeCap sent queued => cases h; cases cap <;> rfl
  | underpricedUnknown => cases h; rfl

namespace Call

variable {call : Call} {v v' : LoopVars} {a : Attempt} {tx : TxEnvelope}

/-- The cap named by the error of an attempt, if it fails with one. -/
def named (call : Call) (v : LoopVars) (a : Attempt) : Option (Cap × Nat) :=
  (call.proposeOneBatch v a).2.abort.bind AttemptError.underpriced

/-- An attempt itself writes no cap. -/
theorem proposeOneBatch_cap (call : Call) (v : LoopVars) (a : Attempt) (cap : Cap) :
    (call.proposeOneBatch v a).1.cap cap = v.cap cap := by
  unfold proposeOneBatch
  cases a.nonce with
  | error err => rfl
  | ok nonce =>
      dsimp only
      split
      · rfl
      · split <;> cases cap <;> rfl

/-- What an attempt and its error do to the caps. -/
theorem attempt_cap (h : call.attempt v a = .ok v') (cap : Cap) :
    v'.cap cap = match call.named v a with
      | some (named, queued) => if named = cap then some (u128 (2 * queued)) else v.cap cap
      | none => v.cap cap := by
  have hsame := call.proposeOneBatch_cap v a cap
  unfold attempt at h
  unfold named
  rcases hone : call.proposeOneBatch v a with ⟨used, err | ok⟩
  · rw [hone] at h hsame
    cases hnext : used.onError err with
    | stop => simp [hnext, AfterError.next] at h
    | panic => simp [hnext, AfterError.next] at h
    | retry vars =>
        obtain rfl : vars = v' := by simpa [hnext, AfterError.next] using h
        rw [LoopVars.onError_cap hnext cap]
        simp [Except.abort, (hsame : used.cap cap = v.cap cap)]
  · rw [hone] at h
    cases h

end Call

/-! ### What a set cap is worth -/

theorem le_bumped {fee : Nat} (h : fee < 2 ^ 127) (bumpFees : Bool) :
    fee ≤ bumped bumpFees fee := by
  rw [bumped_of_lt h]
  unfold bumpFactor
  split <;> omega

/-- With its buffer a cap is not below itself. -/
theorem le_cappedFee {cap : Nat} (h : cap * bufferPercentage < 2 ^ 128) (estimate : Nat) :
    cap ≤ cappedFee (some cap) estimate := by
  rw [cappedFee_some, buffered_of_lt h, withBuffer, bufferPercentage]
  omega

theorem cappedMaxFee_some {cap : Nat} (h : cap < 2 ^ 127) (estimate : Nat) :
    cappedMaxFee (some cap) estimate = cap + 1 :=
  u128_of_lt (by omega)

/-- The fees of the queued transaction leave room for the caps and their
buffers. -/
structure RoomFor (queued : Cap → Nat) : Prop where
  tip : 2 * queued .tip * bufferPercentage < 2 ^ 128
  gasFee : queued .gasFee < 2 ^ 120
  blobFee : 2 * queued .blobFee * bufferPercentage < 2 ^ 128

theorem RoomFor.u128_eq {queued : Cap → Nat} (h : RoomFor queued) (cap : Cap) :
    u128 (2 * queued cap) = 2 * queued cap := by
  obtain ⟨htip, hgasFee, hblobFee⟩ := h
  rw [bufferPercentage] at htip hblobFee
  cases cap <;> exact u128_of_lt (by omega)

/-- The transaction offers at least twice the fee of the queued one. -/
def TxEnvelope.OffersTwice (tx : TxEnvelope) (queued : Cap → Nat) (cap : Cap) : Prop :=
  ∃ offered, tx.offer cap = some offered ∧ 2 * queued cap ≤ offered

namespace Call

variable {call : Call} {queued : Cap → Nat} {v v' : LoopVars} {a : Attempt} {tx : TxEnvelope}
  {cap : Cap}

/-- The cap is set to twice the fee of the queued transaction, and the call
sends transactions that have it. -/
structure Settled (call : Call) (queued : Cap → Nat) (v : LoopVars) (cap : Cap) : Prop where
  cap_eq : v.cap cap = some (2 * queued cap)
  sidecar : cap = .blobFee → call.sidecar.isSome

/-- A settled cap is offered in every transaction, whatever the estimate, the
bump and the minimum fee are. -/
theorem Settled.offersTwice (h : call.Settled queued v cap) (hroom : RoomFor queued)
    (hbuilt : call.built v a = some tx) : tx.OffersTwice queued cap := by
  obtain ⟨hfees, blobGasFee, hblobFee⟩ := built_fees hbuilt
  cases cap with
  | tip =>
      have hcap : v.tipCap = some (2 * queued .tip) := h.cap_eq
      have htip : tx.maxPriorityFeePerGas = _ := congrArg GasFees.maxPriorityFeePerGas hfees
      refine ⟨tx.maxPriorityFeePerGas, rfl, ?_⟩
      rw [htip, hcap]
      exact (le_cappedFee hroom.tip _).trans
        ((le_bumped (cappedFee_lt _ _) _).trans (le_max_left _ _))
  | gasFee =>
      have hcap : v.gasFeeCap = some (2 * queued .gasFee) := h.cap_eq
      have hlt := hroom.gasFee
      have hmaxFee : tx.maxFeePerGas = _ := congrArg GasFees.maxFeePerGas hfees
      refine ⟨tx.maxFeePerGas, rfl, ?_⟩
      rw [hmaxFee, hcap, gasFees, cappedMaxFee_some (by omega)]
      exact (Nat.le_succ _).trans ((le_bumped (by omega) _).trans (le_max_left _ _))
  | blobFee =>
      have hcap : v.blobFeeCap = some (2 * queued .blobFee) := h.cap_eq
      obtain ⟨sidecar, hsidecar⟩ := Option.isSome_iff_exists.mp (h.sidecar rfl)
      rw [hsidecar, hcap] at hblobFee
      exact ⟨_, hblobFee, (le_cappedFee hroom.blobFee _).trans (le_bumped (cappedFee_lt _ _) _)⟩

/-- Only transactions with blobs offer a blob fee. -/
theorem sidecar_of_offer {offered : Nat} (hbuilt : call.built v a = some tx)
    (hoffer : tx.offer .blobFee = some offered) : call.sidecar.isSome := by
  obtain ⟨-, blobGasFee, hblobFee⟩ := built_fees hbuilt
  have hsome : tx.maxFeePerBlobGas = some offered := hoffer
  rw [hblobFee, Option.map_eq_some_iff] at hsome
  obtain ⟨sidecar, hsidecar, -⟩ := hsome
  exact hsidecar ▸ rfl

/-! ### Main result -/

/-- The node names a cap only when it is offered less than twice the queued
fee, which it reports exactly. -/
def Honest (call : Call) (queued : Cap → Nat) (v : LoopVars) (a : Attempt) : Prop :=
  ∀ cap fee, call.named v a = some (cap, fee) → fee = queued cap ∧
    ∃ tx offered, call.built v a = some tx ∧ tx.offer cap = some offered ∧
      offered < 2 * queued cap

def namedCap (call : Call) (v : LoopVars) (a : Attempt) : Option Cap :=
  (call.named v a).map (·.1)

theorem namedCap_eq_some_iff :
    call.namedCap v a = some cap ↔ ∃ fee, call.named v a = some (cap, fee) := by
  simp [namedCap]

/-- An honest node does not name a settled cap. -/
theorem Honest.not_settled (h : call.Honest queued v a) (hroom : RoomFor queued)
    (hnamed : call.namedCap v a = some cap) : ¬ call.Settled queued v cap := by
  intro hsettled
  obtain ⟨fee, hnamed⟩ := namedCap_eq_some_iff.mp hnamed
  obtain ⟨-, tx, offered, hbuilt, hoffer, hlt⟩ := h cap fee hnamed
  obtain ⟨offered', hoffer', hle⟩ := hsettled.offersTwice hroom hbuilt
  obtain rfl : offered = offered' := Option.some.inj (hoffer.symm.trans hoffer')
  exact absurd hlt (not_lt.mpr hle)

/-- An error settles the cap that it names, and no settled cap is lost. -/
theorem Honest.settled_step (h : call.Honest queued v a) (hroom : RoomFor queued)
    (hstep : call.attempt v a = .ok v')
    (hcap : call.Settled queued v cap ∨ call.namedCap v a = some cap) :
    call.Settled queued v' cap := by
  have hnext := attempt_cap hstep cap
  by_cases hnamed : call.namedCap v a = some cap
  · obtain ⟨fee, hnamed⟩ := namedCap_eq_some_iff.mp hnamed
    obtain ⟨rfl, tx, offered, hbuilt, hoffer, -⟩ := h cap fee hnamed
    refine ⟨?_, fun hblob => sidecar_of_offer hbuilt (hblob ▸ hoffer)⟩
    rw [hnext, hnamed]
    show (if cap = cap then some (u128 (2 * queued cap)) else v.cap cap) = _
    rw [if_pos rfl, hroom.u128_eq]
  · have hsettled := hcap.resolve_right hnamed
    refine ⟨?_, hsettled.sidecar⟩
    rw [hnext, ← hsettled.cap_eq]
    split
    · next named fee heq =>
        rw [if_neg]
        rintro rfl
        exact hnamed (namedCap_eq_some_iff.mpr ⟨fee, heq⟩)
    · rfl

/-- **Underpriced errors of one call.**  For every sequence of attempts against
an honest node: every attempt after an error that names a cap offers at least
twice the queued fee in it, and at most three attempts, of different caps, fail
with such an error. -/
theorem underpriced_bounded (call : Call) (queued : Cap → Nat) (hroom : RoomFor queued)
    (as : List Attempt)
    (hhonest : Run.Along call.attempt (fun v a _ => call.Honest queued v a) {} as) :
    Run.Along (Run.withHistory call.attempt (Run.recordName call.namedCap))
      (fun c a _ =>
        (∀ cap ∈ c.2, ∀ tx, call.built c.1 a = some tx → tx.OffersTwice queued cap) ∧
          (Run.recordName call.namedCap c.1 a c.2).Nodup ∧
          (Run.recordName call.namedCap c.1 a c.2).length ≤ 3)
      ({}, []) as := by
  have hsettled := Run.along_named_settled call.namedCap (call.Settled queued)
    (fun v a cap h hnamed => Honest.not_settled h hroom hnamed)
    (fun v a v' cap h hstep hcap => Honest.settled_step h hroom hstep hcap)
    as (by simp) List.nodup_nil hhonest
  apply Run.Along.mono _ as hsettled
  rintro ⟨v, named⟩ a ⟨hnamed, hnodup⟩
  exact ⟨fun cap hcap tx hbuilt => (hnamed cap hcap).offersTwice hroom hbuilt, hnodup,
    hnodup.length_le_card⟩

/-- An attempt that an honest node lets fail with an error that names a cap. -/
theorem honest_of_named {fee offered : Nat} (hnamed : call.named v a = some (cap, fee))
    (hfee : fee = queued cap) (hbuilt : call.built v a = some tx)
    (hoffer : tx.offer cap = some offered) (hlt : offered < 2 * queued cap) :
    call.Honest queued v a := by
  intro cap' fee' hnamed'
  rw [hnamed] at hnamed'
  cases hnamed'
  exact ⟨hfee, tx, offered, hbuilt, hoffer, hlt⟩

def sampleQueued : Cap → Nat
  | .tip => 2000000000
  | .gasFee => 30000000000
  | .blobFee => 10000000

/-- The fourth attempt after an error for each cap. -/
theorem underpriced_bounded_sample :
    let attempts : List Attempt :=
      [⟨.ok 5, sampleAnswers, .failed (.underpricedTipCap 1400000000 2000000000)⟩,
        ⟨.ok 5, sampleAnswers, .failed (.underpricedBlobFeeCap 7000000 10000000)⟩,
        ⟨.ok 5, sampleAnswers, .failed (.underpricedGasFeeCap 28000000000 30000000000)⟩,
        ⟨.ok 5, sampleAnswers, .receipt true⟩]
    Run.Along (Run.withHistory sampleCall.attempt (Run.recordName sampleCall.namedCap))
      (fun c a _ =>
        (∀ cap ∈ c.2, ∀ tx, sampleCall.built c.1 a = some tx → tx.OffersTwice sampleQueued cap) ∧
          (Run.recordName sampleCall.namedCap c.1 a c.2).Nodup ∧
          (Run.recordName sampleCall.namedCap c.1 a c.2).length ≤ 3)
      ({}, []) attempts := by
  apply underpriced_bounded sampleCall sampleQueued ⟨by decide, by decide, by decide⟩ _
  refine ⟨honest_of_named rfl rfl rfl rfl (by decide), fun v hv => ?_⟩
  cases hv
  refine ⟨honest_of_named rfl rfl rfl rfl (by decide), fun v hv => ?_⟩
  cases hv
  refine ⟨honest_of_named rfl rfl rfl rfl (by decide), fun v hv => ?_⟩
  cases hv
  refine ⟨fun cap fee hnamed => ?_, fun v hv => by cases hv⟩
  cases hnamed

/-- A tip and a blob fee of `2 ^ 120 - 1`: the buffers of both caps overflow,
the next attempts offer too little again, and four of them fail. -/
theorem underpriced_overflow :
    ∃ (call : Call) (queued : Cap → Nat) (as : List Attempt) (c : LoopVars × List Cap),
      (∀ cap, queued cap < 2 ^ 120) ∧
      Run.Along call.attempt (fun v a _ => call.Honest queued v a) {} as ∧
      as.foldlM (Run.withHistory call.attempt (Run.recordName call.namedCap)) ({}, []) = .ok c ∧
      c.2 = [.blobFee, .tip, .blobFee, .tip] := by
  let tipAttempt : Attempt :=
    ⟨.ok 5, sampleAnswers, .failed (.underpricedTipCap 0 (2 ^ 120 - 1))⟩
  let blobAttempt : Attempt :=
    ⟨.ok 5, sampleAnswers, .failed (.underpricedBlobFeeCap 0 (2 ^ 120 - 1))⟩
  let queued : Cap → Nat := fun _ => 2 ^ 120 - 1
  refine ⟨sampleCall, queued, [tipAttempt, blobAttempt, tipAttempt, blobAttempt], _,
    fun _ => by decide, ?_, rfl, rfl⟩
  refine ⟨honest_of_named rfl rfl rfl rfl (by decide), fun v hv => ?_⟩
  cases hv
  refine ⟨honest_of_named rfl rfl rfl rfl (by decide), fun v hv => ?_⟩
  cases hv
  refine ⟨honest_of_named rfl rfl rfl rfl (by decide), fun v hv => ?_⟩
  cases hv
  exact ⟨honest_of_named rfl rfl rfl rfl (by decide), fun v hv => trivial⟩

end Call

end TaikoGateway.ProposeBatch
