/-
TaikoGateway/BatchLimit.lean

The number of blocks in a batch.  `request_from_blocks` and
`validate_batch_params` keep to `max_blocks_per_batch`, the limit of the inbox;
`seal_block` adds to the pending batch without looking at it, and none of the
flushes does.

The batches are within the limit along a run exactly when no block is sealed
while the pending batch is full (`batchLimit_iff`); `batch_over_limit` is a run
that sends one block too many.
-/
import TaikoGateway.Contiguous
import TaikoGateway.ParentRules

namespace TaikoGateway
namespace Sequencer

variable {env : Env}

/-- Number of blocks in the batch. -/
def blockCount (request : Option ProposeBatchParams) : Nat :=
  (request.map (·.blockParams.length)).getD 0

/-- The inbox accepts this many blocks. -/
def WithinLimit (env : Env) (request : Option ProposeBatchParams) : Prop :=
  blockCount request ≤ env.chainConfig.maxBlocksPerBatch

/-- A turn seals a block only if the pending batch has room for it. -/
def SealsWithRoom (env : Env) (s : Sequencer) (i : Input) (r : Except Panic Sequencer) : Prop :=
  ∀ t s', s.ticked env i = some t → r = .ok s' → s'.seals ≠ t.seals →
    blockCount t.proposerRequest < env.chainConfig.maxBlocksPerBatch

theorem blockCount_of_accumulate {r : Option ProposeBatchParams} {b : Sealed}
    {request : ProposeBatchParams} (h : accumulate env r b = .ok request) :
    blockCount (some request) = blockCount r + 1 := by
  obtain ⟨-, ⟨rfl, rfl⟩ | ⟨before, rfl, -, -, rfl⟩⟩ := accumulate_eq_ok h
  · rfl
  · simp [blockCount, withBlock]

section Turn

variable {s s' t : Sequencer} {i : Input}

/-- The pending batch and those that were sent are within the limit. -/
def LimitInv (env : Env) : Sequencer → Prop :=
  BatchesSatisfy fun request _ => WithinLimit env request

theorem LimitInv.tickStep (h : TickStep env i.tick s s') (hs : LimitInv env s) :
    LimitInv env s' :=
  BatchesSatisfy.tickStep (Nat.zero_le _) h hs

theorem LimitInv.ticked (hs : LimitInv env s) (h : s.ticked env i = some t) : LimitInv env t :=
  chain_keeps (LimitInv env) LimitInv.tickStep hs (ticked_chain h)

/-- A transition keeps the limit exactly when it has room for what it seals. -/
theorem LimitInv.transition_iff (ht : LimitInv env t) (h : Transition env i.transition t s') :
    LimitInv env s' ↔
      (s'.seals ≠ t.seals → blockCount t.proposerRequest < env.chainConfig.maxBlocksPerBatch) := by
  rcases h.batches with (hsame | hsent) | ⟨sd, block, request, -, hrequest, u, hsealed, hflush⟩
  · exact iff_of_true (ht.same hsame) fun hne => absurd hsame.seals hne
  · exact iff_of_true (ht.sent (Nat.zero_le _) hsent) fun hne => absurd hsent.seals hne
  have hgrown : s'.seals ≠ t.seals := by
    have hu : u.seals = t.seals ++ [sealOf sd block] := hsealed.seals
    have hs' : s'.seals = u.seals := hflush.elim SameBatches.seals SentBatch.seals
    rw [hs', hu]
    simp
  have hcount := blockCount_of_accumulate hrequest
  constructor
  · -- the batch with the block is pending or has been sent
    intro hs' _
    have hwithin : WithinLimit env (some request) := by
      rcases hflush with ⟨hpending, -⟩ | ⟨sent, hpending, -, hlog⟩
      · rw [hsealed.1] at hpending
        rw [← hpending]
        exact hs'.pending
      · rw [hsealed.1] at hpending
        rw [hpending]
        apply hs'.proposed ⟨sent, u.pendingSeals⟩
        rw [proposedBatches, hlog]
        exact List.mem_append_right _ (List.mem_singleton_self _)
    rw [WithinLimit] at hwithin
    omega
  · intro hroom
    have hu : LimitInv env u := by
      apply BatchesSatisfy.sealed ht hsealed
      have hlt := hroom hgrown
      rw [WithinLimit]
      omega
    exact hflush.elim hu.same (hu.sent (Nat.zero_le _))

theorem LimitInv.turn_iff (hs : LimitInv env s) :
    SealsWithRoom env s i (s.iteration env i) ↔
      TurnReaches env (LimitInv env) s i (s.iteration env i) := by
  constructor
  · intro hroom
    refine ⟨fun t ht => hs.ticked ht, fun s' hdone => ?_⟩
    rcases iteration_cases hdone with ⟨t, htick, htrans⟩ | ⟨-, hchain⟩
    · exact ((hs.ticked htick).transition_iff htrans).mpr (hroom t s' htick hdone)
    · exact chain_keeps (LimitInv env) LimitInv.tickStep hs hchain
  · rintro ⟨-, hreached⟩ t s' htick hdone
    rcases iteration_cases hdone with ⟨t', htick', htrans⟩ | ⟨hnone, -⟩
    · rw [htick] at htick'
      cases htick'
      exact ((hs.ticked htick).transition_iff htrans).mp (hreached s' hdone)
    · rw [htick] at hnone
      cases hnone

end Turn

/-- **The limit.**  Along a run the pending batch and every batch that is sent
have at most `max_blocks_per_batch` blocks exactly when no block is sealed while
the pending batch has that many. -/
theorem batchLimit_iff (env : Env) (lookahead : LookaheadHandle) (now : Instant)
    (is : List Input) :
    Run.Along (iteration env) (SealsWithRoom env) (.new env lookahead now) is ↔
      Run.Along (iteration env)
        (TurnReaches env (BatchesSatisfy fun request _ => WithinLimit env request))
        (.new env lookahead now) is :=
  Run.Along.congr_of_invariant (LimitInv env) (fun _ _ hs => hs.turn_iff)
    (fun _ _ s' hs hroom hdone => (hs.turn_iff.mp hroom).2 s' hdone) is
    (.new (Nat.zero_le _) env lookahead now)

section Sample

open Sample

/-- The sample setting on a chain with one block a batch. -/
def singleBlockEnv : Env :=
  { Sample.env with chainConfig := { Sample.env.chainConfig with maxBlocksPerBatch := 1 } }

/-- A batch of two blocks is sent there. -/
theorem batch_over_limit :
    ∃ s b, contiguousRun.foldlM (iteration singleBlockEnv)
        (.new singleBlockEnv Sample.lookahead 0) = .ok s ∧
      b ∈ s.proposedBatches ∧ b.request.blockParams.length = 2 ∧
      ¬ WithinLimit singleBlockEnv (some b.request) := by
  have h : (contiguousRun.foldlM (iteration singleBlockEnv)
      (.new singleBlockEnv Sample.lookahead 0)).toOption.map
        (fun s => s.proposedBatches.map (·.request.blockParams.length)) = some [2] := by
    decide +kernel
  obtain ⟨s, hrun, hs⟩ := Option.map_eq_some_iff.mp h
  obtain ⟨b, hb, hlength⟩ : ∃ b ∈ s.proposedBatches, b.request.blockParams.length = 2 :=
    List.mem_map.mp (hs ▸ List.mem_cons_self)
  refine ⟨s, b, Except.toOption_eq_some_iff.mp hrun, hb, hlength, fun hwithin => ?_⟩
  have hle : b.request.blockParams.length ≤ 1 := hwithin
  omega

end Sample

end Sequencer
end TaikoGateway
