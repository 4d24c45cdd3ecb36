/-
TaikoGateway/BatchSize.lean

The estimated size of a batch.  A block is started with the space that the
pending batch leaves of `batch_target_size`, and seals itself when an order
makes it larger than that; `seal_block` adds the estimate of the block to that
of the batch and compares nothing.

So a batch may be too large by its last order, never by more
(`batches_fit`): without that order it is within the target size, in every
state of every run.
-/
import TaikoGateway.FullBatch
import TaikoGateway.InFlight

namespace TaikoGateway
namespace Sequencer

variable {env : Env}

/-! ### Batches within the target size -/

/-- The estimate that a block adds to its batch. -/
def compressedSize (env : Env) (b : Sealed) : Nat :=
  env.config.estimateCompressedSize (totalSize b.orders)

/-- The estimate of the batch is that of its blocks, and the batch is within
the target size without its last order. -/
structure FitsWithoutLast (env : Env) (request : Option ProposeBatchParams) (bs : List Sealed) :
    Prop where
  estimate : (request.map (·.compressedEst)).getD 0 = (bs.map (compressedSize env)).sum
  fits : ∀ before last, bs = before ++ [last] →
    (before.map (compressedSize env)).sum +
      env.config.estimateCompressedSize (totalSize last.orders.dropLast) ≤
        env.config.batchTargetSize

theorem fitsWithoutLast_none : FitsWithoutLast env none [] := by
  refine ⟨rfl, fun before last h => ?_⟩
  exact absurd h.symm (List.append_ne_nil_of_right_ne_nil before (List.cons_ne_nil last []))

/-- The books of the block are right, for some history of results. -/
def HasBooks (env : Env) (sd : SortData) : Prop :=
  ∃ h : SortHistory, h.sd = sd ∧ h.Books env.config env.chainConfig.blockMaxGasLimit

/-- The block under construction was started with at most the space that the
pending batch leaves. -/
structure BlockFits (env : Env) (s : Sequencer) (sd : SortData) : Prop where
  books : HasBooks env sd
  space : sd.maxBlockSize + s.currentBatchSize ≤ env.config.batchTargetSize

/-- The batches are within the target size but for their last order, and so is
the pending one with the block under construction. -/
structure SizeInv (env : Env) (s : Sequencer) : Prop where
  batches : BatchesSatisfy (FitsWithoutLast env) s
  block : ∀ sd, s.ctx.state = .sorting sd → BlockFits env s sd

theorem sizeInv_new (env : Env) (lookahead : LookaheadHandle) (now : Instant) :
    SizeInv env (.new env lookahead now) :=
  ⟨.new fitsWithoutLast_none env lookahead now, nofun⟩

/-! ### The tick -/

namespace HasBooks

variable {sd sd' : SortData}

theorem newTx {tx : Order} (hsd : HasBooks env sd) (h : sd.handleNewTx tx = .ok sd') :
    HasBooks env sd' := by
  obtain ⟨history, rfl, hbooks⟩ := hsd
  have hstep : history.newTx tx = .ok { history with sd := sd' } := by
    rw [SortHistory.newTx, h]
    rfl
  exact ⟨_, rfl, hbooks.newTx hstep⟩

theorem answer {sim : SimulatedOrder} (hsd : HasBooks env sd) (h : sd.handleSim sim = .ok sd') :
    HasBooks env sd' := by
  obtain ⟨history, rfl, hbooks⟩ := hsd
  have hstep : history.answer sim = .ok ⟨sd', history.pending.erase sim.spawned,
      sim.produced ++ history.used, history.applied⟩ := by
    rw [SortHistory.answer, h]
    rfl
  exact ⟨_, rfl, hbooks.answer hstep⟩

theorem sealEarly (hsd : HasBooks env sd) : HasBooks env sd.setShouldSeal := by
  obtain ⟨history, rfl, hbooks⟩ := hsd
  exact ⟨history.sealEarly, rfl, hbooks.sealEarly⟩

theorem round {now : Instant} {orders : List Order} (hsd : HasBooks env sd)
    (h : sd.maybeSimNextBatch env.config now = .ok (sd', orders)) : HasBooks env sd' := by
  obtain ⟨history, rfl, hbooks⟩ := hsd
  have hstep : history.round env.config now = .ok ⟨sd',
      history.pending ++ Outstanding.sendAll sd'.stateId orders, history.used,
      history.applied ++ history.sd.appliedBy now⟩ := by
    rw [SortHistory.round, h]
    rfl
  exact ⟨_, rfl, hbooks.round hstep⟩

end HasBooks

/-- A round keeps the size that the block was started with. -/
theorem maybeSimNextBatch_maxBlockSize {config : SequencerConfig} {sd sd' : SortData}
    {now : Instant} {orders : List Order}
    (h : sd.maybeSimNextBatch config now = .ok (sd', orders)) :
    sd'.maxBlockSize = sd.maxBlockSize := by
  have happly : ∀ {u : SortData}, SortData.ApplyStep config sd u →
      u.maxBlockSize = sd.maxBlockSize := fun happly => by cases happly <;> rfl
  cases SortData.maybeSimNextBatch_step h with
  | idle hidle => rfl
  | waiting hidle hstep hwait => exact happly hstep
  | sent hidle hstep hwait =>
      have hsize := happly hstep
      exact hsize

section Turn

variable {s s' t : Sequencer} {i : Input}

/-- A step of a tick keeps the size that the block was started with, and its
books. -/
theorem BlockStep.fits {i : TickInput} {sd sd' : SortData} (h : BlockStep i sd sd')
    (hsd : HasBooks env sd) : HasBooks env sd' ∧ sd'.maxBlockSize = sd.maxBlockSize := by
  cases h with
  | same => exact ⟨hsd, rfl⟩
  | newTx tx htx => exact ⟨hsd.newTx htx, (SortData.handleNewTx_books htx).maxBlockSize⟩
  | sim sim hsim hanswer =>
      exact ⟨hsd.answer hanswer, (SortData.handleSim_books hanswer).maxBlockSize⟩
  | early => exact ⟨hsd.sealEarly, rfl⟩

/-- A tick does not make the pending batch larger. -/
theorem TickStep.currentBatchSize_le {i : TickInput} (h : TickStep env i s s') :
    s'.currentBatchSize ≤ s.currentBatchSize := by
  rcases h.batches with ⟨hrequest, -⟩ | ⟨request, -, hnone, -⟩
  · rw [currentBatchSize, currentBatchSize, hrequest]
  · rw [currentBatchSize, hnone]
    exact Nat.zero_le _

theorem SizeInv.tickStep {i : TickInput} (h : TickStep env i s s') (hs : SizeInv env s) :
    SizeInv env s' := by
  refine ⟨hs.batches.tickStep fitsWithoutLast_none h, fun sd' hsd' => ?_⟩
  obtain ⟨sd, hsd, hstep⟩ := h.block hsd'
  have hfits : BlockFits env s sd := hs.block sd hsd
  obtain ⟨hbooks, hmax⟩ := hstep.fits hfits.books
  refine ⟨hbooks, ?_⟩
  rw [hmax]
  exact (Nat.add_le_add_left h.currentBatchSize_le _).trans hfits.space

theorem SizeInv.ticked (hs : SizeInv env s) (h : s.ticked env i = some t) : SizeInv env t :=
  chain_keeps (SizeInv env) SizeInv.tickStep hs (ticked_chain h)

/-! ### The transition -/

/-- Only the last arm of the guards builds, with the space that the batch
leaves, throttled. -/
theorem syncGate_size {i : TransitionInput} {g : Sequencer} {lastL1 size : Nat}
    (h : s.syncGate env lastL1 i = .ok (.build g size)) :
    size = env.config.throttle (env.config.batchTargetSize - s.currentBatchSize)
      (i.pendingProposals - env.config.throttleQueueTarget) := by
  rcases syncGate_cases h with ⟨-, s', hwait, -⟩ | ⟨hguards, -⟩
  · cases hwait
  obtain ⟨header, hsafe, hle⟩ := hguards.safeL1
  have hroom : ¬ env.config.batchTargetSize -
      (s.proposerRequest.map (·.compressedEst)).getD 0 = 0 := by
    have hlt := hguards.room
    omega
  simp only [syncGate, hsafe, if_neg (Nat.not_lt.mpr hle), hguards.canSequence, if_neg hroom,
    hguards.canRetryAnchor, hguards.canProduceBlock, Bool.not_true, Bool.false_eq_true,
    if_false] at h
  obtain ⟨⟨s', go⟩, -, hok⟩ := Except.bind_eq_ok_iff.mp h
  cases go with
  | false => cases hok
  | true =>
      cases hok
      rfl

theorem anchoring_size {i : TransitionInput} {g : Sequencer} {size : Nat}
    (h : s.anchoring env i = some (g, size)) :
    size = env.config.throttle (env.config.batchTargetSize - s.currentBatchSize)
      (i.pendingProposals - env.config.throttleQueueTarget) := by
  obtain ⟨⟨lastL1, hstate⟩, -, -⟩ := anchoring_eq_some h
  simp only [anchoring, hstate] at h
  split at h
  · rename_i g' size' hgate
    cases h
    have hsize : size = env.config.throttle
        (env.config.batchTargetSize - s.takeState.currentBatchSize)
        (i.pendingProposals - env.config.throttleQueueTarget) := syncGate_size hgate
    exact hsize
  · cases h

/-- A block that is started fits into what the batch leaves. -/
theorem anchoring_space (hthrottle : ∀ size n, env.config.throttle size n ≤ size)
    {i : TransitionInput} {g : Sequencer} {size : Nat} (h : s.anchoring env i = some (g, size)) :
    size + s.currentBatchSize ≤ env.config.batchTargetSize := by
  have hroom : s.currentBatchSize < env.config.batchTargetSize := (anchoring_eq_some h).2.1.room
  have hle : size ≤ env.config.batchTargetSize - s.currentBatchSize := by
    rw [anchoring_size h]
    exact hthrottle _ _
  omega

/-- A block that is sealed was started in the space its batch leaves. -/
theorem SizeInv.accumulate (hs : SizeInv env s) {sd : SortData} {block : Block}
    {request : ProposeBatchParams} (hstate : s.ctx.state = .sorting sd)
    (h : accumulate env s.proposerRequest (sealOf sd block) = .ok request) :
    FitsWithoutLast env (some request) (s.pendingSeals ++ [sealOf sd block]) := by
  obtain ⟨⟨history, rfl, hbooks⟩, hspace⟩ := hs.block sd hstate
  have hpending : s.currentBatchSize = (s.pendingSeals.map (compressedSize env)).sum :=
    hs.batches.pending.estimate
  constructor
  · -- the estimate of the block is that of its orders
    have hblock : compressedSize env (sealOf history.sd block) =
        env.config.estimateCompressedSize history.sd.uncompressedSize :=
      congrArg env.config.estimateCompressedSize hbooks.size.symm
    have hsum : request.compressedEst =
        s.currentBatchSize + env.config.estimateCompressedSize history.sd.uncompressedSize := by
      obtain ⟨-, ⟨hnone, rfl⟩ | ⟨before, hsome, -, -, rfl⟩⟩ := accumulate_eq_ok h
      · rw [currentBatchSize, hnone]
        rfl
      · rw [currentBatchSize, hsome]
        rfl
    show request.compressedEst = _
    rw [List.map_append, List.sum_append, List.map_singleton, List.sum_singleton, hblock,
      ← hpending]
    exact hsum
  · intro before last heq
    obtain ⟨rfl, hlast⟩ := List.append_inj' heq rfl
    cases hlast
    rw [← hpending]
    have hfits := hbooks.fits
    show _ + env.config.estimateCompressedSize (totalSize history.sd.orders.dropLast) ≤ _
    omega

theorem SizeInv.transition (hzero : env.config.estimateCompressedSize 0 = 0)
    (hthrottle : ∀ size n, env.config.throttle size n ≤ size) {i : TransitionInput}
    (hs : SizeInv env s) (h : Transition env i s s') : SizeInv env s' := by
  refine ⟨hs.batches.transition fitsWithoutLast_none
    (fun sd block request hseals hrequest => hs.accumulate hseals.state hrequest) h, ?_⟩
  intro sd' hsd'
  obtain ⟨⟨hrequest, -⟩, ⟨g, size, stateId, blockInfo, active, hgate, -, rfl⟩ |
    ⟨sd, orders, hstate, hround⟩⟩ := h.sorting_cases hsd'
  · -- a new block
    refine ⟨⟨.start _ [] [], rfl, .start hzero rfl rfl rfl rfl⟩, ?_⟩
    rw [currentBatchSize, hrequest]
    exact anchoring_space hthrottle hgate
  · -- a round keeps the maximal size
    have hfits := hs.block sd hstate
    refine ⟨hfits.books.round hround, ?_⟩
    rw [currentBatchSize, hrequest, maybeSimNextBatch_maxBlockSize hround]
    exact hfits.space

theorem SizeInv.iteration (hzero : env.config.estimateCompressedSize 0 = 0)
    (hthrottle : ∀ size n, env.config.throttle size n ≤ size) (hs : SizeInv env s)
    (h : s.iteration env i = .ok s') : SizeInv env s' :=
  iteration_keeps (SizeInv env) SizeInv.tickStep
    (fun _ ht htrans => ht.transition hzero hthrottle htrans) hs h

end Turn

/-! ### Main result -/

/-- **The size of a batch.**  When throttling never enlarges a block and the
estimate of no bytes is 0: in every state of every run, the estimate of the
pending batch and of every batch that was sent is that of its blocks, and
without the last order of its last block it is within `batch_target_size`. -/
theorem batches_fit (env : Env) (hzero : env.config.estimateCompressedSize 0 = 0)
    (hthrottle : ∀ size n, env.config.throttle size n ≤ size) (lookahead : LookaheadHandle)
    (now : Instant) (is : List Input) :
    Run.Along (iteration env) (TurnReaches env (BatchesSatisfy (FitsWithoutLast env)))
      (.new env lookahead now) is := by
  apply Run.Along.of_assumed (SizeInv env) (fun _ => True) _ _ is
    (sizeInv_new env lookahead now) (fun _ _ => trivial)
  · intro s i hs _
    exact ⟨fun t ht => (hs.ticked ht).batches,
      fun s' hdone => (hs.iteration hzero hthrottle hdone).batches⟩
  · exact fun s i s' hs _ hdone => hs.iteration hzero hthrottle hdone

section Sample

/-- The sample setting with batches smaller than one tx. -/
def smallBatchEnv : Env :=
  { Sample.env with config := { Sample.env.config with batchTargetSize := 2 } }

/-- A tx of three bytes makes the batch larger than two, and is its last. -/
theorem batches_fit_smallBatch :
    Run.Along (iteration smallBatchEnv)
        (TurnReaches smallBatchEnv (BatchesSatisfy (FitsWithoutLast smallBatchEnv)))
        (.new smallBatchEnv Sample.lookahead 0) fullBatchRun ∧
      (fullBatchRun.foldlM (iteration smallBatchEnv)
        (.new smallBatchEnv Sample.lookahead 0)).toOption.map
          (fun s => (s.currentBatchSize, s.pendingSeals.length)) = some (3, 1) :=
  ⟨batches_fit smallBatchEnv rfl (fun size _ => Nat.le_refl size) Sample.lookahead 0 fullBatchRun,
    by decide +kernel⟩

end Sample

end Sequencer
end TaikoGateway
