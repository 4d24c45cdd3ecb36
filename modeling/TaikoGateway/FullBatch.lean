/-
TaikoGateway/FullBatch.lean

The two size tests of the loop.  `Sync` starts no block when the pending batch
leaves no space (`maxBlockSize`, a saturating subtraction), and
`maybe_refresh_anchor` flushes the batch when it is larger than the target
size.  A batch of exactly the target size leaves no space and is not flushed.

`flushesFull_iff` says when the tests agree along a run, `full_batch_stalls` is
a run where they do not: production stops until the anchor is too old or the
batch is cleared.
-/
import TaikoGateway.Batches
import TaikoGateway.Chains

namespace TaikoGateway
namespace Sequencer

variable {env : Env}

/-- Size of the pending batch, as both tests read it. -/
def currentBatchSize (s : Sequencer) : Nat := (s.proposerRequest.map (·.compressedEst)).getD 0

/-- The space that is left for a block, where the arm of `Sync` computes it. -/
def maxBlockSize (env : Env) (s : Sequencer) : Option Nat :=
  match s.ctx.state, s.ctx.safeL1Header with
  | .sync _, some safeL1Header =>
      if safeL1Header.number < s.ctx.parentAnchorBlockId then none
      else if !s.flags.canSequence then none
      else some (env.config.batchTargetSize - s.currentBatchSize)
  | _, _ => none

/-- The state in which this turn decides about the anchor, behind the other
phases of its tick. -/
def beforeRefresh (env : Env) (s : Sequencer) (i : Input) : Option Sequencer :=
  if s.looping || s.isReady env then
    Except.toOption do
      let s ← { s with looping := true }.recvBlocks i.tick.recv
      let s ← s.fetchTxs i.tick.txs
      let s ← s.handleSims i.tick.sim
      (s.checkCanSequence env i.tick).checkCanPropose env i.tick
  else none

/-- A safe L1 header is newer than the current anchor. -/
def NewerL1 (s : Sequencer) : Prop :=
  ∃ header, s.ctx.safeL1Header = some header ∧
    ∀ a, s.ctx.anchor = some a → a.blockId < header.number

/-- When `Sync` has no space after the tick of this turn, its refresh of the
anchor has sent the batch. -/
def FlushesFull (env : Env) (s : Sequencer) (i : Input) (_ : Except Panic Sequencer) : Prop :=
  ∀ u t, s.beforeRefresh env i = some u → u.NewerL1 → s.ticked env i = some t →
    t.maxBlockSize env = some 0 → SentBatch u (u.maybeRefreshAnchor env i.tick)

/-! ### The condition -/

/-- The anchor has been used for enough blocks. -/
def IsAnchorOld (env : Env) (i : TickInput) (anchor : AnchorParams) : Prop :=
  env.config.anchorBatchLag * 12 < u64Sub i.anchorAgeUtc anchor.createdAt

/-- The rest of the tick sends the batch: the proposal is late, or its time
shift too long. -/
def clearsProposal (env : Env) (s : Sequencer) (i : TickInput) : Bool :=
  (s.lookahead.shouldClearProposal i.shouldClearEnv env.config.operatorAddress).1.1 ||
    s.checkTimeShift i.timeShiftUtc

/-- The batch has exactly the target size, the anchor is not too old and nothing
else sends the batch.  With a target size of zero there is never any space. -/
def LeftFull (env : Env) (s : Sequencer) (i : TickInput) : Prop :=
  match s.proposerRequest with
  | none => env.config.batchTargetSize = 0
  | some request =>
      request.compressedEst = env.config.batchTargetSize ∧
        (∃ a, s.ctx.anchor = some a ∧ ¬ IsAnchorOld env i a) ∧
        (s.clearsProposal env i = true → env.config.batchTargetSize = 0)

/-- No turn gets to the anchor, with space to compute and a newer L1 block, and
leaves the batch full. -/
def NeverLeftFull (env : Env) (s : Sequencer) (i : Input) (_ : Except Panic Sequencer) : Prop :=
  ∀ u, s.beforeRefresh env i = some u → u.NewerL1 → (u.maxBlockSize env).isSome →
    ¬ LeftFull env u i.tick

section Tick

variable {s s' t u v : Sequencer} {i : TickInput}

/-! ### The space -/

/-- What the space is computed from. -/
theorem maxBlockSize_eq_some_iff {size : Nat} :
    s.maxBlockSize env = some size ↔
      (∃ lastL1, s.ctx.state = .sync lastL1) ∧
        (∃ header, s.ctx.safeL1Header = some header ∧
          s.ctx.parentAnchorBlockId ≤ header.number) ∧
        s.flags.canSequence = true ∧
        env.config.batchTargetSize - s.currentBatchSize = size := by
  simp only [maxBlockSize]
  cases hstate : s.ctx.state with
  | sorting sd => simp
  | sync lastL1 =>
      cases hsafe : s.ctx.safeL1Header with
      | none => simp
      | some header =>
          cases hseq : s.flags.canSequence with
          | false => simp
          | true => simp

/-! ### Sending the batch -/

/-- What sending the batch leaves alone while no block is being sorted. -/
theorem sendBatchToProposer_of_sync {lastL1 : Nat} (hstate : s.ctx.state = .sync lastL1) :
    s.sendBatchToProposer true = { s with
      proposerRequest := none
      events := s.events ++ s.proposerRequest.toList.map fun r => .proposed (.batch r) } := by
  simp only [sendBatchToProposer, hstate]
  split
  · rename_i request hrequest
    simp [log, hrequest]
  · rename_i hnone
    obtain ⟨ctx, txPool, lookahead, flags, request, count, needs, timings, skip, looping, events⟩ :=
      s
    obtain rfl : request = none := hnone
    simp

/-- The step keeps what decides whether `Sync` computes the space. -/
structure SameGates (s s' : Sequencer) : Prop where
  sync : (∃ lastL1, s'.ctx.state = .sync lastL1) ↔ ∃ lastL1, s.ctx.state = .sync lastL1
  safeL1Header : s'.ctx.safeL1Header = s.ctx.safeL1Header
  parentAnchor : s'.ctx.parentAnchorBlockId = s.ctx.parentAnchorBlockId
  flags : s'.flags = s.flags

theorem SameGates.refl (s : Sequencer) : SameGates s s := ⟨Iff.rfl, rfl, rfl, rfl⟩

theorem SameGates.trans (h : SameGates s s') (h' : SameGates s' t) : SameGates s t :=
  ⟨h'.sync.trans h.sync, h'.safeL1Header.trans h.safeL1Header,
    h'.parentAnchor.trans h.parentAnchor, h'.flags.trans h.flags⟩

/-- Then the space changes with the batch only. -/
theorem SameGates.maxBlockSize_eq_zero_iff (h : SameGates s s') :
    s'.maxBlockSize env = some 0 ↔
      (s.maxBlockSize env).isSome ∧ env.config.batchTargetSize ≤ s'.currentBatchSize := by
  rw [Option.isSome_iff_exists, maxBlockSize_eq_some_iff, h.sync, h.safeL1Header, h.parentAnchor,
    h.flags, Nat.sub_eq_zero_iff_le]
  constructor
  · rintro ⟨hsync, hheader, hseq, hle⟩
    exact ⟨⟨_, maxBlockSize_eq_some_iff.mpr ⟨hsync, hheader, hseq, rfl⟩⟩, hle⟩
  · rintro ⟨⟨size, hsize⟩, hle⟩
    obtain ⟨hsync, hheader, hseq, -⟩ := maxBlockSize_eq_some_iff.mp hsize
    exact ⟨hsync, hheader, hseq, hle⟩

theorem sendBatchToProposer_gates (s : Sequencer) : SameGates s (s.sendBatchToProposer true) := by
  cases hstate : s.ctx.state with
  | sync lastL1 =>
      rw [sendBatchToProposer_of_sync hstate]
      exact ⟨Iff.rfl, rfl, rfl, rfl⟩
  | sorting sd =>
      simp only [sendBatchToProposer, hstate]
      exact ⟨by simp [hstate], rfl, rfl, rfl⟩

theorem maybeRefreshAnchor_gates (s : Sequencer) (i : TickInput) :
    SameGates s (s.maybeRefreshAnchor env i) := by
  rcases maybeRefreshAnchor_cases env s i with hsame | ⟨header, hupdate, -⟩
  · rw [hsame]
    exact .refl s
  · rw [hupdate, updateAnchor_eq]
    have hset : SameGates s (s.setAnchor header i.anchorCreatedUtc) := ⟨Iff.rfl, rfl, rfl, rfl⟩
    exact hset.trans (sendBatchToProposer_gates _)

theorem refresh_gates (h : s.refresh env i = .ok s') : SameGates s s' := by
  obtain ⟨t, ht, hs'⟩ := refresh_eq_ok h
  have hanchor : SameGates s t := by
    rcases ht with rfl | rfl
    · exact .refl t
    · exact maybeRefreshAnchor_gates s i
  rcases hs' with rfl | ⟨parentBlock, timings, rfl⟩
  · exact hanchor
  · exact ⟨hanchor.sync, hanchor.safeL1Header, hanchor.parentAnchor, hanchor.flags⟩

theorem clearProposal_gates (s : Sequencer) (i : TickInput) :
    SameGates s (s.clearProposal env i) := by
  apply clearProposal_induction (SameGates s)
  · intro lookahead
    exact ⟨Iff.rfl, rfl, rfl, rfl⟩
  · intro t ht
    exact ht.trans (sendBatchToProposer_gates t)

/-- The rest of a tick sends the batch or leaves it. -/
theorem clearProposal_of_sync {lastL1 : Nat} (hstate : s.ctx.state = .sync lastL1) :
    (s.clearProposal env i).proposerRequest =
      if s.clearsProposal env i then none else s.proposerRequest := by
  obtain ⟨u, hu⟩ : ∃ u : Sequencer, u = { s with
    lookahead :=
      (s.lookahead.shouldClearProposal i.shouldClearEnv env.config.operatorAddress).2 } := ⟨_, rfl⟩
  have hstate' : u.ctx.state = .sync lastL1 := by rw [hu, hstate]
  have hsend := sendBatchToProposer_of_sync hstate'
  have hcheck : u.checkTimeShift i.timeShiftUtc = s.checkTimeShift i.timeShiftUtc := by
    rw [hu]
    rfl
  have hsent : (u.sendBatchToProposer true).checkTimeShift i.timeShiftUtc = false := by
    rw [hsend]
    rfl
  by_cases hclear :
      (s.lookahead.shouldClearProposal i.shouldClearEnv env.config.operatorAddress).1.1 = true
  · -- the batch is gone, so its time shift is not checked
    simp only [clearProposal, ← hu, clearsProposal, hclear, if_true, hsent, Bool.true_or,
      Bool.false_eq_true, if_false]
    rw [hsend]
  · rw [Bool.not_eq_true] at hclear
    simp only [clearProposal, ← hu, clearsProposal, hclear, Bool.false_or, Bool.false_eq_true,
      if_false, hcheck]
    by_cases hshift : s.checkTimeShift i.timeShiftUtc = true
    · rw [if_pos hshift, if_pos hshift, hsend]
    · rw [if_neg hshift, if_neg hshift, hu]

/-- When the anchor is updated while a newer L1 block is there. -/
def RefreshDue (env : Env) (s : Sequencer) (i : TickInput) : Prop :=
  ∀ a, s.ctx.anchor = some a →
    IsAnchorOld env i a ∨ env.config.batchTargetSize < s.currentBatchSize

/-- The anchor is updated when that is due. -/
theorem maybeRefreshAnchor_of_newerL1 (hnewer : s.NewerL1) :
    (RefreshDue env s i ∧ ∃ header, s.maybeRefreshAnchor env i =
        s.updateAnchor header i.anchorCreatedUtc) ∨
      (¬ RefreshDue env s i ∧ s.maybeRefreshAnchor env i = s) := by
  obtain ⟨header, hsafe, hlt⟩ := hnewer
  cases hanchor : s.ctx.anchor with
  | none =>
      refine Or.inl ⟨fun a ha => ?_, header, ?_⟩
      · rw [hanchor] at ha
        cases ha
      · simp only [maybeRefreshAnchor, hsafe, hanchor]
  | some a =>
      have hnot : ¬ header.number ≤ a.blockId := Nat.not_le.mpr (hlt a hanchor)
      have hdue : RefreshDue env s i ↔
          IsAnchorOld env i a ∨ env.config.batchTargetSize < s.currentBatchSize := by
        simp [RefreshDue, hanchor]
      simp only [maybeRefreshAnchor, hsafe, hanchor, if_neg hnot, hdue]
      by_cases hold : IsAnchorOld env i a
      · exact Or.inl ⟨Or.inl hold, header, if_pos hold⟩
      · by_cases hbig : env.config.batchTargetSize < s.currentBatchSize
        · exact Or.inl ⟨Or.inr hbig, header, (if_neg hold).trans (if_pos hbig)⟩
        · exact Or.inr ⟨not_or.mpr ⟨hold, hbig⟩, (if_neg hold).trans (if_neg hbig)⟩

/-- An update sends the batch, if there is one. -/
theorem updateAnchor_of_sync {lastL1 : Nat} (hstate : s.ctx.state = .sync lastL1)
    (header : Header) (createdUtc : Nat) :
    (s.updateAnchor header createdUtc).proposerRequest = none ∧
      (s.proposerRequest ≠ none → SentBatch s (s.updateAnchor header createdUtc)) := by
  have hset : (s.setAnchor header createdUtc).ctx.state = .sync lastL1 := hstate
  rw [updateAnchor_eq]
  refine ⟨by rw [sendBatchToProposer_of_sync hset], fun hne => ?_⟩
  rcases sendBatchToProposer_batches (s.setAnchor header createdUtc) true with hsame | hsent
  · have hkept := hsame.1
    rw [sendBatchToProposer_of_sync hset] at hkept
    exact absurd hkept.symm hne
  · exact hsent

/-- The refresh sends the batch when it is due and there is one. -/
theorem sentBatch_iff {lastL1 : Nat} (hstate : s.ctx.state = .sync lastL1) (hnewer : s.NewerL1) :
    SentBatch s (s.maybeRefreshAnchor env i) ↔
      RefreshDue env s i ∧ s.proposerRequest ≠ none := by
  constructor
  · rintro ⟨request, hrequest, hnone, -⟩
    have hne : s.proposerRequest ≠ none := by simp [hrequest]
    rcases maybeRefreshAnchor_of_newerL1 hnewer with ⟨hdue, -⟩ | ⟨-, hsame⟩
    · exact ⟨hdue, hne⟩
    · rw [hsame] at hnone
      exact absurd hnone hne
  · rintro ⟨hdue, hne⟩
    rcases maybeRefreshAnchor_of_newerL1 hnewer with ⟨-, header, hupdate⟩ | ⟨hnot, -⟩
    · rw [hupdate]
      exact (updateAnchor_of_sync hstate header _).2 hne
    · exact absurd hdue hnot

/-! ### The turn -/

/-- The refresh and the rest of the tick. -/
theorem ticked_eq_some_iff {i : Input} :
    s.ticked env i = some t ↔
      ∃ u v, s.beforeRefresh env i = some u ∧ u.refresh env i.tick = .ok v ∧
        v.clearProposal env i.tick = t := by
  simp only [ticked, beforeRefresh, tick]
  split
  · simp only [Except.toOption_eq_some_iff, Except.bind_eq_ok_iff, Except.ok.injEq]
    constructor
    · rintro ⟨s1, h1, s2, h2, s3, h3, u, hu, v, hv, ht⟩
      exact ⟨u, v, ⟨s1, h1, s2, h2, s3, h3, hu⟩, hv, ht⟩
    · rintro ⟨u, v, ⟨s1, h1, s2, h2, s3, h3, hu⟩, hv, ht⟩
      exact ⟨s1, h1, s2, h2, s3, h3, u, hu, v, hv, ht⟩
  · simp

/-- There is a parent when the txs have been fetched. -/
theorem beforeRefresh_l2Parent {i : Input} (h : s.beforeRefresh env i = some u) :
    ∃ parent, u.ctx.l2Parent = .ok parent := by
  simp only [beforeRefresh] at h
  split at h
  · rw [Except.toOption_eq_some_iff] at h
    simp only [Except.bind_eq_ok_iff] at h
    obtain ⟨s1, -, s2, htxs, s3, hsims, hpropose⟩ := h
    have h3 := (fetchTxs_chains htxs).trans (handleSims_chains hsims)
    obtain ⟨parent, hparent, -⟩ := Except.bind_eq_ok_iff.mp htxs
    refine ⟨parent, ?_⟩
    rw [checkCanPropose_ctx hpropose, checkCanSequence_ctx, ← hparent]
    simp only [SequencerContext.l2Parent, h3.l2Headers]
  · cases h

/-- The refresh does not abort then. -/
theorem exists_refresh {i : Input} (h : s.beforeRefresh env i = some u) :
    ∃ v, u.refresh env i.tick = .ok v := by
  obtain ⟨parent, hparent⟩ := beforeRefresh_l2Parent h
  have hparent' : (u.maybeRefreshAnchor env i.tick).ctx.l2Parent = .ok parent := by
    rw [← hparent]
    simp only [SequencerContext.l2Parent, (maybeRefreshAnchor_chains u i.tick).l2Headers]
  simp only [refresh, reportTxPool, hparent']
  split
  · split
    · exact ⟨_, rfl⟩
    · exact ⟨_, rfl⟩
  · exact ⟨_, rfl⟩

/-- What the refresh leaves pending. -/
theorem refresh_request (hseq : s.flags.canSequence = true) (h : s.refresh env i = .ok v) :
    v.proposerRequest = (s.maybeRefreshAnchor env i).proposerRequest ∧
      v.lookahead = (s.maybeRefreshAnchor env i).lookahead := by
  simp only [refresh, if_pos hseq, reportTxPool] at h
  split at h
  · obtain ⟨parent, -, hok⟩ := Except.bind_eq_ok_iff.mp h
    cases hok
    exact ⟨rfl, rfl⟩
  · cases h
    exact ⟨rfl, rfl⟩

/-- **The two tests**, in a state with a newer L1 block in which the space is
computed: none is left after the tick, and the refresh has not sent the batch. -/
theorem leftFull_iff (hnewer : u.NewerL1) (hspace : (u.maxBlockSize env).isSome)
    (hrefresh : u.refresh env i = .ok v) :
    ((v.clearProposal env i).maxBlockSize env = some 0 ∧
        ¬ SentBatch u (u.maybeRefreshAnchor env i)) ↔ LeftFull env u i := by
  obtain ⟨size, hsize⟩ := Option.isSome_iff_exists.mp hspace
  obtain ⟨⟨lastL1, hstate⟩, -, hseq, -⟩ := maxBlockSize_eq_some_iff.mp hsize
  have hgates : SameGates u (v.clearProposal env i) :=
    (refresh_gates hrefresh).trans (clearProposal_gates v i)
  obtain ⟨lastL1', hstate'⟩ := (refresh_gates hrefresh).sync.mpr ⟨lastL1, hstate⟩
  obtain ⟨hrequest, hlook⟩ := refresh_request hseq hrefresh
  rw [hgates.maxBlockSize_eq_zero_iff, and_iff_right hspace, sentBatch_iff hstate hnewer,
    currentBatchSize, clearProposal_of_sync hstate', hrequest]
  rcases maybeRefreshAnchor_of_newerL1 hnewer with ⟨hdue, header, hupdate⟩ | ⟨hdue, hsame⟩
  · -- nothing is pending after an update
    rw [hupdate, (updateAnchor_of_sync hstate header _).1, ite_self]
    cases hpending : u.proposerRequest with
    | none => simp [LeftFull, hpending]
    | some request =>
        have hnot : ¬ LeftFull env u i := by
          simp only [LeftFull, hpending]
          rintro ⟨hfull, ⟨a, ha, hnew⟩, -⟩
          have hsizeEq : u.currentBatchSize = request.compressedEst := by
            simp [currentBatchSize, hpending]
          exact (hdue a ha).elim hnew (by omega)
        simp [hnot, hdue]
  · -- the batch is left, at most as large as the target
    obtain ⟨a, ha, hnew, hle⟩ : ∃ a, u.ctx.anchor = some a ∧ ¬ IsAnchorOld env i a ∧
        u.currentBatchSize ≤ env.config.batchTargetSize := by
      simpa [RefreshDue] using hdue
    have hclears : v.clearsProposal env i = u.clearsProposal env i := by
      rw [clearsProposal, clearsProposal, checkTimeShift, checkTimeShift, hlook, hrequest, hsame]
    rw [hclears, hsame]
    cases hpending : u.proposerRequest with
    | none => simp [LeftFull, hpending]
    | some request =>
        have hfresh : ∃ a, u.ctx.anchor = some a ∧ ¬ IsAnchorOld env i a := ⟨a, ha, hnew⟩
        have hest : request.compressedEst ≤ env.config.batchTargetSize := by
          simpa [currentBatchSize, hpending] using hle
        simp only [LeftFull, hpending, hdue, hfresh, false_and, not_false_eq_true, and_true,
          true_and]
        cases u.clearsProposal env i with
        | true =>
            show env.config.batchTargetSize ≤ 0 ↔ _
            simp only [forall_const]
            omega
        | false =>
            show env.config.batchTargetSize ≤ request.compressedEst ↔ _
            simp only [Bool.false_eq_true, false_implies, and_true]
            omega

/-- The tests agree in a turn exactly when it does not leave the batch full. -/
theorem flushesFull_turn_iff (s : Sequencer) (i : Input) (r : Except Panic Sequencer) :
    NeverLeftFull env s i r ↔ FlushesFull env s i r := by
  constructor
  · intro hnever u t hu hnewer ht hfull
    obtain ⟨u', v, hu', hrefresh, rfl⟩ := ticked_eq_some_iff.mp ht
    obtain rfl : u' = u := Option.some.inj (hu'.symm.trans hu)
    have hspace := (((refresh_gates hrefresh).trans
      (clearProposal_gates v i.tick)).maxBlockSize_eq_zero_iff.mp hfull).1
    by_contra hsent
    exact hnever u' hu hnewer hspace ((leftFull_iff hnewer hspace hrefresh).mp ⟨hfull, hsent⟩)
  · intro hflushes u hu hnewer hspace hleft
    obtain ⟨v, hrefresh⟩ := exists_refresh hu
    obtain ⟨hfull, hsent⟩ := (leftFull_iff hnewer hspace hrefresh).mpr hleft
    exact hsent (hflushes u _ hu hnewer (ticked_eq_some_iff.mpr ⟨u, v, hu, hrefresh, rfl⟩) hfull)

end Tick

/-- **The size tests along a run.**  Whenever `Sync` has no space while the
anchor could be replaced, the batch has just been flushed, exactly when no turn
leaves a batch of exactly the target size. -/
theorem flushesFull_iff (env : Env) (lookahead : LookaheadHandle) (now : Instant)
    (is : List Input) :
    Run.Along (iteration env) (NeverLeftFull env) (.new env lookahead now) is ↔
      Run.Along (iteration env) (FlushesFull env) (.new env lookahead now) is := by
  constructor
  · exact Run.Along.mono (fun s i => (flushesFull_turn_iff s i _).mp) is
  · exact Run.Along.mono (fun s i => (flushesFull_turn_iff s i _).mpr) is

section Sample

open Sample

/-- The sample setting with batches of the size of one tx. -/
def oneTxEnv : Env :=
  { Sample.env with config := { Sample.env.config with batchTargetSize := 3 } }

/-- Block 11 is sealed with one tx; then L1 block 101 becomes safe. -/
def fullBatchRun : List Input :=
  [ receiving [l1Header 100] [Sample.block 10 10 9 0 90] (Sample.turn 0 50),
    simulating (anchorTx 11 100) (blockEnv 11 52) 1 (Sample.turn 3000 50),
    receivingTxs [userTx] (Sample.turn 3100 50),
    simulated userTx 1 2 (Sample.turn 3200 50),
    sealing 2 (blockWith [userTx] 11 11 10 52 100) (Sample.turn 6000 53) ]

def newerL1Turn : Input := receiving [l1Header 101, l1Header 102] [] (Sample.turn 9000 56)

/-- The batch of 3 bytes is full and is not flushed; in the next turn neither
test does anything either. -/
theorem full_batch_stalls :
    ¬ Run.Along (iteration oneTxEnv) (FlushesFull oneTxEnv) (.new oneTxEnv Sample.lookahead 0)
        (fullBatchRun ++ [newerL1Turn]) ∧
      ((fullBatchRun ++ [newerL1Turn, Sample.turn 11000 58]).foldlM (iteration oneTxEnv)
          (.new oneTxEnv Sample.lookahead 0)).toOption.map
        (fun s => (s.currentBatchSize, s.proposedBatches.length, s.pendingSeals.length)) =
          some (3, 0, 1) := by
  refine ⟨fun hall => ?_, by decide +kernel⟩
  have hrun : (fullBatchRun.foldlM (iteration oneTxEnv)
      (.new oneTxEnv Sample.lookahead 0)).toOption.bind (fun s =>
        (s.beforeRefresh oneTxEnv newerL1Turn).bind fun u =>
          (s.ticked oneTxEnv newerL1Turn).map fun t =>
            (u.ctx.safeL1Header.map (·.number), u.ctx.anchor.map (·.blockId),
              t.maxBlockSize oneTxEnv,
              (u.maybeRefreshAnchor oneTxEnv newerL1Turn.tick).proposerRequest.isSome)) =
      some (some 101, some 100, some 0, true) := by decide +kernel
  obtain ⟨s, hs, hturn⟩ := Option.bind_eq_some_iff.mp hrun
  obtain ⟨u, hu, hturn⟩ := Option.bind_eq_some_iff.mp hturn
  obtain ⟨t, ht, hvalues⟩ := Option.map_eq_some_iff.mp hturn
  simp only [Prod.mk.injEq] at hvalues
  obtain ⟨hsafe, hanchor, hfull, hpending⟩ := hvalues
  obtain ⟨header, hheader, hnumber⟩ := Option.map_eq_some_iff.mp hsafe
  obtain ⟨a, ha, hblockId⟩ := Option.map_eq_some_iff.mp hanchor
  have hnewer : u.NewerL1 := by
    refine ⟨header, hheader, fun a' ha' => ?_⟩
    obtain rfl : a = a' := Option.some.inj (ha.symm.trans ha')
    omega
  obtain ⟨request, -, hnone, -⟩ :=
    hall.at (Except.toOption_eq_some_iff.mp hs) u t hu hnewer ht hfull
  rw [hnone] at hpending
  cases hpending

end Sample

end Sequencer
end TaikoGateway
