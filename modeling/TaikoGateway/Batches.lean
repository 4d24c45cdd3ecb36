/-
TaikoGateway/Batches.lean

The batches of a run, read off its events: a batch that was sent with the
blocks sealed into it (`proposedBatches`), and the blocks sealed since
(`pendingSeals`).

Main results.

* `TickStep.batches`, `Transition.batches`: a step leaves the batches alone,
  sends the pending one, or seals a block into it.  `BatchesSatisfy P` is the
  resulting form of an invariant about batches.
* `Accounted`: in every reachable state the pending request is what
  `accumulate` makes of the pending seals, and every request that was sent is
  what it made of its own (`accounted_of_run`).
* `accumulateAll_describes`: what such a request says about the blocks.
-/
import TaikoGateway.Loop

namespace TaikoGateway

/-! ### Batches in the events -/

/-- A batch that was sent to the proposer, with the blocks sealed into it. -/
structure SealedBatch where
  request : ProposeBatchParams
  seals : List Sealed
  deriving DecidableEq

/-- The batches sent so far, and the blocks sealed since the last one. -/
structure BatchLog where
  proposed : List SealedBatch
  pending : List Sealed

namespace BatchLog

def record (l : BatchLog) : Event → BatchLog
  | .sealed b => { l with pending := l.pending ++ [b] }
  | .proposed (.batch request) => ⟨l.proposed ++ [⟨request, l.pending⟩], []⟩
  | .proposed (.resync _ _) => l
  | .startedSequencing => l
  | .statusBlock _ _ => l

def ofEvents (events : List Event) : BatchLog := events.foldl record ⟨[], []⟩

theorem ofEvents_append (events more : List Event) :
    ofEvents (events ++ more) = more.foldl record (ofEvents events) := by
  rw [ofEvents, List.foldl_append]
  rfl

/-- Answers of the status check are not about batches. -/
theorem ofEvents_append_statusBlocks (events : List Event) {more : List Event}
    (h : ∀ e ∈ more, ∃ statusBlock local_, e = .statusBlock statusBlock local_) :
    ofEvents (events ++ more) = ofEvents events := by
  rw [ofEvents_append]
  induction more with
  | nil => rfl
  | cons e more ih =>
      obtain ⟨statusBlock, local_, rfl⟩ := h e List.mem_cons_self
      exact ih fun e he => h e (List.mem_cons_of_mem _ he)

end BatchLog

namespace Sequencer

variable {env : Env}

def batchLog (s : Sequencer) : BatchLog := .ofEvents s.events

def pendingSeals (s : Sequencer) : List Sealed := s.batchLog.pending

def proposedBatches (s : Sequencer) : List SealedBatch := s.batchLog.proposed

theorem batchLog_log (s : Sequencer) (e : Event) : (s.log e).batchLog = s.batchLog.record e :=
  BatchLog.ofEvents_append s.events [e]

/-! ### What steps do to batches -/

/-- The step did not touch the batches. -/
def SameBatches (s s' : Sequencer) : Prop :=
  s'.proposerRequest = s.proposerRequest ∧ s'.batchLog = s.batchLog

/-- The step sent the pending batch. -/
def SentBatch (s s' : Sequencer) : Prop :=
  ∃ request, s.proposerRequest = some request ∧ s'.proposerRequest = none ∧
    s'.batchLog = ⟨s.proposedBatches ++ [⟨request, s.pendingSeals⟩], []⟩

theorem sendBatchToProposer_batches (s : Sequencer) (stateCheck : Bool) :
    SameBatches s (s.sendBatchToProposer stateCheck) ∨
      SentBatch s (s.sendBatchToProposer stateCheck) := by
  simp only [sendBatchToProposer]
  split
  · exact Or.inl ⟨rfl, rfl⟩
  · split
    · rename_i request hrequest
      exact Or.inr ⟨request, hrequest, rfl, batchLog_log _ _⟩
    · exact Or.inl ⟨rfl, rfl⟩

theorem flushIfStale_batches (s : Sequencer) (anchorParams : AnchorParams) :
    SameBatches s (s.flushIfStale anchorParams) ∨ SentBatch s (s.flushIfStale anchorParams) := by
  simp only [flushIfStale]
  split
  · exact sendBatchToProposer_batches s false
  · exact Or.inl ⟨rfl, rfl⟩

theorem StatusGate.batches {i : TransitionInput} {s : Sequencer} {r : Sequencer × Bool}
    (h : StatusGate i s r) : SameBatches s r.1 := by
  obtain ⟨timings, needs, events, heq, hevents⟩ := h.eq
  rw [heq]
  exact ⟨rfl, BatchLog.ofEvents_append_statusBlocks s.events hevents⟩

theorem TickStep.batches {i : TickInput} {s s' : Sequencer} (h : TickStep env i s s') :
    SameBatches s s' ∨ SentBatch s s' := by
  cases h with
  | l1Block header => exact Or.inl ⟨rfl, rfl⟩
  | l2Block block hmem hrecv =>
      obtain ⟨reorged, ctx, -, rfl, -⟩ := recvL2Block_eq_ok hrecv
      exact Or.inl ⟨rfl, rfl⟩
  | originBlock header horigin => exact Or.inl ⟨rfl, rfl⟩
  | newTx tx hstate htx => exact Or.inl ⟨rfl, rfl⟩
  | sim sim hsim hstate hsd => exact Or.inl ⟨rfl, rfl⟩
  | startSequencing lookahead skip flags => exact Or.inl ⟨rfl, batchLog_log _ _⟩
  | resync origin target => exact Or.inl ⟨rfl, batchLog_log _ _⟩
  | updateAnchor header hsafe hnewer => exact sendBatchToProposer_batches _ true
  | sendBatch => exact sendBatchToProposer_batches _ true
  | quiet txPool lookahead skip timings looping flags hflags => exact Or.inl ⟨rfl, rfl⟩

/-- The transition seals this block. -/
structure Seals (i : TransitionInput) (s : Sequencer) (sd : SortData) (block : Block) : Prop where
  state : s.ctx.state = .sorting sd
  discard : sd.shouldDiscard = false
  due : sd.shouldSeal i.sealNow = true
  answer : sealAnswer i sd.stateId = .ok block

/-- A block was sealed into the pending batch. -/
def SealedBlock (s s' : Sequencer) (b : Sealed) (request : ProposeBatchParams) : Prop :=
  s'.proposerRequest = some request ∧ s'.batchLog = ⟨s.proposedBatches, s.pendingSeals ++ [b]⟩

/-- The transition leaves the batches alone, sends the pending one, or seals a
block into it and perhaps sends it then. -/
theorem Transition.batches {i : TransitionInput} {s s' : Sequencer}
    (h : Transition env i s s') :
    (SameBatches s s' ∨ SentBatch s s') ∨
      ∃ sd block request, Seals i s sd block ∧
        accumulate env s.proposerRequest (sealOf sd block) = .ok request ∧
        ∃ t, SealedBlock s t (sealOf sd block) request ∧ (SameBatches t s' ∨ SentBatch t s') := by
  have hanchoring : ∀ {g : Sequencer} {size : Nat}, s.anchoring env i = some (g, size) →
      SameBatches s g := fun hgate => (anchoring_eq_some hgate).2.2.batches
  cases h with
  | wait lastL1' hstate hg =>
      rcases hg with rfl | hg
      · exact Or.inl (Or.inl ⟨rfl, rfl⟩)
      · exact Or.inl (Or.inl hg.batches)
  | anchored active txPool timings hgate hanchor =>
      obtain ⟨hrequest, hlog⟩ := hanchoring hgate
      exact Or.inl (Or.inl ⟨hrequest, hlog⟩)
  | anchorFailed timings count hgate =>
      obtain ⟨hrequest, hlog⟩ := hanchoring hgate
      exact Or.inl (Or.inl ⟨hrequest, hlog⟩)
  | discarded hstate hdiscard => exact Or.inl (flushIfStale_batches _ _)
  | sealed timings hstate hdiscard hseal hanswer hctx hrequest =>
      refine Or.inr ⟨_, _, _, ⟨hstate, hdiscard, hseal, hanswer⟩, hrequest, _, ⟨rfl, ?_⟩,
        flushIfStale_batches _ _⟩
      exact batchLog_log _ _
  | sealFailed hstate hdiscard hseal hanswer htolerated => exact Or.inl (Or.inl ⟨rfl, rfl⟩)
  | round hstate hround => exact Or.inl (Or.inl ⟨rfl, rfl⟩)

/-- A block that is under construction afterwards has been started, or has
gone through a round; the batches are left alone. -/
theorem Transition.sorting_cases {i : TransitionInput} {s s' : Sequencer} {sd' : SortData}
    (h : Transition env i s s') (hstate' : s'.ctx.state = .sorting sd') :
    SameBatches s s' ∧
      ((∃ g size stateId blockInfo active, s.anchoring env i = some (g, size) ∧
        g.anchorBlock env i = .ok (.ok (stateId, blockInfo)) ∧
        sd' = .new blockInfo stateId active env.chainConfig.blockMaxGasLimit
          env.config.targetBlockTime size env.config i.sortNow) ∨
        ∃ sd orders, s.ctx.state = .sorting sd ∧
          sd.maybeSimNextBatch env.config i.simNow = .ok (sd', orders)) := by
  cases h with
  | wait lastL1' hstate hg => cases hstate'
  | anchored active txPool timings hgate hanchor =>
      cases hstate'
      obtain ⟨hrequest, hlog⟩ := (anchoring_eq_some hgate).2.2.batches
      exact ⟨⟨hrequest, hlog⟩, Or.inl ⟨_, _, _, _, active, hgate, hanchor, rfl⟩⟩
  | @anchorFailed g size timings count hgate =>
      have hsync : g.ctx.state = .sync 0 := congrArg SequencerContext.state (anchoring_ctx hgate)
      cases hsync.symm.trans hstate'
  | discarded hstate hdiscard => cases (flushIfStale_state _ _).symm.trans hstate'
  | sealed timings hstate hdiscard hseal hanswer hctx hrequest =>
      cases (sealed_state hctx _).symm.trans hstate'
  | sealFailed hstate hdiscard hseal hanswer htolerated => cases hstate'
  | round hstate hround =>
      cases hstate'
      exact ⟨⟨rfl, rfl⟩, Or.inr ⟨_, _, hstate, hround⟩⟩

/-! ### Invariants about batches -/

/-- `P` holds of the pending batch and of every batch that was sent, with the
blocks sealed into them. -/
structure BatchesSatisfy (P : Option ProposeBatchParams → List Sealed → Prop) (s : Sequencer) :
    Prop where
  pending : P s.proposerRequest s.pendingSeals
  proposed : ∀ b ∈ s.proposedBatches, P (some b.request) b.seals

section Satisfy

variable {P : Option ProposeBatchParams → List Sealed → Prop} {s s' : Sequencer}

theorem BatchesSatisfy.same (hs : BatchesSatisfy P s) (h : SameBatches s s') :
    BatchesSatisfy P s' := by
  obtain ⟨hrequest, hlog⟩ := h
  refine ⟨?_, ?_⟩
  · rw [pendingSeals, hlog, hrequest]
    exact hs.pending
  · rw [proposedBatches, hlog]
    exact hs.proposed

theorem BatchesSatisfy.sent (hnone : P none []) (hs : BatchesSatisfy P s) (h : SentBatch s s') :
    BatchesSatisfy P s' := by
  obtain ⟨request, hrequest, hnone', hlog⟩ := h
  refine ⟨?_, ?_⟩
  · rw [pendingSeals, hlog, hnone']
    exact hnone
  · rw [proposedBatches, hlog]
    intro b hb
    rcases List.mem_append.mp hb with hb | hb
    · exact hs.proposed b hb
    · rw [List.mem_singleton.mp hb]
      have hpending := hs.pending
      rwa [hrequest] at hpending

theorem BatchesSatisfy.sealed {b : Sealed} {request : ProposeBatchParams}
    (hs : BatchesSatisfy P s) (h : SealedBlock s s' b request)
    (hP : P (some request) (s.pendingSeals ++ [b])) : BatchesSatisfy P s' := by
  obtain ⟨hrequest, hlog⟩ := h
  refine ⟨?_, ?_⟩
  · rw [pendingSeals, hlog, hrequest]
    exact hP
  · rw [proposedBatches, hlog]
    exact hs.proposed

theorem BatchesSatisfy.tickStep {i : TickInput} (hnone : P none []) (h : TickStep env i s s')
    (hs : BatchesSatisfy P s) : BatchesSatisfy P s' := by
  rcases h.batches with hsame | hsent
  · exact hs.same hsame
  · exact hs.sent hnone hsent

/-- Only a seal has to be shown to keep `P`. -/
theorem BatchesSatisfy.transition {i : TransitionInput} (hnone : P none [])
    (hs : BatchesSatisfy P s)
    (hseal : ∀ sd block request, Seals i s sd block →
      accumulate env s.proposerRequest (sealOf sd block) = .ok request →
      P (some request) (s.pendingSeals ++ [sealOf sd block]))
    (h : Transition env i s s') : BatchesSatisfy P s' := by
  rcases h.batches with (hsame | hsent) |
    ⟨sd, block, request, hseals, hrequest, t, hsealed, hflush⟩
  · exact hs.same hsame
  · exact hs.sent hnone hsent
  · have ht : BatchesSatisfy P t :=
      hs.sealed hsealed (hseal sd block request hseals hrequest)
    rcases hflush with hsame | hsent
    · exact ht.same hsame
    · exact ht.sent hnone hsent

theorem BatchesSatisfy.new (hnone : P none []) (env : Env) (lookahead : LookaheadHandle)
    (now : Instant) : BatchesSatisfy P (Sequencer.new env lookahead now) :=
  ⟨hnone, fun _ hb => absurd hb List.not_mem_nil⟩

end Satisfy

/-! ### Requests are what was accumulated -/

/-- The request after sealing these blocks, one after the other. -/
def accumulateAll (env : Env) (bs : List Sealed) : Except Panic (Option ProposeBatchParams) :=
  bs.foldlM (fun request b => do
    let request ← accumulate env request b
    .ok (some request)) none

theorem accumulateAll_nil : accumulateAll env [] = .ok none := rfl

theorem accumulateAll_concat_eq_ok {bs : List Sealed} {b : Sealed}
    {r : Option ProposeBatchParams} :
    accumulateAll env (bs ++ [b]) = .ok r ↔
      ∃ before request, accumulateAll env bs = .ok before ∧
        accumulate env before b = .ok request ∧ r = some request := by
  simp only [accumulateAll, List.foldlM_append, List.foldlM_cons, List.foldlM_nil]
  constructor
  · intro h
    obtain ⟨before, hbefore, h⟩ := Except.bind_eq_ok_iff.mp h
    obtain ⟨after, hafter, h⟩ := Except.bind_eq_ok_iff.mp h
    obtain ⟨request, hrequest, hok⟩ := Except.bind_eq_ok_iff.mp hafter
    cases hok
    cases h
    exact ⟨before, request, hbefore, hrequest, rfl⟩
  · rintro ⟨before, request, hbefore, hrequest, rfl⟩
    rw [hbefore]
    show (accumulate env before b >>= fun request => Except.ok (some request)) >>= _ = _
    rw [hrequest]
    rfl

/-- Without a request nothing was sealed. -/
theorem accumulateAll_eq_none {bs : List Sealed} (h : accumulateAll env bs = .ok none) :
    bs = [] := by
  cases bs using List.reverseRecOn with
  | nil => rfl
  | append_singleton bs b =>
      obtain ⟨_, _, _, _, hnone⟩ := accumulateAll_concat_eq_ok.mp h
      cases hnone

/-- Every request is what `accumulate` makes of the blocks sealed into it. -/
def Accounted (env : Env) : Sequencer → Prop :=
  BatchesSatisfy fun request bs => accumulateAll env bs = .ok request

theorem Accounted.of_transition {s s' : Sequencer} {i : TransitionInput} (hs : Accounted env s)
    (h : Transition env i s s') : Accounted env s' := by
  apply BatchesSatisfy.transition accumulateAll_nil hs _ h
  intro sd block request _ hrequest
  exact accumulateAll_concat_eq_ok.mpr ⟨_, request, hs.pending, hrequest, rfl⟩

/-- **Every run accounts for its batches.** -/
theorem accounted_iteration {s s' : Sequencer} {i : Input} (hs : Accounted env s)
    (h : s.iteration env i = .ok s') : Accounted env s' :=
  iteration_keeps (Accounted env) (fun hstep hs => hs.tickStep accumulateAll_nil hstep)
    (fun _ ht htrans => ht.of_transition htrans) hs h

theorem accounted_of_run {lookahead : LookaheadHandle} {now : Instant} {is : List Input}
    {s : Sequencer} (h : is.foldlM (iteration env) (.new env lookahead now) = .ok s) :
    Accounted env s :=
  Run.run_invariant (Accounted env) is (fun _ _ _ _ hs h => accounted_iteration hs h)
    (.new accumulateAll_nil env lookahead now) h

/-! ### What a request says about its blocks -/

/-- The request before its first block. -/
def firstRequest (env : Env) (b : Sealed) : ProposeBatchParams :=
  { anchorBlockId := b.blockInfo.anchorParams.blockId
    startBlockNum := b.block.header.number
    coinbase := env.config.coinbaseAddress }

/-- The request with one more block. -/
def withBlock (env : Env) (request : ProposeBatchParams) (shift : Nat) (b : Sealed) :
    ProposeBatchParams :=
  { request with
    endBlockNum := b.block.header.number
    lastTimestamp := b.block.header.timestamp
    blockParams := request.blockParams ++ [⟨b.orders.length % 2 ^ 16, shift, []⟩]
    allTxList := request.allTxList ++ b.orders
    compressedEst := request.compressedEst + env.config.estimateCompressedSize b.uncompressedSize }

/-- What `accumulate` does when it does not abort. -/
theorem accumulate_eq_ok {r : Option ProposeBatchParams} {b : Sealed}
    {request : ProposeBatchParams} (h : accumulate env r b = .ok request) :
    b.block.transactions.length = b.orders.length + 1 ∧
      (r = none ∧ request = withBlock env (firstRequest env b) 0 b ∨
        ∃ before, r = some before ∧
          before.anchorBlockId = b.blockInfo.anchorParams.blockId ∧
          b.block.header.timestamp - before.lastTimestamp < 2 ^ 8 ∧
          request =
            withBlock env before (b.block.header.timestamp - before.lastTimestamp) b) := by
  -- the count of the transactions is checked last, on both branches
  have hlength : ∀ {base : ProposeBatchParams} {shift : Nat},
      (if b.block.transactions.length ≠ b.orders.length + 1 then
          Except.error Panic.txCountMismatch
        else Except.ok ({ base with
          endBlockNum := b.block.header.number
          lastTimestamp := b.block.header.timestamp
          blockParams := base.blockParams ++
            [⟨u64Sub b.block.transactions.length 1 % 2 ^ 16, shift, []⟩]
          allTxList := base.allTxList ++ b.orders
          compressedEst := base.compressedEst +
            env.config.estimateCompressedSize b.uncompressedSize } : ProposeBatchParams)) =
        .ok request →
      b.block.transactions.length = b.orders.length + 1 ∧ request = withBlock env base shift b := by
    intro base shift h
    by_cases hlen : b.block.transactions.length = b.orders.length + 1
    · rw [if_neg (not_not.mpr hlen), hlen, u64Sub_of_le (by omega), Nat.add_sub_cancel] at h
      cases h
      exact ⟨hlen, rfl⟩
    · rw [if_pos hlen] at h
      cases h
  cases r with
  | none =>
      obtain ⟨hlen, heq⟩ := hlength h
      exact ⟨hlen, Or.inl ⟨rfl, heq⟩⟩
  | some before =>
      simp only [accumulate] at h
      split at h
      · cases h
      · rename_i hanchor
        split at h
        · rename_i hshift
          obtain ⟨hlen, heq⟩ := hlength h
          exact ⟨hlen, Or.inr ⟨before, rfl, not_not.mp hanchor, hshift, heq⟩⟩
        · cases h

/-- The assertions of `accumulate`. -/
theorem accumulate_aborts {r : Option ProposeBatchParams} {b : Sealed} {p : Panic}
    (h : accumulate env r b = .error p) :
    p = .timeShiftTooLarge ∨
      (p = .txCountMismatch ∧ b.block.transactions.length ≠ b.orders.length + 1) ∨
      (p = .anchorIdMismatch ∧ ∃ before, r = some before ∧
        before.anchorBlockId ≠ b.blockInfo.anchorParams.blockId) := by
  have hlength : ∀ {x : ProposeBatchParams},
      (if b.block.transactions.length ≠ b.orders.length + 1 then
          Except.error Panic.txCountMismatch else Except.ok x) = .error p →
      p = .txCountMismatch ∧ b.block.transactions.length ≠ b.orders.length + 1 := by
    intro x h
    split at h
    · rename_i hne
      cases h
      exact ⟨rfl, hne⟩
    · cases h
  cases r with
  | none => exact Or.inr (Or.inl (hlength h))
  | some before =>
      simp only [accumulate] at h
      split at h
      · rename_i hne
        cases h
        exact Or.inr (Or.inr ⟨rfl, before, rfl, hne⟩)
      · split at h
        · exact Or.inr (Or.inl (hlength h))
        · cases h
          exact Or.inl rfl

/-- The request describes these blocks. -/
structure Describes (env : Env) (request : ProposeBatchParams) (bs : List Sealed) : Prop where
  anchor : ∀ b ∈ bs, b.blockInfo.anchorParams.blockId = request.anchorBlockId
  start : bs.head?.map (·.block.header.number) = some request.startBlockNum
  last : bs.getLast?.map (·.block.header.number) = some request.endBlockNum
  timestamp : bs.getLast?.map (·.block.header.timestamp) = some request.lastTimestamp
  coinbase : request.coinbase = env.config.coinbaseAddress
  counts : request.blockParams.map (·.numTransactions) = bs.map (·.orders.length % 2 ^ 16)
  txs : request.allTxList = bs.flatMap (·.orders)
  lengths : ∀ b ∈ bs, b.block.transactions.length = b.orders.length + 1

theorem describes_first {b : Sealed}
    (hlength : b.block.transactions.length = b.orders.length + 1) :
    Describes env (withBlock env (firstRequest env b) 0 b) [b] where
  anchor := by simp [withBlock, firstRequest]
  start := rfl
  last := rfl
  timestamp := rfl
  coinbase := rfl
  counts := rfl
  txs := by simp [withBlock, firstRequest]
  lengths := by simpa using hlength

theorem Describes.concat {request : ProposeBatchParams} {bs : List Sealed} {b : Sealed}
    (h : Describes env request bs) (shift : Nat)
    (hanchor : request.anchorBlockId = b.blockInfo.anchorParams.blockId)
    (hlength : b.block.transactions.length = b.orders.length + 1) :
    Describes env (withBlock env request shift b) (bs ++ [b]) where
  anchor := by
    intro b' hb'
    rcases List.mem_append.mp hb' with hb' | hb'
    · exact h.anchor b' hb'
    · rw [List.mem_singleton.mp hb']
      exact hanchor.symm
  start := by
    have hne : bs ≠ [] := by
      rintro rfl
      cases h.start
    rw [List.head?_append_of_ne_nil bs hne]
    exact h.start
  last := by rw [List.getLast?_concat]; rfl
  timestamp := by rw [List.getLast?_concat]; rfl
  coinbase := h.coinbase
  counts := by
    rw [List.map_append, ← h.counts]
    exact List.map_append
  txs := by
    rw [List.flatMap_append, ← h.txs, List.flatMap_singleton]
    rfl
  lengths := by
    intro b' hb'
    rcases List.mem_append.mp hb' with hb' | hb'
    · exact h.lengths b' hb'
    · rw [List.mem_singleton.mp hb']
      exact hlength

/-- **What was accumulated describes the blocks.** -/
theorem accumulateAll_describes {bs : List Sealed} :
    ∀ {request : ProposeBatchParams}, accumulateAll env bs = .ok (some request) →
      Describes env request bs := by
  induction bs using List.reverseRecOn with
  | nil =>
      intro request h
      cases h
  | append_singleton bs b ih =>
      intro request h
      obtain ⟨before, request', hbefore, hrequest, heq⟩ := accumulateAll_concat_eq_ok.mp h
      cases heq
      obtain ⟨hlength, ⟨rfl, rfl⟩ | ⟨before, rfl, hanchor, -, rfl⟩⟩ := accumulate_eq_ok hrequest
      · -- nothing was pending, so these are the first blocks
        rw [accumulateAll_eq_none hbefore]
        exact describes_first hlength
      · exact (ih hbefore).concat _ hanchor hlength

theorem Describes.ne_nil {request : ProposeBatchParams} {bs : List Sealed}
    (h : Describes env request bs) : bs ≠ [] := by
  rintro rfl
  cases h.start

theorem Describes.length_blockParams {request : ProposeBatchParams} {bs : List Sealed}
    (h : Describes env request bs) : request.blockParams.length = bs.length := by
  have hcounts := congrArg List.length h.counts
  rwa [List.length_map, List.length_map] at hcounts

end Sequencer
end TaikoGateway
