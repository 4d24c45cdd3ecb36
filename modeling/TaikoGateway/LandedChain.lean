/-
TaikoGateway/LandedChain.lean

The sequencer, the channel to the proposer, and the proposer.

The sequencer seals blocks, which the L2 network follows right away, and sends
their batches, and now and then a request to propose what others left behind.
The proposer takes the requests out of the channel one after the other, a resync
again until it succeeds, and calls `propose_batch` for batch after batch.  The
two share nothing but the channel, so any interleaving of their steps, with
those of L1, is a run of the `Gateway`.

`landed_chain` puts together what is known of the parts: L1 derives, batch by
batch, the blocks the landed batches were made of, each batch once and in the
order of the calls; those of the sequencer's own batches are, in order, part of
the chain that was sealed; and nothing is missing when every call really
succeeded.  A resync may carry blocks of a batch that lands all the same, so a
block may be in two batches.
-/
import TaikoGateway.DerivedResync
import TaikoGateway.ProposalOrder

namespace TaikoGateway

open BlobEncoding
open ProposeBatch (Proposer ProposerEvent)

/-! ### The channel -/

/-- A request in the channel, a batch with the blocks sealed into it. -/
inductive SentRequest
  | batch (b : SealedBatch)
  | resync (origin last : Nat)
  deriving DecidableEq

/-- The requests sent so far, and the blocks sealed since the last batch. -/
structure SentLog where
  sent : List SentRequest
  pending : List Sealed

def SentRequest.batch? : SentRequest → Option SealedBatch
  | .batch b => some b
  | .resync _ _ => none

namespace SentLog

def record (l : SentLog) : Event → SentLog
  | .sealed b => { l with pending := l.pending ++ [b] }
  | .proposed (.batch request) => ⟨l.sent ++ [.batch ⟨request, l.pending⟩], []⟩
  | .proposed (.resync origin target) => { l with sent := l.sent ++ [.resync origin target] }
  | .startedSequencing => l
  | .statusBlock _ _ => l

def ofEvents (events : List Event) : SentLog := events.foldl record ⟨[], []⟩

/-- Nothing is taken back. -/
theorem sent_prefix (l : SentLog) (events : List Event) :
    l.sent <+: (events.foldl record l).sent := by
  induction events generalizing l with
  | nil => exact List.prefix_rfl
  | cons e events ih =>
      rw [List.foldl_cons]
      apply List.IsPrefix.trans _ (ih (l.record e))
      cases e with
      | proposed request =>
          cases request with
          | batch request => exact List.prefix_append _ _
          | resync origin target => exact List.prefix_append _ _
      | _ => exact List.prefix_rfl

theorem sent_mono {events events' : List Event} (h : events <+: events') :
    (ofEvents events).sent <+: (ofEvents events').sent := by
  obtain ⟨more, rfl⟩ := h
  rw [ofEvents, ofEvents, List.foldl_append]
  exact sent_prefix _ more

/-- The batches among the requests. -/
def batchLog (l : SentLog) : BatchLog := ⟨l.sent.filterMap SentRequest.batch?, l.pending⟩

theorem batchLog_record (l : SentLog) (e : Event) :
    (l.record e).batchLog = l.batchLog.record e := by
  cases e with
  | proposed request =>
      cases request with
      | batch request =>
          simp only [record, batchLog, BatchLog.record, List.filterMap_append]
          rfl
      | resync origin target =>
          simp only [record, batchLog, BatchLog.record, List.filterMap_append]
          rw [show [SentRequest.resync origin target].filterMap SentRequest.batch? = [] from rfl,
            List.append_nil]
  | _ => rfl

theorem batchLog_ofEvents (events : List Event) :
    (ofEvents events).batchLog = .ofEvents events := by
  have hhom := @List.foldl_hom _ _ _ batchLog record BatchLog.record events ⟨[], []⟩
    fun l e => (batchLog_record l e).symm
  exact hhom.symm

end SentLog

namespace Sequencer

variable {env : Env} {s s' : Sequencer}

/-- The requests sent so far, in order. -/
def sentRequests (s : Sequencer) : List SentRequest := (SentLog.ofEvents s.events).sent

theorem batches_sentRequests (s : Sequencer) :
    s.sentRequests.filterMap SentRequest.batch? = s.proposedBatches :=
  congrArg BatchLog.proposed (SentLog.batchLog_ofEvents s.events)

/-! ### Events are only added -/

theorem sendBatchToProposer_events (s : Sequencer) (stateCheck : Bool) :
    s.events <+: (s.sendBatchToProposer stateCheck).events := by
  simp only [sendBatchToProposer]
  split
  · exact List.prefix_rfl
  · split
    · exact List.prefix_append _ _
    · exact List.prefix_rfl

theorem flushIfStale_events (s : Sequencer) (anchorParams : AnchorParams) :
    s.events <+: (s.flushIfStale anchorParams).events := by
  simp only [flushIfStale]
  split
  · exact sendBatchToProposer_events s false
  · exact List.prefix_rfl

theorem TickStep.events {i : TickInput} (h : TickStep env i s s') : s.events <+: s'.events := by
  cases h with
  | l2Block block hmem hrecv =>
      obtain ⟨reorged, ctx, -, rfl, -⟩ := recvL2Block_eq_ok hrecv
      exact List.prefix_rfl
  | startSequencing lookahead skip flags => exact List.prefix_append _ _
  | resync origin target => exact List.prefix_append _ _
  | updateAnchor header hsafe hnewer =>
      rw [updateAnchor_eq]
      exact sendBatchToProposer_events (s.setAnchor header i.anchorCreatedUtc) true
  | sendBatch => exact sendBatchToProposer_events _ true
  | _ => exact List.prefix_rfl

theorem StatusGate.events {i : TransitionInput} {r : Sequencer × Bool} (h : StatusGate i s r) :
    s.events <+: r.1.events := by
  obtain ⟨timings, needs, events, heq, -⟩ := h.eq
  rw [heq]
  exact List.prefix_append _ _

theorem Transition.events {i : TransitionInput} (h : Transition env i s s') :
    s.events <+: s'.events := by
  have hanchoring : ∀ {g : Sequencer} {size : Nat}, s.anchoring env i = some (g, size) →
      s.events <+: g.events := fun hgate => (anchoring_eq_some hgate).2.2.events
  cases h with
  | wait lastL1' hstate hg =>
      rcases hg with rfl | hg
      · exact List.prefix_rfl
      · exact hg.events
  | anchored active txPool timings hgate hanchor =>
      have hevents := hanchoring hgate
      exact hevents
  | anchorFailed timings anchorErrorCount hgate =>
      have hevents := hanchoring hgate
      exact hevents
  | @discarded sd hstate hdiscard =>
      exact flushIfStale_events { s.takeState with txPool := s.txPool.clearNonces }
        sd.blockInfo.anchorParams
  | @sealed sd block reorged ctx request timings hstate hdiscard hseal hanswer hctx hrequest =>
      have hlog : s.events <+: (s.takeState.withSealed sd block ctx request).events :=
        List.prefix_append _ _
      exact hlog.trans (flushIfStale_events _ sd.blockInfo.anchorParams)
  | sealFailed hstate hdiscard hseal hanswer htolerated => exact List.prefix_rfl
  | round hstate hround => exact List.prefix_rfl

theorem iteration_events {i : Input} (h : s.iteration env i = .ok s') :
    s.events <+: s'.events :=
  iteration_keeps (fun t => s.events <+: t.events) (fun hstep hs => hs.trans hstep.events)
    (fun _ ht htrans => ht.trans htrans.events) List.prefix_rfl h

end Sequencer

/-! ### The gateway -/

/-- A batch to propose. -/
structure Issue where
  request : ProposeBatchParams
  /-- the blocks it was made of -/
  blocks : List DerivedBlock
  resynced : Bool
  deriving DecidableEq

def SealedBatch.issue (b : SealedBatch) : Issue :=
  ⟨b.request, b.seals.map (·.block.content), false⟩

def Proposal.issue (content : Block → DerivedBlock) (p : Proposal) : Issue :=
  ⟨p.request, p.blocks.map content, true⟩

/-- The blocks a resync fetches. -/
def fetched (env : ResyncEnv) (origin last : Nat) : List Block :=
  ((fetchNBlocks env.getBlock (origin + 1) last).toOption).getD []

structure Gateway where
  sequencer : Sequencer
  /-- how many requests the proposer is through with -/
  taken : Nat
  /-- the batches it has still to propose -/
  queue : List Issue
  /-- the batches it has called `propose_batch` for -/
  calls : List Issue
  proposer : Proposer

inductive GatewayEvent
  /-- a turn of the main loop of the sequencer -/
  | loop (i : Input)
  /-- the proposer receives a batch -/
  | takeBatch
  /-- the proposer runs the resync it has received -/
  | resync (env : ResyncEnv)
  /-- the next call of `propose_batch` -/
  | propose
  /-- anything that happens to the calls -/
  | proposing (e : ProposerEvent)

/-- The size assertion admits the tx list. -/
def Admitted (codec : TxListCodec) (request : ProposeBatchParams) : Prop :=
  (codec.encodeAndCompressOrders request.allTxList).length / maxBlobDataSize ≤
    maxBlobsPerBlockDencun

/-- The request stands for these blocks, and can be encoded. -/
def Issue.Derives (codec : TxListCodec) (i : Issue) : Prop :=
  i.request.derived = i.blocks ∧ Admitted codec i.request

namespace Gateway

/-- The request the proposer is at. -/
def next (g : Gateway) : Option SentRequest := g.sequencer.sentRequests[g.taken]?

/-- All batches so far are proposed. -/
def Idle (g : Gateway) : Prop := g.queue = [] ∧ ∀ c ∈ g.proposer.calls.getLast?, c.Returned

instance (g : Gateway) : Decidable g.Idle := inferInstanceAs (Decidable (_ ∧ _))

def step (env : Env) (m : ProposerManager) (g : Gateway) : GatewayEvent → Except Unit Gateway
  | .loop i =>
      match g.sequencer.iteration env i with
      | .error _ => .error ()
      | .ok sequencer => .ok { g with sequencer := sequencer }
  | .takeBatch =>
      match g.next with
      | some (.batch b) =>
          if g.Idle then .ok { g with taken := g.taken + 1, queue := [b.issue] } else .error ()
      | _ => .error ()
  | .resync renv =>
      match g.next with
      | some (.resync origin last) =>
          if g.Idle then
            match TaikoGateway.resync m renv origin last with
            | .error (.panic _) => .error ()
            -- again in 12 seconds
            | .error _ => .ok g
            | .ok outcome =>
                let content := reproposed m renv (fetched renv origin last)
                .ok { g with
                  -- a failed check of the proposed blocks runs the resync again
                  taken := if outcome.result.isOk then g.taken + 1 else g.taken
                  queue := outcome.issued.map (Proposal.issue content) }
          else .error ()
      | _ => .error ()
  | .propose =>
      match g.queue with
      | [] => .error ()
      | issue :: queue => do
          let proposer ← g.proposer.step .nextRequest
          .ok { g with queue := queue, calls := g.calls ++ [issue], proposer := proposer }
  | .proposing e =>
      if e = .nextRequest then .error ()
      else do
        let proposer ← g.proposer.step e
        .ok { g with proposer := proposer }

/-- Before the start; the key may have other transactions under way. -/
def new (env : Env) (lookahead : LookaheadHandle) (now : Instant) (accountNonce : Nat)
    (others : List (Nat × Nat)) : Gateway :=
  ⟨.new env lookahead now, 0, [], [], .init accountNonce others⟩

/-- What L1 derives from the batches it has, in the order it has them. -/
def landedChain (abi : Abi) (kzg : Kzg) (codec : TxListCodec) (proposer : Address)
    (g : Gateway) : Option (List DerivedBlock) := do
  let batches ← g.proposer.landed.mapM fun k => do
    let issue ← g.calls[k]?
    derivedBlocks abi kzg codec proposer issue.request
  some batches.flatten

/-- The batches that have landed, in the order L1 has them. -/
def landedCalls (g : Gateway) : List Issue := g.proposer.landed.filterMap fun k => g.calls[k]?

/-- The blocks of the batches that the sequencer sealed. -/
def ownBlocks (issues : List Issue) : List DerivedBlock :=
  (issues.filter fun i => !i.resynced).flatMap (·.blocks)

/-! ### Steps -/

/-- What a step does. -/
inductive Step (env : Env) (m : ProposerManager) (g : Gateway) : GatewayEvent → Gateway → Prop
  | loop {i : Input} {sequencer : Sequencer} (h : g.sequencer.iteration env i = .ok sequencer) :
      Step env m g (.loop i) { g with sequencer := sequencer }
  | takeBatch {b : SealedBatch} (hnext : g.next = some (.batch b)) (hidle : g.Idle) :
      Step env m g .takeBatch { g with taken := g.taken + 1, queue := [b.issue] }
  | resyncFailed {renv : ResyncEnv} : Step env m g (.resync renv) g
  | resync {renv : ResyncEnv} {origin last taken : Nat} {outcome : ResyncOutcome}
      (hnext : g.next = some (.resync origin last)) (hidle : g.Idle)
      (houtcome : TaikoGateway.resync m renv origin last = .ok outcome)
      (htaken : taken = g.taken ∨ taken = g.taken + 1) :
      Step env m g (.resync renv) { g with
        taken := taken
        queue := outcome.issued.map
          (Proposal.issue (reproposed m renv (fetched renv origin last))) }
  | propose {issue : Issue} {queue : List Issue} {proposer : Proposer}
      (hqueue : g.queue = issue :: queue) (h : g.proposer.step .nextRequest = .ok proposer) :
      Step env m g .propose
        { g with queue := queue, calls := g.calls ++ [issue], proposer := proposer }
  | proposing {e : ProposerEvent} {proposer : Proposer} (he : e ≠ .nextRequest)
      (h : g.proposer.step e = .ok proposer) :
      Step env m g (.proposing e) { g with proposer := proposer }

theorem step_cases {env : Env} {m : ProposerManager} {g g' : Gateway} {e : GatewayEvent}
    (h : g.step env m e = .ok g') : Step env m g e g' := by
  cases e with
  | loop i =>
      simp only [Gateway.step] at h
      split at h
      · cases h
      · rename_i s' hs'
        cases h
        exact .loop hs'
  | takeBatch =>
      simp only [Gateway.step] at h
      split at h
      · rename_i b hnext
        split at h
        · rename_i hidle
          cases h
          exact .takeBatch hnext hidle
        · cases h
      · cases h
  | resync renv =>
      simp only [Gateway.step] at h
      split at h
      · rename_i origin last hnext
        split at h
        · rename_i hidle
          split at h
          · cases h
          · cases h
            exact .resyncFailed
          · rename_i outcome houtcome
            cases h
            apply Step.resync hnext hidle houtcome
            split
            · exact Or.inr rfl
            · exact Or.inl rfl
        · cases h
      · cases h
  | propose =>
      simp only [Gateway.step] at h
      split at h
      · cases h
      · rename_i issue queue hqueue
        obtain ⟨proposer, hproposer, hdone⟩ := Except.bind_eq_ok_iff.mp h
        cases hdone
        exact .propose hqueue hproposer
  | proposing e =>
      simp only [Gateway.step] at h
      split at h
      · cases h
      · rename_i he
        obtain ⟨proposer, hproposer, hdone⟩ := Except.bind_eq_ok_iff.mp h
        cases hdone
        exact .proposing he hproposer

/-! ### What a run keeps -/

/-- What is asked of the sequencer's inputs, as for `Sequencer.DerivedInv`, and
of the blocks a resync proposes again. -/
def Assumed (env : Env) (denote : StateId → BlockState) (m : ProposerManager) (g : Gateway) :
    GatewayEvent → Prop
  | .loop i => HonestSimulator denote i ∧ HonestHeaders denote i ∧
      Sequencer.SmallBlocks i ∧
      g.sequencer.StartsOnPending env i
  | .resync renv => ∀ origin last outcome, g.next = some (.resync origin last) →
      TaikoGateway.resync m renv origin last = .ok outcome →
      ∃ coinbase blocks, ResyncAnswers renv origin last blocks ∧
        (∀ b ∈ blocks, Reproposable m coinbase b) ∧ AnchorsOrdered blocks ∧
        (reanchors m renv blocks = false → blocks.IsChain Paced)
  | _ => True

structure Inv (env : Env) (denote : StateId → BlockState) (codec : TxListCodec) (g : Gateway) :
    Prop where
  sequencer : g.sequencer.DerivedInv env denote
  proposer : g.proposer.Inv
  calls : g.proposer.calls.length = g.calls.length
  taken : g.taken ≤ g.sequencer.sentRequests.length
  /-- the sequencer's own batches are those it has sent, in order -/
  batches : (g.calls ++ g.queue).filter (fun i => !i.resynced) =
    ((g.sequencer.sentRequests.take g.taken).filterMap SentRequest.batch?).map SealedBatch.issue
  resynced : ∀ i ∈ g.calls ++ g.queue, i.resynced = true → i.Derives codec

section Steps

variable {env : Env} {denote : StateId → BlockState} {codec : TxListCodec} {m : ProposerManager}
  {g g' : Gateway}

theorem inv_new (env : Env) (denote : StateId → BlockState) (codec : TxListCodec)
    (lookahead : LookaheadHandle) (now : Instant) (accountNonce : Nat)
    (others : List (Nat × Nat)) :
    (new env lookahead now accountNonce others).Inv env denote codec where
  sequencer := Sequencer.derivedInv_new env denote lookahead now
  proposer := Proposer.inv_init accountNonce others
  calls := rfl
  taken := Nat.zero_le _
  batches := rfl
  resynced := fun _ hi => absurd hi List.not_mem_nil

/-- What has been sent stays sent. -/
theorem Inv.loop (h : g.Inv env denote codec) {s' : Sequencer}
    (hs : s'.DerivedInv env denote) (hevents : g.sequencer.events <+: s'.events) :
    Inv env denote codec { g with sequencer := s' } := by
  have hsent : g.sequencer.sentRequests <+: s'.sentRequests := SentLog.sent_mono hevents
  refine ⟨hs, h.proposer, h.calls, h.taken.trans hsent.length_le, ?_, h.resynced⟩
  have htake : s'.sentRequests.take g.taken = g.sequencer.sentRequests.take g.taken := by
    obtain ⟨more, hmore⟩ := hsent
    rw [← hmore, List.take_append_of_le_length h.taken]
  rw [htake]
  exact h.batches

theorem lt_of_next {r : SentRequest} (h : g.next = some r) :
    g.taken < g.sequencer.sentRequests.length :=
  (List.getElem?_eq_some_iff.mp h).1

theorem take_next {r : SentRequest} (h : g.next = some r) :
    g.sequencer.sentRequests.take (g.taken + 1) = g.sequencer.sentRequests.take g.taken ++ [r] := by
  rw [List.take_add_one]
  exact congrArg (g.sequencer.sentRequests.take g.taken ++ ·) (congrArg Option.toList h)

theorem Inv.takeBatch (h : g.Inv env denote codec) {b : SealedBatch}
    (hnext : g.next = some (.batch b)) (hidle : g.Idle) :
    Inv env denote codec { g with taken := g.taken + 1, queue := [b.issue] } where
  sequencer := h.sequencer
  proposer := h.proposer
  calls := h.calls
  taken := lt_of_next hnext
  batches := by
    have hbatches := h.batches
    rw [hidle.1, List.append_nil] at hbatches
    show (g.calls ++ [b.issue]).filter _ = _
    rw [List.filter_append, hbatches, take_next hnext, List.filterMap_append, List.map_append]
    rfl
  resynced := by
    intro i hi hresynced
    rcases List.mem_append.mp hi with hi | hi
    · exact h.resynced i (List.mem_append_left _ hi) hresynced
    · rw [List.mem_singleton.mp hi] at hresynced
      cases hresynced

/-- The batches of a resync, which is run again or is over. -/
theorem Inv.resync (h : g.Inv env denote codec) {origin last : Nat} {issues : List Issue}
    {taken : Nat} (hnext : g.next = some (.resync origin last)) (hidle : g.Idle)
    (htaken : taken = g.taken ∨ taken = g.taken + 1)
    (hissues : ∀ i ∈ issues, i.resynced = true ∧ i.Derives codec) :
    Inv env denote codec { g with taken := taken, queue := issues } where
  sequencer := h.sequencer
  proposer := h.proposer
  calls := h.calls
  taken := by
    have hlt := lt_of_next hnext
    show taken ≤ g.sequencer.sentRequests.length
    omega
  batches := by
    have hbatches := h.batches
    rw [hidle.1, List.append_nil] at hbatches
    have hnone : issues.filter (fun i => !i.resynced) = [] := by
      rw [List.filter_eq_nil_iff]
      intro i hi
      simp only [(hissues i hi).1, Bool.not_true, Bool.false_eq_true, not_false_eq_true]
    have hsame : (g.sequencer.sentRequests.take taken).filterMap SentRequest.batch? =
        (g.sequencer.sentRequests.take g.taken).filterMap SentRequest.batch? := by
      rcases htaken with rfl | rfl
      · rfl
      · rw [take_next hnext, List.filterMap_append]
        exact List.append_nil _
    show (g.calls ++ issues).filter _ = _
    rw [List.filter_append, hbatches, hnone, hsame, List.append_nil]
  resynced := by
    intro i hi hresynced
    rcases List.mem_append.mp hi with hi | hi
    · exact h.resynced i (List.mem_append_left _ hi) hresynced
    · exact (hissues i hi).2

theorem calls_length_of_step {p p' : Proposer} {e : ProposerEvent} (he : e ≠ .nextRequest)
    (h : p.step e = .ok p') : p'.calls.length = p.calls.length := by
  cases e with
  | nextRequest => exact absurd rfl he
  | attempt e =>
      obtain ⟨-, -, w, -, rfl⟩ := Proposer.step_attempt_eq_ok h
      exact List.length_set
  | otherSent hash nonce =>
      cases h
      rfl
  | included tx success =>
      simp only [Proposer.step] at h
      split at h
      · cases h
        rfl
      · cases h

theorem calls_length_of_nextRequest {p p' : Proposer} (h : p.step .nextRequest = .ok p') :
    p'.calls.length = p.calls.length + 1 := by
  simp only [Proposer.step] at h
  split at h
  · cases h
    exact List.length_append
  · cases h

theorem Inv.propose (h : g.Inv env denote codec) {issue : Issue} {queue : List Issue}
    {proposer : Proposer} (hqueue : g.queue = issue :: queue)
    (hstep : g.proposer.step .nextRequest = .ok proposer) :
    Inv env denote codec
      { g with queue := queue, calls := g.calls ++ [issue], proposer := proposer } := by
  have hsame : g.calls ++ [issue] ++ queue = g.calls ++ g.queue := by
    rw [hqueue, List.append_assoc, List.singleton_append]
  refine ⟨h.sequencer, h.proposer.step hstep, ?_, h.taken, ?_, ?_⟩
  · rw [calls_length_of_nextRequest hstep, h.calls]
    show g.calls.length + 1 = (g.calls ++ [issue]).length
    rw [List.length_append, List.length_singleton]
  · show (g.calls ++ [issue] ++ queue).filter _ = _
    rw [hsame]
    exact h.batches
  · show ∀ i ∈ g.calls ++ [issue] ++ queue, _
    rw [hsame]
    exact h.resynced

theorem Inv.step (h : g.Inv env denote codec)
    (hcodec : ∀ orders, m.compressedSize orders = (codec.encodeAndCompressOrders orders).length)
    (htarget : m.batchTargetSize / maxBlobDataSize ≤ maxBlobsPerBlockDencun) {e : GatewayEvent}
    (hassumed : g.Assumed env denote m e) (hstep : g.step env m e = .ok g') :
    g'.Inv env denote codec := by
  cases step_cases hstep with
  | loop hs' =>
      obtain ⟨hhonest, hheaders, hsmall, hstarts⟩ := hassumed
      exact h.loop (h.sequencer.iteration hhonest hheaders hsmall hstarts hs')
        (Sequencer.iteration_events hs')
  | takeBatch hnext hidle => exact h.takeBatch hnext hidle
  | resyncFailed => exact h
  | @resync renv origin last taken outcome hnext hidle houtcome htaken =>
      obtain ⟨coinbase, blocks, hanswers, hblocks, hordered, hpaced⟩ :=
        hassumed origin last outcome hnext houtcome
      obtain ⟨outcome', houtcome', -, hderives⟩ := resync_requests hanswers hblocks hordered hpaced
      obtain rfl := Except.ok.inj (houtcome'.symm.trans houtcome)
      have hfetched : fetched renv origin last = blocks := by
        rw [fetched, hanswers.fetched]
        rfl
      apply h.resync hnext hidle htaken
      intro i hi
      obtain ⟨p, hp, rfl⟩ := List.mem_map.mp hi
      obtain ⟨hderived, hsize⟩ := hderives p hp
      rw [hcodec] at hsize
      rw [hfetched]
      exact ⟨rfl, hderived, (Nat.div_le_div_right hsize).trans htarget⟩
  | propose hqueue hproposer => exact h.propose hqueue hproposer
  | proposing he hproposer =>
      exact ⟨h.sequencer, h.proposer.step hproposer,
        (calls_length_of_step he hproposer).trans h.calls, h.taken, h.batches, h.resynced⟩

end Steps

/-! ### The chain on L1 -/

section Landed

variable {env : Env} {denote : StateId → BlockState} {abi : Abi} {kzg : Kzg}
  {codec : TxListCodec} {m : ProposerManager} {g : Gateway}

theorem Inv.derives (h : g.Inv env denote codec) (hadmitted : g.sequencer.BatchesAdmitted codec) :
    ∀ i ∈ g.calls, i.Derives codec := by
  intro i hi
  cases hresynced : i.resynced with
  | true => exact h.resynced i (List.mem_append_left _ hi) hresynced
  | false =>
      have hown : i ∈ (g.calls ++ g.queue).filter (fun i => !i.resynced) :=
        List.mem_filter.mpr ⟨List.mem_append_left _ hi, by rw [hresynced]; rfl⟩
      rw [h.batches] at hown
      obtain ⟨b, hb, rfl⟩ := List.mem_map.mp hown
      have hsent : b ∈ g.sequencer.proposedBatches := by
        rw [← Sequencer.batches_sentRequests]
        exact ((List.take_sublist _ _).filterMap _).subset hb
      exact ⟨h.sequencer.derived hsent, hadmitted b hsent⟩

/-- The sequencer's own batches are the sealed chain so far. -/
theorem Inv.own_prefix (h : g.Inv env denote codec) :
    ownBlocks g.calls <+: g.sequencer.sealedBlocks.map Block.content := by
  have hcalls : (g.calls.filter fun i => !i.resynced) <+:
      g.sequencer.proposedBatches.map SealedBatch.issue := by
    have hall : (g.calls.filter fun i => !i.resynced) <+:
        (g.calls ++ g.queue).filter fun i => !i.resynced :=
      (List.prefix_append _ _).filter _
    rw [h.batches] at hall
    rw [← Sequencer.batches_sentRequests]
    exact hall.trans (((List.take_prefix _ _).filterMap _).map _)
  have hcontent : (g.sequencer.proposedBatches.map SealedBatch.issue).flatMap (·.blocks) <+:
      g.sequencer.sealedBlocks.map Block.content := by
    rw [← Sequencer.seals_eq_sealedBlocks, Sequencer.seals, List.map_append, List.map_append,
      List.map_map, List.map_flatMap, List.flatMap_map]
    exact List.prefix_append _ _
  obtain ⟨more, hmore⟩ := hcalls
  rw [← hmore, List.flatMap_append] at hcontent
  exact (List.prefix_append (ownBlocks g.calls) _).trans hcontent

theorem filterMap_getElem? {α : Type*} {xs : List α} {ks : List Nat}
    (hlt : ∀ k ∈ ks, k < xs.length) :
    ks.filterMap (fun k => xs[k]?) = ks.pmap (fun k hk => xs[(⟨k, hk⟩ : Fin xs.length)]) hlt := by
  induction ks with
  | nil => rfl
  | cons k ks ih =>
      obtain ⟨hk, hrest⟩ := List.forall_mem_cons.mp hlt
      rw [List.filterMap_cons, List.getElem?_eq_getElem hk, ih hrest]
      rfl

/-- Ascending places of a list. -/
theorem filterMap_getElem?_sublist {α : Type*} {xs : List α} {ks : List Nat}
    (hks : ks.Pairwise (· < ·)) (hlt : ∀ k ∈ ks, k < xs.length) :
    (ks.filterMap fun k => xs[k]?).Sublist xs := by
  have hplaces : (ks.pmap (fun k hk => (⟨k, hk⟩ : Fin xs.length)) hlt).Pairwise (· < ·) :=
    hks.pmap hlt fun _ _ _ _ h => h
  have hsub := List.map_getElem_sublist hplaces
  rw [List.map_pmap] at hsub
  rwa [filterMap_getElem? hlt]

theorem Inv.landed_lt (h : g.Inv env denote codec) :
    ∀ k ∈ g.proposer.landed, k < g.calls.length := by
  intro k hk
  rw [← h.calls]
  obtain ⟨i, hi, hcall⟩ := List.mem_filterMap.mp hk
  split at hcall
  · exact h.proposer.included i (List.mem_reverse.mp hi) k hcall
  · cases hcall

/-- Every batch has landed at most once, in the order of the calls. -/
theorem Inv.landedCalls_sublist (h : g.Inv env denote codec) : g.landedCalls.Sublist g.calls :=
  filterMap_getElem?_sublist h.proposer.ascending h.landed_lt

/-- What landed of the sequencer's own batches is in the order of the seals. -/
theorem Inv.landedOwn_sublist (h : g.Inv env denote codec) :
    (ownBlocks g.landedCalls).Sublist (g.sequencer.sealedBlocks.map Block.content) := by
  have hown : (ownBlocks g.landedCalls).Sublist (ownBlocks g.calls) :=
    (h.landedCalls_sublist.filter _).flatMap _
  exact hown.trans h.own_prefix.sublist

/-- **Batch by batch** L1 derives the blocks the batches were made of. -/
theorem Inv.landedChain_eq (h : g.Inv env denote codec) (hundo : abi.Undoes) (hkzg : kzg.Accepts)
    (proposer : Address) (hadmitted : g.sequencer.BatchesAdmitted codec) :
    g.landedChain abi kzg codec proposer = some (g.landedCalls.flatMap (·.blocks)) := by
  have hderives := h.derives hadmitted
  have hall : ∀ ks : List Nat, (∀ k ∈ ks, k < g.calls.length) →
      (ks.mapM fun k => g.calls[k]?.bind fun issue =>
          derivedBlocks abi kzg codec proposer issue.request) =
        some ((ks.filterMap fun k => g.calls[k]?).map (·.blocks)) := by
    intro ks hlt
    induction ks with
    | nil => rfl
    | cons k ks ih =>
        obtain ⟨hk, hrest⟩ := List.forall_mem_cons.mp hlt
        obtain ⟨hderived, hsize⟩ := hderives _ (List.getElem_mem hk)
        rw [List.mapM_cons, ih hrest, List.filterMap_cons, List.getElem?_eq_getElem hk,
          Option.bind_some, derivedBlocks_eq hundo hkzg _ _ hsize, hderived]
        rfl
  simp only [landedChain, Option.bind_eq_bind]
  rw [hall _ h.landed_lt, List.flatMap_def]
  rfl

/-- The nonce checks of the calls are right. -/
def CheckIsRight (g : Gateway) : GatewayEvent → Prop
  | .proposing e => g.proposer.CheckIsRight e
  | _ => True

instance (g : Gateway) : (e : GatewayEvent) → Decidable (g.CheckIsRight e)
  | .proposing e => inferInstanceAs (Decidable (g.proposer.CheckIsRight e))
  | .loop _ => isTrue trivial
  | .takeBatch => isTrue trivial
  | .resync _ => isTrue trivial
  | .propose => isTrue trivial

theorem Inv.okMeansIncluded (h : g.Inv env denote codec) (hok : g.proposer.OkMeansIncluded)
    {g' : Gateway} {e : GatewayEvent} (hright : g.CheckIsRight e)
    (hstep : g.step env m e = .ok g') : g'.proposer.OkMeansIncluded := by
  cases step_cases hstep with
  | propose hqueue hproposer =>
      have hright' : g.proposer.CheckIsRight .nextRequest := trivial
      exact hok.step h.proposer hright' hproposer
  | proposing he hproposer => exact hok.step h.proposer hright hproposer
  | _ => exact hok

/-- Everything that was started has landed. -/
theorem Inv.landed_all (h : g.Inv env denote codec) (hok : g.proposer.OkMeansIncluded)
    (hall : ∀ c ∈ g.proposer.calls, c.phase = .done .ok) : g.landedCalls = g.calls := by
  have hlanded : g.proposer.landed = List.range g.calls.length := by
    rw [← h.calls]
    apply h.proposer.ascending.eq_of_mem_iff List.pairwise_lt_range
    intro k
    rw [h.proposer.mem_landed hok hall, List.mem_range]
  apply h.landedCalls_sublist.eq_of_length
  rw [landedCalls, filterMap_getElem? h.landed_lt, List.length_pmap, hlanded, List.length_range]

/-- **The chain on L1 is the chain of the gateway.**  In every interleaving of
the sequencer, the proposer and L1, where the simulator is honest, the blocks of
resyncs can be proposed again, and the size assertion admits the batches sent:
each batch that `propose_batch` was called for has landed at most once, in the
order of the calls, and what L1 derives is, batch by batch, the blocks it was
made of.  The blocks of the sequencer's own batches are the sealed chain so far;
those of them on L1 are, in order, part of it.  All batches have landed if the
calls returned `Ok` after nonce checks that were right. -/
theorem landed_chain (codec : TxListCodec) (hundo : abi.Undoes) (hkzg : kzg.Accepts)
    (proposer : Address) (env : Env) (denote : StateId → BlockState) (m : ProposerManager)
    (hcodec : ∀ orders, m.compressedSize orders = (codec.encodeAndCompressOrders orders).length)
    (htarget : m.batchTargetSize / maxBlobDataSize ≤ maxBlobsPerBlockDencun)
    (lookahead : LookaheadHandle) (now : Instant) (accountNonce : Nat) (others : List (Nat × Nat))
    (es : List GatewayEvent) (g : Gateway)
    (hassumed : Run.Along (step env m) (fun g e _ => g.Assumed env denote m e)
      (new env lookahead now accountNonce others) es)
    (h : es.foldlM (step env m) (new env lookahead now accountNonce others) = .ok g)
    (hadmitted : g.sequencer.BatchesAdmitted codec) :
    g.landedChain abi kzg codec proposer = some (g.landedCalls.flatMap (·.blocks)) ∧
      g.landedCalls.Sublist g.calls ∧
      ownBlocks g.calls <+: g.sequencer.sealedBlocks.map Block.content ∧
      (ownBlocks g.landedCalls).Sublist (g.sequencer.sealedBlocks.map Block.content) ∧
      (Run.Along (step env m) (fun g e _ => g.CheckIsRight e)
          (new env lookahead now accountNonce others) es →
        (∀ c ∈ g.proposer.calls, c.phase = .done .ok) → g.landedCalls = g.calls) := by
  have hinv : g.Inv env denote codec :=
    Run.Along.invariant (Inv env denote codec)
      (fun _ _ _ hg hassumed hstep => hg.step hcodec htarget hassumed hstep) es
      (inv_new env denote codec lookahead now accountNonce others) hassumed h
  refine ⟨hinv.landedChain_eq hundo hkzg proposer hadmitted, hinv.landedCalls_sublist,
    hinv.own_prefix, hinv.landedOwn_sublist, fun hright hall => ?_⟩
  have hok : g.Inv env denote codec ∧ g.proposer.OkMeansIncluded := by
    apply Run.Along.invariant (fun g => g.Inv env denote codec ∧ g.proposer.OkMeansIncluded) _ es
      _ (hassumed.and hright) h
    · rintro g e g' ⟨hg, hok⟩ ⟨hassumed, hright⟩ hstep
      exact ⟨hg.step hcodec htarget hassumed hstep, hg.okMeansIncluded hok hright hstep⟩
    · refine ⟨inv_new env denote codec lookahead now accountNonce others, fun k hdone => ?_⟩
      cases hdone
  exact hinv.landed_all hok.2 hall

end Landed

section Sample

open Sequencer (twoBlocksRun twoBlocksDenote honest_twoBlocksRun userTxCodec twoBlocksAbi
  twoBlocksAbi_undoes)

/-- The two blocks are sealed and their batch is proposed; the first attempt
fails, and its tx lands before the second one. -/
def gatewayRun : List GatewayEvent :=
  twoBlocksRun.map .loop ++ [.takeBatch, .propose] ++
    [ .attempt .nonceRead, .attempt (.txBuilt 1), .attempt .blockRead, .attempt .bundlesDone,
      .attempt .mempoolSent, .attempt (.failed .txNotIncludedInNextBlocks false),
      .included ⟨1, 5, some 0⟩ true, .attempt .nonceRead ].map .proposing

/-- A turn starts a block on the pending one, as far as it starts one. -/
def StartsOnPending (g : Gateway) : GatewayEvent → Prop
  | .loop i => g.sequencer.StartsOnPending Sample.env i
  | _ => True

instance (g : Gateway) : (e : GatewayEvent) → Decidable (g.StartsOnPending e)
  | .loop i => inferInstanceAs (Decidable (g.sequencer.StartsOnPending Sample.env i))
  | .takeBatch => isTrue trivial
  | .resync _ => isTrue trivial
  | .propose => isTrue trivial
  | .proposing _ => isTrue trivial

/-- The turns are of this run, and nothing is proposed again. -/
def TurnsOf (is : List Input) : GatewayEvent → Prop
  | .loop i => i ∈ is
  | .resync _ => False
  | _ => True

theorem turnsOf_gatewayRun : ∀ e ∈ gatewayRun, TurnsOf twoBlocksRun e := by
  intro e he
  rcases List.mem_append.mp he with he | he
  · rcases List.mem_append.mp he with he | he
    · obtain ⟨i, hi, rfl⟩ := List.mem_map.mp he
      exact hi
    · rcases List.mem_pair.mp he with rfl | rfl
      · trivial
      · trivial
  · obtain ⟨pe, -, rfl⟩ := List.mem_map.mp he
    trivial

theorem assumed_gatewayRun :
    Run.Along (step Sample.env twoBlocksManager)
      (fun g e _ => g.Assumed Sample.env twoBlocksDenote twoBlocksManager e)
      (new Sample.env Sample.lookahead 0 5 []) gatewayRun := by
  have hstarts : Run.Along (step Sample.env twoBlocksManager) (fun g e _ => g.StartsOnPending e)
      (new Sample.env Sample.lookahead 0 5 []) gatewayRun := by decide +kernel
  apply Run.Along.mono _ gatewayRun ((Run.Along.of_forall_mem turnsOf_gatewayRun _).and hstarts)
  rintro g e ⟨hturn, hstarts⟩
  cases e with
  | loop i =>
      obtain ⟨hhonest, hheaders, hsmall⟩ := honest_twoBlocksRun i hturn
      exact ⟨hhonest, hheaders, hsmall, hstarts⟩
  | resync renv => exact hturn.elim
  | _ => trivial

theorem landed_chain_gatewayRun :
    ∃ g, gatewayRun.foldlM (step Sample.env twoBlocksManager)
        (new Sample.env Sample.lookahead 0 5 []) = .ok g ∧
      g.calls.length = 1 ∧ g.landedCalls = g.calls ∧
      g.landedChain twoBlocksAbi pointAtInfinity userTxCodec 7 =
        some (g.landedCalls.flatMap (·.blocks)) := by
  have hrun : (gatewayRun.foldlM (step Sample.env twoBlocksManager)
      (new Sample.env Sample.lookahead 0 5 [])).toOption.map (fun g => (g.calls.length,
        decide (∀ c ∈ g.proposer.calls, c.phase = .done .ok),
        decide (∀ b ∈ g.sequencer.proposedBatches,
          (userTxCodec.encodeAndCompressOrders b.request.allTxList).length / maxBlobDataSize ≤
            maxBlobsPerBlockDencun))) = some (1, true, true) := by
    decide +kernel
  obtain ⟨g, hg, hchecks⟩ := Option.map_eq_some_iff.mp hrun
  rw [Prod.mk.injEq, Prod.mk.injEq, decide_eq_true_eq, decide_eq_true_eq] at hchecks
  obtain ⟨hcalls, hall, hadmitted⟩ := hchecks
  have hg' := Except.toOption_eq_some_iff.mp hg
  obtain ⟨hchain, -, -, -, hlanded⟩ := landed_chain userTxCodec twoBlocksAbi_undoes
    pointAtInfinity_accepts 7 Sample.env twoBlocksDenote twoBlocksManager (fun _ => rfl) (by decide)
    Sample.lookahead 0 5 [] gatewayRun g assumed_gatewayRun hg' hadmitted
  exact ⟨g, hg', hcalls, hlanded (by decide +kernel) hall, hchain⟩

end Sample

end Gateway

end TaikoGateway
