/-
TaikoGateway/Reproposal.lean

A batch is built twice: block by block as the sequencer seals (`accumulate`),
and after a restart from the blocks on the chain (`requestFromBlocks`).

Main result (`requestFromBlocks_eq_sealed`): for every batch of a run whose
blocks fit one batch, the second is the first again, up to the size estimate.
The proof relates the two accumulators block by block (`foldl_addBlock_sealed`).
-/
import TaikoGateway.Request
import TaikoGateway.StateIds

namespace TaikoGateway
namespace Sequencer

variable {env : Env} {compressedSize : List Order → Nat} {args : RequestArgs}

/-! ### Batches of a run -/

/-- A batch the sequencer has accumulated: one that was sent, or the pending
one. -/
def HasBatch (s : Sequencer) (b : SealedBatch) : Prop :=
  b ∈ s.proposedBatches ∨ s.proposerRequest = some b.request ∧ s.pendingSeals = b.seals

theorem BatchesSatisfy.of_hasBatch {P : Option ProposeBatchParams → List Sealed → Prop}
    {s : Sequencer} (hs : BatchesSatisfy P s) {b : SealedBatch} (hb : s.HasBatch b) :
    P (some b.request) b.seals := by
  rcases hb with hb | ⟨hrequest, hseals⟩
  · exact hs.proposed b hb
  · rw [← hrequest, ← hseals]
    exact hs.pending

/-- The blocks fit one batch of these arguments: no user tx is sent from the
golden touch key, the coinbase is ours, the txs of every prefix compress to at
most the target size, and there are not too many blocks. -/
structure FitsOneBatch (env : Env) (compressedSize : List Order → Nat) (args : RequestArgs)
    (bs : List Sealed) : Prop where
  users : ∀ b ∈ bs, ∀ order ∈ b.block.userOrders, order.sender ≠ goldenTouchAddress
  coinbase : ∀ b ∈ bs, b.block.header.beneficiary = env.config.coinbaseAddress
  size : ∀ pre, pre ≠ [] → pre <+: bs →
    compressedSize (pre.flatMap (·.block.userOrders)) ≤ args.batchTargetSize
  count : bs.length ≤ args.maxBlocksPerBatch

theorem FitsOneBatch.of_concat {bs : List Sealed} {b : Sealed}
    (h : FitsOneBatch env compressedSize args (bs ++ [b])) :
    FitsOneBatch env compressedSize args bs where
  users := fun b' hb' => h.users b' (List.mem_append_left _ hb')
  coinbase := fun b' hb' => h.coinbase b' (List.mem_append_left _ hb')
  size := fun pre hne hpre => h.size pre hne (hpre.trans (List.prefix_append bs [b]))
  count := by
    have hcount := h.count
    rw [List.length_append] at hcount
    omega

/-! ### One block in both accumulators -/

/-- Equal but for the size estimate. -/
def SameBatchAs (request : ProposeBatchParams) (r : ProposeBatchParams) : Prop :=
  request = { r with compressedEst := request.compressedEst }

/-- Equal in what pushing a block does not set. -/
structure SameStart (request r : ProposeBatchParams) : Prop where
  anchorBlockId : request.anchorBlockId = r.anchorBlockId
  startBlockNum : request.startBlockNum = r.startBlockNum
  coinbase : request.coinbase = r.coinbase
  blockParams : request.blockParams = r.blockParams
  allTxList : request.allTxList = r.allTxList

theorem SameBatchAs.sameStart {request r : ProposeBatchParams} (h : SameBatchAs request r) :
    SameStart request r := by
  rw [h]
  exact ⟨rfl, rfl, rfl, rfl, rfl⟩

/-- Filtering out the golden touch key leaves the orders that were sealed. -/
theorem SealedFrom.blockOrders {b : Sealed} (h : SealedFrom env b)
    (husers : ∀ order ∈ b.block.userOrders, order.sender ≠ goldenTouchAddress) :
    blockOrders b.block = b.orders := by
  have horders : b.block.userOrders = b.orders := h.userOrders
  rw [horders] at husers
  obtain ⟨anchored, ⟨parent, timestamp, -, -, rfl⟩, htxs⟩ := h
  have hkeep : ∀ tx ∈ b.orders.map Order.asTransaction,
      decide (tx.fromAddr ≠ goldenTouchAddress) = true := by
    intro tx htx
    obtain ⟨order, horder, rfl⟩ := List.mem_map.mp htx
    exact decide_eq_true (husers order horder)
  have hfilter : ((assembleAnchorV3 env parent b.blockInfo.anchorParams
      b.blockInfo.baseFee).asTransaction :: b.orders.map Order.asTransaction).filter
        (fun tx => tx.fromAddr ≠ goldenTouchAddress) = b.orders.map Order.asTransaction := by
    rw [List.filter_cons_of_neg (by simp [assembleAnchorV3, Order.newWithSender,
      Order.asTransaction])]
    exact List.filter_eq_self.mpr hkeep
  rw [TaikoGateway.blockOrders, htxs]
  simp only [BlockTransactions.intoTransactions, BlockState.transactions, BlockState.followedBy,
    List.nil_append, List.map_cons, hfilter, List.map_map]
  exact List.map_id _

/-- The sealed blocks have the txs they announce. -/
theorem flatMap_userOrders {bs : List Sealed} (hsealed : ∀ b ∈ bs, SealedFrom env b) :
    bs.flatMap (·.block.userOrders) = bs.flatMap (·.orders) :=
  List.flatMap_congr fun b hb => (hsealed b hb).userOrders

/-- Re-reading a block pushes the parameters that sealing it pushed. -/
theorem pushBlock_sealed {b : Sealed} {cur r : ProposeBatchParams} {shift : Nat}
    (hcur : SameStart cur r) (horders : blockOrders b.block = b.orders)
    (hlength : b.block.transactions.length = b.orders.length + 1)
    (htimestamp : args.timestampOverride = none) (hshift : timeShift args cur b.block = shift) :
    SameBatchAs (pushBlock args (extendParams compressedSize cur b.block) b.block)
      (withBlock env r shift b) := by
  have hcount : u64Sub b.block.transactions.length 1 = b.orders.length := by
    rw [hlength, u64Sub_of_le (by omega), Nat.add_sub_cancel]
  have hextend : timeShift args (extendParams compressedSize cur b.block) b.block = shift := hshift
  rw [SameBatchAs, pushBlock, hextend, hcount, extendParams, withBlock, horders]
  simp only [RequestArgs.timestamp, htimestamp, Option.getD_none, hcur.anchorBlockId,
    hcur.startBlockNum, hcur.coinbase, hcur.blockParams, hcur.allTxList]

/-! ### All blocks -/

/-- The last block of a list that fits one batch stays in the current batch. -/
theorem FitsOneBatch.addBlock_stays {bs : List Sealed} {b : Sealed} {cur : Proposal}
    (h : FitsOneBatch env compressedSize args (bs ++ [b]))
    (hsealed : ∀ b' ∈ bs ++ [b], SealedFrom env b') (coinbase : Address)
    (htxs : cur.request.allTxList = bs.flatMap (·.orders))
    (hlen : cur.request.blockParams.length = bs.length) :
    addBlock compressedSize args coinbase ([], cur) b.block =
      ([], ⟨pushBlock args (extendParams compressedSize cur.request b.block) b.block,
        cur.blocks ++ [b.block]⟩) := by
  have hmem : b ∈ bs ++ [b] := List.mem_append_right bs List.mem_cons_self
  have horders : blockOrders b.block = b.orders :=
    (hsealed b hmem).blockOrders (h.users b hmem)
  have hsize : compressedSize (bs.flatMap (·.orders) ++ b.orders) ≤ args.batchTargetSize := by
    have hall := h.size (bs ++ [b]) (by simp) (List.prefix_refl _)
    rwa [flatMap_userOrders hsealed, List.flatMap_append, List.flatMap_singleton] at hall
  have hcount : bs.length + 1 ≤ args.maxBlocksPerBatch := by
    have hall := h.count
    rwa [List.length_append] at hall
  have hnew : ¬ startsNewBatch compressedSize args cur.request b.block := by
    rw [startsNewBatch, htxs, horders, hlen]
    omega
  rw [addBlock, if_neg hnew]

/-- **The two accumulators agree.**  Blocks that were sealed into one request
and fit one batch stay in the current batch, which is that request. -/
theorem foldl_addBlock_sealed (htimestamp : args.timestampOverride = none)
    (hshift : args.timeshiftOverride = none) (coinbase : Address) {bs : List Sealed} :
    ∀ {r : ProposeBatchParams}, accumulateAll env bs = .ok (some r) →
      args.anchorBlockId = r.anchorBlockId → (∀ b ∈ bs, SealedFrom env b) →
      FitsOneBatch env compressedSize args bs →
      ∀ first, bs.head? = some first →
        ∃ p : Proposal,
          (bs.map (·.block)).foldl (addBlock compressedSize args coinbase)
            ([], ⟨startParams args first.block, []⟩) = ([], p) ∧ SameBatchAs p.request r := by
  induction bs using List.reverseRecOn with
  | nil =>
      intro r _ _ _ _ first hfirst
      cases hfirst
  | append_singleton bs b ih =>
      intro r hr hanchor hsealed hfits first hfirst
      obtain ⟨before, request, hbefore, hrequest, heq⟩ := accumulateAll_concat_eq_ok.mp hr
      cases heq
      have hmem : b ∈ bs ++ [b] := List.mem_append_right bs List.mem_cons_self
      have horders : blockOrders b.block = b.orders :=
        (hsealed b hmem).blockOrders (hfits.users b hmem)
      obtain ⟨hlength, ⟨rfl, rfl⟩ | ⟨r₀, rfl, -, hlt, rfl⟩⟩ := accumulate_eq_ok hrequest
      · -- the first block: nothing to shift from, and our coinbase
        have hnil : bs = [] := accumulateAll_eq_none hbefore
        subst hnil
        cases hfirst
        refine ⟨_, hfits.addBlock_stays hsealed coinbase rfl rfl, ?_⟩
        refine pushBlock_sealed ⟨hanchor, rfl, hfits.coinbase b hmem, rfl, rfl⟩ horders hlength
          htimestamp ?_
        simp [timeShift, hshift, startParams, RequestArgs.timestamp, htimestamp]
      · have hbs : ∀ b' ∈ bs, SealedFrom env b' :=
          fun b' hb' => hsealed b' (List.mem_append_left _ hb')
        have hdescribes : Describes env r₀ bs := accumulateAll_describes hbefore
        have hfirst' : bs.head? = some first := by
          rwa [List.head?_append_of_ne_nil bs hdescribes.ne_nil] at hfirst
        obtain ⟨p, hfold, hsame⟩ := ih hbefore hanchor hbs hfits.of_concat first hfirst'
        have htxs : p.request.allTxList = bs.flatMap (·.orders) := by
          rw [hsame, ← hdescribes.txs]
        have hlen : p.request.blockParams.length = bs.length := by
          rw [hsame, ← hdescribes.length_blockParams]
        have hlast : p.request.lastTimestamp = r₀.lastTimestamp := by
          rw [hsame]
        rw [List.map_append, List.foldl_append, hfold]
        refine ⟨_, hfits.addBlock_stays hsealed coinbase htxs hlen, ?_⟩
        apply pushBlock_sealed hsame.sameStart horders hlength htimestamp
        simp only [timeShift, hshift, Option.getD_none, hlast, if_pos hlt]

/-! ### Runs -/

theorem simulatorInv_of_run {denote : StateId → BlockState} {lookahead : LookaheadHandle}
    {now : Instant} {is : List Input} {s : Sequencer}
    (hhonest : ∀ i ∈ is, HonestSimulator denote i)
    (h : is.foldlM (iteration env) (.new env lookahead now) = .ok s) :
    SimulatorInv env denote s :=
  Run.run_invariant (SimulatorInv env denote) is
    (fun i hi _ _ hs h => hs.iteration (hhonest i hi) h)
    (simulatorInv_new env denote lookahead now) h

/-- The arguments of a resync that proposes the blocks of a batch under its
anchor. -/
def resyncArgs (b : SealedBatch) (maxBlocksPerBatch batchTargetSize : Nat) : RequestArgs :=
  { anchorBlockId := b.request.anchorBlockId
    timestampOverride := none
    timeshiftOverride := none
    maxBlocksPerBatch := maxBlocksPerBatch
    batchTargetSize := batchTargetSize }

/-- **A resync proposes the same batch.**  For every batch a run accumulates,
sent or pending, whose blocks fit one batch: building a request from the blocks
gives exactly one, and it is the accumulated one but for the size estimate. -/
theorem requestFromBlocks_eq_sealed (env : Env) (denote : StateId → BlockState)
    (lookahead : LookaheadHandle) (now : Instant) (is : List Input)
    (hhonest : ∀ i ∈ is, HonestSimulator denote i) (s : Sequencer)
    (hrun : is.foldlM (iteration env) (.new env lookahead now) = .ok s) (b : SealedBatch)
    (hb : s.HasBatch b) (compressedSize : List Order → Nat)
    (maxBlocksPerBatch batchTargetSize : Nat)
    (hfits : FitsOneBatch env compressedSize (resyncArgs b maxBlocksPerBatch batchTargetSize)
      b.seals) :
    ∃ p, requestFromBlocks compressedSize (resyncArgs b maxBlocksPerBatch batchTargetSize)
        (b.seals.map (·.block)) = .ok [p] ∧ SameBatchAs p.request b.request := by
  have haccumulated : accumulateAll env b.seals = .ok (some b.request) :=
    (accounted_of_run hrun).of_hasBatch hb
  have hsealed : ∀ x ∈ b.seals, SealedFrom env x :=
    (simulatorInv_of_run hhonest hrun).seals.of_hasBatch hb
  cases hseals : b.seals with
  | nil => exact absurd hseals (accumulateAll_describes haccumulated).ne_nil
  | cons first rest =>
      obtain ⟨p, hfold, hsame⟩ := foldl_addBlock_sealed rfl rfl first.block.header.beneficiary
        haccumulated rfl hsealed hfits first (by rw [hseals]; rfl)
      refine ⟨p, ?_, hsame⟩
      rw [hseals] at hfold
      simp only [requestFromBlocks, List.map_cons] at hfold ⊢
      rw [hfold]
      rfl

section Sample

open Sample

/-- The batch of the run with two blocks. -/
def twoBlocksBatch : SealedBatch :=
  { request :=
      { anchorBlockId := 100
        startBlockNum := 11
        endBlockNum := 12
        lastTimestamp := 56
        blockParams := [⟨1, 0, []⟩, ⟨0, 4, []⟩]
        allTxList := [userTx]
        compressedEst := 3
        coinbase := 7 }
    seals :=
      [ ⟨blockWith [userTx] 11 11 10 52 100, ⟨⟨100, 0, 50⟩, 11, 1, 10⟩, [userTx], 3⟩,
        ⟨Sample.block 12 12 11 56 100, ⟨⟨100, 0, 50⟩, 12, 1, 11⟩, [], 0⟩ ] }

theorem fitsOneBatch_twoBlocks :
    FitsOneBatch Sample.env List.length (resyncArgs twoBlocksBatch 10 1000)
      twoBlocksBatch.seals where
  users := by decide +kernel
  coinbase := by decide
  size := by
    have hinits : ∀ pre ∈ twoBlocksBatch.seals.inits, pre ≠ [] →
        (pre.flatMap (·.block.userOrders)).length ≤ 1000 := by decide +kernel
    intro pre hne hpre
    exact hinits pre ((List.mem_inits pre _).mpr hpre) hne
  count := by decide

/-- In this run, with a compressor that shrinks nothing: the second block has a
time shift of 4. -/
theorem requestFromBlocks_eq_sealed_twoBlocks :
    ∃ s, twoBlocksRun.foldlM (iteration Sample.env) Sample.start = .ok s ∧
      ∃ p, requestFromBlocks List.length (resyncArgs twoBlocksBatch 10 1000)
          (twoBlocksBatch.seals.map (·.block)) = .ok [p] ∧
        SameBatchAs p.request twoBlocksBatch.request ∧
        p.request.blockParams = [⟨1, 0, []⟩, ⟨0, 4, []⟩] := by
  have h : (twoBlocksRun.foldlM (iteration Sample.env) Sample.start).toOption.map
      Sequencer.proposedBatches = some [twoBlocksBatch] := by decide +kernel
  obtain ⟨s, hrun, hs⟩ := Option.map_eq_some_iff.mp h
  have hrun' := Except.toOption_eq_some_iff.mp hrun
  have hb : s.HasBatch twoBlocksBatch := Or.inl (hs ▸ List.mem_cons_self)
  obtain ⟨p, hp, hsame⟩ := requestFromBlocks_eq_sealed Sample.env twoBlocksDenote Sample.lookahead 0
    twoBlocksRun simulator_twoBlocksRun s hrun' twoBlocksBatch hb List.length 10 1000
    fitsOneBatch_twoBlocks
  exact ⟨s, hrun', p, hp, hsame, congrArg ProposeBatchParams.blockParams hsame⟩

end Sample

end Sequencer
end TaikoGateway
