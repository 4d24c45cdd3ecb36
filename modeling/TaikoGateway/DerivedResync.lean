/-
TaikoGateway/DerivedResync.lean

The blocks that L1 derives from the requests of a `resync`.

Blocks that were announced and whose batches did not land are fetched from the
L2 node and proposed again, as they are or with a new anchor.  `resync_derives`
says what L1 has afterwards, and when the call returns Ok.  On the first path it
is the fetched blocks, unchanged; on the second one the same blocks, with the
same numbers, coinbase and txs, under the anchor and the timestamp that
re-anchoring gives all of them (`reproposed`).

A request that is made from blocks counts their txs and has their numbers
(`Proposal.Built`); what is added here is that its time shifts are right
(`Proposal.Reproposes`), which needs blocks with the same anchor that are less
than 256 seconds apart, and nothing on the re-anchoring path.
-/
import TaikoGateway.DerivedSeals
import TaikoGateway.PendingGroups

namespace TaikoGateway

open BlobEncoding

/-! ### The time shifts of a request -/

/-- A block that follows in the same batch gets a time shift that leads to its
timestamp. -/
def Follows (args : RequestArgs) (b b' : Block) : Prop :=
  (args.timestampOverride.isSome ∧ args.timeshiftOverride = some 0) ∨
    args.timestampOverride = none ∧ args.timeshiftOverride = none ∧
      b.header.timestamp ≤ b'.header.timestamp ∧ b'.header.timestamp < b.header.timestamp + 2 ^ 8

/-- The request is of this coinbase, and encodes the timestamps its blocks are
proposed with. -/
structure Proposal.Reproposes (args : RequestArgs) (coinbase : Address) (p : Proposal) : Prop where
  coinbase : p.request.coinbase = coinbase
  encodes : Shifts.Encodes p.request.lastTimestamp (p.request.blockParams.map (·.timeShift))
    (p.blocks.map args.timestamp)

section Loop

variable {compressedSize : List Order → Nat} {args : RequestArgs} {coinbase : Address}
  {first : Block} {p : Proposal}

theorem Follows.timeShift_eq {cur : ProposeBatchParams} {b b' : Block} (h : Follows args b b')
    (hlast : cur.lastTimestamp = args.timestamp b) :
    cur.lastTimestamp + timeShift args cur b' = args.timestamp b' := by
  rcases h with ⟨hts, hshift⟩ | ⟨hts, hshift, hle, hlt⟩
  · obtain ⟨ts, hts⟩ := Option.isSome_iff_exists.mp hts
    rw [timeShift_of_override hshift, hlast, RequestArgs.timestamp, RequestArgs.timestamp, hts]
    rfl
  · simp only [RequestArgs.timestamp, hts, Option.getD_none] at hlast ⊢
    simp only [timeShift, hshift, Option.getD_none, hlast]
    rw [if_pos (by omega)]
    omega

theorem reproposes_single {cur : ProposeBatchParams} {block : Block}
    (hparams : cur.blockParams = []) (hcoinbase : cur.coinbase = coinbase) :
    Proposal.Reproposes args coinbase
      { request := pushBlock args cur block, blocks := [block] } where
  coinbase := hcoinbase
  encodes := by
    simp only [pushBlock, hparams, List.nil_append, List.map_cons, List.map_nil]
    exact Shifts.encodes_single _ _

/-- A block joins the batch. -/
theorem Proposal.Reproposes.extend (hbuilt : p.Built args first)
    (h : p.Reproposes args coinbase) {block : Block}
    (hfollows : ∀ prev ∈ p.blocks.getLast?, Follows args prev block) :
    Proposal.Reproposes args coinbase
      { request := pushBlock args (extendParams compressedSize p.request block) block
        blocks := p.blocks ++ [block] } where
  coinbase := h.coinbase
  encodes := by
    have hcount := hbuilt.count
    simp only [pushBlock, extendParams, List.map_append, List.map_cons, List.map_nil]
    obtain hnil | ⟨pre, prev, hblocks⟩ := List.eq_nil_or_concat' p.blocks
    · -- the first block of the batch
      rw [hnil, List.length_nil, List.length_eq_zero_iff] at hcount
      rw [hnil, hcount]
      exact Shifts.encodes_single _ _
    · have hprev : p.blocks.getLast? = some prev := by rw [hblocks, List.getLast?_concat]
      have hlast : p.request.lastTimestamp = args.timestamp prev := by
        rw [hbuilt.timestamp, hprev]
        rfl
      have hlength : (p.request.blockParams.map (·.timeShift)).length =
          (p.blocks.map args.timestamp).length := by
        rw [List.length_map, List.length_map, hcount]
      have hlastTime : (p.blocks.map args.timestamp).getLast? = some p.request.lastTimestamp := by
        rw [List.getLast?_map, hprev, hlast]
        rfl
      apply (Shifts.encodes_concat_iff hlength hlastTime).mpr
      exact ⟨h.encodes, (hfollows prev hprev).timeShift_eq hlast⟩

variable (compressedSize) in
/-- **The loop.**  Blocks that follow each other are proposed with their
timestamps. -/
theorem foldl_addBlock_reproposes (blocks : List Block) :
    ∀ (finished : List Proposal) {cur : Proposal}, cur.Built args first →
      (cur.blocks = [] → ∀ b ∈ blocks.head?, cur.request.startBlockNum = b.header.number) →
      (∀ p ∈ finished, p.Reproposes args coinbase) → cur.Reproposes args coinbase →
      (cur.blocks.getLast?.toList ++ blocks).IsChain (Follows args) →
      ∀ p ∈ (blocks.foldl (addBlock compressedSize args coinbase) (finished, cur)).1 ++
          [(blocks.foldl (addBlock compressedSize args coinbase) (finished, cur)).2],
        p.Reproposes args coinbase := by
  induction blocks with
  | nil =>
      intro finished cur hbuilt hstart hfinished hcur hchain
      rw [List.foldl_nil, List.forall_mem_append, List.forall_mem_singleton]
      exact ⟨hfinished, hcur⟩
  | cons block blocks ih =>
      intro finished cur hbuilt hstart hfinished hcur hchain
      have hrest : (block :: blocks).IsChain (Follows args) := hchain.right_of_append
      rw [List.foldl_cons, addBlock]
      by_cases hnew : startsNewBatch compressedSize args cur.request block
      · rw [if_pos hnew]
        apply ih _ (built_single rfl rfl rfl rfl) (fun hnil => by cases hnil) _
          (reproposes_single rfl rfl) hrest
        rw [List.forall_mem_append, List.forall_mem_singleton]
        exact ⟨hfinished, hcur⟩
      · rw [if_neg hnew]
        have hfollows : ∀ prev ∈ cur.blocks.getLast?, Follows args prev block := by
          intro prev hprev
          rw [hprev, Option.toList_some, List.singleton_append, List.isChain_cons_cons] at hchain
          exact hchain.1
        apply ih _ (hbuilt.extend block fun hnil => hstart hnil block rfl)
          (fun hnil => by simp at hnil) hfinished (hcur.extend hbuilt hfollows)
        rw [List.getLast?_concat]
        exact hrest

/-- What `requestFromBlocks` returns encodes the timestamps. -/
theorem requestFromBlocks_reproposes {rest : List Block} {ps : List Proposal}
    (hps : requestFromBlocks compressedSize args (first :: rest) = .ok ps)
    (hchain : (first :: rest).IsChain (Follows args)) :
    ∀ p ∈ ps, p.Reproposes args first.header.beneficiary := by
  cases hps
  apply foldl_addBlock_reproposes compressedSize (first :: rest) [] (built_start first)
    (fun _ b hb => by cases hb; rfl) (fun p hp => absurd hp List.not_mem_nil)
    ⟨rfl, Shifts.encodes_nil _ _⟩ hchain

end Loop

/-! ### The blocks of a request -/

/-- The block as L1 gets it with these arguments. -/
def RequestArgs.content (args : RequestArgs) (b : Block) : DerivedBlock :=
  { number := b.header.number
    timestamp := args.timestamp b
    coinbase := b.header.beneficiary
    anchorBlockId := some args.anchorBlockId
    txs := b.userOrders.map (·.tx) }

/-- An anchor that passes the check comes first, and is of the golden touch
key. -/
theorem Anchored.anchorFirst {b : Block} (h : Anchored b) : AnchorFirst b := by
  have hchecked := h.checked
  unfold checkedAnchorBlockId at hchecked
  split at hchecked
  · cases hchecked
  · rename_i anchorTx hfirst
    split at hchecked
    · cases hchecked
    · rename_i hgolden
      exact ⟨anchorTx, hfirst, not_not.mp hgolden⟩

theorem Anchored.anchorBlockId {b : Block} (h : Anchored b) :
    b.anchorBlockId = some (anchorOf b) := by
  have hchecked := h.checked
  unfold checkedAnchorBlockId at hchecked
  split at hchecked
  · cases hchecked
  · rename_i anchorTx hfirst
    split at hchecked
    · cases hchecked
    · split at hchecked
      · cases hchecked
      · rename_i call hcall
        obtain ⟨txs, htxs, hhead⟩ := Option.bind_eq_some_iff.mp hfirst
        simp only [Block.anchorBlockId, htxs, Option.bind_eq_bind, Option.bind_some, hhead, hcall]
        exact congrArg some (Except.ok.inj hchecked)

/-- What is asked of the blocks: they can be counted, fit a batch each, and are
of one coinbase. -/
structure Reproposable (m : ProposerManager) (coinbase : Address) (b : Block) : Prop where
  anchored : Anchored b
  countable : b.Countable
  fits : m.Fits b
  coinbase : b.header.beneficiary = coinbase

section Request

variable {m : ProposerManager} {args : RequestArgs} {coinbase : Address} {first : Block}
  {p : Proposal}

theorem Proposal.Built.derived (hbuilt : p.Built args first) (hre : p.Reproposes args coinbase)
    (hcontiguous : p.Contiguous) (hblocks : ∀ b ∈ p.blocks, Reproposable m coinbase b) :
    p.request.derived = p.blocks.map args.content := by
  have hlisted : ∀ b ∈ p.blocks,
      b.userOrders.length = u64Sub b.transactions.length 1 % 2 ^ 16 ∧
        blockOrders b = b.userOrders := fun b hb =>
    (countable_iff (hblocks b hb).anchored.anchorFirst).mp (hblocks b hb).countable
  apply derived_eq
  · rw [hbuilt.counts, List.map_map]
    apply List.map_congr_left
    intro b hb
    show _ = (b.userOrders.map (·.tx)).length
    rw [List.length_map, (hlisted b hb).1]
  · rw [hbuilt.orders, List.map_flatMap, List.flatMap_map]
    apply List.flatMap_congr
    intro b hb
    rw [(hlisted b hb).2]
    rfl
  · rw [List.map_map]
    exact hre.encodes
  · have hlast := hcontiguous.last
    rw [List.map_map, List.length_map,
      show p.request.endBlockNum + 1 - p.blocks.length = p.request.startBlockNum by omega]
    exact hcontiguous.numbers
  · intro d hd
    obtain ⟨b, hb, rfl⟩ := List.mem_map.mp hd
    refine ⟨(hblocks b hb).coinbase.trans hre.coinbase.symm, ?_⟩
    show some args.anchorBlockId = _
    rw [hbuilt.anchor]

/-- A batch of blocks that fit one each is not larger than the target. -/
theorem Proposal.Built.size_le (hbuilt : p.Built args first)
    (hsize : args.batchTargetSize = m.batchTargetSize)
    (hfits : Greedy.Fits (FullFor m.compressedSize args) p.blocks) (hne : p.blocks ≠ [])
    (hblocks : ∀ b ∈ p.blocks, Reproposable m coinbase b) :
    m.compressedSize p.request.allTxList ≤ m.batchTargetSize := by
  by_cases htwo : 2 ≤ p.blocks.length
  · rw [← hsize]
    exact (hbuilt.limits hfits htwo).1
  · obtain ⟨b, hb⟩ : ∃ b, p.blocks = [b] := by
      apply List.length_eq_one_iff.mp
      have hpos := List.length_pos_iff.mpr hne
      omega
    rw [hbuilt.orders, hb, List.flatMap_singleton]
    exact (hblocks b (by simp [hb])).fits.2

theorem mem_of_requestFromBlocks {compressedSize : List Order → Nat} {blocks : List Block}
    {ps : List Proposal} (hps : requestFromBlocks compressedSize args blocks = .ok ps)
    (hp : p ∈ ps) {b : Block} (hb : b ∈ p.blocks) : b ∈ blocks := by
  cases blocks with
  | nil => cases hps
  | cons first rest =>
      obtain ⟨ps', hps', hflat, -⟩ := requestFromBlocks_spec compressedSize args first rest
      obtain rfl := Except.ok.inj (hps'.symm.trans hps)
      rw [← hflat]
      exact List.mem_flatMap.mpr ⟨p, hp, hb⟩

/-- The batches made of blocks that follow each other. -/
theorem requestFromBlocks_derives {blocks : List Block} {ps : List Proposal}
    (hps : requestFromBlocks m.compressedSize args blocks = .ok ps)
    (hsize : args.batchTargetSize = m.batchTargetSize)
    (hchain : blocks.IsChain (Follows args)) (hblocks : ∀ b ∈ blocks, Reproposable m coinbase b)
    (hcontiguous : ∀ p ∈ ps, p.Contiguous) :
    ∀ p ∈ ps, p.request.derived = p.blocks.map args.content ∧
      m.compressedSize p.request.allTxList ≤ m.batchTargetSize := by
  cases blocks with
  | nil => cases hps
  | cons first rest =>
      obtain ⟨ps', hps', hsplit, hbuilt⟩ :=
        requestFromBlocks_split m.compressedSize args first rest
      obtain rfl := Except.ok.inj (hps'.symm.trans hps)
      have hre := requestFromBlocks_reproposes hps hchain
      intro p hp
      have hpiece : p.blocks ∈
          Greedy.split (FullFor m.compressedSize args) [] (first :: rest) := by
        rw [← hsplit]
        exact List.mem_map_of_mem hp
      have hmem : ∀ b ∈ p.blocks, Reproposable m coinbase b := fun b hb =>
        hblocks b (mem_of_requestFromBlocks hps hp hb)
      have hcoinbase := (hblocks first List.mem_cons_self).coinbase
      refine ⟨(hbuilt p hp).derived (hcoinbase ▸ hre p hp) (hcontiguous p hp) hmem, ?_⟩
      exact (hbuilt p hp).size_le hsize (Greedy.fits_of_mem_split _ Greedy.fits_nil _ hpiece)
        (hcontiguous p hp).ne_nil hmem

end Request

/-! ### The requests of a resync -/

/-- The arguments of the re-anchoring path. -/
def reanchorArgs (m : ProposerManager) (env : ResyncEnv) : RequestArgs :=
  let safeL1Head := ((env.l1Block.map (·.number)).getD 0) - m.safeL1Lag
  m.reorgArgs (((env.getL1Block safeL1Head).map (·.number)).getD 0) env.overrideUtc

/-- The block as L1 has it after the resync. -/
def reproposed (m : ProposerManager) (env : ResyncEnv) (blocks : List Block) (b : Block) :
    DerivedBlock :=
  if reanchors m env blocks then (reanchorArgs m env).content b else b.content

/-- Blocks of one anchor are less than 256 seconds apart. -/
def Paced (b b' : Block) : Prop :=
  anchorOf b = anchorOf b' →
    b.header.timestamp ≤ b'.header.timestamp ∧ b'.header.timestamp < b.header.timestamp + 2 ^ 8

instance (b b' : Block) : Decidable (Paced b b') := inferInstanceAs (Decidable (_ → _))

section Resync

variable {m : ProposerManager} {env : ResyncEnv} {coinbase : Address} {blocks : List Block}
  {ps : List Proposal}

/-- What L1 gets of these requests. -/
def Derives (m : ProposerManager) (content : Block → DerivedBlock) (p : Proposal) : Prop :=
  p.request.derived = p.blocks.map content ∧
    m.compressedSize p.request.allTxList ≤ m.batchTargetSize

/-- A group has the args of its anchor, and follows in its own pace. -/
theorem follows_of_paced (hordered : AnchorsOrdered blocks) (hpaced : blocks.IsChain Paced)
    {g : Nat × List Block} (hg : g ∈ (Regroup.groups anchorOf blocks).toList) :
    g.2.IsChain (Follows (m.sameArgs g.1)) := by
  have hsame := (Regroup.regroup_eq_self_iff anchorOf blocks).mpr hordered
  have hflat : ((Regroup.groups anchorOf blocks).toList.map Prod.snd).flatten = blocks := by
    rw [← List.flatMap_def]
    exact hsame
  have hne : [] ∉ (Regroup.groups anchorOf blocks).toList.map Prod.snd := by
    intro hnil
    obtain ⟨g, hg, hempty⟩ := List.mem_map.mp hnil
    exact groups_ne_nil blocks g hg hempty
  rw [← hflat, List.isChain_flatten hne] at hpaced
  have hchain := hpaced.1 g.2 (List.mem_map_of_mem hg)
  have hkey : ∀ b ∈ g.2, anchorOf b = g.1 := (Regroup.keyed_groups blocks).2 g hg
  apply hchain.imp_of_mem_imp
  intro b b' hb hb' hpace
  obtain ⟨hle, hlt⟩ := hpace ((hkey b hb).trans (hkey b' hb').symm)
  exact Or.inr ⟨rfl, rfl, hle, hlt⟩

/-- The group path keeps the blocks as they are. -/
theorem proposeGroups_derives (hblocks : ∀ b ∈ blocks, Reproposable m coinbase b)
    (hordered : AnchorsOrdered blocks) (hpaced : blocks.IsChain Paced)
    (hps : proposeGroups m (Regroup.groups anchorOf blocks).toList = .ok ps)
    (hcontiguous : ∀ p ∈ ps, p.Contiguous) :
    ∀ p ∈ ps, Derives m Block.content p := by
  obtain ⟨ps', hps', hmem⟩ := mem_proposeGroups (m := m) (groups_ne_nil blocks)
  obtain rfl := Except.ok.inj (hps'.symm.trans hps)
  intro p hp
  obtain ⟨g, hg, requests, hrequests, hpr⟩ := (hmem p).mp hp
  have hgroup : ∀ b ∈ g.2, b ∈ blocks := fun b hb =>
    Regroup.mem_regroup.mp (List.mem_flatMap.mpr ⟨g, hg, hb⟩)
  have hwhole : ∀ q ∈ requests, q.Contiguous := fun q hq =>
    hcontiguous q ((hmem q).mpr ⟨g, hg, requests, hrequests, hq⟩)
  obtain ⟨hderived, hsize⟩ := requestFromBlocks_derives hrequests rfl
    (follows_of_paced hordered hpaced hg) (fun b hb => hblocks b (hgroup b hb)) hwhole p hpr
  refine ⟨?_, hsize⟩
  rw [hderived]
  apply List.map_congr_left
  intro b hb
  -- the anchor of the group is the one the block has
  have hbg := mem_of_requestFromBlocks hrequests hpr hb
  have hanchor := (hblocks b (hgroup b hbg)).anchored.anchorBlockId
  have hkey : ∀ b ∈ g.2, anchorOf b = g.1 := (Regroup.keyed_groups blocks).2 g hg
  rw [hkey b hbg] at hanchor
  simp only [RequestArgs.content, Block.content, hanchor]
  rfl

theorem map_eq_ok {ε α β : Type} {f : α → β} {e : Except ε α} {b : β} (h : e.map f = .ok b) :
    ∃ a, e = .ok a ∧ f a = b := by
  cases e with
  | error e => cases h
  | ok a => exact ⟨a, rfl, Except.ok.inj h⟩

theorem liftPanic_eq_ok {α : Type} {e : Except Panic α} {a : α} (h : liftPanic e = .ok a) :
    e = .ok a := by
  cases e with
  | error e => cases h
  | ok a' =>
      cases h
      rfl

/-- So does the other path, up to anchor and timestamp. -/
theorem proposeReorgedBatch_derives (hblocks : ∀ b ∈ blocks, Reproposable m coinbase b)
    {l1Block : Header} (hl1 : env.l1Block = some l1Block)
    (hps : proposeReorgedBatch m env l1Block.number blocks = .ok ps)
    (hcontiguous : ∀ p ∈ ps, p.Contiguous) :
    ∀ p ∈ ps, Derives m (reanchorArgs m env).content p := by
  unfold proposeReorgedBatch at hps
  cases hsafe : env.getL1Block (l1Block.number - m.safeL1Lag) with
  | none => simp only [hsafe] at hps; cases hps
  | some safeBlock =>
      simp only [hsafe] at hps
      have hargs : reanchorArgs m env = m.reorgArgs safeBlock.number env.overrideUtc := by
        simp only [reanchorArgs, hl1, Option.map_some, Option.getD_some, hsafe]
      rw [← hargs] at hps
      have hrequests := liftPanic_eq_ok hps
      apply requestFromBlocks_derives hrequests rfl _ hblocks hcontiguous
      -- all blocks have the same timestamp and no shift
      apply List.isChain_iff_getElem.mpr
      intro i hi
      exact Or.inl ⟨rfl, rfl⟩

/-! ### The blocks after the proposals -/

theorem mem_foldl_insert {n : Nat} (blocks : List Block) (toVerify : BTreeMap Block) :
    n ∈ blocks.foldl (fun toVerify block => toVerify.insert block.header.number block) toVerify ↔
      n ∈ toVerify ∨ ∃ b ∈ blocks, b.header.number = n := by
  induction blocks generalizing toVerify with
  | nil => simp
  | cons block blocks ih =>
      rw [List.foldl_cons, ih, Std.ExtTreeMap.mem_insert, compare_eq_iff_eq]
      simp only [List.mem_cons, exists_eq_or_imp]
      tauto

theorem forM_eq_ok_iff {ε α : Type} {f : α → Except ε Unit} {l : List α} :
    l.forM f = .ok () ↔ ∀ x ∈ l, f x = .ok () := by
  induction l with
  | nil => exact iff_of_true rfl fun x hx => absurd hx List.not_mem_nil
  | cons x l ih =>
      rw [List.forall_mem_cons, ← ih]
      show (f x >>= fun _ => l.forM f) = .ok () ↔ _
      rw [Except.bind_eq_ok_iff]
      exact ⟨fun ⟨_, hx, hl⟩ => ⟨hx, hl⟩, fun ⟨hx, hl⟩ => ⟨(), hx, hl⟩⟩

/-- The check passes when every block can be fetched again. -/
theorem verifyProposed_eq_ok_iff (groups : List (Nat × List Block)) :
    verifyProposed env groups = .ok () ↔
      ∀ b ∈ groups.flatMap Prod.snd, (env.getNewBlock b.header.number).isSome := by
  have hkeys (n : Nat) := @mem_foldl_insert n (groups.flatMap Prod.snd) ∅
  unfold verifyProposed
  rw [forM_eq_ok_iff]
  constructor
  · intro h b hb
    have hmem := (hkeys _).mpr (Or.inr ⟨b, hb, rfl⟩)
    rw [Std.ExtTreeMap.mem_iff_isSome_getElem?] at hmem
    obtain ⟨block, hblock⟩ := Option.isSome_iff_exists.mp hmem
    have hentry := h (b.header.number, block)
      (Std.ExtTreeMap.mem_toList_iff_getElem?_eq_some.mpr hblock)
    cases hnew : env.getNewBlock b.header.number with
    | some header => rfl
    | none =>
        simp only [hnew] at hentry
        cases hentry
  · rintro h ⟨n, block⟩ hentry
    have hblock := Std.ExtTreeMap.mem_toList_iff_getElem?_eq_some.mp hentry
    have hmem := Std.ExtTreeMap.mem_iff_isSome_getElem?.mpr (Option.isSome_iff_exists.mpr
      ⟨block, hblock⟩)
    obtain hnone | ⟨b, hb, rfl⟩ := (hkeys n).mp hmem
    · exact absurd hnone Std.ExtTreeMap.not_mem_empty
    · obtain ⟨header, hheader⟩ := Option.isSome_iff_exists.mp (h b hb)
      simp only [hheader]

/-- The call returns Ok when it re-anchors, or finds every block again. -/
theorem resync_result {origin last : Nat} (h : ResyncAnswers env origin last blocks)
    {outcome : ResyncOutcome} (houtcome : resync m env origin last = .ok outcome) :
    outcome.result = .ok () ↔ reanchors m env blocks = true ∨
      ∀ b ∈ blocks, (env.getNewBlock b.header.number).isSome := by
  obtain ⟨l1Block, hl1⟩ := Option.isSome_iff_exists.mp h.l1Block
  obtain ⟨l2Parent, hl2, hparent⟩ := h.l2Parent
  rw [resync_eq m h.fetched h.anchored hl1 hl2 hparent] at houtcome
  split at houtcome
  · rename_i hre
    obtain ⟨issued, -, rfl⟩ := map_eq_ok houtcome
    exact iff_of_true rfl (Or.inl hre)
  · rename_i hre
    obtain ⟨issued, -, rfl⟩ := map_eq_ok houtcome
    rw [verifyProposed_eq_ok_iff, or_iff_right hre]
    exact forall_congr' fun b => imp_congr_left Regroup.mem_regroup

/-- The requests of a `resync`. -/
theorem resync_requests {origin last : Nat} (h : ResyncAnswers env origin last blocks)
    (hblocks : ∀ b ∈ blocks, Reproposable m coinbase b) (hordered : AnchorsOrdered blocks)
    (hpaced : reanchors m env blocks = false → blocks.IsChain Paced) :
    ∃ outcome, resync m env origin last = .ok outcome ∧
      outcome.issued.flatMap (·.blocks) = blocks ∧
      ∀ p ∈ outcome.issued, Derives m (reproposed m env blocks) p := by
  obtain ⟨outcome, houtcome, hissues⟩ := resync_issues m h
  have hsame : Regroup.regroup anchorOf blocks = blocks :=
    (Regroup.regroup_eq_self_iff _ _).mpr hordered
  rw [hsame] at hissues
  refine ⟨outcome, houtcome, hissues.blocks, ?_⟩
  have hcontiguous : ∀ p ∈ outcome.issued, p.Contiguous := by
    apply @contiguous_of_covers outcome.issued (origin + 1) (last - origin)
      (hissues.covers_iff.mpr _)
    · rw [← h.numbers, ← hissues.blocks, List.map_flatMap]
    · intro b hb
      apply (hblocks b _).fits
      split at hb
      · exact List.mem_of_mem_head? hb
      · exact List.mem_of_find?_eq_some hb
  obtain ⟨l1Block, hl1⟩ := Option.isSome_iff_exists.mp h.l1Block
  obtain ⟨l2Parent, hl2, hparent⟩ := h.l2Parent
  rw [resync_eq m h.fetched h.anchored hl1 hl2 hparent, hsame] at houtcome
  split at houtcome
  · rename_i hre
    obtain ⟨issued, hissued, rfl⟩ := map_eq_ok houtcome
    have hcontent : reproposed m env blocks = (reanchorArgs m env).content := by
      funext b
      exact if_pos hre
    rw [hcontent]
    exact proposeReorgedBatch_derives hblocks hl1 hissued hcontiguous
  · rename_i hre
    obtain ⟨issued, hissued, rfl⟩ := map_eq_ok houtcome
    have hcontent : reproposed m env blocks = Block.content := by
      funext b
      exact if_neg hre
    rw [hcontent]
    exact proposeGroups_derives hblocks hordered (hpaced (by simpa using hre)) hissued hcontiguous

end Resync

/-! ### Main result -/

/-- **What L1 has after a resync.**  Blocks `origin + 1, …, last` of the L2
node, of one coinbase, each fitting a batch, with fewer than 2^16 txs behind
the anchor and none of them by the golden touch account, with anchor ids that
do not go back, and a target size that the size assertion admits: the requests
of `resync` derive, in the order they are proposed in, to these blocks.  Every
number, coinbase and tx list is kept; so are anchor and timestamp when no group
fails the rules of the inbox, and the blocks of one anchor are then less than
256 seconds apart.  The call returns Ok when it re-anchors, or when the L2 node
has all these blocks afterwards. -/
theorem resync_derives (m : ProposerManager) (env : ResyncEnv) (abi : Abi) (kzg : Kzg)
    (codec : TxListCodec) (proposer coinbase : Address) (origin last : Nat) (blocks : List Block)
    (hundo : abi.Undoes) (hkzg : kzg.Accepts)
    (hcodec : ∀ orders, m.compressedSize orders = (codec.encodeAndCompressOrders orders).length)
    (htarget : m.batchTargetSize / maxBlobDataSize ≤ maxBlobsPerBlockDencun)
    (h : ResyncAnswers env origin last blocks)
    (hblocks : ∀ b ∈ blocks, Reproposable m coinbase b) (hordered : AnchorsOrdered blocks)
    (hpaced : reanchors m env blocks = false → blocks.IsChain Paced) :
    ∃ outcome batches, resync m env origin last = .ok outcome ∧
      (outcome.result = .ok () ↔ reanchors m env blocks = true ∨
        ∀ b ∈ blocks, (env.getNewBlock b.header.number).isSome) ∧
      outcome.issued.mapM (fun p => derivedBlocks abi kzg codec proposer p.request) =
        some batches ∧
      batches.flatten = blocks.map (reproposed m env blocks) := by
  obtain ⟨outcome, houtcome, hflat, hderives⟩ := resync_requests h hblocks hordered hpaced
  refine ⟨outcome, outcome.issued.map fun p => p.blocks.map (reproposed m env blocks),
    houtcome, resync_result h houtcome, ?_, ?_⟩
  · apply mapM_eq_some_map
    intro p hp
    obtain ⟨hderived, hsize⟩ := hderives p hp
    rw [← hderived]
    apply derivedBlocks_eq hundo hkzg
    rw [← hcodec]
    exact (Nat.div_le_div_right hsize).trans htarget
  · rw [← List.flatMap_def, ← List.map_flatMap, hflat]

section Sample

open Sequencer Sample

/-- Blocks 11 and 12, the first one with a user tx. -/
def twoBlocks : List Block :=
  [blockWith [userTx] 11 11 10 52 100, Sample.block 12 12 11 56 100]

/-- The L2 node has them on block 10, and the L1 head is block 110. -/
def twoBlocksEnv : ResyncEnv :=
  { sampleEnv3 fun _ => 100 with
    getBlock := fun n => twoBlocks.find? (·.header.number = n)
    l2Parent := some (Sample.block 10 10 9 48 90)
    utc := fun _ => 60
    overrideUtc := 60
    getNewBlock := fun n => (twoBlocks.find? (·.header.number = n)).map (·.header) }

def twoBlocksManager : ProposerManager :=
  { sampleManager with
    compressedSize := fun orders => (userTxCodec.encodeAndCompressOrders orders).length }

/-- Both blocks are proposed again in one batch. -/
theorem resync_derives_twoBlocks :
    reanchors twoBlocksManager twoBlocksEnv twoBlocks = false ∧
      ∃ outcome batches, resync twoBlocksManager twoBlocksEnv 10 12 = .ok outcome ∧
        (outcome.result = .ok () ↔ reanchors twoBlocksManager twoBlocksEnv twoBlocks = true ∨
          ∀ b ∈ twoBlocks, (twoBlocksEnv.getNewBlock b.header.number).isSome) ∧
        outcome.issued.mapM (fun p =>
          derivedBlocks twoBlocksAbi pointAtInfinity userTxCodec 7 p.request) = some batches ∧
        batches.flatten = twoBlocks.map (reproposed twoBlocksManager twoBlocksEnv twoBlocks) := by
  have hanswers : ResyncAnswers twoBlocksEnv 10 12 twoBlocks :=
    ⟨rfl, by decide, by decide, rfl, ⟨_, rfl, by decide⟩, fun _ => rfl⟩
  have hblocks : ∀ b ∈ twoBlocks, Reproposable twoBlocksManager 7 b := by
    have hchecks : ∀ b ∈ twoBlocks, Anchored b ∧
        ((∀ tx ∈ b.transactions.intoTransactions.tail, tx.fromAddr ≠ goldenTouchAddress) ∧
          b.transactions.intoTransactions.tail.length < 2 ^ 16) ∧
        (1 ≤ twoBlocksManager.params.maxBlocksPerBatch ∧
          twoBlocksManager.compressedSize (blockOrders b) ≤ twoBlocksManager.batchTargetSize) ∧
        b.header.beneficiary = 7 := by
      decide +kernel
    intro b hb
    obtain ⟨hanchored, ⟨hothers, hcount⟩, hfits, hcoinbase⟩ := hchecks b hb
    exact ⟨hanchored, ⟨hothers, hcount⟩, hfits, hcoinbase⟩
  exact ⟨by decide +kernel, resync_derives twoBlocksManager twoBlocksEnv twoBlocksAbi
    pointAtInfinity userTxCodec 7 7 10 12 twoBlocks twoBlocksAbi_undoes pointAtInfinity_accepts
    (fun _ => rfl) (by decide) hanswers hblocks (by decide) (fun _ => by decide)⟩

end Sample

end TaikoGateway
