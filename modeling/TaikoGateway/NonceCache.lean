/-
TaikoGateway/NonceCache.lean

The nonce cache of the pool, against the head.

The cache belongs to one block, the last one sealed, but it is looked up by
block number.  While no other block of that number is adopted, a cache that
counts for the head has the account nonces after the head (`CacheInv.sound`),
whatever is sealed, fails, is discarded or reorged in between; so a tx is
dropped and an order hidden only when its nonce is used up
(`nonceCache_sound`).  A block of the same number on the same parent is enough
to lose a tx (`same_height_reorg`).
-/
import TaikoGateway.Contiguous
import TaikoGateway.InFlight
import TaikoGateway.L2Head
import TaikoGateway.PoolLoop

namespace TaikoGateway
namespace Sequencer

open Relation (ReflTransGen)
open TxPool (Shrinks)
open SequencerContext (Ascending BecomesHead)

variable {env : Env} {accounts : StateId → Address → Nat} {nonceAfter : B256 → Address → Nat}

/-! ### What is assumed and what is claimed -/

/-- The simulator is honest about nonces: `accounts` are those of its states,
`nonceAfter` those after the blocks. -/
structure HonestNonces (env : Env) (accounts : StateId → Address → Nat)
    (nonceAfter : B256 → Address → Nat) (s : Sequencer) (i : Input) : Prop where
  sim : ∀ sim, i.tick.sim = some (.ok sim) → HonestResult accounts sim
  /-- an anchor is simulated on the state of the parent -/
  anchor : ∀ t g size stateId blockInfo, s.ticked env i = some t →
    t.anchoring env i.transition = some (g, size) →
    g.anchorBlock env i.transition = .ok (.ok (stateId, blockInfo)) →
    accounts stateId = advance (nonceAfter blockInfo.parentHash) goldenTouchAddress
  sealBlock : ∀ stateId res, i.transition.sealBlock stateId = .ok res →
    nonceAfter res.builtBlock.header.hash = accounts stateId

/-- Where the cache counts for the head, it has the nonces after the head. -/
def CacheSound (nonceAfter : B256 → Address → Nat) (s : Sequencer) : Prop :=
  ∀ parent, s.ctx.l2Parent = .ok parent →
    s.txPool.nonces.isValidParent parent.blockNumber = true →
    ∀ a k, s.txPool.cached a = some k → k = nonceAfter parent.hash a

/-- The state in which the txs of the turn are fetched. -/
def fetching (env : Env) (s : Sequencer) (i : Input) : Option Sequencer :=
  if s.looping || s.isReady env then ({ s with looping := true }.recvBlocks i.tick.recv).toOption
  else none

/-- A snapshot offers what a list has from this nonce on; or it leaves the list
out, for the base fee of the first order, or because at this nonce there is no
order that pays it. -/
def Shows (active : ActiveOrders) (baseFee : Nat) (cached : Option Nat) (nonce : Nat)
    (l : TxList) : Prop :=
  (∃ l' ∈ active.txLists, l'.sender = l.sender ∧
      ∀ k : Nat, nonce ≤ k → l'.txs[k]? = l.txs[k]?) ∨
    (cached = none ∧ l.hasTxByFee baseFee = false) ∨
    (cached = some nonce ∧ l.hasTxByNonce nonce baseFee = false)

/-- In this turn the cache is right wherever it counts, `put` drops only txs
whose nonce is used up, and `active_orders` hides orders only for the base fee
or for a missing nonce. -/
structure NoncesSound (env : Env) (nonceAfter : B256 → Address → Nat) (s : Sequencer) (i : Input)
    (r : Except Panic Sequencer) : Prop where
  fetching : ∀ u, s.fetching env i = some u → CacheSound nonceAfter u
  ticked : ∀ t, s.ticked env i = some t → CacheSound nonceAfter t
  result : ∀ s', r = .ok s' → CacheSound nonceAfter s'
  put : ∀ u parent before tx after v w, s.fetching env i = some u →
    u.ctx.l2Parent = .ok parent → i.tick.txs = before ++ tx :: after →
    before.foldlM (handleTx parent.blockNumber) u = .ok v →
    handleTx parent.blockNumber v tx = .ok w →
    orderAt (w.txPool.listOf tx.sender) tx.nonce = some tx ∨
      tx.nonce < nonceAfter parent.hash tx.sender
  activeOrders : ∀ t g size stateId blockInfo active txPool, s.ticked env i = some t →
    t.anchoring env i.transition = some (g, size) →
    g.anchorBlock env i.transition = .ok (.ok (stateId, blockInfo)) →
    g.txPool.activeOrders i.transition.hashOrder blockInfo.blockNumber blockInfo.baseFee =
      .ok (active, txPool) →
    ∀ a l, g.txPool.listOf a = some l →
      Shows (active.getD .empty) blockInfo.baseFee
        (g.txPool.cachedFor blockInfo.blockNumber a) (nonceAfter blockInfo.parentHash a) l

/-- A block with the number of the sealed one does not become the head, unless
it is that block. -/
def KeepsHeight (b : Sealed) (t : Sequencer) (block : Block) : Prop :=
  t.ctx.BecomesHead block → block.header.number = b.block.header.number →
    block.header.hash = b.block.header.hash

instance (b : Sealed) (t : Sequencer) (block : Block) : Decidable (KeepsHeight b t block) :=
  inferInstanceAs (Decidable (_ → _))

/-- While the cache has nonces, no other block is adopted that has the number
of the block sealed last. -/
def HeightKept (env : Env) (s : Sequencer) (i : Input) : Prop :=
  s.txPool.nonces.nonces.isEmpty = false → ∀ b ∈ s.seals.getLast?, ∀ t block,
    Receives env s i t block → KeepsHeight b t block

instance (env : Env) (s : Sequencer) (i : Input) : Decidable (HeightKept env s i) :=
  have (b : Sealed) : Decidable (∀ t block, Receives env s i t block → KeepsHeight b t block) :=
    decidable_of_iff _ receives_iff
  inferInstanceAs (Decidable (_ → ∀ b ∈ s.seals.getLast?, _))

/-- When a block is sealed while the cache counts for it, a cached nonce of the
anchor's sender has been learnt for the block too. -/
def AnchorsLearnt (env : Env) (s : Sequencer) (i : Input) : Prop :=
  ∀ t sd block, s.ticked env i = some t → t.ctx.state = .sorting sd →
    sd.shouldDiscard = false → sd.shouldSeal i.transition.sealNow = true →
    sealAnswer i.transition sd.stateId = .ok block →
    t.txPool.AnchorLearnt sd.nonces sd.blockInfo.blockNumber

instance (env : Env) (s : Sequencer) (i : Input) : Decidable (AnchorsLearnt env s i) :=
  decidable_of_iff
    (∀ t ∈ s.ticked env i, ∀ sd ∈ t.ctx.state.sortData?, sd.shouldDiscard = false →
      sd.shouldSeal i.transition.sealNow = true →
      ∀ _block ∈ (sealAnswer i.transition sd.stateId).toOption,
        t.txPool.AnchorLearnt sd.nonces sd.blockInfo.blockNumber)
    (by
      simp only [AnchorsLearnt, Option.mem_def, SequencerState.sortData?_eq_some,
        Except.toOption_eq_some_iff]
      exact ⟨fun h t sd block ht hsd hdiscard hseal => h t ht sd hsd hdiscard hseal block,
        fun h t ht sd hsd hdiscard hseal block => h t sd block ht hsd hdiscard hseal⟩)

/-! ### The invariant -/

/-- The pool has nonces of the block `b`, which was sealed last: stored blocks
with its number are `b`, and a block that is built above this number is built
on `b`. -/
structure CachedFrom (nonceAfter : B256 → Address → Nat) (p : TxPool) (s : Sequencer)
    (b : Sealed) : Prop where
  last : s.seals.getLast? = some b
  validBlock : p.nonces.validBlock = b.block.header.number + 1
  nonces : ∀ a k, p.cached a = some k → k = nonceAfter b.block.header.hash a
  heads : ∀ parent ∈ s.ctx.l2Headers, parent.blockNumber = b.block.header.number →
    parent.hash = b.block.header.hash
  sorting : ∀ sd, s.ctx.state = .sorting sd → sd.blockInfo.blockNumber = b.block.header.number + 1 →
    sd.blockInfo.parentHash = b.block.header.hash

/-- The invariant, of a sequencer with the pool `p`. -/
structure CacheInv (accounts : StateId → Address → Nat) (nonceAfter : B256 → Address → Nat)
    (p : TxPool) (s : Sequencer) : Prop where
  pool : p.WellFormed
  ascending : s.ctx.Ascending
  sorting : ∀ sd, s.ctx.state = .sorting sd →
    Learnt accounts (advance (nonceAfter sd.blockInfo.parentHash) goldenTouchAddress) sd
  cache : ∀ a k, p.cached a = some k → ∃ b, CachedFrom nonceAfter p s b

section Inv

variable {p q : TxPool} {s s' t t' : Sequencer} {i : Input}

theorem cached_nonempty {a : Address} {k : Nat} (hk : p.cached a = some k) :
    p.nonces.nonces.isEmpty = false := by
  cases hempty : p.nonces.nonces.isEmpty with
  | false => rfl
  | true =>
      rw [TxPool.cached, StateNonces.get, Std.ExtTreeMap.isEmpty_iff.mp hempty] at hk
      cases hk.symm.trans Std.ExtTreeMap.getElem?_empty

/-- A stored block for whose child the cache counts. -/
theorem CacheInv.nonce_eq (hs : CacheInv accounts nonceAfter p s) {parent : ParentParams}
    (hparent : parent ∈ s.ctx.l2Headers) (hvalid : p.nonces.validBlock = parent.blockNumber + 1)
    {a : Address} {k : Nat} (hk : p.cached a = some k) : k = nonceAfter parent.hash a := by
  obtain ⟨b, hb⟩ := hs.cache a k hk
  have hnumber : parent.blockNumber = b.block.header.number :=
    Nat.succ.inj (hvalid.symm.trans hb.validBlock)
  rw [hb.heads parent hparent hnumber]
  exact hb.nonces a k hk

/-- **By the invariant the cache is sound.** -/
theorem CacheInv.sound (hs : CacheInv accounts nonceAfter s.txPool s) :
    CacheSound nonceAfter s := by
  intro parent hparent hvalid a k hk
  refine hs.nonce_eq (SequencerContext.l2Parent_mem hparent) ?_ hk
  simpa [StateNonces.isValidParent] using hvalid

theorem CachedFrom.shrink {b : Sealed} (hb : CachedFrom nonceAfter p s b) (hpool : Shrinks p q) :
    CachedFrom nonceAfter q s b :=
  ⟨hb.last, hpool.validBlock.trans hb.validBlock,
    fun a k hk => hb.nonces a k (hpool.cached a k hk), hb.heads, hb.sorting⟩

theorem CacheInv.shrink (hs : CacheInv accounts nonceAfter p s) (hpool : Shrinks p q) :
    CacheInv accounts nonceAfter q s := by
  refine ⟨hpool.wellFormed hs.pool, hs.ascending, hs.sorting, fun a k hk => ?_⟩
  obtain ⟨b, hb⟩ := hs.cache a k (hpool.cached a k hk)
  exact ⟨b, hb.shrink hpool⟩

/-- What is built may go on, as long as it is the same block. -/
theorem CacheInv.state (hs : CacheInv accounts nonceAfter p s) (hseals : s'.seals = s.seals)
    (hheaders : s'.ctx.l2Headers = s.ctx.l2Headers)
    (hstate : ∀ sd', s'.ctx.state = .sorting sd' →
      Learnt accounts (advance (nonceAfter sd'.blockInfo.parentHash) goldenTouchAddress) sd' ∧
        ((∃ sd, s.ctx.state = .sorting sd ∧ sd'.blockInfo = sd.blockInfo) ∨
          ∃ parent ∈ s.ctx.l2Headers, sd'.blockInfo.blockNumber = parent.blockNumber + 1 ∧
            sd'.blockInfo.parentHash = parent.hash)) :
    CacheInv accounts nonceAfter p s' := by
  refine ⟨hs.pool, ascending_congr hs.ascending hheaders, fun sd' hsd' => (hstate sd' hsd').1,
    fun a k hk => ?_⟩
  obtain ⟨b, hb⟩ := hs.cache a k hk
  refine ⟨b, hseals ▸ hb.last, hb.validBlock, hb.nonces, ?_, fun sd' hsd' hnumber => ?_⟩
  · rw [hheaders]
    exact hb.heads
  · rcases (hstate sd' hsd').2 with ⟨sd, hsd, hinfo⟩ | ⟨parent, hparent, hblock, hhash⟩
    · rw [hinfo] at hnumber ⊢
      exact hb.sorting sd hsd hnumber
    · rw [hhash]
      exact hb.heads parent hparent (Nat.succ.inj (hblock.symm.trans hnumber))

/-- A tick goes on with the same block, and learns true nonces only. -/
theorem learnt_tickStep {i : TickInput}
    (hsim : ∀ sim, i.sim = some (.ok sim) → HonestResult accounts sim) (h : TickStep env i s s')
    (hs : ∀ sd, s.ctx.state = .sorting sd →
      Learnt accounts (advance (nonceAfter sd.blockInfo.parentHash) goldenTouchAddress) sd) :
    ∀ sd', s'.ctx.state = .sorting sd' →
      Learnt accounts (advance (nonceAfter sd'.blockInfo.parentHash) goldenTouchAddress) sd' := by
  -- only a tx, an answer and the flag `should_seal` touch the block being sorted
  have hsame : s'.ctx.state = s.ctx.state → ∀ sd', s'.ctx.state = .sorting sd' →
      Learnt accounts (advance (nonceAfter sd'.blockInfo.parentHash) goldenTouchAddress) sd' :=
    fun heq sd' hsd' => hs sd' (heq.symm.trans hsd')
  have hearly : ∀ u : Sequencer, u.ctx.state = s.ctx.state →
      ∀ sd', (u.sendBatchToProposer true).ctx.state = .sorting sd' →
        Learnt accounts (advance (nonceAfter sd'.blockInfo.parentHash) goldenTouchAddress) sd' := by
    intro u hu sd' hsd'
    have hseals := sendBatchToProposer_seals u true
    rw [hsd', hu] at hseals
    generalize hold : s.ctx.state = old at hseals
    cases hseals with
    | same => exact hs sd' hold
    | early sd => exact (hs sd hold).setShouldSeal
  cases h with
  | l1Block header => exact hsame rfl
  | l2Block block hmem hrecv =>
      obtain ⟨reorged, ctx, hctx, rfl, -⟩ := recvL2Block_eq_ok hrecv
      obtain ⟨l2Headers, toVerify, id, rfl, -⟩ := SequencerContext.newPreconfL2Block_cases hctx
      exact hsame rfl
  | originBlock header horigin =>
      obtain ⟨l2Headers, toVerify, rfl, -⟩ := SequencerContext.newOriginL2Block_cases horigin
      exact hsame rfl
  | newTx tx hstate htx =>
      intro sd' hsd'
      cases hsd'
      rw [(SortData.handleNewTx_same htx).1.blockInfo]
      exact (hs _ hstate).newTx htx
  | sim sim hanswer hstate hsd =>
      intro sd' hsd'
      cases hsd'
      rw [(SortData.handleSim_same hsd).1.blockInfo]
      exact (hs _ hstate).answer (hsim sim hanswer) hsd
  | startSequencing lookahead skip flags => exact hsame rfl
  | resync origin target => exact hsame rfl
  -- an anchor refresh and a send set the flag of the block in progress
  | updateAnchor header hsafe hnewer =>
      rw [updateAnchor_eq]
      exact hearly (s.setAnchor header i.anchorCreatedUtc) rfl
  | sendBatch => exact hearly s rfl
  | quiet txPool lookahead skip timings looping flags hflags => exact hsame rfl

/-- The invariant is kept when what is sorted stays the same, and a stored
block of the number of the one sealed last is known or is that block. -/
theorem CacheInv.keeps (hs : CacheInv accounts nonceAfter p s) (hasc : s'.ctx.Ascending)
    (hseals : s'.seals = s.seals)
    (hheads : ∀ b ∈ s.seals.getLast?, p.nonces.nonces.isEmpty = false →
      ∀ parent ∈ s'.ctx.l2Headers, parent.blockNumber = b.block.header.number →
        parent ∈ s.ctx.l2Headers ∨ parent.hash = b.block.header.hash)
    (hsorting : ∀ sd', s'.ctx.state = .sorting sd' →
      Learnt accounts (advance (nonceAfter sd'.blockInfo.parentHash) goldenTouchAddress) sd' ∧
        ∃ sd, s.ctx.state = .sorting sd ∧ sd'.blockInfo = sd.blockInfo) :
    CacheInv accounts nonceAfter p s' := by
  refine ⟨hs.pool, hasc, fun sd' hsd' => (hsorting sd' hsd').1, fun a k hk => ?_⟩
  obtain ⟨b, hb⟩ := hs.cache a k hk
  refine ⟨b, hseals ▸ hb.last, hb.validBlock, hb.nonces, fun parent hparent hnumber => ?_,
    fun sd' hsd' hnumber => ?_⟩
  · rcases hheads b hb.last (cached_nonempty hk) parent hparent hnumber with hold | hhash
    · exact hb.heads parent hold hnumber
    · exact hhash
  · obtain ⟨sd, hsd, hinfo⟩ := (hsorting sd' hsd').2
    rw [hinfo] at hnumber ⊢
    exact hb.sorting sd hsd hnumber

/-- **The steps of a tick keep the invariant**, apart from its L2 blocks. -/
theorem CacheInv.tickStep (hsim : ∀ sim, i.tick.sim = some (.ok sim) → HonestResult accounts sim)
    (h : TickStep env (rest i) s s') (hs : CacheInv accounts nonceAfter p s) :
    CacheInv accounts nonceAfter p s' := by
  refine hs.keeps (ascending_tickStep h hs.ascending) h.seals (fun b _ _ parent hparent _ => ?_)
    fun sd' hsd' => ⟨learnt_tickStep (i := rest i) hsim h hs.sorting sd' hsd', ?_⟩
  -- confirmed headers only take stored blocks away
  · left
    rcases h.l2 with hsame | ⟨block, reorged, hmem, hcall⟩ | ⟨header, hcall⟩
    · rwa [hsame] at hparent
    · cases hmem
    · obtain ⟨l2Headers, toVerify, heq, hold⟩ := SequencerContext.newOriginL2Block_cases hcall
      rw [heq] at hparent
      exact hold parent hparent
  -- no step of a tick starts a block, so the block in progress is on the same parent
  · have hstate := h.state
    rw [hsd'] at hstate
    generalize hold : s.ctx.state = old at hstate
    cases hstate with
    | @sorting sd _ hsame hbest => exact ⟨sd, rfl, hsame.blockInfo⟩

/-- During a tick that began in `s` the pool may lose nonces, but not the blocks
that are sealed. -/
def KeepsCache (accounts : StateId → Address → Nat) (nonceAfter : B256 → Address → Nat)
    (s t : Sequencer) : Prop :=
  CacheInv accounts nonceAfter s.txPool t ∧ t.seals = s.seals

theorem KeepsCache.tickStep (hsim : ∀ sim, i.tick.sim = some (.ok sim) → HonestResult accounts sim)
    (h : TickStep env (rest i) t t') (ht : KeepsCache accounts nonceAfter s t) :
    KeepsCache accounts nonceAfter s t' :=
  ⟨ht.1.tickStep hsim h, h.seals.trans ht.2⟩

/-- **The L2 blocks keep the invariant**, when none is adopted in place of the
block sealed last. -/
theorem KeepsCache.receives (hheight : HeightKept env s i) {block : Block}
    (hblock : Receives env s i t block) (h : t.recvL2Block block = .ok t')
    (ht : KeepsCache accounts nonceAfter s t) : KeepsCache accounts nonceAfter s t' := by
  obtain ⟨ht, hseals⟩ := ht
  obtain ⟨reorged, ctx, hctx, rfl, -⟩ := recvL2Block_eq_ok h
  have harr := SequencerContext.newPreconfL2Block_arrival hctx
  refine ⟨ht.keeps (ht.ascending.arrival harr) rfl (fun b hb hcache parent hparent hnumber => ?_)
    fun sd' hsd' => ?_, hseals⟩
  -- what is stored was known, or is the block, as the new head
  · rw [hseals] at hb
    rcases harr.stored ht.ascending with
      ⟨hbecomes, below, p, hheaders, hof, hbelow⟩ | ⟨-, hsame | ⟨-, hbelow⟩⟩
    · have hparent' : parent ∈ below ++ [p] := hheaders ▸ hparent
      rcases List.mem_append.mp hparent' with hold | hnew
      · exact Or.inl ((hbelow parent).mp hold).1
      · right
        rw [List.mem_singleton.mp hnew] at hnumber ⊢
        rw [hof.hash]
        exact hheight hcache b hb t block hblock hbecomes (hof.blockNumber.symm.trans hnumber)
    · exact Or.inl (hsame ▸ hparent)
    · exact Or.inl ((hbelow parent).mp hparent).1
  · obtain ⟨l2Headers, toVerify, id, rfl, -⟩ := SequencerContext.newPreconfL2Block_cases hctx
    exact ⟨ht.sorting sd' hsd', sd', hsd', rfl⟩

/-- The invariant after a tick. -/
theorem CacheInv.ticked (hsim : ∀ sim, i.tick.sim = some (.ok sim) → HonestResult accounts sim)
    (hheight : HeightKept env s i) (hs : CacheInv accounts nonceAfter s.txPool s)
    (h : s.ticked env i = some t) : CacheInv accounts nonceAfter t.txPool t := by
  have ht : KeepsCache accounts nonceAfter s t :=
    ticked_keeps (KeepsCache accounts nonceAfter s) (.tickStep hsim) (.receives hheight) ⟨hs, rfl⟩ h
  exact ht.1.shrink (ticked_pool h)

/-- After the blocks are read. -/
theorem CacheInv.received (hsim : ∀ sim, i.tick.sim = some (.ok sim) → HonestResult accounts sim)
    (hheight : HeightKept env s i) (hs : CacheInv accounts nonceAfter s.txPool s)
    (h : (s.entered env).recvBlocks i.tick.recv = .ok t) : KeepsCache accounts nonceAfter s t :=
  recvBlocks_keeps (KeepsCache accounts nonceAfter s) (.tickStep hsim) (.receives hheight)
    ⟨hs, rfl⟩ h

/-- Outside of a seal the transition starts no block, goes on with the one it
has, or starts one on the head. -/
theorem CacheInv.stays (ht : CacheInv accounts nonceAfter t.txPool t)
    (hpool : Shrinks t.txPool s'.txPool) (hseals : s'.seals = t.seals)
    (hheaders : s'.ctx.l2Headers = t.ctx.l2Headers)
    (hsync : ∃ lastL1, s'.ctx.state = .sync lastL1) :
    CacheInv accounts nonceAfter s'.txPool s' := by
  refine (ht.state hseals hheaders fun sd' hsd' => ?_).shrink hpool
  obtain ⟨lastL1, hstate⟩ := hsync
  cases hstate.symm.trans hsd'

/-- **A seal** leaves a cache of the sealed block. -/
theorem CacheInv.seal (ht : CacheInv accounts nonceAfter t.txPool t) {sd : SortData}
    {block : Block} {reorged : Bool} {ctx : SequencerContext} (hstate : t.ctx.state = .sorting sd)
    (hctx : t.takeState.ctx.newPreconfL2Block block = .ok (reorged, ctx))
    (hnumber : block.header.number = sd.blockInfo.blockNumber)
    (hafter : nonceAfter block.header.hash = accounts sd.stateId)
    (hlearnt : t.txPool.AnchorLearnt sd.nonces sd.blockInfo.blockNumber)
    (hpool : s'.txPool = t.txPool.updateNewBlock sd.nonces)
    (hseals : s'.seals = t.seals ++ [sealOf sd block])
    (hheaders : s'.ctx.l2Headers = ctx.l2Headers) (hsync : ∃ lastL1, s'.ctx.state = .sync lastL1) :
    CacheInv accounts nonceAfter s'.txPool s' := by
  have harr := SequencerContext.newPreconfL2Block_arrival hctx
  have hasc : Ascending t.takeState.ctx := ht.ascending
  have hsorted := ht.sorting sd hstate
  -- where the cache is for this number, it is of the block sealed last, which is the parent
  have hcorrect : t.txPool.CacheCorrect sd.blockInfo.blockNumber
      (nonceAfter sd.blockInfo.parentHash) := by
    intro hvalid a k hk
    obtain ⟨b, hb⟩ := ht.cache a k hk
    rw [hb.sorting sd hstate (hvalid.symm.trans hb.validBlock)]
    exact hb.nonces a k hk
  have hnone : ∀ sd', s'.ctx.state ≠ .sorting sd' := by
    intro sd' hsd'
    obtain ⟨lastL1, hs'⟩ := hsync
    cases hs'.symm.trans hsd'
  refine ⟨?_, ascending_congr (hasc.arrival harr) hheaders, fun sd' hsd' => absurd hsd' (hnone sd'),
    fun a k hk => ⟨sealOf sd block, ?_⟩⟩
  · rw [hpool]
    exact ht.pool.updateNewBlock sd.nonces
  · refine ⟨?_, ?_, fun a k hk => ?_, ?_, fun sd' hsd' => absurd hsd' (hnone sd')⟩
    · rw [hseals, List.getLast?_concat]
    · rw [hpool, TxPool.validBlock_updateNewBlock, hsorted.validBlock, ← hnumber]
      rfl
    · rw [hpool] at hk
      show k = nonceAfter block.header.hash a
      rw [hafter]
      exact hsorted.cached_updateNewBlock hcorrect hlearnt hk
    -- a stored block of the sealed number is the sealed block, also after a reorg
    · rw [hheaders]
      exact hasc.hash_of_number harr

/-- **The transition keeps the invariant.** -/
theorem CacheInv.transition (hhonest : HonestNonces env accounts nonceAfter s i)
    (hparent : SealsOnParent env s i) (hlearnt : AnchorsLearnt env s i)
    (htick : s.ticked env i = some t) (ht : CacheInv accounts nonceAfter t.txPool t)
    (h : t.stateTransition env i.transition = .ok s') :
    CacheInv accounts nonceAfter s'.txPool s' := by
  have hsync : ∀ {lastL1}, t.ctx.state = .sync lastL1 → Shrinks t.txPool s'.txPool :=
    fun hstate => syncTransition_pool hstate h
  have hclear : Shrinks t.txPool t.txPool.clearNonces := .clearNonces t.txPool
  cases transition_of_eq_ok h with
  | wait lastL1' hstate hg =>
      rcases hg with rfl | hg
      · exact ht.stays (hsync hstate) rfl rfl ⟨lastL1', rfl⟩
      · exact ht.stays (hsync hstate) hg.batches.seals
          (congrArg (fun ctx => ctx.l2Headers) hg.ctx) ⟨lastL1', rfl⟩
  -- a new block starts from the head, in the state after its anchor
  | @anchored g size stateId blockInfo active txPool timings hgate hanchor =>
      obtain ⟨⟨lastL1, hstate⟩, -, hg⟩ := anchoring_eq_some hgate
      have hctx : g.ctx = t.takeState.ctx := hg.ctx
      obtain ⟨_, parent, _, _, _, -, hhead, -, rfl, -⟩ := anchorBlock_eq_ok hanchor
      refine CacheInv.shrink ?_ (hsync hstate)
      refine ht.state hg.batches.seals (congrArg (fun ctx => ctx.l2Headers) hg.ctx)
        fun sd' hsd' => ?_
      cases hsd'
      refine ⟨?_, Or.inr ⟨parent, ?_, rfl, rfl⟩⟩
      · have hstart := hhonest.anchor t g size stateId _ htick hgate hanchor
        show Learnt accounts (advance (nonceAfter parent.hash) goldenTouchAddress) _
        rw [← hstart]
        exact .new ..
      · rw [hctx] at hhead
        exact SequencerContext.l2Parent_mem hhead
  | @anchorFailed g size timings count hgate =>
      obtain ⟨⟨lastL1, hstate⟩, -, hg⟩ := anchoring_eq_some hgate
      refine ht.stays (hsync hstate) hg.batches.seals
        (congrArg (fun ctx => ctx.l2Headers) hg.ctx) ⟨0, ?_⟩
      show g.ctx.state = _
      rw [hg.ctx]
      rfl
  -- every way to drop a block clears the cache
  | @discarded sd hstate hdiscard =>
      refine ht.stays ?_ ?_ (flushIfStale_chains _ _).l2Headers ⟨0, flushIfStale_state _ _⟩
      · rw [flushIfStale_txPool]
        exact hclear
      · rcases flushIfStale_batches { t.takeState with txPool := t.txPool.clearNonces }
          sd.blockInfo.anchorParams with hsame | hsent
        · exact hsame.seals
        · exact hsent.seals
  | @sealed sd block reorged ctx request timings hstate hdiscard hseal hanswer hctx hrequest =>
      obtain ⟨res, hres, -, rfl⟩ := sealAnswer_eq_ok.mp hanswer
      refine ht.seal hstate hctx (hparent t sd _ htick hstate hanswer).1
        (hhonest.sealBlock sd.stateId res hres)
        (hlearnt t sd _ htick hstate hdiscard hseal hanswer) (flushIfStale_txPool _ _) ?_
        (flushIfStale_chains _ _).l2Headers ⟨0, sealed_state hctx request⟩
      have hsealed : SealedBlock t (t.takeState.withSealed sd res.builtBlock ctx request)
          (sealOf sd res.builtBlock) request := ⟨rfl, batchLog_log _ _⟩
      rcases flushIfStale_batches (t.takeState.withSealed sd res.builtBlock ctx request)
        sd.blockInfo.anchorParams with hsame | hsent
      · exact hsame.seals.trans hsealed.seals
      · exact hsent.seals.trans hsealed.seals
  | sealFailed hstate hdiscard hseal hanswer htolerated => exact ht.stays hclear rfl rfl ⟨0, rfl⟩
  | @round sd sd' orders hstate hround =>
      refine ht.state rfl rfl fun sd'' hsd'' => ?_
      cases hsd''
      have hinfo := SortData.maybeSimNextBatch_blockInfo hround
      refine ⟨?_, Or.inl ⟨sd, hstate, hinfo⟩⟩
      rw [hinfo]
      exact (ht.sorting sd hstate).round hround

/-! ### One turn -/

theorem fetching_eq {u : Sequencer} (h : s.fetching env i = some u) :
    (s.entered env).recvBlocks i.tick.recv = .ok u ∧ u.txPool = s.txPool := by
  simp only [fetching] at h
  split at h
  · rename_i hready
    have hrecv := Except.toOption_eq_some_iff.mp h
    rw [entered, if_pos hready]
    have hpool : u.txPool = s.txPool := by rw [recvBlocks_txPool hrecv]
    exact ⟨hrecv, hpool⟩
  · cases h

/-- While a tx is put into the pool, the cache is right for the head. -/
theorem CacheInv.put_sound (hsim : ∀ sim, i.tick.sim = some (.ok sim) → HonestResult accounts sim)
    (hheight : HeightKept env s i) (hs : CacheInv accounts nonceAfter s.txPool s)
    {u v w : Sequencer} {parent : ParentParams}
    {before : List Order} {tx : Order} (hu : s.fetching env i = some u)
    (hparent : u.ctx.l2Parent = .ok parent)
    (hbefore : before.foldlM (handleTx parent.blockNumber) u = .ok v)
    (hput : handleTx parent.blockNumber v tx = .ok w) :
    orderAt (w.txPool.listOf tx.sender) tx.nonce = some tx ∨
      tx.nonce < nonceAfter parent.hash tx.sender := by
  obtain ⟨hrecv, hsame⟩ := fetching_eq hu
  have hfetch : u.fetchTxs before = .ok v := by
    rw [fetchTxs, hparent]
    exact hbefore
  have hpool : Shrinks s.txPool v.txPool := by
    rw [← hsame]
    exact fetchTxs_pool hfetch
  have hchain : ReflTransGen (TickStep env (rest i)) u v := fetchTxs_chain hfetch
  have hfetched : KeepsCache accounts nonceAfter s v :=
    chain_rest_keeps (KeepsCache accounts nonceAfter s) (.tickStep hsim)
      (hs.received hsim hheight hrecv) hchain
  have hv := hfetched.1.shrink hpool
  have hhead : v.ctx.l2Parent = .ok parent := by
    rw [SequencerContext.l2Parent, (fetchTxs_chains hfetch).l2Headers]
    exact hparent
  -- the tx is dropped only against a cache that counts for the head
  obtain ⟨state, txPool, hkeeps, rfl, -⟩ := handleTx_eq_ok hput
  apply (TxPool.put_keeps hkeeps).imp id
  rintro ⟨hvalid, k, hk, hlt⟩
  rw [← hv.sound parent hhead hvalid tx.sender k hk]
  exact hlt

/-- What a snapshot offers, or why it does not. -/
theorem shows_of_activeOrders (hp : p.WellFormed) {order : HashOrder} {blockNumber baseFee : Nat}
    {active : Option ActiveOrders} (h : p.activeOrders order blockNumber baseFee = .ok (active, q))
    {a : Address} {l : TxList} (hl : p.listOf a = some l) {nonce : Nat}
    (hcached : ∀ k, p.cachedFor blockNumber a = some k → k = nonce) :
    Shows (active.getD .empty) baseFee (p.cachedFor blockNumber a) nonce l := by
  have hmem : ∀ l', p.offered blockNumber baseFee l = some l' →
      l' ∈ (active.getD .empty).txLists := by
    intro l' hl'
    refine (TxPool.activeOrders_shows hp h l').mpr ⟨a, ?_⟩
    rw [hl]
    exact hl'
  rw [TxPool.offered, hp.sender a l hl] at hmem
  -- without a cached nonce only the fee decides; with one the list is forwarded to it
  cases hk : p.cachedFor blockNumber a with
  | none =>
      simp only [hk] at hmem
      cases hfee : l.hasTxByFee baseFee with
      | false => exact Or.inr (Or.inl ⟨rfl, hfee⟩)
      | true => exact Or.inl ⟨l, hmem l (if_pos hfee), rfl, fun k _ => rfl⟩
  | some k =>
      obtain rfl := hcached k hk
      simp only [hk] at hmem
      cases hdue : l.hasTxByNonce k baseFee with
      | false => exact Or.inr (Or.inr ⟨rfl, hdue⟩)
      | true =>
          refine Or.inl ⟨l.forward k, hmem _ (if_pos hdue), rfl, fun n hn => ?_⟩
          rw [l.getElem?_forward, if_neg (Nat.not_lt.mpr hn)]

/-- **One turn**: nothing usable is lost, and the invariant is kept. -/
theorem CacheInv.turn (hhonest : HonestNonces env accounts nonceAfter s i)
    (hparent : SealsOnParent env s i)
    (hheight : HeightKept env s i) (hlearnt : AnchorsLearnt env s i)
    (hs : CacheInv accounts nonceAfter s.txPool s) :
    NoncesSound env nonceAfter s i (s.iteration env i) ∧
      ∀ s', s.iteration env i = .ok s' → CacheInv accounts nonceAfter s'.txPool s' := by
  have htick : ∀ t, s.ticked env i = some t → CacheInv accounts nonceAfter t.txPool t :=
    fun t ht => hs.ticked hhonest.sim hheight ht
  have hkeep : ∀ s', s.iteration env i = .ok s' → CacheInv accounts nonceAfter s'.txPool s' := by
    intro s' h
    -- a turn without a transition ends after the blocks are read
    cases ht : s.ticked env i with
    | none =>
        have hrecv := iteration_of_entered h ht
        have hpool := (recvBlocks_txPool hrecv).trans (entered_txPool env s)
        exact (hs.received hhonest.sim hheight hrecv).1.shrink (.of_eq hpool)
    | some t =>
        exact (htick t ht).transition hhonest hparent hlearnt ht
          ((iteration_of_ticked ht).symm.trans h)
  refine ⟨⟨fun u hu => ?_, fun t ht => (htick t ht).sound, fun s' h => (hkeep s' h).sound, ?_, ?_⟩,
    hkeep⟩
  · obtain ⟨hrecv, hsame⟩ := fetching_eq hu
    exact ((hs.received hhonest.sim hheight hrecv).1.shrink (.of_eq hsame)).sound
  · intro u parent before tx after v w hu hhead _ hbefore hput
    exact hs.put_sound hhonest.sim hheight hu hhead hbefore hput
  · intro t g size stateId blockInfo active txPool ht hgate hanchor hactive a l hl
    obtain ⟨-, -, hg⟩ := anchoring_eq_some hgate
    have hpool : g.txPool = t.txPool := hg.txPool
    have hctx : g.ctx = t.takeState.ctx := hg.ctx
    obtain ⟨_, parent, _, _, _, -, hhead, -, rfl, -⟩ := anchorBlock_eq_ok hanchor
    rw [hctx] at hhead
    rw [hpool] at hactive hl ⊢
    apply shows_of_activeOrders (htick t ht).pool hactive hl
    intro k hk
    simp only [TxPool.cachedFor, StateNonces.isValidBlock, decide_eq_true_eq] at hk
    split at hk
    · rename_i hvalid
      exact (htick t ht).nonce_eq (SequencerContext.l2Parent_mem hhead) hvalid hk
    · cases hk

end Inv

/-- **The nonce cache.**  With an honest simulator, along a run in which no
other block with the number of the block sealed last is adopted while the cache
has nonces, and in which a cached nonce of the anchor's sender is learnt again
for every block that is sealed, the cache is right wherever it counts for the
head, and no order is lost whose nonce is usable. -/
theorem nonceCache_sound (env : Env) (accounts : StateId → Address → Nat)
    (nonceAfter : B256 → Address → Nat) (lookahead : LookaheadHandle) (now : Instant)
    (is : List Input)
    (hhonest : Run.Along (iteration env)
      (fun s i _ => HonestNonces env accounts nonceAfter s i ∧ SealsOnParent env s i)
      (.new env lookahead now) is)
    (hkept : Run.Along (iteration env)
      (fun s i _ => HeightKept env s i ∧ AnchorsLearnt env s i)
      (.new env lookahead now) is) :
    Run.Along (iteration env) (NoncesSound env nonceAfter) (.new env lookahead now) is := by
  have hnew : CacheInv accounts nonceAfter (new env lookahead now).txPool
      (new env lookahead now) := by
    refine ⟨TxPool.wellFormed_new, SequencerContext.ascending_new _ _ now,
      fun sd hsd => (by cases hsd), fun a k hk => ?_⟩
    cases hk.symm.trans Std.ExtTreeMap.getElem?_empty
  refine Run.Along.mono_of_invariant (fun s => CacheInv accounts nonceAfter s.txPool s)
    (fun s i hs h => (hs.turn h.1.1 h.1.2 h.2.1 h.2.2).1)
    (fun s i s' hs h hs' => (hs.turn h.1.1 h.1.2 h.2.1 h.2.2).2 s' hs') is hnew
    (hhonest.and hkept)

section Sample

open Sample

/-- Account nonces after the blocks: a tx of sender 5 is in the block with hash
11, and none in the others. -/
def blockNonces : B256 → Address → Nat
  | 11 => advance (advance (fun _ => 0) goldenTouchAddress) 5
  | 111 => advance (fun _ => 0) goldenTouchAddress
  | _ => fun _ => 0

/-- State 1 is after the anchor of block 11, and state 2 after the tx. -/
def stateNonces : StateId → Address → Nat
  | 2 => advance (advance (fun _ => 0) goldenTouchAddress) 5
  | _ => advance (fun _ => 0) goldenTouchAddress

/-- What the simulator answers in this turn, apart from the anchor, is true. -/
def TrueAnswers (i : Input) : Prop :=
  (∀ sim, i.tick.sim = some (.ok sim) → HonestResult stateNonces sim) ∧
    ∀ stateId res, i.transition.sealBlock stateId = .ok res →
      blockNonces res.builtBlock.header.hash = stateNonces stateId

theorem trueAnswers_turn (txs : List Order) (l1Blocks : List Header) (l2Blocks : List Block)
    (now : Instant) (utc : Nat) :
    TrueAnswers (receivingTxs txs (receiving l1Blocks l2Blocks (Sample.turn now utc))) :=
  ⟨fun sim hsim => (by cases hsim), fun stateId res hres => (by cases hres)⟩

/-- The anchor is simulated for block 11 only. -/
def AnchorsBlock11 (s : Sequencer) (i : Input) : Prop :=
  ∀ t ∈ s.ticked Sample.env i, ∀ g ∈ t.anchoring Sample.env i.transition,
    ∀ r ∈ (g.1.anchorBlock Sample.env i.transition).toOption, ∀ a ∈ r.toOption,
      a.1 = 1 ∧ a.2.parentHash = 10

instance (s : Sequencer) (i : Input) : Decidable (AnchorsBlock11 s i) :=
  inferInstanceAs (Decidable (∀ t ∈ s.ticked Sample.env i, _))

theorem honestNonces {s : Sequencer} {i : Input} (hi : TrueAnswers i)
    (hanchor : AnchorsBlock11 s i) :
    HonestNonces Sample.env stateNonces blockNonces s i := by
  refine ⟨hi.1, fun t g size stateId blockInfo ht hg hblock => ?_, hi.2⟩
  obtain ⟨hid, hhash⟩ := hanchor t ht (g, size) hg (.ok (stateId, blockInfo))
    (Except.toOption_eq_some_iff.mpr hblock) (stateId, blockInfo) rfl
  simp only at hid hhash
  rw [hid, hhash]
  rfl

theorem trueAnswers_sampleRun : ∀ i ∈ sampleRun, TrueAnswers i := by
  intro i hi
  simp only [sampleRun, List.mem_cons, List.not_mem_nil, or_false] at hi
  rcases hi with rfl | rfl | rfl | rfl | rfl | rfl
  case inr.inr.inr.inl =>
    refine ⟨fun sim hsim => ?_, fun stateId res hres => (by cases hres)⟩
    cases hsim
    refine ⟨fun _ _ h => (by cases h), fun _ _ h => (by cases h), fun h => (by cases h),
      fun _ _ h => (by cases h), fun v hv => ?_⟩
    cases hv
    exact ⟨rfl, rfl⟩
  case inr.inr.inr.inr.inl =>
    refine ⟨fun sim hsim => (by cases hsim), fun stateId res hres => ?_⟩
    simp only [Sample.sealing] at hres
    split at hres
    · rename_i hsame
      cases hres
      rw [hsame]
      rfl
    · cases hres
  all_goals
    exact ⟨fun sim hsim => (by cases hsim), fun stateId res hres => (by cases hres)⟩

/-- The sample run, and one more turn in which txs and blocks arrive. -/
def runThen (txs : List Order) (l2Blocks : List Block) : List Input :=
  sampleRun ++ [receivingTxs txs (receiving [] l2Blocks (Sample.turn 6200 400))]

theorem honest_runThen (txs : List Order) (l2Blocks : List Block)
    (hchecked : Run.Along (iteration Sample.env)
      (fun s i _ => AnchorsBlock11 s i ∧ SealsOnParent Sample.env s i) Sample.start
      (runThen txs l2Blocks)) :
    Run.Along (iteration Sample.env)
      (fun s i _ => HonestNonces Sample.env stateNonces blockNonces s i ∧
        SealsOnParent Sample.env s i) Sample.start (runThen txs l2Blocks) := by
  have htrue : ∀ i ∈ runThen txs l2Blocks, TrueAnswers i := by
    intro i hi
    rcases List.mem_append.mp hi with hi | hi
    · exact trueAnswers_sampleRun i hi
    · rw [List.mem_singleton.mp hi]
      exact trueAnswers_turn txs [] l2Blocks 6200 400
  have hassumed : Run.Along (iteration Sample.env) (fun _ i _ => TrueAnswers i) Sample.start
      (runThen txs l2Blocks) :=
    Run.Along.of_forall_mem htrue _
  apply Run.Along.mono _ _ (hassumed.and hchecked)
  rintro s i ⟨hi, hhonest, hparent⟩
  exact ⟨honestNonces hi hhonest, hparent⟩

/-- After block 11, with the first tx of sender 5, a tx with the nonce of the
first is dropped, and the second is kept. -/
theorem nonceCache_sound_sample :
    Run.Along (iteration Sample.env) (NoncesSound Sample.env blockNonces) Sample.start
        (runThen [senderTx 5 0, senderTx 5 1] []) ∧
      ((runThen [senderTx 5 0, senderTx 5 1] []).foldlM (iteration Sample.env)
          Sample.start).toOption.map
        (fun s => ((s.txPool.listOf 5).map fun l => l.txs.keys, s.txPool.discardedOrders)) =
          some (some [1], 1) :=
  ⟨nonceCache_sound Sample.env stateNonces blockNonces Sample.lookahead 0
    (runThen [senderTx 5 0, senderTx 5 1] [])
    (honest_runThen [senderTx 5 0, senderTx 5 1] [] (by decide +kernel)) (by decide +kernel),
    by decide +kernel⟩

/-- Another gateway's block 11, without txs. -/
def otherBlock11 : Block :=
  ⟨⟨11, 111, 10, 52, 8, 0, 0⟩, (Sample.block 11 111 10 52 100).transactions⟩

/-- The batch with block 11 has been sent when another block 11 replaces it;
sender 5 is at nonce 0 again, and its tx is dropped. -/
theorem same_height_reorg :
    Run.Along (iteration Sample.env)
        (fun s i _ => HonestNonces Sample.env stateNonces blockNonces s i ∧
          SealsOnParent Sample.env s i) Sample.start (runThen [senderTx 5 0] [otherBlock11]) ∧
      ¬ Run.Along (iteration Sample.env) (NoncesSound Sample.env blockNonces) Sample.start
        (runThen [senderTx 5 0] [otherBlock11]) := by
  refine ⟨honest_runThen _ _ (by decide +kernel), fun hsound => ?_⟩
  -- the turn up to the tx, and what the pool has of the sender then
  have hturn : (sampleRun.foldlM (iteration Sample.env) Sample.start).toOption.bind (fun s =>
      (s.fetching Sample.env (receivingTxs [senderTx 5 0]
        (receiving [] [otherBlock11] (Sample.turn 6200 400)))).bind fun u =>
          u.ctx.l2Parent.toOption.bind fun parent =>
            (handleTx parent.blockNumber u (senderTx 5 0)).toOption.map fun w =>
              (parent.hash, orderAt (w.txPool.listOf 5) 0)) = some (111, none) := by
    decide +kernel
  obtain ⟨s, hs, hturn⟩ := Option.bind_eq_some_iff.mp hturn
  obtain ⟨u, hu, hturn⟩ := Option.bind_eq_some_iff.mp hturn
  obtain ⟨parent, hparent, hturn⟩ := Option.bind_eq_some_iff.mp hturn
  obtain ⟨w, hw, hlost⟩ := Option.map_eq_some_iff.mp hturn
  obtain ⟨hhash, hlost⟩ := Prod.mk.inj hlost
  have hput := (hsound.at (Except.toOption_eq_some_iff.mp hs)).put u parent [] (senderTx 5 0) [] u w
    hu (Except.toOption_eq_some_iff.mp hparent) rfl rfl (Except.toOption_eq_some_iff.mp hw)
  rcases hput with hkept | hused
  · cases hlost.symm.trans hkept
  · rw [hhash] at hused
    exact absurd hused (by decide +kernel)

end Sample

end Sequencer
end TaikoGateway
