/-
TaikoGateway/ReorgReport.lean

Reorgs of the L2 chain, and the pending batch.

A block that takes the place of a stored one should be reported as a reorg, and
a pending batch should not survive when one of its blocks is no ancestor of the
head any more.  `new_preconf_l2_block` looks at the number of the block and at
the hash of the head only.  So the property holds along a run exactly when

* a block numbered one above the head has the head for its parent,
* a block that becomes the head without its parent being known descends from
  the end of the pending batch all the same, and
* a sealed block becomes the head (`reorgReported_iff`).

`unreported_reorg` is a run in which the first fails.

Which blocks are ancestors of which is not for the code to know: `parentOf` is
any assignment of parents to hashes that agrees with the headers of the run.
-/
import TaikoGateway.Contiguous
import TaikoGateway.L2Head
import TaikoGateway.Lib.Ancestry

namespace TaikoGateway

open BlockId (Ancestor Child)

def Block.id (b : Block) : BlockId B256 := ⟨b.header.number, b.header.hash⟩

def ParentParams.id (p : ParentParams) : BlockId B256 := ⟨p.blockNumber, p.hash⟩

theorem ParentParams.Of.id_eq {p : ParentParams} {b : Block} (h : p.Of b) : p.id = b.id := by
  rw [ParentParams.id, Block.id, h.blockNumber, h.hash]

namespace Sequencer

open Relation (ReflTransGen)
open SequencerContext (Adopts Arrival Ascending BecomesHead)

variable {env : Env} {parentOf : B256 → B256}

/-! ### The property and the condition -/

/-- The stored block is no ancestor of `b`: it is numbered above it, or has the
number of `b` or of its parent and another hash. -/
def ReplacedBy (b : Block) (p : ParentParams) : Prop :=
  b.header.number < p.blockNumber ∨
    (p.blockNumber = b.header.number ∧ p.hash ≠ b.header.hash) ∨
      (p.blockNumber + 1 = b.header.number ∧ p.hash ≠ b.header.parentHash)

/-- The blocks of the pending batch are ancestors of the head. -/
def BatchOnChain (parentOf : B256 → B256) (s : Sequencer) : Prop :=
  ∀ head, s.ctx.l2Headers.getLast? = some head →
    ∀ x ∈ s.pendingSeals, Ancestor parentOf x.block.id head.id

/-- In this turn a replaced block is reported, and no batch is kept or built of
which a block is no ancestor of the head. -/
structure ReorgsReported (parentOf : B256 → B256) (env : Env) (s : Sequencer) (i : Input)
    (r : Except Panic Sequencer) : Prop where
  flag : ∀ ctx b reorged ctx', Delivers env s i ctx (.preconf b) →
    ctx.newPreconfL2Block b = .ok (reorged, ctx') → Adopts ctx b ctx' →
    (∃ p ∈ ctx.l2Headers, ReplacedBy b p) → reorged = true
  received : ∀ t b t', Receives env s i t b → t.recvL2Block b = .ok t' → BatchOnChain parentOf t'
  sealed : ∀ t sd b reorged ctx', s.ticked env i = some t → Seals i.transition t sd b →
    t.takeState.ctx.newPreconfL2Block b = .ok (reorged, ctx') →
    ∀ head, ctx'.l2Headers.getLast? = some head →
      ∀ x ∈ t.pendingSeals ++ [sealOf sd b], Ancestor parentOf x.block.id head.id
  reached : TurnReaches env (BatchOnChain parentOf) s i r

/-- The delivery does not abort. -/
def Completes (ctx : SequencerContext) (b : Block) : Prop := ∃ r, ctx.newPreconfL2Block b = .ok r

/-- One above the head, the head is the parent. -/
def HeadIsParent (ctx : SequencerContext) (b : Block) : Prop :=
  Completes ctx b → b.firstTx ≠ none → ∀ last ∈ ctx.l2Headers.getLast?,
    last.blockNumber + 1 = b.header.number → last.hash = b.header.parentHash

/-- The parent of the block is stored, and not below `q`. -/
def ParentKnown (ctx : SequencerContext) (q : Sealed) (b : Block) : Prop :=
  ∃ p ∈ ctx.l2Headers, q.block.header.number ≤ p.blockNumber ∧
    p.blockNumber + 1 = b.header.number ∧ p.hash = b.header.parentHash

/-- A new head whose parent was missed, and which replaces no block at or below
the end of the pending batch, descends from that end. -/
def MissedDescends (parentOf : B256 → B256) (t : Sequencer) (b : Block) : Prop :=
  Completes t.ctx b → t.ctx.BecomesHead b → ∀ q ∈ t.pendingSeals.getLast?,
    (t.ctx.Reorgs b → q.block.header.number < b.header.number) → ¬ ParentKnown t.ctx q b →
    Ancestor parentOf q.block.id b.id

/-- Above the sealed block nothing is stored, unless it replaces a block. -/
def SealsOnTop (t : Sequencer) (b : Block) : Prop :=
  Completes t.takeState.ctx b →
    (∀ p ∈ t.ctx.l2Headers, p.blockNumber < b.header.number) ∨
      ∃ p ∈ t.ctx.l2Headers, p.blockNumber = b.header.number

/-- The L2 blocks of the turn connect to what is known. -/
structure BlocksConnect (parentOf : B256 → B256) (env : Env) (s : Sequencer) (i : Input) :
    Prop where
  head : ∀ ctx b, Delivers env s i ctx (.preconf b) → HeadIsParent ctx b
  missed : ∀ t b, Receives env s i t b → MissedDescends parentOf t b
  sealed : ∀ t sd b, s.ticked env i = some t → Seals i.transition t sd b → SealsOnTop t b

/-! ### What is assumed -/

/-- `parentOf` agrees with the headers of the turn. -/
def ParentsOf (parentOf : B256 → B256) (env : Env) (s : Sequencer) (i : Input) : Prop :=
  (∀ b ∈ i.tick.recv.l2Blocks, parentOf b.header.hash = b.header.parentHash) ∧
    ∀ t sd b, s.ticked env i = some t → Seals i.transition t sd b →
      parentOf b.header.hash = b.header.parentHash

/-- A sealed block comes with its transactions, and is an ancestor of no block
that is stored before it. -/
def SealsNew (parentOf : B256 → B256) (env : Env) (s : Sequencer) (i : Input) : Prop :=
  ∀ t sd b, s.ticked env i = some t → Seals i.transition t sd b →
    b.firstTx ≠ none ∧ ∀ p ∈ t.ctx.l2Headers, ¬ Ancestor parentOf b.id p.id

instance (parentOf : B256 → B256) (env : Env) (s : Sequencer) (i : Input) :
    Decidable (ParentsOf parentOf env s i) :=
  have := decidable_of_iff _
    (@seals_iff env (fun _ _ b => parentOf b.header.hash = b.header.parentHash) s i)
  inferInstanceAs (Decidable (_ ∧ _))

instance (parentOf : B256 → B256) (env : Env) (s : Sequencer) (i : Input) :
    Decidable (SealsNew parentOf env s i) :=
  decidable_of_iff _ (@seals_iff env (fun t _ b => b.firstTx ≠ none ∧
    ∀ p ∈ t.ctx.l2Headers, ¬ Ancestor parentOf b.id p.id) s i)

/-! ### What is stored above the pending batch -/

/-- The stored blocks from the number of `q` on descend from it; they are not
all below it. -/
structure StoredFrom (parentOf : B256 → B256) (stored : List ParentParams) (q : BlockId B256) :
    Prop where
  above : ∀ p ∈ stored, q.number ≤ p.blockNumber → Ancestor parentOf q p.id
  kept : (∃ p ∈ stored, p.blockNumber = q.number) ∨ ∀ p ∈ stored, q.number ≤ p.blockNumber

section Stored

variable {ctx ctx' : SequencerContext} {b : Block} {reorged : Bool} {q : BlockId B256}

theorem StoredFrom.ancestor_head (h : StoredFrom parentOf ctx.l2Headers q) (hs : Ascending ctx)
    {head : ParentParams} (hhead : ctx.l2Headers.getLast? = some head) :
    Ancestor parentOf q head.id := by
  have hmem : head ∈ ctx.l2Headers := List.mem_of_getLast? hhead
  apply h.above head hmem
  rcases h.kept with ⟨p, hp, hpn⟩ | hall
  · rw [← hpn]
    exact hs.le_last hhead p hp
  · exact hall head hmem

/-- A new head that descends from `q`. -/
theorem StoredFrom.push (h : StoredFrom parentOf ctx.l2Headers q) {below : List ParentParams}
    {p : ParentParams} (hof : p.Of b)
    (hbelow : ∀ x, x ∈ below ↔ x ∈ ctx.l2Headers ∧ x.blockNumber < b.header.number)
    (hb : Ancestor parentOf q b.id) : StoredFrom parentOf (below ++ [p]) q := by
  refine ⟨fun x hx hle => ?_, ?_⟩
  · rcases List.mem_append.mp hx with hx | hx
    · exact h.above x ((hbelow x).mp hx).1 hle
    · rw [List.mem_singleton.mp hx, hof.id_eq]
      exact hb
  · rcases hb.1.lt_or_eq with hlt | heq
    · rcases h.kept with ⟨x, hx, hxn⟩ | hall
      · exact Or.inl ⟨x, List.mem_append_left _ ((hbelow x).mpr ⟨hx, hxn.trans_lt hlt⟩), hxn⟩
      · refine Or.inr fun x hx => ?_
        rcases List.mem_append.mp hx with hx | hx
        · exact hall x ((hbelow x).mp hx).1
        · rw [List.mem_singleton.mp hx, hof.blockNumber]
          exact hb.1
    · exact Or.inl ⟨p, List.mem_append_right _ (List.mem_singleton_self p),
        hof.blockNumber.trans heq.symm⟩

/-- `q` itself becomes the head. -/
theorem StoredFrom.self {below : List ParentParams} {p : ParentParams} (hof : p.Of b)
    (hbelow : ∀ x ∈ below, x.blockNumber < b.header.number) :
    StoredFrom parentOf (below ++ [p]) b.id := by
  refine ⟨fun x hx hle => ?_, Or.inl ⟨p, List.mem_append_right _ (List.mem_singleton_self p),
    hof.blockNumber⟩⟩
  rcases List.mem_append.mp hx with hx | hx
  · exact absurd hle (Nat.not_le.mpr (hbelow x hx))
  · rw [List.mem_singleton.mp hx, hof.id_eq]
    exact .refl parentOf b.id

/-- An arrival that replaces nothing from `q` on, and does not put a block
above `q` that does not descend from it. -/
theorem StoredFrom.arrival (h : StoredFrom parentOf ctx.l2Headers q) (hs : Ascending ctx)
    (harr : Arrival ctx b reorged ctx') (hreorgs : ctx.Reorgs b → q.number < b.header.number)
    (hb : ctx.BecomesHead b → Ancestor parentOf q b.id) :
    StoredFrom parentOf ctx'.l2Headers q := by
  rcases harr.stored hs with
    ⟨hbecomes, below, p, hheaders, hof, hbelow⟩ | ⟨-, hsame | ⟨hreorg, hbelow⟩⟩
  · rw [hheaders]
    exact h.push hof hbelow (hb hbecomes)
  · rwa [hsame]
  · have hlt := hreorgs hreorg
    refine ⟨fun x hx => h.above x ((hbelow x).mp hx).1, ?_⟩
    rcases h.kept with ⟨x, hx, hxn⟩ | hall
    · exact Or.inl ⟨x, (hbelow x).mpr ⟨hx, hxn.trans_lt hlt⟩, hxn⟩
    · exact Or.inr fun x hx => hall x ((hbelow x).mp hx).1

/-- Confirmed headers take away the first blocks. -/
theorem StoredFrom.origin (h : StoredFrom parentOf ctx.l2Headers q) (hs : Ascending ctx)
    {header : Header} (hcall : ctx.newOriginL2Block header = .ok ctx') :
    StoredFrom parentOf ctx'.l2Headers q := by
  rw [(SequencerContext.newOriginL2Block_pruned hcall).l2Headers]
  have hsplit := List.takeWhile_append_dropWhile
    (p := fun p : ParentParams => decide (p.blockNumber < header.number)) (l := ctx.l2Headers)
  have hsub := List.dropWhile_sublist (l := ctx.l2Headers)
    fun p : ParentParams => decide (p.blockNumber < header.number)
  refine ⟨fun x hx => h.above x (hsub.subset hx), ?_⟩
  rcases h.kept with ⟨p, hp, hpn⟩ | hall
  · rw [← hsplit] at hp
    rcases List.mem_append.mp hp with hp | hp
    · -- what is left then has higher numbers
      rw [Ascending, ← hsplit, List.pairwise_append] at hs
      exact Or.inr fun x hx => hpn ▸ (hs.2.2 p hp x hx).le
    · exact Or.inl ⟨p, hp, hpn⟩
  · exact Or.inr fun x hx => hall x (hsub.subset hx)

end Stored

/-! ### The invariant -/

/-- The block under construction is built on a descendant of `q`. -/
def BuiltAbove (parentOf : B256 → B256) (q : BlockId B256) (sd : SortData) : Prop :=
  ∃ number, sd.blockInfo.blockNumber = number + 1 ∧
    Ancestor parentOf q ⟨number, sd.blockInfo.parentHash⟩

/-- The pending batch ends with `q`: its blocks are ancestors of `q`, and what
is stored or built above descends from `q`. -/
structure EndsWith (parentOf : B256 → B256) (s : Sequencer) (q : BlockId B256) : Prop where
  seals : ∀ x ∈ s.pendingSeals, Ancestor parentOf x.block.id q
  stored : StoredFrom parentOf s.ctx.l2Headers q
  sorting : ∀ sd, s.ctx.state = .sorting sd → BuiltAbove parentOf q sd

structure OnChainInv (env : Env) (parentOf : B256 → B256) (s : Sequencer) : Prop where
  accounted : Accounted env s
  ascending : s.ctx.Ascending
  batch : ∀ q, s.pendingSeals.getLast? = some q → EndsWith parentOf s q.block.id

theorem onChainInv_new (env : Env) (parentOf : B256 → B256) (lookahead : LookaheadHandle)
    (now : Instant) : OnChainInv env parentOf (.new env lookahead now) :=
  ⟨.new accumulateAll_nil env lookahead now,
    SequencerContext.ascending_new env.config.l1SafeLag env.config.coinbaseAddress now,
    fun q hq => by cases hq⟩

section Turn

variable {s s' t t' : Sequencer} {i : Input} {b : Block}

/-- **By the invariant the batch is on the chain.** -/
theorem OnChainInv.batchOnChain (hs : OnChainInv env parentOf s) : BatchOnChain parentOf s := by
  intro head hhead x hx
  have hlast := List.getLast?_eq_some_getLast (List.ne_nil_of_mem hx)
  have hends := hs.batch _ hlast
  exact (hends.seals x hx).trans (hends.stored.ancestor_head hs.ascending hhead)

/-- The request ends with the number of the last pending block. -/
theorem Accounted.endBlockNum_eq (hs : Accounted env s) {q : Sealed}
    (hq : s.pendingSeals.getLast? = some q) :
    ∃ request, s.proposerRequest = some request ∧
      request.endBlockNum = q.block.header.number := by
  have hpending := hs.pending
  cases hrequest : s.proposerRequest with
  | none =>
      rw [hrequest] at hpending
      rw [accumulateAll_eq_none hpending] at hq
      cases hq
  | some request =>
      rw [hrequest] at hpending
      have hlast := (accumulateAll_describes hpending).last
      rw [hq] at hlast
      exact ⟨request, rfl, (Option.some.inj hlast).symm⟩

/-- The batch is at most sent, no block is started, and what descended from its
end still does. -/
theorem OnChainInv.same (hs : OnChainInv env parentOf s) (hacc : Accounted env s')
    (hasc : s'.ctx.Ascending)
    (hstored : ∀ q, StoredFrom parentOf s.ctx.l2Headers q →
      StoredFrom parentOf s'.ctx.l2Headers q)
    (hpending : s'.pendingSeals = s.pendingSeals ∨ s'.pendingSeals = [])
    (hstate : ∀ sd', s'.ctx.state = .sorting sd' →
      ∃ sd, s.ctx.state = .sorting sd ∧ sd'.blockInfo = sd.blockInfo) :
    OnChainInv env parentOf s' := by
  refine ⟨hacc, hasc, fun q hq => ?_⟩
  rcases hpending with hsame | hnil
  · rw [hsame] at hq
    have hends := hs.batch q hq
    refine ⟨hsame ▸ hends.seals, hstored _ hends.stored, fun sd' hsd' => ?_⟩
    obtain ⟨sd, hsd, hinfo⟩ := hstate sd' hsd'
    have hbuilt := hends.sorting sd hsd
    rwa [BuiltAbove, hinfo]
  · rw [hnil] at hq
    cases hq

/-! ### Receiving -/

/-- A block whose parent is known descends from where its parent does. -/
theorem StoredFrom.ancestor_of_known {ctx : SequencerContext} {q : Sealed}
    (h : StoredFrom parentOf ctx.l2Headers q.block.id)
    (hparent : parentOf b.header.hash = b.header.parentHash)
    (hmissed : ¬ ParentKnown ctx q b → Ancestor parentOf q.block.id b.id) :
    Ancestor parentOf q.block.id b.id := by
  by_cases hknown : ParentKnown ctx q b
  · obtain ⟨p, hp, hle, hnumber, hhash⟩ := hknown
    exact (h.above p hp hle).child ⟨hnumber, hparent.trans hhash.symm⟩
  · exact hmissed hknown

theorem OnChainInv.recvL2Block (ht : OnChainInv env parentOf t)
    (hparent : parentOf b.header.hash = b.header.parentHash)
    (hmissed : MissedDescends parentOf t b) (h : t.recvL2Block b = .ok t') :
    OnChainInv env parentOf t' := by
  obtain ⟨reorged, ctx, hcall, rfl, hend⟩ := recvL2Block_eq_ok h
  have harr := SequencerContext.newPreconfL2Block_arrival hcall
  refine ⟨ht.accounted.same ⟨rfl, rfl⟩, ht.ascending.arrival harr, fun q hq => ?_⟩
  have hends := ht.batch q hq
  -- without an abort the block is above the batch if it replaces one
  have hreorgs : t.ctx.Reorgs b → q.block.header.number < b.header.number := by
    intro hreorg
    obtain ⟨request, hrequest, heq⟩ := ht.accounted.endBlockNum_eq hq
    rw [← heq]
    exact hend ((harr.reorged_iff ht.ascending).mpr hreorg) request hrequest
  refine ⟨hends.seals, ?_, ?_⟩
  · exact hends.stored.arrival ht.ascending harr hreorgs fun hbecomes =>
      hends.stored.ancestor_of_known hparent (hmissed ⟨_, hcall⟩ hbecomes q hq hreorgs)
  · obtain ⟨l2Headers, toVerify, id, rfl, -⟩ := SequencerContext.newPreconfL2Block_cases hcall
    exact hends.sorting

/-- The other steps of a tick. -/
theorem OnChainInv.tickStep (h : TickStep env (rest i) t t') (ht : OnChainInv env parentOf t) :
    OnChainInv env parentOf t' := by
  have hstored : ∀ q, StoredFrom parentOf t.ctx.l2Headers q →
      StoredFrom parentOf t'.ctx.l2Headers q := by
    intro q hq
    rcases h.l2 with hsame | ⟨block, reorged, hmem, -⟩ | ⟨header, hcall⟩
    · rwa [hsame]
    · cases hmem
    · exact hq.origin ht.ascending hcall
  refine ht.same (ht.accounted.tickStep accumulateAll_nil h) (ascending_tickStep h ht.ascending)
    hstored (pendingSeals_of_tickStep h) fun sd' hsd' => ?_
  have hstate := h.state
  rw [hsd'] at hstate
  generalize hold : t.ctx.state = old at hstate
  cases hstate with
  | @sorting sd _ hsame hbest => exact ⟨sd, rfl, hsame.blockInfo⟩

/-- An L2 block of the turn. -/
theorem OnChainInv.receives (hparents : ParentsOf parentOf env s i)
    (hconnect : BlocksConnect parentOf env s i) (hreceives : Receives env s i t b)
    (h : t.recvL2Block b = .ok t') (ht : OnChainInv env parentOf t) :
    OnChainInv env parentOf t' := by
  have hmem : b ∈ i.tick.recv.l2Blocks := by
    obtain ⟨pre, post, hblocks, -⟩ := hreceives
    rw [hblocks]
    exact List.mem_append_right _ List.mem_cons_self
  exact ht.recvL2Block (hparents.1 b hmem) (hconnect.missed t b hreceives) h

theorem OnChainInv.ticked (hs : OnChainInv env parentOf s)
    (hparents : ParentsOf parentOf env s i) (hconnect : BlocksConnect parentOf env s i)
    (h : s.ticked env i = some t) : OnChainInv env parentOf t :=
  ticked_keeps (OnChainInv env parentOf) OnChainInv.tickStep (.receives hparents hconnect) hs h

/-! ### A transition -/

/-- What a seal does: the block becomes the head, and it descends from the batch
that it joins. -/
theorem OnChainInv.seal (ht : OnChainInv env parentOf t) {sd : SortData}
    (htick : s.ticked env i = some t) (hseals : Seals i.transition t sd b)
    (hparents : ParentsOf parentOf env s i)
    (hon : SealsOnParent env s i) (hnew : SealsNew parentOf env s i)
    (hconnect : BlocksConnect parentOf env s i) {reorged : Bool} {ctx' : SequencerContext}
    (hcall : t.takeState.ctx.newPreconfL2Block b = .ok (reorged, ctx')) :
    (∀ x ∈ t.pendingSeals ++ [sealOf sd b], Ancestor parentOf x.block.id b.id) ∧
      StoredFrom parentOf ctx'.l2Headers b.id := by
  obtain ⟨hfirstTx, hfresh⟩ := hnew t sd b htick hseals
  obtain ⟨hnumber, hparent⟩ := hon t sd b htick hseals.state hseals.answer
  constructor
  · intro x hx
    rcases List.mem_append.mp hx with hx | hx
    · have hends := ht.batch _ (List.getLast?_eq_some_getLast (List.ne_nil_of_mem hx))
      obtain ⟨number, hblock, hbuilt⟩ := hends.sorting sd hseals.state
      refine (hends.seals x hx).trans (hbuilt.child ⟨?_, ?_⟩)
      · exact (hnumber.trans hblock).symm
      · exact (hparents.2 t sd b htick hseals).trans hparent
    · rw [List.mem_singleton.mp hx]
      exact .refl parentOf b.id
  · have hbecomes : t.ctx.BecomesHead b := by
      refine ⟨hfirstTx, ?_⟩
      rcases hconnect.sealed t sd b htick hseals ⟨_, hcall⟩ with hlt | ⟨p, hp, hpn⟩
      · exact Or.inl hlt
      -- a stored block with the hash of the sealed one would be the sealed one
      · refine Or.inr ⟨p, hp, hpn, fun hhash => hfresh p hp ?_⟩
        have hid : p.id = b.id := by rw [ParentParams.id, Block.id, hpn, hhash]
        exact hid ▸ .refl parentOf p.id
    have hasc : Ascending t.takeState.ctx := ht.ascending
    rcases (SequencerContext.newPreconfL2Block_arrival hcall).stored hasc with
      ⟨-, below, p, hheaders, hof, hbelow⟩ | ⟨hnot, -⟩
    · rw [hheaders]
      exact .self hof fun x hx => ((hbelow x).mp hx).2
    · exact absurd hbecomes hnot

/-- Outside of a seal the stored blocks and the batch stay, or the batch is
sent. -/
theorem OnChainInv.stays (ht : OnChainInv env parentOf t) (hacc : Accounted env s')
    (hheaders : s'.ctx.l2Headers = t.ctx.l2Headers) (hbatches : SameBatches t s' ∨ SentBatch t s')
    (hsync : ∃ lastL1, s'.ctx.state = .sync lastL1) : OnChainInv env parentOf s' := by
  refine ht.same hacc (ascending_congr ht.ascending hheaders) (fun q hq => hheaders ▸ hq) ?_
    fun sd' hsd' => ?_
  · rcases hbatches with hsame | ⟨request, -, -, hlog⟩
    · exact Or.inl (congrArg BatchLog.pending hsame.2)
    · exact Or.inr (congrArg BatchLog.pending hlog)
  · obtain ⟨lastL1, hstate⟩ := hsync
    cases hstate.symm.trans hsd'

/-- A block is started on the head. -/
theorem OnChainInv.anchored (ht : OnChainInv env parentOf t) (hacc : Accounted env s')
    (hheaders : s'.ctx.l2Headers = t.ctx.l2Headers) (hbatches : SameBatches t s')
    {sd : SortData} (hstate : s'.ctx.state = .sorting sd) {parent : ParentParams}
    (hparent : t.ctx.l2Parent = .ok parent)
    (hinfo : sd.blockInfo.blockNumber = parent.blockNumber + 1 ∧
      sd.blockInfo.parentHash = parent.hash) : OnChainInv env parentOf s' := by
  refine ⟨hacc, ascending_congr ht.ascending hheaders, fun q hq => ?_⟩
  have hpending : s'.pendingSeals = t.pendingSeals := congrArg BatchLog.pending hbatches.2
  rw [hpending] at hq
  have hends := ht.batch q hq
  refine ⟨hpending ▸ hends.seals, hheaders ▸ hends.stored, fun sd' hsd' => ?_⟩
  rw [hstate] at hsd'
  cases hsd'
  have hhead : t.ctx.l2Headers.getLast? = some parent := by
    rw [SequencerContext.l2Parent] at hparent
    split at hparent
    · rename_i last hlast
      cases hparent
      exact hlast
    · cases hparent
  refine ⟨parent.blockNumber, hinfo.1, ?_⟩
  rw [hinfo.2]
  exact hends.stored.ancestor_head ht.ascending hhead

theorem OnChainInv.transition (ht : OnChainInv env parentOf t) (htick : s.ticked env i = some t)
    (hparents : ParentsOf parentOf env s i) (hon : SealsOnParent env s i)
    (hnew : SealsNew parentOf env s i) (hconnect : BlocksConnect parentOf env s i)
    (h : Transition env i.transition t s') : OnChainInv env parentOf s' := by
  have hacc : Accounted env s' := ht.accounted.of_transition h
  cases h with
  | wait lastL1' hstate hg =>
      rcases hg with rfl | hg
      · exact ht.stays hacc rfl (Or.inl ⟨rfl, rfl⟩) ⟨lastL1', rfl⟩
      · exact ht.stays hacc (congrArg (fun ctx => ctx.l2Headers) hg.ctx) (Or.inl hg.batches)
          ⟨lastL1', rfl⟩
  | @anchored g size stateId blockInfo active txPool timings hgate hanchor =>
      obtain ⟨-, -, hg⟩ := anchoring_eq_some hgate
      obtain ⟨_, parent, _, _, _, -, hparent, -, rfl, -⟩ := anchorBlock_eq_ok hanchor
      have hctx : g.ctx = t.takeState.ctx := hg.ctx
      rw [hctx] at hparent
      exact ht.anchored hacc (congrArg (fun ctx => ctx.l2Headers) hg.ctx) hg.batches rfl hparent
        ⟨rfl, rfl⟩
  | @anchorFailed g size timings count hgate =>
      obtain ⟨-, -, hg⟩ := anchoring_eq_some hgate
      refine ht.stays hacc (congrArg (fun ctx => ctx.l2Headers) hg.ctx) (Or.inl hg.batches) ⟨0, ?_⟩
      show g.ctx.state = _
      rw [hg.ctx]
      rfl
  | discarded hstate hdiscard =>
      exact ht.stays hacc (flushIfStale_chains _ _).l2Headers (flushIfStale_batches _ _)
        ⟨0, flushIfStale_state _ _⟩
  | @sealed sd block reorged ctx request timings hstate hdiscard hseal hanswer hctx hrequest =>
      obtain ⟨hancestors, hstored⟩ :=
        ht.seal htick ⟨hstate, hdiscard, hseal, hanswer⟩ hparents hon hnew hconnect hctx
      have hasc : Ascending t.takeState.ctx := ht.ascending
      have hasc' := hasc.arrival (SequencerContext.newPreconfL2Block_arrival hctx)
      have hheaders := (flushIfStale_chains (t.takeState.withSealed sd block ctx request)
        sd.blockInfo.anchorParams).l2Headers
      refine ⟨hacc, ascending_congr hasc' hheaders, fun q hq => ?_⟩
      have hlog : (t.takeState.withSealed sd block ctx request).pendingSeals =
          t.pendingSeals ++ [sealOf sd block] := congrArg BatchLog.pending (batchLog_log _ _)
      rcases flushIfStale_batches (t.takeState.withSealed sd block ctx request)
        sd.blockInfo.anchorParams with hsame | ⟨_, -, -, hsent⟩
      · have hpending := (congrArg BatchLog.pending hsame.2).trans hlog
        have hlast := (congrArg List.getLast? hpending).symm.trans hq
        rw [List.getLast?_concat] at hlast
        cases hlast
        refine ⟨fun x hx => hancestors x (hpending ▸ hx), hheaders ▸ hstored, fun sd' hsd' => ?_⟩
        cases (sealed_state hctx request).symm.trans hsd'
      · cases (congrArg (fun log => log.pending.getLast?) hsent).symm.trans hq
  | sealFailed hstate hdiscard hseal hanswer htolerated =>
      exact ht.stays hacc rfl (Or.inl ⟨rfl, rfl⟩) ⟨0, rfl⟩
  | @round sd sd' orders hstate hround =>
      refine ht.same hacc ht.ascending (fun q hq => hq) (Or.inl rfl) fun sd'' hsd'' => ?_
      cases hsd''
      exact ⟨sd, hstate, SortData.maybeSimNextBatch_blockInfo hround⟩

theorem OnChainInv.iteration (hs : OnChainInv env parentOf s)
    (hparents : ParentsOf parentOf env s i) (hon : SealsOnParent env s i)
    (hnew : SealsNew parentOf env s i) (hconnect : BlocksConnect parentOf env s i)
    (h : s.iteration env i = .ok s') : OnChainInv env parentOf s' :=
  turn_keeps (OnChainInv env parentOf) OnChainInv.tickStep (.receives hparents hconnect)
    (fun htick ht htrans => ht.transition htick hparents hon hnew hconnect htrans) hs h

/-! ### One turn -/

/-- Without a reorg nothing stored is replaced, when the head is the parent of a
block one above it. -/
theorem reorged_of_replaced {ctx ctx' : SequencerContext} {reorged : Bool} (hs : Ascending ctx)
    (harr : Arrival ctx b reorged ctx') (hadopts : Adopts ctx b ctx')
    (hcompletes : Completes ctx b) (hhead : HeadIsParent ctx b)
    (hreplaced : ∃ p ∈ ctx.l2Headers, ReplacedBy b p) : reorged = true := by
  obtain ⟨hfirstTx, hlt | hreorgs⟩ := (harr.adopts_iff hs).mp hadopts
  · exfalso
    obtain ⟨p, hp, habove | ⟨hpn, -⟩ | ⟨hpn, hhash⟩⟩ := hreplaced
    · exact absurd (hlt p hp) (by omega)
    · exact (hlt p hp).ne hpn
    · have hlast := List.getLast?_eq_some_getLast (List.ne_nil_of_mem hp)
      have hlast_lt := hlt _ (List.mem_of_getLast? hlast)
      have hle := hs.le_last hlast p hp
      rw [hs.eq_of_number hp (List.mem_of_getLast? hlast) (by omega)] at hhash hpn
      exact hhash (hhead hcompletes hfirstTx _ hlast hpn)
  · exact (harr.reorged_iff hs).mpr hreorgs

theorem OnChainInv.reported (hs : OnChainInv env parentOf s)
    (hparents : ParentsOf parentOf env s i) (hon : SealsOnParent env s i)
    (hnew : SealsNew parentOf env s i) (hconnect : BlocksConnect parentOf env s i) :
    ReorgsReported parentOf env s i (s.iteration env i) where
  flag := by
    intro ctx b reorged ctx' hdelivers hcall hadopts hreplaced
    exact reorged_of_replaced (hdelivers.ascending hs.ascending)
      (SequencerContext.newPreconfL2Block_arrival hcall) hadopts ⟨_, hcall⟩
      (hconnect.head ctx b hdelivers) hreplaced
  received := by
    intro t b t' hb hrecv
    have ht := hb.keeps (OnChainInv env parentOf) OnChainInv.tickStep
      (.receives hparents hconnect) hs
    exact (ht.receives hparents hconnect hb hrecv).batchOnChain
  sealed := by
    intro t sd b reorged ctx' htick hseals hcall head hhead x hx
    have ht := hs.ticked hparents hconnect htick
    obtain ⟨hancestors, hstored⟩ := ht.seal htick hseals hparents hon hnew hconnect hcall
    have hasc : Ascending t.takeState.ctx := ht.ascending
    have hasc' := hasc.arrival (SequencerContext.newPreconfL2Block_arrival hcall)
    exact (hancestors x hx).trans (hstored.ancestor_head hasc' hhead)
  reached := ⟨fun t ht => (hs.ticked hparents hconnect ht).batchOnChain,
    fun s' h => (hs.iteration hparents hon hnew hconnect h).batchOnChain⟩

/-- Receiving blocks leaves the request and the batch alone. -/
theorem Receives.accounted (hs : Accounted env s) (h : Receives env s i t b) :
    Accounted env t := by
  obtain ⟨pre, post, -, hpre⟩ := h
  have hentered : SameBatches s ((s.entered env).recvL1Blocks i.tick.recv) := by
    unfold entered
    split <;> exact ⟨rfl, rfl⟩
  refine Run.run_invariant (Accounted env) pre (fun block _ u u' hu hrecv => ?_)
    (hs.same hentered) hpre
  obtain ⟨reorged, ctx, -, rfl, -⟩ := recvL2Block_eq_ok hrecv
  exact hu.same ⟨rfl, rfl⟩

/-- Receiving blocks leaves the request and the batch alone. -/
theorem Accounted.receives (hs : Accounted env s) (h : Receives env s i t b) :
    Accounted env t := by
  obtain ⟨pre, post, hblocks, hpre⟩ := h
  refine received_keeps (Accounted env) (fun hstep hu => hu.tickStep accumulateAll_nil hstep)
    (fun _ hrecv hu => ?_) hs hblocks hpre
  obtain ⟨reorged, ctx, -, rfl, -⟩ := recvL2Block_eq_ok hrecv
  exact hu.same ⟨rfl, rfl⟩

/-- `recv_blocks` aborts only for a block that replaces one at or below the end
of the batch. -/
theorem recvL2Block_of_below {reorged : Bool} {ctx' : SequencerContext} {q : Sealed}
    (hacc : Accounted env t) (hs : t.ctx.Ascending) (hq : t.pendingSeals.getLast? = some q)
    (hcall : t.ctx.newPreconfL2Block b = .ok (reorged, ctx'))
    (hreorgs : t.ctx.Reorgs b → q.block.header.number < b.header.number) :
    t.recvL2Block b = .ok { t with ctx := ctx' } := by
  obtain ⟨request, hrequest, hend⟩ := hacc.endBlockNum_eq hq
  have harr := SequencerContext.newPreconfL2Block_arrival hcall
  simp only [Sequencer.recvL2Block, hcall, bind, Except.bind, hrequest]
  cases hreorged : reorged with
  | false => rfl
  | true =>
      have hlt := hreorgs ((harr.reorged_iff hs).mp hreorged)
      exact if_neg (by omega)

theorem OnChainInv.connect (hs : OnChainInv env parentOf s) (hnew : SealsNew parentOf env s i)
    (hreported : ReorgsReported parentOf env s i (s.iteration env i)) :
    BlocksConnect parentOf env s i where
  head := by
    rintro ctx b hdelivers ⟨⟨reorged, ctx'⟩, hcall⟩ hfirstTx last hlast hnumber
    by_contra hhash
    have hasc := hdelivers.ascending hs.ascending
    have harr := SequencerContext.newPreconfL2Block_arrival hcall
    have hlt : ∀ p ∈ ctx.l2Headers, p.blockNumber < b.header.number := by
      intro p hp
      have hle := hasc.le_last hlast p hp
      omega
    have hflag := hreported.flag ctx b reorged ctx' hdelivers hcall
      ((harr.adopts_iff hasc).mpr ⟨hfirstTx, Or.inl hlt⟩)
      ⟨last, List.mem_of_getLast? hlast, Or.inr (Or.inr ⟨hnumber, hhash⟩)⟩
    obtain ⟨p, hp, hpn, -⟩ := (harr.reorged_iff hasc).mp hflag
    exact (hlt p hp).ne hpn
  missed := by
    rintro t b hreceives ⟨⟨reorged, ctx'⟩, hcall⟩ hbecomes q hq hreorgs -
    have hasc := hreceives.delivers.ascending hs.ascending
    have hrecv := recvL2Block_of_below (hs.accounted.receives hreceives) hasc hq hcall hreorgs
    have harr := SequencerContext.newPreconfL2Block_arrival hcall
    obtain ⟨-, p, hlast, hof⟩ := (harr.adopts_iff hasc).mpr hbecomes
    have hancestor := hreported.received t b _ hreceives hrecv p hlast q (List.mem_of_getLast? hq)
    rwa [hof.id_eq] at hancestor
  sealed := by
    rintro t sd b htick hseals ⟨⟨reorged, ctx'⟩, hcall⟩
    by_contra hnot
    rw [not_or] at hnot
    obtain ⟨hnotAbove, hnone⟩ := hnot
    have ht : Ascending t.ctx := chain_keeps (fun u : Sequencer => u.ctx.Ascending)
      ascending_tickStep hs.ascending (ticked_chain htick)
    have hasc : Ascending t.takeState.ctx := ht
    have hno : ¬ t.takeState.ctx.Reorgs b := by
      rintro ⟨p, hp, hpn, -⟩
      exact hnone ⟨p, hp, hpn⟩
    -- the block does not become the head, so the head stays above it
    rcases (SequencerContext.newPreconfL2Block_arrival hcall).stored hasc with
      ⟨⟨-, hlt | hreorg⟩, -⟩ | ⟨-, hsame | ⟨hreorg, -⟩⟩
    · exact hnotAbove hlt
    · exact hno hreorg
    · obtain ⟨p, hp, -⟩ := not_forall₂.mp hnotAbove
      have hlast := List.getLast?_eq_some_getLast (List.ne_nil_of_mem hp)
      refine (hnew t sd b htick hseals).2 _ (List.mem_of_getLast? hlast) ?_
      exact hreported.sealed t sd b reorged ctx' htick hseals hcall _
        ((congrArg List.getLast? hsame).trans hlast) (sealOf sd b)
        (List.mem_append_right _ (List.mem_singleton_self _))
    · exact hno hreorg

end Turn

/-- **Reorgs are reported.**  Let the sealed blocks be on the parents they were
anchored on, and new.  Along a run every replaced block is reported, and the
blocks of the pending batch are ancestors of the head in every state, exactly
when the blocks that arrive connect to what is known: one above the head the
head is the parent, a new head with a missed parent descends from the end of
the pending batch unless it replaces a block at or below that end, and a sealed
block becomes the head. -/
theorem reorgReported_iff (env : Env) (lookahead : LookaheadHandle) (now : Instant)
    (parentOf : B256 → B256) (is : List Input)
    (hparents : Run.Along (iteration env) (fun s i _ => ParentsOf parentOf env s i)
      (.new env lookahead now) is)
    (hon : Run.Along (iteration env) (fun s i _ => SealsOnParent env s i)
      (.new env lookahead now) is)
    (hnew : Run.Along (iteration env) (fun s i _ => SealsNew parentOf env s i)
      (.new env lookahead now) is) :
    Run.Along (iteration env) (ReorgsReported parentOf env) (.new env lookahead now) is ↔
      Run.Along (iteration env) (fun s i _ => BlocksConnect parentOf env s i)
        (.new env lookahead now) is := by
  refine Run.Along.congr_of_along (OnChainInv env parentOf) (fun s i hs h => ?_)
    (fun s i s' hs h hreported hdone => ?_) is (onChainInv_new env parentOf lookahead now)
    ((hparents.and hon).and hnew)
  · obtain ⟨⟨hparents, hon⟩, hnew⟩ := h
    exact ⟨hs.connect hnew, hs.reported hparents hon hnew⟩
  · obtain ⟨⟨hparents, hon⟩, hnew⟩ := h
    exact hs.iteration hparents hon hnew (hs.connect hnew hreported) hdone

/-! ### Evaluation -/

section Decide

variable {s : Sequencer} {i : Input}

instance (ctx : SequencerContext) (b : Block) : Decidable (Completes ctx b) :=
  decidable_of_iff ((ctx.newPreconfL2Block b).toOption.isSome = true) (by
    simp only [Completes, Option.isSome_iff_exists, Except.toOption_eq_some_iff])

instance (ctx : SequencerContext) (b : Block) : Decidable (HeadIsParent ctx b) :=
  inferInstanceAs (Decidable (_ → _ → _))

instance (ctx : SequencerContext) (q : Sealed) (b : Block) : Decidable (ParentKnown ctx q b) :=
  inferInstanceAs (Decidable (∃ p ∈ ctx.l2Headers, _ ∧ _ ∧ _))

instance (t : Sequencer) (b : Block) : Decidable (MissedDescends parentOf t b) :=
  inferInstanceAs (Decidable (_ → _ → _))

instance (t : Sequencer) (b : Block) : Decidable (SealsOnTop t b) :=
  inferInstanceAs (Decidable (_ → _))

/-- The condition, by a walk over the blocks that arrive. -/
theorem blocksConnect_iff :
    (Run.Along Sequencer.recvL2Block
        (fun t b _ => HeadIsParent t.ctx b ∧ MissedDescends parentOf t b)
        ((s.entered env).recvL1Blocks i.tick.recv) i.tick.recv.l2Blocks ∧
      ∀ t sd b, s.ticked env i = some t → Seals i.transition t sd b →
        HeadIsParent t.takeState.ctx b ∧ SealsOnTop t b) ↔
      BlocksConnect parentOf env s i := by
  rw [receives_iff]
  constructor
  · rintro ⟨hreceived, hsealed⟩
    refine ⟨fun ctx b hdelivers => ?_, fun t b hb => (hreceived t b hb).2,
      fun t sd b ht hseals => (hsealed t sd b ht hseals).2⟩
    cases hdelivers with
    | l2Block hblocks hpre => exact (hreceived _ b ⟨_, _, hblocks, hpre⟩).1
    | sealed htick hstate hdiscard hdue hanswer =>
        exact (hsealed _ _ b htick ⟨hstate, hdiscard, hdue, hanswer⟩).1
  · rintro ⟨hhead, hmissed, hsealed⟩
    refine ⟨fun t b hb => ⟨hhead t.ctx b hb.delivers, hmissed t b hb⟩,
      fun t sd b htick hseals => ⟨hhead t.takeState.ctx b ?_, hsealed t sd b htick hseals⟩⟩
    exact .sealed htick hseals.state hseals.discard hseals.due hseals.answer

instance : Decidable (BlocksConnect parentOf env s i) :=
  have := decidable_of_iff _
    (@seals_iff env (fun t _ b => HeadIsParent t.takeState.ctx b ∧ SealsOnTop t b) s i)
  decidable_of_iff _ blocksConnect_iff

end Decide

section Sample

open Sample

/-- Block 11 is sealed, and its batch is pending. -/
def pendingRun : List Input :=
  [ receiving [l1Header 100] [block 10 10 9 0 90] (turn 0 50),
    simulating (anchorTx 11 100) (blockEnv 11 52) 1 (turn 3000 50),
    sealing 1 (block 11 11 10 52 100) (turn 6000 53) ]

/-- Blocks 12 and 14 of another gateway arrive while block 11 is pending; block
13 in between is missed. -/
def connectedRun : List Input :=
  pendingRun ++
    [ receiving [] [block 12 12 11 54 100, block 14 14 13 55 100] (turn 6100 54) ]

/-- In this run the batch stays pending below the new head. -/
theorem reorgReported_iff_connectedRun :
    Run.Along (iteration Sample.env) (ReorgsReported (· - 1) Sample.env) Sample.start
        connectedRun ∧
      (connectedRun.foldlM (iteration Sample.env) Sample.start).toOption.map
        (fun s => (s.pendingSeals.map (·.block.header.number), s.ctx.l2Headers.map (·.hash))) =
          some ([11], [10, 11, 12, 14]) :=
  ⟨(reorgReported_iff Sample.env Sample.lookahead 0 (· - 1) connectedRun (by decide +kernel)
    (by decide +kernel) (by decide +kernel)).mpr (by decide +kernel), by decide +kernel⟩

/-- Block 12 is a child of a block 11 that was not received. -/
def overlookedBlock : Block := block 12 92 91 54 100

/-- Block 11 of the pending batch is replaced; nothing is reported, and the
batch stays. -/
theorem unreported_reorg :
    ∃ s ctx' p request, pendingRun.foldlM (iteration Sample.env) Sample.start = .ok s ∧
      s.ctx.newPreconfL2Block overlookedBlock = .ok (false, ctx') ∧
      Adopts s.ctx overlookedBlock ctx' ∧ p ∈ s.ctx.l2Headers ∧
      p.blockNumber + 1 = overlookedBlock.header.number ∧
      p.hash ≠ overlookedBlock.header.parentHash ∧ s.proposerRequest = some request ∧
      request.endBlockNum = p.blockNumber ∧
      s.recvL2Block overlookedBlock = .ok { s with ctx := ctx' } ∧
      ∃ x ∈ s.pendingSeals, x.block.id = p.id ∧
        ∀ parentOf : B256 → B256, parentOf 92 = 91 →
          ¬ Ancestor parentOf x.block.id overlookedBlock.id := by
  have hstored : (pendingRun.foldlM (iteration Sample.env) Sample.start).toOption.map
      (fun s => (s.ctx.l2Headers.map fun p => (p.blockNumber, p.hash),
        s.proposerRequest.map (·.endBlockNum),
        s.pendingSeals.map fun x => (x.block.header.number, x.block.header.hash))) =
      some ([(10, 10), (11, 11)], some 11, [(11, 11)]) := by decide +kernel
  have harrived : (pendingRun.foldlM (iteration Sample.env) Sample.start >>=
        fun s => s.ctx.newPreconfL2Block overlookedBlock).toOption.map (·.1) = some false := by
    decide +kernel
  obtain ⟨s, hrun, hs⟩ := Option.map_eq_some_iff.mp hstored
  obtain ⟨⟨reorged, ctx'⟩, hcall, hreorged⟩ := Option.map_eq_some_iff.mp harrived
  have hrun := Except.toOption_eq_some_iff.mp hrun
  rw [hrun] at hcall
  have hcall : s.ctx.newPreconfL2Block overlookedBlock = .ok (reorged, ctx') :=
    Except.toOption_eq_some_iff.mp hcall
  cases hreorged
  obtain ⟨hheaders, hrest⟩ := Prod.mk.inj hs
  obtain ⟨hrequest, hpending⟩ := Prod.mk.inj hrest
  obtain ⟨p, hp, hpeq⟩ : ∃ p ∈ s.ctx.l2Headers, (p.blockNumber, p.hash) = (11, 11) :=
    List.mem_map.mp (hheaders ▸ by decide)
  obtain ⟨x, hx, hxeq⟩ : ∃ x ∈ s.pendingSeals,
      (x.block.header.number, x.block.header.hash) = (11, 11) :=
    List.mem_map.mp (hpending ▸ by decide)
  obtain ⟨request, hsome, hend⟩ := Option.map_eq_some_iff.mp hrequest
  obtain ⟨hnumber, hhash⟩ := Prod.mk.inj hpeq
  obtain ⟨hxnumber, hxhash⟩ := Prod.mk.inj hxeq
  have hasc : Ascending s.ctx := by
    rw [Ascending, ← List.pairwise_map (f := ParentParams.blockNumber)]
    have hnumbers := congrArg (List.map Prod.fst) hheaders
    rw [List.map_map] at hnumbers
    rw [show s.ctx.l2Headers.map (·.blockNumber) = [10, 11] from hnumbers]
    decide
  have hbecomes : s.ctx.BecomesHead overlookedBlock := by
    refine ⟨by decide, Or.inl fun p' hp' => ?_⟩
    have hmem : (p'.blockNumber, p'.hash) ∈ [(10, 10), (11, 11)] :=
      hheaders ▸ List.mem_map_of_mem hp'
    show p'.blockNumber < 12
    simp only [List.mem_cons, Prod.mk.injEq, List.not_mem_nil, or_false] at hmem
    omega
  refine ⟨s, ctx', p, request, hrun, hcall,
    ((SequencerContext.newPreconfL2Block_arrival hcall).adopts_iff hasc).mpr hbecomes, hp, ?_, ?_,
    hsome, hend.trans hnumber.symm, ?_, x, hx, ?_, fun parentOf hparent hancestor => ?_⟩
  · rw [hnumber]
    rfl
  · rw [hhash]
    decide
  · rw [recvL2Block, hcall]
    rfl
  · rw [Block.id, ParentParams.id, hxnumber, hxhash, hnumber, hhash]
  -- one step down from block 12 is 91
  · have hsteps : parentOf^[12 - x.block.header.number] 92 = x.block.header.hash := hancestor.2
    rw [hxnumber, hxhash] at hsteps
    cases hparent.symm.trans hsteps

end Sample

end Sequencer
end TaikoGateway
