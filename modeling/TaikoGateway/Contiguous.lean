/-
TaikoGateway/Contiguous.lean

Every batch describes a contiguous run of blocks: its parameters are those of
consecutive blocks, each the child of the one before.

The head also advances with blocks of other gateways.  When one arrives above
the end of the pending batch the batch stays pending, and the next block is
built on that head and added to it.  So batches are contiguous along a run in
which every block that is sealed while a batch is pending was anchored on the
batch's last block (`batches_contiguous`); `gap_in_batch` is a run where a
block of another gateway comes in between.
-/
import TaikoGateway.Batches

namespace TaikoGateway

/-! ### The property -/

/-- `b'` is the block after `b`. -/
def ChildOf (b b' : Block) : Prop :=
  b'.header.number = b.header.number + 1 ∧ b'.header.parentHash = b.header.hash

/-- The request describes consecutive blocks, each the child of the one
before. -/
structure SealedBatch.Contiguous (b : SealedBatch) : Prop where
  ne_nil : b.request.blockParams ≠ []
  count : b.request.blockParams.length = b.seals.length
  range : b.request.endBlockNum = b.request.startBlockNum + b.request.blockParams.length - 1
  chain : (b.seals.map (·.block)).IsChain ChildOf

/-- The numbers of a chain of blocks are consecutive. -/
theorem number_last_of_isChain {first last : Block} {rest : List Block}
    (h : (first :: rest).IsChain ChildOf) (hlast : (first :: rest).getLast? = some last) :
    last.header.number = first.header.number + rest.length := by
  induction rest generalizing first with
  | nil =>
      cases hlast
      rfl
  | cons second rest ih =>
      rw [List.isChain_cons_cons] at h
      rw [List.getLast?_cons_cons] at hlast
      rw [ih h.2 hlast, h.1.1, List.length_cons]
      omega

namespace Sequencer

variable {env : Env}

/-! ### What is assumed, and the condition -/

/-- A block is sealed with the number and the parent it was anchored with. -/
def SealsOnParent (env : Env) (s : Sequencer) (i : Input) : Prop :=
  ∀ t sd block, s.ticked env i = some t → t.ctx.state = .sorting sd →
    sealAnswer i.transition sd.stateId = .ok block →
    block.header.number = sd.blockInfo.blockNumber ∧
      block.header.parentHash = sd.blockInfo.parentHash

/-- A block that is sealed while blocks are pending was anchored on the last of
them. -/
def SealsOnBatch (env : Env) (s : Sequencer) (i : Input) : Prop :=
  ∀ t sd block last, s.ticked env i = some t → Seals i.transition t sd block →
    t.pendingSeals.getLast? = some last →
    sd.blockInfo.blockNumber = last.block.header.number + 1 ∧
      sd.blockInfo.parentHash = last.block.header.hash

instance (env : Env) (s : Sequencer) (i : Input) : Decidable (SealsOnParent env s i) :=
  decidable_of_iff
    (∀ t ∈ s.ticked env i, ∀ sd ∈ t.ctx.state.sortData?,
      ∀ block ∈ (sealAnswer i.transition sd.stateId).toOption,
        block.header.number = sd.blockInfo.blockNumber ∧
          block.header.parentHash = sd.blockInfo.parentHash)
    (by
      simp only [SealsOnParent, Option.mem_def, SequencerState.sortData?_eq_some,
        Except.toOption_eq_some_iff]
      exact ⟨fun h t sd block ht hsd => h t ht sd hsd block,
        fun h t ht sd hsd block => h t sd block ht hsd⟩)

/-- What holds of the block that is sealed in a turn can be evaluated. -/
theorem seals_iff {P : Sequencer → SortData → Block → Prop} {s : Sequencer} {i : Input} :
    (∀ t ∈ s.ticked env i, ∀ sd ∈ t.ctx.state.sortData?, sd.shouldDiscard = false →
      sd.shouldSeal i.transition.sealNow = true →
      ∀ b ∈ (sealAnswer i.transition sd.stateId).toOption, P t sd b) ↔
      ∀ t sd b, s.ticked env i = some t → Seals i.transition t sd b → P t sd b := by
  simp only [Option.mem_def, SequencerState.sortData?_eq_some, Except.toOption_eq_some_iff]
  constructor
  · intro h t sd b ht hseals
    exact h t ht sd hseals.state hseals.discard hseals.due b hseals.answer
  · intro h t ht sd hsd hdiscard hdue b hanswer
    exact h t sd b ht ⟨hsd, hdiscard, hdue, hanswer⟩

instance (env : Env) (s : Sequencer) (i : Input) : Decidable (SealsOnBatch env s i) :=
  have := decidable_of_iff _ (@seals_iff env (fun t sd _ => ∀ last ∈ t.pendingSeals.getLast?,
    sd.blockInfo.blockNumber = last.block.header.number + 1 ∧
      sd.blockInfo.parentHash = last.block.header.hash) s i)
  decidable_of_iff
    (∀ t sd b, s.ticked env i = some t → Seals i.transition t sd b →
      ∀ last ∈ t.pendingSeals.getLast?,
        sd.blockInfo.blockNumber = last.block.header.number + 1 ∧
          sd.blockInfo.parentHash = last.block.header.hash)
    ⟨fun h t sd b last ht hseals => h t sd b ht hseals last,
      fun h t sd b ht hseals last => h t sd b last ht hseals⟩

/-! ### The invariant -/

/-- Batches are chains. -/
structure ChainInv (env : Env) (s : Sequencer) : Prop where
  accounted : Accounted env s
  chains : BatchesSatisfy (fun _ bs => (bs.map (·.block)).IsChain ChildOf) s

theorem isChain_nil : (([] : List Sealed).map (·.block)).IsChain ChildOf := List.isChain_nil

theorem chainInv_new (env : Env) (lookahead : LookaheadHandle) (now : Instant) :
    ChainInv env (.new env lookahead now) :=
  ⟨.new accumulateAll_nil env lookahead now, .new isChain_nil env lookahead now⟩

/-- A step of a tick at most sends the pending batch. -/
theorem pendingSeals_of_tickStep {i : TickInput} {s s' : Sequencer} (h : TickStep env i s s') :
    s'.pendingSeals = s.pendingSeals ∨ s'.pendingSeals = [] := by
  rcases h.batches with ⟨-, hlog⟩ | ⟨request, -, -, hlog⟩
  · exact Or.inl (by rw [pendingSeals, hlog]; rfl)
  · exact Or.inr (by rw [pendingSeals, hlog])

theorem ChainInv.tickStep {i : TickInput} {s s' : Sequencer} (h : TickStep env i s s')
    (hs : ChainInv env s) : ChainInv env s' :=
  ⟨hs.accounted.tickStep accumulateAll_nil h, hs.chains.tickStep isChain_nil h⟩

/-- A sealed block is the child of the last pending one. -/
theorem ChainInv.transition {s s' t : Sequencer} {i : Input} (htick : s.ticked env i = some t)
    (hparents : SealsOnParent env s i) (hbatch : SealsOnBatch env s i) (ht : ChainInv env t)
    (h : Transition env i.transition t s') : ChainInv env s' := by
  refine ⟨ht.accounted.of_transition h, ht.chains.transition isChain_nil ?_ h⟩
  intro sd block request hseals _
  obtain ⟨hnumber, hparent⟩ := hparents t sd block htick hseals.state hseals.answer
  rw [List.map_append]
  apply List.IsChain.append ht.chains.pending (List.isChain_singleton _)
  intro b hb b' hb'
  rw [List.getLast?_map] at hb
  obtain ⟨last, hlast, rfl⟩ := Option.map_eq_some_iff.mp hb
  cases hb'
  obtain ⟨hnext, hhash⟩ := hbatch t sd block last htick hseals hlast
  exact ⟨hnumber.trans hnext, hparent.trans hhash⟩

/-! ### Runs -/

/-- What was accumulated from a chain of blocks is contiguous. -/
theorem contiguous_of_isChain {b : SealedBatch}
    (hrequest : accumulateAll env b.seals = .ok (some b.request))
    (hchain : (b.seals.map (·.block)).IsChain ChildOf) : b.Contiguous := by
  have hdescribes : Describes env b.request b.seals := accumulateAll_describes hrequest
  have hcount : b.request.blockParams.length = b.seals.length := hdescribes.length_blockParams
  refine ⟨?_, hcount, ?_, hchain⟩
  · intro hnil
    rw [hnil, List.length_nil] at hcount
    exact hdescribes.ne_nil (List.length_eq_zero_iff.mp hcount.symm)
  · obtain ⟨first, rest, hseals⟩ := List.exists_cons_of_ne_nil hdescribes.ne_nil
    have hstart := hdescribes.start
    rw [hseals] at hstart hchain hcount
    have hfirst : first.block.header.number = b.request.startBlockNum := Option.some.inj hstart
    obtain ⟨last, hlast, hend⟩ := Option.map_eq_some_iff.mp hdescribes.last
    have hlast' : ((first :: rest).map (·.block)).getLast? = some last.block := by
      rw [List.getLast?_map, ← hseals, hlast]
      rfl
    have hnumber : last.block.header.number = first.block.header.number + _ :=
      number_last_of_isChain hchain hlast'
    rw [List.length_map] at hnumber
    rw [← hend, hnumber, hfirst, hcount, List.length_cons]
    omega

section Turn

variable {s s' t : Sequencer} {i : Input}

theorem ChainInv.ticked (hs : ChainInv env s) (h : s.ticked env i = some t) : ChainInv env t :=
  chain_keeps (ChainInv env) ChainInv.tickStep hs (ticked_chain h)

theorem ChainInv.iteration (hparents : SealsOnParent env s i) (hbatch : SealsOnBatch env s i)
    (hs : ChainInv env s) (h : s.iteration env i = .ok s') : ChainInv env s' :=
  iteration_keeps (ChainInv env) ChainInv.tickStep
    (fun htick ht htrans => ht.transition htick hparents hbatch htrans) hs h

theorem ChainInv.contiguous (hs : ChainInv env s) : ∀ b ∈ s.proposedBatches, b.Contiguous :=
  fun b hb => contiguous_of_isChain (hs.accounted.proposed b hb) (hs.chains.proposed b hb)

end Turn

/-- **Batches are contiguous.**  If sealed blocks are children of the blocks
they were anchored on, and every block sealed while a batch is pending was
anchored on the batch's last block, then every batch that is sent describes a
contiguous run of blocks. -/
theorem batches_contiguous (env : Env) (lookahead : LookaheadHandle) (now : Instant)
    (is : List Input)
    (hparents : Run.Along (iteration env) (fun s i _ => SealsOnParent env s i)
      (.new env lookahead now) is)
    (hbatch : Run.Along (iteration env) (fun s i _ => SealsOnBatch env s i)
      (.new env lookahead now) is) :
    Run.Along (iteration env)
      (TurnReaches env fun s => ∀ b ∈ s.proposedBatches, b.Contiguous)
      (.new env lookahead now) is := by
  refine Run.Along.mono_of_invariant (ChainInv env) (fun s i hs h => ?_)
    (fun s i s' hs h hdone => hs.iteration h.1 h.2 hdone) is (chainInv_new env lookahead now)
    (hparents.and hbatch)
  exact ⟨fun t ht => (hs.ticked ht).contiguous,
    fun s' hdone => (hs.iteration h.1 h.2 hdone).contiguous⟩

section Sample

open Sample

/-- Blocks 11 and 12 are sealed; their batch is sent when the time shift gets
long. -/
def contiguousRun : List Input :=
  [ receiving [l1Header 100] [block 10 10 9 0 90] (turn 0 50),
    simulating (anchorTx 11 100) (blockEnv 11 52) 1 (turn 3000 50),
    sealing 1 (block 11 11 10 52 100) (turn 6000 53),
    simulating (anchorTx 12 100) (blockEnv 12 56) 2 (turn 6000 54),
    sealing 2 (block 12 12 11 56 100) (turn 9000 57),
    turn 9100 400 ]

/-- In this run, which sends one batch of two blocks. -/
theorem batches_contiguous_sample :
    Run.Along (iteration Sample.env)
        (TurnReaches Sample.env fun s => ∀ b ∈ s.proposedBatches, b.Contiguous) Sample.start
        contiguousRun ∧
      (contiguousRun.foldlM (iteration Sample.env) Sample.start).toOption.map
        (fun s => s.proposedBatches.map (·.request.blockParams.length)) = some [2] :=
  ⟨batches_contiguous Sample.env Sample.lookahead 0 contiguousRun (by decide +kernel)
    (by decide +kernel), by decide +kernel⟩

/-- Block 11 is sealed; block 12 comes from another gateway, and block 13 is
sealed on it. -/
def gapRun : List Input :=
  [ receiving [l1Header 100] [block 10 10 9 0 90] (turn 0 50),
    simulating (anchorTx 11 100) (blockEnv 11 52) 1 (turn 3000 50),
    sealing 1 (block 11 11 10 52 100) (turn 6000 53),
    receiving [] [block 12 99 11 54 100]
      (simulating (anchorTx 13 100) (blockEnv 13 56) 2 (turn 6000 54)),
    sealing 2 (block 13 13 99 56 100) (turn 9000 57),
    turn 9100 400 ]

/-- The batch that is sent goes from 11 to 13 with the parameters of two
blocks, the second not a child of the first. -/
theorem gap_in_batch :
    ∃ s b, gapRun.foldlM (iteration Sample.env) Sample.start = .ok s ∧
      b ∈ s.proposedBatches ∧ b.request.startBlockNum = 11 ∧ b.request.endBlockNum = 13 ∧
      b.request.blockParams.length = 2 ∧ ¬ b.Contiguous := by
  have h : (gapRun.foldlM (iteration Sample.env) Sample.start).toOption.map
      (fun s => s.proposedBatches.map fun b =>
        (b.request.startBlockNum, b.request.endBlockNum, b.request.blockParams.length)) =
      some [(11, 13, 2)] := by decide +kernel
  obtain ⟨s, hrun, hs⟩ := Option.map_eq_some_iff.mp h
  obtain ⟨b, hb, hnumbers⟩ : ∃ b ∈ s.proposedBatches,
      (b.request.startBlockNum, b.request.endBlockNum, b.request.blockParams.length) =
        (11, 13, 2) := List.mem_map.mp (hs ▸ List.mem_cons_self)
  obtain ⟨hstart, hrest⟩ := Prod.mk.inj hnumbers
  obtain ⟨hend, hlength⟩ := Prod.mk.inj hrest
  refine ⟨s, b, Except.toOption_eq_some_iff.mp hrun, hb, hstart, hend, hlength, fun hcontig => ?_⟩
  have hrange := hcontig.range
  rw [hstart, hend, hlength] at hrange
  omega

end Sample

end Sequencer
end TaikoGateway
