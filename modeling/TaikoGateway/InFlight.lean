/-
TaikoGateway/InFlight.lean

The counter of simulations in flight over whole runs of the sequencer.

A `SimHistory` is a sequencer with the simulations that have not been
answered, of any block: results may be late, in any order, and for blocks that
have been sealed or discarded.  What it remembers is read off what the turn
does (`SimHistory.turn`); the sequencer in it does its `iteration`.

Between its answer and its end a tick only seals early (`tick_eq_ok`), so one
turn is a few events of a `SortHistory` (`SimInv.ticked`, `SimInv.transition`).
`inFlight_counts` is the result: the counter is exact, it is never decremented
at 0, the assertions about the result that a round applies hold, and nothing
is applied once the block is to be sealed.
-/
import TaikoGateway.Aborts
import TaikoGateway.Batches
import TaikoGateway.Books

namespace TaikoGateway

open Outstanding (outstanding)

namespace Sequencer

variable {env : Env} {s s' : Sequencer}

/-! ### A tick, as far as the block is concerned -/

/-- The block is the same, or it is now to be sealed. -/
inductive SealsEarly : SequencerState → SequencerState → Prop
  | same (state : SequencerState) : SealsEarly state state
  | early (sd : SortData) : SealsEarly (.sorting sd) (.sorting sd.setShouldSeal)

theorem SealsEarly.trans {a b c : SequencerState} (h : SealsEarly a b) (h' : SealsEarly b c) :
    SealsEarly a c := by
  cases h with
  | same => exact h'
  | early sd =>
      cases h' with
      | same => exact .early sd
      | early => exact .early sd

theorem recvBlocks_state {i : RecvInput} (h : s.recvBlocks i = .ok s') :
    s'.ctx.state = s.ctx.state := by
  obtain ⟨t, ctx, hl2, horigin, rfl⟩ := recvBlocks_eq_ok h
  have hl1 : ∀ (hs : List Header) (ctx : SequencerContext),
      (hs.foldl (fun (ctx : SequencerContext) h => ctx.newL1Block h i.now) ctx).state =
        ctx.state := by
    intro hs
    induction hs with
    | nil => exact fun _ => rfl
    | cons header hs ih => exact fun ctx => ih (ctx.newL1Block header i.now)
  have ht : t.ctx.state = s.ctx.state := by
    refine Run.run_invariant (fun t : Sequencer => t.ctx.state = s.ctx.state) i.l2Blocks
      (fun block _ u u' hu hrecv => ?_) (hl1 i.l1Blocks s.ctx) hl2
    obtain ⟨reorged, ctx, hctx, rfl, -⟩ := recvL2Block_eq_ok hrecv
    obtain ⟨l2Headers, toVerify, id, rfl, -⟩ := SequencerContext.newPreconfL2Block_cases hctx
    exact hu
  refine Run.run_invariant (fun ctx : SequencerContext => ctx.state = s.ctx.state) i.originBlocks
    (fun header _ ctx ctx' hctx hnew => ?_) ht horigin
  obtain ⟨l2Headers, toVerify, rfl, -⟩ := SequencerContext.newOriginL2Block_cases hnew
  exact hctx

theorem sendBatchToProposer_seals (s : Sequencer) (stateCheck : Bool) :
    SealsEarly s.ctx.state (s.sendBatchToProposer stateCheck).ctx.state := by
  simp only [sendBatchToProposer]
  split
  · rename_i sd hstate
    rw [hstate]
    exact .early sd
  · split <;> exact .same _

theorem refresh_seals {i : TickInput} (h : s.refresh env i = .ok s') :
    SealsEarly s.ctx.state s'.ctx.state := by
  obtain ⟨t, ht, hs'⟩ := refresh_eq_ok h
  have hanchor : SealsEarly s.ctx.state t.ctx.state := by
    rcases ht with rfl | rfl
    · exact .same _
    · rcases maybeRefreshAnchor_cases env s i with hsame | ⟨header, hupdate, -⟩
      · rw [hsame]
        exact .same _
      · rw [hupdate]
        exact sendBatchToProposer_seals (s.setAnchor header i.anchorCreatedUtc) true
  rcases hs' with rfl | ⟨parentBlock, timings, rfl⟩ <;> exact hanchor

theorem clearProposal_seals (s : Sequencer) (i : TickInput) :
    SealsEarly s.ctx.state (s.clearProposal env i).ctx.state := by
  apply clearProposal_induction (fun t => SealsEarly s.ctx.state t.ctx.state)
  · intro lookahead
    exact .same _
  · intro t ht
    exact ht.trans (sendBatchToProposer_seals t true)

/-- What a step of a tick can do to the block under construction. -/
inductive BlockStep (i : TickInput) (sd : SortData) : SortData → Prop
  | same : BlockStep i sd sd
  | newTx {sd' : SortData} (tx : Order) (h : sd.handleNewTx tx = .ok sd') : BlockStep i sd sd'
  | sim {sd' : SortData} (sim : SimulatedOrder) (hsim : i.sim = some (.ok sim))
      (h : sd.handleSim sim = .ok sd') : BlockStep i sd sd'
  | early : BlockStep i sd sd.setShouldSeal

/-- A tick neither starts a block nor ends one. -/
theorem TickStep.block {i : TickInput} {sd' : SortData} (h : TickStep env i s s')
    (hstate' : s'.ctx.state = .sorting sd') :
    ∃ sd, s.ctx.state = .sorting sd ∧ BlockStep i sd sd' := by
  have hseals : ∀ {state : SequencerState}, SealsEarly state (.sorting sd') →
      ∃ sd, state = .sorting sd ∧ BlockStep i sd sd' := by
    intro state hseals
    cases hseals with
    | same => exact ⟨sd', rfl, .same⟩
    | early sd => exact ⟨sd, rfl, .early⟩
  cases h with
  | l1Block header => exact ⟨sd', hstate', .same⟩
  | l2Block block hmem hrecv =>
      obtain ⟨reorged, ctx, hctx, rfl, -⟩ := recvL2Block_eq_ok hrecv
      obtain ⟨l2Headers, toVerify, id', rfl, -⟩ := SequencerContext.newPreconfL2Block_cases hctx
      exact ⟨sd', hstate', .same⟩
  | originBlock header horigin =>
      obtain ⟨l2Headers, toVerify, rfl, -⟩ := SequencerContext.newOriginL2Block_cases horigin
      exact ⟨sd', hstate', .same⟩
  | @newTx sd _ tx hstate htx =>
      cases hstate'
      exact ⟨sd, hstate, .newTx tx htx⟩
  | @sim sd _ sim hsim hstate hsd =>
      cases hstate'
      exact ⟨sd, hstate, .sim sim hsim hsd⟩
  | startSequencing lookahead skip flags => exact ⟨sd', hstate', .same⟩
  | resync origin target => exact ⟨sd', hstate', .same⟩
  | updateAnchor header hsafe hnewer =>
      apply hseals
      rw [← hstate', updateAnchor_eq]
      exact sendBatchToProposer_seals (s.setAnchor header i.anchorCreatedUtc) true
  | sendBatch =>
      apply hseals
      rw [← hstate']
      exact sendBatchToProposer_seals s true
  | quiet txPool lookahead skip timings looping flags hflags => exact ⟨sd', hstate', .same⟩

/-- **A tick, as far as the block is concerned**: transactions, an answer, and
then at most an early seal. -/
theorem tick_eq_ok {i : TickInput} (h : s.tick env i = .ok s') :
    ∃ s1 s2 s3, s.recvBlocks i.recv = .ok s1 ∧ s1.fetchTxs i.txs = .ok s2 ∧
      s2.handleSims i.sim = .ok s3 ∧ SealsEarly s3.ctx.state s'.ctx.state := by
  simp only [tick, Except.bind_eq_ok_iff] at h
  obtain ⟨s1, hrecv, s2, htxs, s3, hsims, s4, hpropose, s5, hrefresh, h⟩ := h
  cases h
  refine ⟨s1, s2, s3, hrecv, htxs, hsims, ?_⟩
  rw [← @checkCanSequence_ctx env s3 i, ← checkCanPropose_ctx hpropose]
  exact (refresh_seals hrefresh).trans (clearProposal_seals s5 i)

end Sequencer

/-! ### Histories -/

/-- The result that is taken from the channel. -/
def TickInput.answer (i : TickInput) : Option SimulatedOrder := i.sim.bind Except.toOption

structure SimHistory where
  s : Sequencer
  /-- simulations that have not been answered, of any block -/
  pending : List Spawned
  /-- state ids the simulator has returned -/
  used : List StateId
  /-- results applied to the block under construction -/
  applied : List ValidOrder

namespace SimHistory

open Sequencer

variable {env : Env} {h h' : SimHistory}

def new (env : Env) (lookahead : LookaheadHandle) (now : Instant) : SimHistory :=
  ⟨.new env lookahead now, [], [], []⟩

/-- The history of a block of the sequencer. -/
def block (h : SimHistory) (sd : SortData) : SortHistory := ⟨sd, h.pending, h.used, h.applied⟩

/-- After the tick: what was answered is no longer out. -/
def afterTick (h : SimHistory) (i : TickInput) (t : Sequencer) : SimHistory :=
  match i.answer with
  | none => { h with s := t }
  | some sim =>
      { h with
        s := t
        pending := h.pending.erase sim.spawned
        used := sim.produced ++ h.used }

/-- After the transition to `s'`: a new block has the state id of its anchor,
and what a round sends is out. -/
def afterTransition (env : Env) (h : SimHistory) (i : TransitionInput) (s' : Sequencer) :
    SimHistory :=
  match h.s.ctx.state, s'.ctx.state with
  | .sync _, .sorting sd' => { h with s := s', used := sd'.stateId :: h.used, applied := [] }
  | .sorting sd, .sorting sd' =>
      { h with
        s := s'
        pending := h.pending ++
          match sd.maybeSimNextBatch env.config i.simNow with
          | .ok (_, orders) => Outstanding.sendAll sd'.stateId orders
          | .error _ => []
        applied := h.applied ++ sd.appliedBy i.simNow }
  | _, .sync _ => { h with s := s' }

/-- One turn of the loop. -/
def turn (env : Env) (h : SimHistory) (i : Input) : Except Panic SimHistory := do
  let s' ← h.s.iteration env i
  match h.s.ticked env i with
  | some t => .ok ((h.afterTick i.tick t).afterTransition env i.transition s')
  | none => .ok { h with s := s' }

/-- The state id of the anchor, if the transition from `t` to `s'` starts a
block. -/
def anchorId (t s' : Sequencer) : Option StateId :=
  match t.ctx.state, s'.ctx.state with
  | .sync _, .sorting sd => some sd.stateId
  | _, _ => none

/-- What is assumed of the simulator in this turn: the result answers a
simulation that has not been answered, and the state ids it returns, for the
anchor of a new block too, are new. -/
structure Answers (env : Env) (h : SimHistory) (i : Input) : Prop where
  sim : (h.s.looping || h.s.isReady env) = true → ∀ sim ∈ i.tick.answer,
    sim.spawned ∈ h.pending ∧ ∀ id ∈ sim.produced, id ∉ h.used
  anchor : ∀ t ∈ h.s.ticked env i, ∀ s' ∈ (h.s.iteration env i).toOption,
    ∀ id ∈ anchorId t s', id ∉ (h.afterTick i.tick t).used

instance (env : Env) (h : SimHistory) (i : Input) : Decidable (Answers env h i) :=
  decidable_of_iff
    (((h.s.looping || h.s.isReady env) = true → ∀ sim ∈ i.tick.answer,
      sim.spawned ∈ h.pending ∧ ∀ id ∈ sim.produced, id ∉ h.used) ∧
      ∀ t ∈ h.s.ticked env i, ∀ s' ∈ (h.s.iteration env i).toOption,
        ∀ id ∈ anchorId t s', id ∉ (h.afterTick i.tick t).used)
    ⟨fun h => ⟨h.1, h.2⟩, fun h => ⟨h.sim, h.anchor⟩⟩

/-! ### The invariant -/

/-- The block under construction has its counter and its books right. -/
structure SimInv (env : Env) (h : SimHistory) : Prop where
  pending : ∀ r ∈ h.pending, r.tag ∈ h.used
  block : ∀ sd, h.s.ctx.state = .sorting sd →
    (h.block sd).Flights ∧ (h.block sd).Books env.config env.chainConfig.blockMaxGasLimit

namespace SimInv

theorem new (env : Env) (lookahead : LookaheadHandle) (now : Instant) :
    SimInv env (.new env lookahead now) := by
  refine ⟨fun r hr => absurd hr List.not_mem_nil, fun sd hsd => ?_⟩
  cases hsd

theorem congr (hs : SimInv env h) {s : Sequencer} (hstate : s.ctx.state = h.s.ctx.state) :
    SimInv env { h with s := s } := by
  refine ⟨hs.pending, fun sd hsd => ?_⟩
  exact hs.block sd (hstate.symm.trans hsd)

theorem sealsEarly (hs : SimInv env h) {s : Sequencer}
    (hseals : SealsEarly h.s.ctx.state s.ctx.state) : SimInv env { h with s := s } := by
  generalize hold : h.s.ctx.state = old at hseals
  generalize hnew : s.ctx.state = new at hseals
  cases hseals with
  | same => exact hs.congr (hnew.trans hold.symm)
  | early sd =>
      refine ⟨hs.pending, fun sd' hsd' => ?_⟩
      cases hnew.symm.trans hsd'
      obtain ⟨hf, hb⟩ := hs.block sd hold
      exact ⟨hf.sealEarly, hb.sealEarly⟩

theorem fetchTxs (hs : SimInv env h) {txs : List Order} {s : Sequencer}
    (hfetch : h.s.fetchTxs txs = .ok s) : SimInv env { h with s := s } := by
  obtain ⟨parent, -, hfold⟩ := Except.bind_eq_ok_iff.mp hfetch
  refine Run.run_invariant (fun s => SimInv env { h with s := s }) txs
    (fun tx _ u u' hu htx => ?_) hs hfold
  obtain ⟨state, txPool, -, rfl, ⟨lastL1, hstate, rfl⟩ | ⟨sd, sd', hstate, hsd, rfl⟩⟩ :=
    handleTx_eq_ok htx
  · exact hu.congr hstate.symm
  · refine ⟨hs.pending, fun sd'' hsd'' => ?_⟩
    cases hsd''
    obtain ⟨hf, hb⟩ := hu.block sd hstate
    have hstep : (h.block sd).newTx tx = .ok (h.block sd') := by
      show (do
        let sd ← sd.handleNewTx tx
        Except.ok (h.block sd)) = _
      rw [hsd]
      rfl
    exact ⟨hf.newTx hstep, hb.newTx hstep⟩

end SimInv

@[simp] theorem answer_eq_some {i : TickInput} {sim : SimulatedOrder} :
    i.answer = some sim ↔ i.sim = some (.ok sim) := by
  simp [TickInput.answer, Option.bind_eq_some_iff, Except.toOption_eq_some_iff]

theorem afterTick_s (h : SimHistory) (i : TickInput) (t : Sequencer) :
    (h.afterTick i t).s = t := by
  simp only [afterTick]
  split <;> rfl

theorem afterTick_congr (h : SimHistory) (i : TickInput) (s t : Sequencer) :
    { h.afterTick i s with s := t } = h.afterTick i t := by
  simp only [afterTick]
  split <;> rfl

namespace SimInv

theorem handleSims (hs : SimInv env h) {i : TickInput} {s : Sequencer}
    (hanswer : ∀ sim ∈ i.answer, sim.spawned ∈ h.pending ∧ ∀ id ∈ sim.produced, id ∉ h.used)
    (hsims : h.s.handleSims i.sim = .ok s) : SimInv env (h.afterTick i s) := by
  cases hi : i.answer with
  | none =>
      rw [afterTick, hi]
      rcases handleSims_eq_ok hsims with ⟨rfl, -⟩ | ⟨r, sd, sd', hr, -⟩
      · exact hs.congr rfl
      · rw [answer_eq_some.mpr hr] at hi
        cases hi
  | some sim =>
      obtain ⟨hpending, hfresh⟩ := hanswer sim hi
      have hsub : ∀ r ∈ h.pending.erase sim.spawned, r.tag ∈ sim.produced ++ h.used :=
        fun r hr => List.mem_append_right _ (hs.pending r (List.mem_of_mem_erase hr))
      rw [afterTick, hi]
      refine ⟨hsub, fun sd' hsd' => ?_⟩
      -- in `Sync` the answer is dropped; it is one of an earlier block
      rcases handleSims_eq_ok hsims with ⟨rfl, hsync⟩ | ⟨r, sd, sd'', hr, hstate, hsd, rfl⟩
      · obtain ⟨lastL1, hstate⟩ := hsync sim (answer_eq_some.mp hi)
        cases hstate.symm.trans hsd'
      · cases (answer_eq_some.mpr hr).symm.trans hi
        cases hsd'
        obtain ⟨hf, hb⟩ := hs.block sd hstate
        have hstep : (h.block sd).answer sim =
            .ok ⟨sd', h.pending.erase sim.spawned, sim.produced ++ h.used, h.applied⟩ := by
          show (do
            let sd ← sd.handleSim sim
            Except.ok (SortHistory.mk sd (h.pending.erase sim.spawned) (sim.produced ++ h.used)
              h.applied)) = _
          rw [hsd]
          rfl
        exact ⟨hf.answer ⟨hpending, hfresh⟩ hstep, hb.answer hstep⟩

/-- The invariant holds before the answer of the tick is handled, and after
the tick. -/
theorem tick (hs : SimInv env h) {i : TickInput} {t : Sequencer}
    (hanswer : ∀ sim ∈ i.answer, sim.spawned ∈ h.pending ∧ ∀ id ∈ sim.produced, id ∉ h.used)
    (htick : h.s.tick env i = .ok t) : SimInv env (h.afterTick i t) := by
  obtain ⟨s1, s2, s3, hrecv, htxs, hsims, hseals⟩ := tick_eq_ok htick
  have h1 : SimInv env { h with s := s1 } := hs.congr (recvBlocks_state hrecv)
  have h2 : SimInv env { h with s := s2 } := h1.fetchTxs htxs
  have h3 : SimInv env (h.afterTick i s3) := h2.handleSims hanswer hsims
  rw [← afterTick_s h i s3] at hseals
  rw [← afterTick_congr h i s3 t]
  exact h3.sealsEarly hseals

theorem ticked (hs : SimInv env h) {i : Input} {t : Sequencer} (hanswers : Answers env h i)
    (ht : h.s.ticked env i = some t) : SimInv env (h.afterTick i.tick t) := by
  simp only [Sequencer.ticked] at ht
  split at ht
  · rename_i hready
    have hloop : SimInv env { h with s := { h.s with looping := true } } := hs.congr rfl
    exact hloop.tick (hanswers.sim hready) (Except.toOption_eq_some_iff.mp ht)
  · cases ht

theorem of_sync {pending : List Spawned} {used : List StateId} {applied : List ValidOrder}
    (hpending : ∀ r ∈ pending, r.tag ∈ used) {s : Sequencer} {lastL1 : Nat}
    (hstate : s.ctx.state = .sync lastL1) : SimInv env ⟨s, pending, used, applied⟩ := by
  refine ⟨hpending, fun sd hsd => ?_⟩
  cases hstate.symm.trans hsd

/-- **The transition**: a block starts with nothing in flight, and a round
sends what it counts. -/
theorem transition (henv : env.config.estimateCompressedSize 0 = 0) (hs : SimInv env h)
    {i : TransitionInput} {s' : Sequencer}
    (hanchor : ∀ id ∈ anchorId h.s s', id ∉ h.used)
    (htrans : Transition env i h.s s') : SimInv env (h.afterTransition env i s') := by
  -- nothing is in flight for the sequencer outside of a block
  have hsync : ∀ lastL1, s'.ctx.state = .sync lastL1 → SimInv env (h.afterTransition env i s') := by
    intro lastL1 hstate
    rw [afterTransition, hstate]
    cases h.s.ctx.state <;> exact .of_sync hs.pending hstate
  cases htrans with
  | wait lastL1' hstate hg => exact hsync lastL1' rfl
  | @anchored g size stateId blockInfo active txPool timings hgate hanchored =>
      obtain ⟨⟨lastL1, hstate⟩, -, -⟩ := anchoring_eq_some hgate
      have hfresh : stateId ∉ h.used := hanchor stateId (by rw [anchorId, hstate]; rfl)
      rw [afterTransition, hstate]
      refine ⟨fun r hr => List.mem_cons_of_mem _ (hs.pending r hr), fun sd hsd => ?_⟩
      cases hsd
      exact ⟨.start hs.pending hfresh rfl rfl, .start henv rfl rfl rfl rfl⟩
  | @anchorFailed g size timings count hgate =>
      apply hsync 0
      show g.ctx.state = _
      rw [anchoring_ctx hgate]
      rfl
  | discarded hstate hdiscard => exact hsync 0 (flushIfStale_state _ _)
  | @sealed sd block reorged ctx request timings hstate hdiscard hseal hanswer hctx hrequest =>
      exact hsync 0 (sealed_state hctx request)
  | sealFailed hstate hdiscard hseal hanswer htolerated => exact hsync 0 rfl
  | @round sd sd' orders hstate hround =>
      obtain ⟨hf, hb⟩ := hs.block sd hstate
      have hstep : (h.block sd).round env.config i.simNow = .ok
          ⟨sd', h.pending ++ Outstanding.sendAll sd'.stateId orders, h.used,
            h.applied ++ sd.appliedBy i.simNow⟩ := by
        show (sd.maybeSimNextBatch env.config i.simNow >>= _) = _
        rw [hround]
        rfl
      rw [afterTransition, hstate]
      simp only [hround]
      refine ⟨fun r hr => ?_, fun sd'' hsd'' => ?_⟩
      · exact (hf.round hstep).pending r hr
      · cases hsd''
        exact ⟨hf.round hstep, hb.round hstep⟩

theorem turn (henv : env.config.estimateCompressedSize 0 = 0) (hs : SimInv env h) {i : Input}
    (hanswers : Answers env h i) (hturn : h.turn env i = .ok h') : SimInv env h' := by
  obtain ⟨s', hiter, hturn⟩ := Except.bind_eq_ok_iff.mp hturn
  cases ht : h.s.ticked env i with
  | none =>
      rw [ht] at hturn
      cases hturn
      exact hs.congr (recvBlocks_state (iteration_of_not_ticked hiter ht).2)
  | some t =>
      rw [ht] at hturn
      cases hturn
      have htrans := transition_of_eq_ok ((iteration_of_ticked ht).symm.trans hiter)
      rw [← afterTick_s h i.tick t] at htrans
      refine (hs.ticked hanswers ht).transition henv (fun id hid => ?_) htrans
      rw [afterTick_s] at hid
      exact hanswers.anchor t ht s' (Except.toOption_eq_some_iff.mpr hiter) id hid

end SimInv

/-- The ghost fields do not matter to the sequencer. -/
theorem turn_eq (env : Env) (h : SimHistory) (i : Input) :
    (h.turn env i).map (·.s) = h.s.iteration env i := by
  cases hiter : h.s.iteration env i with
  | error p =>
      rw [turn, hiter]
      rfl
  | ok s' =>
      rw [turn, hiter]
      cases ht : h.s.ticked env i with
      | none => rfl
      | some t =>
          show Except.ok ((h.afterTick i.tick t).afterTransition env i.transition s').s = _
          simp only [afterTransition]
          split <;> rfl

/-! ### Runs -/

/-- What holds of a block under construction. -/
structure BlockCounts (env : Env) (h : SimHistory) (sd : SortData) : Prop where
  inFlight : sd.inFlightSims = outstanding sd.stateId h.pending
  orders : sd.orders = h.applied.map (·.order)
  gas : sd.gasRemaining + (h.applied.map (·.gasUsed)).sum = env.chainConfig.blockMaxGasLimit
  /-- without its last order the block fits -/
  size : env.config.estimateCompressedSize (totalSize sd.orders.dropLast) ≤ sd.maxBlockSize

def Counts (env : Env) (h : SimHistory) : Prop :=
  ∀ sd, h.s.ctx.state = .sorting sd → BlockCounts env h sd

theorem SimInv.counts (hs : SimInv env h) : Counts env h := by
  intro sd hsd
  obtain ⟨hf, hb⟩ := hs.block sd hsd
  exact ⟨hf.count, hb.orders, hb.gas, hb.fits⟩

/-- The counter is not 0 when a result for the current state is handled. -/
def DecrementsAboveZero (env : Env) (s : Sequencer) (i : TickInput) : Prop :=
  (s.looping || s.isReady env) = true → ∀ s1 s2 sd sim,
    { s with looping := true }.recvBlocks i.recv = .ok s1 → s1.fetchTxs i.txs = .ok s2 →
    i.sim = some (.ok sim) → s2.ctx.state = .sorting sd → sd.isValid sim.originStateId = true →
    1 ≤ sd.inFlightSims

theorem SimInv.decrementsAboveZero (hs : SimInv env h) {i : Input} (hanswers : Answers env h i) :
    DecrementsAboveZero env h.s i.tick := by
  intro hready s1 s2 sd sim hrecv htxs hsim hstate hvalid
  have h1 : SimInv env { h with s := s1 } := by
    have hloop : SimInv env { h with s := { h.s with looping := true } } := hs.congr rfl
    exact hloop.congr (recvBlocks_state hrecv)
  obtain ⟨hf, -⟩ := (h1.fetchTxs htxs).block sd hstate
  obtain ⟨hpending, hfresh⟩ := hanswers.sim hready sim (answer_eq_some.mpr hsim)
  exact hf.inFlight_pos ⟨hpending, hfresh⟩ (of_decide_eq_true hvalid)

end SimHistory

namespace Sequencer

variable {s s' : Sequencer}

/-- Once the block is to be sealed it stays so, and nothing is applied. -/
structure SealIsFinal (env : Env) (s : Sequencer) (i : Input) : Prop where
  tick : ∀ t sd sd', s.ticked env i = some t → s.ctx.state = .sorting sd →
    t.ctx.state = .sorting sd' → sd'.orders = sd.orders ∧ (sd.sealFlag = true → sd'.sealFlag = true)
  transition : ∀ t s' sd sd', s.ticked env i = some t → s.iteration env i = .ok s' →
    t.ctx.state = .sorting sd → s'.ctx.state = .sorting sd' → sd.sealFlag = true →
    sd'.orders = sd.orders

/-- A tick changes nothing in the books of a block. -/
theorem tick_books {env : Env} {i : TickInput} {t : Sequencer} {sd : SortData}
    (hstate : s.ctx.state = .sorting sd) (h : s.tick env i = .ok t) :
    ∃ sd', t.ctx.state = .sorting sd' ∧ SortData.SameBooks sd sd' := by
  obtain ⟨s1, s2, s3, hrecv, htxs, hsims, hseals⟩ := tick_eq_ok h
  have h1 : s1.ctx.state = .sorting sd := (recvBlocks_state hrecv).trans hstate
  have h2 : ∃ sd', s2.ctx.state = .sorting sd' ∧ SortData.SameBooks sd sd' := by
    obtain ⟨parent, -, hfold⟩ := Except.bind_eq_ok_iff.mp htxs
    refine Run.run_invariant (fun u : Sequencer => ∃ sd', u.ctx.state = .sorting sd' ∧
      SortData.SameBooks sd sd') i.txs (fun tx _ u u' hu htx => ?_) ⟨sd, h1, .refl sd⟩ hfold
    obtain ⟨sd', hsd', hsame⟩ := hu
    obtain ⟨state, txPool, -, rfl, ⟨lastL1, hsync, -⟩ | ⟨sd1, sd2, hsd1, hnew, rfl⟩⟩ :=
      handleTx_eq_ok htx
    · cases hsync.symm.trans hsd'
    · cases hsd1.symm.trans hsd'
      exact ⟨sd2, rfl, hsame.trans (SortData.handleNewTx_books hnew)⟩
  obtain ⟨sd2, hsd2, hsame2⟩ := h2
  have h3 : ∃ sd', s3.ctx.state = .sorting sd' ∧ SortData.SameBooks sd sd' := by
    rcases handleSims_eq_ok hsims with ⟨rfl, -⟩ | ⟨r, sd3, sd4, -, hsd3, hsim, rfl⟩
    · exact ⟨sd2, hsd2, hsame2⟩
    · cases hsd3.symm.trans hsd2
      exact ⟨sd4, rfl, hsame2.trans (SortData.handleSim_books hsim)⟩
  -- an anchor refresh at the end of the tick only asks for an early seal
  obtain ⟨sd3, hsd3, hsame3⟩ := h3
  rw [hsd3] at hseals
  generalize hnew : t.ctx.state = new at hseals
  cases hseals with
  | same => exact ⟨sd3, rfl, hsame3⟩
  | early => exact ⟨_, rfl, hsame3.trans (SortData.setShouldSeal_books sd3)⟩

/-- A block goes on by a round. -/
theorem Transition.round_of_sorting {env : Env} {i : TransitionInput} {sd sd' : SortData}
    (h : Transition env i s s') (hstate : s.ctx.state = .sorting sd)
    (hstate' : s'.ctx.state = .sorting sd') :
    ∃ orders, sd.maybeSimNextBatch env.config i.simNow = .ok (sd', orders) := by
  obtain ⟨-, ⟨g, size, stateId, blockInfo, active, hgate, -, -⟩ |
    ⟨sd₁, orders, hsorting, hround⟩⟩ := h.sorting_cases hstate'
  · obtain ⟨⟨lastL1, hsync⟩, -, -⟩ := anchoring_eq_some hgate
    cases hsync.symm.trans hstate
  · cases hsorting.symm.trans hstate
    exact ⟨orders, hround⟩

theorem sealIsFinal (env : Env) (s : Sequencer) (i : Input) : SealIsFinal env s i := by
  constructor
  · intro t sd sd' ht hstate hsd'
    simp only [ticked] at ht
    split at ht
    · obtain ⟨sd'', hsd'', hsame⟩ := @tick_books { s with looping := true } env i.tick t sd hstate
        (Except.toOption_eq_some_iff.mp ht)
      cases hsd''.symm.trans hsd'
      refine ⟨hsame.orders, fun hflag => ?_⟩
      by_contra hunset
      rw [hsame.sealFlag (Bool.not_eq_true _ ▸ hunset)] at hflag
      cases hflag
    · cases ht
  · intro t s' sd sd' ht hiter hstate hsd' hflag
    have htrans := transition_of_eq_ok ((iteration_of_ticked ht).symm.trans hiter)
    obtain ⟨orders, hround⟩ := htrans.round_of_sorting hstate hsd'
    have hidle : sd.Idle i.transition.simNow := Or.inr (by simp [SortData.shouldSeal, hflag])
    cases SortData.maybeSimNextBatch_step hround with
    | idle _ => rfl
    | waiting hbusy happly hwait => exact absurd hidle hbusy
    | sent hbusy happly hwait => exact absurd hidle hbusy

end Sequencer

namespace SimHistory

open Sequencer

variable {env : Env} {h : SimHistory}

/-- The assertions about the result that a round applies hold. -/
theorem SimInv.not_roundPanics (hs : SimInv env h) {i : Input} (hanswers : Answers env h i) :
    ∀ p ∈ roundPanics, h.s.iteration env i ≠ .error p := by
  intro p hp hiter
  have htickPanics : ∀ p ∈ roundPanics, p ∉ tickPanics := by decide
  rcases iteration_aborts hiter with htick | ⟨t, ht, htrans⟩
  · exact htickPanics p hp htick
  -- the round itself returns, and nothing else in the transition has these assertions
  · have hround : ∀ sd, t.ctx.state = .sorting sd →
        Except.AbortsIn {p | p ∉ roundPanics}
          (sd.maybeSimNextBatch env.config i.transition.simNow) := by
      intro sd hsd
      have hsd' : (h.afterTick i.tick t).s.ctx.state = .sorting sd := by rwa [afterTick_s]
      obtain ⟨hf, hb⟩ := (hs.ticked hanswers ht).block sd hsd'
      obtain ⟨r, hr⟩ := SortHistory.maybeSimNextBatch_ok hf hb i.transition.simNow
      have hr : sd.maybeSimNextBatch env.config i.transition.simNow = .ok r := hr
      rw [hr]
      exact .ok r
    rcases @transition_abortsIn {p | p ∉ roundPanics} env i.transition t p (fun _ _ _ hp => hp)
      (fun _ => by decide) hround htrans with
      hne | ⟨_, _, _, _, -, -, -, hfee⟩ | ⟨sd, block, -, -, hacc⟩
    · exact hne hp
    · simp only [computeNextBaseFee] at hfee
      split at hfee
      · cases hfee
      · cases hfee
        exact absurd hp (by decide)
    · rcases accumulate_aborts hacc with rfl | ⟨rfl, -⟩ | ⟨rfl, -⟩ <;>
        exact absurd hp (by decide)

/-- **Simulations are counted.**  Let each simulation be answered at most once,
and no state id be returned twice.  In every run, over any number of blocks and
with results delayed, reordered or for blocks that are gone: the counter of the
block under construction is the number of its simulations that have not been
answered, and it is decremented above 0 only; the gas that remains and the
orders are those of the applied results, and without its last order the block
fits; the assertions about the result that a round applies hold; and nothing
is applied once the block is to be sealed. -/
theorem inFlight_counts (env : Env) (henv : env.config.estimateCompressedSize 0 = 0)
    (lookahead : LookaheadHandle) (now : Instant) (is : List Input)
    (hanswers : Run.Along (turn env) (fun h i _ => Answers env h i) (.new env lookahead now) is) :
    Run.Along (turn env)
      (fun h i r =>
        (∀ t, h.s.ticked env i = some t → Counts env (h.afterTick i.tick t)) ∧
        (∀ h', r = .ok h' → Counts env h') ∧
        DecrementsAboveZero env h.s i.tick ∧ SealIsFinal env h.s i ∧
        ∀ p ∈ roundPanics, r ≠ .error p)
      (.new env lookahead now) is := by
  refine Run.Along.mono_of_invariant (SimInv env) (fun h i hs hi => ?_)
    (fun h i h' hs hi hturn => hs.turn henv hi hturn) is (.new env lookahead now) hanswers
  refine ⟨fun t ht => (hs.ticked hi ht).counts, fun h' hturn => (hs.turn henv hi hturn).counts,
    hs.decrementsAboveZero hi, sealIsFinal env h.s i, fun p hp hturn => ?_⟩
  apply hs.not_roundPanics hi p hp
  rw [← turn_eq env h i, hturn]
  rfl

section Sample

open Sample

/-- A user tx of another sender. -/
def otherTx : Order := .newWithSender ⟨0, 1, 0, .other [], [4, 5]⟩ 6

/-- Two txs are simulated for block 11, and one is included.  The other is
being simulated again when the block is sealed, and the result comes while
block 12 is built. -/
def sampleRun : List Input :=
  [ receiving [l1Header 100] [Sample.block 10 10 9 0 90] (Sample.turn 0 50),
    simulating (anchorTx 11 100) (blockEnv 11 52) 1 (Sample.turn 3000 50),
    receivingTxs [userTx, otherTx] (Sample.turn 3100 50),
    simulated userTx 1 2 (Sample.turn 3200 50),
    simulated otherTx 1 3 (Sample.turn 3300 50),
    sealing 2 (blockWith [userTx] 11 11 10 52 100) (Sample.turn 6000 53),
    simulating (anchorTx 12 100) (blockEnv 12 58) 4 (Sample.turn 9000 56),
    simulated otherTx 2 5 (Sample.turn 9100 56) ]

theorem answers_sampleRun :
    Run.Along (turn Sample.env) (fun h i _ => Answers Sample.env h i)
      (.new Sample.env Sample.lookahead 0) sampleRun := by
  decide +kernel

/-- In the sample run, which ends with one simulation out: the late result does
not count. -/
theorem inFlight_counts_sample :
    Run.Along (turn Sample.env)
        (fun h i r =>
          (∀ t, h.s.ticked Sample.env i = some t → Counts Sample.env (h.afterTick i.tick t)) ∧
          (∀ h', r = .ok h' → Counts Sample.env h') ∧
          DecrementsAboveZero Sample.env h.s i.tick ∧ SealIsFinal Sample.env h.s i ∧
          ∀ p ∈ roundPanics, r ≠ .error p)
        (.new Sample.env Sample.lookahead 0) sampleRun ∧
      (sampleRun.foldlM (turn Sample.env) (.new Sample.env Sample.lookahead 0)).toOption.map
        (fun h => (h.pending, h.used)) = some ([⟨4, otherTx⟩], [5, 4, 3, 2, 1]) :=
  ⟨inFlight_counts Sample.env rfl Sample.lookahead 0 sampleRun answers_sampleRun, by
    decide +kernel⟩

end Sample

end SimHistory

end TaikoGateway
