/-
TaikoGateway/Pace.lean

The pace of block production, in both directions.

A block is started only after `start_produce_block`, and starting one moves
that instant on by `target_block_time`; nothing else writes it.  So two starts
are more than a block time apart, however the block in between ended, and any
window of time has few of them (`starts_spaced`).

A block under construction keeps the `target_seal` it was started with.  A
turn that goes on with the block has found that it is not time to seal: it is
not past the last skip, and with enough orders not past the target
(`block_not_kept`).
-/
import TaikoGateway.Handover
import TaikoGateway.InFlight
import TaikoGateway.Lib.Observe

namespace TaikoGateway
namespace Sequencer

variable {env : Env} {s s' t : Sequencer}

/-! ### The instant of the next block over a tick -/

theorem sendBatchToProposer_timings (s : Sequencer) (stateCheck : Bool) :
    (s.sendBatchToProposer stateCheck).timings = s.timings := by
  simp only [sendBatchToProposer]
  split
  · rfl
  · split <;> rfl

theorem recvBlocks_timings {i : RecvInput} (h : s.recvBlocks i = .ok s') :
    s'.timings = s.timings := by
  obtain ⟨t, ctx, hl2, -, rfl⟩ := recvBlocks_eq_ok h
  have hstart : (s.recvL1Blocks i).timings = s.timings := rfl
  have ht : t.timings = s.timings := by
    apply Run.run_invariant (fun t : Sequencer => t.timings = s.timings) i.l2Blocks _ hstart hl2
    intro block _ u u' hu hblock
    obtain ⟨reorged, ctx, -, rfl, -⟩ := recvL2Block_eq_ok hblock
    exact hu
  exact ht

theorem fetchTxs_timings {txs : List Order} (h : s.fetchTxs txs = .ok s') :
    s'.timings = s.timings := by
  obtain ⟨parent, -, h⟩ := Except.bind_eq_ok_iff.mp h
  apply Run.run_invariant (fun t : Sequencer => t.timings = s.timings) txs _ rfl h
  intro tx _ u u' hu htx
  obtain ⟨state, txPool, -, rfl, -⟩ := handleTx_eq_ok htx
  exact hu

theorem handleSims_timings {sim : Option (Except String SimulatedOrder)}
    (h : s.handleSims sim = .ok s') : s'.timings = s.timings := by
  rcases handleSims_eq_ok h with ⟨rfl, -⟩ | ⟨r, sd, sd', -, -, -, rfl⟩
  · rfl
  · rfl

theorem checkCanSequence_timings (s : Sequencer) (i : TickInput) :
    (s.checkCanSequence env i).timings = s.timings := by
  simp only [checkCanSequence]
  split <;> rfl

theorem checkCanPropose_timings {i : TickInput} (h : s.checkCanPropose env i = .ok s') :
    s'.timings = s.timings := by
  obtain ⟨lookahead, t, canPropose, rfl, rfl | ⟨target, rfl⟩⟩ := checkCanPropose_eq_ok h
  · rfl
  · rfl

/-- The report of the pool writes an instant of its own. -/
theorem refresh_startProduceBlock {i : TickInput} (h : s.refresh env i = .ok s') :
    s'.timings.startProduceBlock = s.timings.startProduceBlock := by
  simp only [refresh] at h
  split at h
  · have hanchor : (s.maybeRefreshAnchor env i).timings = s.timings := by
      rcases maybeRefreshAnchor_cases env s i with hsame | ⟨header, hupdate, -⟩
      · rw [hsame]
      · rw [hupdate, updateAnchor_eq]
        exact sendBatchToProposer_timings (s.setAnchor header i.anchorCreatedUtc) true
    rw [← hanchor]
    simp only [reportTxPool] at h
    split at h
    · obtain ⟨parent, -, hok⟩ := Except.bind_eq_ok_iff.mp h
      cases hok
      rfl
    · cases h
      rfl
  · cases h
    rfl

theorem clearProposal_timings (s : Sequencer) (i : TickInput) :
    (s.clearProposal env i).timings = s.timings := by
  apply clearProposal_induction (fun t => t.timings = s.timings)
  · exact fun _ => rfl
  · intro t ht
    exact (sendBatchToProposer_timings t true).trans ht

theorem tick_startProduceBlock {i : TickInput} (h : s.tick env i = .ok t) :
    t.timings.startProduceBlock = s.timings.startProduceBlock := by
  simp only [tick, Except.bind_eq_ok_iff] at h
  obtain ⟨s1, hrecv, s2, htxs, s3, hsims, s4, hpropose, s5, hrefresh, h⟩ := h
  cases h
  have h4 : s4.timings = s.timings := by
    rw [checkCanPropose_timings hpropose, checkCanSequence_timings, handleSims_timings hsims,
      fetchTxs_timings htxs, recvBlocks_timings hrecv]
  rw [clearProposal_timings, refresh_startProduceBlock hrefresh, h4]

theorem ticked_startProduceBlock {i : Input} (h : s.ticked env i = some t) :
    t.timings.startProduceBlock = s.timings.startProduceBlock := by
  simp only [ticked] at h
  split at h
  · have htick := tick_startProduceBlock (Except.toOption_eq_some_iff.mp h)
    exact htick
  · cases h

/-! ### The instant of the next block over a transition -/

section Transition

variable {i : TransitionInput}

theorem statusGate_startProduceBlock {go : Bool} (h : s.statusGate i = .ok (t, go)) :
    t.timings.startProduceBlock = s.timings.startProduceBlock := by
  simp only [statusGate] at h
  split at h
  · split at h
    · obtain ⟨parent, -, h⟩ := Except.bind_eq_ok_iff.mp h
      split at h
      · cases h
        rfl
      · cases h
        rfl
    · cases h
      rfl
  · cases h
    rfl

/-- A gate that does not build waits in `Sync`. -/
theorem syncGate_wait {lastL1 : Nat} (hs : ∃ l, s.ctx.state = .sync l)
    (h : s.syncGate env lastL1 i = .ok (.wait t)) :
    (∃ l, t.ctx.state = .sync l) ∧
      t.timings.startProduceBlock = s.timings.startProduceBlock := by
  rcases syncGate_cases h with ⟨-, g, hg, rfl | ⟨l, rfl⟩⟩ | ⟨-, g, go, size, hstatus, hgo⟩
  · cases hg
    exact ⟨hs, rfl⟩
  · cases hg
    exact ⟨⟨l, rfl⟩, rfl⟩
  · cases go with
    | true => cases hgo
    | false =>
        cases hgo
        rw [(statusGate_cases hstatus).ctx]
        exact ⟨hs, statusGate_startProduceBlock hstatus⟩

/-- A gate that builds is past the instant of the next block. -/
theorem syncGate_build {lastL1 size : Nat} (hs : ∃ l, s.ctx.state = .sync l)
    (h : s.syncGate env lastL1 i = .ok (.build t size)) :
    (∃ l, t.ctx.state = .sync l) ∧
      t.timings.startProduceBlock = s.timings.startProduceBlock ∧
      s.timings.startProduceBlock < i.produceNow := by
  rcases syncGate_cases h with ⟨-, g, hg, -⟩ | ⟨hguards, g, go, size, hstatus, hgo⟩
  · cases hg
  · cases go with
    | false => cases hgo
    | true =>
        cases hgo
        rw [(statusGate_cases hstatus).ctx]
        exact ⟨hs, statusGate_startProduceBlock hstatus,
          of_decide_eq_true hguards.canProduceBlock⟩

/-- Starting a block moves the instant of the next one; a failed anchoring
does not. -/
theorem startBlock_paced {size : Nat} (hs : ∃ l, s.ctx.state = .sync l)
    (h : s.startBlock env size i = .ok s') :
    (∃ sd, s'.ctx.state = .sorting sd ∧
        s'.timings.startProduceBlock = i.produceFrom + env.config.targetBlockTime) ∨
      ((∃ l, s'.ctx.state = .sync l) ∧
        s'.timings.startProduceBlock = s.timings.startProduceBlock) := by
  simp only [startBlock] at h
  obtain ⟨anchored, -, h⟩ := Except.bind_eq_ok_iff.mp h
  cases anchored with
  | ok r =>
      obtain ⟨⟨active, txPool⟩, -, h⟩ := Except.bind_eq_ok_iff.mp h
      cases h
      exact Or.inl ⟨_, rfl, rfl⟩
  | error err =>
      simp only at h
      split at h
      · cases h
      · cases h
        exact Or.inr ⟨hs, rfl⟩

theorem flushIfStale_timings (s : Sequencer) (anchorParams : AnchorParams) :
    (s.flushIfStale anchorParams).timings = s.timings := by
  simp only [flushIfStale]
  split
  · exact sendBatchToProposer_timings s false
  · rfl

/-- After its seal no block is under construction, and the next one may be
started when it could before. -/
theorem finishBlock_ends {sd : SortData} (h : s.takeState.finishBlock env sd i = .ok s') :
    s'.ctx.state = .sync 0 ∧ s'.timings.startProduceBlock = s.timings.startProduceBlock := by
  simp only [finishBlock] at h
  obtain ⟨result, hresult, h⟩ := Except.bind_eq_ok_iff.mp h
  cases result with
  | ok t =>
      cases h
      obtain ⟨block, reorged, ctx, request, -, hctx, -, rfl⟩ := sealBlock_eq_ok hresult
      refine ⟨sealed_state hctx request, ?_⟩
      show (flushIfStale _ _).timings.startProduceBlock = _
      rw [flushIfStale_timings]
      rfl
  -- both tolerated failures drop the block; any other aborts
  | error err =>
      split at h
      · rename_i heq
        cases heq
      · cases h
        exact ⟨rfl, rfl⟩
      · split at h
        · cases h
          exact ⟨rfl, rfl⟩
        · cases h

theorem anchorId_eq_some_iff :
    (SimHistory.anchorId s s').isSome = true ↔
      (∃ l, s.ctx.state = .sync l) ∧ ∃ sd, s'.ctx.state = .sorting sd := by
  simp only [SimHistory.anchorId]
  cases s.ctx.state with
  | sorting sd => simp
  | sync l =>
      cases s'.ctx.state with
      | sync l' => simp
      | sorting sd => simp

/-- **A transition and the instant of the next block**: a block is started only
after it, and only starting a block moves it. -/
theorem stateTransition_paced (h : s.stateTransition env i = .ok s') :
    ((SimHistory.anchorId s s').isSome = true ∧
        s.timings.startProduceBlock < i.produceNow ∧
        s'.timings.startProduceBlock = i.produceFrom + env.config.targetBlockTime) ∨
      ((SimHistory.anchorId s s').isSome = false ∧
        s'.timings.startProduceBlock = s.timings.startProduceBlock) := by
  rw [← Bool.not_eq_true, anchorId_eq_some_iff]
  -- a transition that ends in `Sync` has started no block
  have hends : ∀ {l}, s'.ctx.state = .sync l →
      ¬ ((∃ l, s.ctx.state = .sync l) ∧ ∃ sd, s'.ctx.state = .sorting sd) := by
    rintro l hl ⟨-, sd, hsd⟩
    cases hl.symm.trans hsd
  cases hstate : s.ctx.state with
  | sync lastL1 =>
      have htaken : ∃ l, s.takeState.ctx.state = .sync l := ⟨0, rfl⟩
      rw [hstate] at hends
      simp only [stateTransition, hstate] at h
      obtain ⟨gate, hgate, h⟩ := Except.bind_eq_ok_iff.mp h
      cases gate with
      | wait g =>
          cases h
          obtain ⟨⟨l, hl⟩, hsame⟩ := syncGate_wait htaken hgate
          exact Or.inr ⟨hends hl, hsame⟩
      | build g size =>
          obtain ⟨hg, hsame, hlt⟩ := syncGate_build htaken hgate
          rcases startBlock_paced hg h with ⟨sd, hsd, hset⟩ | ⟨⟨l, hl⟩, hkeep⟩
          · exact Or.inl ⟨⟨⟨lastL1, rfl⟩, sd, hsd⟩, hlt, hset⟩
          · exact Or.inr ⟨hends hl, hkeep.trans hsame⟩
  | sorting sd =>
      refine Or.inr ⟨fun hstarts => ?_, ?_⟩
      · obtain ⟨⟨l, hl⟩, -⟩ := hstarts
        cases hl
      simp only [stateTransition, hstate] at h
      split at h
      · cases h
        show (flushIfStale _ _).timings.startProduceBlock = _
        rw [flushIfStale_timings]
        rfl
      · split at h
        · exact (finishBlock_ends h).2
        · obtain ⟨r, -, h⟩ := Except.bind_eq_ok_iff.mp h
          cases h
          rfl

end Transition

/-! ### The distance between two blocks -/

/-- The turn starts a block. -/
def startsBlock (env : Env) (s : Sequencer) (i : Input) : Bool :=
  ((s.ticked env i).bind fun t =>
    (s.iteration env i).toOption.bind (SimHistory.anchorId t)).isSome

theorem iteration_of_startsBlock {i : Input} (h : s.startsBlock env i = true) :
    ∃ s', s.iteration env i = .ok s' := by
  obtain ⟨id, hid⟩ := Option.isSome_iff_exists.mp h
  obtain ⟨t, -, hid⟩ := Option.bind_eq_some_iff.mp hid
  obtain ⟨s', hs', -⟩ := Option.bind_eq_some_iff.mp hid
  exact ⟨s', Except.toOption_eq_some_iff.mp hs'⟩

theorem iteration_paced {i : Input} (h : s.iteration env i = .ok s') :
    (s.startsBlock env i = true ∧
        s.timings.startProduceBlock < i.transition.produceNow ∧
        s'.timings.startProduceBlock = i.transition.produceFrom + env.config.targetBlockTime) ∨
      (s.startsBlock env i = false ∧
        s'.timings.startProduceBlock = s.timings.startProduceBlock) := by
  have hok : (s.iteration env i).toOption = some s' := Except.toOption_eq_some_iff.mpr h
  unfold startsBlock
  rw [hok]
  cases ht : s.ticked env i with
  | none =>
      refine Or.inr ⟨rfl, ?_⟩
      rw [recvBlocks_timings (iteration_of_not_ticked h ht).2]
  | some t =>
      rw [← ticked_startProduceBlock ht]
      exact stateTransition_paced ((iteration_of_ticked ht).symm.trans h)

/-- The instants at which the turns of a run start blocks. -/
def startTimes (env : Env) (s : Sequencer) (is : List Input) : List Instant :=
  Run.observed (iteration env)
    (fun s i => if s.startsBlock env i then some i.transition.produceFrom else none) s is

/-- **Blocks are not produced too frequently.**  When the clock does not go
back within a transition: in every run from any state, two blocks are started
more than a block time apart, and a window of time has at most one block for
each block time in it, and one more.  The bound is in the unit of the clock,
whichever that is: a gap is longer than the block time by at least one unit. -/
theorem starts_spaced (env : Env) (s : Sequencer) (is : List Input)
    (hclock : ∀ i ∈ is, i.transition.produceNow ≤ i.transition.produceFrom) :
    (startTimes env s is).Pairwise (Spaced env.config.targetBlockTime) ∧
      ∀ lo len, ((startTimes env s is).filter fun start =>
        decide (lo ≤ start ∧ start ≤ lo + len)).length ≤
          len / (env.config.targetBlockTime + 1) + 1 := by
  suffices h : (startTimes env s is).Pairwise (Spaced env.config.targetBlockTime) from
    ⟨h, Spaced.length_filter_le h⟩
  -- the state remembers the last start, one block time later
  refine Run.pairwise_observed
    (fun s start => s.timings.startProduceBlock = start + env.config.targetBlockTime)
    (fun i => i.transition.produceNow ≤ i.transition.produceFrom) ?_ ?_ ?_ is hclock s
  · intro s i s' start _ hdone hobs
    simp only [Option.ite_none_right_eq_some, Option.some.injEq] at hobs
    obtain ⟨hstarts, rfl⟩ := hobs
    rcases iteration_paced hdone with ⟨-, -, hset⟩ | ⟨hnot, -⟩
    · exact hset
    · cases hnot.symm.trans hstarts
  · intro s i start next hi hlast hobs
    simp only [Option.ite_none_right_eq_some, Option.some.injEq] at hobs
    obtain ⟨hstarts, rfl⟩ := hobs
    obtain ⟨s', hdone⟩ := iteration_of_startsBlock hstarts
    rcases iteration_paced hdone with ⟨-, hlt, -⟩ | ⟨hnot, -⟩
    · rw [hlast] at hlt
      exact hlt.trans_le hi
    · cases hnot.symm.trans hstarts
  · intro s i s' start _ hlast hdone hobs
    rcases iteration_paced hdone with ⟨hstarts, -⟩ | ⟨-, hkeep⟩
    · simp only [hstarts, if_true, reduceCtorEq] at hobs
    · exact hkeep.trans hlast

section Sample

open Sample

/-- The block that is being built as `sampleRun` ends is sealed, and the next
one is started as soon as the guard lets it. -/
def pacedRun : List Input :=
  SimHistory.sampleRun ++
    [ sealing 4 (blockWith [] 12 12 11 58 100) (turn 12000 59),
      simulating (anchorTx 13 100) (blockEnv 13 62) 6 (turn 12001 60) ]

/-- Three blocks in nine seconds; a window of five has two at most. -/
theorem starts_spaced_pacedRun :
    ((startTimes Sample.env Sample.start pacedRun).Pairwise
        (Spaced Sample.env.config.targetBlockTime) ∧
      ∀ lo len, ((startTimes Sample.env Sample.start pacedRun).filter fun start =>
        decide (lo ≤ start ∧ start ≤ lo + len)).length ≤
          len / (Sample.env.config.targetBlockTime + 1) + 1) ∧
      startTimes Sample.env Sample.start pacedRun = [3000, 9000, 12001] :=
  ⟨starts_spaced Sample.env Sample.start pacedRun (by decide), by decide +kernel⟩

end Sample

/-! ### The time of a block -/

/-- What the two decide on is the same but for the orders and the flags. -/
structure SameLimits (sd sd' : SortData) : Prop where
  targetSeal : sd'.targetSeal = sd.targetSeal
  targetBlockTime : sd'.targetBlockTime = sd.targetBlockTime
  minOrdersBeforeSeal : sd'.minOrdersBeforeSeal = sd.minOrdersBeforeSeal
  maxBlockSkips : sd'.maxBlockSkips = sd.maxBlockSkips

namespace SameLimits

variable {sd sd' sd'' : SortData}

theorem refl (sd : SortData) : SameLimits sd sd := ⟨rfl, rfl, rfl, rfl⟩

theorem trans (h : SameLimits sd sd') (h' : SameLimits sd' sd'') : SameLimits sd sd'' :=
  ⟨h'.targetSeal.trans h.targetSeal, h'.targetBlockTime.trans h.targetBlockTime,
    h'.minOrdersBeforeSeal.trans h.minOrdersBeforeSeal, h'.maxBlockSkips.trans h.maxBlockSkips⟩

theorem handleNewTx {order : Order} (h : sd.handleNewTx order = .ok sd') : SameLimits sd sd' := by
  rcases SortData.handleNewTx_cases h with rfl | ⟨activeOrders, -, rfl⟩
  · exact .refl sd'
  · exact ⟨rfl, rfl, rfl, rfl⟩

theorem handleSim {sim : SimulatedOrder} (h : sd.handleSim sim = .ok sd') :
    SameLimits sd sd' := by
  cases SortData.handleSim_cases h with
  | stale hstale => exact .refl sd
  | invalid reason hid hresult => cases reason <;> exact ⟨rfl, rfl, rfl, rfl⟩
  | overGas hid hvalid hgas => exact ⟨rfl, rfl, rfl, rfl⟩
  | best activeOrders hid hvalid hgas hactive => exact ⟨rfl, rfl, rfl, rfl⟩
  | worse activeOrders hid hvalid hactive => exact ⟨rfl, rfl, rfl, rfl⟩

theorem maybeSimNextBatch {config : SequencerConfig} {now : Instant} {orders : List Order}
    (h : sd.maybeSimNextBatch config now = .ok (sd', orders)) : SameLimits sd sd' := by
  have happly : ∀ {u : SortData}, SortData.ApplyStep config sd u → SameLimits sd u := by
    intro u happly
    cases happly with
    | nothing hbest => exact .refl sd
    | applied next hbest horigin hgas => exact ⟨rfl, rfl, rfl, rfl⟩
  cases SortData.maybeSimNextBatch_step h with
  | idle hidle => exact .refl sd
  | waiting hidle hstep hwait => exact happly hstep
  | @sent u hidle hstep hwait =>
      have hsent : SameLimits u (u.withSent (u.taken config)) := ⟨rfl, rfl, rfl, rfl⟩
      exact (happly hstep).trans hsent

/-- A step of a tick keeps the limits. -/
theorem blockStep {i : TickInput} (h : BlockStep i sd sd') : SameLimits sd sd' := by
  cases h with
  | same => exact .refl sd
  | newTx tx htx => exact handleNewTx htx
  | sim sim hsim hanswer => exact handleSim hanswer
  | early => exact ⟨rfl, rfl, rfl, rfl⟩

end SameLimits

/-- The block was started at this time, with the limits of the
configuration. -/
structure StartedAt (env : Env) (start : Instant) (sd : SortData) : Prop where
  targetSeal : sd.targetSeal = start + env.config.targetBlockTime
  targetBlockTime : sd.targetBlockTime = env.config.targetBlockTime
  minOrdersBeforeSeal : sd.minOrdersBeforeSeal = env.config.minOrdersBeforeSeal
  maxBlockSkips : sd.maxBlockSkips = env.config.maxBlockSkips

theorem StartedAt.of_same {start : Instant} {sd sd' : SortData} (hsd : StartedAt env start sd)
    (h : SameLimits sd sd') : StartedAt env start sd' :=
  ⟨h.targetSeal.trans hsd.targetSeal, h.targetBlockTime.trans hsd.targetBlockTime,
    h.minOrdersBeforeSeal.trans hsd.minOrdersBeforeSeal, h.maxBlockSkips.trans hsd.maxBlockSkips⟩

/-- When it is not time to seal. -/
theorem StartedAt.le_of_not_shouldSeal {start now : Instant} {sd : SortData}
    (hsd : StartedAt env start sd) (h : sd.shouldSeal now = false) :
    now ≤ start + env.config.targetBlockTime +
        env.config.targetBlockTime * (env.config.maxBlockSkips % 2 ^ 32) ∧
      (env.config.minOrdersBeforeSeal ≤ sd.orders.length →
        now ≤ start + env.config.targetBlockTime) := by
  simp only [SortData.shouldSeal, Bool.or_eq_false_iff, Bool.and_eq_false_iff,
    SortData.isEnoughOrders, SortData.isPastTargetSeal, SortData.isPastMaxSkip,
    decide_eq_false_iff_not, hsd.targetSeal, hsd.targetBlockTime, hsd.minOrdersBeforeSeal,
    hsd.maxBlockSkips] at h
  obtain ⟨⟨-, htarget⟩, hskips⟩ := h
  refine ⟨Nat.le_of_not_lt hskips, fun henough => ?_⟩
  rcases htarget with hfew | hearly
  · exact absurd henough hfew
  · exact Nat.le_of_not_lt hearly

/-- The block under construction was started at this time. -/
def Dated (env : Env) (last : Option Instant) (s : Sequencer) : Prop :=
  ∀ sd, s.ctx.state = .sorting sd → ∃ start, last = some start ∧ StartedAt env start sd

theorem Dated.tickStep {last : Option Instant} {i : TickInput} (h : TickStep env i s s')
    (hs : Dated env last s) : Dated env last s' := by
  intro sd' hsd'
  obtain ⟨sd, hsd, hstep⟩ := h.block hsd'
  obtain ⟨start, hlast, hstarted⟩ := hs sd hsd
  exact ⟨start, hlast, hstarted.of_same (.blockStep hstep)⟩

theorem Dated.ticked {last : Option Instant} {i : Input} (hs : Dated env last s)
    (h : s.ticked env i = some t) : Dated env last t :=
  chain_keeps (Dated env last) Dated.tickStep hs (ticked_chain h)

/-- Remembers when the last block was started. -/
def recordStart (env : Env) (s : Sequencer) (i : Input) (last : Option Instant) :
    Option Instant :=
  if s.startsBlock env i then some i.transition.sortNow else last

theorem Dated.iteration {last : Option Instant} {i : Input} (hs : Dated env last s)
    (h : s.iteration env i = .ok s') : Dated env (s.recordStart env i last) s' := by
  have hok : (s.iteration env i).toOption = some s' := Except.toOption_eq_some_iff.mpr h
  intro sd' hsd'
  cases ht : s.ticked env i with
  | none =>
      have hnot : s.startsBlock env i = false := by
        rw [startsBlock, ht]
        rfl
      rw [recordStart, hnot]
      have hstate := recvBlocks_state (iteration_of_not_ticked h ht).2
      exact hs sd' (hstate.symm.trans hsd')
  | some t =>
      have hstarts : s.startsBlock env i = (SimHistory.anchorId t s').isSome := by
        rw [startsBlock, ht, hok]
        rfl
      have htrans := transition_of_eq_ok ((iteration_of_ticked ht).symm.trans h)
      obtain ⟨-, ⟨g, size, stateId, blockInfo, active, hgate, -, rfl⟩ |
        ⟨sd, orders, hsd, hround⟩⟩ := htrans.sorting_cases hsd'
      · -- the block starts with the limits of the configuration
        have htrue : s.startsBlock env i = true := by
          rw [hstarts, anchorId_eq_some_iff]
          exact ⟨(anchoring_eq_some hgate).1, _, hsd'⟩
        rw [recordStart, htrue]
        exact ⟨i.transition.sortNow, rfl, rfl, rfl, rfl, rfl⟩
      · have hfalse : s.startsBlock env i = false := by
          rw [hstarts, ← Bool.not_eq_true, anchorId_eq_some_iff]
          rintro ⟨⟨l, hl⟩, -⟩
          cases hl.symm.trans hsd
        rw [recordStart, hfalse]
        obtain ⟨start, hlast, hstarted⟩ := hs.ticked ht sd hsd
        exact ⟨start, hlast, hstarted.of_same (.maybeSimNextBatch hround)⟩

/-- A transition goes on with a block only when it is not time to seal it. -/
theorem shouldSeal_of_goesOn {i : TransitionInput} {sd sd' : SortData}
    (h : s.stateTransition env i = .ok s') (hsd : s.ctx.state = .sorting sd)
    (hsd' : s'.ctx.state = .sorting sd') : sd.shouldSeal i.sealNow = false := by
  simp only [stateTransition, hsd] at h
  split at h
  · cases h
    have hended : (s.takeState.discardBlock sd).ctx.state = .sync 0 := flushIfStale_state _ _
    cases hended.symm.trans hsd'
  · split at h
    · cases (finishBlock_ends h).1.symm.trans hsd'
    · rename_i hseal
      exact Bool.eq_false_of_not_eq_true hseal

/-- The turn goes on with a block in time: within its last skip, and within
its target if it has enough orders. -/
def GoesOnInTime (env : Env) (c : Sequencer × Option Instant) (i : Input) : Prop :=
  ∀ t s' sd sd', c.1.ticked env i = some t → c.1.iteration env i = .ok s' →
    t.ctx.state = .sorting sd → s'.ctx.state = .sorting sd' →
    ∃ start, c.2 = some start ∧
      i.transition.sealNow ≤ start + env.config.targetBlockTime +
        env.config.targetBlockTime * (env.config.maxBlockSkips % 2 ^ 32) ∧
      (env.config.minOrdersBeforeSeal ≤ sd.orders.length →
        i.transition.sealNow ≤ start + env.config.targetBlockTime)

/-- **A block is not kept.**  In every run, a turn that goes on with the block
under construction reads a clock that is within the block time and the skips
after the start of the block; with enough orders it is within the block
time. -/
theorem block_not_kept (env : Env) (lookahead : LookaheadHandle) (now : Instant)
    (is : List Input) :
    Run.Along (Run.withHistory (iteration env) (recordStart env))
      (fun c i _ => GoesOnInTime env c i) (.new env lookahead now, none) is := by
  apply Run.Along.of_assumed (fun c => Dated env c.2 c.1) (fun _ => True) _ _ is _
    (fun _ _ => trivial)
  · rintro c i hc - t s' sd sd' ht hdone hsd hsd'
    obtain ⟨start, hstart, hstarted⟩ := hc.ticked ht sd hsd
    refine ⟨start, hstart, hstarted.le_of_not_shouldSeal ?_⟩
    exact shouldSeal_of_goesOn ((iteration_of_ticked ht).symm.trans hdone) hsd hsd'
  · rintro c i c' hc - hdone
    obtain ⟨hiter, hrecord⟩ := Run.withHistory_eq_ok_iff.mp hdone
    rw [← hrecord]
    exact hc.iteration hiter
  · exact nofun

end Sequencer
end TaikoGateway
