/-
TaikoGateway/StatusCheck.lean

The status check at the start of sequencing.  When the sequencer starts, no
block should be anchored before the status endpoint has answered a block that
is not above the local one (`StatusChecked`).

The check is asked for by a flag, but skipped when the last one was less than
two seconds ago, and then the block is anchored all the same.  So the property
holds along a run exactly when the check is due whenever the gate is reached
with the flag set (`anchorsChecked_iff`); after an answer that is too high the
next turn anchors (`unchecked_anchor`).
-/
import TaikoGateway.Loop

namespace TaikoGateway
namespace Sequencer

variable {env : Env}

/-! ### The property -/

/-- Since sequencing last started, the status endpoint answered a block that
was not above the local one. -/
def StatusChecked (events : List Event) : Prop :=
  ∃ before after statusBlock localBlock,
    events = before ++ .statusBlock statusBlock localBlock :: after ∧
      statusBlock ≤ localBlock ∧ Event.startedSequencing ∉ after

theorem not_statusChecked_nil : ¬ StatusChecked [] := by
  rintro ⟨before, after, statusBlock, localBlock, h, -, -⟩
  exact absurd h.symm (List.append_ne_nil_of_right_ne_nil before (List.cons_ne_nil _ _))

/-- One more event: it is a passed check, or it is no start and the check was
passed before. -/
theorem statusChecked_concat {events : List Event} {e : Event} :
    StatusChecked (events ++ [e]) ↔
      (∃ statusBlock localBlock, e = .statusBlock statusBlock localBlock ∧
        statusBlock ≤ localBlock) ∨
        (e ≠ .startedSequencing ∧ StatusChecked events) := by
  constructor
  · rintro ⟨before, after, statusBlock, localBlock, h, hle, hstart⟩
    cases after using List.reverseRecOn with
    | nil =>
        obtain ⟨-, he⟩ := List.append_inj' h rfl
        cases he
        exact Or.inl ⟨statusBlock, localBlock, rfl, hle⟩
    | append_singleton after last =>
        rw [← List.cons_append, ← List.append_assoc] at h
        obtain ⟨hevents, he⟩ := List.append_inj' h rfl
        cases he
        rw [List.mem_append, not_or, List.mem_singleton] at hstart
        exact Or.inr ⟨fun heq => hstart.2 heq.symm, before, after, statusBlock, localBlock,
          hevents, hle, hstart.1⟩
  · rintro (⟨statusBlock, localBlock, rfl, hle⟩ | ⟨hne, before, after, a, b, rfl, hle, hstart⟩)
    · exact ⟨events, [], statusBlock, localBlock, rfl, hle, List.not_mem_nil⟩
    · refine ⟨before, after ++ [e], a, b, by simp, hle, ?_⟩
      rw [List.mem_append, not_or, List.mem_singleton]
      exact ⟨hstart, fun heq => hne heq.symm⟩

/-- A block is anchored only after the status check has passed. -/
def AnchorsChecked (env : Env) (s : Sequencer) (i : Input) : Prop :=
  ∀ t g size, s.ticked env i = some t → t.anchoring env i.transition = some (g, size) →
    StatusChecked g.events

/-- The status check is due whenever it is reached while it is asked for. -/
def StatusCheckDue (env : Env) (s : Sequencer) (i : Input) : Prop :=
  ∀ t lastL1, s.ticked env i = some t → t.ctx.state = .sync lastL1 →
    GuardsPass env t i.transition → t.needsStatusCheck = true →
    t.timings.shouldCheckStatus i.transition.statusNow = true

/-! ### The flag -/

/-- The flag says whether the check has yet to be passed. -/
def FlagInv (s : Sequencer) : Prop := s.needsStatusCheck = false ↔ StatusChecked s.events

theorem FlagInv.congr {s s' : Sequencer} (hs : FlagInv s)
    (hflag : s'.needsStatusCheck = s.needsStatusCheck) (hevents : s'.events = s.events) :
    FlagInv s' := by
  rw [FlagInv, hflag, hevents]
  exact hs

/-- Events that are neither a start nor an answer do not matter. -/
theorem FlagInv.logProposed {s : Sequencer} (hs : FlagInv s) (request : ProposalRequest) :
    FlagInv (s.log (.proposed request)) := by
  have hconcat : StatusChecked (s.events ++ [.proposed request]) ↔ StatusChecked s.events := by
    simp [statusChecked_concat]
  exact hs.trans hconcat.symm

theorem FlagInv.sendBatch {s : Sequencer} (hs : FlagInv s) (stateCheck : Bool) :
    FlagInv (s.sendBatchToProposer stateCheck) := by
  simp only [sendBatchToProposer]
  split
  · exact hs
  · split
    · rename_i request hrequest
      exact FlagInv.logProposed (s := { s with proposerRequest := none }) hs (.batch request)
    · exact hs

theorem FlagInv.tickStep {i : TickInput} {s s' : Sequencer} (h : TickStep env i s s')
    (hs : FlagInv s) : FlagInv s' := by
  cases h with
  | l1Block header => exact hs
  | l2Block block hmem hrecv =>
      obtain ⟨reorged, ctx, -, rfl, -⟩ := recvL2Block_eq_ok hrecv
      exact hs
  | originBlock header horigin => exact hs
  | newTx tx hstate htx => exact hs
  | sim sim hsim hstate hsd => exact hs
  | startSequencing lookahead skip flags =>
      -- the check is asked for again
      have hconcat : ¬ StatusChecked (s.events ++ [.startedSequencing]) := by
        simp [statusChecked_concat]
      exact iff_of_false (by simp [log]) hconcat
  | resync origin target => exact hs.logProposed _
  | updateAnchor header hsafe hnewer =>
      rw [updateAnchor_eq]
      exact FlagInv.sendBatch (s := s.setAnchor header i.anchorCreatedUtc) hs true
  | sendBatch => exact hs.sendBatch true
  | quiet txPool lookahead skip timings looping flags hflags => exact hs

/-- The status check clears the flag exactly when it is passed. -/
theorem FlagInv.statusGate {i : TransitionInput} {s : Sequencer} {r : Sequencer × Bool}
    (hs : FlagInv s) (h : StatusGate i s r) : FlagInv r.1 := by
  cases h with
  | skipped hskip => exact hs
  | passed timings statusBlock parent hparent hle =>
      exact iff_of_true rfl (statusChecked_concat.mpr (Or.inl ⟨_, _, rfl, hle⟩))
  | behind timings statusBlock parent hlt =>
      have hconcat : StatusChecked (s.events ++ [.statusBlock statusBlock parent.blockNumber]) ↔
          StatusChecked s.events := by
        rw [statusChecked_concat]
        constructor
        · rintro (⟨a, b, heq, hle⟩ | ⟨-, h⟩)
          · cases heq
            exact absurd hle (Nat.not_le.mpr hlt)
          · exact h
        · intro h
          exact Or.inr ⟨by simp, h⟩
      exact hs.trans hconcat.symm
  | noAnswer timings => exact hs

theorem FlagInv.transition {i : TransitionInput} {s s' : Sequencer} (hs : FlagInv s)
    (h : Transition env i s s') : FlagInv s' := by
  have hflush : ∀ {t : Sequencer} (anchorParams : AnchorParams), FlagInv t →
      FlagInv (t.flushIfStale anchorParams) := by
    intro t anchorParams ht
    simp only [flushIfStale]
    split
    · exact ht.sendBatch false
    · exact ht
  cases h with
  | wait lastL1' hstate hg =>
      rcases hg with rfl | hg
      · exact hs
      · exact FlagInv.statusGate (s := s.takeState) hs hg
  | anchored active txPool timings hgate hanchor =>
      exact FlagInv.statusGate (s := s.takeState) hs (anchoring_eq_some hgate).2.2
  | anchorFailed timings count hgate =>
      exact FlagInv.statusGate (s := s.takeState) hs (anchoring_eq_some hgate).2.2
  | @discarded sd hstate hdiscard =>
      exact hflush (t := { s.takeState with txPool := s.txPool.clearNonces }) _ hs
  | @sealed sd block reorged ctx request timings hstate hdiscard hseal hanswer hctx hrequest =>
      have hsealed : FlagInv (s.takeState.withSealed sd block ctx request) := by
        have hconcat : StatusChecked (s.events ++ [.sealed (sealOf sd block)]) ↔
            StatusChecked s.events := by
          simp [statusChecked_concat]
        exact hs.trans hconcat.symm
      exact hflush _ hsealed
  | sealFailed hstate hdiscard hseal hanswer htolerated => exact hs
  | round hstate hround => exact hs

/-! ### Runs -/

section Turn

variable {s : Sequencer} {i : Input}

theorem FlagInv.iteration {s' : Sequencer} (hs : FlagInv s) (h : s.iteration env i = .ok s') :
    FlagInv s' :=
  iteration_keeps FlagInv FlagInv.tickStep (fun _ ht htrans => ht.transition htrans) hs h

theorem FlagInv.anchorsChecked (hs : FlagInv s) (hdue : StatusCheckDue env s i) :
    AnchorsChecked env s i := by
  intro t g size htick hgate
  have ht : FlagInv t := chain_keeps FlagInv FlagInv.tickStep hs (ticked_chain htick)
  obtain ⟨⟨lastL1, hstate⟩, hguards, hstatus⟩ := anchoring_eq_some hgate
  have hg : FlagInv g := FlagInv.statusGate (s := t.takeState) ht hstatus
  apply hg.mp
  generalize hr : (g, true) = r at hstatus
  cases hstatus with
  | skipped hskip =>
      cases hr
      show t.needsStatusCheck = false
      rcases hskip with hclear | hnotDue
      · exact hclear
      · by_contra hset
        have hdue' := hdue t lastL1 htick hstate hguards (Bool.eq_true_of_not_eq_false hset)
        have hnotDue' : t.timings.shouldCheckStatus i.transition.statusNow = false := hnotDue
        rw [hdue'] at hnotDue'
        cases hnotDue'
  | passed timings statusBlock parent hparent hle =>
      cases hr
      rfl
  | behind timings statusBlock parent hlt => cases hr
  | noAnswer timings => cases hr

/-- When the check is skipped although asked for, a block is anchored. -/
theorem FlagInv.statusCheckDue (hs : FlagInv s) (h : AnchorsChecked env s i) :
    StatusCheckDue env s i := by
  intro t lastL1 htick hstate hguards hset
  have ht : FlagInv t := chain_keeps FlagInv FlagInv.tickStep hs (ticked_chain htick)
  by_contra hnotDue
  rw [Bool.not_eq_true] at hnotDue
  have hskipped : t.takeState.statusGate i.transition = .ok (t.takeState, true) := by
    have hnotDue' : t.takeState.timings.shouldCheckStatus i.transition.statusNow = false := hnotDue
    simp only [Sequencer.statusGate, hnotDue', Bool.and_false, Bool.false_eq_true, if_false]
  obtain ⟨size, hsync⟩ := syncGate_of_guards (s := t.takeState)
    ⟨hguards.safeL1, hguards.canSequence, hguards.room, hguards.canRetryAnchor,
      hguards.canProduceBlock⟩ lastL1
  have hgate : t.anchoring env i.transition = some (t.takeState, size) := by
    rw [hskipped] at hsync
    simp only [anchoring, hstate, hsync]
    rfl
  have hclear : t.needsStatusCheck = false := ht.mpr (h t t.takeState size htick hgate)
  rw [hset] at hclear
  cases hclear

end Turn

/-- **The status check.**  Along a run no block is anchored before the status
check has passed, exactly when the check is due whenever it is reached while it
is asked for. -/
theorem anchorsChecked_iff (env : Env) (lookahead : LookaheadHandle) (now : Instant)
    (is : List Input) :
    Run.Along (iteration env) (fun s i _ => StatusCheckDue env s i) (.new env lookahead now) is ↔
      Run.Along (iteration env) (fun s i _ => AnchorsChecked env s i)
        (.new env lookahead now) is := by
  have hnew : FlagInv (.new env lookahead now) := iff_of_false (by simp [new]) not_statusChecked_nil
  refine Run.Along.congr_of_invariant FlagInv (fun s i hs => ?_)
    (fun s i s' hs _ h => hs.iteration h) is hnew
  exact ⟨hs.anchorsChecked, hs.statusCheckDue⟩

section Sample

open Sample

/-- The status endpoint answers block 15, the local block being 10; the next
turn is 600 ms later. -/
def uncheckedRun : List Input :=
  [ receiving [l1Header 100] [block 10 10 9 0 90] (turn 0 50),
    answeringStatus 15 (turn 3000 50),
    simulating (anchorTx 11 100) (blockEnv 11 52) 1 (turn 3600 50) ]

/-- The block is anchored although the only answer was above the local block. -/
theorem unchecked_anchor :
    ∃ s sd, uncheckedRun.foldlM (iteration Sample.env) Sample.start = .ok s ∧
      s.ctx.state = .sorting sd ∧ s.events = [.startedSequencing, .statusBlock 15 10] ∧
      ¬ StatusChecked s.events := by
  have h : (uncheckedRun.foldlM (iteration Sample.env) Sample.start).toOption.map
      (fun s => (s.ctx.state.sortData?.isSome, s.events)) =
      some (true, [.startedSequencing, .statusBlock 15 10]) := by decide +kernel
  obtain ⟨s, hrun, hs⟩ := Option.map_eq_some_iff.mp h
  obtain ⟨hsorting, hevents⟩ := Prod.mk.inj hs
  obtain ⟨sd, hsd⟩ := Option.isSome_iff_exists.mp hsorting
  refine ⟨s, sd, Except.toOption_eq_some_iff.mp hrun, SequencerState.sortData?_eq_some.mp hsd,
    hevents, ?_⟩
  rw [hevents]
  show ¬ StatusChecked ([.startedSequencing] ++ [.statusBlock 15 10])
  rw [statusChecked_concat, not_or]
  refine ⟨?_, fun h => ?_⟩
  · rintro ⟨a, b, heq, hle⟩
    cases heq
    omega
  · rw [← List.nil_append [Event.startedSequencing], statusChecked_concat] at h
    simp at h

end Sample

end Sequencer
end TaikoGateway
