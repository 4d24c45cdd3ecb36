/-
TaikoGateway/Exclusive.lean

One gateway builds at a time.

`can_sequence` is asked once in a tick, and the answer is a flag of the loop
that `anchor_block` is guarded by.  So every block is anchored in a turn in
which the operator of the gateway has a part of the epoch (`OwnTurn`), however
the handle, the flags and the guards got there.

Within an epoch the current operator's part is before the next operator's one,
and the handover buffer is between them.  Main result (`anchors_exclusive`):
in the runs of two gateways, the turns in which they anchor blocks of one epoch
do not mix, by the clock that `can_sequence` reads; all of the current operator
come first, and the next operator waits for the buffer.  The anchorings
themselves are in this order too, while none of the current operator's is later
than the buffer after its reading.
-/
import TaikoGateway.Handover
import TaikoGateway.Lib.Observe

namespace TaikoGateway

open LookaheadHandle (cutoffSlot operators)

/-! ### Parts of an epoch -/

/-- The operator's part of the epoch that contains `utc`: up to the cutoff, or
to the end if it is the next operator as well, or after the buffer. -/
def OwnTurn (b : BeaconHandle) (op : Nat → Address) (window bufferSecs : Nat) (A : Address)
    (utc : Nat) : Prop :=
  (A = op (b.currentEpoch utc) ∧
    (A = op (b.currentEpoch utc + 1) ∨ CurrentTurn b window utc)) ∨
  (A = op (b.currentEpoch utc + 1) ∧ NextTurn b window bufferSecs utc)

section Parts

variable {b : BeaconHandle} {op : Nat → Address} {window bufferSecs bufferSecs' utc utc' : Nat}
  {A B : Address}

/-- The next operator comes after the current one, and after the buffer. -/
theorem add_lt_of_turns (hutc : b.genesisTimeSec ≤ utc)
    (hepoch : b.currentEpoch utc' = b.currentEpoch utc) (h : CurrentTurn b window utc)
    (h' : NextTurn b window bufferSecs utc') : utc + bufferSecs < utc' := by
  have hbefore : utc < b.timestampOfSlot (cutoffSlot b window (b.currentEpoch utc)) :=
    (b.currentSlot_lt_iff hutc).mp h
  unfold NextTurn at h'
  rw [hepoch] at h'
  omega

/-- The parts of two operators in one epoch do not mix. -/
theorem OwnTurn.ordered (hutc : b.genesisTimeSec ≤ utc) (hutc' : b.genesisTimeSec ≤ utc')
    (hepoch : b.currentEpoch utc' = b.currentEpoch utc) (hAB : A ≠ B)
    (hA : OwnTurn b op window bufferSecs A utc) (hB : OwnTurn b op window bufferSecs' B utc') :
    (A = op (b.currentEpoch utc) ∧ B = op (b.currentEpoch utc + 1) ∧
      utc + bufferSecs' < utc') ∨
    (B = op (b.currentEpoch utc) ∧ A = op (b.currentEpoch utc + 1) ∧
      utc' + bufferSecs < utc) := by
  unfold OwnTurn at hB
  rw [hepoch] at hB
  rcases hA with ⟨hcur, hstays⟩ | ⟨hnext, hturn⟩
  · rcases hB with ⟨hcur', -⟩ | ⟨hnext', hturn'⟩
    · exact absurd (hcur.trans hcur'.symm) hAB
    · rcases hstays with hboth | hturn
      · exact absurd (hboth.trans hnext'.symm) hAB
      · exact Or.inl ⟨hcur, hnext', add_lt_of_turns hutc hepoch hturn hturn'⟩
  · rcases hB with ⟨hcur', hstays'⟩ | ⟨hnext', -⟩
    · rcases hstays' with hboth' | hturn'
      · exact absurd (hnext.trans hboth'.symm) hAB
      · exact Or.inr ⟨hcur', hnext, add_lt_of_turns hutc' hepoch.symm hturn' hturn⟩
    · exact absurd (hnext.trans hnext'.symm) hAB

end Parts

/-! ### The handle over a turn -/

namespace LookaheadHandle

/-- The handle of the same gateway. -/
structure SameGateway (h h' : LookaheadHandle) : Prop where
  beacon : h'.beacon = h.beacon
  buffer : h'.handoverStartBufferMs = h.handoverStartBufferMs

namespace SameGateway

variable {h h' h'' : LookaheadHandle}

theorem refl (h : LookaheadHandle) : SameGateway h h := ⟨rfl, rfl⟩

theorem trans (hh : SameGateway h h') (hh' : SameGateway h' h'') : SameGateway h h'' :=
  ⟨hh'.beacon.trans hh.beacon, hh'.buffer.trans hh.buffer⟩

end SameGateway

variable (h : LookaheadHandle) (e : LookaheadEnv) (operator : Address)

theorem maybeRefresh_sameGateway : SameGateway h (h.maybeRefresh e) :=
  ⟨maybeRefresh_beacon h e, maybeRefresh_handoverStartBufferMs h e⟩

theorem canSequence_sameGateway : SameGateway h (h.canSequence e operator).2 := by
  unfold canSequence
  split
  · exact .refl h
  · exact maybeRefresh_sameGateway h e

theorem canPropose_sameGateway : SameGateway h (h.canPropose e operator).2 := by
  have hrefresh := maybeRefresh_sameGateway h e
  unfold canPropose
  split
  · exact .refl h
  · dsimp only
    split
    · split <;> exact hrefresh
    · split <;> exact hrefresh

theorem shouldClearProposal_sameGateway : SameGateway h (h.shouldClearProposal e operator).2 := by
  have hrefresh := maybeRefresh_sameGateway h e
  unfold shouldClearProposal
  split
  · exact .refl h
  · dsimp only
    split
    · exact hrefresh
    · split
      · exact hrefresh
      · split
        · exact hrefresh
        · split <;> exact hrefresh

end LookaheadHandle

namespace Sequencer

open LookaheadHandle (SameGateway)

variable {env : Env} {b : BeaconHandle} {op : Nat → Address} {window : Nat}
  {s s' t : Sequencer} {i : Input}

/-- The handle with which the tick asks `can_sequence`. -/
def sequenceHandle (env : Env) (s : Sequencer) (i : TickInput) : LookaheadHandle :=
  (s.lookahead.isCurrentOperator i.isCurrentOperatorEnv env.config.operatorAddress).2

theorem checkCanSequence_handle (s : Sequencer) (i : TickInput) :
    (s.checkCanSequence env i).lookahead = ((s.sequenceHandle env i).canSequence
        i.canSequenceEnv env.config.operatorAddress).2 ∧
      ((s.checkCanSequence env i).flags.canSequence = true →
        ((s.sequenceHandle env i).canSequence i.canSequenceEnv
          env.config.operatorAddress).1.1 = true) := by
  have hflag : ∀ {p q r : Bool}, (!p && !q && r) = true → r = true := by
    intro p q r h
    exact (Bool.and_eq_true_iff.mp h).2
  simp only [checkCanSequence]
  split
  · exact ⟨rfl, hflag⟩
  · exact ⟨rfl, hflag⟩

theorem refresh_flags {i : TickInput} (h : s.refresh env i = .ok s') : s'.flags = s.flags := by
  obtain ⟨t, ht, hs'⟩ := refresh_eq_ok h
  have hanchor : t.flags = s.flags := by
    rcases ht with rfl | rfl
    · rfl
    · rcases maybeRefreshAnchor_cases env s i with hsame | ⟨header, hupdate, -⟩
      · rw [hsame]
      · rw [hupdate, updateAnchor_eq]
        exact sendBatchToProposer_flags _ true
  rcases hs' with rfl | ⟨parentBlock, timings, rfl⟩
  · exact hanchor
  · exact hanchor

/-- What a tick does with the handle, and the flag it ends with. -/
theorem tick_handle {i : TickInput} (h : s.tick env i = .ok t) :
    SameGateway s.lookahead t.lookahead ∧
      (t.flags.canSequence = true → ((s.sequenceHandle env i).canSequence i.canSequenceEnv
        env.config.operatorAddress).1.1 = true) := by
  simp only [tick, Except.bind_eq_ok_iff] at h
  obtain ⟨s1, hrecv, s2, htxs, s3, hsims, s4, hpropose, s5, hrefresh, h⟩ := h
  obtain rfl := Except.ok.inj h
  have h3 : SameHandle s s3 :=
    (recvBlocks_sameHandle hrecv).trans ((fetchTxs_sameHandle htxs).trans
      (handleSims_sameHandle hsims))
  have hasked : s3.sequenceHandle env i = s.sequenceHandle env i := by
    unfold sequenceHandle
    rw [h3.lookahead]
  obtain ⟨hlook, hseq⟩ := @checkCanSequence_handle env s3 i
  obtain ⟨hlook', -, hflag⟩ := checkCanPropose_handle hpropose
  rw [hasked] at hlook hseq
  constructor
  · have hfirst : SameGateway s.lookahead (s3.checkCanSequence env i).lookahead := by
      rw [hlook]
      exact (s.lookahead.maybeRefresh_sameGateway i.isCurrentOperatorEnv).trans
        (LookaheadHandle.canSequence_sameGateway _ _ _)
    have hsecond : SameGateway s.lookahead s5.lookahead := by
      rw [(refresh_sameHandle hrefresh).lookahead, hlook']
      exact hfirst.trans (LookaheadHandle.canPropose_sameGateway _ _ _)
    rw [(clearProposal_handle s5 i).lookahead]
    exact hsecond.trans (LookaheadHandle.shouldClearProposal_sameGateway _ _ _)
  · rw [clearProposal_flags, refresh_flags hrefresh, hflag]
    exact hseq

theorem ticked_handle (h : s.ticked env i = some t) :
    SameGateway s.lookahead t.lookahead ∧
      (t.flags.canSequence = true → ((s.sequenceHandle env i.tick).canSequence
        i.tick.canSequenceEnv env.config.operatorAddress).1.1 = true) := by
  unfold ticked at h
  split at h
  · exact @tick_handle env { s with looping := true } t i.tick
      (Except.toOption_eq_some_iff.mp h)
  · cases h

theorem iteration_sameGateway (h : s.iteration env i = .ok s') :
    SameGateway s.lookahead s'.lookahead := by
  rcases iteration_cases h with ⟨t, htick, htrans⟩ | ⟨hnone, -⟩
  · rw [htrans.sameHandle.lookahead]
    exact (ticked_handle htick).1
  · rw [(recvBlocks_sameHandle (iteration_of_not_ticked h hnone).2).lookahead]
    exact .refl _

/-! ### Blocks that are anchored -/

/-- The turn gets to `anchor_block`. -/
def anchors (env : Env) (s : Sequencer) (i : Input) : Bool :=
  ((s.ticked env i).bind (·.anchoring env i.transition)).isSome

/-- When a block is anchored. -/
structure AnchorTime where
  /-- the clock `can_sequence` reads in the turn -/
  asked : Nat
  /-- the clock `anchor_block` reads -/
  anchored : Nat
  deriving DecidableEq

/-- The times of the turns of a run that get to `anchor_block`. -/
def anchorTimes (env : Env) (s : Sequencer) (is : List Input) : List AnchorTime :=
  Run.observed (iteration env)
    (fun s i => if s.anchors env i then some ⟨i.tick.canSequenceEnv.utc, i.transition.anchorUtc⟩
      else none) s is

/-- What holds of the reading in every turn that anchors a block. -/
theorem forall_mem_anchorTimes {P : Nat → Prop} (is : List Input) {s : Sequencer}
    (h : Run.Along (iteration env)
      (fun s i _ => s.anchors env i = true → P i.tick.canSequenceEnv.utc) s is) :
    ∀ time ∈ anchorTimes env s is, P time.asked := by
  refine Run.forall_mem_observed is (Run.Along.mono (fun s i hturn time htime => ?_) is h)
  simp only [Option.ite_none_right_eq_some, Option.some.injEq] at htime
  obtain ⟨hanchors, rfl⟩ := htime
  exact hturn hanchors

/-- The first turn is asked for more than the buffer before the second one; so
its block is anchored before the other's, when it is anchored within the
buffer. -/
def AnchorTime.Before (bufferSecs : Nat) (time time' : AnchorTime) : Prop :=
  time.asked + bufferSecs < time'.asked ∧
    (time.anchored ≤ time.asked + bufferSecs → time'.asked ≤ time'.anchored →
      time.anchored < time'.anchored)

theorem AnchorTime.Before.of_asked {bufferSecs : Nat} {time time' : AnchorTime}
    (h : time.asked + bufferSecs < time'.asked) : time.Before bufferSecs time' :=
  ⟨h, fun hwithin hafter => (hwithin.trans_lt h).trans_le hafter⟩

/-- The reading of `can_sequence` in the turn is admissible. -/
structure AdmissibleTurn (b : BeaconHandle) (op : Nat → Address) (window : Nat) (env : Env)
    (s : Sequencer) (i : Input) : Prop where
  window : i.tick.canSequenceEnv.handoverWindowSlots = window
  enabled : i.tick.canSequenceEnv.preconfsEnabled = true
  afterGenesis : b.genesisTimeSec ≤ i.tick.canSequenceEnv.utc
  admissible : Admissible b op i.tick.canSequenceEnv.utc
    ((s.sequenceHandle env i.tick).view i.tick.canSequenceEnv)

instance (b : BeaconHandle) (op : Nat → Address) (utc : Nat) (view : Lookahead) :
    Decidable (Admissible b op utc view) :=
  inferInstanceAs (Decidable
    ((view.updatedEpoch = b.currentEpoch utc ∧ view.curr = op (b.currentEpoch utc) ∧
        view.next = op (b.currentEpoch utc + 1)) ∨
      (1 ≤ view.updatedEpoch ∧ view.updatedEpoch + 1 = b.currentEpoch utc ∧
        view.curr = op (b.currentEpoch utc - 1) ∧ view.next = op (b.currentEpoch utc))))

instance (s : Sequencer) (i : Input) : Decidable (AdmissibleTurn b op window env s i) :=
  decidable_of_iff
    (i.tick.canSequenceEnv.handoverWindowSlots = window ∧
      i.tick.canSequenceEnv.preconfsEnabled = true ∧
      b.genesisTimeSec ≤ i.tick.canSequenceEnv.utc ∧
      Admissible b op i.tick.canSequenceEnv.utc
        ((s.sequenceHandle env i.tick).view i.tick.canSequenceEnv))
    ⟨fun ⟨h1, h2, h3, h4⟩ => ⟨h1, h2, h3, h4⟩, fun ⟨h1, h2, h3, h4⟩ => ⟨h1, h2, h3, h4⟩⟩

/-- A turn that anchors a block is in the operator's part of the epoch. -/
theorem ownTurn_of_anchors (hbeacon : s.lookahead.beacon = b)
    (hturn : AdmissibleTurn b op window env s i) (hA : env.config.operatorAddress ≠ 0)
    (h : s.anchors env i = true) :
    OwnTurn b op window (s.lookahead.handoverStartBufferMs / 1000) env.config.operatorAddress
      i.tick.canSequenceEnv.utc := by
  obtain ⟨⟨g, size⟩, hg⟩ := Option.isSome_iff_exists.mp h
  obtain ⟨t, htick, hgate⟩ := Option.bind_eq_some_iff.mp hg
  have hsame : SameGateway s.lookahead (s.sequenceHandle env i.tick) :=
    s.lookahead.maybeRefresh_sameGateway i.tick.isCurrentOperatorEnv
  have hreading : Reading b op window (s.sequenceHandle env i.tick) i.tick.canSequenceEnv :=
    ⟨hsame.beacon.trans hbeacon, hturn.window, hturn.enabled, hturn.afterGenesis,
      hturn.admissible⟩
  have hallowed := (ticked_handle htick).2 (anchoring_eq_some hgate).2.1.canSequence
  rw [← hsame.buffer]
  exact hreading.turn_of_canSequence hA hallowed

/-- So is every such turn of a run. -/
theorem anchorTimes_ownTurn (lookahead : LookaheadHandle) (now : Instant) (is : List Input)
    (hbeacon : lookahead.beacon = b) (hA : env.config.operatorAddress ≠ 0)
    (hturns : Run.Along (iteration env) (fun s i _ => AdmissibleTurn b op window env s i)
      (.new env lookahead now) is) :
    ∀ time ∈ anchorTimes env (.new env lookahead now) is,
      b.genesisTimeSec ≤ time.asked ∧ OwnTurn b op window (lookahead.handoverStartBufferMs / 1000)
        env.config.operatorAddress time.asked := by
  have hown : Run.Along (iteration env) (fun s i _ => s.anchors env i = true →
      b.genesisTimeSec ≤ i.tick.canSequenceEnv.utc ∧
        OwnTurn b op window (lookahead.handoverStartBufferMs / 1000) env.config.operatorAddress
          i.tick.canSequenceEnv.utc) (.new env lookahead now) is := by
    refine Run.Along.mono_of_invariant (fun s => SameGateway lookahead s.lookahead)
      (fun s i hs hturn hanchors => ?_)
      (fun s i s' hs _ h => hs.trans (iteration_sameGateway h)) is (.refl lookahead) hturns
    rw [← hs.buffer]
    exact ⟨hturn.afterGenesis, ownTurn_of_anchors (hs.beacon.trans hbeacon) hturn hA hanchors⟩
  exact forall_mem_anchorTimes
    (P := fun utc => b.genesisTimeSec ≤ utc ∧ OwnTurn b op window _ _ utc) is hown

/-- **One gateway builds at a time.**  In the runs of two gateways with
different operators, blocks that they anchor in one epoch are anchored by its
current and its next operator: all readings of the current one are before any of
the next one, with more than the next one's handover buffer in between, and so
are the anchorings, while those of the current one come within this buffer. -/
theorem anchors_exclusive (b : BeaconHandle) (op : Nat → Address) (window : Nat)
    (env env' : Env) (lookahead lookahead' : LookaheadHandle) (now now' : Instant)
    (is is' : List Input) (hbeacon : lookahead.beacon = b) (hbeacon' : lookahead'.beacon = b)
    (hA : env.config.operatorAddress ≠ 0) (hB : env'.config.operatorAddress ≠ 0)
    (hAB : env.config.operatorAddress ≠ env'.config.operatorAddress)
    (hturns : Run.Along (iteration env) (fun s i _ => AdmissibleTurn b op window env s i)
      (.new env lookahead now) is)
    (hturns' : Run.Along (iteration env') (fun s i _ => AdmissibleTurn b op window env' s i)
      (.new env' lookahead' now') is') :
    ∀ time ∈ anchorTimes env (.new env lookahead now) is,
    ∀ time' ∈ anchorTimes env' (.new env' lookahead' now') is',
      b.currentEpoch time'.asked = b.currentEpoch time.asked →
      (env.config.operatorAddress = op (b.currentEpoch time.asked) ∧
        env'.config.operatorAddress = op (b.currentEpoch time.asked + 1) ∧
        time.Before (lookahead'.handoverStartBufferMs / 1000) time') ∨
      (env'.config.operatorAddress = op (b.currentEpoch time.asked) ∧
        env.config.operatorAddress = op (b.currentEpoch time.asked + 1) ∧
        time'.Before (lookahead.handoverStartBufferMs / 1000) time) := by
  intro time htime time' htime' hepoch
  obtain ⟨hgenesis, hturn⟩ := anchorTimes_ownTurn lookahead now is hbeacon hA hturns time htime
  obtain ⟨hgenesis', hturn'⟩ :=
    anchorTimes_ownTurn lookahead' now' is' hbeacon' hB hturns' time' htime'
  rcases hturn.ordered hgenesis hgenesis' hepoch hAB hturn' with
    ⟨hcur, hnext, hbefore⟩ | ⟨hcur, hnext, hbefore⟩
  · exact Or.inl ⟨hcur, hnext, .of_asked hbefore⟩
  · exact Or.inr ⟨hcur, hnext, .of_asked hbefore⟩

section Sample

open Sample

/-- The next operator, which waits for 10 seconds after the cutoff. -/
def nextEnv : Env := { Sample.env with config := { config with operatorAddress := 9 } }

def nextHandle : LookaheadHandle := { sampleHandle with handoverStartBufferMs := 10000 }

/-- A turn at this time of epoch 1, whose operators are 7 and 9. -/
def epochTurn (now : Instant) (utc : Nat) : Input :=
  { turn now utc with
    tick :=
      { (turn now utc).tick with
        isCurrentOperatorEnv := sampleEnv utc
        canSequenceEnv := sampleEnv utc
        canProposeEnv := sampleEnv utc
        shouldClearEnv := sampleEnv utc } }

/-- Block 10 arrives, and block 11 is anchored at this time. -/
def anchoringRun (utc : Nat) : List Input :=
  [ receiving [l1Header 100] [block 10 10 9 0 90] (epochTurn 0 utc),
    simulating (anchorTx 11 100) (blockEnv 11 (utc + 2)) 1 (epochTurn 3000 utc) ]

/-- Slot 60 starts at 1720: operator 7 anchors a block before it, and
operator 9 one after the buffer. -/
theorem anchors_exclusive_epoch1 :
    (∀ time ∈ anchorTimes Sample.env (.new Sample.env sampleHandle 0) (anchoringRun 1715),
      ∀ time' ∈ anchorTimes nextEnv (.new nextEnv nextHandle 0) (anchoringRun 1731),
        sampleBeacon.currentEpoch time'.asked = sampleBeacon.currentEpoch time.asked →
        (7 = sampleOperator (sampleBeacon.currentEpoch time.asked) ∧
          9 = sampleOperator (sampleBeacon.currentEpoch time.asked + 1) ∧
          time.Before (10000 / 1000) time') ∨
        (9 = sampleOperator (sampleBeacon.currentEpoch time.asked) ∧
          7 = sampleOperator (sampleBeacon.currentEpoch time.asked + 1) ∧
          time'.Before (2000 / 1000) time)) ∧
      anchorTimes Sample.env (.new Sample.env sampleHandle 0) (anchoringRun 1715) =
        [⟨1715, 1715⟩] ∧
      anchorTimes nextEnv (.new nextEnv nextHandle 0) (anchoringRun 1731) = [⟨1731, 1731⟩] := by
  refine ⟨?_, by decide +kernel, by decide +kernel⟩
  exact anchors_exclusive sampleBeacon sampleOperator 4 Sample.env nextEnv sampleHandle nextHandle
    0 0 (anchoringRun 1715) (anchoringRun 1731) rfl rfl (by decide) (by decide) (by decide)
    (by decide +kernel) (by decide +kernel)

end Sample

end Sequencer
end TaikoGateway
