/-
TaikoGateway/TimeShift.lean

The time shifts of the batches the sequencer sends.  A shift is a `u8`, and
`seal_block` aborts on a longer one.

`check_time_shift` flushes a batch whose last block is more than 230 seconds
old, unless a block is being sorted; so a block that is started while a batch
stays pending is started on a recent one (`clearProposal_checked`).  Its
timestamp is chosen at that moment, and every block that is sealed into the
batch was started so, however long it took to sort.

Main result (`timeShifts_fit`): with at most 25 seconds between the check and
the chosen timestamp no shift is too long, and all batches give their blocks
their own timestamps.
-/
import TaikoGateway.Contiguous
import TaikoGateway.ParentRules
import TaikoGateway.Timestamps

namespace TaikoGateway
namespace Sequencer

variable {env : Env}

/-! ### The encoding -/

/-- The request gives these blocks their own timestamps. -/
structure EncodesTimestamps (request : ProposeBatchParams) (bs : List Sealed) : Prop where
  ne_nil : bs ≠ []
  count : request.blockParams.length = bs.length
  firstShift : ∀ first ∈ request.blockParams.head?, first.timeShift = 0
  encodes : Shifts.Encodes request.lastTimestamp (request.blockParams.map (·.timeShift))
    (bs.map (·.block.header.timestamp))

theorem EncodesTimestamps.last {request : ProposeBatchParams} {bs : List Sealed}
    (h : EncodesTimestamps request bs) :
    (bs.map (·.block.header.timestamp)).getLast? = some request.lastTimestamp := by
  obtain ⟨pre, b, rfl⟩ := (List.eq_nil_or_concat' bs).resolve_left h.ne_nil
  have hcount := h.count
  rw [List.length_append, List.length_singleton] at hcount
  have hlast := h.encodes pre.length b.block.header.timestamp (by simp)
  rw [List.drop_eq_nil_of_le (by rw [List.length_map]; omega), List.sum_nil, Nat.add_zero] at hlast
  rw [List.map_append, List.map_singleton, List.getLast?_concat, hlast]

theorem encodesTimestamps_first (b : Sealed) :
    EncodesTimestamps (withBlock env (firstRequest env b) 0 b) [b] where
  ne_nil := List.cons_ne_nil b []
  count := rfl
  firstShift := by
    intro first hfirst
    cases hfirst
    rfl
  encodes := Shifts.encodes_single _ _

theorem EncodesTimestamps.concat {request : ProposeBatchParams} {bs : List Sealed} {b : Sealed}
    (h : EncodesTimestamps request bs)
    (hle : request.lastTimestamp ≤ b.block.header.timestamp) :
    EncodesTimestamps
      (withBlock env request (b.block.header.timestamp - request.lastTimestamp) b)
      (bs ++ [b]) where
  ne_nil := by simp
  count := by simp [withBlock, h.count]
  firstShift := by
    intro first hfirst
    have hne : request.blockParams ≠ [] := by
      intro hnil
      have hcount := h.count
      rw [hnil] at hcount
      exact h.ne_nil (List.length_eq_zero_iff.mp hcount.symm)
    apply h.firstShift first
    simp only [withBlock] at hfirst
    rwa [List.head?_append_of_ne_nil _ hne] at hfirst
  encodes := by
    have hlength : (request.blockParams.map (·.timeShift)).length =
        (bs.map (·.block.header.timestamp)).length := by
      rw [List.length_map, List.length_map, h.count]
    simp only [withBlock, List.map_append, List.map_cons, List.map_nil]
    exact (Shifts.encodes_concat_iff hlength h.last).mpr ⟨h.encodes, by omega⟩

/-- The request encodes the timestamps of the blocks; there are none without
one. -/
def Encoded : Option ProposeBatchParams → List Sealed → Prop
  | none, bs => bs = []
  | some request, bs => EncodesTimestamps request bs

/-! ### The flush -/

/-- A batch that is left pending while no block is being sorted is not too
old. -/
theorem clearProposal_checked {s : Sequencer} {i : TickInput} {lastL1 : Nat}
    {request : ProposeBatchParams} (hstate : (s.clearProposal env i).ctx.state = .sync lastL1)
    (hrequest : (s.clearProposal env i).proposerRequest = some request) :
    i.timeShiftUtc ≤ request.lastTimestamp + 230 := by
  obtain ⟨u, hu⟩ : ∃ u : Sequencer, s.clearProposal env i =
      if u.checkTimeShift i.timeShiftUtc then u.sendBatchToProposer true else u := ⟨_, rfl⟩
  rw [hu] at hstate hrequest
  by_cases hcheck : u.checkTimeShift i.timeShiftUtc = true
  · -- then it would have been sent
    rw [if_pos hcheck] at hstate hrequest
    cases hsd : u.ctx.state with
    | sorting sd =>
        simp only [sendBatchToProposer, hsd] at hstate
        cases hstate
    | sync lastL1' =>
        simp only [sendBatchToProposer, hsd] at hrequest
        split at hrequest
        · cases hrequest
        · rename_i hnone
          rw [hnone] at hrequest
          cases hrequest
  · rw [if_neg hcheck] at hrequest
    simp only [checkTimeShift, hrequest, decide_eq_true_eq, not_lt] at hcheck
    omega

theorem ticked_checked {s t : Sequencer} {i : Input} {lastL1 : Nat} {request : ProposeBatchParams}
    (htick : s.ticked env i = some t) (hstate : t.ctx.state = .sync lastL1)
    (hrequest : t.proposerRequest = some request) :
    i.tick.timeShiftUtc ≤ request.lastTimestamp + 230 := by
  simp only [ticked] at htick
  split at htick
  · have h := Except.toOption_eq_some_iff.mp htick
    simp only [tick, Except.bind_eq_ok_iff] at h
    obtain ⟨s1, -, s2, -, s3, -, s4, -, s5, -, h⟩ := h
    cases h
    exact clearProposal_checked hstate hrequest
  · cases htick

/-! ### The chosen timestamp -/

/-- The timestamp chosen last, after a transition. -/
def nextTimestamp (env : Env) (t : Sequencer) (i : TransitionInput) (chosen : Nat) : Nat :=
  match t.anchoring env i with
  | some _ => blockTimestamp env i.anchorUtc
  | none => chosen

/-- The timestamp `anchor_block` chose last, recorded along a run. -/
def chosenTimestamp (env : Env) (s : Sequencer) (i : Input) (chosen : Nat) : Nat :=
  match s.ticked env i with
  | some t => nextTimestamp env t i.transition chosen
  | none => chosen

/-- A sealed block has the timestamp that was chosen for it. -/
def SealsKeepTimestamp (env : Env) (s : Sequencer) (i : Input) (chosen : Nat) : Prop :=
  ∀ t sd res, s.ticked env i = some t → t.ctx.state = .sorting sd →
    i.transition.sealBlock sd.stateId = .ok res → res.builtBlock.header.timestamp = chosen

instance (env : Env) (s : Sequencer) (i : Input) (chosen : Nat) :
    Decidable (SealsKeepTimestamp env s i chosen) :=
  decidable_of_iff
    (∀ t ∈ s.ticked env i, ∀ sd ∈ t.ctx.state.sortData?,
      ∀ res ∈ (i.transition.sealBlock sd.stateId).toOption,
        res.builtBlock.header.timestamp = chosen)
    (by
      simp only [SealsKeepTimestamp, Option.mem_def, SequencerState.sortData?_eq_some,
        Except.toOption_eq_some_iff]
      exact ⟨fun h t sd res ht hsd => h t ht sd hsd res,
        fun h t ht sd hsd res => h t sd res ht hsd⟩)

section Chosen

variable {t : Sequencer} {i : TransitionInput} {chosen : Nat}

theorem nextTimestamp_of_sorting {sd : SortData} (hstate : t.ctx.state = .sorting sd) :
    nextTimestamp env t i chosen = chosen := by
  rw [nextTimestamp, anchoring, hstate]

theorem nextTimestamp_of_anchoring {g : Sequencer} {size : Nat}
    (hgate : t.anchoring env i = some (g, size)) :
    nextTimestamp env t i chosen = blockTimestamp env i.anchorUtc := by
  rw [nextTimestamp, hgate]

theorem le_nextTimestamp (hle : chosen ≤ blockTimestamp env i.anchorUtc) :
    chosen ≤ nextTimestamp env t i chosen := by
  unfold nextTimestamp
  split
  · exact hle
  · exact le_rfl

theorem nextTimestamp_le (hle : chosen ≤ blockTimestamp env i.anchorUtc) :
    nextTimestamp env t i chosen ≤ blockTimestamp env i.anchorUtc := by
  unfold nextTimestamp
  split
  · exact le_rfl
  · exact hle

end Chosen

/-! ### The invariant -/

/-- All batches encode the timestamps of their blocks; the pending one ends
with a timestamp that was chosen, and the timestamp of the block under
construction is not too far from it. -/
structure ShiftInv (s : Sequencer) (chosen : Nat) : Prop where
  encoded : BatchesSatisfy Encoded s
  reached : ∀ request, s.proposerRequest = some request → request.lastTimestamp ≤ chosen
  recent : ∀ sd request, s.ctx.state = .sorting sd → s.proposerRequest = some request →
    chosen < request.lastTimestamp + 2 ^ 8

theorem shiftInv_new (env : Env) (lookahead : LookaheadHandle) (now : Instant) :
    ShiftInv (.new env lookahead now) 0 :=
  ⟨.new rfl env lookahead now, (fun _ h => by cases h), fun _ _ h => by cases h⟩

section Turn

variable {s s' t : Sequencer} {i : Input} {chosen : Nat}

theorem ShiftInv.tickStep (h : TickStep env i.tick s s') (hs : ShiftInv s chosen) :
    ShiftInv s' chosen := by
  -- a tick at most sends the pending batch
  have hrequest : ∀ request, s'.proposerRequest = some request →
      s.proposerRequest = some request := by
    intro request hrequest
    rcases h.batches with ⟨hsame, -⟩ | ⟨sent, -, hnone, -⟩
    · rwa [hsame] at hrequest
    · rw [hnone] at hrequest
      cases hrequest
  refine ⟨hs.encoded.tickStep rfl h, fun request hr => hs.reached request (hrequest _ hr),
    fun sd' request hstate' hr => ?_⟩
  have hstate := h.state
  rw [hstate'] at hstate
  generalize hold : s.ctx.state = old at hstate
  cases hstate with
  | @sorting sd _ hsame hbest => exact hs.recent sd request hold (hrequest _ hr)

theorem ShiftInv.ticked (hs : ShiftInv s chosen) (h : s.ticked env i = some t) :
    ShiftInv t chosen :=
  chain_keeps (ShiftInv · chosen) ShiftInv.tickStep hs (ticked_chain h)

/-- The sealed block is at most 255 seconds after the pending batch. -/
theorem ShiftInv.sealed_shift (htick : s.ticked env i = some t)
    (hseals : SealsKeepTimestamp env s i chosen) (ht : ShiftInv t chosen) {sd : SortData}
    {block : Block} (hstate : t.ctx.state = .sorting sd)
    (hanswer : sealAnswer i.transition sd.stateId = .ok block) :
    block.header.timestamp = chosen ∧ ∀ request, t.proposerRequest = some request →
      request.lastTimestamp ≤ block.header.timestamp ∧
        block.header.timestamp - request.lastTimestamp < 2 ^ 8 := by
  obtain ⟨res, hseal, -, rfl⟩ := sealAnswer_eq_ok.mp hanswer
  have hkept := hseals t sd res htick hstate hseal
  refine ⟨hkept, fun request hrequest => ?_⟩
  have hreached := ht.reached request hrequest
  have hrecent := ht.recent sd request hstate hrequest
  rw [hkept]
  omega

/-- A seal encodes the timestamp of its block. -/
theorem ShiftInv.encoded_sealed (htick : s.ticked env i = some t)
    (hseals : SealsKeepTimestamp env s i chosen) (ht : ShiftInv t chosen) {sd : SortData}
    {block : Block} {request : ProposeBatchParams} (hstate : t.ctx.state = .sorting sd)
    (hanswer : sealAnswer i.transition sd.stateId = .ok block)
    (hrequest : accumulate env t.proposerRequest (sealOf sd block) = .ok request) :
    Encoded (some request) (t.pendingSeals ++ [sealOf sd block]) := by
  have hpending := ht.encoded.pending
  obtain ⟨-, ⟨hnone, rfl⟩ | ⟨before, hbefore, -, -, rfl⟩⟩ := accumulate_eq_ok hrequest
  · rw [hnone] at hpending
    rw [show t.pendingSeals = [] from hpending, List.nil_append]
    exact encodesTimestamps_first _
  · rw [hbefore] at hpending
    obtain ⟨-, hshift⟩ := ht.sealed_shift htick hseals hstate hanswer
    exact EncodesTimestamps.concat hpending (hshift before hbefore).1

/-- What is pending after a transition ends with a timestamp that was chosen. -/
theorem ShiftInv.reached_of_transition (htick : s.ticked env i = some t)
    (hseals : SealsKeepTimestamp env s i chosen)
    (hclock : chosen ≤ blockTimestamp env i.transition.anchorUtc) (ht : ShiftInv t chosen)
    (h : Transition env i.transition t s') {request : ProposeBatchParams}
    (hrequest : s'.proposerRequest = some request) :
    request.lastTimestamp ≤ nextTimestamp env t i.transition chosen := by
  refine le_trans ?_ (le_nextTimestamp hclock)
  rcases h.batches with (⟨hsame, -⟩ | ⟨-, -, hnone, -⟩) |
    ⟨sd, block, request', hsealed, haccumulate, u, ⟨hu, -⟩, hflush⟩
  · rw [hsame] at hrequest
    exact ht.reached request hrequest
  · rw [hnone] at hrequest
    cases hrequest
  · -- a seal: the last timestamp is that of the block
    have hrequest' : request = request' := by
      rcases hflush with ⟨hsame, -⟩ | ⟨-, -, hnone, -⟩
      · rw [hsame, hu] at hrequest
        exact (Option.some.inj hrequest).symm
      · rw [hnone] at hrequest
        cases hrequest
    obtain ⟨hkept, -⟩ := ht.sealed_shift htick hseals hsealed.state hsealed.answer
    obtain ⟨-, ⟨-, rfl⟩ | ⟨before, -, -, -, rfl⟩⟩ := accumulate_eq_ok haccumulate
    · rw [hrequest']
      exact hkept.le
    · rw [hrequest']
      exact hkept.le

/-- **The transition.**  A block that is started while a batch is pending gets
a timestamp at most 255 seconds after it. -/
theorem ShiftInv.transition (htick : s.ticked env i = some t)
    (hseals : SealsKeepTimestamp env s i chosen)
    (hclock : chosen ≤ blockTimestamp env i.transition.anchorUtc)
    (hdelay : blockTimestamp env i.transition.anchorUtc ≤ i.tick.timeShiftUtc + 25)
    (ht : ShiftInv t chosen) (h : Transition env i.transition t s') :
    ShiftInv s' (nextTimestamp env t i.transition chosen) := by
  refine ⟨ht.encoded.transition rfl (fun sd block request hsealed hrequest =>
      ht.encoded_sealed htick hseals hsealed.state hsealed.answer hrequest) h,
    fun request hrequest => ht.reached_of_transition htick hseals hclock h hrequest,
    fun sd' request hstate' hrequest => ?_⟩
  obtain ⟨⟨hsame, -⟩, ⟨g, size, stateId, blockInfo, active, hgate, -, -⟩ |
    ⟨sd, orders, hstate, -⟩⟩ := h.sorting_cases hstate'
  · -- started now, so the batch was not due at the check
    rw [hsame] at hrequest
    obtain ⟨lastL1, hsync⟩ := (anchoring_eq_some hgate).1
    have hchecked := ticked_checked htick hsync hrequest
    rw [nextTimestamp_of_anchoring hgate]
    omega
  · rw [hsame] at hrequest
    rw [nextTimestamp_of_sorting hstate]
    exact ht.recent sd request hstate hrequest

theorem ShiftInv.iteration (hseals : SealsKeepTimestamp env s i chosen)
    (hclock : chosen ≤ blockTimestamp env i.transition.anchorUtc)
    (hdelay : blockTimestamp env i.transition.anchorUtc ≤ i.tick.timeShiftUtc + 25)
    (hs : ShiftInv s chosen) (h : s.iteration env i = .ok s') :
    ShiftInv s' (chosenTimestamp env s i chosen) := by
  unfold chosenTimestamp
  rcases iteration_cases h with ⟨t, htick, htrans⟩ | ⟨hnone, hchain⟩
  · rw [htick]
    exact (hs.ticked htick).transition htick hseals hclock hdelay htrans
  · rw [hnone]
    exact chain_keeps (ShiftInv · chosen) ShiftInv.tickStep hs hchain

/-! ### The abort -/

/-- The conversion of the time shift fails on a shift of 256 seconds or more. -/
theorem accumulate_timeShiftTooLarge {r : Option ProposeBatchParams} {b : Sealed}
    (h : accumulate env r b = .error .timeShiftTooLarge) :
    ∃ before, r = some before ∧
      ¬ b.block.header.timestamp - before.lastTimestamp < 2 ^ 8 := by
  cases r with
  | none =>
      simp only [accumulate] at h
      obtain ⟨x, -, h⟩ := (Except.bind_eq_error_iff.mp h).resolve_left (by simp)
      split at h <;> cases h
  | some before =>
      refine ⟨before, rfl, fun hlt => ?_⟩
      simp only [accumulate, if_pos hlt] at h
      split at h
      · cases h
      · obtain ⟨x, -, h⟩ := (Except.bind_eq_error_iff.mp h).resolve_left (by simp)
        split at h <;> cases h

theorem ShiftInv.not_timeShiftTooLarge (hseals : SealsKeepTimestamp env s i chosen)
    (hs : ShiftInv s chosen) : s.iteration env i ≠ .error .timeShiftTooLarge := by
  intro habort
  rcases iteration_aborts habort with htick | ⟨t, htick, habort⟩
  · exact absurd htick (by decide)
  · rcases transition_aborts habort with
      hother | ⟨g, size, anchor, parent, -, -, -, hfee⟩ | ⟨sd, block, hstate, hanswer, hacc⟩
    · exact absurd hother (by decide)
    · simp only [computeNextBaseFee] at hfee
      split at hfee <;> cases hfee
    · obtain ⟨before, hbefore, hlarge⟩ := accumulate_timeShiftTooLarge hacc
      obtain ⟨-, hshift⟩ := (hs.ticked htick).sealed_shift htick hseals hstate hanswer
      exact hlarge (hshift before hbefore).2

end Turn

/-! ### Runs -/

/-- **Time shifts fit.**  If the clock does not go backwards, at most 25 seconds
pass from `check_time_shift` to the timestamp of the next block, and sealed
blocks keep their timestamps, then along every run no conversion of a time
shift aborts, and every batch gives its blocks their own timestamps. -/
theorem timeShifts_fit (env : Env) (lookahead : LookaheadHandle) (now : Instant) (is : List Input)
    (hclock : (is.map (·.transition.anchorUtc)).Pairwise (· ≤ ·))
    (hdelay : ∀ i ∈ is, i.transition.anchorUtc + env.config.targetBlockTime / 1000 ≤
      i.tick.timeShiftUtc + 25)
    (hseals : Run.Along (Run.withHistory (iteration env) (chosenTimestamp env))
      (fun c i _ => SealsKeepTimestamp env c.1 i c.2) (.new env lookahead now, 0) is) :
    Run.Along (iteration env)
      (fun s i r => r ≠ .error .timeShiftTooLarge ∧ TurnReaches env (BatchesSatisfy Encoded) s i r)
      (.new env lookahead now) is := by
  have hsorted : (is.map fun i => blockTimestamp env i.transition.anchorUtc).Pairwise (· ≤ ·) := by
    rw [List.pairwise_map] at hclock ⊢
    exact hclock.imp fun hle => blockTimestamp_mono env hle
  have hreached : Run.Along (Run.withHistory (iteration env) (chosenTimestamp env))
      (fun c i _ => c.2 ≤ blockTimestamp env i.transition.anchorUtc)
      (.new env lookahead now, 0) is := by
    refine Run.along_history_le (fun s i chosen hle => ?_) is (fun _ _ => Nat.zero_le _) hsorted
    unfold chosenTimestamp
    split
    · exact nextTimestamp_le hle
    · exact hle
  have hdelayed : Run.Along (Run.withHistory (iteration env) (chosenTimestamp env))
      (fun _ i _ => blockTimestamp env i.transition.anchorUtc ≤ i.tick.timeShiftUtc + 25)
      (.new env lookahead now, 0) is :=
    Run.Along.of_forall_mem hdelay _
  refine (Run.along_withHistory_iff is).mp (Run.Along.mono_of_invariant
    (fun c => ShiftInv c.1 c.2) (fun c i hs h => ?_) (fun c i c' hs h hdone => ?_) is
    (shiftInv_new env lookahead now) (hseals.and (hreached.and hdelayed)))
  · refine ⟨hs.not_timeShiftTooLarge h.1, fun t ht => (hs.ticked ht).encoded, fun s' hdone => ?_⟩
    exact (hs.iteration h.1 h.2.1 h.2.2 hdone).encoded
  · obtain ⟨hdone, hnext⟩ := Run.withHistory_eq_ok_iff.mp hdone
    show ShiftInv c'.1 c'.2
    rw [← hnext]
    exact hs.iteration h.1 h.2.1 h.2.2 hdone

section Sample

open Sample

/-- In a run that sends one batch of two blocks. -/
theorem timeShifts_fit_sample :
    Run.Along (iteration Sample.env)
      (fun s i r => r ≠ .error .timeShiftTooLarge ∧
        TurnReaches Sample.env (BatchesSatisfy Encoded) s i r) Sample.start contiguousRun ∧
      (contiguousRun.foldlM (iteration Sample.env) Sample.start).toOption.map
        (fun s => s.proposedBatches.map fun b => b.request.blockParams.map (·.timeShift)) =
          some [[0, 4]] :=
  ⟨timeShifts_fit Sample.env Sample.lookahead 0 contiguousRun (by decide) (by decide)
    (by decide +kernel), by decide +kernel⟩

end Sample

end Sequencer
end TaikoGateway
