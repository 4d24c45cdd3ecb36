/-
TaikoGateway/Lookahead.lean

Whose turn it is.  The lookahead names the whitelist operator of the current
and of the next epoch; a gateway builds blocks as current operator until the
handover window at the end of the epoch, and as next operator from a short
buffer after that window opens.  Each gateway keeps its own copy of the
lookahead and refreshes it at its own pace, so near an epoch boundary one
gateway may still hold last epoch's copy.

The bottom layer (`BeaconHandle`, `LookaheadHandle`) follows the source.
Above it, `CurrentTurn` and `NextTurn` say what a role allows at an instant,
without any handle: `canSequence_eq_true_iff` connects the two.

Main result (`canSequence_handover`): whatever admissible copies two distinct
operators hold, they are never both allowed to build at one instant; and an
operator that is allowed as next operator stays allowed until its own cutoff
in the following epoch.
-/
import TaikoGateway.Types

namespace TaikoGateway

/-! ### Beacon time -/

/-- Beacon parameters.  The source divides by both counts, so neither is
zero. -/
structure BeaconHandle where
  slotsPerEpoch : Nat
  genesisTimeSec : Nat
  secondsPerSlot : Nat
  slotsPerEpoch_pos : 0 < slotsPerEpoch
  secondsPerSlot_pos : 0 < secondsPerSlot

namespace BeaconHandle

variable (b : BeaconHandle)

/-- The current slot, purely from the clock. -/
def currentSlot (utc : Nat) : Nat := u64Sub utc b.genesisTimeSec / b.secondsPerSlot

def currentEpoch (utc : Nat) : Nat := b.currentSlot utc / b.slotsPerEpoch

/-- First slot of an epoch. -/
def slotEpochStart (epoch : Nat) : Nat := epoch * b.slotsPerEpoch

def timestampOfSlot (slot : Nat) : Nat := b.genesisTimeSec + slot * b.secondsPerSlot

theorem currentSlot_of_le {utc : Nat} (h : b.genesisTimeSec ≤ utc) :
    b.currentSlot utc = (utc - b.genesisTimeSec) / b.secondsPerSlot := by
  rw [currentSlot, u64Sub_of_le h]

/-- A slot lies before another iff the clock is before its timestamp. -/
theorem currentSlot_lt_iff {utc slot : Nat} (h : b.genesisTimeSec ≤ utc) :
    b.currentSlot utc < slot ↔ utc < b.timestampOfSlot slot := by
  rw [b.currentSlot_of_le h, Nat.div_lt_iff_lt_mul b.secondsPerSlot_pos, timestampOfSlot]
  omega

theorem currentSlot_mono {utc utc' : Nat} (h : b.genesisTimeSec ≤ utc) (h' : utc ≤ utc') :
    b.currentSlot utc ≤ b.currentSlot utc' := by
  rw [b.currentSlot_of_le h, b.currentSlot_of_le (h.trans h')]
  exact Nat.div_le_div_right (Nat.sub_le_sub_right h' _)

theorem currentEpoch_mono {utc utc' : Nat} (h : b.genesisTimeSec ≤ utc) (h' : utc ≤ utc') :
    b.currentEpoch utc ≤ b.currentEpoch utc' :=
  Nat.div_le_div_right (b.currentSlot_mono h h')

theorem slotEpochStart_succ (epoch : Nat) :
    b.slotEpochStart (epoch + 1) = b.slotEpochStart epoch + b.slotsPerEpoch := by
  simp only [slotEpochStart, Nat.add_mul, Nat.one_mul]

theorem currentEpoch_lt_iff {utc epoch : Nat} :
    b.currentEpoch utc < epoch ↔ b.currentSlot utc < b.slotEpochStart epoch :=
  Nat.div_lt_iff_lt_mul b.slotsPerEpoch_pos

end BeaconHandle

/-! ### The lookahead handle -/

structure Lookahead where
  curr : Address
  next : Address
  updatedEpoch : Nat
  deriving DecidableEq, Repr, Inhabited

/-- A gateway's handle: its own copy `last` of the shared lookahead. -/
structure LookaheadHandle where
  checked : Instant
  last : Lookahead
  /-- `handover_start_buffer_ms` of the config -/
  handoverStartBufferMs : Nat
  beacon : BeaconHandle

/-- What a call of a handle reads from outside: the shared values written by
the lookahead loops, and the two clocks. -/
structure LookaheadEnv where
  lookahead : Lookahead
  preconfsEnabled : Bool
  handoverWindowSlots : Nat
  instant : Instant
  utc : Nat
  deriving DecidableEq, Repr, Inhabited

namespace LookaheadHandle

def maybeRefresh (h : LookaheadHandle) (env : LookaheadEnv) : LookaheadHandle :=
  if env.instant - h.checked > 500 then
    { h with last := env.lookahead, checked := env.instant }
  else h

@[simp] theorem maybeRefresh_beacon (h : LookaheadHandle) (env : LookaheadEnv) :
    (h.maybeRefresh env).beacon = h.beacon := by
  unfold maybeRefresh; split <;> rfl

@[simp] theorem maybeRefresh_handoverStartBufferMs (h : LookaheadHandle) (env : LookaheadEnv) :
    (h.maybeRefresh env).handoverStartBufferMs = h.handoverStartBufferMs := by
  unfold maybeRefresh; split <;> rfl

def isCurrentOperator (h : LookaheadHandle) (env : LookaheadEnv) (operator : Address) :
    Bool × LookaheadHandle :=
  let h := h.maybeRefresh env
  (decide (operator = h.last.curr), h)

/-- Last slot (exclusive) in which the current operator of `epoch` builds. -/
def cutoffSlot (b : BeaconHandle) (window epoch : Nat) : Nat :=
  u64Sub (b.slotEpochStart epoch + b.slotsPerEpoch) window

/-- The operators of the current and the next epoch, as the copy has them:
a copy of the previous epoch only knows the current one. -/
def operators (lookahead : Lookahead) (currentEpoch : Nat) : Address × Address :=
  if lookahead.updatedEpoch = 0 ∨ currentEpoch = lookahead.updatedEpoch then
    (lookahead.curr, lookahead.next)
  else (lookahead.next, 0)

def canSequence (h : LookaheadHandle) (env : LookaheadEnv) (operator : Address) :
    (Bool × String) × LookaheadHandle :=
  if !env.preconfsEnabled then ((false, "preconfs are disabled"), h)
  else
    let h := h.maybeRefresh env
    let currentEpoch := h.beacon.currentEpoch env.utc
    -- current operator only sequences until here
    let cutoff := cutoffSlot h.beacon env.handoverWindowSlots currentEpoch
    -- next operator sequences after this time
    let cutoffTime := h.beacon.timestampOfSlot cutoff + h.handoverStartBufferMs / 1000
    let (currentOperator, nextOperator) := operators h.last currentEpoch
    let answer :=
      match decide (operator = currentOperator), decide (operator = nextOperator) with
      | true, true => (true, "operator is both current and next")
      | true, false =>
          if h.beacon.currentSlot env.utc < cutoff then
            (true, "current operator before delay_slots")
          else (false, "current operator but too late in epoch")
      | false, true =>
          if env.utc > cutoffTime then (true, "next operator after buffer_secs")
          else (false, "next operator but too early in epoch")
      | false, false => (false, "operator is not in lookahead")
    (answer, h)

def canPropose (h : LookaheadHandle) (env : LookaheadEnv) (operator : Address) :
    (Bool × String) × LookaheadHandle :=
  if !env.preconfsEnabled then ((false, "preconfs are disabled"), h)
  else
    let h := h.maybeRefresh env
    if h.beacon.currentEpoch env.utc ≠ h.last.updatedEpoch then
      -- very early in the epoch, the current operator is not updated yet
      if operator = h.last.next then
        ((true, "current operator (waiting for lookahead update)"), h)
      else ((false, "not the current operator (waiting for lookahead update)"), h)
    else if operator = h.last.curr then ((true, "current operator"), h)
    else ((false, "not the current operator"), h)

/-- Whether to clear all pending batches before another operator's turn. -/
def shouldClearProposal (h : LookaheadHandle) (env : LookaheadEnv) (operator : Address) :
    (Bool × String) × LookaheadHandle :=
  if !env.preconfsEnabled then ((false, "preconfs are disabled"), h)
  else
    let h := h.maybeRefresh env
    if h.beacon.currentEpoch env.utc ≠ h.last.updatedEpoch then
      ((false, "stale lookahead (early in epoch)"), h)
    else if operator ≠ h.last.curr then ((false, "operator is not current"), h)
    else if operator = h.last.next then
      ((false, "operator is both current and next"), h)
    else if h.beacon.currentSlot env.utc <
        cutoffSlot h.beacon env.handoverWindowSlots h.last.updatedEpoch then
      ((false, "current operator early in epoch"), h)
    else ((true, "different operator turn approaching"), h)

end LookaheadHandle

open LookaheadHandle (cutoffSlot operators)

/-! ### Turns -/

/-- The current operator's part of the epoch that contains `utc`. -/
def CurrentTurn (b : BeaconHandle) (window utc : Nat) : Prop :=
  b.currentSlot utc < cutoffSlot b window (b.currentEpoch utc)

/-- The next operator's part of the epoch that contains `utc`. -/
def NextTurn (b : BeaconHandle) (window bufferSecs utc : Nat) : Prop :=
  b.timestampOfSlot (cutoffSlot b window (b.currentEpoch utc)) + bufferSecs < utc

/-- The two parts of an epoch are disjoint, whatever the buffer. -/
theorem not_currentTurn_and_nextTurn {b : BeaconHandle} {window bufferSecs utc : Nat}
    (h : b.genesisTimeSec ≤ utc) :
    ¬ (CurrentTurn b window utc ∧ NextTurn b window bufferSecs utc) := by
  rintro ⟨hcur, hnext⟩
  have hbefore := (b.currentSlot_lt_iff h).mp hcur
  unfold NextTurn at hnext
  omega

theorem NextTurn.mono {b : BeaconHandle} {window bufferSecs utc utc' : Nat}
    (hle : utc ≤ utc') (hepoch : b.currentEpoch utc' = b.currentEpoch utc)
    (h : NextTurn b window bufferSecs utc) : NextTurn b window bufferSecs utc' := by
  unfold NextTurn at h ⊢
  rw [hepoch]
  omega

theorem cutoffSlot_eq {b : BeaconHandle} {window : Nat} (hw : window ≤ b.slotsPerEpoch)
    (epoch : Nat) : cutoffSlot b window epoch = b.slotEpochStart (epoch + 1) - window := by
  rw [cutoffSlot, u64Sub_of_le (by omega), b.slotEpochStart_succ]

/-- What `canSequence` answers, in terms of roles and turns. -/
theorem canSequence_eq_true_iff {h : LookaheadHandle} {env : LookaheadEnv} {operator : Address}
    (henabled : env.preconfsEnabled = true) :
    (h.canSequence env operator).1.1 = true ↔
      let b := h.beacon
      let ops := operators (h.maybeRefresh env).last (b.currentEpoch env.utc)
      (operator = ops.1 ∧
        (operator = ops.2 ∨ CurrentTurn b env.handoverWindowSlots env.utc)) ∨
      (operator ≠ ops.1 ∧ operator = ops.2 ∧
        NextTurn b env.handoverWindowSlots (h.handoverStartBufferMs / 1000) env.utc) := by
  simp only [LookaheadHandle.canSequence, henabled, LookaheadHandle.maybeRefresh_beacon,
    LookaheadHandle.maybeRefresh_handoverStartBufferMs, Bool.not_true, Bool.false_eq_true,
    if_false]
  rcases operators (h.maybeRefresh env).last (h.beacon.currentEpoch env.utc) with ⟨curr, next⟩
  unfold CurrentTurn NextTurn
  -- the four roles: current and next, only current, only next, neither
  by_cases hc : operator = curr <;> by_cases hn : operator = next
  · simp only [decide_eq_true hc, decide_eq_true hn]
    exact iff_of_true trivial (Or.inl ⟨hc, Or.inl hn⟩)
  · simp only [decide_eq_true hc, decide_eq_false hn]
    split
    · next hturn => exact iff_of_true rfl (Or.inl ⟨hc, Or.inr hturn⟩)
    · next hturn =>
        apply iff_of_false Bool.false_ne_true
        rintro (⟨-, hn' | hturn'⟩ | ⟨hc', -⟩)
        exacts [hn hn', hturn hturn', hc' hc]
  · simp only [decide_eq_false hc, decide_eq_true hn]
    split
    · next hturn => exact iff_of_true rfl (Or.inr ⟨hc, hn, hturn⟩)
    · next hturn =>
        apply iff_of_false Bool.false_ne_true
        rintro (⟨hc', -⟩ | ⟨-, -, hturn'⟩)
        exacts [hc hc', hturn hturn']
  · simp only [decide_eq_false hc, decide_eq_false hn]
    apply iff_of_false Bool.false_ne_true
    rintro (⟨hc', -⟩ | ⟨-, hn', -⟩)
    exacts [hc hc', hn hn']

/-! ### Admissible copies -/

/-- A copy of the lookahead that is admissible at `utc`, for the whitelist
operator `op e` of each epoch `e`: updated in this epoch or in the one
before. -/
def Admissible (b : BeaconHandle) (op : Nat → Address) (utc : Nat) (view : Lookahead) : Prop :=
  let e := b.currentEpoch utc
  (view.updatedEpoch = e ∧ view.curr = op e ∧ view.next = op (e + 1)) ∨
  (1 ≤ view.updatedEpoch ∧ view.updatedEpoch + 1 = e ∧
    view.curr = op (e - 1) ∧ view.next = op e)

/-- Under an admissible copy the current operator is right, and the next one
is right or unknown. -/
theorem Admissible.operators_eq {b : BeaconHandle} {op : Nat → Address} {utc : Nat}
    {view : Lookahead} (h : Admissible b op utc view) :
    operators view (b.currentEpoch utc) =
        (op (b.currentEpoch utc), op (b.currentEpoch utc + 1)) ∨
      operators view (b.currentEpoch utc) = (op (b.currentEpoch utc), 0) := by
  rcases h with ⟨hupd, hcurr, hnext⟩ | ⟨hpos, hupd, -, hnext⟩
  · left
    rw [operators, if_pos (Or.inr hupd.symm), hcurr, hnext]
  · right
    have hstale : ¬ (view.updatedEpoch = 0 ∨ b.currentEpoch utc = view.updatedEpoch) := by
      omega
    rw [operators, if_neg hstale, hnext]

/-- A copy updated in this epoch also knows the next operator. -/
theorem Admissible.operators_eq_of_fresh {b : BeaconHandle} {op : Nat → Address} {utc : Nat}
    {view : Lookahead} (h : Admissible b op utc view)
    (hfresh : view.updatedEpoch = b.currentEpoch utc) :
    operators view (b.currentEpoch utc) =
      (op (b.currentEpoch utc), op (b.currentEpoch utc + 1)) := by
  rcases h with ⟨hupd, hcurr, hnext⟩ | ⟨-, hupd, -, -⟩
  · rw [operators, if_pos (Or.inr hupd.symm), hcurr, hnext]
  · omega

/-- One reading of a gateway: its handle and the outside values, at an
instant after genesis, with preconfs enabled, the shared beacon and handover
window, and an admissible copy of the lookahead. -/
structure Reading (b : BeaconHandle) (op : Nat → Address) (window : Nat)
    (h : LookaheadHandle) (env : LookaheadEnv) : Prop where
  beacon : h.beacon = b
  window : env.handoverWindowSlots = window
  enabled : env.preconfsEnabled = true
  afterGenesis : b.genesisTimeSec ≤ env.utc
  admissible : Admissible b op env.utc (h.maybeRefresh env).last

/-- The copy a call of the handle decides with. -/
def LookaheadHandle.view (h : LookaheadHandle) (env : LookaheadEnv) : Lookahead :=
  (h.maybeRefresh env).last

section Handover

variable {b : BeaconHandle} {op : Nat → Address} {window : Nat}
  {h h' : LookaheadHandle} {env env' : LookaheadEnv} {A B : Address}

/-- An operator allowed at an instant is the epoch's operator in its turn, or
the next epoch's operator: in its turn, or because it is both. -/
theorem Reading.turn_of_canSequence (r : Reading b op window h env) (hA : A ≠ 0)
    (hallowed : (h.canSequence env A).1.1 = true) :
    (A = op (b.currentEpoch env.utc) ∧
      (A = op (b.currentEpoch env.utc + 1) ∨ CurrentTurn b window env.utc)) ∨
    (A = op (b.currentEpoch env.utc + 1) ∧
      NextTurn b window (h.handoverStartBufferMs / 1000) env.utc) := by
  have hiff := (canSequence_eq_true_iff r.enabled).mp hallowed
  simp only [r.beacon, r.window] at hiff
  rcases r.admissible.operators_eq with hops | hops
  · rw [hops] at hiff
    rcases hiff with hcur | ⟨-, hnext⟩
    · exact Or.inl hcur
    · exact Or.inr hnext
  · -- a stale copy: the next operator reads as zero, which `A` is not
    rw [hops] at hiff
    rcases hiff with ⟨hcur, hzero | hturn⟩ | ⟨-, hzero, -⟩
    · exact absurd hzero hA
    · exact Or.inl ⟨hcur, Or.inr hturn⟩
    · exact absurd hzero hA

/-- **Exclusion.** Two distinct operators are not both allowed at one
instant. -/
theorem Reading.not_both (r : Reading b op window h env) (r' : Reading b op window h' env')
    (hutc : env'.utc = env.utc) (hA : A ≠ 0) (hB : B ≠ 0) (hAB : A ≠ B) :
    ¬ ((h.canSequence env A).1.1 = true ∧ (h'.canSequence env' B).1.1 = true) := by
  rintro ⟨hallowA, hallowB⟩
  have turnA := r.turn_of_canSequence hA hallowA
  have turnB := r'.turn_of_canSequence hB hallowB
  rw [hutc] at turnB
  rcases turnA with ⟨hAcur, hAnext⟩ | ⟨hAnext, htA⟩ <;>
    rcases turnB with ⟨hBcur, hBnext⟩ | ⟨hBnext, htB⟩
  · exact hAB (hAcur.trans hBcur.symm)
  · rcases hAnext with hAnext | htA
    · exact hAB (hAnext.trans hBnext.symm)
    · exact not_currentTurn_and_nextTurn r.afterGenesis ⟨htA, htB⟩
  · rcases hBnext with hBnext | htB
    · exact hAB (hAnext.trans hBnext.symm)
    · exact not_currentTurn_and_nextTurn r.afterGenesis ⟨htB, htA⟩
  · exact hAB (hAnext.trans hBnext.symm)

/-- The operator of the current epoch is allowed until its cutoff, under any
admissible copy. -/
theorem Reading.canSequence_of_currentTurn (r : Reading b op window h env)
    (hA : A = op (b.currentEpoch env.utc)) (hturn : CurrentTurn b window env.utc) :
    (h.canSequence env A).1.1 = true := by
  rw [canSequence_eq_true_iff r.enabled]
  simp only [r.beacon, r.window]
  rcases r.admissible.operators_eq with hops | hops
  · rw [hops]
    exact Or.inl ⟨hA, Or.inr hturn⟩
  · rw [hops]
    exact Or.inl ⟨hA, Or.inr hturn⟩

/-- **Continuity.** An operator allowed as next operator in epoch `e`, under
a copy updated in `e`, stays allowed at every later instant before its own
cutoff slot in epoch `e + 1`, under any admissible copy that is not older. -/
theorem Reading.stays_allowed (hw : window ≤ b.slotsPerEpoch)
    (r : Reading b op window h env) (r' : Reading b op window h' env')
    (hbuffer : h'.handoverStartBufferMs = h.handoverStartBufferMs)
    (hfresh : (h.view env).updatedEpoch = b.currentEpoch env.utc)
    (hnext : (h.view env).next = A) (hallowed : (h.canSequence env A).1.1 = true)
    (hlater : env.utc ≤ env'.utc)
    (hnewer : (h.view env).updatedEpoch ≤ (h'.view env').updatedEpoch)
    (hcutoff : b.currentSlot env'.utc < cutoffSlot b window (b.currentEpoch env.utc + 1)) :
    (h'.canSequence env' A).1.1 = true := by
  have hA : A = op (b.currentEpoch env.utc + 1) := by
    rcases r.admissible with ⟨-, -, hn⟩ | ⟨-, hupd, -, -⟩
    · exact hnext.symm.trans hn
    · unfold LookaheadHandle.view at hfresh
      omega
  have hle := b.currentEpoch_mono r.afterGenesis hlater
  have hlt : b.currentEpoch env'.utc < b.currentEpoch env.utc + 2 := by
    have hend : cutoffSlot b window (b.currentEpoch env.utc + 1) ≤
        b.slotEpochStart (b.currentEpoch env.utc + 2) := by
      rw [cutoffSlot_eq hw]
      exact Nat.sub_le _ _
    exact b.currentEpoch_lt_iff.mpr (hcutoff.trans_le hend)
  rcases Nat.lt_or_ge (b.currentEpoch env.utc) (b.currentEpoch env'.utc) with hstep | hsame
  · -- the epoch has turned: `A` is now the current operator, before its cutoff
    have hepoch : b.currentEpoch env'.utc = b.currentEpoch env.utc + 1 := by omega
    apply r'.canSequence_of_currentTurn (by rw [hepoch]; exact hA)
    unfold CurrentTurn
    rw [hepoch]
    exact hcutoff
  · -- same epoch: the copy is again one of this epoch, and time only moved on
    have hepoch : b.currentEpoch env'.utc = b.currentEpoch env.utc := by omega
    have hfresh' : ((h'.maybeRefresh env').last).updatedEpoch = b.currentEpoch env'.utc := by
      unfold LookaheadHandle.view at hfresh hnewer
      rcases r'.admissible with ⟨hupd, -, -⟩ | ⟨-, hupd, -, -⟩
      · exact hupd
      · omega
    have hops := r.admissible.operators_eq_of_fresh hfresh
    have hops' := r'.admissible.operators_eq_of_fresh hfresh'
    have hiff := (canSequence_eq_true_iff r.enabled).mp hallowed
    rw [canSequence_eq_true_iff r'.enabled]
    rw [hepoch] at hops'
    simp only [r.beacon, r.window, hops] at hiff
    simp only [r'.beacon, r'.window, hepoch, hops', hbuffer]
    rcases hiff with ⟨hcur, -⟩ | ⟨hcur, -, hturn⟩
    · exact Or.inl ⟨hcur, Or.inl hA⟩
    · exact Or.inr ⟨hcur, hA, hturn.mono hlater hepoch⟩

end Handover

/-- **The handover.**  For gateways that share the beacon and the handover
window, with preconfs enabled and admissible copies of the lookahead: two
distinct operators are never allowed to build at the same instant; and one
allowed as next operator in epoch `e` stays allowed until its cutoff slot in
epoch `e + 1`, whether or not its copy is refreshed in between.  The end of the
epoch and the buffer fit a `u64` together, as every time the clock can show
does. -/
theorem canSequence_handover (b : BeaconHandle) (op : Nat → Address) (window : Nat)
    (hw : window ≤ b.slotsPerEpoch) :
    (∀ h h' env env' A B, Reading b op window h env → Reading b op window h' env' →
      env'.utc = env.utc → A ≠ 0 → B ≠ 0 → A ≠ B →
      ¬ ((h.canSequence env A).1.1 = true ∧ (h'.canSequence env' B).1.1 = true)) ∧
    (∀ h h' env env' A, Reading b op window h env → Reading b op window h' env' →
      h'.handoverStartBufferMs = h.handoverStartBufferMs →
      (h.view env).updatedEpoch = b.currentEpoch env.utc → (h.view env).next = A →
      (h.canSequence env A).1.1 = true →
      env.utc ≤ env'.utc → (h.view env).updatedEpoch ≤ (h'.view env').updatedEpoch →
      b.currentSlot env'.utc < cutoffSlot b window (b.currentEpoch env.utc + 1) →
      (h'.canSequence env' A).1.1 = true) := by
  constructor
  · intro h h' env env' A B r r' hutc hA hB hAB
    exact r.not_both r' hutc hA hB hAB
  · intro h h' env env' A r r' hbuffer hfresh hnext hallowed hlater hnewer hcutoff
    exact r.stays_allowed hw r' hbuffer hfresh hnext hallowed hlater hnewer hcutoff

section Mainnet

/-- Beacon parameters with 32 slots of 12 seconds. -/
def sampleBeacon : BeaconHandle := ⟨32, 1000, 12, by decide, by decide⟩

/-- Operators 7 and 9 take turns. -/
def sampleOperator (epoch : Nat) : Address := if epoch % 2 = 1 then 7 else 9

def sampleHandle : LookaheadHandle :=
  { checked := 0, last := ⟨7, 9, 1⟩, handoverStartBufferMs := 2000, beacon := sampleBeacon }

/-- Readings of the handle at a given time, its copy not refreshed. -/
def sampleEnv (utc : Nat) : LookaheadEnv := ⟨⟨7, 9, 1⟩, true, 4, 0, utc⟩

/-- In slot 61 of epoch 1 operators 7 and 9 are not both allowed, and 9,
allowed there as next operator, still is in epoch 2 under the old copy. -/
theorem canSequence_handover_mainnet :
    (¬ ((sampleHandle.canSequence (sampleEnv 1738) 7).1.1 = true ∧
        (sampleHandle.canSequence (sampleEnv 1738) 9).1.1 = true)) ∧
      (sampleHandle.canSequence (sampleEnv 1773) 9).1.1 = true := by
  have early : Reading sampleBeacon sampleOperator 4 sampleHandle (sampleEnv 1738) :=
    ⟨rfl, rfl, rfl, by decide, Or.inl (by decide)⟩
  have late : Reading sampleBeacon sampleOperator 4 sampleHandle (sampleEnv 1773) :=
    ⟨rfl, rfl, rfl, by decide, Or.inr (by decide)⟩
  have main := canSequence_handover sampleBeacon sampleOperator 4 (by decide)
  constructor
  · exact main.1 _ _ _ _ 7 9 early early rfl (by decide) (by decide) (by decide)
  · exact main.2 _ _ _ _ 9 early late rfl (by decide) (by decide) (by decide) (by decide)
      (by decide) (by decide)

end Mainnet

end TaikoGateway
