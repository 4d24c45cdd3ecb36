/-
TaikoGateway/LookaheadLoop.lean

The loop that refreshes the shared lookahead (`start_lookahead_loop`).

A pass reads the clock, and if it is late enough in the epoch asks the
whitelist contract for the operators of the current and of the next epoch.
The answers are stored under the epoch of the clock.  The contract, however,
goes by the timestamp of the latest L1 block when it serves a call
(`PassTiming.pass`).

Every stored lookahead names the operators of its epoch and of the next iff
in every pass that stores one the latest L1 block at both calls was one of the
epoch of the clock (`stores_right_iff`).  Slots missed at the start of an epoch
and slow calls break this: the loop does not check that the epoch has a block,
as its comment says and as the wait before the first lookahead does.
-/
import TaikoGateway.Lookahead

namespace TaikoGateway

/-! ### The loop -/

/-- Number of slots into the current epoch. -/
def BeaconHandle.slotInEpoch (b : BeaconHandle) (utc : Nat) : Nat :=
  b.currentSlot utc % b.slotsPerEpoch

/-- Why a whitelist call returned no operator. -/
inductive WhitelistError
  /-- revert `InvalidOperatorCount`: the whitelist is empty -/
  | invalidOperatorCount
  /-- any other revert -/
  | otherRevert
  /-- no revert reason -/
  | failed
  deriving DecidableEq, Repr

inductive LookaheadPanic
  /-- "unhandled whitelist error" -/
  | unhandledWhitelistError
  /-- "failed to fetch current operator" -/
  | failedCurrent
  /-- "unhandled whitelist error (next)" -/
  | unhandledWhitelistErrorNext
  /-- "failed to fetch next operator" -/
  | failedNext
  deriving DecidableEq, Repr

/-- The clock reading of a pass and the replies to its calls. -/
structure LookaheadPass where
  utc : Nat
  /-- `getOperatorForCurrentEpoch` -/
  current : Except WhitelistError Address
  /-- `getOperatorForNextEpoch` -/
  next : Except WhitelistError Address

/-- The operator of a reply, zero for an empty whitelist. -/
def operatorOfReply (unhandled failed : LookaheadPanic) :
    Except WhitelistError Address → Except LookaheadPanic Address
  | .ok operator => .ok operator
  | .error .invalidOperatorCount => .ok 0
  | .error .otherRevert => .error unhandled
  | .error .failed => .error failed

/-- The loop body: the lookahead that is stored, if any. -/
def lookaheadPass (b : BeaconHandle) (pass : LookaheadPass) :
    Except LookaheadPanic (Option Lookahead) :=
  -- late enough in the epoch
  if 2 < b.slotInEpoch pass.utc then do
    let currentOperator ← operatorOfReply .unhandledWhitelistError .failedCurrent pass.current
    let nextOperator ← operatorOfReply .unhandledWhitelistErrorNext .failedNext pass.next
    .ok (some
      { curr := currentOperator
        next := nextOperator
        updatedEpoch := b.currentEpoch pass.utc })
  else .ok none

/-- The lookaheads that are stored, one after the other; a panic ends the
loop. -/
def stores (b : BeaconHandle) : List LookaheadPass → List Lookahead
  | [] => []
  | pass :: passes =>
      match lookaheadPass b pass with
      | .error _ => []
      | .ok none => stores b passes
      | .ok (some lookahead) => lookahead :: stores b passes

/-! ### The whitelist contract -/

/-- When a pass reads the clock, and the timestamp of the latest L1 block when
each of its calls is served; `none` if the call fails. -/
structure PassTiming where
  utc : Nat
  currentHead : Option Nat
  nextHead : Option Nat

/-- The contract, with `op e` the operator of epoch `e`, `none` if there are no
operators. -/
def whitelistReply (op : Nat → Option Address) : Option Nat → Except WhitelistError Address
  | none => .error .failed
  | some epoch =>
      match op epoch with
      | none => .error .invalidOperatorCount
      | some operator => .ok operator

/-- A pass against the contract. -/
def PassTiming.pass (b : BeaconHandle) (op : Nat → Option Address) (t : PassTiming) :
    LookaheadPass :=
  { utc := t.utc
    current := whitelistReply op (t.currentHead.map b.currentEpoch)
    next := whitelistReply op (t.nextHead.map fun head => b.currentEpoch head + 1) }

/-- The operator of an epoch, zero if there are none. -/
def operatorOf (op : Nat → Option Address) (epoch : Nat) : Address := (op epoch).getD 0

/-- The lookahead names the operators of its epoch and of the next. -/
def Lookahead.Right (op : Nat → Option Address) (lookahead : Lookahead) : Prop :=
  lookahead.curr = operatorOf op lookahead.updatedEpoch ∧
    lookahead.next = operatorOf op (lookahead.updatedEpoch + 1)

/-! ### What the loop stores -/

variable {b : BeaconHandle} {op : Nat → Option Address}

/-- The pass asks for the operators. -/
def PassTiming.Asks (b : BeaconHandle) (t : PassTiming) : Prop := 2 < b.slotInEpoch t.utc

instance (t : PassTiming) : Decidable (t.Asks b) := inferInstanceAs (Decidable (_ < _))

/-- A call of the pass fails. -/
def PassTiming.Panics (b : BeaconHandle) (t : PassTiming) : Prop :=
  t.Asks b ∧ (t.currentHead = none ∨ t.nextHead = none)

instance (t : PassTiming) : Decidable (t.Panics b) := inferInstanceAs (Decidable (_ ∧ _))

/-- The passes before one panics. -/
def beforePanic (b : BeaconHandle) (ts : List PassTiming) : List PassTiming :=
  ts.takeWhile fun t => ¬ t.Panics b

theorem operatorOfReply_whitelistReply (unhandled failed : LookaheadPanic) (epoch : Nat) :
    operatorOfReply unhandled failed (whitelistReply op (some epoch)) =
      .ok (operatorOf op epoch) := by
  simp only [whitelistReply, operatorOf]
  cases op epoch <;> rfl

theorem lookaheadPass_of_not_asks {t : PassTiming} (h : ¬ t.Asks b) :
    lookaheadPass b (t.pass b op) = .ok none :=
  if_neg h

theorem lookaheadPass_of_asks {t : PassTiming} (h : t.Asks b) :
    lookaheadPass b (t.pass b op) = (do
      let currentOperator ← operatorOfReply .unhandledWhitelistError .failedCurrent
        (whitelistReply op (t.currentHead.map b.currentEpoch))
      let nextOperator ← operatorOfReply .unhandledWhitelistErrorNext .failedNext
        (whitelistReply op (t.nextHead.map fun head => b.currentEpoch head + 1))
      .ok (some ⟨currentOperator, nextOperator, b.currentEpoch t.utc⟩)) :=
  if_pos h

theorem lookaheadPass_of_panics {t : PassTiming} (h : t.Panics b) :
    ∃ e, lookaheadPass b (t.pass b op) = .error e := by
  obtain ⟨utc, currentHead, nextHead⟩ := t
  obtain ⟨hasks, hnone⟩ := h
  rw [lookaheadPass_of_asks hasks]
  cases currentHead with
  | none => exact ⟨.failedCurrent, rfl⟩
  | some head =>
      obtain rfl : nextHead = none := by simpa using hnone
      refine ⟨.failedNext, ?_⟩
      simp only [Option.map_some, operatorOfReply_whitelistReply]
      rfl

/-- A pass that gets its answers stores, under the epoch of the clock, the
operators by the L1 head. -/
theorem lookaheadPass_of_served {t : PassTiming} (hasks : t.Asks b) {currentHead nextHead : Nat}
    (hcurrent : t.currentHead = some currentHead) (hnext : t.nextHead = some nextHead) :
    lookaheadPass b (t.pass b op) = .ok (some
      { curr := operatorOf op (b.currentEpoch currentHead)
        next := operatorOf op (b.currentEpoch nextHead + 1)
        updatedEpoch := b.currentEpoch t.utc }) := by
  rw [lookaheadPass_of_asks hasks]
  simp only [hcurrent, hnext, Option.map_some, operatorOfReply_whitelistReply]
  rfl

/-- At each call the operator by the L1 head is that by the clock. -/
def PassTiming.SameOperators (b : BeaconHandle) (op : Nat → Option Address) (t : PassTiming) :
    Prop :=
  (∀ head ∈ t.currentHead,
      operatorOf op (b.currentEpoch head) = operatorOf op (b.currentEpoch t.utc)) ∧
    ∀ head ∈ t.nextHead,
      operatorOf op (b.currentEpoch head + 1) = operatorOf op (b.currentEpoch t.utc + 1)

/-- At each call the latest L1 block is one of the epoch of the clock. -/
def PassTiming.Timely (b : BeaconHandle) (t : PassTiming) : Prop :=
  (∀ head ∈ t.currentHead, b.currentEpoch head = b.currentEpoch t.utc) ∧
    ∀ head ∈ t.nextHead, b.currentEpoch head = b.currentEpoch t.utc

theorem PassTiming.Timely.sameOperators {t : PassTiming} (h : t.Timely b) :
    t.SameOperators b op :=
  ⟨fun head hhead => by rw [h.1 head hhead], fun head hhead => by rw [h.2 head hhead]⟩

/-- A whitelist with different operators in all epochs tells the epochs
apart. -/
theorem PassTiming.timely_of_injective (hinj : Function.Injective (operatorOf op))
    {t : PassTiming} (h : t.SameOperators b op) : t.Timely b :=
  ⟨fun head hhead => hinj (h.1 head hhead),
    fun head hhead => Nat.succ_injective (hinj (h.2 head hhead))⟩

/-- One pass: what it stores is right iff the operators are the same. -/
theorem lookaheadPass_right_iff {t : PassTiming} {currentHead nextHead : Nat}
    (hcurrent : t.currentHead = some currentHead) (hnext : t.nextHead = some nextHead) :
    Lookahead.Right op
      { curr := operatorOf op (b.currentEpoch currentHead)
        next := operatorOf op (b.currentEpoch nextHead + 1)
        updatedEpoch := b.currentEpoch t.utc } ↔ t.SameOperators b op := by
  simp [Lookahead.Right, PassTiming.SameOperators, hcurrent, hnext]

/-- The whole loop, for one whitelist. -/
theorem stores_right_iff_sameOperators (b : BeaconHandle) (op : Nat → Option Address)
    (ts : List PassTiming) :
    (∀ lookahead ∈ stores b (ts.map (·.pass b op)), lookahead.Right op) ↔
      ∀ t ∈ beforePanic b ts, t.Asks b → t.SameOperators b op := by
  induction ts with
  | nil => simp [stores, beforePanic]
  | cons t ts ih =>
      rw [List.map_cons, stores, beforePanic]
      by_cases hpanics : t.Panics b
      · obtain ⟨e, he⟩ : ∃ e, lookaheadPass b (t.pass b op) = .error e :=
          lookaheadPass_of_panics hpanics
        rw [he, List.takeWhile_cons_of_neg (by simpa using hpanics)]
        simp
      rw [List.takeWhile_cons_of_pos (by simpa using hpanics), List.forall_mem_cons]
      by_cases hasks : t.Asks b
      · -- both calls were answered
        obtain ⟨hcurrent, hnext⟩ := not_or.mp fun hnone => hpanics ⟨hasks, hnone⟩
        obtain ⟨currentHead, hcurrent⟩ := Option.ne_none_iff_exists'.mp hcurrent
        obtain ⟨nextHead, hnext⟩ := Option.ne_none_iff_exists'.mp hnext
        rw [lookaheadPass_of_served hasks hcurrent hnext, List.forall_mem_cons, ih,
          lookaheadPass_right_iff hcurrent hnext]
        exact and_congr_left fun _ => (imp_iff_right hasks).symm
      · rw [lookaheadPass_of_not_asks hasks, ih]
        exact (and_iff_right fun h => absurd h hasks).symm

/-- **The stored lookaheads are right**, for one whitelist, exactly when in
every pass that asks for the operators the L1 head at each call was in an epoch
with the same operator as the epoch of the clock; so for all whitelists exactly
when it was in that epoch. -/
theorem stores_right_iff (b : BeaconHandle) (ts : List PassTiming) :
    (∀ op, (∀ lookahead ∈ stores b (ts.map (·.pass b op)), lookahead.Right op) ↔
      ∀ t ∈ beforePanic b ts, t.Asks b → t.SameOperators b op) ∧
    ((∀ op, ∀ lookahead ∈ stores b (ts.map (·.pass b op)), lookahead.Right op) ↔
      ∀ t ∈ beforePanic b ts, t.Asks b → t.Timely b) := by
  refine ⟨fun op => stores_right_iff_sameOperators b op ts, ?_⟩
  constructor
  · intro hall t ht hasks
    -- every epoch has its number as operator
    have hsame := (stores_right_iff_sameOperators b some ts).mp (hall some) t ht hasks
    exact @PassTiming.timely_of_injective b some (fun _ _ h => h) t hsame
  · intro hall op
    exact (stores_right_iff_sameOperators b op ts).mpr
      fun t ht hasks => (hall t ht hasks).sameOperators

/-- The first three slots of epoch 2 are missed, and slot 67 has no block yet:
the operators of epochs 1 and 2 are stored as those of epochs 2 and 3. -/
theorem missed_slots_store_old_epoch :
    stores sampleBeacon [PassTiming.pass sampleBeacon (fun epoch => some (sampleOperator epoch))
        ⟨1804, some 1756, some 1756⟩] = [⟨7, 9, 2⟩] ∧
      ¬ Lookahead.Right (fun epoch => some (sampleOperator epoch)) ⟨7, 9, 2⟩ := by
  refine ⟨by decide, fun h => ?_⟩
  exact absurd h.1 (by decide)

end TaikoGateway
