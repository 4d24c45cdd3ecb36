/-
TaikoGateway/Books.lean

The books of a block: what its fields say of gas and size agrees with the
results that were applied to it (`Books`), and a block fits its maximal size
without its last order.

With the count of the simulations in flight (`Flights`) this is what the
assertions of a round need: a round does not abort (`maybeSimNextBatch_ok`).
-/
import TaikoGateway.SortRun

namespace TaikoGateway

/-- The size of the orders, before compression. -/
def totalSize (orders : List Order) : Nat := (orders.map fun order => order.raw.length).sum

theorem totalSize_append (orders : List Order) (order : Order) :
    totalSize (orders ++ [order]) = totalSize orders + order.raw.length := by
  simp [totalSize]

namespace SortData

variable {sd sd' sd'' : SortData}

/-- The fields that the books are about; the flag may only be set. -/
structure SameBooks (sd sd' : SortData) : Prop where
  orders : sd'.orders = sd.orders
  gasRemaining : sd'.gasRemaining = sd.gasRemaining
  uncompressedSize : sd'.uncompressedSize = sd.uncompressedSize
  maxBlockSize : sd'.maxBlockSize = sd.maxBlockSize
  sealFlag : sd'.sealFlag = false → sd.sealFlag = false

theorem SameBooks.refl (sd : SortData) : SameBooks sd sd := ⟨rfl, rfl, rfl, rfl, id⟩

theorem SameBooks.trans (h : SameBooks sd sd') (h' : SameBooks sd' sd'') : SameBooks sd sd'' :=
  ⟨h'.orders.trans h.orders, h'.gasRemaining.trans h.gasRemaining,
    h'.uncompressedSize.trans h.uncompressedSize, h'.maxBlockSize.trans h.maxBlockSize,
    fun hflag => h.sealFlag (h'.sealFlag hflag)⟩

theorem handleNewTx_books {order : Order} (h : sd.handleNewTx order = .ok sd') :
    SameBooks sd sd' := by
  rcases handleNewTx_cases h with rfl | ⟨activeOrders, -, rfl⟩
  · exact .refl sd'
  · exact ⟨rfl, rfl, rfl, rfl, id⟩

theorem handleInvalid_books (sd : SortData) (order : Order) (reason : InvalidReason) :
    SameBooks sd (sd.handleInvalid order reason) := by
  cases reason
  case notEnoughGas => exact ⟨rfl, rfl, rfl, rfl, fun hflag => by cases hflag⟩
  all_goals exact ⟨rfl, rfl, rfl, rfl, id⟩

theorem handleSim_books {sim : SimulatedOrder} (h : sd.handleSim sim = .ok sd') :
    SameBooks sd sd' := by
  rcases handleSim_cases h with - | ⟨reason, -, -⟩ | ⟨-, -, -⟩ | ⟨activeOrders, -, -, -, -⟩ |
    ⟨activeOrders, -, -, -⟩
  · exact .refl sd
  · have hanswered : SameBooks sd sd.answered := ⟨rfl, rfl, rfl, rfl, id⟩
    exact hanswered.trans (handleInvalid_books sd.answered sim.order reason)
  · exact ⟨rfl, rfl, rfl, rfl, id⟩
  · exact ⟨rfl, rfl, rfl, rfl, id⟩
  · exact ⟨rfl, rfl, rfl, rfl, id⟩

theorem setShouldSeal_books (sd : SortData) : SameBooks sd sd.setShouldSeal :=
  ⟨rfl, rfl, rfl, rfl, fun hflag => by cases hflag⟩

end SortData

namespace SortHistory

open SortData (SameBooks)

variable {config : SequencerConfig} {gasLimit : Nat} {h h' : SortHistory}

/-! ### The books of a block -/

/-- The fields of the block agree with the results that were applied to it. -/
structure Books (config : SequencerConfig) (gasLimit : Nat) (h : SortHistory) : Prop where
  orders : h.sd.orders = h.applied.map (·.order)
  gas : h.sd.gasRemaining + (h.applied.map (·.gasUsed)).sum = gasLimit
  best : ∀ v, h.sd.nextBest = some v → v.gasUsed ≤ h.sd.gasRemaining
  size : h.sd.uncompressedSize = totalSize h.sd.orders
  /-- a block that is too big is to be sealed -/
  room : h.sd.sealFlag = false →
    config.estimateCompressedSize h.sd.uncompressedSize ≤ h.sd.maxBlockSize
  fits : config.estimateCompressedSize (totalSize h.sd.orders.dropLast) ≤ h.sd.maxBlockSize

namespace Books

/-- A block without orders fits, as the estimate of nothing is nothing. -/
theorem start {sd : SortData} {pending : List Spawned} {used : List StateId}
    (hzero : config.estimateCompressedSize 0 = 0) (horders : sd.orders = [])
    (hgas : sd.gasRemaining = gasLimit) (hbest : sd.nextBest = none)
    (hsize : sd.uncompressedSize = 0) :
    Books config gasLimit (SortHistory.start sd pending used) where
  orders := horders
  gas := hgas
  best := fun v hv => by cases hbest.symm.trans hv
  size := by
    show sd.uncompressedSize = totalSize sd.orders
    rw [hsize, horders]
    rfl
  room := fun _ => by
    show config.estimateCompressedSize sd.uncompressedSize ≤ _
    rw [hsize, hzero]
    exact Nat.zero_le _
  fits := by
    show config.estimateCompressedSize (totalSize sd.orders.dropLast) ≤ _
    rw [horders]
    exact hzero.trans_le (Nat.zero_le _)

theorem congr (hb : Books config gasLimit h) (hsame : SameBooks h.sd h'.sd)
    (happlied : h'.applied = h.applied)
    (hbest : ∀ v, h'.sd.nextBest = some v → v.gasUsed ≤ h.sd.gasRemaining) :
    Books config gasLimit h' := by
  constructor
  · rw [hsame.orders, happlied]
    exact hb.orders
  · rw [hsame.gasRemaining, happlied]
    exact hb.gas
  · rw [hsame.gasRemaining]
    exact hbest
  · rw [hsame.uncompressedSize, hsame.orders]
    exact hb.size
  · rw [hsame.uncompressedSize, hsame.maxBlockSize]
    exact fun hflag => hb.room (hsame.sealFlag hflag)
  · rw [hsame.orders, hsame.maxBlockSize]
    exact hb.fits

theorem newTx {order : Order} (hb : Books config gasLimit h) (hstep : h.newTx order = .ok h') :
    Books config gasLimit h' := by
  obtain ⟨sd, hsd, hok⟩ := Except.bind_eq_ok_iff.mp hstep
  cases hok
  have hbest : sd.nextBest = h.sd.nextBest := (SortData.handleNewTx_same hsd).2
  exact hb.congr (SortData.handleNewTx_books hsd) rfl fun v hv => hb.best v (hbest.symm.trans hv)

theorem sealEarly (hb : Books config gasLimit h) : Books config gasLimit h.sealEarly :=
  hb.congr (SortData.setShouldSeal_books h.sd) rfl hb.best

/-- An answer changes the best result at most, and to one there is gas for. -/
theorem answer {sim : SimulatedOrder} (hb : Books config gasLimit h)
    (hstep : h.answer sim = .ok h') : Books config gasLimit h' := by
  obtain ⟨sd, hsd, hok⟩ := Except.bind_eq_ok_iff.mp hstep
  cases hok
  refine hb.congr (SortData.handleSim_books hsd) rfl ?_
  rcases SortData.handleSim_cases hsd with - | ⟨reason, -, -⟩ | ⟨-, -, -⟩ |
    ⟨activeOrders, -, -, hgas, -⟩ | ⟨activeOrders, -, -, -⟩
  · exact hb.best
  · have hbest := (SortData.handleInvalid_same h.sd.answered sim.order reason).2
    exact fun v hv => hb.best v (hbest.symm.trans hv)
  · exact hb.best
  · intro v hv
    cases hv
    exact hgas
  · exact hb.best

/-- Applying a result enters it into the books.  It is applied only while the
block is not to be sealed, so what was there before fits. -/
theorem apply {sd : SortData} (hb : Books config gasLimit h) (hflag : h.sd.sealFlag = false)
    (happly : SortData.ApplyStep config h.sd sd) :
    Books config gasLimit { h with sd := sd, applied := h.applied ++ h.sd.nextBest.toList } := by
  cases happly with
  | nothing hbest =>
      rw [hbest, Option.toList_none, List.append_nil]
      exact hb
  | applied next hbest horigin hgas =>
      rw [hbest, Option.toList_some]
      constructor
      · show h.sd.orders ++ [next.order] = _
        rw [hb.orders, List.map_append]
        rfl
      · show h.sd.gasRemaining - next.gasUsed + _ = gasLimit
        have hsum := hb.gas
        rw [List.map_append, List.sum_append, List.map_singleton, List.sum_singleton]
        omega
      -- the result is used up
      · intro v hv
        cases hv
      · show h.sd.uncompressedSize + next.order.raw.length = totalSize (h.sd.orders ++ [next.order])
        rw [totalSize_append, hb.size]
      · intro hkept
        have hsize := (Bool.or_eq_false_iff.mp hkept).2
        exact Nat.le_of_not_lt (of_decide_eq_false hsize)
      -- without the last order the block is the one before, which had room
      · show config.estimateCompressedSize (totalSize (h.sd.orders ++ [next.order]).dropLast) ≤ _
        rw [List.dropLast_concat, ← hb.size]
        exact hb.room hflag

theorem round {now : Instant} (hb : Books config gasLimit h)
    (hstep : h.round config now = .ok h') : Books config gasLimit h' := by
  cases round_step hstep with
  | idle hidle => exact hb
  | waiting hidle happly hwait =>
      exact hb.apply (SortData.sealFlag_of_shouldSeal (SortData.not_idle hidle).2) happly
  | sent hidle happly hwait =>
      have hb' := hb.apply (SortData.sealFlag_of_shouldSeal (SortData.not_idle hidle).2) happly
      exact hb'.congr ⟨rfl, rfl, rfl, rfl, id⟩ rfl hb'.best

end Books

/-- **A round does not abort**: the result it applies was simulated on the
current state, and there is gas for it. -/
theorem maybeSimNextBatch_ok (hf : Flights h) (hb : Books config gasLimit h) (now : Instant) :
    ∃ r, h.sd.maybeSimNextBatch config now = .ok r := by
  have happly : ∃ sd, SortData.maybeApplyNext config h.sd = .ok sd := by
    simp only [SortData.maybeApplyNext]
    split
    · exact ⟨_, rfl⟩
    · rename_i next hbest
      have hvalid : h.sd.isValid next.originStateId = true := by
        rw [SortData.isValid, (hf.best next hbest).1]
        exact decide_eq_true rfl
      rw [hvalid, if_neg (by decide), if_neg (Nat.not_lt.mpr (hb.best next hbest))]
      exact ⟨_, rfl⟩
  obtain ⟨sd, hsd⟩ := happly
  simp only [SortData.maybeSimNextBatch]
  split
  · exact ⟨_, rfl⟩
  · rw [hsd]
    show ∃ r, (if sd.waitingForNewTxs then _ else _) = _
    split <;> exact ⟨_, rfl⟩

end SortHistory

end TaikoGateway
