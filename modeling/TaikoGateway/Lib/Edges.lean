/-
TaikoGateway/Lib/Edges.lean

Two detectors for a property of the entries of a list.

`rises` reports where the property starts to hold: it holds of the entry, and
the entry before is missing or does not have it (`Starts`).  `latch` reports
where it holds for the first time, and nothing after that.  They agree exactly
on the lists where the property holds on one stretch only (`Once`,
`latch_eq_rises_iff`).
-/
import Mathlib

namespace Edges

variable {α : Type*} (p : α → Prop) [DecidablePred p]

/-- Where `p` starts to hold; `before` says whether it held before the list. -/
def rises : Bool → List α → List Bool
  | _, [] => []
  | before, x :: xs => (decide (p x) && !before) :: rises (decide (p x)) xs

/-- Where `p` holds for the first time, unless this is `done`. -/
def latch : Bool → List α → List Bool
  | _, [] => []
  | done, x :: xs => (decide (p x) && !done) :: latch (done || decide (p x)) xs

/-- `p` starts to hold at this place. -/
def Starts (p : α → Prop) (xs : List α) (i : Nat) : Prop :=
  ∃ x, xs[i]? = some x ∧ p x ∧ (i = 0 ∨ ∃ y, xs[i - 1]? = some y ∧ ¬ p y)

/-- `p` holds on one stretch only: not again once it has ended. -/
def Once (p : α → Prop) (xs : List α) : Prop :=
  ∀ a b c, List.Sublist [a, b, c] xs → p a → ¬ p b → ¬ p c

variable {p}

@[simp] theorem length_rises (before : Bool) (xs : List α) :
    (rises p before xs).length = xs.length := by
  induction xs generalizing before with
  | nil => rfl
  | cons x xs ih => exact congrArg (· + 1) (ih _)

@[simp] theorem length_latch (done : Bool) (xs : List α) :
    (latch p done xs).length = xs.length := by
  induction xs generalizing done with
  | nil => rfl
  | cons x xs ih => exact congrArg (· + 1) (ih _)

theorem rises_iff {xs : List α} : ∀ {before : Bool} {i : Nat},
    (rises p before xs)[i]? = some true ↔
      ∃ x, xs[i]? = some x ∧ p x ∧
        (i = 0 ∧ before = false ∨ ∃ y, 0 < i ∧ xs[i - 1]? = some y ∧ ¬ p y) := by
  induction xs with
  | nil => simp [rises]
  | cons x xs ih =>
      intro before i
      cases i with
      | zero => simp [rises]
      | succ i =>
          rw [rises, List.getElem?_cons_succ, ih]
          cases i with
          | zero => simp
          | succ i => simp

/-- What `rises` reports. -/
theorem rises_iff_starts {xs : List α} {i : Nat} :
    (rises p false xs)[i]? = some true ↔ Starts p xs i := by
  rw [rises_iff]
  cases i <;> simp [Starts]

/-! ### When the detectors agree -/

/-- After the stretch nothing may follow. -/
theorem latch_true_eq_rises_false_iff {xs : List α} :
    latch p true xs = rises p false xs ↔ ∀ c ∈ xs, ¬ p c := by
  induction xs with
  | nil => simp [latch, rises]
  | cons x xs ih =>
      rw [latch, rises, List.forall_mem_cons, List.cons.injEq]
      by_cases hx : p x
      · simp [hx]
      · simp [hx, ih]

/-- In the stretch it may end once. -/
theorem latch_true_eq_rises_true_iff {xs : List α} :
    latch p true xs = rises p true xs ↔ ∀ b c, List.Sublist [b, c] xs → ¬ p b → ¬ p c := by
  induction xs with
  | nil => simp [latch, rises]
  | cons x xs ih =>
      rw [latch, rises, List.cons.injEq]
      by_cases hx : p x
      · simp only [hx, Bool.not_true, Bool.and_false, Bool.true_or, decide_true, true_and, ih]
        constructor
        · intro h b c hsub hb
          rcases List.cons_sublist_cons'.mp hsub with hsub | ⟨rfl, -⟩
          · exact h b c hsub hb
          · exact absurd hx hb
        · intro h b c hsub
          exact h b c (hsub.cons x)
      · simp only [hx, Bool.not_true, Bool.and_false, Bool.true_or, decide_false, true_and,
          latch_true_eq_rises_false_iff]
        constructor
        · intro h b c hsub _
          rcases List.cons_sublist_cons'.mp hsub with hsub | ⟨-, hsub⟩
          · exact h c (hsub.subset (by simp))
          · exact h c (List.singleton_sublist.mp hsub)
        · intro h c hc
          exact h x c (List.cons_sublist_cons.mpr (List.singleton_sublist.mpr hc)) hx

/-- **A latch sees every rise exactly if there is one stretch.** -/
theorem latch_eq_rises_iff {xs : List α} : latch p false xs = rises p false xs ↔ Once p xs := by
  induction xs with
  | nil => simp [latch, rises, Once]
  | cons x xs ih =>
      rw [latch, rises, List.cons.injEq]
      by_cases hx : p x
      · simp only [hx, Bool.false_or, decide_true, true_and, latch_true_eq_rises_true_iff]
        constructor
        · intro h a b c hsub _
          rcases List.cons_sublist_cons'.mp hsub with hsub | ⟨-, hsub⟩
          · exact h b c ((List.sublist_cons_self a [b, c]).trans hsub)
          · exact h b c hsub
        · intro h b c hsub
          exact h x b c (List.cons_sublist_cons.mpr hsub) hx
      · simp only [hx, Bool.false_or, decide_false, true_and, ih]
        constructor
        · intro h a b c hsub ha
          rcases List.cons_sublist_cons'.mp hsub with hsub | ⟨rfl, -⟩
          · exact h a b c hsub ha
          · exact absurd ha hx
        · intro h a b c hsub
          exact h a b c (hsub.cons x)

/-- Place by place. -/
theorem latch_iff_starts {xs : List α} :
    (∀ i, (latch p false xs)[i]? = some true ↔ Starts p xs i) ↔ Once p xs := by
  rw [← latch_eq_rises_iff]
  constructor
  · intro h
    apply List.ext_getElem (by simp)
    intro i hi hi'
    have hsame := (h i).trans rises_iff_starts.symm
    rw [List.getElem?_eq_getElem hi, List.getElem?_eq_getElem hi', Option.some.injEq,
      Option.some.injEq] at hsame
    exact Bool.eq_iff_iff.mpr hsame
  · intro h i
    rw [h]
    exact rises_iff_starts

end Edges
