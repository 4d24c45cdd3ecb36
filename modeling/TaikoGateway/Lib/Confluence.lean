/-
TaikoGateway/Lib/Confluence.lean

Folds that do not depend on the order of their inputs.

* `foldl_perm` is the rule: the steps of two inputs may be exchanged wherever
  an invariant holds that also speaks of the inputs still to come.
* `keep` is a running maximum, and `loser` is what a comparison with it leaves
  over; an input may be nothing.  With distinct weights the maximum is the same
  in either order (`keep_comm`), and the two losers are exchanged, or are the
  same (`losers_comm`).  `isBest_foldl_keep` says what the maximum is.
-/
import Mathlib

namespace Confluence

variable {σ ι α : Type*}

/-! ### The rule -/

/-- **Confluence.**  A fold gives the same for the inputs in any order. -/
theorem foldl_perm {f : σ → ι → σ} (Inv : σ → List ι → Prop)
    (hperm : ∀ s is js, is.Perm js → Inv s is → Inv s js)
    (hstep : ∀ s i is, Inv s (i :: is) → Inv (f s i) is)
    (hswap : ∀ s i j is, Inv s (i :: j :: is) → f (f s i) j = f (f s j) i)
    {is js : List ι} (h : is.Perm js) {s : σ} (hs : Inv s is) :
    is.foldl f s = js.foldl f s := by
  induction h generalizing s with
  | nil => rfl
  | cons i h ih => exact ih (hstep s i _ hs)
  | swap i j is =>
      show is.foldl f (f (f s j) i) = is.foldl f (f (f s i) j)
      rw [hswap s j i is hs]
  | trans h h' ih ih' => exact (ih hs).trans (ih' (hperm s _ _ h hs))

/-! ### Running maximum -/

variable (weight : α → Nat)

/-- The heavier one; the old one if they are equal. -/
def keep : Option α → Option α → Option α
  | best, none => best
  | none, some a => some a
  | some b, some a => if weight b < weight a then some a else some b

/-- The one that is not kept. -/
def loser : Option α → Option α → Option α
  | _, none => none
  | none, some _ => none
  | some b, some a => if weight b < weight a then some b else some a

variable {weight} {best x y : Option α}

@[simp] theorem keep_none (best : Option α) : keep weight best none = best := by
  cases best <;> rfl

@[simp] theorem loser_none (best : Option α) : loser weight best none = none := by
  cases best <;> rfl

theorem keep_comm (h : ∀ a b, x = some a → y = some b → weight a ≠ weight b) :
    keep weight (keep weight best x) y = keep weight (keep weight best y) x := by
  rcases x with - | a
  · simp
  rcases y with - | b
  · simp
  have hne := h a b rfl rfl
  rcases best with - | c
  · simp only [keep]
    split
    · rw [if_neg (by omega)]
    · rw [if_pos (by omega)]
  · by_cases ha : weight c < weight a
    · by_cases hb : weight c < weight b
      · simp only [keep, if_pos ha, if_pos hb]
        split
        · rw [if_neg (by omega)]
        · rw [if_pos (by omega)]
      · simp only [keep, if_pos ha, if_neg hb]
        rw [if_neg (by omega)]
    · by_cases hb : weight c < weight b
      · simp only [keep, if_neg ha, if_pos hb]
        rw [if_neg (by omega)]
      · simp only [keep, if_neg ha, if_neg hb]

theorem losers_comm (h : ∀ a b, x = some a → y = some b → weight a ≠ weight b) :
    (loser weight best x = loser weight (keep weight best y) x ∧
        loser weight (keep weight best x) y = loser weight best y) ∨
      (x.isSome ∧ y.isSome ∧ loser weight best x = loser weight best y ∧
        loser weight (keep weight best x) y = loser weight (keep weight best y) x) := by
  rcases x with - | a
  · simp
  rcases y with - | b
  · simp
  have hne := h a b rfl rfl
  rcases best with - | c
  -- with nothing kept before, there is one loser, the lighter one
  · refine Or.inr ⟨rfl, rfl, rfl, ?_⟩
    simp only [keep, loser]
    split
    · rw [if_neg (by omega)]
    · rw [if_pos (by omega)]
  · by_cases ha : weight c < weight a
    · by_cases hb : weight c < weight b
      -- both beat the old one, which loses first either way
      · refine Or.inr ⟨rfl, rfl, ?_⟩
        simp only [keep, loser, if_pos ha, if_pos hb, true_and]
        split
        · rw [if_neg (by omega)]
        · rw [if_pos (by omega)]
      · left
        simp only [keep, loser, if_pos ha, if_neg hb, true_and]
        rw [if_neg (by omega)]
    · by_cases hb : weight c < weight b
      · left
        simp only [keep, loser, if_neg ha, if_pos hb, and_true]
        rw [if_neg (by omega)]
      · left
        simp only [keep, loser, if_neg ha, if_neg hb, and_self]

theorem keep_eq_or (best x : Option α) : keep weight best x = best ∨ keep weight best x = x := by
  rcases x with - | a
  · exact Or.inl (keep_none best)
  rcases best with - | b
  · exact Or.inr rfl
  · simp only [keep]
    split
    · exact Or.inr rfl
    · exact Or.inl rfl

/-- The one that is left over is the old one or the new one. -/
theorem loser_eq_some {c : α} (h : loser weight best x = some c) :
    x.isSome ∧ (best = some c ∨ x = some c) := by
  rcases x with - | a
  · rw [loser_none] at h
    cases h
  rcases best with - | b
  · cases h
  · simp only [loser] at h
    split at h
    · exact ⟨rfl, Or.inl h⟩
    · exact ⟨rfl, Or.inr h⟩

/-- The best of a list: an element of the greatest weight, if there is one. -/
structure IsBest (weight : α → Nat) (as : List α) (best : Option α) : Prop where
  empty : best = none → as = []
  mem : ∀ a, best = some a → a ∈ as
  le : ∀ a, best = some a → ∀ b ∈ as, weight b ≤ weight a

theorem isBest_toList (best : Option α) : IsBest weight best.toList best := by
  rcases best with - | b
  · exact ⟨fun _ => rfl, fun a h => (by cases h), fun a h => (by cases h)⟩
  · refine ⟨fun h => (by cases h), fun a h => ?_, fun a h c hc => ?_⟩
    · cases h
      exact List.mem_singleton_self b
    · cases h
      rw [List.mem_singleton.mp hc]

theorem IsBest.keep {as : List α} (h : IsBest weight as best) (x : Option α) :
    IsBest weight (as ++ x.toList) (keep weight best x) := by
  rcases x with - | a
  · rw [keep_none]
    simpa using h
  rcases best with - | b
  · rw [h.empty rfl]
    exact isBest_toList (some a)
  have hb := h.mem b rfl
  have hle := h.le b rfl
  simp only [Confluence.keep]
  split
  · rename_i hlt
    refine ⟨fun h => (by cases h), fun c hc => ?_, fun c hc d hd => ?_⟩
    · cases hc
      exact List.mem_append_right _ (List.mem_singleton_self a)
    · cases hc
      rcases List.mem_append.mp hd with hd | hd
      · exact Nat.le_of_lt (Nat.lt_of_le_of_lt (hle d hd) hlt)
      · rw [List.mem_singleton.mp hd]
  · rename_i hge
    refine ⟨fun h => (by cases h), fun c hc => ?_, fun c hc d hd => ?_⟩
    · cases hc
      exact List.mem_append_left _ hb
    · cases hc
      rcases List.mem_append.mp hd with hd | hd
      · exact hle d hd
      · rw [List.mem_singleton.mp hd]
        exact Nat.le_of_not_lt hge

/-- **The running maximum** is the best of what was there and what came. -/
theorem isBest_foldl_keep (xs : List (Option α)) {as : List α} (h : IsBest weight as best) :
    IsBest weight (as ++ xs.reduceOption) (xs.foldl (Confluence.keep weight) best) := by
  induction xs generalizing as best with
  | nil =>
      rw [List.reduceOption_nil, List.append_nil]
      exact h
  | cons x xs ih =>
      have hnext := ih (h.keep x)
      rw [List.append_assoc] at hnext
      rcases x with - | a
      · exact hnext
      · exact hnext

end Confluence
