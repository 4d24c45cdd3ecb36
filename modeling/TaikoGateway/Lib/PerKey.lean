/-
TaikoGateway/Lib/PerKey.lean

Lists in which every key counts up by one.  The elements have a key and a
number; `Consecutive` says that the numbers of each key, read in the order of
the list, are consecutive, whatever stands between them.

Such a list grows at its end by elements with the `next` number of their key
(`Consecutive.append`), and no element has the key and number of another
(`Consecutive.nodup`).  Elements and keys are arbitrary.
-/
import Mathlib

namespace PerKey

variable {α κ : Type*} [DecidableEq κ] (key : α → κ) (num : α → Nat)

/-- The numbers of one key. -/
def numbersOf (k : κ) (xs : List α) : List Nat := (xs.filter fun x => key x = k).map num

/-- The number behind the last one of the key, if there is one. -/
def next (k : κ) (xs : List α) : Option Nat := (numbersOf key num k xs).getLast?.map (· + 1)

/-- The numbers of every key are consecutive. -/
def Consecutive (xs : List α) : Prop :=
  ∀ k, (numbersOf key num k xs).IsChain fun a b => b = a + 1

variable {key num} {xs : List α}

theorem numbersOf_append (k : κ) (x : α) :
    numbersOf key num k (xs ++ [x]) =
      if key x = k then numbersOf key num k xs ++ [num x] else numbersOf key num k xs := by
  by_cases hx : key x = k <;> simp [numbersOf, hx]

theorem next_append (k : κ) (x : α) :
    next key num k (xs ++ [x]) = if key x = k then some (num x + 1) else next key num k xs := by
  rw [next, numbersOf_append]
  by_cases hx : key x = k
  · rw [if_pos hx, if_pos hx, List.getLast?_append]
    rfl
  · rw [if_neg hx, if_neg hx, next]

theorem consecutive_nil : Consecutive key num [] := fun _ => .nil

/-- An element with the next number of its key can be appended. -/
theorem Consecutive.append (h : Consecutive key num xs) {x : α}
    (hx : ∀ n, next key num (key x) xs = some n → num x = n) :
    Consecutive key num (xs ++ [x]) := by
  intro k
  rw [numbersOf_append]
  by_cases hk : key x = k
  · subst hk
    rw [if_pos rfl]
    apply (h (key x)).append (.singleton _)
    intro a ha b hb
    have hnext : next key num (key x) xs = some (a + 1) := by
      rw [next, Option.mem_def.mp ha]
      rfl
    cases hb
    exact hx (a + 1) hnext
  · rw [if_neg hk]
    exact h k

/-- Numbers that count up do not repeat. -/
theorem nodup_of_isChain {ns : List Nat} (h : ns.IsChain fun a b => b = a + 1) : ns.Nodup := by
  have hlt : ns.IsChain (· < ·) := h.imp fun a b hab => by omega
  exact hlt.pairwise.imp fun hab => Nat.ne_of_lt hab

theorem mem_numbersOf {x : α} (hx : x ∈ xs) : num x ∈ numbersOf key num (key x) xs :=
  List.mem_map_of_mem (List.mem_filter.mpr ⟨hx, by simp⟩)

/-- **No key has a number twice.** -/
theorem Consecutive.nodup (h : Consecutive key num xs) :
    (xs.map fun x => (key x, num x)).Nodup := by
  induction xs with
  | nil => exact List.nodup_nil
  | cons x xs ih =>
      have hcons : ∀ k, numbersOf key num k (x :: xs) =
          if key x = k then num x :: numbersOf key num k xs else numbersOf key num k xs := by
        intro k
        by_cases hk : key x = k <;> simp [numbersOf, hk]
      have htail : Consecutive key num xs := by
        intro k
        have hk := h k
        rw [hcons] at hk
        split at hk
        · exact hk.tail
        · exact hk
      rw [List.map_cons, List.nodup_cons]
      refine ⟨fun hmem => ?_, ih htail⟩
      obtain ⟨y, hy, heq⟩ := List.mem_map.mp hmem
      obtain ⟨hkey, hnum⟩ := Prod.mk.inj heq
      have hhead := nodup_of_isChain (h (key x))
      rw [hcons, if_pos rfl, List.nodup_cons] at hhead
      apply hhead.1
      rw [← hnum, ← hkey]
      exact mem_numbersOf hy

end PerKey
