/-
TaikoGateway/Lib/Ancestry.lean

Ancestors in a tree of blocks.  A block is known by its number and its hash,
and `parent` gives the hash of its parent; so the ancestor of a block at a
lower number is found by as many steps as there are numbers in between.
`Ancestor` is reflexive and transitive, and a block has one ancestor of each
number.
-/
import Mathlib

/-- The number and the hash of a block. -/
structure BlockId (η : Type*) where
  number : Nat
  hash : η

namespace BlockId

variable {η : Type*} {parent : η → η} {a b c : BlockId η}

/-- `a` is `b`, or on the way from `b` to the root. -/
def Ancestor (parent : η → η) (a b : BlockId η) : Prop :=
  a.number ≤ b.number ∧ parent^[b.number - a.number] b.hash = a.hash

instance [DecidableEq η] (parent : η → η) (a b : BlockId η) : Decidable (Ancestor parent a b) :=
  inferInstanceAs (Decidable (_ ∧ _))

/-- `b` is one above `a`, which is its parent. -/
def Child (parent : η → η) (a b : BlockId η) : Prop :=
  a.number + 1 = b.number ∧ parent b.hash = a.hash

namespace Ancestor

theorem refl (parent : η → η) (a : BlockId η) : Ancestor parent a a :=
  ⟨le_rfl, by rw [Nat.sub_self, Function.iterate_zero_apply]⟩

theorem trans (hab : Ancestor parent a b) (hbc : Ancestor parent b c) : Ancestor parent a c := by
  refine ⟨hab.1.trans hbc.1, ?_⟩
  have hsteps : c.number - a.number = (b.number - a.number) + (c.number - b.number) := by
    have := hab.1
    have := hbc.1
    omega
  rw [hsteps, Function.iterate_add_apply, hbc.2, hab.2]

theorem of_child (h : Child parent a b) : Ancestor parent a b := by
  refine ⟨by have := h.1; omega, ?_⟩
  rw [show b.number - a.number = 1 by have := h.1; omega, Function.iterate_one, h.2]

/-- An ancestor of the parent is an ancestor of the child. -/
theorem child (hab : Ancestor parent a b) (hbc : Child parent b c) : Ancestor parent a c :=
  hab.trans (of_child hbc)

end Ancestor

end BlockId
