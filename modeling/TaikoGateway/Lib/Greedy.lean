/-
TaikoGateway/Lib/Greedy.lean

Greedy splitting.  A list is cut into groups from left to right: an element
joins the open group unless that is `full` for it; then it starts a new one.

`split` takes the open group with it, which may be empty at the start, and the
groups it returns are all nonempty if that one is not.  Besides giving back
the list (`flatten_split`) the groups are as long as `full` lets them be: no
element joined a full group (`Fits`), and none started a group without need
(`isChain_split`).
-/
import Mathlib

namespace Greedy

variable {α : Type*} (full : List α → α → Prop)

/-- Every element but the first joined a group that was not full for it. -/
def Fits (g : List α) : Prop := ∀ pre a post, g = pre ++ a :: post → pre ≠ [] → ¬ full pre a

variable {full}

theorem fits_nil : Fits full [] := by
  intro pre a post h
  cases pre <;> cases h

theorem fits_single (a : α) : Fits full [a] := by
  intro pre b post h hpre
  obtain ⟨c, pre, rfl⟩ := List.exists_cons_of_ne_nil hpre
  have hlength := congrArg List.length h
  simp at hlength

theorem Fits.concat {g : List α} {a : α} (h : Fits full g) (ha : g ≠ [] → ¬ full g a) :
    Fits full (g ++ [a]) := by
  intro pre b post heq hpre
  cases post using List.reverseRecOn with
  | nil =>
      obtain ⟨rfl, hab⟩ := List.append_inj' heq rfl
      cases hab
      exact ha hpre
  | append_singleton post c =>
      rw [← List.cons_append, ← List.append_assoc] at heq
      obtain ⟨rfl, -⟩ := List.append_inj' heq rfl
      exact h pre b post rfl hpre

variable (full) [∀ g a, Decidable (full g a)]

/-- The groups, from the open group `cur` on. -/
def split : List α → List α → List (List α)
  | cur, [] => [cur]
  | cur, a :: as => if full cur a then cur :: split [a] as else split (cur ++ [a]) as

variable {full}

theorem flatten_split (as : List α) : ∀ cur, (split full cur as).flatten = cur ++ as := by
  induction as with
  | nil =>
      intro cur
      simp [split]
  | cons a as ih =>
      intro cur
      rw [split]
      split
      · rw [List.flatten_cons, ih, List.singleton_append]
      · rw [ih, List.append_assoc, List.singleton_append]

theorem ne_nil_of_mem_split (as : List α) :
    ∀ {cur}, cur ≠ [] → ∀ g ∈ split full cur as, g ≠ [] := by
  induction as with
  | nil =>
      intro cur hcur g hg
      rwa [List.mem_singleton.mp hg]
  | cons a as ih =>
      intro cur hcur g hg
      rw [split] at hg
      split at hg
      · rcases List.mem_cons.mp hg with rfl | hg
        · exact hcur
        · exact ih (List.cons_ne_nil a []) g hg
      · exact ih (List.append_ne_nil_of_right_ne_nil cur (List.cons_ne_nil a [])) g hg

/-- The first group goes on with the open one. -/
theorem exists_split_eq (as : List α) :
    ∀ cur, ∃ more rest, split full cur as = (cur ++ more) :: rest := by
  induction as with
  | nil =>
      intro cur
      exact ⟨[], [], by simp [split]⟩
  | cons a as ih =>
      intro cur
      rw [split]
      split
      · exact ⟨[], split full [a] as, by rw [List.append_nil]⟩
      · obtain ⟨more, rest, h⟩ := ih (cur ++ [a])
        exact ⟨a :: more, rest, by rw [h, List.append_assoc, List.singleton_append]⟩

theorem fits_of_mem_split (as : List α) :
    ∀ {cur}, Fits full cur → ∀ g ∈ split full cur as, Fits full g := by
  induction as with
  | nil =>
      intro cur hcur g hg
      rwa [List.mem_singleton.mp hg]
  | cons a as ih =>
      intro cur hcur g hg
      rw [split] at hg
      split at hg
      · rcases List.mem_cons.mp hg with rfl | hg
        · exact hcur
        · exact ih (fits_single a) g hg
      · rename_i hroom
        exact ih (hcur.concat fun _ => hroom) g hg

/-- A group is started only by an element for which the group before it is
full. -/
theorem isChain_split (as : List α) :
    ∀ cur, (split full cur as).IsChain fun g g' => ∃ a, g'.head? = some a ∧ full g a := by
  induction as with
  | nil =>
      intro cur
      exact List.isChain_singleton _
  | cons a as ih =>
      intro cur
      rw [split]
      split
      · rename_i hfull
        obtain ⟨more, rest, h⟩ := @exists_split_eq _ full _ as [a]
        have hrest := ih [a]
        rw [h] at hrest ⊢
        exact List.isChain_cons_cons.mpr ⟨⟨a, rfl, hfull⟩, hrest⟩
      · exact ih _

end Greedy
