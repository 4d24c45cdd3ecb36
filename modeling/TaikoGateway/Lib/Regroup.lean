/-
TaikoGateway/Lib/Regroup.lean

Regrouping a list through an ordered map: elements are collected under a key,
each group in the order of the list, and the groups are read back in the order
of the keys.

A regrouped list is sorted by key and has, for every key, the same elements in
the same order as the list it came from (`pairwise_regroup`,
`filter_regroup`).  These two facts determine it (`eq_of_pairwise_of_filter`),
so regrouping changes nothing exactly when the keys did not decrease
(`regroup_eq_self_iff`).
-/
import Mathlib

namespace Regroup

variable {α : Type} {key : α → Nat}

/-- Adds `x` behind the other elements of its group. -/
def push (key : α → Nat) (m : Std.ExtTreeMap Nat (List α)) (x : α) : Std.ExtTreeMap Nat (List α) :=
  m.alter (key x) fun group => some (group.getD [] ++ [x])

/-- The groups of `xs`. -/
def groups (key : α → Nat) (xs : List α) : Std.ExtTreeMap Nat (List α) := xs.foldl (push key) ∅

/-- The groups, one after the other. -/
def flatten (m : Std.ExtTreeMap Nat (List α)) : List α := m.toList.flatMap Prod.snd

def regroup (key : α → Nat) (xs : List α) : List α := flatten (groups key xs)

/-! ### The groups -/

theorem groups_append_singleton (xs : List α) (x : α) :
    groups key (xs ++ [x]) = push key (groups key xs) x := by
  rw [groups, List.foldl_append]
  rfl

/-- The group of a key: the elements with that key, in order. -/
theorem getElem?_groups (xs : List α) (k : Nat) :
    (groups key xs)[k]? =
      if xs.filter (fun x => key x = k) = [] then none
      else some (xs.filter fun x => key x = k) := by
  induction xs using List.reverseRecOn with
  | nil => simp [groups]
  | append_singleton xs x ih =>
      rw [groups_append_singleton, push, Std.ExtTreeMap.getElem?_alter]
      by_cases hk : key x = k
      · subst hk
        rw [if_pos (compare_eq_iff_eq.mpr rfl), ih, List.filter_append]
        by_cases hnil : xs.filter (fun y => key y = key x) = []
        · simp [hnil]
        · simp [hnil]
      · rw [if_neg (fun h => hk (compare_eq_iff_eq.mp h)), ih, List.filter_append]
        simp [hk]

theorem getElem?_groups_eq_some {xs group : List α} {k : Nat}
    (h : (groups key xs)[k]? = some group) :
    group = xs.filter (fun x => key x = k) ∧ group ≠ [] := by
  rw [getElem?_groups] at h
  split at h
  · cases h
  · next hne =>
      obtain rfl := Option.some.inj h
      exact ⟨rfl, hne⟩

/-- A group of the map, with its key. -/
theorem mem_toList_groups {xs group : List α} {k : Nat}
    (h : (k, group) ∈ (groups key xs).toList) :
    group = xs.filter (fun x => key x = k) ∧ group ≠ [] :=
  getElem?_groups_eq_some (Std.ExtTreeMap.mem_toList_iff_getElem?_eq_some.mp h)

/-! ### The regrouped list -/

/-- The keys of a list of groups increase, and each group has its key. -/
def Keyed (key : α → Nat) (gs : List (Nat × List α)) : Prop :=
  gs.Pairwise (fun a b => a.1 < b.1) ∧ ∀ g ∈ gs, ∀ x ∈ g.2, key x = g.1

theorem keyed_groups (xs : List α) : Keyed key (groups key xs).toList := by
  constructor
  · exact Std.ExtTreeMap.ordered_keys_toList.imp fun h => compare_lt_iff_lt.mp h
  · intro g hg x hx
    obtain ⟨heq, -⟩ := mem_toList_groups hg
    rw [heq] at hx
    simpa using (List.mem_filter.mp hx).2

/-- Groups with increasing keys make a list sorted by key. -/
theorem Keyed.pairwise {gs : List (Nat × List α)} (h : Keyed key gs) :
    (gs.flatMap Prod.snd).Pairwise (fun x y => key x ≤ key y) := by
  obtain ⟨hord, hkey⟩ := h
  induction gs with
  | nil => exact List.Pairwise.nil
  | cons g gs ih =>
      rw [List.pairwise_cons] at hord
      rw [List.flatMap_cons, List.pairwise_append]
      refine ⟨?_, ih hord.2 fun g' hg' => hkey g' (List.mem_cons_of_mem _ hg'), ?_⟩
      · apply List.pairwise_of_forall_mem_list
        intro x hx y hy
        rw [hkey g List.mem_cons_self x hx, hkey g List.mem_cons_self y hy]
      · intro x hx y hy
        obtain ⟨g', hg', hy'⟩ := List.mem_flatMap.mp hy
        rw [hkey g List.mem_cons_self x hx, hkey g' (List.mem_cons_of_mem _ hg') y hy']
        exact (hord.1 g' hg').le

theorem pairwise_regroup (key : α → Nat) (xs : List α) :
    (regroup key xs).Pairwise (fun x y => key x ≤ key y) :=
  (keyed_groups xs).pairwise

/-- Selecting a key from groups with increasing keys finds its group. -/
theorem Keyed.filter {gs : List (Nat × List α)} (h : Keyed key gs) {k : Nat} {group : List α}
    (hmem : (k, group) ∈ gs) : (gs.flatMap Prod.snd).filter (fun x => key x = k) = group := by
  obtain ⟨hord, hkey⟩ := h
  -- groups with other keys contribute nothing
  have hother : ∀ gs' : List (Nat × List α), (∀ g ∈ gs', g.1 ≠ k ∧ ∀ x ∈ g.2, key x = g.1) →
      (gs'.flatMap Prod.snd).filter (fun x => key x = k) = [] := by
    intro gs' hne
    rw [List.filter_eq_nil_iff]
    intro x hx
    obtain ⟨g, hg, hxg⟩ := List.mem_flatMap.mp hx
    simpa [(hne g hg).2 x hxg] using (hne g hg).1
  have hself : group.filter (fun x => key x = k) = group :=
    List.filter_eq_self.mpr fun x hx => by simpa using hkey _ hmem x hx
  obtain ⟨pre, post, rfl⟩ := List.append_of_mem hmem
  rw [List.pairwise_append, List.pairwise_cons] at hord
  rw [List.flatMap_append, List.flatMap_cons, List.filter_append, List.filter_append, hself,
    hother pre, hother post, List.nil_append, List.append_nil]
  · exact fun g hg => ⟨(hord.2.1.1 g hg).ne', hkey g (by simp [hg])⟩
  · exact fun g hg => ⟨(hord.2.2 g hg _ List.mem_cons_self).ne, hkey g (by simp [hg])⟩

/-- Regrouping keeps the elements of every key, and their order. -/
theorem filter_regroup (key : α → Nat) (xs : List α) (k : Nat) :
    (regroup key xs).filter (fun x => key x = k) = xs.filter fun x => key x = k := by
  by_cases hnil : xs.filter (fun x => key x = k) = []
  · rw [hnil, List.filter_eq_nil_iff]
    intro x hx hk
    obtain ⟨g, hg, hxg⟩ := List.mem_flatMap.mp hx
    obtain ⟨heq, -⟩ := mem_toList_groups hg
    rw [heq] at hxg
    exact List.filter_eq_nil_iff.mp hnil x (List.mem_filter.mp hxg).1 hk
  · refine (keyed_groups xs).filter (Std.ExtTreeMap.mem_toList_iff_getElem?_eq_some.mpr ?_)
    rw [getElem?_groups, if_neg hnil]

theorem mem_regroup {xs : List α} {x : α} : x ∈ regroup key xs ↔ x ∈ xs := by
  have h := congrArg (x ∈ ·) (filter_regroup key xs (key x))
  simpa using h

/-- A list sorted by key is determined by the elements of every key. -/
theorem eq_of_pairwise_of_filter {xs : List α} (hxs : xs.Pairwise fun x y => key x ≤ key y) :
    ∀ {ys : List α}, ys.Pairwise (fun x y => key x ≤ key y) →
      (∀ k, xs.filter (fun x => key x = k) = ys.filter fun x => key x = k) → xs = ys := by
  induction xs with
  | nil =>
      intro ys _ hfilter
      cases ys with
      | nil => rfl
      | cons y ys => simpa using hfilter (key y)
  | cons x xs ih =>
      intro ys hys hfilter
      cases ys with
      | nil => simpa using hfilter (key x)
      | cons y ys =>
          rw [List.pairwise_cons] at hxs hys
          -- each head is an element of the other list, so the keys are equal
          have hx : x ∈ y :: ys := by
            have hmem : x ∈ (x :: xs).filter fun z => key z = key x := by simp
            rw [hfilter] at hmem
            exact List.mem_of_mem_filter hmem
          have hy : y ∈ x :: xs := by
            have hmem : y ∈ (y :: ys).filter fun z => key z = key y := by simp
            rw [← hfilter] at hmem
            exact List.mem_of_mem_filter hmem
          have hle : key y ≤ key x := by
            rcases List.mem_cons.mp hx with rfl | hx
            · exact le_rfl
            · exact hys.1 x hx
          have hge : key x ≤ key y := by
            rcases List.mem_cons.mp hy with rfl | hy
            · exact le_rfl
            · exact hxs.1 y hy
          have hkey : key y = key x := le_antisymm hle hge
          have hhead := hfilter (key x)
          rw [List.filter_cons_of_pos (by simp), List.filter_cons_of_pos (by simpa using hkey)]
            at hhead
          obtain ⟨rfl, -⟩ := List.cons.inj hhead
          congr 1
          apply ih hxs.2 hys.2
          intro k
          have hk := hfilter k
          by_cases hxk : key x = k
          · rw [List.filter_cons_of_pos (by simpa using hxk),
              List.filter_cons_of_pos (by simpa using hxk)] at hk
            exact (List.cons.inj hk).2
          · rwa [List.filter_cons_of_neg (by simpa using hxk),
              List.filter_cons_of_neg (by simpa using hxk)] at hk

/-- **Regrouping is the identity exactly on lists with non-decreasing keys.** -/
theorem regroup_eq_self_iff (key : α → Nat) (xs : List α) :
    regroup key xs = xs ↔ xs.Pairwise fun x y => key x ≤ key y := by
  constructor
  · intro h
    rw [← h]
    exact pairwise_regroup key xs
  · intro h
    exact eq_of_pairwise_of_filter (pairwise_regroup key xs) h (filter_regroup key xs)

end Regroup
