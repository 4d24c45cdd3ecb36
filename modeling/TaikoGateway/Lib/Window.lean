/-
TaikoGateway/Lib/Window.lean

A window of numbered entries: pushing an entry numbered `n` first drops the
entries numbered below `n - lag`.  The numbers need not come in order.

* `getElem?_window` says which entry a number has, `mem_window_iff` which
  numbers are kept: those after whose last push nothing higher than `lag`
  above them was pushed.
* `oldest_le_iff` says when the lowest number is at least `lag` below the
  entry pushed last.
-/
import Mathlib

namespace Window

variable {α : Type} (lag : Nat) (number : α → Nat)

/-- The window with one more entry. -/
def push (m : Std.ExtTreeMap Nat α) (a : α) : Std.ExtTreeMap Nat α :=
  (m.filter fun k _ => decide (number a - lag ≤ k)).insert (number a) a

/-- The window after these entries. -/
def window (as : List α) : Std.ExtTreeMap Nat α := as.foldl (push lag number) ∅

/-- The entry with the lowest number. -/
def oldest (m : Std.ExtTreeMap Nat α) : Option α := m.toList.head?.map Prod.snd

/-- `k` was pushed, and since then no number above `k + lag`. -/
def Kept (ns : List Nat) (k : Nat) : Prop :=
  ∃ pre post, ns = pre ++ k :: post ∧ ∀ n ∈ post, n ≤ k + lag

variable {lag number}

theorem window_concat (as : List α) (a : α) :
    window lag number (as ++ [a]) = push lag number (window lag number as) a := by
  rw [window, List.foldl_append]
  rfl

theorem kept_concat {ns : List Nat} {n k : Nat} :
    Kept lag (ns ++ [n]) k ↔ k = n ∨ (Kept lag ns k ∧ n ≤ k + lag) := by
  constructor
  · rintro ⟨pre, post, heq, hpost⟩
    rcases List.eq_nil_or_concat post with rfl | ⟨init, last, rfl⟩
    · have hlast : k = n := by
        have h := congrArg List.getLast? heq
        rw [List.getLast?_concat, List.getLast?_concat] at h
        exact (Option.some.inj h).symm
      exact Or.inl hlast
    · rw [List.concat_eq_append] at heq hpost
      rw [← List.cons_append, ← List.append_assoc] at heq
      obtain ⟨hns, hn⟩ := List.append_inj' heq rfl
      obtain rfl : n = last := by simpa using hn
      refine Or.inr ⟨⟨pre, init, hns, fun m hm => ?_⟩, ?_⟩
      · exact hpost m (List.mem_append_left _ hm)
      · exact hpost n (List.mem_append_right _ List.mem_cons_self)
  · rintro (rfl | ⟨⟨pre, post, rfl, hpost⟩, hle⟩)
    · exact ⟨ns, [], rfl, fun m hm => by cases hm⟩
    · refine ⟨pre, post ++ [n], by simp, fun m hm => ?_⟩
      rcases List.mem_append.mp hm with hm | hm
      · exact hpost m hm
      · rw [List.mem_singleton.mp hm]
        exact hle

theorem getElem?_push (m : Std.ExtTreeMap Nat α) (a : α) (k : Nat) :
    (push lag number m a)[k]? =
      if number a = k then some a else if number a ≤ k + lag then m[k]? else none := by
  rw [push, Std.ExtTreeMap.getElem?_insert]
  by_cases hk : number a = k
  · simp [hk]
  · rw [if_neg (by simpa using hk), if_neg hk, Std.ExtTreeMap.getElem?_filter']
    by_cases hle : number a ≤ k + lag
    · rw [if_pos hle]
      cases m[k]? with
      | none => rfl
      | some b => simp [Option.filter, hle]
    · rw [if_neg hle]
      cases m[k]? with
      | none => rfl
      | some b => simp [Option.filter, hle]

/-- Entries stand at their numbers. -/
theorem number_of_window {as : List α} {k : Nat} {a : α}
    (h : (window lag number as)[k]? = some a) : number a = k := by
  induction as using List.reverseRecOn with
  | nil => simp [window] at h
  | append_singleton as b ih =>
      rw [window_concat, getElem?_push] at h
      split at h
      · rename_i heq
        cases h
        exact heq
      · split at h
        · exact ih h
        · cases h

theorem mem_window_iff {as : List α} {k : Nat} :
    k ∈ window lag number as ↔ Kept lag (as.map number) k := by
  induction as using List.reverseRecOn with
  | nil => simp [window, Kept]
  | append_singleton as b ih =>
      rw [List.map_append, List.map_singleton, kept_concat, ← ih, window_concat,
        Std.ExtTreeMap.mem_iff_isSome_getElem?, getElem?_push,
        Std.ExtTreeMap.mem_iff_isSome_getElem?]
      by_cases hk : number b = k
      · simp [hk]
      · have hk' : k ≠ number b := fun h => hk h.symm
        by_cases hle : number b ≤ k + lag
        · simp [hk, hk', hle]
        · simp [hk, hk', hle]

/-- The oldest entry has the lowest number. -/
theorem oldest_eq_some {as : List α} {a : α} (h : oldest (window lag number as) = some a) :
    number a ∈ window lag number as ∧ ∀ k ∈ window lag number as, number a ≤ k := by
  obtain ⟨⟨k, b⟩, hhead, rfl⟩ := Option.map_eq_some_iff.mp h
  have hmem := List.mem_of_mem_head? hhead
  have hget := Std.ExtTreeMap.mem_toList_iff_getElem?_eq_some.mp hmem
  have hnumber : number b = k := number_of_window hget
  refine ⟨?_, fun j hj => ?_⟩
  · rw [Std.ExtTreeMap.mem_iff_isSome_getElem?, hnumber, hget]
    rfl
  · rw [Std.ExtTreeMap.mem_iff_isSome_getElem?] at hj
    obtain ⟨c, hc⟩ := Option.isSome_iff_exists.mp hj
    have hcmem := Std.ExtTreeMap.mem_toList_iff_getElem?_eq_some.mpr hc
    obtain ⟨rest, hrest⟩ := List.head?_eq_some_iff.mp hhead
    have hordered := (window lag number as).ordered_keys_toList
    rw [hrest, List.pairwise_cons] at hordered
    rw [hrest] at hcmem
    rcases List.mem_cons.mp hcmem with heq | htail
    · cases heq
      exact hnumber.le
    · have hlt := hordered.1 _ htail
      rw [Nat.compare_eq_lt] at hlt
      rw [hnumber]
      exact hlt.le

theorem oldest_isSome {as : List α} {k : Nat} (h : k ∈ window lag number as) :
    ∃ a, oldest (window lag number as) = some a := by
  rw [Std.ExtTreeMap.mem_iff_isSome_getElem?] at h
  obtain ⟨a, ha⟩ := Option.isSome_iff_exists.mp h
  have hmem := Std.ExtTreeMap.mem_toList_iff_getElem?_eq_some.mpr ha
  obtain ⟨b, rest, hrest⟩ := List.exists_cons_of_ne_nil (List.ne_nil_of_mem hmem)
  exact ⟨b.2, by rw [oldest, hrest]; rfl⟩

/-- **The lag is kept** exactly when the number `lag` below the last one is
still in the window. -/
theorem oldest_le_iff {as : List α} {a : α} (hlag : lag ≤ number a) :
    (∃ o, oldest (window lag number (as ++ [a])) = some o ∧ number o + lag ≤ number a) ↔
      Kept lag ((as ++ [a]).map number) (number a - lag) := by
  rw [← mem_window_iff]
  constructor
  · rintro ⟨o, ho, hle⟩
    have hmem := (oldest_eq_some ho).1
    -- what is in the window is not more than `lag` below the last number
    have hkept := mem_window_iff.mp hmem
    rw [List.map_append, List.map_singleton, kept_concat] at hkept
    have heq : number o = number a - lag := by
      rcases hkept with heq | ⟨-, hge⟩
      · omega
      · omega
    rwa [heq] at hmem
  · intro hmem
    obtain ⟨o, ho⟩ := oldest_isSome hmem
    have hle := (oldest_eq_some ho).2 _ hmem
    exact ⟨o, ho, by omega⟩

end Window
