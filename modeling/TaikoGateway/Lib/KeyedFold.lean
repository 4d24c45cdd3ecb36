/-
TaikoGateway/Lib/KeyedFold.lean

Folds over the entries of a map in which an entry changes what is stored
under its own key only.

A state is read at a key by `get`; one step with the entry `(k, v)` applies
`upd v` to what is read at `k` and leaves the other keys alone (`Local`).  As a
map has at most one entry for a key, folding over it applies at each key the
update of its entry, whatever the order of the entries (`get_foldl_toList`).
-/
import Mathlib

namespace KeyedFold

variable {σ κ ν α : Type*} [DecidableEq κ]

/-- The step changes what is read at the key of its entry only. -/
def Local (get : σ → κ → α) (upd : ν → α → α) (step : σ → κ × ν → σ) : Prop :=
  ∀ s e k, get (step s e) k = if e.1 = k then upd e.2 (get s k) else get s k

variable {get : σ → κ → α} {upd : ν → α → α} {step : σ → κ × ν → σ}

/-- Only the entries of the key count. -/
theorem Local.get_foldl (h : Local get upd step) (es : List (κ × ν)) (s : σ) (k : κ) :
    get (es.foldl step s) k =
      (es.filter fun e => e.1 = k).foldl (fun x e => upd e.2 x) (get s k) := by
  induction es generalizing s with
  | nil => rfl
  | cons e es ih =>
      rw [List.foldl_cons, ih, h]
      by_cases he : e.1 = k
      · rw [if_pos he, List.filter_cons_of_pos (by simpa using he), List.foldl_cons]
      · rw [if_neg he, List.filter_cons_of_neg (by simpa using he)]

section Map

variable [Ord κ] [Std.TransOrd κ] [Std.LawfulEqOrd κ]

/-- A map has at most one entry for a key. -/
theorem filter_toList (m : Std.ExtTreeMap κ ν compare) (k : κ) :
    (m.toList.filter fun e => e.1 = k) = (m[k]?.map fun v => (k, v)).toList := by
  have hmem : ∀ e ∈ m.toList.filter fun e => e.1 = k, ∃ v, m[k]? = some v ∧ e = (k, v) := by
    rintro ⟨k', v⟩ he
    obtain ⟨hmem, hk⟩ := List.mem_filter.mp he
    have hk : k' = k := by simpa using hk
    rw [hk] at hmem ⊢
    exact ⟨v, Std.ExtTreeMap.mem_toList_iff_getElem?_eq_some.mp hmem, rfl⟩
  have hnodup : (m.toList.filter fun e => e.1 = k).Nodup := by
    apply List.Nodup.filter _
    refine (Std.ExtTreeMap.distinct_keys_toList (t := m)).imp fun {a b} hne hab => hne ?_
    rw [hab]
    exact Std.ReflCmp.compare_self
  cases hk : m[k]? with
  | none =>
      apply List.eq_nil_iff_forall_not_mem.mpr
      intro e he
      obtain ⟨v, hv, -⟩ := hmem e he
      cases hk.symm.trans hv
  | some v =>
      have hv : (k, v) ∈ m.toList.filter fun e => e.1 = k :=
        List.mem_filter.mpr
          ⟨Std.ExtTreeMap.mem_toList_iff_getElem?_eq_some.mpr hk, decide_eq_true rfl⟩
      show _ = [(k, v)]
      refine (List.perm_singleton.mp ?_)
      apply (List.perm_ext_iff_of_nodup hnodup (List.nodup_singleton _)).mpr
      intro e
      rw [List.mem_singleton]
      constructor
      · intro he
        obtain ⟨v', hv', rfl⟩ := hmem e he
        cases hk.symm.trans hv'
        rfl
      · rintro rfl
        exact hv

/-- **Folding over a map** updates at each key what the map has there. -/
theorem Local.get_foldl_toList (h : Local get upd step) (m : Std.ExtTreeMap κ ν compare) (s : σ)
    (k : κ) :
    get (m.toList.foldl step s) k = (m[k]?.map fun v => upd v (get s k)).getD (get s k) := by
  rw [h.get_foldl, filter_toList]
  cases m[k]? <;> rfl

end Map

end KeyedFold
