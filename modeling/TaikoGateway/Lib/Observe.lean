/-
TaikoGateway/Lib/Observe.lean

What a run shows.  Some steps of a run show something,

    obs : σ → ι → Option τ

of the state before the step and its input; `Run.observed step obs s is` is
the list of what the steps of a run show, in their order.

* `forall_mem_observed` bounds everything that is shown by a property along
  the run;
* `pairwise_observed` is the rule for an order on what is shown: the state
  remembers the last of it, and a step shows only what comes after that;
* a window has few of a list of numbers that keep a distance
  (`Spaced.length_filter_le`).
-/
import TaikoGateway.Lib.Run

namespace Run

variable {σ ι ε τ : Type*} {step : σ → ι → Except ε σ} {obs : σ → ι → Option τ}

/-- What the steps of the run show, the last (possibly aborting) one included. -/
def observed (step : σ → ι → Except ε σ) (obs : σ → ι → Option τ) : σ → List ι → List τ
  | _, [] => []
  | s, i :: is =>
      (obs s i).toList ++
        match step s i with
        | .ok s' => observed step obs s' is
        | .error _ => []

@[simp] theorem observed_nil (s : σ) : observed step obs s [] = [] := rfl

theorem observed_cons_of_ok {s s' : σ} {i : ι} (is : List ι) (h : step s i = .ok s') :
    observed step obs s (i :: is) = (obs s i).toList ++ observed step obs s' is := by
  simp only [observed, h]

theorem observed_cons_of_error {s : σ} {i : ι} {e : ε} (is : List ι) (h : step s i = .error e) :
    observed step obs s (i :: is) = (obs s i).toList := by
  simp only [observed, h, List.append_nil]

/-- What holds of everything that any step of the run shows. -/
theorem forall_mem_observed {P : τ → Prop} :
    ∀ (is : List ι) {s : σ}, Along step (fun s i _ => ∀ a, obs s i = some a → P a) s is →
      ∀ a ∈ observed step obs s is, P a := by
  intro is
  induction is with
  | nil => exact fun _ a ha => absurd ha List.not_mem_nil
  | cons i is ih =>
      rintro s ⟨hnow, hrest⟩ a ha
      have hfirst : a ∈ (obs s i).toList → P a := fun ha => hnow a (Option.mem_toList.mp ha)
      cases hstep : step s i with
      | error e =>
          rw [observed_cons_of_error is hstep] at ha
          exact hfirst ha
      | ok s' =>
          rw [observed_cons_of_ok is hstep] at ha
          rcases List.mem_append.mp ha with ha | ha
          · exact hfirst ha
          · exact ih (hrest s' hstep) a ha

/-- **The order rule.**  A state remembers the last of what was shown, `Last`.
If a step shows only what is after that, the whole run shows things in order. -/
theorem pairwise_observed {R : τ → τ → Prop} [Trans R R R] (Last : σ → τ → Prop) (H : ι → Prop)
    (hshow : ∀ s i s' a, H i → step s i = .ok s' → obs s i = some a → Last s' a)
    (hafter : ∀ s i a b, H i → Last s a → obs s i = some b → R a b)
    (hkeep : ∀ s i s' a, H i → Last s a → step s i = .ok s' → obs s i = none → Last s' a)
    (is : List ι) (hH : ∀ i ∈ is, H i) (s : σ) : (observed step obs s is).Pairwise R := by
  rw [← List.isChain_iff_pairwise]
  -- the second half is for the induction
  suffices h : ∀ (is : List ι) (s : σ), (∀ i ∈ is, H i) →
      (observed step obs s is).IsChain R ∧
        ∀ a, Last s a → (a :: observed step obs s is).IsChain R from (h is s hH).1
  intro is
  induction is with
  | nil => exact fun s _ => ⟨List.isChain_nil, fun a _ => List.isChain_singleton a⟩
  | cons i is ih =>
      intro s hH
      have hi : H i := hH i List.mem_cons_self
      have his : ∀ j ∈ is, H j := fun j hj => hH j (List.mem_cons_of_mem i hj)
      cases hobs : obs s i with
      | none =>
          cases hstep : step s i with
          | error e =>
              rw [observed_cons_of_error is hstep, hobs]
              exact ⟨List.isChain_nil, fun a _ => List.isChain_singleton a⟩
          | ok s' =>
              rw [observed_cons_of_ok is hstep, hobs]
              exact ⟨(ih s' his).1, fun a ha => (ih s' his).2 a (hkeep s i s' a hi ha hstep hobs)⟩
      | some b =>
          have hshown : (observed step obs s (i :: is)).IsChain R ∧
              ∃ rest, observed step obs s (i :: is) = b :: rest := by
            cases hstep : step s i with
            | error e =>
                rw [observed_cons_of_error is hstep, hobs]
                exact ⟨List.isChain_singleton b, [], rfl⟩
            | ok s' =>
                rw [observed_cons_of_ok is hstep, hobs]
                exact ⟨(ih s' his).2 b (hshow s i s' b hi hstep hobs), _, rfl⟩
          obtain ⟨hchain, rest, hrest⟩ := hshown
          refine ⟨hchain, fun a ha => ?_⟩
          rw [hrest] at hchain ⊢
          exact List.isChain_cons_cons.mpr ⟨hafter s i a b hi ha hobs, hchain⟩

end Run

/-! ### Numbers that keep a distance -/

/-- Later by more than `d`. -/
def Spaced (d : ℕ) (a b : ℕ) : Prop := a + d < b

namespace Spaced

variable {d : ℕ}

instance : Trans (Spaced d) (Spaced d) (Spaced d) where
  trans hab hbc := by
    unfold Spaced at hab hbc ⊢
    omega

theorem length_le {l : List ℕ} {lo len : ℕ} (h : l.Pairwise (Spaced d))
    (hl : ∀ a ∈ l, lo ≤ a ∧ a ≤ lo + len) : l.length ≤ len / (d + 1) + 1 := by
  induction l generalizing lo len with
  | nil => exact Nat.zero_le _
  | cons a l ih =>
      rw [List.pairwise_cons] at h
      obtain ⟨hnext, hrest⟩ := h
      have ha : lo ≤ a := (hl a List.mem_cons_self).1
      have hbound : ∀ b ∈ l, lo + (d + 1) ≤ b ∧ b ≤ lo + len := by
        intro b hb
        have hab : a + d < b := hnext b hb
        exact ⟨by omega, (hl b (List.mem_cons_of_mem a hb)).2⟩
      cases l with
      | nil => exact Nat.le_add_left 1 _
      | cons b l =>
          -- the others are in what is left of the window
          have hlen : d + 1 ≤ len := by
            have hb := hbound b List.mem_cons_self
            omega
          have hle : (b :: l).length ≤ (len - (d + 1)) / (d + 1) + 1 := by
            refine @ih (lo + (d + 1)) _ hrest fun c hc => ⟨(hbound c hc).1, ?_⟩
            have hc' := (hbound c hc).2
            omega
          rw [List.length_cons, Nat.div_eq_sub_div (Nat.succ_pos d) hlen]
          exact Nat.succ_le_succ hle

/-- **A window has few of them.** -/
theorem length_filter_le {l : List ℕ} (h : l.Pairwise (Spaced d)) (lo len : ℕ) :
    (l.filter fun a => decide (lo ≤ a ∧ a ≤ lo + len)).length ≤ len / (d + 1) + 1 := by
  apply length_le (h.filter _)
  intro a ha
  exact of_decide_eq_true (List.mem_filter.mp ha).2

end Spaced
