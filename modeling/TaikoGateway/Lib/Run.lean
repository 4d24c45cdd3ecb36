/-
TaikoGateway/Lib/Run.lean

Runs of a fallible step function.  A program is given by

    step : σ → ι → Except ε σ

one step from a state on one input, where an `error` is an abort.  A run is
the left fold of `step` over the inputs (`List.foldlM`).  Everything here is
for arbitrary states, inputs and aborts:

* `Except.bind_eq_ok_iff`, `Except.bind_eq_error_iff` take a sequenced
  computation apart;
* `Except.AbortsIn S x` bounds the errors of a computation; its rules follow
  the way the computation is put together;
* `run_invariant` is the induction rule for "initially, and kept by every
  step", `run_total` the one for "and no step aborts", and
  `reflTransGen_of_foldlM` turns a run into a chain of a relation that its
  steps refine;
* `Along step P s is` says that `P` holds of every step a run takes, the last
  (possibly aborting) one included; `Along.congr_of_invariant` exchanges two
  such properties that agree wherever an invariant holds;
* `withHistory` adds a variable that records something of the inputs so far,
  for statements about the past; `along_named_settled` is the rule for keys
  that a run names at most once.
-/
import Mathlib

namespace Except

universe u v

variable {ε : Type u} {α β : Type v}

/-- A sequenced computation succeeds iff both halves do. -/
theorem bind_eq_ok_iff {x : Except ε α} {f : α → Except ε β} {b : β} :
    (x >>= f) = .ok b ↔ ∃ a, x = .ok a ∧ f a = .ok b := by
  cases x with
  | error e => simp [bind, Except.bind]
  | ok a => simp [bind, Except.bind]

/-- A sequenced computation aborts in its first or in its second half. -/
theorem bind_eq_error_iff {x : Except ε α} {f : α → Except ε β} {e : ε} :
    (x >>= f) = .error e ↔
      x = .error e ∨ ∃ a, x = .ok a ∧ f a = .error e := by
  cases x with
  | error e' => simp [bind, Except.bind]
  | ok a => simp [bind, Except.bind]

/-- It succeeds if the first half does, and the second one on what that gives. -/
theorem exists_bind {x : Except ε α} {f : α → Except ε β} {P : α → Prop}
    (hx : ∃ a, x = .ok a ∧ P a) (hf : ∀ a, P a → ∃ b, f a = .ok b) : ∃ b, (x >>= f) = .ok b := by
  obtain ⟨a, ha, hP⟩ := hx
  obtain ⟨b, hb⟩ := hf a hP
  exact ⟨b, bind_eq_ok_iff.mpr ⟨a, ha, hb⟩⟩

theorem toOption_eq_some_iff {x : Except ε α} {a : α} : x.toOption = some a ↔ x = .ok a := by
  cases x with
  | error e => simp [Except.toOption]
  | ok a' => simp [Except.toOption]

/-- A map that is undone by `g` loses nothing. -/
theorem map_of_mapM {f : α → Except ε β} {g : β → α} (hf : ∀ a b, f a = .ok b → g b = a) :
    ∀ {as : List α} {bs : List β}, as.mapM f = .ok bs → bs.map g = as := by
  intro as
  induction as with
  | nil =>
      intro bs h
      rw [List.mapM_nil] at h
      cases h
      rfl
  | cons a as ih =>
      intro bs h
      rw [List.mapM_cons] at h
      obtain ⟨b, hb, h⟩ := bind_eq_ok_iff.mp h
      obtain ⟨rest, hrest, h⟩ := bind_eq_ok_iff.mp h
      cases h
      rw [List.map_cons, hf a b hb, ih hrest]

/-- A map whose function succeeds on every entry succeeds. -/
theorem exists_mapM {f : α → Except ε β} {as : List α} (hf : ∀ a ∈ as, ∃ b, f a = .ok b) :
    ∃ bs, as.mapM f = .ok bs ∧ ∀ b ∈ bs, ∃ a ∈ as, f a = .ok b := by
  induction as with
  | nil => exact ⟨[], List.mapM_nil, fun b hb => by cases hb⟩
  | cons a as ih =>
      rw [List.forall_mem_cons] at hf
      obtain ⟨b, hb⟩ := hf.1
      obtain ⟨bs, hbs, hmem⟩ := ih hf.2
      refine ⟨b :: bs, ?_, ?_⟩
      · rw [List.mapM_cons, hb, hbs]
        rfl
      · rw [List.forall_mem_cons]
        refine ⟨⟨a, List.mem_cons_self, hb⟩, fun b' hb' => ?_⟩
        obtain ⟨a', ha', hf'⟩ := hmem b' hb'
        exact ⟨a', List.mem_cons_of_mem a ha', hf'⟩

/-! ### Errors of a computation -/

/-- The error of a computation, if it has one. -/
def abort : Except ε α → Option ε
  | .error e => some e
  | .ok _ => none

theorem abort_eq_some_iff {x : Except ε α} {e : ε} : x.abort = some e ↔ x = .error e := by
  cases x with
  | error e' => simp [abort]
  | ok a => simp [abort]

/-- Every error of the computation is one of `S`. -/
def AbortsIn (S : Set ε) (x : Except ε α) : Prop := ∀ e, x = .error e → e ∈ S

namespace AbortsIn

variable {S : Set ε}

theorem ok (a : α) : AbortsIn S (.ok a : Except ε α) := by
  intro e h
  cases h

theorem error {e : ε} (he : e ∈ S) : AbortsIn S (.error e : Except ε α) := by
  intro e' h
  cases h
  exact he

theorem bind {x : Except ε α} {f : α → Except ε β} (hx : AbortsIn S x)
    (hf : ∀ a, x = .ok a → AbortsIn S (f a)) : AbortsIn S (x >>= f) := by
  intro e h
  rcases bind_eq_error_iff.mp h with h | ⟨a, ha, h⟩
  · exact hx e h
  · exact hf a ha e h

theorem ite {c : Prop} [Decidable c] {x y : Except ε α} (hx : AbortsIn S x)
    (hy : AbortsIn S y) : AbortsIn S (if c then x else y) := by
  split
  · exact hx
  · exact hy

theorem mapM {ι : Type v} {f : ι → Except ε β} (h : ∀ i, AbortsIn S (f i)) (is : List ι) :
    AbortsIn S (is.mapM f) := by
  induction is with
  | nil =>
      rw [List.mapM_nil]
      exact ok []
  | cons i is ih =>
      rw [List.mapM_cons]
      exact (h i).bind fun b _ => ih.bind fun bs _ => ok (b :: bs)

theorem foldlM {σ ι : Type v} {step : σ → ι → Except ε σ} (h : ∀ s i, AbortsIn S (step s i))
    (is : List ι) (s : σ) : AbortsIn S (is.foldlM step s) := by
  induction is generalizing s with
  | nil => exact ok s
  | cons i is ih =>
      rw [List.foldlM_cons]
      exact (h s i).bind fun t _ => ih t

end AbortsIn

end Except

namespace Run

variable {σ ι ε : Type*}

/-! ### Invariants of runs -/

/-- **The invariant rule.**  What holds initially and is kept by every step on
the inputs of the run holds at its end. -/
theorem run_invariant {step : σ → ι → Except ε σ} (Inv : σ → Prop) :
    ∀ (is : List ι) {s s' : σ},
      (∀ i ∈ is, ∀ s s', Inv s → step s i = .ok s' → Inv s') →
      Inv s → is.foldlM step s = .ok s' → Inv s' := by
  intro is
  induction is with
  | nil =>
      intro s s' _ hs h
      obtain rfl : s = s' := by simpa [pure, Except.pure] using h
      exact hs
  | cons i is ih =>
      intro s s' hstep hs h
      rw [List.foldlM_cons] at h
      obtain ⟨t, ht, hrest⟩ := Except.bind_eq_ok_iff.mp h
      have hInv : Inv t := hstep i List.mem_cons_self s t hs ht
      exact ih (fun j hj => hstep j (List.mem_cons_of_mem i hj)) hInv hrest

/-- **The totality rule.**  A run whose steps succeed wherever the invariant
holds, and keep it, succeeds. -/
theorem run_total {step : σ → ι → Except ε σ} (Inv : σ → Prop) (is : List ι) {s : σ}
    (hstep : ∀ i ∈ is, ∀ s, Inv s → ∃ s', step s i = .ok s' ∧ Inv s') (hs : Inv s) :
    ∃ s', is.foldlM step s = .ok s' ∧ Inv s' := by
  induction is generalizing s with
  | nil => exact ⟨s, rfl, hs⟩
  | cons i is ih =>
      rw [List.forall_mem_cons] at hstep
      obtain ⟨t, ht, hInv⟩ := hstep.1 s hs
      obtain ⟨s', hrun, hs'⟩ := ih hstep.2 hInv
      refine ⟨s', ?_, hs'⟩
      rw [List.foldlM_cons]
      exact Except.bind_eq_ok_iff.mpr ⟨t, ht, hrun⟩

/-- The invariant rule, for steps that are known by their place in the run. -/
theorem run_invariant_at {step : σ → ι → Except ε σ} (Inv : σ → Prop) {s : σ} (hs : Inv s) :
    ∀ (is : List ι) {s' : σ},
      (∀ pre i post t t', is = pre ++ i :: post → pre.foldlM step s = .ok t → step t i = .ok t' →
        Inv t → Inv t') →
      is.foldlM step s = .ok s' → Inv s' := by
  intro is
  induction is using List.reverseRecOn with
  | nil =>
      intro s' _ h
      obtain rfl : s = s' := by simpa [pure, Except.pure] using h
      exact hs
  | append_singleton is i ih =>
      intro s' hstep h
      rw [List.foldlM_append] at h
      obtain ⟨t, hinit, hlast⟩ := Except.bind_eq_ok_iff.mp h
      have hlast : step t i = .ok s' := by simpa using hlast
      have ht : Inv t := by
        refine ih (fun pre j post u u' heq hpre hu => ?_) hinit
        exact hstep pre j (post ++ [i]) u u' (by rw [heq, List.append_assoc]; rfl) hpre hu
      exact hstep is i [] t s' rfl hinit hlast ht

/-- A run of steps that do the same as a function is a fold of the function. -/
theorem eq_foldl_of_foldlM {step : σ → ι → Except ε σ} {f : σ → ι → σ} :
    ∀ (is : List ι) {s s' : σ},
      (∀ i ∈ is, ∀ s s', step s i = .ok s' → s' = f s i) →
      is.foldlM step s = .ok s' → s' = is.foldl f s := by
  intro is
  induction is with
  | nil =>
      intro s s' _ h
      obtain rfl : s = s' := by simpa [pure, Except.pure] using h
      rfl
  | cons i is ih =>
      intro s s' hf h
      rw [List.foldlM_cons] at h
      obtain ⟨t, ht, hrest⟩ := Except.bind_eq_ok_iff.mp h
      rw [List.foldl_cons, ← hf i List.mem_cons_self s t ht]
      exact ih (fun j hj => hf j (List.mem_cons_of_mem i hj)) hrest

/-- A run is a chain of a relation that contains its steps. -/
theorem reflTransGen_of_foldlM {step : σ → ι → Except ε σ} {R : σ → σ → Prop} :
    ∀ (is : List ι) {s s' : σ},
      (∀ i ∈ is, ∀ s s', step s i = .ok s' → R s s') →
      is.foldlM step s = .ok s' → Relation.ReflTransGen R s s' := by
  intro is
  induction is with
  | nil =>
      intro s s' _ h
      obtain rfl : s = s' := by simpa [pure, Except.pure] using h
      exact .refl
  | cons i is ih =>
      intro s s' hR h
      rw [List.foldlM_cons] at h
      obtain ⟨t, ht, hrest⟩ := Except.bind_eq_ok_iff.mp h
      have hfirst : R s t := hR i List.mem_cons_self s t ht
      have hchain : Relation.ReflTransGen R t s' :=
        ih (fun j hj => hR j (List.mem_cons_of_mem i hj)) hrest
      exact .head hfirst hchain

/-! ### Properties of all steps of a run -/

/-- `P` holds of every step taken from `s` on `is`: of the state before it,
its input, and what it returns. -/
def Along (step : σ → ι → Except ε σ) (P : σ → ι → Except ε σ → Prop) :
    σ → List ι → Prop
  | _, [] => True
  | s, i :: is => P s i (step s i) ∧ ∀ s', step s i = .ok s' → Along step P s' is

variable {step : σ → ι → Except ε σ} {P Q : σ → ι → Except ε σ → Prop}

@[simp] theorem along_nil (s : σ) : Along step P s [] := trivial

theorem along_cons {s : σ} {i : ι} {is : List ι} :
    Along step P s (i :: is) ↔
      P s i (step s i) ∧ ∀ s', step s i = .ok s' → Along step P s' is :=
  Iff.rfl

/-- On a concrete run a decidable step property can be evaluated. -/
instance Along.decidable [∀ s i r, Decidable (P s i r)] :
    ∀ (s : σ) (is : List ι), Decidable (Along step P s is)
  | _, [] => isTrue trivial
  | s, i :: is =>
      match h : step s i with
      | .error _ => decidable_of_iff (P s i (step s i)) (by simp [along_cons, h])
      | .ok s' =>
          have := Along.decidable s' is
          decidable_of_iff (P s i (step s i) ∧ Along step P s' is) (by simp [along_cons, h])

/-- A step property that holds wherever an invariant does holds along every
run from a state of the invariant whose inputs meet `H`. -/
theorem Along.of_assumed (Inv : σ → Prop) (H : ι → Prop)
    (hP : ∀ s i, Inv s → H i → P s i (step s i))
    (hkeep : ∀ s i s', Inv s → H i → step s i = .ok s' → Inv s') :
    ∀ (is : List ι) {s : σ}, Inv s → (∀ i ∈ is, H i) → Along step P s is := by
  intro is
  induction is with
  | nil => intro s _ _; simp
  | cons i is ih =>
      intro s hs hH
      have hi : H i := hH i List.mem_cons_self
      refine ⟨hP s i hs hi, fun s' hs' => ih (hkeep s i s' hs hi hs') fun j hj => ?_⟩
      exact hH j (List.mem_cons_of_mem i hj)

/-- A property of the inputs. -/
theorem Along.of_forall_mem {H : ι → Prop} {is : List ι} (hH : ∀ i ∈ is, H i) (s : σ) :
    Along step (fun _ i _ => H i) s is :=
  Along.of_assumed (fun _ => True) H (fun _ _ _ hi => hi) (fun _ _ _ _ _ _ => trivial) is trivial
    hH

/-- Two step properties that agree wherever `Inv` holds agree along every run
that meets `H` along the way, provided either one keeps `Inv`. -/
theorem Along.congr_of_along {H : σ → ι → Except ε σ → Prop} (Inv : σ → Prop)
    (hiff : ∀ s i, Inv s → H s i (step s i) → (P s i (step s i) ↔ Q s i (step s i)))
    (hkeep : ∀ s i s', Inv s → H s i (step s i) → P s i (step s i) → step s i = .ok s' →
      Inv s') :
    ∀ (is : List ι) {s : σ}, Inv s → Along step H s is →
      (Along step P s is ↔ Along step Q s is) := by
  intro is
  induction is with
  | nil => intro s _ _; simp
  | cons i is ih =>
      rintro s hs ⟨hH, hrest⟩
      rw [along_cons, along_cons, hiff s i hs hH]
      apply and_congr_right
      intro hQ
      have hP := (hiff s i hs hH).mpr hQ
      exact forall₂_congr fun s' hs' => ih (hkeep s i s' hs hH hP hs') (hrest s' hs')

/-- Two step properties that agree wherever `Inv` holds agree along every run
from an `Inv` state whose inputs meet `H`, provided either one keeps `Inv`. -/
theorem Along.congr_of_assumed (Inv : σ → Prop) (H : ι → Prop)
    (hiff : ∀ s i, Inv s → H i → (P s i (step s i) ↔ Q s i (step s i)))
    (hkeep : ∀ s i s', Inv s → H i → P s i (step s i) → step s i = .ok s' → Inv s')
    (is : List ι) {s : σ} (hs : Inv s) (hH : ∀ i ∈ is, H i) :
    Along step P s is ↔ Along step Q s is :=
  Along.congr_of_along Inv hiff hkeep is hs (Along.of_forall_mem hH s)

/-- Two step properties that agree wherever `Inv` holds agree along every run
from an `Inv` state, provided either one keeps `Inv`. -/
theorem Along.congr_of_invariant (Inv : σ → Prop)
    (hiff : ∀ s i, Inv s → (P s i (step s i) ↔ Q s i (step s i)))
    (hkeep : ∀ s i s', Inv s → P s i (step s i) → step s i = .ok s' → Inv s')
    (is : List ι) {s : σ} (hs : Inv s) : Along step P s is ↔ Along step Q s is :=
  Along.congr_of_assumed Inv (fun _ => True) (fun s i hs _ => hiff s i hs)
    (fun s i s' hs _ => hkeep s i s' hs) is hs fun _ _ => trivial

/-- What holds of every step wherever an invariant does, if the run meets `P`
along the way. -/
theorem Along.mono_of_invariant (Inv : σ → Prop)
    (hQ : ∀ s i, Inv s → P s i (step s i) → Q s i (step s i))
    (hkeep : ∀ s i s', Inv s → P s i (step s i) → step s i = .ok s' → Inv s') :
    ∀ (is : List ι) {s : σ}, Inv s → Along step P s is → Along step Q s is := by
  intro is
  induction is with
  | nil => intro s _ _; simp
  | cons i is ih =>
      rintro s hs ⟨hP, hrest⟩
      exact ⟨hQ s i hs hP, fun s' hs' => ih (hkeep s i s' hs hP hs') (hrest s' hs')⟩

theorem Along.mono (hQ : ∀ s i, P s i (step s i) → Q s i (step s i)) (is : List ι) {s : σ}
    (h : Along step P s is) : Along step Q s is :=
  Along.mono_of_invariant (fun _ => True) (fun s i _ => hQ s i) (fun _ _ _ _ _ _ => trivial) is
    trivial h

/-- What holds of every step holds of the one at this place in the run. -/
theorem Along.at {is : List ι} {i : ι} {rest : List ι} :
    ∀ {s s' : σ}, Along step P s (is ++ i :: rest) → is.foldlM step s = .ok s' →
      P s' i (step s' i) := by
  induction is with
  | nil =>
      intro s s' h hrun
      obtain rfl : s = s' := by simpa [pure, Except.pure] using hrun
      exact h.1
  | cons j is ih =>
      intro s s' h hrun
      rw [List.foldlM_cons] at hrun
      obtain ⟨t, ht, hrest⟩ := Except.bind_eq_ok_iff.mp hrun
      exact ih (h.2 t ht) hrest

/-- The same property, said of every place in the run. -/
theorem along_iff_forall_at :
    ∀ (is : List ι) {s : σ}, Along step P s is ↔
      ∀ pre i post t, is = pre ++ i :: post → pre.foldlM step s = .ok t → P t i (step t i) := by
  intro is s
  refine ⟨fun h pre i post t heq hrun => Along.at (heq ▸ h) hrun, ?_⟩
  induction is generalizing s with
  | nil => exact fun _ => trivial
  | cons i is ih =>
      intro h
      refine ⟨h [] i is s rfl rfl, fun s' hs' => ih fun pre j post t heq hrun => ?_⟩
      refine h (i :: pre) j post t (heq ▸ rfl) ?_
      rw [List.foldlM_cons]
      exact Except.bind_eq_ok_iff.mpr ⟨s', hs', hrun⟩

theorem Along.and {s : σ} {is : List ι} (hP : Along step P s is) (hQ : Along step Q s is) :
    Along step (fun s i r => P s i r ∧ Q s i r) s is := by
  induction is generalizing s with
  | nil => trivial
  | cons i is ih => exact ⟨⟨hP.1, hQ.1⟩, fun s' hs' => ih (hP.2 s' hs') (hQ.2 s' hs')⟩

/-- The invariant rule, for runs that meet `P` along the way. -/
theorem Along.invariant (Inv : σ → Prop)
    (hkeep : ∀ s i s', Inv s → P s i (step s i) → step s i = .ok s' → Inv s') :
    ∀ (is : List ι) {s s' : σ}, Inv s → Along step P s is → is.foldlM step s = .ok s' →
      Inv s' := by
  intro is
  induction is with
  | nil =>
      intro s s' hs _ h
      obtain rfl : s = s' := by simpa [pure, Except.pure] using h
      exact hs
  | cons i is ih =>
      rintro s s' hs ⟨hP, hrest⟩ h
      rw [List.foldlM_cons] at h
      obtain ⟨t, ht, htail⟩ := Except.bind_eq_ok_iff.mp h
      exact ih (hkeep s i t hs hP ht) (hrest t ht) htail

/-- As `congr_of_assumed`, for an invariant that depends on the time of the
last input, when time does not go backwards. -/
theorem Along.congr_of_clock {τ : Type*} [Preorder τ] (clock : ι → τ) (Inv : τ → σ → Prop)
    (H : ι → Prop)
    (hiff : ∀ u s i, Inv u s → H i → u ≤ clock i → (P s i (step s i) ↔ Q s i (step s i)))
    (hkeep : ∀ u s i s', Inv u s → H i → u ≤ clock i → step s i = .ok s' → Inv (clock i) s') :
    ∀ (is : List ι) {u : τ} {s : σ}, Inv u s → (∀ i ∈ is, H i) → (∀ i ∈ is, u ≤ clock i) →
      (is.map clock).Pairwise (· ≤ ·) → (Along step P s is ↔ Along step Q s is) := by
  intro is
  induction is with
  | nil => intro u s _ _ _ _; simp
  | cons i is ih =>
      intro u s hs hH hu hclock
      have hi : H i := hH i List.mem_cons_self
      have hui : u ≤ clock i := hu i List.mem_cons_self
      rw [List.map_cons, List.pairwise_cons] at hclock
      obtain ⟨hlater, hrest⟩ := hclock
      have hnext : ∀ s', step s i = .ok s' → (Along step P s' is ↔ Along step Q s' is) := by
        intro s' hs'
        refine ih (hkeep u s i s' hs hi hui hs') (fun j hj => hH j (List.mem_cons_of_mem i hj))
          (fun j hj => ?_) hrest
        exact hlater (clock j) (List.mem_map_of_mem hj)
      rw [along_cons, along_cons, hiff u s i hs hi hui]
      apply and_congr_right
      intro _
      exact forall_congr' fun s' => ⟨fun h hs' => (hnext s' hs').mp (h hs'),
        fun h hs' => (hnext s' hs').mpr (h hs')⟩

/-- A run aborts only with what one of its steps aborts with. -/
theorem Along.abortsIn {S : Set ε} :
    ∀ (is : List ι) {s : σ}, Along step (fun _ _ r => Except.AbortsIn S r) s is →
      Except.AbortsIn S (is.foldlM step s) := by
  intro is
  induction is with
  | nil => exact fun _ => .ok _
  | cons i is ih =>
      rintro s ⟨hstep, hrest⟩
      rw [List.foldlM_cons]
      exact hstep.bind fun s' hs' => ih (hrest s' hs')

section History

variable {γ : Type*} {record : σ → ι → γ → γ}

/-- The step with a variable beside the state that records something of the
inputs so far. -/
def withHistory (step : σ → ι → Except ε σ) (record : σ → ι → γ → γ) :
    σ × γ → ι → Except ε (σ × γ) :=
  fun c i => (step c.1 i).map fun s' => (s', record c.1 i c.2)

theorem withHistory_eq_ok_iff {c c' : σ × γ} {i : ι} :
    withHistory step record c i = .ok c' ↔ step c.1 i = .ok c'.1 ∧ record c.1 i c.2 = c'.2 := by
  unfold withHistory
  cases step c.1 i with
  | error e => simp [Except.map]
  | ok s' => simp [Except.map, Prod.ext_iff]

/-- The history variable does not matter for what holds along a run. -/
theorem along_withHistory_iff :
    ∀ (is : List ι) {s : σ} {h : γ},
      Along (withHistory step record) (fun c i _ => P c.1 i (step c.1 i)) (s, h) is ↔
        Along step P s is := by
  intro is
  induction is with
  | nil => intro s h; simp
  | cons i is ih =>
      intro s h
      rw [along_cons, along_cons]
      apply and_congr_right
      intro _
      constructor
      · intro hrest s' hs'
        exact ih.mp (hrest (s', record s i h) (withHistory_eq_ok_iff.mpr ⟨hs', rfl⟩))
      · rintro hrest ⟨s', h'⟩ hc
        exact ih.mpr (hrest s' (withHistory_eq_ok_iff.mp hc).1)

/-- A history variable stays below a bound that the inputs raise. -/
theorem along_history_le [Preorder γ] {bound : ι → γ}
    (hrecord : ∀ s i h, h ≤ bound i → record s i h ≤ bound i) :
    ∀ (is : List ι) {s : σ} {h : γ}, (∀ i ∈ is, h ≤ bound i) →
      (is.map bound).Pairwise (· ≤ ·) →
      Along (withHistory step record) (fun c i _ => c.2 ≤ bound i) (s, h) is := by
  intro is
  induction is with
  | nil => intro s h _ _; simp
  | cons i is ih =>
      intro s h hle hsorted
      rw [List.map_cons, List.pairwise_cons] at hsorted
      refine ⟨hle i List.mem_cons_self, ?_⟩
      rintro ⟨s', h'⟩ hc
      obtain ⟨-, rfl⟩ := withHistory_eq_ok_iff.mp hc
      refine ih (fun j hj => ?_) hsorted.2
      exact (hrecord s i h (hle i List.mem_cons_self)).trans
        (hsorted.1 (bound j) (List.mem_map_of_mem hj))

/-! ### Keys that are named at most once -/

variable {κ : Type*}

/-- Records the keys that the inputs name. -/
def recordName (name : σ → ι → Option κ) (s : σ) (i : ι) (named : List κ) : List κ :=
  (name s i).toList ++ named

/-- **Named at most once.**  If naming a key settles it, a settled key stays
settled and is not named, then along a run all keys named so far are settled
and different. -/
theorem along_named_settled (name : σ → ι → Option κ) (Settled : σ → κ → Prop)
    (hname : ∀ s i k, P s i (step s i) → name s i = some k → ¬ Settled s k)
    (hsettle : ∀ s i s' k, P s i (step s i) → step s i = .ok s' →
      Settled s k ∨ name s i = some k → Settled s' k) :
    ∀ (is : List ι) {s : σ} {named : List κ}, (∀ k ∈ named, Settled s k) → named.Nodup →
      Along step P s is →
      Along (withHistory step (recordName name))
        (fun c i _ => (∀ k ∈ c.2, Settled c.1 k) ∧ (recordName name c.1 i c.2).Nodup)
        (s, named) is := by
  intro is
  induction is with
  | nil => intro s named _ _ _; simp
  | cons i is ih =>
      rintro s named hsettled hnodup ⟨hP, hrest⟩
      have hnext : (recordName name s i named).Nodup := by
        refine List.nodup_append.mpr ⟨by cases name s i <;> simp, hnodup, ?_⟩
        rintro k hk k' hk' rfl
        exact hname s i k hP (Option.mem_toList.mp hk) (hsettled k hk')
      refine ⟨⟨hsettled, hnext⟩, ?_⟩
      rintro ⟨s', named'⟩ hc
      obtain ⟨hs', rfl⟩ := withHistory_eq_ok_iff.mp hc
      refine ih (fun k hk => hsettle s i s' k hP hs' ?_) hnext (hrest s' hs')
      rcases List.mem_append.mp hk with hk | hk
      · exact Or.inr (Option.mem_toList.mp hk)
      · exact Or.inl (hsettled k hk)

end History

end Run
