/-
TaikoGateway/Lib/Lowercase.lean

Lower case of Unicode texts.  A `CaseTable` has the case mappings of the letters;
of its entries only the ASCII letters and the two letters with an ASCII letter
in their lower case are fixed.  `toLowercase` lowers a text letter by letter,
with the final form of sigma at the end of a word.

`Lowered s l` says that `l` is some lowering of `s`, whatever the context; it
goes through appended texts (`lowered_append_iff`).  A pattern that occurs in a
lowering occurs in the text with its ASCII letters lowered, if none of its
letters can come from another letter (`Lowered.infix_map`).
-/
import TaikoGateway.Lib.Text

namespace Text

/-! ### Lowering -/

def IsAscii (c : Char) : Prop := c.toNat < 128

instance : DecidablePred IsAscii := fun c => inferInstanceAs (Decidable (c.toNat < 128))

/-- Only letters are changed, and they become lower case. -/
theorem toLower_eq_self {c : Char} (h : c.toLower.isLower = false) : c.toLower = c := by
  apply Char.toLower_eq_of_not_isUpper
  intro hupper
  rw [Char.isLower_toLower_eq_isAlpha, Char.isAlpha, hupper, Bool.true_or] at h
  cases h

theorem isAscii_of_toLower {c : Char} (h : IsAscii c.toLower) : IsAscii c := by
  by_cases hupper : c.isUpper = true
  · simp only [Char.isUpper, decide_eq_true_eq] at hupper
    exact lt_of_le_of_lt (show c.toNat ≤ 90 from hupper.2) (by decide)
  · rwa [Char.toLower_eq_of_not_isUpper hupper] at h

theorem isAscii_of_isDigit {c : Char} (h : c.isDigit = true) : IsAscii c := by
  simp only [Char.isDigit, Bool.and_eq_true, decide_eq_true_eq] at h
  exact lt_of_le_of_lt (show c.toNat ≤ 57 from h.2) (by decide)

/-- Capital I with a dot above. -/
def dottedI : Char := Char.ofNat 0x130

def kelvinSign : Char := Char.ofNat 0x212A

def capitalSigma : Char := Char.ofNat 0x3A3

def smallSigma : Char := Char.ofNat 0x3C3

def finalSigma : Char := Char.ofNat 0x3C2

/-- The case mappings.  Only two letters that are not ASCII have ASCII letters
in their lower case. -/
structure CaseTable where
  lower : Char → List Char
  cased : Char → Bool
  caseIgnorable : Char → Bool
  lower_ascii : ∀ c, IsAscii c → lower c = [c.toLower]
  lower_dottedI : lower dottedI = ['i', Char.ofNat 0x307]
  lower_kelvinSign : lower kelvinSign = ['k']
  lower_other : ∀ c, ¬ IsAscii c → c ≠ dottedI → c ≠ kelvinSign →
    lower c ≠ [] ∧ ∀ d ∈ lower c, ¬ IsAscii d

namespace CaseTable

variable (u : CaseTable)

/-- Behind its case-ignorable letters the text goes on with a cased one. -/
def caseIgnorableThenCased (s : List Char) : Bool :=
  match (s.dropWhile u.caseIgnorable).head? with
  | some c => u.cased c
  | none => false

/-- A letter between the text before it, which is reversed, and the text after
it.  At the end of a word sigma has another lower case. -/
def lowerAt (before after : List Char) (c : Char) : List Char :=
  if c = capitalSigma then
    if u.caseIgnorableThenCased before && !u.caseIgnorableThenCased after then [finalSigma]
    else [smallSigma]
  else u.lower c

def lowerFrom : List Char → List Char → List Char
  | _, [] => []
  | before, c :: after => u.lowerAt before after c ++ lowerFrom (c :: before) after

def toLowercase (s : List Char) : List Char := u.lowerFrom [] s

end CaseTable

/-! ### Lowerings -/

/-- What the lower case of a letter can be. -/
inductive LoweredChar : Char → List Char → Prop
  | ascii {c : Char} (h : IsAscii c) : LoweredChar c [c.toLower]
  | other {c d : Char} {ds : List Char} (h : ¬ IsAscii c)
      (hd : IsAscii d → d = 'k' ∨ d = 'i' ∧ ds ≠ []) (hds : ∀ e ∈ ds, ¬ IsAscii e) :
      LoweredChar c (d :: ds)

/-- A lowering of a text, letter by letter. -/
inductive Lowered : List Char → List Char → Prop
  | nil : Lowered [] []
  | cons {c : Char} {piece s l : List Char} (hpiece : LoweredChar c piece) (h : Lowered s l) :
      Lowered (c :: s) (piece ++ l)

theorem CaseTable.lowerAt_lowered (u : CaseTable) (before after : List Char) (c : Char) :
    LoweredChar c (u.lowerAt before after c) := by
  rw [CaseTable.lowerAt]
  by_cases hsigma : c = capitalSigma
  · have hc : ¬ IsAscii c := hsigma ▸ by decide
    rw [if_pos hsigma]
    split
    · exact .other hc (fun h => absurd h (by decide)) (by simp)
    · exact .other hc (fun h => absurd h (by decide)) (by simp)
  · rw [if_neg hsigma]
    by_cases hascii : IsAscii c
    · rw [u.lower_ascii c hascii]
      exact .ascii hascii
    · by_cases hdotted : c = dottedI
      · rw [hdotted, u.lower_dottedI]
        exact .other (by decide) (fun _ => Or.inr ⟨rfl, by simp⟩)
          (List.forall_mem_singleton.mpr (by decide))
      · by_cases hkelvin : c = kelvinSign
        · rw [hkelvin, u.lower_kelvinSign]
          exact .other (by decide) (fun _ => Or.inl rfl) (by simp)
        · obtain ⟨hne, hother⟩ := u.lower_other c hascii hdotted hkelvin
          obtain ⟨d, ds, hlower⟩ := List.exists_cons_of_ne_nil hne
          rw [hlower] at hother ⊢
          exact .other hascii (fun h => absurd h (hother d List.mem_cons_self)) fun e he =>
            hother e (List.mem_cons_of_mem d he)

theorem CaseTable.lowerFrom_lowered (u : CaseTable) (before s : List Char) :
    Lowered s (u.lowerFrom before s) := by
  induction s generalizing before with
  | nil => exact .nil
  | cons c s ih => exact .cons (u.lowerAt_lowered before s c) (ih (c :: before))

theorem CaseTable.toLowercase_lowered (u : CaseTable) (s : List Char) :
    Lowered s (u.toLowercase s) :=
  u.lowerFrom_lowered [] s

/-- A lowering of appended texts is one of each. -/
theorem lowered_append_iff {s t l : List Char} :
    Lowered (s ++ t) l ↔ ∃ l₁ l₂, l = l₁ ++ l₂ ∧ Lowered s l₁ ∧ Lowered t l₂ := by
  induction s generalizing l with
  | nil =>
      constructor
      · intro h
        exact ⟨[], l, rfl, .nil, h⟩
      · rintro ⟨l₁, l₂, rfl, h₁, h₂⟩
        cases h₁
        exact h₂
  | cons c s ih =>
      constructor
      · intro h
        cases h with
        | cons hpiece h =>
            obtain ⟨l₁, l₂, rfl, h₁, h₂⟩ := ih.mp h
            exact ⟨_, l₂, (List.append_assoc _ _ _).symm, .cons hpiece h₁, h₂⟩
      · rintro ⟨l₁, l₂, rfl, h₁, h₂⟩
        cases h₁ with
        | cons hpiece h₁ =>
            rw [List.append_assoc]
            exact .cons hpiece (ih.mpr ⟨_, l₂, rfl, h₁, h₂⟩)

/-- An ASCII text has one lowering. -/
theorem Lowered.eq_map {s l : List Char} (h : Lowered s l) (hs : ∀ c ∈ s, IsAscii c) :
    l = s.map Char.toLower := by
  induction h with
  | nil => rfl
  | @cons c piece s l hpiece h ih =>
      rw [ih fun d hd => hs d (List.mem_cons_of_mem c hd)]
      cases hpiece with
      | ascii _ => rfl
      | other hc => exact absurd (hs c List.mem_cons_self) hc

/-! ### Patterns -/

/-- No letter of the pattern can come from a letter that is not ASCII: in the
lower case of the dotted I, the `i` is not the end. -/
def Plain (p : List Char) : Prop :=
  (∀ c ∈ p, IsAscii c ∧ c ≠ 'k') ∧ p.getLast? ≠ some 'i'

instance : DecidablePred Plain := fun p =>
  decidable_of_iff (p.all (fun c => decide (IsAscii c ∧ c ≠ 'k')) = true ∧ p.getLast? ≠ some 'i')
    (and_congr_left fun _ => by simp only [List.all_eq_true, decide_eq_true_eq])

variable {p s l : List Char}

theorem Plain.tail {c : Char} (h : Plain (c :: p)) : Plain p := by
  refine ⟨fun d hd => h.1 d (List.mem_cons_of_mem c hd), ?_⟩
  cases p with
  | nil => simp
  | cons d p => exact h.2

theorem Lowered.prefix_map (h : Lowered s l) (hp : Plain p) (hstart : p <+: l) :
    p <+: s.map Char.toLower := by
  induction h generalizing p with
  | nil => exact hstart
  | @cons c piece s l hpiece h ih =>
      cases p with
      | nil => exact List.nil_prefix
      | cons e p =>
          obtain ⟨hascii, hk⟩ := hp.1 e List.mem_cons_self
          cases hpiece with
          | ascii hc =>
              obtain ⟨rfl, htail⟩ := List.cons_prefix_cons.mp hstart
              exact List.cons_prefix_cons.mpr ⟨rfl, ih hp.tail htail⟩
          | @other d ds hc hd hds =>
              obtain ⟨rfl, htail⟩ := List.cons_prefix_cons.mp hstart
              rcases hd hascii with rfl | ⟨rfl, hne⟩
              · exact absurd rfl hk
              · -- the pattern would have to go on with the rest of the piece
                obtain ⟨d, ds, rfl⟩ := List.exists_cons_of_ne_nil hne
                cases p with
                | nil => exact absurd rfl hp.2
                | cons e p =>
                    obtain ⟨rfl, -⟩ := List.cons_prefix_cons.mp htail
                    exact absurd (hp.1 e (by simp)).1 (hds e List.mem_cons_self)

/-- **A pattern of a lowering** is one of the text with its ASCII letters
lowered. -/
theorem Lowered.infix_map (h : Lowered s l) (hp : Plain p) (hoccurs : p <:+: l) :
    p <:+: s.map Char.toLower := by
  induction h with
  | nil => exact hoccurs
  | @cons c piece s l hpiece h ih =>
      have hcons : Lowered (c :: s) (piece ++ l) := .cons hpiece h
      cases p with
      | nil => exact List.nil_infix
      | cons e p =>
          obtain ⟨d, ds, rfl, hds⟩ : ∃ d ds, piece = d :: ds ∧ ∀ e ∈ ds, ¬ IsAscii e := by
            cases hpiece with
            | ascii _ => exact ⟨_, [], rfl, by simp⟩
            | other _ _ hds => exact ⟨_, _, rfl, hds⟩
          rcases List.infix_cons_iff.mp hoccurs with hstart | hrest
          · exact (hcons.prefix_map hp hstart).isInfix
          · have he : e ∉ ds := fun hmem => hds e hmem (hp.1 e List.mem_cons_self).1
            exact List.infix_cons (ih (infix_of_head_notMem hrest he))

end Text
