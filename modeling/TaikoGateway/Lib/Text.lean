/-
TaikoGateway/Lib/Text.lean

Searching in texts.  A text is a list over an arbitrary alphabet; `splitOnce`
cuts it at the first occurrence of a separator, `split` at all of them, found
from the left (`split_append`).  The first occurrence is the one
behind `a` when `a` and all of the separator but its last letter hold none
(`FirstAfter`), which is decided by single letters: an occurrence starts with
the first letter of the separator (`FirstAfter.of_notMem`), and does not go over
a letter that it does not have (`infix_of_barrier`).

Decimal numerals are texts over `Char`; `parseUint` reads one into a width, and
is undone by `Nat.toDigits` on the numbers that fit (`parseUint_toDigits`).
-/
import Mathlib

namespace Text

variable {α : Type*}

/-! ### Occurrences -/

section Occurrences

variable {p s t : List α} {c : α}

/-- An occurrence of `p` does not start where its first letter is not. -/
theorem infix_of_head_notMem (h : c :: p <:+: s ++ t) (hs : c ∉ s) : c :: p <:+: t := by
  induction s with
  | nil => exact h
  | cons d s ih =>
      rw [List.mem_cons, not_or] at hs
      rcases List.infix_cons_iff.mp h with hstart | hoccurs
      · obtain ⟨rest, hrest⟩ := hstart
        exact absurd (List.cons.inj hrest).1 hs.1
      · exact ih hoccurs hs.2

theorem prefix_of_barrier (h : p <+: s ++ c :: t) (hc : c ∉ p) : p <+: s := by
  induction s generalizing p with
  | nil =>
      cases p with
      | nil => exact List.prefix_rfl
      | cons d p => exact absurd (List.cons_prefix_cons.mp h).1 (List.ne_of_not_mem_cons hc).symm
  | cons d s ih =>
      cases p with
      | nil => exact List.nil_prefix
      | cons e p =>
          obtain ⟨hhead, htail⟩ := List.cons_prefix_cons.mp h
          exact List.cons_prefix_cons.mpr ⟨hhead, ih htail (List.not_mem_of_not_mem_cons hc)⟩

/-- An occurrence of `p` does not go over a letter that `p` does not have. -/
theorem infix_of_barrier (h : p <:+: s ++ c :: t) (hc : c ∉ p) : p <:+: s ∨ p <:+: t := by
  induction s with
  | nil =>
      rcases List.infix_cons_iff.mp h with hstart | hoccurs
      · exact Or.inl (prefix_of_barrier (s := []) hstart hc).isInfix
      · exact Or.inr hoccurs
  | cons d s ih =>
      rcases List.infix_cons_iff.mp h with hstart | hoccurs
      · exact Or.inl (prefix_of_barrier (s := d :: s) hstart hc).isInfix
      · exact (ih hoccurs).imp_left List.infix_cons

theorem infix_append_of_head (h : p <:+: s ++ t) (ht : t.head? = some c) (hc : c ∉ p) :
    p <:+: s ∨ p <:+: t := by
  obtain ⟨t, rfl⟩ := List.head?_eq_some_iff.mp ht
  exact (infix_of_barrier h hc).imp_right List.infix_cons

theorem infix_append_of_getLast (h : p <:+: s ++ t) (hs : s.getLast? = some c) (hc : c ∉ p) :
    p <:+: s ∨ p <:+: t := by
  obtain ⟨s, rfl⟩ := List.getLast?_eq_some_iff.mp hs
  rw [List.append_assoc, List.singleton_append] at h
  exact (infix_of_barrier h hc).imp_left fun hs => hs.trans (List.prefix_append s [c]).isInfix

/-- Nor does it touch a stretch of such letters. -/
theorem infix_of_barriers {b : List α} (h : p <:+: s ++ (b ++ t)) (hp : p ≠ []) (hb : b ≠ [])
    (hnot : ∀ c ∈ b, c ∉ p) : p <:+: s ∨ p <:+: t := by
  obtain ⟨c, b, rfl⟩ := List.exists_cons_of_ne_nil hb
  rcases infix_of_barrier h (hnot c List.mem_cons_self) with hs | ht
  · exact Or.inl hs
  · obtain ⟨d, p, rfl⟩ := List.exists_cons_of_ne_nil hp
    right
    apply infix_of_head_notMem ht
    intro hd
    exact hnot d (List.mem_cons_of_mem c hd) List.mem_cons_self

/-- An occurrence in an image is one in the text, if its letters are only their
own images. -/
theorem infix_of_map {f : α → α} (h : p <:+: t.map f) (hf : ∀ c, f c ∈ p → f c = c) :
    p <:+: t := by
  obtain ⟨q, hq, rfl⟩ := List.infix_map_iff.mp h
  have hsame : q.map f = q.map id :=
    List.map_congr_left fun c hc => hf c (List.mem_map_of_mem hc)
  rw [List.map_id] at hsame
  rwa [hsame]

/-- A text that starts differently does not start with `p`. -/
theorem not_prefix_append (hp : ¬ p <+: s) (hs : ¬ s <+: p) : ¬ p <+: s ++ t := by
  intro h
  rcases List.prefix_or_prefix_of_prefix h (List.prefix_append s t) with hle | hle
  · exact hp hle
  · exact hs hle

end Occurrences

/-! ### Splitting -/

section Split

variable {s sep p q : List α} {c : α}

/-- Behind `p`, an occurrence of the separator is the first one. -/
def FirstAfter (sep p : List α) : Prop := ¬ sep <:+: p ++ sep.dropLast

/-- Nothing before it has the first letter of the separator. -/
theorem FirstAfter.of_notMem (hsep : sep.head? = some c) (hp : c ∉ p) : FirstAfter sep p := by
  obtain ⟨sep, rfl⟩ := List.head?_eq_some_iff.mp hsep
  intro h
  have hlast := infix_of_head_notMem h hp
  have hle := hlast.length_le
  simp only [List.length_dropLast, List.length_cons] at hle
  omega

variable [DecidableEq α]

/-- The text behind a prefix. -/
def stripPrefix (s pre : List α) : Option (List α) := s.dropPrefix? pre

/-- The text before and behind the first occurrence of the separator. -/
def splitOnce (s sep : List α) : Option (List α × List α) := s.dropInfix? sep

theorem stripPrefix_eq_some_iff {pre : List α} : stripPrefix s pre = some q ↔ s = pre ++ q := by
  rw [stripPrefix, List.dropPrefix?_eq_some_iff]
  constructor
  · rintro ⟨pre', rfl, hpre⟩
    rw [eq_of_beq hpre]
  · rintro rfl
    exact ⟨pre, rfl, beq_self_eq_true pre⟩

theorem stripPrefix_eq_none_iff {pre : List α} : stripPrefix s pre = none ↔ ¬ pre <+: s := by
  rw [Option.eq_none_iff_forall_ne_some]
  constructor
  · rintro hnone ⟨q, hq⟩
    exact hnone q (stripPrefix_eq_some_iff.mpr hq.symm)
  · intro hnot q hq
    exact hnot ⟨q, (stripPrefix_eq_some_iff.mp hq).symm⟩

/-- What is before the first occurrence, and what is not. -/
theorem splitOnce_eq_some_iff (hsep : sep ≠ []) :
    splitOnce s sep = some (p, q) ↔ s = p ++ sep ++ q ∧ FirstAfter sep p := by
  have hlength : sep.dropLast.length + 1 = sep.length := by
    have hpos := List.length_pos_of_ne_nil hsep
    rw [List.length_dropLast]
    omega
  rw [splitOnce, List.dropInfix?_eq_some_iff]
  constructor
  · rintro ⟨⟨sep', rfl, hsep'⟩, hfirst⟩
    rw [eq_of_beq hsep'] at hfirst ⊢
    refine ⟨rfl, ?_⟩
    rintro ⟨before, after, hbefore⟩
    -- the earlier occurrence is one of the whole text
    have hmin := hfirst before sep (after ++ sep.getLast hsep :: q) ?_ (beq_self_eq_true sep)
    · have hsize := congrArg List.length hbefore
      simp only [List.length_append] at hsize
      omega
    · rw [← List.append_assoc, hbefore, List.append_assoc, List.append_assoc,
        ← List.singleton_append (l := q), ← List.append_assoc sep.dropLast,
        List.dropLast_append_getLast hsep]
  · rintro ⟨rfl, hfirst⟩
    refine ⟨⟨sep, rfl, beq_self_eq_true sep⟩, fun before sep' after heq hsep' => ?_⟩
    rw [eq_of_beq hsep'] at heq
    by_contra hlt
    -- an earlier occurrence ends before the last letter of this one
    apply hfirst
    have hstart : before ++ sep <+: p ++ sep.dropLast := by
      have hwhole : before ++ sep <+: p ++ sep ++ q := ⟨after, heq.symm⟩
      apply List.prefix_of_prefix_length_le hwhole
      · rw [List.append_assoc]
        exact (List.prefix_append_right_inj p).mpr
          ((List.dropLast_prefix sep).trans (List.prefix_append sep q))
      · simp only [List.length_append]
        omega
    exact (List.suffix_append before sep).isInfix.trans hstart.isInfix

/-- The separator occurs behind a text that does not have its first letter. -/
theorem splitOnce_append (hsep : sep.head? = some c) (hp : c ∉ p) :
    splitOnce (p ++ (sep ++ q)) sep = some (p, q) := by
  have hne : sep ≠ [] := by
    rintro rfl
    cases hsep
  rw [splitOnce_eq_some_iff hne, List.append_assoc]
  exact ⟨rfl, .of_notMem hsep hp⟩

/-- `split` after at most `n` separators. -/
def splitN (sep : List α) : Nat → List α → List (List α)
  | 0, s => [s]
  | n + 1, s =>
      match splitOnce s sep with
      | none => [s]
      | some (p, q) => p :: splitN sep n q

/-- The pieces of a text between the occurrences of a separator. -/
def split (s sep : List α) : List (List α) := splitN sep s.length s

theorem splitOnce_eq_none (h : ¬ sep <:+: s) (hsep : sep ≠ []) : splitOnce s sep = none := by
  rw [Option.eq_none_iff_forall_ne_some]
  rintro ⟨p, q⟩ hsome
  obtain ⟨rfl, -⟩ := (splitOnce_eq_some_iff hsep).mp hsome
  exact h ⟨p, q, rfl⟩

theorem splitN_eq_singleton (h : ¬ sep <:+: s) (hsep : sep ≠ []) (n : Nat) :
    splitN sep n s = [s] := by
  cases n with
  | zero => rfl
  | succ n => simp only [splitN, splitOnce_eq_none h hsep]

/-- A text has at most as many separators as letters. -/
theorem splitN_congr (hsep : sep ≠ []) {m n : Nat} (hm : s.length ≤ m) (hn : s.length ≤ n) :
    splitN sep m s = splitN sep n s := by
  induction m generalizing n s with
  | zero =>
      have hnil : s = [] := List.length_eq_zero_iff.mp (Nat.le_zero.mp hm)
      have hnot : ¬ sep <:+: s := by simpa [hnil] using hsep
      rw [splitN_eq_singleton hnot hsep, splitN_eq_singleton hnot hsep]
  | succ m ih =>
      cases n with
      | zero =>
          have hnil : s = [] := List.length_eq_zero_iff.mp (Nat.le_zero.mp hn)
          have hnot : ¬ sep <:+: s := by simpa [hnil] using hsep
          rw [splitN_eq_singleton hnot hsep, splitN_eq_singleton hnot hsep]
      | succ n =>
          simp only [splitN]
          split
          · rfl
          · rename_i p q hsome
            obtain ⟨rfl, -⟩ := (splitOnce_eq_some_iff hsep).mp hsome
            have hpos := List.length_pos_of_ne_nil hsep
            simp only [List.length_append] at hm hn
            rw [@ih q n (by omega) (by omega)]

theorem split_eq_singleton (h : ¬ sep <:+: s) (hsep : sep ≠ []) : split s sep = [s] :=
  splitN_eq_singleton h hsep s.length

/-- Behind the first separator the rest is split. -/
theorem split_append (hsep : sep ≠ []) (hfirst : FirstAfter sep p) :
    split (p ++ sep ++ q) sep = p :: split q sep := by
  obtain ⟨n, hn⟩ : ∃ n, (p ++ sep ++ q).length = n + 1 := by
    have hpos := List.length_pos_of_ne_nil hsep
    refine ⟨(p ++ sep ++ q).length - 1, ?_⟩
    simp only [List.length_append]
    omega
  have hlength : q.length ≤ n := by
    have hpos := List.length_pos_of_ne_nil hsep
    simp only [List.length_append] at hn
    omega
  rw [split, hn, splitN, (splitOnce_eq_some_iff hsep).mpr ⟨rfl, hfirst⟩]
  show p :: splitN sep n q = p :: split q sep
  rw [split, splitN_congr hsep hlength le_rfl]

end Split

/-! ### Decimal numerals -/

section Decimal

/-- The unsigned integers of this width, as `parse` reads them. -/
def parseUint (bits : Nat) (s : List Char) : Option Nat :=
  let digits :=
    match s with
    | '+' :: digits => digits
    | _ => s
  if digits ≠ [] ∧ digits.all Char.isDigit ∧ Nat.ofDigitChars 10 digits 0 < 2 ^ bits then
    some (Nat.ofDigitChars 10 digits 0)
  else none

/-- The text of a number of this width: its digits, behind a plus sign or not. -/
def IsUint (bits : Nat) (s : List Char) (n : Nat) : Prop :=
  ∃ digits, (s = digits ∨ s = '+' :: digits) ∧ digits ≠ [] ∧ (∀ c ∈ digits, c.isDigit = true) ∧
    Nat.ofDigitChars 10 digits 0 = n ∧ n < 2 ^ bits

variable {bits n : Nat} {s : List Char}

theorem parseUint_eq_some_iff : parseUint bits s = some n ↔ IsUint bits s n := by
  simp only [parseUint, Option.ite_none_right_eq_some, Option.some.injEq, List.all_eq_true]
  split
  · rename_i digits
    constructor
    · rintro ⟨⟨hne, hall, hlt⟩, rfl⟩
      exact ⟨digits, Or.inr rfl, hne, hall, rfl, hlt⟩
    · rintro ⟨digits', heq | heq, hne, hall, rfl, hlt⟩
      · -- a plus sign is no digit
        rw [← heq] at hall
        exact absurd (hall '+' List.mem_cons_self) (by decide)
      · rw [(List.cons.inj heq).2]
        exact ⟨⟨hne, hall, hlt⟩, rfl⟩
  · rename_i hplus
    constructor
    · rintro ⟨⟨hne, hall, hlt⟩, rfl⟩
      exact ⟨s, Or.inl rfl, hne, hall, rfl, hlt⟩
    · rintro ⟨digits, rfl | heq, hne, hall, rfl, hlt⟩
      · exact ⟨⟨hne, hall, hlt⟩, rfl⟩
      · exact absurd heq (hplus digits)

theorem isDigit_of_mem_toDigits {c : Char} (hc : c ∈ Nat.toDigits 10 n) : c.isDigit = true :=
  Nat.isDigit_of_mem_toDigits (by decide) (by decide) hc

theorem notMem_toDigits {c : Char} (hc : c.isDigit = false) (n : Nat) :
    c ∉ Nat.toDigits 10 n := by
  intro hmem
  rw [isDigit_of_mem_toDigits hmem] at hc
  cases hc

theorem parseUint_toDigits (hn : n < 2 ^ bits) : parseUint bits (Nat.toDigits 10 n) = some n :=
  parseUint_eq_some_iff.mpr ⟨_, Or.inl rfl, Nat.toDigits_ne_nil,
    fun _ => isDigit_of_mem_toDigits, Nat.ofDigitChars_ten_toDigits, hn⟩

/-- A number that does not fit is no number of this width. -/
theorem parseUint_toDigits_eq_none (hn : 2 ^ bits ≤ n) :
    parseUint bits (Nat.toDigits 10 n) = none := by
  rw [Option.eq_none_iff_forall_ne_some]
  intro m hm
  obtain ⟨digits, heq | heq, -, hall, rfl, hlt⟩ := parseUint_eq_some_iff.mp hm
  · rw [← heq, Nat.ofDigitChars_ten_toDigits] at hlt
    omega
  · have hplus : '+' ∈ Nat.toDigits 10 n := heq ▸ List.mem_cons_self
    exact absurd (isDigit_of_mem_toDigits hplus) (by decide)

end Decimal

end Text
