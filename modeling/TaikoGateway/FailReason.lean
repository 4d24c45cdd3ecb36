/-
TaikoGateway/FailReason.lean

Why the pool of the L1 node refuses a replacement, as read from the text of its
error (`FailReason::try_extract`).  The text is lowered and searched for the cap
that was too low; behind it, the two numbers of the comparison are the first
ones on both sides of ` <`.

`tryExtract_reads` says that it reads every such text, in any letter case and
with any text around it that does not look like another comparison.  Then the
next attempt raises that cap (`onError_of_underpriced`).
-/
import TaikoGateway.Underpriced
import TaikoGateway.Lib.Lowercase

namespace TaikoGateway

open Text

inductive FailReason
  | underpricedTipCap (sent queued : Nat)
  | underpricedBlobFeeCap (sent queued : Nat)
  | underpricedGasFeeCap (sent queued : Nat)
  | underpricedUnknown
  deriving DecidableEq, Repr

namespace FailReason

/-! ### Extracting -/

def extractFirstU128 (s : List Char) : Option Nat :=
  match s.dropWhile fun c => !c.isDigit with
  | [] => none
  | remainder => parseUint 128 (remainder.takeWhile Char.isDigit)

/-- The numbers around the one ` <` of a text. -/
def comparison (after : List Char) : Option (Nat × Nat) :=
  match split after " <".toList with
  | [a, b] => do
      let sent ← extractFirstU128 a
      let queued ← extractFirstU128 b
      some (sent, queued)
  | _ => none

def underpricedText : List Char := "replacement transaction underpriced".toList

def tipCapMarker : List Char := "new tx gas tip cap ".toList

def blobFeeCapMarker : List Char := "new tx blob gas fee cap ".toList

def gasFeeCapMarker : List Char := "new tx gas fee cap ".toList

def tryExtract (u : CaseTable) (input : String) : Option FailReason :=
  let lower := u.toLowercase input.toList
  if ¬ underpricedText <:+: lower then none
  else
    match (split lower tipCapMarker)[1]? with
    | some after => (comparison after).map fun r => .underpricedTipCap r.1 r.2
    | none =>
        match (split lower blobFeeCapMarker)[1]? with
        | some after => (comparison after).map fun r => .underpricedBlobFeeCap r.1 r.2
        | none =>
            match (split lower gasFeeCapMarker)[1]? with
            | some after => (comparison after).map fun r => .underpricedGasFeeCap r.1 r.2
            | none => some .underpricedUnknown

end FailReason

/-! ### The errors of the node -/

namespace ProposeBatch.Cap

variable {n : Nat}

def marker : Cap → List Char
  | .tip => FailReason.tipCapMarker
  | .gasFee => FailReason.gasFeeCapMarker
  | .blobFee => FailReason.blobFeeCapMarker

def failReason : Cap → (sent queued : Nat) → FailReason
  | .tip => .underpricedTipCap
  | .gasFee => .underpricedGasFeeCap
  | .blobFee => .underpricedBlobFeeCap

theorem isDigit_of_mem_marker (m : Cap) : ∀ c ∈ m.marker, c.isDigit = false := by
  have hall : m.marker.all (fun c => !c.isDigit) = true := by cases m <;> decide
  intro c hc
  simpa using List.all_eq_true.mp hall c hc

theorem notMem_marker (m : Cap) : ∀ c ∈ Nat.toDigits 10 n, c ∉ m.marker := by
  intro c hc hmem
  have hdigit := isDigit_of_mem_toDigits hc
  rw [m.isDigit_of_mem_marker c hmem] at hdigit
  cases hdigit

theorem marker_ne_nil (m : Cap) : m.marker ≠ [] := by
  cases m <;> decide

theorem plain_marker (m : Cap) : Plain m.marker := by
  cases m <;> decide

end ProposeBatch.Cap

namespace FailReason

open ProposeBatch (AttemptError Cap LoopVars u128)

/-- How the caps were compared. -/
inductive Comparison
  | less
  | lessOrEqual
  deriving DecidableEq, Repr

/-- Behind ` <`. -/
def Comparison.rest : Comparison → List Char
  | .less => " ".toList
  | .lessOrEqual => "= ".toList

def comparedTo (cmp : Comparison) (queued : Nat) : List Char :=
  " <".toList ++ (cmp.rest ++ (Nat.toDigits 10 queued ++ " queued".toList))

def underpricedPrefix : List Char := "replacement transaction underpriced: ".toList

/-- The error of the node. -/
def underpriced (cap : Cap) (cmp : Comparison) (sent queued : Nat) : List Char :=
  underpricedPrefix ++ (cap.marker ++ (Nat.toDigits 10 sent ++ comparedTo cmp queued))

/-! ### Numbers -/

/-- The first number of a text, behind letters that are no digits. -/
theorem extractFirstU128_append {a t : List Char} {n : Nat} (hn : n < 2 ^ 128)
    (ha : ∀ c ∈ a, c.isDigit = false) (ht : ∀ c ∈ t.head?, c.isDigit = false) :
    extractFirstU128 (a ++ (Nat.toDigits 10 n ++ t)) = some n := by
  obtain ⟨d, ds, hdigits⟩ := List.exists_cons_of_ne_nil (@Nat.toDigits_ne_nil n 10)
  have hd : d.isDigit = true := isDigit_of_mem_toDigits (hdigits ▸ List.mem_cons_self)
  have hdrop : (a ++ (Nat.toDigits 10 n ++ t)).dropWhile (fun c => !c.isDigit) =
      Nat.toDigits 10 n ++ t := by
    rw [List.dropWhile_append_of_pos fun c hc => by rw [ha c hc]; rfl, hdigits, List.cons_append,
      List.dropWhile_cons_of_neg (by simp [hd])]
  have hrest : t.takeWhile Char.isDigit = [] := by
    cases t with
    | nil => rfl
    | cons c t =>
        apply List.takeWhile_cons_of_neg
        rw [ht c rfl]
        decide
  have htake : (Nat.toDigits 10 n ++ t).takeWhile Char.isDigit = Nat.toDigits 10 n := by
    rw [List.takeWhile_append_of_pos fun c hc => isDigit_of_mem_toDigits hc, hrest,
      List.append_nil]
  rw [extractFirstU128, hdrop]
  split
  · rename_i hnil
    rw [hdigits] at hnil
    cases hnil
  · rw [htake]
    exact parseUint_toDigits hn

/-! ### Searching the error -/

section Search

variable {cap : Cap} {cmp : Comparison} {sent queued : Nat} {l t : List Char}

/-- The text behind the numbers has no second comparison. -/
theorem comparison_eq_some (hsent : sent < 2 ^ 128) (hqueued : queued < 2 ^ 128)
    (ht : ¬ " <".toList <:+: t) :
    comparison (Nat.toDigits 10 sent ++ (comparedTo cmp queued ++ t)) = some (sent, queued) := by
  have hne : " <".toList ≠ [] := by decide
  have hfirst : FirstAfter " <".toList (Nat.toDigits 10 sent) :=
    .of_notMem rfl (notMem_toDigits rfl sent)
  have hrest : ¬ " <".toList <:+:
      cmp.rest ++ (Nat.toDigits 10 queued ++ (" queued".toList ++ t)) := by
    intro h
    have hdigits : ∀ c ∈ Nat.toDigits 10 queued, c ∉ " <".toList := by
      intro c hc hmem
      have hdigit := isDigit_of_mem_toDigits hc
      rcases List.mem_cons.mp hmem with rfl | hmem
      · exact absurd hdigit (by decide)
      · rw [List.mem_singleton.mp hmem] at hdigit
        exact absurd hdigit (by decide)
    rcases infix_of_barriers h hne Nat.toDigits_ne_nil hdigits with h | h
    · cases cmp <;> exact absurd h (by decide)
    · rcases infix_append_of_getLast h rfl (by decide) with h | h
      · exact absurd h (by decide)
      · exact ht h
  have hshape : Nat.toDigits 10 sent ++ (comparedTo cmp queued ++ t) = Nat.toDigits 10 sent ++
      " <".toList ++ (cmp.rest ++ (Nat.toDigits 10 queued ++ (" queued".toList ++ t))) := by
    simp only [comparedTo, List.append_assoc]
  have hleft : extractFirstU128 (Nat.toDigits 10 sent) = some sent := by
    have h := @extractFirstU128_append [] [] sent hsent (by simp) (by simp)
    rwa [List.nil_append, List.append_nil] at h
  have hright : extractFirstU128 (cmp.rest ++ (Nat.toDigits 10 queued ++ (" queued".toList ++ t))) =
      some queued := by
    apply extractFirstU128_append hqueued
    · cases cmp <;> simp [Comparison.rest]
    · intro c hc
      obtain rfl : ' ' = c := Option.some.inj hc
      rfl
  rw [comparison, hshape, split_append hne hfirst, split_eq_singleton hrest hne]
  simp only [hleft, hright, Option.bind_eq_bind, Option.bind_some]

/-- No marker is in the text behind the first number. -/
theorem not_marker_comparedTo (m : Cap) (ht : ¬ m.marker <:+: t) :
    ¬ m.marker <:+: comparedTo cmp queued ++ t := by
  intro h
  have hlast : (comparedTo cmp queued).getLast? = some 'd' := by
    rw [comparedTo, ← List.append_assoc, ← List.append_assoc,
      List.getLast?_append_of_ne_nil _ (by decide)]
    rfl
  have hd : 'd' ∉ m.marker := by cases m <;> decide
  rcases infix_append_of_getLast h hlast hd with h | h
  · rw [comparedTo, ← List.append_assoc] at h
    rcases infix_of_barriers h m.marker_ne_nil Nat.toDigits_ne_nil m.notMem_marker with h | h
    · cases m <;> cases cmp <;> exact absurd h (by decide)
    · cases m <;> exact absurd h (by decide)
  · exact ht h

/-- The first marker of the cap is that of the error. -/
theorem firstAfter_marker (hl : ¬ cap.marker <:+: l) :
    FirstAfter cap.marker (l ++ underpricedPrefix) := by
  intro h
  have hr : 'r' ∉ cap.marker := by cases cap <;> decide
  rw [List.append_assoc] at h
  rcases infix_append_of_head h rfl hr with h | h
  · exact hl h
  · cases cap <;> exact absurd h (by decide)

/-- The error has no marker of another cap. -/
theorem not_other_marker {m : Cap} (hm : m ≠ cap) (hl : ¬ m.marker <:+: l)
    (ht : ¬ m.marker <:+: t) :
    ¬ m.marker <:+: l ++ underpricedPrefix ++ cap.marker ++
      (Nat.toDigits 10 sent ++ (comparedTo cmp queued ++ t)) := by
  intro h
  have hr : 'r' ∉ m.marker := by cases m <;> decide
  rcases infix_of_barriers h m.marker_ne_nil Nat.toDigits_ne_nil m.notMem_marker with h | h
  · rw [List.append_assoc] at h
    rcases infix_append_of_head h rfl hr with h | h
    · exact hl h
    · cases m <;> cases cap <;> first | exact hm rfl | exact absurd h (by decide)
  · exact not_marker_comparedTo m ht h

/-- What a split at a marker gives. -/
theorem split_marker (m : Cap) (hl : ∀ m : Cap, ¬ m.marker <:+: l)
    (ht : ∀ m : Cap, ¬ m.marker <:+: t) :
    (split (l ++ (underpriced cap cmp sent queued ++ t)) m.marker)[1]? =
      if m = cap then some (Nat.toDigits 10 sent ++ (comparedTo cmp queued ++ t)) else none := by
  have hshape : l ++ (underpriced cap cmp sent queued ++ t) =
      l ++ underpricedPrefix ++ cap.marker ++
        (Nat.toDigits 10 sent ++ (comparedTo cmp queued ++ t)) := by
    simp only [underpriced, List.append_assoc]
  rw [hshape]
  by_cases hm : m = cap
  · subst hm
    have hrest : ¬ m.marker <:+: Nat.toDigits 10 sent ++ (comparedTo cmp queued ++ t) := by
      intro h
      rcases infix_of_barriers (s := []) h m.marker_ne_nil Nat.toDigits_ne_nil m.notMem_marker
        with h | h
      · exact m.marker_ne_nil (List.infix_nil.mp h)
      · exact not_marker_comparedTo m (ht m) h
    rw [if_pos rfl, split_append m.marker_ne_nil (firstAfter_marker (hl m)),
      split_eq_singleton hrest m.marker_ne_nil]
    rfl
  · rw [if_neg hm, split_eq_singleton (not_other_marker hm (hl m) (ht m)) m.marker_ne_nil]
    rfl

/-- With nothing like a marker around it, the error is read. -/
theorem tryExtract_of_toLowercase (u : CaseTable) {input : String}
    (hinput : u.toLowercase input.toList = l ++ (underpriced cap cmp sent queued ++ t))
    (hsent : sent < 2 ^ 128) (hqueued : queued < 2 ^ 128) (hl : ∀ m : Cap, ¬ m.marker <:+: l)
    (ht : ∀ m : Cap, ¬ m.marker <:+: t) (hsign : ¬ " <".toList <:+: t) :
    tryExtract u input = some (cap.failReason sent queued) := by
  have htext : underpricedText <:+: l ++ (underpriced cap cmp sent queued ++ t) := by
    have hbegin : underpricedPrefix = underpricedText ++ ": ".toList := by decide
    refine ⟨l, ": ".toList ++ (cap.marker ++ (Nat.toDigits 10 sent ++ comparedTo cmp queued)) ++ t,
      ?_⟩
    simp only [underpriced, hbegin, List.append_assoc]
  have hcomparison := @comparison_eq_some cmp sent queued t hsent hqueued hsign
  have htip := @split_marker cap cmp sent queued l t .tip hl ht
  have hblob := @split_marker cap cmp sent queued l t .blobFee hl ht
  have hgas := @split_marker cap cmp sent queued l t .gasFee hl ht
  simp only [Cap.marker] at htip hblob hgas
  simp only [tryExtract, hinput, not_not.mpr htext, if_false, htip, hblob, hgas]
  cases cap <;> simp [hcomparison, Cap.failReason]

end Search

/-! ### Any letter case -/

/-- The text has this pattern, in any letter case. -/
def HasInAnyCase (p : List Char) (s : String) : Prop := p <:+: s.toList.map Char.toLower

instance (p : List Char) (s : String) : Decidable (HasInAnyCase p s) :=
  inferInstanceAs (Decidable (p <:+: s.toList.map Char.toLower))

section LetterCase

variable {cap : Cap} {cmp : Comparison} {sent queued : Nat}

theorem isAscii_of_mem_underpriced : ∀ c ∈ underpriced cap cmp sent queued, IsAscii c := by
  have hword : ∀ {s : List Char}, s.all (fun c => decide (IsAscii c)) = true →
      ∀ c ∈ s, IsAscii c := by
    intro s hs c hc
    simpa using List.all_eq_true.mp hs c hc
  intro c hc
  simp only [underpriced, comparedTo, List.mem_append] at hc
  rcases hc with h | h | h | h | h | h | h
  · exact hword (by decide) c h
  · cases cap <;> exact hword (by decide) c h
  · exact isAscii_of_isDigit (isDigit_of_mem_toDigits h)
  · exact hword (by decide) c h
  · cases cmp <;> exact hword (by decide) c h
  · exact isAscii_of_isDigit (isDigit_of_mem_toDigits h)
  · exact hword (by decide) c h

/-- An error in any letter case, behind any text without a marker and before any
text without a marker and a second comparison. -/
theorem tryExtract_of_underpriced (u : CaseTable) {lead body trail : String}
    (hsent : sent < 2 ^ 128) (hqueued : queued < 2 ^ 128)
    (hlead : ∀ m : Cap, ¬ HasInAnyCase m.marker lead)
    (htrail : ∀ m : Cap, ¬ HasInAnyCase m.marker trail) (hsign : ¬ " <".toList <:+: trail.toList)
    (hbody : body.toList.map Char.toLower = underpriced cap cmp sent queued) :
    tryExtract u (lead ++ body ++ trail) = some (cap.failReason sent queued) := by
  have hascii : ∀ c ∈ body.toList, IsAscii c := by
    intro c hc
    apply isAscii_of_toLower
    apply @isAscii_of_mem_underpriced cap cmp sent queued
    rw [← hbody]
    exact List.mem_map_of_mem hc
  have hlowered : Lowered (lead.toList ++ body.toList ++ trail.toList)
      (u.toLowercase (lead ++ body ++ trail).toList) := by
    rw [← String.toList_append, ← String.toList_append]
    exact u.toLowercase_lowered _
  obtain ⟨l₁, t, heq, h₁, ht⟩ := lowered_append_iff.mp hlowered
  obtain ⟨l, l₂, rfl, hl, h₂⟩ := lowered_append_iff.mp h₁
  rw [h₂.eq_map hascii, hbody, List.append_assoc] at heq
  apply tryExtract_of_toLowercase u heq hsent hqueued
  · intro m hm
    exact hlead m (hl.infix_map m.plain_marker hm)
  · intro m hm
    exact htrail m (ht.infix_map m.plain_marker hm)
  · intro hm
    apply hsign
    apply infix_of_map (ht.infix_map (by decide) hm)
    intro c hc
    apply toLower_eq_self
    rcases List.mem_cons.mp hc with h | h
    · rw [h]
      rfl
    · rw [List.mem_singleton.mp h]
      rfl

theorem tryExtract_eq_none (u : CaseTable) {input : String}
    (h : ¬ HasInAnyCase underpricedText input) : tryExtract u input = none := by
  have hnot : ¬ underpricedText <:+: u.toLowercase input.toList := fun hm =>
    h ((u.toLowercase_lowered input.toList).infix_map (by decide) hm)
  simp only [tryExtract, if_pos hnot]

/-- **Every error of the node is read**, with the cap and both numbers, and no
text without the error is. -/
theorem tryExtract_reads (u : CaseTable) :
    (∀ (cap : Cap) (cmp : Comparison) (sent queued : Nat) (lead body trail : String),
        sent < 2 ^ 128 → queued < 2 ^ 128 → (∀ m : Cap, ¬ HasInAnyCase m.marker lead) →
        (∀ m : Cap, ¬ HasInAnyCase m.marker trail) → ¬ " <".toList <:+: trail.toList →
        body.toList.map Char.toLower = underpriced cap cmp sent queued →
        tryExtract u (lead ++ body ++ trail) = some (cap.failReason sent queued)) ∧
      ∀ input, ¬ HasInAnyCase underpricedText input → tryExtract u input = none := by
  constructor
  · intro cap cmp sent queued lead body trail hsent hqueued hlead htrail hsign hbody
    exact tryExtract_of_underpriced u hsent hqueued hlead htrail hsign hbody
  · intro input hinput
    exact tryExtract_eq_none u hinput

/-- What `propose_batch` makes of an error that is no revert. -/
def attemptError (u : CaseTable) (errStr : String) : AttemptError :=
  match tryExtract u errStr with
  | some (.underpricedTipCap sent queued) => .underpricedTipCap sent queued
  | some (.underpricedBlobFeeCap sent queued) => .underpricedBlobFeeCap sent queued
  | some (.underpricedGasFeeCap sent queued) => .underpricedGasFeeCap sent queued
  | some .underpricedUnknown => .underpricedUnknown
  | none => .other errStr

/-- **The retry**: the next attempt offers twice the queued fee in the cap that
the error names. -/
theorem onError_of_underpriced (u : CaseTable) (vars : LoopVars) {lead body trail : String}
    (hsent : sent < 2 ^ 128) (hqueued : queued < 2 ^ 128)
    (hlead : ∀ m : Cap, ¬ HasInAnyCase m.marker lead)
    (htrail : ∀ m : Cap, ¬ HasInAnyCase m.marker trail) (hsign : ¬ " <".toList <:+: trail.toList)
    (hbody : body.toList.map Char.toLower = underpriced cap cmp sent queued) :
    ∃ v, vars.onError (attemptError u (lead ++ body ++ trail)) = .retry v ∧
      v.cap cap = some (u128 (2 * queued)) ∧ v.retries = vars.retries := by
  have hread := tryExtract_of_underpriced u hsent hqueued hlead htrail hsign hbody
  rw [attemptError, hread]
  cases cap with
  | tip => exact ⟨_, rfl, rfl, rfl⟩
  | gasFee => exact ⟨_, rfl, rfl, rfl⟩
  | blobFee => exact ⟨_, rfl, rfl, rfl⟩

end LetterCase

section Sample

/-- The case mappings as far as ASCII goes. -/
def sampleTable : CaseTable where
  lower c :=
    if IsAscii c then [c.toLower]
    else if c = dottedI then ['i', Char.ofNat 0x307]
    else if c = kelvinSign then ['k']
    else [c]
  cased c := c.isAlpha
  caseIgnorable c := [0x27, 0x2E, 0x3A, 0x5E, 0x60].contains c.toNat
  lower_ascii c hc := if_pos hc
  lower_dottedI := by decide
  lower_kelvinSign := by decide
  lower_other c hascii hdotted hkelvin := by
    rw [if_neg hascii, if_neg hdotted, if_neg hkelvin]
    exact ⟨List.cons_ne_nil c [], List.forall_mem_singleton.mpr hascii⟩

theorem tryExtract_reads_sample :
    tryExtract sampleTable ("server returned an error response: error code -32000: " ++
        "Replacement transaction underpriced: new tx blob gas fee cap 17067 < 13217 queued" ++
        " + 100% replacement penalty") = some (.underpricedBlobFeeCap 17067 13217) ∧
      tryExtract sampleTable "server returned an error response: nonce too low" = none := by
  obtain ⟨hreads, hnone⟩ := tryExtract_reads sampleTable
  constructor
  · apply hreads .blobFee .less 17067 13217
    · decide
    · decide
    · intro m
      cases m <;> decide +kernel
    · intro m
      cases m <;> decide +kernel
    · decide
    · decide +kernel
  · apply hnone
    decide +kernel

end Sample

end FailReason
end TaikoGateway
