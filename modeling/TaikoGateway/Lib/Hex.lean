/-
TaikoGateway/Lib/Hex.lean

Bytes as hexadecimal texts: two digits a byte, the high one first.  `encode`
writes small letters; `decode` reads both cases, behind `0x` or not.

`decode_eq_some_iff` says which texts are read, and as which bytes: the text is,
in small letters, the one that `encode` writes (`IsHex`).
-/
import TaikoGateway.Lib.Text

namespace Hex

/-! ### Digits -/

def digits : List Char := "0123456789abcdef".toList

/-- The digit of a number below 16. -/
def digitChar (n : Nat) : Char := digits.getD n '0'

/-- The number of a digit, in either case. -/
def digitVal (c : Char) : Option Nat :=
  if c.toLower ∈ digits then some (digits.idxOf c.toLower) else none

section Digits

variable {c : Char} {n : Nat}

theorem nodup_digits : digits.Nodup := by decide

theorem digitChar_idxOf (hc : c ∈ digits) : digitChar (digits.idxOf c) = c := by
  have hlt : digits.idxOf c < digits.length := List.idxOf_lt_length_of_mem hc
  rw [digitChar, List.getD_eq_getElem _ _ hlt]
  exact List.getElem_idxOf hlt

theorem idxOf_digitChar (hn : n < 16) : digits.idxOf (digitChar n) = n := by
  have hlt : n < digits.length := hn
  rw [digitChar, List.getD_eq_getElem _ _ hlt]
  exact nodup_digits.idxOf_getElem n hlt

theorem digitChar_mem (hn : n < 16) : digitChar n ∈ digits := by
  have hlt : n < digits.length := hn
  rw [digitChar, List.getD_eq_getElem _ _ hlt]
  exact List.getElem_mem hlt

theorem digitVal_eq_some_iff : digitVal c = some n ↔ n < 16 ∧ c.toLower = digitChar n := by
  simp only [digitVal, Option.ite_none_right_eq_some, Option.some.injEq]
  constructor
  · rintro ⟨hmem, rfl⟩
    exact ⟨List.idxOf_lt_length_of_mem hmem, (digitChar_idxOf hmem).symm⟩
  · rintro ⟨hn, hc⟩
    rw [hc]
    exact ⟨digitChar_mem hn, idxOf_digitChar hn⟩

end Digits

/-! ### Texts -/

/-- The two digits of a byte. -/
def byteChars (b : UInt8) : List Char := [digitChar (b.toNat / 16), digitChar (b.toNat % 16)]

def encode (bs : List UInt8) : List Char := bs.flatMap byteChars

/-- The bytes of a text of digits. -/
def decodeDigits : List Char → Option (List UInt8)
  | [] => some []
  | [_] => none
  | a :: b :: rest => do
      let hi ← digitVal a
      let lo ← digitVal b
      let bytes ← decodeDigits rest
      some (UInt8.ofNat (16 * hi + lo) :: bytes)

/-- The bytes of a text, which may start with `0x`. -/
def decode (s : List Char) : Option (List UInt8) :=
  match Text.stripPrefix s "0x".toList with
  | some digits => decodeDigits digits
  | none => decodeDigits s

/-- The text of these bytes, in any letter case. -/
def IsHex (s : List Char) (bs : List UInt8) : Prop :=
  ∃ digits, (s = digits ∨ s = "0x".toList ++ digits) ∧ digits.map Char.toLower = encode bs

section Texts

variable {s : List Char} {bs : List UInt8} {b : UInt8} {hi lo : Nat}

theorem length_encode (bs : List UInt8) : (encode bs).length = 2 * bs.length := by
  simp only [encode, byteChars, List.length_flatMap, List.length_cons, List.length_nil,
    List.map_const', List.sum_replicate, smul_eq_mul]
  omega

/-- A byte is its two digits. -/
theorem ofNat_eq_iff (hhi : hi < 16) (hlo : lo < 16) :
    UInt8.ofNat (16 * hi + lo) = b ↔ hi = b.toNat / 16 ∧ lo = b.toNat % 16 := by
  have hb := b.toNat_lt
  have hval : (UInt8.ofNat (16 * hi + lo)).toNat = 16 * hi + lo := by
    rw [UInt8.toNat_ofNat']
    omega
  rw [← UInt8.toNat_inj, hval]
  omega

theorem byteChars_eq_iff {a c : Char} :
    [a.toLower, c.toLower] = byteChars b ↔
      digitVal a = some (b.toNat / 16) ∧ digitVal c = some (b.toNat % 16) := by
  have hb := b.toNat_lt
  have hhi : b.toNat / 16 < 16 := by omega
  have hlo : b.toNat % 16 < 16 := by omega
  simp only [digitVal_eq_some_iff, byteChars, List.cons.injEq, and_true, hhi, hlo, true_and]

theorem decodeDigits_eq_some_iff :
    decodeDigits s = some bs ↔ s.map Char.toLower = encode bs := by
  induction s using decodeDigits.induct generalizing bs with
  | case1 =>
      cases bs with
      | nil => exact ⟨fun _ => rfl, fun _ => rfl⟩
      | cons b bs =>
          constructor
          · intro h
            cases h
          · intro h
            cases h
  | case2 c =>
      constructor
      · intro h
        cases h
      · intro h
        have hlength := congrArg List.length h
        rw [length_encode, List.length_map, List.length_singleton] at hlength
        omega
  | case3 a c rest ih =>
      simp only [decodeDigits, Option.bind_eq_bind, Option.bind_eq_some_iff, Option.some.injEq,
        List.map_cons]
      constructor
      · rintro ⟨hi, hhi, lo, hlo, bytes, hbytes, rfl⟩
        have hhi' := (digitVal_eq_some_iff.mp hhi).1
        have hlo' := (digitVal_eq_some_iff.mp hlo).1
        obtain ⟨hb, hb'⟩ := (ofNat_eq_iff hhi' hlo').mp rfl
        rw [hb] at hhi
        rw [hb'] at hlo
        have hpair := byteChars_eq_iff.mpr ⟨hhi, hlo⟩
        rw [encode, List.flatMap_cons, ← hpair, ← encode, ← ih.mp hbytes]
        rfl
      · intro h
        cases bs with
        | nil => cases h
        | cons b bs =>
            obtain ⟨hpair, hrest⟩ := List.append_inj
              (show [a.toLower, c.toLower] ++ rest.map Char.toLower = byteChars b ++ encode bs
                from h) rfl
            obtain ⟨hhi, hlo⟩ := byteChars_eq_iff.mp hpair
            have hb := b.toNat_lt
            refine ⟨_, hhi, _, hlo, bs, ih.mpr hrest, ?_⟩
            rw [(ofNat_eq_iff (by omega) (by omega)).mpr ⟨rfl, rfl⟩]

theorem mem_digits_of_mem_encode {c : Char} (hc : c ∈ encode bs) : c ∈ digits := by
  obtain ⟨b, -, hmem⟩ := List.mem_flatMap.mp hc
  have hb := b.toNat_lt
  rcases List.mem_pair.mp hmem with rfl | rfl
  · exact digitChar_mem (by omega)
  · exact digitChar_mem (by omega)

theorem map_toLower_encode (bs : List UInt8) : (encode bs).map Char.toLower = encode bs := by
  have hsmall : ∀ c ∈ encode bs, c.toLower = c := by
    intro c hc
    have hall : digits.all (fun c => c.toLower == c) = true := by decide
    exact eq_of_beq (List.all_eq_true.mp hall c (mem_digits_of_mem_encode hc))
  calc (encode bs).map Char.toLower = (encode bs).map id := List.map_congr_left hsmall
    _ = encode bs := List.map_id _

/-- It has no other letters. -/
theorem IsHex.notMem {c : Char} (h : IsHex s bs) (hc : c.toLower ∉ digits)
    (hx : c ∉ "0x".toList) : c ∉ s := by
  obtain ⟨t, hs, ht⟩ := h
  have hnot : c ∉ t := by
    intro hmem
    apply hc
    apply mem_digits_of_mem_encode
    rw [← ht]
    exact List.mem_map_of_mem hmem
  rcases hs with rfl | rfl
  · exact hnot
  · rw [List.mem_append, not_or]
    exact ⟨hx, hnot⟩

/-- Every text that is read, and its bytes. -/
theorem decode_eq_some_iff : decode s = some bs ↔ IsHex s bs := by
  rw [decode]
  split
  · rename_i t ht
    rw [Text.stripPrefix_eq_some_iff] at ht
    rw [decodeDigits_eq_some_iff]
    constructor
    · intro h
      exact ⟨t, Or.inr ht, h⟩
    · rintro ⟨t', hs | hs, h⟩
      · -- `x` is no digit
        rw [← hs, ht] at h
        have hx := decodeDigits_eq_some_iff.mpr h
        cases hx
      · rw [ht] at hs
        rwa [List.append_cancel_left hs]
  · rename_i hnone
    rw [decodeDigits_eq_some_iff]
    constructor
    · intro h
      exact ⟨s, Or.inl rfl, h⟩
    · rintro ⟨t, rfl | rfl, h⟩
      · exact h
      · exact absurd (List.prefix_append _ t) (Text.stripPrefix_eq_none_iff.mp hnone)

theorem decode_encode (bs : List UInt8) : decode (encode bs) = some bs :=
  decode_eq_some_iff.mpr ⟨encode bs, Or.inl rfl, map_toLower_encode bs⟩

end Texts

end Hex
