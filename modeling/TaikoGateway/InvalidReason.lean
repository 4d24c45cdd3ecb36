/-
TaikoGateway/InvalidReason.lean

Why a simulated tx is invalid, as read from the message of the simulator
(`InvalidReason::deserialize`).  The messages are told apart by a cascade of
tests; where a number does not parse the next test is tried, and a message that
passes none of them is `uknown`.

`Recognised` is the grammar of the messages that pass one, and
`deserialize_messages` says what the messages of the node become.  Amounts that
are no `u128` are not recognised (`insufficient_funds_unknown`).  The sorter
learns the nonce of a sender from them (`handleSim_of_nonceMessage`).
-/
import TaikoGateway.Sorting
import TaikoGateway.Lib.Text

namespace TaikoGateway
namespace InvalidReason

open Text

/-! ### Deserializing -/

/-- The two numbers of a message: behind a prefix, any text and a separator, and
around a text between them. -/
def fields (bits : Nat) (pre sep mid s : List Char) : Option (Nat × Nat) := do
  let captures ← stripPrefix s pre
  let (_, rest) ← splitOnce captures sep
  let (a, b) ← splitOnce rest mid
  let a ← parseUint bits a
  let b ← parseUint bits b
  some (a, b)

def nonceTooLowFields : List Char → Option (Nat × Nat) :=
  fields 64 "nonce too low: address ".toList ", tx: ".toList " state: ".toList

def nonceTooHighFields : List Char → Option (Nat × Nat) :=
  fields 64 "nonce too high: address ".toList ", tx: ".toList " state: ".toList

def insufficientFundsFields : List Char → Option (Nat × Nat) :=
  fields 128 "insufficient funds for gas * price + value: address ".toList " have ".toList
    " want ".toList

def stateIdNotFoundField (s : List Char) : Option Nat :=
  (stripPrefix s "state not found for id ".toList).bind (parseUint 64)

def notEnoughGasText : List Char := "not enough gas for further transactions".toList

def capLessThanBaseFeeText : List Char := "max fee per gas less than block base fee".toList

def deserialize (s : String) : InvalidReason :=
  match nonceTooLowFields s.toList with
  | some (tx, state) => .nonceTooLow tx state
  | none =>
      match nonceTooHighFields s.toList with
      | some (tx, state) => .nonceTooHigh tx state
      | none =>
          if notEnoughGasText <:+: s.toList then .notEnoughGas
          else if capLessThanBaseFeeText <:+: s.toList then .capLessThanBaseFee
          else
            match stateIdNotFoundField s.toList with
            | some state => .stateIdNotFound state
            | none =>
                match insufficientFundsFields s.toList with
                | some (have_, want) => .insufficientFunds have_ want
                | none => .uknown s

/-! ### The grammar -/

/-- A message with two numbers of this width. -/
def IsFields (bits : Nat) (pre sep mid s : List Char) : Prop :=
  ∃ x a b m n, s = pre ++ (x ++ sep ++ (a ++ mid ++ b)) ∧ FirstAfter sep x ∧ FirstAfter mid a ∧
    IsUint bits a m ∧ IsUint bits b n

/-- The messages that are recognised. -/
inductive Recognised (s : List Char) : Prop
  | nonceTooLow (h : IsFields 64 "nonce too low: address ".toList ", tx: ".toList
      " state: ".toList s)
  | nonceTooHigh (h : IsFields 64 "nonce too high: address ".toList ", tx: ".toList
      " state: ".toList s)
  | notEnoughGas (h : notEnoughGasText <:+: s)
  | capLessThanBaseFee (h : capLessThanBaseFeeText <:+: s)
  | stateIdNotFound (rest : List Char) (n : Nat) (h : s = "state not found for id ".toList ++ rest)
      (hn : IsUint 64 rest n)
  | insufficientFunds (h : IsFields 128
      "insufficient funds for gas * price + value: address ".toList " have ".toList
      " want ".toList s)

section Fields

variable {bits : Nat} {pre sep mid s : List Char}

theorem exists_fields_iff (hsep : sep ≠ []) (hmid : mid ≠ []) :
    (∃ r, fields bits pre sep mid s = some r) ↔ IsFields bits pre sep mid s := by
  constructor
  · rintro ⟨⟨m, n⟩, h⟩
    simp only [fields, Option.bind_eq_bind, Option.bind_eq_some_iff] at h
    obtain ⟨captures, hcaptures, ⟨x, rest⟩, hrest, ⟨a, b⟩, hab, m', hm, n', hn, -⟩ := h
    obtain ⟨rfl, hx⟩ := (splitOnce_eq_some_iff hsep).mp hrest
    obtain ⟨rfl, ha⟩ := (splitOnce_eq_some_iff hmid).mp hab
    exact ⟨x, a, b, m', n', stripPrefix_eq_some_iff.mp hcaptures, hx, ha,
      parseUint_eq_some_iff.mp hm, parseUint_eq_some_iff.mp hn⟩
  · rintro ⟨x, a, b, m, n, rfl, hx, ha, hm, hn⟩
    refine ⟨(m, n), ?_⟩
    simp only [fields, stripPrefix_eq_some_iff.mpr rfl,
      (splitOnce_eq_some_iff hsep).mpr ⟨rfl, hx⟩, (splitOnce_eq_some_iff hmid).mpr ⟨rfl, ha⟩,
      parseUint_eq_some_iff.mpr hm, parseUint_eq_some_iff.mpr hn, Option.bind_eq_bind,
      Option.bind_some]

/-- A message with these numbers, if they fit. -/
theorem fields_append {c d : Char} {x : List Char} (hsep : sep.head? = some c)
    (hmid : mid.head? = some d) (hx : c ∉ x) (hd : d.isDigit = false) (m n : Nat) :
    fields bits pre sep mid
        (pre ++ (x ++ (sep ++ (Nat.toDigits 10 m ++ (mid ++ Nat.toDigits 10 n))))) =
      if m < 2 ^ bits ∧ n < 2 ^ bits then some (m, n) else none := by
  have hdigits : d ∉ Nat.toDigits 10 m := notMem_toDigits hd m
  simp only [fields, stripPrefix_eq_some_iff.mpr rfl, splitOnce_append hsep hx,
    splitOnce_append hmid hdigits, Option.bind_eq_bind, Option.bind_some]
  by_cases hm : m < 2 ^ bits
  · by_cases hn : n < 2 ^ bits
    · simp [parseUint_toDigits hm, parseUint_toDigits hn, hm, hn]
    · simp [parseUint_toDigits_eq_none (Nat.le_of_not_lt hn), hn]
  · simp [parseUint_toDigits_eq_none (Nat.le_of_not_lt hm), hm]

theorem fields_eq_none (h : ¬ pre <+: s) : fields bits pre sep mid s = none := by
  simp only [fields, stripPrefix_eq_none_iff.mpr h, Option.bind_eq_bind, Option.bind_none]

end Fields

theorem exists_stateIdNotFoundField_iff {s : List Char} :
    (∃ n, stateIdNotFoundField s = some n) ↔
      ∃ rest n, s = "state not found for id ".toList ++ rest ∧ IsUint 64 rest n := by
  simp only [stateIdNotFoundField, Option.bind_eq_some_iff, stripPrefix_eq_some_iff,
    parseUint_eq_some_iff]
  constructor
  · rintro ⟨n, rest, hs, hn⟩
    exact ⟨rest, n, hs, hn⟩
  · rintro ⟨rest, n, hs, hn⟩
    exact ⟨n, rest, hs, hn⟩

theorem fields_eq_none_of_not {bits : Nat} {pre sep mid s : List Char} (hsep : sep ≠ [])
    (hmid : mid ≠ []) : fields bits pre sep mid s = none ↔ ¬ IsFields bits pre sep mid s := by
  rw [← exists_fields_iff hsep hmid, Option.eq_none_iff_forall_ne_some, not_exists]

/-- **The grammar is what is recognised**: any other message is unknown, and
left as it is. -/
theorem deserialize_eq_uknown_iff {s t : String} :
    deserialize s = .uknown t ↔ s = t ∧ ¬ Recognised s.toList := by
  have hlow : nonceTooLowFields s.toList = none ↔ _ :=
    fields_eq_none_of_not (by decide) (by decide)
  have hhigh : nonceTooHighFields s.toList = none ↔ _ :=
    fields_eq_none_of_not (by decide) (by decide)
  have hfunds : insufficientFundsFields s.toList = none ↔ _ :=
    fields_eq_none_of_not (by decide) (by decide)
  have hid : stateIdNotFoundField s.toList = none ↔ _ :=
    Option.eq_none_iff_forall_ne_some.trans (not_exists.symm.trans
      (not_congr exists_stateIdNotFoundField_iff))
  constructor
  · intro h
    -- each test that passes gives another reason
    have hlowNone : nonceTooLowFields s.toList = none := by
      rw [Option.eq_none_iff_forall_ne_some]
      intro r hr
      simp [deserialize, hr] at h
    have hhighNone : nonceTooHighFields s.toList = none := by
      rw [Option.eq_none_iff_forall_ne_some]
      intro r hr
      simp [deserialize, hlowNone, hr] at h
    have hgas : ¬ notEnoughGasText <:+: s.toList := by
      intro hm
      simp [deserialize, hlowNone, hhighNone, hm] at h
    have hcap : ¬ capLessThanBaseFeeText <:+: s.toList := by
      intro hm
      simp [deserialize, hlowNone, hhighNone, hgas, hm] at h
    have hidNone : stateIdNotFoundField s.toList = none := by
      rw [Option.eq_none_iff_forall_ne_some]
      intro r hr
      simp [deserialize, hlowNone, hhighNone, hgas, hcap, hr] at h
    have hfundsNone : insufficientFundsFields s.toList = none := by
      rw [Option.eq_none_iff_forall_ne_some]
      intro r hr
      simp [deserialize, hlowNone, hhighNone, hgas, hcap, hidNone, hr] at h
    simp only [deserialize, hlowNone, hhighNone, if_neg hgas, if_neg hcap, hidNone,
      hfundsNone] at h
    refine ⟨InvalidReason.uknown.inj h, ?_⟩
    rintro (hm | hm | hm | hm | ⟨rest, n, hs, hn⟩ | hm)
    · exact hlow.mp hlowNone hm
    · exact hhigh.mp hhighNone hm
    · exact hgas hm
    · exact hcap hm
    · exact hid.mp hidNone ⟨rest, n, hs, hn⟩
    · exact hfunds.mp hfundsNone hm
  · rintro ⟨rfl, hnot⟩
    have hlowNone := hlow.mpr fun hm => hnot (.nonceTooLow hm)
    have hhighNone := hhigh.mpr fun hm => hnot (.nonceTooHigh hm)
    have hgas : ¬ notEnoughGasText <:+: s.toList := fun hm => hnot (.notEnoughGas hm)
    have hcap : ¬ capLessThanBaseFeeText <:+: s.toList := fun hm => hnot (.capLessThanBaseFee hm)
    have hidNone := hid.mpr fun hm => by
      obtain ⟨rest, n, hs, hn⟩ := hm
      exact hnot (.stateIdNotFound rest n hs hn)
    have hfundsNone := hfunds.mpr fun hm => hnot (.insufficientFunds hm)
    simp only [deserialize, hlowNone, hhighNone, if_neg hgas, if_neg hcap, hidNone, hfundsNone]

/-! ### The messages of the node -/

/-- An address, or another hash, as text. -/
def IsHexText (address : String) : Prop :=
  ∃ digits, address.toList = '0' :: 'x' :: digits ∧
    ∀ c ∈ digits, c ∈ "0123456789abcdefABCDEF".toList

/-- A message with an address and two numbers. -/
def fieldsMessage (pre sep mid address : String) (m n : Nat) : String :=
  pre ++ address ++ sep ++ toString m ++ mid ++ toString n

def nonceTooLowMessage (address : String) (tx state : Nat) : String :=
  fieldsMessage "nonce too low: address " ", tx: " " state: " address tx state

def nonceTooHighMessage (address : String) (tx state : Nat) : String :=
  fieldsMessage "nonce too high: address " ", tx: " " state: " address tx state

def insufficientFundsMessage (address : String) (have_ want : Nat) : String :=
  fieldsMessage "insufficient funds for gas * price + value: address " " have " " want " address
    have_ want

def stateNotFoundMessage (state : Nat) : String := "state not found for id " ++ toString state

section Messages

variable {address : String} {c : Char}

theorem notMem_of_isHexText (h : IsHexText address)
    (hc : c ∉ "0123456789abcdefABCDEFx".toList) : c ∉ address.toList := by
  obtain ⟨digits, heq, hdigits⟩ := h
  rw [heq, List.mem_cons, List.mem_cons]
  rintro (rfl | rfl | hmem)
  · exact hc (by decide)
  · exact hc (by decide)
  · apply hc
    show c ∈ "0123456789abcdefABCDEF".toList ++ ['x']
    exact List.mem_append_left _ (hdigits c hmem)

theorem toList_toString (n : Nat) : (toString n).toList = Nat.toDigits 10 n := by
  rw [Nat.toString_eq_repr, Nat.toList_repr]

theorem toList_fieldsMessage (pre sep mid address : String) (m n : Nat) :
    (fieldsMessage pre sep mid address m n).toList =
      pre.toList ++ (address.toList ++ (sep.toList ++ (Nat.toDigits 10 m ++
        (mid.toList ++ Nat.toDigits 10 n)))) := by
  simp only [fieldsMessage, String.toList_append, toList_toString, List.append_assoc]

/-- The numbers of a message, if they fit. -/
theorem fields_message {bits : Nat} {pre sep mid : String} {d : Char}
    (hsep : sep.toList.head? = some c) (hmid : mid.toList.head? = some d)
    (hc : c ∉ address.toList) (hd : d.isDigit = false) (m n : Nat) :
    fields bits pre.toList sep.toList mid.toList
        (fieldsMessage pre sep mid address m n).toList =
      if m < 2 ^ bits ∧ n < 2 ^ bits then some (m, n) else none := by
  rw [toList_fieldsMessage]
  exact fields_append hsep hmid hc hd m n

theorem deserialize_nonceTooLow (h : IsHexText address) {tx state : Nat} (htx : tx < 2 ^ 64)
    (hstate : state < 2 ^ 64) :
    deserialize (nonceTooLowMessage address tx state) = .nonceTooLow tx state := by
  have hcomma : ',' ∉ address.toList := notMem_of_isHexText h (by decide)
  have hlow : nonceTooLowFields (nonceTooLowMessage address tx state).toList =
      if tx < 2 ^ 64 ∧ state < 2 ^ 64 then some (tx, state) else none :=
    fields_message rfl rfl hcomma rfl tx state
  simp only [deserialize, hlow, if_pos (And.intro htx hstate)]

/-- A message of another kind does not start with this prefix. -/
theorem not_prefix_fieldsMessage {p : List Char} {pre sep mid : String}
    (hp : ¬ p <+: pre.toList) (hpre : ¬ pre.toList <+: p) (m n : Nat) :
    ¬ p <+: (fieldsMessage pre sep mid address m n).toList := by
  rw [toList_fieldsMessage]
  exact not_prefix_append hp hpre

theorem count_toDigits (hc : c.isDigit = false) (n : Nat) : (Nat.toDigits 10 n).count c = 0 :=
  List.count_eq_zero.mpr (notMem_toDigits hc n)

/-- How often a letter is in a message: the address and the numbers may not have
it. -/
theorem count_fieldsMessage {pre sep mid : String} (haddress : c ∉ address.toList)
    (hc : c.isDigit = false) (m n : Nat) :
    (fieldsMessage pre sep mid address m n).toList.count c =
      pre.toList.count c + (sep.toList.count c + mid.toList.count c) := by
  rw [toList_fieldsMessage]
  simp only [List.count_append, count_toDigits hc, List.count_eq_zero.mpr haddress, Nat.zero_add,
    Nat.add_zero]

theorem not_infix_of_count_lt {p s : List Char} (h : s.count c < p.count c) : ¬ p <:+: s :=
  fun hp => absurd (hp.sublist.count_le c) (Nat.not_le.mpr h)

theorem deserialize_nonceTooHigh (h : IsHexText address) {tx state : Nat} (htx : tx < 2 ^ 64)
    (hstate : state < 2 ^ 64) :
    deserialize (nonceTooHighMessage address tx state) = .nonceTooHigh tx state := by
  have hcomma : ',' ∉ address.toList := notMem_of_isHexText h (by decide)
  have hlow : nonceTooLowFields (nonceTooHighMessage address tx state).toList = none :=
    fields_eq_none (not_prefix_fieldsMessage (by decide) (by decide) tx state)
  have hhigh : nonceTooHighFields (nonceTooHighMessage address tx state).toList =
      if tx < 2 ^ 64 ∧ state < 2 ^ 64 then some (tx, state) else none :=
    fields_message rfl rfl hcomma rfl tx state
  simp only [deserialize, hlow, hhigh, if_pos (And.intro htx hstate)]

/-- Any balances: those that are no `u128` are not read. -/
theorem deserialize_insufficientFunds (h : IsHexText address) (have_ want : Nat) :
    deserialize (insufficientFundsMessage address have_ want) =
      if have_ < 2 ^ 128 ∧ want < 2 ^ 128 then .insufficientFunds have_ want
      else .uknown (insufficientFundsMessage address have_ want) := by
  have hspace : ' ' ∉ address.toList := notMem_of_isHexText h (by decide)
  have hlow : nonceTooLowFields (insufficientFundsMessage address have_ want).toList = none :=
    fields_eq_none (not_prefix_fieldsMessage (by decide) (by decide) have_ want)
  have hhigh : nonceTooHighFields (insufficientFundsMessage address have_ want).toList = none :=
    fields_eq_none (not_prefix_fieldsMessage (by decide) (by decide) have_ want)
  -- the text on gas has two `h`, this message only that of `have`
  have hcount : (insufficientFundsMessage address have_ want).toList.count 'h' = 1 :=
    count_fieldsMessage (notMem_of_isHexText h (by decide)) rfl have_ want
  have hgas : ¬ notEnoughGasText <:+: (insufficientFundsMessage address have_ want).toList := by
    apply @not_infix_of_count_lt 'h'
    rw [hcount]
    decide
  have hzero : (insufficientFundsMessage address have_ want).toList.count 'k' = 0 :=
    count_fieldsMessage (notMem_of_isHexText h (by decide)) rfl have_ want
  have hcap : ¬ capLessThanBaseFeeText <:+:
      (insufficientFundsMessage address have_ want).toList := by
    apply @not_infix_of_count_lt 'k'
    rw [hzero]
    decide
  have hother : ¬ "state not found for id ".toList <+:
      (insufficientFundsMessage address have_ want).toList :=
    not_prefix_fieldsMessage (by decide) (by decide) have_ want
  have hid : stateIdNotFoundField (insufficientFundsMessage address have_ want).toList = none := by
    rw [stateIdNotFoundField, stripPrefix_eq_none_iff.mpr hother]
    rfl
  have hfunds : insufficientFundsFields (insufficientFundsMessage address have_ want).toList =
      if have_ < 2 ^ 128 ∧ want < 2 ^ 128 then some (have_, want) else none :=
    fields_message rfl rfl hspace rfl have_ want
  simp only [deserialize, hlow, hhigh, if_neg hgas, if_neg hcap, hid, hfunds]
  by_cases hfits : have_ < 2 ^ 128 ∧ want < 2 ^ 128
  · simp only [if_pos hfits]
  · simp only [if_neg hfits]

theorem toList_numberMessage (pre : String) (n : Nat) :
    (pre ++ toString n).toList = pre.toList ++ Nat.toDigits 10 n := by
  rw [String.toList_append, toList_toString]

theorem deserialize_stateNotFound {state : Nat} (hstate : state < 2 ^ 64) :
    deserialize (stateNotFoundMessage state) = .stateIdNotFound state := by
  have htext : (stateNotFoundMessage state).toList =
      "state not found for id ".toList ++ Nat.toDigits 10 state := toList_numberMessage _ state
  have hlow : nonceTooLowFields (stateNotFoundMessage state).toList = none := by
    apply fields_eq_none
    rw [htext]
    exact not_prefix_append (by decide) (by decide)
  have hhigh : nonceTooHighFields (stateNotFoundMessage state).toList = none := by
    apply fields_eq_none
    rw [htext]
    exact not_prefix_append (by decide) (by decide)
  have hgas : ¬ notEnoughGasText <:+: (stateNotFoundMessage state).toList := by
    apply @not_infix_of_count_lt 'h'
    rw [htext, List.count_append, count_toDigits rfl]
    decide
  have hcap : ¬ capLessThanBaseFeeText <:+: (stateNotFoundMessage state).toList := by
    apply @not_infix_of_count_lt 'k'
    rw [htext, List.count_append, count_toDigits rfl]
    decide
  have hid : stateIdNotFoundField (stateNotFoundMessage state).toList = some state := by
    rw [stateIdNotFoundField, stripPrefix_eq_some_iff.mpr htext]
    exact parseUint_toDigits hstate
  simp only [deserialize, hlow, hhigh, if_neg hgas, if_neg hcap, hid]

/-- **What the messages become.**  Balances that are no `u128`, and whatever is
not recognised, are unknown. -/
theorem deserialize_messages :
    (∀ address tx state, IsHexText address → tx < 2 ^ 64 → state < 2 ^ 64 →
        deserialize (nonceTooLowMessage address tx state) = .nonceTooLow tx state ∧
          deserialize (nonceTooHighMessage address tx state) = .nonceTooHigh tx state) ∧
      (∀ state, state < 2 ^ 64 →
        deserialize (stateNotFoundMessage state) = .stateIdNotFound state) ∧
      (∀ address have_ want, IsHexText address →
        deserialize (insufficientFundsMessage address have_ want) =
          if have_ < 2 ^ 128 ∧ want < 2 ^ 128 then .insufficientFunds have_ want
          else .uknown (insufficientFundsMessage address have_ want)) ∧
      ∀ s t, deserialize s = .uknown t ↔ s = t ∧ ¬ Recognised s.toList := by
  refine ⟨?_, ?_, ?_, fun s t => deserialize_eq_uknown_iff⟩
  · intro address tx state haddress htx hstate
    exact ⟨deserialize_nonceTooLow haddress htx hstate,
      deserialize_nonceTooHigh haddress htx hstate⟩
  · intro state hstate
    exact deserialize_stateNotFound hstate
  · intro address have_ want haddress
    exact deserialize_insufficientFunds haddress have_ want

end Messages

/-! ### The sorter -/

section Sorter

variable {sd : SortData} {sim : SimulatedOrder} {address : String} {tx state : Nat}

/-- A nonce that the simulator refused: the sorter takes over the one of the
state, whatever the tx had. -/
theorem handleSim_of_nonceMessage (hvalid : sd.isValid sim.originStateId = true)
    (haddress : IsHexText address) (htx : tx < 2 ^ 64) (hstate : state < 2 ^ 64)
    (hresult : sim.executionResult = .invalid (deserialize (nonceTooLowMessage address tx state)) ∨
      sim.executionResult = .invalid (deserialize (nonceTooHighMessage address tx state))) :
    sd.handleSim sim = .ok { sd with
      inFlightSims := u64Sub sd.inFlightSims 1
      nonces := sd.nonces.insertState sim.order.sender state } := by
  rw [deserialize_nonceTooLow haddress htx hstate,
    deserialize_nonceTooHigh haddress htx hstate] at hresult
  rcases hresult with hlow | hhigh
  · simp [SortData.handleSim, hvalid, hlow, SortData.handleInvalid]
  · simp [SortData.handleSim, hvalid, hhigh, SortData.handleInvalid]

/-- A message that is not recognised only ends the simulation. -/
theorem handleSim_of_not_recognised {s : String} (hvalid : sd.isValid sim.originStateId = true)
    (hs : ¬ Recognised s.toList) (hresult : sim.executionResult = .invalid (deserialize s)) :
    sd.handleSim sim = .ok { sd with inFlightSims := u64Sub sd.inFlightSims 1 } := by
  have hunknown : deserialize s = .uknown s := deserialize_eq_uknown_iff.mpr ⟨rfl, hs⟩
  rw [hunknown] at hresult
  simp [SortData.handleSim, hvalid, hresult, SortData.handleInvalid]

end Sorter

section Sample

def sampleAddress : String := "0xD6EE8EfBC7F9e0D6c5d182Da5841DbC4Db6CD5Ed"

theorem isHexText_sampleAddress : IsHexText sampleAddress :=
  ⟨"D6EE8EfBC7F9e0D6c5d182Da5841DbC4Db6CD5Ed".toList, by decide, by simp⟩

theorem deserialize_messages_sample :
    deserialize (nonceTooLowMessage sampleAddress 1 100) = .nonceTooLow 1 100 ∧
      deserialize (nonceTooHighMessage sampleAddress 100 1) = .nonceTooHigh 100 1 ∧
      deserialize (stateNotFoundMessage 228) = .stateIdNotFound 228 ∧
      deserialize (insufficientFundsMessage sampleAddress 56831218464375 114297842054944) =
        .insufficientFunds 56831218464375 114297842054944 := by
  obtain ⟨hnonces, hstate, hfunds, -⟩ := deserialize_messages
  obtain ⟨hlow, -⟩ := hnonces sampleAddress 1 100 isHexText_sampleAddress (by decide) (by decide)
  obtain ⟨-, hhigh⟩ := hnonces sampleAddress 100 1 isHexText_sampleAddress (by decide) (by decide)
  exact ⟨hlow, hhigh, hstate 228 (by decide),
    (hfunds sampleAddress _ _ isHexText_sampleAddress).trans (if_pos ⟨by decide, by decide⟩)⟩

/-- A tx that costs `2 ^ 128` is not read. -/
theorem insufficient_funds_unknown :
    deserialize (insufficientFundsMessage sampleAddress 100 (2 ^ 128)) =
        .uknown (insufficientFundsMessage sampleAddress 100 (2 ^ 128)) ∧
      deserialize (insufficientFundsMessage sampleAddress 100 (2 ^ 128)) ≠
        .insufficientFunds 100 (2 ^ 128) := by
  have hunknown := deserialize_insufficientFunds isHexText_sampleAddress 100 (2 ^ 128)
  rw [if_neg (by decide)] at hunknown
  refine ⟨hunknown, ?_⟩
  rw [hunknown]
  intro h
  cases h

end Sample

end InvalidReason
end TaikoGateway
