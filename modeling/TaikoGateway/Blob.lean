/-
TaikoGateway/Blob.lean

Packing a byte string into an EIP-4844 blob.  A blob is 4096 field elements
of 32 bytes whose top two bits must stay clear, so a round of the encoder
takes 127 input bytes to four elements: 4 × 31 bytes go below the first byte
of each element, the three bytes in between are spread over the four first
bytes, six bits each.  The first round gives four of its bytes to a header:
the version and the length.

`encodeBlob` follows the source statement by statement, with every assertion
and every index bound.  The idea of the proof is that the encoder only ever
looks at one zero-padded stream, `stream d` = header, data, zeros: a round
takes the next 127 bytes of it (`encodeRound_spec`), the header round
included, so the whole blob is `roundBytes` of the stream block by block
(`encodeBlob_eq`).

Main result (`encodeBlob_correct`): every input up to `maxBlobDataSize` is
encoded without an abort, and the decoder of the layout returns it.
-/
import TaikoGateway.Lib.Bytes
import TaikoGateway.Types

namespace TaikoGateway.BlobEncoding

open Blocks

/-! ### The encoder -/

def maxBlobDataSize : Nat := (4 * 31 + 3) * 1024 - 4

def rounds : Nat := 1024

def encodingVersion : UInt8 := 0

def bytesPerBlob : Nat := 4096 * 32

abbrev Blob := ByteArr bytesPerBlob

inductive BlobPanic
  /-- "blob input too large" -/
  | inputTooLarge
  /-- "blob encoding: invalid byte write offset" -/
  | invalidByteOffset
  /-- "blob encoding: invalid 6-bit value" -/
  | invalidSixBitValue
  /-- "blob encoding: invalid bytes31 write offset" -/
  | invalidBytes31Offset
  /-- "expected to fit data but failed" -/
  | notAllRead
  /-- an index or a slice out of range -/
  | outOfBounds
  deriving DecidableEq, Repr

/-- The local variables of the encoder. -/
structure EncodeState where
  blob : Blob
  readOffset : Nat
  writeOffset : Nat
  buf31 : ByteArr 31

def inBounds {α : Type} : Option α → Except BlobPanic α
  | some a => .ok a
  | none => .error .outOfBounds

/-- `data[start..stop]` -/
def slice (data : Bytes) (start stop : Nat) : Except BlobPanic Bytes :=
  if start ≤ stop ∧ stop ≤ data.length then .ok ((data.drop start).take (stop - start))
  else .error .outOfBounds

/-- Reads 1 byte of input, or 0 if no input is left. -/
def read1 (data : Bytes) (st : EncodeState) : Except BlobPanic (UInt8 × EncodeState) :=
  if st.readOffset ≥ data.length then .ok (0, st)
  else do
    let out ← inBounds data[st.readOffset]?
    .ok (out, { st with readOffset := st.readOffset + 1 })

/-- Reads up to 31 bytes of input into `buf31`, left-aligned, padded with zeros. -/
def read31 (data : Bytes) (st : EncodeState) : Except BlobPanic EncodeState :=
  if st.readOffset ≥ data.length then do
    let buf ← inBounds (st.buf31.fillFrom 0)
    .ok { st with buf31 := buf }
  else do
    let remaining := data.length - st.readOffset
    let n := min 31 remaining
    let src ← slice data st.readOffset (st.readOffset + n)
    let buf ← inBounds (st.buf31.copyFromSlice 0 src)
    let buf ← inBounds (buf.fillFrom n)
    .ok { st with buf31 := buf, readOffset := st.readOffset + n }

/-- Version and big-endian 24-bit length. -/
def header (data : Bytes) : Bytes :=
  let ilen : UInt32 := UInt32.ofNat data.length
  [encodingVersion, (ilen >>> 16).toUInt8, (ilen >>> 8).toUInt8, ilen.toUInt8]

/-- The first read of round 0: the header and up to 27 bytes of input. -/
def readFirst (data : Bytes) (st : EncodeState) : Except BlobPanic EncodeState := do
  let buf ← inBounds (st.buf31.copyFromSlice 0 (header data))
  let remaining := data.length - st.readOffset
  let n := min 27 remaining
  let src ← slice data st.readOffset (st.readOffset + n)
  let buf ← inBounds (buf.copyFromSlice 4 src)
  let buf ← inBounds (buf.fillFrom (4 + n))
  .ok { st with buf31 := buf, readOffset := st.readOffset + n }

/-- Writes a single byte to the blob, ensuring correct offset and value. -/
def write1 (v : UInt8) (st : EncodeState) : Except BlobPanic EncodeState :=
  if st.writeOffset % 32 ≠ 0 then .error .invalidByteOffset
  else if v &&& 0xC0 ≠ 0 then .error .invalidSixBitValue
  else do
    let blob ← inBounds (st.blob.copyFromSlice st.writeOffset [v])
    .ok { st with blob := blob, writeOffset := st.writeOffset + 1 }

/-- Writes `buf31` to the blob, ensuring correct offset. -/
def write31 (st : EncodeState) : Except BlobPanic EncodeState :=
  if st.writeOffset % 32 ≠ 1 then .error .invalidBytes31Offset
  else do
    let blob ← inBounds (st.blob.copyFromSlice st.writeOffset st.buf31.1)
    .ok { st with blob := blob, writeOffset := st.writeOffset + 31 }

/-- The first bytes of the four elements, from the three bytes they carry. -/
def sixA (x : UInt8) : UInt8 := x &&& 0x3F
def sixB (x y : UInt8) : UInt8 := (y &&& 0x0F) ||| ((x &&& 0xC0) >>> (2 : UInt8))
def sixC (z : UInt8) : UInt8 := z &&& 0x3F
def sixD (y z : UInt8) : UInt8 := ((z &&& 0xC0) >>> (2 : UInt8)) ||| ((y &&& 0xF0) >>> (4 : UInt8))

/-- The first read of a round; only the very first element has a header. -/
def readHead (data : Bytes) (round : Nat) (st : EncodeState) : Except BlobPanic EncodeState :=
  if round = 0 then readFirst data st else read31 data st

def encodeRound (data : Bytes) (round : Nat) (st : EncodeState) :
    Except BlobPanic EncodeState := do
  let st ← readHead data round st
  let (x, st) ← read1 data st
  let st ← write1 (sixA x) st
  let st ← write31 st
  let st ← read31 data st
  let (y, st) ← read1 data st
  let st ← write1 (sixB x y) st
  let st ← write31 st
  let st ← read31 data st
  let (z, st) ← read1 data st
  let st ← write1 (sixC z) st
  let st ← write31 st
  let st ← read31 data st
  let st ← write1 (sixD y z) st
  write31 st

/-- `for round in rs`, left as soon as the input is used up. -/
def encodeRounds (data : Bytes) : List Nat → EncodeState → Except BlobPanic EncodeState
  | [], st => .ok st
  | round :: rs, st =>
      if st.readOffset ≥ data.length then .ok st
      else do
        let st ← encodeRound data round st
        encodeRounds data rs st

def EncodeState.init : EncodeState :=
  { blob := .zeros bytesPerBlob, readOffset := 0, writeOffset := 0, buf31 := .zeros 31 }

def encodeBlob (data : Bytes) : Except BlobPanic Blob :=
  if data.length > maxBlobDataSize then .error .inputTooLarge
  else do
    let st ← encodeRounds data (List.range' 0 rounds) .init
    if st.readOffset ≠ data.length then .error .notAllRead else .ok st.blob

/-! ### The layout -/

/-- What the encoder packs: header, data, then zeros. -/
def stream (data : Bytes) (p : Nat) : UInt8 := (header data ++ data).getD p 0

/-- The four elements that carry the 127 stream bytes from `p` on. -/
def roundBytes (g : Nat → UInt8) (p : Nat) : List UInt8 :=
  (sixA (g (p + 31)) :: window g p 31) ++
  (sixB (g (p + 31)) (g (p + 63)) :: window g (p + 32) 31) ++
  (sixC (g (p + 95)) :: window g (p + 64) 31) ++
  (sixD (g (p + 63)) (g (p + 95)) :: window g (p + 96) 31)

/-- The 127 bytes that four elements carry. -/
def decodeRound (bs : List UInt8) : List UInt8 :=
  let a := bs.getD 0 0
  let b := bs.getD 32 0
  let c := bs.getD 64 0
  let d := bs.getD 96 0
  let x := (a &&& 0x3F) ||| ((b &&& 0x30) <<< (2 : UInt8))
  let y := (b &&& 0x0F) ||| ((d &&& 0x0F) <<< (4 : UInt8))
  let z := (c &&& 0x3F) ||| ((d &&& 0x30) <<< (2 : UInt8))
  (bs.drop 1).take 31 ++ [x] ++ ((bs.drop 33).take 31 ++ [y]) ++
    ((bs.drop 65).take 31 ++ [z]) ++ (bs.drop 97).take 31

/-- **The decoder of the layout**: unpack every round, then read the version
and the length, then the data. -/
def decodeBlob (blob : Blob) : Option Bytes :=
  let s := blocks (fun r => decodeRound ((blob.1.drop (128 * r)).take 128)) 0 rounds
  if s.getD 0 0 ≠ encodingVersion then none
  else
    let len := (s.getD 1 0).toNat * 2 ^ 16 + (s.getD 2 0).toNat * 2 ^ 8 + (s.getD 3 0).toNat
    if len > maxBlobDataSize then none else some ((s.drop 4).take len)

/-- The stream bit (byte, bit) that bit `k` of blob byte `i` is for; the top
two bits of an element are for none. -/
def carriedBit (i k : Nat) : Option (Nat × Nat) :=
  let p := 127 * (i / 128)
  let t := i % 128
  if t % 32 ≠ 0 then some (p + (t - 1), k)
  else if 6 ≤ k then none
  else if t = 0 then some (p + 31, k)
  else if t = 32 then if k < 4 then some (p + 63, k) else some (p + 31, k + 2)
  else if t = 64 then some (p + 95, k)
  else if k < 4 then some (p + 63, k + 4) else some (p + 95, k + 2)

/-- Bit `k` of blob byte `i` carries a bit of the header or of the data. -/
def Carries (data : Bytes) (i k : Nat) : Prop :=
  ∃ p j, carriedBit i k = some (p, j) ∧ p < (header data ++ data).length

/-! ### One operation of the encoder -/

@[simp] theorem inBounds_some {α : Type} (a : α) : inBounds (some a) = .ok a := rfl

@[simp] theorem length_header (data : Bytes) : (header data).length = 4 := rfl

/-- The encoder has written `out` and used up the stream before position `p`. -/
structure Packed (data out : Bytes) (p : Nat) (st : EncodeState) : Prop where
  readOffset : st.readOffset = min data.length (p - 4)
  writeOffset : st.writeOffset = out.length
  blob : st.blob.1 = out ++ List.replicate (bytesPerBlob - out.length) 0

variable {data out : Bytes} {p : Nat} {st : EncodeState}

theorem slice_eq {start n : Nat} (h : start + n ≤ data.length) :
    slice data start (start + n) = .ok ((data.drop start).take n) := by
  rw [slice, if_pos (by omega), Nat.add_sub_cancel_left]

/-- Behind the header the stream is the data, padded. -/
theorem window_stream (hp : 4 ≤ p) {n m : Nat} (hm : m = min n (data.length - (p - 4))) :
    window (stream data) p n = (data.drop (p - 4)).take m ++ List.replicate (n - m) 0 := by
  have hdrop : (header data ++ data).drop p = data.drop (p - 4) := by
    obtain ⟨q, rfl⟩ : ∃ q, p = 4 + q := ⟨p - 4, by omega⟩
    rw [← List.drop_drop, ← length_header data, List.drop_left, Nat.add_sub_cancel_left]
  rw [← hdrop]
  apply window_getD _ _ _ _
  rw [List.length_append, length_header]
  omega

theorem stream_eq_getD (hp : 4 ≤ p) : stream data p = data.getD (p - 4) 0 := by
  rw [stream, List.getD_append_right _ _ _ _ (by rw [length_header]; omega), length_header]

theorem read1_spec (h : Packed data out p st) (hp : 4 ≤ p) :
    ∃ st', read1 data st = .ok (stream data p, st') ∧ Packed data out (p + 1) st' ∧
      st'.buf31 = st.buf31 := by
  have hro := h.readOffset
  rw [stream_eq_getD hp]
  by_cases hend : st.readOffset ≥ data.length
  · refine ⟨st, ?_, ⟨by omega, h.writeOffset, h.blob⟩, rfl⟩
    rw [read1, if_pos hend, List.getD_eq_getElem?_getD, List.getElem?_eq_none (by omega)]
    rfl
  · refine ⟨{ st with readOffset := st.readOffset + 1 }, ?_,
      ⟨by show st.readOffset + 1 = _; omega, h.writeOffset, h.blob⟩, rfl⟩
    have hlt : st.readOffset < data.length := by omega
    have hpos : st.readOffset = p - 4 := by omega
    rw [read1, if_neg hend, List.getElem?_eq_getElem hlt, List.getD_eq_getElem?_getD, ← hpos,
      List.getElem?_eq_getElem hlt]
    rfl

theorem read31_spec (h : Packed data out p st) (hp : 4 ≤ p) :
    ∃ st', read31 data st = .ok st' ∧ Packed data out (p + 31) st' ∧
      st'.buf31.1 = window (stream data) p 31 := by
  have hro := h.readOffset
  by_cases hend : st.readOffset ≥ data.length
  · obtain ⟨buf, hbuf, hval⟩ := st.buf31.copyFromSlice_append [] st.buf31.1 []
      (List.replicate 31 0) (by simp) (by simp [st.buf31.2])
    refine ⟨{ st with buf31 := buf }, ?_,
      ⟨by show st.readOffset = _; omega, h.writeOffset, h.blob⟩, ?_⟩
    · have hfill : st.buf31.fillFrom 0 = some buf := hbuf
      rw [read31, if_pos hend, hfill]
      rfl
    · rw [window_stream hp (m := 0) (by omega), hval]
      simp
  · have hpos : st.readOffset = p - 4 := by omega
    -- `n` bytes are left for this read
    obtain ⟨n, hn⟩ : ∃ n, n = min 31 (data.length - st.readOffset) := ⟨_, rfl⟩
    have hsrc : ((data.drop st.readOffset).take n).length = n := by
      rw [List.length_take, List.length_drop]
      omega
    obtain ⟨buf, hbuf, hval⟩ := st.buf31.copyFromSlice_fillFrom [] st.buf31.1
      ((data.drop st.readOffset).take n) (List.nil_append _).symm
      (by rw [hsrc, List.length_nil]; omega)
    rw [hsrc, List.length_nil, Nat.zero_add] at hbuf hval
    obtain ⟨mid, hmid, hfill⟩ := Option.bind_eq_some_iff.mp hbuf
    refine ⟨{ st with buf31 := buf, readOffset := st.readOffset + n }, ?_,
      ⟨by show st.readOffset + n = _; omega, h.writeOffset, h.blob⟩, ?_⟩
    · rw [read31, if_neg hend]
      simp only [← hn, slice_eq (show st.readOffset + n ≤ data.length by omega), bind,
        Except.bind, hmid, hfill, inBounds_some]
    · rw [window_stream hp (m := n) (by omega), ← hpos]
      exact hval

/-- The first read of round 0 is a read of 31 bytes of the stream. -/
theorem readFirst_spec (h : Packed data out 0 st) :
    ∃ st', readFirst data st = .ok st' ∧ Packed data out 31 st' ∧
      st'.buf31.1 = window (stream data) 0 31 := by
  have hro : st.readOffset = 0 := by rw [h.readOffset]; omega
  obtain ⟨n, hn⟩ : ∃ n, n = min 27 (data.length - st.readOffset) := ⟨_, rfl⟩
  have hsrc : ((data.drop st.readOffset).take n).length = n := by
    rw [List.length_take, List.length_drop]
    omega
  -- the header goes to the front, then the data behind it
  obtain ⟨first, hfirst, hval⟩ := st.buf31.copyFromSlice_append [] (st.buf31.1.take 4)
    (st.buf31.1.drop 4) (header data)
    (by rw [List.nil_append, List.take_append_drop])
    (by rw [List.length_take, st.buf31.2]; rfl)
  obtain ⟨buf, hbuf, hval'⟩ := first.copyFromSlice_fillFrom (header data)
    (st.buf31.1.drop 4) ((data.drop st.readOffset).take n)
    (by rw [hval, List.nil_append]) (by rw [hsrc, length_header]; omega)
  rw [hsrc, length_header] at hbuf hval'
  obtain ⟨mid, hmid, hfill⟩ := Option.bind_eq_some_iff.mp hbuf
  refine ⟨{ st with buf31 := buf, readOffset := st.readOffset + n }, ?_,
    ⟨by show st.readOffset + n = _; omega, h.writeOffset, h.blob⟩, ?_⟩
  · rw [List.length_nil] at hfirst
    simp only [readFirst, ← hn, slice_eq (show st.readOffset + n ≤ data.length by omega), bind,
      Except.bind, hfirst, hmid, hfill, inBounds_some]
  · have hdata : window (stream data) 4 27 = data.take n ++ List.replicate (27 - n) 0 :=
      window_stream (Nat.le_refl 4) (by omega)
    have hsplit : window (stream data) 0 31 = header data ++ window (stream data) 4 27 :=
      window_add _ 0 4 27
    show buf.1 = _
    rw [hsplit, hdata, hval', hro, List.drop_zero, List.append_assoc,
      show 31 - (4 + n) = 27 - n by omega]

theorem write_spec (src : Bytes) (h : Packed data out p st)
    (hroom : out.length + src.length ≤ bytesPerBlob) :
    ∃ blob, st.blob.copyFromSlice st.writeOffset src = some blob ∧
      Packed data (out ++ src) p
        { st with blob := blob, writeOffset := st.writeOffset + src.length } := by
  obtain ⟨blob, hblob, hval⟩ := st.blob.copyFromSlice_append out
    (List.replicate src.length 0) (List.replicate (bytesPerBlob - (out.length + src.length)) 0) src
    (by
      rw [h.blob, List.append_assoc, ← List.replicate_add]
      congr 2
      omega)
    (by rw [List.length_replicate])
  refine ⟨blob, by rw [h.writeOffset]; exact hblob, h.readOffset, ?_, ?_⟩
  · rw [List.length_append, h.writeOffset]
  · rw [hval, List.length_append]

/-- Writing one element: a six-bit byte and the buffer. -/
theorem writeElement_spec {v : UInt8} (h : Packed data out p st) (hv : v &&& 0xC0 = 0)
    (halign : out.length % 32 = 0) (hroom : out.length + 32 ≤ bytesPerBlob) :
    ∃ st₁ st₂, write1 v st = .ok st₁ ∧ write31 st₁ = .ok st₂ ∧
      Packed data (out ++ v :: st.buf31.1) p st₂ := by
  obtain ⟨blob₁, hblob₁, h₁⟩ := write_spec [v] h (by rw [List.length_singleton]; omega)
  obtain ⟨blob₂, hblob₂, h₂⟩ := write_spec st.buf31.1 h₁
    (by rw [List.length_append, st.buf31.2, List.length_singleton]; omega)
  have hbuf31 := st.buf31.2
  rw [hbuf31] at h₂
  simp only [List.length_singleton] at hblob₂
  refine ⟨{ st with blob := blob₁, writeOffset := st.writeOffset + 1 },
    { st with blob := blob₂, writeOffset := st.writeOffset + 1 + 31 }, ?_, ?_, ?_⟩
  · rw [write1, if_neg (by rw [h.writeOffset]; omega), if_neg (by rw [hv]; simp), hblob₁]
    rfl
  · have halign₁ : (st.writeOffset + 1) % 32 = 1 := by rw [h.writeOffset]; omega
    rw [write31, if_neg (by simp only [halign₁]; simp), hblob₂]
    rfl
  · rw [List.append_cons]
    exact h₂

/-! ### One round -/

/-- Bytes are equal when their bits are. -/
theorem eq_of_bits {a b : UInt8}
    (h : ∀ k < 8, a.toBitVec.getLsbD k = b.toBitVec.getLsbD k) : a = b :=
  UInt8.toBitVec_inj.mp (BitVec.eq_of_getLsbD_eq h)

theorem sixA_top (x : UInt8) : sixA x &&& 0xC0 = 0 := by
  apply eq_of_bits
  intro k hk
  interval_cases k <;> simp [sixA]

theorem sixB_top (x y : UInt8) : sixB x y &&& 0xC0 = 0 := by
  apply eq_of_bits
  intro k hk
  interval_cases k <;> simp [sixB]

theorem sixC_top (z : UInt8) : sixC z &&& 0xC0 = 0 := sixA_top z

theorem sixD_top (y z : UInt8) : sixD y z &&& 0xC0 = 0 := by
  apply eq_of_bits
  intro k hk
  interval_cases k <;> simp [sixD]

@[simp] theorem length_roundBytes (g : Nat → UInt8) (p : Nat) : (roundBytes g p).length = 128 := by
  simp [roundBytes]

theorem readHead_spec {r : Nat} (h : Packed data out (127 * r) st) :
    ∃ st', readHead data r st = .ok st' ∧ Packed data out (127 * r + 31) st' ∧
      st'.buf31.1 = window (stream data) (127 * r) 31 := by
  unfold readHead
  by_cases hr : r = 0
  · subst hr
    rw [if_pos rfl]
    exact readFirst_spec h
  · rw [if_neg hr]
    exact read31_spec h (by omega)

/-- **One round** appends the four elements of the next 127 stream bytes. -/
theorem encodeRound_spec {r : Nat} (h : Packed data out (127 * r) st)
    (hout : out.length = 128 * r) (hr : r < rounds) :
    ∃ st', encodeRound data r st = .ok st' ∧
      Packed data (out ++ roundBytes (stream data) (127 * r)) (127 * (r + 1)) st' := by
  have hroom : 128 * r + 128 ≤ bytesPerBlob := by
    unfold rounds at hr
    unfold bytesPerBlob
    omega
  have hp : 4 ≤ 127 * r + 31 := by omega
  obtain ⟨s₁, e₁, h₁, w₁⟩ := readHead_spec h
  obtain ⟨s₂, e₂, h₂, b₂⟩ := read1_spec h₁ hp
  obtain ⟨s₃, s₄, e₃, e₄, h₄⟩ := writeElement_spec h₂
    (sixA_top (stream data (127 * r + 31))) (by omega) (by omega)
  rw [b₂, w₁] at h₄
  obtain ⟨s₅, e₅, h₅, w₅⟩ := read31_spec h₄ (by omega)
  obtain ⟨s₆, e₆, h₆, b₆⟩ := read1_spec h₅ (by omega)
  obtain ⟨s₇, s₈, e₇, e₈, h₈⟩ := writeElement_spec h₆
    (sixB_top (stream data (127 * r + 31)) (stream data (127 * r + 63)))
    (by simp [hout]; omega) (by simp [hout]; omega)
  rw [b₆, w₅] at h₈
  obtain ⟨s₉, e₉, h₉, w₉⟩ := read31_spec h₈ (by omega)
  obtain ⟨s₁₀, e₁₀, h₁₀, b₁₀⟩ := read1_spec h₉ (by omega)
  obtain ⟨s₁₁, s₁₂, e₁₁, e₁₂, h₁₂⟩ := writeElement_spec h₁₀
    (sixC_top (stream data (127 * r + 95)))
    (by simp [hout]; omega) (by simp [hout]; omega)
  rw [b₁₀, w₉] at h₁₂
  obtain ⟨s₁₃, e₁₃, h₁₃, w₁₃⟩ := read31_spec h₁₂ (by omega)
  obtain ⟨s₁₄, s₁₅, e₁₄, e₁₅, h₁₅⟩ := writeElement_spec h₁₃
    (sixD_top (stream data (127 * r + 63)) (stream data (127 * r + 95)))
    (by simp [hout]; omega) (by simp [hout]; omega)
  rw [w₁₃] at h₁₅
  -- 15 steps were taken: 31 + 1 + 31 + 1 + 31 + 1 + 31 bytes read, 4 elements written
  refine ⟨s₁₅, ?_, ?_⟩
  · simp only [encodeRound, bind, Except.bind, e₁, e₂, e₃, e₄, e₅, e₆, e₇, e₈, e₉, e₁₀, e₁₁,
      e₁₂, e₁₃, e₁₄, e₁₅]
  · simp only [Nat.add_assoc, Nat.reduceAdd] at h₁₅
    simpa only [roundBytes, List.append_assoc, Nat.mul_add, Nat.mul_one] using h₁₅

/-! ### All rounds -/

theorem stream_of_le (hp : 4 + data.length ≤ p) : stream data p = 0 := by
  rw [stream, List.getD_eq_getElem?_getD, List.getElem?_eq_none]
  · rfl
  · rw [List.length_append, length_header]
    exact hp

/-- The empty input has an empty header too: version and length are zero. -/
theorem stream_nil (p : Nat) : stream [] p = 0 := by
  match p with
  | 0 | 1 | 2 | 3 => rfl
  | p + 4 => exact stream_of_le (by simp)

theorem roundBytes_of_zero {g : Nat → UInt8} (hg : ∀ q, p ≤ q → g q = 0) :
    roundBytes g p = List.replicate 128 0 := by
  have hwin : ∀ q, p ≤ q → window g q 31 = List.replicate 31 0 := by
    intro q hq
    rw [window, List.map_congr_left (g := fun _ => 0) (fun j _ => hg (q + j) (by omega))]
    rfl
  rw [roundBytes, hg _ (by omega), hg _ (by omega), hg _ (by omega), hwin _ le_rfl,
    hwin _ (by omega), hwin _ (by omega), hwin _ (by omega)]
  rfl

/-- The blob bytes of rounds `r, …, r + k - 1`. -/
def streamBlocks (g : Nat → UInt8) (r k : Nat) : Bytes :=
  blocks (fun r => roundBytes g (127 * r)) r k

theorem streamBlocks_succ (g : Nat → UInt8) (r k : Nat) :
    streamBlocks g r (k + 1) = roundBytes g (127 * r) ++ streamBlocks g (r + 1) k :=
  blocks_succ _ r k

/-- With nothing left in the stream, the rounds still to come only write
zeros. -/
theorem streamBlocks_of_zero {g : Nat → UInt8} {r : Nat} (hg : ∀ q, 127 * r ≤ q → g q = 0)
    (k : Nat) : streamBlocks g r k = List.replicate (128 * k) 0 := by
  induction k generalizing r with
  | zero => rfl
  | succ k ih =>
      rw [streamBlocks_succ, roundBytes_of_zero hg, ih fun q hq => hg q (by omega),
        ← List.replicate_add, Nat.mul_succ, Nat.add_comm]

/-- **The loop.**  From round `r` on, `k` rounds are written to the blob, or
skipped because they would be zero. -/
theorem encodeRounds_spec (k : Nat) {r : Nat} (h : Packed data out (127 * r) st)
    (hout : out.length = 128 * r) (hk : r + k = rounds) :
    ∃ st', encodeRounds data (List.range' r k) st = .ok st' ∧
      st'.readOffset = min data.length (127 * rounds - 4) ∧
      st'.blob.1 = out ++ streamBlocks (stream data) r k := by
  have hblob := h.blob
  have hrest : bytesPerBlob - out.length = 128 * k := by
    rw [hout, ← show 128 * (r + k) = bytesPerBlob by rw [hk]; rfl]
    omega
  rw [hrest] at hblob
  induction k generalizing r out st with
  | zero =>
      refine ⟨st, rfl, ?_, hblob⟩
      rw [h.readOffset, ← hk]
      rfl
  | succ k ih =>
      rw [List.range'_succ, encodeRounds]
      have hro := h.readOffset
      by_cases hend : st.readOffset ≥ data.length
      · -- the loop is left here: either all is read or there was nothing to read
        have hzero : ∀ q, 127 * r ≤ q → stream data q = 0 := by
          intro q hq
          rcases Nat.eq_zero_or_pos data.length with hnil | hpos
          · rw [List.eq_nil_of_length_eq_zero hnil]
            exact stream_nil q
          · exact stream_of_le (by omega)
        refine ⟨st, if_pos hend, by omega, ?_⟩
        rw [streamBlocks_of_zero hzero, hblob]
      · rw [if_neg hend]
        obtain ⟨st₁, hst₁, h₁⟩ := encodeRound_spec h hout (by omega)
        have hout₁ : (out ++ roundBytes (stream data) (127 * r)).length = 128 * (r + 1) := by
          rw [List.length_append, hout, length_roundBytes]
          omega
        have hrest₁ : bytesPerBlob - (out ++ roundBytes (stream data) (127 * r)).length =
            128 * k := by
          rw [List.length_append, length_roundBytes]
          omega
        obtain ⟨st₂, hst₂, hro₂, hblob₂⟩ := ih h₁ hout₁ (by omega)
          (by rw [h₁.blob, hrest₁]) hrest₁
        refine ⟨st₂, ?_, hro₂, ?_⟩
        · rw [hst₁]
          exact hst₂
        · rw [hblob₂, List.append_assoc, streamBlocks_succ]

/-- Every allowed input is read to its end, and its blob is the stream, round
by round. -/
theorem encodeBlob_eq (hd : data.length ≤ maxBlobDataSize) :
    ∃ st, encodeRounds data (List.range' 0 rounds) .init = .ok st ∧
      st.readOffset = data.length ∧ encodeBlob data = .ok st.blob ∧
      st.blob.1 = streamBlocks (stream data) 0 rounds := by
  have hinit : Packed data [] (127 * 0) .init := ⟨by simp [EncodeState.init], rfl, by
    simp [EncodeState.init, ByteArr.zeros]⟩
  obtain ⟨st, hst, hro, hblob⟩ := encodeRounds_spec rounds hinit rfl (Nat.zero_add _)
  have hread : st.readOffset = data.length := by
    rw [hro]
    unfold rounds
    unfold maxBlobDataSize at hd
    omega
  refine ⟨st, hst, hread, ?_, by rw [hblob, List.nil_append]⟩
  rw [encodeBlob, if_neg (by omega), hst]
  exact if_neg (not_not.mpr hread)

/-! ### Decoding -/

theorem unpack_x (x y : UInt8) :
    (sixA x &&& 0x3F) ||| ((sixB x y &&& 0x30) <<< (2 : UInt8)) = x := by
  apply eq_of_bits
  intro k hk
  interval_cases k <;> simp [sixA, sixB]

theorem unpack_y (x y z : UInt8) :
    (sixB x y &&& 0x0F) ||| ((sixD y z &&& 0x0F) <<< (4 : UInt8)) = y := by
  apply eq_of_bits
  intro k hk
  interval_cases k <;> simp [sixB, sixD]

theorem unpack_z (y z : UInt8) :
    (sixC z &&& 0x3F) ||| ((sixD y z &&& 0x30) <<< (2 : UInt8)) = z := by
  apply eq_of_bits
  intro k hk
  interval_cases k <;> simp [sixC, sixD]

/-- **A round is undone by its decoder.** -/
theorem decodeRound_roundBytes (g : Nat → UInt8) (p : Nat) :
    decodeRound (roundBytes g p) = window g p 127 := by
  have hsplit : window g p 127 =
      window g p 31 ++ [g (p + 31)] ++ (window g (p + 32) 31 ++ [g (p + 63)]) ++
        (window g (p + 64) 31 ++ [g (p + 95)]) ++ window g (p + 96) 31 := by
    rw [show 127 = 32 + 32 + 32 + 31 from rfl, window_add, window_add, window_add]
    rw [show 32 = 31 + 1 from rfl, window_add, window_add, window_add]
    rfl
  have h0 : (roundBytes g p).getD 0 0 = sixA (g (p + 31)) := rfl
  have h1 : (roundBytes g p).getD 32 0 = sixB (g (p + 31)) (g (p + 63)) := rfl
  have h2 : (roundBytes g p).getD 64 0 = sixC (g (p + 95)) := rfl
  have h3 : (roundBytes g p).getD 96 0 = sixD (g (p + 63)) (g (p + 95)) := rfl
  have w0 : ((roundBytes g p).drop 1).take 31 = window g p 31 := rfl
  have w1 : ((roundBytes g p).drop 33).take 31 = window g (p + 32) 31 := rfl
  have w2 : ((roundBytes g p).drop 65).take 31 = window g (p + 64) 31 := rfl
  have w3 : ((roundBytes g p).drop 97).take 31 = window g (p + 96) 31 := rfl
  rw [hsplit, decodeRound, h0, h1, h2, h3, w0, w1, w2, w3]
  simp only [unpack_x, unpack_y, unpack_z]

/-- The three length bytes make up the length. -/
theorem header_length (hd : data.length ≤ maxBlobDataSize) :
    ((header data).getD 1 0).toNat * 2 ^ 16 + ((header data).getD 2 0).toNat * 2 ^ 8 +
      ((header data).getD 3 0).toNat = data.length := by
  unfold maxBlobDataSize at hd
  have h16 : ((header data).getD 1 0).toNat = data.length / 2 ^ 16 % 2 ^ 8 := by
    simp [header, Nat.shiftRight_eq_div_pow]
    omega
  have h8 : ((header data).getD 2 0).toNat = data.length / 2 ^ 8 % 2 ^ 8 := by
    simp [header, Nat.shiftRight_eq_div_pow]
    omega
  have h0 : ((header data).getD 3 0).toNat = data.length % 2 ^ 8 := by
    simp [header]
  rw [h16, h8, h0]
  omega

/-- All 1024 rounds of the stream: header, data and padding. -/
theorem window_stream_all (hd : data.length ≤ maxBlobDataSize) :
    ∃ pad, window (stream data) 0 (127 * rounds) =
      header data ++ (data ++ List.replicate pad 0) := by
  have hlen : (header data ++ data).length ≤ 127 * rounds := by
    rw [List.length_append, length_header]
    unfold rounds
    unfold maxBlobDataSize at hd
    omega
  have hwin := window_getD (header data ++ data) 0 0 (127 * rounds)
    (m := (header data ++ data).length) (by omega)
  rw [List.drop_zero, List.take_length, List.append_assoc] at hwin
  exact ⟨_, hwin⟩

/-- **The decoder undoes the encoder.** -/
theorem decodeBlob_eq (hd : data.length ≤ maxBlobDataSize) {blob : Blob}
    (hblob : blob.1 = streamBlocks (stream data) 0 rounds) : decodeBlob blob = some data := by
  obtain ⟨pad, hpad⟩ := window_stream_all hd
  have hs : blocks (fun r => decodeRound ((blob.1.drop (128 * r)).take 128)) 0 rounds =
      header data ++ (data ++ List.replicate pad 0) := by
    rw [← hpad, ← Nat.mul_zero 127, ← blocks_window, hblob]
    apply List.flatMap_congr
    intro r hr
    have hr' : r < rounds := by
      have := List.mem_range'_1.mp hr
      omega
    rw [streamBlocks, block_of_blocks (fun _ => length_roundBytes _ _) hr', Nat.zero_add,
      decodeRound_roundBytes]
  have hget : ∀ q < 4, (header data ++ (data ++ List.replicate pad 0)).getD q 0 =
      (header data).getD q 0 :=
    fun q hq => List.getD_append _ _ _ _ (by rw [length_header]; exact hq)
  simp only [decodeBlob, hs]
  rw [hget 0 (by omega), if_neg (by simp [header]), hget 1 (by omega), hget 2 (by omega),
    hget 3 (by omega), header_length hd, if_neg (by omega)]
  rw [← length_header data, List.drop_left, List.take_left]

/-! ### Bits -/

theorem getD_element (v : UInt8) (g : Nat → UInt8) (p : Nat) {s : Nat} (hs : s < 31) :
    (v :: window g p 31).getD (s + 1) 0 = g (p + s) := by
  simp [window, List.getElem?_range hs]

/-- A byte of a round that is not the first of its element is a stream
byte. -/
theorem roundBytes_getD (g : Nat → UInt8) (p : Nat) {t : Nat} (ht : t < 128)
    (hfirst : t % 32 ≠ 0) : (roundBytes g p).getD t 0 = g (p + (t - 1)) := by
  obtain ⟨s, hs, hts⟩ : ∃ s < 31, t = 32 * (t / 32) + (s + 1) := ⟨t % 32 - 1, by omega, by omega⟩
  unfold roundBytes
  have he : t / 32 = 0 ∨ t / 32 = 1 ∨ t / 32 = 2 ∨ t / 32 = 3 := by omega
  rcases he with he | he | he | he <;> rw [he] at hts <;> subst hts
  · rw [List.getD_append _ _ _ _ (by simp; omega), List.getD_append _ _ _ _ (by simp; omega),
      List.getD_append _ _ _ _ (by simp; omega), Nat.mul_zero, Nat.zero_add, getD_element _ _ _ hs]
    rfl
  · rw [List.getD_append _ _ _ _ (by simp; omega), List.getD_append _ _ _ _ (by simp; omega),
      List.getD_append_right _ _ _ _ (by simp)]
    simp only [List.length_cons, length_window]
    rw [show 32 * 1 + (s + 1) - (31 + 1) = s + 1 by omega, getD_element _ _ _ hs]
    congr 1
    omega
  · rw [List.getD_append _ _ _ _ (by simp; omega), List.getD_append_right _ _ _ _ (by simp)]
    simp only [List.length_append, List.length_cons, length_window]
    rw [show 32 * 2 + (s + 1) - (31 + 1 + (31 + 1)) = s + 1 by omega, getD_element _ _ _ hs]
    congr 1
    omega
  · rw [List.getD_append_right _ _ _ _ (by simp)]
    simp only [List.length_append, List.length_cons, length_window]
    rw [show 32 * 3 + (s + 1) - (31 + 1 + (31 + 1) + (31 + 1)) = s + 1 by omega,
      getD_element _ _ _ hs]
    congr 1
    omega

/-- Where the bits of a round come from. -/
theorem roundBytes_bit (g : Nat → UInt8) (p : Nat) {t k : Nat} (ht : t < 128) (hk : k < 8) :
    ((roundBytes g p).getD t 0).toBitVec.getLsbD k =
      match carriedBit t k with
      | some (q, j) => (g (p + q)).toBitVec.getLsbD j
      | none => false := by
  have hdiv : t / 128 = 0 := by omega
  have hmod : t % 128 = t := by omega
  by_cases hfirst : t % 32 = 0
  · have h0 : (roundBytes g p).getD 0 0 = sixA (g (p + 31)) := rfl
    have h1 : (roundBytes g p).getD 32 0 = sixB (g (p + 31)) (g (p + 63)) := rfl
    have h2 : (roundBytes g p).getD 64 0 = sixC (g (p + 95)) := rfl
    have h3 : (roundBytes g p).getD 96 0 = sixD (g (p + 63)) (g (p + 95)) := rfl
    -- the first bytes of the elements share the three carried stream bytes
    have ht4 : t = 0 ∨ t = 32 ∨ t = 64 ∨ t = 96 := by omega
    rcases ht4 with rfl | rfl | rfl | rfl
    · rw [h0]
      interval_cases k <;> simp [carriedBit, sixA]
    · rw [h1]
      interval_cases k <;> simp [carriedBit, sixB]
    · rw [h2]
      interval_cases k <;> simp [carriedBit, sixC]
    · rw [h3]
      interval_cases k <;> simp [carriedBit, sixD]
  · rw [roundBytes_getD g p ht hfirst]
    simp only [carriedBit, hdiv, hmod, ne_eq, hfirst, not_false_eq_true, if_true, Nat.mul_zero,
      Nat.zero_add]

theorem carriedBit_round {t : Nat} (ht : t < 128) (r k : Nat) :
    carriedBit (128 * r + t) k = (carriedBit t k).map fun q => (127 * r + q.1, q.2) := by
  have hdiv : (128 * r + t) / 128 = r := by omega
  have hmod : (128 * r + t) % 128 = t := by omega
  simp only [carriedBit, hdiv, hmod, Nat.div_eq_of_lt ht, Nat.mod_eq_of_lt ht]
  split_ifs <;> simp

/-- **Every bit of the blob.** -/
theorem streamBlocks_bit {i k : Nat} (hi : i < bytesPerBlob) (hk : k < 8) :
    ((streamBlocks (stream data) 0 rounds).getD i 0).toBitVec.getLsbD k =
      match carriedBit i k with
      | some (p, j) => (stream data p).toBitVec.getLsbD j
      | none => false := by
  obtain ⟨r, t, ht, rfl⟩ : ∃ r t, t < 128 ∧ i = 128 * r + t :=
    ⟨i / 128, i % 128, by omega, by omega⟩
  have hr : r < rounds := by
    unfold bytesPerBlob at hi
    unfold rounds
    omega
  rw [streamBlocks, List.getD_eq_getElem?_getD,
    getElem?_blocks (fun _ => length_roundBytes _ _) hr ht, Nat.zero_add,
    ← List.getD_eq_getElem?_getD, roundBytes_bit _ _ ht hk, carriedBit_round ht]
  cases carriedBit t k <;> rfl

/-! ### Correctness -/

/-- What `encodeBlob` returns decodes to its input: the length assertion
admits no other inputs. -/
theorem decodeBlob_of_encodeBlob {blob : Blob} (h : encodeBlob data = .ok blob) :
    decodeBlob blob = some data := by
  by_cases hd : data.length ≤ maxBlobDataSize
  · obtain ⟨st, -, -, hst, hblob⟩ := encodeBlob_eq hd
    obtain rfl : st.blob = blob := by simpa [hst] using h
    exact decodeBlob_eq hd hblob
  · rw [encodeBlob, if_pos (by omega)] at h
    cases h

/-- A byte whose bits 6 and 7 are clear. -/
theorem and_top_of_bits {b : UInt8} (h6 : b.toBitVec.getLsbD 6 = false)
    (h7 : b.toBitVec.getLsbD 7 = false) : b &&& 0xC0 = 0 := by
  apply eq_of_bits
  intro k hk
  interval_cases k <;> simp_all

/-- Each bit of the blob, as the layout says it. -/
theorem blob_bit {blob : Blob} (hblob : blob.1 = streamBlocks (stream data) 0 rounds) {i k : Nat}
    (hi : i < bytesPerBlob) (hk : k < 8) : (blob.1.getD i 0).toBitVec.getLsbD k =
      match carriedBit i k with
      | some (p, j) => (stream data p).toBitVec.getLsbD j
      | none => false := by
  rw [hblob]
  exact streamBlocks_bit hi hk

/-- The top two bits of every field element are clear. -/
def Canonical (blob : Blob) : Prop := ∀ e < 4096, blob.1.getD (32 * e) 0 &&& 0xC0 = 0

/-- Bits 6 and 7 of the first byte of an element are for no stream bit. -/
theorem canonical_of_eq {blob : Blob} (hblob : blob.1 = streamBlocks (stream data) 0 rounds) :
    Canonical blob := by
  intro e he
  have hi : 32 * e < bytesPerBlob := by
    unfold bytesPerBlob
    omega
  have hnone : ∀ k, 6 ≤ k → carriedBit (32 * e) k = none := by
    intro k hk
    rw [carriedBit, if_neg (by omega), if_pos hk]
  apply and_top_of_bits
  · rw [blob_bit hblob hi (by omega), hnone 6 (by omega)]
  · rw [blob_bit hblob hi (by omega), hnone 7 (by omega)]

/-- An input that fits is encoded, and the blob can be committed to. -/
theorem encodeBlob_total (hd : data.length ≤ maxBlobDataSize) :
    ∃ blob, encodeBlob data = .ok blob ∧ Canonical blob := by
  obtain ⟨st, -, -, henc, hblob⟩ := encodeBlob_eq hd
  exact ⟨st.blob, henc, canonical_of_eq hblob⟩

/-- **`encodeBlob` is correct.**  For every input of at most
`maxBlobDataSize` bytes no assertion and no index bound is hit and all of the
input is read.  In the blob, the top two bits of every field element are
clear, the decoder returns the input, every bit that carries one of the header
or the data has its value, and every other bit is zero.  No other input has
this blob. -/
theorem encodeBlob_correct (d : Bytes) (hd : d.length ≤ maxBlobDataSize) :
    ∃ st blob, encodeRounds d (List.range' 0 rounds) .init = .ok st ∧
      st.readOffset = d.length ∧ encodeBlob d = .ok blob ∧
      (∀ e < 4096, blob.1.getD (32 * e) 0 &&& 0xC0 = 0) ∧
      decodeBlob blob = some d ∧
      (∀ i < bytesPerBlob, ∀ k < 8, ∀ p j, carriedBit i k = some (p, j) →
        (blob.1.getD i 0).toBitVec.getLsbD k =
          ((header d ++ d).getD p 0).toBitVec.getLsbD j) ∧
      (∀ i < bytesPerBlob, ∀ k < 8, ¬ Carries d i k →
        (blob.1.getD i 0).toBitVec.getLsbD k = false) ∧
      ∀ d' : Bytes, encodeBlob d' = .ok blob → d' = d := by
  obtain ⟨st, hst, hread, henc, hblob⟩ := encodeBlob_eq hd
  refine ⟨st, st.blob, hst, hread, henc, canonical_of_eq hblob, decodeBlob_of_encodeBlob henc,
    ?_, ?_, ?_⟩
  · intro i hi k hk p j hcarried
    rw [blob_bit hblob hi hk, hcarried]
    rfl
  · intro i hi k hk hcarries
    rw [blob_bit hblob hi hk]
    match hcarried : carriedBit i k with
    | none => rfl
    | some (p, j) =>
        have hp : (header d ++ d).length ≤ p := not_lt.mp fun hp => hcarries ⟨p, j, hcarried, hp⟩
        show (stream d p).toBitVec.getLsbD j = false
        rw [stream, List.getD_eq_getElem?_getD, List.getElem?_eq_none hp]
        simp
  · intro d' hd'
    have hdec := decodeBlob_of_encodeBlob hd'
    rw [decodeBlob_of_encodeBlob henc] at hdec
    exact (Option.some.inj hdec).symm

theorem encodeBlob_correct_abc :
    ∃ st blob, encodeRounds [97, 98, 99] (List.range' 0 rounds) .init = .ok st ∧
      st.readOffset = 3 ∧ encodeBlob [97, 98, 99] = .ok blob ∧
      decodeBlob blob = some [97, 98, 99] := by
  obtain ⟨st, blob, hst, hread, henc, -, hdec, -⟩ :=
    encodeBlob_correct [97, 98, 99] (by decide)
  exact ⟨st, blob, hst, hread, henc, hdec⟩

end TaikoGateway.BlobEncoding
