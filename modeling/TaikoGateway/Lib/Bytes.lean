/-
TaikoGateway/Lib/Bytes.lean

Byte arrays of a fixed length, as `[u8; n]`: the length is part of the value,
so an array of the wrong length cannot be built.  Writes are slice copies that
fail outside the array (`copyFromSlice`); `copyFromSlice_append` computes one
whose target range is known.

The second part is about lists cut into blocks of one length: `window f p n`
lists `n` consecutive values of a function, and `blocks` concatenates
equal-length blocks; `getElem?_blocks` and `block_of_blocks` read them back.
`chunks` cuts a list whose last piece may be shorter (`flatten_chunks`).

`beBytes` writes a number as a word of a fixed length, high byte first, and
`ofBytes` reads it back (`ofBytes_beBytes`).
-/
import Mathlib

/-- `[u8; n]`. -/
abbrev ByteArr (n : Nat) := { bytes : List UInt8 // bytes.length = n }

namespace ByteArr

variable {n : Nat}

def zeros (n : Nat) : ByteArr n := ⟨List.replicate n 0, List.length_replicate⟩

/-- `dst[off..off + src.len()].copy_from_slice(src)`; `none` when the range is
out of bounds. -/
def copyFromSlice (dst : ByteArr n) (off : Nat) (src : List UInt8) : Option (ByteArr n) :=
  if h : off + src.length ≤ n then
    some ⟨dst.1.take off ++ src ++ dst.1.drop (off + src.length), by
      have hlen := dst.2
      simp only [List.length_append, List.length_take, List.length_drop]
      omega⟩
  else none

/-- `dst[off..].fill(0)`; `none` when the range is out of bounds. -/
def fillFrom (dst : ByteArr n) (off : Nat) : Option (ByteArr n) :=
  dst.copyFromSlice off (List.replicate (n - off) 0)

/-- A copy onto a known range replaces that range and nothing else. -/
theorem copyFromSlice_append (dst : ByteArr n) (pre mid post src : List UInt8)
    (hdst : dst.1 = pre ++ mid ++ post) (hmid : mid.length = src.length) :
    ∃ dst', dst.copyFromSlice pre.length src = some dst' ∧ dst'.1 = pre ++ src ++ post := by
  have hlen : pre.length + src.length + post.length = n := by
    rw [← dst.2, hdst, List.length_append, List.length_append, hmid]
  rw [copyFromSlice, dif_pos (by omega)]
  refine ⟨_, rfl, ?_⟩
  have htake : dst.1.take pre.length = pre := by
    rw [hdst, List.append_assoc, List.take_left]
  have hdrop : dst.1.drop (pre.length + src.length) = post := by
    rw [hdst, ← hmid, ← List.length_append, List.drop_left]
  show dst.1.take pre.length ++ src ++ dst.1.drop (pre.length + src.length) = _
  rw [htake, hdrop]

/-- Copying behind a prefix and clearing the rest pads the source with zeros. -/
theorem copyFromSlice_fillFrom (dst : ByteArr n) (pre rest src : List UInt8)
    (hdst : dst.1 = pre ++ rest) (h : pre.length + src.length ≤ n) :
    ∃ dst', (dst.copyFromSlice pre.length src >>= fun buf =>
        buf.fillFrom (pre.length + src.length)) = some dst' ∧
      dst'.1 = pre ++ src ++ List.replicate (n - (pre.length + src.length)) 0 := by
  have hlen : pre.length + rest.length = n := by
    rw [← dst.2, hdst, List.length_append]
  obtain ⟨buf, hbuf, hval⟩ := dst.copyFromSlice_append pre (rest.take src.length)
    (rest.drop src.length) src
    (by rw [hdst, List.append_assoc, List.take_append_drop])
    (by rw [List.length_take]; omega)
  obtain ⟨buf', hbuf', hval'⟩ := buf.copyFromSlice_append (pre ++ src)
    (rest.drop src.length) [] (List.replicate (n - (pre.length + src.length)) 0)
    (by rw [hval, List.append_nil])
    (by rw [List.length_drop, List.length_replicate]; omega)
  refine ⟨buf', ?_, by rw [hval', List.append_nil]⟩
  rw [List.length_append] at hbuf'
  rw [hbuf]
  exact hbuf'

end ByteArr

/-! ### Words -/

/-- The `k` low bytes of a number, high byte first. -/
def beBytes : Nat → Nat → List UInt8
  | 0, _ => []
  | k + 1, n => beBytes k (n / 256) ++ [UInt8.ofNat (n % 256)]

def ofBytes (bytes : List UInt8) : Nat := bytes.foldl (fun n b => n * 256 + b.toNat) 0

section Words

variable {k n : Nat}

theorem length_beBytes (k n : Nat) : (beBytes k n).length = k := by
  induction k generalizing n with
  | zero => rfl
  | succ k ih => rw [beBytes, List.length_append, ih, List.length_singleton]

theorem ofBytes_beBytes (hn : n < 256 ^ k) : ofBytes (beBytes k n) = n := by
  induction k generalizing n with
  | zero =>
      rw [pow_zero] at hn
      rw [Nat.lt_one_iff.mp hn]
      rfl
  | succ k ih =>
      have hhigh : n / 256 < 256 ^ k := by
        apply Nat.div_lt_of_lt_mul
        rwa [pow_succ, mul_comm] at hn
      have hlow : (UInt8.ofNat (n % 256)).toNat = n % 256 := by
        rw [UInt8.toNat_ofNat']
        omega
      have hread : ofBytes (beBytes k (n / 256)) = n / 256 := ih hhigh
      rw [ofBytes] at hread
      rw [ofBytes, beBytes, List.foldl_append, List.foldl_cons, List.foldl_nil, hread, hlow]
      omega

end Words

/-! ### Blocks of one length -/

namespace Blocks

variable {α : Type*}

/-- The `n` values `f p, f (p + 1), …`. -/
def window (f : Nat → α) (p n : Nat) : List α := (List.range n).map fun j => f (p + j)

@[simp] theorem length_window (f : Nat → α) (p n : Nat) : (window f p n).length = n := by
  simp [window]

theorem window_add (f : Nat → α) (p m n : Nat) :
    window f p (m + n) = window f p m ++ window f (p + m) n := by
  simp only [window, List.range_add, List.map_append, List.map_map]
  congr 1
  exact List.map_congr_left fun j _ => by simp [Nat.add_assoc]

/-- A window of a list padded with `z`: the `m` elements that are left of the
list there, padded. -/
theorem window_getD (xs : List α) (z : α) (p n : Nat) {m : Nat} (hm : m = min n (xs.length - p)) :
    window (fun i => xs.getD i z) p n =
      (xs.drop p).take m ++ List.replicate (n - m) z := by
  have hlen : ((xs.drop p).take m).length = m := by
    rw [List.length_take, List.length_drop]
    omega
  apply List.ext_getElem?
  intro i
  by_cases hin : i < n
  · have hleft : (window (fun i => xs.getD i z) p n)[i]? = some (xs.getD (p + i) z) := by
      simp [window, List.getElem?_range hin]
    rw [hleft]
    by_cases hi : i < m
    · rw [List.getElem?_append_left (by omega), List.getElem?_take_of_lt hi, List.getElem?_drop,
        List.getD_eq_getElem?_getD, List.getElem?_eq_getElem (by omega)]
      rfl
    · rw [List.getElem?_append_right (by omega), List.getElem?_replicate, if_pos (by omega),
        List.getD_eq_getElem?_getD, List.getElem?_eq_none (by omega)]
      rfl
  · rw [List.getElem?_eq_none (by rw [length_window]; omega), List.getElem?_eq_none]
    rw [List.length_append, hlen, List.length_replicate]
    omega

/-- The blocks `f r, f (r + 1), …, f (r + k - 1)`, one after the other. -/
def blocks (f : Nat → List α) (r k : Nat) : List α := (List.range' r k).flatMap f

theorem blocks_succ (f : Nat → List α) (r k : Nat) :
    blocks f r (k + 1) = f r ++ blocks f (r + 1) k := by
  simp [blocks, List.range'_succ]

variable {f : Nat → List α} {b : Nat}

theorem length_blocks (hf : ∀ r, (f r).length = b) (r k : Nat) :
    (blocks f r k).length = b * k := by
  induction k generalizing r with
  | zero => simp [blocks]
  | succ k ih => rw [blocks_succ, List.length_append, hf, ih, Nat.mul_succ, Nat.add_comm]

/-- Cutting the concatenation at a block boundary. -/
theorem drop_blocks (hf : ∀ r, (f r).length = b) {m k : Nat} (hm : m ≤ k) (r : Nat) :
    (blocks f r k).drop (b * m) = blocks f (r + m) (k - m) := by
  induction m generalizing r k with
  | zero => simp
  | succ m ih =>
      obtain ⟨k, rfl⟩ : ∃ k', k = k' + 1 := ⟨k - 1, by omega⟩
      rw [blocks_succ, Nat.mul_succ, Nat.add_comm, ← List.drop_drop, ← hf r, List.drop_left, hf r,
        ih (by omega)]
      congr 1 <;> omega

/-- The `m`-th block read back. -/
theorem block_of_blocks (hf : ∀ r, (f r).length = b) {m k : Nat} (hm : m < k) (r : Nat) :
    ((blocks f r k).drop (b * m)).take b = f (r + m) := by
  obtain ⟨j, hj⟩ : ∃ j, k - m = j + 1 := ⟨k - m - 1, by omega⟩
  rw [drop_blocks hf hm.le, hj, blocks_succ, ← hf (r + m), List.take_left]

theorem getElem?_blocks (hf : ∀ r, (f r).length = b) {m k t : Nat} (hm : m < k) (ht : t < b)
    (r : Nat) : (blocks f r k)[b * m + t]? = (f (r + m))[t]? := by
  rw [← block_of_blocks hf hm r, List.getElem?_take_of_lt ht, List.getElem?_drop]

/-- Consecutive windows make one window. -/
theorem blocks_window (g : Nat → α) (b r k : Nat) :
    blocks (fun r => window g (b * r) b) r k = window g (b * r) (b * k) := by
  induction k generalizing r with
  | zero => simp [blocks, window]
  | succ k ih =>
      rw [blocks_succ, ih, Nat.mul_succ, Nat.mul_succ, Nat.add_comm (b * k), window_add]

/-! ### Chunks of a list -/

/-- `xs.chunks(n)`: pieces of length `n`, the last one with what is left. -/
def chunks (n : Nat) (xs : List α) : List (List α) :=
  (List.range ((xs.length + n - 1) / n)).map fun i => (xs.drop (i * n)).take n

@[simp] theorem length_chunks (n : Nat) (xs : List α) :
    (chunks n xs).length = (xs.length + n - 1) / n := by
  simp [chunks]

theorem length_of_mem_chunks {n : Nat} {xs c : List α} (h : c ∈ chunks n xs) : c.length ≤ n := by
  obtain ⟨i, -, rfl⟩ := List.mem_map.mp h
  exact List.length_take_le n _

/-- The chunks in order are the list. -/
theorem flatten_chunks {n : Nat} (hn : 0 < n) (xs : List α) : (chunks n xs).flatten = xs := by
  have hprefix : ∀ k, ((List.range k).map fun i => (xs.drop (i * n)).take n).flatten =
      xs.take (k * n) := by
    intro k
    induction k with
    | zero => simp
    | succ k ih =>
        rw [List.range_succ, List.map_append, List.flatten_append, ih, Nat.succ_mul, List.take_add]
        simp
  rw [chunks, hprefix, List.take_of_length_le]
  -- the number of chunks is rounded up
  have hround := Nat.div_add_mod (xs.length + n - 1) n
  have hlt := Nat.mod_lt (xs.length + n - 1) hn
  rw [Nat.mul_comm] at hround
  omega

end Blocks
