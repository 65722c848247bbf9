import Mathlib.Data.List.Basic
import PinProtocol.Bits.Window

/-!
# ByteStream — byte lists as bit streams

A list of bytes is a bit stream: bit `j` is bit `j % 8`, counted from the most significant one, of
byte `j / 8`.  `orBits buf f` sets in `buf` every bit that the stream `f` has, and leaves the other
bits alone; packing routines that only ever use `|=` are of this form, which is why their order
does not matter.
-/

namespace PinProtocol
namespace Bits

abbrev Byte := BitVec 8

/-- Bit `j` of a byte list, most significant bit of byte 0 first; clear past the end. -/
def bitAt (buf : List Byte) (j : Nat) : Bool :=
  (buf.getD (j / 8) 0#8).getMsbD (j % 8)

/-- The byte that holds the bits `8 * i, …, 8 * i + 7` of `f`. -/
def byteOf (f : Nat → Bool) (i : Nat) : Byte :=
  BitVec.ofNat 8 (window f (8 * i) 8)

/-- Set in `buf` the bits of `f`. -/
def orBits (buf : List Byte) (f : Nat → Bool) : List Byte :=
  buf.mapIdx fun i b => b ||| byteOf f i

/-- A buffer of `n` clear bytes. -/
def zeros (n : Nat) : List Byte :=
  List.replicate n 0#8

@[simp] theorem length_orBits (buf : List Byte) (f : Nat → Bool) :
    (orBits buf f).length = buf.length := by
  simp [orBits]

@[simp] theorem length_zeros (n : Nat) : (zeros n).length = n := by
  simp [zeros]

/-! ## Bits of bytes -/

theorem getMsbD_byteOf (f : Nat → Bool) (i : Nat) {r : Nat} (hr : r < 8) :
    (byteOf f i).getMsbD r = f (8 * i + r) := by
  have hidx : 8 * i + 8 - 1 - (8 - 1 - r) = 8 * i + r := by omega
  rw [BitVec.getMsbD, byteOf, BitVec.getLsbD_ofNat, testBit_window, hidx]
  simp [hr, show 8 - 1 - r < 8 by omega]

theorem byte_ext {a b : Byte} (h : ∀ r < 8, a.getMsbD r = b.getMsbD r) : a = b := by
  apply BitVec.eq_of_getLsbD_eq
  intro i hi
  have hbit := h (7 - i) (by omega)
  have hback : 8 - 1 - (7 - i) = i := by omega
  simpa [BitVec.getMsbD, hback, show 7 - i < 8 by omega] using hbit

/-! ## Bits of buffers -/

theorem bitAt_of_length_le {buf : List Byte} {j : Nat} (h : 8 * buf.length ≤ j) :
    bitAt buf j = false := by
  have hidx : buf.length ≤ j / 8 := by omega
  simp [bitAt, List.getD_eq_getElem?_getD, List.getElem?_eq_none hidx]

@[simp] theorem bitAt_zeros (n j : Nat) : bitAt (zeros n) j = false := by
  have hget : (zeros n).getD (j / 8) 0#8 = 0#8 := by
    by_cases hj : j / 8 < n <;> simp [zeros, List.getD_eq_getElem?_getD, hj]
  rw [bitAt, hget]
  simp

theorem bitAt_orBits (buf : List Byte) (f : Nat → Bool) (j : Nat) :
    bitAt (orBits buf f) j = (bitAt buf j || (decide (j < 8 * buf.length) && f j)) := by
  by_cases hj : j < 8 * buf.length
  · have hidx : j / 8 < buf.length := by omega
    have hpos : 8 * (j / 8) + j % 8 = j := by omega
    have hbyte := getMsbD_byteOf f (j / 8) (r := j % 8) (by omega)
    rw [hpos] at hbyte
    simp [bitAt, orBits, List.getD_eq_getElem?_getD, hidx, hj, hbyte]
  · have hbuf : bitAt buf j = false := bitAt_of_length_le (by omega)
    have hor : bitAt (orBits buf f) j = false := bitAt_of_length_le (by simp; omega)
    simp [hbuf, hor, hj]

/-- Two buffers of one length are equal when their bits are. -/
theorem eq_of_bitAt {a b : List Byte} (hlen : a.length = b.length)
    (h : ∀ j < 8 * a.length, bitAt a j = bitAt b j) : a = b := by
  apply List.ext_getElem hlen
  intro i ha hb
  apply byte_ext
  intro r hr
  have hbit := h (8 * i + r) (by omega)
  have hdiv : (8 * i + r) / 8 = i := by omega
  have hmod : (8 * i + r) % 8 = r := by omega
  simpa [bitAt, hdiv, hmod, List.getD_eq_getElem?_getD, ha, hb] using hbit

@[simp] theorem orBits_orBits (buf : List Byte) (f g : Nat → Bool) :
    orBits (orBits buf f) g = orBits buf fun j => f j || g j := by
  apply eq_of_bitAt (by simp)
  intro j hj
  simp only [length_orBits] at hj
  simp [bitAt_orBits, hj, Bool.or_assoc]

@[simp] theorem orBits_false (buf : List Byte) : orBits buf (fun _ => false) = buf := by
  apply eq_of_bitAt (by simp)
  intro j _
  simp [bitAt_orBits]

/-- One `|=` on byte `i` sets the bits of that byte. -/
theorem set_or_eq_orBits {buf : List Byte} {i : Nat} (hi : i < buf.length) (b : Byte) :
    buf.set i (buf[i] ||| b) =
      orBits buf fun j => decide (j / 8 = i) && b.getMsbD (j % 8) := by
  apply List.ext_getElem (by simp)
  intro k hk hk'
  apply byte_ext
  intro r hr
  have hdiv : (8 * k + r) / 8 = k := by omega
  have hmod : (8 * k + r) % 8 = r := by omega
  by_cases hki : i = k
  · subst hki
    simp [orBits, getMsbD_byteOf _ _ hr, hdiv, hmod]
  · have hne : k ≠ i := fun h => hki h.symm
    simp [orBits, getMsbD_byteOf _ _ hr, hdiv, hki, hne]

theorem bitAt_set {buf : List Byte} {i : Nat} (b : Byte) {j : Nat} (hj : j / 8 ≠ i) :
    bitAt (buf.set i b) j = bitAt buf j := by
  have hne : i ≠ j / 8 := fun h => hj h.symm
  simp [bitAt, List.getD_eq_getElem?_getD, hne]

theorem bitAt_take {buf : List Byte} {n j : Nat} (hj : j < 8 * n) :
    bitAt (buf.take n) j = bitAt buf j := by
  have hidx : j / 8 < n := by omega
  simp [bitAt, List.getD_eq_getElem?_getD, hidx]

/-- The eight bits of a byte are its value. -/
theorem window_bitAt_byte (buf : List Byte) (i : Nat) :
    window (bitAt buf) (8 * i) 8 = (buf.getD i 0#8).toNat := by
  have hbits : ∀ r < 8, bitAt buf (8 * i + r) = (buf.getD i 0#8).toNat.testBit (8 - 1 - r) := by
    intro r hr
    have hdiv : (8 * i + r) / 8 = i := by omega
    have hmod : (8 * i + r) % 8 = r := by omega
    simp [bitAt, hdiv, hmod, BitVec.getMsbD, hr, BitVec.testBit_toNat]
  rw [window_eq_mod hbits]
  exact Nat.mod_eq_of_lt (buf.getD i 0#8).isLt

end Bits
end PinProtocol
