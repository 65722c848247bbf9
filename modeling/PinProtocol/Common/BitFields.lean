import Mathlib.Data.Nat.ModEq
import Mathlib.Data.Nat.Prime.Basic
import PinProtocol.Common.BitUtils

/-!
# BitFields — what the bit accessors do to a bit stream

`write_bit_value` and `read_bit_value` walk over bytes with a shrinking remainder.  Seen on the bit
stream of the buffer, they are simple:

* a write ORs in the pattern `fieldBits offset val val_size`, which depends on the arguments only.
  Inside the field the pattern is the value; *before* the field, down to the start of its first
  byte, it holds the bits of the value that do not fit (and copies of the sign bit);
* a read is `fieldRead`, which is the window of the field unless the field spans three bytes.

`Tight` fields are those that leave the bits before them alone.
-/

namespace PinProtocol

open Bits Control

/-! ## Writing -/

/-- Bit `i` of an `int16_t` that has been promoted to `int`: from bit 16 on, the sign bit. -/
def intBit (val : BitVec 16) (i : Nat) : Bool :=
  if i < 16 then val.getLsbD i else val.msb

def fieldBits (offset : Nat) (val : BitVec 16) (valSize j : Nat) : Bool :=
  decide (8 * (offset / 8) ≤ j) && decide (j < offset + valSize) &&
    intBit val (offset + valSize - 1 - j)

theorem orByte_eq (dst : Buffer) (i : Nat) (b : Byte) :
    orByte dst i b =
      if i < dst.length then
        some (orBits dst fun j => decide (j / 8 = i) && b.getMsbD (j % 8))
      else none := by
  by_cases hi : i < dst.length
  · simp [orByte, hi, set_or_eq_orBits]
  · simp [orByte, hi]

theorem shiftLeft_sshiftRight (val : BitVec 16) (s : Nat) :
    val.sshiftRight s <<< s = val >>> s <<< s := by
  refine BitVec.eq_of_getLsbD_eq fun i hi => ?_
  by_cases his : i < s
  · simp [his]
  · have hsum : s + (i - s) = i := by omega
    have hlt : ¬ 16 ≤ i - s := by omega
    simp only [BitVec.getLsbD_shiftLeft, BitVec.getLsbD_sshiftRight, BitVec.getLsbD_ushiftRight]
    simp [hsum, hi, hlt]

/-- `val -= (val >> s) << s` keeps the low `s` bits of `val`. -/
theorem getLsbD_sub_high (val : BitVec 16) {s : Nat} (hs : s < 16) (i : Nat) :
    (val - val.sshiftRight s <<< s).getLsbD i = (decide (i < s) && val.getLsbD i) := by
  have hlow : (val - val.sshiftRight s <<< s).toNat = val.toNat % 2 ^ s := by
    have hpow : 2 ^ s ≤ 2 ^ 15 := Nat.pow_le_pow_right (by decide) (by omega)
    have hval : val.toNat < 2 ^ 16 := val.isLt
    have hmod : val.toNat % 2 ^ s < 2 ^ s := Nat.mod_lt _ (Nat.two_pow_pos s)
    have hsplit : val.toNat / 2 ^ s * 2 ^ s + val.toNat % 2 ^ s = val.toNat :=
      Nat.div_add_mod' _ _
    have hhigh : val.toNat / 2 ^ s * 2 ^ s % 2 ^ 16 = val.toNat / 2 ^ s * 2 ^ s :=
      Nat.mod_eq_of_lt (by omega)
    rw [shiftLeft_sshiftRight, BitVec.toNat_sub, BitVec.toNat_shiftLeft, BitVec.toNat_ushiftRight,
      Nat.shiftLeft_eq, Nat.shiftRight_eq_div_pow, hhigh]
    omega
  rw [← BitVec.testBit_toNat, hlow, Nat.testBit_mod_two_pow, BitVec.testBit_toNat]

theorem getMsbD_toWrite (val : BitVec 16) (s : Nat) {r : Nat} (hr : r < 8) :
    ((val.sshiftRight s).setWidth 8).getMsbD r = intBit val (s + 7 - r) := by
  have hidx : s + (7 - r) = s + 7 - r := by omega
  have hlt : ¬ 16 ≤ 7 - r := by omega
  have hbyte : 7 - r < 8 := by omega
  simp only [BitVec.getMsbD, BitVec.getLsbD_setWidth, BitVec.getLsbD_sshiftRight, intBit]
  simp [hr, hidx, hlt, hbyte]

theorem getMsbD_toWrite_last (val : BitVec 16) (s : Nat) {r : Nat} (hr : r < 8) :
    ((val <<< s).setWidth 8).getMsbD r = (decide (r + s < 8) && intBit val (7 - r - s)) := by
  have hbyte : 7 - r < 8 := by omega
  have hwide : 7 - r < 16 := by omega
  have hidx : 7 - r - s < 16 := by omega
  have hiff : decide (7 - r < s) = !decide (r + s < 8) := by
    by_cases h : r + s < 8
    · simp [h, show ¬ 7 - r < s by omega]
    · simp [h, show 7 - r < s by omega]
  simp only [BitVec.getMsbD, BitVec.getLsbD_setWidth, BitVec.getLsbD_shiftLeft, intBit]
  simp only [hr, hbyte, hwide, hidx, hiff, decide_true, if_true, Bool.not_not, Bool.true_and]

theorem intBit_sub_high (val : BitVec 16) {s i : Nat} (hs : s < 16) (hi : i < s) :
    intBit (val - val.sshiftRight s <<< s) i = intBit val i := by
  have hlt : i < 16 := by omega
  simp only [intBit, hlt, if_true, getLsbD_sub_high val hs]
  simp [hi]

/-- The bits of a field that reaches into the next byte: those in its first byte, then those of
the field that the loop goes on with. -/
theorem fieldBits_split (bitNo offset : Nat) (val : BitVec 16) {bits : Nat} (hoff : offset < 8)
    (hmore : 8 - offset < bits) (hbits : bits ≤ 16) (j : Nat) :
    fieldBits (8 * bitNo + offset) val bits j =
      (decide (j / 8 = bitNo) &&
          ((val.sshiftRight (bits - (8 - offset))).setWidth 8).getMsbD (j % 8) ||
        fieldBits (8 * (bitNo + 1))
          (val - val.sshiftRight (bits - (8 - offset)) <<< (bits - (8 - offset)))
          (bits - (8 - offset)) j) := by
  have hdiv : (8 * bitNo + offset) / 8 = bitNo := by omega
  have hdiv' : 8 * (bitNo + 1) / 8 = bitNo + 1 := by omega
  have hend : 8 * (bitNo + 1) + (bits - (8 - offset)) = 8 * bitNo + offset + bits := by omega
  rw [getMsbD_toWrite _ _ (Nat.mod_lt j (by decide))]
  simp only [fieldBits, hdiv, hdiv', hend]
  -- either the bit is in the first byte, or in what is left of the field
  by_cases hbyte : j / 8 = bitNo
  · have hlo : 8 * bitNo ≤ j := by omega
    have hhi : j < 8 * bitNo + offset + bits := by omega
    have hnext : ¬ 8 * (bitNo + 1) ≤ j := by omega
    have hidx : bits - (8 - offset) + 7 - j % 8 = 8 * bitNo + offset + bits - 1 - j := by omega
    simp [hbyte, hlo, hhi, hnext, hidx]
  · by_cases hin : 8 * (bitNo + 1) ≤ j ∧ j < 8 * bitNo + offset + bits
    · have hlo : 8 * bitNo ≤ j := by omega
      rw [intBit_sub_high val (by omega) (by omega)]
      simp [hbyte, hlo, hin]
    · have hout : ¬ (8 * bitNo ≤ j ∧ j < 8 * bitNo + offset + bits) := by omega
      rw [← Bool.decide_and, ← Bool.decide_and, decide_eq_false hin, decide_eq_false hout]
      simp [hbyte]

/-- The bits of a field that ends in the byte it starts in. -/
theorem fieldBits_last (bitNo offset : Nat) (val : BitVec 16) {bits : Nat} (hoff : offset < 8)
    (hlast : ¬ 8 - offset < bits) (j : Nat) :
    fieldBits (8 * bitNo + offset) val bits j =
      (decide (j / 8 = bitNo) && ((val <<< (8 - bits - offset)).setWidth 8).getMsbD (j % 8)) := by
  have hdiv : (8 * bitNo + offset) / 8 = bitNo := by omega
  rw [getMsbD_toWrite_last _ _ (Nat.mod_lt j (by decide))]
  simp only [fieldBits, hdiv]
  by_cases hin : 8 * bitNo ≤ j ∧ j < 8 * bitNo + offset + bits
  · have hbyte : j / 8 = bitNo := by omega
    have hroom : j % 8 + (8 - bits - offset) < 8 := by omega
    have hidx : 7 - j % 8 - (8 - bits - offset) = 8 * bitNo + offset + bits - 1 - j := by omega
    simp [hin, hbyte, hroom, hidx]
  · have hout : ¬ (j / 8 = bitNo ∧ j % 8 + (8 - bits - offset) < 8) := by omega
    rw [← Bool.decide_and, ← Bool.and_assoc, ← Bool.decide_and, decide_eq_false hin,
      decide_eq_false hout]
    simp

theorem writeBitLoop_eq (fuel : Nat) (dst : Buffer) (bitNo offset : Nat) (val : BitVec 16)
    (bits : Nat) (hfuel : bits < fuel) (hoff : offset < 8) (hbits : bits ≤ 16) :
    writeBitLoop fuel dst bitNo offset val bits =
      if 8 * bitNo + offset + max bits 1 ≤ 8 * dst.length then
        some (orBits dst (fieldBits (8 * bitNo + offset) val bits))
      else none := by
  -- every turn but the last one fills up its byte, so that the next one starts at bit 0
  induction fuel generalizing dst bitNo offset val bits with
  | zero => omega
  | succ fuel ih =>
      by_cases hmore : 8 - offset < bits
      · -- the field goes on in the next byte
        have hrest := fun dst => ih dst (bitNo + 1) 0
          (val - val.sshiftRight (bits - (8 - offset)) <<< (bits - (8 - offset)))
          (bits - (8 - offset)) (by omega) (by omega) (by omega)
        simp only [writeBitLoop, hmore, if_true, orByte_eq, hrest]
        by_cases hlen : bitNo < dst.length
        · have hfit : (8 * (bitNo + 1) + 0 + max (bits - (8 - offset)) 1 ≤ 8 * dst.length) =
              (8 * bitNo + offset + max bits 1 ≤ 8 * dst.length) := by
            rw [eq_iff_iff]
            omega
          simp only [hlen, if_true, Option.bind_some, length_orBits, orBits_orBits, hfit]
          rw [funext (fieldBits_split bitNo offset val hoff hmore hbits)]
          rfl
        · have hfit : ¬ 8 * bitNo + offset + max bits 1 ≤ 8 * dst.length := by omega
          simp [hlen, hfit]
      · -- the field ends in this byte
        have hfit : (bitNo < dst.length) =
            (8 * bitNo + offset + max bits 1 ≤ 8 * dst.length) := by
          rw [eq_iff_iff]
          omega
        simp only [writeBitLoop, hmore, if_false, orByte_eq, hfit]
        rw [funext (fieldBits_last bitNo offset val hoff hmore)]


theorem writeBitValue_eq (dst : Buffer) {offset valSize : Nat} (val : BitVec 16)
    (hoff : offset < 2 ^ 16) (hsize : valSize ≤ 16) :
    writeBitValue dst offset val valSize =
      if offset + max valSize 1 ≤ 8 * dst.length then
        some (orBits dst (fieldBits offset val valSize))
      else none := by
  have hpos : 8 * (offset / 8) + offset % 8 = offset := by omega
  have h := writeBitLoop_eq (valSize + 1) dst (offset / 8) (offset % 8) val valSize (by omega)
    (by omega) hsize
  simpa only [writeBitValue, Nat.mod_eq_of_lt hoff, hpos] using h

/-! ### The pattern of a field -/

/-- Inside the field, the pattern is the low `val_size` bits of the value. -/
theorem fieldBits_inside {offset valSize i : Nat} (val : BitVec 16) (hi : i < valSize)
    (hsize : valSize ≤ 16) :
    fieldBits offset val valSize (offset + i) = val.toNat.testBit (valSize - 1 - i) := by
  have hlo : 8 * (offset / 8) ≤ offset + i := by omega
  have hidx : offset + valSize - 1 - (offset + i) = valSize - 1 - i := by omega
  have hlt : valSize - 1 - i < 16 := by omega
  simp [fieldBits, hlo, hi, hidx, intBit, hlt, BitVec.testBit_toNat]

theorem fieldBits_after {offset valSize j : Nat} (val : BitVec 16) (hj : offset + valSize ≤ j) :
    fieldBits offset val valSize j = false := by
  have hend : ¬ j < offset + valSize := by omega
  simp [fieldBits, hend]

theorem fieldBits_before {offset valSize j : Nat} (val : BitVec 16)
    (hj : j < 8 * (offset / 8)) : fieldBits offset val valSize j = false := by
  have hlo : ¬ 8 * (offset / 8) ≤ j := by omega
  simp [fieldBits, hlo]

/-- A write is tight when it sets no bit before its field: the field starts a byte, or the value
fits the field and is not negative. -/
def Tight (offset : Nat) (val : BitVec 16) (valSize : Nat) : Prop :=
  offset % 8 = 0 ∨ val.toNat < 2 ^ valSize ∧ val.toNat < 2 ^ 15

theorem Tight.fieldBits_left {offset valSize j : Nat} {val : BitVec 16}
    (h : Tight offset val valSize) (hj : j < offset) :
    fieldBits offset val valSize j = false := by
  rcases h with haligned | ⟨hfits, hsign⟩
  · exact fieldBits_before val (by omega)
  · have hidx : valSize ≤ offset + valSize - 1 - j := by omega
    have hbit : intBit val (offset + valSize - 1 - j) = false := by
      by_cases h16 : offset + valSize - 1 - j < 16
      · have hlow := Nat.testBit_lt_two_pow (Nat.lt_of_lt_of_le hfits
          (Nat.pow_le_pow_right (by decide) hidx))
        simpa [intBit, h16, BitVec.testBit_toNat] using hlow
      · simpa [intBit, h16, BitVec.msb_eq_decide] using hsign
    simp [fieldBits, hbit]

/-- The pattern of a tight field is exactly the value, and nothing else. -/
theorem Tight.fieldBits_eq {offset valSize : Nat} {val : BitVec 16}
    (h : Tight offset val valSize) (hsize : valSize ≤ 16) (j : Nat) :
    fieldBits offset val valSize j =
      (decide (offset ≤ j ∧ j < offset + valSize) &&
        val.toNat.testBit (offset + valSize - 1 - j)) := by
  by_cases hlo : offset ≤ j
  · by_cases hhi : j < offset + valSize
    · rcases Nat.exists_eq_add_of_le hlo with ⟨i, rfl⟩
      have hidx : offset + valSize - 1 - (offset + i) = valSize - 1 - i := by omega
      rw [fieldBits_inside val (by omega) hsize, hidx]
      simp [hlo, hhi]
    · simp [fieldBits_after val (Nat.not_lt.mp hhi), hhi]
  · simp [h.fieldBits_left (Nat.lt_of_not_le hlo), hlo]

/-! ## Reading -/

/-- What `read_bit_value` reads from a stream.  A field that spans three bytes has its first chunk
shifted by the length of the last chunk once more than it should be. -/
def fieldRead (f : Nat → Bool) (offset valSize : Nat) : Nat :=
  if offset % 8 + valSize ≤ 16 then
    window f offset valSize
  else
    window f offset (8 - offset % 8) * 2 ^ (2 * (offset % 8 + valSize) - 24) +
      window f (offset + (8 - offset % 8)) (offset % 8 + valSize - 8)

theorem ofNat_shiftLeft (n r : Nat) : BitVec.ofNat 16 n <<< r = BitVec.ofNat 16 (n * 2 ^ r) := by
  refine BitVec.eq_of_toNat_eq ?_
  simp [Nat.shiftLeft_eq, Nat.mod_mul_mod]

/-- A window inside one byte. -/
theorem window_in_byte (src : Buffer) (i : Nat) {o b : Nat} (hb : o + b ≤ 8) :
    window (bitAt src) (8 * i + o) b = (src.getD i 0#8).toNat / 2 ^ (8 - o - b) % 2 ^ b := by
  refine window_eq_mod fun k hk => ?_
  have hdiv : (8 * i + o + k) / 8 = i := by omega
  have hmod : (8 * i + o + k) % 8 = o + k := by omega
  have hlt : o + k < 8 := by omega
  have hidx : 8 - 1 - (o + k) = b - 1 - k + (8 - o - b) := by omega
  rw [bitAt, hdiv, hmod, Nat.testBit_div_two_pow, BitVec.testBit_toNat, BitVec.getMsbD, hidx]
  simp [hlt]

theorem toNat_chunk (byte : Byte) {o : Nat} (ho : o < 8) :
    ((byte <<< o) >>> o).toNat = byte.toNat / 2 ^ (8 - o - (8 - o)) % 2 ^ (8 - o) := by
  have hpow : 2 ^ 8 = 2 ^ o * 2 ^ (8 - o) := by
    rw [← Nat.pow_add]
    congr 1
    omega
  rw [BitVec.toNat_ushiftRight, BitVec.toNat_shiftLeft, Nat.shiftLeft_eq, Nat.shiftRight_eq_div_pow,
    Nat.mul_comm, hpow, Nat.mul_mod_mul_left, Nat.mul_div_cancel_left _ (Nat.two_pow_pos o)]
  simp

theorem toNat_lastChunk (byte : Byte) {o b : Nat} (hb : o + b ≤ 8) :
    (((byte >>> (8 - b - o)) <<< (8 - b)) >>> (8 - b)).toNat =
      byte.toNat / 2 ^ (8 - o - b) % 2 ^ b := by
  have hpow : 2 ^ 8 = 2 ^ (8 - b) * 2 ^ b := by
    rw [← Nat.pow_add]
    congr 1
    omega
  have hidx : 8 - b - o = 8 - o - b := by omega
  rw [BitVec.toNat_ushiftRight, BitVec.toNat_shiftLeft, BitVec.toNat_ushiftRight, Nat.shiftLeft_eq,
    Nat.shiftRight_eq_div_pow, Nat.shiftRight_eq_div_pow, Nat.mul_comm, hpow, Nat.mul_mod_mul_left,
    Nat.mul_div_cancel_left _ (Nat.two_pow_pos _), hidx]

theorem setWidth_eq_ofNat (b : Byte) : b.setWidth 16 = BitVec.ofNat 16 b.toNat := by
  refine BitVec.eq_of_toNat_eq ?_
  simp

theorem readBitLoop_last (fuel : Nat) (src : Buffer) (bitNo offset : Nat) (val : BitVec 16)
    (bits : Nat) (hoff : offset < 8) (hlast : ¬ 8 - offset < bits) :
    readBitLoop (fuel + 1) src bitNo offset val bits =
      if bitNo < src.length then
        some (val + BitVec.ofNat 16 (window (bitAt src) (8 * bitNo + offset) bits))
      else none := by
  by_cases hlen : bitNo < src.length
  · have hget : src[bitNo]? = some (src.getD bitNo 0#8) := by
      simp [List.getD_eq_getElem?_getD, hlen]
    simp only [readBitLoop, hget, Option.bind_some, hlast, if_false, hlen, if_true,
      setWidth_eq_ofNat]
    rw [toNat_lastChunk _ (by omega), window_in_byte src bitNo (by omega)]
  · simp [readBitLoop, hlen]

theorem readBitLoop_more (fuel : Nat) (src : Buffer) (bitNo offset : Nat) (val : BitVec 16)
    (bits : Nat) (hoff : offset < 8) (hmore : 8 - offset < bits) :
    readBitLoop (fuel + 1) src bitNo offset val bits =
      if bitNo < src.length then
        readBitLoop fuel src (bitNo + 1) 0
          ((val + BitVec.ofNat 16 (window (bitAt src) (8 * bitNo + offset) (8 - offset))) <<<
            (bits - (8 - offset)))
          (bits - (8 - offset))
      else none := by
  by_cases hlen : bitNo < src.length
  · have hget : src[bitNo]? = some (src.getD bitNo 0#8) := by
      simp [List.getD_eq_getElem?_getD, hlen]
    simp only [readBitLoop, hget, Option.bind_some, hmore, hlen, if_true, setWidth_eq_ofNat]
    rw [toNat_chunk _ hoff, window_in_byte src bitNo (by omega)]
  · simp [readBitLoop, hlen]

/-- A field over three bytes, as the loop reads it: the first chunk is shifted once for the second
one, and again, together with it, for the third. -/
theorem fieldRead_three (f : Nat → Bool) {offset valSize : Nat}
    (hspan : ¬ offset % 8 + valSize ≤ 16) :
    fieldRead f offset valSize =
      (window f offset (8 - offset % 8) * 2 ^ (valSize - (8 - offset % 8)) +
          window f (offset + (8 - offset % 8)) (8 - 0)) *
        2 ^ (valSize - (8 - offset % 8) - (8 - 0)) +
      window f (offset + (8 - offset % 8) + (8 - 0)) (valSize - (8 - offset % 8) - (8 - 0)) := by
  have hshift : valSize - (8 - offset % 8) + (valSize - (8 - offset % 8) - (8 - 0)) =
      2 * (offset % 8 + valSize) - 24 := by omega
  have htail : offset % 8 + valSize - 8 =
      (8 - 0) + (valSize - (8 - offset % 8) - (8 - 0)) := by omega
  simp only [fieldRead, hspan, if_false]
  rw [htail, window_add, ← hshift, Nat.pow_add]
  ring

theorem readBitValue_eq {src : Buffer} {offset valSize : Nat} (hoff : offset < 2 ^ 16)
    (hsize : valSize ≤ 16) :
    readBitValue src offset valSize =
      if offset + max valSize 1 ≤ 8 * src.length then
        some (BitVec.ofNat 16 (fieldRead (bitAt src) offset valSize))
      else none := by
  -- the loop makes one turn for every byte that the field touches
  have hpos : 8 * (offset / 8) + offset % 8 = offset := by omega
  have ho : offset % 8 < 8 := by omega
  simp only [readBitValue, Nat.mod_eq_of_lt hoff]
  by_cases h1 : 8 - offset % 8 < valSize
  · by_cases h2 : 8 - 0 < valSize - (8 - offset % 8)
    · -- three bytes: the first chunk is shifted with the second one
      rcases Nat.exists_eq_add_of_le (show 2 ≤ valSize by omega) with ⟨k, hk⟩
      have hfuel : valSize + 1 = k + 1 + 1 + 1 := by omega
      have hmid : 8 * (offset / 8 + 1) + 0 = offset + (8 - offset % 8) := by omega
      have hlast : 8 * (offset / 8 + 1 + 1) + 0 = offset + (8 - offset % 8) + (8 - 0) := by omega
      have hfit : (offset / 8 + 1 + 1 < src.length) =
          (offset + max valSize 1 ≤ 8 * src.length) := by
        rw [eq_iff_iff]
        omega
      have hspan : ¬ offset % 8 + valSize ≤ 16 := by omega
      have hval := fieldRead_three (bitAt src) hspan
      rw [hfuel, readBitLoop_more _ _ _ _ _ _ ho h1, readBitLoop_more _ _ _ _ _ _ (by decide) h2,
        readBitLoop_last _ _ _ _ _ _ (by decide) (by omega), hpos, hmid, hlast, hval]
      simp only [BitVec.zero_add, ofNat_shiftLeft]
      simp only [← BitVec.ofNat_add, ofNat_shiftLeft, ← hfit]
      by_cases hlen : offset / 8 + 1 + 1 < src.length
      · simp [hlen, show offset / 8 < src.length by omega,
          show offset / 8 + 1 < src.length by omega]
      · simp [hlen]
    · -- two bytes
      rcases Nat.exists_eq_add_of_le (show 1 ≤ valSize by omega) with ⟨k, hk⟩
      have hfuel : valSize + 1 = k + 1 + 1 := by omega
      have hnext : 8 * (offset / 8 + 1) + 0 = offset + (8 - offset % 8) := by omega
      have hfit : (offset / 8 + 1 < src.length) = (offset + max valSize 1 ≤ 8 * src.length) := by
        rw [eq_iff_iff]
        omega
      have hspan : offset % 8 + valSize ≤ 16 := by omega
      have hsum : valSize = (8 - offset % 8) + (valSize - (8 - offset % 8)) := by omega
      have hwin := window_add (bitAt src) offset (8 - offset % 8) (valSize - (8 - offset % 8))
      rw [← hsum] at hwin
      rw [hfuel, readBitLoop_more _ _ _ _ _ _ ho h1, readBitLoop_last _ _ _ _ _ _ (by decide) h2,
        hpos, hnext]
      simp only [BitVec.zero_add, ofNat_shiftLeft]
      simp only [← BitVec.ofNat_add, ← hwin, fieldRead, hspan, if_true, ← hfit]
      by_cases hlen : offset / 8 + 1 < src.length
      · simp [hlen, show offset / 8 < src.length by omega]
      · simp [hlen]
  · -- one byte
    have hfit : (offset / 8 < src.length) = (offset + max valSize 1 ≤ 8 * src.length) := by
      rw [eq_iff_iff]
      omega
    have hspan : offset % 8 + valSize ≤ 16 := by omega
    rw [readBitLoop_last _ _ _ _ _ _ ho h1, hpos]
    simp [hfit, fieldRead, hspan]

/-- A field that spans at most two bytes is read back as it was packed. -/
theorem fieldRead_eq_mod {f : Nat → Bool} {offset valSize v : Nat}
    (hspan : offset % 8 + valSize ≤ 16)
    (h : ∀ i < valSize, f (offset + i) = v.testBit (valSize - 1 - i)) :
    fieldRead f offset valSize = v % 2 ^ valSize := by
  simpa [fieldRead, hspan] using window_eq_mod h

/-- The share of the first byte that the long shift multiplies once too often is zero if the sum
comes out right: the excess is an odd multiple of it. -/
theorem share_eq_zero {first rest s : Nat} (hs : 9 ≤ s)
    (heq : (first * 2 ^ (s + (s - 8)) + rest) % 2 ^ 16 = first * 2 ^ s + rest)
    (hword : first * 2 ^ s + rest < 2 ^ 16) : first * 2 ^ s = 0 := by
  -- an odd factor cannot make up for a power of 2 that is missing
  have hcoprime : Nat.Coprime (2 ^ 16) (2 ^ (s - 8) - 1) := by
    have hdouble : 2 ^ (s - 8) = 2 ^ (s - 9) * 2 := by
      rw [← Nat.pow_succ]
      congr 1
      omega
    have hpos := Nat.two_pow_pos (s - 9)
    exact Nat.Coprime.pow_left 16 (Nat.coprime_two_left.mpr ⟨2 ^ (s - 9) - 1, by omega⟩)
  have hdvd : 2 ^ 16 ∣ first * 2 ^ s * (2 ^ (s - 8) - 1) := by
    have hmod : (first * 2 ^ s * 2 ^ (s - 8) + rest) % 2 ^ 16 =
        (first * 2 ^ s + rest) % 2 ^ 16 := by
      rw [Nat.mul_assoc, ← Nat.pow_add, heq, Nat.mod_eq_of_lt hword]
    have hcongr : first * 2 ^ s ≡ first * 2 ^ s * 2 ^ (s - 8) [MOD 2 ^ 16] :=
      (Nat.ModEq.add_right_cancel' rest hmod).symm
    rw [Nat.mul_sub_one]
    exact (Nat.modEq_iff_dvd' (Nat.le_mul_of_pos_right _ (Nat.two_pow_pos _))).mp hcongr
  have hshare : 2 ^ 16 ∣ first * 2 ^ s := hcoprime.dvd_of_dvd_mul_right hdvd
  exact Nat.eq_zero_of_dvd_of_lt hshare (by omega)

/-- A value is read back exactly when its field spans at most two bytes, or when it is so small that
the first of three bytes holds none of it. -/
theorem fieldRead_mod_eq_iff {f : Nat → Bool} {offset valSize v : Nat} (hsize : valSize ≤ 16)
    (hv : v < 2 ^ valSize) (h : ∀ i < valSize, f (offset + i) = v.testBit (valSize - 1 - i)) :
    fieldRead f offset valSize % 2 ^ 16 = v ↔
      offset % 8 + valSize ≤ 16 ∨ v < 2 ^ (offset % 8 + valSize - 8) := by
  by_cases hspan : offset % 8 + valSize ≤ 16
  · refine iff_of_true ?_ (Or.inl hspan)
    have hword : v < 2 ^ 16 := Nat.lt_of_lt_of_le hv (Nat.pow_le_pow_right (by decide) hsize)
    rw [fieldRead_eq_mod hspan h, Nat.mod_eq_of_lt hv, Nat.mod_eq_of_lt hword]
  · -- past 16 bits the first byte is shifted `s - 8` bits too far
    obtain ⟨s, hs⟩ : ∃ s, offset % 8 + valSize - 8 = s := ⟨_, rfl⟩
    obtain ⟨first, hfirst⟩ : ∃ n, window f offset (8 - offset % 8) = n := ⟨_, rfl⟩
    obtain ⟨rest, hrest⟩ : ∃ n, window f (offset + (8 - offset % 8)) s = n := ⟨_, rfl⟩
    have hlt : rest < 2 ^ s := by
      rw [← hrest]
      exact window_lt _ _ _
    have hwhole := window_eq_mod h
    have hlen : valSize = (8 - offset % 8) + s := by omega
    have hsplit := window_add f offset (8 - offset % 8) s
    rw [← hlen, hwhole, Nat.mod_eq_of_lt hv, hfirst, hrest] at hsplit
    have hshift : 2 * (offset % 8 + valSize) - 24 = s + (s - 8) := by omega
    have hword : v < 2 ^ 16 := Nat.lt_of_lt_of_le hv (Nat.pow_le_pow_right (by decide) hsize)
    rw [fieldRead, if_neg hspan, hs, hfirst, hrest, hshift]
    constructor
    · intro heq
      rw [hsplit] at hword heq
      have hzero := share_eq_zero (by omega) heq hword
      exact Or.inr (by omega)
    · rintro (hshort | hsmall)
      · exact absurd hshort hspan
      · -- a value below `2 ^ s` leaves nothing for the first byte
        have hzero : first = 0 := by
          by_contra hne
          have hone : 2 ^ s ≤ first * 2 ^ s := Nat.le_mul_of_pos_left _ (Nat.pos_of_ne_zero hne)
          omega
        rw [hzero, Nat.zero_mul, Nat.zero_add] at hsplit ⊢
        rw [← hsplit, Nat.mod_eq_of_lt hword]

/-- However many bytes a field spans, the low byte of what is read is that of the value packed. -/
theorem fieldRead_mod {f : Nat → Bool} {offset valSize v : Nat} (hsize : valSize ≤ 16)
    (h : ∀ i < valSize, f (offset + i) = v.testBit (valSize - 1 - i)) :
    fieldRead f offset valSize % 2 ^ 8 = v % 2 ^ valSize % 2 ^ 8 := by
  by_cases hspan : offset % 8 + valSize ≤ 16
  · rw [fieldRead_eq_mod hspan h]
  · -- the shift that is too long only concerns the bits above the low byte
    have hlow : window f (offset + (8 - offset % 8)) (offset % 8 + valSize - 8) =
        v % 2 ^ (offset % 8 + valSize - 8) := by
      refine window_eq_mod fun i hi => ?_
      have hbit := h (8 - offset % 8 + i) (by omega)
      have hidx : valSize - 1 - (8 - offset % 8 + i) = offset % 8 + valSize - 8 - 1 - i := by omega
      rw [hidx, ← Nat.add_assoc] at hbit
      exact hbit
    have hshift : 2 * (offset % 8 + valSize) - 24 =
        2 * (offset % 8 + valSize) - 32 + 8 := by omega
    have hdvd : 2 ^ 8 ∣ 2 ^ (offset % 8 + valSize - 8) := pow_dvd_pow 2 (by omega)
    have hdvd' : 2 ^ 8 ∣ 2 ^ valSize := pow_dvd_pow 2 (by omega)
    rw [fieldRead, if_neg hspan, hlow, hshift, Nat.pow_add, ← Nat.mul_assoc,
      Nat.mul_add_mod_self_right, Nat.mod_mod_of_dvd _ hdvd, Nat.mod_mod_of_dvd _ hdvd']

/-- A read depends on the bits of its field only. -/
theorem fieldRead_congr {f g : Nat → Bool} {offset valSize : Nat}
    (h : ∀ i < valSize, f (offset + i) = g (offset + i)) :
    fieldRead f offset valSize = fieldRead g offset valSize := by
  by_cases hspan : offset % 8 + valSize ≤ 16
  · simpa [fieldRead, hspan] using window_congr h
  · have hfirst : window f offset (8 - offset % 8) = window g offset (8 - offset % 8) :=
      window_congr fun i hi => h i (by omega)
    have hrest : window f (offset + (8 - offset % 8)) (offset % 8 + valSize - 8) =
        window g (offset + (8 - offset % 8)) (offset % 8 + valSize - 8) := by
      refine window_congr fun i hi => ?_
      have hbit := h (8 - offset % 8 + i) (by omega)
      simpa only [Nat.add_assoc] using hbit
    simp [fieldRead, hspan, hfirst, hrest]

theorem fieldRead_eq_zero {f : Nat → Bool} {offset valSize : Nat}
    (h : ∀ i < valSize, f (offset + i) = false) : fieldRead f offset valSize = 0 := by
  have hzero : fieldRead f offset valSize = fieldRead (fun _ => false) offset valSize :=
    fieldRead_congr h
  have hwin : ∀ lo len, window (fun _ => false) lo len = 0 := fun _ _ =>
    window_eq_zero fun _ _ => rfl
  rw [hzero]
  simp [fieldRead, hwin]

/-- A field that ends in `c` clear bits is read as a multiple of `2 ^ c`. -/
theorem two_pow_dvd_fieldRead {f : Nat → Bool} {offset valSize c : Nat} (hc : c ≤ valSize)
    (h : ∀ i < valSize, valSize - c ≤ i → f (offset + i) = false) :
    2 ^ c ∣ fieldRead f offset valSize := by
  by_cases hspan : offset % 8 + valSize ≤ 16
  · -- a single window
    rw [fieldRead, if_pos hspan]
    refine two_pow_dvd_window hc fun i hi => ?_
    have hidx : offset + valSize - 1 - i = offset + (valSize - 1 - i) := by omega
    rw [hidx]
    exact h _ (by omega) (by omega)
  · rw [fieldRead, if_neg hspan]
    have hrest : ∀ i < offset % 8 + valSize - 8, valSize - c ≤ 8 - offset % 8 + i →
        f (offset + (8 - offset % 8) + i) = false := by
      intro i hi hlow
      rw [Nat.add_assoc]
      exact h _ (by omega) hlow
    by_cases hchunk : c ≤ offset % 8 + valSize - 8
    · -- the clear bits lie in the last two bytes
      have htail : 2 ^ c ∣ window f (offset + (8 - offset % 8)) (offset % 8 + valSize - 8) := by
        refine two_pow_dvd_window hchunk fun i hi => ?_
        have hidx : offset + (8 - offset % 8) + (offset % 8 + valSize - 8) - 1 - i =
            offset + (8 - offset % 8) + (offset % 8 + valSize - 8 - 1 - i) := by omega
        rw [hidx]
        exact hrest _ (by omega) (by omega)
      have hshift : c ≤ 2 * (offset % 8 + valSize) - 24 := by omega
      exact Nat.dvd_add (Dvd.dvd.mul_left (pow_dvd_pow 2 hshift) _) htail
    · -- the clear bits reach into the first byte
      have hzero : window f (offset + (8 - offset % 8)) (offset % 8 + valSize - 8) = 0 :=
        window_eq_zero fun i hi => hrest i hi (by omega)
      have hhead : 2 ^ (c - (offset % 8 + valSize - 8)) ∣ window f offset (8 - offset % 8) := by
        refine two_pow_dvd_window (by omega) fun i hi => ?_
        have hidx : offset + (8 - offset % 8) - 1 - i = offset + (8 - offset % 8 - 1 - i) := by
          omega
        rw [hidx]
        exact h _ (by omega) (by omega)
      have hexp : c ≤ c - (offset % 8 + valSize - 8) + (2 * (offset % 8 + valSize) - 24) := by
        omega
      have hprod := Nat.mul_dvd_mul hhead (Nat.dvd_refl (2 ^ (2 * (offset % 8 + valSize) - 24)))
      rw [← Nat.pow_add] at hprod
      rw [hzero, Nat.add_zero]
      exact Nat.dvd_trans (pow_dvd_pow 2 hexp) hprod

/-! ## Offsets that have wrapped -/

theorem writeBitValue_wrapped (dst : Buffer) (offset : Nat) {valSize : Nat} (val : BitVec 16)
    (hsize : valSize ≤ 16) :
    writeBitValue dst offset val valSize =
      if offset % 2 ^ 16 + max valSize 1 ≤ 8 * dst.length then
        some (orBits dst (fieldBits (offset % 2 ^ 16) val valSize))
      else none := by
  have h := writeBitValue_eq dst val (Nat.mod_lt offset (Nat.two_pow_pos 16)) hsize
  rwa [writeBitValue, Nat.mod_mod, ← writeBitValue] at h

theorem readBitValue_wrapped (src : Buffer) (offset : Nat) {valSize : Nat} (hsize : valSize ≤ 16) :
    readBitValue src offset valSize =
      if offset % 2 ^ 16 + max valSize 1 ≤ 8 * src.length then
        some (BitVec.ofNat 16 (fieldRead (bitAt src) (offset % 2 ^ 16) valSize))
      else none := by
  have h : readBitValue src (offset % 2 ^ 16) valSize = _ :=
    readBitValue_eq (Nat.mod_lt offset (Nat.two_pow_pos 16)) hsize
  rwa [readBitValue, Nat.mod_mod, ← readBitValue] at h

theorem fieldRead_lt_of_span {f : Nat → Bool} {offset valSize : Nat}
    (hspan : offset % 8 + valSize ≤ 16) : fieldRead f offset valSize < 2 ^ valSize := by
  rw [fieldRead, if_pos hspan]
  exact window_lt _ _ _

end PinProtocol
