import PinProtocol.Common.BitFields

/-!
# FieldExactness — when the accessors read and write exactly their field

`read_bit_value` is meant to return the bits of the range `[offset, offset + val_size)`, and
`write_bit_value` to set them, whatever the rest of the buffer and the rest of the value hold.
The two theorems below say exactly when they do:

* a read goes wrong on ranges that span three bytes, unless the share of the first byte is clear
  (`readBitValue_exact_iff`);
* a write goes wrong when a bit of the value that does not belong to the field lands on a clear
  bit in front of it (`writeBitValue_exact_iff`).
-/

namespace PinProtocol

open Bits Control

/-! ## Reading -/

/-- `read_bit_value` returns the big-endian integer in the range. -/
def ReadsRange (src : Buffer) (offset : BitVec 16) (valSize : Nat) : Prop :=
  (readBitValue src offset.toNat valSize).map BitVec.toNat =
    some (window (bitAt src) offset.toNat valSize)

/-- On a stream, a read is the integer in the range when two bytes hold it, or when the first of
three bytes has only clear bits of it. -/
theorem fieldRead_mod_eq_window_iff (f : Nat → Bool) {offset valSize : Nat} (hsize : valSize ≤ 16) :
    fieldRead f offset valSize % 2 ^ 16 = window f offset valSize ↔
      offset % 8 + valSize ≤ 16 ∨ ∀ i < 8 - offset % 8, f (offset + i) = false := by
  -- the range itself is the value that its bits spell
  have hbits : ∀ i < valSize,
      f (offset + i) = (window f offset valSize).testBit (valSize - 1 - i) := by
    intro i hi
    have hpos : offset + valSize - 1 - (valSize - 1 - i) = offset + i := by omega
    have hlt : valSize - 1 - i < valSize := by omega
    rw [testBit_window, hpos, decide_eq_true hlt, Bool.true_and]
  rw [fieldRead_mod_eq_iff hsize (window_lt f offset valSize) hbits]
  by_cases hspan : offset % 8 + valSize ≤ 16
  · simp only [hspan, true_or]
  · -- the range is the share of its first byte, followed by what fits the other two
    simp only [hspan, false_or]
    obtain ⟨s, hs⟩ : ∃ s, offset % 8 + valSize - 8 = s := ⟨_, rfl⟩
    have hlen : valSize = (8 - offset % 8) + s := by omega
    have hsplit := window_add f offset (8 - offset % 8) s
    have hrest := window_lt f (offset + (8 - offset % 8)) s
    rw [hs, ← window_eq_zero_iff]
    conv_lhs => rw [hlen, hsplit]
    constructor
    · -- a set bit of the first byte would weigh at least `2 ^ s`
      intro hsmall
      by_contra hne
      have hone : 2 ^ s ≤ window f offset (8 - offset % 8) * 2 ^ s :=
        Nat.le_mul_of_pos_left _ (Nat.pos_of_ne_zero hne)
      omega
    · intro hzero
      rw [hzero, Nat.zero_mul, Nat.zero_add]
      exact hrest

/-- For a range inside the buffer, the read is exact if and only if it does not start past the
end, and spans two bytes or has nothing in the first of three. -/
theorem readBitValue_exact_iff (src : Buffer) (offset : BitVec 16) {valSize : Nat}
    (hsize : valSize ≤ 16) (hin : offset.toNat + valSize ≤ 8 * src.length) :
    ReadsRange src offset valSize ↔
      (valSize = 0 → offset.toNat < 8 * src.length) ∧
        (offset.toNat % 8 + valSize ≤ 16 ∨
          ∀ i < 8 - offset.toNat % 8, bitAt src (offset.toNat + i) = false) := by
  rw [← fieldRead_mod_eq_window_iff (bitAt src) hsize, ReadsRange,
    readBitValue_eq offset.isLt hsize]
  by_cases hfit : offset.toNat + max valSize 1 ≤ 8 * src.length
  · have hstart : valSize = 0 → offset.toNat < 8 * src.length := fun _ => by omega
    rw [if_pos hfit, Option.map_some, BitVec.toNat_ofNat, Option.some_inj]
    exact (and_iff_right hstart).symm
  · -- an empty range at the very end: the byte behind the buffer is read all the same
    have hstart : ¬ (valSize = 0 → offset.toNat < 8 * src.length) := by
      intro h
      have hempty : valSize = 0 := by omega
      have hinside := h hempty
      omega
    rw [if_neg hfit]
    exact iff_of_false (by simp) fun h => hstart h.1

theorem readBitValue_exact_twelve : ReadsRange [0x12#8, 0x34#8, 0x56#8] 4#16 12 :=
  (readBitValue_exact_iff [0x12#8, 0x34#8, 0x56#8] 4#16 (by decide) (by decide)).mpr
    ⟨by decide, Or.inl (by decide)⟩

/-- Sixteen set bits from bit 1 on are read as `0xFDFF`. -/
theorem readBitValue_three_bytes : ¬ ReadsRange [0x7F#8, 0xFF#8, 0x80#8] 1#16 16 := by
  unfold ReadsRange
  decide

/-! ## Writing -/

/-- `write_bit_value` leaves `val` modulo `2 ^ val_size` in the range, and every bit outside of it
as it was. -/
def WritesRange (dst : Buffer) (offset : BitVec 16) (val : BitVec 16) (valSize : Nat) : Prop :=
  ∃ dst', writeBitValue dst offset.toNat val valSize = some dst' ∧ dst'.length = dst.length ∧
    (window (bitAt dst') offset.toNat valSize : Int) = val.toInt % 2 ^ valSize ∧
    ∀ j, j < offset.toNat ∨ offset.toNat + valSize ≤ j → bitAt dst' j = bitAt dst j

/-- Modulo a power of two that divides `2 ^ 16`, the sign of an `int16_t` does not matter. -/
theorem toInt_emod_two_pow (val : BitVec 16) {n : Nat} (hn : n ≤ 16) :
    val.toInt % 2 ^ n = (val.toNat % 2 ^ n : Nat) := by
  have hdvd : (2 : Int) ^ n ∣ ((2 ^ 16 : Nat) : Int) := pow_dvd_pow 2 hn
  calc
    val.toInt % 2 ^ n = (val.toNat : Int).bmod (2 ^ 16) % (2 ^ 16 : Nat) % 2 ^ n := by
        rw [BitVec.toInt_eq_toNat_bmod, Int.emod_emod_of_dvd _ hdvd]
    _ = (val.toNat : Int) % 2 ^ n := by
        rw [Int.bmod_emod, Int.emod_emod_of_dvd _ hdvd]
    _ = (val.toNat % 2 ^ n : Nat) := by
        push_cast
        rfl

/-- In front of a field, down to the start of its byte, a write sets the bits of the value above
the field. -/
theorem fieldBits_front {offset valSize k : Nat} (val : BitVec 16) (hk : k < offset) :
    fieldBits offset val valSize (offset - 1 - k) =
      (decide (k < offset % 8) && intBit val (valSize + k)) := by
  have hbyte : 8 * (offset / 8) ≤ offset - 1 - k ↔ k < offset % 8 := by omega
  have hend : offset - 1 - k < offset + valSize := by omega
  have hidx : offset + valSize - 1 - (offset - 1 - k) = valSize + k := by omega
  rw [fieldBits, hidx, decide_eq_true hend, Bool.and_true]
  simp only [hbyte]

/-- For a clear range inside the buffer, the write is exact if and only if the bits of the value
above the field that fall in its first byte are clear, or land on bits that are set already. -/
theorem writeBitValue_exact_iff (dst : Buffer) (offset val : BitVec 16) {valSize : Nat}
    (hpos : 1 ≤ valSize) (hsize : valSize ≤ 16) (hin : offset.toNat + valSize ≤ 8 * dst.length)
    (hclear : ∀ i < valSize, bitAt dst (offset.toNat + i) = false) :
    WritesRange dst offset val valSize ↔
      ∀ k < offset.toNat % 8, intBit val (valSize + k) = true →
        bitAt dst (offset.toNat - 1 - k) = true := by
  have hfit : offset.toNat + max valSize 1 ≤ 8 * dst.length := by omega
  have hwrite : writeBitValue dst offset.toNat val valSize =
      some (orBits dst (fieldBits offset.toNat val valSize)) := by
    rw [writeBitValue_eq dst val offset.isLt hsize, if_pos hfit]
  have hbit : ∀ j < offset.toNat + valSize,
      bitAt (orBits dst (fieldBits offset.toNat val valSize)) j =
        (bitAt dst j || fieldBits offset.toNat val valSize j) := by
    intro j hj
    have hlt : j < 8 * dst.length := by omega
    rw [bitAt_orBits, decide_eq_true hlt, Bool.true_and]
  constructor
  · -- bit `k` in front of the range is set by bit `valSize + k` of the value, if by any
    rintro ⟨dst', hdst', -, -, hframe⟩ k hk hset
    have hsame := hframe (offset.toNat - 1 - k) (Or.inl (by omega))
    rw [hwrite, Option.some_inj] at hdst'
    rw [← hdst', hbit _ (by omega), fieldBits_front val (by omega), decide_eq_true hk,
      hset] at hsame
    simpa using hsame.symm
  · intro hfront
    -- inside the range the value arrives whatever it is, since the range was clear
    refine ⟨_, hwrite, length_orBits _ _, ?_, ?_⟩
    · rw [toInt_emod_two_pow val hsize]
      congr 1
      refine window_eq_mod fun i hi => ?_
      rw [hbit _ (by omega), hclear i hi, Bool.false_or, fieldBits_inside val hi hsize]
    · rintro j (hbefore | hafter)
      · -- in front of it, a bit of the same byte that the value sets was set already
        obtain ⟨k, hk, rfl⟩ : ∃ k < offset.toNat, j = offset.toNat - 1 - k :=
          ⟨offset.toNat - 1 - j, by omega, by omega⟩
        rw [hbit _ (by omega), fieldBits_front val hk]
        by_cases hbyte : k < offset.toNat % 8
        · cases hset : intBit val (valSize + k) with
          | false => simp
          | true => simp [hfront k hbyte hset]
        · simp [hbyte]
      · rw [bitAt_orBits, fieldBits_after val hafter, Bool.and_false, Bool.or_false]

theorem writeBitValue_exact_aligned : WritesRange (zeros 3) 8#16 0xFFFF#16 4 :=
  (writeBitValue_exact_iff (zeros 3) 8#16 0xFFFF#16 (by decide) (by decide) (by decide)
    (fun _ _ => bitAt_zeros 3 _)).mpr fun _ hk => absurd hk (Nat.not_lt_zero _)

/-- A negative value on eight bits from bit 4 on sets bits 0 to 3 too. -/
theorem writeBitValue_spills : ¬ WritesRange (zeros 2) 4#16 0xFFFF#16 8 := by
  rintro ⟨dst', hwrite, -, -, hframe⟩
  have hdst' : writeBitValue (zeros 2) 4 0xFFFF#16 8 = some [0xFF#8, 0xF0#8] := by decide
  have hsame := hframe 0 (Or.inl (by decide))
  rw [Option.some_inj.mp (hwrite.symm.trans hdst')] at hsame
  exact absurd hsame (by decide)

/-! ## Values that fit -/

/-- A value that is not negative and fits the field is the same number with and without a sign. -/
theorem tight_of_toInt (offset : Nat) {val : BitVec 16} {valSize : Nat} (hsign : 0 ≤ val.toInt)
    (hval : val.toInt < 2 ^ valSize) : Tight offset val valSize := by
  have hhalf : 2 * val.toNat < 2 ^ 16 := BitVec.toInt_pos_iff.mp hsign
  rw [BitVec.toInt_eq_toNat_of_lt hhalf] at hval
  exact Or.inr ⟨by exact_mod_cast hval, by omega⟩

/-- Such a value is all that a write leaves in a clear range, most significant bit first, and it
changes nothing else. -/
theorem writeBitValue_sets_range (dst : Buffer) (offset val : BitVec 16) {valSize : Nat}
    (hpos : 1 ≤ valSize) (hsize : valSize ≤ 16) (hin : offset.toNat + valSize ≤ 8 * dst.length)
    (hclear : ∀ i < valSize, bitAt dst (offset.toNat + i) = false)
    (hsign : 0 ≤ val.toInt) (hval : val.toInt < 2 ^ valSize) :
    ∃ dst', writeBitValue dst offset.toNat val valSize = some dst' ∧ dst'.length = dst.length ∧
      ∀ j, bitAt dst' j =
        if offset.toNat ≤ j ∧ j < offset.toNat + valSize then
          val.toNat.testBit (offset.toNat + valSize - 1 - j)
        else bitAt dst j := by
  have htight := tight_of_toInt offset.toNat hsign hval
  have hfit : offset.toNat + max valSize 1 ≤ 8 * dst.length := by omega
  have hwrite := writeBitValue_eq dst val offset.isLt hsize
  rw [if_pos hfit] at hwrite
  refine ⟨_, hwrite, length_orBits _ _, fun j => ?_⟩
  rw [bitAt_orBits, htight.fieldBits_eq hsize]
  by_cases hrange : offset.toNat ≤ j ∧ j < offset.toNat + valSize
  · -- the bit was clear, and is inside the buffer
    obtain ⟨i, rfl⟩ := Nat.exists_eq_add_of_le hrange.1
    have hold := hclear i (by omega)
    have hinside : offset.toNat + i < 8 * dst.length := by omega
    rw [if_pos hrange, decide_eq_true hrange, decide_eq_true hinside, hold, Bool.false_or,
      Bool.true_and, Bool.true_and]
  · rw [if_neg hrange, decide_eq_false hrange, Bool.false_and, Bool.and_false, Bool.or_false]

/-- Twelve bits from bit 6 on lie in three bytes. -/
theorem writeBitValue_sets_three_bytes :
    ∃ dst', writeBitValue (zeros 3) 6 0xABC#16 12 = some dst' ∧ dst'.length = 3 ∧
      ∀ j, bitAt dst' j =
        if 6 ≤ j ∧ j < 18 then (0xABC#16).toNat.testBit (17 - j) else bitAt (zeros 3) j :=
  writeBitValue_sets_range (zeros 3) 6#16 0xABC#16 (by decide) (by decide) (by decide)
    (fun _ _ => bitAt_zeros 3 _) (by decide) (by decide)

end PinProtocol
