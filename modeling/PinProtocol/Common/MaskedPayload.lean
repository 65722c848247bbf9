import PinProtocol.Common.FieldLists

/-!
# MaskedPayload — a mask, and one value per pin of it

The data of a masked request or reply is a mask of one bit per pin, and directly behind it, usually
in the middle of a byte, the values of the pins used.  `write_mask` and `write_value_list` only OR,
so that the packed data is one pattern (`payloadBits`).  Values that fit their field stay inside of
it, and both parts are read back (`maskedPayload_roundTrip`).
-/

namespace PinProtocol

open Bits Control

/-- The bits of a mask of `nbPins` pins, and of values of `width` bits behind it. -/
def payloadBits (nbPins width : Nat) (m : Mask) (values : List (BitVec 16)) (j : Nat) : Bool :=
  maskBits m nbPins j || fieldsBits nbPins width values j

section Payload

variable {nbPins width : Nat} {m : Mask} {values : List (BitVec 16)}

theorem payloadBits_mask (htight : AllTight nbPins width values) {i : Nat} (hi : i < nbPins) :
    payloadBits nbPins width m values i = pinUsed m i := by
  rw [payloadBits, maskBits, decide_eq_true hi, Bool.true_and, htight.fieldsBits_before hi,
    Bool.or_false]

theorem payloadBits_values {j : Nat} (hj : nbPins ≤ j) :
    payloadBits nbPins width m values j = fieldsBits nbPins width values j := by
  rw [payloadBits, maskBits, decide_eq_false (Nat.not_lt.mpr hj), Bool.false_and, Bool.false_or]

/-- In a cleared buffer with room for both, the two writers leave their pattern. -/
theorem writePayload_eq (hlen : nbPins ≤ m.length) (hpos : 1 ≤ width) (hwidth : width ≤ 16)
    (hword : nbPins + width * values.length < 2 ^ 16) {n : Nat}
    (hroom : nbPins + width * values.length ≤ 8 * n) :
    ∃ masked, writeMask (zeros n) m nbPins = some masked ∧
      writeValueList masked nbPins values values.length width =
        some (orBits (zeros n) (payloadBits nbPins width m values)) := by
  have hmask := writeMask_eq (zeros n) hlen (by omega)
  rw [length_zeros, if_pos (by omega)] at hmask
  refine ⟨_, hmask, ?_⟩
  have hfits : Fits nbPins width values.length (orBits (zeros n) (maskBits m nbPins)).length :=
    fits_of_le hpos (by rw [length_orBits, length_zeros]; exact hroom)
  rw [writeValueList_eq _ (Nat.le_refl _) hword hwidth, if_pos hfits, List.take_length,
    orBits_orBits]
  rfl

end Payload

/-- What has been packed is read back, and nothing lies behind it. -/
theorem maskedPayload_roundTrip {nbPins valueSize n : Nat} {m : Mask} {values : List (BitVec 16)}
    (hbyte : nbPins < 2 ^ 8) (hlen : m.length = nbPins) (hpos : 1 ≤ valueSize)
    (hsize : valueSize ≤ 8) (hcount : maskNbPinsUsed m nbPins = some values.length)
    (hvalues : ∀ v ∈ values, v.toNat < 2 ^ valueSize)
    (hroom : nbPins + valueSize * values.length ≤ 8 * n) :
    ∃ masked data, writeMask (zeros n) m nbPins = some masked ∧
      writeValueList masked nbPins values values.length valueSize = some data ∧
      (∀ fresh : Mask, fresh.length = nbPins → readMask data 0 fresh nbPins = some m) ∧
      readValueList data nbPins values.length valueSize = some values ∧
      ∀ j, nbPins + valueSize * values.length ≤ j → bitAt data j = false := by
  have hused : values.length ≤ nbPins := by
    rw [maskNbPinsUsed_eq (Nat.le_of_eq hlen.symm) hbyte, Option.some_inj] at hcount
    rw [← hcount]
    exact length_usedPins_le m nbPins
  have htotal : valueSize * values.length ≤ 8 * 255 := Nat.mul_le_mul hsize (by omega)
  have htight := allTight_of_lt nbPins (by omega) hvalues
  have hword : nbPins + valueSize * values.length < 2 ^ 16 := by omega
  obtain ⟨masked, hmasked, hdata⟩ :=
    writePayload_eq (Nat.le_of_eq hlen.symm) hpos (by omega) hword hroom
  obtain ⟨data, hpacked⟩ :
      ∃ data, orBits (zeros n) (payloadBits nbPins valueSize m values) = data := ⟨_, rfl⟩
  have hlength : data.length = n := by rw [← hpacked, length_orBits, length_zeros]
  have hbits : ∀ j < 8 * n, bitAt data j = payloadBits nbPins valueSize m values j := by
    intro j hj
    rw [← hpacked, bitAt_orBits, bitAt_zeros, length_zeros, decide_eq_true hj, Bool.true_and,
      Bool.false_or]
  rw [hpacked] at hdata
  refine ⟨masked, data, hmasked, hdata, ?_, ?_, ?_⟩
  · -- no value reaches back into the mask
    intro fresh hfresh
    have hin : nbPins = 0 ∨ 0 + nbPins ≤ 8 * data.length := Or.inr (by omega)
    have hsame : ∀ i < m.length, bitAt data (0 + i) = pinUsed m i := by
      intro i hi
      rw [Nat.zero_add, hbits i (by omega), payloadBits_mask htight (by omega)]
    rw [readMask_eq data hfresh (by omega), if_pos hin, ← hlen, maskOf_eq hsame]
  · -- a field of at most eight bits lies in two bytes, wherever it starts
    have hin : Fits nbPins valueSize values.length data.length := fits_of_le hpos (by omega)
    rw [readValueList_eq data (by omega) (by omega), if_pos hin]
    refine congrArg some (List.ext_getElem (by simp) fun i hi hi' => ?_)
    have hspan : (nbPins + valueSize * i) % 8 + valueSize ≤ 16 := by omega
    have hvaluesBits : ∀ j, nbPins ≤ j → j < nbPins + valueSize * values.length →
        bitAt data j = fieldsBits nbPins valueSize values j := by
      intro j hlo hhi
      rw [hbits j (by omega), payloadBits_values hlo]
    have hfield := htight.fieldAt_eq (by omega) hvaluesBits hi' hspan
    rw [List.getElem_map, List.getElem_range, hfield,
      Nat.mod_eq_of_lt (hvalues _ (List.getElem_mem hi')), BitVec.ofNat_toNat, BitVec.setWidth_eq]
  · intro j hj
    by_cases hin : j < 8 * n
    · rw [hbits j hin, payloadBits_values (by omega), fieldsBits_after hj]
    · exact bitAt_of_length_le (by omega)

/-- Three of ten pins, and a type of three bits for each: 19 bits. -/
theorem maskedPayload_roundTrip_types :
    let m : Mask := [false, false, false, false, true, false, false, true, false, true]
    ∃ masked data, writeMask (zeros 3) m 10 = some masked ∧
      writeValueList masked 10 [0#16, 1#16, 4#16] 3 3 = some data ∧
      (∀ fresh : Mask, fresh.length = 10 → readMask data 0 fresh 10 = some m) ∧
      readValueList data 10 3 3 = some [0#16, 1#16, 4#16] ∧
      ∀ j, 19 ≤ j → bitAt data j = false :=
  maskedPayload_roundTrip (by decide) rfl (by decide) (by decide) (by decide) (by simp) (by decide)

end PinProtocol
