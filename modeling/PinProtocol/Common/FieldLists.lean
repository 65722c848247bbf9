import PinProtocol.Common.MaskWalk

/-!
# FieldLists — runs of equally wide fields

Value lists (`write_value_list`, `read_value_list`) and the loops of driver and device over the
pins of a mask all place field `i` at bit `offset + i * width`.  Writing such a run ORs in one
pattern (`fieldsBits`), reading it back gives `fieldAt`, and reading into an array scatters.
-/

namespace PinProtocol

open Bits Control

variable {α β : Type}

/-- A run of `n` fields that starts at bit `offset` stays inside a buffer of `len` bytes; a field
of width 0 still makes the accessors touch the byte that it lies in. -/
def Fits (offset width n len : Nat) : Prop :=
  n = 0 ∨ offset + width * (n - 1) + max width 1 ≤ 8 * len

instance (offset width n len : Nat) : Decidable (Fits offset width n len) :=
  inferInstanceAs (Decidable (_ ∨ _))

/-- All fields of a run fit exactly when the last one does. -/
theorem forall_lt_fits_iff {offset width n len : Nat} :
    (∀ k < n, offset + width * k + max width 1 ≤ 8 * len) ↔ Fits offset width n len := by
  constructor
  · intro h
    rcases Nat.eq_zero_or_pos n with hzero | hpos
    · exact Or.inl hzero
    · exact Or.inr (h (n - 1) (by omega))
  · rintro (hzero | hlast) k hk
    · omega
    · have hle : width * k ≤ width * (n - 1) := Nat.mul_le_mul_left _ (by omega)
      omega

theorem fits_of_le {offset width n len : Nat} (hwidth : 0 < width)
    (h : offset + width * n ≤ 8 * len) : Fits offset width n len := by
  refine forall_lt_fits_iff.mp fun k hk => ?_
  have hle : width * (k + 1) ≤ width * n := Nat.mul_le_mul_left _ (by omega)
  have hsucc : width * (k + 1) = width * k + width := Nat.mul_succ _ _
  omega

/-- Fields of a positive width fit when the bits they take up do. -/
theorem fits_iff {offset width n len : Nat} (hwidth : 0 < width) :
    Fits offset width n len ↔ n = 0 ∨ offset + width * n ≤ 8 * len := by
  constructor
  · rintro (hzero | hlast)
    · exact Or.inl hzero
    · rcases Nat.eq_zero_or_pos n with hzero | hpos
      · exact Or.inl hzero
      · have hsucc : width * (n - 1 + 1) = width * (n - 1) + width := Nat.mul_succ _ _
        have hback : n - 1 + 1 = n := by omega
        rw [hback] at hsucc
        exact Or.inr (by omega)
  · rintro (hzero | hlast)
    · exact Or.inl hzero
    · exact fits_of_le hwidth hlast

/-- All turns of a loop over a run of fields find their field in the buffer. -/
theorem forall_zipIdx_fits_iff {l : List α} {offset width len : Nat} :
    (∀ p ∈ l.zipIdx, offset + width * p.2 + max width 1 ≤ 8 * len) ↔
      Fits offset width l.length len := by
  rw [← forall_lt_fits_iff]
  constructor
  · intro h k hk
    exact h (l[k], k) (List.mk_mem_zipIdx_iff_getElem?.mpr (by simp [hk]))
  · intro h p hp
    exact h p.2 (List.snd_lt_of_mem_zipIdx hp)

/-! ## Writing -/

/-- The pattern of a run of fields. -/
def fieldsBits (offset width : Nat) (vals : List (BitVec 16)) (j : Nat) : Bool :=
  vals.zipIdx.any fun p => fieldBits (offset + width * p.2) p.1 width j

/-- The loop that packs the values `v a` of the items of a list, one field each. -/
theorem writeFields_eq (l : List α) {get : α → Option (BitVec 16)} {v : α → BitVec 16}
    (hget : ∀ a ∈ l, get a = some (v a)) (buf : Buffer) {offset width : Nat}
    (hoff : offset + width * l.length < 2 ^ 16) (hwidth : width ≤ 16) :
    l.zipIdx.foldlM
        (fun buf p => (get p.1).bind fun x => writeBitValue buf (offset + width * p.2) x width)
        buf =
      if Fits offset width l.length buf.length then
        some (orBits buf (fieldsBits offset width (l.map v)))
      else none := by
  have hbody : ∀ p ∈ l.zipIdx, ∀ buf,
      ((get p.1).bind fun x => writeBitValue buf (offset + width * p.2) x width) =
        if offset + width * p.2 + max width 1 ≤ 8 * buf.length then
          some (orBits buf (fieldBits (offset + width * p.2) (v p.1) width))
        else none := by
    intro p hp buf
    have hidx : p.2 < l.length := List.snd_lt_of_mem_zipIdx hp
    have hle : width * p.2 ≤ width * l.length := Nat.mul_le_mul_left _ (by omega)
    rw [hget p.1 (List.fst_mem_of_mem_zipIdx hp)]
    exact writeBitValue_eq buf (v p.1) (by omega) hwidth
  have hpat : (fun j => l.zipIdx.any fun p => fieldBits (offset + width * p.2) (v p.1) width j) =
      fieldsBits offset width (l.map v) := by
    funext j
    simp [fieldsBits, List.zipIdx_map, List.any_map, Function.comp_def]
  rw [foldlM_orBits (P := fun n p => offset + width * p.2 + max width 1 ≤ 8 * n) _ hbody, hpat]
  simp only [forall_zipIdx_fits_iff]

theorem writeValueList_eq (p : Buffer) {offset : Nat} {values : List (BitVec 16)} {nbValues : Nat}
    {valueSize : Nat} (hvalues : nbValues ≤ values.length)
    (hoff : offset + valueSize * nbValues < 2 ^ 16) (hsize : valueSize ≤ 16) :
    writeValueList p offset values nbValues valueSize =
      if Fits offset valueSize nbValues p.length then
        some (orBits p (fieldsBits offset valueSize (values.take nbValues)))
      else none := by
  have hrun := foldlM_running
    (fun off buf i => values[i]?.bind fun v => writeBitValue buf off v valueSize)
    valueSize offset (List.range nbValues) 0 p
  have hget : ∀ i ∈ List.range nbValues, values[i]? = some (values.getD i 0#16) := by
    intro i hi
    have hlt : i < values.length := Nat.lt_of_lt_of_le (List.mem_range.mp hi) hvalues
    simp [hlt]
  have htake : (List.range nbValues).map (fun i => values.getD i 0#16) = values.take nbValues := by
    refine List.ext_getElem (by simpa using hvalues) fun i hi hi' => ?_
    have hlt : i < values.length := by simp at hi'; omega
    simp [hlt]
  have hfields := writeFields_eq (List.range nbValues) hget p (by simpa using hoff) hsize
  rw [htake, List.length_range] at hfields
  rw [Nat.mul_zero, Nat.add_zero, hfields] at hrun
  rw [writeValueList, hrun]
  split <;> rfl

/-- The loop of a handler that packs one value per pin used. -/
theorem writePinFields_eq {m : Mask} {maskLength : Nat} (hlen : maskLength ≤ m.length)
    (get : Nat → Option (BitVec 16)) (v : Nat → BitVec 16)
    (hget : ∀ pin < maskLength, get pin = some (v pin)) (buf : Buffer) {offset width : Nat}
    (hoff : offset + width * maskLength < 2 ^ 16) (hwidth : width ≤ 16) :
    forEachPinUsed m maskLength
        (fun (st : Buffer × Nat) pin =>
          ((get pin).bind fun x => writeBitValue st.1 st.2 x width).map
            fun buf => (buf, st.2 + width))
        (buf, offset) =
      if Fits offset width (usedPins m maskLength).length buf.length then
        some (orBits buf (fieldsBits offset width ((usedPins m maskLength).map v)),
          offset + width * (usedPins m maskLength).length)
      else none := by
  have hle : width * (usedPins m maskLength).length ≤ width * maskLength :=
    Nat.mul_le_mul_left _ (length_usedPins_le m maskLength)
  have hfields := writeFields_eq (usedPins m maskLength)
    (fun pin hpin => hget pin (usedPins_lt hpin)) buf
    (show offset + width * (usedPins m maskLength).length < 2 ^ 16 by omega) hwidth
  rw [forEachPinUsed_running hlen
    (fun off buf pin => (get pin).bind fun x => writeBitValue buf off x width), hfields]
  split <;> rfl

/-! ## Reading -/

/-- Field `i` of a run, as `read_bit_value` returns it. -/
def fieldAt (f : Nat → Bool) (offset width i : Nat) : BitVec 16 :=
  BitVec.ofNat 16 (fieldRead f (offset + width * i) width)

theorem readField_eq (src : Buffer) {offset width i n : Nat} (hi : i < n)
    (hoff : offset + width * n < 2 ^ 16) (hwidth : width ≤ 16) :
    readBitValue src (offset + width * i) width =
      if offset + width * i + max width 1 ≤ 8 * src.length then
        some (fieldAt (bitAt src) offset width i)
      else none := by
  have hle : width * i ≤ width * n := Nat.mul_le_mul_left _ (by omega)
  exact readBitValue_eq (by omega) hwidth

theorem readValueList_eq (p : Buffer) {offset nbValues valueSize : Nat}
    (hoff : offset + valueSize * nbValues < 2 ^ 16) (hsize : valueSize ≤ 16) :
    readValueList p offset nbValues valueSize =
      if Fits offset valueSize nbValues p.length then
        some ((List.range nbValues).map (fieldAt (bitAt p) offset valueSize))
      else none := by
  -- the offset of the loop is that of the field, counted from the first one
  have hrun := foldlM_running
    (fun off vals (_ : Nat) => (readBitValue p off valueSize).map fun v => vals ++ [v])
    valueSize offset (List.range nbValues) 0 []
  have hbody : ∀ q ∈ (List.range nbValues).zipIdx, ∀ vals : List (BitVec 16),
      ((readBitValue p (offset + valueSize * q.2) valueSize).map fun v => vals ++ [v]) =
        if offset + valueSize * q.2 + max valueSize 1 ≤ 8 * p.length then
          some (vals ++ [fieldAt (bitAt p) offset valueSize q.2])
        else none := by
    intro q hq vals
    have hidx : q.2 < nbValues := by simpa using List.snd_lt_of_mem_zipIdx hq
    rw [readField_eq _ hidx hoff hsize]
    split <;> rfl
  -- a turn only fails for want of room, so the loop fails if one of the fields does not fit
  have hloop := foldlM_guarded
    (fun vals (q : Nat × Nat) => vals ++ [fieldAt (bitAt p) offset valueSize q.2])
    (μ := fun _ => ())
    (P := fun _ (q : Nat × Nat) => offset + valueSize * q.2 + max valueSize 1 ≤ 8 * p.length)
    _ hbody (fun _ _ => rfl) []
  simp only [forall_zipIdx_fits_iff, foldl_zipIdx_append, List.length_range,
    List.nil_append] at hloop
  rw [Nat.mul_zero, Nat.add_zero, hloop] at hrun
  simp only [Option.map_map, Function.comp_def] at hrun
  rw [readValueList, hrun]
  split <;> rfl

section PinLoops

variable {m : Mask} {maskLength : Nat}

theorem width_mul_usedPins_le (m : Mask) (maskLength width : Nat) :
    width * (usedPins m maskLength).length ≤ width * maskLength :=
  Nat.mul_le_mul_left _ (length_usedPins_le m maskLength)

theorem usedPins_guard_iff {offset width len n : Nat} (hn : maskLength ≤ n) :
    (∀ p ∈ (usedPins m maskLength).zipIdx,
        offset + width * p.2 + max width 1 ≤ 8 * len ∧ p.1 < n) ↔
      Fits offset width (usedPins m maskLength).length len := by
  rw [← forall_zipIdx_fits_iff]
  constructor
  · intro h p hp
    exact (h p hp).1
  · intro h p hp
    exact ⟨h p hp, Nat.lt_of_lt_of_le (usedPins_lt (List.fst_mem_of_mem_zipIdx hp)) hn⟩

/-- The loop of a handler that takes one value per pin used from a stream. -/
theorem readPinFields_eq (hlen : maskLength ≤ m.length) (f : BitVec 16 → α → α) {xs : List α}
    (hxs : maskLength ≤ xs.length) (src : Buffer) {offset width : Nat}
    (hoff : offset + width * maskLength < 2 ^ 16) (hwidth : width ≤ 16) :
    forEachPinUsed m maskLength
        (fun (st : List α × Nat) pin =>
          ((readBitValue src st.2 width).bind fun v => update st.1 pin (f v)).map
            fun xs => (xs, st.2 + width))
        (xs, offset) =
      if Fits offset width (usedPins m maskLength).length src.length then
        some (scatter (fun i => f (fieldAt (bitAt src) offset width i)) (usedPins m maskLength) xs,
          offset + width * (usedPins m maskLength).length)
      else none := by
  have hle := width_mul_usedPins_le m maskLength width
  have hbody : ∀ p ∈ (usedPins m maskLength).zipIdx, ∀ xs : List α,
      ((readBitValue src (offset + width * p.2) width).bind fun v => update xs p.1 (f v)) =
        if offset + width * p.2 + max width 1 ≤ 8 * src.length ∧ p.1 < xs.length then
          some (xs.modify p.1 (f (fieldAt (bitAt src) offset width p.2)))
        else none := by
    intro p hp xs
    have hidx : p.2 < (usedPins m maskLength).length := List.snd_lt_of_mem_zipIdx hp
    rw [readField_eq _ hidx (by omega) hwidth]
    simp only [update]
    by_cases hfit : offset + width * p.2 + max width 1 ≤ 8 * src.length <;> simp [hfit]
  have hloop := foldlM_scatter (P := fun k => offset + width * k + max width 1 ≤ 8 * src.length)
    (fun i => f (fieldAt (bitAt src) offset width i)) _ hbody xs
  simp only [usedPins_guard_iff hxs] at hloop
  rw [forEachPinUsed_running hlen
    (fun off xs pin => (readBitValue src off width).bind fun v => update xs pin (f v)), hloop]
  split <;> rfl

/-- The same loop when the values are handed to the caller as well. -/
theorem readPinFields_collect_eq (hlen : maskLength ≤ m.length) (f : BitVec 16 → α → α)
    {xs : List α} (hxs : maskLength ≤ xs.length) (src : Buffer) {offset width : Nat}
    (hoff : offset + width * maskLength < 2 ^ 16) (hwidth : width ≤ 16) :
    forEachPinUsed m maskLength
        (fun (st : (List (BitVec 16) × List α) × Nat) pin =>
          ((readBitValue src st.2 width).bind fun v =>
            (update st.1.2 pin (f v)).map fun xs => (st.1.1 ++ [v], xs)).map
            fun r => (r, st.2 + width))
        (([], xs), offset) =
      if Fits offset width (usedPins m maskLength).length src.length then
        some (((List.range (usedPins m maskLength).length).map
            (fieldAt (bitAt src) offset width),
          scatter (fun i => f (fieldAt (bitAt src) offset width i)) (usedPins m maskLength) xs),
          offset + width * (usedPins m maskLength).length)
      else none := by
  have hle := width_mul_usedPins_le m maskLength width
  -- one pin reads its field and updates its own element, if both are there
  have hbody : ∀ p ∈ (usedPins m maskLength).zipIdx, ∀ st : List (BitVec 16) × List α,
      ((readBitValue src (offset + width * p.2) width).bind fun v =>
        (update st.2 p.1 (f v)).map fun xs => (st.1 ++ [v], xs)) =
        if offset + width * p.2 + max width 1 ≤ 8 * src.length ∧ p.1 < st.2.length then
          some (st.1 ++ [fieldAt (bitAt src) offset width p.2],
            st.2.modify p.1 (f (fieldAt (bitAt src) offset width p.2)))
        else none := by
    intro p hp st
    have hidx : p.2 < (usedPins m maskLength).length := List.snd_lt_of_mem_zipIdx hp
    rw [readField_eq _ hidx (by omega) hwidth]
    simp only [update]
    by_cases hfit : offset + width * p.2 + max width 1 ≤ 8 * src.length
    · by_cases hpin : p.1 < st.2.length <;> simp [hfit, hpin]
    · simp [hfit]
  -- updates keep the length, so the guard of each pin can be decided beforehand
  have hloop := foldlM_guarded
    (fun (st : List (BitVec 16) × List α) (p : Nat × Nat) =>
      (st.1 ++ [fieldAt (bitAt src) offset width p.2],
        st.2.modify p.1 (f (fieldAt (bitAt src) offset width p.2))))
    (μ := fun st => st.2.length)
    (P := fun n (p : Nat × Nat) => offset + width * p.2 + max width 1 ≤ 8 * src.length ∧ p.1 < n)
    _ hbody (fun _ _ => List.length_modify ..) ([], xs)
  simp only [usedPins_guard_iff hxs] at hloop
  rw [forEachPinUsed_running hlen
    (fun off (st : List (BitVec 16) × List α) pin => (readBitValue src off width).bind fun v =>
      (update st.2 pin (f v)).map fun xs => (st.1 ++ [v], xs)), hloop]
  rw [foldl_prod (fun vals (p : Nat × Nat) => vals ++ [fieldAt (bitAt src) offset width p.2])
    (fun (xs : List α) (p : Nat × Nat) => xs.modify p.1 (f (fieldAt (bitAt src) offset width p.2)))]
  rw [foldl_zipIdx_append]
  split <;> rfl

end PinLoops

/-! ## Reading back what has been written

As long as no field of the run spills over its left end, the pattern holds every value in its
place and nothing else.
-/

/-- Every field of the run is tight. -/
def AllTight (offset width : Nat) (vals : List (BitVec 16)) : Prop :=
  ∀ i (h : i < vals.length), Tight (offset + width * i) vals[i] width

theorem fieldsBits_eq_true_iff {offset width : Nat} {vals : List (BitVec 16)} {j : Nat} :
    fieldsBits offset width vals j = true ↔
      ∃ i, ∃ h : i < vals.length, fieldBits (offset + width * i) vals[i] width j = true := by
  simp only [fieldsBits, List.any_eq_true]
  constructor
  · rintro ⟨⟨v, i⟩, hmem, hbit⟩
    rcases List.getElem?_eq_some_iff.mp (List.mk_mem_zipIdx_iff_getElem?.mp hmem) with ⟨hi, hv⟩
    exact ⟨i, hi, by rw [hv]; exact hbit⟩
  · rintro ⟨i, hi, hbit⟩
    exact ⟨(vals[i], i), List.mk_mem_zipIdx_iff_getElem?.mpr (by simp [hi]), hbit⟩

theorem fieldsBits_eq_false_iff {offset width : Nat} {vals : List (BitVec 16)} {j : Nat} :
    fieldsBits offset width vals j = false ↔
      ∀ i (h : i < vals.length), fieldBits (offset + width * i) vals[i] width j = false := by
  rw [← Bool.not_eq_true, fieldsBits_eq_true_iff]
  simp

theorem fieldsBits_after {offset width : Nat} {vals : List (BitVec 16)} {j : Nat}
    (hj : offset + width * vals.length ≤ j) : fieldsBits offset width vals j = false := by
  refine fieldsBits_eq_false_iff.mpr fun i hi => fieldBits_after _ ?_
  have hle : width * (i + 1) ≤ width * vals.length := Nat.mul_le_mul_left _ hi
  have hsucc : width * (i + 1) = width * i + width := Nat.mul_succ _ _
  omega

/-- Behind the last field of a run there is nothing to read. -/
theorem fieldAt_fieldsBits_past {offset width : Nat} {vals : List (BitVec 16)} {i : Nat}
    (hi : vals.length ≤ i) : fieldAt (fieldsBits offset width vals) offset width i = 0#16 := by
  have hle : width * vals.length ≤ width * i := Nat.mul_le_mul_left _ hi
  rw [fieldAt, fieldRead_eq_zero fun r _ => fieldsBits_after (by omega)]

theorem AllTight.fieldsBits_before {offset width : Nat} {vals : List (BitVec 16)} {j : Nat}
    (h : AllTight offset width vals) (hj : j < offset) :
    fieldsBits offset width vals j = false :=
  fieldsBits_eq_false_iff.mpr fun i hi => (h i hi).fieldBits_left (by omega)

/-- Field `i` holds value `i`. -/
theorem AllTight.fieldsBits_inside {offset width : Nat} {vals : List (BitVec 16)}
    (h : AllTight offset width vals) (hwidth : width ≤ 16) {i r : Nat} (hi : i < vals.length)
    (hr : r < width) :
    fieldsBits offset width vals (offset + width * i + r) =
      vals[i].toNat.testBit (width - 1 - r) := by
  have hown : fieldBits (offset + width * i) vals[i] width (offset + width * i + r) = _ :=
    fieldBits_inside vals[i] hr hwidth
  cases hbit : fieldsBits offset width vals (offset + width * i + r) with
  | false => rw [← hown, fieldsBits_eq_false_iff.mp hbit i hi]
  | true =>
      rcases fieldsBits_eq_true_iff.mp hbit with ⟨k, hk, hset⟩
      rcases Nat.lt_trichotomy k i with hlt | heq | hgt
      · -- an earlier field has ended before this bit
        have hle : width * (k + 1) ≤ width * i := Nat.mul_le_mul_left _ hlt
        have hsucc : width * (k + 1) = width * k + width := Nat.mul_succ _ _
        rw [fieldBits_after _ (by omega)] at hset
        cases hset
      · subst heq
        rw [← hown, hset]
      · -- a later field is tight
        have hle : width * (i + 1) ≤ width * k := Nat.mul_le_mul_left _ hgt
        have hsucc : width * (i + 1) = width * i + width := Nat.mul_succ _ _
        rw [(h k hk).fieldBits_left (by omega)] at hset
        cases hset

/-- A tight run is read back, as far as no field spans three bytes. -/
theorem AllTight.fieldAt_eq {offset width : Nat} {vals : List (BitVec 16)}
    (h : AllTight offset width vals) (hwidth : width ≤ 16) {f : Nat → Bool}
    (hf : ∀ j, offset ≤ j → j < offset + width * vals.length → f j = fieldsBits offset width vals j)
    {i : Nat} (hi : i < vals.length) (hspan : (offset + width * i) % 8 + width ≤ 16) :
    fieldAt f offset width i = BitVec.ofNat 16 (vals[i].toNat % 2 ^ width) := by
  have hle : width * (i + 1) ≤ width * vals.length := Nat.mul_le_mul_left _ hi
  have hsucc : width * (i + 1) = width * i + width := Nat.mul_succ _ _
  rw [fieldAt, fieldRead_eq_mod hspan fun r hr => ?_]
  rw [hf _ (by omega) (by omega), h.fieldsBits_inside hwidth hi hr]

/-- The low byte of a tight run is read back in any case. -/
theorem AllTight.fieldAt_low {offset width : Nat} {vals : List (BitVec 16)}
    (h : AllTight offset width vals) (hwidth : width ≤ 16) {i : Nat} (hi : i < vals.length)
    (hfits : vals[i].toNat < 2 ^ width) :
    (fieldAt (fieldsBits offset width vals) offset width i).setWidth 8 = vals[i].setWidth 8 := by
  have hread := fieldRead_mod (f := fieldsBits offset width vals) hwidth
    fun r hr => h.fieldsBits_inside hwidth hi hr
  rw [Nat.mod_eq_of_lt hfits] at hread
  refine BitVec.eq_of_toNat_eq ?_
  have hdvd : 2 ^ 8 ∣ 2 ^ 16 := pow_dvd_pow 2 (by decide)
  rw [BitVec.toNat_setWidth, BitVec.toNat_setWidth, fieldAt, BitVec.toNat_ofNat,
    Nat.mod_mod_of_dvd _ hdvd, hread]

/-- Values that fit their fields, and are not negative as an `int16_t`, are tight wherever the
fields lie. -/
theorem allTight_of_lt (offset : Nat) {width : Nat} (hwidth : width ≤ 15)
    {vals : List (BitVec 16)} (hvals : ∀ v ∈ vals, v.toNat < 2 ^ width) :
    AllTight offset width vals := by
  intro i hi
  have hfits := hvals vals[i] (List.getElem_mem hi)
  have hsign : 2 ^ width ≤ 2 ^ 15 := Nat.pow_le_pow_right (by decide) hwidth
  exact Or.inr ⟨hfits, Nat.lt_of_lt_of_le hfits hsign⟩

/-- Fields of whole bytes are tight when they start a byte. -/
theorem allTight_aligned {offset width : Nat} (hoff : offset % 8 = 0) (hwidth : width % 8 = 0)
    (vals : List (BitVec 16)) : AllTight offset width vals := by
  intro i _
  have hmul : width * i % 8 = 0 := by rw [Nat.mul_mod, hwidth, Nat.zero_mul, Nat.zero_mod]
  exact Or.inl (by omega)

end PinProtocol
