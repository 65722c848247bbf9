import PinProtocol.Common.Arrays
import PinProtocol.Common.Mask

/-!
# MaskWalk — the pins of a mask, in order

`mask_next_pin_used` and the loops around it visit the pins of a mask in ascending order
(`forEachPinUsed_eq`), and `mask_nb_pins_used` counts them.  On the wire a mask is one bit per pin.
-/

namespace PinProtocol

open Bits Control

variable {σ α : Type}

/-! ## The pins used -/

/-- Does the mask use this pin? -/
def pinUsed (m : Mask) (pin : Nat) : Bool :=
  m.getD pin false

theorem getElem?_mask {m : Mask} {pin : Nat} (h : pin < m.length) :
    m[pin]? = some (pinUsed m pin) := by
  simp [pinUsed, h]

/-- The pins used among `i, …, i + n - 1`. -/
def usedFrom (m : Mask) (i n : Nat) : List Nat :=
  (List.range' i n).filter fun pin => pinUsed m pin

/-- The pins used by a mask of which the first `maskLength` entries count. -/
def usedPins (m : Mask) (maskLength : Nat) : List Nat :=
  usedFrom m 0 maskLength

theorem usedFrom_step (m : Mask) {i len : Nat} (hi : i < len) :
    usedFrom m i (len - i) =
      if pinUsed m i then i :: usedFrom m (i + 1) (len - (i + 1))
      else usedFrom m (i + 1) (len - (i + 1)) := by
  have hlen : len - i = len - (i + 1) + 1 := by omega
  rw [usedFrom, hlen, List.range'_succ, List.filter_cons]
  rfl

theorem usedFrom_end (m : Mask) {i len : Nat} (hi : len ≤ i) : usedFrom m i (len - i) = [] := by
  have hzero : len - i = 0 := by omega
  simp [usedFrom, hzero]

theorem mem_usedPins {m : Mask} {maskLength pin : Nat} :
    pin ∈ usedPins m maskLength ↔ pin < maskLength ∧ pinUsed m pin = true := by
  simp [usedPins, usedFrom, List.mem_range']

theorem nodup_usedPins (m : Mask) (maskLength : Nat) : (usedPins m maskLength).Nodup :=
  List.Nodup.filter _ List.nodup_range'

theorem length_usedPins_le (m : Mask) (maskLength : Nat) :
    (usedPins m maskLength).length ≤ maskLength := by
  have h := List.length_filter_le (fun pin => pinUsed m pin) (List.range' 0 maskLength)
  simpa [usedPins, usedFrom] using h

theorem usedPins_lt {m : Mask} {maskLength : Nat} {pin : Nat} (h : pin ∈ usedPins m maskLength) :
    pin < maskLength :=
  (mem_usedPins.mp h).1

/-- Masks that agree on the pins that count use the same pins. -/
theorem usedPins_congr {m m' : Mask} {maskLength : Nat}
    (h : ∀ pin < maskLength, pinUsed m pin = pinUsed m' pin) :
    usedPins m maskLength = usedPins m' maskLength := by
  refine List.filter_congr fun pin hpin => ?_
  exact h pin (by simpa [List.mem_range'] using hpin)

/-- The pins used, split at the last one that counts. -/
theorem usedPins_succ (m : Mask) (n : Nat) :
    usedPins m (n + 1) = usedPins m n ++ if pinUsed m n then [n] else [] := by
  cases hn : pinUsed m n <;>
    simp [usedPins, usedFrom, List.range'_concat, List.filter_append, hn]

/-! ## The walk -/

theorem maskNextPinUsedLoop_eq (m : Mask) {len : Nat} (hlen : len ≤ m.length) (fuel start : Nat)
    (hfuel : len - start < fuel) :
    maskNextPinUsedLoop m len fuel start =
      some (match usedFrom m start (len - start) with
        | [] => -1
        | pin :: _ => (pin : Int)) := by
  induction fuel generalizing start with
  | zero => omega
  | succ fuel ih =>
      by_cases hstart : start < len
      · have hget := getElem?_mask (show start < m.length by omega)
        cases hused : pinUsed m start with
        | false =>
            simp only [maskNextPinUsedLoop, hstart, if_true, hget, hused, Option.bind_some]
            simpa [usedFrom_step m hstart, hused] using ih (start + 1) (by omega)
        | true =>
            simp [maskNextPinUsedLoop, hstart, hget, hused, usedFrom_step m hstart]
      · simp [maskNextPinUsedLoop, hstart, usedFrom_end m (Nat.not_lt.mp hstart)]

/-- Behind the first pin used come the pins used behind it. -/
theorem usedFrom_eq_cons {m : Mask} {i len pin : Nat} {rest : List Nat}
    (h : usedFrom m i (len - i) = pin :: rest) :
    i ≤ pin ∧ pin < len ∧ rest = usedFrom m (pin + 1) (len - (pin + 1)) := by
  by_cases hi : i < len
  · rw [usedFrom_step m hi] at h
    cases hused : pinUsed m i with
    | true =>
        simp only [hused, if_true, List.cons.injEq] at h
        exact ⟨by omega, by omega, by rw [← h.1, h.2]⟩
    | false =>
        simp only [hused, Bool.false_eq_true, if_false] at h
        rcases usedFrom_eq_cons h with ⟨hlo, hhi, hrest⟩
        exact ⟨by omega, hhi, hrest⟩
  · rw [usedFrom_end m (Nat.not_lt.mp hi)] at h
    cases h
termination_by len - i

theorem maskNextPinUsedLoop_end {m : Mask} {len : Nat} (fuel start : Nat)
    (h : maskNextPinUsedLoop m len fuel start = some (-1)) :
    usedFrom m start (len - start) = [] := by
  induction fuel generalizing start with
  | zero => cases h
  | succ fuel ih =>
      rw [maskNextPinUsedLoop] at h
      split at h
      · rename_i hstart
        obtain ⟨used, hget, h⟩ := Option.bind_eq_some_iff.mp h
        have hused : pinUsed m start = used := by
          rw [pinUsed, List.getD_eq_getElem?_getD, hget]
          rfl
        cases used with
        | true => simp at h
        | false =>
            rw [usedFrom_step m hstart, hused, if_neg Bool.false_ne_true]
            exact ih (start + 1) h
      · rename_i hstart
        exact usedFrom_end m (Nat.not_lt.mp hstart)

theorem maskWalk_eq (m : Mask) {len : Nat} (hlen : len ≤ m.length) (body : σ → Nat → Option σ)
    (fuel i : Nat) (hfuel : len - i < fuel) (s : σ) :
    maskWalk m len body fuel i s = (usedFrom m i (len - i)).foldlM body s := by
  induction fuel generalizing i s with
  | zero => omega
  | succ fuel ih =>
      have hnext := maskNextPinUsedLoop_eq m hlen (len + 1) i (by omega)
      cases hused : usedFrom m i (len - i) with
      | nil => simp [maskWalk, maskNextPinUsed, hnext, hused]
      | cons pin rest =>
          -- the walk goes on behind the pin that it found
          rcases usedFrom_eq_cons hused with ⟨hlo, hhi, hrest⟩
          have hturn : maskWalk m len body fuel (pin + 1) = fun s => rest.foldlM body s :=
            funext fun s => by rw [hrest]; exact ih (pin + 1) (by omega) s
          have hpin : ((pin : Int) = -1) = False := by simp
          simp only [maskWalk, maskNextPinUsed, hnext, hused, Option.bind_some, hpin, if_false,
            Int.toNat_natCast, hturn, List.foldlM_cons]
          rfl

/-- The walk treats the pins used, in ascending order. -/
theorem forEachPinUsed_eq {m : Mask} {maskLength : Nat} (hlen : maskLength ≤ m.length)
    (body : σ → Nat → Option σ) (s : σ) :
    forEachPinUsed m maskLength body s = (usedPins m maskLength).foldlM body s := by
  simpa [forEachPinUsed, usedPins] using
    maskWalk_eq m hlen body (maskLength + 1) 0 (by omega) s

/-- A walk that can treat no pin, and gets through all the same, has found none. -/
theorem forEachPinUsed_refused {m : Mask} {maskLength : Nat} {body : σ → Nat → Option σ} {s s' : σ}
    (hbody : ∀ pin, body s pin = none) (h : forEachPinUsed m maskLength body s = some s') :
    usedPins m maskLength = [] ∧ s' = s := by
  obtain ⟨next, hnext, h⟩ := Option.bind_eq_some_iff.mp h
  split at h
  · rename_i hend
    rw [hend] at hnext
    exact ⟨maskNextPinUsedLoop_end _ 0 hnext, (Option.some.inj h).symm⟩
  · rw [hbody] at h
    cases h

/-- What no turn of the walk changes, the walk does not change. -/
theorem forEachPinUsed_keeps {m : Mask} {maskLength : Nat} (hlen : maskLength ≤ m.length)
    {τ : Type} {body : σ → Nat → Option σ} {μ : σ → τ}
    (hbody : ∀ s pin s', body s pin = some s' → μ s' = μ s) {s s' : σ}
    (h : forEachPinUsed m maskLength body s = some s') : μ s' = μ s := by
  rw [forEachPinUsed_eq hlen] at h
  exact foldlM_keeps hbody _ s s' h

/-- The walk with a bit offset (or an index) that advances by `w` from pin to pin. -/
theorem forEachPinUsed_running {m : Mask} {maskLength : Nat} (hlen : maskLength ≤ m.length)
    (g : Nat → σ → Nat → Option σ) (w base : Nat) (s : σ) :
    forEachPinUsed m maskLength
        (fun (st : σ × Nat) pin => (g st.2 st.1 pin).map fun s' => (s', st.2 + w)) (s, base) =
      ((usedPins m maskLength).zipIdx.foldlM (fun s p => g (base + w * p.2) s p.1) s).map
        fun s' => (s', base + w * (usedPins m maskLength).length) := by
  have h := foldlM_running g w base (usedPins m maskLength) 0 s
  rw [forEachPinUsed_eq hlen]
  simpa using h

/-! ## Counting -/

theorem maskNbPinsUsed_eq {m : Mask} {maskLength : Nat} (hlen : maskLength ≤ m.length)
    (hbyte : maskLength < 2 ^ 8) :
    maskNbPinsUsed m maskLength = some (usedPins m maskLength).length := by
  induction maskLength with
  | zero => rfl
  | succ n ih =>
      have hn := ih (by omega) (by omega)
      have hle := length_usedPins_le m n
      have hget := getElem?_mask (show n < m.length by omega)
      have hmod : ((usedPins m n).length + 1) % 256 = (usedPins m n).length + 1 :=
        Nat.mod_eq_of_lt (by omega)
      rw [maskNbPinsUsed] at hn ⊢
      rw [List.range_succ, List.foldlM_append, hn, usedPins_succ]
      cases hused : pinUsed m n <;> simp [hget, hused, hmod]

/-! ## Masks on the wire -/

theorem newMask_eq {nbPins : Nat} (hbyte : nbPins < 2 ^ 8) :
    newMask nbPins = some (List.replicate nbPins false) := by
  rw [newMask, byteLoop_eq nbPins _ hbyte (by omega), storeFresh_eq]

/-- The bits of a mask of which the first `maskLength` entries count. -/
def maskBits (m : Mask) (maskLength j : Nat) : Bool :=
  decide (j < maskLength) && pinUsed m j

theorem fieldBits_bool (offset : Nat) (b : Bool) (j : Nat) :
    fieldBits offset ((BitVec.ofBool b).setWidth 16) 1 j = (decide (j = offset) && b) := by
  have htight : Tight offset ((BitVec.ofBool b).setWidth 16) 1 := by
    cases b <;> exact Or.inr ⟨by decide, by decide⟩
  rw [htight.fieldBits_eq (by decide)]
  by_cases hj : j = offset
  · subst hj
    cases b <;> simp
  · have hout : ¬ (offset ≤ j ∧ j < offset + 1) := by omega
    rw [decide_eq_false hout, decide_eq_false hj, Bool.false_and, Bool.false_and]

theorem writeMask_eq (buffer : Buffer) {m : Mask} {maskLength : Nat}
    (hlen : maskLength ≤ m.length) (hoff : maskLength ≤ 2 ^ 16) :
    writeMask buffer m maskLength =
      if maskLength ≤ 8 * buffer.length then some (orBits buffer (maskBits m maskLength))
      else none := by
  induction maskLength with
  | zero =>
      have hbits : maskBits m 0 = fun _ => false := funext fun j => by simp [maskBits]
      simp [writeMask, hbits]
  | succ n ih =>
      have hn := ih (by omega) (by omega)
      have hget := getElem?_mask (show n < m.length by omega)
      have hwrite := fun dst : Buffer =>
        writeBitValue_eq dst ((BitVec.ofBool (pinUsed m n)).setWidth 16)
          (show n < 2 ^ 16 by omega) (show 1 ≤ 16 by decide)
      rw [writeMask] at hn ⊢
      rw [List.range_succ, List.foldlM_append, hn]
      by_cases hfit : n + 1 ≤ 8 * buffer.length
      · -- one more bit, at position n
        have hbits : ∀ j, (maskBits m n j || (decide (j = n) && pinUsed m n)) =
            maskBits m (n + 1) j := by
          intro j
          by_cases hj : j = n
          · subst hj
            simp [maskBits]
          · have hlt : (j < n + 1) = (j < n) := by
              rw [eq_iff_iff]
              omega
            simp [maskBits, hj, hlt]
        have hfit' : n ≤ 8 * buffer.length := by omega
        simp only [hfit', if_true, List.foldlM_cons, List.foldlM_nil, hget, Option.bind_some,
          Option.bind_eq_bind, hwrite]
        simp [hfit, fieldBits_bool, hbits]
      · by_cases hfit' : n ≤ 8 * buffer.length
        · -- the bits before position n fit, this one does not
          have hfull : ¬ n + max 1 1 ≤ 8 * buffer.length := hfit
          simp only [if_pos hfit', if_neg hfit, List.foldlM_cons, hget, hwrite, length_orBits,
            if_neg hfull, Option.bind_eq_bind, Option.bind_some, Option.bind_none]
        · simp [hfit', hfit]

theorem readBit_eq (buffer : Buffer) {offset : Nat} (hoff : offset < 2 ^ 16) :
    readBitValue buffer offset 1 =
      if offset < 8 * buffer.length then
        some ((BitVec.ofBool (bitAt buffer offset)).setWidth 16)
      else none := by
  have hspan : offset % 8 + 1 ≤ 16 := by omega
  have hfit : (offset + max 1 1 ≤ 8 * buffer.length) = (offset < 8 * buffer.length) := by
    rw [eq_iff_iff]
    omega
  rw [readBitValue_eq hoff (by decide)]
  simp only [hfit, fieldRead, hspan, if_true, window_succ, window_zero, Nat.add_zero]
  cases bitAt buffer offset <;> rfl

/-- What a mask read from bit `offset` on looks like. -/
def maskOf (f : Nat → Bool) (offset maskLength : Nat) : Mask :=
  (List.range maskLength).map fun i => f (offset + i)

@[simp] theorem length_maskOf (f : Nat → Bool) (offset maskLength : Nat) :
    (maskOf f offset maskLength).length = maskLength := by
  simp [maskOf]

theorem pinUsed_maskOf {f : Nat → Bool} {offset maskLength i : Nat} (hi : i < maskLength) :
    pinUsed (maskOf f offset maskLength) i = f (offset + i) := by
  simp [pinUsed, maskOf, hi]

theorem readMask_eq (buffer : Buffer) {offset : Nat} {m : Mask} {maskLength : Nat}
    (hlen : m.length = maskLength) (hoff : offset + maskLength ≤ 2 ^ 16) :
    readMask buffer offset m maskLength =
      if maskLength = 0 ∨ offset + maskLength ≤ 8 * buffer.length then
        some (maskOf (bitAt buffer) offset maskLength)
      else none := by
  -- after n bits the first n entries are read and the others are as they were
  have hfill : ∀ n ≤ maskLength, (List.range n).foldlM
      (fun m i => (readBitValue buffer (offset + i) 1).bind fun v => store m i (v != 0)) m =
        if n = 0 ∨ offset + n ≤ 8 * buffer.length then
          some (maskOf (bitAt buffer) offset n ++ m.drop n)
        else none := by
    intro n hn
    induction n with
    | zero => simp [maskOf]
    | succ n ih =>
        rw [List.range_succ, List.foldlM_append, ih (by omega)]
        have hread := readBit_eq buffer (show offset + n < 2 ^ 16 by omega)
        by_cases hfit : offset + n < 8 * buffer.length
        · have hprev : n = 0 ∨ offset + n ≤ 8 * buffer.length := by omega
          have hnext : offset + (n + 1) ≤ 8 * buffer.length := by omega
          have hbit : ((BitVec.ofBool (bitAt buffer (offset + n))).setWidth 16 != 0) =
              bitAt buffer (offset + n) := by
            cases bitAt buffer (offset + n) <;> rfl
          have hstore : store (maskOf (bitAt buffer) offset n ++ m.drop n) n
              (bitAt buffer (offset + n)) =
                some (maskOf (bitAt buffer) offset (n + 1) ++ m.drop (n + 1)) := by
            have hdrop : m.drop n = m[n] :: m.drop (n + 1) :=
              List.drop_eq_getElem_cons (by omega)
            rw [hdrop]
            simp [store, maskOf, List.range_succ, -List.getElem_cons_drop]
          simp only [hprev, if_true, Option.bind_eq_bind, Option.bind_some, List.foldlM_cons,
            List.foldlM_nil, hread, hfit, hbit, hstore, hnext, or_true]
          rfl
        · have hnext : ¬ (n + 1 = 0 ∨ offset + (n + 1) ≤ 8 * buffer.length) := by omega
          by_cases hprev : n = 0 ∨ offset + n ≤ 8 * buffer.length
          · simp only [hprev, if_true, Option.bind_eq_bind, Option.bind_some, List.foldlM_cons,
              hread, hfit, if_false, hnext]
            rfl
          · simp only [hprev, hnext, if_false]
            rfl
  have hdone := hfill maskLength (Nat.le_refl _)
  rw [List.drop_of_length_le (by omega), List.append_nil] at hdone
  exact hdone

/-- A mask that is read where a mask has been written is that mask. -/
theorem maskOf_eq {f : Nat → Bool} {offset : Nat} {m : Mask}
    (h : ∀ i < m.length, f (offset + i) = pinUsed m i) : maskOf f offset m.length = m := by
  refine List.ext_getElem (length_maskOf f offset m.length) fun i hi hi' => ?_
  have hget : m[i] = pinUsed m i := by simp [pinUsed, hi']
  rw [hget, ← h i hi']
  simp [maskOf]

/-- A mask that has been packed at the start of a stream is read back. -/
theorem usedPins_maskOf {f : Nat → Bool} {offset maskLength : Nat} {m : Mask}
    (h : ∀ i < maskLength, f (offset + i) = pinUsed m i) :
    usedPins (maskOf f offset maskLength) maskLength = usedPins m maskLength :=
  usedPins_congr fun i hi => by rw [pinUsed_maskOf hi, h i hi]

end PinProtocol
