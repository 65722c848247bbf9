import PinProtocol.Common.FailsafeCodec
import PinProtocol.Common.MaskWalk

/-!
# FailsafeTables — tables with one entry per pin

`new_failsafe` makes a table, `sub_failsafe` picks the entries of the pins of a mask, and
`failsafe_nb_bits` counts the bits that a table takes in a reply.
-/

namespace PinProtocol

open Bits Control

/-! ## Tables -/

theorem newFailsafe_eq {nbPins : Nat} (hbyte : nbPins < 2 ^ 8) :
    newFailsafe nbPins =
      some
        { timeout := 0
          pinsFailsafe :=
            List.replicate nbPins { pinState := pinTypeDisabled, pinValue := 0 } } := by
  rw [newFailsafe, byteLoop_eq nbPins _ hbyte (by omega), storeFresh_eq]
  rfl

/-- The entry of a pin. -/
def Failsafe.entryAt (f : Failsafe) (pin : Nat) : PinFailsafe :=
  f.pinsFailsafe.getD pin freshEntry

theorem Failsafe.getElem?_pinsFailsafe {f : Failsafe} {pin : Nat}
    (h : pin < f.pinsFailsafe.length) : f.pinsFailsafe[pin]? = some (f.entryAt pin) := by
  simp [Failsafe.entryAt, h]

/-- The entries of a list of pins. -/
def Failsafe.entriesAt (f : Failsafe) (pins : List Nat) : List PinFailsafe :=
  pins.map f.entryAt

/-- A loop that looks up one value for each item of a list and stores it at the next index. -/
theorem collect_eq {α β : Type} (l : List α) {get : α → Option β} {v : α → β}
    (hget : ∀ a ∈ l, get a = some (v a)) (front rest : List β) (hrest : rest.length = l.length) :
    (l.zipIdx front.length).foldlM
        (fun xs p => (get p.1).bind fun x => store xs p.2 x) (front ++ rest) =
      some (front ++ l.map v) := by
  induction l generalizing front rest with
  | nil =>
      have hnil : rest = [] := List.length_eq_zero_iff.mp hrest
      rw [hnil]
      rfl
  | cons a l ih =>
      rcases rest with _ | ⟨x, rest⟩
      · simp at hrest
      · have hstore : store (front ++ x :: rest) front.length (v a) =
            some ((front ++ [v a]) ++ rest) := by
          rw [store_eq (by simp), List.set_append_right _ _ (Nat.le_refl _)]
          simp
        have hnext := ih (fun b hb => hget b (List.mem_cons_of_mem a hb)) (front ++ [v a]) rest
          (by simpa using hrest)
        rw [List.length_append, List.length_singleton] at hnext
        rw [List.zipIdx_cons, List.foldlM_cons]
        simp only [hget a List.mem_cons_self, Option.bind_eq_bind, Option.bind_some, hstore, hnext]
        simp

theorem subFailsafe_eq {f : Failsafe} {m : Mask} {nbPins : Nat} (hlen : nbPins ≤ m.length)
    (hbyte : nbPins < 2 ^ 8) (htable : nbPins ≤ f.pinsFailsafe.length) :
    subFailsafe f m nbPins =
      some { timeout := f.timeout, pinsFailsafe := f.entriesAt (usedPins m nbPins) } := by
  have hused := length_usedPins_le m nbPins
  have hloop := forEachPinUsed_running hlen
    (fun i pins pin => f.pinsFailsafe[pin]?.bind fun entry => store pins i entry) 1 0
    (List.replicate (usedPins m nbPins).length { pinState := pinTypeDisabled, pinValue := 0 })
  have hget : ∀ pin ∈ usedPins m nbPins, f.pinsFailsafe[pin]? = some (f.entryAt pin) :=
    fun pin hpin => Failsafe.getElem?_pinsFailsafe (Nat.lt_of_lt_of_le (usedPins_lt hpin) htable)
  have hfill := collect_eq (usedPins m nbPins) hget
    [] (List.replicate (usedPins m nbPins).length { pinState := pinTypeDisabled, pinValue := 0 })
    (List.length_replicate ..)
  simp only [List.length_nil, List.nil_append] at hfill
  simp only [Nat.zero_add, Nat.one_mul, hfill, Option.map_some] at hloop
  simp only [subFailsafe, maskNbPinsUsed_eq hlen hbyte,
    newFailsafe_eq (show (usedPins m nbPins).length < 2 ^ 8 by omega), Option.bind_eq_bind,
    Option.bind_some, hloop]
  rfl

/-! ## Counting bits -/

/-- One turn of `failsafe_nb_bits`; the sum is a `uint16_t`. -/
def nbBitsStep (sum : Nat) (entry : PinFailsafe) : Nat :=
  if entry.pinState = pinTypeDisabled then sum
  else (sum + (getTypeBitsNb entry.pinState + pinTypeBitsNb)) % 2 ^ 16

theorem nbBitsStep_eq {sum : Nat} {e : PinFailsafe} (hword : sum + entryLength e < 2 ^ 16) :
    nbBitsStep sum e = sum + entryLength e := by
  by_cases hdisabled : e.pinState = pinTypeDisabled
  · rw [nbBitsStep, if_pos hdisabled, entryLength, if_pos hdisabled, Nat.add_zero]
  · have hentry : entryLength e = pinTypeBitsNb + getTypeBitsNb e.pinState := if_neg hdisabled
    rw [nbBitsStep, if_neg hdisabled, Nat.add_comm (getTypeBitsNb e.pinState), ← hentry]
    exact Nat.mod_eq_of_lt hword

theorem foldlM_nbBitsStep (es : List PinFailsafe) {sum : Nat}
    (hword : sum + entriesLength es < 2 ^ 16) :
    es.foldlM (fun sum e => some (nbBitsStep sum e)) sum = some (sum + entriesLength es) := by
  induction es generalizing sum with
  | nil => rfl
  | cons e es ih =>
      have hlen : entriesLength (e :: es) = entryLength e + entriesLength es := rfl
      have hstep : nbBitsStep sum e = sum + entryLength e := nbBitsStep_eq (by omega)
      calc
        (e :: es).foldlM (fun sum e => some (nbBitsStep sum e)) sum
            = es.foldlM (fun sum e => some (nbBitsStep sum e)) (nbBitsStep sum e) := rfl
        _ = es.foldlM (fun sum e => some (nbBitsStep sum e)) (sum + entryLength e) := by rw [hstep]
        _ = some (sum + entryLength e + entriesLength es) := ih (by omega)
        _ = some (sum + entriesLength (e :: es)) := by rw [hlen, Nat.add_assoc]

/-- The loop of `failsafe_nb_bits`, over indices that stay below `2 ^ 8`: the sum cannot wrap. -/
theorem nbBitsLoop_eq {f : Failsafe} {nbPins : Nat} (hbyte : nbPins < 2 ^ 8)
    (htable : nbPins ≤ f.pinsFailsafe.length) :
    (List.range nbPins).foldlM
        (fun sum i => f.pinsFailsafe[i]?.map fun entry => nbBitsStep sum entry)
        ((16 + nbPins) % 2 ^ 16) =
      some (16 + nbPins + entriesLength (f.pinsFailsafe.take nbPins)) := by
  have hslots := slotsLength_le (f.pinsFailsafe.take nbPins)
  have hle := entriesLength_le (f.pinsFailsafe.take nbPins)
  have hstart : (16 + nbPins) % 2 ^ 16 = 16 + nbPins := Nat.mod_eq_of_lt (by omega)
  rw [List.length_take, Nat.min_eq_left htable] at hslots
  -- going over the indices is going over the entries
  calc
    (List.range nbPins).foldlM
        (fun sum i => f.pinsFailsafe[i]?.map fun entry => nbBitsStep sum entry)
        ((16 + nbPins) % 2 ^ 16)
      = (List.range nbPins).foldlM
          (fun sum i => f.pinsFailsafe[i]?.bind fun entry => some (nbBitsStep sum entry))
          (16 + nbPins) := by
        simp only [Option.map_eq_bind, hstart]
        rfl
    _ = (f.pinsFailsafe.take nbPins).foldlM (fun sum e => some (nbBitsStep sum e))
          (16 + nbPins) := foldlM_getElem?_take (fun sum e => some (nbBitsStep sum e)) htable _
    _ = some (16 + nbPins + entriesLength (f.pinsFailsafe.take nbPins)) :=
        foldlM_nbBitsStep _ (by omega)

theorem failsafeNbBits_eq {f : Failsafe} (hbyte : f.pinsFailsafe.length < 2 ^ 8) :
    failsafeNbBits f f.pinsFailsafe.length =
      some (16 + f.pinsFailsafe.length + entriesLength f.pinsFailsafe) := by
  have hloop := nbBitsLoop_eq hbyte (Nat.le_refl f.pinsFailsafe.length)
  rw [List.take_length] at hloop
  rw [failsafeNbBits, byteLoop_eq _ _ hbyte (by omega)]
  exact hloop

end PinProtocol
