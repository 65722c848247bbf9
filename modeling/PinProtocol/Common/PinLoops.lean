import PinProtocol.Common.FailsafeTables
import PinProtocol.Control.ByteRuns

/-!
# PinLoops — the loops over pins come to an end

Two kinds of loops go over the pins of a device.

* The walk over a mask asks `mask_next_pin_used` for the next pin until there is none.  It visits
  the pins used in ascending order, as many as `mask_nb_pins_used` counts (`pinWalk_visits`), so
  that `sub_failsafe` fills exactly the table that it allocates.
* `new_mask`, `new_failsafe` and `failsafe_nb_bits` count up to their bound in a `uint8_t`.  The
  bound is an `unsigned int`: from `2 ^ 8` on, the counter never reaches it (`pinLoops_iff`).
-/

namespace PinProtocol

open Bits Control

/-! ## The walk over a mask -/

theorem mem_usedPins_iff_getElem? {m : Mask} {maskLength : Nat} (hlen : maskLength ≤ m.length)
    {pin : Nat} : pin ∈ usedPins m maskLength ↔ pin < maskLength ∧ m[pin]? = some true := by
  rw [mem_usedPins]
  refine and_congr_right fun hpin => ?_
  rw [getElem?_mask (show pin < m.length by omega), Option.some_inj]

theorem usedPins_ascending (m : Mask) (maskLength : Nat) :
    (usedPins m maskLength).Pairwise (· < ·) :=
  List.Pairwise.filter _ List.pairwise_lt_range'

/-- `visits` are the pins that the loops over a mask treat. -/
structure PinWalk (m : Mask) (maskLength : Nat) (visits : List Nat) : Prop where
  /-- The loop ends, and has treated the visits in this order; more turns than
  `maskLength + 1` are never made. -/
  ends : ∀ {σ : Type} (body : σ → Nat → Option σ) (s : σ) (fuel : Nat), maskLength < fuel →
    maskWalk m maskLength body fuel 0 s = visits.foldlM body s
  ascending : visits.Pairwise (· < ·)
  mem_iff : ∀ pin, pin ∈ visits ↔ pin < maskLength ∧ m[pin]? = some true
  count : maskNbPinsUsed m maskLength = some visits.length
  /-- `sub_failsafe` does not leave its table, and fills it. -/
  sub : ∀ f : Failsafe, maskLength ≤ f.pinsFailsafe.length →
    ∃ table, subFailsafe f m maskLength = some table ∧ table.timeout = f.timeout ∧
      table.pinsFailsafe.length = visits.length ∧
      ∀ k (hk : k < visits.length), table.pinsFailsafe[k]? = f.pinsFailsafe[visits[k]]?

theorem pinWalk_visits {m : Mask} {maskLength : Nat} (hlen : maskLength ≤ m.length)
    (hbyte : maskLength < 2 ^ 8) : PinWalk m maskLength (usedPins m maskLength) where
  ends := fun body s fuel hfuel => maskWalk_eq m hlen body fuel 0 hfuel s
  ascending := usedPins_ascending m maskLength
  mem_iff := fun _ => mem_usedPins_iff_getElem? hlen
  count := maskNbPinsUsed_eq hlen hbyte
  sub := by
    intro f htable
    refine ⟨_, subFailsafe_eq hlen hbyte htable, rfl, List.length_map _, fun k hk => ?_⟩
    -- the pin of a visit has an entry in the table that is copied from
    have hpin := usedPins_lt (List.getElem_mem hk)
    rw [Failsafe.getElem?_pinsFailsafe (Nat.lt_of_lt_of_le hpin htable), Failsafe.entriesAt,
      List.getElem?_map, List.getElem?_eq_getElem hk, Option.map_some]

theorem pinWalk_visits_three :
    PinWalk [true, false, true] 3 (usedPins [true, false, true] 3) :=
  pinWalk_visits (by decide) (by decide)

/-! ## Counters of 8 bits -/

/-- `new_mask( nb_pins )` comes to an end and has cleared each of the `nb_pins` entries once. -/
def NewMaskDone (nbPins : Nat) : Prop :=
  TurnsOnce nbPins (fun m i => store m i false) (List.replicate nbPins true)
      (List.replicate nbPins false) ∧
    newMask nbPins = some (List.replicate nbPins false)

/-- `new_failsafe( nb_pins )` comes to an end and has disabled each of the `nb_pins` entries
once. -/
def NewFailsafeDone (nbPins : Nat) : Prop :=
  TurnsOnce nbPins (fun pins i => store pins i { pinState := pinTypeDisabled, pinValue := 0 })
      (List.replicate nbPins freshEntry)
      (List.replicate nbPins { pinState := pinTypeDisabled, pinValue := 0 }) ∧
    newFailsafe nbPins =
      some
        { timeout := 0
          pinsFailsafe :=
            List.replicate nbPins { pinState := pinTypeDisabled, pinValue := 0 } }

/-- `failsafe_nb_bits( f, nb_pins )` comes to an end and has counted each of the `nb_pins` entries
once. -/
def FailsafeNbBitsDone (f : Failsafe) (nbPins : Nat) : Prop :=
  TurnsOnce nbPins (fun sum i => f.pinsFailsafe[i]?.map fun entry => nbBitsStep sum entry)
      ((16 + nbPins) % 2 ^ 16) (16 + nbPins + entriesLength (f.pinsFailsafe.take nbPins)) ∧
    failsafeNbBits f nbPins = some (16 + nbPins + entriesLength (f.pinsFailsafe.take nbPins))

/-- A loop that ends after one turn for each index is what `byteLoop` computes. -/
theorem byteLoop_of_turnsOnce {σ : Type} {n : Nat} {body : σ → Nat → Option σ} {s t : σ}
    (h : TurnsOnce n body s t) : byteLoop n body (2 ^ 8 + 1) 0 s = some t := by
  obtain ⟨turns, hrun, -⟩ := h
  exact (byteLoop_eq_some_iff (by decide)).mpr ⟨turns, hrun⟩

theorem newMaskDone_iff (nbPins : Nat) : NewMaskDone nbPins ↔ nbPins < 2 ^ 8 := by
  constructor
  · intro h
    exact (turnsOnce_iff.mp h.1).1
  · intro hbyte
    exact ⟨turnsOnce_iff.mpr ⟨hbyte, storeFresh_eq nbPins true false⟩, newMask_eq hbyte⟩

theorem newFailsafeDone_iff (nbPins : Nat) : NewFailsafeDone nbPins ↔ nbPins < 2 ^ 8 := by
  constructor
  · intro h
    exact (turnsOnce_iff.mp h.1).1
  · intro hbyte
    have hfill := storeFresh_eq nbPins freshEntry { pinState := pinTypeDisabled, pinValue := 0 }
    exact ⟨turnsOnce_iff.mpr ⟨hbyte, hfill⟩, newFailsafe_eq hbyte⟩

theorem failsafeNbBitsDone_iff {f : Failsafe} {nbPins : Nat}
    (htable : nbPins ≤ f.pinsFailsafe.length) :
    FailsafeNbBitsDone f nbPins ↔ nbPins < 2 ^ 8 := by
  constructor
  · intro h
    exact (turnsOnce_iff.mp h.1).1
  · intro hbyte
    have hcount := turnsOnce_iff.mpr ⟨hbyte, nbBitsLoop_eq hbyte htable⟩
    exact ⟨hcount, byteLoop_of_turnsOnce hcount⟩

/-- Each of the three loops is done with its pins if and only if there are less than `2 ^ 8`. -/
theorem pinLoops_iff {f : Failsafe} {nbPins : Nat} (htable : nbPins ≤ f.pinsFailsafe.length) :
    (NewMaskDone nbPins ↔ nbPins < 2 ^ 8) ∧ (NewFailsafeDone nbPins ↔ nbPins < 2 ^ 8) ∧
      (FailsafeNbBitsDone f nbPins ↔ nbPins < 2 ^ 8) :=
  ⟨newMaskDone_iff nbPins, newFailsafeDone_iff nbPins, failsafeNbBitsDone_iff htable⟩

theorem pinLoops_two :
    let f : Failsafe :=
      { timeout := 0
        pinsFailsafe := [{ pinState := 1, pinValue := 1 }, { pinState := 0, pinValue := 0 }] }
    NewMaskDone 2 ∧ NewFailsafeDone 2 ∧ FailsafeNbBitsDone f 2 := by
  intro f
  have hfew : 2 < 2 ^ 8 := by decide
  have htable : 2 ≤ f.pinsFailsafe.length := by decide
  obtain ⟨hmask, hfailsafe, hbits⟩ := pinLoops_iff htable
  exact ⟨hmask.mpr hfew, hfailsafe.mpr hfew, hbits.mpr hfew⟩

/-- With the 256 pins that `driver.h` allows, none of the three loops comes to an end. -/
theorem not_pinLoops_256 :
    ¬ NewMaskDone 256 ∧ ¬ NewFailsafeDone 256 ∧
      ¬ FailsafeNbBitsDone { timeout := 0, pinsFailsafe := List.replicate 256 freshEntry } 256 := by
  have hbound : ¬ 256 < 2 ^ 8 := by decide
  refine ⟨?_, ?_, ?_⟩
  · intro h
    exact hbound ((newMaskDone_iff 256).mp h)
  · intro h
    exact hbound ((newFailsafeDone_iff 256).mp h)
  · intro h
    exact hbound ((failsafeNbBitsDone_iff (by rw [List.length_replicate])).mp h)

end PinProtocol
