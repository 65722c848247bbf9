import PinProtocol.Common.BitFields

/-!
# Mask — sets of pins (`src/mask.c`)

A mask is an array of booleans, one per pin.  All code that works on the pins of a mask walks it
in the same way: look for the next pin used, stop at `-1`, otherwise treat the pin and go on after
it.  `forEachPinUsed` is that walk.
-/

namespace PinProtocol

open Bits Control

abbrev Mask := List Bool

/-- `new_mask`; the loop counter is a `uint8_t`, the bound an `unsigned int`. -/
def newMask (nbPins : Nat) : Option Mask :=
  byteLoop nbPins (fun m i => store m i false) (2 ^ 8 + 1) 0 (List.replicate nbPins true)

/-- The search loop of `mask_next_pin_used`; every iteration advances `start`. -/
def maskNextPinUsedLoop (m : Mask) (maskLength : Nat) : (fuel start : Nat) → Option Int
  | 0, _ => none
  | fuel + 1, start =>
      if start < maskLength then
        m[start]?.bind fun used =>
          if used then some start else maskNextPinUsedLoop m maskLength fuel (start + 1)
      else
        some (-1)

def maskNextPinUsed (m : Mask) (start maskLength : Nat) : Option Int :=
  maskNextPinUsedLoop m maskLength (maskLength + 1) start

def maskNbPinsUsed (m : Mask) (maskLength : Nat) : Option Nat :=
  (List.range maskLength).foldlM
    (fun pinsUsed i => m[i]?.map fun used => if used then (pinsUsed + 1) % 2 ^ 8 else pinsUsed) 0

def writeMask (buffer : Buffer) (m : Mask) (maskLength : Nat) : Option Buffer :=
  (List.range maskLength).foldlM
    (fun buffer i => m[i]?.bind fun used =>
      writeBitValue buffer i ((BitVec.ofBool used).setWidth 16) 1)
    buffer

def readMask (buffer : Buffer) (offset : Nat) (m : Mask) (maskLength : Nat) : Option Mask :=
  (List.range maskLength).foldlM
    (fun m i => (readBitValue buffer (offset + i) 1).bind fun v => store m i (v != 0)) m

/-- The loop `do { … } while( true )` around `mask_next_pin_used`.  Each turn but the last treats
a pin behind the previous one, so `maskLength + 1` turns are enough. -/
def maskWalk {σ : Type} (m : Mask) (maskLength : Nat) (body : σ → Nat → Option σ) :
    (fuel pinIndex : Nat) → σ → Option σ
  | 0, _, _ => none
  | fuel + 1, pinIndex, s =>
      (maskNextPinUsed m pinIndex maskLength).bind fun next =>
        if next = -1 then some s
        else (body s next.toNat).bind (maskWalk m maskLength body fuel (next.toNat + 1))

def forEachPinUsed {σ : Type} (m : Mask) (maskLength : Nat) (body : σ → Nat → Option σ) (s : σ) :
    Option σ :=
  maskWalk m maskLength body (maskLength + 1) 0 s

end PinProtocol
