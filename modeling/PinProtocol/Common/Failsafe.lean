import PinProtocol.Common.Mask
import PinProtocol.Common.Protocol

/-!
# Failsafe — the failsafe table (`src/failsafe.c`)

Running bit offsets are natural numbers; they are reduced modulo `2 ^ 16` by the accessors that
they are passed to, as the `uint16_t` offsets of the source are.
-/

namespace PinProtocol

open Bits Control

structure PinFailsafe where
  pinState : BitVec 8
  pinValue : BitVec 16
  deriving DecidableEq, Repr

structure Failsafe where
  timeout : BitVec 16
  pinsFailsafe : List PinFailsafe
  deriving DecidableEq, Repr

/-- An entry of a table that `malloc` has just returned. -/
def freshEntry : PinFailsafe :=
  { pinState := heapFill, pinValue := heapFill ++ heapFill }

/-- `new_failsafe`; the loop counter is a `uint8_t`, the bound an `unsigned int`. -/
def newFailsafe (nbPins : Nat) : Option Failsafe := do
  let pins ← byteLoop nbPins
    (fun pins i => store pins i { pinState := pinTypeDisabled, pinValue := 0 })
    (2 ^ 8 + 1) 0 (List.replicate nbPins freshEntry)
  return { timeout := 0, pinsFailsafe := pins }

def subFailsafe (f : Failsafe) (m : Mask) (maskLength : Nat) : Option Failsafe := do
  let nbPinsUsed ← maskNbPinsUsed m maskLength
  let sub ← newFailsafe nbPinsUsed
  let (pins, _) ← forEachPinUsed m maskLength
    (fun (st : List PinFailsafe × Nat) pinIndex =>
      (f.pinsFailsafe[pinIndex]?.bind fun entry => store st.1 st.2 entry).map
        fun pins => (pins, st.2 + 1))
    (sub.pinsFailsafe, 0)
  return { timeout := f.timeout, pinsFailsafe := pins }

def failsafeNbBits (f : Failsafe) (nbPins : Nat) : Option Nat :=
  byteLoop nbPins
    (fun sum i => f.pinsFailsafe[i]?.map fun entry =>
      if entry.pinState = pinTypeDisabled then sum
      else (sum + (getTypeBitsNb entry.pinState + pinTypeBitsNb)) % 2 ^ 16)
    -- 16 bits and one bit for each pin are counted beforehand
    (2 ^ 8 + 1) 0 ((16 + nbPins) % 2 ^ 16)

/-- The body of the loop of `write_failsafe`: the buffer and the offset after one entry. -/
def writeFailsafeEntry (st : Buffer × Nat) (entry : PinFailsafe) : Option (Buffer × Nat) :=
  -- a disabled pin leaves no trace in the stream
  if entry.pinState = pinTypeDisabled then some st
  else do
    let valSize := getTypeBitsNb entry.pinState
    let p ← writeBitValue st.1 st.2 (entry.pinState.setWidth 16) pinTypeBitsNb
    let p ← writeBitValue p (st.2 + pinTypeBitsNb) entry.pinValue valSize
    return (p, st.2 + pinTypeBitsNb + valSize)

def writeFailsafe (p : Buffer) (offset : Nat) (f : Failsafe) (nbPins : Nat) : Option Buffer :=
  ((List.range nbPins).foldlM
    (fun st i => f.pinsFailsafe[i]?.bind (writeFailsafeEntry st)) (p, offset)).map Prod.fst

/-- The reads of one turn of `read_failsafe`: the entry and the offset behind it. -/
def readFailsafeEntry (buffer : Buffer) (offset : Nat) : Option (PinFailsafe × Nat) := do
  let pinType ← readBitValue buffer offset pinTypeBitsNb
  let pinType := pinType.setWidth 8
  let valSize := getTypeBitsNb pinType
  let val ← readBitValue buffer (offset + pinTypeBitsNb) valSize
  return ({ pinState := pinType, pinValue := val }, offset + pinTypeBitsNb + valSize)

/-- `read_failsafe` fills the first `nbPins` entries of `f`. -/
def readFailsafe (buffer : Buffer) (offset : Nat) (f : Failsafe) (nbPins : Nat) :
    Option Failsafe :=
  ((List.range nbPins).foldlM
    (fun (st : List PinFailsafe × Nat) i => (readFailsafeEntry buffer st.2).bind fun r =>
      (store st.1 i r.1).map fun pins => (pins, r.2))
    (f.pinsFailsafe, offset)).map fun st => { f with pinsFailsafe := st.1 }

end PinProtocol
