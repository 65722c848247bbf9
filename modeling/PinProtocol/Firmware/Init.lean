import PinProtocol.Common.FailsafeTables
import PinProtocol.Firmware.Handlers

/-!
# Init — the state in which a device starts
-/

namespace PinProtocol

open Bits Control

/-- A loop on a pair of arrays that are filled independently. -/
theorem foldlM_pair {α β σ : Type} (f : α → σ → Option α) (g : β → σ → Option β) (l : List σ)
    (s : α) (t : β) :
    l.foldlM (fun (st : α × β) a => (f st.1 a).bind fun x => (g st.2 a).bind fun y => some (x, y))
        (s, t) =
      (l.foldlM f s).bind fun x => (l.foldlM g t).map fun y => (x, y) := by
  induction l generalizing s t with
  | nil => rfl
  | cons a l ih =>
      rw [List.foldlM_cons, List.foldlM_cons, List.foldlM_cons]
      cases hf : f s a with
      | none => simp
      | some x =>
          cases hg : g t a with
          | none => simp
          | some y => simpa using ih x y

/-- The failsafe table of a build that has one. -/
def initialFailsafe (b : Build) (nbPins : Nat) : Option Failsafe :=
  if b.disableFailsafe then none
  else some
    { timeout := 0
      pinsFailsafe := List.replicate nbPins { pinState := pinTypeDisabled, pinValue := 0 } }

theorem connectionInitResources_eq (b : Build) {c : Connection}
    (hnone : b.disableFailsafe = true → c.failsafe = none) :
    connectionInitResources b c =
      some
        { c with
          caps := { c.caps with pinsMaskType := List.replicate c.nbPins 0#8 }
          pinsState := List.replicate c.nbPins { freshPin with pinsType := pinTypeDisabled }
          failsafe := initialFailsafe b c.nbPins } := by
  have hlenPins : c.nbPins ≤ (List.replicate c.nbPins freshPin).length := by simp
  have hmask : (List.range c.nbPins).foldlM (fun xs i => store xs i 0#8) (malloc c.nbPins) =
      some (List.replicate c.nbPins 0#8) := storeFresh_eq c.nbPins heapFill 0#8
  have hpins := updateAll_eq hlenPins fun pin => { pin with pinsType := pinTypeDisabled }
  -- one loop fills both arrays
  have hloop := foldlM_pair (fun xs i => store xs i 0#8)
    (fun xs i => update xs i fun pin => { pin with pinsType := pinTypeDisabled })
    (List.range c.nbPins) (malloc c.nbPins) (List.replicate c.nbPins freshPin)
  rw [hmask, hpins] at hloop
  have hsame : (connectionReleaseResources b c).nbPins = c.nbPins := rfl
  simp only [connectionInitResources, hsame, newFailsafe_eq c.nbPins_lt, Option.bind_eq_bind,
    Option.bind_some, Option.pure_def, hloop, Option.map_some]
  cases hb : b.disableFailsafe with
  | true => simp [connectionReleaseResources, hb, hnone hb, initialFailsafe]
  | false => simp [connectionReleaseResources, hb, initialFailsafe]

/-- A device whose pins are all digital and low. -/
def initialDevice (b : Build) (nbPins : BitVec 8) : Device :=
  { conn :=
      { protocolVersion := 1
        caps := { nbPins, pinsMaskType := List.replicate nbPins.toNat supportedTypes }
        pinsState := List.replicate nbPins.toNat { pinsType := pinTypeDigital, pinsVal := 0 }
        failsafe := initialFailsafe b nbPins.toNat }
    nextId := 0 }

theorem initDeviceContent_eq (b : Build) (nbPins : BitVec 8) :
    initDeviceContent b nbPins = some (initialDevice b nbPins) := by
  have hinit := connectionInitResources_eq b
    (c :=
      { protocolVersion := 1
        caps := { nbPins, pinsMaskType := [] }
        pinsState := []
        failsafe := none })
    (fun _ => rfl)
  have hloop := foldlM_pair (fun xs i => store xs i supportedTypes)
    (fun xs i => store xs i { pinsType := pinTypeDigital, pinsVal := 0 })
    (List.range nbPins.toNat) (List.replicate nbPins.toNat 0#8)
    (List.replicate nbPins.toNat { freshPin with pinsType := pinTypeDisabled })
  rw [storeFresh_eq, storeFresh_eq] at hloop
  simp only [initDeviceContent, hinit, Option.bind_eq_bind, Option.bind_some, Option.pure_def,
    Connection.nbPins, hloop, Option.map_some]
  simp [initialDevice]

theorem initialDevice_wellFormed (b : Build) (nbPins : BitVec 8) :
    (initialDevice b nbPins).conn.WellFormed := by
  refine ⟨by simp [initialDevice, Connection.nbPins], by simp [initialDevice, Connection.nbPins],
    fun f hf => ?_⟩
  cases hb : b.disableFailsafe with
  | true => simp [initialDevice, initialFailsafe, hb] at hf
  | false =>
      simp [initialDevice, initialFailsafe, hb] at hf
      simp [← hf, initialDevice, Connection.nbPins]

theorem initialDevice_pinAt (b : Build) {nbPins : BitVec 8} {pin : Nat} (h : pin < nbPins.toNat) :
    (initialDevice b nbPins).conn.pinAt pin = { pinsType := pinTypeDigital, pinsVal := 0 } := by
  simp [Connection.pinAt, initialDevice, h]

end PinProtocol
