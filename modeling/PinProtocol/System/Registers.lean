import Mathlib.Data.List.Induction
import PinProtocol.Control.History
import PinProtocol.Firmware.Init
import PinProtocol.System.PinOperations

/-!
# Registers — the pins of a device as registers

A caller of the driver sees two registers per pin, a type and a value.  `Call.effect` and
`Call.observe` say what each call does to the pin it names and what it returns; the histories
`lastType` and `lastWritten` say what the registers hold after a run.
-/

namespace PinProtocol

open Bits Control

/-! ## Calls -/

/-- A call of one of the single-pin operations of `driver.h`. -/
inductive Call
  | digitalWrite (pin : BitVec 8) (val : Bool)
  | analogicWrite (pin : BitVec 8) (val : BitVec 16)
  | pwm8Write (pin : BitVec 8) (val : BitVec 16)
  | pwm16Write (pin : BitVec 8) (val : BitVec 16)
  | digitalRead (pin : BitVec 8)
  | analogicRead (pin : BitVec 8)
  | pwm8Read (pin : BitVec 8)
  | pwm16Read (pin : BitVec 8)
  | setType (pin type : BitVec 8)
  | getType (pin : BitVec 8)
  deriving DecidableEq, Repr

namespace Call

def pin : Call → Nat
  | digitalWrite pin _ | analogicWrite pin _ | pwm8Write pin _ | pwm16Write pin _
  | digitalRead pin | analogicRead pin | pwm8Read pin | pwm16Read pin
  | setType pin _ | getType pin => pin.toNat

/-- The call, over a device: what it returns through its pointer, and both ends afterwards. -/
def perform (b : Build) (c : Connection) (d : Device) :
    Call → Option (Option Nat × Connection × Device)
  | digitalWrite pin val =>
      (PinProtocol.digitalWrite (deviceLink b) c d pin val).map fun r => (none, r.conn, r.world)
  | analogicWrite pin val =>
      (PinProtocol.analogicWrite (deviceLink b) c d pin val).map fun r => (none, r.conn, r.world)
  | pwm8Write pin val =>
      (PinProtocol.pwm8Write (deviceLink b) c d pin val).map fun r => (none, r.conn, r.world)
  | pwm16Write pin val =>
      (PinProtocol.pwm16Write (deviceLink b) c d pin val).map fun r => (none, r.conn, r.world)
  | digitalRead pin =>
      (PinProtocol.digitalRead (deviceLink b) c d pin).map fun r =>
        (some r.out.toNat, r.conn, r.world)
  | analogicRead pin =>
      (PinProtocol.analogicRead (deviceLink b) c d pin).map fun r =>
        (some r.out.toNat, r.conn, r.world)
  | pwm8Read pin =>
      (PinProtocol.pwm8Read (deviceLink b) c d pin).map fun r =>
        (some r.out.toNat, r.conn, r.world)
  | pwm16Read pin =>
      (PinProtocol.pwm16Read (deviceLink b) c d pin).map fun r =>
        (some r.out.toNat, r.conn, r.world)
  | setType pin type =>
      (PinProtocol.setType (deviceLink b) c d pin type).map fun r => (none, r.conn, r.world)
  | getType pin =>
      (PinProtocol.getType (deviceLink b) c d pin).map fun r =>
        (some r.out.toNat, r.conn, r.world)

/-! ## What a call does to a register -/

/-- The value that the call writes, modulo `2 ^ bits` of the type it is written with. -/
def newVal : Call → Option Nat
  | digitalWrite _ val => some (val.toNat % 2 ^ 1)
  | analogicWrite _ val => some (val.toNat % 2 ^ 16)
  | pwm8Write _ val => some (val.toNat % 2 ^ 8)
  | pwm16Write _ val => some (val.toNat % 2 ^ 16)
  | _ => none

/-- The type that the call gives to its pin. -/
def newType : Call → Option Nat
  | digitalWrite _ _ => some pinTypeDigital.toNat
  | analogicWrite _ _ => some pinTypeAnalog16.toNat
  | pwm8Write _ _ => some pinTypePwm8.toNat
  | pwm16Write _ _ => some pinTypePwm16.toNat
  | setType _ type => some type.toNat
  | _ => none

/-- What the caller promises: the pin exists, and a type has three bits. -/
def InRange (nbPins : Nat) (call : Call) : Prop :=
  call.pin < nbPins ∧ ∀ type ∈ call.newType, type < 8

instance (nbPins : Nat) (call : Call) : Decidable (call.InRange nbPins) :=
  inferInstanceAs (Decidable (_ ∧ _))

/-- What the call returns for a pin of type `type` that holds `val`. -/
def observe (type val : Nat) : Call → Option Nat
  | digitalRead _ => some (val % 2 ^ 1)
  | analogicRead _ => some (val % 2 ^ 16)
  | pwm8Read _ => some (val % 2 ^ 8)
  | pwm16Read _ => some (val % 2 ^ 16)
  | getType _ => some type
  | _ => none

end Call

/-! ## One call -/

/-- The device agrees with a register file of types and values. -/
structure Holds (nbPins : Nat) (type val : Nat → Nat) (d : Device) : Prop where
  length : d.conn.pinsState.length = nbPins
  type_eq : ∀ q < nbPins, (d.conn.pinAt q).pinsType.toNat = type q
  val_eq : ∀ q < nbPins, (d.conn.pinAt q).pinsVal.toNat = val q

theorem pinAt_modify {c : Connection} {i q : Nat} (f : PinState → PinState)
    (hi : i < c.pinsState.length) :
    ({ c with pinsState := c.pinsState.modify i f } : Connection).pinAt q =
      if q = i then f (c.pinAt q) else c.pinAt q := by
  by_cases hq : q = i
  · subst hq
    simp [Connection.pinAt, hi]
  · have hne : i ≠ q := fun h => hq h.symm
    simp [Connection.pinAt, List.getD_eq_getElem?_getD, List.getElem?_modify_ne _ _ hne, hq]

/-- Writing the registers of pin `i` on both sides. -/
theorem Holds.modify {nbPins : Nat} {type val : Nat → Nat} {d : Device}
    (h : Holds nbPins type val d) {i : Nat} (hi : i < nbPins) (f : PinState → PinState)
    {t v : Nat} (ht : (f (d.conn.pinAt i)).pinsType.toNat = t)
    (hv : (f (d.conn.pinAt i)).pinsVal.toNat = v) :
    Holds nbPins (fun q => if q = i then t else type q) (fun q => if q = i then v else val q)
      (d.put { d.conn with pinsState := d.conn.pinsState.modify i f }) := by
  have hlt : i < d.conn.pinsState.length := by rw [h.length]; exact hi
  refine ⟨?_, fun q hq => ?_, fun q hq => ?_⟩
  · rw [Device.conn_put, List.length_modify, h.length]
  · rw [Device.conn_put, pinAt_modify f hlt]
    by_cases hqi : q = i
    · subst hqi
      simp [ht]
    · simp [hqi, h.type_eq q hq]
  · rw [Device.conn_put, pinAt_modify f hlt]
    by_cases hqi : q = i
    · subst hqi
      simp [hv]
    · simp [hqi, h.val_eq q hq]

/-- A register file in which nothing is written agrees with the device that it agreed with. -/
theorem Holds.keep {nbPins : Nat} {type val : Nat → Nat} {d : Device} (h : Holds nbPins type val d)
    (i : Nat) :
    Holds nbPins (fun q => if q = i then (none : Option Nat).getD (type q) else type q)
      (fun q => if q = i then (none : Option Nat).getD (val q) else val q) d.next := by
  simpa using (⟨h.length, h.type_eq, h.val_eq⟩ : Holds nbPins type val d.next)

theorem Holds.congr {nbPins : Nat} {type type' val val' : Nat → Nat} {d : Device}
    (h : Holds nbPins type val d) (htype : ∀ q < nbPins, type q = type' q)
    (hval : ∀ q < nbPins, val q = val' q) : Holds nbPins type' val' d :=
  ⟨h.length, fun q hq => (h.type_eq q hq).trans (htype q hq),
    fun q hq => (h.val_eq q hq).trans (hval q hq)⟩

/-- A value of one bit, as a `bool`. -/
theorem toNat_bit {v : BitVec 16} {n : Nat} (h : v.toNat = n % 2 ^ 1) :
    (v != 0).toNat = n % 2 ^ 1 := by
  by_cases hv : v = 0
  · subst hv
    simpa using h
  · have hpos : v.toNat ≠ 0 := fun hzero => hv (BitVec.eq_of_toNat_eq hzero)
    have hone : (v != 0) = true := by simpa using hv
    rw [hone]
    show 1 = _
    omega

section OneCall

variable {b : Build} {nbPins : Nat} {type val : Nat → Nat} {c : Connection} {d : Device}

/-- A single-pin write puts the type and the value, cut to its width, into the registers. -/
theorem genericWrite_holds (h : Holds nbPins type val d) (hc : c.pinsState.length = nbPins)
    (pin : BitVec 8) (hpin : pin.toNat < nbPins) (mode : BitVec 8) (hmode : mode.toNat < 8)
    {valSize : Nat} (hsize : getTypeBitsNb mode = valSize) (hpos : 0 < valSize) (v : BitVec 16) :
    ∃ r, genericWrite (deviceLink b) c d pin mode v valSize = some r ∧
      r.conn.pinsState.length = nbPins ∧
      Holds nbPins (fun q => if q = pin.toNat then mode.toNat else type q)
        (fun q => if q = pin.toNat then v.toNat % 2 ^ valSize else val q) r.world := by
  have hwrite := genericWrite_device b c d hmode hsize hpos (by rw [h.length]; exact hpin)
    (by rw [hc]; exact hpin) v
  have hmod : v.toNat % 2 ^ valSize % 2 ^ 16 = v.toNat % 2 ^ valSize :=
    Nat.mod_eq_of_lt (Nat.lt_of_le_of_lt (Nat.mod_le _ _) v.isLt)
  refine ⟨_, hwrite, by simpa using hc, ?_⟩
  exact h.modify hpin _ rfl (by simpa using hmod)

theorem genericRead_holds (h : Holds nbPins type val d) (hc : c.pinsState.length = nbPins)
    (pin : BitVec 8) (hpin : pin.toNat < nbPins) (mode : BitVec 8) (hmode : mode.toNat < 8)
    {valSize : Nat} (hsize : getTypeBitsNb mode = valSize) (hpos : 0 < valSize) :
    ∃ r, genericRead (deviceLink b) c d pin mode = some r ∧
      r.out.toNat = val pin.toNat % 2 ^ valSize ∧
      r.conn.pinsState.length = nbPins ∧ r.world = d.next := by
  subst hsize
  have hread := genericRead_device b c d hmode hpos (by rw [h.length]; exact hpin)
    (by rw [hc]; exact hpin)
  have hlt : val pin.toNat < 2 ^ 16 := by
    rw [← h.val_eq _ hpin]
    exact (d.conn.pinAt pin.toNat).pinsVal.isLt
  have hmod : val pin.toNat % 2 ^ getTypeBitsNb mode % 2 ^ 16 =
      val pin.toNat % 2 ^ getTypeBitsNb mode :=
    Nat.mod_eq_of_lt (Nat.lt_of_le_of_lt (Nat.mod_le _ _) hlt)
  refine ⟨_, hread, ?_, by simpa using hc, rfl⟩
  rw [BitVec.toNat_ofNat, h.val_eq _ hpin, hmod]

/-- What one call does, in terms of the registers. -/
theorem Call.perform_holds (h : Holds nbPins type val d) (hc : c.pinsState.length = nbPins)
    (htypes : ∀ q < nbPins, type q < 8) {call : Call} (hcall : call.InRange nbPins) :
    ∃ c' d', call.perform b c d = some (call.observe (type call.pin) (val call.pin), c', d') ∧
      c'.pinsState.length = nbPins ∧
      Holds nbPins (fun q => if q = call.pin then call.newType.getD (type q) else type q)
        (fun q => if q = call.pin then call.newVal.getD (val q) else val q) d' := by
  have hpin := hcall.1
  cases call with
  | digitalWrite pin v =>
      rcases genericWrite_holds (b := b) h hc pin hpin pinTypeDigital (by decide)
        (show getTypeBitsNb pinTypeDigital = 1 from rfl) (by decide)
        ((BitVec.ofBool v).setWidth 16) with ⟨r, hr, hlen, hholds⟩
      refine ⟨r.conn, r.world, by rw [Call.perform, PinProtocol.digitalWrite, hr]; rfl, hlen, ?_⟩
      cases v <;> exact hholds
  | analogicWrite pin v =>
      rcases genericWrite_holds (b := b) h hc pin hpin pinTypeAnalog16 (by decide)
        (show getTypeBitsNb pinTypeAnalog16 = 16 from rfl) (by decide) v with ⟨r, hr, hlen, hholds⟩
      exact ⟨r.conn, r.world, by rw [Call.perform, PinProtocol.analogicWrite, hr]; rfl, hlen,
        hholds⟩
  | pwm8Write pin v =>
      rcases genericWrite_holds (b := b) h hc pin hpin pinTypePwm8 (by decide)
        (show getTypeBitsNb pinTypePwm8 = 8 from rfl) (by decide) v with ⟨r, hr, hlen, hholds⟩
      exact ⟨r.conn, r.world, by rw [Call.perform, PinProtocol.pwm8Write, hr]; rfl, hlen, hholds⟩
  | pwm16Write pin v =>
      rcases genericWrite_holds (b := b) h hc pin hpin pinTypePwm16 (by decide)
        (show getTypeBitsNb pinTypePwm16 = 16 from rfl) (by decide) v with ⟨r, hr, hlen, hholds⟩
      exact ⟨r.conn, r.world, by rw [Call.perform, PinProtocol.pwm16Write, hr]; rfl, hlen, hholds⟩
  | digitalRead pin =>
      rcases genericRead_holds (b := b) h hc pin hpin pinTypeDigital (by decide)
        (show getTypeBitsNb pinTypeDigital = 1 from rfl) (by decide)
        with ⟨r, hr, hval, hlen, hworld⟩
      have hbool : (r.out != 0).toNat = val pin.toNat % 2 ^ 1 := toNat_bit hval
      refine ⟨r.conn, r.world, ?_, hlen, ?_⟩
      · rw [Call.perform, PinProtocol.digitalRead, hr]
        exact congrArg some (Prod.ext (congrArg some hbool) rfl)
      · rw [hworld]
        exact h.keep _
  | analogicRead pin =>
      rcases genericRead_holds (b := b) h hc pin hpin pinTypeAnalog16 (by decide)
        (show getTypeBitsNb pinTypeAnalog16 = 16 from rfl) (by decide)
        with ⟨r, hr, hval, hlen, hworld⟩
      refine ⟨r.conn, r.world, ?_, hlen, ?_⟩
      · rw [Call.perform, PinProtocol.analogicRead, hr]
        exact congrArg some (Prod.ext (congrArg some hval) rfl)
      · rw [hworld]
        exact h.keep _
  | pwm8Read pin =>
      rcases genericRead_holds (b := b) h hc pin hpin pinTypePwm8 (by decide)
        (show getTypeBitsNb pinTypePwm8 = 8 from rfl) (by decide)
        with ⟨r, hr, hval, hlen, hworld⟩
      have hbyte : (r.out.setWidth 8).toNat = val pin.toNat % 2 ^ 8 := by
        rw [BitVec.toNat_setWidth, hval]
        exact Nat.mod_mod _ _
      refine ⟨r.conn, r.world, ?_, hlen, ?_⟩
      · rw [Call.perform, PinProtocol.pwm8Read, hr]
        exact congrArg some (Prod.ext (congrArg some hbyte) rfl)
      · rw [hworld]
        exact h.keep _
  | pwm16Read pin =>
      rcases genericRead_holds (b := b) h hc pin hpin pinTypePwm16 (by decide)
        (show getTypeBitsNb pinTypePwm16 = 16 from rfl) (by decide)
        with ⟨r, hr, hval, hlen, hworld⟩
      refine ⟨r.conn, r.world, ?_, hlen, ?_⟩
      · rw [Call.perform, PinProtocol.pwm16Read, hr]
        exact congrArg some (Prod.ext (congrArg some hval) rfl)
      · rw [hworld]
        exact h.keep _
  | setType pin t =>
      have hpin : pin.toNat < nbPins := hcall.1
      have hset := setType_device b c d (hcall.2 _ rfl) (by rw [h.length]; exact hpin)
        (by rw [hc]; exact hpin)
      have hholds := h.modify hpin (fun x => { x with pinsType := t }) rfl (h.val_eq _ hpin)
      refine ⟨_, _, by rw [Call.perform, hset]; rfl, by simpa using hc, ?_⟩
      refine hholds.congr (fun _ _ => rfl) fun q _ => ?_
      -- the value of the pin itself stays what it is
      show (if q = pin.toNat then val pin.toNat else val q) =
        if q = pin.toNat then val q else val q
      by_cases hq : q = pin.toNat
      · rw [hq]
      · rw [if_neg hq, if_neg hq]
  | getType pin =>
      have hpin : pin.toNat < nbPins := hcall.1
      have hget := getType_device b c d (by rw [h.length]; exact hpin) (by rw [hc]; exact hpin)
      have htype : (BitVec.ofNat 8 ((d.conn.pinAt pin.toNat).pinsType.toNat % 2 ^ 3)).toNat =
          type pin.toNat := by
        have hlt := htypes _ hpin
        rw [← h.type_eq _ hpin] at hlt ⊢
        have hmod : (d.conn.pinAt pin.toNat).pinsType.toNat % 2 ^ 3 =
            (d.conn.pinAt pin.toNat).pinsType.toNat := Nat.mod_eq_of_lt hlt
        rw [hmod, BitVec.ofNat_toNat, BitVec.setWidth_eq]
      have hout : some (BitVec.ofNat 8
          ((d.conn.pinAt pin.toNat).pinsType.toNat % 2 ^ 3)).toNat = some (type pin.toNat) :=
        congrArg some htype
      exact ⟨_, _, by rw [Call.perform, hget, Option.map_some, hout]; rfl, by simpa using hc,
        h.keep _⟩

end OneCall

/-! ## Runs of calls -/

/-- A sequence of calls: what each of them returned, and both ends afterwards. -/
def runCalls (b : Build) (calls : List Call) (c : Connection) (d : Device) :
    Option (List (Option Nat) × Connection × Device) :=
  calls.foldlM
    (fun st call => (call.perform b st.2.1 st.2.2).map fun r => (st.1 ++ [r.1], r.2))
    ([], c, d)

theorem runCalls_concat (b : Build) (calls : List Call) (call : Call) (c : Connection)
    (d : Device) :
    runCalls b (calls ++ [call]) c d =
      (runCalls b calls c d).bind fun st =>
        (call.perform b st.2.1 st.2.2).map fun r => (st.1 ++ [r.1], r.2) := by
  rw [runCalls, List.foldlM_append]
  simp [runCalls]

/-- The type that pin `q` was last given; every pin starts as `DIGITAL`. -/
def lastType (q : Nat) (calls : List Call) : Nat :=
  latest (fun call : Call => if call.pin = q then call.newType else none) 0 calls

/-- The value last written to pin `q`, cut to the width that it was written with. -/
def lastWritten (q : Nat) (calls : List Call) : Nat :=
  latest (fun call : Call => if call.pin = q then call.newVal else none) 0 calls

theorem lastType_concat (q : Nat) (calls : List Call) (call : Call) :
    lastType q (calls ++ [call]) =
      if q = call.pin then call.newType.getD (lastType q calls) else lastType q calls := by
  rw [lastType, latest_concat]
  by_cases hq : q = call.pin
  · rw [if_pos hq, if_pos hq.symm]
    rfl
  · rw [if_neg hq, if_neg fun h => hq h.symm]
    rfl

theorem lastWritten_concat (q : Nat) (calls : List Call) (call : Call) :
    lastWritten q (calls ++ [call]) =
      if q = call.pin then call.newVal.getD (lastWritten q calls) else lastWritten q calls := by
  rw [lastWritten, latest_concat]
  by_cases hq : q = call.pin
  · rw [if_pos hq, if_pos hq.symm]
    rfl
  · rw [if_neg hq, if_neg fun h => hq h.symm]
    rfl

/-- What the calls return when each of them finds what the earlier ones, `past` included, have
left in the registers of its pin. -/
def expected (past : List Call) : List Call → List (Option Nat)
  | [] => []
  | call :: calls =>
      call.observe (lastType call.pin past) (lastWritten call.pin past) ::
        expected (past ++ [call]) calls

theorem expected_concat (past calls : List Call) (call : Call) :
    expected past (calls ++ [call]) =
      expected past calls ++
        [call.observe (lastType call.pin (past ++ calls))
          (lastWritten call.pin (past ++ calls))] := by
  induction calls generalizing past with
  | nil => simp [expected]
  | cons first calls ih => simp [expected, ih]

section Runs

variable {b : Build} {nbPins : Nat}

theorem lastType_lt {calls : List Call} (h : ∀ call ∈ calls, call.InRange nbPins) (q : Nat) :
    lastType q calls < 8 := by
  refine latest_invariant (P := fun t => t < 8) (by decide) fun call hcall t ht => ?_
  by_cases hq : call.pin = q
  · rw [if_pos hq] at ht
    exact (h call hcall).2 t ht
  · rw [if_neg hq] at ht
    cases ht

/-- Two devices with the same registers have the same pin states. -/
theorem Holds.pinAt_eq {type val type' val' : Nat → Nat} {d d' : Device}
    (h : Holds nbPins type val d) (h' : Holds nbPins type' val' d') {q : Nat} (hq : q < nbPins)
    (htype : type q = type' q) (hval : val q = val' q) : d.conn.pinAt q = d'.conn.pinAt q := by
  have ht : (d.conn.pinAt q).pinsType = (d'.conn.pinAt q).pinsType :=
    BitVec.eq_of_toNat_eq (by rw [h.type_eq q hq, h'.type_eq q hq, htype])
  have hv : (d.conn.pinAt q).pinsVal = (d'.conn.pinAt q).pinsVal :=
    BitVec.eq_of_toNat_eq (by rw [h.val_eq q hq, h'.val_eq q hq, hval])
  cases hp : d.conn.pinAt q
  cases hp' : d'.conn.pinAt q
  simp_all

/-- A device that starts with cleared registers follows the histories, call after call. -/
theorem runCalls_holds {c : Connection} {d : Device} (hc : c.pinsState.length = nbPins)
    (hd : Holds nbPins (fun _ => 0) (fun _ => 0) d) {calls : List Call}
    (hcalls : ∀ call ∈ calls, call.InRange nbPins) :
    ∃ c' d', runCalls b calls c d = some (expected [] calls, c', d') ∧
      c'.pinsState.length = nbPins ∧
      Holds nbPins (fun q => lastType q calls) (fun q => lastWritten q calls) d' := by
  -- the calls come one after the other, so the induction takes the last one off
  induction calls using List.reverseRecOn with
  | nil => exact ⟨c, d, rfl, hc, hd⟩
  | append_singleton calls call ih =>
      have hbefore : ∀ call' ∈ calls, call'.InRange nbPins := fun call' h =>
        hcalls call' (List.mem_append_left _ h)
      have hlast : call.InRange nbPins := hcalls call (List.mem_append_right _ List.mem_cons_self)
      rcases ih hbefore with ⟨c₁, d₁, hrun, hlen, hholds⟩
      rcases Call.perform_holds (b := b) hholds hlen (fun q _ => lastType_lt hbefore q) hlast with
        ⟨c₂, d₂, hperform, hlen', hholds'⟩
      refine ⟨c₂, d₂, ?_, hlen', hholds'.congr (fun q _ => ?_) fun q _ => ?_⟩
      · rw [runCalls_concat, hrun, Option.bind_some, hperform, expected_concat]
        rfl
      · exact (lastType_concat q calls call).symm
      · exact (lastWritten_concat q calls call).symm

end Runs

/-- From a freshly initialised device on, single-pin calls see a register file: every call returns
what the latest calls on its own pin have left there, and touches no other pin. -/
theorem calls_as_registers (b : Build) (nbPins : BitVec 8) (c : Connection)
    (hc : c.pinsState.length = nbPins.toNat) (calls : List Call)
    (hcalls : ∀ call ∈ calls, call.InRange nbPins.toNat) :
    ∃ d₀ c' d', initDeviceContent b nbPins = some d₀ ∧
      runCalls b calls c d₀ = some (expected [] calls, c', d') ∧
      (∀ q < nbPins.toNat,
        (d'.conn.pinAt q).pinsType.toNat = lastType q calls ∧
        (d'.conn.pinAt q).pinsVal.toNat = lastWritten q calls) ∧
      ∀ call : Call, call.InRange nbPins.toNat →
        ∃ out c'' d'', call.perform b c' d' = some (out, c'', d'') ∧
          ∀ q < nbPins.toNat, q ≠ call.pin → d''.conn.pinAt q = d'.conn.pinAt q := by
  have hinit : Holds nbPins.toNat (fun _ => 0) (fun _ => 0) (initialDevice b nbPins) := by
    refine ⟨by simp [initialDevice], fun q hq => ?_, fun q hq => ?_⟩
    · rw [initialDevice_pinAt b hq]
      rfl
    · rw [initialDevice_pinAt b hq]
      rfl
  rcases runCalls_holds (b := b) hc hinit hcalls with ⟨c', d', hrun, hlen, hholds⟩
  refine ⟨_, c', d', initDeviceContent_eq b nbPins, hrun, fun q hq => ?_, fun call hcall => ?_⟩
  · exact ⟨hholds.type_eq q hq, hholds.val_eq q hq⟩
  · rcases Call.perform_holds (b := b) hholds hlen (fun q _ => lastType_lt hcalls q) hcall with
      ⟨c'', d'', hperform, _, hholds'⟩
    refine ⟨_, c'', d'', hperform, fun q hq hne => ?_⟩
    exact hholds'.pinAt_eq hholds hq (if_neg hne) (if_neg hne)

/-- A negative value written with 16 bits, read with 8 bits and as a digital pin; another pin is
written in between. -/
theorem calls_as_registers_mixed :
    ∃ d₀ c' d', initDeviceContent hostBuild 3 = some d₀ ∧
      runCalls hostBuild
          [.analogicWrite 1 (-3), .pwm8Write 2 0x155, .pwm8Read 1, .digitalRead 1, .pwm16Read 2,
            .getType 1, .setType 1 7, .analogicRead 1, .getType 1, .getType 0]
          { protocolVersion := 1, caps := { nbPins := 3, pinsMaskType := [0, 0, 0] },
            pinsState := List.replicate 3 freshPin, failsafe := none } d₀ =
        some ([none, none, some 0xFD, some 1, some 0x55, some 2, none, some 0xFFFD, some 7, some 0],
          c', d') := by
  rcases calls_as_registers hostBuild 3
      { protocolVersion := 1, caps := { nbPins := 3, pinsMaskType := [0, 0, 0] },
        pinsState := List.replicate 3 freshPin, failsafe := none } rfl
      [.analogicWrite 1 (-3), .pwm8Write 2 0x155, .pwm8Read 1, .digitalRead 1, .pwm16Read 2,
        .getType 1, .setType 1 7, .analogicRead 1, .getType 1, .getType 0]
      (by decide) with ⟨d₀, c', d', hinit, hrun, _⟩
  exact ⟨d₀, c', d', hinit, hrun⟩

end PinProtocol
