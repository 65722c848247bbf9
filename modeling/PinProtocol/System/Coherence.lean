import PinProtocol.Firmware.Invariant
import PinProtocol.System.Capabilities
import PinProtocol.System.MaskedTypes
import PinProtocol.System.Registers

/-!
# Coherence — the driver's copy of the pins

The driver keeps type and value of every pin, the device does so too, and no message ever compares
them.  `Call.driverPin` and `Call.devicePin` say what one call does to either copy of its pin; from
them it follows which runs keep the types (`typesCoherent_iff`) and the values
(`valuesCoherent_iff`) the same on both sides.
-/

namespace PinProtocol

open Bits Control

/-! ## What a call does to the two copies of its pin -/

namespace Call

/-- The driver's copy `own` after the call, when the pin of the device is `dev` before it. -/
def driverPin (dev own : PinState) : Call → PinState
  | digitalWrite _ val => { own with pinsVal := (BitVec.ofBool val).setWidth 16 }
  | analogicWrite _ val | pwm8Write _ val | pwm16Write _ val => { own with pinsVal := val }
  | digitalRead _ => { own with pinsVal := BitVec.ofNat 16 (dev.pinsVal.toNat % 2 ^ 1) }
  | pwm8Read _ => { own with pinsVal := BitVec.ofNat 16 (dev.pinsVal.toNat % 2 ^ 8) }
  | analogicRead _ | pwm16Read _ =>
      { own with pinsVal := BitVec.ofNat 16 (dev.pinsVal.toNat % 2 ^ 16) }
  | setType _ type => { own with pinsType := type }
  | getType _ => { own with pinsType := BitVec.ofNat 8 (dev.pinsType.toNat % 2 ^ 3) }

/-- The pin of the device after the call. -/
def devicePin (dev : PinState) : Call → PinState
  | digitalWrite _ val =>
      { pinsType := pinTypeDigital
        pinsVal := BitVec.ofNat 16 (((BitVec.ofBool val).setWidth 16 : BitVec 16).toNat % 2 ^ 1) }
  | analogicWrite _ val =>
      { pinsType := pinTypeAnalog16, pinsVal := BitVec.ofNat 16 (val.toNat % 2 ^ 16) }
  | pwm8Write _ val => { pinsType := pinTypePwm8, pinsVal := BitVec.ofNat 16 (val.toNat % 2 ^ 8) }
  | pwm16Write _ val =>
      { pinsType := pinTypePwm16, pinsVal := BitVec.ofNat 16 (val.toNat % 2 ^ 16) }
  | setType _ type => { dev with pinsType := type }
  | _ => dev

end Call

section Ends

variable {b : Build} {nbPins : Nat} {c : Connection} {d : Device}

/-- A call that leaves the device alone, up to the counter of its replies. -/
theorem next_ends (d : Device) (pin : Nat) :
    d.next.conn =
      { d.conn with pinsState := d.conn.pinsState.modify pin fun dev : PinState => dev } := by
  have hid : d.conn.pinsState.modify pin (fun dev => dev) = d.conn.pinsState :=
    List.modify_id ..
  rw [hid]
  rfl

theorem Call.perform_ends (hc : c.pinsState.length = nbPins)
    (hd : d.conn.pinsState.length = nbPins) {call : Call} (hcall : call.InRange nbPins) :
    ∃ out d', call.perform b c d =
        some (out,
          { c with
            pinsState := c.pinsState.modify call.pin
              fun own => call.driverPin (d.conn.pinAt call.pin) own },
          d') ∧
      d'.conn =
        { d.conn with
          pinsState := d.conn.pinsState.modify call.pin fun dev => call.devicePin dev } := by
  have hpin := hcall.1
  -- a write goes to the device with the width of its own type, a read brings that width back
  cases call with
  | digitalWrite pin v =>
      have hwrite := genericWrite_device b c d (show pinTypeDigital.toNat < 8 by decide)
        (show getTypeBitsNb pinTypeDigital = 1 from rfl) (by decide) (hd.symm ▸ hpin)
        (hc.symm ▸ hpin) ((BitVec.ofBool v).setWidth 16)
      exact ⟨_, _, by rw [Call.perform, PinProtocol.digitalWrite, hwrite]; rfl, rfl⟩
  | analogicWrite pin v =>
      have hwrite := genericWrite_device b c d (show pinTypeAnalog16.toNat < 8 by decide)
        (show getTypeBitsNb pinTypeAnalog16 = 16 from rfl) (by decide) (hd.symm ▸ hpin)
        (hc.symm ▸ hpin) v
      exact ⟨_, _, by rw [Call.perform, PinProtocol.analogicWrite, hwrite]; rfl, rfl⟩
  | pwm8Write pin v =>
      have hwrite := genericWrite_device b c d (show pinTypePwm8.toNat < 8 by decide)
        (show getTypeBitsNb pinTypePwm8 = 8 from rfl) (by decide) (hd.symm ▸ hpin)
        (hc.symm ▸ hpin) v
      exact ⟨_, _, by rw [Call.perform, PinProtocol.pwm8Write, hwrite]; rfl, rfl⟩
  | pwm16Write pin v =>
      have hwrite := genericWrite_device b c d (show pinTypePwm16.toNat < 8 by decide)
        (show getTypeBitsNb pinTypePwm16 = 16 from rfl) (by decide) (hd.symm ▸ hpin)
        (hc.symm ▸ hpin) v
      exact ⟨_, _, by rw [Call.perform, PinProtocol.pwm16Write, hwrite]; rfl, rfl⟩
  | digitalRead pin =>
      have hread := genericRead_device b c d (show pinTypeDigital.toNat < 8 by decide)
        (by decide) (hd.symm ▸ hpin) (hc.symm ▸ hpin)
      exact ⟨_, _, by rw [Call.perform, PinProtocol.digitalRead, hread]; rfl, next_ends d _⟩
  | analogicRead pin =>
      have hread := genericRead_device b c d (show pinTypeAnalog16.toNat < 8 by decide)
        (by decide) (hd.symm ▸ hpin) (hc.symm ▸ hpin)
      exact ⟨_, _, by rw [Call.perform, PinProtocol.analogicRead, hread]; rfl, next_ends d _⟩
  | pwm8Read pin =>
      have hread := genericRead_device b c d (show pinTypePwm8.toNat < 8 by decide)
        (by decide) (hd.symm ▸ hpin) (hc.symm ▸ hpin)
      exact ⟨_, _, by rw [Call.perform, PinProtocol.pwm8Read, hread]; rfl, next_ends d _⟩
  | pwm16Read pin =>
      have hread := genericRead_device b c d (show pinTypePwm16.toNat < 8 by decide)
        (by decide) (hd.symm ▸ hpin) (hc.symm ▸ hpin)
      exact ⟨_, _, by rw [Call.perform, PinProtocol.pwm16Read, hread]; rfl, next_ends d _⟩
  | setType pin t =>
      have hset := setType_device b c d (hcall.2 _ rfl) (hd.symm ▸ hpin) (hc.symm ▸ hpin)
      exact ⟨_, _, by rw [Call.perform, hset]; rfl, rfl⟩
  | getType pin =>
      have hget := getType_device b c d (hd.symm ▸ hpin) (hc.symm ▸ hpin)
      exact ⟨_, _, by rw [Call.perform, hget]; rfl, next_ends d _⟩

end Ends

/-! ## Calls that are about types -/

/-- The calls of a run that involves pin types: those on one pin, and `set_type_mask`. -/
inductive TypeCall
  | single (call : Call)
  | setTypeMask (mask : Mask) (types : List (BitVec 16))

namespace TypeCall

def perform (b : Build) (c : Connection) (d : Device) : TypeCall → Option (Connection × Device)
  | single call => (call.perform b c d).map Prod.snd
  | setTypeMask mask types =>
      (PinProtocol.setTypeMask (deviceLink b) c d mask types).map fun r => (r.conn, r.world)

/-- What the caller promises. -/
def InRange (nbPins : Nat) : TypeCall → Prop
  | single call => call.InRange nbPins
  | setTypeMask mask types =>
      nbPins ≤ mask.length ∧ types.length = (usedPins mask nbPins).length ∧
        ∀ t ∈ types, t.toNat < 8

/-- The call puts a type of pin `q` into the driver's cache. -/
def Caches (nbPins q : Nat) : TypeCall → Prop
  | single (.setType pin _) => pin.toNat = q
  | single (.getType pin) => pin.toNat = q
  | single _ => False
  | setTypeMask mask _ => q ∈ usedPins mask nbPins

/-- The pin that the call writes a value to, and the type that it is written with. -/
def writes : TypeCall → Option (Nat × BitVec 8)
  | single (.digitalWrite pin _) => some (pin.toNat, pinTypeDigital)
  | single (.analogicWrite pin _) => some (pin.toNat, pinTypeAnalog16)
  | single (.pwm8Write pin _) => some (pin.toNat, pinTypePwm8)
  | single (.pwm16Write pin _) => some (pin.toNat, pinTypePwm16)
  | _ => none

end TypeCall

/-- Driver and device of a run, with type codes for types. -/
structure TypeState (nbPins : Nat) (c : Connection) (d : Device) : Prop where
  paired : Paired c d
  nbPins_eq : c.nbPins = nbPins
  types : ∀ q < nbPins, (d.conn.pinAt q).pinsType.toNat < 8

/-- What one call does to the types of pin `q`: the driver has `own` before it and `own'` after it,
the device `dev` and `dev'`. -/
structure TypeStep (nbPins : Nat) (call : TypeCall) (q : Nat) (own dev own' dev' : PinState) :
    Prop where
  cached : call.Caches nbPins q → own'.pinsType = dev'.pinsType
  driver : ¬ call.Caches nbPins q → own'.pinsType = own.pinsType
  written : ∀ mode, call.writes = some (q, mode) → dev'.pinsType = mode
  device : ¬ call.Caches nbPins q → (∀ mode, call.writes ≠ some (q, mode)) →
    dev'.pinsType = dev.pinsType
  range : dev'.pinsType.toNat < 8

section TypeSteps

variable {b : Build} {nbPins : Nat} {c c' : Connection} {d d' : Device} {own dev : PinState}

theorem TypeState.length_driver (h : TypeState nbPins c d) : c.pinsState.length = nbPins := by
  rw [h.paired.driver, h.nbPins_eq]

theorem TypeState.length_device (h : TypeState nbPins c d) : d.conn.pinsState.length = nbPins := by
  rw [h.paired.device_length, h.nbPins_eq]

/-- Both ends replace their pins by as many others. -/
theorem Paired.replace (h : Paired c d) {pins pins' : List PinState}
    (hpins : pins.length = c.pinsState.length) (hpins' : pins'.length = d.conn.pinsState.length)
    (hd' : d'.conn = { d.conn with pinsState := pins' }) :
    Paired { c with pinsState := pins } d' where
  same := by
    rw [hd']
    exact h.same
  pos := h.pos
  driver := hpins.trans h.driver
  device := by
    rw [hd']
    exact ⟨hpins'.trans h.device.pinsState, h.device.pinsMaskType, h.device.failsafe⟩

/-- A call, and the pin that it is about. -/
theorem typeStep_self {call : Call} (hcall : call.InRange nbPins) (hdev : dev.pinsType.toNat < 8) :
    TypeStep nbPins (.single call) call.pin own dev (call.driverPin dev own)
      (call.devicePin dev) := by
  cases call with
  -- the mode of the request is the type of the pin at either end
  | digitalWrite | analogicWrite | pwm8Write | pwm16Write =>
      refine ⟨False.elim, fun _ => rfl, ?_, ?_, by simp only [Call.devicePin]; decide⟩
      · rintro mode hmode
        cases hmode
        rfl
      · rintro - hmode
        exact absurd rfl (hmode _)
  -- a read leaves both types as they are
  | digitalRead | analogicRead | pwm8Read | pwm16Read =>
      refine ⟨False.elim, fun _ => rfl, ?_, fun _ _ => rfl, hdev⟩
      rintro mode hmode
      cases hmode
  | setType pin t =>
      refine ⟨fun _ => rfl, fun h => absurd rfl h, ?_, fun h => absurd rfl h, hcall.2 _ rfl⟩
      rintro mode hmode
      cases hmode
  -- three bits hold the type of the device
  | getType pin =>
      have hcode : BitVec.ofNat 8 (dev.pinsType.toNat % 2 ^ 3) = dev.pinsType := by
        rw [Nat.mod_eq_of_lt (show dev.pinsType.toNat < 2 ^ 3 from hdev), BitVec.ofNat_toNat,
          BitVec.setWidth_eq]
      refine ⟨fun _ => hcode, fun h => absurd rfl h, ?_, fun h => absurd rfl h, hdev⟩
      rintro mode hmode
      cases hmode

/-- A call, and any other pin. -/
theorem typeStep_other {call : Call} {q : Nat} (hq : q ≠ call.pin) (hdev : dev.pinsType.toNat < 8) :
    TypeStep nbPins (.single call) q own dev own dev := by
  have hcaches : ¬ (TypeCall.single call).Caches nbPins q := by
    intro h
    cases call <;> first | exact h | exact hq h.symm
  have hwrites : ∀ mode, (TypeCall.single call).writes ≠ some (q, mode) := by
    intro mode h
    cases call <;> cases h <;> exact hq rfl
  exact ⟨fun h => absurd h hcaches, fun _ => rfl, fun mode h => absurd h (hwrites mode),
    fun _ _ => rfl, hdev⟩

/-- One call on one pin: it goes through, and this is what it does to every pin. -/
theorem Call.perform_types (h : TypeState nbPins c d) {call : Call} (hcall : call.InRange nbPins) :
    ∃ c' d', (TypeCall.single call).perform b c d = some (c', d') ∧ Paired c' d' ∧
      c'.nbPins = nbPins ∧ ∀ q < nbPins,
        TypeStep nbPins (.single call) q (c.pinAt q) (d.conn.pinAt q) (c'.pinAt q)
          (d'.conn.pinAt q) := by
  have hpin := hcall.1
  rcases Call.perform_ends (b := b) h.length_driver h.length_device hcall with
    ⟨out, d', hperform, hd'⟩
  refine ⟨_, d', by rw [TypeCall.perform, hperform]; rfl,
    h.paired.replace (List.length_modify ..) (List.length_modify ..) hd', h.nbPins_eq,
    fun q hq => ?_⟩
  have hown := pinAt_modify (c := c) (q := q)
    (fun own => call.driverPin (d.conn.pinAt call.pin) own) (h.length_driver.symm ▸ hpin)
  have hdev := pinAt_modify (c := d.conn) (q := q) (fun dev => call.devicePin dev)
    (h.length_device.symm ▸ hpin)
  rw [hd', hown, hdev]
  by_cases hqi : q = call.pin
  · subst hqi
    rw [if_pos rfl, if_pos rfl]
    exact typeStep_self hcall (h.types _ hq)
  · rw [if_neg hqi, if_neg hqi]
    exact typeStep_other hqi (h.types q hq)

/-- A masked type change that the device has answered. -/
theorem setTypeMask_types (h : TypeState nbPins c d) {mask : Mask} {types : List (BitVec 16)}
    (hcall : (TypeCall.setTypeMask mask types).InRange nbPins)
    (hperform : (TypeCall.setTypeMask mask types).perform b c d = some (c', d')) :
    Paired c' d' ∧ c'.nbPins = nbPins ∧ ∀ q < nbPins,
      TypeStep nbPins (.setTypeMask mask types) q (c.pinAt q) (d.conn.pinAt q) (c'.pinAt q)
        (d'.conn.pinAt q) := by
  obtain ⟨hlen, hcount, htypes⟩ := hcall
  have hnb := h.nbPins_eq
  rw [← hnb] at hlen hcount
  -- a request longer than the buffer of the device is not answered
  by_cases hframe : (c.nbPins + 3 * types.length - 1) / 8 + 5 ≤ b.buffSize
  · rw [TypeCall.perform, setTypeMask_device h.paired hlen hcount htypes hframe] at hperform
    cases hperform
    refine ⟨h.paired.replace (length_scatter ..) (length_scatter ..) rfl, hnb, fun q hq => ?_⟩
    by_cases hmem : q ∈ usedPins mask c.nbPins
    · -- a pin of the mask takes the same type at either end
      rcases List.getElem_of_mem hmem with ⟨n, hn, rfl⟩
      have hnd := nodup_usedPins mask c.nbPins
      have hown := pinAt_scatter (c := c) hnd
        (fun i hi => by rw [h.paired.driver]; exact usedPins_lt hi) (typeUpdate types) hn
      have hdev := pinAt_scatter (c := d.conn) hnd
        (fun i hi => by rw [h.paired.device_length]; exact usedPins_lt hi) (typeUpdate types) hn
      have hcached : (TypeCall.setTypeMask mask types).Caches nbPins
          (usedPins mask c.nbPins)[n] := hnb ▸ hmem
      refine ⟨fun _ => ?_, fun hno => absurd hcached hno, ?_, fun hno => absurd hcached hno, ?_⟩
      · calc _ = (types.getD n 0).setWidth 8 := congrArg PinState.pinsType hown
          _ = _ := (congrArg PinState.pinsType hdev).symm
      · rintro mode hmode
        cases hmode
      · have htype : ((types.getD n 0).setWidth 8).toNat < 8 := by
          have hidx : n < types.length := by omega
          have hlt := htypes types[n] (List.getElem_mem hidx)
          rw [List.getD_eq_getElem _ _ hidx, BitVec.toNat_setWidth]
          omega
        have hdevType := congrArg PinState.pinsType hdev
        exact (congrArg BitVec.toNat hdevType).symm ▸ htype
    · -- any other pin keeps its own types
      have hown := pinAt_scatter_of_notMem (c := c) hmem (typeUpdate types)
      have hdev := pinAt_scatter_of_notMem (c := d.conn) hmem (typeUpdate types)
      have hnot : ¬ (TypeCall.setTypeMask mask types).Caches nbPins q := fun hq' =>
        hmem (hnb.symm ▸ hq')
      refine ⟨fun hyes => absurd hyes hnot, fun _ => congrArg PinState.pinsType hown, ?_,
        fun _ _ => congrArg PinState.pinsType hdev, ?_⟩
      · rintro mode hmode
        cases hmode
      · exact (congrArg (fun x : PinState => x.pinsType.toNat) hdev).symm ▸ h.types q hq
  · rw [TypeCall.perform, setTypeMask_long h.paired hlen hcount (Nat.lt_of_not_le hframe)]
      at hperform
    cases hperform

/-- One call of either kind that the device has answered. -/
theorem TypeCall.perform_types (h : TypeState nbPins c d) {call : TypeCall}
    (hcall : call.InRange nbPins) (hperform : call.perform b c d = some (c', d')) :
    TypeState nbPins c' d' ∧ ∀ q < nbPins,
      TypeStep nbPins call q (c.pinAt q) (d.conn.pinAt q) (c'.pinAt q) (d'.conn.pinAt q) := by
  cases call with
  | single call =>
      rcases Call.perform_types (b := b) h hcall with ⟨c₁, d₁, hrun, hpaired, hnb, hsteps⟩
      rw [hperform] at hrun
      cases hrun
      exact ⟨⟨hpaired, hnb, fun q hq => (hsteps q hq).range⟩, hsteps⟩
  | setTypeMask mask types =>
      obtain ⟨hpaired, hnb, hsteps⟩ := setTypeMask_types h hcall hperform
      exact ⟨⟨hpaired, hnb, fun q hq => (hsteps q hq).range⟩, hsteps⟩

end TypeSteps

/-! ## Runs that are about types -/

def runTypeCalls (b : Build) (calls : List TypeCall) (c : Connection) (d : Device) :
    Option (Connection × Device) :=
  calls.foldlM (fun st call => call.perform b st.1 st.2) (c, d)

theorem runTypeCalls_concat (b : Build) (calls : List TypeCall) (call : TypeCall) (c : Connection)
    (d : Device) :
    runTypeCalls b (calls ++ [call]) c d =
      (runTypeCalls b calls c d).bind fun st => call.perform b st.1 st.2 := by
  rw [runTypeCalls, List.foldlM_append]
  simp [runTypeCalls]

/-- Some call has put a type of pin `q` into the driver's cache. -/
def TypeCached (nbPins q : Nat) (calls : List TypeCall) : Prop :=
  ∃ call ∈ calls, call.Caches nbPins q

/-- Both ends have the same type for every pin whose type the driver has cached. -/
def SameTypes (nbPins : Nat) (past : List TypeCall) (c : Connection) (d : Device) : Prop :=
  ∀ q < nbPins, TypeCached nbPins q past → (c.pinAt q).pinsType = (d.conn.pinAt q).pinsType

/-- They have them after every call of a run. -/
def TypesCoherent (b : Build) (nbPins : Nat) (calls : List TypeCall) (c : Connection)
    (d : Device) : Prop :=
  ∀ before after c' d', calls = before ++ after → runTypeCalls b before c d = some (c', d') →
    SameTypes nbPins before c' d'

/-- Every write to a pin whose type is cached uses the type that the device has for this pin. -/
def WritesKeepTypes (b : Build) (nbPins : Nat) (calls : List TypeCall) (c : Connection)
    (d : Device) : Prop :=
  ∀ before call after c' d', calls = before ++ call :: after →
    runTypeCalls b before c d = some (c', d') →
    ∀ q mode, call.writes = some (q, mode) → TypeCached nbPins q before →
      (d'.conn.pinAt q).pinsType = mode

section TypeRuns

variable {b : Build} {nbPins : Nat} {c c' : Connection} {d d' : Device} {calls : List TypeCall}

theorem typeCached_concat {q : Nat} {call : TypeCall} :
    TypeCached nbPins q (calls ++ [call]) ↔
      TypeCached nbPins q calls ∨ call.Caches nbPins q := by
  constructor
  · rintro ⟨x, hx, hcaches⟩
    rcases List.mem_append.mp hx with hx | hx
    · exact .inl ⟨x, hx, hcaches⟩
    · rw [List.mem_singleton] at hx
      exact .inr (hx ▸ hcaches)
  · rintro (⟨x, hx, hcaches⟩ | hcaches)
    · exact ⟨x, List.mem_append_left _ hx, hcaches⟩
    · exact ⟨call, List.mem_append_right _ List.mem_cons_self, hcaches⟩

theorem runTypeCalls_state (h : TypeState nbPins c d) (hcalls : ∀ call ∈ calls, call.InRange nbPins)
    (hrun : runTypeCalls b calls c d = some (c', d')) : TypeState nbPins c' d' := by
  induction calls using List.reverseRecOn generalizing c' d' with
  | nil =>
      cases hrun
      exact h
  | append_singleton calls call ih =>
      rw [runTypeCalls_concat] at hrun
      rcases Option.bind_eq_some_iff.mp hrun with ⟨⟨c₁, d₁⟩, hbefore, hlast⟩
      have hmid := ih (fun x hx => hcalls x (List.mem_append_left _ hx)) hbefore
      exact (TypeCall.perform_types hmid
        (hcalls call (List.mem_append_right _ List.mem_cons_self)) hlast).1

/-- A call that writes is a call on one pin of the device, and goes through. -/
theorem TypeCall.perform_of_writes (h : TypeState nbPins c d) {call : TypeCall}
    (hcall : call.InRange nbPins) {q : Nat} {mode : BitVec 8}
    (hwrites : call.writes = some (q, mode)) :
    q < nbPins ∧ ¬ call.Caches nbPins q ∧ ∃ c' d', call.perform b c d = some (c', d') := by
  cases call with
  | setTypeMask mask types => cases hwrites
  | single call =>
      rcases Call.perform_types (b := b) h hcall with ⟨c', d', hperform, _⟩
      have hpin := hcall.1
      refine ⟨?_, ?_, c', d', hperform⟩
      · cases call <;> cases hwrites <;> exact hpin
      · intro hcaches
        cases call <;> first | exact hcaches | cases hwrites

/-- One more call keeps the types the same, unless it is a write with another type. -/
theorem SameTypes.concat (h : TypeState nbPins c d) (hsame : SameTypes nbPins calls c d)
    {call : TypeCall} (hcall : call.InRange nbPins)
    (hperform : call.perform b c d = some (c', d'))
    (hkeep : ∀ q mode, call.writes = some (q, mode) → TypeCached nbPins q calls →
      (d.conn.pinAt q).pinsType = mode) : SameTypes nbPins (calls ++ [call]) c' d' := by
  intro q hq hcached
  have hstep := (TypeCall.perform_types h hcall hperform).2 q hq
  by_cases hcaches : call.Caches nbPins q
  · exact hstep.cached hcaches
  · have hbefore := (typeCached_concat.mp hcached).resolve_right hcaches
    have hold := hsame q hq hbefore
    by_cases hwrites : ∃ mode, call.writes = some (q, mode)
    · obtain ⟨mode, hmode⟩ := hwrites
      calc (c'.pinAt q).pinsType = (c.pinAt q).pinsType := hstep.driver hcaches
        _ = (d.conn.pinAt q).pinsType := hold
        _ = mode := hkeep q mode hmode hbefore
        _ = (d'.conn.pinAt q).pinsType := (hstep.written mode hmode).symm
    · have hnone : ∀ mode, call.writes ≠ some (q, mode) := fun mode hmode => hwrites ⟨mode, hmode⟩
      calc (c'.pinAt q).pinsType = (c.pinAt q).pinsType := hstep.driver hcaches
        _ = (d.conn.pinAt q).pinsType := hold
        _ = (d'.conn.pinAt q).pinsType := (hstep.device hcaches hnone).symm

theorem typesCoherent_of_writes (h : TypeState nbPins c d)
    (hcalls : ∀ call ∈ calls, call.InRange nbPins) (hkeep : WritesKeepTypes b nbPins calls c d) :
    TypesCoherent b nbPins calls c d := by
  intro before after c' d' hsplit hrun
  induction before using List.reverseRecOn generalizing after c' d' with
  | nil =>
      rintro q _ ⟨x, hx, _⟩
      cases hx
  | append_singleton before call ih =>
      have hsplit' : calls = before ++ call :: after := by rw [hsplit, List.append_assoc]; rfl
      have hmem : ∀ x ∈ before ++ [call], x ∈ calls := by
        intro x hx
        rw [hsplit]
        exact List.mem_append_left _ hx
      -- the state before the last call is reached by the calls before it
      rw [runTypeCalls_concat] at hrun
      rcases Option.bind_eq_some_iff.mp hrun with ⟨⟨c₁, d₁⟩, hbefore, hlast⟩
      have hmid := runTypeCalls_state h
        (fun x hx => hcalls x (hmem x (List.mem_append_left _ hx))) hbefore
      exact (ih (call :: after) c₁ d₁ hsplit' hbefore).concat hmid
        (hcalls call (hmem call (List.mem_append_right _ List.mem_cons_self))) hlast
        (hkeep before call after c₁ d₁ hsplit' hbefore)

theorem writesKeepTypes_of_coherent (h : TypeState nbPins c d)
    (hcalls : ∀ call ∈ calls, call.InRange nbPins) (hsame : TypesCoherent b nbPins calls c d) :
    WritesKeepTypes b nbPins calls c d := by
  intro before call after c' d' hsplit hrun q mode hwrites hcached
  have hmem : ∀ x ∈ before ++ [call], x ∈ calls := by
    intro x hx
    rw [hsplit]
    rcases List.mem_append.mp hx with hx | hx
    · exact List.mem_append_left _ hx
    · rw [List.mem_singleton.mp hx]
      exact List.mem_append_right _ List.mem_cons_self
  have hcall := hcalls call (hmem call (List.mem_append_right _ List.mem_cons_self))
  have hstate := runTypeCalls_state h
    (fun x hx => hcalls x (hmem x (List.mem_append_left _ hx))) hrun
  rcases TypeCall.perform_of_writes (b := b) hstate hcall hwrites with
    ⟨hq, hcaches, c₂, d₂, hperform⟩
  have hstep := (TypeCall.perform_types hstate hcall hperform).2 q hq
  have hrun' : runTypeCalls b (before ++ [call]) c d = some (c₂, d₂) := by
    rw [runTypeCalls_concat, hrun, Option.bind_some, hperform]
  -- the two ends agree before the write and after it, and the driver keeps its type
  have hold := hsame before (call :: after) c' d' hsplit hrun q hq hcached
  have hnew := hsame (before ++ [call]) after c₂ d₂ (by rw [hsplit, List.append_assoc]; rfl) hrun' q
    hq (typeCached_concat.mpr (.inl hcached))
  calc (d'.conn.pinAt q).pinsType = (c'.pinAt q).pinsType := hold.symm
    _ = (c₂.pinAt q).pinsType := (hstep.driver hcaches).symm
    _ = (d₂.conn.pinAt q).pinsType := hnew
    _ = mode := hstep.written mode hwrites

end TypeRuns

/-- What `get_caps` leaves behind. -/
theorem typeState_of_getCaps {b : Build} {nbPins : BitVec 8} {c : Connection} {d : Device}
    {r : Done Device Unit} (hd : Reachable b nbPins d) (hpos : 0 < nbPins.toNat)
    (hcaps : getCaps (deviceLink b) c d = some r) : TypeState nbPins.toNat r.conn r.world := by
  have hinv := hd.invariant
  have hwf := hd.ready.wellFormed
  have hnb : d.conn.nbPins = nbPins.toNat := by rw [Connection.nbPins, hinv.capsNbPins]
  rw [getCaps_device b c hwf] at hcaps
  cases hcaps
  refine ⟨⟨rfl, ?_, List.length_replicate .., hwf⟩, hnb, fun q hq => ?_⟩
  · show 0 < d.conn.nbPins
    rw [hnb]
    exact hpos
  · have hlt : q < d.conn.pinsState.length := by
      rw [hinv.pinsState]
      exact hq
    have hpin : d.conn.pinAt q = d.conn.pinsState[q] := List.getD_eq_getElem _ _ hlt
    show (d.conn.pinAt q).pinsType.toNat < 8
    rw [hpin]
    exact hinv.pinsType _ (List.getElem_mem hlt)

/-- After `get_caps`, all runs of calls keep the cached types equal to those of the device in which
every write to a pin with a cached type uses this type, and no others. -/
theorem typesCoherent_iff {b : Build} {nbPins : BitVec 8} {c : Connection} {d : Device}
    {r : Done Device Unit} (hd : Reachable b nbPins d)
    (hcaps : getCaps (deviceLink b) c d = some r) {calls : List TypeCall}
    (hcalls : ∀ call ∈ calls, call.InRange nbPins.toNat) :
    TypesCoherent b nbPins.toNat calls r.conn r.world ↔
      WritesKeepTypes b nbPins.toNat calls r.conn r.world := by
  rcases Nat.eq_zero_or_pos nbPins.toNat with hzero | hpos
  · -- without pins there is nothing to cache
    rw [hzero] at hcalls ⊢
    refine iff_of_true (fun _ _ _ _ _ _ q hq => absurd hq (Nat.not_lt_zero q)) ?_
    intro before call after c' d' hsplit _ q mode hwrites _
    have hcall := hcalls call (hsplit ▸ List.mem_append_right _ List.mem_cons_self)
    cases call with
    | setTypeMask mask types => cases hwrites
    | single call => exact absurd hcall.1 (Nat.not_lt_zero _)
  · have hstate := typeState_of_getCaps hd hpos hcaps
    exact ⟨writesKeepTypes_of_coherent hstate hcalls, typesCoherent_of_writes hstate hcalls⟩

/-- A pin gets a type from a mask and is written with it; another one is asked for its type. -/
theorem typesCoherent_iff_masked :
    let d := initialDevice hostBuild 3#8
    let calls : List TypeCall :=
      [.setTypeMask [false, true, true] [3#16, 2#16],
        .single (.pwm8Write 1 200), .single (.getType 0), .single (.digitalRead 2)]
    ∃ r, getCaps (deviceLink hostBuild) d.conn d = some r ∧
      TypesCoherent hostBuild (3#8).toNat calls r.conn r.world := by
  intro d calls
  have hd : Reachable hostBuild 3#8 d := .init (initDeviceContent_eq hostBuild 3#8)
  obtain ⟨r, hcaps⟩ : ∃ r, getCaps (deviceLink hostBuild) d.conn d = some r :=
    ⟨_, getCaps_device hostBuild d.conn hd.ready.wellFormed⟩
  have hcalls : ∀ call ∈ calls, call.InRange (3#8).toNat := by
    intro call hcall
    simp only [calls, List.mem_cons, List.not_mem_nil, or_false] at hcall
    rcases hcall with rfl | rfl | rfl | rfl
    · exact ⟨by decide, by decide +kernel, by simp⟩
    · exact ⟨by decide, by decide⟩
    · exact ⟨by decide, by decide⟩
    · exact ⟨by decide, by decide⟩
  -- the device has given pin 1 the type of the mask when the pin is written
  have hmode : ((getCaps (deviceLink hostBuild) d.conn d).bind fun r =>
      (runTypeCalls hostBuild [.setTypeMask [false, true, true] [3#16, 2#16]] r.conn r.world).map
        fun s => (s.2.conn.pinAt 1).pinsType) = some pinTypePwm8 := by
    decide +kernel
  have hkeep : WritesKeepTypes hostBuild (3#8).toNat calls r.conn r.world := by
    intro before call after c' d' hsplit hrun q mode hwrites _
    -- of the four calls only the second one writes a pin
    rcases before with _ | ⟨x, _ | ⟨y, _ | ⟨z, _ | ⟨w, before⟩⟩⟩⟩
    · obtain ⟨rfl, -⟩ := List.cons.inj hsplit
      cases hwrites
    · obtain ⟨rfl, hrest⟩ := List.cons.inj hsplit
      obtain ⟨rfl, -⟩ := List.cons.inj hrest
      cases hwrites
      rw [hcaps, Option.bind_some, hrun, Option.map_some, Option.some_inj] at hmode
      exact hmode
    · obtain ⟨rfl, h₁⟩ := List.cons.inj hsplit
      obtain ⟨rfl, h₂⟩ := List.cons.inj h₁
      obtain ⟨rfl, -⟩ := List.cons.inj h₂
      cases hwrites
    · obtain ⟨rfl, h₁⟩ := List.cons.inj hsplit
      obtain ⟨rfl, h₂⟩ := List.cons.inj h₁
      obtain ⟨rfl, h₃⟩ := List.cons.inj h₂
      obtain ⟨rfl, -⟩ := List.cons.inj h₃
      cases hwrites
    · simp [calls] at hsplit
  exact ⟨r, hcaps, (typesCoherent_iff hd hcaps hcalls).mpr hkeep⟩

/-- A digital write to a pin that the driver has made a PWM pin. -/
theorem not_typesCoherent_digitalWrite :
    let d := initialDevice hostBuild 2#8
    let calls : List TypeCall :=
      [.single (.setType 1 pinTypePwm8), .single (.digitalWrite 1 true)]
    ∃ r, getCaps (deviceLink hostBuild) d.conn d = some r ∧
      ¬ TypesCoherent hostBuild (2#8).toNat calls r.conn r.world := by
  intro d calls
  obtain ⟨r, hcaps⟩ : ∃ r, getCaps (deviceLink hostBuild) d.conn d = some r :=
    ⟨_, getCaps_device hostBuild d.conn (initialDevice_wellFormed hostBuild 2#8)⟩
  refine ⟨r, hcaps, fun hsame => ?_⟩
  have hrun : ((getCaps (deviceLink hostBuild) d.conn d).bind fun r =>
      (runTypeCalls hostBuild calls r.conn r.world).map fun s =>
        ((s.1.pinAt 1).pinsType, (s.2.conn.pinAt 1).pinsType)) =
      some (pinTypePwm8, pinTypeDigital) := by
    decide +kernel
  rw [hcaps, Option.bind_some] at hrun
  obtain ⟨s, hcalls, hpair⟩ := Option.map_eq_some_iff.mp hrun
  obtain ⟨hdriver, hdevice⟩ := Prod.mk.inj hpair
  have hcached : TypeCached (2#8).toNat 1 calls := ⟨_, List.mem_cons_self, rfl⟩
  have htypes := hsame calls [] s.1 s.2 (List.append_nil calls).symm hcalls 1 (by decide) hcached
  have heq : pinTypePwm8 = pinTypeDigital :=
    calc pinTypePwm8 = (s.1.pinAt 1).pinsType := hdriver.symm
      _ = (s.2.conn.pinAt 1).pinsType := htypes
      _ = pinTypeDigital := hdevice
  exact absurd heq (by decide)

/-! ## Runs that are about values -/

namespace Call

/-- The type that the call writes its pin with. -/
def written : Call → Option (BitVec 8)
  | digitalWrite _ _ => some pinTypeDigital
  | analogicWrite _ _ => some pinTypeAnalog16
  | pwm8Write _ _ => some pinTypePwm8
  | pwm16Write _ _ => some pinTypePwm16
  | _ => none

/-- The type that the call reads its pin with. -/
def readAs : Call → Option (BitVec 8)
  | digitalRead _ => some pinTypeDigital
  | analogicRead _ => some pinTypeAnalog16
  | pwm8Read _ => some pinTypePwm8
  | pwm16Read _ => some pinTypePwm16
  | _ => none

end Call

/-- The type that pin `q` was last written with. -/
def lastMode (q : Nat) (calls : List Call) : Option (BitVec 8) :=
  latest (fun call : Call => if call.pin = q then call.written.map some else none) none calls

/-- A run of writes and reads in which a pin is read only as what it was last written with. -/
def MatchedReads (calls : List Call) : Prop :=
  ∀ before call after, calls = before ++ call :: after →
    (∃ mode, call.written = some mode) ∨
      ∃ mode, call.readAs = some mode ∧ lastMode call.pin before = some mode

/-- Both ends have the same value for every pin that a call was about. -/
def SameValues (nbPins : Nat) (past : List Call) (c : Connection) (d : Device) : Prop :=
  ∀ q < nbPins, (∃ call ∈ past, call.pin = q) → (c.pinAt q).pinsVal = (d.conn.pinAt q).pinsVal

/-- They have them after every call of a run. -/
def ValuesCoherent (b : Build) (nbPins : Nat) (calls : List Call) (c : Connection)
    (d : Device) : Prop :=
  ∀ before after out c' d', calls = before ++ after → runCalls b before c d = some (out, c', d') →
    SameValues nbPins before c' d'

section ValueRuns

variable {b : Build} {nbPins : Nat} {c c' : Connection} {d d' : Device} {calls : List Call}

theorem lastMode_concat (q : Nat) (calls : List Call) (call : Call) :
    lastMode q (calls ++ [call]) =
      if call.pin = q then (call.written.map some).getD (lastMode q calls)
      else lastMode q calls := by
  rw [lastMode, latest_concat]
  by_cases hq : call.pin = q
  · rw [if_pos hq, if_pos hq]
    rfl
  · rw [if_neg hq, if_neg hq]
    rfl

/-- One call, pin by pin. -/
theorem Call.perform_pins (hc : c.pinsState.length = nbPins)
    (hd : d.conn.pinsState.length = nbPins) {call : Call} (hcall : call.InRange nbPins) :
    ∃ out c' d', call.perform b c d = some (out, c', d') ∧ c'.pinsState.length = nbPins ∧
      d'.conn.pinsState.length = nbPins ∧
      ∀ q, c'.pinAt q =
          (if q = call.pin then call.driverPin (d.conn.pinAt call.pin) (c.pinAt q)
          else c.pinAt q) ∧
        d'.conn.pinAt q =
          if q = call.pin then call.devicePin (d.conn.pinAt q) else d.conn.pinAt q := by
  rcases Call.perform_ends (b := b) hc hd hcall with ⟨out, d', hperform, hd'⟩
  refine ⟨out, _, d', hperform, (List.length_modify ..).trans hc, ?_, fun q => ⟨?_, ?_⟩⟩
  · rw [hd']
    exact (List.length_modify ..).trans hd
  · exact pinAt_modify (fun own => call.driverPin (d.conn.pinAt call.pin) own)
      (hc.symm ▸ hcall.1)
  · rw [hd']
    exact pinAt_modify (fun dev => call.devicePin dev) (hd.symm ▸ hcall.1)

/-- A call on one pin that is in range always goes through. -/
theorem runCalls_ends (hc : c.pinsState.length = nbPins) (hd : d.conn.pinsState.length = nbPins)
    (hcalls : ∀ call ∈ calls, call.InRange nbPins) :
    ∃ out c' d', runCalls b calls c d = some (out, c', d') ∧ c'.pinsState.length = nbPins ∧
      d'.conn.pinsState.length = nbPins := by
  induction calls using List.reverseRecOn with
  | nil => exact ⟨[], c, d, rfl, hc, hd⟩
  | append_singleton calls call ih =>
      rcases ih fun x hx => hcalls x (List.mem_append_left _ hx) with ⟨out, c₁, d₁, hrun, hc₁, hd₁⟩
      rcases Call.perform_pins (b := b) hc₁ hd₁
        (hcalls call (List.mem_append_right _ List.mem_cons_self)) with
        ⟨o, c₂, d₂, hperform, hc₂, hd₂, _⟩
      refine ⟨out ++ [o], c₂, d₂, ?_, hc₂, hd₂⟩
      rw [runCalls_concat, hrun, Option.bind_some, hperform]
      rfl

/-- What both ends know about a pin that was last written as `mode`. -/
structure ValueKnown (mode : BitVec 8) (own dev : PinState) : Prop where
  same : own.pinsVal = dev.pinsVal
  range : dev.pinsVal.toNat < 2 ^ getTypeBitsNb mode

/-- A write whose value has no more bits than its type. -/
theorem valueKnown_write {call : Call} {mode : BitVec 8} (hwritten : call.written = some mode)
    (hbyte : ∀ pin val, call = .pwm8Write pin val → val.toNat < 2 ^ 8) (own dev : PinState) :
    ValueKnown mode (call.driverPin dev own) (call.devicePin dev) := by
  have hfull : ∀ v : BitVec 16, BitVec.ofNat 16 (v.toNat % 2 ^ 16) = v := by
    intro v
    rw [Nat.mod_eq_of_lt v.isLt, BitVec.ofNat_toNat, BitVec.setWidth_eq]
  cases call with
  | digitalWrite pin v =>
      cases hwritten
      cases v <;> exact ⟨rfl, by simp only [Call.devicePin]; decide⟩
  | analogicWrite pin v =>
      cases hwritten
      exact ⟨(hfull v).symm, (BitVec.ofNat 16 (v.toNat % 2 ^ 16)).isLt⟩
  | pwm8Write pin v =>
      cases hwritten
      have hlt := hbyte pin v rfl
      have hval : BitVec.ofNat 16 (v.toNat % 2 ^ 8) = v := by
        rw [Nat.mod_eq_of_lt hlt, BitVec.ofNat_toNat, BitVec.setWidth_eq]
      exact ⟨hval.symm, by simp only [Call.devicePin]; rw [hval]; exact hlt⟩
  | pwm16Write pin v =>
      cases hwritten
      exact ⟨(hfull v).symm, (BitVec.ofNat 16 (v.toNat % 2 ^ 16)).isLt⟩
  | digitalRead | analogicRead | pwm8Read | pwm16Read | setType | getType => cases hwritten

/-- A read as what the pin was last written with. -/
theorem valueKnown_read {call : Call} {mode : BitVec 8} (hread : call.readAs = some mode)
    {own dev : PinState} (h : ValueKnown mode own dev) :
    ValueKnown mode (call.driverPin dev own) (call.devicePin dev) := by
  have hval : BitVec.ofNat 16 (dev.pinsVal.toNat % 2 ^ getTypeBitsNb mode) = dev.pinsVal := by
    rw [Nat.mod_eq_of_lt h.range, BitVec.ofNat_toNat, BitVec.setWidth_eq]
  cases call with
  | digitalRead | analogicRead | pwm8Read | pwm16Read =>
      cases hread
      exact ⟨hval, h.range⟩
  | digitalWrite | analogicWrite | pwm8Write | pwm16Write | setType | getType => cases hread

/-- After a run of matched calls whose 8-bit values are bytes, both ends know every pin that was
written. -/
theorem runCalls_known (hc : c.pinsState.length = nbPins) (hd : d.conn.pinsState.length = nbPins)
    (hcalls : ∀ call ∈ calls, call.InRange nbPins) (hmatched : MatchedReads calls)
    (hbytes : ∀ pin val, Call.pwm8Write pin val ∈ calls → val.toNat < 2 ^ 8)
    {out : List (Option Nat)} (hrun : runCalls b calls c d = some (out, c', d')) :
    (∀ q < nbPins, ∀ mode, lastMode q calls = some mode →
      ValueKnown mode (c'.pinAt q) (d'.conn.pinAt q)) ∧
    ∀ call ∈ calls, ∃ mode, lastMode call.pin calls = some mode := by
  induction calls using List.reverseRecOn generalizing out c' d' with
  | nil =>
      refine ⟨fun q _ mode hmode => ?_, fun call hcall => ?_⟩
      · cases hmode
      · cases hcall
  | append_singleton calls call ih =>
      have hbefore : ∀ x ∈ calls, x.InRange nbPins :=
        fun x hx => hcalls x (List.mem_append_left _ hx)
      have hcall : call.InRange nbPins := hcalls call (List.mem_append_right _ List.mem_cons_self)
      have hmatchedBefore : MatchedReads calls := by
        intro before x after hsplit
        refine hmatched before x (after ++ [call]) ?_
        rw [hsplit, List.append_assoc]
        rfl
      rcases runCalls_ends (b := b) hc hd hbefore with ⟨out₁, c₁, d₁, hrun₁, hc₁, hd₁⟩
      have hknown := ih hbefore hmatchedBefore
        (fun pin val hmem => hbytes pin val (List.mem_append_left _ hmem)) hrun₁
      rcases Call.perform_pins (b := b) hc₁ hd₁ hcall with ⟨o, c₂, d₂, hperform, _, _, hpins⟩
      rw [runCalls_concat, hrun₁, Option.bind_some, hperform] at hrun
      cases hrun
      -- the last call decides what is known about its own pin
      have hself : ∃ mode, lastMode call.pin (calls ++ [call]) = some mode ∧
          ValueKnown mode (call.driverPin (d₁.conn.pinAt call.pin) (c₁.pinAt call.pin))
            (call.devicePin (d₁.conn.pinAt call.pin)) := by
        rcases hmatched calls call [] rfl with ⟨mode, hwritten⟩ | ⟨mode, hread, hlast⟩
        · refine ⟨mode, ?_, valueKnown_write hwritten (fun pin val heq => ?_) _ _⟩
          · rw [lastMode_concat, if_pos rfl, hwritten]
            rfl
          · exact hbytes pin val (heq ▸ List.mem_append_right _ List.mem_cons_self)
        · refine ⟨mode, ?_, valueKnown_read hread (hknown.1 _ hcall.1 mode hlast)⟩
          have hnone : call.written = none := by
            cases call <;> first | rfl | cases hread
          rw [lastMode_concat, if_pos rfl, hnone, hlast]
          rfl
      refine ⟨fun q hq mode hmode => ?_, fun x hx => ?_⟩
      · rw [(hpins q).1, (hpins q).2]
        by_cases hqi : q = call.pin
        · subst hqi
          obtain ⟨mode', hmode', hvalue⟩ := hself
          rw [hmode] at hmode'
          cases hmode'
          rw [if_pos rfl, if_pos rfl]
          exact hvalue
        · rw [if_neg hqi, if_neg hqi]
          rw [lastMode_concat, if_neg fun h => hqi h.symm] at hmode
          exact hknown.1 q hq mode hmode
      · by_cases hpin : call.pin = x.pin
        · obtain ⟨mode, hmode, _⟩ := hself
          exact ⟨mode, hpin ▸ hmode⟩
        · have hx' : x ∈ calls := by
            rcases List.mem_append.mp hx with hx | hx
            · exact hx
            · rw [List.mem_singleton] at hx
              exact absurd (congrArg Call.pin hx.symm) hpin
          rw [lastMode_concat, if_neg hpin]
          exact hknown.2 x hx'

/-- Calls on single pins keep the cached values equal to those of the device, after every one of
them, if and only if every `pwm8_write` is given a value that fits a byte. -/
theorem valuesCoherent_iff (b : Build) (hc : c.pinsState.length = nbPins)
    (hd : d.conn.pinsState.length = nbPins) (hcalls : ∀ call ∈ calls, call.InRange nbPins)
    (hmatched : MatchedReads calls) :
    ValuesCoherent b nbPins calls c d ↔
      ∀ pin val, Call.pwm8Write pin val ∈ calls → val.toNat < 2 ^ 8 := by
  constructor
  · -- the run that ends with the write leaves val in the driver, its low byte in the device
    intro hsame pin val hmem
    rcases List.append_of_mem hmem with ⟨before, after, hsplit⟩
    have hin : ∀ x ∈ before, x ∈ calls := by
      intro x hx
      rw [hsplit]
      exact List.mem_append_left _ hx
    have hcall := hcalls _ hmem
    rcases runCalls_ends (b := b) hc hd fun x hx => hcalls x (hin x hx) with
      ⟨out, c₁, d₁, hrun, hc₁, hd₁⟩
    rcases Call.perform_pins (b := b) hc₁ hd₁ hcall with ⟨o, c₂, d₂, hperform, _, _, hpins⟩
    have hrun' : runCalls b (before ++ [.pwm8Write pin val]) c d = some (out ++ [o], c₂, d₂) := by
      rw [runCalls_concat, hrun, Option.bind_some, hperform]
      rfl
    have hvals := hsame (before ++ [.pwm8Write pin val]) after _ c₂ d₂
      (by rw [hsplit, List.append_assoc]; rfl) hrun' pin.toNat hcall.1
      ⟨_, List.mem_append_right _ List.mem_cons_self, rfl⟩
    obtain ⟨hown, hdev⟩ := hpins pin.toNat
    rw [hown, hdev] at hvals
    have hdriver : val = BitVec.ofNat 16 (val.toNat % 2 ^ 8) := by
      simpa only [Call.pin, if_true, Call.driverPin, Call.devicePin] using hvals
    have hnat := congrArg BitVec.toNat hdriver
    rw [BitVec.toNat_ofNat] at hnat
    omega
  · intro hbytes before after out c' d' hsplit hrun q hq htouched
    have hin : ∀ x ∈ before, x ∈ calls := by
      intro x hx
      rw [hsplit]
      exact List.mem_append_left _ hx
    have hmatchedBefore : MatchedReads before := by
      intro front x rest hfront
      refine hmatched front x (rest ++ after) ?_
      rw [hsplit, hfront, List.append_assoc]
      rfl
    -- after the run both ends know the pin of every call
    have hknown := runCalls_known hc hd (fun x hx => hcalls x (hin x hx)) hmatchedBefore
      (fun pin val hmem => hbytes pin val (hin _ hmem)) hrun
    obtain ⟨call, hcall, rfl⟩ := htouched
    obtain ⟨mode, hmode⟩ := hknown.2 call hcall
    exact (hknown.1 call.pin hq mode hmode).same

end ValueRuns

/-- A PWM pin that is read as such. -/
theorem valuesCoherent_iff_pwm :
    let d := initialDevice hostBuild 2#8
    let calls : List Call := [.pwm8Write 1 200, .pwm8Read 1]
    ValuesCoherent hostBuild (2#8).toNat calls d.conn d := by
  intro d calls
  have hlen : d.conn.pinsState.length = (2#8).toNat := List.length_replicate ..
  have hmatched : MatchedReads calls := by
    intro before call after hsplit
    rcases before with _ | ⟨x, _ | ⟨y, before⟩⟩
    · obtain ⟨rfl, _⟩ := List.cons.inj hsplit
      exact .inl ⟨pinTypePwm8, rfl⟩
    · obtain ⟨rfl, hrest⟩ := List.cons.inj hsplit
      obtain ⟨rfl, _⟩ := List.cons.inj hrest
      exact .inr ⟨pinTypePwm8, rfl, rfl⟩
    · simp [calls] at hsplit
  have hcalls : ∀ call ∈ calls, call.InRange (2#8).toNat := by
    intro call hcall
    simp only [calls, List.mem_cons, List.not_mem_nil, or_false] at hcall
    rcases hcall with rfl | rfl
    · exact ⟨by decide, by decide⟩
    · exact ⟨by decide, by decide⟩
  have hbyte : ∀ pin val, Call.pwm8Write pin val ∈ calls → val.toNat < 2 ^ 8 := by
    intro pin val hmem
    simp only [calls, List.mem_cons, List.not_mem_nil, or_false, reduceCtorEq] at hmem
    cases hmem
    decide
  exact (valuesCoherent_iff hostBuild hlen hlen hcalls hmatched).mpr hbyte

/-- A PWM value of nine bits. -/
theorem not_valuesCoherent_wide :
    let d := initialDevice hostBuild 2#8
    ¬ ValuesCoherent hostBuild (2#8).toNat [.pwm8Write 1 0x155] d.conn d := by
  intro d hsame
  have hrun : (runCalls hostBuild [.pwm8Write 1 0x155] d.conn d).map (fun s =>
      ((s.2.1.pinAt 1).pinsVal, (s.2.2.conn.pinAt 1).pinsVal)) = some (0x155#16, 0x55#16) := by
    decide +kernel
  obtain ⟨s, hcalls, hpair⟩ := Option.map_eq_some_iff.mp hrun
  obtain ⟨hdriver, hdevice⟩ := Prod.mk.inj hpair
  have hvals := hsame [.pwm8Write 1 0x155] [] s.1 s.2.1 s.2.2 (List.append_nil _).symm hcalls 1
    (by decide) ⟨_, List.mem_cons_self, rfl⟩
  have heq : 0x155#16 = 0x55#16 :=
    calc 0x155#16 = (s.2.1.pinAt 1).pinsVal := hdriver.symm
      _ = (s.2.2.conn.pinAt 1).pinsVal := hvals
      _ = 0x55#16 := hdevice
  exact absurd heq (by decide)

end PinProtocol
