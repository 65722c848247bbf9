import PinProtocol.Firmware.Acceptance

/-!
# Invariant — the states that a device can reach

A run of the device starts as `init_device_content` leaves it and serves one packet after the other.
Its tables keep their sizes, types stay type codes, and a failsafe value has no more bits than its
type (`served_invariant`).  Hence the packets that it can treat, in any of these states, are the
accepted ones (`dispatch_inside_iff`).
-/

namespace PinProtocol

open Bits Control

/-! ## Runs -/

/-- A packet as `connection_read` delivers it, with the right checksum. -/
structure Packet.Intact (p : Packet) : Prop where
  data : p.data.length = p.size.toNat
  valid : packetValid p = some true

/-- The states of a device with `nbPins` pins, over any sequence of packets that it treats. -/
inductive Reachable (b : Build) (nbPins : BitVec 8) : Device → Prop
  | init {d : Device} (h : initDeviceContent b nbPins = some d) : Reachable b nbPins d
  | serve {d d' : Device} {p : Packet} {replies : List Buffer} (hd : Reachable b nbPins d)
      (hp : p.Intact) (h : dispatch b d p = some (d', replies)) : Reachable b nbPins d'

theorem intact_of_connectionRead {b : Build} {chunk : Buffer} {p : Packet}
    (h : connectionRead b chunk = some (.packet p)) : p.data.length = p.size.toNat := by
  rw [connectionRead] at h
  split at h
  · cases h
  · rcases Option.map_eq_some_iff.mp h with ⟨q, hq, heq⟩
    cases heq
    simp only [packetRead, Option.bind_eq_bind, Option.bind_eq_some_iff] at hq
    rcases hq with ⟨size, _, header, _, data, hdata, checksum, _, hq⟩
    cases hq
    rw [readData] at hdata
    obtain ⟨hlen, rfl⟩ := guarded_eq_some hdata
    show ((_ : Buffer).take size.toNat).length = size.toNat
    rw [List.length_take, List.length_drop]
    omega

/-- One turn of `mainloop` that serves a packet stays within the reachable states. -/
theorem Reachable.mainloop {b : Build} {nbPins : BitVec 8} {d d' : Device} {chunk : Buffer}
    {replies : List Buffer} (hd : Reachable b nbPins d)
    (h : mainloopStep b d chunk = some (.served d' replies)) : Reachable b nbPins d' := by
  rw [mainloopStep, Option.bind_eq_bind, Option.bind_eq_some_iff] at h
  rcases h with ⟨received, hread, h⟩
  cases received with
  | error => cases h
  | packet p =>
      have hdata := intact_of_connectionRead hread
      rcases Option.bind_eq_some_iff.mp h with ⟨valid, hvalid, h⟩
      cases valid with
      | false => cases h
      | true =>
          rcases Option.bind_eq_some_iff.mp h with ⟨⟨e, rs⟩, hrun, heq⟩
          cases heq
          exact hd.serve ⟨hdata, hvalid⟩ hrun

/-! ## The invariant -/

structure DeviceInvariant (b : Build) (nbPins : BitVec 8) (d : Device) : Prop where
  capsNbPins : d.conn.caps.nbPins = nbPins
  pinsMaskType : d.conn.caps.pinsMaskType = List.replicate nbPins.toNat supportedTypes
  pinsState : d.conn.pinsState.length = nbPins.toNat
  pinsType : ∀ pin ∈ d.conn.pinsState, pin.pinsType.toNat < 8
  failsafe : b.disableFailsafe = false → ∃ f, d.conn.failsafe = some f
  pinsFailsafe : ∀ f, d.conn.failsafe = some f → f.pinsFailsafe.length = nbPins.toNat
  entries : ∀ f, d.conn.failsafe = some f → ∀ e ∈ f.pinsFailsafe, e.InRange

section Invariant

variable {b : Build} {nbPins : BitVec 8} {d d' : Device} {p : Packet}

theorem DeviceInvariant.ready (h : DeviceInvariant b nbPins d) : d.Ready b := by
  have hnb : d.conn.nbPins = nbPins.toNat := by rw [Connection.nbPins, h.capsNbPins]
  refine ⟨⟨?_, ?_, ?_⟩, h.failsafe⟩
  · rw [hnb, h.pinsState]
  · rw [hnb, h.pinsMaskType, List.length_replicate]
  · intro f hf
    rw [hnb, h.pinsFailsafe f hf]

/-- A field of at most nine bits never spans three bytes. -/
theorem fieldAt_lt {f : Nat → Bool} (offset : Nat) {width : Nat} (i : Nat)
    (hwidth : width ≤ 9 ∨ width = 16) : (fieldAt f offset width i).toNat < 2 ^ width := by
  rcases hwidth with hle | heq
  · have hlt := fieldRead_lt_of_span (f := f) (show (offset + width * i) % 8 + width ≤ 16 by omega)
    rw [fieldAt, BitVec.toNat_ofNat]
    exact Nat.lt_of_le_of_lt (Nat.mod_le _ _) hlt
  · rw [heq]
    exact (fieldAt f offset 16 i).isLt

theorem width_cases (type : BitVec 8) : getTypeBitsNb type ≤ 9 ∨ getTypeBitsNb type = 16 := by
  unfold getTypeBitsNb
  split <;> decide

/-- What a request of a type puts into a failsafe table. -/
theorem inRange_field (p : Packet) (f : Nat → Bool) (offset i : Nat) :
    PinFailsafe.InRange { pinState := p.type, pinValue := fieldAt f offset p.width i } :=
  ⟨type_lt p, fieldAt_lt offset i (width_cases p.type)⟩

theorem type_field_lt (f : Nat → Bool) (offset i : Nat) :
    ((fieldAt f offset 3 i).setWidth 8).toNat < 8 := by
  have hlt := fieldAt_lt (f := f) offset i (show 3 ≤ 9 ∨ 3 = 16 by decide)
  rw [BitVec.toNat_setWidth]
  exact Nat.lt_of_le_of_lt (Nat.mod_le _ _) hlt

theorem DeviceInvariant.next (h : DeviceInvariant b nbPins d) :
    DeviceInvariant b nbPins d.next :=
  ⟨h.capsNbPins, h.pinsMaskType, h.pinsState, h.pinsType, h.failsafe, h.pinsFailsafe, h.entries⟩

/-- The pins are replaced by as many others. -/
theorem DeviceInvariant.putPins (h : DeviceInvariant b nbPins d) {pins : List PinState}
    (hlen : pins.length = d.conn.pinsState.length) (hpins : ∀ pin ∈ pins, pin.pinsType.toNat < 8) :
    DeviceInvariant b nbPins (d.put { d.conn with pinsState := pins }) :=
  ⟨h.capsNbPins, h.pinsMaskType, hlen.trans h.pinsState, hpins, h.failsafe, h.pinsFailsafe,
    h.entries⟩

/-- The failsafe table is replaced by one of the same size. -/
theorem DeviceInvariant.putFailsafe (h : DeviceInvariant b nbPins d) (timeout : BitVec 16)
    {pins : List PinFailsafe} (hlen : pins.length = nbPins.toNat)
    (hpins : ∀ e ∈ pins, e.InRange) : DeviceInvariant b nbPins (d.putFailsafe timeout pins) := by
  refine ⟨h.capsNbPins, h.pinsMaskType, h.pinsState, h.pinsType, fun _ => ⟨_, rfl⟩, ?_, ?_⟩
  · intro f hf
    cases hf
    exact hlen
  · intro f hf
    cases hf
    exact hpins

/-- Every branch of the loop keeps the invariant. -/
theorem DeviceInvariant.serves (h : DeviceInvariant b nbPins d) {r : Option Packet}
    (hserves : Serves b d p d' r) : DeviceInvariant b nbPins d' := by
  cases hserves with
  -- only the id of the next reply changes
  | getCaps | ping | readPin | readMask | getTypePin | getTypeMask | getFailsafePin
  | getFailsafeMask => exact h.next
  | reset | noFailsafe | unknown => exact h
  -- a write may change a table, and keeps its length and the range of its types
  | writePin =>
      exact h.putPins (List.length_modify ..)
        (forall_mem_modify h.pinsType (fun _ _ => type_lt p) (p.pin 0))
  | writeMask =>
      refine h.putPins (length_scatter ..) (forall_mem_scatter ?_ _ h.pinsType)
      intro _ pin hpin
      exact hpin
  | setTypePin =>
      exact h.putPins (List.length_modify ..)
        (forall_mem_modify h.pinsType (fun _ _ => type_field_lt _ _ _) (p.pin 0))
  | setTypeMask =>
      refine h.putPins (length_scatter ..) (forall_mem_scatter ?_ _ h.pinsType)
      intro _ _ _
      exact type_field_lt _ _ _
  | @setFailsafePin _ _ _ f hf =>
      refine h.putFailsafe _ ((List.length_modify ..).trans (h.pinsFailsafe f hf)) ?_
      exact forall_mem_modify (h.entries f hf) (fun _ _ => inRange_field p _ _ _) (p.pin 2)
  | @setFailsafeMask _ _ _ f hf =>
      refine h.putFailsafe _ ((length_scatter ..).trans (h.pinsFailsafe f hf)) ?_
      exact forall_mem_scatter (fun _ _ _ => inRange_field p _ _ _) _ (h.entries f hf)

theorem initialDevice_invariant (b : Build) (nbPins : BitVec 8) :
    DeviceInvariant b nbPins (initialDevice b nbPins) := by
  -- there is a failsafe table in a build with failsafe only, and all its entries are disabled
  have hfresh : ∀ f, initialFailsafe b nbPins.toNat = some f →
      f = { timeout := 0
            pinsFailsafe :=
              List.replicate nbPins.toNat { pinState := pinTypeDisabled, pinValue := 0 } } := by
    intro f hf
    rw [initialFailsafe] at hf
    split at hf
    · cases hf
    · exact (Option.some.inj hf).symm
  refine ⟨rfl, rfl, List.length_replicate .., ?_, ?_, ?_, ?_⟩
  · intro pin hpin
    rw [List.eq_of_mem_replicate hpin]
    decide
  · intro hb
    exact ⟨_, if_neg (by rw [hb]; decide)⟩
  · intro f hf
    rw [hfresh f hf]
    exact List.length_replicate ..
  · intro f hf e he
    rw [hfresh f hf] at he
    rw [List.eq_of_mem_replicate he]
    exact ⟨by decide, by decide⟩

/-- The invariant holds in every state that the device reaches. -/
theorem Reachable.invariant (h : Reachable b nbPins d) : DeviceInvariant b nbPins d := by
  induction h with
  | init hinit =>
      rw [initDeviceContent_eq] at hinit
      cases hinit
      exact initialDevice_invariant b nbPins
  | serve _ _ hrun ih =>
      rcases dispatch_serves ih.ready hrun with ⟨r, hserves, _⟩
      exact ih.serves hserves

theorem Reachable.ready (h : Reachable b nbPins d) : d.Ready b :=
  h.invariant.ready

/-! ## Runs over a list of packets -/

/-- The device after it has treated the packets `ps` in order. -/
def serveAll (b : Build) (d : Device) (ps : List Packet) : Option Device :=
  ps.foldlM (fun d p => (dispatch b d p).map Prod.fst) d

/-- Each of them is accepted in the state that it meets. -/
def AllAccepted (b : Build) : Device → List Packet → Prop
  | _, [] => True
  | d, p :: ps => Accepts b d p ∧ ∀ r, dispatch b d p = some r → AllAccepted b r.1 ps

theorem allAccepted_cons (hd : d.Ready b) {p : Packet} {ps : List Packet} :
    AllAccepted b d (p :: ps) ↔ ∃ r, dispatch b d p = some r ∧ AllAccepted b r.1 ps := by
  rw [AllAccepted, ← dispatch_isSome_iff hd]
  cases dispatch b d p <;> simp

/-- The packets that a device treats without leaving its arrays, one after the other. -/
theorem serveAll_isSome_iff {ps : List Packet} (hd : Reachable b nbPins d)
    (hps : ∀ p ∈ ps, p.Intact) : (serveAll b d ps).isSome ↔ AllAccepted b d ps := by
  induction ps generalizing d with
  | nil => exact iff_of_true rfl trivial
  | cons p ps ih =>
      rw [serveAll, List.foldlM_cons, Option.bind_eq_bind, allAccepted_cons hd.ready]
      cases hrun : dispatch b d p with
      | none => simp
      | some r =>
          have hnext := hd.serve (hps p List.mem_cons_self) hrun
          rw [Option.map_some, Option.bind_some]
          simp only [Option.some.injEq, exists_eq_left']
          exact ih hnext fun q hq => hps q (List.mem_cons_of_mem p hq)

theorem Reachable.serveAll {ps : List Packet} (hd : Reachable b nbPins d)
    (hps : ∀ p ∈ ps, p.Intact) (hrun : serveAll b d ps = some d') : Reachable b nbPins d' := by
  induction ps generalizing d with
  | nil =>
      cases hrun
      exact hd
  | cons p ps ih =>
      rw [PinProtocol.serveAll, List.foldlM_cons, Option.bind_eq_bind,
        Option.bind_eq_some_iff] at hrun
      rcases hrun with ⟨e, he, hrest⟩
      rcases Option.map_eq_some_iff.mp he with ⟨⟨e', rs⟩, hserve, rfl⟩
      have hnext := hd.serve (hps p List.mem_cons_self) hserve
      exact ih hnext (fun q hq => hps q (List.mem_cons_of_mem p hq)) hrest

/-- A device with failsafes treats all packets of a run without leaving its arrays if and only if
each of them is accepted when its turn comes; and whatever it has treated, its tables have the sizes
that they were given, and hold types and values that their fields can hold. -/
theorem served_invariant (hb : b.disableFailsafe = false)
    (hinit : initDeviceContent b nbPins = some d) {ps : List Packet} (hps : ∀ p ∈ ps, p.Intact) :
    ((serveAll b d ps).isSome ↔ AllAccepted b d ps) ∧
      ∀ d', serveAll b d ps = some d' →
        d'.conn.caps = d.conn.caps ∧
          d'.conn.pinsState.length = nbPins.toNat ∧
          (∀ pin ∈ d'.conn.pinsState, pin.pinsType.toNat < 8) ∧
          ∃ f, d'.conn.failsafe = some f ∧ f.pinsFailsafe.length = nbPins.toNat ∧
            ∀ e ∈ f.pinsFailsafe,
              e.pinState.toNat < 8 ∧ e.pinValue.toNat < 2 ^ getTypeBitsNb e.pinState := by
  have hreach := Reachable.init hinit
  refine ⟨serveAll_isSome_iff hreach hps, fun d' hrun => ?_⟩
  have hstart := hreach.invariant
  have hend := (hreach.serveAll hps hrun).invariant
  obtain ⟨f, hf⟩ := hend.failsafe hb
  have hnb : d'.conn.caps.nbPins = d.conn.caps.nbPins :=
    hend.capsNbPins.trans hstart.capsNbPins.symm
  have hmask : d'.conn.caps.pinsMaskType = d.conn.caps.pinsMaskType :=
    hend.pinsMaskType.trans hstart.pinsMaskType.symm
  refine ⟨?_, hend.pinsState, hend.pinsType, f, hf, hend.pinsFailsafe f hf, ?_⟩
  · calc d'.conn.caps = ⟨d'.conn.caps.nbPins, d'.conn.caps.pinsMaskType⟩ := rfl
      _ = ⟨d.conn.caps.nbPins, d.conn.caps.pinsMaskType⟩ := by rw [hnb, hmask]
  · intro e he
    have hentry := hend.entries f hf e he
    exact ⟨hentry.pinState, hentry.pinValue⟩

/-- Pin 3 gets a 16-bit failsafe value, then a type. -/
theorem served_invariant_pin3 :
    let d := initialDevice hostBuild firmwareNbPins
    let ps : List Packet :=
      [⟨0x84#8, 5#16, [0#8, 0x14#8, 3#8, 0x12#8, 0x34#8], 0x19#8⟩,
        ⟨0x60#8, 2#16, [3#8, 0xA0#8], 0xFA#8⟩]
    AllAccepted hostBuild d ps ∧ ∃ d', serveAll hostBuild d ps = some d' ∧
      d'.conn.caps = d.conn.caps ∧
      d'.conn.pinsState.length = firmwareNbPins.toNat ∧
      (∀ pin ∈ d'.conn.pinsState, pin.pinsType.toNat < 8) ∧
      ∃ f, d'.conn.failsafe = some f ∧ f.pinsFailsafe.length = firmwareNbPins.toNat ∧
        ∀ e ∈ f.pinsFailsafe,
          e.pinState.toNat < 8 ∧ e.pinValue.toNat < 2 ^ getTypeBitsNb e.pinState := by
  intro d ps
  have hps : ∀ p ∈ ps, p.Intact := by
    intro p hp
    simp only [ps, List.mem_cons, List.not_mem_nil, or_false] at hp
    rcases hp with rfl | rfl
    · exact ⟨rfl, by decide +kernel⟩
    · exact ⟨rfl, by decide +kernel⟩
  have hsome : (serveAll hostBuild d ps).isSome := by decide +kernel
  obtain ⟨hdefined, hall⟩ :=
    served_invariant (b := hostBuild) rfl (initDeviceContent_eq _ firmwareNbPins) hps
  obtain ⟨d', hrun⟩ := Option.isSome_iff_exists.mp hsome
  exact ⟨hdefined.mp hsome, d', hrun, hall d' hrun⟩

/-! ## Robustness -/

/-- In every state that the device reaches, it treats an intact packet without leaving the data of
the packet, its own tables and the buffer of its reply if and only if the packet is accepted. -/
theorem dispatch_inside_iff (hd : Reachable b nbPins d) :
    ∀ p : Packet, p.Intact → ((dispatch b d p).isSome ↔ Accepts b d p) := by
  intro p _
  exact dispatch_isSome_iff hd.ready

/-- Pin 15 of the firmware can be read; there is no pin 16. -/
theorem dispatch_inside_iff_pin15 :
    let d := initialDevice hostBuild firmwareNbPins
    let p : Packet := ⟨0x30#8, 1#16, [15#8], 0xBF#8⟩
    p.Intact ∧ Accepts hostBuild d p ∧ (dispatch hostBuild d p).isSome := by
  intro d p
  have hp : p.Intact := ⟨rfl, by decide +kernel⟩
  have hread : AcceptsRead d.conn p := by decide +kernel
  have hcommand : p.command.toNat = 3 := by decide
  have hacc : Accepts hostBuild d p := by simpa only [Accepts, hcommand] using hread
  exact ⟨hp, hacc, (dispatch_inside_iff (.init (initDeviceContent_eq _ _)) p hp).mpr hacc⟩

theorem not_dispatch_inside_pin16 :
    let d := initialDevice hostBuild firmwareNbPins
    let p : Packet := ⟨0x30#8, 1#16, [16#8], 0xBE#8⟩
    initDeviceContent hostBuild firmwareNbPins = some d ∧ p.Intact ∧
      ¬ (dispatch hostBuild d p).isSome := by
  intro d p
  exact ⟨initDeviceContent_eq _ _, ⟨rfl, by decide +kernel⟩, by decide +kernel⟩

end Invariant

end PinProtocol
