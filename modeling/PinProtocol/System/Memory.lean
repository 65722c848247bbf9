import PinProtocol.Firmware.Memory
import PinProtocol.System.BoardSession

/-!
# Memory — the blocks of the driver over a whole session

A program that uses the driver opens a connection, makes calls, and closes it.  Its requests and
the data of every reply are blocks, and so are the tables behind the connection, which are null
pointers until `get_caps` has been answered.  The calls are given here by the blocks that they
allocate, use and give back; the contents are those of the driver's operations.

`driver_memory` is about any calls, any bytes that the reads deliver and any writes that fail: as
long as the driver stays inside its arrays, it follows no null pointer and uses no block that it has
given back; in the end nothing is left but the buffers of the requests that could not be written,
unless the driver waits in a read or has left through `exit( 1 )`.
-/

namespace PinProtocol

open Bits Control ConnectionBlocks

variable {α : Type}

/-! ## Calls -/

namespace DriverCall

/-- The pins whose entry in `pins_state` the call reads or writes. -/
def statePins (nbPins : Nat) : DriverCall → List Nat
  | genericRead pinId _ | digitalRead pinId | analogicRead pinId | pwm8Read pinId
  | pwm16Read pinId | genericWrite pinId _ _ _ | digitalWrite pinId _ | analogicWrite pinId _
  | pwm8Write pinId _ | pwm16Write pinId _ | getType pinId | setType pinId _ => [pinId.toNat]
  | readValueMask mask _ | writeValueMask mask _ _ | getTypeMask mask | setTypeMask mask _ =>
      usedPins mask nbPins
  | getFailsafe _ | getFailsafeMask .. | setFailsafe .. | setFailsafeMask .. => []

/-- Whether the call needs the failsafe of the connection. -/
def usesFailsafe : DriverCall → Bool
  | getFailsafeMask .. | setFailsafe .. | setFailsafeMask .. => true
  | _ => false

/-- Whether the request is built in a block, and not in an array of the function's own. -/
def allocates : DriverCall → Bool
  | genericRead .. | digitalRead _ | analogicRead _ | pwm8Read _ | pwm16Read _ | getType _
  | getFailsafe _ => false
  | _ => true

end DriverCall

namespace LibraryCall

def allocates : LibraryCall → Bool
  | reset | api .getCaps | api .ping => false
  | api (.driver call) => call.allocates

end LibraryCall

/-! ## Programs, by their contents -/

/-- How far a program has come when its reads have delivered all chunks. -/
inductive DriverEnd
  /-- `connection_open` has returned NULL. -/
  | refused
  | closed
  | waiting
  /-- `read_reply` calls `exit( 1 )`. -/
  | exited
  deriving DecidableEq, Repr

/-- The calls of a program, and the number of requests that could not be written.  For every call
there is whether its `write` succeeds and what its `read` delivers, and `last` is the `write` of the
call that waits. -/
def converse (last : Bool) :
    Program LibraryCall Answer α → Connection → List (Bool × Buffer) → Option (DriverEnd × Nat)
  | .done _, _, _ => some (.closed, 0)
  | .call call resume, conn, turns =>
      ((call.request conn).bind sendPacket).bind fun _ =>
        match turns with
        | [] => some (.waiting, lostBuffers last 1)
        | (written, chunk) :: turns =>
            match connectionRead hostBuild chunk with
            | none => none
            | some .error => some (.exited, lostBuffers written 1)
            | some (.packet reply) =>
                match readReply reply, call.applyAnswer conn reply with
                | some (), some (answer, conn) =>
                    (converse last (resume answer) conn turns).map fun r =>
                      (r.1, lostBuffers written 1 + r.2)
                | _, _ => none

/-! ## Programs, by their blocks -/

namespace ConnectionBlocks

/-- A request is sent from a block, or from an array of the function's own. -/
def sendRequest (c : ConnectionBlocks) (allocates written : Bool) : Alloc Unit :=
  if allocates then do
    let buffer ← alloc
    access buffer
    send c written
    free buffer
  else send c written

/-- What a call does with the data of its reply. -/
def treatReply (c : ConnectionBlocks) (nbPins data : Nat) (call : DriverCall) : Alloc Unit :=
  match call with
  | .genericRead .. | .digitalRead _ | .analogicRead _ | .pwm8Read _ | .pwm16Read _
  | .readValueMask .. | .getType _ | .getTypeMask _ => do
      access data
      (call.statePins nbPins).forM fun _ => deref c.pinsState
      free data
  | .genericWrite .. | .digitalWrite .. | .analogicWrite .. | .pwm8Write .. | .pwm16Write ..
  | .writeValueMask .. | .setType .. | .setTypeMask .. => do
      free data
      (call.statePins nbPins).forM fun _ => deref c.pinsState
  | .getFailsafe _ => do
      access data
      free data
  | .getFailsafeMask mask _ => do
      access data
      (usedPins mask nbPins).forM fun _ => derefFailsafe c
      free data
  | .setFailsafe .. => do
      free data
      deref (c.failsafe.map FailsafeBlocks.self)
      derefFailsafe c
  | .setFailsafeMask mask .. => do
      free data
      deref (c.failsafe.map FailsafeBlocks.self)
      (usedPins mask nbPins).forM fun _ => derefFailsafe c

/-- The same for all functions; `get_caps` makes new tables. -/
def applyReply (c : ConnectionBlocks) (nbPins data : Nat) : LibraryCall → Alloc ConnectionBlocks
  | .reset => do
      free data
      return c
  | .api .getCaps => do
      access data
      access c.self
      let c ← initResources hostBuild c
      access data
      let c ← readDeviceCaps c
      free data
      return c
  | .api .ping => do
      access data
      free data
      return c
  | .api (.driver call) => do
      treatReply c nbPins data call
      return c

/-- `converse` with its blocks; the driver looks at the result of its `read`, and not at that of its
`write`. -/
def converse (last : Bool) :
    Program LibraryCall Answer α → Connection → List (Bool × Buffer) → ConnectionBlocks →
      Alloc (DriverEnd × ConnectionBlocks)
  | .done _, _, _, c => pure (.closed, c)
  | .call call resume, conn, turns, c =>
      match (call.request conn).bind sendPacket with
      | none => undefined
      | some _ => do
          sendRequest c call.allocates (turns.head?.elim last Prod.fst)
          access c.self
          match turns with
          | [] => pure (.waiting, c)
          | (_, chunk) :: turns =>
              match connectionRead hostBuild chunk with
              | none => undefined
              | some .error => pure (.exited, c)
              | some (.packet reply) => do
                  let data ← alloc
                  access data
                  match PinProtocol.readReply reply, call.applyAnswer conn reply with
                  | some (), some (answer, conn') => do
                      let c ← applyReply c conn.nbPins data call
                      converse last (resume answer) conn' turns c
                  | _, _ => undefined

end ConnectionBlocks

/-- A program that opens a connection, makes its calls, and closes the connection. -/
def programBlocks (inOpens outOpens : Bool) (program : Program LibraryCall Answer α)
    (turns : List (Bool × Buffer)) (last : Bool) : Alloc DriverEnd := do
  match ← openFiles inOpens outOpens with
  | none => return .refused
  | some c => do
      let (reason, c) ← ConnectionBlocks.converse last program openedConnection turns c
      match reason with
      | .closed => do
          close hostBuild c
          return .closed
      | reason => return reason

/-! ## Null pointers -/

/-- What a call may do to contents that are not there: of a connection without tables it uses no
entry, and it does not make any. -/
structure Respects (conn conn' : Connection) (pins : List Nat) (usesFailsafe : Bool) : Prop where
  pinsState : conn.pinsState = [] → pins = [] ∧ conn'.pinsState = []
  failsafe : conn.failsafe = none → usesFailsafe = false ∧ conn'.failsafe = none

section Contents

variable {conn conn' : Connection} {reply : Packet} {answer : Answer} {mask : Mask}

theorem update_nil {τ : Type} (i : Nat) (f : τ → τ) : update [] i f = none :=
  if_neg (Nat.not_lt_zero i)

theorem respects_update {pinId : Nat} {f : PinState → PinState} {pins : List PinState}
    (h : update conn.pinsState pinId f = some pins) :
    Respects conn { conn with pinsState := pins } [pinId] false := by
  refine ⟨fun hnil => ?_, fun hnone => ⟨rfl, hnone⟩⟩
  rw [hnil, update_nil] at h
  cases h

theorem storePerPin_nil {τ β : Type} {n : Nat} {values : List β} {f : β → τ → τ} {ys : List τ}
    (h : storePerPin mask n [] values f = some ys) : usedPins mask n = [] ∧ ys = [] := by
  obtain ⟨st, hloop, rfl⟩ := Option.map_eq_some_iff.mp h
  have hturn : ∀ pin : Nat,
      ((values[0]?.bind fun v => update ([] : List τ) pin (f v)).map fun xs => (xs, 0 + 1)) =
        none := by
    intro pin
    cases values[0]? with
    | none => rfl
    | some v => rw [Option.bind_some, update_nil, Option.map_none]
  obtain ⟨hused, rfl⟩ := forEachPinUsed_refused hturn hloop
  exact ⟨hused, rfl⟩

theorem respects_storePerPin {values : List (BitVec 16)} {f : BitVec 16 → PinState → PinState}
    {pins : List PinState} (h : storePerPin mask conn.nbPins conn.pinsState values f = some pins) :
    Respects conn { conn with pinsState := pins } (usedPins mask conn.nbPins) false := by
  refine ⟨fun hnil => ?_, fun hnone => ⟨rfl, hnone⟩⟩
  rw [hnil] at h
  exact storePerPin_nil h

theorem respects_failsafe {own : Failsafe} (h : conn.failsafe = some own) (f : Option Failsafe) :
    Respects conn { conn with failsafe := f } [] true := by
  refine ⟨fun hnil => ⟨rfl, hnil⟩, fun hnone => ?_⟩
  rw [hnone] at h
  cases h

theorem respects_refl (conn : Connection) : Respects conn conn [] false :=
  ⟨fun hnil => ⟨rfl, hnil⟩, fun hnone => ⟨rfl, hnone⟩⟩

theorem genericReadApply_respects {pinId pinMode : BitVec 8} {s : Int × BitVec 16 × Connection}
    (h : genericReadApply conn pinId pinMode reply = some s) :
    Respects conn s.2.2 [pinId.toNat] false := by
  obtain ⟨val, -, h⟩ := Option.bind_eq_some_iff.mp h
  obtain ⟨pins, hpins, h⟩ := Option.bind_eq_some_iff.mp h
  cases h
  exact respects_update hpins

theorem genericWriteApply_respects {pinId : BitVec 8} {val : BitVec 16}
    {s : Int × Unit × Connection} (h : genericWriteApply conn pinId val = some s) :
    Respects conn s.2.2 [pinId.toNat] false := by
  obtain ⟨pins, hpins, h⟩ := Option.bind_eq_some_iff.mp h
  cases h
  exact respects_update hpins

theorem readValueMaskApply_respects {type : BitVec 8} {s : Int × List (BitVec 16) × Connection}
    (h : readValueMaskApply conn mask type reply = some s) :
    Respects conn s.2.2 (usedPins mask conn.nbPins) false := by
  obtain ⟨⟨⟨values, pins⟩, offset⟩, hloop, h⟩ := Option.bind_eq_some_iff.mp h
  cases h
  refine ⟨fun hnil => ?_, fun hnone => ⟨rfl, hnone⟩⟩
  rw [hnil] at hloop
  obtain ⟨hused, hsame⟩ := forEachPinUsed_refused (fun pin => by
    cases readBitValue reply.data replyIdBitsNb (getTypeBitsNb type) with
    | none => rfl
    | some v => rw [Option.bind_some, update_nil, Option.map_none, Option.map_none]) hloop
  cases hsame
  exact ⟨hused, rfl⟩

theorem respects_map {β : Type} {r : Option (Int × β × Connection)}
    {f : Int × β × Connection → Answer} {pins : List Nat} {usesFailsafe : Bool}
    (h : (r.map fun s => (f s, s.2.2)) = some (answer, conn'))
    (hr : ∀ s, r = some s → Respects conn s.2.2 pins usesFailsafe) :
    Respects conn conn' pins usesFailsafe := by
  obtain ⟨s, hs, heq⟩ := Option.map_eq_some_iff.mp h
  cases heq
  exact hr s hs

/-- No call uses an entry of a table that is not there. -/
theorem DriverCall.respects {call : DriverCall}
    (h : call.applyAnswer conn reply = some (answer, conn')) :
    Respects conn conn' (call.statePins conn.nbPins) call.usesFailsafe := by
  -- What the reply says is read first; only the store at the end touches the connection, and it
  -- succeeds on a table that exists or on no pin at all.
  cases call with
  | genericRead | digitalRead | analogicRead | pwm8Read | pwm16Read =>
      exact respects_map h fun s hs => genericReadApply_respects hs
  | genericWrite | digitalWrite | analogicWrite | pwm8Write | pwm16Write =>
      exact respects_map h fun s hs => genericWriteApply_respects hs
  | readValueMask => exact respects_map h fun s hs => readValueMaskApply_respects hs
  | writeValueMask | setTypeMask =>
      refine respects_map h fun s hs => ?_
      obtain ⟨pins, hpins, hs⟩ := Option.bind_eq_some_iff.mp hs
      cases hs
      exact respects_storePerPin hpins
  | getType =>
      refine respects_map h fun s hs => ?_
      obtain ⟨type, -, hs⟩ := Option.bind_eq_some_iff.mp hs
      obtain ⟨pins, hpins, hs⟩ := Option.bind_eq_some_iff.mp hs
      cases hs
      exact respects_update hpins
  | getTypeMask =>
      refine respects_map h fun s hs => ?_
      obtain ⟨nbPinsUsed, -, hs⟩ := Option.bind_eq_some_iff.mp hs
      obtain ⟨types, -, hs⟩ := Option.bind_eq_some_iff.mp hs
      obtain ⟨pins, hpins, hs⟩ := Option.bind_eq_some_iff.mp hs
      cases hs
      exact respects_storePerPin hpins
  | setType =>
      refine respects_map h fun s hs => ?_
      obtain ⟨pins, hpins, hs⟩ := Option.bind_eq_some_iff.mp hs
      cases hs
      exact respects_update hpins
  | getFailsafe =>
      refine respects_map h fun s hs => ?_
      obtain ⟨type, -, hs⟩ := Option.bind_eq_some_iff.mp hs
      obtain ⟨value, -, hs⟩ := Option.bind_eq_some_iff.mp hs
      cases hs
      exact respects_refl conn
  | getFailsafeMask =>
      refine respects_map h fun s hs => ?_
      obtain ⟨nbPinsUsed, -, hs⟩ := Option.bind_eq_some_iff.mp hs
      obtain ⟨timeout, -, hs⟩ := Option.bind_eq_some_iff.mp hs
      obtain ⟨f, -, hs⟩ := Option.bind_eq_some_iff.mp hs
      obtain ⟨own, hown, hs⟩ := Option.bind_eq_some_iff.mp hs
      obtain ⟨pins, -, hs⟩ := Option.bind_eq_some_iff.mp hs
      cases hs
      exact respects_failsafe hown _
  | setFailsafe | setFailsafeMask =>
      refine respects_map h fun s hs => ?_
      obtain ⟨own, hown, hs⟩ := Option.bind_eq_some_iff.mp hs
      obtain ⟨pins, -, hs⟩ := Option.bind_eq_some_iff.mp hs
      cases hs
      exact respects_failsafe hown _

/-! ## Nothing is lost -/

namespace ConnectionBlocks

/-- The tables are there as soon as the contents have any; without them, they are null pointers. -/
structure Holds (c : ConnectionBlocks) (conn : Connection) : Prop where
  pinsState : c.pinsState = none → conn.pinsState = []
  failsafe : c.failsafe = none → conn.failsafe = none
  tables : c.tables = 0 ∨ c.Ready hostBuild

variable {c : ConnectionBlocks} {own : Multiset Nat}

theorem sendRequest_spec (c : ConnectionBlocks) (allocates written : Bool) :
    Triple c.core (sendRequest c allocates written)
      fun _ out => Leaks c.core (lostBuffers written 1) out := by
  cases allocates with
  | false => exact sendLocal_spec
  | true => exact Triple.alloc fun buffer => Triple.access (by simp) (sendData_spec buffer)

theorem derefAll_spec {p : Option Nat} {pins : List Nat} (hsome : pins ≠ [] → p.isSome)
    (hmem : blockOf p ≤ own) :
    Triple own (pins.forM fun _ => deref p) fun _ out => out = own :=
  Triple.forM pins fun _ hpin =>
    Triple.last (triple_deref (hsome (List.ne_nil_of_mem hpin)) hmem (Triple.pure rfl))

theorem derefFailsafes_spec (pins : List Nat) (hsome : c.failsafe.isSome)
    (hmem : failsafeBlocks c.failsafe ≤ own) :
    Triple own (pins.forM fun _ => derefFailsafe c) fun _ out => out = own :=
  Triple.forM pins fun _ _ => Triple.last (triple_derefFailsafe hsome hmem (Triple.pure rfl))

/-- A call of the driver gives its reply back, and leaves the tables where they are. -/
theorem treatReply_spec {nbPins : Nat} (data : Nat) {call : DriverCall}
    (hstate : call.statePins nbPins ≠ [] → c.pinsState.isSome)
    (hfailsafe : call.usesFailsafe = true → c.failsafe.isSome) :
    Triple ({data} + c.core) (treatReply c nbPins data call) fun _ out => out = c.core := by
  have hpins : blockOf c.pinsState ≤ {data} + c.core :=
    c.blockOf_pinsState_le.trans (Multiset.le_add_left _ _)
  -- The two orders of driver.c: a query reads its data until the end, a store frees them first.
  have hread : Triple ({data} + c.core) (do
      access data
      (call.statePins nbPins).forM fun _ => deref c.pinsState
      free data) fun _ out => out = c.core := by
    refine Triple.access (by simp) (Triple.bind (derefAll_spec hstate hpins) ?_)
    rintro - _ rfl
    exact Triple.last (Triple.free rfl (Triple.pure rfl))
  have hstore : Triple ({data} + c.core) (do
      free data
      (call.statePins nbPins).forM fun _ => deref c.pinsState) fun _ out => out = c.core :=
    Triple.free rfl (derefAll_spec hstate c.blockOf_pinsState_le)
  have hself : ∀ {g : Unit → Alloc Unit}, call.usesFailsafe = true →
      (c.failsafe.isSome → Triple c.core (g ()) fun _ out => out = c.core) →
        Triple c.core (deref (c.failsafe.map FailsafeBlocks.self) >>= g)
          fun _ out => out = c.core := by
    intro g huses hg
    have hsome := hfailsafe huses
    refine triple_deref (by simpa using hsome) ?_ (hg hsome)
    refine le_trans ?_ c.failsafeBlocks_le
    cases c.failsafe with
    | none => exact le_refl _
    | some f => exact Multiset.le_add_left _ _
  cases call with
  | genericRead | digitalRead | analogicRead | pwm8Read | pwm16Read | readValueMask | getType
  | getTypeMask => exact hread
  | genericWrite | digitalWrite | analogicWrite | pwm8Write | pwm16Write | writeValueMask
  | setType | setTypeMask => exact hstore
  | getFailsafe =>
      exact Triple.access (by simp) (Triple.last (Triple.free rfl (Triple.pure rfl)))
  | getFailsafeMask mask table =>
      refine Triple.access (by simp) (Triple.bind (derefFailsafes_spec _ (hfailsafe rfl)
        (c.failsafeBlocks_le.trans (Multiset.le_add_left _ _))) ?_)
      rintro - _ rfl
      exact Triple.last (Triple.free rfl (Triple.pure rfl))
  | setFailsafe =>
      refine Triple.free rfl (hself rfl fun hsome => Triple.last ?_)
      exact triple_derefFailsafe hsome c.failsafeBlocks_le (Triple.pure rfl)
  | setFailsafeMask =>
      exact Triple.free rfl (hself rfl fun hsome =>
        derefFailsafes_spec _ hsome c.failsafeBlocks_le)

/-- Every function of the library gives its reply back. -/
theorem applyReply_spec (hholds : c.Holds conn) (data : Nat) {call : LibraryCall}
    (h : call.applyAnswer conn reply = some (answer, conn')) :
    Triple ({data} + c.core) (applyReply c conn.nbPins data call) fun c' out =>
      c'.Holds conn' ∧ c.Same c' ∧ out = c'.core := by
  have hsame : c.Same c := ⟨rfl, rfl, rfl⟩
  cases call with
  | reset =>
      cases h
      exact Triple.free rfl (Triple.pure ⟨hholds, hsame, rfl⟩)
  | api call =>
      cases call with
      | getCaps =>
          -- get_caps drops the arrays it had and makes new ones for the pin count it was sent.
          refine Triple.access (by simp) (Triple.access (by simp [core]) ?_)
          refine Triple.call (initResources_spec fun hb => by cases hb) (add_comm _ _) ?_
          rintro c₁ _ ⟨hready, hsame₁, rfl⟩
          refine Triple.access (by simp) ?_
          refine Triple.call (readDeviceCaps_spec hready) rfl ?_
          rintro c₂ _ ⟨hready, ⟨hself, hin, hout⟩, rfl⟩
          refine Triple.free (add_comm _ _) (Triple.pure ⟨⟨?_, ?_, .inr hready⟩, ?_, rfl⟩)
          · intro hnone
            have hsome := hready.pinsState
            rw [hnone] at hsome
            cases hsome
          · intro hnone
            have hsome := hready.failsafe
            rw [hnone] at hsome
            cases hsome
          · exact ⟨hself.trans hsame₁.1, hin.trans hsame₁.2.1, hout.trans hsame₁.2.2⟩
      | ping =>
          obtain ⟨s, hs, heq⟩ := Option.map_eq_some_iff.mp h
          obtain ⟨version, -, hs⟩ := Option.bind_eq_some_iff.mp hs
          cases hs
          cases heq
          refine Triple.access (by simp) (Triple.free rfl (Triple.pure ⟨hholds, hsame, rfl⟩))
      | driver call =>
          have hrespects := DriverCall.respects h
          refine Triple.bind (treatReply_spec data ?_ ?_) ?_
          -- A table that is missing would have made the call fail, and `h` says that it returned.
          · intro hpins
            cases hstate : c.pinsState with
            | none => exact absurd (hrespects.pinsState (hholds.pinsState hstate)).1 hpins
            | some p => rfl
          · intro huses
            cases hfailsafe : c.failsafe with
            | none =>
                have hunused := (hrespects.failsafe (hholds.failsafe hfailsafe)).1
                rw [huses] at hunused
                cases hunused
            | some f => rfl
          · rintro - _ rfl
            refine Triple.pure ⟨⟨?_, ?_, hholds.tables⟩, hsame, rfl⟩
            · exact fun hnone => (hrespects.pinsState (hholds.pinsState hnone)).2
            · exact fun hnone => (hrespects.failsafe (hholds.failsafe hnone)).2

/-- Between two calls the driver has the blocks of its connection, and has lost the buffers of the
requests that could not be written. -/
theorem converse_spec (last : Bool) (program : Program LibraryCall Answer α)
    {turns : List (Bool × Buffer)} {reason : DriverEnd} {failed : Nat} (hholds : c.Holds conn)
    (hrun : PinProtocol.converse last program conn turns = some (reason, failed)) :
    Triple c.core (converse last program conn turns c) fun r out =>
      r.1 = reason ∧ c.Same r.2 ∧ (r.2.tables = 0 ∨ r.2.Ready hostBuild) ∧
        Leaks r.2.core failed out := by
  induction program generalizing conn turns c failed with
  | done a =>
      cases hrun
      exact Triple.pure ⟨rfl, ⟨rfl, rfl, rfl⟩, hholds.tables, Leaks.refl _⟩
  | call call resume ih =>
      rw [PinProtocol.converse.eq_def] at hrun
      obtain ⟨frame, hframe, hrun⟩ := Option.bind_eq_some_iff.mp hrun
      rw [converse.eq_def]
      simp only [hframe]
      refine Triple.bind (sendRequest_spec c call.allocates _) ?_
      rintro - _ ⟨lost, hlost, rfl⟩
      refine Triple.access (by simp [core]) ?_
      cases turns with
      | nil =>
          cases hrun
          exact Triple.pure ⟨rfl, ⟨rfl, rfl, rfl⟩, hholds.tables, lost, hlost, rfl⟩
      | cons turn turns =>
          obtain ⟨written, chunk⟩ := turn
          dsimp only at hrun ⊢
          cases hread : connectionRead hostBuild chunk with
          | none =>
              rw [hread] at hrun
              cases hrun
          | some received =>
              rw [hread] at hrun
              cases received with
              | error =>
                  cases hrun
                  exact Triple.pure ⟨rfl, ⟨rfl, rfl, rfl⟩, hholds.tables, lost, hlost, rfl⟩
              | packet reply =>
                  refine Triple.alloc fun data => Triple.access (by simp) ?_
                  dsimp only at hrun ⊢
                  cases hreply : PinProtocol.readReply reply with
                  | none => simp [hreply] at hrun
                  | some _ =>
                      cases happly : call.applyAnswer conn reply with
                      | none => simp [hreply, happly] at hrun
                      | some s =>
                          obtain ⟨answer, conn'⟩ := s
                          simp only [hreply, happly] at hrun
                          obtain ⟨⟨reason', failed'⟩, hrest, heq⟩ := Option.map_eq_some_iff.mp hrun
                          cases heq
                          refine Triple.call (applyReply_spec hholds data happly)
                            (add_assoc _ _ _).symm ?_
                          rintro c' _ ⟨hholds', ⟨hself, hin, hout⟩, rfl⟩
                          -- what has been lost is in the frame of the calls that follow
                          refine ((ih answer hholds' hrest).frame (r := lost)).mono ?_
                          rintro r _ ⟨out, ⟨hreason, ⟨hself', hin', hout'⟩, htables, hrest⟩, rfl⟩
                          refine ⟨hreason, ⟨?_, ?_, ?_⟩, htables, ?_⟩
                          · exact hself'.trans hself
                          · exact hin'.trans hin
                          · exact hout'.trans hout
                          · exact Leaks.trans ⟨lost, hlost, rfl⟩ (hrest.frame lost)

end ConnectionBlocks

end Contents

/-! ## The whole program -/

/-- The blocks of a connection that has been opened, and of its tables if it has any. -/
def Connected (own : Multiset Nat) : Prop :=
  ∃ c : ConnectionBlocks, c.fdIn.isSome ∧ c.fdOut.isSome ∧ (c.tables = 0 ∨ c.Ready hostBuild) ∧
    own = c.blocks

/-- What there is left of a program, beside the buffers of the requests that could not be
written. -/
def DriverEnd.Keeps (reason : DriverEnd) (own : Multiset Nat) : Prop :=
  if reason = .closed then own = 0 else Connected own

/-- What there is left of a program that has been able to open its files or not, and has had
`failed` writes that failed. -/
def Leaves (opens : Bool) (reason : DriverEnd) (failed : Nat) (own : Multiset Nat) : Prop :=
  if opens then ∃ kept, reason.Keeps kept ∧ Leaks kept failed own else own = 0

theorem program_spec {last : Bool} {program : Program LibraryCall Answer α}
    {turns : List (Bool × Buffer)} {reason : DriverEnd} {failed : Nat}
    (hrun : converse last program openedConnection turns = some (reason, failed))
    (inOpens outOpens : Bool) :
    Triple 0 (programBlocks inOpens outOpens program turns last) fun r out =>
      r = (if inOpens && outOpens then reason else .refused) ∧
        Leaves (inOpens && outOpens) reason failed out := by
  refine Triple.bind (open_spec inOpens outOpens) ?_
  rintro c _ ⟨hopens, hc⟩
  cases c with
  | none =>
      have hshut : ¬ (inOpens && outOpens) = true := by simpa using hopens
      cases hc
      refine Triple.pure ⟨(if_neg hshut).symm, ?_⟩
      rw [Leaves, if_neg hshut]
  | some c =>
      obtain ⟨hin, hout, hstate, hfailsafe, htables, rfl⟩ := hc
      have hopen : (inOpens && outOpens) = true := hopens.mpr rfl
      have hholds : c.Holds openedConnection := ⟨fun _ => rfl, fun _ => rfl, .inl htables⟩
      -- The two files stay with the program while the calls run on the rest of the connection.
      simp only [hopen, if_true, Leaves]
      refine Triple.call (ConnectionBlocks.converse_spec last program hholds hrun)
        (t := blockOf c.fdIn + blockOf c.fdOut) c.blocks_eq ?_
      rintro ⟨r, c'⟩ _ ⟨hr, ⟨hself, hin', hout'⟩, htables', lost, hlost, rfl⟩
      have hown : c'.core + lost + (blockOf c.fdIn + blockOf c.fdOut) = c'.blocks + lost := by
        rw [c'.blocks_eq, hin', hout']
        abel
      have hconnected : Connected c'.blocks :=
        ⟨c', hin' ▸ hin, hout' ▸ hout, htables', rfl⟩
      dsimp only at hr ⊢
      rw [hown, hr]
      -- Only connection_close gives the blocks of the connection back; other ends keep them.
      cases reason with
      | closed =>
          refine Triple.call (close_spec (fun hb => by cases hb) fun hb => by cases hb) rfl ?_
          rintro - _ rfl
          refine Triple.pure ⟨rfl, 0, ?_, lost, hlost, rfl⟩
          rw [DriverEnd.Keeps, if_pos rfl]
      | refused | waiting | exited =>
          refine Triple.pure ⟨rfl, c'.blocks, ?_, lost, hlost, rfl⟩
          rw [DriverEnd.Keeps, if_neg (by simp)]
          exact hconnected

/-- A program that stays inside the arrays of the driver follows no null pointer, and uses nothing
that it has given back.  What it does not give back are the buffers of the requests that it could
not write, and its connection when it waits for a reply or has left through `exit( 1 )`; when the
files cannot be opened, nothing is left. -/
theorem driver_memory {last : Bool} {program : Program LibraryCall Answer α}
    {turns : List (Bool × Buffer)} {reason : DriverEnd} {failed : Nat}
    (hrun : converse last program openedConnection turns = some (reason, failed))
    (inOpens outOpens : Bool) :
    ∃ h : Heap,
      programBlocks inOpens outOpens program turns last Heap.empty =
        some (if inOpens && outOpens then reason else .refused, h) ∧
      Leaves (inOpens && outOpens) reason failed h.live := by
  obtain ⟨r, h, out, hblocks, ⟨rfl, hleft⟩, hlive⟩ :=
    program_spec hrun inOpens outOpens Heap.empty 0 (add_zero _).symm
  rw [add_zero] at hlive
  exact ⟨h, hblocks, by rwa [hlive]⟩

/-- A ping and a write to pin 1, of a driver that has asked for the capabilities of two pins. -/
def pingAndWrite : Program LibraryCall Answer Unit :=
  .call (.api .getCaps) fun _ => .call (.api .ping) fun _ =>
    .call (.api (.driver (.digitalWrite 1 true))) fun _ => .done ()

/-- The second request gets an answer although its own `write` has failed; the device ends before it
has answered the third. -/
def brokenAnswers : List (Bool × Buffer) :=
  [(true, [0#8, 0#8, 4#8, 7#8, 2#8, 31#8, 31#8, 0xB4#8]),
    (false, [0x20#8, 0#8, 2#8, 8#8, 1#8, 0xD4#8]), (true, [])]

theorem driver_memory_exit :
    ∃ h : Heap,
      programBlocks true true pingAndWrite brokenAnswers true Heap.empty = some (.exited, h) ∧
        Leaves true .exited 1 h.live := by
  have hrun : converse true pingAndWrite openedConnection brokenAnswers = some (.exited, 1) := by
    decide +kernel
  exact driver_memory hrun true true

end PinProtocol
