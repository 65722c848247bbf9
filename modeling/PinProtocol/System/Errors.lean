import PinProtocol.System.FailsafeQueries

/-!
# Errors — what a call makes of a reply that reports failure

`driver.h` promises 0 for success and an error number otherwise.  `read_reply` prints what is wrong
with a reply; its callers go on with the reply as it is, and each of them returns a number of its
own.  `errors_reported_iff` says with which replies a call keeps the promise.
-/

namespace PinProtocol

open Bits Control

variable {W : Type}

/-! ## Calls -/

/-- The operations that return an `int`. -/
inductive DriverCall
  | genericRead (pinId pinMode : BitVec 8)
  | digitalRead (pinId : BitVec 8)
  | analogicRead (pinId : BitVec 8)
  | pwm8Read (pinId : BitVec 8)
  | pwm16Read (pinId : BitVec 8)
  | readValueMask (mask : Mask) (type : BitVec 8)
  | genericWrite (pinId pinMode : BitVec 8) (val : BitVec 16) (valSize : Nat)
  | digitalWrite (pinId : BitVec 8) (val : Bool)
  | analogicWrite (pinId : BitVec 8) (val : BitVec 16)
  | pwm8Write (pinId : BitVec 8) (val : BitVec 16)
  | pwm16Write (pinId : BitVec 8) (val : BitVec 16)
  | writeValueMask (mask : Mask) (type : BitVec 8) (values : List (BitVec 16))
  | getType (pinId : BitVec 8)
  | getTypeMask (mask : Mask)
  | setType (pinId type : BitVec 8)
  | setTypeMask (mask : Mask) (types : List (BitVec 16))
  | getFailsafe (pinId : BitVec 8)
  | getFailsafeMask (mask : Mask) (table : Failsafe)
  | setFailsafe (pinId : BitVec 8) (timeout : BitVec 16) (entry : PinFailsafe)
  | setFailsafeMask (mask : Mask) (type : BitVec 8) (timeout : BitVec 16)
      (values : List (BitVec 16))

namespace DriverCall

def request (c : Connection) : DriverCall → Option Packet
  | genericRead pinId pinMode => genericReadRequest pinId pinMode
  | digitalRead pinId => genericReadRequest pinId pinTypeDigital
  | analogicRead pinId => genericReadRequest pinId pinTypeAnalog16
  | pwm8Read pinId => genericReadRequest pinId pinTypePwm8
  | pwm16Read pinId => genericReadRequest pinId pinTypePwm16
  | readValueMask mask type => readValueMaskRequest c mask type
  | genericWrite pinId pinMode val valSize => genericWriteRequest pinId pinMode val valSize
  | digitalWrite pinId val =>
      genericWriteRequest pinId pinTypeDigital ((BitVec.ofBool val).setWidth 16) 1
  | analogicWrite pinId val => genericWriteRequest pinId pinTypeAnalog16 val 16
  | pwm8Write pinId val => genericWriteRequest pinId pinTypePwm8 val 8
  | pwm16Write pinId val => genericWriteRequest pinId pinTypePwm16 val 16
  | writeValueMask mask type values => writeValueMaskRequest c mask type values
  | getType pinId => getTypeRequest pinId
  | getTypeMask mask => getTypeMaskRequest c mask
  | setType pinId type => setTypeRequest pinId type
  | setTypeMask mask types => setTypeMaskRequest c mask types
  | getFailsafe pinId => getFailsafeRequest pinId
  | getFailsafeMask mask _ => getFailsafeMaskRequest c mask
  | setFailsafe pinId timeout entry => setFailsafeRequest pinId timeout entry
  | setFailsafeMask mask type timeout values => setFailsafeMaskRequest c mask type timeout values

/-- The number that the call returns, and the connection that it leaves behind. -/
def perform (link : Link W) (c : Connection) (w : W) : DriverCall → Option (Int × Connection)
  | genericRead pinId pinMode =>
      (PinProtocol.genericRead link c w pinId pinMode).map fun r => (r.ret, r.conn)
  | digitalRead pinId => (PinProtocol.digitalRead link c w pinId).map fun r => (r.ret, r.conn)
  | analogicRead pinId => (PinProtocol.analogicRead link c w pinId).map fun r => (r.ret, r.conn)
  | pwm8Read pinId => (PinProtocol.pwm8Read link c w pinId).map fun r => (r.ret, r.conn)
  | pwm16Read pinId => (PinProtocol.pwm16Read link c w pinId).map fun r => (r.ret, r.conn)
  | readValueMask mask type =>
      (PinProtocol.readValueMask link c w mask type).map fun r => (r.ret, r.conn)
  | genericWrite pinId pinMode val valSize =>
      (PinProtocol.genericWrite link c w pinId pinMode val valSize).map fun r => (r.ret, r.conn)
  | digitalWrite pinId val =>
      (PinProtocol.digitalWrite link c w pinId val).map fun r => (r.ret, r.conn)
  | analogicWrite pinId val =>
      (PinProtocol.analogicWrite link c w pinId val).map fun r => (r.ret, r.conn)
  | pwm8Write pinId val => (PinProtocol.pwm8Write link c w pinId val).map fun r => (r.ret, r.conn)
  | pwm16Write pinId val =>
      (PinProtocol.pwm16Write link c w pinId val).map fun r => (r.ret, r.conn)
  | writeValueMask mask type values =>
      (PinProtocol.writeValueMask link c w mask type values).map fun r => (r.ret, r.conn)
  | getType pinId => (PinProtocol.getType link c w pinId).map fun r => (r.ret, r.conn)
  | getTypeMask mask => (PinProtocol.getTypeMask link c w mask).map fun r => (r.ret, r.conn)
  | setType pinId type => (PinProtocol.setType link c w pinId type).map fun r => (r.ret, r.conn)
  | setTypeMask mask types =>
      (PinProtocol.setTypeMask link c w mask types).map fun r => (r.ret, r.conn)
  | getFailsafe pinId => (PinProtocol.getFailsafe link c w pinId).map fun r => (r.ret, r.conn)
  | getFailsafeMask mask table =>
      (PinProtocol.getFailsafeMask link c w mask table).map fun r => (r.ret, r.conn)
  | setFailsafe pinId timeout entry =>
      (PinProtocol.setFailsafe link c w pinId timeout entry).map fun r => (r.ret, r.conn)
  | setFailsafeMask mask type timeout values =>
      (PinProtocol.setFailsafeMask link c w mask type timeout values).map fun r => (r.ret, r.conn)

/-- Pin numbers are those of pins, masks have an entry for each pin, and the caller's arrays one for
each pin used. -/
def InRange (nbPins : Nat) : DriverCall → Prop
  | genericRead pinId _ | digitalRead pinId | analogicRead pinId | pwm8Read pinId
  | pwm16Read pinId | genericWrite pinId _ _ _ | digitalWrite pinId _ | analogicWrite pinId _
  | pwm8Write pinId _ | pwm16Write pinId _ | getType pinId | setType pinId _ | getFailsafe pinId
  | setFailsafe pinId _ _ => pinId.toNat < nbPins
  | readValueMask mask _ | getTypeMask mask => nbPins ≤ mask.length
  | writeValueMask mask _ values | setTypeMask mask values | setFailsafeMask mask _ _ values =>
      nbPins ≤ mask.length ∧ (usedPins mask nbPins).length ≤ values.length
  | getFailsafeMask mask table =>
      nbPins ≤ mask.length ∧ (usedPins mask nbPins).length ≤ table.pinsFailsafe.length

/-- What the call does once it has got a reply. -/
def treat (c : Connection) (reply : Packet) : DriverCall → Option (Int × Connection)
  | genericRead pinId pinMode =>
      (genericReadApply c pinId pinMode reply).map fun s => (s.1, s.2.2)
  | digitalRead pinId =>
      (genericReadApply c pinId pinTypeDigital reply).map fun s => (0, s.2.2)
  | analogicRead pinId =>
      (genericReadApply c pinId pinTypeAnalog16 reply).map fun s => (0, s.2.2)
  | pwm8Read pinId => (genericReadApply c pinId pinTypePwm8 reply).map fun s => (0, s.2.2)
  | pwm16Read pinId => (genericReadApply c pinId pinTypePwm16 reply).map fun s => (0, s.2.2)
  | readValueMask mask type => (readValueMaskApply c mask type reply).map fun s => (s.1, s.2.2)
  | genericWrite pinId _ val _ => (genericWriteApply c pinId val).map fun s => (s.1, s.2.2)
  | digitalWrite pinId val =>
      (genericWriteApply c pinId ((BitVec.ofBool val).setWidth 16)).map fun s => (s.1, s.2.2)
  | analogicWrite pinId val | pwm8Write pinId val | pwm16Write pinId val =>
      (genericWriteApply c pinId val).map fun s => (s.1, s.2.2)
  | writeValueMask mask _ values => (writeValueMaskApply c mask values).map fun s => (s.1, s.2.2)
  | getType pinId => (getTypeApply c pinId reply).map fun s => (s.1, s.2.2)
  | getTypeMask mask => (getTypeMaskApply c mask reply).map fun s => (s.1, s.2.2)
  | setType pinId type => (setTypeApply c pinId type).map fun s => (s.1, s.2.2)
  | setTypeMask mask types => (setTypeMaskApply c mask types).map fun s => (s.1, s.2.2)
  | getFailsafe _ => (getFailsafeApply c reply).map fun s => (s.1, s.2.2)
  | getFailsafeMask mask table =>
      (getFailsafeMaskApply c mask table reply).map fun s => (s.1, s.2.2)
  | setFailsafe pinId timeout entry =>
      (setFailsafeApply c pinId timeout entry).map fun s => (s.1, s.2.2)
  | setFailsafeMask mask type timeout values =>
      (setFailsafeMaskApply c mask type timeout values).map fun s => (s.1, s.2.2)

end DriverCall

/-! ## The promise -/

/-- What `read_reply` looks for and does not report. -/
def Packet.Succeeded (reply : Packet) : Prop :=
  packetValid reply = some true ∧ reply.header.toNat % 16 = repCodeSuccess.toNat

/-- A call returns 0 exactly for a reply that reports success, and stores nothing for another. -/
def KeepsPromise (c : Connection) (reply : Packet) (result : Option (Int × Connection)) : Prop :=
  ∃ r, result = some r ∧ (r.1 = 0 ↔ reply.Succeeded) ∧
    (¬ reply.Succeeded → r.2.pinsState = c.pinsState ∧ r.2.failsafe = c.failsafe)

section Promise

variable {c : Connection} {reply : Packet} {β : Type} {o : Option β} {next : β → Connection}

theorem keepsPromise_zero :
    KeepsPromise c reply (o.map fun y => (0, next y)) ↔ reply.Succeeded ∧ o.isSome := by
  constructor
  · rintro ⟨r, hr, hzero, _⟩
    rcases Option.map_eq_some_iff.mp hr with ⟨y, rfl, rfl⟩
    exact ⟨hzero.mp rfl, rfl⟩
  · rintro ⟨hok, hsome⟩
    obtain ⟨y, rfl⟩ := Option.isSome_iff_exists.mp hsome
    exact ⟨_, rfl, ⟨fun _ => hok, fun _ => rfl⟩, fun hfail => absurd hok hfail⟩

theorem keepsPromise_one :
    KeepsPromise c reply (o.map fun y => (1, next y)) ↔
      ¬ reply.Succeeded ∧
        ∃ y, o = some y ∧ (next y).pinsState = c.pinsState ∧ (next y).failsafe = c.failsafe := by
  constructor
  · rintro ⟨r, hr, hzero, hsame⟩
    rcases Option.map_eq_some_iff.mp hr with ⟨y, rfl, rfl⟩
    have hfail : ¬ reply.Succeeded := fun hok => absurd (hzero.mpr hok) Int.one_ne_zero
    exact ⟨hfail, y, rfl, hsame hfail⟩
  · rintro ⟨hfail, y, rfl, hsame⟩
    exact ⟨_, rfl, ⟨fun h => absurd h Int.one_ne_zero, fun hok => absurd hok hfail⟩,
      fun _ => hsame⟩

variable {stored : Connection}

theorem keepsPromise_some_zero : KeepsPromise c reply (some (0, stored)) ↔ reply.Succeeded := by
  have h : KeepsPromise c reply ((some ()).map fun _ => (0, stored)) ↔ _ := keepsPromise_zero
  simpa using h

theorem keepsPromise_some_one :
    KeepsPromise c reply (some (1, stored)) ↔
      ¬ reply.Succeeded ∧ stored.pinsState = c.pinsState ∧ stored.failsafe = c.failsafe := by
  have h : KeepsPromise c reply ((some ()).map fun _ => (1, stored)) ↔ _ := keepsPromise_one
  simpa using h

theorem not_keepsPromise_none : ¬ KeepsPromise c reply none := by
  rintro ⟨r, hr, _⟩
  cases hr

end Promise

/-! ## From a call to the treatment of its reply -/

section Replied

variable {link : Link W} {c : Connection} {w w' : W} {frame : Buffer} {p reply : Packet}

/-- A reply without an id is not one that `read_reply` can look at. -/
theorem exchange_replied (hsend : sendPacket p = some frame)
    (hlink : link frame w = some (reply, w')) (hreply : reply.size.toNat = reply.data.length) :
    exchange link p w = if 0 < reply.data.length then some (reply, w') else none := by
  by_cases hpos : 0 < reply.data.length
  · have hread := readReply_eq hpos (Nat.le_of_eq hreply)
    simp only [exchange, hsend, hlink, hread, Option.bind_eq_bind, Option.bind_some,
      Option.pure_def, if_pos hpos]
  · have hid : readBitValue reply.data 0 8 = _ :=
      readBitValue_eq (show 0 < 2 ^ 16 by decide) (show 8 ≤ 16 by decide)
    rw [if_neg (by omega)] at hid
    simp only [exchange, hsend, hlink, readReply, replyIdBitsNb, hid, Option.bind_eq_bind,
      Option.bind_some, Option.bind_none, if_neg hpos]

/-- A call is its request, one exchange, and what it does with the reply. -/
theorem perform_eq (call : DriverCall) :
    call.perform link c w =
      (call.request c).bind fun p => (exchange link p w).bind fun r => call.treat c r.1 := by
  have hmap : ∀ {α : Type} (apply : Packet → Option (Int × α × Connection)),
      (operation link w (call.request c) apply).map (fun r => (r.ret, r.conn)) =
        (call.request c).bind fun p => (exchange link p w).bind fun r =>
          (apply r.1).map fun s => (s.1, s.2.2) := by
    intro α apply
    rw [operation]
    cases call.request c with
    | none => rfl
    | some p =>
        simp only [Option.bind_eq_bind, Option.bind_some]
        cases exchange link p w with
        | none => rfl
        | some r =>
            simp only [Option.bind_some]
            cases apply r.1 <;> rfl
  -- the readers of one type return 0 whatever `generic_read` returns
  have hread : ∀ {α β : Type} (apply : Packet → Option (Int × α × Connection)) (f : α → β),
      ((operation link w (call.request c) apply).bind fun r =>
          some ({ ret := 0, out := f r.out, conn := r.conn, world := r.world } : Done W β)).map
            (fun r => (r.ret, r.conn)) =
        (call.request c).bind fun p => (exchange link p w).bind fun r =>
          (apply r.1).map fun s => (0, s.2.2) := by
    intro α β apply f
    rw [operation]
    cases call.request c with
    | none => rfl
    | some p =>
        simp only [Option.bind_eq_bind, Option.bind_some]
        cases exchange link p w with
        | none => rfl
        | some r =>
            simp only [Option.bind_some]
            cases apply r.1 <;> rfl
  cases call with
  | digitalRead pinId =>
      exact hread (genericReadApply c pinId pinTypeDigital) fun v : BitVec 16 => v != 0
  | analogicRead pinId =>
      exact hread (genericReadApply c pinId pinTypeAnalog16) fun v : BitVec 16 => v
  | pwm8Read pinId =>
      exact hread (genericReadApply c pinId pinTypePwm8) fun v : BitVec 16 => v.setWidth 8
  | pwm16Read pinId =>
      exact hread (genericReadApply c pinId pinTypePwm16) fun v : BitVec 16 => v
  | genericRead pinId pinMode => exact hmap (genericReadApply c pinId pinMode)
  | readValueMask mask type => exact hmap (readValueMaskApply c mask type)
  | genericWrite pinId pinMode val valSize => exact hmap fun _ => genericWriteApply c pinId val
  | digitalWrite pinId val =>
      exact hmap fun _ => genericWriteApply c pinId ((BitVec.ofBool val).setWidth 16)
  | analogicWrite pinId val => exact hmap fun _ => genericWriteApply c pinId val
  | pwm8Write pinId val => exact hmap fun _ => genericWriteApply c pinId val
  | pwm16Write pinId val => exact hmap fun _ => genericWriteApply c pinId val
  | writeValueMask mask type values => exact hmap fun _ => writeValueMaskApply c mask values
  | getType pinId => exact hmap (getTypeApply c pinId)
  | getTypeMask mask => exact hmap (getTypeMaskApply c mask)
  | setType pinId type => exact hmap fun _ => setTypeApply c pinId type
  | setTypeMask mask types => exact hmap fun _ => setTypeMaskApply c mask types
  | getFailsafe pinId => exact hmap (getFailsafeApply c)
  | getFailsafeMask mask table => exact hmap (getFailsafeMaskApply c mask table)
  | setFailsafe pinId timeout entry => exact hmap fun _ => setFailsafeApply c pinId timeout entry
  | setFailsafeMask mask type timeout values =>
      exact hmap fun _ => setFailsafeMaskApply c mask type timeout values

/-- The request is built and sent within its buffer, the reply has an id, and the rest is up to the
call. -/
theorem perform_replied {call : DriverCall}
    (hlink : ∀ frame, (call.request c).bind sendPacket = some frame →
      link frame w = some (reply, w'))
    (hreply : reply.size.toNat = reply.data.length) :
    call.perform link c w =
      if ((call.request c).bind sendPacket).isSome ∧ 0 < reply.data.length then
        call.treat c reply
      else none := by
  rw [perform_eq]
  cases hrequest : call.request c with
  | none => simp
  | some p =>
      cases hsend : sendPacket p with
      | none => simp [exchange, hsend]
      | some frame =>
          have hframe := hlink frame (by rw [hrequest, Option.bind_some, hsend])
          rw [Option.bind_some, exchange_replied hsend hframe hreply]
          by_cases hpos : 0 < reply.data.length <;> simp [hpos, hsend]

end Replied

/-! ## Entries in a reply -/

/-- The buffer has the entry `e` from bit `a` on. -/
structure EntryFound (buffer : Buffer) (a : Nat) (e : PinFailsafe) : Prop where
  type : a % 2 ^ 16 + pinTypeBitsNb ≤ 8 * buffer.length
  value : (a + pinTypeBitsNb) % 2 ^ 16 + max (getTypeBitsNb e.pinState) 1 ≤ 8 * buffer.length
  read : EntryRead (bitAt buffer) a e

def EntriesFound (buffer : Buffer) : Nat → List PinFailsafe → Prop
  | _, [] => True
  | a, e :: es => EntryFound buffer a e ∧ EntriesFound buffer (a + slotLength e) es

theorem readFailsafeEntry_eq_some {buffer : Buffer} {a a' : Nat} {e : PinFailsafe} :
    readFailsafeEntry buffer a = some (e, a') ↔ EntryFound buffer a e ∧ a' = a + slotLength e := by
  rw [readFailsafeEntry_eq]
  simp only [Option.ite_none_right_eq_some, Option.some.injEq, Prod.mk.injEq]
  constructor
  · rintro ⟨⟨htype, hvalue⟩, rfl, rfl⟩
    refine ⟨⟨htype, hvalue, (toNat_readType _ a).symm, ?_⟩, Nat.add_assoc _ _ _⟩
    rw [BitVec.toNat_ofNat]
  · rintro ⟨⟨htype, hvalue, hread⟩, rfl⟩
    have hstate : BitVec.ofNat 8 (fieldRead (bitAt buffer) (a % 2 ^ 16) pinTypeBitsNb) =
        e.pinState := BitVec.eq_of_toNat_eq ((toNat_readType _ a).trans hread.type)
    have hval : BitVec.ofNat 16 (fieldRead (bitAt buffer) ((a + pinTypeBitsNb) % 2 ^ 16)
        (getTypeBitsNb e.pinState)) = e.pinValue :=
      BitVec.eq_of_toNat_eq ((BitVec.toNat_ofNat _ _).trans hread.value)
    rw [hstate, hval]
    exact ⟨⟨htype, hvalue⟩, rfl, Nat.add_assoc _ _ _⟩

/-- The reader of a table finds exactly what the buffer has. -/
theorem readEntries_eq_some {buffer : Buffer} {es : List PinFailsafe} {a : Nat} :
    (∃ a', readEntries buffer es.length a = some (es, a')) ↔ EntriesFound buffer a es := by
  induction es generalizing a with
  | nil => exact iff_of_true ⟨a, rfl⟩ trivial
  | cons e es ih =>
      rw [EntriesFound, ← ih]
      constructor
      · rintro ⟨a', h⟩
        rcases Option.bind_eq_some_iff.mp h with ⟨⟨x, next⟩, hread, hrest⟩
        rcases Option.map_eq_some_iff.mp hrest with ⟨⟨xs, last⟩, hreadRest, heq⟩
        cases heq
        rcases readFailsafeEntry_eq_some.mp hread with ⟨hfound, rfl⟩
        exact ⟨hfound, _, hreadRest⟩
      · rintro ⟨hfound, a', hrest⟩
        refine ⟨a', ?_⟩
        rw [List.length_cons, readEntries, readFailsafeEntry_eq_some.mpr ⟨hfound, rfl⟩,
          Option.bind_some, hrest]
        rfl

/-! ## What a call asks of its reply -/

/-- The replies with which a call keeps the promise.  Some calls return 0 whatever they find: they
need a reply that reports success.  The others return 1 whatever they find: they need one that
reports a failure, and all that they store must be there already. -/
def DriverCall.KeptBy (c : Connection) (own : Failsafe) (reply : Packet) : DriverCall → Prop
  | .genericRead _ pinMode =>
      reply.Succeeded ∧ 8 + max (getTypeBitsNb pinMode) 1 ≤ 8 * reply.data.length
  | .digitalRead _ => reply.Succeeded ∧ 9 ≤ 8 * reply.data.length
  | .pwm8Read _ => reply.Succeeded ∧ 16 ≤ 8 * reply.data.length
  | .analogicRead _ | .pwm16Read _ => reply.Succeeded ∧ 24 ≤ 8 * reply.data.length
  | .readValueMask mask type =>
      reply.Succeeded ∧
        Fits 8 (getTypeBitsNb type) (usedPins mask c.nbPins).length reply.data.length
  | .genericWrite _ _ _ _ | .digitalWrite _ _ | .analogicWrite _ _ | .pwm8Write _ _
  | .pwm16Write _ _ | .writeValueMask _ _ _ | .setTypeMask _ _ | .setFailsafeMask _ _ _ _ =>
      reply.Succeeded
  | .getType _ => reply.Succeeded ∧ 11 ≤ 8 * reply.data.length
  | .getTypeMask mask =>
      ¬ reply.Succeeded ∧ Fits 8 3 (usedPins mask c.nbPins).length reply.data.length ∧
        ∀ n (hn : n < (usedPins mask c.nbPins).length),
          (fieldAt (bitAt reply.data) 8 3 n).setWidth 8 =
            (c.pinAt (usedPins mask c.nbPins)[n]).pinsType
  | .setType pinId type => ¬ reply.Succeeded ∧ type = (c.pinAt pinId.toNat).pinsType
  | .getFailsafe _ => ¬ reply.Succeeded ∧ ∃ e, EntryFound reply.data 24 e
  | .getFailsafeMask mask _ =>
      ¬ reply.Succeeded ∧ 24 ≤ 8 * reply.data.length ∧
        EntriesFound reply.data 24 (own.entriesAt (usedPins mask c.nbPins))
  | .setFailsafe pinId timeout entry =>
      ¬ reply.Succeeded ∧ timeout = own.timeout ∧ entry = own.entryAt pinId.toNat

section Treat

variable {c : Connection} {own : Failsafe} {reply : Packet} {mask : Mask} {pinId : BitVec 8}

/-- One entry of an array is replaced by itself. -/
theorem modify_eq_self_iff {α : Type} {xs : List α} {i : Nat} {x : α} (hx : xs[i]? = some x)
    (f : α → α) : xs.modify i f = xs ↔ f x = x := by
  have hscatter : scatter (fun _ => f) [i] xs = xs.modify i f := rfl
  rw [← hscatter, scatter_eq_self_iff (List.nodup_singleton i)]
  constructor
  · intro h
    have hone := h 0 Nat.one_pos
    rw [List.getElem_singleton, hx] at hone
    exact Option.some.inj hone
  · intro h n hn
    have hzero : [i][n] = i := List.getElem_singleton hn
    rw [hzero, hx, Option.map_some, h]

theorem sameType_iff (type : BitVec 8) (pin : PinState) :
    { pin with pinsType := type } = pin ↔ type = pin.pinsType := by
  refine ⟨fun h => congrArg PinState.pinsType h, fun h => ?_⟩
  cases h
  rfl

/-- Whether a field behind the reply id is inside the data. -/
theorem isSome_readBitValue {width : Nat} (hwidth : width ≤ 16) :
    (readBitValue reply.data 8 width).isSome ↔ 8 + max width 1 ≤ 8 * reply.data.length := by
  rw [readBitValue_eq (show 8 < 2 ^ 16 by decide) hwidth]
  split <;> simp_all

theorem genericReadApply_eq (hpin : pinId.toNat < c.pinsState.length) (pinMode : BitVec 8) :
    genericReadApply c pinId pinMode reply =
      (readBitValue reply.data 8 (getTypeBitsNb pinMode)).map fun val =>
        (0, val,
          { c with
            pinsState := c.pinsState.modify pinId.toNat fun pin =>
              { pin with pinsVal := val } }) := by
  simp only [genericReadApply, replyIdBitsNb, update_eq hpin, Option.bind_eq_bind,
    Option.bind_some, Option.pure_def]
  cases readBitValue reply.data 8 (getTypeBitsNb pinMode) <;> rfl

theorem genericRead_keepsPromise (hpin : pinId.toNat < c.pinsState.length) (pinMode : BitVec 8) :
    KeepsPromise c reply ((genericReadApply c pinId pinMode reply).map fun s => (s.1, s.2.2)) ↔
      reply.Succeeded ∧ 8 + max (getTypeBitsNb pinMode) 1 ≤ 8 * reply.data.length := by
  rw [genericReadApply_eq hpin, Option.map_map, ← isSome_readBitValue (getTypeBitsNb_le pinMode)]
  exact keepsPromise_zero

/-- The readers of one type return 0 themselves. -/
theorem readOf_keepsPromise (hpin : pinId.toNat < c.pinsState.length) (pinMode : BitVec 8) :
    KeepsPromise c reply ((genericReadApply c pinId pinMode reply).map fun s => (0, s.2.2)) ↔
      reply.Succeeded ∧ 8 + max (getTypeBitsNb pinMode) 1 ≤ 8 * reply.data.length := by
  rw [genericReadApply_eq hpin, Option.map_map, ← isSome_readBitValue (getTypeBitsNb_le pinMode)]
  exact keepsPromise_zero

theorem getType_keepsPromise (hpin : pinId.toNat < c.pinsState.length) :
    KeepsPromise c reply ((getTypeApply c pinId reply).map fun s => (s.1, s.2.2)) ↔
      reply.Succeeded ∧ 11 ≤ 8 * reply.data.length := by
  have happly : getTypeApply c pinId reply = (readBitValue reply.data 8 3).map fun type =>
      (0, type.setWidth 8,
        { c with
          pinsState := c.pinsState.modify pinId.toNat fun pin =>
            { pin with pinsType := type.setWidth 8 } }) := by
    simp only [getTypeApply, replyIdBitsNb, pinTypeBitsNb, update_eq hpin, Option.bind_eq_bind,
      Option.bind_some, Option.pure_def]
    cases readBitValue reply.data 8 3 <;> rfl
  have hsome := @isSome_readBitValue reply 3 (by decide)
  rw [happly, Option.map_map]
  exact keepsPromise_zero.trans (and_congr_right fun _ => hsome)

theorem readValueMask_keepsPromise (hlen : c.nbPins ≤ mask.length)
    (hpins : c.pinsState.length = c.nbPins) (type : BitVec 8) :
    KeepsPromise c reply ((readValueMaskApply c mask type reply).map fun s => (s.1, s.2.2)) ↔
      reply.Succeeded ∧
        Fits 8 (getTypeBitsNb type) (usedPins mask c.nbPins).length reply.data.length := by
  rw [readValueMaskApply_eq hlen hpins]
  by_cases hfit : Fits 8 (getTypeBitsNb type) (usedPins mask c.nbPins).length reply.data.length
  · rw [if_pos hfit]
    exact keepsPromise_some_zero.trans (and_iff_left hfit).symm
  · rw [if_neg hfit]
    exact iff_of_false not_keepsPromise_none fun h => hfit h.2

/-- The entries for the used pins are those that are there already. -/
theorem scatter_types_eq_self_iff (hpins : c.pinsState.length = c.nbPins)
    (types : Nat → BitVec 16) :
    scatter (fun i (pin : PinState) => { pin with pinsType := (types i).setWidth 8 })
        (usedPins mask c.nbPins) c.pinsState = c.pinsState ↔
      ∀ n (hn : n < (usedPins mask c.nbPins).length),
        (types n).setWidth 8 = (c.pinAt (usedPins mask c.nbPins)[n]).pinsType := by
  rw [scatter_eq_self_iff (nodup_usedPins mask c.nbPins)]
  refine forall_congr' fun n => forall_congr' fun hn => ?_
  have hpin : (usedPins mask c.nbPins)[n] < c.pinsState.length := by
    rw [hpins]
    exact usedPins_lt (List.getElem_mem hn)
  rw [Connection.getElem?_pinsState hpin, Option.map_some, Option.some.injEq, sameType_iff]

theorem getTypeMask_keepsPromise (hlen : c.nbPins ≤ mask.length)
    (hpins : c.pinsState.length = c.nbPins) :
    KeepsPromise c reply ((getTypeMaskApply c mask reply).map fun s => (s.1, s.2.2)) ↔
      ¬ reply.Succeeded ∧ Fits 8 3 (usedPins mask c.nbPins).length reply.data.length ∧
        ∀ n (hn : n < (usedPins mask c.nbPins).length),
          (fieldAt (bitAt reply.data) 8 3 n).setWidth 8 =
            (c.pinAt (usedPins mask c.nbPins)[n]).pinsType := by
  rw [getTypeMaskApply_eq hlen hpins]
  by_cases hfit : Fits 8 3 (usedPins mask c.nbPins).length reply.data.length
  · rw [if_pos hfit, ← scatter_types_eq_self_iff hpins]
    refine keepsPromise_some_one.trans (and_congr_right fun _ => ?_)
    constructor
    · rintro ⟨hsame, _⟩
      exact ⟨hfit, hsame⟩
    · rintro ⟨_, hsame⟩
      exact ⟨hsame, rfl⟩
  · rw [if_neg hfit]
    exact iff_of_false not_keepsPromise_none fun h => hfit h.2.1

theorem setType_keepsPromise (hpin : pinId.toNat < c.pinsState.length) (type : BitVec 8) :
    KeepsPromise c reply ((setTypeApply c pinId type).map fun s => (s.1, s.2.2)) ↔
      ¬ reply.Succeeded ∧ type = (c.pinAt pinId.toNat).pinsType := by
  have hsame := modify_eq_self_iff (Connection.getElem?_pinsState hpin)
    (fun pin : PinState => { pin with pinsType := type })
  rw [sameType_iff] at hsame
  simp only [setTypeApply, update_eq hpin, Option.bind_eq_bind, Option.bind_some, Option.pure_def]
  rw [← hsame]
  refine keepsPromise_some_one.trans (and_congr_right fun _ => ?_)
  exact ⟨fun h => h.1, fun h => ⟨h, rfl⟩⟩

theorem getFailsafe_keepsPromise :
    KeepsPromise c reply ((getFailsafeApply c reply).map fun s => (s.1, s.2.2)) ↔
      ¬ reply.Succeeded ∧ ∃ e, EntryFound reply.data 24 e := by
  rw [getFailsafeApply_eq, Option.map_map]
  refine keepsPromise_one.trans (and_congr_right fun _ => ?_)
  constructor
  · rintro ⟨⟨e, a'⟩, hread, _⟩
    exact ⟨e, (readFailsafeEntry_eq_some.mp hread).1⟩
  · rintro ⟨e, hfound⟩
    exact ⟨_, readFailsafeEntry_eq_some.mpr ⟨hfound, rfl⟩, rfl, rfl⟩

theorem setFailsafe_keepsPromise (hown : c.failsafe = some own)
    (hpin : pinId.toNat < own.pinsFailsafe.length) (timeout : BitVec 16) (entry : PinFailsafe) :
    KeepsPromise c reply ((setFailsafeApply c pinId timeout entry).map fun s => (s.1, s.2.2)) ↔
      ¬ reply.Succeeded ∧ timeout = own.timeout ∧ entry = own.entryAt pinId.toNat := by
  have hsame := modify_eq_self_iff (Failsafe.getElem?_pinsFailsafe hpin) fun _ => entry
  simp only [setFailsafeApply, hown, update_eq hpin, Option.bind_eq_bind, Option.bind_some,
    Option.pure_def]
  rw [← hsame]
  refine keepsPromise_some_one.trans (and_congr_right fun _ => ?_)
  constructor
  · rintro ⟨_, htable⟩
    rw [hown] at htable
    have heq := Option.some.inj htable
    exact ⟨congrArg Failsafe.timeout heq, congrArg Failsafe.pinsFailsafe heq⟩
  · rintro ⟨rfl, htable⟩
    refine ⟨rfl, ?_⟩
    rw [htable, hown]

/-- A table whose entries for the used pins are replaced by themselves. -/
theorem scatter_entries_eq_self_iff (htable : own.pinsFailsafe.length = c.nbPins)
    {es t : List PinFailsafe} (hcount : es.length = (usedPins mask c.nbPins).length) :
    scatter (fun i _ => (es ++ t).getD i freshEntry) (usedPins mask c.nbPins)
        own.pinsFailsafe = own.pinsFailsafe ↔ es = own.entriesAt (usedPins mask c.nbPins) := by
  have hentry : ∀ n (hn : n < (usedPins mask c.nbPins).length),
      own.pinsFailsafe[(usedPins mask c.nbPins)[n]]? =
        some (own.entryAt (usedPins mask c.nbPins)[n]) := by
    intro n hn
    refine Failsafe.getElem?_pinsFailsafe ?_
    rw [htable]
    exact usedPins_lt (List.getElem_mem hn)
  have hfound : ∀ n (hn : n < es.length), (es ++ t).getD n freshEntry = es[n] := by
    intro n hn
    rw [List.getD_append _ _ _ _ hn, List.getD_eq_getElem _ _ hn]
  rw [scatter_eq_self_iff (nodup_usedPins mask c.nbPins)]
  constructor
  · intro h
    refine List.ext_getElem (by rw [hcount, Failsafe.entriesAt, List.length_map]) fun n hn _ => ?_
    have hn' : n < (usedPins mask c.nbPins).length := hcount ▸ hn
    have hsame := h n hn'
    rw [hentry n hn', Option.map_some, Option.some.injEq, hfound n hn] at hsame
    simpa [Failsafe.entriesAt] using hsame
  · rintro rfl n hn
    rw [hentry n hn, Option.map_some, hfound n (hcount ▸ hn)]
    simp [Failsafe.entriesAt]

theorem getFailsafeMask_keepsPromise (hlen : c.nbPins ≤ mask.length)
    (hown : c.failsafe = some own) (htable : own.pinsFailsafe.length = c.nbPins) {g : Failsafe}
    (hroom : (usedPins mask c.nbPins).length ≤ g.pinsFailsafe.length) :
    KeepsPromise c reply ((getFailsafeMaskApply c mask g reply).map fun s => (s.1, s.2.2)) ↔
      ¬ reply.Succeeded ∧ 24 ≤ 8 * reply.data.length ∧
        EntriesFound reply.data 24 (own.entriesAt (usedPins mask c.nbPins)) := by
  have htimeout : readBitValue reply.data 8 16 = _ :=
    readBitValue_eq (show 8 < 2 ^ 16 by decide) (show 16 ≤ 16 by decide)
  -- the timeout is read before the entries
  by_cases hfit : 24 ≤ 8 * reply.data.length
  · rw [if_pos (by omega)] at htimeout
    have happly := getFailsafeMaskApply_eq (f := ⟨_, []⟩) hlen hown (Nat.le_of_eq htable.symm) hroom
      htimeout
    have hcount : (own.entriesAt (usedPins mask c.nbPins)).length =
        (usedPins mask c.nbPins).length := by
      rw [Failsafe.entriesAt, List.length_map]
    rw [happly, Option.map_map]
    refine keepsPromise_one.trans (and_congr_right fun _ => ?_)
    rw [← readEntries_eq_some, hcount]
    constructor
    · rintro ⟨⟨es, a'⟩, hread, _, hsame⟩
      rw [hown] at hsame
      -- the entries that were read go into the own table: they are those it had
      have hscatter := congrArg Failsafe.pinsFailsafe (Option.some.inj hsame)
      have hes := (scatter_entries_eq_self_iff htable (length_readEntries hread)).mp hscatter
      exact ⟨hfit, a', hes ▸ hread⟩
    · rintro ⟨_, a', hread⟩
      refine ⟨_, hread, rfl, ?_⟩
      have hscatter := (scatter_entries_eq_self_iff (t := g.pinsFailsafe.drop
        (usedPins mask c.nbPins).length) htable hcount).mpr rfl
      simp only [hscatter, hown]
  · rw [if_neg (by omega)] at htimeout
    have hnone : getFailsafeMaskApply c mask g reply = none := by
      simp only [getFailsafeMaskApply, maskNbPinsUsed_eq hlen c.nbPins_lt, replyIdBitsNb,
        timeoutBitsNb, htimeout, Option.bind_eq_bind, Option.bind_some, Option.bind_none]
    rw [hnone]
    exact iff_of_false not_keepsPromise_none fun h => hfit h.2.1

/-- The calls that store what the caller has given, without a look at the reply. -/
theorem genericWrite_keepsPromise (hpin : pinId.toNat < c.pinsState.length) (val : BitVec 16) :
    KeepsPromise c reply ((genericWriteApply c pinId val).map fun s => (s.1, s.2.2)) ↔
      reply.Succeeded := by
  simp only [genericWriteApply, update_eq hpin, Option.bind_eq_bind, Option.bind_some,
    Option.pure_def]
  exact keepsPromise_some_zero

theorem writeValueMask_keepsPromise (hlen : c.nbPins ≤ mask.length)
    (hpins : c.pinsState.length = c.nbPins) {values : List (BitVec 16)}
    (hvalues : (usedPins mask c.nbPins).length ≤ values.length) :
    KeepsPromise c reply ((writeValueMaskApply c mask values).map fun s => (s.1, s.2.2)) ↔
      reply.Succeeded := by
  simp only [writeValueMaskApply, storePerPin_eq hlen (Nat.le_of_eq hpins.symm) hvalues 0,
    Option.bind_eq_bind, Option.bind_some, Option.pure_def]
  exact keepsPromise_some_zero

theorem setTypeMask_keepsPromise (hlen : c.nbPins ≤ mask.length)
    (hpins : c.pinsState.length = c.nbPins) {values : List (BitVec 16)}
    (hvalues : (usedPins mask c.nbPins).length ≤ values.length) :
    KeepsPromise c reply ((setTypeMaskApply c mask values).map fun s => (s.1, s.2.2)) ↔
      reply.Succeeded := by
  simp only [setTypeMaskApply, storePerPin_eq hlen (Nat.le_of_eq hpins.symm) hvalues 0,
    Option.bind_eq_bind, Option.bind_some, Option.pure_def]
  exact keepsPromise_some_zero

theorem setFailsafeMask_keepsPromise (hlen : c.nbPins ≤ mask.length)
    (hown : c.failsafe = some own) (htable : own.pinsFailsafe.length = c.nbPins)
    (type : BitVec 8) (timeout : BitVec 16) {values : List (BitVec 16)}
    (hvalues : (usedPins mask c.nbPins).length ≤ values.length) :
    KeepsPromise c reply
        ((setFailsafeMaskApply c mask type timeout values).map fun s => (s.1, s.2.2)) ↔
      reply.Succeeded := by
  simp only [setFailsafeMaskApply, hown, storePerPin_eq hlen (Nat.le_of_eq htable.symm) hvalues 0,
    Option.bind_eq_bind, Option.bind_some, Option.pure_def]
  exact keepsPromise_some_zero

end Treat

/-! ## All calls -/

section Calls

variable {link : Link W} {c : Connection} {w w' : W} {chunk : Buffer} {reply : Packet}
  {call : DriverCall} {own : Failsafe}

theorem treat_keepsPromise_iff (hpins : c.pinsState.length = c.nbPins)
    (hown : c.failsafe = some own) (htable : own.pinsFailsafe.length = c.nbPins)
    (hcall : call.InRange c.nbPins) :
    KeepsPromise c reply (call.treat c reply) ↔ call.KeptBy c own reply := by
  -- one lemma for each operation; the typed calls are instances of the generic ones
  have hpin : ∀ {pinId : BitVec 8}, pinId.toNat < c.nbPins → pinId.toNat < c.pinsState.length :=
    fun h => Nat.lt_of_lt_of_eq h hpins.symm
  cases call with
  | genericRead pinId pinMode =>
      exact genericRead_keepsPromise (hpin hcall) pinMode
  | digitalRead pinId => exact readOf_keepsPromise (hpin hcall) pinTypeDigital
  | analogicRead pinId => exact readOf_keepsPromise (hpin hcall) pinTypeAnalog16
  | pwm8Read pinId => exact readOf_keepsPromise (hpin hcall) pinTypePwm8
  | pwm16Read pinId => exact readOf_keepsPromise (hpin hcall) pinTypePwm16
  | readValueMask mask type => exact readValueMask_keepsPromise hcall hpins type
  | genericWrite pinId _ val _ => exact genericWrite_keepsPromise (hpin hcall) val
  | digitalWrite pinId val => exact genericWrite_keepsPromise (hpin hcall) _
  | analogicWrite pinId val => exact genericWrite_keepsPromise (hpin hcall) val
  | pwm8Write pinId val => exact genericWrite_keepsPromise (hpin hcall) val
  | pwm16Write pinId val => exact genericWrite_keepsPromise (hpin hcall) val
  | writeValueMask mask type values => exact writeValueMask_keepsPromise hcall.1 hpins hcall.2
  | getType pinId => exact getType_keepsPromise (hpin hcall)
  | getTypeMask mask => exact getTypeMask_keepsPromise hcall hpins
  | setType pinId type => exact setType_keepsPromise (hpin hcall) type
  | setTypeMask mask types => exact setTypeMask_keepsPromise hcall.1 hpins hcall.2
  | getFailsafe pinId => exact getFailsafe_keepsPromise
  | getFailsafeMask mask table =>
      exact getFailsafeMask_keepsPromise hcall.1 hown htable hcall.2
  | setFailsafe pinId timeout entry =>
      exact setFailsafe_keepsPromise hown (Nat.lt_of_lt_of_eq hcall htable.symm) timeout entry
  | setFailsafeMask mask type timeout values =>
      exact setFailsafeMask_keepsPromise hcall.1 hown htable type timeout hcall.2

/-- Whatever is sent and whatever comes back: a call keeps the promise exactly if its request stays
within its buffer, the reply has an id, and is one with which the call keeps it. -/
theorem errors_reported_iff (hpins : c.pinsState.length = c.nbPins)
    (hown : c.failsafe = some own) (htable : own.pinsFailsafe.length = c.nbPins)
    (hcall : call.InRange c.nbPins)
    (hlink : ∀ frame, (call.request c).bind sendPacket = some frame →
      link frame w = some (reply, w'))
    (hread : connectionRead hostBuild chunk = some (.packet reply)) :
    KeepsPromise c reply (call.perform link c w) ↔
      ((call.request c).bind sendPacket).isSome ∧ 0 < reply.data.length ∧
        call.KeptBy c own reply := by
  rw [perform_replied hlink (intact_of_connectionRead hread).symm, ← and_assoc]
  by_cases hsent : ((call.request c).bind sendPacket).isSome ∧ 0 < reply.data.length
  · rw [if_pos hsent, treat_keepsPromise_iff hpins hown htable hcall]
    exact (and_iff_right hsent).symm
  · rw [if_neg hsent]
    exact iff_of_false not_keepsPromise_none fun h => hsent h.1

/-- Two pins; the device reports that it has written the first one. -/
theorem errors_reported_write :
    let c := (initialDevice hostBuild 2).conn
    let reply := delivered (setPacketHeader cmdWrite repCodeSuccess 1 [0#8])
    KeepsPromise c reply
      ((DriverCall.digitalWrite 0 true).perform (fun _ (_ : Unit) => some (reply, ())) c ()) := by
  intro c reply
  obtain ⟨own, hown, htable⟩ : ∃ own, c.failsafe = some own ∧ own.pinsFailsafe.length = 2 :=
    ⟨_, rfl, by decide⟩
  have hcall : (DriverCall.digitalWrite 0 true).InRange c.nbPins :=
    show (0#8).toNat < c.nbPins by decide
  have hsent : (((DriverCall.digitalWrite 0 true).request c).bind sendPacket).isSome := by
    decide +kernel
  exact (errors_reported_iff (by decide) hown htable hcall (fun _ _ => rfl)
    (connectionRead_delivered hostBuild (by decide))).mpr
      ⟨hsent, by decide, by decide +kernel, by decide⟩

/-- The same call with a reply that says `REP_CODE_FAILURE`. -/
theorem not_errors_reported_failure :
    let c := (initialDevice hostBuild 2).conn
    let reply := delivered (setPacketHeader cmdWrite 7#8 1 [0#8])
    let result := (DriverCall.digitalWrite 0 true).perform
      (fun _ (_ : Unit) => some (reply, ())) c ()
    connectionRead hostBuild (frameOf reply) = some (.packet reply) ∧ ¬ reply.Succeeded ∧
      result.map (fun r => (r.1, r.2.pinsState)) =
        some (0, [⟨pinTypeDigital, 1⟩, ⟨pinTypeDigital, 0⟩]) ∧
      ¬ KeepsPromise c reply result := by
  intro c reply result
  have hfail : ¬ reply.Succeeded := fun h => absurd h.2 (by decide)
  have hrun : result.map (fun r => (r.1, r.2.pinsState)) =
      some (0, [⟨pinTypeDigital, 1⟩, ⟨pinTypeDigital, 0⟩]) := by
    decide +kernel
  refine ⟨connectionRead_delivered hostBuild (by decide), hfail, hrun, ?_⟩
  rintro ⟨r, hr, hzero, _⟩
  rw [hr, Option.map_some, Option.some.injEq, Prod.mk.injEq] at hrun
  exact hfail (hzero.mp hrun.1)

end Calls

end PinProtocol
