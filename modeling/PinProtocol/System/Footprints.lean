import PinProtocol.Control.Assign
import PinProtocol.Control.Cells
import PinProtocol.System.FailsafeQueries
import PinProtocol.System.ReplyIds

/-!
# Footprints — what a request reads and writes

The tables of the device are cells: the type and the value of every pin, the failsafe of every pin
and the timeout of all of them.  A request assigns constants to the cells of the pins that it
names, and its reply depends on the cells that it reads.  From one step of this kind the library
gives what a maintainer wants to know about runs:

* `cell_last_assigned`: the state after any run, cell by cell;
* `reply_depends_on_read`: a reply tells nothing about requests that name other pins;
* `reordered_requests`: requests that do not meet may be sent in another order.
-/

namespace PinProtocol

open Bits Control

/-! ## Cells -/

inductive Cell
  | type (pin : Nat)
  | value (pin : Nat)
  | failsafe (pin : Nat)
  | timeout
  deriving DecidableEq, Repr

abbrev Cell.Val : Cell → Type
  | .type _ => BitVec 8
  | .value _ => BitVec 16
  | .failsafe _ => PinFailsafe
  | .timeout => BitVec 16

/-- Without failsafe the table is empty. -/
def Connection.failsafeTable (c : Connection) : Failsafe :=
  c.failsafe.getD { timeout := 0, pinsFailsafe := [] }

def Device.cell (d : Device) : (k : Cell) → k.Val
  | .type pin => (d.conn.pinAt pin).pinsType
  | .value pin => (d.conn.pinAt pin).pinsVal
  | .failsafe pin => d.conn.failsafeTable.entryAt pin
  | .timeout => d.conn.failsafeTable.timeout

/-! ## Footprints -/

/-- The pins that a request names, in a mask or by the number of one pin, from bit `offset` of its
data on. -/
def Packet.names (p : Packet) (nbPins offset : Nat) : List Nat :=
  if usesMask p then usedPins (maskOf (bitAt p.data) offset nbPins) nbPins
  else [p.pin (offset / 8)]

/-- The field for the pin, behind the mask or the number. -/
def Packet.fieldOf (p : Packet) (nbPins offset width pin : Nat) : BitVec 16 :=
  fieldAt (bitAt p.data) (offset + if usesMask p then nbPins else 8) width
    ((p.names nbPins offset).idxOf pin)

/-- What a request puts into a cell.  A write to one pin sets its type as well; a write to a mask
keeps the low byte of the values. -/
def Packet.assigned (b : Build) (nbPins : Nat) (p : Packet) : (k : Cell) → Option k.Val
  | .type pin =>
      if p.command = cmdWrite ∧ usesMask p = false ∧ pin ∈ p.names nbPins 0 then some p.type
      else if p.command = cmdSetType ∧ pin ∈ p.names nbPins 0 then
        some ((p.fieldOf nbPins 0 3 pin).setWidth 8)
      else none
  | .value pin =>
      if p.command = cmdWrite ∧ pin ∈ p.names nbPins 0 then
        let val := p.fieldOf nbPins 0 p.width pin
        some (if usesMask p then (val.setWidth 8).setWidth 16 else val)
      else none
  | .failsafe pin =>
      if p.command = cmdSetFailsafe ∧ b.disableFailsafe = false ∧ pin ∈ p.names nbPins 16 then
        some { pinState := p.type, pinValue := p.fieldOf nbPins 16 p.width pin }
      else none
  | .timeout =>
      if p.command = cmdSetFailsafe ∧ b.disableFailsafe = false then
        some (fieldAt (bitAt p.data) 0 16 0)
      else none

/-- The cells that the reply to a request depends on. -/
def Packet.Reads (b : Build) (nbPins : Nat) (p : Packet) : Cell → Prop
  | .type pin => p.command = cmdGetType ∧ pin ∈ p.names nbPins 0
  | .value pin => p.command = cmdRead ∧ pin ∈ p.names nbPins 0
  | .failsafe pin =>
      p.command = cmdGetFailsafe ∧ b.disableFailsafe = false ∧ pin ∈ p.names nbPins 0
  | .timeout => p.command = cmdGetFailsafe ∧ b.disableFailsafe = false

/-- A reply without its id and its checksum: header and size, and the data behind the id. -/
def replyBody (frame : Buffer) : Buffer × Buffer :=
  (frame.take 3, (frame.drop 4).dropLast)

/-- One request, with the bodies of its replies. -/
def treat (b : Build) (p : Packet) (d : Device) : Option (List (Buffer × Buffer) × Device) :=
  (dispatch b d p).map fun s => (s.2.map replyBody, s.1)

/-! ## What a request assigns -/

section Assigned

variable {b : Build} {nbPins : BitVec 8} {d d' e : Device} {p : Packet} {r : Option Packet}

theorem names_pin (hkind : usesMask p = false) (n offset : Nat) :
    p.names n offset = [p.pin (offset / 8)] := by
  rw [Packet.names, hkind, if_neg Bool.false_ne_true]

theorem names_mask (hkind : usesMask p = true) (c : Connection) (offset : Nat) :
    p.names c.nbPins offset = maskedPins c p offset := by
  rw [Packet.names, hkind, if_pos rfl, maskedPins]

theorem fieldOf_pin (hkind : usesMask p = false) (n offset width pin : Nat) :
    p.fieldOf n offset width pin =
      fieldAt (bitAt p.data) (offset + 8) width ([p.pin (offset / 8)].idxOf pin) := by
  rw [Packet.fieldOf, hkind, names_pin hkind, if_neg Bool.false_ne_true]

theorem fieldOf_mask (hkind : usesMask p = true) (c : Connection) (offset width pin : Nat) :
    p.fieldOf c.nbPins offset width pin =
      fieldAt (bitAt p.data) (offset + c.nbPins) width ((maskedPins c p offset).idxOf pin) := by
  rw [Packet.fieldOf, hkind, if_pos rfl, names_mask hkind]

/-- Pins whose states have been replaced one by one. -/
theorem pinAt_put (hd : d.conn.WellFormed) {is : List Nat} (hnd : is.Nodup)
    (his : ∀ i ∈ is, i < d.conn.nbPins) (upd : Nat → PinState → PinState) (q : Nat) :
    (d.put { d.conn with pinsState := scatter upd is d.conn.pinsState }).conn.pinAt q =
      if q ∈ is then upd (is.idxOf q) (d.conn.pinAt q) else d.conn.pinAt q :=
  getD_scatter hnd (by rwa [hd.pinsState]) freshPin q

theorem entryAt_put {f : Failsafe} (hd : d.conn.WellFormed) (hf : d.conn.failsafe = some f)
    {is : List Nat} (hnd : is.Nodup) (his : ∀ i ∈ is, i < d.conn.nbPins) (timeout : BitVec 16)
    (upd : Nat → PinFailsafe → PinFailsafe) (q : Nat) :
    (d.putFailsafe timeout (scatter upd is f.pinsFailsafe)).conn.failsafeTable.entryAt q =
      if q ∈ is then upd (is.idxOf q) (d.conn.failsafeTable.entryAt q)
      else d.conn.failsafeTable.entryAt q := by
  have htable : d.conn.failsafeTable = f := by rw [Connection.failsafeTable, hf]; rfl
  rw [htable]
  exact getD_scatter hnd (by rwa [hd.failsafe f hf]) freshEntry q

/-- Queries, and requests that the device has not been built for, assign nothing. -/
theorem assigned_eq_none (hwrite : p.command ≠ cmdWrite) (htype : p.command ≠ cmdSetType)
    (hfailsafe : p.command = cmdSetFailsafe → b.disableFailsafe = true) (n : Nat) (k : Cell) :
    p.assigned b n k = none := by
  have hoff : ¬ (p.command = cmdSetFailsafe ∧ b.disableFailsafe = false) := by
    rintro ⟨hset, hb⟩
    rw [hfailsafe hset] at hb
    cases hb
  cases k with
  | type pin => simp [Packet.assigned, hwrite, htype]
  | value pin => simp [Packet.assigned, hwrite]
  | failsafe pin => exact if_neg fun h => hoff ⟨h.1, h.2.1⟩
  | timeout => exact if_neg hoff

/-- The cells of pins that a write has changed; a write to a mask leaves their types alone. -/
theorem cell_of_write {n : Nat} (h : p.command = cmdWrite)
    (hfailsafe : d'.conn.failsafe = d.conn.failsafe)
    (hpins : ∀ q, d'.conn.pinAt q =
      if q ∈ p.names n 0 then
        { pinsType := if usesMask p then (d.conn.pinAt q).pinsType else p.type
          pinsVal :=
            let val := p.fieldOf n 0 p.width q
            if usesMask p then (val.setWidth 8).setWidth 16 else val }
      else d.conn.pinAt q) (k : Cell) :
    d'.cell k = (p.assigned b n k).getD (d.cell k) := by
  have hother : cmdWrite ≠ cmdSetType ∧ cmdWrite ≠ cmdSetFailsafe := by decide
  cases k with
  | type q =>
      by_cases hq : q ∈ p.names n 0
      · cases hkind : usesMask p <;>
          simp [Device.cell, Packet.assigned, hpins, h, hq, hkind, hother]
      · simp [Device.cell, Packet.assigned, hpins, h, hq, hother]
  | value q => by_cases hq : q ∈ p.names n 0 <;> simp [Device.cell, Packet.assigned, hpins, h, hq]
  | failsafe q =>
      simp [Device.cell, Packet.assigned, h, hother, Connection.failsafeTable, hfailsafe]
  | timeout => simp [Device.cell, Packet.assigned, h, hother, Connection.failsafeTable, hfailsafe]

theorem cell_of_setType {n : Nat} (h : p.command = cmdSetType)
    (hfailsafe : d'.conn.failsafe = d.conn.failsafe)
    (hpins : ∀ q, d'.conn.pinAt q =
      if q ∈ p.names n 0 then
        { d.conn.pinAt q with pinsType := (p.fieldOf n 0 3 q).setWidth 8 }
      else d.conn.pinAt q) (k : Cell) :
    d'.cell k = (p.assigned b n k).getD (d.cell k) := by
  have hother : cmdSetType ≠ cmdWrite ∧ cmdSetType ≠ cmdSetFailsafe := by decide
  cases k with
  | type q =>
      by_cases hq : q ∈ p.names n 0 <;>
        simp [Device.cell, Packet.assigned, hpins, h, hq, hother]
  | value q =>
      by_cases hq : q ∈ p.names n 0 <;> simp [Device.cell, Packet.assigned, hpins, h, hq, hother]
  | failsafe q =>
      simp [Device.cell, Packet.assigned, h, hother, Connection.failsafeTable, hfailsafe]
  | timeout => simp [Device.cell, Packet.assigned, h, hother, Connection.failsafeTable, hfailsafe]

theorem cell_of_setFailsafe {n : Nat} (h : p.command = cmdSetFailsafe)
    (hb : b.disableFailsafe = false) (hpins : d'.conn.pinsState = d.conn.pinsState)
    (htimeout : d'.conn.failsafeTable.timeout = fieldAt (bitAt p.data) 0 16 0)
    (hentries : ∀ q, d'.conn.failsafeTable.entryAt q =
      if q ∈ p.names n 16 then { pinState := p.type, pinValue := p.fieldOf n 16 p.width q }
      else d.conn.failsafeTable.entryAt q) (k : Cell) :
    d'.cell k = (p.assigned b n k).getD (d.cell k) := by
  have hother : cmdSetFailsafe ≠ cmdWrite ∧ cmdSetFailsafe ≠ cmdSetType := by decide
  cases k with
  | type q => simp [Device.cell, Packet.assigned, h, hother, Connection.pinAt, hpins]
  | value q => simp [Device.cell, Packet.assigned, h, hother, Connection.pinAt, hpins]
  | failsafe q =>
      by_cases hq : q ∈ p.names n 16 <;>
        simp [Device.cell, Packet.assigned, hentries, h, hb, hq]
  | timeout => simp [Device.cell, Packet.assigned, h, hb, htimeout]

/-- A request assigns what `assigned` says, and leaves all other cells alone. -/
theorem cell_of_serves (hd : d.Ready b) (h : Serves b d p d' r) (k : Cell) :
    d'.cell k = (p.assigned b d.conn.nbPins k).getD (d.cell k) := by
  have hwf := hd.wellFormed
  have hmasked : ∀ offset, ∀ i ∈ maskedPins d.conn p offset, i < d.conn.nbPins :=
    fun offset i hi => usedPins_lt hi
  have hnd : ∀ offset, (maskedPins d.conn p offset).Nodup := fun offset => nodup_usedPins _ _
  cases h with
  | getCaps h | reset h | ping h | readPin h | readMask h | getTypePin h | getTypeMask h
  | getFailsafePin h | getFailsafeMask h =>
      -- A query, and the reset that does nothing, assign no cell.
      rw [assigned_eq_none (by rw [h]; decide) (by rw [h]; decide)
        (fun h' => absurd (h.symm.trans h') (by decide))]
      rfl
  -- A single pin is the scatter over a list of one, so both kinds of request go through `put`.
  | writePin h hkind hacc =>
      refine cell_of_write h ?_ (fun q => ?_) k
      · rfl
      · rw [← scatter_singleton (fun _ _ => _), pinAt_put hwf (List.nodup_singleton _)
          (by simpa using hacc.1.2), names_pin hkind, hkind, fieldOf_pin hkind]
        by_cases hq : q = p.pin 0 <;> simp [hq]
  | writeMask h hkind hacc =>
      refine cell_of_write h ?_ (fun q => ?_) k
      · rfl
      · rw [pinAt_put hwf (hnd 0) (hmasked 0), names_mask hkind, hkind, fieldOf_mask hkind,
          Nat.zero_add]
        rfl
  | setTypePin h hkind hacc =>
      refine cell_of_setType h ?_ (fun q => ?_) k
      · rfl
      · refine (pinAt_put hwf (List.nodup_singleton (p.pin 0)) (by simpa using hacc.1.2)
          (fun _ x => { x with pinsType := (fieldAt (bitAt p.data) 8 3 0).setWidth 8 }) q).trans ?_
        rw [names_pin hkind, fieldOf_pin hkind]
        by_cases hq : q = p.pin 0 <;> simp [hq]
  | setTypeMask h hkind hacc =>
      refine cell_of_setType h ?_ (fun q => ?_) k
      · rfl
      · rw [pinAt_put hwf (hnd 0) (hmasked 0), names_mask hkind, fieldOf_mask hkind,
          Nat.zero_add]
  | setFailsafePin h hb hkind hf hacc =>
      refine cell_of_setFailsafe h hb ?_ ?_ (fun q => ?_) k
      · rfl
      · rfl
      · rw [← scatter_singleton (fun _ _ => _), entryAt_put hwf hf (List.nodup_singleton _)
          (by simpa using hacc.1.2), names_pin hkind, fieldOf_pin hkind]
        by_cases hq : q = p.pin 2 <;> simp [hq]
  | setFailsafeMask h hb hkind hf hacc =>
      refine cell_of_setFailsafe h hb ?_ ?_ (fun q => ?_) k
      · rfl
      · rfl
      · rw [entryAt_put hwf hf (hnd 16) (hmasked 16), names_mask hkind, fieldOf_mask hkind]
  | noFailsafe h hb =>
      -- Built without failsafes, the firmware skips both commands and keeps no table.
      rw [assigned_eq_none (by rcases h with h | h <;> rw [h] <;> decide)
        (by rcases h with h | h <;> rw [h] <;> decide) (fun _ => hb)]
      rfl
  | unknown h =>
      have hneq : ∀ code : BitVec 8, code.toNat ≤ 8 → p.command ≠ code := by
        rintro code hcode rfl
        omega
      rw [assigned_eq_none (hneq _ (by decide)) (hneq _ (by decide))
        (fun h' => absurd h' (hneq _ (by decide)))]
      rfl

end Assigned

/-! ## What a reply depends on -/

section Replies

variable {b : Build} {d d' e : Device} {p : Packet} {r : Option Packet}

/-- The body of a reply that has been sent. -/
def Packet.body (q : Packet) : Buffer × Buffer :=
  replyBody (frameOf (delivered q))

theorem body_eq (q : Packet) :
    q.body = ([q.header, hiByte q.size, loByte q.size], (q.data.take q.size.toNat).tail) := by
  have htail : ∀ (xs : Buffer) (c : Byte), ((xs ++ [c]).drop 1).dropLast = xs.tail := by
    intro xs c
    cases xs with
    | nil => rfl
    | cons x xs => exact List.dropLast_concat
  have htake : List.take q.size.toNat (q.data.take q.size.toNat) = q.data.take q.size.toNat := by
    rw [List.take_take, Nat.min_self]
  rw [Packet.body, replyBody, frameOf, data_delivered, size_delivered, htake]
  exact Prod.ext rfl (htail _ _)

/-- The id is the first byte of the data, and no more. -/
theorem tail_take_set (xs : Buffer) (id id' : Byte) (n : Nat) :
    ((xs.set 0 id).take n).tail = ((xs.set 0 id').take n).tail := by
  cases xs with
  | nil => rfl
  | cons x xs =>
      cases n with
      | zero => rfl
      | succ n => rfl

theorem replyPacket_body (cmdNo id id' : BitVec 8) (size : Nat) (data : Buffer) :
    (replyPacket cmdNo id size data).body = (replyPacket cmdNo id' size data).body := by
  rw [body_eq, body_eq]
  exact Prod.ext rfl (tail_take_set data id id' _)

theorem failsafeReply_body (id id' : BitVec 8) (timeout : BitVec 16) (size : Nat)
    (f : Nat → Bool) :
    (failsafeReply id timeout size f).body = (failsafeReply id' timeout size f).body := by
  have htail : ∀ (xs : Buffer) (g : Nat → Bool) (n : Nat),
      ((orBits (xs.set 0 id) g).take n).tail = ((orBits (xs.set 0 id') g).take n).tail := by
    intro xs g n
    cases xs with
    | nil => rfl
    | cons x xs =>
        cases n with
        | zero => rfl
        | succ n => simp [orBits, List.mapIdx_cons]
  rw [body_eq, body_eq]
  exact Prod.ext rfl (htail _ _ _)

/-- Two devices of one kind: they differ in their tables only. -/
structure Device.Alike (d e : Device) : Prop where
  caps : e.conn.caps = d.conn.caps
  version : e.conn.protocolVersion = d.conn.protocolVersion

theorem Device.Alike.nbPins (h : d.Alike e) : e.conn.nbPins = d.conn.nbPins := by
  rw [Connection.nbPins, h.caps, ← Connection.nbPins]

theorem Device.Alike.names (h : d.Alike e) {k : Nat} (hnames : NamesPin d.conn p k) :
    NamesPin e.conn p k :=
  ⟨hnames.1, by rw [h.nbPins]; exact hnames.2⟩

theorem Device.Alike.holds (h : d.Alike e) {offset : Nat} (hholds : HoldsMask d.conn p offset) :
    HoldsMask e.conn p offset := by
  rwa [HoldsMask, h.nbPins]

theorem Device.Alike.masked (h : d.Alike e) (p : Packet) (offset : Nat) :
    maskedPins e.conn p offset = maskedPins d.conn p offset := by
  rw [maskedPins, h.nbPins, ← maskedPins]

/-- The same request, treated by a device that has the same in all cells that the request reads. -/
theorem serves_alike (halike : d.Alike e) (he : e.Ready b)
    (hcells : ∀ k, p.Reads b d.conn.nbPins k → d.cell k = e.cell k) (h : Serves b d p d' r) :
    ∃ e' r', Serves b e p e' r' ∧ r.map Packet.body = r'.map Packet.body := by
  have hn := halike.nbPins
  have hmasked := halike.masked p
  cases h with
  -- Every case answers the same request at `e`: what `d` accepts `e` accepts too, since this
  -- depends on the pin count alone, and the replies are built from cells on which both agree.
  | getCaps h =>
      refine ⟨_, _, .getCaps h, congrArg some ?_⟩
      rw [capsReply, capsReply, hn, halike.caps]
      exact replyPacket_body _ _ _ _ _
  | reset h => exact ⟨_, _, .reset h, rfl⟩
  | ping h =>
      refine ⟨_, _, .ping h, congrArg some ?_⟩
      rw [pingReply, pingReply, halike.version]
      exact replyPacket_body _ _ _ _ _
  | readPin h hkind hacc =>
      refine ⟨_, _, .readPin h hkind ⟨halike.names hacc.1, hacc.2⟩, congrArg some ?_⟩
      have hval : (d.conn.pinAt (p.pin 0)).pinsVal = (e.conn.pinAt (p.pin 0)).pinsVal :=
        hcells (.value (p.pin 0)) ⟨h, by rw [names_pin hkind]; exact List.mem_singleton_self _⟩
      rw [hval]
      exact replyPacket_body _ _ _ _ _
  | readMask h hkind hacc =>
      refine ⟨_, _, .readMask h hkind ⟨halike.holds hacc.1, by rw [hmasked]; exact hacc.2⟩,
        congrArg some ?_⟩
      have hvals : (maskedPins d.conn p 0).map (fun pin => (d.conn.pinAt pin).pinsVal) =
          (maskedPins e.conn p 0).map fun pin => (e.conn.pinAt pin).pinsVal := by
        rw [hmasked]
        refine List.map_congr_left fun pin hpin => ?_
        exact hcells (.value pin) ⟨h, by rwa [names_mask hkind]⟩
      rw [hvals]
      exact replyPacket_body _ _ _ _ _
  | writePin h hkind hacc =>
      exact ⟨_, _, .writePin h hkind ⟨halike.names hacc.1, hacc.2⟩,
        congrArg some (replyPacket_body _ _ _ _ _)⟩
  | writeMask h hkind hacc =>
      exact ⟨_, _, .writeMask h hkind ⟨halike.holds hacc.1, by rw [hn, hmasked]; exact hacc.2⟩,
        congrArg some (replyPacket_body _ _ _ _ _)⟩
  | getTypePin h hkind hacc =>
      refine ⟨_, _, .getTypePin h hkind (halike.names hacc), congrArg some ?_⟩
      have htype : (d.conn.pinAt (p.pin 0)).pinsType = (e.conn.pinAt (p.pin 0)).pinsType :=
        hcells (.type (p.pin 0)) ⟨h, by rw [names_pin hkind]; exact List.mem_singleton_self _⟩
      rw [htype]
      exact replyPacket_body _ _ _ _ _
  | getTypeMask h hkind hacc =>
      refine ⟨_, _, .getTypeMask h hkind (halike.holds hacc), congrArg some ?_⟩
      have htypes :
          (maskedPins d.conn p 0).map (fun pin => (d.conn.pinAt pin).pinsType.setWidth 16) =
            (maskedPins e.conn p 0).map fun pin => (e.conn.pinAt pin).pinsType.setWidth 16 := by
        rw [hmasked]
        refine List.map_congr_left fun pin hpin => congrArg _ ?_
        exact hcells (.type pin) ⟨h, by rwa [names_mask hkind]⟩
      rw [htypes]
      exact replyPacket_body _ _ _ _ _
  | setTypePin h hkind hacc =>
      exact ⟨_, _, .setTypePin h hkind ⟨halike.names hacc.1, hacc.2⟩,
        congrArg some (replyPacket_body _ _ _ _ _)⟩
  | setTypeMask h hkind hacc =>
      exact ⟨_, _, .setTypeMask h hkind ⟨halike.holds hacc.1, by rw [hn, hmasked]; exact hacc.2⟩,
        congrArg some (replyPacket_body _ _ _ _ _)⟩
  | @getFailsafePin h hb hkind f hf hacc =>
      -- A build that answers GET_FAILSAFE has a table at both devices.
      obtain ⟨g, hg⟩ := he.failsafe hb
      have htimeout : f.timeout = g.timeout := by
        have hcell := hcells .timeout ⟨h, hb⟩
        simpa [Device.cell, Connection.failsafeTable, hf, hg] using hcell
      have hentry : f.entryAt (p.pin 0) = g.entryAt (p.pin 0) := by
        have hcell := hcells (.failsafe (p.pin 0))
          ⟨h, hb, by rw [names_pin hkind]; exact List.mem_singleton_self _⟩
        simpa [Device.cell, Connection.failsafeTable, hf, hg] using hcell
      refine ⟨_, _, .getFailsafePin h hb hkind hg (halike.names hacc), congrArg some ?_⟩
      rw [htimeout, hentry]
      exact failsafeReply_body _ _ _ _ _
  | @getFailsafeMask h hb hkind f hf es hes hacc =>
      obtain ⟨g, hg⟩ := he.failsafe hb
      have htimeout : f.timeout = g.timeout := by
        have hcell := hcells .timeout ⟨h, hb⟩
        simpa [Device.cell, Connection.failsafeTable, hf, hg] using hcell
      have hentries : es = g.entriesAt (maskedPins e.conn p 0) := by
        rw [hes, hmasked, Failsafe.entriesAt, Failsafe.entriesAt]
        refine List.map_congr_left fun pin hpin => ?_
        have hcell := hcells (.failsafe pin) ⟨h, hb, by rwa [names_mask hkind]⟩
        simpa [Device.cell, Connection.failsafeTable, hf, hg] using hcell
      refine ⟨_, _, .getFailsafeMask h hb hkind hg hentries ⟨halike.holds hacc.1, hacc.2⟩,
        congrArg some ?_⟩
      rw [htimeout]
      exact failsafeReply_body _ _ _ _ _
  -- A request that stores is answered by an identifier, whatever was stored before.
  | setFailsafePin h hb hkind hf hacc =>
      obtain ⟨g, hg⟩ := he.failsafe hb
      exact ⟨_, _, .setFailsafePin h hb hkind hg ⟨halike.names hacc.1, hacc.2⟩,
        congrArg some (replyPacket_body _ _ _ _ _)⟩
  | setFailsafeMask h hb hkind hf hacc =>
      obtain ⟨g, hg⟩ := he.failsafe hb
      exact ⟨_, _, .setFailsafeMask h hb hkind hg
          ⟨hacc.1, halike.holds hacc.2.1, by rw [hn, hmasked]; exact hacc.2.2⟩,
        congrArg some (replyPacket_body _ _ _ _ _)⟩
  | noFailsafe h hb => exact ⟨_, _, .noFailsafe h hb, rfl⟩
  | unknown h => exact ⟨_, _, .unknown h, rfl⟩

end Replies

/-! ## Runs -/

/-- What all devices of one build have in common. -/
structure Device.Built (b : Build) (nbPins : BitVec 8) (d : Device) : Prop where
  invariant : DeviceInvariant b nbPins d
  version : d.conn.protocolVersion = 1
  noFailsafe : b.disableFailsafe = true → d.conn.failsafe = none

section Runs

variable {b : Build} {nbPins : BitVec 8} {d d' e : Device} {p : Packet}

theorem Device.Built.nbPins_eq (h : d.Built b nbPins) : d.conn.nbPins = nbPins.toNat := by
  rw [Connection.nbPins, h.invariant.capsNbPins]

theorem Device.Built.alike (hd : d.Built b nbPins) (he : e.Built b nbPins) : d.Alike e where
  caps := by
    calc e.conn.caps = ⟨e.conn.caps.nbPins, e.conn.caps.pinsMaskType⟩ := rfl
      _ = ⟨d.conn.caps.nbPins, d.conn.caps.pinsMaskType⟩ := by
          rw [he.invariant.capsNbPins, he.invariant.pinsMaskType, hd.invariant.capsNbPins,
            hd.invariant.pinsMaskType]
  version := by rw [he.version, hd.version]

theorem Device.Built.serves {r : Option Packet} (h : d.Built b nbPins)
    (hserves : Serves b d p d' r) : d'.Built b nbPins := by
  refine ⟨h.invariant.serves hserves, ?_, fun hb => ?_⟩
  · cases hserves <;> exact h.version
  · cases hserves with
    | setFailsafePin _ hoff | setFailsafeMask _ hoff =>
        rw [hb] at hoff
        cases hoff
    | _ => exact h.noFailsafe hb

theorem Reachable.built (h : Reachable b nbPins d) : d.Built b nbPins := by
  induction h with
  | init hinit =>
      rw [initDeviceContent_eq] at hinit
      cases hinit
      exact ⟨initialDevice_invariant b nbPins, rfl,
        fun hb => by simp [initialDevice, initialFailsafe, hb]⟩
  | serve _ _ hrun ih =>
      obtain ⟨r, hserves, -⟩ := dispatch_serves ih.invariant.ready hrun
      exact ih.serves hserves

theorem treat_eq_some {o : List (Buffer × Buffer)} (hd : d.Ready b)
    (h : treat b p d = some (o, d')) :
    ∃ r, Serves b d p d' r ∧ o = (r.map Packet.body).toList := by
  obtain ⟨⟨e, frames⟩, hrun, heq⟩ := Option.map_eq_some_iff.mp h
  obtain ⟨r, hserves, rfl⟩ := dispatch_serves hd hrun
  cases heq
  refine ⟨r, hserves, ?_⟩
  cases r with
  | none => rfl
  | some q => rfl

theorem treat_of_serves {r : Option Packet} (hd : d.Ready b) (h : Serves b d p d' r) :
    treat b p d = some ((r.map Packet.body).toList, d') := by
  rw [treat, dispatch_of_serves hd h]
  cases r with
  | none => rfl
  | some q => rfl

theorem treat_alike {o : List (Buffer × Buffer)} (hd : d.Built b nbPins)
    (he : e.Built b nbPins) (hcells : ∀ k, p.Reads b nbPins.toNat k → d.cell k = e.cell k)
    (h : (treat b p d).map Prod.fst = some o) : (treat b p e).map Prod.fst = some o := by
  obtain ⟨⟨o', d'⟩, htreat, rfl⟩ := Option.map_eq_some_iff.mp h
  obtain ⟨r, hserves, rfl⟩ := treat_eq_some hd.invariant.ready htreat
  rw [← hd.nbPins_eq] at hcells
  obtain ⟨e', r', hserves', hbody⟩ :=
    serves_alike (hd.alike he) he.invariant.ready hcells hserves
  rw [treat_of_serves he.invariant.ready hserves', ← hbody]
  rfl

/-- The requests of the protocol assign constants to cells, and answer from cells. -/
theorem treat_assigning (b : Build) (nbPins : BitVec 8) :
    Assigning (treat b) (Device.Built b nbPins) Device.cell (Packet.assigned b nbPins.toNat)
      (Packet.Reads b nbPins.toNat) where
  inv_step := by
    intro p d o d' hd h
    obtain ⟨r, hserves, -⟩ := treat_eq_some hd.invariant.ready h
    exact hd.serves hserves
  cell_step := by
    intro p d o d' hd h k
    obtain ⟨r, hserves, -⟩ := treat_eq_some hd.invariant.ready h
    rw [← hd.nbPins_eq]
    exact cell_of_serves hd.invariant.ready hserves k
  answer := by
    intro p d e hd he hcells
    refine Option.ext fun o => ⟨treat_alike hd he hcells, ?_⟩
    exact treat_alike he hd fun k hk => (hcells k hk).symm

theorem serveAll_eq (b : Build) (ps : List Packet) :
    ∀ d, serveAll b d ps = (runLog (treat b) ps d).map Prod.snd := by
  induction ps with
  | nil => exact fun d => rfl
  | cons p ps ih =>
      intro d
      have hcons : serveAll b d (p :: ps) =
          ((dispatch b d p).map Prod.fst).bind fun d' => serveAll b d' ps := rfl
      rw [hcons, runLog, treat]
      cases dispatch b d p with
      | none => rfl
      | some s =>
          simp only [Option.map_some, Option.bind_some, ih, Option.map_map]
          rfl

/-- Whatever requests a device has treated, each of its cells holds what the last request that
assigns the cell has assigned to it; the rest of the device is as it was. -/
theorem cell_last_assigned (hd : Reachable b nbPins d) {ps : List Packet}
    (hrun : serveAll b d ps = some d') :
    d'.conn.caps = d.conn.caps ∧ d'.conn.protocolVersion = d.conn.protocolVersion ∧
      ∀ k, d'.cell k = latest (fun p => p.assigned b nbPins.toNat k) (d.cell k) ps := by
  rw [serveAll_eq] at hrun
  obtain ⟨⟨log, e⟩, hlog, rfl⟩ := Option.map_eq_some_iff.mp hrun
  have hassigning := treat_assigning b nbPins
  have halike := hd.built.alike (hassigning.inv_run hd.built hlog)
  exact ⟨halike.caps, halike.version, hassigning.cell_run hd.built hlog⟩

/-- A failsafe for pin 3, and then a type. -/
theorem cell_last_assigned_pin3 :
    let d := initialDevice hostBuild firmwareNbPins
    let ps : List Packet :=
      [⟨0x84#8, 5#16, [0#8, 0x14#8, 3#8, 0x12#8, 0x34#8], 0x19#8⟩,
        ⟨0x60#8, 2#16, [3#8, 0xA0#8], 0xFA#8⟩]
    ∃ d', serveAll hostBuild d ps = some d' ∧ d'.conn.caps = d.conn.caps ∧
      d'.conn.protocolVersion = d.conn.protocolVersion ∧
        ∀ k, d'.cell k =
          latest (fun p => p.assigned hostBuild firmwareNbPins.toNat k) (d.cell k) ps := by
  intro d ps
  have hsome : (serveAll hostBuild d ps).isSome := by decide +kernel
  obtain ⟨d', hrun⟩ := Option.isSome_iff_exists.mp hsome
  exact ⟨d', hrun, cell_last_assigned (.init (initDeviceContent_eq _ _)) hrun⟩

/-- The reply to a request, apart from its id, tells nothing about requests that assign cells which
it does not read: two histories that have assigned the same to those that it reads are told
apart by no reply. -/
theorem reply_depends_on_read (hd : Reachable b nbPins d) {ps qs : List Packet}
    (hps : serveAll b d ps = some d') (hqs : serveAll b d qs = some e)
    (hsame : ∀ k, p.Reads b nbPins.toNat k →
      ps.filterMap (fun q => q.assigned b nbPins.toNat k) =
        qs.filterMap fun q => q.assigned b nbPins.toNat k) :
    (treat b p d').map Prod.fst = (treat b p e).map Prod.fst := by
  rw [serveAll_eq] at hps hqs
  obtain ⟨⟨log, d'⟩, hlog, rfl⟩ := Option.map_eq_some_iff.mp hps
  obtain ⟨⟨log', e⟩, hlog', rfl⟩ := Option.map_eq_some_iff.mp hqs
  exact (treat_assigning b nbPins).answer_after_runs hd.built hlog hlog' hsame

/-- A write to pin 3. -/
def writePin3 : Packet := ⟨0x40#8, 2#16, [3#8, 0x80#8], 0x3A#8⟩

/-- A read of pin 5. -/
def readPin5 : Packet := ⟨0x30#8, 1#16, [5#8], 0xC9#8⟩

/-- The reply about pin 5 is the one of a device that has not been written to. -/
theorem reply_depends_on_read_pin5 :
    ∃ d', serveAll hostBuild (initialDevice hostBuild firmwareNbPins) [writePin3] = some d' ∧
      (treat hostBuild readPin5 d').map Prod.fst =
        (treat hostBuild readPin5 (initialDevice hostBuild firmwareNbPins)).map Prod.fst := by
  have hsome :
      (serveAll hostBuild (initialDevice hostBuild firmwareNbPins) [writePin3]).isSome := by
    decide +kernel
  obtain ⟨d', hrun⟩ := Option.isSome_iff_exists.mp hsome
  have hnone : serveAll hostBuild (initialDevice hostBuild firmwareNbPins) [] =
      some (initialDevice hostBuild firmwareNbPins) := rfl
  refine ⟨d', hrun, reply_depends_on_read (.init (initDeviceContent_eq _ _)) hrun hnone ?_⟩
  intro k hreads
  have hnames : readPin5.names firmwareNbPins.toNat 0 = [5] := by decide
  cases k with
  | type pin => exact absurd hreads.1 (by decide)
  | value pin =>
      obtain rfl : pin = 5 := by
        rw [Packet.Reads, hnames] at hreads
        exact List.mem_singleton.mp hreads.2
      decide +kernel
  | failsafe pin => exact absurd hreads.1 (by decide)
  | timeout => exact absurd hreads.1 (by decide)

/-- The counter goes on with every request that is answered. -/
theorem nextId_of_treat {o : List (Buffer × Buffer)} (hd : d.Built b nbPins)
    (h : treat b p d = some (o, d')) :
    d'.nextId = if o.isEmpty then d.nextId else nextReplyId d.nextId := by
  obtain ⟨r, hserves, rfl⟩ := treat_eq_some hd.invariant.ready h
  cases r with
  | none => rw [(silent_of_serves_none hserves).2]; rfl
  | some q => exact (serves_replyId hd.invariant.ready hserves).2

theorem nextId_of_log {ps : List Packet} :
    ∀ {d d' : Device} {log : List (Packet × List (Buffer × Buffer))}, d.Built b nbPins →
      runLog (treat b) ps d = some (log, d') →
        d'.nextId = nextReplyId^[log.countP fun entry => !entry.2.isEmpty] d.nextId := by
  induction ps with
  | nil =>
      intro d d' log _ hrun
      cases hrun
      rfl
  | cons p ps ih =>
      intro d d' log hd hrun
      obtain ⟨o, t, rest, htreat, hrest, rfl⟩ := runLog_cons_eq_some hrun
      have hnext := nextId_of_treat hd htreat
      rw [ih ((treat_assigning b nbPins).inv_step hd htreat) hrest, hnext, List.countP_cons]
      cases o with
      | nil => rfl
      | cons _ _ => exact (Function.iterate_succ_apply _ _ _).symm

theorem PinState.eq_of_fields {x y : PinState} (htype : x.pinsType = y.pinsType)
    (hval : x.pinsVal = y.pinsVal) : x = y := by
  cases x
  cases y
  cases htype
  cases hval
  rfl

theorem Device.Built.pinsState_eq (hd : d.Built b nbPins) (he : e.Built b nbPins)
    (hcells : ∀ k, d.cell k = e.cell k) : d.conn.pinsState = e.conn.pinsState := by
  refine List.ext_getElem (hd.invariant.pinsState.trans he.invariant.pinsState.symm) ?_
  intro q hq hq'
  have htype : (d.conn.pinAt q).pinsType = (e.conn.pinAt q).pinsType := hcells (.type q)
  have hval : (d.conn.pinAt q).pinsVal = (e.conn.pinAt q).pinsVal := hcells (.value q)
  have hpin := PinState.eq_of_fields htype hval
  rwa [Connection.pinAt, Connection.pinAt, List.getD_eq_getElem _ _ hq,
    List.getD_eq_getElem _ _ hq'] at hpin

theorem Device.Built.failsafe_eq (hd : d.Built b nbPins) (he : e.Built b nbPins)
    (hcells : ∀ k, d.cell k = e.cell k) : d.conn.failsafe = e.conn.failsafe := by
  cases hb : b.disableFailsafe with
  | true => rw [hd.noFailsafe hb, he.noFailsafe hb]
  | false =>
      obtain ⟨f, hf⟩ := hd.invariant.failsafe hb
      obtain ⟨g, hg⟩ := he.invariant.failsafe hb
      have htimeout := hcells .timeout
      have hentry := fun q => hcells (.failsafe q)
      simp only [Device.cell, Connection.failsafeTable, hf, hg, Option.getD_some] at htimeout hentry
      have hpins : f.pinsFailsafe = g.pinsFailsafe := by
        have hlen := (hd.invariant.pinsFailsafe f hf).trans (he.invariant.pinsFailsafe g hg).symm
        refine List.ext_getElem hlen fun q hq hq' => ?_
        have h := hentry q
        rwa [Failsafe.entryAt, Failsafe.entryAt, List.getD_eq_getElem _ _ hq,
          List.getD_eq_getElem _ _ hq'] at h
      rw [hf, hg]
      calc some f = some ⟨f.timeout, f.pinsFailsafe⟩ := rfl
        _ = some ⟨g.timeout, g.pinsFailsafe⟩ := by rw [htimeout, hpins]

/-- A device is what its cells and its counter are. -/
theorem Device.Built.ext (hd : d.Built b nbPins) (he : e.Built b nbPins)
    (hid : d.nextId = e.nextId) (hcells : ∀ k, d.cell k = e.cell k) : d = e := by
  have halike := hd.alike he
  calc d = ⟨⟨d.conn.protocolVersion, d.conn.caps, d.conn.pinsState, d.conn.failsafe⟩,
        d.nextId⟩ := rfl
    _ = ⟨⟨e.conn.protocolVersion, e.conn.caps, e.conn.pinsState, e.conn.failsafe⟩, e.nextId⟩ := by
        rw [halike.version, halike.caps, hd.pinsState_eq he hcells, hd.failsafe_eq he hcells, hid]

/-- Two requests that do not meet: neither assigns a cell that the other assigns or reads. -/
def Packet.Apart (b : Build) (nbPins : BitVec 8) (p q : Packet) : Prop :=
  Control.Apart (Packet.assigned b nbPins.toNat) (Packet.Reads b nbPins.toNat) p q

/-! ## Requests that name different pins -/

/-- The pins that the request is about. -/
def Packet.pins (p : Packet) (nbPins : Nat) : List Nat :=
  p.names nbPins (if p.command = cmdSetFailsafe then 16 else 0)

/-- The cells that a request is about; the timeout is common to all pins. -/
def Packet.IsAbout (nbPins : Nat) (p : Packet) : Cell → Prop
  | .type pin | .value pin | .failsafe pin => pin ∈ p.pins nbPins
  | .timeout => p.command = cmdGetFailsafe ∨ p.command = cmdSetFailsafe

theorem isAbout_of_reads {n : Nat} {k : Cell} (h : p.Reads b n k) : p.IsAbout n k := by
  have hcodes : cmdGetType ≠ cmdSetFailsafe ∧ cmdRead ≠ cmdSetFailsafe ∧
      cmdGetFailsafe ≠ cmdSetFailsafe := by
    decide
  cases k with
  | type pin => simpa [Packet.IsAbout, Packet.pins, h.1, hcodes] using h.2
  | value pin => simpa [Packet.IsAbout, Packet.pins, h.1, hcodes] using h.2
  | failsafe pin => simpa [Packet.IsAbout, Packet.pins, h.1, hcodes] using h.2.2
  | timeout => exact .inl h.1

theorem isAbout_of_assigned {n : Nat} {k : Cell} (h : (p.assigned b n k).isSome) :
    p.IsAbout n k := by
  have hcodes : cmdWrite ≠ cmdSetFailsafe ∧ cmdSetType ≠ cmdSetFailsafe := by decide
  cases k with
  | type pin =>
      simp only [Packet.assigned] at h
      split at h
      · rename_i hwrite
        simpa [Packet.IsAbout, Packet.pins, hwrite.1, hcodes] using hwrite.2.2
      · split at h
        · rename_i htype
          simpa [Packet.IsAbout, Packet.pins, htype.1, hcodes] using htype.2
        · cases h
  | value pin =>
      simp only [Packet.assigned] at h
      split at h
      · rename_i hwrite
        simpa [Packet.IsAbout, Packet.pins, hwrite.1, hcodes] using hwrite.2
      · cases h
  | failsafe pin =>
      simp only [Packet.assigned] at h
      split at h
      · rename_i hset
        simpa [Packet.IsAbout, Packet.pins, hset.1] using hset.2.2
      · cases h
  | timeout =>
      simp only [Packet.assigned] at h
      split at h
      · rename_i hset
        exact .inr hset.1
      · cases h

/-- Requests that are about different cells do not meet. -/
theorem apart_of_isAbout {q : Packet}
    (h : ∀ k, p.IsAbout nbPins.toNat k → ¬ q.IsAbout nbPins.toNat k) : p.Apart b nbPins q := by
  have hone : ∀ {x y : Packet}, (∀ k, x.IsAbout nbPins.toNat k → ¬ y.IsAbout nbPins.toNat k) →
      ∀ k, (x.assigned b nbPins.toNat k).isSome →
        y.assigned b nbPins.toNat k = none ∧ ¬ y.Reads b nbPins.toNat k := by
    intro x y hxy k hx
    have hnot := hxy k (isAbout_of_assigned hx)
    refine ⟨?_, fun hreads => hnot (isAbout_of_reads hreads)⟩
    exact Option.not_isSome_iff_eq_none.mp fun hy => hnot (isAbout_of_assigned hy)
  exact fun k => ⟨hone h k, hone (fun k hq hp => h k hp hq) k⟩

/-- Requests that do not meet may be sent in another order: the device ends in the same state, and
every request gets the same reply, but for the ids. -/
theorem reordered_requests (hd : Reachable b nbPins d) {ps qs : List Packet}
    (hreorder : Reorders (Packet.Apart b nbPins) ps qs)
    {log : List (Packet × List (Buffer × Buffer))} (hrun : runLog (treat b) ps d = some (log, d')) :
    ∃ log', runLog (treat b) qs d = some (log', d') ∧
      Reorders (fun x y => x.1.Apart b nbPins y.1) log log' := by
  have hassigning := treat_assigning b nbPins
  obtain ⟨log', e, hrun', hlog, hcells⟩ := hassigning.run_reorders hreorder hd.built hrun
  have hcount := hlog.perm.countP_eq fun entry => !entry.2.isEmpty
  have hid : d'.nextId = e.nextId := by
    rw [nextId_of_log hd.built hrun, nextId_of_log hd.built hrun', hcount]
  have hsame : d' = e :=
    (hassigning.inv_run hd.built hrun).ext (hassigning.inv_run hd.built hrun') hid hcells
  exact ⟨log', by rw [hrun', hsame], hlog⟩

/-- The two requests above, in either order. -/
theorem reordered_requests_pins :
    ∃ log log' d',
      runLog (treat hostBuild) [writePin3, readPin5] (initialDevice hostBuild firmwareNbPins) =
          some (log, d') ∧
        runLog (treat hostBuild) [readPin5, writePin3] (initialDevice hostBuild firmwareNbPins) =
          some (log', d') ∧
        Reorders (fun x y => x.1.Apart hostBuild firmwareNbPins y.1) log log' := by
  have hsome : (runLog (treat hostBuild) [writePin3, readPin5]
      (initialDevice hostBuild firmwareNbPins)).isSome := by
    decide +kernel
  obtain ⟨⟨log, d'⟩, hrun⟩ := Option.isSome_iff_exists.mp hsome
  have hwrite : writePin3.pins firmwareNbPins.toNat = [3] := by decide
  have hread : readPin5.pins firmwareNbPins.toNat = [5] := by decide
  have hapart : writePin3.Apart hostBuild firmwareNbPins readPin5 := by
    refine apart_of_isAbout fun k hk => ?_
    cases k with
    | type pin | value pin | failsafe pin =>
        rw [Packet.IsAbout, hwrite, List.mem_singleton] at hk
        rw [Packet.IsAbout, hread, hk]
        decide
    | timeout => exact absurd hk (by rw [Packet.IsAbout]; decide)
  obtain ⟨log', hrun', hlog⟩ :=
    reordered_requests (.init (initDeviceContent_eq _ _)) (.swap hapart []) hrun
  exact ⟨log, log', d', hrun, hrun', hlog⟩

end Runs

end PinProtocol
