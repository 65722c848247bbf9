import PinProtocol.Common.Resources
import PinProtocol.Firmware.Acceptance
import PinProtocol.Firmware.Init

/-!
# Memory — the blocks of the firmware over a whole run

The handlers allocate masks, replies and copies of the failsafe, and `mainloop` a block for the
data of every packet.  Each handler is given here by the blocks that it allocates, uses and gives
back, under the branch that the packet takes it to; the contents are those of `mainloop`.

Whether the `write` of a reply succeeds is not up to the firmware, which does not look at it either:
`connection_write` returns without giving its buffer back when it does not.

`main_memory` says that no block is used or freed after it has been given back, and that after
any number of packets the firmware has exactly the blocks that it had before, with two exceptions:
the buffers of replies that could not be written, and the data of an invalid packet, for which
`mainloop` returns.  `main_memory_iff` is about `init_communication`, which gives the device back
when a file cannot be opened and goes on with it.
-/

namespace PinProtocol

open Bits Control ConnectionBlocks

/-! ## Handlers -/

namespace ConnectionBlocks

/-- `send_packet`, when its `write` succeeds or not; what it returns is used by no caller. -/
def send (c : ConnectionBlocks) (written : Bool) : Alloc Unit :=
  write c written

def replyGetCaps (c : ConnectionBlocks) (written : Bool) : Alloc Unit := do
  let data ← alloc
  access data
  deref c.pinsMaskType
  send c written
  free data

/-- The reply with the field of one pin, or of all pins used by the mask that is allocated for it:
`reply_read` and `reply_get_type`. -/
def replyFields (c : ConnectionBlocks) (useMask written : Bool) : Alloc Unit :=
  if useMask then do
    let m ← alloc
    access m
    let data ← alloc
    access data
    deref c.pinsState
    free m
    send c written
    free data
  else do
    deref c.pinsState
    let data ← alloc
    access data
    send c written
    free data

def replyRead (c : ConnectionBlocks) (useMask written : Bool) : Alloc Unit :=
  replyFields c useMask written

def replyGetType (c : ConnectionBlocks) (useMask written : Bool) : Alloc Unit :=
  replyFields c useMask written

/-- A field is stored for one pin, or for all pins used by a mask: `treat_write` and
`treat_set_type`.  The data of the reply is a local variable. -/
def replyStore (c : ConnectionBlocks) (useMask written : Bool) : Alloc Unit :=
  if useMask then do
    let m ← alloc
    access m
    deref c.pinsState
    free m
    send c written
  else do
    deref c.pinsState
    send c written

def replyWrite (c : ConnectionBlocks) (useMask written : Bool) : Alloc Unit :=
  replyStore c useMask written

def replySetType (c : ConnectionBlocks) (useMask written : Bool) : Alloc Unit :=
  replyStore c useMask written

/-- `c->failsafe` and `c->failsafe->pins_failsafe` -/
def derefFailsafe (c : ConnectionBlocks) : Alloc Unit := do
  deref (c.failsafe.map FailsafeBlocks.self)
  deref (c.failsafe.map FailsafeBlocks.pinsFailsafe)

def replyGetFailsafe (c : ConnectionBlocks) (useMask written : Bool) : Alloc Unit :=
  if useMask then do
    let m ← alloc
    access m
    derefFailsafe c
    let masked ← newFailsafe
    let data ← alloc
    access data
    destroyFailsafe masked
    free m
    send c written
    free data
  else do
    derefFailsafe c
    let data ← alloc
    access data
    send c written
    free data

def replySetFailsafe (c : ConnectionBlocks) (useMask written : Bool) : Alloc Unit :=
  if useMask then do
    let m ← alloc
    access m
    derefFailsafe c
    free m
    send c written
  else do
    derefFailsafe c
    send c written

/-- The `switch` of `mainloop`; a reset does nothing, and a ping has its reply in a local
variable. -/
def dispatch (b : Build) (c : ConnectionBlocks) (p : Packet) (written : Bool) : Alloc Unit :=
  match (p.header >>> 4).toNat with
  | 0 => replyGetCaps c written
  | 1 => pure ()
  | 2 => send c written
  | 3 => replyRead c (usesMask p) written
  | 4 => replyWrite c (usesMask p) written
  | 5 => replyGetType c (usesMask p) written
  | 6 => replySetType c (usesMask p) written
  | 7 => if b.disableFailsafe then pure () else replyGetFailsafe c (usesMask p) written
  | 8 => if b.disableFailsafe then pure () else replySetFailsafe c (usesMask p) written
  | _ => pure ()

end ConnectionBlocks

/-! ## The loop -/

/-- Where `mainloop` is when its reads have delivered all chunks, or why it has returned. -/
inductive LoopEnd
  | waiting
  | closed
  | invalid
  deriving DecidableEq, Repr

/-- `mainloop` with its blocks; what it does with the device of the contents decides the branches,
and leaving an array of the contents is not defined here either.  With every chunk comes whether the
`write` of the reply succeeds, if there is one. -/
def mainloopBlocks (b : Build) (c : ConnectionBlocks) :
    Device → List (Buffer × Bool) → Alloc LoopEnd
  | _, [] => do
      access c.self
      return .waiting
  | d, (chunk, written) :: turns => do
      access c.self
      match connectionRead b chunk with
      | none => undefined
      | some .error => return .closed
      | some (.packet p) =>
          let data ← alloc
          access data
          match packetValid p with
          | none => undefined
          | some false => return .invalid
          | some true =>
              match PinProtocol.dispatch b d p with
              | none => undefined
              | some (d', _) =>
                  ConnectionBlocks.dispatch b c p written
                  free data
                  mainloopBlocks b c d' turns

def initDeviceBlocks (b : Build) : Alloc ConnectionBlocks := do
  let device ← alloc
  access device
  let c ← initResources b
    { self := device, fdIn := none, fdOut := none, pinsMaskType := none, pinsState := none,
      failsafe := none }
  deref c.pinsMaskType
  deref c.pinsState
  return c

/-- One of the two calls of `open` in `init_communication`: when it fails, `end_communication` gives
the device back, and the function goes on. -/
def openOrEnd (b : Build) (c : ConnectionBlocks) (opens : Bool) : Alloc (Option Nat) := do
  access c.self
  let fd ← openFile opens
  if opens then pure fd
  else do
    close b c
    return fd

def initCommunication (b : Build) (c : ConnectionBlocks) (outOpens inOpens : Bool) :
    Alloc ConnectionBlocks :=
  if b.embedded then pure c
  else do
    let fdOut ← openOrEnd b c outOpens
    let c := { c with fdOut }
    let fdIn ← openOrEnd b c inOpens
    return { c with fdIn }

/-- `main`, up to where the loop waits for more, or to its end. -/
def mainBlocks (b : Build) (outOpens inOpens : Bool) (d : Device)
    (turns : List (Buffer × Bool)) : Alloc LoopEnd := do
  let c ← initDeviceBlocks b
  let c ← initCommunication b c outOpens inOpens
  let reason ← mainloopBlocks b c d turns
  match reason with
  | .waiting => return .waiting
  | reason => do
      -- end_communication
      close b c
      return reason

/-! ## One reply at most -/

/-- A handler that sends one frame, unless it leaves its arrays. -/
def SendsOne (r : Option (Device × List Buffer)) : Prop :=
  ∀ s, r = some s → s.2.length = 1

section SendsOne

theorem SendsOne.bind {β : Type} {m : Option β} {f : β → Option (Device × List Buffer)}
    (h : ∀ a, SendsOne (f a)) : SendsOne (m.bind f) := by
  intro s hs
  obtain ⟨a, -, ha⟩ := Option.bind_eq_some_iff.mp hs
  exact h a s ha

theorem SendsOne.pure (d : Device) (frame : Buffer) : SendsOne (Pure.pure (d, [frame])) := by
  intro s hs
  cases hs
  rfl

theorem SendsOne.map {β : Type} (m : Option β) (f : β → Device) (frame : Buffer) :
    SendsOne (m.map fun a => (f a, [frame])) := by
  intro s hs
  obtain ⟨a, -, rfl⟩ := Option.map_eq_some_iff.mp hs
  rfl

/-- The data of the reply is that for a mask or for one pin. -/
theorem SendsOne.ite {useMask : Bool} {r r' : Option (Device × List Buffer)} (h : SendsOne r)
    (h' : SendsOne r') : SendsOne (if useMask then r else r') := by
  cases useMask with
  | false => exact h'
  | true => exact h

variable (d : Device) (p : Packet)

theorem sendWithId_sendsOne (cmdNo : BitVec 8) (size : Nat) (data : Buffer) :
    SendsOne (sendWithId d cmdNo size data) := by
  dsimp only [sendWithId, getReplyId]
  exact .bind fun _ => .bind fun _ => .pure _ _

theorem sendId_sendsOne (cmdNo : BitVec 8) : SendsOne (sendId d cmdNo) := by
  dsimp only [sendId, getReplyId]
  exact .bind fun _ => .pure _ _

theorem replyGetCaps_sendsOne : SendsOne (replyGetCaps d) := by
  unfold replyGetCaps
  refine .bind fun data => .bind fun data => ?_
  dsimp only
  split
  · exact .bind fun _ => sendWithId_sendsOne d _ _ _
  · exact .bind fun _ => sendWithId_sendsOne d _ _ _

theorem replyPing_sendsOne : SendsOne (replyPing d) := by
  unfold replyPing
  exact .bind fun _ => .bind fun _ => sendWithId_sendsOne d _ _ _

theorem replyRead_sendsOne : SendsOne (replyRead d p) := by
  unfold replyRead
  refine .bind fun _ => .ite ?_ ?_
  · exact .bind fun _ => sendWithId_sendsOne d _ _ _
  · exact .bind fun _ => sendWithId_sendsOne d _ _ _

theorem replyGetType_sendsOne : SendsOne (replyGetType d p) := by
  unfold replyGetType
  refine .ite ?_ ?_
  · exact .bind fun _ => sendWithId_sendsOne d _ _ _
  · exact .bind fun _ => sendWithId_sendsOne d _ _ _

theorem replyGetFailsafe_sendsOne : SendsOne (replyGetFailsafe d p) := by
  unfold replyGetFailsafe
  dsimp only [getReplyId]
  refine .bind fun _ => .ite ?_ ?_
  · exact .bind fun _ => .bind fun _ => .bind fun _ => .bind fun _ => .pure _ _
  · exact .bind fun _ => .bind fun _ => .bind fun _ => .bind fun _ => .pure _ _

theorem replySetFailsafe_sendsOne : SendsOne (replySetFailsafe d p) := by
  unfold replySetFailsafe
  refine .bind fun _ => .bind fun _ => .bind fun _ => .ite ?_ ?_
  · exact .bind fun _ => sendId_sendsOne _ _
  · exact .bind fun _ => sendId_sendsOne _ _

end SendsOne

/-! ## Nothing is lost -/

namespace ConnectionBlocks

section Handlers

variable {α : Type} {own : Multiset Nat} {post : α → Multiset Nat → Prop} {b : Build}
  {c : ConnectionBlocks}

theorem triple_deref {p : Option Nat} {g : Unit → Alloc α} (hsome : p.isSome)
    (hmem : blockOf p ≤ own) (h : Triple own (g ()) post) :
    Triple own (deref p >>= g) post := by
  cases p with
  | none => cases hsome
  | some p => exact Triple.access (Multiset.singleton_le.mp hmem) h

/-- The blocks of a connection without its descriptors. -/
def core (c : ConnectionBlocks) : Multiset Nat :=
  {c.self} + c.tables

theorem blocks_eq (c : ConnectionBlocks) :
    c.blocks = c.core + (blockOf c.fdIn + blockOf c.fdOut) := by
  rw [blocks, core]
  abel

theorem blockOf_pinsMaskType_le (c : ConnectionBlocks) : blockOf c.pinsMaskType ≤ c.core := by
  rw [core, tables, add_assoc]
  exact (Multiset.le_add_right _ _).trans (Multiset.le_add_left _ _)

theorem blockOf_pinsState_le (c : ConnectionBlocks) : blockOf c.pinsState ≤ c.core := by
  have hcore : c.core =
      blockOf c.pinsState + ({c.self} + blockOf c.pinsMaskType + failsafeBlocks c.failsafe) := by
    rw [core, tables]
    abel
  rw [hcore]
  exact Multiset.le_add_right _ _

/-- A reply is sent, in the middle of a handler. -/
theorem triple_send {g : Unit → Alloc α} {rest : Multiset Nat} {written : Bool}
    (hown : own = c.core + rest)
    (h : ∀ lost : Multiset Nat, lost.card = lostBuffers written 1 →
      Triple (own + lost) (g ()) post) : Triple own (send c written >>= g) post := by
  refine Triple.call (write_spec written) (t := c.tables + rest)
    (by rw [hown, core, add_assoc]) ?_
  rintro - _ ⟨lost, hlost, rfl⟩
  have hout : {c.self} + lost + (c.tables + rest) = own + lost := by
    rw [hown, core]
    abel
  rw [hout]
  exact h lost hlost

/-- A reply is sent from a block, which is given back after that. -/
theorem sendData_spec {written : Bool} (data : Nat) :
    Triple ({data} + c.core) (do
      send c written
      free data) fun _ out => Leaks c.core (lostBuffers written 1) out := by
  refine triple_send (add_comm _ _) fun lost hlost => ?_
  exact Triple.last (Triple.free (add_assoc _ _ _) (Triple.pure ⟨lost, hlost, rfl⟩))

/-- A reply is sent from a local variable. -/
theorem sendLocal_spec {written : Bool} :
    Triple c.core (send c written) fun _ out => Leaks c.core (lostBuffers written 1) out :=
  Triple.last (triple_send (add_zero _).symm fun lost hlost => Triple.pure ⟨lost, hlost, rfl⟩)

/-- The failsafe is used, in the middle of a handler. -/
theorem triple_derefFailsafe {g : Unit → Alloc α} (hsome : c.failsafe.isSome)
    (hmem : failsafeBlocks c.failsafe ≤ own) (h : Triple own (g ()) post) :
    Triple own (derefFailsafe c >>= g) post := by
  rw [derefFailsafe, bind_assoc]
  cases hf : c.failsafe with
  | none =>
      rw [hf] at hsome
      cases hsome
  | some f =>
      rw [hf, failsafeBlocks_some] at hmem
      refine Triple.access (Multiset.mem_of_le hmem (by simp)) ?_
      exact Triple.access (Multiset.mem_of_le hmem (by simp)) h

theorem failsafeBlocks_le (c : ConnectionBlocks) : failsafeBlocks c.failsafe ≤ c.core := by
  rw [core, tables, ← add_assoc]
  exact Multiset.le_add_left _ _

theorem replyGetCaps_spec (hready : c.Ready b) (written : Bool) :
    Triple c.core (replyGetCaps c written)
      fun _ out => Leaks c.core (lostBuffers written 1) out := by
  refine Triple.alloc fun data => Triple.access (by simp) ?_
  refine triple_deref hready.pinsMaskType
    (c.blockOf_pinsMaskType_le.trans (Multiset.le_add_left _ _)) ?_
  exact sendData_spec data

theorem replyFields_spec (hready : c.Ready b) (useMask written : Bool) :
    Triple c.core (replyFields c useMask written)
      fun _ out => Leaks c.core (lostBuffers written 1) out := by
  cases useMask with
  | false =>
      refine triple_deref hready.pinsState c.blockOf_pinsState_le ?_
      exact Triple.alloc fun data => Triple.access (by simp) (sendData_spec data)
  | true =>
      refine Triple.alloc fun m => Triple.access (by simp) ?_
      refine Triple.alloc fun data => Triple.access (by simp) ?_
      refine triple_deref hready.pinsState (c.blockOf_pinsState_le.trans
        ((Multiset.le_add_left _ _).trans (Multiset.le_add_left _ _))) ?_
      exact Triple.free (r := {data} + c.core) (by abel) (sendData_spec data)

theorem replyStore_spec (hready : c.Ready b) (useMask written : Bool) :
    Triple c.core (replyStore c useMask written)
      fun _ out => Leaks c.core (lostBuffers written 1) out := by
  cases useMask with
  | false => exact triple_deref hready.pinsState c.blockOf_pinsState_le sendLocal_spec
  | true =>
      refine Triple.alloc fun m => Triple.access (by simp) ?_
      refine triple_deref hready.pinsState
        (c.blockOf_pinsState_le.trans (Multiset.le_add_left _ _)) ?_
      exact Triple.free rfl sendLocal_spec

theorem replyGetFailsafe_spec (hsome : c.failsafe.isSome) (useMask written : Bool) :
    Triple c.core (replyGetFailsafe c useMask written)
      fun _ out => Leaks c.core (lostBuffers written 1) out := by
  cases useMask with
  | false =>
      refine triple_derefFailsafe hsome c.failsafeBlocks_le ?_
      exact Triple.alloc fun data => Triple.access (by simp) (sendData_spec data)
  | true =>
      refine Triple.alloc fun m => Triple.access (by simp) ?_
      refine triple_derefFailsafe hsome
        (c.failsafeBlocks_le.trans (Multiset.le_add_left _ _)) ?_
      refine Triple.call newFailsafe_spec (zero_add _).symm ?_
      rintro masked _ rfl
      refine Triple.alloc fun data => Triple.access (by simp) ?_
      refine Triple.call (destroyFailsafe_spec masked) (t := {data} + ({m} + c.core))
        (by abel) ?_
      rintro - _ rfl
      exact Triple.free (r := {data} + c.core) (by abel) (sendData_spec data)

theorem replySetFailsafe_spec (hsome : c.failsafe.isSome) (useMask written : Bool) :
    Triple c.core (replySetFailsafe c useMask written)
      fun _ out => Leaks c.core (lostBuffers written 1) out := by
  cases useMask with
  | false => exact triple_derefFailsafe hsome c.failsafeBlocks_le sendLocal_spec
  | true =>
      refine Triple.alloc fun m => Triple.access (by simp) ?_
      refine triple_derefFailsafe hsome
        (c.failsafeBlocks_le.trans (Multiset.le_add_left _ _)) ?_
      exact Triple.free rfl sendLocal_spec

/-- Every handler gives back what it allocates, but for the buffers of the replies that it could not
write. -/
theorem dispatch_spec (hready : c.Ready b) {d d' : Device} {p : Packet} {replies : List Buffer}
    (hserve : PinProtocol.dispatch b d p = some (d', replies)) (written : Bool) :
    Triple c.core (dispatch b c p written)
      fun _ out => Leaks c.core (lostBuffers written replies.length) out := by
  -- a handler that answers has one buffer to lose
  have hone : ∀ {handler : Alloc Unit} {r : Option (Device × List Buffer)}, SendsOne r →
      r = some (d', replies) →
      Triple c.core handler (fun _ out => Leaks c.core (lostBuffers written 1) out) →
        Triple c.core handler
          fun _ out => Leaks c.core (lostBuffers written replies.length) out := by
    intro handler r hsends hr h
    rwa [hsends _ hr]
  -- the others allocate nothing
  have hnone : some (d, []) = some (d', replies) → Triple c.core (pure ())
      fun _ out => Leaks c.core (lostBuffers written replies.length) out := by
    intro hr
    cases hr
    refine Triple.pure ?_
    rw [lostBuffers, List.length_nil, ite_self]
    exact Leaks.refl _
  have hfailsafe := hready.failsafe
  rcases command_cases p with h | h | h | h | h | h | h | h | h | h <;> rw [Packet.command] at h
  · rw [dispatch_getCaps h] at hserve
    rw [dispatch, h]
    exact hone (replyGetCaps_sendsOne d) hserve (replyGetCaps_spec hready written)
  · rw [dispatch_reset h] at hserve
    rw [dispatch, h]
    exact hnone hserve
  · rw [dispatch_ping h] at hserve
    rw [dispatch, h]
    exact hone (replyPing_sendsOne d) hserve sendLocal_spec
  · rw [dispatch_read h] at hserve
    rw [dispatch, h]
    exact hone (replyRead_sendsOne d p) hserve (replyFields_spec hready _ written)
  · rw [dispatch_write h] at hserve
    rw [dispatch, h]
    exact hone (.map _ _ _) hserve (replyStore_spec hready _ written)
  · rw [dispatch_getType h] at hserve
    rw [dispatch, h]
    exact hone (replyGetType_sendsOne d p) hserve (replyFields_spec hready _ written)
  · rw [dispatch_setType h] at hserve
    rw [dispatch, h]
    exact hone (.map _ _ _) hserve (replyStore_spec hready _ written)
  · rw [dispatch_getFailsafe h] at hserve
    rw [dispatch, h]
    cases hb : b.disableFailsafe with
    | true =>
        rw [hb, if_pos rfl] at hserve
        exact hnone hserve
    | false =>
        rw [hb, if_neg Bool.false_ne_true] at hserve
        rw [hb] at hfailsafe
        exact hone (replyGetFailsafe_sendsOne d p) hserve
          (replyGetFailsafe_spec hfailsafe _ written)
  · rw [dispatch_setFailsafe h] at hserve
    rw [dispatch, h]
    cases hb : b.disableFailsafe with
    | true =>
        rw [hb, if_pos rfl] at hserve
        exact hnone hserve
    | false =>
        rw [hb, if_neg Bool.false_ne_true] at hserve
        rw [hb] at hfailsafe
        exact hone (replySetFailsafe_sendsOne d p) hserve
          (replySetFailsafe_spec hfailsafe _ written)
  · rw [dispatch_default h] at hserve
    obtain ⟨k, hk⟩ : ∃ k, (p.header >>> 4).toNat = k + 9 :=
      ⟨(p.header >>> 4).toNat - 9, by omega⟩
    rw [dispatch, hk]
    exact hnone hserve

end Handlers

end ConnectionBlocks

section Loop

variable {b : Build} {c : ConnectionBlocks}

/-- The number of blocks that `mainloop` loses where it ends: the data of an invalid packet. -/
def LoopEnd.lost (reason : LoopEnd) : Nat :=
  if reason = .invalid then 1 else 0

/-- The number of replies that could not be written. -/
def lostReplies (b : Build) : Device → List (Buffer × Bool) → Nat
  | _, [] => 0
  | d, (chunk, written) :: turns =>
      match mainloopStep b d chunk with
      | some (.served d' replies) =>
          lostBuffers written replies.length + lostReplies b d' turns
      | _ => 0

/-- After any number of packets the firmware has the blocks that it had before.  What it has lost
are the buffers of the replies that could not be written, and the data of an invalid packet. -/
theorem mainloop_spec (hready : c.Ready b) (turns : List (Buffer × Bool)) :
    ∀ {d : Device}, (mainloop b d (turns.map Prod.fst)).isSome →
      Triple c.core (mainloopBlocks b c d turns) fun reason out =>
        Leaks c.core (lostReplies b d turns + reason.lost) out := by
  induction turns with
  | nil =>
      intro d _
      exact Triple.access (by simp [core]) (Triple.pure (Leaks.refl _))
  | cons turn turns ih =>
      intro d hrun
      obtain ⟨chunk, written⟩ := turn
      rw [List.map_cons, mainloop] at hrun
      rw [lostReplies]
      simp only [mainloopStep, Option.bind_eq_bind] at hrun ⊢
      refine Triple.access (by simp [core]) ?_
      cases hread : connectionRead b chunk with
      | none => simp [hread] at hrun
      | some r =>
          cases r with
          | error => exact Triple.pure (Leaks.refl _)
          | packet p =>
              refine Triple.alloc fun data => Triple.access (by simp) ?_
              cases hvalid : packetValid p with
              | none => simp [hread, hvalid] at hrun
              | some valid =>
                  cases valid with
                  | false =>
                      exact Triple.pure ⟨{data}, by simp [hvalid, LoopEnd.lost], add_comm _ _⟩
                  | true =>
                      cases hserve : PinProtocol.dispatch b d p with
                      | none => simp [hread, hvalid, hserve] at hrun
                      | some s =>
                          have hrest : (mainloop b s.1 (turns.map Prod.fst)).isSome := by
                            simpa [hread, hvalid, hserve] using hrun
                          simp only [hvalid, hserve, Option.bind_some, Option.pure_def, if_true]
                          refine Triple.call (dispatch_spec hready hserve written)
                            (add_comm _ _) ?_
                          rintro - out hlost
                          refine Triple.free (add_comm _ _) ?_
                          obtain ⟨lost, hcard, rfl⟩ := hlost
                          -- what is lost now is in the frame of the turns that follow
                          refine ((ih hrest).frame (r := lost)).mono ?_
                          rintro reason _ ⟨out, hout, rfl⟩
                          rw [add_assoc]
                          exact Leaks.trans ⟨lost, hcard, rfl⟩ (hout.frame lost)

/-- Where the loop leaves an array of the contents, its blocks are not defined either. -/
theorem mainloop_undefined (c : ConnectionBlocks) (turns : List (Buffer × Bool)) :
    ∀ {d : Device}, mainloop b d (turns.map Prod.fst) = none →
      Undefined (mainloopBlocks b c d turns) := by
  induction turns with
  | nil =>
      intro d hrun
      cases hrun
  | cons turn turns ih =>
      intro d hrun
      obtain ⟨chunk, written⟩ := turn
      rw [List.map_cons, mainloop] at hrun
      simp only [mainloopStep, Option.bind_eq_bind] at hrun
      refine Undefined.bind fun _ => ?_
      cases hread : connectionRead b chunk with
      | none => exact Undefined.undefined
      | some r =>
          cases r with
          | error => simp [hread] at hrun
          | packet p =>
              refine Undefined.bind fun data => Undefined.bind fun _ => ?_
              cases hvalid : packetValid p with
              | none => exact Undefined.undefined
              | some valid =>
                  cases valid with
                  | false => simp [hread, hvalid] at hrun
                  | true =>
                      cases hserve : PinProtocol.dispatch b d p with
                      | none => exact Undefined.undefined
                      | some s =>
                          have hrest : mainloop b s.1 (turns.map Prod.fst) = none := by
                            simpa [hread, hvalid, hserve] using hrun
                          exact Undefined.bind fun _ => Undefined.bind fun _ => ih hrest

end Loop

/-! ## The whole program -/

section Main

variable {b : Build} {c : ConnectionBlocks}

theorem initDevice_spec (b : Build) :
    Triple 0 (initDeviceBlocks b) fun c out =>
      c.Ready b ∧ c.fdIn = none ∧ c.fdOut = none ∧ out = c.core := by
  refine Triple.alloc fun device => Triple.access (by simp) ?_
  refine Triple.call (initResources_spec fun _ => rfl) (t := 0) (by simp [tables]) ?_
  rintro c _ ⟨hready, ⟨-, hin, hout⟩, rfl⟩
  rw [add_zero]
  refine triple_deref hready.pinsMaskType c.blockOf_pinsMaskType_le ?_
  refine triple_deref hready.pinsState c.blockOf_pinsState_le ?_
  exact Triple.pure ⟨hready, hin, hout, rfl⟩

/-- A file that can be opened. -/
theorem openOrEnd_spec (hmem : c.self ∈ r) :
    Triple r (openOrEnd b c true) fun fd out => fd.isSome ∧ out = r + blockOf fd := by
  refine Triple.access hmem (Triple.call (openFile_spec true) (zero_add _).symm ?_)
  rintro fd _ ⟨hfd, rfl⟩
  exact Triple.pure ⟨hfd.mp rfl, add_comm _ _⟩

/-- A file that cannot be opened: the device is gone, and the function goes on. -/
theorem openOrEnd_fails (hof : c.Of b)
    (hb : b.embedded = true → c.fdIn = none ∧ c.fdOut = none) :
    Triple c.blocks (openOrEnd b c false) fun _ out => out = 0 := by
  refine Triple.access (by simp [blocks]) (Triple.call (openFile_spec false) (zero_add _).symm ?_)
  rintro fd _ ⟨hfd, rfl⟩
  have hnone : fd = none := by simpa using hfd
  rw [hnone, blockOf_none, zero_add]
  refine Triple.call (close_spec hof hb) (add_zero _).symm ?_
  rintro - _ rfl
  exact Triple.pure (add_zero _)

theorem initCommunication_spec (hready : c.Ready b) (hin : c.fdIn = none)
    (hout : c.fdOut = none) :
    Triple c.core (initCommunication b c true true) fun c' out =>
      c'.Ready b ∧ out = c'.blocks ∧ c.core = c'.core ∧
        (b.embedded = true → c'.fdIn = none ∧ c'.fdOut = none) := by
  rw [initCommunication]
  split
  · refine Triple.pure ⟨hready, ?_, rfl, fun _ => ⟨hin, hout⟩⟩
    rw [blocks_eq, hin, hout, blockOf_none, add_zero, add_zero]
  · rename_i hb
    refine Triple.bind (openOrEnd_spec (by simp [core])) ?_
    rintro fdOut _ ⟨-, rfl⟩
    refine Triple.bind (openOrEnd_spec (by simp [core])) ?_
    rintro fdIn _ ⟨-, rfl⟩
    refine Triple.pure ⟨⟨hready.pinsMaskType, hready.pinsState, hready.failsafe⟩, ?_, rfl,
      fun he => absurd he hb⟩
    rw [blocks_eq]
    simp only [core, tables]
    abel

theorem main_spec {d : Device} {turns : List (Buffer × Bool)}
    (hrun : (mainloop b d (turns.map Prod.fst)).isSome) :
    Triple 0 (mainBlocks b true true d turns) fun reason out =>
      ∃ c : ConnectionBlocks, c.Ready b ∧
        Leaks (if reason = .waiting then c.blocks else 0) (lostReplies b d turns + reason.lost)
          out := by
  refine Triple.bind (initDevice_spec b) ?_
  rintro c _ ⟨hready, hin, hout, rfl⟩
  refine Triple.bind (initCommunication_spec hready hin hout) ?_
  rintro c' _ ⟨hready', rfl, hcore, hb⟩
  refine Triple.call (mainloop_spec hready' turns hrun)
    (t := blockOf c'.fdIn + blockOf c'.fdOut) c'.blocks_eq ?_
  rintro reason _ ⟨lost, hlost, rfl⟩
  have hown : c'.core + lost + (blockOf c'.fdIn + blockOf c'.fdOut) = c'.blocks + lost := by
    rw [blocks_eq]
    abel
  rw [hown]
  cases reason with
  | waiting => exact Triple.pure ⟨c', hready', lost, hlost, rfl⟩
  | closed | invalid =>
      refine Triple.call (close_spec hready'.of hb) rfl ?_
      rintro - _ rfl
      exact Triple.pure ⟨c', hready', lost, hlost, rfl⟩

/-- The firmware, when its files can be opened: it never uses a block that it has given back.  In
between it has the blocks of its connection and at its end none of them, but it does not give back
the buffers of replies that it could not write, and the data of the packet that ended it. -/
theorem main_memory {d : Device} {turns : List (Buffer × Bool)}
    (hrun : (mainloop b d (turns.map Prod.fst)).isSome) :
    ∃ (reason : LoopEnd) (h : Heap) (c : ConnectionBlocks),
      mainBlocks b true true d turns Heap.empty = some (reason, h) ∧ c.Ready b ∧
        Leaks (if reason = .waiting then c.blocks else 0) (lostReplies b d turns + reason.lost)
          h.live := by
  obtain ⟨reason, h, out, hmain, ⟨c, hready, hleaks⟩, hlive⟩ :=
    main_spec hrun Heap.empty 0 (add_zero _).symm
  exact ⟨reason, h, c, hmain, hready, by rwa [hlive, add_zero]⟩

/-- A ping whose reply cannot be written, one whose reply can, and then a packet with a wrong
checksum. -/
def brokenPings : List (Buffer × Bool) :=
  [([0x20#8, 0#8, 1#8, 0#8, 0xDE#8], false), ([0x20#8, 0#8, 1#8, 0#8, 0xDE#8], true),
    ([0x20#8, 0#8, 0#8, 0#8], true)]

theorem main_memory_pings :
    ∃ (reason : LoopEnd) (h : Heap) (c : ConnectionBlocks),
      mainBlocks hostBuild true true (initialDevice hostBuild 2) brokenPings Heap.empty =
          some (reason, h) ∧ c.Ready hostBuild ∧
        Leaks (if reason = .waiting then c.blocks else 0) (1 + reason.lost) h.live := by
  have hlost : lostReplies hostBuild (initialDevice hostBuild 2) brokenPings = 1 := by
    decide +kernel
  have hrun : (mainloop hostBuild (initialDevice hostBuild 2) (brokenPings.map Prod.fst)).isSome :=
    by decide +kernel
  rw [← hlost]
  exact main_memory hrun

theorem init_fails_out (hb : b.embedded = false) (hready : c.Ready b) (hin : c.fdIn = none)
    (hout : c.fdOut = none) (inOpens : Bool) :
    Fails c.core (initCommunication b c false inOpens) := by
  have hown : c.core = c.blocks := by rw [blocks_eq, hin, hout, blockOf_none, add_zero, add_zero]
  rw [initCommunication, hb, if_neg Bool.false_ne_true, hown]
  refine Fails.bind (openOrEnd_fails hready.of fun _ => ⟨hin, hout⟩) ?_
  rintro fdOut _ rfl
  exact Fails.first (Fails.access (Multiset.notMem_zero _))

theorem initCommunication_in (hb : b.embedded = false) (hready : c.Ready b)
    (hin : c.fdIn = none) :
    Triple c.core (initCommunication b c true false) fun _ out => out = 0 := by
  rw [initCommunication, hb, if_neg Bool.false_ne_true]
  refine Triple.bind (openOrEnd_spec (by simp [core])) ?_
  rintro fdOut _ ⟨-, rfl⟩
  have hown : c.core + blockOf fdOut = { c with fdOut }.blocks := by
    rw [blocks_eq, hin, blockOf_none, zero_add]
    rfl
  rw [hown]
  refine Triple.bind (openOrEnd_fails (c := { c with fdOut }) hready.of fun he => ?_) ?_
  · rw [hb] at he
    cases he
  · rintro fdIn _ rfl
    exact Triple.pure rfl

/-- `mainloop` begins with the device. -/
theorem mainloop_fails (c : ConnectionBlocks) (d : Device) (turns : List (Buffer × Bool)) :
    Fails 0 (mainloopBlocks b c d turns) := by
  cases turns with
  | nil => exact Fails.access (Multiset.notMem_zero _)
  | cons turn turns => exact Fails.access (Multiset.notMem_zero _)

/-- With one of its files missing, the firmware uses the device after it has freed it. -/
theorem main_fails (hb : b.embedded = false) (d : Device) (turns : List (Buffer × Bool))
    {outOpens inOpens : Bool} (hmissing : (outOpens && inOpens) = false) :
    Fails 0 (mainBlocks b outOpens inOpens d turns) := by
  refine Fails.bind (initDevice_spec b) ?_
  rintro c _ ⟨hready, hin, hout, rfl⟩
  cases outOpens with
  | false => exact Fails.first (init_fails_out hb hready hin hout inOpens)
  | true =>
      obtain rfl : inOpens = false := hmissing
      refine Fails.bind (initCommunication_in hb hready hin) ?_
      rintro c' _ rfl
      exact Fails.first (mainloop_fails c' d turns)

/-- The firmware uses nothing that it has freed if and only if it can open both of its files and its
handlers stay inside the arrays of the device. -/
theorem main_memory_iff (hb : b.embedded = false) (d : Device) (turns : List (Buffer × Bool))
    (outOpens inOpens : Bool) :
    (mainBlocks b outOpens inOpens d turns Heap.empty).isSome ↔
      outOpens = true ∧ inOpens = true ∧ (mainloop b d (turns.map Prod.fst)).isSome := by
  constructor
  · intro hsome
    rw [← Option.ne_none_iff_isSome] at hsome
    -- after a failed `open` the device is gone, whatever packets are to come
    have hopen : (outOpens && inOpens) = true := by
      by_contra hnot
      exact hsome (main_fails hb d turns (by simpa using hnot) Heap.empty rfl)
    obtain ⟨hout, hin⟩ := Bool.and_eq_true_iff.mp hopen
    refine ⟨hout, hin, ?_⟩
    rw [← Option.ne_none_iff_isSome]
    intro hrun
    -- the blocks of a handler that leaves its arrays are not defined
    refine hsome (Undefined.bind (fun _ => Undefined.bind fun c => ?_) Heap.empty)
    exact Undefined.first (mainloop_undefined c turns hrun)
  · rintro ⟨rfl, rfl, hrun⟩
    obtain ⟨reason, h, -, hmain, -⟩ := main_spec hrun Heap.empty 0 (add_zero _).symm
    rw [hmain]
    rfl

/-- The file of the driver's packets cannot be opened: the pings are never read. -/
theorem main_memory_iff_closed :
    mainBlocks hostBuild true false (initialDevice hostBuild 2) brokenPings Heap.empty = none := by
  have hiff := main_memory_iff (b := hostBuild) rfl (initialDevice hostBuild 2) brokenPings true
    false
  rw [← Option.not_isSome_iff_eq_none, hiff]
  rintro ⟨-, hin, -⟩
  cases hin

end Main

end PinProtocol
