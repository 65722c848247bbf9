import PinProtocol.Firmware.Init
import PinProtocol.Firmware.Uart

/-!
# Embedded — the firmware of the Atmega8 (`firmware/firmware.c`, `firmware/src/io_utils.c`)

On the Atmega8 `mainloop` shares the receive FIFO with an interrupt handler: its `read` takes
`BUFF_SIZE` bytes out of what the handler has stored.  `embedded_is_mainloop` says that, whenever
the interrupts come, this is the `mainloop` of the host on pieces of `BUFF_SIZE` bytes, as long as
there is room in the FIFO; and since its indices never go back, there is room for four of them.
-/

namespace PinProtocol

open Bits Control

/-- The firmware between two instructions that matter to the other side; `ended` is a `mainloop`
that has returned. -/
structure Embedded where
  uart : Uart
  device : Device
  sent : List Buffer
  ended : Bool
  deriving DecidableEq, Repr

/-- What happens next: the interrupt, with the flag `RXC` and the register `UDR`, or `mainloop` goes
on. -/
inductive EmbeddedEvent
  | interrupt (rxc : Bool) (udr : Byte)
  | main
  deriving DecidableEq, Repr

namespace Embedded

def start (d : Device) : Embedded :=
  { uart := Uart.start, device := d, sent := [], ended := false }

/-- `mainloop` calls `read`, goes round in its loop, or treats the bytes that it has returned. -/
def mainStep (b : Build) (s : Embedded) : Option Embedded :=
  match s.uart.call with
  | none => (s.uart.step (.read b.buffSize)).map fun uart => { s with uart }
  | some call =>
      (s.uart.step .turn).bind fun uart =>
        match uart.call with
        | some _ => some { s with uart }
        | none =>
            (mainloopStep b s.device call.buffer).map fun
              | .stopped => { s with uart, ended := true }
              | .served device replies => { s with uart, device, sent := s.sent ++ replies }

/-- Nothing in the firmware turns the interrupt off. -/
def step (b : Build) (s : Embedded) : EmbeddedEvent → Option Embedded
  | .interrupt rxc udr => (s.uart.step (.interrupt rxc udr)).map fun uart => { s with uart }
  | .main => if s.ended then some s else s.mainStep b

def run (b : Build) (d : Device) (events : List EmbeddedEvent) : Option Embedded :=
  events.foldlM (step b) (start d)

end Embedded

/-- The bytes that have come in. -/
def EmbeddedEvent.byte : EmbeddedEvent → Option Byte
  | .interrupt true udr => some udr
  | _ => none

def arrived (events : List EmbeddedEvent) : Buffer :=
  events.filterMap EmbeddedEvent.byte

theorem arrived_concat (events : List EmbeddedEvent) (e : EmbeddedEvent) :
    arrived (events ++ [e]) = arrived events ++ e.byte.toList := by
  cases h : e.byte <;> simp [arrived, h]

theorem Embedded.run_concat (b : Build) (d : Device) (events : List EmbeddedEvent)
    (e : EmbeddedEvent) :
    Embedded.run b d (events ++ [e]) = (Embedded.run b d events).bind fun s => s.step b e := by
  simp [Embedded.run, List.foldlM_append]

/-! ## The FIFO -/

section Fifo

variable {u u' : Uart} {bytes : Buffer} {call : ReadCall} {e : UartEvent}

/-- Everything that has come in is in the calls of `read`, or still to be read. -/
def Uart.Tracks (u : Uart) (bytes : Buffer) : Prop :=
  ∃ q : Queue, u.Follows q bytes ∧ q.taken ++ q.unread = bytes

theorem Uart.Tracks.start : Uart.start.Tracks [] :=
  ⟨Queue.start, Uart.start_follows, rfl⟩

theorem Uart.Tracks.step (h : u.Tracks bytes)
    (hroom : (bytes ++ e.byte.toList).length ≤ fifoSize) :
    ∃ u', u.step e = some u' ∧ u'.Tracks (bytes ++ e.byte.toList) := by
  obtain ⟨q, hfollows, htaken⟩ := h
  obtain ⟨u', hstep, hfollows'⟩ := hfollows.step hroom
  exact ⟨u', hstep, q.step e, hfollows', by rw [Queue.taken_step, htaken]⟩

theorem Uart.Tracks.length_le (h : u.Tracks bytes) : bytes.length ≤ fifoSize := by
  obtain ⟨q, hfollows, -⟩ := h
  calc bytes.length
      = (u.fifo.array.take u.fifo.lastWrite).length := by rw [hfollows.stored]
    _ ≤ u.fifo.array.length := List.length_take_le' _ _
    _ = fifoSize := hfollows.size

/-- The interrupt handler stays inside the array. -/
theorem Uart.Tracks.room (h : u.Tracks bytes) (hstep : u.step e = some u') :
    (bytes ++ e.byte.toList).length ≤ fifoSize := by
  have hbefore := h.length_le
  obtain ⟨q, hfollows, -⟩ := h
  cases e with
  | interrupt rxc udr =>
      cases rxc with
      | false => simpa [UartEvent.byte] using hbefore
      | true =>
          obtain ⟨array, hstore, -⟩ := Option.bind_eq_some_iff.mp hstep
          have hlt : u.fifo.lastWrite < u.fifo.array.length := by
            by_contra hfull
            rw [store, if_neg hfull] at hstore
            cases hstore
          rw [hfollows.size, hfollows.written] at hlt
          simpa [UartEvent.byte] using Nat.succ_le_of_lt hlt
  | read | turn => simpa [UartEvent.byte] using hbefore

theorem Uart.Tracks.next (h : u.Tracks bytes) (hstep : u.step e = some u') :
    u'.Tracks (bytes ++ e.byte.toList) := by
  obtain ⟨u₁, hstep₁, htracks⟩ := h.step (h.room hstep)
  rw [hstep] at hstep₁
  cases hstep₁
  exact htracks

theorem Uart.Tracks.returned_front (h : u.Tracks bytes) :
    u.returned ++ (u.call.map ReadCall.buffer).getD [] <+: bytes := by
  obtain ⟨q, hfollows, htaken⟩ := h
  rw [hfollows.call, hfollows.returned, ← htaken]
  exact List.prefix_append _ _

/-- A turn of the loop of `read`: it goes on, or the call returns. -/
theorem Uart.turn_cases (hcall : u.call = some call) (hstep : u.step .turn = some u') :
    (u'.returned = u.returned ∧ ∃ buffer, u'.call = some { call with buffer } ∧
        (call.buffer.length ≤ call.n → buffer.length ≤ call.n)) ∨
      (call.n ≤ call.buffer.length ∧ u'.call = none ∧ u'.returned = u.returned ++ call.buffer) := by
  simp only [Uart.step, hcall] at hstep
  split at hstep
  · rename_i hmore
    split at hstep
    · obtain ⟨byte, -, hstep⟩ := Option.bind_eq_some_iff.mp hstep
      cases hstep
      refine .inl ⟨rfl, call.buffer ++ [byte], rfl, fun _ => ?_⟩
      rw [List.length_append, List.length_singleton]
      exact hmore
    · cases hstep
      exact .inl ⟨rfl, call.buffer, hcall, id⟩
  · rename_i hmore
    cases hstep
    exact .inr ⟨Nat.not_lt.mp hmore, rfl, rfl⟩

end Fifo

/-! ## The loop -/

section Loop

variable {b : Build} {d : Device} {s s' : Embedded} {bytes : Buffer} {chunks : List Buffer}

/-- The firmware has treated `chunks` and nothing else. -/
structure Embedded.Treated (b : Build) (d : Device) (s : Embedded) (bytes : Buffer)
    (chunks : List Buffer) : Prop where
  tracks : s.uart.Tracks bytes
  returned : s.uart.returned = chunks.flatten
  full : ∀ chunk ∈ chunks, chunk.length = b.buffSize
  call : ∀ call, s.uart.call = some call →
    call.n = b.buffSize ∧ call.buffer.length ≤ b.buffSize
  result : mainloop b d chunks = some (s.device, s.sent)
  -- as long as it runs, it goes on like `mainloop` from its device
  resume : s.ended = false → ∀ rest, mainloop b d (chunks ++ rest) =
    (mainloop b s.device rest).map fun r => (r.1, s.sent ++ r.2)

theorem Embedded.Treated.start (b : Build) (d : Device) :
    (Embedded.start d).Treated b d [] [] := by
  refine ⟨.start, rfl, by simp, ?_, rfl, fun _ rest => ?_⟩
  · intro call hcall
    cases hcall
  · cases hrest : mainloop b d rest <;> simp [Embedded.start, hrest]

theorem Embedded.Treated.interrupt (h : s.Treated b d bytes chunks) {rxc : Bool} {udr : Byte}
    (hstep : s.step b (.interrupt rxc udr) = some s') :
    s'.Treated b d (bytes ++ (EmbeddedEvent.interrupt rxc udr).byte.toList) chunks := by
  obtain ⟨u, hu, rfl⟩ := Option.map_eq_some_iff.mp hstep
  have hsame : u.returned = s.uart.returned ∧ u.call = s.uart.call := by
    cases rxc with
    | false =>
        cases hu
        exact ⟨rfl, rfl⟩
    | true =>
        obtain ⟨array, -, hu⟩ := Option.bind_eq_some_iff.mp hu
        cases hu
        exact ⟨rfl, rfl⟩
  have htracks := h.tracks.next hu
  refine ⟨?_, hsame.1.trans h.returned, h.full, ?_, h.result, h.resume⟩
  · cases rxc <;> exact htracks
  · intro call hcall
    exact h.call call (hsame.2.symm.trans hcall)

/-- `mainloop` calls `read`, or goes round in it: it treats nothing. -/
theorem Embedded.Treated.reading (h : s.Treated b d bytes chunks) {u : Uart} {e : UartEvent}
    (hu : s.uart.step e = some u) (hbyte : e.byte = none)
    (hreturned : u.returned = s.uart.returned)
    (hcall : ∀ call, u.call = some call →
      call.n = b.buffSize ∧ call.buffer.length ≤ b.buffSize) :
    { s with uart := u }.Treated b d bytes chunks := by
  have htracks := h.tracks.next hu
  rw [hbyte, Option.toList_none, List.append_nil] at htracks
  exact ⟨htracks, hreturned.trans h.returned, h.full, hcall, h.result, h.resume⟩

/-- `read` returns a chunk, and `mainloop` treats it. -/
theorem Embedded.Treated.chunk (h : s.Treated b d bytes chunks) (hrunning : s.ended = false)
    {u : Uart} {chunk : Buffer} (hu : s.uart.step .turn = some u) (hlen : chunk.length = b.buffSize)
    (hcall : u.call = none) (hreturned : u.returned = s.uart.returned ++ chunk)
    (hstep : (mainloopStep b s.device chunk).map (fun
      | .stopped => { s with uart := u, ended := true }
      | .served device replies =>
          { s with uart := u, device, sent := s.sent ++ replies }) = some s') :
    s'.Treated b d bytes (chunks ++ [chunk]) := by
  have htracks : u.Tracks bytes := by
    have hnext := h.tracks.next hu
    rwa [show UartEvent.turn.byte = none from rfl, Option.toList_none, List.append_nil] at hnext
  have hflat : u.returned = (chunks ++ [chunk]).flatten := by
    rw [hreturned, h.returned, List.flatten_append, List.flatten_singleton]
  have hfull : ∀ c ∈ chunks ++ [chunk], c.length = b.buffSize := by
    intro c hc
    rcases List.mem_append.mp hc with hc | hc
    · exact h.full c hc
    · rw [List.mem_singleton.mp hc]
      exact hlen
  have hidle : ∀ call, u.call = some call →
      call.n = b.buffSize ∧ call.buffer.length ≤ b.buffSize := by
    intro call hsome
    rw [hcall] at hsome
    cases hsome
  -- The loop over the old chunks and this one is the loop over this one from where it stands.
  have hnext : ∀ rest, mainloop b d (chunks ++ [chunk] ++ rest) =
      (mainloop b s.device (chunk :: rest)).map fun r => (r.1, s.sent ++ r.2) := by
    intro rest
    rw [List.append_assoc]
    exact h.resume hrunning _
  obtain ⟨outcome, houtcome, rfl⟩ := Option.map_eq_some_iff.mp hstep
  have hresult := hnext []
  rw [List.append_nil, mainloop, houtcome, Option.bind_some] at hresult
  cases outcome with
  | stopped =>
      refine ⟨htracks, hflat, hfull, hidle, ?_, fun hend => by cases hend⟩
      rw [hresult]
      simp
  | served device replies =>
      refine ⟨htracks, hflat, hfull, hidle, ?_, fun _ rest => ?_⟩
      · rw [hresult]
        simp [mainloop]
      · rw [hnext, mainloop, houtcome, Option.bind_some, Option.map_map]
        refine congrArg (fun f => (mainloop b device rest).map f) (funext fun r => ?_)
        simp [List.append_assoc]

/-- One step of `mainloop`, which comes to treat another chunk or does not. -/
theorem Embedded.Treated.main (h : s.Treated b d bytes chunks)
    (hstep : s.step b .main = some s') :
    ∃ chunks', s'.Treated b d bytes chunks' := by
  cases hended : s.ended with
  | true =>
      rw [Embedded.step, hended, if_pos rfl] at hstep
      cases hstep
      exact ⟨chunks, h⟩
  | false =>
      rw [Embedded.step, hended, if_neg Bool.false_ne_true, Embedded.mainStep] at hstep
      cases hcall : s.uart.call with
      | none =>
          rw [hcall] at hstep
          obtain ⟨u, hu, rfl⟩ := Option.map_eq_some_iff.mp hstep
          have hread := hu
          rw [Uart.step, hcall] at hread
          cases hread
          refine ⟨chunks, h.reading hu rfl rfl fun call hsome => ?_⟩
          cases hsome
          exact ⟨rfl, Nat.zero_le _⟩
      | some call =>
          rw [hcall] at hstep
          obtain ⟨u, hu, hstep⟩ := Option.bind_eq_some_iff.mp hstep
          obtain ⟨hn, hlen⟩ := h.call call hcall
          rcases Uart.turn_cases hcall hu with
            ⟨hreturned, buffer, hmore, hroom⟩ | ⟨hfull, hdone, hreturned⟩
          · rw [hmore] at hstep
            cases hstep
            refine ⟨chunks, h.reading hu rfl hreturned fun call' hsome => ?_⟩
            rw [hmore] at hsome
            cases hsome
            exact ⟨hn, hn ▸ hroom (hn ▸ hlen)⟩
          · rw [hdone] at hstep
            have hchunk : call.buffer.length = b.buffSize := Nat.le_antisymm hlen (hn ▸ hfull)
            exact ⟨_, h.chunk hended hu hchunk hdone hreturned hstep⟩

theorem Embedded.treated_of_run {events : List EmbeddedEvent}
    (hrun : Embedded.run b d events = some s) :
    ∃ chunks, s.Treated b d (arrived events) chunks := by
  induction events using List.reverseRecOn generalizing s with
  | nil =>
      cases hrun
      exact ⟨[], .start b d⟩
  | append_singleton events e ih =>
      rw [Embedded.run_concat] at hrun
      obtain ⟨s₁, hrun₁, hstep⟩ := Option.bind_eq_some_iff.mp hrun
      obtain ⟨chunks, h⟩ := ih hrun₁
      rw [arrived_concat]
      cases e with
      | interrupt rxc udr => exact ⟨chunks, h.interrupt hstep⟩
      | main =>
          obtain ⟨chunks', h'⟩ := h.main hstep
          exact ⟨chunks', by simpa [EmbeddedEvent.byte] using h'⟩

/-- `mainloop` can go on, unless it leaves an array of the device. -/
theorem Embedded.Treated.main_isSome (h : s.Treated b d bytes chunks)
    (hsafe : ∀ chunk, chunk.length = b.buffSize → s.uart.returned ++ chunk <+: bytes →
      (mainloop b d (chunks ++ [chunk])).isSome) : (s.step b .main).isSome := by
  cases hended : s.ended with
  | true =>
      rw [Embedded.step, hended, if_pos rfl]
      rfl
  | false =>
      rw [Embedded.step, hended, if_neg Bool.false_ne_true, Embedded.mainStep]
      cases hcall : s.uart.call with
      | none =>
          dsimp only
          rw [Uart.step, hcall]
          rfl
      | some call =>
          obtain ⟨hn, hlen⟩ := h.call call hcall
          have hroom : (bytes ++ UartEvent.turn.byte.toList).length ≤ fifoSize := by
            simpa [UartEvent.byte] using h.tracks.length_le
          obtain ⟨u, hu, -⟩ := h.tracks.step hroom
          dsimp only
          rw [hu, Option.bind_some]
          rcases Uart.turn_cases hcall hu with ⟨-, buffer, hmore, -⟩ | ⟨hfull, hdone, -⟩
          · rw [hmore]
            rfl
          · have hfront := h.tracks.returned_front
            rw [hcall] at hfront
            have hrest := hsafe call.buffer (Nat.le_antisymm hlen (hn ▸ hfull)) hfront
            rw [h.resume hended, Option.isSome_map, mainloop] at hrest
            rw [hdone, Option.isSome_map]
            exact Option.isSome_of_isSome_bind hrest

theorem Embedded.run_isSome {events : List EmbeddedEvent}
    (hroom : (arrived events).length ≤ fifoSize)
    (hsafe : ∀ chunks : List Buffer, (∀ chunk ∈ chunks, chunk.length = b.buffSize) →
      chunks.flatten <+: arrived events → (mainloop b d chunks).isSome) :
    (Embedded.run b d events).isSome := by
  induction events using List.reverseRecOn with
  | nil => rfl
  | append_singleton events e ih =>
      rw [arrived_concat] at hroom hsafe
      have hshort : arrived events <+: arrived events ++ e.byte.toList := List.prefix_append _ _
      have hbefore := ih (hshort.length_le.trans hroom)
        fun chunks hfull hfront => hsafe chunks hfull (hfront.trans hshort)
      obtain ⟨s, hrun⟩ := Option.isSome_iff_exists.mp hbefore
      obtain ⟨chunks, h⟩ := Embedded.treated_of_run hrun
      rw [Embedded.run_concat, hrun, Option.bind_some]
      cases e with
      | interrupt rxc udr =>
          have hbyte : (EmbeddedEvent.interrupt rxc udr).byte =
              (UartEvent.interrupt rxc udr).byte := by cases rxc <;> rfl
          rw [hbyte] at hroom
          obtain ⟨u, hu, -⟩ := h.tracks.step hroom
          rw [Embedded.step, hu]
          rfl
      | main =>
          refine h.main_isSome fun chunk hlen hfront => hsafe _ ?_ ?_
          · intro c hc
            rcases List.mem_append.mp hc with hc | hc
            · exact h.full c hc
            · rw [List.mem_singleton.mp hc]
              exact hlen
          · rw [List.flatten_append, List.flatten_singleton, ← h.returned]
            exact hfront.trans hshort

theorem length_flatten_full {n : Nat} (hfull : ∀ chunk ∈ chunks, chunk.length = n) :
    chunks.flatten.length = chunks.length * n := by
  rw [List.length_flatten, List.map_congr_left hfull, List.map_const', List.sum_replicate_nat]

/-- Whenever the interrupts come: a firmware that stays inside its arrays is `mainloop` on the
pieces that its `read` has returned, of which there are never more than four; and it stays
inside of them, as long as the FIFO has room and `mainloop` does. -/
theorem embedded_is_mainloop (hb : b.embedded = true) (d : Device) (events : List EmbeddedEvent) :
    (∀ s, Embedded.run b d events = some s →
      (arrived events).length ≤ fifoSize ∧
        ∃ chunks : List Buffer, chunks.length ≤ 4 ∧ (∀ chunk ∈ chunks, chunk.length = b.buffSize) ∧
          s.uart.returned = chunks.flatten ∧ chunks.flatten <+: arrived events ∧
            mainloop b d chunks = some (s.device, s.sent)) ∧
      ((arrived events).length ≤ fifoSize →
        (∀ chunks : List Buffer, (∀ chunk ∈ chunks, chunk.length = b.buffSize) →
          chunks.flatten <+: arrived events → (mainloop b d chunks).isSome) →
        (Embedded.run b d events).isSome) := by
  have hsize : b.buffSize = 42 := by rw [Build.buffSize, hb, if_pos rfl]
  refine ⟨fun s hrun => ?_, Embedded.run_isSome⟩
  obtain ⟨chunks, h⟩ := Embedded.treated_of_run hrun
  have hroom := h.tracks.length_le
  have hfront : chunks.flatten <+: arrived events := by
    rw [← h.returned]
    exact (List.prefix_append _ _).trans h.tracks.returned_front
  refine ⟨hroom, chunks, ?_, h.full, h.returned, hfront, h.result⟩
  have hlen := (length_flatten_full h.full).symm.trans_le (hfront.length_le.trans hroom)
  rw [hsize, fifoSize] at hlen
  omega

/-- A ping that is followed by 38 bytes, and what the firmware does in the meantime. -/
def pingTraffic : List EmbeddedEvent :=
  ([0x20#8, 0#8, 0#8, 0xDF#8] ++ zeros 38).flatMap (fun udr => [.interrupt true udr, .main]) ++
    List.replicate 3 .main

theorem embedded_is_mainloop_ping :
    let b : Build := { embedded := true, disableFailsafe := true }
    ∃ s chunks, Embedded.run b (initialDevice b 2) pingTraffic = some s ∧ s.sent.length = 1 ∧
      chunks.length ≤ 4 ∧ chunks.flatten <+: arrived pingTraffic ∧
        mainloop b (initialDevice b 2) chunks = some (s.device, s.sent) := by
  intro b
  have hone : (Embedded.run b (initialDevice b 2) pingTraffic).map (fun s => s.sent.length) =
      some 1 := by decide +kernel
  obtain ⟨s, hrun, hsent⟩ := Option.map_eq_some_iff.mp hone
  obtain ⟨-, chunks, hfour, -, -, hfront, hmain⟩ :=
    (embedded_is_mainloop rfl (initialDevice b 2) pingTraffic).1 s hrun
  exact ⟨s, chunks, hrun, hsent, hfour, hfront, hmain⟩

end Loop

end PinProtocol
