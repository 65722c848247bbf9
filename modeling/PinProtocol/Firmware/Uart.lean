import Mathlib.Data.List.Induction
import Mathlib.Data.List.Infix
import PinProtocol.Common.Arrays

/-!
# Uart — the receive FIFO of the firmware (`firmware/firmware.c`, `firmware/src/io_utils.c`)

The interrupt handler appends a byte to `fifo_receiver`, the loop of `read` takes bytes out of it;
neither index ever goes back to the start of the array.  `Queue` is what the pair is for: a queue
without an array.  The firmware is a queue exactly as long as fewer than `FIFO_SIZE` bytes have
come in since it was started (`uart_is_queue_iff`).
-/

namespace PinProtocol

open Bits Control

/-- `FIFO_SIZE` -/
def fifoSize : Nat := 200

/-- `struct fifo` -/
structure Fifo where
  array : Buffer
  lastRead : Nat
  lastWrite : Nat
  deriving DecidableEq, Repr

/-- A call of `read` that has not returned: the bytes wanted, and those it has. -/
structure ReadCall where
  n : Nat
  buffer : Buffer
  deriving DecidableEq, Repr

/-- The receiving side; `returned` holds the bytes of the calls of `read` that have returned. -/
structure Uart where
  fifo : Fifo
  call : Option ReadCall
  returned : Buffer
  deriving DecidableEq, Repr

/-- What happens next: the interrupt, with the flag `RXC` and the register `UDR`; a call of `read`;
one turn of its loop. -/
inductive UartEvent
  | interrupt (rxc : Bool) (udr : Byte)
  | read (n : Nat)
  | turn
  deriving DecidableEq, Repr

/-- The globals before `main` runs. -/
def Uart.start : Uart :=
  { fifo := { array := zeros fifoSize, lastRead := 0, lastWrite := 0 }
    call := none
    returned := [] }

def Uart.step (u : Uart) : UartEvent → Option Uart
  | .interrupt rxc udr =>
      if rxc then do
        let array ← store u.fifo.array u.fifo.lastWrite udr
        return { u with fifo := { u.fifo with array, lastWrite := u.fifo.lastWrite + 1 } }
      else some u
  | .read n =>
      match u.call with
      | none => some { u with call := some { n, buffer := [] } }
      | some _ => some u
  | .turn =>
      match u.call with
      | none => some u
      | some call =>
          if call.buffer.length < call.n then
            if u.fifo.lastWrite ≠ u.fifo.lastRead then do
              let byte ← u.fifo.array[u.fifo.lastRead]?
              return { u with
                fifo := { u.fifo with lastRead := u.fifo.lastRead + 1 }
                call := some { call with buffer := call.buffer ++ [byte] } }
            else some u -- `_delay_ms( 40 )`
          else some { u with call := none, returned := u.returned ++ call.buffer }

def Uart.run (events : List UartEvent) : Option Uart :=
  events.foldlM Uart.step Uart.start

/-! ## The queue -/

/-- The bytes that have come in. -/
def UartEvent.byte : UartEvent → Option Byte
  | .interrupt true udr => some udr
  | _ => none

def received (events : List UartEvent) : Buffer :=
  events.filterMap UartEvent.byte

/-- The receiving side with a queue in the place of the array. -/
structure Queue where
  unread : Buffer
  call : Option ReadCall
  returned : Buffer
  deriving DecidableEq, Repr

def Queue.start : Queue :=
  { unread := [], call := none, returned := [] }

def Queue.step (q : Queue) : UartEvent → Queue
  | .interrupt rxc udr => if rxc then { q with unread := q.unread ++ [udr] } else q
  | .read n =>
      match q.call with
      | none => { q with call := some { n, buffer := [] } }
      | some _ => q
  | .turn =>
      match q.call, q.unread with
      | none, _ => q
      | some call, byte :: unread =>
          if call.buffer.length < call.n then
            { q with unread, call := some { call with buffer := call.buffer ++ [byte] } }
          else { q with call := none, returned := q.returned ++ call.buffer }
      | some call, [] =>
          if call.buffer.length < call.n then q
          else { q with call := none, returned := q.returned ++ call.buffer }

def Queue.run (events : List UartEvent) : Queue :=
  events.foldl Queue.step Queue.start

/-- All bytes that calls of `read` have got, the running call included. -/
def Queue.taken (q : Queue) : Buffer :=
  q.returned ++ (q.call.map ReadCall.buffer).getD []

theorem Queue.run_concat (events : List UartEvent) (e : UartEvent) :
    Queue.run (events ++ [e]) = (Queue.run events).step e := by
  simp [Queue.run]

theorem received_concat (events : List UartEvent) (e : UartEvent) :
    received (events ++ [e]) = received events ++ e.byte.toList := by
  cases h : e.byte <;> simp [received, h]

theorem Queue.taken_step (q : Queue) (e : UartEvent) :
    (q.step e).taken ++ (q.step e).unread = q.taken ++ q.unread ++ e.byte.toList := by
  rcases q with ⟨unread, call, returned⟩
  cases e with
  | interrupt rxc udr =>
      cases rxc <;> simp [Queue.step, Queue.taken, UartEvent.byte]
  | read n =>
      cases call <;> simp [Queue.step, Queue.taken, UartEvent.byte]
  | turn =>
      -- a turn moves at most one byte from the queue to the call
      rcases call with _ | call
      · simp [Queue.step, UartEvent.byte]
      · cases unread with
        | nil =>
            by_cases hmore : call.buffer.length < call.n <;>
              simp [Queue.step, Queue.taken, UartEvent.byte, hmore]
        | cons byte unread =>
            by_cases hmore : call.buffer.length < call.n <;>
              simp [Queue.step, Queue.taken, UartEvent.byte, hmore]

/-- A queue neither loses nor repeats a byte, nor changes their order. -/
theorem Queue.taken_append_unread (events : List UartEvent) :
    (Queue.run events).taken ++ (Queue.run events).unread = received events := by
  induction events using List.reverseRecOn with
  | nil => rfl
  | append_singleton events e ih =>
      rw [Queue.run_concat, Queue.taken_step, ih, received_concat]

/-! ## The firmware, as a queue -/

/-- The firmware is where the queue is: the array holds all bytes that have come in, the first of
them have been read. -/
structure Uart.Follows (u : Uart) (q : Queue) (bytes : Buffer) : Prop where
  size : u.fifo.array.length = fifoSize
  stored : u.fifo.array.take u.fifo.lastWrite = bytes
  written : u.fifo.lastWrite = bytes.length
  read : u.fifo.lastRead ≤ u.fifo.lastWrite
  unread : bytes.drop u.fifo.lastRead = q.unread
  call : u.call = q.call
  returned : u.returned = q.returned

theorem Uart.start_follows : Uart.start.Follows Queue.start [] :=
  ⟨by simp [Uart.start], rfl, rfl, Nat.le_refl _, rfl, rfl, rfl⟩

theorem Uart.Follows.empty_iff {u : Uart} {q : Queue} {bytes : Buffer} (h : u.Follows q bytes) :
    u.fifo.lastWrite = u.fifo.lastRead ↔ q.unread = [] := by
  have hread := h.read
  have hwritten := h.written
  rw [← h.unread, List.drop_eq_nil_iff]
  omega

/-- The byte that the firmware takes next is the first one of the queue. -/
theorem Uart.Follows.getElem?_lastRead {u : Uart} {q : Queue} {bytes : Buffer}
    (h : u.Follows q bytes) {byte : Byte} {unread : Buffer} (hq : q.unread = byte :: unread) :
    u.fifo.array[u.fifo.lastRead]? = some byte ∧ u.fifo.lastRead < u.fifo.lastWrite ∧
      bytes.drop (u.fifo.lastRead + 1) = unread := by
  have hdrop := h.unread
  rw [hq] at hdrop
  have hget : bytes[u.fifo.lastRead]? = some byte := by
    rw [← List.head?_drop, hdrop]
    rfl
  have hlt : u.fifo.lastRead < u.fifo.lastWrite := by
    rw [h.written]
    exact (List.getElem?_eq_some_iff.mp hget).1
  refine ⟨?_, hlt, ?_⟩
  · rw [← h.stored, List.getElem?_take_of_lt hlt] at hget
    exact hget
  · rw [← List.drop_drop, hdrop]
    rfl

/-- One event, as long as there is room in the array. -/
theorem Uart.Follows.step {u : Uart} {q : Queue} {bytes : Buffer} (h : u.Follows q bytes)
    {e : UartEvent} (hroom : (bytes ++ e.byte.toList).length ≤ fifoSize) :
    ∃ u', u.step e = some u' ∧ u'.Follows (q.step e) (bytes ++ e.byte.toList) := by
  cases e with
  | interrupt rxc udr =>
      cases rxc with
      | false => exact ⟨u, rfl, by simpa [Queue.step, UartEvent.byte] using h⟩
      | true =>
          have hlt : u.fifo.lastWrite < u.fifo.array.length := by
            rw [h.size, h.written]
            simp [UartEvent.byte] at hroom
            omega
          refine ⟨_, by simp only [Uart.step, if_true, store_eq hlt]; rfl, ?_⟩
          refine ⟨by simp [h.size], ?_, ?_, ?_, ?_, h.call, h.returned⟩
          · -- the new byte goes behind the bytes that are already there
            simp only [UartEvent.byte, Option.toList_some]
            rw [List.take_add_one, List.take_set_of_le (Nat.le_refl _), h.stored]
            simp [hlt]
          · simp [UartEvent.byte, h.written]
          · exact Nat.le_succ_of_le h.read
          · have hle : u.fifo.lastRead ≤ bytes.length := h.written ▸ h.read
            simp [Queue.step, UartEvent.byte, List.drop_append_of_le_length hle, h.unread]
  | read n =>
      have hbytes : bytes ++ (UartEvent.read n).byte.toList = bytes := by simp [UartEvent.byte]
      rw [hbytes]
      cases hcall : u.call with
      | none =>
          refine ⟨_, by simp only [Uart.step, hcall]; rfl, ?_⟩
          have hq : q.call = none := by rw [← h.call, hcall]
          simp only [Queue.step, hq]
          exact ⟨h.size, h.stored, h.written, h.read, h.unread, rfl, h.returned⟩
      | some call =>
          have hq : q.call = some call := by rw [← h.call, hcall]
          refine ⟨u, by simp only [Uart.step, hcall], ?_⟩
          simp only [Queue.step, hq]
          exact h
  | turn =>
      have hbytes : bytes ++ UartEvent.turn.byte.toList = bytes := by simp [UartEvent.byte]
      rw [hbytes]
      cases hcall : u.call with
      | none =>
          have hq : q.call = none := by rw [← h.call, hcall]
          refine ⟨u, by simp only [Uart.step, hcall], ?_⟩
          simp only [Queue.step, hq]
          exact h
      | some call =>
          have hq : q.call = some call := by rw [← h.call, hcall]
          by_cases hmore : call.buffer.length < call.n
          · cases hunread : q.unread with
            | nil =>
                -- nothing to take: the loop waits
                have hempty := h.empty_iff.mpr hunread
                refine ⟨u, by simp [Uart.step, hcall, hmore, hempty], ?_⟩
                simp only [Queue.step, hq, hunread, if_pos hmore]
                exact h
            | cons byte unread =>
                rcases h.getElem?_lastRead hunread with ⟨hget, hlt, hrest⟩
                have hne : u.fifo.lastWrite ≠ u.fifo.lastRead := by omega
                refine ⟨_, by simp only [Uart.step, hcall, if_pos hmore, if_pos hne, hget]; rfl, ?_⟩
                simp only [Queue.step, hq, hunread, if_pos hmore]
                exact ⟨h.size, h.stored, h.written, hlt, hrest, rfl, h.returned⟩
          · refine ⟨_, by simp only [Uart.step, hcall, if_neg hmore]; rfl, ?_⟩
            have hstep : q.step .turn =
                { q with call := none, returned := q.returned ++ call.buffer } := by
              cases hunread : q.unread <;> simp [Queue.step, hq, hunread, hmore]
            rw [hstep]
            exact ⟨h.size, h.stored, h.written, h.read, h.unread, rfl, by rw [h.returned]⟩

theorem Uart.run_concat (events : List UartEvent) (e : UartEvent) :
    Uart.run (events ++ [e]) = (Uart.run events).bind fun u => u.step e := by
  simp [Uart.run, List.foldlM_append]

/-- Up to `FIFO_SIZE` bytes, every run follows the queue. -/
theorem Uart.run_follows {events : List UartEvent} (h : (received events).length ≤ fifoSize) :
    ∃ u, Uart.run events = some u ∧ u.Follows (Queue.run events) (received events) := by
  induction events using List.reverseRecOn with
  | nil => exact ⟨_, rfl, Uart.start_follows⟩
  | append_singleton events e ih =>
      rw [received_concat] at h
      have hbefore : (received events).length ≤ fifoSize := by
        rw [List.length_append] at h
        omega
      rcases ih hbefore with ⟨u, hrun, hfollows⟩
      rcases hfollows.step h with ⟨u', hstep, hfollows'⟩
      refine ⟨u', ?_, ?_⟩
      · rw [Uart.run_concat, hrun, Option.bind_some, hstep]
      · rw [Queue.run_concat, received_concat]
        exact hfollows'

/-! ## The array is used once -/

/-- At every point of the run both indices are inside the array, and the calls of `read` have got
what they get from a queue. -/
def UartIsQueue (events : List UartEvent) : Prop :=
  ∀ front, front <+: events → ∃ u, Uart.run front = some u ∧
    u.fifo.lastRead < fifoSize ∧ u.fifo.lastWrite < fifoSize ∧
    u.call = (Queue.run front).call ∧ u.returned = (Queue.run front).returned ∧
    (Queue.run front).taken ++ (u.fifo.array.drop u.fifo.lastRead).take
      (u.fifo.lastWrite - u.fifo.lastRead) = received front

/-- Every number of bytes up to the last one is the number after some prefix. -/
theorem exists_prefix_received {events : List UartEvent} {n : Nat}
    (h : n ≤ (received events).length) :
    ∃ front, front <+: events ∧ (received front).length = n := by
  induction events using List.reverseRecOn with
  | nil => exact ⟨[], List.nil_prefix, (Nat.le_zero.mp h).symm⟩
  | append_singleton events e ih =>
      by_cases hbefore : n ≤ (received events).length
      · rcases ih hbefore with ⟨front, hfront, hn⟩
        exact ⟨front, hfront.trans (List.prefix_append _ _), hn⟩
      · refine ⟨events ++ [e], List.prefix_rfl, ?_⟩
        rw [received_concat, List.length_append] at h ⊢
        have hone : e.byte.toList.length ≤ 1 := by cases e.byte <;> simp
        omega

theorem length_received_le {front events : List UartEvent} (h : front <+: events) :
    (received front).length ≤ (received events).length :=
  (h.filterMap UartEvent.byte).length_le

/-- The firmware reads what it has received, and stays inside its array, exactly as long as fewer
than `FIFO_SIZE` bytes come in over the whole run. -/
theorem uart_is_queue_iff (events : List UartEvent) :
    UartIsQueue events ↔ (received events).length < fifoSize := by
  constructor
  · intro hqueue
    refine Nat.lt_of_not_le fun hmany => ?_
    -- the byte that fills the array leaves the index behind its end
    rcases exists_prefix_received hmany with ⟨front, hfront, hn⟩
    rcases Uart.run_follows (Nat.le_of_eq hn) with ⟨u, hrun, hfollows⟩
    rcases hqueue front hfront with ⟨u', hrun', _, hwrite, _⟩
    rw [hrun] at hrun'
    cases hrun'
    have hfull := hfollows.written
    omega
  · intro hfew front hfront
    have hlen := Nat.lt_of_le_of_lt (length_received_le hfront) hfew
    rcases Uart.run_follows (Nat.le_of_lt hlen) with ⟨u, hrun, hfollows⟩
    have hread := hfollows.read
    have hwritten := hfollows.written
    refine ⟨u, hrun, by omega, by omega, hfollows.call, hfollows.returned, ?_⟩
    have hunread : (u.fifo.array.drop u.fifo.lastRead).take (u.fifo.lastWrite - u.fifo.lastRead) =
        (Queue.run front).unread := by
      rw [← hfollows.unread, ← hfollows.stored, List.drop_take]
    rw [hunread, Queue.taken_append_unread]

/-- One byte is read at once, all others are left in the array. -/
def longTraffic : List UartEvent :=
  [.read 1, .interrupt true 7, .turn] ++ List.replicate 199 (.interrupt true 7)

/-- At no point more than 199 bytes are unread, and yet the index leaves the array. -/
theorem not_uart_is_queue_long :
    ¬ ∀ events : List UartEvent,
      (∀ front, front <+: events → (Queue.run front).unread.length ≤ fifoSize - 1) →
      UartIsQueue events := by
  intro h
  have hunread : ∀ front ∈ longTraffic.inits, (Queue.run front).unread.length ≤ fifoSize - 1 := by
    decide +kernel
  have hqueue := h longTraffic fun front hfront => hunread front (List.mem_inits _ _ |>.mpr hfront)
  rcases hqueue longTraffic List.prefix_rfl with ⟨u, hrun, _, hwrite, _⟩
  have hlast : (Uart.run longTraffic).map (fun u => u.fifo.lastWrite) = some fifoSize := by
    decide +kernel
  rw [hrun, Option.map_some, Option.some.injEq] at hlast
  omega

end PinProtocol
