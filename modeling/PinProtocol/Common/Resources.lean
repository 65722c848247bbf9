import Mathlib.Tactic.Abel
import PinProtocol.Common.Connection
import PinProtocol.Control.Heap

/-!
# Resources — what a connection allocates and opens (`src/connection.c`, `src/failsafe.c`)

`Connection` is the contents of a `struct connection`; this is the other half of it: its pointers
and its file descriptors.  Both are resources that have to be given back once, so that a
descriptor is a block as well, with `open` for `malloc` and `close` for `free`.  A null pointer
and the descriptor -1 are `none`.  `malloc` is taken to succeed.
-/

namespace PinProtocol

open Control

/-! ## Blocks -/

structure FailsafeBlocks where
  self : Nat
  pinsFailsafe : Nat

structure ConnectionBlocks where
  self : Nat
  fdIn : Option Nat
  fdOut : Option Nat
  pinsMaskType : Option Nat
  pinsState : Option Nat
  failsafe : Option FailsafeBlocks

/-- The block of a pointer that may be null. -/
def blockOf (p : Option Nat) : Multiset Nat :=
  p.elim 0 fun p => {p}

@[simp] theorem blockOf_none : blockOf none = 0 := rfl

@[simp] theorem blockOf_some (p : Nat) : blockOf (some p) = {p} := rfl

def FailsafeBlocks.blocks (f : FailsafeBlocks) : Multiset Nat :=
  {f.pinsFailsafe} + {f.self}

def failsafeBlocks (f : Option FailsafeBlocks) : Multiset Nat :=
  f.elim 0 FailsafeBlocks.blocks

@[simp] theorem failsafeBlocks_none : failsafeBlocks none = 0 := rfl

@[simp] theorem failsafeBlocks_some (f : FailsafeBlocks) :
    failsafeBlocks (some f) = {f.pinsFailsafe} + {f.self} := rfl

/-- The arrays, which `connection_release_resources` gives back. -/
def ConnectionBlocks.tables (c : ConnectionBlocks) : Multiset Nat :=
  blockOf c.pinsMaskType + blockOf c.pinsState + failsafeBlocks c.failsafe

def ConnectionBlocks.blocks (c : ConnectionBlocks) : Multiset Nat :=
  {c.self} + blockOf c.fdIn + blockOf c.fdOut + c.tables

/-- Without the failsafe, the pointer to it is never set. -/
def ConnectionBlocks.Of (b : Build) (c : ConnectionBlocks) : Prop :=
  b.disableFailsafe = true → c.failsafe = none

/-! ## The functions -/

/-- `if ( p != NULL ) free( p )`, and `close` of a descriptor that is open. -/
def freeSome : Option Nat → Alloc Unit
  | none => pure ()
  | some p => free p

/-- The target of a pointer is read or written. -/
def deref : Option Nat → Alloc Unit
  | none => undefined
  | some p => access p

namespace ConnectionBlocks

def newFailsafe : Alloc FailsafeBlocks := do
  let f ← alloc
  access f
  let pins ← alloc
  access pins
  return { self := f, pinsFailsafe := pins }

def destroyFailsafe (f : FailsafeBlocks) : Alloc Unit := do
  access f.self
  free f.pinsFailsafe
  free f.self

/-- The part of `connection_release_resources` between `#ifndef DISABLE_FAILSAFE` and `#endif`. -/
def releaseFailsafe (b : Build) (f : Option FailsafeBlocks) : Alloc (Option FailsafeBlocks) :=
  match b.disableFailsafe, f with
  | false, some f => do
      destroyFailsafe f
      return none
  | _, f => pure f

def releaseResources (b : Build) (c : ConnectionBlocks) : Alloc ConnectionBlocks := do
  access c.self
  freeSome c.pinsMaskType
  freeSome c.pinsState
  let failsafe ← releaseFailsafe b c.failsafe
  return { c with pinsMaskType := none, pinsState := none, failsafe }

/-- The part of `connection_init_resources` between `#ifndef DISABLE_FAILSAFE` and `#endif`. -/
def initFailsafe (b : Build) (f : Option FailsafeBlocks) : Alloc (Option FailsafeBlocks) :=
  if b.disableFailsafe then pure f
  else do
    let f ← newFailsafe
    return some f

def initResources (b : Build) (c : ConnectionBlocks) : Alloc ConnectionBlocks := do
  let c ← releaseResources b c
  let pinsMaskType ← alloc
  let pinsState ← alloc
  let failsafe ← initFailsafe b c.failsafe
  access c.self
  access pinsMaskType
  access pinsState
  return { c with pinsMaskType := some pinsMaskType, pinsState := some pinsState, failsafe }

/-- `open`: the descriptor, or -1. -/
def openFile (opens : Bool) : Alloc (Option Nat) :=
  if opens then do
    let fd ← alloc
    return some fd
  else pure none

/-- `connection_open`, when its two calls of `open` succeed or not. -/
def openFiles (inOpens outOpens : Bool) : Alloc (Option ConnectionBlocks) := do
  let c ← alloc
  access c
  let fdIn ← openFile inOpens
  match fdIn with
  | none =>
      free c
      return none
  | some fdIn =>
      let fdOut ← openFile outOpens
      match fdOut with
      | none =>
          free fdIn
          free c
          return none
      | some fdOut =>
          return some
            { self := c, fdIn := some fdIn, fdOut := some fdOut, pinsMaskType := none,
              pinsState := none, failsafe := none }

/-- The part of `connection_close` between `#ifndef EMBEDDED` and `#endif`. -/
def closeFiles (b : Build) (c : ConnectionBlocks) : Alloc Unit :=
  if b.embedded then pure ()
  else do
    freeSome c.fdIn
    freeSome c.fdOut

def close (b : Build) (c : ConnectionBlocks) : Alloc Unit := do
  let c ← releaseResources b c
  closeFiles b c
  free c.self

/-- `read_device_caps` allocates the mask types anew. -/
def readDeviceCaps (c : ConnectionBlocks) : Alloc ConnectionBlocks := do
  access c.self
  freeSome c.pinsMaskType
  let pinsMaskType ← alloc
  access pinsMaskType
  return { c with pinsMaskType := some pinsMaskType }

/-- `connection_write`: when the result of `write` is taken for -1, it returns without giving its
buffer back. -/
def write (c : ConnectionBlocks) (written : Bool) : Alloc Unit := do
  let buffer ← alloc
  access buffer
  access c.self
  if written then free buffer else pure ()

/-- The buffers that `n` calls of `connection_write` leave behind. -/
def lostBuffers (written : Bool) (n : Nat) : Nat :=
  if written then 0 else n

/-! ## What they leave behind -/

section Specs

variable {α : Type} {own r : Multiset Nat} {post : α → Multiset Nat → Prop} {b : Build}
  {c : ConnectionBlocks}

theorem triple_freeSome {p : Option Nat} {g : Unit → Alloc α} (hown : own = blockOf p + r)
    (h : Triple r (g ()) post) : Triple own (freeSome p >>= g) post := by
  cases p with
  | none =>
      rw [hown, blockOf_none, zero_add]
      exact h
  | some p => exact Triple.free (by rw [hown, blockOf_some]) h

theorem newFailsafe_spec :
    Triple 0 newFailsafe fun f out => out = f.blocks := by
  refine Triple.alloc fun f => Triple.access (by simp) (Triple.alloc fun pins => ?_)
  refine Triple.access (by simp) (Triple.pure ?_)
  rw [FailsafeBlocks.blocks, add_zero]

theorem destroyFailsafe_spec (f : FailsafeBlocks) :
    Triple f.blocks (destroyFailsafe f) fun _ out => out = 0 := by
  refine Triple.access (by simp [FailsafeBlocks.blocks]) ?_
  refine Triple.free (r := {f.self}) rfl ?_
  exact Triple.last (Triple.free (add_zero _).symm (Triple.pure rfl))

theorem releaseFailsafe_spec {f : Option FailsafeBlocks}
    (hf : b.disableFailsafe = true → f = none) :
    Triple (failsafeBlocks f) (releaseFailsafe b f) fun f' out => f' = none ∧ out = 0 := by
  cases f with
  | none =>
      have hpure : releaseFailsafe b none = pure none := by
        unfold releaseFailsafe
        cases b.disableFailsafe <;> rfl
      rw [hpure]
      exact Triple.pure ⟨rfl, rfl⟩
  | some f =>
      have hb : b.disableFailsafe = false := by
        cases hb : b.disableFailsafe with
        | false => rfl
        | true => cases hf hb
      simp only [releaseFailsafe, hb]
      refine Triple.call (destroyFailsafe_spec f) (add_zero _).symm ?_
      rintro - _ rfl
      exact Triple.pure ⟨rfl, rfl⟩

theorem releaseResources_spec (hof : c.Of b) :
    Triple ({c.self} + c.tables) (releaseResources b c) fun c' out =>
      c' = { c with pinsMaskType := none, pinsState := none, failsafe := none } ∧
        out = {c.self} := by
  refine Triple.access (by simp) ?_
  refine triple_freeSome (r := {c.self} + blockOf c.pinsState + failsafeBlocks c.failsafe)
    (by rw [tables]; abel) ?_
  refine triple_freeSome (r := failsafeBlocks c.failsafe + {c.self}) (by abel) ?_
  refine Triple.call (releaseFailsafe_spec hof) rfl ?_
  rintro _ _ ⟨rfl, rfl⟩
  exact Triple.pure ⟨rfl, zero_add _⟩

theorem initFailsafe_spec (b : Build) :
    Triple 0 (initFailsafe b none) fun f out =>
      (f.isSome = !b.disableFailsafe) ∧ out = failsafeBlocks f := by
  cases hb : b.disableFailsafe with
  | true =>
      rw [initFailsafe, hb, if_pos rfl]
      exact Triple.pure ⟨rfl, rfl⟩
  | false =>
      rw [initFailsafe, hb, if_neg Bool.false_ne_true]
      refine Triple.call newFailsafe_spec (add_zero _).symm ?_
      rintro f _ rfl
      exact Triple.pure ⟨rfl, add_zero _⟩

/-- The connection after `connection_init_resources`: the arrays are there. -/
structure Ready (b : Build) (c : ConnectionBlocks) : Prop where
  pinsMaskType : c.pinsMaskType.isSome
  pinsState : c.pinsState.isSome
  failsafe : c.failsafe.isSome = !b.disableFailsafe

theorem Ready.of (h : c.Ready b) : c.Of b := by
  intro hb
  have hsome := h.failsafe
  rw [hb] at hsome
  simpa using hsome

/-- The same connection and the same descriptors, with other arrays. -/
def Same (c c' : ConnectionBlocks) : Prop :=
  c'.self = c.self ∧ c'.fdIn = c.fdIn ∧ c'.fdOut = c.fdOut

theorem initResources_spec (hof : c.Of b) :
    Triple ({c.self} + c.tables) (initResources b c) fun c' out =>
      c'.Ready b ∧ c.Same c' ∧ out = {c'.self} + c'.tables := by
  refine Triple.call (releaseResources_spec hof) (add_zero _).symm ?_
  rintro _ _ ⟨rfl, rfl⟩
  refine Triple.alloc fun maskType => Triple.alloc fun pins => ?_
  refine Triple.call (initFailsafe_spec b) (zero_add _).symm ?_
  rintro f _ ⟨hf, rfl⟩
  refine Triple.access (by simp) (Triple.access (by simp) (Triple.access (by simp) ?_))
  refine Triple.pure ⟨⟨rfl, rfl, hf⟩, ⟨rfl, rfl, rfl⟩, ?_⟩
  simp only [tables, blockOf_some]
  abel

theorem openFile_spec (opens : Bool) :
    Triple 0 (openFile opens) fun fd out => (opens = true ↔ fd.isSome) ∧ out = blockOf fd := by
  cases opens with
  | false => exact Triple.pure ⟨by simp, rfl⟩
  | true => exact Triple.alloc fun fd => Triple.pure ⟨by simp, rfl⟩

/-- `connection_open` gives back what it has got when it fails. -/
theorem open_spec (inOpens outOpens : Bool) :
    Triple 0 (openFiles inOpens outOpens) fun c out =>
      ((inOpens && outOpens) = true ↔ c.isSome) ∧
        match c with
        | none => out = 0
        | some c =>
            c.fdIn.isSome ∧ c.fdOut.isSome ∧ c.pinsState = none ∧ c.failsafe = none ∧
              c.tables = 0 ∧ out = c.blocks := by
  refine Triple.alloc fun p => Triple.access (by simp) ?_
  refine Triple.call (openFile_spec inOpens) (zero_add _).symm ?_
  rintro fdIn _ ⟨hin, rfl⟩
  cases fdIn with
  | none => exact Triple.free (zero_add _) (Triple.pure ⟨by simp_all, rfl⟩)
  | some fdIn =>
      refine Triple.call (openFile_spec outOpens) (zero_add _).symm ?_
      rintro fdOut _ ⟨hout, rfl⟩
      cases fdOut with
      | none =>
          refine Triple.free (r := {p}) (zero_add _) ?_
          exact Triple.free rfl (Triple.pure ⟨by simp_all, rfl⟩)
      | some fdOut =>
          refine Triple.pure ⟨by simp_all, rfl, rfl, rfl, rfl, by simp [tables], ?_⟩
          simp only [blocks, tables, blockOf_some, blockOf_none, failsafeBlocks_none]
          abel

theorem closeFiles_spec (hb : b.embedded = true → c.fdIn = none ∧ c.fdOut = none) :
    Triple (blockOf c.fdIn + blockOf c.fdOut) (closeFiles b c) fun _ out => out = 0 := by
  cases he : b.embedded with
  | true =>
      obtain ⟨hin, hout⟩ := hb he
      rw [closeFiles, he, if_pos rfl, hin, hout]
      exact Triple.pure rfl
  | false =>
      rw [closeFiles, he, if_neg Bool.false_ne_true]
      refine triple_freeSome rfl (Triple.last ?_)
      exact triple_freeSome (add_zero _).symm (Triple.pure rfl)

/-- `connection_close` gives back everything. -/
theorem close_spec (hof : c.Of b) (hb : b.embedded = true → c.fdIn = none ∧ c.fdOut = none) :
    Triple c.blocks (close b c) fun _ out => out = 0 := by
  refine Triple.call (releaseResources_spec hof) (t := blockOf c.fdIn + blockOf c.fdOut)
    (by rw [blocks]; abel) ?_
  rintro _ _ ⟨rfl, rfl⟩
  have hclose := closeFiles_spec
    (c := { c with pinsMaskType := none, pinsState := none, failsafe := none }) hb
  refine Triple.call hclose (add_comm _ _) ?_
  rintro - _ rfl
  exact Triple.last (Triple.free (zero_add _) (Triple.pure rfl))

theorem readDeviceCaps_spec (hready : c.Ready b) :
    Triple ({c.self} + c.tables) (readDeviceCaps c) fun c' out =>
      c'.Ready b ∧ c.Same c' ∧ out = {c'.self} + c'.tables := by
  refine Triple.access (by simp) ?_
  refine triple_freeSome (r := {c.self} + blockOf c.pinsState + failsafeBlocks c.failsafe)
    (by rw [tables]; abel) ?_
  refine Triple.alloc fun maskType => Triple.access (by simp) (Triple.pure ?_)
  refine ⟨⟨rfl, hready.pinsState, hready.failsafe⟩, ⟨rfl, rfl, rfl⟩, ?_⟩
  simp only [tables, blockOf_some]
  abel

/-- `connection_write` leaves its buffer behind when `write` fails. -/
theorem write_spec (written : Bool) :
    Triple {c.self} (write c written) fun _ out => Leaks {c.self} (lostBuffers written 1) out := by
  refine Triple.alloc fun buffer => Triple.access (by simp) (Triple.access (by simp) ?_)
  cases written with
  | true => exact Triple.last (Triple.free rfl (Triple.pure (Leaks.refl _)))
  | false => exact Triple.pure ⟨{buffer}, rfl, add_comm _ _⟩

end Specs

end ConnectionBlocks

end PinProtocol
