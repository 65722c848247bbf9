import Mathlib.Algebra.Order.Group.Multiset
import Mathlib.Data.Multiset.ZeroCons

/-!
# Heap — blocks that are allocated, used and given back

A C program names its blocks by pointers and has to give each of them back once, and not to use it
afterwards.  `Heap` is what there is to know about that: which blocks are in use.  `Alloc` are
the programs that allocate, access and free; each of them fails when it frees or accesses a block
that is not in use.

`Triple own m post` says that `m`, started with the blocks `own`, does not fail and ends with
blocks that `post` describes, whatever other blocks there are: these it does not touch, which is
the frame rule (`Triple.frame`).  `Fails` and `Undefined` are about programs that do fail: the first
for want of a block, the second whatever blocks there are.
-/

namespace PinProtocol
namespace Control

/-- The blocks in use; `next` has never been one. -/
structure Heap where
  live : Multiset Nat
  next : Nat
  nodup : live.Nodup
  fresh : ∀ p ∈ live, p < next

namespace Heap

/-- Nothing has been allocated. -/
def empty : Heap :=
  { live := 0, next := 0, nodup := Multiset.nodup_zero, fresh := by simp }

def add (h : Heap) : Heap where
  live := h.next ::ₘ h.live
  next := h.next + 1
  nodup := Multiset.nodup_cons.mpr ⟨fun hmem => Nat.lt_irrefl _ (h.fresh _ hmem), h.nodup⟩
  fresh := by
    intro p hp
    rcases Multiset.mem_cons.mp hp with rfl | hp
    · exact Nat.lt_succ_self _
    · exact Nat.lt_succ_of_lt (h.fresh p hp)

def drop (h : Heap) (p : Nat) : Heap where
  live := h.live.erase p
  next := h.next
  nodup := h.nodup.erase p
  fresh q hq := h.fresh q (Multiset.mem_of_mem_erase hq)

@[simp] theorem live_empty : empty.live = 0 := rfl

@[simp] theorem live_add (h : Heap) : h.add.live = h.next ::ₘ h.live := rfl

@[simp] theorem live_drop (h : Heap) (p : Nat) : (h.drop p).live = h.live.erase p := rfl

end Heap

abbrev Alloc (α : Type) := StateT Heap Option α

variable {α β : Type}

/-- A block that is not in use. -/
def alloc : Alloc Nat := fun h => some (h.next, h.add)

def free (p : Nat) : Alloc Unit := fun h =>
  if p ∈ h.live then some ((), h.drop p) else none

/-- A read or a write through the pointer. -/
def access (p : Nat) : Alloc Unit := fun h =>
  if p ∈ h.live then some ((), h) else none

/-- Something that is not defined. -/
def undefined : Alloc α := fun _ => none

/-- The blocks `own`, and `n` more that nobody will give back. -/
def Leaks (own : Multiset Nat) (n : Nat) (out : Multiset Nat) : Prop :=
  ∃ lost : Multiset Nat, lost.card = n ∧ out = own + lost

theorem Leaks.refl (own : Multiset Nat) : Leaks own 0 own :=
  ⟨0, rfl, (add_zero own).symm⟩

theorem Leaks.trans {own mid out : Multiset Nat} {n k : Nat} (h : Leaks own n mid)
    (h' : Leaks mid k out) : Leaks own (n + k) out := by
  obtain ⟨lost, rfl, rfl⟩ := h
  obtain ⟨lost', rfl, rfl⟩ := h'
  exact ⟨lost + lost', Multiset.card_add _ _, add_assoc _ _ _⟩

theorem Leaks.frame {own out : Multiset Nat} {n : Nat} (h : Leaks own n out) (r : Multiset Nat) :
    Leaks (own + r) n (out + r) := by
  obtain ⟨lost, hlost, rfl⟩ := h
  exact ⟨lost, hlost, add_right_comm _ _ _⟩

def Triple (own : Multiset Nat) (m : Alloc α) (post : α → Multiset Nat → Prop) : Prop :=
  ∀ (h : Heap) (rest : Multiset Nat), h.live = own + rest →
    ∃ a h' out, m h = some (a, h') ∧ post a out ∧ h'.live = out + rest

namespace Triple

variable {own r : Multiset Nat} {m : Alloc α} {f : α → Alloc β} {mid : α → Multiset Nat → Prop}
  {post : β → Multiset Nat → Prop}

theorem pure {a : α} (h : mid a own) : Triple own (Pure.pure a) mid :=
  fun heap _ hlive => ⟨a, heap, own, rfl, h, hlive⟩

theorem bind (hm : Triple own m mid) (hf : ∀ a out, mid a out → Triple out (f a) post) :
    Triple own (m >>= f) post := by
  intro h rest hlive
  obtain ⟨a, h₁, out, hrun, hmid, hlive₁⟩ := hm h rest hlive
  obtain ⟨a', h₂, out', hrun', hpost, hlive₂⟩ := hf a out hmid h₁ rest hlive₁
  refine ⟨a', h₂, out', ?_, hpost, hlive₂⟩
  show (m h).bind (fun s => f s.1 s.2) = some (a', h₂)
  rw [hrun]
  exact hrun'

/-- Blocks that the program does not know of stay as they are. -/
theorem frame (h : Triple own m mid) :
    Triple (own + r) m fun a out => ∃ out', mid a out' ∧ out = out' + r := by
  intro heap rest hlive
  rw [add_assoc] at hlive
  obtain ⟨a, h', out, hrun, hmid, hlive'⟩ := h heap (r + rest) hlive
  exact ⟨a, h', out + r, hrun, ⟨out, hmid, rfl⟩, by rw [hlive', add_assoc]⟩

theorem mono (h : Triple own m mid) {mid' : α → Multiset Nat → Prop}
    (hmid : ∀ a out, mid a out → mid' a out) : Triple own m mid' := by
  intro heap rest hlive
  obtain ⟨a, h', out, hrun, hpost, hlive'⟩ := h heap rest hlive
  exact ⟨a, h', out, hrun, hmid a out hpost, hlive'⟩

/-! ### The next action of a program -/

theorem alloc {g : Nat → Alloc β} (h : ∀ p, Triple ({p} + own) (g p) post) :
    Triple own (alloc >>= g) post := by
  intro heap rest hlive
  refine h heap.next heap.add rest ?_
  rw [Heap.live_add, hlive, add_assoc, Multiset.singleton_add]

theorem free {p : Nat} {g : Unit → Alloc β} (hown : own = {p} + r) (h : Triple r (g ()) post) :
    Triple own (free p >>= g) post := by
  intro heap rest hlive
  rw [hown, add_assoc, Multiset.singleton_add] at hlive
  have hlives : p ∈ heap.live := by
    rw [hlive]
    exact Multiset.mem_cons_self p _
  have hrest : (heap.drop p).live = r + rest := by
    rw [Heap.live_drop, hlive, Multiset.erase_cons_head]
  obtain ⟨a, h', out, hg, hpost, hlive'⟩ := h (heap.drop p) rest hrest
  refine ⟨a, h', out, ?_, hpost, hlive'⟩
  show (Control.free p heap).bind (fun s => g s.1 s.2) = some (a, h')
  rw [Control.free, if_pos hlives]
  exact hg

theorem access {p : Nat} {g : Unit → Alloc β} (hmem : p ∈ own) (h : Triple own (g ()) post) :
    Triple own (access p >>= g) post := by
  intro heap rest hlive
  have hlives : p ∈ heap.live := by
    rw [hlive]
    exact Multiset.mem_add.mpr (.inl hmem)
  obtain ⟨a, h', out, hg, hpost, hlive'⟩ := h heap rest hlive
  refine ⟨a, h', out, ?_, hpost, hlive'⟩
  show (Control.access p heap).bind (fun s => g s.1 s.2) = some (a, h')
  rw [Control.access, if_pos hlives]
  exact hg

/-- A call that needs the blocks `r` only, in the middle of a program; `t` are the others. -/
theorem call (h : Triple r m mid) {t : Multiset Nat} (hown : own = r + t)
    (hf : ∀ a out, mid a out → Triple (out + t) (f a) post) : Triple own (m >>= f) post := by
  subst hown
  refine (h.frame (r := t)).bind ?_
  rintro a _ ⟨out, hmid, rfl⟩
  exact hf a out hmid

/-- The loop rule: every turn needs the blocks `own`, and leaves them as they are. -/
theorem forM {τ : Type} {f : τ → Alloc PUnit} (l : List τ)
    (h : ∀ x ∈ l, Triple own (f x) fun _ out => out = own) :
    Triple own (l.forM f) fun _ out => out = own := by
  induction l with
  | nil => exact Triple.pure rfl
  | cons x l ih =>
      show Triple own (f x >>= fun _ => l.forM f) _
      refine Triple.bind (h x List.mem_cons_self) ?_
      rintro - _ rfl
      exact ih fun y hy => h y (List.mem_cons_of_mem x hy)

/-- The last action of a program. -/
theorem last (h : Triple own (m >>= Pure.pure) mid) : Triple own m mid := by
  rwa [bind_pure] at h

end Triple

/-- The program comes to an action that is not defined. -/
def Fails (own : Multiset Nat) (m : Alloc α) : Prop :=
  ∀ h : Heap, h.live = own → m h = none

namespace Fails

variable {own : Multiset Nat} {m : Alloc α} {f : α → Alloc β}

theorem bind {mid : α → Multiset Nat → Prop} (hm : Triple own m mid)
    (hf : ∀ a out, mid a out → Fails out (f a)) : Fails own (m >>= f) := by
  intro h hlive
  obtain ⟨a, h', out, hrun, hmid, hlive'⟩ := hm h 0 (by rw [hlive, add_zero])
  rw [add_zero] at hlive'
  show (m h).bind (fun s => f s.1 s.2) = none
  rw [hrun]
  exact hf a out hmid h' hlive'

theorem first (h : Fails own m) : Fails own (m >>= f) := by
  intro heap hlive
  show (m heap).bind (fun s => f s.1 s.2) = none
  rw [h heap hlive]
  rfl

theorem access {p : Nat} (hp : p ∉ own) {g : Unit → Alloc β} : Fails own (access p >>= g) := by
  refine first fun heap hlive => if_neg ?_
  rwa [hlive]

end Fails

/-- The program comes to an action that is not defined, whatever blocks there are. -/
def Undefined (m : Alloc α) : Prop :=
  ∀ h : Heap, m h = none

namespace Undefined

variable {m : Alloc α} {f : α → Alloc β}

theorem undefined : Undefined (undefined : Alloc α) := fun _ => rfl

theorem first (h : Undefined m) : Undefined (m >>= f) := by
  intro heap
  show (m heap).bind (fun s => f s.1 s.2) = none
  rw [h heap]
  rfl

/-- Whatever the first action has done, there is no way on. -/
theorem bind (h : ∀ a, Undefined (f a)) : Undefined (m >>= f) := by
  intro heap
  show (m heap).bind (fun s => f s.1 s.2) = none
  exact Option.bind_eq_none_iff.mpr fun s _ => h s.1 s.2

end Undefined

end Control
end PinProtocol
