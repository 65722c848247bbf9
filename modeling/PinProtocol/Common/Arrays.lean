import PinProtocol.Common.BitUtils

/-!
# Arrays — accesses that stay inside, and loops that fill an array
-/

namespace PinProtocol

open Bits Control

variable {α : Type}

theorem store_eq {xs : List α} {i : Nat} (h : i < xs.length) (a : α) :
    store xs i a = some (xs.set i a) := by
  simp [store, h]

theorem update_eq {xs : List α} {i : Nat} (h : i < xs.length) (f : α → α) :
    update xs i f = some (xs.modify i f) := by
  simp [update, h]

theorem store_eq_update (xs : List α) (i : Nat) (a : α) :
    store xs i a = update xs i fun _ => a := by
  simp [store, update, List.set_eq_modify]

theorem modify_length_append (front rest : List α) (x : α) (f : α → α) :
    (front ++ x :: rest).modify front.length f = front ++ f x :: rest := by
  induction front with
  | nil => rfl
  | cons y front ih => simpa using ih

/-- A loop that updates the first `n` entries, one per turn. -/
theorem updateAll_eq {xs : List α} {n : Nat} (hn : n ≤ xs.length) (f : α → α) :
    (List.range n).foldlM (fun xs i => update xs i f) xs =
      some ((xs.take n).map f ++ xs.drop n) := by
  induction n with
  | zero => simp
  | succ n ih =>
      have hlt : n < xs.length := hn
      have hpos : n < ((xs.take n).map f ++ xs.drop n).length := by simp; omega
      have hlen : ((xs.take n).map f).length = n := by simp; omega
      have hstep := modify_length_append ((xs.take n).map f) (xs.drop (n + 1)) xs[n] f
      rw [hlen, ← List.drop_eq_getElem_cons hlt] at hstep
      have hnext : (xs.take n).map f ++ f xs[n] :: xs.drop (n + 1) =
          (xs.take (n + 1)).map f ++ xs.drop (n + 1) := by
        rw [← List.take_append_getElem hlt, List.map_append, List.append_assoc]
        rfl
      rw [List.range_succ, List.foldlM_append, ih (by omega)]
      simp only [Option.bind_eq_bind, Option.bind_some, List.foldlM_cons, List.foldlM_nil,
        update_eq hpos, hstep, hnext]
      rfl

/-- A loop that stores one value into the first `n` entries. -/
theorem storeAll_eq {xs : List α} {n : Nat} (hn : n ≤ xs.length) (a : α) :
    (List.range n).foldlM (fun xs i => store xs i a) xs =
      some (List.replicate n a ++ xs.drop n) := by
  have hfill := updateAll_eq hn fun _ => a
  have hconst : (xs.take n).map (fun _ => a) = List.replicate n a := by
    rw [List.map_const', List.length_take, Nat.min_eq_left hn]
  simp only [store_eq_update, hfill, hconst]

/-- Initialising an array of `n` entries that has just been allocated. -/
theorem storeFresh_eq (n : Nat) (fresh a : α) :
    (List.range n).foldlM (fun xs i => store xs i a) (List.replicate n fresh) =
      some (List.replicate n a) := by
  have hlen : (List.replicate n fresh).length = n := List.length_replicate
  have hfill := storeAll_eq (Nat.le_of_eq hlen.symm) a
  rwa [List.drop_of_length_le (Nat.le_of_eq hlen), List.append_nil] at hfill

end PinProtocol
