import Mathlib.Data.List.Basic

/-!
# History — the latest event of a kind

A specification of a register says that it holds what was last put into it.  `latest f init` is
that value for a history of events, of which `f` tells what each puts into the register, if
anything.
-/

namespace PinProtocol
namespace Control

variable {α β : Type}

/-- What the last event of `history` that `f` selects has put there; `init` without any. -/
def latest (f : α → Option β) (init : β) (history : List α) : β :=
  ((history.filterMap f).getLast?).getD init

/-- One more event either decides or changes nothing. -/
theorem latest_concat (f : α → Option β) (init : β) (history : List α) (a : α) :
    latest f init (history ++ [a]) = (f a).getD (latest f init history) := by
  cases ha : f a with
  | none => simp [latest, List.filterMap_append, ha]
  | some x => simp [latest, List.filterMap_append, ha]

/-- The first event is what a later one replaces. -/
theorem latest_cons (f : α → Option β) (init : β) (a : α) (history : List α) :
    latest f init (a :: history) = latest f ((f a).getD init) history := by
  cases ha : f a with
  | none => simp [latest, ha]
  | some x => simp [latest, ha, List.getLast?_cons]

/-- The latest value has the properties that the initial value and all values put there have. -/
theorem latest_invariant {f : α → Option β} {init : β} {P : β → Prop} (hinit : P init)
    {history : List α} (h : ∀ a ∈ history, ∀ x, f a = some x → P x) :
    P (latest f init history) := by
  cases hlast : (history.filterMap f).getLast? with
  | none => simpa [latest, hlast] using hinit
  | some x =>
      rcases List.mem_filterMap.mp (List.mem_of_getLast? hlast) with ⟨a, ha, hx⟩
      simpa [latest, hlast] using h a ha x hx

end Control
end PinProtocol
