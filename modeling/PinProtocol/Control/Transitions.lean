import Mathlib.Logic.Relation

/-!
# Transitions — what every run of a step relation does

A system whose parties take turns in any order is a relation between states.  Two kinds of
statements are made about its runs.

* Safety: what holds at the start and is kept by every step holds in every state that is reached
  (`invariant`).
* Inevitability: `Inevitable step P s` says that no run from `s` can avoid `P`; a run may neither
  end before it has come to `P` nor go on for ever without it.  If no step leads out of `P`, the
  runs that cannot be prolonged are those that have come to `P` (`Inevitable.of_stuck`).
-/

namespace PinProtocol
namespace Control

open Relation

variable {σ : Type} {step : σ → σ → Prop} {P Q : σ → Prop}

/-- No step can be taken. -/
def Stuck (step : σ → σ → Prop) (s : σ) : Prop :=
  ∀ t, ¬ step s t

theorem invariant (hstep : ∀ s t, P s → step s t → P t) {s t : σ} (h : ReflTransGen step s t)
    (hs : P s) : P t := by
  induction h with
  | refl => exact hs
  | tail _ hlast ih => exact hstep _ _ ih hlast

/-- Every run from `s` comes to `P`. -/
inductive Inevitable (step : σ → σ → Prop) (P : σ → Prop) : σ → Prop where
  | now {s : σ} : P s → Inevitable step P s
  | later {s : σ} : (∃ t, step s t) → (∀ t, step s t → Inevitable step P t) →
      Inevitable step P s

namespace Inevitable

theorem mono (hPQ : ∀ s, P s → Q s) {s : σ} (h : Inevitable step P s) : Inevitable step Q s := by
  induction h with
  | now hs => exact .now (hPQ _ hs)
  | later hmove _ ih => exact .later hmove ih

/-- One stage after the other. -/
theorem trans {s : σ} (h : Inevitable step P s) (hPQ : ∀ t, P t → Inevitable step Q t) :
    Inevitable step Q s := by
  induction h with
  | now hs => exact hPQ _ hs
  | later hmove _ ih => exact .later hmove ih

/-- Wherever a run has got to, it has come to `P` on its way, or `P` is still ahead. -/
theorem of_run {s t : σ} (h : Inevitable step P s) (hrun : ReflTransGen step s t) :
    (∃ u, P u ∧ ReflTransGen step u t) ∨ Inevitable step P t := by
  induction hrun using ReflTransGen.head_induction_on with
  | refl => exact .inr h
  | @head s s' hfirst hrest ih =>
      cases h with
      | now hs => exact .inl ⟨s, hs, .head hfirst hrest⟩
      | later _ hall => exact ih (hall s' hfirst)

/-- When `P` is where runs end, a run that cannot be prolonged has come to `P`. -/
theorem of_stuck {s t : σ} (h : Inevitable step P s) (hend : ∀ u, P u → Stuck step u)
    (hrun : ReflTransGen step s t) (hstuck : Stuck step t) : P t := by
  rcases h.of_run hrun with ⟨u, hu, hut⟩ | ht
  · rcases hut.cases_head with heq | ⟨v, huv, -⟩
    · rwa [← heq]
    · exact absurd huv (hend u hu v)
  · cases ht with
    | now ht => exact ht
    | later hmove _ =>
        obtain ⟨u, hu⟩ := hmove
        exact absurd hu (hstuck u)

/-- There is a run that comes to `P`. -/
theorem exists_run {s : σ} (h : Inevitable step P s) : ∃ t, ReflTransGen step s t ∧ P t := by
  induction h with
  | now hs => exact ⟨_, .refl, hs⟩
  | later hmove _ ih =>
      obtain ⟨u, hu⟩ := hmove
      obtain ⟨t, hut, ht⟩ := ih u hu
      exact ⟨t, .head hu hut, ht⟩

/-- A state with one step only. -/
theorem of_step {s t : σ} (hst : step s t) (hunique : ∀ u, step s u → u = t)
    (h : Inevitable step P t) : Inevitable step P s :=
  .later ⟨t, hst⟩ fun u hu => hunique u hu ▸ h

/-- A measure that every step decreases, as long as `P` has not been reached and a step can be
taken. -/
theorem of_measure (μ : σ → Nat) (inv : σ → Prop)
    (hmove : ∀ s, inv s → ¬ P s → ∃ t, step s t)
    (hdown : ∀ s t, inv s → ¬ P s → step s t → inv t ∧ μ t < μ s) {s : σ} (hs : inv s) :
    Inevitable step P s := by
  induction hn : μ s using Nat.strongRecOn generalizing s with
  | ind n ih =>
      by_cases hP : P s
      · exact .now hP
      · refine .later (hmove s hs hP) fun t ht => ?_
        obtain ⟨hinv, hlt⟩ := hdown s t hs hP ht
        exact ih (μ t) (hn ▸ hlt) hinv rfl

/-- A system that goes the way of another one, of which it has a view, and takes some more steps
that cannot be seen there. -/
theorem lift {τ : Type} {seen : τ → τ → Prop} {P : τ → Prop} (view : σ → τ) (inv : σ → Prop)
    (μ : σ → Nat)
    (hmove : ∀ s, inv s → (∃ t, seen (view s) t) → ∃ s', step s s')
    (hstep : ∀ s s', inv s → (∃ t, seen (view s) t) → step s s' →
      inv s' ∧ (seen (view s) (view s') ∨ view s' = view s ∧ μ s' < μ s))
    {v : τ} (h : Inevitable seen P v) :
    ∀ {s : σ}, inv s → view s = v → Inevitable step (fun s => P (view s) ∧ inv s) s := by
  induction h with
  | now hv =>
      rintro s hs rfl
      exact .now ⟨hv, hs⟩
  | later hmoves _ ih =>
      intro s hs hview
      subst hview
      -- the steps that cannot be seen come to an end
      induction hn : μ s using Nat.strongRecOn generalizing s with
      | ind n ihn =>
          refine .later (hmove s hs hmoves) fun s' hs' => ?_
          obtain ⟨hinv, hseen | ⟨hsame, hlt⟩⟩ := hstep s s' hs hmoves hs'
          · exact ih _ hseen hinv rfl
          · exact ihn (μ s') (hn ▸ hlt) hinv (by rwa [hsame]) (by rwa [hsame]) (by rwa [hsame]) rfl

end Inevitable

end Control
end PinProtocol
