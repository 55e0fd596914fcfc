import Mathlib.Logic.Function.Basic
import Mathlib.Tactic.Common

/-!
# Histories of several ledgers

Ledgers of one kind are kept side by side under numbers. A step clears one of them, enters
something in one, or lets one take in what another one holds at that time, which stays as it is.
What is true of a cleared ledger and stays true at every entry and every merge is true of every
ledger after every history (`run_related`). The plainest ledgers are lists that only grow (`whole`);
others are described by what these hold after the same history.
-/

namespace Substation

/-- A kind of ledgers. -/
structure Ledger (σ α : Type) where
  /-- The cleared ledger. -/
  blank : σ
  /-- Enters something. -/
  enter : σ → α → σ
  /-- Takes in another ledger. -/
  merge : σ → σ → σ

namespace Ledger

/-- A step of a history. -/
inductive Step (α : Type) where
  | clear (k : Nat)
  | enter (k : Nat) (a : α)
  | merge (k other : Nat)

variable {σ τ α β : Type}

/-- The ledgers after a step. -/
def step (l : Ledger σ α) (s : Nat → σ) : Step α → Nat → σ
  | .clear k => Function.update s k l.blank
  | .enter k a => Function.update s k (l.enter (s k) a)
  | .merge k other => Function.update s k (l.merge (s k) (s other))

/-- The ledgers after a history that starts with cleared ones. -/
def run (l : Ledger σ α) (steps : List (Step α)) : Nat → σ := steps.foldl l.step fun _ => l.blank

/-- The lists of all that was entered, which merge by being put one behind the other. -/
def whole (f : α → β) : Ledger (List β) α where
  blank := []
  enter as a := as ++ [f a]
  merge as others := as ++ others

variable {l : Ledger σ α} {l' : Ledger τ α} {R : σ → τ → Prop}

/-- A step keeps ledgers of two kinds related. -/
theorem step_related (hblank : R l.blank l'.blank)
    (henter : ∀ s t a, R s t → R (l.enter s a) (l'.enter t a))
    (hmerge : ∀ s t s' t', R s t → R s' t' → R (l.merge s s') (l'.merge t t'))
    {s : Nat → σ} {t : Nat → τ} (h : ∀ k, R (s k) (t k)) (x : Step α) (k : Nat) :
    R (l.step s x k) (l'.step t x k) := by
  have update {a : σ} {b : τ} (hab : R a b) (at' : Nat) :
      R (Function.update s at' a k) (Function.update t at' b k) := by
    by_cases hk : k = at'
    · subst hk
      rwa [Function.update_self, Function.update_self]
    · rw [Function.update_of_ne hk, Function.update_of_ne hk]
      exact h k
  cases x with
  | clear at' => exact update hblank at'
  | enter at' a => exact update (henter _ _ a (h at')) at'
  | merge at' other => exact update (hmerge _ _ _ _ (h at') (h other)) at'

/-- **A relation that clearing, entering and merging keep holds after every history.** -/
theorem run_related (hblank : R l.blank l'.blank)
    (henter : ∀ s t a, R s t → R (l.enter s a) (l'.enter t a))
    (hmerge : ∀ s t s' t', R s t → R s' t' → R (l.merge s s') (l'.merge t t'))
    (steps : List (Step α)) (k : Nat) : R (l.run steps k) (l'.run steps k) := by
  have hfold : ∀ (steps : List (Step α)) (s : Nat → σ) (t : Nat → τ), (∀ k, R (s k) (t k)) →
      ∀ k, R (steps.foldl l.step s k) (steps.foldl l'.step t k) := by
    intro steps
    induction steps with
    | nil => exact fun _ _ h => h
    | cons x steps ih => exact fun s t h => ih _ _ (step_related hblank henter hmerge h x)
  exact hfold steps _ _ (fun _ => hblank) k

end Ledger

end Substation
