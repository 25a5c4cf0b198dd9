import Mathlib.Init

/-! Loops whose every turn makes progress, and the states in which they end. -/

/-- A loop with the two numbers by which its turns make progress: the first goes down, or it stays
and the second goes down. -/
structure StepLoop (σ : Type) where
  turn : σ → Option σ
  budget : σ → Nat
  pending : σ → Nat
  progress : ∀ s s', turn s = some s' →
    budget s' < budget s ∨ (budget s' = budget s ∧ pending s' < pending s)

namespace StepLoop

variable {σ : Type} (L : StepLoop σ) {s s' : σ}

theorem progress_lex (h : L.turn s = some s') :
    Prod.Lex (· < ·) (· < ·) (L.budget s', L.pending s') (L.budget s, L.pending s) := by
  rcases L.progress s s' h with hbudget | ⟨hsame, hpending⟩
  · exact .left _ _ hbudget
  · rw [hsame]
    exact .right _ hpending

/-- The state in which the loop ends. -/
def finish (s : σ) : σ :=
  match _hturn : L.turn s with
  | none => s
  | some s' => finish s'
termination_by (L.budget s, L.pending s)
decreasing_by exact L.progress_lex _hturn

theorem finish_of_none (h : L.turn s = none) : L.finish s = s := by
  rw [finish]
  split
  · rfl
  · rename_i s' hturn
    rw [h] at hturn
    cases hturn

theorem finish_of_some (h : L.turn s = some s') : L.finish s = L.finish s' := by
  rw [finish]
  split
  · rename_i hturn
    rw [h] at hturn
    cases hturn
  · rename_i r hturn
    rw [h] at hturn
    rw [Option.some.inj hturn]

/-- The loop is over where it ends. -/
theorem turn_finish (s : σ) : L.turn (L.finish s) = none := by
  induction s using finish.induct L with
  | case1 s h =>
    rw [L.finish_of_none h]
    exact h
  | case2 s s' h ih =>
    rw [L.finish_of_some h]
    exact ih

/-- What every turn preserves holds where the loop ends. -/
theorem finish_of_invariant {P : σ → Prop} (hstep : ∀ s s', P s → L.turn s = some s' → P s')
    (hs : P s) : P (L.finish s) := by
  induction s using finish.induct L with
  | case1 s h =>
    rw [L.finish_of_none h]
    exact hs
  | case2 s s' h ih =>
    rw [L.finish_of_some h]
    exact ih (hstep s s' hs h)

/-- At most so many turns. -/
def after : Nat → σ → σ
  | 0, s => s
  | turns + 1, s =>
    match L.turn s with
    | none => s
    | some s' => after turns s'

/-- A loop may be followed turn by turn. -/
theorem finish_eq_after (turns : Nat) (h : L.turn (L.after turns s) = none) :
    L.finish s = L.after turns s := by
  induction turns generalizing s with
  | zero => exact L.finish_of_none h
  | succ turns ih =>
    cases hturn : L.turn s with
    | none =>
      rw [after, hturn]
      exact L.finish_of_none hturn
    | some s' =>
      rw [after, hturn] at h ⊢
      rw [L.finish_of_some hturn]
      exact ih h

end StepLoop
