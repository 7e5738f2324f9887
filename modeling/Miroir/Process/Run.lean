import Mathlib.Tactic.Common
import Mathlib.Data.Nat.Init
import Mathlib.Data.List.GetD

/-!
# Runs of a partial step function

A system is a step function `step : S → A → Option S`: in state `s` the action `a` is
possible and leads to `s'` exactly when `step s a = some s'`. A `Run` of `N` steps gives the
state at every moment `i ≤ N` and the action taken at every moment `i < N`, so a statement
can speak of two moments of one execution.

`Run.invariant` is induction along a run, and `Run.related` carries a preorder from one
moment to a later one. `Run.ofActions` builds the run of a list of actions by evaluation,
with `allSteps` checking a condition on every step of it.
-/

namespace Process

variable {S A : Type*} {step : S → A → Option S} {s₀ : S} {N : ℕ}

/-- `N` steps from `s₀`: the state at each moment and the action taken there. -/
structure Run (step : S → A → Option S) (s₀ : S) (N : ℕ) where
  state : ℕ → S
  act : ℕ → A
  start : state 0 = s₀
  next : ∀ i < N, step (state i) (act i) = some (state (i + 1))

namespace Run

/-- What holds at the start and is kept by every step of the run holds at every moment; it may
speak of the moment. -/
theorem invariant (ρ : Run step s₀ N) {P : ℕ → S → Prop} (h₀ : P 0 s₀)
    (hs : ∀ i < N, P i (ρ.state i) → P (i + 1) (ρ.state (i + 1))) {i : ℕ} (hi : i ≤ N) :
    P i (ρ.state i) := by
  induction i with
  | zero => rwa [ρ.start]
  | succ i ih => exact hs i hi (ih (Nat.le_of_succ_le hi))

/-- A preorder that every step from moment `i` on respects relates moment `i` to every
later one. -/
theorem related (ρ : Run step s₀ N) {r : S → S → Prop} (hr : ∀ s, r s s)
    (ht : ∀ s t u, r s t → r t u → r s u) {i j : ℕ} (hij : i ≤ j) (hj : j ≤ N)
    (hs : ∀ k, i ≤ k → k < j → r (ρ.state k) (ρ.state (k + 1))) :
    r (ρ.state i) (ρ.state j) := by
  induction j, hij using Nat.le_induction with
  | base => exact hr _
  | succ j hij ih =>
    exact ht _ _ _ (ih (Nat.le_of_succ_le hj) fun k hk hkj => hs k hk (Nat.lt_succ_of_lt hkj))
      (hs j hij (Nat.lt_succ_self j))

end Run

/-! ## Runs given by their actions -/

/-- Every action of the list is possible, and `p` holds of the state and action of every
step. -/
def allSteps (step : S → A → Option S) (p : S → A → Bool) : S → List A → Bool
  | _, [] => true
  | s, a :: as =>
    match step s a with
    | some s' => p s a && allSteps step p s' as
    | none => false

/-- The state after the first `i` actions. -/
def stateAt (step : S → A → Option S) : S → List A → ℕ → S
  | s, _, 0 => s
  | s, [], _ + 1 => s
  | s, a :: as, i + 1 =>
    match step s a with
    | some s' => stateAt step s' as i
    | none => s

theorem step_stateAt {p : S → A → Bool} {as : List A} {i : ℕ} (h : allSteps step p s₀ as)
    (hi : i < as.length) :
    step (stateAt step s₀ as i) as[i] = some (stateAt step s₀ as (i + 1)) ∧
      p (stateAt step s₀ as i) as[i] := by
  induction as generalizing s₀ i with
  | nil => simp at hi
  | cons a as ih =>
    cases hs : step s₀ a with
    | none => simp [allSteps, hs] at h
    | some s' =>
      simp only [allSteps, hs, Bool.and_eq_true] at h
      cases i with
      | zero => simp [stateAt, hs, h.1]
      | succ i => simpa [stateAt, hs] using ih h.2 (Nat.lt_of_succ_lt_succ hi)

/-- The run of a list of actions that are all possible. -/
def Run.ofActions [Inhabited A] (step : S → A → Option S) (p : S → A → Bool) (s₀ : S)
    (as : List A) (h : allSteps step p s₀ as = true) : Run step s₀ as.length where
  state := stateAt step s₀ as
  act i := as.getD i default
  start := by cases as <;> rfl
  next i hi := by simpa [List.getD_eq_getElem, hi] using (step_stateAt h hi).1

/-- The condition `allSteps` checked holds at every step of the run. -/
theorem Run.ofActions_spec [Inhabited A] {p : S → A → Bool} {as : List A}
    (h : allSteps step p s₀ as) {i : ℕ} (hi : i < as.length) :
    p ((ofActions step p s₀ as h).state i) ((ofActions step p s₀ as h).act i) := by
  simpa [ofActions, List.getD_eq_getElem, hi] using (step_stateAt h hi).2

end Process
