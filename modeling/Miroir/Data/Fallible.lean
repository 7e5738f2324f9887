import Mathlib.Data.List.Forall2

/-!
# Computations that may fail

How a successful `Except` computation is taken apart.
-/

namespace Data

variable {ε α β : Type}

variable {f : α → Except ε β} {xs : List α} {ys : List β} {R : α → β → Prop}

theorem bind_eq_ok {x : Except ε α} {b : β} :
    x >>= f = .ok b ↔ ∃ a, x = .ok a ∧ f a = .ok b := by
  cases x with
  | error e => simp [bind, Except.bind]
  | ok a => simp [bind, Except.bind]

/-- A list is mapped element by element. -/
theorem forall₂_of_mapM
    (h : xs.mapM f = .ok ys) : List.Forall₂ (fun x y => f x = .ok y) xs ys := by
  induction xs generalizing ys with
  | nil =>
    cases h
    exact .nil
  | cons x xs ih =>
    rw [List.mapM_cons] at h
    obtain ⟨y, hy, h⟩ := bind_eq_ok.mp h
    obtain ⟨zs, hzs, h⟩ := bind_eq_ok.mp h
    cases h
    exact .cons hy (ih hzs)

theorem exists_mapM_eq_ok (h : ∀ x ∈ xs, ∃ y, f x = .ok y) :
    ∃ ys, xs.mapM f = .ok ys := by
  induction xs with
  | nil => exact ⟨[], rfl⟩
  | cons x xs ih =>
    obtain ⟨y, hy⟩ := h x (.head _)
    obtain ⟨ys, hys⟩ := ih fun x hx => h x (.tail _ hx)
    rw [List.mapM_cons]
    exact ⟨y :: ys, bind_eq_ok.mpr ⟨y, hy, bind_eq_ok.mpr ⟨ys, hys, rfl⟩⟩⟩

theorem exists_of_forall₂
    (h : List.Forall₂ R xs ys) {y : β} (hy : y ∈ ys) : ∃ x ∈ xs, R x y := by
  induction h with
  | nil => cases hy
  | cons hR _ ih =>
    rcases List.mem_cons.mp hy with rfl | hy
    · exact ⟨_, .head _, hR⟩
    · obtain ⟨x, hx, hxy⟩ := ih hy
      exact ⟨x, .tail _ hx, hxy⟩

theorem forall₂_and {S : α → β → Prop} (hR : List.Forall₂ R xs ys)
    (hS : List.Forall₂ S xs ys) : List.Forall₂ (fun x y => R x y ∧ S x y) xs ys := by
  induction hR with
  | nil => exact .nil
  | cons h _ ih =>
    cases hS with
    | cons h' hS => exact .cons ⟨h, h'⟩ (ih hS)

theorem exists_right_of_forall₂
    (h : List.Forall₂ R xs ys) {x : α} (hx : x ∈ xs) : ∃ y ∈ ys, R x y :=
  exists_of_forall₂ (h.flip) hx

end Data
