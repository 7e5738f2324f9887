import Mathlib.Data.List.Basic
import Mathlib.Tactic.Common

/-!
# The objects one name has had

A store keeps objects by name. What its versions show under one name is a list: nothing, or an
object with its identity and whether it is marked deleted. `Incarnations` says how such a list
grows: an object stays and may be marked, it goes, or another comes whose identity was never there.
`Incarnations.between` is what follows for two versions that show the same object: every version
between them shows it too, and a mark the first has is on all of them.
-/

namespace Data

/-- The identity of an object, and whether it is marked deleted. -/
structure Mark (U : Type*) where
  uid : U
  deleting : Bool
  deriving DecidableEq

variable {U : Type*} {h : List (Option (Mark U))}

/-- What the next version may show. -/
inductive Continues (h : List (Option (Mark U))) : Option (Mark U) → Prop
  | gone : Continues h none
  | same {m m'} (hm : some m ∈ h.getLast?) (hu : m'.uid = m.uid)
      (hd : m.deleting = true → m'.deleting = true) : Continues h (some m')
  | fresh {m'} (hf : ∀ m, some m ∈ h → m.uid ≠ m'.uid) : Continues h (some m')

/-- What the versions of a store show under one name, oldest first. -/
inductive Incarnations : List (Option (Mark U)) → Prop
  | nil : Incarnations []
  | snoc {h o} (hh : Incarnations h) (ho : Continues h o) : Incarnations (h ++ [o])

/-- Two versions that show one object have it in every version between them. -/
theorem Incarnations.between (hh : Incarnations h) {i j k : ℕ} {m m' : Mark U} (hij : i ≤ j)
    (hjk : j ≤ k) (hi : h[i]? = some (some m)) (hk : h[k]? = some (some m'))
    (hu : m'.uid = m.uid) :
    ∃ m'', h[j]? = some (some m'') ∧ m''.uid = m.uid ∧
      (m.deleting → m''.deleting) := by
  induction hh generalizing i j k m m' with
  | nil => simp at hi
  | @snoc h o hh ho ih =>
    rcases Nat.lt_or_ge k h.length with hlt | hge
    · rw [List.getElem?_append_left (by omega)] at hi hk ⊢
      exact ih hij hjk hi hk hu
    have hlen : k < (h ++ [o]).length := (List.getElem?_eq_some_iff.mp hk).1
    rw [List.length_append, List.length_singleton] at hlen
    obtain rfl : k = h.length := by omega
    rw [List.getElem?_concat_length, Option.some.injEq] at hk
    subst hk
    rcases Nat.eq_or_lt_of_le (Nat.le_trans hij hjk) with rfl | hik
    · obtain rfl : j = h.length := Nat.le_antisymm hjk hij
      exact ⟨m, hi, rfl, id⟩
    rw [List.getElem?_append_left hik] at hi
    cases ho with
    | fresh hf => exact absurd hu.symm (hf m (List.mem_of_getElem? hi))
    | @same last _ hlast hul hdl =>
      have hlast : h[h.length - 1]? = some (some last) := by
        rwa [← List.getLast?_eq_getElem?, ← Option.mem_def]
      have hul := hul.symm.trans hu
      rcases Nat.eq_or_lt_of_le hjk with rfl | hjlt
      · obtain ⟨n, hn, -, hd⟩ := ih (Nat.le_sub_one_of_lt hik) (Nat.le_refl _) hi hlast hul
        rw [hlast, Option.some.injEq, Option.some.injEq] at hn
        subst hn
        exact ⟨m', List.getElem?_concat_length .., hu, fun h => hdl (hd h)⟩
      · rw [List.getElem?_append_left hjlt]
        exact ih hij (Nat.le_sub_one_of_lt hjlt) hi hlast hul

end Data
