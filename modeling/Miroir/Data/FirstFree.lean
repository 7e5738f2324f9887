import Mathlib.Data.List.Perm.Subperm
import Mathlib.Data.List.Range

/-!
# The first free number

Ids and device numbers are handed out by counting up from a start until a number is not taken.
Of `n + 1` consecutive numbers one is not among `n` taken ones, so the count needs no more than
that many steps.
-/

namespace Data

/-- The least number from `start` on that is not taken. -/
def firstFree (start : ℕ) (taken : List ℕ) : ℕ :=
  ((List.range' start (taken.length + 1)).find? (· ∉ taken)).getD start

variable {start n : ℕ} {taken : List ℕ}

/-- The search does not run out. -/
theorem exists_free (start : ℕ) (taken : List ℕ) :
    ∃ n ∈ List.range' start (taken.length + 1), n ∉ taken := by
  by_contra h
  simp only [not_exists, not_and, not_not] at h
  have hnodup : (List.range' start (taken.length + 1)).Nodup := List.nodup_range'
  have hle := (hnodup.subperm h).length_le
  rw [List.length_range'] at hle
  omega

theorem firstFree_spec (start : ℕ) (taken : List ℕ) :
    firstFree start taken ∉ taken ∧ start ≤ firstFree start taken ∧
      ∀ n, start ≤ n → n < firstFree start taken → n ∈ taken := by
  cases h : (List.range' start (taken.length + 1)).find? (· ∉ taken) with
  | none =>
    obtain ⟨n, hn, hfree⟩ := exists_free start taken
    exact absurd (decide_eq_true hfree) (List.find?_eq_none.mp h n hn)
  | some m =>
    obtain ⟨hfree, hmem, hleast⟩ := List.find?_range'_eq_some.mp h
    rw [firstFree, h, Option.getD_some]
    refine ⟨of_decide_eq_true hfree, (List.mem_range'_1.mp hmem).1, fun n hn hlt => ?_⟩
    simpa using hleast n hn hlt

theorem firstFree_not_mem : firstFree start taken ∉ taken :=
  (firstFree_spec start taken).1

/-- It takes no more steps than there are taken numbers. -/
theorem firstFree_le : firstFree start taken ≤ start + taken.length := by
  obtain ⟨n, hn, hfree⟩ := exists_free start taken
  obtain ⟨-, -, hleast⟩ := firstFree_spec start taken
  obtain ⟨hstart, hlt⟩ := List.mem_range'_1.mp hn
  by_contra hle
  exact hfree (hleast n hstart (by omega))

end Data
