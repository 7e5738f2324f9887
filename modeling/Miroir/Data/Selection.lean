import Mathlib.Data.List.Perm.Subperm
import Mathlib.Data.List.Sort

/-!
# Selections from a list

Two ways to choose from ranked values. An order statistic: the `k`-th largest element is at least
`s` exactly if more than `k` elements are (`le_getElem_iff`). And a bounded loop (`fill`): run
through a list and take what is wanted, until there are enough. What comes out has no duplicates
if nothing is taken twice, and if it falls short, everything that was wanted is in it.
-/

namespace Data

/-! ## Order statistics -/

section Order

variable {α : Type*} [LinearOrder α] {l : List α} {s : α} {k : ℕ}

/-- Nothing behind an element that is too small is large enough. -/
theorem countP_eq_zero_of_lt {a : α} (h : (a :: l).Pairwise (· ≥ ·)) (hs : ¬s ≤ a) :
    (a :: l).countP (s ≤ ·) = 0 := by
  refine List.countP_eq_zero.mpr fun x hx => ?_
  rcases List.mem_cons.mp hx with rfl | hx
  · simpa using hs
  · have hxa : x ≤ a := List.rel_of_pairwise_cons h hx
    simpa using lt_of_le_of_lt hxa (not_le.mp hs)

theorem le_getElem_iff (h : l.Pairwise (· ≥ ·)) (hk : k < l.length) :
    s ≤ l[k] ↔ k < l.countP (s ≤ ·) := by
  induction l generalizing k with
  | nil => simp at hk
  | cons a l ih =>
    by_cases hs : s ≤ a
    · rw [List.countP_cons_of_pos (by simpa using hs)]
      cases k with
      | zero => simpa using hs
      | succ k =>
        rw [List.getElem_cons_succ, ih h.of_cons (Nat.lt_of_succ_lt_succ hk),
          Nat.succ_lt_succ_iff]
    · rw [countP_eq_zero_of_lt h hs]
      refine iff_of_false (fun hsk => hs ?_) (Nat.not_lt_zero k)
      rcases List.mem_cons.mp (List.getElem_mem hk) with heq | hmem
      · rwa [heq] at hsk
      · exact hsk.trans (List.rel_of_pairwise_cons h hmem)

end Order

/-! ## Bounded loops -/

section Fill

variable {α : Type*}

/-- Run through a list and take what is wanted beside what is picked, up to `count`. -/
def fill (count : ℕ) (want : List α → α → Bool) : List α → List α → List α
  | picked, [] => picked
  | picked, x :: xs =>
    fill count want (if picked.length < count && want picked x then picked ++ [x] else picked) xs

variable {count : ℕ} {want : List α → α → Bool} {picked xs : List α} {x : α}

theorem fill_cons :
    (fill count want picked (x :: xs) = fill count want (picked ++ [x]) xs ∧
      picked.length < count ∧ want picked x) ∨
    (fill count want picked (x :: xs) = fill count want picked xs ∧
      (picked.length < count → want picked x = false)) := by
  rw [fill]
  split
  · rename_i h
    obtain ⟨hlt, hw⟩ := Bool.and_eq_true_iff.mp h
    exact .inl ⟨rfl, of_decide_eq_true hlt, hw⟩
  · rename_i h
    exact .inr ⟨rfl, fun hlt => by simpa [hlt] using h⟩

theorem prefix_fill : picked <+: fill count want picked xs := by
  induction xs generalizing picked with
  | nil => exact List.prefix_rfl
  | cons x xs ih =>
    rcases fill_cons (x := x) with ⟨heq, -⟩ | ⟨heq, -⟩
    · rw [heq]
      exact (List.prefix_append picked [x]).trans ih
    · rw [heq]
      exact ih

/-- A loop keeps what every element it takes keeps. -/
theorem fill_invariant {M : List α → Prop}
    (hM : ∀ p x, p.length < count → want p x → M p → M (p ++ [x])) (h : M picked) :
    M (fill count want picked xs) := by
  induction xs generalizing picked with
  | nil => exact h
  | cons x xs ih =>
    rcases fill_cons (x := x) with ⟨heq, hlt, hx⟩ | ⟨heq, -⟩
    · rw [heq]
      exact ih (hM _ _ hlt hx h)
    · rw [heq]
      exact ih h

theorem length_fill_le (h : picked.length ≤ count) : (fill count want picked xs).length ≤ count :=
  fill_invariant (M := fun p => p.length ≤ count)
    (fun p x hlt _ _ => by simpa using Nat.succ_le_of_lt hlt) h

theorem mem_of_mem_fill {y : α} (h : y ∈ fill count want picked xs) : y ∈ picked ∨ y ∈ xs := by
  induction xs generalizing picked with
  | nil => exact .inl h
  | cons x xs ih =>
    rcases fill_cons (x := x) with ⟨heq, -⟩ | ⟨heq, -⟩
    · rw [heq] at h
      rcases ih h with h | h
      · rcases List.mem_append.mp h with h | h
        · exact .inl h
        · exact .inr (List.mem_cons.mpr (.inl (List.mem_singleton.mp h)))
      · exact .inr (.tail _ h)
    · rw [heq] at h
      exact (ih h).imp_right (.tail _)

/-- A loop over new elements takes none twice. -/
theorem nodup_fill_of_append (h : (picked ++ xs).Nodup) : (fill count want picked xs).Nodup := by
  induction xs generalizing picked with
  | nil => simpa [fill] using h
  | cons x xs ih =>
    rcases fill_cons (x := x) with ⟨heq, -⟩ | ⟨heq, -⟩
    · rw [heq]
      exact ih (by simpa using h)
    · rw [heq]
      exact ih (h.sublist ((List.sublist_cons_self x xs).append_left picked))

/-- Nor does a loop that wants only what is not picked yet. -/
theorem nodup_fill_of_want (hw : ∀ p x, want p x → x ∉ p) (h : picked.Nodup) :
    (fill count want picked xs).Nodup :=
  fill_invariant (fun _ x _ hx hp => List.nodup_append.mpr ⟨hp, List.nodup_singleton x,
    fun _ ha _ hb hab => hw _ _ hx (List.mem_singleton.mp hb ▸ hab ▸ ha)⟩) h

/-- A loop that falls short has taken what it passed by, unless it was not wanted just then. -/
theorem mem_or_of_short (hx : x ∈ xs) (h : (fill count want picked xs).length < count) :
    x ∈ fill count want picked xs ∨
      ∃ p, p <+: fill count want picked xs ∧ want p x = false := by
  induction xs generalizing picked with
  | nil => cases hx
  | cons y xs ih =>
    rcases fill_cons (x := y) with ⟨heq, -⟩ | ⟨heq, hno⟩
    all_goals
      rw [heq] at h ⊢
      rcases List.mem_cons.mp hx with rfl | hx
    · exact .inl (prefix_fill.subset (by simp))
    · exact ih hx h
    · exact .inr ⟨picked, prefix_fill, hno (Nat.lt_of_le_of_lt prefix_fill.length_le h)⟩
    · exact ih hx h

/-- A loop that wants whatever is not picked yet, and falls short, has taken everything. -/
theorem mem_fill_of_short (hw : ∀ p, x ∉ p → want p x) (hx : x ∈ xs)
    (h : (fill count want picked xs).length < count) : x ∈ fill count want picked xs := by
  refine (mem_or_of_short hx h).elim id fun ⟨p, hp, hno⟩ => hp.subset ?_
  by_contra hx
  rw [hw p hx] at hno
  cases hno

/-- A loop that wants everything takes what comes first. -/
theorem fill_eq_append (hw : ∀ p, ∀ x ∈ xs, want p x) (h : picked.length ≤ count) :
    fill count want picked xs = picked ++ xs.take (count - picked.length) := by
  induction xs generalizing picked with
  | nil => simp [fill]
  | cons x xs ih =>
    have hw' := fun p y hy => hw p y (.tail _ hy)
    rcases fill_cons (x := x) with ⟨heq, hlt, -⟩ | ⟨heq, hno⟩
    · rw [heq, ih hw' (by simpa using Nat.succ_le_of_lt hlt), List.length_append,
        List.length_singleton, List.append_assoc, ← Nat.sub_sub]
      obtain ⟨k, hk⟩ := Nat.exists_eq_succ_of_ne_zero (Nat.sub_pos_of_lt hlt).ne'
      rw [hk]
      rfl
    · have hfull : ¬picked.length < count := fun hlt => by
        rw [hw _ _ (.head _)] at hno
        cases hno hlt
      rw [heq, ih hw' h, Nat.sub_eq_zero_of_le (not_lt.mp hfull)]
      rfl

theorem fill_of_full (h : count ≤ picked.length) : fill count want picked xs = picked :=
  fill_invariant (M := fun p => p = picked) (fun p _ hlt _ hp => absurd (hp ▸ hlt) (by omega)) rfl

end Fill

end Data
