import Mathlib.Tactic.Common

/-!
# Records ended by a separator

A stream is a sequence of records, each ended by a separator, and a tail that is not ended yet
(`Framed`). Every stream has exactly one such form, which splitting at the separator gives
(`Framed.splitOn_eq`). `Framed.append` is the rule for a stream that comes in pieces: what comes
next is framed together with the tail.
-/

namespace Records

variable {α : Type*} {sep : α} {s s' t t' : List α} {rs rs' : List (List α)}

/-- The stream `s` is the ended records `rs` and the tail `t`. -/
structure Framed (sep : α) (s : List α) (rs : List (List α)) (t : List α) : Prop where
  eq : s = rs.flatMap (· ++ [sep]) ++ t
  records : ∀ r ∈ rs, sep ∉ r
  tail : sep ∉ t

namespace Framed

theorem nil : Framed sep [] [] [] := ⟨rfl, by simp, by simp⟩

theorem append (h : Framed sep s rs t) (h' : Framed sep (t ++ s') rs' t') :
    Framed sep (s ++ s') (rs ++ rs') t' where
  eq := by rw [h.eq, List.append_assoc, h'.eq, List.flatMap_append, List.append_assoc]
  records r hr := (List.mem_append.mp hr).elim (h.records r) (h'.records r)
  tail := h'.tail

/-- A stream that ends with the separator has no tail. -/
theorem tail_eq_nil (h : Framed sep s rs t) (hs : s.getLast? = some sep) : t = [] := by
  by_contra ht
  rw [h.eq, List.getLast?_append, List.getLast?_eq_some_getLast ht, Option.some_or] at hs
  exact h.tail (Option.some.inj hs ▸ List.getLast_mem ht)

theorem splitOn_eq [DecidableEq α] (h : Framed sep s rs t) : s.splitOn sep = rs ++ [t] := by
  obtain ⟨rfl, hrs, ht⟩ := h
  induction rs with
  | nil => exact List.splitOn_eq_singleton ht
  | cons r rs ih =>
    rw [List.flatMap_cons, List.append_assoc, List.append_assoc, List.singleton_append,
      List.splitOn_append_cons_self_of_not_mem (hrs r (by simp)),
      ih fun r' hr' => hrs r' (.tail _ hr'), List.cons_append]

end Framed

theorem exists_framed [DecidableEq α] (sep : α) (s : List α) : ∃ rs t, Framed sep s rs t := by
  induction s with
  | nil => exact ⟨[], [], .nil⟩
  | cons x s ih =>
    obtain ⟨rs, t, rfl, hrs, ht⟩ := ih
    rcases eq_or_ne x sep with rfl | hx
    · exact ⟨[] :: rs, t, rfl, by simpa using hrs, ht⟩
    · cases rs with
      | nil => exact ⟨[], x :: t, rfl, hrs, by simp [hx.symm, ht]⟩
      | cons r rs => exact ⟨(x :: r) :: rs, t, rfl, by simpa [hx.symm] using hrs, ht⟩

end Records
