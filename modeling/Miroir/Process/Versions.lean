import Mathlib.Logic.Function.Basic

/-!
# An object with all its versions

Every write of the object makes its next version, and a read from a cache may find an older one. A
version that was read stays what it is while others write (`Later`).
-/

namespace Process

/-- An object version by version; those after `last` are yet to come. -/
structure Versions (α : Type*) where
  /-- The object, version by version. -/
  version : Nat → α
  /-- The version on the API server. -/
  last : Nat := 0

namespace Versions

variable {α : Type*} {s s' s'' : Versions α} {a : α}

/-- The object as it is now. -/
def current (s : Versions α) : α := s.version s.last

/-- The object is written. -/
def put (s : Versions α) (a : α) : Versions α where
  version := Function.update s.version (s.last + 1) a
  last := s.last + 1

/-- Versions are only added. -/
structure Later (s s' : Versions α) : Prop where
  last : s.last ≤ s'.last
  version : ∀ k ≤ s.last, s'.version k = s.version k

theorem Later.refl (s : Versions α) : Later s s := ⟨Nat.le_refl _, fun _ _ => rfl⟩

theorem Later.trans (h : Later s s') (h' : Later s' s'') : Later s s'' :=
  ⟨Nat.le_trans h.last h'.last,
    fun k hk => (h'.version k (Nat.le_trans hk h.last)).trans (h.version k hk)⟩

theorem version_put_of_le {k : Nat} (h : k ≤ s.last) : (s.put a).version k = s.version k :=
  Function.update_of_ne (by omega) ..

@[simp] theorem version_put_last : (s.put a).version (s.last + 1) = a := Function.update_self ..

@[simp] theorem current_put : (s.put a).current = a := Function.update_self ..

theorem later_put (s : Versions α) (a : α) : Later s (s.put a) :=
  ⟨Nat.le_succ _, fun _ => version_put_of_le⟩

end Versions

end Process
