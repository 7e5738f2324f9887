import Miroir.Process.Workers

/-!
# Locks that threads hold

Some commands of the workers take the slot of a key, others give it back. Which slots a thread holds
is read off its log (`holds`). If threads give back only what they hold, a slot has one holder at a
time (`slot_of_holds`).

What a thread has learned of the world under a lock stays true as long as it holds the lock, if only
a holder can make it false (`known`).
-/

namespace Process

/-- What the answer to a command does to the slots. -/
inductive SlotUse (K : Type) where
  | take (k : K)
  | give (k : K)

/-- Slots of the world, each with the worker that holds it. -/
structure Locks {S W J E O C α : Type} {R : C → Type} (sys : Workers S W J E O R α)
    (K : Type) [DecidableEq K] where
  use : (c : C) → R c → Option (SlotUse K)
  slot : S → K → Option W
  take : ∀ {s w j c o r s' k}, sys.answer s w j c o = some (r, s') → use c r = some (.take k) →
    slot s k = none ∧ slot s' = Function.update (slot s) k (some w)
  give : ∀ {s w j c o r s' k}, sys.answer s w j c o = some (r, s') → use c r = some (.give k) →
    slot s' = Function.update (slot s) k none
  keep : ∀ {s w j c o r s'}, sys.answer s w j c o = some (r, s') → use c r = none →
    slot s' = slot s
  event : ∀ {s e s'}, sys.event s e = some s' → slot s' = slot s

namespace Locks

open Workers

variable {S W J E O C α K : Type} {R : C → Type} [DecidableEq K]
  {sys : Workers S W J E O R α} (L : Locks sys K)

/-- The thread with this log holds the slot. -/
def holds (k : K) : Log Nat R → Bool
  | [] => false
  | e :: l =>
    match L.use e.cmd e.ans with
    | some (.take k') => k' = k || holds k l
    | some (.give k') => k' ≠ k && holds k l
    | none => holds k l

variable {L} {k : K} {l : Log Nat R} {e : Entry Nat R}

theorem holds_cons_of_none (h : L.use e.cmd e.ans = none) : L.holds k (e :: l) = L.holds k l := by
  simp only [holds, h]

theorem holds_cons_of_take (h : L.use e.cmd e.ans = some (.take k)) : L.holds k (e :: l) := by
  simp [holds, h]

/-- Whoever holds the slot after an entry held it before, or has just taken it. -/
theorem holds_cons (h : L.holds k (e :: l)) :
    (L.holds k l ∧ L.use e.cmd e.ans ≠ some (.give k)) ∨
      L.use e.cmd e.ans = some (.take k) := by
  rw [holds] at h
  cases hu : L.use e.cmd e.ans with
  | none =>
    rw [hu] at h
    exact .inl ⟨h, nofun⟩
  | some u =>
    rw [hu] at h
    cases u with
    | take k' =>
      rcases Bool.or_eq_true_iff.mp h with h | h
      · exact .inr (by rw [of_decide_eq_true h])
      · exact .inl ⟨h, nofun⟩
    | give k' =>
      obtain ⟨hne, h⟩ := Bool.and_eq_true_iff.mp h
      refine .inl ⟨h, fun heq => ?_⟩
      cases heq
      simp at hne

section Runs

variable {G : W → J → Log Nat R → C → Prop}

variable {w : W} {t : Thread J R α}

/-- Nobody gives back what it does not hold. -/
def GivesHeld (L : Locks sys K) (G : W → J → Log Nat R → C → Prop) : Prop :=
  ∀ w j l c r k, G w j l c → L.use c r = some (.give k) → L.holds k l = true

/-- A step in which worker `w'` is told something leaves the slots of the others as they are. -/
theorem slot_of_told (hgive : GivesHeld L G) {w' : W} (hne : w ≠ w') {s s' : S} {j : J} {c : C}
    {o : O} {r : R c} (hans : sys.answer s w' j c o = some (r, s')) (hg : G w' j l c)
    (hslot : L.slot s k = some w) (hmine : L.holds k l → L.slot s k = some w') :
    L.slot s' k = some w := by
  cases hu : L.use c r with
  | none => rwa [L.keep hans hu]
  | some u =>
    cases u with
    | take k' =>
      obtain ⟨hfree, hs'⟩ := L.take hans hu
      have hk : k ≠ k' := fun h => by rw [h, hfree] at hslot; cases hslot
      rwa [hs', Function.update_of_ne hk]
    | give k' =>
      have hk : k ≠ k' := fun h => by
        subst h
        have := hmine (hgive _ _ _ _ _ _ hg hu)
        rw [hslot] at this
        exact hne (Option.some.inj this)
      rwa [L.give hans hu, Function.update_of_ne hk]

variable [DecidableEq W] {s₀ : S} {N i : ℕ} {Q : W → J → Log Nat R → α → Prop}

theorem slot_of_holds (ρ : Run sys.step (init s₀) N)
    (hG : ∀ w j, Prog.Obeys (G w j) (Q w j) [] (sys.program w j)) (hgive : GivesHeld L G)
    (hi : i ≤ N) (ht : (ρ.state i).threads.lookup w = some t)
    (hh : L.holds k t.log) : L.slot (ρ.state i).world k = some w := by
  refine ρ.invariant (P := fun _ c => ∀ w t, c.threads.lookup w = some t →
    L.holds k t.log → L.slot c.world k = some w) ?_ (fun i hi ih w t ht hh => ?_) hi w t ht hh
  · intro w t ht
    cases ht
  have hstep := stepped_of_step (ρ.next i hi)
  rcases hstep.thread_cases ht with ⟨ht, hother⟩ | ⟨j, -, rfl⟩ |
    ⟨o, j, log, cmd, kk, r, -, hw, hans, rfl⟩
  · -- The thread is the one before; somebody else may have been told something.
    have hslot := ih w t ht hh
    rcases hstep.world_cases with heq | ⟨e, -, he⟩ | ⟨w', o, j, log, cmd, kk, r, ha, hw', hans⟩
    · rwa [heq]
    · rwa [L.event he]
    · have hne : w ≠ w' := fun h => hother o (h ▸ ha)
      exact slot_of_told hgive hne hans (thread_obeys ρ hG (Nat.le_of_lt hi) hw').1.1 hslot
        (ih w' _ hw')
  · cases hh
  · rcases holds_cons hh with ⟨hh, hu⟩ | hu
    · have hslot := ih w _ hw hh
      cases hr : L.use cmd r with
      | none => rwa [L.keep hans hr]
      | some u =>
        cases u with
        | take k' =>
          by_cases hk : k = k'
          · rw [(L.take hans hr).2, hk, Function.update_self]
          · rwa [(L.take hans hr).2, Function.update_of_ne hk]
        | give k' =>
          have hk : k ≠ k' := fun h => hu (h ▸ hr)
          rwa [L.give hans hr, Function.update_of_ne hk]
    · rw [(L.take hans hu).2, Function.update_self]

/-- A slot has one holder. -/
theorem holds_unique (ρ : Run sys.step (init s₀) N)
    (hG : ∀ w j, Prog.Obeys (G w j) (Q w j) [] (sys.program w j)) (hgive : GivesHeld L G)
    (hi : i ≤ N) {w' : W} {t' : Thread J R α}
    (ht : (ρ.state i).threads.lookup w = some t) (ht' : (ρ.state i).threads.lookup w' = some t')
    (hh : L.holds k t.log) (hh' : L.holds k t'.log) : w = w' := by
  have hslot := slot_of_holds ρ hG hgive hi ht hh
  rw [slot_of_holds ρ hG hgive hi ht' hh'] at hslot
  exact (Option.some.inj hslot).symm

/-- What threads know under a lock: it is learned from an answer (`hown`), and neither an event of
the run nor a worker without the lock makes it false. -/
theorem known (ρ : Run sys.step (init s₀) N)
    (hG : ∀ w j, Prog.Obeys (G w j) (Q w j) [] (sys.program w j)) (hgive : GivesHeld L G)
    (Knows : J → Log Nat R → Prop) (F : S → Prop)
    (hk : ∀ j l, Knows j l → L.holds k l)
    (hevent : ∀ i < N, ∀ e, ρ.act i = .event e →
      sys.event (ρ.state i).world e = some (ρ.state (i + 1)).world →
      F (ρ.state i).world → F (ρ.state (i + 1)).world)
    (hother : ∀ w j e l, e.time < N → Told ρ w j e l → L.holds k l = false →
      F (ρ.state e.time).world → F (ρ.state (e.time + 1)).world)
    (hown : ∀ w j e l, e.time < N → Told ρ w j e l → (Knows j l → F (ρ.state e.time).world) →
      Knows j (e :: l) → F (ρ.state (e.time + 1)).world)
    (hi : i ≤ N) (ht : (ρ.state i).threads.lookup w = some t)
    (hkn : Knows t.job t.log) : F (ρ.state i).world := by
  refine ρ.invariant (P := fun _ c => ∀ w t, c.threads.lookup w = some t →
    Knows t.job t.log → F c.world) ?_ (fun i hi ih w t ht hkn => ?_) hi w t ht hkn
  · intro w t ht
    cases ht
  have hstep := stepped_of_step (ρ.next i hi)
  rcases hstep.thread_cases ht with ⟨ht, hnot⟩ | ⟨j, -, rfl⟩ |
    ⟨o, j, log, cmd, kk, r, ha, hw, hans, rfl⟩
  · have hF := ih w t ht hkn
    rcases hstep.world_cases with heq | ⟨e, ha, he⟩ | ⟨w', o, j, log, cmd, kk, r, ha, hw', hans⟩
    · rwa [heq]
    · exact hevent i hi e ha he hF
    · -- The lock is held here, so the worker that was told something does not hold it.
      have hne : w ≠ w' := fun h => hnot o (h ▸ ha)
      refine hother w' j ⟨i, cmd, r⟩ log hi ⟨o, kk, ha, hw', hans⟩ ?_ hF
      refine Bool.eq_false_iff.mpr fun hh' => hne ?_
      exact holds_unique ρ hG hgive (Nat.le_of_lt hi) ht hw' (hk _ _ hkn) hh'
  · exact absurd (hk _ _ hkn) (by simp [holds])
  · rw [tick_eq ρ (Nat.le_of_lt hi)] at hkn
    exact hown w j ⟨i, cmd, r⟩ log hi ⟨o, kk, ha, hw, hans⟩ (ih w _ hw) hkn

end Runs

end Locks

end Process
