import Mathlib.Data.List.AList
import Miroir.Process.Run

/-!
# Freezing a mounted filesystem

`Freeze` waits for its ioctl until a deadline. An ioctl that comes to its end later is undone by a
watcher in the background, and one that finds the filesystem frozen counts as a success. The two do
not go together: a retry may take the freeze of an abandoned call for its own just before the
watcher lifts it (`adopted_freeze_lifted`).

`frozen_until_thaw`: if no other freeze is to be lifted, by a watcher or by a `Thaw` that is under
way, while a `Freeze` has a good answer, the filesystem is frozen when it returns and until a `Thaw`
called later.
-/

namespace Miroir.Freezer

open Process

/-- What FIFREEZE answers: frozen, frozen already (EBUSY), or any other error. -/
inductive Answer where
  | ok | busy | failed
  deriving DecidableEq

def answer (frozen fails : Bool) : Answer :=
  if fails then .failed else if frozen then .busy else .ok

/-- Where a call of `Freeze` is. -/
inductive Phase where
  /-- Its ioctl is under way. -/
  | waiting
  /-- The answer is in the channel. -/
  | answered (a : Answer)
  /-- It has returned at its deadline, with the ioctl under way. -/
  | abandoned
  /-- It has returned at its deadline and its ioctl has frozen the filesystem: the watcher is to
  thaw it. -/
  | late
  | over
  deriving DecidableEq

/-- What happens to a call of `Freeze`. -/
inductive Event where
  | call
  /-- The ioctl comes to its end, and may fail for a reason of its own. -/
  | lands (fails : Bool)
  /-- The deadline wins, even over an answer that is there. -/
  | expires
  | returns
  /-- The watcher's FITHAW. -/
  | undo
  deriving DecidableEq

/-- What the deadline leaves to the watcher of an ioctl with the answer `a`. -/
def watched (a : Answer) : Phase := if a = .ok then .late else .over

def Freeze (frozen : Bool) : Option Phase → Event → Option Phase
  | none, .call => some .waiting
  | some .waiting, .lands fails => some (.answered (answer frozen fails))
  | some .abandoned, .lands fails => some (watched (answer frozen fails))
  | some .waiting, .expires => some .abandoned
  | some (.answered a), .expires => some (watched a)
  | some (.answered _), .returns => some .over
  | some .late, .undo => some .over
  | _, _ => none

/-- Whether the filesystem is frozen after the event. -/
def Event.effect (frozen : Bool) : Event → Bool
  | .lands fails => frozen || !fails
  | .undo => false
  | _ => frozen

/-- The filesystem, and the freezes under way. -/
structure State where
  frozen : Bool := false
  freezes : AList fun _ : Nat => Phase := ∅
  /-- The calls of `Thaw` whose ioctl is under way. -/
  thaws : List Nat := []

/-- A step of a freeze or of its surroundings. -/
inductive Action where
  | freeze (f : Nat) (e : Event)
  | thaw (t : Nat)
  | thawLands (t : Nat) (fails : Bool)
  deriving DecidableEq

instance : Inhabited Action := ⟨.thaw 0⟩

def State.phase (s : State) (f : Nat) : Option Phase := s.freezes.lookup f

def step (s : State) : Action → Option State
  | .freeze f e =>
    (Freeze s.frozen (s.phase f) e).map fun p =>
      { s with frozen := e.effect s.frozen, freezes := s.freezes.insert f p }
  | .thaw t => some { s with thaws := t :: s.thaws }
  | .thawLands t fails =>
    if t ∈ s.thaws then
      some { s with frozen := s.frozen && fails, thaws := s.thaws.erase t }
    else none

/-! ## What a step does -/

section
variable {b : Bool} {p : Option Phase} {e : Event}

theorem Freeze_late (h : Freeze b p e = some .late) : b = false ∨ p = some (.answered .ok) := by
  revert h
  fun_cases Freeze b p e <;> grind [watched, answer]

theorem Freeze_answered {x : Answer} (h : Freeze b p e = some (.answered x)) :
    ∃ fails, e = .lands fails ∧ x = answer b fails := by
  revert h
  fun_cases Freeze b p e <;> grind [watched]

/-- A call that has not returned. -/
def active : Option Phase → Bool
  | none | some .waiting | some (.answered _) => true
  | _ => false

theorem active_watched (a : Answer) : active (some (watched a)) = false := by
  cases a <;> rfl

theorem Freeze_active {q : Phase} (h : Freeze b p e = some q) (hq : active (some q)) :
    active p ∧ e ≠ .expires := by
  revert h
  fun_cases Freeze b p e <;> grind [active, active_watched]

theorem Freeze_undo {q : Phase} (h : Freeze b p .undo = some q) : p = some .late := by
  rcases p with _ | _ | _ | _ <;> simp_all [Freeze]

end

variable {s s' : State} {a : Action} {f : Nat}

/-- A step leaves the call alone or is an event of it. -/
theorem phase_of_step (h : step s a = some s') (f : Nat) :
    (s'.phase f = s.phase f ∧ ∀ e, a ≠ .freeze f e) ∨
      ∃ e p, a = .freeze f e ∧ Freeze s.frozen (s.phase f) e = some p ∧ s'.phase f = some p ∧
        s'.frozen = e.effect s.frozen := by
  cases a with
  | freeze g e =>
    obtain ⟨p, hp, rfl⟩ := Option.map_eq_some_iff.mp h
    rcases eq_or_ne f g with rfl | hfg
    · exact .inr ⟨e, p, rfl, hp, AList.lookup_insert _, rfl⟩
    · exact .inl ⟨AList.lookup_insert_ne hfg, by simp [hfg.symm]⟩
  | thaw t => cases h; exact .inl ⟨rfl, nofun⟩
  | thawLands t fails =>
    obtain ⟨-, hs⟩ := Option.ite_none_right_eq_some.mp h
    cases hs
    exact .inl ⟨rfl, nofun⟩

theorem thaws_of_step (h : step s a = some s') {t : Nat} (ht : t ∈ s'.thaws) :
    t ∈ s.thaws ∨ a = .thaw t := by
  cases a with
  | freeze g e =>
    obtain ⟨p, -, rfl⟩ := Option.map_eq_some_iff.mp h
    exact .inl ht
  | thaw u => cases h; simpa [eq_comm, or_comm] using ht
  | thawLands u fails =>
    obtain ⟨-, hs⟩ := Option.ite_none_right_eq_some.mp h
    cases hs
    exact .inl (List.mem_of_mem_erase ht)

/-- Only a watcher and a `Thaw` lift a freeze. -/
theorem unfrozen_cases (h : step s a = some s') (hs : s.frozen) (hs' : s'.frozen = false) :
    (∃ f, s.phase f = some .late) ∨ ∃ t, a = .thawLands t false ∧ t ∈ s.thaws := by
  cases a with
  | freeze f e =>
    obtain ⟨p, hp, rfl⟩ := Option.map_eq_some_iff.mp h
    cases e with
    | undo => exact .inl ⟨f, Freeze_undo hp⟩
    | _ => simp [Event.effect, hs] at hs'
  | thaw t => cases h; simp [hs] at hs'
  | thawLands t fails =>
    obtain ⟨ht, hs⟩ := Option.ite_none_right_eq_some.mp h
    cases hs
    have hf : fails = false := by simpa [hs] using hs'
    exact .inr ⟨t, hf ▸ rfl, ht⟩

/-- The watcher of a late call can thaw, and does. -/
theorem undo_of_late (h : s.phase f = some .late) :
    ∃ s', step s (.freeze f .undo) = some s' ∧ s'.frozen = false := by
  rw [step, h]
  exact ⟨_, rfl, rfl⟩

/-- A call whose ioctl has frozen the filesystem, and that may still have it thawed. -/
def pending (p : Option Phase) : Bool := p = some .late || p = some (.answered .ok)

theorem pending_of_step (h : step s a = some s') (hp : pending (s'.phase f)) :
    pending (s.phase f) ∨ s.frozen = false := by
  obtain ⟨hph, -⟩ | ⟨e, p, -, hg, hph, -⟩ := phase_of_step h f
  · exact .inl (hph ▸ hp)
  · simp only [hph, pending, Option.some.injEq, Bool.or_eq_true, decide_eq_true_eq] at hp ⊢
    rcases hp with rfl | rfl
    · rcases Freeze_late hg with h | h
      exacts [.inr h, .inl (.inr h)]
    · obtain ⟨fails, -, h⟩ := Freeze_answered hg
      grind [answer]

/-- The frozen filesystem stays frozen when a call that froze it does not stay pending: it returns
its success. -/
theorem pending_step (h : step s a = some s') (hs' : s'.frozen) (hp : pending (s.phase f)) :
    pending (s'.phase f) ∨
      s'.phase f = some .over ∧ active (s.phase f) ∧ a ≠ .freeze f .expires := by
  obtain ⟨hph, -⟩ | ⟨e, p, rfl, hg, hph, he⟩ := phase_of_step h f
  · exact .inl (hph ▸ hp)
  · simp only [pending, Bool.or_eq_true, decide_eq_true_eq] at hp
    rcases hp with hp | hp <;> cases e <;> simp_all [Freeze, pending, active, watched, Event.effect]

theorem frozen_cases (h : step s a = some s') (hs : s.frozen = false) (hs' : s'.frozen) :
    ∃ f, a = .freeze f (.lands false) ∧ pending (s'.phase f) := by
  cases a with
  | freeze f e =>
    obtain ⟨-, ha⟩ | ⟨e, p, ha, hp, hph, he⟩ := phase_of_step h f
    · exact absurd rfl (ha e)
    cases ha
    cases e with
    | lands fails =>
      have hok : fails = false := by simpa [he, Event.effect, hs] using hs'
      subst hok
      refine ⟨f, rfl, ?_⟩
      rw [hph, ← hp]
      cases hq : s.phase f with
      | none => simp [hq, Freeze] at hp
      | some q => cases q <;> simp_all [Freeze, pending, watched, answer]
    | _ => simp [he, Event.effect, hs] at hs'
  | thaw t => cases h; simp [hs] at hs'
  | thawLands t fails =>
    obtain ⟨-, hs⟩ := Option.ite_none_right_eq_some.mp h
    cases hs
    simp [hs] at hs'

theorem active_of_step (h : step s a = some s') (hp : active (s'.phase f)) :
    active (s.phase f) ∧ a ≠ .freeze f .expires := by
  obtain ⟨hph, ha⟩ | ⟨e, p, rfl, hg, hph, -⟩ := phase_of_step h f
  · exact ⟨hph ▸ hp, ha _⟩
  · simpa using Freeze_active hg (hph ▸ hp)

/-! ## Runs -/

/-- While a call of `Freeze` has a good answer, no `Thaw` is under way and no other call may have
the filesystem thawed. -/
def State.Calm (s : State) : Prop :=
  ∀ f ∈ s.freezes.keys, s.phase f = some (.answered .ok) ∨ s.phase f = some (.answered .busy) →
    s.thaws = [] ∧ ∀ g ∈ s.freezes.keys, g ≠ f → pending (s.phase g) = false

instance : DecidablePred State.Calm := fun s => by unfold State.Calm; infer_instance

theorem State.Calm.quiet (hc : s.Calm) {x : Answer} (hf : s.phase f = some (.answered x))
    (hx : x ≠ .failed) :
    s.thaws = [] ∧ ∀ g, g ≠ f → pending (s.phase g) = false := by
  have hmem {g : Nat} {p : Phase} (hg : s.phase g = some p) : g ∈ s.freezes.keys :=
    AList.mem_keys.mp (AList.lookup_isSome.mp (Option.isSome_of_eq_some hg))
  obtain ⟨ht, hg⟩ := hc f (hmem hf) (by cases x <;> simp_all)
  refine ⟨ht, fun g hgf => ?_⟩
  cases hp : s.phase g with
  | none => rfl
  | some p => exact hp ▸ hg g (hmem hp) hgf

variable {N : ℕ} (ρ : Run step {} N)

/-- A good answer in the channel means that the filesystem is frozen. -/
theorem frozen_of_answered (hcalm : ∀ i < N, (ρ.state i).Calm) {i : ℕ} (hi : i ≤ N) :
    ∀ f x, (ρ.state i).phase f = some (.answered x) → x ≠ .failed → (ρ.state i).frozen := by
  refine ρ.invariant (P := fun _ s => ∀ f x, s.phase f = some (.answered x) → x ≠ .failed →
    s.frozen) (fun f x h => by simp [State.phase] at h) (fun i hi ih f x hf hx => ?_) hi
  obtain ⟨hph, -⟩ | ⟨e, p, -, hg, hph, he⟩ := phase_of_step (ρ.next i hi) f
  · have hf := hph ▸ hf
    by_contra hu
    obtain ⟨ht, hg⟩ := (hcalm i hi).quiet hf hx
    rcases unfrozen_cases (ρ.next i hi) (ih f x hf hx) (by simpa using hu) with
      ⟨g, hl⟩ | ⟨t, -, hmem⟩
    · have := hg g (fun h => by simp [h ▸ hf] at hl)
      simp [pending, hl] at this
    · simp [ht] at hmem
  · obtain ⟨fails, rfl, rfl⟩ := Freeze_answered (hg.trans (hph.symm.trans hf))
    rw [he]
    cases fails <;> simp_all [answer, Event.effect]

/-- After a successful return, until a `Thaw` called since lands: nothing is left that could lift
the freeze. -/
theorem frozen_or_thawed (hcalm : ∀ i < N, (ρ.state i).Calm) {i j : ℕ} {x : Answer}
    (ha : ρ.act i = .freeze f .returns) (hf : (ρ.state i).phase f = some (.answered x))
    (hx : x ≠ .failed) (hij : i + 1 ≤ j) (hj : j ≤ N) :
    (∃ c k t, i < c ∧ c < k ∧ k < j ∧ ρ.act c = .thaw t ∧ ρ.act k = .thawLands t false) ∨
      (ρ.state j).frozen ∧ (∀ g, pending ((ρ.state j).phase g) = false) ∧
        ∀ t ∈ (ρ.state j).thaws, ∃ c, i < c ∧ c < j ∧ ρ.act c = .thaw t := by
  induction j, hij using Nat.le_induction with
  | base =>
    obtain ⟨ht, hg⟩ := (hcalm i hj).quiet hf hx
    have hfr := frozen_of_answered ρ hcalm (Nat.le_of_lt hj) f x hf hx
    have hstep := ρ.next i hj
    rw [ha] at hstep
    obtain ⟨-, h⟩ | ⟨e, p, he, hp, hph, hfr'⟩ := phase_of_step hstep f
    · exact absurd rfl (h _)
    cases he
    refine .inr ⟨hfr'.trans hfr, fun g => ?_, fun t hmem => ?_⟩
    · by_contra hpg
      rcases pending_of_step hstep (by simpa using hpg) with h | h
      · rcases eq_or_ne g f with rfl | hgf
        · simp [hph, ← hp, hf, Freeze, pending] at hpg
        · simp [hg g hgf] at h
      · simp [hfr] at h
    · rcases thaws_of_step hstep hmem with h | h
      · simp [ht] at h
      · cases h
  | succ j hij ih =>
    rcases ih (Nat.le_of_succ_le hj) with ⟨c, k, t, hc, hk, hkj, h⟩ | ⟨hfr, hp, ht⟩
    · exact .inl ⟨c, k, t, hc, hk, Nat.lt_succ_of_lt hkj, h⟩
    have hstep := ρ.next j hj
    cases hfr' : (ρ.state (j + 1)).frozen with
    | false =>
      rcases unfrozen_cases hstep hfr hfr' with ⟨g, hl⟩ | ⟨t, hact, hmem⟩
      · have := hp g
        simp [pending, hl] at this
      · obtain ⟨c, hic, hcj, hc⟩ := ht t hmem
        exact .inl ⟨c, j, t, hic, hcj, Nat.lt_succ_self j, hc, hact⟩
    | true =>
      refine .inr ⟨rfl, fun g => ?_, fun t hmem => ?_⟩
      · by_contra hpg
        rcases pending_of_step hstep (by simpa using hpg) with h | h
        exacts [by simp [hp g] at h, by simp [hfr] at h]
      · rcases thaws_of_step hstep hmem with h | h
        · obtain ⟨c, hic, hcj, hc⟩ := ht t h
          exact ⟨c, hic, Nat.lt_succ_of_lt hcj, hc⟩
        · exact ⟨j, hij, Nat.lt_succ_self j, h⟩

theorem unexpired_of_active {j : ℕ} (hj : j ≤ N) (h : active ((ρ.state j).phase f)) :
    ∀ i < j, ρ.act i ≠ .freeze f .expires := by
  induction j with
  | zero => nofun
  | succ j ih =>
    obtain ⟨hact, hne⟩ := active_of_step (ρ.next j hj) h
    intro i hi
    rcases Nat.lt_succ_iff_lt_or_eq.mp hi with hi | rfl
    exacts [ih (Nat.le_of_succ_le hj) hact i hi, hne]

/-- A frozen filesystem is frozen by the ioctl of a call that is pending or has returned before its
deadline. -/
theorem owned_of_frozen {j : ℕ} (hj : j ≤ N) (hfr : (ρ.state j).frozen) :
    ∃ f k, k < j ∧ ρ.act k = .freeze f (.lands false) ∧
      (∀ m, k < m → m ≤ j → (ρ.state m).frozen) ∧
      (pending ((ρ.state j).phase f) ∨
        (ρ.state j).phase f = some .over ∧ ∀ i < j, ρ.act i ≠ .freeze f .expires) := by
  induction j with
  | zero => simp [ρ.start] at hfr
  | succ j ih =>
    have hstep := ρ.next j hj
    cases hs : (ρ.state j).frozen with
    | false =>
      obtain ⟨f, ha, hp⟩ := frozen_cases hstep hs hfr
      refine ⟨f, j, Nat.lt_succ_self j, ha, fun m hm hmj => ?_, .inl hp⟩
      rwa [show m = j + 1 by omega]
    | true =>
      obtain ⟨f, k, hk, ha, hm, hown⟩ := ih (Nat.le_of_succ_le hj) hs
      refine ⟨f, k, Nat.lt_succ_of_lt hk, ha, fun m hkm hmj => ?_, ?_⟩
      · rcases Nat.le_succ_iff.mp hmj with hmj | rfl
        exacts [hm m hkm hmj, hfr]
      have hext (hall : ∀ i < j, ρ.act i ≠ .freeze f .expires) (hj : ρ.act j ≠ .freeze f .expires) :
          ∀ i < j + 1, ρ.act i ≠ .freeze f .expires := fun i hi => by
        rcases Nat.lt_succ_iff_lt_or_eq.mp hi with hi | rfl
        exacts [hall i hi, hj]
      rcases hown with hp | ⟨hover, hall⟩
      · rcases pending_step hstep hfr hp with hp | ⟨hover, hact, hne⟩
        · exact .inl hp
        · exact .inr ⟨hover, hext (unexpired_of_active ρ (Nat.le_of_succ_le hj) hact) hne⟩
      · obtain ⟨hph, hne⟩ | ⟨e, p, -, hp, -⟩ := phase_of_step hstep f
        · exact .inr ⟨hph.trans hover, hext hall (hne _)⟩
        · simp [hover, Freeze] at hp

/-- In every interleaving of calls of `Freeze` and `Thaw` whose states are calm, a `Freeze` that
returns without an error leaves the filesystem frozen until a `Thaw` that is called later lands.
And in every interleaving a frozen filesystem is frozen by a call that has not failed at its
deadline, or that did and whose watcher is about to thaw it: its `FITHAW` is the call's next event,
and leaves the filesystem unfrozen. -/
theorem frozen_until_thaw (ρ : Run step {} N) :
    ((∀ i < N, (ρ.state i).Calm) → ∀ i < N, ∀ f x, ρ.act i = .freeze f .returns →
      (ρ.state i).phase f = some (.answered x) → x ≠ .failed →
      ∀ j, i < j → j ≤ N → (ρ.state j).frozen = true ∨
        ∃ c k t, i < c ∧ c < k ∧ k < j ∧ ρ.act c = .thaw t ∧ ρ.act k = .thawLands t false) ∧
    ∀ j ≤ N, (ρ.state j).frozen = true → ∃ f k, k < j ∧ ρ.act k = .freeze f (.lands false) ∧
      (∀ m, k < m → m ≤ j → (ρ.state m).frozen = true) ∧
      ((∀ i < j, ρ.act i ≠ .freeze f .expires) ∨ (ρ.state j).phase f = some .late ∧
        ∃ s', step (ρ.state j) (.freeze f .undo) = some s' ∧ s'.frozen = false) := by
  refine ⟨fun hcalm i _ f x ha hf hx j hij hj => ?_, fun j hj hfr => ?_⟩
  · rcases frozen_or_thawed ρ hcalm ha hf hx hij hj with h | ⟨h, -⟩
    exacts [.inr h, .inl h]
  · obtain ⟨f, k, hk, ha, hm, hown⟩ := owned_of_frozen ρ hj hfr
    refine ⟨f, k, hk, ha, hm, ?_⟩
    rcases hown with hp | ⟨-, hall⟩
    · simp only [pending, Bool.or_eq_true, decide_eq_true_eq] at hp
      rcases hp with hp | hp
      · exact .inr ⟨hp, undo_of_late hp⟩
      · exact .inl (unexpired_of_active ρ hj (by rw [hp]; rfl))
    · exact .inl hall

/-- A freeze, its return, and a thaw. -/
def pairedActions : List Action :=
  [.freeze 0 .call, .freeze 0 (.lands false), .freeze 0 .returns, .thaw 0, .thawLands 0 false]

theorem paired_possible :
    allSteps step (fun s _ => decide s.Calm) {} pairedActions := by
  decide

def pairedRun : Run step {} 5 := Run.ofActions _ _ _ _ paired_possible

theorem frozen_until_thaw_paired :
    (pairedRun.state 3).frozen = true ∧ (pairedRun.state 5).frozen = false ∧
      ∃ c k t, 2 < c ∧ c < k ∧ k < 5 ∧ pairedRun.act c = .thaw t ∧
        pairedRun.act k = .thawLands t false := by
  have hcalm (i : ℕ) (hi : i < 5) : (pairedRun.state i).Calm :=
    of_decide_eq_true (Run.ofActions_spec paired_possible hi)
  have h := (frozen_until_thaw pairedRun).1 hcalm 2 (by decide) 0 .ok rfl (by decide) (by decide)
  exact ⟨(h 3 (by decide) (by decide)).resolve_right (by omega), by decide,
    (h 5 (by decide) (by decide)).resolve_left (by decide)⟩

/-- The ioctl of a call abandoned at its deadline lands, a second call takes EBUSY for a success,
and the watcher of the first thaws the filesystem. -/
def adoptedActions : List Action :=
  [.freeze 0 .call, .freeze 0 .expires, .freeze 0 (.lands false), .freeze 1 .call,
    .freeze 1 (.lands false), .freeze 1 .returns, .freeze 0 .undo]

theorem adopted_possible : allSteps step (fun _ _ => true) {} adoptedActions := by
  decide

def adoptedRun : Run step {} 7 := Run.ofActions _ _ _ _ adopted_possible

/-- The second call has returned without an error, and there is no `Thaw`. -/
theorem adopted_freeze_lifted :
    adoptedRun.act 5 = .freeze 1 .returns ∧
      (adoptedRun.state 5).phase 1 = some (.answered .busy) ∧
      (adoptedRun.state 7).frozen = false ∧ ∀ i < 7, ∀ t, adoptedRun.act i ≠ .thaw t := by
  have hnone : ∀ i < 7, (adoptedRun.act i matches .thaw _) = false := by decide
  refine ⟨rfl, by decide, by decide, fun i hi t h => ?_⟩
  simpa [h] using hnone i hi

end Miroir.Freezer
