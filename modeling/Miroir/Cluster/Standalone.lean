import Miroir.Cluster.Fresh

/-!
# A standalone round from its open to its close

`LiveAt ρ t x r u`: at moment `t` the API server holds snapshot `x` as `u`, in its round `r`.
`round_step` says where such a state comes from: the round was opened just now, or it was live
before, and then at most one slot was patched. So a round is live from its open on without a gap
(`LiveAt.since`), a slot that is up stays up (`LiveAt.raised_kept`), and in a run whose writes act
on up-to-date views a leg that is cut stays cut (`LiveAt.done_kept`).
-/

namespace Miroir

open Process

variable {Γ : Config} {s₀ : State} {N i t : ℕ} (ρ : Run (step Γ) s₀ N)

/-- At moment `t` snapshot `x` is `u` and in its round `r`. -/
structure LiveAt (t : ℕ) (x : String) (r : Round) (u : Snapshot) : Prop where
  held : (ρ.state t).api.snap x = some u
  live : u.status.ioSuspended = true
  round : u.status.round = some r

/-- A slot patch of a round: the pass raises its barrier, or has cut its leg. -/
inductive SlotPatch (q : Request) (x : String) (v : Snapshot) (vol : Volume) :
    SnapshotNodeState → Prop
  | raises (hv : diskfulOn vol q.worker.node = true)
      (ho : raised (v.status.perNode.lookup q.worker.node) = false) : SlotPatch q x v vol .suspended
  | cuts {pool l t₁ t₂} (hc : CutPhase (Γ.agent q.worker.node) x l v vol pool)
      (hl : q.log = ⟨t₂, .snapshot pool vol.name x, .ok ()⟩ ::
        ⟨t₁, .deleteSnapshot pool vol.name x, .ok ()⟩ :: l) : SlotPatch q x v vol .done

/-- The step to a state in which round `r` is live. -/
inductive RoundStep (t : ℕ) (x : String) (r : Round) (u : Snapshot) : Prop
  | opens {q v vol c} (hq : (ρ.act t).landing (ρ.state t) = some q) (hw : q.write = .applySnap x c)
      (hc : c.ioSuspended = true) (h : SnapPass ρ t q.worker q.job q.log x v vol)
      (hr : r = ⟨q.worker.node, t⟩)
      (hself : u.status.perNode.lookup q.worker.node = some .suspended)
      (hpeers : ∀ n ∈ Γ.diskful x, n ≠ q.worker.node → u.status.perNode.lookup n = some .pending)
  | keeps {w} (h : LiveAt ρ t x r w) (hs : u.status = w.status)
  | patches {q v vol w stamp state} (hq : (ρ.act t).landing (ρ.state t) = some q)
      (hw : q.write = .patchSlot x q.worker.node stamp state)
      (h : SnapPass ρ t q.worker q.job q.log x v vol) (hp : SlotPatch (Γ := Γ) q x v vol state)
      (hlive : LiveAt ρ t x r w)
      (hs : u.status.perNode = w.status.perNode.insert q.worker.node state)

theorem round_step (h₀ : Initial Γ s₀) (ht : t < N) {x : String} {r : Round} {u : Snapshot}
    (h : LiveAt ρ (t + 1) x r u) : RoundStep ρ t x r u := by
  have hle := Nat.le_of_lt ht
  obtain ⟨hu, hl, hr⟩ := h
  have hc := (stepped ρ ht).snap_cases x
  rw [hu] at hc
  generalize hold : (ρ.state t).api.snap x = old at hc
  cases hc with
  | same => exact .keeps ⟨hold, hl, hr⟩ rfl
  | metadata h => exact .keeps ⟨hold, h.status ▸ hl, h.status ▸ hr⟩ h.status
  | @apply w q c pruned hq hw =>
    have hround : r = ⟨q.worker.node, t⟩ := by
      have hl : c.ioSuspended := hl
      simpa [SnapshotStatus.apply, hl, tick_eq ρ h₀ hle, eq_comm] using hr
    cases snap_landing h₀ hle hq hw (.inl ⟨c, rfl⟩) with
    | @opens v vol T h hr' hi =>
      refine .opens hq hw hl h hround ?_ fun n hn hne => ?_
      · exact lookup_applySlots_of_stated (by simp [snapshotStatusAC, openStatus_lookup])
      · rw [mem_diskful h.spec] at hn
        exact lookup_applySlots_of_stated (by simp [snapshotStatusAC, openStatus_lookup, hne, hn])
    | voids | publishes | member => cases hl
    | single h hrd hv =>
      obtain ⟨r', T', hr'⟩ := liveRound ρ h₀ hle h.held hl
      obtain ⟨spec, hs, hd⟩ := hr'.drbd
      obtain rfl := Option.some.inj (hs.symm.trans h.spec)
      simp [hv] at hd
  | @patch w q node stamp state hq hw hlive hstamp =>
    cases snap_landing h₀ hle hq hw (.inr ⟨_, _, _, rfl⟩) with
    | raises h hrd hlv hsv hv ho => exact .patches hq hw h (.raises hv ho) ⟨hold, hl, hr⟩ rfl
    | cuts h hc hsv hlog => exact .patches hq hw h (.cuts hc hlog) ⟨hold, hl, hr⟩ rfl

variable {ρ} {x : String} {r : Round} {u v : Snapshot}

theorem LiveAt.snapHeld (h₀ : Initial Γ s₀) (hi : i ≤ N) (h : LiveAt ρ i x r u) :
    SnapHeld ρ i x u := ⟨_, api_mem ρ h₀ hi, h.held⟩

theorem LiveAt.openedAt_lt (h₀ : Initial Γ s₀) (hi : i ≤ N) (h : LiveAt ρ i x r u) :
    r.openedAt < i := (snapOk ρ h₀ hi (api_mem ρ h₀ hi) h.held).round r h.round

/-- A round is live from its open on. -/
theorem LiveAt.since (h₀ : Initial Γ s₀) (hi : i ≤ N) (h : LiveAt ρ i x r u)
    (hr : r.openedAt < t) (ht : t ≤ i) : ∃ w, LiveAt ρ t x r w := by
  induction i, ht using Nat.le_induction generalizing u with
  | base => exact ⟨u, h⟩
  | succ k hk ih =>
    cases round_step ρ h₀ hi h with
    | opens _ _ _ _ hr' =>
      rw [hr'] at hr
      exact absurd hr (by simp; omega)
    | keeps h => exact ih (by omega) h
    | patches _ _ _ _ h => exact ih (by omega) h

/-- What holds of the slots at one moment of a round, and is kept by its slot patches, holds from
then on. -/
theorem LiveAt.slots_kept {P : Slots String → Prop} (h₀ : Initial Γ s₀) (hi : i ≤ N)
    (hv : LiveAt ρ t x r v) (hti : t ≤ i) (hu : LiveAt ρ i x r u)
    (hpatch : ∀ k < i, ∀ {q v vol w stamp state}, (ρ.act k).landing (ρ.state k) = some q →
      q.write = .patchSlot x q.worker.node stamp state →
      SnapPass ρ k q.worker q.job q.log x v vol → SlotPatch (Γ := Γ) q x v vol state →
      LiveAt ρ k x r w → P w.status.perNode → P (w.status.perNode.insert q.worker.node state))
    (h : P v.status.perNode) : P u.status.perNode := by
  induction i, hti using Nat.le_induction generalizing u with
  | base =>
    obtain rfl := Option.some.inj (hv.held.symm.trans hu.held)
    exact h
  | succ k hk ih =>
    have ih := fun {w} hw => ih (u := w) (by omega) hw fun j hj => hpatch j (by omega)
    cases round_step ρ h₀ hi hu with
    | opens _ _ _ _ hr =>
      have := hv.openedAt_lt h₀ (by omega)
      rw [hr] at this
      exact absurd this (by simp; omega)
    | keeps hw hs =>
      rw [hs]
      exact ih hw
    | patches hq hw hp hpt hlive hs =>
      rw [hs]
      exact hpatch k (by omega) hq hw hp hpt hlive (ih hlive)

theorem SlotPatch.raised {q : Request} {vol : Volume} {state : SnapshotNodeState}
    (h : SlotPatch (Γ := Γ) q x v vol state) : raised (some state) := by
  cases h <;> rfl

/-- Within a round a slot that is up stays up. -/
theorem LiveAt.raised_kept (h₀ : Initial Γ s₀) (hi : i ≤ N) (hv : LiveAt ρ t x r v) (hti : t ≤ i)
    (hu : LiveAt ρ i x r u) {n : String} (h : raised (v.status.perNode.lookup n)) :
    raised (u.status.perNode.lookup n) := by
  refine LiveAt.slots_kept (P := fun m => raised (m.lookup n)) h₀ hi hv hti hu ?_ h
  intro k _ q _ _ w _ state _ _ _ hp _ hw
  by_cases hn : n = q.worker.node
  · rw [hn, AList.lookup_insert]
    exact hp.raised
  · rwa [AList.lookup_insert_ne hn]

/-- The opener's slot is up for the whole round. -/
theorem LiveAt.opener_raised (h₀ : Initial Γ s₀) (hi : i ≤ N) (h : LiveAt ρ i x r u) :
    raised (u.status.perNode.lookup r.opener) := by
  have hlt := h.openedAt_lt h₀ hi
  obtain ⟨w, hw⟩ := h.since h₀ hi (Nat.lt_succ_self r.openedAt) hlt
  refine hw.raised_kept h₀ hi hlt h ?_
  cases round_step ρ h₀ (Nat.lt_of_lt_of_le hlt hi) hw with
  | opens _ _ _ _ hr hself =>
    rw [hr, hself]
    rfl
  | keeps h => exact absurd (h.openedAt_lt h₀ (by omega)) (Nat.lt_irrefl _)
  | patches _ _ _ _ h => exact absurd (h.openedAt_lt h₀ (by omega)) (Nat.lt_irrefl _)

/-- A round has one stamp. -/
theorem LiveAt.stamp_eq (h₀ : Initial Γ s₀) (ht : t ≤ N) (hi : i ≤ N) (hv : LiveAt ρ t x r v)
    (hu : LiveAt ρ i x r u) : v.status.suspendedAt = u.status.suspendedAt := by
  obtain ⟨r₁, T₁, h₁⟩ := liveRound ρ h₀ ht (hv.snapHeld h₀ ht) hv.live
  obtain ⟨r₂, T₂, h₂⟩ := liveRound ρ h₀ hi (hu.snapHeld h₀ hi) hu.live
  obtain rfl := Option.some.inj (hv.round.symm.trans h₁.round)
  obtain rfl := Option.some.inj (hu.round.symm.trans h₂.round)
  obtain ⟨-, q₁, c₁, hq₁, -, hw₁, -, hT₁⟩ := h₁.opens
  obtain ⟨-, q₂, c₂, hq₂, -, hw₂, -, hT₂⟩ := h₂.opens
  obtain rfl := Option.some.inj (hq₁.symm.trans hq₂)
  obtain rfl : c₁ = c₂ := by simpa using hw₁.symm.trans hw₂
  rw [h₁.stamp, h₂.stamp, ← hT₁, ← hT₂]

/-- A version the API server has held was there at some moment. -/
theorem SnapHeld.at (h₀ : Initial Γ s₀) (hi : i ≤ N) (h : SnapHeld ρ i x u) :
    ∃ t ≤ i, (ρ.state t).api.snap x = some u := by
  obtain ⟨a, ha, hx⟩ := h
  refine ρ.invariant (P := fun i s => ∀ a ∈ s.versions, a.snap x = some u →
    ∃ t ≤ i, (ρ.state t).api.snap x = some u) ?_ ?_ hi a ha hx
  · intro a ha hx
    rw [h₀.versions, List.mem_singleton] at ha
    exact ⟨0, Nat.le_refl 0, by rw [ρ.start, ← ha, hx]⟩
  · intro i hi ih a ha hx
    rcases (stepped ρ hi).versions_cases.2 a ha with ha | rfl
    · obtain ⟨t, ht, hx⟩ := ih a ha hx
      exact ⟨t, Nat.le_succ_of_le ht, hx⟩
    · exact ⟨i + 1, Nat.le_refl _, hx⟩

section Fresh

variable (hw : ∀ j < N, writesFresh (ρ.state j) (ρ.act j) = true)
include hw

/-- A slot patch finds the slot as its pass read it. -/
theorem slot_eq_of_patch {q : Request} {vol : Volume} {w : Snapshot} {stamp : Stamp}
    {state : SnapshotNodeState} (ht : t < N) (hq : (ρ.act t).landing (ρ.state t) = some q)
    (hwr : q.write = .patchSlot x q.worker.node stamp state)
    (h : SnapPass ρ t q.worker q.job q.log x v vol) (hlive : LiveAt ρ t x r w) :
    v.status.round = some r ∧
      v.status.perNode.lookup q.worker.node = w.status.perNode.lookup q.worker.node := by
  obtain ⟨w', hw', hag⟩ := ownFresh_snapshot
    (writesFresh_patch (hw t ht) hq (.inl ⟨_, _, _, _, hwr⟩)) h.task (h.job ▸ h.view)
  rw [h.job, hlive.held] at hw'
  cases hw'
  exact ⟨hag.round.trans hlive.round, hag.own⟩

/-- Within a round a leg that is cut stays cut. -/
theorem LiveAt.done_kept (h₀ : Initial Γ s₀) (hi : i ≤ N) (hv : LiveAt ρ t x r v) (hti : t ≤ i)
    (hu : LiveAt ρ i x r u) {n : String} (h : v.status.perNode.lookup n = some .done) :
    u.status.perNode.lookup n = some .done := by
  refine LiveAt.slots_kept (P := fun m => m.lookup n = some .done) h₀ hi hv hti hu ?_ h
  intro k hk q _ _ w _ state hq hwr hpass hp hlive hdone
  by_cases hn : n = q.worker.node
  · subst hn
    cases hp with
    | raises _ ho =>
      rw [(slot_eq_of_patch hw (by omega) hq hwr hpass hlive).2, hdone] at ho
      cases ho
    | cuts => exact AList.lookup_insert ..
  · rwa [AList.lookup_insert_ne hn]

end Fresh

end Miroir
