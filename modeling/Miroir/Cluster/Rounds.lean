import Miroir.Cluster.Landings

/-!
# The rounds of a run

What holds of the rounds of every run, whatever the passes have read. A live object names the round
it is in, and the landing that opened it (`liveRound`, `groupRound`); it is not ready; and within a
round a slot that is up stays up. The slots of a group are taken from the specs, since a pass that
has resolved its members has read just those (`GroupPass.mem_diskfulSlots`).
-/

namespace Miroir

open Process Data

variable {Γ : Config} {s₀ : State} {N i : ℕ} (ρ : Run (step Γ) s₀ N)

variable {log : PassLog} {g x : String} {w : SnapshotGroup} {q : Worker} {ms : List GroupMember}

variable {ρ} in
/-- A pass reads a round as expired only after its deadline. -/
theorem Expired.past {k : Worker} {job : String} {stamp : Option Stamp}
    (h : Expired log stamp) (hl : LogTrue ρ k job log i) (hi : i ≤ N) :
    pastDeadline (ρ.state i).clock stamp := by
  obtain ⟨τ, t, he, hpast⟩ := h
  obtain ⟨hτ, rfl⟩ := hl.now he
  exact pastDeadline_mono (clock_mono ρ (Nat.le_of_lt hτ) hi) hpast

/-! ## Snapshots -/

/-- Round `r` of snapshot `x` was opened with stamp `T`. -/
def OpensRound (x : String) (r : Round) (T : Stamp) : Prop :=
  r.openedAt < N ∧ ∃ q c, (ρ.act r.openedAt).landing (ρ.state r.openedAt) = some q ∧
    q.worker.node = r.opener ∧ q.write = .applySnap x c ∧ c.ioSuspended = true ∧
    c.suspendedAt = some T

/-- A live round of `w` was opened with the stamp `w` shows, over a replicated volume. -/
structure LiveRound (x : String) (w : Snapshot) (r : Round) (T : Stamp) : Prop where
  round : w.status.round = some r
  stamp : w.status.suspendedAt = some T
  opens : OpensRound ρ x r T
  drbd : ∃ spec, Γ.spec (Γ.volumeOf x) = some spec ∧ spec.drbd = true

theorem liveRound (h₀ : Initial Γ s₀) (hi : i ≤ N) {w : Snapshot}
    (hw : SnapHeld ρ i x w) (hl : w.status.ioSuspended) : ∃ r T, LiveRound ρ x w r T := by
  obtain ⟨v, hv, hx⟩ := hw
  refine snapVersions ρ (P := fun _ x w => w.status.ioSuspended → ∃ r T, LiveRound ρ x w r T)
    h₀ ?_ (fun _ _ _ _ h => h) ?_ hi hv hx hl
  · intro x w hx hl
    simp [(h₀.snaps x w hx).2.2.2] at hl
  · intro i hi ih x old new ho hnew hc hold hl
    cases hc with
    | same => exact hold _ rfl hl
    | metadata h =>
      obtain ⟨r, T, hr⟩ := hold _ rfl (h.status ▸ hl)
      exact ⟨r, T, by rw [h.status]; exact hr.round, by rw [h.status]; exact hr.stamp, hr.opens,
        hr.drbd⟩
    | patch =>
      obtain ⟨r, T, hr⟩ := hold _ rfl hl
      exact ⟨r, T, hr.round, hr.stamp, hr.opens, hr.drbd⟩
    | @apply w q c pruned hq hw =>
      cases snap_landing h₀ (Nat.le_of_lt hi) hq hw (.inl ⟨c, rfl⟩) with
      | @opens u vol t h hr hi' =>
        refine ⟨⟨q.worker.node, i⟩, stampOf t, ?_, rfl, ⟨hi, q, _, hq, rfl, hw, rfl, rfl⟩,
          vol.spec, h.spec, hr.drbd⟩
        simp [SnapshotStatus.apply, snapshotStatusAC, openStatus, tick_eq ρ h₀ (Nat.le_of_lt hi)]
      | voids | publishes | member => cases hl
      | single h hr hv =>
        obtain ⟨v, hv', hx'⟩ := h.held
        obtain ⟨r, T, hr⟩ := ih v hv' x _ hx' hl
        obtain ⟨spec, hs, hd⟩ := hr.drbd
        rw [h.spec] at hs
        cases hs
        simp [hv] at hd

/-- A snapshot in a live round is not ready. -/
theorem snap_unready_of_live (h₀ : Initial Γ s₀) (hi : i ≤ N) {w : Snapshot}
    (hw : SnapHeld ρ i x w) (hl : w.status.ioSuspended) : w.status.readyToUse = false := by
  obtain ⟨v, hv, hx⟩ := hw
  refine snapVersions ρ (P := fun _ _ w => w.status.ioSuspended →
    w.status.readyToUse = false) h₀ ?_ (fun _ _ _ _ h => h) ?_ hi hv hx hl
  · intro x w hx _
    simp [(h₀.snaps x w hx).2.2.2]
  · intro i hi ih x old new ho hnew hc hold hl
    cases hc with
    | same => exact hold _ rfl hl
    | metadata h => exact h.status ▸ hold _ rfl (h.status ▸ hl)
    | @patch w => exact hold w rfl hl
    | @apply w q c pruned hq hw =>
      cases snap_landing h₀ (Nat.le_of_lt hi) hq hw (.inl ⟨c, rfl⟩) with
      | opens h hr => exact hr.unready
      | voids | publishes | member => cases hl
      | single h hr hv =>
        obtain ⟨r, T, hlive⟩ := liveRound ρ h₀ (Nat.le_of_lt hi) h.held hl
        obtain ⟨spec, hs, hd⟩ := hlive.drbd
        obtain rfl := Option.some.inj (hs.symm.trans h.spec)
        simp [hv] at hd

/-- A snapshot that is there was there before, and a deletion mark stays. -/
theorem SnapChange.deleting {s : State} {l : Option Request} {old : Option Snapshot}
    {w : Snapshot} (h : SnapChange s l x old (some w)) :
    ∃ u, old = some u ∧ (u.deleting → w.deleting) := by
  cases h with
  | same => exact ⟨w, rfl, id⟩
  | metadata h => exact ⟨_, rfl, h.deleting⟩
  | apply => exact ⟨_, rfl, id⟩
  | patch => exact ⟨_, rfl, id⟩

/-- A snapshot once read as deleted is still marked deleted. -/
theorem deleting_of_held (h₀ : Initial Γ s₀) (hi : i ≤ N) {w u : Snapshot}
    (hw : SnapHeld ρ i x w) (hd : w.deleting) (hu : (ρ.state i).api.snap x = some u) :
    u.deleting := by
  refine ρ.invariant (P := fun _ s => ∀ v ∈ s.versions, ∀ w, v.snap x = some w →
    w.deleting → ∀ u, s.api.snap x = some u → u.deleting) ?_ ?_ hi _ hw.choose_spec.1
    w hw.choose_spec.2 hd u hu
  · intro v hv w hw hd u hu
    rw [h₀.versions, List.mem_singleton] at hv
    rw [hv, hu] at hw
    exact Option.some.inj hw ▸ hd
  · intro i hi ih v hv w hw hd u hu
    rcases (stepped ρ hi).versions_cases.2 v hv with hv | rfl
    · have hc := (stepped ρ hi).snap_cases x
      rw [hu] at hc
      obtain ⟨u', hu', hdel⟩ := hc.deleting
      exact hdel (ih v hv w hw hd u' hu')
    · rw [hu] at hw
      exact Option.some.inj hw ▸ hd

/-! ## The slots of a group -/

theorem mem_diskful {n : String} {spec : VolumeSpec} (h : Γ.spec (Γ.volumeOf x) = some spec) :
    n ∈ Γ.diskful x ↔ n ∈ spec.diskfulNodes := by
  simp [Config.diskful, h]

/-- The diskful legs of a group's members, by slot. -/
def Config.slots (Γ : Config) (g : String) : List SlotKey :=
  (Γ.namesOf g).flatMap fun x => (Γ.diskful x).map fun n => (Γ.volumeOf x, n)

theorem mem_slots {k : SlotKey} :
    k ∈ Γ.slots g ↔ ∃ x ∈ Γ.namesOf g, Γ.volumeOf x = k.1 ∧ k.2 ∈ Γ.diskful x := by
  simp only [Config.slots, List.mem_flatMap, List.mem_map]
  constructor
  · rintro ⟨x, hx, n, hn, rfl⟩
    exact ⟨x, hx, rfl, hn⟩
  · rintro ⟨x, hx, hv, hn⟩
    exact ⟨x, hx, k.2, hn, by rw [hv]⟩

/-- The diskless legs of a group's members, by slot. -/
def Config.disklessSlots (Γ : Config) (g : String) : List SlotKey :=
  (Γ.namesOf g).flatMap fun x => ((Γ.spec (Γ.volumeOf x)).map fun spec =>
    (disklessNodes ⟨Γ.volumeOf x, spec, {}⟩).map fun n => (Γ.volumeOf x, n)).getD []

variable {ρ} in
/-- A pass has resolved exactly the members of its group. -/
theorem GroupPass.mem_diskfulSlots {job : String}
    (h : GroupPass ρ i q job log g w ms) (k : SlotKey) :
    k ∈ diskfulSlots ms ↔ k ∈ Γ.slots g := by
  rw [mem_slots]
  simp only [diskfulSlots, List.mem_flatMap, List.mem_map]
  constructor
  · rintro ⟨m, hm, n, hn, rfl⟩
    obtain ⟨x, hx, hmx⟩ := exists_of_forall₂ h.members hm
    exact ⟨x, hx, hmx.volume.symm, (mem_diskful hmx.spec).mpr hn⟩
  · rintro ⟨x, hx, hv, hn⟩
    obtain ⟨m, hm, hmx⟩ := exists_right_of_forall₂ h.members hx
    exact ⟨m, hm, k.2, (mem_diskful hmx.spec).mp hn, by rw [hmx.volume, hv]⟩

variable {ρ} in
theorem GroupPass.mem_disklessSlots {job : String}
    (h : GroupPass ρ i q job log g w ms) (k : SlotKey) :
    k ∈ disklessSlots ms ↔ k ∈ Γ.disklessSlots g := by
  simp only [disklessSlots, Config.disklessSlots, List.mem_flatMap]
  constructor
  · rintro ⟨m, hm, hk⟩
    obtain ⟨x, hx, hmx⟩ := exists_of_forall₂ h.members hm
    refine ⟨x, hx, ?_⟩
    rw [hmx.spec]
    rw [hmx.volume] at hk
    exact hk
  · rintro ⟨x, hx, hk⟩
    obtain ⟨m, hm, hmx⟩ := exists_right_of_forall₂ h.members hx
    refine ⟨m, hm, ?_⟩
    rw [hmx.spec] at hk
    rw [hmx.volume]
    exact hk

variable {ρ} in
theorem GroupPass.allSlotsDone_iff {job : String}
    (h : GroupPass ρ i q job log g w ms) :
    allSlotsDone w.status ms ↔ ∀ k ∈ Γ.slots g, w.status.perLeg.lookup k = some .done := by
  simp only [allSlotsDone, List.all_eq_true, decide_eq_true_eq]
  exact forall_congr' fun k => imp_congr_left (h.mem_diskfulSlots k)

theorem mem_slotsOn {node : String} {legs : List GroupMember} {k : SlotKey} :
    k ∈ slotsOn node legs ↔ k.2 = node ∧ ∃ m ∈ legs, m.vol.name = k.1 := by
  simp only [slotsOn, List.mem_map]
  constructor
  · rintro ⟨m, hm, rfl⟩
    exact ⟨rfl, m, hm, rfl⟩
  · rintro ⟨rfl, m, hm, hv⟩
    exact ⟨m, hm, by rw [hv]⟩

/-- What the open of a round makes of a diskful slot: it is up if the driver raised it, and
reset otherwise. -/
theorem openGroup_slot {self : String} {raise : List GroupMember} {T : Stamp}
    {st old : GroupStatus} {pruned : List SlotKey} {k : SlotKey} {opener : String} {t : ℕ}
    {seen : Option Round} (hk : k ∈ diskfulSlots ms) :
    let new := old.apply (groupStatusAC (openGroupStatus self ms raise T st)) pruned opener t seen
    new.observed.lookup k = some seen ∧
      (new.perLeg.lookup k = some .suspended ∧ k.2 = self ∨
        new.perLeg.lookup k = some .pending) := by
  intro new
  have hstated : (openGroupStatus self ms raise T st).perLeg.lookup k = some .suspended ∧
      k.2 = self ∨ (openGroupStatus self ms raise T st).perLeg.lookup k = some .pending := by
    by_cases hr : k ∈ slotsOn self raise
    · exact .inl ⟨by simp [openGroupStatus_lookup, hr], (mem_slotsOn.mp hr).1⟩
    · exact .inr (by simp [openGroupStatus_lookup, hr, hk])
  constructor
  · have hmem : k ∈ (openGroupStatus self ms raise T st).perLeg.keys := by
      rw [← AList.mem_keys, ← AList.lookup_isSome]
      rcases hstated with ⟨h, -⟩ | h <;> rw [h] <;> rfl
    exact (lookup_foldl_insert _ _ _ _).trans (if_pos hmem)
  · exact hstated.imp (fun h => ⟨lookup_applySlots_of_stated h.1, h.2⟩) lookup_applySlots_of_stated

/-! ## Groups -/

/-- Round `r` of group `g` was opened by its opener at its moment. -/
def OpensGroup (g : String) (r : Round) : Prop :=
  r.openedAt < N ∧ ∃ q c, (ρ.act r.openedAt).landing (ρ.state r.openedAt) = some q ∧
    q.worker.node = r.opener ∧ q.write = .applyGroup g c ∧ c.ioSuspended = true

/-- A group that is mid-round names its round. -/
theorem groupRound (h₀ : Initial Γ s₀) (hi : i ≤ N)
    (hw : GroupHeld ρ i g w) (hl : w.status.ioSuspended) :
    ∃ r, w.status.round = some r ∧ OpensGroup ρ g r := by
  obtain ⟨v, hv, hx⟩ := hw
  refine groupVersions ρ (P := fun _ g w => w.status.ioSuspended →
    ∃ r, w.status.round = some r ∧ OpensGroup ρ g r) h₀ ?_ (fun _ _ _ _ h => h) ?_ hi hv hx hl
  · intro g w hx hl
    simp [(h₀.groups g w hx).2.2] at hl
  · intro i hi ih g old new ho hnew hc hold hl
    cases hc with
    | same => exact hold _ rfl hl
    | metadata h => exact h.status ▸ hold _ rfl (h.status ▸ hl)
    | @merge w => exact hold w rfl hl
    | @apply w q c pruned hq hw =>
      have hl : c.ioSuspended := hl
      exact ⟨⟨q.worker.node, i⟩, by simp [GroupStatus.apply, hl, tick_eq ρ h₀ (Nat.le_of_lt hi)],
        hi, q, c, hq, rfl, hw, hl⟩

/-- A group in a live round is not ready. -/
theorem group_unready_of_live (h₀ : Initial Γ s₀) (hi : i ≤ N)
    (hw : GroupHeld ρ i g w) (hl : w.status.ioSuspended) : w.status.readyToUse = false := by
  obtain ⟨v, hv, hx⟩ := hw
  refine groupVersions ρ (P := fun _ _ w => w.status.ioSuspended →
    w.status.readyToUse = false) h₀ ?_ (fun _ _ _ _ h => h) ?_ hi hv hx hl
  · intro g w hx _
    simp [(h₀.groups g w hx).2.2]
  · intro i hi ih g old new ho hnew hc hold hl
    cases hc with
    | same => exact hold _ rfl hl
    | metadata h => exact h.status ▸ hold _ rfl (h.status ▸ hl)
    | @merge w => exact hold w rfl hl
    | @apply w q c pruned hq hw =>
      cases group_landing h₀ (Nat.le_of_lt hi) hq hw (.inl ⟨c, rfl⟩) with
      | opens h hr => exact hr.unready
      | voids | seals => cases hl

theorem GroupChange.exists_old {s : State} {l : Option Request}
    {old : Option SnapshotGroup} (h : GroupChange s l g old (some w)) :
    ∃ u, old = some u := by
  cases h <;> exact ⟨_, rfl⟩

/-- Within a round the slots only become `Suspended` or `Done`, so what holds of these and of a slot
at one moment of the round holds of the slot from then on. -/
theorem slot_kept_of_held {P : Option SnapshotNodeState → Prop} (hs : P (some .suspended))
    (hd : P (some .done)) (h₀ : Initial Γ s₀) (hi : i ≤ N) {v u : SnapshotGroup}
    (hv : GroupHeld ρ i g v) (hl : v.status.ioSuspended)
    (hu : (ρ.state i).api.group g = some u) (hlu : u.status.ioSuspended)
    (hr : v.status.round = u.status.round) {k : SlotKey} (hk : P (v.status.perLeg.lookup k)) :
    P (u.status.perLeg.lookup k) := by
  refine ρ.invariant (P := fun _ s => ∀ a ∈ s.versions, ∀ v, a.group g = some v →
    v.status.ioSuspended → P (v.status.perLeg.lookup k) →
    ∀ u, s.api.group g = some u → u.status.ioSuspended → v.status.round = u.status.round →
    P (u.status.perLeg.lookup k)) ?_ ?_ hi _ hv.choose_spec.1 v hv.choose_spec.2 hl hk u hu hlu hr
  · intro a ha v hv hl
    rw [h₀.versions, List.mem_singleton] at ha
    simp [(h₀.groups g v (ha ▸ hv)).2.2] at hl
  · intro i hi ih a ha v hv hl hk u hu hlu hr
    rcases (stepped ρ hi).versions_cases.2 a ha with ha | rfl
    · have hc := (stepped ρ hi).group_cases g
      rw [hu] at hc
      generalize hold : (ρ.state i).api.group g = old at hc
      cases hc with
      | same => exact ih a ha v hv hl hk u hold hlu hr
      | metadata h =>
        rw [h.status] at hlu hr ⊢
        exact ih a ha v hv hl hk _ hold hlu hr
      | @apply w q c pruned hq hw =>
        -- An apply that leaves the group mid-round opens a round later than the one held.
        obtain ⟨r, hvr, -⟩ := groupRound ρ h₀ (Nat.le_of_lt hi) ⟨a, ha, hv⟩ hl
        have hlt := (groupOk ρ h₀ (Nat.le_of_lt hi) ha hv).round r hvr
        have hc : c.ioSuspended := hlu
        rw [hvr] at hr
        obtain rfl : r = ⟨q.worker.node, (ρ.state i).tick⟩ := by
          simpa [GroupStatus.apply, hc] using hr
        simp [tick_eq ρ h₀ (Nat.le_of_lt hi)] at hlt
      | @merge w q slots hq hw =>
        have hw' := ih a ha v hv hl hk w hold hlu hr
        cases group_landing h₀ (Nat.le_of_lt hi) hq hw (.inr ⟨slots, rfl⟩) with
        | raises => exact mergeSlots_kept w.status _ _ hs hw'
        | cuts => exact mergeSlots_kept w.status _ _ hd hw'
    · rw [hu] at hv
      exact Option.some.inj hv ▸ hk

end Miroir
