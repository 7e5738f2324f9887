import Miroir.Cluster.Fresh
import Miroir.Safety.GroupTag

/-!
# Published snapshots are immutable

The cut phase deletes a leg and cuts it again, and it is entered on a cached status. A node whose
cache has not caught up with its own `Done` slot enters it a second time, after another node has
published the snapshot (`stale_view_recuts`). `published_immutable` proves that this is all there
is to fear: in every run whose cuts and status writes act on up-to-date views, a ready snapshot of
a replicated volume, standalone or grouped, stays ready, and no pass deletes or cuts a leg of it
until it is marked deleted.
-/

namespace Miroir

open Process

variable {Γ : Config} {s₀ : State} {N i : ℕ} (ρ : Run (step Γ) s₀ N)

variable {g x : String} {u : SnapshotGroup} {w : Snapshot}

/-- Members name their group, as the CSI controller creates them. -/
def Config.Grouped (Γ : Config) : Prop :=
  ∀ g x, x ∈ Γ.namesOf g → Γ.groupOf x = g ∧ g ≠ ""

/-! ## A published member's group -/

/-- With a leg cut, no diskless slot of the round is pending. -/
def GatePassed (Γ : Config) (g : String) (u : SnapshotGroup) : Prop :=
  (∃ k ∈ Γ.slots g, u.status.perLeg.lookup k = some .done) →
    ∀ k ∈ Γ.disklessSlots g, u.status.perLeg.lookup k ≠ some .pending

theorem gatePassed (h₀ : Initial Γ s₀)
    (hw : ∀ i < N, writesFresh (ρ.state i) (ρ.act i)) (hi : i ≤ N)
    (hu : (ρ.state i).api.group g = some u)
    (hl : u.status.ioSuspended) : GatePassed Γ g u := by
  refine ρ.invariant (P := fun _ s => ∀ u, s.api.group g = some u →
    u.status.ioSuspended → GatePassed Γ g u) ?_ ?_ hi u hu hl
  · intro u hu hl
    simp [(h₀.groups g u hu).2.2] at hl
  · intro i hi ih u hu hl
    have hle := Nat.le_of_lt hi
    have hc := (stepped ρ hi).group_cases g
    rw [hu] at hc
    generalize hold : (ρ.state i).api.group g = old at hc
    cases hc with
    | same => exact ih u hold hl
    | metadata h =>
      have := ih _ hold (h.status ▸ hl)
      rwa [GatePassed, h.status]
    | @apply w q c pruned hq hwr =>
      cases group_landing h₀ hle hq hwr (.inl ⟨c, rfl⟩) with
      | opens h hr hidle =>
        rintro ⟨k, hk, hdone⟩
        obtain ⟨-, ⟨hs, -⟩ | hs⟩ := openGroup_slot ((h.mem_diskfulSlots k).mpr hk) <;>
          cases hs.symm.trans hdone
      | voids | seals => cases hl
    | @merge w q slots hq hwr =>
      have hlw : w.status.ioSuspended := hl
      cases group_landing h₀ hle hq hwr (.inr ⟨slots, rfl⟩) with
      | raises h hr =>
        rintro ⟨k, hk, hdone⟩ k' hk'
        refine mergeSlots_kept (P := (· ≠ some .pending)) w.status _ _ (by decide)
          (ih w hold hlw ⟨k, hk, ?_⟩ k' hk')
        by_contra hne
        exact mergeSlots_kept (P := (· ≠ some .done)) w.status _ _ (by decide) hne hdone
      | @cuts v ms h hr =>
        rintro - k hk
        -- The pass had read the round with the gate open, and no slot has become pending since.
        obtain ⟨w', hw', hag⟩ := ownFresh_group
          (writesFresh_patch (hw i hi) hq (.inr ⟨_, _, hwr⟩)) h.task (h.job ▸ h.view)
        obtain rfl : w = w' := by
          rw [h.job, hold] at hw'
          exact Option.some.inj hw'
        have hgate := (Bool.and_eq_true_iff.mp hr.all).2
        have hv : v.status.perLeg.lookup k ≠ some .pending := by
          simpa using List.all_eq_true.mp hgate k ((h.mem_disklessSlots k).mpr hk)
        exact mergeSlots_kept (P := (· ≠ some .pending)) w.status _ _ (by decide)
          (slot_kept_of_held ρ (P := (· ≠ some .pending)) (by decide) (by decide) h₀ hle h.held
            hr.live hold hlw hag.round hv)

/-- The group of a published member is sealed, or about to be: its round is live and all of its
legs are cut. -/
def Sealing (Γ : Config) (g : String) (u : SnapshotGroup) : Prop :=
  u.status.readyToUse = true ∨
    u.status.ioSuspended = true ∧ ∀ k ∈ Γ.slots g, u.status.perLeg.lookup k = some .done

theorem sealing_step (h₀ : Initial Γ s₀) (hi : i < N)
    (hw : ∀ i < N, writesFresh (ρ.state i) (ρ.act i)) {w : SnapshotGroup}
    (hu : (ρ.state i).api.group g = some u) (hs : Sealing Γ g u)
    (hw' : (ρ.state (i + 1)).api.group g = some w) : Sealing Γ g w := by
  have hle := Nat.le_of_lt hi
  have hc := (stepped ρ hi).group_cases g
  rw [hw', hu] at hc
  cases hc with
  | same => exact hs
  | metadata h => rwa [Sealing, h.status]
  | @apply w q c pruned hq hwr =>
    have hfresh := writesFresh_apply (hw i hi) hq (.inr ⟨_, _, hwr⟩)
    have hview : ∀ {v ms}, GroupPass ρ i q.worker q.job q.log g v ms → v.status = u.status := by
      intro v ms h
      obtain ⟨u', hu', -, hst⟩ := wholeFresh_group hfresh h.task (h.job ▸ h.view)
      rw [h.job, hu] at hu'
      exact Option.some.inj hu' ▸ hst
    cases group_landing h₀ hle hq hwr (.inl ⟨c, rfl⟩) with
    | opens h hr hidle =>
      rw [hview h] at hidle
      rcases hs with hs | ⟨hs, -⟩
      · have := hr.unready
        rw [hview h, hs] at this
        cases this
      · cases hs.symm.trans hidle
    | voids h hr hl hd =>
      rcases hs with hs | ⟨-, hs⟩
      · have := hr.unready
        rw [hview h, hs] at this
        cases this
      · rw [← hview h, ← h.allSlotsDone_iff, hd] at hs
        cases hs
    | seals => exact .inl rfl
  | @merge _ q slots hq hwr =>
    have hag : ∀ {v ms}, GroupPass ρ i q.worker q.job q.log g v ms →
        GroupAgrees q.worker.node v u := by
      intro v ms h
      obtain ⟨u', hu', hag⟩ := ownFresh_group
        (writesFresh_patch (hw i hi) hq (.inr ⟨_, _, hwr⟩)) h.task (h.job ▸ h.view)
      rw [h.job, hu] at hu'
      exact Option.some.inj hu' ▸ hag
    rcases hs with hs | ⟨hl, hs⟩
    · exact .inl hs
    refine .inr ⟨hl, fun k hk => ?_⟩
    cases group_landing h₀ hle hq hwr (.inr ⟨slots, rfl⟩) with
    | raises h hr hlv hun =>
      have hgate := gatePassed ρ h₀ hw hle hu hl ⟨k, hk, hs k hk⟩
      exact absurd hun (h.not_unraised (hag h) (fun k hk _ => by simp [raised, hs k hk]) hgate)
    | @cuts v ms h hr =>
      by_cases hmem : k ∈ slotsOn q.worker.node (myLegs ms q.worker.node)
      · exact (mergeSlots_mem u.status .done _ hmem).1
      · rw [(mergeSlots_of_not_mem u.status .done _ hmem).1]
        exact hs k hk

theorem sealing_of_ready (h₀ : Initial Γ s₀) (hwf : Γ.Grouped)
    (hw : ∀ i < N, writesFresh (ρ.state i) (ρ.act i)) (hi : i ≤ N)
    (hg : x ∈ Γ.namesOf g) (hx : (ρ.state i).api.snap x = some w)
    (hr : w.status.readyToUse)
    (hu : (ρ.state i).api.group g = some u) : Sealing Γ g u := by
  refine ρ.invariant (P := fun _ s => ∀ w, s.api.snap x = some w → w.status.readyToUse →
    ∀ u, s.api.group g = some u → Sealing Γ g u) ?_ ?_ hi w hx hr u hu
  · intro w hx hr
    simp [(h₀.snaps x w hx).2.2.2] at hr
  · intro i hi ih w hx hr u hu
    have hle := Nat.le_of_lt hi
    have hgc := (stepped ρ hi).group_cases g
    rw [hu] at hgc
    obtain ⟨u₀, hu₀⟩ := hgc.exists_old
    refine sealing_step ρ h₀ hi hw hu₀ ?_ hu
    have hc := (stepped ρ hi).snap_cases x
    rw [hx] at hc
    generalize hold : (ρ.state i).api.snap x = old at hc
    cases hc with
    | same => exact ih w hold hr u₀ hu₀
    | metadata h => exact ih _ hold (h.status ▸ hr) u₀ hu₀
    | @patch v => exact ih v hold hr u₀ hu₀
    | @apply v q c pruned hq hwr =>
      have hgroup : Γ.groupOf x ≠ "" := by
        rw [(hwf g x hg).1]
        exact (hwf g x hg).2
      have hstand : ∀ {v vol}, SnapPass ρ i q.worker q.job q.log x v vol → v.group ≠ "" := by
        intro v vol h
        rwa [h.ok.group]
      cases snap_landing h₀ hle hq hwr (.inl ⟨c, rfl⟩) with
      | opens h hrd => exact absurd hrd.standalone (hstand h)
      | voids h hrd => exact absurd hrd.standalone (hstand h)
      | publishes h hrd => exact absurd hrd.standalone (hstand h)
      | single h hr hv hg => exact absurd hg (hstand h)
      | member h hr hl hd hm hxg =>
        obtain rfl := (hwf _ x hxg).1.symm.trans (hwf g x hg).1
        obtain ⟨u', hu', -, hst⟩ := wholeFresh_group
          (writesFresh_apply (hw i hi) hq (.inl ⟨_, _, hwr⟩)) h.task (h.job ▸ h.view)
        rw [h.job, hu₀] at hu'
        obtain rfl := Option.some.inj hu'
        exact .inr ⟨hst ▸ hl, hst ▸ h.allSlotsDone_iff.mp hd⟩

/-! ## Immutability -/

/-- A ready snapshot stays ready. -/
theorem ready_step (h₀ : Initial Γ s₀) (hi : i < N)
    (hw : ∀ i < N, writesFresh (ρ.state i) (ρ.act i)) {w' : Snapshot}
    (hx : (ρ.state i).api.snap x = some w) (hr : w.status.readyToUse)
    (hx' : (ρ.state (i + 1)).api.snap x = some w') : w'.status.readyToUse := by
  have hc := (stepped ρ hi).snap_cases x
  rw [hx, hx'] at hc
  cases hc with
  | same => exact hr
  | metadata h => rw [h.status]; exact hr
  | patch => exact hr
  | @apply _ q c pruned hq hwr =>
    have hview : ∀ {v vol}, SnapPass ρ i q.worker q.job q.log x v vol →
        v.status.readyToUse := by
      intro v vol h
      obtain ⟨u, hu, -, hst⟩ := wholeFresh_snapshot
        (writesFresh_apply (hw i hi) hq (.inl ⟨_, _, hwr⟩)) h.task (h.job ▸ h.view)
      rw [h.job, hx] at hu
      rw [hst, ← Option.some.inj hu]
      exact hr
    cases snap_landing h₀ (Nat.le_of_lt hi) hq hwr (.inl ⟨c, rfl⟩) with
    | opens h =>
      have hv := hview h
      exact hv
    | voids h =>
      have hv := hview h
      exact hv
    | publishes | single | member => rfl

/-- A pass whose view of its legs is up to date does not touch a published snapshot. -/
theorem not_onLeg_of_ready (h₀ : Initial Γ s₀) (hwf : Γ.Grouped) (hi : i < N)
    (hc : ∀ i < N, cutsFresh (ρ.state i) (ρ.act i))
    (hw : ∀ i < N, writesFresh (ρ.state i) (ρ.act i)) {spec : VolumeSpec}
    (hs : Γ.spec (Γ.volumeOf x) = some spec) (hdrbd : spec.drbd)
    (hx : (ρ.state i).api.snap x = some w) (hr : w.status.readyToUse)
    (hk : w.deleting = false) {q : Asked} (hq : (ρ.act i).command (ρ.state i) = some q)
    (pool v : String) : q.cmd ≠ .deleteSnapshot pool v x ∧ q.cmd ≠ .snapshot pool v x := by
  have hle := Nat.le_of_lt hi
  rw [← not_or]
  intro hcmd
  have hleg : q.cmd.onLeg := by
    rcases hcmd with h | h <;> rw [h] <;> rfl
  cases leg_asked h₀ hle hq hcmd with
  | deleted h hd => simp [deleting_of_held ρ h₀ hle h.held hd hx] at hk
  | single h hv =>
    obtain rfl := Option.some.inj (hs.symm.trans h.spec)
    simp [hv] at hdrbd
  | cuts h hp =>
    have hdel : q.deletes = false := by simp [Asked.deletes, h.job, h.view, hp.kept]
    obtain ⟨u, hu, hag⟩ := ownFresh_snapshot (cutsFresh_own (hc i hi) hq hleg hdel) h.task
      (h.job ▸ h.view)
    rw [h.job, hx] at hu
    obtain rfl := Option.some.inj hu
    have hlive := hag.ioSuspended.symm.trans hp.live
    have hheld : SnapHeld ρ i x w := ⟨_, api_mem ρ h₀ hle, hx⟩
    simp [snap_unready_of_live ρ h₀ hle hheld hlive] at hr
  | @group g v ms m h hp hm hxg =>
    have hdel : q.deletes = false := by simp [Asked.deletes, h.task]
    obtain ⟨u, hu, hag⟩ := ownFresh_group (cutsFresh_own (hc i hi) hq hleg hdel) h.task
      (h.job ▸ h.view)
    rw [h.job] at hu
    have hlive := hag.ioSuspended.symm.trans hp.live
    have hheld : GroupHeld ρ i g u := ⟨_, api_mem ρ h₀ hle, hu⟩
    rcases sealing_of_ready ρ h₀ hwf hw hle hxg hx hr hu with hsealed | ⟨-, hdone⟩
    · simp [group_unready_of_live ρ h₀ hle hheld hlive] at hsealed
    · have hmine : myLegsDone v.status (myLegs ms q.worker.node) q.worker.node := by
        refine List.all_eq_true.mpr fun k hk => ?_
        obtain ⟨hn, m, hm, hv⟩ := mem_slotsOn.mp hk
        obtain ⟨hmem, hdisk⟩ := List.mem_filter.mp hm
        have hslot : k ∈ diskfulSlots ms :=
          List.mem_flatMap.mpr ⟨m, hmem, List.mem_map.mpr ⟨q.worker.node, diskfulOn_iff.mp hdisk,
            Prod.ext hv hn.symm⟩⟩
        rw [hag.own k hn]
        exact decide_eq_true (hdone k ((h.mem_diskfulSlots k).mp hslot))
      exact Bool.false_ne_true (hp.own.symm.trans hmine)

/-- In every run whose cuts and status writes act on up-to-date views, while a snapshot of a
replicated volume is ready and not marked deleted, no pass deletes or cuts a leg of it, and it
stays ready. -/
theorem published_immutable (h₀ : Initial Γ s₀) (hwf : Γ.Grouped) (hi : i < N)
    (hc : ∀ i < N, cutsFresh (ρ.state i) (ρ.act i) = true)
    (hw : ∀ i < N, writesFresh (ρ.state i) (ρ.act i) = true) {x : String} {spec : VolumeSpec}
    (hs : Γ.spec (Γ.volumeOf x) = some spec) (hdrbd : spec.drbd = true) {w : Snapshot}
    (hx : (ρ.state i).api.snap x = some w) (hr : w.status.readyToUse = true)
    (hk : w.deleting = false) :
    (∀ q, (ρ.act i).command (ρ.state i) = some q → ∀ pool v,
      q.cmd ≠ .deleteSnapshot pool v x ∧ q.cmd ≠ .snapshot pool v x) ∧
    ∀ w', (ρ.state (i + 1)).api.snap x = some w' → w'.status.readyToUse = true :=
  ⟨fun _ hq => not_onLeg_of_ready ρ h₀ hwf hi hc hw hs hdrbd hx hr hk hq,
    fun _ hx' => ready_step ρ h₀ hi hw hx hr hx'⟩

/-! ## Two runs -/

/-- After the half round `b` cuts its leg, and `a` publishes the snapshot. -/
def fullRound : List Action :=
  halfRound ++ snapshotPass "b" 3 6 [.lands {} none] ++ snapshotPass "a" 4 4 [.lands {} none]

/-- After the full round `b` reads the published snapshot and lifts its barrier. -/
def roundAndLift : List Action := fullRound ++ snapshotPass "b" 5 3 []

theorem roundAndLift_possible : allSteps (step twoReplicas)
    (fun s a => cutsFresh s a && writesFresh s a) (.blank twoReplicas ["s"] [] [("a", "v")])
    roundAndLift := by decide +kernel

def roundAndLiftRun :
    Run (step twoReplicas) (.blank twoReplicas ["s"] [] [("a", "v")]) roundAndLift.length :=
  .ofActions _ _ _ roundAndLift roundAndLift_possible

/-- The pass of `b` over the published snapshot asks a command, which is on no leg of it. -/
theorem published_immutable_roundAndLift :
    ∃ w q, (roundAndLiftRun.state 56).api.snap "s" = some w ∧ w.status.readyToUse = true ∧
      (roundAndLiftRun.act 56).command (roundAndLiftRun.state 56) = some q ∧
      (∀ pool v, q.cmd ≠ .deleteSnapshot pool v "s" ∧ q.cmd ≠ .snapshot pool v "s") ∧
      ∀ w', (roundAndLiftRun.state 57).api.snap "s" = some w' → w'.status.readyToUse = true := by
  have hw : ((roundAndLiftRun.state 56).api.snap "s").any (fun w => w.status.readyToUse &&
      !w.deleting) = true := by decide +kernel
  have hq : ((roundAndLiftRun.act 56).command (roundAndLiftRun.state 56)).isSome = true := by
    decide +kernel
  obtain ⟨w, hx, hw⟩ := (Option.any_eq_true _ _).mp hw
  obtain ⟨hr, hk⟩ := Bool.and_eq_true_iff.mp hw
  obtain ⟨q, hq⟩ := Option.isSome_iff_exists.mp hq
  have hsteps := fun i hi => Bool.and_eq_true_iff.mp
    (Run.ofActions_spec (i := i) roundAndLift_possible hi)
  obtain ⟨hcmd, hready⟩ := published_immutable roundAndLiftRun (Initial.blank ..)
    (fun g x hx => by cases hx) (by decide) (fun i hi => (hsteps i hi).1)
    (fun i hi => (hsteps i hi).2) rfl rfl hx hr (by simpa using hk)
  exact ⟨w, q, hx, hr, hq, hcmd q hq, hready⟩

/-- After the full round `b` runs a pass on the version it read for its cut. -/
def staleView : List Action :=
  fullRound ++ snapshotPass "b" 3 6 [.fail (.conflict "test failed") false]

theorem staleView_possible : allSteps (step twoReplicas) (fun _ _ => true)
    (.blank twoReplicas ["s"] [] [("a", "v")]) staleView := by decide +kernel

def staleViewRun :
    Run (step twoReplicas) (.blank twoReplicas ["s"] [] [("a", "v")]) staleView.length :=
  .ofActions _ _ _ staleView staleView_possible

/-- `b` deletes its leg of a snapshot that is ready and not deleted. -/
theorem stale_view_recuts : ∃ w q, (staleViewRun.state 62).api.snap "s" = some w ∧
    w.status.readyToUse = true ∧ w.deleting = false ∧
    (staleViewRun.act 62).command (staleViewRun.state 62) = some q ∧
    q.cmd = .deleteSnapshot "default" "v" "s" ∧
    ((staleViewRun.state 62).legs (twoReplicas.leg "s" "b")).present = true ∧
    ((staleViewRun.state 63).legs (twoReplicas.leg "s" "b")).present = false := by
  have hw : ((staleViewRun.state 62).api.snap "s").any (fun w => w.status.readyToUse &&
      !w.deleting) = true := by decide +kernel
  have hq : ((staleViewRun.act 62).command (staleViewRun.state 62)).any (fun q =>
      q.cmd = .deleteSnapshot "default" "v" "s") = true := by decide +kernel
  obtain ⟨w, hx, hw⟩ := (Option.any_eq_true _ _).mp hw
  obtain ⟨hr, hk⟩ := Bool.and_eq_true_iff.mp hw
  obtain ⟨q, hq, hcmd⟩ := (Option.any_eq_true _ _).mp hq
  exact ⟨w, q, hx, hr, by simpa using hk, hq, of_decide_eq_true hcmd, by decide +kernel,
    by decide +kernel⟩

end Miroir
