import Miroir.Cluster.Fresh
import Miroir.Safety.GroupTag

/-!
# The barrier of a group round

Once every slot a group round waits for is up, the legs are cut one by one, and the barrier has to
stay up on all of them until the driver has seen the last one cut or the deadline has passed.
`group_barrier_kept` proves this of every resume-io that acts on an up-to-date view. The failed
raise does not: a patch that landed although its answer was an error is taken for one that did not,
and the barrier it has recorded is lifted (`failed_patch_lifts_barrier`).
-/

namespace Miroir

open Process

variable {Γ : Config} {s₀ : State} {N i j : ℕ} (ρ : Run (step Γ) s₀ N)

/-- Every slot the round waits for is up: the diskful ones, and of the diskless ones those the
open has reset. -/
def AllRaised (Γ : Config) (g : String) (u : SnapshotGroup) : Prop :=
  (∀ k ∈ Γ.slots g, raised (u.status.perLeg.lookup k) = true) ∧
    ∀ k ∈ Γ.disklessSlots g, u.status.perLeg.lookup k ≠ some .pending

instance (Γ : Config) (g : String) (u : SnapshotGroup) : Decidable (AllRaised Γ g u) :=
  inferInstanceAs (Decidable (_ ∧ _))

/-- The slots stay up for the rest of the round. -/
theorem AllRaised.kept (h₀ : Initial Γ s₀) (hi : i ≤ N) {g : String} {v u : SnapshotGroup}
    (h : AllRaised Γ g v) (hv : GroupHeld ρ i g v) (hl : v.status.ioSuspended)
    (hu : (ρ.state i).api.group g = some u) (hlu : u.status.ioSuspended)
    (hr : v.status.round = u.status.round) : AllRaised Γ g u :=
  ⟨fun k hk => slot_kept_of_held ρ (P := fun o => raised o) (by decide) (by decide) h₀ hi hv
      hl hu hlu hr (h.1 k hk),
    fun k hk => slot_kept_of_held ρ (P := (· ≠ some .pending)) (by decide) (by decide) h₀ hi hv hl
      hu hlu hr (h.2 k hk)⟩

/-- The pass is of the group's driver: by the status it has read, its node coordinates the volume of
the first member. -/
def ByDriver (Γ : Config) (g : String) (q : Asked) : Prop :=
  ∃ x ∈ (Γ.namesOf g).head?, ∃ vol t st, vol.name = Γ.volumeOf x ∧
    Γ.spec (Γ.volumeOf x) = some vol.spec ∧
    (⟨t, .drbdStatus (Γ.volumeOf x), .ok st⟩ : Entry Nat Ans) ∈ q.log ∧
    coordinatorFor q.worker.node vol st = true

/-- The pass closes round `r` of group `g`: it is the driver's, and has read every leg as cut. -/
def Closes (Γ : Config) (g : String) (r : Round) (q : Asked) : Prop :=
  q.job = g ∧ ByDriver Γ g q ∧ ∃ v, groupView g q.log = some v ∧ v.status.ioSuspended = true ∧
    v.status.round = some r ∧ ∀ k ∈ Γ.slots g, v.status.perLeg.lookup k = some .done

theorem GroupPass.byDriver {q : Asked} {w : SnapshotGroup} {ms : List GroupMember}
    (h : GroupPass ρ i q.worker q.job q.log q.job w ms)
    (hd : Drives (Γ.agent q.worker.node) q.log ms) : ByDriver Γ q.job q := by
  obtain ⟨m, hm, t, st, hst, hc⟩ := hd
  have hmembers := h.members
  rw [ByDriver]
  generalize Γ.namesOf q.job = names at hmembers ⊢
  cases hmembers with
  | nil => cases hm
  | @cons x _ _ _ hx hrest =>
    cases hm
    exact ⟨x, rfl, m.vol, t, st, hx.volume, hx.spec, hx.volume ▸ hst, hc⟩

/-- A pass with an up-to-date view of a live round that has all its slots up lifts a barrier only
to close the round, or past its deadline. -/
theorem GroupLift.closes (h₀ : Initial Γ s₀) (hi : i ≤ N) {q : Asked} {v u : SnapshotGroup}
    {r : Round} (h : GroupLift (Γ.agent q.worker.node) q.job q.log v)
    (hl : LogTrue ρ q.worker q.job q.log i) (ht : q.worker.task = .group)
    (hag : GroupAgrees q.worker.node v u) (hlu : u.status.ioSuspended)
    (hru : u.status.round = some r) (hdel : u.deleting = false) (hup : AllRaised Γ q.job u)
    (hdl : pastDeadline (ρ.state i).clock u.status.suspendedAt = false) : Closes Γ q.job r q := by
  have hlv : v.status.ioSuspended := hag.ioSuspended.trans hlu
  cases h with
  | deleted h hd =>
    rw [hag.deleting, hdel] at hd
    cases hd
  | ready h hr =>
    have := group_unready_of_live ρ h₀ hi (hl.groupView hi h) hlv
    exact absurd (hr.symm.trans this) (by simp)
  | idle h hidle => exact absurd (hlv.symm.trans hidle) (by simp)
  | closing h _ hc =>
    obtain ⟨-, hp⟩ := hl.groupPass h₀ hi ht h
    rcases hc with hc | hc
    · have := hc.past hl hi
      rw [hag.suspendedAt, hdl] at this
      cases this
    · exact ⟨rfl, hp.byDriver ρ hc.2, v, h.view_eq, hlv, hag.round.trans hru,
        hp.allSlotsDone_iff.mp hc.1⟩
  | failedRaise h _ hu =>
    obtain ⟨-, hp⟩ := hl.groupPass h₀ hi ht h
    exact absurd hu (hp.not_unraised hag (fun k hk _ => hup.1 k hk) hup.2)

/-- From the moment every slot of a live round is up until its deadline, a group pass whose resume
is up to date resumes a volume of the group only to close the round. -/
theorem group_barrier_kept (h₀ : Initial Γ s₀) (hji : j ≤ i) (hi : i < N) {g : String} {r : Round}
    {v u : SnapshotGroup} (hv : (ρ.state j).api.group g = some v)
    (hlv : v.status.ioSuspended = true) (hrv : v.status.round = some r) (hup : AllRaised Γ g v)
    (hu : (ρ.state i).api.group g = some u) (hlu : u.status.ioSuspended = true)
    (hru : u.status.round = some r) (hdel : u.deleting = false)
    (hdl : pastDeadline (ρ.state i).clock u.status.suspendedAt = false) {q : Asked}
    (hq : (ρ.act i).command (ρ.state i) = some q) (ht : q.worker.task = .group) {x : String}
    (hx : x ∈ Γ.namesOf g) (hc : q.cmd = .resumeIo (Γ.volumeOf x))
    (hf : resumesFresh Γ (ρ.state i) (ρ.act i) = true) : Closes Γ g r q := by
  have hle := Nat.le_of_lt hi
  have hheld : GroupHeld ρ i g v := GroupHeld.mono ρ ⟨_, api_mem ρ h₀ (by omega), hv⟩ hji hle
  have hup := hup.kept ρ h₀ hle hheld hlv hu hlu (hrv.trans hru.symm)
  obtain ⟨hown, hother⟩ := resumesFresh_own hf hq hc (by simp [ht])
  have hok := groupOk ρ h₀ hle (api_mem ρ h₀ hle) hu
  -- No other group may lift the barrier, since this one is live over the volume.
  obtain ⟨-, hjob⟩ := noOtherRound_group hother (mem_listGroups hu) hlu (hok.snapshotNames ▸ hx) rfl
  rw [hok.name] at hjob
  obtain ⟨hg, hl⟩ := asked_spec ρ h₀ hle hq
  rw [hc] at hg
  rcases guard_cases hg with ⟨h, -⟩ | ⟨-, view, hlift, -⟩ | ⟨h, -⟩
  · cases ht.symm.trans h
  · obtain ⟨u', hu', hag⟩ := ownFresh_group hown ht hlift.view
    rw [← hjob, hu] at hu'
    cases hu'
    have hcl := hlift.closes ρ h₀ hle hl ht hag hlu hru hdel (hjob ▸ hup) hdl
    rwa [← hjob] at hcl
  · cases ht.symm.trans h

/-- At the close of the full round `a` resumes its leg. -/
theorem group_barrier_kept_fullRound : ∃ q,
    (groupFullRoundRun.act 54).command (groupFullRoundRun.state 54) = some q ∧
      q.cmd = .resumeIo "v" ∧ Closes groupOnTwo "g" ⟨"a", 9⟩ q := by
  have hv : ((groupFullRoundRun.state 20).api.group "g").any (fun v => v.status.ioSuspended ∧
      v.status.round = some ⟨"a", 9⟩ ∧ AllRaised groupOnTwo "g" v) = true := by decide +kernel
  have hu : ((groupFullRoundRun.state 54).api.group "g").any (fun u => u.status.ioSuspended ∧
      u.status.round = some ⟨"a", 9⟩ ∧ u.deleting = false ∧
      pastDeadline (groupFullRoundRun.state 54).clock u.status.suspendedAt = false) = true := by
    decide +kernel
  have hq : ((groupFullRoundRun.act 54).command (groupFullRoundRun.state 54)).any (fun q =>
      q.worker.task = .group ∧ q.cmd = .resumeIo "v") = true := by decide +kernel
  obtain ⟨v, hv, h₁⟩ := (Option.any_eq_true _ _).mp hv
  obtain ⟨u, hu, h₂⟩ := (Option.any_eq_true _ _).mp hu
  obtain ⟨q, hq, h₃⟩ := (Option.any_eq_true _ _).mp hq
  simp only [decide_eq_true_eq] at h₁ h₂ h₃
  exact ⟨q, hq, h₃.2, group_barrier_kept groupFullRoundRun (Initial.blank ..) (by decide)
    (by decide) hv h₁.1 h₁.2.1 h₁.2.2 hu h₂.1 h₂.2.1 h₂.2.2.1 h₂.2.2.2 hq h₃.1
    (List.mem_singleton.mpr rfl) h₃.2 (by decide +kernel)⟩

/-- `a`'s open lands but is answered with an error. `b` joins the round, and `a` goes on to lift the
barriers it takes for unrecorded. -/
def failedPatch : List Action :=
  let group : Worker := ⟨"a", .group⟩
  .start group "g" :: group.told ([.version 0, .version 0, .volume (some .up), .status .up] ++
    List.replicate 4 .ok ++ [.lands {} (some (.other "timeout"))]) ++
    groupPass "b" 1 3 [.lands {} none] ++ group.told [.ok, .ok]

theorem failedPatch_possible : allSteps (step groupOnTwo) (fun _ _ => true)
    (.blank groupOnTwo ["s"] ["g"] [("a", "v")]) failedPatch := by decide +kernel

def failedPatchRun :
    Run (step groupOnTwo) (.blank groupOnTwo ["s"] ["g"] [("a", "v")]) failedPatch.length :=
  .ofActions _ _ _ failedPatch failedPatch_possible

/-- `a` resumes the leg of the Primary while its slot reads `Suspended` in a live round with all
slots up, of age zero, and no leg is cut. -/
theorem failed_patch_lifts_barrier : ∃ q u,
    (failedPatchRun.act 21).command (failedPatchRun.state 21) = some q ∧
    q.worker = ⟨"a", .group⟩ ∧ q.cmd = .resumeIo "v" ∧
    (failedPatchRun.state 21).api.group "g" = some u ∧ u.status.ioSuspended = true ∧
    u.status.round = some ⟨"a", 9⟩ ∧ u.deleting = false ∧
    pastDeadline (failedPatchRun.state 21).clock u.status.suspendedAt = false ∧
    AllRaised groupOnTwo "g" u ∧ u.status.perLeg.lookup ("v", "a") = some .suspended ∧
    ¬Closes groupOnTwo "g" ⟨"a", 9⟩ q := by
  have hq : ((failedPatchRun.act 21).command (failedPatchRun.state 21)).any (fun q =>
      q.worker = ⟨"a", .group⟩ ∧ q.cmd = .resumeIo "v" ∧
      (groupView "g" q.log).any (fun v => v.status.ioSuspended = false)) = true := by
    decide +kernel
  have hu : ((failedPatchRun.state 21).api.group "g").any (fun u => u.status.ioSuspended ∧
      u.status.round = some ⟨"a", 9⟩ ∧ u.deleting = false ∧
      pastDeadline (failedPatchRun.state 21).clock u.status.suspendedAt = false ∧
      AllRaised groupOnTwo "g" u ∧ u.status.perLeg.lookup ("v", "a") = some .suspended) = true := by
    decide +kernel
  obtain ⟨q, hq, h₁⟩ := (Option.any_eq_true _ _).mp hq
  obtain ⟨u, hu, h₂⟩ := (Option.any_eq_true _ _).mp hu
  simp only [decide_eq_true_eq] at h₁ h₂
  refine ⟨q, u, hq, h₁.1, h₁.2.1, hu, h₂.1, h₂.2.1, h₂.2.2.1, h₂.2.2.2.1, h₂.2.2.2.2.1,
    h₂.2.2.2.2.2, ?_⟩
  rintro ⟨-, -, v, hv, hl, -⟩
  have hidle := h₁.2.2
  rw [hv, Option.any_some, decide_eq_true_eq, hl] at hidle
  cases hidle

end Miroir
