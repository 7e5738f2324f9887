import Miroir.Safety.Immutable

/-!
# Sibling rounds

The kernel's suspend flag is one per volume and node, and every path of a round that lifts it
first asks the API server for another live round over the volume. `lift_defers_to_recorded` says
what that check is worth: a pass resumes a volume only if no other round over it was recorded live
when the check read it. A round is recorded some time after it has suspended the volume, and a
pass whose check falls in between lifts its barrier (`unrecorded_round_lifted`); the cut phase
raises it again, on the node that cuts.
-/

namespace Miroir

open Process

variable {Γ : Config} {s₀ : State} {N i : ℕ} {ρ : Run (step Γ) s₀ N}

/-! ## What the check has read -/

variable {items : List Snapshot} {log : PassLog} {t : ℕ}

theorem siblingGroups_spec {volume ownSnap ownGroup : String}
    {groups : List String} (h : siblingGroups volume ownSnap ownGroup items = some groups)
    {s : Snapshot} (hs : s ∈ items) (hv : s.volumeName = volume) :
    (s.group = "" → s.name ≠ ownSnap → s.status.ioSuspended = false) ∧
      (s.group ≠ "" → s.group ≠ ownGroup → s.group ∈ groups) := by
  induction items generalizing groups with
  | nil => cases hs
  | cons s' items ih =>
    unfold siblingGroups at h
    split at h
    · rename_i hvol
      rcases List.mem_cons.mp hs with rfl | hs
      · exact absurd hv hvol
      · exact ih h hs
    · split at h
      · rename_i hgroup
        split at h
        · cases h
        · rename_i hlive
          rcases List.mem_cons.mp hs with rfl | hs
          · exact ⟨fun _ hn => by simpa [hn] using hlive, fun hne => absurd hgroup hne⟩
          · exact ih h hs
      · split at h
        · obtain ⟨groups', hg', rfl⟩ := Option.map_eq_some_iff.mp h
          rcases List.mem_cons.mp hs with rfl | hs
          · rename_i hgroup _
            exact ⟨fun hg => absurd hg hgroup, fun _ _ => List.mem_insert_self ..⟩
          · obtain ⟨h₁, h₂⟩ := ih hg' hs
            exact ⟨h₁, fun hne hown => List.mem_insert_of_mem (h₂ hne hown)⟩
        · rename_i hgroup hown
          rcases List.mem_cons.mp hs with rfl | hs
          · exact ⟨fun hg => absurd hg hgroup, fun _ hne => absurd hne hown⟩
          · exact ih h hs

theorem lastList_mem
    (h : lastList log = some (t, items)) :
    (⟨t, .listSnapshots, .ok items⟩ : Entry Nat Ans) ∈ log := by
  fun_induction lastList log with
  | case1 => cases h
  | case2 t' items' l =>
    obtain ⟨rfl, rfl⟩ := Prod.mk.inj (Option.some.inj h)
    exact .head _
  | case3 e l he ih => exact .tail _ (ih h)

theorem lastGet_mem {x : String} {r : Option Snapshot}
    (h : lastGet x log = some (t, r)) : (⟨t, .getSnapshot x, .ok r⟩ : Entry Nat Ans) ∈ log := by
  fun_induction lastGet x log with
  | case1 => cases h
  | case2 t' r' l =>
    obtain ⟨rfl, rfl⟩ := Prod.mk.inj (Option.some.inj h)
    exact .head _
  | case3 t' y r' l hy ih => exact .tail _ (ih h)
  | case4 e l he ih => exact .tail _ (ih h)

/-- What the pass was told since its newest list came after it. -/
theorem LogTrue.sinceList {w : Worker} {job : String} (h : LogTrue ρ w job log i)
    (hl : lastList log = some (t, items)) {e : Entry Nat Ans}
    (he : e ∈ sinceList log) : t < e.time ∧ e ∈ log := by
  fun_induction Miroir.sinceList log generalizing i with
  | case1 => cases he
  | case2 => cases he
  | case3 e' l hne ih =>
    have hl' : lastList l = some (t, items) := by
      unfold lastList at hl
      split at hl
      · cases hl
      · rename_i heq
        cases heq
        exact absurd rfl (hne _ _)
      · rename_i heq
        cases heq
        exact hl
    rcases List.mem_cons.mp he with rfl | he
    · exact ⟨(h.2.2.listSnapshots (lastList_mem hl')).1, .head _⟩
    · obtain ⟨hlt, hmem⟩ := ih h.2.2 hl' he
      exact ⟨hlt, .tail _ hmem⟩

/-- What `Quiet` says of the run: when the pass listed the snapshots no other standalone round over
the volume was recorded live, and every other group with a member over it was read idle after. -/
theorem Quiet.idle (h₀ : Initial Γ s₀) (hi : i ≤ N) {w : Worker} {job : String}
    (hl : LogTrue ρ w job log i) {volume ownSnap ownGroup : String}
    (h : Quiet volume ownSnap ownGroup log) :
    ∃ t, (∃ items, lastList log = some (t, items)) ∧ t < i ∧
      (∀ y u, (ρ.state t).api.snap y = some u → Γ.volumeOf y = volume → Γ.groupOf y = "" →
        y ≠ ownSnap → u.status.ioSuspended = false) ∧
      ∀ y u, (ρ.state t).api.snap y = some u → Γ.volumeOf y = volume → Γ.groupOf y ≠ "" →
        Γ.groupOf y ≠ ownGroup → ∃ t', t < t' ∧ t' < i ∧ (⟨t', .getGroup (Γ.groupOf y),
          .ok ((ρ.state t').api.group (Γ.groupOf y))⟩ : Entry Nat Ans) ∈ log ∧
          ∀ g, (ρ.state t').api.group (Γ.groupOf y) = some g → g.status.ioSuspended = false := by
  obtain ⟨t, items, groups, hlist, hsib, hread⟩ := h
  obtain ⟨hlt, rfl⟩ := hl.listSnapshots (lastList_mem hlist)
  have hok : ∀ {y u}, (ρ.state t).api.snap y = some u → SnapOk Γ t y u := fun hy =>
    snapOk ρ h₀ (by omega) (api_mem ρ h₀ (by omega)) hy
  refine ⟨t, ⟨_, hlist⟩, hlt, fun y u hy hv hg hne => ?_, fun y u hy hv hg hne => ?_⟩
  · have hu := hok hy
    refine (siblingGroups_spec hsib (mem_listSnapshots hy) (hu.volumeName.trans hv)).1 ?_ ?_
    · rw [hu.group, hg]
    · rwa [hu.name]
  · have hu := hok hy
    have hmem := (siblingGroups_spec hsib (mem_listSnapshots hy) (hu.volumeName.trans hv)).2
      (by rwa [hu.group]) (by rwa [hu.group])
    rw [hu.group] at hmem
    obtain ⟨t', r, hent, hidle⟩ := hread _ hmem
    obtain ⟨hlt', hin⟩ := hl.sinceList hlist hent
    obtain ⟨hlt'', rfl⟩ := hl.getGroup hin
    exact ⟨t', hlt', hlt'', hin, hidle⟩

/-- The object whose pass the worker runs is not its own sibling. -/
def OwnSnap (q : Asked) (x : String) : Prop := q.worker.task = .snapshot ∧ q.job = x

def OwnGroup (q : Asked) (g : String) : Prop := q.worker.task = .group ∧ q.job = g

variable (ρ) in
/-- The check behind a resume found every other round over volume `v` not recorded live: a
standalone round by the list of the snapshots at `t`, a group round by a Get of the group after
that, and another round of the own object by a Get of it. Names of objects are not empty. -/
def FoundIdle (i : ℕ) (q : Asked) (v : String) : Prop :=
  ∃ t, (∃ items, lastList q.log = some (t, items)) ∧ t < i ∧
    (∀ y u, (ρ.state t).api.snap y = some u → Γ.volumeOf y = v → Γ.groupOf y = "" → y ≠ "" →
      ¬OwnSnap q y → u.status.ioSuspended = false) ∧
    (∀ y u, (ρ.state t).api.snap y = some u → Γ.volumeOf y = v → Γ.groupOf y ≠ "" →
      ¬OwnGroup q (Γ.groupOf y) → ∃ t', t < t' ∧ t' < i ∧ (⟨t', .getGroup (Γ.groupOf y),
        .ok ((ρ.state t').api.group (Γ.groupOf y))⟩ : Entry Nat Ans) ∈ q.log ∧
        ∀ g, (ρ.state t').api.group (Γ.groupOf y) = some g → g.status.ioSuspended = false) ∧
    (q.worker.task = .snapshot → ∃ t' view, t' < i ∧ snapView q.job q.log = some view ∧
      (⟨t', .getSnapshot q.job, .ok ((ρ.state t').api.snap q.job)⟩ : Entry Nat Ans) ∈ q.log ∧
      ∀ u, (ρ.state t').api.snap q.job = some u → u.status.ioSuspended = true →
        sameSnapshotRound view u = true)

variable (ρ) in
/-- A close, void, expiry, deletion or failed-raise path resumes a volume only if its check found
every other round over the volume not recorded live. -/
theorem lift_defers_to_recorded (h₀ : Initial Γ s₀) (hi : i ≤ N) {q : Asked}
    (hq : (ρ.act i).command (ρ.state i) = some q) (ht : q.worker.task ≠ .sweep) {v : String}
    (hv : q.cmd = .resumeIo v) : FoundIdle ρ i q v := by
  obtain ⟨hg, hl⟩ := asked_spec ρ h₀ hi hq
  rw [hv] at hg
  rcases guard_cases hg with ⟨htask, w, vol, rfl, hlift, ⟨t', live, hget, hsame⟩, hquiet⟩ |
    ⟨htask, w, hlift, hquiet⟩ | ⟨htask, -⟩
  · obtain ⟨hok, hvol, -⟩ := hl.reads h₀ hi hlift.reads
    rw [hok.volumeName, ← hvol] at hquiet
    obtain ⟨t, hlist, hlt, hsnap, hgroup⟩ := hquiet.idle h₀ hi hl
    refine ⟨t, hlist, hlt, fun y u hy hyv hyg _ hown => ?_, fun y u hy hyv hyg _ => ?_, fun _ => ?_⟩
    · exact hsnap y u hy hyv hyg fun hyw => hown ⟨htask, hyw.trans hok.name |>.symm⟩
    · exact hgroup y u hy hyv hyg hyg
    · have hmem := lastGet_mem hget
      obtain ⟨hlt', rfl⟩ := hl.getSnapshot hmem
      rw [hok.name] at hsame hmem
      exact ⟨t', w, hlt', hlift.reads.snap_eq, hmem, hsame⟩
  · obtain ⟨a, ha, haw⟩ := hl.groupView hi hlift.view
    have hname : w.name = q.job := (groupOk ρ h₀ hi ha haw).name
    obtain ⟨t, hlist, hlt, hsnap, hgroup⟩ := hquiet.idle h₀ hi hl
    refine ⟨t, hlist, hlt, fun y u hy hyv hyg hne _ => hsnap y u hy hyv hyg hne,
      fun y u hy hyv hyg hown => ?_, fun hsn => ?_⟩
    · exact hgroup y u hy hyv hyg fun hyw => hown ⟨htask, (hyw.trans hname).symm⟩
    · simp [htask] at hsn
  · exact absurd htask ht

/-! ## Two runs -/

theorem lift_defers_to_recorded_close : ∃ q,
    (roundAndLiftRun.act 51).command (roundAndLiftRun.state 51) = some q ∧
      q.cmd = .resumeIo "v" ∧ FoundIdle roundAndLiftRun 51 q "v" := by
  have hq : ((roundAndLiftRun.act 51).command (roundAndLiftRun.state 51)).any (fun q =>
      q.worker = ⟨"a", .snapshot⟩ ∧ q.cmd = .resumeIo "v") = true := by decide +kernel
  obtain ⟨q, hq, h⟩ := (Option.any_eq_true _ _).mp hq
  obtain ⟨hw, hv⟩ := of_decide_eq_true h
  exact ⟨q, hq, hv, lift_defers_to_recorded roundAndLiftRun (Initial.blank ..) (by decide) hq
    (by simp [hw]) hv⟩

/-- The volume `v` on two nodes, its standalone snapshot `s`, and the group `g` of another snapshot
`m` of it. -/
def sharedVolume : Config :=
  { twoReplicas with
    groupOf := fun x => if x = "m" then "g" else ""
    namesOf := fun _ => ["m"] }

/-- Node `a`'s group pass has found no other round and is about to suspend the volume. Its snapshot
pass fails to raise the barrier of `s` and checks for other rounds. The group pass suspends the
volume, the snapshot pass resumes it, and the group's round is recorded. Then `b` raises its
barrier and cuts its leg. -/
def unrecordedRound : List Action :=
  let group : Worker := ⟨"a", .group⟩
  let snap : Worker := ⟨"a", .snapshot⟩
  .start group "g" :: group.told [.version 0, .version 0, .volume (some .up), .status .up, .ok] ++
    .start snap "s" :: snap.told [.version 0, .volume (some .up), .status .up, .ok, .ok, .ok,
      .fail (.other "timeout") false, .ok, .ok, .ok] ++
    group.told [.ok] ++ snap.told [.ok, .ok] ++ .finish snap ::
    group.told [.ok, .ok, .lands {} none] ++ .finish group ::
    groupPass "b" 1 3 [.lands {} none] ++ groupPass "b" 2 6 [.lands {} none]

theorem unrecordedRound_possible : allSteps (step sharedVolume) (fun _ _ => true)
    (.blank sharedVolume ["s", "m"] ["g"] [("a", "v")]) unrecordedRound := by decide +kernel

def unrecordedRoundRun : Run (step sharedVolume)
    (.blank sharedVolume ["s", "m"] ["g"] [("a", "v")]) unrecordedRound.length :=
  .ofActions _ _ _ unrecordedRound unrecordedRound_possible

/-- The failed raise of `s` lifts the barrier the group's round has raised on `a`. The group's
round is recorded with that barrier as up, and `b` cuts its leg in it while the Primary `a` is not
suspended. -/
theorem unrecorded_round_lifted : ∃ q₁ q₂ u r c,
    (unrecordedRoundRun.act 17).command (unrecordedRoundRun.state 17) = some q₁ ∧
    q₁.worker = ⟨"a", .group⟩ ∧ q₁.cmd = .suspendIo "v" ∧
    (unrecordedRoundRun.act 18).command (unrecordedRoundRun.state 18) = some q₂ ∧
    q₂.worker = ⟨"a", .snapshot⟩ ∧ q₂.cmd = .resumeIo "v" ∧
    (unrecordedRoundRun.state 24).api.group "g" = some u ∧ u.status.ioSuspended = true ∧
    u.status.round = some r ∧ r.opener = "a" ∧
    u.status.perLeg.lookup ("v", "a") = some .suspended ∧
    ((unrecordedRoundRun.state 45).legs (sharedVolume.leg "m" "b")).cuts = [c] ∧
    c.cutAt = 44 ∧ c.round = some r ∧
    (unrecordedRoundRun.state 44).kernel "a" "v" = { suspended := false, primary := true } := by
  have hq₁ : ((unrecordedRoundRun.act 17).command (unrecordedRoundRun.state 17)).any (fun q =>
      q.worker = ⟨"a", .group⟩ ∧ q.cmd = .suspendIo "v") = true := by decide +kernel
  have hq₂ : ((unrecordedRoundRun.act 18).command (unrecordedRoundRun.state 18)).any (fun q =>
      q.worker = ⟨"a", .snapshot⟩ ∧ q.cmd = .resumeIo "v") = true := by decide +kernel
  have hu : ((unrecordedRoundRun.state 24).api.group "g").any (fun u => u.status.ioSuspended &&
      decide (u.status.round = some ⟨"a", 23⟩) &&
      decide (u.status.perLeg.lookup ("v", "a") = some .suspended)) = true := by decide +kernel
  obtain ⟨q₁, hq₁, h₁⟩ := (Option.any_eq_true _ _).mp hq₁
  obtain ⟨q₂, hq₂, h₂⟩ := (Option.any_eq_true _ _).mp hq₂
  obtain ⟨u, hu, h₃⟩ := (Option.any_eq_true _ _).mp hu
  simp only [Bool.and_eq_true, decide_eq_true_eq] at h₁ h₂ h₃
  exact ⟨q₁, q₂, u, ⟨"a", 23⟩, ⟨some 43, 44, some ⟨"a", 23⟩⟩, hq₁, h₁.1, h₁.2, hq₂, h₂.1, h₂.2, hu,
    h₃.1.1, h₃.1.2, rfl, h₃.2, by decide +kernel, rfl, rfl, by decide +kernel⟩

end Miroir
