import Miroir.Cluster.Standalone
import Miroir.Safety.Immutable

/-!
# The barrier of a standalone round

The coordinator resumes IO before it closes a round on the API server, and a peer cuts its leg some
time after it has read the round. `publish_under_barrier` proves what a publish rests on, for every
run of snapshot passes whose steps are orderly: a pass cuts, records and lifts only while the round
is as it read it, cuts before the deadline, and a barrier is recorded only while it is up. Every
diskful leg of a snapshot that becomes ready was then cut in one interval, from the open of the
published round on, in which the barrier of the round's coordinator was up throughout. A peer that
cuts past the deadline is what the source does not exclude (`late_cut_published`).
-/

namespace Miroir

open Process

variable {Γ : Config} {s₀ : State} {N i t : ℕ}

/-! ## Orderly steps -/

variable {s : State} {a : Action} {n : String}

/-- The step is not one of a group pass or a sweep. -/
def onlySnapshots (s : State) (a : Action) : Bool :=
  ((a.command s).all fun q => q.worker.task = .snapshot) &&
    (a.landing s).all fun q => q.worker.task = .snapshot

/-- A leg is cut only before the deadline of the round the pass has read. -/
def cutsInTime (s : State) (a : Action) : Bool :=
  (a.command s).all fun q =>
    match q.cmd with
    | .snapshot _ _ _ =>
      (snapView q.job q.log).all fun v => !pastDeadline s.clock v.status.suspendedAt
    | _ => true

/-- A barrier is recorded, by an open or by a slot patch, only while it is up. -/
def recordsUp (Γ : Config) (s : State) (a : Action) : Bool :=
  (a.landing s).all fun q =>
    match q.write with
    | .applySnap x c => !c.ioSuspended || (s.kernel q.worker.node (Γ.volumeOf x)).suspended
    | .patchSlot x node _ .suspended => (s.kernel node (Γ.volumeOf x)).suspended
    | _ => true

def orderly (Γ : Config) (s : State) (a : Action) : Bool :=
  onlySnapshots s a && cutsFresh s a && cutsInTime s a && writesFresh s a && resumesFresh Γ s a &&
    recordsUp Γ s a

/-- What an orderly step is. -/
structure Orderly (Γ : Config) (s : State) (a : Action) : Prop where
  snapshots : onlySnapshots s a = true
  cuts : cutsFresh s a = true
  inTime : cutsInTime s a = true
  writes : writesFresh s a = true
  resumes : resumesFresh Γ s a = true
  records : recordsUp Γ s a = true

theorem orderly_iff : orderly Γ s a ↔ Orderly Γ s a := by
  simp only [orderly, Bool.and_eq_true]
  exact ⟨fun ⟨⟨⟨⟨⟨h₁, h₂⟩, h₃⟩, h₄⟩, h₅⟩, h₆⟩ => ⟨h₁, h₂, h₃, h₄, h₅, h₆⟩,
    fun h => ⟨⟨⟨⟨⟨h.1, h.2⟩, h.3⟩, h.4⟩, h.5⟩, h.6⟩⟩

theorem Orderly.asked (h : Orderly Γ s a) {q : Asked}
    (hq : a.command s = some q) : q.worker.task = .snapshot := by
  simpa [hq] using (Bool.and_eq_true_iff.mp h.snapshots).1

theorem Orderly.landing (h : Orderly Γ s a) {q : Request}
    (hq : a.landing s = some q) : q.worker.task = .snapshot := by
  simpa [hq] using (Bool.and_eq_true_iff.mp h.snapshots).2

variable {ρ : Run (step Γ) s₀ N} {x : String} {r : Round} {u v : Snapshot}

/-! ## The end of a round -/

/-- The barriers of the round may go: it is past its deadline, every leg is cut, or the snapshot is
being deleted. -/
def RoundOver (Γ : Config) (s : State) (x : String) (u : Snapshot) : Prop :=
  pastDeadline s.clock u.status.suspendedAt = true ∨
    (∀ n ∈ Γ.diskful x, u.status.perNode.lookup n = some .done) ∨ u.deleting = true

theorem RoundOver.mono (hw : ∀ j < N, writesFresh (ρ.state j) (ρ.act j))
    (h₀ : Initial Γ s₀) (hi : i ≤ N) (hv : LiveAt ρ t x r v) (hti : t ≤ i) (hu : LiveAt ρ i x r u)
    (h : RoundOver Γ (ρ.state t) x v) : RoundOver Γ (ρ.state i) x u := by
  have ht : t ≤ N := Nat.le_trans hti hi
  rcases h with h | h | h
  · left
    rw [← hv.stamp_eq h₀ ht hi hu]
    exact pastDeadline_mono (clock_mono ρ hti hi) h
  · exact .inr (.inl fun n hn => hv.done_kept hw h₀ hi hti hu (h n hn))
  · exact .inr (.inr (deleting_of_held ρ h₀ hi ((hv.snapHeld h₀ ht).mono ρ hti hi) h hu.held))

/-- A pass whose node's slot is up lifts the barrier only when the round is over. -/
theorem over_of_resume (ho : ∀ j < N, Orderly Γ (ρ.state j) (ρ.act j)) (h₀ : Initial Γ s₀)
    (hx : Γ.groupOf x = "") (hi : i < N) (hu : LiveAt ρ i x r u) {q : Asked}
    (hq : (ρ.act i).command (ρ.state i) = some q) (hc : q.cmd = .resumeIo (Γ.volumeOf x))
    (hup : raised (u.status.perNode.lookup q.worker.node)) :
    RoundOver Γ (ρ.state i) x u := by
  have hle := Nat.le_of_lt hi
  have hok := snapOk ρ h₀ hle (api_mem ρ h₀ hle) hu.held
  have ht : q.worker.task = .snapshot := (ho i hi).asked hq
  obtain ⟨hown, hother⟩ := resumesFresh_own (ho i hi).resumes hq hc (by simp [ht])
  obtain ⟨-, hjob⟩ := noOtherRound_snap hother (mem_listSnapshots hu.held) hu.live
    (hok.group.trans hx) hok.volumeName
  obtain ⟨hg, hl⟩ := asked_spec ρ h₀ hle hq
  rw [hc] at hg
  rcases guard_cases hg with ⟨-, v, vol, -, hlift, -⟩ | ⟨h, -⟩ | ⟨h, -⟩
  · obtain ⟨u', hu', hag⟩ := ownFresh_snapshot hown ht hlift.reads.snap_eq
    rw [← hjob, hok.name, hu.held] at hu'
    cases hu'
    have hlv : v.status.ioSuspended := hag.ioSuspended.trans hu.live
    have hheld : SnapHeld ρ i x v := by
      have := hl.snapView hle hlift.reads.snap_eq
      rwa [← hjob, hok.name] at this
    cases hlift with
    | deleted h hd => exact .inr (.inr (hag.deleting.symm.trans hd))
    | ready h hr =>
      exact absurd (hr.symm.trans (snap_unready_of_live ρ h₀ hle hheld hlv)) (by simp)
    | idle h hidle => exact absurd (hlv.symm.trans hidle) (by simp)
    | failedRaise h _ hs =>
      rw [Config.agent, hag.own, hup] at hs
      cases hs
    | closing h _ hc =>
      rcases hc with hc | hc
      · left
        rw [← hag.suspendedAt]
        exact hc.past hl hle
      · -- The legs the pass has read as cut are still cut.
        obtain ⟨t, hti, hv⟩ := hheld.at h₀ hle
        have hspec := (hl.snapPass h₀ hle ht h.toReads).2.spec
        rw [← hjob, hok.name] at hspec
        refine .inr (.inl fun n hn => ?_)
        rw [mem_diskful hspec] at hn
        exact LiveAt.done_kept (fun j hj => (ho j hj).writes) h₀ hle
          ⟨hv, hlv, hag.round.trans hu.round⟩ hti hu
          (of_decide_eq_true (List.all_eq_true.mp hc n hn))
  · cases ht.symm.trans h
  · cases ht.symm.trans h

/-- Until the round is over, the barrier of every node that has recorded it is up. -/
theorem barrier_up (ho : ∀ j < N, Orderly Γ (ρ.state j) (ρ.act j)) (h₀ : Initial Γ s₀)
    (hx : Γ.groupOf x = "") (hi : i ≤ N) (hu : LiveAt ρ i x r u)
    (hn : n ∈ Γ.diskful x ∨ n = r.opener) (hup : raised (u.status.perNode.lookup n)) :
    ((ρ.state i).kernel n (Γ.volumeOf x)).suspended ∨ RoundOver Γ (ρ.state i) x u := by
  have hw := fun j hj => (ho j hj).writes
  induction i generalizing u with
  | zero => exact absurd (hu.openedAt_lt h₀ hi) (Nat.not_lt_zero _)
  | succ i ih =>
    have hlt : i < N := hi
    cases round_step ρ h₀ hlt hu with
    | @opens q v vol c hq hwr hc h hr hself hpeers =>
      obtain rfl : n = q.worker.node := by
        by_contra hne
        rcases hn with hn | hn
        · rw [hpeers n hn hne] at hup
          cases hup
        · exact hne (hn.trans (by rw [hr]))
      left
      rw [(stepped ρ hlt).flag_of_landing hq]
      simpa [recordsUp, hq, hwr, hc] using (ho i hlt).records
    | @keeps w h hs =>
      rw [hs] at hup
      have hover {w'} (h : RoundOver Γ (ρ.state i) x w') (hw' : LiveAt ρ i x r w') :=
        h.mono hw h₀ hi hw' (Nat.le_succ i) hu
      rcases ih (Nat.le_of_lt hlt) h hup with hflag | h'
      · rcases (stepped ρ hlt).flag_cases n (Γ.volumeOf x) with hf | ⟨q, hq, rfl, ⟨-, hf⟩ | ⟨hc, -⟩⟩
        · exact .inl (hf.trans hflag)
        · exact .inl hf
        · exact .inr (hover (over_of_resume ho h₀ hx hlt h hq hc hup) h)
      · exact .inr (hover h' h)
    | @patches q v vol w stamp state hq hwr h hp hlive hs =>
      have hflag := (stepped ρ hlt).flag_of_landing hq n (Γ.volumeOf x)
      have before (hup : raised (w.status.perNode.lookup n)) :
          ((ρ.state (i + 1)).kernel n (Γ.volumeOf x)).suspended ∨
            RoundOver Γ (ρ.state (i + 1)) x u :=
        (ih (Nat.le_of_lt hlt) hlive hup).imp hflag.trans
          fun h' => h'.mono hw h₀ hi hlive (Nat.le_succ i) hu
      by_cases hnode : n = q.worker.node
      · cases hp with
        | raises =>
          left
          rw [hflag, hnode]
          simpa [recordsUp, hq, hwr] using (ho i hlt).records
        | cuts hc =>
          -- The slot was up before its leg was recorded as cut.
          refine before ?_
          rw [hnode, ← (slot_eq_of_patch hw hlt hq hwr h hlive).2]
          have hown : v.status.perNode.lookup q.worker.node = some .suspended := hc.own
          rw [hown]
          rfl
      · refine before ?_
        rwa [hs, AList.lookup_insert_ne hnode] at hup

/-! ## Cuts -/

/-- Every cut of a leg was made by a pass on the leg's node. -/
theorem cut_asked (h₀ : Initial Γ s₀) (hi : i ≤ N) {k : LegKey} {c : Cut}
    (hc : c ∈ ((ρ.state i).legs k).cuts) :
    c.cutAt < i ∧ ∃ q v, (ρ.act c.cutAt).command (ρ.state c.cutAt) = some q ∧
      q.worker.node = k.node ∧ q.cmd = .snapshot k.pool v k.snap := by
  refine ρ.invariant (P := fun i s => ∀ c ∈ (s.legs k).cuts, c.cutAt < i ∧
    ∃ q v, (ρ.act c.cutAt).command (ρ.state c.cutAt) = some q ∧ q.worker.node = k.node ∧
      q.cmd = .snapshot k.pool v k.snap) ?_ ?_ hi c hc
  · intro c hc
    rw [(h₀.legs k).2] at hc
    cases hc
  · intro i hi ih c hc
    have old (hc : c ∈ ((ρ.state i).legs k).cuts) := (ih c hc).imp_left Nat.lt_succ_of_lt
    rcases (stepped ρ hi).leg_cases k with h | ⟨q, hq, hn, v, ⟨-, h⟩ | ⟨hcmd, h⟩⟩
    · exact old (h ▸ hc)
    · rw [h] at hc
      exact old hc
    · rw [h, Leg.cut, tick_eq ρ h₀ (Nat.le_of_lt hi)] at hc
      split at hc
      · exact old hc
      · rcases List.mem_cons.mp hc with rfl | hc
        · exact ⟨Nat.lt_succ_self i, q, v, hq, hn, hcmd⟩
        · exact old hc

/-- The newest cut of a leg is the first one. -/
theorem cuts_sorted (h₀ : Initial Γ s₀) (hi : i ≤ N) (k : LegKey) :
    ((ρ.state i).legs k).cuts.Pairwise fun c c' => c'.cutAt < c.cutAt := by
  refine ρ.invariant (P := fun _ s => (s.legs k).cuts.Pairwise fun c c' => c'.cutAt < c.cutAt)
    ?_ ?_ hi
  · rw [(h₀.legs k).2]
    exact .nil
  · intro i hi ih
    rcases (stepped ρ hi).leg_cases k with h | ⟨q, -, -, v, ⟨-, h⟩ | ⟨-, h⟩⟩
    · rwa [h]
    · rwa [h]
    · rw [h, Leg.cut]
      split
      · exact ih
      · refine List.pairwise_cons.mpr ⟨fun c hc => ?_, ih⟩
        rw [tick_eq ρ h₀ (Nat.le_of_lt hi)]
        exact (legOk ρ h₀ (Nat.le_of_lt hi) k).cut c hc

/-- A leg that is recorded as cut in a round has been cut since the round opened. -/
theorem cut_of_done (hw : ∀ j < N, writesFresh (ρ.state j) (ρ.act j)) (h₀ : Initial Γ s₀)
    (hi : i ≤ N) (hu : LiveAt ρ i x r u) (hn : n ∈ Γ.diskful x)
    (hd : u.status.perNode.lookup n = some .done) :
    ∃ c ∈ ((ρ.state i).legs (Γ.leg x n)).cuts, r.openedAt < c.cutAt := by
  induction i generalizing u with
  | zero => exact absurd (hu.openedAt_lt h₀ hi) (Nat.not_lt_zero _)
  | succ i ih =>
    have hlt : i < N := hi
    have later (h : ∃ c ∈ ((ρ.state i).legs (Γ.leg x n)).cuts, r.openedAt < c.cutAt) :
        ∃ c ∈ ((ρ.state (i + 1)).legs (Γ.leg x n)).cuts, r.openedAt < c.cutAt :=
      h.imp fun c hc => ⟨(leg_mono ρ h₀ (Nat.le_succ i) hi _).1 c hc.1, hc.2⟩
    cases round_step ρ h₀ hlt hu with
    | @opens q v vol c hq hwr hc h hr hself hpeers =>
      by_cases hnode : n = q.worker.node
      · rw [hnode, hself] at hd
        cases hd
      · rw [hpeers n hn hnode] at hd
        cases hd
    | keeps h hs => exact later (ih (Nat.le_of_lt hlt) h (hs ▸ hd))
    | @patches q v vol w stamp state hq hwr h hp hlive hs =>
      rw [hs] at hd
      by_cases hnode : n = q.worker.node
      · cases hp with
        | raises =>
          rw [hnode, AList.lookup_insert] at hd
          cases hd
        | cuts hc hlog =>
          rw [hnode] at later ⊢
          exact later (cut_after_open ρ h₀ (Nat.le_of_lt hlt)
            (landing_spec ρ h₀ (Nat.le_of_lt hlt) hq).2 h hc hlog
            (slot_eq_of_patch hw hlt hq hwr h hlive).1)
      · rw [AList.lookup_insert_ne hnode] at hd
        exact later (ih (Nat.le_of_lt hlt) hlive hd)

/-- A cut of a round that goes on to be published: every diskful barrier is recorded, and the round
is not over. -/
theorem round_of_cut (ho : ∀ j < N, Orderly Γ (ρ.state j) (ρ.act j)) (h₀ : Initial Γ s₀)
    {spec : VolumeSpec} (hspec : Γ.spec (Γ.volumeOf x) = some spec) (hdrbd : spec.drbd)
    (hi : i ≤ N) (hu : LiveAt ρ i x r u) (hk : u.deleting = false) {c : Cut}
    (hc : c ∈ ((ρ.state i).legs (Γ.leg x n)).cuts) (hr : r.openedAt < c.cutAt) :
    c.cutAt < i ∧ ∃ w, LiveAt ρ c.cutAt x r w ∧ ¬RoundOver Γ (ρ.state c.cutAt) x w ∧
      ∀ m ∈ Γ.diskful x, raised (w.status.perNode.lookup m) := by
  obtain ⟨hlt, q, v, hq, -, hcmd⟩ := cut_asked h₀ hi hc
  have hcmd : q.cmd = .snapshot (Γ.leg x n).pool v x := hcmd
  have hN : c.cutAt < N := Nat.lt_of_lt_of_le hlt hi
  have hle := Nat.le_of_lt hN
  obtain ⟨w, hw⟩ := hu.since h₀ hi hr (Nat.le_of_lt hlt)
  have hkw : w.deleting = false := by
    by_contra hd
    have := deleting_of_held ρ h₀ hi ((hw.snapHeld h₀ hle).mono ρ (Nat.le_of_lt hlt) hi)
      (by simpa using hd) hu.held
    simp [this] at hk
  refine ⟨hlt, w, hw, ?_⟩
  cases leg_asked h₀ hle hq (.inr hcmd) with
  | deleted h hd => simp [deleting_of_held ρ h₀ hle h.held hd hw.held] at hkw
  | single h hv =>
    obtain rfl := Option.some.inj (hspec.symm.trans h.spec)
    simp [hv] at hdrbd
  | group h => cases ((ho _ hN).asked hq).symm.trans h.task
  | @cuts v vol h hp =>
    have hdel : q.deletes = false := by simp [Asked.deletes, h.job, h.view, hp.kept]
    obtain ⟨w', hw', hag⟩ := ownFresh_snapshot
      (cutsFresh_own (ho _ hN).cuts hq (by rw [hcmd]; rfl) hdel) h.task (h.job ▸ h.view)
    rw [h.job, hw.held] at hw'
    cases hw'
    have hown : w.status.perNode.lookup q.worker.node = some .suspended := hag.own ▸ hp.own
    refine ⟨?_, fun m hm => ?_⟩
    · rintro (hover | hover | hover)
      · have hintime := (ho _ hN).inTime
        rw [cutsInTime, hq, Option.all_some, hcmd] at hintime
        simp [h.job, h.view, hag.suspendedAt, hover] at hintime
      · have hmem := (mem_diskful h.spec).mpr (diskfulOn_iff.mp hp.diskful)
        cases hown.symm.trans (hover _ hmem)
      · simp [hover] at hkw
    · -- The slots the pass has read as up are still up.
      obtain ⟨t, ht, hv⟩ := h.held.at h₀ hle
      rw [mem_diskful h.spec] at hm
      exact LiveAt.raised_kept h₀ hle ⟨hv, hp.live, hag.round.trans hw.round⟩ ht hw
        (List.all_eq_true.mp hp.all m hm)

/-- From its record on until the round's last cut, a barrier is up. -/
theorem up_until_cut (ho : ∀ j < N, Orderly Γ (ρ.state j) (ρ.act j)) (h₀ : Initial Γ s₀)
    (hx : Γ.groupOf x = "") {τ : ℕ} (hτ : τ ≤ N) {w : Snapshot} (hw : LiveAt ρ τ x r w)
    (hover : ¬RoundOver Γ (ρ.state τ) x w) (ht : t ≤ τ) (hv : LiveAt ρ t x r v) {m : String}
    (hm : m ∈ Γ.diskful x ∨ m = r.opener) (hup : raised (v.status.perNode.lookup m)) :
    ((ρ.state t).kernel m (Γ.volumeOf x)).suspended :=
  (barrier_up ho h₀ hx (Nat.le_trans ht hτ) hv hm hup).resolve_right
    fun h => hover (h.mono (fun j hj => (ho j hj).writes) h₀ hτ hv ht hw)

/-- The step that makes a standalone snapshot ready closes a live round with every leg cut. -/
theorem live_of_publish (ho : ∀ j < N, Orderly Γ (ρ.state j) (ρ.act j)) (h₀ : Initial Γ s₀)
    {spec : VolumeSpec} (hspec : Γ.spec (Γ.volumeOf x) = some spec) (hdrbd : spec.drbd)
    (hi : i < N) (hu : (ρ.state i).api.snap x = some u) (hr : u.status.readyToUse = false)
    (hv : (ρ.state (i + 1)).api.snap x = some v) (hr' : v.status.readyToUse) :
    ∃ r, LiveAt ρ i x r u ∧ u.deleting = false ∧
      ∀ n ∈ Γ.diskful x, u.status.perNode.lookup n = some .done := by
  have hle := Nat.le_of_lt hi
  have hc := (stepped ρ hi).snap_cases x
  rw [hu, hv] at hc
  cases hc with
  | same => cases hr.symm.trans hr'
  | metadata h => cases hr.symm.trans (h.status ▸ hr')
  | patch => cases hr.symm.trans hr'
  | @apply _ q c pruned hq hw =>
    cases snap_landing h₀ hle hq hw (.inl ⟨c, rfl⟩) with
    | opens h hrd => cases hrd.unready.symm.trans hr'
    | voids h hrd => cases hrd.unready.symm.trans hr'
    | single h hrd hplain =>
      obtain rfl := Option.some.inj (hspec.symm.trans h.spec)
      simp [hplain] at hdrbd
    | member h => cases ((ho i hi).landing hq).symm.trans h.task
    | @publishes w vol h hrd hl hd =>
      obtain ⟨u', hu', hdel, hst⟩ := wholeFresh_snapshot
        (writesFresh_apply (ho i hi).writes hq (.inl ⟨_, _, hw⟩)) h.task (h.job ▸ h.view)
      rw [h.job, hu] at hu'
      cases hu'
      rw [hst] at hl hd
      obtain ⟨r, T, hround⟩ := liveRound ρ h₀ hle ⟨_, api_mem ρ h₀ hle, hu⟩ hl
      refine ⟨r, ⟨hu, hl, hround.round⟩, hdel.symm.trans hrd.kept, fun n hn => ?_⟩
      rw [mem_diskful h.spec] at hn
      exact of_decide_eq_true (List.all_eq_true.mp hd n hn)

variable (ρ) in
/-- Every diskful leg of a standalone snapshot of a replicated volume that becomes ready was last
cut after the published round opened, with the barrier of the round's coordinator up from the open
to the cut. -/
theorem publish_under_barrier (h₀ : Initial Γ s₀)
    (ho : ∀ j < N, orderly Γ (ρ.state j) (ρ.act j) = true) (hx : Γ.groupOf x = "")
    {spec : VolumeSpec} (hspec : Γ.spec (Γ.volumeOf x) = some spec) (hdrbd : spec.drbd = true)
    (hi : i < N) (hu : (ρ.state i).api.snap x = some u) (hr : u.status.readyToUse = false)
    (hv : (ρ.state (i + 1)).api.snap x = some v) (hr' : v.status.readyToUse = true) :
    ∃ r, u.status.round = some r ∧ ∀ n ∈ Γ.diskful x, ∃ c rest,
      ((ρ.state i).legs (Γ.leg x n)).cuts = c :: rest ∧ r.openedAt < c.cutAt ∧ c.cutAt < i ∧
      ∀ t, r.openedAt < t → t ≤ c.cutAt →
        ((ρ.state t).kernel r.opener (Γ.volumeOf x)).suspended = true := by
  have hle := Nat.le_of_lt hi
  have ho := fun j hj => orderly_iff.mp (ho j hj)
  obtain ⟨r, hlive, hk, hdone⟩ := live_of_publish ho h₀ hspec hdrbd hi hu hr hv hr'
  refine ⟨r, hlive.round, fun n hn => ?_⟩
  obtain ⟨c, hc, hlt⟩ := cut_of_done (fun j hj => (ho j hj).writes) h₀ hle hlive hn (hdone n hn)
  have hsorted := cuts_sorted (ρ := ρ) h₀ hle (Γ.leg x n)
  generalize hcuts : ((ρ.state i).legs (Γ.leg x n)).cuts = cuts at hc hsorted
  obtain ⟨newest, rest, rfl⟩ := List.exists_cons_of_ne_nil (List.ne_nil_of_mem hc)
  have hnewest : r.openedAt < newest.cutAt := by
    rcases List.mem_cons.mp hc with rfl | hc
    · exact hlt
    · exact Nat.lt_trans hlt ((List.pairwise_cons.mp hsorted).1 c hc)
  obtain ⟨hcut, w, hw, hover, -⟩ := round_of_cut ho h₀ hspec hdrbd hle hlive hk
    (hcuts ▸ List.mem_cons_self ..) hnewest
  refine ⟨newest, rest, rfl, hnewest, hcut, fun t ht htc => ?_⟩
  obtain ⟨y, hy⟩ := hw.since h₀ (by omega) ht htc
  exact up_until_cut ho h₀ hx (by omega) hw hover htc hy (.inr rfl) (hy.opener_raised h₀ (by omega))

theorem fullRound_orderly : allSteps (step twoReplicas) (orderly twoReplicas)
    (.blank twoReplicas ["s"] [] [("a", "v")]) fullRound := by decide +kernel

def fullRoundRun :
    Run (step twoReplicas) (.blank twoReplicas ["s"] [] [("a", "v")]) fullRound.length :=
  .ofActions _ _ _ fullRound fullRound_orderly

theorem publish_under_barrier_fullRound : ∃ u r, (fullRoundRun.state 52).api.snap "s" = some u ∧
    u.status.round = some r ∧ ∀ n ∈ twoReplicas.diskful "s", ∃ c rest,
      ((fullRoundRun.state 52).legs (twoReplicas.leg "s" n)).cuts = c :: rest ∧
      r.openedAt < c.cutAt ∧ c.cutAt < 52 ∧ ∀ t, r.openedAt < t → t ≤ c.cutAt →
        ((fullRoundRun.state t).kernel r.opener "v").suspended = true := by
  have hu : ((fullRoundRun.state 52).api.snap "s").any (fun u => u.status.readyToUse = false) =
      true := by decide +kernel
  have hv : ((fullRoundRun.state 53).api.snap "s").any (fun v => v.status.readyToUse) = true := by
    decide +kernel
  obtain ⟨u, hu, hr⟩ := (Option.any_eq_true _ _).mp hu
  obtain ⟨v, hv, hr'⟩ := (Option.any_eq_true _ _).mp hv
  obtain ⟨r, h⟩ := publish_under_barrier fullRoundRun (Initial.blank ..)
    (fun _ hi => Run.ofActions_spec fullRound_orderly hi) rfl rfl rfl (by decide : 52 < _) hu
    (of_decide_eq_true hr) hv hr'
  exact ⟨u, r, hu, h⟩

/-- `b` has checked the deadline and is about to cut its leg when the round expires. `a` lifts its
barrier, and its patch that voids the round is lost. `b` cuts its leg and records it, and `a`
publishes. -/
def lateCut : List Action :=
  let b : Worker := ⟨"b", .snapshot⟩
  halfRound ++ .start b "s" :: b.told [.version 3, .volume (some .up), .status .up, .ok] ++
    .advance (62 * second) :: snapshotPass "a" 3 5 [.fail (.other "timeout") false] ++
    b.told [.ok, .ok, .ok, .ok, .ok, .lands {} none] ++ .finish b ::
    snapshotPass "a" 4 4 [.lands {} none]

theorem lateCut_possible : allSteps (step twoReplicas) (fun _ _ => true)
    (.blank twoReplicas ["s"] [] [("a", "v")]) lateCut := by decide +kernel

def lateCutRun :
    Run (step twoReplicas) (.blank twoReplicas ["s"] [] [("a", "v")]) lateCut.length :=
  .ofActions _ _ _ lateCut lateCut_possible

/-- The snapshot becomes ready with the leg of `b` cut while the coordinator's barrier, which had
been raised for the published round, was down. -/
theorem late_cut_published : ∃ u v c, (lateCutRun.state 64).api.snap "s" = some u ∧
    u.status.readyToUse = false ∧ u.status.round = some ⟨"a", 9⟩ ∧
    (lateCutRun.state 65).api.snap "s" = some v ∧ v.status.readyToUse = true ∧
    "b" ∈ twoReplicas.diskful "s" ∧
    ((lateCutRun.state 64).legs (twoReplicas.leg "s" "b")).cuts = [c] ∧ c.cutAt = 53 ∧
    c.round = some ⟨"a", 9⟩ ∧
    (lateCutRun.state 53).kernel "a" "v" = { suspended := false, primary := true } := by
  have hu : ((lateCutRun.state 64).api.snap "s").any (fun u => u.status.readyToUse = false ∧
      u.status.round = some ⟨"a", 9⟩) = true := by decide +kernel
  have hv : ((lateCutRun.state 65).api.snap "s").any (fun v => v.status.readyToUse) = true := by
    decide +kernel
  obtain ⟨u, hu, h₁⟩ := (Option.any_eq_true _ _).mp hu
  obtain ⟨v, hv, hr'⟩ := (Option.any_eq_true _ _).mp hv
  obtain ⟨hr, hround⟩ := of_decide_eq_true h₁
  exact ⟨u, v, ⟨some 52, 53, some ⟨"a", 9⟩⟩, hu, hr, hround, hv, hr', by decide, by decide +kernel,
    rfl, rfl, by decide +kernel⟩

end Miroir
