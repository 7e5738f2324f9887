import Miroir.Cluster.Rounds

/-!
# The standalone slot fence

A slot patch of a standalone round carries the stamp of the round its pass read, and the API
server takes it only while that very stamp is live. `slot_fence` proves what the fence is for:
while a round is live, every slot of a diskful replica other than the opener's that reads
`Suspended` or `Done` was written by a pass that had read this round, and every `Done` slot stands
for a leg cut after the round opened. Stamps name rounds as long as no two opens of the snapshot
carry the same one.

A diskless opener's slot is outside the fence: a diskful coordinator that voids its round and
opens the next one leaves the slot as it was (`diskless_slot_outlives_round`). No cut waits for it.
-/

namespace Miroir

open Process

variable {Γ : Config} {s₀ : State} {N i : ℕ} (ρ : Run (step Γ) s₀ N)

variable {x : String} {w : Snapshot}

/-- The opens of snapshot `x` carry pairwise distinct stamps. -/
def DistinctStamps (x : String) : Prop :=
  ∀ r r' T, OpensRound ρ x r T → OpensRound ρ x r' T → r = r'

/-- Only diskful replicas of a replicated volume have `Done` slots. -/
theorem done_diskful (h₀ : Initial Γ s₀) (hi : i ≤ N)
    (hw : SnapHeld ρ i x w) {spec : VolumeSpec} (hs : Γ.spec (Γ.volumeOf x) = some spec)
    (hdrbd : spec.drbd) {n : String} (hn : w.status.perNode.lookup n = some .done) :
    n ∈ Γ.diskful x := by
  obtain ⟨v, hv, hx⟩ := hw
  rw [mem_diskful hs]
  refine snapVersions ρ (P := fun _ x w => ∀ spec, Γ.spec (Γ.volumeOf x) = some spec →
    spec.drbd → ∀ n, w.status.perNode.lookup n = some .done → n ∈ spec.diskfulNodes)
    h₀ ?_ (fun _ _ _ _ h => h) ?_ hi hv hx spec hs hdrbd n hn
  · intro x w hx spec hs hd n hn
    rw [(h₀.snaps x w hx).2.2.2] at hn
    cases hn
  · intro i hi ih x old new ho hnew hc hold spec hs hd n hn
    cases hc with
    | same => exact hold _ rfl spec hs hd n hn
    | metadata h => exact hold _ rfl spec hs hd n (h.status ▸ hn)
    | @patch w q node stamp state hq hw =>
      by_cases hnn : n = node
      · subst hnn
        cases snap_landing h₀ (Nat.le_of_lt hi) hq hw (.inr ⟨_, _, _, rfl⟩) with
        | raises => simp [AList.lookup_insert] at hn
        | cuts h hc =>
          obtain rfl := Option.some.inj (hs.symm.trans h.spec)
          exact diskfulOn_iff.mp hc.diskful
      · exact hold _ rfl spec hs hd n (by simpa [AList.lookup_insert_ne hnn] using hn)
    | @apply w q c pruned hq hw =>
      -- The slot is what the apply states, or else what was there before.
      have hn : (c.perNode.lookup n).or
          (if n ∈ pruned then none else w.status.perNode.lookup n) = some .done := by
        rw [← lookup_applySlots]
        exact hn
      rcases Option.or_eq_some_iff.mp hn with hn | ⟨-, hn⟩
      · cases snap_landing h₀ (Nat.le_of_lt hi) hq hw (.inl ⟨c, rfl⟩) with
        | @opens u vol t h hr =>
          obtain ⟨v, hv, hu⟩ := h.held
          exact ih v hv x u hu spec hs hd n (done_of_openStatus (stampOf t) hn)
        | @voids u vol t h hr =>
          obtain ⟨v, hv, hu⟩ := h.held
          exact ih v hv x u hu spec hs hd n (done_of_voidStatus (stampOf t) hn)
        | @publishes u vol h hr =>
          obtain ⟨v, hv, hu⟩ := h.held
          exact ih v hv x u hu spec hs hd n hn
        | single h hr hv =>
          obtain rfl := Option.some.inj (hs.symm.trans h.spec)
          simp [hv] at hd
        | @member g u ms m h hr hl hd hm hx hmx =>
          obtain rfl := Option.some.inj (hs.symm.trans hmx.spec)
          have hn : (memberStatus m.vol).perNode.lookup n = some .done := hn
          rw [memberStatus_lookup] at hn
          split_ifs at hn with hmem
          exact hmem
      · split_ifs at hn
        exact hold _ rfl spec hs hd n hn

/-- What the fence gives for a live round. -/
structure Fenced (i : ℕ) (x : String) (w : Snapshot) (r : Round) (T : Stamp) : Prop where
  seen : ∀ n ∈ Γ.diskful x, n ≠ r.opener → raised (w.status.perNode.lookup n) = true →
    w.status.observed.lookup n = some (some T)
  cut : ∀ n ∈ Γ.diskful x, w.status.perNode.lookup n = some .done →
    ∃ c ∈ ((ρ.state i).legs (Γ.leg x n)).cuts, r.openedAt < c.cutAt

/-- A pass that has read a round and then deleted and cut its leg cut it after the round
opened. -/
theorem cut_after_open (h₀ : Initial Γ s₀) (hi : i ≤ N) {q : Request}
    {vol : Volume} {pool : String} {l : PassLog} {t₁ t₂ : ℕ} {r : Round}
    (ht : LogTrue ρ q.worker q.job q.log i) (h : SnapPass ρ i q.worker q.job q.log x w vol)
    (hc : CutPhase (Γ.agent q.worker.node) x l w vol pool)
    (hl : q.log = ⟨t₂, .snapshot pool vol.name x, .ok ()⟩ ::
      ⟨t₁, .deleteSnapshot pool vol.name x, .ok ()⟩ :: l) (hr : w.status.round = some r) :
    ∃ c ∈ ((ρ.state i).legs (Γ.leg x q.worker.node)).cuts, r.openedAt < c.cutAt := by
  rw [hl] at ht
  obtain ⟨c, hcm, d, -, hle, hlt⟩ := ht.recut h₀ hi
  have hleg : Γ.leg x q.worker.node = ⟨q.worker.node, pool, x⟩ := by
    simp [Config.leg, h.spec, backendFor_eq hc.backend hc.diskful, Config.agent]
  obtain ⟨h₂, -, h₁, -, hl₁⟩ := ht
  have h₂ : t₂ < i := h₂
  have h₁ : t₁ < t₂ := h₁
  have hopen := ((hl₁.reads h₀ (show t₁ ≤ N by omega) hc.toReads).1).round r hr
  exact ⟨c, hleg ▸ hcm, by omega⟩

theorem fenced (h₀ : Initial Γ s₀) (hd : DistinctStamps ρ x) (hi : i ≤ N)
    (hw : SnapHeld ρ i x w) (hl : w.status.ioSuspended) {r : Round}
    {T : Stamp} (hr : w.status.round = some r) (hT : w.status.suspendedAt = some T) :
    Fenced ρ i x w r T := by
  obtain ⟨v, hv, hx⟩ := hw
  refine snapVersions ρ (P := fun i y w => y = x → w.status.ioSuspended → ∀ r T,
    w.status.round = some r → w.status.suspendedAt = some T → Fenced ρ i x w r T)
    h₀ ?_ ?_ ?_ hi hv hx rfl hl r T hr hT
  · intro y w hx _ hl
    simp [(h₀.snaps y w hx).2.2.2] at hl
  · intro i hi y w h hy hl r T hr hT
    obtain ⟨hseen, hcut⟩ := h hy hl r T hr hT
    refine ⟨hseen, fun n hn hdone => ?_⟩
    obtain ⟨c, hc, hlt⟩ := hcut n hn hdone
    exact ⟨c, (leg_mono ρ h₀ (Nat.le_succ i) hi _).1 c hc, hlt⟩
  · rintro i hi ih y old new ho hnew hc hold rfl hl r T hr hT
    have hle := Nat.le_of_lt hi
    have hmono : ∀ u, Fenced ρ i y u r T → Fenced ρ (i + 1) y u r T := by
      rintro u ⟨hseen, hcut⟩
      refine ⟨hseen, fun n hn hdone => ?_⟩
      obtain ⟨c, hc, hlt⟩ := hcut n hn hdone
      exact ⟨c, (leg_mono ρ h₀ (Nat.le_succ i) hi _).1 c hc, hlt⟩
    cases hc with
    | same => exact hmono _ (hold _ rfl rfl hl r T hr hT)
    | metadata h =>
      rw [h.status] at hl hr hT
      obtain ⟨hseen, hcut⟩ := hmono _ (hold _ rfl rfl hl r T hr hT)
      exact ⟨by rwa [h.status], by rwa [h.status]⟩
    | @apply w q c pruned hq hw =>
      cases snap_landing h₀ hle hq hw (.inl ⟨c, rfl⟩) with
      | @opens u vol t h hrd =>
        obtain rfl : ⟨q.worker.node, (ρ.state i).tick⟩ = r := Option.some.inj hr
        have hstated : ∀ n ∈ Γ.diskful y, (applySlots w.status.perNode
            (openStatus q.worker.node vol.spec (stampOf t) u.status).perNode pruned).lookup n =
            if n = q.worker.node then some .suspended else some .pending := by
          intro n hn
          rw [mem_diskful h.spec] at hn
          rw [lookup_applySlots, openStatus_lookup]
          by_cases hself : n = q.worker.node <;> simp [hself, hn]
        refine ⟨fun n hn hne hup => ?_, fun n hn hdone => ?_⟩
        · have hup : raised ((applySlots w.status.perNode
            (openStatus q.worker.node vol.spec (stampOf t) u.status).perNode pruned).lookup n) =
            true := hup
          rw [hstated n hn, if_neg hne] at hup
          cases hup
        · have hdone : (applySlots w.status.perNode
            (openStatus q.worker.node vol.spec (stampOf t) u.status).perNode pruned).lookup n =
            some .done := hdone
          rw [hstated n hn] at hdone
          split_ifs at hdone <;> cases hdone
      | voids | publishes | member => cases hl
      | single h hrd hv =>
        obtain ⟨r', T', hr'⟩ := liveRound ρ h₀ hle h.held hl
        obtain ⟨spec, hs, hdr⟩ := hr'.drbd
        obtain rfl := Option.some.inj (hs.symm.trans h.spec)
        simp [hv] at hdr
    | @patch w q node stamp state hq hw hlive hstamp =>
      obtain ⟨hseen, hcut⟩ := hmono _ (hold _ rfl rfl hlive r T hr hT)
      obtain rfl : T = stamp := Option.some.inj (hT.symm.trans hstamp)
      -- The patching pass had read a live round with the stamp that is live now.
      have hpatch : q.seenStamp y = some T ∧ (state = .done →
          ∃ c ∈ ((ρ.state i).legs (Γ.leg y node)).cuts, r.openedAt < c.cutAt) := by
        have hsame : ∀ u : Snapshot, SnapHeld ρ i y u → u.status.ioSuspended →
            u.status.suspendedAt = some T → u.status.round = some r := by
          intro u hu hlu hTu
          obtain ⟨r₁, T₁, h₁⟩ := liveRound ρ h₀ hle hu hlu
          obtain ⟨r₂, T₂, h₂⟩ := liveRound ρ h₀ hle ⟨_, api_mem ρ h₀ hle, ho.symm⟩ hlive
          obtain rfl := Option.some.inj (h₁.stamp.symm.trans hTu)
          obtain rfl := Option.some.inj (h₂.stamp.symm.trans hT)
          obtain rfl := hd r₁ r₂ _ h₁.opens h₂.opens
          rw [h₁.round, ← h₂.round]
          exact hr
        cases snap_landing h₀ hle hq hw (.inr ⟨_, _, _, rfl⟩) with
        | raises h hrd hlu hsu =>
          exact ⟨by simp [Request.seenStamp, h.view, SnapshotStatus.liveStamp, hlu, hsu], by simp⟩
        | @cuts u vol stamp pool l t₁ t₂ h hc hsu hlog =>
          refine ⟨by simp [Request.seenStamp, h.view, SnapshotStatus.liveStamp, hc.live, hsu],
            fun _ => ?_⟩
          exact cut_after_open ρ h₀ hle (landing_spec ρ h₀ hle hq).2 h hc hlog
            (hsame u h.held hc.live hsu)
      refine ⟨fun n hn hne hup => ?_, fun n hn hdone => ?_⟩
      · by_cases hnn : n = node
        · subst hnn
          simp [AList.lookup_insert, hpatch.1]
        · simp only [AList.lookup_insert_ne hnn] at hup ⊢
          exact hseen n hn hne hup
      · by_cases hnn : n = node
        · subst hnn
          obtain ⟨c, hc, hlt⟩ := hpatch.2 (by simpa [AList.lookup_insert] using hdone)
          exact ⟨c, (leg_mono ρ h₀ (Nat.le_succ i) hi _).1 c hc, hlt⟩
        · simp only [AList.lookup_insert_ne hnn] at hdone
          exact hcut n hn hdone

/-- Whenever a round is live, every slot of a diskful replica other than the opener's that reads
`Suspended` or `Done` was written by a pass that had read this round, and the leg of every `Done`
slot was cut after the round opened. -/
theorem slot_fence (h₀ : Initial Γ s₀) {x : String} (hd : DistinctStamps ρ x) (hi : i ≤ N)
    {w : Snapshot} (hx : (ρ.state i).api.snap x = some w) (hl : w.status.ioSuspended = true) :
    ∃ r T, w.status.round = some r ∧ w.status.suspendedAt = some T ∧ OpensRound ρ x r T ∧
      (∀ n ∈ Γ.diskful x, n ≠ r.opener → raised (w.status.perNode.lookup n) = true →
        w.status.observed.lookup n = some (some T)) ∧
      ∀ n, w.status.perNode.lookup n = some .done →
        ∃ c ∈ ((ρ.state i).legs (Γ.leg x n)).cuts, r.openedAt < c.cutAt := by
  have hw : SnapHeld ρ i x w := ⟨_, api_mem ρ h₀ hi, hx⟩
  obtain ⟨r, T, hr⟩ := liveRound ρ h₀ hi hw hl
  obtain ⟨spec, hs, hdrbd⟩ := hr.drbd
  obtain ⟨hseen, hcut⟩ := fenced ρ h₀ hd hi hw hl hr.round hr.stamp
  exact ⟨r, T, hr.round, hr.stamp, hr.opens, hseen,
    fun n hn => hcut n (done_diskful ρ h₀ hi hw hs hdrbd hn) hn⟩

/-! ## Two runs -/

/-- The stamp with which a step opens a round of snapshot `x`. -/
def Action.opening (s : State) (x : String) (a : Action) : Option Stamp :=
  match a.landing s with
  | some ⟨_, _, .applySnap y c, _⟩ => if y = x ∧ c.ioSuspended then c.suspendedAt else none
  | _ => none

/-- Stamps are distinct if each of them says when its open landed. -/
theorem distinctStamps_of (f : Stamp → ℕ)
    (h : ∀ i < N, ∀ T, (ρ.act i).opening (ρ.state i) x = some T → i = f T) :
    DistinctStamps ρ x := by
  have hopens : ∀ r T, OpensRound ρ x r T → r.openedAt = f T := by
    rintro r T ⟨hr, ⟨w, job, wr, log⟩, c, hq, -, hw, hc, hT⟩
    obtain rfl : wr = _ := hw
    exact h r.openedAt hr T (by simp [Action.opening, hq, hc, hT])
  intro r r' T hr hr'
  have he : r.openedAt = r'.openedAt := (hopens r T hr).trans (hopens r' T hr').symm
  obtain ⟨-, q, -, hq, hn, -⟩ := hr
  obtain ⟨-, q', -, hq', hn', -⟩ := hr'
  rw [he, hq'] at hq
  obtain rfl := Option.some.inj hq
  cases r
  cases r'
  simp_all

/-- A replicated volume `v` with these replicas and clients, and the standalone snapshot `s`
of it. -/
def Config.standalone (replicas : List Replica) (clients : List VolumeClient) : Config where
  spec v := if v = "v" then some { sizeBytes := 100, drbd := true, replicas, clients } else none
  volumeOf _ := "v"
  groupOf _ := ""
  namesOf _ := []
  pools _ := ["default"]
  freezer _ := false
  resources _ := ["v"]

/-- Two diskful replicas. -/
def twoReplicas : Config := .standalone
  [{ node := "a", nodeID := 0, address := "10.0.0.1" },
    { node := "b", nodeID := 1, address := "10.0.0.2" }] []

/-- `a` opens a round, `b` raises its barrier, and `a` cuts its leg. -/
def halfRound : List Action :=
  snapshotPass "a" 0 5 [.lands {} none] ++ snapshotPass "b" 1 3 [.lands {} none] ++
    snapshotPass "a" 2 6 [.lands {} none]

/-- Every open of the list of actions lands when `f` says. -/
def opensWhen (f : Stamp → ℕ) (s : State) (a : Action) : Bool :=
  (a.opening s "s").all fun T => s.tick = f T

theorem halfRound_possible : allSteps (step twoReplicas) (opensWhen fun _ => 9)
    (.blank twoReplicas ["s"] [] [("a", "v")]) halfRound := by decide +kernel

def halfRoundRun : Run (step twoReplicas) (.blank twoReplicas ["s"] [] [("a", "v")]) 32 :=
  .ofActions _ _ _ halfRound halfRound_possible

theorem distinctStamps_ofActions {f : Stamp → ℕ} {s : State} {as : List Action} (h₀ : Initial Γ s)
    (h : allSteps (step Γ) (opensWhen f) s as) :
    DistinctStamps (Run.ofActions (step Γ) _ s as h) "s" := by
  refine distinctStamps_of _ f fun i hi T hT => ?_
  have hp := Run.ofActions_spec h hi
  rw [opensWhen, hT, Option.all_some, decide_eq_true_eq, tick_eq _ h₀ (Nat.le_of_lt hi)] at hp
  exact hp

theorem slot_fence_halfRound : ∃ w, (halfRoundRun.state 32).api.snap "s" = some w ∧
    w.status.ioSuspended = true ∧ w.status.perNode.lookup "a" = some .done ∧
    ∃ r T, w.status.round = some r ∧ w.status.suspendedAt = some T ∧
      OpensRound halfRoundRun "s" r T ∧
      (∀ n ∈ twoReplicas.diskful "s", n ≠ r.opener → raised (w.status.perNode.lookup n) = true →
        w.status.observed.lookup n = some (some T)) ∧
      ∀ n, w.status.perNode.lookup n = some .done →
        ∃ c ∈ ((halfRoundRun.state 32).legs (twoReplicas.leg "s" n)).cuts,
          r.openedAt < c.cutAt := by
  have hw : ((halfRoundRun.state 32).api.snap "s").any (fun w => w.status.ioSuspended &&
      decide (w.status.perNode.lookup "a" = some .done)) = true := by decide +kernel
  obtain ⟨w, hx, hw⟩ := (Option.any_eq_true _ _).mp hw
  obtain ⟨hl, hdone⟩ := Bool.and_eq_true_iff.mp hw
  exact ⟨w, hx, hl, of_decide_eq_true hdone, slot_fence halfRoundRun (Initial.blank ..)
    (distinctStamps_ofActions (Initial.blank ..) halfRound_possible) (Nat.le_refl _) hx hl⟩

/-- A diskful replica and a client. -/
def replicaAndClient : Config := .standalone
  [{ node := "b", nodeID := 0, address := "10.0.0.1" }]
  [{ node := "d", nodeID := 1, address := "10.0.0.2" }]

/-- The Primary client `d` opens a round and is demoted. Past the deadline `b` voids the round,
and after its backoff opens the next one. -/
def disklessOpener : List Action :=
  snapshotPass "d" 0 5 [.lands {} none] ++ [.role "d" "v" false, .advance (62 * second)] ++
    snapshotPass "b" 1 5 [.lands {} none] ++ [.advance (31 * second)] ++
    snapshotPass "b" 2 7 [.lands {} none]

theorem disklessOpener_possible : allSteps (step replicaAndClient)
    (opensWhen fun T => if T = 0 then 9 else 36) (.blank replicaAndClient ["s"] [] [("d", "v")])
    disklessOpener := by decide +kernel

def disklessOpenerRun :
    Run (step replicaAndClient) (.blank replicaAndClient ["s"] [] [("d", "v")]) 38 :=
  .ofActions _ _ _ disklessOpener disklessOpener_possible

/-- The client's slot outlives its round: it reads `Suspended` in a later live round that no pass
of the client has read. -/
theorem diskless_slot_outlives_round : DistinctStamps disklessOpenerRun "s" ∧
    ∃ w r T, (disklessOpenerRun.state 38).api.snap "s" = some w ∧ w.status.ioSuspended = true ∧
      w.status.round = some r ∧ w.status.suspendedAt = some T ∧ r.opener = "b" ∧
      w.status.perNode.lookup "d" = some .suspended ∧
      w.status.observed.lookup "d" ≠ some (some T) := by
  have hw : ((disklessOpenerRun.state 38).api.snap "s").any (fun w => w.status.ioSuspended &&
      w.status.round.any (fun r => r.opener = "b") &&
      w.status.suspendedAt.any (fun T => w.status.observed.lookup "d" ≠ some (some T)) &&
      decide (w.status.perNode.lookup "d" = some .suspended)) = true := by decide +kernel
  obtain ⟨w, hx, hw⟩ := (Option.any_eq_true _ _).mp hw
  simp only [Bool.and_eq_true, Option.any_eq_true, decide_eq_true_eq] at hw
  obtain ⟨⟨⟨hl, r, hr, hb⟩, T, hT, ho⟩, hd⟩ := hw
  exact ⟨distinctStamps_ofActions (Initial.blank ..) disklessOpener_possible,
    w, r, T, hx, hl, hr, hT, hb, hd, ho⟩

end Miroir
