import Miroir.Agent.SnapshotSpec
import Miroir.Agent.GroupSpec
import Miroir.Agent.SweepSpec
import Miroir.Cluster.Objects

/-!
# What holds in every run

Facts about every run of the cluster from an initial state, whatever the surroundings choose.
Moments are step counts (`tick_eq`), clocks and versions only grow, objects keep their specs and
the rounds they record lie in the past (`snapOk`, `groupOk`). Every entry of a pass's log is what
the pass was told at that moment of the run (`LogTrue`), and every command a pass asks and every
request that lands satisfies the specification of its reconciler (`asked_spec`, `landing_spec`).
-/

namespace Miroir

open Process

variable {Γ : Config} {s₀ : State} {N i j : ℕ} (ρ : Run (step Γ) s₀ N)

include ρ in
variable {v : Api} {w : Worker} {g job x : String} {l log : PassLog}

theorem stepped (hi : i < N) : Stepped Γ (ρ.state i) (ρ.act i) (ρ.state (i + 1)) :=
  stepped_of_step (ρ.next i hi)

theorem tick_eq (h₀ : Initial Γ s₀) (hi : i ≤ N) : (ρ.state i).tick = i :=
  ρ.invariant (P := fun i s => s.tick = i) h₀.tick (fun i hi h => by rw [(stepped ρ hi).tick, h]) hi

theorem clock_mono (hij : i ≤ j) (hj : j ≤ N) : (ρ.state i).clock ≤ (ρ.state j).clock :=
  ρ.related (r := fun s t => s.clock ≤ t.clock) (fun _ => Nat.le_refl _)
    (fun _ _ _ => Nat.le_trans) hij hj fun k _ hk => (stepped ρ (by omega)).clock_le

theorem versions_mono (hij : i ≤ j) (hj : j ≤ N) (hv : v ∈ (ρ.state i).versions) :
    v ∈ (ρ.state j).versions :=
  ρ.related (r := fun s t => ∀ v ∈ s.versions, v ∈ t.versions) (fun _ _ h => h)
    (fun _ _ _ h h' v hv => h' v (h v hv)) hij hj
    (fun k _ hk => (stepped ρ (by omega)).versions_cases.1) v hv

theorem api_mem (h₀ : Initial Γ s₀) (hi : i ≤ N) : (ρ.state i).api ∈ (ρ.state i).versions := by
  refine ρ.invariant (P := fun _ s => s.api ∈ s.versions) ?_ (fun i hi h => ?_) hi
  · simp [h₀.versions]
  · rcases (stepped ρ hi).api_cases with ⟨-, -, -, -, he⟩ | ⟨-, -, -, -, -, he⟩ |
      ⟨-, -, -, -, -, he⟩ | ⟨ha, he⟩
    · simp [he]
    · simp [he]
    · simp [he]
    · rwa [ha, he]

/-! ## Passes -/

/-- The specification of a worker's pass. -/
def guard (Γ : Config) (w : Worker) (job : String) : PassLog → Cmd → Prop :=
  match w.task with
  | .snapshot => snapGuard (Γ.agent w.node) job
  | .group => groupGuard (Γ.agent w.node) job
  | .sweep => sweepGuard

theorem guard_cases {c : Cmd}
    (h : guard Γ w job log c) :
    (w.task = .snapshot ∧ snapGuard (Γ.agent w.node) job log c) ∨
      (w.task = .group ∧ groupGuard (Γ.agent w.node) job log c) ∨
      (w.task = .sweep ∧ sweepGuard log c) := by
  obtain ⟨n, t⟩ := w
  cases t with
  | snapshot => exact .inl ⟨rfl, h⟩
  | group => exact .inr (.inl ⟨rfl, h⟩)
  | sweep => exact .inr (.inr ⟨rfl, h⟩)

/-- Only the two reconcilers write. -/
theorem guard_write {wr : Write}
    (h : guard Γ w job log (.write wr)) :
    (w.task = .snapshot ∧ SnapWrite (Γ.agent w.node) job log wr) ∨
      (w.task = .group ∧ GroupWrite (Γ.agent w.node) job log wr) := by
  rcases guard_cases h with h | h | ⟨-, h⟩
  exacts [.inl h, .inr h, h.elim]

/-- What holds when a worker's pass returns. -/
def post (w : Worker) : PassLog → Result → Prop :=
  match w.task with
  | .sweep => fun l _ => Accounted l
  | _ => fun _ _ => True

theorem program_obeys (Γ : Config) (w : Worker) (job : String) :
    Prog.Obeys (guard Γ w job) (post w) [] (program Γ w job) := by
  obtain ⟨n, t⟩ := w
  cases t with
  | snapshot => exact SnapshotReconciler.reconcile_obeys _ _
  | group => exact GroupSnapshotReconciler.reconcile_obeys _ _
  | sweep => exact resumeStaleBarriers_obeys _

/-- Worker `w` was told `e` at moment `e.time`, with log `l` before. -/
def Told (w : Worker) (job : String) (e : Entry Nat Ans) (l : PassLog) : Prop :=
  ∃ o k s₁, ρ.act e.time = .reply w o ∧ (ρ.state e.time).pass w = some ⟨job, l, .ask e.cmd k⟩ ∧
    Answered Γ (ρ.state e.time) w job l e.cmd o e.ans s₁ ∧
    ρ.state (e.time + 1) = { s₁.setPass w (some ⟨job, e :: l, k e.ans⟩) with tick := e.time + 1 }

/-- Every entry of the log is what the worker was told then, the newest before moment `i`. -/
def LogTrue (w : Worker) (job : String) : PassLog → ℕ → Prop
  | [], _ => True
  | e :: l, i => e.time < i ∧ Told ρ w job e l ∧ LogTrue w job l e.time

variable {ρ}

theorem LogTrue.mono (h : LogTrue ρ w job l i)
    (hij : i ≤ j) : LogTrue ρ w job l j := by
  cases l with
  | nil => trivial
  | cons e l => exact ⟨Nat.lt_of_lt_of_le h.1 hij, h.2⟩

/-- What comes before some entries of a true log is true before the last of them. -/
theorem LogTrue.of_append {new : PassLog}
    (h : LogTrue ρ w job (new ++ l) i) : LogTrue ρ w job l i := by
  induction new generalizing i with
  | nil => exact h
  | cons e new ih => exact (ih h.2.2).mono (Nat.le_of_lt h.1)

theorem LogTrue.told (h : LogTrue ρ w job l i)
    {e : Entry Nat Ans} (he : e ∈ l) : ∃ l', e.time < i ∧ Told ρ w job e l' := by
  induction l generalizing i with
  | nil => simp at he
  | cons e' l ih =>
    rcases List.mem_cons.mp he with rfl | he
    · exact ⟨l, h.1, h.2.1⟩
    · obtain ⟨l', hlt, ht⟩ := ih h.2.2 he
      exact ⟨l', Nat.lt_trans hlt h.1, ht⟩

variable (ρ)

/-- A pass obeys its specification from its log on, and its log is true. -/
def PassOk (Γ : Config) (ρ : Run (step Γ) s₀ N) (i : ℕ) (w : Worker) (p : Pass) : Prop :=
  Prog.Obeys (guard Γ w p.job) (post w) p.log p.prog ∧ LogTrue ρ w p.job p.log i

theorem passOk (h₀ : Initial Γ s₀) (hi : i ≤ N) {p : Pass}
    (hp : (ρ.state i).pass w = some p) : PassOk Γ ρ i w p := by
  refine ρ.invariant (P := fun i s => ∀ w p, s.pass w = some p → PassOk Γ ρ i w p) ?_ ?_ hi w p hp
  · intro w p hp
    simp [h₀.pass] at hp
  · intro i hi ih w p hp
    rcases (stepped ρ hi).pass_cases w with h | h | ⟨job, -, h⟩ |
      ⟨o, job, log, c, k, r, s₁, ha, hw, hans, h⟩
    · obtain ⟨hg, hl⟩ := ih w p (h ▸ hp)
      exact ⟨hg, hl.mono (Nat.le_succ i)⟩
    · simp [h] at hp
    · obtain rfl : _ = p := by simpa [h] using hp
      exact ⟨program_obeys Γ w job, trivial⟩
    · have ht := tick_eq ρ h₀ (Nat.le_of_lt hi)
      rw [ht] at h
      obtain rfl : _ = p := by simpa [h, State.setPass] using hp
      obtain ⟨hg, hl⟩ := ih w _ hw
      exact ⟨hg.2 i r, Nat.lt_succ_self i, ⟨o, k, s₁, ha, hw, hans, h⟩, hl⟩

/-- What a step answers is a command its reconciler may ask there. -/
theorem asked_spec (h₀ : Initial Γ s₀) (hi : i ≤ N) {q : Asked}
    (hq : (ρ.act i).command (ρ.state i) = some q) :
    guard Γ q.worker q.job q.log q.cmd ∧ LogTrue ρ q.worker q.job q.log i := by
  unfold Action.command at hq
  split at hq
  · split at hq
    · rename_i hp
      cases hq
      obtain ⟨hg, hl⟩ := passOk ρ h₀ hi hp
      exact ⟨hg.1, hl⟩
    · cases hq
  · cases hq

/-- A write in flight is one its reconciler may have issued. -/
theorem inflight_spec (h₀ : Initial Γ s₀) (hi : i ≤ N) {q : Request}
    (hq : q ∈ (ρ.state i).inflight) :
    guard Γ q.worker q.job q.log (.write q.write) ∧ LogTrue ρ q.worker q.job q.log i := by
  refine ρ.invariant (P := fun i s => ∀ q ∈ s.inflight,
    guard Γ q.worker q.job q.log (.write q.write) ∧ LogTrue ρ q.worker q.job q.log i)
    ?_ ?_ hi q hq
  · simp [h₀.inflight]
  · intro i hi ih q hq
    rcases (stepped ρ hi).inflight_cases hq with hq | ⟨k, hp⟩
    · obtain ⟨hg, hl⟩ := ih q hq
      exact ⟨hg, hl.mono (Nat.le_succ i)⟩
    · obtain ⟨hg, hl⟩ := passOk ρ h₀ (Nat.le_of_lt hi) hp
      exact ⟨hg.1, hl.mono (Nat.le_succ i)⟩

/-- What lands is a write its reconciler may have issued. -/
theorem landing_spec (h₀ : Initial Γ s₀) (hi : i ≤ N) {q : Request}
    (hq : (ρ.act i).landing (ρ.state i) = some q) :
    guard Γ q.worker q.job q.log (.write q.write) ∧ LogTrue ρ q.worker q.job q.log i := by
  unfold Action.landing at hq
  split at hq
  · exact inflight_spec ρ h₀ hi (List.mem_of_getElem? hq)
  · split at hq
    · rename_i hp
      cases hq
      obtain ⟨hg, hl⟩ := passOk ρ h₀ hi hp
      exact ⟨hg.1, hl⟩
    · cases hq
  · cases hq

/-! ## What a pass has read -/

section Read

variable {ρ} {w : Worker} {job : String} {log : PassLog} {s s₁ : State} {o : Outcome}

variable {g v x : String} {u : Option SnapshotGroup} {t : ℕ}

theorem Answered.cachedSnapshot_mem {r : Ans (.cachedSnapshot x)}
    {u : Option Snapshot} (h : Answered Γ s w job log (.cachedSnapshot x) o r s₁)
    (hr : r = .ok u) : ∃ v ∈ s.versions, v.snap x = u := by
  cases h with
  | failed h =>
    subst hr
    cases h
  | cachedSnapshot hi hv => exact ⟨_, List.mem_of_getElem? hv, Except.ok.inj hr⟩

theorem Answered.cachedGroup_mem {r : Ans (.cachedGroup g)}
    (h : Answered Γ s w job log (.cachedGroup g) o r s₁)
    (hr : r = .ok u) : ∃ v ∈ s.versions, v.group g = u := by
  cases h with
  | failed h =>
    subst hr
    cases h
  | cachedGroup hi hv => exact ⟨_, List.mem_of_getElem? hv, Except.ok.inj hr⟩

theorem Answered.cachedVolume_spec {r : Ans (.cachedVolume v)} {u : Volume}
    (h : Answered Γ s w job log (.cachedVolume v) o r s₁) (hr : r = .ok (some u)) :
    u.name = v ∧ Γ.spec v = some u.spec := by
  cases h with
  | failed h =>
    subst hr
    cases h
  | cachedVolume st =>
    have hu := Except.ok.inj hr
    cases hs : Γ.spec v with
    | none => cases st <;> simp [hs] at hu
    | some spec =>
      cases st with
      | none => simp at hu
      | some st =>
        simp only [hs, Option.bind_some, Option.map_some, Option.some.injEq] at hu
        subst hu
        exact ⟨rfl, rfl⟩

theorem LogTrue.cachedSnapshot (h : LogTrue ρ w job log i) (hi : i ≤ N)
    {u : Option Snapshot} (he : (⟨t, .cachedSnapshot x, .ok u⟩ : Entry Nat Ans) ∈ log) :
    ∃ v ∈ (ρ.state i).versions, v.snap x = u := by
  obtain ⟨l', hlt, o, k, s₁, -, -, ha, -⟩ := h.told he
  obtain ⟨v, hv, hu⟩ := ha.cachedSnapshot_mem rfl
  exact ⟨v, versions_mono ρ (Nat.le_of_lt hlt) hi hv, hu⟩

theorem LogTrue.cachedGroup (h : LogTrue ρ w job log i) (hi : i ≤ N)
    (he : (⟨t, .cachedGroup g, .ok u⟩ : Entry Nat Ans) ∈ log) :
    ∃ v ∈ (ρ.state i).versions, v.group g = u := by
  obtain ⟨l', hlt, o, k, s₁, -, -, ha, -⟩ := h.told he
  obtain ⟨v, hv, hu⟩ := ha.cachedGroup_mem rfl
  exact ⟨v, versions_mono ρ (Nat.le_of_lt hlt) hi hv, hu⟩

theorem LogTrue.cachedVolume (h : LogTrue ρ w job log i) {u : Volume}
    (he : (⟨t, .cachedVolume v, .ok (some u)⟩ : Entry Nat Ans) ∈ log) :
    u.name = v ∧ Γ.spec v = some u.spec := by
  obtain ⟨l', hlt, o, k, s₁, -, -, ha, -⟩ := h.told he
  exact ha.cachedVolume_spec rfl

theorem snapView_mem {u : Snapshot} (h : snapView x log = some u) :
    ∃ t, (⟨t, .cachedSnapshot x, .ok (some u)⟩ : Entry Nat Ans) ∈ log := by
  fun_induction snapView x log with
  | case1 => cases h
  | case2 t w l =>
    obtain rfl := Option.some.inj h
    exact ⟨t, .head _⟩
  | case3 t y w l hy ih => exact (ih h).imp fun _ => List.mem_cons_of_mem _
  | case4 e l he ih => exact (ih h).imp fun _ => List.mem_cons_of_mem _

theorem groupView_mem {u : SnapshotGroup} (h : groupView g log = some u) :
    ∃ t, (⟨t, .cachedGroup g, .ok (some u)⟩ : Entry Nat Ans) ∈ log := by
  fun_induction groupView g log with
  | case1 => cases h
  | case2 t w l =>
    obtain rfl := Option.some.inj h
    exact ⟨t, .head _⟩
  | case3 t y w l hy ih => exact (ih h).imp fun _ => List.mem_cons_of_mem _
  | case4 e l he ih => exact (ih h).imp fun _ => List.mem_cons_of_mem _

/-- A snapshot view is a version the API server has held. -/
theorem LogTrue.snapView (h : LogTrue ρ w job log i) (hi : i ≤ N) {u : Snapshot}
    (hu : snapView x log = some u) : ∃ v ∈ (ρ.state i).versions, v.snap x = some u :=
  (snapView_mem hu).elim fun _ he => h.cachedSnapshot hi he

/-- A group view is a version the API server has held. -/
theorem LogTrue.groupView (h : LogTrue ρ w job log i) (hi : i ≤ N)
    {u : SnapshotGroup} (hu : groupView g log = some u) :
    ∃ v ∈ (ρ.state i).versions, v.group g = some u :=
  (groupView_mem hu).elim fun _ he => h.cachedGroup hi he

/-! What a pass gets from the API server or the clock is what is there at that moment. -/

theorem Answered.getSnapshot_eq {r : Ans (.getSnapshot x)} {u : Option Snapshot}
    (h : Answered Γ s w job log (.getSnapshot x) o r s₁) (hr : r = .ok u) : u = s.api.snap x := by
  cases h with
  | failed h => subst hr; cases h
  | getSnapshot => exact (Except.ok.inj hr).symm

theorem Answered.getGroup_eq {r : Ans (.getGroup g)}
    (h : Answered Γ s w job log (.getGroup g) o r s₁) (hr : r = .ok u) : u = s.api.group g := by
  cases h with
  | failed h => subst hr; cases h
  | getGroup => exact (Except.ok.inj hr).symm

theorem Answered.listSnapshots_eq {r : Ans .listSnapshots} {items : List Snapshot}
    (h : Answered Γ s w job log .listSnapshots o r s₁) (hr : r = .ok items) :
    items = s.api.listSnapshots := by
  cases h with
  | failed h => subst hr; cases h
  | listSnapshots => exact (Except.ok.inj hr).symm

theorem Answered.listGroups_eq {r : Ans .listGroups} {items : List SnapshotGroup}
    (h : Answered Γ s w job log .listGroups o r s₁) (hr : r = .ok items) :
    items = s.api.listGroups := by
  cases h with
  | failed h => subst hr; cases h
  | listGroups => exact (Except.ok.inj hr).symm

theorem Answered.now_eq {r : Ans .now} (h : Answered Γ s w job log .now o r s₁) : r = s.clock := by
  cases h with
  | failed h => cases h
  | now => rfl

theorem LogTrue.getSnapshot (h : LogTrue ρ w job log i)
    {u : Option Snapshot} (he : (⟨t, .getSnapshot x, .ok u⟩ : Entry Nat Ans) ∈ log) :
    t < i ∧ u = (ρ.state t).api.snap x := by
  obtain ⟨l', hlt, o, k, s₁, -, -, ha, -⟩ := h.told he
  exact ⟨hlt, ha.getSnapshot_eq rfl⟩

theorem LogTrue.getGroup (h : LogTrue ρ w job log i)
    (he : (⟨t, .getGroup g, .ok u⟩ : Entry Nat Ans) ∈ log) :
    t < i ∧ u = (ρ.state t).api.group g := by
  obtain ⟨l', hlt, o, k, s₁, -, -, ha, -⟩ := h.told he
  exact ⟨hlt, ha.getGroup_eq rfl⟩

theorem LogTrue.listSnapshots (h : LogTrue ρ w job log i) {items : List Snapshot}
    (he : (⟨t, .listSnapshots, .ok items⟩ : Entry Nat Ans) ∈ log) :
    t < i ∧ items = (ρ.state t).api.listSnapshots := by
  obtain ⟨l', hlt, o, k, s₁, -, -, ha, -⟩ := h.told he
  exact ⟨hlt, ha.listSnapshots_eq rfl⟩

theorem LogTrue.listGroups (h : LogTrue ρ w job log i) {items : List SnapshotGroup}
    (he : (⟨t, .listGroups, .ok items⟩ : Entry Nat Ans) ∈ log) :
    t < i ∧ items = (ρ.state t).api.listGroups := by
  obtain ⟨l', hlt, o, k, s₁, -, -, ha, -⟩ := h.told he
  exact ⟨hlt, ha.listGroups_eq rfl⟩

theorem LogTrue.now (h : LogTrue ρ w job log i) {τ : ℕ}
    (he : (⟨τ, .now, t⟩ : Entry Nat Ans) ∈ log) : τ < i ∧ t = (ρ.state τ).clock := by
  obtain ⟨l', hlt, o, k, s₁, -, -, ha, -⟩ := h.told he
  exact ⟨hlt, ha.now_eq⟩

end Read

/-! ## Objects -/

/-- The snapshot object is as its spec says, and its round is before `i`. -/
structure SnapOk (Γ : Config) (i : ℕ) (x : String) (w : Snapshot) : Prop where
  name : w.name = x
  volumeName : w.volumeName = Γ.volumeOf x
  group : w.group = Γ.groupOf x
  round : ∀ r, w.status.round = some r → r.openedAt < i

/-- The group object is as its spec says, and its round is before `i`. -/
structure GroupOk (Γ : Config) (i : ℕ) (g : String) (w : SnapshotGroup) : Prop where
  name : w.name = g
  snapshotNames : w.snapshotNames = Γ.namesOf g
  round : ∀ r, w.status.round = some r → r.openedAt < i

theorem SnapOk.mono {w : Snapshot} (h : SnapOk Γ i x w) (hij : i ≤ j) :
    SnapOk Γ j x w :=
  { h with round := fun r hr => Nat.lt_of_lt_of_le (h.round r hr) hij }

theorem GroupOk.mono {w : SnapshotGroup} (h : GroupOk Γ i g w) (hij : i ≤ j) :
    GroupOk Γ j g w :=
  { h with round := fun r hr => Nat.lt_of_lt_of_le (h.round r hr) hij }

/-- An apply that opens no round keeps the round of the view it was computed from. -/
theorem applySnap_round {a : Agent} {y : String} {c : SnapshotApply}
    (h : SnapWrite a job log (.applySnap y c)) :
    ∃ w, snapView job log = some w ∧ w.name = y ∧ c.round = w.status.round := by
  generalize hw : Write.applySnap y c = wr at h
  cases h with
  | opens h | voids h | publishes h =>
    cases hw
    exact ⟨_, h.snap_eq, rfl, rfl⟩
  | single h =>
    cases hw
    exact ⟨_, h.snap_eq, rfl, rfl⟩
  | raises | cuts | finalizer => cases hw

theorem applyGroup_round {a : Agent} {c : GroupApply}
    (h : GroupWrite a job log (.applyGroup g c)) :
    ∃ w, groupView job log = some w ∧ w.name = g ∧ c.round = w.status.round := by
  generalize hw : Write.applyGroup g c = wr at h
  cases h with
  | opens h | voids h | seals h =>
    cases hw
    exact ⟨_, h.view_eq, rfl, rfl⟩
  | publishes | raises | cuts | finalizer => cases hw

/-- A property of snapshots that may speak of the moment holds of every version the API server
has held, if it holds of the first ones, stays true, and every change of the current one keeps
it. -/
theorem snapVersions {P : ℕ → String → Snapshot → Prop} (h₀ : Initial Γ s₀)
    (hinit : ∀ x w, s₀.api.snap x = some w → P 0 x w)
    (hmono : ∀ i < N, ∀ x w, P i x w → P (i + 1) x w)
    (hstep : ∀ i < N, (∀ v ∈ (ρ.state i).versions, ∀ x w, v.snap x = some w → P i x w) →
      ∀ x old new, old = (ρ.state i).api.snap x → (ρ.state (i + 1)).api.snap x = some new →
        SnapChange (ρ.state i) ((ρ.act i).landing (ρ.state i)) x old (some new) →
        (∀ w, old = some w → P i x w) → P (i + 1) x new)
    (hi : i ≤ N) (hv : v ∈ (ρ.state i).versions) {w : Snapshot}
    (hx : v.snap x = some w) : P i x w := by
  refine ρ.invariant (P := fun i s => ∀ v ∈ s.versions, ∀ x w, v.snap x = some w → P i x w)
    ?_ ?_ hi v hv x w hx
  · intro v hv x w hx
    rw [h₀.versions, List.mem_singleton] at hv
    exact hinit x w (hv ▸ hx)
  · intro i hi ih v hv x w hx
    rcases (stepped ρ hi).versions_cases.2 v hv with hv | rfl
    · exact hmono i hi x w (ih v hv x w hx)
    · have hc := (stepped ρ hi).snap_cases x
      rw [hx] at hc
      exact hstep i hi ih x _ w rfl hx hc
        fun u hu => ih _ (api_mem ρ h₀ (Nat.le_of_lt hi)) x u hu

theorem groupVersions {P : ℕ → String → SnapshotGroup → Prop} (h₀ : Initial Γ s₀)
    (hinit : ∀ x w, s₀.api.group x = some w → P 0 x w)
    (hmono : ∀ i < N, ∀ x w, P i x w → P (i + 1) x w)
    (hstep : ∀ i < N, (∀ v ∈ (ρ.state i).versions, ∀ x w, v.group x = some w → P i x w) →
      ∀ x old new, old = (ρ.state i).api.group x → (ρ.state (i + 1)).api.group x = some new →
        GroupChange (ρ.state i) ((ρ.act i).landing (ρ.state i)) x old (some new) →
        (∀ w, old = some w → P i x w) → P (i + 1) x new)
    (hi : i ≤ N) (hv : v ∈ (ρ.state i).versions) {w : SnapshotGroup}
    (hx : v.group x = some w) : P i x w := by
  refine ρ.invariant (P := fun i s => ∀ v ∈ s.versions, ∀ x w, v.group x = some w → P i x w)
    ?_ ?_ hi v hv x w hx
  · intro v hv x w hx
    rw [h₀.versions, List.mem_singleton] at hv
    exact hinit x w (hv ▸ hx)
  · intro i hi ih v hv x w hx
    rcases (stepped ρ hi).versions_cases.2 v hv with hv | rfl
    · exact hmono i hi x w (ih v hv x w hx)
    · have hc := (stepped ρ hi).group_cases x
      rw [hx] at hc
      exact hstep i hi ih x _ w rfl hx hc
        fun u hu => ih _ (api_mem ρ h₀ (Nat.le_of_lt hi)) x u hu

theorem snapOk (h₀ : Initial Γ s₀) (hi : i ≤ N) (hv : v ∈ (ρ.state i).versions)
    {w : Snapshot} (hx : v.snap x = some w) : SnapOk Γ i x w := by
  refine snapVersions ρ (P := SnapOk Γ) h₀ ?_ (fun i _ x w h => h.mono (Nat.le_succ i)) ?_ hi hv hx
  · intro x w hx
    obtain ⟨hn, hv, hg, hs⟩ := h₀.snaps x w hx
    exact ⟨hn, hv, hg, by simp [hs]⟩
  · intro i hi ih x old new ho hnew hc hold
    cases hc with
    | same => exact (hold new rfl).mono (Nat.le_succ i)
    | metadata h =>
      have hw := (hold _ rfl).mono (Nat.le_succ i)
      exact ⟨h.name ▸ hw.name, h.volumeName ▸ hw.volumeName, h.group ▸ hw.group,
        fun r hr => hw.round r (h.status ▸ hr)⟩
    | patch => exact { (hold _ rfl).mono (Nat.le_succ i) with }
    | @apply w q c pruned hq hw =>
      refine { (hold _ rfl).mono (Nat.le_succ i) with round := fun r hr => ?_ }
      obtain ⟨hg, hl⟩ := landing_spec ρ h₀ (Nat.le_of_lt hi) hq
      have ht := tick_eq ρ h₀ (Nat.le_of_lt hi)
      simp only [SnapshotStatus.apply] at hr
      split at hr
      · obtain rfl := Option.some.inj hr
        simp [ht]
      · rw [hw] at hg
        rcases guard_write hg with ⟨-, hg⟩ | ⟨-, hg⟩
        · obtain ⟨u, hu, -, hcr⟩ := applySnap_round hg
          obtain ⟨v, hv, hvu⟩ := hl.snapView (Nat.le_of_lt hi) hu
          exact Nat.lt_succ_of_lt ((ih v hv _ u hvu).round r (hcr ▸ hr))
        · generalize hwr : Write.applySnap x c = wr at hg
          cases hg with
          | publishes => cases hwr; cases hr
          | _ => cases hwr

theorem groupOk (h₀ : Initial Γ s₀) (hi : i ≤ N) (hv : v ∈ (ρ.state i).versions)
    {w : SnapshotGroup} (hx : v.group g = some w) : GroupOk Γ i g w := by
  refine groupVersions ρ (P := GroupOk Γ) h₀ ?_ (fun i _ x w h => h.mono (Nat.le_succ i)) ?_
    hi hv hx
  · intro g w hx
    obtain ⟨hn, hm, hs⟩ := h₀.groups g w hx
    exact ⟨hn, hm, by simp [hs]⟩
  · intro i hi ih g old new ho hnew hc hold
    cases hc with
    | same => exact (hold new rfl).mono (Nat.le_succ i)
    | metadata h =>
      have hw := (hold _ rfl).mono (Nat.le_succ i)
      exact ⟨h.name ▸ hw.name, h.snapshotNames ▸ hw.snapshotNames,
        fun r hr => hw.round r (h.status ▸ hr)⟩
    | merge => exact { (hold _ rfl).mono (Nat.le_succ i) with }
    | @apply w q c pruned hq hw =>
      refine { (hold _ rfl).mono (Nat.le_succ i) with round := fun r hr => ?_ }
      obtain ⟨hg, hl⟩ := landing_spec ρ h₀ (Nat.le_of_lt hi) hq
      have ht := tick_eq ρ h₀ (Nat.le_of_lt hi)
      simp only [GroupStatus.apply] at hr
      split at hr
      · obtain rfl := Option.some.inj hr
        simp [ht]
      · rw [hw] at hg
        rcases guard_write hg with ⟨-, hg⟩ | ⟨-, hg⟩
        · cases hg
        · obtain ⟨u, hu, -, hcr⟩ := applyGroup_round hg
          obtain ⟨v, hv, hvu⟩ := hl.groupView (Nat.le_of_lt hi) hu
          exact Nat.lt_succ_of_lt ((ih v hv _ u hvu).round r (hcr ▸ hr))

/-! ## Legs -/

/-- What holds of a leg at moment `i`: its deletions and cuts are in the past, and a leg the
backend holds has been cut since its last deletion. -/
structure LegOk (i : ℕ) (leg : Leg) : Prop where
  deleted : ∀ d, leg.deletedAt = some d → d < i
  cut : ∀ c ∈ leg.cuts, c.cutAt < i
  recut : leg.present = true → ∀ d, leg.deletedAt = some d →
    ∃ c ∈ leg.cuts, c.deletedAt = some d ∧ d < c.cutAt

/-- A later leg has all cuts of the earlier one, and its last deletion is no earlier. -/
def LegLe (leg leg' : Leg) : Prop :=
  (∀ c ∈ leg.cuts, c ∈ leg'.cuts) ∧
    ∀ d, leg.deletedAt = some d → ∃ d', leg'.deletedAt = some d' ∧ d ≤ d'

theorem LegLe.refl (leg : Leg) : LegLe leg leg := ⟨fun _ h => h, fun d h => ⟨d, h, Nat.le_refl d⟩⟩

theorem LegOk.delete {leg : Leg} (h : LegOk i leg) : LegOk (i + 1) (leg.delete i) where
  deleted d hd := by
    obtain rfl : i = d := Option.some.inj hd
    exact Nat.lt_succ_self i
  cut c hc := Nat.lt_succ_of_lt (h.cut c hc)
  recut hp := by cases hp

theorem LegOk.cutAt {leg : Leg} (h : LegOk i leg) (r : Option Round) :
    LegOk (i + 1) (leg.cut i r) := by
  unfold Leg.cut
  split
  · exact ⟨fun d hd => Nat.lt_succ_of_lt (h.deleted d hd),
      fun c hc => Nat.lt_succ_of_lt (h.cut c hc), h.recut⟩
  · refine ⟨fun d hd => Nat.lt_succ_of_lt (h.deleted d hd), fun c hc => ?_, fun _ d hd => ?_⟩
    · rcases List.mem_cons.mp hc with rfl | hc
      · exact Nat.lt_succ_self i
      · exact Nat.lt_succ_of_lt (h.cut c hc)
    · exact ⟨_, .head _, hd, h.deleted d hd⟩

theorem legOk (h₀ : Initial Γ s₀) (hi : i ≤ N) (k : LegKey) : LegOk i ((ρ.state i).legs k) := by
  refine ρ.invariant (P := fun i s => LegOk i (s.legs k)) ?_ ?_ hi
  · obtain ⟨hd, hc⟩ := h₀.legs k
    exact ⟨by simp [hd], by simp [hc], by simp [hd]⟩
  · intro i hi ih
    have ht := tick_eq ρ h₀ (Nat.le_of_lt hi)
    rcases (stepped ρ hi).leg_cases k with h | ⟨q, -, -, v, ⟨-, h⟩ | ⟨-, h⟩⟩
    · rw [h]
      exact ⟨fun d hd => Nat.lt_succ_of_lt (ih.deleted d hd),
        fun c hc => Nat.lt_succ_of_lt (ih.cut c hc), ih.recut⟩
    · rw [h, ht]
      exact ih.delete
    · rw [h, ht]
      exact ih.cutAt _

theorem leg_mono (h₀ : Initial Γ s₀) (hij : i ≤ j) (hj : j ≤ N) (k : LegKey) :
    LegLe ((ρ.state i).legs k) ((ρ.state j).legs k) := by
  refine ρ.related (r := fun s t => LegLe (s.legs k) (t.legs k)) (fun s => LegLe.refl _) ?_
    hij hj ?_
  · rintro s t u ⟨h₁, h₂⟩ ⟨h₃, h₄⟩
    refine ⟨fun c hc => h₃ c (h₁ c hc), fun d hd => ?_⟩
    obtain ⟨d', hd', hle⟩ := h₂ d hd
    obtain ⟨d'', hd'', hle'⟩ := h₄ d' hd'
    exact ⟨d'', hd'', Nat.le_trans hle hle'⟩
  · intro n hn hnj
    have hok := legOk ρ h₀ (by omega : n ≤ N) k
    have ht := tick_eq ρ h₀ (by omega : n ≤ N)
    rcases (stepped ρ (by omega : n < N)).leg_cases k with h | ⟨q, -, -, v, ⟨-, h⟩ | ⟨-, h⟩⟩
    · rw [h]
      exact LegLe.refl _
    · rw [h, ht]
      exact ⟨fun c hc => hc, fun d hd => ⟨n, rfl, Nat.le_of_lt (hok.deleted d hd)⟩⟩
    · rw [h]
      unfold Leg.cut
      split
      · exact LegLe.refl _
      · exact ⟨fun c hc => .tail _ hc, fun d hd => ⟨d, hd, Nat.le_refl d⟩⟩

section Told

variable {ρ} {w : Worker} {job : String} {log : PassLog} {pool v x : String}

theorem Told.deleteSnapshot {t : ℕ}
    (h : Told ρ w job ⟨t, .deleteSnapshot pool v x, .ok ()⟩ log) :
    (ρ.state (t + 1)).legs ⟨w.node, pool, x⟩ =
      ((ρ.state t).legs ⟨w.node, pool, x⟩).delete (ρ.state t).tick := by
  obtain ⟨o, k, s₁, -, -, ha, hs⟩ := h
  have hl : (ρ.state (t + 1)).legs = s₁.legs := by rw [hs]; rfl
  generalize hr : (Except.ok () : Except Err Unit) = r at ha
  rw [hl]
  cases ha with
  | failed h => subst hr; cases h
  | deleteSnapshot => exact Function.update_self ..

theorem Told.snapshot {t : ℕ} (h : Told ρ w job ⟨t, .snapshot pool v x, .ok ()⟩ log) :
    (ρ.state (t + 1)).legs ⟨w.node, pool, x⟩ =
      ((ρ.state t).legs ⟨w.node, pool, x⟩).cut (ρ.state t).tick (viewRound w.task job log) := by
  obtain ⟨o, k, s₁, -, -, ha, hs⟩ := h
  have hl : (ρ.state (t + 1)).legs = s₁.legs := by rw [hs]; rfl
  generalize hr : (Except.ok () : Except Err Unit) = r at ha
  rw [hl]
  cases ha with
  | failed h => subst hr; cases h
  | snapshot => exact Function.update_self ..

theorem Leg.cut_present (leg : Leg) (t : ℕ) (r : Option Round) : (leg.cut t r).present := by
  unfold Leg.cut
  split
  · assumption
  · rfl

theorem Leg.cut_deletedAt (leg : Leg) (t : ℕ) (r : Option Round) :
    (leg.cut t r).deletedAt = leg.deletedAt := by
  unfold Leg.cut
  split <;> rfl

/-- A pass that deleted and then cut a leg leaves a cut made after its deletion, whatever else
touched the leg in between. -/
theorem LogTrue.recut (h₀ : Initial Γ s₀) (hi : i ≤ N) {t₁ t₂ : ℕ}
    (h : LogTrue ρ w job (⟨t₂, .snapshot pool v x, .ok ()⟩ ::
      ⟨t₁, .deleteSnapshot pool v x, .ok ()⟩ :: log) i) :
    ∃ c ∈ ((ρ.state i).legs ⟨w.node, pool, x⟩).cuts, ∃ d, c.deletedAt = some d ∧ t₁ ≤ d ∧
      d < c.cutAt := by
  obtain ⟨h₂i, hcut, h₁₂, hdel, -⟩ := h
  have h₂i : t₂ + 1 ≤ i := h₂i
  have h₁₂ : t₁ + 1 ≤ t₂ := h₁₂
  have hd : ((ρ.state (t₁ + 1)).legs ⟨w.node, pool, x⟩).deletedAt = some t₁ := by
    rw [hdel.deleteSnapshot, tick_eq ρ h₀ (by omega)]
    rfl
  obtain ⟨d, hd, hle⟩ := (leg_mono ρ h₀ h₁₂ (by omega) ⟨w.node, pool, x⟩).2 t₁ hd
  have hc := hcut.snapshot
  have hok := legOk ρ h₀ (by omega : t₂ + 1 ≤ N) ⟨w.node, pool, x⟩
  obtain ⟨c, hmem, hcd, hlt⟩ := hok.recut (by rw [hc]; exact Leg.cut_present ..) d
    (by rw [hc, Leg.cut_deletedAt]; exact hd)
  exact ⟨c, (leg_mono ρ h₀ h₂i hi _).1 c hmem, d, hcd, hle, hlt⟩

end Told

/-! ## Views -/

section Views

variable {ρ} {w : Worker} {job x : String} {log : PassLog}

/-- A snapshot pass is about its own object and that object's volume. -/
theorem LogTrue.reads (h₀ : Initial Γ s₀) (hi : i ≤ N) (h : LogTrue ρ w job log i)
    {u : Snapshot} {vol : Volume} (hr : Reads x log u vol) :
    SnapOk Γ i x u ∧ vol.name = Γ.volumeOf x ∧ Γ.spec (Γ.volumeOf x) = some vol.spec := by
  obtain ⟨v, hv, hu⟩ := h.snapView hi hr.snap_eq
  have hok := snapOk ρ h₀ hi hv hu
  obtain ⟨t, ht⟩ := volView_mem hr.vol_eq
  obtain ⟨hn, hs⟩ := h.cachedVolume ht
  rw [hok.volumeName] at hn hs
  exact ⟨hok, hn, hs⟩

/-- What a group pass has read about a member. -/
theorem LogTrue.readMember (h₀ : Initial Γ s₀) (hi : i ≤ N) (h : LogTrue ρ w job log i)
    {m : GroupMember} (hr : ReadMember log x m) :
    SnapOk Γ i x m.snap ∧ m.vol.name = Γ.volumeOf x ∧
      Γ.spec (Γ.volumeOf x) = some m.vol.spec := by
  obtain ⟨⟨t, ht⟩, t', ht'⟩ := hr
  obtain ⟨v, hv, hu⟩ := h.cachedSnapshot hi ht
  have hok := snapOk ρ h₀ hi hv hu
  obtain ⟨hn, hs⟩ := h.cachedVolume ht'
  rw [hok.volumeName] at hn hs
  exact ⟨hok, hn, hs⟩

end Views

end Miroir
