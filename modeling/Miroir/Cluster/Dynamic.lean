import Miroir.Cluster.History
import Miroir.Cluster.Metadata

/-!
# A cluster whose objects come and go

`Cluster` adds to the agents' state what operators, controllers and the CSI driver do meanwhile:
volumes are created, edited and deleted, and every node's volume informer lags somewhere in the
versions of their specs; snapshots and groups are created with one finalizer for every replica of
the volumes the driver has read, under an identity that was never used. Dropping a finalizer is an
update of the object as the pass read it, so the API server takes it only while the object is still
that one (`fencedUpdate`).

`Sane` is what holds of the API server's versions in every run: names, and one history of
identities for every name. `Ordered` compares the copies one worker reads in turn; it follows that
a pass over a live object has no release of that object in flight.
-/

namespace Miroir

open Process Data

/-- The nodes and the versions of each volume. -/
structure Cluster where
  state : State
  /-- Every version of the volumes' specs, oldest first. -/
  specs : List (String → Option VolumeSpec)
  /-- The version each node's volume informer shows. -/
  volCache : String → Nat

/-- A step of the cluster. -/
inductive Event where
  /-- A step of the agents, or of their surroundings. -/
  | act (a : Action)
  /-- A node's volume informer moves on to version `i`. -/
  | observe (node : String) (i : Nat)
  /-- A volume is created or edited, or is gone. -/
  | setVolume (v : String) (spec : Option VolumeSpec)
  /-- `ensureSnapshot`, which has read version `i` of the volume. -/
  | createSnap (x uid v group : String) (i : Nat)
  /-- `CreateVolumeGroupSnapshot` creates the group; each member volume was read in some version. -/
  | createGroup (g uid : String) (reads : List (String × Nat))

instance : Inhabited Event := ⟨.act default⟩

/-- The node whose worker takes the step. -/
def Action.node : Action → String
  | .start w _ | .reply w _ | .finish w | .crash w => w.node
  | _ => ""

/-- The update of a finalizer's drop is of the object the API server holds. -/
def fencedUpdate (s : State) (q : Request) : Bool :=
  match q.write with
  | .dropSnapFinalizer x _ => s.api.snap x = snapView x q.log
  | .dropGroupFinalizer g _ => s.api.group g = groupView g q.log
  | _ => true

/-- No object has ever had this identity. -/
def unusedUID (s : State) (uid : String) : Bool :=
  s.versions.all fun v =>
    v.listSnapshots.all (fun w => w.uid ≠ uid) && v.listGroups.all fun w => w.uid ≠ uid

namespace Cluster

variable (Γ : Config) (C : Cluster)

variable {v : Api} {n x : String} {k : Kind} {s : State} {m : ObjectMeta} {q : Request}
  {log : PassLog}

/-- The configuration as the node sees it. -/
def config (node : String) : Config :=
  { Γ with spec := C.specs.getD (C.volCache node) fun _ => none }

/-- The nodes with a replica of the volume, as version `i` has it. -/
def replicaNodes (v : String) (i : Nat) : Option (List String) :=
  (C.specs[i]?.bind (· v)).map fun spec => spec.replicas.map Replica.node

def setApi (v : Api) : Cluster := { C with state := C.state.setApi v }

def step : Event → Option Cluster
  | .act a =>
    if (a.landing C.state).all (fencedUpdate C.state) then
      (Miroir.step (C.config Γ a.node) C.state a).map fun s => { C with state := s }
    else none
  | .observe node i =>
    if C.volCache node ≤ i ∧ i < C.specs.length then
      some { C with volCache := Function.update C.volCache node i }
    else none
  | .setVolume v spec =>
    some { C with specs := C.specs ++
      [Function.update (C.specs.getLast?.getD fun _ => none) v spec] }
  | .createSnap x uid v group i =>
    if (C.state.api.snap x).isNone && unusedUID C.state uid then
      (C.replicaNodes v i).map fun nodes => C.setApi { C.state.api with
        snaps := C.state.api.snaps.insert x
          { name := x, uid := uid, volumeName := v, group := group, finalizers := nodes } }
    else none
  | .createGroup g uid reads =>
    if (C.state.api.group g).isNone && unusedUID C.state uid then
      (reads.mapM fun r => C.replicaNodes r.1 r.2).map fun nodes => C.setApi { C.state.api with
        groups := C.state.api.groups.insert g
          { name := g, uid := uid, snapshotNames := reads.map fun r => g ++ "-" ++ r.1
            finalizers := nodes.flatten.reverse.dedup.reverse } }
    else none

/-- No object, no leg and no pass yet. -/
structure Start : Prop where
  api : C.state.api = ⟨∅, ∅⟩
  versions : C.state.versions = [⟨∅, ∅⟩]
  pass : ∀ w, C.state.pass w = none
  inflight : C.state.inflight = []
  legs : ∀ k, (C.state.legs k).present = false
  kernel : ∀ n v, (C.state.kernel n v).suspended = false

/-- What a step can do. -/
inductive Stepped : Event → Cluster → Prop
  | act {a s'} (hf : ∀ q, a.landing C.state = some q → fencedUpdate C.state q = true)
      (h : Miroir.step (C.config Γ a.node) C.state a = some s') :
      Stepped (.act a) { C with state := s' }
  | volumes {e specs volCache} : Stepped e { C with specs := specs, volCache := volCache }
  | create {e k x m v} (hx : C.state.api.objectMeta x k = none)
      (hu : unusedUID C.state m.uid = true) (hn : m.name = x)
      (hv : v.objectMeta x k = some m)
      (hs : ∀ y, (y, Kind.snapshot) ≠ (x, k) → v.snap y = C.state.api.snap y)
      (hg : ∀ y, (y, Kind.group) ≠ (x, k) → v.group y = C.state.api.group y) :
      Stepped e (C.setApi v)

variable {Γ C} {C' : Cluster} {e : Event}

theorem stepped_of_step (h : C.step Γ e = some C') : C.Stepped Γ e C' := by
  cases e with
  | act a =>
    simp only [step] at h
    split at h
    · rename_i hf
      obtain ⟨s', hs, rfl⟩ := Option.map_eq_some_iff.mp h
      exact .act (fun q hq => by simpa [hq] using hf) hs
    · cases h
  | observe node i =>
    simp only [step] at h
    split at h <;> cases h
    exact .volumes
  | setVolume v spec => cases h; exact .volumes
  | createSnap x uid v group i =>
    simp only [step] at h
    split at h
    · rename_i hc
      simp only [Bool.and_eq_true, Option.isNone_iff_eq_none] at hc
      obtain ⟨nodes, -, rfl⟩ := Option.map_eq_some_iff.mp h
      refine .create (k := .snapshot) (x := x) (m := ⟨x, uid, false, nodes⟩) ?_ hc.2 rfl ?_
        (fun y hne => AList.lookup_insert_ne fun hy => hne (by rw [hy])) fun _ _ => rfl
      · simp [Api.objectMeta, hc.1]
      · simp [Api.objectMeta, Api.snap, Snapshot.objectMeta, AList.lookup_insert]
    · cases h
  | createGroup g uid reads =>
    simp only [step] at h
    split at h
    · rename_i hc
      simp only [Bool.and_eq_true, Option.isNone_iff_eq_none] at hc
      obtain ⟨nodes, -, rfl⟩ := Option.map_eq_some_iff.mp h
      refine .create (k := .group) (x := g)
        (m := ⟨g, uid, false, nodes.flatten.reverse.dedup.reverse⟩) ?_ hc.2 rfl ?_
        (fun _ _ => rfl) fun y hne => AList.lookup_insert_ne fun hy => hne (by rw [hy])
      · simp [Api.objectMeta, hc.1]
      · simp [Api.objectMeta, Api.group, SnapshotGroup.objectMeta, AList.lookup_insert]
    · cases h

/-- Creating an object leaves the others alone. -/
theorem objectMeta_of_ne {v' : Api}
    (hs : ∀ y, (y, Kind.snapshot) ≠ (x, k) → v'.snap y = v.snap y)
    (hg : ∀ y, (y, Kind.group) ≠ (x, k) → v'.group y = v.group y) {y : String} {k' : Kind}
    (h : (y, k') ≠ (x, k)) : v'.objectMeta y k' = v.objectMeta y k' := by
  cases k' with
  | snapshot => rw [Api.objectMeta, Api.objectMeta, hs y h]
  | group => rw [Api.objectMeta, Api.objectMeta, hg y h]

/-! ## Versions -/

theorem unusedUID_spec {uid : String} (h : unusedUID s uid)
    (hv : v ∈ s.versions)
    (hm : v.objectMeta x k = some m) : m.uid ≠ uid := by
  have h := List.all_eq_true.mp h v hv
  simp only [Bool.and_eq_true, List.all_eq_true, decide_eq_true_eq] at h
  cases k with
  | snapshot =>
    obtain ⟨w, hw, rfl⟩ := Option.map_eq_some_iff.mp hm
    exact h.1 w (mem_listSnapshots hw)
  | group =>
    obtain ⟨w, hw, rfl⟩ := Option.map_eq_some_iff.mp hm
    exact h.2 w (mem_listGroups hw)

/-- An object after a step is the one from before, or has an identity of its own. -/
theorem Stepped.origin (h : C.Stepped Γ e C') {m' : ObjectMeta}
    (hm : C'.state.api.objectMeta x k = some m') :
    (∃ m, C.state.api.objectMeta x k = some m ∧ m'.name = m.name ∧ m'.uid = m.uid ∧
      (m.deleting → m'.deleting)) ∨
    (m'.name = x ∧ unusedUID C.state m'.uid) := by
  cases h with
  | act hf h => exact .inl (((Miroir.stepped_of_step h).meta_cases x k).origin hm)
  | volumes => exact .inl ⟨m', hm, rfl, rfl, id⟩
  | @create _ k₀ x₀ m v hx hu hn hv hs hg =>
    by_cases he : (x, k) = (x₀, k₀)
    · cases he
      obtain rfl : m = m' := Option.some.inj (hv.symm.trans hm)
      exact .inr ⟨hn, hu⟩
    · exact .inl ⟨m', (objectMeta_of_ne hs hg he).symm.trans hm, rfl, rfl, id⟩

/-- A finalizer that holds an object stays, unless its node's drop lands. -/
theorem Stepped.finalizer (hs : C.Stepped Γ e C')
    (hm : C.state.api.objectMeta x k = some m) (hn : n ∈ m.finalizers) :
    (∃ m', C'.state.api.objectMeta x k = some m' ∧ m'.uid = m.uid ∧ n ∈ m'.finalizers) ∨
      ∃ a q, e = .act a ∧ a.landing C.state = some q ∧ fencedUpdate C.state q ∧
        q.write = k.drop x n := by
  cases hs with
  | volumes => exact .inl ⟨m, hm, rfl, hn⟩
  | @create _ k₀ x₀ _ v hx _ _ _ hsnap hgroup =>
    have hne : (x, k) ≠ (x₀, k₀) := by
      rintro ⟨rfl, rfl⟩
      rw [hx] at hm
      cases hm
    exact .inl ⟨m, (objectMeta_of_ne hsnap hgroup hne).trans hm, rfl, hn⟩
  | @act a s' hf h =>
    have hchange := (Miroir.stepped_of_step h).meta_cases x k
    rcases hchange.finalizer hm hn with ⟨m', hm', hn'⟩ | ⟨q, hq, hw⟩
    · obtain ⟨m₀, hm₀, -, hu, -⟩ := hchange.origin hm'
      exact .inl ⟨m', hm', hu.trans (by rw [Option.some.inj (hm₀.symm.trans hm)]), hn'⟩
    · exact .inr ⟨a, q, rfl, hq, hf q hq, hw⟩

/-- A step adds at most the current version. -/
theorem Stepped.versions (h : C.Stepped Γ e C') :
    (C'.state.api = C.state.api ∧ C'.state.versions = C.state.versions) ∨
      C'.state.versions = C.state.versions ++ [C'.state.api] := by
  cases h with
  | act hf h =>
    rcases (Miroir.stepped_of_step h).api_cases with ⟨-, -, -, -, he⟩ | ⟨-, -, -, -, -, he⟩ |
      ⟨-, -, -, -, -, he⟩ | he
    exacts [.inr he, .inr he, .inr he, .inl he]
  | volumes => exact .inl ⟨rfl, rfl⟩
  | create => exact .inr rfl

/-- What holds of the versions of the API server. -/
structure Sane (s : State) : Prop where
  last : s.versions.getLast? = some s.api
  named : ∀ v ∈ s.versions, ∀ x k m, v.objectMeta x k = some m → m.name = x
  marks : ∀ x k, Incarnations (s.versions.map fun v => (v.objectMeta x k).map ObjectMeta.mark)

theorem Start.sane (h : C.Start) : Sane C.state where
  last := by rw [h.versions, h.api]; rfl
  named v hv x k m hm := by
    rw [h.versions, List.mem_singleton] at hv
    subst hv
    cases k <;> cases hm
  marks x k := by
    rw [h.versions]
    cases k <;> exact .snoc .nil .gone

/-- The object on the API server is named as it should be. -/
theorem Sane.name_eq (h : Sane s)
    (hm : s.api.objectMeta x k = some m) : m.name = x :=
  h.named s.api (List.mem_of_getLast? h.last) x k m hm

theorem Sane.step (h : Sane C.state) (hs : C.Stepped Γ e C') : Sane C'.state := by
  rcases hs.versions with ⟨ha, hv⟩ | hv
  · exact ⟨by rw [ha, hv]; exact h.last, by rw [hv]; exact h.named, by rw [hv]; exact h.marks⟩
  refine ⟨by rw [hv, List.getLast?_concat], fun v hm x k m hx => ?_, fun x k => ?_⟩
  · rw [hv, List.mem_append, List.mem_singleton] at hm
    rcases hm with hm | rfl
    · exact h.named v hm x k m hx
    · rcases hs.origin hx with ⟨m₀, hm₀, hn, -⟩ | ⟨hn, -⟩
      · exact hn.trans (h.name_eq hm₀)
      · exact hn
  · rw [hv, List.map_append]
    refine .snoc (h.marks x k) ?_
    dsimp only
    cases hx : C'.state.api.objectMeta x k with
    | none => exact .gone
    | some m' =>
      rcases hs.origin hx with ⟨m, hm, -, hu, hd⟩ | ⟨-, hu⟩
      · refine .same (m := m.mark) ?_ hu hd
        rw [List.getLast?_map, h.last, Option.map_some, hm]
        rfl
      · refine .fresh fun m hm => ?_
        obtain ⟨v, hv, hm⟩ := List.mem_map.mp hm
        obtain ⟨m₀, hm₀, rfl⟩ := Option.map_eq_some_iff.mp hm
        exact unusedUID_spec hu hv hm₀

/-- An identity that is gone stays gone. -/
theorem Stepped.uid_ne (h : C.Stepped Γ e C') {uid : String}
    (hv : ∃ v ∈ C.state.versions, ∃ m, v.objectMeta x k = some m ∧ m.uid = uid)
    (hne : ∀ m, C.state.api.objectMeta x k = some m → m.uid ≠ uid) :
    ∀ m, C'.state.api.objectMeta x k = some m → m.uid ≠ uid := by
  intro m' hm'
  rcases h.origin hm' with ⟨m, hm, -, hu, -⟩ | ⟨-, hu⟩
  · exact hu ▸ hne m hm
  · obtain ⟨v, hv, m, hm, rfl⟩ := hv
    exact (unusedUID_spec hu hv hm).symm

/-! ## The copies a worker reads -/

/-- The version a node's informer shows of the objects of a kind. -/
def cache (s : State) (node : String) : Kind → Nat
  | .snapshot => s.snapCache node
  | .group => s.groupCache node

/-- The node's informer has shown this copy of the object. -/
def Shown (s : State) (node x : String) (k : Kind) (m : ObjectMeta) : Prop :=
  ∃ i ≤ cache s node k, ∃ v, s.versions[i]? = some v ∧ v.objectMeta x k = some m

theorem Shown.mono {s' : State} {node : String}
    (h : Shown s node x k m) (hc : cache s node k ≤ cache s' node k)
    (hv : s.versions <+: s'.versions) : Shown s' node x k m := by
  obtain ⟨i, hi, v, hiv, hm⟩ := h
  obtain ⟨new, hnew⟩ := hv
  refine ⟨i, Nat.le_trans hi hc, v, ?_, hm⟩
  rw [← hnew, List.getElem?_append_left (List.getElem?_eq_some_iff.mp hiv).1, hiv]

theorem Shown.mem_versions {node : String}
    (h : Shown s node x k m) :
    ∃ v ∈ s.versions, ∃ m', v.objectMeta x k = some m' ∧ m'.uid = m.uid :=
  let ⟨_, _, v, hv, hm⟩ := h
  ⟨v, List.mem_of_getElem? hv, m, hm, rfl⟩

section Answered

variable {Δ : Config} {s s₁ : State} {w : Worker} {job : String} {log : PassLog} {c : Cmd}
  {o : Outcome} {r : Ans c}

theorem cache_le_of_answered (h : Answered Δ s w job log c o r s₁) (node : String) (k : Kind) :
    cache s node k ≤ cache s₁ node k := by
  cases h with
  | @cachedSnapshot x i v _ hi hv =>
    cases k with
    | group => exact Nat.le_refl _
    | snapshot =>
      by_cases hn : node = w.node
      · subst hn
        simpa [cache] using hi
      · simp [cache, Function.update_of_ne hn]
  | @cachedGroup x i v _ hi hv =>
    cases k with
    | snapshot => exact Nat.le_refl _
    | group =>
      by_cases hn : node = w.node
      · subst hn
        simpa [cache] using hi
      · simp [cache, Function.update_of_ne hn]
  | _ => cases k <;> exact Nat.le_refl _

/-- A pass keeps its view of an object, or has just read a copy that is not older than any its node
was shown. -/
theorem metaView_cases (h : Answered Δ s w job log c o r s₁) (t : Nat) (x : String) (k : Kind) :
    metaView (⟨t, c, r⟩ :: log) x k = metaView log x k ∨
      ∃ i v m, cache s w.node k ≤ i ∧ cache s₁ w.node k = i ∧ s.versions[i]? = some v ∧
        v.objectMeta x k = some m ∧ metaView (⟨t, c, r⟩ :: log) x k = some m ∧
        s₁.versions = s.versions ∧ s₁.inflight = s.inflight ∧ s₁.api = s.api := by
  cases h with
  | @failed c _ r e hf =>
    left
    cases c with
    | cachedSnapshot => cases hf; cases k <;> rfl
    | cachedGroup => cases hf; cases k <;> rfl
    | _ => cases k <;> rfl
  | @cachedSnapshot y i v _ hi hv =>
    cases k with
    | group => exact .inl rfl
    | snapshot =>
      cases hy : v.snap y with
      | none => exact .inl rfl
      | some u =>
        by_cases hx : y = x
        · subst hx
          refine .inr ⟨i, v, u.objectMeta, hi, ?_, hv, ?_, ?_, rfl, rfl, rfl⟩
          · simp [cache]
          · simp [Api.objectMeta, hy]
          · simp [metaView, snapView]
        · exact .inl (by simp [metaView, snapView, hx])
  | @cachedGroup y i v _ hi hv =>
    cases k with
    | snapshot => exact .inl rfl
    | group =>
      cases hy : v.group y with
      | none => exact .inl rfl
      | some u =>
        by_cases hx : y = x
        · subst hx
          refine .inr ⟨i, v, u.objectMeta, hi, ?_, hv, ?_, ?_, rfl, rfl, rfl⟩
          · simp [cache]
          · simp [Api.objectMeta, hy]
          · simp [metaView, groupView]
        · exact .inl (by simp [metaView, groupView, hx])
  | _ => left; cases k <;> rfl

end Answered

theorem Stepped.cache_le (h : C.Stepped Γ e C') (node : String) (k : Kind) :
    cache C.state node k ≤ cache C'.state node k := by
  cases h with
  | act hf h =>
    cases Miroir.stepped_of_step h with
    | reply hp ha =>
      have := cache_le_of_answered ha node k
      cases k <;> exact this
    | _ => cases k <;> exact Nat.le_refl _
  | _ => cases k <;> exact Nat.le_refl _

theorem Stepped.versions_prefix (h : C.Stepped Γ e C') :
    C.state.versions <+: C'.state.versions := by
  rcases h.versions with ⟨-, hv⟩ | hv
  · exact hv ▸ List.prefix_refl _
  · rw [hv]; exact List.prefix_append ..

/-- The view of a pass is one it had before, or a copy it has just been shown. -/
theorem Stepped.view_cases (h : C.Stepped Γ e C') {p : Pass}
    (hp : C'.state.pass ⟨n, k.task⟩ = some p)
    (hm : metaView p.log p.job k = some m) :
    (∃ p₀, C.state.pass ⟨n, k.task⟩ = some p₀ ∧ p₀.job = p.job ∧
      metaView p₀.log p₀.job k = some m) ∨
    ∃ i v, cache C.state n k ≤ i ∧ cache C'.state n k = i ∧ C.state.versions[i]? = some v ∧
      v.objectMeta p.job k = some m ∧ C'.state.versions = C.state.versions ∧
      C'.state.inflight = C.state.inflight ∧ C'.state.api = C.state.api := by
  cases h with
  | volumes => exact .inl ⟨p, hp, rfl, hm⟩
  | create => exact .inl ⟨p, hp, rfl, hm⟩
  | act hf h =>
    rcases (Miroir.stepped_of_step h).pass_cases ⟨n, k.task⟩ with heq | hnone | ⟨job, -, hnew⟩ |
      ⟨o, job, log, c, next, r, s₁, -, hold, ha, rfl⟩
    · exact .inl ⟨p, heq ▸ hp, rfl, hm⟩
    · rw [hnone] at hp; cases hp
    · obtain rfl := Option.some.inj (hnew.symm.trans hp)
      cases k <;> cases hm
    · obtain rfl : _ = p := by simpa [State.setPass] using hp
      rcases metaView_cases ha C.state.tick job k with hsame | ⟨i, v, m', hi, hc, hv, hvm, hm', hs⟩
      · exact .inl ⟨_, hold, rfl, hsame.symm.trans hm⟩
      · obtain rfl : m' = m := Option.some.inj (hm'.symm.trans hm)
        refine .inr ⟨i, v, hi, ?_, hv, hvm, hs.1, hs.2.1, hs.2.2⟩
        cases k <;> exact hc

/-- A write in flight was in flight before, or is the one a pass has just issued. -/
theorem Stepped.inflight_cases (h : C.Stepped Γ e C') (hq : q ∈ C'.state.inflight) :
    q ∈ C.state.inflight ∨
      ∃ next, C.state.pass q.worker = some ⟨q.job, q.log, .ask (.write q.write) next⟩ := by
  cases h with
  | act hf h => exact (Miroir.stepped_of_step h).inflight_cases hq
  | volumes => exact .inl hq
  | create => exact .inl hq

/-- What the workers have read: every view is a copy the node was shown, and a pass over a live
object has no release of that object in flight. -/
structure Ordered (s : State) : Prop where
  pass : ∀ {n k p m}, s.pass ⟨n, k.task⟩ = some p → metaView p.log p.job k = some m →
    Shown s n p.job k m
  sent : ∀ {n k q m}, q ∈ s.inflight → q.worker = ⟨n, k.task⟩ → metaView q.log q.job k = some m →
    Shown s n q.job k m
  apart : ∀ {n k p m q m'}, s.pass ⟨n, k.task⟩ = some p → metaView p.log p.job k = some m →
    m.deleting = false → q ∈ s.inflight → q.worker = ⟨n, k.task⟩ → q.job = p.job →
    metaView q.log q.job k = some m' → m'.deleting = true →
    ∀ o, s.api.objectMeta q.job k = some o → o.uid ≠ m'.uid

theorem Start.ordered (h : C.Start) : Ordered C.state where
  pass hp := by rw [h.pass] at hp; cases hp
  sent hq := by rw [h.inflight] at hq; cases hq
  apart hp := by rw [h.pass] at hp; cases hp

/-- A live copy, read after a deleted one, is of another object: the first is gone. -/
theorem Sane.gone (h : Sane s) {i j : Nat} {v' : Api}
    {m' : ObjectMeta} (hij : i ≤ j) (hi : s.versions[i]? = some v) (hm : v.objectMeta x k = some m)
    (hd : m.deleting) (hj : s.versions[j]? = some v') (hm' : v'.objectMeta x k = some m')
    (hd' : m'.deleting = false) : ∀ o, s.api.objectMeta x k = some o → o.uid ≠ m.uid := by
  intro o ho hu
  have hlast : s.versions[s.versions.length - 1]? = some s.api := by
    rw [← List.getLast?_eq_getElem?, h.last]
  have hlt : j < s.versions.length := (List.getElem?_eq_some_iff.mp hj).1
  have hmark {i : Nat} {v : Api} {m : ObjectMeta} (hi : s.versions[i]? = some v)
      (hm : v.objectMeta x k = some m) :
      (s.versions.map fun v => (v.objectMeta x k).map ObjectMeta.mark)[i]? =
        some (some m.mark) := by simp [hi, hm]
  obtain ⟨m'', hm'', -, hd''⟩ := (h.marks x k).between hij (Nat.le_sub_one_of_lt hlt)
    (hmark hi hm) (hmark hlast ho) hu
  simp only [List.getElem?_map, hj, Option.map_some, hm', Option.some.injEq] at hm''
  have := hd'' hd
  rw [← hm''] at this
  exact Bool.noConfusion (hd'.symm.trans this)

theorem Ordered.step (h : Ordered C.state) (hsane : Sane C.state) (hs : C.Stepped Γ e C') :
    Ordered C'.state where
  pass := by
    intro n k p m hp hm
    rcases hs.view_cases hp hm with ⟨p₀, hp₀, hj, hm₀⟩ | ⟨i, v, -, hc, hv, hvm, hvers, -⟩
    · exact hj ▸ (h.pass hp₀ hm₀).mono (hs.cache_le n k) hs.versions_prefix
    · exact ⟨i, Nat.le_of_eq hc.symm, v, hvers ▸ hv, hvm⟩
  sent := by
    intro n k q m hq hw hm
    rcases hs.inflight_cases hq with hq | ⟨next, hp⟩
    · exact (h.sent hq hw hm).mono (hs.cache_le n k) hs.versions_prefix
    · exact (h.pass (hw ▸ hp) hm).mono (hs.cache_le n k) hs.versions_prefix
  apart := by
    intro n k p m q m' hp hm hd hq hw hj hm' hd'
    rcases hs.view_cases hp hm with ⟨p₀, hp₀, hj₀, hm₀⟩ |
      ⟨i, v, hi, -, hv, hvm, -, hinflight, hapi⟩
    · rcases hs.inflight_cases hq with hq | ⟨next, hp'⟩
      · exact hs.uid_ne (h.sent hq hw hm').mem_versions
          (h.apart hp₀ hm₀ hd hq hw (hj.trans hj₀.symm) hm' hd')
      · -- The pass has just sent the write itself: it is of the copy the pass has read.
        obtain rfl := Option.some.inj (hp₀.symm.trans (hw ▸ hp'))
        obtain rfl : m = m' := Option.some.inj (hm₀.symm.trans hm')
        exact Bool.noConfusion (hd.symm.trans hd')
    · rw [hinflight] at hq
      obtain ⟨j, hjc, u, hu, hum⟩ := h.sent hq hw hm'
      rw [hapi]
      exact hsane.gone (Nat.le_trans hjc hi) hu hum hd' hv (hj ▸ hvm) hd

/-! ## Passes and their writes -/

/-- The worker of the kind has read this over `x`: its pass under way, or one with a write in
flight. -/
inductive LogOf (s : State) (k : Kind) (n x : String) : PassLog → Prop
  | pass {log prog} (hp : s.pass ⟨n, k.task⟩ = some ⟨x, log, prog⟩) : LogOf s k n x log
  | sent {log wr} (hq : (⟨⟨n, k.task⟩, x, wr, log⟩ : Request) ∈ s.inflight) : LogOf s k n x log

theorem Ordered.shown
    (h : Ordered s) (hl : LogOf s k n x log) (hm : metaView log x k = some m) :
    Shown s n x k m := by
  cases hl with
  | pass hp => exact h.pass hp hm
  | sent hq => exact h.sent hq rfl hm

/-- A worker's view of its own object carries the name of the job. -/
theorem Ordered.name_of_view
    (h : Ordered s) (hsane : Sane s) (hl : LogOf s k n x log) (hm : metaView log x k = some m) :
    m.name = x := by
  obtain ⟨i, -, v, hv, hm⟩ := h.shown hl hm
  exact hsane.named v (List.mem_of_getElem? hv) x k m hm

/-- What a worker has read grows by the answer to a command of its pass. -/
theorem Stepped.logOf_cases (h : C.Stepped Γ e C')
    (hl : LogOf C'.state k n x log) :
    LogOf C.state k n x log ∨ log = [] ∨ ∃ o log₀ c next r s₁, e = .act (.reply ⟨n, k.task⟩ o) ∧
      C.state.pass ⟨n, k.task⟩ = some ⟨x, log₀, .ask c next⟩ ∧
      log = ⟨C.state.tick, c, r⟩ :: log₀ ∧
      answer (C.config Γ n) C.state ⟨n, k.task⟩ x log₀ c o = some (r, s₁) ∧
      C'.state = { s₁.setPass ⟨n, k.task⟩ (some ⟨x, log, next r⟩) with
        tick := C.state.tick + 1 } := by
  cases hl with
  | @sent wr hq =>
    rcases h.inflight_cases hq with hq | ⟨next, hp⟩
    exacts [.inl (.sent hq), .inl (.pass hp)]
  | @pass prog hp =>
    cases h with
    | volumes => exact .inl (.pass hp)
    | create => exact .inl (.pass hp)
    | @act a s' hf h =>
      rcases (Miroir.stepped_of_step h).pass_cases ⟨n, k.task⟩ with heq | hnone | ⟨job, -, hnew⟩ |
        ⟨o, job, log₀, c, next, r, s₁, rfl, hold, -, -⟩
      · exact .inl (.pass (heq ▸ hp))
      · rw [hnone] at hp; cases hp
      · rw [hnew] at hp; cases hp; exact .inr (.inl rfl)
      · simp only [Miroir.step, Miroir.act, hold, Option.map_map, Option.map_eq_some_iff] at h
        obtain ⟨⟨r, s₁⟩, ha, rfl⟩ := h
        obtain ⟨rfl, rfl, -⟩ : job = x ∧ ⟨C.state.tick, c, r⟩ :: log₀ = log ∧ next r = prog := by
          simpa [State.setPass] using hp
        exact .inr (.inr ⟨o, log₀, c, next, r, s₁, rfl, hold, rfl, ha, rfl⟩)

/-- The worker has read the object the API server holds, and read it as deleted. -/
def deletes (s : State) (k : Kind) (x : String) (log : PassLog) : Bool :=
  (metaView log x k).any fun m =>
    m.deleting && (s.api.objectMeta x k).any fun o => o.uid = m.uid

theorem deletes_iff :
    deletes s k x log ↔ ∃ m, metaView log x k = some m ∧ m.deleting ∧
      ∃ o, s.api.objectMeta x k = some o ∧ o.uid = m.uid := by
  simp only [deletes, Option.any_eq_true, Bool.and_eq_true, decide_eq_true_eq]

/-- What a worker has read as deleted was already the object of the API server before a step. -/
theorem Stepped.deletes_of_deletes (h : C.Stepped Γ e C') (ho : Ordered C.state)
    (hl : LogOf C.state k n x log)
    (hd : deletes C'.state k x log) : deletes C.state k x log := by
  obtain ⟨m, hm, hdel, o, hapi, hu⟩ := deletes_iff.mp hd
  by_contra hne
  refine h.uid_ne (ho.shown hl hm).mem_versions (fun o' ho' hu' => hne ?_) o hapi hu
  exact deletes_iff.mpr ⟨m, hm, hdel, o', ho', hu'⟩

/-- A pass over a live object has read nothing as deleted, and neither has a pass before it. -/
theorem Ordered.not_deletes (h : Ordered s) {p : Pass}
    (hp : s.pass ⟨n, k.task⟩ = some p) (hj : p.job = x)
    (hm : metaView p.log p.job k = some m) (hd : m.deleting = false)
    (hl : LogOf s k n x log) : ¬deletes s k x log := by
  intro hdel
  obtain ⟨m', hm', hd', o, hapi, hu⟩ := deletes_iff.mp hdel
  cases hl with
  | pass hp' =>
    obtain rfl := Option.some.inj (hp'.symm.trans hp)
    obtain rfl : m = m' := Option.some.inj (hm.symm.trans hm')
    exact Bool.noConfusion (hd.symm.trans hd')
  | sent hq => exact h.apart hp hm hd hq rfl hj.symm hm' hd' o hapi hu

/-- A command that is answered is the one its worker's pass waits on. -/
theorem pass_of_command {a : Action} {q : Asked} (hq : a.command s = some q) :
    ∃ next, s.pass q.worker = some ⟨q.job, q.log, .ask q.cmd next⟩ := by
  unfold Action.command at hq
  split at hq
  · split at hq
    · rename_i hp
      cases hq
      exact ⟨_, hp⟩
    · cases hq
  · cases hq

/-- The passes and the writes of a state keep to the specifications of their workers. -/
structure Obedient (Γ : Config) (s : State) : Prop where
  pass : ∀ {w p}, s.pass w = some p → Prog.Obeys (guard Γ w p.job) (post w) p.log p.prog
  sent : ∀ {q}, q ∈ s.inflight → guard Γ q.worker q.job q.log (.write q.write)

theorem Start.obedient (h : C.Start) : Obedient Γ C.state where
  pass hp := by rw [h.pass] at hp; cases hp
  sent hq := by rw [h.inflight] at hq; cases hq

theorem Obedient.step (h : Obedient Γ C.state) (hs : C.Stepped Γ e C') : Obedient Γ C'.state where
  pass := by
    intro w p hp
    cases hs with
    | volumes => exact h.pass hp
    | create => exact h.pass hp
    | act hf hs =>
      rcases (Miroir.stepped_of_step hs).pass_cases w with heq | hnone | ⟨job, -, hnew⟩ |
        ⟨o, job, log, c, next, r, s₁, -, hold, -, rfl⟩
      · exact h.pass (heq ▸ hp)
      · rw [hnone] at hp; cases hp
      · obtain rfl := Option.some.inj (hnew.symm.trans hp)
        exact program_obeys Γ w job
      · obtain rfl : _ = p := by simpa [State.setPass] using hp
        exact (h.pass hold).2 _ r
  sent := by
    intro q hq
    rcases hs.inflight_cases hq with hq | ⟨next, hp⟩
    · exact h.sent hq
    · exact (h.pass hp).1

/-- A command that is answered keeps to the specification. -/
theorem Obedient.asked {s : State} (h : Obedient Γ s) {a : Action} {q : Asked}
    (hq : a.command s = some q) : guard Γ q.worker q.job q.log q.cmd :=
  let ⟨_, hp⟩ := pass_of_command hq
  (h.pass hp).1

/-- A request the API server takes was issued by a worker, and keeps to the specification. -/
theorem Obedient.landed {s : State} (h : Obedient Γ s) {a : Action} {q : Request}
    (hq : a.landing s = some q) : guard Γ q.worker q.job q.log (.write q.write) := by
  unfold Action.landing at hq
  split at hq
  · exact h.sent (List.mem_of_getElem? hq)
  · split at hq
    · rename_i hp
      cases hq
      exact (h.pass hp).1
    · cases hq
  · cases hq

/-- A drop that the API server takes is of the object as its pass has read it. -/
theorem metaView_of_fenced
    (hf : fencedUpdate s q) (hw : q.write = k.drop x n) :
    metaView q.log x k = s.api.objectMeta x k := by
  cases k with
  | snapshot =>
    simp only [fencedUpdate, hw, Kind.drop, decide_eq_true_eq] at hf
    rw [metaView, Api.objectMeta, hf]
  | group =>
    simp only [fencedUpdate, hw, Kind.drop, decide_eq_true_eq] at hf
    rw [metaView, Api.objectMeta, hf]

theorem logOf_of_landing {a : Action} (hq : a.landing s = some q)
    (hw : q.worker = ⟨n, k.task⟩) : LogOf s k n q.job q.log := by
  obtain ⟨w, job, wr, log⟩ := q
  subst hw
  unfold Action.landing at hq
  split at hq
  · exact .sent (List.mem_of_getElem? hq)
  · split at hq
    · rename_i hp
      cases hq
      exact .pass hp
    · cases hq
  · cases hq

end Cluster

end Miroir
