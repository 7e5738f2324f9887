import Miroir.Cluster.Objects
import Miroir.Data.Incarnation

/-!
# Finalizers and identities

Snapshots and groups are let go of in the same way: a node drops its finalizer, and a deleted
object without finalizers is gone. What the two kinds share is their `ObjectMeta`. A step leaves it
alone, marks the object deleted, drops one finalizer, or removes an object that has none
(`Stepped.meta_cases`); the identity under a name never changes.
-/

namespace Miroir

open Process Data

variable {v : Api} {landing : Option Request}

/-- What agents release by a finalizer. -/
inductive Kind where
  | snapshot | group
  deriving DecidableEq, Repr

/-- The worker that reconciles objects of the kind. -/
def Kind.task : Kind → Task
  | .snapshot => .snapshot
  | .group => .group

/-- `metav1.ObjectMeta`. -/
structure ObjectMeta where
  name : String
  uid : String
  deleting : Bool
  finalizers : List String
  deriving DecidableEq, Repr

def Snapshot.objectMeta (w : Snapshot) : ObjectMeta := ⟨w.name, w.uid, w.deleting, w.finalizers⟩

def SnapshotGroup.objectMeta (w : SnapshotGroup) : ObjectMeta :=
  ⟨w.name, w.uid, w.deleting, w.finalizers⟩

def ObjectMeta.mark (m : ObjectMeta) : Mark String := ⟨m.uid, m.deleting⟩

/-- The metadata of the object `x` on the API server. -/
def Api.objectMeta (v : Api) (x : String) : Kind → Option ObjectMeta
  | .snapshot => (v.snap x).map Snapshot.objectMeta
  | .group => (v.group x).map SnapshotGroup.objectMeta

/-- The metadata of the object `x` as the pass read it last. -/
def metaView (log : PassLog) (x : String) : Kind → Option ObjectMeta
  | .snapshot => (snapView x log).map Snapshot.objectMeta
  | .group => (groupView x log).map SnapshotGroup.objectMeta

/-- The update with which `node` drops its finalizer. -/
def Kind.drop (x node : String) : Kind → Write
  | .snapshot => .dropSnapFinalizer x node
  | .group => .dropGroupFinalizer x node

/-- The object without the finalizer of `node`. -/
def ObjectMeta.release (m : ObjectMeta) (node : String) : Option ObjectMeta :=
  if m.deleting && (m.finalizers.erase node).isEmpty then none
  else some { m with finalizers := m.finalizers.erase node }

/-- How the metadata of an object changes when a step lands `landing`. -/
inductive MetaChange (landing : Option Request) (x : String) (k : Kind) :
    Option ObjectMeta → Option ObjectMeta → Prop
  | same {m} : MetaChange landing x k m m
  | marked {m} : MetaChange landing x k (some m) (some { m with deleting := true })
  | dropped {m q node} (hq : landing = some q) (hw : q.write = k.drop x node) :
      MetaChange landing x k (some m) (m.release node)
  | removed {m} (hf : m.finalizers = []) : MetaChange landing x k (some m) none

variable {Γ : Config} {s s' : State} {a : Action} {x y : String} {k : Kind}

theorem objectMeta_setStatus {w : Snapshot} {st : SnapshotStatus} (hx : v.snap x = some w) :
    (v.setStatus x w st).objectMeta y k = v.objectMeta y k := by
  cases k with
  | group => rfl
  | snapshot =>
    simp only [Api.objectMeta, snap_setStatus]
    split
    · rename_i hy; subst hy; rw [hx]; rfl
    · rfl

theorem objectMeta_setGroupStatus {w : SnapshotGroup} {st : GroupStatus}
    (hx : v.group x = some w) :
    (v.setGroupStatus x w st).objectMeta y k = v.objectMeta y k := by
  cases k with
  | snapshot => rfl
  | group =>
    simp only [Api.objectMeta, group_setGroupStatus]
    split
    · rename_i hy; subst hy; rw [hx]; rfl
    · rfl

theorem objectMeta_setFinalizers {w : Snapshot} {fs : List String} :
    (v.setFinalizers x w fs).objectMeta y k = if y = x ∧ k = .snapshot then
      (if w.deleting && fs.isEmpty then none else some { w.objectMeta with finalizers := fs })
      else v.objectMeta y k := by
  cases k with
  | group => simp [Api.objectMeta, group_setFinalizers]
  | snapshot =>
    simp only [Api.objectMeta, snap_setFinalizers, and_true]
    split
    · split <;> rfl
    · rfl

theorem objectMeta_setGroupFinalizers {w : SnapshotGroup} {fs : List String} :
    (v.setGroupFinalizers x w fs).objectMeta y k = if y = x ∧ k = .group then
      (if w.deleting && fs.isEmpty then none else some { w.objectMeta with finalizers := fs })
      else v.objectMeta y k := by
  cases k with
  | snapshot => simp [Api.objectMeta, snap_setGroupFinalizers]
  | group =>
    simp only [Api.objectMeta, group_setGroupFinalizers, and_true]
    split
    · split <;> rfl
    · rfl

theorem metaChange_of_land {q : Request} {pruned : Pruned} {tick : Nat}
    (h : land tick q pruned s.api = some v) :
    MetaChange (some q) x k (s.api.objectMeta x k) (v.objectMeta x k) := by
  unfold land at h
  split at h
  · obtain ⟨w, hx, rfl⟩ := Option.map_eq_some_iff.mp h
    rw [objectMeta_setStatus hx]; exact .same
  · obtain ⟨w, hx, h⟩ := Option.bind_eq_some_iff.mp h
    obtain ⟨st, -, rfl⟩ := Option.map_eq_some_iff.mp h
    rw [objectMeta_setStatus hx]; exact .same
  · obtain ⟨w, hx, rfl⟩ := Option.map_eq_some_iff.mp h
    rw [objectMeta_setGroupStatus hx]; exact .same
  · obtain ⟨w, hx, rfl⟩ := Option.map_eq_some_iff.mp h
    rw [objectMeta_setGroupStatus hx]; exact .same
  · rename_i y node hw
    obtain ⟨w, hy, rfl⟩ := Option.map_eq_some_iff.mp h
    rw [objectMeta_setFinalizers]
    split
    · rename_i he
      obtain ⟨rfl, rfl⟩ := he
      rw [show s.api.objectMeta x .snapshot = some w.objectMeta by simp [Api.objectMeta, hy]]
      exact .dropped rfl hw
    · exact .same
  · rename_i y node hw
    obtain ⟨w, hy, rfl⟩ := Option.map_eq_some_iff.mp h
    rw [objectMeta_setGroupFinalizers]
    split
    · rename_i he
      obtain ⟨rfl, rfl⟩ := he
      rw [show s.api.objectMeta x .group = some w.objectMeta by simp [Api.objectMeta, hy]]
      exact .dropped rfl hw
    · exact .same

/-- An object is marked deleted, and gone at once if nobody holds it. -/
theorem metaChange_of_mark {m : ObjectMeta} :
    MetaChange landing x k (some m) (if true && m.finalizers.isEmpty then none
      else some { m with deleting := true }) := by
  split
  · rename_i hf
    exact .removed (by simpa using hf)
  · exact .marked

/-- What a step does to the metadata of an object. -/
theorem Stepped.meta_cases (h : Stepped Γ s a s') (x : String) (k : Kind) :
    MetaChange (a.landing s) x k (s.api.objectMeta x k) (s'.api.objectMeta x k) := by
  rcases h.api_cases with
    ⟨q, pruned, hq, hl, -⟩ | ⟨y, w, -, hy, he, -⟩ | ⟨g, w, -, hg, he, -⟩ | ⟨he, -⟩
  · rw [hq]; exact metaChange_of_land hl
  · rw [he, Api.markSnapDeleted, objectMeta_setFinalizers]
    split
    · rename_i heq
      obtain ⟨rfl, rfl⟩ := heq
      rw [show s.api.objectMeta x .snapshot = some w.objectMeta by simp [Api.objectMeta, hy]]
      exact metaChange_of_mark
    · exact .same
  · rw [he, Api.markGroupDeleted, objectMeta_setGroupFinalizers]
    split
    · rename_i heq
      obtain ⟨rfl, rfl⟩ := heq
      rw [show s.api.objectMeta x .group = some w.objectMeta by simp [Api.objectMeta, hg]]
      exact metaChange_of_mark
    · exact .same
  · rw [he]; exact .same

/-- An object that a step leaves was there before, with its name and its identity, and keeps a
mark it had. -/
theorem MetaChange.origin {o o' : Option ObjectMeta}
    (h : MetaChange landing x k o o') {m' : ObjectMeta} (hm : o' = some m') :
    ∃ m, o = some m ∧ m'.name = m.name ∧ m'.uid = m.uid ∧
      (m.deleting → m'.deleting) := by
  cases h with
  | same => exact ⟨m', hm, rfl, rfl, id⟩
  | @marked m => cases hm; exact ⟨m, rfl, rfl, rfl, fun _ => rfl⟩
  | @dropped m q node hq hw =>
    unfold ObjectMeta.release at hm
    split at hm <;> cases hm
    exact ⟨m, rfl, rfl, rfl, id⟩
  | removed => cases hm

/-- A finalizer stays on its object until a request that drops it lands. -/
theorem MetaChange.finalizer {o o' : Option ObjectMeta}
    (h : MetaChange landing x k o o') {m : ObjectMeta} {node : String} (hm : o = some m)
    (hf : node ∈ m.finalizers) :
    (∃ m', o' = some m' ∧ node ∈ m'.finalizers) ∨
      ∃ q, landing = some q ∧ q.write = k.drop x node := by
  cases h with
  | same => exact .inl ⟨m, hm, hf⟩
  | marked => cases hm; exact .inl ⟨_, rfl, hf⟩
  | @dropped m q node' hq hw =>
    cases hm
    by_cases hn : node = node'
    · exact .inr ⟨q, hq, hn ▸ hw⟩
    · have hmem : node ∈ m.finalizers.erase node' := (List.mem_erase_of_ne hn).mpr hf
      refine .inl ⟨{ m with finalizers := m.finalizers.erase node' }, if_neg ?_, hmem⟩
      simp [List.ne_nil_of_mem hmem]
  | removed h =>
    cases hm
    rw [h] at hf
    cases hf

end Miroir
