import Miroir.Controller.Restore

/-!
# The legs of a restored layout

What a restore makes of each leg of its source (`Follows`), and what the numbering of a reshaped
layout makes of each leg (`Numbered`). The layout of a restore is the source's, cleaned, or a
reshaped one (`createVolume_cases`).
-/

namespace Miroir

open Data Controller

variable {rep : Replica} {base legs out reps : List Replica} {used : List Nat} {c : Controller}
  {req : CreateRequest} {src : Volume} {snap : Snapshot}

/-! ## A layout that follows the source -/

/-- An entry of the source and what a restore makes of it. -/
structure Follows (snap : Snapshot) (rep rep' : Replica) : Prop where
  node : rep'.node = rep.node
  nodeID : rep'.nodeID = rep.nodeID
  diskless : rep'.diskless = rep.diskless
  address : rep'.address = "" ↔ rep.address = ""
  fullSync : rep'.fullSync = (!rep.diskless && !cutOn snap rep.node)

theorem follows_of_restoreReplica {rep' : Replica}
    (h : c.restoreReplica snap rep = .ok rep') : Follows snap rep rep' := by
  simp only [restoreReplica] at h
  split at h
  · cases h
    exact ⟨rfl, rfl, rfl, .rfl, rfl⟩
  · rename_i ha
    obtain ⟨address, -, h⟩ := bind_eq_ok.mp h
    cases h
    exact ⟨rfl, rfl, rfl, by simp [ha, address.2], rfl⟩

theorem follows_of_restoreReplicas
    (h : c.restoreReplicas src snap = .ok reps) :
    List.Forall₂ (Follows snap) src.spec.replicas reps := by
  obtain ⟨reps', hmap, h⟩ := bind_eq_ok.mp h
  have heq : reps' = reps := by
    split at h
    · split at h
      · cases h
      · exact Except.ok.inj h
    · exact Except.ok.inj h
  rw [← heq]
  exact (forall₂_of_mapM hmap).imp fun _ _ => follows_of_restoreReplica

/-- As many diskful legs come out as went in. -/
theorem diskful_length (h : List.Forall₂ (Follows snap) base reps) :
    (diskfulOf reps).length = (diskfulOf base).length := by
  induction h with
  | nil => rfl
  | cons hf _ ih =>
    simp only [diskfulOf, List.filter_cons, hf.diskless] at ih ⊢
    split <;> simp [ih]

/-! ## A reshaped layout -/

/-- What the numbering does to a leg, given the ids it may not take. -/
structure Numbered (used : List Nat) (rep rep' : Replica) : Prop where
  diskless : rep'.diskless = rep.diskless
  fullSync : rep'.fullSync = rep.fullSync
  address : rep'.address ≠ ""
  kept : preserved rep = true → rep'.nodeID = rep.nodeID
  fresh : preserved rep = false → rep'.nodeID ∉ used

theorem address_of_preserved (h : preserved rep) : rep.address ≠ "" := by
  simp only [preserved, Bool.and_eq_true, decide_eq_true_iff] at h
  exact h.1

theorem fullSync_of_preserved (h : preserved rep) :
    rep.fullSync = false := by
  simpa using (Bool.and_eq_true_iff.mp h).2

theorem address_ne_empty {address : String}
    (h : c.legAddress rep = .ok address) : address ≠ "" := by
  rw [legAddress] at h
  split at h
  · cases hr : c.replicationAddress rep.node with
    | error e =>
      rw [hr] at h
      cases h
    | ok resolved =>
      rw [hr] at h
      cases h
      exact resolved.2
  · rename_i hne
    cases h
    exact hne

/-- The two ways the loop goes on. -/
theorem renumber_cons
    (h : c.renumber used (rep :: reps) = .ok out) :
    (preserved rep ∧ ∃ out', c.renumber used reps = .ok out' ∧ out = rep :: out') ∨
    preserved rep = false ∧ ∃ address out', address ≠ "" ∧
      c.renumber (firstFree 0 used :: used) reps = .ok out' ∧
      out = { rep with nodeID := firstFree 0 used, address := address } :: out' := by
  rw [renumber] at h
  split at h
  · rename_i hp
    obtain ⟨out', h', h⟩ := bind_eq_ok.mp h
    cases h
    exact .inl ⟨hp, out', h', rfl⟩
  · rename_i hp
    obtain ⟨address, ha, h⟩ := bind_eq_ok.mp h
    obtain ⟨out', h', h⟩ := bind_eq_ok.mp h
    cases h
    exact .inr ⟨by simpa using hp, address, out', address_ne_empty ha, h', rfl⟩

theorem numbered_of_renumber
    (h : c.renumber used reps = .ok out) : List.Forall₂ (Numbered used) reps out := by
  induction reps generalizing used out with
  | nil =>
    cases h
    exact .nil
  | cons rep reps ih =>
    rcases renumber_cons h with ⟨hp, out', h', rfl⟩ | ⟨hp, address, out', ha, h', rfl⟩
    · exact .cons ⟨rfl, rfl, address_of_preserved hp, fun _ => rfl, by simp [hp]⟩ (ih h')
    · refine .cons ⟨rfl, rfl, ha, by simp [hp], fun _ => firstFree_not_mem⟩ ((ih h').imp ?_)
      intro r r' hr
      exact ⟨hr.diskless, hr.fullSync, hr.address, hr.kept,
        fun hp hmem => hr.fresh hp (.tail _ hmem)⟩

/-! ## Both layouts -/

theorem mem_of_keepRestoreLegs {diskful : List Replica} {target : Nat} {pin : String}
    (h : rep ∈ keepRestoreLegs diskful target pin) : rep ∈ diskful := by
  have hpinned {r : Replica} (hr : pinnedLeg diskful pin = some r) : r ∈ diskful := by
    rw [pinnedLeg] at hr
    split at hr
    · cases hr
    · exact List.mem_of_find?_eq_some hr
  simp only [keepRestoreLegs] at h
  split at h
  · exact hpinned (Option.mem_toList.mp h)
  · rcases List.mem_append.mp h with h | h
    · rcases List.mem_append.mp h with h | h
      · exact List.mem_of_mem_take h
      · exact hpinned (Option.mem_filter_iff.mp (Option.mem_toList.mp h)).1
    · have h := List.mem_of_mem_take h
      rcases List.mem_append.mp h with h | h
      all_goals exact List.mem_of_mem_tail (List.mem_of_mem_filter (List.mem_of_mem_filter h))

theorem diskful_of_mem_diskfulOf (h : rep ∈ diskfulOf reps) :
    rep.diskless = false := by
  simpa using (List.mem_filter.mp h).2

theorem diskful_of_reshapeLegs (h : c.reshapeLegs req base = .ok legs)
    (hrep : rep ∈ legs) : rep.diskless = false := by
  simp only [reshapeLegs] at h
  split at h
  · obtain ⟨pin, -, h⟩ := bind_eq_ok.mp h
    cases h
    exact diskful_of_mem_diskfulOf (mem_of_keepRestoreLegs hrep)
  · split at h
    · obtain ⟨extra, -, h⟩ := bind_eq_ok.mp h
      cases h
      rcases List.mem_append.mp hrep with hrep | hrep
      · exact diskful_of_mem_diskfulOf hrep
      · obtain ⟨leg, -, rfl⟩ := List.mem_map.mp hrep
        rfl
    · cases h
      exact diskful_of_mem_diskfulOf hrep

theorem restoreReplicas_of_resolveSource {source : VolumeSource}
    (h : c.resolveSource req src snap = .ok (source, reps)) :
    c.restoreReplicas src snap = .ok reps := by
  rw [resolveSource] at h
  split at h
  · cases h
  · split at h
    · cases h
    · split at h
      · cases h
      · obtain ⟨reps', hreps, h⟩ := bind_eq_ok.mp h
        cases h
        exact hreps

end Miroir
