import Miroir.Agent.Generation
import Miroir.Controller.Topology
import Miroir.Data.Fallible
import Miroir.Data.FirstFree

/-!
# Editing the legs of a volume

Operators append bare entries, auto-evict swaps a dead leg for a bare one, auto-diskful flips a
diskless leg; the membership reconciler then completes every entry that has no address yet. Every
edit passes the validation rules of the CRD. A completed entry keeps its node id, and an entry
that is completed later takes the lowest id nobody uses: ids need not follow the order of the
list. Whatever becomes diskful by a controller's edit is a full-sync joiner (`AddsJoiners`).
-/

namespace Miroir

open Data

/-! ## The rules of the CRD -/

/-- Two entries are of one pool. -/
def samePool (a b : Replica) : Bool :=
  poolOrDefault a.pool = poolOrDefault b.pool

/-- The validation rules on a spec by itself, as a create is held to them. -/
def VolumeSpec.admitted (spec : VolumeSpec) : Bool :=
  1 ≤ spec.sizeBytes && spec.clients.length ≤ 2 &&
  (if spec.drbd then 2 ≤ spec.replicas.length && spec.replicas.length ≤ 3
    else spec.replicas.length = 1) &&
  (!spec.drbd || 2 ≤ spec.diskfulReplicas.length) &&
  (spec.drbd || !spec.replicas.any Replica.diskless) &&
  spec.replicas.head?.all (fun rep => !rep.diskless) &&
  (spec.diskfulReplicas.all fun rep => rep.address = "" ||
    spec.diskfulReplicas.all fun other => other.address = "" || samePool rep other) &&
  (spec.clients.isEmpty || spec.drbd) &&
  (spec.clients.all fun cl => !spec.replicas.any fun rep => rep.node = cl.node) &&
  (spec.replicas.map Replica.node).Nodup && (spec.clients.map VolumeClient.node).Nodup

/-- An admitted spec has one replica on a node. -/
theorem VolumeSpec.nodup_of_admitted {spec : VolumeSpec} (h : spec.admitted) :
    (spec.replicas.map Replica.node).Nodup := by
  simp only [VolumeSpec.admitted, Bool.and_eq_true, decide_eq_true_iff] at h
  exact h.1.2

/-! ## Membership -/

/-- Why an entry stays incomplete: until an edit of the spec or the topology, or for now. -/
inductive CompleteErr where
  | unknownNode (node : String)
  | otherPool (volume entry : String)
  | noPool (node pool : String)
  | duplicate (node : String)
  | address (err : AddressErr)
  deriving DecidableEq, Repr

def volumePool (spec : VolumeSpec) : String :=
  ((spec.replicas.find? fun rep => !rep.diskless && rep.address ≠ "").orElse fun _ =>
    spec.firstDiskful).elim (poolOrDefault "") fun rep => poolOrDefault rep.pool

/-- The ids of the completed legs on other nodes. -/
def idsInUse (spec : VolumeSpec) (self : String) : List Nat :=
  (spec.replicas.filter fun rep => rep.node ≠ self && rep.address ≠ "").map Replica.nodeID ++
    (spec.clients.filter fun cl => cl.node ≠ self && cl.address ≠ "").map VolumeClient.nodeID

/-- The least id that no completed leg on another node has. -/
def nextNodeID (spec : VolumeSpec) (self : String) : Nat :=
  firstFree 0 (idsInUse spec self)

section Complete

variable (nodes : NodeMap) (ips : InternalIPs)

/-- The checks of `complete`, by which an entry is refused before its address is resolved. -/
def checkEntry (spec : VolumeSpec) (rep : Replica) : Except CompleteErr Unit :=
  let target := volumePool spec
  if (nodes.lookup rep.node).isNone then .error (.unknownNode rep.node)
  else if !rep.diskless && rep.pool ≠ "" && poolOrDefault rep.pool ≠ target then
    .error (.otherPool target (poolOrDefault rep.pool))
  else if !rep.diskless && (nodes.pool rep.node target).isNone then
    .error (.noPool rep.node target)
  else if 1 < (spec.replicas.filter fun other => other.node = rep.node).length then
    .error (.duplicate rep.node)
  else .ok ()

/-- `complete` on one entry. -/
def complete (spec : VolumeSpec) (rep : Replica) : Except CompleteErr Replica := do
  checkEntry nodes spec rep
  let address ← (nodes.replicationAddress ips rep.node).mapError .address
  let filled := { rep with nodeID := nextNodeID spec rep.node, address := address.1 }
  return if rep.diskless then { filled with pool := "" }
    else { filled with pool := volumePool spec, fullSync := true }

/-- `completeClient` on one client leg. -/
def completeClient (spec : VolumeSpec) (cl : VolumeClient) : Except CompleteErr VolumeClient := do
  if 1 < (spec.clients.filter fun other => other.node = cl.node).length then
    throw (.duplicate cl.node)
  let address ← (nodes.replicationAddress ips cl.node).mapError .address
  return { cl with nodeID := nextNodeID spec cl.node, address := address.1 }

/-- The loop of `Reconcile` over the replicas: `passed` are the entries behind it. -/
def completeReplicas (spec : VolumeSpec) :
    List Replica → List Replica → Except CompleteErr (List Replica)
  | passed, [] => .ok passed
  | passed, rep :: reps => do
    if rep.address ≠ "" then completeReplicas spec (passed ++ [rep]) reps
    else
      let filled ← complete nodes ips { spec with replicas := passed ++ rep :: reps } rep
      completeReplicas spec (passed ++ [filled]) reps

/-- The loop of `Reconcile` over the client legs. -/
def completeClients (spec : VolumeSpec) :
    List VolumeClient → List VolumeClient → Except CompleteErr (List VolumeClient)
  | passed, [] => .ok passed
  | passed, cl :: cls => do
    if cl.address ≠ "" then completeClients spec (passed ++ [cl]) cls
    else
      let filled ← completeClient nodes ips { spec with clients := passed ++ cl :: cls } cl
      completeClients spec (passed ++ [filled]) cls

/-- `Reconcile` of the membership controller on the spec: all entries are completed, or the spec
is left as it is. -/
def reconcileMembership (spec : VolumeSpec) : Except CompleteErr VolumeSpec :=
  if !spec.drbd then .ok spec
  else do
    let replicas ← completeReplicas nodes ips spec [] spec.replicas
    let spec := { spec with replicas := replicas }
    let clients ← completeClients nodes ips spec [] spec.clients
    return { spec with clients := clients }

end Complete

/-! ## Swaps and conversions -/

/-- `swapReplica`: the dead node's entry gives way to a bare one, diskful entries first. -/
def swapReplica (reps : List Replica) (dead : String) (replacement : Replica) : List Replica :=
  let alive := reps.filter fun rep => rep.node ≠ dead
  alive.filter (fun rep => !rep.diskless) ++ (if replacement.diskless then [] else [replacement]) ++
    alive.filter Replica.diskless ++ if replacement.diskless then [replacement] else []

/-- `convertTieBreaker`: the entry of `node` is flipped diskful in place. -/
def convertTieBreaker (reps : List Replica) (node pool : String) : List Replica :=
  reps.map fun rep =>
    if rep.node = node && rep.diskless then
      { rep with diskless := false, pool := pool, fullSync := true }
    else rep

/-- `convertClient`: a client leg becomes a diskful replica under its own id and address, and a
tie-breaker is dropped. -/
def convertClient (spec : VolumeSpec) (cl : VolumeClient) (pool : String) : VolumeSpec :=
  { spec with
    replicas := spec.diskfulReplicas ++
      [{ node := cl.node, pool := pool, nodeID := cl.nodeID, address := cl.address,
         fullSync := true }]
    clients := spec.clients.filter fun other => other.node ≠ cl.node }

/-! ## Joiners -/

/-- Every diskful entry was there before, or is a full-sync joiner. -/
def AddsJoiners (old new : VolumeSpec) : Prop :=
  ∀ rep ∈ new.diskfulReplicas, rep ∈ old.diskfulReplicas ∨ rep.fullSync = true

section Joiners

variable {nodes : NodeMap} {ips : InternalIPs} {spec : VolumeSpec}

theorem fullSync_of_complete {rep filled : Replica} (h : complete nodes ips spec rep = .ok filled)
    (hd : filled.diskless = false) : filled.fullSync := by
  obtain ⟨-, -, h⟩ := bind_eq_ok.mp h
  obtain ⟨address, -, h⟩ := bind_eq_ok.mp h
  rw [← Except.ok.inj h] at hd ⊢
  split
  · rename_i hdiskless
    rw [if_pos hdiskless] at hd
    exact absurd hdiskless (by simpa using hd)
  · rfl

/-- The loop keeps the entries that are complete, and makes joiners of the others. -/
theorem joiners_of_completeReplicas {passed reps out : List Replica}
    (h : completeReplicas nodes ips spec passed reps = .ok out) :
    ∀ rep ∈ out, rep.diskless = false → rep ∈ passed ∨ rep ∈ reps ∨ rep.fullSync := by
  induction reps generalizing passed with
  | nil =>
    cases h
    exact fun rep hrep _ => .inl hrep
  | cons first reps ih =>
    intro rep hrep hd
    rw [completeReplicas] at h
    split at h
    · rcases ih h rep hrep hd with hmem | hmem
      · rcases List.mem_append.mp hmem with hmem | hmem
        · exact .inl hmem
        · exact .inr (.inl (List.mem_singleton.mp hmem ▸ .head _))
      · exact .inr (hmem.imp_left (.tail _))
    · obtain ⟨filled, hfilled, h⟩ := bind_eq_ok.mp h
      rcases ih h rep hrep hd with hmem | hmem
      · rcases List.mem_append.mp hmem with hmem | hmem
        · exact .inl hmem
        · obtain rfl := List.mem_singleton.mp hmem
          exact .inr (.inr (fullSync_of_complete hfilled hd))
      · exact .inr (hmem.imp_left (.tail _))

theorem addsJoiners_reconcileMembership {new : VolumeSpec}
    (h : reconcileMembership nodes ips spec = .ok new) : AddsJoiners spec new := by
  rw [reconcileMembership] at h
  split at h
  · cases h
    exact fun rep hrep => .inl hrep
  · obtain ⟨replicas, hreps, h⟩ := bind_eq_ok.mp h
    obtain ⟨clients, -, h⟩ := bind_eq_ok.mp h
    cases h
    intro rep hrep
    obtain ⟨hmem, hd⟩ := List.mem_filter.mp hrep
    rcases joiners_of_completeReplicas hreps rep hmem (by simpa using hd) with hnil | hold | hfull
    · cases hnil
    · exact .inl (List.mem_filter.mpr ⟨hold, hd⟩)
    · exact .inr hfull

theorem addsJoiners_convertTieBreaker (node pool : String) :
    AddsJoiners spec { spec with replicas := convertTieBreaker spec.replicas node pool } := by
  intro rep hrep
  obtain ⟨hmem, hd⟩ := List.mem_filter.mp hrep
  obtain ⟨old, hold, rfl⟩ := List.mem_map.mp hmem
  by_cases hflip : (old.node = node && old.diskless)
  · rw [if_pos hflip]
    exact .inr rfl
  · rw [if_neg hflip] at hd ⊢
    exact .inl (List.mem_filter.mpr ⟨hold, hd⟩)

theorem addsJoiners_convertClient (cl : VolumeClient) (pool : String) :
    AddsJoiners spec (convertClient spec cl pool) := by
  intro rep hrep
  obtain ⟨hmem, hd⟩ := List.mem_filter.mp hrep
  rcases List.mem_append.mp hmem with hmem | hmem
  · exact .inl hmem
  · obtain rfl := List.mem_singleton.mp hmem
    exact .inr rfl

end Joiners

end Miroir
