import Miroir.Controller.Membership

/-!
# The objects the controllers edit

A `MiroirVolume` with everything the validation rules of its CRD look at, its finalizers and its
deletion mark, and the `MiroirNode` objects from which the topology is folded. A rule either reads
a spec by itself (`admitted`) or compares it with the one it replaces (`follows`).
-/

namespace Miroir

/-! ## Ages -/

/-- `time.Since(t) >= d`. -/
def reached (now d : Nat) (t : Stamp) : Bool := t * second + d ≤ now

/-- `time.Since(t) > d`. -/
def olderThan (now d : Nat) (t : Stamp) : Bool := t * second + d < now

theorem not_reached_of_not_olderThan {now d d' : Nat} {t : Stamp} (h : ¬olderThan now d t)
    (hd : d < d') : reached now d' t = false := by
  simp only [olderThan, reached, decide_eq_true_iff, decide_eq_false_iff_not, not_lt, not_le] at h ⊢
  exact Nat.lt_of_le_of_lt h (Nat.add_lt_add_left hd _)

/-! ## Volumes -/

/-- The identifiers under `spec.drbd`. -/
structure DRBDSpec where
  port : Nat
  sharedSecret : String := ""
  bitmapGranularityBytes : Nat := 0
  deriving DecidableEq, Repr

/-- The filesystem of an exported volume. -/
inductive FsType where
  | ext4 | xfs
  deriving DecidableEq, Repr

/-- The spec with what only the controller reads. -/
structure MiroirVolumeSpec extends VolumeSpec where
  quorumPolicy : Option QuorumPolicy := none
  /-- `spec.drbd`, where it is set. -/
  drbdSpec : DRBDSpec
  allowRemoteAccess : Bool := false
  exportFs : Option FsType := none
  deriving DecidableEq, Repr

/-- A volume as the controller reads it. -/
structure MiroirVolume where
  name : String
  spec : MiroirVolumeSpec
  status : VolumeStatus := {}
  /-- The nodes whose teardown finalizer is on the object. -/
  finalizers : List String := []
  /-- `metadata.deletionTimestamp` is set. -/
  deleting : Bool := false

namespace MiroirVolume

/-- What the agents read of it. -/
def volume (vol : MiroirVolume) : Volume := ⟨vol.name, vol.spec.toVolumeSpec, vol.status⟩

/-- The object with other legs. -/
def withLegs (vol : MiroirVolume) (replicas : List Replica) (clients : List VolumeClient) :
    MiroirVolume :=
  { vol with spec := { vol.spec with replicas := replicas, clients := clients } }

end MiroirVolume

/-- Some leg of the volume is on the node. -/
def hasLegOn (spec : VolumeSpec) (node : String) : Bool :=
  spec.replicas.any (fun rep => rep.node = node) || (spec.clientForNode node).isSome

theorem hasLegOn_iff {spec : VolumeSpec} {node : String} :
    hasLegOn spec node ↔
      node ∈ spec.replicas.map Replica.node ∨ node ∈ spec.clients.map VolumeClient.node := by
  simp [hasLegOn, VolumeSpec.clientForNode, List.find?_isSome]

/-- A membership edit waits for its completion. -/
def incompleteChange (spec : VolumeSpec) : Bool :=
  spec.replicas.any (fun rep => rep.address = "") || spec.clients.any fun cl => cl.address = ""

/-! ## The rules of the CRD -/

/-- The schema of `spec.drbd`. -/
def DRBDSpec.wellFormed (d : DRBDSpec) : Bool :=
  1024 ≤ d.port && d.port ≤ 65535 && d.sharedSecret.length ≤ 64 &&
    d.bitmapGranularityBytes ∈ [0, 4096, 8192, 16384, 32768, 65536, 131072, 262144, 524288, 1048576]

/-- The rules on a spec by itself. -/
def MiroirVolumeSpec.admitted (spec : MiroirVolumeSpec) : Bool :=
  spec.toVolumeSpec.admitted && (!spec.drbd || spec.drbdSpec.wellFormed) &&
    (spec.clients.isEmpty || spec.exportFs.isNone) &&
    (!(spec.exportFs.isSome && spec.drbd) || spec.quorumPolicy = some .freeze)

/-- A diskful replica stays diskful. -/
def keepsDisks (old new : VolumeSpec) : Bool :=
  new.replicas.all fun rep => old.replicas.all fun o =>
    o.node ≠ rep.node || o.diskless || !rep.diskless

/-- A completed diskful replica stays in its pool. -/
def keepsPools (old new : VolumeSpec) : Bool :=
  new.replicas.all fun rep => old.replicas.all fun o =>
    o.node ≠ rep.node || o.diskless || o.address = "" || samePool o rep

/-- The source and its padding stay. -/
def keepsSource (old new : VolumeSpec) : Bool := new.source = old.source

/-- The transition rules: `new` may replace `old`. -/
def MiroirVolumeSpec.follows (new old : MiroirVolumeSpec) : Bool :=
  old.sizeBytes ≤ new.sizeBytes && keepsDisks old.toVolumeSpec new.toVolumeSpec &&
    keepsPools old.toVolumeSpec new.toVolumeSpec && new.drbd = old.drbd &&
    new.exportFs = old.exportFs &&
    (!new.drbd || !old.drbd || new.drbdSpec.port = old.drbdSpec.port) &&
    keepsSource old.toVolumeSpec new.toVolumeSpec

/-- The ids of the completed legs. -/
def VolumeSpec.completedIDs (spec : VolumeSpec) : List Nat := spec.peers.map Peer.nodeID

/-! ## Nodes -/

/-- What a node reports of a pool. -/
structure PoolStats where
  capacityBytes : Int
  allocatedBytes : Int
  deriving DecidableEq, Repr

/-- What a node reports of itself. -/
structure MiroirNode where
  name : String
  /-- The spec, as `FromSpec` flattens it. -/
  entry : StorageNode := {}
  /-- When the agent sampled its pools last: its heartbeat. -/
  observedAt : Option Stamp := none
  pools : AList (fun _ : String => PoolStats) := ∅
  deriving DecidableEq

def MiroirNode.pool (mn : MiroirNode) (pool : String) : Option PoolStats :=
  mn.pools.lookup (poolOrDefault pool)

/-- Another node has the same replication address, under the canonical spelling of addresses. -/
def sharesAddress (conflictKey : String → String) (items : List MiroirNode) (mn : MiroirNode) :
    Bool :=
  conflictKey mn.entry.address ≠ "" && 1 < (items.filter fun o =>
    conflictKey o.entry.address = conflictKey mn.entry.address).length

/-- `FromNodes`. -/
def fromNodes (conflictKey : String → String) (items : List MiroirNode) : NodeMap :=
  items.foldl (fun m mn => m.insert mn.name
    { mn.entry with addressConflict := sharesAddress conflictKey items mn }) ∅

/-- The node's heartbeat was there and went silent for the threshold. -/
def silent (now after : Nat) (mn : MiroirNode) : Bool :=
  mn.observedAt.any (reached now after)

end Miroir
