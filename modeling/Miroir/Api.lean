import Mathlib.Data.List.AList

/-!
# The objects on the API server

`MiroirVolume`, `MiroirSnapshot` and `MiroirSnapshotGroup` with the fields the agents'
snapshot rounds read and write. Names are strings, a Go map with a zero default for absent
keys is a function or an `AList`, a stamp is a whole number of seconds (`metav1.Time` is
serialised to the second) and a duration is in nanoseconds.

Two fields are not on the wire. `round` names the round a status records, by the node that
opened it and the moment its open reached the API server, and `observed` says for every slot
the stamp of the live round its writer had read. No program reads them.
-/

namespace Miroir

/-- Finite maps are compared by their entries, so that comparisons evaluate. -/
instance (priority := high) decidableEqAList {α : Type} {β : α → Type} [DecidableEq α]
    [∀ a, DecidableEq (β a)] : DecidableEq (AList β) := fun m m' =>
  decidable_of_iff (m.entries = m'.entries) AList.ext_iff.symm

/-- A time on the API server, in seconds. -/
abbrev Stamp := Nat

/-- Nanoseconds in a second. -/
def second : Nat := 1000000000

/-- The gRPC codes the RPCs fail with. -/
inductive Code where
  | invalidArgument | notFound | alreadyExists | failedPrecondition | resourceExhausted | aborted
  | outOfRange | deadlineExceeded | unavailable | dataLoss | internal
  deriving DecidableEq, Repr

/-- A gRPC error. -/
structure Status where
  code : Code
  message : String
  deriving DecidableEq, Repr

/-! ## Volumes -/

/-- The disk states `drbdsetup status` reports. -/
inductive DiskState where
  | diskless | attaching | detaching | failed | negotiating | inconsistent | outdated
  | unknown | consistent | upToDate
  deriving DecidableEq, Repr

/-- A leg of a volume. -/
structure Replica where
  node : String
  /-- Empty for the default pool. -/
  pool : String := ""
  /-- An `int32` without a minimum in the CRD; ids below 0, which no controller assigns, are left
  out. -/
  nodeID : Nat
  address : String := ""
  fullSync : Bool := false
  diskless : Bool := false
  deriving DecidableEq, Repr

/-- An ephemeral diskless leg on a consumer's node. -/
structure VolumeClient where
  node : String
  nodeID : Nat
  address : String := ""
  /-- When the leg was attached. -/
  addedAt : Option Stamp := none
  deriving DecidableEq, Repr

/-- `spec.quorum`. -/
inductive QuorumPolicy where
  | lastManStanding | freeze
  deriving DecidableEq, Repr

/-- What a restored volume is cloned from. -/
structure VolumeSource where
  snapshotName : String
  padForMetadata : Bool := false
  deriving DecidableEq, Repr

/-- The desired state of a volume. -/
structure VolumeSpec where
  sizeBytes : Nat
  replicas : List Replica
  clients : List VolumeClient := []
  /-- `spec.drbd` is set: the volume is replicated. -/
  drbd : Bool
  source : Option VolumeSource := none
  deriving DecidableEq, Repr

def VolumeSpec.diskfulReplicas (s : VolumeSpec) : List Replica :=
  s.replicas.filter fun r => !r.diskless

def VolumeSpec.clientForNode (s : VolumeSpec) (node : String) : Option VolumeClient :=
  s.clients.find? fun c => c.node = node

/-- One node's observed state, written by its agent. -/
structure ReplicaStatus where
  deviceCreated : Bool := false
  devicePath : String := ""
  sizeBytes : Nat := 0
  /-- 0 where it is not assigned. -/
  drbdMinor : Nat := 0
  /-- Empty until the volume agent has brought DRBD up. -/
  diskState : Option DiskState := none
  /-- The links to every diskful peer are established. -/
  connected : Bool := false
  splitBrain : Bool := false
  diskless : Bool := false
  pool : String := ""
  discardGranularityBytes : Nat := 0
  diskFailed : Bool := false
  message : String := ""
  primarySince : Option Stamp := none
  /-- What the last verify found, 0 where it was clean. -/
  lastVerifyOutOfSyncBytes : Option Nat := none
  /-- A verify was started and is not recorded yet. -/
  verifyStartedAt : Option Stamp := none
  /-- When the agent last probed the leg. -/
  lastProbedAt : Option Stamp := none
  deriving DecidableEq, Repr

/-- `status.phase`. -/
inductive VolumePhase where
  | creating | ready | degraded | failed
  deriving DecidableEq, Repr

/-- The observed state of a volume, with a slot per node. -/
structure VolumeStatus where
  phase : VolumePhase := .creating
  readyReplicas : String := ""
  perNode : String → ReplicaStatus := fun _ => {}
  formatted : Bool := false
  activated : Bool := false

/-- A `MiroirVolume`. -/
structure Volume where
  name : String
  spec : VolumeSpec
  status : VolumeStatus

/-! ## Snapshots and groups -/

/-- Where a leg of a snapshot stands. -/
inductive SnapshotNodeState where
  | pending | suspended | done | error
  deriving DecidableEq, Repr

/-- Slots of a round, by the leg they belong to. -/
abbrev Slots (κ : Type) := AList fun _ : κ => SnapshotNodeState

/-- Which round a status records: the node that opened it, and when its open landed. -/
structure Round where
  opener : String
  openedAt : Nat
  deriving DecidableEq, Repr

/-- The barrier and the legs of a snapshot. -/
structure SnapshotStatus where
  readyToUse : Bool := false
  perNode : Slots String := ∅
  sizeBytes : Nat := 0
  sourceFormatted : Bool := false
  ioSuspended : Bool := false
  suspendedAt : Option Stamp := none
  round : Option Round := none
  observed : AList (fun _ : String => Option Stamp) := ∅
  deriving DecidableEq

/-- A `MiroirSnapshot`. -/
structure Snapshot where
  name : String
  uid : String
  volumeName : String
  /-- The group whose round cuts this snapshot, empty for a standalone one. -/
  group : String := ""
  /-- `metadata.deletionTimestamp` is set. -/
  deleting : Bool := false
  /-- The nodes whose teardown finalizer is still on the object. -/
  finalizers : List String := []
  status : SnapshotStatus := {}
  deriving DecidableEq

/-- `"<volume>/<node>"`. -/
abbrev SlotKey := String × String

/-- The round of a group snapshot. -/
structure GroupStatus where
  readyToUse : Bool := false
  perLeg : Slots SlotKey := ∅
  ioSuspended : Bool := false
  suspendedAt : Option Stamp := none
  round : Option Round := none
  observed : AList (fun _ : SlotKey => Option Round) := ∅
  deriving DecidableEq

/-- A `MiroirSnapshotGroup`. -/
structure SnapshotGroup where
  name : String
  uid : String
  snapshotNames : List String
  deleting : Bool := false
  finalizers : List String := []
  status : GroupStatus := {}
  deriving DecidableEq

/-- Everything the API server holds, by name. -/
structure Api where
  snaps : AList fun _ : String => Snapshot
  groups : AList fun _ : String => SnapshotGroup
  deriving DecidableEq

def Api.snap (a : Api) (x : String) : Option Snapshot := a.snaps.lookup x

def Api.group (a : Api) (g : String) : Option SnapshotGroup := a.groups.lookup g

/-- A list call: the objects in the order the server returns them. -/
def Api.listSnapshots (a : Api) : List Snapshot := a.snaps.entries.map Sigma.snd

def Api.listGroups (a : Api) : List SnapshotGroup := a.groups.entries.map Sigma.snd

theorem mem_listSnapshots {a : Api} {x : String} {w : Snapshot} (h : a.snap x = some w) :
    w ∈ a.listSnapshots :=
  List.mem_map.mpr ⟨⟨x, w⟩, List.of_mem_dlookup h, rfl⟩

theorem mem_listGroups {a : Api} {g : String} {w : SnapshotGroup} (h : a.group g = some w) :
    w ∈ a.listGroups :=
  List.mem_map.mpr ⟨⟨g, w⟩, List.of_mem_dlookup h, rfl⟩

end Miroir
