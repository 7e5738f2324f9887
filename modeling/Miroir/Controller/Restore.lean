import Miroir.Controller.Membership

/-!
# The layout of a new volume

`CreateVolume` places a fresh volume, and lets a restore follow its source: the legs that hold the
snapshot clone it, and the others are marked `FullSync` and join blank. A class that asks for
another number of diskful legs than the source has gets a reshaped layout, some legs dropped or
joiners placed, in which the cloning legs keep their node ids and every other leg is numbered
anew.
-/

namespace Miroir

open Data

/-! ## Requests -/

/-- What of a `CreateVolumeRequest` and its class the layout depends on. A topology is the node
its hostname segment names, empty without one. -/
structure CreateRequest where
  name : String
  sizeBytes : Nat
  /-- The number of diskful legs. -/
  replicas : Nat
  quorum : QuorumPolicy
  remoteAccess : Bool := false
  pool : String := "default"
  preferred : List String := []
  requisite : List String := []
  deriving DecidableEq, Repr

/-- A diskful leg as `place` hands it out. -/
structure PlacedLeg where
  node : String
  pool : String
  nodeID : Nat := 0
  address : String := ""
  deriving DecidableEq, Repr

def PlacedLeg.replica (leg : PlacedLeg) (fullSync : Bool) : Replica where
  node := leg.node
  pool := leg.pool
  nodeID := leg.nodeID
  address := leg.address
  fullSync := fullSync

/-- The controller and what it looks up. `place` is the choice of nodes for a number of new legs
beside the excluded ones, by topology, free space and zones. -/
structure Controller where
  nodes : NodeMap
  ips : InternalIPs
  autoTieBreaker : Bool
  place : CreateRequest → (count : Nat) → (excluded : List String) → Except Status (List PlacedLeg)

def diskfulOf (reps : List Replica) : List Replica :=
  reps.filter fun rep => !rep.diskless

def nextFreeNodeID (reps : List Replica) : Nat :=
  firstFree 0 (reps.map Replica.nodeID)

namespace Controller

variable (c : Controller)

def replicationAddress (node : String) : Except Status Address :=
  (c.nodes.replicationAddress c.ips node).mapError fun err => ⟨.internal, err.text⟩

/-- A pair that freezes gets a diskless tie-breaker, if there is a node. -/
def withTieBreaker (placed : List Replica) (replicas : Nat) (quorum : QuorumPolicy) :
    Except Status (List Replica) :=
  if !c.autoTieBreaker || replicas ≠ 2 || quorum ≠ .freeze then .ok placed
  else
    let node := c.nodes.tieBreakerNode placed
    if node = "" then .ok placed
    else do
      let address ← c.replicationAddress node
      return placed ++
        [{ node := node
           nodeID := nextFreeNodeID placed
           address := address.1
           diskless := true }]

/-! ## The source's legs -/

/-- The snapshot was cut on the node. -/
def cutOn (snap : Snapshot) (node : String) : Bool :=
  snap.status.perNode.lookup node = some .done

/-- One entry of the source's layout, cleaned. -/
def restoreReplica (snap : Snapshot) (rep : Replica) : Except Status Replica :=
  let rep := { rep with fullSync := !rep.diskless && !cutOn snap rep.node }
  if rep.address = "" then .ok rep
  else do
    let address ← c.replicationAddress rep.node
    return { rep with address := address.1 }

/-- The source's layout for a clone. It is refused if the first diskful leg, taken to be the
winner, does not hold the snapshot. -/
def restoreReplicas (src : Volume) (snap : Snapshot) : Except Status (List Replica) := do
  let reps ← src.spec.replicas.mapM (c.restoreReplica snap)
  match reps.find? fun rep => !rep.diskless with
  | some seed =>
    if seed.fullSync then
      throw ⟨.failedPrecondition, "snapshot " ++ snap.name ++ " has no complete leg on seed node "
        ++ seed.node ++ "; cannot restore"⟩
    else return reps
  | none => return reps

/-- `snapshotSource` and `resolveSource`: the legs a restore starts from, and its source. -/
def resolveSource (req : CreateRequest) (src : Volume) (snap : Snapshot) :
    Except Status (VolumeSource × List Replica) :=
  if !snap.status.readyToUse then
    .error ⟨.failedPrecondition, "snapshot " ++ snap.name ++ " not ready"⟩
  else if req.sizeBytes < snap.status.sizeBytes then
    .error ⟨.invalidArgument, "requested " ++ toString req.sizeBytes ++ " below snapshot size " ++
      toString snap.status.sizeBytes⟩
  else
    match src.spec.diskfulReplicas.find? fun rep => poolOrDefault rep.pool ≠ req.pool with
    | some rep =>
      .error ⟨.invalidArgument, "restore must stay in the source volume's pool \"" ++
        poolOrDefault rep.pool ++ "\" (CoW clones cannot cross pools); the class requests pool \""
        ++ req.pool ++ "\""⟩
    | none => do
      let reps ← c.restoreReplicas src snap
      return ({ snapshotName := snap.name
                padForMetadata := 1 < req.replicas &&
                  (!src.spec.drbd || src.spec.source.any VolumeSource.padForMetadata) }, reps)

/-! ## Reshaping -/

def selectedTopologyNode (req : CreateRequest) : String :=
  ((req.preferred ++ req.requisite).find? (· ≠ "")).getD ""

/-- The leg to keep for a topology: the selected node's if it is complete, else none if the seed
will do, else the first complete leg within the requisite nodes. -/
def shrinkPin (req : CreateRequest) (diskful : List Replica) (selected : String) :
    Except Status String :=
  if selected = "" || diskful.any (fun rep => rep.node = selected && !rep.fullSync) then
    .ok selected
  else
    let requisite := req.requisite.filter (· ≠ "")
    if requisite.isEmpty || diskful.head?.any (fun seed => seed.node ∈ requisite) then .ok ""
    else
      match diskful.find? fun rep => !rep.fullSync && rep.node ∈ requisite with
      | some rep => .ok rep.node
      | none => .error ⟨.resourceExhausted,
          "no complete source snapshot leg exists on topology node \"" ++ selected ++
            "\" or within the requested topology"⟩

/-- The leg a shrink keeps for the topology; with remote access any will do. -/
def restorePin (req : CreateRequest) (diskful : List Replica) : Except Status String :=
  if req.remoteAccess then .ok "" else shrinkPin req diskful (selectedTopologyNode req)

def pinnedLeg (diskful : List Replica) (pin : String) : Option Replica :=
  if pin = "" then none else diskful.find? fun rep => rep.node = pin

/-- The seed first, then the pinned leg, then complete legs and then joiners in order. -/
def keepRestoreLegs (diskful : List Replica) (target : Nat) (pin : String) : List Replica :=
  let pinned := pinnedLeg diskful pin
  if target = 1 && pinned.isSome then pinned.toList
  else
    let kept := diskful.take 1 ++
      (pinned.filter fun rep => diskful.head?.all fun seed => seed.node ≠ rep.node).toList
    let others := diskful.tail.filter fun rep => rep.node ≠ pin
    kept ++ (others.filter (fun rep => !rep.fullSync) ++ others.filter Replica.fullSync).take
      (target - kept.length)

/-- The diskful legs of a reshaped layout, before they are numbered. -/
def reshapeLegs (req : CreateRequest) (base : List Replica) : Except Status (List Replica) :=
  let diskful := diskfulOf base
  if req.replicas < diskful.length then do
    let pin ← restorePin req diskful
    return keepRestoreLegs diskful req.replicas pin
  else if diskful.length < req.replicas then do
    let extra ← c.place req (req.replicas - diskful.length) (diskful.map Replica.node)
    return diskful ++ extra.map fun leg => leg.replica true
  else return diskful

/-- A leg that clones DRBD metadata, which is keyed by its node id. -/
def preserved (rep : Replica) : Bool :=
  rep.address ≠ "" && !rep.fullSync

/-- The address a leg has, else the one of its node. -/
def legAddress (rep : Replica) : Except Status String :=
  if rep.address = "" then (c.replicationAddress rep.node).map Subtype.val else .ok rep.address

/-- The loop over the legs to number: each takes the smallest unused id. -/
def renumber : List Nat → List Replica → Except Status (List Replica)
  | _, [] => .ok []
  | used, rep :: reps =>
    if preserved rep then do return rep :: (← renumber used reps)
    else do
      let id := firstFree 0 used
      let address ← c.legAddress rep
      return { rep with nodeID := id, address := address } :: (← renumber (id :: used) reps)

/-- The source's legs, cut down or filled up to the number asked for. -/
def reshapeRestore (req : CreateRequest) (base : List Replica) : Except Status (List Replica) := do
  let legs ← c.reshapeLegs req base
  if req.replicas = 1 then
    return (legs.take 1).map fun rep => { rep with nodeID := 0, address := "", fullSync := false }
  else
    let diskful ← c.renumber ((legs.filter preserved).map Replica.nodeID) legs
    c.withTieBreaker diskful req.replicas req.quorum

/-! ## CreateVolume -/

/-- `placeVolume`; `base` are the legs of a restore's source. -/
def placeVolume (req : CreateRequest) (base : Option (List Replica)) :
    Except Status (List Replica) :=
  match base with
  | some reps =>
    if (diskfulOf reps).length = req.replicas then .ok reps else c.reshapeRestore req reps
  | none => do
    let placed ← c.place req req.replicas []
    c.withTieBreaker (placed.map fun leg => leg.replica false) req.replicas req.quorum

/-- The source of a volume with a content source. -/
def resolveContent (req : CreateRequest) :
    Option (Volume × Snapshot) → Except Status (Option (VolumeSource × List Replica))
  | none => .ok none
  | some (src, snap) => do return some (← c.resolveSource req src snap)

/-- The API server takes a new volume that the CRD admits. -/
def create (spec : VolumeSpec) : Except Status VolumeSpec :=
  if spec.admitted then .ok spec else .error ⟨.internal, "create MiroirVolume"⟩

/-- The spec `CreateVolume` commits, fresh or restored from a snapshot of a volume. -/
def createVolume (req : CreateRequest) (content : Option (Volume × Snapshot)) :
    Except Status VolumeSpec := do
  let source ← c.resolveContent req content
  let placed ← c.placeVolume req (source.map Prod.snd)
  create
    { sizeBytes := req.sizeBytes
      replicas := placed
      drbd := 1 < req.replicas
      source := source.map Prod.fst }

end Controller

end Miroir
