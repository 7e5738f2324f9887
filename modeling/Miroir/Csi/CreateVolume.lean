import Miroir.Csi.GroupController
import Miroir.Csi.Placement
import Miroir.Volume.Size

/-!
# CreateVolume and DeleteVolume

The two RPCs as programs. `CreateVolume` resolves its content source, and then, under the lock
`allocMu`, lists the volumes, places the legs, picks a port and creates the `MiroirVolume`. What the
API server answers to the create decides how it goes on (`handleCreateErr`): an object of that name
is taken for the volume if it is the same request's. At last it waits until the volume is ready.

Class parameters come as `parseClassParams` returns them. Layouts are those of
`Controller.Restore`; the sizes in `int64` are in `Safety.SizeBounds`.
-/

namespace Miroir.Prov

open Process Prog Data

/-! ## Requests -/

/-- What a class asks for. -/
structure ClassParams where
  replicas : Nat
  quorum : QuorumPolicy := .freeze
  remoteAccess : Bool := false
  bitmapGranularity : Nat := 0
  pool : String := "default"
  /-- What the parser checks. -/
  valid : 1 ≤ replicas ∧ replicas ≤ 3 ∧ (remoteAccess = true → 1 < replicas) ∧
    (bitmapGranularity ≠ 0 → 1 < replicas) ∧ pool ≠ "" := by decide

/-- What a new volume's data comes from. -/
inductive ContentSource where
  | none
  | snapshot (id : String)
  | volume (id : String)
  deriving DecidableEq, Repr

/-- A `CreateVolumeRequest`. -/
structure Request where
  name : String
  requiredBytes : Nat := 0
  limitBytes : Nat := 0
  params : ClassParams
  /-- Some capability is for several nodes. -/
  shared : Bool := false
  /-- The filesystem its mount capability names. -/
  fsType : FsType := .ext4
  source : ContentSource := .none
  preferred : List String := []
  requisite : List String := []

/-- The controller's flags. -/
structure Config where
  rwxEnabled : Bool := false
  autoTieBreaker : Bool := true
  /-- 0 for the default. -/
  drbdPortBase : Nat := 0
  overcommit : Ratio
  freeSpace : Ratio

def Config.portBase (cfg : Config) : Nat := if cfg.drbdPortBase = 0 then 7000 else cfg.drbdPortBase

/-! ## Commands -/

/-- A command of the provisioner. -/
inductive Cmd where
  | lock
  | unlock
  /-- `c.nodes`, with the addresses of the Node objects. -/
  | topology
  | poolStats
  | listVolumes
  | cachedVolume (id : String)
  | cachedSnapshot (x : String)
  | createSnapshot (x volume : String) (finalizers : List String)
  | getSnapshot (x : String)
  | waitSnapshotReady (x : String)
  /-- `rand.Read`. -/
  | secret
  | createVolume (name : String) (spec : MiroirVolumeSpec) (finalizers : List String)
  | getVolume (id : String)
  | alignSize (id : String) (sizeBytes : Nat)
  | markFormatted (id : String)
  | waitReady (id : String)
  | deleteVolume (id : String)
  | deleteSnapshot (x : String)
  deriving DecidableEq

/-- A snapshot, and whether it is an internal clone-source snapshot. -/
structure Snap where
  snap : Snapshot
  cloneSource : Bool := false
  deriving DecidableEq

open Csi (ApiErr)

abbrev Ans : Cmd → Type
  | .lock | .unlock => Unit
  | .topology => Except ApiErr (NodeMap × InternalIPs)
  | .poolStats => Except ApiErr (AList fun _ : String => MiroirNode)
  | .listVolumes => Except ApiErr (List MiroirVolume)
  | .cachedVolume _ | .getVolume _ => Except ApiErr MiroirVolume
  | .cachedSnapshot _ | .getSnapshot _ | .createSnapshot .. => Except ApiErr Snap
  | .secret => Except ApiErr String
  | .waitReady _ => Except Status Unit
  | .waitSnapshotReady _ | .createVolume .. | .alignSize .. | .markFormatted _ | .deleteVolume _
  | .deleteSnapshot _ => Except ApiErr Unit

abbrev RpcM := Prog Cmd Ans

abbrev RpcLog := Log Nat Ans

/-! ## Sizes -/

/-- The size checks of `CreateVolume`. -/
def createSize (required limit : Int) : Except Status Int := do
  checkLimit (alignSector64 (← chosen))
where
  chosen : Except Status Int :=
    if required = 0 then
      if 0 < limit && limit < 2 ^ 30 then
        if wholeSectors limit = 0 then .error ⟨.outOfRange, "limit " ++ toString limit ++
          " is below the " ++ toString sectorSize ++ "-byte sector size"⟩
        else .ok (wholeSectors limit)
      else .ok (2 ^ 30)
    else .ok required
  checkLimit (size : Int) : Except Status Int :=
    if 0 < limit && limit < size then
      .error ⟨.outOfRange, "required " ++ toString size ++ " (sector-aligned) exceeds limit " ++
        toString limit⟩
    else .ok size

/-- The size to provision, in whole sectors. Where the rounding wraps it is 0, which the schema
refuses as it does the negative size. -/
def Request.sizeBytes (req : Request) : Except Status Nat :=
  (createSize req.requiredBytes req.limitBytes).map Int.toNat

/-- The checks of a request for a shared volume. -/
def validateSharedRequest (cfg : Config) (req : Request) : Except Status Unit :=
  if !req.shared then .ok ()
  else if !cfg.rwxEnabled then
    .error ⟨.failedPrecondition, "RWX (ReadWriteMany) volumes are disabled: no NFS gateway is " ++
      "configured (set gateway.enabled=true in Helm values)"⟩
  else if req.params.replicas < 2 then
    .error ⟨.invalidArgument, "RWX volumes need at least 2 replicas so the NFS gateway can fail " ++
      "over to a surviving node"⟩
  else if req.params.quorum = .lastManStanding then
    .error ⟨.invalidArgument, "RWX volumes require freeze quorum: last-man-standing risks two " ++
      "gateways writing during a partition"⟩
  else .ok ()

/-- The size, if the request is one the controller takes. -/
def Request.validate (cfg : Config) (req : Request) : Except Status Nat := do
  if req.name = "" then throw ⟨.invalidArgument, "volume name is required"⟩
  let size ← req.sizeBytes
  validateSharedRequest cfg req
  return size

/-- What the layout depends on. -/
def Request.layout (req : Request) (size : Nat) : CreateRequest where
  name := req.name
  sizeBytes := size
  replicas := req.params.replicas
  quorum := req.params.quorum
  remoteAccess := req.params.remoteAccess
  pool := req.params.pool
  preferred := req.preferred
  requisite := req.requisite

/-! ## The content source -/

/-- The pool of a source in which the class's legs cannot clone. -/
def otherPool (vol : MiroirVolume) (pool : String) : Option String :=
  (vol.spec.diskfulReplicas.find? fun rep => poolOrDefault rep.pool ≠ pool).map fun rep =>
    poolOrDefault rep.pool

def sourceName (source : Option VolumeSource) : String :=
  (source.map VolumeSource.snapshotName).getD ""

/-- `ensureSnapshot` of an internal clone-source snapshot. -/
def ensureSnapshot (name : String) (vol : MiroirVolume) : RpcM (Except Status Unit) := do
  match ← call (Cmd.createSnapshot name vol.name (vol.spec.replicas.map Replica.node)) with
  | .ok _ => return .ok ()
  | .error (.invalid text) => return .error ⟨.invalidArgument, "create MiroirSnapshot: " ++ text⟩
  | .error .alreadyExists =>
    match ← call (Cmd.getSnapshot name) with
    | .error e => return .error ⟨.unavailable, "get existing snapshot: " ++ e.text⟩
    | .ok existing =>
      if existing.snap.volumeName ≠ vol.name || existing.snap.group ≠ "" then
        return .error ⟨.alreadyExists, "snapshot " ++ name ++ " exists for volume " ++
          existing.snap.volumeName ++ " in group " ++ existing.snap.group.quote⟩
      else if !existing.cloneSource then
        return .error ⟨.alreadyExists, "snapshot " ++ name ++
          " exists and is not an internal clone-source snapshot"⟩
      else return .ok ()
  | .error e => return .error ⟨.internal, "create MiroirSnapshot: " ++ e.text⟩

/-- A volume of the clone's name that is not this clone. -/
def nameTaken (clone src snapName : String) : RpcM (Except Status Unit) := do
  match ← call (Cmd.cachedVolume clone) with
  | .ok existing =>
    if sourceName existing.spec.source ≠ snapName then
      return .error ⟨.alreadyExists, "volume " ++ clone ++ " exists with source " ++
        (sourceName existing.spec.source).quote ++ " (requested a clone of volume " ++ src ++ ")"⟩
    else return .ok ()
  | .error .notFound => return .ok ()
  | .error e => return .error ⟨.internal, "get existing volume: " ++ e.text⟩

/-- The snapshot that a clone starts from, made if it is not there. -/
def ensureCloneSnapshot (src clone : String) (size : Nat) (pool : String) :
    RpcM (Except Status String) := do
  let snapName := "clone-" ++ clone
  match ← nameTaken clone src snapName with
  | .error st => return .error st
  | .ok () =>
    match ← call (Cmd.cachedVolume src) with
    | .error .notFound => return .error ⟨.notFound, "clone source volume " ++ src ++ " not found"⟩
    | .error e => return .error ⟨.internal, "get clone source volume: " ++ e.text⟩
    | .ok vol =>
      if size < vol.spec.sizeBytes then
        return .error ⟨.invalidArgument, "requested " ++ toString size ++
          " below clone source volume size " ++ toString vol.spec.sizeBytes⟩
      else
        match otherPool vol pool with
        | some other => return .error ⟨.invalidArgument,
            "clone must stay in the source volume's pool " ++ other.quote ++
              " (CoW clones cannot cross pools); the class requests pool " ++ pool.quote⟩
        | none =>
          match ← ensureSnapshot snapName vol with
          | .error st => return .error st
          | .ok () =>
            match ← call (Cmd.waitSnapshotReady snapName) with
            | .error e => return .error ⟨.deadlineExceeded,
                "clone-source snapshot " ++ snapName ++ " not ready: " ++ e.text⟩
            | .ok () => return .ok snapName

/-- The snapshot to restore from, empty for a blank volume. -/
def resolveContentSource (req : Request) (size : Nat) : RpcM (Except Status String) :=
  match req.source with
  | .none => return .ok ""
  | .snapshot id =>
    if id = "" then return .error ⟨.invalidArgument, "snapshot content source needs a snapshot id"⟩
    else return .ok id
  | .volume id =>
    if id = "" then return .error ⟨.invalidArgument, "volume content source needs a volume id"⟩
    else ensureCloneSnapshot id req.name size req.params.pool

/-- A ready snapshot and its source volume. -/
def snapshotSource (snapID : String) : RpcM (Except Status (MiroirVolume × Snapshot)) := do
  match ← call (Cmd.cachedSnapshot snapID) with
  | .error .notFound => return .error ⟨.notFound, "snapshot " ++ snapID ++ " not found"⟩
  | .error e => return .error ⟨.internal, "get snapshot: " ++ e.text⟩
  | .ok ⟨snap, _⟩ =>
    if !snap.status.readyToUse then
      return .error ⟨.failedPrecondition, "snapshot " ++ snapID ++ " not ready"⟩
    else
      match ← call (Cmd.cachedVolume snap.volumeName) with
      | .error e => return .error ⟨.internal, "get snapshot source volume: " ++ e.text⟩
      | .ok vol => return .ok (vol, snap)

/-- What a volume is made from. -/
structure Plan where
  source : Option VolumeSource := none
  /-- The source's legs, for a restore. -/
  base : Option (List Replica) := none
  formatted : Bool := false

/-- The plan of a restore from these legs. -/
def Plan.restore (req : Request) (vol : MiroirVolume) (snap : Snapshot) (snapID : String)
    (reps : List Replica) : Plan where
  source := some
    { snapshotName := snapID
      padForMetadata := 1 < req.params.replicas &&
        (!vol.spec.drbd || vol.spec.source.any VolumeSource.padForMetadata) }
  base := some reps
  formatted := snap.status.sourceFormatted

/-- The controller over a topology, without figures or volumes. -/
def lookups (cfg : Config) (top : NodeMap × InternalIPs) : Controller :=
  Pools.controller ⟨top.1, top.2, ∅, [], cfg.overcommit, cfg.freeSpace⟩ cfg.autoTieBreaker

/-- The source of a restore, and the legs it starts from. -/
def resolveSource (cfg : Config) (req : Request) (size : Nat) (snapID : String) :
    RpcM (Except Status Plan) := do
  if snapID = "" then return .ok {}
  else
    match ← snapshotSource snapID with
    | .error st => return .error st
    | .ok (vol, snap) =>
      if size < snap.status.sizeBytes then
        return .error ⟨.invalidArgument, "requested " ++ toString size ++ " below snapshot size " ++
          toString snap.status.sizeBytes⟩
      else
        match otherPool vol req.params.pool with
        | some other => return .error ⟨.invalidArgument,
            "restore must stay in the source volume's pool " ++ other.quote ++
              " (CoW clones cannot cross pools); the class requests pool " ++ req.params.pool.quote⟩
        | none =>
          match ← call Cmd.topology with
          | .error e => return .error ⟨.internal, e.text⟩
          | .ok top =>
            match (lookups cfg top).restoreReplicas vol.volume snap with
            | .error st => return .error st
            | .ok reps => return .ok (.restore req vol snap snapID reps)

/-- Everything before the lock. -/
def resolve (cfg : Config) (req : Request) (size : Nat) : RpcM (Except Status Plan) := do
  match ← resolveContentSource req size with
  | .error st => return .error st
  | .ok snapID => resolveSource cfg req size snapID

/-! ## Under the lock -/

def allocVolumes (needed : Bool) : RpcM (Except Status (List MiroirVolume)) := do
  if !needed then return .ok []
  else
    match ← call Cmd.listVolumes with
    | .error e => return .error ⟨.internal, "list MiroirVolumes: " ++ e.text⟩
    | .ok vols => return .ok vols

/-- The figures, if legs are to be placed: a restore that drops legs reads none. -/
def placeStats (needed : Bool) : RpcM (Except Status (AList fun _ : String => MiroirNode)) := do
  if !needed then return .ok ∅
  else
    match ← call Cmd.poolStats with
    | .error e => return .error ⟨.internal, "list MiroirNodes: " ++ e.text⟩
    | .ok stats => return .ok stats

/-- Legs are to be placed beside those of the source. -/
def Plan.places (plan : Plan) (replicas : Nat) : Bool :=
  plan.base.all fun reps => (diskfulOf reps).length < replicas

/-- The source's layout has as many diskful legs as the class asks for. -/
def Plan.copies (plan : Plan) (replicas : Nat) : Bool :=
  plan.base.any fun reps => (diskfulOf reps).length = replicas

/-- The legs of a new volume. -/
def placeVolume (cfg : Config) (req : Request) (size : Nat) (plan : Plan)
    (vols : List MiroirVolume) : RpcM (Except Status (List Replica)) := do
  if plan.copies req.params.replicas then return .ok (plan.base.getD [])
  else
    match ← call Cmd.topology with
    | .error e => return .error ⟨.internal, e.text⟩
    | .ok top =>
      match ← placeStats (plan.places req.params.replicas) with
      | .error st => return .error st
      | .ok stats =>
        let pools : Pools := ⟨top.1, top.2, stats, vols, cfg.overcommit, cfg.freeSpace⟩
        return (pools.controller cfg.autoTieBreaker).placeVolume (req.layout size) plan.base

/-- The ports of the replicated volumes. -/
def ports (vols : List MiroirVolume) : List Nat :=
  (vols.filter fun v => v.spec.drbd).map fun v => v.spec.drbdSpec.port

/-- A port that no listed volume has, and a secret. -/
def allocateDRBD (cfg : Config) (vols : List MiroirVolume) : RpcM (Except Status DRBDSpec) := do
  let port := firstFree cfg.portBase (ports vols)
  match ← call Cmd.secret with
  | .error e => return .error ⟨.internal, "generate shared secret: " ++ e.text⟩
  | .ok sharedSecret => return .ok { port := port, sharedSecret := sharedSecret }

/-- `allocateDRBD`, for a replicated volume. -/
def replication (cfg : Config) (req : Request) (vols : List MiroirVolume) :
    RpcM (Except Status DRBDSpec) := do
  if 1 < req.params.replicas then
    match ← allocateDRBD cfg vols with
    | .error st => return .error st
    | .ok drbd => return .ok { drbd with bitmapGranularityBytes := req.params.bitmapGranularity }
  else return .ok { port := 0 }

def Request.spec (req : Request) (size : Nat) (plan : Plan) (placed : List Replica)
    (drbd : DRBDSpec) : MiroirVolumeSpec where
  sizeBytes := size
  replicas := placed
  drbd := 1 < req.params.replicas
  source := plan.source
  quorumPolicy := if 1 < req.params.replicas then some req.params.quorum else none
  drbdSpec := drbd
  allowRemoteAccess := req.params.remoteAccess && !req.shared
  exportFs := if req.shared then some req.fsType else none

/-- The spec to create. -/
def allocate (cfg : Config) (req : Request) (size : Nat) (plan : Plan) :
    RpcM (Except Status MiroirVolumeSpec) := do
  match ← allocVolumes (plan.base.isNone || 1 < req.params.replicas) with
  | .error st => return .error st
  | .ok vols =>
    match ← placeVolume cfg req size plan vols with
    | .error st => return .error st
    | .ok placed =>
      match ← replication cfg req vols with
      | .error st => return .error st
      | .ok drbd => return .ok (req.spec size plan placed drbd)

/-- The critical section: the spec, and what the API server says to its create. -/
def allocateAndCreate (cfg : Config) (req : Request) (size : Nat) (plan : Plan) :
    RpcM (Except Status (MiroirVolumeSpec × Except ApiErr Unit)) := do
  call Cmd.lock
  match ← allocate cfg req size plan with
  | .error st =>
    call Cmd.unlock
    return .error st
  | .ok spec =>
    let created ← call (Cmd.createVolume req.name spec (spec.replicas.map Replica.node))
    call Cmd.unlock
    return .ok (spec, created)

/-! ## After the create -/

/-- The pool of a volume's first diskful leg. -/
def firstPool (spec : VolumeSpec) (fallback : String) : String :=
  (spec.diskfulReplicas.head?.map fun rep => poolOrDefault rep.pool).getD fallback

/-- The object is the one this request makes. -/
def sameRequest (req : Request) (size : Nat) (source : String) (existing : MiroirVolumeSpec) :
    Bool :=
  alignSector existing.sizeBytes = size &&
    existing.diskfulReplicas.length = req.params.replicas &&
    (!(1 < req.params.replicas) || existing.quorumPolicy = some req.params.quorum) &&
    sourceName existing.source = source && firstPool existing.toVolumeSpec req.params.pool =
      req.params.pool && existing.exportFs.isSome = req.shared

/-- The refusal of a name whose volume was made for another request. -/
def otherRequest (req : Request) (size : Nat) (source : String) (existing : MiroirVolumeSpec) :
    Status :=
  let quorum : QuorumPolicy → String
    | .freeze => "freeze"
    | .lastManStanding => "last-man-standing"
  ⟨.alreadyExists, "volume " ++ req.name ++ " exists with size=" ++ toString existing.sizeBytes ++
    " diskful=" ++ toString existing.diskfulReplicas.length ++ " quorum=" ++
    (existing.quorumPolicy.map quorum).getD "" ++ " source=" ++
    (sourceName existing.source).quote ++ " pool=" ++
    firstPool existing.toVolumeSpec req.params.pool ++ " rwx=" ++ toString existing.exportFs.isSome
    ++ " (requested size=" ++ toString size ++ " replicas=" ++ toString req.params.replicas ++
    " quorum=" ++ quorum req.params.quorum ++ " source=" ++ source.quote ++ " pool=" ++
    req.params.pool ++ " rwx=" ++ toString req.shared ++ ")"⟩

/-- The spec of the volume that is there after the create. -/
def handleCreateErr (req : Request) (size : Nat) (spec : MiroirVolumeSpec) :
    Except ApiErr Unit → RpcM (Except Status MiroirVolumeSpec)
  | .ok () => return .ok spec
  | .error .alreadyExists => do
    match ← call (Cmd.getVolume req.name) with
    | .error e => return .error ⟨.unavailable, "get existing MiroirVolume: " ++ e.text⟩
    | .ok ⟨_, existing, _, _, _⟩ =>
      let source := sourceName spec.source
      if !sameRequest req size source existing then
        return .error (otherRequest req size source existing)
      else if existing.sizeBytes < size then
        -- An object that predates the alignment of sizes.
        match ← call (Cmd.alignSize req.name size) with
        | .error e => return .error ⟨.unavailable,
            "align size of existing volume " ++ req.name ++ ": " ++ e.text⟩
        | .ok () => return .ok { existing with sizeBytes := size }
      else return .ok existing
  | .error e => return .error ⟨.internal, "create MiroirVolume: " ++ e.text⟩

/-- A clone carries the filesystem of its source. -/
def inheritFormatted (name : String) (formatted : Bool) : RpcM (Except Status Unit) := do
  if formatted then
    match ← call (Cmd.markFormatted name) with
    | .error e => return .error ⟨.unavailable,
        "record formatted flag on " ++ name ++ ": " ++ e.text⟩
    | .ok () => return .ok ()
  else return .ok ()

/-- `CreateVolume` up to its readiness wait, with the spec of the volume it waits for. -/
def provision (cfg : Config) (req : Request) (size : Nat) :
    RpcM (Except Status MiroirVolumeSpec) := do
  match ← resolve cfg req size with
  | .error st => return .error st
  | .ok plan =>
    match ← allocateAndCreate cfg req size plan with
    | .error st => return .error st
    | .ok (spec, created) =>
      match ← handleCreateErr req size spec created with
      | .error st => return .error st
      | .ok spec =>
        match ← inheritFormatted req.name plan.formatted with
        | .error st => return .error st
        | .ok () => return .ok spec

/-- What a create answers: the capacity and the nodes the volume is accessible from. -/
structure Created where
  capacityBytes : Nat
  accessible : List String
  deriving DecidableEq

/-- The nodes of `accessibleTopology`; none where the volume is not tied to any. -/
def accessibleTopology (spec : MiroirVolumeSpec) : List String :=
  if spec.exportFs.isSome || spec.allowRemoteAccess then []
  else spec.diskfulReplicas.map Replica.node

def createVolume (cfg : Config) (req : Request) : RpcM (Except Status Created) :=
  match req.validate cfg with
  | .error st => return .error st
  | .ok size => do
    match ← provision cfg req size with
    | .error st => return .error st
    | .ok spec =>
      match ← call (Cmd.waitReady req.name) with
      | .error st => return .error st
      | .ok () => return .ok ⟨size, accessibleTopology spec⟩

/-! ## Delete -/

def deleteCloneSnapshot (id : String) : RpcM (Except Status Unit) := do
  match ← call (Cmd.cachedSnapshot ("clone-" ++ id)) with
  | .error .notFound => return .ok ()
  | .error e => return .error ⟨.internal, "get clone-source MiroirSnapshot: " ++ e.text⟩
  | .ok ⟨_, cloneSource⟩ =>
    if cloneSource then
      match ← call (Cmd.deleteSnapshot ("clone-" ++ id)) with
      | .ok () | .error .notFound => return .ok ()
      | .error e => return .error ⟨.internal, "delete clone-source MiroirSnapshot: " ++ e.text⟩
    else return .ok ()

def deleteVolume (id : String) : RpcM (Except Status Unit) := do
  if id = "" then return .error ⟨.invalidArgument, "volume id is required"⟩
  else
    match ← call (Cmd.deleteVolume id) with
    | .ok () | .error .notFound => deleteCloneSnapshot id
    | .error e => return .error ⟨.internal, "delete MiroirVolume: " ++ e.text⟩

/-! ## RPCs -/

/-- An RPC of the provisioner. -/
inductive Rpc where
  | create (req : Request)
  | delete (id : String)

/-- What an RPC answers. -/
inductive Response where
  | created (res : Except Status Created)
  | deleted (res : Except Status Unit)

def Rpc.program (cfg : Config) : Rpc → RpcM Response
  | .create req => do return .created (← createVolume cfg req)
  | .delete id => do return .deleted (← deleteVolume id)

end Miroir.Prov
