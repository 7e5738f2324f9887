import Miroir.Controller.Object

/-!
# The controllers that edit the legs of a volume

Membership completes entries, the tie-breaker controller retrofits a diskless leg, auto-diskful
turns a long-lived diskless leg into a replica, auto-evict replaces the leg of a node whose
heartbeat went silent, and the CSI node service adds and removes client legs. Operators append bare
entries and remove entries; the API server refuses what the rules of the CRD do not admit.

Each controller is a function from the object it has read to the object it writes; `edit` is any
of them.
-/

namespace Miroir

/-- The kinds of leg. -/
inductive LegKind where
  | client | tieBreaker | replica
  deriving DecidableEq, Repr

/-- All legs as replicas, which is how spare nodes are picked beside client legs. -/
def legsAsReplicas (spec : VolumeSpec) : List Replica :=
  spec.replicas ++ spec.clients.map fun cl => { node := cl.node, nodeID := 0 }

/-! ## Membership -/

/-- Every placed node holds its teardown finalizer. -/
def addFinalizers (spec : VolumeSpec) (finalizers : List String) : List String :=
  (spec.replicas.map Replica.node ++ spec.clients.map VolumeClient.node).foldl
    (fun fs node => if node ∈ fs then fs else fs ++ [node]) finalizers

namespace Membership

def reconcile (nodes : NodeMap) (ips : InternalIPs) (vol : MiroirVolume) : MiroirVolume :=
  if vol.deleting || !vol.spec.drbd then vol
  else
    match reconcileMembership nodes ips vol.spec.toVolumeSpec with
    | .error _ => vol
    | .ok spec =>
      { vol.withLegs spec.replicas spec.clients with
        finalizers := addFinalizers spec vol.finalizers }

end Membership

/-! ## The tie-breaker -/

namespace TieBreaker

def reconcile (nodes : NodeMap) (vol : MiroirVolume) : MiroirVolume :=
  if vol.deleting || !vol.spec.drbd || vol.spec.quorumPolicy ≠ some .freeze then vol
  else if vol.spec.replicas.length ≠ 2 || vol.spec.diskfulReplicas.length ≠ 2 then vol
  else if vol.spec.replicas.any fun rep => rep.address = "" then vol
  -- A removed leg's teardown is still in flight.
  else if vol.finalizers.any fun node => !hasLegOn vol.spec.toVolumeSpec node then vol
  else
    let tb := nodes.tieBreakerNode (legsAsReplicas vol.spec.toVolumeSpec)
    if tb = "" then vol
    else vol.withLegs (vol.spec.replicas ++ [{ node := tb, nodeID := 0, diskless := true }])
      vol.spec.clients

end TieBreaker

/-! ## Auto-diskful -/

def statsStaleAfter : Nat := 300 * second

/-- Why the node's pool cannot take a full-size sync. -/
def poolRoom (now : Nat) (mn : Option MiroirNode) (pool : String) (sizeBytes : Nat) :
    Option String :=
  match mn with
  | none => some "no pool stats"
  | some mn =>
    if mn.observedAt.all (olderThan now statsStaleAfter) then some "pool stats are stale"
    else
      match mn.pool pool with
      | none => some ("no stats for pool " ++ pool)
      | some st =>
        if st.capacityBytes - st.allocatedBytes < sizeBytes then
          some ("insufficient free space in pool " ++ pool)
        else none

namespace AutoDiskful

/-- A leg to convert once it has aged. -/
structure Candidate where
  node : String
  kind : LegKind
  since : Stamp
  apply : VolumeSpec → VolumeSpec

def clientCandidate (nodes : NodeMap) (pool : String) (cl : VolumeClient) : Option Candidate :=
  if (nodes.pool cl.node pool).isNone || cl.address = "" then none
  else cl.addedAt.map fun t => ⟨cl.node, .client, t, fun spec => convertClient spec cl pool⟩

def tieBreakerCandidate (nodes : NodeMap) (pool : String) (status : VolumeStatus)
    (rep : Replica) : Option Candidate :=
  if !rep.diskless || (nodes.pool rep.node pool).isNone then none
  else (status.perNode rep.node).primarySince.map fun t => ⟨rep.node, .tieBreaker, t, fun spec =>
    { spec with replicas := convertTieBreaker spec.replicas rep.node pool }⟩

/-- The legs that may become diskful: clients, then tie-breakers. -/
def candidates (vol : MiroirVolume) (nodes : NodeMap) : List Candidate :=
  let pool := volumePool vol.spec.toVolumeSpec
  vol.spec.clients.filterMap (clientCandidate nodes pool) ++
    vol.spec.replicas.filterMap (tieBreakerCandidate nodes pool vol.status)

/-- Why the leg on the node may not convert, and whether that may pass. -/
def conversionBlocked (now : Nat) (vol : MiroirVolume) (mn : Option MiroirNode) (node : String) :
    Option (String × Bool) :=
  if vol.status.phase ≠ .ready then some ("volume is not Ready", true)
  else if 3 ≤ vol.spec.diskfulReplicas.length then
    some ("volume already has 3 diskful replicas", false)
  else if incompleteChange vol.spec.toVolumeSpec then
    some ("a membership change is already in flight", true)
  else
    (poolRoom now mn (volumePool vol.spec.toVolumeSpec) vol.spec.sizeBytes).map fun reason =>
      (reason ++ " on " ++ node, true)

/-- The loop over the candidates: the first that has aged is converted, unless it is blocked. -/
def convertFirst (now after : Nat) (items : List MiroirNode) (vol : MiroirVolume) :
    List Candidate → MiroirVolume
  | [] => vol
  | c :: cs =>
    if !reached now after c.since then convertFirst now after items vol cs
    else if (conversionBlocked now vol (items.find? fun mn => mn.name = c.node) c.node).isSome then
      vol
    else
      let spec := c.apply vol.spec.toVolumeSpec
      vol.withLegs spec.replicas spec.clients

def reconcile (now after : Nat) (items : List MiroirNode) (nodes : NodeMap) (vol : MiroirVolume) :
    MiroirVolume :=
  if vol.deleting || !vol.spec.drbd then vol
  else convertFirst now after items vol (candidates vol nodes)

end AutoDiskful

/-! ## Auto-evict -/

namespace AutoEvict

/-- What one pass has gathered. -/
structure EvictPass where
  /-- The volumes some snapshot references. -/
  pinned : List String
  nodes : List MiroirNode
  topology : NodeMap

/-- What came of an eviction. -/
inductive EvictOutcome where
  | evicted | blocked | peerConnected
  deriving DecidableEq, Repr

/-- The nodes that look dead; one that opted out is expected to go dark. -/
def staleNodes (now after : Nat) (topology : NodeMap) (items : List MiroirNode) : List String :=
  (items.filter fun mn => topology.autoEvictAllowed mn.name && silent now after mn).map
    MiroirNode.name

/-- The gates before any volume is looked at; `ready` is the kubelet's own heartbeat. -/
def due (now after : Nat) (topology : NodeMap) (items : List MiroirNode) (ready : Bool)
    (name : String) : Bool :=
  topology.autoEvictAllowed name &&
    (items.find? fun mn => mn.name = name).any (silent now after) && !ready &&
    (staleNodes now after topology items).length ≤ 1

/-- The dead leg holds data. -/
def deadDiskful (spec : VolumeSpec) (dead : String) : Bool :=
  (spec.replicas.find? fun rep => rep.node = dead).any fun rep => !rep.diskless

/-- What one surviving replica has against the eviction. -/
def survivorBlocks (vol : MiroirVolume) (dead : String) (rep : Replica) :
    Option (String × EvictOutcome) :=
  let st := vol.status.perNode rep.node
  if rep.node = dead || rep.diskless then none
  else if st.diskState ≠ some .upToDate || st.splitBrain then
    some ("replica on " ++ rep.node ++ " is not UpToDate", .blocked)
  else if deadDiskful vol.spec.toVolumeSpec dead && st.connected then
    some ("survivor " ++ rep.node ++ " still sees the node's DRBD links up", .peerConnected)
  else none

/-- Why the dead node's leg stays. -/
def evictBlocked (vol : MiroirVolume) (dead : String) (pass : EvictPass) :
    Option (String × EvictOutcome) :=
  if vol.deleting then some ("volume is being deleted", .blocked)
  else if !vol.spec.drbd then some ("volume is unreplicated", .blocked)
  else if incompleteChange vol.spec.toVolumeSpec then
    some ("a membership change is already in flight", .blocked)
  else
    match vol.spec.replicas.findSome? (survivorBlocks vol dead) with
    | some reason => some reason
    | none =>
      if deadDiskful vol.spec.toVolumeSpec dead && decide (vol.name ∈ pass.pinned) then
        some ("snapshots pin the volume's replicas", .blocked)
      else none

/-- The node has the pool, with fresh stats and room. -/
def fits (now : Nat) (pass : EvictPass) (spec : VolumeSpec) (node : String) : Bool :=
  (pass.topology.pool node (volumePool spec)).isSome &&
    (poolRoom now (pass.nodes.find? fun mn => mn.name = node) (volumePool spec)
      spec.sizeBytes).isNone

/-- The node for a re-placed diskful leg; the dead node's zone is free again. -/
def replacementNode (nodes : NodeMap) (spec : VolumeSpec) (dead : String)
    (fits : String → Bool) : String :=
  let alive := spec.replicas.filter fun rep => rep.node ≠ dead
  nodes.pickSpare (spec.replicas.map Replica.node ++ spec.clients.map VolumeClient.node)
    ((alive.map fun rep => nodes.zone rep.node).filter (· ≠ "")) fits

/-- The replacement of the dead leg, without one where no node qualifies. -/
def plan (now : Nat) (pass : EvictPass) (spec : VolumeSpec) (dead : String) :
    LegKind × Option VolumeSpec :=
  match spec.replicas.find? fun rep => rep.node = dead with
  | none =>
    (.client, some { spec with clients := spec.clients.filter fun cl => cl.node ≠ dead })
  | some rep =>
    if rep.diskless then
      let tb := pass.topology.tieBreakerNode (legsAsReplicas spec)
      (.tieBreaker, if tb = "" then none else some { spec with
        replicas := swapReplica spec.replicas dead { node := tb, nodeID := 0, diskless := true } })
    else
      let repl := replacementNode pass.topology spec dead (fits now pass spec)
      if repl ≠ "" then
        (.replica, some { spec with
          replicas := swapReplica spec.replicas dead { node := repl, nodeID := 0 } })
      else
        -- Without a spare node a live tie-breaker is flipped diskful.
        (.replica, (spec.replicas.find? fun tb =>
            tb.diskless && tb.node ≠ dead && fits now pass spec tb.node).map fun tb =>
          { spec with
            replicas := (convertTieBreaker spec.replicas tb.node (volumePool spec)).filter
              fun rep => rep.node ≠ dead })

/-- One volume's eviction. The dead node's finalizer stays. -/
def evictVolume (now : Nat) (pass : EvictPass) (vol : MiroirVolume) (dead : String) :
    EvictOutcome × MiroirVolume :=
  match evictBlocked vol dead pass with
  | some (_, outcome) => (outcome, vol)
  | none =>
    match (plan now pass vol.spec.toVolumeSpec dead).2 with
    | none => (.blocked, vol)
    | some spec => (.evicted, vol.withLegs spec.replicas spec.clients)

/-- What a pass over the node `dead` makes of one volume. -/
def reconcile (now after : Nat) (items : List MiroirNode) (topology : NodeMap) (ready : Bool)
    (pinned : List String) (dead : String) (vol : MiroirVolume) : MiroirVolume :=
  if due now after topology items ready dead && hasLegOn vol.spec.toVolumeSpec dead then
    (evictVolume now ⟨pinned, items, topology⟩ vol dead).2
  else vol

end AutoEvict

/-! ## Client legs -/

/-- Staging on a node without a replica adds a client leg; `clientOnly` marks a node outside the
topology. -/
def addClientLeg (now : Nat) (clientOnly : Bool) (node : String) (vol : MiroirVolume) :
    MiroirVolume :=
  if vol.spec.exportFs.isSome || vol.spec.replicas.any (fun rep => rep.node = node) ||
      !vol.spec.allowRemoteAccess || clientOnly || (vol.spec.clientForNode node).isSome then vol
  else if !vol.spec.drbd || 2 ≤ vol.spec.clients.length then vol
  else vol.withLegs vol.spec.replicas
    (vol.spec.clients ++ [{ node := node, nodeID := 0, addedAt := some (stampOf now) }])

/-- The volume without the node's client leg. -/
def removeClientLeg (node : String) (vol : MiroirVolume) : MiroirVolume :=
  vol.withLegs vol.spec.replicas (vol.spec.clients.eraseP fun cl => cl.node = node)

/-! ## Edits -/

/-- The API server takes the edit if the rules of the CRD admit it. -/
def submit (vol : MiroirVolume) (replicas : List Replica) : MiroirVolume :=
  let new := vol.withLegs replicas vol.spec.clients
  if new.spec.admitted && new.spec.follows vol.spec then new else vol

/-- An edit of a volume's replicas by the controller. -/
inductive Edit where
  | membership (items : List MiroirNode) (ips : InternalIPs)
  | tieBreaker (items : List MiroirNode)
  | autoDiskful (items : List MiroirNode) (now after : Nat)
  | autoEvict (dead : String) (items : List MiroirNode) (ready : Bool) (pinned : List String)
      (now after : Nat)
  | addClientLeg (node : String) (clientOnly : Bool) (now : Nat)
  | removeClientLeg (node : String)
  /-- An operator appends a bare entry. -/
  | addReplica (node pool : String) (diskless : Bool)
  /-- An operator removes an entry. -/
  | removeReplica (node : String)
  /-- The agents report. -/
  | report (status : VolumeStatus)
  /-- An agent drops its finalizer. -/
  | release (node : String)
  | delete

instance inhabitedEdit : Inhabited Edit := ⟨.delete⟩

/-- What an edit makes of the object it was computed on. -/
def edit (conflictKey : String → String) (vol : MiroirVolume) : Edit → MiroirVolume
  | .membership items ips => Membership.reconcile (fromNodes conflictKey items) ips vol
  | .tieBreaker items => TieBreaker.reconcile (fromNodes conflictKey items) vol
  | .autoDiskful items now after =>
    AutoDiskful.reconcile now after items (fromNodes conflictKey items) vol
  | .autoEvict dead items ready pinned now after =>
    AutoEvict.reconcile now after items (fromNodes conflictKey items) ready pinned dead vol
  | .addClientLeg node clientOnly now => Miroir.addClientLeg now clientOnly node vol
  | .removeClientLeg node => Miroir.removeClientLeg node vol
  | .addReplica node pool diskless =>
    submit vol (vol.spec.replicas ++
      [{ node := node, pool := pool, nodeID := 0, diskless := diskless }])
  | .removeReplica node => submit vol (vol.spec.replicas.filter fun rep => rep.node ≠ node)
  | .report status => { vol with status := status }
  | .release node => { vol with finalizers := vol.finalizers.erase node }
  | .delete => { vol with deleting := true }

end Miroir
