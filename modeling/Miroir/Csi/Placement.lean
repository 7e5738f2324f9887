import Miroir.Controller.Edits
import Miroir.Controller.Restore
import Miroir.Data.Selection
import Mathlib.Algebra.Order.Ring.Int

/-!
# Placing legs in storage pools

Where the CSI controller puts the diskful legs of a new volume, and what capacity it advertises.
Both read the same figures: what a pool may still admit is its overcommit allowance less what is
provisioned on it, bounded by its physical room (`poolHeadroom`). `place` pins the node the
scheduler has selected, ranks the other nodes with room by theirs, and spreads over zones;
`getCapacity` answers for one topology segment with an order statistic of the rooms.
-/

namespace Miroir

open Data

/-! ## The figures -/

/-- An admission ratio. -/
structure Ratio where
  /-- `int64(float64(n) * ratio)`. -/
  scale : Int → Int
  /-- How a message shows it. -/
  text : String

/-- What a placement reads. -/
structure Pools where
  nodes : NodeMap
  ips : InternalIPs
  /-- The nodes with fresh figures, as `poolStats` collects them. -/
  stats : AList fun _ : String => MiroirNode
  vols : List MiroirVolume
  overcommit : Ratio
  freeSpace : Ratio

/-- The figures that are fresh. -/
def poolStats (now : Nat) (items : List MiroirNode) : AList fun _ : String => MiroirNode :=
  items.foldl (fun m mn =>
    if mn.observedAt.all (olderThan now statsStaleAfter) then m else m.insert mn.name mn) ∅

/-- The bytes a spec provisions in a pool of a node. -/
def VolumeSpec.bytesOn (spec : VolumeSpec) (node pool : String) : Nat :=
  (spec.replicas.map fun rep =>
    if !rep.diskless && rep.node = node && poolOrDefault rep.pool = pool then spec.sizeBytes
    else 0).sum

/-- The bytes provisioned in a pool of a node, the excluded volume's apart; the source adds them up
in an `int64`, here the sum is not bounded. -/
def provisionedPerPool (vols : List MiroirVolume) (exclude node pool : String) : Nat :=
  ((vols.filter fun v => v.name ≠ exclude).map fun v => v.spec.bytesOn node pool).sum

namespace Pools

variable (p : Pools)

/-- The largest volume a pool can still admit; none where its figures are not known. -/
def poolHeadroom (st : Option PoolStats) (provisioned : Nat) : Option Int :=
  (st.filter fun st => 0 < st.capacityBytes).map fun st =>
    max 0 (min (p.overcommit.scale st.capacityBytes - provisioned)
      (p.freeSpace.scale (max 0 (st.capacityBytes - st.allocatedBytes))))

/-- `stats[node].Pool(pool)`. -/
def figures (node pool : String) : Option PoolStats :=
  (p.stats.lookup node).bind fun mn => mn.pool pool

/-- The room of a node's pool beside the volumes but the excluded one. -/
def room (exclude node pool : String) : Option Int :=
  p.poolHeadroom (p.figures node pool) (provisionedPerPool p.vols exclude node pool)

/-! ## Placing -/

/-- The node may hold a leg in the pool. -/
def carries (node pool : String) : Bool :=
  (p.nodes.pool node pool).isSome && p.nodes.placeable node

def candidates (pool : String) (excluded : List String) : List String :=
  p.nodes.keys.filter fun n => n ∉ excluded && p.carries n pool

/-- How many nodes with the pool are left out for their address. -/
def conflicted (pool : String) (excluded : List String) : Nat :=
  p.nodes.keys.countP fun n => n ∉ excluded && (p.nodes.pool n pool).isSome && !p.nodes.placeable n

/-- The node the requirement pins, empty if none is, and whether the requirement is met. -/
def topologyPick (req : CreateRequest) (candidates excluded : List String) : String × Bool :=
  match (req.preferred ++ req.requisite).find? fun n =>
    n ≠ "" && (n ∈ excluded || n ∈ candidates) with
  | some n => if n ∈ excluded then ("", true) else (n, true)
  | none => ("", false)

def overcommitted (req : CreateRequest) (node : String) : Bool :=
  (p.room req.name node req.pool).any fun room : Int => room < req.sizeBytes

def headroom (req : CreateRequest) (node : String) : Int :=
  (p.room req.name node req.pool).getD 0

def physicalFree (req : CreateRequest) (node : String) : Int :=
  ((p.figures node req.pool).map fun st => max 0 (st.capacityBytes - st.allocatedBytes)).getD 0

/-- The order of the candidates: headroom, physical room, what is provisioned, name. -/
def ranked (req : CreateRequest) (a b : String) : Bool :=
  let provisioned := fun n => provisionedPerPool p.vols req.name n req.pool
  if p.headroom req a ≠ p.headroom req b then p.headroom req b < p.headroom req a
  else if p.physicalFree req a ≠ p.physicalFree req b then
    p.physicalFree req b < p.physicalFree req a
  else if provisioned a ≠ provisioned b then provisioned a < provisioned b
  else a ≤ b

/-- The first `pinned` nodes, then nodes in zones that nothing picked is in, then the others. -/
def spreadByZone (ordered : List String) (pinned count : Nat) (zoneOf : String → String) :
    List String :=
  let picked := fill count (fun _ _ => true) [] (ordered.take pinned)
  let picked :=
    fill count (fun picked n => zoneOf n = "" || picked.all fun m => zoneOf m ≠ zoneOf n)
    picked (ordered.drop pinned)
  fill count (fun picked n => n ∉ picked) picked (ordered.drop pinned)

/-- The candidates but the pinned one that have room, best first. -/
def rest (req : CreateRequest) (excluded : List String) (pin : String) : List String :=
  ((p.candidates req.pool excluded).filter fun n => n ≠ pin && !p.overcommitted req n).insertionSort
    fun a b => p.ranked req a b = true

/-- The pinned node ahead of the others. -/
def ordered (req : CreateRequest) (excluded : List String) (pin : String) : List String :=
  (if pin = "" then [] else [pin]) ++ p.rest req excluded pin

/-- How a refusal names the ratios. -/
def ratiosText : String :=
  "(capacity×" ++ p.overcommit.text ++ " overcommit, free×" ++ p.freeSpace.text ++ " free-space)"

def tooFewNodes (req : CreateRequest) (count : Nat) (excluded : List String) : Status :=
  let found := (p.candidates req.pool excluded).length
  let lost := p.conflicted req.pool excluded
  let needs := "a " ++ toString count ++ "-replica class needs " ++ toString count
  if 0 < lost then
    ⟨.resourceExhausted, "storage pool " ++ req.pool.quote ++ " exists on " ++
      toString (found + lost) ++ " of " ++ toString p.nodes.keys.length ++ " storage nodes, but " ++
      toString lost ++ " carrying it are excluded by a replication address conflict; " ++ needs ++
      " (kubectl get miroirnodes; see the AddressConflict condition)"⟩
  else
    ⟨.resourceExhausted, "storage pool " ++ req.pool.quote ++ " exists on " ++ toString found ++
      " of " ++ toString p.nodes.keys.length ++ " storage nodes; " ++ needs ++
      " (Helm values: nodes.<name>.spec.pools)"⟩

def offTopology (req : CreateRequest) : Status :=
  ⟨.resourceExhausted, "no node carrying storage pool " ++ req.pool.quote ++
    " satisfies the requested topology"⟩

def tooLittleRoom (req : CreateRequest) (excluded : List String) (found : Nat) : Status :=
  ⟨.resourceExhausted, "only " ++ toString found ++ " of the " ++
    toString (p.candidates req.pool excluded).length ++ " nodes carrying pool " ++ req.pool.quote ++
    " can host a " ++ toString req.sizeBytes ++ "-byte volume within its capacity guardrails " ++
    p.ratiosText⟩

def noRoomOn (req : CreateRequest) (node : String) : Status :=
  ⟨.resourceExhausted, "pool " ++ req.pool.quote ++ " on node " ++ node ++ " has room for " ++
    toString (p.headroom req node) ++ " of the requested " ++ toString req.sizeBytes ++ " bytes " ++
    p.ratiosText⟩

def replicationAddress (node : String) : Except Status Address :=
  (p.nodes.replicationAddress p.ips node).mapError fun err => ⟨.internal, err.text⟩

/-- The leg on the `i`-th node of a placement. -/
def leg (req : CreateRequest) (count : Nat) (n : String × Nat) : Except Status PlacedLeg :=
  if 1 < count then do
    let address ← p.replicationAddress n.1
    return { node := n.1, pool := req.pool, nodeID := n.2, address := address.1 }
  else return { node := n.1, pool := req.pool }

/-- The nodes chosen from those in order, if each of them has room. -/
def choose (req : CreateRequest) (count : Nat) (excluded : List String) (pin : String) :
    Except Status (List String) :=
  let ordered := p.ordered req excluded pin
  if ordered.length < count then .error (p.tooLittleRoom req excluded ordered.length)
  else
    let chosen := spreadByZone ordered (if pin = "" then 0 else 1) count p.nodes.zone
    match chosen.find? (p.overcommitted req) with
    | some n => .error (p.noRoomOn req n)
    | none => .ok chosen

/-- `place`: legs on `count` nodes that carry the pool, none of them excluded. -/
def place (req : CreateRequest) (count : Nat) (excluded : List String) :
    Except Status (List PlacedLeg) :=
  let candidates := p.candidates req.pool excluded
  let (pin, matched) := topologyPick req candidates excluded
  if candidates.length < count then .error (p.tooFewNodes req count excluded)
  else if !req.requisite.isEmpty && !matched && !req.remoteAccess then .error (offTopology req)
  else do
    let chosen ← p.choose req count excluded pin
    chosen.zipIdx.mapM (p.leg req count)

/-- The controller that places with these figures. -/
def controller (autoTieBreaker : Bool) : Controller where
  nodes := p.nodes
  ips := p.ips
  autoTieBreaker := autoTieBreaker
  place := p.place

/-! ## Advertising -/

/-- The room a node contributes to the advertised capacity. -/
def available (pool node : String) : Int :=
  if p.carries node pool then (p.room "" node pool).getD 0 else 0

/-- The rooms of the nodes but the pinned one, largest first. -/
def peers (pool pinned : String) : List Int :=
  ((p.nodes.keys.filter (· ≠ pinned)).map (p.available pool)).insertionSort (· ≥ ·)

/-- The legs to be placed beside the pinned node. -/
def need (replicas : Nat) (pinned : String) : Nat := if pinned = "" then replicas else replicas - 1

/-- The largest volume of a class that can be placed, with a leg on the pinned node unless that is
empty. -/
def capacityFor (replicas : Nat) (pool pinned : String) : Int :=
  -- No bound yet is -1.
  let bound : Int := if pinned = "" then -1 else p.available pool pinned
  if need replicas pinned = 0 then bound
  else
    match (p.peers pool pinned)[need replicas pinned - 1]? with
    | none => 0
    | some peer => if bound < 0 || peer < bound then peer else bound

/-- `GetCapacity` for a class and, if there is one, a topology segment. -/
def getCapacity (replicas : Nat) (remoteAccess : Bool) (pool : String) : Option String → Int
  | none => p.capacityFor replicas pool ""
  | some node =>
    if p.carries node pool then p.capacityFor replicas pool node
    else if remoteAccess then p.capacityFor replicas pool ""
    else 0

end Pools

end Miroir
