import Miroir.Agent.Round
import Mathlib.Data.List.Sort

/-!
# The storage topology

The node map the controllers place with, folded from the `MiroirNode` objects, and the one policy
by which a spare node is picked.
-/

namespace Miroir

/-- A pool's backend. -/
inductive BackendType where
  | lvmthin | zfs | loopfile
  deriving DecidableEq, Repr

/-- What of a node's pool the controllers and the agents' backends read. -/
structure Pool where
  backend : BackendType
  /-- Block size in bytes of new zvols; `ZFSVolBlockSizeBytes` with its default. -/
  zfsVolBlockSize : Nat := 4096
  deriving DecidableEq, Repr

/-- An entry of the node map. -/
structure StorageNode where
  zone : String := ""
  /-- The replication endpoint, if the operator has pinned one. -/
  address : String := ""
  /-- Another node has the same endpoint. -/
  addressConflict : Bool := false
  /-- Explicitly false exempts the node from auto-evict. -/
  autoEvict : Option Bool := none
  pools : AList (fun _ : String => Pool) := ∅
  deriving DecidableEq

abbrev NodeMap := AList fun _ : String => StorageNode

namespace NodeMap

def pool (m : NodeMap) (node pool : String) : Option Pool :=
  (m.lookup node).bind fun n => n.pools.lookup (poolOrDefault pool)

def zone (m : NodeMap) (node : String) : String :=
  ((m.lookup node).map StorageNode.zone).getD ""

def placeable (m : NodeMap) (node : String) : Bool :=
  (m.lookup node).any fun n => !n.addressConflict

def autoEvictAllowed (m : NodeMap) (node : String) : Bool :=
  (m.lookup node).any fun n => n.autoEvict.getD true

/-- The lowest-named spare node, one in an unused zone before any other; empty without one. -/
def pickSpare (m : NodeMap) (usedNodes usedZones : List String) (keep : String → Bool) : String :=
  let spare := (m.keys.filter fun n => n ∉ usedNodes && m.placeable n && keep n).insertionSort
    (· ≤ ·)
  ((spare.find? fun n => m.zone n = "" || m.zone n ∉ usedZones).orElse fun _ =>
    spare.head?).getD ""

/-- The node for a diskless tie-breaker; empty if there is none. -/
def tieBreakerNode (m : NodeMap) (replicas : List Replica) : String :=
  m.pickSpare (replicas.map Replica.node)
    ((replicas.map fun rep => m.zone rep.node).filter (· ≠ "")) fun _ => true

end NodeMap

/-- Why a replication address was not resolved. -/
inductive AddressErr where
  | conflict (node address : String)
  | getNode (node : String)
  | noInternalIP (node : String)
  deriving DecidableEq, Repr

/-- What `Error` prints. -/
def AddressErr.text : AddressErr → String
  | .conflict node address =>
    "replication address conflict: node " ++ node ++ " shares its replication address " ++ address
      ++ " with another MiroirNode; resolve the conflict first"
  | .getNode node => "get node " ++ node
  | .noInternalIP node => "node " ++ node ++ " has no InternalIP"

/-- An address is not empty: an empty one marks a leg that waits for membership. -/
abbrev Address := { address : String // address ≠ "" }

/-- The Node objects: the InternalIP of a node, if it can be read and has one. -/
abbrev InternalIPs := String → Except AddressErr Address

def NodeMap.replicationAddress (m : NodeMap) (ips : InternalIPs) (name : String) :
    Except AddressErr Address :=
  match m.lookup name with
  | none => ips name
  | some n =>
    if n.addressConflict then .error (.conflict name n.address)
    else if h : n.address = "" then ips name
    else .ok ⟨n.address, h⟩

end Miroir
