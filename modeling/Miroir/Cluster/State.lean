import Miroir.Agent.GroupSnapshot
import Miroir.Agent.Sweep
import Miroir.Process.Run

/-!
# The cluster

The state the agents share: the API server with every version it has held, each node's
informer caches lagging somewhere in those versions, the kernel's suspend flag and DRBD role
per node and volume, the backend snapshots, the passes under way and the writes still in
flight. A node runs one snapshot pass, one group pass and one sweep at a time; these
interleave freely with each other and with every other node's.

`step` is one action. A pass takes a step when its pending command is answered; the action
carries what the surroundings chose: whether the command failed, whether a failed command
took effect nevertheless, which version a cached read was served from, what DRBD reports about
its peers. A write whose answer is an error may have landed, may be lost, or may land at any
later moment. Passes crash between any two commands.
-/

namespace Miroir

open Process

/-- What does not change: the specs of all objects, and each node's pools, freezer and DRBD
resources. -/
structure Config where
  spec : String → Option VolumeSpec
  volumeOf : String → String
  groupOf : String → String
  namesOf : String → List String
  pools : String → List String
  freezer : String → Bool
  resources : String → List String

def Config.agent (Γ : Config) (n : String) : Agent := ⟨n, Γ.pools n, Γ.freezer n⟩

/-- The nodes with a diskful leg of snapshot `x`'s volume. -/
def Config.diskful (Γ : Config) (x : String) : List String :=
  ((Γ.spec (Γ.volumeOf x)).map VolumeSpec.diskfulNodes).getD []

/-- The workers of one agent. -/
inductive Task where
  | snapshot | group | sweep
  deriving DecidableEq, Repr

/-- One reconciler on one node. -/
structure Worker where
  node : String
  task : Task
  deriving DecidableEq, Repr

/-- A pass under way: the object it reconciles, its log, and what is left to run. -/
structure Pass where
  job : String
  log : PassLog
  prog : AgentM Result

/-- A write with the pass that issued it. -/
structure Request where
  worker : Worker
  job : String
  write : Write
  log : PassLog

/-- The kernel's view of one resource on one node. -/
structure Kernel where
  suspended : Bool := false
  primary : Bool := false
  deriving DecidableEq, Repr

/-- A backend snapshot, by node, pool and snapshot name. -/
structure LegKey where
  node : String
  pool : String
  snap : String
  deriving DecidableEq, Repr

/-- The leg of snapshot `x` on node `n`. -/
def Config.leg (Γ : Config) (x n : String) : LegKey :=
  ⟨n, ((Γ.spec (Γ.volumeOf x)).map fun s => s.legPool n).getD "", x⟩

/-- One cut of a leg: when it was last deleted before, when it was cut, and the round the
cutting pass had read. -/
structure Cut where
  deletedAt : Option Nat
  cutAt : Nat
  round : Option Round
  deriving DecidableEq, Repr

/-- A leg: whether the backend holds it, its last deletion, and its cuts, newest first. -/
structure Leg where
  present : Bool := false
  deletedAt : Option Nat := none
  cuts : List Cut := []
  deriving DecidableEq, Repr

/-- The API server, the nodes, and the passes under way. -/
structure State where
  tick : Nat
  clock : Nat
  api : Api
  /-- Every version the API server has held, oldest first. -/
  versions : List Api
  snapCache : String → Nat
  groupCache : String → Nat
  pass : Worker → Option Pass
  inflight : List Request
  kernel : String → String → Kernel
  legs : LegKey → Leg
  fails : Worker → String → Nat

/-! ## Writes -/

/-- The stamp of the live round a snapshot view shows. -/
def SnapshotStatus.liveStamp (st : SnapshotStatus) : Option Stamp :=
  if st.ioSuspended then st.suspendedAt else none

/-- The live round a group view shows. -/
def GroupStatus.liveRound (st : GroupStatus) : Option Round :=
  if st.ioSuspended then st.round else none

/-- Keys a server-side apply removes: those its field owner set before and leaves out now. -/
structure Pruned where
  nodes : List String := []
  slots : List SlotKey := []
  deriving DecidableEq, Repr

/-- The slots after an apply: what it states, and of the rest what it does not prune. -/
def applySlots {κ : Type} [DecidableEq κ] {β : κ → Type} (old stated : AList β)
    (pruned : List κ) : AList β :=
  stated ∪ pruned.foldl (fun m k => m.erase k) old

/-- A snapshot status after a forced apply from a pass that had read the live stamp `seen`. -/
def SnapshotStatus.apply (st : SnapshotStatus) (c : SnapshotApply) (pruned : List String)
    (opener : String) (tick : Nat) (seen : Option Stamp) : SnapshotStatus where
  readyToUse := c.readyToUse
  ioSuspended := c.ioSuspended
  perNode := applySlots st.perNode c.perNode pruned
  sizeBytes := c.sizeBytes.getD st.sizeBytes
  sourceFormatted := c.sourceFormatted.getD st.sourceFormatted
  suspendedAt := c.suspendedAt.or st.suspendedAt
  round := if c.ioSuspended then some ⟨opener, tick⟩ else c.round
  observed := c.perNode.keys.foldl (fun m k => m.insert k seen) st.observed

/-- A snapshot status after a JSON patch of one slot, unless a `test` fails. -/
def SnapshotStatus.patchSlot (st : SnapshotStatus) (node : String) (stamp : Stamp)
    (state : SnapshotNodeState) (seen : Option Stamp) : Option SnapshotStatus :=
  if st.ioSuspended ∧ st.suspendedAt = some stamp then
    some { st with perNode := st.perNode.insert node state,
                   observed := st.observed.insert node seen }
  else none

/-- A group status after a forced apply from a pass that had read the live round `seen`. -/
def GroupStatus.apply (st : GroupStatus) (c : GroupApply) (pruned : List SlotKey)
    (opener : String) (tick : Nat) (seen : Option Round) : GroupStatus where
  readyToUse := c.readyToUse
  ioSuspended := c.ioSuspended
  perLeg := applySlots st.perLeg c.perLeg pruned
  suspendedAt := c.suspendedAt.or st.suspendedAt
  round := if c.ioSuspended then some ⟨opener, tick⟩ else c.round
  observed := c.perLeg.keys.foldl (fun m k => m.insert k seen) st.observed

/-- A group status after a merge patch of some slots. -/
def GroupStatus.mergeSlots (st : GroupStatus) (slots : List (SlotKey × SnapshotNodeState))
    (seen : Option Round) : GroupStatus :=
  { st with
    perLeg := slots.foldl (fun m e => m.insert e.1 e.2) st.perLeg
    observed := slots.foldl (fun m e => m.insert e.1 seen) st.observed }

/-- Replace a snapshot's status. -/
def Api.setStatus (a : Api) (x : String) (w : Snapshot) (st : SnapshotStatus) : Api :=
  { a with snaps := a.snaps.insert x { w with status := st } }

/-- Replace a group's status. -/
def Api.setGroupStatus (a : Api) (g : String) (w : SnapshotGroup) (st : GroupStatus) : Api :=
  { a with groups := a.groups.insert g { w with status := st } }

/-- Drop finalizers from a snapshot; without any left, a deleted one is gone. -/
def Api.setFinalizers (a : Api) (x : String) (w : Snapshot) (fs : List String) : Api :=
  if w.deleting && fs.isEmpty then { a with snaps := a.snaps.erase x }
  else { a with snaps := a.snaps.insert x { w with finalizers := fs } }

def Api.setGroupFinalizers (a : Api) (g : String) (w : SnapshotGroup) (fs : List String) : Api :=
  if w.deleting && fs.isEmpty then { a with groups := a.groups.erase g }
  else { a with groups := a.groups.insert g { w with finalizers := fs } }

/-- What the API server makes of a request, `none` if it rejects it. -/
def land (tick : Nat) (q : Request) (pruned : Pruned) (a : Api) : Option Api :=
  match q.write with
  | .applySnap x c =>
    (a.snap x).map fun w => a.setStatus x w (w.status.apply c pruned.nodes q.worker.node tick
      ((snapView x q.log).bind fun v => v.status.liveStamp))
  | .patchSlot x node stamp state =>
    (a.snap x).bind fun w => (w.status.patchSlot node stamp state
      ((snapView x q.log).bind fun v => v.status.liveStamp)).map (a.setStatus x w)
  | .applyGroup g c =>
    (a.group g).map fun w => a.setGroupStatus g w (w.status.apply c pruned.slots q.worker.node tick
      ((groupView g q.log).bind fun v => v.status.liveRound))
  | .mergeSlots g slots =>
    (a.group g).map fun w => a.setGroupStatus g w (w.status.mergeSlots slots
      ((groupView g q.log).bind fun v => v.status.liveRound))
  | .dropSnapFinalizer x node =>
    (a.snap x).map fun w => a.setFinalizers x w (w.finalizers.erase node)
  | .dropGroupFinalizer g node =>
    (a.group g).map fun w => a.setGroupFinalizers g w (w.finalizers.erase node)

/-- The API server moves on to a new version. -/
def State.setApi (s : State) (a : Api) : State :=
  { s with api := a, versions := s.versions ++ [a] }

end Miroir
