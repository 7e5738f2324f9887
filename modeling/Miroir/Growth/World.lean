import Miroir.Process.Versions
import Miroir.Process.Workers
import Miroir.Controller.Membership
import Miroir.Growth.Backend
import Miroir.Growth.Pass

/-!
# A volume that grows while its legs change

The volume on the API server with all its versions, of which a cached read may find any, the
backing device of each node, and the devices DRBD took its size from last. Passes run on all nodes,
and the controller expands the volume. Edits of the membership are events, held to the rules of the
CRD; DRBD sizes its device at the first handshake of its legs, and at a `drbdadm resize`.
-/

namespace Miroir.Growth

open Process

/-- The volume in its versions, and the devices. -/
structure World extends Versions Volume where
  /-- The configuration of each node's pool. -/
  pools : String → Pool
  /-- The extent size of each node's volume group. -/
  extents : String → Extent
  /-- The backing of each node. -/
  device : String → Option Device := fun _ => none
  /-- The backings the DRBD device was sized from, none before it is. -/
  sizedFrom : List Device := []
  /-- The version that changed the legs last. -/
  edited : Nat := 0
  /-- The version a node's last pass was handed. -/
  handed : String → Nat := fun _ => 0

namespace World

/-- The volume is written. -/
def put (s : World) (vol : Volume) : World := { s with toVersions := s.toVersions.put vol }

def setDevice (s : World) (node : String) (d : Option Device) : World :=
  { s with device := Function.update s.device node d }

/-- The bytes of a node's backing. -/
def backing (s : World) (node : String) : Option Nat := (s.device node).map Device.bytes

/-- What the node makes new devices with. -/
def geometry (s : World) (node : String) : Geometry := (s.pools node).geometry (s.extents node)

/-- A device that is there stays as it is. -/
def ensureDevice (s : World) (node : String) (d : Device) : World :=
  if (s.device node).isSome then s else s.setDevice node (some d)

def resizeDevice (s : World) (node : String) (bytes : Nat) : World :=
  s.setDevice node ((s.device node).map (·.resize bytes))

/-- The smallest backing the device was sized from. -/
def smallest (s : World) : Option Nat := (s.sizedFrom.map Device.bytes).min?

/-- The backings of the diskful legs that are there; DRBD refuses one that is too small for the
device. -/
def connected (s : World) : List Device :=
  (s.current.spec.diskfulReplicas.filterMap fun rep => s.device rep.node).filter fun d =>
    s.smallest.all fun size => size ≤ d.bytes

def sizeDevice (s : World) : World := { s with sizedFrom := s.connected }

/-- A pass is handed a version; the controller's reads leave no trace. -/
def hand (s : World) (w : Option String) (k : Nat) : World :=
  match w with
  | some node => { s with handed := Function.update s.handed node k }
  | none => s

/-- The legs change. -/
def edit (s : World) (replicas : List Replica) (clients : List VolumeClient) : World :=
  { s.put { s.current with
      spec := { s.current.spec with replicas := replicas, clients := clients } } with
    edited := s.last + 1 }

end World

/-- A new volume, with no backing anywhere. -/
def created (vol : Volume) (pools : String → Pool) (extents : String → Extent) : World :=
  { version := fun _ => vol, pools := pools, extents := extents }

/-- How a command ends. -/
inductive Outcome where
  | ok
  /-- It reports an error, with or without having taken effect. -/
  | fail (e : Err) (applied : Bool)
  | version (k : Nat)
  | absent
  | flag (b : Bool)
  | status (st : LegStatus)
  /-- A clone is there, which has the geometry and the bytes of its origin. -/
  | cloned (geometry : Geometry) (bytes : Nat) (err : Option Err)
  | duringResync
  deriving DecidableEq

def Outcome.fate : Outcome → Option (Fate Err)
  | .ok => some .done
  | .fail e applied => some (.failed e applied)
  | _ => none

/-- A merge patch. -/
def patch (s : World) (vol : Volume) (o : Outcome) : Option (Except Err Volume × World) :=
  perform vol s (s.put vol) o.fate

/-- The command is refused. -/
def refused {α : Type} (s : World) : Outcome → Option (Except Err α × World)
  | .fail e _ => some (.error e, s)
  | _ => none

def flagged (s : World) : Outcome → Option (Bool × World)
  | .flag b => some (b, s)
  | _ => none

def setActivated (vol : Volume) : Volume :=
  { vol with status := { vol.status with activated := true } }

def setSize (vol : Volume) (size : Nat) : Volume :=
  { vol with spec := { vol.spec with sizeBytes := size } }

/-- The command of a pass on `node`, or of the controller. -/
def answer (s : World) (w : Option String) : (c : Cmd) → Outcome → Option (Ans c × World)
  | .volume, .version k =>
    if k ≤ s.last then some (.ok (some (s.version k)), s.hand w k) else none
  | .volume, .absent => some (.ok none, s)
  | .volume, .fail e _ => some (.error e, s)
  | .fastPath, o | .holdsFinalizer, o | .removalBlocked, o | .parks, o => flagged s o
  | .deviceExists, .ok => some (.ok (w.any fun node => (s.device node).isSome), s)
  | .deviceExists, .fail e _ => some (.error e, s)
  | .createBacking bytes, o => w.bind fun node =>
    perform () s (s.ensureDevice node (.create (s.geometry node) bytes)) o.fate
  | .sourceSnapshot, .flag b => some (.ok b, s)
  | .sourceSnapshot, .fail e _ => some (.error e, s)
  | .createFromSnapshot, .cloned geometry bytes err => w.bind fun node =>
    some (err.elim (.ok ()) .error, s.ensureDevice node (.clone geometry bytes))
  | .createFromSnapshot, .fail e _ => some (.error e, s)
  | .bringUp, .status st => some (.ok st, s)
  | .bringUp, .fail e _ => some (.error e, s)
  | .patchActivated, o => patch s (setActivated s.current) o
  | .resizeBacking bytes, o => w.bind fun node =>
    if (s.device node).isSome then perform () s (s.resizeDevice node bytes) o.fate else refused s o
  | .drbdResize, .ok => some (.ok (), s.sizeDevice)
  | .drbdResize, .duringResync => some (.error .duringResync, s)
  | .drbdResize, .fail e _ => some (.error (.other e), s)
  | .patchStatus mine, o => w.bind fun node =>
    perform () s (s.put (withSlot s.current node mine)) o.fate
  | .deleteBacking, o => w.bind fun node => perform () s (s.setDevice node none) o.fate
  | .dropSlot, o => w.bind fun node => perform () s (s.put (withSlot s.current node {})) o.fate
  -- The rules of the CRD refuse a smaller size.
  | .patchSize size, o =>
    if s.current.spec.sizeBytes ≤ size then patch s (setSize s.current size) o else refused s o
  | .down, o | .removeFinalizer, o | .expandWithinHeadroom _, o => perform () s s o.fate
  | _, _ => none

/-- What happens besides the passes. -/
inductive Event where
  | edit (replicas : List Replica) (clients : List VolumeClient)
  /-- The first legs agree on the size of the device. -/
  | handshake
  /-- The operator changes a node's pool. -/
  | configure (node : String) (pool : Pool) (extent : Extent)

instance inhabitedEvent : Inhabited Event := ⟨.edit [] []⟩

/-- The API server takes an edit that the rules of the CRD admit. -/
def event (s : World) : Event → Option World
  | .edit replicas clients =>
    if ({ s.current.spec with replicas := replicas, clients := clients }).admitted then
      some (s.edit replicas clients)
    else none
  | .handshake => if s.sizedFrom.isEmpty then some s.sizeDevice else none
  | .configure node pool extent => some { s with
      pools := Function.update s.pools node pool
      extents := Function.update s.extents node extent }

/-- What a worker returns. -/
inductive Ended where
  | passed (r : Result)
  | expanded (r : Except Err Nat)
  deriving DecidableEq

/-- A request to the controller: the bytes required, and the polls that fit into its timeout. -/
structure Request where
  required : Nat := 0
  polls : Nat := 0

abbrev GrowConf := Conf World (Option String) Request Ans Ended

abbrev GrowAct := Act (Option String) Request Event Outcome

/-- Worker `some node` runs the passes of a node, worker `none` is the controller. -/
def cluster : Workers World (Option String) Request Event Outcome Ans Ended where
  program w req :=
    match w with
    | some node => do return .passed (← reconcile node)
    | none => do return .expanded (← expandVolume req.required req.polls)
  answer s w _ c o := answer s w c o
  event := event

/-! ## Sizes -/

/-- The size the coordinator's slot reports. -/
def coordinatorSize (vol : Volume) : Nat :=
  vol.spec.firstDiskful.elim 0 fun rep => slotSize vol rep.node

/-- The bytes a diskful leg of the volume needs for the size. -/
def bytesFor (spec : VolumeSpec) (size : Nat) : Nat :=
  ({ spec with sizeBytes := size } : VolumeSpec).backingBytes

/-- Every diskful leg has a backing of the size. -/
def World.backed (s : World) (size : Nat) : Bool :=
  s.current.spec.diskfulReplicas.all fun rep =>
    (s.backing rep.node).any fun b => bytesFor s.current.spec size ≤ b

/-- The step is a `drbdadm resize` that succeeds while every diskful leg has a backing of the
size. -/
def resizedAt (c : GrowConf) (a : GrowAct) (size : Nat) : Bool :=
  match a with
  | .reply _ .ok => (Workers.asked c a).any (fun q => q.cmd = .drbdResize) && c.world.backed size
  | _ => false

/-! ## A volume on two nodes -/

def onAB : List Replica :=
  [{ node := "a", pool := "default", nodeID := 0, address := "10.0.0.a" },
    { node := "b", pool := "default", nodeID := 1, address := "10.0.0.b" }]

/-- A new replicated volume. -/
def newVolume (size : Nat) : Volume where
  name := "pvc"
  spec := { sizeBytes := size, replicas := onAB, drbd := true }
  status := {}

/-- Volume groups have extents of 4 MiB. -/
def extents4M : String → Extent := fun _ => ⟨4194304, by decide⟩

/-- A pass of a leg: the backing is made or there, DRBD comes up, and the backing grows. -/
def legPass (node : String) (version : Nat) (os : List Outcome) : List GrowAct :=
  .start (some node) { polls := 0 } ::
    Workers.replies (some node)
      ([.version version, .flag false, .ok, .ok, .status {}, .ok] ++ os) ++
    [.finish (some node)]

/-- Both legs come up, the coordinator last, and an expansion to 2 MiB begins. -/
def expansionBegins : List GrowAct :=
  legPass "b" 0 [.ok] ++ legPass "a" 2 [.ok, .ok] ++
    .start none { required := 2097152, polls := 1 } ::
      Workers.replies none [.version 4, .ok, .ok] ++ legPass "b" 5 [.ok]

/-- Auto-evict swaps "a" for "c", and membership completes the new entry. -/
def evictA : List GrowAct :=
  let bare : Replica := { node := "c", nodeID := 0 }
  let filled : Replica :=
    { node := "c", pool := "default", nodeID := 0, address := "10.0.0.c", fullSync := true }
  [.event (.edit (swapReplica onAB "a" bare) []), .event (.edit (swapReplica onAB "a" filled) [])]

end Miroir.Growth
