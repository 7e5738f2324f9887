import Miroir.Agent.Generation
import Miroir.Data.FirstFree
import Mathlib.Data.List.Dedup
import Mathlib.Data.List.Sort

/-!
# The DRBD driver

`apply` converges the kernel to a rendered resource, `down` takes it away again, `sweepOrphans`
does so at startup for whatever no volume owns. What they know between calls is in files: the
rendered `.res`, the marker of peers whose metadata slot is still to be cleared, and
`minor.assign`, the minors handed out.

Every file operation and every child process is a command that may fail. The minors' lock spans
the reading and writing of `minor.assign`, so each of its users is one command.
-/

namespace Miroir.Drbd

open Process Prog Data

/-- What a resource is rendered from. -/
structure Input extends Resource where
  minor : Nat
  /-- The leg is latched failed, and its disk is left alone. -/
  skipDiskAttach : Bool := false
  deriving DecidableEq, Repr

/-- The node ids the rendered config lists. -/
def Input.ids (r : Input) : List Nat := r.peers.map Peer.nodeID

/-- The node ids of the other legs. -/
def Input.others (r : Input) : List Nat :=
  (r.peers.filter fun p => p.node ≠ r.localNode).map Peer.nodeID

/-- Why `drbdadm` failed, by what `Apply` tells apart. -/
structure AdmErr where
  missingMetadata : Bool := false
  unknownResource : Bool := false
  deriving DecidableEq, Repr

/-- What of a volume decides what a pass does here. -/
structure VolumeView where
  placed : Bool
  completed : Bool
  deleting : Bool
  finalizer : Bool
  replicated : Bool
  diskless : Bool
  /-- `status.perNode[node].drbdMinor`, 0 where it is not set. -/
  minor : Nat
  resource : Resource
  skipDiskAttach : Bool := false
  deriving DecidableEq, Repr

/-- A command of the driver. -/
inductive Cmd where
  | lock (name : String)
  | readPendingForgets (name : String)
  | listStatus (name : String)
  | writePendingForgets (name : String) (ids : List Nat)
  | writeConfig (r : Input)
  | ensureMarkedMetadata (name : String)
  | removeCreatedMarker (name : String)
  | adjust (name : String) (skipDisk : Bool)
  | up (name : String)
  | forgetPeer (name : String) (id : Nat)
  | ensureDeviceNode (name : String) (minor : Nat)
  | allocateMinor (name : String)
  | releaseMinor (name : String)
  /-- `minor.assign` loses the entries that are not in `kernel`, not rendered and not owned. -/
  | releaseOrphanedAssignments (owned kernel : List String)
  | statConfig (name : String)
  /-- Whether the resource wears a wedge fingerprint. -/
  | wedged (name : String)
  /-- The sighting is recorded; answers whether there was one before. -/
  | wedgeSighting (name : String)
  /-- The peers are disconnected and the resource is taken down. -/
  | downResource (name : String)
  | removeStateFiles (name : String)
  /-- `RemoveConfig`: the files go, the minor stays reserved. -/
  | removeConfig (name : String)
  /-- The resources in the kernel. -/
  | listAll
  /-- The resources with a rendered config. -/
  | readDir
  /-- The volume, from a cache. -/
  | volume (name : String)
  | fastPath (name : String)
  | realizeBacking (name : String)
  /-- What a pass does between the apply and its status. -/
  | finishPass (name : String)
  | patchSlot (name : String) (minor : Nat)
  | removalBlocked (name : String)
  | orphanHold (name : String)
  | forceDetach (name : String)
  | sweepDelete (name : String)
  | dropSlot (name : String)
  | removeFinalizer (name : String)
  deriving DecidableEq

abbrev Ans : Cmd → Type
  | .readPendingForgets _ => Except Err (List Nat)
  -- The peers the kernel lists; nothing where it answers "No such resource".
  | .listStatus _ => Except Err (Option (List Nat))
  | .adjust _ _ | .up _ => Except AdmErr Unit
  | .allocateMinor _ => Except Err Nat
  | .statConfig _ | .wedged _ | .wedgeSighting _ | .fastPath _ | .removalBlocked _
  | .orphanHold _ => Bool
  | .listAll | .readDir => Except Err (List String)
  | .volume _ => Except Err (Option VolumeView)
  | .lock _ | .writePendingForgets _ _ | .writeConfig _ | .ensureMarkedMetadata _
  | .removeCreatedMarker _ | .forgetPeer _ _ | .ensureDeviceNode _ _ | .releaseMinor _
  | .releaseOrphanedAssignments _ _ | .downResource _ | .removeStateFiles _ | .removeConfig _
  | .realizeBacking _ | .finishPass _ | .patchSlot _ _ | .forceDetach _ | .sweepDelete _
  | .dropSlot _ | .removeFinalizer _ => Except Err Unit

abbrev DriverM := Prog Cmd Ans

abbrev DriverLog := Log Nat Ans

/-! ## Apply -/

/-- `slices.Sort` and `slices.Compact`. -/
def sortCompact (ids : List Nat) : List Nat :=
  (ids.insertionSort (· ≤ ·)).dedup

@[simp] theorem mem_sortCompact {ids : List Nat} {id : Nat} : id ∈ sortCompact ids ↔ id ∈ ids := by
  rw [sortCompact, List.mem_dedup, List.mem_insertionSort]

/-- What is removed, from the ids pending and those the kernel lists. -/
def Input.removed (r : Input) (pending : List Nat) (kernel : Option (List Nat)) : List Nat :=
  sortCompact ((pending ++ kernel.getD []).filter (· ∉ r.ids))

theorem Input.mem_removed {r : Input} {pending : List Nat} {kernel : Option (List Nat)}
    {id : Nat} :
    id ∈ r.removed pending kernel ↔ (id ∈ pending ∨ id ∈ kernel.getD []) ∧ id ∉ r.ids := by
  simp only [Input.removed, mem_sortCompact, List.mem_filter, List.mem_append, decide_eq_true_iff]

/-- The ids pending or in the kernel that the config lacks. -/
def removedPeers (r : Input) : DriverM (Except Err (List Nat)) := do
  match ← call (Cmd.readPendingForgets r.name) with
  | .error e => return .error e
  | .ok pending =>
    match ← call (Cmd.listStatus r.name) with
    | .error e => return .error e
    | .ok kernel => return .ok (r.removed pending kernel)

def forgetRemovedPeers (name : String) : List Nat → DriverM (Except Err Unit)
  | [] => call (Cmd.writePendingForgets name [])
  | id :: ids => do
    match ← call (Cmd.forgetPeer name id) with
    | .error e => return .error e
    | .ok () => forgetRemovedPeers name ids

def finishApply (r : Input) (removed : List Nat) : DriverM (Except Err Unit) := do
  match ← forgetRemovedPeers r.name removed with
  | .error e => return .error e
  | .ok () => call (Cmd.ensureDeviceNode r.name r.minor)

/-- `adjust` has failed: a half-torn slot may still accept a plain `up`. -/
def upFallback (r : Input) (e : AdmErr) : DriverM (Except Err Unit) := do
  if !e.unknownResource then return .error (.other ("adjust " ++ r.name))
  else
    match ← call (Cmd.up r.name) with
    | .error _ => return .error (.other ("up " ++ r.name ++ " (after adjust fallback)"))
    | .ok () => return .ok ()

/-- `adjust`; with metadata missing, once more after it was created. -/
def converge (r : Input) : DriverM (Except Err Unit) := do
  match ← call (Cmd.adjust r.name r.skipDiskAttach) with
  | .ok () => return .ok ()
  | .error e =>
    if !r.localDiskless && !r.skipDiskAttach && e.missingMetadata then
      match ← call (Cmd.removeCreatedMarker r.name) with
      | .error e => return .error e
      | .ok () =>
        match ← call (Cmd.ensureMarkedMetadata r.name) with
        | .error e => return .error e
        | .ok () =>
          match ← call (Cmd.adjust r.name false) with
          | .ok () => return .ok ()
          | .error e => upFallback r e
    else upFallback r e

/-- The metadata of a leg with a disk to look at. -/
def metadata (r : Input) : DriverM (Except Err Unit) :=
  if !r.localDiskless && !r.skipDiskAttach then call (Cmd.ensureMarkedMetadata r.name)
  else return .ok ()

/-- Converge the kernel state; what leaves is recorded before and forgotten after. -/
def apply (r : Input) : DriverM (Except Err Unit) := do
  match ← call (Cmd.lock r.name) with
  | .error e => return .error e
  | .ok () =>
    match ← removedPeers r with
    | .error e => return .error e
    | .ok removed =>
      match ← call (Cmd.writePendingForgets r.name removed) with
      | .error e => return .error e
      | .ok () =>
        match ← call (Cmd.writeConfig r) with
        | .error e => return .error e
        | .ok () =>
          match ← metadata r with
          | .error e => return .error e
          | .ok () =>
            match ← converge r with
            | .error e => return .error e
            | .ok () => finishApply r removed

/-- The commands that bring up the resource once its config is written. -/
def Converging (name : String) : Cmd → Prop
  | .ensureMarkedMetadata n | .removeCreatedMarker n | .adjust n _ | .up n
  | .ensureDeviceNode n _ => n = name
  | _ => False

theorem asks_upFallback (r : Input) (e : AdmErr) : Asks (Converging r.name) (upFallback r e) := by
  rw [upFallback]
  split
  · trivial
  · refine asks_call_bind rfl fun a => ?_
    cases a <;> trivial

theorem asks_converge (r : Input) : Asks (Converging r.name) (converge r) := by
  refine asks_call_bind rfl fun a => ?_
  cases a with
  | ok => trivial
  | error e =>
    dsimp only
    split
    · refine asks_call_bind rfl fun a => ?_
      cases a with
      | error => trivial
      | ok =>
        refine asks_call_bind rfl fun a => ?_
        cases a with
        | error => trivial
        | ok =>
          refine asks_call_bind rfl fun a => ?_
          cases a with
          | ok => trivial
          | error e => exact asks_upFallback r e
    · exact asks_upFallback r e

theorem asks_metadata (r : Input) : Asks (Converging r.name) (metadata r) := by
  rw [metadata]
  split
  · exact asks_call.mpr rfl
  · trivial

/-! ## Down and the startup sweep -/

/-- Why a `Down` failed: `ErrWedged`, or anything else. -/
inductive DownErr where
  | wedged
  | other (e : Err)
  deriving DecidableEq, Repr

/-- Take the resource down, drop its files and release its minor. -/
def down (name : String) : DriverM (Except DownErr Unit) := do
  match ← call (Cmd.lock name) with
  | .error e => return .error (.other e)
  | .ok () =>
    if !(← call (Cmd.statConfig name)) then return .ok ()
    else if ← call (Cmd.wedged name) then
      if ← call (Cmd.wedgeSighting name) then return .error .wedged
      else return .error (.other (.busy ("down " ++ name ++
        ": detach in flight after a killed down; deferring")))
    else
      match ← call (Cmd.downResource name) with
      | .error e => return .error (.other e)
      | .ok () =>
        match ← call (Cmd.removeStateFiles name) with
        | .error e => return .error (.other e)
        | .ok () =>
          match ← call (Cmd.releaseMinor name) with
          | .error e => return .error (.other e)
          | .ok () => return .ok ()

/-- The kernel resources nobody owns are taken down; answers those that are stuck. -/
def sweepKernel (owned : List String) : List String → DriverM (List String)
  | [] => return []
  | name :: names => do
    if name ∈ owned then sweepKernel owned names
    else if ← call (Cmd.wedged name) then return name :: (← sweepKernel owned names)
    else
      match ← call (Cmd.downResource name) with
      | .error _ => return name :: (← sweepKernel owned names)
      | .ok () => sweepKernel owned names

/-- The configs nobody owns are removed, except those of stuck resources. Errors are collected, and
the sweep goes on. -/
def sweepConfigs (owned stuck : List String) : List String → DriverM Unit
  | [] => return ()
  | name :: names => do
    if name ∈ owned || name ∈ stuck then sweepConfigs owned stuck names
    else
      let _ ← call (Cmd.removeStateFiles name)
      let _ ← call (Cmd.releaseMinor name)
      sweepConfigs owned stuck names

/-- Take down what no volume owns. -/
def sweepOrphans (owned : List String) : DriverM Unit := do
  match ← call Cmd.listAll with
  | .error _ => return ()
  | .ok kernel =>
    let stuck ← sweepKernel owned kernel
    match ← call Cmd.readDir with
    | .error _ => return ()
    | .ok configs =>
      sweepConfigs owned stuck configs
      let _ ← call (Cmd.releaseOrphanedAssignments owned kernel)

end Miroir.Drbd
