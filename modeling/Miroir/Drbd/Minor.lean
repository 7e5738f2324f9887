import Miroir.Process.Workers
import Miroir.Drbd.Driver

/-!
# The minors of one node

A pass of the volume reconciler applies a volume with the minor its status slot shows, or else
with one that `AllocateMinor` hands out; a removal takes the resource down and releases its minor.
Passes of different volumes run side by side, the sweep of the orphans runs alone at startup.

A minor is recorded in up to four places on the node and beside it: `minor.assign`, the rendered
`.res` files, the kernel, and the slot of the volume's status, of which a pass may see any earlier
state.
-/

namespace Miroir.Drbd

open Process Prog Data

/-! ## Passes -/

/-- The slot's minor, or a free one. -/
def assignMinor (name : String) (view : VolumeView) : DriverM (Except Err Nat) :=
  if 0 < view.minor then return .ok view.minor else call (Cmd.allocateMinor name)

/-- What `drbdResource` renders. -/
def VolumeView.input (view : VolumeView) (name : String) (minor : Nat) : Input where
  toResource := { view.resource with name := name }
  minor := minor
  skipDiskAttach := view.skipDiskAttach

/-- `reclaimOrphanHold`: the backing is taken back from a device that only dead openers hold. -/
def reclaimOrphanHold (name : String) (cause : Err) : DriverM (Except Err Unit) := do
  match ← call (Cmd.forceDetach name) with
  | .error _ => return .error cause
  | .ok () =>
    match ← call (Cmd.sweepDelete name) with
    | .error e => return .error e
    | .ok () => call (Cmd.removeConfig name)

def teardown (name : String) (view : VolumeView) : DriverM (Except Err Unit) := do
  if !view.replicated then call (Cmd.sweepDelete name)
  else
    match ← down name with
    | .error .wedged => return .error (.other ("down " ++ name))
    | .error (.other e) =>
      if ← call (Cmd.orphanHold name) then reclaimOrphanHold name e else return .error e
    | .ok () => call (Cmd.sweepDelete name)

def reconcileDeletion (name : String) (view : VolumeView) : DriverM Unit := do
  if !view.placed && !view.finalizer then return ()
  else
    match ← teardown name view with
    | .error _ => return ()
    | .ok () => let _ ← call (Cmd.removeFinalizer name)

def reconcileRemoval (name : String) (view : VolumeView) : DriverM Unit := do
  if !view.finalizer then return ()
  else if ← call (Cmd.removalBlocked name) then return ()
  else
    match ← teardown name view with
    | .error _ => return ()
    | .ok () =>
      match ← call (Cmd.dropSlot name) with
      | .error _ => return ()
      | .ok () => let _ ← call (Cmd.removeFinalizer name)

/-- The backing of a diskful leg. -/
def realize (name : String) (view : VolumeView) : DriverM (Except Err Unit) :=
  if view.diskless then return .ok () else call (Cmd.realizeBacking name)

/-- A replicated leg is applied with its minor, which is then reported. -/
def layerDrbd (name : String) (view : VolumeView) : DriverM Unit := do
  match ← assignMinor name view with
  | .error _ => return ()
  | .ok minor =>
    match ← apply (view.input name minor) with
    | .error _ => return ()
    | .ok () =>
      match ← call (Cmd.finishPass name) with
      | .error _ => return ()
      | .ok () => let _ ← call (Cmd.patchSlot name minor)

def reconcile (name : String) : DriverM Unit := do
  match ← call (Cmd.volume name) with
  | .error _ | .ok none => return ()
  | .ok (some view) =>
    if view.deleting then reconcileDeletion name view
    else if !view.placed then reconcileRemoval name view
    else if view.replicated && !view.completed then return ()
    else if ← call (Cmd.fastPath name) then return ()
    else
      match ← realize name view with
      | .error _ => return ()
      | .ok () => if !view.replicated then return () else layerDrbd name view

/-! ## The node -/

abbrev Minors := AList fun _ : String => Nat

/-- Where a node keeps its minors. -/
structure Node where
  /-- `minor.assign`. -/
  assign : Minors := ∅
  /-- The minors in the rendered `.res` files. -/
  configs : Minors := ∅
  /-- The minors the kernel's resources hold. -/
  kernel : Minors := ∅
  /-- What each volume's slot has shown so far, newest first. -/
  slots : String → List Nat := fun _ => [0]

def minorBase : Nat := 1000

/-- The minor `AllocateMinor` answers: the recorded one, else that of the own config, else the
first that is neither recorded nor rendered. -/
def allocate (s : Node) (name : String) : Nat :=
  ((s.assign.lookup name).orElse fun _ => s.configs.lookup name).getD
    (firstFree minorBase ((s.assign.entries ++ s.configs.entries).map Sigma.snd))

/-- `releaseOrphanedAssignments`: what is owned, in the kernel or rendered stays. -/
def Node.keepAssigned (s : Node) (owned kernel : List String) : Minors where
  entries := s.assign.entries.filter fun e =>
    e.1 ∈ owned || e.1 ∈ kernel || (s.configs.lookup e.1).isSome
  nodupKeys := s.assign.nodupKeys.sublist List.filter_sublist

/-- How a command ends. -/
inductive NodeOutcome where
  | ok
  | failed (applied : Bool)
  /-- `adjust` or `up` failed, having registered the device or not. -/
  | admFailed (err : AdmErr) (applied : Bool)
  | flag (b : Bool)
  | ids (ids : List Nat)
  | view (view : VolumeView)
  deriving DecidableEq

def NodeOutcome.fate : NodeOutcome → Option (Fate Err)
  | .ok => some .done
  | .failed applied => some (.failed (.other "failed") applied)
  | _ => none

/-- `adjust` or `up` registers the device with the minor of the config. -/
def registerOn (s : Node) (name : String) : NodeOutcome → Option (Except AdmErr Unit × Node)
  | .ok => (s.configs.lookup name).map fun m =>
      (.ok (), { s with kernel := s.kernel.insert name m })
  | .admFailed e true => (s.configs.lookup name).map fun m =>
      (.error e, { s with kernel := s.kernel.insert name m })
  | .admFailed e false => some (.error e, s)
  | _ => none

def flagOn (s : Node) : NodeOutcome → Option (Bool × Node)
  | .flag b => some (b, s)
  | _ => none

def Node.showSlot (s : Node) (name : String) (minor : Nat) : Node :=
  { s with slots := Function.update s.slots name (minor :: s.slots name) }

def nodeAnswer (s : Node) : (c : Cmd) → NodeOutcome → Option (Ans c × Node)
  | .volume _, .ok => some (.ok none, s)
  | .volume _, .failed _ => some (.error (.other "failed"), s)
  | .volume n, .view view => if view.minor ∈ s.slots n then some (.ok (some view), s) else none
  | .volume _, _ => none
  | .readPendingForgets _, .ids ids => some (.ok ids, s)
  | .readPendingForgets _, .failed _ => some (.error (.other "failed"), s)
  | .readPendingForgets _, _ => none
  | .listStatus n, .ids ids => some (.ok ((s.kernel.lookup n).map fun _ => ids), s)
  | .listStatus _, .failed _ => some (.error (.other "failed"), s)
  | .listStatus _, _ => none
  | .allocateMinor n, o =>
    perform (allocate s n) s { s with assign := s.assign.insert n (allocate s n) } o.fate
  | .releaseMinor n, o => perform () s { s with assign := s.assign.erase n } o.fate
  | .releaseOrphanedAssignments owned kernel, o =>
    perform () s { s with assign := s.keepAssigned owned kernel } o.fate
  | .writeConfig r, o => perform () s { s with configs := s.configs.insert r.name r.minor } o.fate
  | .adjust n _, o | .up n, o => registerOn s n o
  | .statConfig n, .ok => some ((s.configs.lookup n).isSome, s)
  -- An error other than "not exist" counts as a config that is there.
  | .statConfig _, .failed _ => some (true, s)
  | .statConfig _, _ => none
  | .downResource n, o => perform () s { s with kernel := s.kernel.erase n } o.fate
  | .removeStateFiles n, o | .removeConfig n, o =>
    perform () s { s with configs := s.configs.erase n } o.fate
  | .listAll, o => perform s.kernel.keys s s o.fate
  | .readDir, o => perform s.configs.keys s s o.fate
  | .patchSlot n m, o => perform () s (s.showSlot n m) o.fate
  | .dropSlot n, o => perform () s (s.showSlot n 0) o.fate
  | .wedged _, o | .wedgeSighting _, o | .fastPath _, o | .removalBlocked _, o
  | .orphanHold _, o => flagOn s o
  | .lock _, o | .writePendingForgets _ _, o | .ensureMarkedMetadata _, o
  | .removeCreatedMarker _, o | .forgetPeer _ _, o | .ensureDeviceNode _ _, o
  | .realizeBacking _, o | .finishPass _, o | .forceDetach _, o | .sweepDelete _, o
  | .removeFinalizer _, o => perform () s s o.fate

inductive NodeEvent where
  /-- A resource is gone from the kernel. -/
  | gone (name : String)
  | reboot
  /-- `minor.assign` is lost. -/
  | loseAssign
  | loseConfig (name : String)
  deriving DecidableEq, Repr

instance inhabitedNodeEvent : Inhabited NodeEvent := ⟨.reboot⟩

def nodeEvent (s : Node) : NodeEvent → Option Node
  | .gone n => some { s with kernel := s.kernel.erase n }
  | .reboot => some { s with kernel := ∅ }
  | .loseAssign => some { s with assign := ∅ }
  | .loseConfig n => some { s with configs := s.configs.erase n }

/-- A worker is a volume, whose passes come one after the other, or the sweep, whose job is the
list of the volumes that are owned. The sweep runs before any pass starts. -/
def agent : Workers Node (Option String) (List String) NodeEvent NodeOutcome Ans Unit where
  program w owned :=
    match w with
    | some name => reconcile name
    | none => sweepOrphans owned
  answer s _ _ c o := nodeAnswer s c o
  event := nodeEvent
  admits running w :=
    match w with
    | some _ => none ∉ running
    | none => running.isEmpty

end Miroir.Drbd
