import Miroir.Api
import Miroir.Process.Program

/-!
# What an agent asks of its surroundings

A reconcile pass reads objects through the informer cache or straight from the API server,
asks and drives DRBD, cuts and deletes backend snapshots, and writes statuses. Every one of
these is a `Cmd` with its answer type `Ans`, so a reconciler is a `Prog Cmd Ans` and the
order of its effects is the order of the source.

`snapView` and `groupView` recover from a pass's log the copy of an object the pass read
through its cache: the view it decides on.
-/

namespace Miroir

open Process

/-- An error, by what the callers tell apart: `backend.ErrBusy`, and the API server's conflict
and not-found. -/
inductive Err where
  | busy (msg : String)
  | conflict (msg : String)
  | notFound (msg : String)
  | other (msg : String)
  deriving DecidableEq, Repr

def Err.msg : Err → String
  | .busy m | .conflict m | .notFound m | .other m => m

/-- `ctrl.Result` with the error: how long to wait before the next pass, in nanoseconds. -/
structure Result where
  requeueAfter : Nat := 0
  err : Option Err := none
  deriving DecidableEq, Repr

/-- The parsed `drbdsetup status` of one resource. -/
structure DrbdStatus where
  primary : Bool
  peerPrimary : Bool
  suspended : Bool
  diskState : Option DiskState
  peerConnected : Nat → Bool
  peerDiskState : Nat → Option DiskState

/-- A status apply of a `MiroirSnapshot`: the fields the apply configuration states. -/
structure SnapshotApply where
  readyToUse : Bool
  ioSuspended : Bool
  perNode : Slots String
  sizeBytes : Option Nat
  sourceFormatted : Option Bool
  suspendedAt : Option Stamp
  round : Option Round
  deriving DecidableEq

/-- A status apply of a `MiroirSnapshotGroup`. -/
structure GroupApply where
  readyToUse : Bool
  ioSuspended : Bool
  perLeg : Slots SlotKey
  suspendedAt : Option Stamp
  round : Option Round
  deriving DecidableEq

/-- A write to the API server. -/
inductive Write where
  /-- Forced server-side apply of a whole snapshot status. -/
  | applySnap (name : String) (st : SnapshotApply)
  /-- JSON patch of one slot, with a `test` on `ioSuspended` and on `suspendedAt`. -/
  | patchSlot (name node : String) (suspendedAt : Stamp) (state : SnapshotNodeState)
  /-- Forced server-side apply of a whole group status. -/
  | applyGroup (name : String) (st : GroupApply)
  /-- Merge patch of some slots of a group. -/
  | mergeSlots (name : String) (slots : List (SlotKey × SnapshotNodeState))
  /-- Update that drops a node's finalizer from a snapshot. -/
  | dropSnapFinalizer (name node : String)
  /-- Update that drops a node's finalizer from a group. -/
  | dropGroupFinalizer (name node : String)
  deriving DecidableEq

/-- The commands of the snapshot rounds. -/
inductive Cmd where
  | cachedSnapshot (name : String)
  | cachedGroup (name : String)
  | cachedVolume (name : String)
  | getSnapshot (name : String)
  | getGroup (name : String)
  | listSnapshots
  | listGroups
  | listVolumes
  | now
  | drbdStatus (volume : String)
  | userSuspended
  | suspendIo (volume : String)
  | resumeIo (volume : String)
  | freeze (device : String)
  | thaw (device : String)
  | sync (pool volume : String)
  | deleteSnapshot (pool volume snap : String)
  | snapshot (pool volume snap : String)
  /-- Count one more barrier failure of the object and return the count. -/
  | countBarrierFail (name : String)
  | clearBarrierFails (name : String)
  | write (w : Write)
  deriving DecidableEq

/-- The answer to a command. A `Get` that finds nothing answers `none`. -/
abbrev Ans : Cmd → Type
  | .cachedSnapshot _ | .getSnapshot _ => Except Err (Option Snapshot)
  | .cachedGroup _ | .getGroup _ => Except Err (Option SnapshotGroup)
  | .cachedVolume _ => Except Err (Option Volume)
  | .listSnapshots => Except Err (List Snapshot)
  | .listGroups => Except Err (List SnapshotGroup)
  | .listVolumes => Except Err (List Volume)
  | .now => Nat
  | .drbdStatus _ => Except Err DrbdStatus
  | .userSuspended => Except Err (List String)
  | .suspendIo _ | .resumeIo _ | .freeze _ | .thaw _ | .sync _ _ | .deleteSnapshot _ _ _
  | .snapshot _ _ _ | .write _ => Except Err Unit
  | .countBarrierFail _ => Nat
  | .clearBarrierFails _ => Unit

/-- An agent's program. -/
abbrev AgentM := Prog Cmd Ans

/-! ## The calls -/

abbrev cachedSnapshot (name : String) : AgentM (Except Err (Option Snapshot)) :=
  Prog.call (Cmd.cachedSnapshot name)

abbrev cachedGroup (name : String) : AgentM (Except Err (Option SnapshotGroup)) :=
  Prog.call (Cmd.cachedGroup name)

abbrev cachedVolume (name : String) : AgentM (Except Err (Option Volume)) :=
  Prog.call (Cmd.cachedVolume name)

abbrev getSnapshot (name : String) : AgentM (Except Err (Option Snapshot)) :=
  Prog.call (Cmd.getSnapshot name)

abbrev getGroup (name : String) : AgentM (Except Err (Option SnapshotGroup)) :=
  Prog.call (Cmd.getGroup name)

abbrev listSnapshots : AgentM (Except Err (List Snapshot)) := Prog.call Cmd.listSnapshots

abbrev listGroups : AgentM (Except Err (List SnapshotGroup)) := Prog.call Cmd.listGroups

abbrev listVolumes : AgentM (Except Err (List Volume)) := Prog.call Cmd.listVolumes

abbrev now : AgentM Nat := Prog.call Cmd.now

abbrev drbdStatus (volume : String) : AgentM (Except Err DrbdStatus) :=
  Prog.call (Cmd.drbdStatus volume)

abbrev userSuspended : AgentM (Except Err (List String)) := Prog.call Cmd.userSuspended

abbrev suspendIo (volume : String) : AgentM (Except Err Unit) := Prog.call (Cmd.suspendIo volume)

abbrev resumeIo (volume : String) : AgentM (Except Err Unit) := Prog.call (Cmd.resumeIo volume)

abbrev freeze (device : String) : AgentM (Except Err Unit) := Prog.call (Cmd.freeze device)

abbrev thaw (device : String) : AgentM (Except Err Unit) := Prog.call (Cmd.thaw device)

abbrev sync (pool volume : String) : AgentM (Except Err Unit) := Prog.call (Cmd.sync pool volume)

abbrev deleteSnapshot (pool volume snap : String) : AgentM (Except Err Unit) :=
  Prog.call (Cmd.deleteSnapshot pool volume snap)

abbrev snapshot (pool volume snap : String) : AgentM (Except Err Unit) :=
  Prog.call (Cmd.snapshot pool volume snap)

abbrev countBarrierFail (name : String) : AgentM Nat := Prog.call (Cmd.countBarrierFail name)

abbrev clearBarrierFails (name : String) : AgentM Unit := Prog.call (Cmd.clearBarrierFails name)

abbrev write (w : Write) : AgentM (Except Err Unit) := Prog.call (Cmd.write w)

/-! ## The log of a pass -/

/-- The log of a pass; times are moments of the run. -/
abbrev PassLog := Log Nat Ans

/-- The copy of snapshot `x` the pass read from its cache last. -/
def snapView (x : String) : PassLog → Option Snapshot
  | [] => none
  | ⟨_, .cachedSnapshot y, .ok (some w)⟩ :: l => if y = x then some w else snapView x l
  | _ :: l => snapView x l

/-- The copy of group `g` the pass read from its cache last. -/
def groupView (g : String) : PassLog → Option SnapshotGroup
  | [] => none
  | ⟨_, .cachedGroup h, .ok (some w)⟩ :: l => if h = g then some w else groupView g l
  | _ :: l => groupView g l

end Miroir
