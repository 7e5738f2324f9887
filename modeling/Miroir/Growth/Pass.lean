import Miroir.Agent.Generation
import Miroir.Volume.Reconcile

/-!
# Growing a replicated volume

`ControllerExpandVolume` raises the desired size and waits until every diskful slot reports it. On
each node a pass resizes the backing and reports the desired size; the first diskful replica, the
coordinator, reports it only after `drbdadm resize`, which it runs once the slots of all peers
report the size. Legs come and go in between: a removed leg is torn down and its slot dropped.

A pass works from a cached copy of the volume, into which it writes the slot it reports; a merge
patch replaces the copy by the object on the API server.
-/

namespace Miroir.Growth

open Process Prog

/-- A command of a pass or of `ControllerExpandVolume`. -/
inductive Cmd where
  /-- The volume, through the informer cache. -/
  | volume
  | fastPath
  | deviceExists
  /-- `be.Create`, which also activates a device that is there. -/
  | createBacking (bytes : Nat)
  /-- Whether the snapshot a restore starts from is there. -/
  | sourceSnapshot
  | createFromSnapshot
  /-- `Apply`, the one-time mints, and the status after them. -/
  | bringUp
  | patchActivated
  | resizeBacking (bytes : Nat)
  | drbdResize
  | patchStatus (mine : ReplicaStatus)
  | holdsFinalizer
  | removalBlocked
  /-- The resource is taken down, or its backing is taken back from it. -/
  | down
  | deleteBacking
  /-- Whether the error of a teardown is put on the slot. -/
  | parks
  | dropSlot
  | removeFinalizer
  | expandWithinHeadroom (newSize : Nat)
  | patchSize (newSize : Nat)
  deriving DecidableEq

/-- The answer to a command; a merge patch of the object returns it as the API server has it. -/
abbrev Ans : Cmd → Type
  | .volume => Except Err (Option Volume)
  | .patchActivated | .patchSize _ => Except Err Volume
  | .fastPath | .holdsFinalizer | .removalBlocked | .parks => Bool
  | .deviceExists | .sourceSnapshot => Except Err Bool
  | .bringUp => Except Err LegStatus
  | .drbdResize => Except ResizeErr Unit
  | .createBacking _ | .createFromSnapshot | .resizeBacking _ | .patchStatus _ | .down
  | .deleteBacking | .dropSlot | .removeFinalizer | .expandWithinHeadroom _ => Except Err Unit

abbrev GrowM := Prog Cmd Ans

abbrev GrowLog := Log Nat Ans

/-- The size a node's slot reports. -/
def slotSize (vol : Volume) (node : String) : Nat := (vol.status.perNode node).sizeBytes

def withSlot (vol : Volume) (node : String) (mine : ReplicaStatus) : Volume :=
  { vol with status := { vol.status with perNode := Function.update vol.status.perNode node mine } }

/-- A diskful leg is placed on the node. -/
def diskfulOn (spec : VolumeSpec) (node : String) : Bool :=
  spec.diskfulReplicas.any fun rep => rep.node = node

/-- The node holds the first diskful replica. -/
def coordinates (spec : VolumeSpec) (node : String) : Bool :=
  spec.firstDiskful.any fun rep => rep.node = node

/-! ## A pass -/

section Pass

variable (self : String)

/-- The slot is written into the copy in hand whether or not the API server takes it. -/
def patchStatus (vol : Volume) (mine : ReplicaStatus) : GrowM (Option Err × Volume) := do
  return (failed (← call (Cmd.patchStatus mine)), withSlot vol self mine)

/-- Record the error on the own slot and return it. -/
def reportError (vol : Volume) (e : Err) : GrowM Result := do
  match ← patchStatus self vol (vol.status.perNode self) with
  | (some e, _) => return { err := some e }
  | (none, _) => return { err := some e }

/-- Clear the stale record of a device that is gone. -/
def clearStaleBacking (vol : Volume) : GrowM (Option Err × Volume) := do
  if !(vol.status.perNode self).deviceCreated then return (none, vol)
  else
    match ← call Cmd.deviceExists with
    | .error e => return (some e, vol)
    | .ok true => return (none, vol)
    | .ok false =>
      patchStatus self vol { deviceCreated := false, pool := volumePoolOn vol self }

def createBacking (bytes : Nat) : GrowM (Option RealizeErr) := do
  return (failed (← call (Cmd.createBacking bytes))).map .err

/-- A padded clone grows ahead of the DRBD apply, any other only after the attach. -/
def finishClone (vol : Volume) : GrowM (Option RealizeErr) := do
  match ← createBacking vol.spec.sizeBytes with
  | some e => return some e
  | none =>
    if vol.spec.source.any VolumeSource.padForMetadata then
      return (failed (← call (Cmd.resizeBacking vol.spec.backingBytes))).map .err
    else return none

/-- The backing device: fresh, or cloned from a snapshot for restores. -/
def realizeBacking (vol : Volume) : GrowM (Option RealizeErr) := do
  match vol.spec.source with
  | none => createBacking vol.spec.backingBytes
  | some source =>
    if vol.spec.fullSyncOn self then createBacking vol.spec.backingBytes
    else
      match ← call Cmd.deviceExists with
      | .error e => return some (.err e)
      | .ok true => finishClone vol
      | .ok false =>
        match ← call Cmd.sourceSnapshot with
        | .error e => return some (.err e)
        | .ok false =>
          if vol.spec.drbd && VolumeReconciler.peerCloneRealized self vol then
            createBacking vol.spec.backingBytes
          else return some (.sourceGone source.snapshotName)
        | .ok true =>
          match ← call Cmd.createFromSnapshot with
          | .error e => return some (.err e)
          | .ok () => finishClone vol

/-- Park a restore whose source is gone; any other failure is reported. -/
def reportRealizeError (vol : Volume) : RealizeErr → GrowM Result
  | .sourceGone _ => do
    match ← patchStatus self vol (vol.status.perNode self) with
    | (some e, _) => return { err := some e }
    | (none, _) => return { requeueAfter := VolumeReconciler.restoreOrphanRequeue }
  | .err e => reportError self vol e

def stampDeviceCreated (vol : Volume) : GrowM (Option Err × Volume) :=
  if (vol.status.perNode self).deviceCreated then return (none, vol)
  else patchStatus self vol { deviceCreated := true, pool := volumePoolOn vol self }

def latchActivated (vol : Volume) (st : LegStatus) : GrowM (Except Err Volume) :=
  if !st.primary || vol.status.activated then return .ok vol else call Cmd.patchActivated

/-- Grow the DRBD device over the peers; the size to report and when to come back. -/
def growIfCoordinator (vol : Volume) (st : LegStatus) : GrowM (Except Err (Nat × Nat)) := do
  let reported := slotSize vol self
  if vol.spec.sizeBytes ≤ reported || !coordinates vol.spec self then
    return .ok (vol.spec.sizeBytes, VolumeReconciler.drbdPollInterval)
  else if st.diskState = some .diskless then return .ok (reported, 5 * second)
  else if !VolumeReconciler.peerBackingsGrown self vol || st.resyncing then
    return .ok (reported, 5 * second)
  else
    match ← call Cmd.drbdResize with
    | .error (.other e) => return .error e
    | .error .duringResync => return .ok (reported, 5 * second)
    | .ok () => return .ok (vol.spec.sizeBytes, VolumeReconciler.drbdPollInterval)

/-- Grow the backing, then the DRBD device. -/
def growLeg (vol : Volume) (st : LegStatus) (localDiskless : Bool) :
    GrowM (Except Err (Nat × Nat)) := do
  if localDiskless then growIfCoordinator self vol st
  else
    match ← call (Cmd.resizeBacking vol.spec.backingBytes) with
    | .error e => return .error e
    | .ok () => growIfCoordinator self vol st

/-- The pass once the backing is there: DRBD comes up, and the leg grows after the attach. -/
def settle (vol : Volume) (localDiskless : Bool) : GrowM Result := do
  match ← call Cmd.bringUp with
  | .error e => reportError self vol e
  | .ok st =>
    match ← latchActivated vol st with
    | .error e => return { err := some e }
    | .ok vol =>
      match ← growLeg self vol st localDiskless with
      | .error e => reportError self vol e
      | .ok (size, requeue) =>
        match ← patchStatus self vol {
            deviceCreated := !localDiskless
            sizeBytes := size
            diskState := st.diskState
            diskFailed := !localDiskless && VolumeReconciler.diskFailedLatch self vol st
            pool := if localDiskless then "" else volumePoolOn vol self } with
        | (some e, _) => return { err := some e }
        | (none, _) => return { requeueAfter := requeue }

/-- The backing of a diskful leg, then the rest of the pass. -/
def realize (vol : Volume) : GrowM Result := do
  match ← clearStaleBacking self vol with
  | (some e, vol) => reportError self vol e
  | (none, vol) =>
    match ← realizeBacking self vol with
    | some e => reportRealizeError self vol e
    | none =>
      match ← stampDeviceCreated self vol with
      | (some e, _) => return { err := some e }
      | (none, vol) => settle self vol false

def teardown : GrowM (Except Err Unit) := do
  match ← call Cmd.down with
  | .error e => return .error e
  | .ok () => call Cmd.deleteBacking

/-- A wedge or a long busy streak is parked with a message on the slot. -/
def handleTeardownError (vol : Volume) (e : Err) : GrowM Result := do
  if ← call Cmd.parks then
    match ← patchStatus self vol (vol.status.perNode self) with
    | (some e, _) => return { err := some e }
    | (none, _) => return {}
  else return { err := some e }

/-- Tear down a leg that is no longer placed. -/
def reconcileRemoval (vol : Volume) : GrowM Result := do
  if !(← call Cmd.holdsFinalizer) then return {}
  else if ← call Cmd.removalBlocked then
    match ← patchStatus self vol (vol.status.perNode self) with
    | (some e, _) => return { err := some e }
    | (none, _) => return { requeueAfter := 30 * second }
  else
    match ← teardown with
    | .error e => handleTeardownError self vol e
    | .ok () =>
      match ← call Cmd.dropSlot with
      | .error e => return { err := some e }
      | .ok () => return { err := failed (← call Cmd.removeFinalizer) }

/-- One pass over a replicated volume that is not being deleted. -/
def reconcile : GrowM Result := do
  match ← call Cmd.volume with
  | .error e => return { err := some e }
  | .ok none => return {}
  | .ok (some vol) =>
    if !present vol self then reconcileRemoval self vol
    else if incomplete vol self then return { requeueAfter := 5 * second }
    else if ← call Cmd.fastPath then return {}
    else if localDiskless vol self then settle self vol true
    else realize self vol

end Pass

/-! ## Against the pass of `Volume.Reconcile`

That pass works on the backing and its device with the commands here, and brings DRBD up with finer
ones. -/

section Detail

/-- The commands of `Volume.Reconcile` on a backing and its device, read as commands here. -/
structure Coarsens (h : (c : VolCmd) → GrowM (VolAns c)) : Prop where
  deviceExists : h .deviceExists = call Cmd.deviceExists
  create : ∀ bytes, h (.create bytes) = call (Cmd.createBacking bytes)
  resize : ∀ bytes, h (.resize bytes) = call (Cmd.resizeBacking bytes)
  snapshot : ∀ snap, ∃ source, h (.snapshot snap) = do
    return (← call Cmd.sourceSnapshot).map fun there => if there then some source else none
  createFromSnapshot : ∀ source snap,
    h (.createFromSnapshot source snap) = call Cmd.createFromSnapshot
  drbdResize : h .drbdResize = call Cmd.drbdResize

variable {h : (c : VolCmd) → GrowM (VolAns c)} {self : String} {vol : Volume}

theorem handle_createBacking (hh : Coarsens h) (bytes : Nat) :
    handle h (VolumeReconciler.createBacking bytes) = createBacking bytes := by
  rw [VolumeReconciler.createBacking, handle_call_bind, hh.create]
  rfl

theorem handle_finishClone (hh : Coarsens h) (hd : vol.spec.drbd = true) :
    handle h (VolumeReconciler.finishClone vol) = finishClone vol := by
  rw [VolumeReconciler.finishClone, finishClone, handle_bind, handle_createBacking hh]
  refine congrArg _ (funext fun r => ?_)
  cases r with
  | some e => rfl
  | none =>
    simp only [hd, Bool.true_eq_false, if_false]
    split
    · rw [handle_call_bind, hh.resize]
      rfl
    · rfl

/-- Over a replicated volume the two passes realize a backing alike. -/
theorem handle_realizeBacking (hh : Coarsens h) (hd : vol.spec.drbd = true) :
    handle h (VolumeReconciler.realizeBacking self vol) = realizeBacking self vol := by
  rw [VolumeReconciler.realizeBacking, realizeBacking]
  cases hs : vol.spec.source with
  | none => exact handle_createBacking hh _
  | some source =>
    dsimp only
    split
    · exact handle_createBacking hh _
    rw [handle_call_bind, hh.deviceExists]
    refine congrArg _ (funext fun r => ?_)
    rcases r with e | _ | _
    · rfl
    · obtain ⟨sourceVol, hsnap⟩ := hh.snapshot source.snapshotName
      dsimp only
      rw [handle_call_bind, hsnap, bind_bind]
      refine congrArg _ (funext fun r => ?_)
      rcases r with e | _ | _
      · rfl
      · dsimp only [Except.map, ret_bind, pure_def]
        simp only [Bool.false_eq_true, if_false]
        split
        · exact handle_createBacking hh _
        · rfl
      · simp only [Except.map, ret_bind, pure_def, if_true, hd]
        rw [handle_call_bind, hh.createFromSnapshot]
        refine congrArg _ (funext fun r => ?_)
        cases r with
        | error e => rfl
        | ok _ => exact handle_finishClone hh hd
    · exact handle_finishClone hh hd

theorem coordinates_eq (spec : VolumeSpec) (node : String) :
    coordinates spec node = spec.diskfulReplicas.head?.any fun rep => rep.node = node := by
  rw [coordinates, VolumeSpec.firstDiskful, VolumeSpec.diskfulReplicas, List.head?_filter]

/-- The two passes grow a diskful leg alike. -/
theorem handle_growLeg {st : LegStatus} (hh : Coarsens h) :
    handle h (VolumeReconciler.growLeg self vol st) = growLeg self vol st false := by
  rw [VolumeReconciler.growLeg, growLeg, handle_call_bind, hh.resize]
  refine congrArg _ (funext fun r => ?_)
  cases r with
  | error e => rfl
  | ok _ =>
    dsimp only [VolumeReconciler.growIfCoordinator, growIfCoordinator]
    rw [← coordinates_eq, slotSize]
    split_ifs
    · rfl
    · rfl
    · rfl
    · rw [handle_call_bind, hh.drbdResize]
      refine congrArg _ (funext fun r => ?_)
      rcases r with (_ | e) | _ <;> rfl
end Detail

/-! ## The controller -/

/-- Every diskful slot reports at least the size. -/
def acknowledges (vol : Volume) (size : Nat) : Bool :=
  vol.spec.replicas.all fun rep => rep.diskless || size ≤ slotSize vol rep.node

/-- The wait of `ControllerExpandVolume`, for as many polls as fit into its timeout. -/
def pollGrown (newSize : Nat) : Nat → GrowM Bool
  | 0 => return false
  | polls + 1 => do
    match ← call Cmd.volume with
    | .error _ => return false
    | .ok none => pollGrown newSize polls
    | .ok (some vol) => if acknowledges vol newSize then return true else pollGrown newSize polls

/-- Raise the desired size, unless it is there already. -/
def raiseSize (vol : Volume) (newSize : Nat) : GrowM (Except Err Volume) := do
  if newSize ≤ vol.spec.sizeBytes then return .ok vol
  else
    match ← call (Cmd.expandWithinHeadroom newSize) with
    | .error e => return .error e
    | .ok () => call (Cmd.patchSize newSize)

/-- `ControllerExpandVolume`: the capacity it answers. -/
def expandVolume (required polls : Nat) : GrowM (Except Err Nat) := do
  if required = 0 then return .error (.other "capacity range is required")
  else
    match ← call Cmd.volume with
    | .error e => return .error e
    | .ok none => return .error (.notFound "volume not found")
    | .ok (some vol) =>
      match ← raiseSize vol (alignSector required) with
      | .error e => return .error e
      | .ok vol =>
        if ← pollGrown (alignSector required) polls then
          return .ok (max (alignSector required) vol.spec.sizeBytes)
        else return .error (.other "volume not grown yet")

end Miroir.Growth
