import Miroir.Agent.Round
import Miroir.Volume.Size

/-!
# The volume reconciler

How an agent brings up the diskful leg of one volume: probe and realize the backing device, make
sure DRBD metadata is on it, attach it, and grow it. A pass works on one volume on one node, and its
commands are about that volume and node. Metadata is guarded by marker files that outlive a
backing, so every function tells apart what is on disk and what the markers say.

Other parts of the pass are spelled out elsewhere: the sizes and the removal of a leg in
`Growth.Pass`, the mints and the latch in `Latch.Program`, minors in `Drbd.Minor`. The backing and
the growth are the same in all (`Growth.handle_realizeBacking`, `Growth.handle_growLeg`), and
`Volume.FastPath` has the pass as a function of its answers (`eval_growLeg`).
-/

namespace Miroir

open Process Prog

/-- The marker files of a resource: `.md-created`, `.md-seeding`, `.md-adopted`, `.md-wiped`. -/
inductive Marker where
  | created | seeding | adopted | wiped
  deriving DecidableEq, Repr

/-- What `dump-md` says: no valid metadata, metadata that is in use, or metadata at rest, which is
virgin if no Primary has ever written behind it. -/
inductive Dump where
  | missing | stale
  | found (virgin : Bool)
  deriving DecidableEq, Repr

/-- Why `drbdadm adjust` failed, by what the caller tells apart. -/
inductive AdjustErr where
  | missingMetadata | unknownResource
  | other (msg : String)
  deriving DecidableEq, Repr

/-- Why `drbdadm resize` failed. -/
inductive ResizeErr where
  | duringResync
  | other (e : Err)
  deriving DecidableEq, Repr

/-- What the pass looks at in its leg's `drbdsetup status`. -/
structure LegStatus where
  primary : Bool := false
  diskState : Option DiskState := none
  resyncing : Bool := false
  deriving DecidableEq, Repr

/-- A command of a volume pass. -/
inductive VolCmd where
  /-- The volume, through the informer cache. -/
  | volume
  /-- Nothing has changed since the last full pass. -/
  | fastPath
  | deviceExists
  | create (bytes : Nat)
  | resize (bytes : Nat)
  | createFromSnapshot (source snap : String)
  /-- The volume of a snapshot, through the informer cache. -/
  | snapshot (snap : String)
  | patchStatus (mine : ReplicaStatus)
  | patchActivated
  | stat (m : Marker)
  | touch (m : Marker)
  | remove (m : Marker)
  /-- The kernel holds the leg's backing; an unreadable status counts as no. -/
  | attached
  | dumpMd
  | createMd
  | wipeMd
  /-- The config is written and the peers that leave are recorded. -/
  | prepare
  | adjust (skipDisk : Bool)
  | up
  /-- Left peers are forgotten and the device node is there. -/
  | finishApply
  | status
  /-- The one-time generation mints, and the status after them. -/
  | mint
  | drbdResize
  deriving DecidableEq

/-- The answer to a command. -/
abbrev VolAns : VolCmd → Type
  | .volume => Except Err (Option Volume)
  | .fastPath | .attached => Bool
  | .deviceExists | .stat _ => Except Err Bool
  | .snapshot _ => Except Err (Option String)
  | .dumpMd => Except Err Dump
  | .adjust _ => Except AdjustErr Unit
  | .status | .mint => Except Err LegStatus
  | .create _ | .resize _ | .createFromSnapshot _ _ | .patchStatus _ | .patchActivated | .touch _
  | .remove _ | .createMd | .wipeMd | .prepare | .up | .finishApply => Except Err Unit
  | .drbdResize => Except ResizeErr Unit

/-- A step of a volume pass. -/
abbrev VolM := Prog VolCmd VolAns

abbrev VolLog := Log Nat VolAns

/-- The command's error, if it failed. -/
def failed {α : Type} : Except Err α → Option Err
  | .error e => some e
  | .ok _ => none

/-- Whether the leg on `node` is a full-sync joiner. -/
def VolumeSpec.fullSyncOn (spec : VolumeSpec) (node : String) : Bool :=
  (spec.diskfulReplicas.find? fun rep => rep.node = node).any Replica.fullSync

/-! ## Metadata -/

namespace Driver

/-- What is on the backing: metadata or not, in use or not, virgin or not. -/
def probeMetadata : VolM (Except Err (Bool × Bool × Bool)) := do
  if ← call VolCmd.attached then return .ok (true, true, false)
  match ← call VolCmd.dumpMd with
  | .error e => return .error e
  | .ok .missing => return .ok (false, false, false)
  | .ok .stale => return .ok (true, true, false)
  | .ok (.found virgin) => return .ok (true, false, virgin)

/-- `os.WriteFile` of a marker, and its error. -/
def mark (m : Marker) : VolM (Option Err) := do return failed (← call (VolCmd.touch m))

/-- Metadata on the backing: adopted if it was there, else created under the sentinel. -/
def ensureMetadata : VolM (Option Err) := do
  match ← probeMetadata with
  | .error e => return some e
  | .ok (hasMD, attached, virgin) =>
    -- A previous life completed bring-up: never touch live metadata.
    if attached then mark .adopted
    else
      match ← call (VolCmd.stat .seeding) with
      | .error e => return some e
      | .ok seeding =>
        if hasMD && !seeding && !virgin then mark .adopted
        else
          match ← mark .seeding with
          | some e => return some e
          | none => if hasMD then return none else return failed (← call VolCmd.createMd)

/-- Metadata, unless the marker says that it is there. -/
def ensureMarkedMetadata : VolM (Option Err) := do
  match ← call (VolCmd.stat .created) with
  | .error e => return some e
  | .ok created =>
    match ← (if created then pure none else ensureMetadata) with
    | some e => return some e
    | none =>
      -- The sentinel goes before the marker lands, so that it never outlives a completed seed.
      match ← call (VolCmd.remove .seeding) with
      | .error e => return some e
      | .ok () => mark .created

def finishApply : VolM (Option Err) := do return failed (← call VolCmd.finishApply)

/-- `up` after an adjust that found no resource; any other error of adjust is final. -/
def upAfter (cause : AdjustErr) : VolM (Option Err) := do
  match cause with
  | .unknownResource =>
    match ← call VolCmd.up with
    | .error e => return some e
    | .ok () => finishApply
  | .missingMetadata => return some (.other "adjust: no valid meta-data")
  | .other msg => return some (.other msg)

/-- Converge the kernel state of the resource; `skipDisk` leaves a latched-failed disk alone. -/
def apply (skipDisk : Bool) : VolM (Option Err) := do
  match ← call VolCmd.prepare with
  | .error e => return some e
  | .ok () =>
    match ← (if skipDisk then pure none else ensureMarkedMetadata) with
    | some e => return some e
    | none =>
      match ← call (VolCmd.adjust skipDisk) with
      | .ok () => finishApply
      | .error cause =>
        -- A marker that survived its backing: drop it and create metadata on the blank one.
        if cause = .missingMetadata ∧ skipDisk = false then
          match ← call (VolCmd.remove .created) with
          | .error e => return some e
          | .ok () =>
            match ← ensureMarkedMetadata with
            | some e => return some e
            | none =>
              match ← call (VolCmd.adjust false) with
              | .ok () => finishApply
              | .error cause => upAfter cause
        else upAfter cause

/-- Rid an unreplicated volume's backing of the metadata a replicated source's clone carries. -/
def wipeForeignMetadata : VolM (Option Err) := do
  match ← call (VolCmd.stat .wiped) with
  | .error e => return some e
  | .ok true => return none
  | .ok false =>
    match ← call VolCmd.dumpMd with
    | .error e => return some e
    | .ok .missing => mark .wiped
    | .ok _ =>
      match ← call VolCmd.wipeMd with
      | .error e => return some e
      | .ok () => mark .wiped

end Driver

/-! ## The backing -/

/-- Why a backing was not realized. -/
inductive RealizeErr where
  | sourceGone (snap : String)
  | err (e : Err)
  deriving DecidableEq, Repr

namespace VolumeReconciler

variable (node : String)

/-- A full pass at least this often, so that drift of the backend surfaces. -/
def deepCheckInterval : Nat := 300 * second

def drbdPollInterval : Nat := 30 * second

def restoreOrphanRequeue : Nat := 300 * second

/-- Patch the own status slot; the copy in hand changes with it. -/
def patchStatus (vol : Volume) (mine : ReplicaStatus) : VolM (Except Err Volume) := do
  match ← call (VolCmd.patchStatus mine) with
  | .error e => return .error e
  | .ok () => return .ok { vol with
      status := { vol.status with perNode := Function.update vol.status.perNode node mine } }

/-- Clear the stale record of a device that is gone. -/
def clearStaleBacking (vol : Volume) : VolM (Except Err Volume) := do
  let prev := vol.status.perNode node
  if prev.deviceCreated then
    match ← call VolCmd.deviceExists with
    | .error e => return .error e
    | .ok true => return .ok vol
    | .ok false => patchStatus node vol { deviceCreated := false, pool := volumePoolOn vol node }
  else return .ok vol

/-- Another replica that is no full-sync joiner has realized its backing. -/
def peerCloneRealized (vol : Volume) : Bool :=
  vol.spec.diskfulReplicas.any fun rep =>
    rep.node ≠ node && !rep.fullSync && (vol.status.perNode rep.node).deviceCreated

/-- `be.Create`, which also activates a device that is there. -/
def createBacking (bytes : Nat) : VolM (Option RealizeErr) := do
  return (failed (← call (VolCmd.create bytes))).map .err

/-- Activate the clone; wipe or pad it as the volume needs. -/
def finishClone (vol : Volume) : VolM (Option RealizeErr) := do
  match ← createBacking vol.spec.sizeBytes with
  | some e => return some e
  | none =>
    if vol.spec.drbd = false then return (← Driver.wipeForeignMetadata).map .err
    else if vol.spec.source.any VolumeSource.padForMetadata then
      return (failed (← call (VolCmd.resize vol.spec.backingBytes))).map .err
    else return none

/-- The backing device: fresh, or cloned from a snapshot for restores. -/
def realizeBacking (vol : Volume) : VolM (Option RealizeErr) := do
  match vol.spec.source with
  | none => createBacking vol.spec.backingBytes
  | some source =>
    if vol.spec.fullSyncOn node then createBacking vol.spec.backingBytes
    else
      match ← call VolCmd.deviceExists with
      | .error e => return some (.err e)
      | .ok true => finishClone vol
      | .ok false =>
        match ← call (VolCmd.snapshot source.snapshotName) with
        | .error e => return some (.err e)
        | .ok none =>
          -- A peer's clone holds the data: a fresh backing full-syncs from it.
          if vol.spec.drbd && peerCloneRealized node vol then createBacking vol.spec.backingBytes
          else return some (.sourceGone source.snapshotName)
        | .ok (some sourceVol) =>
          match ← (if vol.spec.drbd then pure (.ok ()) else call (VolCmd.remove .wiped)) with
          | .error e => return some (.err e)
          | .ok () =>
            match ← call (VolCmd.createFromSnapshot sourceVol source.snapshotName) with
            | .error e => return some (.err e)
            | .ok () => finishClone vol

def stampDeviceCreated (vol : Volume) : VolM (Except Err Volume) := do
  let prev := vol.status.perNode node
  if prev.deviceCreated then return .ok vol
  else patchStatus node vol { deviceCreated := true, pool := volumePoolOn vol node }

def latchActivated (vol : Volume) (st : LegStatus) : VolM (Option Err) := do
  if !st.primary || vol.status.activated then return none
  else return failed (← call VolCmd.patchActivated)

/-- Every peer has realized the desired size. -/
def peerBackingsGrown (vol : Volume) : Bool :=
  vol.spec.replicas.all fun rep => rep.node = node || rep.diskless ||
    vol.spec.sizeBytes ≤ (vol.status.perNode rep.node).sizeBytes

/-- Grow the DRBD device over the peers; returns the size to report and when to come back. -/
def growIfCoordinator (vol : Volume) (st : LegStatus) : VolM (Except Err (Nat × Nat)) := do
  let realized := (vol.status.perNode node).sizeBytes
  let coordinator := vol.spec.diskfulReplicas.head?.any fun rep => rep.node = node
  if vol.spec.sizeBytes ≤ realized || !coordinator then
    return .ok (vol.spec.sizeBytes, drbdPollInterval)
  else if st.diskState = some .diskless then return .ok (realized, 5 * second)
  else if !peerBackingsGrown node vol || st.resyncing then return .ok (realized, 5 * second)
  else
    match ← call VolCmd.drbdResize with
    | .error (.other e) => return .error e
    | .error .duringResync => return .ok (realized, 5 * second)
    | .ok () => return .ok (vol.spec.sizeBytes, drbdPollInterval)

/-- Grow the backing, then the DRBD device. -/
def growLeg (vol : Volume) (st : LegStatus) : VolM (Except Err (Nat × Nat)) := do
  match ← call (VolCmd.resize vol.spec.backingBytes) with
  | .error e => return .error e
  | .ok () => growIfCoordinator node vol st

/-- DRBD dropped the leg's disk after an I/O error; sticky. -/
def diskFailedLatch (vol : Volume) (st : LegStatus) : Bool :=
  let prev := vol.status.perNode node
  st.diskState = some .diskless &&
    (prev.diskFailed || (prev.diskState.isSome && prev.diskState ≠ some .diskless))

/-- Record the error on the own status slot and return it. -/
def reportError (vol : Volume) (e : Err) : VolM Result := do
  match ← patchStatus node vol (vol.status.perNode node) with
  | .error e => return { err := some e }
  | .ok _ => return { err := some e }

/-- Park a restore whose source is gone; any other failure is reported. -/
def reportRealizeError (vol : Volume) : RealizeErr → VolM Result
  | .sourceGone _ => do
    match ← patchStatus node vol (vol.status.perNode node) with
    | .error e => return { err := some e }
    | .ok _ => return { requeueAfter := restoreOrphanRequeue }
  | .err e => reportError node vol e

/-- The unreplicated rest of a pass: the backing is the device. -/
def finishPlain (vol : Volume) : VolM Result := do
  match ← call (VolCmd.resize vol.spec.sizeBytes) with
  | .error e => reportError node vol e
  | .ok () =>
    match ← patchStatus node vol {
        deviceCreated := true
        sizeBytes := vol.spec.sizeBytes
        pool := volumePoolOn vol node } with
    | .error e => return { err := some e }
    | .ok _ => return { requeueAfter := deepCheckInterval }

/-- The replicated rest of a pass: layer DRBD on the backing and grow it after the attach. -/
def finishReplicated (vol : Volume) : VolM Result := do
  match ← Driver.apply (vol.status.perNode node).diskFailed with
  | some e => reportError node vol e
  | none =>
    match ← call VolCmd.status with
    | .error e => reportError node vol e
    | .ok _ =>
      match ← call VolCmd.mint with
      | .error e => reportError node vol e
      | .ok st =>
        match ← latchActivated vol st with
        | some e => return { err := some e }
        | none =>
          match ← growLeg node vol st with
          | .error e => reportError node vol e
          | .ok (size, requeue) =>
            match ← patchStatus node vol {
                deviceCreated := true
                sizeBytes := size
                diskState := st.diskState
                diskFailed := diskFailedLatch node vol st
                pool := volumePoolOn vol node } with
            | .error e => return { err := some e }
            | .ok _ => return { requeueAfter := requeue }

/-- One pass over a volume with a diskful leg on this node. -/
def reconcile (a : Agent) : VolM Result := do
  match ← call VolCmd.volume with
  | .error e => return { err := some e }
  | .ok none => return {}
  | .ok (some vol) =>
    match vol.spec.diskfulReplicas.find? fun rep => rep.node = a.node with
    | none => return {}
    | some rep =>
      if vol.spec.drbd && rep.address = "" then return { requeueAfter := 5 * second }
      else if ← call VolCmd.fastPath then return {}
      else
        match backendFor a vol with
        | .error e => reportError a.node vol e
        | .ok _ =>
          match ← clearStaleBacking a.node vol with
          | .error e => reportError a.node vol e
          | .ok vol =>
            match ← realizeBacking a.node vol with
            | some e => reportRealizeError a.node vol e
            | none =>
              match ← stampDeviceCreated a.node vol with
              | .error e => return { err := some e }
              | .ok vol =>
                if vol.spec.drbd then finishReplicated a.node vol else finishPlain a.node vol

end VolumeReconciler

end Miroir
