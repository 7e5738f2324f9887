import Miroir.Agent.Generation

/-!
# Staging, and the part of a pass that may discard data

Two flags on a volume's status say that it may hold data. `formatted` is set once it carries a
filesystem, `activated` once it has been staged for a consumer or seen Primary. Staging
(`nodeStageVolume`, or an attempt of the NFS gateway) formats a blank device and sets both flags.
A pass of the volume reconciler looks at them before it lets a leg discard its data in a
split-brain (`recoverSplitBrain`), and mints generations on its way (`mintGenerations`).

A pass is given here from the moment DRBD is up: how the backing gets there is one command
(`bringUp`), and so is the growing of the leg.
-/

namespace Miroir.Latch

open Process Prog

/-! ## Commands -/

/-- The parsed status of the resource with what staging and recovery look at. -/
structure LiveStatus extends DrbdStatus where
  /-- The node ids the status lists. -/
  peerIDs : List Nat
  splitBrain : Bool
  quorum : Bool

/-- Why the staging path could not be inspected. -/
inductive PathErr where
  | notExist
  | other (e : Err)
  deriving DecidableEq, Repr

/-- Why a mount was refused: the device is frozen, or anything else. -/
inductive MountErr where
  | frozen (msg : String)
  | other (msg : String)
  deriving DecidableEq, Repr

/-- A command of staging or of a pass. -/
inductive Cmd where
  /-- The volume, through a client that may cache. -/
  | volume
  /-- The volume, read from the API server. -/
  | liveVolume
  | patchFormatted
  | patchActivated
  | patchStatus (mine : ReplicaStatus)
  | addClientLeg
  | drbdStatus
  | statDevice
  | isLikelyNotMountPoint
  | mkdirAll
  | openDevice
  | getDiskFormat
  | formatAndMount (fsType : String) (flags : List String)
  | mount (fsType : String) (flags : List String)
  /-- Whether `fsck -a` left errors it could not correct. -/
  | fsck
  | restart
  | needResize
  | resizeFs
  /-- Nothing has changed since the last full pass. -/
  | fastPath
  /-- The backing is realized and the resource applied. -/
  | bringUp
  | metadataAdopted
  | initialUUID
  | forcePrimary
  | demote
  /-- The leg is grown; answers the size to report and when to come back. -/
  | growLeg
  /-- A poll interval has gone by since the last recovery of this volume. -/
  | recoveryDue
  | resolveSplitBrain (res : Resource)
  deriving DecidableEq

/-- The answer to a command; a patch returns the object as the API server has it then. -/
abbrev Ans : Cmd → Type
  | .volume | .liveVolume | .patchFormatted | .patchActivated => Except Err Volume
  | .drbdStatus => Except Err LiveStatus
  | .isLikelyNotMountPoint => Except PathErr Bool
  | .getDiskFormat => Except Err String
  | .formatAndMount _ _ | .mount _ _ => Except MountErr Unit
  | .needResize => Except Err Bool
  | .fsck | .fastPath | .metadataAdopted | .recoveryDue => Bool
  | .growLeg => Except Err (Nat × Nat)
  | .patchStatus _ | .addClientLeg | .statDevice | .mkdirAll | .openDevice | .restart | .resizeFs
  | .bringUp | .initialUUID | .forcePrimary | .demote | .resolveSplitBrain _ => Except Err Unit

abbrev LatchM := Prog Cmd Ans

abbrev LatchLog := Log Nat Ans

/-- Facts about the volume that never change, and the nodes of the cluster. -/
structure Config where
  name : String
  nodes : List String
  /-- `spec.export` is set: the volume is served over NFS. -/
  exported : Bool := false
  /-- `spec.allowRemoteAccess`. -/
  remoteAccess : Bool := false
  /-- The node runs no reconciler. -/
  clientOnly : String → Bool := fun _ => false

/-! ## Errors -/

/-- A disk state as `drbdsetup` prints it. -/
def diskText : Option DiskState → String
  | none => ""
  | some .diskless => "Diskless"
  | some .attaching => "Attaching"
  | some .detaching => "Detaching"
  | some .failed => "Failed"
  | some .negotiating => "Negotiating"
  | some .inconsistent => "Inconsistent"
  | some .outdated => "Outdated"
  | some .unknown => "DUnknown"
  | some .consistent => "Consistent"
  | some .upToDate => "UpToDate"

def internal (msg : String) (e : Err) : Status := ⟨.internal, msg ++ ": " ++ Err.msg e⟩

/-! ## The flags -/

def setFormatted (vol : Volume) : Volume :=
  { vol with status := { vol.status with formatted := true } }

def setActivated (vol : Volume) : Volume :=
  { vol with status := { vol.status with activated := true } }

/-- The volume may hold data. -/
def heldData (vol : Volume) : Bool := vol.status.activated || vol.status.formatted

def markFormatted (vol : Volume) : LatchM (Except Err Volume) :=
  if vol.status.formatted then return .ok vol else call Cmd.patchFormatted

def markActivated (vol : Volume) : LatchM (Except Err Volume) :=
  if vol.status.activated then return .ok vol else call Cmd.patchActivated

section Stage

variable (Γ : Config) (self : String)

/-! ## The filesystem -/

/-- The mount flags; a clone's XFS shares its UUID with its source. -/
def xfsCloneMountFlags (vol : Volume) (format : String) (flags : List String) : List String :=
  if format ≠ "xfs" || vol.spec.source.isNone || "nouuid" ∈ flags then flags
  else flags ++ ["nouuid"]

/-- Whether the volume ever carried a filesystem; a restore's "never" is confirmed. -/
def formattedBefore (vol : Volume) : LatchM (Except Status Bool) := do
  if vol.status.formatted || vol.spec.source.isNone then return .ok vol.status.formatted
  else
    match ← call Cmd.liveVolume with
    | .error e => return .error ⟨.unavailable, "volume " ++ vol.name ++
        ": confirming the formatted flag before formatting a restore: " ++ Err.msg e⟩
    | .ok live => return .ok live.status.formatted

/-- The error of a refused mount; a frozen device is restarted first. -/
def mountRefused (vol : Volume) (dev what : String) (e : MountErr) : LatchM Status := do
  match e with
  | .frozen msg =>
    if vol.spec.drbd = false then return ⟨.internal, what ++ " " ++ dev ++ ": " ++ msg⟩
    else
      match ← call Cmd.restart with
      | .error r => return ⟨.internal, "clear leaked filesystem freeze on " ++ dev ++
          " (restart " ++ vol.name ++ "): " ++ Err.msg r⟩
      | .ok () => return ⟨.unavailable, "cleared a leaked filesystem freeze on " ++ dev ++
          " by restarting " ++ vol.name ++ "; retry the stage"⟩
  | .other msg => return ⟨.internal, what ++ " " ++ dev ++ ": " ++ msg⟩

/-- The device reads blank: refuse it if it was formatted before, else make the filesystem. -/
def formatBlank (vol : Volume) (dev fsType : String) (flags : List String) :
    LatchM (Except Status Volume) := do
  match ← formattedBefore vol with
  | .error e => return .error e
  | .ok true => return .error ⟨.dataLoss, "volume " ++ vol.name ++
      " was formatted before but " ++ dev ++ " reads blank — refusing to reformat"⟩
  | .ok false =>
    match ← call (Cmd.formatAndMount fsType (xfsCloneMountFlags vol "" flags)) with
    | .error e => return .error (← mountRefused vol dev "format/mount" e)
    | .ok () =>
      match ← markFormatted vol with
      | .error e => return .error (internal "record formatted flag" e)
      | .ok vol => return .ok vol

/-- The device carries a filesystem: record that, check it and mount it. -/
def mountFormatted (vol : Volume) (dev format fsType : String) (flags : List String) :
    LatchM (Except Status Volume) := do
  match ← markFormatted vol with
  | .error e => return .error (internal "record formatted flag" e)
  | .ok vol =>
    if ← call Cmd.fsck then
      return .error ⟨.internal, "fsck found errors on " ++ dev ++ " it could not correct"⟩
    else
      match ← call (Cmd.mount fsType (xfsCloneMountFlags vol format flags)) with
      | .error e => return .error (← mountRefused vol dev "mount" e)
      | .ok () => return .ok vol

/-- The staging path is no mount point, and is created if it is not there. -/
def notMounted : LatchM (Except Status Bool) := do
  match ← call Cmd.isLikelyNotMountPoint with
  | .ok notMnt => return .ok notMnt
  | .error .notExist =>
    match ← call Cmd.mkdirAll with
    | .error e => return .error (internal "mkdir staging path" e)
    | .ok () => return .ok true
  | .error (.other e) => return .error (internal "inspect staging path" e)

/-- The probe decides whether the device is formatted or mounted. -/
def mountDevice (vol : Volume) (dev fsType : String) (flags : List String) :
    LatchM (Except Status Volume) := do
  match ← call Cmd.openDevice with
  | .error e => return .error ⟨.unavailable, "device " ++ dev ++
      " not writable (is the volume in use on another node?): " ++ Err.msg e⟩
  | .ok () =>
    match ← call Cmd.getDiskFormat with
    | .error e => return .error (internal ("probe filesystem on " ++ dev) e)
    | .ok format =>
      if format = "" then formatBlank vol dev fsType flags
      else mountFormatted vol dev format fsType flags

/-- Grow the filesystem to fill the device, and record that a consumer may write. -/
def growAndActivate (vol : Volume) (dev : String) : LatchM (Option Status) := do
  match ← call Cmd.needResize with
  | .error e => return some (internal ("check filesystem size on " ++ dev) e)
  | .ok need =>
    match ← (if need then call Cmd.resizeFs else pure (.ok ())) with
    | .error e => return some (internal ("grow filesystem on " ++ dev) e)
    | .ok () =>
      match ← markActivated vol with
      | .error e => return some (internal "record activated flag" e)
      | .ok _ => return none

/-- Mount the device unless it is mounted, then grow the filesystem and set the latch. -/
def ensureFilesystem (vol : Volume) (dev fsType : String) (flags : List String) :
    LatchM (Option Status) := do
  match ← notMounted with
  | .error e => return some e
  | .ok true =>
    match ← mountDevice vol dev fsType flags with
    | .error e => return some e
    | .ok vol => growAndActivate vol dev
  | .ok false =>
    match ← markFormatted vol with
    | .error e => return some (internal "record formatted flag" e)
    | .ok vol => growAndActivate vol dev

/-! ## The device -/

def getVolume : LatchM (Except Status Volume) := do
  match ← call Cmd.volume with
  | .ok vol => return .ok vol
  | .error (.notFound _) => return .error ⟨.notFound, "volume " ++ Γ.name ++ " not found"⟩
  | .error e => return .error ⟨.unavailable, "volume " ++ Γ.name ++ " lookup: " ++ Err.msg e⟩

/-- The hold on a never-written volume that is being recovered from a split-brain. -/
def holdForSplitRecovery (vol : Volume) (live : LiveStatus) : Option Status :=
  if heldData vol || diskfulPeersConnected live.toDrbdStatus vol self then none
  else (Γ.nodes.find? fun n => (vol.status.perNode n).splitBrain).map fun n =>
    ⟨.unavailable, "volume " ++ vol.name ++
      " is recovering from split-brain (reported by node " ++ n ++ ")"⟩

/-- The local replica's device, if the replica holds current data. -/
def device : LatchM (Except Status (String × Volume)) := do
  match ← getVolume Γ with
  | .error e => return .error e
  | .ok vol =>
    match vol.spec.replicas.find? fun rep => rep.node = self with
    | none => return .error ⟨.failedPrecondition,
        "volume " ++ Γ.name ++ " has no replica on node " ++ self⟩
    | some rep =>
      let slot := vol.status.perNode self
      if rep.diskless then return .error ⟨.failedPrecondition,
        "node " ++ self ++ " is a diskless tie-breaker; cannot stage volume " ++ Γ.name⟩
      else if !slot.deviceCreated || slot.devicePath = "" then return .error ⟨.unavailable,
        "volume " ++ Γ.name ++ " device not ready on node " ++ self⟩
      else if vol.spec.drbd = false then return .ok (slot.devicePath, vol)
      else
        match ← call Cmd.drbdStatus with
        | .error e => return .error ⟨.unavailable, "volume " ++ Γ.name ++
            " DRBD state unreadable on node " ++ self ++ ": " ++ Err.msg e⟩
        | .ok live =>
          if live.splitBrain then return .error ⟨.failedPrecondition, "volume " ++ Γ.name ++
            " is split-brain on node " ++ self ++ " — manual resolution required"⟩
          else if live.diskState ≠ some .upToDate then return .error ⟨.unavailable,
            "volume " ++ Γ.name ++ " is " ++ diskText live.diskState ++ " on node " ++ self ++
              " (want UpToDate)"⟩
          else
            match holdForSplitRecovery Γ self vol live with
            | some e => return .error e
            | none => return .ok (slot.devicePath, vol)

/-- Some completed diskful replica is connected and UpToDate. -/
def anyUpToDatePeerLive (vol : Volume) (live : LiveStatus) : Bool :=
  vol.spec.replicas.any fun rep => gatedPeer self rep && live.peerConnected rep.nodeID &&
    live.peerDiskState rep.nodeID = some .upToDate

/-- The device of a diskless leg, if a replica with current data can serve it. -/
def disklessDevicePath (vol : Volume) : LatchM (Except Status (String × Volume)) := do
  let slot := vol.status.perNode self
  if slot.devicePath = "" then return .error ⟨.unavailable, "volume " ++ vol.name ++
    " diskless leg not realized on node " ++ self⟩
  else
    match ← call Cmd.drbdStatus with
    | .error e => return .error ⟨.unavailable, "volume " ++ vol.name ++
        " DRBD state unreadable on node " ++ self ++ ": " ++ Err.msg e⟩
    | .ok live =>
      if live.splitBrain then return .error ⟨.failedPrecondition, "volume " ++ vol.name ++
        " is split-brain on node " ++ self ++ " — manual resolution required"⟩
      else if !live.quorum then return .error ⟨.unavailable, "volume " ++ vol.name ++
        " has no quorum on node " ++ self⟩
      else if !anyUpToDatePeerLive self vol live then return .error ⟨.unavailable,
        "volume " ++ vol.name ++ " has no reachable UpToDate replica from node " ++ self⟩
      else
        match holdForSplitRecovery Γ self vol live with
        | some e => return .error e
        | none => return .ok (slot.devicePath, vol)

def addClientLeg (vol : Volume) : LatchM (Option Status) := do
  if vol.spec.drbd = false then return some ⟨.failedPrecondition, "volume " ++ vol.name ++
    " is unreplicated; it cannot serve remote consumers"⟩
  else if 2 ≤ vol.spec.clients.length then return some ⟨.resourceExhausted, "volume " ++ vol.name ++
    " already has " ++ toString vol.spec.clients.length ++
    " client legs — remove a stale one to attach on " ++ self⟩
  else
    match ← call Cmd.addClientLeg with
    | .error e => return some ⟨.unavailable, "add client leg for " ++ vol.name ++ " on " ++ self ++
        ": " ++ Err.msg e⟩
    | .ok () => return none

/-- The device of a diskless client; its leg is added first. -/
def clientDevicePath (vol : Volume) : LatchM (Except Status (String × Volume)) := do
  if Γ.clientOnly self then return .error ⟨.failedPrecondition, "volume " ++ vol.name ++
    " cannot be consumed remotely from node " ++ self ++
    ": the node is not in the storage topology"⟩
  else if (vol.spec.clientForNode self).isSome then disklessDevicePath Γ self vol
  else
    match ← addClientLeg self vol with
    | some e => return .error e
    | none => return .error ⟨.unavailable, "volume " ++ vol.name ++
        ": attaching diskless client leg on node " ++ self⟩

/-- The device that serves the volume on this node. -/
def devicePath : LatchM (Except Status (String × Volume)) := do
  match ← getVolume Γ with
  | .error e => return .error e
  | .ok vol =>
    match vol.spec.replicas.find? fun rep => rep.node = self with
    | none => if Γ.remoteAccess then clientDevicePath Γ self vol else device Γ self
    | some rep =>
      if rep.diskless && Γ.remoteAccess then disklessDevicePath Γ self vol else device Γ self

/-! ## Stage attempts -/

/-- `NodeStageVolume` for a block volume, or for one with a filesystem of type `fsType`. -/
def nodeStageVolume (fsType : Option String) (flags : List String) : LatchM (Option Status) := do
  match ← getVolume Γ with
  | .error e => return some e
  | .ok _ =>
    -- An exported volume is only mounted over NFS here.
    if Γ.exported then return none
    else
      match ← devicePath Γ self with
      | .error e => return some e
      | .ok (dev, vol) =>
        match fsType with
        | none =>
          match ← call Cmd.statDevice with
          | .error e => return some ⟨.unavailable, "block device " ++ dev ++ " not ready: " ++
              Err.msg e⟩
          | .ok () =>
            match ← markActivated vol with
            | .error e => return some (internal "record activated flag" e)
            | .ok _ => return none
        | some fsType => ensureFilesystem vol dev fsType flags

/-- One attempt of the gateway's staging loop. -/
def gatewayStage (fsType : String) : LatchM (Option Status) := do
  match ← device Γ self with
  | .error e => return some e
  | .ok (dev, vol) =>
    if Γ.exported then ensureFilesystem vol dev fsType []
    else return some ⟨.internal, "volume " ++ Γ.name ++ " has no spec.export (not an RWX volume)"⟩

end Stage

/-! ## A pass of the volume reconciler -/

section Pass

variable (Γ : Config) (self : String)

/-- The birth generation, where it is pending. -/
def mintBirthUUID (vol : Volume) (st : LiveStatus) : LatchM (Except Err LiveStatus) := do
  if mintsBirth vol st.toDrbdStatus self then
    match ← call Cmd.initialUUID with
    | .error e => return .error e
    | .ok () => call Cmd.drbdStatus
  else return .ok st

/-- `primary --force`, and back to `secondary`. -/
def forceFullSyncSource : LatchM (Except Err Unit) := do
  match ← call Cmd.forcePrimary with
  | .error e => return .error e
  | .ok () => call Cmd.demote

/-- The generation of a padded restore's seed; one stuck Primary is demoted. -/
def mintRestoreSeedUUID (vol : Volume) (st : LiveStatus) : LatchM (Except Err LiveStatus) := do
  let diskless := localDiskless vol self
  if restoreSeedStuckPrimary vol st.toDrbdStatus self diskless then
    match ← call Cmd.demote with
    | .error _ => return .ok st
    | .ok () => call Cmd.drbdStatus
  -- The marker is read only on a seed that is Inconsistent.
  else if paddedSeed vol self diskless && st.diskState = some .inconsistent then
    let adopted ← call Cmd.metadataAdopted
    if restoreSeedPending Γ.nodes st.peerIDs vol st.toDrbdStatus self diskless adopted then
      match ← forceFullSyncSource with
      | .error e => return .error e
      | .ok () => call Cmd.drbdStatus
    else return .ok st
  else return .ok st

/-- The one-time mints, and the status after them. -/
def mintGenerations (vol : Volume) (st : LiveStatus) : LatchM (Except Err LiveStatus) := do
  match ← mintBirthUUID self vol st with
  | .error e => return .error e
  | .ok st => mintRestoreSeedUUID Γ self vol st

def latchActivated (vol : Volume) (st : LiveStatus) : LatchM (Except Err Volume) :=
  if !st.primary || vol.status.activated then return .ok vol else call Cmd.patchActivated

def peerReportedSplitBrain (vol : Volume) : Bool :=
  Γ.nodes.any fun n => n ≠ self && (vol.status.perNode n).splitBrain

/-- Recover from a split-brain, unless the volume may hold data; an error is logged only. -/
def recoverSplitBrain (vol : Volume) (res : Resource) : LatchM Unit := do
  if ← call Cmd.recoveryDue then
    if heldData vol then return ()
    else
      let _ ← call (Cmd.resolveSplitBrain res)
  else return ()

/-- A split-brain, reported by the own leg or by a peer. -/
def handleSplitBrain (vol : Volume) (res : Resource) (st : LiveStatus) (connected : Bool) :
    LatchM Unit :=
  if st.splitBrain || (!connected && peerReportedSplitBrain Γ self vol) then
    recoverSplitBrain vol res
  else return ()

/-- Record the error on the own status slot and return it. -/
def reportError (vol : Volume) (e : Err) : LatchM Result := do
  match ← call (Cmd.patchStatus (vol.status.perNode self)) with
  | .error e => return { err := some e }
  | .ok () => return { err := some e }

/-- The pass once DRBD is up. -/
def settle (vol : Volume) (st : LiveStatus) : LatchM Result := do
  match ← latchActivated vol st with
  | .error e => return { err := some e }
  | .ok vol =>
    match ← call Cmd.growLeg with
    | .error e => reportError self vol e
    | .ok (size, requeue) =>
      let diskless := localDiskless vol self
      handleSplitBrain Γ self vol (drbdResource vol self diskless) st
        (diskfulPeersConnected st.toDrbdStatus vol self)
      match ← call (Cmd.patchStatus {
          deviceCreated := !diskless
          devicePath := (vol.status.perNode self).devicePath
          sizeBytes := size
          diskState := st.diskState
          splitBrain := st.splitBrain
          pool := if diskless then "" else volumePoolOn vol self }) with
      | .error e => return { err := some e }
      | .ok () => return { requeueAfter := requeue }

/-- One pass over a replicated volume with a leg on this node. -/
def reconcile : LatchM Result := do
  match ← call Cmd.volume with
  | .error (.notFound _) => return {}
  | .error e => return { err := some e }
  | .ok vol =>
    if !present vol self then return {}
    else if incomplete vol self then return { requeueAfter := 5 * second }
    else if ← call Cmd.fastPath then return {}
    else
      match ← call Cmd.bringUp with
      | .error e => reportError self vol e
      | .ok () =>
        match ← call Cmd.drbdStatus with
        | .error e => reportError self vol e
        | .ok st =>
          match ← mintGenerations Γ self vol st with
          | .error e => reportError self vol e
          | .ok st => settle Γ self vol st

end Pass

end Miroir.Latch
