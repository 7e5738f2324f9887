import Mathlib.Data.List.Destutter
import Mathlib.Data.List.Sort
import Miroir.Api
import Miroir.Process.Program

/-!
# The group RPCs of the CSI controller

`CreateVolumeGroupSnapshot` ensures one `MiroirSnapshot` for every source volume and then creates
the `MiroirSnapshotGroup` that lists them; `DeleteVolumeGroupSnapshot` deletes the group and then
its members. A create that fails halfway takes back what it has ensured: on a member's failure
unless the informer shows the group (`cleanupPartialMembers`), and on finding a group of that name
over other members, what that group does not list (`cleanupStrayMembers`).

Objects are read through the informer (`cached…`) or from the API server (`get…`).
-/

namespace Miroir.Csi

open Process Prog

/-! ## Commands -/

/-- Why the API server refuses a request. -/
inductive ApiErr where
  | notFound
  | alreadyExists
  | invalid (text : String)
  | other (text : String)
  deriving DecidableEq, Repr

def ApiErr.text : ApiErr → String
  | .notFound => "not found"
  | .alreadyExists => "already exists"
  | .invalid text | .other text => text

/-- A command of the group RPCs. -/
inductive Cmd where
  | cachedVolume (id : String)
  | cachedSnapshot (x : String)
  | cachedGroup (g : String)
  | getSnapshot (x : String)
  | getGroup (g : String)
  | createSnapshot (x volume group : String) (finalizers : List String)
  | createGroup (g : String) (names finalizers : List String)
  | deleteSnapshot (x : String)
  | deleteGroup (g : String)
  deriving DecidableEq

abbrev Ans : Cmd → Type
  | .cachedVolume _ => Except ApiErr Volume
  | .cachedSnapshot _ | .getSnapshot _ | .createSnapshot .. => Except ApiErr Snapshot
  | .cachedGroup _ | .getGroup _ | .createGroup .. => Except ApiErr SnapshotGroup
  | .deleteSnapshot _ | .deleteGroup _ => Except ApiErr Unit

abbrev RpcM := Prog Cmd Ans

abbrev RpcLog := Log Nat Ans

/-! ## Responses -/

/-- `csi.Snapshot`, but for its creation time. -/
structure MemberSnapshot where
  snapshotID : String
  sourceVolumeID : String
  sizeBytes : Nat
  readyToUse : Bool
  groupSnapshotID : String
  deriving DecidableEq, Repr

/-- What `CreateVolumeGroupSnapshot` answers. -/
structure VolumeGroupSnapshot where
  groupSnapshotID : String
  snapshots : List MemberSnapshot
  readyToUse : Bool
  deriving DecidableEq, Repr

def csiSnapshot (snap : Snapshot) (sizeBytes : Nat) : MemberSnapshot :=
  ⟨snap.name, snap.volumeName, sizeBytes, snap.status.readyToUse, snap.group⟩

def csiGroupSnapshot (grp : SnapshotGroup) (members : List (Snapshot × Volume)) :
    VolumeGroupSnapshot where
  groupSnapshotID := grp.name
  snapshots := members.map fun m => csiSnapshot m.1
    (if m.1.status.sizeBytes = 0 then m.2.spec.sizeBytes else m.1.status.sizeBytes)
  readyToUse := grp.status.readyToUse && members.all fun m => m.1.status.readyToUse

/-- A list of names, as a message shows it. -/
def showNames (names : List String) : String := "[" ++ " ".intercalate names ++ "]"

/-! ## Create -/

def requireVolume (id : String) : RpcM (Except Status Volume) := do
  if id = "" then return .error ⟨.invalidArgument, "volume id is required"⟩
  else
    match ← call (Cmd.cachedVolume id) with
    | .ok vol => return .ok vol
    | .error .notFound => return .error ⟨.notFound, "volume " ++ id ++ " not found"⟩
    | .error e => return .error ⟨.internal, "get volume: " ++ e.text⟩

/-- The source volumes; all of them are replicated. -/
def requireVolumes : List String → RpcM (Except Status (List Volume))
  | [] => return .ok []
  | id :: ids => do
    match ← requireVolume id with
    | .error st => return .error st
    | .ok vol =>
      if !vol.spec.drbd then
        return .error
          ⟨.invalidArgument, "volume " ++ id ++ " is not replicated: group snapshots " ++
          "need the DRBD write barrier (replicas > 1)"⟩
      else
        match ← requireVolumes ids with
        | .error st => return .error st
        | .ok vols => return .ok (vol :: vols)

/-- `ensureSnapshot` of a snapshot that no volume owns. -/
def ensureSnapshot (name : String) (vol : Volume) (group : String) :
    RpcM (Except Status Snapshot) := do
  match ← call (Cmd.createSnapshot name vol.name group (vol.spec.replicas.map Replica.node)) with
  | .ok snap => return .ok snap
  | .error (.invalid text) => return .error ⟨.invalidArgument, "create MiroirSnapshot: " ++ text⟩
  | .error .alreadyExists =>
    match ← call (Cmd.getSnapshot name) with
    | .error e => return .error ⟨.unavailable, "get existing snapshot: " ++ e.text⟩
    | .ok existing =>
      if existing.volumeName ≠ vol.name || existing.group ≠ group then
        return .error ⟨.alreadyExists, "snapshot " ++ name ++ " exists for volume " ++
          existing.volumeName ++ " in group " ++ existing.group.quote⟩
      else return .ok existing
  | .error e => return .error ⟨.internal, "create MiroirSnapshot: " ++ e.text⟩

def otherMembers (group : String) (existing : SnapshotGroup) : Status :=
  ⟨.alreadyExists, "group snapshot " ++ group ++ " exists over different members " ++
    showNames existing.snapshotNames⟩

/-- Refuse a retry that names other members. -/
def refuseMemberMismatch (group : String) (names : List String) : RpcM (Except Status Unit) := do
  match ← call (Cmd.cachedGroup group) with
  | .error .notFound => return .ok ()
  | .error e => return .error ⟨.internal, "get MiroirSnapshotGroup: " ++ e.text⟩
  | .ok existing =>
    if existing.snapshotNames ≠ names then return .error (otherMembers group existing)
    else return .ok ()

def cleanupStrayMembers (owned : List String) : List String → RpcM Unit
  | [] => return ()
  | name :: names => do
    if name ∈ owned then cleanupStrayMembers owned names
    else
      -- A failure is logged and the next one is tried.
      let _ ← call (Cmd.deleteSnapshot name)
      cleanupStrayMembers owned names

/-- Take back the members behind a failure, if there is no group. -/
def cleanupPartialMembers (group : String) (created : List String) : RpcM Unit := do
  if created = [] then return ()
  else
    match ← call (Cmd.cachedGroup group) with
    | .error .notFound => cleanupStrayMembers [] created
    | _ => return ()

/-- The loop over the members: `created` are those behind it. -/
def ensureMembers (group : String) :
    List String → List (String × Volume) → RpcM (Except Status (List Snapshot))
  | _, [] => return .ok []
  | created, (name, vol) :: members => do
    match ← ensureSnapshot name vol group with
    | .error st =>
      cleanupPartialMembers group created
      return .error st
    | .ok snap =>
      match ← ensureMembers group (created ++ [name]) members with
      | .error st => return .error st
      | .ok snaps => return .ok (snap :: snaps)

/-- One entry for every node with a leg of a member, in the order they are met. -/
def groupFinalizers (vols : List Volume) : List String :=
  (vols.flatMap fun vol => vol.spec.replicas.map Replica.node).reverse.dedup.reverse

/-- The response once the group is there. -/
def respond (grp : SnapshotGroup) (members : List (Snapshot × Volume)) :
    Except Status VolumeGroupSnapshot :=
  let result := csiGroupSnapshot grp members
  if !result.readyToUse then
    .error ⟨.aborted, "group snapshot " ++ grp.name ++ " is not ready"⟩
  else .ok result

/-- The group is created over its members, or was there before. -/
def ensureGroup (name : String) (names : List String) (vols : List Volume) :
    RpcM (Except Status SnapshotGroup) := do
  match ← call (Cmd.createGroup name names (groupFinalizers vols)) with
  | .ok grp => return .ok grp
  | .error .alreadyExists =>
    match ← call (Cmd.getGroup name) with
    | .error e => return .error ⟨.unavailable, "get existing group: " ++ e.text⟩
    | .ok existing =>
      if existing.snapshotNames ≠ names then
        cleanupStrayMembers existing.snapshotNames names
        return .error (otherMembers name existing)
      else return .ok existing
  | .error e => return .error ⟨.internal, "create MiroirSnapshotGroup: " ++ e.text⟩

/-- What follows once the source volumes are read. -/
def createOver (name : String) (vols : List Volume) :
    RpcM (Except Status VolumeGroupSnapshot) := do
  let names := vols.map fun vol => name ++ "-" ++ vol.name
  match ← refuseMemberMismatch name names with
  | .error st => return .error st
  | .ok () =>
    match ← ensureMembers name [] (names.zip vols) with
    | .error st => return .error st
    | .ok snaps =>
      match ← ensureGroup name names vols with
      | .error st => return .error st
      | .ok grp => return respond grp (snaps.zip vols)

def createVolumeGroupSnapshot (name : String) (sourceVolumeIDs : List String) :
    RpcM (Except Status VolumeGroupSnapshot) := do
  let volIDs := sourceVolumeIDs.insertionSort (· ≤ ·)
  if name = "" || sourceVolumeIDs = [] then
    return .error ⟨.invalidArgument, "group snapshot name and source volumes are required"⟩
  else if (volIDs.destutter (· ≠ ·)).length ≠ volIDs.length then
    return .error ⟨.invalidArgument, "duplicate source volume ids"⟩
  else
    match ← requireVolumes volIDs with
    | .error st => return .error st
    | .ok vols => createOver name vols

/-! ## Delete -/

def sameNameSet (a b : List String) : Bool :=
  a.length = b.length && a.insertionSort (· ≤ ·) = b.insertionSort (· ≤ ·)

/-- The listed snapshots that are there; each has to belong to the group. -/
def listedMembers (group : String) : List String → RpcM (Except Status (List String))
  | [] => return .ok []
  | name :: names => do
    match ← call (Cmd.cachedSnapshot name) with
    | .error .notFound => listedMembers group names
    | .error e => return .error ⟨.internal, "get member snapshot: " ++ e.text⟩
    | .ok snap =>
      if snap.group ≠ group then
        return .error ⟨.invalidArgument,
          "snapshot " ++ name ++ " does not belong to group " ++ group⟩
      else
        match ← listedMembers group names with
        | .error st => return .error st
        | .ok members => return .ok (name :: members)

def groupMembers (group : String) (snapshotIDs : List String) :
    RpcM (Except Status (List String)) := do
  match ← call (Cmd.cachedGroup group) with
  | .ok grp =>
    if snapshotIDs ≠ [] && !sameNameSet snapshotIDs grp.snapshotNames then
      return .error ⟨.invalidArgument, "snapshot ids " ++ showNames snapshotIDs ++
        " do not match group " ++ group ++ " members " ++ showNames grp.snapshotNames⟩
    else return .ok grp.snapshotNames
  | .error .notFound => listedMembers group snapshotIDs
  | .error e => return .error ⟨.internal, "get MiroirSnapshotGroup: " ++ e.text⟩

def deleteMembers : List String → RpcM (Except Status Unit)
  | [] => return .ok ()
  | name :: names => do
    match ← call (Cmd.deleteSnapshot name) with
    | .ok () | .error .notFound => deleteMembers names
    | .error e => return .error ⟨.internal, "delete member MiroirSnapshot: " ++ e.text⟩

def deleteVolumeGroupSnapshot (group : String) (snapshotIDs : List String) :
    RpcM (Except Status Unit) := do
  if group = "" then return .error ⟨.invalidArgument, "group snapshot id is required"⟩
  else
    match ← groupMembers group snapshotIDs with
    | .error st => return .error st
    | .ok members =>
      match ← call (Cmd.deleteGroup group) with
      | .ok () | .error .notFound => deleteMembers members
      | .error e => return .error ⟨.internal, "delete MiroirSnapshotGroup: " ++ e.text⟩

/-! ## RPCs -/

/-- A group RPC. -/
inductive Rpc where
  | create (name : String) (sourceVolumeIDs : List String)
  | delete (group : String) (snapshotIDs : List String)
  deriving DecidableEq

/-- What an RPC answers. -/
inductive Response where
  | created (res : Except Status VolumeGroupSnapshot)
  | deleted (res : Except Status Unit)

def Rpc.program : Rpc → RpcM Response
  | .create name ids => do return .created (← createVolumeGroupSnapshot name ids)
  | .delete group ids => do return .deleted (← deleteVolumeGroupSnapshot group ids)

end Miroir.Csi
