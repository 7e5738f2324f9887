import Miroir.Agent.Round

/-!
# The stale-barrier sweep

`resumeStaleBarriers` lifts the barriers no fresh round accounts for. It lists the snapshots,
then the groups, then the suspended resources of the kernel, and resumes every suspended
volume that no live round younger than the deadline covers.
-/

namespace Miroir

open Process Prog

/-- `time.Since(stamp) < SuspendDeadline`. -/
def withinDeadline (now : Nat) (stamp : Option Stamp) : Bool :=
  stamp.any fun t => now < t * second + suspendDeadline

/-- The volumes of the standalone rounds that are live and within the deadline. -/
def freshSnapshots (fresh : List String) : List Snapshot → AgentM (List String)
  | [] => return fresh
  | s :: items =>
    if s.status.ioSuspended && s.status.suspendedAt.isSome then do
      let t ← now
      freshSnapshots
        (if withinDeadline t s.status.suspendedAt then s.volumeName :: fresh else fresh) items
    else freshSnapshots fresh items

/-- The volume of the listed snapshot `name`. -/
def snapVol (snaps : List Snapshot) (name : String) : Option String :=
  (snaps.find? fun s => s.name = name).map Snapshot.volumeName

/-- The volumes a group's round covers: its listed members', and those of its slots. -/
def groupVolumes (snaps : List Snapshot) (g : SnapshotGroup) : List String :=
  (g.snapshotNames.filterMap (snapVol snaps)).filter (· ≠ "") ++ g.status.perLeg.keys.map Prod.fst

/-- The volumes of the group rounds that are live and within the deadline. -/
def freshGroups (snaps : List Snapshot) (fresh : List String) :
    List SnapshotGroup → AgentM (List String)
  | [] => return fresh
  | g :: items =>
    if g.status.ioSuspended && g.status.suspendedAt.isSome then do
      let t ← now
      freshGroups snaps
        (if withinDeadline t g.status.suspendedAt then groupVolumes snaps g ++ fresh else fresh)
        items
    else freshGroups snaps fresh items

/-- Resume every suspended volume that is not fresh; a failed resume is logged only. -/
def resumeStale (fresh : List String) : List String → AgentM Unit
  | [] => return ()
  | v :: suspended =>
    if v ∈ fresh then resumeStale fresh suspended
    else do
      let _ ← resumeIo v
      resumeStale fresh suspended

/-- Thaw the filesystems of the volumes whose barrier was stale. -/
def thawStale (a : Agent) (vols : List Volume) : List String → AgentM Unit
  | [] => return ()
  | v :: stale => do
    let device := ((vols.filter fun vol => vol.name = v).getLast?).elim ""
      fun vol => (vol.status.perNode a.node).devicePath
    if device ≠ "" then
      let _ ← thaw device
      thawStale a vols stale
    else thawStale a vols stale

def resumeStaleBarriers (a : Agent) : AgentM Result := do
  match ← listSnapshots with
  | .error e => return { err := some e }
  | .ok snaps =>
    let fresh ← freshSnapshots [] snaps
    match ← listGroups with
    | .error e => return { err := some e }
    | .ok groups =>
      let fresh ← freshGroups snaps fresh groups
      match ← userSuspended with
      | .error _ => return {}
      | .ok suspended =>
        resumeStale fresh suspended
        let stale := suspended.filter fun v => v ∉ fresh
        if stale.isEmpty || !a.freezer then return {}
        else
          match ← listVolumes with
          | .error _ => return {}
          | .ok vols =>
            thawStale a vols stale
            return {}

end Miroir
