import Miroir.Agent.Snapshot

/-!
# The group round

`GroupSnapshotReconciler.reconcile` is one pass of a node's group reconciler over one
`MiroirSnapshotGroup`. The round is the standalone one over slots `(volume, node)` of every
member: a driver opens it with the whole status reset, every node raises and records its own
slots by a merge patch, cuts its legs once every expected slot is up, and the driver lifts its
barriers, publishes the members and seals the group, or voids the round.
-/

namespace Miroir

open Process Prog

/-- One member snapshot with its source volume. -/
structure GroupMember where
  snap : Snapshot
  vol : Volume

/-- Every diskful leg of every member. -/
def diskfulSlots (members : List GroupMember) : List SlotKey :=
  members.flatMap fun m => m.vol.spec.diskfulNodes.map fun n => (m.vol.name, n)

/-- Every diskless leg of every member. -/
def disklessSlots (members : List GroupMember) : List SlotKey :=
  members.flatMap fun m => (disklessNodes m.vol).map fun n => (m.vol.name, n)

/-- Every diskful slot is up and no expected diskless one is still pending. -/
def allSlotsSuspended (st : GroupStatus) (members : List GroupMember) : Bool :=
  (diskfulSlots members).all (fun k => raised (st.perLeg.lookup k)) &&
    (disklessSlots members).all fun k => st.perLeg.lookup k ≠ some .pending

/-- Every diskful slot is cut. -/
def allSlotsDone (st : GroupStatus) (members : List GroupMember) : Bool :=
  (diskfulSlots members).all fun k => st.perLeg.lookup k = some .done

/-- The slots of `legs` on `node`. -/
def slotsOn (node : String) (legs : List GroupMember) : List SlotKey :=
  legs.map fun m => (m.vol.name, node)

/-- Every slot of the node has raised its barrier. -/
def myLegsRaised (st : GroupStatus) (mine : List GroupMember) (node : String) : Bool :=
  (slotsOn node mine).all fun k => raised (st.perLeg.lookup k)

/-- Every slot of the node is cut. -/
def myLegsDone (st : GroupStatus) (mine : List GroupMember) (node : String) : Bool :=
  (slotsOn node mine).all fun k => st.perLeg.lookup k = some .done

def myLegs (members : List GroupMember) (node : String) : List GroupMember :=
  members.filter fun m => diskfulOn m.vol node

def myActiveDisklessLegs (st : GroupStatus) (members : List GroupMember) (node : String) :
    List GroupMember :=
  members.filter fun m => decide (node ∈ disklessNodes m.vol) &&
    ((m.vol.status.perNode node).primarySince.isSome ||
      (st.perLeg.lookup (m.vol.name, node)).isSome)

def pendingDisklessLegs (st : GroupStatus) (disklessMine : List GroupMember) (node : String) :
    List GroupMember :=
  disklessMine.filter fun m => st.perLeg.lookup (m.vol.name, node) = some .pending

/-! ## Statuses -/

/-- The remote diskless legs whose published status shows Primary. -/
def expectedDiskless (self : String) (members : List GroupMember) : List SlotKey :=
  members.flatMap fun m =>
    ((disklessNodes m.vol).filter fun n =>
      n ≠ self && (m.vol.status.perNode n).primarySince.isSome).map fun n => (m.vol.name, n)

/-- The status with which the driver `self` opens a round: every diskful slot and every
expected diskless one reset, its own raised legs up. -/
def openGroupStatus (self : String) (members raise : List GroupMember) (stamp : Stamp)
    (st : GroupStatus) : GroupStatus :=
  { st with
    ioSuspended := true
    suspendedAt := some stamp
    perLeg := setSlots (setSlots st.perLeg (diskfulSlots members ++ expectedDiskless self members)
      .pending) (slotsOn self raise) .suspended }

/-- The status with which the driver `self` voids a round. -/
def voidGroupStatus (self : String) (members mine : List GroupMember) (stamp : Stamp)
    (st : GroupStatus) : GroupStatus :=
  let reset := setSlots st.perLeg (diskfulSlots members) .pending
  let dead := setSlots reset
    ((disklessSlots members).filter fun k => reset.lookup k = some .pending) .error
  { st with
    ioSuspended := false
    suspendedAt := some stamp
    perLeg := setSlots dead ((slotsOn self mine).filter fun k => (dead.lookup k).isSome) .error }

/-- The status that seals a complete group. -/
def sealGroupStatus (st : GroupStatus) : GroupStatus :=
  { st with ioSuspended := false, readyToUse := true }

/-- The fields `patchGroup` states. -/
def groupStatusAC (st : GroupStatus) : GroupApply where
  readyToUse := st.readyToUse
  ioSuspended := st.ioSuspended
  perLeg := st.perLeg
  suspendedAt := st.suspendedAt
  round := st.round

/-- The status `publishMembers` gives a member. -/
def memberStatus (vol : Volume) : SnapshotStatus where
  readyToUse := true
  sizeBytes := vol.spec.sizeBytes
  sourceFormatted := vol.status.formatted
  perNode := setSlots ∅ vol.spec.diskfulNodes .done

theorem memberStatus_lookup (vol : Volume) (n : String) :
    (memberStatus vol).perNode.lookup n =
      if n ∈ vol.spec.diskfulNodes then some .done else none := by
  simp [memberStatus, lookup_setSlots]

theorem openGroupStatus_lookup (self : String) (members raise : List GroupMember) (stamp : Stamp)
    (st : GroupStatus) (k : SlotKey) :
    (openGroupStatus self members raise stamp st).perLeg.lookup k =
      if k ∈ slotsOn self raise then some .suspended
      else if k ∈ diskfulSlots members ∨ k ∈ expectedDiskless self members then some .pending
      else st.perLeg.lookup k := by
  simp [openGroupStatus, lookup_setSlots]

namespace GroupSnapshotReconciler

variable (a : Agent) (grp : SnapshotGroup)

def patchGroup (mutate : GroupStatus → GroupStatus) : AgentM (Except Err Unit) :=
  write (.applyGroup grp.name (groupStatusAC (mutate grp.status)))

def patchMySlots (mine : List GroupMember) (state : SnapshotNodeState) : AgentM (Except Err Unit) :=
  write (.mergeSlots grp.name ((slotsOn a.node mine).map fun k => (k, state)))

/-! ## Lifting barriers -/

def resumeUnlessOtherRound (volume : String) (vol : Option Volume) : AgentM (Option Err) := do
  match ← volumeRoundActive volume "" grp.name with
  | .error e => return some e
  | .ok true => return none
  | .ok false =>
    match ← resumeIo volume with
    | .error e => return some e
    | .ok () =>
      match vol with
      | some vol => do
        thawMounted a vol
        return none
      | none => return none

def resumeMine : List GroupMember → AgentM (Option Err)
  | [] => return none
  | m :: ms => do
    match ← resumeUnlessOtherRound a grp m.vol.name (some m.vol) with
    | some e => return some e
    | none => resumeMine ms

/-! ## The phases of a round -/

/-- Raise the barriers of `raise` in turn, `suspended` being up already. On a failure lift
what is up and return the result of the pass. -/
def raiseLegs (suspended : List GroupMember) : List GroupMember → AgentM (Option Result)
  | [] => return none
  | m :: raise => do
    match ← freezeMounted a m.vol with
    | .error e =>
      let _ ← resumeMine a grp suspended
      return some (← barrierFailed grp.name e)
    | .ok () =>
      match ← suspendIo m.vol.name with
      | .error e =>
        thawMounted a m.vol
        let _ ← resumeMine a grp (suspended ++ [m])
        return some (← barrierFailed grp.name e)
      | .ok () => raiseLegs (suspended ++ [m]) raise

/-- The first of the node's legs whose pool it does not carry. -/
def missingPool : List GroupMember → Option Err
  | [] => none
  | m :: mine =>
    match backendFor a m.vol with
    | .error e => some e
    | .ok _ => missingPool mine

/-- Record the raised legs: the driver's open of the round, or a peer's own slots. -/
def recordRaise (members raise : List GroupMember) (opensRound : Bool) :
    AgentM (Except Err Unit) :=
  if opensRound then do
    let t ← now
    patchGroup grp (openGroupStatus a.node members raise (stampOf t))
  else patchMySlots a grp raise .suspended

def raiseBarriers (members mine disklessRaise : List GroupMember) (opensRound : Bool) :
    AgentM Result :=
  match missingPool a mine with
  | some e => return { err := some e }
  | none => do
    match ← raiseLegs a grp [] (mine ++ disklessRaise) with
    | some res => return res
    | none =>
      clearBarrierFails grp.name
      match ← recordRaise a grp members (mine ++ disklessRaise) opensRound with
      | .error e =>
        let _ ← resumeMine a grp (mine ++ disklessRaise)
        return { err := some e }
      | .ok () => return { requeueAfter := second }

/-- Delete and cut the node's legs in turn; a failure ends the pass. -/
def cutEach : List GroupMember → AgentM (Option Result)
  | [] => return none
  | m :: mine =>
    match backendFor a m.vol with
    | .error e => return some { err := some e }
    | .ok pool => do
      match ← suspendIo m.vol.name with
      | .error e => return some (← barrierFailed grp.name e)
      | .ok () =>
        match ← sync pool m.vol.name with
        | .error e => return some { err := some e }
        | .ok () =>
          match ← deleteSnapshot pool m.vol.name m.snap.name with
          | .error e => return some { err := some e }
          | .ok () =>
            match ← snapshot pool m.vol.name m.snap.name with
            | .error e => return some { err := some e }
            | .ok () => cutEach mine

def cutLegs (mine : List GroupMember) : AgentM Result := do
  match ← cutEach a grp mine with
  | some res => return res
  | none =>
    clearBarrierFails grp.name
    match ← patchMySlots a grp mine .done with
    | .error e => return { requeueAfter := second, err := some e }
    | .ok () => return { requeueAfter := second }

def publishMembers : List GroupMember → AgentM (Option Err)
  | [] => return none
  | m :: members => do
    match ← write (.applySnap m.snap.name (snapshotStatusAC (memberStatus m.vol))) with
    | .error e => return some e
    | .ok () => publishMembers members

def collectSlots (members mine disklessMine : List GroupMember) (expired : Bool) :
    AgentM Result :=
  if !allSlotsDone grp.status members && !expired then return { requeueAfter := 2 * second }
  else do
    match ← resumeMine a grp (mine ++ disklessMine) with
    | some e => return { err := some e }
    | none =>
      if allSlotsDone grp.status members then
        match ← publishMembers members with
        | some e => return { err := some e }
        | none =>
          match ← patchGroup grp sealGroupStatus with
          | .error e => return { err := some e }
          | .ok () => return {}
      else
        let t ← now
        match ← patchGroup grp
            (voidGroupStatus a.node members (mine ++ disklessMine) (stampOf t)) with
        | .error e => return { err := some e }
        | .ok () => return {}

/-- Whether a member volume has another live round. -/
def anyMemberActive : List GroupMember → AgentM (Except Err Bool)
  | [] => return .ok false
  | m :: members => do
    match ← volumeRoundActive m.vol.name "" grp.name with
    | .error e => return .error e
    | .ok true => return .ok true
    | .ok false => anyMemberActive members

/-- What `localView` reads: the status of each local member volume, whether every one passes
the health gate, and whether any local barrier is up. -/
structure LocalView where
  sts : String → Option DrbdStatus := fun _ => none
  healthy : Bool := true
  kernelSuspended : Bool := false

/-- Read the local legs in turn; the flag of a leg says it is diskful. -/
def localView (view : LocalView) : List (GroupMember × Bool) → AgentM (Except Result LocalView)
  | [] => return .ok view
  | (m, diskful) :: legs => do
    match ← drbdStatus m.vol.name with
    | .error e => return .error (← barrierFailed grp.name e)
    | .ok st =>
      localView
        { sts := Function.update view.sts m.vol.name (some st)
          healthy := view.healthy && diskfulPeersConnected st m.vol a.node &&
            diskfulPeersUpToDate st m.vol a.node && (!diskful || st.diskState = some .upToDate)
          kernelSuspended := view.kernelSuspended || st.suspended } legs

def openRound (members mine disklessMine : List GroupMember) (view : LocalView) :
    AgentM Result := do
  let myState := ((mine ++ disklessMine).head?).bind fun m =>
    grp.status.perLeg.lookup (m.vol.name, a.node)
  if ← inBackoff myState grp.status.suspendedAt then
    return { requeueAfter := suspendRetryBackoff }
  else
    match ← anyMemberActive grp members with
    | .error e => return { requeueAfter := 2 * second, err := some e }
    | .ok true => return { requeueAfter := 2 * second }
    | .ok false =>
      let disklessRaise := disklessMine.filter fun m =>
        (view.sts m.vol.name).any DrbdStatus.primary
      raiseBarriers a grp members mine disklessRaise true

def isDriver (members : List GroupMember) (view : LocalView) : Bool :=
  match members with
  | [] => false
  | m :: _ => (view.sts m.vol.name).any (coordinatorFor a.node m.vol)

/-- Lift the barriers of the legs the kernel reported suspended. -/
def resumeSuspended (view : LocalView) : List GroupMember → AgentM (Option Err)
  | [] => return none
  | m :: legs =>
    if (view.sts m.vol.name).any DrbdStatus.suspended then do
      match ← resumeUnlessOtherRound a grp m.vol.name (some m.vol) with
      | some e => return some e
      | none => resumeSuspended view legs
    else resumeSuspended view legs

def reconcileRound (members mine disklessMine : List GroupMember) : AgentM Result := do
  match ← localView a grp {} (mine.map (·, true) ++ disklessMine.map (·, false)) with
  | .error res => return res
  | .ok view =>
    let t ← clockFor grp.status.suspendedAt
    let driver := isDriver a members view
    let expired := pastDeadline t grp.status.suspendedAt
    let pendingDiskless := pendingDisklessLegs grp.status disklessMine a.node
    if driver && !grp.status.ioSuspended && view.healthy && !view.kernelSuspended then
      openRound a grp members mine disklessMine view
    else if !driver && grp.status.ioSuspended && !expired && view.healthy &&
        (!myLegsRaised grp.status mine a.node || !pendingDiskless.isEmpty) then
      raiseBarriers a grp members mine pendingDiskless false
    else if grp.status.ioSuspended && !expired && view.healthy &&
        allSlotsSuspended grp.status members && !myLegsDone grp.status mine a.node then
      cutLegs a grp mine
    else if driver && grp.status.ioSuspended then
      collectSlots a grp members mine disklessMine expired
    else if grp.status.ioSuspended && expired && view.kernelSuspended then
      return { requeueAfter := 2 * second, err := ← resumeMine a grp (mine ++ disklessMine) }
    else if !grp.status.ioSuspended && view.kernelSuspended then
      return { requeueAfter := 2 * second
               err := ← resumeSuspended a grp view (mine ++ disklessMine) }
    else return { requeueAfter := 2 * second }

/-! ## The pass -/

/-- The group's member snapshots and their volumes; the flag says one is missing. -/
def members (found : List GroupMember) (missing : Bool) :
    List String → AgentM (Except Err (List GroupMember × Bool))
  | [] => return .ok (found, missing)
  | name :: names => do
    match ← cachedSnapshot name with
    | .error e => return .error e
    | .ok none => members found true names
    | .ok (some snap) =>
      match ← cachedVolume snap.volumeName with
      | .error e => return .error e
      | .ok none => members found true names
      | .ok (some vol) => members (found ++ [⟨snap, vol⟩]) missing names

/-- The volumes whose local barrier the deletion path checks: the node's diskful legs, and the
volumes of its slots, each once. -/
def sweepVolumes (members : List GroupMember) : List String :=
  let legs := (members.filter fun m => m.vol.spec.drbd && diskfulOn m.vol a.node).map
    fun m => m.vol.name
  let slots := (grp.status.perLeg.keys.filter fun k => k.2 = a.node).map Prod.fst
  (legs ++ slots).reverse.dedup.reverse

/-- Lift every barrier of `vols` the kernel holds. -/
def sweepDeleted (members : List GroupMember) : List String → AgentM (Option Err)
  | [] => return none
  | v :: vols => do
    match ← drbdStatus v with
    | .error _ => sweepDeleted members vols
    | .ok st =>
      if st.suspended then
        let vol := ((members.filter fun m => m.vol.name = v).getLast?).map GroupMember.vol
        match ← resumeUnlessOtherRound a grp v vol with
        | some e => return some e
        | none => sweepDeleted members vols
      else sweepDeleted members vols

def removeFinalizer : AgentM Result :=
  if a.node ∈ grp.finalizers then do
    return { err := finalizerErr (← write (.dropGroupFinalizer grp.name a.node)) }
  else return {}

/-- Lift the stray barriers of a published group. -/
def reconcileReady : List GroupMember → AgentM Result
  | [] => return {}
  | m :: legs => do
    match ← drbdStatus m.vol.name with
    | .error _ =>
      thawMounted a m.vol
      reconcileReady legs
    | .ok st =>
      if st.suspended then
        match ← resumeUnlessOtherRound a grp m.vol.name (some m.vol) with
        | some e => return { err := some e }
        | none => reconcileReady legs
      else
        thawMounted a m.vol
        reconcileReady legs

/-- The result with which a participating leg holds the pass back, if any does. -/
def gateLegs : List GroupMember → Option Result
  | [] => none
  | m :: legs =>
    if !m.vol.spec.drbd then some {}
    else if (m.vol.status.perNode a.node).diskState.isNone then some { requeueAfter := 5 * second }
    else if (m.vol.status.perNode a.node).splitBrain then some { requeueAfter := 30 * second }
    else gateLegs legs

def reconcileDeleted (members : List GroupMember) : AgentM Result := do
  clearBarrierFails grp.name
  match ← sweepDeleted a grp members (sweepVolumes a grp members) with
  | some e => return { err := some e }
  | none => removeFinalizer a grp

/-- The pass over a fully resolved group. -/
def reconcileMembers (members : List GroupMember) : AgentM Result :=
  let mine := myLegs members a.node
  let disklessMine := myActiveDisklessLegs grp.status members a.node
  if mine.isEmpty && disklessMine.isEmpty then return {}
  else if grp.status.readyToUse then reconcileReady a grp (mine ++ disklessMine)
  else
    match gateLegs a (mine ++ disklessMine) with
    | some res => return res
    | none => reconcileRound a grp members mine disklessMine

/-- One pass over the group `name`. -/
def reconcile (name : String) : AgentM Result := do
  match ← cachedGroup name with
  | .error e => return { err := some e }
  | .ok none => return {}
  | .ok (some grp) =>
    match ← members [] false grp.snapshotNames with
    | .error e => return { err := some e }
    | .ok (found, missing) =>
      if grp.deleting then reconcileDeleted a grp found
      else if missing then return { requeueAfter := 5 * second }
      else reconcileMembers a grp found

end GroupSnapshotReconciler

end Miroir
