import Miroir.Agent.Round

/-!
# The standalone snapshot round

`SnapshotReconciler.reconcile` is one pass of a node's snapshot reconciler over one
`MiroirSnapshot`: the deletion path, the unreplicated cut, and for a replicated volume the
barrier round. A coordinator opens a round by raising its barrier and applying the whole
status; peers raise theirs and patch one slot, fenced to the round they read; with every
diskful slot up each node deletes and cuts its leg; the coordinator lifts its barrier and
publishes or voids.
-/

namespace Miroir

open Process Prog

/-! ## Statuses -/

/-- The fields `patchSnap` states: the two flags always, the rest when not zero. -/
def snapshotStatusAC (st : SnapshotStatus) : SnapshotApply where
  readyToUse := st.readyToUse
  ioSuspended := st.ioSuspended
  perNode := st.perNode
  sizeBytes := if st.sizeBytes ≠ 0 then some st.sizeBytes else none
  sourceFormatted := if st.sourceFormatted then some true else none
  suspendedAt := st.suspendedAt
  round := st.round

/-- The round and the object `live` shows are the ones `observed` was read from. -/
def sameSnapshotRound (observed live : Snapshot) : Bool :=
  observed.uid ≠ "" && live.uid ≠ "" && observed.uid = live.uid &&
    observed.status.suspendedAt.isSome && observed.status.suspendedAt = live.status.suspendedAt

/-- Every diskful replica has raised its barrier. -/
def allSuspended (spec : VolumeSpec) (st : SnapshotStatus) : Bool :=
  spec.diskfulNodes.all fun n => raised (st.perNode.lookup n)

/-- Every diskful replica has cut its leg. -/
def allDone (spec : VolumeSpec) (st : SnapshotStatus) : Bool :=
  spec.diskfulNodes.all fun n => st.perNode.lookup n = some .done

/-- The status with which `self` opens a round: peers reset, own slot up. -/
def openStatus (self : String) (spec : VolumeSpec) (stamp : Stamp) (st : SnapshotStatus) :
    SnapshotStatus :=
  { st with
    ioSuspended := true
    suspendedAt := some stamp
    perNode := (setSlots st.perNode (spec.diskfulNodes.filter (· ≠ self)) .pending).insert self
      .suspended }

/-- The status with which `self` voids a round. -/
def voidStatus (self : String) (spec : VolumeSpec) (stamp : Stamp) (st : SnapshotStatus) :
    SnapshotStatus :=
  { st with
    ioSuspended := false
    suspendedAt := some stamp
    perNode := (setSlots st.perNode spec.diskfulNodes .pending).insert self .error }

/-- The status that publishes the snapshot of a complete round. -/
def publishStatus (vol : Volume) (st : SnapshotStatus) : SnapshotStatus :=
  { st with
    ioSuspended := false
    sizeBytes := vol.spec.sizeBytes
    sourceFormatted := vol.status.formatted
    readyToUse := true }

/-- The status that publishes the snapshot of an unreplicated volume. -/
def singleStatus (self : String) (vol : Volume) (st : SnapshotStatus) : SnapshotStatus :=
  { st with
    perNode := (∅ : Slots String).insert self .done
    sizeBytes := vol.spec.sizeBytes
    sourceFormatted := vol.status.formatted
    readyToUse := true }

theorem openStatus_lookup (self : String) (spec : VolumeSpec) (stamp : Stamp) (st : SnapshotStatus)
    (n : String) : (openStatus self spec stamp st).perNode.lookup n =
      if n = self then some .suspended else if n ∈ spec.diskfulNodes then some .pending
      else st.perNode.lookup n := by
  by_cases hn : n = self
  · subst hn; simp [openStatus, AList.lookup_insert]
  · simp [openStatus, AList.lookup_insert_ne hn, lookup_setSlots, hn]

theorem voidStatus_lookup (self : String) (spec : VolumeSpec) (stamp : Stamp) (st : SnapshotStatus)
    (n : String) : (voidStatus self spec stamp st).perNode.lookup n =
      if n = self then some .error else if n ∈ spec.diskfulNodes then some .pending
      else st.perNode.lookup n := by
  by_cases hn : n = self
  · subst hn; simp [voidStatus, AList.lookup_insert]
  · simp [voidStatus, AList.lookup_insert_ne hn, lookup_setSlots, hn]

/-- Opening or voiding a round cuts no leg: a `Done` slot was there before. -/
theorem done_of_openStatus {self n : String} {spec : VolumeSpec} (stamp : Stamp)
    {st : SnapshotStatus} (h : (openStatus self spec stamp st).perNode.lookup n = some .done) :
    st.perNode.lookup n = some .done := by
  rw [openStatus_lookup] at h
  split_ifs at h <;> first | cases h | exact h

theorem done_of_voidStatus {self n : String} {spec : VolumeSpec} (stamp : Stamp)
    {st : SnapshotStatus} (h : (voidStatus self spec stamp st).perNode.lookup n = some .done) :
    st.perNode.lookup n = some .done := by
  rw [voidStatus_lookup] at h
  split_ifs at h <;> first | cases h | exact h

namespace SnapshotReconciler

variable (a : Agent) (snap : Snapshot) (vol : Volume)

def patchSnap (mutate : SnapshotStatus → SnapshotStatus) : AgentM (Except Err Unit) :=
  write (.applySnap snap.name (snapshotStatusAC (mutate snap.status)))

def patchOwnState (state : SnapshotNodeState) : AgentM (Except Err Unit) :=
  match snap.status.ioSuspended, snap.status.suspendedAt with
  | true, some stamp => write (.patchSlot snap.name a.node stamp state)
  | _, _ => return .error (.other "cannot patch snapshot node state without an active round")

def removeFinalizer : AgentM Result :=
  if a.node ∈ snap.finalizers then do
    return { err := finalizerErr (← write (.dropSnapFinalizer snap.name a.node)) }
  else return {}

/-! ## Sibling rounds -/

def otherRoundActive : AgentM (Except Err Bool) := do
  match ← getSnapshot snap.name with
  | .error e => return .error e
  | .ok live =>
    if live.any fun live => live.status.ioSuspended && !sameSnapshotRound snap live then
      return .ok true
    else volumeRoundActive snap.volumeName snap.name ""

def resumeUnlessSiblingRound : AgentM (Option Err) := do
  match ← otherRoundActive snap with
  | .error e => return some e
  | .ok true => return none
  | .ok false =>
    match ← resumeIo vol.name with
    | .error e => return some e
    | .ok () =>
      thawMounted a vol
      return none

/-! ## The phases of a round -/

def raiseBarrier (opensRound : Bool) : AgentM Result :=
  match (if diskfulOn vol a.node then backendFor a vol else .ok "") with
  | .error e => return { err := some e }
  | .ok _ => do
    match ← freezeMounted a vol with
    | .error e => barrierFailed snap.name e
    | .ok () =>
      match ← suspendIo vol.name with
      | .error e =>
        thawMounted a vol
        match ← otherRoundActive snap with
        | .ok false =>
          let _ ← resumeIo vol.name
          barrierFailed snap.name e
        | _ => barrierFailed snap.name e
      | .ok () =>
        clearBarrierFails snap.name
        if opensRound then
          let t ← now
          match ← patchSnap snap (openStatus a.node vol.spec (stampOf t)) with
          | .error e => return { err := some e }
          | .ok () => return { requeueAfter := second }
        else
          match ← patchOwnState a snap .suspended with
          | .error e => return { err := some e }
          | .ok () => return { requeueAfter := second }

def cutLeg : AgentM Result :=
  match backendFor a vol with
  | .error e => return { err := some e }
  | .ok pool => do
    match ← suspendIo vol.name with
    | .error e => barrierFailed snap.name e
    | .ok () =>
      clearBarrierFails snap.name
      match ← sync pool vol.name with
      | .error e => return { err := some e }
      | .ok () =>
        match ← deleteSnapshot pool vol.name snap.name with
        | .error e => return { err := some e }
        | .ok () =>
          match ← snapshot pool vol.name snap.name with
          | .error e => return { err := some e }
          | .ok () =>
            match ← patchOwnState a snap .done with
            | .error e => return { requeueAfter := second, err := some e }
            | .ok () => return { requeueAfter := second }

def collectLegs (expired : Bool) : AgentM Result :=
  if !allDone vol.spec snap.status && !expired then return { requeueAfter := 2 * second }
  else do
    match ← resumeUnlessSiblingRound a snap vol with
    | some e => return { err := some e }
    | none =>
      if allDone vol.spec snap.status then
        match ← patchSnap snap (publishStatus vol) with
        | .error e => return { err := some e }
        | .ok () => return {}
      else
        let t ← now
        match ← patchSnap snap (voidStatus a.node vol.spec (stampOf t)) with
        | .error e => return { err := some e }
        | .ok () => return {}

def openRound : AgentM Result := do
  if ← inBackoff (snap.status.perNode.lookup a.node) snap.status.suspendedAt then
    return { requeueAfter := suspendRetryBackoff }
  else
    match ← otherRoundActive snap with
    | .error e => return { requeueAfter := 2 * second, err := some e }
    | .ok true => return { requeueAfter := 2 * second }
    | .ok false => raiseBarrier a snap vol true

def isCoordinator (st : DrbdStatus) : Bool := coordinatorFor a.node vol st

def reconcileReplicated : AgentM Result := do
  match ← drbdStatus vol.name with
  | .error e => barrierFailed snap.name e
  | .ok st =>
    let t ← clockFor snap.status.suspendedAt
    let coordinator := isCoordinator a vol st
    let localDiskful := diskfulOn vol a.node
    let myState := snap.status.perNode.lookup a.node
    let expired := pastDeadline t snap.status.suspendedAt
    let healthy := diskfulPeersConnected st vol a.node && diskfulPeersUpToDate st vol a.node &&
      (!localDiskful || st.diskState = some .upToDate)
    if coordinator && !snap.status.ioSuspended && healthy && !st.suspended then
      openRound a snap vol
    else if !coordinator && localDiskful && snap.status.ioSuspended && !expired && healthy &&
        !raised myState then
      raiseBarrier a snap vol false
    else if localDiskful && snap.status.ioSuspended && !expired && healthy &&
        myState = some .suspended && allSuspended vol.spec snap.status then
      cutLeg a snap vol
    else if coordinator && snap.status.ioSuspended then
      collectLegs a snap vol expired
    else if (snap.status.ioSuspended && expired && st.suspended) ||
        (!snap.status.ioSuspended && st.suspended) then
      -- A dead round whose coordinator never voided it, or a voided one.
      match ← resumeUnlessSiblingRound a snap vol with
      | some e => return { requeueAfter := 2 * second, err := some e }
      | none => return { requeueAfter := 2 * second }
    else return { requeueAfter := 2 * second }

/-! ## The pass -/

/-- Delete the snapshot's legs in every pool, reporting the first error. -/
def sweepDeleteSnapshot (volume name : String) : List String → AgentM (Option Err)
  | [] => return none
  | pool :: pools => do
    match ← deleteSnapshot pool volume name with
    | .ok () => sweepDeleteSnapshot volume name pools
    | .error e =>
      let _ ← sweepDeleteSnapshot volume name pools
      return some e

/-- Whether the kernel reports the volume's barrier up; a failing status reads as down. -/
def kernelSuspended : AgentM Bool :=
  if vol.spec.drbd then do
    match ← drbdStatus vol.name with
    | .error _ => return false
    | .ok st => return st.suspended
  else return false

/-- Lift the barrier of a snapshot deleted mid-round, keyed on the kernel's flag. -/
def liftDeleted : AgentM (Option Err) := do
  if ← kernelSuspended vol then resumeUnlessSiblingRound a snap vol
  else return none

def reconcileDeleted : AgentM Result := do
  clearBarrierFails snap.name
  match ← liftDeleted a snap vol with
  | some e => return { err := some e }
  | none =>
    if disklessOn vol a.node then removeFinalizer a snap
    else
      match ← sweepDeleteSnapshot vol.name snap.name a.pools with
      | some (.busy _) => return { requeueAfter := 30 * second }
      | some e => return { err := some e }
      | none => removeFinalizer a snap

def reconcileReady : AgentM Result := do
  if ← kernelSuspended vol then
    return { err := ← resumeUnlessSiblingRound a snap vol }
  else
    thawMounted a vol
    return {}

def reconcileSingle : AgentM Result :=
  if !(vol.status.perNode a.node).deviceCreated then return { requeueAfter := 5 * second }
  else
    match backendFor a vol with
    | .error e => return { err := some e }
    | .ok pool => do
      match ← sync pool vol.name with
      | .error e => return { err := some e }
      | .ok () =>
        match ← snapshot pool vol.name snap.name with
        | .error e => return { err := some e }
        | .ok () =>
          match ← patchSnap snap (singleStatus a.node vol) with
          | .error e => return { err := some e }
          | .ok () => return {}

/-- The pass once the snapshot and its volume have been read. -/
def reconcileRead : AgentM Result :=
  if snap.deleting then reconcileDeleted a snap vol
  else if !replicaOn vol a.node && (vol.spec.clientForNode a.node).isNone then return {}
  else if snap.group ≠ "" then return {}
  else if snap.status.readyToUse then reconcileReady a snap vol
  else if vol.spec.drbd then
    if (vol.status.perNode a.node).diskState.isNone then return { requeueAfter := 5 * second }
    else if (vol.status.perNode a.node).splitBrain then return { requeueAfter := 30 * second }
    else reconcileReplicated a snap vol
  else reconcileSingle a snap vol

/-- One pass over the snapshot `name`. -/
def reconcile (name : String) : AgentM Result := do
  match ← cachedSnapshot name with
  | .error e => return { err := some e }
  | .ok none => return {}
  | .ok (some snap) =>
    match ← cachedVolume snap.volumeName with
    | .error e => return { err := some e }
    | .ok none =>
      if snap.deleting then
        clearBarrierFails snap.name
        removeFinalizer a snap
      else return {}
    | .ok (some vol) => reconcileRead a snap vol

end SnapshotReconciler

end Miroir
