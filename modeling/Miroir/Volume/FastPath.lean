import Miroir.Volume.StuckResync

/-!
# The fast path of a volume pass

A pass over a placed leg either settles on the fast path or takes the whole pipeline. `fullPass` is
the pipeline as a function of what the kernel, the backend and the API server answer, up to the
slot it writes; it returns what the pass does (`Outcome`) and what the reconciler remembers
(`Memory`). `fastPath` compares the fingerprint a settled pass stored with the generation, the size
and the kernel's status of now.
-/

namespace Miroir

/-- A volume as the informer hands it out. -/
structure CachedVolume extends Volume where
  generation : Nat

namespace VolumeReconciler

open Removal Growth

/-! ## The phase -/

/-- The diskful leg is there at full size, with current data. -/
def realizedReplica (vol : Volume) (rep : Replica) : Bool :=
  let st := vol.status.perNode rep.node
  st.deviceCreated && vol.spec.sizeBytes ≤ st.sizeBytes &&
    (!vol.spec.drbd || st.diskState = some .upToDate)

/-- The leg counts as ready. -/
def readyReplica (now : Nat) (vol : Volume) (rep : Replica) : Bool :=
  let st := vol.status.perNode rep.node
  realizedReplica vol rep && (!vol.spec.drbd || st.connected) && probeFresh now st

/-- The backing device never materialised. -/
def failedReplica (vol : Volume) (rep : Replica) : Bool :=
  let st := vol.status.perNode rep.node
  !realizedReplica vol rep && st.message ≠ "" && !st.deviceCreated

/-- The phase, and the ready legs of all. -/
def computePhaseAt (now : Nat) (vol : Volume) : VolumePhase × String :=
  let diskful := vol.spec.diskfulReplicas
  let ready := diskful.countP (readyReplica now vol)
  let phase :=
    if diskful.any (failedReplica vol) then .failed
    else if ready = diskful.length then .ready
    else if diskful.any (realizedReplica vol) then .degraded
    else .creating
  (phase, toString ready ++ "/" ++ toString diskful.length)

/-! ## What a pass is told and what it does -/

/-- The answers to the commands of a pass; those it does not issue are not looked at. -/
structure Answers where
  now : Nat
  /-- Resolving the leg's pool, or clearing its stale record, failed. -/
  pool : Option Err := none
  deviceExists : Bool := true
  realize : Option Err := none
  dev : String := ""
  /-- The API server took the record of the new device. -/
  stamped : Bool := true
  /-- Assigning the minor, applying the config or reading the status failed. -/
  apply : Option Err := none
  allocated : Nat := 0
  discardGranularity : Nat := 0
  status : KernelStatus := {}
  /-- The metadata was on the backing before. -/
  adopted : Bool := false
  /-- The status after `InitialUUID`. -/
  initialUUID : Except Err KernelStatus := .ok {}
  /-- The status after `ForceFullSyncSource`. -/
  forceFullSyncSource : Except Err KernelStatus := .ok {}
  /-- The status after `Demote`, unless it was refused. -/
  demote : Option (Except Err KernelStatus) := none
  latched : Bool := true
  resize : Option Err := none
  drbdResize : Except ResizeErr Unit := .ok ()
  /-- The API server took the slot at the end of the pass. -/
  patched : Bool := true

/-- What a pass does that lasts; `slot` is the slot the API server took from it at its end. -/
structure Outcome where
  minted : Bool := false
  activated : Bool := false
  resized : Bool := false
  recovered : Bool := false
  cycled : Finset Nat := ∅
  slot : Option ReplicaStatus := none
  deriving DecidableEq

/-- The fingerprint of a full pass. -/
structure Fingerprint where
  generation : Nat
  status : KernelStatus
  replicated : Bool
  fullPassAt : Nat
  deriving DecidableEq

/-- What the reconciler remembers of a volume from pass to pass. -/
structure Memory where
  realized : Option Fingerprint := none
  lastRecovery : Option Nat := none
  stuckSince : Option StuckMark := none
  deriving DecidableEq

section Agent

variable (nodes : List String) (self : String)

/-! ## The stages -/

/-- A probe time is serialised to the second. -/
def probeNow (a : Answers) : Option Stamp := some (a.now / second)

/-- The volume with a device that is gone struck off the record. -/
def clearedBacking (vol : Volume) (a : Answers) : Volume :=
  if (vol.status.perNode self).deviceCreated && !a.deviceExists then
    withSlot vol self { pool := volumePoolOn vol self, lastProbedAt := probeNow a }
  else vol

/-- The volume with the device on the record. -/
def stampedDevice (vol : Volume) (a : Answers) : Volume :=
  if (vol.status.perNode self).deviceCreated then vol
  else
    withSlot vol self
      { deviceCreated := true
        devicePath := a.dev
        pool := volumePoolOn vol self
        lastProbedAt := probeNow a }

/-- `mintBirthUUID` on answers: whether it minted, and the status after it. -/
def mintBirthUUID (vol : Volume) (st : KernelStatus) (a : Answers) :
    Bool × Except Err KernelStatus :=
  if mintsBirth vol st.view self then (true, a.initialUUID) else (false, .ok st)

/-- `mintRestoreSeedUUID` on answers; a stuck Primary is demoted instead. -/
def mintRestoreSeedUUID (vol : Volume) (st : KernelStatus) (a : Answers) :
    Bool × Except Err KernelStatus :=
  let diskless := localDiskless vol self
  if restoreSeedStuckPrimary vol st.view self diskless then (false, a.demote.getD (.ok st))
  else if restoreSeedPending nodes st.peerDiskState.keys vol st.view self diskless a.adopted then
    (true, a.forceFullSyncSource)
  else (false, .ok st)

/-- Both mints; the seed's looks at the status after the first. -/
def mintGenerations (vol : Volume) (st : KernelStatus) (a : Answers) :
    Bool × Except Err KernelStatus :=
  match mintBirthUUID self vol st a with
  | (minted, .error e) => (minted, .error e)
  | (minted, .ok st) =>
    let seeded := mintRestoreSeedUUID nodes self vol st a
    (minted || seeded.1, seeded.2)

/-- A Primary leg whose volume is not latched yet. -/
def latchesActivated (vol : Volume) (st : KernelStatus) : Bool :=
  st.primary && !vol.status.activated

/-- `growLeg` on answers: whether it resized, and the size to report with the requeue. -/
def grownLeg (vol : Volume) (st : KernelStatus) (a : Answers) : Bool × Except Err (Nat × Nat) :=
  let realized := slotSize vol self
  match (if localDiskless vol self then none else a.resize) with
  | some e => (false, .error e)
  | none =>
    if vol.spec.sizeBytes ≤ realized || !coordinates vol.spec self then
      (false, .ok (vol.spec.sizeBytes, drbdPollInterval))
    else if st.diskState = some .diskless then (false, .ok (realized, 5 * second))
    else if !peerBackingsGrown self vol || st.resyncing then (false, .ok (realized, 5 * second))
    else
      match a.drbdResize with
      | .error (.other e) => (true, .error e)
      | .error .duringResync => (true, .ok (realized, 5 * second))
      | .ok () => (true, .ok (vol.spec.sizeBytes, drbdPollInterval))

/-- The commands of `Growth.growLeg`, told the answers. -/
def Answers.grow (a : Answers) (_ : Unit) : (c : Growth.Cmd) → Option (Growth.Ans c × Unit)
  | .resizeBacking _ => some (a.resize.elim (.ok ()) .error, ())
  | .drbdResize => some (a.drbdResize, ())
  | _ => none

/-- `Growth.growLeg`, told the answers, returns what `grownLeg` says. -/
theorem eval_growLeg (vol : Volume) (st : KernelStatus) (a : Answers) :
    (Growth.growLeg self vol ⟨st.primary, st.diskState, st.resyncing⟩ (localDiskless vol self)).eval
      a.grow () = some ((grownLeg self vol st a).2, ()) := by
  have hcoord (hr : (if localDiskless vol self then none else a.resize) = none) :
      (Growth.growIfCoordinator self vol ⟨st.primary, st.diskState, st.resyncing⟩).eval
        a.grow () = some ((grownLeg self vol st a).2, ()) := by
    rw [Growth.growIfCoordinator, grownLeg, hr]
    dsimp only
    split_ifs
    · rfl
    · rfl
    · rfl
    · rcases hd : a.drbdResize with (_ | e) | _ <;>
        simp [Process.Prog.eval, Process.Prog.call, Answers.grow, hd]
  rw [Growth.growLeg]
  split
  next hl => exact hcoord (if_pos hl)
  next hl =>
    cases hr : a.resize with
    | none =>
      rw [← hcoord (by rw [if_neg hl, hr])]
      simp [Process.Prog.eval, Process.Prog.call, Answers.grow, hr]
    | some e => simp [Process.Prog.eval, Process.Prog.call, Answers.grow, grownLeg, hl, hr]

/-- Another node's slot reports a split-brain. -/
def peerReportedSplitBrain (vol : Volume) : Bool :=
  nodes.any fun n => n ≠ self && (vol.status.perNode n).splitBrain

/-- A split-brain of the own leg, or one a peer reports while not all are connected. -/
def splitActive (vol : Volume) (st : KernelStatus) : Bool :=
  st.splitBrain ||
    (!diskfulPeersConnected st.view vol self && peerReportedSplitBrain nodes self vol)

/-- The floor of split-brain recovery is over. -/
def recoveryDue (now : Nat) (lastRecovery : Option Nat) : Bool :=
  lastRecovery.all fun t => t + drbdPollInterval ≤ now

/-- The disk of a diskful leg was dropped. -/
def diskFailed (vol : Volume) (st : KernelStatus) : Bool :=
  !localDiskless vol self && diskFailedLatch self vol
    { primary := st.primary, diskState := st.diskState, resyncing := st.resyncing }

def detachedDiskMessage (diskFailed : Bool) : String :=
  if diskFailed then "backing device detached after an I/O error; serving via the peer — " ++
    "replace the disk, then remove and re-add this replica"
  else ""

/-- Since when the leg is Primary; the first time seen stays. -/
def primarySince (vol : Volume) (primary : Bool) (now : Nat) : Option Stamp :=
  if primary then (vol.status.perNode self).primarySince.or (some (now / second)) else none

/-- The slot's minor, or the one allocated. -/
def assignMinor (vol : Volume) (a : Answers) : Nat :=
  let m := (vol.status.perNode self).drbdMinor
  if 0 < m then m else a.allocated

/-- The slot of an unreplicated leg. -/
def plainSlot (vol : Volume) (a : Answers) : ReplicaStatus where
  deviceCreated := true
  devicePath := a.dev
  sizeBytes := vol.spec.sizeBytes
  connected := true
  pool := volumePoolOn vol self
  lastProbedAt := probeNow a

/-- The slot of a replicated leg. -/
def replicatedSlot (vol : Volume) (st : KernelStatus) (a : Answers) (reportSize : Nat) :
    ReplicaStatus where
  deviceCreated := !localDiskless vol self
  devicePath := "/dev/drbd" ++ toString (assignMinor self vol a)
  drbdMinor := assignMinor self vol a
  sizeBytes := reportSize
  diskState := st.diskState
  connected := diskfulPeersConnected st.view vol self
  splitBrain := st.splitBrain
  diskless := localDiskless vol self
  diskFailed := diskFailed self vol st
  discardGranularityBytes := if localDiskless vol self then 0 else a.discardGranularity
  pool := if localDiskless vol self then "" else volumePoolOn vol self
  message := detachedDiskMessage (diskFailed self vol st)
  primarySince := primarySince self vol st.primary a.now
  lastProbedAt := probeNow a

/-- The slot, if the API server takes it. -/
def patchSlot (a : Answers) (slot : ReplicaStatus) : Option ReplicaStatus :=
  if a.patched then some slot else none

/-- `reportError`: the own slot with the error. -/
def reported (vol : Volume) (a : Answers) (e : Err) : Option ReplicaStatus :=
  patchSlot a { vol.status.perNode self with message := e.msg }

/-! ## The pipeline -/

/-- The volume as the gates read it: the record of the backing is settled first. -/
def backed (vol : Volume) (a : Answers) : Volume :=
  if localDiskless vol self then vol else stampedDevice self (clearedBacking self vol a) a

/-- The pass from the latch on, which `latches` says it took. -/
def growAndReport (m : Memory) (generation : Nat) (vol : Volume) (st : KernelStatus)
    (minted latches : Bool) (a : Answers) : Outcome × Memory :=
  match grownLeg self vol st a with
  | (resized, .error e) =>
    ({ minted, activated := latches, resized, slot := reported self vol a e }, m)
  | (resized, .ok (reportSize, requeue)) =>
    let split := splitActive nodes self vol st
    let due := split && recoveryDue a.now m.lastRecovery
    let stuck := recoverStuckResync self a.now m.stuckSince vol st (localDiskless vol self)
    let outcome : Outcome :=
      { minted
        activated := latches
        resized
        recovered := due && !(vol.status.activated || vol.status.formatted)
        cycled := stuck.cycled
        slot := patchSlot a (replicatedSlot self vol st a reportSize) }
    let m := { m with
      lastRecovery := if due then some a.now else m.lastRecovery
      stuckSince := stuck.mark }
    -- `storeIfSettled`
    if a.patched && requeue = drbdPollInterval && reportSize = vol.spec.sizeBytes &&
        !(split || stuck.active) then
      (outcome, { m with realized := some ⟨generation, st, true, a.now⟩ })
    else (outcome, m)

def withActivated (vol : Volume) (latches : Bool) : Volume :=
  { vol with status := { vol.status with activated := vol.status.activated || latches } }

/-- The pass once DRBD is up. The latch comes before split-brain recovery, which looks at it. -/
def replicatedPass (m : Memory) (generation : Nat) (vol : Volume) (a : Answers) :
    Outcome × Memory :=
  match mintGenerations nodes self vol a.status a with
  | (minted, .error e) => ({ minted, slot := reported self vol a e }, m)
  | (minted, .ok st) =>
    let latches := latchesActivated vol st
    if latches && !a.latched then ({ minted, activated := true }, m)
    else growAndReport nodes self m generation (withActivated vol latches) st minted latches a

/-- The pass of an unreplicated leg once its device is on the record. -/
def plainPass (m : Memory) (generation : Nat) (vol : Volume) (a : Answers) : Outcome × Memory :=
  match a.resize with
  | some e => ({ slot := reported self vol a e }, m)
  | none =>
    let outcome : Outcome := { slot := patchSlot a (plainSlot self vol a) }
    if a.patched then (outcome, { m with realized := some ⟨generation, {}, false, a.now⟩ })
    else (outcome, m)

/-- Bringing the backing up failed, and what is then reported; nothing is, where the record of the
device was not taken. -/
def bringUpFailed (vol : Volume) (a : Answers) : Option (Option ReplicaStatus) :=
  if localDiskless vol self then none
  else
    match a.pool, a.realize with
    | some e, _ => some (reported self vol a e)
    | none, some e => some (reported self (clearedBacking self vol a) a e)
    | none, none =>
      if (clearedBacking self vol a).status.perNode self |>.deviceCreated then none
      else if a.stamped then none
      else some none

/-- The whole pipeline. -/
def fullPass (m : Memory) (vol : CachedVolume) (a : Answers) : Outcome × Memory :=
  let m := { m with realized := none }
  match bringUpFailed self vol.toVolume a with
  | some slot => ({ slot }, m)
  | none =>
    let backed := backed self vol.toVolume a
    if !localDiskless vol.toVolume self && !vol.spec.drbd then
      plainPass self m vol.generation backed a
    else
      match a.apply with
      | some e => ({ slot := reported self backed a e }, m)
      | none => replicatedPass nodes self m vol.generation backed a

/-! ## The fast path -/

/-- `fastPath`: the pass settles. The status is read last; it is `none` where reading failed. -/
def fastPath (m : Memory) (vol : CachedVolume) (now : Nat) (status : Option KernelStatus) : Bool :=
  m.realized.any fun entry =>
    let diskless := localDiskless vol.toVolume self
    entry.generation = vol.generation && now < entry.fullPassAt + deepCheckInterval &&
      (diskless || (vol.status.perNode self).sizeBytes = vol.spec.sizeBytes) &&
      computePhaseAt now vol.toVolume = (vol.status.phase, vol.status.readyReplicas) &&
      (!entry.replicated || status.any fun st =>
        statusEqual st entry.status &&
          !(!diskfulPeersConnected st.view vol.toVolume self &&
            peerReportedSplitBrain nodes self vol.toVolume) &&
          !(st.primary && !vol.status.activated))

end Agent

end VolumeReconciler

end Miroir
