import Miroir.Controller.Removal
import Miroir.Growth.Order

/-!
# Resyncs that never settle

The kernel can be left with bits in a bitmap that no resync drains, and only a new handshake of the
connection clears them. `recoverStuckResync` cycles such connections once their set has stood for a
poll interval. Bits that look stale are also what an online verify leaves when it finds a
difference, so they are acted on only where the coordinator's slot records no verify that is still
open and none that found anything (`verifyHolds`).
-/

namespace Miroir

open VolumeReconciler Removal

/-! ## The kernel's status -/

/-- A map of the status, by DRBD node id. -/
abbrev PeerMap (β : Type) := AList fun _ : Nat => β

/-- `maps.Equal`. -/
def mapsEqual {β : Type} [DecidableEq β] (m m' : PeerMap β) : Bool :=
  (m.keys.all fun i => m.lookup i = m'.lookup i) && m'.keys.all fun i => m.lookup i = m'.lookup i

/-- `drbd.Status`: all that `drbdsetup status` says of a resource. -/
structure KernelStatus where
  diskState : Option DiskState := none
  primary : Bool := false
  peerPrimary : Bool := false
  suspended : Bool := false
  peerConnected : PeerMap Bool := ∅
  peerDiskState : PeerMap DiskState := ∅
  splitBrain : Bool := false
  resyncing : Bool := false
  verifying : Bool := false
  resyncPercent : Nat := 100
  quorum : Bool := true
  outOfSyncKiB : Nat := 0
  /-- Peers with an armed resync that never started. -/
  stuckResyncPeers : Finset Nat := ∅
  /-- Peers with bits in the bitmap while everything reads healthy. -/
  staleBitmapPeers : Finset Nat := ∅
  /-- Peers a resync with nothing left to sync never ended with. -/
  unsettledResyncPeers : Finset Nat := ∅
  deriving DecidableEq

/-- The part of the status the gates of the snapshot rounds and of the mints read. -/
def KernelStatus.view (st : KernelStatus) : DrbdStatus where
  primary := st.primary
  peerPrimary := st.peerPrimary
  suspended := st.suspended
  diskState := st.diskState
  peerConnected i := (st.peerConnected.lookup i).getD false
  peerDiskState i := st.peerDiskState.lookup i

/-- The statuses agree in every field. -/
def statusEqual (a b : KernelStatus) : Bool :=
  a.diskState = b.diskState && a.primary = b.primary && a.peerPrimary = b.peerPrimary &&
    a.suspended = b.suspended && a.splitBrain = b.splitBrain && a.resyncing = b.resyncing &&
    a.resyncPercent = b.resyncPercent && a.quorum = b.quorum && a.outOfSyncKiB = b.outOfSyncKiB &&
    a.stuckResyncPeers = b.stuckResyncPeers && a.staleBitmapPeers = b.staleBitmapPeers &&
    a.unsettledResyncPeers = b.unsettledResyncPeers && mapsEqual a.peerConnected b.peerConnected &&
    mapsEqual a.peerDiskState b.peerDiskState

/-! ## The recovery -/

namespace VolumeReconciler

/-- The verify record of the coordinator is open or has a finding. -/
def verifyHolds (vol : Volume) : Bool :=
  vol.spec.firstDiskful.any fun coord =>
    (vol.status.perNode coord.node).verifyStartedAt.isSome ||
      (vol.status.perNode coord.node).lastVerifyOutOfSyncBytes.any fun v => 0 < v

section Agent

variable (self : String)

def staleBitmapActionable (vol : Volume) (st : KernelStatus) : Bool :=
  if st.staleBitmapPeers = ∅ || st.diskState ≠ some .upToDate || !st.quorum || st.resyncing ||
      st.splitBrain || (!st.primary && !st.peerPrimary) then false
  else if !diskfulPeersConnected st.view vol self || !diskfulPeersUpToDate st.view vol self then
    false
  else !verifyHolds vol

theorem staleBitmapActionable_iff {self : String} {vol : Volume} {st : KernelStatus} :
    staleBitmapActionable self vol st ↔
      (st.staleBitmapPeers ≠ ∅ ∧ st.diskState = some .upToDate ∧ st.quorum ∧
        st.resyncing = false ∧ st.splitBrain = false ∧
        (st.primary ∨ st.peerPrimary)) ∧
      diskfulPeersConnected st.view vol self ∧
      diskfulPeersUpToDate st.view vol self ∧ verifyHolds vol = false := by
  simp only [staleBitmapActionable]
  split_ifs with hhealthy hpeers
  · simp only [Bool.or_eq_true, decide_eq_true_eq, Bool.not_eq_true', Bool.and_eq_true] at hhealthy
    grind
  · grind
  · grind

/-- The slot is fresh and reports its leg not Primary. -/
def slotRulesOutPrimary (now : Nat) (vol : Volume) (node : String) : Bool :=
  let slot := vol.status.perNode node
  slot.primarySince.isNone && slot.lastProbedAt.any fun t => !olderThan now staleProbeThreshold t

def unsettledResyncActionable (now : Nat) (vol : Volume) (st : KernelStatus) : Bool :=
  if st.unsettledResyncPeers = ∅ || st.splitBrain then false
  else if st.peerPrimary then true
  else
    (vol.spec.replicas.all fun rep =>
      rep.node = self || rep.address = "" || slotRulesOutPrimary now vol rep.node) &&
    vol.spec.clients.all fun cl => cl.address = "" || slotRulesOutPrimary now vol cl.node

/-- The confirmation clock of a volume: when its candidates were first seen, and which. -/
structure StuckMark where
  since : Nat
  peers : Finset Nat
  deriving DecidableEq

/-- The connections that are candidates for a cycle. -/
def stuckPeers (now : Nat) (vol : Volume) (st : KernelStatus) : Finset Nat :=
  st.stuckResyncPeers ∪
    (if staleBitmapActionable self vol st then st.staleBitmapPeers else ∅) ∪
    if unsettledResyncActionable self now vol st then st.unsettledResyncPeers else ∅

/-- What the recovery leaves: the clock, the connections it cycles, and whether the volume has to
stay out of the fast path. -/
structure Recovery where
  mark : Option StuckMark := none
  cycled : Finset Nat := ∅
  active : Bool := false
  deriving DecidableEq

/-- Cycle the candidates once they have been the same for an interval. -/
def recoverStuckResync (now : Nat) (mark : Option StuckMark) (vol : Volume) (st : KernelStatus)
    (localDiskless : Bool) : Recovery :=
  let peers := stuckPeers self now vol st
  if localDiskless || peers = ∅ then { active := st.unsettledResyncPeers ≠ ∅ }
  else
    match mark.filter fun m => m.peers = peers with
    | none => { mark := some ⟨now, peers⟩, active := true }
    | some m =>
      if now < m.since + drbdPollInterval then { mark, active := true }
      else { mark := some ⟨now, peers⟩, cycled := peers, active := true }

end Agent

end VolumeReconciler

end Miroir
