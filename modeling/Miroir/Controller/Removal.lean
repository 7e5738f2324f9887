import Miroir.Controller.Edits
import Miroir.Process.Versions
import Miroir.Process.Workers
import Miroir.Volume.Reconcile

/-!
# Dropping a leg

An agent whose leg was removed from the spec tears it down once the remaining replicas report that
they can do without it, and auto-evict drops the leg of a dead node on the same kind of reports.
Both work from a cached copy of the volume: the agent acts on its node whatever became of the
object, while auto-evict's update is refused unless its copy is still the current version.
-/

namespace Miroir.Removal

open Process Prog

/-- A command of a removal pass. -/
inductive Cmd where
  /-- The volume, through the informer cache. -/
  | volume
  | clock
  /-- The snapshots, by name and volume. -/
  | snapshots
  /-- The resource is taken down and its backing deleted. -/
  | teardown
  /-- Whether the error of a teardown is put on the slot. -/
  | parks
  | patchStatus (mine : ReplicaStatus)
  | dropSlot
  | removeFinalizer
  | nodes
  /-- The kubelet's heartbeat. -/
  | nodeReady (node : String)
  /-- The volumes, through the informer cache. -/
  | volumes
  /-- `Update`, which carries the version of the copy. -/
  | update (vol : MiroirVolume)

abbrev Ans : Cmd → Type
  | .volume => Except Err (Option MiroirVolume)
  | .clock => Nat
  | .snapshots => Except Err (List (String × String))
  | .parks => Bool
  | .nodes => Except Err (List MiroirNode)
  | .nodeReady _ => Except Err Bool
  | .volumes => Except Err (List MiroirVolume)
  | .teardown | .patchStatus _ | .dropSlot | .removeFinalizer | .update _ => Except Err Unit

abbrev RemovalM := Prog Cmd Ans

abbrev RemovalLog := Log Nat Ans

/-! ## Probes -/

def staleProbeThreshold : Nat := 2 * VolumeReconciler.deepCheckInterval

/-- The bar of the volume's phase; a slot without a probe time is taken as it is. -/
def probeFresh (now : Nat) (st : ReplicaStatus) : Bool :=
  st.lastProbedAt.all fun t => !olderThan now staleProbeThreshold t

/-! ## The agent -/

section Agent

variable (self : String)

/-- Why a remaining replica still needs the leg. -/
def replicaBlocks (vol : MiroirVolume) (rep : Replica) : Option String :=
  let st := vol.status.perNode rep.node
  if rep.diskless then none
  else if st.diskState ≠ some .upToDate || !st.connected then
    some ("replica on " ++ rep.node ++ " is not UpToDate and connected")
  else none

/-- Why a removed leg stays for now. -/
def removalBlocked (vol : MiroirVolume) : RemovalM (Option String) := do
  if !vol.spec.drbd then
    return some "volume has no replication layer; refusing to drop the only copy"
  else if (vol.status.perNode self).diskless then
    return vol.spec.replicas.findSome? (replicaBlocks vol)
  else
    match ← call Cmd.snapshots with
    | .error e => return some ("cannot list snapshots: " ++ e.msg)
    | .ok snaps =>
      match snaps.find? fun s => s.2 = vol.name with
      | some s => return some ("snapshot " ++ s.1 ++ " exists; delete the volume's snapshots first")
      | none => return vol.spec.replicas.findSome? (replicaBlocks vol)

/-- A wedge or a long busy streak is parked with a message on the slot. -/
def handleTeardownError (vol : MiroirVolume) (e : Err) : RemovalM Result := do
  if ← call Cmd.parks then
    match ← call (Cmd.patchStatus (vol.status.perNode self)) with
    | .error e => return { err := some e }
    | .ok () => return {}
  else return { err := some e }

/-- Tear down a leg that is no longer placed, and drop its slot. -/
def reconcileRemoval (vol : MiroirVolume) : RemovalM Result := do
  if self ∉ vol.finalizers then return {}
  else
    match ← removalBlocked self vol with
    | some reason =>
      let now ← call Cmd.clock
      match ← call (Cmd.patchStatus { vol.status.perNode self with
          message := "replica removal blocked: " ++ reason
          lastProbedAt := some (stampOf now) }) with
      | .error e => return { err := some e }
      | .ok () => return { requeueAfter := 30 * second }
    | none =>
      match ← call Cmd.teardown with
      | .error e => handleTeardownError self vol e
      | .ok () =>
        match ← call Cmd.dropSlot with
        | .error e => return { err := some e }
        | .ok () => return { err := failed (← call Cmd.removeFinalizer) }

/-- A pass over a volume that is not being deleted, as far as it drops the leg: what the pass of a
placed leg reports is an event here. -/
def reconcile : RemovalM Result := do
  match ← call Cmd.volume with
  | .error e => return { err := some e }
  | .ok none => return {}
  | .ok (some vol) =>
    if vol.deleting || present vol.volume self then return {}
    else reconcileRemoval self vol

end Agent

/-! ## Auto-evict -/

section Evict

variable (key : String → String) (after : Nat) (dead : String)

def evictRecheckInterval : Nat := 300 * second

/-- Take the dead node's leg off a volume, unless that is blocked. -/
def evictVolume (pass : AutoEvict.EvictPass) (vol : MiroirVolume) :
    RemovalM (Except Err AutoEvict.EvictOutcome) := do
  match AutoEvict.evictBlocked vol dead pass with
  | some (_, outcome) => return .ok outcome
  | none =>
    let now ← call Cmd.clock
    match (AutoEvict.plan now pass vol.spec.toVolumeSpec dead).2 with
    | none => return .ok .blocked
    | some spec =>
      match ← call (Cmd.update (vol.withLegs spec.replicas spec.clients)) with
      | .ok () => return .ok .evicted
      | .error (.conflict _) => return .ok .blocked
      | .error e => return .error e

/-- The loop over the volumes. -/
def evictAll (pass : AutoEvict.EvictPass) : Bool → List MiroirVolume → RemovalM Result
  | blocked, [] => return { requeueAfter := if blocked then evictRecheckInterval else 0 }
  | blocked, vol :: vols => do
    if !hasLegOn vol.spec.toVolumeSpec dead then evictAll pass blocked vols
    else
      match ← evictVolume dead pass vol with
      | .error e => return { err := some e }
      | .ok .evicted => evictAll pass blocked vols
      -- The node is alive: stand down for all of its legs.
      | .ok .peerConnected => return { requeueAfter := evictRecheckInterval }
      | .ok .blocked => evictAll pass true vols

/-- What follows once the node is found silent and not ready. -/
def evictNode (items : List MiroirNode) : RemovalM Result := do
  let topology := fromNodes key items
  let now ← call Cmd.clock
  match ← call Cmd.snapshots with
  | .error e => return { err := some e }
  | .ok snaps =>
    if 1 < (AutoEvict.staleNodes now after topology items).length then
      return { requeueAfter := evictRecheckInterval }
    else
      match ← call Cmd.volumes with
      | .error e => return { err := some e }
      | .ok vols => evictAll dead ⟨snaps.map Prod.snd, items, topology⟩ false vols

def evict : RemovalM Result := do
  match ← call Cmd.nodes with
  | .error e => return { err := some e }
  | .ok items =>
    if !(fromNodes key items).autoEvictAllowed dead then return {}
    else
      match (items.find? fun mn => mn.name = dead).bind MiroirNode.observedAt with
      -- Never heard of: there is no "was alive, went dark" to act on.
      | none => return {}
      | some t =>
        let now ← call Cmd.clock
        if !reached now after t then return { requeueAfter := t * second + after - now }
        else
          match ← call (Cmd.nodeReady dead) with
          | .error e => return { err := some e }
          | .ok true => return { requeueAfter := evictRecheckInterval }
          | .ok false => evictNode key after dead items

end Evict

/-! ## The world -/

/-- The volume in its versions, and the nodes. -/
structure World extends Versions MiroirVolume where
  now : Nat := 0
  /-- The version a worker was handed last. -/
  handed : Option String → Nat := fun _ => 0

namespace World

/-- The volume is written. -/
def put (s : World) (vol : MiroirVolume) : World := { s with toVersions := s.toVersions.put vol }

def hand (s : World) (w : Option String) (k : Nat) : World :=
  { s with handed := Function.update s.handed w k }

/-- The copy of the worker. -/
def copy (s : World) (w : Option String) : MiroirVolume := s.version (s.handed w)

end World

def withSlot (vol : MiroirVolume) (node : String) (mine : ReplicaStatus) : MiroirVolume :=
  { vol with status.perNode := Function.update vol.status.perNode node mine }

/-- How a command ends. -/
inductive Outcome where
  | ok
  /-- It reports an error, with or without having taken effect. -/
  | fail (e : Err) (applied : Bool)
  /-- The cache holds this version. -/
  | version (k : Nat)
  | absent
  | flag (b : Bool)
  | snapshots (snaps : List (String × String))
  | nodes (items : List MiroirNode)

def Outcome.fate : Outcome → Option (Fate Err)
  | .ok => some .done
  | .fail e applied => some (.failed e applied)
  | _ => none

def answer (s : World) (w : Option String) : (c : Cmd) → Outcome → Option (Ans c × World)
  | .volume, .version k =>
    if k ≤ s.last then some (.ok (some (s.version k)), s.hand w k) else none
  | .volume, .absent => some (.ok none, s)
  | .volume, .fail e _ => some (.error e, s)
  | .clock, _ => some (s.now, s)
  | .snapshots, .snapshots snaps => some (.ok snaps, s)
  | .snapshots, .fail e _ => some (.error e, s)
  | .parks, .flag b => some (b, s)
  | .nodes, .nodes items => some (.ok items, s)
  | .nodes, .fail e _ => some (.error e, s)
  | .nodeReady _, .flag b => some (.ok b, s)
  | .nodeReady _, .fail e _ => some (.error e, s)
  | .volumes, .version k =>
    if k ≤ s.last then some (.ok [s.version k], s.hand w k) else none
  | .volumes, .absent => some (.ok [], s)
  | .volumes, .fail e _ => some (.error e, s)
  | .patchStatus mine, o => w.bind fun node =>
    perform () s (s.put (withSlot s.current node mine)) o.fate
  | .dropSlot, o => w.bind fun node => perform () s (s.put (withSlot s.current node {})) o.fate
  | .removeFinalizer, o => w.bind fun node => perform () s
      (s.put { s.current with finalizers := s.current.finalizers.erase node }) o.fate
  | .teardown, o => perform () s s o.fate
  | .update vol, o =>
    if s.handed w = s.last then perform () s (s.put vol) o.fate
    else some (.error (.conflict "the object has been modified"), s)
  | _, _ => none

/-- What happens besides the passes. -/
inductive Event where
  | tick (d : Nat)
  /-- Another controller or an operator edits the volume, or the agents report. -/
  | edit (e : Edit)

instance inhabitedEvent : Inhabited Event := ⟨.tick 0⟩

def event (key : String → String) (s : World) : Event → Option World
  | .tick d => some { s with now := s.now + d }
  | .edit (.autoEvict ..) => none
  | .edit e => some (s.put (edit key s.current e))

abbrev RemovalConf := Conf World (Option String) String Ans Result

abbrev RemovalAct := Act (Option String) String Event Outcome

/-- Worker `some node` runs the passes of a node, worker `none` is auto-evict with a node for its
job. -/
def cluster (key : String → String) (after : Nat) :
    Workers World (Option String) String Event Outcome Ans Result where
  program w dead :=
    match w with
    | some node => reconcile node
    | none => evict key after dead
  answer s w _ c o := answer s w c o
  event := event key

end Miroir.Removal
