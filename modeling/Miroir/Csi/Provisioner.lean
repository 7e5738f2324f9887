import Miroir.Csi.CreateVolume
import Miroir.Process.Locks

/-!
# Provisioning side by side

Any number of `CreateVolume` and `DeleteVolume` RPCs of one controller run against one API server.
What is read through the informer may be any object the CRD admits, and the topology may be
anything. A create may fail, be taken although its RPC is told of a failure, or be given up while
its request is on its way, to be taken at a later moment. The figures of the pools are fixed.
-/

namespace Miroir.Prov

open Process
open Csi (ApiErr)

/-- A create whose RPC has given it up. -/
structure Pending where
  name : String
  spec : MiroirVolumeSpec
  finalizers : List String
  deriving DecidableEq

/-- The API server, `allocMu`, and the requests on their way. -/
structure Server where
  vols : List MiroirVolume
  snaps : List Snap := []
  nodes : NodeMap := ∅
  ips : InternalIPs := fun n => .error (.getNode n)
  stats : AList fun _ : String => MiroirNode
  /-- The RPC that holds `allocMu`. -/
  holder : Option Nat := none
  inflight : List Pending := []

namespace Server

variable (s : Server)

def volume (id : String) : Option MiroirVolume := s.vols.find? fun v => v.name = id

def snapshot (x : String) : Option Snap := s.snaps.find? fun sn => sn.snap.name = x

def setVolumes (vols : List MiroirVolume) : Server := { s with vols := vols }

/-- The volumes with one of them changed. -/
def onVolume (id : String) (f : MiroirVolume → MiroirVolume) : Server :=
  s.setVolumes (s.vols.map fun v => if v.name = id then f v else v)

/-- The API server takes the create of a volume that is not there and that the CRD admits. -/
def create (p : Pending) : Except ApiErr Unit × Server :=
  if (s.volume p.name).isSome then (.error .alreadyExists, s)
  else if !p.spec.admitted then (.error (.invalid "spec"), s)
  else (.ok (), s.setVolumes (s.vols ++
    [{ name := p.name, spec := p.spec, finalizers := p.finalizers }]))

/-- A patch of the size; the CRD refuses a smaller one. -/
def align (id : String) (size : Nat) : Except ApiErr Unit × Server :=
  match s.volume id with
  | none => (.error .notFound, s)
  | some v =>
    if size < v.spec.sizeBytes then (.error (.invalid "sizeBytes"), s)
    else (.ok (), s.onVolume id fun v => { v with spec.sizeBytes := size })

/-- A volume goes when the last finalizer does. -/
def delete (id : String) : Except ApiErr Unit × Server :=
  match s.volume id with
  | none => (.error .notFound, s)
  | some _ => (.ok (), s.onVolume id fun v => { v with deleting := true })

/-- A snapshot of a volume, unless one of that name is there. -/
def createSnap (x volume : String) (finalizers : List String) : Except ApiErr Snap × Server :=
  match s.snapshot x with
  | some _ => (.error .alreadyExists, s)
  | none =>
    let snap : Snap :=
      ⟨{ name := x, uid := x, volumeName := volume, finalizers := finalizers }, true⟩
    (.ok snap, { s with snaps := s.snaps ++ [snap] })

def deleteSnap (x : String) : Except ApiErr Unit × Server :=
  match s.snapshot x with
  | none => (.error .notFound, s)
  | some _ => (.ok (), { s with snaps := s.snaps.filter fun sn => sn.snap.name ≠ x })

def snapReady (x : String) : Except ApiErr Unit :=
  if (s.snapshot x).any fun sn => sn.snap.status.readyToUse then .ok ()
  else .error (.other "context deadline exceeded")

end Server

/-- A lookup, as a read reports it. -/
def found {α : Type} : Option α → Except ApiErr α
  | some o => .ok o
  | none => .error .notFound

/-- What becomes of a command. -/
inductive Outcome where
  /-- It meets what the API server holds. -/
  | ok
  | topology (nodes : NodeMap) (ips : InternalIPs)
  | volume (vol : MiroirVolume)
  | snapshot (snap : Snap)
  | notFound
  | secret (text : String)
  | invalid (text : String)
  | fail (text : String)
  /-- The API server takes it, and the RPC is told of a failure. -/
  | applied (text : String)
  /-- The RPC is told of a failure, and the request is still on its way. -/
  | lost (text : String)

/-- A command that ends with this error. -/
def failed (text : String) : (c : Cmd) → Option (Ans c)
  | .lock | .unlock => none
  | .topology | .poolStats | .listVolumes | .cachedVolume _ | .getVolume _ | .cachedSnapshot _
  | .getSnapshot _ | .createSnapshot .. | .secret | .waitSnapshotReady _ | .createVolume ..
  | .alignSize .. | .markFormatted _ | .deleteVolume _ | .deleteSnapshot _ =>
    some (.error (.other text))
  | .waitReady _ => some (.error ⟨.deadlineExceeded, text⟩)

/-- What the API server answers to a command. -/
def answer (s : Server) (w : Nat) : (c : Cmd) → Outcome → Option (Ans c × Server)
  | .lock, .ok => if s.holder.isNone then some ((), { s with holder := some w }) else none
  | .unlock, .ok => some ((), { s with holder := none })
  | .topology, .ok => some (.ok (s.nodes, s.ips), s)
  | .topology, .topology nodes ips => some (.ok (nodes, ips), s)
  | .poolStats, .ok => some (.ok s.stats, s)
  | .listVolumes, .ok => some (.ok s.vols, s)
  | .cachedVolume id, .ok => some (found (s.volume id), s)
  | .cachedVolume id, .volume vol =>
    if vol.name = id && vol.spec.admitted then some (.ok vol, s) else none
  | .cachedVolume _, .notFound => some (.error .notFound, s)
  | .cachedSnapshot x, .ok => some (found (s.snapshot x), s)
  | .cachedSnapshot x, .snapshot snap => if snap.snap.name = x then some (.ok snap, s) else none
  | .cachedSnapshot _, .notFound => some (.error .notFound, s)
  | .createSnapshot x volume finalizers, .ok => some (s.createSnap x volume finalizers)
  | .createSnapshot .., .invalid text => some (.error (.invalid text), s)
  | .getSnapshot x, .ok => some (found (s.snapshot x), s)
  | .waitSnapshotReady x, .ok => some (s.snapReady x, s)
  | .secret, .ok => some (.ok "", s)
  | .secret, .secret text => some (.ok text, s)
  | .createVolume name spec finalizers, .ok => some (s.create ⟨name, spec, finalizers⟩)
  | .createVolume name spec finalizers, .applied text =>
    some (.error (.other text), (s.create ⟨name, spec, finalizers⟩).2)
  | .createVolume name spec finalizers, .lost text =>
    some (.error (.other text), { s with inflight := s.inflight ++ [⟨name, spec, finalizers⟩] })
  | .getVolume id, .ok => some (found (s.volume id), s)
  | .alignSize id size, .ok => some (s.align id size)
  | .alignSize id size, .applied text => some (.error (.other text), (s.align id size).2)
  | .markFormatted id, .ok => some ((found (s.volume id)).map fun _ => (),
      s.onVolume id fun v => { v with status.formatted := true })
  | .waitReady _, .ok => some (.ok (), s)
  | .deleteVolume id, .ok => some (s.delete id)
  | .deleteVolume id, .applied text => some (.error (.other text), (s.delete id).2)
  | .deleteSnapshot x, .ok => some (s.deleteSnap x)
  | c, .fail text => (failed text c).map fun r => (r, s)
  | _, _ => none

inductive Event where
  /-- The `i`-th request on its way is taken by the API server. -/
  | land (i : Nat)
  /-- The agents have dropped their finalizers from a deleted volume. -/
  | gone (name : String)
  /-- The agents report on a snapshot. -/
  | snapStatus (x : String) (st : SnapshotStatus)

instance : Inhabited Event := ⟨.gone ""⟩

def event (s : Server) : Event → Option Server
  | .land i => s.inflight[i]?.map fun p =>
    { (s.create p).2 with inflight := s.inflight.eraseIdx i }
  | .gone name => some (s.setVolumes (s.vols.filter fun v => !(v.name = name && v.deleting)))
  | .snapStatus x st => some
      { s with
        snaps := s.snaps.map fun sn =>
          if sn.snap.name = x then { sn with snap := { sn.snap with status := st } } else sn }

def rpcs (cfg : Config) : Workers Server Nat Rpc Event Outcome Ans Response where
  program _ rpc := rpc.program cfg
  answer s w _ c o := answer s w c o
  event := event

abbrev Rpcs := Conf Server Nat Rpc Ans Response

abbrev Act := Process.Act Nat Rpc Event Outcome

end Miroir.Prov
