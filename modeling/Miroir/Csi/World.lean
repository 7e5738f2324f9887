import Miroir.Cluster.Step
import Miroir.Csi.GroupController
import Miroir.Process.Workers

/-!
# RPCs side by side

Any number of RPCs run at once against one API server. Whatever is read through the informer may be
any earlier version. A write may fail, or be given up while its request is still on its way, to be
taken by the API server at any later moment. Meanwhile agents report, and drop their finalizers from
what is deleted.
-/

namespace Miroir.Csi

open Process

/-- A request that its RPC has given up. -/
structure Pending where
  rpc : Rpc
  cmd : Cmd
  deriving DecidableEq

/-- The API server, its versions, and the requests on their way. -/
structure Server where
  api : Api
  /-- Every version of the objects, oldest first. -/
  versions : List Api
  inflight : List Pending := []

def Server.setApi (s : Server) (a : Api) : Server :=
  { s with api := a, versions := s.versions ++ [a] }

/-- What becomes of a command. -/
inductive Outcome where
  /-- It succeeds, or meets what the API server holds; a new object gets this identity. -/
  | ok (uid : String)
  /-- The informer shows version `i`. -/
  | version (i : Nat)
  /-- The informer shows this volume. -/
  | volume (vol : Volume)
  | notFound
  | invalid (text : String)
  | fail (text : String)
  /-- The RPC is told of a failure, and the request is still on its way. -/
  | lost (text : String)

/-- A lookup, as a read reports it. -/
def found {α : Type} : Option α → Except ApiErr α
  | some o => .ok o
  | none => .error .notFound

/-- What the API server answers to a write, and what it makes of it. -/
def write (a : Api) (uid : String) : (c : Cmd) → Option (Ans c × Api)
  | .createSnapshot x volume group finalizers =>
    match a.snap x with
    | some _ => some (.error .alreadyExists, a)
    | none =>
      let snap : Snapshot :=
        { name := x, uid := uid, volumeName := volume, group := group, finalizers := finalizers }
      some (.ok snap, { a with snaps := a.snaps.insert x snap })
  | .createGroup g names finalizers =>
    match a.group g with
    | some _ => some (.error .alreadyExists, a)
    | none =>
      let grp : SnapshotGroup :=
        { name := g, uid := uid, snapshotNames := names, finalizers := finalizers }
      some (.ok grp, { a with groups := a.groups.insert g grp })
  | .deleteSnapshot x =>
    match a.snap x with
    | some w => some (.ok (), a.markSnapDeleted x w)
    | none => some (.error .notFound, a)
  | .deleteGroup g =>
    match a.group g with
    | some w => some (.ok (), a.markGroupDeleted g w)
    | none => some (.error .notFound, a)
  | _ => none

/-- A command that ends with this error. -/
def failed (e : ApiErr) : (c : Cmd) → Ans c
  | .cachedVolume _ | .cachedSnapshot _ | .cachedGroup _ | .getSnapshot _ | .getGroup _
  | .createSnapshot .. | .createGroup .. | .deleteSnapshot _ | .deleteGroup _ => .error e

def Cmd.isWrite : Cmd → Bool
  | .createSnapshot .. | .createGroup .. | .deleteSnapshot _ | .deleteGroup _ => true
  | _ => false

def Cmd.isCreate : Cmd → Bool
  | .createSnapshot .. | .createGroup .. => true
  | _ => false

/-- What the API server answers to a command. -/
def answer (s : Server) (rpc : Rpc) : (c : Cmd) → Outcome → Option (Ans c × Server)
  | .cachedVolume id, .volume vol => if vol.name = id then some (.ok vol, s) else none
  | .cachedVolume _, .notFound => some (.error .notFound, s)
  | .cachedSnapshot x, .version i => s.versions[i]?.map fun v => (found (v.snap x), s)
  | .cachedGroup g, .version i => s.versions[i]?.map fun v => (found (v.group g), s)
  | .getSnapshot x, .ok _ => some (found (s.api.snap x), s)
  | .getGroup g, .ok _ => some (found (s.api.group g), s)
  | c, .ok uid => (write s.api uid c).map fun r => (r.1, s.setApi r.2)
  | c, .invalid text => if c.isCreate then some (failed (.invalid text) c, s) else none
  | c, .fail text => some (failed (.other text) c, s)
  | c, .lost text =>
    if c.isWrite then some (failed (.other text) c, { s with inflight := s.inflight ++ [⟨rpc, c⟩] })
    else none
  | _, _ => none

inductive Event where
  /-- The `i`-th request on its way is taken by the API server. -/
  | land (i : Nat) (uid : String)
  | snapStatus (x : String) (st : SnapshotStatus)
  | groupStatus (g : String) (st : GroupStatus)
  /-- A node drops its finalizer from a deleted object. -/
  | releaseSnap (x node : String)
  | releaseGroup (g node : String)

instance : Inhabited Event := ⟨.snapStatus "" {}⟩

def event (s : Server) : Event → Option Server
  | .land i uid => s.inflight[i]?.bind fun p => (write s.api uid p.cmd).map fun r =>
    { s.setApi r.2 with inflight := s.inflight.eraseIdx i }
  | .snapStatus x st => (s.api.snap x).map fun w => s.setApi (s.api.setStatus x w st)
  | .groupStatus g st => (s.api.group g).map fun w => s.setApi (s.api.setGroupStatus g w st)
  | .releaseSnap x node => ((s.api.snap x).filter Snapshot.deleting).map fun w =>
    s.setApi (s.api.setFinalizers x w (w.finalizers.erase node))
  | .releaseGroup g node => ((s.api.group g).filter SnapshotGroup.deleting).map fun w =>
    s.setApi (s.api.setGroupFinalizers g w (w.finalizers.erase node))

def rpcs : Workers Server Nat Rpc Event Outcome Ans Response where
  program _ rpc := rpc.program
  answer s _ rpc c o := answer s rpc c o
  event := event

abbrev Rpcs := Conf Server Nat Rpc Ans Response

abbrev Act := Process.Act Nat Rpc Event Outcome

/-- The request the API server takes in a step. -/
def taken (c : Rpcs) : Act → Option Pending
  | .reply w (.ok _) =>
    (Workers.asked (E := Event) (O := Outcome) c (.reply w (.ok ""))).bind fun q =>
    if q.cmd.isWrite then some ⟨q.job, q.cmd⟩ else none
  | .event (.land i _) => c.world.inflight[i]?
  | _ => none

end Miroir.Csi
