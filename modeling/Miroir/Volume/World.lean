import Miroir.Process.Run
import Miroir.Volume.Spec

/-!
# Volumes, snapshots and their backings

The state the volume agents and the CSI controller share: the volumes with every size their spec has
had, the snapshots with their legs, and on every node the backings and marker files. A backing
carries where it came from, the metadata at its end and whether the kernel holds it.

`step` is one action: a pass's pending command is answered, a volume is created or grown, a snapshot
is cut or deleted, a device or a whole node is lost. A node runs one pass per volume at a time;
passes of different nodes and volumes interleave freely and crash between any two commands.
-/

namespace Miroir.Vol

open Process

/-- The data generation metadata carries: `create-md`'s constant, or one that a handshake, a mint
or a write has moved on. -/
inductive Generation where
  | justCreated | live
  deriving DecidableEq, Repr

/-- DRBD metadata, written when the backing was `endsAt` bytes long. -/
structure Metadata where
  endsAt : Nat
  gen : Generation
  deriving DecidableEq, Repr

/-- One leg of a snapshot: its bytes and metadata, and the size the source exposed to its
filesystem at the cut. -/
structure SnapLeg where
  bytes : Nat
  md : Option Metadata
  exposed : Nat
  replicated : Bool
  deriving DecidableEq, Repr

/-- What a backing was made from. -/
inductive Origin where
  | fresh
  | clone (leg : SnapLeg)
  deriving DecidableEq, Repr

/-- A backing device. -/
structure Backing where
  bytes : Nat
  origin : Origin
  md : Option Metadata := none
  attached : Bool := false
  /-- The generation it was first attached with. -/
  joinedWith : Option Generation := none
  /-- Made after its volume was activated, in place of one that had vanished. -/
  recreated : Bool := false
  deriving DecidableEq, Repr

/-- There is valid metadata: it sits at the end of the backing. -/
def Backing.valid (b : Backing) : Option Metadata :=
  b.md.filter fun m => m.endsAt = b.bytes

/-- A volume, with what became of it so far. -/
structure VolObject where
  spec : VolumeSpec
  /-- Every size the spec has had, newest first. -/
  sizes : List Nat
  activated : Bool := false
  /-- The nodes on which a backing has vanished. -/
  lost : List String := []

/-- A snapshot with its legs. -/
structure SnapObject where
  volumeName : String
  sizeBytes : Nat
  /-- The API object is still there; its legs may outlive it or go before. -/
  present : Bool := true
  legs : List (String × SnapLeg)

def SnapObject.leg (o : SnapObject) (n : String) : Option SnapLeg := o.legs.lookup n

def SnapObject.dropLeg (o : SnapObject) (n : String) : SnapObject :=
  { o with legs := o.legs.filter fun e => e.1 ≠ n }

/-- A pass under way. -/
structure VolPass where
  log : VolLog
  prog : VolM Result

/-- The objects, the backings, the markers and the passes. -/
structure State where
  tick : Nat := 0
  vols : String → Option VolObject := fun _ => none
  snaps : String → Option SnapObject := fun _ => none
  legs : String → String → Option Backing := fun _ _ => none
  markers : String → String → Marker → Bool := fun _ _ _ => false
  pass : String → String → Option VolPass := fun _ _ => none

/-- Sizes as the backends and drbdmeta make them, and the pools of each node. -/
structure Config where
  storage : Storage
  pools : String → List String

def Config.agent (Γ : Config) (n : String) : Agent := ⟨n, Γ.pools n, false⟩

/-! ## The controller -/

/-- What a volume is asked to be; `placed` is the layout placement came to. -/
structure CreateRequest where
  sizeBytes : Nat
  replicas : Nat
  pool : String := "default"
  snapID : Option String := none
  placed : List Replica
  deriving DecidableEq, Repr

/-- The source of a restore, with the verdict on padding. -/
def resolveSource (srcVol : VolumeSpec) (snap : SnapObject) (req : CreateRequest)
    (snapID : String) : Except Err VolumeSource :=
  if req.sizeBytes < snap.sizeBytes then
    .error (.other ("requested " ++ toString req.sizeBytes ++ " below snapshot size " ++
      toString snap.sizeBytes))
  else
    match srcVol.diskfulReplicas.find? fun rep => poolOrDefault rep.pool ≠ req.pool with
    | some rep => .error (.other ("restore must stay in the source volume's pool \"" ++
        poolOrDefault rep.pool ++
        "\" (CoW clones cannot cross pools); the class requests pool \"" ++ req.pool ++ "\""))
    | none => .ok {
        snapshotName := snapID
        padForMetadata := req.replicas > 1 &&
          (!srcVol.drbd || srcVol.source.any VolumeSource.padForMetadata) }

/-- The spec a request comes to. -/
def CreateRequest.spec (req : CreateRequest) (source : Option VolumeSource) : VolumeSpec where
  sizeBytes := req.sizeBytes
  replicas := req.placed
  drbd := req.replicas > 1
  source := source

/-- The source of a request in a state: none for a fresh volume. -/
def State.sourceOf (s : State) (req : CreateRequest) : Option (Option VolumeSource) :=
  match req.snapID with
  | none => some none
  | some x =>
    match s.snaps x with
    | none => none
    | some snap =>
      if snap.present then
        match s.vols snap.volumeName with
        | none => none
        | some src => (resolveSource src.spec snap req x).toOption.map some
      else none

/-! ## Backings -/

def State.setLeg (s : State) (n v : String) (b : Option Backing) : State :=
  { s with legs := Function.update s.legs n (Function.update (s.legs n) v b) }

def State.setMarker (s : State) (n v : String) (m : Marker) (b : Bool) : State :=
  { s with
    markers := Function.update s.markers n
      (Function.update (s.markers n) v (Function.update (s.markers n v) m b)) }

def State.setPass (s : State) (n v : String) (p : Option VolPass) : State :=
  { s with pass := Function.update s.pass n (Function.update (s.pass n) v p) }

def State.setVol (s : State) (v : String) (o : VolObject) : State :=
  { s with vols := Function.update s.vols v (some o) }

def State.setSnap (s : State) (x : String) (o : SnapObject) : State :=
  { s with snaps := Function.update s.snaps x (some o) }

/-- A backing of `v` on `n` made now would be a recreated one. -/
def State.recreates (s : State) (n v : String) : Bool :=
  (s.vols v).any fun o => o.activated && decide (n ∈ o.lost)

/-- Grow to at least `bytes`; a backend never shrinks. -/
def Backing.grow (b : Backing) (σ : Storage) (n : String) (bytes : Nat) : Backing :=
  { b with bytes := if bytes ≤ b.bytes then b.bytes else σ.round n bytes }

/-- `create-md` or `wipe-md`, refused while the kernel holds the backing. -/
def Backing.setMd (b : Backing) (md : Option Metadata) : Option Backing :=
  if b.attached then none else some { b with md := md }

/-- The kernel takes the backing with the valid metadata on it. -/
def Backing.attach (b : Backing) : Option Backing :=
  if b.attached then some b
  else b.valid.map fun m =>
    { b with attached := true, joinedWith := b.joinedWith.or (some m.gen) }

/-- DRBD moves the metadata of an attached backing to its end. -/
def Backing.moveMd (b : Backing) : Backing :=
  if b.attached then { b with md := b.md.map fun m => { m with endsAt := b.bytes } } else b

/-- The generation of an attached backing moves on. -/
def Backing.evolve (b : Backing) : Backing :=
  if b.attached then { b with md := b.md.map fun m => { m with gen := .live } } else b

/-- What `dump-md` finds. -/
def Backing.dump (b : Backing) : Dump :=
  match b.valid with
  | none => .missing
  | some m => if b.attached then .stale else .found (m.gen = .justCreated)

/-! ## Answers -/

/-- What the surroundings choose when a command is answered. -/
inductive Outcome where
  | ok
  /-- It reports an error, with or without having taken effect. -/
  | fail (e : Err) (applied : Bool)
  /-- The volume is read with one of its sizes and some status. -/
  | volume (size : Nat) (st : VolumeStatus)
  /-- A cached read finds nothing; the fast path does not apply; the status is unreadable. -/
  | absent
  | status (st : LegStatus)
  | adjustFails (e : AdjustErr) (applied : Bool)
  | resizeFails (e : ResizeErr) (applied : Bool)

/-- A command that takes the leg of `v` on `n` to `b`, or has to fail. -/
def change (s : State) (n v : String) (b : Option (Option Backing)) :
    Outcome → Option (Except Err Unit × State)
  | .ok => b.map fun b => (.ok (), s.setLeg n v b)
  | .fail e true => some (.error e, (b.map (s.setLeg n v)).getD s)
  | .fail e false => some (.error e, s)
  | _ => none

def Outcome.fate : Outcome → Option (Fate Err)
  | .ok => some .done
  | .fail e applied => some (.failed e applied)
  | _ => none

/-- A read of `r`, which may fail; `none` has to fail. -/
def reading {α : Type} (s : State) (r : Option α) : Outcome → Option (Except Err α × State)
  | .ok => r.map fun r => (.ok r, s)
  | .fail e false => some (.error e, s)
  | _ => none

/-- The leg after `adjust` or `up`; with `--skip-disk` nothing is attached. -/
def attachLeg (b : Option Backing) (skipDisk : Bool) : Option (Option Backing) :=
  if skipDisk then some b else b.bind fun b => b.attach.map some

/-- The device of `v` is grown over all attached legs. -/
def State.growDevice (s : State) (v : String) : State :=
  { s with legs := fun n w => if w = v then (s.legs n w).map Backing.moveMd else s.legs n w }

/-- The leg after `CreateFromSnapshot`, a success if it is there already. -/
def cloneLeg (s : State) (n v x : String) : Option (Option Backing) :=
  match s.legs n v with
  | some b => some (some b)
  | none => ((s.snaps x).bind fun o => o.leg n).map fun sl =>
      some { bytes := sl.bytes, origin := .clone sl, md := sl.md, recreated := s.recreates n v }

/-- The leg after `Create`. -/
def createLeg (σ : Storage) (s : State) (n v : String) (bytes : Nat) : Option Backing :=
  match s.legs n v with
  | some b => some b
  | none => some { bytes := σ.round n bytes, origin := .fresh, recreated := s.recreates n v }

/-- What a command of the pass over `v` on `n` does and answers. -/
def answer (Γ : Config) (s : State) (n v : String) :
    (c : VolCmd) → Outcome → Option (VolAns c × State)
  | .volume, .volume size st =>
    match s.vols v with
    | some o =>
      if size ∈ o.sizes then some (.ok (some ⟨v, { o.spec with sizeBytes := size }, st⟩), s)
      else none
    | none => none
  | .volume, .absent => some (.ok none, s)
  | .volume, .fail e false => some (.error e, s)
  | .fastPath, .ok => some (true, s)
  | .fastPath, .absent => some (false, s)
  | .deviceExists, o => reading s (some (s.legs n v).isSome) o
  | .create bytes, o => change s n v (some (createLeg Γ.storage s n v bytes)) o
  | .resize bytes, o => change s n v ((s.legs n v).map fun b => some (b.grow Γ.storage n bytes)) o
  | .createFromSnapshot _ x, o => change s n v (cloneLeg s n v x) o
  | .snapshot x, .ok => (s.snaps x).map fun o => (.ok (some o.volumeName), s)
  | .snapshot _, .absent => some (.ok none, s)
  | .snapshot _, .fail e false => some (.error e, s)
  | .patchStatus _, o | .prepare, o | .finishApply, o => perform () s s o.fate
  | .patchActivated, o =>
    match s.vols v with
    | some obj => perform () s (s.setVol v { obj with activated := true }) o.fate
    | none => none
  | .stat m, o => reading s (some (s.markers n v m)) o
  | .touch m, o => perform () s (s.setMarker n v m true) o.fate
  | .remove m, o => perform () s (s.setMarker n v m false) o.fate
  | .attached, .ok => some ((s.legs n v).any Backing.attached, s)
  | .attached, .absent => some (false, s)
  | .dumpMd, o => reading s ((s.legs n v).map Backing.dump) o
  | .createMd, o => change s n v
      ((s.legs n v).bind fun b => (b.setMd (some ⟨b.bytes, .justCreated⟩)).map some) o
  | .wipeMd, o => change s n v ((s.legs n v).bind fun b => (b.setMd none).map some) o
  | .adjust skip, .ok => (attachLeg (s.legs n v) skip).map fun b => (.ok (), s.setLeg n v b)
  | .adjust skip, .adjustFails e applied =>
    some (.error e,
      if applied then ((attachLeg (s.legs n v) skip).map (s.setLeg n v)).getD s else s)
  | .up, o => change s n v (attachLeg (s.legs n v) false) o
  | .status, .status st => some (.ok st, s)
  | .status, .fail e false => some (.error e, s)
  | .mint, .status st => some (.ok st, s.setLeg n v ((s.legs n v).map Backing.evolve))
  | .mint, .fail e false => some (.error e, s)
  | .drbdResize, .ok => some (.ok (), s.growDevice v)
  | .drbdResize, .resizeFails e applied => some (.error e, if applied then s.growDevice v else s)
  | _, _ => none

/-! ## Steps -/

/-- What happens in one step. -/
inductive Action where
  | start (n v : String)
  | reply (n v : String) (o : Outcome)
  | finish (n v : String)
  | crash (n v : String)
  | createVolume (v : String) (req : CreateRequest)
  | expand (v : String) (size : Nat)
  /-- Every leg of a volume is cut; `size` is the size the publishing agent had read, `exposed` the
  size of the DRBD device, if there is one. -/
  | cut (x v : String) (size exposed : Nat)
  | dropSnapLeg (x n : String)
  | dropSnap (x : String)
  /-- A backing vanishes: its disk is swapped, or it is deleted out of band. -/
  | lose (n v : String)
  /-- A node is wiped: backings, snapshot legs, marker files and passes. -/
  | wipe (n : String)
  | loseMarkers (n v : String)
  /-- The volume is staged for its consumer. -/
  | activate (v : String)
  /-- A handshake, a sync or a write moves an attached leg's generation on. -/
  | evolve (n v : String)
  | detach (n v : String)

instance : Inhabited Action := ⟨.dropSnap ""⟩

/-- The leg cut from a backing. An unreplicated volume exposes its whole backing, a replicated one
the DRBD device, which is no larger than what any leg has usable. -/
def cutLeg (σ : Storage) (drbd : Bool) (exposed : Nat) (b : Backing) : Option SnapLeg :=
  if drbd then if exposed ≤ σ.usable b.bytes then some ⟨b.bytes, b.md, exposed, true⟩ else none
  else some ⟨b.bytes, b.md, b.bytes, false⟩

/-- The legs of a snapshot of `v`, one for each diskful replica. -/
def State.cutLegs (s : State) (σ : Storage) (v : String) (spec : VolumeSpec) (exposed : Nat) :
    List (String × SnapLeg) :=
  spec.diskfulNodes.filterMap fun n =>
    ((s.legs n v).bind (cutLeg σ spec.drbd exposed)).map fun sl => (n, sl)

def State.wipe (s : State) (n : String) : State :=
  { s with
    vols := fun v => (s.vols v).map fun o =>
      if (s.legs n v).isSome then { o with lost := n :: o.lost } else o
    snaps := fun x => (s.snaps x).map fun o => o.dropLeg n
    legs := Function.update s.legs n fun _ => none
    markers := Function.update s.markers n fun _ _ => false
    pass := Function.update s.pass n fun _ => none }

/-- What an action does to everything but the step count. -/
def act (Γ : Config) (s : State) : Action → Option State
  | .start n v =>
    match s.pass n v with
    | none => some (s.setPass n v (some ⟨[], VolumeReconciler.reconcile (Γ.agent n)⟩))
    | some _ => none
  | .reply n v o =>
    match s.pass n v with
    | some ⟨log, .ask c k⟩ =>
      (answer Γ s n v c o).map fun r =>
        r.2.setPass n v (some ⟨⟨s.tick, c, r.1⟩ :: log, k r.1⟩)
    | _ => none
  | .finish n v =>
    match s.pass n v with
    | some ⟨_, .ret _⟩ => some (s.setPass n v none)
    | _ => none
  | .crash n v => some (s.setPass n v none)
  | .createVolume v req =>
    match s.vols v, s.sourceOf req with
    | none, some source =>
      if (req.spec source).diskfulReplicas.length = req.replicas then
        some (s.setVol v { spec := req.spec source, sizes := [req.sizeBytes] })
      else none
    | _, _ => none
  | .expand v size =>
    match s.vols v with
    | some o =>
      if o.spec.sizeBytes ≤ size then
        some (s.setVol v { o with
          spec := { o.spec with sizeBytes := size }, sizes := size :: o.sizes })
      else none
    | none => none
  | .cut x v size exposed =>
    match s.vols v, s.snaps x with
    | some o, none =>
      let legs := s.cutLegs Γ.storage v o.spec exposed
      if size ∈ o.sizes ∧ legs.length = o.spec.diskfulNodes.length then
        some (s.setSnap x { volumeName := v, sizeBytes := size, legs := legs })
      else none
    | _, _ => none
  | .dropSnapLeg x n => (s.snaps x).map fun o => s.setSnap x (o.dropLeg n)
  | .dropSnap x => (s.snaps x).map fun o => s.setSnap x { o with present := false }
  | .lose n v =>
    match s.vols v, s.legs n v with
    | some o, some _ => some ((s.setVol v { o with lost := n :: o.lost }).setLeg n v none)
    | _, _ => none
  | .wipe n => some (s.wipe n)
  | .loseMarkers n v =>
    some { s with markers := Function.update s.markers n
                    (Function.update (s.markers n) v fun _ => false) }
  | .activate v => (s.vols v).map fun o => s.setVol v { o with activated := true }
  | .evolve n v => some (s.setLeg n v ((s.legs n v).map Backing.evolve))
  | .detach n v => some (s.setLeg n v ((s.legs n v).map fun b => { b with attached := false }))

/-- The step function. -/
def step (Γ : Config) (s : State) (a : Action) : Option State :=
  (act Γ s a).map fun s' => { s' with tick := s.tick + 1 }

/-- The command a step answers, with the node and volume of its pass. -/
def Action.command (s : State) : Action → Option (String × String × VolCmd)
  | .reply n v _ =>
    match s.pass n v with
    | some ⟨_, .ask c _⟩ => some (n, v, c)
    | _ => none
  | _ => none

/-! ## Runs given by their passes -/

/-- One gibibyte. -/
def giB : Nat := 1073741824

/-- A whole pass over `v` on `n`, told these outcomes. -/
def passOf (n v : String) (told : List Outcome) : List Action :=
  .start n v :: (told.map (.reply n v) ++ [.finish n v])

/-- The volume is read with this size and the fast path does not apply. -/
def opening (size : Nat) : List Outcome := [.volume size {}, .absent]

/-- Metadata is created, the leg attached and grown, and the pass ends. -/
def bringUp : List Outcome :=
  List.replicate 11 .ok ++ [.status {}, .status {}] ++ List.replicate 2 .ok

def exactSizes : Config := ⟨.exact, fun _ => ["default"]⟩

end Miroir.Vol
