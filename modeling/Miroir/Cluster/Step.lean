import Miroir.Cluster.State

/-!
# One step of the cluster

`answer` says what a command does and answers in a state, given the surroundings' choice
(`Outcome`), and `step` is the cluster's step function. `Action.command` and `Action.landing`
name what a step is about: the command it answers, and the request it makes the API server
take. Statements about runs are made with these two.
-/

namespace Miroir

open Process

/-- What DRBD reports about a resource besides its own role and flag. -/
structure Observation where
  peerConnected : Nat → Bool
  peerDiskState : Nat → Option DiskState
  diskState : Option DiskState

/-- What the surroundings choose when a command is answered. -/
inductive Outcome where
  /-- It succeeds. -/
  | ok
  /-- It reports an error, with or without having taken effect. -/
  | fail (e : Err) (applied : Bool)
  /-- A cached read is served from version `i`. -/
  | version (i : Nat)
  /-- A volume is read with this status, or is not found. -/
  | volume (st : Option VolumeStatus)
  | volumes (vs : List Volume)
  | status (obs : Observation)
  /-- A write lands now; its answer reports success or an error. -/
  | lands (pruned : Pruned) (err : Option Err)
  /-- A write reports an error and stays in flight. -/
  | late (e : Err)

/-- What happens in one step. -/
inductive Action where
  | start (w : Worker) (job : String)
  | reply (w : Worker) (o : Outcome)
  | finish (w : Worker)
  | crash (w : Worker)
  /-- The `i`-th write in flight reaches the API server. -/
  | land (i : Nat) (pruned : Pruned)
  | advance (d : Nat)
  /-- A leg is promoted or demoted. -/
  | role (node volume : String) (primary : Bool)
  | deleteSnap (x : String)
  | deleteGroup (g : String)

instance : Inhabited Action := ⟨.advance 0⟩

/-- The program a worker runs for a job. -/
def program (Γ : Config) (w : Worker) (job : String) : AgentM Result :=
  match w.task with
  | .snapshot => SnapshotReconciler.reconcile (Γ.agent w.node) job
  | .group => GroupSnapshotReconciler.reconcile (Γ.agent w.node) job
  | .sweep => resumeStaleBarriers (Γ.agent w.node)

/-! ## Answers -/

def State.setSuspended (s : State) (n v : String) (b : Bool) : State :=
  { s with
    kernel := Function.update s.kernel n
      (Function.update (s.kernel n) v { s.kernel n v with suspended := b }) }

def State.setPrimary (s : State) (n v : String) (b : Bool) : State :=
  { s with
    kernel := Function.update s.kernel n
      (Function.update (s.kernel n) v { s.kernel n v with primary := b }) }

def State.setLeg (s : State) (k : LegKey) (leg : Leg) : State :=
  { s with legs := Function.update s.legs k leg }

/-- The leg after the backend deleted it at `tick`. -/
def Leg.delete (l : Leg) (tick : Nat) : Leg :=
  { l with present := false, deletedAt := some tick }

/-- The leg after a cut at `tick`; an existing backend snapshot is a success and stays. -/
def Leg.cut (l : Leg) (tick : Nat) (round : Option Round) : Leg :=
  if l.present then l
  else { l with present := true, cuts := ⟨l.deletedAt, tick, round⟩ :: l.cuts }

/-- The round the pass has read. -/
def viewRound (task : Task) (job : String) (log : PassLog) : Option Round :=
  match task with
  | .snapshot => (snapView job log).bind fun v => v.status.round
  | .group => (groupView job log).bind fun v => v.status.round
  | .sweep => none

/-- Some connected peer leg is Primary. -/
def peerPrimary (Γ : Config) (s : State) (n v : String) (obs : Observation) : Bool :=
  (Γ.spec v).any fun spec =>
    (spec.replicas.any fun r =>
      r.node ≠ n && obs.peerConnected r.nodeID && (s.kernel r.node v).primary) ||
    spec.clients.any fun c =>
      c.node ≠ n && obs.peerConnected c.nodeID && (s.kernel c.node v).primary

/-- The status DRBD reports on node `n`. -/
def statusOf (Γ : Config) (s : State) (n v : String) (obs : Observation) : DrbdStatus where
  primary := (s.kernel n v).primary
  peerPrimary := peerPrimary Γ s n v obs
  suspended := (s.kernel n v).suspended
  diskState := obs.diskState
  peerConnected := obs.peerConnected
  peerDiskState := obs.peerDiskState

def Outcome.fate : Outcome → Option (Fate Err)
  | .ok => some .done
  | .fail e applied => some (.failed e applied)
  | _ => none

/-- What worker `w`'s command does and answers. -/
def answer (Γ : Config) (s : State) (w : Worker) (job : String) (log : PassLog) :
    (c : Cmd) → Outcome → Option (Ans c × State)
  | .cachedSnapshot x, .version i =>
    if s.snapCache w.node ≤ i then
      s.versions[i]?.map fun a =>
        (.ok (a.snap x), { s with snapCache := Function.update s.snapCache w.node i })
    else none
  | .cachedSnapshot _, .fail e false => some (.error e, s)
  | .cachedGroup g, .version i =>
    if s.groupCache w.node ≤ i then
      s.versions[i]?.map fun a =>
        (.ok (a.group g), { s with groupCache := Function.update s.groupCache w.node i })
    else none
  | .cachedGroup _, .fail e false => some (.error e, s)
  | .cachedVolume v, .volume st =>
    some (.ok (st.bind fun st => (Γ.spec v).map fun spec => ⟨v, spec, st⟩), s)
  | .cachedVolume _, .fail e false => some (.error e, s)
  | .getSnapshot x, o => perform (s.api.snap x) s s o.fate
  | .getGroup g, o => perform (s.api.group g) s s o.fate
  | .listSnapshots, o => perform s.api.listSnapshots s s o.fate
  | .listGroups, o => perform s.api.listGroups s s o.fate
  | .listVolumes, .volumes vs => some (.ok vs, s)
  | .listVolumes, .fail e false => some (.error e, s)
  | .now, .ok => some (s.clock, s)
  | .drbdStatus v, .status obs => some (.ok (statusOf Γ s w.node v obs), s)
  | .drbdStatus _, .fail e false => some (.error e, s)
  | .userSuspended, o =>
    perform ((Γ.resources w.node).filter fun v => (s.kernel w.node v).suspended) s s o.fate
  | .suspendIo v, o => perform () s (s.setSuspended w.node v true) o.fate
  | .resumeIo v, o => perform () s (s.setSuspended w.node v false) o.fate
  | .freeze _, o | .thaw _, o | .sync _ _, o => perform () s s o.fate
  | .deleteSnapshot pool _ x, o =>
    let k : LegKey := ⟨w.node, pool, x⟩
    perform () s (s.setLeg k ((s.legs k).delete s.tick)) o.fate
  | .snapshot pool _ x, o =>
    let k : LegKey := ⟨w.node, pool, x⟩
    perform () s (s.setLeg k ((s.legs k).cut s.tick (viewRound w.task job log))) o.fate
  | .countBarrierFail x, .ok =>
    some (s.fails w x + 1, { s with
      fails := Function.update s.fails w (Function.update (s.fails w) x (s.fails w x + 1)) })
  | .clearBarrierFails x, .ok =>
    some ((), { s with fails := Function.update s.fails w (Function.update (s.fails w) x 0) })
  | .write wr, .lands pruned err =>
    (land s.tick ⟨w, job, wr, log⟩ pruned s.api).map fun a =>
      (match err with | none => .ok () | some e => .error e, s.setApi a)
  | .write wr, .late e =>
    some (.error e, { s with inflight := s.inflight ++ [⟨w, job, wr, log⟩] })
  | .write _, .fail e false => some (.error e, s)
  | _, _ => none

/-! ## Steps -/

/-- `metadata.deletionTimestamp` is set; without finalizers the snapshot is gone at once. -/
def Api.markSnapDeleted (a : Api) (x : String) (w : Snapshot) : Api :=
  a.setFinalizers x { w with deleting := true } w.finalizers

def Api.markGroupDeleted (a : Api) (g : String) (w : SnapshotGroup) : Api :=
  a.setGroupFinalizers g { w with deleting := true } w.finalizers

def State.setPass (s : State) (w : Worker) (p : Option Pass) : State :=
  { s with pass := Function.update s.pass w p }

/-- What an action does to everything but the step count. -/
def act (Γ : Config) (s : State) : Action → Option State
  | .start w job =>
    match s.pass w with
    | none => some (s.setPass w (some ⟨job, [], program Γ w job⟩))
    | some _ => none
  | .reply w o =>
    match s.pass w with
    | some ⟨job, log, .ask c k⟩ =>
      (answer Γ s w job log c o).map fun r =>
        r.2.setPass w (some ⟨job, ⟨s.tick, c, r.1⟩ :: log, k r.1⟩)
    | _ => none
  | .finish w =>
    match s.pass w with
    | some ⟨_, _, .ret _⟩ => some (s.setPass w none)
    | _ => none
  | .crash w => some { s.setPass w none with fails := Function.update s.fails w fun _ => 0 }
  | .land i pruned =>
    s.inflight[i]?.bind fun q => (land s.tick q pruned s.api).map fun a =>
      { s.setApi a with inflight := s.inflight.eraseIdx i }
  | .advance d => some { s with clock := s.clock + d }
  | .role n v b => some (s.setPrimary n v b)
  | .deleteSnap x => (s.api.snap x).map fun w => s.setApi (s.api.markSnapDeleted x w)
  | .deleteGroup g => (s.api.group g).map fun w => s.setApi (s.api.markGroupDeleted g w)

/-- A pass goes on by one command, or something else happens. -/
def step (Γ : Config) (s : State) (a : Action) : Option State :=
  (act Γ s a).map fun s' => { s' with tick := s.tick + 1 }

/-- A command a pass is waiting on, with the pass. -/
structure Asked where
  worker : Worker
  job : String
  log : PassLog
  cmd : Cmd

/-- The command a step answers. -/
def Action.command (s : State) : Action → Option Asked
  | .reply w _ =>
    match s.pass w with
    | some ⟨job, log, .ask c _⟩ => some ⟨w, job, log, c⟩
    | _ => none
  | _ => none

/-- The request a step makes the API server take. -/
def Action.landing (s : State) : Action → Option Request
  | .land i _ => s.inflight[i]?
  | .reply w (.lands _ _) =>
    match s.pass w with
    | some ⟨job, log, .ask (.write wr) _⟩ => some ⟨w, job, wr, log⟩
    | _ => none
  | _ => none

/-! ## Initial states -/

/-- A state before any pass: every object as its spec says and with a blank status, no write
in flight and no cut made. Barriers and roles are arbitrary. -/
structure Initial (Γ : Config) (s : State) : Prop where
  tick : s.tick = 0
  versions : s.versions = [s.api]
  snaps : ∀ x w, s.api.snap x = some w →
    w.name = x ∧ w.volumeName = Γ.volumeOf x ∧ w.group = Γ.groupOf x ∧ w.status = {}
  groups : ∀ g w, s.api.group g = some w →
    w.name = g ∧ w.snapshotNames = Γ.namesOf g ∧ w.status = {}
  pass : ∀ w, s.pass w = none
  inflight : s.inflight = []
  legs : ∀ k, (s.legs k).deletedAt = none ∧ (s.legs k).cuts = []

/-- The objects of a configuration with blank statuses: these snapshots and these groups. -/
def Api.blank (Γ : Config) (xs gs : List String) : Api where
  snaps := xs.foldl (fun m x => m.insert x
    { name := x, uid := x, volumeName := Γ.volumeOf x, group := Γ.groupOf x }) ∅
  groups := gs.foldl (fun m g => m.insert g
    { name := g, uid := g, snapshotNames := Γ.namesOf g }) ∅

/-- The state with blank objects in which no barrier is up and the legs `primary` are Primary. -/
def State.blank (Γ : Config) (xs gs : List String) (primary : List (String × String)) : State where
  tick := 0
  clock := 0
  api := Api.blank Γ xs gs
  versions := [Api.blank Γ xs gs]
  snapCache _ := 0
  groupCache _ := 0
  pass _ := none
  inflight := []
  kernel n v := { primary := decide ((n, v) ∈ primary) }
  legs _ := {}
  fails _ _ := 0

theorem lookup_foldl_insert_of {α : Type} (f : String → α) {P : String → α → Prop}
    (hf : ∀ x, P x (f x)) (xs : List String) (m : AList fun _ : String => α)
    (hm : ∀ x w, m.lookup x = some w → P x w) {x : String} {w : α}
    (h : (xs.foldl (fun m x => m.insert x (f x)) m).lookup x = some w) : P x w := by
  induction xs generalizing m with
  | nil => exact hm x w h
  | cons y xs ih =>
    refine ih (m.insert y (f y)) (fun z u hz => ?_) h
    by_cases hzy : z = y
    · subst hzy
      rw [AList.lookup_insert] at hz
      exact Option.some.inj hz ▸ hf z
    · exact hm z u (by rwa [AList.lookup_insert_ne hzy] at hz)

theorem Initial.blank (Γ : Config) (xs gs : List String) (primary : List (String × String)) :
    Initial Γ (State.blank Γ xs gs primary) where
  tick := rfl
  versions := rfl
  snaps _ _ h := lookup_foldl_insert_of (P := fun x (w : Snapshot) => w.name = x ∧
    w.volumeName = Γ.volumeOf x ∧ w.group = Γ.groupOf x ∧ w.status = {}) _
    (fun _ => ⟨rfl, rfl, rfl, rfl⟩) xs ∅ (by simp) h
  groups _ _ h := lookup_foldl_insert_of (P := fun g (w : SnapshotGroup) => w.name = g ∧
    w.snapshotNames = Γ.namesOf g ∧ w.status = {}) _ (fun _ => ⟨rfl, rfl, rfl⟩) gs ∅ (by simp) h
  pass _ := rfl
  inflight := rfl
  legs _ := ⟨rfl, rfl⟩

/-! ## Whole passes -/

/-- The worker's pass is answered by `os` in turn. -/
def Worker.told (w : Worker) (os : List Outcome) : List Action := os.map (.reply w)

/-- A pass from its start to its end, answered by `os` in turn. -/
def Worker.pass (w : Worker) (job : String) (os : List Outcome) : List Action :=
  .start w job :: w.told os ++ [.finish w]

/-- Every leg is connected and up to date. -/
def Observation.up : Observation := ⟨fun _ => true, fun _ => some .upToDate, some .upToDate⟩

def VolumeStatus.up : VolumeStatus where
  perNode _ := { deviceCreated := true, diskState := some .upToDate }

/-- A pass over snapshot `s` on node `n` that reads version `i` of it, the volume and DRBD,
succeeds `k` times and is then told `os`. -/
def snapshotPass (n : String) (i k : Nat) (os : List Outcome) : List Action :=
  Worker.pass ⟨n, .snapshot⟩ "s" ([.version i, .volume (some .up), .status .up] ++
    List.replicate k .ok ++ os)

/-- A pass over group `g` of one member on node `n` that reads version `i` of both, the volume and
DRBD, succeeds `k` times and is then told `os`. -/
def groupPass (n : String) (i k : Nat) (os : List Outcome) : List Action :=
  Worker.pass ⟨n, .group⟩ "g" ([.version i, .version i, .volume (some .up), .status .up] ++
    List.replicate k .ok ++ os)

end Miroir
