import Miroir.Agent.Command

/-!
# What the standalone and the group round share

The constants of the barrier protocol, the membership predicates over a volume's spec, the
health gate, the coordinator election, the filesystem freeze around a barrier and the check
for another live round over a volume. Both reconcilers and the sweep call these.
-/

namespace Miroir

open Process Prog

/-- One node's agent: its name, its storage pools in sorted order, and whether it has a
filesystem freezer. -/
structure Agent where
  node : String
  pools : List String
  freezer : Bool

/-! ## Constants -/

def suspendDeadline : Nat := 60 * second

def suspendRetryBackoff : Nat := 30 * second

def barrierFailLimit : Nat := 5

def barrierRetryAfter : Nat := 60 * second

/-- `time.Since(stamp) > SuspendDeadline`. -/
def pastDeadline (now : Nat) (stamp : Option Stamp) : Bool :=
  stamp.any fun t => t * second + suspendDeadline < now

theorem pastDeadline_mono {t t' : Nat} (h : t ≤ t') {stamp : Option Stamp}
    (ht : pastDeadline t stamp) : pastDeadline t' stamp := by
  cases stamp with
  | none => cases ht
  | some T =>
    rw [pastDeadline, Option.any_some, decide_eq_true_iff] at ht ⊢
    exact Nat.lt_of_lt_of_le ht h

/-- `metav1.Now()` as the API server stores it. -/
def stampOf (now : Nat) : Stamp := now / second

/-! ## Membership -/

def replicaOn (vol : Volume) (node : String) : Bool :=
  vol.spec.replicas.any fun rep => rep.node = node

def diskfulOn (vol : Volume) (node : String) : Bool :=
  vol.spec.diskfulReplicas.any fun rep => rep.node = node

def disklessOn (vol : Volume) (node : String) : Bool :=
  (vol.spec.clientForNode node).isSome ||
    vol.spec.replicas.any fun rep => rep.node = node && rep.diskless

/-- The nodes of the diskful replicas, in spec order. -/
def VolumeSpec.diskfulNodes (s : VolumeSpec) : List String :=
  s.diskfulReplicas.map Replica.node

/-- The nodes that hold a diskless leg: tie-breakers and clients. -/
def disklessNodes (vol : Volume) : List String :=
  (vol.spec.replicas.filter fun rep => rep.diskless).map Replica.node ++
    vol.spec.clients.map VolumeClient.node

theorem diskfulOn_iff {vol : Volume} {node : String} :
    diskfulOn vol node ↔ node ∈ vol.spec.diskfulNodes := by
  simp [diskfulOn, VolumeSpec.diskfulNodes]

def poolOrDefault (pool : String) : String :=
  if pool = "" then "default" else pool

def VolumeSpec.poolOn (s : VolumeSpec) (node fallback : String) : String :=
  match s.replicas.find? fun rep => rep.node = node with
  | some rep => poolOrDefault rep.pool
  | none => poolOrDefault fallback

def volumePoolOn (vol : Volume) (node : String) : String :=
  vol.spec.poolOn node (vol.status.perNode node).pool

/-- The pool whose backend holds the volume's local leg. -/
def backendFor (a : Agent) (vol : Volume) : Except Err String :=
  let resolved := poolOrDefault (volumePoolOn vol a.node)
  if resolved ∈ a.pools then .ok resolved
  else .error (.other ("storage pool \"" ++ resolved ++ "\" is not configured on this node"))

/-- The pool of a replica's leg. -/
def VolumeSpec.legPool (s : VolumeSpec) (node : String) : String :=
  poolOrDefault (s.poolOn node "")

/-- The backend of a diskful leg is in the pool its replica names. -/
theorem backendFor_eq {a : Agent} {vol : Volume} {pool : String}
    (h : backendFor a vol = .ok pool) (hn : diskfulOn vol a.node) :
    pool = vol.spec.legPool a.node := by
  obtain ⟨rep, hrep⟩ :
      ∃ rep, vol.spec.replicas.find? (fun rep => rep.node = a.node) = some rep := by
    obtain ⟨rep, hrep, hn⟩ := List.any_eq_true.mp hn
    exact Option.isSome_iff_exists.mp
      (List.find?_isSome.mpr ⟨rep, (List.mem_filter.mp hrep).1, hn⟩)
  have hpool : volumePoolOn vol a.node = vol.spec.poolOn a.node "" := by
    simp [volumePoolOn, VolumeSpec.poolOn, hrep]
  simp only [backendFor, hpool] at h
  split at h
  · exact (Except.ok.inj h).symm
  · cases h

/-! ## The health gate and the election -/

/-- A peer the gate looks at: another node's completed diskful leg. -/
def gatedPeer (self : String) (rep : Replica) : Bool :=
  !(rep.node = self || rep.diskless || rep.address = "")

def diskfulPeersConnected (st : DrbdStatus) (vol : Volume) (self : String) : Bool :=
  vol.spec.replicas.all fun rep => !gatedPeer self rep || st.peerConnected rep.nodeID

def diskfulPeersUpToDate (st : DrbdStatus) (vol : Volume) (self : String) : Bool :=
  vol.spec.replicas.all fun rep =>
    !gatedPeer self rep || st.peerDiskState rep.nodeID = some .upToDate

/-- The walk over the replicas in spec order when nobody is Primary. -/
def firstReachable (self : String) (st : DrbdStatus) : List Replica → Bool
  | [] => false
  | rep :: reps =>
    if rep.diskless then firstReachable self st reps
    else if rep.node = self then true
    else if rep.address = "" || st.peerConnected rep.nodeID then false
    else firstReachable self st reps

def coordinatorFor (self : String) (vol : Volume) (st : DrbdStatus) : Bool :=
  if st.primary then true
  else if st.peerPrimary then false
  else firstReachable self st vol.spec.replicas

/-! ## The clock -/

/-- The clock, which is read only when there is a stamp to compare it with. -/
def clockFor (stamp : Option Stamp) : AgentM Nat :=
  if stamp.isSome then now else return 0

/-- The own slot says the last round failed less than `suspendRetryBackoff` ago. -/
def inBackoff (myState : Option SnapshotNodeState) (stamp : Option Stamp) : AgentM Bool :=
  if myState = some .error && stamp.isSome then do
    let t ← now
    return stamp.any fun at₀ => t < at₀ * second + suspendRetryBackoff
  else return false

/-! ## Failures and the freeze -/

def barrierFailed (name : String) (cause : Err) : AgentM Result := do
  let fails ← countBarrierFail name
  if fails < barrierFailLimit then return { err := some cause }
  else return { requeueAfter := barrierRetryAfter }

def freezeMounted (a : Agent) (vol : Volume) : AgentM (Except Err Unit) :=
  if a.freezer && (vol.status.perNode a.node).devicePath ≠ "" then
    freeze (vol.status.perNode a.node).devicePath
  else return .ok ()

def thawMounted (a : Agent) (vol : Volume) : AgentM Unit :=
  if a.freezer && (vol.status.perNode a.node).devicePath ≠ "" then do
    let _ ← thaw (vol.status.perNode a.node).devicePath
  else return ()

/-- `removeNodeFinalizer` swallows a conflict and an object that is already gone. -/
def finalizerErr : Except Err Unit → Option Err
  | .ok () | .error (.conflict _) | .error (.notFound _) => none
  | .error e => some e

/-! ## Slots -/

/-- Set every slot of `keys` to `state`. -/
def setSlots {κ : Type} [DecidableEq κ] (slots : Slots κ) (keys : List κ)
    (state : SnapshotNodeState) : Slots κ :=
  keys.foldl (fun m k => m.insert k state) slots

theorem lookup_setSlots {κ : Type} [DecidableEq κ] (slots : Slots κ) (keys : List κ)
    (state : SnapshotNodeState) (k : κ) :
    (setSlots slots keys state).lookup k = if k ∈ keys then some state else slots.lookup k := by
  induction keys generalizing slots with
  | nil => simp [setSlots]
  | cons k' keys ih =>
    have h : setSlots slots (k' :: keys) state = setSlots (slots.insert k' state) keys state := rfl
    rw [h, ih]
    by_cases hk : k ∈ keys
    · simp [hk]
    · by_cases hkk : k = k'
      · subst hkk; simp [AList.lookup_insert]
      · simp [hk, hkk, AList.lookup_insert_ne hkk]

/-- The slot says the barrier of the leg is up; `Done` implies it. -/
def raised (state : Option SnapshotNodeState) : Bool :=
  state = some .suspended || state = some .done

/-! ## Other live rounds over a volume -/

/-- One pass over the snapshot list: `none` when another standalone snapshot's round over the
volume is live, else the names of the other groups with a member over it. -/
def siblingGroups (volume ownSnap ownGroup : String) : List Snapshot → Option (List String)
  | [] => some []
  | s :: items =>
    if s.volumeName ≠ volume then siblingGroups volume ownSnap ownGroup items
    else if s.group = "" then
      if s.name ≠ ownSnap && s.status.ioSuspended then none
      else siblingGroups volume ownSnap ownGroup items
    else if s.group ≠ ownGroup then
      (siblingGroups volume ownSnap ownGroup items).map (List.insert s.group)
    else siblingGroups volume ownSnap ownGroup items

/-- Whether one of the groups is mid-round; a group that is gone holds no round. -/
def anyGroupActive : List String → AgentM (Except Err Bool)
  | [] => return .ok false
  | g :: gs => do
    match ← getGroup g with
    | .error e => return .error e
    | .ok none => anyGroupActive gs
    | .ok (some grp) => if grp.status.ioSuspended then return .ok true else anyGroupActive gs

def volumeRoundActive (volume ownSnap ownGroup : String) : AgentM (Except Err Bool) := do
  match ← listSnapshots with
  | .error e => return .error e
  | .ok items =>
    match siblingGroups volume ownSnap ownGroup items with
    | none => return .ok true
    | some groups => anyGroupActive groups

end Miroir
