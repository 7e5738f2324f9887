import Miroir.Process.Versions
import Miroir.Volume.FastPath

/-!
# The conditions of a volume

Three components write `status.conditions` of a `MiroirVolume`. The CSI controller sets
`NodeUnreachable` when a readiness wait times out and clears it when one succeeds, the phase
reconciler clears it once every replica reports again, and the writeback watchers of all nodes
derive `FilesystemNeedsRestage` from the writeback errors on the slots. Each computes a merge patch
from what it has read; a merge patch replaces the list as a whole. Only the watchers' patches carry
the version they were computed from.
-/

namespace Miroir.Cond

open Process Prog VolumeReconciler Removal

/-! ## Conditions -/

/-- A condition's status. -/
inductive CondStatus where
  | true | false | unknown
  deriving DecidableEq, Repr

/-- A `metav1.Condition`. -/
structure Condition where
  type : String
  status : CondStatus
  reason : String
  message : String := ""
  lastTransitionTime : Stamp := 0
  deriving DecidableEq, Repr

def nodeUnreachable : String := "NodeUnreachable"

def filesystemNeedsRestage : String := "FilesystemNeedsRestage"

/-- `meta.FindStatusCondition`. -/
def findStatusCondition (type : String) (conds : List Condition) : Option Condition :=
  conds.find? fun c => c.type = type

def isStatusConditionTrue (type : String) (conds : List Condition) : Bool :=
  (findStatusCondition type conds).any fun c => c.status = .true

/-- `meta.SetStatusCondition`: the transition time moves only with the status. -/
def setStatusCondition (now : Stamp) (cond : Condition) : List Condition → List Condition
  | [] => [{ cond with lastTransitionTime := now }]
  | c :: cs =>
    if c.type = cond.type then
      { cond with
        lastTransitionTime := if c.status = cond.status then c.lastTransitionTime else now } :: cs
    else c :: setStatusCondition now cond cs

theorem find_setStatusCondition_of_ne {now : Stamp} {cond : Condition} {type : String}
    (h : type ≠ cond.type) (conds : List Condition) :
    findStatusCondition type (setStatusCondition now cond conds) =
      findStatusCondition type conds := by
  induction conds with
  | nil => simp [setStatusCondition, findStatusCondition, Ne.symm h]
  | cons c cs ih =>
    simp only [setStatusCondition]
    split
    · rename_i hc
      simp [findStatusCondition, Ne.symm h, hc]
    · simp only [findStatusCondition, List.find?_cons] at ih ⊢
      rw [ih]

/-! ## Objects -/

/-- A write the kernel lost under a mounted filesystem. -/
structure WritebackError where
  since : Stamp
  record : String
  deriving DecidableEq, Repr

/-- A node's slot, with what its writeback watcher owns. -/
structure NodeSlot extends ReplicaStatus where
  writebackError : Option WritebackError := none
  deriving DecidableEq, Repr

/-- A volume as the condition writers read it. -/
structure Object where
  name : String
  spec : VolumeSpec
  /-- `spec.export` is set. -/
  exported : Bool := false
  deleting : Bool := false
  phase : VolumePhase := .creating
  readyReplicas : String := ""
  perNode : AList (fun _ : String => NodeSlot) := ∅
  conditions : List Condition := []
  deriving DecidableEq

instance : Inhabited Object := ⟨⟨"", ⟨0, [], [], false, none⟩, false, false, .creating, "", ∅, []⟩⟩

/-- The volume as the phase is computed from it. -/
def Object.volume (o : Object) : Volume where
  name := o.name
  spec := o.spec
  status :=
    { phase := o.phase
      readyReplicas := o.readyReplicas
      perNode := fun n => ((o.perNode.lookup n).map NodeSlot.toReplicaStatus).getD {} }

/-- A version of the object, as a read returns it. -/
structure Versioned where
  version : Nat
  object : Object
  deriving DecidableEq

/-- The errors on the slots that differ between the two objects. -/
def mergeErrors (base modified : Object) (current : AList fun _ : String => NodeSlot) :
    AList fun _ : String => NodeSlot :=
  modified.perNode.keys.foldl (fun slots n =>
    let error (o : Object) := (o.perNode.lookup n).bind NodeSlot.writebackError
    if error base = error modified then slots
    else slots.insert n { (slots.lookup n).getD {} with writebackError := error modified }) current

/-- The merge patch `client.MergeFrom` computes, on the current object: what `modified` has in
common with `base` is not in it, and a list is replaced as a whole. -/
def mergePatch (base modified current : Object) : Object :=
  { current with
    phase := if base.phase = modified.phase then current.phase else modified.phase
    readyReplicas :=
      if base.readyReplicas = modified.readyReplicas then current.readyReplicas
      else modified.readyReplicas
    perNode := mergeErrors base modified current.perNode
    conditions :=
      if base.conditions = modified.conditions then current.conditions else modified.conditions }

/-! ## Commands -/

/-- A command of a condition writer. -/
inductive Cmd where
  /-- The volume, through the informer cache or the uncached reader. -/
  | get
  | clock
  /-- The context of the poll is over. -/
  | expired
  /-- The node's agent has published its pool statistics lately. -/
  | agentHeartbeatFresh (node : String)
  /-- `Status().Patch`, with an optimistic lock or without. -/
  | patch (base : Versioned) (modified : Object) (locked : Bool)
  deriving DecidableEq

abbrev Ans : Cmd → Type
  | .get => Except Err (Option Versioned)
  | .clock => Nat
  | .expired | .agentHeartbeatFresh _ => Bool
  | .patch .. => Except Err Unit

abbrev CondM := Prog Cmd Ans

abbrev CondLog := Log Nat Ans

/-! ## The CSI controller -/

/-- Replica nodes without a status, or with a stale one. -/
def unreachableReplicaNodes (o : Object) (now : Nat) : List String :=
  (o.spec.diskfulReplicas.filter fun rep =>
    match o.perNode.lookup rep.node with
    | none => true
    | some st => !probeFresh now st.toReplicaStatus).map Replica.node

/-- The loop of `checkNodeUnreachable`: an absent entry is held against the heartbeat. -/
def confirmUnreachable (o : Object) : List String → CondM (List String)
  | [] => return []
  | node :: nodes => do
    let alive ← if (o.perNode.lookup node).isNone then call (Cmd.agentHeartbeatFresh node)
      else pure false
    let rest ← confirmUnreachable o nodes
    return if alive then rest else node :: rest

/-- The object with a condition set. -/
def Object.withCondition (o : Object) (now : Nat) (cond : Condition) : Object :=
  { o with conditions := setStatusCondition (now / second) cond o.conditions }

def unreachableCondition (nodes : List String) : Condition where
  type := nodeUnreachable
  status := .true
  reason := "AgentUnreachable"
  message := "Node agent unreachable on " ++ String.intercalate ", " nodes ++
    " (no status received within 10m0s)"

def reachableCondition : Condition where
  type := nodeUnreachable
  status := .false
  reason := "NodeReachable"

/-- The nodes that are unreachable, with the condition set if there are any. -/
def checkNodeUnreachable (vol : Versioned) : CondM (List String) := do
  let now ← call Cmd.clock
  let unreachable ← confirmUnreachable vol.object (unreachableReplicaNodes vol.object now)
  if unreachable.isEmpty then return []
  else
    let _ ← call (Cmd.patch vol
      (vol.object.withCondition now (unreachableCondition unreachable)) false)
    return unreachable

def clearNodeUnreachableCondition (vol : Versioned) : CondM Unit :=
  if isStatusConditionTrue nodeUnreachable vol.object.conditions then do
    let now ← call Cmd.clock
    let _ ← call (Cmd.patch vol (vol.object.withCondition now reachableCondition) false)
  else return ()

/-- What a readiness wait returns, by its gRPC code. -/
inductive Verdict where
  | ready | resourceExhausted | deadlineExceeded
  | failedPrecondition (unreachable : List String)
  deriving DecidableEq

/-- `waitReady` after the poll has ended without success. -/
def diagnose (polled : Option Versioned) : CondM Verdict := do
  let vol ← match polled with
    | some vol => pure (.ok (some vol))
    | none => call Cmd.get
  match vol with
  | .error _ | .ok none => return .deadlineExceeded
  | .ok (some vol) =>
    match ← checkNodeUnreachable vol with
    | [] => return .deadlineExceeded
    | nodes => return .failedPrecondition nodes

/-- What one poll makes of the volume it read: usable, failed, or neither. -/
def usable (vol : Versioned) : CondM (Option Bool) := do
  match vol.object.phase with
  | .ready => return some true
  | .degraded =>
    let now ← call Cmd.clock
    return if (unreachableReplicaNodes vol.object now).isEmpty then some true else none
  | .failed => return some false
  | .creating => return none

/-- `waitReady`; `n` bounds how often it polls. -/
def waitReady : Nat → Option Versioned → CondM Verdict
  | 0, polled => diagnose polled
  | n + 1, polled => do
    match ← call Cmd.get with
    | .error _ => diagnose polled
    | .ok none => if ← call Cmd.expired then diagnose polled else waitReady n polled
    | .ok (some vol) =>
      match ← usable vol with
      | some true => do
        clearNodeUnreachableCondition vol
        return .ready
      | some false => return .resourceExhausted
      | none => if ← call Cmd.expired then diagnose (some vol) else waitReady n (some vol)

/-! ## The phase reconciler -/

/-- Every diskful leg's node has probed in time. -/
def replicasReachable (o : Object) (now : Nat) : Bool :=
  o.spec.diskfulReplicas.all fun rep =>
    (o.perNode.lookup rep.node).any fun st => probeFresh now st.toReplicaStatus

/-- The object with its phase, and with `NodeUnreachable` cleared where the slots contradict it. -/
def phased (o : Object) (now : Nat) : Object :=
  let phase := computePhaseAt now o.volume
  let o' := { o with phase := phase.1, readyReplicas := phase.2 }
  if replicasReachable o now && isStatusConditionTrue nodeUnreachable o.conditions then
    o'.withCondition now reachableCondition
  else o'

/-- Write the phase, if it differs. -/
def reconcilePhase : CondM (Option Err) := do
  match ← call Cmd.get with
  | .error e => return some e
  | .ok none => return none
  | .ok (some vol) =>
    if vol.object.deleting then return none
    else
      let now ← call Cmd.clock
      let modified := phased vol.object now
      if modified = vol.object then return none
      else
        match ← call (Cmd.patch vol modified false) with
        | .error e => return some e
        | .ok () => return none

/-! ## The writeback watchers -/

/-- `slices.Sort`. -/
def sortStrings (xs : List String) : List String := xs.insertionSort (· ≤ ·)

def restageAdvice (o : Object) : String :=
  if o.exported then "delete the volume's NFS gateway pod to restage it"
  else "restart the consuming pod to restage the volume"

/-- The nodes that report a writeback error. -/
def erringNodes (o : Object) : List String :=
  o.perNode.keys.filter fun n => ((o.perNode.lookup n).bind NodeSlot.writebackError).isSome

def restageCondition (o : Object) : Condition where
  type := filesystemNeedsRestage
  status := .true
  reason := "WritebackError"
  message := "kernel lost a write under the filesystem mounted on " ++
    String.intercalate ", " (sortStrings (erringNodes o)) ++
    " (status.perNode.<node>.writebackError); " ++ restageAdvice o

def restagedCondition : Condition where
  type := filesystemNeedsRestage
  status := .false
  reason := "Restaged"

/-- The object with the condition its slots call for. -/
def setRestageCondition (o : Object) (now : Nat) : Object :=
  if (erringNodes o).isEmpty then
    if isStatusConditionTrue filesystemNeedsRestage o.conditions then
      o.withCondition now restagedCondition
    else o
  else o.withCondition now (restageCondition o)

/-- What a watcher wants of a volume: record a lost write, drop its entry, or only rederive the
condition. -/
inductive Mutation where
  | raise (record : String) | clear | rederive
  deriving DecidableEq

/-- The object as the watcher of `node` would have it, unless that is what it is. -/
def mutate (node : String) (m : Mutation) (o : Object) (now : Nat) : Option Object :=
  let slot (error : Option WritebackError) : Option Object :=
    (o.perNode.lookup node).bind fun st =>
      if st.writebackError.isSome = error.isSome then none
      else some (setRestageCondition
        { o with perNode := o.perNode.insert node { st with writebackError := error } } now)
  match m with
  | .raise record => slot (some ⟨now / second, record⟩)
  | .clear => slot none
  | .rederive => if setRestageCondition o now = o then none else some (setRestageCondition o now)

/-- `updateVolume`: `n` attempts, of which only a conflict starts another. -/
def updateVolume (node : String) (m : Mutation) : Nat → CondM (Except Err Bool)
  | 0 => return .error (.conflict "")
  | n + 1 => do
    match ← call Cmd.get with
    | .error e => return .error e
    | .ok none => return .error (.notFound "")
    | .ok (some vol) =>
      let now ← call Cmd.clock
      match mutate node m vol.object now with
      | none => return .ok false
      | some modified =>
        match ← call (Cmd.patch vol modified true) with
        | .error (.conflict _) => updateVolume node m n
        | .error e => return .error e
        | .ok () => return .ok true

/-! ## The writers side by side -/

/-- A run of one of the writers. -/
inductive Job where
  /-- The readiness wait of an RPC, with a bound on its polls. -/
  | wait (polls : Nat)
  | phase
  | writeback (node : String) (m : Mutation)
  deriving DecidableEq

/-- The condition type the writer manages. -/
def Job.manages : Job → String
  | .wait _ | .phase => nodeUnreachable
  | .writeback _ _ => filesystemNeedsRestage

/-- `retry.DefaultRetry`. -/
def defaultRetrySteps : Nat := 5

def Job.program : Job → CondM Unit
  | .wait polls => do
    let _ ← waitReady polls none
  | .phase => do
    let _ ← reconcilePhase
  | .writeback node m => do
    let _ ← updateVolume node m defaultRetrySteps

/-- The versions of the object so far. -/
abbrev Server := Versions Object

/-- What becomes of a command. -/
inductive Outcome where
  | ok
  /-- The read shows version `k`. -/
  | version (k : Nat)
  | absent
  | flag (b : Bool)
  | clock (t : Nat)
  /-- It fails, and was carried out or not. -/
  | fail (e : Err) (applied : Bool)

def answer (s : Server) : (c : Cmd) → Outcome → Option (Ans c × Server)
  | .get, .version k => if k ≤ s.last then some (.ok (some ⟨k, s.version k⟩), s) else none
  | .get, .absent => some (.ok none, s)
  | .get, .fail e _ => some (.error e, s)
  | .clock, .clock t => some (t, s)
  | .expired, .flag b => some (b, s)
  | .agentHeartbeatFresh _, .flag b => some (b, s)
  | .patch base modified locked, .ok =>
    if locked && base.version ≠ s.last then
      some (.error (.conflict "the object has been modified"), s)
    else some (.ok (), s.put (mergePatch base.object modified s.current))
  | .patch base modified locked, .fail e applied =>
    if applied && !(locked && base.version ≠ s.last) then
      some (.error e, s.put (mergePatch base.object modified s.current))
    else some (.error e, s)
  | _, _ => none

/-- Writers run as workers with a number; anyone else may write anything. -/
def writers : Workers Server Nat Job Object Outcome Ans Unit where
  program _ job := job.program
  answer s _ _ c o := answer s c o
  event s o := some (s.put o)

abbrev Writers := Conf Server Nat Job Ans Unit

abbrev Act := Process.Act Nat Job Object Outcome

end Miroir.Cond
