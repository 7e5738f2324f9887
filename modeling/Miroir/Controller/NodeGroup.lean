import Miroir.Controller.Conditions
import Miroir.Csi.GroupController

/-!
# Node groups

A `MiroirNodeGroup` materializes one `MiroirNode` for each node its selector matches, labelled with
the group's name. A pass of its reconciler lists the nodes and the `MiroirNode` objects through the
informers, creates what is missing, converges the specs of objects that carry its label with a merge
patch, and reports in its status which nodes it manages, which it skipped because they have another
manager, and which of its objects no longer match.

A name is the key of its object. The passes of all groups run against one API server, with operators
who set and delete objects of every kind as they like; a read through an informer shows the objects
as they are or as they were at any earlier moment.
-/

namespace Miroir.Groups

open Process Prog Cond
open Csi (ApiErr)

/-! ## Objects -/

abbrev Labels := AList fun _ : String => String

/-- A lookup in a Go map of strings. -/
def Labels.value (l : Labels) (key : String) : String := (AList.lookup key l).getD ""

/-- The block of a pool that names its backend. -/
inductive PoolConfig where
  | lvmthin (device poolSize : String)
  | zfs (dataset compression volBlockSize : String)
  | loopfile (baseDir : String)
  deriving DecidableEq, Repr

/-- A pool of a node. -/
structure MiroirNodePool where
  name : String
  config : PoolConfig
  deriving DecidableEq, Repr

/-- The spec of a `MiroirNode`. -/
structure MiroirNodeSpec where
  zone : String := ""
  address : String := ""
  autoEvict : Option Bool := none
  pools : List MiroirNodePool
  deriving DecidableEq, Repr

/-- A `MiroirNode`, as the group controller reads it. -/
structure MiroirNode where
  labels : Labels := ∅
  spec : MiroirNodeSpec
  deriving DecidableEq

/-- What of a `corev1.Node` is read. -/
structure Node where
  labels : Labels := ∅
  annotations : Labels := ∅
  deriving DecidableEq

/-- A selector's operator. -/
inductive Operator where
  | isIn | notIn | exist | doesNotExist
  deriving DecidableEq, Repr

/-- A `matchExpressions` entry. -/
structure Requirement where
  key : String
  operator : Operator
  values : List String := []
  deriving DecidableEq, Repr

/-- A `metav1.LabelSelector`. -/
structure LabelSelector where
  matchLabels : List (String × String) := []
  matchExpressions : List Requirement := []
  deriving DecidableEq, Repr

/-- The status of a node group. -/
structure GroupStatus where
  nodes : List String := []
  observedGeneration : Nat := 0
  conditions : List Condition := []
  deriving DecidableEq

/-- A `MiroirNodeGroup`. -/
structure MiroirNodeGroup where
  generation : Nat := 1
  nodeSelector : LabelSelector
  template : MiroirNodeSpec
  status : GroupStatus := {}
  deriving DecidableEq

def nodeGroupLabel : String := "miroir.home-operations.com/node-group"

def nodeAddressAnnotation : String := "miroir.home-operations.com/address"

def labelTopologyZone : String := "topology.kubernetes.io/zone"

/-- The group that manages an object, empty for a direct-authored one. -/
def MiroirNode.group (mn : MiroirNode) : String := mn.labels.value nodeGroupLabel

/-! ## Selectors -/

def Requirement.matches (r : Requirement) (l : Labels) : Bool :=
  match r.operator with
  | .isIn => (AList.lookup r.key l).any fun v => v ∈ r.values
  | .notIn => (AList.lookup r.key l).all fun v => v ∉ r.values
  | .exist => (AList.lookup r.key l).isSome
  | .doesNotExist => (AList.lookup r.key l).isNone

/-- The operators that compare need values, the others take none. -/
def Requirement.valid (r : Requirement) : Bool :=
  match r.operator with
  | .isIn | .notIn => !r.values.isEmpty
  | .exist | .doesNotExist => r.values.isEmpty

def LabelSelector.matches (sel : LabelSelector) (l : Labels) : Bool :=
  (sel.matchLabels.all fun kv => AList.lookup kv.1 l = some kv.2) &&
    sel.matchExpressions.all fun r => r.matches l

/-! ## Commands -/

/-- A command of the group controller. -/
inductive Cmd where
  | getGroup (group : String)
  | listNodes (sel : LabelSelector)
  | listMiroirNodes
  | createMiroirNode (name : String) (mn : MiroirNode)
  /-- A merge patch from `base` to `modified`. -/
  | patchMiroirNode (name : String) (base modified : MiroirNode)
  | clock
  | patchStatus (group : String) (base modified : GroupStatus)
  deriving DecidableEq

abbrev Ans : Cmd → Type
  | .getGroup _ => Except ApiErr MiroirNodeGroup
  | .listNodes _ => Except ApiErr (List (Sigma fun _ : String => Node))
  | .listMiroirNodes => Except ApiErr (AList fun _ : String => MiroirNode)
  | .createMiroirNode .. | .patchMiroirNode .. | .patchStatus .. => Except ApiErr Unit
  | .clock => Stamp

abbrev GroupM := Prog Cmd Ans

abbrev GroupLog := Log Nat Ans

/-! ## Materializing -/

/-- The template with what comes from the node: the zone, if the template has none, and the
address. -/
def desiredSpec (group : MiroirNodeGroup) (node : Node) : MiroirNodeSpec :=
  { group.template with
    zone := if group.template.zone = "" then node.labels.value labelTopologyZone
      else group.template.zone
    address := node.annotations.value nodeAddressAnnotation }

/-- Whether the node is a member; it is not if its object has another manager. -/
def materialize (name : String) (group : MiroirNodeGroup) (nodeName : String) (node : Node) :
    Option MiroirNode → GroupM (Except ApiErr Bool)
  | none => do
    match ← call (Cmd.createMiroirNode nodeName
      { labels := AList.singleton nodeGroupLabel name, spec := desiredSpec group node }) with
    | .error e => return .error e
    | .ok () => return .ok true
  | some current => do
    if current.group ≠ name then return .ok false
    else if current.spec = desiredSpec group node then return .ok true
    else
      match ← call (Cmd.patchMiroirNode nodeName current
        { current with spec := desiredSpec group node }) with
      | .error e => return .error e
      | .ok () => return .ok true

/-- What a pass has found. -/
structure Pass where
  members : List String := []
  conflicts : List String := []
  errNodes : List String := []
  errs : List String := []
  deriving DecidableEq

/-- The loop over the nodes. -/
def materializeAll (name : String) (group : MiroirNodeGroup)
    (byName : AList fun _ : String => MiroirNode) :
    Pass → List (Sigma fun _ : String => Node) → GroupM Pass
  | pass, [] => return pass
  | pass, ⟨nodeName, node⟩ :: nodes => do
    match ← materialize name group nodeName node (AList.lookup nodeName byName) with
    | .error e =>
      let errs := pass.errs ++ ["node " ++ nodeName ++ ": " ++ e.text]
      materializeAll name group byName
        { pass with errs := errs, errNodes := pass.errNodes ++ [nodeName] } nodes
    | .ok true =>
      materializeAll name group byName { pass with members := pass.members ++ [nodeName] } nodes
    | .ok false =>
      materializeAll name group byName { pass with conflicts := pass.conflicts ++ [nodeName] } nodes

/-- The group's objects whose node is neither a member nor in error. -/
def orphans (name : String) (byName : AList fun _ : String => MiroirNode) (pass : Pass) :
    List String :=
  ((byName.entries.filter fun e =>
    e.2.group = name && e.1 ∉ pass.members && e.1 ∉ pass.errNodes).map
    Sigma.fst).insertionSort (· ≤ ·)

/-! ## The status -/

def conflictCond (conflicts : List String) : Condition :=
  if conflicts.isEmpty then
    { type := "Conflict", status := .false, reason := "NoConflict"
      message := "every matching node's MiroirNode is managed by this group" }
  else
    { type := "Conflict", status := .true, reason := "AnotherManager"
      message :=
        "skipped nodes whose MiroirNode has another manager (a direct MiroirNode always " ++
        "wins): " ++ ", ".intercalate conflicts }

def orphanCond (orphans : List String) : Condition :=
  if orphans.isEmpty then
    { type := "OrphanedMembers", status := .false, reason := "NoOrphans"
      message := "every materialized MiroirNode still matches the selector" }
  else
    { type := "OrphanedMembers", status := .true, reason := "LeftSelector"
      message := "materialized MiroirNodes no longer match the selector and were left in place " ++
        "(decommission with kubectl delete miroirnode): " ++ ", ".intercalate orphans }

/-- The errors of the status report. -/
def patchStatus (name : String) (group : MiroirNodeGroup)
    (members conflicts orphans : List String) :
    GroupM (List String) := do
  let now ← call Cmd.clock
  let status : GroupStatus :=
    { nodes := members
      observedGeneration := group.generation
      conditions := setStatusCondition now (orphanCond orphans)
        (setStatusCondition now (conflictCond conflicts) group.status.conditions) }
  if status = group.status then return []
  else
    match ← call (Cmd.patchStatus name group.status status) with
    | .error e => return [e.text]
    | .ok () => return []

/-! ## A pass -/

/-- `Reconcile`, with the errors it joins. -/
def reconcile (name : String) : GroupM (List String) := do
  match ← call (Cmd.getGroup name) with
  | .error .notFound => return []
  | .error e => return [e.text]
  | .ok group =>
    if !group.nodeSelector.matchExpressions.all Requirement.valid then
      return ["invalid nodeSelector"]
    else
      match ← call (Cmd.listNodes group.nodeSelector) with
      | .error e => return [e.text]
      | .ok nodes =>
        match ← call Cmd.listMiroirNodes with
        | .error e => return [e.text]
        | .ok byName =>
          let pass ← materializeAll name group byName {} nodes
          let errs ← patchStatus name group (pass.members.insertionSort (· ≤ ·))
            (pass.conflicts.insertionSort (· ≤ ·)) (orphans name byName pass)
          return pass.errs ++ errs

/-! ## The API server -/

/-- All objects. -/
structure View where
  groups : AList fun _ : String => MiroirNodeGroup := ∅
  nodes : AList fun _ : String => Node := ∅
  miroirNodes : AList fun _ : String => MiroirNode := ∅

/-- The API server with what it held before. -/
structure Server where
  current : View
  /-- What was there before, the latest first. -/
  past : List View := []

namespace Server

variable (s : Server)

/-- The server with other objects. -/
def next (v : View) : Server := ⟨v, s.current :: s.past⟩

def miroirNode (name : String) : Option MiroirNode := AList.lookup name s.current.miroirNodes

def setMiroirNode (name : String) (mn : MiroirNode) : Server :=
  s.next { s.current with miroirNodes := s.current.miroirNodes.insert name mn }

def create (name : String) (mn : MiroirNode) : Except ApiErr Unit × Server :=
  match s.miroirNode name with
  | some _ => (.error .alreadyExists, s)
  | none => (.ok (), s.setMiroirNode name mn)

/-- The fields in which the specs differ are set; a list is replaced as a whole. -/
def mergeSpec (base modified live : MiroirNodeSpec) : MiroirNodeSpec where
  zone := if modified.zone = base.zone then live.zone else modified.zone
  address := if modified.address = base.address then live.address else modified.address
  autoEvict := if modified.autoEvict = base.autoEvict then live.autoEvict else modified.autoEvict
  pools := if modified.pools = base.pools then live.pools else modified.pools

/-- The patch carries no version: it applies to whatever object has the name. -/
def patch (name : String) (base modified : MiroirNode) : Except ApiErr Unit × Server :=
  match s.miroirNode name with
  | none => (.error .notFound, s)
  | some live =>
    (.ok (), s.setMiroirNode name
      { live with spec := mergeSpec base.spec modified.spec live.spec })

def setStatus (group : String) (status : GroupStatus) : Except ApiErr Unit × Server :=
  match AList.lookup group s.current.groups with
  | none => (.error .notFound, s)
  | some g => (.ok (), s.next
      { s.current with groups := s.current.groups.insert group { g with status := status } })

end Server

/-- What becomes of a command. -/
inductive Outcome where
  | ok
  /-- A read shows the objects as they were this many changes ago. -/
  | stale (k : Nat)
  | fail (text : String)
  | invalid (text : String)
  /-- The API server takes the write, and the pass is told of a failure. -/
  | applied (text : String)
  | clock (now : Stamp)

/-- What an informer shows. -/
def Server.shown (s : Server) : Outcome → Option (Except ApiErr View)
  | .ok => some (.ok s.current)
  | .stale k => (s.current :: s.past)[k]?.map .ok
  | .fail text => some (.error (.other text))
  | _ => none

/-- What a write does, and what the pass is told of it. -/
def wrote (s : Server) (res : Except ApiErr Unit × Server) :
    Outcome → Option (Except ApiErr Unit × Server)
  | .ok => some res
  | .applied text => some (.error (.other text), res.2)
  | .fail text => some (.error (.other text), s)
  | .invalid text => some (.error (.invalid text), s)
  | _ => none

def answer (s : Server) : (c : Cmd) → Outcome → Option (Ans c × Server)
  | .getGroup g, o => (s.shown o).map fun v =>
    (v.bind fun v => (AList.lookup g v.groups).elim (.error .notFound) .ok, s)
  | .listNodes sel, o => (s.shown o).map fun v =>
    (v.map fun v => v.nodes.entries.filter fun e => sel.matches e.2.labels, s)
  | .listMiroirNodes, o => (s.shown o).map fun v => (v.map View.miroirNodes, s)
  | .createMiroirNode name mn, o => wrote s (s.create name mn) o
  | .patchMiroirNode name base modified, o => wrote s (s.patch name base modified) o
  | .patchStatus group _ modified, o => wrote s (s.setStatus group modified) o
  | .clock, .clock now => some (now, s)
  | .clock, _ => none

/-- An operator sets an object, or deletes it. -/
inductive Event where
  | group (name : String) (group : Option MiroirNodeGroup)
  | node (name : String) (node : Option Node)
  | miroirNode (name : String) (mn : Option MiroirNode)

instance : Inhabited Event := ⟨.node "" none⟩

/-- The objects with one of them set or deleted. -/
def put {α : Type} (m : AList fun _ : String => α) (name : String) :
    Option α → AList fun _ : String => α
  | some o => m.insert name o
  | none => m.erase name

def event (s : Server) : Event → Option Server
  | .group name g => some (s.next { s.current with groups := put s.current.groups name g })
  | .node name n => some (s.next { s.current with nodes := put s.current.nodes name n })
  | .miroirNode name mn =>
    some (s.next { s.current with miroirNodes := put s.current.miroirNodes name mn })

/-- The passes of the groups, by the group's name. -/
def passes : Workers Server String Unit Event Outcome Ans (List String) where
  program name _ := reconcile name
  answer s _ _ c o := answer s c o
  event := event

abbrev Act := Process.Act String Unit Event Outcome

end Miroir.Groups
