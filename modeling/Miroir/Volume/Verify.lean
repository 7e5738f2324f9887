import Miroir.Volume.StuckResync

/-!
# Scheduled online verifies

On its schedule every node lists the volumes and verifies those it coordinates, one after the other:
it puts a marker on its status slot, kicks the verify off, polls until the kernel has finished, and
records what was found. The kernel compares the coordinator's disk with every connected peer's and
sets a bit for every difference; the bits of a pair stay until the pair is disconnected and
connected again, which resyncs them away.

`Found` is the world: the objects on the API server, and for every volume the bits of each pair,
told apart by who set them.
-/

namespace Miroir.Verify

open Process Prog VolumeReconciler

/-- The fields of a status slot that the verify field owner declares. -/
structure Slot where
  startedAt : Option Stamp := none
  outOfSyncBytes : Option Nat := none
  deriving DecidableEq, Repr

/-- The slot keeps the stale-bitmap recovery off. -/
def Slot.holds (s : Slot) : Bool := s.startedAt.isSome || s.outOfSyncBytes.any fun v => 0 < v

def slotOf (vol : Volume) (node : String) : Slot where
  startedAt := (vol.status.perNode node).verifyStartedAt
  outOfSyncBytes := (vol.status.perNode node).lastVerifyOutOfSyncBytes

/-! ## The scheduler -/

/-- Volumes of pairwise distinct names. -/
abbrev Listing := { vols : List Volume // (vols.map Volume.name).Nodup }

/-- A command of the scheduler. -/
inductive Cmd where
  /-- The volumes. The source reads the informer cache, which is taken to be up to date. -/
  | list
  /-- The manager is shutting down. -/
  | done
  | status (v : String)
  | clock
  | applySlot (v : String) (slot : Slot)
  /-- `drbdadm verify`. -/
  | verify (v : String)
  deriving DecidableEq

abbrev Ans : Cmd → Type
  | .list => Except Err Listing
  | .done => Bool
  | .status _ => Except Err KernelStatus
  | .clock => Stamp
  | .applySlot _ _ | .verify _ => Except Err Unit

abbrev VerifyM := Prog Cmd Ans

abbrev VerifyLog := Log Nat Ans

section Scheduler

variable (self : String)

def coordinates (vol : Volume) : Bool :=
  vol.spec.drbd && (vol.spec.firstDiskful.any fun coord => coord.node = self) &&
    (vol.status.perNode self).deviceCreated

/-- The last recorded outcome, without the marker. -/
def carriedVerifySlot (vol : Volume) : Slot := { slotOf vol self with startedAt := none }

def failure : Except Err Unit → Option Err
  | .error e => some e
  | .ok () => none

/-- Wait for the verify and record its outcome; `n` bounds how often the status is polled. -/
def poll (vol : Volume) : Nat → VerifyM (Option Err)
  | 0 => return none
  | n + 1 => do
    -- The select: shutdown, or the next tick. The marker stays.
    if ← call Cmd.done then return none
    match ← call (Cmd.status vol.name) with
    | .error e => return some e
    | .ok st =>
      if st.verifying then poll vol n
      else if !diskfulPeersConnected st.view vol self then
        return failure (← call (Cmd.applySlot vol.name (carriedVerifySlot self vol)))
      else
        return failure (← call (Cmd.applySlot vol.name
          { outOfSyncBytes := some (st.outOfSyncKiB * 1024) }))

/-- Put the marker on the slot, unless an earlier run has left one. -/
def recordStart (vol : Volume) : VerifyM (Except Err Unit) :=
  if (slotOf vol self).startedAt.isSome then return .ok ()
  else do
    let now ← call Cmd.clock
    call (Cmd.applySlot vol.name { carriedVerifySlot self vol with startedAt := some now })

/-- Take a marker of this run off after a failed kick; an error is only logged. -/
def withdraw (vol : Volume) : VerifyM Unit :=
  if (slotOf vol self).startedAt.isSome then return ()
  else do
    let _ ← call (Cmd.applySlot vol.name (carriedVerifySlot self vol))

/-- The volume is not quiet, or not fully connected. -/
def skips (vol : Volume) (st : KernelStatus) : Bool :=
  st.resyncing || st.suspended || st.splitBrain || st.diskState ≠ some .upToDate ||
    !diskfulPeersConnected st.view vol self

/-- Verify a quiet volume: record the start, run it, and poll its end. -/
def verifyVolume (polls : Nat) (vol : Volume) : VerifyM (Option Err) := do
  match ← call (Cmd.status vol.name) with
  | .error e => return some e
  | .ok st =>
    if skips self vol st then return none
    else
      match ← recordStart self vol with
      | .error e => return some e
      | .ok () =>
        match ← call (Cmd.verify vol.name) with
        | .error e =>
          withdraw self vol
          return some e
        | .ok () => poll self vol polls

/-- The loop of `runOnce`; the error of a volume is only logged. -/
def sweep (polls : Nat) : List Volume → VerifyM (Option Err)
  | [] => return none
  | vol :: vols => do
    if ← call Cmd.done then return none
    else if coordinates self vol then
      let _ ← verifyVolume self polls vol
      sweep polls vols
    else sweep polls vols

/-- Verify the volumes that this node coordinates, one by one. -/
def runOnce (polls : Nat) : VerifyM (Option Err) := do
  match ← call Cmd.list with
  | .error e => return some e
  | .ok vols => sweep self polls vols.1

end Scheduler

/-! ## The world -/

/-- The connection of the coordinator with one peer; bits are counted in KiB. -/
structure Pair where
  connected : Bool := true
  verifying : Bool := false
  /-- Bits a verify set that no reconnect has cleared. -/
  found : Nat := 0
  /-- All other bits. -/
  other : Nat := 0
  deriving DecidableEq, Repr

/-- A volume, and its resource on the coordinator. -/
structure Found where
  object : Volume
  /-- The node ids of the peers. -/
  ids : List Nat
  pair : Nat → Pair
  /-- What the status says beside the pairs. -/
  rest : KernelStatus

/-- The volumes by name. -/
abbrev World := String → Found

def Found.setPair (f : Found) (i : Nat) (p : Pair) : Found :=
  { f with pair := Function.update f.pair i p }

/-- A status slot with these verify fields. -/
def Slot.over (s : Slot) (st : ReplicaStatus) : ReplicaStatus :=
  { st with verifyStartedAt := s.startedAt, lastVerifyOutOfSyncBytes := s.outOfSyncBytes }

/-- What an apply of the verify fields leaves. -/
def Found.applied (f : Found) (node : String) (s : Slot) : Found :=
  { f with object := Growth.withSlot f.object node (s.over (f.object.status.perNode node)) }

def Pair.bits (p : Pair) : Nat := p.found + p.other

/-- The status the coordinator's kernel reports. -/
def Found.status (f : Found) : KernelStatus :=
  { f.rest with
    peerConnected := f.ids.foldr (fun i m => m.insert i (f.pair i).connected) ∅
    verifying := f.ids.any fun i => (f.pair i).verifying
    resyncing := f.rest.resyncing || f.ids.any fun i => (f.pair i).verifying
    outOfSyncKiB := (f.ids.map fun i => (f.pair i).bits).foldr max 0
    staleBitmapPeers := (f.ids.filter fun i => (f.pair i).connected && !(f.pair i).verifying &&
      f.rest.peerDiskState.lookup i = some .upToDate && 0 < (f.pair i).bits).toFinset }

/-- The verify starts on these pairs, as far as they are connected. -/
def Found.kicked (f : Found) (started : List Nat) : Found :=
  { f with pair := fun i =>
      if i ∈ started && (f.pair i).connected then { f.pair i with verifying := true }
      else f.pair i }

/-- What becomes of a command. -/
inductive Outcome where
  | ok
  /-- These volumes are in the cache. -/
  | listed (names : List String)
  | flag (b : Bool)
  | clock (t : Stamp)
  /-- The verify has started on these pairs, and the command reports an error. -/
  | kicked (started : List Nat) (err : Option Err)
  /-- It fails, and was carried out or not. -/
  | fail (e : Err) (applied : Bool)

def reported (err : Option Err) : Except Err Unit :=
  match err with
  | some e => .error e
  | none => .ok ()

theorem names_of_objects {s : World} {names : List String}
    (h : names.Nodup ∧ ∀ v ∈ names, (s v).object.name = v) :
    ((names.map fun v => (s v).object).map Volume.name).Nodup := by
  have hnames : (names.map fun v => (s v).object).map Volume.name = names :=
    List.map_map.trans ((List.map_congr_left h.2).trans (List.map_id' names))
  rw [hnames]
  exact h.1

def answer (s : World) (self : String) : (c : Cmd) → Outcome → Option (Ans c × World)
  | .list, .listed names =>
    if h : names.Nodup ∧ ∀ v ∈ names, (s v).object.name = v then
      some (.ok ⟨names.map fun v => (s v).object, names_of_objects h⟩, s)
    else none
  | .list, .fail e _ => some (.error e, s)
  | .done, .flag b => some (b, s)
  | .status v, .ok => some (.ok (s v).status, s)
  | .status _, .fail e _ => some (.error e, s)
  | .clock, .clock t => some (t, s)
  | .applySlot v slot, .ok => some (.ok (), Function.update s v ((s v).applied self slot))
  | .applySlot v slot, .fail e applied =>
    some (.error e, if applied then Function.update s v ((s v).applied self slot) else s)
  | .verify v, .kicked started err =>
    some (reported err, Function.update s v ((s v).kicked started))
  | _, _ => none

/-- What happens to the pairs between commands. -/
inductive Event where
  /-- A running verify finds differences. -/
  | finds (v : String) (i n : Nat)
  /-- The verify of a pair ends. -/
  | ends (v : String) (i : Nat)
  | disconnects (v : String) (i : Nat)
  /-- The pair is connected again, and resyncs its bits. -/
  | connects (v : String) (i : Nat)
  /-- Writes while a pair is apart, or a resync, change its other bits. -/
  | resyncs (v : String) (i n : Nat)
  /-- The rest of the kernel's status changes. -/
  | changes (v : String) (st : KernelStatus)
  /-- An agent or the CSI controller writes the status; the verify fields are not theirs. -/
  | writes (v : String) (status : VolumeStatus)

instance : Inhabited Event := ⟨.ends "" 0⟩

def Found.event (f : Found) : Event → Option Found
  | .finds _ i n =>
    if (f.pair i).verifying then
      some (f.setPair i { f.pair i with found := (f.pair i).found + n })
    else none
  | .ends _ i => some (f.setPair i { f.pair i with verifying := false })
  | .disconnects _ i => some (f.setPair i { f.pair i with connected := false, verifying := false })
  | .connects _ i =>
    let p := f.pair i
    some (f.setPair i { connected := true, other := p.bits })
  | .resyncs _ i n => some (f.setPair i { f.pair i with other := n })
  | .changes _ st => some { f with rest := st }
  | .writes _ status =>
    some { f with object := { f.object with
      status := { status with
        perNode := fun n => (slotOf f.object n).over (status.perNode n) } } }

def Event.volume : Event → String
  | .finds v .. | .ends v _ | .disconnects v _ | .connects v _ | .resyncs v .. | .changes v _
  | .writes v _ => v

def event (s : World) (e : Event) : Option World :=
  ((s e.volume).event e).map fun f => Function.update s e.volume f

/-- The nodes' schedulers; a sweep comes with a bound on its polls. -/
def schedulers : Workers World String Nat Event Outcome Ans (Option Err) where
  program := runOnce
  answer s self _ c o := answer s self c o
  event := event

abbrev Schedulers := Conf World String Nat Ans (Option Err)

abbrev Act := Process.Act String Nat Event Outcome

end Miroir.Verify
