import Miroir.Controller.Conditions
import Miroir.Data.Text

/-!
# The writeback watcher

The watcher of a node reads the kernel log for writes lost under a filesystem on a DRBD device, and
for mounts and unmounts of it, and keeps the `WritebackError` on the node's slot of the volume. It
finds the volume of a minor in the cached list, and writes with the program of
`Miroir.Controller.Conditions`. What it could not apply stays pending for the next poll.
-/

namespace Miroir.Writeback

open Process Prog VolumeReconciler Cond Texts

/-! ## Kernel log lines -/

abbrev Line := Text

/-- What a kernel line says of a filesystem. -/
inductive FSEvent where
  | lostWrite | mounted | unmounted
  deriving DecidableEq, Repr

/-- The text of a kmsg record, after its header. -/
def kmsgPayload (line : Line) : Line := ((cut [';'] line).map Prod.snd).getD line

/-- The message of a record from the kernel; userspace has priorities from 8 on. -/
def kernelPayload (line : Line) : Option Line := do
  let (prio, rest) ← cut [','] line
  let p ← parseInt 64 prio
  if 8 ≤ p then none else some (kmsgPayload rest)

def parseMinor (s : Line) (ev : FSEvent) : Option (Nat × FSEvent) := do
  let minor ← parseInt 32 s
  if minor < 0 then none else some (minor.toNat, ev)

/-- The minor and the event that a line is about. -/
def parseFSEvent (line : Line) : Option (Nat × FSEvent) := do
  let msg ← kernelPayload line
  match msg.dropPrefix? "Buffer I/O error on dev drbd".toList with
  | some rest =>
    if ", lost async page write".toList.isSuffixOf rest ||
        ", lost sync page write".toList.isSuffixOf rest then
      parseMinor (((cut [','] rest).map Prod.fst).getD rest) .lostWrite
    else none
  | none => do
    let rest ← msg.dropPrefix? "EXT4-fs (drbd".toList
    let (dev, what) ← cut "): ".toList rest
    if "mounted filesystem".toList.isPrefixOf what then parseMinor dev .mounted
    else if "unmounting filesystem".toList.isPrefixOf what then parseMinor dev .unmounted
    else none

/-! ## Commands -/

/-- An event of a minor that waits for its volume. -/
structure PendingEvent where
  ev : FSEvent
  record : String
  deriving DecidableEq

/-- Minors with their event. -/
abbrev Events := List (Sigma fun _ : Nat => PendingEvent)

/-- A command of the watcher. -/
inductive WbCmd where
  /-- The volumes, from the cache. -/
  | list
  /-- `deviceMountedAnywhere`. -/
  | mounted (minor : Nat)
  | bootTime
  | clock
  /-- A loop over a map takes its entries in some order. -/
  | range (events : Events)
  | rangeNames (names : List String)
  /-- A command on the named volume. -/
  | volume (name : String) (c : Cond.Cmd)

abbrev WbAns : WbCmd → Type
  | .list => Except Err (List Object)
  | .mounted _ => Except Err Bool
  | .bootTime => Except Err Stamp
  | .clock => Nat
  | .range events => { order : Events // order.Perm events }
  | .rangeNames names => { order : List String // order.Perm names }
  | .volume _ c => Cond.Ans c

abbrev WbM := Prog WbCmd WbAns

/-! ## The watcher -/

/-- The watcher's state between two ticks. -/
structure Watcher where
  /-- The last unapplied event of each minor. -/
  pending : AList fun _ : Nat => PendingEvent := ∅
  /-- The volumes whose slot carries an error. -/
  flagged : List String := []
  /-- `none` before the first sweep. -/
  lastSweep : Option Nat := none

def Watcher.flag (w : Watcher) (name : String) : Watcher :=
  { w with flagged := w.flagged.insert name }

def Watcher.unflag (w : Watcher) (name : String) : Watcher :=
  { w with flagged := w.flagged.filter (· ≠ name) }

def slotError (node : String) (o : Object) : Option WritebackError :=
  (o.perNode.lookup node).bind NodeSlot.writebackError

/-- The volume whose slot on the node has the minor. -/
def volumeForMinor (vols : List Object) (node : String) (minor : Nat) : Option Object :=
  vols.find? fun o => (o.perNode.lookup node).any fun st => st.drbdMinor = minor

section
variable (node : String)

def updateVolume (name : String) (m : Mutation) : WbM (Except Err Bool) :=
  Prog.handle (fun c => call (WbCmd.volume name c)) (Cond.updateVolume node m defaultRetrySteps)

/-- The watcher without the entry, and the error. -/
def clear (name : String) (w : Watcher) : WbM (Watcher × Option Err) := do
  match ← updateVolume node name .clear with
  | .error (.notFound _) => return (w, none)
  | .error e => return (w, some e)
  | .ok _ => return (w.unflag name, none)

/-- The second component is whether the event is done with. -/
def apply (vols : List Object) (minor : Nat) (p : PendingEvent) (w : Watcher) :
    WbM (Watcher × Bool) :=
  match volumeForMinor vols node minor with
  | none => return (w, true)
  | some vol =>
    if p.ev ≠ .lostWrite then do
      let (w, err) ← clear node vol.name w
      return (w, err.isNone)
    else if vol.name ∈ w.flagged ∨ (slotError node vol).isSome then return (w, true)
    else do
      match ← call (WbCmd.mounted minor) with
      | .error _ => return (w, false)
      | .ok false => return (w, true)
      | .ok true =>
        match ← updateVolume node vol.name (.raise p.record) with
        | .error (.notFound _) => return (w, true)
        | .error _ => return (w, false)
        | .ok _ => return (w.flag vol.name, true)

/-- The loop of `applyPending`. -/
def applyAll (vols : List Object) : Events → Watcher → WbM Watcher
  | [], w => return w
  | ⟨minor, p⟩ :: rest, w => do
    let (w, done) ← apply node vols minor p w
    applyAll vols rest (if done then { w with pending := w.pending.erase minor } else w)

/-- Apply what is pending, in the order of the loop. -/
def applyPending (w : Watcher) : WbM Watcher :=
  if w.pending.entries.isEmpty then return w
  else do
    match ← call WbCmd.list with
    | .error _ => return w
    | .ok vols => do
      let order ← call (WbCmd.range w.pending.entries)
      applyAll node vols order.1 w

/-- The mount of the slot's error is gone. -/
def mountGone (minor : Nat) (e : WritebackError) (booted : Option Stamp) : WbM Bool :=
  if booted.any (e.since < ·) ∨ minor = 0 then return true
  else do
    match ← call (WbCmd.mounted minor) with
    | .ok false => return true
    | _ => return false

/-- A condition that does not fit the slots is derived again. -/
def rederive (vol : Object) : WbM Unit :=
  if setRestageCondition vol 0 = vol then return ()
  else do
    let _ ← updateVolume node vol.name .rederive

/-- The first loop of `sweep`; the second component are the flags not seen in the list. -/
def sweepListed (booted : Option Stamp) :
    List Object → Watcher → List String → WbM (Watcher × List String)
  | [], w, unseen => return (w, unseen)
  | vol :: vols, w, unseen => do
    rederive node vol
    match vol.perNode.lookup node with
    | some { writebackError := some e, drbdMinor := minor, .. } =>
      let unseen := unseen.filter (· ≠ vol.name)
      if ← mountGone minor e booted then do
        let (w, _) ← clear node vol.name w
        sweepListed booted vols w unseen
      else sweepListed booted vols (w.flag vol.name) unseen
    | _ => sweepListed booted vols w unseen

/-- The second loop: a flag is retired by an uncached read. -/
def sweepUnseen : List String → Watcher → WbM Watcher
  | [], w => return w
  | name :: names, w => do
    match ← call (WbCmd.volume name .get) with
    | .error (.notFound _) | .ok none => sweepUnseen names (w.unflag name)
    | .error _ => sweepUnseen names w
    | .ok (some vol) =>
      sweepUnseen names (if (slotError node vol.object).isNone then w.unflag name else w)

/-- Clear the entries whose mount is gone, and retire flags. -/
def sweep (w : Watcher) : WbM Watcher := do
  match ← call WbCmd.list with
  | .error _ => return w
  | .ok vols => do
    let booted ← call WbCmd.bootTime
    let (w, unseen) ← sweepListed node booted.toOption vols w w.flagged
    let order ← call (WbCmd.rangeNames unseen)
    sweepUnseen node order.1 w

def defaultRestageSweepInterval : Nat := 30 * second

def readLine (w : Watcher) (line : Line) : Watcher :=
  match parseFSEvent line with
  | some (minor, ev) =>
    { w with pending := w.pending.insert minor ⟨ev, String.ofList (kmsgPayload line)⟩ }
  | none => w

def handle (lines : List Line) (w : Watcher) : WbM Watcher := do
  let w ← applyPending node (lines.foldl readLine w)
  let now ← call WbCmd.clock
  if w.lastSweep.all fun last => last + defaultRestageSweepInterval ≤ now then
    sweep node { w with lastSweep := some now }
  else return w

/-- The polls of the watcher, each with the lines it has read. -/
def watch : List (List Line) → Watcher → WbM Watcher
  | [], w => return w
  | lines :: batches, w => do
    let w ← handle node lines w
    watch batches w

end

end Miroir.Writeback
