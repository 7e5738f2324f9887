import Miroir.Process.Workers
import Mathlib.Data.List.TakeDrop
import Mathlib.Data.List.Infix

/-!
# The loopfile backend

A volume is a sparse image file attached as a loop device, and a snapshot is a reflink copy of it.
`Create`, `CreateFromSnapshot` and `Snapshot` make their file under a temporary name and rename it
into place; `Resize` grows the file and has the loop device take the new size; `Delete` detaches the
device and removes the files. All are sequences of commands, each of which may fail, with or without
an effect, and the agent may crash between any two of them.

A loop device keeps the capacity it had when it was attached until `losetup -c` refreshes it. It is
attached to an image, which is never moved.
-/

namespace Miroir.Loopfile

open Process Prog

/-! ## Commands -/

/-- The files under the base directory. -/
inductive File where
  | image (vol : String)
  | snapshot (snap : String)
  | tmp (file : File)
  deriving DecidableEq, Repr

def File.path (baseDir : String) : File → String
  | .image vol => baseDir ++ "/volumes/" ++ vol ++ ".img"
  | .snapshot snap => baseDir ++ "/snapshots/" ++ snap ++ ".img"
  | .tmp file => file.path baseDir ++ ".tmp"

abbrev Bytes := List UInt8

def zeros (n : Nat) : Bytes := List.replicate n 0

/-- How a command fails. -/
inductive ExecErr where
  | noSuchFile
  | other (text : String)
  deriving DecidableEq, Repr

def ExecErr.text : ExecErr → String
  | .noSuchFile => "No such file or directory"
  | .other text => text

/-- A line of `lsblk -rno NAME,MOUNTPOINT`. -/
structure Row where
  name : String
  mountpoint : Option String := none
  deriving DecidableEq, Repr

/-- A system call or a tool that the backend runs. -/
inductive Cmd where
  | stat (file : File)
  /-- `stat -c %s`. -/
  | statSize (file : File)
  | truncate (sizeBytes : Nat) (file : File)
  | mv (src dst : File)
  /-- `cp --reflink=always`. -/
  | reflink (src dst : File)
  /-- `rm -f`. -/
  | rm (files : List File)
  /-- `losetup -j`. -/
  | attached (file : File)
  /-- `losetup --find --show`. -/
  | find (file : File)
  /-- `losetup --direct-io=on`. -/
  | directIo (dev : String)
  /-- `losetup -c`. -/
  | refresh (dev : String)
  | lsblk (dev : String)
  /-- `losetup -d`. -/
  | detach (dev : String)
  | ln (dev link : String)
  /-- `rm -f` of a link. -/
  | unlink (link : String)
  deriving DecidableEq, Repr

abbrev Ans : Cmd → Type
  | .statSize _ => Except ExecErr Nat
  | .attached _ => Except ExecErr (List String)
  | .find _ => Except ExecErr String
  | .lsblk _ => Except ExecErr (List Row)
  | .stat _ | .truncate .. | .mv .. | .reflink .. | .rm _ | .directIo _ | .refresh _ | .detach _
  | .ln .. | .unlink _ => Except ExecErr Unit

abbrev LoopM := Prog Cmd Ans

abbrev LoopLog := Log Nat Ans

/-! ## Calls -/

/-- `Busy`, on the text of an error. -/
def busy (text : String) : String :=
  if ["held open", "busy", "in use", "has children", "dependent clones"].any
      fun cause => cause.toList <:+: text.toList then
    "backend resource busy: " ++ text
  else text

section Calls

variable (baseDir : String)

def devicePath (vol : String) : String := baseDir ++ "/dev/" ++ vol

def fileExists (file : File) : LoopM (Except String Bool) := do
  match ← call (Cmd.stat file) with
  | .ok () => return .ok true
  | .error .noSuchFile => return .ok false
  | .error (.other text) => return .error text

/-- The loop device of a file, the first if there are several; empty if there is none. -/
def loopDev (file : File) : LoopM (Except String String) := do
  match ← call (Cmd.attached file) with
  | .error e => return .error ("losetup -j " ++ file.path baseDir ++ ": " ++ e.text)
  | .ok devs => return .ok (devs.headD "")

/-- A loop device for the file: the one it has, or a new one. -/
def ensureLoop (file : File) : LoopM (Except String String) := do
  match ← loopDev baseDir file with
  | .error e => return .error e
  | .ok dev =>
    if dev ≠ "" then return .ok dev
    else
      match ← call (Cmd.find file) with
      | .error e => return .error ("losetup --find " ++ file.path baseDir ++ ": " ++ e.text)
      | .ok dev => return .ok dev

/-- The device link of a file, which is attached if it is not. -/
def attach (vol : String) (file : File) : LoopM (Except String String) := do
  match ← ensureLoop baseDir file with
  | .error e => return .error e
  | .ok dev =>
    let _ ← call (Cmd.directIo dev)
    let link := devicePath baseDir vol
    match ← call (Cmd.ln dev link) with
    | .error e => return .error ("symlink " ++ link ++ " -> " ++ dev ++ ": " ++ e.text)
    | .ok () => return .ok link

/-- The image of a fresh volume. -/
def makeImage (sizeBytes : Nat) (file : File) : LoopM (Except String Unit) := do
  match ← call (Cmd.truncate sizeBytes (.tmp file)) with
  | .error e => return .error ("create backing file " ++ file.path baseDir ++ ": " ++ e.text)
  | .ok () =>
    match ← call (Cmd.mv (.tmp file) file) with
    | .error e => return .error ("move backing file into place " ++ file.path baseDir ++ ": " ++
        e.text)
    | .ok () => return .ok ()

/-- Reflink to a temporary file, then rename it. -/
def reflinkAtomic (src dst : File) : LoopM (Except ExecErr Unit) := do
  match ← call (Cmd.reflink src (.tmp dst)) with
  | .error e => return .error e
  | .ok () => call (Cmd.mv (.tmp dst) dst)

/-- The image of a clone. -/
def cloneImage (vol snap : String) (file : File) : LoopM (Except String Unit) := do
  match ← reflinkAtomic (.snapshot snap) file with
  | .error e => return .error ("reflink clone " ++ vol ++ " from " ++ snap ++ ": " ++ e.text)
  | .ok () => return .ok ()

/-- What `Create` and `CreateFromSnapshot` share: an image that is not there is made, and it is
attached. -/
def ensureImage (vol : String) (make : File → LoopM (Except String Unit)) :
    LoopM (Except String String) := do
  match ← fileExists (.image vol) with
  | .error e => return .error e
  | .ok true => attach baseDir vol (.image vol)
  | .ok false =>
    match ← make (.image vol) with
    | .error e => return .error e
    | .ok () => attach baseDir vol (.image vol)

def create (vol : String) (sizeBytes : Nat) : LoopM (Except String String) :=
  ensureImage baseDir vol (makeImage baseDir sizeBytes)

def createFromSnapshot (vol snap : String) : LoopM (Except String String) :=
  ensureImage baseDir vol (cloneImage vol snap)

/-- Grow the image and have its loop device take the new size. -/
def resize (vol : String) (sizeBytes : Nat) : LoopM (Except String Unit) := do
  match ← call (Cmd.statSize (.image vol)) with
  | .error e => return .error e.text
  | .ok cur =>
    if sizeBytes ≤ cur then return .ok ()
    else
      match ← call (Cmd.truncate sizeBytes (.image vol)) with
      | .error e => return .error ("grow backing file " ++ vol ++ " to " ++ toString sizeBytes ++
          ": " ++ e.text)
      | .ok () =>
        match ← loopDev baseDir (.image vol) with
        | .error e => return .error e
        | .ok dev =>
          if dev = "" then return .ok ()
          else
            match ← call (Cmd.refresh dev) with
            | .error e => return .error ("losetup -c " ++ dev ++ ": " ++ e.text)
            | .ok () => return .ok ()

/-- Reflink the image, unless the snapshot is there. -/
def snapshot (vol snap : String) : LoopM (Except String Unit) := do
  match ← fileExists (.snapshot snap) with
  | .error e => return .error e
  | .ok true => return .ok ()
  | .ok false =>
    match ← reflinkAtomic (.image vol) (.snapshot snap) with
    | .error e => return .error ("reflink snapshot " ++ snap ++ " of " ++ vol ++ ": " ++ e.text)
    | .ok () => return .ok ()

/-- Why the loop device cannot be detached; empty if it can. -/
def held (dev : String) : LoopM (Except String String) := do
  match ← call (Cmd.lsblk dev) with
  | .error e => return .error ("lsblk " ++ dev ++ ": " ++ e.text)
  | .ok (_ :: row :: _) => return .ok ("stacked device " ++ row.name ++ " holds it")
  | .ok [⟨_, some mountpoint⟩] => return .ok ("mounted at " ++ mountpoint)
  | .ok _ => return .ok ""

/-- Detach a loop device that nothing holds. -/
def detach (dev : String) : LoopM (Except String Unit) := do
  match ← held dev with
  | .error e => return .error e
  | .ok reason =>
    if reason ≠ "" then
      return .error ("backend resource busy: detach " ++ dev ++ ": " ++ reason)
    else
      match ← call (Cmd.detach dev) with
      | .error e => return .error (busy ("detach " ++ dev ++ ": " ++ e.text))
      | .ok () => return .ok ()

/-- The files of a volume that has no loop device any more. -/
def removeImage (vol : String) : LoopM (Except String Unit) := do
  match ← call (Cmd.unlink (devicePath baseDir vol)) with
  | .error e => return .error ("remove symlink " ++ devicePath baseDir vol ++ ": " ++ e.text)
  | .ok () =>
    match ← call (Cmd.rm [.image vol, .tmp (.image vol)]) with
    | .error e => return .error ("remove backing file " ++ (File.image vol).path baseDir ++ ": " ++
        e.text)
    | .ok () => return .ok ()

/-- Detach the image and remove it. -/
def delete (vol : String) : LoopM (Except String Unit) := do
  match ← fileExists (.image vol) with
  | .error e => return .error e
  | .ok false =>
    match ← call (Cmd.rm [.tmp (.image vol)]) with
    | .error e => return .error ("remove leftover " ++ (File.image vol).path baseDir ++ ".tmp: " ++
        e.text)
    | .ok () => return .ok ()
  | .ok true =>
    match ← loopDev baseDir (.image vol) with
    | .error e => return .error e
    | .ok dev =>
      if dev = "" then removeImage baseDir vol
      else
        match ← detach dev with
        | .error e => return .error e
        | .ok () => removeImage baseDir vol

def deleteSnapshot (snap : String) : LoopM (Except String Unit) := do
  match ← call (Cmd.rm [.snapshot snap, .tmp (.snapshot snap)]) with
  | .error e => return .error ("remove snapshot " ++ snap ++ ": " ++ e.text)
  | .ok () => return .ok ()

end Calls

/-- A call of the backend. -/
inductive Job where
  | create (vol : String) (sizeBytes : Nat)
  | createFromSnapshot (vol snap : String)
  | resize (vol : String) (sizeBytes : Nat)
  | snapshot (vol snap : String)
  | delete (vol : String)
  | deleteSnapshot (snap : String)
  deriving DecidableEq, Repr

/-- What a call returns. -/
inductive Result where
  | device (res : Except String String)
  | done (res : Except String Unit)

def Job.program (baseDir : String) : Job → LoopM Result
  | .create vol sizeBytes => do return .device (← Loopfile.create baseDir vol sizeBytes)
  | .createFromSnapshot vol snap => do
    return .device (← Loopfile.createFromSnapshot baseDir vol snap)
  | .resize vol sizeBytes => do return .done (← Loopfile.resize baseDir vol sizeBytes)
  | .snapshot vol snap => do return .done (← Loopfile.snapshot vol snap)
  | .delete vol => do return .done (← Loopfile.delete baseDir vol)
  | .deleteSnapshot snap => do return .done (← Loopfile.deleteSnapshot snap)

/-! ## The host -/

/-- An attached loop device. -/
structure Loop where
  dev : String
  /-- The kernel's names are not empty. -/
  named : dev ≠ ""
  file : File
  capacity : Nat
  deriving DecidableEq

/-- The files and loop devices of a node. -/
structure Host where
  files : AList fun _ : File => Bytes := ∅
  loops : List Loop := []
  links : AList fun _ : String => String := ∅

namespace Host

variable (s : Host)

variable {l : Loop} {dev : String}

def file (file : File) : Option Bytes := s.files.lookup file

/-- The loop devices of a file. -/
def loopsOf (file : File) : List Loop := s.loops.filter fun l => l.file = file

def setFile (file : File) (bytes : Bytes) : Host :=
  { s with files := s.files.insert file bytes }

def erase (files : List File) : Host :=
  { s with files := files.foldl (fun fs file => fs.erase file) s.files }

/-- A new file is made empty before it gets its size. -/
def touch (file : File) : Host :=
  if (s.file file).isSome then s else s.setFile file []

/-- The file keeps the bytes it has below its new size, and reads as zeros above them. -/
def truncate (sizeBytes : Nat) (file : File) : Host :=
  s.setFile file (((s.file file).getD []).takeD sizeBytes 0)

/-- A file with these bytes gets another name. -/
def rename (src dst : File) (bytes : Bytes) : Host :=
  { s with files := (s.files.erase src).insert dst bytes }

def mv (src dst : File) : Except ExecErr Unit × Host :=
  match s.file src with
  | none => (.error .noSuchFile, s)
  | some bytes => (.ok (), s.rename src dst bytes)

def reflink (src dst : File) : Except ExecErr Unit × Host :=
  match s.file src with
  | none => (.error .noSuchFile, s)
  | some bytes => (.ok (), s.setFile dst bytes)

def addLoop (l : Loop) : Host := { s with loops := s.loops ++ [l] }

/-- A loop device over the file, with the file's size. -/
def find (file : File) (dev : { d : String // d ≠ "" }) : Option Host :=
  if s.loops.any fun l => l.dev = dev.1 then none
  else (s.file file).map fun bytes => s.addLoop ⟨dev.1, dev.2, file, bytes.length⟩

/-- The size of a file, zero if it is not there. -/
def size (file : File) : Nat := ((s.file file).getD []).length

/-- A loop device after `losetup -c` on `dev`. -/
def refreshed (dev : String) (l : Loop) : Loop :=
  if l.dev = dev then { l with capacity := s.size l.file } else l

def refresh (dev : String) : Except ExecErr Unit × Host :=
  if s.loops.any fun l => l.dev = dev then
    (.ok (), { s with loops := s.loops.map (s.refreshed dev) })
  else (.error .noSuchFile, s)

def detach (dev : String) : Except ExecErr Unit × Host :=
  if s.loops.any fun l => l.dev = dev then
    (.ok (), { s with loops := s.loops.filter fun l => l.dev ≠ dev })
  else (.error .noSuchFile, s)

variable {s} {f f' : File} {bytes : Bytes}

@[simp] theorem file_setFile : (s.setFile f bytes).file f = some bytes := AList.lookup_insert _

theorem file_setFile_ne (h : f' ≠ f) : (s.setFile f bytes).file f' = s.file f' :=
  AList.lookup_insert_ne h

theorem file_erase {files : List File} :
    (s.erase files).file f = if f ∈ files then none else s.file f := by
  induction files generalizing s with
  | nil => rfl
  | cons f' files ih =>
    have hcons : s.erase (f' :: files) = (s.erase [f']).erase files := rfl
    rw [hcons, ih]
    by_cases hf : f = f'
    · subst hf
      have : (s.erase [f]).file f = none := AList.lookup_erase _ _
      simp [this]
    · have : (s.erase [f']).file f = s.file f := AList.lookup_erase_ne hf
      simp [this, hf]

@[simp] theorem size_truncate {n : Nat} : (s.truncate n f).size f = n := by
  rw [size, truncate, file_setFile]
  exact List.takeD_length n _ 0

theorem file_touch_ne (h : f' ≠ f) : (s.touch f).file f' = s.file f' := by
  rw [touch]
  split
  · rfl
  · exact file_setFile_ne h

theorem loopsOf_addLoop :
    (s.addLoop l).loopsOf f = s.loopsOf f ++ if l.file = f then [l] else [] := by
  rw [loopsOf, addLoop, List.filter_append, loopsOf]
  by_cases h : l.file = f <;> simp [h]

@[simp] theorem refreshed_dev : (s.refreshed dev l).dev = l.dev := by
  rw [refreshed]
  split <;> rfl

@[simp] theorem refreshed_file : (s.refreshed dev l).file = l.file := by
  rw [refreshed]
  split <;> rfl

/-- A refreshed device has its file's size, or the capacity it had. -/
theorem refreshed_capacity :
    (s.refreshed dev l).capacity = if l.dev = dev then s.size l.file else l.capacity := by
  rw [refreshed]
  split <;> rfl

theorem loopsOf_refreshed :
    ({ s with loops := s.loops.map (s.refreshed dev) } : Host).loopsOf f =
      (s.loopsOf f).map (s.refreshed dev) := by
  rw [loopsOf, List.filter_map, loopsOf]
  congr 2
  funext l
  simp

@[simp] theorem loops_touch : (s.touch f).loops = s.loops := by
  rw [touch]
  split <;> rfl

@[simp] theorem file_rename {src dst : File} : (s.rename src dst bytes).file dst = some bytes :=
  AList.lookup_insert _

theorem file_rename_ne {src dst : File} (hs : f ≠ src) (hd : f ≠ dst) :
    (s.rename src dst bytes).file f = s.file f :=
  (AList.lookup_insert_ne hd).trans (AList.lookup_erase_ne hs)

end Host

/-- What becomes of a command. -/
inductive Outcome where
  | ok
  /-- The device the kernel gives. -/
  | loop (dev : { d : String // d ≠ "" })
  /-- A device is made, and the command fails. -/
  | lostLoop (dev : { d : String // d ≠ "" }) (text : String)
  /-- What lies on a device, and where it is mounted. -/
  | rows (rows : List Row)
  | fail (text : String)
  /-- The command takes effect, and fails. -/
  | applied (text : String)
  /-- A copy stops, and leaves these bytes. -/
  | short (bytes : Bytes) (text : String)
  /-- Only the first files are removed. -/
  | partly (n : Nat) (text : String)

/-- What a command does and what the agent is told, with what it leaves if it stops partway. -/
def ran (s : Host) (res : Except ExecErr Unit × Host) (partway : Outcome → Option (String × Host)) :
    Outcome → Option (Except ExecErr Unit × Host)
  | .ok => some res
  | .applied text => some (.error (.other text), res.2)
  | .fail text => some (.error (.other text), s)
  | o => (partway o).map fun r => (.error (.other r.1), r.2)

/-- What the host answers to a command. -/
def answer (s : Host) : (c : Cmd) → Outcome → Option (Ans c × Host)
  | .stat file, .ok => some (if (s.file file).isSome then .ok () else .error .noSuchFile, s)
  | .stat _, .fail text => some (.error (.other text), s)
  | .stat _, _ => none
  | .statSize file, .ok =>
    some ((s.file file).elim (.error .noSuchFile) fun bytes => .ok bytes.length, s)
  | .statSize _, .fail text => some (.error (.other text), s)
  | .statSize _, _ => none
  | .truncate n file, o =>
    ran s (.ok (), s.truncate n file)
      (fun | .short _ text => some (text, s.touch file) | _ => none) o
  | .mv src dst, o => ran s (s.mv src dst) (fun _ => none) o
  | .reflink src dst, o =>
    ran s (s.reflink src dst)
      (fun | .short bytes text => some (text, s.setFile dst bytes) | _ => none) o
  | .rm files, o =>
    ran s (.ok (), s.erase files)
      (fun | .partly n text => some (text, s.erase (files.take n)) | _ => none) o
  | .attached file, .ok => some (.ok ((s.loopsOf file).map Loop.dev), s)
  | .attached _, .fail text => some (.error (.other text), s)
  | .attached _, _ => none
  | .find file, .loop dev => (s.find file dev).map fun s' => (.ok dev.1, s')
  | .find file, .lostLoop dev text => (s.find file dev).map fun s' => (.error (.other text), s')
  | .find _, .fail text => some (.error (.other text), s)
  | .find _, _ => none
  | .directIo _, o => ran s (.ok (), s) (fun _ => none) o
  | .refresh dev, o => ran s (s.refresh dev) (fun _ => none) o
  | .lsblk _, .rows rows => some (.ok rows, s)
  | .lsblk _, .fail text => some (.error (.other text), s)
  | .lsblk _, _ => none
  | .detach dev, o => ran s (s.detach dev) (fun _ => none) o
  | .ln dev link, o =>
    ran s (.ok (), { s with links := s.links.insert link dev }) (fun _ => none) o
  | .unlink link, o => ran s (.ok (), { s with links := s.links.erase link }) (fun _ => none) o

/-- Everything a command can do to the host. -/
inductive Effect (s : Host) : Cmd → Host → Prop
  | same {c : Cmd} : Effect s c s
  | truncated {n : Nat} {file : File} : Effect s (.truncate n file) (s.truncate n file)
  | touched {n : Nat} {file : File} : Effect s (.truncate n file) (s.touch file)
  | moved {src dst : File} {bytes : Bytes} (h : s.file src = some bytes) :
      Effect s (.mv src dst) (s.rename src dst bytes)
  | copied {src dst : File} {bytes : Bytes} (h : s.file src = some bytes) :
      Effect s (.reflink src dst) (s.setFile dst bytes)
  | short {src dst : File} {bytes : Bytes} : Effect s (.reflink src dst) (s.setFile dst bytes)
  | removed {files : List File} {n : Nat} : Effect s (.rm files) (s.erase (files.take n))
  | found {file : File} {dev : { d : String // d ≠ "" }} {bytes : Bytes}
      (h : s.file file = some bytes) :
      Effect s (.find file) (s.addLoop ⟨dev.1, dev.2, file, bytes.length⟩)
  | refreshed {dev : String} : Effect s (.refresh dev) (s.refresh dev).2
  | detached {dev : String} : Effect s (.detach dev) (s.detach dev).2
  | linked {dev link : String} : Effect s (.ln dev link) { s with links := s.links.insert link dev }
  | unlinked {link : String} : Effect s (.unlink link) { s with links := s.links.erase link }

section Effects

variable {s s' : Host} {c : Cmd} {o : Outcome}

variable {dst file src : File}

theorem effect_of_ran {res : Except ExecErr Unit × Host} {r : Except ExecErr Unit}
    {partway : Outcome → Option (String × Host)} (hres : Effect s c res.2)
    (hpart : ∀ o text s', partway o = some (text, s') → Effect s c s')
    (h : ran s res partway o = some (r, s')) : Effect s c s' := by
  cases o with
  | ok | applied =>
    cases h
    exact hres
  | fail =>
    cases h
    exact .same
  | _ =>
    obtain ⟨⟨text, s''⟩, hp, h⟩ := Option.map_eq_some_iff.mp h
    cases h
    exact hpart _ text _ hp

theorem effect_mv : Effect s (.mv src dst) (s.mv src dst).2 := by
  rw [Host.mv]
  split
  · exact .same
  · exact .moved ‹_›

theorem effect_reflink : Effect s (.reflink src dst) (s.reflink src dst).2 := by
  rw [Host.reflink]
  split
  · exact .same
  · exact .copied ‹_›

theorem effect_find {dev : { d : String // d ≠ "" }}
    (h : s.find file dev = some s') : Effect s (.find file) s' := by
  rw [Host.find] at h
  split at h
  · cases h
  · obtain ⟨bytes, hb, rfl⟩ := Option.map_eq_some_iff.mp h
    exact .found hb

/-- An answer comes with one of these effects. -/
theorem effect_of_answer {r : Ans c} (h : answer s c o = some (r, s')) : Effect s c s' := by
  cases c with
  | stat | statSize | attached | lsblk =>
    cases o <;> first | cases h; exact .same | cases h
  | truncate n file =>
    refine effect_of_ran .truncated (fun o text s' hp => ?_) h
    cases o with
    | short =>
      cases hp
      exact .touched
    | _ => cases hp
  | mv src dst => exact effect_of_ran effect_mv (fun _ _ _ hp => by cases hp) h
  | reflink src dst =>
    refine effect_of_ran effect_reflink (fun o text s' hp => ?_) h
    cases o with
    | short =>
      cases hp
      exact .short
    | _ => cases hp
  | rm files =>
    have hall : Effect s (.rm files) (s.erase files) := by
      have : Effect s (.rm files) (s.erase (files.take files.length)) := .removed
      rwa [List.take_length] at this
    refine effect_of_ran hall (fun o text s' hp => ?_) h
    cases o with
    | partly =>
      cases hp
      exact .removed
    | _ => cases hp
  | find file =>
    cases o with
    | loop | lostLoop =>
      obtain ⟨s'', hs, h⟩ := Option.map_eq_some_iff.mp h
      cases h
      exact effect_find hs
    | fail =>
      cases h
      exact .same
    | _ => cases h
  | directIo => exact effect_of_ran .same (fun _ _ _ hp => by cases hp) h
  | refresh dev => exact effect_of_ran .refreshed (fun _ _ _ hp => by cases hp) h
  | detach dev => exact effect_of_ran .detached (fun _ _ _ hp => by cases hp) h
  | ln dev link => exact effect_of_ran .linked (fun _ _ _ hp => by cases hp) h
  | unlink link => exact effect_of_ran .unlinked (fun _ _ _ hp => by cases hp) h

/-- What a command can leave in a file. -/
inductive Leaves (s : Host) (f : File) (bytes : Bytes) : Cmd → Prop
  | kept {c : Cmd} (h : s.file f = some bytes) : Leaves s f bytes c
  | truncated {n : Nat} (h : bytes = ((s.file f).getD []).takeD n 0) :
      Leaves s f bytes (.truncate n f)
  | touched {n : Nat} (h : s.file f = none) (hb : bytes = []) : Leaves s f bytes (.truncate n f)
  | moved {src : File} (h : s.file src = some bytes) : Leaves s f bytes (.mv src f)
  | copied {src : File} : Leaves s f bytes (.reflink src f)

theorem leaves_of_setFile {f : File} {bytes bytes' : Bytes}
    (hnew : (s.setFile file bytes').file f = some bytes) (h : file = f → Leaves s f bytes' c) :
    Leaves s f bytes c := by
  by_cases hf : file = f
  · have heq := h hf
    subst hf
    rw [Host.file_setFile] at hnew
    cases hnew
    exact heq
  · rw [Host.file_setFile_ne (Ne.symm hf)] at hnew
    exact .kept hnew

theorem Effect.leaves (h : Effect s c s') {f : File} {bytes : Bytes}
    (hnew : s'.file f = some bytes) : Leaves s f bytes c := by
  cases h with
  | same | found | linked | unlinked => exact .kept hnew
  | truncated =>
    refine leaves_of_setFile hnew fun hf => ?_
    subst hf
    exact .truncated rfl
  | touched =>
    rw [Host.touch] at hnew
    split at hnew
    · exact .kept hnew
    · rename_i hnone
      refine leaves_of_setFile hnew fun hf => ?_
      subst hf
      exact .touched (by simpa using hnone) rfl
  | @moved src dst bytes' hsrc =>
    by_cases hf : f = dst
    · subst hf
      rw [Host.file_rename] at hnew
      cases hnew
      exact .moved hsrc
    · by_cases hs : f = src
      · subst hs
        have : (s.rename f dst bytes').file f = none :=
          (AList.lookup_insert_ne hf).trans (AList.lookup_erase _ _)
        rw [this] at hnew
        cases hnew
      · rw [Host.file_rename_ne hs hf] at hnew
        exact .kept hnew
  | copied | short =>
    refine leaves_of_setFile hnew fun hf => ?_
    subst hf
    exact .copied
  | removed =>
    rw [Host.file_erase] at hnew
    split at hnew
    · cases hnew
    · exact .kept hnew
  | refreshed =>
    rw [Host.refresh] at hnew
    split at hnew <;> exact .kept hnew
  | detached =>
    rw [Host.detach] at hnew
    split at hnew <;> exact .kept hnew

/-! What an answer tells of the host. -/

theorem ran_ok {res : Except ExecErr Unit × Host} {partway : Outcome → Option (String × Host)}
    (h : ran s res partway o = some (.ok (), s')) : res = (.ok (), s') := by
  cases o with
  | ok => exact Option.some.inj h
  | applied | fail => cases h
  | _ =>
    obtain ⟨r, -, h⟩ := Option.map_eq_some_iff.mp h
    cases h

theorem stat_missing
    (h : answer s (.stat file) o = some (.error .noSuchFile, s')) :
    s' = s ∧ s.file file = none := by
  cases o with
  | ok =>
    cases hf : s.file file with
    | none =>
      simp only [answer, hf] at h
      cases h
      exact ⟨rfl, rfl⟩
    | some =>
      simp only [answer, hf] at h
      cases h
  | _ => cases h

theorem statSize_ok {n : Nat}
    (h : answer s (.statSize file) o = some (.ok n, s')) :
    s' = s ∧ ∃ bytes, s.file file = some bytes ∧ bytes.length = n := by
  cases o with
  | ok =>
    cases hf : s.file file with
    | none =>
      simp only [answer, hf] at h
      cases h
    | some bytes =>
      simp only [answer, hf] at h
      cases h
      exact ⟨rfl, bytes, rfl, rfl⟩
  | _ => cases h

theorem attached_ok {devs : List String}
    (h : answer s (.attached file) o = some (.ok devs, s')) :
    s' = s ∧ devs = (s.loopsOf file).map Loop.dev := by
  cases o <;> cases h
  exact ⟨rfl, rfl⟩

theorem truncate_ok {n : Nat}
    (h : answer s (.truncate n file) o = some (.ok (), s')) : s' = s.truncate n file := by
  cases ran_ok h
  rfl

theorem reflink_ok
    (h : answer s (.reflink src dst) o = some (.ok (), s')) :
    ∃ bytes, s.file src = some bytes ∧ s' = s.setFile dst bytes := by
  have := ran_ok h
  rw [Host.reflink] at this
  split at this <;> cases this
  exact ⟨_, ‹_›, rfl⟩

theorem refresh_ok {dev : String} (h : answer s (.refresh dev) o = some (.ok (), s')) :
    s' = { s with loops := s.loops.map (s.refreshed dev) } := by
  have := ran_ok h
  rw [Host.refresh] at this
  split at this <;> cases this
  rfl

theorem detach_ok {dev : String} (h : answer s (.detach dev) o = some (.ok (), s')) :
    s' = { s with loops := s.loops.filter fun l => l.dev ≠ dev } := by
  have := ran_ok h
  rw [Host.detach] at this
  split at this <;> cases this
  rfl

end Effects

/-- What happens on the node besides. -/
inductive Event where
  /-- The loop devices are gone. -/
  | reboot
  /-- The volume is written through its device. -/
  | write (vol : String) (bytes : Bytes)

instance : Inhabited Event := ⟨.reboot⟩

def event (s : Host) : Event → Option Host
  | .reboot => some { s with loops := [] }
  | .write vol bytes =>
    (s.file (.image vol)).bind fun old =>
      if bytes.length = old.length then some (s.setFile (.image vol) bytes) else none

/-- The calls on a node's backend, one at a time. -/
def calls (baseDir : String) : Workers Host Unit Job Event Outcome Ans Result where
  program _ job := job.program baseDir
  answer s _ _ c o := answer s c o
  event := event

abbrev Calls := Conf Host Unit Job Ans Result

abbrev Act := Process.Act Unit Job Event Outcome

/-- The volume "v" of two bytes is created, and attached to the first loop device. -/
def createdV : List Act :=
  .start () (.create "v" 2) ::
    Workers.replies () [.ok, .ok, .ok, .ok, .loop ⟨"/dev/loop0", by decide⟩, .ok, .ok]

end Miroir.Loopfile
