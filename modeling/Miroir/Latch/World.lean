import Miroir.Process.Workers
import Miroir.Latch.Spec

/-!
# A volume under staging and passes

The API server's object of one volume with every version it has had, and on each node the state
of its leg's disk. Stage attempts and passes run on any node and interleave freely. A client that
may cache reads any version, a direct read the newest one. What the filesystem probes, the mounts
and `drbdsetup status` answer is up to the surroundings, except that metadata just created shows
an Inconsistent disk.

Nothing ever clears a flag (`later_of_run`), and every command is asked as
its program promises (`guarded`).
-/

namespace Miroir.Latch

open Process Prog

/-! ## The world -/

/-- The disk of a leg: none, one with metadata just created, or one with a data generation. -/
inductive Disk where
  | absent | fresh
  | held (adopted : Bool)
  deriving DecidableEq, Repr

/-- The disk states a leg's status may report. -/
def Disk.shows : Disk → Option DiskState → Bool
  | .absent, st => st = none || st = some .diskless
  | .fresh, st => st = some .inconsistent
  | .held _, _ => true

/-- A generation is minted on the disk or reaches it. -/
def Disk.mint : Disk → Disk
  | .fresh => .held false
  | d => d

/-- The volume, its versions, and each node's disk. -/
structure World where
  /-- The object as the API server has it. -/
  api : Volume
  /-- The versions it has had before. -/
  past : List Volume := []
  disk : String → Disk := fun _ => .absent

def World.versions (s : World) : List Volume := s.api :: s.past

/-- Write a new version. -/
def World.put (s : World) (vol : Volume) : World :=
  { s with api := vol, past := s.api :: s.past }

def World.setDisk (s : World) (n : String) (d : Disk) : World :=
  { s with disk := Function.update s.disk n d }

/-! ## Jobs and answers -/

/-- A call of the node server, of the gateway, or a pass. -/
inductive Job where
  | stage (node : String) (fsType : Option String) (flags : List String)
  | gateway (node fsType : String)
  | pass (node : String)
  deriving DecidableEq, Repr

def Job.node : Job → String
  | .stage n _ _ | .gateway n _ | .pass n => n

def Job.isPass : Job → Bool
  | .pass _ => true
  | _ => false

/-- What a job returns. -/
inductive Ended where
  | staged (e : Option Status)
  | passed (r : Result)
  deriving DecidableEq, Repr

def program (Γ : Config) : Job → LatchM Ended
  | .stage n fsType flags => do return .staged (← nodeStageVolume Γ n fsType flags)
  | .gateway n fsType => do return .staged (← gatewayStage Γ n fsType)
  | .pass n => do return .passed (← reconcile Γ n)

/-- What the surroundings choose when a command is answered. -/
inductive Outcome where
  | ok
  /-- It reports an error, with or without having taken effect. -/
  | fail (e : Err) (applied : Bool)
  /-- The version a cached read finds, counted from the newest. -/
  | version (i : Nat)
  | flag (b : Bool)
  | status (st : LiveStatus)
  | format (f : String)
  | noPath
  | frozen (msg : String)
  | sizes (size requeue : Nat)

def Outcome.fate : Outcome → Option (Fate Err)
  | .ok => some .done
  | .fail e applied => some (.failed e applied)
  | _ => none

/-- A merge patch of one flag. -/
def patch (s : World) (set : Volume → Volume) (o : Outcome) : Option (Except Err Volume × World) :=
  perform (set s.api) s (s.put (set s.api)) o.fate

def setSlot (vol : Volume) (n : String) (mine : ReplicaStatus) : Volume :=
  { vol with status := { vol.status with perNode := Function.update vol.status.perNode n mine } }

/-- A bare client entry, for membership to complete. -/
def addClient (vol : Volume) (n : String) : Volume :=
  { vol with
    spec := { vol.spec with clients := vol.spec.clients ++ [{ node := n, nodeID := 0 }] } }

/-- `format`, `mount` and the like. -/
def mounting (s : World) : Outcome → Option (Except MountErr Unit × World)
  | .ok => some (.ok (), s)
  | .frozen msg => some (.error (.frozen msg), s)
  | .fail e _ => some (.error (.other (Err.msg e)), s)
  | _ => none

/-- The backing is realized: `ok` creates metadata on a disk that has none, `flag true` finds
metadata to adopt, `flag false` is a leg without a disk. -/
def realize (s : World) (n : String) : Outcome → Option (Except Err Unit × World)
  | .ok => some (.ok (), s.setDisk n (if s.disk n = .absent then .fresh else s.disk n))
  | .flag true => some (.ok (), s.setDisk n (if s.disk n = .absent then .held true else s.disk n))
  | .flag false => some (.ok (), s)
  | .fail e _ => some (.error e, s)
  | _ => none

/-- What a command of a job on node `n` does and answers. -/
def answerOn (s : World) (n : String) : (c : Cmd) → Outcome → Option (Ans c × World)
  | .volume, .version i => s.versions[i]?.map fun vol => (.ok vol, s)
  | .volume, .fail e _ | .liveVolume, .fail e _ | .drbdStatus, .fail e _
  | .getDiskFormat, .fail e _ | .needResize, .fail e _ | .growLeg, .fail e _ => some (.error e, s)
  | .liveVolume, .ok => some (.ok s.api, s)
  | .patchFormatted, o => patch s setFormatted o
  | .patchActivated, o => patch s setActivated o
  | .patchStatus mine, o => perform () s (s.put (setSlot s.api n mine)) o.fate
  | .addClientLeg, o => perform () s (s.put (addClient s.api n)) o.fate
  | .drbdStatus, .status st => if (s.disk n).shows st.diskState then some (.ok st, s) else none
  | .isLikelyNotMountPoint, .flag notMnt => some (.ok notMnt, s)
  | .isLikelyNotMountPoint, .noPath => some (.error .notExist, s)
  | .isLikelyNotMountPoint, .fail e _ => some (.error (.other e), s)
  | .getDiskFormat, .format f => some (.ok f, s)
  | .formatAndMount _ _, o | .mount _ _, o => mounting s o
  | .needResize, .flag b => some (.ok b, s)
  | .fsck, .flag b | .fastPath, .flag b | .recoveryDue, .flag b => some (b, s)
  | .metadataAdopted, .ok => some (s.disk n = .held true, s)
  | .bringUp, o => realize s n o
  | .initialUUID, o | .forcePrimary, o => perform () s (s.setDisk n (s.disk n).mint) o.fate
  | .growLeg, .sizes size requeue => some (.ok (size, requeue), s)
  | .statDevice, o | .mkdirAll, o | .openDevice, o | .restart, o | .resizeFs, o | .demote, o
  | .resolveSplitBrain _, o => perform () s s o.fate
  | _, _ => none

/-- What changes by itself. -/
inductive Event where
  /-- Membership, size and status slots are edited. -/
  | edit (sizeBytes : Nat) (replicas : List Replica) (clients : List VolumeClient)
      (perNode : String → ReplicaStatus)
  /-- The controller stamps the flag a clone inherits. -/
  | inheritFormatted
  /-- The backing on a node vanishes. -/
  | lose (n : String)
  /-- A disk is synced from a peer. -/
  | sync (n : String)

def edited (vol : Volume) (sizeBytes : Nat) (replicas : List Replica)
    (clients : List VolumeClient) (perNode : String → ReplicaStatus) : Volume :=
  { vol with
    spec := { vol.spec with sizeBytes := sizeBytes, replicas := replicas, clients := clients }
    status := { vol.status with perNode := perNode } }

def event (s : World) : Event → Option World
  | .edit sizeBytes replicas clients perNode =>
    some (s.put (edited s.api sizeBytes replicas clients perNode))
  | .inheritFormatted => some (s.put (setFormatted s.api))
  | .lose n => some (s.setDisk n .absent)
  | .sync n => some (s.setDisk n (s.disk n).mint)

instance inhabitedEvent : Inhabited Event := ⟨.inheritFormatted⟩

/-- Stage attempts and passes, by a number for each. -/
def workers (Γ : Config) : Workers World Nat Job Event Outcome Ans Ended where
  program _ := program Γ
  answer s _ job := answerOn s job.node
  event := event

/-! ## What steps keep -/

section Steps

variable {Γ : Config} {s s' s'' : World} {n : String}

variable {o : Outcome}

/-- Both flags are as before. -/
def SameFlags (s s' : World) : Prop :=
  s'.api.status.formatted = s.api.status.formatted ∧
    s'.api.status.activated = s.api.status.activated

theorem SameFlags.refl (s : World) : SameFlags s s := ⟨rfl, rfl⟩

theorem sameFlags_of_effect {u : World} (h : SameFlags s u)
    {r : Except Err Unit} (hr : perform () s u o.fate = some (r, s')) : SameFlags s s' := by
  rcases performed hr with rfl | ⟨rfl, -⟩
  exacts [h, .refl _]

theorem patch_cases {set : Volume → Volume} {r : Except Err Volume}
    (hr : patch s set o = some (r, s')) :
    (s' = s ∨ s' = s.put (set s.api)) ∧ ∀ vol, r = .ok vol → vol = set s.api := by
  obtain ⟨rfl, rfl⟩ | ⟨e, rfl, rfl | rfl⟩ := perform_cases hr
  exacts [⟨.inr rfl, fun vol h => (Except.ok.inj h).symm⟩, ⟨.inr rfl, nofun⟩, ⟨.inl rfl, nofun⟩]

/-- Only the two patches set a flag, each its own. -/
theorem flags_of_answer {c : Cmd} {r : Ans c}
    (h : answerOn s n c o = some (r, s')) :
    SameFlags s s' ∨ (c = .patchFormatted ∧ s' = s.put (setFormatted s.api)) ∨
      (c = .patchActivated ∧ s' = s.put (setActivated s.api)) := by
  cases c
  case patchFormatted =>
    rcases (patch_cases h).1 with rfl | rfl
    exacts [.inl (.refl _), .inr (.inl ⟨rfl, rfl⟩)]
  case patchActivated =>
    rcases (patch_cases h).1 with rfl | rfl
    exacts [.inl (.refl _), .inr (.inr ⟨rfl, rfl⟩)]
  all_goals refine .inl ?_
  case patchStatus mine =>
    exact sameFlags_of_effect (u := s.put (setSlot s.api n mine)) ⟨rfl, rfl⟩ h
  case addClientLeg =>
    exact sameFlags_of_effect (u := s.put (addClient s.api n)) ⟨rfl, rfl⟩ h
  case initialUUID | forcePrimary => exact sameFlags_of_effect (u := s.setDisk n _) ⟨rfl, rfl⟩ h
  case statDevice | mkdirAll | openDevice | restart | resizeFs | demote | resolveSplitBrain =>
    exact sameFlags_of_effect (.refl s) h
  case volume =>
    cases o
    case version i =>
      obtain ⟨vol, -, hv⟩ := Option.map_eq_some_iff.mp h
      cases hv
      exact .refl s
    all_goals cases h
    exact .refl s
  case drbdStatus =>
    cases o
    case status st =>
      simp only [answerOn] at h
      split at h
      · cases h
        exact .refl s
      · cases h
    all_goals cases h
    exact .refl s
  case bringUp =>
    cases o
    case flag b =>
      cases b <;> cases h
      exacts [.refl s, ⟨rfl, rfl⟩]
    all_goals cases h
    exacts [⟨rfl, rfl⟩, .refl s]
  all_goals
    cases o <;> cases h
    all_goals exact .refl s

/-- The controller sets `formatted`, nothing else touches a flag. -/
theorem flags_of_event {e : Event} (h : event s e = some s') :
    SameFlags s s' ∨ (e = .inheritFormatted ∧ s' = s.put (setFormatted s.api)) := by
  cases e <;> cases h
  · exact .inl ⟨rfl, rfl⟩
  · exact .inr ⟨rfl, rfl⟩
  · exact .inl ⟨rfl, rfl⟩
  · exact .inl ⟨rfl, rfl⟩

/-- The flags of `s` are still set in `s'`. -/
structure World.Later (s s' : World) : Prop where
  formatted : s.api.status.formatted = true → s'.api.status.formatted = true
  activated : s.api.status.activated = true → s'.api.status.activated = true

theorem World.Later.refl (s : World) : s.Later s := ⟨id, id⟩

theorem World.Later.trans (h : s.Later s') (h' : s'.Later s'') : s.Later s'' :=
  ⟨h'.formatted ∘ h.formatted, h'.activated ∘ h.activated⟩

theorem SameFlags.later (h : SameFlags s s') : s.Later s' :=
  ⟨fun hf => h.1.trans hf, fun ha => h.2.trans ha⟩

theorem later_of_answer {c : Cmd} {r : Ans c}
    (h : answerOn s n c o = some (r, s')) : s.Later s' := by
  rcases flags_of_answer h with h | ⟨-, rfl⟩ | ⟨-, rfl⟩
  exacts [h.later, ⟨fun _ => rfl, id⟩, ⟨id, fun _ => rfl⟩]

theorem later_of_event {e : Event} (h : event s e = some s') : s.Later s' := by
  rcases flags_of_event h with h | ⟨-, rfl⟩
  exacts [h.later, ⟨fun _ => rfl, id⟩]

end Steps

/-! ## Runs -/

section Runs

variable {Γ : Config} {s₀ : World} {N i j : ℕ} (ρ : Run (workers Γ).step (Workers.init s₀) N)

/-- A flag that is set stays set. -/
theorem later_of_run (hij : i ≤ j) (hj : j ≤ N) :
    (ρ.state i).world.Later (ρ.state j).world :=
  Workers.world_related ρ World.Later.refl (fun _ _ _ => World.Later.trans)
    (fun _ _ _ h => later_of_event h) (fun _ _ _ _ _ _ _ h => later_of_answer h) hij hj

theorem obeys_program (Γ : Config) (job : Job) :
    Obeys (guard Γ job.node job.isPass) (fun _ _ => True) [] (program Γ job) := by
  cases job with
  | stage n fsType flags => exact (obeys_nodeStageVolume fsType flags).bind fun _ _ _ => trivial
  | gateway n fsType => exact (obeys_gatewayStage fsType).bind fun _ _ _ => trivial
  | pass n => exact obeys_reconcile.bind fun _ _ _ => trivial

/-- A thread keeps to the guard from where it is, and its log is true. -/
theorem thread_guarded (hi : i ≤ N) {w : Nat} {t : Thread Job Ans Ended}
    (ht : (ρ.state i).threads.lookup w = some t) :
    Obeys (guard Γ t.job.node t.job.isPass) (fun _ _ => True) t.log t.prog ∧
      Workers.LogTrue ρ w t.job t.log i :=
  Workers.thread_obeys ρ (G := fun _ job => guard Γ job.node job.isPass) (Q := fun _ _ _ _ => True)
    (fun _ job => obeys_program Γ job) hi ht

/-- What a step answers is asked as its program promises. -/
theorem guarded (hi : i ≤ N) {q : Query Nat Job Ans}
    (hq : Workers.asked (ρ.state i) (ρ.act i) = some q) :
    guard Γ q.job.node q.job.isPass q.log q.cmd ∧ Workers.LogTrue ρ q.worker q.job q.log i :=
  Workers.asked_obeys ρ (G := fun _ job => guard Γ job.node job.isPass) (Q := fun _ _ _ _ => True)
    (fun _ job => obeys_program Γ job) hi hq

/-- A direct read finds the newest version. -/
theorem live_of_told {w : Nat} {job : Job} {t : Nat} {vol : Volume} {l : LatchLog}
    (h : Workers.Told ρ w job ⟨t, .liveVolume, .ok vol⟩ l) : vol = (ρ.state t).world.api := by
  obtain ⟨o, k, -, -, hans⟩ := h
  cases o
  case ok => exact (Except.ok.inj (Prod.mk.inj (Option.some.inj hans)).1).symm
  all_goals cases hans

end Runs

/-! ## A volume on two nodes -/

/-- A volume on "a" and "b" that has never been staged. -/
def onTwoNodes : Volume where
  name := "pvc"
  spec :=
    { sizeBytes := 1073741824
      replicas := [{ node := "a", nodeID := 0, address := "10.0.0.1" },
        { node := "b", nodeID := 1, address := "10.0.0.2" }]
      drbd := true }
  status := { perNode := fun _ => { deviceCreated := true, devicePath := "/dev/drbd1000" } }

/-- Both legs hold the birth generation. -/
def born : World where
  api := onTwoNodes
  disk _ := .held false

def upToDate : LiveStatus where
  primary := false
  peerPrimary := false
  suspended := false
  diskState := some .upToDate
  peerConnected _ := true
  peerDiskState _ := some .upToDate
  peerIDs := [0, 1]
  splitBrain := false
  quorum := true

def twoNodes : Config where
  name := "pvc"
  nodes := ["a", "b"]

end Miroir.Latch
