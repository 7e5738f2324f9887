import Miroir.Latch.Program

/-!
# What staging and a pass promise

Every decision is made on the copy of the volume in hand (`copyInHand`): the last one read, with
the flags the job itself has set since. A filesystem is made only by a call that was handed an
unformatted copy and, for a restore, has read the volume unformatted from the API server since
(`Unformatted`). A split-brain is resolved only on a copy without a flag, and a generation is
forced only right after the gate of the restore seed (`SeedGate`).
-/

namespace Miroir.Latch

open Process Prog

/-! ## What a job has in hand -/

variable {t : Nat} {st : LiveStatus}

/-- The copy of the volume a job works from. A failed patch leaves its flag on the copy. -/
def copyInHand : LatchLog → Option Volume
  | [] => none
  | ⟨_, .volume, .ok vol⟩ :: _ => some vol
  | ⟨_, .patchFormatted, .ok vol⟩ :: _ => some vol
  | ⟨_, .patchActivated, .ok vol⟩ :: _ => some vol
  | ⟨_, .patchFormatted, .error _⟩ :: l => (copyInHand l).map setFormatted
  | ⟨_, .patchActivated, .error _⟩ :: l => (copyInHand l).map setActivated
  | _ :: l => copyInHand l

/-- The status the job has read last. -/
def statusInHand : LatchLog → Option LiveStatus
  | [] => none
  | ⟨_, .drbdStatus, .ok st⟩ :: _ => some st
  | _ :: l => statusInHand l

/-- The command needs nothing before it. -/
def Cmd.Harmless : Cmd → Prop
  | .formatAndMount _ _ | .resolveSplitBrain _ | .forcePrimary => False
  | _ => True

/-- When the last call of `ensureFilesystem` began: its first command looks at the staging path. -/
def callBegan (l : LatchLog) : Option Nat :=
  (l.find? fun e => e.cmd = .isLikelyNotMountPoint).map Entry.time

/-- A call of `ensureFilesystem` with this copy is under way since `rest`, and began at `t`. -/
structure CallSince (vol : Volume) (l new rest : LatchLog) (t : Nat) : Prop where
  log : ∃ r, l = new ++ ⟨t, .isLikelyNotMountPoint, r⟩ :: rest
  began : ∀ e ∈ new, e.cmd ≠ .isLikelyNotMountPoint
  copy : copyInHand rest = some vol

/-- A call of `ensureFilesystem` with this copy is under way. -/
def Called (vol : Volume) (l : LatchLog) : Prop := ∃ new rest t, CallSince vol l new rest t

/-- The call under way was handed an unformatted copy and, for a restore, has confirmed it. -/
def Unformatted (l : LatchLog) : Prop :=
  ∃ vol new rest t, CallSince vol l new rest t ∧ vol.status.formatted = false ∧
    (vol.spec.source = none ∨
      ∃ t' live, ⟨t', .liveVolume, .ok live⟩ ∈ new ∧ live.status.formatted = false)

/-- The gate of the restore seed has just been passed. -/
def SeedGate (Γ : Config) (self : String) (l : LatchLog) : Prop :=
  ∃ t rest vol st, l = ⟨t, .metadataAdopted, false⟩ :: rest ∧ copyInHand rest = some vol ∧
    statusInHand rest = some st ∧
    restoreSeedPending Γ.nodes st.peerIDs vol st.toDrbdStatus self (localDiskless vol self)
      false = true

/-- What has to hold before a command of a job on node `self`; `pass` says that it is a pass. -/
def guard (Γ : Config) (self : String) (pass : Bool) (l : LatchLog) : Cmd → Prop
  | .formatAndMount _ _ => Unformatted l
  | .resolveSplitBrain _ => pass = true ∧ ∃ vol, copyInHand l = some vol ∧ heldData vol = false
  | .forcePrimary => SeedGate Γ self l
  | _ => True

variable {Γ : Config} {self : String} {pass : Bool} {l l' : LatchLog} {vol : Volume}

theorem CallSince.cons {new rest : LatchLog} (h : CallSince vol l new rest t)
    {e : Entry Nat Ans} (he : e.cmd ≠ .isLikelyNotMountPoint) :
    CallSince vol (e :: l) (e :: new) rest t where
  log := by
    obtain ⟨r, rfl⟩ := h.log
    exact ⟨r, rfl⟩
  began e' he' := by
    rcases List.mem_cons.mp he' with rfl | he'
    exacts [he, h.began e' he']
  copy := h.copy

theorem CallSince.callBegan {new rest : LatchLog} (h : CallSince vol l new rest t) :
    Latch.callBegan l = some t := by
  obtain ⟨r, rfl⟩ := h.log
  have hnew : new.find? (fun e => e.cmd = .isLikelyNotMountPoint) = none := by
    simpa using h.began
  simp [Latch.callBegan, List.find?_append, hnew]

theorem Called.cons (h : Called vol l) {e : Entry Nat Ans}
    (he : e.cmd ≠ .isLikelyNotMountPoint) : Called vol (e :: l) := by
  obtain ⟨new, rest, t, h⟩ := h
  exact ⟨e :: new, rest, t, h.cons he⟩

theorem Cmd.Harmless.guard {c : Cmd} (hc : c.Harmless) : Latch.guard Γ self pass l c := by
  cases c
  case formatAndMount | resolveSplitBrain | forcePrimary => exact hc.elim
  all_goals trivial

theorem obeys_of_harmless {α : Type} {p : LatchM α} (hp : Asks Cmd.Harmless p) :
    Obeys (guard Γ self pass) (fun _ _ => True) l p :=
  (hp.obeys fun _ _ _ hc => hc.guard).mono fun _ _ _ => trivial

/-! ## The filesystem -/

theorem asks_markFormatted : Asks Cmd.Harmless (markFormatted vol) := by
  unfold markFormatted
  split
  exacts [trivial, asks_call.mpr trivial]

theorem asks_markActivated : Asks Cmd.Harmless (markActivated vol) := by
  unfold markActivated
  split
  exacts [trivial, asks_call.mpr trivial]

theorem asks_mountRefused (dev what : String) (e : MountErr) :
    Asks Cmd.Harmless (mountRefused vol dev what e) := by
  cases e with
  | frozen msg =>
    unfold mountRefused
    dsimp only
    split
    · trivial
    · refine asks_call_bind trivial fun r => ?_
      rcases r with e | _ <;> trivial
  | other msg => trivial

theorem asks_growAndActivate (dev : String) : Asks Cmd.Harmless (growAndActivate vol dev) := by
  refine asks_call_bind trivial fun r => ?_
  rcases r with e | need
  · trivial
  refine asks_bind ?_ fun r => ?_
  · cases need
    exacts [trivial, asks_call.mpr trivial]
  rcases r with e | _
  · trivial
  refine asks_bind asks_markActivated fun r => ?_
  rcases r with e | _ <;> trivial

theorem asks_mountFormatted (dev format fsType : String) (flags : List String) :
    Asks Cmd.Harmless (mountFormatted vol dev format fsType flags) := by
  refine asks_bind asks_markFormatted fun r => ?_
  rcases r with e | vol
  · trivial
  refine asks_call_bind trivial fun uncorrected => ?_
  cases uncorrected
  · refine asks_call_bind trivial fun r => ?_
    rcases r with e | _
    exacts [asks_bind (asks_mountRefused _ _ e) fun _ => trivial, trivial]
  · trivial

/-- The answer "never" is backed by the copy handed to the call, and for a restore confirmed. -/
theorem obeys_formattedBefore (h : Called vol l) :
    Obeys (guard Γ self pass) (fun l' r => r = .ok false → Unformatted l') l
      (formattedBefore vol) := by
  obtain ⟨new, rest, t, hcall⟩ := h
  unfold formattedBefore
  split
  · rename_i hcond
    intro hr
    have hf : vol.status.formatted = false := Except.ok.inj hr
    rw [hf, Bool.false_or, Option.isNone_iff_eq_none] at hcond
    exact ⟨vol, new, rest, t, hcall, hf, .inl hcond⟩
  · rename_i hcond
    rw [Bool.not_eq_true, Bool.or_eq_false_iff] at hcond
    refine obeys_call_bind trivial fun t' r' => ?_
    rcases r' with e | live
    · exact nofun
    · intro hr
      exact ⟨vol, _, rest, t, hcall.cons (by simp), hcond.1,
        .inr ⟨t', live, .head _, Except.ok.inj hr⟩⟩

theorem obeys_formatBlank (h : Called vol l) (dev fsType : String) (flags : List String) :
    Obeys (guard Γ self pass) (fun _ _ => True) l (formatBlank vol dev fsType flags) := by
  refine (obeys_formattedBefore h).bind fun l₁ r hr => ?_
  rcases r with e | _ | _
  · trivial
  · refine obeys_call_bind (hr rfl) fun t r => ?_
    rcases r with e | _
    · exact obeys_of_harmless (asks_bind (asks_mountRefused _ _ e) fun _ => trivial)
    · refine obeys_of_harmless (asks_bind asks_markFormatted fun r => ?_)
      rcases r with e | _ <;> trivial
  · trivial

theorem obeys_mountDevice (h : Called vol l) (dev fsType : String) (flags : List String) :
    Obeys (guard Γ self pass) (fun _ _ => True) l (mountDevice vol dev fsType flags) := by
  refine obeys_call_bind trivial fun t r => ?_
  rcases r with e | _
  · trivial
  refine obeys_call_bind trivial fun t₂ r => ?_
  rcases r with e | format
  · trivial
  dsimp only
  split
  · exact obeys_formatBlank ((h.cons (by simp)).cons (by simp)) dev fsType flags
  · exact obeys_of_harmless (asks_mountFormatted dev format fsType flags)

theorem obeys_notMounted (h : copyInHand l = some vol) :
    Obeys (guard Γ self pass) (fun l' _ => Called vol l') l notMounted := by
  refine obeys_call_bind trivial fun t r => ?_
  have hcall : Called vol (⟨t, .isLikelyNotMountPoint, r⟩ :: l) :=
    ⟨[], l, t, ⟨r, rfl⟩, by simp, h⟩
  rcases r with (_ | e) | notMnt
  · refine obeys_call_bind trivial fun t₂ r => ?_
    rcases r with e | _ <;> exact hcall.cons (by simp)
  · exact hcall
  · exact hcall

theorem obeys_ensureFilesystem (h : copyInHand l = some vol) (dev fsType : String)
    (flags : List String) :
    Obeys (guard Γ self pass) (fun _ _ => True) l (ensureFilesystem vol dev fsType flags) := by
  refine (obeys_notMounted h).bind fun l₁ r hcall => ?_
  rcases r with e | _ | _
  · trivial
  · refine obeys_of_harmless (asks_bind asks_markFormatted fun r => ?_)
    rcases r with e | vol
    exacts [trivial, asks_growAndActivate dev]
  · refine (obeys_mountDevice hcall dev fsType flags).bind fun l₂ r _ => ?_
    rcases r with e | vol
    exacts [trivial, obeys_of_harmless (asks_growAndActivate dev)]

/-! ## The device -/

/-- The volume returned is the copy in hand. -/
def Hands (l : LatchLog) (r : Except Status (String × Volume)) : Prop :=
  ∀ dev vol, r = .ok (dev, vol) → copyInHand l = some vol

theorem obeys_getVolume :
    Obeys (guard Γ self pass) (fun l' r => ∀ vol, r = .ok vol → copyInHand l' = some vol) l
      (getVolume Γ) := by
  refine obeys_call_bind trivial fun t r => ?_
  rcases r with (_ | _ | _ | _) | vol
  case ok =>
    intro vol' h
    cases h
    rfl
  all_goals exact nofun

theorem hands_of_status (hc : copyInHand l = some vol) {r : Except Err LiveStatus}
    {dev : String} : Hands (⟨t, .drbdStatus, r⟩ :: l) (.ok (dev, vol)) := by
  intro dev' vol' h
  cases h
  exact hc

theorem obeys_device : Obeys (guard Γ self pass) Hands l (device Γ self) := by
  refine obeys_getVolume.bind fun l₁ r hr => ?_
  rcases r with e | vol
  · exact nofun
  have hc := hr vol rfl
  dsimp only
  split
  · exact nofun
  split_ifs
  · exact nofun
  · exact nofun
  · intro dev vol' h
    cases h
    exact hc
  · refine obeys_call_bind trivial fun t r => ?_
    rcases r with e | live
    · exact nofun
    dsimp only
    split_ifs
    · exact nofun
    · exact nofun
    · split
      exacts [nofun, hands_of_status hc]

theorem obeys_disklessDevicePath (hc : copyInHand l = some vol) :
    Obeys (guard Γ self pass) Hands l (disklessDevicePath Γ self vol) := by
  unfold disklessDevicePath
  dsimp only
  split_ifs
  · exact nofun
  · refine obeys_call_bind trivial fun t r => ?_
    rcases r with e | live
    · exact nofun
    dsimp only
    split_ifs
    · exact nofun
    · exact nofun
    · exact nofun
    · split
      exacts [nofun, hands_of_status hc]

theorem obeys_clientDevicePath (hc : copyInHand l = some vol) :
    Obeys (guard Γ self pass) Hands l (clientDevicePath Γ self vol) := by
  unfold clientDevicePath
  split_ifs
  · exact nofun
  · exact obeys_disklessDevicePath hc
  · have hadd : Asks Cmd.Harmless (addClientLeg self vol) := by
      unfold addClientLeg
      split_ifs
      · trivial
      · trivial
      · refine asks_call_bind trivial fun r => ?_
        rcases r with e | _ <;> trivial
    refine (obeys_of_harmless hadd).bind fun l₁ r _ => ?_
    rcases r with _ | e
    exacts [nofun, nofun]

theorem obeys_devicePath : Obeys (guard Γ self pass) Hands l (devicePath Γ self) := by
  refine obeys_getVolume.bind fun l₁ r hr => ?_
  rcases r with e | vol
  · exact nofun
  have hc := hr vol rfl
  dsimp only
  split
  · split
    exacts [obeys_clientDevicePath hc, obeys_device]
  · split
    exacts [obeys_disklessDevicePath hc, obeys_device]

/-! ## Stage attempts -/

theorem obeys_nodeStageVolume (fsType : Option String) (flags : List String) :
    Obeys (guard Γ self pass) (fun _ _ => True) l (nodeStageVolume Γ self fsType flags) := by
  refine obeys_getVolume.bind fun l₁ r _ => ?_
  rcases r with e | vol
  · trivial
  dsimp only
  split
  · trivial
  refine obeys_devicePath.bind fun l₂ r hr => ?_
  rcases r with e | ⟨dev, vol⟩
  · trivial
  cases fsType with
  | none =>
    refine obeys_call_bind trivial fun t r => ?_
    rcases r with e | _
    · trivial
    · refine obeys_of_harmless (asks_bind asks_markActivated fun r => ?_)
      rcases r with e | _ <;> trivial
  | some fsType => exact obeys_ensureFilesystem (hr dev vol rfl) dev fsType flags

theorem obeys_gatewayStage (fsType : String) :
    Obeys (guard Γ self pass) (fun _ _ => True) l (gatewayStage Γ self fsType) := by
  refine obeys_device.bind fun l₁ r hr => ?_
  rcases r with e | ⟨dev, vol⟩
  · trivial
  dsimp only
  split
  exacts [obeys_ensureFilesystem (hr dev vol rfl) dev fsType [], trivial]

/-! ## The pass -/

/-- The copy in hand is unchanged, and a status returned is the one in hand. -/
def Minted (vol : Volume) (l : LatchLog) (r : Except Err LiveStatus) : Prop :=
  copyInHand l = some vol ∧ ∀ st, r = .ok st → statusInHand l = some st

theorem minted_status (hc : copyInHand l = some vol) :
    Obeys (guard Γ self true) (Minted vol) l (call Cmd.drbdStatus) := by
  refine ⟨trivial, fun t r => ⟨hc, fun st h => ?_⟩⟩
  subst h
  rfl

theorem minted_same (hc : copyInHand l = some vol)
    (hst : statusInHand l = some st) : Minted vol l (.ok st) :=
  ⟨hc, fun st' h => by rw [← Except.ok.inj h, hst]⟩

theorem obeys_mintBirthUUID (hc : copyInHand l = some vol)
    (hst : statusInHand l = some st) :
    Obeys (guard Γ self true) (Minted vol) l (mintBirthUUID self vol st) := by
  unfold mintBirthUUID
  split
  · refine obeys_call_bind trivial fun t r => ?_
    rcases r with e | _
    exacts [⟨hc, nofun⟩, minted_status hc]
  · exact minted_same hc hst

theorem obeys_mintRestoreSeedUUID (hc : copyInHand l = some vol)
    (hst : statusInHand l = some st) :
    Obeys (guard Γ self true) (Minted vol) l (mintRestoreSeedUUID Γ self vol st) := by
  unfold mintRestoreSeedUUID
  dsimp only
  split
  · refine obeys_call_bind trivial fun t r => ?_
    rcases r with e | _
    exacts [minted_same hc hst, minted_status hc]
  split
  · refine obeys_call_bind trivial fun t adopted => ?_
    split
    · rename_i hgate
      cases adopted
      · refine ⟨⟨t, l, vol, st, rfl, hc, hst, hgate⟩, fun t₂ r => ?_⟩
        rcases r with e | _
        · exact ⟨hc, nofun⟩
        refine obeys_call_bind trivial fun t₃ r => ?_
        rcases r with e | _
        exacts [⟨hc, nofun⟩, minted_status hc]
      · simp [restoreSeedPending] at hgate
    · exact minted_same hc hst
  · exact minted_same hc hst

theorem obeys_mintGenerations (hc : copyInHand l = some vol)
    (hst : statusInHand l = some st) :
    Obeys (guard Γ self true) (Minted vol) l (mintGenerations Γ self vol st) := by
  refine (obeys_mintBirthUUID hc hst).bind fun l₁ r hr => ?_
  rcases r with e | st
  exacts [⟨hr.1, nofun⟩, obeys_mintRestoreSeedUUID hr.1 (hr.2 st rfl)]

theorem obeys_latchActivated (hc : copyInHand l = some vol) (st : LiveStatus) :
    Obeys (guard Γ self true) (fun l' r => ∀ vol', r = .ok vol' → copyInHand l' = some vol') l
      (latchActivated vol st) := by
  unfold latchActivated
  split
  · intro vol' h
    rw [← Except.ok.inj h, hc]
  · refine ⟨trivial, fun t r vol' h => ?_⟩
    subst h
    rfl

theorem obeys_handleSplitBrain (hc : copyInHand l = some vol) (res : Resource) (st : LiveStatus)
    (connected : Bool) :
    Obeys (guard Γ self true) (fun _ _ => True) l
      (handleSplitBrain Γ self vol res st connected) := by
  unfold handleSplitBrain
  split
  · refine obeys_call_bind trivial fun t due => ?_
    cases due
    · trivial
    · rw [if_pos rfl]
      split
      · trivial
      · rename_i hheld
        exact ⟨⟨rfl, vol, hc, by simpa using hheld⟩, fun _ _ => trivial⟩
  · trivial

theorem asks_reportError (e : Err) : Asks Cmd.Harmless (reportError self vol e) := by
  refine asks_call_bind trivial fun r => ?_
  rcases r with e | _ <;> trivial

theorem obeys_settle (hc : copyInHand l = some vol) (st : LiveStatus) :
    Obeys (guard Γ self true) (fun _ _ => True) l (settle Γ self vol st) := by
  refine (obeys_latchActivated hc st).bind fun l₁ r hr => ?_
  rcases r with e | vol
  · trivial
  have hc₁ := hr vol rfl
  refine obeys_call_bind trivial fun t r => ?_
  rcases r with e | ⟨size, requeue⟩
  · exact obeys_of_harmless (asks_reportError e)
  refine (obeys_handleSplitBrain (l := ⟨t, .growLeg, .ok (size, requeue)⟩ :: l₁) hc₁ _ _ _).bind
    fun l₂ _ _ => ?_
  refine obeys_call_bind trivial fun t₂ r => ?_
  rcases r with e | _ <;> trivial

theorem obeys_reconcile :
    Obeys (guard Γ self true) (fun _ _ => True) l (reconcile Γ self) := by
  refine obeys_call_bind trivial fun t r => ?_
  rcases r with (_ | _ | _ | _) | vol
  any_goals trivial
  dsimp only
  split_ifs
  · trivial
  · trivial
  refine obeys_call_bind trivial fun t₂ fast => ?_
  cases fast
  swap
  · trivial
  refine obeys_call_bind trivial fun t₃ r => ?_
  rcases r with e | _
  · exact obeys_of_harmless (asks_reportError e)
  refine obeys_call_bind trivial fun t₄ r => ?_
  rcases r with e | st
  · exact obeys_of_harmless (asks_reportError e)
  refine (obeys_mintGenerations rfl rfl).bind fun l₁ r hr => ?_
  rcases r with e | st
  exacts [obeys_of_harmless (asks_reportError e), obeys_settle hr.1 st]

end Miroir.Latch
