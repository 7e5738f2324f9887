import Miroir.Volume.Reconcile

/-!
# What a volume pass promises

A pass clones only the snapshot its volume's spec names, and only on a leg that is no full-sync
joiner. It creates metadata only for a replicated volume, and on a leg that is padded for it only
after it has resized the backing to `backingBytes`, or found no backing, and cloned none since
(`volGuard`).

It reads its own status slot once and goes on with that copy. `Apply` leaves the disk alone only if
the copy says `DiskFailed`; whether it failed is decided after the apply, from the kernel's state
then and the copy (`latches`). The slots it writes are the one it has, a fresh one before the apply,
or, after the apply, one with the verdict (`diskGuard`).

`VolumeReconciler.obeys_pass` goes through the program once for both; `Knows` is what it carries
along.
-/

namespace Miroir

open Process Prog

/-! ## Logs -/

/-- The spec the pass works from. -/
def specView : VolLog → Option VolumeSpec
  | [] => none
  | ⟨_, .volume, .ok (some vol)⟩ :: _ => some vol.spec
  | _ :: l => specView l

/-- The own status slot, as the pass has it. -/
def slotView (node : String) : VolLog → Option ReplicaStatus
  | [] => none
  | ⟨_, .volume, .ok (some vol)⟩ :: _ => some (vol.status.perNode node)
  | ⟨_, .patchStatus mine, .ok ()⟩ :: _ => some mine
  | _ :: log => slotView node log

/-- The apply has converged the kernel. -/
def applies : Entry Nat VolAns → Bool
  | ⟨_, .adjust _, .ok ()⟩ | ⟨_, .up, .ok ()⟩ => true
  | _ => false

def applied (log : VolLog) : Bool := log.any applies

/-- The status after the mints, from which the verdict is taken. -/
def minted : VolLog → Option LegStatus
  | [] => none
  | ⟨_, .mint, .ok st⟩ :: _ => some st
  | _ :: log => minted log

/-- The answer is an error. -/
def isError : (c : VolCmd) → VolAns c → Bool
  | .volume, .error _ | .deviceExists, .error _ | .create _, .error _ | .resize _, .error _
  | .createFromSnapshot _ _, .error _ | .snapshot _, .error _ | .patchStatus _, .error _
  | .patchActivated, .error _ | .stat _, .error _ | .touch _, .error _ | .remove _, .error _
  | .dumpMd, .error _ | .createMd, .error _ | .wipeMd, .error _ | .prepare, .error _
  | .adjust _, .error _ | .up, .error _ | .finishApply, .error _ | .status, .error _
  | .mint, .error _ | .drbdResize, .error _ => true
  | _, _ => false

def lastFailed : VolLog → Bool
  | e :: _ => isError e.cmd e.ans
  | [] => false

/-- What makes a pass forget the latch: it found no backing, or no resource. -/
def forsakes : VolLog → Bool
  | ⟨_, .deviceExists, .ok false⟩ :: _ | ⟨_, .adjust _, .error .unknownResource⟩ :: _ => true
  | _ => false

/-- The last thing the pass did was to write its slot. -/
def wrote : VolLog → Bool
  | ⟨_, .patchStatus _, _⟩ :: _ => true
  | _ => false

/-- `diskFailedLatch`, of the slot the pass has. -/
def latches (s : ReplicaStatus) (st : LegStatus) : Bool :=
  st.diskState = some .diskless &&
    (s.diskFailed || (s.diskState.isSome && s.diskState ≠ some .diskless))

/-- The command neither reads the volume nor clones a snapshot. -/
def VolCmd.Quiet : VolCmd → Prop
  | .volume | .createFromSnapshot _ _ => False
  | _ => True

/-- The backing was resized to `bytes`, or there was none. -/
def Sized (bytes : Nat) (e : Entry Nat VolAns) : Prop :=
  (∃ t, e = ⟨t, .resize bytes, .ok ()⟩) ∨ ∃ t, e = ⟨t, .deviceExists, .ok false⟩

/-- Since it was resized to `bytes`, or was not there, the backing was not cloned. -/
abbrev Padded (bytes : Nat) (l : VolLog) : Prop := Since (Sized bytes) VolCmd.Quiet l

/-! ## The specification -/

/-- Metadata may be created: a clone that needs room for it has been padded. -/
def MdReady (node : String) (l : VolLog) : Prop :=
  ∃ spec, specView l = some spec ∧ spec.drbd = true ∧
    (spec.source.any VolumeSource.padForMetadata = true → spec.fullSyncOn node = false →
      Padded spec.backingBytes l)

/-- The snapshot may be cloned: the volume's spec names it, and the leg is no joiner. -/
def CloneReady (node snap : String) (l : VolLog) : Prop :=
  ∃ spec src, specView l = some spec ∧ spec.source = some src ∧ src.snapshotName = snap ∧
    spec.fullSyncOn node = false

/-- What has to hold before metadata is created or a snapshot cloned. -/
def volGuard (node : String) (l : VolLog) : VolCmd → Prop
  | .createMd => MdReady node l
  | .createFromSnapshot _ snap => CloneReady node snap l
  | _ => True

/-- The slots a pass writes; `s` is the one it has. -/
inductive SlotWrite (log : VolLog) (s : ReplicaStatus) : ReplicaStatus → Prop
  | same (h : applied log = true → lastFailed log = true) : SlotWrite log s s
  | fresh {mine} (ha : applied log = false) (hm : mine.diskFailed = false)
      (hs : s.deviceCreated = true → forsakes log = true) : SlotWrite log s mine
  | verdict {mine st} (hst : minted log = some st) (hc : mine.deviceCreated = true)
      (hm : mine.diskFailed = latches s st) : SlotWrite log s mine
  | plain {mine spec} (hspec : specView log = some spec) (hd : spec.drbd = false) :
      SlotWrite log s mine

/-- What has to hold before the volume is read, the kernel converged or a slot written. -/
def diskGuard (node : String) (log : VolLog) : VolCmd → Prop
  | .volume => log = []
  | .adjust skip =>
    applied log = false ∧ ∃ s, slotView node log = some s ∧ skip = s.diskFailed
  | .up => applied log = false ∧ forsakes log = true
  | .finishApply | .status | .mint =>
    applied log = true ∧ minted log = none ∧ lastFailed log = false ∧ forsakes log = false
  | .patchStatus mine => ∃ s, slotView node log = some s ∧ SlotWrite log s mine
  | _ => True

/-- A pass that has applied returns on an error, or once it has written its slot. -/
def DiskDone (log : VolLog) (_ : Result) : Prop :=
  applied log = true → lastFailed log = true ∨ wrote log = true

def passGuard (node : String) (log : VolLog) (c : VolCmd) : Prop :=
  volGuard node log c ∧ diskGuard node log c

/-! ## What a pass knows -/

/-- A command about the backing, the markers or the device only; it may create metadata if `md`. -/
def VolCmd.Local (md : Bool) : VolCmd → Prop
  | .volume | .patchStatus _ | .adjust _ | .up | .finishApply | .status | .mint
  | .createFromSnapshot _ _ => False
  | .createMd => md = true
  | _ => True

theorem VolCmd.Local.mono {c : VolCmd} {md : Bool} (h : c.Local md) : c.Local true := by
  cases c
  case createMd => rfl
  all_goals exact h

section Log

variable {node : String} {log l' : VolLog} {e : Entry Nat VolAns}

theorem specView_cons {e : Entry Nat VolAns} (h : e.cmd ≠ .volume) :
    specView (e :: l) = specView l := by
  obtain ⟨t, c, r⟩ := e
  cases c <;> first | rfl | exact absurd rfl h

theorem slotView_cons (hv : e.cmd ≠ .volume) (hp : ∀ mine, e.cmd ≠ .patchStatus mine) :
    slotView node (e :: log) = slotView node log := by
  obtain ⟨t, c, r⟩ := e
  cases c
  case volume => exact absurd rfl hv
  case patchStatus mine => exact absurd rfl (hp mine)
  all_goals rfl

/-- What a pass knows of its leg: what it has read, that its backing is `ready` for metadata, and
whether the apply is `done`. -/
structure Knows (node : String) (vol : Volume) (ready done : Bool) (st : Option LegStatus)
    (log : VolLog) : Prop where
  slot : slotView node log = some (vol.status.perNode node)
  spec : specView log = some vol.spec
  applied : applied log = done
  minted : minted log = st
  padded : ready = true → vol.spec.drbd = true →
    vol.spec.source.any VolumeSource.padForMetadata = true → vol.spec.fullSyncOn node = false →
      Padded vol.spec.backingBytes log

variable {vol : Volume} {ready done : Bool} {st : Option LegStatus}

/-- A quiet command leaves a backing that is ready as it is. -/
theorem Knows.quiet (h : Knows node vol ready done st log) (hc : e.cmd.Quiet) (hr : ready = true)
    (hd : vol.spec.drbd = true) (hp : vol.spec.source.any VolumeSource.padForMetadata = true)
    (hf : vol.spec.fullSyncOn node = false) : Padded vol.spec.backingBytes (e :: log) :=
  .inr ⟨hc, h.padded hr hd hp hf⟩

/-- A local command tells nothing about the leg. -/
theorem Knows.cons (h : Knows node vol ready done st log) (hc : e.cmd.Local true) :
    Knows node vol ready done st (e :: log) := by
  obtain ⟨t, c, r⟩ := e
  cases c
  case volume | patchStatus | adjust | up | finishApply | status | mint | createFromSnapshot =>
    exact hc.elim
  all_goals exact ⟨h.slot, h.spec, h.applied, h.minted, h.quiet trivial⟩

theorem Knows.of_grew {md : Bool} (h : Knows node vol ready done st log)
    (hl : Grew (VolCmd.Local md) log l') : Knows node vol ready done st l' :=
  hl.keeps h fun _ _ hc ih => ih.cons hc.mono

/-- The copy in hand, with the slot that was just written. -/
theorem Knows.patched (h : Knows node vol ready done st log) (t : Nat) (mine : ReplicaStatus) :
    Knows node { vol with status := { vol.status with
      perNode := Function.update vol.status.perNode node mine } } ready done st
      (⟨t, .patchStatus mine, .ok ()⟩ :: log) :=
  ⟨by simp [slotView], h.spec, h.applied, h.minted, h.quiet trivial⟩

/-- The clone needs no room for metadata. -/
theorem Knows.unpadded (hk : Knows node vol ready done st log)
    (h : vol.spec.drbd → vol.spec.source.any VolumeSource.padForMetadata →
      vol.spec.fullSyncOn node) : Knows node vol true done st log :=
  ⟨hk.slot, hk.spec, hk.applied, hk.minted, fun _ hd hp hf => by simp [h hd hp] at hf⟩

theorem Knows.unready (hk : Knows node vol ready done st log) : Knows node vol false done st log :=
  ⟨hk.slot, hk.spec, hk.applied, hk.minted, nofun⟩

theorem passGuard_of_local {c : VolCmd} {md : Bool} (hk : Knows node vol ready done st log)
    (hd : md → ready ∧ vol.spec.drbd) (hc : c.Local md) : passGuard node log c := by
  cases c
  case volume | patchStatus | adjust | up | finishApply | status | mint | createFromSnapshot =>
    exact hc.elim
  case createMd =>
    obtain ⟨hr, hd⟩ := hd hc
    exact ⟨⟨vol.spec, hk.spec, hd, hk.padded hr hd⟩, trivial⟩
  all_goals exact ⟨trivial, trivial⟩

/-- A local program, which creates metadata only with the backing ready. -/
theorem obeys_of_local {α : Type} {p : VolM α} {md : Bool} (hp : Asks (VolCmd.Local md) p)
    (hd : md → ready ∧ vol.spec.drbd) (hk : Knows node vol ready done st log) :
    Obeys (passGuard node) (fun l' _ => Knows node vol ready done st l') log p :=
  (hp.obeys fun _ _ hl hc => passGuard_of_local (hk.of_grew hl) hd hc).mono
    fun _ _ hl => hk.of_grew hl

end Log

/-! ## Metadata -/

namespace Driver

theorem asks_mark {md : Bool} (m : Marker) : Asks (VolCmd.Local md) (mark m) :=
  asks_call_bind trivial fun _ => trivial

theorem asks_ensureMetadata : Asks (VolCmd.Local true) ensureMetadata := by
  refine asks_bind (asks_call_bind trivial fun attached => ?_) fun r => ?_
  · cases attached
    · refine asks_call_bind trivial fun r => ?_
      rcases r with e | _ | _ | virgin <;> trivial
    · trivial
  rcases r with e | ⟨hasMD, attached, virgin⟩
  · trivial
  dsimp only
  split
  · exact asks_mark _
  refine asks_call_bind trivial fun r => ?_
  rcases r with e | seeding
  · trivial
  dsimp only
  split
  · exact asks_mark _
  refine asks_bind (asks_mark _) fun r => ?_
  rcases r with _ | e
  · dsimp only
    split
    · trivial
    · exact asks_call_bind rfl fun _ => trivial
  · trivial

theorem asks_ensureMarkedMetadata : Asks (VolCmd.Local true) ensureMarkedMetadata := by
  refine asks_call_bind trivial fun r => ?_
  rcases r with e | created
  · trivial
  refine asks_bind ?_ fun r => ?_
  · cases created
    exacts [asks_ensureMetadata, trivial]
  rcases r with _ | e
  · refine asks_call_bind trivial fun r => ?_
    rcases r with e | _
    exacts [trivial, asks_mark _]
  · trivial

theorem asks_wipeForeignMetadata : Asks (VolCmd.Local false) wipeForeignMetadata := by
  refine asks_call_bind trivial fun r => ?_
  rcases r with e | _ | _
  · trivial
  · refine asks_call_bind trivial fun r => ?_
    rcases r with e | _ | _ | virgin
    · trivial
    · exact asks_mark _
    all_goals
      refine asks_call_bind trivial fun r => ?_
      rcases r with e | _
      exacts [trivial, asks_mark _]
  · trivial

/-! ## The apply -/

variable {node : String} {vol : Volume} {log : VolLog}

/-- The kernel is converged, or the apply has failed. -/
def Converged (node : String) (vol : Volume) (log : VolLog) : Option Err → Prop
  | none => Knows node vol true true none log ∧ lastFailed log = false ∧ forsakes log = false
  | some _ => ∃ done, Knows node vol true done none log ∧ (done = true → lastFailed log = true)

theorem obeys_finishApply (hk : Knows node vol true true none log)
    (hf : lastFailed log = false ∧ forsakes log = false) :
    Obeys (passGuard node) (Converged node vol) log finishApply := by
  refine obeys_call_bind ⟨trivial, hk.applied, hk.minted, hf⟩ fun t r => ?_
  have hk' : Knows node vol true true none (⟨t, .finishApply, r⟩ :: log) :=
    ⟨hk.slot, hk.spec, hk.applied, hk.minted, hk.quiet trivial⟩
  cases r with
  | error e => exact ⟨true, hk', fun _ => rfl⟩
  | ok => exact ⟨hk', rfl, rfl⟩

theorem obeys_upAfter {cause : AdjustErr} (hk : Knows node vol true false none log)
    (hc : cause = .unknownResource → forsakes log) :
    Obeys (passGuard node) (Converged node vol) log (upAfter cause) := by
  cases cause with
  | missingMetadata | other => exact ⟨false, hk, nofun⟩
  | unknownResource =>
    refine obeys_call_bind ⟨trivial, hk.applied, hc rfl⟩ fun t r => ?_
    cases r with
    | error e => exact ⟨false, ⟨hk.slot, hk.spec, hk.applied, hk.minted, hk.quiet trivial⟩, nofun⟩
    | ok => exact obeys_finishApply ⟨hk.slot, hk.spec, rfl, hk.minted, hk.quiet trivial⟩ ⟨rfl, rfl⟩

/-- An adjust, by what it answers. -/
theorem obeys_adjust {skip : Bool} {f : Except AdjustErr Unit → VolM (Option Err)}
    (hk : Knows node vol true false none log) (hs : skip = (vol.status.perNode node).diskFailed)
    (hok : f (.ok ()) = finishApply)
    (herr : ∀ t cause, Knows node vol true false none (⟨t, .adjust skip, .error cause⟩ :: log) →
      Obeys (passGuard node) (Converged node vol) (⟨t, .adjust skip, .error cause⟩ :: log)
        (f (.error cause))) :
    Obeys (passGuard node) (Converged node vol) log (call (VolCmd.adjust skip) >>= f) := by
  refine obeys_call_bind ⟨trivial, hk.applied, _, hk.slot, hs⟩ fun t r => ?_
  cases r with
  | error cause => exact herr t cause ⟨hk.slot, hk.spec, hk.applied, hk.minted, hk.quiet trivial⟩
  | ok =>
    rw [hok]
    exact obeys_finishApply ⟨hk.slot, hk.spec, rfl, hk.minted, hk.quiet trivial⟩ ⟨rfl, rfl⟩

theorem obeys_apply (hk : Knows node vol true false none log) (hd : vol.spec.drbd) {skip : Bool}
    (hs : skip = (vol.status.perNode node).diskFailed) :
    Obeys (passGuard node) (Converged node vol) log (apply skip) := by
  have hstop : ∀ {l : VolLog} {e : Err}, Knows node vol true false none l →
      Converged node vol l (some e) := fun hk => ⟨false, hk, nofun⟩
  refine obeys_call_bind ⟨trivial, trivial⟩ fun t r => ?_
  have hk₁ := hk.cons (e := ⟨t, .prepare, r⟩) trivial
  rcases r with e | _
  · exact hstop hk₁
  have hmd : Asks (VolCmd.Local true)
      (if skip then pure none else ensureMarkedMetadata : VolM _) := by
    split
    exacts [trivial, asks_ensureMarkedMetadata]
  refine (obeys_of_local hmd (fun _ => ⟨rfl, hd⟩) hk₁).bind fun l₂ r hk₂ => ?_
  rcases r with _ | e
  swap
  · exact hstop hk₂
  refine obeys_adjust hk₂ hs rfl fun t₃ cause hk₃ => ?_
  dsimp only
  split
  swap
  · exact obeys_upAfter hk₃ fun hc => by rw [hc]; rfl
  rename_i hmissing
  refine obeys_call_bind ⟨trivial, trivial⟩ fun t₄ r => ?_
  have hk₄ := hk₃.cons (e := ⟨t₄, .remove .created, r⟩) trivial
  rcases r with e | _
  · exact hstop hk₄
  refine (obeys_of_local asks_ensureMarkedMetadata (fun _ => ⟨rfl, hd⟩) hk₄).bind fun l₅ r hk₅ => ?_
  rcases r with _ | e
  swap
  · exact hstop hk₅
  refine obeys_adjust hk₅ (hmissing.2 ▸ hs) rfl fun t₆ cause' hk₆ => ?_
  exact obeys_upAfter hk₆ fun hc => by rw [hc]; rfl

end Driver

/-! ## The backing -/

namespace VolumeReconciler

variable {node : String} {vol : Volume} {log : VolLog} {ready done : Bool} {st : Option LegStatus}

theorem asks_createBacking (bytes : Nat) : Asks (VolCmd.Local false) (createBacking bytes) :=
  asks_call_bind trivial fun _ => trivial

/-- A backing that is realized is ready. -/
def Realized (node : String) (vol : Volume) (l : VolLog) (r : Option RealizeErr) : Prop :=
  Knows node vol r.isNone false none l

theorem obeys_createFresh (hk : Knows node vol true false none log) :
    Obeys (passGuard node) (Realized node vol) log (createBacking vol.spec.backingBytes) :=
  (obeys_of_local (asks_createBacking _) nofun hk).mono fun _ r hk => by
    cases r
    exacts [hk, hk.unready]

theorem obeys_finishClone (hk : Knows node vol false false none log) :
    Obeys (passGuard node) (Realized node vol) log (finishClone vol) := by
  refine (obeys_of_local (asks_createBacking _) nofun hk).bind fun l₁ r hk₁ => ?_
  rcases r with _ | e
  swap
  · exact hk₁
  dsimp only
  split
  · rename_i hd
    refine (obeys_of_local Driver.asks_wipeForeignMetadata nofun hk₁).bind fun l₂ r hk₂ => ?_
    cases r
    exacts [hk₂.unpadded fun hd' => absurd hd' (by simp [hd]), hk₂]
  split
  · refine obeys_call_bind ⟨trivial, trivial⟩ fun t r => ?_
    have hk₂ := hk₁.cons (e := ⟨t, .resize vol.spec.backingBytes, r⟩) trivial
    rcases r with e | _
    · exact hk₂
    · exact ⟨hk₂.slot, hk₂.spec, hk₂.applied, hk₂.minted, fun _ _ _ _ => .inl (.inl ⟨t, rfl⟩)⟩
  · rename_i hp
    exact hk₁.unpadded fun _ hp' => absurd hp' hp

theorem obeys_realizeBacking (hk : Knows node vol false false none log) :
    Obeys (passGuard node) (Realized node vol) log (realizeBacking node vol) := by
  unfold realizeBacking
  split
  · rename_i hsrc
    exact obeys_createFresh (hk.unpadded fun _ hp => by simp [hsrc] at hp)
  rename_i source hsrc
  split
  · rename_i hf
    exact obeys_createFresh (hk.unpadded fun _ _ => hf)
  rename_i hf
  refine obeys_call_bind ⟨trivial, trivial⟩ fun t r => ?_
  have hk₁ := hk.cons (e := ⟨t, .deviceExists, r⟩) trivial
  rcases r with e | _ | _
  · exact hk₁
  · -- From here on this pass has seen no backing.
    have hk₁ : Knows node vol true false none (⟨t, .deviceExists, .ok false⟩ :: log) :=
      ⟨hk₁.slot, hk₁.spec, hk₁.applied, hk₁.minted, fun _ _ _ _ => .inl (.inr ⟨t, rfl⟩)⟩
    refine obeys_call_bind ⟨trivial, trivial⟩ fun t₂ r => ?_
    have hk₂ := hk₁.cons (e := ⟨t₂, .snapshot _, r⟩) trivial
    rcases r with e | _ | sourceVol
    · exact hk₂.unready
    · dsimp only
      split
      exacts [obeys_createFresh hk₂, hk₂.unready]
    · have hinv : Asks (VolCmd.Local false)
          (if vol.spec.drbd then pure (.ok ()) else call (VolCmd.remove .wiped) : VolM _) := by
        split
        exacts [trivial, asks_call.mpr trivial]
      refine (obeys_of_local hinv nofun hk₂).bind fun l₃ r hk₃ => ?_
      rcases r with e | _
      · exact hk₃.unready
      refine obeys_call_bind
        ⟨⟨vol.spec, source, hk₃.spec, hsrc, rfl, by simpa using hf⟩, trivial⟩ fun t₄ r => ?_
      have hk₄ : Knows node vol false false none (⟨t₄, .createFromSnapshot _ _, r⟩ :: l₃) :=
        ⟨hk₃.slot, hk₃.spec, hk₃.applied, hk₃.minted, nofun⟩
      rcases r with e | _
      exacts [hk₄, obeys_finishClone hk₄]
  · exact obeys_finishClone hk₁

/-! ## The pass -/

/-- A pass that returns once it has written its slot. -/
theorem obeys_lastSlot {mine : ReplicaStatus} {f : Except Err Volume → VolM Result}
    (hk : Knows node vol ready done st log) (hw : SlotWrite log (vol.status.perNode node) mine)
    (hf : ∀ r, ∃ res, f r = .ret res) :
    Obeys (passGuard node) DiskDone log (patchStatus node vol mine >>= f) := by
  have hret {l : VolLog} (r : Except Err Volume) (hl : wrote l = true) :
      Obeys (passGuard node) DiskDone l (f r) := by
    obtain ⟨res, h⟩ := hf r
    rw [h]
    exact fun _ => .inr hl
  refine obeys_bind.mpr (obeys_call_bind ⟨trivial, _, hk.slot, hw⟩ fun t r => ?_)
  cases r <;> exact hret _ rfl

theorem obeys_reportError {e : Err} (hk : Knows node vol ready done st log)
    (hf : done → lastFailed log) :
    Obeys (passGuard node) DiskDone log (reportError node vol e) :=
  obeys_lastSlot hk (.same fun ha => hf (hk.applied ▸ ha)) fun r => by cases r <;> exact ⟨_, rfl⟩

/-- The copy in hand is the same, or the one with the slot just written. -/
def Copied (node : String) (vol : Volume) (ready : Bool) (l : VolLog) (r : Except Err Volume) :
    Prop :=
  Knows node (r.toOption.getD vol) ready false none l

/-- A fresh slot is written before the apply. -/
theorem obeys_freshSlot {mine : ReplicaStatus} (hk : Knows node vol ready false none log)
    (hm : mine.diskFailed = false)
    (hs : (vol.status.perNode node).deviceCreated → forsakes log) :
    Obeys (passGuard node) (Copied node vol ready) log (patchStatus node vol mine) := by
  refine obeys_call_bind ⟨trivial, _, hk.slot, .fresh hk.applied hm hs⟩ fun t r => ?_
  cases r with
  | error e => exact ⟨hk.slot, hk.spec, hk.applied, hk.minted, hk.quiet trivial⟩
  | ok => exact hk.patched t mine

theorem obeys_clearStaleBacking (hk : Knows node vol ready false none log) :
    Obeys (passGuard node) (Copied node vol ready) log (clearStaleBacking node vol) := by
  unfold clearStaleBacking
  dsimp only
  split
  · refine obeys_call_bind ⟨trivial, trivial⟩ fun t r => ?_
    have hk' := hk.cons (e := ⟨t, .deviceExists, r⟩) trivial
    rcases r with e | _ | _
    · exact hk'
    · exact obeys_freshSlot hk' rfl fun _ => rfl
    · exact hk'
  · exact hk

theorem obeys_stampDeviceCreated (hk : Knows node vol ready false none log) :
    Obeys (passGuard node) (Copied node vol ready) log (stampDeviceCreated node vol) := by
  unfold stampDeviceCreated
  dsimp only
  split
  · exact hk
  · rename_i hd
    exact obeys_freshSlot hk rfl fun h => absurd h hd

theorem obeys_reportRealizeError {e : RealizeErr} (hk : Knows node vol ready false none log) :
    Obeys (passGuard node) DiskDone log (reportRealizeError node vol e) := by
  cases e with
  | err e => exact obeys_reportError hk nofun
  | sourceGone snap =>
    refine obeys_lastSlot hk (.same fun ha => ?_) fun r => by cases r <;> exact ⟨_, rfl⟩
    cases hk.applied.symm.trans ha

theorem obeys_finishPlain (hk : Knows node vol ready false none log) (hd : vol.spec.drbd = false) :
    Obeys (passGuard node) DiskDone log (finishPlain node vol) := by
  refine obeys_call_bind ⟨trivial, trivial⟩ fun t r => ?_
  have hk' := hk.cons (e := ⟨t, .resize vol.spec.sizeBytes, r⟩) trivial
  rcases r with e | _
  · exact obeys_reportError hk' nofun
  exact obeys_lastSlot hk' (.plain hk'.spec hd) fun r => by cases r <;> exact ⟨_, rfl⟩

/-- Growing the leg fails only on a command that fails. -/
theorem obeys_growLeg {st' : LegStatus} (hk : Knows node vol ready done st log) :
    Obeys (passGuard node) (fun l r => Knows node vol ready done st l ∧
      ((∃ e, r = .error e) → lastFailed l)) log (growLeg node vol st') := by
  refine obeys_call_bind ⟨trivial, trivial⟩ fun t r => ?_
  have hk' := hk.cons (e := ⟨t, .resize vol.spec.backingBytes, r⟩) trivial
  rcases r with e | _
  · exact ⟨hk', fun _ => rfl⟩
  dsimp only
  unfold growIfCoordinator
  dsimp only
  split_ifs
  · exact ⟨hk', fun ⟨_, h⟩ => by cases h⟩
  · exact ⟨hk', fun ⟨_, h⟩ => by cases h⟩
  · exact ⟨hk', fun ⟨_, h⟩ => by cases h⟩
  · refine obeys_call_bind ⟨trivial, trivial⟩ fun t r => ?_
    have hk'' := hk'.cons (e := ⟨t, .drbdResize, r⟩) trivial
    rcases r with (_ | e) | _
    · exact ⟨hk'', fun ⟨_, h⟩ => by cases h⟩
    · exact ⟨hk'', fun _ => rfl⟩
    · exact ⟨hk'', fun ⟨_, h⟩ => by cases h⟩

/-- Latching fails only on its patch. -/
theorem obeys_latchActivated {st' : LegStatus} (hk : Knows node vol ready done st log) :
    Obeys (passGuard node) (fun l r => Knows node vol ready done st l ∧
      (r.isSome → lastFailed l)) log (latchActivated vol st') := by
  unfold latchActivated
  split
  · exact ⟨hk, nofun⟩
  · refine obeys_call_bind ⟨trivial, trivial⟩ fun t r => ?_
    cases r with
    | error e => exact ⟨hk.cons trivial, fun _ => rfl⟩
    | ok => exact ⟨hk.cons trivial, nofun⟩

theorem obeys_finishReplicated (hk : Knows node vol true false none log) (hd : vol.spec.drbd) :
    Obeys (passGuard node) DiskDone log (finishReplicated node vol) := by
  refine (Driver.obeys_apply hk hd rfl).bind fun l₁ r h₁ => ?_
  rcases r with _ | e
  swap
  · obtain ⟨done, hk₁, hf⟩ := h₁
    exact obeys_reportError hk₁ hf
  obtain ⟨hk₁, hf₁⟩ := h₁
  refine obeys_call_bind ⟨trivial, hk₁.applied, hk₁.minted, hf₁⟩ fun t₂ r => ?_
  have hk₂ : Knows node vol true true none (⟨t₂, .status, r⟩ :: l₁) :=
    ⟨hk₁.slot, hk₁.spec, hk₁.applied, hk₁.minted, hk₁.quiet trivial⟩
  rcases r with e | st₀
  · exact obeys_reportError hk₂ fun _ => rfl
  refine obeys_call_bind ⟨trivial, hk₂.applied, hk₂.minted, rfl, rfl⟩ fun t₃ r => ?_
  rcases r with e | st
  · have hk : Knows node vol true true none
        (⟨t₃, .mint, .error e⟩ :: ⟨t₂, .status, .ok st₀⟩ :: l₁) :=
      ⟨hk₂.slot, hk₂.spec, hk₂.applied, hk₂.minted, hk₂.quiet trivial⟩
    exact obeys_reportError hk fun _ => rfl
  have hk₃ : Knows node vol true true (some st)
      (⟨t₃, .mint, .ok st⟩ :: ⟨t₂, .status, .ok st₀⟩ :: l₁) :=
    ⟨hk₂.slot, hk₂.spec, hk₂.applied, rfl, hk₂.quiet trivial⟩
  -- From here on the verdict is fixed.
  refine (obeys_latchActivated hk₃).bind fun l₄ r h => ?_
  rcases r with _ | e
  swap
  · exact fun _ => .inl (h.2 rfl)
  refine (obeys_growLeg h.1).bind fun l' r h => ?_
  rcases r with e | ⟨size, requeue⟩
  · exact obeys_reportError h.1 fun _ => h.2 ⟨e, rfl⟩
  · exact obeys_lastSlot h.1 (.verdict h.1.minted rfl rfl) fun r => by cases r <;> exact ⟨_, rfl⟩

/-- Every command of a pass meets its guards, whatever the pass is told. -/
theorem obeys_pass (a : Agent) :
    Obeys (passGuard a.node) DiskDone ([] : VolLog) (reconcile a) := by
  have hearly : ∀ {l : VolLog} {r : Result}, applied l = false → DiskDone l r :=
    fun hl ha => by rw [hl] at ha; cases ha
  refine obeys_call_bind ⟨trivial, rfl⟩ fun t r => ?_
  rcases r with e | _ | vol
  · exact hearly rfl
  · exact hearly rfl
  have hk : Knows a.node vol false false none [⟨t, .volume, .ok (some vol)⟩] :=
    ⟨rfl, rfl, rfl, rfl, nofun⟩
  dsimp only
  split
  · exact hearly rfl
  split
  · exact hearly rfl
  refine obeys_call_bind ⟨trivial, trivial⟩ fun t₁ r => ?_
  have hk₁ := hk.cons (e := ⟨t₁, .fastPath, r⟩) trivial
  cases r
  swap
  · exact hearly rfl
  simp only [Bool.false_eq_true, if_false]
  split
  · exact obeys_reportError hk₁ nofun
  refine (obeys_clearStaleBacking hk₁).bind fun l₂ r h₂ => ?_
  rcases r with e | vol₂
  · exact obeys_reportError h₂ nofun
  refine (obeys_realizeBacking h₂).bind fun l₃ r h₃ => ?_
  rcases r with _ | e
  swap
  · exact obeys_reportRealizeError h₃
  refine (obeys_stampDeviceCreated h₃).bind fun l₄ r h₄ => ?_
  rcases r with e | vol₄
  · exact hearly h₄.applied
  dsimp only
  split
  · exact obeys_finishReplicated h₄ ‹_›
  · rename_i hd
    exact obeys_finishPlain h₄ (by simpa using hd)

end VolumeReconciler

end Miroir
