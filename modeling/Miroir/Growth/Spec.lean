import Miroir.Growth.World

/-!
# What the passes and the controller promise

A pass reports the size of its slot, or the desired size: as the coordinator only with the device
grown or its slot at the size already, on a diskful leg only with the backing resized
(`obeys_reconcile`). The controller answers success only after it has read a version in which every
diskful slot reports the size (`obeys_expandVolume`).
-/

namespace Miroir.Growth

open Process Prog

theorem slotSize_withSlot (vol : Volume) (n m : String) (mine : ReplicaStatus) :
    slotSize (withSlot vol n mine) m = if m = n then mine.sizeBytes else slotSize vol m := by
  by_cases h : m = n
  · subst h
    simp [slotSize, withSlot]
  · simp [slotSize, withSlot, h]

/-! ## What a pass asks -/

/-- The copy the pass was handed. -/
def firstCopy : GrowLog → Option Volume
  | [] => none
  | ⟨_, .volume, .ok (some vol)⟩ :: _ => some vol
  | _ :: log => firstCopy log

/-- The copy in hand, without the slots the pass has written into it. -/
def copyIn : GrowLog → Option Volume
  | [] => none
  | ⟨_, .volume, .ok (some vol)⟩ :: _ => some vol
  | ⟨_, .patchActivated, .ok vol⟩ :: _ => some vol
  | _ :: log => copyIn log

/-- The backing was resized to `bytes`. -/
def ResizedTo (bytes : Nat) (log : GrowLog) : Prop :=
  ∃ t, (⟨t, .resizeBacking bytes, .ok ()⟩ : Entry Nat Ans) ∈ log

def DeviceGrown (log : GrowLog) : Prop :=
  ∃ t, (⟨t, .drbdResize, .ok ()⟩ : Entry Nat Ans) ∈ log

/-- What a pass reports, with `vol₁` the copy it was handed and `vol` the copy in hand: nothing,
the size of its slot, or the desired size, which a coordinator that trails reports only with the
device grown, and a diskful leg with its backing resized. -/
def Reports (self : String) (vol₁ vol : Volume) (log : GrowLog) (size : Nat) : Prop :=
  size = 0 ∨ size = slotSize vol self ∨
    size = vol.spec.sizeBytes ∧
      (coordinates vol.spec self = true →
        vol.spec.sizeBytes ≤ slotSize vol self ∨ DeviceGrown log) ∧
      (localDiskless vol₁ self = false → ResizedTo vol.spec.backingBytes log)

/-- The device is resized by the coordinator, with the slots of its peers at the desired size. -/
def Resizes (self : String) (vol₁ vol : Volume) (log : GrowLog) : Prop :=
  coordinates vol.spec self = true ∧
    VolumeReconciler.peerBackingsGrown self vol = true ∧
    (localDiskless vol₁ self = false → ResizedTo vol.spec.backingBytes log)

def passGuard (self : String) (log : GrowLog) : Cmd → Prop
  | .volume => log = []
  | .patchActivated =>
    (∃ vol₁, firstCopy log = some vol₁) ∧ ¬DeviceGrown log
  | .drbdResize => ∃ vol₁ vol, firstCopy log = some vol₁ ∧ copyIn log = some vol ∧
      Resizes self vol₁ vol log
  | .patchStatus mine => ∃ vol₁ vol, firstCopy log = some vol₁ ∧ copyIn log = some vol ∧
      Reports self vol₁ vol log mine.sizeBytes
  | .patchSize _ => False
  | _ => True

/-- The copy in hand with a slot of the pass in it. -/
structure InHand (node : String) (vol : Volume) (hand : Volume) : Prop where
  spec : hand.spec = vol.spec
  others : ∀ m, m ≠ node → slotSize hand m = slotSize vol m
  own : slotSize hand node = slotSize vol node ∨ slotSize hand node = 0

/-- The copy the pass was handed, and the one in hand. -/
structure Holds (vol₁ vol : Volume) (log : GrowLog) : Prop where
  first : firstCopy log = some vol₁
  copy : copyIn log = some vol

section Passes

variable {self : String} {vol₁ vol hand : Volume} {log : GrowLog}

variable {e : Entry Nat Ans}

theorem firstCopy_cons (he : e.cmd ≠ .volume) :
    firstCopy (e :: log) = firstCopy log := by
  obtain ⟨t, c, a⟩ := e
  cases c
  case volume => exact absurd rfl he
  all_goals rfl

theorem copyIn_cons (he : e.cmd ≠ .volume) (he' : e.cmd ≠ .patchActivated) :
    copyIn (e :: log) = copyIn log := by
  obtain ⟨t, c, a⟩ := e
  cases c
  case volume => exact absurd rfl he
  case patchActivated => exact absurd rfl he'
  all_goals rfl

theorem resizedTo_cons {bytes : Nat} (h : ResizedTo bytes (e :: log)) :
    (∃ t, e = ⟨t, .resizeBacking bytes, .ok ()⟩) ∨ ResizedTo bytes log := by
  obtain ⟨t, ht⟩ := h
  rcases List.mem_cons.mp ht with heq | ht
  · exact .inl ⟨t, heq.symm⟩
  · exact .inr ⟨t, ht⟩

theorem deviceGrown_cons (h : DeviceGrown (e :: log)) :
    (∃ t, e = ⟨t, .drbdResize, .ok ()⟩) ∨ DeviceGrown log := by
  obtain ⟨t, ht⟩ := h
  rcases List.mem_cons.mp ht with heq | ht
  · exact .inl ⟨t, heq.symm⟩
  · exact .inr ⟨t, ht⟩

theorem InHand.refl (vol : Volume) : InHand self vol vol := ⟨rfl, fun _ _ => rfl, .inl rfl⟩

theorem InHand.withSlot (h : InHand self vol hand) {mine : ReplicaStatus}
    (hm : mine.sizeBytes = 0) : InHand self vol (withSlot hand self mine) := by
  refine ⟨h.spec, fun m hne => ?_, .inr ?_⟩
  · rw [slotSize_withSlot, if_neg hne]
    exact h.others m hne
  · rw [slotSize_withSlot, if_pos rfl, hm]

theorem InHand.peerBackingsGrown (h : InHand self vol hand) :
    VolumeReconciler.peerBackingsGrown self hand = VolumeReconciler.peerBackingsGrown self vol := by
  simp only [VolumeReconciler.peerBackingsGrown, h.spec]
  refine congrArg vol.spec.replicas.all (funext fun rep => ?_)
  by_cases hn : rep.node = self
  · simp [hn]
  · rw [show (hand.status.perNode rep.node).sizeBytes = (vol.status.perNode rep.node).sizeBytes from
      h.others rep.node hn]

/-- A command that reads no copy and grows nothing. -/
def Plain : Cmd → Prop
  | .volume | .patchActivated | .resizeBacking _ | .drbdResize => False
  | _ => True

theorem Holds.cons (h : Holds vol₁ vol log) (he : e.cmd ≠ .volume)
    (he' : e.cmd ≠ .patchActivated) : Holds vol₁ vol (e :: log) := by
  obtain ⟨t, c, a⟩ := e
  cases c
  case volume => exact absurd rfl he
  case patchActivated => exact absurd rfl he'
  all_goals exact ⟨h.first, h.copy⟩

theorem not_deviceGrown_cons (h : ¬DeviceGrown log) (he : e.cmd ≠ .drbdResize) :
    ¬DeviceGrown (e :: log) := fun hg => by
  rcases deviceGrown_cons hg with ⟨t, rfl⟩ | hg
  · exact he rfl
  · exact h hg

/-- The own slot, as it is in hand, may be reported at any time. -/
theorem InHand.reports (h : InHand self vol hand) :
    Reports self vol₁ vol log (slotSize hand self) :=
  h.own.elim (fun h => .inr (.inl h)) .inl

theorem obeys_patchStatus {mine : ReplicaStatus} (h : Holds vol₁ vol log)
    (hr : Reports self vol₁ vol log mine.sizeBytes) :
    Obeys (passGuard self) (fun l r => ∃ t a, l = ⟨t, .patchStatus mine, a⟩ :: log ∧
      r.2 = withSlot hand self mine) log (patchStatus self hand mine) :=
  ⟨⟨vol₁, vol, h.first, h.copy, hr⟩, fun t a => ⟨t, a, rfl, rfl⟩⟩

theorem obeys_reportError (h : Holds vol₁ vol log) (hh : InHand self vol hand) (e : Err) :
    Obeys (passGuard self) (fun _ _ => True) log (reportError self hand e) := by
  refine (obeys_patchStatus h hh.reports).bind fun l r _ => ?_
  obtain ⟨_ | e, vol'⟩ := r <;> trivial

/-- The copy in hand is kept but for a slot that reports no size, and nothing has grown. -/
def Prepared (self : String) (vol₁ vol : Volume) (l : GrowLog) (r : Option Err × Volume) : Prop :=
  Holds vol₁ vol l ∧ ¬DeviceGrown l ∧ InHand self vol r.2

theorem obeys_clearStaleBacking (h : Holds vol₁ vol log) (hu : ¬DeviceGrown log)
    (hh : InHand self vol hand) :
    Obeys (passGuard self) (Prepared self vol₁ vol) log (clearStaleBacking self hand) := by
  rw [clearStaleBacking]
  split
  · exact ⟨h, hu, hh⟩
  · refine obeys_call_bind trivial fun t a => ?_
    have h' : Holds vol₁ vol (⟨t, .deviceExists, a⟩ :: log) := h.cons nofun nofun
    have hu' : ¬DeviceGrown (⟨t, .deviceExists, a⟩ :: log) := not_deviceGrown_cons hu nofun
    rcases a with e | _ | _
    · exact ⟨h', hu', hh⟩
    · refine (obeys_patchStatus h' (.inl rfl)).mono ?_
      rintro l r ⟨t, a, rfl, hr⟩
      exact ⟨h'.cons nofun nofun, not_deviceGrown_cons hu' nofun, hr ▸ hh.withSlot rfl⟩
    · exact ⟨h', hu', hh⟩

theorem obeys_stampDeviceCreated (h : Holds vol₁ vol log) (hu : ¬DeviceGrown log)
    (hh : InHand self vol hand) :
    Obeys (passGuard self) (Prepared self vol₁ vol) log (stampDeviceCreated self hand) := by
  rw [stampDeviceCreated]
  split
  · exact ⟨h, hu, hh⟩
  · refine (obeys_patchStatus h (.inl rfl)).mono ?_
    rintro l r ⟨t, a, rfl, hr⟩
    exact ⟨h.cons nofun nofun, not_deviceGrown_cons hu nofun, hr ▸ hh.withSlot rfl⟩

theorem obeys_latchActivated (h : Holds vol₁ vol log) (hu : ¬DeviceGrown log)
    (hh : InHand self vol hand) (st : LegStatus) :
    Obeys (passGuard self) (fun l r => ∀ hand', r = .ok hand' →
      ∃ vol', Holds vol₁ vol' l ∧ ¬DeviceGrown l ∧ InHand self vol' hand') log
      (latchActivated hand st) := by
  rw [latchActivated]
  split
  · intro hand' heq
    cases heq
    exact ⟨vol, h, hu, hh⟩
  · refine ⟨⟨⟨vol₁, h.first⟩, hu⟩, fun t a hand' heq => ?_⟩
    subst heq
    exact ⟨hand', ⟨h.first, rfl⟩, not_deviceGrown_cons hu nofun, .refl hand'⟩

/-- The copy in hand is the same, and what is returned may be reported. -/
def Grows (self : String) (vol₁ vol : Volume) (l : GrowLog) (r : Except Err (Nat × Nat)) : Prop :=
  Holds vol₁ vol l ∧ ∀ size requeue, r = .ok (size, requeue) → Reports self vol₁ vol l size

theorem obeys_growIfCoordinator (h : Holds vol₁ vol log) (hh : InHand self vol hand)
    (hres : localDiskless vol₁ self = false → ResizedTo vol.spec.backingBytes log)
    (st : LegStatus) :
    Obeys (passGuard self) (Grows self vol₁ vol) log (growIfCoordinator self hand st) := by
  have hown {l : GrowLog} (hl : Holds vol₁ vol l) (requeue : Nat) :
      Grows self vol₁ vol l (.ok (slotSize hand self, requeue)) := by
    refine ⟨hl, fun size requeue' heq => ?_⟩
    cases heq
    exact hh.reports
  rw [growIfCoordinator]
  split
  · -- The slot is at the size already, or another leg coordinates.
    rename_i hdone
    refine ⟨h, fun size requeue heq => ?_⟩
    cases heq
    refine .inr (.inr ⟨by rw [hh.spec], fun hc => .inl ?_, hres⟩)
    rw [hh.spec, hc, Bool.not_true, Bool.or_false, decide_eq_true_eq] at hdone
    rcases hh.own with hslot | hslot
    · rwa [hslot] at hdone
    · omega
  rename_i hbehind
  split
  · exact hown h _
  split
  · exact hown h _
  rename_i hpeers
  simp only [Bool.or_eq_true, Bool.not_eq_true', not_or, Bool.not_eq_false] at hbehind hpeers
  refine obeys_call_bind ⟨vol₁, vol, h.first, h.copy, ?_, ?_, hres⟩ fun t a => ?_
  · rw [← hh.spec]
    exact hbehind.2
  · rw [← hh.peerBackingsGrown]
    exact hpeers.1
  have h' : Holds vol₁ vol (⟨t, .drbdResize, a⟩ :: log) := h.cons nofun nofun
  rcases a with (_ | e) | _
  · exact hown h' _
  · exact ⟨h', nofun⟩
  · refine ⟨h', fun size requeue heq => ?_⟩
    cases heq
    refine .inr (.inr ⟨by rw [hh.spec], fun _ => .inr ⟨t, .head _⟩, fun hd => ?_⟩)
    obtain ⟨t', ht⟩ := hres hd
    exact ⟨t', .tail _ ht⟩

theorem obeys_growLeg (h : Holds vol₁ vol log) (hh : InHand self vol hand) (st : LegStatus) :
    Obeys (passGuard self) (Grows self vol₁ vol) log
      (growLeg self hand st (localDiskless vol₁ self)) := by
  rw [growLeg]
  split
  · rename_i hd
    exact obeys_growIfCoordinator h hh (fun hd' => absurd hd' (by simp [hd])) st
  · refine obeys_call_bind trivial fun t a => ?_
    have h' : Holds vol₁ vol (⟨t, .resizeBacking hand.spec.backingBytes, a⟩ :: log) :=
      h.cons (by simp) (by simp)
    cases a with
    | error e => exact ⟨h', fun _ _ heq => by cases heq⟩
    | ok =>
      refine obeys_growIfCoordinator h' hh (fun _ => ⟨t, ?_⟩) st
      rw [← hh.spec]
      exact .head _

theorem obeys_settle (h : Holds vol₁ vol log) (hu : ¬DeviceGrown log)
    (hh : InHand self vol hand) {diskless : Bool} (hd : diskless = localDiskless vol₁ self) :
    Obeys (passGuard self) (fun _ _ => True) log (settle self hand diskless) := by
  subst hd
  refine obeys_call_bind trivial fun t a => ?_
  have h₁ : Holds vol₁ vol (⟨t, .bringUp, a⟩ :: log) := h.cons nofun nofun
  have hu₁ : ¬DeviceGrown (⟨t, .bringUp, a⟩ :: log) := not_deviceGrown_cons hu nofun
  cases a with
  | error e => exact obeys_reportError h₁ hh e
  | ok st =>
  refine (obeys_latchActivated h₁ hu₁ hh st).bind fun l r hr => ?_
  cases r with
  | error e => trivial
  | ok hand₂ =>
  obtain ⟨vol₂, h₂, hu₂, hh₂⟩ := hr hand₂ rfl
  refine (obeys_growLeg h₂ hh₂ st).bind fun l r hr => ?_
  rcases r with e | ⟨size, requeue⟩
  · exact obeys_reportError hr.1 hh₂ e
  · refine (obeys_patchStatus hr.1 (hr.2 size requeue rfl)).bind fun l r _ => ?_
    obtain ⟨_ | e, vol'⟩ := r <;> trivial

/-- The commands a backing is realized with. -/
def Realizing : Cmd → Prop
  | .deviceExists | .createBacking _ | .sourceSnapshot | .createFromSnapshot | .resizeBacking _ =>
    True
  | _ => False

theorem Holds.realizing {l : GrowLog} (h : Holds vol₁ vol log) (hl : Grew Realizing log l) :
    Holds vol₁ vol l := by
  obtain ⟨new, rfl, hn⟩ := hl
  induction new with
  | nil => exact h
  | cons e new ih =>
    have he := hn e (.head _)
    refine (ih fun e' he' => hn e' (.tail _ he')).cons ?_ ?_
    all_goals exact fun heq => by rw [heq] at he; exact he

theorem not_deviceGrown_realizing {l : GrowLog} (h : ¬DeviceGrown log)
    (hl : Grew Realizing log l) : ¬DeviceGrown l := by
  obtain ⟨new, rfl, hn⟩ := hl
  rintro ⟨t, ht⟩
  rcases List.mem_append.mp ht with ht | ht
  · exact hn _ ht
  · exact h ⟨t, ht⟩

theorem asks_finishClone (vol : Volume) : Asks Realizing (finishClone vol) := by
  refine asks_bind (asks_call_bind trivial fun _ => trivial) fun r => ?_
  cases r with
  | some e => trivial
  | none =>
    dsimp only
    split
    · exact asks_call_bind trivial fun _ => trivial
    · trivial

theorem asks_realizeBacking (self : String) (vol : Volume) :
    Asks Realizing (realizeBacking self vol) := by
  have hcreate : Asks Realizing (createBacking vol.spec.backingBytes) :=
    asks_call_bind trivial fun _ => trivial
  rw [realizeBacking]
  split
  · exact hcreate
  split
  · exact hcreate
  refine asks_call_bind trivial fun r => ?_
  rcases r with e | _ | _
  · trivial
  · refine asks_call_bind trivial fun r => ?_
    rcases r with e | _ | _
    · trivial
    · dsimp only
      split
      · exact hcreate
      · trivial
    · refine asks_call_bind trivial fun r => ?_
      cases r with
      | error e => trivial
      | ok => exact asks_finishClone vol
  · exact asks_finishClone vol

theorem obeys_realizeBacking :
    Obeys (passGuard self) (fun l _ => Grew Realizing log l) log (realizeBacking self hand) := by
  refine (asks_realizeBacking self hand).obeys fun l c _ hc => ?_
  cases c <;> trivial

theorem obeys_reportRealizeError (h : Holds vol₁ vol log) (hh : InHand self vol hand)
    (e : RealizeErr) :
    Obeys (passGuard self) (fun _ _ => True) log (reportRealizeError self hand e) := by
  cases e with
  | sourceGone snap =>
    refine (obeys_patchStatus h hh.reports).bind fun l r _ => ?_
    obtain ⟨_ | e, vol'⟩ := r <;> trivial
  | err e => exact obeys_reportError h hh e

theorem obeys_realize (h : Holds vol vol log) (hu : ¬DeviceGrown log)
    (hd : localDiskless vol self = false) :
    Obeys (passGuard self) (fun _ _ => True) log (realize self vol) := by
  refine (obeys_clearStaleBacking h hu (.refl vol)).bind fun l r hr => ?_
  obtain ⟨_ | e, hand₂⟩ := r
  swap
  · exact obeys_reportError hr.1 hr.2.2 e
  obtain ⟨h₂, hu₂, hh₂⟩ := hr
  refine obeys_realizeBacking.bind fun l' r hl => ?_
  have h₃ := h₂.realizing hl
  have hu₃ := not_deviceGrown_realizing hu₂ hl
  cases r with
  | some e => exact obeys_reportRealizeError h₃ hh₂ e
  | none =>
  refine (obeys_stampDeviceCreated h₃ hu₃ hh₂).bind fun l r hr => ?_
  obtain ⟨_ | e, hand₄⟩ := r
  · exact obeys_settle hr.1 hr.2.1 hr.2.2 hd.symm
  · trivial

theorem obeys_reconcileRemoval (h : Holds vol vol log) :
    Obeys (passGuard self) (fun _ _ => True) log (reconcileRemoval self vol) := by
  refine obeys_call_bind trivial fun t held => ?_
  split
  · trivial
  have h₁ : Holds vol vol (⟨t, .holdsFinalizer, held⟩ :: log) := h.cons nofun nofun
  refine obeys_call_bind trivial fun t' blocked => ?_
  have h₂ : Holds vol vol (⟨t', .removalBlocked, blocked⟩ :: _) := h₁.cons nofun nofun
  split
  · refine (obeys_patchStatus h₂ (.inr (.inl rfl))).bind fun l r _ => ?_
    obtain ⟨_ | e, vol'⟩ := r <;> trivial
  refine Obeys.bind (Q := fun l _ => Holds vol vol l) ?_ fun l r hl => ?_
  · refine obeys_call_bind trivial fun t a => ?_
    have h₃ := h₂.cons (e := ⟨t, .down, a⟩) nofun nofun
    cases a with
    | error e => exact h₃
    | ok => exact ⟨trivial, fun t a => h₃.cons nofun nofun⟩
  cases r with
  | error e =>
    refine obeys_call_bind trivial fun t parked => ?_
    have h₄ := hl.cons (e := ⟨t, .parks, parked⟩) nofun nofun
    split
    · refine (obeys_patchStatus h₄ (.inr (.inl rfl))).bind fun l r _ => ?_
      obtain ⟨_ | e, vol'⟩ := r <;> trivial
    · trivial
  | ok =>
    refine obeys_call_bind trivial fun t a => ?_
    cases a with
    | error e => trivial
    | ok => exact ⟨trivial, fun _ _ => trivial⟩

theorem obeys_reconcile (self : String) :
    Obeys (passGuard self) (fun _ _ => True) ([] : GrowLog) (reconcile self) := by
  refine obeys_call_bind rfl fun t a => ?_
  rcases a with e | _ | vol
  · trivial
  · trivial
  have h : Holds vol vol [⟨t, .volume, .ok (some vol)⟩] := ⟨rfl, rfl⟩
  have hu : ¬DeviceGrown [⟨t, .volume, .ok (some vol)⟩] := by simp [DeviceGrown]
  dsimp only
  split
  · exact obeys_reconcileRemoval h
  split
  · trivial
  refine obeys_call_bind trivial fun t' fast => ?_
  have h' := h.cons (e := ⟨t', .fastPath, fast⟩) nofun nofun
  have hu' := not_deviceGrown_cons (e := ⟨t', .fastPath, fast⟩) hu nofun
  split
  · trivial
  split
  · rename_i hd
    exact obeys_settle h' hu' (.refl vol) hd.symm
  · rename_i hd
    exact obeys_realize h' hu' (by simpa using hd)

end Passes

/-! ## The controller -/

/-- What a worker asks; the controller is bound to nothing. -/
def guard : Option String → GrowLog → Cmd → Prop
  | some n => passGuard n
  | none => fun _ _ => True

/-- The controller acknowledges the size it was asked for after it saw every diskful slot report
it. -/
def Acknowledged (req : Request) (log : GrowLog) : Ended → Prop
  | .expanded (.ok _) => 0 < req.required ∧ ∃ t vol,
      (⟨t, .volume, .ok (some vol)⟩ : Entry Nat Ans) ∈ log ∧
        acknowledges vol (alignSector req.required) = true
  | _ => True

def Ends : Option String → Request → GrowLog → Ended → Prop
  | some _ => fun _ _ _ => True
  | none => Acknowledged

theorem obeys_pollGrown (newSize polls : Nat) (log : GrowLog) :
    Obeys (guard none) (fun l grown => grown = true → ∃ t vol,
      (⟨t, .volume, .ok (some vol)⟩ : Entry Nat Ans) ∈ l ∧ acknowledges vol newSize = true) log
      (pollGrown newSize polls) := by
  induction polls generalizing log with
  | zero => exact nofun
  | succ polls ih =>
    refine obeys_call_bind trivial fun t a => ?_
    rcases a with e | _ | vol
    · exact nofun
    · exact ih _
    · dsimp only
      split
      · exact fun _ => ⟨t, vol, .head _, ‹_›⟩
      · exact ih _

theorem obeys_expandVolume (req : Request) :
    Obeys (guard none) (Acknowledged req) ([] : GrowLog)
      (do return .expanded (← expandVolume req.required req.polls)) := by
  refine Obeys.bind (Q := fun l r => ∀ cap, r = .ok cap → 0 < req.required ∧ ∃ t vol,
      (⟨t, .volume, .ok (some vol)⟩ : Entry Nat Ans) ∈ l ∧
        acknowledges vol (alignSector req.required) = true) ?_ fun l r h => ?_
  · rw [expandVolume]
    split
    · exact nofun
    rename_i hreq
    refine obeys_call_bind trivial fun t a => ?_
    rcases a with e | _ | vol
    · exact nofun
    · exact nofun
    refine Obeys.bind (Q := fun _ _ => True) ?_ fun l r _ => ?_
    · rw [raiseSize]
      split
      · trivial
      · refine obeys_call_bind trivial fun t a => ?_
        cases a with
        | error e => trivial
        | ok => exact ⟨trivial, fun _ _ => trivial⟩
    cases r with
    | error e => exact nofun
    | ok vol =>
      refine (obeys_pollGrown _ _ l).bind fun l grown h => ?_
      split
      · exact fun _ _ => ⟨Nat.pos_of_ne_zero hreq, h ‹_›⟩
      · exact nofun
  · cases r with
    | error e => trivial
    | ok cap => exact h cap rfl

theorem obeys_cluster (w : Option String) (req : Request) :
    Obeys (guard w) (Ends w req) ([] : GrowLog) (cluster.program w req) := by
  cases w with
  | none => exact obeys_expandVolume req
  | some n => exact (obeys_reconcile n).bind fun _ _ _ => trivial

end Miroir.Growth
