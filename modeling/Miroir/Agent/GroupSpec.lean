import Miroir.Agent.Log
import Miroir.Agent.GroupSnapshot

/-!
# What a group pass does

`groupGuard a g` is the specification of the group reconciler of agent `a` on group `g`, and
`GroupSnapshotReconciler.reconcile_obeys` proves it of the program. It is the twin of
`snapGuard`, over the members the pass has resolved. A pass over a deleted group visits the volumes
`sweepVolumes` names, and drops its finalizer once it is done with the barrier of each.
-/

namespace Miroir

open Process Prog

variable (a : Agent) (g : String)

/-- The pass has read the member snapshot `name` and its volume. -/
def ReadMember (log : PassLog) (name : String) (m : GroupMember) : Prop :=
  (∃ t, (⟨t, .cachedSnapshot name, .ok (some m.snap)⟩ : Entry Nat Ans) ∈ log) ∧
    ∃ t, (⟨t, .cachedVolume m.snap.volumeName, .ok (some m.vol)⟩ : Entry Nat Ans) ∈ log

/-- The members the pass has found: a snapshot it read, and its volume right after. -/
def readMembers : PassLog → List GroupMember
  | [] => []
  | ⟨_, .cachedVolume _, .ok (some vol)⟩ :: ⟨_, .cachedSnapshot _, .ok (some snap)⟩ :: l =>
    readMembers l ++ [⟨snap, vol⟩]
  | _ :: l => readMembers l

/-- The pass has got as far as the round of a fully resolved group. -/
structure GroupInRound (log : PassLog) (w : SnapshotGroup) (ms : List GroupMember) : Prop where
  view_eq : groupView g log = some w
  members : List.Forall₂ (ReadMember log) w.snapshotNames ms
  kept : w.deleting = false
  unready : w.status.readyToUse = false

/-- The pass may cut its legs: the round it sees is live, every expected slot is up and one of
its own is not cut. -/
structure GroupCutPhase (log : PassLog) (w : SnapshotGroup) (ms : List GroupMember) : Prop extends
    GroupInRound g log w ms where
  live : w.status.ioSuspended = true
  all : allSlotsSuspended w.status ms = true
  own : myLegsDone w.status (myLegs ms a.node) a.node = false

/-- The pass has legs left to raise in the round it sees. -/
def Unraised (w : SnapshotGroup) (ms : List GroupMember) : Prop :=
  myLegsRaised w.status (myLegs ms a.node) a.node = false ∨
    pendingDisklessLegs w.status (myActiveDisklessLegs w.status ms a.node) a.node ≠ []

/-- The pass is the driver's: by the status it has read, its node coordinates the first member's
volume. -/
def Drives (log : PassLog) (ms : List GroupMember) : Prop :=
  ∃ m ∈ ms.head?, ∃ t st, (⟨t, .drbdStatus m.vol.name, .ok st⟩ : Entry Nat Ans) ∈ log ∧
    coordinatorFor a.node m.vol st = true

/-- Why a pass lifts a barrier. -/
inductive GroupLift (log : PassLog) (w : SnapshotGroup) : Prop
  | deleted (h : groupView g log = some w) (hd : w.deleting = true)
  | ready (h : groupView g log = some w) (hr : w.status.readyToUse = true)
  | idle {ms} (h : GroupInRound g log w ms) (hi : w.status.ioSuspended = false)
  | closing {ms} (h : GroupInRound g log w ms) (hl : w.status.ioSuspended = true)
      (hc : Expired log w.status.suspendedAt ∨ allSlotsDone w.status ms = true ∧ Drives a log ms)
  | failedRaise {ms} (h : GroupInRound g log w ms) (hl : w.status.ioSuspended = true)
      (hu : Unraised a w ms)

/-- The pass has deleted and then cut the leg of `m`, with the round `w` shows in view. -/
def HasCut (log : PassLog) (w : SnapshotGroup) (ms : List GroupMember) (m : GroupMember) : Prop :=
  ∃ pool new old t₁ t₂, log = new ++ ⟨t₂, .snapshot pool m.vol.name m.snap.name, .ok ()⟩ ::
      ⟨t₁, .deleteSnapshot pool m.vol.name m.snap.name, .ok ()⟩ :: old ∧
    backendFor a m.vol = .ok pool ∧ GroupCutPhase a g old w ms

/-- What a pass writes. -/
inductive GroupWrite (log : PassLog) : Write → Prop
  | opens {w ms disklessRaise t} (h : GroupInRound g log w ms)
      (hi : w.status.ioSuspended = false)
      (hr : disklessRaise ⊆ myActiveDisklessLegs w.status ms a.node) :
      GroupWrite log (.applyGroup w.name (groupStatusAC (openGroupStatus a.node ms
        (myLegs ms a.node ++ disklessRaise) (stampOf t) w.status)))
  | voids {w ms t} (h : GroupInRound g log w ms) (hl : w.status.ioSuspended = true)
      (hd : allSlotsDone w.status ms = false) :
      GroupWrite log (.applyGroup w.name (groupStatusAC (voidGroupStatus a.node ms
        (myLegs ms a.node ++ myActiveDisklessLegs w.status ms a.node) (stampOf t) w.status)))
  | seals {w ms} (h : GroupInRound g log w ms) (hl : w.status.ioSuspended = true)
      (hd : allSlotsDone w.status ms = true) :
      GroupWrite log (.applyGroup w.name (groupStatusAC (sealGroupStatus w.status)))
  | publishes {w ms m} (h : GroupInRound g log w ms) (hl : w.status.ioSuspended = true)
      (hd : allSlotsDone w.status ms = true) (hm : m ∈ ms) :
      GroupWrite log (.applySnap m.snap.name (snapshotStatusAC (memberStatus m.vol)))
  | raises {w ms} (h : GroupInRound g log w ms) (hl : w.status.ioSuspended = true)
      (hu : Unraised a w ms) :
      GroupWrite log (.mergeSlots w.name ((slotsOn a.node (myLegs ms a.node ++
        pendingDisklessLegs w.status (myActiveDisklessLegs w.status ms a.node) a.node)).map
          (·, .suspended)))
  | cuts {w ms} (h : GroupCutPhase a g log w ms)
      (hc : ∀ m ∈ myLegs ms a.node, HasCut a g log w ms m) :
      GroupWrite log (.mergeSlots w.name ((slotsOn a.node (myLegs ms a.node)).map (·, .done)))
  | finalizer {w old t} (h : groupView g log = some w) (hd : w.deleting = true)
      (hold : (⟨t, .clearBarrierFails w.name, ()⟩ : Entry Nat Ans) :: old <:+ log)
      (hl : ∀ v ∈ GroupSnapshotReconciler.sweepVolumes a w (readMembers old),
        Lifted v (FoundRound v v "" w.name log) log) :
      GroupWrite log (.dropGroupFinalizer w.name a.node)

/-- The specification of a group pass. -/
def groupGuard (log : PassLog) : Cmd → Prop
  | .cachedGroup _ => log = []
  | .suspendIo _ => ∃ w, groupView g log = some w ∧ w.deleting = false
  | .resumeIo v => ∃ w, GroupLift a g log w ∧ Quiet v "" w.name log
  | .deleteSnapshot pool v y => ∃ w ms m, GroupCutPhase a g log w ms ∧ m ∈ myLegs ms a.node ∧
      v = m.vol.name ∧ y = m.snap.name ∧ backendFor a m.vol = .ok pool
  | .snapshot pool v y => ∃ t l, log = ⟨t, .deleteSnapshot pool v y, .ok ()⟩ :: l ∧
      ∃ w ms m, GroupCutPhase a g l w ms ∧ m ∈ myLegs ms a.node ∧ v = m.vol.name ∧
        y = m.snap.name ∧ backendFor a m.vol = .ok pool
  | .write wr => GroupWrite a g log wr
  | _ => True

variable {a g}

theorem groupGuard_of_harmless (l : PassLog) (c : Cmd) (h : c.harmless) :
    groupGuard a g l c := by
  cases c <;> simp_all [groupGuard, Cmd.harmless]

section Frame

variable {l l' : PassLog} {w : SnapshotGroup} {ms : List GroupMember}

theorem ReadMember.mono {name : String} {m : GroupMember} (h : ReadMember l name m)
    (hs : ∀ e ∈ l, e ∈ l') : ReadMember l' name m :=
  ⟨h.1.imp fun _ ht => hs _ ht, h.2.imp fun _ ht => hs _ ht⟩

theorem GroupInRound.frame (h : GroupInRound g l w ms) (hf : Frame l l') :
    GroupInRound g l' w ms :=
  { h with
    view_eq := by rw [hf.groupView_eq, h.view_eq]
    members := h.members.imp fun _ _ hm => hm.mono fun _ he => hf.mem he }

theorem GroupCutPhase.frame (h : GroupCutPhase a g l w ms) (hf : Frame l l') :
    GroupCutPhase a g l' w ms :=
  { h with toGroupInRound := h.toGroupInRound.frame hf }

theorem Drives.frame (h : Drives a l ms) (hf : Frame l l') : Drives a l' ms := by
  obtain ⟨m, hm, t, st, hst, hc⟩ := h
  exact ⟨m, hm, t, st, hf.mem hst, hc⟩

theorem GroupLift.view (h : GroupLift a g l w) : groupView g l = some w := by
  cases h with
  | deleted h | ready h => exact h
  | idle h | closing h | failedRaise h => exact h.view_eq

theorem GroupLift.frame (h : GroupLift a g l w) (hf : Frame l l') : GroupLift a g l' w := by
  cases h with
  | deleted h hd => exact .deleted (by rw [hf.groupView_eq, h]) hd
  | ready h hr => exact .ready (by rw [hf.groupView_eq, h]) hr
  | idle h hi => exact .idle (h.frame hf) hi
  | closing h hl hc =>
    exact .closing (h.frame hf) hl (hc.imp (·.frame hf) (·.imp_right (·.frame hf)))
  | failedRaise h hl hu => exact .failedRaise (h.frame hf) hl hu

theorem HasCut.frame {m : GroupMember} (h : HasCut a g l w ms m) (hf : Frame l l') :
    HasCut a g l' w ms m := by
  obtain ⟨pool, new, old, t₁, t₂, rfl, hb, hc⟩ := h
  obtain ⟨new', rfl, -⟩ := hf
  exact ⟨pool, new' ++ new, old, t₁, t₂, by simp, hb, hc⟩

end Frame

namespace GroupSnapshotReconciler

variable {l : PassLog} {w : SnapshotGroup} {ms : List GroupMember}

/-- A lift that reports no error has lifted the barrier, or found another round. -/
theorem resumeUnlessOtherRound_obeys (h : GroupLift a g l w) (v : String) (vol : Option Volume) :
    Obeys (groupGuard a g) (fun l' e => Frame l l' ∧ (lastStatus l = some v → e = none →
      Lifted v (FoundRound v v "" w.name l') l')) l (resumeUnlessOtherRound a w v vol) := by
  refine (volumeRoundActive_obeys groupGuard_of_harmless _ _ _).bind fun l' r hr => ?_
  have hf := hr.frame
  rcases r with e | _ | _
  · exact ⟨hf, nofun⟩
  · refine hf.call rfl ⟨w, h.frame hf, hr.quiet rfl⟩ fun t r hf => ?_
    rcases r with e | _
    · exact ⟨hf, nofun⟩
    · cases vol with
      | none => exact ⟨hf, fun _ _ => .lifted (.head _)⟩
      | some vol =>
        exact (thawMounted_obeys groupGuard_of_harmless a vol).bind fun _ _ hf₂ =>
          ⟨hf.trans hf₂, fun _ _ => .lifted (hf₂.mem (.head _))⟩
  · exact ⟨hf, fun hv _ => .deferred (hr.found v hv rfl)⟩

theorem resumeMine_obeys (h : GroupLift a g l w) (legs : List GroupMember) :
    Obeys (groupGuard a g) (fun l' _ => Frame l l') l (resumeMine a w legs) := by
  induction legs generalizing l with
  | nil => exact Frame.refl l
  | cons m legs ih =>
    refine (resumeUnlessOtherRound_obeys h _ _).bind fun l' r ⟨hf, _⟩ => ?_
    cases r with
    | some e => exact hf
    | none => exact (ih (h.frame hf)).grew hf

theorem raiseLegs_obeys (h : GroupLift a g l w) (hd : w.deleting = false)
    (suspended raise : List GroupMember) :
    Obeys (groupGuard a g) (fun l' _ => Frame l l') l (raiseLegs a w suspended raise) := by
  induction raise generalizing l suspended with
  | nil => exact Frame.refl l
  | cons m raise ih =>
    refine (freezeMounted_obeys groupGuard_of_harmless a m.vol).bind fun l₁ r hf => ?_
    cases r with
    | error e =>
      refine (resumeMine_obeys (h.frame hf) _).bind fun l₂ _ hf₂ => ?_
      exact (barrierFailed_obeys groupGuard_of_harmless _ _).bind fun _ _ => (hf.trans hf₂).trans
    | ok =>
      refine hf.call rfl ⟨w, (h.frame hf).view, hd⟩ fun t r hf => ?_
      rcases r with e | _
      · refine (thawMounted_obeys groupGuard_of_harmless a m.vol).bind fun l₂ _ hf₂ => ?_
        have hf₂ := hf.trans hf₂
        refine (resumeMine_obeys (h.frame hf₂) _).bind fun l₃ _ hf₃ => ?_
        exact (barrierFailed_obeys groupGuard_of_harmless _ _).bind fun _ _ => (hf₂.trans hf₃).trans
      · exact (ih (h.frame hf) _).grew hf

theorem recordRaise_obeys {raise : List GroupMember} {opensRound : Bool}
    (ho : opensRound → ∀ l' t, Frame l l' → GroupWrite a g l' (.applyGroup w.name
      (groupStatusAC (openGroupStatus a.node ms raise (stampOf t) w.status))))
    (hp : opensRound = false → GroupWrite a g l (.mergeSlots w.name
      ((slotsOn a.node raise).map (·, .suspended)))) :
    Obeys (groupGuard a g) (fun l' _ => Frame l l') l (recordRaise a w ms raise opensRound) := by
  unfold recordRaise
  cases opensRound with
  | true =>
    exact (Frame.refl l).call rfl trivial fun t r hf => ⟨ho rfl _ _ hf, fun t' r' => hf.cons r' rfl⟩
  | false => exact ⟨hp rfl, fun t r => (Frame.refl l).cons r rfl⟩

theorem raiseBarriers_obeys {disklessRaise : List GroupMember} {opensRound : Bool}
    (h : GroupInRound g l w ms)
    (ho : opensRound → w.status.ioSuspended = false ∧
      disklessRaise ⊆ myActiveDisklessLegs w.status ms a.node)
    (hp : opensRound = false → w.status.ioSuspended ∧ Unraised a w ms ∧ disklessRaise =
      pendingDisklessLegs w.status (myActiveDisklessLegs w.status ms a.node) a.node) :
    Obeys (groupGuard a g) (fun _ _ => True) l
      (raiseBarriers a w ms (myLegs ms a.node) disklessRaise opensRound) := by
  have hlift : GroupLift a g l w := by
    cases opensRound with
    | true => exact .idle h (ho rfl).1
    | false => exact .failedRaise h (hp rfl).1 (hp rfl).2.1
  unfold raiseBarriers
  split
  · trivial
  refine (raiseLegs_obeys hlift h.kept _ _).bind fun l₁ r hf => ?_
  cases r with
  | some res => trivial
  | none =>
    refine hf.call rfl trivial fun t r hf => ?_
    refine (recordRaise_obeys ?_ ?_).bind fun l₂ r₂ hf₂ => ?_
    · rintro rfl l' t' hf'
      exact .opens (h.frame (hf.trans hf')) (ho rfl).1 (ho rfl).2
    · rintro rfl
      obtain ⟨hl, hu, rfl⟩ := hp rfl
      exact .raises (h.frame hf) hl hu
    · cases r₂ with
      | error e =>
        exact (resumeMine_obeys (hlift.frame (hf.trans hf₂)) _).bind fun _ _ _ => trivial
      | ok => trivial

theorem cutEach_obeys {legs : List GroupMember} (h : GroupCutPhase a g l w ms)
    (hm : legs ⊆ myLegs ms a.node) :
    Obeys (groupGuard a g) (fun l' r => Frame l l' ∧
      (r = none → ∀ m ∈ legs, HasCut a g l' w ms m)) l (cutEach a w legs) := by
  induction legs generalizing l with
  | nil => exact ⟨Frame.refl l, by simp⟩
  | cons m legs ih =>
    have hml : m ∈ myLegs ms a.node := hm (.head _)
    unfold cutEach
    cases hb : backendFor a m.vol with
    | error e => exact ⟨Frame.refl l, by simp⟩
    | ok pool =>
      refine (Frame.refl l).call rfl ⟨w, h.view_eq, h.kept⟩ fun t r hf => ?_
      rcases r with e | _
      · exact (barrierFailed_obeys groupGuard_of_harmless _ _).bind fun l' _ hf' =>
          ⟨hf.trans hf', by simp⟩
      refine hf.call rfl trivial fun t₂ r₂ hf => ?_
      rcases r₂ with e | _
      · exact ⟨hf, by simp⟩
      have h' := h.frame hf
      refine hf.call rfl ⟨w, ms, m, h', hml, rfl, rfl, hb⟩ fun t₃ r₃ hf => ?_
      rcases r₃ with e | _
      · exact ⟨hf, by simp⟩
      refine hf.call rfl ⟨t₃, _, rfl, w, ms, m, h', hml, rfl, rfl, hb⟩ fun t₄ r₄ hf => ?_
      rcases r₄ with e | _
      · exact ⟨hf, by simp⟩
      refine (ih (h.frame hf) fun _ h => hm (.tail _ h)).mono
        fun l' r hr => ⟨hf.trans hr.1, fun hn m' hm' => ?_⟩
      rcases List.mem_cons.mp hm' with rfl | hm'
      · exact HasCut.frame ⟨pool, [], _, t₃, t₄, rfl, hb, h'⟩ hr.1
      · exact hr.2 hn m' hm'

theorem cutLegs_obeys (h : GroupCutPhase a g l w ms) :
    Obeys (groupGuard a g) (fun _ _ => True) l (cutLegs a w (myLegs ms a.node)) := by
  refine (cutEach_obeys h (List.Subset.refl _)).bind fun l₁ r ⟨hf, hc⟩ => ?_
  cases r with
  | some res => trivial
  | none =>
    refine (Frame.refl l₁).call rfl trivial fun t r hf' => obeys_call_bind
      (.cuts (h.frame (hf.trans hf')) fun m hm => (hc rfl m hm).frame hf') fun t r => ?_
    cases r <;> trivial

theorem publishMembers_obeys {todo : List GroupMember} (h : GroupInRound g l w ms)
    (hl : w.status.ioSuspended) (hd : allSlotsDone w.status ms) (hm : todo ⊆ ms) :
    Obeys (groupGuard a g) (fun l' _ => Frame l l') l (publishMembers todo) := by
  induction todo generalizing l with
  | nil => exact Frame.refl l
  | cons m todo ih =>
    refine (Frame.refl l).call rfl (.publishes h hl hd (hm (.head _))) fun t r hf => ?_
    rcases r with e | _
    · exact hf
    · exact (ih (h.frame hf) fun _ h => hm (.tail _ h)).grew hf

theorem collectSlots_obeys {expired : Bool} (h : GroupInRound g l w ms)
    (hl : w.status.ioSuspended) (he : expired → Expired l w.status.suspendedAt)
    (hdrives : Drives a l ms) :
    Obeys (groupGuard a g) (fun _ _ => True) l (collectSlots a w ms (myLegs ms a.node)
      (myActiveDisklessLegs w.status ms a.node) expired) := by
  unfold collectSlots
  split
  · trivial
  rename_i hc
  have hc : Expired l w.status.suspendedAt ∨ allSlotsDone w.status ms ∧ Drives a l ms := by
    cases hd : allSlotsDone w.status ms with
    | true => exact .inr ⟨rfl, hdrives⟩
    | false => exact .inl (he (by simpa [hd] using hc))
  refine (resumeMine_obeys (.closing h hl hc) _).bind fun l₁ r hf => ?_
  cases r with
  | some e => trivial
  | none =>
    dsimp only
    split
    · rename_i hd
      refine (publishMembers_obeys (h.frame hf) hl hd (List.Subset.refl _)).bind fun l₂ r hf₂ => ?_
      cases r with
      | some e => trivial
      | none =>
        refine obeys_call_bind (.seals (h.frame (hf.trans hf₂)) hl hd) fun t r => ?_
        cases r <;> trivial
    · rename_i hd
      refine hf.call rfl trivial fun t r hf =>
        obeys_call_bind (.voids (h.frame hf) hl (by simpa using hd)) fun t' r' => ?_
      cases r' <;> trivial

theorem anyMemberActive_obeys (todo : List GroupMember) :
    Obeys (groupGuard a g) (fun l' _ => Frame l l') l (anyMemberActive w todo) := by
  induction todo generalizing l with
  | nil => exact Frame.refl l
  | cons m todo ih =>
    refine (volumeRoundActive_obeys groupGuard_of_harmless _ _ _).bind fun l₁ r hr => ?_
    rcases r with e | _ | _
    · exact hr.frame
    · exact ih.grew hr.frame
    · exact hr.frame

/-- The statuses in a view have been read. -/
def LocalView.Read (view : LocalView) (l : PassLog) : Prop :=
  ∀ v st, view.sts v = some st → ∃ t, (⟨t, .drbdStatus v, .ok st⟩ : Entry Nat Ans) ∈ l

theorem LocalView.Read.drives {view : LocalView} (h : view.Read l) (hd : isDriver a ms view) :
    Drives a l ms := by
  cases ms with
  | nil => cases hd
  | cons m ms =>
    obtain ⟨st, hst, hc⟩ := (Option.any_eq_true _ _).mp hd
    obtain ⟨t, ht⟩ := h _ st hst
    exact ⟨m, rfl, t, st, ht, hc⟩

theorem localView_obeys {view : LocalView} (h : view.Read l) (legs : List (GroupMember × Bool)) :
    Obeys (groupGuard a g) (fun l' r => Frame l l' ∧ ∀ view', r = .ok view' → view'.Read l') l
      (localView a w view legs) := by
  induction legs generalizing l view with
  | nil =>
    refine ⟨Frame.refl l, ?_⟩
    rintro _ ⟨⟩
    exact h
  | cons leg legs ih =>
    obtain ⟨m, diskful⟩ := leg
    refine (Frame.refl l).call rfl trivial fun t r hf => ?_
    rcases r with e | st
    · exact (barrierFailed_obeys groupGuard_of_harmless _ _).bind fun _ _ hf' =>
        ⟨hf.trans hf', nofun⟩
    · refine (ih fun v st' hv => ?_).mono fun _ _ hr => ⟨hf.trans hr.1, hr.2⟩
      dsimp only at hv
      rcases eq_or_ne v m.vol.name with rfl | hne
      · rw [Function.update_self] at hv
        cases hv
        exact ⟨t, .head _⟩
      · rw [Function.update_of_ne hne] at hv
        exact (h v st' hv).imp fun _ => .tail _

theorem openRound_obeys {view : LocalView} (h : GroupInRound g l w ms)
    (hi : w.status.ioSuspended = false) :
    Obeys (groupGuard a g) (fun _ _ => True) l (openRound a w ms (myLegs ms a.node)
      (myActiveDisklessLegs w.status ms a.node) view) := by
  refine (inBackoff_obeys groupGuard_of_harmless _ _).bind fun l₁ b hf => ?_
  cases b with
  | true => trivial
  | false =>
    refine (anyMemberActive_obeys ms).bind fun l₂ r hf₂ => ?_
    rcases r with e | _ | _
    · trivial
    · exact raiseBarriers_obeys (h.frame (hf.trans hf₂))
        (fun _ => ⟨hi, List.filter_subset_self _⟩) (nofun)
    · trivial

theorem resumeSuspended_obeys (h : GroupLift a g l w) (view : LocalView)
    (legs : List GroupMember) :
    Obeys (groupGuard a g) (fun l' _ => Frame l l') l (resumeSuspended a w view legs) := by
  induction legs generalizing l with
  | nil => exact Frame.refl l
  | cons m legs ih =>
    unfold resumeSuspended
    split
    · refine (resumeUnlessOtherRound_obeys h _ _).bind fun l' r ⟨hf, _⟩ => ?_
      cases r with
      | some e => exact hf
      | none => exact (ih (h.frame hf)).grew hf
    · exact ih h

theorem reconcileRound_obeys (h : GroupInRound g l w ms) :
    Obeys (groupGuard a g) (fun _ _ => True) l (reconcileRound a w ms (myLegs ms a.node)
      (myActiveDisklessLegs w.status ms a.node)) := by
  have hempty : LocalView.Read {} l := nofun
  refine (localView_obeys hempty _).bind fun l₁ r ⟨hf, hread⟩ => ?_
  cases r with
  | error res => trivial
  | ok view =>
    refine (clockFor_obeys groupGuard_of_harmless _).bind fun l₂ now ⟨hf₂, he⟩ => ?_
    have h₁ := h.frame (hf.trans hf₂)
    dsimp only
    split
    · rename_i hc
      simp only [Bool.and_eq_true, Bool.not_eq_true'] at hc
      exact openRound_obeys h₁ hc.1.1.2
    split
    · rename_i hc
      simp only [Bool.and_eq_true, Bool.or_eq_true, Bool.not_eq_true'] at hc
      refine raiseBarriers_obeys h₁ (nofun) fun _ => ⟨hc.1.1.1.2, ?_, rfl⟩
      exact hc.2.imp_right fun h => by simpa [List.isEmpty_eq_false_iff] using h
    split
    · rename_i hc
      simp only [Bool.and_eq_true, Bool.not_eq_true'] at hc
      exact cutLegs_obeys { h₁ with live := hc.1.1.1.1, all := hc.1.2, own := hc.2 }
    split
    · rename_i hc
      simp only [Bool.and_eq_true] at hc
      exact collectSlots_obeys h₁ hc.2 he (((hread view rfl).drives hc.1).frame hf₂)
    split
    · rename_i hc
      simp only [Bool.and_eq_true] at hc
      exact (resumeMine_obeys (.closing h₁ hc.1.1 (.inl (he hc.1.2))) _).bind
        fun _ _ _ => trivial
    split
    · rename_i hc
      simp only [Bool.and_eq_true, Bool.not_eq_true'] at hc
      exact (resumeSuspended_obeys (.idle h₁ hc.1) _ _).bind fun _ _ _ => trivial
    · trivial

/-- What reading the members leaves behind: those that are found are in the log, and if none is
missing there is one to a name. -/
structure MembersRead (g : String) (found : List GroupMember) (missing : Bool) (names : List String)
    (l l' : PassLog) (r : Except Err (List GroupMember × Bool)) : Prop where
  view : groupView g l' = groupView g l
  mem : ∀ e ∈ l, e ∈ l'
  read : ∀ ms missing', r = .ok (ms, missing') → readMembers l' = ms
  all : ∀ ms, r = .ok (ms, false) → missing = false ∧ ∃ new, ms = found ++ new ∧
    List.Forall₂ (ReadMember l') names new

theorem members_obeys {found : List GroupMember} (names : List String)
    (hfound : readMembers l = found) (missing : Bool) :
    Obeys (groupGuard a g) (MembersRead g found missing names l) l
      (members found missing names) := by
  induction names generalizing l found missing with
  | nil =>
    exact ⟨rfl, fun _ h => h, fun ms m h => by cases h; exact hfound,
      fun ms h => ⟨by simp_all, [], by simp_all, .nil⟩⟩
  | cons name names ih =>
    -- The flag is never cleared, so a member that is not found rules out a complete answer.
    have hskip : ∀ {l'}, groupView g l' = groupView g l → (∀ e ∈ l, e ∈ l') →
        readMembers l' = found → Obeys (groupGuard a g)
          (MembersRead g found missing (name :: names) l) l' (members found true names) := by
      intro l' hv hs hl'
      refine (ih hl' true).mono fun l'' r hr => ⟨hr.view.trans hv, fun e he => hr.mem e (hs e he),
        hr.read, fun ms hms => ?_⟩
      cases (hr.all ms hms).1
    refine obeys_call_bind trivial fun t r => ?_
    rcases r with e | _ | snap
    · exact ⟨rfl, fun _ => .tail _, nofun, nofun⟩
    · exact hskip rfl (fun _ => .tail _) hfound
    refine obeys_call_bind trivial fun t₁ r₁ => ?_
    have hmem : ∀ e ∈ l, e ∈ (⟨t₁, .cachedVolume snap.volumeName, r₁⟩ ::
        ⟨t, .cachedSnapshot name, .ok (some snap)⟩ :: l : PassLog) :=
      fun _ he => .tail _ (.tail _ he)
    rcases r₁ with e | _ | vol
    · exact ⟨rfl, hmem, nofun, nofun⟩
    · exact hskip rfl hmem hfound
    · refine (ih (by rw [readMembers, hfound]) missing).mono fun l' r hr =>
        ⟨hr.view, fun e he => hr.mem e (hmem e he), hr.read, fun ms hms => ?_⟩
      obtain ⟨hmiss, new, rfl, hn⟩ := hr.all ms hms
      have hread : ReadMember l' name ⟨snap, vol⟩ :=
        ⟨⟨t, hr.mem _ (.tail _ (.head _))⟩, ⟨t₁, hr.mem _ (.head _)⟩⟩
      exact ⟨hmiss, ⟨snap, vol⟩ :: new, by simp, .cons hread hn⟩

/-- A sweep that reports no error is done with the barrier of every volume. -/
theorem sweepDeleted_obeys (h : GroupLift a g l w) (found : List GroupMember)
    (vols : List String) :
    Obeys (groupGuard a g) (fun l' e => Frame l l' ∧ (e = none → ∀ v ∈ vols,
      Lifted v (FoundRound v v "" w.name l') l')) l (sweepDeleted a w found vols) := by
  induction vols generalizing l with
  | nil => exact ⟨Frame.refl l, nofun⟩
  | cons v vols ih =>
    -- What is known of `v` when the rest of the sweep starts is still known when it ends.
    have hrest : ∀ {l₁ : PassLog}, Frame l l₁ → Lifted v (FoundRound v v "" w.name l₁) l₁ →
        Obeys (groupGuard a g) (fun l' e => Frame l l' ∧ (e = none → ∀ u ∈ v :: vols,
          Lifted u (FoundRound u u "" w.name l') l')) l₁ (sweepDeleted a w found vols) := by
      intro l₁ hf hv
      refine (ih (h.frame hf)).mono fun l' e ⟨hf', he⟩ => ⟨hf.trans hf', fun hn u hu => ?_⟩
      rcases List.mem_cons.mp hu with rfl | hu
      · exact hv.frame hf' fun h => h.frame hf'
      · exact he hn u hu
    refine (Frame.refl l).call rfl trivial fun t r hf => ?_
    rcases r with e | st
    · exact hrest hf (.silent (.head _))
    dsimp only
    split
    · refine (resumeUnlessOtherRound_obeys (h.frame hf) v _).bind fun l₁ e ⟨hf₁, hlift⟩ => ?_
      cases e with
      | some e => exact ⟨hf.trans hf₁, nofun⟩
      | none => exact hrest (hf.trans hf₁) (hlift rfl rfl)
    · rename_i hs
      exact hrest hf (.down (.head _) (by simpa using hs))

theorem reconcileDeleted_obeys {found : List GroupMember} (h : groupView g l = some w)
    (hd : w.deleting) (hfound : readMembers l = found) :
    Obeys (groupGuard a g) (fun _ _ => True) l (reconcileDeleted a w found) := by
  subst hfound
  refine (Frame.refl l).call rfl trivial fun t r hf => ?_
  refine (sweepDeleted_obeys (GroupLift.frame (.deleted h hd) hf) _ _).bind
    fun l₁ r ⟨hf₁, hlift⟩ => ?_
  cases r with
  | some e => trivial
  | none =>
    dsimp only
    unfold removeFinalizer
    split
    · exact ⟨.finalizer (by rw [Frame.groupView_eq (hf.trans hf₁), h]) hd hf₁.suffix (hlift rfl),
        fun _ _ => trivial⟩
    · trivial

theorem reconcileReady_obeys (h : GroupLift a g l w) (legs : List GroupMember) :
    Obeys (groupGuard a g) (fun _ _ => True) l (reconcileReady a w legs) := by
  induction legs generalizing l with
  | nil => trivial
  | cons m legs ih =>
    refine (Frame.refl l).call rfl trivial fun t r hf => ?_
    have hthaw : Obeys (groupGuard a g) (fun _ _ => True) (⟨t, .drbdStatus m.vol.name, r⟩ :: l)
        (do thawMounted a m.vol; reconcileReady a w legs) :=
      (thawMounted_obeys groupGuard_of_harmless a m.vol).bind fun l' _ hf' =>
        ih (h.frame (hf.trans hf'))
    rcases r with e | st
    · exact hthaw
    dsimp only
    split
    · refine (resumeUnlessOtherRound_obeys (h.frame hf) _ _).bind fun l₁ r ⟨hf₁, _⟩ => ?_
      cases r with
      | some e => trivial
      | none => exact ih (h.frame (hf.trans hf₁))
    · exact hthaw

/-- A group pass does what `groupGuard` says. -/
theorem reconcile_obeys (a : Agent) (g : String) :
    Obeys (groupGuard a g) (fun _ _ => True) [] (reconcile a g) := by
  refine obeys_call_bind rfl fun t r => ?_
  rcases r with e | _ | w
  · trivial
  · trivial
  · refine (members_obeys w.snapshotNames rfl false).bind fun l r hread => ?_
    have hv : groupView g l = some w := by simpa [groupView] using hread.view
    rcases r with e | ⟨ms, missing⟩
    · trivial
    · cases hd : w.deleting with
      | true => simpa [hd] using reconcileDeleted_obeys hv hd (hread.read ms missing rfl)
      | false =>
        cases missing with
        | true => trivial
        | false =>
          obtain ⟨-, new, rfl, hnew⟩ := hread.all ms rfl
          simp only [Bool.false_eq_true, if_false]
          unfold reconcileMembers
          dsimp only
          split
          · trivial
          split
          · rename_i hr
            exact reconcileReady_obeys (.ready hv hr) _
          · rename_i hr
            split
            · trivial
            · exact reconcileRound_obeys
                { view_eq := hv, members := hnew, kept := hd, unready := by simpa using hr }

end GroupSnapshotReconciler

end Miroir
