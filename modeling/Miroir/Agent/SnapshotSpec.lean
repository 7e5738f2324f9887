import Miroir.Agent.Log
import Miroir.Agent.Snapshot

/-!
# What a snapshot pass does

`snapGuard a x` is the specification of the snapshot reconciler of agent `a` on snapshot `x`: when
it raises or lifts a barrier, deletes or cuts a leg, or writes, in terms of the views it has read
and the entries of its log. It drops its finalizer of a deleted snapshot with the legs of the node
swept from every pool and the barrier lifted, or with a reason why there is nothing to sweep or to
lift: `Swept` and `BarrierDown` list the reasons. `SnapshotReconciler.reconcile_obeys` proves it of
the program, so that nothing above this module looks into the reconciler again.
-/

namespace Miroir

open Process Prog

variable (a : Agent) (x : String)

/-- The pass has read the snapshot and its volume. -/
structure Reads (log : PassLog) (w : Snapshot) (vol : Volume) : Prop where
  snap_eq : snapView x log = some w
  vol_eq : volView w.volumeName log = some vol

/-- The pass has got as far as the round of a replicated standalone snapshot. -/
structure InRound (log : PassLog) (w : Snapshot) (vol : Volume) : Prop extends
    Reads x log w vol where
  kept : w.deleting = false
  standalone : w.group = ""
  unready : w.status.readyToUse = false
  drbd : vol.spec.drbd = true

/-- The pass may cut its leg in `pool`: the round it sees is live, its own barrier is up and so
is every diskful one. -/
structure CutPhase (log : PassLog) (w : Snapshot) (vol : Volume) (pool : String) : Prop extends
    InRound x log w vol where
  live : w.status.ioSuspended = true
  diskful : diskfulOn vol a.node = true
  own : w.status.perNode.lookup a.node = some .suspended
  all : allSuspended vol.spec w.status = true
  backend : backendFor a vol = .ok pool

/-- Why a pass lifts its barrier. -/
inductive Lift (log : PassLog) (w : Snapshot) (vol : Volume) : Prop
  | deleted (h : Reads x log w vol) (hd : w.deleting = true)
  | ready (h : Reads x log w vol) (hr : w.status.readyToUse = true)
  | idle (h : InRound x log w vol) (hi : w.status.ioSuspended = false)
  | closing (h : InRound x log w vol) (hl : w.status.ioSuspended = true)
      (hc : Expired log w.status.suspendedAt ∨ allDone vol.spec w.status = true)
  | failedRaise (h : InRound x log w vol) (hl : w.status.ioSuspended = true)
      (hs : raised (w.status.perNode.lookup a.node) = false)

/-- The newest read of the own object shows no other live round on it. -/
def OwnQuiet (w : Snapshot) (log : PassLog) : Prop :=
  ∃ t live, lastGet w.name log = some (t, live) ∧
    ∀ v, live = some v → v.status.ioSuspended = true → sameSnapshotRound w v = true

/-- Why no leg of the snapshot is left on the node: its volume is gone, the node's leg of the
volume has no disk, or every pool has been swept. -/
inductive Swept (w : Snapshot) (log : PassLog) : Prop
  | gone {t} (h : (⟨t, .cachedVolume w.volumeName, .ok none⟩ : Entry Nat Ans) ∈ log)
  | diskless {t vol} (h : (⟨t, .cachedVolume w.volumeName, .ok (some vol)⟩ : Entry Nat Ans) ∈ log)
      (hd : disklessOn vol a.node = true)
  | pools (h : ∀ pool ∈ a.pools, ∃ t v,
      (⟨t, .deleteSnapshot pool v w.name, .ok ()⟩ : Entry Nat Ans) ∈ log)

/-- The pass, about to lift the barrier of `v`, has found another round than that of `w`: under its
own name, or over its volume. -/
def OtherRound (w : Snapshot) (v : String) (log : PassLog) : Prop :=
  (∃ t live old, (⟨t, .getSnapshot w.name, .ok (some live)⟩ : Entry Nat Ans) :: old <:+ log ∧
    lastStatus old = some v ∧ live.status.ioSuspended = true ∧ sameSnapshotRound w live = false) ∨
  FoundRound v w.volumeName w.name "" log

/-- Why the barrier of the round of `w` is not up on the node. -/
inductive BarrierDown (w : Snapshot) (log : PassLog) : Prop
  | gone {t} (h : (⟨t, .cachedVolume w.volumeName, .ok none⟩ : Entry Nat Ans) ∈ log)
  | unreplicated {t vol}
      (h : (⟨t, .cachedVolume w.volumeName, .ok (some vol)⟩ : Entry Nat Ans) ∈ log)
      (hd : vol.spec.drbd = false)
  | checked {t vol}
      (h : (⟨t, .cachedVolume w.volumeName, .ok (some vol)⟩ : Entry Nat Ans) ∈ log)
      (hl : Lifted vol.name (OtherRound w vol.name log) log)

/-- What a pass writes. -/
inductive SnapWrite (log : PassLog) : Write → Prop
  | opens {w vol t} (h : InRound x log w vol) (hi : w.status.ioSuspended = false) :
      SnapWrite log (.applySnap w.name (snapshotStatusAC
        (openStatus a.node vol.spec (stampOf t) w.status)))
  | voids {w vol t} (h : InRound x log w vol) (hl : w.status.ioSuspended = true)
      (hd : allDone vol.spec w.status = false) :
      SnapWrite log (.applySnap w.name (snapshotStatusAC
        (voidStatus a.node vol.spec (stampOf t) w.status)))
  | publishes {w vol} (h : InRound x log w vol) (hl : w.status.ioSuspended = true)
      (hd : allDone vol.spec w.status = true) :
      SnapWrite log (.applySnap w.name (snapshotStatusAC (publishStatus vol w.status)))
  | single {w vol} (h : Reads x log w vol) (hr : w.status.readyToUse = false)
      (hv : vol.spec.drbd = false) (hg : w.group = "") :
      SnapWrite log (.applySnap w.name (snapshotStatusAC (singleStatus a.node vol w.status)))
  | raises {w vol stamp} (h : InRound x log w vol) (hl : w.status.ioSuspended = true)
      (hs : w.status.suspendedAt = some stamp) (hv : diskfulOn vol a.node = true)
      (ho : raised (w.status.perNode.lookup a.node) = false) :
      SnapWrite log (.patchSlot w.name a.node stamp .suspended)
  | cuts {w vol stamp pool l t₁ t₂} (h : CutPhase a x l w vol pool)
      (hs : w.status.suspendedAt = some stamp)
      (hl : log = ⟨t₂, .snapshot pool vol.name w.name, .ok ()⟩ ::
        ⟨t₁, .deleteSnapshot pool vol.name w.name, .ok ()⟩ :: l) :
      SnapWrite log (.patchSlot w.name a.node stamp .done)
  | finalizer {w} (h : snapView x log = some w) (hd : w.deleting = true) (hs : Swept a w log)
      (hb : BarrierDown w log) :
      SnapWrite log (.dropSnapFinalizer w.name a.node)

/-- The specification of a snapshot pass. -/
def snapGuard (log : PassLog) : Cmd → Prop
  | .cachedSnapshot _ => log = []
  | .cachedGroup _ => False
  | .suspendIo v => ∃ w vol, Reads x log w vol ∧ w.deleting = false ∧ v = vol.name
  | .resumeIo v => ∃ w vol, v = vol.name ∧ Lift a x log w vol ∧ OwnQuiet w log ∧
      Quiet w.volumeName w.name "" log
  | .deleteSnapshot pool v y => ∃ w vol, v = vol.name ∧ y = w.name ∧
      ((Reads x log w vol ∧ w.deleting = true) ∨ CutPhase a x log w vol pool)
  | .snapshot pool v y => ∃ w vol, v = vol.name ∧ y = w.name ∧
      ((Reads x log w vol ∧ vol.spec.drbd = false ∧ w.deleting = false ∧
          backendFor a vol = .ok pool) ∨
        ∃ t l, log = ⟨t, .deleteSnapshot pool v y, .ok ()⟩ :: l ∧ CutPhase a x l w vol pool)
  | .write wr => SnapWrite a x log wr
  | _ => True

variable {a x}

theorem snapGuard_of_harmless (l : PassLog) (c : Cmd) (h : c.harmless) :
    snapGuard a x l c := by
  cases c <;> simp_all [snapGuard, Cmd.harmless]

section Frame

variable {l l' : PassLog} {w : Snapshot} {vol : Volume}

theorem Reads.frame (h : Reads x l w vol) (hf : Frame l l') : Reads x l' w vol :=
  ⟨by rw [hf.snapView_eq, h.snap_eq], by rw [hf.volView_eq, h.vol_eq]⟩

theorem InRound.frame (h : InRound x l w vol) (hf : Frame l l') : InRound x l' w vol :=
  { h with toReads := h.toReads.frame hf }

theorem CutPhase.frame {pool : String} (h : CutPhase a x l w vol pool) (hf : Frame l l') :
    CutPhase a x l' w vol pool :=
  { h with toInRound := h.toInRound.frame hf }

theorem OtherRound.frame {v : String} (h : OtherRound w v l) (hf : Frame l l') :
    OtherRound w v l' := by
  rcases h with ⟨t, live, old, hm, hs⟩ | h
  · exact .inl ⟨t, live, old, hm.trans hf.suffix, hs⟩
  · exact .inr (h.frame hf)

theorem BarrierDown.frame (h : BarrierDown w l) (hf : Frame l l') : BarrierDown w l' := by
  cases h with
  | gone h => exact .gone (hf.mem h)
  | unreplicated h hd => exact .unreplicated (hf.mem h) hd
  | checked h hl => exact .checked (hf.mem h) (hl.frame hf fun h => h.frame hf)

theorem Lift.reads (h : Lift a x l w vol) : Reads x l w vol := by
  cases h with
  | deleted h | ready h => exact h
  | idle h | closing h | failedRaise h => exact h.toReads

theorem Lift.frame (h : Lift a x l w vol) (hf : Frame l l') : Lift a x l' w vol := by
  cases h with
  | deleted h hd => exact .deleted (h.frame hf) hd
  | ready h hr => exact .ready (h.frame hf) hr
  | idle h hi => exact .idle (h.frame hf) hi
  | closing h hl hc => exact .closing (h.frame hf) hl (hc.imp (·.frame hf) id)
  | failedRaise h hl hs => exact .failedRaise (h.frame hf) hl hs

end Frame

namespace SnapshotReconciler

variable {l : PassLog} {w : Snapshot} {vol : Volume}

theorem barrierFailed_any (name : String) (e : Err) :
    Obeys (snapGuard a x) (fun _ _ => True) l (barrierFailed name e) :=
  (barrierFailed_obeys snapGuard_of_harmless name e).mono fun _ _ _ => trivial

theorem otherRoundActive_obeys (w : Snapshot) :
    Obeys (snapGuard a x) (fun l' r => Frame l l' ∧
      (r = .ok false → OwnQuiet w l' ∧ Quiet w.volumeName w.name "" l') ∧
      ∀ v, lastStatus l = some v → r = .ok true → OtherRound w v l') l (otherRoundActive w) := by
  refine (Frame.refl l).call rfl trivial fun t r hf => ?_
  rcases r with e | live
  · exact ⟨hf, nofun, nofun⟩
  dsimp only
  split
  · rename_i hlive
    obtain ⟨u, rfl, hu⟩ := (Option.any_eq_true _ _).mp hlive
    rw [Bool.and_eq_true, Bool.not_eq_true'] at hu
    exact ⟨hf, nofun, fun v hv _ => .inl ⟨t, u, l, List.suffix_refl _, hv, hu⟩⟩
  · rename_i hlive
    refine (volumeRoundActive_obeys snapGuard_of_harmless _ _ _).mono fun l' r hr =>
      ⟨hf.trans hr.frame, fun hr' => ⟨⟨t, live, by simp [hr.gets, lastGet], ?_⟩, hr.quiet hr'⟩,
        fun v hv ht => .inr (hr.found v hv ht)⟩
    rintro v rfl hv
    simpa [hv] using hlive

/-- A lift that reports no error has lifted the barrier, or found another round. -/
theorem resumeUnlessSiblingRound_obeys (h : Lift a x l w vol) :
    Obeys (snapGuard a x) (fun l' e => Frame l l' ∧ (lastStatus l = some vol.name → e = none →
      Lifted vol.name (OtherRound w vol.name l') l')) l (resumeUnlessSiblingRound a w vol) := by
  refine (otherRoundActive_obeys w).bind fun l' r ⟨hf, hq, hfound⟩ => ?_
  rcases r with e | _ | _
  · exact ⟨hf, nofun⟩
  · refine hf.call rfl ⟨w, vol, rfl, h.frame hf, hq rfl⟩ fun t r hf => ?_
    rcases r with e | _
    · exact ⟨hf, nofun⟩
    · exact (thawMounted_obeys snapGuard_of_harmless a vol).bind fun _ _ hf₂ =>
        ⟨hf.trans hf₂, fun _ _ => .lifted (hf₂.mem (.head _))⟩
  · exact ⟨hf, fun hv _ => .deferred (hfound _ hv rfl)⟩

theorem patchOwnState_obeys {state : SnapshotNodeState}
    (h : ∀ stamp, w.status.ioSuspended → w.status.suspendedAt = some stamp →
      SnapWrite a x l (.patchSlot w.name a.node stamp state)) :
    Obeys (snapGuard a x) (fun _ _ => True) l (patchOwnState a w state) := by
  unfold patchOwnState
  split
  · rename_i stamp hl hs
    exact ⟨h stamp hl hs, fun _ _ => trivial⟩
  · trivial

theorem raiseBarrier_obeys {opensRound : Bool} (h : InRound x l w vol)
    (ho : opensRound → w.status.ioSuspended = false)
    (hp : opensRound = false → w.status.ioSuspended ∧ diskfulOn vol a.node ∧
      raised (w.status.perNode.lookup a.node) = false) :
    Obeys (snapGuard a x) (fun _ _ => True) l (raiseBarrier a w vol opensRound) := by
  have hlift : Lift a x l w vol := by
    cases opensRound with
    | true => exact .idle h (ho rfl)
    | false => exact .failedRaise h (hp rfl).1 (hp rfl).2.2
  unfold raiseBarrier
  split
  · trivial
  refine (freezeMounted_obeys snapGuard_of_harmless a vol).bind fun l₁ r hf => ?_
  cases r with
  | error e => exact barrierFailed_any _ _
  | ok =>
    have hraise : snapGuard a x l₁ (.suspendIo vol.name) :=
      ⟨w, vol, (h.frame hf).toReads, h.kept, rfl⟩
    refine hf.call rfl hraise fun t r hf => ?_
    rcases r with e | _
    · refine (thawMounted_obeys snapGuard_of_harmless a vol).bind fun l₂ _ hf₂ => ?_
      refine (otherRoundActive_obeys w).bind fun l₃ r ⟨hf₃, hq, _⟩ => ?_
      rcases r with e | _ | _
      · exact barrierFailed_any _ _
      · exact ⟨⟨w, vol, rfl, hlift.frame ((hf.trans hf₂).trans hf₃), hq rfl⟩,
          fun t r => barrierFailed_any _ _⟩
      · exact barrierFailed_any _ _
    · refine hf.call rfl trivial fun t₁ r₁ hf => ?_
      cases opensRound with
      | true =>
        refine hf.call rfl trivial fun t₂ r₂ hf => ⟨.opens (h.frame hf) (ho rfl), fun t₃ r₃ => ?_⟩
        cases r₃ <;> trivial
      | false =>
        obtain ⟨hl, hv, hs⟩ := hp rfl
        simp only [Bool.false_eq_true, if_false]
        refine (patchOwnState_obeys fun stamp _ hst => ?_).bind fun l' r _ => ?_
        · exact .raises (h.frame hf) hl hst hv hs
        · cases r <;> trivial

theorem cutLeg_obeys (h : ∀ pool, backendFor a vol = .ok pool → CutPhase a x l w vol pool) :
    Obeys (snapGuard a x) (fun _ _ => True) l (cutLeg a w vol) := by
  unfold cutLeg
  cases hb : backendFor a vol with
  | error e => trivial
  | ok pool =>
    have hraise : snapGuard a x l (.suspendIo vol.name) :=
      ⟨w, vol, (h pool hb).toReads, (h pool hb).kept, rfl⟩
    refine (Frame.refl l).call rfl hraise fun t r hf => ?_
    rcases r with e | _
    · exact barrierFailed_any _ _
    refine hf.call rfl trivial fun t₁ r₁ hf => hf.call rfl trivial fun t₂ r₂ hf => ?_
    rcases r₂ with e | _
    · trivial
    have h := (h pool hb).frame hf
    refine obeys_call_bind ⟨w, vol, rfl, rfl, .inr h⟩ fun t₃ r₃ => ?_
    rcases r₃ with e | _
    · trivial
    refine obeys_call_bind ⟨w, vol, rfl, rfl, .inr ⟨t₃, _, rfl, h⟩⟩ fun t₄ r₄ => ?_
    rcases r₄ with e | _
    · trivial
    refine (patchOwnState_obeys fun stamp _ hst => .cuts h hst rfl).bind fun l' r _ => ?_
    cases r <;> trivial

theorem collectLegs_obeys {expired : Bool} (h : InRound x l w vol)
    (hl : w.status.ioSuspended)
    (he : expired → Expired l w.status.suspendedAt) :
    Obeys (snapGuard a x) (fun _ _ => True) l (collectLegs a w vol expired) := by
  unfold collectLegs
  split
  · trivial
  rename_i hc
  have hc : Expired l w.status.suspendedAt ∨ allDone vol.spec w.status := by
    cases hd : allDone vol.spec w.status with
    | true => exact .inr rfl
    | false => exact .inl (he (by simpa [hd] using hc))
  refine (resumeUnlessSiblingRound_obeys (.closing h hl hc)).bind fun l₁ r ⟨hf, _⟩ => ?_
  cases r with
  | some e => trivial
  | none =>
    dsimp only
    split
    · rename_i hd
      refine obeys_call_bind (.publishes (h.frame hf) hl hd) fun t r => ?_
      cases r <;> trivial
    · rename_i hd
      refine hf.call rfl trivial fun t r hf =>
        obeys_call_bind (.voids (h.frame hf) hl (by simpa using hd)) fun t' r' => ?_
      cases r' <;> trivial

theorem openRound_obeys (h : InRound x l w vol) (hi : w.status.ioSuspended = false) :
    Obeys (snapGuard a x) (fun _ _ => True) l (openRound a w vol) := by
  refine (inBackoff_obeys snapGuard_of_harmless _ _).bind fun l₁ b hf => ?_
  cases b with
  | true => trivial
  | false =>
    refine (otherRoundActive_obeys w).bind fun l₂ r hr => ?_
    rcases r with e | _ | _
    · trivial
    · exact raiseBarrier_obeys (h.frame (hf.trans hr.1)) (fun _ => hi) (nofun)
    · trivial

theorem reconcileReplicated_obeys (h : InRound x l w vol) :
    Obeys (snapGuard a x) (fun _ _ => True) l (reconcileReplicated a w vol) := by
  refine (Frame.refl l).call rfl trivial fun t r hf => ?_
  cases r with
  | error e => exact barrierFailed_any _ _
  | ok st =>
    refine (clockFor_obeys snapGuard_of_harmless _).bind fun l₁ now ⟨hf₁, he⟩ => ?_
    have h₁ := h.frame (hf.trans hf₁)
    dsimp only
    split
    · rename_i hc
      simp only [Bool.and_eq_true, Bool.not_eq_true'] at hc
      exact openRound_obeys h₁ hc.1.1.2
    split
    · rename_i hc
      simp only [Bool.and_eq_true, Bool.not_eq_true'] at hc
      exact raiseBarrier_obeys h₁ (nofun) fun _ =>
        ⟨hc.1.1.1.2, hc.1.1.1.1.2, hc.2⟩
    split
    · rename_i hc
      simp only [Bool.and_eq_true, Bool.not_eq_true', decide_eq_true_eq] at hc
      exact cutLeg_obeys fun pool hb =>
        { h₁ with live := hc.1.1.1.1.2, diskful := hc.1.1.1.1.1, own := hc.1.2, all := hc.2,
                  backend := hb }
    split
    · rename_i hc
      simp only [Bool.and_eq_true] at hc
      exact collectLegs_obeys h₁ hc.2 he
    split
    · rename_i hc
      simp only [Bool.or_eq_true, Bool.and_eq_true, Bool.not_eq_true'] at hc
      have hlift : Lift a x l₁ w vol := by
        rcases hc with hc | hc
        · exact .closing h₁ hc.1.1 (.inl (he hc.1.2))
        · exact .idle h₁ hc.1
      refine (resumeUnlessSiblingRound_obeys hlift).bind fun l₂ r _ => ?_
      cases r <;> trivial
    · trivial

/-- A sweep that reports no error has deleted the leg in every pool. -/
theorem sweepDeleteSnapshot_obeys (h : Reads x l w vol) (hd : w.deleting)
    (pools : List String) :
    Obeys (snapGuard a x) (fun l' e => Frame l l' ∧ (e = none → ∀ pool ∈ pools, ∃ t v,
      (⟨t, .deleteSnapshot pool v w.name, .ok ()⟩ : Entry Nat Ans) ∈ l')) l
      (sweepDeleteSnapshot vol.name w.name pools) := by
  induction pools generalizing l with
  | nil => exact ⟨Frame.refl l, nofun⟩
  | cons pool pools ih =>
    refine (Frame.refl l).call rfl ⟨w, vol, rfl, rfl, .inl ⟨h, hd⟩⟩ fun t r hf => ?_
    rcases r with e | _
    · exact (ih (h.frame hf)).bind fun _ _ h' => ⟨hf.trans h'.1, nofun⟩
    · refine (ih (h.frame hf)).mono fun l' e h' => ⟨hf.trans h'.1, fun he p hp => ?_⟩
      rcases List.mem_cons.mp hp with rfl | hp
      · exact ⟨t, vol.name, h'.1.mem (.head _)⟩
      · exact h'.2 he p hp

theorem kernelSuspended_obeys (vol : Volume) :
    Obeys (snapGuard a x) (fun l' b => Frame l l' ∧ (b = true → lastStatus l' = some vol.name) ∧
      (b = false → vol.spec.drbd = false ∨ ∀ found, Lifted vol.name found l')) l
      (kernelSuspended vol) := by
  unfold kernelSuspended
  split
  · refine (Frame.refl l).call rfl trivial fun t r hf => ?_
    rcases r with e | st
    · exact ⟨hf, fun _ => rfl, fun _ => .inr fun _ => .silent (.head _)⟩
    · exact ⟨hf, fun _ => rfl, fun h => .inr fun _ => .down (.head _) h⟩
  · rename_i hd
    exact ⟨Frame.refl l, nofun, fun _ => .inl (by simpa using hd)⟩

theorem removeFinalizer_obeys (h : snapView x l = some w) (hd : w.deleting) (hs : Swept a w l)
    (hb : BarrierDown w l) :
    Obeys (snapGuard a x) (fun _ _ => True) l (removeFinalizer a w) := by
  unfold removeFinalizer
  split
  · exact ⟨.finalizer h hd hs hb, fun _ _ => trivial⟩
  · trivial

/-- The lift of a deleted snapshot's barrier fails, or leaves it down or to another round. -/
theorem liftDeleted_obeys (h : Reads x l w vol) (hd : w.deleting) :
    Obeys (snapGuard a x) (fun l' e => Frame l l' ∧ (e = none → vol.spec.drbd = false ∨
      Lifted vol.name (OtherRound w vol.name l') l')) l (liftDeleted a w vol) := by
  refine (kernelSuspended_obeys vol).bind fun l₁ b ⟨hf, hstatus, hdown⟩ => ?_
  cases b with
  | true =>
    exact (resumeUnlessSiblingRound_obeys (.deleted (h.frame hf) hd)).mono fun l₂ e he =>
      ⟨hf.trans he.1, fun hn => .inr (he.2 (hstatus rfl) hn)⟩
  | false => exact ⟨hf, fun _ => (hdown rfl).imp_right fun h => h _⟩

theorem reconcileDeleted_obeys (h : Reads x l w vol) (hd : w.deleting) :
    Obeys (snapGuard a x) (fun _ _ => True) l (reconcileDeleted a w vol) := by
  refine (Frame.refl l).call rfl trivial fun t r hf => ?_
  refine (liftDeleted_obeys (h.frame hf) hd).bind fun l₁ e ⟨hf₁, hlift⟩ => ?_
  have h := h.frame (hf.trans hf₁)
  cases e with
  | some e => trivial
  | none =>
    obtain ⟨t, hvol⟩ := volView_mem h.vol_eq
    have hdown : BarrierDown w l₁ := by
      rcases hlift rfl with hu | hl
      exacts [.unreplicated hvol hu, .checked hvol hl]
    dsimp only
    split
    · rename_i hdiskless
      exact removeFinalizer_obeys h.snap_eq hd (.diskless hvol hdiskless) hdown
    · refine (sweepDeleteSnapshot_obeys h hd _).bind fun l₂ r ⟨hf₂, hsweep⟩ => ?_
      split
      · trivial
      · trivial
      · exact removeFinalizer_obeys (h.frame hf₂).snap_eq hd (.pools (hsweep rfl)) (hdown.frame hf₂)

theorem reconcileReady_obeys (h : Reads x l w vol) (hr : w.status.readyToUse) :
    Obeys (snapGuard a x) (fun _ _ => True) l (reconcileReady a w vol) := by
  refine (kernelSuspended_obeys vol).bind fun l₁ b ⟨hf, _⟩ => ?_
  cases b with
  | true =>
    exact (resumeUnlessSiblingRound_obeys (.ready (h.frame hf) hr)).bind fun _ _ _ => trivial
  | false => exact (thawMounted_obeys snapGuard_of_harmless a vol).bind fun _ _ _ => trivial

theorem reconcileSingle_obeys (h : Reads x l w vol) (hr : w.status.readyToUse = false)
    (hv : vol.spec.drbd = false) (hg : w.group = "") (hd : w.deleting = false) :
    Obeys (snapGuard a x) (fun _ _ => True) l (reconcileSingle a w vol) := by
  unfold reconcileSingle
  split
  · trivial
  cases hb : backendFor a vol with
  | error e => trivial
  | ok pool =>
    refine (Frame.refl l).call rfl trivial fun t r hf => ?_
    rcases r with e | _
    · trivial
    refine hf.call rfl ⟨w, vol, rfl, rfl, .inl ⟨h.frame hf, hv, hd, hb⟩⟩ fun t₁ r₁ hf => ?_
    rcases r₁ with e | _
    · trivial
    refine obeys_call_bind (.single (h.frame hf) hr hv hg) fun t₂ r₂ => ?_
    cases r₂ <;> trivial

theorem reconcileRead_obeys (h : Reads x l w vol) :
    Obeys (snapGuard a x) (fun _ _ => True) l (reconcileRead a w vol) := by
  unfold reconcileRead
  cases hd : w.deleting with
  | true => exact reconcileDeleted_obeys h hd
  | false =>
    simp only [Bool.false_eq_true, if_false]
    split
    · trivial
    split
    · trivial
    rename_i hg
    cases hr : w.status.readyToUse with
    | true => exact reconcileReady_obeys h hr
    | false =>
      simp only [Bool.false_eq_true, if_false]
      cases hv : vol.spec.drbd with
      | false => exact reconcileSingle_obeys h hr hv (by simpa using hg) hd
      | true =>
        simp only [if_true]
        split
        · trivial
        split
        · trivial
        · exact reconcileReplicated_obeys
            { h with kept := hd, standalone := by simpa using hg, unready := hr, drbd := hv }

/-- A snapshot pass does what `snapGuard` says. -/
theorem reconcile_obeys (a : Agent) (x : String) :
    Obeys (snapGuard a x) (fun _ _ => True) [] (reconcile a x) := by
  refine obeys_call_bind rfl fun t r => ?_
  rcases r with e | _ | w
  · trivial
  · trivial
  refine obeys_call_bind trivial fun t₁ r₁ => ?_
  rcases r₁ with e | _ | vol
  · trivial
  · dsimp only
    split
    · rename_i hd
      exact obeys_call_bind trivial fun t₂ r₂ => removeFinalizer_obeys (by simp [snapView]) hd
        (.gone (.tail _ (.head _))) (.gone (.tail _ (.head _)))
    · trivial
  · exact reconcileRead_obeys ⟨by simp [snapView], by simp [volView]⟩

end SnapshotReconciler

end Miroir
