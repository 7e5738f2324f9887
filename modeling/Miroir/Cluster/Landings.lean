import Miroir.Cluster.History
import Miroir.Data.Fallible

/-!
# What lands on an object

The requests that reach a snapshot or a group in a run, with what the pass behind each of them
had read: `SnapLanding` and `GroupLanding`. A pass has read a version of its own object that the
API server has held, and the spec of the object's volume. The theorems about whole runs take the
writes apart with `snap_landing` and `group_landing` and never look at a log for it.
-/

namespace Miroir

open Process Data

variable {Γ : Config} {s₀ : State} {N i j : ℕ} (ρ : Run (step Γ) s₀ N)

/-- The API server has held `w` as snapshot `x`. -/
def SnapHeld (i : ℕ) (x : String) (w : Snapshot) : Prop :=
  ∃ v ∈ (ρ.state i).versions, v.snap x = some w

/-- The API server has held `w` as group `g`. -/
def GroupHeld (i : ℕ) (g : String) (w : SnapshotGroup) : Prop :=
  ∃ v ∈ (ρ.state i).versions, v.group g = some w

theorem SnapHeld.mono {x : String} {w : Snapshot} (h : SnapHeld ρ i x w) (hij : i ≤ j)
    (hj : j ≤ N) : SnapHeld ρ j x w :=
  h.imp fun _ hv => ⟨versions_mono ρ hij hj hv.1, hv.2⟩

theorem GroupHeld.mono {g : String} {w : SnapshotGroup} (h : GroupHeld ρ i g w) (hij : i ≤ j)
    (hj : j ≤ N) : GroupHeld ρ j g w :=
  h.imp fun _ hv => ⟨versions_mono ρ hij hj hv.1, hv.2⟩

/-! ## Snapshots -/

/-- A pass over snapshot `x`, which has read `w` and the volume. -/
structure SnapPass (i : ℕ) (k : Worker) (job : String) (log : PassLog) (x : String) (w : Snapshot)
    (vol : Volume) : Prop where
  task : k.task = .snapshot
  job : job = x
  view : snapView x log = some w
  held : SnapHeld ρ i x w
  ok : SnapOk Γ i x w
  volume : vol.name = Γ.volumeOf x
  spec : Γ.spec (Γ.volumeOf x) = some vol.spec

/-- Member `x` of a group as a pass has read it. -/
structure MemberOf (i : ℕ) (x : String) (m : GroupMember) : Prop where
  held : SnapHeld ρ i x m.snap
  ok : SnapOk Γ i x m.snap
  volume : m.vol.name = Γ.volumeOf x
  spec : Γ.spec (Γ.volumeOf x) = some m.vol.spec

/-- A pass over group `g`, which has read `w` and the members. -/
structure GroupPass (i : ℕ) (k : Worker) (job : String) (log : PassLog) (g : String)
    (w : SnapshotGroup) (ms : List GroupMember) : Prop where
  task : k.task = .group
  job : job = g
  view : groupView g log = some w
  held : GroupHeld ρ i g w
  ok : GroupOk Γ i g w
  members : List.Forall₂ (MemberOf ρ i) (Γ.namesOf g) ms

/-- What lands on snapshot `x`. -/
inductive SnapLanding (i : ℕ) (q : Request) (x : String) : Write → Prop
  | opens {w vol t} (h : SnapPass ρ i q.worker q.job q.log x w vol) (hr : InRound x q.log w vol)
      (hi : w.status.ioSuspended = false) :
      SnapLanding i q x (.applySnap x (snapshotStatusAC
        (openStatus q.worker.node vol.spec (stampOf t) w.status)))
  | voids {w vol t} (h : SnapPass ρ i q.worker q.job q.log x w vol) (hr : InRound x q.log w vol)
      (hl : w.status.ioSuspended = true) (hd : allDone vol.spec w.status = false) :
      SnapLanding i q x (.applySnap x (snapshotStatusAC
        (voidStatus q.worker.node vol.spec (stampOf t) w.status)))
  | publishes {w vol} (h : SnapPass ρ i q.worker q.job q.log x w vol) (hr : InRound x q.log w vol)
      (hl : w.status.ioSuspended = true) (hd : allDone vol.spec w.status = true) :
      SnapLanding i q x (.applySnap x (snapshotStatusAC (publishStatus vol w.status)))
  | single {w vol} (h : SnapPass ρ i q.worker q.job q.log x w vol)
      (hr : w.status.readyToUse = false) (hv : vol.spec.drbd = false) (hg : w.group = "") :
      SnapLanding i q x (.applySnap x (snapshotStatusAC
        (singleStatus q.worker.node vol w.status)))
  | member {g w ms m} (h : GroupPass ρ i q.worker q.job q.log g w ms)
      (hr : GroupInRound g q.log w ms) (hl : w.status.ioSuspended = true)
      (hd : allSlotsDone w.status ms = true) (hm : m ∈ ms) (hx : x ∈ Γ.namesOf g)
      (hmx : MemberOf ρ i x m) :
      SnapLanding i q x (.applySnap x (snapshotStatusAC (memberStatus m.vol)))
  | raises {w vol stamp} (h : SnapPass ρ i q.worker q.job q.log x w vol)
      (hr : InRound x q.log w vol) (hl : w.status.ioSuspended = true)
      (hs : w.status.suspendedAt = some stamp)
      (hv : diskfulOn vol q.worker.node = true)
      (ho : raised (w.status.perNode.lookup q.worker.node) = false) :
      SnapLanding i q x (.patchSlot x q.worker.node stamp .suspended)
  | cuts {w vol stamp pool l t₁ t₂} (h : SnapPass ρ i q.worker q.job q.log x w vol)
      (hc : CutPhase (Γ.agent q.worker.node) x l w vol pool)
      (hs : w.status.suspendedAt = some stamp)
      (hl : q.log = ⟨t₂, .snapshot pool vol.name x, .ok ()⟩ ::
        ⟨t₁, .deleteSnapshot pool vol.name x, .ok ()⟩ :: l) :
      SnapLanding i q x (.patchSlot x q.worker.node stamp .done)

variable {ρ} {q : Request} {x : String}

theorem LogTrue.snapPass (h₀ : Initial Γ s₀) (hi : i ≤ N) {k : Worker} {job : String}
    {log : PassLog} (hl : LogTrue ρ k job log i) (ht : k.task = .snapshot)
    {w : Snapshot} {vol : Volume} (hr : Reads job log w vol) :
    w.name = job ∧ SnapPass ρ i k job log job w vol := by
  obtain ⟨hok, hn, hs⟩ := hl.reads h₀ hi hr
  exact ⟨hok.name, ht, rfl, hr.snap_eq, hl.snapView hi hr.snap_eq, hok, hn, hs⟩

theorem LogTrue.groupPass (h₀ : Initial Γ s₀) (hi : i ≤ N) {k : Worker} {job : String}
    {log : PassLog} (hl : LogTrue ρ k job log i) (ht : k.task = .group)
    {w : SnapshotGroup} {ms : List GroupMember} (hr : GroupInRound job log w ms) :
    w.name = job ∧ GroupPass ρ i k job log job w ms := by
  have hheld := hl.groupView hi hr.view_eq
  obtain ⟨v, hv, hw⟩ := hheld
  have hok := groupOk ρ h₀ hi hv hw
  refine ⟨hok.name, ht, rfl, hr.view_eq, ⟨v, hv, hw⟩, hok, ?_⟩
  rw [← hok.snapshotNames]
  refine hr.members.imp fun y m hm => ?_
  obtain ⟨hok, hn, hs⟩ := hl.readMember h₀ hi hm
  exact ⟨hm.1.elim fun t ht => hl.cachedSnapshot hi ht, hok, hn, hs⟩

/-- What lands on a snapshot's status. -/
theorem snap_landing (h₀ : Initial Γ s₀) (hi : i ≤ N)
    (hq : (ρ.act i).landing (ρ.state i) = some q) {wr : Write} (hw : q.write = wr)
    (hx : (∃ c, wr = .applySnap x c) ∨ ∃ n stamp state, wr = .patchSlot x n stamp state) :
    SnapLanding ρ i q x wr := by
  obtain ⟨hg, hl⟩ := landing_spec ρ h₀ hi hq
  rw [hw] at hg
  rcases guard_write hg with ⟨ht, hg⟩ | ⟨ht, hg⟩
  · cases hg with
    | opens h hi' =>
      obtain ⟨hn, hp⟩ := hl.snapPass h₀ hi ht h.toReads
      obtain rfl : q.job = x := by simpa [hn] using hx
      rw [hn]
      exact .opens hp h hi'
    | voids h hl' hd =>
      obtain ⟨hn, hp⟩ := hl.snapPass h₀ hi ht h.toReads
      obtain rfl : q.job = x := by simpa [hn] using hx
      rw [hn]
      exact .voids hp h hl' hd
    | publishes h hl' hd =>
      obtain ⟨hn, hp⟩ := hl.snapPass h₀ hi ht h.toReads
      obtain rfl : q.job = x := by simpa [hn] using hx
      rw [hn]
      exact .publishes hp h hl' hd
    | single h hr hv hgrp =>
      obtain ⟨hn, hp⟩ := hl.snapPass h₀ hi ht h
      obtain rfl : q.job = x := by simpa [hn] using hx
      rw [hn]
      exact .single hp hr hv hgrp
    | raises h hl' hs hv ho =>
      obtain ⟨hn, hp⟩ := hl.snapPass h₀ hi ht h.toReads
      obtain rfl : q.job = x := by simpa [hn] using hx
      rw [hn]
      exact .raises hp h hl' hs hv ho
    | @cuts w vol stamp pool l t₁ t₂ h hs hlog =>
      have hf : Frame l q.log := by
        rw [hlog]
        exact (Grew.cons (Grew.cons (Frame.refl l) _ rfl) _ rfl)
      obtain ⟨hn, hp⟩ := hl.snapPass h₀ hi ht (h.toReads.frame hf)
      obtain rfl : q.job = x := by simpa [hn] using hx
      rw [hn] at hlog
      rw [hn]
      exact .cuts hp h hs hlog
    | finalizer h hd => simp at hx
  · cases hg with
    | publishes h hl' hd hm =>
      obtain ⟨hn, hp⟩ := hl.groupPass h₀ hi ht h
      obtain ⟨y, hy, hmy⟩ := exists_of_forall₂ hp.members hm
      obtain rfl : y = x := by simpa [hmy.ok.name] using hx
      rw [hmy.ok.name]
      exact .member hp h hl' hd hm hy hmy
    | _ => simp at hx

/-! ## Groups -/

variable (ρ) in
/-- What lands on group `g`. -/
inductive GroupLanding (i : ℕ) (q : Request) (g : String) : Write → Prop
  | opens {w ms disklessRaise t} (h : GroupPass ρ i q.worker q.job q.log g w ms)
      (hr : GroupInRound g q.log w ms) (hi : w.status.ioSuspended = false)
      (hd : disklessRaise ⊆ myActiveDisklessLegs w.status ms q.worker.node) :
      GroupLanding i q g (.applyGroup g (groupStatusAC (openGroupStatus q.worker.node ms
        (myLegs ms q.worker.node ++ disklessRaise) (stampOf t) w.status)))
  | voids {w ms t} (h : GroupPass ρ i q.worker q.job q.log g w ms) (hr : GroupInRound g q.log w ms)
      (hl : w.status.ioSuspended = true) (hd : allSlotsDone w.status ms = false) :
      GroupLanding i q g (.applyGroup g (groupStatusAC (voidGroupStatus q.worker.node ms
        (myLegs ms q.worker.node ++ myActiveDisklessLegs w.status ms q.worker.node)
        (stampOf t) w.status)))
  | seals {w ms} (h : GroupPass ρ i q.worker q.job q.log g w ms) (hr : GroupInRound g q.log w ms)
      (hl : w.status.ioSuspended = true) (hd : allSlotsDone w.status ms = true) :
      GroupLanding i q g (.applyGroup g (groupStatusAC (sealGroupStatus w.status)))
  | raises {w ms} (h : GroupPass ρ i q.worker q.job q.log g w ms) (hr : GroupInRound g q.log w ms)
      (hl : w.status.ioSuspended = true) (hu : Unraised (Γ.agent q.worker.node) w ms) :
      GroupLanding i q g (.mergeSlots g ((slotsOn q.worker.node (myLegs ms q.worker.node ++
        pendingDisklessLegs w.status (myActiveDisklessLegs w.status ms q.worker.node)
          q.worker.node)).map (·, .suspended)))
  | cuts {w ms} (h : GroupPass ρ i q.worker q.job q.log g w ms)
      (hr : GroupCutPhase (Γ.agent q.worker.node) g q.log w ms)
      (hc : ∀ m ∈ myLegs ms q.worker.node, HasCut (Γ.agent q.worker.node) g q.log w ms m) :
      GroupLanding i q g (.mergeSlots g
        ((slotsOn q.worker.node (myLegs ms q.worker.node)).map (·, .done)))

/-- What lands on a group's status. -/
theorem group_landing (h₀ : Initial Γ s₀) (hi : i ≤ N)
    (hq : (ρ.act i).landing (ρ.state i) = some q) {wr : Write} (hw : q.write = wr) {g : String}
    (hx : (∃ c, wr = .applyGroup g c) ∨ ∃ slots, wr = .mergeSlots g slots) :
    GroupLanding ρ i q g wr := by
  obtain ⟨hg, hl⟩ := landing_spec ρ h₀ hi hq
  rw [hw] at hg
  rcases guard_write hg with ⟨ht, hg⟩ | ⟨ht, hg⟩
  · cases hg <;> simp at hx
  · cases hg with
    | opens h hi' hd =>
      obtain ⟨hn, hp⟩ := hl.groupPass h₀ hi ht h
      obtain rfl : q.job = g := by simpa [hn] using hx
      rw [hn]
      exact .opens hp h hi' hd
    | voids h hl' hd =>
      obtain ⟨hn, hp⟩ := hl.groupPass h₀ hi ht h
      obtain rfl : q.job = g := by simpa [hn] using hx
      rw [hn]
      exact .voids hp h hl' hd
    | seals h hl' hd =>
      obtain ⟨hn, hp⟩ := hl.groupPass h₀ hi ht h
      obtain rfl : q.job = g := by simpa [hn] using hx
      rw [hn]
      exact .seals hp h hl' hd
    | raises h hl' hu =>
      obtain ⟨hn, hp⟩ := hl.groupPass h₀ hi ht h
      obtain rfl : q.job = g := by simpa [hn] using hx
      rw [hn]
      exact .raises hp h hl' hu
    | cuts h hc =>
      obtain ⟨hn, hp⟩ := hl.groupPass h₀ hi ht h.toGroupInRound
      obtain rfl : q.job = g := by simpa [hn] using hx
      rw [hn]
      exact .cuts hp h hc
    | publishes | finalizer => simp at hx

/-! ## Commands on legs -/

variable (ρ) in
/-- Why a pass deletes or cuts the leg of snapshot `x` in `pool`. -/
inductive LegAsked (i : ℕ) (k : Worker) (job : String) (log : PassLog) (x pool : String) : Prop
  | deleted {w vol} (h : SnapPass ρ i k job log x w vol) (hd : w.deleting = true)
  | single {w vol} (h : SnapPass ρ i k job log x w vol) (hv : vol.spec.drbd = false)
  | cuts {w vol} (h : SnapPass ρ i k job log x w vol)
      (hc : CutPhase (Γ.agent k.node) x log w vol pool)
  | group {g w ms m} (h : GroupPass ρ i k job log g w ms)
      (hc : GroupCutPhase (Γ.agent k.node) g log w ms) (hm : m ∈ myLegs ms k.node)
      (hx : x ∈ Γ.namesOf g) (hmx : MemberOf ρ i x m)
      (hb : backendFor (Γ.agent k.node) m.vol = .ok pool)

theorem leg_asked (h₀ : Initial Γ s₀) (hi : i ≤ N) {q : Asked}
    (hq : (ρ.act i).command (ρ.state i) = some q) {pool v : String}
    (hx : q.cmd = .deleteSnapshot pool v x ∨ q.cmd = .snapshot pool v x) :
    LegAsked ρ i q.worker q.job q.log x pool := by
  obtain ⟨k, job, log, cmd⟩ := q
  obtain ⟨hg, hl⟩ := asked_spec ρ h₀ hi hq
  rcases guard_cases hg with ⟨ht, hg⟩ | ⟨ht, hg⟩ | ⟨-, hg⟩
  · have hpass : ∀ {w vol}, Reads job log w vol → x = w.name → SnapPass ρ i k job log x w vol := by
      intro w vol hr hw
      obtain ⟨hn, hp⟩ := hl.snapPass h₀ hi ht hr
      rwa [hw, hn]
    have hcuts : ∀ {w vol}, CutPhase (Γ.agent k.node) job log w vol pool → x = w.name →
        LegAsked ρ i k job log x pool := by
      intro w vol hc hw
      have hp := hpass hc.toReads hw
      exact .cuts hp (hp.job ▸ hc)
    rcases hx with rfl | rfl
    · obtain ⟨w, vol, -, hw, ⟨hr, hd⟩ | hc⟩ := hg
      · exact .deleted (hpass hr hw) hd
      · exact hcuts hc hw
    · obtain ⟨w, vol, -, hw, ⟨hr, hv⟩ | ⟨t, l, rfl, hc⟩⟩ := hg
      · exact .single (hpass hr hw) hv.1
      · exact hcuts (hc.frame (Grew.cons (Frame.refl l) _ rfl)) hw
  · have hgroup : ∀ {w ms m}, GroupCutPhase (Γ.agent k.node) job log w ms → m ∈ myLegs ms k.node →
        x = m.snap.name → backendFor (Γ.agent k.node) m.vol = .ok pool →
        LegAsked ρ i k job log x pool := by
      intro w ms m hc hm hw hb
      obtain ⟨-, hp⟩ := hl.groupPass h₀ hi ht hc.toGroupInRound
      obtain ⟨y, hy, hmy⟩ := exists_of_forall₂ hp.members (List.mem_filter.mp hm).1
      obtain rfl : y = x := by rw [hw, hmy.ok.name]
      exact .group hp hc hm hy hmy hb
    rcases hx with rfl | rfl
    · obtain ⟨w, ms, m, hc, hm, -, hw, hb⟩ := hg
      exact hgroup hc hm hw hb
    · obtain ⟨t, l, rfl, w, ms, m, hc, hm, -, hw, hb⟩ := hg
      exact hgroup (hc.frame (Grew.cons (Frame.refl l) _ rfl)) hm hw hb
  · rcases hx with rfl | rfl <;> exact hg.elim

end Miroir
