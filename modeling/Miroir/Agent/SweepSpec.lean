import Miroir.Agent.Log
import Miroir.Agent.Sweep

/-!
# What a sweep does

`sweepGuard` says when the sweep resumes a volume: the lists it read hold no live round over the
volume that a clock reading of the sweep found within the deadline. `Accounted` says the converse
of a finished sweep whose reads succeeded: every volume the kernel reported suspended is covered by
such a round, or was resumed. `resumeStaleBarriers_obeys` proves both of the program.
-/

namespace Miroir

open Process Prog

variable {l l' : PassLog}

variable {cover cover' : String → Option Stamp → Prop} {fresh vols : List String}
  {snaps : List Snapshot} {live : Bool} {stamp : Option Stamp}

/-- A clock reading of the sweep found the stamp within the deadline. -/
def ReadWithin (log : PassLog) (stamp : Option Stamp) : Prop :=
  ∃ τ t, (⟨τ, .now, t⟩ : Entry Nat Ans) ∈ log ∧ withinDeadline t stamp = true

/-- A clock reading of the sweep found the stamp past the deadline. -/
def ReadPast (log : PassLog) (stamp : Option Stamp) : Prop :=
  ∃ τ t, (⟨τ, .now, t⟩ : Entry Nat Ans) ∈ log ∧ withinDeadline t stamp = false

/-- A listed standalone round covers volume `v`. -/
def SnapCovers (snaps : List Snapshot) (v : String) (stamp : Option Stamp) : Prop :=
  ∃ s ∈ snaps, s.status.ioSuspended = true ∧ s.status.suspendedAt = stamp ∧ s.volumeName = v

/-- A listed group round covers volume `v`. -/
def GroupCovers (snaps : List Snapshot) (groups : List SnapshotGroup) (v : String)
    (stamp : Option Stamp) : Prop :=
  ∃ g ∈ groups, g.status.ioSuspended = true ∧ g.status.suspendedAt = stamp ∧
    v ∈ groupVolumes snaps g

/-- Some listed round covers volume `v`. -/
def Covers (snaps : List Snapshot) (groups : List SnapshotGroup) (v : String)
    (stamp : Option Stamp) : Prop :=
  SnapCovers snaps v stamp ∨ GroupCovers snaps groups v stamp

/-- The lists the sweep decides on: the snapshots first, then the groups. -/
def Lists (log : PassLog) (snaps : List Snapshot) (groups : List SnapshotGroup) : Prop :=
  ∃ new mid old t₁ t₂, log = new ++ ⟨t₂, .listGroups, .ok groups⟩ ::
    (mid ++ ⟨t₁, .listSnapshots, .ok snaps⟩ :: old)

/-- The specification of a sweep: it resumes a volume only if every listed round over it that
carries a stamp was read past the deadline. -/
def sweepGuard (log : PassLog) : Cmd → Prop
  | .resumeIo v => ∃ snaps groups, Lists log snaps groups ∧
      ∀ stamp, Covers snaps groups v (some stamp) → ReadPast log (some stamp)
  | .deleteSnapshot _ _ _ | .snapshot _ _ _ | .write _ => False
  | _ => True

/-- A read the sweep needs that failed. -/
def failedRead : Entry Nat Ans → Bool
  | ⟨_, .listSnapshots, .error _⟩ | ⟨_, .listGroups, .error _⟩
  | ⟨_, .userSuspended, .error _⟩ => true
  | _ => false

/-- A read of the sweep failed, or it has read the kernel, and every volume that reported suspended
is covered by a listed round read within the deadline, or has been resumed since. -/
def Accounted (log : PassLog) : Prop :=
  (∃ e ∈ log, failedRead e = true) ∨
    ∃ t sus snaps groups, (⟨t, .userSuspended, .ok sus⟩ : Entry Nat Ans) ∈ log ∧
      Lists log snaps groups ∧ ∀ v ∈ sus,
        (∃ stamp, Covers snaps groups v stamp ∧ ReadWithin log stamp) ∨
          ∃ t' r, (⟨t', .resumeIo v, r⟩ : Entry Nat Ans) ∈ log

theorem ReadPast.mono (h : ReadPast l stamp) (hs : ∀ e ∈ l, e ∈ l') : ReadPast l' stamp := by
  obtain ⟨τ, t, hm, ht⟩ := h
  exact ⟨τ, t, hs _ hm, ht⟩

theorem ReadWithin.mono (h : ReadWithin l stamp) (hs : ∀ e ∈ l, e ∈ l') : ReadWithin l' stamp := by
  obtain ⟨τ, t, hm, ht⟩ := h
  exact ⟨τ, t, hs _ hm, ht⟩

/-- What the two loops over the lists compute, `cover v stamp` saying that an item seen so far
covers `v`: a fresh volume has a covering item read within the deadline, and a volume that is
not fresh has none that was not read past it. -/
def FreshSpec (cover : String → Option Stamp → Prop) (log : PassLog) (fresh : List String) : Prop :=
  (∀ v ∈ fresh, ∃ stamp, cover v stamp ∧ ReadWithin log stamp) ∧
    ∀ v ∉ fresh, ∀ stamp, cover v (some stamp) → ReadPast log (some stamp)

theorem FreshSpec.mono
    (h : FreshSpec cover l fresh) (hs : ∀ e ∈ l, e ∈ l') : FreshSpec cover l' fresh :=
  ⟨fun v hv => (h.1 v hv).imp fun _ hc => ⟨hc.1, hc.2.mono hs⟩,
    fun v hv stamp hc => (h.2 v hv stamp hc).mono hs⟩

theorem FreshSpec.cons
    (h : FreshSpec cover l fresh) (e : Entry Nat Ans) : FreshSpec cover (e :: l) fresh :=
  h.mono fun _ => .tail _

/-- An item that is live and stamped: its volumes `vols` join the fresh ones if the clock reads
within the deadline of its stamp. -/
theorem FreshSpec.item (h : FreshSpec cover l fresh)
    (hcov : ∀ v st, cover' v st ↔ cover v st ∨ live ∧ stamp = st ∧ v ∈ vols)
    (hlive : (live && stamp.isSome)) (τ t : Nat) :
    FreshSpec cover' (⟨τ, .now, t⟩ :: l)
      (if withinDeadline t stamp then vols ++ fresh else fresh) := by
  have h := h.cons ⟨τ, .now, t⟩
  have hlive := (Bool.and_eq_true_iff.mp hlive).1
  cases hw : withinDeadline t stamp with
  | true =>
    simp only [if_true]
    refine ⟨fun v hv => ?_, fun v hv st hc => ?_⟩
    · rcases List.mem_append.mp hv with hv | hv
      · exact ⟨stamp, (hcov v _).mpr (.inr ⟨hlive, rfl, hv⟩), τ, t, .head _, hw⟩
      · exact (h.1 v hv).imp fun st hc => ⟨(hcov v st).mpr (.inl hc.1), hc.2⟩
    · rw [List.mem_append, not_or] at hv
      rcases (hcov v _).mp hc with hc | ⟨-, -, hc⟩
      exacts [h.2 v hv.2 st hc, absurd hc hv.1]
  | false =>
    simp only [Bool.false_eq_true, if_false]
    refine ⟨fun v hv => (h.1 v hv).imp fun st hc => ⟨(hcov v st).mpr (.inl hc.1), hc.2⟩,
      fun v hv st hc => ?_⟩
    rcases (hcov v _).mp hc with hc | ⟨-, hst, -⟩
    exacts [h.2 v hv st hc, ⟨τ, t, .head _, by rw [← hst, hw]⟩]

/-- An item that is not live, or has no stamp, is passed over. -/
theorem FreshSpec.skip (h : FreshSpec cover l fresh)
    (hcov : ∀ v st, cover' v st ↔ cover v st ∨ live ∧ stamp = st ∧ v ∈ vols)
    (hlive : ¬ (live && stamp.isSome)) : FreshSpec cover' l fresh := by
  refine ⟨fun v hv => (h.1 v hv).imp fun st hc => ⟨(hcov v st).mpr (.inl hc.1), hc.2⟩,
    fun v hv st hst => ?_⟩
  rcases (hcov v _).mp hst with hst | ⟨hl, hs, -⟩
  · exact h.2 v hv st hst
  · simp [hl, hs] at hlive

theorem freshSnapshots_obeys {seen : List Snapshot} (items : List Snapshot)
    (h : FreshSpec (SnapCovers seen) l fresh) :
    Obeys sweepGuard (fun l' r => Frame l l' ∧ FreshSpec (SnapCovers (seen ++ items)) l' r) l
      (freshSnapshots fresh items) := by
  induction items generalizing l seen fresh with
  | nil => exact ⟨Grew.refl l, by simpa using h⟩
  | cons s items ih =>
    have hcov : ∀ v st, SnapCovers (seen ++ [s]) v st ↔ SnapCovers seen v st ∨
        s.status.ioSuspended ∧ s.status.suspendedAt = st ∧ v ∈ [s.volumeName] := by
      intro v st
      simp [SnapCovers, or_and_right, exists_or, eq_comm (a := v)]
    rw [List.append_cons]
    unfold freshSnapshots
    split
    · rename_i hc
      refine (Frame.refl l).call rfl trivial fun τ t hf => ?_
      exact (ih (h.item hcov hc τ t)).mono fun l' r hr => ⟨hf.trans hr.1, hr.2⟩
    · rename_i hc
      exact ih (h.skip hcov hc)

theorem freshGroups_obeys {seen : List SnapshotGroup} (items : List SnapshotGroup)
    (h : FreshSpec (Covers snaps seen) l fresh) :
    Obeys sweepGuard (fun l' r => Frame l l' ∧ FreshSpec (Covers snaps (seen ++ items)) l' r) l
      (freshGroups snaps fresh items) := by
  induction items generalizing l seen fresh with
  | nil => exact ⟨Grew.refl l, by simpa using h⟩
  | cons g items ih =>
    have hcov : ∀ v st, Covers snaps (seen ++ [g]) v st ↔ Covers snaps seen v st ∨
        g.status.ioSuspended ∧ g.status.suspendedAt = st ∧ v ∈ groupVolumes snaps g := by
      intro v st
      simp [Covers, GroupCovers, or_and_right, exists_or, or_assoc]
    rw [List.append_cons]
    unfold freshGroups
    split
    · rename_i hc
      refine (Frame.refl l).call rfl trivial fun τ t hf => ?_
      exact (ih (h.item hcov hc τ t)).mono fun l' r hr => ⟨hf.trans hr.1, hr.2⟩
    · rename_i hc
      exact ih (h.skip hcov hc)

theorem Lists.suffix {groups : List SnapshotGroup} (h : Lists l snaps groups) (hs : l <:+ l') :
    Lists l' snaps groups := by
  obtain ⟨new, mid, old, t₁, t₂, rfl⟩ := h
  obtain ⟨new', rfl⟩ := hs
  exact ⟨new' ++ new, mid, old, t₁, t₂, by simp⟩

theorem resumeStale_obeys {groups : List SnapshotGroup}
    (hl : Lists l snaps groups) (h : FreshSpec (Covers snaps groups) l fresh)
    (suspended : List String) :
    Obeys sweepGuard (fun l' _ => Frame l l' ∧ ∀ v ∈ suspended, v ∉ fresh →
      ∃ t r, (⟨t, .resumeIo v, r⟩ : Entry Nat Ans) ∈ l') l (resumeStale fresh suspended) := by
  induction suspended generalizing l with
  | nil => exact ⟨Frame.refl l, by simp⟩
  | cons v suspended ih =>
    unfold resumeStale
    split
    · rename_i hv
      refine (ih hl h).mono fun l' _ hr => ⟨hr.1, fun u hu hf => ?_⟩
      rcases List.mem_cons.mp hu with rfl | hu
      exacts [absurd hv hf, hr.2 u hu hf]
    · rename_i hv
      refine (Frame.refl l).call rfl ⟨snaps, groups, hl, h.2 v hv⟩ fun t r hf => ?_
      refine (ih (hl.suffix hf.suffix) (h.cons _)).mono
        fun l' _ hr => ⟨hf.trans hr.1, fun u hu hu' => ?_⟩
      rcases List.mem_cons.mp hu with rfl | hu
      exacts [⟨t, r, hr.1.mem (.head _)⟩, hr.2 u hu hu']

theorem thawStale_obeys (a : Agent) (vols : List Volume) (stale : List String) :
    Obeys sweepGuard (fun l' _ => Frame l l') l (thawStale a vols stale) := by
  induction stale generalizing l with
  | nil => exact Frame.refl l
  | cons v stale ih =>
    unfold thawStale
    dsimp only
    split
    · exact (Frame.refl l).call rfl trivial fun t r hf => ih.grew hf
    · exact ih

/-- A sweep does what `sweepGuard` says, and when it returns the suspended resources are accounted
for. -/
theorem resumeStaleBarriers_obeys (a : Agent) :
    Obeys sweepGuard (fun l _ => Accounted l) [] (resumeStaleBarriers a) := by
  refine obeys_call_bind trivial fun t₁ r₁ => ?_
  rcases r₁ with e | snaps
  · exact .inl ⟨_, .head _, rfl⟩
  have h₀ : FreshSpec (SnapCovers []) [⟨t₁, .listSnapshots, .ok snaps⟩] [] := by
    simp [FreshSpec, SnapCovers]
  refine (freshSnapshots_obeys snaps h₀).bind fun l₁ fresh ⟨hf₁, h₁⟩ => ?_
  refine obeys_call_bind trivial fun t₂ r₂ => ?_
  rcases r₂ with e | groups
  · exact .inl ⟨_, .head _, rfl⟩
  have h₂ : FreshSpec (Covers snaps []) (⟨t₂, .listGroups, .ok groups⟩ :: l₁) fresh := by
    simpa [FreshSpec, Covers, GroupCovers] using h₁.cons ⟨t₂, .listGroups, .ok groups⟩
  refine (freshGroups_obeys groups h₂).bind fun l₂ fresh ⟨hf₂, h₂⟩ => ?_
  have hl : Lists l₂ snaps groups := by
    obtain ⟨mid, rfl, -⟩ := hf₁
    obtain ⟨new, rfl, -⟩ := hf₂
    exact ⟨new, mid, [], t₁, t₂, rfl⟩
  refine obeys_call_bind trivial fun t₃ r₃ => ?_
  rcases r₃ with e | suspended
  · exact .inl ⟨_, .head _, rfl⟩
  have h₃ := h₂.cons ⟨t₃, .userSuspended, .ok suspended⟩
  have hl₃ := hl.suffix (List.suffix_cons ⟨t₃, .userSuspended, .ok suspended⟩ l₂)
  refine (resumeStale_obeys hl₃ h₃ suspended).bind fun l₄ _ ⟨hf₄, h₄⟩ => ?_
  have hacc : ∀ {l'}, Frame l₄ l' → Accounted l' := by
    intro l' hf'
    have hf := hf₄.trans hf'
    refine .inr ⟨t₃, suspended, snaps, groups, hf.mem (.head _), hl₃.suffix hf.suffix,
      fun v hv => ?_⟩
    by_cases hfr : v ∈ fresh
    · obtain ⟨stamp, hc, hr⟩ := h₃.1 v hfr
      exact .inl ⟨stamp, hc, hr.mono fun _ => hf.mem⟩
    · obtain ⟨t', r, hm⟩ := h₄ v hv hfr
      exact .inr ⟨t', r, hf'.mem hm⟩
  dsimp only
  split
  · exact hacc (Frame.refl _)
  refine (Frame.refl l₄).call rfl trivial fun t₅ r₅ hf₅ => ?_
  rcases r₅ with e | vols
  · exact hacc hf₅
  · exact (thawStale_obeys a vols _).bind fun l₆ _ hf₆ => hacc (hf₅.trans hf₆)

end Miroir
