import Miroir.Volume.Changes

/-!
# What holds at every moment of a run

Facts that need no condition on the run (`inv_of_run`): every pass still keeps to its guard
(`PassOk`), the spec a pass works from is the volume's own with a size it has had (`Reads`), every
snapshot leg was cut from a volume that is still known, with no more exposed than DRBD had usable
(`SnapOk`), and a restored volume's source is known (`SourceOk`). Runs start with no volume at all.
-/

namespace Miroir.Vol

open Process Prog

variable {Γ : Config} {s s' : State} {a : Action} {n v : String} {N : ℕ}

/-! ## Passes -/

variable {σ : Storage} {sl : SnapLeg}

/-- Every pass keeps to the guard from where it is. -/
def PassOk (s : State) : Prop :=
  ∀ n v p, s.pass n v = some p → Obeys (volGuard n) (fun _ _ => True) p.log p.prog

theorem PassOk.step (h : PassOk s) (hs : Stepped Γ s a s') : PassOk s' := by
  intro n v p hp
  have hc := hs.pass n v
  rw [hp] at hc
  generalize hq : s.pass n v = q at hc
  cases hc with
  | kept => exact h n v p hq
  | started =>
    exact ((VolumeReconciler.obeys_pass (Γ.agent n)).weaken fun _ _ => And.left).mono
      fun _ _ _ => trivial
  | answered => exact (h n v _ hq).2 _ _

/-- The spec with another size. -/
def sized (spec : VolumeSpec) (size : Nat) : VolumeSpec := { spec with sizeBytes := size }

/-- The volume with every part of its spec but the size fixed, and no size forgotten. -/
structure VolObject.Later (o o' : VolObject) : Prop where
  spec : ∀ z, sized o'.spec z = sized o.spec z
  sizes : o.sizes ⊆ o'.sizes
  activated : o.activated = true → o'.activated = true
  lost : o.lost ⊆ o'.lost

section Later

variable {o o' : VolObject}

theorem VolObject.Later.drbd (h : o.Later o') : o'.spec.drbd = o.spec.drbd := by
  simpa [sized] using congrArg VolumeSpec.drbd (h.spec 0)

theorem VolObject.Later.source (h : o.Later o') : o'.spec.source = o.spec.source := by
  simpa [sized] using congrArg VolumeSpec.source (h.spec 0)

theorem VolObject.Later.fullSyncOn (h : o.Later o') (n : String) :
    o'.spec.fullSyncOn n = o.spec.fullSyncOn n :=
  congrArg (fun spec => spec.fullSyncOn n) (h.spec 0)

end Later

theorem VolChange.later {o : VolObject} {q : Option VolObject}
    (h : VolChange s a v (some o) q) : ∃ o', q = some o' ∧ o.Later o' := by
  cases h with
  | kept => exact ⟨o, rfl, fun _ => rfl, fun _ => id, id, fun _ => id⟩
  | grown h => exact ⟨_, rfl, fun _ => rfl, List.subset_cons_self .., id, fun _ => id⟩
  | activated => exact ⟨_, rfl, fun _ => rfl, fun _ => id, fun _ => rfl, fun _ => id⟩
  | lost ha => exact ⟨_, rfl, fun _ => rfl, fun _ => id, id, List.subset_cons_self ..⟩

/-- The pass's spec is the volume's own with a size it has had. -/
def Reads (s : State) : Prop :=
  ∀ n v p spec, s.pass n v = some p → specView p.log = some spec →
    ∃ o, s.vols v = some o ∧ ∃ z ∈ o.sizes, spec = sized o.spec z

/-- What a read of the volume answers. -/
theorem volume_of_answer {o : Outcome} {vol : Volume} {s₁ : State}
    (h : answer Γ s n v .volume o = some (.ok (some vol), s₁)) :
    ∃ obj, s.vols v = some obj ∧ ∃ z ∈ obj.sizes, vol.spec = sized obj.spec z := by
  cases o
  case volume size st =>
    simp only [answer] at h
    split at h
    · rename_i obj hobj
      split at h
      · rename_i hz
        cases h
        exact ⟨obj, hobj, size, hz, rfl⟩
      · contradiction
    · contradiction
  case fail e applied => cases applied <;> cases h
  all_goals cases h

/-- A pass that is answered either reads the volume or keeps its spec. -/
theorem specView_answered {c : VolCmd} {r : VolAns c} {t : Nat} {log : VolLog} {spec : VolumeSpec}
    (h : specView (⟨t, c, r⟩ :: log) = some spec) :
    (∃ (hc : c = .volume) (vol : Volume), hc ▸ r = .ok (some vol) ∧ vol.spec = spec) ∨
      specView log = some spec := by
  by_cases hc : c = .volume
  · subst hc
    rcases r with e | _ | vol
    · exact .inr h
    · exact .inr h
    · exact .inl ⟨rfl, vol, rfl, Option.some.inj h⟩
  · exact .inr (by rwa [specView_cons hc] at h)

theorem Reads.step (h : Reads s) (hs : Stepped Γ s a s') : Reads s' := by
  intro n v p spec hp hspec
  suffices hold : ∃ o, s.vols v = some o ∧ ∃ z ∈ o.sizes, spec = sized o.spec z by
    obtain ⟨o, ho, z, hz, rfl⟩ := hold
    have hv := hs.vol v
    rw [ho] at hv
    obtain ⟨o', ho', hle⟩ := hv.later
    exact ⟨o', ho', z, hle.sizes hz, (hle.spec z).symm⟩
  have hc := hs.pass n v
  rw [hp] at hc
  generalize hq : s.pass n v = q at hc
  cases hc with
  | kept => exact h n v p spec hq hspec
  | started => cases hspec
  | @answered log c k o r hr =>
    obtain ⟨r, s₁⟩ := r
    rcases specView_answered hspec with ⟨hc, vol, hvol, rfl⟩ | hspec
    · subst hc
      cases hvol
      exact volume_of_answer hr
    · exact h n v _ spec hq hspec

/-! ## Snapshots -/

/-- A leg exposes what its source did: all of an unreplicated backing, of a replicated one no more
than was usable. -/
def SnapLeg.Sound (σ : Storage) (sl : SnapLeg) : Prop :=
  if sl.replicated then sl.exposed ≤ σ.usable sl.bytes else sl.exposed = sl.bytes

theorem cutLeg_sound {drbd : Bool} {exposed : Nat} {b : Backing}
    (h : cutLeg σ drbd exposed b = some sl) : sl.replicated = drbd ∧ sl.Sound σ := by
  unfold cutLeg at h
  split at h
  · split at h
    · cases h
      simp_all [SnapLeg.Sound]
    · contradiction
  · cases h
    simp_all [SnapLeg.Sound]

theorem mem_cutLegs {spec : VolumeSpec} {exposed : Nat}
    (h : (n, sl) ∈ s.cutLegs σ v spec exposed) :
    sl.replicated = spec.drbd ∧ sl.Sound σ := by
  obtain ⟨n', -, h⟩ := List.mem_filterMap.mp h
  obtain ⟨sl', hsl, he⟩ := Option.map_eq_some_iff.mp h
  cases he
  obtain ⟨b, -, hb⟩ := Option.bind_eq_some_iff.mp hsl
  exact cutLeg_sound hb

/-- The legs of a snapshot are sound and as replicated as its volume. -/
def SnapOk (Γ : Config) (s : State) : Prop :=
  ∀ x so, s.snaps x = some so → ∃ o, s.vols so.volumeName = some o ∧
    ∀ n sl, (n, sl) ∈ so.legs → sl.replicated = o.spec.drbd ∧ sl.Sound Γ.storage

theorem SnapObject.mem_of_dropLeg {o : SnapObject} {m : String} {e : String × SnapLeg}
    (h : e ∈ (o.dropLeg m).legs) : e ∈ o.legs := (List.mem_filter.mp h).1

theorem SnapObject.mem_of_leg {o : SnapObject} (h : o.leg n = some sl) :
    (n, sl) ∈ o.legs := by
  unfold SnapObject.leg at h
  induction hl : o.legs generalizing o with
  | nil => simp [hl] at h
  | cons e l ih =>
    rw [hl] at h
    obtain ⟨m, sl'⟩ := e
    by_cases hm : n == m
    · rw [List.lookup_cons, hm] at h
      cases h
      exact List.mem_cons.mpr (.inl (by rw [beq_iff_eq.mp hm]))
    · rw [List.lookup_cons, Bool.not_eq_true _ |>.mp hm] at h
      exact .tail _ (ih (o := { o with legs := l }) h rfl)

theorem SnapOk.step (h : SnapOk Γ s) (hs : Stepped Γ s a s') : SnapOk Γ s' := by
  intro x so hso
  suffices hold : ∃ o, s.vols so.volumeName = some o ∧
      ∀ n sl, (n, sl) ∈ so.legs → sl.replicated = o.spec.drbd ∧ sl.Sound Γ.storage by
    obtain ⟨o, ho, hlegs⟩ := hold
    have hv := hs.vol so.volumeName
    rw [ho] at hv
    obtain ⟨o', ho', hle⟩ := hv.later
    exact ⟨o', ho', fun n sl hsl => hle.drbd ▸ hlegs n sl hsl⟩
  have hc := hs.snap x
  rw [hso] at hc
  generalize hq : s.snaps x = q at hc
  cases hc with
  | kept => exact h x so hq
  | cut ho => exact ⟨_, ho, fun n sl hsl => mem_cutLegs hsl⟩
  | legGone m =>
    obtain ⟨o, ho, hlegs⟩ := h x _ hq
    exact ⟨o, ho, fun n sl hsl => hlegs n sl (SnapObject.mem_of_dropLeg hsl)⟩
  | gone =>
    obtain ⟨o, ho, hlegs⟩ := h x _ hq
    exact ⟨o, ho, hlegs⟩

/-! ## Sources -/

/-- What a request for a restore was granted on. -/
theorem source_of_request {req : CreateRequest} {src : VolumeSource}
    (h : s.sourceOf req = some (some src)) :
    ∃ x so o, req.snapID = some x ∧ s.snaps x = some so ∧ s.vols so.volumeName = some o ∧
      src.snapshotName = x ∧
      src.padForMetadata = (req.replicas > 1 &&
        (!o.spec.drbd || o.spec.source.any VolumeSource.padForMetadata)) := by
  unfold State.sourceOf at h
  split at h
  · cases h
  rename_i x hx
  split at h
  · cases h
  rename_i so hso
  split at h
  swap
  · cases h
  split at h
  · cases h
  rename_i o ho
  refine ⟨x, so, o, hx, hso, ho, ?_⟩
  unfold resolveSource at h
  split at h
  · cases h
  split at h
  · cases h
  · cases h
    exact ⟨rfl, rfl⟩

/-- A snapshot stays, and its legs only go. -/
theorem SnapChange.kept_legs {so : SnapObject} {q : Option SnapObject}
    (h : SnapChange σ s (some so) q) : ∃ so', q = some so' ∧ so'.legs ⊆ so.legs := by
  cases h with
  | kept => exact ⟨so, rfl, fun _ => id⟩
  | legGone m => exact ⟨_, rfl, fun _ => SnapObject.mem_of_dropLeg⟩
  | gone => exact ⟨_, rfl, fun _ => id⟩

/-- The source snapshot of every restored volume is known. -/
def SourceOk (s : State) : Prop :=
  ∀ v o src, s.vols v = some o → o.spec.source = some src → ∃ so, s.snaps src.snapshotName = some so

/-- A volume's source snapshot was there before the step that the volume is there after, with all
the legs it has left. -/
theorem SourceOk.before (h : SourceOk s) (hs : Stepped Γ s a s') {o : VolObject}
    {src : VolumeSource} (ho : s'.vols v = some o) (hsrc : o.spec.source = some src) :
    ∃ so so', s.snaps src.snapshotName = some so ∧ s'.snaps src.snapshotName = some so' ∧
      so'.legs ⊆ so.legs := by
  suffices hold : ∃ so, s.snaps src.snapshotName = some so by
    obtain ⟨so, hso⟩ := hold
    have hc := hs.snap src.snapshotName
    rw [hso] at hc
    obtain ⟨so', hso', hsub⟩ := hc.kept_legs
    exact ⟨so, so', hso, hso', hsub⟩
  have hc := hs.vol v
  rw [ho] at hc
  cases hq : s.vols v with
  | some o₀ =>
    rw [hq] at hc
    obtain ⟨_, ho', hle⟩ := hc.later
    cases ho'
    exact h v o₀ src hq (hle.source.symm.trans hsrc)
  | none =>
    rw [hq] at hc
    cases hc with
    | created _ hreq =>
      obtain rfl : _ = some src := hsrc
      obtain ⟨x, so, _, -, hso, -, rfl, -⟩ := source_of_request hreq
      exact ⟨so, hso⟩

theorem SourceOk.step (h : SourceOk s) (hs : Stepped Γ s a s') : SourceOk s' := by
  intro v o src ho hsrc
  obtain ⟨_, so', -, hso', -⟩ := h.before hs ho hsrc
  exact ⟨so', hso'⟩

/-! ## Clones -/

/-- The snapshot a pass clones is its volume's source, on a leg that is no joiner. -/
theorem source_of_clones (hok : PassOk s) (hr : Reads s) {x : String} (h : Clones s a n v x) :
    ∃ o src, s.vols v = some o ∧ o.spec.source = some src ∧ src.snapshotName = x ∧
      o.spec.fullSyncOn n = false := by
  obtain ⟨_, log, source, k, -, hp⟩ := h
  obtain ⟨spec, src, hspec, hsrc, hx, hf⟩ := (hok n v _ hp).1
  obtain ⟨o, ho, z, -, rfl⟩ := hr n v _ spec hp hspec
  exact ⟨o, src, ho, hsrc, hx, hf⟩

/-- A backing after a step is a new clone, or one that was there before and was no larger. -/
theorem LegChange.clone_cases {X : String → Prop} {l : Option Backing} {b : Backing}
    (h : LegChange s n v X l (some b)) (ho : b.origin = .clone sl) :
    (∃ x so, X x ∧ s.snaps x = some so ∧ so.leg n = some sl ∧ b.bytes = sl.bytes) ∨
      ∃ b₀, l = some b₀ ∧ b₀.origin = .clone sl ∧ b₀.bytes ≤ b.bytes := by
  cases h with
  | created => cases ho
  | cloned hx hso hsl =>
    cases ho
    exact .inl ⟨_, _, hx, hso, hsl, rfl⟩
  | grown h => exact .inr ⟨_, rfl, ho, h⟩
  | kept | wrote | attached | moved | detached => exact .inr ⟨_, rfl, ho, Nat.le_refl _⟩

/-! ## Runs -/

/-- What holds at every moment of a run, whatever its steps. -/
structure Inv (Γ : Config) (s : State) : Prop where
  pass : PassOk s
  reads : Reads s
  snap : SnapOk Γ s
  source : SourceOk s

theorem Inv.step (h : Inv Γ s) (hs : Stepped Γ s a s') : Inv Γ s' where
  pass := h.pass.step hs
  reads := h.reads.step hs
  snap := h.snap.step hs
  source := h.source.step hs

theorem Inv.init : Inv Γ {} where
  pass _ _ _ h := by cases h
  reads _ _ _ _ h := by cases h
  snap _ _ h := by cases h
  source _ _ _ h := by cases h

end Miroir.Vol
