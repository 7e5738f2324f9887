import Miroir.Volume.History

/-!
# Metadata lands behind the filesystem

`create-md` writes at the end of a backing. On a clone that end must lie beyond what the source
exposed to its filesystem when the snapshot was cut. For a replicated source it always does: the
source's own metadata needed the same room. For an unreplicated source the padding provides it, as
long as the backing is no larger than the size the restore asks for (`metadata_behind_filesystem`).

A backing can be larger than its volume's size: an unreplicated volume cloned from a padded one
keeps the padding and grows its filesystem into it. Restored once more into a replicated volume, the
padding is computed from the nominal size, the resize does nothing, and `create-md` overwrites the
filesystem's tail (`padding_spent`).
-/

namespace Miroir.Vol

open Process Prog

variable {Γ : Config} {s s' : State} {a : Action} {n v : String} {N : ℕ}

/-- If `create-md` runs on a clone in this step, the bytes in front of the metadata hold what the
source exposed. -/
def TailClear (Γ : Config) (s : State) (a : Action) : Prop :=
  ∀ n v b sl, a.command s = some (n, v, .createMd) → s.legs n v = some b →
    b.origin = .clone sl → sl.exposed ≤ Γ.storage.usable b.bytes

/-- A replicated volume restored from an unreplicated one is asked to be at least as large as the
backings the snapshot was cut from. -/
def restoresWithin (s : State) : Action → Bool
  | .createVolume _ req =>
    req.replicas ≤ 1 || (req.snapID.bind s.snaps).all fun so =>
      so.legs.all fun e => e.2.replicated || e.2.bytes ≤ req.sizeBytes
  | _ => true

/-! ## Restored volumes -/

/-- The snapshot leg fits the volume restored from it: an unreplicated one is padded for, and no
size the volume has had is below its bytes. -/
def Fits (o : VolObject) (src : VolumeSource) (sl : SnapLeg) : Prop :=
  o.spec.drbd = true → sl.replicated = false →
    src.padForMetadata = true ∧ ∀ z ∈ o.sizes, sl.bytes ≤ z

/-- All legs of a restored volume's source fit. -/
structure RestoreOk (s : State) : Prop where
  size : ∀ v o, s.vols v = some o → o.spec.sizeBytes ∈ o.sizes
  fits : ∀ v o src so n sl, s.vols v = some o → o.spec.source = some src →
    s.snaps src.snapshotName = some so → (n, sl) ∈ so.legs → Fits o src sl

/-- No change of a volume makes a leg that fits it too large. -/
theorem Fits.kept {o o' : VolObject} {src : VolumeSource} {sl : SnapLeg} (h : Fits o src sl)
    (hsize : o.spec.sizeBytes ∈ o.sizes) (hc : VolChange s a v (some o) (some o')) :
    Fits o' src sl := by
  cases hc with
  | kept | activated | lost => exact h
  | grown hle =>
    intro hd hr
    refine ⟨(h hd hr).1, fun z hz => ?_⟩
    rcases List.mem_cons.mp hz with rfl | hz
    · exact Nat.le_trans ((h hd hr).2 _ hsize) hle
    · exact (h hd hr).2 z hz

/-- The legs of the snapshot a restore is granted on fit the new volume. -/
theorem fits_of_request {req : CreateRequest} {src : VolumeSource} {so : SnapObject} {sl : SnapLeg}
    (hok : SnapOk Γ s) (hreq : s.sourceOf req = some (some src))
    (ha : restoresWithin s (.createVolume v req))
    (hso : s.snaps src.snapshotName = some so) (hsl : (n, sl) ∈ so.legs) :
    Fits { spec := req.spec (some src), sizes := [req.sizeBytes] } src sl := by
  intro hd hr
  obtain ⟨x, so₁, o, hx, hso₁, ho, rfl, hpad⟩ := source_of_request hreq
  cases hso.symm.trans hso₁
  obtain ⟨o₁, ho₁, hlegs⟩ := hok _ so hso
  cases ho.symm.trans ho₁
  have hplain : o.spec.drbd = false := (hlegs n sl hsl).1.symm.trans hr
  have hrep : req.replicas > 1 := of_decide_eq_true hd
  refine ⟨by simp [hpad, hrep, hplain], fun z hz => ?_⟩
  obtain rfl := List.mem_singleton.mp hz
  simp only [restoresWithin, hx, Option.bind_some, hso, Option.all_some, Bool.or_eq_true,
    decide_eq_true_eq, List.all_eq_true] at ha
  rcases ha with ha | ha
  · omega
  · simpa [hr] using ha _ hsl

theorem RestoreOk.step (h : RestoreOk s) (hinv : Inv Γ s) (hs : Stepped Γ s a s')
    (ha : restoresWithin s a) : RestoreOk s' := by
  refine ⟨fun v o ho => ?_, fun v o src so' n sl ho hsrc hso' hsl' => ?_⟩
  · have hc := hs.vol v
    rw [ho] at hc
    generalize hq : s.vols v = q at hc
    cases hc with
    | kept => exact h.size v o hq
    | created => exact List.mem_singleton.mpr rfl
    | grown => exact .head _
    | @activated o | @lost o => exact h.size v o hq
  · obtain ⟨so, _, hso, hso'', hsub⟩ := hinv.source.before hs ho hsrc
    cases hso'.symm.trans hso''
    have hsl := hsub hsl'
    have hc := hs.vol v
    rw [ho] at hc
    cases hq : s.vols v with
    | some o₀ =>
      rw [hq] at hc
      obtain ⟨_, ho', hle⟩ := hc.later
      cases ho'
      have hfit := h.fits v o₀ src so n sl hq (hle.source.symm.trans hsrc) hso hsl
      exact hfit.kept (h.size v o₀ hq) hc
    | none =>
      rw [hq] at hc
      cases hc with
      | @created req source hact hreq =>
        obtain rfl : _ = some src := hsrc
        subst hact
        exact fits_of_request hinv.snap hreq ha hso hsl

/-! ## Clones -/

/-- Every clone is at least as large as the leg it was cloned from, which fits its volume. -/
def CloneOk (Γ : Config) (s : State) : Prop :=
  ∀ n v b sl, s.legs n v = some b → b.origin = .clone sl →
    sl.bytes ≤ b.bytes ∧ sl.Sound Γ.storage ∧
    ∃ o src, s.vols v = some o ∧ o.spec.source = some src ∧ o.spec.fullSyncOn n = false ∧
      Fits o src sl

theorem CloneOk.step (h : CloneOk Γ s) (hinv : Inv Γ s) (hrest : RestoreOk s)
    (hs : Stepped Γ s a s') : CloneOk Γ s' := by
  intro n v b sl hb horigin
  suffices hold : sl.bytes ≤ b.bytes ∧ sl.Sound Γ.storage ∧
      ∃ o src, s.vols v = some o ∧ o.spec.source = some src ∧ o.spec.fullSyncOn n = false ∧
        Fits o src sl by
    obtain ⟨hle, hsound, o, src, ho, hsrc, hf, hfit⟩ := hold
    have hc := hs.vol v
    rw [ho] at hc
    obtain ⟨o', ho', hlater⟩ := hc.later
    rw [ho'] at hc
    exact ⟨hle, hsound, o', src, ho', hlater.source.trans hsrc, (hlater.fullSyncOn n).trans hf,
      hfit.kept (hrest.size v o ho) hc⟩
  have hc := hs.leg n v
  rw [hb] at hc
  rcases hc.clone_cases horigin with ⟨x, so, hx, hso, hleg, hbytes⟩ | ⟨b₀, hb₀, ho₀, hle⟩
  · obtain ⟨o, src, ho, hsrc, rfl, hf⟩ := source_of_clones hinv.pass hinv.reads hx
    have hmem := SnapObject.mem_of_leg hleg
    obtain ⟨_, -, hsound⟩ := hinv.snap _ so hso
    exact ⟨Nat.le_of_eq hbytes.symm, (hsound n sl hmem).2, o, src, ho, hsrc, hf,
      hrest.fits v o src so n sl ho hsrc hso hmem⟩
  · obtain ⟨hle₀, hrest⟩ := h n v b₀ sl hb₀ ho₀
    exact ⟨Nat.le_trans hle₀ hle, hrest⟩

/-! ## Padding -/

/-- Where a pass has padded a backing, a clone is as large as it was padded to. -/
def PadOk (s : State) : Prop :=
  ∀ n v p bytes b sl, s.pass n v = some p → Padded bytes p.log → s.legs n v = some b →
    b.origin = .clone sl → bytes ≤ b.bytes

/-- A backing resized to `bytes` has them. -/
theorem le_of_resize {bytes : Nat} {o : Outcome} {s₁ : State} {b : Backing}
    (h : answer Γ s n v (.resize bytes) o = some (.ok (), s₁)) (hb : s₁.legs n v = some b) :
    bytes ≤ b.bytes := by
  cases o
  case ok =>
    obtain ⟨l, hl, he⟩ := Option.map_eq_some_iff.mp h
    obtain ⟨b₀, -, rfl⟩ := Option.map_eq_some_iff.mp hl
    cases he
    rw [setLeg_legs, if_pos ⟨rfl, rfl⟩] at hb
    cases hb
    simp only [Backing.grow]
    split
    exacts [‹_›, Γ.storage.le_round n bytes]
  case fail e applied => cases applied <;> cases h
  all_goals cases h

/-- A device that is said not to exist is not there. -/
theorem none_of_deviceExists {o : Outcome} {s₁ : State}
    (h : answer Γ s n v .deviceExists o = some (.ok false, s₁)) : s₁.legs n v = none := by
  cases o
  case ok =>
    simp only [answer, reading, Option.map_some, Option.some.injEq, Prod.mk.injEq,
      Except.ok.injEq] at h
    obtain ⟨h, rfl⟩ := h
    simpa using h
  case fail e applied => cases applied <;> cases h
  all_goals cases h

theorem PadOk.step (h : PadOk s) (hs : Stepped Γ s a s') : PadOk s' := by
  intro n v p bytes b sl hp hpad hb horigin
  -- Without a clone in this step the backing was there before, and no larger.
  have hbefore (hno : ∀ x, ¬ Clones s a n v x) :
      ∃ b₀, s.legs n v = some b₀ ∧ b₀.origin = .clone sl ∧ b₀.bytes ≤ b.bytes := by
    have hc := hs.leg n v
    rw [hb] at hc
    rcases hc.clone_cases horigin with ⟨x, _, hx, -⟩ | hold
    exacts [absurd hx (hno x), hold]
  have hc := hs.pass n v
  rw [hp] at hc
  generalize hq : s.pass n v = q at hc
  cases hc with
  | kept hact =>
    obtain ⟨b₀, hb₀, ho₀, hle⟩ := hbefore fun x ⟨o, _, _, _, ha, _⟩ => hact o ha
    exact Nat.le_trans (h n v p bytes b₀ sl hq hpad hb₀ ho₀) hle
  | started => exact hpad.elim
  | @answered log c k o r hr hlegs =>
    obtain ⟨r, s₁⟩ := r
    rw [hlegs] at hb
    rcases hpad with (⟨t, he⟩ | ⟨t, he⟩) | ⟨hquiet, hpad⟩
    · cases he
      exact le_of_resize hr hb
    · cases he
      rw [none_of_deviceExists hr] at hb
      cases hb
    · have hno : ∀ x, ¬ Clones s a n v x := by
        rintro x ⟨_, _, _, _, -, hclone⟩
        cases hq.symm.trans hclone
        exact hquiet
      obtain ⟨b₀, hb₀, ho₀, hle⟩ := hbefore hno
      exact Nat.le_trans (h n v _ bytes b₀ sl hq hpad hb₀ ho₀) hle

/-! ## The tail -/

/-- What holds at every moment of a run whose restores are within their sources' bytes. -/
structure TailInv (Γ : Config) (s : State) : Prop extends Inv Γ s where
  restore : RestoreOk s
  clone : CloneOk Γ s
  pad : PadOk s

theorem TailInv.step (h : TailInv Γ s) (hs : Stepped Γ s a s') (ha : restoresWithin s a) :
    TailInv Γ s' where
  toInv := h.toInv.step hs
  restore := h.restore.step h.toInv hs ha
  clone := h.clone.step h.toInv h.restore hs
  pad := h.pad.step hs

theorem TailInv.init : TailInv Γ {} where
  toInv := .init
  restore := ⟨fun _ _ h => (by cases h), fun _ _ _ _ _ _ h => (by cases h)⟩
  clone _ _ _ _ h := by cases h
  pad _ _ _ _ _ _ h := by cases h

/-- The pass a step's command belongs to. -/
theorem pass_of_command {c : VolCmd} (h : a.command s = some (n, v, c)) :
    ∃ log k, s.pass n v = some ⟨log, .ask c k⟩ := by
  unfold Action.command at h
  split at h
  · split at h
    · rename_i log c' k hp
      cases h
      exact ⟨log, k, hp⟩
    · contradiction
  · contradiction

theorem TailInv.tailClear (h : TailInv Γ s) : TailClear Γ s a := by
  intro n v b sl hcmd hb horigin
  obtain ⟨log, k, hp⟩ := pass_of_command hcmd
  obtain ⟨hle, hsound, o, src, ho, hsrc, hf, hfit⟩ := h.clone n v b sl hb horigin
  cases hr : sl.replicated with
  | true =>
    -- The source's own metadata left the exposed bytes usable.
    have hexp : sl.exposed ≤ Γ.storage.usable sl.bytes := by simpa [SnapLeg.Sound, hr] using hsound
    exact Nat.le_trans hexp (Γ.storage.usable_mono _ _ hle)
  | false =>
    have hexp : sl.exposed = sl.bytes := by simpa [SnapLeg.Sound, hr] using hsound
    obtain ⟨spec, hspec, hd, hpad⟩ := (h.pass n v _ hp).1
    obtain ⟨o', ho', z, hz, rfl⟩ := h.reads n v _ spec hp hspec
    cases ho.symm.trans ho'
    obtain ⟨hsp, hsize⟩ := hfit hd hr
    have hany : (sized o.spec z).source.any VolumeSource.padForMetadata := by
      simp [sized, hsrc, hsp]
    have hbytes := h.pad n v _ _ b sl hp (hpad hany hf) hb horigin
    calc sl.exposed = sl.bytes := hexp
      _ ≤ z := hsize z hz
      _ ≤ Γ.storage.usable b.bytes := Γ.storage.le_usable_of_padded hd hany hbytes

/-- In every run in which a replicated volume restored from an unreplicated one is asked to be at
least as large as the source's backings, metadata created on a clone lies beyond what the source
exposed to its filesystem. -/
theorem metadata_behind_filesystem (ρ : Run (Vol.step Γ) {} N)
    (h : ∀ i < N, restoresWithin (ρ.state i) (ρ.act i) = true) {i : ℕ} (hi : i < N) :
    TailClear Γ (ρ.state i) (ρ.act i) := by
  have hinv : TailInv Γ (ρ.state i) :=
    ρ.invariant (P := fun _ s => TailInv Γ s) .init
      (fun j hj hj' => hj'.step (stepped (ρ.next j hj)) (h j hj)) (Nat.le_of_lt hi)
  exact hinv.tailClear

/-! ## The padding is spent -/

def onA : Replica := { node := "a", nodeID := 0, address := "192.0.2.1" }

def onB : Replica := { node := "b", nodeID := 1, address := "192.0.2.2", fullSync := true }

/-- An unreplicated volume of 1 GiB and its snapshot, restored into a replicated volume. -/
def padded : List Action :=
  .createVolume "A" { sizeBytes := giB, replicas := 1, placed := [onA] } ::
  passOf "a" "A" (opening giB ++ List.replicate 4 .ok) ++
  [.cut "s1" "A" giB 0, .createVolume "B"
    { sizeBytes := giB, replicas := 2, snapID := some "s1", placed := [onA, onB] }] ++
  passOf "a" "B" (opening giB ++ List.replicate 6 .ok ++ bringUp)

theorem padded_within : allSteps (step exactSizes) restoresWithin {} padded := by
  decide +kernel

def paddedRun : Run (step exactSizes) {} padded.length := .ofActions _ _ _ padded padded_within

/-- At step 26 metadata is created on the padded clone. -/
theorem metadata_behind_filesystem_padded :
    (paddedRun.act 26).command (paddedRun.state 26) = some ("a", "B", .createMd) ∧
      (∃ b sl, (paddedRun.state 26).legs "a" "B" = some b ∧ b.origin = .clone sl) ∧
      TailClear exactSizes (paddedRun.state 26) (paddedRun.act 26) := by
  refine ⟨by decide +kernel, ?_, metadata_behind_filesystem paddedRun
    (fun _ hi => Run.ofActions_spec padded_within hi) (by decide)⟩
  exact ⟨{ bytes := 1086324736, origin := .clone ⟨giB, none, giB, false⟩ }, _,
    by decide +kernel, rfl⟩

/-- Restored back into an unreplicated volume, the padding belongs to the filesystem; restored once
more at 1 GiB, it is meant for metadata again. -/
def spent : List Action :=
  padded ++ passOf "b" "B" (opening giB ++ List.replicate 2 .ok ++ bringUp) ++
  [.cut "s2" "B" giB (giB + 4 * 1048576), .createVolume "C"
    { sizeBytes := giB, replicas := 1, snapID := some "s2", placed := [onA] }] ++
  passOf "a" "C" (opening giB ++ List.replicate 12 .ok) ++
  [.cut "s3" "C" giB 0, .createVolume "D"
    { sizeBytes := giB, replicas := 2, snapID := some "s3", placed := [onA, onB] }] ++
  passOf "a" "D" (opening giB ++ List.replicate 6 .ok ++ bringUp)

theorem spent_possible : allSteps (step exactSizes) (fun _ _ => true) {} spent := by
  decide +kernel

def spentRun : Run (step exactSizes) {} spent.length := .ofActions _ _ _ spent spent_possible

/-- At step 92 metadata is created on a clone with 1 GiB + 12 MiB of filesystem, of which only
1 GiB + 4 MiB lie in front of it. -/
theorem padding_spent :
    ∃ i < spent.length, ¬ TailClear exactSizes (spentRun.state i) (spentRun.act i) := by
  refine ⟨92, by decide, fun h => ?_⟩
  have hle : 1086324736 ≤ exactSizes.storage.usable 1086324736 :=
    h "a" "D" { bytes := 1086324736, origin := .clone ⟨1086324736, none, 1086324736, false⟩ } _
      (by decide +kernel) (by decide +kernel) rfl
  exact absurd hle (by decide)

end Miroir.Vol
