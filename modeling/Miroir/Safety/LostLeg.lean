import Miroir.Volume.History

/-!
# A lost leg rejoins blank

A backing made in place of one that vanished holds nothing its peers could trust: it has to be fresh
and attach with just-created metadata, so that the handshake makes it a full SyncTarget. A fresh
backing always does (`FreshOk`). A recreated one is fresh in every run in which a device vanishes
only once the source snapshot's leg beside it is gone (`lost_leg_rejoins_blank`).

With the leg still there, `realizeBacking` clones it again, whatever has been written to the volume
since: the leg comes back with the old data under the generation of the source, long after the
volume was activated (`lost_leg_cloned_again`).
-/

namespace Miroir.Vol

open Process Prog

variable {Γ : Config} {s s' : State} {a : Action} {n v : String} {N : ℕ}

/-- Every backing made in place of a vanished one after the volume was activated is fresh, and was
attached first with just-created metadata, if at all. -/
def RejoinsBlank (s : State) : Prop :=
  ∀ n v o b, s.vols v = some o → o.spec.drbd = true → o.spec.source.isSome = true →
    s.legs n v = some b → b.recreated = true →
    b.origin = .fresh ∧ ∀ g, b.joinedWith = some g → g = .justCreated

/-- The snapshot a volume was restored from. -/
def State.sourceSnap (s : State) (v : String) : Option SnapObject :=
  (s.vols v).bind fun o => o.spec.source.bind fun src => s.snaps src.snapshotName

/-- A device vanishes only once the source snapshot has no leg beside it. -/
def losesCleanly (s : State) : Action → Bool
  | .lose n v => (s.sourceSnap v).all fun so => so.legs.all fun e => e.1 ≠ n
  | _ => true

/-! ## Fresh backings -/

/-- Until it is first attached, a fresh backing carries just-created metadata or none. -/
def Backing.FreshOk (b : Backing) : Prop :=
  b.origin = .fresh →
    (b.joinedWith = none → b.attached = false ∧ ∀ m, b.md = some m → m.gen = .justCreated) ∧
    ∀ g, b.joinedWith = some g → g = .justCreated

theorem LegChange.freshOk {X : String → Prop} {l : Option Backing} {b : Backing}
    (h : LegChange s n v X l (some b)) (hl : ∀ b₀, l = some b₀ → b₀.FreshOk) : b.FreshOk := by
  cases h with
  | kept => exact hl b rfl
  | created => exact fun _ => ⟨fun _ => ⟨rfl, nofun⟩, nofun⟩
  | cloned => exact nofun
  | @grown b₀ => exact hl b₀ rfl
  | wrote ha hmd =>
    exact fun ho => ⟨fun _ => ⟨ha, hmd⟩, (hl _ rfl ho).2⟩
  | @attached b₀ m hm =>
    intro ho
    obtain ⟨hnew, hold⟩ := hl b₀ rfl ho
    cases hj : b₀.joinedWith with
    | none => exact ⟨nofun, fun g hg => by cases hg; exact (hnew hj).2 m hm⟩
    | some g => exact ⟨nofun, fun g' hg => by cases hg; exact hold g hj⟩
  | moved ha =>
    -- An attached backing has joined already.
    intro ho
    obtain ⟨hnew, hold⟩ := hl _ rfl ho
    exact ⟨fun hj => absurd ((hnew hj).1.symm.trans ha) (by decide), hold⟩
  | detached =>
    intro ho
    obtain ⟨hnew, hold⟩ := hl _ rfl ho
    exact ⟨fun hj => ⟨rfl, (hnew hj).2⟩, hold⟩

/-! ## Lost legs -/

/-- What is known of a node that has lost a restored volume's backing: the source snapshot has no
leg there, and whatever backing is there is fresh. -/
def LostOk (s : State) : Prop :=
  ∀ n v o src so, s.vols v = some o → o.spec.source = some src → n ∈ o.lost →
    s.snaps src.snapshotName = some so →
    (∀ sl, (n, sl) ∉ so.legs) ∧ ∀ b, s.legs n v = some b → b.origin = .fresh

/-- After a loss nothing is left at the leg, nor of a snapshot's leg on a wiped node. -/
theorem gone_of_loss (h : step Γ s a = some s') (ha : a = .lose n v ∨ a = .wipe n) :
    s'.legs n v = none ∧
      (a = .wipe n → ∀ x so, s'.snaps x = some so → ∀ sl, (n, sl) ∉ so.legs) := by
  obtain ⟨s₁, h₁, rfl⟩ := Option.map_eq_some_iff.mp h
  rcases ha with rfl | rfl
  · refine ⟨?_, nofun⟩
    simp only [act] at h₁
    split at h₁
    · cases h₁
      simp [State.setLeg]
    · contradiction
  · cases h₁
    refine ⟨by simp [State.wipe], fun _ x so hso sl hsl => ?_⟩
    obtain ⟨so₀, -, rfl⟩ := Option.map_eq_some_iff.mp hso
    simpa using (List.mem_filter.mp hsl).2

/-- A loss that is clean leaves no leg of the source snapshot beside it. -/
theorem no_leg_of_lose {o : VolObject} {src : VolumeSource} {so : SnapObject}
    (h : losesCleanly s (.lose n v)) (ho : s.vols v = some o)
    (hsrc : o.spec.source = some src) (hso : s.snaps src.snapshotName = some so) (sl : SnapLeg) :
    (n, sl) ∉ so.legs := by
  intro hsl
  simp only [losesCleanly, State.sourceSnap, ho, Option.bind_some, hsrc, hso, Option.all_some,
    List.all_eq_true] at h
  simpa using h _ hsl

/-- Where no leg of the source is left and the backing is fresh, it stays so. -/
theorem LegChange.fresh_kept {l : Option Backing} {b : Backing} (hinv : Inv Γ s)
    (h : LegChange s n v (Clones s a n v) l (some b)) {o : VolObject} {src : VolumeSource}
    {so : SnapObject} (ho : s.vols v = some o) (hsrc : o.spec.source = some src)
    (hso : s.snaps src.snapshotName = some so) (hno : ∀ sl, (n, sl) ∉ so.legs)
    (hl : ∀ b₀, l = some b₀ → b₀.origin = .fresh) : b.origin = .fresh := by
  cases horigin : b.origin with
  | fresh => rfl
  | clone sl =>
    rcases h.clone_cases horigin with ⟨x, so', hx, hso', hleg, -⟩ | ⟨b₀, hb₀, ho₀, -⟩
    · obtain ⟨o', src', ho', hsrc', rfl, -⟩ := source_of_clones hinv.pass hinv.reads hx
      cases ho.symm.trans ho'
      cases hsrc.symm.trans hsrc'
      cases hso.symm.trans hso'
      exact absurd (SnapObject.mem_of_leg hleg) (hno sl)
    · exact absurd ((hl b₀ hb₀).symm.trans ho₀) nofun

theorem LostOk.step (h : LostOk s) (hinv : Inv Γ s) (hstep : Vol.step Γ s a = some s')
    (ha : losesCleanly s a) : LostOk s' := by
  have hs := stepped hstep
  intro n v o src so' ho hsrc hn hso'
  obtain ⟨so, _, hso, hso'', hsub⟩ := hinv.source.before hs ho hsrc
  cases hso'.symm.trans hso''
  have hc := hs.vol v
  rw [ho] at hc
  cases hq : s.vols v with
  | none =>
    rw [hq] at hc
    cases hc with
    | created => cases hn
  | some o₀ =>
    rw [hq] at hc
    have hsrc₀ : o₀.spec.source = some src := by
      obtain ⟨_, ho', hle⟩ := hc.later
      cases ho'
      exact hle.source.symm.trans hsrc
    by_cases hn₀ : n ∈ o₀.lost
    · obtain ⟨hno, hfresh⟩ := h n v o₀ src so hq hsrc₀ hn₀ hso
      refine ⟨fun sl hsl => hno sl (hsub hsl), fun b hb => ?_⟩
      have hleg := hs.leg n v
      rw [hb] at hleg
      exact hleg.fresh_kept hinv hq hsrc₀ hso hno hfresh
    · -- The leg was lost in this very step.
      have hlost : a = .lose n v ∨ a = .wipe n := by
        cases hc with
        | kept | grown | activated => exact absurd hn hn₀
        | lost hact =>
          rcases List.mem_cons.mp hn with rfl | hn
          exacts [hact, absurd hn hn₀]
      obtain ⟨hnone, hwipe⟩ := gone_of_loss hstep hlost
      refine ⟨?_, fun b hb => by rw [hnone] at hb; cases hb⟩
      rcases hlost with rfl | rfl
      · exact fun sl hsl => no_leg_of_lose ha hq hsrc₀ hso sl (hsub hsl)
      · exact hwipe rfl _ so' hso'

/-! ## Recreated legs -/

/-- A recreated backing stands on a node that has lost one. -/
def RecreatedOk (s : State) : Prop :=
  ∀ n v b, s.legs n v = some b → b.recreated = true → ∃ o, s.vols v = some o ∧ n ∈ o.lost

theorem RecreatedOk.step (h : RecreatedOk s) (hs : Stepped Γ s a s') : RecreatedOk s' := by
  intro n v b hb hrec
  suffices hold : ∃ o, s.vols v = some o ∧ n ∈ o.lost by
    obtain ⟨o, ho, hn⟩ := hold
    have hc := hs.vol v
    rw [ho] at hc
    obtain ⟨o', ho', hle⟩ := hc.later
    exact ⟨o', ho', hle.lost hn⟩
  have hnew (hr : s.recreates n v) : ∃ o, s.vols v = some o ∧ n ∈ o.lost := by
    obtain ⟨o, ho, hr⟩ := (Option.any_eq_true _ _).mp hr
    exact ⟨o, ho, of_decide_eq_true (Bool.and_eq_true_iff.mp hr).2⟩
  have hc := hs.leg n v
  rw [hb] at hc
  generalize hq : s.legs n v = q at hc
  cases hc with
  | kept => exact h n v b hq hrec
  | created | cloned => exact hnew hrec
  | @grown b₀ | @wrote b₀ | @attached b₀ | @moved b₀ | @detached b₀ => exact h n v b₀ hq hrec

/-- What holds at every moment of a run whose losses are clean. -/
structure LostInv (Γ : Config) (s : State) : Prop extends Inv Γ s where
  fresh : ∀ n v b, s.legs n v = some b → b.FreshOk
  lost : LostOk s
  recreated : RecreatedOk s

theorem LostInv.step (h : LostInv Γ s) (hstep : Vol.step Γ s a = some s')
    (ha : losesCleanly s a) : LostInv Γ s' where
  toInv := h.toInv.step (stepped hstep)
  fresh n v b hb := by
    have hc := (stepped hstep).leg n v
    rw [hb] at hc
    exact hc.freshOk (h.fresh n v)
  lost := h.lost.step h.toInv hstep ha
  recreated := h.recreated.step (stepped hstep)

theorem LostInv.init : LostInv Γ {} where
  toInv := .init
  fresh _ _ _ h := by cases h
  lost _ _ _ _ _ h := by cases h
  recreated _ _ _ h := by cases h

theorem LostInv.rejoinsBlank (h : LostInv Γ s) : RejoinsBlank s := by
  intro n v o b ho _ hsrc hb hrec
  obtain ⟨src, hsrc⟩ := Option.isSome_iff_exists.mp hsrc
  obtain ⟨so, hso⟩ := h.source v o src ho hsrc
  obtain ⟨o', ho', hn⟩ := h.recreated n v b hb hrec
  cases ho.symm.trans ho'
  have hfresh := (h.lost n v o src so ho hsrc hn hso).2 b hb
  exact ⟨hfresh, (h.fresh n v b hb hfresh).2⟩

/-- In every run in which a device vanishes only once the source snapshot's leg beside it is gone,
a lost leg of a restored volume rejoins blank. -/
theorem lost_leg_rejoins_blank (ρ : Run (Vol.step Γ) {} N)
    (h : ∀ i < N, losesCleanly (ρ.state i) (ρ.act i) = true) {i : ℕ} (hi : i ≤ N) :
    RejoinsBlank (ρ.state i) := by
  have hinv : LostInv Γ (ρ.state i) :=
    ρ.invariant (P := fun _ s => LostInv Γ s) .init
      (fun j hj hj' => hj'.step (ρ.next j hj) (h j hj)) hi
  exact hinv.rejoinsBlank

/-! ## Cloned again -/

def pair : List Replica :=
  [{ node := "a", nodeID := 0, address := "192.0.2.1" },
    { node := "b", nodeID := 1, address := "192.0.2.2" }]

/-- A clone brings its metadata along, which is adopted. -/
def adopt : List Outcome :=
  List.replicate 10 .ok ++ [.status {}, .status {}] ++ List.replicate 2 .ok

/-- A replicated volume and its snapshot, restored into a second one that goes into use. -/
def restored : List Action :=
  .createVolume "R" { sizeBytes := giB, replicas := 2, placed := pair } ::
  passOf "a" "R" (opening giB ++ List.replicate 2 .ok ++ bringUp) ++
  passOf "b" "R" (opening giB ++ List.replicate 2 .ok ++ bringUp) ++
  [.cut "s" "R" giB (giB - 8 * 1048576), .createVolume "v"
    { sizeBytes := giB, replicas := 2, snapID := some "s", placed := pair }] ++
  passOf "a" "v" (opening giB ++ List.replicate 5 .ok ++ adopt) ++
  passOf "b" "v" (opening giB ++ List.replicate 5 .ok ++ adopt) ++ [.activate "v"]

/-- What the agents read once both legs are up. -/
def inUse : VolumeStatus where
  perNode _ := { deviceCreated := true, sizeBytes := giB }
  activated := true

/-- The snapshot is deleted before the device on `a` is lost: the marker outlived the device, so the
first `adjust` finds no metadata. -/
def fullSynced : List Action :=
  restored ++ [.dropSnap "s", .dropSnapLeg "s" "a", .lose "a" "v"] ++
  passOf "a" "v" ([.volume giB inUse, .absent, .ok, .ok, .ok, .absent] ++
    List.replicate 6 .ok ++ [.adjustFails .missingMetadata false] ++ List.replicate 11 .ok ++
    [.status {}, .status {}] ++ List.replicate 3 .ok)

theorem fullSynced_clean : allSteps (step exactSizes) losesCleanly {} fullSynced := by
  decide +kernel

def fullSyncedRun : Run (step exactSizes) {} fullSynced.length :=
  .ofActions _ _ _ fullSynced fullSynced_clean

/-- At the end of that run the leg on `a` has been recreated and attached. -/
theorem lost_leg_rejoins_blank_fullSynced :
    (∃ b, (fullSyncedRun.state fullSynced.length).legs "a" "v" = some b ∧ b.recreated = true ∧
      b.attached = true) ∧ RejoinsBlank (fullSyncedRun.state fullSynced.length) := by
  refine ⟨⟨{
    bytes := giB
    origin := .fresh
    md := some ⟨giB, .live⟩
    attached := true
    joinedWith := some .justCreated
    recreated := true }, by decide +kernel, rfl, rfl⟩, ?_⟩
  exact lost_leg_rejoins_blank fullSyncedRun
    (fun _ hi => Run.ofActions_spec fullSynced_clean hi) (Nat.le_refl _)

/-- The snapshot is still there when the device on `a` is lost. -/
def clonedAgain : List Action :=
  restored ++ .lose "a" "v" ::
  passOf "a" "v" ([.volume giB inUse, .absent] ++ List.replicate 13 .ok ++
    [.status {}, .status {}] ++ List.replicate 3 .ok)

theorem clonedAgain_possible :
    allSteps (step exactSizes) (fun _ _ => true) {} clonedAgain := by decide +kernel

def clonedAgainRun : Run (step exactSizes) {} clonedAgain.length :=
  .ofActions _ _ _ clonedAgain clonedAgain_possible

/-- At the end of that run the leg on `a` is a clone once more, attached with the generation its
source had at the cut. -/
theorem lost_leg_cloned_again : ¬ RejoinsBlank (clonedAgainRun.state clonedAgain.length) := by
  intro h
  have ho : ((clonedAgainRun.state clonedAgain.length).vols "v").any (fun o =>
      o.spec.drbd && o.spec.source.isSome) = true := by decide +kernel
  obtain ⟨o, ho, hspec⟩ := (Option.any_eq_true _ _).mp ho
  obtain ⟨hd, hsrc⟩ := Bool.and_eq_true_iff.mp hspec
  obtain ⟨hfresh, -⟩ := h "a" "v" o {
    bytes := giB
    origin := .clone ⟨giB, some ⟨giB, .live⟩, giB - 8 * 1048576, true⟩
    md := some ⟨giB, .live⟩
    attached := true
    joinedWith := some .live
    recreated := true } ho hd hsrc (by decide +kernel) rfl
  cases hfresh

end Miroir.Vol
