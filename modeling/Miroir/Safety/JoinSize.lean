import Miroir.Growth.World

/-!
# A leg that joins a sized device

DRBD sizes the device from the smallest of its legs and refuses a joiner that is smaller still.
All diskful legs are asked for the same bytes, but every backend rounds them in its own way.

`joiner_large_enough`: whatever has happened before, a leg that joins with a fresh backing is large
enough if it asks for no less than some leg the device was sized from, and that leg's request needed
no rounding or was rounded by a unit that divides the joiner's. The legs a controller adds are never
clones of the source (`joiners_never_clone`). A zvol that replaces a logical volume can be too small
(`zvol_too_small`).
-/

namespace Miroir.Growth

open Process

/-! ## The condition -/

/-- The leg was asked for no more than `bytes`, and needed no rounding or a divisor of `g`'s. -/
def covered (leg : Device) (g : Geometry) (bytes : Nat) : Bool :=
  leg.asked.any fun n => n ≤ bytes && (leg.geometry.unit.1 ∣ n || leg.geometry.unit.1 ∣ g.unit.1)

/-- What the command makes is made afresh, and covers a leg the device was sized from. -/
def coversLeg (s : World) (node : String) : Cmd → Bool
  | .createBacking bytes => s.sizedFrom.any fun leg => covered leg (s.geometry node) bytes
  | .createFromSnapshot => false
  | _ => true

/-- A diskful leg of a device that is sized has no backing yet. -/
def joins (s : World) (node : String) : Bool :=
  diskfulOn s.current.spec node && (s.device node).isNone && s.smallest.isSome

def joinsCovered (c : GrowConf) (a : GrowAct) : Bool :=
  (Workers.asked c a).all fun q => q.worker.all fun node =>
    !joins c.world node || coversLeg c.world node q.cmd

/-! ## Steps -/

section Steps

variable {s s' : World} {w : Option String} {n : String} {d leg : Device} {bytes : Nat}

theorem bytes_le_of_covered {g : Geometry} (h : covered leg g bytes) :
    leg.bytes ≤ (Device.create g bytes).bytes := by
  obtain ⟨m, hm, hle, hd⟩ : ∃ m, leg.asked = some m ∧ m ≤ bytes ∧
      (leg.geometry.unit.1 ∣ m ∨ leg.geometry.unit.1 ∣ g.unit.1) := by
    simpa [covered, Option.any_eq_true] using h
  calc leg.bytes = leg.geometry.realize m := leg.realized m hm
    _ ≤ g.realize bytes := Geometry.realize_le hle hd

theorem smallest_le (h : leg ∈ s.sizedFrom) {size : Nat} (hs : s.smallest = some size) :
    size ≤ leg.bytes :=
  (List.min?_eq_some_iff.mp hs).2 _ (List.mem_map_of_mem h)

theorem device_setDevice (s : World) (n m : String) (d : Option Device) :
    (s.setDevice n d).device m = if m = n then d else s.device m :=
  Function.update_apply ..

/-- `Create` makes the device of a node that has none, and keeps one that is there. -/
theorem device_of_createBacking {o : Outcome} {a : Except Err Unit}
    (h : answer s (some n) (.createBacking bytes) o = some (a, s')) :
    s'.device n = s.device n ∨
      s.device n = none ∧ s'.device n = some (.create (s.geometry n) bytes) := by
  rcases performed (t := s.ensureDevice n (.create (s.geometry n) bytes)) h with rfl | ⟨rfl, -⟩
  · rw [World.ensureDevice]
    split
    · exact .inl rfl
    · rename_i hnone
      exact .inr ⟨by simpa using hnone, by rw [device_setDevice, if_pos rfl]⟩
  · exact .inl rfl

/-- A node that was left without a device got it made by its own command. -/
theorem ensured (hnone : s.device n = none) {m : String} {d' : Device}
    (hsome : (s.ensureDevice m d').device n = some d) : m = n ∧ d' = d := by
  unfold World.ensureDevice at hsome
  split at hsome
  · rw [hnone] at hsome
    cases hsome
  · rw [device_setDevice] at hsome
    split at hsome
    · exact ⟨(‹n = m›).symm, Option.some.inj hsome⟩
    · rw [hnone] at hsome
      cases hsome

/-- A device that was not there is made by a backend command of its node. -/
theorem made_by_answer {c : Cmd} {o : Outcome} {r : Ans c} (h : answer s w c o = some (r, s'))
    (hnone : s.device n = none) (hsome : s'.device n = some d) :
    w = some n ∧
      ((∃ bytes, c = .createBacking bytes ∧ d = .create (s.geometry n) bytes) ∨
        c = .createFromSnapshot) := by
  -- Any other command leaves the node without one.
  have hsame (heq : s'.device n = s.device n) : False := by
    rw [heq, hnone] at hsome
    cases hsome
  cases c
  case createBacking bytes =>
    obtain ⟨node, rfl, he⟩ := Option.bind_eq_some_iff.mp h
    rcases performed he with rfl | ⟨rfl, -⟩
    · obtain ⟨rfl, hd⟩ := ensured hnone hsome
      exact ⟨rfl, .inl ⟨bytes, rfl, hd.symm⟩⟩
    · exact (hsame rfl).elim
  case createFromSnapshot =>
    cases o with
    | cloned geometry bytes err =>
      obtain ⟨node, rfl, he⟩ := Option.bind_eq_some_iff.mp h
      cases he
      exact ⟨congrArg some (ensured hnone hsome).1, .inr rfl⟩
    | fail e applied =>
      cases h
      exact (hsame rfl).elim
    | ok | version | absent | flag | status | duringResync => cases h
  case resizeBacking bytes =>
    obtain ⟨node, rfl, he⟩ := Option.bind_eq_some_iff.mp h
    refine (hsame ?_).elim
    split at he
    · rcases performed he with rfl | ⟨rfl, -⟩
      · rw [World.resizeDevice, device_setDevice]
        split
        · rename_i heq
          rw [← heq, hnone]
          rfl
        · rfl
      · rfl
    · cases o <;> cases he
      rfl
  case deleteBacking =>
    obtain ⟨node, rfl, he⟩ := Option.bind_eq_some_iff.mp h
    refine (hsame ?_).elim
    rcases performed he with rfl | ⟨rfl, -⟩
    · rw [device_setDevice, hnone, ite_self]
    · rfl
  case patchStatus | dropSlot =>
    obtain ⟨node, rfl, he⟩ := Option.bind_eq_some_iff.mp h
    rcases performed he with rfl | ⟨rfl, -⟩ <;> exact (hsame rfl).elim
  case down | removeFinalizer | expandWithinHeadroom =>
    rcases performed h with rfl | ⟨rfl, -⟩ <;> exact (hsame rfl).elim
  case patchActivated =>
    rcases performed h with rfl | ⟨rfl, -⟩ <;> exact (hsame rfl).elim
  case patchSize size =>
    simp only [answer] at h
    split at h
    · rcases performed h with rfl | ⟨rfl, -⟩ <;> exact (hsame rfl).elim
    · cases o <;> cases h
      exact (hsame rfl).elim
  case volume =>
    cases o with
    | version k =>
      simp only [answer] at h
      split at h
      · cases h
        cases w <;> exact (hsame rfl).elim
      · cases h
    | absent | fail =>
      cases h
      exact (hsame rfl).elim
    | ok | flag | status | cloned | duringResync => cases h
  all_goals
    cases o <;> cases h
    all_goals exact (hsame rfl).elim

/-- No event makes a device. -/
theorem device_of_event {e : Event} (h : event s e = some s') : s'.device = s.device := by
  cases e with
  | edit replicas clients =>
    simp only [event] at h
    split at h <;> cases h
    rfl
  | handshake =>
    simp only [event] at h
    split at h <;> cases h
    rfl
  | configure => cases h; rfl

/-- A step that makes a device answers a backend command of its node. -/
theorem made_by_step {c c' : GrowConf} {a : GrowAct} (h : Workers.Stepped cluster c a c')
    (hnone : c.world.device n = none) (hsome : c'.world.device n = some d) :
    ∃ q, Workers.asked c a = some q ∧ q.worker = some n ∧
      ((∃ bytes, q.cmd = .createBacking bytes ∧ d = .create (c.world.geometry n) bytes) ∨
        q.cmd = .createFromSnapshot) := by
  rcases h.world_cases with heq | ⟨e, -, he⟩ | ⟨w, o, j, log, cmd, k, r, rfl, ht, hans⟩
  · rw [heq, hnone] at hsome
    cases hsome
  · rw [device_of_event he, hnone] at hsome
    cases hsome
  · have hmade := made_by_answer hans hnone hsome
    exact ⟨⟨w, j, log, cmd⟩, by simp only [Workers.asked, ht], hmade.1, hmade.2⟩

end Steps

/-! ## The legs a controller adds -/

/-- The backing of a full-sync joiner is never cloned. -/
theorem realizeBacking_of_joiner {vol : Volume}
    (hnodup : (vol.spec.replicas.map Replica.node).Nodup) {rep : Replica}
    (hrep : rep ∈ vol.spec.diskfulReplicas) (hjoins : rep.fullSync) :
    realizeBacking rep.node vol = createBacking vol.spec.backingBytes := by
  have hfull : vol.spec.fullSyncOn rep.node := by
    obtain ⟨other, hother⟩ : ∃ other,
        (vol.spec.diskfulReplicas.find? fun r => r.node = rep.node) = some other :=
      Option.isSome_iff_exists.mp (List.find?_isSome.mpr ⟨rep, hrep, by simp⟩)
    have hnode : other.node = rep.node := by simpa using List.find?_some hother
    have hsame : other = rep := List.inj_on_of_nodup_map hnodup
      (List.mem_of_mem_filter (List.mem_of_find?_eq_some hother))
      (List.mem_of_mem_filter hrep) hnode
    rw [VolumeSpec.fullSyncOn, hother, hsame]
    exact hjoins
  rw [realizeBacking]
  split
  · rfl
  · rw [if_pos hfull]

/-- One change of the spec: by membership completion, by a conversion, or by whoever adds no diskful
entry but uncompleted ones. -/
def Edited (old new : VolumeSpec) : Prop :=
  (∃ nodes ips, reconcileMembership nodes ips old = .ok new) ∨
    (∃ node pool, new = { old with replicas := convertTieBreaker old.replicas node pool }) ∨
    (∃ cl pool, new = convertClient old cl pool) ∨
    ∀ rep ∈ new.diskfulReplicas, rep ∈ old.diskfulReplicas ∨ rep.address = ""

theorem joins_of_edited {old new : VolumeSpec} (h : Edited old new) {rep : Replica}
    (hrep : rep ∈ new.diskfulReplicas) (haddr : rep.address ≠ "") :
    rep ∈ old.diskfulReplicas ∨ rep.fullSync := by
  rcases h with ⟨nodes, ips, h⟩ | ⟨node, pool, rfl⟩ | ⟨cl, pool, rfl⟩ | h
  · exact addsJoiners_reconcileMembership h rep hrep
  · exact addsJoiners_convertTieBreaker node pool rep hrep
  · exact addsJoiners_convertClient cl pool rep hrep
  · exact .inl ((h rep hrep).resolve_right haddr)

/-- However the spec came to be: a completed diskful leg that it did not have from the start asks
its backend for a backing by `Create`, never for a clone, also of a restored volume. Where the node
has none, that makes a fresh one; one that is there from before is kept. -/
theorem joiners_never_clone {old : VolumeSpec} {vol : Volume}
    (h : Relation.ReflTransGen Edited old vol.spec)
    (hnodup : (vol.spec.replicas.map Replica.node).Nodup) (rep : Replica)
    (hrep : rep ∈ vol.spec.diskfulReplicas) (haddr : rep.address ≠ "")
    (hnew : rep ∉ old.diskfulReplicas) :
    realizeBacking rep.node vol = createBacking vol.spec.backingBytes ∧
      ∀ (s s' : World) (o : Outcome) (a : Except Err Unit),
        answer s (some rep.node) (.createBacking vol.spec.backingBytes) o = some (a, s') →
          s'.device rep.node = s.device rep.node ∨
            s.device rep.node = none ∧ s'.device rep.node =
              some (.create (s.geometry rep.node) vol.spec.backingBytes) := by
  refine ⟨realizeBacking_of_joiner hnodup hrep ?_, fun _ _ _ _ => device_of_createBacking⟩
  generalize vol.spec = spec at h hrep
  induction h with
  | refl => exact absurd hrep hnew
  | tail _ hlast ih => exact (joins_of_edited hlast hrep haddr).elim ih id

/-- A restored volume whose client `b` is made diskful. -/
def restored : Volume where
  name := "v"
  spec := convertClient
    { sizeBytes := 512, drbd := true, source := some ⟨"s", false⟩
      replicas := [{ node := "a", nodeID := 0, address := "a" }] }
    { node := "b", nodeID := 1, address := "b" } ""
  status := {}

def restoredWorld : World := created restored (fun _ => { backend := .loopfile }) extents4M

theorem restored_joiner_created :
    realizeBacking "b" restored = createBacking restored.spec.backingBytes ∧
      ∀ s' a, answer restoredWorld (some "b") (.createBacking restored.spec.backingBytes) .ok =
          some (a, s') →
        s'.device "b" = none ∨ s'.device "b" =
          some (.create (restoredWorld.geometry "b") restored.spec.backingBytes) := by
  have hedited : Relation.ReflTransGen Edited _ restored.spec :=
    .single (.inr (.inr (.inl ⟨_, _, rfl⟩)))
  obtain ⟨hask, hmade⟩ := joiners_never_clone hedited (by decide)
    { node := "b", nodeID := 1, address := "b", fullSync := true } (by decide) (by decide)
    (by decide)
  exact ⟨hask, fun s' a h => (hmade _ s' _ a h).imp id And.right⟩

/-! ## Runs -/

variable {vol : Volume} {pools : String → Pool} {extents : String → Extent} {N i : ℕ}
  (ρ : Run cluster.step (Workers.init (created vol pools extents)) N)

/-- The backing of a diskful leg that joins a sized device is no smaller than the smallest one the
device was sized from. -/
theorem joiner_large_enough (hi : i < N) (h : joinsCovered (ρ.state i) (ρ.act i) = true)
    {n : String} {d : Device} (hdisk : diskfulOn (ρ.state i).world.current.spec n = true)
    (hnone : (ρ.state i).world.device n = none)
    (hsome : (ρ.state (i + 1)).world.device n = some d) :
    ∀ size, (ρ.state i).world.smallest = some size → size ≤ d.bytes := by
  intro size hsize
  obtain ⟨q, hq, hw, hmade⟩ := made_by_step (Workers.stepped_of_step (ρ.next i hi)) hnone hsome
  have hcov : coversLeg (ρ.state i).world n q.cmd = true := by
    simpa [joinsCovered, hq, hw, joins, hdisk, hnone, hsize] using h
  rcases hmade with ⟨bytes, hcmd, rfl⟩ | hcmd
  · rw [hcmd] at hcov
    obtain ⟨leg, hleg, hc⟩ := List.any_eq_true.mp hcov
    exact (smallest_le hleg hsize).trans (bytes_le_of_covered hc)
  · rw [hcmd] at hcov
    cases hcov

/-! ## Replacing a leg -/

/-- The legs of a volume come up, "a" is evicted, and "c" makes its backing. -/
def replaceA : List GrowAct :=
  legPass "b" 0 [.ok] ++ legPass "a" 2 [.ok, .ok] ++ evictA ++
    .start (some "c") { polls := 0 } :: Workers.replies (some "c") [.version 6, .flag false, .ok]

/-- "c" makes logical volumes, the others image files. -/
def joinVolumeGroup : World :=
  created (newVolume 1073742336)
    (fun node => { backend := if node = "c" then .lvmthin else .loopfile }) extents4M

theorem joinVolumeGroup_covered :
    allSteps cluster.step joinsCovered (Workers.init joinVolumeGroup) replaceA := by
  decide +kernel

def joinVolumeGroupRun : Run cluster.step (Workers.init joinVolumeGroup) replaceA.length :=
  .ofActions _ _ _ _ joinVolumeGroup_covered

/-- A logical volume joins image files. -/
theorem logical_volume_joins :
    (joinVolumeGroupRun.state 24).world.smallest = some 1073742336 ∧
      ∀ d, (joinVolumeGroupRun.state 25).world.device "c" = some d → 1073742336 ≤ d.bytes := by
  have hsize : (joinVolumeGroupRun.state 24).world.smallest = some 1073742336 := by decide +kernel
  refine ⟨hsize, fun d hd => ?_⟩
  exact joiner_large_enough joinVolumeGroupRun (by decide +kernel)
    (Run.ofActions_spec joinVolumeGroup_covered (by decide +kernel)) (n := "c") (by decide +kernel)
    (by decide +kernel) hd _ hsize

/-- "c" makes zvols, the others logical volumes. -/
def joinZpool : World :=
  created (newVolume 1073742336)
    (fun node => { backend := if node = "c" then .zfs else .lvmthin }) extents4M

theorem joinZpool_possible :
    allSteps cluster.step (fun _ _ => true) (Workers.init joinZpool) replaceA := by
  decide +kernel

def joinZpoolRun : Run cluster.step (Workers.init joinZpool) replaceA.length :=
  .ofActions _ _ _ _ joinZpool_possible

/-- The device was sized from two logical volumes before "c" was added, and the zvol of "c" is
smaller than both. -/
theorem zvol_too_small :
    (joinZpoolRun.state 19).world.smallest = some 1077936128 ∧
      diskfulOn (joinZpoolRun.state 19).world.current.spec "c" = false ∧
      diskfulOn (joinZpoolRun.state 24).world.current.spec "c" = true ∧
      (joinZpoolRun.state 24).world.backing "c" = none ∧
      (joinZpoolRun.state 25).world.backing "c" = some 1073745920 ∧
      (joinZpoolRun.state 25).world.smallest = some 1077936128 := by
  refine ⟨?_, ?_, ?_, ?_, ?_, ?_⟩ <;> decide +kernel

end Miroir.Growth
