import Miroir.Agent.Generation

/-!
# One node gives birth

The birth generation of a fresh volume is minted by whichever node finds every completed diskful
leg waiting (`birthInitPending`) and itself the winner (`isWinner`). The two look at different
legs: the gate skips the own entry, tie-breakers and legs without an address, the election takes
the completed diskful legs only.

`birth_election`: with a completed diskful leg there is exactly one such node while all of them
wait, and none as soon as the winner sees one that does not. Where no diskful leg is completed
yet, nobody mints (`nobody_to_mint`).
-/

namespace Miroir

/-- A fresh replicated volume: nothing to clone, no joiner, and one leg on a node, as the API
server admits it. -/
structure Fresh (spec : VolumeSpec) : Prop where
  replicated : spec.drbd = true
  noSource : spec.source = none
  noFullSync : ∀ rep ∈ spec.replicas, rep.fullSync = false
  oneLeg : (spec.legs.map Prod.fst).Nodup

/-- On `self` the leg `rep` is seen Inconsistent and, if it is a peer's, connected. -/
def waiting (st : DrbdStatus) (self : String) (rep : Replica) : Bool :=
  if rep.node = self then st.diskState = some .inconsistent
  else st.peerConnected rep.nodeID && st.peerDiskState rep.nodeID = some .inconsistent

variable {vol : Volume} {st : String → DrbdStatus} {n m : String}

/-- The node of a diskful replica holds no diskless leg. -/
theorem localDiskless_of_replica (hv : Fresh vol.spec) {rep : Replica}
    (hrep : rep ∈ vol.spec.replicas) (hd : rep.diskless = false) :
    localDiskless vol rep.node = false := by
  have hnodup := hv.oneLeg
  rw [VolumeSpec.legs, List.map_append, List.map_map, List.map_map, List.nodup_append] at hnodup
  obtain ⟨hreps, -, hdisj⟩ := hnodup
  rw [localDiskless, Bool.or_eq_false_iff]
  constructor
  · cases hf : vol.spec.replicas.find? fun r => r.node = rep.node with
    | none => rfl
    | some r =>
      have hr : r = rep := by
        have hn : r.node = rep.node := by simpa using List.find?_some hf
        exact List.inj_on_of_nodup_map hreps (List.mem_of_find?_eq_some hf) hrep hn
      simp [hr, hd]
  · rw [Option.isSome_eq_false_iff, Option.isNone_iff_eq_none, VolumeSpec.clientForNode,
      List.find?_eq_none]
    intro cl hcl hn
    refine hdisj rep.node (List.mem_map.mpr ⟨rep, hrep, rfl⟩) rep.node
      (List.mem_map.mpr ⟨cl, hcl, ?_⟩) rfl
    simpa using hn

/-- The gate passes on a diskful leg that sees all others wait. -/
theorem birthInitPending_of_waiting (hv : Fresh vol.spec)
    (ha : vol.status.activated = false) (hf : vol.status.formatted = false) {w : Replica}
    (hw : w ∈ vol.spec.completedDiskful)
    (h : ∀ rep ∈ vol.spec.completedDiskful, waiting (st w.node) w.node rep) :
    birthInitPending vol (st w.node) w.node (localDiskless vol w.node) := by
  obtain ⟨hmem, hd, -⟩ := mem_completedDiskful.mp hw
  have hown : (st w.node).diskState = some .inconsistent := by simpa [waiting] using h w hw
  have hpeers : vol.spec.replicas.all (birthReady (st w.node) w.node) := by
    refine List.all_eq_true.mpr fun rep hrep => ?_
    by_cases hskip : rep.node = w.node ∨ rep.diskless ∨ rep.address = ""
    · rcases hskip with h | h | h <;> simp [birthReady, hv.noFullSync rep hrep, h]
    · simp only [not_or, Bool.not_eq_true] at hskip
      have hsee := h rep (mem_completedDiskful.mpr ⟨hrep, hskip.2.1, hskip.2.2⟩)
      simp only [waiting, hskip.1, if_false] at hsee
      simp [birthReady, hv.noFullSync rep hrep, hsee]
  simp [birthInitPending, hv.replicated, hv.noSource, ha, hf,
    localDiskless_of_replica hv hmem hd, hown, hpeers]

/-- A node whose gate passes sees every completed diskful leg wait. -/
theorem waiting_of_birthInitPending {status : DrbdStatus}
    (h : birthInitPending vol status n (localDiskless vol n)) {rep : Replica}
    (hrep : rep ∈ vol.spec.completedDiskful) : waiting status n rep := by
  obtain ⟨hmem, hd, ha⟩ := mem_completedDiskful.mp hrep
  simp only [birthInitPending, Bool.and_eq_true, decide_eq_true_iff] at h
  have hready := List.all_eq_true.mp h.2 rep hmem
  by_cases hn : rep.node = n
  · simpa [waiting, hn] using h.1.2
  · simp only [birthReady, hn, hd, ha, decide_false, Bool.false_or, Bool.and_eq_true] at hready
    simpa [waiting, hn] using hready.2

/-- With a completed diskful leg, exactly one node mints while every such leg sees all others wait,
and its leg is diskful; and nobody mints once the winner sees one that does not wait. Node ids
need not be distinct. -/
theorem birth_election (hv : Fresh vol.spec) (hsome : vol.spec.completedDiskful ≠ []) :
    (vol.status.activated = false → vol.status.formatted = false →
      (∀ w ∈ vol.spec.completedDiskful, ∀ rep ∈ vol.spec.completedDiskful,
        waiting (st w.node) w.node rep = true) →
      ∃ n, mintsBirth vol (st n) n = true ∧ diskfulOn vol n = true ∧
        ∀ m, mintsBirth vol (st m) m = true → m = n) ∧
    ∀ w, isWinner (drbdResource vol w (localDiskless vol w)) = true →
      (∃ rep ∈ vol.spec.completedDiskful, waiting (st w) w rep = false) →
      ∀ n, mintsBirth vol (st n) n = false := by
  constructor
  · intro ha hf hwait
    obtain ⟨n, hn⟩ := exists_winner vol
    obtain ⟨w, hw, rfl⟩ := winner_of_completed hsome hn
    obtain ⟨hmem, hd, -⟩ := mem_completedDiskful.mp hw
    refine ⟨w.node, ?_, ?_, fun m hm => ?_⟩
    · rw [mintsBirth, Bool.and_eq_true]
      exact ⟨birthInitPending_of_waiting hv ha hf hw (hwait w hw), hn⟩
    · exact List.any_eq_true.mpr ⟨w, List.mem_filter.mpr ⟨hmem, by simp [hd]⟩, by simp⟩
    · exact winner_unique (Bool.and_eq_true_iff.mp hm).2 hn
  · rintro w hw ⟨rep, hrep, hnot⟩ n
    by_contra hn
    rw [Bool.not_eq_false, mintsBirth, Bool.and_eq_true] at hn
    obtain rfl := winner_unique hn.2 hw
    rw [waiting_of_birthInitPending hn.1 hrep] at hnot
    cases hnot

/-! ## Two volumes -/

/-- A fresh volume on "a" and "b" with a tie-breaker on "c", whose ids are not in list order. -/
def newborn : Volume where
  name := "pvc"
  spec :=
    { sizeBytes := 1024
      replicas := [{ node := "a", nodeID := 2, address := "10.0.0.1" },
        { node := "b", nodeID := 1, address := "10.0.0.2" },
        { node := "c", nodeID := 0, address := "10.0.0.3", diskless := true }]
      drbd := true }
  status := {}

/-- Every disk Inconsistent, every connection up. -/
def allInconsistent : DrbdStatus where
  primary := false
  peerPrimary := false
  suspended := false
  diskState := some .inconsistent
  peerConnected _ := true
  peerDiskState _ := some .inconsistent

/-- Of the three nodes "b" mints. -/
theorem newborn_election :
    ∃ n, mintsBirth newborn allInconsistent n = true ∧ diskfulOn newborn n = true ∧
      ∀ m, mintsBirth newborn allInconsistent m = true → m = n :=
  (@birth_election newborn (fun _ => allInconsistent) ⟨rfl, rfl, by decide, by decide⟩
    (by decide)).1 rfl rfl (by decide)

/-- A volume whose two diskful entries wait for their addresses. -/
def unaddressed : Volume where
  name := "pvc"
  spec :=
    { sizeBytes := 1024
      replicas := [{ node := "a", nodeID := 0 }, { node := "b", nodeID := 1 }]
      drbd := true }
  status := {}

/-- It has no completed diskful leg that does not wait, and no node with a name mints. -/
theorem nobody_to_mint :
    Fresh unaddressed.spec ∧ unaddressed.spec.completedDiskful = [] ∧
      ∀ n, n ≠ "" → mintsBirth unaddressed allInconsistent n = false := by
  refine ⟨⟨rfl, rfl, by decide, by decide⟩, by decide, fun n hn => ?_⟩
  have hw : isWinner (drbdResource unaddressed n (localDiskless unaddressed n)) = false :=
    decide_eq_false (fun h => hn h.symm)
  rw [mintsBirth, hw, Bool.and_false]

end Miroir
