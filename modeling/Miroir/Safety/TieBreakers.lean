import Miroir.Safety.RestoreLayout

/-!
# Where a new volume has a tie-breaker

A diskless leg is a vote for a majority, which only `freeze` quorum over two diskful legs has a use
for. A volume that is placed or reshaped gets one only then. A restore with as many diskful legs as
its source has copies the source's layout as it is, and with it a tie-breaker that the class it is
created with may have no use for.

`tie_breaker_iff`: a layout that is committed has a diskless leg only with `freeze` and two diskful
legs exactly if a copied layout with one is asked for with these (`copiesApt`).
-/

namespace Miroir

open Data Controller

variable {p : Pools} {tb : Bool} {req : CreateRequest} {src : Volume} {snap : Snapshot}
  {spec : VolumeSpec} {content : Option (Volume × Snapshot)}

variable {c : Controller}

/-- A source whose layout is copied has a diskless leg only if the class has a use for it. -/
def copiesApt (req : CreateRequest) (content : Option (Volume × Snapshot)) : Bool :=
  content.all fun c => c.1.spec.diskfulReplicas.length ≠ req.replicas ||
    c.1.spec.replicas.all (fun rep => !rep.diskless) ||
    req.quorum = .freeze && req.replicas = 2

/-- Not more legs are kept than asked for. -/
theorem length_keepRestoreLegs_le {diskful : List Replica} {target : Nat} {pin : String}
    (h : 0 < target) : (keepRestoreLegs diskful target pin).length ≤ target := by
  by_cases hone : (target = 1 && (pinnedLeg diskful pin).isSome)
  · rw [keepRestoreLegs, if_pos hone]
    exact Option.length_toList_le.trans h
  · rw [keepRestoreLegs_eq hone h]
    exact List.length_take_le _ _

theorem length_reshapeLegs_le {base legs : List Replica} (hreq : 0 < req.replicas)
    (h : (p.controller tb).reshapeLegs req base = .ok legs) : legs.length ≤ req.replicas := by
  simp only [reshapeLegs] at h
  split at h
  · obtain ⟨pin, -, h⟩ := bind_eq_ok.mp h
    cases h
    exact length_keepRestoreLegs_le hreq
  · split at h
    · obtain ⟨extra, hextra, h⟩ := bind_eq_ok.mp h
      cases h
      rw [List.length_append, List.length_map, (Pools.place_spec hextra).1]
      omega
    · cases h
      omega

/-- A layout with a tie-breaker beside diskful legs. -/
theorem freeze_of_withTieBreaker {placed layout : List Replica} {rep : Replica}
    (h : c.withTieBreaker placed req.replicas req.quorum = .ok layout)
    (hplaced : ∀ rep ∈ placed, rep.diskless = false) (hrep : rep ∈ layout)
    (hd : rep.diskless) :
    req.quorum = .freeze ∧ req.replicas = 2 ∧ diskfulOf layout = placed := by
  rcases withTieBreaker_cases h with rfl | ⟨htwo, hfreeze, -⟩
  · rw [hplaced rep hrep] at hd
    cases hd
  · exact ⟨hfreeze, htwo, diskfulOf_withTieBreaker h hplaced⟩

/-- An admitted replicated volume has two diskful legs. -/
theorem two_le_of_admitted (h : spec.admitted) (hdrbd : spec.drbd) :
    2 ≤ (diskfulOf spec.replicas).length := by
  simp only [VolumeSpec.admitted, Bool.and_eq_true, Bool.or_eq_true, Bool.not_eq_true',
    decide_eq_true_iff] at h
  have hlen := h.1.1.1.1.1.1.1.2
  rw [hdrbd] at hlen
  exact hlen.resolve_left Bool.noConfusion

theorem createVolume_eq_ok (h : c.createVolume req content = .ok spec) :
    spec.admitted ∧ spec.drbd = decide (1 < req.replicas) ∧
      ∃ source, c.resolveContent req content = .ok source ∧
        c.placeVolume req (source.map Prod.snd) = .ok spec.replicas := by
  obtain ⟨source, hsource, h⟩ := bind_eq_ok.mp h
  obtain ⟨placed, hplaced, h⟩ := bind_eq_ok.mp h
  rw [create] at h
  split at h
  · rename_i hadm
    cases h
    exact ⟨hadm, rfl, source, hsource, hplaced⟩
  · cases h

/-- A copied layout has the diskless legs of its source. -/
theorem apt_of_copied {reps : List Replica} {rep : Replica}
    (hreps : c.restoreReplicas src snap = .ok reps)
    (hcopy : copiesApt req (some (src, snap)))
    (hlen : (diskfulOf reps).length = req.replicas) (hrep : rep ∈ reps)
    (hd : rep.diskless) : req.quorum = .freeze ∧ (diskfulOf reps).length = 2 := by
  have hfollow := follows_of_restoreReplicas hreps
  obtain ⟨rep₀, hrep₀, hf⟩ := exists_of_forall₂ hfollow hrep
  have hsame : (diskfulOf reps).length = src.spec.diskfulReplicas.length := diskful_length hfollow
  simp only [copiesApt, Option.all_some, Bool.or_eq_true, Bool.and_eq_true, decide_eq_true_iff]
    at hcopy
  rcases hcopy with (hne | hnone) | ⟨hfreeze, htwo⟩
  · exact absurd (hsame.symm.trans hlen) hne
  · have hdiskful := List.all_eq_true.mp hnone rep₀ hrep₀
    rw [← hf.diskless, hd] at hdiskful
    cases hdiskful
  · exact ⟨hfreeze, hlen.trans htwo⟩

/-- With an apt source a diskless leg is committed only for `freeze` and two diskful legs. -/
theorem freeze_of_copiesApt (hreq : 0 < req.replicas) (hcopy : copiesApt req content = true)
    (h : (p.controller tb).createVolume req content = .ok spec) {rep : Replica}
    (hrep : rep ∈ spec.replicas) (hd : rep.diskless = true) :
    req.quorum = .freeze ∧ (diskfulOf spec.replicas).length = 2 := by
  obtain ⟨hadm, hdrbd, source, hsource, hplaced⟩ := createVolume_eq_ok h
  cases content with
  | none =>
    cases hsource
    obtain ⟨placed, hplace, hplaced⟩ := bind_eq_ok.mp hplaced
    obtain ⟨hfreeze, htwo, hdiskful⟩ := freeze_of_withTieBreaker hplaced (fun r hr => by
      obtain ⟨leg, -, rfl⟩ := List.mem_map.mp hr
      rfl) hrep hd
    rw [hdiskful, List.length_map, (Pools.place_spec hplace).1]
    exact ⟨hfreeze, htwo⟩
  | some c =>
    obtain ⟨⟨source', reps⟩, hresolve, heq⟩ := bind_eq_ok.mp hsource
    cases heq
    have hreps := restoreReplicas_of_resolveSource hresolve
    simp only [Option.map_some, placeVolume] at hplaced
    split at hplaced
    · rename_i hlen
      obtain rfl := Except.ok.inj hplaced
      exact apt_of_copied hreps hcopy hlen hrep hd
    · obtain ⟨legs, hlegs, hplaced⟩ := bind_eq_ok.mp hplaced
      split at hplaced
      · -- One leg is left, a diskful one.
        rw [← Except.ok.inj hplaced] at hrep
        obtain ⟨leg, hleg, rfl⟩ := List.mem_map.mp hrep
        rw [diskful_of_reshapeLegs hlegs (List.mem_of_mem_take hleg)] at hd
        cases hd
      · obtain ⟨out, hout, hplaced⟩ := bind_eq_ok.mp hplaced
        have hnum := numbered_of_renumber hout
        obtain ⟨hfreeze, htwo, hdiskful⟩ := freeze_of_withTieBreaker hplaced (fun r hr => by
          obtain ⟨leg, hleg, hn⟩ := exists_of_forall₂ hnum hr
          exact hn.diskless.trans (diskful_of_reshapeLegs hlegs hleg)) hrep hd
        have hle := length_reshapeLegs_le hreq hlegs
        have hge := two_le_of_admitted hadm (by rw [hdrbd, htwo]; rfl)
        rw [hnum.length_eq] at hle
        rw [hdiskful] at hge ⊢
        exact ⟨hfreeze, by omega⟩

/-- A source that is not apt has its diskless legs copied. -/
theorem copiesApt_of_freeze (h : c.createVolume req content = .ok spec)
    (hfreeze : ∀ rep ∈ spec.replicas, rep.diskless = true →
      req.quorum = .freeze ∧ (diskfulOf spec.replicas).length = 2) :
    copiesApt req content = true := by
  obtain ⟨-, -, source, hsource, hplaced⟩ := createVolume_eq_ok h
  cases content with
  | none => rfl
  | some c =>
    obtain ⟨⟨source', reps⟩, hresolve, heq⟩ := bind_eq_ok.mp hsource
    cases heq
    have hfollow := follows_of_restoreReplicas (restoreReplicas_of_resolveSource hresolve)
    simp only [copiesApt, Option.all_some, Bool.or_eq_true, Bool.and_eq_true, decide_eq_true_iff,
      List.all_eq_true, Bool.not_eq_true']
    by_cases hlen : c.1.spec.diskfulReplicas.length = req.replicas
    · have hcopied : (diskfulOf reps).length = req.replicas := (diskful_length hfollow).trans hlen
      rw [Option.map_some, placeVolume, if_pos hcopied, Except.ok.injEq] at hplaced
      subst hplaced
      by_cases hnone : ∀ rep ∈ c.1.spec.replicas, rep.diskless = false
      · exact .inl (.inr hnone)
      · push Not at hnone
        obtain ⟨rep₀, hrep₀, hd⟩ := hnone
        obtain ⟨rep, hrep, hf⟩ := exists_of_forall₂ hfollow.flip hrep₀
        obtain ⟨hq, htwo⟩ := hfreeze rep hrep (hf.diskless.trans (by simpa using hd))
        exact .inr ⟨hq, hcopied.symm.trans htwo⟩
    · exact .inl (.inl hlen)

/-- For every request, fresh or with a content source of any shape, on any topology: the layout that
is committed has a diskless leg only if the requested quorum is `freeze` and two legs are diskful,
exactly if a layout that is copied is apt. -/
theorem tie_breaker_iff (hreq : 0 < req.replicas)
    (h : (p.controller tb).createVolume req content = .ok spec) :
    copiesApt req content = true ↔ ∀ rep ∈ spec.replicas, rep.diskless = true →
      req.quorum = .freeze ∧ (diskfulOf spec.replicas).length = 2 :=
  ⟨fun hcopy _ hrep hd => freeze_of_copiesApt hreq hcopy h hrep hd, copiesApt_of_freeze h⟩

/-! ## A copied tie-breaker -/

/-- A `freeze` volume with diskful legs on "x" and "a" and a tie-breaker on "b". -/
def tieBreakerOnB : Volume :=
  { placedOnXA with
    spec.replicas := placedOnXA.spec.replicas ++
      [{ node := "b", nodeID := 2, address := "10.0.0.b", diskless := true }] }

/-- What a restore that copies this layout commits. -/
def copiedFromB : VolumeSpec :=
  { tieBreakerOnB.spec with source := some { snapshotName := "snap" } }

/-- A `freeze` restore has a use for the tie-breaker it copies. -/
theorem tie_breaker_copied_for_freeze :
    (threeNodePools.controller true).createVolume (twoLegs "clone")
        (some (tieBreakerOnB, cutOnXA)) = .ok copiedFromB ∧
      (∃ rep ∈ copiedFromB.replicas, rep.diskless = true) ∧
      ∀ rep ∈ copiedFromB.replicas, rep.diskless = true →
        (twoLegs "clone").quorum = .freeze ∧ (diskfulOf copiedFromB.replicas).length = 2 := by
  have hok : (threeNodePools.controller true).createVolume (twoLegs "clone")
      (some (tieBreakerOnB, cutOnXA)) = .ok copiedFromB := rfl
  exact ⟨hok, by decide, (tie_breaker_iff (by decide) hok).mp (by decide)⟩

/-- A class with `last-man-standing` restores the same snapshot, and gets the tie-breaker too. -/
theorem copied_without_freeze :
    (threeNodePools.controller true).createVolume
        { twoLegs "clone" with quorum := .lastManStanding } (some (tieBreakerOnB, cutOnXA)) =
        .ok copiedFromB ∧
      ∃ rep ∈ copiedFromB.replicas, rep.diskless = true := by
  exact ⟨rfl, by decide⟩

end Miroir
