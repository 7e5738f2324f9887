import Mathlib.Data.Finset.Card
import Miroir.Csi.PlacementSpec

/-!
# Spreading over zones

`spreadByZone` takes the pinned nodes, then nodes in zones that are not used yet, then the others.
No selection of as many nodes that has the pinned ones has fewer nodes that share a zone with
another (`spread_optimal`). Either the second pass fills up, and all sharing is among the pinned
nodes, which are in every such selection; or it has a node of every zone there is, and no selection
has more.
-/

namespace Miroir.Pools

open Data

/-- The failure domain of a node: its zone, or the node alone if it has none. -/
def domain (zoneOf : String → String) (n : String) : String ⊕ String :=
  if zoneOf n = "" then .inl n else .inr (zoneOf n)

/-- The nodes beyond the first of each domain. -/
def clashes (zoneOf : String → String) (s : Finset String) : Nat :=
  s.card - (s.image (domain zoneOf)).card

variable {ordered : List String} {pinned count : Nat} {zoneOf : String → String}
  {s t : Finset String}

theorem clashes_mono (h : s ⊆ t) : clashes zoneOf s ≤ clashes zoneOf t := by
  have hcard := Finset.card_sdiff_add_card_eq_card h
  have himage : (t.image (domain zoneOf)).card ≤ (s.image (domain zoneOf)).card + (t \ s).card := by
    rw [← Finset.union_sdiff_of_subset h, Finset.image_union]
    refine (Finset.card_union_le _ _).trans (Nat.add_le_add_left ?_ _)
    rw [Finset.union_sdiff_of_subset h]
    exact Finset.card_image_le
  have hle : (s.image (domain zoneOf)).card ≤ s.card := Finset.card_image_le
  simp only [clashes]
  omega

/-- A node in a domain that is not used yet clashes with nothing. -/
theorem clashes_insert {n : String} (h : n ∈ s ∨ domain zoneOf n ∉ s.image (domain zoneOf)) :
    clashes zoneOf (insert n s) = clashes zoneOf s := by
  rcases h with h | h
  · rw [Finset.insert_eq_self.mpr h]
  · have hn : n ∉ s := fun hn => h (Finset.mem_image_of_mem _ hn)
    rw [clashes, Finset.image_insert, Finset.card_insert_of_notMem hn,
      Finset.card_insert_of_notMem h, Nat.add_sub_add_right, clashes]

/-- What the second pass wants. -/
def unused (zoneOf : String → String) (picked : List String) (n : String) : Bool :=
  zoneOf n = "" || picked.all fun m => zoneOf m ≠ zoneOf n

theorem clashes_of_unused {picked : List String} {n : String}
    (h : unused zoneOf picked n) :
    clashes zoneOf (picked ++ [n]).toFinset = clashes zoneOf picked.toFinset := by
  have hinsert : (picked ++ [n]).toFinset = insert n picked.toFinset := by
    ext m
    simp
  rw [hinsert]
  refine clashes_insert ?_
  by_contra hno
  simp only [Finset.mem_image, List.mem_toFinset, not_or, not_not] at hno
  obtain ⟨hn, m, hm, hdomain⟩ := hno
  simp only [domain] at hdomain
  simp only [unused, Bool.or_eq_true, decide_eq_true_iff, List.all_eq_true] at h
  rcases h with h | h
  · rw [if_pos h] at hdomain
    split at hdomain
    · exact hn (Sum.inl.inj hdomain ▸ hm)
    · cases hdomain
  · have hne := h m hm
    split at hdomain <;> split at hdomain <;> simp_all

/-- A node that is passed by shares its domain with one that is picked. -/
theorem domain_of_used {picked : List String} {n : String} (h : unused zoneOf picked n = false) :
    ∃ m ∈ picked, domain zoneOf m = domain zoneOf n := by
  simp only [unused, Bool.or_eq_false_iff, decide_eq_false_iff_not, List.all_eq_false] at h
  obtain ⟨hn, m, hm, hzone⟩ := h
  have heq : zoneOf m = zoneOf n := by simpa using hzone
  exact ⟨m, hm, by simp [domain, heq, hn]⟩

/-- The first two passes. -/
def firstPasses (ordered : List String) (pinned count : Nat) (zoneOf : String → String) :
    List String :=
  fill count (unused zoneOf) (ordered.take pinned) (ordered.drop pinned)

theorem spreadByZone_eq (hpin : pinned ≤ count) :
    spreadByZone ordered pinned count zoneOf =
      fill count (fun picked n => n ∉ picked) (firstPasses ordered pinned count zoneOf)
        (ordered.drop pinned) := by
  have hfirst : fill count (fun _ _ => true) [] (ordered.take pinned) = ordered.take pinned := by
    rw [fill_eq_append (fun _ _ _ => rfl) (Nat.zero_le _)]
    simp [List.take_take, hpin]
  rw [spreadByZone, hfirst]
  rfl

/-- Every domain is used if the first two passes fall short. -/
theorem domain_mem_of_short (h : (firstPasses ordered pinned count zoneOf).length < count)
    {n : String} (hn : n ∈ ordered) :
    ∃ m ∈ firstPasses ordered pinned count zoneOf, domain zoneOf m = domain zoneOf n := by
  rw [← List.take_append_drop pinned ordered] at hn
  rcases List.mem_append.mp hn with hn | hn
  · exact ⟨n, prefix_fill.subset hn, rfl⟩
  · rcases mem_or_of_short hn h with hn | ⟨p, hp, hno⟩
    · exact ⟨n, hn, rfl⟩
    · obtain ⟨m, hm, hdomain⟩ := domain_of_used hno
      exact ⟨m, hp.subset hm, hdomain⟩

/-- For every ranking without duplicates and every zone assignment, `spreadByZone` returns `count`
different nodes of the ranking with all pinned ones, and as few clashes as any selection like that;
without zones these are the first nodes. -/
theorem spread_optimal (hnodup : ordered.Nodup) (hpin : pinned ≤ count)
    (hcount : count ≤ ordered.length) :
    let picked := spreadByZone ordered pinned count zoneOf
    (picked.Nodup ∧ picked.length = count ∧ (∀ n ∈ picked, n ∈ ordered) ∧
      ∀ n ∈ ordered.take pinned, n ∈ picked) ∧
    (∀ s : Finset String, s.card = count → (∀ n ∈ s, n ∈ ordered) →
      (∀ n ∈ ordered.take pinned, n ∈ s) →
      clashes zoneOf picked.toFinset ≤ clashes zoneOf s) ∧
    ((∀ n ∈ ordered, zoneOf n = "") → picked = ordered.take count) := by
  intro picked
  have hlen : picked.length = count := length_spreadByZone hnodup hcount
  have hdistinct : picked.Nodup := nodup_spreadByZone hnodup
  have heq : picked = fill count (fun picked n => n ∉ picked)
      (firstPasses ordered pinned count zoneOf) (ordered.drop pinned) := spreadByZone_eq hpin
  have hfirst : ordered.take pinned <+: firstPasses ordered pinned count zoneOf := prefix_fill
  have hsub : firstPasses ordered pinned count zoneOf <+: picked := heq ▸ prefix_fill
  have htake : (ordered.take pinned).length ≤ count := by
    rw [List.length_take]
    omega
  refine ⟨⟨hdistinct, hlen, fun n hn => mem_of_mem_spreadByZone hn,
    fun n hn => hsub.subset (hfirst.subset hn)⟩, fun s hcard hs hpinned => ?_, fun hzones => ?_⟩
  · by_cases hshort : (firstPasses ordered pinned count zoneOf).length < count
    · have himage : s.image (domain zoneOf) ⊆ picked.toFinset.image (domain zoneOf) := by
        intro d hd
        obtain ⟨n, hn, rfl⟩ := Finset.mem_image.mp hd
        obtain ⟨m, hm, hdomain⟩ := domain_mem_of_short hshort (hs n hn)
        exact Finset.mem_image.mpr ⟨m, List.mem_toFinset.mpr (hsub.subset hm), hdomain⟩
      have := Finset.card_le_card himage
      rw [clashes, clashes, List.toFinset_card_of_nodup hdistinct]
      omega
    · rw [heq, fill_of_full (not_lt.mp hshort)]
      calc clashes zoneOf (firstPasses ordered pinned count zoneOf).toFinset
          = clashes zoneOf (ordered.take pinned).toFinset :=
            fill_invariant (M := fun p => clashes zoneOf p.toFinset =
              clashes zoneOf (ordered.take pinned).toFinset)
              (fun p n _ hn hp => (clashes_of_unused hn).trans hp) rfl
        _ ≤ clashes zoneOf s := clashes_mono fun n hn => hpinned n (List.mem_toFinset.mp hn)
  · have hpasses : firstPasses ordered pinned count zoneOf = ordered.take count := by
      rw [firstPasses, fill_eq_append (fun p n hn => by
        simp [unused, hzones n (List.mem_of_mem_drop hn)]) htake, List.length_take,
        Nat.min_eq_left (hpin.trans hcount)]
      conv_rhs => rw [← Nat.add_sub_cancel' hpin]
      rw [List.take_add]
    rw [heq, fill_of_full (by rw [hpasses, List.length_take]; omega), hpasses]

/-- "a" is pinned; "b" is ranked next but shares its zone. -/
theorem spread_optimal_twoZones :
    let zoneOf := fun n => if n = "c" then "y" else "x"
    spreadByZone ["a", "b", "c"] 1 2 zoneOf = ["a", "c"] ∧ clashes zoneOf {"a", "c"} = 0 ∧
      clashes zoneOf {"a", "c"} ≤ clashes zoneOf {"a", "b"} :=
  ⟨rfl, rfl, (@spread_optimal ["a", "b", "c"] 1 2 _ (by decide) (by decide) (by decide)).2.1
    {"a", "b"} rfl (by decide) (by decide)⟩

end Miroir.Pools
