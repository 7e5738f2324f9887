import Mathlib.Data.List.Find
import Miroir.Csi.Placement

/-!
# What a placement promises

`place` returns as many legs as it was asked for, on different nodes that carry the pool, none of
them excluded, and each with room for the volume where its figures are known (`place_spec`). It
succeeds exactly if the topology is met and there are enough nodes with room, the pinned one among
them (`choose_isOk`).
-/

namespace Miroir

open Data

namespace Pools

variable {p : Pools} {req : CreateRequest} {count : Nat} {excluded : List String} {pin n : String}

/-! ## Spreading -/

section Spread

variable {ordered : List String} {pinned : Nat} {zoneOf : String → String}

theorem nodup_spreadByZone (h : ordered.Nodup) :
    (spreadByZone ordered pinned count zoneOf).Nodup := by
  have hsplit : (ordered.take pinned ++ ordered.drop pinned).Nodup := by
    rwa [List.take_append_drop]
  have hdisj := List.disjoint_of_nodup_append hsplit
  refine nodup_fill_of_want (fun p x hx => by simpa using hx) (nodup_fill_of_append ?_)
  refine List.nodup_append'.mpr
    ⟨nodup_fill_of_append (h.sublist (List.take_sublist pinned ordered)),
    h.sublist (List.drop_sublist pinned ordered), fun x hx => ?_⟩
  exact hdisj ((mem_of_mem_fill hx).resolve_left List.not_mem_nil)

theorem mem_of_mem_spreadByZone (h : n ∈ spreadByZone ordered pinned count zoneOf) :
    n ∈ ordered := by
  rcases mem_of_mem_fill h with h | h
  · rcases mem_of_mem_fill h with h | h
    · exact List.mem_of_mem_take ((mem_of_mem_fill h).resolve_left List.not_mem_nil)
    · exact List.mem_of_mem_drop h
  · exact List.mem_of_mem_drop h

/-- A selection that falls short has taken everything. -/
theorem mem_spreadByZone_of_short (h : (spreadByZone ordered pinned count zoneOf).length < count)
    (hn : n ∈ ordered) : n ∈ spreadByZone ordered pinned count zoneOf := by
  rw [← List.take_append_drop pinned ordered] at hn
  rcases List.mem_append.mp hn with hn | hn
  · refine prefix_fill.subset (prefix_fill.subset (mem_fill_of_short (fun _ _ => rfl) hn ?_))
    exact Nat.lt_of_le_of_lt (prefix_fill.length_le.trans prefix_fill.length_le) h
  · exact mem_fill_of_short (fun p hp => by simpa using hp) hn h

theorem length_spreadByZone (h : ordered.Nodup) (hcount : count ≤ ordered.length) :
    (spreadByZone ordered pinned count zoneOf).length = count := by
  have hle : (spreadByZone ordered pinned count zoneOf).length ≤ count :=
    length_fill_le (length_fill_le (length_fill_le (Nat.zero_le _)))
  by_contra hne
  have hshort := Nat.lt_of_le_of_ne hle hne
  have hsub := (h.subperm fun n hn => mem_spreadByZone_of_short hshort hn).length_le
  omega

/-- A pinned node is taken whatever its zone. -/
theorem mem_spreadByZone_pin {rest : List String} (h : 0 < count) :
    pin ∈ spreadByZone (pin :: rest) 1 count zoneOf := by
  have hfirst : fill count (fun _ _ => true) [] [pin] = [pin] := by
    simp [fill, h]
  refine prefix_fill.subset (prefix_fill.subset ?_)
  rw [List.take_succ_cons, List.take_zero, hfirst]
  exact List.mem_singleton_self pin

end Spread

/-! ## Candidates -/

variable {pool : String}

theorem mem_candidates :
    n ∈ p.candidates pool excluded ↔ n ∈ p.nodes.keys ∧ n ∉ excluded ∧ p.carries n pool := by
  simp [candidates]

theorem nodup_candidates : (p.candidates pool excluded).Nodup :=
  (p.nodes.nodupKeys).filter _

/-- A node that carries a pool is in the topology. -/
theorem mem_keys_of_carries (h : p.carries n pool) : n ∈ p.nodes.keys := by
  obtain ⟨-, h⟩ := Bool.and_eq_true_iff.mp h
  cases hl : p.nodes.lookup n with
  | none =>
    rw [NodeMap.placeable, hl] at h
    cases h
  | some sn => exact AList.mem_keys.mp (AList.lookup_isSome.mp (by rw [hl]; rfl))

theorem topologyPick_spec {cands : List String} (h : (topologyPick req cands excluded).1 = pin)
    (hpin : pin ≠ "") : pin ∈ cands ∧ pin ∉ excluded := by
  rw [topologyPick] at h
  split at h
  · rename_i n hn
    split at h
    · exact absurd h.symm hpin
    · rename_i hex
      have hmem := List.find?_some hn
      simp only [Bool.and_eq_true, Bool.or_eq_true, decide_eq_true_iff] at hmem
      exact h ▸ ⟨hmem.2.resolve_left hex, hex⟩
  · exact absurd h.symm hpin

/-! ## Choosing -/

theorem mem_rest :
    n ∈ p.rest req excluded pin ↔
      n ∈ p.candidates req.pool excluded ∧ n ≠ pin ∧ p.overcommitted req n = false := by
  simp [rest]

theorem nodup_rest : (p.rest req excluded pin).Nodup :=
  (List.perm_insertionSort _ _).nodup_iff.mpr (nodup_candidates.filter _)

theorem nodup_ordered : (p.ordered req excluded pin).Nodup := by
  rw [ordered]
  split
  · simpa using nodup_rest
  · exact List.nodup_cons.mpr ⟨fun h => (mem_rest.mp h).2.1 rfl, nodup_rest⟩

/-- The nodes that are chosen. -/
def chosen (p : Pools) (req : CreateRequest) (count : Nat) (excluded : List String)
    (pin : String) : List String :=
  spreadByZone (p.ordered req excluded pin) (if pin = "" then 0 else 1) count p.nodes.zone

theorem choose_eq_ok {ns : List String} :
    p.choose req count excluded pin = .ok ns ↔
      count ≤ (p.ordered req excluded pin).length ∧ ns = p.chosen req count excluded pin ∧
        ∀ n ∈ ns, p.overcommitted req n = false := by
  simp only [choose]
  split
  · exact ⟨nofun, fun h => absurd h.1 (by omega)⟩
  · rename_i hlen
    split
    · rename_i n hn
      refine ⟨nofun, fun ⟨_, hns, h⟩ => ?_⟩
      rw [hns] at h
      have hroom := h n (List.mem_of_find?_eq_some hn)
      rw [List.find?_some hn] at hroom
      cases hroom
    · rename_i hnone
      constructor
      · intro h
        cases h
        exact ⟨by omega, rfl, fun n hn => by simpa using List.find?_eq_none.mp hnone n hn⟩
      · rintro ⟨-, rfl, -⟩
        rfl

/-- The choice succeeds if there are enough nodes with room, the pinned one among them. -/
theorem choose_isOk (hcount : 0 < count) :
    (∃ ns, p.choose req count excluded pin = .ok ns) ↔
      count ≤ (p.ordered req excluded pin).length ∧
        (pin ≠ "" → p.overcommitted req pin = false) := by
  constructor
  · rintro ⟨ns, h⟩
    obtain ⟨hlen, hns, hroom⟩ := choose_eq_ok.mp h
    refine ⟨hlen, fun hpin => hroom pin ?_⟩
    rw [hns, chosen, ordered, if_neg hpin, if_neg hpin]
    exact mem_spreadByZone_pin hcount
  · rintro ⟨hlen, hroom⟩
    refine ⟨p.chosen req count excluded pin, choose_eq_ok.mpr ⟨hlen, rfl, fun n hn => ?_⟩⟩
    have hmem := mem_of_mem_spreadByZone hn
    rw [ordered] at hmem
    split at hmem
    · exact (mem_rest.mp (by simpa using hmem)).2.2
    · rename_i hpin
      rcases List.mem_cons.mp hmem with rfl | hmem
      · exact hroom hpin
      · exact (mem_rest.mp hmem).2.2

/-- The nodes in order are candidates, the one the topology picks included. -/
theorem mem_candidates_of_ordered (h : n ∈ p.ordered req excluded
    (topologyPick req (p.candidates req.pool excluded) excluded).1) :
    n ∈ p.candidates req.pool excluded := by
  rw [ordered] at h
  split at h
  · exact (mem_rest.mp (by simpa using h)).1
  · rename_i hpin
    rcases List.mem_cons.mp h with rfl | h
    · exact (topologyPick_spec rfl hpin).1
    · exact (mem_rest.mp h).1

/-! ## Placing -/

/-- What a placed leg satisfies. -/
structure Placed (p : Pools) (req : CreateRequest) (excluded : List String) (leg : PlacedLeg) :
    Prop where
  pool : leg.pool = req.pool
  carries : p.carries leg.node req.pool = true
  free : leg.node ∉ excluded
  room : p.overcommitted req leg.node = false

theorem node_of_leg {i : Nat} {leg : PlacedLeg} (h : p.leg req count (n, i) = .ok leg) :
    leg.node = n ∧ leg.pool = req.pool := by
  rw [Pools.leg] at h
  split at h
  · obtain ⟨address, -, h⟩ := bind_eq_ok.mp h
    cases h
    exact ⟨rfl, rfl⟩
  · cases h
    exact ⟨rfl, rfl⟩

/-- What is chosen for the node the topology picks. -/
theorem place_eq_ok {legs : List PlacedLeg} (h : p.place req count excluded = .ok legs) :
    ∃ ns, p.choose req count excluded
        (topologyPick req (p.candidates req.pool excluded) excluded).1 = .ok ns ∧
      ns.zipIdx.mapM (p.leg req count) = .ok legs := by
  simp only [place] at h
  split at h
  · cases h
  · split at h
    · cases h
    · obtain ⟨ns, hns, h⟩ := bind_eq_ok.mp h
      exact ⟨ns, hns, h⟩

theorem place_spec {legs : List PlacedLeg} (h : p.place req count excluded = .ok legs) :
    legs.length = count ∧ (legs.map PlacedLeg.node).Nodup ∧
      ∀ leg ∈ legs, Placed p req excluded leg := by
  obtain ⟨ns, hns, hlegs⟩ := place_eq_ok h
  have hall := forall₂_of_mapM hlegs
  obtain ⟨hlen, rfl, hroom⟩ := choose_eq_ok.mp hns
  have hnodes : legs.map PlacedLeg.node = p.chosen req count excluded
      (topologyPick req (p.candidates req.pool excluded) excluded).1 := by
    have hfst : legs.map PlacedLeg.node = (p.chosen req count excluded
        (topologyPick req (p.candidates req.pool excluded) excluded).1).zipIdx.map Prod.fst := by
      rw [← List.forall₂_eq_eq_eq, List.forall₂_map_left_iff, List.forall₂_map_right_iff]
      exact hall.flip.imp fun leg n hleg => (node_of_leg hleg).1
    simpa using hfst
  refine ⟨?_, ?_, fun leg hleg => ?_⟩
  · rw [← List.length_map PlacedLeg.node, hnodes]
    exact length_spreadByZone nodup_ordered hlen
  · rw [hnodes]
    exact nodup_spreadByZone nodup_ordered
  · have hmem : leg.node ∈ p.chosen req count excluded _ :=
      hnodes ▸ List.mem_map_of_mem hleg
    obtain ⟨⟨m, i⟩, -, hm⟩ := exists_of_forall₂ hall hleg
    obtain ⟨-, hfree, hcarries⟩ :=
      mem_candidates.mp (mem_candidates_of_ordered (mem_of_mem_spreadByZone hmem))
    exact ⟨(node_of_leg hm).2, hcarries, hfree, hroom _ hmem⟩

/-! ## When a placement succeeds -/

/-- The first node of the requirement that has a leg or can have one. -/
def wanted (p : Pools) (req : CreateRequest) (excluded : List String) : Option String :=
  (req.preferred ++ req.requisite).find? fun n => n ≠ "" && (n ∈ excluded || p.carries n req.pool)

/-- The nodes that can take a leg of the volume. -/
def roomy (p : Pools) (req : CreateRequest) (excluded : List String) : List String :=
  (p.candidates req.pool excluded).filter fun n => !p.overcommitted req n

/-- The topology is met and there are enough nodes with room. -/
structure Enough (p : Pools) (req : CreateRequest) (count : Nat) (excluded : List String) :
    Prop where
  topology : req.requisite = [] ∨ req.remoteAccess = true ∨ (p.wanted req excluded).isSome = true
  pinned : ∀ n, p.wanted req excluded = some n → n ∉ excluded → p.overcommitted req n = false
  nodes : count ≤ (p.roomy req excluded).length

/-- The node that is pinned: the wanted one, unless it has a leg already. -/
def pinned (p : Pools) (req : CreateRequest) (excluded : List String) : String :=
  (p.wanted req excluded).elim "" fun n => if n ∈ excluded then "" else n

theorem pinned_iff :
    p.pinned req excluded = n ∧ n ≠ "" ↔ p.wanted req excluded = some n ∧ n ∉ excluded := by
  rw [pinned]
  cases hw : p.wanted req excluded with
  | none => simp [eq_comm]
  | some m =>
    have hm := List.find?_some hw
    simp only [Bool.and_eq_true, decide_eq_true_iff] at hm
    rw [Option.elim_some, Option.some.injEq]
    split_ifs with hex
    · exact iff_of_false (fun h => h.2 h.1.symm) fun h => h.2 (h.1 ▸ hex)
    · exact ⟨fun h => ⟨h.1, h.1 ▸ hex⟩, fun h => ⟨h.1, h.1 ▸ hm.1⟩⟩

theorem topologyPick_eq :
    topologyPick req (p.candidates req.pool excluded) excluded =
      (p.pinned req excluded, (p.wanted req excluded).isSome) := by
  have hfind : ((req.preferred ++ req.requisite).find? fun n =>
      n ≠ "" && (n ∈ excluded || n ∈ p.candidates req.pool excluded)) = p.wanted req excluded := by
    refine List.find?_congr fun n _ => ?_
    cases hc : p.carries n req.pool with
    | false => simp [mem_candidates, hc]
    | true => by_cases hn : n ∈ excluded <;> simp [mem_candidates, hc, hn, mem_keys_of_carries hc]
  rw [topologyPick, hfind, pinned]
  cases p.wanted req excluded with
  | none => rfl
  | some n =>
    dsimp only [Option.elim_some]
    split <;> rfl

theorem filter_ne_eq_erase {l : List String} (h : l.Nodup) (n : String) :
    l.filter (fun m => m ≠ n) = l.erase n := by
  rw [h.erase_eq_filter]
  exact List.filter_congr fun m _ => by simp [bne, Bool.beq_eq_decide_eq]

/-- The nodes in order are those with room, the pinned one first. -/
theorem length_ordered (hnames : "" ∉ p.nodes.keys) (hpin : pin = "" ∨ pin ∈ p.roomy req excluded) :
    (p.ordered req excluded pin).length = (p.roomy req excluded).length := by
  have hrest : (p.rest req excluded pin).length =
      ((p.roomy req excluded).filter fun n => n ≠ pin).length := by
    rw [rest, List.length_insertionSort, roomy, List.filter_filter]
  rw [ordered, List.length_append, hrest]
  by_cases hempty : pin = ""
  · have hall : (p.roomy req excluded).filter (fun n => n ≠ pin) = p.roomy req excluded := by
      refine List.filter_eq_self.mpr fun n hn => ?_
      have hkey := (mem_candidates.mp (List.mem_filter.mp hn).1).1
      simpa [hempty] using fun h : n = "" => hnames (h ▸ hkey)
    rw [hall, if_pos hempty, List.length_nil, Nat.zero_add]
  · have hmem := hpin.resolve_left hempty
    have hnodup : (p.roomy req excluded).Nodup := nodup_candidates.filter _
    rw [filter_ne_eq_erase hnodup, if_neg hempty, List.length_singleton,
      List.length_erase_of_mem hmem]
    have := List.length_pos_of_mem hmem
    omega

/-- A placement succeeds exactly if there is enough room, with every address resolved that it
needs. -/
theorem place_isOk (hnames : "" ∉ p.nodes.keys) (hcount : 0 < count)
    (haddr : 1 < count → ∀ n, p.carries n req.pool → (p.replicationAddress n).isOk) :
    (∃ legs, p.place req count excluded = .ok legs) ↔ p.Enough req count excluded := by
  have hlength (hroom : p.pinned req excluded ≠ "" → p.overcommitted req (p.pinned req excluded) =
      false) : (p.ordered req excluded (p.pinned req excluded)).length =
        (p.roomy req excluded).length := by
    refine length_ordered hnames (or_iff_not_imp_left.mpr fun hne => List.mem_filter.mpr ⟨?_, ?_⟩)
    · exact (topologyPick_spec (congrArg Prod.fst topologyPick_eq) hne).1
    · simp [hroom hne]
  constructor
  · rintro ⟨legs, h⟩
    obtain ⟨ns, hns, -⟩ := place_eq_ok h
    rw [topologyPick_eq] at hns
    obtain ⟨hlen, hroom⟩ := (choose_isOk hcount).mp ⟨ns, hns⟩
    refine ⟨?_, fun n hn hex => ?_, hlength hroom ▸ hlen⟩
    · by_contra hoff
      simp only [not_or, Bool.not_eq_true] at hoff
      obtain ⟨hreq, hremote, hw⟩ := hoff
      simp only [place, topologyPick_eq, hw, hremote] at h
      split at h
      · cases h
      · simp [hreq] at h
    · obtain ⟨rfl, hne⟩ := pinned_iff.mpr ⟨hn, hex⟩
      exact hroom hne
  · rintro ⟨htop, hroom, hnodes⟩
    have hpin : p.pinned req excluded ≠ "" → p.overcommitted req (p.pinned req excluded) = false :=
      fun hne => (pinned_iff.mp ⟨rfl, hne⟩).elim (hroom _)
    obtain ⟨ns, hns⟩ := (choose_isOk hcount).mpr ⟨(hlength hpin).symm ▸ hnodes, hpin⟩
    have hall : ∀ x ∈ ns.zipIdx, ∃ leg, p.leg req count x = .ok leg := fun x hx => by
      obtain ⟨-, rfl, -⟩ := choose_eq_ok.mp hns
      have hmem := mem_of_mem_spreadByZone (List.fst_mem_of_mem_zipIdx hx)
      have hc := (mem_candidates.mp (mem_candidates_of_ordered (by rwa [topologyPick_eq]))).2.2
      rw [Pools.leg]
      split
      · rename_i hmany
        cases ha : p.replicationAddress x.1 with
        | error e => cases ha ▸ haddr hmany x.1 hc
        | ok address => exact ⟨_, rfl⟩
      · exact ⟨_, rfl⟩
    obtain ⟨legs, hlegs⟩ := exists_mapM_eq_ok hall
    refine ⟨legs, ?_⟩
    have henough : ¬(p.candidates req.pool excluded).length < count := by
      have := List.length_filter_le (fun n => !p.overcommitted req n)
        (p.candidates req.pool excluded)
      rw [roomy] at hnodes
      omega
    simp only [place, topologyPick_eq, if_neg henough]
    rw [if_neg]
    · exact bind_eq_ok.mpr ⟨ns, hns, hlegs⟩
    · rcases htop with htop | htop | htop <;> simp [htop]

end Pools

end Miroir
