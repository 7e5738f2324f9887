import Mathlib.Data.List.Rotate
import Miroir.Csi.PlacementSpec

/-!
# Advertised capacity and placement

The scheduler asks for the capacity of a node and then has a volume placed with a requirement that
lists the whole topology, rotated to start at the node it has selected.

`capacity_agrees_iff`: the advertised capacity admits a size exactly if the placement succeeds,
where the selected node carries the pool. Where it does not, the placement goes on through the
rotation and pins the next node that carries the pool, which the advertised capacity knows nothing
of: the two then agree only by chance (`Agreeable`), and may disagree either way
(`rotation_pins_another_node`).
-/

namespace Miroir

open Data

namespace Pools

variable {p : Pools} {req : CreateRequest} {pin n : String}

variable {replicas : Nat}

/-- The figures of every pool are fresh, every address resolves, and the volume to be placed is
none of those there. -/
structure Known (p : Pools) (req : CreateRequest) : Prop where
  figures : ∀ n, p.carries n req.pool = true →
    (p.figures n req.pool).any (fun st => 0 < st.capacityBytes) = true
  addresses : ∀ n, p.carries n req.pool = true → (p.replicationAddress n).isOk = true
  fresh : ∀ v ∈ p.vols, v.name ≠ req.name ∧ v.name ≠ ""

/-- The requirement of delayed binding with `n` selected: all the nodes of `topology`, the storage
nodes among them, rotated to start at `n`. -/
structure DelayedBinding (p : Pools) (req : CreateRequest) (topology : List String) (n : String) :
    Prop where
  named : "" ∉ topology
  selected : n ∈ topology
  storage : p.nodes.keys ⊆ topology
  preferred : req.preferred = topology.rotate (topology.idxOf n)
  requisite : req.requisite = topology

/-! ## Rooms -/

/-- With the volume not there, both sides count the same bytes. -/
theorem Known.provisioned (h : p.Known req) (node pool : String) :
    provisionedPerPool p.vols req.name node pool = provisionedPerPool p.vols "" node pool := by
  have hfilter {x : String} (hx : ∀ v ∈ p.vols, v.name ≠ x) :
      p.vols.filter (fun v => v.name ≠ x) = p.vols :=
    List.filter_eq_self.mpr fun v hv => by simpa using hx v hv
  rw [provisionedPerPool, provisionedPerPool, hfilter fun v hv => (h.fresh v hv).1,
    hfilter fun v hv => (h.fresh v hv).2]

/-- A node that carries the pool is not overcommitted exactly if its room admits the size. -/
theorem Known.overcommitted_iff (h : p.Known req) (hn : p.carries n req.pool) :
    p.overcommitted req n = false ↔ (req.sizeBytes : Int) ≤ p.available req.pool n := by
  obtain ⟨st, hst, hcap⟩ := (Option.any_eq_true _ _).mp (h.figures n hn)
  have hroom {x : String} : ∃ r, p.room x n req.pool = some r := by
    rw [room, poolHeadroom, hst, Option.filter_some, if_pos hcap]
    exact ⟨_, rfl⟩
  have hsame : p.room req.name n req.pool = p.room "" n req.pool := by
    rw [room, room, h.provisioned]
  obtain ⟨r, hr⟩ := hroom (x := "")
  rw [overcommitted, available, if_pos hn, hsame, hr, Option.any_some, Option.getD_some]
  simp

theorem available_nonneg (p : Pools) (pool n : String) : 0 ≤ p.available pool n := by
  rw [available]
  split
  · cases hr : p.room "" n pool with
    | none => exact Int.le_refl 0
    | some r =>
      obtain ⟨st, -, rfl⟩ := Option.map_eq_some_iff.mp hr
      exact le_max_left _ _
  · exact Int.le_refl 0

/-- A node with room for something carries the pool. -/
theorem carries_of_available {pool : String} {s : Int} (hs : 0 < s) (h : s ≤ p.available pool n) :
    p.carries n pool := by
  by_contra hn
  rw [available, if_neg hn] at h
  omega

/-! ## Enough nodes with room -/

/-- How many nodes but the pinned one have room. -/
def withRoom (p : Pools) (pool pin : String) (s : Int) : Nat :=
  (p.nodes.keys.filter (· ≠ pin)).countP fun m => s ≤ p.available pool m

/-- The capacity admits a size exactly if the pinned node and enough others have room. -/
theorem le_capacityFor_iff {pool : String} {s : Int} (hs : 0 < s)
    (hreplicas : 0 < replicas) :
    s ≤ p.capacityFor replicas pool pin ↔
      (pin ≠ "" → s ≤ p.available pool pin) ∧ need replicas pin ≤ p.withRoom pool pin s := by
  have hsorted : (p.peers pool pin).Pairwise (· ≥ ·) := List.pairwise_insertionSort _ _
  have hcount : (p.peers pool pin).countP (s ≤ ·) = p.withRoom pool pin s := by
    rw [peers, (List.perm_insertionSort _ _).countP_eq, List.countP_map]
    rfl
  have havail := p.available_nonneg pool pin
  rw [capacityFor, ← hcount]
  split
  · -- No other leg: only the pinned node counts.
    rename_i hneed
    have hpin : pin ≠ "" := fun h => by
      rw [need, if_pos h] at hneed
      omega
    rw [if_neg hpin, hneed]
    simp [hpin]
  · rename_i hneed
    split
    · rename_i hnone
      have hlen : (p.peers pool pin).length ≤ need replicas pin - 1 :=
        List.getElem?_eq_none_iff.mp hnone
      have := List.countP_le_length (p := fun x => decide (s ≤ x)) (l := p.peers pool pin)
      refine iff_of_false (by omega) fun h => ?_
      have := h.2
      omega
    · rename_i peer hpeer
      obtain ⟨hlt, rfl⟩ := List.getElem?_eq_some_iff.mp hpeer
      have hstat := le_getElem_iff hsorted hlt (s := s)
      have hiff : need replicas pin ≤ (p.peers pool pin).countP (s ≤ ·) ↔
          need replicas pin - 1 < (p.peers pool pin).countP (s ≤ ·) := by omega
      rw [hiff, ← hstat]
      by_cases hpin : pin = ""
      · simp [hpin]
      · simp only [hpin, if_false, ne_eq, not_false_eq_true, forall_true_left]
        split
        · rename_i hmin
          simp only [Bool.or_eq_true, decide_eq_true_iff] at hmin
          omega
        · rename_i hmin
          simp only [Bool.or_eq_true, decide_eq_true_iff, not_or] at hmin
          omega

/-- The nodes that can take a leg are those whose room admits the size. -/
theorem Known.length_roomy (h : p.Known req) (hnames : "" ∉ p.nodes.keys)
    (hs : 0 < req.sizeBytes) :
    (p.roomy req []).length = p.withRoom req.pool "" req.sizeBytes := by
  rw [roomy, candidates, List.filter_filter, ← List.countP_eq_length_filter, withRoom,
    List.countP_filter]
  refine List.countP_congr fun m hm => ?_
  have hname : m ≠ "" := fun h => hnames (h ▸ hm)
  simp only [List.not_mem_nil, not_false_eq_true, decide_true, Bool.true_and, Bool.and_eq_true,
    decide_eq_true_iff, Bool.not_eq_true', hname, ne_eq, and_true]
  constructor
  · rintro ⟨hroom, hc⟩
    exact (h.overcommitted_iff hc).mp hroom
  · intro hroom
    have hc := carries_of_available (by exact_mod_cast hs) hroom
    exact ⟨(h.overcommitted_iff hc).mpr hroom, hc⟩

/-! ## Placing -/

/-- The next node of the rotation that carries the pool, from the selected one on. -/
def next (p : Pools) (pool : String) (topology : List String) (n : String) : Option String :=
  (topology.rotate (topology.idxOf n)).find? fun m => p.carries m pool

section Agreement

variable {topology : List String} {m : String}

theorem next_of_carries (h : n ∈ topology) (hn : p.carries n req.pool) :
    p.next req.pool topology n = some n := by
  have hlt := List.idxOf_lt_length_of_mem h
  rw [next, List.rotate_eq_drop_append_take (Nat.le_of_lt hlt), List.drop_eq_getElem_cons hlt,
    List.getElem_idxOf, List.cons_append,
    List.find?_cons_of_pos (p := fun m => p.carries m req.pool) hn]

/-- With the next node pinned a placement succeeds if that has room and enough others have. -/
theorem Known.place_isOk (hknown : p.Known req) (h : p.DelayedBinding req topology n)
    (hsize : 0 < req.sizeBytes) (hreplicas : 0 < req.replicas)
    (hm : p.next req.pool topology n = some m) :
    (∃ legs, p.place req req.replicas [] = .ok legs) ↔
      (req.sizeBytes : Int) ≤ p.available req.pool m ∧
        req.replicas ≤ p.withRoom req.pool "" req.sizeBytes := by
  have hnames : "" ∉ p.nodes.keys := fun hmem => h.named (h.storage hmem)
  have hwanted : p.wanted req [] = some m := by
    rw [wanted, List.find?_append, h.preferred, Option.or_eq_some_iff]
    refine .inl (hm ▸ List.find?_congr fun o ho => ?_)
    have hname : o ≠ "" := fun hempty => h.named (hempty ▸ List.mem_rotate.mp ho)
    simp [hname]
  have hroom := hknown.overcommitted_iff (List.find?_some (p := fun m => p.carries m req.pool) hm)
  rw [Pools.place_isOk hnames hreplicas fun _ => hknown.addresses, ← hroom,
    ← hknown.length_roomy hnames hsize]
  constructor
  · exact fun henough => ⟨henough.pinned m hwanted List.not_mem_nil, henough.nodes⟩
  · rintro ⟨hroom, hnodes⟩
    refine ⟨.inr (.inr (by rw [hwanted]; rfl)), fun o ho _ => ?_, hnodes⟩
    cases hwanted.symm.trans ho
    exact hroom

/-- A node with room is one of those that have it. -/
theorem withRoom_succ {pool : String} {s : Int} (hempty : "" ∉ p.nodes.keys) (hs : 0 < s)
    (hroom : s ≤ p.available pool m) :
    p.withRoom pool "" s = p.withRoom pool m s + 1 := by
  have hall : p.nodes.keys.filter (· ≠ "") = p.nodes.keys :=
    List.filter_eq_self.mpr fun o ho => by simpa using fun h : o = "" => hempty (h ▸ ho)
  have hm := mem_keys_of_carries (carries_of_available hs hroom)
  have hnodup : p.nodes.keys.Nodup := p.nodes.nodupKeys
  rw [withRoom, withRoom, hall, filter_ne_eq_erase hnodup, (List.perm_cons_erase hm).countP_eq,
    List.countP_cons_of_pos (by simpa using hroom)]

/-- With a node that does not carry the pool selected, and enough nodes with room, the next node
that carries it has room exactly if the class allows remote access. -/
def Agreeable (p : Pools) (req : CreateRequest) (topology : List String) (n : String) : Prop :=
  p.carries n req.pool = false → req.replicas ≤ p.withRoom req.pool "" req.sizeBytes →
    ∀ m, p.next req.pool topology n = some m →
      (req.remoteAccess = true ↔ (req.sizeBytes : Int) ≤ p.available req.pool m)

/-- For every topology with known figures and resolvable addresses, every set of volumes, class,
size and node: the capacity advertised for the node admits the size exactly if a volume of that size
can be placed with the node selected, if and only if the node carries the class's pool or the next
one that does happens to agree. -/
theorem capacity_agrees_iff (hknown : p.Known req) (hbinding : p.DelayedBinding req topology n)
    (hsize : 0 < req.sizeBytes) (hreplicas : 0 < req.replicas) :
    p.Agreeable req topology n ↔
      ((req.sizeBytes : Int) ≤ p.getCapacity req.replicas req.remoteAccess req.pool (some n) ↔
        ∃ legs, p.place req req.replicas [] = .ok legs) := by
  have hs : (0 : Int) < req.sizeBytes := by exact_mod_cast hsize
  have hname : n ≠ "" := fun hempty => hbinding.named (hempty ▸ hbinding.selected)
  have hnames : "" ∉ p.nodes.keys := fun hmem => hbinding.named (hbinding.storage hmem)
  rw [getCapacity, Agreeable]
  cases hn : p.carries n req.pool with
  | true =>
    rw [hknown.place_isOk hbinding hsize hreplicas (next_of_carries hbinding.selected hn),
      if_pos rfl, le_capacityFor_iff hs hreplicas, need, if_neg hname]
    refine iff_of_true nofun ⟨fun ⟨hroom, hpeers⟩ => ⟨hroom hname, ?_⟩,
      fun ⟨hroom, hall⟩ => ⟨fun _ => hroom, ?_⟩⟩
    · rw [withRoom_succ hnames hs (hroom hname)]
      omega
    · rw [withRoom_succ hnames hs hroom] at hall
      omega
  | false =>
    have hcapacity : ((req.sizeBytes : Int) ≤ if req.remoteAccess then
          p.capacityFor req.replicas req.pool "" else 0) ↔
        req.remoteAccess = true ∧ req.replicas ≤ p.withRoom req.pool "" req.sizeBytes := by
      cases req.remoteAccess with
      | true => simp [le_capacityFor_iff hs hreplicas, need]
      | false => simp [hsize.ne']
    rw [if_neg Bool.false_ne_true, hcapacity]
    cases hnext : p.next req.pool topology n with
    | none =>
      have hnone (m : String) : ¬p.carries m req.pool := fun hc =>
        List.find?_eq_none.mp hnext m
          (List.mem_rotate.mpr (hbinding.storage (mem_keys_of_carries hc))) hc
      refine iff_of_true nofun (iff_of_false (fun h => ?_) fun ⟨legs, hlegs⟩ => ?_)
      · obtain ⟨m, -, hroom⟩ := List.countP_pos_iff.mp (Nat.lt_of_lt_of_le hreplicas h.2)
        exact hnone m (carries_of_available hs (by simpa using hroom))
      · obtain ⟨hlen, -, hplaced⟩ := place_spec hlegs
        obtain ⟨leg, hleg⟩ := List.exists_mem_of_length_pos (hlen ▸ hreplicas)
        exact hnone leg.node (hplaced leg hleg).carries
    | some m =>
      rw [hknown.place_isOk hbinding hsize hreplicas hnext, and_congr_left_iff]
      simp

end Agreement

/-! ## Selected nodes without the pool -/

/-- Storage nodes "a", "b" and "d" with a pool of 100 bytes each. -/
def threePools (vols : List MiroirVolume) : Pools where
  nodes := ["a", "b", "d"].foldr (fun n m => m.insert n
    { address := "10.0.0." ++ n, pools := AList.singleton "default" { backend := .lvmthin } }) ∅
  ips n := .error (.getNode n)
  stats := poolStats (1000 * second) (["a", "b", "d"].map fun n =>
    { name := n, observedAt := some 1000, pools := AList.singleton "default" ⟨100, 0⟩ })
  vols := vols
  overcommit := ⟨id, "1"⟩
  freeSpace := ⟨id, "1"⟩

/-- A volume that fills the pool of "d". -/
def fillsD : MiroirVolume where
  name := "old"
  spec :=
    { sizeBytes := 100
      replicas := [{ node := "d", pool := "default", nodeID := 0 }]
      drbd := false
      drbdSpec := { port := 0 } }

/-- A new volume of 10 bytes with a node selected, "c" being one without storage. -/
def selecting (n : String) (replicas : Nat) (remoteAccess : Bool) : CreateRequest where
  name := "new"
  sizeBytes := 10
  replicas := replicas
  quorum := .freeze
  remoteAccess := remoteAccess
  preferred := ["a", "b", "c", "d"].rotate (["a", "b", "c", "d"].idxOf n)
  requisite := ["a", "b", "c", "d"]

theorem threePools_known {vols : List MiroirVolume} {remoteAccess : Bool}
    (hvols : ∀ v ∈ vols, v.name ≠ "new" ∧ v.name ≠ "") :
    (threePools vols).Known (selecting n replicas remoteAccess) := by
  have hkeys {m : String} (hm : (threePools vols).carries m "default") :
      m = "a" ∨ m = "b" ∨ m = "d" := by
    simpa [threePools] using mem_keys_of_carries hm
  refine ⟨fun m hm => ?_, fun m hm => ?_, hvols⟩
  · rcases hkeys hm with rfl | rfl | rfl <;> rfl
  · rcases hkeys hm with rfl | rfl | rfl <;> rfl

theorem selecting_binding {vols : List MiroirVolume} {remoteAccess : Bool}
    (hn : n ∈ ["a", "b", "c", "d"]) :
    (threePools vols).DelayedBinding (selecting n replicas remoteAccess) ["a", "b", "c", "d"] n :=
  ⟨by decide, hn, fun m hm => by simp [threePools] at hm ⊢; tauto, rfl, rfl⟩

/-- With "a" selected a second leg goes to "b" or "d": both sides agree on 10 bytes. -/
theorem capacity_agrees_selectedA :
    10 ≤ (threePools [fillsD]).getCapacity 2 true "default" (some "a") ↔
      ∃ legs, (threePools [fillsD]).place (selecting "a" 2 true) 2 [] = .ok legs :=
  (capacity_agrees_iff (threePools_known (by decide)) (selecting_binding (by decide)) (by decide)
    (by decide)).mp (by intro h; cases h)

/-- The selected node "c" has no pool. For a class without remote access its capacity is 0, but the
placement succeeds, pinned to the next node "d". For a class with remote access there is room for
two legs on "a" and "b", but the placement is pinned to "d", which is full. -/
theorem rotation_pins_another_node :
    ((threePools []).Known (selecting "c" 1 false) ∧
      (threePools []).DelayedBinding (selecting "c" 1 false) ["a", "b", "c", "d"] "c" ∧
      (threePools []).getCapacity 1 false "default" (some "c") = 0 ∧
      (threePools []).place (selecting "c" 1 false) 1 [] =
        .ok [{ node := "d", pool := "default" }]) ∧
    (threePools [fillsD]).Known (selecting "c" 2 true) ∧
      (threePools [fillsD]).DelayedBinding (selecting "c" 2 true) ["a", "b", "c", "d"] "c" ∧
      (threePools [fillsD]).getCapacity 2 true "default" (some "c") = 100 ∧
      (threePools [fillsD]).place (selecting "c" 2 true) 2 [] =
        .error ((threePools [fillsD]).noRoomOn (selecting "c" 2 true) "d") := by
  refine ⟨⟨threePools_known (by decide), selecting_binding (by decide), by decide +kernel,
    by decide +kernel⟩, threePools_known (by decide), selecting_binding (by decide),
    by decide +kernel, rfl⟩

end Pools

end Miroir
