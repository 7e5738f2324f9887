import Miroir.Controller.Edits

/-!
# What an edit may do to a replicated spec

`Sound` are the rules of the CRD on the legs of a replicated volume, `DistinctIDs` says that no two
completed legs have one id, and `Legal old new` that `new` is sound, may replace `old` under the
transition rules, and that a leg which it completes takes the lowest free id.
-/

namespace Miroir

open Data

/-! ## Spare nodes -/

variable {m : NodeMap} {spec : VolumeSpec} {self : String}

/-- The first element of a sorted list that satisfies `p` is the least that does. -/
theorem find?_eq_some_iff_least {α : Type*} {r : α → α → Prop} [Std.Refl r] [Std.Antisymm r]
    {l : List α} (hl : l.Pairwise r) {p : α → Bool} {a : α} :
    l.find? p = some a ↔ a ∈ l ∧ p a ∧ ∀ b ∈ l, p b → r a b := by
  induction l with
  | nil => simp
  | cons x l ih =>
    obtain ⟨hx, hl⟩ := List.pairwise_cons.mp hl
    cases hp : p x with
    | false =>
      rw [List.find?_cons_of_neg (by simp [hp]), ih hl]
      simp only [List.mem_cons, forall_eq_or_imp, hp, Bool.false_eq_true, false_imp_iff, true_and]
      refine and_congr_left fun h => ⟨.inr, fun hmem => hmem.resolve_left ?_⟩
      rintro rfl
      simp [hp] at h
    | true =>
      rw [List.find?_cons_of_pos hp, Option.some.injEq]
      constructor
      · rintro rfl
        exact ⟨.head _, hp, fun b hb _ => (List.mem_cons.mp hb).elim (· ▸ refl_of r b) (hx b)⟩
      · rintro ⟨hmem, -, hle⟩
        rcases List.mem_cons.mp hmem with rfl | hmem
        · rfl
        · exact antisymm_of r (hx a hmem) (hle x (.head _) hp)

namespace NodeMap

/-- The zones of some replicas. -/
def zonesOf (m : NodeMap) (replicas : List Replica) : List String :=
  (replicas.map fun rep => m.zone rep.node).filter (· ≠ "")

/-- The node is in none of the zones. -/
def zoneFree (m : NodeMap) (zones : List String) (n : String) : Bool :=
  m.zone n = "" || m.zone n ∉ zones

/-- A node of the topology that may take a new leg. -/
structure Spare (m : NodeMap) (spec : VolumeSpec) (keep : String → Bool) (n : String) : Prop where
  node : n ∈ m.keys
  noLeg : hasLegOn spec n = false
  placeable : m.placeable n
  keep : keep n

/-- The spare node that comes first: one in a free zone before any other, then by name. -/
structure FirstSpare (m : NodeMap) (spec : VolumeSpec) (keep : String → Bool)
    (zones : List String) (n : String) : Prop where
  spare : m.Spare spec keep n
  zone : m.zoneFree zones n ∨ ∀ o, m.Spare spec keep o → m.zoneFree zones o = false
  least : ∀ o, m.Spare spec keep o → (m.zoneFree zones n → m.zoneFree zones o) → n ≤ o

/-- `pickSpare` picks the first spare node. -/
theorem pickSpare_eq_iff {used zones : List String} {keep : String → Bool} {n : String}
    (hused : ∀ n, n ∈ used ↔ hasLegOn spec n) (hn : n ≠ "") :
    m.pickSpare used zones keep = n ↔ m.FirstSpare spec keep zones n := by
  rw [pickSpare]
  have hmem (o : String) : o ∈ (m.keys.filter fun n => n ∉ used && m.placeable n &&
      keep n).insertionSort (· ≤ ·) ↔ m.Spare spec keep o := by
    simp only [List.mem_insertionSort, List.mem_filter, Bool.and_eq_true, decide_eq_true_iff, hused,
      Bool.not_eq_true]
    exact ⟨fun ⟨h₁, ⟨h₂, h₃⟩, h₄⟩ => ⟨h₁, h₂, h₃, h₄⟩,
      fun ⟨h₁, h₂, h₃, h₄⟩ => ⟨h₁, ⟨h₂, h₃⟩, h₄⟩⟩
  have hsorted := List.pairwise_insertionSort (· ≤ ·)
    (m.keys.filter fun n => n ∉ used && m.placeable n && keep n)
  generalize (m.keys.filter fun n => n ∉ used && m.placeable n && keep n).insertionSort
    (· ≤ ·) = spare at hmem hsorted
  have hfind (p : String → Bool) (a : String) := find?_eq_some_iff_least hsorted (p := p) (a := a)
  simp only [hmem] at hfind
  have hhead : spare.head? = spare.find? fun _ => true := by cases spare <;> rfl
  change ((spare.find? (m.zoneFree zones)).orElse fun _ => spare.head?).getD "" = n ↔ _
  cases hfree : spare.find? (m.zoneFree zones) with
  | some a =>
    obtain ⟨ha, hza, hle⟩ := (hfind _ a).mp hfree
    change a = n ↔ _
    constructor
    · rintro rfl
      exact ⟨ha, .inl hza, fun o ho hz => hle o ho (hz hza)⟩
    · intro h
      have hzn := h.zone.resolve_right fun hnone => by simp [hnone a ha] at hza
      exact Option.some.inj (hfree.symm.trans
        ((hfind _ n).mpr ⟨h.spare, hzn, fun o ho hz => h.least o ho fun _ => hz⟩))
  | none =>
    have hnone (o : String) (ho : m.Spare spec keep o) : m.zoneFree zones o = false := by
      simpa using List.find?_eq_none.mp hfree o ((hmem o).mpr ho)
    rw [Option.orElse_none, hhead]
    have hiff : (spare.find? fun _ => true) = some n ↔ m.FirstSpare spec keep zones n := by
      rw [hfind]
      exact ⟨fun ⟨h, _, hle⟩ => ⟨h, .inr hnone, fun o ho _ => hle o ho rfl⟩,
        fun h => ⟨h.spare, rfl, fun o ho _ => h.least o ho fun hz => by
          simp [hnone n h.spare] at hz⟩⟩
    rw [← hiff]
    cases spare.find? fun _ => true with
    | some a => simp
    | none => simpa using hn.symm

end NodeMap

theorem tieBreakerNode_eq_iff {n : String} (hn : n ≠ "") :
    m.tieBreakerNode (legsAsReplicas spec) = n ↔
      m.FirstSpare spec (fun _ => true) (m.zonesOf (legsAsReplicas spec)) n :=
  NodeMap.pickSpare_eq_iff (fun n => by
    rw [hasLegOn_iff, ← List.mem_append]
    simp [legsAsReplicas, Function.comp_def]) hn

theorem replacementNode_eq_iff {dead n : String} {fits : String → Bool} (hn : n ≠ "") :
    AutoEvict.replacementNode m spec dead fits = n ↔
      m.FirstSpare spec fits (m.zonesOf (spec.replicas.filter fun rep => rep.node ≠ dead)) n :=
  NodeMap.pickSpare_eq_iff (fun n => by rw [hasLegOn_iff, ← List.mem_append]) hn

/-! ## Completed legs -/

/-- The node's leg is completed, under the id. -/
def VolumeSpec.Holds (spec : VolumeSpec) (node : String) (id : Nat) : Prop :=
  (∃ rep ∈ spec.replicas, rep.address ≠ "" ∧ rep.node = node ∧ rep.nodeID = id) ∨
    ∃ cl ∈ spec.clients, cl.address ≠ "" ∧ cl.node = node ∧ cl.nodeID = id

theorem mem_completedIDs {id : Nat} :
    id ∈ spec.completedIDs ↔ ∃ node, spec.Holds node id := by
  simp only [VolumeSpec.completedIDs, VolumeSpec.peers, List.map_append, List.map_map,
    List.mem_append, List.mem_map, List.mem_filter, Function.comp_apply, VolumeSpec.Holds,
    decide_eq_true_iff, exists_or]
  constructor
  · rintro (⟨rep, ⟨hmem, ha⟩, rfl⟩ | ⟨cl, ⟨hmem, ha⟩, rfl⟩)
    · exact .inl ⟨rep.node, rep, hmem, ha, rfl, rfl⟩
    · exact .inr ⟨cl.node, cl, hmem, ha, rfl, rfl⟩
  · rintro (⟨-, rep, hmem, ha, -, rfl⟩ | ⟨-, cl, hmem, ha, -, rfl⟩)
    · exact .inl ⟨rep, ⟨hmem, ha⟩, rfl⟩
    · exact .inr ⟨cl, ⟨hmem, ha⟩, rfl⟩

/-- No two nodes hold one id. -/
def DistinctIDs (spec : VolumeSpec) : Prop :=
  ∀ n m id, spec.Holds n id → spec.Holds m id → n = m

/-! ## Soundness -/

/-- The rules on the number, the order and the nodes of the legs. -/
structure Shape (spec : VolumeSpec) : Prop where
  count_ge : 2 ≤ spec.replicas.length
  count_le : spec.replicas.length ≤ 3
  diskful : 2 ≤ spec.diskfulReplicas.length
  first : ∀ rep, spec.replicas.head? = some rep → rep.diskless = false
  clients_le : spec.clients.length ≤ 2
  apart : ∀ cl ∈ spec.clients, ∀ rep ∈ spec.replicas, rep.node ≠ cl.node
  nodes : (spec.replicas.map Replica.node).Nodup
  clientNodes : (spec.clients.map VolumeClient.node).Nodup

/-- The rules of the CRD on the legs of a replicated volume. -/
structure Sound (spec : VolumeSpec) : Prop extends Shape spec where
  onePool : ∀ rep ∈ spec.completedDiskful, ∀ o ∈ spec.completedDiskful, samePool rep o = true

theorem admitted_iff (hd : spec.drbd) :
    spec.admitted ↔ 1 ≤ spec.sizeBytes ∧ Sound spec := by
  have hpools : (spec.diskfulReplicas.all fun rep => rep.address = "" ||
      spec.diskfulReplicas.all fun other => other.address = "" || samePool rep other) ↔
      ∀ rep ∈ spec.completedDiskful, ∀ o ∈ spec.completedDiskful, samePool rep o := by
    simp only [VolumeSpec.diskfulReplicas, List.all_eq_true, List.mem_filter, Bool.or_eq_true,
      decide_eq_true_iff, mem_completedDiskful, Bool.not_eq_true']
    constructor
    · intro h rep hrep o ho
      exact ((h rep ⟨hrep.1, hrep.2.1⟩).resolve_left hrep.2.2 o ⟨ho.1, ho.2.1⟩).resolve_left
        ho.2.2
    · intro h rep hrep
      by_cases ha : rep.address = ""
      · exact .inl ha
      · refine .inr fun o ho => ?_
        by_cases hoa : o.address = ""
        · exact .inl hoa
        · exact .inr (h rep ⟨hrep.1, hrep.2, ha⟩ o ⟨ho.1, ho.2, hoa⟩)
  have hfirst : spec.replicas.head?.all (fun rep => !rep.diskless) ↔
      ∀ rep, spec.replicas.head? = some rep → rep.diskless = false := by
    cases spec.replicas.head? <;> simp
  have hapart : (spec.clients.all fun cl => !spec.replicas.any fun rep => rep.node = cl.node)
      ↔ ∀ cl ∈ spec.clients, ∀ rep ∈ spec.replicas, rep.node ≠ cl.node := by
    simp
  simp only [VolumeSpec.admitted, hd, Bool.and_eq_true, decide_eq_true_iff, if_true, hpools, hfirst,
    hapart, Bool.not_true, Bool.false_or, Bool.true_or, Bool.or_true, and_true]
  constructor
  · rintro ⟨⟨⟨⟨⟨⟨⟨⟨hsize, hcl⟩, hge, hle⟩, hdisk⟩, hf⟩, hp⟩, ha⟩, hn⟩, hcn⟩
    exact ⟨hsize, ⟨hge, hle, hdisk, hf, hcl, ha, hn, hcn⟩, hp⟩
  · rintro ⟨hsize, ⟨hge, hle, hdisk, hf, hcl, ha, hn, hcn⟩, hp⟩
    exact ⟨⟨⟨⟨⟨⟨⟨⟨hsize, hcl⟩, hge, hle⟩, hdisk⟩, hf⟩, hp⟩, ha⟩, hn⟩, hcn⟩

section

variable {spec : VolumeSpec}

theorem Sound.eq_of_node (h : Sound spec) {o rep : Replica} (ho : o ∈ spec.replicas)
    (hrep : rep ∈ spec.replicas) (hn : o.node = rep.node) : o = rep :=
  List.inj_on_of_nodup_map h.nodes ho hrep hn

theorem Sound.eq_of_clientNode (h : Sound spec) {o cl : VolumeClient} (ho : o ∈ spec.clients)
    (hcl : cl ∈ spec.clients) (hn : o.node = cl.node) : o = cl :=
  List.inj_on_of_nodup_map h.clientNodes ho hcl hn

/-- A node's leg has one id. -/
theorem Sound.holds_unique (h : Sound spec) {n : String} {i j : Nat} (hi : spec.Holds n i)
    (hj : spec.Holds n j) : i = j := by
  rcases hi with ⟨rep, hrep, -, rfl, rfl⟩ | ⟨cl, hcl, -, rfl, rfl⟩
  · rcases hj with ⟨o, ho, -, hn, rfl⟩ | ⟨o, ho, -, hn, -⟩
    · rw [h.eq_of_node ho hrep hn]
    · exact absurd hn.symm (h.apart o ho rep hrep)
  · rcases hj with ⟨o, ho, -, hn, -⟩ | ⟨o, ho, -, hn, rfl⟩
    · exact absurd hn (h.apart cl hcl o ho)
    · rw [h.eq_of_clientNode ho hcl hn]

theorem poolOrDefault_ne_empty (pool : String) : poolOrDefault pool ≠ "" := by
  rw [poolOrDefault]
  split
  · decide
  · assumption

theorem poolOrDefault_idem (pool : String) :
    poolOrDefault (poolOrDefault pool) = poolOrDefault pool := by
  conv_lhs => rw [poolOrDefault]
  rw [if_neg (poolOrDefault_ne_empty pool)]

theorem poolOrDefault_volumePool (spec : VolumeSpec) :
    poolOrDefault (volumePool spec) = volumePool spec := by
  rw [volumePool]
  cases (spec.replicas.find? fun rep => !rep.diskless && rep.address ≠ "").orElse
      fun _ => spec.firstDiskful with
  | none => exact poolOrDefault_idem ""
  | some rep => exact poolOrDefault_idem rep.pool

/-- Every completed diskful leg is in the volume's pool. -/
theorem pool_eq_volumePool
    (h : ∀ rep ∈ spec.completedDiskful, ∀ o ∈ spec.completedDiskful, samePool rep o)
    {rep : Replica} (hrep : rep ∈ spec.completedDiskful) :
    poolOrDefault rep.pool = volumePool spec := by
  have hfound : (spec.replicas.find? fun rep => !rep.diskless && rep.address ≠ "").isSome := by
    obtain ⟨hmem, hp⟩ := List.mem_filter.mp hrep
    exact List.find?_isSome.mpr ⟨rep, hmem, hp⟩
  obtain ⟨o, ho⟩ := Option.isSome_iff_exists.mp hfound
  have hmem : o ∈ spec.completedDiskful :=
    List.mem_filter.mpr ⟨List.mem_of_find?_eq_some ho, by simpa using List.find?_some ho⟩
  rw [volumePool, ho]
  exact of_decide_eq_true (h rep hrep o hmem)

theorem onePool_of_eq (pool : String)
    (h : ∀ rep ∈ spec.completedDiskful, poolOrDefault rep.pool = pool) :
    ∀ rep ∈ spec.completedDiskful, ∀ o ∈ spec.completedDiskful, samePool rep o :=
  fun rep hrep o ho => decide_eq_true ((h rep hrep).trans (h o ho).symm)

end

/-! ## Legal edits -/

/-- The entry `rep` may stand where `o` stood. -/
def Succeeds (o rep : Replica) : Prop :=
  o.node = rep.node ∧ (o.diskless = true ∨
    rep.diskless = false ∧ (o.address ≠ "" → rep.address ≠ "" ∧ samePool o rep = true))

theorem Succeeds.refl (rep : Replica) : Succeeds rep rep := by
  refine ⟨rfl, ?_⟩
  cases rep.diskless
  · exact .inr ⟨rfl, fun ha => ⟨ha, by simp [samePool]⟩⟩
  · exact .inl rfl

theorem Succeeds.trans {o m rep : Replica} (h : Succeeds o m) (h' : Succeeds m rep) :
    Succeeds o rep := by
  refine ⟨h.1.trans h'.1, h.2.imp_right fun ⟨hm, hpool⟩ => ?_⟩
  obtain ⟨hrep, hpool'⟩ := h'.2.resolve_left (by simp [hm])
  refine ⟨hrep, fun ha => ?_⟩
  obtain ⟨hma, hom⟩ := hpool ha
  obtain ⟨hra, hmr⟩ := hpool' hma
  exact ⟨hra, decide_eq_true ((of_decide_eq_true hom).trans (of_decide_eq_true hmr))⟩

/-- The node's leg was not completed in `old`, and in `new` it has the lowest id that no other leg
holds: one of the five that a volume's legs can need. -/
structure FreshID (old new : VolumeSpec) (n : String) (id : Nat) : Prop where
  absent : ∀ j, ¬old.Holds n j
  free : ∀ m, ¬old.Holds m id
  lowest : ∀ j < id, ∃ m ≠ n, new.Holds m j
  lt : id < 5

/-- `new` is sound and may replace `old`. -/
structure Legal (old new : VolumeSpec) : Prop where
  sound : Sound new
  distinct : DistinctIDs new
  succeeds : ∀ rep ∈ new.replicas,
    (∃ o ∈ old.replicas, Succeeds o rep) ∨ ∀ o ∈ old.replicas, o.node ≠ rep.node
  fresh : ∀ n id, new.Holds n id → old.Holds n id ∨ FreshID old new n id

section

variable {old new : VolumeSpec}

/-- An edit that completes no leg. -/
theorem Legal.of_holds (hd : DistinctIDs old) (hs : Sound new)
    (hholds : ∀ n id, new.Holds n id → old.Holds n id)
    (hsucc : ∀ rep ∈ new.replicas,
      (∃ o ∈ old.replicas, Succeeds o rep) ∨ ∀ o ∈ old.replicas, o.node ≠ rep.node) :
    Legal old new where
  sound := hs
  distinct n m id hn hm := hd n m id (hholds n id hn) (hholds m id hm)
  succeeds := hsucc
  fresh n id hn := .inl (hholds n id hn)

theorem Legal.refl (h : Sound old) (hd : DistinctIDs old) : Legal old old :=
  .of_holds hd h (fun _ _ => id) fun rep hrep => .inl ⟨rep, hrep, .refl rep⟩

/-- Only the legs matter. -/
theorem Legal.of_legs (h : Legal old new) {spec : VolumeSpec} (hr : spec.replicas = new.replicas)
    (hc : spec.clients = new.clients) : Legal old spec := by
  obtain ⟨size, replicas, clients, drbd, source⟩ := spec
  subst hr hc
  exact ⟨⟨⟨h.sound.count_ge, h.sound.count_le, h.sound.diskful, h.sound.first, h.sound.clients_le,
    h.sound.apart, h.sound.nodes, h.sound.clientNodes⟩, h.sound.onePool⟩, h.distinct, h.succeeds,
    fun n id hn => (h.fresh n id hn).imp_right fun hf => ⟨hf.absent, hf.free, hf.lowest, hf.lt⟩⟩

/-- A legal edit meets the transition rules on entries. -/
theorem Legal.keeps (ho : Sound old) (h : Legal old new) :
    keepsDisks old new ∧ keepsPools old new := by
  simp only [keepsDisks, keepsPools, List.all_eq_true, Bool.or_eq_true, decide_eq_true_iff,
    Bool.not_eq_true']
  have hsucc : ∀ rep ∈ new.replicas, ∀ o ∈ old.replicas, o.node ≠ rep.node ∨ Succeeds o rep := by
    intro rep hrep o ho'
    rcases h.succeeds rep hrep with ⟨o', ho'', hs⟩ | hnew
    · by_cases hn : o.node = rep.node
      · exact .inr (ho.eq_of_node ho' ho'' (hn.trans hs.1.symm) ▸ hs)
      · exact .inl hn
    · exact .inl (hnew o ho')
  constructor
  · intro rep hrep o ho'
    rcases hsucc rep hrep o ho' with hn | ⟨-, hd | ⟨hd, -⟩⟩
    exacts [.inl (.inl hn), .inl (.inr hd), .inr hd]
  · intro rep hrep o ho'
    rcases hsucc rep hrep o ho' with hn | ⟨-, hd | ⟨-, hp⟩⟩
    · exact .inl (.inl (.inl hn))
    · exact .inl (.inl (.inr hd))
    · by_cases ha : o.address = ""
      exacts [.inl (.inr ha), .inr (hp ha).2]

theorem Legal.ids (h : Legal old new) {id : Nat} (hid : id ∈ new.completedIDs) :
    id < 5 ∨ id ∈ old.completedIDs := by
  obtain ⟨n, hn⟩ := mem_completedIDs.mp hid
  exact (h.fresh n id hn).symm.imp FreshID.lt fun hn => mem_completedIDs.mpr ⟨n, hn⟩

/-- Completions compose: both edits keep the completed legs, and the first one the nodes. -/
theorem Legal.trans {mid : VolumeSpec} (h : Legal old mid) (h' : Legal mid new)
    (hnodes : mid.replicas.map Replica.node = old.replicas.map Replica.node)
    (hold : ∀ n id, old.Holds n id → mid.Holds n id)
    (hmid : ∀ n id, mid.Holds n id → new.Holds n id) : Legal old new where
  sound := h'.sound
  distinct := h'.distinct
  succeeds rep hrep := by
    have hnew : ∀ n, (∀ m ∈ mid.replicas, m.node ≠ n) → ∀ o ∈ old.replicas, o.node ≠ n := by
      intro n hm o ho hn
      have hmem : o.node ∈ mid.replicas.map Replica.node := hnodes ▸ List.mem_map_of_mem ho
      obtain ⟨m, hmem, hmn⟩ := List.mem_map.mp hmem
      exact hm m hmem (hmn.trans hn)
    rcases h'.succeeds rep hrep with ⟨m, hm, hs⟩ | hm
    · rcases h.succeeds m hm with ⟨o, ho, ho'⟩ | ho
      · exact .inl ⟨o, ho, ho'.trans hs⟩
      · exact .inr fun o ho' hn => ho o ho' (hn.trans hs.1.symm)
    · exact .inr (hnew rep.node hm)
  fresh n id hn := by
    rcases h'.fresh n id hn with hn | hf
    · refine (h.fresh n id hn).imp_right fun hf => ⟨hf.absent, hf.free, fun j hj => ?_, hf.lt⟩
      obtain ⟨m, hm, hj⟩ := hf.lowest j hj
      exact ⟨m, hm, hmid m j hj⟩
    · exact .inr ⟨fun j hj => hf.absent j (hold n j hj), fun m hm => hf.free m (hold m id hm),
        hf.lowest, hf.lt⟩

end

/-! ## Ids of completed legs -/

section

variable {spec : VolumeSpec}

theorem holds_iff_peer {n : String} {id : Nat} :
    spec.Holds n id ↔ ∃ p ∈ spec.peers, p.node = n ∧ p.nodeID = id := by
  simp only [VolumeSpec.Holds, VolumeSpec.peers, List.mem_append, List.mem_map, List.mem_filter,
    decide_eq_true_iff]
  constructor
  · rintro (⟨rep, hrep, ha, hn, hid⟩ | ⟨cl, hcl, ha, hn, hid⟩)
    · exact ⟨_, .inl ⟨rep, ⟨hrep, ha⟩, rfl⟩, hn, hid⟩
    · exact ⟨_, .inr ⟨cl, ⟨hcl, ha⟩, rfl⟩, hn, hid⟩
  · rintro ⟨-, ⟨rep, ⟨hrep, ha⟩, rfl⟩ | ⟨cl, ⟨hcl, ha⟩, rfl⟩, hn, hid⟩
    · exact .inl ⟨rep, hrep, ha, hn, hid⟩
    · exact .inr ⟨cl, hcl, ha, hn, hid⟩

/-- The completed legs of a sound spec are on different nodes. -/
theorem Sound.nodup_peers (h : Sound spec) : (spec.peers.map Peer.node).Nodup := by
  simp only [VolumeSpec.peers, List.map_append, List.map_map, Function.comp_def]
  refine List.Nodup.append (h.nodes.sublist (List.filter_sublist.map _))
    (h.clientNodes.sublist (List.filter_sublist.map _)) fun n hn hcl => ?_
  obtain ⟨rep, hrep, rfl⟩ := List.mem_map.mp hn
  obtain ⟨cl, hcl, hnode⟩ := List.mem_map.mp hcl
  exact h.apart cl (List.mem_filter.mp hcl).1 rep (List.mem_filter.mp hrep).1 hnode.symm

theorem Sound.distinctIDs_iff (h : Sound spec) :
    DistinctIDs spec ↔ spec.completedIDs.Nodup := by
  constructor
  · intro hd
    refine h.nodup_peers.of_map.map_on fun p hp q hq hid => ?_
    refine List.inj_on_of_nodup_map h.nodup_peers hp hq ?_
    exact hd p.node q.node p.nodeID (holds_iff_peer.mpr ⟨p, hp, rfl, rfl⟩)
      (holds_iff_peer.mpr ⟨q, hq, rfl, hid.symm⟩)
  · intro hd n m id hn hm
    obtain ⟨p, hp, rfl, rfl⟩ := holds_iff_peer.mp hn
    obtain ⟨q, hq, rfl, hid⟩ := holds_iff_peer.mp hm
    rw [List.inj_on_of_nodup_map hd hp hq hid.symm]

end

/-! ## Completing an entry -/

/-- What `complete` leaves of an entry. -/
structure FilledIn (spec : VolumeSpec) (rep filled : Replica) : Prop where
  node : filled.node = rep.node
  diskless : filled.diskless = rep.diskless
  address : filled.address ≠ ""
  nodeID : filled.nodeID = nextNodeID spec rep.node
  pool : rep.diskless = false → filled.pool = volumePool spec

theorem filledIn_of_complete {nodes : NodeMap} {ips : InternalIPs}
    {rep filled : Replica} (h : complete nodes ips spec rep = .ok filled) :
    FilledIn spec rep filled := by
  obtain ⟨-, -, h⟩ := bind_eq_ok.mp h
  obtain ⟨address, -, h⟩ := bind_eq_ok.mp h
  rw [← Except.ok.inj h]
  split
  · rename_i hd
    exact ⟨rfl, rfl, address.2, rfl, fun hf => absurd hd (by simpa using hf)⟩
  · exact ⟨rfl, rfl, address.2, rfl, fun _ => rfl⟩

/-- The id of a completed entry is held by no other node. -/
theorem not_holds_nextNodeID {n : String} (hn : n ≠ self) :
    ¬spec.Holds n (nextNodeID spec self) := by
  intro h
  suffices hmem : nextNodeID spec self ∈ idsInUse spec self from firstFree_not_mem hmem
  rw [idsInUse, List.mem_append]
  rcases h with ⟨rep, hrep, ha, rfl, hid⟩ | ⟨cl, hcl, ha, rfl, hid⟩
  · exact .inl (List.mem_map.mpr ⟨rep, List.mem_filter.mpr ⟨hrep, by simp [hn, ha]⟩, hid⟩)
  · exact .inr (List.mem_map.mpr ⟨cl, List.mem_filter.mpr ⟨hcl, by simp [hn, ha]⟩, hid⟩)

theorem holds_of_lt_nextNodeID {id : Nat}
    (hid : id < nextNodeID spec self) : ∃ n ≠ self, spec.Holds n id := by
  have hmem := (firstFree_spec 0 (idsInUse spec self)).2.2 id (Nat.zero_le _) hid
  rcases List.mem_append.mp hmem with hmem | hmem
  · obtain ⟨rep, hrep, rfl⟩ := List.mem_map.mp hmem
    obtain ⟨hrep, hp⟩ := List.mem_filter.mp hrep
    simp only [Bool.and_eq_true, decide_eq_true_iff] at hp
    exact ⟨rep.node, hp.1, .inl ⟨rep, hrep, hp.2, rfl, rfl⟩⟩
  · obtain ⟨cl, hcl, rfl⟩ := List.mem_map.mp hmem
    obtain ⟨hcl, hp⟩ := List.mem_filter.mp hcl
    simp only [Bool.and_eq_true, decide_eq_true_iff] at hp
    exact ⟨cl.node, hp.1, .inr ⟨cl, hcl, hp.2, rfl, rfl⟩⟩

/-- Five ids are enough for the legs of a volume. -/
theorem nextNodeID_lt (h : Sound spec)
    (hself : hasLegOn spec self) : nextNodeID spec self < 5 := by
  have hreps := List.length_filter_le (fun rep : Replica => rep.node ≠ self && rep.address ≠ "")
    spec.replicas
  have hcls := List.length_filter_le (fun cl : VolumeClient => cl.node ≠ self && cl.address ≠ "")
    spec.clients
  have hle : (idsInUse spec self).length ≤ 4 := by
    rw [idsInUse, List.length_append, List.length_map, List.length_map]
    have hr := h.count_le
    have hc := h.clients_le
    rcases hasLegOn_iff.mp hself with hmem | hmem
    · obtain ⟨rep, hrep, hn⟩ := List.mem_map.mp hmem
      have hlt := List.length_filter_lt_length_iff_exists.mpr
        (⟨rep, hrep, by simp [hn]⟩ : ∃ rep ∈ spec.replicas,
          ¬(rep.node ≠ self && rep.address ≠ ""))
      omega
    · obtain ⟨cl, hcl, hn⟩ := List.mem_map.mp hmem
      have hlt := List.length_filter_lt_length_iff_exists.mpr
        (⟨cl, hcl, by simp [hn]⟩ : ∃ cl ∈ spec.clients,
          ¬(cl.node ≠ self && cl.address ≠ ""))
      omega
  have hfree : nextNodeID spec self ≤ 0 + (idsInUse spec self).length := firstFree_le
  omega

end Miroir
