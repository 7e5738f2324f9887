import Miroir.Controller.Rules

/-!
# Each way a controller changes the legs is legal

One lemma for every way: an entry is filled in, a tie-breaker or a client leg is added, a diskless
leg becomes a replica, a dead leg is replaced or dropped.
-/

namespace Miroir

open Data

/-! ## Completion -/

/-- The leg of one node is completed, under the next free id. -/
structure Completes (old new : VolumeSpec) (node : String) : Prop where
  leg : hasLegOn old node = true
  absent : ∀ j, ¬old.Holds node j
  keeps : ∀ n id, old.Holds n id → new.Holds n id
  holds : ∀ n id, new.Holds n id → old.Holds n id ∨ n = node ∧ id = nextNodeID old node

theorem Legal.of_completes {old new : VolumeSpec} {node : String} (ho : Sound old)
    (hd : DistinctIDs old) (hs : Sound new) (hc : Completes old new node)
    (hsucc : ∀ rep ∈ new.replicas,
      (∃ o ∈ old.replicas, Succeeds o rep) ∨ ∀ o ∈ old.replicas, o.node ≠ rep.node) :
    Legal old new where
  sound := hs
  distinct n m id hn hm := by
    rcases hc.holds n id hn with hn | ⟨rfl, rfl⟩ <;> rcases hc.holds m _ hm with hm | ⟨rfl, hid⟩
    · exact hd n m id hn hm
    · by_contra hne
      exact not_holds_nextNodeID hne (hid ▸ hn)
    · by_contra hne
      exact not_holds_nextNodeID (Ne.symm hne) hm
    · rfl
  succeeds := hsucc
  fresh n id hn := by
    refine (hc.holds n id hn).imp_right ?_
    rintro ⟨rfl, rfl⟩
    refine ⟨hc.absent, fun m hm => ?_, fun j hj => ?_, nextNodeID_lt ho hc.leg⟩
    · by_cases hne : m = n
      · exact hc.absent _ (hne ▸ hm)
      · exact not_holds_nextNodeID hne hm
    · obtain ⟨m, hm, hj⟩ := holds_of_lt_nextNodeID hj
      exact ⟨m, hm, hc.keeps m j hj⟩

/-- What is in a list with one entry replaced. -/
theorem mem_replaced {α : Type} {l r : List α} {o new : α} (old : α) (ho : o ∈ l ++ new :: r) :
    o = new ∨ o ∈ l ++ old :: r := by
  rcases List.mem_append.mp ho with ho | ho
  · exact .inr (List.mem_append_left _ ho)
  · rcases List.mem_cons.mp ho with rfl | ho
    exacts [.inl rfl, .inr (List.mem_append_right _ (.tail _ ho))]

section Fill

variable {spec : VolumeSpec} {l r : List Replica} {rep filled : Replica}

theorem Sound.fill (hs : Sound { spec with replicas := l ++ rep :: r })
    (hf : FilledIn { spec with replicas := l ++ rep :: r } rep filled) :
    Sound { spec with replicas := l ++ filled :: r } where
  count_ge := by simpa using hs.count_ge
  count_le := by simpa using hs.count_le
  diskful := by
    have h := hs.diskful
    simp only [VolumeSpec.diskfulReplicas, List.filter_append, List.filter_cons, List.length_append,
      hf.diskless] at h ⊢
    cases hd : rep.diskless <;> simpa [hd] using h
  first o ho := by
    cases l with
    | nil =>
      cases ho
      exact hf.diskless.trans (hs.first rep rfl)
    | cons a l => exact hs.first o ho
  onePool := by
    refine onePool_of_eq (volumePool { spec with replicas := l ++ rep :: r })
      fun o ho => ?_
    obtain ⟨hmem, hd, ha⟩ := mem_completedDiskful.mp ho
    rcases mem_replaced rep hmem with rfl | hmem
    · rw [hf.pool (hf.diskless.symm.trans hd), poolOrDefault_volumePool]
    · exact pool_eq_volumePool hs.onePool (mem_completedDiskful.mpr ⟨hmem, hd, ha⟩)
  clients_le := hs.clients_le
  apart cl hcl o ho := by
    rcases mem_replaced rep ho with rfl | ho
    · exact hf.node ▸ hs.apart cl hcl rep (List.mem_append_right _ (.head _))
    · exact hs.apart cl hcl o ho
  nodes := by simpa [hf.node] using hs.nodes
  clientNodes := hs.clientNodes

theorem Completes.fill (hs : Sound { spec with replicas := l ++ rep :: r })
    (ha : rep.address = "") (hf : FilledIn { spec with replicas := l ++ rep :: r } rep filled) :
    Completes { spec with replicas := l ++ rep :: r } { spec with replicas := l ++ filled :: r }
      rep.node := by
  have hrep : rep ∈ l ++ rep :: r := List.mem_append_right _ (.head _)
  refine ⟨hasLegOn_iff.mpr (.inl (List.mem_map_of_mem hrep)), ?_, ?_, ?_⟩
  · rintro j (⟨o, ho, hoa, hn, -⟩ | ⟨cl, hcl, -, hn, -⟩)
    · exact hoa (hs.eq_of_node ho hrep hn ▸ ha)
    · exact hs.apart cl hcl rep hrep hn.symm
  · rintro n id (⟨o, ho, hoa, hn, hid⟩ | hcl)
    · refine .inl ⟨o, (mem_replaced filled ho).resolve_left ?_, hoa, hn, hid⟩
      rintro rfl
      exact hoa ha
    · exact .inr hcl
  · rintro n id (⟨o, ho, hoa, rfl, rfl⟩ | hcl)
    · rcases mem_replaced rep ho with rfl | ho
      · exact .inr ⟨hf.node, hf.nodeID⟩
      · exact .inl (.inl ⟨o, ho, hoa, rfl, rfl⟩)
    · exact .inl (.inr hcl)

/-- Completing one replica entry. -/
theorem Legal.fill (hs : Sound { spec with replicas := l ++ rep :: r })
    (hd : DistinctIDs { spec with replicas := l ++ rep :: r }) (ha : rep.address = "")
    (hf : FilledIn { spec with replicas := l ++ rep :: r } rep filled) :
    Legal { spec with replicas := l ++ rep :: r } { spec with replicas := l ++ filled :: r } := by
  refine .of_completes hs hd (hs.fill hf) (.fill hs ha hf) fun o ho => ?_
  rcases mem_replaced rep ho with rfl | ho
  · refine .inl ⟨rep, List.mem_append_right _ (.head _), hf.node.symm, ?_⟩
    rw [hf.diskless]
    cases rep.diskless
    · exact .inr ⟨rfl, fun h => absurd ha h⟩
    · exact .inl rfl
  · exact .inl ⟨o, ho, .refl o⟩

end Fill

section FillClient

variable {spec : VolumeSpec} {l r : List VolumeClient} {cl filled : VolumeClient}

theorem Completes.fillClient (hs : Sound { spec with clients := l ++ cl :: r })
    (ha : cl.address = "") (hn : filled.node = cl.node)
    (hid : filled.nodeID = nextNodeID { spec with clients := l ++ cl :: r } cl.node) :
    Completes { spec with clients := l ++ cl :: r } { spec with clients := l ++ filled :: r }
      cl.node := by
  have hcl : cl ∈ l ++ cl :: r := List.mem_append_right _ (.head _)
  refine ⟨hasLegOn_iff.mpr (.inr (List.mem_map_of_mem hcl)), ?_, ?_, ?_⟩
  · rintro j (⟨rep, hrep, -, hrn, -⟩ | ⟨o, ho, hoa, hon, -⟩)
    · exact hs.apart cl hcl rep hrep hrn
    · exact hoa (hs.eq_of_clientNode ho hcl hon ▸ ha)
  · rintro n id (hrep | ⟨o, ho, hoa, hon, hoid⟩)
    · exact .inl hrep
    · refine .inr ⟨o, (mem_replaced filled ho).resolve_left ?_, hoa, hon, hoid⟩
      rintro rfl
      exact hoa ha
  · rintro n id (hrep | ⟨o, ho, hoa, rfl, rfl⟩)
    · exact .inl (.inl hrep)
    · rcases mem_replaced cl ho with rfl | ho
      · exact .inr ⟨hn, hid⟩
      · exact .inl (.inr ⟨o, ho, hoa, rfl, rfl⟩)

/-- Completing one client leg. -/
theorem Legal.fillClient (hs : Sound { spec with clients := l ++ cl :: r })
    (hd : DistinctIDs { spec with clients := l ++ cl :: r }) (ha : cl.address = "")
    (hn : filled.node = cl.node)
    (hid : filled.nodeID = nextNodeID { spec with clients := l ++ cl :: r } cl.node) :
    Legal { spec with clients := l ++ cl :: r } { spec with clients := l ++ filled :: r } := by
  have hcl : cl ∈ l ++ cl :: r := List.mem_append_right _ (.head _)
  have hsound : Sound { spec with clients := l ++ filled :: r } :=
    { hs with
      clients_le := by simpa using hs.clients_le
      apart := fun o ho => by
        rcases mem_replaced cl ho with rfl | ho
        · rw [hn]
          exact hs.apart cl hcl
        · exact hs.apart o ho
      clientNodes := by simpa [hn] using hs.clientNodes }
  exact .of_completes hs hd hsound (.fillClient hs ha hn hid) fun o ho => .inl ⟨o, ho, .refl o⟩

end FillClient

section Membership

variable {nodes : NodeMap} {ips : InternalIPs} {old spec : VolumeSpec}

/-- What the loops of `Reconcile` keep between the spec they started with and the current one. -/
structure Completing (old cur : VolumeSpec) : Prop where
  legal : Legal old cur
  nodes : cur.replicas.map Replica.node = old.replicas.map Replica.node
  clients : cur.clients.length = old.clients.length
  keeps : ∀ n id, old.Holds n id → cur.Holds n id

theorem Completing.trans {cur new : VolumeSpec} {node : String} (h : Completing old cur)
    (hl : Legal cur new) (hc : Completes cur new node)
    (hnodes : new.replicas.map Replica.node = cur.replicas.map Replica.node)
    (hlen : new.clients.length = cur.clients.length) : Completing old new where
  legal := h.legal.trans hl h.nodes h.keeps hc.keeps
  nodes := hnodes.trans h.nodes
  clients := hlen.trans h.clients
  keeps n id hn := hc.keeps n id (h.keeps n id hn)

theorem completing_completeReplicas {passed reps out : List Replica}
    (h : completeReplicas nodes ips spec passed reps = .ok out)
    (hc : Completing old { spec with replicas := passed ++ reps }) :
    Completing old { spec with replicas := out } := by
  induction reps generalizing passed with
  | nil =>
    cases h
    rwa [List.append_nil] at hc
  | cons rep reps ih =>
    rw [completeReplicas] at h
    split at h
    · exact ih h (by simpa using hc)
    · rename_i ha
      obtain ⟨filled, hfilled, h⟩ := bind_eq_ok.mp h
      have hf := filledIn_of_complete hfilled
      have hs := hc.legal.sound
      refine ih h ?_
      simpa using hc.trans (.fill hs hc.legal.distinct (not_not.mp ha) hf)
        (.fill hs (not_not.mp ha) hf) (by simp [hf.node]) rfl

theorem filled_of_completeClient {cl filled : VolumeClient}
    (h : completeClient nodes ips spec cl = .ok filled) :
    filled.node = cl.node ∧ filled.nodeID = nextNodeID spec cl.node := by
  rw [completeClient] at h
  split at h
  · cases h
  · obtain ⟨address, -, h⟩ := bind_eq_ok.mp h
    rw [← Except.ok.inj h]
    exact ⟨rfl, rfl⟩

theorem completing_completeClients {passed cls out : List VolumeClient}
    (h : completeClients nodes ips spec passed cls = .ok out)
    (hc : Completing old { spec with clients := passed ++ cls }) :
    Completing old { spec with clients := out } := by
  induction cls generalizing passed with
  | nil =>
    cases h
    rwa [List.append_nil] at hc
  | cons cl cls ih =>
    rw [completeClients] at h
    split at h
    · exact ih h (by simpa using hc)
    · rename_i ha
      obtain ⟨filled, hfilled, h⟩ := bind_eq_ok.mp h
      obtain ⟨hn, hid⟩ := filled_of_completeClient hfilled
      have hs := hc.legal.sound
      refine ih h ?_
      simpa using hc.trans (.fillClient hs hc.legal.distinct (not_not.mp ha) hn hid)
        (.fillClient hs (not_not.mp ha) hn hid) rfl (by simp)

theorem completing_reconcileMembership {new : VolumeSpec} (hs : Sound spec)
    (hd : DistinctIDs spec) (h : reconcileMembership nodes ips spec = .ok new) :
    Completing spec new := by
  have hrefl : Completing spec spec := ⟨.refl hs hd, rfl, rfl, fun _ _ => id⟩
  rw [reconcileMembership] at h
  split at h
  · cases h
    exact hrefl
  · obtain ⟨replicas, hreps, h⟩ := bind_eq_ok.mp h
    obtain ⟨clients, hcls, h⟩ := bind_eq_ok.mp h
    cases h
    have hc : Completing spec { spec with replicas := replicas } :=
      completing_completeReplicas hreps hrefl
    exact completing_completeClients hcls hc

end Membership

/-! ## Legs that come, go or change -/

/-- An entry that may stand in an edit of the spec. -/
structure Joins (spec : VolumeSpec) (rep : Replica) : Prop where
  id : rep.address ≠ "" → spec.Holds rep.node rep.nodeID
  pool : rep.diskless = false → rep.address ≠ "" → poolOrDefault rep.pool = volumePool spec
  succeeds : (∃ o ∈ spec.replicas, Succeeds o rep) ∨ ∀ o ∈ spec.replicas, o.node ≠ rep.node

section Legs

variable {spec new : VolumeSpec}

variable {rep : Replica} {cl : VolumeClient}

theorem Joins.old (hs : Sound spec) (hrep : rep ∈ spec.replicas) :
    Joins spec rep where
  id ha := .inl ⟨rep, hrep, ha, rfl, rfl⟩
  pool hd ha := pool_eq_volumePool hs.onePool (mem_completedDiskful.mpr ⟨hrep, hd, ha⟩)
  succeeds := .inl ⟨rep, hrep, .refl rep⟩

/-- A bare entry on a node without a leg. -/
theorem Joins.bare (ha : rep.address = "") (hn : hasLegOn spec rep.node = false) :
    Joins spec rep where
  id h := absurd ha h
  pool _ h := absurd ha h
  succeeds := .inr fun _ ho h => Bool.eq_false_iff.mp hn
    (hasLegOn_iff.mpr (.inl (h ▸ List.mem_map_of_mem ho)))

/-- A diskless entry that is flipped diskful, into the volume's pool. -/
theorem Joins.flipped (hrep : rep ∈ spec.replicas) (hd : rep.diskless)
    (fullSync : Bool) :
    Joins spec { rep with diskless := false, pool := volumePool spec, fullSync := fullSync } where
  id ha := .inl ⟨rep, hrep, ha, rfl, rfl⟩
  pool _ _ := poolOrDefault_volumePool spec
  succeeds := .inl ⟨rep, hrep, rfl, .inl hd⟩

/-- An edit is legal if it has the shape, every entry may stand in it, and it completes no client
leg. -/
theorem Legal.of_joins (hd : DistinctIDs spec) (hshape : Shape new)
    (hreps : ∀ rep ∈ new.replicas, Joins spec rep)
    (hcls : ∀ cl ∈ new.clients, cl ∈ spec.clients ∨ cl.address = "") : Legal spec new := by
  have hpool : ∀ rep ∈ new.completedDiskful, poolOrDefault rep.pool = volumePool spec := by
    intro rep hrep
    obtain ⟨hmem, hd, ha⟩ := mem_completedDiskful.mp hrep
    exact (hreps rep hmem).pool hd ha
  refine .of_holds hd { hshape with onePool := onePool_of_eq _ hpool } (fun n id h => ?_)
    fun rep hrep => (hreps rep hrep).succeeds
  rcases h with ⟨rep, hrep, ha, rfl, rfl⟩ | ⟨cl, hcl, ha, hn, hid⟩
  · exact (hreps rep hrep).id ha
  · exact .inr ⟨cl, (hcls cl hcl).resolve_right ha, ha, hn, hid⟩

/-- Other clients beside the same replicas. -/
theorem Legal.withClients (hs : Sound spec) (hd : DistinctIDs spec) {clients : List VolumeClient}
    (hlen : clients.length ≤ 2) (hnodes : (clients.map VolumeClient.node).Nodup)
    (hcls : ∀ cl ∈ clients, cl ∈ spec.clients ∨
      cl.address = "" ∧ ∀ rep ∈ spec.replicas, rep.node ≠ cl.node) :
    Legal spec { spec with clients := clients } := by
  refine .of_joins hd
    { hs with clients_le := hlen, apart := fun cl hcl => ?_, clientNodes := hnodes }
    (fun rep hrep => .old hs hrep) fun cl hcl => (hcls cl hcl).imp_right And.left
  exact (hcls cl hcl).elim (hs.apart cl) And.right

theorem Legal.dropClients (hs : Sound spec) (hd : DistinctIDs spec) {clients : List VolumeClient}
    (h : clients.Sublist spec.clients) : Legal spec { spec with clients := clients } :=
  .withClients hs hd (h.length_le.trans hs.clients_le) (hs.clientNodes.sublist (h.map _))
    fun _ hcl => .inl (h.subset hcl)

theorem Legal.addClient (hs : Sound spec) (hd : DistinctIDs spec)
    (ha : cl.address = "") (hlen : spec.clients.length < 2) (hn : hasLegOn spec cl.node = false) :
    Legal spec { spec with clients := spec.clients ++ [cl] } := by
  have hfree := Bool.eq_false_iff.mp hn
  refine .withClients hs hd (by rw [List.length_append]; exact hlen) ?_ fun o ho => ?_
  · rw [List.map_append]
    refine hs.clientNodes.append (List.nodup_singleton _) fun n hn hcl => ?_
    obtain rfl : n = cl.node := by simpa using hcl
    exact hfree (hasLegOn_iff.mpr (.inr hn))
  · rcases List.mem_append.mp ho with ho | ho
    · exact .inl ho
    · obtain rfl := List.mem_singleton.mp ho
      exact .inr ⟨ha, fun rep hrep h =>
        hfree (hasLegOn_iff.mpr (.inl (h ▸ List.mem_map_of_mem hrep)))⟩

/-- A node without a leg is apart from the clients. -/
theorem apart_of_hasLegOn {n : String} (hn : hasLegOn spec n = false)
    (hcl : cl ∈ spec.clients) : n ≠ cl.node := fun h =>
  Bool.eq_false_iff.mp hn (hasLegOn_iff.mpr (.inr (h ▸ List.mem_map_of_mem hcl)))

theorem not_mem_of_hasLegOn {n : String} (hn : hasLegOn spec n = false) :
    n ∉ spec.replicas.map Replica.node := fun h =>
  Bool.eq_false_iff.mp hn (hasLegOn_iff.mpr (.inl h))

/-- A bare tie-breaker beside two replicas. -/
theorem Legal.addTieBreaker (hs : Sound spec) (hd : DistinctIDs spec) {tb : Replica}
    (ha : tb.address = "") (hdisk : tb.diskless) (hlen : spec.replicas.length = 2)
    (hn : hasLegOn spec tb.node = false) :
    Legal spec { spec with replicas := spec.replicas ++ [tb] } := by
  have hmem : ∀ o ∈ spec.replicas ++ [tb], o ∈ spec.replicas ∨ o = tb := by simp
  refine .of_joins hd { hs with
      count_ge := by simp [hlen]
      count_le := by simp [hlen]
      diskful := by simpa [VolumeSpec.diskfulReplicas, hdisk] using hs.diskful
      first := fun o ho => hs.first o ?_
      apart := fun cl hcl o ho => ?_
      nodes := ?_ } (fun o ho => ?_) fun cl hcl => .inl hcl
  · cases hr : spec.replicas with
    | nil => simp [hr] at hlen
    | cons a l => simpa [hr] using ho
  · rcases hmem o ho with ho | rfl
    exacts [hs.apart cl hcl o ho, apart_of_hasLegOn hn hcl]
  · rw [List.map_append]
    refine hs.nodes.append (List.nodup_singleton _) fun n hmem htb => ?_
    obtain rfl : n = tb.node := by simpa using htb
    exact not_mem_of_hasLegOn hn hmem
  · rcases hmem o ho with ho | rfl
    exacts [.old hs ho, .bare ha hn]

/-! ### Conversions -/

/-- Flipping an entry keeps the node of every entry, and an entry is flipped if it is the node's
diskless one. -/
theorem mem_convertTieBreaker {reps : List Replica} {node pool : String}
    (h : rep ∈ convertTieBreaker reps node pool) :
    rep ∈ reps ∧ (rep.node = node → rep.diskless = false) ∨ ∃ o ∈ reps, o.node = node ∧
      o.diskless ∧ rep = { o with diskless := false, pool := pool, fullSync := true } := by
  obtain ⟨o, ho, rfl⟩ := List.mem_map.mp h
  by_cases hflip : (o.node = node && o.diskless)
  · rw [if_pos hflip]
    simp only [Bool.and_eq_true, decide_eq_true_iff] at hflip
    exact .inr ⟨o, ho, hflip.1, hflip.2, rfl⟩
  · rw [if_neg hflip]
    simp only [Bool.and_eq_true, decide_eq_true_iff, not_and, Bool.not_eq_true] at hflip
    exact .inl ⟨ho, hflip⟩

theorem map_node_convertTieBreaker (reps : List Replica) (node pool : String) :
    (convertTieBreaker reps node pool).map Replica.node = reps.map Replica.node := by
  rw [convertTieBreaker, List.map_map]
  refine List.map_congr_left fun rep _ => ?_
  rw [Function.comp_apply]
  split <;> rfl

theorem Joins.converted (hs : Sound spec) {node : String}
    (h : rep ∈ convertTieBreaker spec.replicas node (volumePool spec)) : Joins spec rep := by
  rcases mem_convertTieBreaker h with ⟨hrep, -⟩ | ⟨o, ho, -, hd, rfl⟩
  exacts [.old hs hrep, .flipped ho hd true]

/-- Nodes of entries decide what is apart from the clients. -/
theorem apart_of_nodes (hs : Sound spec) {reps : List Replica}
    (h : reps.map Replica.node ⊆ spec.replicas.map Replica.node) :
    ∀ cl ∈ spec.clients, ∀ rep ∈ reps, rep.node ≠ cl.node := by
  intro cl hcl rep hrep
  obtain ⟨o, ho, hn⟩ := List.mem_map.mp (h (List.mem_map_of_mem hrep))
  exact hn ▸ hs.apart cl hcl o ho

/-- A tie-breaker is flipped diskful in place. -/
theorem Legal.convertTieBreaker (hs : Sound spec) (hd : DistinctIDs spec) (node : String) :
    Legal spec { spec with
      replicas := convertTieBreaker spec.replicas node (volumePool spec) } := by
  have hnodes := map_node_convertTieBreaker spec.replicas node (volumePool spec)
  refine .of_joins hd { hs with
      count_ge := by simpa [Miroir.convertTieBreaker] using hs.count_ge
      count_le := by simpa [Miroir.convertTieBreaker] using hs.count_le
      diskful := ?_
      first := fun rep hrep => ?_
      apart := apart_of_nodes hs (hnodes ▸ List.Subset.refl _)
      nodes := hnodes ▸ hs.nodes } (fun rep hrep => .converted hs hrep) fun cl hcl => .inl hcl
  · refine hs.diskful.trans ?_
    simp only [VolumeSpec.diskfulReplicas, Miroir.convertTieBreaker, List.filter_map,
      List.length_map]
    refine (List.monotone_filter_right _ fun rep hrep => ?_).length_le
    rw [Function.comp_apply]
    split
    exacts [rfl, hrep]
  · cases hr : spec.replicas with
    | nil => simp [Miroir.convertTieBreaker, hr] at hrep
    | cons a l =>
      have hfirst := hs.first a (by rw [hr]; rfl)
      simp only [Miroir.convertTieBreaker, hr, List.map_cons, List.head?_cons,
        Option.some.injEq] at hrep
      rw [← hrep]
      split
      exacts [rfl, hfirst]

/-- A client leg becomes a replica. -/
theorem Legal.convertClient (hs : Sound spec) (hd : DistinctIDs spec)
    (hcl : cl ∈ spec.clients) (ha : cl.address ≠ "") (hlt : spec.diskfulReplicas.length < 3) :
    Legal spec (convertClient spec cl (volumePool spec)) := by
  have hsub : spec.diskfulReplicas ⊆ spec.replicas := List.filter_sublist.subset
  have hapart := hs.apart cl hcl
  have hmem : ∀ rep ∈ (Miroir.convertClient spec cl (volumePool spec)).replicas,
      rep ∈ spec.diskfulReplicas ∨ rep =
        { node := cl.node, pool := volumePool spec, nodeID := cl.nodeID, address := cl.address,
          fullSync := true } := by
    simp [Miroir.convertClient]
  have hall : (Miroir.convertClient spec cl (volumePool spec)).diskfulReplicas =
      (Miroir.convertClient spec cl (volumePool spec)).replicas := by
    refine List.filter_eq_self.mpr fun rep hrep => ?_
    rcases hmem rep hrep with hrep | rfl
    exacts [(List.mem_filter.mp hrep).2, rfl]
  have hlen : (Miroir.convertClient spec cl (volumePool spec)).replicas.length =
      spec.diskfulReplicas.length + 1 := by
    rw [Miroir.convertClient, List.length_append, List.length_singleton]
  refine .of_joins hd
    { count_ge := hlen ▸ Nat.le_succ_of_le hs.diskful
      count_le := hlen ▸ hlt
      diskful := by rw [hall, hlen]; exact Nat.le_succ_of_le hs.diskful
      first := fun rep hrep => ?_
      clients_le := (List.length_filter_le _ _).trans hs.clients_le
      apart := fun o ho rep hrep => ?_
      nodes := ?_
      clientNodes := hs.clientNodes.sublist (List.filter_sublist.map _) } (fun rep hrep => ?_)
    fun o ho => .inl (List.mem_filter.mp ho).1
  · rcases hmem rep (List.mem_of_mem_head? hrep) with hrep | rfl
    exacts [by simpa using (List.mem_filter.mp hrep).2, rfl]
  · obtain ⟨ho, hne⟩ := List.mem_filter.mp ho
    rcases hmem rep hrep with hrep | rfl
    exacts [hs.apart o ho rep (hsub hrep), fun h => of_decide_eq_true hne h.symm]
  · simp only [Miroir.convertClient, List.map_append]
    refine (hs.nodes.sublist (List.filter_sublist.map _)).append (List.nodup_singleton _)
      fun n hn h => ?_
    obtain rfl : n = cl.node := by simpa using h
    obtain ⟨rep, hrep, hn⟩ := List.mem_map.mp hn
    exact hapart rep (hsub hrep) hn
  · rcases hmem rep hrep with hrep | rfl
    · exact .old hs (hsub hrep)
    · exact ⟨fun _ => .inr ⟨cl, hcl, ha, rfl, rfl⟩, fun _ _ => poolOrDefault_volumePool spec,
        .inr hapart⟩

/-! ### Dead legs -/

/-- A node's entry and the entries of the other nodes are all entries. -/
theorem perm_alive {reps : List Replica} (hn : (reps.map Replica.node).Nodup)
    (hrep : rep ∈ reps) : reps.Perm (rep :: reps.filter fun o => o.node ≠ rep.node) := by
  induction reps with
  | nil => cases hrep
  | cons a reps ih =>
    obtain ⟨ha, hn⟩ := List.nodup_cons.mp hn
    rcases List.mem_cons.mp hrep with rfl | hrep
    · have hall : (reps.filter fun o => o.node ≠ rep.node) = reps :=
        List.filter_eq_self.mpr fun o ho => decide_eq_true fun h =>
          ha (h ▸ List.mem_map_of_mem ho)
      simp only [List.filter_cons, ne_eq, not_true_eq_false, decide_false, Bool.false_eq_true,
        if_false]
      exact (congrArg (rep :: ·) hall.symm) ▸ .refl _
    · have hne : a.node ≠ rep.node := fun h => ha (h ▸ List.mem_map_of_mem hrep)
      rw [List.filter_cons_of_pos (by simpa using hne)]
      exact ((ih hn hrep).cons a).trans (.swap ..)

theorem perm_swapReplica (reps : List Replica) (dead : String) (repl : Replica) :
    (swapReplica reps dead repl).Perm (repl :: reps.filter fun o => o.node ≠ dead) := by
  simp only [swapReplica]
  generalize (reps.filter fun o => o.node ≠ dead) = alive
  have hsplit : (alive.filter (fun rep => !rep.diskless) ++ alive.filter Replica.diskless).Perm
      alive := List.perm_append_comm.trans (List.filter_append_perm _ alive)
  cases repl.diskless
  · simpa using List.perm_middle.trans (hsplit.cons repl)
  · simpa using (List.perm_append_singleton repl _).trans (hsplit.cons repl)

/-- A swap lists its diskful entries first. -/
theorem first_swapReplica {reps : List Replica} {dead : String} {repl : Replica}
    (hpos : 0 < ((swapReplica reps dead repl).filter fun o => !o.diskless).length)
    (h : (swapReplica reps dead repl).head? = some rep) : rep.diskless = false := by
  obtain ⟨full, rest, hsplit, hfull, hrest⟩ : ∃ full rest,
      swapReplica reps dead repl = full ++ rest ∧ (∀ o ∈ full, o.diskless = false) ∧
        ∀ o ∈ rest, o.diskless := by
    refine ⟨_, _, List.append_assoc .., fun o ho => ?_, fun o ho => ?_⟩
    · rcases List.mem_append.mp ho with ho | ho
      · simpa using (List.mem_filter.mp ho).2
      · split at ho
        · cases ho
        · rename_i hd
          simpa [List.mem_singleton.mp ho] using hd
    · rcases List.mem_append.mp ho with ho | ho
      · exact (List.mem_filter.mp ho).2
      · split at ho
        · rename_i hd
          rwa [List.mem_singleton.mp ho]
        · cases ho
  rw [hsplit] at h hpos
  cases full with
  | nil =>
    rw [List.nil_append, List.filter_eq_nil_iff.mpr (by simpa using hrest)] at hpos
    cases hpos
  | cons a full =>
    cases h
    exact hfull _ (.head _)

/-- The dead leg gives way to a bare one of its kind. -/
theorem Legal.swapReplica (hs : Sound spec) (hd : DistinctIDs spec) {repl : Replica}
    (hrep : rep ∈ spec.replicas) (hkind : repl.diskless = rep.diskless) (ha : repl.address = "")
    (hn : hasLegOn spec repl.node = false) :
    Legal spec { spec with replicas := swapReplica spec.replicas rep.node repl } := by
  have hperm := perm_swapReplica spec.replicas rep.node repl
  have hold := perm_alive hs.nodes hrep
  have hlen : (Miroir.swapReplica spec.replicas rep.node repl).length = spec.replicas.length :=
    hperm.length_eq.trans hold.length_eq.symm
  have hdisk : ((Miroir.swapReplica spec.replicas rep.node repl).filter fun o =>
      !o.diskless).length = spec.diskfulReplicas.length := by
    rw [(hperm.filter _).length_eq, VolumeSpec.diskfulReplicas, (hold.filter _).length_eq]
    simp only [List.filter_cons, hkind]
    split <;> rfl
  have hmem : ∀ o ∈ Miroir.swapReplica spec.replicas rep.node repl,
      o = repl ∨ o ∈ spec.replicas := by
    intro o ho
    exact (List.mem_cons.mp (hperm.subset ho)).imp_right fun ho => (List.mem_filter.mp ho).1
  refine .of_joins hd { hs with
      count_ge := hlen ▸ hs.count_ge
      count_le := hlen ▸ hs.count_le
      diskful := hdisk ▸ hs.diskful
      first := fun o ho => ?_
      apart := fun cl hcl o ho => ?_
      nodes := ?_ } (fun o ho => ?_) fun cl hcl => .inl hcl
  · exact first_swapReplica (hdisk ▸ Nat.lt_of_lt_of_le Nat.two_pos hs.diskful) ho
  · rcases hmem o ho with rfl | ho
    exacts [apart_of_hasLegOn hn hcl, hs.apart cl hcl o ho]
  · refine (hperm.map _).nodup_iff.mpr (List.nodup_cons.mpr ⟨fun h => ?_, ?_⟩)
    · exact not_mem_of_hasLegOn hn (List.map_subset _ List.filter_sublist.subset h)
    · exact hs.nodes.sublist (List.filter_sublist.map _)
  · rcases hmem o ho with rfl | ho
    exacts [.bare ha hn, .old hs ho]

/-- Beside two diskful replicas there is one diskless one. -/
theorem Sound.eq_of_diskless (hs : Sound spec) {o : Replica} (ho : o ∈ spec.replicas)
    (hrep : rep ∈ spec.replicas) (hod : o.diskless) (hd : rep.diskless) : o = rep := by
  have hlen := List.length_eq_length_filter_add (l := spec.replicas) fun rep => !rep.diskless
  have hdisk := hs.diskful
  have hcount := hs.count_le
  rw [VolumeSpec.diskfulReplicas] at hdisk
  by_contra hne
  have htwo : [o, rep].length ≤ (spec.replicas.filter fun rep => !!rep.diskless).length := by
    refine List.Nodup.length_le_of_subset (by simpa using hne) fun a ha => ?_
    rcases List.mem_cons.mp ha with rfl | ha
    · exact List.mem_filter.mpr ⟨ho, by simpa using hod⟩
    · obtain rfl := List.mem_singleton.mp ha
      exact List.mem_filter.mpr ⟨hrep, by simpa using hd⟩
  rw [List.length_cons, List.length_singleton] at htwo
  omega

/-- Without a spare node the tie-breaker takes the dead replica's place. -/
theorem Legal.promote (hs : Sound spec) (hd : DistinctIDs spec) {tb : Replica}
    (hrep : rep ∈ spec.replicas) (htb : tb ∈ spec.replicas) (htbd : tb.diskless) :
    Legal spec { spec with
      replicas := (Miroir.convertTieBreaker spec.replicas tb.node (volumePool spec)).filter
        fun o => o.node ≠ rep.node } := by
  have hnodes := map_node_convertTieBreaker spec.replicas tb.node (volumePool spec)
  -- All entries are diskful now, and one of the three is gone.
  have hall : ∀ o ∈ Miroir.convertTieBreaker spec.replicas tb.node (volumePool spec),
      o.diskless = false := by
    intro o ho
    rcases mem_convertTieBreaker ho with ⟨ho, hn⟩ | ⟨-, -, -, -, rfl⟩
    · by_contra hod
      rw [Bool.not_eq_false] at hod
      exact absurd (hn (hs.eq_of_diskless ho htb hod htbd ▸ rfl)) (by simp [hod])
    · rfl
  have hthree : spec.replicas.length = 3 := by
    have hlt := List.length_filter_lt_length_iff_exists.mpr
      (⟨tb, htb, by simp [htbd]⟩ : ∃ o ∈ spec.replicas, ¬(!o.diskless))
    have hdisk := hs.diskful
    have hle := hs.count_le
    rw [VolumeSpec.diskfulReplicas] at hdisk
    omega
  have hlen : ((Miroir.convertTieBreaker spec.replicas tb.node (volumePool spec)).filter
      fun o => o.node ≠ rep.node).length = 2 := by
    have hmap : ∀ reps : List Replica, (reps.filter fun o => o.node ≠ rep.node).length =
        ((reps.map Replica.node).filter fun n => n ≠ rep.node).length := by
      intro reps
      rw [List.filter_map, List.length_map]
      rfl
    have hold := (perm_alive hs.nodes hrep).length_eq
    rw [hthree, List.length_cons] at hold
    rw [hmap, hnodes, ← hmap]
    omega
  have hsub : ((Miroir.convertTieBreaker spec.replicas tb.node (volumePool spec)).filter
      fun o => o.node ≠ rep.node).Sublist
      (Miroir.convertTieBreaker spec.replicas tb.node (volumePool spec)) := List.filter_sublist
  refine .of_joins hd { hs with
      count_ge := hlen.ge
      count_le := hlen.le.trans (by decide)
      diskful := ?_
      first := fun o ho => hall o (hsub.subset (List.mem_of_mem_head? ho))
      apart := apart_of_nodes hs fun n hn => hnodes ▸ (hsub.map _).subset hn
      nodes := (hnodes ▸ hs.nodes : (_ : List String).Nodup).sublist (hsub.map _) }
    (fun o ho => .converted hs (hsub.subset ho)) fun cl hcl => .inl hcl
  rw [VolumeSpec.diskfulReplicas, List.filter_eq_self.mpr]
  · exact hlen.ge
  · exact fun o ho => by simp [hall o (hsub.subset ho)]

end Legs

end Miroir
