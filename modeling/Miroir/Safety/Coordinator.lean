import Miroir.Agent.Generation

/-!
# Who coordinates a round

Every agent decides for itself, from its own DRBD status, whether it coordinates a round
(`coordinatorFor`) and whether the volume is healthy enough to raise a barrier (`healthy`).
`Views` is a family of such statuses over one spec: links are symmetric but need not be
transitive, a link shows a Primary to its peer, and at most one node is Primary.

`one_coordinator`: two nodes that both pass are a Primary and a node whose own leg is not
completed yet. The health gate skips legs without an address, so nothing makes the Primary
see such a node, and the walk of the election takes a node's own entry before it looks at
the address (`uncompleted_leg_coordinates`).
-/

namespace Miroir

variable {self : String} {st : DrbdStatus}

/-- The gate of `reconcileReplicated` on raising and cutting. -/
def healthy (self : String) (vol : Volume) (st : DrbdStatus) : Bool :=
  diskfulPeersConnected st vol self && diskfulPeersUpToDate st vol self &&
    (!diskfulOn vol self || st.diskState = some .upToDate)

/-- The diskful leg of `node` has not been completed: no entry of it has an address. -/
def VolumeSpec.Uncompleted (spec : VolumeSpec) (node : String) : Prop :=
  ∀ rep ∈ spec.diskfulReplicas, rep.node = node → rep.address = ""

/-- What every node's agent reads: its copy of the volume and its DRBD status. -/
structure Views (spec : VolumeSpec) where
  vol : String → Volume
  view : String → DrbdStatus
  /-- The established connections. -/
  linked : String → String → Bool
  vol_spec : ∀ n, (vol n).spec = spec
  symm : ∀ a b, linked a b = linked b a
  /-- A status reports the connection to a leg under the leg's node id. -/
  reported : ∀ n, ∀ leg ∈ spec.legs, leg.1 ≠ n → (view n).peerConnected leg.2 = linked n leg.1
  /-- A connection shows the peer's Primary role. -/
  revealed : ∀ a b, linked a b = true → (view b).primary = true → (view a).peerPrimary = true
  onePrimary : ∀ a b, (view a).primary = true → (view b).primary = true → a = b

variable {spec : VolumeSpec}

/-! ## The walk -/

/-- The walk ends at an own diskful entry, and every diskful entry before it is a completed
leg of another node that is not connected. -/
theorem firstReachable_split {reps : List Replica}
    (h : firstReachable self st reps) :
    ∃ before rep after, reps = before ++ rep :: after ∧ rep.node = self ∧ rep.diskless = false ∧
      ∀ r ∈ before, r.diskless = false →
        r.node ≠ self ∧ r.address ≠ "" ∧ st.peerConnected r.nodeID = false := by
  induction reps with
  | nil => cases h
  | cons r reps ih =>
    rw [firstReachable] at h
    split at h
    · obtain ⟨before, rep, after, rfl, hn, hd, hb⟩ := ih h
      refine ⟨r :: before, rep, after, rfl, hn, hd, ?_⟩
      simp_all
    · rename_i hr
      split at h
      · exact ⟨[], r, reps, rfl, ‹_›, by simpa using hr, by simp⟩
      · split at h
        · cases h
        · rename_i hself hskip
          obtain ⟨before, rep, after, rfl, hn, hd, hb⟩ := ih h
          refine ⟨r :: before, rep, after, rfl, hn, hd, ?_⟩
          intro r' hr' hd'
          rcases List.mem_cons.mp hr' with rfl | hr'
          · simp_all
          · exact hb r' hr' hd'

/-- A node that is not Primary coordinates only on behalf of its own diskful leg. -/
theorem diskfulOn_of_firstReachable {vol : Volume}
    (h : firstReachable self st vol.spec.replicas) : diskfulOn vol self := by
  obtain ⟨before, rep, after, heq, hn, hd, -⟩ := firstReachable_split h
  refine List.any_eq_true.mpr ⟨rep, List.mem_filter.mpr ⟨?_, by simp [hd]⟩, by simp [hn]⟩
  simp [heq]

/-- The gate sees every completed diskful leg of another node connected. -/
theorem connected_of_healthy {vol : Volume} {rep : Replica}
    (h : healthy self vol st) (hr : rep ∈ vol.spec.replicas) (hn : rep.node ≠ self)
    (hd : rep.diskless = false) (ha : rep.address ≠ "") : st.peerConnected rep.nodeID := by
  simp only [healthy, Bool.and_eq_true] at h
  simpa [gatedPeer, hn, hd, ha] using List.all_eq_true.mp h.1.1 rep hr

/-- Of two entries of a list, one comes before the other. -/
theorem mem_before_or {α : Type} {l b₁ b₂ a₁ a₂ : List α} {x₁ x₂ : α} (h₁ : l = b₁ ++ x₁ :: a₁)
    (h₂ : l = b₂ ++ x₂ :: a₂) (hx : x₁ ≠ x₂) : x₁ ∈ b₂ ∨ x₂ ∈ b₁ := by
  rw [h₁] at h₂
  rcases List.append_eq_append_iff.mp h₂ with ⟨c, rfl, hc⟩ | ⟨c, rfl, hc⟩
  · cases c with
    | nil => exact absurd (by simpa using (List.cons.inj hc).1) hx
    | cons y c => exact .inl (by simp [(List.cons.inj hc).1])
  · cases c with
    | nil => exact absurd (by simpa using (List.cons.inj hc).1.symm) hx
    | cons y c => exact .inr (by simp [(List.cons.inj hc).1])

/-! ## Families of views -/

namespace Views

/-- `n` coordinates a round it may open. -/
def Coordinates (V : Views spec) (n : String) : Prop :=
  coordinatorFor n (V.vol n) (V.view n) = true ∧ healthy n (V.vol n) (V.view n) = true

instance decidableCoordinates (V : Views spec) (n : String) : Decidable (V.Coordinates n) :=
  inferInstanceAs (Decidable (_ ∧ _))

variable (V : Views spec) {a b : String}

/-- A coordinator that is not Primary knows of no Primary and got through the walk. -/
theorem Coordinates.walked {V : Views spec} (h : V.Coordinates a)
    (hp : (V.view a).primary = false) :
    (V.view a).peerPrimary = false ∧ firstReachable a (V.view a) spec.replicas := by
  have hc := h.1
  rw [coordinatorFor, V.vol_spec, hp] at hc
  cases hpp : (V.view a).peerPrimary <;> simp_all

/-- The link to a completed diskful leg of another node is up at a coordinator. -/
theorem Coordinates.linked {V : Views spec} (h : V.Coordinates a) {rep : Replica}
    (hr : rep ∈ spec.replicas) (hn : rep.node ≠ a) (hd : rep.diskless = false)
    (ha : rep.address ≠ "") :
    (V.view a).peerConnected rep.nodeID ∧ V.linked a rep.node := by
  have hc := connected_of_healthy h.2 (by rwa [V.vol_spec]) hn hd ha
  have hleg : (rep.node, rep.nodeID) ∈ spec.legs :=
    List.mem_append_left _ (List.mem_map.mpr ⟨rep, hr, rfl⟩)
  exact ⟨hc, by rw [← V.reported a _ hleg hn, hc]⟩

/-- Without a Primary the walk and the gate settle on one node: the later of two would have
had to pass over the earlier as disconnected. -/
theorem eq_of_walked (ha : V.Coordinates a) (hb : V.Coordinates b)
    (hpa : (V.view a).primary = false) (hpb : (V.view b).primary = false) : a = b := by
  obtain ⟨before, rep, after, heq, hn, hd, hbef⟩ := firstReachable_split (ha.walked hpa).2
  obtain ⟨before', rep', after', heq', hn', hd', hbef'⟩ := firstReachable_split (hb.walked hpb).2
  by_contra hab
  have hrep : rep ≠ rep' := fun h => hab (by rw [← hn, ← hn', h])
  rcases mem_before_or heq heq' hrep with hmem | hmem
  · obtain ⟨hne, hadr, hoff⟩ := hbef' rep hmem hd
    have hon := (hb.linked (by simp [heq]) hne hd hadr).1
    simp [hon] at hoff
  · obtain ⟨hne, hadr, hoff⟩ := hbef rep' hmem hd'
    have hon := (ha.linked (by simp [heq']) hne hd' hadr).1
    simp [hon] at hoff

/-- Beside a Primary that coordinates, another coordinator's leg is not completed: otherwise
the gate links the two and the link shows the Primary. -/
theorem uncompleted_of_primary (ha : V.Coordinates a) (hb : V.Coordinates b) (hab : a ≠ b)
    (hpa : (V.view a).primary) (hpb : (V.view b).primary = false) :
    spec.Uncompleted b := by
  intro rep hr hn
  by_contra hadr
  obtain ⟨hmem, hd⟩ := List.mem_filter.mp hr
  have hlink := (ha.linked hmem (by rw [hn]; exact hab.symm) (by simpa using hd) hadr).2
  rw [hn, V.symm] at hlink
  have hpp := V.revealed b a hlink hpa
  simp [(hb.walked hpb).1] at hpp

/-- Two nodes that coordinate in a healthy view are one node, or a Primary and a node whose own
leg is not completed; and a node without a diskful leg coordinates only as Primary. Node ids
need not even be distinct, as long as the statuses report them. -/
theorem one_coordinator :
    (∀ a b, V.Coordinates a → V.Coordinates b →
      a = b ∨
      ((V.view a).primary = true ∧ (V.view b).primary = false ∧ spec.Uncompleted b) ∨
      ((V.view b).primary = true ∧ (V.view a).primary = false ∧ spec.Uncompleted a)) ∧
    ∀ a, diskfulOn (V.vol a) a = false → (V.view a).primary = false →
      coordinatorFor a (V.vol a) (V.view a) = false := by
  refine ⟨fun a b ha hb => ?_, fun a hdiskless hp => ?_⟩
  · by_cases hab : a = b
    · exact .inl hab
    · cases hpa : (V.view a).primary <;> cases hpb : (V.view b).primary
      · exact .inl (V.eq_of_walked ha hb hpa hpb)
      · exact .inr (.inr ⟨rfl, rfl, V.uncompleted_of_primary hb ha (Ne.symm hab) hpb hpa⟩)
      · exact .inr (.inl ⟨rfl, rfl, V.uncompleted_of_primary ha hb hab hpa hpb⟩)
      · exact .inl (V.onePrimary a b hpa hpb)
  · by_contra hc
    rw [Bool.not_eq_false, coordinatorFor, hp] at hc
    split at hc
    · contradiction
    · split at hc
      · cases hc
      · rw [diskfulOn_of_firstReachable hc] at hdiskless
        cases hdiskless

end Views

/-! ## A leg that is not completed -/

/-- Replica "b" has been added again and waits for its address, "c" is complete, and a client
leg on "a" is the consumer. -/
def rejoining : VolumeSpec where
  sizeBytes := 1024
  replicas := [{ node := "b", nodeID := 0 }, { node := "c", nodeID := 1, address := "10.0.0.3" }]
  clients := [{ node := "a", nodeID := 2, address := "10.0.0.1" }]
  drbd := true

/-- "c" is connected to both others, which are not connected to each other. -/
def relayLinks (m n : String) : Bool := decide ((m = "c") ≠ (n = "c"))

/-- "a" is Primary over "c", and "b" still holds an UpToDate disk connected to "c". -/
def relayed : Views rejoining where
  vol _ := ⟨"pvc", rejoining, {}⟩
  view n :=
    { primary := n = "a"
      peerPrimary := relayLinks n "a"
      suspended := false
      diskState := if n = "a" then some .diskless else some .upToDate
      peerConnected := fun i => relayLinks n (["b", "c", "a"].getD i n)
      peerDiskState := fun _ => some .upToDate }
  linked := relayLinks
  vol_spec _ := rfl
  symm a b := by simp only [relayLinks, ne_comm]
  reported n leg h _ := by
    simp only [rejoining, VolumeSpec.legs, List.map, List.cons_append, List.nil_append,
      List.mem_cons, List.not_mem_nil, or_false] at h
    rcases h with rfl | rfl | rfl <;> rfl
  revealed a b hl hp := by
    rw [decide_eq_true_iff] at hp
    rw [← hp, hl]
  onePrimary a b ha hb := by
    rw [decide_eq_true_iff] at ha hb
    rw [ha, hb]

/-- The Primary and the leg that waits for its address both coordinate. -/
theorem uncompleted_leg_coordinates :
    ((rejoining.legs.map Prod.snd).Nodup ∧ "a" ≠ "b") ∧
      relayed.Coordinates "a" ∧ relayed.Coordinates "b" := by
  decide

/-- The two coordinators of `relayed` are of the one kind there can be. -/
theorem relayed_coordinators :
    relayed.Coordinates "a" ∧ relayed.Coordinates "b" ∧ rejoining.Uncompleted "b" := by
  have h : relayed.Coordinates "a" ∧ relayed.Coordinates "b" := by decide
  refine ⟨h.1, h.2, ?_⟩
  rcases relayed.one_coordinator.1 "a" "b" h.1 h.2 with heq | hu | hu
  · exact absurd heq (by decide)
  · exact hu.2.2
  · exact absurd hu.1 (by decide)

end Miroir
