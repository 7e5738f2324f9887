import Miroir.Agent.Round

/-!
# Data generations

A replicated volume needs one data generation before its legs can be UpToDate. A fresh volume
gets its birth generation from the winner, the diskful leg with the lowest node id, once every leg
waits Inconsistent and connected. A restore that crossed the replication boundary has its
generation forced by the seed, the first diskful leg, which alone holds the data. Split-brain
recovery keeps the winner and lets every other diskful leg discard.
-/

namespace Miroir

/-! ## The rendered resource -/

/-- The node and DRBD node id of every leg: replicas and clients. -/
def VolumeSpec.legs (spec : VolumeSpec) : List (String × Nat) :=
  spec.replicas.map (fun rep => (rep.node, rep.nodeID)) ++
    spec.clients.map fun cl => (cl.node, cl.nodeID)

/-- A leg as it stands in the rendered config. -/
structure Peer where
  node : String
  /-- From 0 on, as `Replica.nodeID`. -/
  nodeID : Nat
  address : String
  diskless : Bool
  client : Bool := false
  deriving DecidableEq, Repr

/-- What of the render input the elections read. -/
structure Resource where
  name : String
  localNode : String
  localDiskless : Bool
  peers : List Peer
  deriving DecidableEq, Repr

/-- The legs with an address; an entry that membership has not completed is left out. -/
def VolumeSpec.peers (spec : VolumeSpec) : List Peer :=
  (spec.replicas.filter fun rep => rep.address ≠ "").map (fun rep =>
    { node := rep.node
      nodeID := rep.nodeID
      address := rep.address
      diskless := rep.diskless }) ++
  (spec.clients.filter fun cl => cl.address ≠ "").map fun cl =>
    { node := cl.node
      nodeID := cl.nodeID
      address := cl.address
      diskless := true
      client := true }

def drbdResource (vol : Volume) (localNode : String) (localDiskless : Bool) : Resource where
  name := vol.name
  localNode := localNode
  localDiskless := localDiskless
  peers := vol.spec.peers

/-- The local leg holds no disk: a tie-breaker's or a client's. -/
def localDiskless (vol : Volume) (node : String) : Bool :=
  (vol.spec.replicas.find? fun rep => rep.node = node).any Replica.diskless ||
    (vol.spec.clientForNode node).isSome

/-- Some leg is placed on the node. -/
def present (vol : Volume) (node : String) : Bool :=
  replicaOn vol node || (vol.spec.clientForNode node).isSome

/-- The leg of the node waits for membership to complete it. -/
def incomplete (vol : Volume) (node : String) : Bool :=
  (vol.spec.replicas.find? fun rep => rep.node = node).any (fun rep => rep.address = "") ||
    (vol.spec.clientForNode node).any fun cl => cl.address = ""

/-! ## The winner -/

/-- The loop of `IsWinner`: the lowest id so far, with its node. -/
def lowestDiskful : Option (Nat × String) → List Peer → Option (Nat × String)
  | low, [] => low
  | low, p :: ps =>
    if p.diskless then lowestDiskful low ps
    else if low.all fun l => p.nodeID < l.1 then lowestDiskful (some (p.nodeID, p.node)) ps
    else lowestDiskful low ps

def isWinner (r : Resource) : Bool :=
  ((lowestDiskful none r.peers).map Prod.snd).getD "" = r.localNode

/-- The loop ends with one of the diskful legs it saw, and none of them has a lower id. -/
theorem lowestDiskful_spec {low : Option (Nat × String)} {ps : List Peer} {l : Nat × String}
    (h : lowestDiskful low ps = some l) :
    (low = some l ∨ ∃ p ∈ ps, p.diskless = false ∧ (p.nodeID, p.node) = l) ∧
      (∀ p ∈ ps, p.diskless = false → l.1 ≤ p.nodeID) ∧ ∀ l₀, low = some l₀ → l.1 ≤ l₀.1 := by
  induction ps generalizing low with
  | nil =>
    obtain rfl : low = some l := h
    refine ⟨.inl rfl, fun p hp => absurd hp (List.not_mem_nil), fun l₀ h₀ => ?_⟩
    cases h₀
    exact Nat.le_refl _
  | cons p ps ih =>
    rw [lowestDiskful] at h
    split at h
    · rename_i hd
      obtain ⟨hmem, hle, hlow⟩ := ih h
      refine ⟨hmem.imp_right fun ⟨q, hq, hql⟩ => ⟨q, .tail _ hq, hql⟩, ?_, hlow⟩
      intro q hq hqd
      rcases List.mem_cons.mp hq with rfl | hq
      · rw [hd] at hqd
        cases hqd
      · exact hle q hq hqd
    · rename_i hd
      have hd : p.diskless = false := by simpa using hd
      split at h
      · rename_i hlt
        obtain ⟨hmem, hle, hlow⟩ := ih h
        have hp : l.1 ≤ p.nodeID := hlow _ rfl
        refine ⟨.inr ?_, ?_, ?_⟩
        · rcases hmem with heq | ⟨q, hq, hql⟩
          · exact ⟨p, .head _, hd, Option.some.inj heq⟩
          · exact ⟨q, .tail _ hq, hql⟩
        · intro q hq hqd
          rcases List.mem_cons.mp hq with rfl | hq
          exacts [hp, hle q hq hqd]
        · intro l₀ h₀
          subst h₀
          exact Nat.le_trans hp (Nat.le_of_lt (by simpa using hlt))
      · rename_i hge
        obtain ⟨hmem, hle, hlow⟩ := ih h
        refine ⟨hmem.imp_right fun ⟨q, hq, hql⟩ => ⟨q, .tail _ hq, hql⟩, ?_, hlow⟩
        intro q hq hqd
        rcases List.mem_cons.mp hq with rfl | hq
        · cases low with
          | none => simp at hge
          | some l₀ => exact Nat.le_trans (hlow l₀ rfl) (by simpa using hge)
        · exact hle q hq hqd

/-- Nothing is found only where there is no diskful leg. -/
theorem lowestDiskful_eq_none {low : Option (Nat × String)} {ps : List Peer}
    (h : lowestDiskful low ps = none) : low = none ∧ ∀ p ∈ ps, p.diskless := by
  induction ps generalizing low with
  | nil => exact ⟨h, fun p hp => absurd hp (List.not_mem_nil)⟩
  | cons p ps ih =>
    rw [lowestDiskful] at h
    split at h
    · rename_i hd
      obtain ⟨hlow, hps⟩ := ih h
      refine ⟨hlow, fun q hq => ?_⟩
      rcases List.mem_cons.mp hq with rfl | hq
      exacts [hd, hps q hq]
    · split at h
      · cases (ih h).1
      · rename_i hge
        obtain ⟨rfl, -⟩ := ih h
        simp at hge

/-- The diskful legs with an address. -/
def VolumeSpec.completedDiskful (spec : VolumeSpec) : List Replica :=
  spec.replicas.filter fun rep => !rep.diskless && rep.address ≠ ""

section Winner

variable {vol : Volume} {n m : String}

theorem mem_completedDiskful {spec : VolumeSpec} {rep : Replica} :
    rep ∈ spec.completedDiskful ↔
      rep ∈ spec.replicas ∧ rep.diskless = false ∧ rep.address ≠ "" := by
  simp [VolumeSpec.completedDiskful]

/-- A diskful leg of the rendered config is a completed diskful replica. -/
theorem replica_of_peer {spec : VolumeSpec} {p : Peer} (hp : p ∈ spec.peers)
    (hd : p.diskless = false) :
    ∃ rep ∈ spec.completedDiskful, rep.node = p.node ∧ rep.nodeID = p.nodeID := by
  rcases List.mem_append.mp hp with hp | hp
  · obtain ⟨rep, hrep, rfl⟩ := List.mem_map.mp hp
    obtain ⟨hmem, ha⟩ := List.mem_filter.mp hrep
    exact ⟨rep, mem_completedDiskful.mpr ⟨hmem, hd, by simpa using ha⟩, rfl, rfl⟩
  · obtain ⟨cl, -, rfl⟩ := List.mem_map.mp hp
    cases hd

/-- The winner is a completed diskful leg. -/
theorem winner_of_completed (h : vol.spec.completedDiskful ≠ [])
    (hw : isWinner (drbdResource vol n (localDiskless vol n))) :
    ∃ rep ∈ vol.spec.completedDiskful, rep.node = n := by
  cases hl : lowestDiskful none vol.spec.peers with
  | none =>
    -- A completed diskful replica is rendered, so the loop has seen it.
    obtain ⟨rep, hrep⟩ := List.exists_mem_of_ne_nil _ h
    obtain ⟨hmem, hd, ha⟩ := mem_completedDiskful.mp hrep
    have hp := (lowestDiskful_eq_none hl).2
      { node := rep.node, nodeID := rep.nodeID, address := rep.address, diskless := rep.diskless }
      (List.mem_append_left _ (List.mem_map.mpr
        ⟨rep, List.mem_filter.mpr ⟨hmem, by simpa using ha⟩, rfl⟩))
    rw [hd] at hp
    cases hp
  | some l =>
    simp only [isWinner, drbdResource, hl, Option.map_some, Option.getD_some,
      decide_eq_true_iff] at hw
    obtain ⟨hnil | ⟨p, hp, hd, rfl⟩, -⟩ := lowestDiskful_spec hl
    · cases hnil
    · obtain ⟨rep, hrep, hnode, -⟩ := replica_of_peer hp hd
      exact ⟨rep, hrep, hnode.trans hw⟩

/-- All nodes elect one and the same winner. -/
theorem winner_unique (hn : isWinner (drbdResource vol n (localDiskless vol n)))
    (hm : isWinner (drbdResource vol m (localDiskless vol m))) : n = m := by
  exact (of_decide_eq_true hn).symm.trans (of_decide_eq_true hm)

theorem exists_winner (vol : Volume) :
    ∃ n, isWinner (drbdResource vol n (localDiskless vol n)) :=
  ⟨((lowestDiskful none vol.spec.peers).map Prod.snd).getD "", by simp [isWinner, drbdResource]⟩

end Winner

/-! ## The birth generation -/

/-- What `birthInitPending` asks of one replica entry. -/
def birthReady (st : DrbdStatus) (self : String) (rep : Replica) : Bool :=
  !rep.fullSync && (rep.node = self || rep.diskless || rep.address = "" ||
    (st.peerConnected rep.nodeID && st.peerDiskState rep.nodeID = some .inconsistent))

def birthInitPending (vol : Volume) (st : DrbdStatus) (self : String) (localDiskless : Bool) :
    Bool :=
  vol.spec.drbd && vol.spec.source.isNone && !localDiskless &&
    !(vol.status.activated || vol.status.formatted) && st.diskState = some .inconsistent &&
    vol.spec.replicas.all (birthReady st self)

/-- The gate of `mintBirthUUID` on a node. -/
def mintsBirth (vol : Volume) (st : DrbdStatus) (self : String) : Bool :=
  birthInitPending vol st self (localDiskless vol self) &&
    isWinner (drbdResource vol self (localDiskless vol self))

/-! ## The seed of a restore -/

/-- `FirstDiskfulReplica`. -/
def VolumeSpec.firstDiskful (spec : VolumeSpec) : Option Replica :=
  spec.replicas.find? fun rep => !rep.diskless

/-- The node holds the seed of a padded restore: its first diskful leg, and a clone. -/
def paddedSeed (vol : Volume) (self : String) (localDiskless : Bool) : Bool :=
  !localDiskless && vol.spec.drbd && vol.spec.source.any VolumeSource.padForMetadata &&
    vol.spec.firstDiskful.any fun seed => seed.node = self && !seed.fullSync

/-- Some other leg is UpToDate, by the connections in `peers` or by a status slot of `nodes`. -/
def peerUpToDate (nodes : List String) (peers : List Nat) (vol : Volume) (st : DrbdStatus)
    (self : String) : Bool :=
  peers.any (fun i => st.peerDiskState i = some .upToDate) ||
    nodes.any fun n => n ≠ self && (vol.status.perNode n).diskState = some .upToDate

/-- The seed waits for its first generation; `adopted` is `MetadataAdopted`. -/
def restoreSeedPending (nodes : List String) (peers : List Nat) (vol : Volume) (st : DrbdStatus)
    (self : String) (localDiskless adopted : Bool) : Bool :=
  paddedSeed vol self localDiskless && st.diskState = some .inconsistent && !adopted &&
    !peerUpToDate nodes peers vol st self

/-- The seed was left Primary by a mint whose demote never ran. -/
def restoreSeedStuckPrimary (vol : Volume) (st : DrbdStatus) (self : String)
    (localDiskless : Bool) : Bool :=
  paddedSeed vol self localDiskless && st.primary && st.diskState = some .upToDate &&
    !vol.status.activated

end Miroir
