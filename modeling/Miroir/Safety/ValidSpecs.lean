import Miroir.Controller.LegalEdits
import Miroir.Process.Run

/-!
# Every edit keeps the spec valid

Whatever the controllers, the node service and the operators do, in any order and on any topology
and status: the spec stays admitted, each spec may replace the one before, and the ids of the
completed legs stay different from each other. A new id is below five; an id the volume was
created with stays as it is, and no rule of the CRD bounds it.
-/

namespace Miroir

open Process

variable {key : String → String} {vol : MiroirVolume}

/-! ## One lemma for each controller -/

/-- `new` is `vol` after a legal edit of its legs, with no client leg more where an export forbids
them. -/
structure ValidEdit (vol new : MiroirVolume) : Prop where
  legal : Legal vol.spec.toVolumeSpec new.spec.toVolumeSpec
  rest : new.spec = { vol.spec with replicas := new.spec.replicas, clients := new.spec.clients }
  clients : new.spec.clients.length ≤ vol.spec.clients.length ∨ vol.spec.exportFs = none

theorem ValidEdit.withLegs {new : VolumeSpec} (h : Legal vol.spec.toVolumeSpec new)
    (hcl : new.clients.length ≤ vol.spec.clients.length ∨ vol.spec.exportFs = none) :
    ValidEdit vol (vol.withLegs new.replicas new.clients) :=
  ⟨h.of_legs rfl rfl, rfl, hcl⟩

section Edits

variable (hs : Sound vol.spec.toVolumeSpec) (hd : DistinctIDs vol.spec.toVolumeSpec)

include hs hd

theorem ValidEdit.refl : ValidEdit vol vol := ⟨.refl hs hd, rfl, .inl le_rfl⟩

theorem validEdit_membership (nodes : NodeMap) (ips : InternalIPs) :
    ValidEdit vol (Membership.reconcile nodes ips vol) := by
  rw [Membership.reconcile]
  split
  · exact .refl hs hd
  · split
    · exact .refl hs hd
    · rename_i spec hspec
      have hc := completing_reconcileMembership hs hd hspec
      exact ⟨hc.legal.of_legs rfl rfl, rfl, .inl hc.clients.le⟩

theorem validEdit_tieBreaker (nodes : NodeMap) :
    ValidEdit vol (TieBreaker.reconcile nodes vol) := by
  rw [TieBreaker.reconcile]
  split
  · exact .refl hs hd
  split
  · exact .refl hs hd
  rename_i hcount
  split
  · exact .refl hs hd
  split
  · exact .refl hs hd
  dsimp only
  split
  · exact .refl hs hd
  · rename_i htb
    simp only [Bool.or_eq_true, decide_eq_true_iff, not_or, not_not] at hcount
    exact .withLegs (.addTieBreaker hs hd rfl rfl hcount.1
      ((tieBreakerNode_eq_iff htb).mp rfl).spare.noLeg) (.inl le_rfl)

/-- Each candidate for a conversion is a completed client leg or a tie-breaker. -/
theorem legal_of_candidate {nodes : NodeMap} {c : AutoDiskful.Candidate}
    (hc : c ∈ AutoDiskful.candidates vol nodes)
    (hlt : vol.spec.diskfulReplicas.length < 3) :
    Legal vol.spec.toVolumeSpec (c.apply vol.spec.toVolumeSpec) ∧
      (c.apply vol.spec.toVolumeSpec).clients.length ≤ vol.spec.clients.length := by
  rcases List.mem_append.mp hc with hc | hc
  · obtain ⟨cl, hcl, hc⟩ := List.mem_filterMap.mp hc
    rw [AutoDiskful.clientCandidate] at hc
    split at hc
    · cases hc
    · rename_i ha
      simp only [Bool.or_eq_true, decide_eq_true_iff, not_or] at ha
      obtain ⟨t, -, rfl⟩ := Option.map_eq_some_iff.mp hc
      exact ⟨.convertClient hs hd hcl ha.2 hlt, List.length_filter_le ..⟩
  · obtain ⟨rep, -, hc⟩ := List.mem_filterMap.mp hc
    rw [AutoDiskful.tieBreakerCandidate] at hc
    split at hc
    · cases hc
    · obtain ⟨t, -, rfl⟩ := Option.map_eq_some_iff.mp hc
      exact ⟨.convertTieBreaker hs hd rep.node, le_rfl⟩

theorem validEdit_convertFirst {now after : Nat} {items : List MiroirNode} {nodes : NodeMap}
    {cs : List AutoDiskful.Candidate} (hcs : ∀ c ∈ cs, c ∈ AutoDiskful.candidates vol nodes) :
    ValidEdit vol (AutoDiskful.convertFirst now after items vol cs) := by
  induction cs with
  | nil => exact .refl hs hd
  | cons c cs ih =>
    rw [AutoDiskful.convertFirst]
    split
    · exact ih fun c hc => hcs c (.tail _ hc)
    split
    · exact .refl hs hd
    · rename_i hblocked
      have hlt : vol.spec.diskfulReplicas.length < 3 := by
        by_contra hge
        refine hblocked ?_
        rw [AutoDiskful.conversionBlocked]
        split
        · rfl
        · rw [if_pos (not_lt.mp hge)]
          rfl
      obtain ⟨hlegal, hlen⟩ := legal_of_candidate hs hd (hcs c (.head _)) hlt
      exact .withLegs hlegal (.inl hlen)

theorem validEdit_autoDiskful (now after : Nat) (items : List MiroirNode) (nodes : NodeMap) :
    ValidEdit vol (AutoDiskful.reconcile now after items nodes vol) := by
  rw [AutoDiskful.reconcile]
  split
  · exact .refl hs hd
  · exact validEdit_convertFirst hs hd fun _ => id

/-- Each plan replaces or drops the dead leg. -/
theorem legal_plan {now : Nat} {pass : AutoEvict.EvictPass} {dead : String} {new : VolumeSpec}
    (h : (AutoEvict.plan now pass vol.spec.toVolumeSpec dead).2 = some new) :
    Legal vol.spec.toVolumeSpec new ∧ new.clients.length ≤ vol.spec.clients.length := by
  rw [AutoEvict.plan] at h
  split at h
  · cases h
    exact ⟨.dropClients hs hd List.filter_sublist, List.length_filter_le ..⟩
  · rename_i rep hfind
    have hrep := List.mem_of_find?_eq_some hfind
    obtain rfl : rep.node = dead := by simpa using List.find?_some hfind
    dsimp only at h
    split at h
    · rename_i hdisk
      split at h
      · cases h
      · rename_i htb
        cases h
        exact ⟨.swapReplica hs hd hrep hdisk.symm rfl
          ((tieBreakerNode_eq_iff htb).mp rfl).spare.noLeg, le_rfl⟩
    · rename_i hdisk
      split at h
      · rename_i hrepl
        cases h
        exact ⟨.swapReplica hs hd hrep (by simpa using hdisk) rfl
          ((replacementNode_eq_iff hrepl).mp rfl).spare.noLeg, le_rfl⟩
      · obtain ⟨tb, htb, rfl⟩ := Option.map_eq_some_iff.mp h
        have hp := List.find?_some htb
        simp only [Bool.and_eq_true] at hp
        exact ⟨.promote hs hd hrep (List.mem_of_find?_eq_some htb) hp.1.1, le_rfl⟩

theorem validEdit_autoEvict (now after : Nat) (items : List MiroirNode) (topology : NodeMap)
    (ready : Bool) (pinned : List String) (dead : String) :
    ValidEdit vol (AutoEvict.reconcile now after items topology ready pinned dead vol) := by
  rw [AutoEvict.reconcile]
  split
  · rw [AutoEvict.evictVolume]
    split
    · exact .refl hs hd
    · split
      · exact .refl hs hd
      · rename_i new hplan
        obtain ⟨hlegal, hlen⟩ := legal_plan hs hd hplan
        exact .withLegs hlegal (.inl hlen)
  · exact .refl hs hd

theorem validEdit_addClientLeg (now : Nat) (clientOnly : Bool) (node : String) :
    ValidEdit vol (addClientLeg now clientOnly node vol) := by
  rw [addClientLeg]
  split
  · exact .refl hs hd
  · rename_i hgate
    split
    · exact .refl hs hd
    · rename_i hcount
      simp only [Bool.or_eq_true, not_or, decide_eq_true_iff, not_le] at hcount hgate
      refine .withLegs (.addClient hs hd rfl hcount.2 (Bool.eq_false_iff.mpr fun hleg => ?_))
        (.inr (by simpa using hgate.1.1.1.1))
      rw [hasLegOn, Bool.or_eq_true] at hleg
      exact hleg.elim hgate.1.1.1.2 hgate.2

/-- What an operator submits is admitted, and completes no entry. -/
theorem validEdit_submit (hdrbd : vol.spec.drbd) {replicas : List Replica}
    (hreps : ∀ rep ∈ replicas,
      rep ∈ vol.spec.replicas ∨ rep.address = "" ∧ vol.spec.replicas ⊆ replicas) :
    ValidEdit vol (submit vol replicas) := by
  rw [submit]
  split
  · rename_i hadm
    simp only [MiroirVolumeSpec.admitted, Bool.and_eq_true] at hadm
    have hdrbd' : (vol.withLegs replicas vol.spec.clients).spec.drbd := hdrbd
    have hsound := ((admitted_iff hdrbd').mp hadm.1.1.1.1).2
    refine ⟨.of_holds hd hsound (fun n id h => ?_) fun rep hrep => ?_, rfl, .inl le_rfl⟩
    · rcases h with ⟨rep, hrep, ha, hn, hid⟩ | hcl
      · exact .inl ⟨rep, (hreps rep hrep).resolve_right fun h => ha h.1, ha, hn, hid⟩
      · exact .inr hcl
    · by_cases hold : rep ∈ vol.spec.replicas
      · exact .inl ⟨rep, hold, .refl rep⟩
      · have hsub := ((hreps rep hrep).resolve_left hold).2
        exact .inr fun o ho h => hold (hsound.eq_of_node (hsub ho) hrep h ▸ ho)
  · exact .refl hs hd

theorem validEdit_edit (hdrbd : vol.spec.drbd) (e : Edit) :
    ValidEdit vol (edit key vol e) := by
  cases e with
  | membership items ips => exact validEdit_membership hs hd _ ips
  | tieBreaker items => exact validEdit_tieBreaker hs hd _
  | autoDiskful items now after => exact validEdit_autoDiskful hs hd now after items _
  | autoEvict dead items ready pinned now after =>
    exact validEdit_autoEvict hs hd now after items _ ready pinned dead
  | addClientLeg node clientOnly now => exact validEdit_addClientLeg hs hd now clientOnly node
  | removeClientLeg node =>
    exact .withLegs (.dropClients hs hd List.eraseP_sublist)
      (.inl List.eraseP_sublist.length_le)
  | addReplica node pool diskless =>
    refine validEdit_submit hs hd hdrbd fun rep hrep => ?_
    rcases List.mem_append.mp hrep with hrep | hrep
    · exact .inl hrep
    · obtain rfl := List.mem_singleton.mp hrep
      exact .inr ⟨rfl, List.subset_append_left ..⟩
  | removeReplica node =>
    exact validEdit_submit hs hd hdrbd fun rep hrep => .inl (List.mem_filter.mp hrep).1
  | report _ => exact ⟨.refl hs hd, rfl, .inl le_rfl⟩
  | release _ => exact ⟨.refl hs hd, rfl, .inl le_rfl⟩
  | delete => exact ⟨.refl hs hd, rfl, .inl le_rfl⟩

end Edits

/-! ## Replicated and unreplicated volumes -/

/-- A spec the invariant speaks of: admitted, with different ids. -/
structure Valid (spec : MiroirVolumeSpec) : Prop where
  admitted : spec.admitted = true
  ids : spec.completedIDs.Nodup

theorem Valid.sound {spec : MiroirVolumeSpec} (h : Valid spec) (hdrbd : spec.drbd) :
    Sound spec.toVolumeSpec ∧ DistinctIDs spec.toVolumeSpec := by
  have hadm := h.admitted
  simp only [MiroirVolumeSpec.admitted, Bool.and_eq_true] at hadm
  have hs := ((admitted_iff hdrbd).mp hadm.1.1.1).2
  exact ⟨hs, hs.distinctIDs_iff.mpr h.ids⟩

/-- One edit: the new spec is valid, may replace the old one, and takes ids below five. -/
structure ValidStep (old new : MiroirVolumeSpec) : Prop where
  valid : Valid new
  follows : new.follows old = true
  ids : ∀ id ∈ new.completedIDs, id < 5 ∨ id ∈ old.completedIDs

theorem ValidStep.refl {spec : MiroirVolumeSpec} (h : Valid spec) : ValidStep spec spec := by
  refine ⟨h, ?_, fun id => .inr⟩
  have hadm : spec.toVolumeSpec.admitted := by
    have hadm := h.admitted
    simp only [MiroirVolumeSpec.admitted, Bool.and_eq_true] at hadm
    exact hadm.1.1.1
  have hone : ∀ rep ∈ spec.replicas, ∀ o ∈ spec.replicas, o.node ≠ rep.node ∨ o = rep := by
    intro rep hrep o ho
    exact (em _).symm.imp_right
      (List.inj_on_of_nodup_map (VolumeSpec.nodup_of_admitted hadm) ho hrep)
  have hdisks : keepsDisks spec.toVolumeSpec spec.toVolumeSpec := by
    simp only [keepsDisks, List.all_eq_true, Bool.or_eq_true, decide_eq_true_iff]
    intro rep hrep o ho
    rcases hone rep hrep o ho with hn | rfl
    exacts [.inl (.inl hn), by cases o.diskless <;> simp]
  have hpools : keepsPools spec.toVolumeSpec spec.toVolumeSpec := by
    simp only [keepsPools, List.all_eq_true, Bool.or_eq_true, decide_eq_true_iff]
    intro rep hrep o ho
    rcases hone rep hrep o ho with hn | rfl
    exacts [.inl (.inl (.inl hn)), .inr (by simp [samePool])]
  simp [MiroirVolumeSpec.follows, hdisks, hpools, keepsSource]

/-- An edit of the legs of a replicated volume. -/
theorem ValidEdit.step {new : MiroirVolume} (hdrbd : vol.spec.drbd) (hv : Valid vol.spec)
    (hs : Sound vol.spec.toVolumeSpec) (h : ValidEdit vol new) : ValidStep vol.spec new.spec := by
  obtain ⟨hlegal, hrest, hcl⟩ := h
  obtain ⟨hdisks, hpools⟩ := hlegal.keeps hs
  have hadm := hv.admitted
  simp only [MiroirVolumeSpec.admitted, Bool.and_eq_true] at hadm
  obtain ⟨⟨⟨hold, hwf⟩, hexp⟩, hquorum⟩ := hadm
  have hsize : new.spec.sizeBytes = vol.spec.sizeBytes := by rw [hrest]
  have hreplicated : new.spec.drbd = vol.spec.drbd := by rw [hrest]
  have hsource : new.spec.source = vol.spec.source := by rw [hrest]
  have hpolicy : new.spec.quorumPolicy = vol.spec.quorumPolicy := by rw [hrest]
  have hids : new.spec.drbdSpec = vol.spec.drbdSpec := by rw [hrest]
  have hfs : new.spec.exportFs = vol.spec.exportFs := by rw [hrest]
  have hnew : new.spec.toVolumeSpec.admitted :=
    (admitted_iff (hreplicated.trans hdrbd)).mpr
      ⟨hsize ▸ ((admitted_iff hdrbd).mp hold).1, hlegal.sound⟩
  have hclients : (new.spec.clients.isEmpty || vol.spec.exportFs.isNone) := by
    rw [Bool.or_eq_true] at hexp ⊢
    rcases hcl with hle | hnone
    · refine hexp.imp_left fun hnil => ?_
      rw [List.isEmpty_iff] at hnil ⊢
      exact List.eq_nil_of_length_eq_zero (by simpa [hnil] using hle)
    · exact .inr (by simp [hnone])
  refine ⟨⟨?_, hlegal.sound.distinctIDs_iff.mp hlegal.distinct⟩, ?_,
    fun _ => hlegal.ids⟩
  · simp only [MiroirVolumeSpec.admitted, hnew, hclients, hreplicated, hids, hfs, hpolicy, hwf,
      hquorum, Bool.and_true]
  · simp [MiroirVolumeSpec.follows, hsize, hdisks, hpools, hreplicated, hfs, hids, keepsSource,
      hsource]

/-- An unreplicated volume has one replica and no clients, and keeps them. -/
theorem edit_of_unreplicated (hdrbd : vol.spec.drbd = false) (hadm : vol.spec.admitted)
    (e : Edit) : (edit key vol e).spec = vol.spec := by
  simp only [MiroirVolumeSpec.admitted, VolumeSpec.admitted, hdrbd, Bool.and_eq_true,
    decide_eq_true_iff, Bool.or_eq_true, Bool.false_eq_true, if_false, or_false,
    List.isEmpty_iff] at hadm
  have hone : vol.spec.replicas.length = 1 := hadm.1.1.1.1.1.1.1.1.1.1.1.2
  have hnil : vol.spec.clients = [] := hadm.1.1.1.1.1.1.2
  have hrefused : ∀ replicas : List Replica, replicas.length ≠ 1 ∨ replicas = vol.spec.replicas →
      (submit vol replicas).spec = vol.spec := by
    rintro replicas (hlen | rfl)
    · have hbad : (vol.withLegs replicas vol.spec.clients).spec.admitted = false := by
        simp [MiroirVolumeSpec.admitted, VolumeSpec.admitted, MiroirVolume.withLegs, hdrbd, hlen]
      simp [submit, hbad]
    · rw [submit]
      split <;> rfl
  cases e with
  | membership items ips => simp [edit, Membership.reconcile, hdrbd]
  | tieBreaker items => simp [edit, TieBreaker.reconcile, hdrbd]
  | autoDiskful items now after => simp [edit, AutoDiskful.reconcile, hdrbd]
  | autoEvict dead items ready pinned now after =>
    rw [edit, AutoEvict.reconcile]
    split
    · rw [AutoEvict.evictVolume, AutoEvict.evictBlocked]
      cases vol.deleting <;> simp [hdrbd]
    · rfl
  | addClientLeg node clientOnly now =>
    rw [edit, addClientLeg]
    split
    · rfl
    · simp [hdrbd]
  | removeClientLeg node =>
    have hcl : (vol.spec.clients.eraseP fun cl => cl.node = node) = vol.spec.clients := by
      rw [hnil, List.eraseP_nil]
    rw [edit, removeClientLeg, hcl]
    rfl
  | addReplica node pool diskless => exact hrefused _ (.inl (by simp [hone]))
  | removeReplica node =>
    refine hrefused _ ?_
    by_cases hlen : (vol.spec.replicas.filter fun rep => rep.node ≠ node).length = 1
    · exact .inr (List.filter_sublist.eq_of_length (hlen.trans hone.symm))
    · exact .inl hlen
  | report _ => rfl
  | release _ => rfl
  | delete => rfl

/-- What one edit preserves. -/
theorem validStep_edit (h : Valid vol.spec) (e : Edit) :
    ValidStep vol.spec (edit key vol e).spec := by
  cases hdrbd : vol.spec.drbd with
  | false =>
    rw [edit_of_unreplicated hdrbd h.admitted e]
    exact .refl h
  | true =>
    obtain ⟨hs, hd⟩ := h.sound hdrbd
    exact (validEdit_edit hs hd hdrbd e).step hdrbd h hs

/-! ## Runs -/

/-- From a spec that the rules of the CRD admit, with different ids on its completed legs, every
sequence of edits leads to such specs, each may replace the one before, and every id is below five
or one the volume started with. -/
theorem specs_stay_valid {vol₀ : MiroirVolume} {N i : ℕ}
    (ρ : Run (fun vol e => some (edit key vol e)) vol₀ N) (hadm : vol₀.spec.admitted = true)
    (hids : vol₀.spec.completedIDs.Nodup) (hi : i ≤ N) :
    (ρ.state i).spec.admitted = true ∧ (ρ.state i).spec.completedIDs.Nodup ∧
      (∀ id ∈ (ρ.state i).spec.completedIDs, id < 5 ∨ id ∈ vol₀.spec.completedIDs) ∧
      (i < N → (ρ.state (i + 1)).spec.follows (ρ.state i).spec = true) := by
  have hstep : ∀ k < N, Valid (ρ.state k).spec →
      ValidStep (ρ.state k).spec (ρ.state (k + 1)).spec := by
    intro k hk hv
    rw [← Option.some.inj (ρ.next k hk)]
    exact validStep_edit hv _
  obtain ⟨hv, hbound⟩ := ρ.invariant
    (P := fun _ vol => Valid vol.spec ∧
      ∀ id ∈ vol.spec.completedIDs, id < 5 ∨ id ∈ vol₀.spec.completedIDs)
    ⟨⟨hadm, hids⟩, fun _ => .inr⟩
    (fun k hk ⟨hv, hbound⟩ => by
      have hk := hstep k hk hv
      exact ⟨hk.valid, fun id hid => (hk.ids id hid).elim .inl (hbound id)⟩) hi
  exact ⟨hv.admitted, hv.ids, hbound, fun hlt => (hstep i hlt hv).follows⟩

/-! ## A tie-breaker, a client and an eviction -/

/-- A storage node with one pool, and its heartbeat. -/
def storageNode (name : String) (observedAt : Stamp) : MiroirNode where
  name := name
  entry := { address := "10.0.0." ++ name, pools := AList.singleton "default" { backend := .zfs } }
  observedAt := some observedAt
  pools := AList.singleton "default" { capacityBytes := 4096, allocatedBytes := 0 }

/-- A replicated volume on "a" and "b". -/
def onAB (ida idb : Nat) : MiroirVolume where
  name := "pvc"
  spec :=
    { sizeBytes := 1024
      replicas := [{ node := "a", pool := "default", nodeID := ida, address := "10.0.0.a" },
        { node := "b", pool := "default", nodeID := idb, address := "10.0.0.b" }]
      drbd := true
      quorumPolicy := some .freeze
      drbdSpec := { port := 7000 }
      allowRemoteAccess := true }

/-- "b" has been silent since second 100, the others report at second 1000. -/
def bSilent : List MiroirNode :=
  [storageNode "a" 1000, storageNode "b" 100, storageNode "c" 1000, storageNode "d" 1000]

def noIPs : InternalIPs := fun n => .error (.noInternalIP n)

/-- "c" becomes the tie-breaker, "e" a client; "b" is evicted for "d". -/
def retrofitAndEvict : List Edit :=
  [.report { phase := .ready, perNode := fun _ => { diskState := some .upToDate } },
    .tieBreaker bSilent, .membership bSilent noIPs,
    .addClientLeg "e" false (1000 * second), 
    .membership bSilent fun _ => .ok ⟨"10.0.0.e", by decide⟩,
    .autoEvict "b" bSilent false [] (1000 * second) (600 * second), .membership bSilent noIPs,
    .removeClientLeg "e"]

theorem retrofitAndEvict_possible :
    allSteps (fun vol e => some (edit id vol e)) (fun _ _ => true) (onAB 0 1) retrofitAndEvict =
      true := by
  decide +kernel

/-- After seven edits "d" has taken the id of "b", and the specs have been valid all along. -/
theorem specs_stay_valid_retrofitAndEvict :
    let ρ := Run.ofActions (fun vol e => some (edit id vol e)) (fun _ _ => true) (onAB 0 1)
      retrofitAndEvict retrofitAndEvict_possible
    (ρ.state 7).spec.peers.map (fun p => (p.node, p.nodeID)) =
        [("a", 0), ("d", 1), ("c", 2), ("e", 3)] ∧
      (ρ.state 7).spec.admitted = true ∧ (ρ.state 7).spec.completedIDs.Nodup ∧
      (∀ id ∈ (ρ.state 7).spec.completedIDs, id < 5 ∨ id ∈ (onAB 0 1).spec.completedIDs) ∧
      (7 < 8 → (ρ.state 8).spec.follows (ρ.state 7).spec = true) := by
  intro ρ
  exact ⟨by decide +kernel, specs_stay_valid ρ (by decide +kernel) (by decide +kernel) (by decide)⟩

/-- The rules admit a volume with an id of seven, and an edit leaves it. -/
theorem created_id_stays :
    ¬∀ (key : String → String) (vol₀ : MiroirVolume) (N : ℕ)
      (ρ : Run (fun vol e => some (edit key vol e)) vol₀ N), vol₀.spec.admitted = true →
      vol₀.spec.completedIDs.Nodup →
        ∀ i < N, ∀ id ∈ (ρ.state (i + 1)).spec.completedIDs, id < 5 := by
  intro h
  have hseven := h id (onAB 0 7) 1
    (Run.ofActions _ (fun _ _ => true) _ [.tieBreaker bSilent] (by decide +kernel))
    (by decide +kernel) (by decide +kernel) 0 (by decide) 7 (by decide +kernel)
  exact absurd hseven (by decide)

end Miroir
