import Miroir.Safety.ValidSpecs

/-!
# Where controllers place legs on their own

The tie-breaker controller and auto-evict pick a spare node by one policy, and each asks something
else of it. The retrofit waits while any removed leg's teardown is pending, but does not look at
heartbeats. Auto-evict stands down if a second node that takes part in it is silent, and a
re-placed replica needs fresh pool stats, but a spare that opted out may be silent, and nobody asks
whether the volume's old leg on the spare is still being torn down.

`placed_soundly_iff`: the first spare node has both properties exactly if the missing checks would
pass; `placed_on_unsound` where they would not.
-/

namespace Miroir

/-- A controller that adds a leg on its own. -/
inductive Placer where
  | tieBreaker
  | autoEvict (dead : String) (ready : Bool) (pinned : List String)

def Placer.edit (items : List MiroirNode) (now after : Nat) : Placer → Edit
  | .tieBreaker => .tieBreaker items
  | .autoEvict dead ready pinned => .autoEvict dead items ready pinned now after

/-- The node holds the volume's teardown finalizer without a leg. -/
def teardownPending (vol : MiroirVolume) (node : String) : Bool :=
  node ∈ vol.finalizers && !hasLegOn vol.spec.toVolumeSpec node

/-- The node is silent past the eviction threshold. -/
def nodeSilent (now after : Nat) (items : List MiroirNode) (node : String) : Bool :=
  (items.find? fun mn => mn.name = node).any (silent now after)

/-! ## The condition -/

/-- The gates of the retrofit. -/
def retrofitDue (vol : MiroirVolume) : Bool :=
  !vol.deleting && vol.spec.drbd && vol.spec.quorumPolicy = some .freeze &&
    vol.spec.replicas.length = 2 && vol.spec.diskfulReplicas.length = 2 &&
    !vol.spec.replicas.any (fun rep => rep.address = "") &&
    !vol.finalizers.any fun node => !hasLegOn vol.spec.toVolumeSpec node

/-- The gates of auto-evict, for a dead replica. -/
def evictDue (now after : Nat) (pass : AutoEvict.EvictPass) (ready : Bool) (dead : String)
    (vol : MiroirVolume) : Bool :=
  AutoEvict.due now after pass.topology pass.nodes ready dead &&
    vol.spec.replicas.any (fun rep => rep.node = dead) &&
    (AutoEvict.evictBlocked vol dead pass).isNone

section Condition

variable (key : String → String) (items : List MiroirNode) (now after : Nat) (vol : MiroirVolume)

/-- The controller's gates are open and `n` is the spare node that comes first. -/
def Placer.Turn (n : String) : Placer → Prop
  | .tieBreaker => retrofitDue vol ∧
    (fromNodes key items).FirstSpare vol.spec.toVolumeSpec (fun _ => true)
      ((fromNodes key items).zonesOf (legsAsReplicas vol.spec.toVolumeSpec)) n
  | .autoEvict dead ready pinned =>
    evictDue now after ⟨pinned, items, fromNodes key items⟩ ready dead vol ∧
    if AutoEvict.deadDiskful vol.spec.toVolumeSpec dead then
      (fromNodes key items).FirstSpare vol.spec.toVolumeSpec
        (AutoEvict.fits now ⟨pinned, items, fromNodes key items⟩ vol.spec.toVolumeSpec)
        ((fromNodes key items).zonesOf (vol.spec.replicas.filter fun rep => rep.node ≠ dead)) n
    else
      (fromNodes key items).FirstSpare vol.spec.toVolumeSpec (fun _ => true)
        ((fromNodes key items).zonesOf (legsAsReplicas vol.spec.toVolumeSpec)) n

/-- What the controller does not check by itself of a spare node. -/
def Placer.unchecked (n : String) : Placer → Bool
  | .tieBreaker => !nodeSilent now after items n
  | .autoEvict dead _ _ =>
    !teardownPending vol n && ((fromNodes key items).autoEvictAllowed n ||
      AutoEvict.deadDiskful vol.spec.toVolumeSpec dead && statsStaleAfter < after ||
      !nodeSilent now after items n)

end Condition

/-! ## The picked node -/

section

variable {key : String → String} {items : List MiroirNode} {now after : Nat} {vol : MiroirVolume}
  {n : String}

variable {spec : VolumeSpec} {dead : String}

/-- A node without a leg has one after an edit of the replicas if it is among the new ones. -/
theorem placed_iff_mem (replicas : List Replica) (hn : hasLegOn spec n = false) :
    hasLegOn { spec with replicas := replicas } n ↔ n ∈ replicas.map Replica.node := by
  refine hasLegOn_iff.trans (or_iff_left fun hmem => ?_)
  obtain ⟨cl, hcl, rfl⟩ := List.mem_map.mp hmem
  exact apart_of_hasLegOn hn hcl rfl

theorem placed_of_swap_iff (dead : String) (repl : Replica) (hn : hasLegOn spec n = false) :
    hasLegOn { spec with replicas := swapReplica spec.replicas dead repl } n ↔ repl.node = n := by
  rw [placed_iff_mem _ hn, ((perm_swapReplica _ _ _).map _).mem_iff, List.map_cons, List.mem_cons]
  refine (or_iff_left fun hmem => not_mem_of_hasLegOn hn ?_).trans eq_comm
  exact (List.filter_sublist.map _).subset hmem

/-- Where the retrofit adds a leg. -/
theorem placed_of_tieBreaker_iff {nodes : NodeMap} (hn : hasLegOn vol.spec.toVolumeSpec n = false) :
    hasLegOn (TieBreaker.reconcile nodes vol).spec.toVolumeSpec n ↔
      retrofitDue vol ∧ n ≠ "" ∧
        nodes.tieBreakerNode (legsAsReplicas vol.spec.toVolumeSpec) = n := by
  have heq : TieBreaker.reconcile nodes vol =
      if retrofitDue vol ∧ nodes.tieBreakerNode (legsAsReplicas vol.spec.toVolumeSpec) ≠ "" then
        vol.withLegs (vol.spec.replicas ++
          [{ node := nodes.tieBreakerNode (legsAsReplicas vol.spec.toVolumeSpec)
             nodeID := 0
             diskless := true }]) vol.spec.clients
      else vol := by
    simp only [TieBreaker.reconcile, retrofitDue]
    grind
  rw [heq]
  split_ifs with hdue
  · refine (placed_iff_mem _ hn).trans ?_
    rw [List.map_append, List.mem_append, or_iff_right (not_mem_of_hasLegOn hn), List.map_singleton,
      List.mem_singleton]
    exact ⟨fun h => ⟨hdue.1, h ▸ hdue.2, h.symm⟩, fun h => h.2.2.symm⟩
  · rw [hn]
    exact ⟨Bool.noConfusion, fun h => absurd ⟨h.1, h.2.2.symm ▸ h.2.1⟩ hdue⟩

/-- The node that `plan` picks for the dead replica. -/
def planNode (now : Nat) (pass : AutoEvict.EvictPass) (spec : VolumeSpec) (dead : String) :
    String :=
  if AutoEvict.deadDiskful spec dead then
    AutoEvict.replacementNode pass.topology spec dead (AutoEvict.fits now pass spec)
  else pass.topology.tieBreakerNode (legsAsReplicas spec)

/-- Where the replacement of a dead leg is. -/
theorem placed_of_plan_iff (now : Nat) (pass : AutoEvict.EvictPass) (dead : String)
    (hn : hasLegOn spec n = false) :
    ((AutoEvict.plan now pass spec dead).2.any fun new => hasLegOn new n) ↔
      spec.replicas.any (fun rep => rep.node = dead) ∧ n ≠ "" ∧
        planNode now pass spec dead = n := by
  have hswap (repl : Replica) := placed_of_swap_iff dead repl hn
  rw [AutoEvict.plan, planNode, AutoEvict.deadDiskful]
  cases hfind : spec.replicas.find? fun rep => rep.node = dead with
  | none =>
    have hnone : ¬spec.replicas.any fun rep => rep.node = dead := by
      simpa using List.find?_eq_none.mp hfind
    refine iff_of_false (fun h => ?_) fun h => hnone h.1
    rcases hasLegOn_iff.mp h with hmem | hmem
    · exact not_mem_of_hasLegOn hn hmem
    · obtain ⟨cl, hcl, rfl⟩ := List.mem_map.mp hmem
      exact apart_of_hasLegOn hn (List.mem_filter.mp hcl).1 rfl
  | some rep =>
    have hany : spec.replicas.any fun rep => rep.node = dead :=
      List.any_eq_true.mpr ⟨rep, List.mem_of_find?_eq_some hfind, by
        simpa using List.find?_some hfind⟩
    simp only [hany, true_and, Option.any_some]
    by_cases hdisk : rep.diskless
    · simp only [hdisk, if_true, Bool.not_true, Bool.false_eq_true, if_false]
      split_ifs with htb
      · exact iff_of_false (fun h => by cases h) fun h => h.1 (h.2.symm.trans htb)
      · exact (hswap _).trans ⟨fun h => ⟨h ▸ htb, h⟩, fun h => h.2⟩
    · simp only [hdisk, Bool.false_eq_true, if_false, Bool.not_false, if_true]
      split_ifs with hrepl
      · exact (hswap _).trans ⟨fun h => ⟨h ▸ hrepl, h⟩, fun h => h.2⟩
      · refine iff_of_false (fun h => ?_) fun h => h.1 (h.2.symm.trans (not_not.mp hrepl))
        obtain ⟨new, hnew, hleg⟩ := (Option.any_eq_true _ _).mp h
        obtain ⟨tb, -, rfl⟩ := Option.map_eq_some_iff.mp hnew
        rw [placed_iff_mem _ hn] at hleg
        have hmem := (List.filter_sublist.map _).subset hleg
        rw [map_node_convertTieBreaker] at hmem
        exact not_mem_of_hasLegOn hn hmem

/-- Where auto-evict adds a leg. -/
theorem placed_of_evict_iff (pass : AutoEvict.EvictPass) {ready : Bool}
    (hn : hasLegOn vol.spec.toVolumeSpec n = false) :
    hasLegOn (AutoEvict.reconcile now after pass.nodes pass.topology ready pass.pinned dead
        vol).spec.toVolumeSpec n ↔
      evictDue now after pass ready dead vol ∧ n ≠ "" ∧
        planNode now pass vol.spec.toVolumeSpec dead = n := by
  have hplan := placed_of_plan_iff now pass dead hn
  rw [AutoEvict.reconcile, evictDue, AutoEvict.evictVolume]
  cases hdue : AutoEvict.due now after pass.topology pass.nodes ready dead with
  | false => simp [hn]
  | true =>
    cases hb : AutoEvict.evictBlocked vol dead pass with
    | some r => simp [hn]
    | none =>
      simp only [Bool.true_and, Option.isNone_none, Bool.and_true]
      rw [← hplan]
      split_ifs with hdead
      · cases (AutoEvict.plan now pass vol.spec.toVolumeSpec dead).2 with
        | none => simp [hn]
        | some new => rfl
      · refine iff_of_false (by simp [hn]) fun h => hdead ?_
        obtain ⟨rep, hrep, hnode⟩ := List.any_eq_true.mp (hplan.mp h).1
        exact hasLegOn_iff.mpr (.inl (List.mem_map.mpr ⟨rep, hrep, by simpa using hnode⟩))

/-- A node with room reported not long ago. -/
theorem not_silent_of_fits {pass : AutoEvict.EvictPass}
    (h : AutoEvict.fits now pass spec n) (hafter : statsStaleAfter < after) :
    nodeSilent now after pass.nodes n = false := by
  simp only [AutoEvict.fits, Bool.and_eq_true, Option.isNone_iff_eq_none] at h
  obtain ⟨-, hroom⟩ := h
  rw [nodeSilent]
  cases hmn : pass.nodes.find? fun mn => mn.name = n with
  | none => rfl
  | some mn =>
    rw [hmn, poolRoom] at hroom
    split at hroom
    · cases hroom
    · rename_i hfresh
      rw [Option.any_some, silent]
      cases hobs : mn.observedAt with
      | none => rfl
      | some t =>
        rw [hobs, Option.all_some] at hfresh
        rw [Option.any_some]
        exact not_reached_of_not_olderThan hfresh hafter

/-- While auto-evict is due for a node, no other that takes part in it is silent. -/
theorem not_silent_of_due {topology : NodeMap} {ready : Bool} (hne : n ≠ dead)
    (hdue : AutoEvict.due now after topology items ready dead)
    (hallowed : topology.autoEvictAllowed n) : nodeSilent now after items n = false := by
  have hstale : ∀ m, topology.autoEvictAllowed m → nodeSilent now after items m →
      m ∈ AutoEvict.staleNodes now after topology items := by
    intro m hm hsilent
    obtain ⟨mn, hfind, hs⟩ := (Option.any_eq_true _ _).mp hsilent
    obtain rfl : mn.name = m := by simpa using List.find?_some hfind
    exact List.mem_map_of_mem (List.mem_filter.mpr
      ⟨List.mem_of_find?_eq_some hfind, by simp [hm, hs]⟩)
  simp only [AutoEvict.due, Bool.and_eq_true, decide_eq_true_iff] at hdue
  obtain ⟨⟨⟨hdead, hsilent⟩, -⟩, hone⟩ := hdue
  refine Bool.eq_false_iff.mpr fun hn => ?_
  have htwo : [n, dead].length ≤ (AutoEvict.staleNodes now after topology items).length := by
    refine List.Nodup.length_le_of_subset (by simpa using hne) fun m hm => ?_
    rcases List.mem_cons.mp hm with rfl | hm
    · exact hstale m hallowed hn
    · exact List.mem_singleton.mp hm ▸ hstale dead hdead hsilent
  rw [List.length_cons, List.length_singleton] at htwo
  omega

/-! ## Every placement -/

/-- A controller places a leg on the first spare node while its gates are open. -/
theorem placed_iff {c : Placer} (hn : hasLegOn vol.spec.toVolumeSpec n = false) :
    hasLegOn (edit key vol (c.edit items now after)).spec.toVolumeSpec n ↔
      n ≠ "" ∧ c.Turn key items now after vol n := by
  cases c with
  | tieBreaker =>
    refine (placed_of_tieBreaker_iff hn).trans ?_
    rw [← and_assoc, and_comm (a := _ = true), and_assoc]
    exact and_congr_right fun hname => and_congr_right fun _ => tieBreakerNode_eq_iff hname
  | autoEvict dead ready pinned =>
    refine (placed_of_evict_iff ⟨pinned, items, fromNodes key items⟩ hn).trans ?_
    rw [← and_assoc, and_comm (a := _ = true), and_assoc]
    refine and_congr_right fun hname => and_congr_right fun _ => ?_
    rw [planNode]
    split_ifs
    exacts [replacementNode_eq_iff hname, tieBreakerNode_eq_iff hname]

theorem Placer.Turn.noLeg {c : Placer} (h : c.Turn key items now after vol n) :
    hasLegOn vol.spec.toVolumeSpec n = false := by
  cases c with
  | tieBreaker => exact h.2.spare.noLeg
  | autoEvict dead ready pinned =>
    obtain ⟨-, h⟩ := h
    split_ifs at h
    exacts [h.spare.noLeg, h.spare.noLeg]

end

/-- For every volume, topology, set of finalizers and heartbeats: a node on which a controller
places a leg by itself neither has the volume's teardown pending nor is silent past the threshold,
exactly if the first spare node, while the controller's gates are open, is sound where the
controller does not look. -/
theorem placed_soundly_iff (key : String → String) (items : List MiroirNode) (now after : Nat)
    (vol : MiroirVolume) (c : Placer) :
    (∀ n ≠ "", c.Turn key items now after vol n → c.unchecked key items now after vol n = true) ↔
      ∀ n, hasLegOn vol.spec.toVolumeSpec n = false →
        hasLegOn (edit key vol (c.edit items now after)).spec.toVolumeSpec n = true →
        teardownPending vol n = false ∧ nodeSilent now after items n = false := by
  constructor
  · intro h n hn hplaced
    obtain ⟨hname, hturn⟩ := (placed_iff hn).mp hplaced
    have hun := h n hname hturn
    cases c with
    | tieBreaker =>
      refine ⟨Bool.eq_false_iff.mpr fun hp => ?_, by simpa [Placer.unchecked] using hun⟩
      -- The retrofit waits while any finalizer is without a leg.
      simp only [teardownPending, Bool.and_eq_true, decide_eq_true_iff] at hp
      have hdue := hturn.1
      rw [retrofitDue, Bool.and_eq_true, List.any_eq_true.mpr ⟨n, hp⟩] at hdue
      exact Bool.noConfusion hdue.2
    | autoEvict dead ready pinned =>
      simp only [Placer.unchecked, Bool.and_eq_true, Bool.not_eq_true', Bool.or_eq_true,
        decide_eq_true_iff] at hun
      obtain ⟨hpending, hun⟩ := hun
      obtain ⟨hdue, hfirst⟩ := hturn
      simp only [evictDue, Bool.and_eq_true] at hdue
      refine ⟨hpending, ?_⟩
      rcases hun with (hallowed | ⟨hdiskful, hafter⟩) | hsilent
      · obtain ⟨rep, hrep, hnode⟩ := List.any_eq_true.mp hdue.1.2
        refine not_silent_of_due (fun hd => not_mem_of_hasLegOn hn ?_) hdue.1.1 hallowed
        exact List.mem_map.mpr ⟨rep, hrep, by simpa [hd] using hnode⟩
      · rw [if_pos hdiskful] at hfirst
        exact not_silent_of_fits hfirst.spare.keep hafter
      · exact hsilent
  · intro h n hname hturn
    have hn := hturn.noLeg
    obtain ⟨hpending, hsilent⟩ := h n hn ((placed_iff hn).mpr ⟨hname, hturn⟩)
    cases c <;> simp [Placer.unchecked, hpending, hsilent]

/-! ## Spares nobody looks at -/

/-- Storage nodes "a" and "b" report, "c" has been silent since second 100. -/
def abReport : List MiroirNode :=
  [storageNode "a" 1000, storageNode "b" 1000, storageNode "c" 100]

/-- The replicas of `onAB` and a completed tie-breaker on "c", all replicas UpToDate; "d" was
removed and holds its finalizer. -/
def tieBreakerOnC : MiroirVolume :=
  { onAB 0 1 with
    spec.replicas := (onAB 0 1).spec.replicas ++
      [{ node := "c", nodeID := 2, address := "10.0.0.c", diskless := true }]
    status := { perNode := fun _ => { diskState := some .upToDate } }
    finalizers := ["a", "b", "c", "d"] }

/-- The retrofit places the tie-breaker on "c", which is silent past the threshold; and auto-evict
moves a tie-breaker from the silent "c" to "d", whose old leg is still being torn down. -/
theorem placed_on_unsound :
    (hasLegOn (onAB 0 1).spec.toVolumeSpec "c" = false ∧
        hasLegOn (edit id (onAB 0 1) (Placer.tieBreaker.edit abReport (1000 * second)
          (600 * second))).spec.toVolumeSpec "c" = true ∧
        nodeSilent (1000 * second) (600 * second) abReport "c" = true) ∧
      hasLegOn tieBreakerOnC.spec.toVolumeSpec "d" = false ∧
        hasLegOn (edit id tieBreakerOnC ((Placer.autoEvict "c" false []).edit
          (storageNode "d" 1000 :: abReport) (1000 * second)
          (600 * second))).spec.toVolumeSpec "d" = true ∧
        teardownPending tieBreakerOnC "d" = true := by
  decide +kernel

end Miroir
