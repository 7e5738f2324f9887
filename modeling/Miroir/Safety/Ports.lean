import Miroir.Csi.CriticalSection

/-!
# One port to a volume

The replicated volumes on the API server have different ports, each at least the configured base:
an RPC takes the first port that none of the volumes it has listed uses, and no volume is created
between the list and its own create (`ports_unique`). That holds whatever fails, a create that is
taken although its RPC is told of a failure included.

It does not hold if the API server takes a create after its RPC has given it up and released the
lock: the port of such a create is not on the list of the next RPC (`late_create_shares_port`).
-/

namespace Miroir.Prov

open Process Workers Data

/-- The ports are different, and none is below the base. -/
structure DistinctPorts (cfg : Config) (vols : List MiroirVolume) : Prop where
  distinct : (ports vols).Nodup
  base : ∀ p ∈ ports vols, cfg.portBase ≤ p

/-- What of a volume its port depends on. -/
def portKey (v : MiroirVolume) : Bool × Nat := (v.spec.drbd, v.spec.drbdSpec.port)

theorem ports_eq (vols : List MiroirVolume) :
    ports vols = ((vols.map portKey).filter Prod.fst).map Prod.snd := by
  simp [ports, List.filter_map, Function.comp_def, portKey]

theorem ports_sublist {vols vols' : List MiroirVolume}
    (h : (vols.map portKey).Sublist (vols'.map portKey)) : (ports vols).Sublist (ports vols') := by
  rw [ports_eq, ports_eq]
  exact (h.filter _).map _

theorem DistinctPorts.sublist {cfg : Config} {vols vols' : List MiroirVolume}
    (h : DistinctPorts cfg vols') (hsub : (vols.map portKey).Sublist (vols'.map portKey)) :
    DistinctPorts cfg vols :=
  ⟨h.distinct.sublist (ports_sublist hsub), fun p hp => h.base p ((ports_sublist hsub).subset hp)⟩

variable {cfg : Config} {s₀ : Server} {N i : ℕ} {ρ : Run (rpcs cfg).step (init s₀) N}

theorem portKey_of_ident {v v' : MiroirVolume} (h : ident v = ident v') :
    portKey v = portKey v' := by
  rw [portKey, show v.spec = v'.spec from congrArg Prod.snd h]
  rfl

/-- An alignment leaves the ports alone. -/
theorem portKey_of_align {w : Nat} {rpc : Rpc} {e : Entry Nat Ans} {l : RpcLog}
    (h : Workers.Told ρ w rpc e l) {id : String} {size : Nat} (hc : e.cmd = .alignSize id size) :
    (ρ.state (e.time + 1)).world.vols.map portKey = (ρ.state e.time).world.vols.map portKey := by
  have hvols := (effect_of_told h).vols
  rw [hc] at hvols
  cases hvols with
  | same h => exact map_key_of_ident portKey (fun _ _ => portKey_of_ident) h
  | aligned h =>
    rw [h, Server.onVolume, Server.setVolumes, List.map_map]
    refine List.map_congr_left fun v _ => ?_
    rw [Function.comp_apply]
    split <;> rfl

/-- A new volume gets a port that no other has. -/
theorem DistinctPorts.create {vols : List MiroirVolume} {v : MiroirVolume}
    (h : DistinctPorts cfg vols)
    (hport : v.spec.drbd → ∃ L : List MiroirVolume,
      (vols.map portKey).Sublist (L.map portKey) ∧
        v.spec.drbdSpec.port = firstFree cfg.portBase (ports L)) :
    DistinctPorts cfg (vols ++ [v]) := by
  cases hd : v.spec.drbd with
  | false =>
    have hports : ports (vols ++ [v]) = ports vols := by simp [ports, hd]
    exact ⟨hports ▸ h.distinct, hports ▸ h.base⟩
  | true =>
    obtain ⟨L, hsub, hport⟩ := hport hd
    obtain ⟨hfree, hbase, -⟩ := firstFree_spec cfg.portBase (ports L)
    have hports : ports (vols ++ [v]) = ports vols ++ [firstFree cfg.portBase (ports L)] := by
      simp [ports, hd, hport]
    constructor
    · rw [hports]
      refine List.nodup_append'.mpr ⟨h.distinct, List.nodup_singleton _, fun p hp hp' => ?_⟩
      rw [List.mem_singleton.mp hp'] at hp
      exact hfree ((ports_sublist hsub).subset hp)
    · intro p hp
      rw [hports] at hp
      rcases List.mem_append.mp hp with hp | hp
      · exact h.base p hp
      · rw [List.mem_singleton.mp hp]
        exact hbase

/-- A command keeps the ports different. -/
theorem DistinctPorts.told (hlate : NoLateCreate ρ) {w : Nat} {rpc : Rpc} {e : Entry Nat Ans}
    {l : RpcLog} (htime : e.time < N) (htold : Workers.Told ρ w rpc e l)
    (h : DistinctPorts cfg (ρ.state e.time).world.vols) :
    DistinctPorts cfg (ρ.state (e.time + 1)).world.vols := by
  have halign : ∀ w rpc e l, e.time < N → Workers.Told ρ w rpc e l → ∀ id size,
      e.cmd = .alignSize id size →
      (ρ.state (e.time + 1)).world.vols.map portKey = (ρ.state e.time).world.vols.map portKey :=
    fun _ _ _ _ _ h _ _ hc => portKey_of_align h hc
  have hg := (guard_of_told htime htold).1
  have hvols := (effect_of_told htold).vols
  generalize hcmd : e.cmd = c at hg hvols
  cases hvols with
  | same heq =>
    exact h.sublist (map_key_of_ident portKey (fun _ _ => portKey_of_ident) heq ▸ .refl _)
  | created hnew hadm heq =>
    rw [heq]
    refine h.create fun hd => ?_
    obtain ⟨L, hlisted, hport⟩ := hg.port hd
    obtain ⟨o, k, -, ht, -⟩ := htold
    exact ⟨L, sublist_of_listed portKey (fun _ _ => portKey_of_ident) halign hlate
      (Nat.le_of_lt htime) ht hg.held hlisted, hport⟩
  | aligned => exact h.sublist (portKey_of_align htold hcmd ▸ .refl _)

/-- At every moment, the replicated volumes have different ports, each at least the base. -/
theorem ports_unique (hstart : DistinctPorts cfg s₀.vols) (hlate : NoLateCreate ρ) (hi : i ≤ N) :
    DistinctPorts cfg (ρ.state i).world.vols := by
  refine ρ.invariant (P := fun _ c => DistinctPorts cfg c.world.vols) hstart
    (fun i hi ih => ?_) hi
  rcases world_cases ρ hi with heq | ⟨e, ha, he⟩ | ⟨w, rpc, c, r, log, htold⟩
  · rwa [heq]
  · rcases (event_vols he).2.2 with ⟨j, rfl⟩ | hsub
    · exact absurd ha (hlate i hi j)
    · exact ih.sublist (hsub.map _)
  · exact ih.told hlate hi htold

/-! ## A create whose response is lost -/

/-- Two legs of a gigabyte. -/
def twoReplicas (name : String) : Request where
  name := name
  requiredBytes := 1073741824
  params := { replicas := 2 }

/-- No volumes yet, and no figures. -/
def noVolumes : Server where
  vols := []
  nodes := threeNodes
  stats := ∅

/-- The replies up to the create of a fresh replicated volume. -/
def upToCreate : List Outcome := List.replicate 5 .ok

/-- The create of "pvc-a" is taken but its RPC is told of a failure, and tries again; then "pvc-b"
is created. -/
def retried : List Act :=
  .start 0 (.create (twoReplicas "pvc-a")) ::
    replies 0 (upToCreate ++ [.applied "connection reset", .ok]) ++
  .start 1 (.create (twoReplicas "pvc-a")) :: replies 1 (upToCreate ++ List.replicate 4 .ok) ++
  .start 2 (.create (twoReplicas "pvc-b")) :: replies 2 (upToCreate ++ List.replicate 3 .ok)

theorem retried_possible :
    allSteps (rpcs oneToOne).step notLate (init noVolumes) retried := by
  decide +kernel

def retriedRun : Run (rpcs oneToOne).step (init noVolumes) retried.length :=
  Run.ofActions _ _ _ _ retried_possible

theorem ports_unique_retried :
    ports (retriedRun.state retried.length).world.vols = [7000, 7001] ∧
      DistinctPorts oneToOne (retriedRun.state retried.length).world.vols :=
  ⟨by decide +kernel, ports_unique ⟨by decide, by decide⟩
    (noLateCreate_of_allSteps retried_possible) (Nat.le_refl _)⟩

/-! ## A create that lands late -/

/-- The RPC of "pvc-a" reaches its deadline while its create is on its way, and releases the lock.
"pvc-b" is created before the API server takes "pvc-a". -/
def late : List Act :=
  .start 0 (.create (twoReplicas "pvc-a")) ::
    replies 0 (upToCreate ++ [.lost "context deadline exceeded", .ok]) ++
  .start 1 (.create (twoReplicas "pvc-b")) :: replies 1 (upToCreate ++ [.ok, .ok]) ++
  [.event (.land 0)]

theorem late_possible :
    allSteps (rpcs oneToOne).step (fun _ _ => true) (init noVolumes) late := by
  decide +kernel

def lateRun : Run (rpcs oneToOne).step (init noVolumes) late.length :=
  Run.ofActions _ _ _ _ late_possible

theorem late_create_shares_port :
    DistinctPorts oneToOne noVolumes.vols ∧
      (lateRun.state late.length).world.vols.map (fun v => (v.name, v.spec.drbd)) =
        [("pvc-b", true), ("pvc-a", true)] ∧
      ports (lateRun.state late.length).world.vols = [7000, 7000] :=
  ⟨⟨by decide, by decide⟩, by decide +kernel, by decide +kernel⟩

end Miroir.Prov
