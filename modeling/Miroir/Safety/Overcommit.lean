import Mathlib.Algebra.Order.BigOperators.Group.List
import Mathlib.Algebra.Order.Group.Nat
import Miroir.Csi.CriticalSection

/-!
# Overcommit

When a volume is created, every pool in which placement has put a leg of it stays within its
overcommit bound, whatever other RPCs do at the same time (`overcommit_admission`): the guard reads
the volumes under the lock, and up to the create none is added.

That needs the sizes of the volumes to stay as they are listed. A retry that finds its volume with a
size that is no multiple of a sector corrects the size without the lock, which may happen between
the list and the create of another RPC (`alignment_between_list_and_create`).
-/

namespace Miroir.Prov

open Process Workers Data

/-! ## Totals -/

/-- The bytes provisioned in a pool of a node. -/
def provisionedBytes (vols : List MiroirVolume) (node pool : String) : Nat :=
  (vols.map fun v => v.spec.bytesOn node pool).sum

/-- The figures of a node's pool. -/
def Server.figures (s : Server) (node pool : String) : Option PoolStats :=
  (s.stats.lookup node).bind fun mn => mn.pool pool

variable {name : String}

/-- With one leg to a node a volume provisions its size there at most once. -/
theorem bytesOn_le (node pool : String) {spec : VolumeSpec}
    (h : (spec.replicas.map Replica.node).Nodup) :
    spec.bytesOn node pool ≤ spec.sizeBytes := by
  rw [VolumeSpec.bytesOn]
  generalize spec.replicas = reps at h
  induction reps with
  | nil => exact Nat.zero_le _
  | cons rep reps ih =>
    obtain ⟨hnot, hreps⟩ := List.nodup_cons.mp h
    rw [List.map_cons, List.sum_cons]
    split
    · rename_i hrep
      have hnode : rep.node = node := by
        simp only [Bool.and_eq_true, decide_eq_true_iff] at hrep
        exact hrep.1.2
      have hrest : (reps.map fun rep => if !rep.diskless && rep.node = node &&
          poolOrDefault rep.pool = pool then spec.sizeBytes else 0).sum = 0 := by
        refine List.sum_eq_zero fun x hx => ?_
        obtain ⟨o, ho, rfl⟩ := List.mem_map.mp hx
        have hne : o.node ≠ node := fun h => hnot (hnode.trans h.symm ▸ List.mem_map_of_mem ho)
        simp [hne]
      omega
    · have := ih hreps
      omega

/-- Volumes of other names, all of them listed, provision no more than is counted. -/
theorem provisionedBytes_le (node pool : String) {vols L : List MiroirVolume}
    (hsub : (vols.map ident).Sublist (L.map ident)) (hname : ∀ v ∈ vols, v.name ≠ name) :
    provisionedBytes vols node pool ≤ provisionedPerPool L name node pool := by
  have hmap (vs : List MiroirVolume) : vs.map (fun v => v.spec.bytesOn node pool) =
      (vs.map ident).map fun x => x.2.bytesOn node pool := by
    simp [ident, Function.comp_def]
  have hfilter (vs : List MiroirVolume) : (vs.filter fun v => v.name ≠ name).map ident =
      (vs.map ident).filter fun x => x.1 ≠ name := by
    rw [List.filter_map]
    rfl
  have hall : vols.filter (fun v => v.name ≠ name) = vols :=
    List.filter_eq_self.mpr fun v hv => by simpa using hname v hv
  rw [provisionedBytes, provisionedPerPool, ← hall, hmap, hmap, hfilter, hfilter]
  exact ((hsub.filter _).map _).sum_le_sum fun _ _ => Nat.zero_le _

/-- A volume that fits into the room keeps the bound. -/
theorem le_scale_of_room {p : Pools} {node pool : String} {st : PoolStats} {size : Nat}
    (hsize : 1 ≤ size) (hst : p.figures node pool = some st) (hcap : 0 < st.capacityBytes)
    (h : ∀ room, p.room name node pool = some room → (size : Int) ≤ room) :
    (provisionedPerPool p.vols name node pool + size : Int) ≤
      p.overcommit.scale st.capacityBytes := by
  have hroom := h _ (by rw [Pools.room, hst, Pools.poolHeadroom,
    Option.filter_some_pos (by simpa using hcap), Option.map_some])
  omega

/-! ## Volumes that keep their size -/

/-- The volumes are admitted by the CRD and have whole sectors. -/
def Settled (vols : List MiroirVolume) : Prop :=
  ∀ v ∈ vols, v.spec.admitted = true ∧ sectorSize ∣ v.spec.sizeBytes

instance (vols : List MiroirVolume) : Decidable (Settled vols) :=
  inferInstanceAs (Decidable (∀ v ∈ vols, _))

theorem settled_of_ident {vols vols' : List MiroirVolume} (h : Settled vols)
    (heq : vols'.map ident = vols.map ident) : Settled vols' := by
  intro v hv
  have hmem : ident v ∈ vols.map ident := heq ▸ List.mem_map_of_mem hv
  obtain ⟨v', hv', hid⟩ := List.mem_map.mp hmem
  rw [show v.spec = v'.spec from congrArg Prod.snd hid.symm]
  exact h v' hv'

theorem alignSector_of_dvd {n : Nat} (h : sectorSize ∣ n) : alignSector n = n := by
  obtain ⟨k, rfl⟩ := h
  rw [alignSector, clearLow, sectorSize]
  omega

variable {cfg : Config} {s₀ : Server} {N i : ℕ} {ρ : Run (rpcs cfg).step (init s₀) N}
  {w : Nat} {rpc : Rpc} {e : Entry Nat Ans} {l : RpcLog}

theorem Settled.told (htime : e.time < N) (htold : Workers.Told ρ w rpc e l)
    (h : Settled (ρ.state e.time).world.vols) : Settled (ρ.state (e.time + 1)).world.vols := by
  have hg := (guard_of_told htime htold).1
  have hvols := (effect_of_told htold).vols
  generalize e.cmd = c at hg hvols
  cases hvols with
  | same heq => exact settled_of_ident h heq
  | created _ hadm heq =>
    rw [heq]
    intro v hv
    rcases List.mem_append.mp hv with hv | hv
    · exact h v hv
    · rw [List.mem_singleton.mp hv]
      exact ⟨hadm, hg.aligned⟩
  | @aligned id size heq =>
    obtain ⟨t, v₀, -, hlt, hsize⟩ := hg
    rw [heq]
    intro v hv
    obtain ⟨v', hv', rfl⟩ := List.mem_map.mp hv
    split
    · exact ⟨admitted_resize (h v' hv').1 (by omega), hsize ▸ dvd_alignSector⟩
    · exact h v' hv'

theorem settled (hstart : Settled s₀.vols) (hlate : NoLateCreate ρ) (hi : i ≤ N) :
    Settled (ρ.state i).world.vols := by
  refine ρ.invariant (P := fun _ c => Settled c.world.vols) hstart (fun i hi ih => ?_) hi
  rcases world_cases ρ hi with heq | ⟨e, ha, he⟩ | ⟨w, rpc, c, r, log, htold⟩
  · rwa [heq]
  · rcases (event_vols he).2.2 with ⟨j, rfl⟩ | hsub
    · exact absurd ha (hlate i hi j)
    · exact fun v hv => ih v (hsub.subset hv)
  · exact ih.told hi htold

/-- No size is corrected: every volume that is read has whole sectors. -/
theorem no_alignment (hstart : Settled s₀.vols) (hlate : NoLateCreate ρ) (htime : e.time < N)
    (htold : Workers.Told ρ w rpc e l) {id : String} {size : Nat} : e.cmd ≠ .alignSize id size := by
  intro hc
  obtain ⟨hg, hlog⟩ := guard_of_told htime htold
  rw [hc] at hg
  obtain ⟨t, v, hmem, hlt, hsize⟩ := hg
  obtain ⟨l', ht, o, k, -, -, hans⟩ := hlog.told hmem
  have hv := mem_of_getVolume hans
  have haligned := (settled hstart hlate (Nat.le_of_lt (Nat.lt_trans ht htime)) v hv).2
  rw [hsize, alignSector_of_dvd haligned] at hlt
  exact Nat.lt_irrefl _ hlt

/-- What the informer returns is admitted by the CRD. -/
theorem admitted_of_sourceVolume (hstart : Settled s₀.vols) (hlate : NoLateCreate ρ) (hi : i ≤ N)
    (hlog : Workers.LogTrue ρ w rpc l i) {src : MiroirVolume} (h : sourceVolume l = some src) :
    src.spec.admitted := by
  obtain ⟨t, id, hmem⟩ := mem_of_sourceVolume h
  obtain ⟨l', ht, o, k, -, -, hans⟩ := hlog.told hmem
  rcases admitted_of_cachedVolume hans with hv | hadm
  · exact (settled hstart hlate (Nat.le_of_lt (Nat.lt_of_lt_of_le ht hi)) src hv).1
  · exact hadm

/-- The figures are fixed. -/
theorem stats_fixed {i j : ℕ} (hij : i ≤ j) (hj : j ≤ N) :
    (ρ.state j).world.stats = (ρ.state i).world.stats :=
  world_related ρ (r := fun s s' => s'.stats = s.stats) (fun _ => rfl)
    (fun _ _ _ h h' => h'.trans h) (fun _ _ _ h => (event_vols h).1)
    (fun _ _ _ _ _ _ _ h => (effect_of_answer h).stats) hij hj

/-! ## Admission -/

/-- The legs that placement has selected for the volume that is created in a step, if one is. -/
def newLegs (c : Rpcs) (a : Act) (c' : Rpcs) : List Replica :=
  match asked c a with
  | some ⟨_, _, l, .createVolume name spec _⟩ =>
    if (c.world.volume name).isNone && (c'.world.volume name).isSome then selected l spec else []
  | _ => []

/-- The `i`-th step takes the create of a volume by an RPC with this log. -/
structure Commits (ρ : Run (rpcs cfg).step (init s₀) N) (i : ℕ) (l : RpcLog) (name : String)
    (spec : MiroirVolumeSpec) : Prop where
  told : ∃ w rpc finalizers r, Workers.Told ρ w rpc ⟨i, .createVolume name spec finalizers, r⟩ l
  new : (ρ.state i).world.volume name = none
  there : ((ρ.state (i + 1)).world.volume name).isSome = true

theorem volume_isSome_of_ident {s s' : Server} (h : s'.vols.map ident = s.vols.map ident) :
    (s'.volume name).isSome = (s.volume name).isSome := by
  have hnames : s'.vols.map MiroirVolume.name = s.vols.map MiroirVolume.name :=
    map_key_of_ident MiroirVolume.name (fun _ _ h => congrArg Prod.fst h) h
  have hany (vols : List MiroirVolume) : (vols.find? fun v => v.name = name).isSome =
      (vols.map MiroirVolume.name).any fun n => n = name := by
    rw [List.isSome_find?, List.any_map]
    rfl
  rw [Server.volume, Server.volume, hany, hany, hnames]

theorem commits_of_newLegs {rep : Replica}
    (h : rep ∈ newLegs (ρ.state i) (ρ.act i) (ρ.state (i + 1))) (hi : i < N) :
    ∃ l name spec, Commits ρ i l name spec ∧ rep ∈ selected l spec := by
  rw [newLegs] at h
  split at h
  · rename_i w rpc l name spec finalizers hasked
    split at h
    · rename_i hnew
      simp only [Bool.and_eq_true, Option.isNone_iff_eq_none] at hnew
      obtain ⟨r, htold⟩ := told_of_asked hi hasked
      exact ⟨l, name, spec, ⟨⟨w, rpc, finalizers, r, htold⟩, hnew.1, hnew.2⟩, h⟩
    · cases h
  · cases h

/-- What a create that is taken adds to. -/
theorem Commits.vols {spec : MiroirVolumeSpec} (h : Commits ρ i l name spec) :
    spec.admitted ∧ ∃ finalizers, (ρ.state (i + 1)).world.vols =
      (ρ.state i).world.vols ++ [{ name := name, spec := spec, finalizers := finalizers }] := by
  obtain ⟨⟨w, rpc, finalizers, r, htold⟩, hnew, hthere⟩ := h
  cases (effect_of_told htold).vols with
  | same heq =>
    rw [volume_isSome_of_ident heq, hnew] at hthere
    cases hthere
  | created _ hadm heq => exact ⟨hadm, finalizers, heq⟩

/-- When a volume is created, the pools that placement has selected for it stay within their
bounds. -/
theorem overcommit_admission (hstart : Settled s₀.vols) (hlate : NoLateCreate ρ) (hi : i < N)
    {rep : Replica} (hnew : rep ∈ newLegs (ρ.state i) (ρ.act i) (ρ.state (i + 1))) {st : PoolStats}
    (hst : (ρ.state i).world.figures rep.node (poolOrDefault rep.pool) = some st)
    (hcap : 0 < st.capacityBytes) :
    (provisionedBytes (ρ.state (i + 1)).world.vols rep.node (poolOrDefault rep.pool) : Int) ≤
      cfg.overcommit.scale st.capacityBytes := by
  obtain ⟨l, name, spec, hcommit, hrep⟩ := commits_of_newLegs hnew hi
  obtain ⟨hadm, finalizers, hvols⟩ := hcommit.vols
  obtain ⟨⟨w, rpc, _, r, htold⟩, hnew, -⟩ := hcommit
  obtain ⟨hg, hlog⟩ := guard_of_told hi htold
  obtain ⟨p, t, hover, hlisted, hstats, hroom⟩ := hg.room rep hrep fun src h =>
    admitted_of_sourceVolume hstart hlate (Nat.le_of_lt hi) hlog h
  -- The volumes are among those listed, and the figures are those that were read.
  have hsub : ((ρ.state i).world.vols.map ident).Sublist (p.vols.map ident) := by
    obtain ⟨o, k, -, ht, -⟩ := htold
    exact sublist_of_listed ident (fun _ _ => id)
      (fun _ _ _ _ htime h _ _ hc => absurd hc (no_alignment hstart hlate htime h)) hlate
      (Nat.le_of_lt hi) ht hg.held hlisted
  have hfigures : p.figures rep.node (poolOrDefault rep.pool) = some st := by
    obtain ⟨l', ht, o, k, -, -, hans⟩ := hlog.told hstats
    rw [Pools.figures, ← stats_of_poolStats hans,
      ← stats_fixed (Nat.le_of_lt ht) (Nat.le_of_lt hi)]
    exact hst
  have hothers : ∀ v ∈ (ρ.state i).world.vols, v.name ≠ name := fun v hv => by
    simpa using List.find?_eq_none.mp hnew v hv
  have hcount := provisionedBytes_le rep.node (poolOrDefault rep.pool) hsub hothers
  have hbound := le_scale_of_room (facts_of_admitted hadm).1 hfigures hcap hroom
  have hone := bytesOn_le rep.node (poolOrDefault rep.pool) (facts_of_admitted hadm).2.1
  have htotal : provisionedBytes (ρ.state (i + 1)).world.vols rep.node (poolOrDefault rep.pool) =
      provisionedBytes (ρ.state i).world.vols rep.node (poolOrDefault rep.pool) +
        spec.bytesOn rep.node (poolOrDefault rep.pool) := by
    rw [hvols, provisionedBytes, List.map_append, List.sum_append]
    rfl
  rw [hover] at hbound
  omega

/-! ## One pool -/

def unreplicated (name : String) (bytes : Nat) : Request where
  name := name
  requiredBytes := bytes
  params := oneLeg

/-- A pool of 1512 bytes with a volume "old" in it. -/
def poolWith (bytes : Nat) : Server := onePool 1512 [unreplicatedOn "x" "old" bytes none]

def legOnX : Replica := { node := "x", pool := "default", nodeID := 0 }

/-- A volume of a sector is created while "old" has a sector, and deleted. -/
def besideOld : List Act :=
  .start 0 (.create (unreplicated "new" 512)) :: replies 0 (List.replicate 4 .ok) ++
  .start 1 (.delete "old") :: replies 1 [.ok] ++ replies 0 [.ok, .ok, .ok]

theorem besideOld_possible :
    allSteps (rpcs oneToOne).step notLate (init (poolWith 512)) besideOld := by
  decide +kernel

def besideOldRun : Run (rpcs oneToOne).step (init (poolWith 512)) besideOld.length :=
  Run.ofActions _ _ _ _ besideOld_possible

theorem overcommit_admission_besideOld :
    provisionedBytes (besideOldRun.state 8).world.vols "x" "default" = 1024 ∧
      (provisionedBytes (besideOldRun.state 8).world.vols "x" "default" : Int) ≤ 1512 := by
  have hnew : legOnX ∈ newLegs (besideOldRun.state 7) (besideOldRun.act 7)
    (besideOldRun.state 8) := by
    decide +kernel
  exact ⟨by decide +kernel, overcommit_admission (by decide)
    (noLateCreate_of_allSteps besideOld_possible) (by decide) hnew rfl (by decide)⟩

/-! ## An alignment -/

/-- A retry finds "old" with 1000 bytes and releases the lock. A volume of a sector is placed beside
these 1000 bytes, then the retry corrects them to 1024, and then the volume is created. -/
def alignedBetween : List Act :=
  .start 0 (.create (unreplicated "old" 1000)) :: replies 0 (List.replicate 7 .ok) ++
  .start 1 (.create (unreplicated "new" 512)) :: replies 1 (List.replicate 4 .ok) ++
  replies 0 [.ok] ++ replies 1 [.ok]

theorem alignedBetween_possible :
    allSteps (rpcs oneToOne).step notLate (init (poolWith 1000)) alignedBetween := by
  decide +kernel

def alignedBetweenRun : Run (rpcs oneToOne).step (init (poolWith 1000)) alignedBetween.length :=
  Run.ofActions _ _ _ _ alignedBetween_possible

theorem alignment_between_list_and_create :
    (∀ v ∈ (poolWith 1000).vols, v.spec.admitted = true) ∧ NoLateCreate alignedBetweenRun ∧
      (alignedBetweenRun.state 14).world.figures "x" "default" = some ⟨1512, 0⟩ ∧
      newLegs (alignedBetweenRun.state 14) (alignedBetweenRun.act 14) (alignedBetweenRun.state 15) =
        [legOnX] ∧
      provisionedBytes (alignedBetweenRun.state 15).world.vols "x" "default" = 1536 :=
  ⟨by decide, noLateCreate_of_allSteps alignedBetween_possible, rfl, by decide +kernel,
    by decide +kernel⟩

end Miroir.Prov
