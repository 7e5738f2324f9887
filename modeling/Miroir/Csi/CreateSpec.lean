import Miroir.Csi.Provisioner
import Miroir.Safety.RestoreLayout

/-!
# What provisioning does to the volumes

The one place that looks into `answer` and `event`: a volume comes by a create, gets another size
by an alignment and goes when its finalizers have (`Effect`, `event_vols`).

`Guard` says under which circumstances an RPC asks the commands that matter: the create of a volume
comes from inside the critical section, with a port and legs that the list read there allows
(`Allocated`), and the alignment of a size from a volume that was read with another one.
`obeys_rpc` proves it of the two programs.
-/

namespace Miroir.Prov

open Process Prog Data Controller

/-! ## The world -/

section World

variable {s s' : Server} {w : Nat} {c : Cmd} {o : Outcome} {r : Ans c}

variable {id : String} {v : MiroirVolume}

/-- What of a volume only a create or an alignment touches. -/
def ident (v : MiroirVolume) : String × MiroirVolumeSpec := (v.name, v.spec)

/-- What a command can do to the volumes. -/
inductive VolumesAfter (s s' : Server) : Cmd → Prop
  | same {c : Cmd} (h : s'.vols.map ident = s.vols.map ident) : VolumesAfter s s' c
  | created {name : String} {spec : MiroirVolumeSpec} {finalizers : List String}
      (hnew : s.volume name = none) (hadm : spec.admitted = true)
      (h : s'.vols = s.vols ++ [{ name := name, spec := spec, finalizers := finalizers }]) :
      VolumesAfter s s' (.createVolume name spec finalizers)
  | aligned {id : String} {size : Nat}
      (h : s' = s.onVolume id fun v => { v with spec.sizeBytes := size }) :
      VolumesAfter s s' (.alignSize id size)

/-- What a command does. -/
structure Effect (s s' : Server) (w : Nat) (c : Cmd) : Prop where
  stats : s'.stats = s.stats
  lock : c = .lock → s.holder = none ∧ s'.holder = some w
  unlock : c = .unlock → s'.holder = none
  holder : c ≠ .lock → c ≠ .unlock → s'.holder = s.holder
  vols : VolumesAfter s s' c

theorem map_ident_onVolume {f : MiroirVolume → MiroirVolume}
    (hf : ∀ v, ident (f v) = ident v) : (s.onVolume id f).vols.map ident = s.vols.map ident := by
  simp only [Server.onVolume, Server.setVolumes, List.map_map]
  refine List.map_congr_left fun v _ => ?_
  rw [Function.comp_apply]
  split
  · exact hf v
  · rfl

/-- A command that is neither of the lock's and leaves the volumes alone. -/
theorem Effect.of_same (hl : c ≠ .lock) (hu : c ≠ .unlock) (hs : s'.stats = s.stats)
    (hh : s'.holder = s.holder) (hv : s'.vols.map ident = s.vols.map ident) : Effect s s' w c :=
  ⟨hs, fun h => absurd h hl, fun h => absurd h hu, fun _ _ => hh, .same hv⟩

theorem Effect.refl (hl : c ≠ .lock) (hu : c ≠ .unlock) : Effect s s w c :=
  .of_same hl hu rfl rfl rfl

theorem effect_create {name : String} {spec : MiroirVolumeSpec} {finalizers : List String} :
    Effect s (s.create ⟨name, spec, finalizers⟩).2 w (.createVolume name spec finalizers) := by
  rw [Server.create]
  split
  · exact .refl nofun nofun
  · rename_i hnew
    split
    · exact .refl nofun nofun
    · rename_i hadm
      exact ⟨rfl, nofun, nofun, fun _ _ => rfl,
        .created (by simpa using hnew) (by simpa using hadm) rfl⟩

theorem effect_align {size : Nat} :
    Effect s (s.align id size).2 w (.alignSize id size) := by
  rw [Server.align]
  split
  · exact .refl nofun nofun
  · split
    · exact .refl nofun nofun
    · exact ⟨rfl, nofun, nofun, fun _ _ => rfl, .aligned rfl⟩

theorem effect_delete : Effect s (s.delete id).2 w (.deleteVolume id) := by
  rw [Server.delete]
  split
  · exact .refl nofun nofun
  · exact .of_same nofun nofun rfl rfl (map_ident_onVolume fun _ => rfl)

theorem effect_createSnap {x volume : String} {finalizers : List String} :
    Effect s (s.createSnap x volume finalizers).2 w (.createSnapshot x volume finalizers) := by
  rw [Server.createSnap]
  split <;> exact .of_same nofun nofun rfl rfl rfl

theorem effect_deleteSnap {x : String} : Effect s (s.deleteSnap x).2 w (.deleteSnapshot x) := by
  rw [Server.deleteSnap]
  split <;> exact .of_same nofun nofun rfl rfl rfl

theorem world_of_some {α : Type} {p q : α × Server} (h : some p = some q) : q.2 = p.2 := by
  cases h
  rfl

/-- Everything an answer can do. -/
theorem effect_of_answer (h : answer s w c o = some (r, s')) : Effect s s' w c := by
  cases c with
  | lock =>
    cases o with
    | ok =>
      simp only [answer] at h
      split at h
      · rename_i hfree
        cases h
        exact ⟨rfl, fun _ => ⟨Option.isNone_iff_eq_none.mp hfree, rfl⟩, nofun,
          fun hl => absurd rfl hl, .same rfl⟩
      · cases h
    | _ => cases h
  | unlock =>
    cases o with
    | ok =>
      cases h
      exact ⟨rfl, nofun, fun _ => rfl, fun _ hu => absurd rfl hu, .same rfl⟩
    | _ => cases h
  | createVolume name spec finalizers =>
    cases o with
    | ok | applied =>
      obtain rfl := world_of_some h
      exact effect_create
    | lost =>
      obtain rfl := world_of_some h
      exact .of_same nofun nofun rfl rfl rfl
    | fail =>
      obtain rfl := world_of_some h
      exact .refl nofun nofun
    | _ => cases h
  | alignSize id size =>
    cases o with
    | ok | applied =>
      obtain rfl := world_of_some h
      exact effect_align
    | fail =>
      obtain rfl := world_of_some h
      exact .refl nofun nofun
    | _ => cases h
  | deleteVolume id =>
    cases o with
    | ok | applied =>
      obtain rfl := world_of_some h
      exact effect_delete
    | fail =>
      obtain rfl := world_of_some h
      exact .refl nofun nofun
    | _ => cases h
  | createSnapshot x volume finalizers =>
    cases o with
    | ok =>
      obtain rfl := world_of_some h
      exact effect_createSnap
    | invalid | fail =>
      obtain rfl := world_of_some h
      exact .refl nofun nofun
    | _ => cases h
  | deleteSnapshot x =>
    cases o with
    | ok =>
      obtain rfl := world_of_some h
      exact effect_deleteSnap
    | fail =>
      obtain rfl := world_of_some h
      exact .refl nofun nofun
    | _ => cases h
  | markFormatted id =>
    cases o with
    | ok =>
      obtain rfl := world_of_some h
      exact .of_same nofun nofun rfl rfl (map_ident_onVolume fun _ => rfl)
    | fail =>
      obtain rfl := world_of_some h
      exact .refl nofun nofun
    | _ => cases h
  | cachedVolume id =>
    cases o with
    | volume vol =>
      simp only [answer] at h
      split at h
      · obtain rfl := world_of_some h
        exact .refl nofun nofun
      · cases h
    | ok | notFound | fail =>
      obtain rfl := world_of_some h
      exact .refl nofun nofun
    | _ => cases h
  | cachedSnapshot x =>
    cases o with
    | snapshot snap =>
      simp only [answer] at h
      split at h
      · obtain rfl := world_of_some h
        exact .refl nofun nofun
      · cases h
    | ok | notFound | fail =>
      obtain rfl := world_of_some h
      exact .refl nofun nofun
    | _ => cases h
  | topology =>
    cases o with
    | ok | topology | fail =>
      obtain rfl := world_of_some h
      exact .refl nofun nofun
    | _ => cases h
  | secret =>
    cases o with
    | ok | secret | fail =>
      obtain rfl := world_of_some h
      exact .refl nofun nofun
    | _ => cases h
  | poolStats | listVolumes | getVolume | getSnapshot | waitSnapshotReady | waitReady =>
    cases o with
    | ok | fail =>
      obtain rfl := world_of_some h
      exact .refl nofun nofun
    | _ => cases h

/-- A request on its way is taken, or nothing is added. -/
theorem event_vols {e : Event} (h : event s e = some s') :
    s'.stats = s.stats ∧ s'.holder = s.holder ∧ ((∃ i, e = .land i) ∨ s'.vols.Sublist s.vols) := by
  cases e with
  | land i =>
    obtain ⟨p, -, rfl⟩ := Option.map_eq_some_iff.mp h
    have heff : Effect s (s.create p).2 0 (.createVolume p.name p.spec p.finalizers) :=
      effect_create
    exact ⟨heff.stats, heff.holder nofun nofun, .inl ⟨i, rfl⟩⟩
  | gone name =>
    cases h
    exact ⟨rfl, rfl, .inr List.filter_sublist⟩
  | snapStatus x st =>
    cases h
    exact ⟨rfl, rfl, .inr (.refl _)⟩

theorem mem_of_found (h : found (s.volume id) = .ok v) :
    v ∈ s.vols := by
  rw [Server.volume] at h
  cases hv : s.vols.find? fun v => v.name = id with
  | none =>
    rw [hv] at h
    cases h
  | some v' =>
    rw [hv] at h
    cases h
    exact List.mem_of_find?_eq_some hv

/-- A read of one volume returns one that is there. -/
theorem mem_of_getVolume
    (h : answer s w (.getVolume id) o = some (.ok v, s')) : v ∈ s.vols := by
  cases o with
  | ok => exact mem_of_found (congrArg Prod.fst (Option.some.inj h))
  | _ => cases h

/-- The informer returns a volume that is there, or an older one. -/
theorem admitted_of_cachedVolume
    (h : answer s w (.cachedVolume id) o = some (.ok v, s')) :
    v ∈ s.vols ∨ v.spec.admitted := by
  cases o with
  | ok => exact .inl (mem_of_found (congrArg Prod.fst (Option.some.inj h)))
  | volume vol =>
    simp only [answer] at h
    split at h
    · rename_i hvol
      cases h
      exact .inr (Bool.and_eq_true_iff.mp hvol).2
    · cases h
  | _ => cases h

/-- A list is of the volumes that are there. -/
theorem vols_of_listVolumes {L : List MiroirVolume}
    (h : answer s w .listVolumes o = some (.ok L, s')) : s' = s ∧ s.vols = L := by
  cases o with
  | ok =>
    cases h
    exact ⟨rfl, rfl⟩
  | _ => cases h

theorem stats_of_poolStats {stats : AList fun _ : String => MiroirNode}
    (h : answer s w .poolStats o = some (.ok stats, s')) : s.stats = stats := by
  cases o with
  | ok =>
    cases h
    rfl
  | _ => cases h

end World

/-! ## The lock -/

def allocMu (cfg : Config) : Locks (rpcs cfg) Unit where
  use
    | .lock, _ => some (.take ())
    | .unlock, _ => some (.give ())
    | _, _ => none
  slot s _ := s.holder
  take {s w j c o r s' k} h hu := by
    have heff : Effect s s' w c := effect_of_answer h
    cases c with
    | lock =>
      obtain ⟨hfree, hs'⟩ := heff.lock rfl
      exact ⟨hfree, funext fun _ => hs'⟩
    | _ => cases hu
  give {s w j c o r s' k} h hu := by
    have heff : Effect s s' w c := effect_of_answer h
    cases c with
    | unlock => exact funext fun _ => heff.unlock rfl
    | _ => cases hu
  keep {s w j c o r s'} h hu := by
    have heff : Effect s s' w c := effect_of_answer h
    refine funext fun _ => heff.holder ?_ ?_
    · rintro rfl
      cases hu
    · rintro rfl
      cases hu
  event h := funext fun _ => (event_vols h).2.1

/-! ## What an RPC has read -/

/-- The list it read since it took the lock and last asked for a create. -/
def listed : RpcLog → Option (List MiroirVolume)
  | [] => none
  | ⟨_, .listVolumes, .ok vols⟩ :: _ => some vols
  | ⟨_, .listVolumes, .error _⟩ :: _ | ⟨_, .lock, _⟩ :: _ | ⟨_, .unlock, _⟩ :: _
  | ⟨_, .createVolume .., _⟩ :: _ => none
  | _ :: l => listed l

/-- The last volume it got from the informer: for a restore, the one it follows. -/
def sourceVolume : RpcLog → Option MiroirVolume
  | [] => none
  | ⟨_, .cachedVolume _, .ok vol⟩ :: _ => some vol
  | _ :: l => sourceVolume l

theorem mem_of_sourceVolume {l : RpcLog} {src : MiroirVolume} (h : sourceVolume l = some src) :
    ∃ (t : Nat) (id : String), ⟨t, .cachedVolume id, .ok src⟩ ∈ l := by
  induction l with
  | nil => cases h
  | cons e l ih =>
    obtain ⟨t, c, r⟩ := e
    have hrest (h : sourceVolume l = some src) :
        ∃ (t' : Nat) (id : String), ⟨t', .cachedVolume id, .ok src⟩ ∈ ⟨t, c, r⟩ :: l := by
      obtain ⟨t', id, hmem⟩ := ih h
      exact ⟨t', id, .tail _ hmem⟩
    cases c with
    | cachedVolume id =>
      rcases r with (err | vol)
      · exact hrest h
      · cases h
        exact ⟨t, id, .head _⟩
    | _ => exact hrest h

/-- The legs placement has selected: the diskful ones that are not the source's. -/
def selected (l : RpcLog) (spec : MiroirVolumeSpec) : List Replica :=
  spec.diskfulReplicas.filter fun rep => (sourceVolume l).all fun src =>
    rep.node ∉ src.spec.diskfulReplicas.map Replica.node

/-- What a spec owes to the reads of its RPC. -/
structure Allocated (cfg : Config) (l : RpcLog) (name : String) (spec : MiroirVolumeSpec) :
    Prop where
  held : (allocMu cfg).holds () l = true
  aligned : sectorSize ∣ spec.sizeBytes
  port : spec.drbd = true →
    ∃ L, listed l = some L ∧ spec.drbdSpec.port = firstFree cfg.portBase (ports L)
  /-- A selected leg has room, where the pool's figures are known. -/
  room : ∀ rep ∈ selected l spec, (∀ src ∈ sourceVolume l, src.spec.admitted = true) →
    ∃ (p : Pools) (t : Nat), p.overcommit = cfg.overcommit ∧ listed l = some p.vols ∧
      ⟨t, .poolStats, .ok p.stats⟩ ∈ l ∧
      ∀ room, p.room name rep.node (poolOrDefault rep.pool) = some room →
        (spec.sizeBytes : Int) ≤ room

/-- When a command may be asked. -/
def Guard (cfg : Config) (l : RpcLog) : Cmd → Prop
  | .unlock => (allocMu cfg).holds () l = true
  | .createVolume name spec _ => Allocated cfg l name spec
  | .alignSize id size => ∃ (t : Nat) (v : MiroirVolume), ⟨t, .getVolume id, .ok v⟩ ∈ l ∧
      v.spec.sizeBytes < size ∧ size = alignSector v.spec.sizeBytes
  | _ => True

/-! ## Selected legs -/

section Selected

variable {p : Pools} {tb : Bool} {req : CreateRequest} {base : Option (List Replica)}
  {reps legs layout : List Replica} {rep : Replica}

/-- A leg of a reshaped layout is the source's, or has been placed beside it. -/
theorem placed_of_reshapeLegs (h : (p.controller tb).reshapeLegs req reps = .ok legs)
    (hrep : rep ∈ legs) :
    rep ∈ diskfulOf reps ∨ (diskfulOf reps).length < req.replicas ∧ rep.pool = req.pool ∧
      p.overcommitted req rep.node = false := by
  simp only [reshapeLegs] at h
  split at h
  · obtain ⟨pin, -, h⟩ := bind_eq_ok.mp h
    cases h
    exact .inl (mem_of_keepRestoreLegs hrep)
  · split at h
    · rename_i hlt
      obtain ⟨extra, hextra, h⟩ := bind_eq_ok.mp h
      cases h
      refine (List.mem_append.mp hrep).imp_right fun hrep => ?_
      obtain ⟨leg, hleg, rfl⟩ := List.mem_map.mp hrep
      have hplaced := (Pools.place_spec hextra).2.2 leg hleg
      exact ⟨hlt, hplaced.pool, hplaced.room⟩
    · cases h
      exact .inl hrep

/-- What reshaping keeps of a leg. -/
theorem mem_of_reshapeRestore (h : (p.controller tb).reshapeRestore req reps = .ok layout)
    (hrep : rep ∈ layout) (hd : rep.diskless = false) :
    ∃ legs leg, (p.controller tb).reshapeLegs req reps = .ok legs ∧ leg ∈ legs ∧
      rep.node = leg.node ∧ rep.pool = leg.pool := by
  obtain ⟨legs, hlegs, h⟩ := bind_eq_ok.mp h
  refine ⟨legs, ?_⟩
  split at h
  · cases h
    obtain ⟨leg, hleg, rfl⟩ := List.mem_map.mp hrep
    exact ⟨leg, hlegs, List.mem_of_mem_take hleg, rfl, rfl⟩
  · obtain ⟨out, hout, h⟩ := bind_eq_ok.mp h
    have hmem : rep ∈ out := by
      rcases withTieBreaker_cases h with rfl | ⟨-, -, tie, rfl, htie, -⟩
      · exact hrep
      · refine (List.mem_append.mp hrep).resolve_right fun hrep => ?_
        rw [List.mem_singleton.mp hrep, htie] at hd
        cases hd
    have hpair : (rep.node, rep.pool) ∈ legs.map fun leg => (leg.node, leg.pool) := by
      rw [← map_of_renumber (fun _ _ _ => rfl) hout]
      exact List.mem_map_of_mem hmem
    obtain ⟨leg, hleg, heq⟩ := List.mem_map.mp hpair
    exact ⟨leg, hlegs, hleg, (Prod.ext_iff.mp heq).1.symm, (Prod.ext_iff.mp heq).2.symm⟩

/-- A diskful leg that is not on a node of the source has been placed where there is room. -/
theorem room_of_placeVolume (h : (p.controller tb).placeVolume req base = .ok layout)
    (hrep : rep ∈ layout) (hd : rep.diskless = false)
    (hnew : ∀ reps ∈ base, rep.node ∉ (diskfulOf reps).map Replica.node) :
    (∀ reps ∈ base, (diskfulOf reps).length < req.replicas) ∧ rep.pool = req.pool ∧
      p.overcommitted req rep.node = false := by
  cases base with
  | none =>
    obtain ⟨legs, hlegs, h⟩ := bind_eq_ok.mp h
    have hmem : rep ∈ diskfulOf layout := List.mem_filter.mpr ⟨hrep, by simp [hd]⟩
    rw [diskfulOf_withTieBreaker h fun rep hrep => ?_] at hmem
    · obtain ⟨leg, hleg, rfl⟩ := List.mem_map.mp hmem
      have hplaced := (Pools.place_spec hlegs).2.2 leg hleg
      exact ⟨nofun, hplaced.pool, hplaced.room⟩
    · obtain ⟨leg, -, rfl⟩ := List.mem_map.mp hrep
      rfl
  | some reps =>
    have hnew := hnew reps rfl
    rw [Controller.placeVolume] at h
    split at h
    · cases h
      exact absurd (List.mem_map_of_mem (List.mem_filter.mpr ⟨hrep, by simp [hd]⟩)) hnew
    · obtain ⟨legs, leg, hlegs, hleg, hnode, hpool⟩ := mem_of_reshapeRestore h hrep hd
      rw [hnode] at hnew
      rcases placed_of_reshapeLegs hlegs hleg with hold | ⟨hlt, hp, hroom⟩
      · exact absurd (List.mem_map_of_mem hold) hnew
      · exact ⟨fun _ heq => by cases heq; exact hlt, hpool.trans hp, hnode ▸ hroom⟩

end Selected

/-! ## Before the lock -/

section Resolve

variable {cfg : Config} {req : Request} {size : Nat} {l : RpcLog} {α : Type}

/-- The commands that may always be asked. -/
def Free : Cmd → Prop
  | .unlock | .createVolume .. | .alignSize .. => False
  | _ => True

theorem guard_of_free {c : Cmd} (h : Free c) : Guard cfg l c := by
  cases c with
  | unlock | createVolume | alignSize => cases h
  | _ => trivial

theorem obeys_of_free {p : RpcM α} (h : Asks Free p) :
    Obeys (fun _ => Free) (fun _ _ => True) l p :=
  (h.obeys fun _ _ _ hc => hc).mono fun _ _ _ => trivial

theorem asks_nameTaken {clone src snapName : String} :
    Asks Free (nameTaken clone src snapName) := by
  refine asks_call_bind trivial fun r => ?_
  rcases r with (e | existing)
  · cases e <;> trivial
  · dsimp only
    split <;> trivial

theorem asks_ensureSnapshot {name : String} {vol : MiroirVolume} :
    Asks Free (ensureSnapshot name vol) := by
  refine asks_call_bind trivial fun r => ?_
  rcases r with (e | snap)
  · cases e with
    | alreadyExists =>
      refine asks_call_bind trivial fun r => ?_
      rcases r with (e | existing)
      · trivial
      · dsimp only
        split
        · trivial
        · split <;> trivial
    | _ => trivial
  · trivial

theorem obeys_ensureCloneSnapshot {src clone pool : String} :
    Obeys (fun _ => Free) (fun _ r => ∀ x, r = .ok x → x = "clone-" ++ clone) l
      (ensureCloneSnapshot src clone size pool) := by
  refine (obeys_of_free asks_nameTaken).bind fun l r _ => ?_
  rcases r with (st | _)
  · exact nofun
  refine obeys_call_bind trivial fun t r => ?_
  rcases r with (e | vol)
  · cases e <;> exact nofun
  dsimp only
  split
  · exact nofun
  split
  · exact nofun
  refine (obeys_of_free asks_ensureSnapshot).bind fun l r _ => ?_
  rcases r with (st | _)
  · exact nofun
  refine obeys_call_bind trivial fun t r => ?_
  rcases r with (e | _)
  · exact nofun
  · rintro _ ⟨⟩
    rfl

/-- The snapshot a request restores from. -/
def Request.snapshotName (req : Request) : String :=
  match req.source with
  | .none => ""
  | .snapshot id => id
  | .volume _ => "clone-" ++ req.name

/-- A fresh volume has asked nothing. -/
theorem obeys_resolveContentSource :
    Obeys (fun _ => Free)
      (fun (l : RpcLog) r => ∀ x, r = .ok x → x = req.snapshotName ∧ (x = "" → l = [])) []
      (resolveContentSource req size) := by
  cases hsource : req.source with
  | none =>
    simp only [resolveContentSource, Request.snapshotName, hsource]
    rintro _ ⟨⟩
    exact ⟨rfl, fun _ => rfl⟩
  | snapshot id =>
    simp only [resolveContentSource, Request.snapshotName, hsource]
    split
    · exact fun _ h => nomatch h
    · rintro _ ⟨⟩
      exact ⟨rfl, fun _ => rfl⟩
  | volume id =>
    simp only [resolveContentSource, Request.snapshotName, hsource]
    split
    · exact fun _ h => nomatch h
    · refine obeys_ensureCloneSnapshot.mono fun l r hr x hx => ?_
      obtain rfl := hr x hx
      refine ⟨rfl, fun h => ?_⟩
      have := congrArg String.length h
      simp at this

theorem obeys_snapshotSource {snapID : String} :
    Obeys (fun _ => Free) (fun l r => ∀ src, r = .ok src → sourceVolume l = some src.1) l
      (snapshotSource snapID) := by
  refine obeys_call_bind trivial fun t r => ?_
  rcases r with (e | snap)
  · cases e <;> exact fun _ h => nomatch h
  dsimp only
  split
  · exact fun _ h => nomatch h
  refine obeys_call_bind trivial fun t r => ?_
  rcases r with (e | vol)
  · exact fun _ h => nomatch h
  · rintro _ ⟨⟩
    rfl

/-- The legs a plan starts from are those of the volume that was read last. -/
def Follows (l : RpcLog) (plan : Plan) : Prop :=
  plan.base = none ∧ sourceVolume l = none ∨
    ∃ (reps : List Replica) (src : MiroirVolume) (snap : Snapshot) (c : Controller),
      plan.base = some reps ∧ sourceVolume l = some src ∧
        c.restoreReplicas src.volume snap = .ok reps

theorem obeys_resolveSource {snapID : String} (h : snapID = "" → l = []) :
    Obeys (fun _ => Free)
      (fun l r => ∀ plan, r = .ok plan → Follows l plan ∧ sourceName plan.source = snapID) l
      (resolveSource cfg req size snapID) := by
  rw [resolveSource]
  split
  · rename_i hid
    rintro _ ⟨⟩
    exact ⟨.inl ⟨rfl, h hid ▸ rfl⟩, hid.symm⟩
  refine obeys_snapshotSource.bind fun l r hr => ?_
  rcases r with (st | ⟨vol, snap⟩)
  · exact nofun
  have hsrc := hr _ rfl
  dsimp only
  split
  · exact nofun
  split
  · exact nofun
  refine obeys_call_bind trivial fun t r => ?_
  rcases r with (e | top)
  · exact nofun
  dsimp only
  split
  · exact nofun
  · rename_i reps hreps
    rintro _ ⟨⟩
    exact ⟨.inr ⟨reps, vol, snap, _, rfl, hsrc, hreps⟩, rfl⟩

theorem obeys_resolve (cfg : Config) (req : Request) (size : Nat) :
    Obeys (fun _ => Free)
      (fun l r => ∀ plan, r = .ok plan → Follows l plan ∧ sourceName plan.source = req.snapshotName)
      [] (resolve cfg req size) := by
  refine obeys_resolveContentSource.bind fun l r hr => ?_
  rcases r with (st | snapID)
  · exact nofun
  · obtain ⟨rfl, hfresh⟩ := hr snapID rfl
    exact obeys_resolveSource hfresh

end Resolve

/-! ## Volumes the CRD admits -/

section Admitted

variable {spec : MiroirVolumeSpec}

theorem facts_of_admitted (h : spec.admitted) :
    1 ≤ spec.sizeBytes ∧ (spec.replicas.map Replica.node).Nodup ∧
      0 < spec.diskfulReplicas.length := by
  simp only [MiroirVolumeSpec.admitted, VolumeSpec.admitted, Bool.and_eq_true,
    decide_eq_true_iff] at h
  obtain ⟨⟨⟨⟨⟨⟨⟨⟨⟨⟨⟨⟨⟨hsize, -⟩, hcount⟩, -⟩, -⟩, hfirst⟩, -⟩, -⟩, -⟩, hnodes⟩, -⟩, -⟩, -⟩, -⟩ := h
  refine ⟨hsize, hnodes, ?_⟩
  cases hreps : spec.replicas with
  | nil =>
    rw [hreps] at hcount
    split at hcount <;> simp at hcount
  | cons rep reps =>
    have hd : rep.diskless = false := by simpa [hreps] using hfirst
    have hmem : rep ∈ spec.diskfulReplicas := List.mem_filter.mpr ⟨by simp [hreps], by simp [hd]⟩
    exact List.length_pos_of_mem hmem

/-- The rules on a spec do not tell its positive sizes apart. -/
theorem admitted_resize {size : Nat} (h : spec.admitted) (hsize : 1 ≤ size) :
    MiroirVolumeSpec.admitted { spec with sizeBytes := size } := by
  simp only [MiroirVolumeSpec.admitted, VolumeSpec.admitted, VolumeSpec.diskfulReplicas,
    Bool.and_eq_true] at h ⊢
  obtain ⟨⟨⟨⟨⟨⟨⟨⟨⟨⟨⟨⟨⟨-, h₁⟩, h₂⟩, h₃⟩, h₄⟩, h₅⟩, h₆⟩, h₇⟩, h₈⟩, h₉⟩, h₁₀⟩, h₁₁⟩, h₁₂⟩, h₁₃⟩ := h
  exact ⟨⟨⟨⟨⟨⟨⟨⟨⟨⟨⟨⟨⟨decide_eq_true hsize, h₁⟩, h₂⟩, h₃⟩, h₄⟩, h₅⟩, h₆⟩, h₇⟩, h₈⟩, h₉⟩, h₁₀⟩, h₁₁⟩,
    h₁₂⟩, h₁₃⟩

end Admitted

/-! ## Under the lock -/

section Allocate

variable {cfg : Config} {req : Request} {size : Nat} {plan : Plan} {l l' : RpcLog}
  {vols : List MiroirVolume}

/-- The commands between the list and the create. -/
def Between : Cmd → Prop
  | .topology | .poolStats | .secret => True
  | _ => False

/-- They change nothing of what has been read and is held. -/
theorem reads_of_grew (cfg : Config) (h : Grew Between l l') :
    (allocMu cfg).holds () l' = (allocMu cfg).holds () l ∧ listed l' = listed l ∧
      sourceVolume l' = sourceVolume l := by
  obtain ⟨new, rfl, hnew⟩ := h
  induction new with
  | nil => exact ⟨rfl, rfl, rfl⟩
  | cons e new ih =>
    have ih := ih fun e he => hnew e (.tail _ he)
    have hb := hnew e (.head _)
    obtain ⟨t, c, r⟩ := e
    cases c with
    | topology | poolStats | secret => exact ih
    | _ => cases hb

theorem obeys_allocVolumes {needed : Bool} (hl : (allocMu cfg).holds () l) :
    Obeys (fun _ => Free) (fun l' r => (allocMu cfg).holds () l' ∧
        sourceVolume l' = sourceVolume l ∧
        ∀ vols, r = .ok vols → needed → listed l' = some vols) l
      (allocVolumes needed) := by
  rw [allocVolumes]
  split
  · rename_i hn
    refine ⟨hl, rfl, fun _ _ h => ?_⟩
    rw [h] at hn
    cases hn
  · refine obeys_call_bind trivial fun t r => ?_
    rcases r with (e | vols)
    · exact ⟨hl, rfl, nofun⟩
    · refine ⟨hl, rfl, ?_⟩
      rintro _ ⟨⟩ -
      rfl

/-- The layout comes from a placement over the listed volumes, with the figures that were read. -/
def PlacedOver (cfg : Config) (req : Request) (size : Nat) (plan : Plan)
    (vols : List MiroirVolume) (l : RpcLog) (placed : List Replica) : Prop :=
  ∃ p : Pools, p.overcommit = cfg.overcommit ∧ p.vols = vols ∧
    (plan.places req.params.replicas = true → ∃ t : Nat, ⟨t, .poolStats, .ok p.stats⟩ ∈ l) ∧
    (p.controller cfg.autoTieBreaker).placeVolume (req.layout size) plan.base = .ok placed

theorem obeys_placeStats {needed : Bool} :
    Obeys (fun _ => Free) (fun l' r => Grew Between l l' ∧ ∀ stats, r = .ok stats → needed →
        ∃ t : Nat, ⟨t, .poolStats, .ok stats⟩ ∈ l') l (placeStats needed) := by
  rw [placeStats]
  split
  · rename_i hn
    refine ⟨.refl l, fun _ _ h => ?_⟩
    rw [h] at hn
    cases hn
  · refine obeys_call_bind trivial fun t r => ?_
    rcases r with (e | stats)
    · exact ⟨(Grew.refl l).cons _ trivial, nofun⟩
    · refine ⟨(Grew.refl l).cons _ trivial, ?_⟩
      rintro _ ⟨⟩ -
      exact ⟨t, .head _⟩

theorem obeys_placeVolume :
    Obeys (fun _ => Free) (fun l' r => Grew Between l l' ∧
        ∀ placed, r = .ok placed → PlacedOver cfg req size plan vols l' placed) l
      (placeVolume cfg req size plan vols) := by
  rw [placeVolume]
  split
  · rename_i hcopies
    refine ⟨.refl l, ?_⟩
    rintro _ ⟨⟩
    cases hbase : plan.base with
    | none => simp [Plan.copies, hbase] at hcopies
    | some reps =>
      have hlen : (diskfulOf reps).length = req.params.replicas := by
        simpa [Plan.copies, hbase] using hcopies
      refine ⟨⟨∅, fun n => .error (.getNode n), ∅, vols, cfg.overcommit, cfg.freeSpace⟩, rfl, rfl,
        fun hplaces => ?_, ?_⟩
      · simp [Plan.places, hbase, hlen] at hplaces
      · rw [hbase]
        exact if_pos hlen
  · refine obeys_call_bind trivial fun t r => ?_
    have hgrew := (Grew.refl (P := Between) l).cons (t := t) r trivial
    rcases r with (e | top)
    · exact ⟨hgrew, nofun⟩
    refine obeys_placeStats.bind fun l' r hr => ?_
    obtain ⟨hgrew', hstats⟩ := hr
    rcases r with (st | stats)
    · exact ⟨hgrew.trans hgrew', nofun⟩
    · refine ⟨hgrew.trans hgrew', fun placed h => ⟨⟨top.1, top.2, stats, vols, cfg.overcommit,
        cfg.freeSpace⟩, rfl, rfl, hstats stats rfl, ?_⟩⟩
      exact h

theorem obeys_replication :
    Obeys (fun _ => Free) (fun l' r => Grew Between l l' ∧ ∀ drbd, r = .ok drbd →
        1 < req.params.replicas → drbd.port = firstFree cfg.portBase (ports vols)) l
      (replication cfg req vols) := by
  rw [replication]
  split
  · refine obeys_call_bind trivial fun t r => ?_
    have hgrew := (Grew.refl (P := Between) l).cons (t := t) r trivial
    rcases r with (e | sharedSecret)
    · exact ⟨hgrew, nofun⟩
    · refine ⟨hgrew, ?_⟩
      rintro _ ⟨⟩ -
      rfl
  · rename_i hone
    exact ⟨.refl l, fun _ _ h => absurd h hone⟩

/-- A selected leg was placed, beside those of the source if there is one. -/
theorem placed_of_selected {placed : List Replica} {drbd : DRBDSpec} {p : Pools} {tb : Bool}
    (hplan : Follows l plan)
    (hplace : (p.controller tb).placeVolume (req.layout size) plan.base = .ok placed)
    {rep : Replica} (hrep : rep ∈ selected l (req.spec size plan placed drbd)) :
    (∀ reps ∈ plan.base, (diskfulOf reps).length < req.params.replicas) ∧
      rep.pool = req.params.pool ∧ p.overcommitted (req.layout size) rep.node = false := by
  obtain ⟨hmem, hnew⟩ := List.mem_filter.mp hrep
  obtain ⟨hmem, hd⟩ := List.mem_filter.mp hmem
  refine room_of_placeVolume hplace hmem (by simpa using hd) fun reps hreps => ?_
  rcases hplan with ⟨hbase, -⟩ | ⟨reps', src, snap, c, hbase, hsrc, hrestore⟩
  · rw [hbase] at hreps
    cases hreps
  · obtain rfl : reps' = reps := Option.some.inj (hbase.symm.trans hreps)
    rw [(cleaned_of_restoreReplicas hrestore).nodes]
    rw [hsrc] at hnew
    exact of_decide_eq_true hnew

/-- Legs are placed beside a source only for a replicated volume. -/
theorem needed_of_places (hplan : Follows l plan)
    (hadm : ∀ src ∈ sourceVolume l, src.spec.admitted)
    (hplaces : ∀ reps ∈ plan.base, (diskfulOf reps).length < req.params.replicas) :
    (plan.base.isNone || 1 < req.params.replicas) := by
  rcases hplan with ⟨hbase, -⟩ | ⟨reps, src, snap, c, hbase, hsrc, hrestore⟩
  · rw [hbase]
    rfl
  · have hlen := congrArg List.length (cleaned_of_restoreReplicas hrestore).nodes
    rw [List.length_map, List.length_map] at hlen
    have hpos : 0 < (diskfulOf reps).length := hlen ▸ (facts_of_admitted (hadm src hsrc)).2.2
    have hmany : 1 < req.params.replicas := Nat.lt_of_le_of_lt hpos (hplaces reps hbase)
    simp [hmany]

/-- What is allocated from these reads. -/
theorem allocated_of_placed {placed : List Replica} {drbd : DRBDSpec}
    (hl : (allocMu cfg).holds () l) (hsize : sectorSize ∣ size) (hplan : Follows l plan)
    (hlist : (plan.base.isNone || 1 < req.params.replicas) → listed l = some vols)
    (hplaced : PlacedOver cfg req size plan vols l placed)
    (hport : 1 < req.params.replicas → drbd.port = firstFree cfg.portBase (ports vols)) :
    Allocated cfg l req.name (req.spec size plan placed drbd) where
  held := hl
  aligned := hsize
  port h := by
    have hrep : 1 < req.params.replicas := of_decide_eq_true h
    exact ⟨vols, hlist (by simp [hrep]), hport hrep⟩
  room rep hrep hadm := by
    obtain ⟨p, hover, rfl, hstats, hplace⟩ := hplaced
    obtain ⟨hplaces, hpool, hroom⟩ := placed_of_selected hplan hplace hrep
    have hfigures : plan.places req.params.replicas := by
      cases hbase : plan.base with
      | none => simp [Plan.places, hbase]
      | some reps => simpa [Plan.places, hbase] using hplaces reps hbase
    obtain ⟨t, ht⟩ := hstats hfigures
    refine ⟨p, t, hover, hlist (needed_of_places hplan hadm hplaces), ht, fun room h => ?_⟩
    rw [hpool, poolOrDefault, if_neg req.params.valid.2.2.2.2] at h
    have hfits : ((p.room req.name rep.node req.params.pool).any fun room : Int =>
      decide (room < size)) = false := hroom
    rw [h] at hfits
    exact not_lt.mp (of_decide_eq_false hfits)

theorem obeys_allocate (req : Request) (hl : (allocMu cfg).holds () l)
    (hsize : sectorSize ∣ size) (hplan : Follows l plan) :
    Obeys (fun _ => Free) (fun l' r => (allocMu cfg).holds () l' ∧
        ∀ spec, r = .ok spec → Allocated cfg l' req.name spec ∧ spec.source = plan.source) l
      (allocate cfg req size plan) := by
  refine (obeys_allocVolumes hl).bind fun l₁ r hr => ?_
  obtain ⟨hl₁, hsrc₁, hlist⟩ := hr
  rcases r with (st | vols)
  · exact ⟨hl₁, fun _ h => nomatch h⟩
  refine obeys_placeVolume.bind fun l₂ r hr => ?_
  obtain ⟨hgrew₂, hplaced⟩ := hr
  rcases r with (st | placed)
  · exact ⟨(reads_of_grew cfg hgrew₂).1.trans hl₁, fun _ h => nomatch h⟩
  refine obeys_replication.bind fun l₃ r hr => ?_
  obtain ⟨hgrew₃, hport⟩ := hr
  obtain ⟨hheld, hlisted, hsrc⟩ := reads_of_grew cfg (hgrew₂.trans hgrew₃)
  rcases r with (st | drbd)
  · exact ⟨hheld.trans hl₁, fun _ h => nomatch h⟩
  refine ⟨hheld.trans hl₁, ?_⟩
  rintro _ ⟨⟩
  refine ⟨allocated_of_placed (hheld.trans hl₁) hsize ?_
    (fun h => hlisted.trans (hlist vols rfl h)) ?_ (hport drbd rfl), rfl⟩
  · rw [Follows, hsrc, hsrc₁]
    exact hplan
  · obtain ⟨p, hover, hvols, hstats, hplace⟩ := hplaced placed rfl
    refine ⟨p, hover, hvols, fun h => ?_, hplace⟩
    obtain ⟨t, ht⟩ := hstats h
    exact ⟨t, hgrew₃.mem ht⟩

/-- The critical section: the lock is given back on every path. -/
theorem obeys_allocateAndCreate (hsize : sectorSize ∣ size) (hplan : Follows l plan) :
    Obeys (Guard cfg) (fun _ _ => True) l (allocateAndCreate cfg req size plan) := by
  refine obeys_call_bind trivial fun t r => ?_
  have hheld : (allocMu cfg).holds () (⟨t, .lock, r⟩ :: l) :=
    Locks.holds_cons_of_take rfl
  refine ((obeys_allocate req hheld hsize hplan).weaken fun _ _ => guard_of_free).bind
    fun l r hr => ?_
  obtain ⟨hheld, halloc⟩ := hr
  rcases r with (st | spec)
  · exact obeys_call_bind hheld fun _ _ => trivial
  · refine obeys_call_bind (halloc spec rfl).1 fun t r => ?_
    exact obeys_call_bind hheld fun _ _ => trivial

end Allocate

/-! ## The programs -/

section Programs

variable {cfg : Config} {req : Request} {size : Nat} {l : RpcLog}

theorem obeys_handleCreateErr {spec : MiroirVolumeSpec} {created : Except Csi.ApiErr Unit} :
    Obeys (Guard cfg) (fun _ _ => True) l (handleCreateErr req size spec created) := by
  rcases created with (e | _)
  · cases e with
    | alreadyExists =>
      refine obeys_call_bind trivial fun t r => ?_
      rcases r with (e | existing)
      · trivial
      dsimp only
      split
      · trivial
      rename_i hsame
      split
      · rename_i hlt
        have halign : alignSector existing.spec.sizeBytes = size := by
          simp only [sameRequest, Bool.not_eq_true', Bool.not_eq_false, Bool.and_eq_true,
            decide_eq_true_iff] at hsame
          exact hsame.1.1.1.1.1
        refine obeys_call_bind ⟨t, existing, .head _, hlt, halign.symm⟩ fun t r => ?_
        rcases r with (e | _) <;> trivial
      · trivial
    | _ => trivial
  · trivial

theorem asks_inheritFormatted {name : String} {formatted : Bool} :
    Asks Free (inheritFormatted name formatted) := by
  rw [inheritFormatted]
  split
  · refine asks_call_bind trivial fun r => ?_
    rcases r with (e | _) <;> trivial
  · trivial

theorem obeys_provision (hsize : sectorSize ∣ size) :
    Obeys (Guard cfg) (fun _ _ => True) [] (provision cfg req size) := by
  refine ((obeys_resolve cfg req size).weaken fun _ _ => guard_of_free).bind fun l r hr => ?_
  rcases r with (st | plan)
  · trivial
  refine (obeys_allocateAndCreate hsize (hr plan rfl).1).bind fun l r _ => ?_
  rcases r with (st | ⟨spec, created⟩)
  · trivial
  refine obeys_handleCreateErr.bind fun l r _ => ?_
  rcases r with (st | spec)
  · trivial
  refine ((obeys_of_free asks_inheritFormatted).weaken
    fun _ _ => guard_of_free).bind fun l r _ => ?_
  rcases r with (st | _) <;> trivial

theorem aligned_of_sizeBytes (h : req.sizeBytes = .ok size) : sectorSize ∣ size := by
  rw [Request.sizeBytes] at h
  cases hs : createSize req.requiredBytes req.limitBytes with
  | error st => rw [hs] at h; cases h
  | ok n =>
    rw [hs] at h
    cases h
    obtain ⟨m, -, hm⟩ := bind_eq_ok.mp hs
    have hdvd : (sectorSize : Int) ∣ alignSector64 m := dvd_mul_left _ _
    rw [createSize.checkLimit] at hm
    split at hm
    · cases hm
    · cases hm
      simp only [sectorSize] at hdvd ⊢
      omega

theorem aligned_of_validate (h : req.validate cfg = .ok size) : sectorSize ∣ size := by
  rw [Request.validate] at h
  split at h
  · cases h
  · obtain ⟨size', hsize, h⟩ := bind_eq_ok.mp h
    obtain ⟨_, -, h⟩ := bind_eq_ok.mp h
    cases h
    exact aligned_of_sizeBytes hsize

theorem obeys_createVolume : Obeys (Guard cfg) (fun _ _ => True) [] (createVolume cfg req) := by
  rw [createVolume]
  split
  · trivial
  · rename_i size hsize
    refine (obeys_provision (aligned_of_validate hsize)).bind fun l r _ => ?_
    rcases r with (st | spec)
    · trivial
    · refine obeys_call_bind trivial fun t r => ?_
      rcases r with (e | _) <;> trivial

theorem asks_deleteVolume {id : String} : Asks Free (deleteVolume id) := by
  have hclone : Asks Free (deleteCloneSnapshot id) := by
    refine asks_call_bind trivial fun r => ?_
    rcases r with (e | snap)
    · cases e <;> trivial
    · dsimp only
      split
      · refine asks_call_bind trivial fun r => ?_
        rcases r with (e | _)
        · cases e <;> trivial
        · trivial
      · trivial
  rw [deleteVolume]
  split
  · trivial
  · refine asks_call_bind trivial fun r => ?_
    rcases r with (e | _)
    · cases e with
      | notFound => exact hclone
      | _ => trivial
    · exact hclone

theorem obeys_rpc (rpc : Rpc) : Obeys (Guard cfg) (fun _ _ => True) [] (rpc.program cfg) := by
  cases rpc with
  | create req => exact obeys_createVolume.bind fun _ _ _ => trivial
  | delete id =>
    exact ((obeys_of_free asks_deleteVolume).weaken fun _ _ => guard_of_free).bind
      fun _ _ _ => trivial

end Programs

/-! ## A small cluster -/

/-- Both ratios are 1. -/
def oneToOne : Config where
  overcommit := ⟨id, "1"⟩
  freeSpace := ⟨id, "1"⟩

/-- The class of volumes with one leg. -/
def oneLeg : ClassParams := { replicas := 1 }

/-- An unreplicated volume as `CreateVolume` makes it. -/
def unreplicatedOn (node name : String) (bytes : Nat) (source : Option VolumeSource) :
    MiroirVolume where
  name := name
  spec :=
    { sizeBytes := bytes
      replicas := [{ node := node, pool := "default", nodeID := 0 }]
      drbd := false
      source := source
      drbdSpec := { port := 0 } }
  finalizers := [node]

/-- One node with a pool of this many bytes. -/
def onePool (capacityBytes : Int) (vols : List MiroirVolume) : Server where
  vols := vols
  nodes := AList.singleton "x" { pools := AList.singleton "default" { backend := .lvmthin } }
  stats := AList.singleton "x"
    { name := "x", observedAt := some 1000, pools := AList.singleton "default" ⟨capacityBytes, 0⟩ }

end Miroir.Prov
