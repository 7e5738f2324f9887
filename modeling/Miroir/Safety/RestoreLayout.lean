import Miroir.Controller.RestoreSpec
import Miroir.Csi.PlacementSpec

/-!
# The layout of a restore

What `CreateVolume` makes of a source's layout and the slots of a snapshot, for a class that asks
for any number of diskful legs (`SoundLayout`): that many legs on different nodes, the first of them
a leg that clones the snapshot, complete legs kept before joiners, and node ids that stay with the
metadata they key.

`restore_layout` proves it of every source with one leg to a node and one id to a completed leg. An
entry that waits for membership has no address by which `reshapeRestore` would recognize it, and is
numbered anew even though it clones the snapshot (`unaddressed_leg_renumbered`).
-/

namespace Miroir

open Data Controller

variable {c : Controller} {req : CreateRequest} {src : Volume} {snap : Snapshot}
  {base diskful legs layout : List Replica} {pin : String} {target : Nat}

variable {rep : Replica} {used : List Nat} {out reps : List Replica}

/-- The node ids of completed legs. -/
def addressedIDs (reps : List Replica) : List Nat :=
  (reps.filter fun rep => rep.address ≠ "").map Replica.nodeID

/-! ## The legs that are kept -/

/-- The seed, and the pinned leg if that is another one. -/
def keepFirst (diskful : List Replica) (pin : String) : List Replica :=
  diskful.take 1 ++ ((pinnedLeg diskful pin).filter fun rep =>
    diskful.head?.all fun seed => seed.node ≠ rep.node).toList

/-- The order in which legs are kept: complete legs and then joiners behind the first ones. -/
def keepOrder (diskful : List Replica) (pin : String) : List Replica :=
  let others := diskful.tail.filter fun rep => rep.node ≠ pin
  keepFirst diskful pin ++
    (others.filter (fun rep => !rep.fullSync) ++ others.filter Replica.fullSync)

/-- The pin names no leg, or a complete one. -/
def PinOk (diskful : List Replica) (pin : String) : Prop :=
  pin = "" ∨ ∃ rep ∈ diskful, rep.node = pin ∧ rep.fullSync = false

/-- A pinned leg is the only one on its node. -/
theorem pinnedLeg_eq (hnodup : (diskful.map Replica.node).Nodup)
    (hrep : rep ∈ diskful) (hnode : rep.node = pin) (hpin : pin ≠ "") :
    pinnedLeg diskful pin = some rep := by
  rw [pinnedLeg, if_neg hpin]
  cases hf : diskful.find? fun rep => rep.node = pin with
  | none => exact absurd hnode (by simpa using List.find?_eq_none.mp hf rep hrep)
  | some found =>
    have heq : found.node = rep.node := by
      rw [hnode]
      simpa using List.find?_some hf
    rw [List.inj_on_of_nodup_map hnodup (List.mem_of_find?_eq_some hf) hrep heq]

/-- Without the leg on a node, with it put in front. -/
theorem perm_of_node (hnodup : (diskful.map Replica.node).Nodup)
    (hrep : rep ∈ diskful) :
    (rep :: diskful.filter fun r => r.node ≠ rep.node).Perm diskful := by
  have herase : diskful.filter (fun r => r.node ≠ rep.node) = diskful.erase rep := by
    rw [(List.Nodup.of_map _ hnodup).erase_eq_filter]
    refine List.filter_congr fun r hr => ?_
    have hiff : r.node = rep.node ↔ r = rep :=
      ⟨List.inj_on_of_nodup_map hnodup hr hrep, fun h => h ▸ rfl⟩
    by_cases h : r = rep <;> simp [hiff, h]
  rw [herase]
  exact (List.perm_cons_erase hrep).symm

/-- Nothing is lost or doubled in the order. -/
theorem keepOrder_perm (hnodup : (diskful.map Replica.node).Nodup)
    (hnames : ∀ rep ∈ diskful, rep.node ≠ "") (hpin : PinOk diskful pin) :
    (keepOrder diskful pin).Perm diskful := by
  cases diskful with
  | nil =>
    have hnone : pinnedLeg [] pin = none := by
      rw [pinnedLeg]
      split <;> rfl
    simp [keepOrder, keepFirst, hnone]
  | cons seed tail =>
    have hsplit (ls : List Replica) :
        (ls.filter (fun rep => !rep.fullSync) ++ ls.filter Replica.fullSync).Perm ls := by
      have := List.filter_append_perm (fun rep : Replica => !rep.fullSync) ls
      simpa using this
    have htail := (List.nodup_cons.mp hnodup).2
    have hseed := (List.nodup_cons.mp hnodup).1
    -- The pinned leg is none, the seed, or a leg behind it.
    have hcases : (pinnedLeg (seed :: tail) pin = none ∨ pinnedLeg (seed :: tail) pin = some seed) ∧
          tail.filter (fun rep => rep.node ≠ pin) = tail ∨
        ∃ rep ∈ tail, rep.node = pin ∧ pinnedLeg (seed :: tail) pin = some rep := by
      by_cases he : pin = ""
      · refine .inl ⟨.inl (by rw [pinnedLeg, if_pos he]), List.filter_eq_self.mpr fun r hr => ?_⟩
        simpa [he] using hnames r (.tail _ hr)
      · obtain ⟨rep, hrep, hnode, -⟩ := hpin.resolve_left he
        have hleg := pinnedLeg_eq hnodup hrep hnode he
        rcases List.mem_cons.mp hrep with rfl | hrep
        · refine .inl ⟨.inr hleg, List.filter_eq_self.mpr fun r hr => ?_⟩
          have : r.node ≠ rep.node := fun h => hseed (h ▸ List.mem_map_of_mem hr)
          simpa [← hnode] using this
        · exact .inr ⟨rep, hrep, hnode, hleg⟩
    rcases hcases with ⟨hleg, hothers⟩ | ⟨rep, hrep, hnode, hleg⟩
    · have hfirst : keepFirst (seed :: tail) pin = [seed] := by
        rcases hleg with hleg | hleg <;> simp [keepFirst, hleg]
      rw [keepOrder, hfirst, List.tail_cons, hothers]
      exact (hsplit tail).cons seed
    · have hne : seed.node ≠ rep.node := fun h => hseed (h ▸ List.mem_map_of_mem hrep)
      have hfirst : keepFirst (seed :: tail) pin = [seed, rep] := by
        simp [keepFirst, hleg, hne]
      rw [keepOrder, hfirst, List.tail_cons, ← hnode]
      exact (((hsplit _).cons rep).trans (perm_of_node htail hrep)).cons seed

/-- A complete seed and a complete pinned leg: everything complete comes before the joiners. -/
theorem keepOrder_pairwise (hseed : ∀ seed ∈ diskful.head?, seed.fullSync = false)
    (hpin : ∀ rep, pinnedLeg diskful pin = some rep → rep.fullSync = false) :
    (keepOrder diskful pin).Pairwise fun a b => a.fullSync → b.fullSync := by
  have hfront : ∀ rep ∈ keepFirst diskful pin, rep.fullSync = false := by
    intro rep hrep
    rcases List.mem_append.mp hrep with hrep | hrep
    · refine hseed rep ?_
      cases diskful with
      | nil => cases hrep
      | cons seed tail => simpa [eq_comm] using hrep
    · exact hpin rep (Option.mem_filter_iff.mp (Option.mem_toList.mp hrep)).1
  have hall {ls : List Replica} {b : Bool} (h : ∀ rep ∈ ls, rep.fullSync = b) :
      ls.Pairwise fun a b => a.fullSync → b.fullSync :=
    List.Pairwise.imp_of_mem (fun {x y} hx hy _ hxt => by rw [h y hy, ← h x hx, hxt])
      (List.pairwise_of_forall (R := fun _ _ => True) fun _ _ => trivial)
  rw [keepOrder]
  refine List.pairwise_append.mpr ⟨hall hfront, List.pairwise_append.mpr ⟨?_, ?_, ?_⟩, ?_⟩
  · exact hall fun rep hrep => by simpa using (List.mem_filter.mp hrep).2
  · exact hall fun rep hrep => (List.mem_filter.mp hrep).2
  · intro x _ y hy _
    exact (List.mem_filter.mp hy).2
  · intro x hx y _ hxt
    rw [hfront x hx] at hxt
    cases hxt

/-- Past the special case of one leg, the first `target` legs in order are kept. -/
theorem keepRestoreLegs_eq (h : ¬(target = 1 && (pinnedLeg diskful pin).isSome))
    (htarget : 0 < target) :
    keepRestoreLegs diskful target pin = (keepOrder diskful pin).take target := by
  have hlen : (keepFirst diskful pin).length ≤ target := by
    rw [keepFirst, List.length_append, List.length_take]
    cases hp : pinnedLeg diskful pin with
    | none =>
      simp
      omega
    | some rep =>
      have h1 : target ≠ 1 := fun h1 => h (by simp [h1, hp])
      have := Option.length_toList_le (o := (some rep).filter fun rep =>
        diskful.head?.all fun seed => seed.node ≠ rep.node)
      omega
  rw [keepOrder, List.take_append, List.take_of_length_le hlen, keepRestoreLegs, if_neg h]
  rfl

/-- A pinned leg is complete. -/
theorem fullSync_of_pinned (hnodup : (diskful.map Replica.node).Nodup) (hpin : PinOk diskful pin)
    (h : pinnedLeg diskful pin = some rep) : rep.fullSync = false := by
  rcases hpin with rfl | ⟨rep', hrep, hnode, hcomplete⟩
  · cases h
  · by_cases he : pin = ""
    · rw [pinnedLeg, if_pos he] at h
      cases h
    · rw [pinnedLeg_eq hnodup hrep hnode he] at h
      cases h
      exact hcomplete

/-! ## Reshaped layouts -/

/-- What becomes of the source's diskful legs, before they are numbered. -/
structure Reshaped (target : Nat) (diskful legs : List Replica) : Prop where
  length : legs.length = target
  apart : (legs.map Replica.node).Nodup
  /-- The first leg is a complete one of the source. -/
  first : ∃ rep, legs.head? = some rep ∧ rep ∈ diskful ∧ rep.fullSync = false
  /-- The others are the source's, or joiners elsewhere. -/
  origin : ∀ rep ∈ legs, rep ∈ diskful ∨
    rep.fullSync = true ∧ rep.node ∉ diskful.map Replica.node
  /-- With a complete leg gone, only complete ones stay. -/
  dropped : ∀ rep ∈ diskful, rep ∉ legs → rep.fullSync = false → ∀ kept ∈ legs,
    kept ∈ diskful → kept.fullSync = false

variable {seed : Replica}

theorem reshaped_of_keep (hnodup : (diskful.map Replica.node).Nodup)
    (hnames : ∀ rep ∈ diskful, rep.node ≠ "") (hseed : diskful.head? = some seed)
    (hcomplete : seed.fullSync = false) (hpin : PinOk diskful pin) (htarget : 0 < target)
    (hlt : target < diskful.length) :
    Reshaped target diskful (keepRestoreLegs diskful target pin) := by
  have hmem {rep : Replica} (h : rep ∈ keepRestoreLegs diskful target pin) : rep ∈ diskful :=
    mem_of_keepRestoreLegs h
  by_cases hone : (target = 1 && (pinnedLeg diskful pin).isSome)
  · -- The pinned leg alone.
    obtain ⟨h1, hsome⟩ := Bool.and_eq_true_iff.mp hone
    obtain ⟨rep, hrep⟩ := Option.isSome_iff_exists.mp hsome
    have hkept : keepRestoreLegs diskful target pin = [rep] := by
      rw [keepRestoreLegs, if_pos hone, hrep]
      rfl
    have hfull := fullSync_of_pinned hnodup hpin hrep
    have hrep : rep ∈ diskful := hmem (hkept ▸ List.mem_singleton_self rep)
    rw [hkept]
    refine ⟨(of_decide_eq_true h1).symm, by simp, ⟨rep, rfl, hrep, hfull⟩, fun r hr => ?_,
      fun _ _ _ _ kept hk _ => ?_⟩
    · exact .inl (List.mem_singleton.mp hr ▸ hrep)
    · rw [List.mem_singleton.mp hk, hfull]
  · have hperm := keepOrder_perm hnodup hnames hpin
    have hsplit : (keepOrder diskful pin).Pairwise fun a b =>
        a.fullSync → b.fullSync :=
      keepOrder_pairwise (fun s hs => by rw [hseed] at hs; cases hs; exact hcomplete)
        fun _ => fullSync_of_pinned hnodup hpin
    rw [← List.take_append_drop target (keepOrder diskful pin), List.pairwise_append] at hsplit
    have hkept := keepRestoreLegs_eq hone htarget
    rw [hkept] at hmem ⊢
    refine ⟨?_, ?_, ⟨seed, ?_, List.mem_of_mem_head? hseed, hcomplete⟩,
      fun rep hrep => .inl (hmem hrep), fun rep hrep hnot hfull kept hk _ => ?_⟩
    · rw [List.length_take, hperm.length_eq]
      omega
    · exact ((hperm.map Replica.node).nodup_iff.mpr hnodup).sublist
        ((List.take_sublist target _).map Replica.node)
    · obtain ⟨tail, rfl⟩ := List.head?_eq_some_iff.mp hseed
      obtain ⟨t, rfl⟩ := Nat.exists_eq_succ_of_ne_zero htarget.ne'
      rfl
    · have hdrop : rep ∈ (keepOrder diskful pin).drop target := by
        have := hperm.mem_iff.mpr hrep
        rw [← List.take_append_drop target (keepOrder diskful pin)] at this
        exact (List.mem_append.mp this).resolve_left hnot
      by_contra hk'
      have := hsplit.2.2 kept hk rep hdrop (by simpa using hk')
      rw [hfull] at this
      cases this

/-- The nodes a requirement is restricted to. -/
def requisiteNodes (req : CreateRequest) : List String := req.requisite.filter (· ≠ "")

/-- A selected complete leg is pinned; else the seed or the first complete leg within the requisite
nodes, if there are any, will do. -/
theorem restorePin_cases (h : restorePin req diskful = .ok pin) :
    pin = "" ∧ (req.remoteAccess ∨ selectedTopologyNode req = "" ∨ requisiteNodes req = [] ∨
        ∃ seed ∈ diskful.head?, seed.node ∈ requisiteNodes req) ∨
      ∃ rep ∈ diskful, rep.node = pin ∧ rep.fullSync = false ∧
        (pin = selectedTopologyNode req ∨ pin ∈ requisiteNodes req) := by
  rw [restorePin] at h
  split at h
  · rename_i hremote
    cases h
    exact .inl ⟨rfl, .inl hremote⟩
  · simp only [shrinkPin] at h
    split at h
    · rename_i hsel
      cases h
      rcases Bool.or_eq_true_iff.mp hsel with hsel | hsel
      · exact .inl ⟨of_decide_eq_true hsel, .inr (.inl (of_decide_eq_true hsel))⟩
      · obtain ⟨rep, hrep, hany⟩ := List.any_eq_true.mp hsel
        simp only [Bool.and_eq_true, decide_eq_true_iff, Bool.not_eq_true'] at hany
        exact .inr ⟨rep, hrep, hany.1, hany.2, .inl rfl⟩
    · split at h
      · rename_i hdo
        cases h
        refine .inl ⟨rfl, .inr (.inr ?_)⟩
        rcases Bool.or_eq_true_iff.mp hdo with hdo | hdo
        · exact .inl (List.isEmpty_iff.mp hdo)
        · obtain ⟨seed, hs, hin⟩ := (Option.any_eq_true _ _).mp hdo
          exact .inr ⟨seed, hs, of_decide_eq_true hin⟩
      · split at h
        · rename_i rep hfind
          cases h
          have hcomplete := List.find?_some hfind
          simp only [Bool.and_eq_true, Bool.not_eq_true', decide_eq_true_iff] at hcomplete
          exact .inr ⟨rep, List.mem_of_find?_eq_some hfind, rfl, hcomplete.1, .inr hcomplete.2⟩
        · cases h

theorem pinOk_of_restorePin (h : restorePin req diskful = .ok pin) : PinOk diskful pin := by
  rcases restorePin_cases h with ⟨hpin, -⟩ | ⟨rep, hrep, hnode, hcomplete, -⟩
  · exact .inl hpin
  · exact .inr ⟨rep, hrep, hnode, hcomplete⟩

/-- The node that is selected is one of the requirement's, and there is one if a node is named. -/
theorem selected_spec (h : requisiteNodes req ≠ []) :
    selectedTopologyNode req ≠ "" ∧ selectedTopologyNode req ∈ req.preferred ++ req.requisite := by
  obtain ⟨n, hn⟩ := List.exists_mem_of_ne_nil _ h
  obtain ⟨hmem, hne⟩ := List.mem_filter.mp hn
  rw [selectedTopologyNode]
  cases hf : (req.preferred ++ req.requisite).find? (· ≠ "") with
  | none => exact absurd (List.mem_append_right _ hmem) (by
      have := List.find?_eq_none.mp hf n
      tauto)
  | some m => exact ⟨by simpa using List.find?_some hf, List.mem_of_find?_eq_some hf⟩

/-- The one leg kept for a class without remote access is within the requisite nodes. -/
theorem single_within (hnodup : (diskful.map Replica.node).Nodup)
    (hnames : ∀ rep ∈ diskful, rep.node ≠ "") (hremote : req.remoteAccess = false)
    (hrequisite : requisiteNodes req ≠ [])
    (hpreferred : ∀ n ∈ req.preferred, n ≠ "" → n ∈ req.requisite)
    (hpin : restorePin req diskful = .ok pin)
    (hrep : rep ∈ keepRestoreLegs diskful 1 pin) : rep.node ∈ req.requisite := by
  obtain ⟨hsel, hmem⟩ := selected_spec hrequisite
  rcases restorePin_cases hpin with ⟨rfl, hwhy⟩ | ⟨leg, hleg, hnode, -, hwhy⟩
  · have hkept : keepRestoreLegs diskful 1 "" = diskful.take 1 := by
      simp [keepRestoreLegs, pinnedLeg]
      cases diskful <;> simp
    rcases hwhy with hwhy | hwhy | hwhy | ⟨seed, hseed, hin⟩
    · rw [hremote] at hwhy
      cases hwhy
    · exact absurd hwhy hsel
    · exact absurd hwhy hrequisite
    · obtain ⟨tail, rfl⟩ := List.head?_eq_some_iff.mp hseed
      rw [hkept] at hrep
      rw [List.mem_singleton.mp hrep]
      exact List.mem_of_mem_filter hin
  · have hleg' := pinnedLeg_eq hnodup hleg hnode (hnode ▸ hnames leg hleg)
    have hkept : keepRestoreLegs diskful 1 pin = [leg] := by
      simp [keepRestoreLegs, hleg']
    rw [hkept] at hrep
    rw [List.mem_singleton.mp hrep, hnode]
    rcases hwhy with hwhy | hwhy
    · rw [hwhy]
      rcases List.mem_append.mp hmem with hmem | hmem
      exacts [hpreferred _ hmem hsel, hmem]
    · exact List.mem_of_mem_filter hwhy

theorem reshaped_of_reshapeLegs {p : Pools} {tb : Bool}
    (hnodup : ((diskfulOf base).map Replica.node).Nodup)
    (hnames : ∀ rep ∈ diskfulOf base, rep.node ≠ "") (hseed : (diskfulOf base).head? = some seed)
    (hcomplete : seed.fullSync = false) (hreq : 0 < req.replicas)
    (h : (p.controller tb).reshapeLegs req base = .ok legs) :
    Reshaped req.replicas (diskfulOf base) legs := by
  simp only [reshapeLegs] at h
  split at h
  · rename_i hlt
    obtain ⟨pin, hpin, h⟩ := bind_eq_ok.mp h
    cases h
    exact reshaped_of_keep hnodup hnames hseed hcomplete (pinOk_of_restorePin hpin) hreq hlt
  · have hfirst : seed ∈ diskfulOf base := List.mem_of_mem_head? hseed
    split at h
    · rename_i hgrow
      obtain ⟨extra, hextra, h⟩ := bind_eq_ok.mp h
      cases h
      obtain ⟨hlen, hapart, hplaced⟩ := Pools.place_spec hextra
      have hnodes : (extra.map fun leg => leg.replica true).map Replica.node =
          extra.map PlacedLeg.node := by
        rw [List.map_map]
        rfl
      refine ⟨?_, ?_, ⟨seed, ?_, hfirst, hcomplete⟩, fun rep hrep => ?_, fun rep hrep hnot => ?_⟩
      · rw [List.length_append, List.length_map, hlen]
        omega
      · rw [List.map_append, hnodes]
        refine List.nodup_append'.mpr ⟨hnodup, hapart, fun n hn hn' => ?_⟩
        obtain ⟨leg, hleg, rfl⟩ := List.mem_map.mp hn'
        exact (hplaced leg hleg).free hn
      · rw [List.head?_append, hseed]
        rfl
      · refine (List.mem_append.mp hrep).imp_right fun hrep => ?_
        obtain ⟨leg, hleg, rfl⟩ := List.mem_map.mp hrep
        exact ⟨rfl, (hplaced leg hleg).free⟩
      · exact absurd (List.mem_append_left _ hrep) hnot
    · cases h
      exact ⟨by omega, hnodup, ⟨seed, hseed, hfirst, hcomplete⟩, fun rep hrep => .inl hrep,
        fun rep hrep hnot => absurd hrep hnot⟩

/-! ## Numbering -/

/-- Numbering changes nothing but ids and addresses. -/
theorem map_of_renumber {β : Type*} {f : Replica → β}
    (hf : ∀ rep id address, f { rep with nodeID := id, address := address } = f rep)
    (h : c.renumber used reps = .ok out) : out.map f = reps.map f := by
  induction reps generalizing used out with
  | nil =>
    cases h
    rfl
  | cons rep reps ih =>
    rcases renumber_cons h with ⟨-, out', h', rfl⟩ | ⟨-, address, out', -, h', rfl⟩
    · simp [ih h']
    · simp [ih h', hf]

theorem nodes_of_renumber
    (h : c.renumber used reps = .ok out) : out.map Replica.node = reps.map Replica.node :=
  map_of_renumber (fun _ _ _ => rfl) h

/-- A numbered leg and the one it was. -/
theorem renumbered_of_mem
    (h : c.renumber used reps = .ok out) {rep' : Replica} (hrep : rep' ∈ out) :
    ∃ rep ∈ reps, rep'.node = rep.node ∧ Numbered used rep rep' := by
  have hnodes : List.Forall₂ (fun rep rep' => rep'.node = rep.node) reps out := by
    have heq := (nodes_of_renumber h).symm
    rw [← List.forall₂_eq_eq_eq, List.forall₂_map_left_iff, List.forall₂_map_right_iff] at heq
    exact heq.imp fun _ _ => Eq.symm
  exact exists_of_forall₂ (forall₂_and hnodes (numbered_of_renumber h)) hrep

/-- The ids that are kept are different, the others are new each time. -/
theorem nodup_of_renumber
    (h : c.renumber used reps = .ok out)
    (hnodup : ((reps.filter preserved).map Replica.nodeID).Nodup)
    (hused : (reps.filter preserved).map Replica.nodeID ⊆ used) :
    (out.map Replica.nodeID).Nodup := by
  induction reps generalizing used out with
  | nil =>
    cases h
    exact List.nodup_nil
  | cons rep reps ih =>
    rcases renumber_cons h with ⟨hp, out', h', rfl⟩ | ⟨hp, address, out', -, h', rfl⟩
    · rw [List.filter_cons_of_pos hp, List.map_cons] at hnodup hused
      obtain ⟨hnot, hnodup⟩ := List.nodup_cons.mp hnodup
      obtain ⟨hin, hused⟩ := List.cons_subset.mp hused
      refine List.nodup_cons.mpr ⟨fun hmem => ?_, ih h' hnodup hused⟩
      obtain ⟨r', hr', hid⟩ := List.mem_map.mp hmem
      obtain ⟨r, hr, -, hnum⟩ := renumbered_of_mem h' hr'
      cases hpr : preserved r
      · exact hnum.fresh hpr (hid ▸ hin)
      · exact hnot (List.mem_map.mpr ⟨r, List.mem_filter.mpr ⟨hr, hpr⟩,
          (hnum.kept hpr).symm.trans hid⟩)
    · rw [List.filter_cons_of_neg (by simp [hp])] at hnodup hused
      refine List.nodup_cons.mpr ⟨fun hmem => ?_, ih h' hnodup (List.subset_cons_of_subset _ hused)⟩
      obtain ⟨r', hr', hid⟩ := List.mem_map.mp hmem
      obtain ⟨r, hr, -, hnum⟩ := renumbered_of_mem h' hr'
      cases hpr : preserved r
      · exact hnum.fresh hpr (hid ▸ .head _)
      · have hin : firstFree 0 used ∈ (reps.filter preserved).map Replica.nodeID :=
          List.mem_map.mpr ⟨r, List.mem_filter.mpr ⟨hr, hpr⟩, (hnum.kept hpr).symm.trans hid⟩
        exact firstFree_not_mem (hused hin)

/-! ## Tie-breakers -/

/-- A tie-breaker comes under an id of its own. -/
theorem withTieBreaker_cases {placed : List Replica} {replicas : Nat} {quorum : QuorumPolicy}
    (h : c.withTieBreaker placed replicas quorum = .ok layout) :
    layout = placed ∨ replicas = 2 ∧ quorum = .freeze ∧ ∃ leg : Replica,
      layout = placed ++ [leg] ∧ leg.diskless ∧ leg.nodeID ∉ placed.map Replica.nodeID := by
  simp only [withTieBreaker] at h
  split at h
  · cases h
    exact .inl rfl
  · rename_i hno
    simp only [Bool.or_eq_true, not_or, decide_eq_true_iff, not_not] at hno
    split at h
    · cases h
      exact .inl rfl
    · obtain ⟨address, -, h⟩ := bind_eq_ok.mp h
      cases h
      exact .inr ⟨hno.1.2, hno.2, _, rfl, rfl, firstFree_not_mem⟩

theorem diskfulOf_withTieBreaker {placed : List Replica} {replicas : Nat} {quorum : QuorumPolicy}
    (h : c.withTieBreaker placed replicas quorum = .ok layout)
    (hplaced : ∀ rep ∈ placed, rep.diskless = false) : diskfulOf layout = placed := by
  have hself : diskfulOf placed = placed :=
    List.filter_eq_self.mpr fun rep hrep => by simp [hplaced rep hrep]
  rcases withTieBreaker_cases h with rfl | ⟨-, -, leg, rfl, hleg, -⟩
  · exact hself
  · rw [diskfulOf, List.filter_append, ← diskfulOf, hself]
    simp [hleg]

/-! ## The whole layout -/

/-- What a restore of a snapshot makes of its source, for a class. -/
structure SoundLayout (req : CreateRequest) (src : Volume) (snap : Snapshot)
    (layout : List Replica) : Prop where
  count : (diskfulOf layout).length = req.replicas
  apart : ((diskfulOf layout).map Replica.node).Nodup
  /-- The first diskful leg clones the snapshot. -/
  first : ∃ rep, (diskfulOf layout).head? = some rep ∧ rep.fullSync = false ∧
    cutOn snap rep.node = true
  /-- A shrink to one leg keeps it within the requisite nodes. -/
  within : req.replicas = 1 → 1 < src.spec.diskfulReplicas.length → req.remoteAccess = false →
    requisiteNodes req ≠ [] → ∀ rep ∈ diskfulOf layout, rep.node ∈ req.requisite
  /-- No leg that holds the snapshot is dropped with one kept that does not. -/
  complete : ∀ rep ∈ src.spec.diskfulReplicas, cutOn snap rep.node = true →
    rep.node ∉ (diskfulOf layout).map Replica.node → ∀ kept ∈ diskfulOf layout,
    kept.node ∈ src.spec.diskfulReplicas.map Replica.node → cutOn snap kept.node = true
  /-- A completed leg that clones the snapshot keeps its id. -/
  ids : 1 < req.replicas → ∀ rep ∈ src.spec.diskfulReplicas, rep.address ≠ "" →
    cutOn snap rep.node = true → ∀ kept ∈ diskfulOf layout, kept.node = rep.node →
    kept.nodeID = rep.nodeID
  distinct : (addressedIDs layout).Nodup

/-- The source's diskful legs, as a restore starts from them. -/
structure Cleaned (src : Volume) (snap : Snapshot) (diskful : List Replica) : Prop where
  follows : List.Forall₂ (Follows snap) src.spec.diskfulReplicas diskful
  diskless : ∀ rep ∈ diskful, rep.diskless = false
  fullSync : ∀ rep ∈ diskful, rep.fullSync = !cutOn snap rep.node
  nodes : diskful.map Replica.node = src.spec.diskfulReplicas.map Replica.node

theorem diskful_follows (h : List.Forall₂ (Follows snap) base reps) :
    List.Forall₂ (Follows snap) (diskfulOf base) (diskfulOf reps) := by
  induction h with
  | nil => exact .nil
  | cons hf _ ih =>
    simp only [diskfulOf, List.filter_cons, hf.diskless] at ih ⊢
    split
    · exact .cons hf ih
    · exact ih

theorem cleaned_of_restoreReplicas
    (h : c.restoreReplicas src snap = .ok reps) : Cleaned src snap (diskfulOf reps) := by
  have hfollow := diskful_follows (follows_of_restoreReplicas h)
  refine ⟨hfollow, fun rep hrep => diskful_of_mem_diskfulOf hrep, fun rep hrep => ?_, ?_⟩
  · obtain ⟨rep₀, hrep₀, hf⟩ := exists_of_forall₂ hfollow hrep
    rw [hf.fullSync, hf.node, diskful_of_mem_diskfulOf hrep₀]
    rfl
  · rw [← List.forall₂_eq_eq_eq, List.forall₂_map_left_iff, List.forall₂_map_right_iff]
    exact hfollow.flip.imp fun _ _ hf => hf.node

/-- The leg of a node in the source and in what a restore starts from. -/
theorem Cleaned.at_node (h : Cleaned src snap diskful)
    (hnodup : (src.spec.diskfulReplicas.map Replica.node).Nodup) {kept : Replica}
    (hrep : rep ∈ src.spec.diskfulReplicas) (hkept : kept ∈ diskful)
    (hnode : kept.node = rep.node) : Follows snap rep kept := by
  obtain ⟨rep', hrep', hf⟩ := exists_of_forall₂ h.follows hkept
  rwa [← List.inj_on_of_nodup_map hnodup hrep' hrep (hf.node.symm.trans hnode)]

section Sound

variable {reps : List Replica}

/-- A layout whose diskful legs, numbered or not, come from reshaped ones. -/
theorem sound_of_reshaped (hclean : Cleaned src snap diskful)
    (hnodup : (src.spec.diskfulReplicas.map Replica.node).Nodup)
    (hshape : Reshaped req.replicas diskful legs)
    (hnodes : (diskfulOf layout).map Replica.node = legs.map Replica.node)
    (hfirst : ∀ rep ∈ (diskfulOf layout).head?, rep.fullSync = false)
    (hwithin : req.replicas = 1 → 1 < src.spec.diskfulReplicas.length → req.remoteAccess = false →
      requisiteNodes req ≠ [] → ∀ rep ∈ legs, rep.node ∈ req.requisite)
    (hids : 1 < req.replicas → ∀ leg ∈ legs, preserved leg → ∀ kept ∈ diskfulOf layout,
      kept.node = leg.node → kept.nodeID = leg.nodeID)
    (hdistinct : (addressedIDs layout).Nodup) : SoundLayout req src snap layout := by
  have hnodup' : (diskful.map Replica.node).Nodup := hclean.nodes ▸ hnodup
  -- A leg of the layout on a node of the source is the source's.
  have hsource {kept : Replica} (hk : kept ∈ diskfulOf layout)
      (hn : kept.node ∈ src.spec.diskfulReplicas.map Replica.node) :
      ∃ leg ∈ legs, leg ∈ diskful ∧ leg.node = kept.node := by
    obtain ⟨leg, hleg, hnode⟩ := List.mem_map.mp (hnodes ▸ List.mem_map_of_mem hk)
    rcases hshape.origin leg hleg with hin | ⟨-, hout⟩
    · exact ⟨leg, hleg, hin, hnode⟩
    · exact absurd (hclean.nodes ▸ hnode ▸ hn) hout
  refine ⟨?_, hnodes ▸ hshape.apart, ?_, fun h1 h2 h3 h4 rep hrep => ?_,
    fun rep hrep hcut hgone kept hk hn => ?_, fun h1 rep hrep haddr hcut kept hk hnode => ?_,
    hdistinct⟩
  · rw [← List.length_map Replica.node, hnodes, List.length_map, hshape.length]
  · obtain ⟨leg, hleg, hin, hcomplete⟩ := hshape.first
    have hhead : (diskfulOf layout).head?.map Replica.node = some leg.node := by
      rw [← List.head?_map, hnodes, List.head?_map, hleg]
      rfl
    obtain ⟨rep, hrep, hnode⟩ := Option.map_eq_some_iff.mp hhead
    refine ⟨rep, hrep, hfirst rep hrep, ?_⟩
    rw [hclean.fullSync leg hin] at hcomplete
    rw [hnode]
    simpa using hcomplete
  · obtain ⟨leg, hleg, hnode⟩ := List.mem_map.mp (hnodes ▸ List.mem_map_of_mem hrep)
    exact hnode ▸ hwithin h1 h2 h3 h4 leg hleg
  · obtain ⟨leg, hleg, hin, hnode⟩ := hsource hk hn
    obtain ⟨rep', hrep', hf⟩ := exists_right_of_forall₂ hclean.follows hrep
    have hgone' : rep' ∉ legs := fun h => hgone (by
      rw [hnodes, ← hf.node]
      exact List.mem_map_of_mem h)
    have hfull : rep'.fullSync = false := by
      rw [hclean.fullSync rep' hrep', hf.node, hcut]
      rfl
    have := hshape.dropped rep' hrep' hgone' hfull leg hleg hin
    rw [hclean.fullSync leg hin, hnode] at this
    simpa using this
  · obtain ⟨leg, hleg, hin, hnode'⟩ := hsource hk (hnode ▸ List.mem_map_of_mem hrep)
    have hf := hclean.at_node hnodup hrep hin (hnode'.trans hnode)
    have hpres : preserved leg := by
      have haddr' : leg.address ≠ "" := fun h => haddr (hf.address.mp h)
      simp [preserved, haddr', hf.fullSync, hcut]
    rw [hids h1 leg hleg hpres kept hk hnode'.symm, hf.nodeID]

theorem addressedIDs_follows (h : List.Forall₂ (Follows snap) base reps) :
    addressedIDs reps = addressedIDs base := by
  induction h with
  | nil => rfl
  | @cons rep rep' base reps hf _ ih =>
    simp only [addressedIDs, List.filter_cons, ne_eq, hf.address] at ih ⊢
    split
    · rw [List.map_cons, List.map_cons, hf.nodeID, ih]
    · exact ih

/-- The legs that keep their ids have different ones. -/
theorem nodup_preserved (hids : (addressedIDs reps).Nodup)
    (hshape : Reshaped target (diskfulOf reps) legs) :
    ((legs.filter preserved).map Replica.nodeID).Nodup := by
  have hin {rep : Replica} (hrep : rep ∈ legs.filter preserved) :
      rep ∈ reps.filter fun rep => rep.address ≠ "" := by
    obtain ⟨hleg, hp⟩ := List.mem_filter.mp hrep
    rcases hshape.origin rep hleg with horigin | ⟨hfull, -⟩
    · exact List.mem_filter.mpr ⟨List.mem_of_mem_filter horigin,
        by simpa using address_of_preserved hp⟩
    · rw [fullSync_of_preserved hp] at hfull
      cases hfull
  refine List.Nodup.map_on (fun a ha b hb hab => ?_)
    ((List.Nodup.of_map _ hshape.apart).filter _)
  exact List.inj_on_of_nodup_map hids (hin ha) (hin hb) hab

variable {p : Pools} {tb : Bool}

/-- A layout that follows its source. -/
theorem sound_of_followed (hnodup : (src.spec.diskfulReplicas.map Replica.node).Nodup)
    (hids : (addressedIDs src.spec.replicas).Nodup) (hseed : (diskfulOf reps).head? = some seed)
    (hcomplete : seed.fullSync = false) (hreps : c.restoreReplicas src snap = .ok reps)
    (hlen : (diskfulOf reps).length = req.replicas) : SoundLayout req src snap reps := by
  have hclean := cleaned_of_restoreReplicas hreps
  have hnodup' : ((diskfulOf reps).map Replica.node).Nodup := hclean.nodes ▸ hnodup
  have hshape : Reshaped req.replicas (diskfulOf reps) (diskfulOf reps) :=
    ⟨hlen, hnodup', ⟨seed, hseed, List.mem_of_mem_head? hseed, hcomplete⟩, fun _ => .inl,
      fun rep hrep hnot => absurd hrep hnot⟩
  refine sound_of_reshaped hclean hnodup hshape rfl (fun rep hrep => ?_) (fun h1 h2 => ?_)
    (fun _ leg hleg _ kept hk hnode => ?_) ?_
  · rw [hseed] at hrep
    cases hrep
    exact hcomplete
  · have := hclean.follows.length_eq
    omega
  · rw [List.inj_on_of_nodup_map hnodup' hk hleg hnode]
  · rwa [addressedIDs_follows (follows_of_restoreReplicas hreps)]

/-- A reshaped layout with one leg: that leg, without what replication needs. -/
theorem sound_of_single (hnodup : (src.spec.diskfulReplicas.map Replica.node).Nodup)
    (hclean : Cleaned src snap (diskfulOf reps)) (hnames : ∀ rep ∈ diskfulOf reps, rep.node ≠ "")
    (hpreferred : requisiteNodes req ≠ [] → ∀ n ∈ req.preferred, n ≠ "" → n ∈ req.requisite)
    (hone : req.replicas = 1) (hlegs : (p.controller tb).reshapeLegs req reps = .ok legs)
    (hshape : Reshaped req.replicas (diskfulOf reps) legs) :
    SoundLayout req src snap
      ((legs.take 1).map fun rep =>
        { rep with nodeID := 0, address := "", fullSync := false }) := by
  obtain ⟨leg, hhead, hleg, -⟩ := hshape.first
  obtain ⟨tail, rfl⟩ := List.head?_eq_some_iff.mp hhead
  obtain rfl : tail = [] := by
    have := hshape.length
    rw [hone, List.length_cons] at this
    exact List.eq_nil_of_length_eq_zero (by omega)
  have hdiskful : leg.diskless = false := hclean.diskless leg hleg
  refine sound_of_reshaped hclean hnodup hshape ?_ ?_ (fun _ hlt hremote hrequisite rep hrep => ?_)
    (fun h => absurd h (by omega)) ?_
  · simp [diskfulOf, hdiskful]
  · simp [diskfulOf, hdiskful]
  · -- There were more legs, so the one was kept.
    simp only [reshapeLegs] at hlegs
    rw [if_pos (by rw [hclean.follows.length_eq] at hlt; omega)] at hlegs
    obtain ⟨pin, hpin, hlegs⟩ := bind_eq_ok.mp hlegs
    rw [hone] at hlegs
    rw [← Except.ok.inj hlegs] at hrep
    exact single_within (hclean.nodes ▸ hnodup) hnames hremote hrequisite (hpreferred hrequisite)
      hpin hrep
  · simp [addressedIDs]

/-- A reshaped layout with several legs, numbered around those that keep their ids. -/
theorem sound_of_renumbered (hnodup : (src.spec.diskfulReplicas.map Replica.node).Nodup)
    (hclean : Cleaned src snap (diskfulOf reps)) (hids : (addressedIDs reps).Nodup)
    (hmany : req.replicas ≠ 1) (hshape : Reshaped req.replicas (diskfulOf reps) legs)
    (hdiskful : ∀ rep ∈ legs, rep.diskless = false) {out : List Replica}
    (hout : c.renumber ((legs.filter preserved).map Replica.nodeID) legs = .ok out)
    (htb : c.withTieBreaker out req.replicas req.quorum = .ok layout) :
    SoundLayout req src snap layout := by
  have hnum := numbered_of_renumber hout
  have hlayout : diskfulOf layout = out := by
    refine diskfulOf_withTieBreaker htb fun rep hrep => ?_
    obtain ⟨leg, hleg, hn⟩ := exists_of_forall₂ hnum hrep
    exact hn.diskless.trans (hdiskful leg hleg)
  have hnodupIDs := nodup_of_renumber hout (nodup_preserved hids hshape) fun _ h => h
  refine sound_of_reshaped hclean hnodup hshape (hlayout ▸ nodes_of_renumber hout)
    (fun rep hrep => ?_) (fun h => absurd h hmany) (fun _ leg hleg hp kept hk hnode => ?_) ?_
  · obtain ⟨leg, hhead, -, hcomplete⟩ := hshape.first
    obtain ⟨tail, rfl⟩ := List.head?_eq_some_iff.mp hhead
    cases hnum with
    | cons hn =>
      rw [hlayout, List.head?_cons] at hrep
      cases hrep
      exact hn.fullSync.trans hcomplete
  · obtain ⟨leg', hleg', hnode', hn⟩ := renumbered_of_mem hout (hlayout ▸ hk)
    obtain rfl := List.inj_on_of_nodup_map hshape.apart hleg' hleg (hnode'.symm.trans hnode)
    exact hn.kept hp
  · refine List.Nodup.sublist (List.filter_sublist.map Replica.nodeID) ?_
    rcases withTieBreaker_cases htb with rfl | ⟨-, -, leg, rfl, -, hfree⟩
    · exact hnodupIDs
    · rw [List.map_append]
      exact List.nodup_append'.mpr ⟨hnodupIDs, List.nodup_singleton _, by simpa using hfree⟩

/-- For every source layout with one leg to a node and different ids on completed legs, every
snapshot of it whose first diskful leg is cut, every requirement whose preferred nodes are among the
requisite ones if there are any, and every class and number of legs: whenever the placement
succeeds, the layout is a `SoundLayout`. -/
theorem restore_layout (hnodes : (src.spec.replicas.map Replica.node).Nodup)
    (hnames : ∀ rep ∈ src.spec.replicas, rep.node ≠ "")
    (hids : (addressedIDs src.spec.replicas).Nodup)
    (hseed : ∃ seed, src.spec.diskfulReplicas.head? = some seed ∧ cutOn snap seed.node = true)
    (hpreferred : requisiteNodes req ≠ [] → ∀ n ∈ req.preferred, n ≠ "" → n ∈ req.requisite)
    (hreq : 0 < req.replicas) (hreps : (p.controller tb).restoreReplicas src snap = .ok reps)
    (h : (p.controller tb).placeVolume req (some reps) = .ok layout) :
    SoundLayout req src snap layout := by
  have hclean := cleaned_of_restoreReplicas hreps
  have hnodup : (src.spec.diskfulReplicas.map Replica.node).Nodup :=
    hnodes.sublist (List.filter_sublist.map Replica.node)
  have hnodup' : ((diskfulOf reps).map Replica.node).Nodup := hclean.nodes ▸ hnodup
  have hnames' : ∀ rep ∈ diskfulOf reps, rep.node ≠ "" := fun rep hrep => by
    obtain ⟨rep₀, hrep₀, hf⟩ := exists_of_forall₂ hclean.follows hrep
    rw [hf.node]
    exact hnames rep₀ (List.mem_of_mem_filter hrep₀)
  -- The seed is complete.
  obtain ⟨seed₀, hhead, hcut⟩ := hseed
  obtain ⟨seed, hseed, hcomplete⟩ : ∃ seed, (diskfulOf reps).head? = some seed ∧
      seed.fullSync = false := by
    have hmap : (diskfulOf reps).head?.map Replica.node = some seed₀.node := by
      rw [← List.head?_map, hclean.nodes, List.head?_map, hhead]
      rfl
    obtain ⟨seed, hseed, hnode⟩ := Option.map_eq_some_iff.mp hmap
    refine ⟨seed, hseed, ?_⟩
    rw [hclean.fullSync seed (List.mem_of_mem_head? hseed), hnode, hcut]
    rfl
  simp only [placeVolume] at h
  split at h
  · rename_i hlen
    cases h
    exact sound_of_followed hnodup hids hseed hcomplete hreps hlen
  · obtain ⟨legs, hlegs, h⟩ := bind_eq_ok.mp h
    have hshape := reshaped_of_reshapeLegs hnodup' hnames' hseed hcomplete hreq hlegs
    split at h
    · rename_i hone
      cases h
      exact sound_of_single hnodup hclean hnames' hpreferred hone hlegs hshape
    · rename_i hmany
      obtain ⟨out, hout, h⟩ := bind_eq_ok.mp h
      exact sound_of_renumbered hnodup hclean
        (addressedIDs_follows (follows_of_restoreReplicas hreps) ▸ hids) hmany hshape
        (fun _ => diskful_of_reshapeLegs hlegs) hout h

end Sound

/-! ## Examples -/

/-- Three storage nodes with one pool. -/
def threeNodes : NodeMap :=
  ["x", "a", "b"].foldr (fun n m => m.insert n
    { address := "10.0.0." ++ n, pools := AList.singleton "default" { backend := .lvmthin } }) ∅

def twoLegs (name : String) : CreateRequest where
  name := name
  sizeBytes := 1073741824
  replicas := 2
  quorum := .freeze

/-- A ready snapshot, cut on "x" and "a". -/
def cutOnXA : Snapshot where
  name := "snap"
  uid := "uid"
  volumeName := "pvc"
  status :=
    { readyToUse := true
      perNode := (AList.singleton "x" .done).insert "a" .done
      sizeBytes := 1073741824 }

/-- The volume as `CreateVolume` makes it: id 0 on "x", id 1 on "a". -/
def placedOnXA : Volume where
  name := "pvc"
  spec :=
    { sizeBytes := 1073741824
      replicas := [{ node := "x", pool := "default", nodeID := 0, address := "10.0.0.x" },
        { node := "a", pool := "default", nodeID := 1, address := "10.0.0.a" }]
      drbd := true }
  status := {}

/-- The same volume after "x" was evicted for "b", which got its id: the list is now "a", "b". -/
def replacedByB : Volume :=
  { placedOnXA with
    spec.replicas := [{ node := "a", pool := "default", nodeID := 1, address := "10.0.0.a" },
      { node := "b", pool := "default", nodeID := 0, address := "10.0.0.b", fullSync := true }] }

/-- The pools of `threeNodes`, none with known figures. -/
def threeNodePools : Pools where
  nodes := threeNodes
  ips n := .error (.getNode n)
  stats := ∅
  vols := []
  overcommit := ⟨id, "1"⟩
  freeSpace := ⟨id, "1"⟩

/-- "b" has taken the place of "x" since the snapshot, and the class asks for a third leg, which is
placed on "x": "a" keeps id 1, the joiners are numbered around it. -/
theorem restore_layout_grown :
    SoundLayout { twoLegs "clone" with replicas := 3 } replacedByB cutOnXA
      [{ node := "a", pool := "default", nodeID := 1, address := "10.0.0.a" },
        { node := "b", pool := "default", nodeID := 0, address := "10.0.0.b", fullSync := true },
        { node := "x", pool := "default", nodeID := 2, address := "10.0.0.x"
          fullSync := true }] := by
  have hreps : (threeNodePools.controller false).restoreReplicas replacedByB cutOnXA =
      .ok replacedByB.spec.replicas := rfl
  exact restore_layout (by decide) (by decide) (by decide) ⟨_, rfl, rfl⟩ (by decide) (by decide)
    hreps rfl

/-- Completed legs on "a" and "b" and an entry on "x" that waits for membership. -/
def waitingX : Volume where
  name := "pvc"
  spec :=
    { sizeBytes := 1073741824
      replicas := [{ node := "a", pool := "default", nodeID := 0, address := "10.0.0.a" },
        { node := "b", pool := "default", nodeID := 1, address := "10.0.0.b" },
        { node := "x", pool := "default", nodeID := 2 }]
      drbd := true }
  status := {}

/-- Two legs, with the consumer on "x". -/
def twoLegsOnX : CreateRequest :=
  { twoLegs "clone" with preferred := ["x"], requisite := ["x"] }

/-- The snapshot was cut on all three nodes, on "x" when it had a leg before. The restore keeps the
seed and the leg of the consumer, which clones the snapshot and gets id 1 instead of its 2. -/
theorem unaddressed_leg_renumbered :
    let snap := { cutOnXA with status.perNode := cutOnXA.status.perNode.insert "b" .done }
    ((waitingX.spec.replicas.map Replica.node).Nodup ∧
        (∀ rep ∈ waitingX.spec.replicas, rep.node ≠ "" ∧ cutOn snap rep.node = true) ∧
        (addressedIDs waitingX.spec.replicas).Nodup ∧
        ∀ n ∈ twoLegsOnX.preferred, n ∈ twoLegsOnX.requisite) ∧
      (threeNodePools.controller false).restoreReplicas waitingX snap =
        .ok waitingX.spec.replicas ∧
      (threeNodePools.controller false).placeVolume twoLegsOnX (some waitingX.spec.replicas) =
        .ok [{ node := "a", pool := "default", nodeID := 0, address := "10.0.0.a" },
          { node := "x", pool := "default", nodeID := 1, address := "10.0.0.x" }] ∧
      waitingX.spec.drbd = true := by
  refine ⟨by decide, rfl, rfl, rfl⟩

end Miroir
