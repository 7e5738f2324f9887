import Miroir.Safety.ValidSpecs

/-!
# The id of a resource that is up

A resource in the kernel keeps the node id it was brought up with. Membership gives a leg that it
completes the lowest id no completed leg of the spec has, and knows nothing of a resource that is
still up after its leg was removed.

`running_id_returns`: if legs leave the spec in the order of their ids, the highest one first and
the next one only when the resource of the last is down, and no other leg is completed meanwhile,
then a leg that comes back gets the id its resource is running under. Two clients that leave and
come back in another order swap their ids (`returning_client_renumbered`).
-/

namespace Miroir

open Process

/-! ## Legs and resources -/

/-- The volume on the API server, and the id under which a node's resource is up. -/
structure Attached where
  vol : MiroirVolume
  running : AList (fun _ : String => Nat) := ∅

/-- An edit, or a resource that comes up or goes down. -/
inductive AttachedEvent where
  | edit (e : Edit)
  /-- The agent realizes the node's completed leg. -/
  | bringUp (node : String)
  /-- The agent has torn the leg down, or the node went away. -/
  | takeDown (node : String)

instance inhabitedAttachedEvent : Inhabited AttachedEvent := ⟨.edit default⟩

/-- The id of the node's completed leg. -/
def VolumeSpec.idOf (spec : VolumeSpec) (node : String) : Option Nat :=
  (spec.peers.find? fun p => p.node = node).map Peer.nodeID

/-- An agent realizes no leg that waits for its completion, and a resource that is up keeps its
id. -/
def attachedStep (key : String → String) (s : Attached) : AttachedEvent → Option Attached
  | .edit e => some { s with vol := edit key s.vol e }
  | .bringUp node =>
    if !s.vol.spec.drbd || s.vol.deleting then none
    else (s.vol.spec.idOf node).map fun id =>
      if (s.running.lookup node).isSome then s else { s with running := s.running.insert node id }
  | .takeDown node => some { s with running := s.running.erase node }

/-! ## The condition -/

/-- Every resource that is up, but the node's own, belongs to a completed leg. -/
def othersPlaced (s : Attached) (spec : VolumeSpec) (node : String) : Bool :=
  s.running.keys.all fun n => n = node || (spec.idOf n).isSome

/-- A leg leaves the spec while all lower ids are held, and a leg leaves or is completed only while
no other node's resource is up without a completed leg. -/
def inOrder (key : String → String) (s : Attached) : AttachedEvent → Bool
  | .edit e =>
    let old := s.vol.spec.toVolumeSpec
    let new := (edit key s.vol e).spec.toVolumeSpec
    (old.peers.all fun p => (new.idOf p.node).isSome ||
      (List.range p.nodeID).all (· ∈ new.completedIDs) && othersPlaced s new p.node) &&
    new.peers.all fun p => (old.idOf p.node).isSome || othersPlaced s old p.node
  | _ => true

/-! ## The invariant -/

section

variable {spec : VolumeSpec} {s : Attached} {n : String} {id : Nat}

theorem holds_of_idOf (h : spec.idOf n = some id) : spec.Holds n id := by
  obtain ⟨p, hp, rfl⟩ := Option.map_eq_some_iff.mp h
  exact holds_iff_peer.mpr ⟨p, List.mem_of_find?_eq_some hp, by simpa using List.find?_some hp, rfl⟩

theorem idOf_isSome_iff : (spec.idOf n).isSome ↔ ∃ id, spec.Holds n id := by
  rw [VolumeSpec.idOf, Option.isSome_map, List.find?_isSome]
  simp only [decide_eq_true_iff, holds_iff_peer]
  constructor
  · rintro ⟨p, hp, hn⟩
    exact ⟨p.nodeID, p, hp, hn, rfl⟩
  · rintro ⟨-, p, hp, hn, -⟩
    exact ⟨p, hp, hn⟩

theorem holds_of_othersPlaced {node : String} (h : othersPlaced s spec node)
    (hup : s.running.lookup n = some id) (hne : n ≠ node) : ∃ id, spec.Holds n id := by
  have hmem : n ∈ s.running.keys := AList.lookup_isSome.mp (by rw [hup]; rfl)
  have hplaced := List.all_eq_true.mp h n hmem
  simp only [hne, decide_false, Bool.false_or] at hplaced
  exact idOf_isSome_iff.mp hplaced

end

/-- What is known of a resource that is up under the id: the completed leg of its node has the id;
without one, the id is the lowest that no completed leg has. -/
structure KeptFor (spec : VolumeSpec) (node : String) (id : Nat) : Prop where
  same : ∀ j, spec.Holds node j → j = id
  free : (∀ j, ¬spec.Holds node j) → ∀ m, ¬spec.Holds m id
  lower : (∀ j, ¬spec.Holds node j) → ∀ j < id, ∃ m, spec.Holds m j

/-- The invariant of a run. -/
structure IDsKept (s : Attached) : Prop where
  valid : Valid s.vol.spec
  replicated : ∀ n id, s.running.lookup n = some id → s.vol.spec.drbd = true
  kept : ∀ n id, s.running.lookup n = some id → KeptFor s.vol.spec.toVolumeSpec n id

section Step

variable {key : String → String} {s s' : Attached} {old new : VolumeSpec}

theorem lower_of_idsBelow {id : Nat} (h : (List.range id).all (· ∈ new.completedIDs)) :
    ∀ j < id, ∃ m, new.Holds m j := by
  intro j hj
  have hmem := List.all_eq_true.mp h j (List.mem_range.mpr hj)
  exact mem_completedIDs.mp (of_decide_eq_true hmem)

/-- One resource across a legal edit. -/
theorem KeptFor.edit {n : String} {id : Nat} (hs : Sound old) (hd : DistinctIDs old)
    (hl : Legal old new) (hk : KeptFor old n id)
    (hleave : ∀ m j, old.Holds m j → (∃ j, new.Holds m j) ∨
      (∀ i < j, ∃ k, new.Holds k i) ∧ (n ≠ m → ∃ j, new.Holds n j))
    (hcome : ∀ m j, new.Holds m j → (∃ j, old.Holds m j) ∨ (n ≠ m → ∃ j, old.Holds n j)) :
    KeptFor new n id where
  same j hj := by
    rcases hl.fresh n j hj with hold | hf
    · exact hk.same j hold
    · rcases Nat.lt_trichotomy j id with hlt | rfl | hgt
      · obtain ⟨m, hm⟩ := hk.lower hf.absent j hlt
        exact absurd hm (hf.free m)
      · rfl
      · -- The id is free for the leg unless another leg was completed under it.
        obtain ⟨m, hne, hm⟩ := hf.lowest id hgt
        have hfree := hk.free hf.absent
        have hfm := (hl.fresh m id hm).resolve_left (hfree m)
        rcases hcome m id hm with ⟨i, hi⟩ | hplaced
        · exact absurd hi (hfm.absent i)
        · obtain ⟨i, hi⟩ := hplaced hne.symm
          exact absurd hi (hf.absent i)
  free hgone m hm := by
    by_cases hheld : ∃ j, old.Holds n j
    · obtain ⟨j, hj⟩ := hheld
      obtain rfl := hk.same j hj
      rcases hl.fresh m j hm with hold | hf
      · exact hgone j (hd n m j hj hold ▸ hm)
      · exact hf.free n hj
    · rw [not_exists] at hheld
      have hf := (hl.fresh m id hm).resolve_left (hk.free hheld m)
      have hne : n ≠ m := fun h => hgone id (h ▸ hm)
      rcases hcome m id hm with ⟨i, hi⟩ | hplaced
      · exact hf.absent i hi
      · obtain ⟨i, hi⟩ := hplaced hne
        exact hheld i hi
  lower hgone j hj := by
    by_cases hheld : ∃ i, old.Holds n i
    · obtain ⟨i, hi⟩ := hheld
      obtain rfl := hk.same i hi
      rcases hleave n i hi with ⟨i', hi'⟩ | ⟨hlower, -⟩
      · exact absurd hi' (hgone i')
      · exact hlower j hj
    · rw [not_exists] at hheld
      obtain ⟨m, hm⟩ := hk.lower hheld j hj
      rcases hleave m j hm with ⟨i, hi⟩ | ⟨-, hplaced⟩
      · rcases hl.fresh m i hi with hold | hf
        · exact ⟨m, hs.holds_unique hm hold ▸ hi⟩
        · exact absurd hm (hf.absent j)
      · have hne : n ≠ m := fun h => hheld j (h ▸ hm)
        obtain ⟨i, hi⟩ := hplaced hne
        exact absurd hi (hgone i)

theorem IDsKept.edit (h : IDsKept s) (e : Edit) (hok : inOrder key s (.edit e)) :
    IDsKept { s with vol := edit key s.vol e } := by
  have hstep : ValidStep s.vol.spec (Miroir.edit key s.vol e).spec := validStep_edit h.valid e
  have hsame : (Miroir.edit key s.vol e).spec.drbd = s.vol.spec.drbd := by
    have hf := hstep.follows
    simp only [MiroirVolumeSpec.follows, Bool.and_eq_true, decide_eq_true_iff] at hf
    exact hf.1.1.1.2
  refine ⟨hstep.valid, fun n id hup => hsame.trans (h.replicated n id hup), fun n id hup => ?_⟩
  have hdrbd := h.replicated n id hup
  obtain ⟨hs, hd⟩ := h.valid.sound hdrbd
  have hedit : ValidEdit s.vol (Miroir.edit key s.vol e) := validEdit_edit hs hd hdrbd e
  have hlegal := hedit.legal
  simp only [inOrder, Bool.and_eq_true, List.all_eq_true, Bool.or_eq_true] at hok
  refine (h.kept n id hup).edit hs hd hlegal (fun m j hm => ?_) fun m j hm => ?_
  · obtain ⟨p, hp, rfl, rfl⟩ := holds_iff_peer.mp hm
    refine (hok.1 p hp).imp idOf_isSome_iff.mp fun h => ⟨?_, fun hne => ?_⟩
    · exact lower_of_idsBelow (List.all_eq_true.mpr h.1)
    · exact holds_of_othersPlaced h.2 hup hne
  · obtain ⟨p, hp, rfl, rfl⟩ := holds_iff_peer.mp hm
    exact (hok.2 p hp).imp idOf_isSome_iff.mp fun hplaced hne =>
      holds_of_othersPlaced hplaced hup hne

theorem IDsKept.step (h : IDsKept s) {a : AttachedEvent} (hstep : attachedStep key s a = some s')
    (hok : inOrder key s a) : IDsKept s' := by
  cases a with
  | edit e =>
    cases hstep
    exact h.edit e hok
  | bringUp node =>
    rw [attachedStep] at hstep
    split at hstep
    · cases hstep
    · rename_i hgate
      simp only [Bool.or_eq_true, Bool.not_eq_true', not_or, Bool.not_eq_false] at hgate
      obtain ⟨id, hid, rfl⟩ := Option.map_eq_some_iff.mp hstep
      split
      · exact h
      · have hheld := holds_of_idOf hid
        obtain ⟨hs, -⟩ := h.valid.sound hgate.1
        refine ⟨h.valid, fun _ _ _ => hgate.1, fun n j hup => ?_⟩
        by_cases hn : n = node
        · subst hn
          rw [AList.lookup_insert, Option.some.injEq] at hup
          subst hup
          exact ⟨fun j hj => hs.holds_unique hj hheld, fun hgone => absurd hheld (hgone id),
            fun hgone => absurd hheld (hgone id)⟩
        · rw [AList.lookup_insert_ne hn] at hup
          exact h.kept n j hup
  | takeDown node =>
    cases hstep
    have hup : ∀ n id, (s.running.erase node).lookup n = some id →
        s.running.lookup n = some id := by
      intro n id hn
      by_cases heq : n = node
      · subst heq
        rw [AList.lookup_erase] at hn
        cases hn
      · rwa [AList.lookup_erase_ne heq] at hn
    exact ⟨h.valid, fun n id hn => h.replicated n id (hup n id hn),
      fun n id hn => h.kept n id (hup n id hn)⟩

end Step

/-! ## Runs -/

/-- In every run whose edits are in order, from a valid volume nothing of which is up, the leg that
an edit leaves completed has the id under which its node's resource was already running. -/
theorem running_id_returns {key : String → String} {vol₀ : MiroirVolume} {N k : ℕ}
    (ρ : Run (attachedStep key) ⟨vol₀, ∅⟩ N) (hadm : vol₀.spec.admitted = true)
    (hids : vol₀.spec.completedIDs.Nodup)
    (hok : ∀ k < N, inOrder key (ρ.state k) (ρ.act k) = true) (hk : k < N) {e : Edit}
    (he : ρ.act k = .edit e) {n : String} {i j : Nat}
    (hup : (ρ.state k).running.lookup n = some i)
    (hid : (ρ.state (k + 1)).vol.spec.idOf n = some j) : j = i := by
  have hkept := ρ.invariant (P := fun _ s => IDsKept s)
    ⟨⟨hadm, hids⟩, fun _ _ h => (by cases h), fun _ _ h => (by cases h)⟩
    (fun k hk h => h.step (ρ.next k hk) (hok k hk)) (Nat.le_of_lt hk)
  have hnext := ρ.next k hk
  rw [he] at hnext
  rw [← Option.some.inj hnext] at hid
  exact ((hkept.edit e (he ▸ hok k hk)).kept n i hup).same j (holds_of_idOf hid)

/-! ## Two clients -/

def ipsOf : InternalIPs := fun n => .ok ⟨"10.0.1." ++ n, by simp⟩

/-- Clients "c" and "d" join and come up under 2 and 3. -/
def clientsJoin : List AttachedEvent :=
  [.bringUp "a", .bringUp "b",
    .edit (.addClientLeg "c" false 0), .edit (.membership bSilent ipsOf), .bringUp "c",
    .edit (.addClientLeg "d" false 0), .edit (.membership bSilent ipsOf), .bringUp "d"]

/-- "d" leaves and comes back before its teardown. -/
def dReturns : List AttachedEvent :=
  clientsJoin ++ [.edit (.removeClientLeg "d"), .edit (.addClientLeg "d" false 0),
    .edit (.membership bSilent ipsOf)]

theorem dReturns_possible :
    allSteps (attachedStep id) (inOrder id) ⟨onAB 0 1, ∅⟩ dReturns := by
  decide +kernel

/-- Completed again, "d" has the id 3 it is still running under. -/
theorem running_id_returns_dReturns :
    let ρ := Run.ofActions (attachedStep id) (inOrder id) ⟨onAB 0 1, ∅⟩ dReturns dReturns_possible
    (ρ.state 10).vol.spec.idOf "d" = none ∧ (ρ.state 11).vol.spec.idOf "d" ≠ none ∧
      ∀ j, (ρ.state 11).vol.spec.idOf "d" = some j → j = 3 := by
  intro ρ
  refine ⟨by decide +kernel, by decide +kernel, fun j hid => ?_⟩
  exact running_id_returns ρ (by decide +kernel) (by decide +kernel)
    (fun k hk => Run.ofActions_spec dReturns_possible hk) (k := 10) (by decide) rfl
    (by decide +kernel) hid

/-- "c" and "d" leave, and "d" comes back before its teardown. -/
def bothLeave : List AttachedEvent :=
  clientsJoin ++ [.edit (.removeClientLeg "c"), .edit (.removeClientLeg "d"),
    .edit (.addClientLeg "d" false 0), .edit (.membership bSilent ipsOf)]

theorem bothLeave_possible :
    allSteps (attachedStep id) (fun _ _ => true) ⟨onAB 0 1, ∅⟩ bothLeave := by
  decide +kernel

/-- "d" still holds its finalizer and runs under 3, and membership completes its new entry
under 2. -/
theorem returning_client_renumbered :
    let ρ := Run.ofActions (attachedStep id) (fun _ _ => true) ⟨onAB 0 1, ∅⟩ bothLeave
      bothLeave_possible
    (onAB 0 1).spec.admitted = true ∧ (onAB 0 1).spec.completedIDs.Nodup ∧
      ρ.act 11 = .edit (.membership bSilent ipsOf) ∧ "d" ∈ (ρ.state 11).vol.finalizers ∧
      (ρ.state 11).running.lookup "d" = some 3 ∧
      hasLegOn (ρ.state 11).vol.spec.toVolumeSpec "d" = true ∧
      (ρ.state 11).vol.spec.idOf "d" = none ∧ (ρ.state 12).vol.spec.idOf "d" = some 2 := by
  intro ρ
  refine ⟨by decide +kernel, by decide +kernel, rfl, ?_⟩
  decide +kernel

end Miroir
