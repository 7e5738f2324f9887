import Miroir.Volume.FastPath

/-!
# Pass after pass

A pass that settles on the fast path relies on what an earlier one left: `settled_behind_full_pass`
says what, in every run of passes.
-/

namespace Miroir.VolumeReconciler

/-- A pass over a placed leg: the volume, the status its fast path reads, and the answers. -/
structure Visit extends Answers where
  vol : CachedVolume
  polled : Option KernelStatus

/-- What is remembered, and the last visit that took the pipeline. -/
structure Visited where
  memory : Memory := {}
  last : Option (Visit × Outcome) := none

/-- The fingerprint is of a pass with these answers that got a slot of the full size written,
without a split brain and with the disk state it saw, and left no stuck-resync clock. -/
structure Settled (a : Answers) (generation size : Nat) (e : Fingerprint) (r : Outcome × Memory) :
    Prop where
  generation_eq : e.generation = generation
  fullPassAt_eq : e.fullPassAt = a.now
  patched : a.patched = true
  slot : ∃ slot ∈ r.1.slot, slot.sizeBytes = size ∧ slot.splitBrain = false ∧
    (e.replicated → slot.diskState = e.status.diskState)
  clock : e.replicated → r.2.stuckSince = none

section Full

variable {nodes : List String} {self : String} {m : Memory} {a : Answers}

theorem settled_growAndReport {vol : Volume} {generation size : Nat} (hm : m.realized = none)
    (hvol : vol.spec.sizeBytes = size) (st : KernelStatus) (minted latches : Bool) :
    ∀ e ∈ (growAndReport nodes self m generation vol st minted latches a).2.realized,
      Settled a generation size e
        (growAndReport nodes self m generation vol st minted latches a) := by
  rw [growAndReport]
  split
  · simp [hm]
  · dsimp only
    split
    · rename_i hset
      simp only [Bool.and_eq_true, decide_eq_true_iff, Bool.not_eq_true', Bool.or_eq_false_iff]
        at hset
      obtain ⟨⟨⟨hpatched, -⟩, hsize⟩, hsplit, hactive⟩ := hset
      intro e he
      cases he
      have hslot := (Bool.or_eq_false_iff.mp hsplit).1
      refine ⟨rfl, rfl, hpatched, ⟨_, if_pos hpatched, hsize.trans hvol, hslot, fun _ => rfl⟩,
        fun _ => ?_⟩
      -- only without candidates does the recovery let the volume onto the fast path
      rw [recoverStuckResync] at hactive ⊢
      grind
    · simp [hm]

theorem settled_fullPass (vol : CachedVolume) :
    ∀ e ∈ (fullPass nodes self m vol a).2.realized,
      Settled a vol.generation vol.spec.sizeBytes e (fullPass nodes self m vol a) := by
  have hsize : (backed self vol.toVolume a).spec.sizeBytes = vol.spec.sizeBytes := by
    unfold backed stampedDevice clearedBacking
    split_ifs <;> rfl
  simp only [fullPass, plainPass, replicatedPass]
  split
  · simp
  split
  · split
    · simp
    split
    · rename_i hpatched
      intro e he
      cases he
      exact ⟨rfl, rfl, hpatched, ⟨_, if_pos hpatched, hsize, rfl, nofun⟩, nofun⟩
    · simp
  split
  · simp
  split
  · simp
  split
  · simp
  · refine settled_growAndReport ?_ ?_ _ _ _
    exacts [rfl, hsize]

end Full

/-! ## Runs -/

section Runs

variable (nodes : List String) (self : String)

/-- A visit settles on the fast path, or takes the pipeline. -/
def visit (s : Visited) (v : Visit) : Visited :=
  if fastPath nodes self s.memory v.vol v.now v.polled then s
  else
    let (outcome, memory) := fullPass nodes self s.memory v.vol v.toAnswers
    { memory, last := some (v, outcome) }

/-- A fingerprint is of the last visit that took the pipeline. -/
def Vouched (s : Visited) : Prop :=
  ∀ e ∈ s.memory.realized, ∃ v o, s.last = some (v, o) ∧
    Settled v.toAnswers v.vol.generation v.vol.spec.sizeBytes e (o, s.memory)

variable {nodes self}

theorem vouched_foldl {s : Visited} (hs : Vouched s) (visits : List Visit) :
    Vouched (visits.foldl (visit nodes self) s) := by
  induction visits generalizing s with
  | nil => exact hs
  | cons v visits ih =>
    refine ih ?_
    rw [visit]
    split
    · exact hs
    · exact fun e he => ⟨v, _, rfl, settled_fullPass v.vol e he⟩

/-- A visit that settles on the fast path has a settled full pass behind it, of the same generation
and less than `deepCheckInterval` ago, whose slot the API server took; and the status of a
replicated volume is as it was then. -/
theorem settled_behind_full_pass (visits : List Visit) (w : Visit)
    (h : fastPath nodes self (visits.foldl (visit nodes self) {}).memory w.vol w.now w.polled) :
    let s := visits.foldl (visit nodes self) {}
    ∃ v o e, s.last = some (v, o) ∧ s.memory.realized = some e ∧
      Settled v.toAnswers w.vol.generation v.vol.spec.sizeBytes e (o, s.memory) ∧ v.patched = true ∧
      v.vol.generation = w.vol.generation ∧ w.now < v.now + deepCheckInterval ∧
      (e.replicated → ∃ st ∈ w.polled, statusEqual st e.status) := by
  intro s
  obtain ⟨e, he, h⟩ := (Option.any_eq_true _ _).mp h
  obtain ⟨v, o, hlast, hset⟩ := vouched_foldl (s := {}) (by simp [Vouched]) visits e he
  simp only [Bool.and_eq_true, decide_eq_true_iff, Bool.or_eq_true, Bool.not_eq_true'] at h
  obtain ⟨⟨⟨⟨hgen, hnow⟩, -⟩, -⟩, hst⟩ := h
  have hsame := hset.generation_eq.symm.trans hgen
  refine ⟨v, o, e, hlast, he, hsame ▸ hset, hset.patched, hsame, hset.fullPassAt_eq ▸ hnow,
    fun hr => ?_⟩
  obtain ⟨st, hp, heq⟩ := (Option.any_eq_true _ _).mp (hst.resolve_left (by simp [hr]))
  exact ⟨st, hp, (Bool.and_eq_true_iff.mp (Bool.and_eq_true_iff.mp heq).1).1⟩

/-- A visit of `a`'s leg of a healthy pair. -/
def pairVisit (now : Nat) : Visit where
  vol :=
    { name := "v", generation := 1
      spec :=
        { sizeBytes := 512, drbd := true
          replicas := [{ node := "a", nodeID := 0 }, { node := "b", nodeID := 1 }] }
      status :=
        { phase := .ready, readyReplicas := "2/2"
          perNode := fun _ =>
            { deviceCreated := true, sizeBytes := 512, diskState := some .upToDate
              connected := true } } }
  now
  status := { diskState := some .upToDate }
  polled := some { diskState := some .upToDate }

theorem pair_settled_behind_full_pass :
    let s := [pairVisit 0].foldl (visit ["a", "b"] "a") {}
    ∃ v o e, s.last = some (v, o) ∧ s.memory.realized = some e ∧
      Settled v.toAnswers 1 v.vol.spec.sizeBytes e (o, s.memory) ∧ v.patched = true ∧
      v.vol.generation = 1 ∧ second < v.now + deepCheckInterval ∧
      (e.replicated → ∃ st ∈ (pairVisit second).polled, statusEqual st e.status) :=
  settled_behind_full_pass [pairVisit 0] (pairVisit second) (by decide)

end Runs

end Miroir.VolumeReconciler
