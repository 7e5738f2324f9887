import Miroir.Latch.World

/-!
# No generation is forced on a volume in use

The seed of a padded restore forces its generation, by which its data overwrites every peer's, as
long as its disk is Inconsistent under metadata of its own making and no peer is known to be
UpToDate. The flag that the volume has been in use is not part of that gate, and a seed whose
backing was lost and cloned again looks just like one that waits for its first generation.

`no_forced_generation`: if, once the volume is activated, a seed that looks at its gate knows of
an UpToDate peer, and the volume is not activated between the gate and the mint, no generation is
forced after the activation. With a peer that is merely Outdated one is
(`outdated_peer_overwritten`).
-/

namespace Miroir.Latch

open Process

/-- A seed of an activated volume that reads its marker has adopted its metadata, or sees an
UpToDate peer. -/
def seesPeer (Γ : Config) (c : Conf World Nat Job Ans Ended) (q : Query Nat Job Ans) : Bool :=
  q.cmd ≠ .metadataAdopted || !c.world.api.status.activated ||
    c.world.disk q.job.node = .held true ||
    (copyInHand q.log).all fun vol => (statusInHand q.log).all fun st =>
      peerUpToDate Γ.nodes st.peerIDs vol st.toDrbdStatus q.job.node

/-- The volume is activated while nobody is about to force a generation. -/
def activatesApart (c : Conf World Nat Job Ans Ended) (q : Query Nat Job Ans) : Bool :=
  q.cmd ≠ .patchActivated || c.world.api.status.activated ||
    c.threads.entries.all fun e => e.2.pending ≠ some .forcePrimary

def seedKnown (Γ : Config) (c : Conf World Nat Job Ans Ended) (a : Act Nat Job Event Outcome) :
    Bool :=
  (Workers.asked c a).all fun q => seesPeer Γ c q && activatesApart c q

/-- Nobody is about to force a generation on an activated volume. -/
def NoForce (c : Conf World Nat Job Ans Ended) : Prop :=
  c.world.api.status.activated = true → ∀ w t, c.threads.lookup w = some t →
    t.pending ≠ some .forcePrimary

section Step

variable {Γ : Config} {s s' : World} {n : String} {o : Outcome}
  {C C' : Conf World Nat Job Ans Ended} {a : Act Nat Job Event Outcome}

theorem seedKnown_spec {q : Query Nat Job Ans} (h : seedKnown Γ C a)
    (hq : Workers.asked C a = some q) : seesPeer Γ C q ∧ activatesApart C q := by
  rw [seedKnown, hq, Option.all_some] at h
  exact Bool.and_eq_true_iff.mp h

/-- Where the volume becomes activated, a patch that activates it is answered. -/
theorem asked_of_activated (h : Workers.Stepped (workers Γ) C a C')
    (hnot : C.world.api.status.activated = false) (hact : C'.world.api.status.activated) :
    ∃ q, Workers.asked C a = some q ∧ q.cmd = .patchActivated := by
  rcases h.world_cases with heq | ⟨e, rfl, he⟩ | ⟨w, o, j, log, cmd, k, r, rfl, ht, hans⟩
  · rw [heq, hnot] at hact
    cases hact
  · rcases flags_of_event he with hsame | ⟨rfl, hw⟩
    · rw [hsame.2, hnot] at hact
      cases hact
    · rw [hw] at hact
      simp [World.put, setFormatted, hnot] at hact
  · rcases flags_of_answer hans with hsame | ⟨rfl, hw⟩ | ⟨rfl, -⟩
    · rw [hsame.2, hnot] at hact
      cases hact
    · rw [hw] at hact
      simp [World.put, setFormatted, hnot] at hact
    · exact ⟨⟨w, j, log, .patchActivated⟩, by simp [Workers.asked, ht], rfl⟩

/-- The marker is read as it is, and reading it changes nothing. -/
theorem adopted_of_answer {adopted : Bool}
    (h : answerOn s n .metadataAdopted o = some (adopted, s')) :
    s' = s ∧ adopted = decide (s.disk n = .held true) := by
  cases o <;> cases h
  exact ⟨rfl, rfl⟩

/-- A seed that sees an UpToDate peer does not pass its gate. -/
theorem gate_closed {log : LatchLog} {t : Nat} {self : String}
    (h : SeedGate Γ self (⟨t, .metadataAdopted, false⟩ :: log))
    (hpeer : (copyInHand log).all (fun vol => (statusInHand log).all fun st =>
      peerUpToDate Γ.nodes st.peerIDs vol st.toDrbdStatus self)) : False := by
  obtain ⟨t', rest, vol, st, heq, hvol, hst, hgate⟩ := h
  obtain ⟨-, rfl⟩ := List.cons.inj heq
  rw [hvol, hst, Option.all_some, Option.all_some] at hpeer
  simp [restoreSeedPending, hpeer] at hgate

end Step

section Runs

variable {Γ : Config} {s₀ : World} {N i j : ℕ} (ρ : Run (workers Γ).step (Workers.init s₀) N)

/-- A thread about to force a generation has just passed the gate. -/
theorem seedGate_of_pending (hi : i ≤ N) {w : Nat} {t : Thread Job Ans Ended}
    (ht : (ρ.state i).threads.lookup w = some t) (hp : t.pending = some .forcePrimary) :
    SeedGate Γ t.job.node t.log := by
  have hob := (thread_guarded ρ hi ht).1
  obtain ⟨job, log, prog⟩ := t
  cases prog with
  | ret a => cases hp
  | ask c k =>
    obtain rfl : c = .forcePrimary := Option.some.inj hp
    exact hob.1

theorem noForce_of_run (h : ∀ k < N, seedKnown Γ (ρ.state k) (ρ.act k)) (hi : i ≤ N) :
    NoForce (ρ.state i) := by
  refine ρ.invariant (P := fun _ c => NoForce c) (fun _ w t ht => by cases ht) ?_ hi
  intro i hi ih hact w t ht hp
  have hs := Workers.stepped_of_step (ρ.next i hi)
  rcases hs.thread_cases ht with ⟨hold, -⟩ | ⟨j, -, rfl⟩ |
    ⟨o, j, log, cmd, k, r, ha, hw, hans, rfl⟩
  · cases hwas : (ρ.state i).world.api.status.activated
    · -- The step activates the volume, and nobody waits to force a generation.
      obtain ⟨q, hq, hcmd⟩ := asked_of_activated hs hwas hact
      have hapart := (seedKnown_spec (h i hi) hq).2
      simp only [activatesApart, hcmd, hwas, ne_eq, not_true_eq_false, decide_false,
        Bool.or_self, Bool.false_or] at hapart
      have hw := List.all_eq_true.mp hapart ⟨w, t⟩ (AList.mem_lookup_iff.mp hold)
      exact of_decide_eq_true hw hp
    · exact ih hwas w t hold hp
  · obtain ⟨t', rest, vol, st, heq, -⟩ := seedGate_of_pending ρ hi ht hp
    cases heq
  · -- The thread has just been told what its marker says.
    have hgate := seedGate_of_pending ρ hi ht hp
    obtain ⟨t', rest, vol, st, heq, -⟩ := hgate
    obtain ⟨hentry, -⟩ := List.cons.inj heq
    cases hentry
    obtain ⟨hworld, hadopted⟩ := adopted_of_answer hans
    have hq : Workers.asked (ρ.state i) (ρ.act i) = some ⟨w, j, log, .metadataAdopted⟩ := by
      simp only [ha, Workers.asked, hw]
    have hsees := (seedKnown_spec (h i hi) hq).1
    rw [hworld] at hact
    have hnot : (ρ.state i).world.disk j.node ≠ .held true := of_decide_eq_false hadopted.symm
    simp only [seesPeer, hact, hnot, ne_eq, not_true_eq_false, decide_false, Bool.not_true,
      Bool.or_self, Bool.false_or] at hsees
    exact gate_closed (seedGate_of_pending ρ hi ht hp) hsees

/-- In every run in which seeds know of an UpToDate peer once the volume is activated, no
generation is forced after that. -/
theorem no_forced_generation (h : ∀ k < N, seedKnown Γ (ρ.state k) (ρ.act k) = true)
    (hij : i ≤ j) (hj : j < N) (hf : (ρ.state i).world.api.status.activated = true)
    {q : Query Nat Job Ans} (hq : Workers.asked (ρ.state j) (ρ.act j) = some q) :
    q.cmd ≠ .forcePrimary := by
  intro hcmd
  have hact := (later_of_run ρ hij (Nat.le_of_lt hj)).activated hf
  obtain ⟨o, k, -, ht⟩ := Workers.asked_eq_some hq
  exact noForce_of_run ρ h (Nat.le_of_lt hj) hact q.worker _ ht (congrArg some hcmd)

end Runs

/-! ## A seed whose backing is lost -/

/-- A volume restored across the replication boundary: "a" holds the clone, "b" joins. -/
def padded : Volume where
  name := "pvc"
  spec :=
    { sizeBytes := 1073741824
      replicas := [{ node := "a", nodeID := 0, address := "10.0.0.1" },
        { node := "b", nodeID := 1, address := "10.0.0.2", fullSync := true }]
      drbd := true
      source := some { snapshotName := "snap", padForMetadata := true } }
  status := { perNode := fun _ => { deviceCreated := true, devicePath := "/dev/drbd1000" } }

/-- The local disk and the one peer's disk, connected. -/
def disks (own peer : DiskState) : LiveStatus :=
  { upToDate with diskState := some own, peerDiskState := fun _ => some peer, peerIDs := [1] }

/-- The seed's first pass forces the generation, "b" is synced, and "a" is staged. -/
def bootstrapped : List (Act Nat Job Event Outcome) :=
  .start 0 (.pass "a") ::
    Workers.replies 0 [.version 0, .flag false, .ok, .status (disks .inconsistent .inconsistent),
      .ok, .ok, .ok, .status (disks .upToDate .inconsistent), .sizes 1073741824 30, .ok] ++
    .finish 0 :: .event (.sync "b") :: .start 1 (.stage "a" none []) ::
    Workers.replies 1 (List.replicate 3 (.version 0) ++
      [.status (disks .upToDate .upToDate), .ok, .ok]) ++ [.finish 1]

/-- The status slots, with what "b" has reported last. -/
def slots (b : DiskState) (n : String) : ReplicaStatus :=
  { deviceCreated := true
    devicePath := "/dev/drbd1000"
    diskState := if n = "b" then some b else some .upToDate }

/-- The backing on "a" is lost and made again from the snapshot, while "b" is in state `b`. The
seed reads its marker and has its next command answered with `last`. -/
def lostOnA (b : DiskState) (last : Outcome) : List (Act Nat Job Event Outcome) :=
  .event (.edit 1073741824 padded.spec.replicas [] (slots b)) :: .event (.lose "a") ::
    .start 0 (.pass "a") ::
    Workers.replies 0 [.version 0, .flag false, .ok, .status (disks .inconsistent b), .ok, last]

def restoredOnA : World where
  api := padded

theorem upToDate_possible :
    allSteps (workers twoNodes).step (seedKnown twoNodes) (Workers.init restoredOnA)
      (bootstrapped ++ lostOnA .upToDate (.sizes 1073741824 30)) := by
  decide +kernel

def upToDateRun : Run (workers twoNodes).step (Workers.init restoredOnA)
    (bootstrapped ++ lostOnA .upToDate (.sizes 1073741824 30)).length :=
  .ofActions _ _ _ _ upToDate_possible

/-- The volume is activated from moment 20 on. With "b" UpToDate the seed goes on to grow its leg
at moment 29. -/
theorem upToDate_not_forced :
    (upToDateRun.state 20).world.api.status.activated = true ∧
      ∃ q, Workers.asked (upToDateRun.state 29) (upToDateRun.act 29) = some q ∧
        q.job = .pass "a" ∧ q.cmd ≠ .forcePrimary := by
  have hq : (Workers.asked (upToDateRun.state 29) (upToDateRun.act 29)).any
      (fun q => q.job = .pass "a") = true := by decide +kernel
  obtain ⟨q, hq, hjob⟩ := (Option.any_eq_true _ _).mp hq
  have hf : (upToDateRun.state 20).world.api.status.activated = true := by decide +kernel
  exact ⟨hf, q, hq, of_decide_eq_true hjob, no_forced_generation upToDateRun
    (fun _ hi => Run.ofActions_spec upToDate_possible hi) (by decide) (by decide) hf hq⟩

theorem outdated_possible :
    allSteps (workers twoNodes).step (fun _ _ => true) (Workers.init restoredOnA)
      (bootstrapped ++ lostOnA .outdated .ok) := by
  decide +kernel

def outdatedRun : Run (workers twoNodes).step (Workers.init restoredOnA)
    (bootstrapped ++ lostOnA .outdated .ok).length :=
  .ofActions _ _ _ _ outdated_possible

/-- With "b" Outdated the seed forces a generation at moment 29, on a volume that has been
activated since moment 20. -/
theorem outdated_peer_overwritten :
    (outdatedRun.state 20).world.api.status.activated = true ∧
      ∃ q, Workers.asked (outdatedRun.state 29) (outdatedRun.act 29) = some q ∧
        q.job = .pass "a" ∧ q.cmd = .forcePrimary := by
  have hq : (Workers.asked (outdatedRun.state 29) (outdatedRun.act 29)).any (fun q =>
      q.job = .pass "a" && q.cmd = .forcePrimary) = true := by decide +kernel
  obtain ⟨q, hq, hcmd⟩ := (Option.any_eq_true _ _).mp hq
  obtain ⟨hjob, hcmd⟩ := Bool.and_eq_true_iff.mp hcmd
  exact ⟨by decide +kernel, q, hq, of_decide_eq_true hjob, of_decide_eq_true hcmd⟩

end Miroir.Latch
