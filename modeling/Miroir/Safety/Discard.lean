import Miroir.Latch.World

/-!
# Nothing is discarded on a volume that may hold data

A pass resolves a split-brain, by which every leg but the winner's discards its data, only if the
copy of the volume it has read carries neither flag. The flags are set on the API server by stage
attempts on any node and by passes that see their leg Primary, and a pass learns of that with its
next read at best.

`no_discard_after_flag`: if a flag is first set only while no pass works from a copy without one,
and every pass that reads the volume later reads a version with one, no split-brain is resolved
once the volume is flagged. A pass that reads a version from before the volume was staged resolves
one afterwards (`staged_volume_discards`).
-/

namespace Miroir.Latch

open Process

/-- A pass that reads a volume with a flag reads a version with one. -/
def readsFlag (c : Conf World Nat Job Ans Ended) (a : Act Nat Job Event Outcome) : Bool :=
  (Workers.asked c a).all fun q => !q.job.isPass || !heldData c.world.api ||
    match a with
    | .reply _ (.version i) => c.world.versions[i]?.all heldData
    | _ => true

/-- The step may set a flag. -/
def setsFlag (c : Conf World Nat Job Ans Ended) (a : Act Nat Job Event Outcome) : Bool :=
  (Workers.asked c a).any (fun q => q.cmd = .patchFormatted || q.cmd = .patchActivated) ||
    match a with
    | .event .inheritFormatted => true
    | _ => false

/-- The worker the step answers is `w`. -/
def answers (a : Act Nat Job Event Outcome) (w : Nat) : Bool :=
  match a with
  | .reply w' _ => w = w'
  | _ => false

/-- The first flag is set while no pass, but the one that sets it, has a copy without a flag. -/
def setsAlone (c : Conf World Nat Job Ans Ended) (a : Act Nat Job Event Outcome) : Bool :=
  heldData c.world.api || !setsFlag c a || c.threads.entries.all fun e =>
    answers a e.1 || !e.2.job.isPass || (copyInHand e.2.log).all heldData

def flagsKnown (c : Conf World Nat Job Ans Ended) (a : Act Nat Job Event Outcome) : Bool :=
  readsFlag c a && setsAlone c a

/-- No pass works from a copy without a flag once there is one. -/
def CopiesFlagged (c : Conf World Nat Job Ans Ended) : Prop :=
  heldData c.world.api = true → ∀ w t, c.threads.lookup w = some t → t.job.isPass = true →
    ∀ vol, copyInHand t.log = some vol → heldData vol = true

theorem heldData_setFormatted (vol : Volume) : heldData (setFormatted vol) := by
  simp [heldData, setFormatted]

theorem heldData_setActivated (vol : Volume) : heldData (setActivated vol) := by
  simp [heldData, setActivated]

section Step

variable {Γ : Config} {s s' : World} {n : String} {c : Cmd} {o : Outcome}
  {C C' : Conf World Nat Job Ans Ended} {a : Act Nat Job Event Outcome}

theorem SameFlags.heldData (h : SameFlags s s') : Latch.heldData s'.api = Latch.heldData s.api := by
  rw [Latch.heldData, Latch.heldData, h.1, h.2]

/-- Where the volume gets its first flag, the step sets one. -/
theorem setsFlag_of_held (h : Workers.Stepped (workers Γ) C a C')
    (hnot : heldData C.world.api = false) (hheld : heldData C'.world.api) :
    setsFlag C a := by
  rcases h.world_cases with heq | ⟨e, rfl, he⟩ | ⟨w, o, j, log, cmd, k, r, rfl, ht, hans⟩
  · rw [heq, hnot] at hheld
    cases hheld
  · rcases flags_of_event he with hsame | ⟨rfl, -⟩
    · rw [hsame.heldData, hnot] at hheld
      cases hheld
    · simp [setsFlag]
  · rcases flags_of_answer hans with hsame | ⟨rfl, -⟩ | ⟨rfl, -⟩
    · rw [hsame.heldData, hnot] at hheld
      cases hheld
    · simp [setsFlag, Workers.asked, ht]
    · simp [setsFlag, Workers.asked, ht]

/-- After it was told something a job has a copy with a flag, if the volume has one: it has read
such a copy, has set a flag itself, or had one before and keeps it. -/
theorem copy_of_told {r : Ans c} {log : LatchLog} {t : Nat}
    (hans : answerOn s n c o = some (r, s')) (hheld : heldData s'.api)
    (hread : ∀ i, o = .version i → heldData s.api →
      s.versions[i]?.all heldData)
    (hlog : heldData s.api → ∀ vol, copyInHand log = some vol → heldData vol)
    {vol : Volume} (hvol : copyInHand (⟨t, c, r⟩ :: log) = some vol) : heldData vol := by
  -- A command that leaves the copy alone leaves the flags alone.
  have hkeep (hcopy : copyInHand log = some vol) (hc : c ≠ .patchFormatted)
      (hc' : c ≠ .patchActivated) : heldData vol := by
    rcases flags_of_answer hans with hsame | ⟨h, -⟩ | ⟨h, -⟩
    · exact hlog (hsame.heldData ▸ hheld) vol hcopy
    · exact absurd h hc
    · exact absurd h hc'
  cases c
  case volume =>
    rcases r with e | vol'
    · exact hkeep hvol (by simp) (by simp)
    · obtain rfl : vol' = vol := Option.some.inj hvol
      cases o
      case version i =>
        obtain ⟨v, hv, heq⟩ := Option.map_eq_some_iff.mp hans
        cases heq
        have hall := hread i rfl hheld
        rwa [hv, Option.all_some] at hall
      all_goals cases hans
  case patchFormatted =>
    rcases r with e | vol'
    · obtain ⟨v, -, rfl⟩ := Option.map_eq_some_iff.mp hvol
      exact heldData_setFormatted v
    · obtain rfl : vol' = vol := Option.some.inj hvol
      rw [(patch_cases hans).2 _ rfl]
      exact heldData_setFormatted _
  case patchActivated =>
    rcases r with e | vol'
    · obtain ⟨v, -, rfl⟩ := Option.map_eq_some_iff.mp hvol
      exact heldData_setActivated v
    · obtain rfl : vol' = vol := Option.some.inj hvol
      rw [(patch_cases hans).2 _ rfl]
      exact heldData_setActivated _
  all_goals exact hkeep hvol (by simp) (by simp)

theorem CopiesFlagged.step (h : CopiesFlagged C) (hs : Workers.Stepped (workers Γ) C a C')
    (ha : flagsKnown C a) : CopiesFlagged C' := by
  intro hheld w t ht hpass vol hvol
  obtain ⟨hreads, hsets⟩ := Bool.and_eq_true_iff.mp ha
  rcases hs.thread_cases ht with ⟨ht, hother⟩ | ⟨j, -, rfl⟩ |
    ⟨o, j, log, cmd, k, r, rfl, hw, hans, rfl⟩
  · cases hwas : heldData C.world.api
    · -- The step sets the first flag, and `w` is not the worker it answers.
      have hset := setsFlag_of_held hs hwas hheld
      simp only [setsAlone, hwas, hset, Bool.not_true, Bool.false_or] at hsets
      have hw := List.all_eq_true.mp hsets ⟨w, t⟩ (AList.mem_lookup_iff.mp ht)
      have hans : answers a w = false := by
        cases a with
        | reply w' o =>
          refine decide_eq_false fun heq => hother o ?_
          rw [heq]
        | start | finish | crash | event => rfl
      simpa [hans, hpass, hvol] using hw
    · exact h hwas w t ht hpass vol hvol
  · cases hvol
  · refine copy_of_told hans hheld (fun i ho hwas => ?_)
      (fun hwas v hv => h hwas w _ hw hpass v hv) hvol
    subst ho
    simpa [readsFlag, Workers.asked, hw, hpass, hwas] using hreads

end Step

/-- In every run in which the flags are known to the passes, no split-brain is resolved once the
volume is activated or formatted on the API server. -/
theorem no_discard_after_flag {Γ : Config} {s₀ : World} {N i j : ℕ}
    (ρ : Run (workers Γ).step (Workers.init s₀) N)
    (h : ∀ k < N, flagsKnown (ρ.state k) (ρ.act k) = true) (hij : i ≤ j) (hj : j < N)
    (hf : (ρ.state i).world.api.status.activated = true ∨
      (ρ.state i).world.api.status.formatted = true) {q : Query Nat Job Ans}
    (hq : Workers.asked (ρ.state j) (ρ.act j) = some q) (res : Resource) :
    q.cmd ≠ .resolveSplitBrain res := by
  intro hcmd
  have hinv : CopiesFlagged (ρ.state j) :=
    ρ.invariant (P := fun _ c => CopiesFlagged c) (fun _ _ _ ht => by cases ht)
      (fun k hk hinv => hinv.step (Workers.stepped_of_step (ρ.next k hk)) (h k hk))
      (Nat.le_of_lt hj)
  have hlater := later_of_run ρ hij (Nat.le_of_lt hj)
  have hheld : heldData (ρ.state j).world.api = true := by
    rcases hf with hf | hf
    · simp [heldData, hlater.activated hf]
    · simp [heldData, hlater.formatted hf]
  have hguard := (guarded ρ (Nat.le_of_lt hj) hq).1
  rw [hcmd] at hguard
  obtain ⟨hpass, vol, hvol, hnot⟩ := hguard
  obtain ⟨o, k, -, ht⟩ := Workers.asked_eq_some hq
  rw [hinv hheld q.worker _ ht hpass vol hvol] at hnot
  cases hnot

/-! ## A split beside a stage attempt -/

/-- No connection is up, and "b" has refused the handshake. -/
def parted (split : Bool) : LiveStatus :=
  { upToDate with peerConnected := fun _ => false, splitBrain := split }

/-- "a" stages a block volume. It sees no split itself, and no slot reports one yet. -/
def stagedOnA : List (Act Nat Job Event Outcome) :=
  .start 0 (.stage "a" none []) ::
    Workers.replies 0 (List.replicate 3 (.version 0) ++ [.status (parted false), .ok, .ok]) ++
    [.finish 0]

/-- A pass of "b" reads version `i` of the volume, finds a split and is due to recover. -/
def splitOnB (i : Nat) : List (Act Nat Job Event Outcome) :=
  .start 1 (.pass "b") ::
    Workers.replies 1 [.version i, .flag false, .ok, .status (parted true), .sizes 0 0,
      .flag true, .ok]

theorem known_possible :
    allSteps (workers twoNodes).step flagsKnown (Workers.init born)
      (stagedOnA ++ splitOnB 0) := by
  decide +kernel

def knownRun : Run (workers twoNodes).step (Workers.init born) (stagedOnA ++ splitOnB 0).length :=
  .ofActions _ _ _ _ known_possible

/-- The volume is activated from moment 7 on. At moment 15 the pass, which has read that, reports
its slot instead of resolving the split. -/
theorem known_no_discard :
    (knownRun.state 7).world.api.status.activated = true ∧
      ∃ q, Workers.asked (knownRun.state 15) (knownRun.act 15) = some q ∧ q.job = .pass "b" ∧
        ∀ res, q.cmd ≠ .resolveSplitBrain res := by
  have hq : (Workers.asked (knownRun.state 15) (knownRun.act 15)).any
      (fun q => q.job = .pass "b") = true := by decide +kernel
  obtain ⟨q, hq, hjob⟩ := (Option.any_eq_true _ _).mp hq
  have hf : (knownRun.state 7).world.api.status.activated = true := by decide +kernel
  exact ⟨hf, q, hq, of_decide_eq_true hjob, no_discard_after_flag knownRun
    (fun _ hi => Run.ofActions_spec known_possible hi) (by decide) (by decide) (.inl hf) hq⟩

theorem lagging_possible :
    allSteps (workers twoNodes).step (fun _ _ => true) (Workers.init born)
      (stagedOnA ++ splitOnB 1) := by
  decide +kernel

def laggingRun :
    Run (workers twoNodes).step (Workers.init born) (stagedOnA ++ splitOnB 1).length :=
  .ofActions _ _ _ _ lagging_possible

/-- The volume is activated from moment 7 on. The pass of "b" starts after that, but reads the
version before it, and at moment 15 resolves the split. -/
theorem staged_volume_discards :
    (laggingRun.state 7).world.api.status.activated = true ∧
      ∃ q res, Workers.asked (laggingRun.state 15) (laggingRun.act 15) = some q ∧
        q.cmd = .resolveSplitBrain res := by
  have hq : (Workers.asked (laggingRun.state 15) (laggingRun.act 15)).any (fun q =>
      q.cmd = .resolveSplitBrain (drbdResource onTwoNodes "b" false)) = true := by decide +kernel
  obtain ⟨q, hq, hcmd⟩ := (Option.any_eq_true _ _).mp hq
  exact ⟨by decide +kernel, q, _, hq, of_decide_eq_true hcmd⟩

end Miroir.Latch
