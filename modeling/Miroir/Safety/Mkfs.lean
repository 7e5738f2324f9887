import Miroir.Latch.World

/-!
# A filesystem is made once

`EnsureFilesystem` makes a filesystem on a device that reads blank, unless the volume was
formatted before. For a restore that is looked up on the API server, for any other volume in the
copy the call was handed, which may be older than the flag.

`mkfs_once`: as long as every call on a volume without a source begins with a copy that shows the
flag once it is set, a call that reaches `FormatAndMount` began before the flag was set. A blank
probe on a second node with an older copy makes a filesystem again (`stale_copy_reformats`).
-/

namespace Miroir.Latch

open Process

/-- A call of `EnsureFilesystem` that begins with the flag set, on a volume without a source, has
been handed a copy that shows it. -/
def handedFlag (c : Conf World Nat Job Ans Ended) (a : Act Nat Job Event Outcome) : Bool :=
  (Workers.asked c a).all fun q =>
    q.cmd ≠ .isLikelyNotMountPoint || !c.world.api.status.formatted ||
      (copyInHand q.log).all fun vol => vol.spec.source.isSome || vol.status.formatted

/-- In every run in which calls are handed the flag, a call that reaches `FormatAndMount` after
`formatted` was set on the API server began before that. -/
theorem mkfs_once {Γ : Config} {s₀ : World} {N i j : ℕ}
    (ρ : Run (workers Γ).step (Workers.init s₀) N)
    (h : ∀ k < N, handedFlag (ρ.state k) (ρ.act k) = true) (hj : j < N)
    (hf : (ρ.state i).world.api.status.formatted = true) {q : Query Nat Job Ans}
    (hq : Workers.asked (ρ.state j) (ρ.act j) = some q) {fsType : String} {flags : List String}
    (hcmd : q.cmd = .formatAndMount fsType flags) :
    ∃ t, callBegan q.log = some t ∧ t < i := by
  obtain ⟨hguard, hlog⟩ := guarded ρ (Nat.le_of_lt hj) hq
  rw [hcmd] at hguard
  obtain ⟨vol, new, rest, t, hcall, hvol, hback⟩ := hguard
  refine ⟨t, hcall.callBegan, ?_⟩
  obtain ⟨r, heq⟩ := hcall.log
  rw [heq] at hlog
  by_contra hlt
  have hset {k : ℕ} (hk : t ≤ k) (hkj : k < j) :
      (ρ.state k).world.api.status.formatted = true :=
    (later_of_run ρ (by omega) (by omega)).formatted hf
  obtain ⟨htj, htold⟩ := hlog.head
  dsimp only at htj
  rcases hback with hsrc | ⟨t', live, hmem, hlive⟩
  · -- The copy of a fresh volume shows the flag where the call begins.
    have hhanded := h t (by omega)
    rw [handedFlag, htold.asked] at hhanded
    simp [hset (Nat.le_refl t) htj, hcall.copy, hsrc, hvol] at hhanded
  · -- A restore reads the volume after the call began.
    have hnew := hlog.newer hmem
    obtain ⟨l', ht'j, htold'⟩ := hlog.told (List.mem_append_left _ hmem)
    rw [live_of_told ρ htold', hset (Nat.le_of_lt hnew) ht'j] at hlive
    cases hlive

/-! ## Two nodes -/

/-- A stage attempt reads version `i` three times and finds the disk UpToDate. -/
def resolved (w i : Nat) : List (Act Nat Job Event Outcome) :=
  Workers.replies w (List.replicate 3 (.version i) ++ [.status upToDate])

/-- Its call finds a blank device at a new staging path. -/
def probedBlank (w : Nat) : List (Act Nat Job Event Outcome) :=
  Workers.replies w [.flag true, .ok, .format ""]

/-- The filesystem is made, fills the device, and both flags are set. -/
def madeFilesystem (w : Nat) : List (Act Nat Job Event Outcome) :=
  Workers.replies w [.ok, .ok, .flag false, .ok] ++ [.finish w]

def ext4 (n : String) : Job := .stage n (some "ext4") []

/-- "b" begins its call while "a" is still at work, and both make a filesystem. -/
def together : List (Act Nat Job Event Outcome) :=
  .start 0 (ext4 "a") :: resolved 0 0 ++ .start 1 (ext4 "b") :: resolved 1 0 ++
    probedBlank 1 ++ probedBlank 0 ++ madeFilesystem 0 ++ [.reply 1 .ok]

theorem together_handed :
    allSteps (workers twoNodes).step handedFlag (Workers.init born) together := by
  decide +kernel

def togetherRun : Run (workers twoNodes).step (Workers.init born) together.length :=
  .ofActions _ _ _ together together_handed

/-- The call of "b" reaches `FormatAndMount` at moment 21, with the flag set from moment 18 on. -/
theorem together_mkfs :
    (togetherRun.state 18).world.api.status.formatted = true ∧
      ∃ q, Workers.asked (togetherRun.state 21) (togetherRun.act 21) = some q ∧
        ∃ t, callBegan q.log = some t ∧ t < 18 := by
  have hq : (Workers.asked (togetherRun.state 21) (togetherRun.act 21)).any
      (fun q => q.cmd = .formatAndMount "ext4" []) = true := by decide +kernel
  obtain ⟨q, hq, hcmd⟩ := (Option.any_eq_true _ _).mp hq
  have hf : (togetherRun.state 18).world.api.status.formatted = true := by decide +kernel
  exact ⟨hf, q, hq, mkfs_once togetherRun (fun _ hi => Run.ofActions_spec together_handed hi)
    (by decide) hf hq (of_decide_eq_true hcmd)⟩

/-- "a" has staged the volume and is done with it. Then "b" stages it from the first version, and
its probe reads blank once. -/
def reformatted : List (Act Nat Job Event Outcome) :=
  .start 0 (ext4 "a") :: resolved 0 0 ++ probedBlank 0 ++ madeFilesystem 0 ++
    .start 1 (ext4 "b") :: resolved 1 2 ++ probedBlank 1 ++ [.reply 1 .ok]

theorem reformatted_possible :
    allSteps (workers twoNodes).step (fun _ _ => true) (Workers.init born) reformatted := by
  decide +kernel

def reformattedRun : Run (workers twoNodes).step (Workers.init born) reformatted.length :=
  .ofActions _ _ _ reformatted reformatted_possible

/-- The flag is set from moment 10 on; the call of "b" begins at moment 18 and reaches
`FormatAndMount` at moment 21. -/
theorem stale_copy_reformats :
    (reformattedRun.state 10).world.api.status.formatted = true ∧
      ∃ q, Workers.asked (reformattedRun.state 21) (reformattedRun.act 21) = some q ∧
        q.cmd = .formatAndMount "ext4" [] ∧ callBegan q.log = some 18 := by
  have hq : (Workers.asked (reformattedRun.state 21) (reformattedRun.act 21)).any (fun q =>
      q.cmd = .formatAndMount "ext4" [] && callBegan q.log = some 18) = true := by decide +kernel
  obtain ⟨q, hq, hcmd⟩ := (Option.any_eq_true _ _).mp hq
  obtain ⟨hcmd, hbegan⟩ := Bool.and_eq_true_iff.mp hcmd
  exact ⟨by decide +kernel, q, hq, of_decide_eq_true hcmd, of_decide_eq_true hbegan⟩

end Miroir.Latch
