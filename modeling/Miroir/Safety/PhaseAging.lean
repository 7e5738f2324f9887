import Miroir.Volume.FastPath

/-!
# The aging of a phase

A probe that has become too old takes a leg out of the ready count, with no write that would wake
the phase reconciler. `nextProbeExpiry` is when it comes back by itself. A leg counts as fresh up to
and including the threshold, but a probe on the threshold has nothing left and is skipped: a pass at
just that instant does not come back (`expiry_missed`), and any other does
(`nextProbeExpiry_le_iff`).
-/

namespace Miroir.VolumeReconciler

open Removal

/-- What is left of the leg's probe, 0 where it has none or is on or past the threshold. -/
def remaining (st : ReplicaStatus) (now : Nat) : Nat :=
  (st.lastProbedAt.map fun t => t * second + staleProbeThreshold - now).getD 0

/-- The nearest point at which the phase can change without a write, 0 where there is none. -/
def nextProbeExpiry (vol : Volume) (now : Nat) : Nat :=
  vol.spec.diskfulReplicas.foldl (fun next rep =>
    let left := remaining (vol.status.perNode rep.node) now
    if 0 < left && (next = 0 || left < next) then left else next) 0

/-- The fold is at most what it starts with and what it meets, zeros apart. -/
theorem foldl_le {α : Type*} (f : α → Nat) {l : List α} {next n : Nat} (hn : 0 < n)
    (h : next = n ∨ ∃ a ∈ l, f a = n) :
    let m := l.foldl (fun next a => if 0 < f a && (next = 0 || f a < next) then f a else next) next
    0 < m ∧ m ≤ n := by
  induction l generalizing next n with
  | nil =>
    obtain rfl | ⟨a, ha, -⟩ := h
    · exact ⟨hn, Nat.le_refl _⟩
    · cases ha
  | cons a l ih =>
    -- Whichever of the two it is, what the fold goes on with is positive and no larger.
    suffices hnext : ∃ n' ≤ n, 0 < n' ∧ ((if 0 < f a && (next = 0 || f a < next) then f a else next)
        = n' ∨ ∃ b ∈ l, f b = n') by
      obtain ⟨n', hle, hpos, h'⟩ := hnext
      exact ⟨(ih hpos h').1, (ih hpos h').2.trans hle⟩
    obtain rfl | ⟨b, hb, rfl⟩ := h
    · split
      · rename_i hif
        simp only [Bool.and_eq_true, Bool.or_eq_true, decide_eq_true_iff] at hif
        exact ⟨f a, by omega, hif.1, .inl rfl⟩
      · exact ⟨next, Nat.le_refl _, hn, .inl rfl⟩
    · rcases List.mem_cons.mp hb with rfl | hb
      · split
        · exact ⟨f b, Nat.le_refl _, hn, .inl rfl⟩
        · rename_i hif
          simp only [Bool.and_eq_true, Bool.or_eq_true, decide_eq_true_iff] at hif
          exact ⟨next, by omega, by omega, .inl rfl⟩
      · exact ⟨f b, Nat.le_refl _, hn, .inr ⟨b, hb, rfl⟩⟩

variable {vol : Volume} {now t : Nat}

theorem nextProbeExpiry_le_remaining {rep : Replica} (hrep : rep ∈ vol.spec.diskfulReplicas)
    (hpos : 0 < remaining (vol.status.perNode rep.node) now) :
    0 < nextProbeExpiry vol now ∧
      nextProbeExpiry vol now ≤ remaining (vol.status.perNode rep.node) now :=
  foldl_le (fun rep : Replica => remaining (vol.status.perNode rep.node) now) hpos
    (.inr ⟨rep, hrep, rfl⟩)

/-- On the threshold of one probe, all others have whole seconds left. -/
theorem second_dvd_nextProbeExpiry {p : Stamp} (hnow : p * second + staleProbeThreshold = now) :
    second ∣ nextProbeExpiry vol now := by
  unfold nextProbeExpiry
  refine List.foldlRecOn _ _ (Nat.dvd_zero _) fun next hnext rep _ => ?_
  dsimp only
  split
  · unfold remaining
    cases (vol.status.perNode rep.node).lastProbedAt with
    | none => exact Nat.dvd_zero _
    | some q =>
      rw [Option.map_some, Option.getD_some, ← hnow, Nat.add_sub_add_right, ← Nat.sub_mul]
      exact Nat.dvd_mul_left ..
  · exact hnext

theorem olderThan_eq_false_iff {d : Nat} {p : Stamp} :
    olderThan now d p = false ↔ now ≤ p * second + d := by
  simp [olderThan]

theorem probeFresh_iff {st : ReplicaStatus} :
    probeFresh now st ↔ ∀ p ∈ st.lastProbedAt, now ≤ p * second + staleProbeThreshold := by
  simp only [probeFresh, Option.all_eq_true, Bool.not_eq_true', olderThan_eq_false_iff,
    Option.mem_def]

/-- A leg that is ready has been ready before, its record being the same. -/
theorem readyReplica_of_le (ht : now ≤ t) {rep : Replica} (h : readyReplica t vol rep) :
    readyReplica now vol rep := by
  simp only [readyReplica, Bool.and_eq_true, probeFresh_iff] at h ⊢
  exact ⟨h.1, fun p hp => ht.trans (h.2 p hp)⟩

/-- A leg that is not ready any more was probed, and its probe has become too old. -/
theorem probe_of_aged {rep : Replica} (hnow : readyReplica now vol rep)
    (hlater : ¬readyReplica t vol rep) : ∃ p, (vol.status.perNode rep.node).lastProbedAt = some p ∧
      now ≤ p * second + staleProbeThreshold ∧ p * second + staleProbeThreshold < t := by
  simp only [readyReplica, Bool.and_eq_true, not_and, probeFresh_iff] at hnow hlater
  have hstale := hlater hnow.1
  push Not at hstale
  obtain ⟨p, hp, hlt⟩ := hstale
  exact ⟨p, hp, hnow.2 p hp, hlt⟩

/-- The phase changes with the legs that are ready. -/
theorem computePhaseAt_ne_iff (ht : now ≤ t) : computePhaseAt now vol ≠ computePhaseAt t vol ↔
    ∃ rep ∈ vol.spec.diskfulReplicas, readyReplica now vol rep ∧ ¬readyReplica t vol rep := by
  have hle (rep : Replica) : readyReplica t vol rep → readyReplica now vol rep :=
    readyReplica_of_le ht
  constructor
  · contrapose!
    intro hsame
    have hready : vol.spec.diskfulReplicas.countP (readyReplica now vol) =
        vol.spec.diskfulReplicas.countP (readyReplica t vol) :=
      List.countP_congr fun rep hrep => ⟨hsame rep hrep, hle rep⟩
    simp only [computePhaseAt, hready]
  · rintro ⟨rep, hrep, hnow, hlater⟩ heq
    -- The count of the ready legs is part of what is published.
    have hcount := congrArg Prod.snd heq
    simp only [computePhaseAt, String.append_left_inj, Nat.toString_eq_repr] at hcount
    have hcount := congrArg (fun s => Nat.ofDigitChars 10 s.toList 0) hcount
    simp only [Nat.toList_repr, Nat.ofDigitChars_ten_toDigits] at hcount
    obtain ⟨l, l', hl⟩ := List.append_of_mem hrep
    rw [hl, List.countP_append, List.countP_append, List.countP_cons_of_pos hnow,
      List.countP_cons_of_neg hlater] at hcount
    have h₁ := List.countP_mono_left (l := l) fun rep _ => hle rep
    have h₂ := List.countP_mono_left (l := l') fun rep _ => hle rep
    omega

/-- The phase reconciler comes back before, or when, the phase it has published becomes wrong, if
and only if no diskful leg it counts as ready has its probe on the threshold right now. -/
theorem nextProbeExpiry_le_iff (vol : Volume) (now : Nat) :
    (∀ rep ∈ vol.spec.diskfulReplicas, readyReplica now vol rep →
      ∀ p ∈ (vol.status.perNode rep.node).lastProbedAt, p * second + staleProbeThreshold ≠ now) ↔
    ∀ t, now < t → computePhaseAt now vol ≠ computePhaseAt t vol →
      0 < nextProbeExpiry vol now ∧ nextProbeExpiry vol now ≤ t - now := by
  constructor
  · intro hold t ht hphase
    obtain ⟨rep, hrep, hnow, hlater⟩ := (computePhaseAt_ne_iff ht.le).mp hphase
    obtain ⟨p, hp, hage, hdue⟩ := probe_of_aged hnow hlater
    have hleft : remaining (vol.status.perNode rep.node) now =
        p * second + staleProbeThreshold - now := by
      rw [remaining, hp, Option.map_some, Option.getD_some]
    have hpos := Nat.sub_pos_of_lt (lt_of_le_of_ne hage (hold rep hrep hnow p hp).symm)
    rw [← hleft] at hpos
    obtain ⟨hpos, hle⟩ := nextProbeExpiry_le_remaining hrep hpos
    rw [hleft] at hle
    exact ⟨hpos, hle.trans (Nat.sub_le_sub_right hdue.le _)⟩
  · intro h rep hrep hnow p hp heq
    -- The next instant is too late for it, and too early for any other probe.
    have hlater : ¬readyReplica (now + 1) vol rep := by
      simp only [readyReplica, Bool.and_eq_true, probeFresh_iff, not_and]
      exact fun _ hfresh => absurd (hfresh p hp) (by rw [heq]; exact Nat.not_succ_le_self _)
    obtain ⟨hpos, hle⟩ := h (now + 1) (Nat.lt_succ_self _)
      ((computePhaseAt_ne_iff (Nat.le_succ _)).mpr ⟨rep, hrep, hnow, hlater⟩)
    rw [Nat.add_sub_cancel_left] at hle
    have hsecond : second ≤ 1 := (Nat.le_of_dvd hpos (second_dvd_nextProbeExpiry heq)).trans hle
    exact absurd hsecond (by simp [second])

/-- An unreplicated volume, probed at the start of time. -/
def probed : Volume where
  name := "v"
  spec := { sizeBytes := 1, replicas := [{ node := "a", nodeID := 0 }], drbd := false }
  status :=
    { perNode := fun _ => { deviceCreated := true, sizeBytes := 1, lastProbedAt := some 0 } }

/-- A pass on the threshold publishes `Ready`, which is wrong from the next instant on, and does not
come back. -/
theorem expiry_missed : (computePhaseAt staleProbeThreshold probed).1 = .ready ∧
    nextProbeExpiry probed staleProbeThreshold = 0 ∧
    ∀ t, staleProbeThreshold < t → (computePhaseAt t probed).1 = .degraded := by
  refine ⟨by decide, by decide, fun t ht => ?_⟩
  have hstale : readyReplica t probed { node := "a", nodeID := 0 } = false := by
    simp [readyReplica, probeFresh, olderThan, probed, ht]
  have hcount : probed.spec.diskfulReplicas.countP (readyReplica t probed) = 0 := by
    rw [show probed.spec.diskfulReplicas = [{ node := "a", nodeID := 0 }] from rfl,
      List.countP_cons,
      hstale]
    rfl
  simp only [computePhaseAt, hcount]
  decide

end Miroir.VolumeReconciler
