import Miroir.Volume.StuckResync

/-!
# Confirming a stuck resync

A connection is cycled only once its signature has stood for a poll interval, since one status can
catch a live handshake. A volume has one clock for its three signatures, and the clock knows the
peers but not what each of them is there for: it goes on when a peer leaves one signature for
another (`changed_signature_cycled`). As long as that does not happen, every signature that is acted
on has been seen by all passes of the interval (`cycles_confirmed`). A pass cycles all candidates it
has, so two cycles are an interval apart where it has one.
-/

namespace Miroir.VolumeReconciler

/-- Why a connection is a candidate for a cycle. -/
inductive Signature where
  | stranded | stale | stalled
  deriving DecidableEq

/-- One full pass that gets to the recovery: when, and with what it reads. -/
structure RecoveryPass where
  now : Nat
  vol : Volume
  st : KernelStatus
  localDiskless : Bool := false
  /-- The clock was lost before: the agent was restarted. -/
  restarted : Bool := false

section Passes

variable (self : String)

/-- The peers a pass sees with a signature it may act on. -/
def observed (p : RecoveryPass) : Signature → Finset Nat
  | .stranded => p.st.stuckResyncPeers
  | .stale => if staleBitmapActionable self p.vol p.st then p.st.staleBitmapPeers else ∅
  | .stalled =>
    if unsettledResyncActionable self p.now p.vol p.st then p.st.unsettledResyncPeers else ∅

/-- The candidates; a diskless leg has none. -/
def candidates (p : RecoveryPass) : Finset Nat :=
  if p.localDiskless then ∅ else stuckPeers self p.now p.vol p.st

variable (p : ℕ → RecoveryPass)

/-- The clock after the first `k` passes. -/
def clock : ℕ → Option StuckMark
  | 0 => none
  | k + 1 => (recoverStuckResync self (p k).now (if (p k).restarted then none else clock k)
      (p k).vol (p k).st (p k).localDiskless).mark

/-- The connections pass `k` cycles. -/
def cycledAt (k : ℕ) : Finset Nat :=
  (recoverStuckResync self (p k).now (if (p k).restarted then none else clock self p k)
    (p k).vol (p k).st (p k).localDiskless).cycled

end Passes

variable {self : String} {p : ℕ → RecoveryPass} {k : ℕ}

/-- What a pass does: no clock, a new one, the one that is there, or a cycle that starts it anew. -/
theorem recovery_cases (self : String) (p : ℕ → RecoveryPass) (k : ℕ) :
    cycledAt self p k = ∅ ∧ (clock self p (k + 1) = none ∨
        clock self p (k + 1) = some ⟨(p k).now, candidates self (p k)⟩) ∨
      ∃ m, (p k).restarted = false ∧ clock self p k = some m ∧ m.peers = candidates self (p k) ∧
        (cycledAt self p k = ∅ ∧ clock self p (k + 1) = some m ∨
          cycledAt self p k = candidates self (p k) ∧ m.since + drbdPollInterval ≤ (p k).now ∧
            clock self p (k + 1) = some ⟨(p k).now, candidates self (p k)⟩) := by
  rw [cycledAt, clock, recoverStuckResync]
  split
  · exact .inl ⟨rfl, .inl rfl⟩
  · rename_i hsome
    have hcand : candidates self (p k) = stuckPeers self (p k).now (p k).vol (p k).st := by
      rw [candidates, if_neg fun h => hsome (by simp [h])]
    rw [hcand]
    cases hmark : (if (p k).restarted then none else clock self p k).filter fun m =>
        m.peers = stuckPeers self (p k).now (p k).vol (p k).st with
    | none => exact .inl ⟨rfl, .inr rfl⟩
    | some m =>
      obtain ⟨hm, hpeers⟩ := Option.filter_eq_some_iff.mp hmark
      split at hm
      · cases hm
      · rename_i hrestarted
        refine .inr ⟨m, by simpa using hrestarted, hm, of_decide_eq_true hpeers, ?_⟩
        dsimp only
        split
        · exact .inl ⟨rfl, hm⟩
        · rename_i hdue
          exact .inr ⟨rfl, not_lt.mp hdue, rfl⟩

/-- A clock was started by a pass, has been kept by all passes since, and none of them has cycled.
-/
theorem clock_spec {m : StuckMark} (h : clock self p k = some m) :
    ∃ i < k, m.since = (p i).now ∧ (∀ n, i ≤ n → n < k → candidates self (p n) = m.peers) ∧
      ∀ n, i < n → n < k → cycledAt self p n = ∅ := by
  induction k generalizing m with
  | zero => cases h
  | succ k ih =>
    have hnew (heq : clock self p (k + 1) = some ⟨(p k).now, candidates self (p k)⟩) :
        ∃ i < k + 1, m.since = (p i).now ∧
          (∀ n, i ≤ n → n < k + 1 → candidates self (p n) = m.peers) ∧
          ∀ n, i < n → n < k + 1 → cycledAt self p n = ∅ := by
      cases h.symm.trans heq
      refine ⟨k, Nat.lt_succ_self k, rfl, fun n hi hn => ?_, fun n hi hn => by omega⟩
      rw [show n = k by omega]
    rcases recovery_cases self p k with ⟨-, hnone | hstart⟩ |
      ⟨m', -, hm', hpeers, ⟨hcycled, hkept⟩ | ⟨-, -, hstart⟩⟩
    · cases h.symm.trans hnone
    · exact hnew hstart
    · cases h.symm.trans hkept
      obtain ⟨i, hi, hsince, hsame, hquiet⟩ := ih hm'
      refine ⟨i, Nat.lt_succ_of_lt hi, hsince, fun n hin hn => ?_, fun n hin hn => ?_⟩
      · rcases Nat.lt_succ_iff_lt_or_eq.mp hn with hn | rfl
        exacts [hsame n hin hn, hpeers.symm]
      · rcases Nat.lt_succ_iff_lt_or_eq.mp hn with hn | rfl
        exacts [hquiet n hin hn, hcycled]
    · exact hnew hstart

/-- A cycle is due to a clock that has run for a poll interval. -/
theorem cycled_spec (h : (cycledAt self p k).Nonempty) :
    cycledAt self p k = candidates self (p k) ∧
      ∃ i < k, (p i).now + drbdPollInterval ≤ (p k).now ∧
        (∀ n, i ≤ n → n ≤ k → candidates self (p n) = candidates self (p k)) ∧
        ∀ n, i < n → n < k → cycledAt self p n = ∅ := by
  rcases recovery_cases self p k with ⟨hnone, -⟩ |
    ⟨m, -, hm, hpeers, ⟨hnone, -⟩ | ⟨hall, hdue, -⟩⟩
  · exact absurd hnone h.ne_empty
  · exact absurd hnone h.ne_empty
  · obtain ⟨i, hi, hsince, hsame, hquiet⟩ := clock_spec hm
    refine ⟨hall, i, hi, hsince ▸ hdue, fun n hin hn => ?_, hquiet⟩
    rcases Nat.lt_or_eq_of_le hn with hn | rfl
    exacts [(hsame n hin hn).trans hpeers, rfl]

/-- In every sequence of full passes, with whatever they read, in which no candidate changes its
signature while the candidates stay the same: a connection is cycled for a signature only if a pass
at least a poll interval earlier saw it with that signature, and all passes since; and two cycles
are a poll interval apart, where the pass of the later one has no other candidate. -/
theorem cycles_confirmed (self : String) (p : ℕ → RecoveryPass)
    (hclock : ∀ k, (p k).now ≤ (p (k + 1)).now)
    (hsame : ∀ k, candidates self (p k) = candidates self (p (k + 1)) →
      ∀ κ, observed self (p k) κ = observed self (p (k + 1)) κ) :
    (∀ k x κ, x ∈ cycledAt self p k → x ∈ observed self (p k) κ →
      ∃ i < k, (p i).now + drbdPollInterval ≤ (p k).now ∧
        ∀ n, i ≤ n → n ≤ k → x ∈ observed self (p n) κ) ∧
    ∀ j k x y, j ≤ k → x ∈ cycledAt self p j → y ∈ cycledAt self p k → (j, x) ≠ (k, y) →
      (candidates self (p k)).card ≤ 1 → (p j).now + drbdPollInterval ≤ (p k).now := by
  refine ⟨fun k x κ hx hκ => ?_, fun j k x y hjk hx hy hne hone => ?_⟩
  · obtain ⟨-, i, hi, hdue, hcand, -⟩ := cycled_spec ⟨x, hx⟩
    refine ⟨i, hi, hdue, fun n hin hn => ?_⟩
    -- Back from `k`, pass by pass.
    induction hn using Nat.decreasingInduction with
    | self => exact hκ
    | of_succ n hn ih =>
      rw [hsame n ((hcand n hin hn.le).trans (hcand (n + 1) (by omega) hn).symm) κ]
      exact ih (by omega)
  · obtain ⟨hall, i, hi, hdue, -, hquiet⟩ := cycled_spec ⟨y, hy⟩
    have hji : j ≤ i := by
      by_contra hlt
      rcases Nat.lt_or_eq_of_le hjk with hjk | rfl
      · exact Finset.ne_empty_of_mem hx (hquiet j (by omega) hjk)
      · rw [hall] at hx hy
        exact hne (by rw [Finset.card_le_one.mp hone x hx y hy])
    exact (Nat.add_le_add_right (monotone_nat_of_le_succ hclock hji) _).trans hdue

/-- A pass at the `k`-th tick of the poll interval. -/
def tick (k : ℕ) (st : KernelStatus) : RecoveryPass where
  now := k * drbdPollInterval
  vol := { name := "v", spec := { sizeBytes := 1, replicas := [], drbd := true }, status := {} }
  st := st

/-- A bitmap that stays stranded. -/
theorem cycles_confirmed_stranded :
    let p k := tick k { stuckResyncPeers := {1} }
    ∃ i < 1, (p i).now + drbdPollInterval ≤ (p 1).now ∧
      ∀ n, i ≤ n → n ≤ 1 → 1 ∈ observed "a" (p n) .stranded := by
  intro p
  have hclock (k : ℕ) : (p k).now ≤ (p (k + 1)).now := Nat.mul_le_mul_right _ (Nat.le_succ k)
  have hseen (k : ℕ) (κ : Signature) :
      observed "a" (p k) κ = if κ = .stranded then {1} else ∅ := by
    cases κ <;> rfl
  have hsame (k : ℕ) (κ : Signature) : observed "a" (p k) κ = observed "a" (p (k + 1)) κ :=
    (hseen k κ).trans (hseen (k + 1) κ).symm
  exact (cycles_confirmed "a" p hclock fun k _ => hsame k).1 1 1 .stranded (by decide) (by decide)

/-- A stranded bitmap at first, and a stale one a poll interval later: the connection is cycled for
a signature that only this pass has seen. With two peers stranded, one pass makes two cycles. -/
theorem changed_signature_cycled :
    let p k := tick k (if k = 0 then { stuckResyncPeers := {1} }
      else { diskState := some .upToDate, primary := true, staleBitmapPeers := {1} })
    let q k := tick k { stuckResyncPeers := {1, 2} }
    (1 ∈ cycledAt "a" p 1 ∧ 1 ∈ observed "a" (p 1) .stale ∧ observed "a" (p 0) .stale = ∅) ∧
      cycledAt "a" q 1 = {1, 2} := by
  decide

end Miroir.VolumeReconciler
