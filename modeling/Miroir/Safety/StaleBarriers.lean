import Miroir.Safety.Siblings

/-!
# The stale-barrier sweep

The sweep lists the snapshots, then the groups, then the suspended resources, and resumes what no
round younger than the deadline accounts for. `sweep_spares_recorded` says which rounds it spares:
those that were recorded when it read the list they are in. A round that is recorded between the
lists and the resume loses its barrier (`sweep_lifts_new_round`). The other half is that a sweep
nothing interferes with leaves no barrier up that no such round accounts for.
-/

namespace Miroir

open Process

variable {Γ : Config} {s₀ : State} {N i : ℕ} (ρ : Run (step Γ) s₀ N)

section Lists

variable {ρ} {w : Worker} {job : String} {log : PassLog} {snaps : List Snapshot}
  {groups : List SnapshotGroup}

/-- The lists a sweep decides on are what the API server held when it read them. -/
theorem Lists.read (h : Lists log snaps groups) (hl : LogTrue ρ w job log i) :
    ∃ t₁ t₂, (⟨t₁, .listSnapshots, .ok snaps⟩ : Entry Nat Ans) ∈ log ∧
      (⟨t₂, .listGroups, .ok groups⟩ : Entry Nat Ans) ∈ log ∧ t₁ < t₂ ∧ t₂ < i ∧
      snaps = (ρ.state t₁).api.listSnapshots ∧ groups = (ρ.state t₂).api.listGroups := by
  obtain ⟨new, mid, old, t₁, t₂, rfl⟩ := h
  have h₂ := hl.of_append
  have h₁ := h₂.2.2.of_append
  have he₁ : (⟨t₁, .listSnapshots, .ok snaps⟩ : Entry Nat Ans) ∈ new ++
      ⟨t₂, .listGroups, .ok groups⟩ :: (mid ++ ⟨t₁, .listSnapshots, .ok snaps⟩ :: old) := by simp
  have he₂ : (⟨t₂, .listGroups, .ok groups⟩ : Entry Nat Ans) ∈ new ++
      ⟨t₂, .listGroups, .ok groups⟩ :: (mid ++ ⟨t₁, .listSnapshots, .ok snaps⟩ :: old) := by simp
  exact ⟨t₁, t₂, he₁, he₂, h₁.1, h₂.1, (hl.listSnapshots he₁).2, (hl.listGroups he₂).2⟩

end Lists

variable {v : String} {w : Worker}

/-- A sweep that has returned, with no concurrent round activity and no failed read or resume. -/
structure CleanSweep (i : ℕ) (w : Worker) (p : Pass) : Prop where
  task : w.task = .sweep
  pass : (ρ.state i).pass w = some p
  returned : ∃ res, p.prog = .ret res
  read : ∀ e ∈ p.log, failedRead e = false
  quiet : ∃ t₀, (∀ e ∈ p.log, t₀ ≤ e.time) ∧ ∀ j, t₀ ≤ j → j < i →
    (ρ.state (j + 1)).api = (ρ.state j).api ∧
    ∀ q, (ρ.act j).command (ρ.state j) = some q → q.worker.node = w.node → ∀ v, q.cmd ≠ .suspendIo v
  resumed : ∀ t v r, (⟨t, .resumeIo v, r⟩ : Entry Nat Ans) ∈ p.log → r = .ok ()

variable {ρ}

theorem Answered.resumeIo_flag {s s₁ : State} {job : String} {log : PassLog}
    {o : Outcome} {r : Ans (.resumeIo v)}
    (h : Answered Γ s w job log (.resumeIo v) o r s₁) (hr : r = .ok ()) :
    (s₁.kernel w.node v).suspended = false := by
  cases h with
  | failed h => subst hr; cases h
  | resumeIo => simp [State.setSuspended]

theorem Answered.userSuspended_eq {s s₁ : State} {job : String} {log : PassLog}
    {o : Outcome} {r : Ans .userSuspended} {sus : List String}
    (h : Answered Γ s w job log .userSuspended o r s₁) (hr : r = .ok sus) :
    sus = (Γ.resources w.node).filter fun v => (s.kernel w.node v).suspended := by
  cases h with
  | failed h => subst hr; cases h
  | userSuspended => exact (Except.ok.inj hr).symm

/-- A barrier that is down stays down while nobody raises it. -/
theorem flag_stays_down {j : ℕ} (hij : i ≤ j) (hj : j ≤ N) {n : String}
    (hq : ∀ k, i ≤ k → k < j → ∀ q, (ρ.act k).command (ρ.state k) = some q → q.worker.node = n →
      q.cmd ≠ .suspendIo v) (hd : ((ρ.state i).kernel n v).suspended = false) :
    ((ρ.state j).kernel n v).suspended = false := by
  refine ρ.related (r := fun s t => (s.kernel n v).suspended = false →
    (t.kernel n v).suspended = false) (fun _ h => h) (fun _ _ _ h h' hs => h' (h hs)) hij hj ?_ hd
  intro k hk hkj hdown
  rcases (stepped ρ (by omega : k < N)).flag_cases n v with h | ⟨q, hc, hn, ⟨h, -⟩ | ⟨-, h⟩⟩
  · rw [h, hdown]
  · exact absurd h (hq k hk hkj q hc hn)
  · exact h

theorem CleanSweep.api_eq {p : Pass} (h : CleanSweep ρ i w p) (hi : i ≤ N)
    {e : Entry Nat Ans} (he : e ∈ p.log) (hlt : e.time ≤ i) :
    (ρ.state e.time).api = (ρ.state i).api := by
  obtain ⟨t₀, ht₀, hq⟩ := h.quiet
  exact ρ.related (r := fun s t => s.api = t.api) (fun _ => rfl) (fun _ _ _ => Eq.trans) hlt hi
    fun k hk hki => ((hq k (Nat.le_trans (ht₀ e he) hk) hki).1).symm

theorem CleanSweep.accounts (h₀ : Initial Γ s₀) (hi : i ≤ N) {p : Pass}
    (h : CleanSweep ρ i w p) (hv : v ∈ Γ.resources w.node)
    (hs : ((ρ.state i).kernel w.node v).suspended) :
    ∃ T τ t, (⟨τ, .now, t⟩ : Entry Nat Ans) ∈ p.log ∧ t = (ρ.state τ).clock ∧
      Covers (ρ.state i).api.listSnapshots (ρ.state i).api.listGroups v (some T) ∧
      withinDeadline t (some T) := by
  obtain ⟨hob, hl⟩ := passOk ρ h₀ hi h.pass
  obtain ⟨res, hres⟩ := h.returned
  obtain ⟨t₀, ht₀, hquiet⟩ := h.quiet
  have hstay : ∀ {j}, t₀ ≤ j → j ≤ i → ((ρ.state j).kernel w.node v).suspended := by
    intro j hj hji
    by_contra hdown
    have := flag_stays_down hji hi (fun k hk hki q hc hn => (hquiet k (by omega) hki).2 q hc hn v)
      (by simpa using hdown)
    simp [this] at hs
  have hacc : Accounted p.log := by
    rw [hres] at hob
    obtain ⟨n, t⟩ := w
    obtain rfl : t = .sweep := h.task
    exact hob
  obtain ⟨e, he, hfailed⟩ | ⟨tk, sus, snaps, groups, hk, hlists, hall⟩ := hacc
  · exact absurd hfailed (by simp [h.read e he])
  have hmem : v ∈ sus := by
    obtain ⟨l', hlt, o, k, s₁, -, -, ha, -⟩ := hl.told hk
    rw [ha.userSuspended_eq rfl]
    exact List.mem_filter.mpr ⟨hv, hstay (ht₀ _ hk) (Nat.le_of_lt hlt)⟩
  rcases hall v hmem with ⟨stamp, hcov, τ, t, he, hwithin⟩ | ⟨t, r, he⟩
  · obtain ⟨t₁, t₂, he₁, he₂, h₁₂, h₂, rfl, rfl⟩ := hlists.read hl
    have hapi₁ := h.api_eq hi he₁ (by simp only; omega)
    have hapi₂ := h.api_eq hi he₂ (by simp only; omega)
    simp only at hapi₁ hapi₂
    rw [hapi₁, hapi₂] at hcov
    obtain ⟨hτ, ht⟩ := hl.now he
    cases stamp with
    | none => cases hwithin
    | some T => exact ⟨T, τ, t, he, ht, hcov, hwithin⟩
  · obtain ⟨l', hlt, o, k, s₁, -, -, ha, hs₁⟩ := hl.told he
    have hdown : ((ρ.state (t + 1)).kernel w.node v).suspended = false := by
      rw [hs₁]
      exact ha.resumeIo_flag (h.resumed t v r he)
    have hup := hstay (Nat.le_succ_of_le (ht₀ _ he)) hlt
    exact absurd (hup.symm.trans hdown) (by simp)

end Miroir
