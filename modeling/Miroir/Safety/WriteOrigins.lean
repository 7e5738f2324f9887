import Miroir.Safety.Barrier

/-!
# Every write origin is fenced

A leg is cut once every diskful replica has raised its barrier, so that no node can write between
the cuts. `write_origins_fenced` proves this for orderly runs in which, from the moment all diskful
barriers are recorded, only a diskful node or the node that opened the round is Primary
(`primariesFenced`). A diskless leg has no slot in the round: one that is promoted between two cuts
writes to legs that are cut and to legs that are not (`promoted_client_unfenced`).
-/

namespace Miroir

open Process

variable {Γ : Config} {s₀ : State} {N i : ℕ}

/-- The nodes with a leg of snapshot `x`'s volume: replicas, tie-breakers and clients. -/
def Config.legNodes (Γ : Config) (x : String) : List String :=
  ((Γ.spec (Γ.volumeOf x)).map fun spec =>
    spec.replicas.map Replica.node ++ spec.clients.map VolumeClient.node).getD []

/-- While every diskful barrier of a live round is recorded, a Primary has a diskful leg or opened
the round. -/
def primariesFenced (Γ : Config) (x : String) (s : State) : Bool :=
  (s.api.snap x).all fun u =>
    !(u.status.ioSuspended && (Γ.diskful x).all fun n => raised (u.status.perNode.lookup n)) ||
    (Γ.legNodes x).all fun n => !(s.kernel n (Γ.volumeOf x)).primary || n ∈ Γ.diskful x ||
      u.status.round.any fun r => n = r.opener

variable {ρ : Run (step Γ) s₀ N} {x : String} {u v : Snapshot}

theorem fenced_of_primary {t : ℕ} {r : Round} (hp : primariesFenced Γ x (ρ.state t))
    (hu : LiveAt ρ t x r u)
    (hup : ∀ n ∈ Γ.diskful x, raised (u.status.perNode.lookup n)) {n : String}
    (hn : n ∈ Γ.legNodes x) (hprim : ((ρ.state t).kernel n (Γ.volumeOf x)).primary) :
    n ∈ Γ.diskful x ∨ n = r.opener := by
  have hall : ((Γ.diskful x).all fun n => raised (u.status.perNode.lookup n)) :=
    List.all_eq_true.mpr hup
  rw [primariesFenced, hu.held, Option.all_some, hu.live, hall, hu.round] at hp
  simpa [hprim] using List.all_eq_true.mp hp n hn

variable (ρ) in
/-- If a standalone snapshot of a replicated volume becomes ready, no leg of the volume was Primary
with its barrier down at any moment between two cuts of the published round. -/
theorem write_origins_fenced (h₀ : Initial Γ s₀)
    (ho : ∀ j < N, orderly Γ (ρ.state j) (ρ.act j) = true)
    (hp : ∀ j ≤ N, primariesFenced Γ x (ρ.state j) = true) (hx : Γ.groupOf x = "")
    {spec : VolumeSpec} (hspec : Γ.spec (Γ.volumeOf x) = some spec) (hdrbd : spec.drbd = true)
    (hi : i < N) (hu : (ρ.state i).api.snap x = some u) (hr : u.status.readyToUse = false)
    (hv : (ρ.state (i + 1)).api.snap x = some v) (hr' : v.status.readyToUse = true) :
    ∃ r, u.status.round = some r ∧
      (∀ n ∈ Γ.diskful x, ∃ c ∈ ((ρ.state i).legs (Γ.leg x n)).cuts, r.openedAt < c.cutAt) ∧
      ∀ n₁ n₂, ∀ c₁ ∈ ((ρ.state i).legs (Γ.leg x n₁)).cuts,
        ∀ c₂ ∈ ((ρ.state i).legs (Γ.leg x n₂)).cuts, r.openedAt < c₁.cutAt →
        r.openedAt < c₂.cutAt → ∀ t, c₁.cutAt ≤ t → t ≤ c₂.cutAt → ∀ n ∈ Γ.legNodes x,
        ((ρ.state t).kernel n (Γ.volumeOf x)).primary = true →
        ((ρ.state t).kernel n (Γ.volumeOf x)).suspended = true := by
  have hle := Nat.le_of_lt hi
  have ho := fun j hj => orderly_iff.mp (ho j hj)
  obtain ⟨r, hlive, hk, hdone⟩ := live_of_publish ho h₀ hspec hdrbd hi hu hr hv hr'
  refine ⟨r, hlive.round, fun n hn => cut_of_done (fun j hj => (ho j hj).writes) h₀ hle hlive hn
    (hdone n hn), fun n₁ n₂ c₁ hc₁ c₂ hc₂ h₁ h₂ t ht₁ ht₂ n hn hprim => ?_⟩
  obtain ⟨hlt₁, w₁, hw₁, -, hup⟩ := round_of_cut ho h₀ hspec hdrbd hle hlive hk hc₁ h₁
  obtain ⟨hlt₂, w₂, hw₂, hover, -⟩ := round_of_cut ho h₀ hspec hdrbd hle hlive hk hc₂ h₂
  obtain ⟨w, hw⟩ := hw₂.since h₀ (by omega) (Nat.lt_of_lt_of_le h₁ ht₁) ht₂
  have hup : ∀ m ∈ Γ.diskful x, raised (w.status.perNode.lookup m) = true := fun m hm =>
    hw₁.raised_kept h₀ (by omega) ht₁ hw (hup m hm)
  have hfenced := fenced_of_primary (hp t (by omega)) hw hup hn hprim
  refine up_until_cut ho h₀ hx (by omega) hw₂ hover ht₂ hw hfenced ?_
  rcases hfenced with hm | rfl
  · exact hup n hm
  · exact hw.opener_raised h₀ (by omega)

theorem write_origins_fenced_fullRound : ∃ u r,
    (fullRoundRun.state 52).api.snap "s" = some u ∧ u.status.round = some r ∧
    (∀ n ∈ twoReplicas.diskful "s", ∃ c ∈ ((fullRoundRun.state 52).legs
      (twoReplicas.leg "s" n)).cuts, r.openedAt < c.cutAt) ∧
    ∀ n₁ n₂, ∀ c₁ ∈ ((fullRoundRun.state 52).legs (twoReplicas.leg "s" n₁)).cuts,
      ∀ c₂ ∈ ((fullRoundRun.state 52).legs (twoReplicas.leg "s" n₂)).cuts, r.openedAt < c₁.cutAt →
      r.openedAt < c₂.cutAt → ∀ t, c₁.cutAt ≤ t → t ≤ c₂.cutAt → ∀ n ∈ twoReplicas.legNodes "s",
      ((fullRoundRun.state t).kernel n "v").primary = true →
      ((fullRoundRun.state t).kernel n "v").suspended = true := by
  have hp : ∀ j < 55, primariesFenced twoReplicas "s" (fullRoundRun.state j) = true := by
    decide +kernel
  have hu : ((fullRoundRun.state 52).api.snap "s").any (fun u => u.status.readyToUse = false) =
      true := by decide +kernel
  have hv : ((fullRoundRun.state 53).api.snap "s").any (fun v => v.status.readyToUse) = true := by
    decide +kernel
  obtain ⟨u, hu, hr⟩ := (Option.any_eq_true _ _).mp hu
  obtain ⟨v, hv, hr'⟩ := (Option.any_eq_true _ _).mp hv
  obtain ⟨r, h⟩ := write_origins_fenced fullRoundRun (Initial.blank ..)
    (fun _ hi => Run.ofActions_spec fullRound_orderly hi) (fun j hj => hp j (Nat.lt_succ_of_le hj))
    rfl rfl rfl (by decide : 52 < _) hu (of_decide_eq_true hr) hv hr'
  exact ⟨u, r, hu, h⟩

/-- Two diskful replicas and a client. -/
def twoReplicasAndClient : Config := .standalone
  [{ node := "a", nodeID := 0, address := "10.0.0.1" },
    { node := "b", nodeID := 1, address := "10.0.0.2" }]
  [{ node := "d", nodeID := 2, address := "10.0.0.3" }]

/-- The client is promoted after `a` has cut its leg, and demoted after `b` has cut its own. -/
def promotedClient : List Action :=
  halfRound ++ .role "d" "v" true :: snapshotPass "b" 3 6 [.lands {} none] ++
    .role "d" "v" false :: snapshotPass "a" 4 4 [.lands {} none]

theorem promotedClient_possible :
    allSteps (step twoReplicasAndClient) (orderly twoReplicasAndClient)
      (.blank twoReplicasAndClient ["s"] [] []) promotedClient := by
  decide +kernel

def promotedClientRun : Run (step twoReplicasAndClient)
    (.blank twoReplicasAndClient ["s"] [] []) promotedClient.length :=
  .ofActions _ _ _ promotedClient promotedClient_possible

/-- The snapshot becomes ready, and between the two cuts of its round the client was Primary with
its barrier down. -/
theorem promoted_client_unfenced : ∃ u v c₁ c₂, (promotedClientRun.state 54).api.snap "s" = some u ∧
    u.status.readyToUse = false ∧ u.status.round = some ⟨"a", 9⟩ ∧
    (promotedClientRun.state 55).api.snap "s" = some v ∧ v.status.readyToUse = true ∧
    ((promotedClientRun.state 54).legs (twoReplicasAndClient.leg "s" "a")).cuts = [c₁] ∧
    ((promotedClientRun.state 54).legs (twoReplicasAndClient.leg "s" "b")).cuts = [c₂] ∧
    9 < c₁.cutAt ∧ c₁.cutAt < 40 ∧ 40 < c₂.cutAt ∧ "d" ∈ twoReplicasAndClient.legNodes "s" ∧
    (promotedClientRun.state 40).kernel "d" "v" = { suspended := false, primary := true } := by
  have hu : ((promotedClientRun.state 54).api.snap "s").any (fun u => u.status.readyToUse = false ∧
      u.status.round = some ⟨"a", 9⟩) = true := by decide +kernel
  have hv : ((promotedClientRun.state 55).api.snap "s").any (fun v => v.status.readyToUse) =
      true := by decide +kernel
  obtain ⟨u, hu, h₁⟩ := (Option.any_eq_true _ _).mp hu
  obtain ⟨v, hv, hr'⟩ := (Option.any_eq_true _ _).mp hv
  obtain ⟨hr, hround⟩ := of_decide_eq_true h₁
  exact ⟨u, v, ⟨some 28, 29, some ⟨"a", 9⟩⟩, ⟨some 41, 42, some ⟨"a", 9⟩⟩, hu, hr, hround, hv, hr',
    by decide +kernel, by decide +kernel, by decide, by decide, by decide, by decide,
    by decide +kernel⟩

end Miroir
