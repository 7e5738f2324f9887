import Miroir.Csi.CreateSpec

/-!
# What an RPC knows under `allocMu`

Volumes are created under the lock only, so what an RPC has listed there covers all that exist until
it asks for its own create (`sublist_of_listed`): nothing is added, and nothing of interest changes.
The exception is a create that its RPC has given up and the API server takes later.
-/

namespace Miroir.Prov

open Process Workers

variable {cfg : Config} {s₀ : Server} {N i : ℕ} {ρ : Run (rpcs cfg).step (init s₀) N}
  {w : Nat} {rpc : Rpc} {e : Entry Nat Ans} {l : RpcLog} {L : List MiroirVolume}

/-- No create is taken after its RPC has given it up. -/
def NoLateCreate (ρ : Run (rpcs cfg).step (init s₀) N) : Prop :=
  ∀ i < N, ∀ k, ρ.act i ≠ .event (.land k)

def notLate (_ : Rpcs) : Act → Bool
  | .event (.land _) => false
  | _ => true

theorem noLateCreate_of_allSteps {as : List Act}
    (h : allSteps (rpcs cfg).step notLate (init s₀) as) :
    NoLateCreate (Run.ofActions _ _ _ _ h) := by
  intro i hi k hact
  have := Run.ofActions_spec h hi
  rw [hact] at this
  cases this

theorem givesHeld : Locks.GivesHeld (allocMu cfg) fun _ _ => Guard cfg := by
  intro w rpc l c r k hg hu
  cases c with
  | unlock => exact hg
  | _ => cases hu

/-- A command is asked under its guard. -/
theorem guard_of_told (htime : e.time < N) (h : Workers.Told ρ w rpc e l) :
    Guard cfg l e.cmd ∧ Workers.LogTrue ρ w rpc l e.time :=
  asked_obeys ρ (G := fun _ _ => Guard cfg) (fun _ => obeys_rpc) (Nat.le_of_lt htime) h.asked

theorem effect_of_told (h : Workers.Told ρ w rpc e l) :
    Effect (ρ.state e.time).world (ρ.state (e.time + 1)).world w e.cmd := by
  obtain ⟨o, k, -, -, hans⟩ := h
  exact effect_of_answer hans

/-- The list an RPC has read: it has just read it, or this command is none that makes it old. -/
theorem listed_cons (cfg : Config) (h : listed (e :: l) = some L) :
    (∃ t : Nat, e = ⟨t, .listVolumes, .ok L⟩) ∨
      listed l = some L ∧ (∀ r, (allocMu cfg).use e.cmd r = none) ∧
        ∀ name spec finalizers, e.cmd ≠ .createVolume name spec finalizers := by
  obtain ⟨t, c, r⟩ := e
  cases c with
  | listVolumes =>
    rcases r with (err | vols)
    · cases h
    · cases h
      exact .inl ⟨t, rfl⟩
  | lock | unlock | createVolume => cases h
  | _ => exact .inr ⟨h, fun _ => rfl, fun _ _ _ hc => nomatch hc⟩

section Known

variable {κ : Type} (key : MiroirVolume → κ) (hkey : ∀ v v', ident v = ident v' → key v = key v')
  (halign : ∀ w rpc e l, e.time < N → Workers.Told ρ w rpc e l → ∀ id size,
    e.cmd = .alignSize id size →
    (ρ.state (e.time + 1)).world.vols.map key = (ρ.state e.time).world.vols.map key)

include hkey

theorem map_key_of_ident {vols vols' : List MiroirVolume} (h : vols'.map ident = vols.map ident) :
    vols'.map key = vols.map key := by
  rw [← List.forall₂_eq_eq_eq, List.forall₂_map_left_iff, List.forall₂_map_right_iff] at h ⊢
  exact h.imp hkey

include halign

/-- A command other than a create keeps what is of interest. -/
theorem map_key_of_told (htime : e.time < N) (h : Workers.Told ρ w rpc e l)
    (hc : ∀ name spec finalizers, e.cmd ≠ .createVolume name spec finalizers) :
    (ρ.state (e.time + 1)).world.vols.map key = (ρ.state e.time).world.vols.map key := by
  have hvols := (effect_of_told h).vols
  generalize hcmd : e.cmd = c at hvols
  cases hvols with
  | same h => exact map_key_of_ident key hkey h
  | created => exact absurd hcmd (hc _ _ _)
  | aligned => exact halign w rpc e l htime h _ _ hcmd

/-- What was listed under the lock covers all volumes, as long as the lock is held and no create has
been asked. -/
theorem sublist_of_listed (hlate : NoLateCreate ρ) (hi : i ≤ N)
    {t : Thread Rpc Ans Response} (ht : (ρ.state i).threads.lookup w = some t)
    (hheld : (allocMu cfg).holds () t.log) (hlisted : listed t.log = some L) :
    ((ρ.state i).world.vols.map key).Sublist (L.map key) := by
  refine Locks.known ρ (Q := fun _ _ _ _ => True) (fun _ => obeys_rpc) givesHeld (k := ())
    (fun _ l => (allocMu cfg).holds () l ∧ listed l = some L)
    (fun s => (s.vols.map key).Sublist (L.map key)) (fun _ _ h => h.1) ?_ ?_ ?_ hi ht
    ⟨hheld, hlisted⟩
  · intro i hi e ha he hF
    rcases (event_vols he).2.2 with ⟨k, rfl⟩ | hsub
    · exact absurd ha (hlate i hi k)
    · exact (hsub.map key).trans hF
  · intro w rpc e l htime htold hfree hF
    rw [map_key_of_told key hkey halign htime htold fun name spec finalizers hc => ?_]
    · exact hF
    · -- A create is asked under the lock.
      have hg := (guard_of_told htime htold).1
      rw [hc] at hg
      exact Bool.noConfusion (hfree.symm.trans hg.held)
  · intro w rpc e l htime htold hown hkn
    rcases listed_cons cfg hkn.2 with ⟨t, rfl⟩ | ⟨hl, huse, hc⟩
    · obtain ⟨o, k, -, -, hans⟩ := htold
      obtain ⟨hs', hvols⟩ := vols_of_listVolumes hans
      rw [hs', hvols]
    · rw [map_key_of_told key hkey halign htime htold hc]
      exact hown ⟨(Locks.holds_cons_of_none (huse _)).symm.trans hkn.1, hl⟩

end Known

end Miroir.Prov
