import Miroir.Controller.Removal
import Miroir.Safety.ValidSpecs

/-!
# Legs dropped on outdated reports

A leg is dropped on what the slots of the remaining replicas say: an agent asks that each is
`UpToDate` and connected, auto-evict that each is `UpToDate` without split-brain. Neither asks when
the slot was written; the phase of a volume does.

`dropped_on_fresh_reports`: where the remaining replicas have been probed within the threshold, and
an agent's copy still shows what they report, a leg is dropped only while every remaining diskful
leg reports `UpToDate`. Agents that stopped leave their last good report behind
(`stale_reports_drop_legs`).
-/

namespace Miroir.Removal

open Process Prog

/-- Every diskful leg but the one on `node` reports `UpToDate`, by a fresh probe. -/
def World.reported (s : World) (node : String) : Bool :=
  s.current.spec.replicas.all fun rep => rep.diskless || rep.node = node ||
    (s.current.status.perNode rep.node).diskState = some .upToDate &&
      probeFresh s.now (s.current.status.perNode rep.node)

/-- The node whose leg the step drops: an agent tears its leg down, or auto-evict's update is of the
current version. -/
def dropped (c : RemovalConf) (a : RemovalAct) : Option String :=
  (Workers.asked c a).bind fun q =>
    match q.worker, q.cmd with
    | some node, .teardown => some node
    | none, .update _ => if c.world.handed none = c.world.last then some q.job else none
    | _, _ => none

/-! ## The condition -/

/-- Every remaining diskful leg was probed within the threshold. -/
def probedInTime (s : World) (node : String) : Bool :=
  s.current.spec.replicas.all fun rep => rep.diskless || rep.node = node ||
    probeFresh s.now (s.current.status.perNode rep.node)

/-- The agent's copy has the remaining diskful legs, with the disk states they report now. -/
def copyReports (s : World) (node : String) : Bool :=
  s.current.spec.replicas.all fun rep => rep.diskless || rep.node = node ||
    ((s.copy (some node)).spec.replicas.any fun o => o.node = rep.node && !o.diskless) &&
      ((s.copy (some node)).status.perNode rep.node).diskState =
        (s.current.status.perNode rep.node).diskState

def reportsHold (c : RemovalConf) (a : RemovalAct) : Bool :=
  (Workers.asked c a).all fun q =>
    match q.worker with
    | some node => probedInTime c.world node && copyReports c.world node
    | none => probedInTime c.world q.job

/-! ## What the programs ask -/

/-- The copies in hand. -/
def copies : RemovalLog → List MiroirVolume
  | [] => []
  | ⟨_, .volume, .ok (some vol)⟩ :: _ => [vol]
  | ⟨_, .volumes, .ok vols⟩ :: _ => vols
  | _ :: log => copies log

/-- A leg is torn down, or evicted, on a copy that passes the gates. -/
def guard (dead : String) (log : RemovalLog) : Cmd → Prop
  | .teardown => ∃ vol ∈ copies log, ∀ rep ∈ vol.spec.replicas, replicaBlocks vol rep = none
  | .update _ => ∃ vol ∈ copies log, ∃ pass, AutoEvict.evictBlocked vol dead pass = none
  | _ => True

theorem copies_cons {e : Entry Nat Ans} (he : e.cmd ≠ .volume) (he' : e.cmd ≠ .volumes)
    (log : RemovalLog) : copies (e :: log) = copies log := by
  obtain ⟨t, c, a⟩ := e
  cases c
  case volume => exact absurd rfl he
  case volumes => exact absurd rfl he'
  all_goals rfl

section Programs

variable {self dead : String} {log : RemovalLog}

variable {vol : MiroirVolume}

theorem obeys_removalBlocked (h : vol ∈ copies log) :
    Obeys (guard dead) (fun log' reason => vol ∈ copies log' ∧
      (reason = none → ∀ rep ∈ vol.spec.replicas, replicaBlocks vol rep = none)) log
      (removalBlocked self vol) := by
  have hnone : vol.spec.replicas.findSome? (replicaBlocks vol) = none →
      ∀ rep ∈ vol.spec.replicas, replicaBlocks vol rep = none := List.findSome?_eq_none_iff.mp
  rw [removalBlocked]
  split
  · exact ⟨h, fun hr => by cases hr⟩
  · split
    · exact ⟨h, hnone⟩
    · refine obeys_call_bind trivial fun t r => ?_
      have hc : vol ∈ copies (⟨t, .snapshots, r⟩ :: log) := by
        rwa [copies_cons (by nofun) (by nofun)]
      split
      · exact ⟨hc, fun hr => by cases hr⟩
      · split
        · exact ⟨hc, fun hr => by cases hr⟩
        · exact ⟨hc, hnone⟩

/-- A command without a guard. -/
def Free : Cmd → Prop
  | .teardown | .update _ => False
  | _ => True

theorem obeys_of_free {α : Type} {p : RemovalM α} (h : Asks Free p) :
    Obeys (guard dead) (fun _ _ => True) log p := by
  refine (h.obeys fun l c _ hc => ?_).mono fun _ _ _ => trivial
  cases c
  case teardown | update => exact hc.elim
  all_goals trivial

theorem asks_handleTeardownError (vol : MiroirVolume) (e : Err) :
    Asks Free (handleTeardownError self vol e) := by
  refine asks_call_bind trivial fun b => ?_
  split
  · refine asks_call_bind trivial fun r => ?_
    split <;> exact asks_ret
  · exact asks_ret

theorem obeys_reconcileRemoval (h : vol ∈ copies log) :
    Obeys (guard dead) (fun _ _ => True) log (reconcileRemoval self vol) := by
  rw [reconcileRemoval]
  split
  · trivial
  · refine (obeys_removalBlocked h).bind fun log' reason ⟨hc, hreason⟩ => ?_
    split
    · refine obeys_of_free (asks_call_bind trivial fun now => ?_)
      refine asks_call_bind trivial fun r => ?_
      split <;> exact asks_ret
    · refine obeys_call_bind ⟨vol, hc, hreason rfl⟩ fun t r => ?_
      split
      · exact obeys_of_free (asks_handleTeardownError vol _)
      · refine obeys_of_free (asks_call_bind trivial fun r => ?_)
        split
        · exact asks_ret
        · exact asks_call_bind trivial fun _ => asks_ret

theorem obeys_reconcile : Obeys (guard dead) (fun _ _ => True) [] (reconcile self) := by
  refine obeys_call_bind trivial fun t r => ?_
  split
  · trivial
  · trivial
  · split
    · trivial
    · exact obeys_reconcileRemoval (List.mem_singleton_self _)

theorem obeys_evictVolume {pass : AutoEvict.EvictPass}
    (h : vol ∈ copies log) :
    Obeys (guard dead) (fun log' _ => copies log' = copies log) log
      (evictVolume dead pass vol) := by
  rw [evictVolume]
  split
  · rfl
  · rename_i hblocked
    refine obeys_call_bind trivial fun t r => ?_
    split
    · rfl
    · refine obeys_call_bind ⟨vol, h, pass, hblocked⟩ fun t r => ?_
      split <;> rfl

theorem obeys_evictAll {pass : AutoEvict.EvictPass} {blocked : Bool} {vols : List MiroirVolume}
    (h : ∀ vol ∈ vols, vol ∈ copies log) :
    Obeys (guard dead) (fun _ _ => True) log (evictAll dead pass blocked vols) := by
  induction vols generalizing blocked log with
  | nil => trivial
  | cons vol vols ih =>
    have hrest : ∀ vol ∈ vols, vol ∈ copies log := fun vol hvol => h vol (.tail _ hvol)
    rw [evictAll]
    split
    · exact ih hrest
    · refine (obeys_evictVolume (h vol (.head _))).bind fun log' r hc => ?_
      rw [← hc] at hrest
      split
      · trivial
      · exact ih hrest
      · trivial
      · exact ih hrest

theorem obeys_evict (key : String → String) (after : Nat) :
    Obeys (guard dead) (fun _ _ => True) [] (evict key after dead) := by
  refine obeys_call_bind trivial fun t r => ?_
  split
  · trivial
  split
  · trivial
  split
  · trivial
  refine obeys_call_bind trivial fun t r => ?_
  split
  · trivial
  refine obeys_call_bind trivial fun t r => ?_
  split
  · trivial
  · trivial
  refine obeys_call_bind trivial fun t r => ?_
  refine obeys_call_bind trivial fun t r => ?_
  split
  · trivial
  split
  · trivial
  refine obeys_call_bind trivial fun t r => ?_
  split
  · trivial
  · exact obeys_evictAll fun _ hvol => hvol

end Programs

/-! ## Copies and versions -/

section World

variable {key : String → String} {s s' : World} {w w' : Option String}

variable {o : Outcome} {log : RemovalLog}

/-- Versions are only added, and what another worker holds stays. -/
structure Later (w : Option String) (s s' : World) : Prop
    extends Versions.Later s.toVersions s'.toVersions where
  handed : s'.handed w = s.handed w

theorem Later.refl (w : Option String) (s : World) : Later w s s := ⟨.refl _, rfl⟩

theorem later_put (w : Option String) (s : World) (vol : MiroirVolume) : Later w s (s.put vol) :=
  ⟨Versions.later_put _ _, rfl⟩

theorem later_hand (hne : w' ≠ w) (k : Nat) : Later w' s (s.hand w k) :=
  ⟨.refl _, Function.update_of_ne hne ..⟩

theorem later_of_effect {s₁ : World} {a : Except Err Unit} (h₁ : Later w' s s₁)
    (h : perform () s s₁ o.fate = some (a, s')) : Later w' s s' := by
  rcases performed h with rfl | ⟨rfl, -⟩
  exacts [h₁, .refl _ _]

theorem later_of_event {e : Event} (h : event key s e = some s') : Later w s s' := by
  cases e with
  | tick d =>
    cases h
    exact ⟨.refl _, rfl⟩
  | edit e =>
    cases e
    case autoEvict => cases h
    all_goals
      cases h
      exact later_put w s _

/-- Every copy in hand is the version the worker was handed. -/
def HoldsCopy (w : Option String) (log : RemovalLog) (s : World) : Prop :=
  ∀ vol ∈ copies log, s.handed w ≤ s.last ∧ s.copy w = vol

theorem HoldsCopy.later (h : HoldsCopy w log s) (hl : Later w s s') :
    HoldsCopy w log s' := by
  intro vol hvol
  obtain ⟨hle, hcopy⟩ := h vol hvol
  rw [World.copy, hl.handed, hl.version _ hle]
  exact ⟨hle.trans hl.last, hcopy⟩

/-- A command that reads no copy. -/
theorem later_of_answer {c : Cmd} {a : Ans c} (hc : c ≠ .volume) (hc' : c ≠ .volumes)
    (h : answer s w c o = some (a, s')) : Later w' s s' := by
  cases c
  case volume => exact absurd rfl hc
  case volumes => exact absurd rfl hc'
  case clock =>
    cases h
    exact .refl _ _
  case teardown => exact later_of_effect (.refl _ _) h
  case patchStatus mine =>
    obtain ⟨node, -, h⟩ := Option.bind_eq_some_iff.mp h
    exact later_of_effect (later_put _ _ _) h
  case dropSlot =>
    obtain ⟨node, -, h⟩ := Option.bind_eq_some_iff.mp h
    exact later_of_effect (later_put _ _ _) h
  case removeFinalizer =>
    obtain ⟨node, -, h⟩ := Option.bind_eq_some_iff.mp h
    exact later_of_effect (later_put _ _ _) h
  case update vol =>
    simp only [answer] at h
    split at h
    · exact later_of_effect (later_put _ _ _) h
    · cases h
      exact .refl _ _
  all_goals
    cases o <;> cases h
    all_goals exact .refl _ _

theorem holdsCopy_of_read {e : Entry Nat Ans} {k : Nat} (hk : k ≤ s.last)
    (he : ∀ vol ∈ copies (e :: log), vol = s.version k) : HoldsCopy w (e :: log) (s.hand w k) := by
  intro vol hvol
  have hhand : (s.hand w k).handed w = k := Function.update_self ..
  rw [World.copy, hhand]
  exact ⟨hk, (he vol hvol).symm⟩

/-- One answer: the worker's copies are what it was handed, and the others keep theirs. -/
theorem holdsCopy_of_answer {c : Cmd} {a : Ans c} {t : Nat}
    (hw : HoldsCopy w log s) (h : answer s w c o = some (a, s')) :
    HoldsCopy w (⟨t, c, a⟩ :: log) s' ∧ ∀ w' ≠ w, Later w' s s' := by
  by_cases hc : c = .volume
  · subst hc
    cases o with
    | version k =>
      simp only [answer] at h
      split at h
      · rename_i hk
        cases h
        exact ⟨holdsCopy_of_read hk fun vol hvol => List.mem_singleton.mp hvol,
          fun w' hne => later_hand hne k⟩
      · cases h
    | absent | fail =>
      cases h
      exact ⟨hw, fun w' _ => .refl w' s⟩
    | ok | flag | snapshots | nodes => cases h
  · by_cases hc' : c = .volumes
    · subst hc'
      cases o with
      | version k =>
        simp only [answer] at h
        split at h
        · rename_i hk
          cases h
          exact ⟨holdsCopy_of_read hk fun vol hvol => List.mem_singleton.mp hvol,
            fun w' hne => later_hand hne k⟩
        · cases h
      | absent =>
        cases h
        exact ⟨fun vol hvol => (by cases hvol), fun w' _ => .refl w' s⟩
      | fail =>
        cases h
        exact ⟨hw, fun w' _ => .refl w' s⟩
      | ok | flag | snapshots | nodes => cases h
    · have hlater (w' : Option String) : Later w' s s' := later_of_answer hc hc' h
      refine ⟨?_, fun w' _ => hlater w'⟩
      rw [HoldsCopy, copies_cons hc hc']
      exact hw.later (hlater w)

end World

/-! ## Runs -/

section Runs

variable {key : String → String} {after : Nat} {s₀ : World} {N k : ℕ}
  (ρ : Run (cluster key after).step (Workers.init s₀) N)

include ρ in
/-- The copies of every pass are versions it was handed. -/
theorem copies_handed (hk : k ≤ N) {w : Option String} {t : Thread String Ans Result}
    (ht : (ρ.state k).threads.lookup w = some t) : HoldsCopy w t.log (ρ.state k).world := by
  refine ρ.invariant (P := fun _ c => ∀ w t, c.threads.lookup w = some t →
    HoldsCopy w t.log c.world) (fun w t ht => by cases ht) (fun i hi ih w t ht => ?_) hk w t ht
  have hstep := Workers.stepped_of_step (ρ.next i hi)
  rcases hstep.thread_cases ht with ⟨hold, hne⟩ | ⟨j, -, rfl⟩ |
    ⟨o, j, log, cmd, kk, r, -, hold, hans, rfl⟩
  · have hw := ih w t hold
    rcases hstep.world_cases with hsame | ⟨e, -, he⟩ |
      ⟨w', o, j, log, cmd, kk, r, ha, ht', hans⟩
    · rwa [hsame]
    · exact hw.later (later_of_event he)
    · have hother : w ≠ w' := fun heq => hne o (heq ▸ ha)
      exact hw.later ((holdsCopy_of_answer (t := 0) (ih w' _ ht') hans).2 w hother)
  · intro vol hvol
    cases hvol
  · exact (holdsCopy_of_answer (ih w _ hold) hans).1

theorem obeys_program (w : Option String) (dead : String) :
    Obeys (guard dead) (fun _ _ => True) [] ((cluster key after).program w dead) := by
  cases w with
  | none => exact obeys_evict key after
  | some node => exact obeys_reconcile

end Runs

/-- A replica that blocks no eviction reports `UpToDate`. -/
theorem upToDate_of_evictBlocked {vol : MiroirVolume} {dead : String} {pass : AutoEvict.EvictPass}
    (h : AutoEvict.evictBlocked vol dead pass = none) {rep : Replica}
    (hrep : rep ∈ vol.spec.replicas)
    (hn : rep.node ≠ dead) (hd : rep.diskless = false) :
    (vol.status.perNode rep.node).diskState = some .upToDate := by
  rw [AutoEvict.evictBlocked] at h
  split at h
  · cases h
  split at h
  · cases h
  split at h
  · cases h
  split at h
  · cases h
  rename_i hfind
  have hblocks := List.findSome?_eq_none_iff.mp hfind rep hrep
  simp only [AutoEvict.survivorBlocks, hn, hd, decide_false, Bool.or_self, Bool.false_eq_true,
    if_false] at hblocks
  by_contra hstate
  simp [hstate] at hblocks

theorem upToDate_of_replicaBlocks {vol : MiroirVolume} {rep : Replica}
    (h : replicaBlocks vol rep = none) (hd : rep.diskless = false) :
    (vol.status.perNode rep.node).diskState = some .upToDate := by
  by_contra hstate
  simp [replicaBlocks, hd, hstate] at h

/-- In every run, whatever agents stop and for however long: a step that drops a leg, with the
remaining diskful legs probed in time and an agent's copy still showing what they report, finds
every remaining diskful leg `UpToDate` by a fresh probe. -/
theorem dropped_on_fresh_reports {key : String → String} {after : Nat} {s₀ : World} {N k : ℕ}
    (ρ : Run (cluster key after).step (Workers.init s₀) N) (hk : k < N) {dead : String}
    (hdrop : dropped (ρ.state k) (ρ.act k) = some dead)
    (hok : reportsHold (ρ.state k) (ρ.act k) = true) :
    (ρ.state k).world.reported dead = true := by
  obtain ⟨q, hq, hdrop⟩ := Option.bind_eq_some_iff.mp hdrop
  obtain ⟨hguard, -⟩ := Workers.asked_obeys ρ
    (G := fun _ => guard) (Q := fun _ _ _ _ => True) obeys_program hk.le hq
  obtain ⟨o, kk, -, ht⟩ := Workers.asked_eq_some hq
  have hcopies := copies_handed ρ hk.le ht
  obtain ⟨w, j, log, cmd⟩ := q
  rw [reportsHold, hq, Option.all_some] at hok
  simp only [World.reported, List.all_eq_true, Bool.or_eq_true, Bool.and_eq_true,
    decide_eq_true_iff]
  intro rep hrep
  by_cases hskip : rep.diskless = true ∨ rep.node = dead
  · exact .inl hskip
  rw [not_or, Bool.not_eq_true] at hskip
  refine .inr ?_
  cases w with
  | some node =>
    cases cmd
    case teardown =>
      cases hdrop
      obtain ⟨vol, hvol, hblocks⟩ := hguard
      obtain ⟨-, rfl⟩ := hcopies vol hvol
      obtain ⟨hfresh, hsame⟩ := Bool.and_eq_true_iff.mp hok
      have hfresh := List.all_eq_true.mp hfresh rep hrep
      have hsame := List.all_eq_true.mp hsame rep hrep
      simp only [hskip.1, hskip.2, decide_false, Bool.false_or, Bool.and_eq_true, List.any_eq_true,
        decide_eq_true_iff, Bool.not_eq_true'] at hfresh hsame
      obtain ⟨⟨o, ho, hn, hd⟩, hstate⟩ := hsame
      rw [← hstate, ← hn]
      exact ⟨upToDate_of_replicaBlocks (hblocks o ho) hd, hn ▸ hfresh⟩
    all_goals cases hdrop
  | none =>
    cases cmd
    case update new =>
      obtain ⟨hlast, hdead⟩ := Option.ite_none_right_eq_some.mp hdrop
      cases hdead
      obtain ⟨vol, hvol, pass, hblocked⟩ := hguard
      obtain ⟨-, rfl⟩ := hcopies vol hvol
      have hcurrent : (ρ.state k).world.copy none = (ρ.state k).world.current := by
        rw [World.copy, hlast]
        rfl
      rw [hcurrent] at hblocked
      have hfresh := List.all_eq_true.mp hok rep hrep
      simp only [hskip.1, hskip.2, decide_false, Bool.false_or] at hfresh
      exact ⟨upToDate_of_evictBlocked hblocked hrep hskip.2 hskip.1, hfresh⟩
    all_goals cases hdrop

/-! ## Agents that stopped -/

/-- A volume on "a", "b" and "c", whose slots were written at second 0. -/
def onABC : MiroirVolume where
  name := "pvc"
  spec :=
    { sizeBytes := 1024
      replicas := ["a", "b", "c"].mapIdx fun i n =>
        { node := n, pool := "default", nodeID := i, address := "10.0.0." ++ n }
      drbd := true
      drbdSpec := { port := 7000 } }
  status := { perNode := fun _ =>
    { diskState := some .upToDate, connected := true, lastProbedAt := some 0 } }
  finalizers := ["a", "b", "c"]

/-- After `d` seconds the operator removes "c", and its agent tears the leg down. -/
def removeCAfter (d : Nat) : List RemovalAct :=
  [.event (.tick (d * second)), .event (.edit (.removeReplica "c")), .start (some "c") ""] ++
    Workers.replies (some "c") [.version 1, .snapshots [], .ok]

/-- The volume as the API server holds it before the run. -/
def seededWith (vol : MiroirVolume) : World := { version := fun _ => vol }

theorem removeCSoon_possible :
    allSteps (cluster id (600 * second)).step (fun _ _ => true)
      (Workers.init (seededWith onABC)) (removeCAfter 60) := by
  decide +kernel

/-- A minute after the last probe the leg on "c" is torn down with "a" and "b" reported. -/
theorem dropped_on_fresh_reports_removeCSoon :
    let ρ := Run.ofActions (cluster id (600 * second)).step (fun _ _ => true)
      (Workers.init (seededWith onABC)) (removeCAfter 60) removeCSoon_possible
    dropped (ρ.state 5) (ρ.act 5) = some "c" ∧ (ρ.state 5).world.reported "c" = true := by
  intro ρ
  have hdrop : dropped (ρ.state 5) (ρ.act 5) = some "c" := by decide +kernel
  exact ⟨hdrop, dropped_on_fresh_reports ρ (by decide) hdrop (by decide +kernel)⟩

theorem removeCLate_possible :
    allSteps (cluster id (600 * second)).step (fun _ _ => true)
      (Workers.init (seededWith onABC)) (removeCAfter 3600) := by
  decide +kernel

/-- "a" has opted out of auto-evict; "a" and "b" have been silent since second 0. -/
def aAndBSilent : List MiroirNode :=
  [{ storageNode "a" 0 with entry.autoEvict := some false }, storageNode "b" 0,
    storageNode "d" 3600]

/-- The replicas of `onAB`, whose slots were written at second 0. -/
def reportedAB : MiroirVolume :=
  { onAB 0 1 with
    status.perNode := fun _ => { diskState := some .upToDate, lastProbedAt := some 0 } }

/-- An hour later auto-evict replaces "b" by "d". -/
def evictBLate : List RemovalAct :=
  [.event (.tick (3600 * second)), .start none "b"] ++
    Workers.replies none [.nodes aAndBSilent, .ok, .flag false, .ok, .snapshots [], .version 0, .ok,
      .ok]

theorem evictBLate_possible :
    allSteps (cluster id (600 * second)).step (fun _ _ => true)
      (Workers.init (seededWith reportedAB)) evictBLate := by
  decide +kernel

def removeCLateRun : Run (cluster id (600 * second)).step (Workers.init (seededWith onABC)) 6 :=
  Run.ofActions _ _ _ (removeCAfter 3600) removeCLate_possible

def evictBLateRun :
    Run (cluster id (600 * second)).step (Workers.init (seededWith reportedAB)) 10 :=
  Run.ofActions _ _ _ evictBLate evictBLate_possible

/-- All agents stopped at second 0. An hour later the agent of "c" starts, and tears its removed leg
down on what "a" and "b" reported then; and auto-evict drops the diskful leg on "b" on what "a"
reported then. -/
theorem stale_reports_drop_legs :
    (dropped (removeCLateRun.state 5) (removeCLateRun.act 5) = some "c" ∧
      (removeCLateRun.state 5).world.reported "c" = false) ∧
    dropped (evictBLateRun.state 9) (evictBLateRun.act 9) = some "b" ∧
      (evictBLateRun.state 9).world.reported "b" = false ∧
      (evictBLateRun.state 10).world.current.spec.replicas.map Replica.node = ["a", "d"] := by
  decide +kernel

end Miroir.Removal
