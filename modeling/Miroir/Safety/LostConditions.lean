import Miroir.Controller.Conditions

/-!
# Conditions of other writers

A writer leaves the conditions it does not manage as it has read them, and its patch replaces the
whole list. With the optimistic lock what it read is what is there; the CSI controller and the phase
reconciler patch without it.

`other_conditions_kept`: a write leaves every condition its writer does not manage as it is on the
API server, as far as those two find the conditions of other types as they have read them. A
condition set since the read is dropped (`restage_condition_lost`).
-/

namespace Miroir.Cond

open Process Prog VolumeReconciler

/-! ## What the writers ask -/

variable {type : String}

/-- The conditions but those of one type are the same. -/
def SameOthers (type : String) (conds conds' : List Condition) : Prop :=
  ∀ other ≠ type, findStatusCondition other conds = findStatusCondition other conds'

theorem SameOthers.refl (type : String) (conds : List Condition) : SameOthers type conds conds :=
  fun _ _ => rfl

theorem sameOthers_withCondition {o : Object} {now : Nat} {cond : Condition}
    (h : cond.type = type) : SameOthers type (o.withCondition now cond).conditions o.conditions :=
  fun _ hne => find_setStatusCondition_of_ne (h ▸ hne) o.conditions

/-- The object as some read of the log returned it. -/
def wasRead (log : CondLog) (vol : Versioned) : Prop :=
  ∃ t, (⟨t, .get, .ok (some vol)⟩ : Entry Nat Ans) ∈ log

/-- A patch is computed from a read, changes only the conditions its writer manages, and is locked
if a watcher sends it. -/
def guard (job : Job) (log : CondLog) : Cmd → Prop
  | .patch base modified locked => wasRead log base ∧
      SameOthers job.manages modified.conditions base.object.conditions ∧
      (locked = true ∨ job.manages = nodeUnreachable)
  | _ => True

section Programs

variable {job : Job} {log : CondLog} {vol : Versioned}

theorem wasRead_cons (h : wasRead log vol) (e : Entry Nat Ans) : wasRead (e :: log) vol := by
  obtain ⟨t, ht⟩ := h
  exact ⟨t, .tail _ ht⟩

theorem wasRead_head (t : Nat) (log : CondLog) (vol : Versioned) :
    wasRead (⟨t, .get, .ok (some vol)⟩ :: log) vol := ⟨t, .head _⟩

theorem obeys_confirmUnreachable (h : wasRead log vol) (o : Object) (nodes : List String) :
    Obeys (guard job) (fun log' _ => wasRead log' vol) log (confirmUnreachable o nodes) := by
  induction nodes generalizing log with
  | nil => exact h
  | cons node nodes ih =>
    rw [confirmUnreachable]
    split
    · exact obeys_call_bind trivial fun t r =>
        (ih (wasRead_cons h _)).bind fun _ _ h => h
    · exact (ih h).bind fun _ _ h => h

theorem obeys_checkNodeUnreachable (hj : job.manages = nodeUnreachable) (h : wasRead log vol) :
    Obeys (guard job) (fun _ _ => True) log (checkNodeUnreachable vol) := by
  refine obeys_call_bind trivial fun t now => ?_
  refine (obeys_confirmUnreachable (wasRead_cons h _) _ _).bind fun log' nodes h => ?_
  split
  · trivial
  · refine obeys_call_bind ⟨h, ?_, .inr hj⟩ fun _ _ => trivial
    rw [hj]
    exact sameOthers_withCondition rfl

theorem obeys_clearNodeUnreachableCondition (hj : job.manages = nodeUnreachable)
    (h : wasRead log vol) :
    Obeys (guard job) (fun _ _ => True) log (clearNodeUnreachableCondition vol) := by
  unfold clearNodeUnreachableCondition
  split
  · refine obeys_call_bind trivial fun t now => ?_
    refine obeys_call_bind ⟨wasRead_cons h _, ?_, .inr hj⟩ fun _ _ => trivial
    rw [hj]
    exact sameOthers_withCondition rfl
  · trivial

theorem obeys_diagnose (hj : job.manages = nodeUnreachable) {polled : Option Versioned}
    (h : ∀ vol, polled = some vol → wasRead log vol) :
    Obeys (guard job) (fun _ _ => True) log (diagnose polled) := by
  cases polled with
  | some vol =>
    refine (obeys_checkNodeUnreachable hj (h vol rfl)).bind fun _ nodes _ => ?_
    cases nodes <;> trivial
  | none =>
    refine obeys_call_bind trivial fun t r => ?_
    rcases r with e | _ | vol
    · trivial
    · trivial
    · refine (obeys_checkNodeUnreachable hj (wasRead_head t log vol)).bind fun _ nodes _ => ?_
      cases nodes <;> trivial

theorem obeys_usable (h : wasRead log vol) :
    Obeys (guard job) (fun log' _ => wasRead log' vol) log (usable vol) := by
  unfold usable
  split
  · exact h
  · exact obeys_call_bind trivial fun t now => wasRead_cons h _
  · exact h
  · exact h

theorem obeys_waitReady (hj : job.manages = nodeUnreachable) (n : Nat) {polled : Option Versioned}
    (h : ∀ vol, polled = some vol → wasRead log vol) :
    Obeys (guard job) (fun _ _ => True) log (waitReady n polled) := by
  induction n generalizing log polled with
  | zero => exact obeys_diagnose hj h
  | succ n ih =>
    refine obeys_call_bind trivial fun t r => ?_
    have hread : ∀ vol, polled = some vol → wasRead (⟨t, .get, r⟩ :: log) vol :=
      fun vol hvol => wasRead_cons (h vol hvol) _
    rcases r with e | _ | vol
    · exact obeys_diagnose hj hread
    · refine obeys_call_bind trivial fun t' stop => ?_
      have hread' := fun vol hvol => wasRead_cons (hread vol hvol) ⟨t', .expired, stop⟩
      split
      · exact obeys_diagnose hj hread'
      · exact ih hread'
    · refine (obeys_usable (wasRead_head t log vol)).bind fun log' verdict hvol => ?_
      split
      · exact (obeys_clearNodeUnreachableCondition hj hvol).bind fun _ _ _ => trivial
      · trivial
      · refine obeys_call_bind trivial fun t' stop => ?_
        have hread' : ∀ vol', some vol = some vol' →
            wasRead (⟨t', .expired, stop⟩ :: log') vol' := by
          rintro vol' ⟨⟩
          exact wasRead_cons hvol _
        split
        · exact obeys_diagnose hj hread'
        · exact ih hread'

theorem sameOthers_phased (o : Object) (now : Nat) :
    SameOthers nodeUnreachable (phased o now).conditions o.conditions := by
  unfold phased
  dsimp only
  split
  · exact fun _ hne => find_setStatusCondition_of_ne hne o.conditions
  · exact .refl _ _

theorem obeys_reconcilePhase :
    Obeys (guard .phase) (fun _ _ => True) [] reconcilePhase := by
  refine obeys_call_bind trivial fun t r => ?_
  rcases r with e | _ | vol
  · trivial
  · trivial
  · dsimp only
    split
    · trivial
    · refine obeys_call_bind trivial fun t' now => ?_
      split
      · trivial
      · refine obeys_call_bind
          ⟨wasRead_cons (wasRead_head ..) _, sameOthers_phased _ _, .inr rfl⟩ fun _ r => ?_
        split <;> trivial

theorem sameOthers_setRestageCondition (o : Object) (now : Nat) :
    SameOthers filesystemNeedsRestage (setRestageCondition o now).conditions o.conditions := by
  unfold setRestageCondition
  split
  · split
    · exact sameOthers_withCondition rfl
    · exact .refl _ _
  · exact sameOthers_withCondition rfl

theorem sameOthers_mutate {node : String} {m : Mutation} {o o' : Object} {now : Nat}
    (h : mutate node m o now = some o') :
    SameOthers filesystemNeedsRestage o'.conditions o.conditions := by
  have hslot : ∀ error : Option WritebackError,
      ((o.perNode.lookup node).bind fun st =>
        if st.writebackError.isSome = error.isSome then none
        else some (setRestageCondition
          { o with perNode := o.perNode.insert node { st with writebackError := error } } now)) =
        some o' → SameOthers filesystemNeedsRestage o'.conditions o.conditions := by
    intro error h
    obtain ⟨st, -, h⟩ := Option.bind_eq_some_iff.mp h
    split at h
    · cases h
    · cases h
      exact sameOthers_setRestageCondition _ _
  cases m with
  | raise record => exact hslot _ h
  | clear => exact hslot _ h
  | rederive =>
    simp only [mutate] at h
    split at h
    · cases h
    · cases h
      exact sameOthers_setRestageCondition _ _

theorem obeys_updateVolume {node : String} {m : Mutation} (n : Nat) :
    Obeys (guard (.writeback node m)) (fun _ _ => True) log (updateVolume node m n) := by
  induction n generalizing log with
  | zero => trivial
  | succ n ih =>
    refine obeys_call_bind trivial fun t r => ?_
    rcases r with e | _ | vol
    · trivial
    · trivial
    · refine obeys_call_bind trivial fun t' now => ?_
      split
      · trivial
      · rename_i modified hm
        refine obeys_call_bind ⟨wasRead_cons (wasRead_head ..) _, sameOthers_mutate hm, .inl rfl⟩
          fun _ r => ?_
        split
        · exact ih
        · trivial
        · trivial

theorem obeys_program (job : Job) : Obeys (guard job) (fun _ _ => True) [] job.program := by
  cases job with
  | wait polls => exact (obeys_waitReady rfl polls (by nofun)).bind fun _ _ _ => trivial
  | phase => exact obeys_reconcilePhase.bind fun _ _ _ => trivial
  | writeback node m => exact (obeys_updateVolume _).bind fun _ _ _ => trivial

end Programs

/-! ## Versions -/

section Versions

variable {s s' : Server}

/-- A command reads, or puts the patch it carries. -/
theorem answer_cases {c : Cmd} {o : Outcome} {a : Ans c} (h : answer s c o = some (a, s')) :
    s' = s ∨ ∃ base modified locked, c = .patch base modified locked ∧
      (locked → base.version = s.last) ∧
      s' = s.put (mergePatch base.object modified s.current) := by
  cases c with
  | patch base modified locked =>
    have hlock : ¬(locked && decide (base.version ≠ s.last)) →
        locked → base.version = s.last := by
      rintro h rfl
      simpa using h
    cases o with
    | ok =>
      simp only [answer] at h
      split at h
      · cases h
        exact .inl rfl
      · cases h
        exact .inr ⟨base, modified, locked, rfl, hlock ‹_›, rfl⟩
    | fail e applied =>
      simp only [answer] at h
      split at h
      · rename_i happ
        cases h
        simp only [Bool.and_eq_true, Bool.not_eq_true'] at happ
        exact .inr ⟨base, modified, locked, rfl, hlock (Bool.eq_false_iff.mp happ.2), rfl⟩
      · cases h
        exact .inl rfl
    | version | absent | flag | clock => cases h
  | get =>
    cases o with
    | version k =>
      simp only [answer] at h
      split at h <;> cases h
      exact .inl rfl
    | absent | fail =>
      cases h
      exact .inl rfl
    | ok | flag | clock => cases h
  | clock | expired | agentHeartbeatFresh =>
    cases o <;> cases h
    exact .inl rfl

theorem later_of_answer {c : Cmd} {o : Outcome} {a : Ans c} (h : answer s c o = some (a, s')) :
    Versions.Later s s' := by
  rcases answer_cases h with rfl | ⟨base, modified, locked, -, -, rfl⟩
  · exact .refl _
  · exact Versions.later_put ..

/-- A read returns a version. -/
theorem version_of_get {o : Outcome} {vol : Versioned}
    (h : answer s .get o = some (.ok (some vol), s')) :
    vol.version ≤ s.last ∧ s.version vol.version = vol.object := by
  cases o with
  | version k =>
    simp only [answer] at h
    split at h <;> cases h
    exact ⟨‹_›, rfl⟩
  | absent | ok | flag | clock | fail => cases h

end Versions

/-! ## Runs -/

/-- Where the CSI controller or the phase reconciler patches the conditions, those of other types
are as it has read them. -/
def readsHold (c : Writers) (a : Act) : Bool :=
  (Workers.asked c a).all fun q =>
    match q.cmd with
    | .patch base modified _ =>
      q.job.manages ≠ nodeUnreachable || base.object.conditions = modified.conditions ||
        (base.object.conditions ++ c.world.current.conditions).all fun cond =>
          cond.type = q.job.manages ||
            findStatusCondition cond.type base.object.conditions =
              findStatusCondition cond.type c.world.current.conditions
    | _ => true

/-- A type of neither list is in neither. -/
theorem sameOthers_of_all {conds conds' : List Condition}
    (h : ((conds ++ conds').all fun cond => cond.type = type ||
      findStatusCondition cond.type conds = findStatusCondition cond.type conds')) :
    SameOthers type conds conds' := by
  intro other hne
  by_contra hdiff
  have hmem : ∃ cond ∈ conds ++ conds', cond.type = other := by
    cases hl : findStatusCondition other conds with
    | some cond =>
      exact ⟨cond, List.mem_append_left _ (List.mem_of_find?_eq_some hl),
        by simpa using List.find?_some hl⟩
    | none =>
      cases hr : findStatusCondition other conds' with
      | some cond =>
        exact ⟨cond, List.mem_append_right _ (List.mem_of_find?_eq_some hr),
          by simpa using List.find?_some hr⟩
      | none => exact absurd (hl.trans hr.symm) hdiff
  obtain ⟨cond, hcond, rfl⟩ := hmem
  have hsame := List.all_eq_true.mp h cond hcond
  simp only [Bool.or_eq_true, decide_eq_true_iff] at hsame
  exact hdiff (hsame.resolve_left hne)

/-- A merge patch that changes no condition of another writer against what was read, where what was
read is there. -/
theorem sameOthers_mergePatch {base modified current : Object}
    (hm : SameOthers type modified.conditions base.conditions)
    (hb : base.conditions = modified.conditions ∨
      SameOthers type base.conditions current.conditions) :
    SameOthers type (mergePatch base modified current).conditions current.conditions := by
  unfold mergePatch
  dsimp only
  split
  · exact .refl _ _
  · rename_i hne
    exact fun other ho => (hm other ho).trans (hb.resolve_left hne other ho)

/-- A write by one of the writers removes or reverts no condition of a type it does not manage, as
far as the unlocked ones have read what is there. -/
theorem other_conditions_kept {s₀ : Server} {N : Nat} (ρ : Run writers.step (Workers.init s₀) N)
    (hreads : ∀ i < N, readsHold (ρ.state i) (ρ.act i) = true) {i : Nat} (hi : i < N)
    {q : Query Nat Job Ans} (hq : Workers.asked (ρ.state i) (ρ.act i) = some q) {type : String}
    (ht : type ≠ q.job.manages) :
    findStatusCondition type (ρ.state (i + 1)).world.current.conditions =
      findStatusCondition type (ρ.state i).world.current.conditions := by
  obtain ⟨hguard, hlog⟩ :=
    Workers.asked_obeys ρ (fun _ job => obeys_program job) (Nat.le_of_lt hi) hq
  obtain ⟨w, job, log, cmd⟩ := q
  obtain ⟨o, k, hact, hthread⟩ := Workers.asked_eq_some hq
  have hstep := ρ.next i hi
  rw [hact] at hstep
  have hst := Workers.stepped_of_step hstep
  generalize ρ.state (i + 1) = c' at hst ⊢
  cases hst with
  | @reply _ _ j' log' cmd' k' r s' ht' hans =>
    rw [hthread] at ht'
    cases ht'
    rcases answer_cases hans with hs | ⟨base, modified, locked, hcmd, hlock, hs⟩
    · exact congrArg _ (congrArg (fun s => s.current.conditions) hs)
    · dsimp only at hcmd hguard ht
      subst hcmd
      obtain ⟨⟨t, hread⟩, hothers, hwho⟩ := hguard
      refine (congrArg _ (congrArg (fun s => s.current.conditions) hs)).trans ?_
      rw [Versions.current_put]
      refine sameOthers_mergePatch hothers ?_ type ht
      cases locked with
      | false =>
        have hsame := hreads i hi
        simp only [readsHold, hq, Option.all_some, Bool.or_eq_true, decide_eq_true_iff] at hsame
        rcases hsame with (hother | hsame) | hsame
        · exact absurd (hwho.resolve_left (by decide)) hother
        · exact .inl hsame
        · exact .inr (sameOthers_of_all hsame)
      | true =>
        -- The lock was passed, so the version that was read is the current one.
        obtain ⟨log₀, hlt, o₀, k₀, -, -, hget⟩ := hlog.told hread
        obtain ⟨hle, hversion⟩ := version_of_get hget
        have hlater : Versions.Later (ρ.state t).world (ρ.state i).world :=
          Workers.world_related ρ .refl (fun _ _ _ => .trans)
            (fun s o s' h => by cases h; exact Versions.later_put s o)
            (fun _ _ _ _ _ _ _ h => later_of_answer h) (Nat.le_of_lt hlt) (Nat.le_of_lt hi)
        refine .inr fun other _ => ?_
        rw [Versions.current, ← hlock rfl, hlater.version _ hle, hversion]

/-! ## Two writers -/

section Example

/-- A volume on `a` and `b` whose agents report again after `NodeUnreachable` was set. -/
def lingering : Object where
  name := "v"
  spec :=
    { sizeBytes := 4096
      replicas := [{ node := "a", nodeID := 0, address := "10.0.0.1" },
        { node := "b", nodeID := 1, address := "10.0.0.2" }]
      drbd := true }
  perNode := (AList.singleton "a" ({ drbdMinor := 1000 } : NodeSlot)).insert "b" {}
  conditions := [unreachableCondition ["b"]]

def lingeringServer : Server := ⟨fun _ => lingering, 0⟩

/-- The phase reconciler reads the volume and computes its patch. -/
def phaseReads : List Act := .start 0 .phase :: Workers.replies 0 [.version 0, .clock 0]

/-- The watcher on `a` records a lost write. -/
def watcherRaises (k : Nat) : List Act :=
  .start 1 (.writeback "a" (.raise "lost async page write")) ::
    Workers.replies 1 [.version k, .clock 0, .ok]

theorem inTurn_possible :
    allSteps writers.step readsHold (Workers.init lingeringServer)
      (phaseReads ++ [.reply 0 .ok] ++ watcherRaises 1) := by
  decide +kernel

def inTurn : Run writers.step (Workers.init lingeringServer) 8 :=
  Run.ofActions _ _ _ _ inTurn_possible

/-- The watcher's patch leaves the phase reconciler's condition as it is. -/
theorem other_conditions_kept_inTurn :
    isStatusConditionTrue filesystemNeedsRestage (inTurn.state 8).world.current.conditions = true ∧
      findStatusCondition nodeUnreachable (inTurn.state 8).world.current.conditions =
        findStatusCondition nodeUnreachable (inTurn.state 7).world.current.conditions := by
  obtain ⟨q, hq⟩ : ∃ q, Workers.asked (inTurn.state 7) (inTurn.act 7) = some q :=
    Option.isSome_iff_exists.mp (by decide +kernel)
  have hjob : (Workers.asked (inTurn.state 7) (inTurn.act 7)).map (fun q => q.job.manages) =
      some filesystemNeedsRestage := by decide +kernel
  have hmanages : q.job.manages = filesystemNeedsRestage := by
    rw [hq] at hjob
    exact Option.some.inj hjob
  refine ⟨by decide +kernel, ?_⟩
  exact other_conditions_kept inTurn (fun i hi => Run.ofActions_spec inTurn_possible hi)
    (by decide) hq (by rw [hmanages]; decide)

/-- The lost write is recorded between the phase reconciler's read and its patch. -/
def overlapping : Run writers.step (Workers.init lingeringServer) 8 :=
  Run.ofActions _ (fun _ _ => true) _ (phaseReads ++ watcherRaises 0 ++ [.reply 0 .ok])
    (by decide +kernel)

/-- The phase reconciler clears its own condition and drops the watcher's, with the error still on
the slot. -/
theorem restage_condition_lost :
    isStatusConditionTrue filesystemNeedsRestage (overlapping.state 7).world.current.conditions =
        true ∧
      findStatusCondition filesystemNeedsRestage (overlapping.state 8).world.current.conditions =
        none ∧
      erringNodes (overlapping.state 8).world.current = ["a"] ∧
      (Workers.asked (overlapping.state 7) (overlapping.act 7)).map (fun q => q.job) =
        some .phase := by
  decide +kernel

end Example

end Miroir.Cond
