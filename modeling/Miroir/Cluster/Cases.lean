import Miroir.Cluster.Step

/-!
# What a step can do

`Answered` lists what answering a command can do to the state, and `Stepped` what a step can do,
as inductive relations; `stepped_of_step` inverts the step function once. After it come the facts
that hold of every step by looking at one component of the state: the clock, the passes, the
writes in flight, the legs, the kernel flags and the API server.
-/

namespace Miroir

open Process

variable {Γ : Config} {s s' : State} {a : Action}

/-- The answer with which a command fails. -/
def failure : (c : Cmd) → Err → Option (Ans c)
  | .cachedSnapshot _, e | .getSnapshot _, e => some (.error e)
  | .cachedGroup _, e | .getGroup _, e => some (.error e)
  | .cachedVolume _, e => some (.error e)
  | .listSnapshots, e => some (.error e)
  | .listGroups, e => some (.error e)
  | .listVolumes, e => some (.error e)
  | .drbdStatus _, e => some (.error e)
  | .userSuspended, e => some (.error e)
  | .suspendIo _, e | .resumeIo _, e | .freeze _, e | .thaw _, e | .sync _ _, e
  | .deleteSnapshot _ _ _, e | .snapshot _ _ _, e | .write _, e => some (.error e)
  | .now, _ | .countBarrierFail _, _ | .clearBarrierFails _, _ => none

/-- What answering worker `w`'s command can do. -/
inductive Answered (Γ : Config) (s : State) (w : Worker) (job : String) (log : PassLog) :
    (c : Cmd) → Outcome → Ans c → State → Prop
  | failed {c o r e} (h : failure c e = some r) : Answered Γ s w job log c o r s
  | cachedSnapshot {x i v o} (hi : s.snapCache w.node ≤ i) (hv : s.versions[i]? = some v) :
      Answered Γ s w job log (.cachedSnapshot x) o (.ok (v.snap x))
        { s with snapCache := Function.update s.snapCache w.node i }
  | cachedGroup {g i v o} (hi : s.groupCache w.node ≤ i) (hv : s.versions[i]? = some v) :
      Answered Γ s w job log (.cachedGroup g) o (.ok (v.group g))
        { s with groupCache := Function.update s.groupCache w.node i }
  | cachedVolume {v o} (st : Option VolumeStatus) :
      Answered Γ s w job log (.cachedVolume v) o
        (.ok (st.bind fun st => (Γ.spec v).map fun spec => ⟨v, spec, st⟩)) s
  | getSnapshot {x o} : Answered Γ s w job log (.getSnapshot x) o (.ok (s.api.snap x)) s
  | getGroup {g o} : Answered Γ s w job log (.getGroup g) o (.ok (s.api.group g)) s
  | listSnapshots {o} : Answered Γ s w job log .listSnapshots o (.ok s.api.listSnapshots) s
  | listGroups {o} : Answered Γ s w job log .listGroups o (.ok s.api.listGroups) s
  | listVolumes {o} (vs : List Volume) : Answered Γ s w job log .listVolumes o (.ok vs) s
  | now {o} : Answered Γ s w job log .now o s.clock s
  | drbdStatus {v o} (obs : Observation) :
      Answered Γ s w job log (.drbdStatus v) o (.ok (statusOf Γ s w.node v obs)) s
  | userSuspended {o} : Answered Γ s w job log .userSuspended o
      (.ok ((Γ.resources w.node).filter fun v => (s.kernel w.node v).suspended)) s
  | suspendIo {v o r} : Answered Γ s w job log (.suspendIo v) o r (s.setSuspended w.node v true)
  | resumeIo {v o r} : Answered Γ s w job log (.resumeIo v) o r (s.setSuspended w.node v false)
  | freeze {d o} : Answered Γ s w job log (.freeze d) o (.ok ()) s
  | thaw {d o} : Answered Γ s w job log (.thaw d) o (.ok ()) s
  | sync {pool v o} : Answered Γ s w job log (.sync pool v) o (.ok ()) s
  | deleteSnapshot {pool v x o r} : Answered Γ s w job log (.deleteSnapshot pool v x) o r
      (s.setLeg ⟨w.node, pool, x⟩ ((s.legs ⟨w.node, pool, x⟩).delete s.tick))
  | snapshot {pool v x o r} : Answered Γ s w job log (.snapshot pool v x) o r
      (s.setLeg ⟨w.node, pool, x⟩
        ((s.legs ⟨w.node, pool, x⟩).cut s.tick (viewRound w.task job log)))
  | countBarrierFail {x o r fails} : Answered Γ s w job log (.countBarrierFail x) o r
      { s with fails := fails }
  | clearBarrierFails {x o fails} : Answered Γ s w job log (.clearBarrierFails x) o ()
      { s with fails := fails }
  | landed {wr pruned err r v} (h : land s.tick ⟨w, job, wr, log⟩ pruned s.api = some v) :
      Answered Γ s w job log (.write wr) (.lands pruned err) r (s.setApi v)
  | sent {wr o e} : Answered Γ s w job log (.write wr) o (.error e)
      { s with inflight := s.inflight ++ [⟨w, job, wr, log⟩] }

section Answer

variable {w : Worker} {job : String} {log : PassLog} {o : Outcome} {s₁ : State}

theorem answered_of_answer {c : Cmd} {r : Ans c}
    (h : answer Γ s w job log c o = some (r, s₁)) : Answered Γ s w job log c o r s₁ := by
  cases c with
  | cachedSnapshot x =>
    cases o with
    | version i =>
      simp only [answer] at h
      split at h
      · rename_i hi
        obtain ⟨v, hv, h⟩ := Option.map_eq_some_iff.mp h
        cases h
        exact .cachedSnapshot hi hv
      · cases h
    | fail e b => cases b <;> cases h; exact .failed rfl
    | _ => cases h
  | cachedGroup g =>
    cases o with
    | version i =>
      simp only [answer] at h
      split at h
      · rename_i hi
        obtain ⟨v, hv, h⟩ := Option.map_eq_some_iff.mp h
        cases h
        exact .cachedGroup hi hv
      · cases h
    | fail e b => cases b <;> cases h; exact .failed rfl
    | _ => cases h
  | cachedVolume v =>
    cases o with
    | volume st => cases h; exact .cachedVolume st
    | fail e b => cases b <;> cases h; exact .failed rfl
    | _ => cases h
  | getSnapshot x =>
    obtain ⟨rfl, rfl | ⟨e, rfl⟩⟩ := read_cases (a := s.api.snap x) h
    exacts [.getSnapshot, .failed rfl]
  | getGroup g =>
    obtain ⟨rfl, rfl | ⟨e, rfl⟩⟩ := read_cases (a := s.api.group g) h
    exacts [.getGroup, .failed rfl]
  | listSnapshots =>
    obtain ⟨rfl, rfl | ⟨e, rfl⟩⟩ := read_cases (a := s.api.listSnapshots) h
    exacts [.listSnapshots, .failed rfl]
  | listGroups =>
    obtain ⟨rfl, rfl | ⟨e, rfl⟩⟩ := read_cases (a := s.api.listGroups) h
    exacts [.listGroups, .failed rfl]
  | listVolumes =>
    cases o with
    | volumes vs => cases h; exact .listVolumes vs
    | fail e b => cases b <;> cases h; exact .failed rfl
    | _ => cases h
  | now =>
    cases o with
    | ok => cases h; exact .now
    | _ => cases h
  | drbdStatus v =>
    cases o with
    | status obs => cases h; exact .drbdStatus obs
    | fail e b => cases b <;> cases h; exact .failed rfl
    | _ => cases h
  | userSuspended =>
    obtain ⟨rfl, rfl | ⟨e, rfl⟩⟩ := read_cases
      (a := (Γ.resources w.node).filter fun v => (s.kernel w.node v).suspended) h
    exacts [.userSuspended, .failed rfl]
  | suspendIo v =>
    obtain ⟨rfl, rfl⟩ | ⟨e, rfl, rfl | rfl⟩ := perform_cases (t := s.setSuspended w.node v true) h
    exacts [.suspendIo, .suspendIo, .failed rfl]
  | resumeIo v =>
    obtain ⟨rfl, rfl⟩ | ⟨e, rfl, rfl | rfl⟩ := perform_cases (t := s.setSuspended w.node v false) h
    exacts [.resumeIo, .resumeIo, .failed rfl]
  | freeze d =>
    obtain ⟨rfl, rfl⟩ | ⟨e, rfl, rfl | rfl⟩ := perform_cases (t := s) h
    exacts [.freeze, .failed rfl, .failed rfl]
  | thaw d =>
    obtain ⟨rfl, rfl⟩ | ⟨e, rfl, rfl | rfl⟩ := perform_cases (t := s) h
    exacts [.thaw, .failed rfl, .failed rfl]
  | sync pool v =>
    obtain ⟨rfl, rfl⟩ | ⟨e, rfl, rfl | rfl⟩ := perform_cases (t := s) h
    exacts [.sync, .failed rfl, .failed rfl]
  | deleteSnapshot pool v x =>
    obtain ⟨rfl, rfl⟩ | ⟨e, rfl, rfl | rfl⟩ := perform_cases
      (t := s.setLeg ⟨w.node, pool, x⟩ ((s.legs ⟨w.node, pool, x⟩).delete s.tick)) h
    exacts [.deleteSnapshot, .deleteSnapshot, .failed rfl]
  | snapshot pool v x =>
    obtain ⟨rfl, rfl⟩ | ⟨e, rfl, rfl | rfl⟩ := perform_cases (t := s.setLeg ⟨w.node, pool, x⟩
      ((s.legs ⟨w.node, pool, x⟩).cut s.tick (viewRound w.task job log))) h
    exacts [.snapshot, .snapshot, .failed rfl]
  | countBarrierFail x =>
    cases o with
    | ok => cases h; exact .countBarrierFail
    | _ => cases h
  | clearBarrierFails x =>
    cases o with
    | ok => cases h; exact .clearBarrierFails
    | _ => cases h
  | write wr =>
    cases o with
    | lands pruned err =>
      simp only [answer] at h
      obtain ⟨v, hv, h⟩ := Option.map_eq_some_iff.mp h
      obtain ⟨-, rfl⟩ := Prod.mk.inj h
      exact .landed hv
    | late e => cases h; exact .sent
    | fail e b => cases b <;> cases h; exact .failed rfl
    | _ => cases h

end Answer

/-! ## Steps -/

/-- What a step can do. -/
inductive Stepped (Γ : Config) (s : State) : Action → State → Prop
  | start {w job} (h : s.pass w = none) :
      Stepped Γ s (.start w job)
        { s.setPass w (some ⟨job, [], program Γ w job⟩) with tick := s.tick + 1 }
  | reply {w o job log c k r s₁} (h : s.pass w = some ⟨job, log, .ask c k⟩)
      (ha : Answered Γ s w job log c o r s₁) :
      Stepped Γ s (.reply w o)
        { s₁.setPass w (some ⟨job, ⟨s.tick, c, r⟩ :: log, k r⟩) with tick := s.tick + 1 }
  | finish {w job log res} (h : s.pass w = some ⟨job, log, .ret res⟩) :
      Stepped Γ s (.finish w) { s.setPass w none with tick := s.tick + 1 }
  | crash {w fails} :
      Stepped Γ s (.crash w) { s.setPass w none with fails := fails, tick := s.tick + 1 }
  | land {i pruned q v} (hq : s.inflight[i]? = some q) (h : land s.tick q pruned s.api = some v) :
      Stepped Γ s (.land i pruned)
        { s.setApi v with inflight := s.inflight.eraseIdx i, tick := s.tick + 1 }
  | advance {d} : Stepped Γ s (.advance d) { s with clock := s.clock + d, tick := s.tick + 1 }
  | role {n v b} : Stepped Γ s (.role n v b) { s.setPrimary n v b with tick := s.tick + 1 }
  | deleteSnap {x w} (h : s.api.snap x = some w) : Stepped Γ s (.deleteSnap x)
      { s.setApi (s.api.markSnapDeleted x w) with tick := s.tick + 1 }
  | deleteGroup {g w} (h : s.api.group g = some w) : Stepped Γ s (.deleteGroup g)
      { s.setApi (s.api.markGroupDeleted g w) with tick := s.tick + 1 }

theorem stepped_of_step (h : step Γ s a = some s') : Stepped Γ s a s' := by
  obtain ⟨s₁, hact, rfl⟩ := Option.map_eq_some_iff.mp h
  clear h
  cases a with
  | start w job =>
    simp only [act] at hact
    split at hact <;> cases hact
    exact .start ‹_›
  | reply w o =>
    simp only [act] at hact
    split at hact
    · obtain ⟨r, hr, hact⟩ := Option.map_eq_some_iff.mp hact
      cases hact
      exact .reply ‹_› (answered_of_answer hr)
    · cases hact
  | finish w =>
    simp only [act] at hact
    split at hact <;> cases hact
    exact .finish ‹_›
  | crash w => cases hact; exact .crash
  | land i pruned =>
    obtain ⟨q, hq, hact⟩ := Option.bind_eq_some_iff.mp hact
    obtain ⟨v, hv, hact⟩ := Option.map_eq_some_iff.mp hact
    cases hact
    exact .land hq hv
  | advance d => cases hact; exact .advance
  | role n v b => cases hact; exact .role
  | deleteSnap x =>
    obtain ⟨w, hw, hact⟩ := Option.map_eq_some_iff.mp hact
    cases hact
    exact .deleteSnap hw
  | deleteGroup g =>
    obtain ⟨w, hw, hact⟩ := Option.map_eq_some_iff.mp hact
    cases hact
    exact .deleteGroup hw

/-! ## One component at a time -/

theorem Answered.frame {w : Worker} {job : String} {log : PassLog} {c : Cmd} {o : Outcome}
    {r : Ans c} {s₁ : State} (h : Answered Γ s w job log c o r s₁) :
    s₁.clock = s.clock ∧ s₁.pass = s.pass := by
  cases h <;> exact ⟨rfl, rfl⟩

theorem Stepped.tick (h : Stepped Γ s a s') : s'.tick = s.tick + 1 := by
  cases h <;> rfl

theorem Stepped.clock_le (h : Stepped Γ s a s') : s.clock ≤ s'.clock := by
  cases h with
  | reply h ha => exact Nat.le_of_eq ha.frame.1.symm
  | advance => exact Nat.le_add_right ..
  | _ => exact Nat.le_refl _

/-- A pass stays as it is, ends, starts, or goes on with an answer. -/
theorem Stepped.pass_cases (h : Stepped Γ s a s') (w : Worker) :
    s'.pass w = s.pass w ∨ s'.pass w = none ∨
      (∃ job, s.pass w = none ∧ s'.pass w = some ⟨job, [], program Γ w job⟩) ∨
      ∃ o job log c k r s₁, a = .reply w o ∧ s.pass w = some ⟨job, log, .ask c k⟩ ∧
        Answered Γ s w job log c o r s₁ ∧
        s' = { s₁.setPass w (some ⟨job, ⟨s.tick, c, r⟩ :: log, k r⟩) with tick := s.tick + 1 } := by
  have hset : ∀ {t : State} {w' : Worker} {p : Option Pass}, w ≠ w' →
      (t.setPass w' p).pass w = t.pass w := fun h => Function.update_of_ne h ..
  have hself : ∀ {t : State} {p : Option Pass}, (t.setPass w p).pass w = p :=
    Function.update_self ..
  cases h with
  | @start w' job h =>
    by_cases hw : w = w'
    · subst hw; exact .inr (.inr (.inl ⟨job, h, hself⟩))
    · exact .inl (hset hw)
  | @reply w' o job log c k r s₁ h ha =>
    by_cases hw : w = w'
    · subst hw; exact .inr (.inr (.inr ⟨o, job, log, c, k, r, s₁, rfl, h, ha, rfl⟩))
    · exact .inl ((hset hw).trans (congrFun ha.frame.2 w))
  | @finish w' =>
    by_cases hw : w = w'
    · subst hw; exact .inr (.inl hself)
    · exact .inl (hset hw)
  | @crash w' =>
    by_cases hw : w = w'
    · subst hw; exact .inr (.inl hself)
    · exact .inl (hset hw)
  | land | advance | role | deleteSnap | deleteGroup => exact .inl rfl

/-- A write in flight was in flight before, or is the one a pass has just issued. -/
theorem Stepped.inflight_cases (h : Stepped Γ s a s') {q : Request} (hq : q ∈ s'.inflight) :
    q ∈ s.inflight ∨ ∃ k, s.pass q.worker = some ⟨q.job, q.log, .ask (.write q.write) k⟩ := by
  cases h with
  | reply h ha =>
    cases ha with
    | sent =>
      rcases List.mem_append.mp hq with hq | hq
      · exact .inl hq
      · obtain rfl := List.mem_singleton.mp hq
        exact .inr ⟨_, h⟩
    | _ => exact .inl hq
  | land => exact .inl (List.mem_of_mem_eraseIdx hq)
  | start | finish | crash | advance | role | deleteSnap | deleteGroup => exact .inl hq

/-- The API server takes a request, marks an object deleted, or stays as it is. -/
theorem Stepped.api_cases (h : Stepped Γ s a s') :
    (∃ q pruned, a.landing s = some q ∧ Miroir.land s.tick q pruned s.api = some s'.api ∧
      s'.versions = s.versions ++ [s'.api]) ∨
    (∃ x w, a = .deleteSnap x ∧ s.api.snap x = some w ∧ s'.api = s.api.markSnapDeleted x w ∧
      s'.versions = s.versions ++ [s'.api]) ∨
    (∃ g w, a = .deleteGroup g ∧ s.api.group g = some w ∧ s'.api = s.api.markGroupDeleted g w ∧
      s'.versions = s.versions ++ [s'.api]) ∨
    (s'.api = s.api ∧ s'.versions = s.versions) := by
  cases h with
  | reply h ha =>
    cases ha with
    | @landed wr pruned err r v hv =>
      exact .inl ⟨⟨_, _, wr, _⟩, pruned, by simp [Action.landing, h], hv, rfl⟩
    | _ => exact .inr (.inr (.inr ⟨rfl, rfl⟩))
  | @land i pruned q v hq hv => exact .inl ⟨q, pruned, by simp [Action.landing, hq], hv, rfl⟩
  | @deleteSnap x w h => exact .inr (.inl ⟨x, w, rfl, h, rfl, rfl⟩)
  | @deleteGroup g w h => exact .inr (.inr (.inl ⟨g, w, rfl, h, rfl, rfl⟩))
  | start | finish | crash | advance | role => exact .inr (.inr (.inr ⟨rfl, rfl⟩))

/-- A leg stays as it is, or the step answers a command that deletes or cuts it. -/
theorem Stepped.leg_cases (h : Stepped Γ s a s') (k : LegKey) :
    s'.legs k = s.legs k ∨ ∃ q : Asked, a.command s = some q ∧ q.worker.node = k.node ∧ ∃ v,
      (q.cmd = .deleteSnapshot k.pool v k.snap ∧ s'.legs k = (s.legs k).delete s.tick) ∨
      (q.cmd = .snapshot k.pool v k.snap ∧
        s'.legs k = (s.legs k).cut s.tick (viewRound q.worker.task q.job q.log)) := by
  cases h with
  | @reply w o job log c _ r s₁ h ha =>
    have hc : Action.command s (.reply w o) = some ⟨w, job, log, c⟩ := by
      simp [Action.command, h]
    cases ha with
    | @deleteSnapshot pool v x =>
      by_cases hk : k = ⟨w.node, pool, x⟩
      · subst hk
        exact .inr ⟨_, hc, rfl, v, .inl ⟨rfl, Function.update_self ..⟩⟩
      · exact .inl (Function.update_of_ne hk ..)
    | @snapshot pool v x =>
      by_cases hk : k = ⟨w.node, pool, x⟩
      · subst hk
        exact .inr ⟨_, hc, rfl, v, .inr ⟨rfl, Function.update_self ..⟩⟩
      · exact .inl (Function.update_of_ne hk ..)
    | _ => exact .inl rfl
  | start | finish | crash | land | advance | role | deleteSnap | deleteGroup => exact .inl rfl

/-- A suspend flag stays as it is, or the step answers the command that sets or clears it. -/
theorem Stepped.flag_cases (h : Stepped Γ s a s') (n v : String) :
    (s'.kernel n v).suspended = (s.kernel n v).suspended ∨
      ∃ q : Asked, a.command s = some q ∧ q.worker.node = n ∧
        (q.cmd = .suspendIo v ∧ (s'.kernel n v).suspended ∨
          q.cmd = .resumeIo v ∧ (s'.kernel n v).suspended = false) := by
  have hset : ∀ (t : State) (m u : String) (b : Bool), ¬(n = m ∧ v = u) →
      ((t.setSuspended m u b).kernel n v).suspended = (t.kernel n v).suspended := by
    intro t m u b hne
    by_cases hn : n = m
    · subst hn
      have hu : v ≠ u := fun hu => hne ⟨rfl, hu⟩
      simp [State.setSuspended, Function.update_of_ne hu]
    · simp [State.setSuspended, Function.update_of_ne hn]
  cases h with
  | @reply w o job log c _ r s₁ h ha =>
    have hc : Action.command s (.reply w o) = some ⟨w, job, log, c⟩ := by
      simp [Action.command, h]
    cases ha with
    | @suspendIo u =>
      by_cases hk : n = w.node ∧ v = u
      · obtain ⟨rfl, rfl⟩ := hk
        exact .inr ⟨_, hc, rfl, .inl ⟨rfl, by simp [State.setSuspended, State.setPass]⟩⟩
      · exact .inl (hset s w.node u true hk)
    | @resumeIo u =>
      by_cases hk : n = w.node ∧ v = u
      · obtain ⟨rfl, rfl⟩ := hk
        exact .inr ⟨_, hc, rfl, .inr ⟨rfl, by simp [State.setSuspended, State.setPass]⟩⟩
      · exact .inl (hset s w.node u false hk)
    | _ => exact .inl rfl
  | @role m u b =>
    refine .inl ?_
    by_cases hn : n = m
    · subst hn
      by_cases hv : v = u
      · subst hv; simp [State.setPrimary]
      · simp [State.setPrimary, Function.update_of_ne hv]
    · simp [State.setPrimary, Function.update_of_ne hn]
  | start | finish | crash | land | advance | deleteSnap | deleteGroup => exact .inl rfl

/-- A step that makes the API server take a request answers no other command. -/
theorem command_of_landing {q : Request} (hq : a.landing s = some q) {q' : Asked}
    (hc : a.command s = some q') : ∃ wr, q'.cmd = .write wr := by
  cases a with
  | reply w o =>
    cases o with
    | lands pruned err =>
      simp only [Action.landing] at hq
      split at hq
      · rename_i hp
        simp only [Action.command, hp, Option.some.injEq] at hc
        exact ⟨_, by rw [← hc]⟩
      · cases hq
    | _ => cases hq
  | _ => cases hc

theorem Stepped.flag_of_landing (h : Stepped Γ s a s') {q : Request} (hq : a.landing s = some q)
    (n v : String) : (s'.kernel n v).suspended = (s.kernel n v).suspended := by
  rcases h.flag_cases n v with h | ⟨q', hc, -, ⟨h, -⟩ | ⟨h, -⟩⟩
  · exact h
  · obtain ⟨wr, hw⟩ := command_of_landing hq hc
    cases h.symm.trans hw
  · obtain ⟨wr, hw⟩ := command_of_landing hq hc
    cases h.symm.trans hw

end Miroir
