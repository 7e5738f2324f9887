import Miroir.Cluster.Raised
import Miroir.Safety.LeakedLegs
import Miroir.Safety.WriteOrigins

/-!
# No barrier without its object

A node's finalizer is also to keep the object of a round on the API server until the node has lifted
the barriers the round raised there. A deletion pass leaves a barrier up in a few cases, and
`excuse` lists them: the volume is gone or is read as unreplicated, DRBD does not answer, another
round is live over the volume. A group's pass besides visits only some volumes. And a node may raise
a barrier without having a finalizer at all: a client leg that coordinates the round, or a replica
added after the object was created. `keepsBarriers` excludes these and nothing else;
`barriers_guarded` is the invariant that remains. In the run at the end a client raises the barrier
of a snapshot that is then deleted.
-/

namespace Miroir

open Process Cluster Data

/-! ## The specification of the workers -/

variable {Γ : Config} {x : String} {k : Kind} {log : PassLog}

/-- A barrier is raised by a pass that has read its object as live. -/
theorem guard_suspendIo {n v : String}
    (h : guard Γ ⟨n, k.task⟩ x log (.suspendIo v)) :
    ∃ m, metaView log x k = some m ∧ m.deleting = false := by
  cases k with
  | snapshot =>
    obtain ⟨w, vol, hr, hd, -⟩ := h
    exact ⟨w.objectMeta, by simp [metaView, hr.snap_eq], hd⟩
  | group =>
    obtain ⟨w, hw, hd⟩ := h
    exact ⟨w.objectMeta, by simp [metaView, hw], hd⟩

/-- A read of an object of the kind. -/
def Cmd.readsKind : Kind → Cmd → Bool
  | .snapshot, .cachedSnapshot _ => true
  | .group, .cachedGroup _ => true
  | _, _ => false

/-- A pass reads its object before anything else. -/
theorem guard_read {n : String} {c : Cmd}
    (h : guard Γ ⟨n, k.task⟩ x log c) (hc : c.readsKind k) : log = [] := by
  cases k <;> cases c <;> first | exact h | cases hc

theorem metaView_of_other {t : Nat} {c : Cmd} {r : Ans c}
    (h : c.readsKind k = false) : metaView (⟨t, c, r⟩ :: log) x k = metaView log x k := by
  cases k <;> cases c <;> first | rfl | cases h

/-! ## What keeps a barrier from outliving its object -/

/-- The volume whose barrier a pass over the deleted snapshot `w` leaves as it is, for what it has
just been told. -/
def snapExcuse (w : Snapshot) (log : PassLog) : (c : Cmd) → Ans c → Option String
  | .cachedVolume v, .ok vol => if vol.all fun vol => !vol.spec.drbd then some v else none
  | .drbdStatus v, .error _ => some v
  | .getSnapshot _, .ok (some live) =>
    if live.status.ioSuspended && !sameSnapshotRound w live then lastStatus log else none
  | .listSnapshots, .ok items =>
    if (siblingGroups w.volumeName w.name "" items).isNone then lastStatus log else none
  | .getGroup _, .ok (some grp) => if grp.status.ioSuspended then lastStatus log else none
  | _, _ => none

/-- The same of a pass over the deleted group `g`. -/
def groupExcuse (g : String) (log : PassLog) : (c : Cmd) → Ans c → Option String
  | .drbdStatus v, .error _ => some v
  | .listSnapshots, .ok items =>
    (lastStatus log).filter fun v => (siblingGroups v "" g items).isNone
  | .getGroup _, .ok (some grp) => if grp.status.ioSuspended then lastStatus log else none
  | _, _ => none

/-- The same of either pass, over the object as `view` shows it. -/
def excuse (k : Kind) (x : String) (view log : PassLog) (c : Cmd) (r : Ans c) : Option String :=
  match k with
  | .snapshot => (snapView x view).bind fun w => snapExcuse w log c r
  | .group => groupExcuse x log c r

/-- The suspend-io is one of the object that the pass on `n` has read. -/
def owns (log : PassLog) (k : Kind) (n x : String) (r : Raise) : Bool :=
  r.node = n && r.kind = k && r.name = x && (metaView log x k).any fun m => m.uid = r.uid

/-- A barrier is raised only under the finalizer of its node. -/
def raisesGuarded (s : State) (q : Asked) : Bool :=
  q.raise.all fun r =>
    (s.api.objectMeta r.name r.kind).any fun m => m.uid = r.uid && r.node ∈ m.finalizers

/-- No barrier of the object is excused by what the pass is told, and a sweep over a deleted group
visits the volumes of all of them. -/
def leavesNone (Γ : Config) (raised : List Raise) (k : Kind) (n x : String) (log : PassLog)
    (c : Cmd) (r : Ans c) : Bool :=
  raised.all fun b => !owns log k n x b ||
    ((excuse k x log log c r).all (fun v => b.volume ≠ v) &&
      match k, c with
      | .group, .clearBarrierFails _ => (groupView x log).all fun w =>
        b.volume ∈ GroupSnapshotReconciler.sweepVolumes (Γ.agent n) w (readMembers log)
      | _, _ => true)

/-- A pass over a deleted object lifts what the object's round has raised on its node. -/
def deletionLifts (Γ : Config) (T : Tracked) : Event → Bool
  | .act (.reply w o) =>
    match T.cluster.state.pass w with
    | some ⟨x, log, .ask c _⟩ => w.task.kind.all fun k => !deletes T.cluster.state k x log ||
      (answer (T.cluster.config Γ w.node) T.cluster.state w x log c o).all fun r =>
        leavesNone Γ T.raised k w.node x log c r.1
    | _ => true
  | _ => true

/-- The step keeps barriers from outliving their objects. -/
def keepsBarriers (Γ : Config) (T : Tracked) (e : Event) : Bool :=
  (e.command T.cluster.state).all (raisesGuarded T.cluster.state) && deletionLifts Γ T e

/-! ## The invariant -/

/-- The volume whose barrier is down, for what a pass has just been told. -/
def clears : (c : Cmd) → Ans c → Option String
  | .drbdStatus v, .ok st => if st.suspended then none else some v
  | .resumeIo v, .ok () => some v
  | _, _ => none

/-- What the pass over a deleted object is done with is not up. -/
structure BarriersDone (Γ : Config) (raised : List Raise) (k : Kind) (n x : String)
    (log : PassLog) :
    Prop where
  lifted : ∀ {e old b}, e :: old <:+ log → b ∈ raised → owns log k n x b = true →
    excuse k x log old e.cmd e.ans ≠ some b.volume ∧ clears e.cmd e.ans ≠ some b.volume
  visited : ∀ {t y old w b}, (⟨t, .clearBarrierFails y, ()⟩ : Entry Nat Ans) :: old <:+ log →
    b ∈ raised → owns log k n x b = true → k = .group → groupView x log = some w →
    b.volume ∈ GroupSnapshotReconciler.sweepVolumes (Γ.agent n) w (readMembers old)

structure BarriersGuarded (Γ : Config) (T : Tracked) : Prop where
  held : ∀ {b}, b ∈ T.raised → ∃ m, T.cluster.state.api.objectMeta b.name b.kind = some m ∧
    m.uid = b.uid ∧ b.node ∈ m.finalizers
  source : ∀ {b}, b ∈ T.raised → b.kind = .snapshot → ∃ v ∈ T.cluster.state.versions,
    ∃ w, v.snap b.name = some w ∧ w.uid = b.uid ∧ w.volumeName = b.volume
  done : ∀ {k n x log}, LogOf T.cluster.state k n x log →
    deletes T.cluster.state k x log = true → BarriersDone Γ T.raised k n x log

/-- All that holds of a state of a run. -/
structure BarriersKept (Γ : Config) (T : Tracked) : Prop where
  sane : Sane T.cluster.state
  ordered : Ordered T.cluster.state
  obedient : Obedient Γ T.cluster.state
  oneVolume : OneVolume T.cluster.state
  reads : TrueReads T.cluster.state
  guarded : BarriersGuarded Γ T

section Step

variable {Γ : Config} {T T' : Tracked} {e : Event}

variable {log : PassLog} {k : Kind} {n x : String} {b : Raise} {c : Cmd}

variable {r : Ans c}

theorem owns_iff :
    owns log k n x b ↔ b.node = n ∧ b.kind = k ∧ b.name = x ∧
      ∃ m, metaView log x k = some m ∧ m.uid = b.uid := by
  simp only [owns, Bool.and_eq_true, decide_eq_true_eq, Option.any_eq_true, and_assoc]

/-- A node that raises a barrier for an object is not about to let go of the object. -/
theorem not_deletes_of_raise (h : BarriersKept Γ T) {q : Asked}
    (hq : e.command T.cluster.state = some q) (hb : q.raise = some b)
    (hl : LogOf T.cluster.state b.kind b.node b.name log) :
    ¬deletes T.cluster.state b.kind b.name log := by
  cases e with
  | act a =>
    obtain ⟨hcmd, hw, hj, -⟩ := Asked.raise_eq_some hb
    obtain ⟨next, hp⟩ := pass_of_command hq
    have hg := h.obedient.asked hq
    rw [hw, hj, hcmd] at hg
    obtain ⟨m, hm, hd⟩ := guard_suspendIo hg
    rw [hw] at hp
    exact h.ordered.not_deletes hp hj (by rw [← hm, hj]) hd hl
  | _ => cases hq

/-- What is up of an object its node is about to let go of was up before. -/
theorem mem_raised_of_owns (h : BarriersKept Γ T) {s : State}
    (hl : LogOf T.cluster.state k n x log)
    (hd : deletes T.cluster.state k x log) (hb : b ∈ T.raisedAfter e s)
    (ho : owns log k n x b) : b ∈ T.raised := by
  rcases (Tracked.mem_raisedAfter hb).1 with hold | ⟨q, hq, hr⟩
  · exact hold
  · obtain ⟨rfl, rfl, rfl, -⟩ := owns_iff.mp ho
    exact absurd hd (not_deletes_of_raise h hq hr hl)

theorem suffix_of_mem {α : Type*} {l : List α} {x : α} (h : x ∈ l) : ∃ old, x :: old <:+ l := by
  obtain ⟨new, old, rfl⟩ := List.append_of_mem h
  exact ⟨old, List.suffix_append new _⟩

/-- A pass that is done with the barrier of a volume has not left it up. -/
theorem BarriersDone.not_lifted
    {found : Prop} (h : BarriersDone Γ T.raised k n x log) (hb : b ∈ T.raised)
    (ho : owns log k n x b)
    (hsilent : ∀ old err, excuse k x log old (.drbdStatus b.volume) (.error err) = some b.volume)
    (hfound : found → ∃ e old, e :: old <:+ log ∧ excuse k x log old e.cmd e.ans = some b.volume) :
    ¬Lifted b.volume found log := by
  intro hl
  cases hl with
  | silent he =>
    obtain ⟨old, hs⟩ := suffix_of_mem he
    exact (h.lifted hs hb ho).1 (hsilent old _)
  | down he hs =>
    obtain ⟨old, hsuf⟩ := suffix_of_mem he
    exact (h.lifted hsuf hb ho).2 (by simp [clears, hs])
  | lifted he =>
    obtain ⟨old, hsuf⟩ := suffix_of_mem he
    exact (h.lifted hsuf hb ho).2 rfl
  | deferred he =>
    obtain ⟨e, old, hsuf, hex⟩ := hfound he
    exact (h.lifted hsuf hb ho).1 hex

/-- Nothing a deleted snapshot's pass is done with is up. -/
theorem BarriersDone.not_barrierDown {w : Snapshot}
    (h : BarriersDone Γ T.raised .snapshot n x log) (hb : b ∈ T.raised)
    (ho : owns log .snapshot n x b) (hw : snapView x log = some w)
    (hvol : w.volumeName = b.volume)
    (hnamed : ∀ t v vol, (⟨t, .cachedVolume v, .ok (some vol)⟩ : Entry Nat Ans) ∈ log →
      vol.name = v) :
    ¬BarrierDown w log := by
  intro hdown
  cases hdown with
  | gone he =>
    obtain ⟨old, hs⟩ := suffix_of_mem he
    exact (h.lifted hs hb ho).1 (by simp [excuse, hw, snapExcuse, hvol])
  | unreplicated he hd =>
    obtain ⟨old, hs⟩ := suffix_of_mem he
    exact (h.lifted hs hb ho).1 (by simp [excuse, hw, snapExcuse, hvol, hd])
  | checked he hl =>
    rw [(hnamed _ _ _ he).trans hvol] at hl
    refine h.not_lifted hb ho (by simp [excuse, hw, snapExcuse]) ?_ hl
    rintro (⟨t, live, old, hs, hv, hlive, hsame⟩ | ⟨t, items, old, hs, hv, hnone⟩ |
      ⟨t, g, grp, old, hs, hv, hlive⟩)
    · exact ⟨_, old, hs, by simp [excuse, hw, snapExcuse, hlive, hsame, hv]⟩
    · exact ⟨_, old, hs, by simp [excuse, hw, snapExcuse, hnone, hv]⟩
    · exact ⟨_, old, hs, by simp [excuse, hw, snapExcuse, hlive, hv]⟩

/-- Nothing a deleted group's pass has visited is up. -/
theorem BarriersDone.not_swept
    (h : BarriersDone Γ T.raised .group n x log) (hb : b ∈ T.raised)
    (ho : owns log .group n x b) :
    ¬Lifted b.volume (FoundRound b.volume b.volume "" x log) log := by
  refine h.not_lifted hb ho (fun _ _ => rfl) ?_
  rintro (⟨t, items, old, hs, hv, hnone⟩ | ⟨t, g, grp, old, hs, hv, hlive⟩)
  · exact ⟨_, old, hs, by simp [excuse, groupExcuse, hnone, hv]⟩
  · exact ⟨_, old, hs, by simp [excuse, groupExcuse, hlive, hv]⟩

/-- No node whose drop lands has a barrier of the object up. -/
theorem not_dropped (h : BarriersKept Γ T) {a : Action} {q : Request}
    (hq : a.landing T.cluster.state = some q) (hf : fencedUpdate T.cluster.state q)
    (hb : b ∈ T.raised) : q.write ≠ b.kind.drop b.name b.node := by
  intro hw
  obtain ⟨m, hm, hu, -⟩ := h.guarded.held hb
  have hview := (metaView_of_fenced hf hw).trans hm
  have hg := h.obedient.landed hq
  obtain ⟨⟨n, t⟩, job, wr, log⟩ := q
  obtain ⟨node, volume, k, name, uid⟩ := b
  obtain rfl : wr = _ := hw
  cases k with
  | snapshot =>
    cases t with
    | group | sweep => cases hg
    | snapshot =>
      cases hg with
      | @finalizer w hsnap hd _ hdown =>
        have hl : LogOf T.cluster.state .snapshot _ job log :=
          logOf_of_landing (k := .snapshot) hq rfl
        have hmeta : metaView log job .snapshot = some w.objectMeta := by simp [metaView, hsnap]
        obtain rfl : w.name = job := h.ordered.name_of_view h.sane hl hmeta
        obtain rfl : w.objectMeta = m := Option.some.inj (hmeta.symm.trans hview)
        have hdel := deletes_iff.mpr ⟨_, hmeta, hd, _, hm, rfl⟩
        have ho := owns_iff.mpr ⟨rfl, rfl, rfl, _, hmeta, hu⟩
        obtain ⟨v, hv, w₀, hw₀, hu₀, hvol⟩ := h.guarded.source hb rfl
        obtain ⟨t, hread⟩ := snapView_mem hsnap
        obtain ⟨v', hv', hw'⟩ := h.reads.snap hl hread
        have hvol' := h.oneVolume v hv v' hv' w.name w₀ w hw₀ hw' (hu.trans hu₀.symm)
        exact (h.guarded.done hl hdel).not_barrierDown hb ho hsnap (hvol'.trans hvol)
          (fun _ _ _ => h.reads.volume hl) hdown
  | group =>
    cases t with
    | snapshot | sweep => cases hg
    | group =>
      cases hg with
      | @finalizer w old t hgroup hd hold hlifted =>
        have hl : LogOf T.cluster.state .group _ job log := logOf_of_landing (k := .group) hq rfl
        have hmeta : metaView log job .group = some w.objectMeta := by simp [metaView, hgroup]
        obtain rfl : w.name = job := h.ordered.name_of_view h.sane hl hmeta
        obtain rfl : w.objectMeta = m := Option.some.inj (hmeta.symm.trans hview)
        have hdel := deletes_iff.mpr ⟨_, hmeta, hd, _, hm, rfl⟩
        have ho := owns_iff.mpr ⟨rfl, rfl, rfl, _, hmeta, hu⟩
        have hdone := h.guarded.done hl hdel
        exact hdone.not_swept hb ho (hlifted _ (hdone.visited hold hb ho rfl hgroup))

/-- A volume whose barrier a pass has seen down, or has lifted, is not suspended. -/
theorem not_suspended_of_clears {Δ : Config} {s s₁ : State} {w : Worker} {job v : String}
    {o : Outcome} (h : Answered Δ s w job log c o r s₁)
    (hc : clears c r = some v) : (s₁.kernel w.node v).suspended = false := by
  cases h with
  | @failed c _ _ _ hf => cases c <;> cases hf <;> cases hc
  | @drbdStatus u _ obs =>
    by_cases hs : (s.kernel w.node u).suspended
    · simp [clears, statusOf, hs] at hc
    · simp only [clears, statusOf, hs] at hc
      cases hc
      simpa using hs
  | @resumeIo u _ r =>
    cases r with
    | error e => cases hc
    | ok =>
      cases hc
      simp [State.setSuspended]
  | _ => cases hc

theorem leavesNone_spec {raised : List Raise}
    (h : leavesNone Γ raised k n x log c r) (hb : b ∈ raised)
    (ho : owns log k n x b) : excuse k x log log c r ≠ some b.volume ∧
      ∀ y w, k = .group → c = .clearBarrierFails y → groupView x log = some w →
        b.volume ∈ GroupSnapshotReconciler.sweepVolumes (Γ.agent n) w (readMembers log) := by
  have h := List.all_eq_true.mp h b hb
  simp only [ho, Bool.not_true, Bool.false_or, Bool.and_eq_true] at h
  refine ⟨fun hex => ?_, ?_⟩
  · simp [hex] at h
  · rintro y w rfl rfl hw
    simpa [hw] using h.2

theorem leavesNone_of_deletionLifts
    {o : Outcome} {s₁ : State} {next : Ans c → AgentM Result}
    (hc : deletionLifts Γ T (.act (.reply ⟨n, k.task⟩ o)))
    (hp : T.cluster.state.pass ⟨n, k.task⟩ = some ⟨x, log, .ask c next⟩)
    (ha : answer (T.cluster.config Γ n) T.cluster.state ⟨n, k.task⟩ x log c o = some (r, s₁))
    (hd : deletes T.cluster.state k x log) : leavesNone Γ T.raised k n x log c r := by
  have hk : k.task.kind = some k := by cases k <;> rfl
  simpa [deletionLifts, hp, hk, hd, ha] using hc

/-- What the log of a pass says of its object is not changed by reading something else. -/
theorem excuse_of_other {t : Nat} {c' : Cmd} {r' : Ans c'}
    {view : PassLog} (h : c'.readsKind k = false) :
    excuse k x (⟨t, c', r'⟩ :: view) log c r = excuse k x view log c r := by
  cases k with
  | group => rfl
  | snapshot =>
    have hview : snapView x (⟨t, c', r'⟩ :: view) = snapView x view := by
      cases c' <;> first | rfl | cases h
    rw [excuse, excuse, hview]

theorem done_of_step (h : BarriersKept Γ T) (hs : T.cluster.Stepped Γ e T'.cluster)
    (hraised : T'.raised = T.raisedAfter e T'.cluster.state) (hc : keepsBarriers Γ T e)
    (hl : LogOf T'.cluster.state k n x log)
    (hd : deletes T'.cluster.state k x log) : BarriersDone Γ T'.raised k n x log := by
  rw [hraised]
  rcases hs.logOf_cases hl with hold | rfl | ⟨o, log₀, c, next, r, s₁, rfl, hp, rfl, ha, heq⟩
  · have hd₀ := hs.deletes_of_deletes h.ordered hold hd
    have hdone := h.guarded.done hold hd₀
    exact ⟨fun hsuf hb ho => hdone.lifted hsuf (mem_raised_of_owns h hold hd₀ hb ho) ho,
      fun hsuf hb ho => hdone.visited hsuf (mem_raised_of_owns h hold hd₀ hb ho) ho⟩
  · exact ⟨fun hsuf => (List.cons_ne_nil _ _ (List.suffix_nil.mp hsuf)).elim,
      fun hsuf => (List.cons_ne_nil _ _ (List.suffix_nil.mp hsuf)).elim⟩
  have hg := (h.obedient.pass hp).1
  by_cases hread : c.readsKind k
  · -- The object is the first thing a pass reads.
    obtain rfl : log₀ = [] := guard_read hg hread
    have honly : ∀ {e' old}, e' :: old <:+ [(⟨T.cluster.state.tick, c, r⟩ : Entry Nat Ans)] →
        e' = ⟨T.cluster.state.tick, c, r⟩ := fun hsuf =>
      List.mem_singleton.mp (hsuf.subset (.head _))
    refine ⟨fun hsuf _ _ => ?_, fun hsuf => ?_⟩
    · cases honly hsuf
      cases k <;> cases c <;> first
        | exact absurd hread Bool.false_ne_true
        | simp [excuse, snapExcuse, groupExcuse, clears]
    · cases honly hsuf
      cases k <;> cases hread
  · have hread : c.readsKind k = false := by simpa using hread
    have hview : metaView (⟨T.cluster.state.tick, c, r⟩ :: log₀) x k = metaView log₀ x k :=
      metaView_of_other hread
    have howns : ∀ {b}, owns (⟨T.cluster.state.tick, c, r⟩ :: log₀) k n x b →
        owns log₀ k n x b := fun ho => by rw [owns, hview] at ho; exact ho
    have hd₀ : deletes T.cluster.state k x log₀ := by
      refine hs.deletes_of_deletes h.ordered (.pass hp) ?_
      rw [deletes, hview] at hd
      exact hd
    have hleaves := leavesNone_of_deletionLifts (Bool.and_eq_true_iff.mp hc).2 hp ha hd₀
    have hdone := h.guarded.done (.pass hp) hd₀
    refine ⟨fun hsuf hb ho => ?_, @fun _ _ _ w _ hsuf hb ho hk hw => ?_⟩
    · have hmem := mem_raised_of_owns h (.pass hp) hd₀ hb (howns ho)
      rw [excuse_of_other hread]
      rcases List.suffix_cons_iff.mp hsuf with hnew | hsuf
      · cases hnew
        refine ⟨(leavesNone_spec hleaves hmem (howns ho)).1, fun hclear => ?_⟩
        -- The flag of the volume is down, and the note of the suspend-io gone with it.
        have hflag := (Tracked.mem_raisedAfter hb).2
        have hdown := not_suspended_of_clears (answered_of_answer ha) hclear
        rw [heq, (owns_iff.mp ho).1] at hflag
        exact Bool.noConfusion (hdown.symm.trans hflag)
      · exact hdone.lifted hsuf hmem (howns ho)
    · have hmem := mem_raised_of_owns h (.pass hp) hd₀ hb (howns ho)
      subst hk
      have hw₀ : groupView x log₀ = some w := by
        rw [← hw]; cases c <;> first | rfl | cases hread
      rcases List.suffix_cons_iff.mp hsuf with hnew | hsuf
      · cases hnew
        exact (leavesNone_spec hleaves hmem (howns ho)).2 _ _ rfl rfl hw₀
      · exact hdone.visited hsuf hmem (howns ho) rfl hw₀

theorem BarriersKept.held_of_step (h : BarriersKept Γ T) (hs : T.cluster.Stepped Γ e T'.cluster)
    (hc : keepsBarriers Γ T e) (hb : b ∈ T.raisedAfter e T'.cluster.state) :
    ∃ m, T'.cluster.state.api.objectMeta b.name b.kind = some m ∧ m.uid = b.uid ∧
      b.node ∈ m.finalizers := by
  rcases (Tracked.mem_raisedAfter hb).1 with hold | ⟨q, hq, hr⟩
  · obtain ⟨m, hm, hu, hn⟩ := h.guarded.held hold
    rcases hs.finalizer hm hn with ⟨m', hm', hu', hn'⟩ | ⟨a, q, -, hq, hf, hw⟩
    · exact ⟨m', hm', hu'.trans hu, hn'⟩
    · exact absurd hw (not_dropped h hq hf hold)
  · have hg : raisesGuarded T.cluster.state q := by
      have := (Bool.and_eq_true_iff.mp hc).1
      simpa [hq] using this
    simp only [raisesGuarded, hr, Option.all_some, Option.any_eq_true, Bool.and_eq_true,
      decide_eq_true_eq] at hg
    obtain ⟨m, hm, hu, hn⟩ := hg
    rcases hs.finalizer hm hn with ⟨m', hm', hu', hn'⟩ | ⟨a, q', rfl, hland, -⟩
    · exact ⟨m', hm', hu'.trans hu, hn'⟩
    · -- The step answers the suspend-io, and no write.
      obtain ⟨wr, hwr⟩ := command_of_landing hland hq
      rw [(Asked.raise_eq_some hr).1] at hwr
      cases hwr

theorem source_of_step (h : BarriersKept Γ T) (hs : T.cluster.Stepped Γ e T'.cluster)
    (hb : b ∈ T.raisedAfter e T'.cluster.state) (hk : b.kind = .snapshot) :
    ∃ v ∈ T'.cluster.state.versions, ∃ w, v.snap b.name = some w ∧ w.uid = b.uid ∧
      w.volumeName = b.volume := by
  have hmono := hs.versions_prefix.subset
  rcases (Tracked.mem_raisedAfter hb).1 with hold | ⟨q, hq, hr⟩
  · obtain ⟨v, hv, hw⟩ := h.guarded.source hold hk
    exact ⟨v, hmono hv, hw⟩
  · cases e with
    | act a =>
      obtain ⟨hcmd, hw, hj, m, hm, hu⟩ := Asked.raise_eq_some hr
      obtain ⟨next, hp⟩ := pass_of_command hq
      have hg := h.obedient.asked hq
      rw [hw, hj, hcmd, hk] at hg
      obtain ⟨w, vol, hreads, -, hvol⟩ := hg
      rw [hw, hj, hk] at hp
      obtain ⟨t, hread⟩ := snapView_mem hreads.snap_eq
      obtain ⟨v, hv, hsnap⟩ := h.reads.snap (.pass hp) hread
      obtain ⟨t', hread'⟩ := volView_mem hreads.vol_eq
      refine ⟨v, hmono hv, w, hsnap, ?_, ?_⟩
      · rw [hj, hk, metaView, hreads.snap_eq] at hm
        cases hm
        exact hu
      · rw [hvol]
        exact (h.reads.volume (.pass hp) hread').symm
    | _ => cases hq

theorem BarriersKept.step (h : BarriersKept Γ T) (hs : T.step Γ e = some T')
    (hc : keepsBarriers Γ T e) : BarriersKept Γ T' := by
  obtain ⟨hstep, hraised⟩ := Tracked.step_eq_some hs
  have hs := Cluster.stepped_of_step hstep
  exact {
    sane := h.sane.step hs
    ordered := h.ordered.step h.sane hs
    obedient := h.obedient.step hs
    oneVolume := OneVolume.step h.oneVolume h.sane hs
    reads := h.reads.step hs
    guarded := ⟨fun hb => h.held_of_step hs hc (hraised ▸ hb),
      fun hb hk => source_of_step h hs (hraised ▸ hb) hk,
      fun hl hd => done_of_step h hs hraised hc hl hd⟩ }

end Step

theorem Tracked.Start.barriersKept {T : Tracked} (h : T.Start) : BarriersKept Γ T where
  sane := h.cluster.sane
  ordered := h.cluster.ordered
  obedient := h.cluster.obedient
  oneVolume := h.cluster.oneVolume
  reads := h.cluster.trueReads
  guarded := ⟨fun hb => (by rw [h.raised] at hb; cases hb),
    fun hb => (by rw [h.raised] at hb; cases hb), fun hl => absurd hl h.cluster.not_logOf⟩

/-! ## Runs -/

/-- Every suspend-io that is up was asked for by a pass over an object that is still on the API
server and carries the finalizer of the node, as long as every step of the run keeps barriers from
outliving their objects. -/
theorem barriers_guarded {Γ : Config} {T₀ : Tracked} {N : ℕ} (h₀ : T₀.Start)
    (ρ : Run (Tracked.step Γ) T₀ N) (hc : ∀ i < N, keepsBarriers Γ (ρ.state i) (ρ.act i) = true)
    {i : ℕ} (hi : i ≤ N) {b : Raise} (hb : b ∈ (ρ.state i).raised) :
    ∃ m, (ρ.state i).cluster.state.api.objectMeta b.name b.kind = some m ∧ m.uid = b.uid ∧
      b.node ∈ m.finalizers :=
  (ρ.invariant (P := fun _ T => BarriersKept Γ T) h₀.barriersKept
    (fun j hj h => h.step (ρ.next j hj) (hc j hj)) hi).guarded.held hb

/-! ## Two runs -/

def Cluster.tracked (C : Cluster) : Tracked := ⟨C, []⟩

/-- Nodes `a` and `b` raise their barriers for `s`. It is deleted, and they lift the barriers and
let go of it in turn. -/
def roundCutShort : List Event :=
  .createSnap "s" "uid-s" "v" "" 0 :: (snapshotPass "a" 1 5 [.lands {} none] ++
    snapshotPass "b" 2 3 [.lands {} none]).map .act ++ .act (.deleteSnap "s") ::
    deletionPass "a" 4 4 ++ deletionPass "b" 5 4

theorem roundCutShort_possible : allSteps (Tracked.step twoReplicas) (keepsBarriers twoReplicas)
    volumeOnAB.tracked roundCutShort := by decide +kernel

def roundCutShortRun :
    Run (Tracked.step twoReplicas) volumeOnAB.tracked roundCutShort.length :=
  .ofActions _ _ _ roundCutShort roundCutShort_possible

/-- Node `a` has let go of the snapshot and `b` still has its barrier up; in the end both are gone.
-/
theorem barriers_guarded_roundCutShort :
    ⟨"b", "v", .snapshot, "s", "uid-s"⟩ ∈ (roundCutShortRun.state 33).raised ∧
    (∃ m, (roundCutShortRun.state 33).cluster.state.api.objectMeta "s" .snapshot = some m ∧
      m.uid = "uid-s" ∧ "b" ∈ m.finalizers) ∧
    (roundCutShortRun.state 44).cluster.state.api.snap "s" = none ∧
    (roundCutShortRun.state 44).raised = [] := by
  have hup : ⟨"b", "v", .snapshot, "s", "uid-s"⟩ ∈ (roundCutShortRun.state 33).raised := by
    decide +kernel
  exact ⟨hup, barriers_guarded ⟨volumeOnAB_start, rfl⟩ roundCutShortRun
    (fun i hi => Run.ofActions_spec roundCutShort_possible hi) (by decide) hup,
    by decide +kernel, by decide +kernel⟩

/-- The volume `v` on nodes `a` and `b`, used on the client `d`. -/
def volumeOnABWithClient : Cluster where
  state := .blank twoReplicasAndClient [] [] [("d", "v")]
  specs := [twoReplicasAndClient.spec]
  volCache _ := 0

/-- The client opens a round and the snapshot is deleted; `a` and `b`, which have raised no barrier,
let go of it. -/
def clientBarrier : List Event :=
  .createSnap "s" "uid-s" "v" "" 0 :: (snapshotPass "d" 1 5 [.lands {} none]).map .act ++
    .act (.deleteSnap "s") :: deletionPass "a" 3 1 ++ deletionPass "b" 4 1

theorem clientBarrier_possible : allSteps (Tracked.step twoReplicasAndClient) (fun _ _ => true)
    volumeOnABWithClient.tracked clientBarrier := by decide +kernel

def clientBarrierRun :
    Run (Tracked.step twoReplicasAndClient) volumeOnABWithClient.tracked clientBarrier.length :=
  .ofActions _ _ _ clientBarrier clientBarrier_possible

/-- The snapshot is gone while the barrier its round raised on the client is up. -/
theorem barrier_outlives_object : volumeOnABWithClient.tracked.Start ∧
    (clientBarrierRun.state clientBarrier.length).cluster.state.api.snap "s" = none ∧
    ⟨"d", "v", .snapshot, "s", "uid-s"⟩ ∈ (clientBarrierRun.state clientBarrier.length).raised ∧
    ((clientBarrierRun.state clientBarrier.length).cluster.state.kernel "d" "v").suspended =
      true := by
  refine ⟨⟨⟨rfl, rfl, fun _ => rfl, rfl, fun _ => rfl, fun _ _ => rfl⟩, rfl⟩, ?_, ?_, ?_⟩ <;>
    decide +kernel

end Miroir
