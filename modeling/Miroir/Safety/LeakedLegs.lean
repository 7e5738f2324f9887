import Miroir.Cluster.Dynamic
import Miroir.Safety.SlotFence

/-!
# No leg without its object

A node's finalizer is to keep a snapshot on the API server until the node has deleted its leg. The
finalizers are those of the replicas at creation, and a deletion pass sweeps only where the volume
is still there and the node's leg of it has a disk. So a leg outlives its object where it is cut
without the finalizer of its node, by a group's round behind the back of the deletion pass, or where
the volume goes first. `keepsLegs` excludes these and nothing else; `legs_guarded` is the invariant
that remains, and the two runs at the end are of a replica that came late and of a volume that went
early.
-/

namespace Miroir

open Process Cluster

/-! ## The specification of the workers -/

variable {log : PassLog}

theorem mem_pools_of_backendFor {a : Agent} {vol : Volume} {pool : String}
    (h : backendFor a vol = .ok pool) : pool ∈ a.pools := by
  simp only [backendFor] at h
  split at h
  · exact Except.ok.inj h ▸ ‹_›
  · cases h

/-- A leg is cut in a pool of its node, by a group's pass or by a pass over the live snapshot. -/
theorem guard_snapshot {Γ : Config} {w : Worker} {job pool v y : String}
    (h : guard Γ w job log (.snapshot pool v y)) : pool ∈ Γ.pools w.node ∧
      (w.task = .group ∨ w.task = .snapshot ∧
        ∃ u, snapView job log = some u ∧ u.deleting = false ∧ y = u.name) := by
  rcases guard_cases h with ⟨ht, u, vol, -, hy, hcut⟩ |
    ⟨ht, t, l, -, u, ms, m, -, -, -, -, hb⟩ | ⟨-, h⟩
  · rcases hcut with ⟨hr, -, hd, hb⟩ | ⟨t, l, rfl, hc⟩
    · exact ⟨mem_pools_of_backendFor hb, .inr ⟨ht, u, hr.snap_eq, hd, hy⟩⟩
    · exact ⟨mem_pools_of_backendFor hc.backend, .inr ⟨ht, u, hc.snap_eq, hc.kept, hy⟩⟩
  · exact ⟨mem_pools_of_backendFor hb, .inl ht⟩
  · exact h.elim

/-- A snapshot's finalizer is dropped by a pass over the deleted snapshot that has swept. -/
theorem guard_drop {Γ : Config} {w : Worker} {job y node : String}
    (h : guard Γ w job log (.write (.dropSnapFinalizer y node))) :
    w.task = .snapshot ∧ node = w.node ∧ ∃ u, snapView job log = some u ∧ u.deleting ∧
      y = u.name ∧ Swept (Γ.agent w.node) u log := by
  rcases guard_write h with ⟨ht, hw⟩ | ⟨-, hw⟩ <;> cases hw
  exact ⟨ht, rfl, _, ‹_›, ‹_›, rfl, ‹_›⟩

/-! ## What keeps a leg from outliving its object -/

/-- The node is about to let go of the snapshot. -/
def releasing (s : State) (n x : String) : Bool :=
  ((s.pass ⟨n, .snapshot⟩).any fun p => p.job = x && deletes s .snapshot x p.log) ||
    s.inflight.any fun q =>
      q.worker = ⟨n, .snapshot⟩ && q.job = x && deletes s .snapshot x q.log

/-- A leg is cut only under the finalizer of its node, and by a group only while the node is not
about to let go of the snapshot. -/
def cutsGuarded (s : State) (q : Asked) : Bool :=
  match q.cmd with
  | .snapshot _ _ x =>
    (s.api.objectMeta x .snapshot).any (fun m => q.worker.node ∈ m.finalizers) &&
      (q.worker.task = .snapshot || !releasing s q.worker.node x)
  | _ => true

/-- The node holds no leg of the snapshot. -/
def legless (Γ : Config) (s : State) (n x : String) : Bool :=
  (Γ.pools n).all fun pool => !(s.legs ⟨n, pool, x⟩).present

/-- The volume is gone, or its leg on the node has no disk. -/
def diskGone (n : String) (vol : Option Volume) : Bool := vol.all fun vol => disklessOn vol n

/-- A pass over a deleted snapshot finds the disk of a node that holds a leg. -/
def findsDisk (Γ : Config) (C : Cluster) : Action → Bool
  | .reply w (.volume st) =>
    match C.state.pass w with
    | some ⟨x, log, .ask (.cachedVolume v) _⟩ =>
      w.task ≠ .snapshot || !deletes C.state .snapshot x log ||
        !diskGone w.node (st.bind fun st => ((C.config Γ w.node).spec v).map fun spec =>
          ⟨v, spec, st⟩) ||
        legless Γ C.state w.node x
    | _ => true
  | _ => true

/-- The step keeps legs from outliving their objects. -/
def keepsLegs (Γ : Config) (C : Cluster) : Event → Bool
  | .act a => (a.command C.state).all (cutsGuarded C.state) && findsDisk Γ C a
  | _ => true

/-! ## The invariant -/

/-- What the worker has swept is not there. -/
structure Clean (Γ : Config) (s : State) (n x : String) (log : PassLog) : Prop where
  pool : ∀ {t pool v}, (⟨t, .deleteSnapshot pool v x, .ok ()⟩ : Entry Nat Ans) ∈ log →
    (s.legs ⟨n, pool, x⟩).present = false
  disk : ∀ {t v vol}, (⟨t, .cachedVolume v, .ok vol⟩ : Entry Nat Ans) ∈ log →
    diskGone n vol = true → legless Γ s n x = true

structure LegsGuarded (Γ : Config) (s : State) : Prop where
  pools : ∀ {k : LegKey}, (s.legs k).present = true → k.pool ∈ Γ.pools k.node
  held : ∀ {k : LegKey}, (s.legs k).present = true →
    ∃ m, s.api.objectMeta k.snap .snapshot = some m ∧ k.node ∈ m.finalizers
  clean : ∀ {n x log}, LogOf s .snapshot n x log → deletes s .snapshot x log = true →
    Clean Γ s n x log

variable {Γ : Config} {C C' : Cluster} {e : Event}

theorem Clean.of_legs {s s' : State} {n x : String} (h : Clean Γ s n x log)
    (hl : ∀ pool, (s.legs ⟨n, pool, x⟩).present = false → (s'.legs ⟨n, pool, x⟩).present = false) :
    Clean Γ s' n x log where
  pool hm := hl _ (h.pool hm)
  disk hm hg := by
    have := h.disk hm hg
    simp only [legless, List.all_eq_true, Bool.not_eq_true'] at this ⊢
    exact fun pool hp => hl pool (this pool hp)

theorem Cluster.Start.legsGuarded (h : C.Start) : LegsGuarded Γ C.state where
  pools hk := by rw [h.legs] at hk; cases hk
  held hk := by rw [h.legs] at hk; cases hk
  clean hl := by
    cases hl with
    | pass hp => rw [h.pass] at hp; cases hp
    | sent hq => rw [h.inflight] at hq; cases hq

section Step

variable (hsane : Sane C.state) (hord : Ordered C.state) (hobey : Obedient Γ C.state)

variable {n pool x : String} {log : PassLog}

theorem releasing_of_deletes {s : State}
    (hl : LogOf s .snapshot n x log) (hd : deletes s .snapshot x log) :
    releasing s n x := by
  rw [releasing, Bool.or_eq_true]
  cases hl with
  | pass hp =>
    left
    rw [show s.pass ⟨n, .snapshot⟩ = _ from hp]
    simp [hd]
  | sent hq =>
    refine .inr (List.any_eq_true.mpr ⟨_, hq, ?_⟩)
    simp [hd, Kind.task]

include hsane hord hobey in
/-- A node that cuts a leg is not about to let go of the snapshot. -/
theorem not_deletes_of_cut {a : Action} {q : Asked} {v : String}
    (hq : a.command C.state = some q) (hcmd : q.cmd = .snapshot pool v x)
    (hc : cutsGuarded C.state q) (hl : LogOf C.state .snapshot q.worker.node x log) :
    ¬deletes C.state .snapshot x log := by
  obtain ⟨w, job, qlog, c⟩ := q
  subst hcmd
  obtain ⟨next, hp⟩ := pass_of_command hq
  simp only [cutsGuarded, Bool.and_eq_true, Bool.or_eq_true, decide_eq_true_eq,
    Bool.not_eq_true'] at hc
  rcases (guard_snapshot (hobey.asked hq)).2 with ht | ⟨ht, u, hu, hd, hy⟩
  · intro hd
    have hr := hc.2.resolve_left fun h => by cases ht.symm.trans h
    exact Bool.noConfusion (hr.symm.trans (releasing_of_deletes hl hd))
  · obtain ⟨n, t⟩ := w
    obtain rfl : t = .snapshot := ht
    have hm : metaView qlog job .snapshot = some u.objectMeta := by simp [metaView, hu]
    have hname : u.name = job := hord.name_of_view hsane (.pass hp) hm
    exact hord.not_deletes (k := .snapshot) hp (hname.symm.trans hy.symm) hm hd hl

include hsane hord hobey in
/-- A leg that is not there stays away while its node is about to let go of the snapshot. -/
theorem absent_of_step (hs : C.Stepped Γ e C') (hc : keepsLegs Γ C e)
    (hl : LogOf C.state .snapshot n x log)
    (hd : deletes C.state .snapshot x log)
    (ha : (C.state.legs ⟨n, pool, x⟩).present = false) :
    (C'.state.legs ⟨n, pool, x⟩).present = false := by
  cases hs with
  | volumes => exact ha
  | create => exact ha
  | @act a s' hf h =>
    rcases (Miroir.stepped_of_step h).leg_cases ⟨n, pool, x⟩ with
      heq | ⟨q, hq, hn, v, ⟨-, hleg⟩ | ⟨hcmd, -⟩⟩
    · rw [heq, ha]
    · rw [hleg]; rfl
    · simp only [keepsLegs, Bool.and_eq_true, hq, Option.all_some] at hc
      exact absurd hd (not_deletes_of_cut hsane hord hobey hq hcmd hc.1 (hn ▸ hl))

/-- A pass over a deleted snapshot that reads its volume and finds no disk has no leg. -/
theorem legless_of_findsDisk {v : String} {o : Outcome} {vol : Option Volume}
    {s₁ : State} {next : Ans (.cachedVolume v) → AgentM Result}
    (hc : findsDisk Γ C (.reply ⟨n, .snapshot⟩ o))
    (hp : C.state.pass ⟨n, .snapshot⟩ = some ⟨x, log, .ask (.cachedVolume v) next⟩)
    (ha : answer (C.config Γ n) C.state ⟨n, .snapshot⟩ x log (.cachedVolume v) o =
      some (.ok vol, s₁))
    (hd : deletes C.state .snapshot x log) (hg : diskGone n vol) :
    legless Γ C.state n x := by
  cases o with
  | volume st =>
    simp only [answer, Option.some.injEq, Prod.mk.injEq, Except.ok.injEq] at ha
    simp only [findsDisk, hp, ha.1, hd, hg] at hc
    simpa using hc
  | fail e b => cases b <;> simp [answer] at ha
  | _ => simp [answer] at ha

include hsane hord hobey in
theorem clean_of_step (hi : LegsGuarded Γ C.state) (hs : C.Stepped Γ e C')
    (hc : keepsLegs Γ C e)
    (hl : LogOf C'.state .snapshot n x log) (hd : deletes C'.state .snapshot x log) :
    Clean Γ C'.state n x log := by
  have hkept : ∀ log, LogOf C.state .snapshot n x log →
      deletes C'.state .snapshot x log → deletes C.state .snapshot x log ∧
        ∀ pool, (C.state.legs ⟨n, pool, x⟩).present = false →
          (C'.state.legs ⟨n, pool, x⟩).present = false := by
    intro log hl hd
    have hd := hs.deletes_of_deletes hord hl hd
    exact ⟨hd, fun pool => absent_of_step hsane hord hobey hs hc hl hd⟩
  rcases hs.logOf_cases hl with hold | rfl | ⟨o, log₀, c, next, r, s₁, rfl, hp, rfl, ha, heq⟩
  · obtain ⟨hd₀, hlegs⟩ := hkept log hold hd
    exact (hi.clean hold hd₀).of_legs hlegs
  · exact ⟨fun hm => (by cases hm), fun hm => (by cases hm)⟩
  have hg : snapGuard (Γ.agent n) x log₀ c := (hobey.pass hp).1
  have hans := answered_of_answer ha
  by_cases hread : ∃ y, c = .cachedSnapshot y
  · -- The snapshot is the first thing a pass reads.
    obtain ⟨y, rfl⟩ := hread
    obtain rfl : log₀ = [] := hg
    refine ⟨fun hm => ?_, fun hm => ?_⟩ <;> cases List.mem_singleton.mp hm
  have hview : metaView (⟨C.state.tick, c, r⟩ :: log₀) x .snapshot = metaView log₀ x .snapshot := by
    cases c with
    | cachedSnapshot y => exact absurd ⟨y, rfl⟩ hread
    | _ => rfl
  obtain ⟨hd₀, hlegs⟩ := hkept log₀ (.pass hp) (by rw [← hd, deletes, deletes, hview])
  have hold := (hi.clean (.pass hp) hd₀).of_legs hlegs
  refine ⟨fun hm => ?_, fun hm hgone => ?_⟩
  · rcases List.mem_cons.mp hm with hnew | hm
    · cases hnew
      cases hans with
      | failed hf => cases hf
      | deleteSnapshot => rw [heq]; simp [State.setPass, State.setLeg, Leg.delete]
    · exact hold.pool hm
  · rcases List.mem_cons.mp hm with hnew | hm
    · cases hnew
      simp only [keepsLegs, Bool.and_eq_true] at hc
      have hnone := legless_of_findsDisk hc.2 hp ha hd₀ hgone
      simp only [legless, List.all_eq_true, Bool.not_eq_true'] at hnone ⊢
      exact fun pool hpool => hlegs pool (hnone pool hpool)
    · exact hold.disk hm hgone

include hsane hord hobey in
/-- A node whose drop lands holds no leg. -/
theorem absent_of_drop (hi : LegsGuarded Γ C.state) {a : Action} {q : Request}
    (hq : a.landing C.state = some q) (hw : q.write = .dropSnapFinalizer x n)
    (hf : fencedUpdate C.state q) (hpool : pool ∈ Γ.pools n) :
    (C.state.legs ⟨n, pool, x⟩).present = false := by
  obtain ⟨⟨n', t⟩, job, wr, log⟩ := q
  obtain rfl : wr = _ := hw
  obtain ⟨ht, rfl, u, hu, hd, rfl, hswept⟩ := guard_drop (hobey.landed hq)
  obtain rfl : t = .snapshot := ht
  have hl : LogOf C.state .snapshot n job log := logOf_of_landing (k := .snapshot) hq rfl
  have hm : metaView log job .snapshot = some u.objectMeta := by simp [metaView, hu]
  have hname : u.name = job := hord.name_of_view hsane hl hm
  have hview := metaView_of_fenced (k := .snapshot) hf rfl
  rw [hname] at hview ⊢
  have hdel : deletes C.state .snapshot job log :=
    deletes_iff.mpr ⟨u.objectMeta, hm, hd, u.objectMeta, hview ▸ hm, rfl⟩
  have hclean := hi.clean hl hdel
  have hlegless : legless Γ C.state n job → (C.state.legs ⟨n, pool, job⟩).present = false := by
    intro h
    simp only [legless, List.all_eq_true, Bool.not_eq_true'] at h
    exact h pool hpool
  cases hswept with
  | gone h => exact hlegless (hclean.disk h rfl)
  | diskless h hdiskless => exact hlegless (hclean.disk h hdiskless)
  | pools h =>
    obtain ⟨t, v, hm⟩ := h pool hpool
    exact hclean.pool (hname ▸ hm)

/-- A leg after a step was there before, or was cut by it. -/
theorem leg_of_step (hs : C.Stepped Γ e C') {k : LegKey} (hk : (C'.state.legs k).present) :
    (C.state.legs k).present ∨ ∃ a q v, e = .act a ∧ a.command C.state = some q ∧
      q.worker.node = k.node ∧ q.cmd = .snapshot k.pool v k.snap := by
  cases hs with
  | volumes => exact .inl hk
  | create => exact .inl hk
  | @act a s' hf h =>
    rcases (Miroir.stepped_of_step h).leg_cases k with heq | ⟨q, hq, hn, v, ⟨-, hleg⟩ | ⟨hcmd, -⟩⟩
    · exact .inl (heq ▸ hk)
    · rw [hleg] at hk
      cases hk
    · exact .inr ⟨a, q, v, rfl, hq, hn, hcmd⟩

include hsane hord hobey in
theorem leg_held_of_step (hi : LegsGuarded Γ C.state) (hs : C.Stepped Γ e C')
    (hc : keepsLegs Γ C e) {k : LegKey} (hk : (C'.state.legs k).present) :
    ∃ m, C'.state.api.objectMeta k.snap .snapshot = some m ∧ k.node ∈ m.finalizers := by
  rcases leg_of_step hs hk with hold | ⟨a, q, v, rfl, hq, hn, hcmd⟩
  · obtain ⟨m, hm, hfin⟩ := hi.held hold
    rcases hs.finalizer hm hfin with ⟨m', hm', -, hfin'⟩ | ⟨a, q, -, hq, hf, hw⟩
    · exact ⟨m', hm', hfin'⟩
    · have := absent_of_drop hsane hord hobey hi hq hw hf (hi.pools hold)
      exact Bool.noConfusion (this.symm.trans hold)
  · simp only [keepsLegs, Bool.and_eq_true, hq, Option.all_some, cutsGuarded, hcmd] at hc
    obtain ⟨m, hm, hfin⟩ := (Option.any_eq_true _ _).mp hc.1.1
    rcases hs.finalizer hm (hn ▸ of_decide_eq_true hfin) with ⟨m', hm', -, hfin'⟩ |
      ⟨a', q', ha, hland, -⟩
    · exact ⟨m', hm', hfin'⟩
    · -- The step answers the cut, and no write.
      cases ha
      obtain ⟨wr, hwr⟩ := command_of_landing hland hq
      cases hcmd.symm.trans hwr

theorem LegsGuarded.step (hi : LegsGuarded Γ C.state) (hsane : Sane C.state)
    (hord : Ordered C.state) (hobey : Obedient Γ C.state) (hs : C.Stepped Γ e C')
    (hc : keepsLegs Γ C e) : LegsGuarded Γ C'.state where
  clean := clean_of_step hsane hord hobey hi hs hc
  held := leg_held_of_step hsane hord hobey hi hs hc
  pools := by
    intro k hk
    rcases leg_of_step hs hk with hold | ⟨a, q, v, -, hq, hn, hcmd⟩
    · exact hi.pools hold
    · exact hn ▸ (guard_snapshot (hcmd ▸ hobey.asked hq)).1

end Step

/-! ## Runs -/

/-- Every leg a backend holds is of a snapshot on the API server that carries the finalizer of its
node, as long as every step of the run keeps legs from outliving their objects. -/
theorem legs_guarded {C₀ : Cluster} {N : ℕ} (h₀ : C₀.Start) (ρ : Run (Cluster.step Γ) C₀ N)
    (hc : ∀ i < N, keepsLegs Γ (ρ.state i) (ρ.act i) = true) {i : ℕ} (hi : i ≤ N) {k : LegKey}
    (hk : ((ρ.state i).state.legs k).present = true) :
    ∃ w, (ρ.state i).state.api.snap k.snap = some w ∧ k.node ∈ w.finalizers := by
  have hinv : Sane (ρ.state i).state ∧ Ordered (ρ.state i).state ∧
      Obedient Γ (ρ.state i).state ∧ LegsGuarded Γ (ρ.state i).state := by
    refine ρ.invariant (P := fun _ C => Sane C.state ∧ Ordered C.state ∧
      Obedient Γ C.state ∧ LegsGuarded Γ C.state)
      ⟨h₀.sane, h₀.ordered, h₀.obedient, h₀.legsGuarded⟩ (fun j hj h => ?_) hi
    obtain ⟨hsane, hord, hobey, hlegs⟩ := h
    have hs := Cluster.stepped_of_step (ρ.next j hj)
    exact ⟨hsane.step hs, hord.step hsane hs, hobey.step hs,
      hlegs.step hsane hord hobey hs (hc j hj)⟩
  obtain ⟨m, hm, hfin⟩ := hinv.2.2.2.held hk
  obtain ⟨w, hw, rfl⟩ := Option.map_eq_some_iff.mp hm
  exact ⟨w, hw, hfin⟩

/-! ## Three runs -/

/-- The volume `v` on nodes `a` and `b`, with `a` Primary and no snapshot yet. -/
def volumeOnAB : Cluster where
  state := .blank twoReplicas [] [] [("a", "v")]
  specs := [twoReplicas.spec]
  volCache _ := 0

theorem volumeOnAB_start : volumeOnAB.Start :=
  ⟨rfl, rfl, fun _ => rfl, rfl, fun _ => rfl, fun _ _ => rfl⟩

/-- Nodes `a` and `b` cut their legs of `s`, and `a` publishes the snapshot. -/
def cutOnAB : List Event :=
  .createSnap "s" "uid-s" "v" "" 0 :: (snapshotPass "a" 1 5 [.lands {} none] ++
    snapshotPass "b" 2 3 [.lands {} none] ++ snapshotPass "a" 3 6 [.lands {} none] ++
    snapshotPass "b" 4 6 [.lands {} none] ++ snapshotPass "a" 5 4 [.lands {} none]).map .act

/-- A pass on `n` over the deleted snapshot as version `i` shows it, with `k` successes before its
finalizer goes. -/
def deletionPass (n : String) (i k : Nat) : List Event :=
  (Worker.pass ⟨n, .snapshot⟩ "s" ([.version i, .volume (some .up), .ok, .status .up] ++
    List.replicate k .ok ++ [.lands {} none])).map .act

/-- The snapshot is deleted, and the nodes let go of it in turn. -/
def cutAndDelete : List Event :=
  cutOnAB ++ .act (.deleteSnap "s") :: deletionPass "a" 7 1 ++ deletionPass "b" 8 4

theorem cutAndDelete_possible : allSteps (Cluster.step twoReplicas) (keepsLegs twoReplicas)
    volumeOnAB cutAndDelete := by decide +kernel

def cutAndDeleteRun : Run (Cluster.step twoReplicas) volumeOnAB cutAndDelete.length :=
  .ofActions _ _ _ cutAndDelete cutAndDelete_possible

/-- Node `a` has let go of the snapshot and `b` still has its leg; in the end both are gone. -/
theorem legs_guarded_cutAndDelete :
    ((cutAndDeleteRun.state 64).state.legs ⟨"b", "default", "s"⟩).present = true ∧
    (∃ w, (cutAndDeleteRun.state 64).state.api.snap "s" = some w ∧ "b" ∈ w.finalizers) ∧
    (cutAndDeleteRun.state 75).state.api.snap "s" = none ∧
    ((cutAndDeleteRun.state 75).state.legs ⟨"b", "default", "s"⟩).present = false := by
  have hleg : ((cutAndDeleteRun.state 64).state.legs ⟨"b", "default", "s"⟩).present = true := by
    decide +kernel
  exact ⟨hleg, legs_guarded volumeOnAB_start cutAndDeleteRun
    (fun i hi => Run.ofActions_spec cutAndDelete_possible hi) (by decide) hleg,
    by decide +kernel, by decide +kernel⟩

/-- The volume with a replica on `c` besides. -/
def onABC : Option VolumeSpec :=
  (twoReplicas.spec "v").map fun spec => { spec with
    replicas := spec.replicas ++
      [{ node := "c", nodeID := 2, address := "10.0.0.3", fullSync := true }] }

/-- The replica on `c` is added once `s` is there. All three nodes cut their legs, `a` publishes the
snapshot, it is deleted, and `a` and `b` let go of it. -/
def lateReplica : List Event :=
  [.createSnap "s" "uid-s" "v" "" 0, .setVolume "v" onABC, .observe "a" 1, .observe "b" 1,
    .observe "c" 1] ++
  (snapshotPass "a" 1 5 [.lands {} none] ++ snapshotPass "b" 2 3 [.lands {} none] ++
    snapshotPass "c" 3 3 [.lands {} none] ++ snapshotPass "a" 4 6 [.lands {} none] ++
    snapshotPass "b" 5 6 [.lands {} none] ++ snapshotPass "c" 6 6 [.lands {} none] ++
    snapshotPass "a" 7 4 [.lands {} none]).map .act ++
  .act (.deleteSnap "s") :: deletionPass "a" 9 1 ++ deletionPass "b" 10 4

theorem lateReplica_possible : allSteps (Cluster.step twoReplicas) (fun _ _ => true)
    volumeOnAB lateReplica := by decide +kernel

def lateReplicaRun : Run (Cluster.step twoReplicas) volumeOnAB lateReplica.length :=
  .ofActions _ _ _ lateReplica lateReplica_possible

/-- A pass on `n` over the deleted snapshot that does not find its volume. -/
def releasePass (n : String) (i : Nat) : List Event :=
  (Worker.pass ⟨n, .snapshot⟩ "s" [.version i, .volume (some .up), .ok, .lands {} none]).map .act

/-- The volume is deleted before its snapshot. -/
def earlyVolume : List Event :=
  cutOnAB ++ [.setVolume "v" none, .observe "a" 1, .observe "b" 1, .act (.deleteSnap "s")] ++
    releasePass "a" 7 ++ releasePass "b" 8

theorem earlyVolume_possible : allSteps (Cluster.step twoReplicas) (fun _ _ => true)
    volumeOnAB earlyVolume := by decide +kernel

def earlyVolumeRun : Run (Cluster.step twoReplicas) volumeOnAB earlyVolume.length :=
  .ofActions _ _ _ earlyVolume earlyVolume_possible

/-- The snapshot is gone while the replica that came after its creation holds a leg; and it is gone
while both replicas hold theirs, once the volume went first. -/
theorem legs_outlive_object : volumeOnAB.Start ∧
    ((lateReplicaRun.state lateReplica.length).state.api.snap "s" = none ∧
      ((lateReplicaRun.state lateReplica.length).state.legs ⟨"c", "default", "s"⟩).present = true) ∧
    (earlyVolumeRun.state earlyVolume.length).state.api.snap "s" = none ∧
      ((earlyVolumeRun.state earlyVolume.length).state.legs ⟨"a", "default", "s"⟩).present = true ∧
      ((earlyVolumeRun.state earlyVolume.length).state.legs ⟨"b", "default", "s"⟩).present =
        true := by
  refine ⟨volumeOnAB_start, ⟨?_, ?_⟩, ?_, ?_, ?_⟩ <;> decide +kernel

end Miroir
