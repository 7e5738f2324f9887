import Miroir.Cluster.Rounds

/-!
# Acting on an up-to-date view

A pass decides on the copy of its object it read through its cache and acts on the decision later.
Here is what it means that the copy is still right at the moment of the action: `SnapAgrees` and
`GroupAgrees` compare what the phases of a round look at, for one node, with what the API server
holds now. `cutsFresh`, `writesFresh` and `resumesFresh` ask this of a step that touches a leg,
lands a status write or lifts a barrier. The source checks none of them; runs in which every step
meets them are the runs in which the protocol keeps its promises.
-/

namespace Miroir

open Process

/-- For node `n`, the round of a snapshot is as it was read. -/
structure SnapAgrees (n : String) (view live : Snapshot) : Prop where
  deleting : view.deleting = live.deleting
  ioSuspended : view.status.ioSuspended = live.status.ioSuspended
  suspendedAt : view.status.suspendedAt = live.status.suspendedAt
  round : view.status.round = live.status.round
  own : view.status.perNode.lookup n = live.status.perNode.lookup n

instance (n : String) (view live : Snapshot) : Decidable (SnapAgrees n view live) :=
  decidable_of_iff (view.deleting = live.deleting ∧
      view.status.ioSuspended = live.status.ioSuspended ∧
      view.status.suspendedAt = live.status.suspendedAt ∧ view.status.round = live.status.round ∧
      view.status.perNode.lookup n = live.status.perNode.lookup n)
    ⟨fun ⟨h₁, h₂, h₃, h₄, h₅⟩ => ⟨h₁, h₂, h₃, h₄, h₅⟩,
      fun h => ⟨h.deleting, h.ioSuspended, h.suspendedAt, h.round, h.own⟩⟩

/-- Two maps agree on the keys in `ks` and on all others. -/
theorem lookup_eq_of_keys {κ : Type} [DecidableEq κ] {m m' : Slots κ} {p : κ → Prop}
    (h : ∀ k ∈ m.keys ++ m'.keys, p k → m.lookup k = m'.lookup k) (k : κ) (hk : p k) :
    m.lookup k = m'.lookup k := by
  by_cases hm : k ∈ m.keys ++ m'.keys
  · exact h k hm hk
  · rw [List.mem_append, not_or, ← AList.mem_keys, ← AList.mem_keys] at hm
    rw [AList.lookup_eq_none.mpr hm.1, AList.lookup_eq_none.mpr hm.2]

/-- For node `n`, the round of a group is as it was read. -/
structure GroupAgrees (n : String) (view live : SnapshotGroup) : Prop where
  deleting : view.deleting = live.deleting
  ioSuspended : view.status.ioSuspended = live.status.ioSuspended
  suspendedAt : view.status.suspendedAt = live.status.suspendedAt
  round : view.status.round = live.status.round
  own : ∀ k : SlotKey, k.2 = n → view.status.perLeg.lookup k = live.status.perLeg.lookup k

instance (n : String) (view live : SnapshotGroup) : Decidable (GroupAgrees n view live) :=
  decidable_of_iff (view.deleting = live.deleting ∧
      view.status.ioSuspended = live.status.ioSuspended ∧
      view.status.suspendedAt = live.status.suspendedAt ∧ view.status.round = live.status.round ∧
      ∀ k ∈ view.status.perLeg.keys ++ live.status.perLeg.keys, k.2 = n →
        view.status.perLeg.lookup k = live.status.perLeg.lookup k)
    ⟨fun ⟨h₁, h₂, h₃, h₄, h₅⟩ => ⟨h₁, h₂, h₃, h₄, lookup_eq_of_keys h₅⟩,
      fun h => ⟨h.deleting, h.ioSuspended, h.suspendedAt, h.round, fun k _ => h.own k⟩⟩

/-! ## The object of a pass -/

/-- The round of the pass's object is, for its node, as the pass read it. -/
def ownFresh (s : State) (k : Worker) (job : String) (log : PassLog) : Bool :=
  match k.task with
  | .snapshot => (snapView job log).any fun v => (s.api.snap job).any fun u => SnapAgrees k.node v u
  | .group => (groupView job log).any fun v => (s.api.group job).any fun u => GroupAgrees k.node v u
  | .sweep => true

/-- The whole status of the pass's object is as the pass read it. -/
def wholeFresh (s : State) (k : Worker) (job : String) (log : PassLog) : Bool :=
  match k.task with
  | .snapshot => (snapView job log).any fun v => (s.api.snap job).any fun u =>
      v.deleting = u.deleting && v.status = u.status
  | .group => (groupView job log).any fun v => (s.api.group job).any fun u =>
      v.deleting = u.deleting && v.status = u.status
  | .sweep => true

section Reflect

variable {s : State} {k : Worker} {job : String} {log : PassLog}

theorem ownFresh_snapshot (h : ownFresh s k job log) (ht : k.task = .snapshot)
    {v : Snapshot} (hv : snapView job log = some v) :
    ∃ u, s.api.snap job = some u ∧ SnapAgrees k.node v u := by
  simpa [ownFresh, ht, hv, Option.any_eq_true] using h

theorem ownFresh_group (h : ownFresh s k job log) (ht : k.task = .group)
    {v : SnapshotGroup} (hv : groupView job log = some v) :
    ∃ u, s.api.group job = some u ∧ GroupAgrees k.node v u := by
  simpa [ownFresh, ht, hv, Option.any_eq_true] using h

theorem wholeFresh_snapshot (h : wholeFresh s k job log) (ht : k.task = .snapshot)
    {v : Snapshot} (hv : snapView job log = some v) :
    ∃ u, s.api.snap job = some u ∧ v.deleting = u.deleting ∧ v.status = u.status := by
  simpa [wholeFresh, ht, hv, Option.any_eq_true] using h

theorem wholeFresh_group (h : wholeFresh s k job log) (ht : k.task = .group)
    {v : SnapshotGroup} (hv : groupView job log = some v) :
    ∃ u, s.api.group job = some u ∧ v.deleting = u.deleting ∧ v.status = u.status := by
  simpa [wholeFresh, ht, hv, Option.any_eq_true] using h

end Reflect

/-! ## Nothing left to raise -/

/-- A node whose slots are up on the API server, as it has read them, has nothing left to raise. -/
theorem GroupPass.not_unraised {Γ : Config} {s₀ : State} {N i : ℕ} {ρ : Run (step Γ) s₀ N}
    {q : Worker} {job g : String} {log : PassLog} {v u : SnapshotGroup} {ms : List GroupMember}
    (h : GroupPass ρ i q job log g v ms) (hag : GroupAgrees q.node v u)
    (hup : ∀ k ∈ Γ.slots g, k.2 = q.node → raised (u.status.perLeg.lookup k))
    (hgate : ∀ k ∈ Γ.disklessSlots g, u.status.perLeg.lookup k ≠ some .pending) :
    ¬Unraised (Γ.agent q.node) v ms := by
  rintro (hun | hun)
  · have hall : myLegsRaised v.status (myLegs ms q.node) q.node := by
      refine List.all_eq_true.mpr fun k hk => ?_
      obtain ⟨hn, m, hm, hv⟩ := mem_slotsOn.mp hk
      obtain ⟨hmem, hdisk⟩ := List.mem_filter.mp hm
      have hslot : k ∈ diskfulSlots ms :=
        List.mem_flatMap.mpr ⟨m, hmem, List.mem_map.mpr ⟨q.node, diskfulOn_iff.mp hdisk,
          Prod.ext hv hn.symm⟩⟩
      rw [hag.own k hn]
      exact hup k ((h.mem_diskfulSlots k).mp hslot) hn
    exact Bool.false_ne_true (hun.symm.trans hall)
  · obtain ⟨m, hm⟩ := List.exists_mem_of_ne_nil _ hun
    obtain ⟨hm, hpend⟩ := List.mem_filter.mp hm
    obtain ⟨hmem, hdl⟩ := List.mem_filter.mp hm
    have hslot : (m.vol.name, q.node) ∈ disklessSlots ms :=
      List.mem_flatMap.mpr ⟨m, hmem, List.mem_map.mpr ⟨q.node,
        of_decide_eq_true (Bool.and_eq_true_iff.mp hdl).1, rfl⟩⟩
    refine hgate _ ((h.mem_disklessSlots _).mp hslot) ?_
    rw [← hag.own _ rfl]
    exact of_decide_eq_true hpend

/-! ## Steps -/

/-- The command deletes or cuts a leg. -/
def Cmd.onLeg : Cmd → Bool
  | .deleteSnapshot _ _ _ | .snapshot _ _ _ => true
  | _ => false

/-- The pass deletes the legs of a snapshot it has read as deleted. -/
def Asked.deletes (q : Asked) : Bool :=
  q.worker.task = .snapshot && (snapView q.job q.log).any fun v => v.deleting

/-- A round deletes or cuts a leg only while it is as the pass read it. -/
def cutsFresh (s : State) (a : Action) : Bool :=
  (a.command s).all fun q => !q.cmd.onLeg || q.deletes || ownFresh s q.worker q.job q.log

/-- A whole status lands only on the status it was computed from, and a slot patch only while the
round and the node's own slots are as they were read. -/
def writesFresh (s : State) (a : Action) : Bool :=
  (a.landing s).all fun q =>
    match q.write with
    | .applySnap _ _ | .applyGroup _ _ => wholeFresh s q.worker q.job q.log
    | .patchSlot _ _ _ _ | .mergeSlots _ _ => ownFresh s q.worker q.job q.log
    | .dropSnapFinalizer _ _ | .dropGroupFinalizer _ _ => true

/-- No round over volume `v` is live but that of the pass's own object. -/
def noOtherRound (Γ : Config) (s : State) (q : Asked) (v : String) : Bool :=
  (s.api.listSnapshots.all fun x => !(x.status.ioSuspended && x.group = "" && x.volumeName = v) ||
    (q.worker.task = .snapshot && x.name = q.job)) &&
  s.api.listGroups.all fun g =>
    !(g.status.ioSuspended && g.snapshotNames.any fun x => Γ.volumeOf x = v) ||
      (q.worker.task = .group && g.name = q.job)

/-- A round lifts a barrier only while it is as the pass read it and no other round over the volume
is live. -/
def resumesFresh (Γ : Config) (s : State) (a : Action) : Bool :=
  (a.command s).all fun q =>
    match q.cmd with
    | .resumeIo v => q.worker.task = .sweep ||
        ownFresh s q.worker q.job q.log && noOtherRound Γ s q v
    | _ => true

section Steps

variable {Γ : Config} {s : State} {a : Action}

variable {q : Asked} {v : String}

theorem cutsFresh_own (h : cutsFresh s a) (hq : a.command s = some q)
    (hc : q.cmd.onLeg) (hd : q.deletes = false) :
    ownFresh s q.worker q.job q.log := by
  simpa [cutsFresh, hq, hc, hd] using h

theorem writesFresh_apply (h : writesFresh s a) {q : Request} (hq : a.landing s = some q)
    (hw : (∃ x c, q.write = .applySnap x c) ∨ ∃ g c, q.write = .applyGroup g c) :
    wholeFresh s q.worker q.job q.log := by
  rcases hw with ⟨x, c, hw⟩ | ⟨g, c, hw⟩ <;> simpa [writesFresh, hq, hw] using h

theorem writesFresh_patch (h : writesFresh s a) {q : Request} (hq : a.landing s = some q)
    (hw : (∃ x n t st, q.write = .patchSlot x n t st) ∨ ∃ g ss, q.write = .mergeSlots g ss) :
    ownFresh s q.worker q.job q.log := by
  rcases hw with ⟨x, n, t, st, hw⟩ | ⟨g, ss, hw⟩ <;> simpa [writesFresh, hq, hw] using h

theorem resumesFresh_own (h : resumesFresh Γ s a) (hq : a.command s = some q)
    (hc : q.cmd = .resumeIo v) (ht : q.worker.task ≠ .sweep) :
    ownFresh s q.worker q.job q.log ∧ noOtherRound Γ s q v := by
  simpa [resumesFresh, hq, hc, ht] using h

theorem noOtherRound_snap (h : noOtherRound Γ s q v) {x : Snapshot}
    (hx : x ∈ s.api.listSnapshots) (hl : x.status.ioSuspended) (hg : x.group = "")
    (hv : x.volumeName = v) : q.worker.task = .snapshot ∧ x.name = q.job := by
  simpa [hl, hg, hv] using List.all_eq_true.mp (Bool.and_eq_true_iff.mp h).1 x hx

theorem noOtherRound_group (h : noOtherRound Γ s q v)
    {g : SnapshotGroup} (hg : g ∈ s.api.listGroups) (hl : g.status.ioSuspended) {x : String}
    (hx : x ∈ g.snapshotNames) (hv : Γ.volumeOf x = v) :
    q.worker.task = .group ∧ g.name = q.job := by
  have hany : (g.snapshotNames.any fun x => decide (Γ.volumeOf x = v)) :=
    List.any_eq_true.mpr ⟨x, hx, decide_eq_true hv⟩
  simpa [hl, hany] using List.all_eq_true.mp (Bool.and_eq_true_iff.mp h).2 g hg

end Steps

end Miroir
