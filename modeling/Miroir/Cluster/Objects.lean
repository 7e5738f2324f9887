import Miroir.Cluster.Cases

/-!
# How objects change

A step changes a snapshot in one of few ways: its status is applied, one slot of it is patched,
its metadata changes with the status left alone, or it is gone (`Stepped.snap_cases`). Groups have
a merge patch in place of the fenced one (`Stepped.group_cases`). The lookups of the slots after a
write are computed here too.
-/

namespace Miroir

open Process

variable {Γ : Config} {s s' : State} {a : Action}

/-! ## Slots after a write -/

section Slots

variable {κ : Type} [DecidableEq κ] {β : κ → Type}

theorem lookup_foldl_erase (m : AList β) (ks : List κ) (k : κ) :
    (ks.foldl (fun m k => m.erase k) m).lookup k = if k ∈ ks then none else m.lookup k := by
  induction ks generalizing m with
  | nil => simp
  | cons k' ks ih =>
    rw [List.foldl_cons, ih]
    by_cases hk : k ∈ ks
    · simp [hk]
    · by_cases hkk : k = k'
      · subst hkk; simp [AList.lookup_erase]
      · simp [hk, hkk, AList.lookup_erase_ne hkk]

theorem lookup_applySlots (old stated : AList β) (pruned : List κ) (k : κ) :
    (applySlots old stated pruned).lookup k =
      (stated.lookup k).or (if k ∈ pruned then none else old.lookup k) := by
  unfold applySlots
  by_cases hk : k ∈ stated
  · rw [AList.lookup_union_left hk]
    obtain ⟨b, hb⟩ := Option.isSome_iff_exists.mp (AList.lookup_isSome.mpr hk)
    rw [hb, Option.some_or]
  · rw [AList.lookup_union_right hk, lookup_foldl_erase, AList.lookup_eq_none.mpr hk,
      Option.none_or]

theorem lookup_applySlots_of_stated {old stated : AList β} {pruned : List κ} {k : κ} {b : β k}
    (h : stated.lookup k = some b) : (applySlots old stated pruned).lookup k = some b := by
  rw [lookup_applySlots, h, Option.some_or]

theorem lookup_foldl_insert {γ : Type} (m : AList fun _ : κ => γ) (ks : List κ) (c : γ) (k : κ) :
    (ks.foldl (fun m k => m.insert k c) m).lookup k = if k ∈ ks then some c else m.lookup k := by
  induction ks generalizing m with
  | nil => simp
  | cons k' ks ih =>
    rw [List.foldl_cons, ih]
    by_cases hk : k ∈ ks
    · simp [hk]
    · by_cases hkk : k = k'
      · subst hkk; simp [AList.lookup_insert]
      · simp [hk, hkk, AList.lookup_insert_ne hkk]

end Slots

/-! ## Snapshots -/

/-- The metadata of a snapshot changed, and nothing else: it may be marked deleted. -/
structure SameSnapshot (w w' : Snapshot) : Prop where
  name : w'.name = w.name
  volumeName : w'.volumeName = w.volumeName
  group : w'.group = w.group
  status : w'.status = w.status
  deleting : w.deleting = true → w'.deleting = true

/-- The live stamp of the view of snapshot `x` in a request's log. -/
def Request.seenStamp (q : Request) (x : String) : Option Stamp :=
  (snapView x q.log).bind fun v => v.status.liveStamp

/-- The live round of the view of group `g` in a request's log. -/
def Request.seenRound (q : Request) (g : String) : Option Round :=
  (groupView g q.log).bind fun v => v.status.liveRound

theorem snap_setStatus (v : Api) (x y : String) (w : Snapshot) (st : SnapshotStatus) :
    (v.setStatus x w st).snap y = if y = x then some { w with status := st } else v.snap y := by
  unfold Api.setStatus Api.snap
  split
  · rename_i h; subst h; exact AList.lookup_insert _
  · rename_i h; exact AList.lookup_insert_ne h

theorem snap_setFinalizers (v : Api) (x y : String) (w : Snapshot) (fs : List String) :
    (v.setFinalizers x w fs).snap y =
      if y = x then (if w.deleting && fs.isEmpty then none else some { w with finalizers := fs })
      else v.snap y := by
  unfold Api.setFinalizers Api.snap
  by_cases hy : y = x
  · subst hy
    cases hd : w.deleting && fs.isEmpty
    · simp [AList.lookup_insert]
    · simp [AList.lookup_erase]
  · cases hd : w.deleting && fs.isEmpty
    · simp [hy, AList.lookup_insert_ne hy]
    · simp [hy, AList.lookup_erase_ne hy]

theorem snap_setGroupStatus (v : Api) (g y : String) (w : SnapshotGroup) (st : GroupStatus) :
    (v.setGroupStatus g w st).snap y = v.snap y := rfl

theorem snap_setGroupFinalizers (v : Api) (g y : String) (w : SnapshotGroup) (fs : List String) :
    (v.setGroupFinalizers g w fs).snap y = v.snap y := by
  unfold Api.setGroupFinalizers
  split <;> rfl

/-- How snapshot `y` changes when a step lands `landing`. -/
inductive SnapChange (s : State) (landing : Option Request) (y : String) :
    Option Snapshot → Option Snapshot → Prop
  | same {w} : SnapChange s landing y w w
  | gone {w} : SnapChange s landing y w none
  | metadata {w w'} (h : SameSnapshot w w') : SnapChange s landing y (some w) (some w')
  | apply {w q c} (pruned : List String) (hq : landing = some q) (hw : q.write = .applySnap y c) :
      SnapChange s landing y (some w)
        (some { w with status := w.status.apply c pruned q.worker.node s.tick (q.seenStamp y) })
  | patch {w q node stamp state} (hq : landing = some q)
      (hw : q.write = .patchSlot y node stamp state) (hl : w.status.ioSuspended = true)
      (hs : w.status.suspendedAt = some stamp) :
      SnapChange s landing y (some w) (some { w with
        status := { w.status with
          perNode := w.status.perNode.insert node state
          observed := w.status.observed.insert node (q.seenStamp y) } })

theorem snapChange_of_finalizers {landing : Option Request} {y : String} {w w' : Snapshot}
    {fs : List String} (h : SameSnapshot w w') :
    SnapChange s landing y (some w)
      (if w'.deleting && fs.isEmpty then none else some { w' with finalizers := fs }) := by
  split
  · exact .gone
  · exact .metadata ⟨h.name, h.volumeName, h.group, h.status, h.deleting⟩

theorem snapChange_of_land {q : Request} {pruned : Pruned} {v : Api}
    (h : land s.tick q pruned s.api = some v) (y : String) :
    SnapChange s (some q) y (s.api.snap y) (v.snap y) := by
  unfold land at h
  split at h
  · rename_i x c hw
    obtain ⟨w, hx, rfl⟩ := Option.map_eq_some_iff.mp h
    rw [snap_setStatus]
    split
    · rename_i hy; subst hy; rw [hx]; exact .apply pruned.nodes rfl hw
    · exact .same
  · rename_i x node stamp state hw
    obtain ⟨w, hx, h⟩ := Option.bind_eq_some_iff.mp h
    obtain ⟨st, hst, rfl⟩ := Option.map_eq_some_iff.mp h
    rw [snap_setStatus]
    split
    · rename_i hy
      subst hy
      rw [hx]
      unfold SnapshotStatus.patchSlot at hst
      split at hst
      · rename_i hc; cases hst; exact .patch rfl hw hc.1 hc.2
      · cases hst
    · exact .same
  · obtain ⟨w, hx, rfl⟩ := Option.map_eq_some_iff.mp h
    rw [snap_setGroupStatus]; exact .same
  · obtain ⟨w, hx, rfl⟩ := Option.map_eq_some_iff.mp h
    rw [snap_setGroupStatus]; exact .same
  · rename_i x node hw
    obtain ⟨w, hx, rfl⟩ := Option.map_eq_some_iff.mp h
    rw [snap_setFinalizers]
    split
    · rename_i hy; subst hy; rw [hx]
      exact snapChange_of_finalizers ⟨rfl, rfl, rfl, rfl, id⟩
    · exact .same
  · obtain ⟨w, hx, rfl⟩ := Option.map_eq_some_iff.mp h
    rw [snap_setGroupFinalizers]; exact .same

/-- What a step does to a snapshot on the API server. -/
theorem Stepped.snap_cases (h : Stepped Γ s a s') (y : String) :
    SnapChange s (a.landing s) y (s.api.snap y) (s'.api.snap y) := by
  rcases h.api_cases with
    ⟨q, pruned, hq, hl, -⟩ | ⟨x, w, -, hx, he, -⟩ | ⟨g, w, -, -, he, -⟩ | ⟨he, -⟩
  · rw [hq]; exact snapChange_of_land hl y
  · rw [he, Api.markSnapDeleted, snap_setFinalizers]
    split
    · rename_i hy; subst hy; rw [hx]
      have hsame : SameSnapshot w { w with deleting := true } :=
        ⟨rfl, rfl, rfl, rfl, fun _ => rfl⟩
      exact snapChange_of_finalizers hsame
    · exact .same
  · rw [he, Api.markGroupDeleted, snap_setGroupFinalizers]; exact .same
  · rw [he]; exact .same

/-! ## Groups -/

/-- The metadata of a group changed, and nothing else: it may be marked deleted. -/
structure SameGroup (w w' : SnapshotGroup) : Prop where
  name : w'.name = w.name
  snapshotNames : w'.snapshotNames = w.snapshotNames
  status : w'.status = w.status
  deleting : w.deleting = true → w'.deleting = true

theorem group_setGroupStatus (v : Api) (g h : String) (w : SnapshotGroup) (st : GroupStatus) :
    (v.setGroupStatus g w st).group h =
      if h = g then some { w with status := st } else v.group h := by
  unfold Api.setGroupStatus Api.group
  split
  · rename_i he; subst he; exact AList.lookup_insert _
  · rename_i he; exact AList.lookup_insert_ne he

theorem group_setGroupFinalizers (v : Api) (g h : String) (w : SnapshotGroup) (fs : List String) :
    (v.setGroupFinalizers g w fs).group h =
      if h = g then (if w.deleting && fs.isEmpty then none else some { w with finalizers := fs })
      else v.group h := by
  unfold Api.setGroupFinalizers Api.group
  by_cases hy : h = g
  · subst hy
    cases hd : w.deleting && fs.isEmpty
    · simp [AList.lookup_insert]
    · simp [AList.lookup_erase]
  · cases hd : w.deleting && fs.isEmpty
    · simp [hy, AList.lookup_insert_ne hy]
    · simp [hy, AList.lookup_erase_ne hy]

theorem group_setStatus (v : Api) (x h : String) (w : Snapshot) (st : SnapshotStatus) :
    (v.setStatus x w st).group h = v.group h := rfl

theorem group_setFinalizers (v : Api) (x h : String) (w : Snapshot) (fs : List String) :
    (v.setFinalizers x w fs).group h = v.group h := by
  unfold Api.setFinalizers
  split <;> rfl

/-- How group `h` changes when a step lands `landing`. -/
inductive GroupChange (s : State) (landing : Option Request) (h : String) :
    Option SnapshotGroup → Option SnapshotGroup → Prop
  | same {w} : GroupChange s landing h w w
  | gone {w} : GroupChange s landing h w none
  | metadata {w w'} (hw : SameGroup w w') : GroupChange s landing h (some w) (some w')
  | apply {w q c} (pruned : List SlotKey) (hq : landing = some q) (hw : q.write = .applyGroup h c) :
      GroupChange s landing h (some w)
        (some { w with status := w.status.apply c pruned q.worker.node s.tick (q.seenRound h) })
  | merge {w q slots} (hq : landing = some q) (hw : q.write = .mergeSlots h slots) :
      GroupChange s landing h (some w)
        (some { w with status := w.status.mergeSlots slots (q.seenRound h) })

theorem groupChange_of_finalizers {landing : Option Request} {h : String} {w w' : SnapshotGroup}
    {fs : List String} (hw : SameGroup w w') :
    GroupChange s landing h (some w)
      (if w'.deleting && fs.isEmpty then none else some { w' with finalizers := fs }) := by
  split
  · exact .gone
  · exact .metadata ⟨hw.name, hw.snapshotNames, hw.status, hw.deleting⟩

theorem groupChange_of_land {q : Request} {pruned : Pruned} {v : Api}
    (hl : land s.tick q pruned s.api = some v) (h : String) :
    GroupChange s (some q) h (s.api.group h) (v.group h) := by
  unfold land at hl
  split at hl
  · obtain ⟨w, hx, rfl⟩ := Option.map_eq_some_iff.mp hl
    rw [group_setStatus]; exact .same
  · obtain ⟨w, hx, hl⟩ := Option.bind_eq_some_iff.mp hl
    obtain ⟨st, hst, rfl⟩ := Option.map_eq_some_iff.mp hl
    rw [group_setStatus]; exact .same
  · rename_i g c hw
    obtain ⟨w, hx, rfl⟩ := Option.map_eq_some_iff.mp hl
    rw [group_setGroupStatus]
    split
    · rename_i hy; subst hy; rw [hx]; exact .apply pruned.slots rfl hw
    · exact .same
  · rename_i g slots hw
    obtain ⟨w, hx, rfl⟩ := Option.map_eq_some_iff.mp hl
    rw [group_setGroupStatus]
    split
    · rename_i hy; subst hy; rw [hx]; exact .merge rfl hw
    · exact .same
  · obtain ⟨w, hx, rfl⟩ := Option.map_eq_some_iff.mp hl
    rw [group_setFinalizers]; exact .same
  · obtain ⟨w, hx, rfl⟩ := Option.map_eq_some_iff.mp hl
    rw [group_setGroupFinalizers]
    split
    · rename_i hy; subst hy; rw [hx]
      exact groupChange_of_finalizers ⟨rfl, rfl, rfl, id⟩
    · exact .same

/-- A merge patch sets its slots. -/
theorem mergeSlots_mem (st : GroupStatus) {ks : List SlotKey} (state : SnapshotNodeState)
    (seen : Option Round) {k : SlotKey} (hk : k ∈ ks) :
    (st.mergeSlots (ks.map (·, state)) seen).perLeg.lookup k = some state ∧
      (st.mergeSlots (ks.map (·, state)) seen).observed.lookup k = some seen := by
  simp [GroupStatus.mergeSlots, List.foldl_map, lookup_foldl_insert, hk]

/-- A merge patch leaves the other slots alone. -/
theorem mergeSlots_of_not_mem (st : GroupStatus) {ks : List SlotKey} (state : SnapshotNodeState)
    (seen : Option Round) {k : SlotKey} (hk : k ∉ ks) :
    (st.mergeSlots (ks.map (·, state)) seen).perLeg.lookup k = st.perLeg.lookup k ∧
      (st.mergeSlots (ks.map (·, state)) seen).observed.lookup k = st.observed.lookup k := by
  simp [GroupStatus.mergeSlots, List.foldl_map, lookup_foldl_insert, hk]

/-- What holds of the state a merge patch sets and of a slot before holds of the slot after. -/
theorem mergeSlots_kept {P : Option SnapshotNodeState → Prop} (st : GroupStatus)
    (ks : List SlotKey) {state : SnapshotNodeState} (seen : Option Round) {k : SlotKey}
    (hs : P (some state)) (h : P (st.perLeg.lookup k)) :
    P ((st.mergeSlots (ks.map (·, state)) seen).perLeg.lookup k) := by
  by_cases hk : k ∈ ks
  · rwa [(mergeSlots_mem st state seen hk).1]
  · rwa [(mergeSlots_of_not_mem st state seen hk).1]

/-- What a step does to a group on the API server. -/
theorem Stepped.group_cases (h : Stepped Γ s a s') (g : String) :
    GroupChange s (a.landing s) g (s.api.group g) (s'.api.group g) := by
  rcases h.api_cases with
    ⟨q, pruned, hq, hl, -⟩ | ⟨x, w, -, -, he, -⟩ | ⟨g', w, -, hx, he, -⟩ | ⟨he, -⟩
  · rw [hq]; exact groupChange_of_land hl g
  · rw [he, Api.markSnapDeleted, group_setFinalizers]; exact .same
  · rw [he, Api.markGroupDeleted, group_setGroupFinalizers]
    split
    · rename_i hy; subst hy; rw [hx]
      have hsame : SameGroup w { w with deleting := true } := ⟨rfl, rfl, rfl, fun _ => rfl⟩
      exact groupChange_of_finalizers hsame
    · exact .same
  · rw [he]; exact .same

/-- A version the API server holds was held before, or is the current one. -/
theorem Stepped.versions_cases (h : Stepped Γ s a s') :
    (∀ v ∈ s.versions, v ∈ s'.versions) ∧
      ∀ v ∈ s'.versions, v ∈ s.versions ∨ v = s'.api := by
  rcases h.api_cases with ⟨-, -, -, -, he⟩ | ⟨-, -, -, -, -, he⟩ | ⟨-, -, -, -, -, he⟩ | ⟨-, he⟩ <;>
    rw [he]
  · exact ⟨fun v hv => List.mem_append_left _ hv, fun v hv => by simpa using hv⟩
  · exact ⟨fun v hv => List.mem_append_left _ hv, fun v hv => by simpa using hv⟩
  · exact ⟨fun v hv => List.mem_append_left _ hv, fun v hv => by simpa using hv⟩
  · exact ⟨fun v hv => hv, fun v hv => .inl hv⟩

end Miroir
