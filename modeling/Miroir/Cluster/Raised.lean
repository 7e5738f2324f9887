import Miroir.Cluster.Dynamic
import Miroir.Cluster.History

/-!
# Who raised a barrier

The kernel has one suspend flag for a volume on a node and does not say which round set it.
`Tracked` follows the flags through a run: a suspend-io is noted with the object whose pass asked
for it, and the notes of a volume go when its flag is cleared. The cluster takes no part in it.
-/

namespace Miroir

open Process Data

/-- A suspend-io of `volume` on `node` that a pass over an object asked for. -/
structure Raise where
  node : String
  volume : String
  kind : Kind
  name : String
  uid : String
  deriving DecidableEq, Repr

/-- The cluster with the barriers that are up. -/
structure Tracked where
  cluster : Cluster
  /-- The suspend-ios that are up. -/
  raised : List Raise

def Task.kind : Task → Option Kind
  | .snapshot => some .snapshot
  | .group => some .group
  | .sweep => none

/-- The suspend-io a command asks for. -/
def Asked.raise (q : Asked) : Option Raise :=
  match q.cmd with
  | .suspendIo v => q.worker.task.kind.bind fun k =>
    (metaView q.log q.job k).map fun m => ⟨q.worker.node, v, k, q.job, m.uid⟩
  | _ => none

/-- The command a step answers. -/
def Event.command (s : State) : Event → Option Asked
  | .act a => a.command s
  | _ => none

namespace Tracked

variable (Γ : Config) (T : Tracked)

/-- The suspend-ios after a step from `T` to the state `s`. -/
def raisedAfter (e : Event) (s : State) : List Raise :=
  (((e.command T.cluster.state).bind Asked.raise).toList ++ T.raised).filter fun r =>
    (s.kernel r.node r.volume).suspended

def step (e : Event) : Option Tracked :=
  (T.cluster.step Γ e).map fun C => ⟨C, T.raisedAfter e C.state⟩

/-- A start at which no barrier is up. -/
structure Start : Prop where
  cluster : T.cluster.Start
  raised : T.raised = []

variable {Γ T} {T' : Tracked} {e : Event}

theorem step_eq_some (h : T.step Γ e = some T') : T.cluster.step Γ e = some T'.cluster ∧
    T'.raised = T.raisedAfter e T'.cluster.state := by
  obtain ⟨C, hC, rfl⟩ := Option.map_eq_some_iff.mp h
  exact ⟨hC, rfl⟩

/-- A suspend-io that is up after a step was up before, or is the one the step asked for; its flag
is set. -/
theorem mem_raisedAfter {s : State} {r : Raise} (h : r ∈ T.raisedAfter e s) :
    (r ∈ T.raised ∨ ∃ q, e.command T.cluster.state = some q ∧ q.raise = some r) ∧
      (s.kernel r.node r.volume).suspended := by
  obtain ⟨hmem, hflag⟩ := List.mem_filter.mp h
  refine ⟨?_, hflag⟩
  rcases List.mem_append.mp hmem with hnew | hold
  · rw [Option.mem_toList] at hnew
    obtain ⟨q, hq, hr⟩ := Option.bind_eq_some_iff.mp hnew
    exact .inr ⟨q, hq, hr⟩
  · exact .inl hold

end Tracked

/-- What asked for a suspend-io. -/
theorem Asked.raise_eq_some {q : Asked} {r : Raise} (h : q.raise = some r) :
    q.cmd = .suspendIo r.volume ∧ q.worker = ⟨r.node, r.kind.task⟩ ∧ q.job = r.name ∧
      ∃ m, metaView q.log q.job r.kind = some m ∧ m.uid = r.uid := by
  obtain ⟨⟨n, t⟩, job, log, c⟩ := q
  unfold Asked.raise at h
  split at h
  · rename_i v hc
    obtain ⟨k, hk, h⟩ := Option.bind_eq_some_iff.mp h
    obtain ⟨m, hm, rfl⟩ := Option.map_eq_some_iff.mp h
    refine ⟨hc, ?_, rfl, m, hm, rfl⟩
    cases t <;> cases hk <;> rfl
  · cases h

/-! ## The volume of a snapshot -/

/-- Two copies of one snapshot are of one volume. -/
def OneVolume (s : State) : Prop :=
  ∀ v ∈ s.versions, ∀ v' ∈ s.versions, ∀ x w w', v.snap x = some w → v'.snap x = some w' →
    w'.uid = w.uid → w'.volumeName = w.volumeName

namespace Cluster

variable {Γ : Config} {C C' : Cluster} {e : Event}

/-- A snapshot after a step is the one from before, over the same volume, or has an identity of its
own. -/
theorem Stepped.source (h : C.Stepped Γ e C') {x : String} {w' : Snapshot}
    (hw : C'.state.api.snap x = some w') :
    (∃ w, C.state.api.snap x = some w ∧ w'.uid = w.uid ∧ w'.volumeName = w.volumeName) ∨
      unusedUID C.state w'.uid := by
  have hm : C'.state.api.objectMeta x .snapshot = some w'.objectMeta := by
    simp [Api.objectMeta, hw]
  rcases h.origin hm with ⟨m, hm₀, -, hu, -⟩ | ⟨-, hu⟩
  · obtain ⟨w, hx, rfl⟩ := Option.map_eq_some_iff.mp hm₀
    refine .inl ⟨w, hx, hu, ?_⟩
    cases h with
    | volumes => rw [Option.some.inj (hx.symm.trans hw)]
    | act hf h =>
      have hchange := (Miroir.stepped_of_step h).snap_cases x
      rw [hx, hw] at hchange
      cases hchange with
      | same => rfl
      | metadata h => exact h.volumeName
      | apply => rfl
      | patch => rfl
    | @create _ k₀ x₀ m v hnone _ _ _ hsnap _ =>
      have hne : (x, Kind.snapshot) ≠ (x₀, k₀) := by
        rintro ⟨rfl, rfl⟩
        rw [hm₀] at hnone
        cases hnone
      rw [Option.some.inj (hw.symm.trans ((hsnap x hne).trans hx))]
  · exact .inr hu

theorem OneVolume.step (h : OneVolume C.state) (hsane : Sane C.state) (hs : C.Stepped Γ e C') :
    OneVolume C'.state := by
  rcases hs.versions with ⟨-, hv⟩ | hv
  · rw [OneVolume, hv]; exact h
  -- A copy on the API server after the step, against any copy there was before.
  have hnew : ∀ v ∈ C.state.versions, ∀ x w w', v.snap x = some w →
      C'.state.api.snap x = some w' → w'.uid = w.uid → w'.volumeName = w.volumeName := by
    intro v hmem x w w' hw hw' hu
    rcases hs.source hw' with ⟨w₀, hw₀, hu₀, hvol⟩ | hunused
    · rw [hvol]
      exact h v hmem C.state.api (List.mem_of_getLast? hsane.last) x w w₀ hw hw₀ (hu₀ ▸ hu)
    · exact absurd hu.symm (unusedUID_spec hunused hmem (x := x) (k := .snapshot)
        (m := w.objectMeta) (by simp [Api.objectMeta, hw]))
  intro v hmem v' hmem' x w w' hw hw' hu
  rw [hv, List.mem_append, List.mem_singleton] at hmem hmem'
  rcases hmem with hmem | rfl <;> rcases hmem' with hmem' | rfl
  · exact h v hmem v' hmem' x w w' hw hw' hu
  · exact hnew v hmem x w w' hw hw' hu
  · exact (hnew v' hmem' x w' w hw' hw hu.symm).symm
  · rw [Option.some.inj (hw.symm.trans hw')]

/-- What the logs of the workers say: a volume carries the name it was asked for by, and a snapshot
is a copy the API server has held. -/
structure TrueReads (s : State) : Prop where
  volume : ∀ {k n x log t v vol}, LogOf s k n x log →
    (⟨t, .cachedVolume v, .ok (some vol)⟩ : Entry Nat Ans) ∈ log → vol.name = v
  snap : ∀ {k n x log t y w}, LogOf s k n x log →
    (⟨t, .cachedSnapshot y, .ok (some w)⟩ : Entry Nat Ans) ∈ log →
      ∃ v ∈ s.versions, v.snap y = some w

theorem Start.not_logOf (h : C.Start) {k : Kind} {n x : String} {log : PassLog} :
    ¬LogOf C.state k n x log := by
  intro hl
  cases hl with
  | pass hp => rw [h.pass] at hp; cases hp
  | sent hq => rw [h.inflight] at hq; cases hq

theorem Start.oneVolume (h : C.Start) : OneVolume C.state := by
  intro v hv v' _ x w w' hw
  rw [h.versions, List.mem_singleton] at hv
  subst hv
  cases hw

theorem Start.trueReads (h : C.Start) : TrueReads C.state where
  volume hl := absurd hl h.not_logOf
  snap hl := absurd hl h.not_logOf

theorem TrueReads.step (h : TrueReads C.state) (hs : C.Stepped Γ e C') : TrueReads C'.state where
  volume := by
    intro k n x log t v vol hl hm
    rcases hs.logOf_cases hl with hold | rfl | ⟨o, log₀, c, next, r, s₁, -, hp, rfl, ha, -⟩
    · exact h.volume hold hm
    · cases hm
    · rcases List.mem_cons.mp hm with hnew | hm
      · cases hnew
        exact ((answered_of_answer ha).cachedVolume_spec rfl).1
      · exact h.volume (.pass hp) hm
  snap := by
    intro k n x log t y w hl hm
    have hmono : (∃ v ∈ C.state.versions, v.snap y = some w) →
        ∃ v ∈ C'.state.versions, v.snap y = some w :=
      fun ⟨v, hv, hw⟩ => ⟨v, hs.versions_prefix.subset hv, hw⟩
    rcases hs.logOf_cases hl with hold | rfl | ⟨o, log₀, c, next, r, s₁, -, hp, rfl, ha, -⟩
    · exact hmono (h.snap hold hm)
    · cases hm
    · rcases List.mem_cons.mp hm with hnew | hm
      · cases hnew
        exact hmono ((answered_of_answer ha).cachedSnapshot_mem rfl)
      · exact hmono (h.snap (.pass hp) hm)

end Cluster

end Miroir
