import Miroir.Drbd.Minor

/-!
# Reservations of minors

A minor is *reserved* for a volume while `minor.assign` or the volume's own config records it.
`Good` is what the node's records have to keep: the two agree, no minor is reserved twice, and what
the kernel holds is reserved. Then no two volumes are rendered or in the kernel with one minor
(`applied_unique`). Handing out a minor, rendering a reserved one and bringing up a rendered one
keep `Good`; records may go as long as those of the kernel's resources stay (`Good.shrink`).
-/

namespace Miroir.Drbd

open Process Prog Data

/-- The minor is recorded for the volume. -/
def Reserved (s : Node) (name : String) (m : Nat) : Prop :=
  s.assign.lookup name = some m ∨ s.configs.lookup name = some m

/-- The volume is rendered with the minor, or holds it in the kernel. -/
def Applied (s : Node) (name : String) (m : Nat) : Prop :=
  s.configs.lookup name = some m ∨ s.kernel.lookup name = some m

def isReserved (s : Node) (name : String) (m : Nat) : Bool :=
  s.assign.lookup name = some m || s.configs.lookup name = some m

/-! ## The records of a node -/

/-- The records agree, no minor is reserved twice, and what the kernel holds is reserved. -/
structure Good (s : Node) : Prop where
  agree : ∀ v m m', s.assign.lookup v = some m → s.configs.lookup v = some m' → m = m'
  apart : ∀ u v m, Reserved s u m → Reserved s v m → u = v
  held : ∀ v m, s.kernel.lookup v = some m → Reserved s v m

section Records

variable {s : Node} {name : String} {m m' : Nat}

theorem reserved_iff : isReserved s name m ↔ Reserved s name m := by
  simp [isReserved, Reserved]

theorem Good.reserved_unique (h : Good s) (hm : Reserved s name m) (hm' : Reserved s name m') :
    m = m' := by
  rcases hm with hm | hm <;> rcases hm' with hm' | hm'
  · exact Option.some.inj (hm.symm.trans hm')
  · exact h.agree name m m' hm hm'
  · exact (h.agree name m' m hm' hm).symm
  · exact Option.some.inj (hm.symm.trans hm')

/-- Records may go as long as those of the kernel's resources stay. -/
theorem Good.shrink (h : Good s) {s' : Node}
    (ha : ∀ v m, s'.assign.lookup v = some m → s.assign.lookup v = some m)
    (hc : ∀ v m, s'.configs.lookup v = some m → s.configs.lookup v = some m)
    (hk : ∀ v m, s'.kernel.lookup v = some m → Reserved s' v m) : Good s' := by
  have hsub {v : String} {m : Nat} (hr : Reserved s' v m) : Reserved s v m :=
    hr.imp (ha v m) (hc v m)
  exact ⟨fun v m m' hm hm' => h.agree v m m' (ha v m hm) (hc v m' hm'),
    fun u v m hu hv => h.apart u v m (hsub hu) (hsub hv), hk⟩

/-- What is in the records is in the list that `AllocateMinor` avoids. -/
theorem mem_taken {v : String} (h : Reserved s v m) :
    m ∈ (s.assign.entries ++ s.configs.entries).map Sigma.snd := by
  rcases h with h | h
  · exact List.mem_map.mpr
      ⟨⟨v, m⟩, List.mem_append_left _ (AList.mem_lookup_iff.mp h), rfl⟩
  · exact List.mem_map.mpr
      ⟨⟨v, m⟩, List.mem_append_right _ (AList.mem_lookup_iff.mp h), rfl⟩

/-- The minor handed out is the volume's own, or nobody's. -/
theorem allocate_spec (h : Good s) (name : String) :
    (∀ m, Reserved s name m → allocate s name = m) ∧
      (Reserved s name (allocate s name) ∨ ∀ v, ¬Reserved s v (allocate s name)) := by
  cases ha : s.assign.lookup name with
  | some a =>
    have heq : allocate s name = a := by simp [allocate, ha]
    have hr : Reserved s name a := .inl ha
    exact ⟨fun m hm => heq.trans (h.reserved_unique hr hm), .inl (heq ▸ hr)⟩
  | none =>
    cases hc : s.configs.lookup name with
    | some a =>
      have heq : allocate s name = a := by simp [allocate, ha, hc]
      have hr : Reserved s name a := .inr hc
      exact ⟨fun m hm => heq.trans (h.reserved_unique hr hm), .inl (heq ▸ hr)⟩
    | none =>
      refine ⟨fun m hm => ?_, .inr fun v hv => ?_⟩
      · rcases hm with hm | hm
        · rw [ha] at hm
          cases hm
        · rw [hc] at hm
          cases hm
      · have heq : allocate s name =
            firstFree minorBase ((s.assign.entries ++ s.configs.entries).map Sigma.snd) := by
          simp [allocate, ha, hc]
        rw [heq] at hv
        exact firstFree_not_mem (mem_taken hv)

/-- Handing out a minor keeps every record. -/
theorem Reserved.assign {v : String} (h : Good s) (hr : Reserved s v m) (name : String) :
    Reserved { s with assign := s.assign.insert name (allocate s name) } v m := by
  by_cases hv : v = name
  · subst hv
    rw [← (allocate_spec h v).1 m hr]
    exact .inl (AList.lookup_insert _)
  · exact hr.imp_left fun hr => (AList.lookup_insert_ne hv).trans hr

theorem reserved_assign (s : Node) (name : String) :
    Reserved { s with assign := s.assign.insert name (allocate s name) } name
      (allocate s name) :=
  .inl (AList.lookup_insert _)

theorem Good.assign (h : Good s) (name : String) :
    Good { s with assign := s.assign.insert name (allocate s name) } := by
  obtain ⟨hown, hfree⟩ := allocate_spec h name
  have hnew : (s.assign.insert name (allocate s name)).lookup name = some (allocate s name) :=
    AList.lookup_insert _
  -- A record is an old one, or the one just made.
  have hback {v : String} {m : Nat}
      (hr : Reserved { s with assign := s.assign.insert name (allocate s name) } v m) :
      v = name ∧ m = allocate s name ∨ Reserved s v m := by
    rcases hr with hr | hr
    · by_cases hv : v = name
      · subst hv
        exact .inl ⟨rfl, Option.some.inj (hr.symm.trans hnew)⟩
      · exact .inr (.inl ((AList.lookup_insert_ne hv).symm.trans hr))
    · exact .inr (.inr hr)
  refine ⟨fun v m m' hm hm' => ?_, fun u v m hu hv => ?_,
    fun v m hk => (h.held v m hk).assign h name⟩
  · rcases hback (.inl hm) with ⟨rfl, rfl⟩ | hr
    · exact hown m' (.inr hm')
    · exact h.reserved_unique hr (.inr hm')
  · rcases hback hu with ⟨rfl, rfl⟩ | hu' <;> rcases hback hv with ⟨rfl, hm⟩ | hv'
    · rfl
    · rcases hfree with hr | hnone
      · exact h.apart _ _ _ hr hv'
      · exact absurd hv' (hnone v)
    · rw [hm] at hu'
      rcases hfree with hr | hnone
      · exact h.apart _ _ _ hu' hr
      · exact absurd hu' (hnone u)
    · exact h.apart u v m hu' hv'

/-- A config is rendered with the minor reserved for its volume. -/
theorem Good.render (h : Good s) (hr : Reserved s name m) :
    Good { s with configs := s.configs.insert name m } := by
  have hnew : (s.configs.insert name m).lookup name = some m := AList.lookup_insert _
  have hback {v : String} {k : Nat}
      (hk : Reserved { s with configs := s.configs.insert name m } v k) : Reserved s v k := by
    rcases hk with hk | hk
    · exact .inl hk
    · by_cases hv : v = name
      · subst hv
        rw [← Option.some.inj (hnew.symm.trans hk)]
        exact hr
      · exact .inr ((AList.lookup_insert_ne hv).symm.trans hk)
  refine ⟨fun v k k' hk hk' => h.reserved_unique (.inl hk) (hback (.inr hk')),
    fun u v k hu hv => h.apart u v k (hback hu) (hback hv), fun v k hk => ?_⟩
  have hres := h.held v k hk
  by_cases hv : v = name
  · subst hv
    rw [h.reserved_unique hres hr]
    exact .inr hnew
  · exact hres.imp_right fun hc => (AList.lookup_insert_ne hv).trans hc

/-- The kernel registers the minor of the config. -/
theorem Good.register (h : Good s) (hc : s.configs.lookup name = some m) :
    Good { s with kernel := s.kernel.insert name m } := by
  refine ⟨h.agree, h.apart, fun v k hk => ?_⟩
  by_cases hv : v = name
  · subst hv
    rw [← Option.some.inj ((AList.lookup_insert _).symm.trans hk)]
    exact .inr hc
  · exact h.held v k ((AList.lookup_insert_ne hv).symm.trans hk)

theorem applied_unique (h : Good s) {u v : String} (hu : Applied s u m) (hv : Applied s v m) :
    u = v := by
  have hres {w : String} (hw : Applied s w m) : Reserved s w m := hw.elim .inr (h.held w m)
  exact h.apart u v m (hres hu) (hres hv)

end Records

/-! ## Answers -/

/-- Nothing about the volume has changed on the node. -/
structure Untouched (name : String) (s s' : Node) : Prop where
  assign : s'.assign.lookup name = s.assign.lookup name
  configs : s'.configs.lookup name = s.configs.lookup name
  kernel : s'.kernel.lookup name = s.kernel.lookup name

/-- The node's records are the same. -/
structure SameRecords (s s' : Node) : Prop where
  assign : s'.assign = s.assign
  configs : s'.configs = s.configs
  kernel : s'.kernel = s.kernel

section Answers

variable {s s' s₁ : Node} {name : String}

variable {o : NodeOutcome}

theorem SameRecords.untouched (h : SameRecords s s') (name : String) : Untouched name s s' :=
  ⟨by rw [h.assign], by rw [h.configs], by rw [h.kernel]⟩

theorem Good.same (hg : Good s) (h : SameRecords s s') : Good s' := by
  refine hg.shrink (by simp [h.assign]) (by simp [h.configs]) fun v m hk => ?_
  rw [h.kernel] at hk
  exact (hg.held v m hk).imp (by simp [h.assign]) (by simp [h.configs])

theorem registerOn_cases {a : Except AdmErr Unit}
    (h : registerOn s name o = some (a, s')) :
    s' = s ∨ ∃ m, s.configs.lookup name = some m ∧
      s' = { s with kernel := s.kernel.insert name m } := by
  cases o with
  | ok =>
    obtain ⟨m, hm, heq⟩ := Option.map_eq_some_iff.mp h
    cases heq
    exact .inr ⟨m, hm, rfl⟩
  | admFailed e applied =>
    cases applied
    · cases h
      exact .inl rfl
    · obtain ⟨m, hm, heq⟩ := Option.map_eq_some_iff.mp h
      cases heq
      exact .inr ⟨m, hm, rfl⟩
  | failed | flag | ids | view => cases h

/-- The commands that change the records. -/
def Cmd.records : Cmd → Bool
  | .allocateMinor _ | .releaseMinor _ | .releaseOrphanedAssignments _ _ | .writeConfig _
  | .adjust _ _ | .up _ | .downResource _ | .removeStateFiles _ | .removeConfig _ => true
  | _ => false

theorem same_of_answer {c : Cmd} (hc : c.records = false) {a : Ans c}
    (h : nodeAnswer s c o = some (a, s')) : SameRecords s s' := by
  cases c
  case allocateMinor | releaseMinor | releaseOrphanedAssignments | writeConfig | adjust | up |
    downResource | removeStateFiles | removeConfig => cases hc
  case patchSlot | dropSlot =>
    rcases performed h with rfl | ⟨rfl, -⟩ <;> exact ⟨rfl, rfl, rfl⟩
  case lock | writePendingForgets | ensureMarkedMetadata | removeCreatedMarker | forgetPeer |
    ensureDeviceNode | realizeBacking | finishPass | forceDetach | sweepDelete |
    removeFinalizer =>
    rw [(read_cases h).1]
    exact ⟨rfl, rfl, rfl⟩
  case listAll | readDir =>
    rw [(read_cases h).1]
    exact ⟨rfl, rfl, rfl⟩
  case volume =>
    cases o <;> simp only [nodeAnswer] at h
    case view =>
      split at h
      · cases h
        exact ⟨rfl, rfl, rfl⟩
      · cases h
    case ok | failed =>
      cases h
      exact ⟨rfl, rfl, rfl⟩
    all_goals cases h
  all_goals
    cases o <;> cases h
    all_goals exact ⟨rfl, rfl, rfl⟩

theorem lookup_keepAssigned {owned kernel : List String} {v : String} {m : Nat} :
    (s.keepAssigned owned kernel).lookup v = some m ↔
      s.assign.lookup v = some m ∧
        (v ∈ owned ∨ v ∈ kernel ∨ (s.configs.lookup v).isSome) := by
  rw [← Option.mem_def, ← Option.mem_def, AList.mem_lookup_iff, AList.mem_lookup_iff]
  simp only [Node.keepAssigned, List.mem_filter, Bool.or_eq_true, decide_eq_true_iff, or_assoc]

end Answers

end Miroir.Drbd
