import Miroir.Agent.Round

/-!
# Reading a pass's log

What a pass has read and done is in its log. `Frame` says that a piece of code has only added
entries that leave the views alone. `Quiet` says that the sibling check found no other live round
over a volume: the newest list of snapshots shows no other standalone round, and every other
group with a member over the volume was read afterwards and was not mid-round.
`volumeRoundActive_obeys` is the specification of the check.
-/

namespace Miroir

open Process Prog

/-- The copy of volume `v` the pass read last. -/
def volView (v : String) : PassLog → Option Volume
  | [] => none
  | ⟨_, .cachedVolume u, .ok (some w)⟩ :: l => if u = v then some w else volView v l
  | _ :: l => volView v l

theorem volView_mem {v : String} {log : PassLog} {u : Volume} (h : volView v log = some u) :
    ∃ t, (⟨t, .cachedVolume v, .ok (some u)⟩ : Entry Nat Ans) ∈ log := by
  fun_induction volView v log with
  | case1 => cases h
  | case2 t w l =>
    obtain rfl := Option.some.inj h
    exact ⟨t, .head _⟩
  | case3 t y w l hy ih => exact (ih h).imp fun _ => List.mem_cons_of_mem _
  | case4 e l he ih => exact (ih h).imp fun _ => List.mem_cons_of_mem _

/-- The command reads through the informer cache. -/
def Cmd.cached : Cmd → Bool
  | .cachedSnapshot _ | .cachedGroup _ | .cachedVolume _ => true
  | _ => false

/-- The log grew from `l` to `l'` by entries that are no cached reads. -/
abbrev Frame (l l' : PassLog) : Prop := Grew (fun c => c.cached = false) l l'

theorem Frame.refl (l : PassLog) : Frame l l := Grew.refl l

section Frame

variable {l l' : PassLog}

theorem Frame.snapView_eq (h : Frame l l') (x : String) : snapView x l' = snapView x l := by
  refine h.view_eq fun e _ hc => ?_
  obtain ⟨_, c, _⟩ := e
  cases c <;> simp_all [snapView, Cmd.cached]

theorem Frame.groupView_eq (h : Frame l l') (g : String) : groupView g l' = groupView g l := by
  refine h.view_eq fun e _ hc => ?_
  obtain ⟨_, c, _⟩ := e
  cases c <;> simp_all [groupView, Cmd.cached]

theorem Frame.volView_eq (h : Frame l l') (v : String) : volView v l' = volView v l := by
  refine h.view_eq fun e _ hc => ?_
  obtain ⟨_, c, _⟩ := e
  cases c <;> simp_all [volView, Cmd.cached]

end Frame

/-! ## The sibling check -/

/-- The newest list of snapshots, with its time. -/
def lastList : PassLog → Option (Nat × List Snapshot)
  | [] => none
  | ⟨t, .listSnapshots, .ok items⟩ :: _ => some (t, items)
  | _ :: l => lastList l

/-- The entries after the newest list of snapshots. -/
def sinceList : PassLog → PassLog
  | [] => []
  | ⟨_, .listSnapshots, .ok _⟩ :: _ => []
  | e :: l => e :: sinceList l

/-- The newest read of snapshot `x` straight from the API server, with its time. -/
def lastGet (x : String) : PassLog → Option (Nat × Option Snapshot)
  | [] => none
  | ⟨t, .getSnapshot y, .ok r⟩ :: l => if y = x then some (t, r) else lastGet x l
  | _ :: l => lastGet x l

/-- The newest list shows no other standalone round over `volume`, and every other group with
a member over it was read after the list and is not mid-round. -/
def Quiet (volume ownSnap ownGroup : String) (log : PassLog) : Prop :=
  ∃ t items groups, lastList log = some (t, items) ∧
    siblingGroups volume ownSnap ownGroup items = some groups ∧
    ∀ g ∈ groups, ∃ t' r, (⟨t', .getGroup g, .ok r⟩ : Entry Nat Ans) ∈ sinceList log ∧
      ∀ grp, r = some grp → grp.status.ioSuspended = false

/-- The volume whose DRBD status the pass asked for last: the one whose barrier it is about to
lift. -/
def lastStatus : PassLog → Option String
  | [] => none
  | ⟨_, .drbdStatus v, _⟩ :: _ => some v
  | _ :: l => lastStatus l

/-- The pass, about to lift the barrier of `v`, has asked for a group that is mid-round. -/
def FoundGroup (v : String) (log : PassLog) : Prop :=
  ∃ t g grp old, (⟨t, .getGroup g, .ok (some grp)⟩ : Entry Nat Ans) :: old <:+ log ∧
    lastStatus old = some v ∧ grp.status.ioSuspended = true

/-- The pass, about to lift the barrier of `v`, has found another round over `volume`: a standalone
one in a list of snapshots, or one of a group it asked for. -/
def FoundRound (v volume ownSnap ownGroup : String) (log : PassLog) : Prop :=
  (∃ t items old, (⟨t, .listSnapshots, .ok items⟩ : Entry Nat Ans) :: old <:+ log ∧
    lastStatus old = some v ∧ siblingGroups volume ownSnap ownGroup items = none) ∨ FoundGroup v log

/-- Why the barrier of `v` is not up on the node: DRBD does not report it, it is down, the pass has
lifted it, or another round has it (`found`). -/
inductive Lifted (v : String) (found : Prop) (log : PassLog) : Prop
  | silent {t e} (h : (⟨t, .drbdStatus v, .error e⟩ : Entry Nat Ans) ∈ log)
  | down {t st} (h : (⟨t, .drbdStatus v, .ok st⟩ : Entry Nat Ans) ∈ log)
      (hs : st.suspended = false)
  | lifted {t} (h : (⟨t, .resumeIo v, .ok ()⟩ : Entry Nat Ans) ∈ log)
  | deferred (h : found)

theorem FoundRound.frame {v volume ownSnap ownGroup : String} {l l' : PassLog}
    (h : FoundRound v volume ownSnap ownGroup l) (hf : Frame l l') :
    FoundRound v volume ownSnap ownGroup l' := by
  rcases h with ⟨t, items, old, hm, hs⟩ | ⟨t, g, grp, old, hm, hs⟩
  · exact .inl ⟨t, items, old, hm.trans hf.suffix, hs⟩
  · exact .inr ⟨t, g, grp, old, hm.trans hf.suffix, hs⟩

theorem Lifted.frame {v : String} {found found' : Prop} {l l' : PassLog} (h : Lifted v found l)
    (hf : Frame l l') (hfound : found → found') : Lifted v found' l' := by
  cases h with
  | silent h => exact .silent (hf.mem h)
  | down h hs => exact .down (hf.mem h) hs
  | lifted h => exact .lifted (hf.mem h)
  | deferred h => exact .deferred (hfound h)

/-- A command that raises and lifts no barrier, touches no leg, writes nothing and reads no snapshot
or group from the cache. -/
def Cmd.harmless : Cmd → Bool
  | .resumeIo _ | .suspendIo _ | .deleteSnapshot _ _ _ | .snapshot _ _ _ | .write _ => false
  | .cachedSnapshot _ | .cachedGroup _ => false
  | _ => true

/-- What asking for `groups` leaves behind, after a list of snapshots. -/
structure GroupsAsked (t : Nat) (items : List Snapshot) (groups : List String) (l l' : PassLog)
    (r : Except Err Bool) : Prop where
  frame : Frame l l'
  gets : ∀ x, lastGet x l' = lastGet x l
  quiet : r = .ok false → lastList l' = some (t, items) ∧ (∀ e ∈ sinceList l, e ∈ sinceList l') ∧
    ∀ g ∈ groups, ∃ t' r, (⟨t', .getGroup g, .ok r⟩ : Entry Nat Ans) ∈ sinceList l' ∧
      ∀ grp, r = some grp → grp.status.ioSuspended = false
  found : ∀ v, lastStatus l = some v → r = .ok true → FoundGroup v l'

/-- What the sibling check leaves behind: a volume that is quiet if the answer is no, and the other
round in the log if it is yes. -/
structure Checked (volume ownSnap ownGroup : String) (l l' : PassLog) (r : Except Err Bool) :
    Prop where
  frame : Frame l l'
  gets : ∀ x, lastGet x l' = lastGet x l
  quiet : r = .ok false → Quiet volume ownSnap ownGroup l'
  found : ∀ v, lastStatus l = some v → r = .ok true → FoundRound v volume ownSnap ownGroup l'

variable {G : PassLog → Cmd → Prop} {l : PassLog} (hG : ∀ l c, c.harmless = true → G l c)
include hG

theorem anyGroupActive_obeys {t : Nat} {items : List Snapshot} (groups : List String)
    (hl : lastList l = some (t, items)) :
    Obeys G (GroupsAsked t items groups l) l (anyGroupActive groups) := by
  induction groups generalizing l with
  | nil => exact ⟨Frame.refl l, fun _ => rfl, fun _ => ⟨hl, fun _ h => h, by simp⟩, nofun⟩
  | cons g groups ih =>
    refine (Frame.refl l).call rfl (hG _ _ rfl) fun t₁ r hf => ?_
    have hstep : ∀ r₁ : Option SnapshotGroup, r = .ok r₁ →
        (∀ grp, r₁ = some grp → grp.status.ioSuspended = false) →
        Obeys G (GroupsAsked t items (g :: groups) l) (⟨t₁, .getGroup g, r⟩ :: l)
          (anyGroupActive groups) := by
      rintro r₁ rfl hr
      refine (ih (l := ⟨t₁, .getGroup g, .ok r₁⟩ :: l) hl).mono fun l' b hb =>
        ⟨hf.trans hb.frame, hb.gets, fun hb' => ?_, hb.found⟩
      obtain ⟨h₁, h₂, h₃⟩ := hb.quiet hb'
      refine ⟨h₁, fun e he => h₂ e (.tail _ he), fun g' hg' => ?_⟩
      rcases List.mem_cons.mp hg' with rfl | hg'
      · exact ⟨t₁, r₁, h₂ _ (.head _), hr⟩
      · exact h₃ g' hg'
    rcases r with e | _ | grp
    · exact ⟨hf, fun _ => rfl, nofun, nofun⟩
    · exact hstep none rfl (by simp)
    · dsimp only
      split
      · rename_i hs
        exact ⟨hf, fun _ => rfl, nofun, fun v hv _ => ⟨t₁, g, grp, l, List.suffix_refl _, hv, hs⟩⟩
      · rename_i hs
        exact hstep (some grp) rfl (by simpa using hs)

theorem volumeRoundActive_obeys (volume ownSnap ownGroup : String) :
    Obeys G (Checked volume ownSnap ownGroup l) l (volumeRoundActive volume ownSnap ownGroup) := by
  refine (Frame.refl l).call rfl (hG _ _ rfl) fun t r hf => ?_
  rcases r with e | items
  · exact ⟨hf, fun _ => rfl, nofun, nofun⟩
  · dsimp only
    split
    · rename_i hs
      exact ⟨hf, fun _ => rfl, nofun,
        fun v hv _ => .inl ⟨t, items, l, List.suffix_refl _, hv, hs⟩⟩
    · rename_i groups hs
      have hlast : lastList (⟨t, .listSnapshots, .ok items⟩ :: l) = some (t, items) := rfl
      refine (anyGroupActive_obeys hG groups hlast).mono fun l' b hb =>
        ⟨hf.trans hb.frame, hb.gets, fun hb' => ?_, fun v hv ht => .inr (hb.found v hv ht)⟩
      obtain ⟨h₁, -, h₃⟩ := hb.quiet hb'
      exact ⟨t, items, groups, h₁, hs, h₃⟩

/-! ## The clock, the freeze and failures -/

/-- A clock reading of the pass is past the deadline of the round it sees. -/
def Expired (log : PassLog) (stamp : Option Stamp) : Prop :=
  ∃ τ t, (⟨τ, .now, t⟩ : Entry Nat Ans) ∈ log ∧ pastDeadline t stamp = true

omit hG in
theorem Expired.frame {l l' : PassLog} {stamp : Option Stamp} (h : Expired l stamp)
    (hf : Frame l l') : Expired l' stamp := by
  obtain ⟨τ, t, hm, ht⟩ := h
  exact ⟨τ, t, hf.mem hm, ht⟩

theorem clockFor_obeys (stamp : Option Stamp) :
    Obeys G (fun l' t => Frame l l' ∧ (pastDeadline t stamp → Expired l' stamp)) l
      (clockFor stamp) := by
  unfold clockFor
  split
  · exact ⟨hG _ _ rfl, fun t r => ⟨(Frame.refl l).cons r rfl,
      fun h => ⟨t, r, .head _, h⟩⟩⟩
  · rename_i hs
    refine ⟨Frame.refl l, fun h => ?_⟩
    simp_all [pastDeadline]

theorem inBackoff_obeys (myState : Option SnapshotNodeState) (stamp : Option Stamp) :
    Obeys G (fun l' _ => Frame l l') l (inBackoff myState stamp) := by
  unfold inBackoff
  split
  · exact ⟨hG _ _ rfl, fun t r => (Frame.refl l).cons r rfl⟩
  · exact Frame.refl l

theorem barrierFailed_obeys (name : String) (e : Err) :
    Obeys G (fun l' _ => Frame l l') l (barrierFailed name e) := by
  refine (Frame.refl l).call rfl (hG _ _ rfl) fun t r hf => ?_
  split <;> exact hf

theorem freezeMounted_obeys (a : Agent) (vol : Volume) :
    Obeys G (fun l' _ => Frame l l') l (freezeMounted a vol) := by
  unfold freezeMounted
  split
  · exact ⟨hG _ _ rfl, fun t r => (Frame.refl l).cons r rfl⟩
  · exact Frame.refl l

theorem thawMounted_obeys (a : Agent) (vol : Volume) :
    Obeys G (fun l' _ => Frame l l') l (thawMounted a vol) := by
  unfold thawMounted
  split
  · exact ⟨hG _ _ rfl, fun t r => (Frame.refl l).cons r rfl⟩
  · exact Frame.refl l

end Miroir
