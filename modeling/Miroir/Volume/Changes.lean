import Miroir.Volume.World

/-!
# What a step does to volumes, snapshots and backings

`LegChange`, `VolChange` and `SnapChange` list everything one step can do to one backing, one
volume and one snapshot, and `PassChange` what it can do to one pass; `stepped` inverts the step
function into these once. An invariant is then kept by a step if it is kept by each change.
-/

namespace Miroir.Vol

open Process

variable {Γ : Config} {s s' : State} {a : Action} {n v : String}

/-- What a step can do to the backing of `v` on `n`, when only snapshots in `X` can be cloned. -/
inductive LegChange (s : State) (n v : String) (X : String → Prop) :
    Option Backing → Option Backing → Prop
  | kept (b : Option Backing) : LegChange s n v X b b
  | created (bytes : Nat) : LegChange s n v X none
      (some { bytes := bytes, origin := .fresh, recreated := s.recreates n v })
  | cloned {x : String} {o : SnapObject} {sl : SnapLeg} (hx : X x) (ho : s.snaps x = some o)
      (hsl : o.leg n = some sl) : LegChange s n v X none
        (some { bytes := sl.bytes, origin := .clone sl, md := sl.md, recreated := s.recreates n v })
  | grown {b : Backing} {bytes : Nat} (h : b.bytes ≤ bytes) :
      LegChange s n v X (some b) (some { b with bytes := bytes })
  /-- Metadata of a backing at rest is created or wiped. -/
  | wrote {b : Backing} {md : Option Metadata} (h : b.attached = false)
      (hmd : ∀ m, md = some m → m.gen = .justCreated) :
      LegChange s n v X (some b) (some { b with md := md })
  | attached {b : Backing} {m : Metadata} (hm : b.md = some m) :
      LegChange s n v X (some b)
        (some { b with attached := true, joinedWith := b.joinedWith.or (some m.gen) })
  /-- The kernel writes the metadata of an attached backing. -/
  | moved {b : Backing} {md : Option Metadata} (h : b.attached = true) :
      LegChange s n v X (some b) (some { b with md := md })
  | detached {b : Backing} : LegChange s n v X (some b) (some { b with attached := false })
  | vanished {b : Backing} : LegChange s n v X (some b) none

namespace LegChange

variable {X Y : String → Prop} {b : Backing} {l l' : Option Backing}

theorem mono (h : LegChange s n v X l l') (hXY : ∀ x, X x → Y x) : LegChange s n v Y l l' := by
  cases h
  case cloned hx ho hsl => exact .cloned (hXY _ hx) ho hsl
  case grown h => exact .grown h
  case wrote h hmd => exact .wrote h hmd
  case attached hm => exact .attached hm
  case moved h => exact .moved h
  all_goals constructor

theorem grow (σ : Storage) (bytes : Nat) :
    LegChange s n v X (some b) (some (b.grow σ n bytes)) := by
  unfold Backing.grow
  split
  · exact .kept _
  · rename_i h
    exact .grown (Nat.le_trans (Nat.le_of_not_le h) (σ.le_round n bytes))

theorem setMd {b' : Backing} {md : Option Metadata} (h : b.setMd md = some b')
    (hmd : ∀ m, md = some m → m.gen = .justCreated) : LegChange s n v X (some b) (some b') := by
  unfold Backing.setMd at h
  split at h
  · contradiction
  · rename_i ha
    cases h
    exact .wrote (by simpa using ha) hmd

theorem attach {b' : Backing} (h : b.attach = some b') :
    LegChange s n v X (some b) (some b') := by
  unfold Backing.attach at h
  split at h
  · cases h
    exact .kept _
  · obtain ⟨m, hm, rfl⟩ := Option.map_eq_some_iff.mp h
    exact .attached (Option.filter_eq_some_iff.mp hm).1

theorem evolve (l : Option Backing) : LegChange s n v X l (l.map Backing.evolve) := by
  rcases l with _ | b
  · exact .kept none
  · simp only [Option.map_some, Backing.evolve]
    split
    exacts [.moved ‹_›, .kept _]

theorem moveMd (l : Option Backing) : LegChange s n v X l (l.map Backing.moveMd) := by
  rcases l with _ | b
  · exact .kept none
  · simp only [Option.map_some, Backing.moveMd]
    split
    exacts [.moved ‹_›, .kept _]

theorem attachLeg {skip : Bool} (h : Vol.attachLeg l skip = some l') :
    LegChange s n v X l l' := by
  unfold Vol.attachLeg at h
  split at h
  · cases h
    exact .kept _
  · obtain ⟨b, rfl, hb⟩ := Option.bind_eq_some_iff.mp h
    obtain ⟨b', hb', rfl⟩ := Option.map_eq_some_iff.mp hb
    exact attach hb'

theorem createLeg (σ : Storage) (bytes : Nat) :
    LegChange s n v X (s.legs n v) (Vol.createLeg σ s n v bytes) := by
  unfold Vol.createLeg
  split
  · rename_i h
    rw [h]
    exact .kept _
  · rename_i h
    rw [h]
    exact .created _

theorem cloneLeg {x : String} (hx : X x) (h : Vol.cloneLeg s n v x = some l') :
    LegChange s n v X (s.legs n v) l' := by
  unfold Vol.cloneLeg at h
  split at h
  · rename_i hb
    cases h
    rw [hb]
    exact .kept _
  · rename_i hb
    obtain ⟨sl, hsl, rfl⟩ := Option.map_eq_some_iff.mp h
    obtain ⟨o, ho, hl⟩ := Option.bind_eq_some_iff.mp hsl
    rw [hb]
    exact .cloned hx ho hl

end LegChange

/-! ## Answers -/

/-- What answering a command of the pass over `v` on `n` can do to the state. -/
inductive Effect (s : State) (n v : String) (c : VolCmd) : State → Prop
  | none : Effect s n v c s
  | leg {l : Option Backing}
      (h : LegChange s n v (fun x => ∃ src, c = .createFromSnapshot src x) (s.legs n v) l) :
      Effect s n v c (s.setLeg n v l)
  | grown : Effect s n v c (s.growDevice v)
  | marker (m : Marker) (b : Bool) : Effect s n v c (s.setMarker n v m b)
  | activated {o : VolObject} (ho : s.vols v = some o) :
      Effect s n v c (s.setVol v { o with activated := true })

namespace Effect

variable {c : VolCmd} {o : Outcome}

theorem of_change {l : Option (Option Backing)} {r : Except Err Unit × State}
    (h : change s n v l o = some r)
    (hl : ∀ l', l = some l' →
      LegChange s n v (fun x => ∃ src, c = .createFromSnapshot src x) (s.legs n v) l') :
    Effect s n v c r.2 := by
  unfold change at h
  split at h
  · obtain ⟨l', hl', rfl⟩ := Option.map_eq_some_iff.mp h
    exact .leg (hl l' hl')
  · cases h
    rcases l with _ | l'
    exacts [.none, .leg (hl l' rfl)]
  · cases h
    exact .none
  · contradiction

theorem of_effect {s₁ : State} {r : Except Err Unit × State}
    (h : perform () s s₁ o.fate = some r) (h₁ : Effect s n v c s₁) : Effect s n v c r.2 := by
  rcases performed h with h | ⟨h, -⟩
  exacts [h ▸ h₁, h ▸ .none]

theorem of_reading {α : Type} {x : Option α} {r : Except Err α × State}
    (h : reading s x o = some r) : Effect s n v c r.2 := by
  unfold reading at h
  split at h
  · obtain ⟨_, _, rfl⟩ := Option.map_eq_some_iff.mp h
    exact .none
  · cases h
    exact .none
  · contradiction

end Effect

/-- Every answer has one of the effects. -/
theorem effect_of_answer {c : VolCmd} {o : Outcome} {r : VolAns c × State}
    (h : answer Γ s n v c o = some r) : Effect s n v c r.2 := by
  cases c with
  | volume =>
    cases o
    case volume size st =>
      simp only [answer] at h
      split at h
      · split at h
        · cases h
          exact .none
        · contradiction
      · contradiction
    case fail e applied =>
      cases applied
      all_goals cases h
      exact .none
    all_goals cases h
    exact .none
  | fastPath | attached | status =>
    cases o
    case fail e applied =>
      cases applied
      all_goals cases h
      try exact .none
    all_goals cases h
    all_goals exact .none
  | snapshot x =>
    cases o
    case ok =>
      obtain ⟨_, _, rfl⟩ := Option.map_eq_some_iff.mp h
      exact .none
    case fail e applied =>
      cases applied
      all_goals cases h
      exact .none
    all_goals cases h
    exact .none
  | deviceExists | stat m | dumpMd => exact .of_reading h
  | create bytes =>
    refine .of_change h fun l' hl => ?_
    cases hl
    exact .createLeg _ _
  | resize bytes =>
    refine .of_change h fun l' hl => ?_
    obtain ⟨b, hb, rfl⟩ := Option.map_eq_some_iff.mp hl
    rw [hb]
    exact .grow _ _
  | createFromSnapshot src x => exact .of_change h fun l' hl => .cloneLeg ⟨src, rfl⟩ hl
  | patchStatus mine | prepare | finishApply => exact .of_effect h .none
  | patchActivated =>
    simp only [answer] at h
    split at h
    · exact .of_effect h (.activated ‹_›)
    · contradiction
  | touch m | remove m => exact .of_effect h (.marker _ _)
  | createMd =>
    refine .of_change h fun l' hl => ?_
    obtain ⟨b, hb, hl⟩ := Option.bind_eq_some_iff.mp hl
    obtain ⟨b', hb', rfl⟩ := Option.map_eq_some_iff.mp hl
    rw [hb]
    exact .setMd hb' fun m hm => by cases hm; rfl
  | wipeMd =>
    refine .of_change h fun l' hl => ?_
    obtain ⟨b, hb, hl⟩ := Option.bind_eq_some_iff.mp hl
    obtain ⟨b', hb', rfl⟩ := Option.map_eq_some_iff.mp hl
    rw [hb]
    exact .setMd hb' nofun
  | adjust skip =>
    cases o
    case ok =>
      obtain ⟨l', hl', rfl⟩ := Option.map_eq_some_iff.mp h
      exact .leg (.attachLeg hl')
    case adjustFails e applied =>
      cases h
      dsimp only
      split
      · cases hl : attachLeg (s.legs n v) skip
        exacts [.none, .leg (.attachLeg hl)]
      · exact .none
    all_goals cases h
  | up => exact .of_change h fun l' hl => .attachLeg hl
  | mint =>
    cases o
    case status st =>
      cases h
      exact .leg (.evolve _)
    case fail e applied =>
      cases applied
      all_goals cases h
      exact .none
    all_goals cases h
  | drbdResize =>
    cases o
    case ok =>
      cases h
      exact .grown
    case resizeFails e applied =>
      cases h
      dsimp only
      split
      exacts [.grown, .none]
    all_goals cases h

/-! ## Steps -/

/-- What a step can do to a volume. -/
inductive VolChange (s : State) (a : Action) (v : String) :
    Option VolObject → Option VolObject → Prop
  | kept (o : Option VolObject) : VolChange s a v o o
  | created {req : CreateRequest} {source : Option VolumeSource}
      (ha : a = .createVolume v req) (hsrc : s.sourceOf req = some source) :
      VolChange s a v none (some { spec := req.spec source, sizes := [req.sizeBytes] })
  | grown {o : VolObject} {size : Nat} (h : o.spec.sizeBytes ≤ size) :
      VolChange s a v (some o) (some { o with
        spec := { o.spec with sizeBytes := size }, sizes := size :: o.sizes })
  | activated {o : VolObject} : VolChange s a v (some o) (some { o with activated := true })
  | lost {o : VolObject} {n : String} (ha : a = .lose n v ∨ a = .wipe n) :
      VolChange s a v (some o) (some { o with lost := n :: o.lost })

/-- What a step can do to a snapshot. -/
inductive SnapChange (σ : Storage) (s : State) : Option SnapObject → Option SnapObject → Prop
  | kept (o : Option SnapObject) : SnapChange σ s o o
  | cut {v : String} {o : VolObject} {size exposed : Nat} (ho : s.vols v = some o) :
      SnapChange σ s none (some {
        volumeName := v, sizeBytes := size, legs := s.cutLegs σ v o.spec exposed })
  | legGone {o : SnapObject} (n : String) : SnapChange σ s (some o) (some (o.dropLeg n))
  | gone {o : SnapObject} : SnapChange σ s (some o) (some { o with present := false })

/-- What a step can do to the pass over `v` on `n`. -/
inductive PassChange (Γ : Config) (s : State) (a : Action) (s' : State) (n v : String) :
    Option VolPass → Option VolPass → Prop
  | kept {p : Option VolPass} (h : ∀ o, a ≠ .reply n v o) : PassChange Γ s a s' n v p p
  | gone {p : Option VolPass} : PassChange Γ s a s' n v p none
  | started : PassChange Γ s a s' n v none
      (some ⟨[], VolumeReconciler.reconcile (Γ.agent n)⟩)
  | answered {log : VolLog} {c : VolCmd} {k : VolAns c → VolM Result} {o : Outcome}
      {r : VolAns c × State} (h : answer Γ s n v c o = some r) (hlegs : s'.legs = r.2.legs) :
      PassChange Γ s a s' n v (some ⟨log, .ask c k⟩) (some ⟨⟨s.tick, c, r.1⟩ :: log, k r.1⟩)

/-- The snapshots a step can clone onto `n` for `v`. -/
def Clones (s : State) (a : Action) (n v x : String) : Prop :=
  ∃ o log src k, a = .reply n v o ∧ s.pass n v = some ⟨log, .ask (.createFromSnapshot src x) k⟩

/-- What a step does. -/
structure Stepped (Γ : Config) (s : State) (a : Action) (s' : State) : Prop where
  leg : ∀ n v, LegChange s n v (Clones s a n v) (s.legs n v) (s'.legs n v)
  vol : ∀ v, VolChange s a v (s.vols v) (s'.vols v)
  snap : ∀ x, SnapChange Γ.storage s (s.snaps x) (s'.snaps x)
  pass : ∀ n v, PassChange Γ s a s' n v (s.pass n v) (s'.pass n v)

section Set

theorem setLeg_legs (s : State) (n v : String) (l : Option Backing) (n' v' : String) :
    (s.setLeg n v l).legs n' v' = if n' = n ∧ v' = v then l else s.legs n' v' := by
  by_cases hn : n' = n
  · subst hn
    by_cases hv : v' = v
    · simp [State.setLeg, hv]
    · simp [State.setLeg, hv]
  · simp [State.setLeg, hn]

theorem setPass_pass (s : State) (n v : String) (p : Option VolPass) (n' v' : String) :
    (s.setPass n v p).pass n' v' = if n' = n ∧ v' = v then p else s.pass n' v' := by
  by_cases hn : n' = n
  · subst hn
    by_cases hv : v' = v
    · simp [State.setPass, hv]
    · simp [State.setPass, hv]
  · simp [State.setPass, hn]

theorem LegChange.setLeg {X : String → String → String → Prop} {l : Option Backing}
    (h : LegChange s n v (X n v) (s.legs n v) l) (n' v' : String) :
    LegChange s n' v' (X n' v') (s.legs n' v') ((s.setLeg n v l).legs n' v') := by
  rw [setLeg_legs]
  split
  · rename_i hnv
    obtain ⟨rfl, rfl⟩ := hnv
    exact h
  · exact .kept _

theorem VolChange.setVol {o o' : VolObject} (ho : s.vols v = some o)
    (h : VolChange s a v (some o) (some o')) (v' : String) :
    VolChange s a v' (s.vols v') ((s.setVol v o').vols v') := by
  by_cases hv : v' = v
  · subst hv
    simpa [State.setVol, ho] using h
  · simpa [State.setVol, hv] using VolChange.kept _

theorem SnapChange.setSnap {σ : Storage} {x : String} {o' : SnapObject}
    (h : SnapChange σ s (s.snaps x) (some o')) (x' : String) :
    SnapChange σ s (s.snaps x') ((s.setSnap x o').snaps x') := by
  by_cases hx : x' = x
  · subst hx
    simpa [State.setSnap] using h
  · simpa [State.setSnap, hx] using SnapChange.kept _

end Set

namespace Effect

variable {c : VolCmd}

theorem pass_eq (h : Effect s n v c s') : s'.pass = s.pass := by cases h <;> rfl

theorem snaps_eq (h : Effect s n v c s') : s'.snaps = s.snaps := by cases h <;> rfl

theorem volChange (h : Effect s n v c s') (v' : String) :
    VolChange s a v' (s.vols v') (s'.vols v') := by
  cases h with
  | none | leg | grown | marker => exact .kept _
  | activated ho => exact .setVol ho .activated v'

theorem legChange {X : String → String → String → Prop} (h : Effect s n v c s')
    (hX : ∀ src x, c = .createFromSnapshot src x → X n v x) (n' v' : String) :
    LegChange s n' v' (X n' v') (s.legs n' v') (s'.legs n' v') := by
  cases h with
  | none | marker | activated => exact .kept _
  | leg h => exact .setLeg (h.mono fun x ⟨src, hc⟩ => hX src x hc) n' v'
  | grown =>
    simp only [State.growDevice]
    split
    exacts [.moveMd _, .kept _]

end Effect

/-- A step that touches one pass only. -/
theorem Stepped.of_setPass {p : Option VolPass} (ha : ∀ n v o, a ≠ .reply n v o)
    (hp : PassChange Γ s a (s.setPass n v p) n v (s.pass n v) p) :
    Stepped Γ s a (s.setPass n v p) where
  leg _ _ := .kept _
  vol _ := .kept _
  snap _ := .kept _
  pass n' v' := by
    rw [setPass_pass]
    split
    · rename_i hnv
      obtain ⟨rfl, rfl⟩ := hnv
      exact hp
    · exact .kept (ha n' v')

/-- A step that touches volumes only. -/
theorem Stepped.of_vols {vols : String → Option VolObject} (ha : ∀ n v o, a ≠ .reply n v o)
    (h : ∀ v, VolChange s a v (s.vols v) (vols v)) : Stepped Γ s a { s with vols := vols } where
  leg _ _ := .kept _
  vol := h
  snap _ := .kept _
  pass n v := .kept (ha n v)

/-- A step that touches snapshots only. -/
theorem Stepped.of_snaps {snaps : String → Option SnapObject} (ha : ∀ n v o, a ≠ .reply n v o)
    (h : ∀ x, SnapChange Γ.storage s (s.snaps x) (snaps x)) :
    Stepped Γ s a { s with snaps := snaps } where
  leg _ _ := .kept _
  vol _ := .kept _
  snap := h
  pass n v := .kept (ha n v)

/-- A step that touches one backing only. -/
theorem Stepped.of_setLeg {l : Option Backing} (ha : ∀ n v o, a ≠ .reply n v o)
    (h : LegChange s n v (Clones s a n v) (s.legs n v) l) : Stepped Γ s a (s.setLeg n v l) where
  leg := LegChange.setLeg (X := Clones s a) h
  vol _ := .kept _
  snap _ := .kept _
  pass n v := .kept (ha n v)

theorem stepped_of_reply {o : Outcome} (h : act Γ s (.reply n v o) = some s') :
    Stepped Γ s (.reply n v o) s' := by
  simp only [act] at h
  split at h
  · rename_i log c k hp
    obtain ⟨r, hr, rfl⟩ := Option.map_eq_some_iff.mp h
    have heff := effect_of_answer hr
    refine ⟨?_, fun v' => heff.volChange v', fun x => ?_, fun n' v' => ?_⟩
    · refine heff.legChange fun src x hc => ?_
      subst hc
      exact ⟨o, log, src, k, rfl, hp⟩
    · show SnapChange _ _ _ (r.2.snaps x)
      rw [heff.snaps_eq]
      exact .kept _
    · rw [setPass_pass]
      split
      · rename_i hnv
        obtain ⟨rfl, rfl⟩ := hnv
        rw [hp]
        exact .answered hr rfl
      · rename_i hnv
        rw [heff.pass_eq]
        refine .kept fun o' ho' => hnv ?_
        cases ho'
        exact ⟨rfl, rfl⟩
  · contradiction

theorem stepped_wipe : Stepped Γ s (.wipe n) (s.wipe n) where
  leg n' v' := by
    by_cases hn : n' = n
    · subst hn
      simp only [State.wipe, Function.update_self]
      cases s.legs n' v'
      exacts [.kept _, .vanished]
    · simpa [State.wipe, hn] using LegChange.kept _
  vol v := by
    simp only [State.wipe]
    cases s.vols v with
    | none => exact .kept _
    | some o =>
      simp only [Option.map_some]
      split
      exacts [.lost (.inr rfl), .kept _]
  snap x := by
    simp only [State.wipe]
    cases s.snaps x
    exacts [.kept _, .legGone n]
  pass n' v' := by
    by_cases hn : n' = n
    · subst hn
      simpa [State.wipe] using PassChange.gone
    · have hkept : (s.wipe n).pass n' v' = s.pass n' v' := by simp [State.wipe, hn]
      rw [hkept]
      exact .kept nofun

/-- Every step is one of the changes, for each part of the state. -/
theorem stepped_of_act (h : act Γ s a = some s') : Stepped Γ s a s' := by
  cases a with
  | reply n v o => exact stepped_of_reply h
  | start n v =>
    simp only [act] at h
    split at h
    · rename_i hp
      cases h
      exact .of_setPass nofun (by rw [hp]; exact .started)
    · contradiction
  | finish n v =>
    simp only [act] at h
    split at h
    · cases h
      exact .of_setPass nofun .gone
    · contradiction
  | crash n v =>
    cases h
    exact .of_setPass nofun .gone
  | createVolume v req =>
    simp only [act] at h
    split at h
    · rename_i source hv hsrc
      split at h
      · cases h
        refine .of_vols nofun fun v' => ?_
        by_cases hv' : v' = v
        · subst hv'
          rw [hv, Function.update_self]
          exact .created rfl hsrc
        · rw [Function.update_of_ne hv']
          exact .kept _
      · contradiction
    · contradiction
  | expand v size =>
    simp only [act] at h
    split at h
    · rename_i o ho
      split at h
      · cases h
        exact .of_vols nofun (VolChange.setVol ho (.grown ‹_›))
      · contradiction
    · contradiction
  | cut x v size exposed =>
    simp only [act] at h
    split at h
    · rename_i o ho hx
      split at h
      · cases h
        exact .of_snaps nofun (SnapChange.setSnap (by rw [hx]; exact .cut ho))
      · contradiction
    · contradiction
  | dropSnapLeg x n =>
    obtain ⟨o, ho, rfl⟩ := Option.map_eq_some_iff.mp h
    exact .of_snaps nofun (SnapChange.setSnap (by rw [ho]; exact .legGone n))
  | dropSnap x =>
    obtain ⟨o, ho, rfl⟩ := Option.map_eq_some_iff.mp h
    exact .of_snaps nofun (SnapChange.setSnap (by rw [ho]; exact .gone))
  | lose n v =>
    simp only [act] at h
    split at h
    · rename_i o b ho hb
      cases h
      exact {
        leg := LegChange.setLeg (s := s) (X := Clones s _) (by rw [hb]; exact .vanished)
        vol := VolChange.setVol ho (.lost (.inl rfl))
        snap := fun _ => .kept _
        pass := fun n v => .kept nofun }
    · contradiction
  | wipe n =>
    cases h
    exact stepped_wipe
  | loseMarkers n v =>
    cases h
    exact ⟨fun _ _ => .kept _, fun _ => .kept _, fun _ => .kept _, fun _ _ => .kept nofun⟩
  | activate v =>
    obtain ⟨o, ho, rfl⟩ := Option.map_eq_some_iff.mp h
    exact .of_vols nofun (VolChange.setVol ho .activated)
  | evolve n v =>
    cases h
    exact .of_setLeg nofun (.evolve _)
  | detach n v =>
    cases h
    refine .of_setLeg nofun ?_
    cases s.legs n v
    exacts [.kept _, .detached]

theorem stepped (h : step Γ s a = some s') : Stepped Γ s a s' := by
  obtain ⟨s₁, h₁, rfl⟩ := Option.map_eq_some_iff.mp h
  have hs := stepped_of_act h₁
  exact ⟨hs.leg, hs.vol, hs.snap, fun n v => by
    have hp := hs.pass n v
    generalize s.pass n v = p, s₁.pass n v = p' at hp ⊢
    cases hp
    exacts [.kept ‹_›, .gone, .started, .answered ‹_› ‹_›]⟩

end Miroir.Vol
