import Miroir.Csi.GroupController

/-!
# What a create takes back

A create deletes a member only once it has ensured it and has then been told that the group is not
there, or that the group there does not list it (`disowned`). It creates its group only while it has
been told nothing of the kind.
-/

namespace Miroir.Csi

open Process Prog

/-! ## Logs -/

/-- The member an RPC is told of: it has created it, or reads it. -/
def member : Entry Nat Ans → Option String
  | ⟨_, .createSnapshot x _ _ _, .ok _⟩ | ⟨_, .getSnapshot x, .ok _⟩ => some x
  | _ => none

def ensured (x : String) (log : RpcLog) : Bool := log.any fun e => member e = some x

/-- The RPC is told that group `g` is not there, or that it does not list `x`. -/
def disowns (g x : String) : Entry Nat Ans → Bool
  | ⟨_, .cachedGroup h, .error .notFound⟩ => h = g
  | ⟨_, .getGroup h, .ok grp⟩ => h = g && x ∉ grp.snapshotNames
  | _ => false

/-- Told so after it has ensured `x`. -/
def disowned (g x : String) : RpcLog → Bool
  | [] => false
  | e :: log => disowns g x e && ensured x log || disowned g x log

theorem disowned_cons {g x : String} {e : Entry Nat Ans} {log : RpcLog} :
    disowned g x (e :: log) ↔
      disowns g x e ∧ ensured x log ∨ disowned g x log := by
  simp [disowned]

theorem ensured_of_disowned {g x : String} {log : RpcLog} (h : disowned g x log) :
    ensured x log := by
  induction log with
  | nil => cases h
  | cons e log ih =>
    rw [ensured, List.any_cons, Bool.or_eq_true]
    exact .inr ((disowned_cons.mp h).elim And.right ih)

/-- Nothing is disowned yet. -/
def Quiet (g : String) (log : RpcLog) : Prop := ∀ x, disowned g x log = false

section Quiet

variable {g : String} {log l' : RpcLog} {e : Entry Nat Ans}

theorem Quiet.of_not_ensured (h : ∀ x, ensured x log = false) : Quiet g log := fun x =>
  Bool.eq_false_iff.mpr fun hd => Bool.noConfusion ((h x).symm.trans (ensured_of_disowned hd))

theorem Quiet.cons (h : Quiet g log) (he : ∀ x, disowns g x e → ensured x log = false) :
    Quiet g (e :: log) := fun x => Bool.eq_false_iff.mpr fun hd => by
  rcases disowned_cons.mp hd with ⟨hd, hx⟩ | hd
  · exact Bool.noConfusion ((he x hd).symm.trans hx)
  · exact Bool.noConfusion ((h x).symm.trans hd)

theorem ensured_cons {x : String} (h : ensured x log) : ensured x (e :: log) := by
  rw [ensured, List.any_cons, Bool.or_eq_true]
  exact .inr h

theorem not_ensured_of_grew {P : Cmd → Prop} {x : String} (h : Grew P log l')
    (hP : ∀ e : Entry Nat Ans, P e.cmd → member e = none) (hx : ensured x log = false) :
    ensured x l' = false := by
  obtain ⟨new, rfl, hnew⟩ := h
  rw [ensured, List.any_append, Bool.or_eq_false_iff]
  exact ⟨List.any_eq_false.mpr fun e he => by simp [hP e (hnew e he)], hx⟩

end Quiet

/-! ## The specification -/

/-- What an RPC may ask. -/
def guard : Rpc → RpcLog → Cmd → Prop
  | .create name _, log, .deleteSnapshot x => disowned name x log = true
  | .create name _, log, .createGroup g _ _ => g = name ∧ Quiet name log
  | .create .., _, _ => True
  | .delete .., _, .createGroup .. => False
  | .delete .., _, _ => True

section Create

variable {name : String} {ids : List String} {log : RpcLog}

theorem obeys_cleanupStrayMembers {owned names : List String}
    (h : ∀ x ∈ names, x ∉ owned → disowned name x log) :
    Obeys (guard (.create name ids)) (fun _ _ => True) log (cleanupStrayMembers owned names) := by
  induction names generalizing log with
  | nil => trivial
  | cons x names ih =>
    rw [cleanupStrayMembers]
    have hrest := fun y hy => h y (.tail _ hy)
    split
    · exact ih hrest
    · rename_i hx
      refine obeys_call_bind (h x (.head _) hx) fun t r => ih fun y hy ho => ?_
      exact disowned_cons.mpr (.inr (hrest y hy ho))

theorem obeys_cleanupPartialMembers {created : List String}
    (h : ∀ x ∈ created, ensured x log) :
    Obeys (guard (.create name ids)) (fun _ _ => True) log
      (cleanupPartialMembers name created) := by
  rw [cleanupPartialMembers]
  split
  · trivial
  · refine obeys_call_bind trivial fun t r => ?_
    split
    · refine obeys_cleanupStrayMembers fun x hx _ => disowned_cons.mpr (.inl ⟨?_, h x hx⟩)
      simp [disowns]
    · trivial

/-- A member that is ensured is in the log; nothing else is learnt of the group. -/
theorem obeys_ensureSnapshot {x : String} {vol : Volume} (hq : Quiet name log) :
    Obeys (guard (.create name ids)) (fun l r => Quiet name l ∧
        (∀ y, ensured y log → ensured y l) ∧
        ((∃ snap, r = .ok snap) → ensured x l)) log
      (ensureSnapshot x vol name) := by
  refine obeys_call_bind trivial fun t r => ?_
  have hq' : Quiet name (⟨t, .createSnapshot x vol.name name (vol.spec.replicas.map Replica.node),
      r⟩ :: log) := hq.cons fun y hy => (by cases hy)
  rcases r with (_ | _ | text | text) | snap
  case ok => exact ⟨hq', fun y => ensured_cons, fun _ => by simp [ensured, member]⟩
  case error.alreadyExists =>
    refine obeys_call_bind trivial fun t' r => ?_
    have hq'' := hq'.cons (e := ⟨t', .getSnapshot x, r⟩) fun y hy => (by cases hy)
    rcases r with e | existing
    · exact ⟨hq'', fun y hy => ensured_cons (ensured_cons hy), fun ⟨_, h⟩ => (by cases h)⟩
    · dsimp only
      split
      · exact ⟨hq'', fun y hy => ensured_cons (ensured_cons hy), fun ⟨_, h⟩ => (by cases h)⟩
      · exact ⟨hq'', fun y hy => ensured_cons (ensured_cons hy), fun _ => by simp [ensured, member]⟩
  all_goals exact ⟨hq', fun y => ensured_cons, fun ⟨_, h⟩ => (by cases h)⟩

/-- All members are ensured, or what is ensured is taken back. -/
theorem obeys_ensureMembers {created : List String} {members : List (String × Volume)}
    (hq : Quiet name log) (hc : ∀ x ∈ created, ensured x log) :
    Obeys (guard (.create name ids)) (fun l r => (∃ snaps, r = .ok snaps) → Quiet name l ∧
        ∀ x ∈ created ++ members.map Prod.fst, ensured x l) log
      (ensureMembers name created members) := by
  induction members generalizing created log with
  | nil => exact fun _ => ⟨hq, by simpa using hc⟩
  | cons m members ih =>
    obtain ⟨x, vol⟩ := m
    refine (obeys_ensureSnapshot hq).bind fun l r hr => ?_
    obtain ⟨hq', hmono, hx⟩ := hr
    cases r with
    | error st =>
      exact (obeys_cleanupPartialMembers fun y hy => hmono y (hc y hy)).bind
        fun _ _ _ => fun ⟨_, h⟩ => (by cases h)
    | ok snap =>
      have hc' : ∀ y ∈ created ++ [x], ensured y l := by
        intro y hy
        rcases List.mem_append.mp hy with hy | hy
        · exact hmono y (hc y hy)
        · exact List.mem_singleton.mp hy ▸ hx ⟨snap, rfl⟩
      refine (ih hq' hc').bind fun l r hr => ?_
      cases r with
      | error st => exact fun ⟨_, h⟩ => (by cases h)
      | ok snaps =>
        intro _
        obtain ⟨hq'', hall⟩ := hr ⟨snaps, rfl⟩
        exact ⟨hq'', by simpa using hall⟩

theorem obeys_ensureGroup {names : List String} {vols : List Volume} (hq : Quiet name log)
    (hc : ∀ x ∈ names, ensured x log) :
    Obeys (guard (.create name ids)) (fun _ _ => True) log (ensureGroup name names vols) := by
  refine obeys_call_bind ⟨rfl, hq⟩ fun t r => ?_
  rcases r with (_ | _ | text | text) | grp
  case error.alreadyExists =>
    refine obeys_call_bind trivial fun t' r => ?_
    rcases r with e | existing
    · trivial
    · dsimp only
      split
      · refine (obeys_cleanupStrayMembers fun x hx ho => ?_).bind fun _ _ _ => trivial
        refine disowned_cons.mpr (.inl ⟨?_, ensured_cons (hc x hx)⟩)
        simp [disowns, ho]
      · trivial
  all_goals trivial

theorem obeys_createOver {vols : List Volume} (hne : ∀ x, ensured x log = false) :
    Obeys (guard (.create name ids)) (fun _ _ => True) log (createOver name vols) := by
  refine Obeys.bind (Q := fun l _ => Quiet name l) ?_ fun l r hq => ?_
  · refine obeys_call_bind trivial fun t r => ?_
    have hq : Quiet name (⟨t, .cachedGroup name, r⟩ :: log) :=
      (Quiet.of_not_ensured hne).cons fun x _ => hne x
    rcases r with (_ | _ | text | text) | existing
    case ok =>
      dsimp only
      split <;> exact hq
    all_goals exact hq
  cases r with
  | error st => trivial
  | ok =>
    refine (obeys_ensureMembers hq fun x hx => (by cases hx)).bind fun l r hr => ?_
    cases r with
    | error st => trivial
    | ok snaps =>
      obtain ⟨hq', hall⟩ := hr ⟨snaps, rfl⟩
      rw [List.nil_append, List.map_fst_zip (by simp)] at hall
      exact (obeys_ensureGroup hq' hall).bind fun _ r _ => by cases r <;> trivial

theorem asks_requireVolumes (ids : List String) :
    Asks (fun c => ∃ id, c = .cachedVolume id) (requireVolumes ids) := by
  induction ids with
  | nil => trivial
  | cons id ids ih =>
    refine asks_bind ?_ fun r => ?_
    · rw [requireVolume]
      split
      · trivial
      · refine asks_call_bind ⟨id, rfl⟩ fun r => ?_
        rcases r with (_ | _ | text | text) | vol <;> trivial
    · cases r with
      | error st => trivial
      | ok vol =>
        dsimp only
        split
        · trivial
        · exact asks_bind ih fun r => by cases r <;> trivial

theorem obeys_createVolumeGroupSnapshot :
    Obeys (guard (.create name ids)) (fun _ _ => True) [] (createVolumeGroupSnapshot name ids) := by
  rw [createVolumeGroupSnapshot]
  split
  · trivial
  split
  · trivial
  refine ((asks_requireVolumes _).obeys fun l c _ hc => ?_).bind fun l r hl => ?_
  · obtain ⟨id, rfl⟩ := hc
    trivial
  · cases r with
    | error st => trivial
    | ok vols =>
      refine obeys_createOver fun x => not_ensured_of_grew hl (fun e he => ?_) rfl
      obtain ⟨t, c, r⟩ := e
      obtain ⟨id, rfl⟩ := he
      rfl

end Create

section Delete

theorem asks_listedMembers {group : String} (names : List String) :
    Asks (fun c => ∀ g ns fs, c ≠ .createGroup g ns fs) (listedMembers group names) := by
  induction names with
  | nil => trivial
  | cons x names ih =>
    refine asks_call_bind (fun _ _ _ h => by cases h) fun r => ?_
    rcases r with (_ | _ | text | text) | snap
    case error.notFound => exact ih
    case ok =>
      dsimp only
      split
      · trivial
      · exact asks_bind ih fun r => by cases r <;> trivial
    all_goals trivial

theorem asks_deleteMembers (names : List String) :
    Asks (fun c => ∀ g ns fs, c ≠ .createGroup g ns fs) (deleteMembers names) := by
  induction names with
  | nil => trivial
  | cons x names ih =>
    refine asks_call_bind (fun _ _ _ h => by cases h) fun r => ?_
    rcases r with (_ | _ | text | text) | u
    case error.notFound | ok => exact ih
    all_goals trivial

theorem asks_deleteVolumeGroupSnapshot {group : String} {ids : List String} :
    Asks (fun c => ∀ g ns fs, c ≠ .createGroup g ns fs) (deleteVolumeGroupSnapshot group ids) := by
  rw [deleteVolumeGroupSnapshot]
  split
  · trivial
  refine asks_bind (asks_call_bind (fun _ _ _ h => by cases h) fun r => ?_) fun r => ?_
  · rcases r with (_ | _ | text | text) | grp
    case error.notFound => exact asks_listedMembers ids
    case ok =>
      dsimp only
      split <;> trivial
    all_goals trivial
  · cases r with
    | error st => trivial
    | ok members =>
      refine asks_call_bind (fun _ _ _ h => by cases h) fun r => ?_
      rcases r with (_ | _ | text | text) | u
      case error.notFound | ok => exact asks_deleteMembers members
      all_goals trivial

end Delete

theorem obeys_program (rpc : Rpc) : Obeys (guard rpc) (fun _ _ => True) [] rpc.program := by
  cases rpc with
  | create name ids => exact obeys_createVolumeGroupSnapshot.bind fun _ _ _ => trivial
  | delete group ids =>
    refine (asks_deleteVolumeGroupSnapshot.obeys fun l c _ hc => ?_).bind fun _ _ _ => trivial
    cases c <;> first | trivial | exact hc _ _ _ rfl

end Miroir.Csi
