import Miroir.Csi.GroupSpec
import Miroir.Csi.World

/-!
# A create takes back no live group's member

A create that fails deletes what it has ensured, by name. It looks for the group first, but through
the informer, and other RPCs go on between the look and the deletes. `keepsMembers` says when this
is harmless: the look is not stale, no group is created over members that another create has already
ensured, and groups of different names share no members. `create_spares_members` is the theorem for
all runs with that. In the runs at the end one condition fails at a time: a retry whose informer
lags behind the create before it, and two creates that overlap.
-/

namespace Miroir.Csi

open Process

variable {s s' : Server}

/-- Group `h` is on the API server and lists `x`. -/
def Lists (a : Api) (h x : String) : Prop := ∃ grp, a.group h = some grp ∧ x ∈ grp.snapshotNames

/-! ## When a create is harmless -/

/-- A group of another name lists the member. -/
def listedElsewhere (a : Api) (g x : String) : Bool :=
  a.groups.entries.any fun e => e.1 ≠ g && x ∈ e.2.snapshotNames

/-- A create is told of a member only while no group of another name lists it. -/
def ensuresApart (c : Rpcs) (a : Act) : Bool :=
  match Workers.asked c a with
  | some ⟨_, .create g _, _, .createSnapshot x _ _ _⟩
  | some ⟨_, .create g _, _, .getSnapshot x⟩ => !listedElsewhere c.world.api g x
  | _ => true

/-- The create has ensured none of the members, or has no more to ask. -/
def uninvolved (names : List String) (t : Thread Rpc Ans Response) : Bool :=
  match t.job with
  | .create .. => t.returned.isSome || names.all fun x => !ensured x t.log
  | .delete .. => true

/-- The request is no delete of one of the members by a create. -/
def leaves (names : List String) : Pending → Bool
  | ⟨.create .., .deleteSnapshot x⟩ => x ∉ names
  | _ => true

/-- A group is created only while no other create has ensured one of its members, and none has a
delete of one on its way. -/
def createsAlone (c : Rpcs) (a : Act) : Bool :=
  match taken c a with
  | some ⟨_, .createGroup g names _⟩ => (c.world.api.group g).isSome ||
    (c.threads.entries.all (fun e => (Workers.asked c a).any (fun q => q.worker = e.1) ||
      uninvolved names e.2) && c.world.inflight.all (leaves names))
  | _ => true

/-- A create that has ensured a member finds the group where there is one. -/
def looksCurrent (c : Rpcs) (a : Act) : Bool :=
  match Workers.asked c a, a with
  | some ⟨_, .create .., log, .cachedGroup g⟩, .reply _ (.version i) =>
    log.all (fun e => (member e).isNone) || (c.world.api.group g).isNone ||
      (c.world.versions[i]?.bind fun v => v.group g).isSome
  | _, _ => true

def keepsMembers (c : Rpcs) (a : Act) : Bool :=
  ensuresApart c a && createsAlone c a && looksCurrent c a

/-! ## What a step does to the groups -/

section Lists

variable {a a' : Api} {g h x : String}

theorem lists_insert {grp : SnapshotGroup}
    (hl : Lists { a with groups := a.groups.insert g grp } h x) :
    Lists a h x ∨ h = g ∧ x ∈ grp.snapshotNames := by
  obtain ⟨grp', hg, hx⟩ := hl
  by_cases he : h = g
  · subst he
    rw [Api.group, AList.lookup_insert] at hg
    cases hg
    exact .inr ⟨rfl, hx⟩
  · rw [Api.group, AList.lookup_insert_ne he] at hg
    exact .inl ⟨grp', hg, hx⟩

/-- Dropping finalizers, marking and reporting do not change what a group lists. -/
theorem lists_setGroupFinalizers {w w' : SnapshotGroup} {fs : List String}
    (hg : a.group g = some w) (hl : Lists (a.setGroupFinalizers g w' fs) h x)
    (hn : w'.snapshotNames = w.snapshotNames) : Lists a h x := by
  unfold Api.setGroupFinalizers at hl
  split at hl
  · obtain ⟨grp', hg', hx⟩ := hl
    by_cases he : h = g
    · subst he
      rw [Api.group, AList.lookup_erase] at hg'
      cases hg'
    · rw [Api.group, AList.lookup_erase_ne he] at hg'
      exact ⟨grp', hg', hx⟩
  · rcases lists_insert hl with hl | ⟨rfl, hx⟩
    · exact hl
    · exact ⟨w, hg, hn ▸ hx⟩

theorem lists_setFinalizers {w : Snapshot} {fs : List String}
    (hl : Lists (a.setFinalizers g w fs) h x) : Lists a h x := by
  unfold Api.setFinalizers at hl
  split at hl <;> exact hl

/-- A group lists after a write what it listed before, or has just been created over it. -/
theorem lists_of_write {uid : String} {c : Cmd} {r : Ans c} (hw : write a uid c = some (r, a'))
    (hl : Lists a' h x) :
    Lists a h x ∨ ∃ names fs, c = .createGroup h names fs ∧ x ∈ names ∧ a.group h = none := by
  cases c with
  | createSnapshot y volume group fs =>
    simp only [write] at hw
    split at hw <;> cases hw <;> exact .inl hl
  | createGroup g names fs =>
    simp only [write] at hw
    split at hw
    · cases hw
      exact .inl hl
    · rename_i hnone
      cases hw
      rcases lists_insert hl with hl | ⟨rfl, hx⟩
      · exact .inl hl
      · exact .inr ⟨names, fs, rfl, hx, hnone⟩
  | deleteSnapshot y =>
    simp only [write] at hw
    split at hw <;> cases hw
    · exact .inl (lists_setFinalizers hl)
    · exact .inl hl
  | deleteGroup g =>
    simp only [write] at hw
    split at hw
    · rename_i w hg
      cases hw
      exact .inl (lists_setGroupFinalizers hg hl rfl)
    · cases hw
      exact .inl hl
  | _ => cases hw

end Lists

/-- An answer leaves the objects alone and at most sets a request on its way, or is that of a write
which the API server takes. -/
theorem answer_cases {rpc : Rpc} {c : Cmd} {o : Outcome} {r : Ans c}
    (h : answer s rpc c o = some (r, s')) :
    (s'.api = s.api ∧ ∀ p ∈ s'.inflight, p ∈ s.inflight ∨ p = ⟨rpc, c⟩) ∨
      ∃ uid a', o = .ok uid ∧ c.isWrite ∧ write s.api uid c = some (r, a') ∧
        s' = s.setApi a' := by
  cases o with
  | ok uid =>
    cases c with
    | createSnapshot | createGroup | deleteSnapshot | deleteGroup =>
      obtain ⟨⟨r', a'⟩, hw, he⟩ := Option.map_eq_some_iff.mp h
      cases he
      exact .inr ⟨uid, a', rfl, rfl, hw, rfl⟩
    | getSnapshot | getGroup => cases h; exact .inl ⟨rfl, fun p => .inl⟩
    | _ => cases h
  | volume vol =>
    cases c with
    | cachedVolume id =>
      simp only [answer] at h
      split at h <;> cases h
      exact .inl ⟨rfl, fun p => .inl⟩
    | _ => cases h
  | notFound =>
    cases c with
    | cachedVolume id => cases h; exact .inl ⟨rfl, fun p => .inl⟩
    | _ => cases h
  | version i =>
    cases c with
    | cachedSnapshot | cachedGroup =>
      obtain ⟨v, -, he⟩ := Option.map_eq_some_iff.mp h
      cases he
      exact .inl ⟨rfl, fun p => .inl⟩
    | _ => cases h
  | fail text =>
    cases c <;> cases h <;> exact .inl ⟨rfl, fun p => .inl⟩
  | invalid text =>
    cases c <;> cases h <;> exact .inl ⟨rfl, fun p => .inl⟩
  | lost text =>
    have hlost : ∀ p ∈ s.inflight ++ [⟨rpc, c⟩], p ∈ s.inflight ∨ p = ⟨rpc, c⟩ := by
      simp
    cases c <;> cases h <;> exact .inl ⟨rfl, hlost⟩

/-- What is on its way, or listed, after a step. -/
theorem lists_of_event {e : Event} (he : event s e = some s') {h x : String}
    (hl : Lists s'.api h x) : Lists s.api h x ∨ ∃ i uid p names fs, e = .land i uid ∧
      s.inflight[i]? = some p ∧ p.cmd = .createGroup h names fs ∧ x ∈ names ∧
      s.api.group h = none := by
  cases e with
  | land i uid =>
    obtain ⟨p, hp, he⟩ := Option.bind_eq_some_iff.mp he
    obtain ⟨⟨r, a'⟩, hw, rfl⟩ := Option.map_eq_some_iff.mp he
    rcases lists_of_write hw hl with hl | ⟨names, fs, hc, hx, hnone⟩
    · exact .inl hl
    · exact .inr ⟨i, uid, p, names, fs, rfl, hp, hc, hx, hnone⟩
  | snapStatus y st =>
    obtain ⟨w, -, rfl⟩ := Option.map_eq_some_iff.mp he
    exact .inl hl
  | groupStatus g st =>
    obtain ⟨w, hg, rfl⟩ := Option.map_eq_some_iff.mp he
    rcases lists_insert hl with hl | ⟨rfl, hx⟩
    exacts [.inl hl, .inl ⟨w, hg, hx⟩]
  | releaseSnap y node =>
    obtain ⟨w, -, rfl⟩ := Option.map_eq_some_iff.mp he
    exact .inl (lists_setFinalizers hl)
  | releaseGroup g node =>
    obtain ⟨w, hw, rfl⟩ := Option.map_eq_some_iff.mp he
    exact .inl (lists_setGroupFinalizers (Option.filter_eq_some_iff.mp hw).1 hl rfl)

theorem inflight_of_event {e : Event} (he : event s e = some s') {p : Pending}
    (hp : p ∈ s'.inflight) : p ∈ s.inflight := by
  cases e with
  | land i uid =>
    obtain ⟨q, -, he⟩ := Option.bind_eq_some_iff.mp he
    obtain ⟨⟨r, a'⟩, -, rfl⟩ := Option.map_eq_some_iff.mp he
    exact List.mem_of_mem_eraseIdx hp
  | snapStatus | groupStatus | releaseSnap | releaseGroup =>
    obtain ⟨w, -, rfl⟩ := Option.map_eq_some_iff.mp he
    exact hp

section Step

variable {c c' : Rpcs} {a : Act}

variable {g name x : String} {t w : Nat} {o : Outcome} {ids : List String} {log : RpcLog}
  {cmd : Cmd}

variable {k : Ans cmd → RpcM Response}

/-- A group lists after a step what it listed before, or is created over it in this step. -/
theorem lists_of_step (hs : Workers.Stepped rpcs c a c') {h : String}
    (hl : Lists c'.world.api h x) : Lists c.world.api h x ∨
      ∃ rpc names fs, taken c a = some ⟨rpc, .createGroup h names fs⟩ ∧ x ∈ names ∧
        c.world.api.group h = none := by
  rcases hs.world_cases with heq | ⟨e, rfl, he⟩ | ⟨w, o, j, log, cmd, k, r, rfl, ht, ha⟩
  · exact .inl (heq ▸ hl)
  · rcases lists_of_event he hl with hl | ⟨i, uid, ⟨rpc, cmd⟩, names, fs, rfl, hp, rfl, hx, hnone⟩
    · exact .inl hl
    · exact .inr ⟨rpc, names, fs, hp, hx, hnone⟩
  · rcases answer_cases ha with ⟨hapi, -⟩ | ⟨uid, a', rfl, hwr, hw, heq⟩
    · exact .inl (hapi ▸ hl)
    · rw [heq] at hl
      rcases lists_of_write hw hl with hl | ⟨names, fs, rfl, hx, hnone⟩
      · exact .inl hl
      · exact .inr ⟨j, names, fs, by simp [taken, Workers.asked, ht, Cmd.isWrite], hx, hnone⟩

/-- A request on its way after a step was on its way before, or has just been given up. -/
theorem inflight_of_step (hs : Workers.Stepped rpcs c a c') {p : Pending}
    (hp : p ∈ c'.world.inflight) : p ∈ c.world.inflight ∨ c'.world.api = c.world.api ∧
      ∃ q, Workers.asked c a = some q ∧ p = ⟨q.job, q.cmd⟩ := by
  rcases hs.world_cases with heq | ⟨e, rfl, he⟩ | ⟨w, o, j, log, cmd, k, r, rfl, ht, ha⟩
  · exact .inl (heq ▸ hp)
  · exact .inl (inflight_of_event he hp)
  · rcases answer_cases ha with ⟨hapi, hin⟩ | ⟨uid, a', rfl, -, -, heq⟩
    · rcases hin p hp with hp | rfl
      · exact .inl hp
      · exact .inr ⟨hapi, ⟨w, j, log, cmd⟩, by simp [Workers.asked, ht], rfl⟩
    · rw [heq] at hp
      exact .inl hp

/-- A request that is taken at once is the one a thread asks for. -/
theorem asked_of_taken {p : Pending} (h : taken c (.reply w o) = some p) :
    ∃ q, Workers.asked c (.reply w o : Act) = some q ∧ p = ⟨q.job, q.cmd⟩ := by
  cases o with
  | ok uid =>
    obtain ⟨q, hq, hp⟩ := Option.bind_eq_some_iff.mp h
    split at hp <;> cases hp
    exact ⟨q, hq, rfl⟩
  | _ => cases h

/-! ## The invariant -/

/-- No group lists what a create is about to delete, and only its own what it has ensured. -/
structure Spared (c : Rpcs) : Prop where
  apart : ∀ {w name ids log cmd k x},
    c.threads.lookup w = some ⟨.create name ids, log, .ask cmd k⟩ →
    ensured x log = true → ∀ {h}, Lists c.world.api h x → h = name
  freed : ∀ {w name ids log cmd k x},
    c.threads.lookup w = some ⟨.create name ids, log, .ask cmd k⟩ →
    disowned name x log = true → ∀ {h}, ¬Lists c.world.api h x
  sent : ∀ {name ids x}, (⟨.create name ids, .deleteSnapshot x⟩ : Pending) ∈ c.world.inflight →
    ∀ {h}, ¬Lists c.world.api h x

theorem not_listedElsewhere {a : Api} {h : String} (hn : listedElsewhere a g x = false)
    (hl : Lists a h x) : h = g := by
  obtain ⟨grp, hg, hx⟩ := hl
  by_contra hne
  have hmem : (⟨h, grp⟩ : Sigma fun _ : String => SnapshotGroup) ∈ a.groups.entries :=
    List.of_mem_dlookup hg
  have := List.any_eq_false.mp hn _ hmem
  simp [hne, hx] at this

theorem not_listed_of_ensuresApart {q : Query Nat Rpc Ans}
    {r : Ans q.cmd} (hc : ensuresApart c a) (hq : Workers.asked c a = some q)
    (hj : q.job = .create name ids) (hm : member ⟨t, q.cmd, r⟩ = some x) :
    listedElsewhere c.world.api name x = false := by
  obtain ⟨w, job, log, cmd⟩ := q
  obtain rfl : job = _ := hj
  cases cmd with
  | createSnapshot y v g fs =>
    cases r with
    | error e => cases hm
    | ok snap => cases hm; simpa [ensuresApart, hq] using hc
  | getSnapshot y =>
    cases r with
    | error e => cases hm
    | ok snap => cases hm; simpa [ensuresApart, hq] using hc
  | _ => cases hm

/-- A create that is told that the group is not there, or lists another, is told the truth. -/
theorem not_lists_of_disowns
    {r : Ans cmd} {s : Server}
    (hc : looksCurrent c (.reply w o))
    (ht : c.threads.lookup w = some ⟨.create name ids, log, .ask cmd k⟩)
    (ha : answer c.world (.create name ids) cmd o = some (r, s))
    (hd : disowns name x ⟨t, cmd, r⟩) (hx : ensured x log) :
    ¬Lists c.world.api name x := by
  rintro ⟨grp, hg, hmem⟩
  cases cmd with
  | cachedGroup g =>
    cases o with
    | version i =>
      obtain ⟨v, hv, hr⟩ := Option.map_eq_some_iff.mp ha
      cases hr
      cases hvg : v.group g with
      | some grp' => simp [disowns, found, hvg] at hd
      | none =>
        obtain rfl : g = name := by simpa [disowns, found, hvg] using hd
        obtain ⟨e, he, hme⟩ := List.any_eq_true.mp hx
        simp only [looksCurrent, Workers.asked, ht, hg, hv, hvg, Option.bind_some,
          Option.isSome_none,
          Option.isNone_some, Bool.or_false, List.all_eq_true] at hc
        have := hc e he
        simp [of_decide_eq_true hme] at this
    | fail text => cases ha; cases hd
    | _ => cases ha
  | getGroup g =>
    cases o with
    | ok uid =>
      cases ha
      cases hvg : c.world.api.group g with
      | none => simp [disowns, found, hvg] at hd
      | some grp' =>
        simp only [disowns, found, hvg, Bool.and_eq_true, decide_eq_true_eq] at hd
        obtain ⟨rfl, hnot⟩ := hd
        exact hnot (Option.some.inj (hg.symm.trans hvg) ▸ hmem)
    | fail text => cases ha; cases hd
    | _ => cases ha
  | _ => cases hd

/-- A group that is created lists nothing that another create has ensured. -/
theorem not_ensured_of_createsAlone {rpc : Rpc} {names fs : List String}
    (hc : createsAlone c a) (ht : taken c a = some ⟨rpc, .createGroup g names fs⟩)
    (hnone : c.world.api.group g = none) (hx : x ∈ names)
    (hw : c.threads.lookup w = some ⟨.create name ids, log, .ask cmd k⟩)
    (hne : ∀ o, a ≠ .reply w o) : ensured x log = false := by
  simp only [createsAlone, ht, hnone, Option.isSome_none, Bool.false_or, Bool.and_eq_true,
    List.all_eq_true, Bool.or_eq_true] at hc
  rcases hc.1 _ (List.of_mem_dlookup hw) with hq | hu
  · obtain ⟨q, hq, hqw⟩ := (Option.any_eq_true _ _).mp hq
    obtain ⟨o, -, rfl, -⟩ := Workers.asked_eq_some hq
    exact absurd (by rw [of_decide_eq_true hqw]) (hne o)
  · simp only [uninvolved, Thread.returned, Option.isSome_none, Bool.false_or, List.all_eq_true,
      Bool.not_eq_true'] at hu
    exact hu x hx

theorem not_lists_of_createsAlone {rpc : Rpc} {names fs : List String}
    (hc : createsAlone c a)
    (ht : taken c a = some ⟨rpc, .createGroup g names fs⟩) (hnone : c.world.api.group g = none)
    (hp : (⟨.create name ids, .deleteSnapshot x⟩ : Pending) ∈ c.world.inflight) : x ∉ names := by
  simp only [createsAlone, ht, hnone, Option.isSome_none, Bool.false_or, Bool.and_eq_true,
    List.all_eq_true] at hc
  simpa [leaves] using hc.2 _ hp

/-- What a create has just been told keeps it apart from the groups there were. -/
theorem Spared.told (h : Spared c) (hc : keepsMembers c a)
    {r : Ans cmd} {s : Server} (haw : a = .reply w o)
    (ht : c.threads.lookup w = some ⟨.create name ids, log, .ask cmd k⟩)
    (ha : answer c.world (.create name ids) cmd o = some (r, s)) (hl : Lists c.world.api g x) :
    (ensured x (⟨t, cmd, r⟩ :: log) → g = name) ∧
      disowned name x (⟨t, cmd, r⟩ :: log) = false := by
  subst haw
  simp only [keepsMembers, Bool.and_eq_true] at hc
  have hq : Workers.asked c (.reply w o : Act) = some ⟨w, .create name ids, log, cmd⟩ := by
    simp [Workers.asked, ht]
  refine ⟨fun hx => ?_, Bool.eq_false_iff.mpr fun hd => ?_⟩
  · rw [ensured, List.any_cons, Bool.or_eq_true, decide_eq_true_eq] at hx
    rcases hx with hx | hx
    · exact not_listedElsewhere (not_listed_of_ensuresApart hc.1.1 hq rfl hx) hl
    · exact h.apart ht hx hl
  · rcases disowned_cons.mp hd with ⟨hd, hx⟩ | hd
    · obtain rfl := h.apart ht hx hl
      exact not_lists_of_disowns hc.2 ht ha hd hx hl
    · exact h.freed ht hd hl

theorem Spared.step (h : Spared c) (hs : Workers.Stepped rpcs c a c')
    (hguard : ∀ q, Workers.asked c a = some q → guard q.job q.log q.cmd)
    (hc : keepsMembers c a) : Spared c' := by
  have halone : createsAlone c a := by
    simp only [keepsMembers, Bool.and_eq_true] at hc
    exact hc.1.2
  -- A thread after the step, against a group after it.
  have hthread : ∀ {w name ids log cmd k x g},
      c'.threads.lookup w = some ⟨.create name ids, log, .ask cmd k⟩ → ensured x log →
      Lists c'.world.api g x → g = name ∧ disowned name x log = false := by
    intro w name ids log cmd k x g ht hx hl
    rcases hs.thread_cases ht with ⟨hold, hne⟩ | ⟨j, -, hnew⟩ |
      ⟨o, j, log₀, cmd₀, k₀, r, haw, hold, ha, hnew⟩
    · rcases lists_of_step hs hl with hl | ⟨rpc, names, fs, htaken, hmem, hnone⟩
      · exact ⟨h.apart hold hx hl, Bool.eq_false_iff.mpr fun hd => h.freed hold hd hl⟩
      · have := not_ensured_of_createsAlone halone htaken hnone hmem hold hne
        exact Bool.noConfusion (this.symm.trans hx)
    · obtain rfl : log = [] := congrArg Thread.log hnew
      cases hx
    · obtain rfl : .create name ids = j := congrArg Thread.job hnew
      obtain rfl : log = ⟨c.tick, cmd₀, r⟩ :: log₀ := congrArg Thread.log hnew
      rcases lists_of_step hs hl with hl | ⟨rpc, names, fs, htaken, hmem, hnone⟩
      · exact ⟨(h.told hc haw hold ha hl).1 hx, (h.told hc haw hold ha hl).2⟩
      · -- The group is the one this create has asked for.
        subst haw
        obtain ⟨q, hq, hpq⟩ := asked_of_taken htaken
        have hq' : q = ⟨w, .create name ids, log₀, cmd₀⟩ := by
          simpa [Workers.asked, hold] using hq.symm
        subst hq'
        cases hpq
        obtain ⟨rfl, hquiet⟩ := hguard _ hq
        exact ⟨rfl, hquiet.cons (fun y hy => by cases hy) x⟩
  exact {
    apart := fun ht hx _ hl => (hthread ht hx hl).1
    freed := fun ht hd _ hl =>
      Bool.noConfusion ((hthread ht (ensured_of_disowned hd) hl).2.symm.trans hd)
    sent := by
      intro name ids x hp g hl
      rcases inflight_of_step hs hp with hp | ⟨hapi, q, hq, hpq⟩
      · rcases lists_of_step hs hl with hl | ⟨rpc, names, fs, htaken, hmem, hnone⟩
        · exact h.sent hp hl
        · exact not_lists_of_createsAlone halone htaken hnone hp hmem
      · obtain ⟨w, job, log, cmd⟩ := q
        cases hpq
        obtain ⟨o, k, -, ht⟩ := Workers.asked_eq_some hq
        exact h.freed ht (hguard _ hq) (hapi ▸ hl) }

/-- No group lists what a create deletes now. -/
theorem Spared.not_lists_of_taken (h : Spared c)
    (hguard : ∀ q, Workers.asked c a = some q → guard q.job q.log q.cmd)
    (hd : taken c a = some ⟨.create name ids, .deleteSnapshot x⟩) :
    ¬Lists c.world.api g x := by
  cases a with
  | reply w o =>
    obtain ⟨⟨w, job, log, cmd⟩, hq, hpq⟩ := asked_of_taken hd
    cases hpq
    obtain ⟨o, k, -, ht⟩ := Workers.asked_eq_some hq
    exact h.freed ht (hguard _ hq)
  | event e =>
    cases e with
    | land j uid => exact h.sent (List.mem_of_getElem? hd)
    | _ => cases hd
  | _ => cases hd

end Step

/-! ## Runs -/

/-- In every run whose steps are harmless, whatever a create deletes is listed by no group that is
on the API server then. -/
theorem create_spares_members {s₀ : Server} {N : ℕ} (h₀ : s₀.inflight = [])
    (ρ : Run rpcs.step (Workers.init s₀) N)
    (hc : ∀ i < N, keepsMembers (ρ.state i) (ρ.act i) = true) {i : ℕ} (hi : i < N)
    {name x : String} {ids : List String}
    (hd : taken (ρ.state i) (ρ.act i) = some ⟨.create name ids, .deleteSnapshot x⟩) {h : String}
    {grp : SnapshotGroup} (hg : (ρ.state i).world.api.group h = some grp) :
    x ∉ grp.snapshotNames := by
  have hguard : ∀ j < N, ∀ q, Workers.asked (ρ.state j) (ρ.act j) = some q →
      guard q.job q.log q.cmd := fun j hj q hq =>
    (Workers.asked_obeys ρ (Q := fun _ _ _ _ => True) (fun _ rpc => obeys_program rpc)
      (Nat.le_of_lt hj) hq).1
  have hinv : Spared (ρ.state i) := by
    refine ρ.invariant (P := fun _ c => Spared c) ?_ (fun j hj h => ?_) (Nat.le_of_lt hi)
    · exact ⟨fun ht => (by cases ht), fun ht => (by cases ht), fun hp => by
        rw [Workers.init, h₀] at hp; cases hp⟩
    · exact h.step (Workers.stepped_of_step (ρ.next j hj)) (hguard j hj) (hc j hj)
  exact fun hx => hinv.not_lists_of_taken (hguard i hi) hd ⟨grp, hg, hx⟩

/-! ## Three runs -/

def noObjects : Server := { api := ⟨∅, ∅⟩, versions := [⟨∅, ∅⟩] }

/-- A replicated volume on nodes `a` and `b`. -/
def replicated (name : String) : Volume where
  name := name
  spec :=
    { sizeBytes := 1048576
      replicas := [{ node := "a", nodeID := 0, address := "10.0.0.1" },
        { node := "b", nodeID := 1, address := "10.0.0.2" }]
      drbd := true }
  status := {}

/-- RPC `w` reads its volumes and is then told these outcomes. -/
def begins (w : Nat) (rpc : Rpc) (vols : List String) (os : List Outcome) : List Act :=
  .start w rpc :: Workers.replies w (vols.map (fun v => .volume (replicated v)) ++ os)

/-- Group `h` is created over `v`. A create of `g` over `v` and `w` fails at its second member and
takes back the first. -/
def rolledBack : List Act :=
  begins 0 (.create "h" ["v"]) ["v"] [.version 0, .ok "1", .ok "2"] ++ .finish 0 ::
    begins 1 (.create "g" ["v", "w"]) ["v", "w"]
      [.version 2, .ok "3", .fail "timeout", .version 3, .ok ""]

theorem rolledBack_possible :
    allSteps rpcs.step keepsMembers (Workers.init noObjects) rolledBack := by
  decide +kernel

def rolledBackRun : Run rpcs.step (Workers.init noObjects) rolledBack.length :=
  .ofActions _ _ _ rolledBack rolledBack_possible

/-- The group that is there does not list what the create takes back. -/
theorem create_spares_members_rolledBack :
    taken (rolledBackRun.state 13) (rolledBackRun.act 13) =
      some ⟨.create "g" ["v", "w"], .deleteSnapshot "g-v"⟩ ∧
    ∃ grp, (rolledBackRun.state 13).world.api.group "h" = some grp ∧
      grp.snapshotNames = ["h-v"] ∧ "g-v" ∉ grp.snapshotNames := by
  have hd : taken (rolledBackRun.state 13) (rolledBackRun.act 13) =
      some ⟨.create "g" ["v", "w"], .deleteSnapshot "g-v"⟩ := by decide +kernel
  have hg : ((rolledBackRun.state 13).world.api.group "h").any
      (fun grp => grp.snapshotNames = ["h-v"]) = true := by decide +kernel
  obtain ⟨grp, hg, hn⟩ := (Option.any_eq_true _ _).mp hg
  exact ⟨hd, grp, hg, of_decide_eq_true hn, create_spares_members rfl rolledBackRun
    (fun i hi => Run.ofActions_spec rolledBack_possible hi) (by decide) hd hg⟩

/-- The group `g` is created over `v` and `w`. The create is retried while the informer does not
show the group yet, and fails at its second member. -/
def laggingRetry : List Act :=
  begins 0 (.create "g" ["v", "w"]) ["v", "w"] [.version 0, .ok "1", .ok "2", .ok "3"] ++
    .finish 0 ::
    begins 1 (.create "g" ["v", "w"]) ["v", "w"]
      [.version 0, .ok "", .ok "", .fail "timeout", .version 0, .ok ""]

theorem laggingRetry_possible :
    allSteps rpcs.step (fun _ _ => true) (Workers.init noObjects) laggingRetry := by
  decide +kernel

def laggingRetryRun : Run rpcs.step (Workers.init noObjects) laggingRetry.length :=
  .ofActions _ _ _ laggingRetry laggingRetry_possible

/-- A create of `g` fails at its second member and sees that there is no group. Before it deletes
the first member, another create adopts it and creates the group. -/
def overlappingCreates : List Act :=
  begins 0 (.create "g" ["v", "w"]) ["v", "w"] [.version 0, .ok "1", .fail "timeout", .version 1] ++
    begins 1 (.create "g" ["v", "w"]) ["v", "w"] [.version 1, .ok "", .ok "", .ok "2", .ok "3"] ++
    [.finish 1, .reply 0 (.ok "")]

theorem overlappingCreates_possible : allSteps rpcs.step
    (fun c a => ensuresApart c a && looksCurrent c a) (Workers.init noObjects) overlappingCreates =
      true := by
  decide +kernel

def overlappingCreatesRun : Run rpcs.step (Workers.init noObjects) overlappingCreates.length :=
  .ofActions _ _ _ overlappingCreates overlappingCreates_possible

/-- The step deletes a member that was not deleted, while its group is on the API server. -/
def destroysMember (c c' : Rpcs) (a : Act) (g x : String) : Bool :=
  (taken c a).any (fun p => match p with
    | ⟨.create .., .deleteSnapshot y⟩ => y = x
    | _ => false) &&
  (c.world.api.group g).any (fun grp => !grp.deleting && x ∈ grp.snapshotNames) &&
  (c.world.api.snap x).any (fun w => !w.deleting) &&
  (c'.world.api.snap x).all fun w => w.deleting

/-- Both creates delete a member of the live group `g`. -/
theorem create_deletes_live_member :
    destroysMember (laggingRetryRun.state 16) (laggingRetryRun.state 17) (laggingRetryRun.act 16)
      "g" "g-v" = true ∧
    destroysMember (overlappingCreatesRun.state 16) (overlappingCreatesRun.state 17)
      (overlappingCreatesRun.act 16) "g" "g-v" = true := by
  constructor <;> decide +kernel

end Miroir.Csi
