import Miroir.Controller.NodeGroup

/-!
# Groups touch what they manage

No pass of a group deletes a `MiroirNode` or changes its labels, and a pass changes the spec only of
an object that carried the group's label when the pass read it. So the object still carries it when
it is written, unless an operator has deleted, re-created or relabelled it in the meantime
(`groups_touch_only_managed`). If one has, the patch falls on the new object all the same
(`recreated_node_patched`).
-/

namespace Miroir.Groups

open Process Workers Prog
open Csi (ApiErr)

/-! ## The world -/

section World

variable {s s' : Server} {c : Cmd} {o : Outcome} {r : Ans c}

variable {name : String}

/-- What a command can do to the `MiroirNode` objects. -/
inductive NodesAfter (s s' : Server) : Cmd → Prop
  | same {c : Cmd} (h : s'.current.miroirNodes = s.current.miroirNodes) : NodesAfter s s' c
  | created {name : String} {mn : MiroirNode} (hnew : s.miroirNode name = none)
      (h : s' = s.setMiroirNode name mn) : NodesAfter s s' (.createMiroirNode name mn)
  | patched {name : String} {base modified live : MiroirNode}
      (hlive : s.miroirNode name = some live) (h : s' = s.setMiroirNode name
        { live with spec := Server.mergeSpec base.spec modified.spec live.spec }) :
      NodesAfter s s' (.patchMiroirNode name base modified)

/-- A read, or a write that fails, changes nothing; another write makes one new version. -/
def Advances (s s' : Server) : Prop := s' = s ∨ ∃ v, s' = s.next v

theorem advances_of_wrote {res : Except ApiErr Unit × Server} {r : Except ApiErr Unit}
    (hres : Advances s res.2) (h : wrote s res o = some (r, s')) : Advances s s' := by
  cases o with
  | ok | applied =>
    cases h
    exact hres
  | fail | invalid =>
    cases h
    exact .inl rfl
  | _ => cases h

theorem nodesAfter_of_wrote {res : Except ApiErr Unit × Server} {r : Except ApiErr Unit}
    (hres : NodesAfter s res.2 c) (h : wrote s res o = some (r, s')) : NodesAfter s s' c := by
  cases o with
  | ok | applied =>
    cases h
    exact hres
  | fail | invalid =>
    cases h
    exact .same rfl
  | _ => cases h

theorem create_effect {mn : MiroirNode} :
    Advances s (s.create name mn).2 ∧
      NodesAfter s (s.create name mn).2 (.createMiroirNode name mn) := by
  rw [Server.create]
  split
  · exact ⟨.inl rfl, .same rfl⟩
  · exact ⟨.inr ⟨_, rfl⟩, .created ‹_› rfl⟩

theorem patch_effect {base modified : MiroirNode} :
    Advances s (s.patch name base modified).2 ∧
      NodesAfter s (s.patch name base modified).2 (.patchMiroirNode name base modified) := by
  rw [Server.patch]
  split
  · exact ⟨.inl rfl, .same rfl⟩
  · exact ⟨.inr ⟨_, rfl⟩, .patched ‹_› rfl⟩

theorem setStatus_effect {group : String} (base : GroupStatus) {status : GroupStatus} :
    Advances s (s.setStatus group status).2 ∧
      NodesAfter s (s.setStatus group status).2 (.patchStatus group base status) := by
  rw [Server.setStatus]
  split
  · exact ⟨.inl rfl, .same rfl⟩
  · exact ⟨.inr ⟨_, rfl⟩, .same rfl⟩

/-- Everything an answer can do. -/
theorem effect_of_answer (h : answer s c o = some (r, s')) :
    Advances s s' ∧ NodesAfter s s' c := by
  cases c with
  | createMiroirNode name mn =>
    exact ⟨advances_of_wrote create_effect.1 h, nodesAfter_of_wrote create_effect.2 h⟩
  | patchMiroirNode name base modified =>
    exact ⟨advances_of_wrote patch_effect.1 h, nodesAfter_of_wrote patch_effect.2 h⟩
  | patchStatus group base status =>
    exact ⟨advances_of_wrote (setStatus_effect base).1 h,
      nodesAfter_of_wrote (setStatus_effect base).2 h⟩
  | clock =>
    cases o with
    | clock now =>
      cases h
      exact ⟨.inl rfl, .same rfl⟩
    | _ => cases h
  | getGroup | listNodes | listMiroirNodes =>
    obtain ⟨v, -, h⟩ := Option.map_eq_some_iff.mp h
    cases h
    exact ⟨.inl rfl, .same rfl⟩

/-- A list shows the objects of some version. -/
theorem view_of_list {items : AList fun _ : String => MiroirNode}
    (h : answer s .listMiroirNodes o = some (.ok items, s')) :
    ∃ v ∈ s.current :: s.past, v.miroirNodes = items := by
  obtain ⟨v, hv, h⟩ := Option.map_eq_some_iff.mp h
  rcases v with (e | v)
  · cases h
  cases h
  refine ⟨v, ?_, rfl⟩
  cases o with
  | ok =>
    cases hv
    exact .head _
  | stale k =>
    obtain ⟨v', hv', h⟩ := Option.map_eq_some_iff.mp hv
    cases h
    exact List.mem_of_getElem? hv'
  | _ => cases hv

/-- A command keeps every object with its labels, and changes a spec only by a patch. -/
theorem kept_of_answer (h : answer s c o = some (r, s')) {mn : MiroirNode}
    (hlive : s.miroirNode name = some mn) :
    ∃ mn', s'.miroirNode name = some mn' ∧ mn'.labels = mn.labels ∧
      (mn'.spec ≠ mn.spec → ∃ base modified, c = .patchMiroirNode name base modified) := by
  have hset {name' : String} {x : MiroirNode} (hne : name ≠ name') :
      (s.setMiroirNode name' x).miroirNode name = some mn := by
    rw [← hlive]
    exact AList.lookup_insert_ne hne
  cases (effect_of_answer h).2 with
  | same heq =>
    exact ⟨mn, by rw [Server.miroirNode, heq]; exact hlive, rfl, fun hs => absurd rfl hs⟩
  | @created name' x hnew heq =>
    have hne : name ≠ name' := by
      rintro rfl
      rw [hlive] at hnew
      cases hnew
    exact ⟨mn, heq ▸ hset hne, rfl, fun hs => absurd rfl hs⟩
  | @patched name' base modified live hl heq =>
    by_cases hne : name = name'
    · subst hne
      rw [hlive] at hl
      cases hl
      refine ⟨{ mn with spec := Server.mergeSpec base.spec modified.spec mn.spec }, ?_, rfl,
        fun _ => ⟨base, modified, rfl⟩⟩
      rw [heq]
      exact AList.lookup_insert s.current.miroirNodes
    · exact ⟨mn, heq ▸ hset hne, rfl, fun hs => absurd rfl hs⟩

end World

/-! ## What a pass asks -/

/-- A patch is of an object that was listed with the group's label. -/
def Guard (g : String) (l : GroupLog) : Cmd → Prop
  | .patchMiroirNode name base _ => base.group = g ∧ ∃ (t : Nat) (items : _),
      ⟨t, .listMiroirNodes, .ok items⟩ ∈ l ∧ AList.lookup name items = some base
  | _ => True

section Obeys

variable {g : String} {group : MiroirNodeGroup} {byName : AList fun _ : String => MiroirNode}
  {l : GroupLog}

/-- The objects were listed. -/
def Listed (byName : AList fun _ : String => MiroirNode) (l : GroupLog) : Prop :=
  ∃ t : Nat, ⟨t, .listMiroirNodes, .ok byName⟩ ∈ l

theorem Listed.cons (h : Listed byName l) (e : Entry Nat Ans) : Listed byName (e :: l) :=
  h.imp fun _ => List.mem_cons_of_mem e

theorem obeys_materialize {nodeName : String} {node : Node} (hl : Listed byName l) :
    Obeys (Guard g) (fun l' _ => Listed byName l') l
      (materialize g group nodeName node (AList.lookup nodeName byName)) := by
  cases hcur : AList.lookup nodeName byName with
  | none =>
    refine obeys_call_bind trivial fun t r => ?_
    rcases r with (e | _) <;> exact hl.cons _
  | some current =>
    rw [materialize]
    split
    · exact hl
    · rename_i hgroup
      split
      · exact hl
      · obtain ⟨t, ht⟩ := hl
        refine obeys_call_bind ⟨not_not.mp hgroup, t, byName, ht, hcur⟩ fun t' r => ?_
        rcases r with (e | _) <;> exact Listed.cons ⟨t, ht⟩ _

theorem obeys_materializeAll {nodes : List (Sigma fun _ : String => Node)} {pass : Pass}
    (hl : Listed byName l) :
    Obeys (Guard g) (fun _ _ => True) l (materializeAll g group byName pass nodes) := by
  induction nodes generalizing pass l with
  | nil => trivial
  | cons n nodes ih =>
    refine (obeys_materialize hl).bind fun l r hl => ?_
    rcases r with (e | _ | _) <;> exact ih hl

theorem obeys_patchStatus {members conflicts orphans : List String} :
    Obeys (Guard g) (fun _ _ => True) l (patchStatus g group members conflicts orphans) := by
  refine obeys_call_bind trivial fun t now => ?_
  dsimp only
  split
  · trivial
  · refine obeys_call_bind trivial fun t r => ?_
    rcases r with (e | _) <;> trivial

theorem obeys_reconcile : Obeys (Guard g) (fun _ _ => True) [] (reconcile g) := by
  refine obeys_call_bind trivial fun t r => ?_
  rcases r with (e | group)
  · cases e <;> trivial
  dsimp only
  split
  · trivial
  refine obeys_call_bind trivial fun t r => ?_
  rcases r with (e | nodes)
  · trivial
  refine obeys_call_bind trivial fun t r => ?_
  rcases r with (e | byName)
  · trivial
  refine (obeys_materializeAll ⟨t, .head _⟩).bind fun l pass _ => ?_
  exact obeys_patchStatus.bind fun _ _ _ => trivial

end Obeys

/-! ## Runs -/

section Runs

variable {view : View} {N i j : ℕ} {ρ : Run passes.step (init ⟨view, []⟩) N} {g name : String}

/-- Every version was current at some moment. -/
theorem current_of_view (hi : i ≤ N) {v : View}
    (hv : v ∈ (ρ.state i).world.current :: (ρ.state i).world.past) :
    ∃ j ≤ i, (ρ.state j).world.current = v := by
  refine ρ.invariant (P := fun i c => ∀ v ∈ c.world.current :: c.world.past,
    ∃ j ≤ i, (ρ.state j).world.current = v) ?_ (fun i hi ih v hv => ?_) hi v hv
  · intro v hv
    rw [List.mem_singleton.mp hv]
    exact ⟨0, Nat.le_refl 0, by rw [ρ.start]⟩
  · have hadv : Advances (ρ.state i).world (ρ.state (i + 1)).world := by
      rcases world_cases ρ hi with heq | ⟨e, -, he⟩ | ⟨w, job, c, r, log, o, k, -, -, hans⟩
      · exact .inl heq
      · cases e <;> exact .inr ⟨_, (Option.some.inj he).symm⟩
      · exact (effect_of_answer hans).1
    have hold (h : v ∈ (ρ.state i).world.current :: (ρ.state i).world.past) :
        ∃ j ≤ i + 1, (ρ.state j).world.current = v := by
      obtain ⟨j, hj, hcur⟩ := ih v h
      exact ⟨j, Nat.le_succ_of_le hj, hcur⟩
    rcases hadv with heq | ⟨v', heq⟩
    · exact hold (heq ▸ hv)
    · rw [heq] at hv
      rcases List.mem_cons.mp hv with rfl | hv
      · exact ⟨i + 1, Nat.le_refl _, by rw [heq]; rfl⟩
      · exact hold hv

/-- From moment `j` to moment `i` no operator takes the group's label off the object. -/
def Undisturbed (ρ : Run passes.step (init ⟨view, []⟩) N) (g name : String) (j i : ℕ) : Prop :=
  ∀ k, j ≤ k → k < i → ∀ x, ρ.act k = .event (.miroirNode name x) →
    ∃ mn, x = some mn ∧ mn.group = g

theorem lookup_put_ne {α : Type} {m : AList fun _ : String => α} {name' : String} {x : Option α}
    (h : name ≠ name') : AList.lookup name (put m name' x) = AList.lookup name m := by
  cases x with
  | none => exact AList.lookup_erase_ne h
  | some o => exact AList.lookup_insert_ne h

theorem managed_of_undisturbed (hij : j ≤ i) (hi : i ≤ N) (hu : Undisturbed ρ g name j i)
    (hj : ∃ mn, (ρ.state j).world.miroirNode name = some mn ∧ mn.group = g) :
    ∃ mn, (ρ.state i).world.miroirNode name = some mn ∧ mn.group = g := by
  induction i, hij using Nat.le_induction with
  | base => exact hj
  | succ i hij ih =>
    obtain ⟨mn, hmn, hg⟩ := ih (Nat.le_of_succ_le hi) fun k hk hlt =>
      hu k hk (Nat.lt_succ_of_lt hlt)
    rcases world_cases ρ hi with heq | ⟨e, ha, he⟩ | ⟨w, job, c, r, log, o, k, -, -, hans⟩
    · exact ⟨mn, heq ▸ hmn, hg⟩
    · cases e with
      | group | node =>
        rw [← Option.some.inj he]
        exact ⟨mn, hmn, hg⟩
      | miroirNode name' x =>
        rw [← Option.some.inj he]
        by_cases hne : name = name'
        · subst hne
          obtain ⟨mn', rfl, hg'⟩ := hu i hij (Nat.lt_succ_self i) x ha
          exact ⟨mn', AList.lookup_insert _, hg'⟩
        · exact ⟨mn, (lookup_put_ne hne).trans hmn, hg⟩
    · obtain ⟨mn', hmn', hlabels, -⟩ := kept_of_answer hans hmn
      exact ⟨mn', hmn', by rw [MiroirNode.group, hlabels]; exact hg⟩

/-- A command of a pass keeps every `MiroirNode` and its labels. If it changes a spec, it is a patch
of an object that the pass has listed with the label of its group. The objects were as listed at
some moment, and the object carries the label still, if no operator has taken it off since any such
moment. -/
theorem groups_touch_only_managed (hi : i < N) {q : Query String Unit Ans}
    (hq : asked (ρ.state i) (ρ.act i) = some q) {mn : MiroirNode}
    (hlive : (ρ.state i).world.miroirNode name = some mn) :
    ∃ mn', (ρ.state (i + 1)).world.miroirNode name = some mn' ∧ mn'.labels = mn.labels ∧
      (mn'.spec ≠ mn.spec → ∃ items base modified, q.cmd = .patchMiroirNode name base modified ∧
        Listed items q.log ∧ AList.lookup name items = some base ∧ base.group = q.worker ∧
        (∃ j ≤ i, (ρ.state j).world.current.miroirNodes = items) ∧
        ∀ j ≤ i, (ρ.state j).world.current.miroirNodes = items →
          Undisturbed ρ q.worker name j i → mn.group = q.worker) := by
  obtain ⟨hguard, hlog⟩ :=
    asked_obeys ρ (G := fun w _ => Guard w) (fun _ _ => obeys_reconcile) (Nat.le_of_lt hi) hq
  obtain ⟨r, o, k, -, -, hans⟩ := told_of_asked hi hq
  obtain ⟨g, job, log, cmd⟩ := q
  obtain ⟨mn', hmn', hlabels, hspec⟩ := kept_of_answer hans hlive
  refine ⟨mn', hmn', hlabels, fun hs => ?_⟩
  obtain ⟨base, modified, rfl⟩ := hspec hs
  obtain ⟨hgroup, t, items, hmem, hbase⟩ := hguard
  refine ⟨items, base, modified, rfl, ⟨t, hmem⟩, hbase, hgroup, ?_, fun j hj hview hu => ?_⟩
  · obtain ⟨l', htime, o', k', -, -, hlist⟩ := hlog.told hmem
    obtain ⟨v, hv, rfl⟩ := view_of_list hlist
    obtain ⟨j, hj, rfl⟩ := current_of_view (Nat.le_of_lt (Nat.lt_trans htime hi)) hv
    exact ⟨j, hj.trans htime.le, rfl⟩
  · obtain ⟨mn'', hmn'', hg⟩ := managed_of_undisturbed hj (Nat.le_of_lt hi) hu
      ⟨base, by rw [Server.miroirNode, hview]; exact hbase, hgroup⟩
    rw [hlive] at hmn''
    cases hmn''
    exact hg

end Runs

/-! ## A group and its node -/

def onDisk (device : String) : MiroirNodeSpec where
  pools := [{ name := "default", config := .lvmthin device "" }]

def managedBy (group : String) (device : String) : MiroirNode where
  labels := AList.singleton nodeGroupLabel group
  spec := onDisk device

/-- A group "nvme" for all nodes, with the template's device changed since it made its object. -/
def oneMember : View where
  groups := AList.singleton "nvme" { nodeSelector := {}, template := onDisk "/dev/new" }
  nodes := AList.singleton "a" {}
  miroirNodes := AList.singleton "a" (managedBy "nvme" "/dev/old")

/-- A pass up to its patch, with these steps of operators before it. -/
def passWith (operators : List Act) : List Act :=
  .start "nvme" () :: replies "nvme" [.ok, .ok, .ok] ++ operators ++ [.reply "nvme" .ok]

theorem converges_possible :
    allSteps passes.step (fun _ _ => true) (init ⟨oneMember, []⟩) (passWith []) := by
  decide +kernel

def convergesRun : Run passes.step (init ⟨oneMember, []⟩) (passWith []).length :=
  Run.ofActions _ _ _ _ converges_possible

theorem groups_touch_only_managed_converged :
    (convergesRun.state 5).world.miroirNode "a" = some (managedBy "nvme" "/dev/new") ∧
      ∃ q, asked (convergesRun.state 4) (convergesRun.act 4) = some q ∧ ∃ items base modified,
        q.cmd = .patchMiroirNode "a" base modified ∧ Listed items q.log ∧
          base.group = q.worker := by
  have hnew : (convergesRun.state 5).world.miroirNode "a" = some (managedBy "nvme" "/dev/new") := by
    decide +kernel
  obtain ⟨q, hq⟩ : ∃ q, asked (convergesRun.state 4) (convergesRun.act 4) = some q :=
    Option.isSome_iff_exists.mp (by decide +kernel)
  have hold : (convergesRun.state 4).world.miroirNode "a" =
    some (managedBy "nvme" "/dev/old") := rfl
  obtain ⟨mn', hmn', -, hspec⟩ := groups_touch_only_managed (by decide) hq hold
  obtain ⟨items, base, modified, hcmd, hlisted, -, hgroup, -⟩ :=
    hspec (by rw [Option.some.inj (hmn'.symm.trans hnew)]; decide)
  exact ⟨hnew, q, hq, items, base, modified, hcmd, hlisted, hgroup⟩

/-- Between the list and the patch an operator deletes the object and creates one of its own. -/
def recreated : List Act :=
  [.event (.miroirNode "a" none), .event (.miroirNode "a" (some { spec := onDisk "/dev/mine" }))]

theorem recreated_possible :
    allSteps passes.step (fun _ _ => true) (init ⟨oneMember, []⟩) (passWith recreated) := by
  decide +kernel

def recreatedRun : Run passes.step (init ⟨oneMember, []⟩) (passWith recreated).length :=
  Run.ofActions _ _ _ _ recreated_possible

/-- The patch changes the device of the object that has no manager. -/
theorem recreated_node_patched :
    recreatedRun.act 6 = .reply "nvme" .ok ∧
      ({ spec := onDisk "/dev/mine" } : MiroirNode).group = "" ∧
      (recreatedRun.state 6).world.miroirNode "a" = some { spec := onDisk "/dev/mine" } ∧
      (recreatedRun.state 7).world.miroirNode "a" = some { spec := onDisk "/dev/new" } :=
  ⟨rfl, by decide +kernel, by decide +kernel, by decide +kernel⟩

end Miroir.Groups
