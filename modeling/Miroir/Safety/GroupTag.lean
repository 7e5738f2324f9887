import Miroir.Safety.SlotFence

/-!
# The round a group publishes

A group's slots are written by merge patches that carry no stamp, so nothing on the API server
keeps the slots of one round out of the next. `group_round_tag` proves what they are meant to
guarantee, for every run in which each slot patch that lands while a round is live lands in the
round its pass had read (`slotsInRound`): a group that is ready has had every diskful leg of every
member deleted and cut again since the published round opened, and no slot computed for an earlier
round is counted in a later one. `late_slots_publish` is a run without that condition in which a
group is published with a leg of an earlier, voided round.
-/

namespace Miroir

open Process Data

variable {Γ : Config} {s₀ : State} {N i : ℕ} (ρ : Run (step Γ) s₀ N)

variable {g : String} {w : SnapshotGroup} {r : Round}

/-- A slot patch of a group that lands now finds no live round, or the one its pass had read. -/
def slotsInRound (s : State) (a : Action) : Bool :=
  match a.landing s with
  | some q =>
    match q.write with
    | .mergeSlots g _ => (s.api.group g).all fun w =>
        !w.status.ioSuspended || q.seenRound g = w.status.round
    | _ => true
  | none => true

theorem seenRound_eq {s : State} {a : Action} (h : slotsInRound s a) {q : Request}
    (hq : a.landing s = some q) {slots : List (SlotKey × SnapshotNodeState)}
    (hw : q.write = .mergeSlots g slots) (hg : s.api.group g = some w)
    (hl : w.status.ioSuspended) : q.seenRound g = w.status.round := by
  simpa [slotsInRound, hq, hw, hg, hl] using h

/-- The leg of snapshot `x` on node `n` has been deleted and then cut since round `r` opened. -/
def RecutSince (i : ℕ) (r : Round) (x n : String) : Prop :=
  ∃ c ∈ ((ρ.state i).legs (Γ.leg x n)).cuts, ∃ d, c.deletedAt = some d ∧ r.openedAt < d ∧
    d < c.cutAt

theorem RecutSince.mono (h₀ : Initial Γ s₀) {j : ℕ} (hij : i ≤ j) (hj : j ≤ N)
    {x n : String} (h : RecutSince ρ i r x n) : RecutSince ρ j r x n :=
  h.imp fun c hc => ⟨(leg_mono ρ h₀ hij hj _).1 c hc.1, hc.2⟩

/-- A slot of round `r` the cut gate counts: it belongs to a diskful leg, or the open of the
round reset it. -/
def Counted (g : String) (r : Round) (k : SlotKey) : Prop :=
  k ∈ Γ.slots g ∨ ∃ u, (ρ.state (r.openedAt + 1)).api.group g = some u ∧
    u.status.perLeg.lookup k = some .pending

/-- What a live round `r` of group `g` records. -/
structure Tagged (i : ℕ) (g : String) (w : SnapshotGroup) (r : Round) : Prop where
  seen : ∀ k, Counted ρ g r k → raised (w.status.perLeg.lookup k) = true →
    w.status.observed.lookup k = some (some r) ∨
      k.2 = r.opener ∧ w.status.observed.lookup k = some none
  cut : ∀ x ∈ Γ.namesOf g, ∀ n ∈ Γ.diskful x,
    w.status.perLeg.lookup (Γ.volumeOf x, n) = some .done → RecutSince ρ i r x n

theorem Tagged.succ (h₀ : Initial Γ s₀) (hi : i < N)
    (h : Tagged ρ i g w r) : Tagged ρ (i + 1) g w r :=
  { h with cut := fun x hx n hn hd => (h.cut x hx n hn hd).mono ρ h₀ (Nat.le_succ i) hi }

/-- The legs a pass records as cut were deleted and cut after the round it had read opened. -/
theorem HasCut.recutSince (h₀ : Initial Γ s₀) (hi : i ≤ N) {q : Request}
    {ms : List GroupMember} {m : GroupMember} {x : String}
    (ht : LogTrue ρ q.worker q.job q.log i) (hx : MemberOf ρ i x m)
    (hc : HasCut (Γ.agent q.worker.node) g q.log w ms m)
    (hn : diskfulOn m.vol q.worker.node) (hr : w.status.round = some r) :
    RecutSince ρ i r x q.worker.node := by
  obtain ⟨pool, new, old, t₁, t₂, hlog, hb, hp⟩ := hc
  rw [hlog] at ht
  have ht := ht.of_append
  obtain ⟨c, hcm, d, hcd, hle, hlt⟩ := ht.recut h₀ hi
  have hleg : Γ.leg x q.worker.node = ⟨q.worker.node, pool, m.snap.name⟩ := by
    simp [Config.leg, hx.spec, hx.ok.name, backendFor_eq hb hn, Config.agent]
  obtain ⟨h₂, -, h₁, -, hl₁⟩ := ht
  have h₂ : t₂ < i := h₂
  have h₁ : t₁ < t₂ := h₁
  have ht₁ : t₁ ≤ N := by omega
  obtain ⟨v, hv, hw⟩ := hl₁.groupView ht₁ hp.view_eq
  have hopen := (groupOk ρ h₀ ht₁ hv hw).round r hr
  exact ⟨c, hleg ▸ hcm, d, hcd, by omega, hlt⟩

/-- A slot patch computed in round `r` keeps the round's record. -/
theorem Tagged.merge (h : Tagged ρ i g w r)
    (ks : List SlotKey) (state : SnapshotNodeState)
    (hcut : state = .done → ∀ x ∈ Γ.namesOf g, ∀ n ∈ Γ.diskful x, (Γ.volumeOf x, n) ∈ ks →
      RecutSince ρ i r x n) :
    Tagged ρ i g { w with status := w.status.mergeSlots (ks.map (·, state)) (some r) } r := by
  refine ⟨fun k hk hup => ?_, fun x hx n hn hdone => ?_⟩
  · by_cases hmem : k ∈ ks
    · exact .inl (mergeSlots_mem w.status state (some r) hmem).2
    · obtain ⟨hleg, hobs⟩ := mergeSlots_of_not_mem w.status state (some r) hmem
      rw [hleg] at hup
      rw [hobs]
      exact h.seen k hk hup
  · by_cases hmem : (Γ.volumeOf x, n) ∈ ks
    · rw [(mergeSlots_mem w.status state (some r) hmem).1] at hdone
      exact hcut (Option.some.inj hdone) x hx n hn hmem
    · rw [(mergeSlots_of_not_mem w.status state (some r) hmem).1] at hdone
      exact h.cut x hx n hn hdone

theorem tagged (h₀ : Initial Γ s₀)
    (hf : ∀ i < N, slotsInRound (ρ.state i) (ρ.act i)) (hi : i ≤ N)
    (hw : GroupHeld ρ i g w) (hl : w.status.ioSuspended)
    (hr : w.status.round = some r) : Tagged ρ i g w r := by
  obtain ⟨v, hv, hx⟩ := hw
  refine groupVersions ρ (P := fun i g w => w.status.ioSuspended → ∀ r,
    w.status.round = some r → Tagged ρ i g w r) h₀ ?_ ?_ ?_ hi hv hx hl r hr
  · intro g w hx hl
    simp [(h₀.groups g w hx).2.2] at hl
  · intro i hi g w h hl r hr
    exact (h hl r hr).succ ρ h₀ hi
  · intro i hi ih g old new ho hnew hc hold hl r hr
    have hle := Nat.le_of_lt hi
    cases hc with
    | same => exact (hold _ rfl hl r hr).succ ρ h₀ hi
    | metadata h =>
      rw [h.status] at hl hr
      obtain ⟨hseen, hcut⟩ := (hold _ rfl hl r hr).succ ρ h₀ hi
      exact ⟨by rwa [h.status], by rwa [h.status]⟩
    | @apply w q c pruned hq hw =>
      cases group_landing h₀ hle hq hw (.inl ⟨c, rfl⟩) with
      | @opens u ms raise t h hrd hidle =>
        obtain rfl : ⟨q.worker.node, (ρ.state i).tick⟩ = r := Option.some.inj hr
        have hseen : q.seenRound g = none := by
          simp [Request.seenRound, h.view, GroupStatus.liveRound, hidle]
        refine ⟨fun k hk hup => ?_, fun x hx n hn hdone => ?_⟩
        · rcases hk with hk | ⟨u', hu', hpend⟩
          · obtain ⟨hobs, ⟨-, hself⟩ | hpend⟩ := openGroup_slot (h.mem_diskfulSlots k |>.mpr hk)
            · exact .inr ⟨hself, hobs.trans (by rw [hseen])⟩
            · rw [hpend] at hup
              cases hup
          · -- The state right after the open is the one that was reset.
            rw [tick_eq ρ h₀ hle, hnew] at hu'
            obtain rfl := Option.some.inj hu'
            rw [hpend] at hup
            cases hup
        · have hk : (Γ.volumeOf x, n) ∈ Γ.slots g := mem_slots.mpr ⟨x, hx, rfl, hn⟩
          obtain ⟨-, ⟨hsus, -⟩ | hpend⟩ := openGroup_slot (h.mem_diskfulSlots _ |>.mpr hk)
          · cases hsus.symm.trans hdone
          · cases hpend.symm.trans hdone
      | voids | seals => cases hl
    | @merge w q slots hq hw =>
      have hlive : w.status.ioSuspended := hl
      have hround : w.status.round = some r := hr
      have hseen : q.seenRound g = some r :=
        (seenRound_eq (hf i hi) hq hw ho.symm hlive).trans hround
      have htag := hold _ rfl hlive r hround
      rw [hseen]
      cases group_landing h₀ hle hq hw (.inr ⟨slots, rfl⟩) with
      | raises h => exact (htag.merge ρ _ .suspended (by simp)).succ ρ h₀ hi
      | @cuts u ms h hrd hcut =>
        have hview : u.status.round = some r := by
          simpa [Request.seenRound, h.view, GroupStatus.liveRound, hrd.live] using hseen
        refine (htag.merge ρ _ .done fun _ x hx n hn hmem => ?_).succ ρ h₀ hi
        obtain rfl : n = q.worker.node := (mem_slotsOn.mp hmem).1
        obtain ⟨m, hm, hmx⟩ := exists_right_of_forall₂ h.members hx
        have hdisk : diskfulOn m.vol q.worker.node :=
          diskfulOn_iff.mpr ((mem_diskful hmx.spec).mp hn)
        exact (hcut m (List.mem_filter.mpr ⟨hm, hdisk⟩)).recutSince ρ h₀ hle
          (landing_spec ρ h₀ hle hq).2 hmx hdisk hview

/-- A ready group has had all its legs cut in the round it names. -/
theorem ready_recut (h₀ : Initial Γ s₀)
    (hf : ∀ i < N, slotsInRound (ρ.state i) (ρ.act i)) (hi : i ≤ N)
    (hw : GroupHeld ρ i g w) (hr : w.status.readyToUse) :
    ∃ r, w.status.round = some r ∧ OpensGroup ρ g r ∧
      ∀ x ∈ Γ.namesOf g, ∀ n ∈ Γ.diskful x, RecutSince ρ i r x n := by
  obtain ⟨v, hv, hx⟩ := hw
  refine groupVersions ρ (P := fun i g w => w.status.readyToUse →
    ∃ r, w.status.round = some r ∧ OpensGroup ρ g r ∧
      ∀ x ∈ Γ.namesOf g, ∀ n ∈ Γ.diskful x, RecutSince ρ i r x n) h₀ ?_ ?_ ?_ hi hv hx hr
  · intro g w hx hr
    simp [(h₀.groups g w hx).2.2] at hr
  · intro i hi g w h hr
    obtain ⟨r, hround, ho, hcut⟩ := h hr
    exact ⟨r, hround, ho, fun x hx n hn => (hcut x hx n hn).mono ρ h₀ (Nat.le_succ i) hi⟩
  · intro i hi ih g old new ho hnew hc hold hr
    have hle := Nat.le_of_lt hi
    have hsucc : ∀ u : SnapshotGroup, old = some u → u.status.readyToUse →
        ∃ r, u.status.round = some r ∧ OpensGroup ρ g r ∧
          ∀ x ∈ Γ.namesOf g, ∀ n ∈ Γ.diskful x, RecutSince ρ (i + 1) r x n := by
      intro u hu hru
      obtain ⟨r, hround, ho, hcut⟩ := hold u hu hru
      exact ⟨r, hround, ho, fun x hx n hn => (hcut x hx n hn).mono ρ h₀ (Nat.le_succ i) hi⟩
    cases hc with
    | same => exact hsucc _ rfl hr
    | metadata h => exact h.status ▸ hsucc _ rfl (h.status ▸ hr)
    | @merge w => exact hsucc w rfl hr
    | @apply w q c pruned hq hw =>
      cases group_landing h₀ hle hq hw (.inl ⟨c, rfl⟩) with
      | opens h hrd =>
        exact absurd hr (by simp [GroupStatus.apply, groupStatusAC, openGroupStatus, hrd.unready])
      | voids h hrd =>
        exact absurd hr (by simp [GroupStatus.apply, groupStatusAC, voidGroupStatus, hrd.unready])
      | @seals u ms h hrd hlu hd =>
        obtain ⟨r, hround, hopen⟩ := groupRound ρ h₀ hle h.held hlu
        have htag := (tagged ρ h₀ hf hle h.held hlu hround).succ ρ h₀ hi
        refine ⟨r, hround, hopen, fun x hx n hn => htag.cut x hx n hn ?_⟩
        have hk : (Γ.volumeOf x, n) ∈ diskfulSlots ms :=
          (h.mem_diskfulSlots _).mpr (mem_slots.mpr ⟨x, hx, rfl, hn⟩)
        simpa using List.all_eq_true.mp hd _ hk

/-- In every run whose slot patches land in the round their pass had read, a ready group has had
every diskful leg of every member deleted and cut since the published round opened, and a slot
that counts in a live round was computed by a pass that had read this round, or is the one its
opener raised. -/
theorem group_round_tag (h₀ : Initial Γ s₀)
    (hf : ∀ i < N, slotsInRound (ρ.state i) (ρ.act i) = true) (hi : i ≤ N) {g : String}
    {w : SnapshotGroup} (hg : (ρ.state i).api.group g = some w) :
    (w.status.readyToUse = true → ∃ r, w.status.round = some r ∧ OpensGroup ρ g r ∧
      ∀ x ∈ Γ.namesOf g, ∀ n ∈ Γ.diskful x, RecutSince ρ i r x n) ∧
    (w.status.ioSuspended = true → ∃ r, w.status.round = some r ∧ OpensGroup ρ g r ∧
      ∀ k, Counted ρ g r k → raised (w.status.perLeg.lookup k) = true →
        w.status.observed.lookup k = some (some r) ∨
          k.2 = r.opener ∧ w.status.observed.lookup k = some none) := by
  have hw : GroupHeld ρ i g w := ⟨_, api_mem ρ h₀ hi, hg⟩
  refine ⟨ready_recut ρ h₀ hf hi hw, fun hl => ?_⟩
  obtain ⟨r, hround, hopen⟩ := groupRound ρ h₀ hi hw hl
  exact ⟨r, hround, hopen, (tagged ρ h₀ hf hi hw hl hround).seen⟩

/-! ## Two runs -/

/-- The volume `v` on two nodes, and the group `g` of its snapshot `s`. -/
def groupOnTwo : Config :=
  { twoReplicas with
    groupOf := fun _ => "g"
    namesOf := fun _ => ["s"] }

/-- `a` opens a round, `b` raises its barrier, and `a` cuts its leg. -/
def groupHalfRound : List Action :=
  groupPass "a" 0 4 [.lands {} none] ++ groupPass "b" 1 3 [.lands {} none] ++
    groupPass "a" 2 6 [.lands {} none]

/-- After the half round `b` cuts its leg, and `a` publishes the member and seals the group. -/
def groupFullRound : List Action :=
  groupHalfRound ++ groupPass "b" 3 6 [.lands {} none] ++
    groupPass "a" 4 3 [.lands {} none, .lands {} none]

theorem groupFullRound_possible : allSteps (step groupOnTwo) slotsInRound
    (.blank groupOnTwo ["s"] ["g"] [("a", "v")]) groupFullRound := by decide +kernel

def groupFullRoundRun :
    Run (step groupOnTwo) (.blank groupOnTwo ["s"] ["g"] [("a", "v")]) groupFullRound.length :=
  .ofActions _ _ _ groupFullRound groupFullRound_possible

theorem group_round_tag_fullRound : ∃ w,
    (groupFullRoundRun.state groupFullRound.length).api.group "g" = some w ∧
    w.status.readyToUse = true ∧
    ∃ r, w.status.round = some r ∧ OpensGroup groupFullRoundRun "g" r ∧
      ∀ x ∈ groupOnTwo.namesOf "g", ∀ n ∈ groupOnTwo.diskful x,
        RecutSince groupFullRoundRun groupFullRound.length r x n := by
  have hw : ((groupFullRoundRun.state groupFullRound.length).api.group "g").any
      (fun w => w.status.readyToUse) = true := by decide +kernel
  obtain ⟨w, hg, hr⟩ := (Option.any_eq_true _ _).mp hw
  exact ⟨w, hg, hr, (group_round_tag groupFullRoundRun (Initial.blank ..)
    (fun _ hi => Run.ofActions_spec groupFullRound_possible hi) (Nat.le_refl _) hg).1 hr⟩

/-- `b` cuts its leg in the first round, but its slot patch stays in flight. `a` voids the round
past its deadline and opens the next one; the slot patch lands there, `a` cuts its own leg and
seals the group. -/
def lateSlots : List Action :=
  groupHalfRound ++ groupPass "b" 3 6 [.late (.other "timeout")] ++ [.advance (62 * second)] ++
    groupPass "a" 3 4 [.lands {} none] ++ [.advance (31 * second)] ++
    groupPass "a" 4 6 [.lands {} none] ++ [.land 0 {}] ++ groupPass "a" 6 6 [.lands {} none] ++
    groupPass "a" 7 3 [.lands {} none, .lands {} none]

theorem lateSlots_possible : allSteps (step groupOnTwo) (fun _ _ => true)
    (.blank groupOnTwo ["s"] ["g"] [("a", "v")]) lateSlots := by decide +kernel

def lateSlotsRun :
    Run (step groupOnTwo) (.blank groupOnTwo ["s"] ["g"] [("a", "v")]) lateSlots.length :=
  .ofActions _ _ _ lateSlots lateSlots_possible

/-- The group is ready although the leg of `b` was last cut before the published round opened. -/
theorem late_slots_publish : ∃ w r,
    (lateSlotsRun.state lateSlots.length).api.group "g" = some w ∧ w.status.readyToUse = true ∧
    w.status.round = some r ∧ "s" ∈ groupOnTwo.namesOf "g" ∧ "b" ∈ groupOnTwo.diskful "s" ∧
    ¬RecutSince lateSlotsRun lateSlots.length r "s" "b" := by
  have hw : ((lateSlotsRun.state lateSlots.length).api.group "g").any (fun w =>
      w.status.readyToUse && w.status.round.any fun r =>
        ((lateSlotsRun.state lateSlots.length).legs (groupOnTwo.leg "s" "b")).cuts.all
          fun c => c.cutAt < r.openedAt) = true := by decide +kernel
  obtain ⟨w, hg, hw⟩ := (Option.any_eq_true _ _).mp hw
  obtain ⟨hready, hw⟩ := Bool.and_eq_true_iff.mp hw
  obtain ⟨r, hr, hw⟩ := (Option.any_eq_true _ _).mp hw
  refine ⟨w, r, hg, hready, hr, by decide, by decide, ?_⟩
  rintro ⟨c, hc, d, -, hd, hlt⟩
  have := of_decide_eq_true (List.all_eq_true.mp hw c hc)
  omega

end Miroir
