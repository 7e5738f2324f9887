import Miroir.Process.Workers
import Miroir.Volume.Spec

/-!
# A failed disk stays detached

When DRBD detaches a disk after an I/O error, the agent is to latch the leg as failed and never
attach it again until the replica is removed. The latch is recorded in the status slot, by the pass
that sees the disk gone after its apply; the apply itself goes by the slot the pass has read. So the
latch is set only if the disk fails between the apply of a pass and its last look at the status, and
that pass gets to write its slot; and it is heeded only by passes that read the slot written.
`keepsLatch` says this, and `failed_disk_stays_detached` that it is enough. In the run at the end
the disk fails between two passes, and the next pass attaches it.
-/

namespace Miroir.Disk

open Process

/-! ## One leg -/

/-- A diskful leg of a replicated volume. -/
structure Leg where
  /-- Every version of its status slot, oldest first. -/
  slots : List ReplicaStatus
  /-- The kernel has the disk. -/
  attached : Bool := false
  /-- The disk was detached while the slot said it was attached, and the replica is still there. -/
  failed : Bool := false

/-- The slot on the API server. -/
def Leg.slot (s : Leg) : ReplicaStatus := s.slots.getLast?.getD {}

def Leg.setSlot (s : Leg) (mine : ReplicaStatus) : Leg := { s with slots := s.slots ++ [mine] }

def Leg.attach (s : Leg) : Leg := { s with attached := true }

/-- The slot says that the disk is attached. -/
def recordsAttached (s : ReplicaStatus) : Bool :=
  s.diskState.isSome && s.diskState ≠ some .diskless

/-- What becomes of a command. -/
inductive Outcome where
  | ok
  /-- It reports an error, with or without having taken effect. -/
  | fail (e : Err) (applied : Bool)
  /-- The informer shows the volume with version `i` of the slot. -/
  | volume (vol : Volume) (i : Nat)
  | absent
  | holds (b : Bool)
  | snapshot (source : Option String)
  | dump (d : Dump)
  | status (st : LegStatus)
  | adjustFails (e : AdjustErr) (applied : Bool)
  | resizeFails (e : ResizeErr)

def Outcome.fate : Outcome → Option (Fate Err)
  | .ok => some .done
  | .fail e applied => some (.failed e applied)
  | _ => none

def answer (node : String) (s : Leg) : (c : VolCmd) → Outcome → Option (VolAns c × Leg)
  | .volume, .volume vol i =>
    if s.slots[i]? = some (vol.status.perNode node) ∧ vol.spec.drbd = true then
      some (.ok (some vol), s)
    else none
  | .volume, .absent => some (.ok none, s)
  | .fastPath, .holds b | .attached, .holds b => some (b, s)
  | .deviceExists, .holds b | .stat _, .holds b => some (.ok b, s)
  | .snapshot _, .snapshot source => some (.ok source, s)
  | .dumpMd, .dump d => some (.ok d, s)
  | .adjust skip, .ok => some (.ok (), if skip then s else s.attach)
  | .adjust skip, .adjustFails e applied =>
    some (.error e, if skip || !applied then s else s.attach)
  | .up, o => perform () s s.attach o.fate
  | .status, .status st | .mint, .status st =>
    if st.diskState = some .diskless ↔ s.attached = false then some (.ok st, s) else none
  | .patchStatus mine, o => perform () s (s.setSlot mine) o.fate
  | .drbdResize, .ok => some (.ok (), s)
  | .drbdResize, .resizeFails e => some (.error e, s)
  | .create _, o | .resize _, o | .createFromSnapshot _ _, o | .patchActivated, o | .touch _, o
  | .remove _, o | .createMd, o | .wipeMd, o | .prepare, o | .finishApply, o =>
    perform () s s o.fate
  | .volume, .fail e _ | .deviceExists, .fail e _ | .stat _, .fail e _ | .snapshot _, .fail e _
  | .dumpMd, .fail e _ | .status, .fail e _ | .mint, .fail e _ => some (.error e, s)
  | _, _ => none

/-- What happens to the leg between commands. -/
inductive Event where
  /-- DRBD detaches the disk after an I/O error. -/
  | ioError
  /-- The replica is removed: its resource goes down and its slot is dropped. -/
  | removed

instance : Inhabited Event := ⟨.removed⟩

def event (s : Leg) : Event → Option Leg
  | .ioError =>
    if s.attached then
      some { s with attached := false, failed := s.failed || recordsAttached s.slot }
    else none
  | .removed => some { s.setSlot {} with attached := false, failed := false }

/-- The passes over the leg, one at a time. -/
def passes (a : Agent) : Workers Leg Unit Unit Event Outcome VolAns Result where
  program _ _ := VolumeReconciler.reconcile a
  answer s _ _ c o := answer a.node s c o
  event := event

abbrev Conf := Process.Conf Leg Unit Unit VolAns Result

abbrev Act := Process.Act Unit Unit Event Outcome

/-- The command attaches the disk. -/
def attaches : VolCmd → Bool
  | .adjust skip => !skip
  | .up => true
  | _ => false

/-! ## When the latch holds -/

variable (a : Agent)

/-- A pass is between its apply and its last look at the status, and its copy of the slot is the one
on the API server. -/
def sees (c : Conf) : Bool :=
  match c.threads.lookup () with
  | some ⟨_, log, .ask .finishApply _⟩ | some ⟨_, log, .ask .status _⟩
  | some ⟨_, log, .ask .mint _⟩ => slotView a.node log = some c.world.slot
  | _ => false

/-- A pass that reads the slot while the disk is failed reads the latch. -/
def readsLatch (node : String) : (c : VolCmd) → VolAns c → Bool
  | .volume, .ok (some vol) => (vol.status.perNode node).diskFailed
  | _, _ => true

/-- What a pass is told while the disk is failed: the latch, if it reads the slot; neither that the
backing nor that the resource is missing; and no error until the latch is recorded. -/
def heeds (s : Leg) (c : VolCmd) (r : VolAns c) : Bool :=
  readsLatch a.node c r && !forsakes [⟨0, c, r⟩] && (s.slot.diskFailed || !isError c r)

/-- The step keeps the latch in force. -/
def keepsLatch (c : Conf) : Act → Bool
  | .event .ioError => !recordsAttached c.world.slot || sees a c
  | .crash _ => !c.world.failed || c.world.slot.diskFailed
  | .reply _ o => !c.world.failed ||
    match c.threads.lookup () with
    | some ⟨_, _, .ask cmd _⟩ =>
      (answer a.node c.world cmd o).all fun r => heeds a c.world cmd r.1
    | _ => true
  | _ => true

/-! ## The invariant -/

/-- The pass is about to record that the disk has failed. -/
structure Recording (c : Conf) (t : Thread Unit VolAns Result) (s : ReplicaStatus) : Prop where
  thread : c.threads.lookup () = some t
  asks : t.returned = none
  slot : slotView a.node t.log = some s
  attached : recordsAttached s = true
  applied : applied t.log = true
  succeeds : lastFailed t.log = false

structure Latched (c : Conf) : Prop where
  obeys : ∀ {t}, c.threads.lookup () = some t → Prog.Obeys (diskGuard a.node) DiskDone t.log t.prog
  spec : ∀ {t spec}, c.threads.lookup () = some t → specView t.log = some spec → spec.drbd = true
  created : ∀ s ∈ c.world.slots, s.diskFailed = true → s.deviceCreated = true
  copied : ∀ {t s}, c.threads.lookup () = some t → slotView a.node t.log = some s →
    s.diskFailed = true → s.deviceCreated = true
  detached : c.world.failed = true → c.world.attached = false
  held : c.world.failed = true → ∀ {t}, c.threads.lookup () = some t → forsakes t.log = false
  seen : c.world.failed = true → ∀ {t st}, c.threads.lookup () = some t →
    minted t.log = some st → st.diskState = some .diskless
  recorded : c.world.failed = true → c.world.slot.diskFailed = true →
    ∀ {t s}, c.threads.lookup () = some t → slotView a.node t.log = some s → s.diskFailed = true
  recording : c.world.failed = true → c.world.slot.diskFailed = false → ∃ t s, Recording a c t s

section Step

variable {a} {c c' : Conf} {act : Act} {log : VolLog} {cmd : VolCmd} {k : VolAns cmd → VolM Result}

variable {s s' : Leg} {o : Outcome} {r : VolAns cmd} {node : String}

/-- What an answer does to the leg: nothing, or the disk is attached, or a slot is written, where
success means that it is. -/
theorem answer_cases
    (h : answer node s cmd o = some (r, s')) :
    (s' = s ∧ ((∃ mine, cmd = .patchStatus mine) → isError cmd r)) ∨
      (attaches cmd ∧ s' = s.attach) ∨
      ∃ mine, cmd = .patchStatus mine ∧ s' = s.setSlot mine := by
  have hother : (∀ mine, cmd ≠ .patchStatus mine) → s' = s →
      (s' = s ∧ ((∃ mine, cmd = .patchStatus mine) → isError cmd r)) :=
    fun hne hs => ⟨hs, fun ⟨mine, hc⟩ => absurd hc (hne mine)⟩
  cases cmd with
  | patchStatus mine =>
    rcases performed h with rfl | ⟨rfl, e, rfl⟩
    exacts [.inr (.inr ⟨mine, rfl, rfl⟩), .inl ⟨rfl, fun _ => rfl⟩]
  | up =>
    rcases performed h with rfl | ⟨rfl, -⟩
    exacts [.inr (.inl ⟨rfl, rfl⟩), .inl (hother (fun _ h => by cases h) rfl)]
  | adjust skip =>
    cases o with
    | ok =>
      cases skip <;> cases h
      exacts [.inr (.inl ⟨rfl, rfl⟩), .inl (hother (fun _ h => by cases h) rfl)]
    | adjustFails e applied =>
      cases skip <;> cases applied <;> cases h
      exacts [.inl (hother (fun _ h => by cases h) rfl), .inr (.inl ⟨rfl, rfl⟩),
        .inl (hother (fun _ h => by cases h) rfl), .inl (hother (fun _ h => by cases h) rfl)]
    | _ => cases h
  | create | resize | createFromSnapshot | patchActivated | touch | remove | createMd | wipeMd
  | prepare | finishApply =>
    refine .inl (hother (fun _ h => by cases h) ?_)
    exact (read_cases h).1
  | volume =>
    refine .inl (hother (fun _ h => by cases h) ?_)
    cases o with
    | volume vol i =>
      simp only [answer] at h
      split at h <;> cases h
      rfl
    | absent | fail => cases h; rfl
    | _ => cases h
  | status | mint =>
    refine .inl (hother (fun _ h => by cases h) ?_)
    cases o with
    | status st =>
      simp only [answer] at h
      split at h <;> cases h
      rfl
    | fail => cases h; rfl
    | _ => cases h
  | fastPath | attached | deviceExists | stat | snapshot | dumpMd | drbdResize =>
    refine .inl (hother (fun _ h => by cases h) ?_)
    cases o <;> cases h <;> rfl

theorem slot_setSlot (s : Leg) (mine : ReplicaStatus) : (s.setSlot mine).slot = mine := by
  simp [Leg.slot, Leg.setSlot]

/-- What a pass reads of its slot is a version of it. -/
theorem volume_of_answer {vol : Volume}
    (h : answer node s .volume o = some (.ok (some vol), s')) :
    vol.status.perNode node ∈ s.slots ∧ vol.spec.drbd := by
  cases o with
  | volume vol' i =>
    simp only [answer] at h
    split at h
    · rename_i hv
      cases h
      exact ⟨List.mem_of_getElem? hv.1, hv.2⟩
    · cases h
  | _ => cases h

theorem diskless_of_answer {st : LegStatus}
    (h : answer node s .mint o = some (.ok st, s')) (hs : s.attached = false) :
    st.diskState = some .diskless := by
  cases o with
  | status st' =>
    simp only [answer] at h
    split at h
    · rename_i hst
      cases h
      exact hst.mpr hs
    · cases h
  | _ => cases h

/-- The slot a pass has after an answer: the one it had, one it has read, or the one it has written.
-/
theorem slotView_cases {l l' : Leg} {t : Nat}
    {s : ReplicaStatus} (ha : answer node l cmd o = some (r, l'))
    (hs : slotView node (⟨t, cmd, r⟩ :: log) = some s) :
    (slotView node log = some s ∧ ((∃ mine, cmd = .patchStatus mine) → isError cmd r)) ∨
      (s ∈ l.slots ∧ (readsLatch node cmd r → s.diskFailed)) ∨
      (cmd = .patchStatus s ∧ l' = l.setSlot s) := by
  cases cmd with
  | volume =>
    rcases r with e | _ | vol
    · exact .inl ⟨hs, fun ⟨_, h⟩ => by cases h⟩
    · exact .inl ⟨hs, fun ⟨_, h⟩ => by cases h⟩
    · cases hs
      exact .inr (.inl ⟨(volume_of_answer ha).1, id⟩)
  | patchStatus mine =>
    rcases r with e | _
    · exact .inl ⟨hs, fun _ => rfl⟩
    · cases hs
      rcases performed ha with rfl | ⟨-, e, he⟩
      · exact .inr (.inr ⟨rfl, rfl⟩)
      · cases he
  | _ => exact .inl ⟨hs, fun ⟨_, h⟩ => by cases h⟩

theorem forsakes_cons {t : Nat} :
    forsakes (⟨t, cmd, r⟩ :: log) = forsakes [⟨0, cmd, r⟩] := by
  cases cmd with
  | deviceExists => rcases r with e | _ | _ <;> rfl
  | adjust skip => rcases r with (_ | _ | msg) | _ <;> rfl
  | _ => rfl

/-- A pass writes no failed slot without a device. -/
theorem Latched.created_of_patch (h : Latched a c) {mine : ReplicaStatus}
    {k : VolAns (.patchStatus mine) → VolM Result}
    (ht : c.threads.lookup () = some ⟨(), log, .ask (.patchStatus mine) k⟩)
    (hm : mine.diskFailed) : mine.deviceCreated := by
  obtain ⟨s, hs, hw⟩ := (h.obeys ht).1
  cases hw with
  | same => exact h.copied ht hs hm
  | fresh _ hf => rw [hf] at hm; cases hm
  | verdict _ hc => exact hc
  | plain hspec hd => rw [h.spec ht hspec] at hd; cases hd

/-- A pass writes the latch while the disk is failed. -/
theorem Latched.failed_of_patch (h : Latched a c) (hf : c.world.failed)
    {mine : ReplicaStatus} {k : VolAns (.patchStatus mine) → VolM Result}
    (ht : c.threads.lookup () = some ⟨(), log, .ask (.patchStatus mine) k⟩) :
    mine.diskFailed := by
  obtain ⟨s, hs, hw⟩ := (h.obeys ht).1
  cases hslot : c.world.slot.diskFailed with
  | true =>
    have hlatch := h.recorded hf hslot ht hs
    cases hw with
    | same => exact hlatch
    | fresh _ _ hd =>
      have := hd (h.copied ht hs hlatch)
      rw [h.held hf ht] at this
      cases this
    | verdict hst _ hm => rw [hm, latches, h.seen hf ht hst, hlatch]; rfl
    | plain hspec hd => rw [h.spec ht hspec] at hd; cases hd
  | false =>
    obtain ⟨t, s', hr⟩ := h.recording hf hslot
    obtain rfl := Option.some.inj (hr.thread.symm.trans ht)
    obtain rfl := Option.some.inj (hr.slot.symm.trans hs)
    have happ := hr.applied
    cases hw with
    | same hfail => exact Bool.noConfusion (hr.succeeds.symm.trans (hfail happ))
    | fresh ha => exact Bool.noConfusion (ha.symm.trans happ)
    | verdict hst _ hm =>
      have hatt := hr.attached
      rw [recordsAttached] at hatt
      rw [hm, latches, h.seen hf ht hst, hatt]
      simp
    | plain hspec hd => rw [h.spec ht hspec] at hd; cases hd

/-- No pass attaches a failed disk. -/
theorem Latched.not_attaches (h : Latched a c) (hf : c.world.failed)
    (ht : c.threads.lookup () = some ⟨(), log, .ask cmd k⟩) : attaches cmd = false := by
  have hg := (h.obeys ht).1
  cases cmd with
  | adjust skip =>
    obtain ⟨ha, s, hs, rfl⟩ := hg
    cases hslot : c.world.slot.diskFailed with
    | true => rw [attaches, h.recorded hf hslot ht hs]; rfl
    | false =>
      obtain ⟨t, s', hr⟩ := h.recording hf hslot
      obtain rfl := Option.some.inj (hr.thread.symm.trans ht)
      exact Bool.noConfusion (ha.symm.trans hr.applied)
  | up => exact Bool.noConfusion ((h.held hf ht).symm.trans hg.2)
  | _ => rfl

/-- A pass that is about to record the failure stays so until it has recorded it. -/
theorem Latched.recording_of_reply (h : Latched a c) (hf : c.world.failed)
    (hslot : c.world.slot.diskFailed = false)
    (ht : c.threads.lookup () = some ⟨(), log, .ask cmd k⟩) {n : Nat}
    (hne : ∀ mine, cmd ≠ .patchStatus mine) (he : isError cmd r = false)
    (ht' : c'.threads.lookup () = some ⟨(), ⟨n, cmd, r⟩ :: log, k r⟩) :
    ∃ t s, Recording a c' t s := by
  obtain ⟨t, s, hr⟩ := h.recording hf hslot
  obtain rfl := Option.some.inj (hr.thread.symm.trans ht)
  obtain ⟨hg, hnext⟩ := h.obeys ht
  have happ : applied (⟨n, cmd, r⟩ :: log) := by
    rw [applied, List.any_cons, Bool.or_eq_true]
    exact .inr hr.applied
  refine ⟨_, s, ht', ?_, ?_, hr.attached, happ, he⟩
  · -- It does not return before.
    have hnext := hnext n r
    unfold Thread.returned
    dsimp only
    split
    · rfl
    · rename_i res hret
      rw [hret] at hnext
      rcases hnext happ with hlast | hwrote
      · exact Bool.noConfusion (he.symm.trans hlast)
      · cases cmd
        case patchStatus => exact absurd rfl (hne _)
        all_goals cases hwrote
  · refine (slotView_cons ?_ hne).trans hr.slot
    rintro rfl
    obtain rfl : log = [] := hg
    exact Bool.noConfusion hr.applied

theorem Latched.reply (h : Latched a c) {n : Nat}
    (hc : keepsLatch a c (.reply () o))
    (ht : c.threads.lookup () = some ⟨(), log, .ask cmd k⟩)
    (ha : answer a.node c.world cmd o = some (r, s')) (hw : c'.world = s')
    (ht' : c'.threads.lookup () = some ⟨(), ⟨n, cmd, r⟩ :: log, k r⟩) : Latched a c' := by
  subst hw
  have hcases := answer_cases ha
  have hfailed : c'.world.failed = c.world.failed := by
    rcases hcases with ⟨hs, -⟩ | ⟨-, hs⟩ | ⟨mine, -, hs⟩ <;> rw [hs] <;> rfl
  have hheeds : c'.world.failed → heeds a c.world cmd r := by
    intro hf
    simpa [keepsLatch, ← hfailed, hf, ht, ha] using hc
  have hthread : ∀ {t}, c'.threads.lookup () = some t →
      t = ⟨(), ⟨n, cmd, r⟩ :: log, k r⟩ := fun h => Option.some.inj (h.symm.trans ht')
  have hslot : (∀ mine, cmd ≠ .patchStatus mine) → c'.world.slot = c.world.slot := by
    intro hne
    rcases hcases with ⟨hs, -⟩ | ⟨-, hs⟩ | ⟨mine, hc, -⟩
    · rw [hs]
    · rw [hs]; rfl
    · exact absurd hc (hne mine)
  exact {
    obeys := fun h' => by
      rw [hthread h']
      exact (h.obeys ht).2 n r
    spec := fun h' hspec => by
      rw [hthread h'] at hspec
      by_cases hv : ∃ vol, (⟨n, cmd, r⟩ : Entry Nat VolAns) = ⟨n, .volume, .ok (some vol)⟩
      · obtain ⟨vol, hv⟩ := hv
        cases hv
        cases hspec
        exact (volume_of_answer ha).2
      · refine h.spec ht ?_
        cases cmd with
        | volume =>
          rcases r with e | _ | vol
          exacts [hspec, hspec, absurd ⟨vol, rfl⟩ hv]
        | _ => exact hspec
    created := by
      intro s hs hd
      rcases hcases with ⟨hw, -⟩ | ⟨-, hw⟩ | ⟨mine, rfl, hw⟩
      · exact h.created s (hw ▸ hs) hd
      · exact h.created s (by rw [hw] at hs; exact hs) hd
      · rw [hw] at hs
        rcases List.mem_append.mp hs with hs | hs
        · exact h.created s hs hd
        · obtain rfl := List.mem_singleton.mp hs
          exact h.created_of_patch ht hd
    copied := fun h' hs hd => by
      rw [hthread h'] at hs
      rcases slotView_cases ha hs with ⟨hs, -⟩ | ⟨hs, -⟩ | ⟨rfl, -⟩
      · exact h.copied ht hs hd
      · exact h.created _ hs hd
      · exact h.created_of_patch ht hd
    detached := fun hf => by
      rw [hfailed] at hf
      rcases hcases with ⟨hw, -⟩ | ⟨hatt, -⟩ | ⟨mine, -, hw⟩
      · rw [hw]; exact h.detached hf
      · exact Bool.noConfusion ((h.not_attaches hf ht).symm.trans hatt)
      · rw [hw]; exact h.detached hf
    held := fun hf {t} h' => by
      have hh := hheeds hf
      simp only [heeds, Bool.and_eq_true, Bool.not_eq_true'] at hh
      rw [hthread h', forsakes_cons]
      exact hh.1.2
    seen := fun hf {t st} h' hst => by
      rw [hthread h'] at hst
      by_cases hm : ∃ st, (⟨n, cmd, r⟩ : Entry Nat VolAns) = ⟨n, .mint, .ok st⟩
      · obtain ⟨st', hm⟩ := hm
        cases hm
        cases hst
        exact diskless_of_answer ha (h.detached (hfailed ▸ hf))
      · refine h.seen (hfailed ▸ hf) ht ?_
        cases cmd with
        | mint =>
          rcases r with e | st'
          exacts [hst, absurd ⟨st', rfl⟩ hm]
        | _ => exact hst
    recorded := fun hf hd {t s} h' hs => by
      rw [hthread h'] at hs
      have hh := hheeds hf
      simp only [heeds, Bool.and_eq_true, Bool.or_eq_true, Bool.not_eq_true'] at hh
      rcases slotView_cases ha hs with ⟨hs, herr⟩ | ⟨-, hread⟩ | ⟨rfl, hw⟩
      · refine h.recorded (hfailed ▸ hf) ?_ ht hs
        by_cases hp : ∃ mine, cmd = .patchStatus mine
        · exact hh.2.resolve_right fun he => Bool.noConfusion (he.symm.trans (herr hp))
        · rw [← hslot fun mine hc => hp ⟨mine, hc⟩]
          exact hd
      · exact hread hh.1.1
      · rw [hw, slot_setSlot] at hd
        exact hd
    recording := fun hf hd => by
      rw [hfailed] at hf
      have hh := hheeds (hfailed ▸ hf)
      simp only [heeds, Bool.and_eq_true, Bool.or_eq_true, Bool.not_eq_true'] at hh
      by_cases hp : ∃ mine, cmd = .patchStatus mine
      · -- The slot that is written has the latch.
        obtain ⟨mine, rfl⟩ := hp
        have hm := h.failed_of_patch hf ht
        rcases hcases with ⟨hw, herr⟩ | ⟨hatt, -⟩ | ⟨mine', hc, hw⟩
        · rw [hw] at hd
          have := hh.2.resolve_left fun h => Bool.noConfusion (hd.symm.trans h)
          exact Bool.noConfusion (this.symm.trans (herr ⟨mine, rfl⟩))
        · cases hatt
        · cases hc
          rw [hw, slot_setSlot, hm] at hd
          cases hd
      · have hne : ∀ mine, cmd ≠ .patchStatus mine := fun mine hc => hp ⟨mine, hc⟩
        rw [hslot hne] at hd
        exact h.recording_of_reply hf hd ht hne
          (hh.2.resolve_left fun h => Bool.noConfusion (hd.symm.trans h)) ht' }

theorem Latched.ioError (h : Latched a c) (hc : keepsLatch a c (.event .ioError))
    (he : event c.world .ioError = some s') :
    Latched a ⟨c.tick + 1, s', c.threads⟩ := by
  simp only [event] at he
  split at he
  swap
  · cases he
  rename_i hatt
  cases he
  have hold : c.world.failed = false := by
    cases hf : c.world.failed with
    | false => rfl
    | true => exact Bool.noConfusion ((h.detached hf).symm.trans hatt)
  -- The disk has failed: then a pass sees it.
  have hsees : (c.world.failed || recordsAttached c.world.slot) → ∃ log cmd k,
      c.threads.lookup () = some ⟨(), log, .ask cmd k⟩ ∧ slotView a.node log = some c.world.slot ∧
      recordsAttached c.world.slot ∧ applied log ∧ minted log = none ∧
      lastFailed log = false ∧ forsakes log = false := by
    intro hf
    rw [hold, Bool.false_or] at hf
    simp only [keepsLatch, hf, Bool.not_true, Bool.false_or] at hc
    unfold sees at hc
    split at hc
    all_goals first
      | cases hc
      | rename_i ht
        obtain ⟨ha, hm, hl, hs⟩ := (h.obeys ht).1
        exact ⟨_, _, _, ht, of_decide_eq_true hc, hf, ha, hm, hl, hs⟩
  have hthread : ∀ {log cmd k t}, c.threads.lookup () = some ⟨(), log, .ask cmd k⟩ →
      c.threads.lookup () = some t → t = ⟨(), log, .ask cmd k⟩ :=
    fun h h' => Option.some.inj (h'.symm.trans h)
  exact {
    obeys := h.obeys
    spec := h.spec
    created := h.created
    copied := h.copied
    detached := fun _ => rfl
    held := fun hf {t} h' => by
      obtain ⟨log, cmd, k, ht, -, -, -, -, -, hs⟩ := hsees hf
      rw [hthread ht h']
      exact hs
    seen := fun hf {t st} h' hst => by
      obtain ⟨log, cmd, k, ht, -, -, -, hm, -⟩ := hsees hf
      rw [hthread ht h', hm] at hst
      cases hst
    recorded := fun hf hd {t s} h' hs => by
      obtain ⟨log, cmd, k, ht, hslot, -⟩ := hsees hf
      rw [hthread ht h', hslot] at hs
      exact Option.some.inj hs ▸ hd
    recording := fun hf _ => by
      obtain ⟨log, cmd, k, ht, hslot, hr, ha, -, hl, -⟩ := hsees hf
      exact ⟨_, _, ht, rfl, hslot, hr, ha, hl⟩ }

/-- Between two passes the latch is recorded. -/
theorem Latched.idle (h : Latched a c) (hw : c'.world = c.world)
    (hrec : c.world.failed → c.world.slot.diskFailed)
    (hnone : c'.threads.lookup () = none) : Latched a c' := by
  have hthread : ∀ {t}, c'.threads.lookup () ≠ some t := fun h' => by rw [hnone] at h'; cases h'
  exact {
    obeys := fun h' => absurd h' hthread
    spec := fun h' => absurd h' hthread
    created := hw ▸ h.created
    copied := fun h' => absurd h' hthread
    detached := hw ▸ h.detached
    held := fun _ {_} h' => absurd h' hthread
    seen := fun _ {_ _} h' => absurd h' hthread
    recorded := fun _ _ {_ _} h' => absurd h' hthread
    recording := fun hf hd => by rw [hw] at hf hd; rw [hrec hf] at hd; cases hd }

theorem Latched.removed (h : Latched a c) :
    Latched a ⟨c.tick + 1, { c.world.setSlot {} with attached := false, failed := false },
      c.threads⟩ where
  obeys := h.obeys
  spec := h.spec
  created s hs hd := by
    rcases List.mem_append.mp hs with hs | hs
    · exact h.created s hs hd
    · rw [List.mem_singleton.mp hs] at hd
      cases hd
  copied := h.copied
  detached hf := by cases hf
  held hf := by cases hf
  seen hf := by cases hf
  recorded hf := by cases hf
  recording hf := by cases hf

theorem Latched.step (h : Latched a c) (hs : Workers.Stepped (passes a) c act c')
    (hc : keepsLatch a c act) : Latched a c' := by
  cases hs with
  | start hnone =>
    have hthread : ∀ {w t}, (c.threads.insert w ⟨(), [], (passes a).program () ()⟩).lookup () =
        some t → t = ⟨(), [], VolumeReconciler.reconcile a⟩ := fun h => by
      rw [AList.lookup_insert] at h
      exact (Option.some.inj h).symm
    have hrec : c.world.failed → c.world.slot.diskFailed := by
      intro hf
      by_contra hd
      obtain ⟨t, s, hr⟩ := h.recording hf (by simpa using hd)
      exact absurd (hr.thread.symm.trans hnone) (by simp)
    exact {
      obeys := fun h' => by
        rw [hthread h']
        exact (VolumeReconciler.obeys_pass a).weaken fun _ _ => And.right
      spec := fun h' hs => by rw [hthread h'] at hs; cases hs
      created := h.created
      copied := fun h' hs => by rw [hthread h'] at hs; cases hs
      detached := h.detached
      held := fun _ {t} h' => by rw [hthread h']; rfl
      seen := fun _ {t st} h' hst => by rw [hthread h'] at hst; cases hst
      recorded := fun _ _ {t s} h' hs => by rw [hthread h'] at hs; cases hs
      recording := fun hf hd => by rw [hrec hf] at hd; cases hd }
  | reply ht ha => exact h.reply hc ht ha rfl (AList.lookup_insert _)
  | finish ht =>
    refine h.idle rfl (fun hf => ?_) (AList.lookup_erase _ _)
    by_contra hd
    obtain ⟨t, s, hr⟩ := h.recording hf (by simpa using hd)
    obtain rfl := Option.some.inj (hr.thread.symm.trans ht)
    cases hr.asks
  | crash =>
    refine h.idle rfl (fun hf => ?_) (AList.lookup_erase _ _)
    simpa [keepsLatch, hf] using hc
  | @event e s' he =>
    cases e with
    | ioError => exact h.ioError hc he
    | removed =>
      cases he
      exact h.removed

end Step

/-! ## Runs -/

/-- No slot with a failed disk, and no pass. -/
theorem latched_init {s₀ : Leg} (h₀ : s₀.failed = false)
    (hs : ∀ s ∈ s₀.slots, s.diskFailed → s.deviceCreated) :
    Latched a (Workers.init s₀) where
  obeys h := by cases h
  spec h := by cases h
  created := hs
  copied h := by cases h
  detached hf := by rw [Workers.init, h₀] at hf; cases hf
  held hf := by rw [Workers.init, h₀] at hf; cases hf
  seen hf := by rw [Workers.init, h₀] at hf; cases hf
  recorded hf := by rw [Workers.init, h₀] at hf; cases hf
  recording hf := by rw [Workers.init, h₀] at hf; cases hf

/-- In every run whose steps keep the latch in force, no pass attaches a disk that has failed, and
the disk is detached until the replica is removed. -/
theorem failed_disk_stays_detached {s₀ : Leg} {N : ℕ} (h₀ : s₀.failed = false)
    (hs : ∀ s ∈ s₀.slots, s.diskFailed = true → s.deviceCreated = true)
    (ρ : Run (passes a).step (Workers.init s₀) N)
    (hc : ∀ i < N, keepsLatch a (ρ.state i) (ρ.act i) = true) {i : ℕ} (hi : i ≤ N)
    (hf : (ρ.state i).world.failed = true) :
    (ρ.state i).world.attached = false ∧
      ∀ q, Workers.asked (ρ.state i) (ρ.act i) = some q → attaches q.cmd = false := by
  have hinv : Latched a (ρ.state i) :=
    ρ.invariant (P := fun _ c => Latched a c) (latched_init a h₀ hs)
      (fun j hj h => h.step (Workers.stepped_of_step (ρ.next j hj)) (hc j hj)) hi
  refine ⟨hinv.detached hf, fun q hq => ?_⟩
  obtain ⟨o, k, -, ht⟩ := Workers.asked_eq_some hq
  exact hinv.not_attaches hf ht

/-! ## Two runs -/

def agentA : Agent := ⟨"a", ["default"], false⟩

/-- The slot of a healthy leg. -/
def upToDate : ReplicaStatus :=
  { deviceCreated := true, sizeBytes := 4096, diskState := some .upToDate, pool := "default" }

def latched : ReplicaStatus := { upToDate with diskState := some .diskless, diskFailed := true }

/-- The volume on nodes `a` and `b`, with this slot of `a`. -/
def volumeWith (s : ReplicaStatus) : Volume where
  name := "v"
  spec :=
    { sizeBytes := 4096
      replicas := [{ node := "a", nodeID := 0, address := "10.0.0.1" },
        { node := "b", nodeID := 1, address := "10.0.0.2" }]
      drbd := true }
  status := { perNode := fun n => if n = "a" then s else {} }

def healthy : Leg := { slots := [upToDate], attached := true }

def told (os : List Outcome) : List Act := Workers.replies () os

/-- A pass up to its adjust, over version `i` of the slot, which is `s`. -/
def toAdjust (s : ReplicaStatus) (i : Nat) : List Act :=
  .start () () :: told ([.volume (volumeWith s) i, .holds false, .holds true, .ok, .ok] ++
    if s.diskFailed then [] else [.holds true, .ok, .ok])

/-- The rest of a pass that finds no disk. -/
def toSlot : List Act :=
  told [.status { diskState := some .diskless }, .status { diskState := some .diskless },
    .ok, .ok] ++
    [.finish ()]

/-- The disk fails after the adjust of a pass, which latches it; the next pass heeds the latch. -/
def failsInPass : List Act :=
  toAdjust upToDate 0 ++ told [.ok, .ok] ++ .event .ioError :: toSlot ++
    toAdjust latched 1 ++ told [.ok, .ok] ++ toSlot

theorem failsInPass_possible : allSteps (passes agentA).step (keepsLatch agentA)
    (Workers.init healthy) failsInPass := by decide +kernel

def failsInPassRun : Run (passes agentA).step (Workers.init healthy) failsInPass.length :=
  .ofActions _ _ _ failsInPass failsInPass_possible

/-- At the adjust of the second pass. -/
theorem failed_disk_stays_detached_failsInPass :
    (failsInPassRun.state 23).world.failed = true ∧
    (Workers.asked (failsInPassRun.state 23) (failsInPassRun.act 23)).any
      (fun q => q.cmd = .adjust true) = true ∧
    (failsInPassRun.state 23).world.attached = false ∧
    ∀ q, Workers.asked (failsInPassRun.state 23) (failsInPassRun.act 23) = some q →
      attaches q.cmd = false := by
  have hf : (failsInPassRun.state 23).world.failed = true := by decide +kernel
  exact ⟨hf, by decide +kernel, failed_disk_stays_detached agentA rfl (by decide) failsInPassRun
    (fun i hi => Run.ofActions_spec failsInPass_possible hi) (by decide) hf⟩

/-- The disk fails between two passes. -/
def failsBetween : List Act := .event .ioError :: toAdjust upToDate 0 ++ told [.ok, .ok] ++
  told [.status upLeg, .status upLeg, .ok, .ok] ++ [.finish ()]
where upLeg : LegStatus := { diskState := some .upToDate }

theorem failsBetween_possible : allSteps (passes agentA).step (fun _ _ => true)
    (Workers.init healthy) failsBetween := by decide +kernel

def failsBetweenRun : Run (passes agentA).step (Workers.init healthy) failsBetween.length :=
  .ofActions _ _ _ failsBetween failsBetween_possible

/-- The next pass runs a plain adjust, the disk is attached again, and the failure leaves no trace
in the slot. -/
theorem failed_disk_attached :
    (failsBetweenRun.state 10).world.failed = true ∧
    (failsBetweenRun.state 10).world.attached = false ∧
    (Workers.asked (failsBetweenRun.state 10) (failsBetweenRun.act 10)).any
      (fun q => q.cmd = .adjust false) = true ∧
    (failsBetweenRun.state 11).world.attached = true ∧
    (failsBetweenRun.state failsBetween.length).world.slot = upToDate := by
  refine ⟨?_, ?_, ?_, ?_, ?_⟩ <;> decide +kernel

end Miroir.Disk
