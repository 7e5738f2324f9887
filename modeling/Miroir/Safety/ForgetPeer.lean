import Miroir.Drbd.Leg

/-!
# Every peer that left is forgotten

`Apply` clears the metadata slot of a peer that the config no longer lists. Which peers those are
it learns from the kernel and from the marker of pending forgets, and it rewrites the marker before
it writes the config.

`forgets_complete`: as long as an `Apply` that drops an id of the rendered config still finds it in
the kernel or pending, and an `Apply` that takes a pending id back gets as far as writing its
config, no slot is left of an id that is not in the config whenever `Apply` returns success. After
a reboot the kernel lists nothing, and the slot of a peer that leaves then stays for good
(`reboot_hides_peer`).
-/

namespace Miroir.Drbd

open Process Prog Calls

/-- The ids the marker listed when the call read it. -/
def pendingInHand : DriverLog → List Nat
  | [] => []
  | ⟨_, .readPendingForgets _, .ok ids⟩ :: _ => ids
  | _ :: log => pendingInHand log

/-- No pending id is taken back but those of the rendered config. -/
def takesNoneBack (s : Leg) (r : Input) (log : DriverLog) : Bool :=
  (pendingInHand log).all fun id => id ∉ r.ids || id ∈ s.rendered

/-- The ids the call drops from the rendered config are in the kernel or pending. -/
def dropsListed (s : Leg) (r : Input) : Bool :=
  s.rendered.all fun id => id ∈ r.ids || id ∈ s.kernel.getD [] || id ∈ s.pending

/-- The status is read while what is dropped is known, and a call that has taken a pending id off
the marker goes on to write its config. -/
def keepsRecord : StepCond Leg Input Outcome Ans := fun s r log cmd o =>
  match cmd, o with
  | .listStatus _, some .ok => dropsListed s r
  | .writePendingForgets _ _, some (.failed true) =>
    log.head?.all (fun e => e.cmd ≠ .listStatus r.name) || takesNoneBack s r log
  | .writeConfig _, none | .writeConfig _, some (.failed false) => takesNoneBack s r log
  | _, _ => true

/-- Every slot is of an id that is pending or in the rendered config. -/
def Tracked (s : Leg) : Prop :=
  ∀ id ∈ s.slots, id ∈ s.pending ∨ id ∈ s.rendered

/-- The config is written, and every slot is of one of its ids or still to be forgotten. -/
structure Forgetting (r : Input) (removed left : List Nat) (s : Leg) : Prop where
  config : s.config = some r
  pending : s.pending = removed
  slots : ∀ id ∈ s.slots, id ∈ r.ids ∨ id ∈ left
  sub : ∀ id ∈ left, id ∈ removed

/-- What a call returns: on success no slot is left but those of the config. -/
def Returned (r : Input) (_ : DriverLog) (a : Except Err Unit) (s : Leg) : Prop :=
  Tracked s ∧ (a = .ok () → s.config = some r ∧ ∀ id ∈ s.slots, id ∈ r.ids)

section Steps

variable {s s' : Leg} {r : Input} {removed left : List Nat} {l : DriverLog}

theorem rendered_of_config (h : s.config = some r) : s.rendered = r.ids := by
  rw [Leg.rendered, h]
  rfl

theorem Tracked.same (h : Tracked s) (hs : Leg.Same s s') : Tracked s' := by
  intro id hid
  rw [hs.pending, hs.rendered]
  rcases hs.slots id hid with hid | hid
  · exact h id hid
  · exact .inr hid

theorem Forgetting.tracked (h : Forgetting r removed left s) : Tracked s := by
  intro id hid
  rw [rendered_of_config h.config, h.pending]
  exact (h.slots id hid).symm.imp_left (h.sub id)

theorem Forgetting.same (h : Forgetting r removed left s) (hs : Leg.Same s s') :
    Forgetting r removed left s' := by
  refine ⟨hs.config.trans h.config, hs.pending.trans h.pending, fun id hid => ?_, h.sub⟩
  rcases hs.slots id hid with hid | hid
  · exact h.slots id hid
  · rw [rendered_of_config h.config] at hid
    exact .inl hid

theorem Forgetting.returned_error (h : Forgetting r removed left s) (e : Err) :
    Returned r l (.error e) s :=
  ⟨h.tracked, nofun⟩

theorem Returned.same {a : Except Err Unit} (h : Returned r l a s) (hs : Leg.Same s s') :
    Returned r l a s' := by
  refine ⟨h.1.same hs, fun ha => ?_⟩
  obtain ⟨hc, hslots⟩ := h.2 ha
  have hf : Forgetting r s.pending [] s := ⟨hc, rfl, fun id hid => .inl (hslots id hid), nofun⟩
  exact ⟨(hf.same hs).config, fun id hid => ((hf.same hs).slots id hid).resolve_right (by simp)⟩

theorem same_of_converging {name : String} {c : Cmd} (hc : Converging name c) {o : Outcome}
    {a : Ans c} (h : answerOn s c o = some (a, s')) : Leg.Same s s' := by
  cases c
  case adjust | up => exact same_of_bringUp h
  case ensureMarkedMetadata | removeCreatedMarker | ensureDeviceNode =>
    rcases effect_cases h with ⟨-, -, rfl⟩ | ⟨-, -, rfl⟩ | ⟨-, -, rfl⟩ <;> exact .refl _
  all_goals cases hc

end Steps

/-! ## A call -/

/-- The rest of a call is safe. -/
abbrev SafeApply {α : Type} (r : Input) (Q : DriverLog → α → Leg → Prop) :
    DriverLog → DriverM α → Leg → Prop :=
  Safe (fun s _ c o => answerOn s c o) keepsRecord Leg.Same Tracked r Q

section Call

variable {s : Leg} {r : Input} {removed left : List Nat} {l : DriverLog}

/-- The parts that look after metadata and the kernel keep `Forgetting`. -/
theorem safe_converging {α : Type} {p : DriverM α} (hp : Asks (Converging r.name) p)
    (hs : Forgetting r removed left s) :
    SafeApply r (fun _ _ s => Forgetting r removed left s) l p s :=
  safe_of_asks hp (fun _ _ hsame h => h.same hsame) (fun _ h => h.tracked)
    (fun _ _ _ _ _ hc h hans => h.same (same_of_converging hc hans)) hs

/-- Forgetting goes through the list, and clears the marker at its end. -/
theorem safe_forget (hs : Forgetting r removed left s) :
    SafeApply r (fun _ a s => Tracked s ∧ (a = .ok () → Forgetting r [] [] s)) l
      (forgetRemovedPeers r.name left) s := by
  induction left generalizing s l with
  | nil =>
    refine safe_call (c := Cmd.writePendingForgets r.name []) (P := Forgetting r removed [])
      (fun s₁ h => hs.same h)
      (fun s₁ h _ => h.tracked) fun s₁ t o a s' h hans _ => ?_
    have hcleared : Forgetting r [] [] { s₁ with pending := [] } :=
      ⟨h.config, rfl, h.slots, nofun⟩
    rcases effect_cases hans with ⟨-, rfl, rfl⟩ | ⟨-, rfl, rfl⟩ | ⟨-, rfl, rfl⟩
    · exact ⟨hcleared.tracked, fun _ => hcleared⟩
    · exact ⟨hcleared.tracked, nofun⟩
    · exact ⟨h.tracked, nofun⟩
  | cons id left ih =>
    refine Safe.bind (Q := fun _ a s => Forgetting r removed (id :: left) s ∧
      (a = .ok () → Forgetting r removed left s)) ?_ fun l a s h => ?_
    · refine safe_call (P := Forgetting r removed (id :: left)) (fun s₁ h => hs.same h)
        (fun s₁ h _ => h.tracked) fun s₁ t o a s' h hans _ => ?_
      rcases forget_cases hans with ⟨rfl, rfl⟩ | ⟨rfl, rfl⟩
      · exact ⟨h, nofun⟩
      · -- The slot of `id` is cleared.
        have hleft : Forgetting r removed left { s₁ with slots := s₁.slots.filter (· ≠ id) } := by
          refine ⟨h.config, h.pending, fun i hi => ?_, fun i hi => h.sub i (.tail _ hi)⟩
          obtain ⟨hi, hne⟩ := List.mem_filter.mp hi
          refine (h.slots i hi).imp_right fun hmem => ?_
          exact (List.mem_cons.mp hmem).resolve_left (by simpa using hne)
        refine ⟨⟨hleft.config, hleft.pending, fun i hi => ?_, h.sub⟩, fun _ => hleft⟩
        exact (hleft.slots i hi).imp_right (.tail _)
    · cases a with
      | error e => exact ⟨h.1.tracked, nofun⟩
      | ok => exact ih (h.2 rfl)

theorem safe_finishApply (hs : Forgetting r removed removed s) :
    SafeApply r (Returned r) l (finishApply r removed) s := by
  refine Safe.bind (safe_forget hs) fun l a s h => ?_
  cases a with
  | error e => exact ⟨h.1, nofun⟩
  | ok =>
    have hask : Asks (Converging r.name) (call (Cmd.ensureDeviceNode r.name r.minor) : DriverM _) :=
      asks_call.mpr rfl
    refine (safe_converging hask (h.2 rfl)).mono fun l a s h => ?_
    exact ⟨h.tracked, fun _ => ⟨h.config, fun id hid =>
      (h.slots id hid).resolve_right (by simp)⟩⟩

/-- What is known once the status is read: the marker is as it was, and every slot that the call
is going to drop is among those removed. -/
structure Known (r : Input) (pending removed : List Nat) (s : Leg) : Prop where
  tracked : ∀ id ∈ s.slots, id ∈ pending ∨ id ∈ s.rendered
  covered : ∀ id, id ∈ s.slots ∨ id ∈ s.rendered → id ∈ r.ids ∨ id ∈ removed

theorem Known.same {pending : List Nat} {s' : Leg} (h : Known r pending removed s)
    (hs : Leg.Same s s') : Known r pending removed s' := by
  refine ⟨fun id hid => ?_, fun id hid => h.covered id ?_⟩
  · rw [hs.rendered]
    rcases hs.slots id hid with hid | hid
    · exact h.tracked id hid
    · exact .inr hid
  · rw [hs.rendered] at hid
    rcases hid with hid | hid
    · exact hs.slots id hid
    · exact .inr hid

/-- With the marker rewritten, nothing is lost track of unless a pending id was taken back. -/
theorem Known.tracked_of_takesNoneBack (h : Known r (pendingInHand l) removed s)
    (hp : s.pending = removed) (hback : takesNoneBack s r l) : Tracked s := by
  intro id hid
  rw [hp]
  rcases h.tracked id hid with hpend | hres
  · have hb := List.all_eq_true.mp hback id hpend
    rcases h.covered id (.inl hid) with hin | hrem
    · exact .inr (by simpa [hin] using hb)
    · exact .inl hrem
  · exact .inr hres

/-- The log ends with the status. -/
def justListed (r : Input) (log : DriverLog) : Prop :=
  (log.head?.all fun e => e.cmd ≠ .listStatus r.name) = false

theorem safe_removedPeers (hs : Tracked s) :
    SafeApply r (fun l a s => Tracked s ∧ ∀ removed, a = .ok removed →
      s.pending = pendingInHand l ∧ Known r (pendingInHand l) removed s ∧ justListed r l) l
      (removedPeers r) s := by
  refine Safe.bind (Q := fun l a s => Tracked s ∧ ∀ ids, a = .ok ids →
    s.pending = ids ∧ pendingInHand l = ids) ?_ fun l a s h => ?_
  · refine safe_call (P := Tracked) (fun s₁ h => hs.same h) (fun s₁ h _ => h)
      fun s₁ t o a s' h hans _ => ?_
    obtain ⟨rfl, hread⟩ := look_cases hans
    refine ⟨h, fun ids ha => ⟨(hread ids ha).2.symm, ?_⟩⟩
    subst ha
    rfl
  cases a with
  | error e => exact ⟨h.1, nofun⟩
  | ok ids =>
    obtain ⟨hs, hids⟩ := h
    obtain ⟨hpend, hhand⟩ := hids ids rfl
    refine Safe.bind (Q := fun l' a s => Tracked s ∧ ∀ kernel, a = .ok kernel →
      s.pending = ids ∧ pendingInHand l' = ids ∧ Known r ids (r.removed ids kernel) s ∧
        justListed r l') ?_ fun l a s h => ?_
    · refine safe_call (P := fun s => Tracked s ∧ s.pending = ids)
        (fun s₁ h => ⟨hs.same h, h.pending.trans hpend⟩) (fun s₁ h _ => h.1)
        fun s₁ t o a s' h hans hok => ?_
      obtain ⟨rfl, hread⟩ := look_cases hans
      refine ⟨h.1, fun kernel ha => ?_⟩
      obtain ⟨rfl, rfl⟩ := hread kernel ha
      subst ha
      refine ⟨h.2, hhand, ⟨fun id hid => h.2 ▸ h.1 id hid, fun id hid => ?_⟩, by simp [justListed]⟩
      -- What the marker and the config list is kept, or in the kernel or pending.
      have hres : ∀ id ∈ s'.rendered, id ∈ r.ids ∨ id ∈ r.removed ids s'.kernel := by
        intro id hid
        have hb := List.all_eq_true.mp hok id hid
        simp only [Bool.or_eq_true, decide_eq_true_iff, h.2] at hb
        rw [Input.mem_removed]
        tauto
      rcases hid with hid | hid
      · rcases h.1 id hid with hp | hp
        · rw [Input.mem_removed]
          rw [h.2] at hp
          tauto
        · exact hres id hp
      · exact hres id hid
    cases a with
    | error e => exact ⟨h.1, nofun⟩
    | ok kernel =>
      obtain ⟨hp, hhand, hknown, hlist⟩ := h.2 kernel rfl
      refine ⟨h.1, fun removed ha => ?_⟩
      cases ha
      exact ⟨hhand ▸ hp, hhand ▸ hknown, hlist⟩

/-- The marker is rewritten. -/
theorem safe_record (hs : Tracked s) (hp : s.pending = pendingInHand l)
    (hk : Known r (pendingInHand l) removed s) (hl : justListed r l) :
    SafeApply r (fun l a s => (a ≠ .ok () → Tracked s) ∧
      (a = .ok () → s.pending = removed ∧ Known r (pendingInHand l) removed s)) l
      (call (Cmd.writePendingForgets r.name removed)) s := by
  refine safe_call (c := Cmd.writePendingForgets r.name removed)
    (P := fun s => Tracked s ∧ s.pending = pendingInHand l ∧ Known r (pendingInHand l) removed s)
    (fun s₁ h => ⟨hs.same h, h.pending.trans hp, hk.same h⟩) (fun s₁ h _ => h.1)
    fun s₁ t o a s' h hans hok => ?_
  obtain ⟨htracked, -, hk⟩ := h
  have hk' : Known r (pendingInHand l) removed { s₁ with pending := removed } :=
    ⟨hk.tracked, hk.covered⟩
  rcases effect_cases hans with ⟨-, rfl, rfl⟩ | ⟨rfl, rfl, rfl⟩ | ⟨-, rfl, rfl⟩
  · exact ⟨fun h => absurd rfl h, fun _ => ⟨rfl, hk'⟩⟩
  · refine ⟨fun _ => hk'.tracked_of_takesNoneBack rfl ?_, nofun⟩
    have hok : ((l.head?.all fun e => e.cmd ≠ .listStatus r.name) || takesNoneBack s₁ r l) =
      true := hok
    rwa [hl, Bool.false_or] at hok
  · exact ⟨fun _ => htracked, nofun⟩

/-- The config is written. -/
theorem safe_writeConfig (hp : s.pending = removed) (hk : Known r (pendingInHand l) removed s) :
    SafeApply r (fun _ a s => (a ≠ .ok () → Tracked s) ∧
      (a = .ok () → Forgetting r removed removed s)) l (call (Cmd.writeConfig r)) s := by
  refine safe_call (c := Cmd.writeConfig r)
    (P := fun s => s.pending = removed ∧ Known r (pendingInHand l) removed s)
    (fun s₁ h => ⟨h.pending.trans hp, hk.same h⟩)
    (fun s₁ h hok => h.2.tracked_of_takesNoneBack h.1 hok) fun s₁ t o a s' h hans hok => ?_
  have hwritten : Forgetting r removed removed { s₁ with config := some r } :=
    ⟨rfl, h.1, fun id hid => h.2.covered id (.inl hid), fun _ => id⟩
  rcases effect_cases hans with ⟨-, rfl, rfl⟩ | ⟨rfl, rfl, rfl⟩ | ⟨rfl, rfl, rfl⟩
  · exact ⟨fun h => absurd rfl h, fun _ => hwritten⟩
  · exact ⟨fun _ => hwritten.tracked, nofun⟩
  · exact ⟨fun _ => h.2.tracked_of_takesNoneBack h.1 hok, nofun⟩

/-- From a leg that keeps track of its slots, a call returns one that does, and on success one
without a slot to forget. -/
theorem safe_apply (hs : Tracked s) : SafeApply r (Returned r) [] (apply r) s := by
  have herr {l : DriverLog} {e : Err} {s : Leg} (h : Tracked s) : Returned r l (.error e) s :=
    ⟨h, nofun⟩
  refine Safe.bind (Q := fun _ _ s => Tracked s) ?_ fun l a s hs => ?_
  · refine safe_call (P := Tracked) (fun s₁ h => hs.same h) (fun s₁ h _ => h)
      fun s₁ t o a s' h hans _ => ?_
    rcases effect_cases hans with ⟨-, -, rfl⟩ | ⟨-, -, rfl⟩ | ⟨-, -, rfl⟩ <;> exact h
  cases a with
  | error e => exact herr hs
  | ok =>
  refine Safe.bind (safe_removedPeers hs) fun l a s h => ?_
  cases a with
  | error e => exact herr h.1
  | ok removed =>
  obtain ⟨hp, hk, hl⟩ := h.2 removed rfl
  refine Safe.bind (safe_record h.1 hp hk hl) fun l a s h => ?_
  cases a with
  | error e => exact herr (h.1 nofun)
  | ok =>
  refine Safe.bind (safe_writeConfig (h.2 rfl).1 (h.2 rfl).2) fun l a s h => ?_
  cases a with
  | error e => exact herr (h.1 nofun)
  | ok =>
  refine Safe.bind (safe_converging (asks_metadata r) (h.2 rfl)) fun l a s h => ?_
  cases a with
  | error e => exact h.returned_error e
  | ok =>
  refine Safe.bind (safe_converging (asks_converge r) h) fun l a s h => ?_
  cases a with
  | error e => exact h.returned_error e
  | ok => exact safe_finishApply h

end Call

/-! ## Runs of calls -/

theorem calls_sound : Calls.Sound calls keepsRecord Leg.Same Tracked Returned where
  env_refl := .refl
  env_trans _ _ _ h h' := h.trans h'
  event_env _ _ _ h := same_of_event h
  idle_env _ _ h hs := hs.same h
  post_env _ _ _ _ _ h hr := hr.same h
  post_idle _ _ _ _ h := h.1
  call _ _ hs := safe_apply hs

/-- In every run of calls on a new leg in which `keepsRecord` is met, whenever a call returns
success the ids whose slot is set are ids of its config: every other id that was ever configured has
been forgotten since. -/
theorem forgets_complete {N i : ℕ} (ρ : Run calls.step (Workers.init {}) N)
    (h : ∀ k < N, meets keepsRecord (ρ.state k) (ρ.act k) = true) (hi : i ≤ N) {r : Input}
    (ht : returned (ρ.state i) = some (r, .ok ())) :
    ∀ id ∈ (ρ.state i).world.slots, id ∈ r.ids := by
  obtain ⟨l, hreturned⟩ := post_of_run calls_sound ρ (fun id hid => absurd hid (by simp)) h hi ht
  exact (hreturned.2 rfl).2

/-! ## Three legs -/

/-- A resource on "a", with id 0, and on these other nodes. -/
def onNodes (others : List (String × Nat)) : Input where
  name := "pvc"
  localNode := "a"
  localDiskless := false
  peers := (("a", 0) :: others).map fun p =>
    { node := p.1, nodeID := p.2, address := "10.0.0." ++ p.1, diskless := false }
  minor := 1000

def withBC : Input := onNodes [("b", 1), ("c", 2)]

def withB : Input := onNodes [("b", 1)]

/-- A call of `Apply` that meets these outcomes. -/
def applied (r : Input) (os : List Outcome) : List (Act Unit Input Event Outcome) :=
  .start () r :: Workers.replies () os

/-- "c" joins and leaves, and the first attempt to forget it fails. -/
def forgottenLate : List (Act Unit Input Event Outcome) :=
  applied withBC (List.replicate 9 .ok) ++ .finish () ::
    applied withB (List.replicate 7 .ok ++ [.failed false]) ++ .finish () ::
    applied withB (List.replicate 10 .ok)

theorem forgottenLate_meets :
    allSteps calls.step (meets keepsRecord) (Workers.init {}) forgottenLate := by
  decide +kernel

def forgottenLateRun : Run calls.step (Workers.init {}) forgottenLate.length :=
  .ofActions _ _ _ forgottenLate forgottenLate_meets

/-- The last call returns success, and the slot of "c" is cleared. -/
theorem forgottenLate_complete :
    returned (forgottenLateRun.state 32) = some (withB, .ok ()) ∧
      ∀ id ∈ (forgottenLateRun.state 32).world.slots, id ∈ withB.ids := by
  have ht : returned (forgottenLateRun.state 32) = some (withB, .ok ()) := by decide +kernel
  exact ⟨ht, forgets_complete forgottenLateRun
    (fun _ hk => Run.ofActions_spec forgottenLate_meets hk) (by decide) ht⟩

/-- "c" joins, the node reboots, and "c" has left by the time of the next call. -/
def rebooted : List (Act Unit Input Event Outcome) :=
  applied withBC (List.replicate 9 .ok) ++ .finish () :: .event .gone ::
    applied withB (List.replicate 9 .ok)

theorem rebooted_possible :
    allSteps calls.step (fun _ _ => true) (Workers.init {}) rebooted := by
  decide +kernel

def rebootedRun : Run calls.step (Workers.init {}) rebooted.length :=
  .ofActions _ _ _ rebooted rebooted_possible

/-- The call returns success, and the slot of "c" is still set. -/
theorem reboot_hides_peer :
    returned (rebootedRun.state 22) = some (withB, .ok ()) ∧
      2 ∈ (rebootedRun.state 22).world.slots ∧ 2 ∉ withB.ids := by
  decide +kernel

end Miroir.Drbd
