import Miroir.Process.Calls
import Miroir.Drbd.Driver

/-!
# The peers of one leg

The state that calls of `Apply` on one resource leave behind: the kernel's peers, the rendered
config, the marker of pending forgets, and the peer slots of the metadata. A slot is set when the
kernel configures a peer and cleared by `forget-peer` alone. Between commands the resource may
vanish from the kernel, by a reboot or a `down`, and may be brought up again from its config.
-/

namespace Miroir.Drbd

open Process

variable {o : Outcome}

/-- The kernel, the config and the metadata of a leg. -/
structure Leg where
  /-- The peers the kernel has configured, if the resource is up. -/
  kernel : Option (List Nat) := none
  config : Option Input := none
  pending : List Nat := []
  /-- The ids whose metadata slot is set. -/
  slots : List Nat := []
  deriving DecidableEq, Repr

namespace Leg

/-- The ids the rendered config lists. -/
def rendered (s : Leg) : List Nat := (s.config.map Input.ids).getD []

/-- The kernel configures exactly the other legs. -/
def register (s : Leg) (r : Input) : Leg :=
  { s with kernel := some r.others, slots := s.slots ++ r.others }

end Leg

/-- How a command went: `failed` says whether it had its effect all the same, `halted` what an
`adjust` or `up` that stopped half-way has left in the kernel. -/
inductive Outcome where
  | ok
  | failed (applied : Bool)
  | halted (err : AdmErr) (kernel : Option (List Nat))
  deriving DecidableEq, Repr

/-- The way from `old` to the other legs may stop at `new`: peers are added and dropped one by
one. -/
def halfway (old : Option (List Nat)) (others : List Nat) : Option (List Nat) → Bool
  | none => old.isNone
  | some new => new.all (fun id => id ∈ others || id ∈ old.getD []) &&
      (old.getD []).all fun id => id ∉ others || id ∈ new

def failure : Err := .other "exit status 1"

def Outcome.fate : Outcome → Option (Fate Err)
  | .ok => some .done
  | .failed applied => some (.failed failure applied)
  | .halted _ _ => none

/-- `drbdadm adjust` or `up`, from the config on disk. -/
def bringUp (s : Leg) : Outcome → Option (Except AdmErr Unit × Leg)
  | .ok => s.config.map fun r => (.ok (), s.register r)
  | .failed _ => some (.error {}, s)
  | .halted e new => s.config.bind fun r =>
      if halfway s.kernel r.others new then
        some (.error e, { s with
          kernel := new, slots := s.slots ++ (new.getD []).filter (· ∈ r.others) })
      else none

/-- `forget-peer` needs the resource up and the peer not configured. -/
def forget (s : Leg) (id : Nat) : Outcome → Option (Except Err Unit × Leg)
  | .ok =>
    if s.kernel.any fun peers => id ∉ peers then
      some (.ok (), { s with slots := s.slots.filter (· ≠ id) })
    else none
  | .failed _ => some (.error failure, s)
  | .halted _ _ => none

def answerOn (s : Leg) : (c : Cmd) → Outcome → Option (Ans c × Leg)
  | .readPendingForgets _, o => perform s.pending s s o.fate
  | .listStatus _, o => perform s.kernel s s o.fate
  | .writePendingForgets _ ids, o => perform () s { s with pending := ids } o.fate
  | .writeConfig r, o => perform () s { s with config := some r } o.fate
  | .adjust _ _, o | .up _, o => bringUp s o
  | .forgetPeer _ id, o => forget s id o
  | .lock _, o | .ensureMarkedMetadata _, o | .removeCreatedMarker _, o
  | .ensureDeviceNode _ _, o => perform () s s o.fate
  | _, _ => none

inductive Event where
  /-- The resource is gone from the kernel. -/
  | gone
  /-- It is brought up from its config. -/
  | restarted
  deriving DecidableEq, Repr

instance inhabitedEvent : Inhabited Event := ⟨.gone⟩

def event (s : Leg) : Event → Option Leg
  | .gone => some { s with kernel := none }
  | .restarted => s.config.map s.register

/-- Calls of `Apply` on one resource. -/
def calls : Workers Leg Unit Input Event Outcome Ans (Except Err Unit) where
  program _ r := apply r
  answer s _ _ c o := answerOn s c o
  event := event

/-! ## What a command can do -/

/-- The world changes by itself: files stay, and a slot is set only for a peer of the config. -/
structure Leg.Same (s s' : Leg) : Prop where
  config : s'.config = s.config
  pending : s'.pending = s.pending
  slots : ∀ id ∈ s'.slots, id ∈ s.slots ∨ id ∈ s.rendered

namespace Leg.Same

variable {s s' s'' : Leg}

theorem refl (s : Leg) : Same s s := ⟨rfl, rfl, fun _ => .inl⟩

theorem rendered (h : Same s s') : s'.rendered = s.rendered := by
  rw [Leg.rendered, Leg.rendered, h.config]

theorem trans (h : Same s s') (h' : Same s' s'') : Same s s'' := by
  refine ⟨h'.config.trans h.config, h'.pending.trans h.pending, fun id hid => ?_⟩
  rcases h'.slots id hid with hid | hid
  · exact h.slots id hid
  · rw [h.rendered] at hid
    exact .inr hid

end Leg.Same

variable {s s' : Leg}

theorem others_subset {r : Input} {id : Nat} (h : id ∈ r.others) : id ∈ r.ids := by
  obtain ⟨p, hp, rfl⟩ := List.mem_map.mp h
  exact List.mem_map.mpr ⟨p, List.mem_of_mem_filter hp, rfl⟩

theorem same_register {r : Input} (h : s.config = some r) : Leg.Same s (s.register r) := by
  refine ⟨rfl, rfl, fun id hid => ?_⟩
  rcases List.mem_append.mp hid with hid | hid
  · exact .inl hid
  · rw [Leg.rendered, h]
    exact .inr (others_subset hid)

theorem same_of_event {e : Event} (h : event s e = some s') : Leg.Same s s' := by
  cases e with
  | gone =>
    cases h
    exact ⟨rfl, rfl, fun _ => .inl⟩
  | restarted =>
    obtain ⟨r, hr, rfl⟩ := Option.map_eq_some_iff.mp h
    exact same_register hr

/-- `adjust` and `up` leave the files alone, and set slots of the config's peers. -/
theorem same_of_bringUp {a : Except AdmErr Unit}
    (h : bringUp s o = some (a, s')) : Leg.Same s s' := by
  cases o with
  | ok =>
    obtain ⟨r, hr, heq⟩ := Option.map_eq_some_iff.mp h
    cases heq
    exact same_register hr
  | failed =>
    cases h
    exact .refl s
  | halted e new =>
    obtain ⟨r, hr, h⟩ := Option.bind_eq_some_iff.mp h
    split at h
    · cases h
      refine ⟨rfl, rfl, fun id hid => ?_⟩
      rcases List.mem_append.mp hid with hid | hid
      · exact .inl hid
      · rw [Leg.rendered, hr]
        exact .inr (others_subset (by simpa using (List.mem_filter.mp hid).2))
    · cases h

/-- The three ways a command with an effect can go. -/
theorem effect_cases {u : Leg} {a : Except Err Unit}
    (h : perform () s u o.fate = some (a, s')) :
    (o = .ok ∧ a = .ok () ∧ s' = u) ∨ (o = .failed true ∧ a = .error failure ∧ s' = u) ∨
      (o = .failed false ∧ a = .error failure ∧ s' = s) := by
  cases o with
  | ok =>
    cases h
    exact .inl ⟨rfl, rfl, rfl⟩
  | failed applied =>
    cases applied <;> cases h
    · exact .inr (.inr ⟨rfl, rfl, rfl⟩)
    · exact .inr (.inl ⟨rfl, rfl, rfl⟩)
  | halted => cases h

theorem look_cases {α : Type} {x : α} {a : Except Err α}
    (h : perform x s s o.fate = some (a, s')) : s' = s ∧ ∀ y, a = .ok y → o = .ok ∧ y = x := by
  refine ⟨(read_cases h).1, fun y hy => ?_⟩
  cases o <;> cases h <;> cases hy
  exact ⟨rfl, rfl⟩

theorem forget_cases {id : Nat} {a : Except Err Unit}
    (h : forget s id o = some (a, s')) :
    s' = s ∧ a = .error failure ∨
      a = .ok () ∧ s' = { s with slots := s.slots.filter (· ≠ id) } := by
  cases o with
  | ok =>
    simp only [forget] at h
    split at h
    · cases h
      exact .inr ⟨rfl, rfl⟩
    · cases h
  | failed =>
    cases h
    exact .inl ⟨rfl, rfl⟩
  | halted => cases h

end Miroir.Drbd
