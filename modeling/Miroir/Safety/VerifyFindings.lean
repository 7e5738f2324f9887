import Miroir.Volume.Verify

/-!
# Findings of a verify stay manual

A verify is announced on the coordinator's slot before it is kicked off, and what it finds is
recorded there once it has ended. While either stands, the stale-bitmap recovery leaves the
connections alone.

`findings_held`: in a run in which a kick that fails has started nothing, and a discarded result
leaves no findings, every pair with findings that no reconnect has cleared is covered by the
coordinator's slot. A verify that one peer's disconnect aborts is discarded for all peers
(`discard_drops_findings`).
-/

namespace Miroir.Verify

open Process Prog VolumeReconciler

/-! ## What a scheduler knows of a volume -/

/-- What the log of a sweep says of one volume: the copy from the list, the verify fields on the API
server, that no pair has findings or a verify running, and, once a status has shown the verify
ended, how many bits there were. -/
structure View where
  copy : Option Volume := none
  slot : Option Slot := none
  clean : Bool := false
  still : Option Nat := none

def View.ofCopy (self : String) (vol : Volume) : View where
  copy := some vol
  slot := some (slotOf vol self)
  clean := !(slotOf vol self).holds

section View

variable (self v : String)

def View.next (w : View) : (c : Cmd) → Ans c → View
  | .list, .ok vols => ((vols.1.find? fun vol => vol.name = v).map (View.ofCopy self)).getD {}
  | .status v', .ok st =>
    if v' = v then { w with still := if st.verifying then none else some st.outOfSyncKiB } else w
  | .applySlot v' s, .ok () => if v' = v then { w with slot := some s } else w
  | .applySlot v' _, .error _ => if v' = v then { w with slot := none } else w
  | .verify v', .ok () => if v' = v then { w with clean := false, still := none } else w
  | .verify v', .error _ => if v' = v then { w with still := none } else w
  | _, _ => w

def view : VerifyLog → View
  | [] => {}
  | e :: log => (view log).next self v e.cmd e.ans

end View

/-- The volume a command is about. -/
def Cmd.volume : Cmd → Option String
  | .status v | .applySlot v _ | .verify v => some v
  | .list | .done | .clock => none

theorem next_of_other {self v : String} {w : View} {c : Cmd} {a : Ans c} (hl : c ≠ .list)
    (hv : c.volume ≠ some v) : w.next self v c a = w := by
  cases c with
  | list => exact absurd rfl hl
  | done | clock => rfl
  | status v' =>
    have hne : v' ≠ v := fun h => hv (congrArg some h)
    cases a <;> simp [View.next, hne]
  | applySlot v' | verify v' =>
    have hne : v' ≠ v := fun h => hv (congrArg some h)
    rcases a with _ | ⟨⟩ <;> simp [View.next, hne]

/-- The sweep drops a result because some peer is not connected. -/
def discarding (self v : String) : VerifyLog → Bool
  | ⟨_, .status v', .ok st⟩ :: log =>
    v' = v && !st.verifying &&
      (view self v log).copy.any fun vol => !diskfulPeersConnected st.view vol self
  | _ => false

/-- The node verifies the volume, by its copy. -/
def View.coordinated (self : String) (w : View) : Prop :=
  ∃ vol, w.copy = some vol ∧ coordinates self vol = true

/-- A verify is kicked off under a marker. The verify fields are applied with a marker or a finding,
or while there is nothing to account for, or with what the pairs hold once the verify has ended, or
because the result is discarded. -/
def guard (self : String) (log : VerifyLog) : Cmd → Prop
  | .verify v => (view self v log).coordinated self ∧
      ∃ s, (view self v log).slot = some s ∧ s.startedAt.isSome = true
  | .applySlot v s => (view self v log).coordinated self ∧
      (s.holds = true ∨ (view self v log).clean = true ∨
        (∃ oos, (view self v log).still = some oos ∧ s.outOfSyncBytes = some (oos * 1024)) ∨
        discarding self v log = true)
  | _ => True

section Programs

variable {self : String} {log log' : VerifyLog} {vol : Volume}

/-- Only `v` was dealt with between the two logs. -/
def Spares (self v : String) (log log' : VerifyLog) : Prop :=
  ∀ v' ≠ v, view self v' log' = view self v' log

theorem Spares.refl (self v : String) (log : VerifyLog) : Spares self v log log := fun _ _ => rfl

theorem Spares.cons {v : String} (h : Spares self v log log') {t : Nat} {c : Cmd} (a : Ans c)
    (hl : c ≠ .list) (hv : c.volume = none ∨ c.volume = some v) :
    Spares self v log (⟨t, c, a⟩ :: log') := by
  intro v' hne
  rw [view, next_of_other hl, h v' hne]
  rcases hv with hv | hv <;> simp [hv, Ne.symm hne]

theorem obeys_poll (n : Nat) (hcopy : (view self vol.name log').copy = some vol)
    (hc : coordinates self vol) (hs : Spares self vol.name log log') :
    Obeys (guard self) (fun log' _ => Spares self vol.name log log') log' (poll self vol n) := by
  induction n generalizing log' with
  | zero => exact hs
  | succ n ih =>
    refine obeys_call_bind trivial fun t stop => ?_
    have hs₁ := hs.cons (t := t) (c := .done) stop nofun (.inl rfl)
    split
    · exact hs₁
    refine obeys_call_bind trivial fun t' r => ?_
    have hs₂ := hs₁.cons (t := t') (c := .status vol.name) r nofun (.inr rfl)
    cases r with
    | error e => exact hs₂
    | ok st =>
      have hview : view self vol.name
          (⟨t', .status vol.name, .ok st⟩ :: ⟨t, .done, stop⟩ :: log') =
          { view self vol.name log' with
            still := if st.verifying then none else some st.outOfSyncKiB } := by
        simp [view, View.next]
      have hcoord : (view self vol.name
          (⟨t', .status vol.name, .ok st⟩ :: ⟨t, .done, stop⟩ :: log')).coordinated self :=
        ⟨vol, by rw [hview]; exact hcopy, hc⟩
      dsimp only
      split
      · exact ih (by rw [hview]; exact hcopy) hs₂
      · rename_i hverify
        split
        · rename_i hconn
          refine obeys_call_bind ⟨hcoord, .inr (.inr (.inr ?_))⟩ fun t'' r =>
            hs₂.cons r nofun (.inr rfl)
          have hcopy' : (view self vol.name (⟨t, .done, stop⟩ :: log')).copy = some vol := hcopy
          simpa [discarding, hcopy', hverify] using hconn
        · refine obeys_call_bind ⟨hcoord, .inr (.inr (.inl ⟨st.outOfSyncKiB, ?_, rfl⟩))⟩
            fun t'' r => hs₂.cons r nofun (.inr rfl)
          rw [hview]
          simp [hverify]

/-- The volume has not been dealt with since the list. -/
structure Fresh (node : String) (log : VerifyLog) (vol : Volume) : Prop where
  copy : (view node vol.name log).copy = some vol
  slot : (view node vol.name log).slot = some (slotOf vol node)
  clean : (view node vol.name log).clean = !(slotOf vol node).holds

/-- The marker is on the slot. -/
structure Marked (node : String) (log : VerifyLog) (vol : Volume) : Prop where
  copy : (view node vol.name log).copy = some vol
  slot : ∃ s, (view node vol.name log).slot = some s ∧ s.startedAt.isSome = true
  clean : (view node vol.name log).clean = !(slotOf vol node).holds

theorem obeys_recordStart (hf : Fresh self log' vol) (hc : coordinates self vol)
    (hs : Spares self vol.name log log') :
    Obeys (guard self)
      (fun log' r => Spares self vol.name log log' ∧ (r = .ok () → Marked self log' vol)) log'
      (recordStart self vol) := by
  unfold recordStart
  split
  · rename_i hmark
    exact ⟨hs, fun _ => ⟨hf.copy, ⟨_, hf.slot, hmark⟩, hf.clean⟩⟩
  · refine obeys_call_bind trivial fun t now => ?_
    have hs₁ := hs.cons (t := t) (c := .clock) now nofun (.inl rfl)
    refine ⟨⟨⟨vol, hf.copy, hc⟩, .inl rfl⟩, fun t' r => ?_⟩
    refine ⟨hs₁.cons r nofun (.inr rfl), fun hr => ?_⟩
    cases hr
    refine ⟨?_, ⟨{ carriedVerifySlot self vol with startedAt := some now }, ?_, rfl⟩, ?_⟩
    all_goals simp [view, View.next, hf.copy, hf.clean]

/-- A slot without a marker holds only by its record, which is carried along. -/
theorem carried_holds (h : (slotOf vol self).startedAt.isSome = false) :
    (carriedVerifySlot self vol).holds = (slotOf vol self).holds := by
  simp [Slot.holds, carriedVerifySlot, h]

theorem obeys_withdraw (hm : Marked self log' vol) (hc : coordinates self vol)
    (hs : Spares self vol.name log log') :
    Obeys (guard self) (fun log' _ => Spares self vol.name log log') log' (withdraw self vol) := by
  unfold withdraw
  split
  · exact hs
  · rename_i hmark
    refine obeys_call_bind ⟨⟨vol, hm.copy, hc⟩, ?_⟩ fun t r => hs.cons r nofun (.inr rfl)
    rw [hm.clean, carried_holds (by simpa using hmark)]
    cases (slotOf vol self).holds
    exacts [.inr (.inl rfl), .inl rfl]

theorem obeys_verifyVolume (polls : Nat) (hf : Fresh self log vol) (hc : coordinates self vol) :
    Obeys (guard self) (fun log' _ => Spares self vol.name log log') log
      (verifyVolume self polls vol) := by
  refine obeys_call_bind trivial fun t r => ?_
  have hs₁ := (Spares.refl self vol.name log).cons (t := t) (c := .status vol.name) r nofun
    (.inr rfl)
  cases r with
  | error e => exact hs₁
  | ok st =>
    have hf₁ : Fresh self (⟨t, .status vol.name, .ok st⟩ :: log) vol := by
      refine ⟨?_, ?_, ?_⟩
      all_goals simp [view, View.next, hf.copy, hf.slot, hf.clean]
    dsimp only
    split
    · exact hs₁
    · refine (obeys_recordStart hf₁ hc hs₁).bind fun log₂ r ⟨hs₂, hm⟩ => ?_
      cases r with
      | error e => exact hs₂
      | ok =>
        obtain hm := hm rfl
        refine obeys_call_bind ⟨⟨vol, hm.copy, hc⟩, hm.slot⟩ fun t' r => ?_
        have hs₃ := hs₂.cons (t := t') (c := .verify vol.name) r nofun (.inr rfl)
        cases r with
        | error e =>
          refine (obeys_withdraw ⟨?_, ?_, ?_⟩ hc hs₃).bind fun _ _ h => h
          · simp [view, View.next, hm.copy]
          · simpa [view, View.next] using hm.slot
          · simp [view, View.next, hm.clean]
        | ok => exact obeys_poll polls (by simp [view, View.next, hm.copy]) hc hs₃

theorem Fresh.of_spares {v : String} (hf : Fresh self log vol) (hs : Spares self v log log')
    (hne : vol.name ≠ v) : Fresh self log' vol := by
  have hview := hs vol.name hne
  refine ⟨?_, ?_, ?_⟩ <;> rw [hview]
  exacts [hf.copy, hf.slot, hf.clean]

theorem obeys_sweep (polls : Nat) {vols : List Volume} (hf : ∀ vol ∈ vols, Fresh self log vol)
    (hnd : (vols.map Volume.name).Nodup) :
    Obeys (guard self) (fun _ _ => True) log (sweep self polls vols) := by
  induction vols generalizing log with
  | nil => trivial
  | cons vol vols ih =>
    simp only [List.map_cons, List.nodup_cons, List.mem_map, not_exists, not_and] at hnd
    refine obeys_call_bind trivial fun t stop => ?_
    have hs₁ := (Spares.refl self "" log).cons (t := t) (c := .done) stop nofun (.inl rfl)
    have hf₁ : ∀ vol' ∈ vol :: vols, Fresh self (⟨t, .done, stop⟩ :: log) vol' :=
      fun vol' hvol => ⟨(hf vol' hvol).copy, (hf vol' hvol).slot, (hf vol' hvol).clean⟩
    split
    · trivial
    · split
      · rename_i hc
        refine (obeys_verifyVolume polls (hf₁ vol (.head _)) hc).bind
          fun log₂ _ hs₂ => ih (fun vol' hvol => ?_) hnd.2
        exact (hf₁ vol' (.tail _ hvol)).of_spares hs₂ (hnd.1 vol' hvol)
      · exact ih (fun vol' hvol => hf₁ vol' (.tail _ hvol)) hnd.2

theorem find?_name {vols : List Volume} (hnd : (vols.map Volume.name).Nodup) (h : vol ∈ vols) :
    (vols.find? fun vol' => vol'.name = vol.name) = some vol := by
  obtain ⟨vol', hfind⟩ : ∃ vol', (vols.find? fun vol' => vol'.name = vol.name) = some vol' :=
    Option.isSome_iff_exists.mp (List.find?_isSome.mpr ⟨vol, h, by simp⟩)
  rw [hfind, List.inj_on_of_nodup_map hnd (List.mem_of_find?_eq_some hfind) h
    (by simpa using List.find?_some hfind)]

theorem obeys_runOnce (polls : Nat) :
    Obeys (guard self) (fun _ _ => True) [] (runOnce self polls) := by
  refine obeys_call_bind trivial fun t r => ?_
  cases r with
  | error e => trivial
  | ok vols =>
    refine obeys_sweep polls (fun vol hvol => ?_) vols.2
    have hview : view self vol.name [⟨t, .list, .ok vols⟩] = View.ofCopy self vol := by
      simp [view, View.next, find?_name vols.2 hvol]
    refine ⟨?_, ?_, ?_⟩ <;> rw [hview] <;> rfl

end Programs

/-! ## Pairs -/

def Pair.settled (p : Pair) : Bool := !p.verifying && p.found = 0

/-- Whether a pair is looked at: all of them, or the connected ones. -/
def Pair.counted (all : Bool) (p : Pair) : Bool := all || p.connected

/-- Every pair that is looked at has nothing to account for. -/
def Found.quiet (all : Bool) (f : Found) : Bool :=
  f.ids.all fun i => !(f.pair i).counted all || (f.pair i).settled

/-- Findings and running verifies are covered by the coordinator's slot. -/
def Found.covered (all : Bool) (f : Found) : Prop :=
  f.quiet all = true ∨ verifyHolds f.object = true

/-- What happens to a pair while no verify is kicked off. -/
structure Evolves (p p' : Pair) : Prop where
  verifying : p'.verifying = true → p.verifying = true
  found : p.verifying = false → p'.found ≤ p.found
  connected : p'.connected = true → p.connected = true ∨ p'.settled = true

theorem Evolves.refl (p : Pair) : Evolves p p := ⟨id, fun _ => le_rfl, .inl⟩

/-- The object keeps its spec and verify fields, and no verify is kicked off. -/
structure Drifts (f f' : Found) : Prop where
  ids : f'.ids = f.ids
  spec : f'.object.spec = f.object.spec
  slot : ∀ n, slotOf f'.object n = slotOf f.object n
  pair : ∀ i, Evolves (f.pair i) (f'.pair i)

theorem Drifts.refl (f : Found) : Drifts f f := ⟨rfl, rfl, fun _ => rfl, fun _ => .refl _⟩

section World

variable {all : Bool} {f f' : Found} {p p' : Pair} {self : String} {w : View}

theorem evolves_setPair {i : Nat} (h : Evolves (f.pair i) p) (j : Nat) :
    Evolves (f.pair j) ((f.setPair i p).pair j) := by
  by_cases hj : j = i
  · subst hj
    simpa [Found.setPair] using h
  · simpa [Found.setPair, hj] using Evolves.refl (f.pair j)

theorem drifts_of_event {e : Event} (h : f.event e = some f') : Drifts f f' := by
  have hpair : ∀ {i : Nat} {p : Pair}, some (f.setPair i p) = some f' → Evolves (f.pair i) p →
      Drifts f f' := by
    rintro i p ⟨⟩ he
    exact ⟨rfl, rfl, fun _ => rfl, evolves_setPair he⟩
  cases e with
  | finds v i n =>
    simp only [Found.event] at h
    split at h
    · rename_i hv
      exact hpair h ⟨id, fun hn => absurd (hv.symm.trans hn) (by decide), .inl⟩
    · cases h
  | ends v i => exact hpair h ⟨nofun, fun _ => le_rfl, .inl⟩
  | disconnects v i => exact hpair h ⟨nofun, fun _ => le_rfl, nofun⟩
  | connects v i => exact hpair h ⟨nofun, fun _ => Nat.zero_le _, fun _ => .inr rfl⟩
  | resyncs v i n => exact hpair h ⟨id, fun _ => le_rfl, .inl⟩
  | changes v st =>
    cases h
    exact ⟨rfl, rfl, fun _ => rfl, fun _ => .refl _⟩
  | writes v status =>
    cases h
    exact ⟨rfl, rfl, fun _ => rfl, fun _ => .refl _⟩

theorem settled_iff : p.settled ↔ p.verifying = false ∧ p.found = 0 := by
  simp [Pair.settled]

theorem Evolves.settled (h : Evolves p p') (hp : p.settled) : p'.settled := by
  obtain ⟨hv, hf⟩ := settled_iff.mp hp
  refine settled_iff.mpr ⟨Bool.eq_false_iff.mpr fun hv' => ?_, ?_⟩
  · rw [h.verifying hv'] at hv
    cases hv
  · exact Nat.le_zero.mp (hf ▸ h.found hv)

theorem quiet_iff : f.quiet all ↔
    ∀ i ∈ f.ids, (f.pair i).counted all → (f.pair i).settled := by
  simp only [Found.quiet, List.all_eq_true, Bool.or_eq_true, Bool.not_eq_true']
  refine forall₂_congr fun i _ => ?_
  cases (f.pair i).counted all <;> simp

theorem Drifts.quiet (h : Drifts f f') (hq : f.quiet all) : f'.quiet all := by
  refine quiet_iff.mpr fun i hi hc => ?_
  rw [h.ids] at hi
  have hcount : (f.pair i).counted all ∨ (f'.pair i).settled := by
    simp only [Pair.counted, Bool.or_eq_true] at hc ⊢
    rcases hc with hall | hconn
    · exact .inl (.inl hall)
    · exact ((h.pair i).connected hconn).imp_left .inr
  exact hcount.elim (fun hc => (h.pair i).settled (quiet_iff.mp hq i hi hc)) id

theorem verifyHolds_congr {vol vol' : Volume} (hs : vol'.spec = vol.spec)
    (hslot : ∀ n, slotOf vol' n = slotOf vol n) : verifyHolds vol' = verifyHolds vol := by
  have hstart : ∀ n, (vol'.status.perNode n).verifyStartedAt =
      (vol.status.perNode n).verifyStartedAt := fun n => congrArg Slot.startedAt (hslot n)
  have hoos : ∀ n, (vol'.status.perNode n).lastVerifyOutOfSyncBytes =
      (vol.status.perNode n).lastVerifyOutOfSyncBytes :=
    fun n => congrArg Slot.outOfSyncBytes (hslot n)
  simp only [verifyHolds, hs, hstart, hoos]

theorem Drifts.covered (h : Drifts f f') (hc : f.covered all) : f'.covered all :=
  hc.imp h.quiet fun hh => by rwa [verifyHolds_congr h.spec h.slot]

/-- The slot of the coordinator is the one that counts. -/
theorem verifyHolds_eq {vol : Volume} (vol' : Volume) (h : coordinates self vol)
    (hs : vol.spec = vol'.spec) : verifyHolds vol' = (slotOf vol' self).holds := by
  simp only [coordinates, Bool.and_eq_true, hs] at h
  obtain ⟨coord, hcoord, hnode⟩ := (Option.any_eq_true _ _).mp h.1.2
  obtain rfl : coord.node = self := of_decide_eq_true hnode
  simp [verifyHolds, hcoord, Slot.holds, slotOf]

/-! ## What a scheduler knows is so -/

/-- What the view says of the volume is so. -/
structure Knows (all : Bool) (node : String) (w : View) (f : Found) : Prop where
  spec : ∀ vol, w.copy = some vol → vol.spec = f.object.spec
  slot : ∀ s, w.slot = some s → slotOf f.object node = s
  clean : w.clean = true → f.quiet all = true
  still : ∀ oos, w.still = some oos → ∀ i ∈ f.ids, (f.pair i).verifying = false ∧
    (f.pair i).found ≤ oos

theorem Knows.drifts (h : Knows all self w f) (hd : Drifts f f') : Knows all self w f' where
  spec vol hvol := (h.spec vol hvol).trans hd.spec.symm
  slot s hs := (hd.slot self).trans (h.slot s hs)
  clean hc := hd.quiet (h.clean hc)
  still oos ho i hi := by
    rw [hd.ids] at hi
    obtain ⟨hv, hf⟩ := h.still oos ho i hi
    refine ⟨Bool.eq_false_iff.mpr fun hv' => ?_, ((hd.pair i).found hv).trans hf⟩
    rw [(hd.pair i).verifying hv'] at hv
    cases hv

theorem bits_le_outOfSync {i : Nat} (hi : i ∈ f.ids) :
    (f.pair i).found ≤ f.status.outOfSyncKiB := by
  have hmax : ∀ l : List Nat, ∀ n ∈ l, n ≤ l.foldr max 0 := by
    intro l
    induction l with
    | nil => nofun
    | cons m l ih =>
      intro n hn
      rcases List.mem_cons.mp hn with rfl | hn
      · exact le_max_left ..
      · exact (ih n hn).trans (le_max_right ..)
  exact (Nat.le_add_right ..).trans (hmax _ _ (List.mem_map_of_mem hi))

theorem Knows.status (h : Knows all self w f) :
    Knows all self
      { w with still := if f.status.verifying then none else some f.status.outOfSyncKiB }
      f where
  spec := h.spec
  slot := h.slot
  clean := h.clean
  still oos ho i hi := by
    dsimp only at ho
    split at ho
    · cases ho
    · rename_i hv
      cases ho
      refine ⟨Bool.eq_false_iff.mpr fun hvi => hv ?_, bits_le_outOfSync hi⟩
      exact List.any_eq_true.mpr ⟨i, hi, hvi⟩

theorem slotOf_applied (s : Slot) : slotOf (f.applied self s).object self = s := by
  simp [slotOf, Found.applied, Growth.withSlot, Slot.over]

/-- An apply of the verify fields, whatever is known of it afterwards. -/
theorem Knows.applied (h : Knows all self w f) {s : Slot} (known : Option Slot)
    (hk : ∀ x, known = some x → x = s) :
    Knows all self { w with slot := known } (f.applied self s) where
  spec := h.spec
  slot x hx := by rw [slotOf_applied, hk x hx]
  clean := h.clean
  still := h.still

theorem Knows.kicked (h : Knows all self w f) (started : List Nat) :
    Knows all self { w with clean := false, still := none } (f.kicked started) where
  spec := h.spec
  slot := h.slot
  clean := nofun
  still := nofun

theorem kicked_nil : f.kicked [] = f := by
  simp [Found.kicked]

theorem Knows.failedKick (h : Knows all self w f) : Knows all self { w with still := none } f where
  spec := h.spec
  slot := h.slot
  clean := h.clean
  still := nofun

theorem knows_ofCopy (hc : f.covered all) (hco : coordinates self f.object) :
    Knows all self (View.ofCopy self f.object) f where
  spec vol hvol := by rw [Option.some.inj hvol]
  slot s hs := Option.some.inj hs
  clean hclean := by
    refine hc.resolve_right fun hh => ?_
    rw [verifyHolds_eq _ hco rfl] at hh
    simp [View.ofCopy, hh] at hclean
  still := nofun

/-- The verify fields are applied as the program applies them, and a result is discarded only where
nothing is lost by it. -/
theorem covered_of_applied {log : VerifyLog} {v : String} {s : Slot}
    (hk : Knows all self (view self v log) f) (hg : guard self log (.applySlot v s))
    (hd : discarding self v log → s.holds ∨ f.quiet all) :
    (f.applied self s).covered all := by
  obtain ⟨⟨vol, hcopy, hco⟩, hwhy⟩ := hg
  have hholds : s.holds → (f.applied self s).covered all := fun h => .inr (by
    rw [verifyHolds_eq (f.applied self s).object hco (hk.spec vol hcopy), slotOf_applied]
    exact h)
  have hquiet : f.quiet all → (f.applied self s).covered all := .inl
  rcases hwhy with h | h | ⟨oos, hstill, hoos⟩ | h
  · exact hholds h
  · exact hquiet (hk.clean h)
  · rcases Nat.eq_zero_or_pos oos with rfl | hpos
    · refine hquiet (quiet_iff.mpr fun i hi _ => settled_iff.mpr ?_)
      obtain ⟨hv, hf⟩ := hk.still 0 hstill i hi
      exact ⟨hv, Nat.le_zero.mp hf⟩
    · exact hholds (by simp [Slot.holds, hoos, hpos])
  · exact (hd h).elim hholds hquiet

theorem covered_of_kicked {log : VerifyLog} {v : String} {started : List Nat}
    (hk : Knows all self (view self v log) f) (hg : guard self log (.verify v)) :
    (f.kicked started).covered all := by
  obtain ⟨⟨vol, hcopy, hco⟩, s, hslot, hmark⟩ := hg
  refine .inr ?_
  rw [verifyHolds_eq (f.kicked started).object hco (hk.spec vol hcopy)]
  have hmine : slotOf (f.kicked started).object self = s := hk.slot s hslot
  simp [hmine, Slot.holds, hmark]

end World

/-! ## Steps -/

/-- A kick that reports an error has started nothing. -/
def kicksWhole : Act → Bool
  | .reply _ (.kicked started (some _)) => started.isEmpty
  | _ => true

/-- A discarded result leaves nothing to account for, or the carried record has a finding. -/
def discardsQuiet (all : Bool) (c : Schedulers) (a : Act) : Bool :=
  (Workers.asked c a).all fun q =>
    match q.cmd with
    | .applySlot v s => !discarding q.worker v q.log || s.holds || (c.world v).quiet all
    | _ => true

section Steps

variable {all : Bool} {self : String} {s s' : World} {log : VerifyLog}

variable {t : Nat} {c : Cmd}

/-- A log knows what it says of the volumes its node coordinates. -/
def KnowsAll (all : Bool) (self : String) (log : VerifyLog) (s : World) : Prop :=
  ∀ v, (view self v log).coordinated self → Knows all self (view self v log) (s v)

/-- A volume has one coordinator. -/
theorem coordinator_unique {node : String} {w w' : View} {f : Found}
    (hw : w.coordinated self) (hk : Knows all self w f) (hw' : w'.coordinated node)
    (hk' : Knows all node w' f) : self = node := by
  obtain ⟨vol, hcopy, hco⟩ := hw
  obtain ⟨vol', hcopy', hco'⟩ := hw'
  have hs : vol.spec = vol'.spec := (hk.spec vol hcopy).trans (hk'.spec vol' hcopy').symm
  simp only [coordinates, Bool.and_eq_true, hs] at hco hco'
  obtain ⟨coord, hcoord, hnode⟩ := (Option.any_eq_true _ _).mp hco.1.2
  obtain ⟨coord', hcoord', hnode'⟩ := (Option.any_eq_true _ _).mp hco'.1.2
  rw [hcoord] at hcoord'
  cases hcoord'
  exact (of_decide_eq_true hnode).symm.trans (of_decide_eq_true hnode')

/-- What an answer does to the volumes, and to what the one who asked knows. -/
structure Answered (all : Bool) (node : String) (log log' : VerifyLog) (s s' : World) : Prop where
  covered : ∀ v, (s' v).covered all
  knows : KnowsAll all node log' s'
  /-- Only the coordinator's commands change anything. -/
  frame : ∀ v, s' v = s v ∨ (view node v log).coordinated node

/-- A command about `v` leaves the other volumes and what is known of them. -/
theorem answered_of_volume {v : String} {f : Found} {a : Ans c}
    (hcov : ∀ v, (s v).covered all) (hk : KnowsAll all self log s) (hc : c.volume = some v)
    (hl : c ≠ .list) (hv : (view self v log).coordinated self) (hf : f.covered all)
    (hkv : Knows all self ((view self v log).next self v c a) f) :
    Answered all self log (⟨t, c, a⟩ :: log) s (Function.update s v f) := by
  refine ⟨fun v' => ?_, fun v' => ?_, fun v' => ?_⟩ <;> by_cases hne : v' = v
  · subst hne
    simpa using hf
  · simpa [hne] using hcov v'
  · subst hne
    simpa [view] using fun _ => hkv
  · rw [view, next_of_other hl (by simpa [hc] using Ne.symm hne), Function.update_of_ne hne]
    exact hk v'
  · exact .inr (hne ▸ hv)
  · exact .inl (Function.update_of_ne hne ..)

/-- A command that changes no volume. -/
theorem answered_of_read {a : Ans c} (hcov : ∀ v, (s v).covered all)
    (hk : ∀ v, ((view self v log).next self v c a).coordinated self →
      Knows all self ((view self v log).next self v c a) (s v)) :
    Answered all self log (⟨t, c, a⟩ :: log) s s :=
  ⟨hcov, hk, fun _ => .inl rfl⟩

theorem answered_list {names : List String} (hcov : ∀ v, (s v).covered all)
    (h : names.Nodup ∧ ∀ v ∈ names, (s v).object.name = v) :
    Answered all self log
      (⟨t, .list, .ok ⟨names.map fun v => (s v).object, names_of_objects h⟩⟩ :: log) s s := by
  refine answered_of_read hcov fun v hv => ?_
  simp only [View.next] at hv ⊢
  cases hfind : (names.map fun v => (s v).object).find? fun vol => vol.name = v with
  | none =>
    rw [hfind] at hv
    obtain ⟨vol, hvol, -⟩ := hv
    cases hvol
  | some vol =>
    rw [hfind] at hv
    obtain ⟨_, hvol, hco⟩ := hv
    cases hvol
    obtain ⟨v', hv', rfl⟩ := List.mem_map.mp (List.mem_of_find?_eq_some hfind)
    obtain rfl : v' = v := (h.2 v' hv').symm.trans (by simpa using List.find?_some hfind)
    exact knows_ofCopy (hcov v') hco

theorem answered {o : Outcome} {a : Ans c} (hcov : ∀ v, (s v).covered all)
    (hk : KnowsAll all self log s) (hg : guard self log c)
    (hkick : kicksWhole (.reply self o))
    (hdisc : ∀ v slot, c = .applySlot v slot → discarding self v log →
      slot.holds ∨ (s v).quiet all)
    (h : answer s self c o = some (a, s')) :
    Answered all self log (⟨t, c, a⟩ :: log) s s' := by
  cases c with
  | list =>
    cases o with
    | listed names =>
      simp only [answer] at h
      split at h
      · cases h
        exact answered_list hcov ‹_›
      · cases h
    | fail e applied =>
      cases h
      exact answered_of_read hcov hk
    | ok | flag | clock | kicked => cases h
  | done | clock =>
    cases o <;> cases h
    exact answered_of_read hcov hk
  | status v =>
    cases o with
    | ok =>
      cases h
      refine answered_of_read hcov fun v' hv' => ?_
      simp only [View.next] at hv' ⊢
      split at hv'
      · rename_i heq
        subst heq
        rw [if_pos rfl]
        exact (hk v hv').status
      · rename_i hne
        rw [if_neg hne]
        exact hk v' hv'
    | fail e applied =>
      cases h
      exact answered_of_read hcov hk
    | listed | flag | clock | kicked => cases h
  | applySlot v slot =>
    have happ : ∀ r : Except Err Unit,
        Answered all self log (⟨t, .applySlot v slot, r⟩ :: log) s
          (Function.update s v ((s v).applied self slot)) := fun r =>
      answered_of_volume hcov hk rfl nofun hg.1
        (covered_of_applied (hk v hg.1) hg (hdisc v slot rfl)) (by
          rcases r with e | ⟨⟩
          · simpa [View.next] using (hk v hg.1).applied none nofun
          · simpa [View.next] using (hk v hg.1).applied (some slot) (by simp))
    cases o with
    | ok =>
      cases h
      exact happ _
    | fail e applied =>
      cases h
      cases applied with
      | true => exact happ _
      | false =>
        refine answered_of_read hcov fun v' hv' => ?_
        simp only [View.next] at hv' ⊢
        split at hv'
        · rename_i heq
          subst heq
          have hkv := hk v hv'
          simpa using (⟨hkv.spec, nofun, hkv.clean, hkv.still⟩ :
            Knows all self { view self v log with slot := none } (s v))
        · rename_i hne
          rw [if_neg hne]
          exact hk v' hv'
    | listed | flag | clock | kicked => cases h
  | verify v =>
    cases o with
    | kicked started err =>
      cases h
      refine answered_of_volume hcov hk rfl nofun hg.1 (covered_of_kicked (hk v hg.1) hg) ?_
      cases err with
      | none => simpa [View.next, reported] using (hk v hg.1).kicked started
      | some e =>
        obtain rfl : started = [] := List.isEmpty_iff.mp hkick
        rw [kicked_nil]
        simpa [View.next, reported] using (hk v hg.1).failedKick
    | ok | listed | flag | clock | fail => cases h

end Steps

/-! ## Runs -/

/-- Every finding is covered, and every log is right about the volumes its node coordinates. -/
structure Kept (all : Bool) (c : Schedulers) : Prop where
  covered : ∀ v, (c.world v).covered all
  knows : ∀ w t, c.threads.lookup w = some t → KnowsAll all w t.log c.world

section Runs

variable {all : Bool} {c c' : Schedulers} {a : Act}

theorem kept_of_step (h : schedulers.step c a = some c') (hk : Kept all c)
    (hg : ∀ q, Workers.asked c a = some q → guard q.worker q.log q.cmd)
    (hkick : kicksWhole a) (hdisc : discardsQuiet all c a) : Kept all c' := by
  have hst := Workers.stepped_of_step h
  have hthreads : c'.world = c.world → (∀ w o, a ≠ .reply w o) → Kept all c' := by
    intro hworld hact
    refine ⟨fun v => hworld ▸ hk.covered v, fun w t ht => ?_⟩
    rw [hworld]
    rcases hst.thread_cases ht with ⟨ht, -⟩ | ⟨j, -, rfl⟩ | ⟨o, j, log, cmd, k, r, ha, -⟩
    · exact hk.knows w t ht
    · rintro v ⟨vol, hvol, -⟩
      cases hvol
    · exact absurd ha (hact w o)
  cases hst with
  | start | finish | crash => exact hthreads rfl nofun
  | @event e s' he =>
    obtain ⟨f, hf, rfl⟩ := Option.map_eq_some_iff.mp he
    have hdrift : ∀ v, Drifts (c.world v) (Function.update c.world e.volume f v) := by
      intro v
      by_cases hv : v = e.volume
      · subst hv
        simpa using drifts_of_event hf
      · simpa [hv] using Drifts.refl (c.world v)
    exact ⟨fun v => (hdrift v).covered (hk.covered v),
      fun w t ht v hv => (hk.knows w t ht v hv).drifts (hdrift v)⟩
  | @reply w o j log cmd k r s' ht hans =>
    have hasked : Workers.asked c (.reply w o : Act) = some ⟨w, j, log, cmd⟩ := by
      simp [Workers.asked, ht]
    have hdisc' : ∀ v slot, cmd = .applySlot v slot → discarding w v log →
        slot.holds ∨ (c.world v).quiet all := by
      rintro v slot rfl hd
      simpa [discardsQuiet, hasked, hd] using hdisc
    have hans := answered (t := c.tick) hk.covered (hk.knows w _ ht) (hg _ hasked) hkick hdisc' hans
    refine ⟨hans.covered, fun w' t' ht' => ?_⟩
    by_cases hw : w' = w
    · subst hw
      rw [AList.lookup_insert] at ht'
      cases ht'
      exact hans.knows
    · rw [AList.lookup_insert_ne hw] at ht'
      intro v hv
      rcases hans.frame v with heq | hco
      · show Knows all w' (view w' v t'.log) (s' v)
        rw [heq]
        exact hk.knows w' t' ht' v hv
      · exact absurd (coordinator_unique hv (hk.knows w' t' ht' v hv) hco
          (hk.knows w _ ht v hco)) hw

end Runs

/-- Along every run in which failed kicks start nothing and discarded results leave nothing, a pair
that holds findings which no reconnect has cleared is covered by the coordinator's slot, so that the
recovery cycles no connection of the volume for its bits. With `all` the statement and its condition
are about every pair, without it about the connected ones, which are all the recovery acts on. -/
theorem findings_held {s₀ : World} {N : Nat} (all : Bool) (h₀ : ∀ v, (s₀ v).covered all)
    (ρ : Run schedulers.step (Workers.init s₀) N) (hkick : ∀ i < N, kicksWhole (ρ.act i) = true)
    (hdisc : ∀ i < N, discardsQuiet all (ρ.state i) (ρ.act i) = true) {i : Nat} (hi : i ≤ N)
    {v : String} {peer : Nat} (hp : peer ∈ ((ρ.state i).world v).ids)
    (hc : (((ρ.state i).world v).pair peer).counted all = true)
    (hf : 0 < (((ρ.state i).world v).pair peer).found) :
    verifyHolds ((ρ.state i).world v).object = true ∧
      ∀ node st, staleBitmapActionable node ((ρ.state i).world v).object st = false := by
  have hkept : Kept all (ρ.state i) := by
    refine ρ.invariant (P := fun _ => Kept all) ⟨h₀, fun w t ht => ?_⟩ (fun i hi hk => ?_) hi
    · cases ht
    · exact kept_of_step (ρ.next i hi) hk
        (fun q hq => (Workers.asked_obeys ρ (fun w n => obeys_runOnce n) (Nat.le_of_lt hi) hq).1)
        (hkick i hi) (hdisc i hi)
  have hholds : verifyHolds ((ρ.state i).world v).object = true := by
    refine (hkept.covered v).resolve_left fun hq => ?_
    have hsettled := (settled_iff.mp (quiet_iff.mp hq peer hp hc)).2
    omega
  refine ⟨hholds, fun node st => Bool.eq_false_iff.mpr fun hact => ?_⟩
  rw [(staleBitmapActionable_iff.mp hact).2.2.2] at hholds
  cases hholds

/-! ## Runs of one sweep -/

section Example

/-- A volume on `a`, `b` and `c`, which `a` coordinates. -/
def trioVolume : Volume where
  name := "v"
  spec :=
    { sizeBytes := 4096
      replicas := [{ node := "a", nodeID := 0, address := "10.0.0.1" },
        { node := "b", nodeID := 1, address := "10.0.0.2" },
        { node := "c", nodeID := 2, address := "10.0.0.3" }]
      drbd := true }
  status := { perNode := fun n => if n = "a" then { deviceCreated := true } else {} }

/-- Every leg is UpToDate and `a` is Primary. -/
def trio : World := fun _ =>
  { object := trioVolume
    ids := [1, 2]
    pair := fun _ => {}
    rest :=
      { diskState := some .upToDate
        primary := true
        peerDiskState := (AList.singleton 1 .upToDate).insert 2 .upToDate } }

/-- `a` lists the volume, finds it quiet, puts the marker on its slot and kicks the verify off on
both pairs. -/
def kickOff : List Act :=
  .start "a" 3 :: Workers.replies "a" [.listed ["v"], .flag false, .ok, .clock 100, .ok,
    .kicked [1, 2] none]

/-- The pair with `c` has findings when the verify ends. -/
def findsOnC : List Act := [.event (.finds "v" 2 4), .event (.ends "v" 1), .event (.ends "v" 2)]

/-- The outcome is read and written to the slot. -/
def recordOutcome : List Act := Workers.replies "a" [.flag false, .ok, .ok]

theorem trio_covered (all : Bool) (v : String) : (trio v).covered all := .inl (by cases all <;> rfl)

theorem recorded_possible :
    allSteps schedulers.step (fun c a => kicksWhole a && discardsQuiet true c a)
      (Workers.init trio) (kickOff ++ findsOnC ++ recordOutcome) := by
  decide +kernel

def recordedRun : Run schedulers.step (Workers.init trio) 13 :=
  Run.ofActions _ _ _ _ recorded_possible

/-- The findings are on record when the sweep has written its outcome. -/
theorem findings_held_recorded :
    ((recordedRun.state 13).world "v").pair 2 = { found := 4 } ∧
      verifyHolds ((recordedRun.state 13).world "v").object = true := by
  have hsteps : ∀ i < 13, kicksWhole (recordedRun.act i) = true ∧
      discardsQuiet true (recordedRun.state i) (recordedRun.act i) = true := fun i hi =>
    (Bool.and_eq_true _ _).mp (Run.ofActions_spec recorded_possible hi)
  have hpair : ((recordedRun.state 13).world "v").pair 2 = { found := 4 } := by decide +kernel
  have hpeer : 2 ∈ ((recordedRun.state 13).world "v").ids := by decide +kernel
  exact ⟨hpair, (findings_held true (trio_covered true) recordedRun (fun i hi => (hsteps i hi).1)
    (fun i hi => (hsteps i hi).2) (Nat.le_refl 13) hpeer rfl (by rw [hpair]; decide)).1⟩

/-- The link to `b` breaks while the pair with `c` has findings, and is back after the result has
been discarded. -/
def interrupted : List Act :=
  kickOff ++ [.event (.finds "v" 2 4), .event (.disconnects "v" 1), .event (.ends "v" 2)] ++
    recordOutcome ++ [.event (.connects "v" 1)]

def interruptedRun : Run schedulers.step (Workers.init trio) 14 :=
  Run.ofActions _ (fun _ a => kicksWhole a) _ interrupted (by decide +kernel)

/-- A verify that finds differences toward `c` is discarded because of `b`: the slot covers nothing,
the bits toward `c` are still those of the verify, and the recovery takes them for stale ones. -/
theorem discard_drops_findings :
    let f := (interruptedRun.state 14).world "v"
    f.pair 2 = { found := 4 } ∧ verifyHolds f.object = false ∧ 2 ∈ f.status.staleBitmapPeers ∧
      staleBitmapActionable "a" f.object f.status = true := by
  decide +kernel

end Example

end Miroir.Verify
