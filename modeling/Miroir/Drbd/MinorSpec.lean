import Miroir.Drbd.Reservation

/-!
# What a pass and the sweep ask of a minor

A pass works on its own volume. It renders the minor it was handed, if it was handed one, and
releases a minor only after it has taken the resource down (`obeys_reconcile`). The sweep removes
and releases only what it did not find in the kernel or has taken down (`obeys_sweepOrphans`).
-/

namespace Miroir.Drbd

open Process Prog Data

/-! ## Logs -/

/-- The minor the pass was handed. -/
def allocatedIn : DriverLog → Option Nat
  | [] => none
  | ⟨_, .allocateMinor _, .ok m⟩ :: _ => some m
  | _ :: log => allocatedIn log

/-- The log shows that the resource was taken down. -/
def Downed (name : String) (log : DriverLog) : Prop :=
  ∃ t, (⟨t, .downResource name, .ok ()⟩ : Entry Nat Ans) ∈ log

/-- The resources the sweep found in the kernel. -/
def listedIn : DriverLog → Option (List String)
  | [] => none
  | ⟨_, .listAll, .ok names⟩ :: _ => some names
  | _ :: log => listedIn log

section Logs

variable {log l' : DriverLog} {name : String} {P : Cmd → Prop}

variable {e : Entry Nat Ans}

theorem allocatedIn_cons (he : ∀ n, e.cmd ≠ .allocateMinor n) :
    allocatedIn (e :: log) = allocatedIn log := by
  obtain ⟨t, c, a⟩ := e
  cases c
  case allocateMinor n => exact absurd rfl (he n)
  all_goals rfl

theorem allocatedIn_of_grew (h : Grew P log l') (hP : ∀ n, ¬P (.allocateMinor n)) :
    allocatedIn l' = allocatedIn log := by
  obtain ⟨new, rfl, hnew⟩ := h
  induction new with
  | nil => rfl
  | cons e new ih =>
    rw [List.cons_append, allocatedIn_cons fun n hn => hP n (hn ▸ hnew e (.head _))]
    exact ih fun e' he => hnew e' (.tail _ he)

theorem listedIn_cons (he : e.cmd ≠ .listAll) :
    listedIn (e :: log) = listedIn log := by
  obtain ⟨t, c, a⟩ := e
  cases c
  case listAll => exact absurd rfl he
  all_goals rfl

theorem listedIn_of_grew (h : Grew P log l') (hP : ¬P .listAll) :
    listedIn l' = listedIn log := by
  obtain ⟨new, rfl, hnew⟩ := h
  induction new with
  | nil => rfl
  | cons e new ih =>
    rw [List.cons_append, listedIn_cons fun hn => hP (hn ▸ hnew e (.head _))]
    exact ih fun e' he => hnew e' (.tail _ he)

theorem Downed.of_grew (hd : Downed name log) (h : Grew P log l') : Downed name l' := by
  obtain ⟨t, ht⟩ := hd
  exact ⟨t, h.mem ht⟩

theorem not_downed_of_grew (hd : ¬Downed name log) (h : Grew P log l')
    (hP : ¬P (.downResource name)) : ¬Downed name l' := by
  rintro ⟨t, ht⟩
  obtain ⟨new, rfl, hnew⟩ := h
  rcases List.mem_append.mp ht with ht | ht
  · exact hP (hnew _ ht)
  · exact hd ⟨t, ht⟩

theorem downed_cons (h : Downed name (e :: log)) :
    (∃ t, e = ⟨t, .downResource name, .ok ()⟩) ∨ Downed name log := by
  obtain ⟨t, ht⟩ := h
  rcases List.mem_cons.mp ht with heq | ht
  · exact .inl ⟨t, heq.symm⟩
  · exact .inr ⟨t, ht⟩

end Logs

/-! ## What a pass asks -/

/-- A pass works on its own volume: it renders the minor it was handed, brings nothing up that it
took down, and releases a minor only with the resource down and none handed out. -/
def passGuard (name : String) (log : DriverLog) : Cmd → Prop
  | .allocateMinor n | .downResource n => n = name
  | .writeConfig r => r.name = name ∧ ∀ m, allocatedIn log = some m → r.minor = m
  | .adjust n _ | .up n => n = name ∧ ¬Downed name log
  | .removeStateFiles n | .releaseMinor n =>
    n = name ∧ Downed name log ∧ allocatedIn log = none
  | .removeConfig n => n = name ∧ allocatedIn log = none
  | .releaseOrphanedAssignments _ _ => False
  | _ => True

section Passes

variable {log : DriverLog} {name : String} {view : VolumeView} {r : Input}

/-- What `apply` asks. -/
def Applying (r : Input) : Cmd → Prop
  | .lock _ | .readPendingForgets _ | .listStatus _ | .writePendingForgets _ _
  | .forgetPeer _ _ => True
  | .writeConfig r' => r' = r
  | c => Converging r.name c

theorem applying_of_converging {c : Cmd} (h : Converging r.name c) : Applying r c := by
  cases c
  case ensureMarkedMetadata | removeCreatedMarker | adjust | up | ensureDeviceNode => exact h
  all_goals cases h

theorem asks_forget (r : Input) (ids : List Nat) :
    Asks (Applying r) (forgetRemovedPeers r.name ids) := by
  induction ids with
  | nil => exact asks_call.mpr trivial
  | cons id ids ih =>
    refine asks_call_bind trivial fun a => ?_
    cases a with
    | error => trivial
    | ok => exact ih

theorem asks_removedPeers (r : Input) : Asks (Applying r) (removedPeers r) := by
  refine asks_call_bind trivial fun a => ?_
  cases a with
  | error => trivial
  | ok =>
    refine asks_call_bind trivial fun a => ?_
    cases a <;> trivial

theorem asks_apply (r : Input) : Asks (Applying r) (apply r) := by
  refine asks_call_bind trivial fun a => ?_
  cases a with
  | error => trivial
  | ok =>
  refine asks_bind (asks_removedPeers r) fun a => ?_
  cases a with
  | error => trivial
  | ok removed =>
  refine asks_call_bind trivial fun a => ?_
  cases a with
  | error => trivial
  | ok =>
  refine asks_call_bind rfl fun a => ?_
  cases a with
  | error => trivial
  | ok =>
  refine asks_bind ((asks_metadata r).mono fun _ => applying_of_converging) fun a => ?_
  cases a with
  | error => trivial
  | ok =>
  refine asks_bind ((asks_converge r).mono fun _ => applying_of_converging) fun a => ?_
  cases a with
  | error => trivial
  | ok =>
  refine asks_bind (asks_forget r removed) fun a => ?_
  cases a with
  | error => trivial
  | ok => exact asks_call.mpr rfl

theorem obeys_apply (hname : r.name = name) (hd : ¬Downed name log)
    (hm : ∀ m, allocatedIn log = some m → r.minor = m) :
    Obeys (passGuard name) (fun _ _ => True) log (apply r) := by
  refine ((asks_apply r).obeys fun l' c hgrew hc => ?_).mono fun _ _ _ => trivial
  have hd' : ¬Downed name l' := not_downed_of_grew hd hgrew (by rintro ⟨⟩)
  cases c
  case writeConfig r' =>
    cases hc
    rw [passGuard, allocatedIn_of_grew hgrew (by rintro _ ⟨⟩)]
    exact ⟨hname, hm⟩
  case adjust | up => exact ⟨Eq.trans hc hname, hd'⟩
  case allocateMinor | downResource | removeStateFiles | releaseMinor | removeConfig |
    releaseOrphanedAssignments => cases hc
  all_goals trivial

theorem obeys_layerDrbd (ha : allocatedIn log = none) (hd : ¬Downed name log) :
    Obeys (passGuard name) (fun _ _ => True) log (layerDrbd name view) := by
  refine Obeys.bind (Q := fun l a => ¬Downed name l ∧
    ∀ minor, a = .ok minor → ∀ m, allocatedIn l = some m → minor = m) ?_ fun l a h => ?_
  · rw [assignMinor]
    split
    · refine ⟨hd, fun minor _ m hm => ?_⟩
      rw [ha] at hm
      cases hm
    · refine ⟨rfl, fun t a => ⟨fun h => ?_, fun minor hminor m hm => ?_⟩⟩
      · rcases downed_cons h with ⟨t', heq⟩ | h
        · cases heq
        · exact hd h
      · subst hminor
        exact Option.some.inj hm
  · cases a with
    | error => trivial
    | ok minor =>
      refine (obeys_apply rfl h.1 (h.2 minor rfl)).bind fun l a _ => ?_
      cases a with
      | error => trivial
      | ok =>
        refine obeys_call_bind trivial fun t a => ?_
        cases a with
        | error => trivial
        | ok => exact ⟨trivial, fun _ _ => trivial⟩

theorem obeys_down (ha : allocatedIn log = none) :
    Obeys (passGuard name) (fun l _ => allocatedIn l = none) log (down name) := by
  refine obeys_call_bind trivial fun t a => ?_
  cases a with
  | error => exact ha
  | ok =>
  refine obeys_call_bind trivial fun t found => ?_
  split
  · exact ha
  refine obeys_call_bind trivial fun t wedged => ?_
  split
  · refine obeys_call_bind trivial fun t again => ?_
    split
    · exact ha
    · exact ha
  refine obeys_call_bind rfl fun t a => ?_
  cases a with
  | error => exact ha
  | ok =>
  refine obeys_call_bind ⟨rfl, ⟨t, .head _⟩, ha⟩ fun t' a => ?_
  cases a with
  | error => exact ha
  | ok =>
  refine obeys_call_bind
    ⟨rfl, ⟨t, .tail _ (.head _)⟩, ha⟩ fun t' a => ?_
  cases a with
  | error => exact ha
  | ok => exact ha

theorem obeys_teardown (ha : allocatedIn log = none) :
    Obeys (passGuard name) (fun _ _ => True) log (teardown name view) := by
  rw [teardown]
  split
  · exact ⟨trivial, fun _ _ => trivial⟩
  refine (obeys_down ha).bind fun l a hl => ?_
  cases a with
  | ok => exact ⟨trivial, fun _ _ => trivial⟩
  | error e =>
    cases e with
    | wedged => trivial
    | other e =>
      refine obeys_call_bind trivial fun t hold => ?_
      split
      · refine obeys_call_bind trivial fun t a => ?_
        cases a with
        | error => trivial
        | ok =>
          refine obeys_call_bind trivial fun t a => ?_
          cases a with
          | error => trivial
          | ok => exact ⟨⟨rfl, hl⟩, fun _ _ => trivial⟩
      · trivial

theorem obeys_reconcileDeletion (ha : allocatedIn log = none) :
    Obeys (passGuard name) (fun _ _ => True) log (reconcileDeletion name view) := by
  rw [reconcileDeletion]
  split
  · trivial
  refine (obeys_teardown ha).bind fun l a _ => ?_
  cases a with
  | error => trivial
  | ok => exact ⟨trivial, fun _ _ => trivial⟩

theorem obeys_reconcileRemoval (ha : allocatedIn log = none) :
    Obeys (passGuard name) (fun _ _ => True) log (reconcileRemoval name view) := by
  rw [reconcileRemoval]
  split
  · trivial
  refine obeys_call_bind trivial fun t blocked => ?_
  split
  · trivial
  refine Obeys.bind (obeys_teardown (by exact ha)) fun l a _ => ?_
  cases a with
  | error => trivial
  | ok =>
    refine obeys_call_bind trivial fun t a => ?_
    cases a with
    | error => trivial
    | ok => exact ⟨trivial, fun _ _ => trivial⟩

theorem obeys_reconcile (name : String) :
    Obeys (passGuard name) (fun _ _ => True) ([] : DriverLog) (reconcile name) := by
  refine obeys_call_bind trivial fun t a => ?_
  rcases a with e | _ | view
  · trivial
  · trivial
  dsimp only
  split
  · exact obeys_reconcileDeletion rfl
  split
  · exact obeys_reconcileRemoval rfl
  split
  · trivial
  refine obeys_call_bind trivial fun t fast => ?_
  split
  · trivial
  -- The backing is realized, and nothing was handed out or taken down so far.
  refine Obeys.bind (Q := fun l _ => allocatedIn l = none ∧ ¬Downed name l) ?_ fun l a h => ?_
  · rw [realize]
    split
    · exact ⟨rfl, by simp [Downed]⟩
    · exact ⟨trivial, fun t a => ⟨rfl, by simp [Downed]⟩⟩
  · cases a with
    | error => trivial
    | ok =>
      dsimp only
      split
      · trivial
      · exact obeys_layerDrbd h.1 h.2

end Passes

/-! ## What the sweep asks -/

/-- The sweep lists the kernel first, and what it removes or releases it did not find there or has
taken down. -/
def sweepGuard (log : DriverLog) : Cmd → Prop
  | .listAll => log = []
  | .removeStateFiles n | .releaseMinor n =>
    ∃ names, listedIn log = some names ∧ (n ∉ names ∨ Downed n log)
  | .releaseOrphanedAssignments _ names => listedIn log = some names
  | .wedged _ | .downResource _ | .readDir => True
  | _ => False

section Sweep

variable {log : DriverLog} {owned stuck names : List String}

/-- What the sweep asks of a resource in the kernel. -/
def KernelCmd : Cmd → Prop
  | .wedged _ | .downResource _ => True
  | _ => False

/-- What the sweep asks of a config that nobody owns. -/
def ConfigCmd (owned stuck : List String) : Cmd → Prop
  | .removeStateFiles n | .releaseMinor n => n ∉ owned ∧ n ∉ stuck
  | _ => False

theorem obeys_sweepKernel :
    Obeys sweepGuard (fun l stuck => Grew KernelCmd log l ∧
      ∀ n ∈ names, n ∈ owned ∨ n ∈ stuck ∨ Downed n l) log (sweepKernel owned names) := by
  induction names generalizing log with
  | nil => exact ⟨.refl log, by simp⟩
  | cons name names ih =>
    rw [sweepKernel]
    split
    · rename_i howned
      refine ih.mono fun l stuck h => ⟨h.1, List.forall_mem_cons.mpr ⟨.inl howned, h.2⟩⟩
    refine obeys_call_bind trivial fun t wedged => ?_
    have hgrew : Grew KernelCmd log (⟨t, .wedged name, wedged⟩ :: log) :=
      (Grew.refl log).cons wedged trivial
    split
    · refine ih.bind fun l stuck h => ⟨hgrew.trans h.1, ?_⟩
      refine List.forall_mem_cons.mpr ⟨.inr (.inl (.head _)), fun n hn => ?_⟩
      exact (h.2 n hn).imp_right (.imp_left (.tail _))
    refine obeys_call_bind trivial fun t' a => ?_
    have hgrew' := hgrew.cons (t := t') (c := .downResource name) a trivial
    cases a with
    | error e =>
      refine ih.bind fun l stuck h => ⟨hgrew'.trans h.1, ?_⟩
      refine List.forall_mem_cons.mpr ⟨.inr (.inl (.head _)), fun n hn => ?_⟩
      exact (h.2 n hn).imp_right (.imp_left (.tail _))
    | ok =>
      refine ih.mono fun l stuck h => ⟨hgrew'.trans h.1, ?_⟩
      refine List.forall_mem_cons.mpr ⟨.inr (.inr ?_), h.2⟩
      exact Downed.of_grew ⟨t', .head _⟩ h.1

theorem asks_sweepConfigs (owned stuck names : List String) :
    Asks (ConfigCmd owned stuck) (sweepConfigs owned stuck names) := by
  induction names with
  | nil => trivial
  | cons name names ih =>
    rw [sweepConfigs]
    split
    · exact ih
    · rename_i hout
      have hc : name ∉ owned ∧ name ∉ stuck := by simpa using hout
      exact asks_call_bind hc fun _ => asks_bind (asks_call.mpr hc) fun _ => ih

theorem obeys_sweepOrphans (owned : List String) :
    Obeys sweepGuard (fun _ _ => True) ([] : DriverLog) (sweepOrphans owned) := by
  refine obeys_call_bind rfl fun t a => ?_
  cases a with
  | error => trivial
  | ok kernel =>
  refine obeys_sweepKernel.bind fun l stuck h => ?_
  obtain ⟨hgrew, hdone⟩ := h
  have hlisted : listedIn l = some kernel := listedIn_of_grew hgrew (by rintro ⟨⟩)
  refine obeys_call_bind trivial fun t' a => ?_
  cases a with
  | error => trivial
  | ok configs =>
  have hasks := asks_sweepConfigs owned stuck configs
  refine Obeys.bind (hasks.obeys fun l' c hl' hc => ?_) fun l' _ hl' => ?_
  · have hnames : listedIn l' = some kernel := by
      rw [listedIn_of_grew hl' (by rintro ⟨⟩)]
      exact hlisted
    -- A config that is not stuck was not in the kernel, or its resource is down.
    have hout {n : String} (hn : n ∉ owned ∧ n ∉ stuck) : n ∉ kernel ∨ Downed n l' := by
      by_cases hk : n ∈ kernel
      · have hd := ((hdone n hk).resolve_left hn.1).resolve_left hn.2
        have hd' : Downed n (⟨t', .readDir, .ok configs⟩ :: l) :=
          hd.of_grew ((Grew.refl l).cons _ (P := fun _ => True) trivial)
        exact .inr (hd'.of_grew hl')
      · exact .inl hk
    cases c
    case removeStateFiles | releaseMinor => exact ⟨kernel, hnames, hout hc⟩
    all_goals cases hc
  · refine obeys_call_bind ?_ fun _ _ => trivial
    show listedIn l' = some kernel
    rw [listedIn_of_grew hl' (by rintro ⟨⟩)]
    exact hlisted

end Sweep

end Miroir.Drbd
