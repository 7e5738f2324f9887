import Miroir.Drbd.MinorSpec

/-!
# No minor is used twice

`AllocateMinor` looks at `minor.assign` and the rendered configs, never at the kernel, and a pass
whose status slot shows a minor does not ask it at all.

A minor is *reserved* for a volume while `minor.assign` or the volume's own config records it.
`minors_apart`: as long as a pass with a minor from its slot finds that minor still reserved, and
no lost file and no `RemoveConfig` takes the last record of a minor in use, no two volumes are
rendered or in the kernel with one minor, and none is applied with a minor that another one holds.
A slot that outlives its volume's removal hands out the minor a second time
(`stale_slot_reuses_minor`).
-/

namespace Miroir.Drbd

open Process Prog Data

/-! ## The condition -/

/-- With `s` as it is after an event, every minor in the kernel and every minor handed to a pass
under way is still recorded. -/
def spares (c : Conf Node (Option String) (List String) Ans Unit) (s : Node) : Bool :=
  (s.kernel.entries.all fun e => isReserved s e.1 e.2) &&
    c.threads.entries.all fun e => e.1.all fun name =>
      (allocatedIn e.2.log).all fun m => isReserved s name m

/-- A config is written with a minor the pass was handed or that is reserved for the volume;
`RemoveConfig` finds the minor of a resource in the kernel in `minor.assign`. -/
def recorded (s : Node) (log : DriverLog) : Cmd → Bool
  | .writeConfig r => (allocatedIn log).isSome || isReserved s r.name r.minor
  | .removeConfig name => (s.kernel.lookup name).all fun m => s.assign.lookup name = some m
  | _ => true

def minorsKept (c : Conf Node (Option String) (List String) Ans Unit)
    (a : Act (Option String) (List String) NodeEvent NodeOutcome) : Bool :=
  ((Workers.asked c a).all fun q => recorded c.world q.log q.cmd) &&
    match a with
    | .event e => (nodeEvent c.world e).all (spares c)
    | _ => true

/-! ## Steps -/

/-- A pass has what it was handed on record, and nothing in the kernel that it took down. -/
structure PassInv (name : String) (log : DriverLog) (s : Node) : Prop where
  reserved : ∀ m, allocatedIn log = some m → Reserved s name m
  down : Downed name log → s.kernel.lookup name = none

/-- Once the sweep has listed the kernel, nothing enters it, and what it took down stays out. -/
def SweepInv (log : DriverLog) (s : Node) : Prop :=
  ∀ names, listedIn log = some names → ∀ v m, s.kernel.lookup v = some m →
    v ∈ names ∧ ¬Downed v log

section Steps

variable {s s' s₁ : Node} {log : DriverLog} {name : String} {t : Nat}

variable {o : NodeOutcome}

/-- A pass that has asked nothing. -/
theorem PassInv.start : PassInv name [] s := by
  refine ⟨fun m hm => ?_, fun hd => ?_⟩
  · cases hm
  · simp [Downed] at hd

/-- A sweep that has not listed the kernel. -/
theorem SweepInv.start (h : listedIn log = none) : SweepInv log s := by
  intro names hnames
  rw [h] at hnames
  cases hnames

theorem PassInv.untouched (h : PassInv name log s) (hs : Untouched name s s') :
    PassInv name log s' :=
  ⟨fun m hm => (h.reserved m hm).imp hs.assign.trans hs.configs.trans,
    fun hd => hs.kernel.trans (h.down hd)⟩

/-- What an answer to a pass leaves behind. -/
structure PassStep (name : String) (log : DriverLog) (s s' : Node) : Prop where
  good : Good s'
  pass : PassInv name log s'
  others : ∀ u, u ≠ name → Untouched u s s'

theorem PassStep.same (hg : Good s) (hp : PassInv name log s) (h : SameRecords s s') :
    PassStep name log s s' :=
  ⟨hg.same h, hp.untouched (h.untouched name), fun u _ => h.untouched u⟩

theorem PassStep.refl (hg : Good s) (hp : PassInv name log s) : PassStep name log s s :=
  .same hg hp ⟨rfl, rfl, rfl⟩

/-- Neither handing out a minor nor taking a resource down. -/
theorem PassInv.cons (h : PassInv name log s) {e : Entry Nat Ans}
    (ha : ∀ n, e.cmd ≠ .allocateMinor n) (hd : ∀ n, e.cmd ≠ .downResource n) :
    PassInv name (e :: log) s := by
  refine ⟨fun m hm => h.reserved m (by rwa [allocatedIn_cons ha] at hm), fun hdown => ?_⟩
  rcases downed_cons hdown with ⟨t, rfl⟩ | hdown
  · exact absurd rfl (hd name)
  · exact h.down hdown

theorem passStep_allocate (hg : Good s) (hp : PassInv name log s)
    {a : Except Err Nat} (h : nodeAnswer s (.allocateMinor name) o = some (a, s')) :
    PassStep name (⟨t, .allocateMinor name, a⟩ :: log) s s' := by
  have hdown {s' : Node} (hk : s'.kernel = s.kernel)
      (hd : Downed name (⟨t, .allocateMinor name, a⟩ :: log)) : s'.kernel.lookup name = none := by
    rcases downed_cons hd with ⟨t', heq⟩ | hd
    · cases heq
    · rw [hk]
      exact hp.down hd
  have hothers (u : String) (hu : u ≠ name) :
      Untouched u s { s with assign := s.assign.insert name (allocate s name) } :=
    ⟨AList.lookup_insert_ne hu, rfl, rfl⟩
  cases o with
  | ok =>
    cases h
    refine ⟨hg.assign name, ⟨fun m hm => ?_, hdown rfl⟩, hothers⟩
    cases hm
    exact reserved_assign s name
  | failed applied =>
    cases h
    cases applied
    · exact ⟨hg, ⟨hp.reserved, hdown rfl⟩, fun _ _ => ⟨rfl, rfl, rfl⟩⟩
    · exact ⟨hg.assign name, ⟨fun m hm => (hp.reserved m hm).assign hg name, hdown rfl⟩, hothers⟩
  | admFailed | flag | ids | view => cases h

theorem passStep_down (hg : Good s) (hp : PassInv name log s)
    {a : Except Err Unit} (h : nodeAnswer s (.downResource name) o = some (a, s')) :
    PassStep name (⟨t, .downResource name, a⟩ :: log) s s' := by
  rcases performed h with rfl | ⟨rfl, e, rfl⟩
  · refine ⟨hg.shrink (fun _ _ => id) (fun _ _ => id) fun v m hk => ?_,
      ⟨hp.reserved, fun _ => AList.lookup_erase _ _⟩,
      fun u hu => ⟨rfl, rfl, AList.lookup_erase_ne hu⟩⟩
    exact hg.held v m (lookup_of_erase hk).2
  · refine ⟨hg, ⟨hp.reserved, fun hd => ?_⟩, fun _ _ => ⟨rfl, rfl, rfl⟩⟩
    rcases downed_cons hd with ⟨t', heq⟩ | hd
    · cases heq
    · exact hp.down hd

theorem passStep_render (hg : Good s) (hp : PassInv name log s) {r : Input} (hname : r.name = name)
    (hm : ∀ m, allocatedIn log = some m → r.minor = m)
    (hrec : recorded s log (.writeConfig r)) :
    PassStep name log s { s with configs := s.configs.insert r.name r.minor } := by
  subst hname
  have hres : Reserved s r.name r.minor := by
    rcases Bool.or_eq_true_iff.mp hrec with hsome | hres
    · obtain ⟨m, hm'⟩ := Option.isSome_iff_exists.mp hsome
      rw [hm m hm']
      exact hp.reserved m hm'
    · exact reserved_iff.mp hres
  refine ⟨hg.render hres, ⟨fun m hm' => .inr ?_, hp.down⟩,
    fun u hu => ⟨rfl, AList.lookup_insert_ne hu, rfl⟩⟩
  rw [← hm m hm']
  exact AList.lookup_insert _

theorem passStep_register (hg : Good s) (hp : PassInv name log s) (hd : ¬Downed name log)
    {a : Except AdmErr Unit} (h : registerOn s name o = some (a, s')) :
    PassStep name log s s' := by
  rcases registerOn_cases h with rfl | ⟨m, hm, rfl⟩
  · exact .refl hg hp
  · exact ⟨hg.register hm, ⟨hp.reserved, fun hdown => absurd hdown hd⟩,
      fun u hu => ⟨rfl, rfl, AList.lookup_insert_ne hu⟩⟩

/-- Removing a record, with the minor not handed to the pass and not left in the kernel alone. -/
theorem passStep_forget (hg : Good s) (hp : PassInv name log s) (ha : allocatedIn log = none)
    (hassign : s'.assign = s.assign ∨ s'.assign = s.assign.erase name)
    (hconfigs : s'.configs = s.configs ∨ s'.configs = s.configs.erase name)
    (hkernel : s'.kernel = s.kernel)
    (hheld : ∀ m, s.kernel.lookup name = some m → Reserved s' name m) :
    PassStep name log s s' := by
  have hothers (u : String) (hu : u ≠ name) : Untouched u s s' := by
    refine ⟨?_, ?_, by rw [hkernel]⟩
    · rcases hassign with h | h <;> simp [h, AList.lookup_erase_ne hu]
    · rcases hconfigs with h | h <;> simp [h, AList.lookup_erase_ne hu]
  refine ⟨hg.shrink ?_ ?_ fun v m hk => ?_, ⟨fun m hm => ?_, ?_⟩, hothers⟩
  · rcases hassign with h | h <;> rw [h]
    · exact fun _ _ => id
    · exact fun _ _ hv => (lookup_of_erase hv).2
  · rcases hconfigs with h | h <;> rw [h]
    · exact fun _ _ => id
    · exact fun _ _ hv => (lookup_of_erase hv).2
  · rw [hkernel] at hk
    by_cases hv : v = name
    · subst hv
      exact hheld m hk
    · exact (hg.held v m hk).imp (hothers v hv).assign.trans (hothers v hv).configs.trans
  · rw [ha] at hm
    cases hm
  · rw [hkernel]
    exact hp.down

/-- One answer to a pass. -/
theorem passStep_of_answer (hg : Good s) (hp : PassInv name log s) {c : Cmd}
    (hguard : passGuard name log c) (hrec : recorded s log c) {a : Ans c}
    (h : nodeAnswer s c o = some (a, s')) : PassStep name (⟨t, c, a⟩ :: log) s s' := by
  cases c
  case allocateMinor n =>
    cases hguard
    exact passStep_allocate hg hp h
  case downResource n =>
    cases hguard
    exact passStep_down hg hp h
  case writeConfig r =>
    have hp' : PassInv name (⟨t, .writeConfig r, a⟩ :: log) s := hp.cons nofun nofun
    rcases performed h with rfl | ⟨rfl, -⟩
    · exact passStep_render hg hp' hguard.1 hguard.2 hrec
    · exact .refl hg hp'
  case adjust n skip =>
    obtain ⟨rfl, hd⟩ := hguard
    have hp' : PassInv n (⟨t, .adjust n skip, a⟩ :: log) s := hp.cons nofun nofun
    refine passStep_register hg hp' (fun hdown => ?_) h
    rcases downed_cons hdown with ⟨_, heq⟩ | hdown
    · cases heq
    · exact hd hdown
  case up n =>
    obtain ⟨rfl, hd⟩ := hguard
    have hp' : PassInv n (⟨t, .up n, a⟩ :: log) s := hp.cons nofun nofun
    refine passStep_register hg hp' (fun hdown => ?_) h
    rcases downed_cons hdown with ⟨_, heq⟩ | hdown
    · cases heq
    · exact hd hdown
  case removeStateFiles n =>
    obtain ⟨rfl, hd, ha⟩ := hguard
    have hp' : PassInv n (⟨t, .removeStateFiles n, a⟩ :: log) s := hp.cons nofun nofun
    rcases performed h with rfl | ⟨rfl, -⟩
    · refine passStep_forget hg hp' ha (.inl rfl) (.inr rfl) rfl fun m hk => ?_
      rw [hp.down hd] at hk
      cases hk
    · exact .refl hg hp'
  case releaseMinor n =>
    obtain ⟨rfl, hd, ha⟩ := hguard
    have hp' : PassInv n (⟨t, .releaseMinor n, a⟩ :: log) s := hp.cons nofun nofun
    rcases performed h with rfl | ⟨rfl, -⟩
    · refine passStep_forget hg hp' ha (.inr rfl) (.inl rfl) rfl fun m hk => ?_
      rw [hp.down hd] at hk
      cases hk
    · exact .refl hg hp'
  case removeConfig n =>
    obtain ⟨rfl, ha⟩ := hguard
    have hp' : PassInv n (⟨t, .removeConfig n, a⟩ :: log) s := hp.cons nofun nofun
    rcases performed h with rfl | ⟨rfl, -⟩
    · refine passStep_forget hg hp' ha (.inl rfl) (.inr rfl) rfl fun m hk => .inl ?_
      simpa [recorded, hk] using hrec
    · exact .refl hg hp'
  case releaseOrphanedAssignments => exact hguard.elim
  all_goals exact .same hg (hp.cons nofun nofun) (same_of_answer rfl h)

/-- What the sweep may remove is not in the kernel. -/
theorem SweepInv.out (hs : SweepInv log s) {n : String}
    (h : ∃ names, listedIn log = some names ∧ (n ∉ names ∨ Downed n log)) :
    s.kernel.lookup n = none := by
  obtain ⟨names, hnames, hout⟩ := h
  by_contra hk
  obtain ⟨m, hm⟩ := Option.ne_none_iff_exists'.mp hk
  obtain ⟨hin, hnot⟩ := hs names hnames n m hm
  exact hout.elim (absurd hin) hnot

/-- The sweep has neither listed the kernel nor taken anything down. -/
theorem SweepInv.cons (h : SweepInv log s) {e : Entry Nat Ans} (hl : e.cmd ≠ .listAll)
    (hd : ∀ n, e.cmd ≠ .downResource n) (hk : s'.kernel = s.kernel) :
    SweepInv (e :: log) s' := by
  intro names hnames v m hv
  rw [listedIn_cons hl] at hnames
  rw [hk] at hv
  obtain ⟨hin, hnot⟩ := h names hnames v m hv
  refine ⟨hin, fun hdown => ?_⟩
  rcases downed_cons hdown with ⟨t, rfl⟩ | hdown
  · exact hd v rfl
  · exact hnot hdown

theorem sweep_lists {a : Ans .listAll}
    (h : nodeAnswer s .listAll o = some (a, s')) :
    s' = s ∧ SweepInv [⟨t, .listAll, a⟩] s' := by
  obtain ⟨rfl, rfl | ⟨e, rfl⟩⟩ := read_cases h
  · refine ⟨rfl, fun names hnames v m hv => ?_⟩
    cases hnames
    have hin : v ∈ s'.kernel := AList.lookup_isSome.mp (by rw [hv]; rfl)
    exact ⟨AList.mem_keys.mp hin, by simp [Downed]⟩
  · exact ⟨rfl, .start rfl⟩

theorem sweep_downs (hs : SweepInv log s) {a : Except Err Unit}
    (h : nodeAnswer s (.downResource name) o = some (a, s')) :
    SweepInv (⟨t, .downResource name, a⟩ :: log) s' := by
  intro names hnames v m hv
  rcases performed h with rfl | ⟨rfl, e, rfl⟩
  · obtain ⟨hne, hv⟩ := lookup_of_erase hv
    obtain ⟨hin, hnot⟩ := hs names hnames v m hv
    refine ⟨hin, fun hdown => ?_⟩
    rcases downed_cons hdown with ⟨t', heq⟩ | hdown
    · cases heq
      exact hne rfl
    · exact hnot hdown
  · obtain ⟨hin, hnot⟩ := hs names hnames v m hv
    refine ⟨hin, fun hdown => ?_⟩
    rcases downed_cons hdown with ⟨t', heq⟩ | hdown
    · cases heq
    · exact hnot hdown

/-- One answer to the sweep. -/
theorem sweepStep_of_answer (hg : Good s) (hs : SweepInv log s) {c : Cmd}
    (hguard : sweepGuard log c) {a : Ans c}
    (h : nodeAnswer s c o = some (a, s')) : Good s' ∧ SweepInv (⟨t, c, a⟩ :: log) s' := by
  cases c
  case listAll =>
    cases hguard
    obtain ⟨rfl, hlisted⟩ := sweep_lists (t := t) h
    exact ⟨hg, hlisted⟩
  case downResource n =>
    refine ⟨?_, sweep_downs hs h⟩
    rcases performed h with rfl | ⟨rfl, -⟩
    · exact hg.shrink (fun _ _ => id) (fun _ _ => id) fun v m hk =>
        hg.held v m (lookup_of_erase hk).2
    · exact hg
  case removeStateFiles n =>
    have hout := hs.out hguard
    rcases performed h with rfl | ⟨rfl, -⟩
    · refine ⟨?_, hs.cons nofun nofun rfl⟩
      refine hg.shrink (fun _ _ => id) (fun _ _ hv => (lookup_of_erase hv).2) fun v m hk => ?_
      have hne : v ≠ n := by
        rintro rfl
        rw [hout] at hk
        cases hk
      exact (hg.held v m hk).imp_right (AList.lookup_erase_ne hne).trans
    · exact ⟨hg, hs.cons nofun nofun rfl⟩
  case releaseMinor n =>
    have hout := hs.out hguard
    rcases performed h with rfl | ⟨rfl, -⟩
    · refine ⟨?_, hs.cons nofun nofun rfl⟩
      refine hg.shrink (fun _ _ hv => (lookup_of_erase hv).2) (fun _ _ => id) fun v m hk => ?_
      have hne : v ≠ n := by
        rintro rfl
        rw [hout] at hk
        cases hk
      exact (hg.held v m hk).imp_left (AList.lookup_erase_ne hne).trans
    · exact ⟨hg, hs.cons nofun nofun rfl⟩
  case releaseOrphanedAssignments owned names =>
    rcases performed h with rfl | ⟨rfl, -⟩
    · refine ⟨?_, hs.cons nofun nofun rfl⟩
      refine hg.shrink (fun _ _ hv => (lookup_keepAssigned.mp hv).1) (fun _ _ => id)
        fun v m hk => ?_
      have hin := (hs names hguard v m hk).1
      exact (hg.held v m hk).imp_left fun hv => lookup_keepAssigned.mpr ⟨hv, .inr (.inl hin)⟩
    · exact ⟨hg, hs.cons nofun nofun rfl⟩
  case wedged | readDir =>
    have hsame := same_of_answer rfl h
    exact ⟨hg.same hsame, hs.cons nofun nofun hsame.kernel⟩
  all_goals cases hguard

end Steps

/-! ## Runs -/

/-- What worker `w` asks. -/
def guard : Option String → DriverLog → Cmd → Prop
  | some name => passGuard name
  | none => sweepGuard

theorem obeys_agent (w : Option String) (owned : List String) :
    Obeys (guard w) (fun _ _ => True) ([] : DriverLog) (agent.program w owned) := by
  cases w with
  | some name => exact obeys_reconcile name
  | none => exact obeys_sweepOrphans owned

/-- The records are good, the sweep runs alone, and each thread knows what it has done. -/
structure MinorInv (c : Conf Node (Option String) (List String) Ans Unit) : Prop where
  good : Good c.world
  alone : ∀ n t t', c.threads.lookup none = some t → c.threads.lookup (some n) = some t' → False
  passes : ∀ n t, c.threads.lookup (some n) = some t → PassInv n t.log c.world
  sweeps : ∀ t, c.threads.lookup none = some t → SweepInv t.log c.world

section Runs

variable {c c' : Conf Node (Option String) (List String) Ans Unit}
  {a : Act (Option String) (List String) NodeEvent NodeOutcome} {s : Node}

variable {t : Thread (List String) Ans Unit}

/-- An event takes records and resources away. -/
theorem nodeEvent_sub {s' : Node} {e : NodeEvent} (h : nodeEvent s e = some s') :
    (∀ v m, s'.assign.lookup v = some m → s.assign.lookup v = some m) ∧
      (∀ v m, s'.configs.lookup v = some m → s.configs.lookup v = some m) ∧
      ∀ v m, s'.kernel.lookup v = some m → s.kernel.lookup v = some m := by
  cases e <;> cases h
  case gone => exact ⟨fun _ _ => id, fun _ _ => id, fun _ _ hv => (lookup_of_erase hv).2⟩
  case reboot => exact ⟨fun _ _ => id, fun _ _ => id, nofun⟩
  case loseAssign => exact ⟨nofun, fun _ _ => id, fun _ _ => id⟩
  case loseConfig => exact ⟨fun _ _ => id, fun _ _ hv => (lookup_of_erase hv).2, fun _ _ => id⟩

theorem kept_of_event {e : NodeEvent} (hk : minorsKept c (.event e))
    (h : nodeEvent c.world e = some s) : spares c s := by
  have hk := (Bool.and_eq_true_iff.mp hk).2
  simpa [h] using hk

theorem held_of_spares (h : spares c s) {v : String} {m : Nat}
    (hv : s.kernel.lookup v = some m) : Reserved s v m := by
  have h := List.all_eq_true.mp (Bool.and_eq_true_iff.mp h).1 ⟨v, m⟩ (AList.mem_lookup_iff.mp hv)
  exact reserved_iff.mp h

theorem reserved_of_spares (h : spares c s) {name : String}
    (ht : c.threads.lookup (some name) = some t) {m : Nat}
    (hm : allocatedIn t.log = some m) : Reserved s name m := by
  have h := List.all_eq_true.mp (Bool.and_eq_true_iff.mp h).2 ⟨some name, t⟩
    (AList.mem_lookup_iff.mp ht)
  simp only [Option.all_some, hm] at h
  exact reserved_iff.mp h

theorem recorded_of_reply {w : Option String} {o : NodeOutcome} {j : List String}
    {log : DriverLog} {cmd : Cmd} {k : Ans cmd → DriverM Unit}
    (ht : c.threads.lookup w = some ⟨j, log, .ask cmd k⟩)
    (hk : minorsKept c (.reply w o)) : recorded c.world log cmd := by
  have hk := (Bool.and_eq_true_iff.mp hk).1
  simpa [Workers.asked, ht] using hk

theorem admitted (h : Workers.Stepped agent c a c') {w : Option String} {j : List String}
    (ha : a = .start w j) : agent.admits c.threads.keys w := by
  subst ha
  cases h with
  | start _ ha => exact ha

theorem MinorInv.alone_step (hc : MinorInv c) (h : Workers.Stepped agent c a c') {n : String}
    {t' : Thread (List String) Ans Unit} (ht : c'.threads.lookup none = some t)
    (ht' : c'.threads.lookup (some n) = some t') : False := by
  have hrun {w : Option String} {t : Thread (List String) Ans Unit}
      (ht : c'.threads.lookup w = some t) :
      (∃ t₀, c.threads.lookup w = some t₀) ∨ ∃ j, a = .start w j := by
    rcases h.thread_cases ht with ⟨ht, -⟩ | ⟨j, ha, -⟩ | ⟨_, _, _, _, _, _, -, ht, -⟩
    · exact .inl ⟨_, ht⟩
    · exact .inr ⟨j, ha⟩
    · exact .inl ⟨_, ht⟩
  have hkey {w : Option String} {t : Thread (List String) Ans Unit}
      (ht : c.threads.lookup w = some t) : w ∈ c.threads.keys :=
    AList.mem_keys.mp (AList.lookup_isSome.mp (by rw [ht]; rfl))
  rcases hrun ht with ⟨t₀, h₀⟩ | ⟨j, ha⟩ <;> rcases hrun ht' with ⟨t₁, h₁⟩ | ⟨j', ha'⟩
  · exact hc.alone n t₀ t₁ h₀ h₁
  · exact of_decide_eq_true (admitted h ha') (hkey h₀)
  · have hempty := List.isEmpty_iff.mp (admitted h ha)
    have hin := hkey h₁
    rw [hempty] at hin
    cases hin
  · rw [ha] at ha'
    cases ha'

/-- What a step does to a pass that it does not answer. -/
theorem MinorInv.pass_waits (hc : MinorInv c) (h : Workers.Stepped agent c a c')
    (hob : ∀ w t, c.threads.lookup w = some t → Obeys (guard w) (fun _ _ => True) t.log t.prog)
    (hk : minorsKept c a) {n : String}
    (ht : c.threads.lookup (some n) = some t) (hne : ∀ o, a ≠ .reply (some n) o) :
    PassInv n t.log c'.world := by
  have hp := hc.passes n t ht
  rcases h.world_cases with heq | ⟨e, rfl, he⟩ | ⟨w, o, j, log, cmd, k, r, rfl, hw, hans⟩
  · rwa [heq]
  · refine ⟨fun m hm => reserved_of_spares (kept_of_event hk he) ht hm, fun hd => ?_⟩
    by_contra hsome
    obtain ⟨m, hm⟩ := Option.ne_none_iff_exists'.mp hsome
    have hbefore := (nodeEvent_sub he).2.2 n m hm
    rw [hp.down hd] at hbefore
    cases hbefore
  · cases w with
    | none => exact (hc.alone n _ t hw ht).elim
    | some u =>
      have hu : n ≠ u := by
        rintro rfl
        exact hne o rfl
      have hstep := passStep_of_answer (t := c.tick) hc.good (hc.passes u _ hw)
        (hob (some u) _ hw).1 (recorded_of_reply hw hk) hans
      exact hp.untouched (hstep.others n hu)

theorem MinorInv.step (hc : MinorInv c) (h : Workers.Stepped agent c a c')
    (hob : ∀ w t, c.threads.lookup w = some t → Obeys (guard w) (fun _ _ => True) t.log t.prog)
    (hk : minorsKept c a) : MinorInv c' := by
  refine ⟨?_, fun n t t' => hc.alone_step h, fun n t ht => ?_, fun t ht => ?_⟩
  · rcases h.world_cases with heq | ⟨e, rfl, he⟩ | ⟨w, o, j, log, cmd, k, r, rfl, hw, hans⟩
    · rw [heq]
      exact hc.good
    · obtain ⟨ha, hcfg, -⟩ := nodeEvent_sub he
      exact hc.good.shrink ha hcfg fun v m => held_of_spares (kept_of_event hk he)
    · cases w with
      | some n =>
        exact (passStep_of_answer (t := c.tick) hc.good (hc.passes n _ hw) (hob (some n) _ hw).1
          (recorded_of_reply hw hk) hans).good
      | none =>
        exact (sweepStep_of_answer (t := c.tick) hc.good (hc.sweeps _ hw) (hob none _ hw).1
          hans).1
  · rcases h.thread_cases ht with ⟨ht, hne⟩ | ⟨j, -, rfl⟩ |
      ⟨o, j, log, cmd, k, r, rfl, hw, hans, rfl⟩
    · exact hc.pass_waits h hob hk ht hne
    · exact .start
    · exact (passStep_of_answer hc.good (hc.passes n _ hw) (hob (some n) _ hw).1
        (recorded_of_reply hw hk) hans).pass
  · rcases h.thread_cases ht with ⟨ht, hne⟩ | ⟨j, -, rfl⟩ |
      ⟨o, j, log, cmd, k, r, rfl, hw, hans, rfl⟩
    · rcases h.world_cases with heq | ⟨e, rfl, he⟩ | ⟨w, o, j, log, cmd, k, r, rfl, hw, hans⟩
      · rw [heq]
        exact hc.sweeps t ht
      · exact fun names hnames v m hv =>
          hc.sweeps t ht names hnames v m ((nodeEvent_sub he).2.2 v m hv)
      · cases w with
        | none => exact absurd rfl (hne o)
        | some u => exact (hc.alone u t _ ht hw).elim
    · exact .start rfl
    · exact (sweepStep_of_answer hc.good (hc.sweeps _ hw) (hob none _ hw).1 hans).2

variable {N i : ℕ}

theorem minorInv_of_run (ρ : Run agent.step (Workers.init {}) N)
    (h : ∀ i < N, minorsKept (ρ.state i) (ρ.act i)) (hi : i ≤ N) :
    MinorInv (ρ.state i) := by
  refine ρ.invariant (P := fun _ c => MinorInv c) ?_ (fun i hi ih => ?_) hi
  · exact ⟨⟨nofun, fun _ _ _ h => h.elim nofun nofun, nofun⟩, nofun, nofun, nofun⟩
  · exact ih.step (Workers.stepped_of_step (ρ.next i hi))
      (fun w t ht => (Workers.thread_obeys ρ obeys_agent (Nat.le_of_lt hi) ht).1) (h i hi)

/-- No two volumes are applied with one minor, and none is about to be applied with a minor that
another one is rendered with or holds in the kernel. -/
theorem minors_apart (ρ : Run agent.step (Workers.init {}) N)
    (h : ∀ i < N, minorsKept (ρ.state i) (ρ.act i) = true) (hi : i ≤ N) :
    (∀ u v m, Applied (ρ.state i).world u m → Applied (ρ.state i).world v m → u = v) ∧
      ∀ q r, i < N → Workers.asked (ρ.state i) (ρ.act i) = some q → q.cmd = .writeConfig r →
        ∀ u, Applied (ρ.state i).world u r.minor → u = r.name := by
  have hinv := minorInv_of_run ρ h hi
  refine ⟨fun u v m => applied_unique hinv.good, fun q r hlt hq hcmd u hu => ?_⟩
  obtain ⟨o, k, ha, ht⟩ := Workers.asked_eq_some hq
  have hguard := (Workers.asked_obeys ρ obeys_agent hi hq).1
  have hrec : recorded (ρ.state i).world q.log q.cmd = true :=
    recorded_of_reply ht (ha ▸ h i hlt)
  obtain ⟨w, j, log, cmd⟩ := q
  cases hcmd
  cases w with
  | none => cases hguard
  | some n =>
    have hpass := passStep_render hinv.good (hinv.passes n _ ht) hguard.1 hguard.2 hrec
    have hafter : Applied { (ρ.state i).world with
        configs := (ρ.state i).world.configs.insert r.name r.minor } r.name r.minor :=
      .inl (AList.lookup_insert _)
    by_contra hne
    refine hne (applied_unique hpass.good (hu.imp_left fun hc => ?_) hafter)
    exact (AList.lookup_insert_ne hne).trans hc

end Runs

/-! ## Two volumes -/

/-- A view of the replicated volume on a node that carries a leg of it, or has lost it. -/
def viewOf (name : String) (placed : Bool) (minor : Nat) : VolumeView where
  placed := placed
  completed := true
  deleting := false
  finalizer := true
  replicated := true
  diskless := false
  minor := minor
  resource := { name := name, localNode := "a", localDiskless := false, peers := [] }

abbrev NodeAct := Act (Option String) (List String) NodeEvent NodeOutcome

/-- A pass up to its `Apply`, which sees this minor in the slot. -/
def begins (name : String) (minor : Nat) : List NodeAct :=
  .start (some name) [] ::
    Workers.replies (some name) ([.view (viewOf name true minor), .flag false, .ok] ++
      if minor = 0 then [.ok] else [])

/-- An `Apply` up to its config. -/
def prepares (name : String) : List NodeAct :=
  Workers.replies (some name) [.ok, .ids [], .ids [], .ok]

/-- The config, the device, and the report of the minor. -/
def applies (name : String) : List NodeAct :=
  Workers.replies (some name) (List.replicate 7 .ok) ++ [.finish (some name)]

/-- A removal up to the cleared slot. -/
def removes (name : String) (minor : Nat) : List NodeAct :=
  .start (some name) [] ::
    Workers.replies (some name) [.view (viewOf name false minor), .flag false, .ok, .ok,
      .flag false, .ok, .ok, .ok, .ok]

/-- "x" and "y" are applied side by side, "x" is removed and comes back, "y" is applied again. -/
def sideBySide : List NodeAct :=
  begins "x" 0 ++ begins "y" 0 ++ prepares "y" ++ prepares "x" ++ applies "x" ++ applies "y" ++
    removes "x" 1000 ++ Workers.replies (some "x") [.ok, .ok] ++ [.finish (some "x")] ++
    begins "x" 0 ++ prepares "x" ++ begins "y" 1001 ++ applies "x" ++ prepares "y"

theorem sideBySide_kept :
    allSteps agent.step (fun c a => minorsKept c a) (Workers.init {}) (sideBySide ++ applies "y") =
      true := by
  decide +kernel

def sideBySideRun : Run agent.step (Workers.init {}) (sideBySide ++ applies "y").length :=
  .ofActions _ _ _ _ sideBySide_kept

/-- "y" is applied again with the minor of its slot, which nobody else has. -/
theorem sideBySide_apart :
    (Workers.asked (sideBySideRun.state 72) (sideBySideRun.act 72)).map Query.cmd =
        some (.writeConfig ((viewOf "y" true 1001).input "y" 1001)) ∧
      ∀ u, Applied (sideBySideRun.state 72).world u 1001 → u = "y" := by
  have hcmd : (Workers.asked (sideBySideRun.state 72) (sideBySideRun.act 72)).map Query.cmd =
      some (.writeConfig ((viewOf "y" true 1001).input "y" 1001)) := by
    decide +kernel
  obtain ⟨q, hq, hw⟩ := Option.map_eq_some_iff.mp hcmd
  exact ⟨hcmd, (minors_apart sideBySideRun (fun _ hk => Run.ofActions_spec sideBySide_kept hk)
    (by decide +kernel)).2 q _ (by decide +kernel) hq hw⟩

/-- The agent crashes before it has cleared the slot of "x", "y" is handed its minor, and "x" comes
back. -/
def staleSlot : List NodeAct :=
  begins "x" 0 ++ prepares "x" ++ applies "x" ++ removes "x" 1000 ++ [.crash (some "x")] ++
    begins "y" 0 ++ prepares "y" ++ applies "y" ++ begins "x" 1000 ++ prepares "x" ++ applies "x"

theorem staleSlot_possible :
    allSteps agent.step (fun _ _ => true) (Workers.init {}) staleSlot := by
  decide +kernel

def staleSlotRun : Run agent.step (Workers.init {}) staleSlot.length :=
  .ofActions _ _ _ _ staleSlot_possible

/-- "x" is applied with the minor that "y" holds in the kernel. -/
theorem stale_slot_reuses_minor :
    (Workers.asked (staleSlotRun.state 53) (staleSlotRun.act 53)).map Query.cmd =
        some (.writeConfig ((viewOf "x" true 1000).input "x" 1000)) ∧
      (staleSlotRun.state 53).world.kernel.lookup "y" = some 1000 ∧
      Applied (staleSlotRun.state 54).world "x" 1000 ∧
      Applied (staleSlotRun.state 54).world "y" 1000 := by
  refine ⟨by decide +kernel, by decide +kernel, .inl ?_, .inr ?_⟩
  · decide +kernel
  · decide +kernel

end Miroir.Drbd
