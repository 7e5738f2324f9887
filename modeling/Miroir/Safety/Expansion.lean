import Miroir.Growth.Order

/-!
# An expansion is acknowledged after the device grew

Every node but the coordinator reports the desired size without the device having grown; the
coordinator, the first diskful replica, reports it once its `drbdadm resize` went through, which it
runs when the slots of all peers report the size.

`acknowledged_after_resize`: as long as an edit makes no leg diskful, or the first diskful one,
whose slot reports more than the coordinator's, no backing of a diskful leg is deleted, and what a
pass resizes or reports it does from a copy that no edit has overtaken, every diskful slot reports
a size only after a `drbdadm resize` that found every diskful backing large enough. An expansion
that loses its coordinator half-way is acknowledged with the device at its old size
(`evicted_coordinator_skips_resize`).
-/

namespace Miroir.Growth

open Process Prog

/-! ## The condition -/

/-- A leg that becomes diskful, or the first diskful one, reports no more than the coordinator. -/
def handsOver (vol : Volume) (spec : VolumeSpec) : Bool :=
  (spec.firstDiskful.all fun rep => slotSize vol rep.node ≤ coordinatorSize vol) &&
    spec.diskfulReplicas.all fun rep =>
      diskfulOn vol.spec rep.node || slotSize vol rep.node ≤ coordinatorSize vol

/-- A pass resizes the device from a copy that no edit has overtaken, and reports from one or no
more than the coordinator; it does not delete the backing of a diskful leg. -/
def currentCopy (s : World) (node : String) : Cmd → Bool
  | .drbdResize => s.edited ≤ s.handed node
  | .patchStatus mine =>
    s.edited ≤ s.handed node || mine.sizeBytes ≤ coordinatorSize s.current
  | .deleteBacking => !diskfulOn s.current.spec node
  | _ => true

def growsInOrder (c : GrowConf) (a : GrowAct) : Bool :=
  ((Workers.asked c a).all fun q => q.worker.all fun node => currentCopy c.world node q.cmd) &&
    match a with
    | .event (.edit replicas clients) =>
      handsOver c.world.current
        { c.world.current.spec with replicas := replicas, clients := clients }
    | _ => true

/-! ## Steps -/

/-- A pass works from versions no older than the one it was handed. Unless an edit has overtaken
that one, a diskful leg has the bytes its backing was resized to; and a size it has resized the
device for is one of `W`. -/
structure PassInv (W : Nat → Prop) (node : String) (log : GrowLog) (s : World) : Prop where
  first : ∀ vol₁, firstCopy log = some vol₁ →
    s.handed node ≤ s.last ∧ s.version (s.handed node) = vol₁
  copy : ∀ vol, copyIn log = some vol →
    ∃ k, s.handed node ≤ k ∧ k ≤ s.last ∧ s.version k = vol
  backed : ∀ vol₁ bytes, firstCopy log = some vol₁ → ResizedTo bytes log →
    s.edited ≤ s.handed node → diskfulOn vol₁.spec node = true →
    ∃ b, s.backing node = some b ∧ bytes ≤ b
  grown : DeviceGrown log → ∀ vol, copyIn log = some vol → W vol.spec.sizeBytes

/-- What the steps of others leave of a pass: versions are added, its backing is the same. -/
structure Later (node : String) (s s' : World) : Prop
    extends Versions.Later s.toVersions s'.toVersions where
  edited : s.edited ≤ s'.edited
  handed : s'.handed node = s.handed node
  backing : s'.backing node = s.backing node

section Steps

variable {source : Option VolumeSource} {W : Nat → Prop} {s s' : World} {n m : String}
  {log : GrowLog} {vol vol₁ : Volume}

variable {o : Outcome} {t : Nat}

theorem Later.refl (n : String) (s : World) : Later n s s :=
  ⟨.refl _, Nat.le_refl _, rfl, rfl⟩

theorem later_put (n : String) (s : World) (vol : Volume) : Later n s (s.put vol) :=
  ⟨Versions.later_put _ _, Nat.le_refl _, rfl, rfl⟩

theorem later_edit (h : s.edited ≤ s.last) (n : String) (replicas : List Replica)
    (clients : List VolumeClient) : Later n s (s.edit replicas clients) :=
  ⟨Versions.later_put _ _, Nat.le_succ_of_le h, rfl, rfl⟩

theorem later_setDevice (hne : m ≠ n) (d : Option Device) : Later m s (s.setDevice n d) :=
  ⟨.refl _, Nat.le_refl _, rfl, by rw [backing_setDevice, if_neg hne]⟩

theorem later_sizeDevice (n : String) (s : World) : Later n s s.sizeDevice :=
  ⟨.refl _, Nat.le_refl _, rfl, rfl⟩

theorem later_hand (hne : m ≠ n) (k : Nat) : Later m s (s.hand (some n) k) :=
  ⟨.refl _, Nat.le_refl _, Function.update_of_ne hne .., rfl⟩

/-- A pass that was handed no copy. -/
theorem PassInv.start (hf : firstCopy log = none) (hc : copyIn log = none) :
    PassInv W n log s := by
  refine ⟨fun vol₁ hv => ?_, fun vol hv => ?_, fun vol₁ bytes hv => ?_, fun _ vol hv => ?_⟩
  · rw [hf] at hv
    cases hv
  · rw [hc] at hv
    cases hv
  · rw [hf] at hv
    cases hv
  · rw [hc] at hv
    cases hv

theorem PassInv.later (h : PassInv W n log s) (hs : Later n s s') : PassInv W n log s' := by
  refine ⟨fun vol₁ hv => ?_, fun vol hv => ?_, fun vol₁ bytes hv hr he hd => ?_, h.grown⟩
  · obtain ⟨hle, hver⟩ := h.first vol₁ hv
    rw [hs.handed, hs.version _ hle]
    exact ⟨Nat.le_trans hle hs.last, hver⟩
  · obtain ⟨k, hk, hle, hver⟩ := h.copy vol hv
    rw [hs.handed]
    exact ⟨k, hk, Nat.le_trans hle hs.last, by rw [hs.version k hle, hver]⟩
  · rw [hs.backing]
    exact h.backed vol₁ bytes hv hr (Nat.le_trans hs.edited (hs.handed ▸ he)) hd

theorem PassInv.mono {W' : Nat → Prop} (h : PassInv W n log s) (hW : ∀ size, W size → W' size) :
    PassInv W' n log s :=
  ⟨h.first, h.copy, h.backed, fun hg vol hv => hW _ (h.grown hg vol hv)⟩

/-- A command that reads no copy and grows nothing. -/
theorem PassInv.plain (h : PassInv W n log s) {e : Entry Nat Ans} (he : Plain e.cmd) :
    PassInv W n (e :: log) s := by
  have hv : e.cmd ≠ .volume := fun heq => by rw [heq] at he; exact he
  have ha : e.cmd ≠ .patchActivated := fun heq => by rw [heq] at he; exact he
  refine ⟨?_, ?_, fun vol₁ bytes hcopy hr => ?_, fun hg vol hcopy => ?_⟩
  · rw [firstCopy_cons hv]
    exact h.first
  · rw [copyIn_cons hv ha]
    exact h.copy
  · rw [firstCopy_cons hv] at hcopy
    rcases resizedTo_cons hr with ⟨t, rfl⟩ | hr
    · exact he.elim
    · exact h.backed vol₁ bytes hcopy hr
  · rw [copyIn_cons hv ha] at hcopy
    rcases deviceGrown_cons hg with ⟨t, rfl⟩ | hg
    · exact he.elim
    · exact h.grown hg vol hcopy

/-- The backing is made or grows by a command of the pass. -/
theorem PassInv.setDevice (h : PassInv W n log s) {d : Device}
    (hgrow : ∀ b, s.backing n = some b → b ≤ d.bytes) :
    PassInv W n log (s.setDevice n (some d)) := by
  refine ⟨h.first, h.copy, fun vol₁ bytes hv hr he hd => ?_, h.grown⟩
  obtain ⟨old, hold, hle⟩ := h.backed vol₁ bytes hv hr he hd
  exact ⟨d.bytes, by rw [backing_setDevice, if_pos rfl]; rfl, Nat.le_trans hle (hgrow old hold)⟩

/-- What an answer to a pass leaves behind. -/
structure PassStep (source : Option VolumeSource) (W : Nat → Prop) (node : String) (log : GrowLog)
    (s s' : World) : Prop where
  kept : Kept source W s'
  pass : PassInv W node log s'
  others : ∀ m, m ≠ node → Later m s s'

theorem PassStep.refl (hk : Kept source W s) (hp : PassInv W n log s) :
    PassStep source W n log s s :=
  ⟨hk, hp, fun m _ => .refl m s⟩

/-- The backing is made or grows. -/
theorem PassStep.setDevice (hk : Kept source W s) (hp : PassInv W n log s) {d : Device}
    (hgrow : ∀ b, s.backing n = some b → b ≤ d.bytes) :
    PassStep source W n log s (s.setDevice n (some d)) :=
  ⟨hk.setDevice hgrow, hp.setDevice hgrow, fun _ hm => later_setDevice hm _⟩

theorem PassStep.ensureDevice (hk : Kept source W s) (hp : PassInv W n log s) (d : Device) :
    PassStep source W n log s (s.ensureDevice n d) := by
  unfold World.ensureDevice
  split
  · exact .refl hk hp
  · rename_i hnone
    refine .setDevice hk hp fun b hb => absurd ?_ hnone
    obtain ⟨d, hd, -⟩ := Option.map_eq_some_iff.mp hb
    rw [hd, Option.isSome_some]

/-- The copies of a pass that no edit has overtaken have the legs of the volume. -/
theorem Kept.legs (hk : Kept source W s) (hp : PassInv W n log s)
    (he : s.edited ≤ s.handed n) :
    (∀ vol₁, firstCopy log = some vol₁ → vol₁.spec.replicas = s.current.spec.replicas ∧
      vol₁.spec.admitted) ∧
    ∀ vol, copyIn log = some vol → ∃ k, s.edited ≤ k ∧ k ≤ s.last ∧ s.version k = vol ∧
      vol.spec.replicas = s.current.spec.replicas := by
  refine ⟨fun vol₁ hv => ?_, fun vol hv => ?_⟩
  · obtain ⟨hle, rfl⟩ := hp.first vol₁ hv
    exact ⟨hk.since _ he hle, hk.admitted _ hle⟩
  · obtain ⟨k, hh, hle, rfl⟩ := hp.copy vol hv
    exact ⟨k, Nat.le_trans he hh, hle, rfl, hk.since k (Nat.le_trans he hh) hle⟩

/-- What a pass knows of its own backing when it resizes or reports. -/
theorem Kept.own_backed (hk : Kept source W s) (hp : PassInv W n log s)
    (he : s.edited ≤ s.handed n) (h₁ : firstCopy log = some vol₁) (hv : copyIn log = some vol)
    (hres : localDiskless vol₁ n = false → ResizedTo vol.spec.backingBytes log)
    (hd : diskfulOn s.current.spec n) : Backed source s n vol.spec.sizeBytes := by
  obtain ⟨hreps, hadm⟩ := (hk.legs hp he).1 vol₁ h₁
  obtain ⟨k, -, hle, rfl, -⟩ := (hk.legs hp he).2 vol hv
  have hd₁ : diskfulOn vol₁.spec n := (diskfulOn_of_replicas hreps).trans hd
  obtain ⟨b, hb, hbytes⟩ := hp.backed vol₁ _ h₁ (hres (localDiskless_eq_false hadm hd₁)) he hd₁
  obtain ⟨hdrbd, hsrc⟩ := hk.origin k hle
  rw [backingBytes_eq hdrbd, hsrc] at hbytes
  exact ⟨b, hb, hbytes⟩

variable (hdown : ∀ a b, a ≤ b → W b → W a) (hzero : W 0)

include hdown hzero in
/-- What a pass reports keeps the slots in order. -/
theorem Kept.reports (hk : Kept source W s) (hp : PassInv W n log s) {mine : ReplicaStatus}
    (hguard : passGuard n log (.patchStatus mine))
    (hc : currentCopy s n (.patchStatus mine)) :
    Kept source W (s.put (withSlot s.current n mine)) := by
  obtain ⟨vol₁, vol, h₁, hv, hrep⟩ := hguard
  rcases Bool.or_eq_true_iff.mp hc with he | hsmall
  · have he := of_decide_eq_true he
    obtain ⟨k, hek, hle, hver, hreps⟩ := (hk.legs hp he).2 vol hv
    have hcoord : coordinates s.current.spec n → W (slotSize vol n) := fun hcd => by
      obtain ⟨rep, hfirst, rfl⟩ := coordinates_iff.mp hcd
      rw [← firstDiskful_of_replicas hreps, ← hver] at hfirst
      rw [← hver]
      exact hk.first k hle rep hfirst
    rcases hrep with h0 | hslot | ⟨hsize, hco, hres⟩
    · rw [← h0] at hzero
      exact hk.put_slot (fun _ => hzero) fun _ => .inl hzero
    · refine hk.put_slot (fun hcd => hslot ▸ hcoord hcd) fun hd => ?_
      obtain ⟨rep, hrep, rfl⟩ := diskfulOn_iff.mp hd
      rw [← diskful_of_replicas hreps, ← hver] at hrep
      rw [hslot, ← hver]
      exact hk.ahead k hek hle rep hrep
    · refine hk.put_slot (fun hcd => ?_) fun hd => .inr ?_
      · have hcd' : coordinates vol.spec n := by
          rwa [coordinates, firstDiskful_of_replicas hreps]
        rw [hsize]
        rcases hco hcd' with hbehind | hgrown
        · exact hdown _ _ hbehind (hcoord hcd)
        · exact hp.grown hgrown vol hv
      · rw [hsize]
        exact hk.own_backed hp he h₁ hv hres hd
  · -- No more than what the coordinator reports.
    have hW : W mine.sizeBytes := hdown _ _ (of_decide_eq_true hsmall) hk.coordinatorSize
    exact hk.put_slot (fun _ => hW) fun _ => .inl hW

include hdown in
/-- A `drbdadm resize` finds every diskful backing large enough, unless the device was resized for
the size before. -/
theorem Kept.resizes (hk : Kept source W s) (hp : PassInv W n log s)
    (hguard : passGuard n log .drbdResize) (hc : currentCopy s n .drbdResize)
    (hv : copyIn log = some vol) :
    W vol.spec.sizeBytes ∨ s.backed vol.spec.sizeBytes := by
  have he := of_decide_eq_true hc
  obtain ⟨vol₁, vol', h₁, hv', hco, hpeers, hres⟩ := hguard
  obtain rfl : vol' = vol := Option.some.inj (hv'.symm.trans hv)
  obtain ⟨k, hek, hle, hver, hreps⟩ := (hk.legs hp he).2 vol' hv
  by_cases hW : W vol'.spec.sizeBytes
  · exact .inl hW
  right
  refine List.all_eq_true.mpr fun rep hrep => ?_
  suffices hb : Backed source s rep.node vol'.spec.sizeBytes by
    obtain ⟨b, hb, hbytes⟩ := hb
    rw [hk.bytesFor_current, hb]
    exact decide_eq_true hbytes
  by_cases hn : rep.node = n
  · rw [hn]
    exact hk.own_backed hp he h₁ hv hres (diskfulOn_iff.mpr ⟨rep, hrep, hn⟩)
  · have hrep' : rep ∈ vol'.spec.diskfulReplicas := diskful_of_replicas hreps ▸ hrep
    obtain ⟨hmem, hdisk⟩ := mem_diskful.mp hrep'
    have hslot : vol'.spec.sizeBytes ≤ slotSize vol' rep.node := by
      have hpeer := List.all_eq_true.mp hpeers rep hmem
      simp only [hn, hdisk, decide_false, Bool.false_or, decide_eq_true_eq] at hpeer
      exact hpeer
    rw [← hver] at hrep' hslot
    rcases hk.ahead k hek hle rep hrep' with hdone | ⟨b, hb, hbytes⟩
    · exact absurd (hver ▸ hdown _ _ hslot hdone) hW
    · exact ⟨b, hb, Nat.le_trans (needed_mono (hver ▸ hslot)) hbytes⟩

theorem passStep_volume (hk : Kept source W s) {a : Ans .volume}
    (h : answer s (some n) .volume o = some (a, s')) :
    PassStep source W n [⟨t, .volume, a⟩] s s' := by
  cases o with
  | version k =>
    simp only [answer] at h
    split at h
    · rename_i hle
      cases h
      have hhand : (s.hand (some n) k).handed n = k := Function.update_self ..
      refine ⟨hk.hand (some n) k, ⟨fun vol₁ hv => ?_, fun vol hv => ?_, fun _ bytes _ hr => ?_,
        fun hg => ?_⟩, fun m hm => later_hand hm k⟩
      · cases hv
        rw [hhand]
        exact ⟨hle, rfl⟩
      · cases hv
        exact ⟨k, Nat.le_of_eq hhand, hle, rfl⟩
      · simp [ResizedTo] at hr
      · simp [DeviceGrown] at hg
    · cases h
  | absent | fail =>
    cases h
    exact .refl hk (.start rfl rfl)
  | ok | flag | status | cloned | duringResync => cases h

theorem passStep_activate (hk : Kept source W s) (hp : PassInv W n log s)
    (hguard : passGuard n log .patchActivated) {a : Except Err Volume}
    (h : answer s (some n) .patchActivated o = some (a, s')) :
    PassStep source W n (⟨t, .patchActivated, a⟩ :: log) s s' := by
  obtain ⟨⟨vol₁, hfirst⟩, hdevice⟩ := hguard
  have hput : Kept source W (s.put (setActivated s.current)) :=
    hk.put_same hk.current_admitted hk.current_origin rfl fun _ => rfl
  have hlater (m : String) : Later m s (s.put (setActivated s.current)) := later_put m s _
  have hnone : ¬DeviceGrown (⟨t, .patchActivated, a⟩ :: log) := not_deviceGrown_cons hdevice nofun
  have hold {bytes : Nat} (hr : ResizedTo bytes (⟨t, .patchActivated, a⟩ :: log)) :
      ResizedTo bytes log := by
    rcases resizedTo_cons hr with ⟨_, heq⟩ | hr
    · cases heq
    · exact hr
  rcases perform_cases h with ⟨rfl, rfl⟩ | ⟨e, rfl, hs⟩
  · have hp' := hp.later (hlater n)
    refine ⟨hput, ⟨hp'.first, fun vol hv => ?_, fun _ _ hv hr => hp'.backed _ _ hv (hold hr),
      fun hg => absurd hg hnone⟩, fun m _ => hlater m⟩
    cases hv
    exact ⟨s.last + 1, (hp'.first vol₁ hfirst).1, Nat.le_refl _, version_put_last⟩
  · have hstay {s' : World} (hk' : Kept source W s') (hl : ∀ m, Later m s s') :
        PassStep source W n (⟨t, .patchActivated, .error e⟩ :: log) s s' := by
      have hp' := hp.later (hl n)
      exact ⟨hk', ⟨hp'.first, hp'.copy, fun _ _ hv hr => hp'.backed _ _ hv (hold hr),
        fun hg => absurd hg hnone⟩, fun m _ => hl m⟩
    rcases hs with rfl | rfl
    · exact hstay hput hlater
    · exact hstay hk fun m => .refl m s'

theorem passStep_resizeBacking (hk : Kept source W s) (hp : PassInv W n log s) {bytes : Nat}
    {a : Except Err Unit}
    (h : answer s (some n) (.resizeBacking bytes) o = some (a, s')) :
    PassStep source W n (⟨t, .resizeBacking bytes, a⟩ :: log) s s' := by
  have hcons {s' : World} {a : Except Err Unit} (hp' : PassInv W n log s')
      (hok : a = .ok () → ∃ b, s'.backing n = some b ∧ bytes ≤ b) :
      PassInv W n (⟨t, .resizeBacking bytes, a⟩ :: log) s' := by
    refine ⟨hp'.first, hp'.copy, fun vol₁ bytes' hv hr he hd => ?_, fun hg => ?_⟩
    · rcases resizedTo_cons hr with ⟨_, heq⟩ | hr
      · cases heq
        exact hok rfl
      · exact hp'.backed vol₁ bytes' hv hr he hd
    · rcases deviceGrown_cons hg with ⟨_, heq⟩ | hg
      · cases heq
      · exact hp'.grown hg
  simp only [answer, Option.bind_some] at h
  split at h
  · rename_i hsome
    obtain ⟨d, hd⟩ := Option.isSome_iff_exists.mp hsome
    rcases performed h with rfl | ⟨rfl, e, rfl⟩
    · have hstep : PassStep source W n log s (s.setDevice n (some (d.resize bytes))) := by
        refine .setDevice hk hp fun b hb => ?_
        rw [World.backing, hd] at hb
        cases hb
        exact d.bytes_le_resize bytes
      rw [World.resizeDevice, hd]
      refine ⟨hstep.kept, hcons hstep.pass fun _ => ⟨(d.resize bytes).bytes, ?_, d.le_resize bytes⟩,
        hstep.others⟩
      rw [backing_setDevice, if_pos rfl]
      rfl
    · exact .refl hk (hcons hp fun hok => by cases hok)
  · cases o <;> cases h
    exact .refl hk (hcons hp fun hok => by cases hok)

include hdown in
theorem passStep_drbdResize (hk : Kept source W s) (hp : PassInv W n log s)
    (hguard : passGuard n log .drbdResize) (hc : currentCopy s n .drbdResize)
    (hgrows : ∀ size, o = .ok → s.backed size → W size)
    {a : Except ResizeErr Unit} (h : answer s (some n) .drbdResize o = some (a, s')) :
    PassStep source W n (⟨t, .drbdResize, a⟩ :: log) s s' := by
  have hcons {a : Except ResizeErr Unit} (hp' : PassInv W n log s')
      (hok : a = .ok () → ∀ vol, copyIn log = some vol → W vol.spec.sizeBytes) :
      PassInv W n (⟨t, .drbdResize, a⟩ :: log) s' := by
    refine ⟨hp'.first, hp'.copy, fun vol₁ bytes hv hr => ?_, fun hg => ?_⟩
    · rcases resizedTo_cons hr with ⟨_, heq⟩ | hr
      · cases heq
      · exact hp'.backed vol₁ bytes hv hr
    · rcases deviceGrown_cons hg with ⟨_, heq⟩ | hg
      · cases heq
        exact hok rfl
      · exact hp'.grown hg
  cases o with
  | ok =>
    cases h
    have hlater (m : String) : Later m s s.sizeDevice := later_sizeDevice m s
    refine ⟨hk.sizeDevice, hcons (hp.later (hlater n)) fun _ vol hv => ?_, fun m _ => hlater m⟩
    rcases hk.resizes hdown hp hguard hc hv with hW | hb
    · exact hW
    · exact hgrows _ rfl hb
  | duringResync | fail =>
    cases h
    exact .refl hk (hcons hp fun hok => by cases hok)
  | version | absent | flag | status | cloned => cases h

include hdown hzero in
/-- One answer to a pass. -/
theorem passStep_of_answer (hk : Kept source W s) (hp : PassInv W n log s) {c : Cmd}
    (hguard : passGuard n log c) (hc : currentCopy s n c)
    (hgrows : ∀ size, c = .drbdResize → o = .ok → s.backed size → W size) {a : Ans c}
    (h : answer s (some n) c o = some (a, s')) :
    PassStep source W n (⟨t, c, a⟩ :: log) s s' := by
  cases c
  case volume =>
    cases hguard
    exact passStep_volume hk h
  case patchActivated => exact passStep_activate hk hp hguard h
  case resizeBacking bytes => exact passStep_resizeBacking hk hp h
  case drbdResize =>
    exact passStep_drbdResize hdown hk hp hguard hc (fun size => hgrows size rfl) h
  case createBacking bytes =>
    have hp' : PassInv W n (⟨t, .createBacking bytes, a⟩ :: log) s := hp.plain trivial
    rcases performed h with rfl | ⟨rfl, -⟩
    · exact .ensureDevice hk hp' _
    · exact .refl hk hp'
  case createFromSnapshot =>
    have hp' : PassInv W n (⟨t, .createFromSnapshot, a⟩ :: log) s := hp.plain trivial
    cases o <;> cases h
    · exact .refl hk hp'
    · exact .ensureDevice hk hp' _
  case patchStatus mine =>
    have hp' : PassInv W n (⟨t, .patchStatus mine, a⟩ :: log) s := hp.plain trivial
    rcases performed h with rfl | ⟨rfl, -⟩
    · exact ⟨hk.reports hdown hzero hp hguard hc, hp'.later (later_put n s _),
        fun m _ => later_put m s _⟩
    · exact .refl hk hp'
  case dropSlot =>
    have hp' : PassInv W n (⟨t, .dropSlot, a⟩ :: log) s := hp.plain trivial
    rcases performed h with rfl | ⟨rfl, -⟩
    · exact ⟨hk.put_slot (fun _ => hzero) fun _ => .inl hzero, hp'.later (later_put n s _),
        fun m _ => later_put m s _⟩
    · exact .refl hk hp'
  case deleteBacking =>
    have hp' : PassInv W n (⟨t, .deleteBacking, a⟩ :: log) s := hp.plain trivial
    rcases performed h with rfl | ⟨rfl, -⟩
    · have hnot : diskfulOn s.current.spec n = false := by simpa [currentCopy] using hc
      refine ⟨hk.delete hnot, ⟨hp'.first, hp'.copy, fun vol₁ bytes hv _ he hd => ?_, hp'.grown⟩,
        fun m hm => later_setDevice hm _⟩
      -- No edit since, so the leg is not diskful in the copy either.
      rw [diskfulOn_of_replicas ((hk.legs hp' he).1 vol₁ hv).1, hnot] at hd
      cases hd
    · exact .refl hk hp'
  case patchSize => exact hguard.elim
  case deviceExists | sourceSnapshot =>
    cases o <;> cases h
    all_goals exact .refl hk (hp.plain trivial)
  case fastPath | holdsFinalizer | removalBlocked | parks =>
    cases o <;> cases h
    exact .refl hk (hp.plain trivial)
  case bringUp =>
    cases o <;> cases h
    all_goals exact .refl hk (hp.plain trivial)
  case down | removeFinalizer | expandWithinHeadroom =>
    rcases performed h with rfl | ⟨rfl, -⟩ <;> exact .refl hk (hp.plain trivial)

/-- One answer to the controller. -/
theorem ctrlStep_of_answer (hk : Kept source W s) {c : Cmd} {a : Ans c}
    (h : answer s none c o = some (a, s')) : Kept source W s' ∧ ∀ m, Later m s s' := by
  have hput (vol : Volume) (hadm : vol.spec.admitted)
      (horig : vol.spec.drbd ∧ vol.spec.source = source)
      (hreps : vol.spec.replicas = s.current.spec.replicas)
      (hslots : ∀ m, slotSize vol m = slotSize s.current m) {o : Outcome} {a : Except Err Volume}
      (h : patch s vol o = some (a, s')) : Kept source W s' ∧ ∀ m, Later m s s' := by
    have hkept := hk.put_same hadm horig hreps hslots
    rcases performed h with rfl | ⟨rfl, -⟩
    · exact ⟨hkept, fun m => later_put m s vol⟩
    · exact ⟨hk, fun m => .refl m s'⟩
  cases c
  case patchSize size =>
    simp only [answer] at h
    split at h
    · rename_i hle
      exact hput (setSize s.current size) (admitted_of_size hk.current_admitted hle)
        hk.current_origin rfl (fun _ => rfl) h
    · cases o <;> cases h
      exact ⟨hk, fun m => .refl m s⟩
  case patchActivated =>
    exact hput (setActivated s.current) hk.current_admitted hk.current_origin rfl (fun _ => rfl) h
  case volume =>
    cases o with
    | version k =>
      simp only [answer] at h
      split at h
      · cases h
        exact ⟨hk, fun m => .refl m s⟩
      · cases h
    | absent | fail =>
      cases h
      exact ⟨hk, fun m => .refl m s⟩
    | ok | flag | status | cloned | duringResync => cases h
  case down | removeFinalizer | expandWithinHeadroom =>
    rcases performed h with rfl | ⟨rfl, -⟩ <;> exact ⟨hk, fun m => .refl m s'⟩
  case drbdResize =>
    cases o <;> cases h
    · exact ⟨hk.sizeDevice, fun m => later_sizeDevice m s⟩
    all_goals exact ⟨hk, fun m => .refl m s⟩
  all_goals
    cases o <;> cases h
    all_goals exact ⟨hk, fun m => .refl m s⟩

end Steps

/-! ## Runs -/

/-- The volume and its backings are in order, and so is every pass. -/
structure GrowInv (source : Option VolumeSource) (W : Nat → Prop) (c : GrowConf) : Prop where
  kept : Kept source W c.world
  passes : ∀ n t, c.threads.lookup (some n) = some t → PassInv W n t.log c.world

section Runs

variable {source : Option VolumeSource} {W : Nat → Prop} {c c' : GrowConf} {a : GrowAct}

theorem currentCopy_of_reply {n : String} {o : Outcome} {req : Request} {log : GrowLog} {cmd : Cmd}
    {k : Ans cmd → GrowM Ended} (ht : c.threads.lookup (some n) = some ⟨req, log, .ask cmd k⟩)
    (h : growsInOrder c (.reply (some n) o)) : currentCopy c.world n cmd := by
  have h := (Bool.and_eq_true_iff.mp h).1
  simpa [Workers.asked, ht] using h

/-- An edit keeps the volume in order. -/
theorem Kept.of_event (hk : Kept source W c.world) (hdown : ∀ a b, a ≤ b → W b → W a) {e : Event}
    {s : World} (h : growsInOrder c (.event e)) (he : event c.world e = some s) :
    Kept source W s ∧ ∀ m, Later m c.world s := by
  cases e with
  | handshake =>
    simp only [event] at he
    split at he
    · cases he
      exact ⟨hk.sizeDevice, fun m => later_sizeDevice m c.world⟩
    · cases he
  | configure node pool extent =>
    cases he
    exact ⟨hk.backing rfl rfl rfl fun _ _ _ => id,
      fun m => ⟨.refl _, Nat.le_refl _, rfl, rfl⟩⟩
  | edit replicas clients =>
  simp only [event] at he
  split at he
  swap
  · cases he
  rename_i hadm
  cases he
  have hover := (Bool.and_eq_true_iff.mp h).2
  obtain ⟨hfirst, hlegs⟩ := Bool.and_eq_true_iff.mp hover
  refine ⟨hk.edit hadm (fun rep hrep => ?_) fun rep hmem hdisk => ?_,
    fun m => later_edit hk.edited_le m replicas clients⟩
  · rw [VolumeSpec.firstDiskful, hrep] at hfirst
    exact hdown _ _ (of_decide_eq_true hfirst) hk.coordinatorSize
  · have hleg := List.all_eq_true.mp hlegs rep (mem_diskful.mpr ⟨hmem, hdisk⟩)
    rcases Bool.or_eq_true_iff.mp hleg with hold | hsmall
    · obtain ⟨old, hold, hnode⟩ := diskfulOn_iff.mp hold
      rw [← hnode]
      exact hk.ahead c.world.last hk.edited_le (Nat.le_refl _) old hold
    · exact .inl (hdown _ _ (of_decide_eq_true hsmall) hk.coordinatorSize)

/-- One step keeps everything in order, if `W` has the sizes that the step resizes the device
for. -/
theorem GrowInv.step (hc : GrowInv source W c) (hdown : ∀ a b, a ≤ b → W b → W a) (hzero : W 0)
    (h : Workers.Stepped cluster c a c')
    (hob : ∀ w t, c.threads.lookup w = some t →
      Obeys (guard w) (Ends w t.job) t.log t.prog)
    (hord : growsInOrder c a) (hgrows : ∀ size, resizedAt c a size → W size) :
    GrowInv source W c' := by
  -- What an answer to a pass does.
  have hpass {n : String} {o : Outcome} {req : Request} {log : GrowLog} {cmd : Cmd}
      {k : Ans cmd → GrowM Ended} {r : Ans cmd} {s : World} (t : Nat) (ha : a = .reply (some n) o)
      (hw : c.threads.lookup (some n) = some ⟨req, log, .ask cmd k⟩)
      (hans : answer c.world (some n) cmd o = some (r, s)) :
      PassStep source W n (⟨t, cmd, r⟩ :: log) c.world s := by
    subst ha
    refine passStep_of_answer hdown hzero hc.kept (hc.passes n _ hw) (hob (some n) _ hw).1
      (currentCopy_of_reply hw hord) (fun size hcmd ho hb => hgrows size ?_) hans
    subst hcmd ho
    simp [resizedAt, Workers.asked, hw, hb]
  refine ⟨?_, fun n t ht => ?_⟩
  · rcases h.world_cases with heq | ⟨e, rfl, he⟩ | ⟨w, o, j, log, cmd, k, r, ha, hw, hans⟩
    · rw [heq]
      exact hc.kept
    · exact (hc.kept.of_event hdown hord he).1
    · cases w with
      | some n => exact (hpass c.tick ha hw hans).kept
      | none => exact (ctrlStep_of_answer hc.kept hans).1
  · rcases h.thread_cases ht with ⟨ht, hne⟩ | ⟨j, -, rfl⟩ |
      ⟨o, j, log, cmd, k, r, ha, hw, hans, rfl⟩
    · refine (hc.passes n t ht).later ?_
      rcases h.world_cases with heq | ⟨e, rfl, he⟩ | ⟨w, o, j, log, cmd, k, r, ha, hw, hans⟩
      · rw [heq]
        exact .refl n c.world
      · exact (hc.kept.of_event hdown hord he).2 n
      · cases w with
        | none => exact (ctrlStep_of_answer hc.kept hans).2 n
        | some m =>
          have hm : n ≠ m := by
            rintro rfl
            exact hne o ha
          exact (hpass c.tick ha hw hans).others n hm
    · exact .start rfl rfl
    · exact (hpass c.tick ha hw hans).pass

variable {vol : Volume} {pools : String → Pool} {extents : String → Extent} {N i j : ℕ}
  (ρ : Run cluster.step (Workers.init (created vol pools extents)) N)

/-- The sizes the device has been resized for by moment `i`. -/
def Resized (i size : ℕ) : Prop :=
  size = 0 ∨ ∃ j < i, resizedAt (ρ.state j) (ρ.act j) size = true

theorem backed_of_le {s : World} {m n : ℕ} (h : m ≤ n) (hb : s.backed n) :
    s.backed m := by
  refine List.all_eq_true.mpr fun rep hrep => ?_
  obtain ⟨b, hsome, hle⟩ : ∃ b, s.backing rep.node = some b ∧ bytesFor s.current.spec n ≤ b := by
    simpa [Option.any_eq_true] using List.all_eq_true.mp hb rep hrep
  rw [hsome]
  exact decide_eq_true (Nat.le_trans (bytesFor_mono h) hle)

theorem Resized.of_le {m n : ℕ} (hmn : m ≤ n) (h : Resized ρ i n) : Resized ρ i m := by
  rcases h with rfl | ⟨j, hj, hr⟩
  · exact .inl (Nat.le_zero.mp hmn)
  · refine .inr ⟨j, hj, ?_⟩
    revert hr
    unfold resizedAt
    split
    · rw [Bool.and_eq_true, Bool.and_eq_true]
      exact fun hr => ⟨hr.1, backed_of_le hmn hr.2⟩
    · exact nofun

theorem Resized.mono {size : ℕ} (h : Resized ρ i size) (hij : i ≤ j) : Resized ρ j size :=
  h.imp_right fun ⟨k, hk, hr⟩ => ⟨k, Nat.lt_of_lt_of_le hk hij, hr⟩

theorem kept_created (hadm : vol.spec.admitted) (hd : vol.spec.drbd)
    (hnew : ∀ n, slotSize vol n = 0) (hzero : W 0) :
    Kept vol.spec.source W (created vol pools extents) := by
  refine ⟨fun _ _ => hadm, fun _ _ => ⟨hd, rfl⟩, Nat.le_refl _, fun _ _ _ => rfl,
    fun k _ rep _ => ?_, fun k _ _ rep _ => .inl ?_⟩
  · exact (hnew rep.node).symm ▸ hzero
  · exact (hnew rep.node).symm ▸ hzero

theorem growInv_of_run (hadm : vol.spec.admitted) (hd : vol.spec.drbd)
    (hnew : ∀ n, slotSize vol n = 0)
    (h : ∀ i < N, growsInOrder (ρ.state i) (ρ.act i)) (hi : i ≤ N) :
    GrowInv vol.spec.source (Resized ρ i) (ρ.state i) := by
  refine ρ.invariant (P := fun i c => GrowInv vol.spec.source (Resized ρ i) c) ?_
    (fun i hi ih => ?_) hi
  · exact ⟨kept_created hadm hd hnew (.inl rfl), nofun⟩
  · have hmono (size : ℕ) (hs : Resized ρ i size) : Resized ρ (i + 1) size :=
      hs.mono ρ (Nat.le_succ i)
    have ih' : GrowInv vol.spec.source (Resized ρ (i + 1)) (ρ.state i) :=
      ⟨ih.kept.mono hmono, fun n t ht => (ih.passes n t ht).mono hmono⟩
    exact ih'.step (fun _ _ => Resized.of_le ρ) (.inl rfl) (Workers.stepped_of_step (ρ.next i hi))
      (fun w t ht => (Workers.thread_obeys ρ obeys_cluster (Nat.le_of_lt hi) ht).1) (h i hi)
      fun size hr => .inr ⟨i, Nat.lt_succ_self i, hr⟩

/-- A version whose diskful slots all report a size came after the device was resized for it. -/
theorem resized_of_acknowledges (hadm : vol.spec.admitted) (hd : vol.spec.drbd)
    (hnew : ∀ n, slotSize vol n = 0)
    (h : ∀ i < N, growsInOrder (ρ.state i) (ρ.act i)) (hi : i ≤ N) {k size : ℕ}
    (hk : k ≤ (ρ.state i).world.last) (hsize : 0 < size)
    (hack : acknowledges ((ρ.state i).world.version k) size) :
    ∃ j < i, resizedAt (ρ.state j) (ρ.act j) size := by
  have hkept := (growInv_of_run ρ hadm hd hnew h hi).kept
  obtain ⟨rep, hrep⟩ := exists_firstDiskful (hkept.admitted k hk) (hkept.origin k hk).1
  obtain ⟨hmem, hdisk⟩ := mem_diskful.mp (mem_of_firstDiskful hrep)
  have hslot : size ≤ slotSize ((ρ.state i).world.version k) rep.node := by
    simpa [hdisk] using List.all_eq_true.mp hack rep hmem
  exact (Resized.of_le ρ hslot (hkept.first k hk rep hrep)).resolve_left (Nat.ne_of_gt hsize)

/-- What a worker reads is a version that is there. -/
theorem version_of_answer {s s' : World} {w : Option String} {o : Outcome}
    (h : answer s w .volume o = some (.ok (some vol), s')) :
    ∃ k ≤ s.last, s.version k = vol := by
  cases o with
  | version k =>
    simp only [answer] at h
    split at h
    · cases h
      exact ⟨k, ‹_›, rfl⟩
    · cases h
  | ok | fail | absent | flag | status | cloned | duringResync => cases h

/-- In every version, all diskful slots report a size only after a `drbdadm resize` succeeded while
every diskful leg had a backing for it, and only then does `ControllerExpandVolume` answer
success. -/
theorem acknowledged_after_resize (hadm : vol.spec.admitted = true) (hd : vol.spec.drbd = true)
    (hnew : ∀ n, slotSize vol n = 0)
    (h : ∀ i < N, growsInOrder (ρ.state i) (ρ.act i) = true) (hi : i ≤ N) :
    (∀ k ≤ (ρ.state i).world.last, ∀ size > 0,
      acknowledges ((ρ.state i).world.version k) size = true →
      ∃ j < i, resizedAt (ρ.state j) (ρ.act j) size = true) ∧
    ∀ req log cap,
      (ρ.state i).threads.lookup none = some ⟨req, log, .ret (.expanded (.ok cap))⟩ →
      ∃ j < i, resizedAt (ρ.state j) (ρ.act j) (alignSector req.required) = true := by
  refine ⟨fun k hk size hsize hack => resized_of_acknowledges ρ hadm hd hnew h hi hk hsize hack,
    fun req log cap ht => ?_⟩
  obtain ⟨hob, hlog⟩ := Workers.thread_obeys ρ obeys_cluster hi ht
  obtain ⟨hreq, t, v, hmem, hack⟩ : Acknowledged req log (.expanded (.ok cap)) := hob
  obtain ⟨l, hlt, o, k, -, -, hans⟩ := hlog.told hmem
  -- The controller read a version that was there at the time.
  obtain ⟨k, hk, hver⟩ : ∃ k ≤ (ρ.state t).world.last, (ρ.state t).world.version k = v :=
    version_of_answer hans
  subst hver
  have hpos : 0 < alignSector req.required := Nat.lt_of_lt_of_le hreq (le_alignSector _)
  obtain ⟨j, hj, hr⟩ := resized_of_acknowledges ρ hadm hd hnew h
    (Nat.le_of_lt (Nat.lt_of_lt_of_le hlt hi)) hk hpos hack
  exact ⟨j, Nat.lt_trans hj hlt, hr⟩

end Runs

/-! ## A volume on image files -/

/-- A new volume of 1 MiB on image files. -/
def newImages : World := created (newVolume 1048576) (fun _ => { backend := .loopfile }) extents4M

/-- The coordinator resizes the device and reports, and is evicted afterwards. -/
def grownThenEvicted : List GrowAct :=
  expansionBegins ++ legPass "a" 6 [.ok, .ok] ++ evictA ++ legPass "c" 9 [.ok] ++
    Workers.replies none [.version 11]

theorem grownThenEvicted_inOrder :
    allSteps cluster.step growsInOrder (Workers.init newImages) grownThenEvicted := by
  decide +kernel

def grownRun : Run cluster.step (Workers.init newImages) grownThenEvicted.length :=
  .ofActions _ _ _ _ grownThenEvicted_inOrder

/-- Both diskful slots report 2 MiB, and the device was resized for it. -/
theorem grown_before_acknowledged :
    acknowledges (grownRun.state grownThenEvicted.length).world.current 2097152 = true ∧
      ∃ j < grownThenEvicted.length,
        resizedAt (grownRun.state j) (grownRun.act j) 2097152 = true := by
  have hack : acknowledges (grownRun.state grownThenEvicted.length).world.current 2097152 =
      true := by
    decide +kernel
  have hall := acknowledged_after_resize grownRun (by decide) rfl (fun _ => rfl)
    (fun _ hk => Run.ofActions_spec grownThenEvicted_inOrder hk) (Nat.le_refl _)
  exact ⟨hack, hall.1 _ (Nat.le_refl _) 2097152 (by decide) hack⟩

/-- The coordinator is evicted before it has resized the device. -/
def evictedFirst : List GrowAct :=
  expansionBegins ++ evictA ++ legPass "c" 8 [.ok] ++ Workers.replies none [.version 10]

theorem evictedFirst_possible :
    allSteps cluster.step (fun c a => !resizedAt c a 2097152) (Workers.init newImages)
      evictedFirst := by
  decide +kernel

def evictedFirstRun : Run cluster.step (Workers.init newImages) evictedFirst.length :=
  .ofActions _ _ _ _ evictedFirst_possible

/-- The expansion is acknowledged, and the device was never resized for it. -/
theorem evicted_coordinator_skips_resize :
    acknowledges (evictedFirstRun.state evictedFirst.length).world.current 2097152 = true ∧
      ((evictedFirstRun.state evictedFirst.length).threads.lookup none).bind Thread.returned =
        some (.expanded (.ok 2097152)) ∧
      ∀ j < evictedFirst.length,
        resizedAt (evictedFirstRun.state j) (evictedFirstRun.act j) 2097152 = false := by
  refine ⟨by decide +kernel, by decide +kernel, fun j hj => ?_⟩
  exact (Bool.not_eq_true' _).mp (Run.ofActions_spec evictedFirst_possible hj)

end Miroir.Growth
