import Miroir.Growth.Spec

/-!
# Slots and backings in order

With `W` the sizes the device has been resized for, `Kept` is what the versions of a volume have to
keep: what the coordinator's slot reports is in `W`, and what another diskful slot reports is in `W`
or on its backing. A slot may be reported, the legs may be edited and a backing may be deleted as
far as that is respected (`Kept.put_slot`, `Kept.edit`, `Kept.delete`).
-/

namespace Miroir.Growth

open Process Prog

/-! ## Sizes -/

variable {m n : Nat} {spec : VolumeSpec}

/-- The bytes a diskful leg needs, by the volume's source. -/
def needed (source : Option VolumeSource) (size : Nat) : Nat :=
  if source.any VolumeSource.padForMetadata then size + internalMetaOverhead size else size

theorem clearLow_mono (h : m ≤ n) (block : Nat) : clearLow m block ≤ clearLow n block :=
  Nat.mul_le_mul_right block (Nat.div_le_div_right h)

theorem internalMetaOverhead_mono (h : m ≤ n) :
    internalMetaOverhead m ≤ internalMetaOverhead n := by
  have hper : clearLow (m / 32768 + 4096) 4096 ≤ clearLow (n / 32768 + 4096) 4096 :=
    clearLow_mono (Nat.add_le_add_right (Nat.div_le_div_right h) _) _
  refine clearLow_mono ?_ _
  have := Nat.mul_le_mul_right (maxPeers + 1) hper
  omega

theorem padded_mono (pad : Bool) (h : m ≤ n) :
    (if pad then m + internalMetaOverhead m else m) ≤
      if pad then n + internalMetaOverhead n else n := by
  cases pad
  · exact h
  · exact Nat.add_le_add h (internalMetaOverhead_mono h)

theorem needed_mono {source : Option VolumeSource} (h : m ≤ n) :
    needed source m ≤ needed source n :=
  padded_mono _ h

theorem bytesFor_mono (h : m ≤ n) :
    bytesFor spec m ≤ bytesFor spec n :=
  padded_mono _ h

theorem bytesFor_eq (hd : spec.drbd) (size : Nat) :
    bytesFor spec size = needed spec.source size := by
  simp [bytesFor, VolumeSpec.backingBytes, needed, hd]

theorem backingBytes_eq (hd : spec.drbd) :
    spec.backingBytes = needed spec.source spec.sizeBytes :=
  bytesFor_eq hd spec.sizeBytes

/-! ## Legs -/

section Legs

variable {spec : VolumeSpec} {vol : Volume} {n m : String} {rep : Replica}

variable {spec' : VolumeSpec}

theorem mem_diskful : rep ∈ spec.diskfulReplicas ↔ rep ∈ spec.replicas ∧ rep.diskless = false := by
  simp [VolumeSpec.diskfulReplicas]

theorem mem_of_firstDiskful (h : spec.firstDiskful = some rep) : rep ∈ spec.diskfulReplicas := by
  have hd := List.find?_some h
  exact mem_diskful.mpr ⟨List.mem_of_find?_eq_some h, by simpa using hd⟩

theorem diskfulOn_iff : diskfulOn spec n ↔ ∃ rep ∈ spec.diskfulReplicas, rep.node = n := by
  simp [diskfulOn]

theorem coordinates_iff :
    coordinates spec n ↔ ∃ rep, spec.firstDiskful = some rep ∧ rep.node = n := by
  simp [coordinates, Option.any_eq_true]

theorem diskfulOn_of_replicas (h : spec'.replicas = spec.replicas) :
    diskfulOn spec' n = diskfulOn spec n := by
  simp only [diskfulOn, VolumeSpec.diskfulReplicas, h]

theorem firstDiskful_of_replicas (h : spec'.replicas = spec.replicas) :
    spec'.firstDiskful = spec.firstDiskful := by
  simp only [VolumeSpec.firstDiskful, h]

theorem diskful_of_replicas (h : spec'.replicas = spec.replicas) :
    spec'.diskfulReplicas = spec.diskfulReplicas := by
  simp only [VolumeSpec.diskfulReplicas, h]

/-- The rules of the CRD ask for a size, not for which. -/
theorem admitted_of_size (ha : spec.admitted) {size : Nat} (hle : spec.sizeBytes ≤ size) :
    ({ spec with sizeBytes := size } : VolumeSpec).admitted := by
  simp only [VolumeSpec.admitted, VolumeSpec.diskfulReplicas, Bool.and_eq_true, decide_eq_true_eq,
    and_assoc] at ha ⊢
  exact ⟨Nat.le_trans ha.1 hle, ha.2⟩

/-- A replicated volume has a coordinator. -/
theorem exists_firstDiskful (ha : spec.admitted) (hd : spec.drbd) :
    ∃ rep, spec.firstDiskful = some rep := by
  simp only [VolumeSpec.admitted, hd, Bool.and_eq_true, Bool.not_true, Bool.false_or,
    decide_eq_true_iff] at ha
  have hlen : 2 ≤ spec.diskfulReplicas.length := ha.1.1.1.1.1.1.1.2
  obtain ⟨rep, hrep⟩ := List.exists_mem_of_length_pos (Nat.lt_of_lt_of_le Nat.two_pos hlen)
  obtain ⟨hmem, hdisk⟩ := mem_diskful.mp hrep
  exact Option.isSome_iff_exists.mp (List.find?_isSome.mpr ⟨rep, hmem, by simp [hdisk]⟩)

/-- A node with a diskful leg has no diskless one. -/
theorem localDiskless_eq_false (ha : vol.spec.admitted)
    (hn : diskfulOn vol.spec n) : localDiskless vol n = false := by
  obtain ⟨rep, hrep, rfl⟩ := diskfulOn_iff.mp hn
  obtain ⟨hmem, hdisk⟩ := mem_diskful.mp hrep
  have hnodup := VolumeSpec.nodup_of_admitted ha
  have hmine : (vol.spec.replicas.find? fun r => r.node = rep.node).any Replica.diskless =
      false := by
    rw [Option.any_eq_false]
    intro other hother
    have hnode : other.node = rep.node := by simpa using List.find?_some hother
    rw [List.inj_on_of_nodup_map hnodup (List.mem_of_find?_eq_some hother) hmem hnode, hdisk]
  have hclient : vol.spec.clientForNode rep.node = none := by
    simp only [VolumeSpec.admitted, Bool.and_eq_true, List.all_eq_true] at ha
    refine List.find?_eq_none.mpr fun cl hcl heq => ?_
    have hout := ha.1.1.2 cl hcl
    simp only [Bool.not_eq_true', List.any_eq_false, decide_eq_true_eq] at hout
    exact hout rep hmem (of_decide_eq_true heq).symm
  simp [localDiskless, hmine, hclient]

end Legs

/-! ## The volume and its backings -/

/-- The node's backing has the bytes its leg needs for the size. -/
def Backed (source : Option VolumeSource) (s : World) (node : String) (size : Nat) : Prop :=
  ∃ b, s.backing node = some b ∧ needed source size ≤ b

/-- With `W` the sizes the device has been resized for: what the coordinator of any version
reports is one of them, and what a diskful leg of a version since the last edit reports is one of
them or backed. -/
structure Kept (source : Option VolumeSource) (W : Nat → Prop) (s : World) : Prop where
  admitted : ∀ k ≤ s.last, (s.version k).spec.admitted = true
  origin : ∀ k ≤ s.last, (s.version k).spec.drbd = true ∧ (s.version k).spec.source = source
  edited_le : s.edited ≤ s.last
  since : ∀ k, s.edited ≤ k → k ≤ s.last →
    (s.version k).spec.replicas = s.current.spec.replicas
  first : ∀ k ≤ s.last, ∀ rep, (s.version k).spec.firstDiskful = some rep →
    W (slotSize (s.version k) rep.node)
  ahead : ∀ k, s.edited ≤ k → k ≤ s.last → ∀ rep ∈ (s.version k).spec.diskfulReplicas,
    W (slotSize (s.version k) rep.node) ∨ Backed source s rep.node (slotSize (s.version k) rep.node)

section World

variable {source : Option VolumeSource} {W : Nat → Prop} {s s' : World} {n : String} {vol : Volume}

theorem version_put_of_le {k : Nat} (h : k ≤ s.last) : (s.put vol).version k = s.version k :=
  Versions.version_put_of_le h

@[simp] theorem current_put : (s.put vol).current = vol := Versions.current_put

@[simp] theorem version_put_last : (s.put vol).version (s.last + 1) = vol :=
  Versions.version_put_last

theorem Kept.current_admitted (h : Kept source W s) : s.current.spec.admitted :=
  h.admitted s.last (Nat.le_refl _)

theorem Kept.current_origin (h : Kept source W s) :
    s.current.spec.drbd ∧ s.current.spec.source = source :=
  h.origin s.last (Nat.le_refl _)

theorem Kept.bytesFor_current (h : Kept source W s) (size : Nat) :
    bytesFor s.current.spec size = needed source size := by
  rw [bytesFor_eq h.current_origin.1, h.current_origin.2]

/-- What the coordinator reports. -/
theorem Kept.coordinatorSize (h : Kept source W s) : W (coordinatorSize s.current) := by
  obtain ⟨rep, hrep⟩ := exists_firstDiskful h.current_admitted h.current_origin.1
  rw [Growth.coordinatorSize, hrep]
  exact h.first s.last (Nat.le_refl _) rep hrep

theorem Kept.mono {W' : Nat → Prop} (h : Kept source W s) (hW : ∀ size, W size → W' size) :
    Kept source W' s :=
  ⟨h.admitted, h.origin, h.edited_le, h.since, fun k hk rep hrep => hW _ (h.first k hk rep hrep),
    fun k he hk rep hrep => (h.ahead k he hk rep hrep).imp_left (hW _)⟩

/-- A version with the same legs. -/
theorem Kept.put (h : Kept source W s) (hadm : vol.spec.admitted)
    (horig : vol.spec.drbd ∧ vol.spec.source = source)
    (hreps : vol.spec.replicas = s.current.spec.replicas)
    (hfirst : ∀ rep, vol.spec.firstDiskful = some rep → W (slotSize vol rep.node))
    (hahead : ∀ rep ∈ vol.spec.diskfulReplicas,
      W (slotSize vol rep.node) ∨ Backed source s rep.node (slotSize vol rep.node)) :
    Kept source W (s.put vol) := by
  -- A version is an old one, or the one just put.
  have hcase {k : Nat} (hk : k ≤ (s.put vol).last) : k = s.last + 1 ∨ k ≤ s.last := by
    have hk : k ≤ s.last + 1 := hk
    omega
  refine ⟨fun k hk => ?_, fun k hk => ?_, Nat.le_succ_of_le h.edited_le, fun k he hk => ?_,
    fun k hk rep hrep => ?_, fun k he hk rep hrep => ?_⟩
  all_goals rcases hcase hk with rfl | hold
  · rwa [version_put_last]
  · rw [version_put_of_le hold]
    exact h.admitted k hold
  · rwa [version_put_last]
  · rw [version_put_of_le hold]
    exact h.origin k hold
  · rw [version_put_last, current_put]
  · rw [version_put_of_le hold, current_put, hreps]
    exact h.since k he hold
  · rw [version_put_last] at hrep ⊢
    exact hfirst rep hrep
  · rw [version_put_of_le hold] at hrep ⊢
    exact h.first k hold rep hrep
  · rw [version_put_last] at hrep ⊢
    exact hahead rep hrep
  · rw [version_put_of_le hold] at hrep ⊢
    exact h.ahead k he hold rep hrep

/-- The legs change; what is known of the versions before is no longer needed. -/
theorem Kept.edit (h : Kept source W s) {replicas : List Replica} {clients : List VolumeClient}
    (hadm : ({ s.current.spec with replicas := replicas, clients := clients }).admitted)
    (hfirst : ∀ rep, (replicas.find? fun rep => !rep.diskless) = some rep →
      W (slotSize s.current rep.node))
    (hahead : ∀ rep ∈ replicas, rep.diskless = false →
      W (slotSize s.current rep.node) ∨
        Backed source s rep.node (slotSize s.current rep.node)) :
    Kept source W (s.edit replicas clients) := by
  have hcur := h.current_origin
  have hcase {k : Nat} (hk : k ≤ (s.edit replicas clients).last) :
      k = s.last + 1 ∨ k ≤ s.last := by
    have hk : k ≤ s.last + 1 := hk
    omega
  have hlast : (s.edit replicas clients).version (s.last + 1) = { s.current with
      spec := { s.current.spec with replicas := replicas, clients := clients } } :=
    Function.update_self ..
  have hbefore {k : Nat} (hk : k ≤ s.last) :
      (s.edit replicas clients).version k = s.version k :=
    Function.update_of_ne (by omega) ..
  refine ⟨fun k hk => ?_, fun k hk => ?_, Nat.le_refl _, fun k he hk => ?_,
    fun k hk rep hrep => ?_, fun k he hk rep hrep => ?_⟩
  · rcases hcase hk with rfl | hold
    · rwa [hlast]
    · rw [hbefore hold]
      exact h.admitted k hold
  · rcases hcase hk with rfl | hold
    · rw [hlast]
      exact hcur
    · rw [hbefore hold]
      exact h.origin k hold
  · rw [Nat.le_antisymm hk he]
    rfl
  · rcases hcase hk with rfl | hold
    · rw [hlast] at hrep ⊢
      exact hfirst rep hrep
    · rw [hbefore hold] at hrep ⊢
      exact h.first k hold rep hrep
  · obtain rfl : k = s.last + 1 := Nat.le_antisymm hk he
    rw [hlast] at hrep ⊢
    obtain ⟨hmem, hdisk⟩ := mem_diskful.mp hrep
    exact hahead rep hmem hdisk

/-- The volume is the same, and what was backed still is. -/
theorem Kept.backing (h : Kept source W s) (hv : s'.version = s.version) (hl : s'.last = s.last)
    (he : s'.edited = s.edited)
    (hb : ∀ rep ∈ s.current.spec.diskfulReplicas, ∀ size, Backed source s rep.node size →
      Backed source s' rep.node size) : Kept source W s' := by
  have hcur : s'.current = s.current := by simp only [Versions.current, hv, hl]
  refine ⟨fun k hk => ?_, fun k hk => ?_, ?_, fun k hk hk' => ?_, fun k hk => ?_,
    fun k hk hk' rep hrep => ?_⟩
  · rw [hv]
    exact h.admitted k (hl ▸ hk)
  · rw [hv]
    exact h.origin k (hl ▸ hk)
  · rw [he, hl]
    exact h.edited_le
  · rw [hv, hcur]
    exact h.since k (he ▸ hk) (hl ▸ hk')
  · rw [hv]
    exact h.first k (hl ▸ hk)
  · rw [hv] at hrep ⊢
    refine (h.ahead k (he ▸ hk) (hl ▸ hk') rep hrep).imp_right (hb rep ?_ _)
    rwa [← diskful_of_replicas (h.since k (he ▸ hk) (hl ▸ hk'))]

theorem Kept.hand (h : Kept source W s) (w : Option String) (k : Nat) :
    Kept source W (s.hand w k) := by
  cases w with
  | none => exact h
  | some n => exact h.backing rfl rfl rfl fun _ _ _ => id

theorem backing_setDevice (s : World) (n m : String) (d : Option Device) :
    (s.setDevice n d).backing m = if m = n then d.map Device.bytes else s.backing m := by
  by_cases h : m = n
  · subst h
    simp [World.backing, World.setDevice]
  · simp [World.backing, World.setDevice, h]

/-- A backing is made or grows. -/
theorem backed_setDevice {d : Device} (hgrow : ∀ b, s.backing n = some b → b ≤ d.bytes)
    {m : String} {size : Nat} (h : Backed source s m size) :
    Backed source (s.setDevice n (some d)) m size := by
  obtain ⟨old, hold, hle⟩ := h
  rw [Backed, backing_setDevice]
  split
  · rename_i hm
    subst hm
    exact ⟨d.bytes, rfl, Nat.le_trans hle (hgrow old hold)⟩
  · exact ⟨old, hold, hle⟩

theorem Kept.setDevice (h : Kept source W s) {d : Device}
    (hgrow : ∀ b, s.backing n = some b → b ≤ d.bytes) : Kept source W (s.setDevice n (some d)) :=
  h.backing rfl rfl rfl fun _ _ _ => backed_setDevice hgrow

theorem Kept.sizeDevice (h : Kept source W s) : Kept source W s.sizeDevice :=
  h.backing rfl rfl rfl fun _ _ _ => id

theorem Kept.delete (h : Kept source W s) (hn : diskfulOn s.current.spec n = false) :
    Kept source W (s.setDevice n none) := by
  refine h.backing rfl rfl rfl fun rep hrep size hb => ?_
  have hne : rep.node ≠ n := by
    rintro rfl
    rw [diskfulOn_iff.mpr ⟨rep, hrep, rfl⟩] at hn
    cases hn
  obtain ⟨b, hb, hle⟩ := hb
  exact ⟨b, by rw [backing_setDevice, if_neg hne, hb], hle⟩

/-- A patch that changes neither the legs nor a slot. -/
theorem Kept.put_same (h : Kept source W s) (hadm : vol.spec.admitted)
    (horig : vol.spec.drbd ∧ vol.spec.source = source)
    (hreps : vol.spec.replicas = s.current.spec.replicas)
    (hslots : ∀ m, slotSize vol m = slotSize s.current m) : Kept source W (s.put vol) := by
  refine h.put hadm horig hreps (fun rep hrep => ?_) fun rep hrep => ?_
  · rw [hslots]
    rw [firstDiskful_of_replicas hreps] at hrep
    exact h.first s.last (Nat.le_refl _) rep hrep
  · rw [hslots]
    rw [diskful_of_replicas hreps] at hrep
    exact h.ahead s.last h.edited_le (Nat.le_refl _) rep hrep

/-- A slot is reported: for the coordinator a size the device was resized for, for a diskful leg
such a size or one that is backed. -/
theorem Kept.put_slot (h : Kept source W s) {mine : ReplicaStatus}
    (hfirst : coordinates s.current.spec n → W mine.sizeBytes)
    (hahead : diskfulOn s.current.spec n →
      W mine.sizeBytes ∨ Backed source s n mine.sizeBytes) :
    Kept source W (s.put (withSlot s.current n mine)) := by
  refine h.put h.current_admitted h.current_origin rfl
    (fun rep hrep => ?_) fun rep hrep => ?_
  · rw [slotSize_withSlot]
    split
    · exact hfirst (coordinates_iff.mpr ⟨rep, hrep, ‹_›⟩)
    · exact h.first s.last (Nat.le_refl _) rep hrep
  · rw [slotSize_withSlot]
    split
    · rename_i hn
      rw [hn]
      exact hahead (diskfulOn_iff.mpr ⟨rep, hrep, hn⟩)
    · exact h.ahead s.last h.edited_le (Nat.le_refl _) rep hrep

end World

end Miroir.Growth
