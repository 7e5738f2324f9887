import Miroir.Backend.LoopfileSpec
import Miroir.Process.Calls

/-!
# What a resize promises

A `Resize` of the loopfile backend that returns success leaves a loop device of at least the
requested size, if no `Resize` before it was stopped or has failed while the device was smaller than
the file (`resize_honest`). If one was, the next finds the file large enough and succeeds without
looking at the device (`retried_resize`).
-/

namespace Miroir.Loopfile

open Process Workers Prog

variable {vol : String} {s s' : Host}

/-! ## The device and its file -/

/-- No loop device of the image is smaller than the image. -/
def Exposed (vol : String) (s : Host) : Prop :=
  ∀ l ∈ s.loopsOf (.image vol), s.size (.image vol) ≤ l.capacity

instance : Decidable (Exposed vol s) := by
  unfold Exposed
  infer_instance

/-- The image has at most one loop device, and none if it is not there. -/
structure Attached (vol : String) (s : Host) : Prop where
  one : (s.loopsOf (.image vol)).length ≤ 1
  backed : s.file (.image vol) = none → s.loopsOf (.image vol) = []

/-- What a `Resize` of the volume may break. -/
structure Sound (vol : String) (s : Host) : Prop extends Attached vol s where
  exposed : Exposed vol s

/-- The image keeps its size, and its loop devices go, or stay as they were, or are refreshed. -/
structure Follows (vol : String) (s s' : Host) : Prop where
  size : (s'.file (.image vol)).map List.length = (s.file (.image vol)).map List.length
  count : (s'.loopsOf (.image vol)).length ≤ (s.loopsOf (.image vol)).length
  loops : ∀ l' ∈ s'.loopsOf (.image vol), ∃ l ∈ s.loopsOf (.image vol),
    l.dev = l'.dev ∧ (l.capacity = l'.capacity ∨ s'.size (.image vol) ≤ l'.capacity)

namespace Follows

theorem size_eq (h : Follows vol s s') : s'.size (.image vol) = s.size (.image vol) := by
  have hs := h.size
  rw [Host.size, Host.size]
  revert hs
  cases s'.file (.image vol) <;> cases s.file (.image vol) <;> simp

theorem none_iff (h : Follows vol s s') :
    s'.file (.image vol) = none ↔ s.file (.image vol) = none := by
  rw [← Option.map_eq_none_iff (f := List.length), h.size, Option.map_eq_none_iff]

theorem same (hf : s'.file (.image vol) = s.file (.image vol)) (hl : s'.loops = s.loops) :
    Follows vol s s' := by
  have hl' : s'.loopsOf (.image vol) = s.loopsOf (.image vol) := by
    rw [Host.loopsOf, hl, Host.loopsOf]
  exact ⟨by rw [hf], by rw [hl'], fun l h => ⟨l, hl' ▸ h, rfl, .inl rfl⟩⟩

theorem refl (s : Host) : Follows vol s s := same rfl rfl

theorem detached (h : Follows vol s s') (hs : s.loopsOf (.image vol) = []) :
    s'.loopsOf (.image vol) = [] :=
  List.length_eq_zero_iff.mp (Nat.le_zero.mp (by simpa [hs] using h.count))

theorem attached (h : Follows vol s s') (hs : Attached vol s) : Attached vol s' :=
  ⟨Nat.le_trans h.count hs.one, fun hn => h.detached (hs.backed (h.none_iff.mp hn))⟩

theorem exposed (h : Follows vol s s') (hs : Exposed vol s) : Exposed vol s' := by
  intro l' hl'
  obtain ⟨l, hl, -, hcap | hcap⟩ := h.loops l' hl'
  · rw [h.size_eq, ← hcap]
    exact hs l hl
  · exact hcap

end Follows

/-! ## Commands -/

section Commands

variable {c : Cmd} {o : Outcome} {r : Ans c}

variable {dev : String}

/-- The command does not write the image and attaches nothing to it. -/
def Harmless (vol : String) : Cmd → Prop
  | .truncate _ file => file ≠ .image vol
  | .mv src dst => src ≠ .image vol ∧ dst ≠ .image vol
  | .reflink _ dst => dst ≠ .image vol
  | .rm files => .image vol ∉ files
  | .find file => file ≠ .image vol
  | _ => True

theorem follows_refresh : Follows vol s (s.refresh dev).2 := by
  rw [Host.refresh]
  split
  · refine ⟨rfl, by rw [Host.loopsOf_refreshed, List.length_map], fun l' hl' => ?_⟩
    rw [Host.loopsOf_refreshed] at hl'
    obtain ⟨l, hl, rfl⟩ := List.mem_map.mp hl'
    have hfile : l.file = .image vol := by simpa using (List.mem_filter.mp hl).2
    refine ⟨l, hl, Host.refreshed_dev.symm, ?_⟩
    rw [Host.refreshed_capacity, hfile]
    split
    · exact .inr (Nat.le_refl _)
    · exact .inl rfl
  · exact .refl s

theorem follows_detach : Follows vol s (s.detach dev).2 := by
  rw [Host.detach]
  split
  · have hsub : List.Sublist (s.loops.filter fun l => l.dev ≠ dev) s.loops := List.filter_sublist
    have hsub' := hsub.filter fun l => decide (l.file = .image vol)
    exact ⟨rfl, hsub'.length_le, fun l hl => ⟨l, hsub'.subset hl, rfl, .inl rfl⟩⟩
  · exact .refl s

theorem follows_addLoop {l : Loop} (hl : l.file ≠ .image vol) : Follows vol s (s.addLoop l) := by
  have heq : (s.addLoop l).loopsOf (.image vol) = s.loopsOf (.image vol) := by
    rw [Host.loopsOf_addLoop, if_neg hl, List.append_nil]
  exact ⟨rfl, by rw [heq], fun l hl => ⟨l, heq ▸ hl, rfl, .inl rfl⟩⟩

theorem follows_of_harmless (hc : Harmless vol c) (h : answer s c o = some (r, s')) :
    Follows vol s s' := by
  cases effect_of_answer h with
  | same => exact .refl s
  | truncated => exact .same (Host.file_setFile_ne (Ne.symm hc)) rfl
  | touched => exact .same (Host.file_touch_ne (Ne.symm hc)) Host.loops_touch
  | moved => exact .same (Host.file_rename_ne (Ne.symm hc.1) (Ne.symm hc.2)) rfl
  | copied | short => exact .same (Host.file_setFile_ne (Ne.symm hc)) rfl
  | removed =>
    exact .same (by rw [Host.file_erase, if_neg fun h => hc (List.mem_of_mem_take h)]) rfl
  | found => exact follows_addLoop hc
  | refreshed => exact follows_refresh
  | detached => exact follows_detach
  | linked | unlinked => exact .same rfl rfl

theorem follows_of_event {e : Event} (h : event s e = some s') : Follows vol s s' := by
  cases e with
  | reboot =>
    cases h
    exact ⟨rfl, Nat.zero_le _, fun l hl => nomatch hl⟩
  | write vol' bytes =>
    obtain ⟨old, hold, h⟩ := Option.bind_eq_some_iff.mp h
    split at h
    · rename_i hlen
      cases h
      by_cases hv : vol = vol'
      · subst hv
        refine ⟨?_, Nat.le_refl _, fun l hl => ⟨l, hl, rfl, .inl rfl⟩⟩
        rw [Host.file_setFile, hold, Option.map_some, Option.map_some, hlen]
      · exact .same (Host.file_setFile_ne fun h => hv (File.image.inj h)) rfl
    · cases h

/-- An image without loop devices is sound, whatever it contains. -/
theorem Sound.of_detached (h : s.loopsOf (.image vol) = []) : Sound vol s where
  one := by simp [h]
  backed _ := h
  exposed := by simp [Exposed, h]

/-- A device that is attached has the size of its file. -/
theorem Sound.of_found (h : s.loopsOf (.image vol) = []) {bytes : Bytes}
    (hbytes : s.file (.image vol) = some bytes) {named : dev ≠ ""} :
    Sound vol (s.addLoop ⟨dev, named, .image vol, bytes.length⟩) := by
  refine ⟨⟨?_, fun hnone => ?_⟩, fun l hl => ?_⟩
  · rw [Host.loopsOf_addLoop, h, if_pos rfl]
    exact Nat.le_refl 1
  · exact absurd (hbytes.symm.trans hnone) (Option.some_ne_none bytes)
  · rw [Host.loopsOf_addLoop, h, if_pos rfl] at hl
    rw [List.mem_singleton.mp hl]
    exact Nat.le_of_eq (congrArg (fun b => (b.getD []).length) hbytes)

theorem attached_of_truncate {n : Nat} {r : Except ExecErr Unit} (hs : Attached vol s)
    (h : answer s (.truncate n (.image vol)) o = some (r, s')) : Attached vol s' := by
  cases effect_of_answer h with
  | same => exact hs
  | truncated => exact ⟨hs.one, fun hnone => by simp [Host.truncate] at hnone⟩
  | touched =>
    rw [Host.touch]
    split
    · exact hs
    · exact ⟨hs.one, fun hnone => by simp at hnone⟩

/-- Refreshing the only device of the image exposes all of it. -/
theorem exposed_of_refresh (hdev : ∀ lp ∈ s.loopsOf (.image vol), lp.dev = dev)
    (h : answer s (.refresh dev) o = some (.ok (), s')) : Exposed vol s' := by
  rw [refresh_ok h]
  intro l' hl'
  rw [Host.loopsOf_refreshed] at hl'
  obtain ⟨l, hl, rfl⟩ := List.mem_map.mp hl'
  have hfile : l.file = .image vol := by simpa using (List.mem_filter.mp hl).2
  rw [Host.refreshed_capacity, if_pos (hdev l hl), hfile]
  exact Nat.le_refl _

end Commands

/-! ## Runs -/

section Runs

variable {baseDir : String} {s₀ : Host} {N i : ℕ} {ρ : Run (calls baseDir).step (init s₀) N}
  {job : Job} {m l : LoopLog} {p : LoopM Result} {n : Nat}

variable {e : Entry Nat Ans}

/-- A step that ends a resize of the volume without success. -/
def interrupted (vol : String) (c : Calls) (a : Act) : Bool :=
  match c.threads.lookup () with
  | some ⟨.resize v _, _, prog⟩ => decide (v = vol) &&
    match a, prog with
    | .crash _, _ => true
    | .finish _, .ret (.done (.error _)) => true
    | _, _ => false
  | _ => false

/-- No resize of the volume is interrupted while a loop device is smaller than the file. -/
def NoGaps (vol : String) (ρ : Run (calls baseDir).step (init s₀) N) : Prop :=
  ∀ i < N, interrupted vol (ρ.state i) (ρ.act i) = true → Exposed vol (ρ.state i).world

/-- A resize of the volume has grown its image. -/
def Growing (vol : String) (c : Calls) : Prop :=
  ∃ n l p, c.threads.lookup () = some ⟨.resize vol n, l, p⟩ ∧
    ∃ e ∈ l, ∃ m, e.cmd = .truncate m (.image vol)

structure Kept (vol : String) (c : Calls) : Prop extends Attached vol c.world where
  exposed : ¬Growing vol c → Exposed vol c.world

/-- What held after an entry of the log holds still, if the later commands leave the image alone. -/
theorem kept_since {A : Host → Prop} (hA : ∀ s s', Follows vol s s' → A s → A s') (hi : i ≤ N)
    (ht : (ρ.state i).threads.lookup () = some ⟨job, m ++ e :: l, p⟩)
    (hm : ∀ e' ∈ m, Harmless vol e'.cmd) (h : A (ρ.state (e.time + 1)).world) :
    A (ρ.state i).world :=
  Calls.since_told ρ (fun _ _ _ he => hA _ _ (follows_of_event he))
    (fun _ _ _ _ _ _ hc hans => hA _ _ (follows_of_harmless hc hans)) hi ht hm h

theorem dev_of_mem {lps : List Loop} (h : lps.length ≤ 1) :
    ∀ lp ∈ lps, lp.dev = (lps.map Loop.dev).headD "" := by
  rcases lps with _ | ⟨lp', _ | ⟨lp'', lps⟩⟩
  · simp
  · intro lp hlp
    rw [List.mem_singleton.mp hlp]
    rfl
  · simp at h

/-- The first device listed is the only one. -/
theorem onlyDev_of_listed {dev : String} (hi : i ≤ N)
    (ht : (ρ.state i).threads.lookup () = some ⟨job, m ++ l, p⟩)
    (hlog : Workers.LogTrue ρ () job (m ++ l) i) (hkept : ∀ k < i, Kept vol (ρ.state k))
    (hm : ∀ e' ∈ m, Harmless vol e'.cmd) (hl : Listed (.image vol) dev l) :
    ∀ lp ∈ (ρ.state i).world.loopsOf (.image vol), lp.dev = dev := by
  obtain ⟨t, devs, l', rfl, rfl⟩ := hl
  refine kept_since (A := fun s => ∀ lp ∈ s.loopsOf (.image vol), lp.dev = devs.headD "")
    (fun s s' h hs lp' hlp' => ?_) hi ht hm ?_
  · obtain ⟨lp, hlp, hdev, -⟩ := h.loops lp' hlp'
    rw [← hdev]
    exact hs lp hlp
  · obtain ⟨hlt, o, k, -, -, hans⟩ := hlog.head
    obtain ⟨heq, hdevs⟩ := attached_ok hans
    rw [heq, hdevs]
    exact dev_of_mem (hkept t hlt).one

theorem detached_of_onlyDev {s : Host} (h : ∀ lp ∈ s.loopsOf (.image vol), lp.dev = "") :
    s.loopsOf (.image vol) = [] :=
  List.eq_nil_iff_forall_not_mem.mpr fun lp hlp => lp.named (h lp hlp)

/-- An image that may be removed has no loop device. -/
theorem detached_of_freed (hi : i ≤ N)
    (ht : (ρ.state i).threads.lookup () = some ⟨job, e :: l, p⟩)
    (hlog : Workers.LogTrue ρ () job (e :: l) i) (hkept : ∀ k < i, Kept vol (ρ.state k))
    (he : ∃ link, e.cmd = .unlink link) (hl : Freed vol l) :
    (ρ.state i).world.loopsOf (.image vol) = [] := by
  have hharm : ∀ e' ∈ [e], Harmless vol e'.cmd := fun e' he' => by
    obtain ⟨link, hlink⟩ := he
    rw [List.mem_singleton.mp he', hlink]
    trivial
  rcases hl with hl | ⟨t, t', r, dev, l', rfl, hl⟩
  · exact detached_of_onlyDev (onlyDev_of_listed (m := [e]) hi ht hlog hkept hharm hl)
  · refine kept_since (m := [e]) (fun _ _ => Follows.detached) hi ht hharm ?_
    obtain ⟨hlt, ⟨o, k, -, ht', hans⟩, hlog'⟩ := hlog.2.2
    have hlt : t < i := hlt.trans hlog.1
    have hdev := onlyDev_of_listed (m := [⟨t', .lsblk dev, r⟩]) (Nat.le_of_lt (hlt.trans_le hi))
      ht' hlog' (fun k hk => hkept k (hk.trans hlt)) (fun e' he' => by
        rw [List.mem_singleton.mp he']
        trivial) hl
    refine List.eq_nil_iff_forall_not_mem.mpr fun lp hlp => ?_
    rw [detach_ok hans] at hlp
    obtain ⟨hmem, hfile⟩ := List.mem_filter.mp hlp
    obtain ⟨hmem, hne⟩ := List.mem_filter.mp hmem
    exact absurd (hdev lp (List.mem_filter.mpr ⟨hmem, hfile⟩)) (by simpa using hne)

/-- A file that is moved to the path of the image finds none there. -/
theorem missing_of_missed (hi : i ≤ N)
    (ht : (ρ.state i).threads.lookup () = some ⟨job, e :: l, p⟩)
    (hlog : Workers.LogTrue ρ () job (e :: l) i) (he : Makes job (.image vol) e)
    (hl : Missed (.image vol) l) : (ρ.state i).world.file (.image vol) = none := by
  obtain ⟨t, l', rfl⟩ := hl
  refine kept_since (m := [e]) (fun _ _ h => h.none_iff.mpr) hi ht (fun e' he' => ?_) ?_
  · rw [List.mem_singleton.mp he']
    cases he <;> exact File.noConfusion
  · obtain ⟨-, ⟨o, k, -, -, hans⟩, -⟩ := hlog.2.2
    obtain ⟨heq, hnone⟩ := stat_missing hans
    rw [heq]
    exact hnone

/-- A command keeps what holds of the image, unless it is one of a resize that grows the file. -/
theorem kept_of_reply (hi : i < N) (hkept : ∀ k ≤ i, Kept vol (ρ.state k)) {o : Outcome} {c : Cmd}
    {k : Ans c → LoopM Result} {r : Ans c}
    (ht : (ρ.state i).threads.lookup () = some ⟨job, l, .ask c k⟩)
    (hans : answer (ρ.state i).world c o = some (r, s')) :
    Attached vol s' ∧ (Exposed vol (ρ.state i).world → Exposed vol s' ∨
      ∃ n, job = .resize vol n ∧ c = .truncate n (.image vol)) := by
  have hle := Nat.le_of_lt hi
  obtain ⟨⟨hg, -⟩, hlog⟩ :=
    thread_obeys ρ (G := fun _ j => Guard j) (fun _ _ => obeys_program) hle ht
  have hpast : ∀ k < i, Kept vol (ρ.state k) := fun k hk => hkept k (Nat.le_of_lt hk)
  have hatt := (hkept i (Nat.le_refl i)).toAttached
  by_cases hharm : Harmless vol c
  · have hf := follows_of_harmless hharm hans
    exact ⟨hf.attached hatt, fun h => .inl (hf.exposed h)⟩
  have hsound {s : Host} (hs : Sound vol s) : Attached vol s ∧
      (Exposed vol (ρ.state i).world → Exposed vol s ∨
        ∃ n, job = .resize vol n ∧ c = .truncate n (.image vol)) :=
    ⟨hs.toAttached, fun _ => .inl hs.exposed⟩
  cases effect_of_answer hans with
  | same => exact ⟨hatt, fun h => .inl h⟩
  | truncated | touched =>
    obtain rfl := not_not.mp hharm
    rcases hg with ⟨_, -, hf⟩ | ⟨v, t, m, l', rfl, hf, -⟩
    · cases hf
    cases hf
    exact ⟨attached_of_truncate hatt hans, fun _ => .inr ⟨_, rfl, rfl⟩⟩
  | copied | short =>
    obtain ⟨f, -, rfl⟩ := hg
    exact absurd File.noConfusion hharm
  | moved =>
    obtain ⟨rfl, e, l', rfl, he, hl⟩ := hg
    obtain rfl := not_not.mp fun hd => hharm ⟨File.noConfusion, hd⟩
    exact hsound (.of_detached (hatt.backed (missing_of_missed hle ht hlog he hl)))
  | removed =>
    obtain ⟨e, l', rfl, he, hl⟩ := hg vol (not_not.mp hharm)
    exact hsound (.of_detached (detached_of_freed hle ht hlog hpast he hl))
  | found hbytes =>
    obtain rfl := not_not.mp hharm
    have hnone := detached_of_onlyDev (onlyDev_of_listed (m := []) hle ht hlog hpast
      (fun _ h => nomatch h) hg)
    exact hsound (.of_found hnone hbytes)
  | refreshed | detached | linked | unlinked => exact absurd trivial hharm

/-- A resize that has come to its end with success leaves no device smaller than it was asked for,
or than the file. -/
theorem exposed_of_enlarged (hi : i ≤ N) (hkept : ∀ k ≤ i, Kept vol (ρ.state k))
    (ht : (ρ.state i).threads.lookup () = some ⟨.resize vol n, l, p⟩)
    (hlog : Workers.LogTrue ρ () (.resize vol n) l i) (h : Enlarged vol n l) :
    Exposed vol (ρ.state i).world ∧
      ∀ lp ∈ (ρ.state i).world.loopsOf (.image vol), n ≤ lp.capacity := by
  have hpast : ∀ k < i, Kept vol (ρ.state k) := fun k hk => hkept k (Nat.le_of_lt hk)
  have hsized (s s' : Host) (hf : Follows vol s s') (hs : n ≤ s.size (.image vol)) :
      n ≤ s'.size (.image vol) := hf.size_eq ▸ hs
  cases h with
  | @large t m hle =>
    have hexp : Exposed vol (ρ.state i).world := by
      refine (hkept i (Nat.le_refl i)).exposed ?_
      rintro ⟨n', l', p', ht', e, he, m', hm⟩
      rw [ht] at ht'
      cases ht'
      rw [List.mem_singleton.mp he] at hm
      cases hm
    have hsize := kept_since (m := []) hsized hi ht (fun _ h => nomatch h) (by
      obtain ⟨o, k, -, -, hans⟩ := hlog.2.1
      obtain ⟨heq, bytes, hbytes, hm⟩ := statSize_ok hans
      rw [heq, Host.size, hbytes, Option.getD_some, hm]
      exact hle)
    exact ⟨hexp, fun lp hlp => Nat.le_trans hsize (hexp lp hlp)⟩
  | detached h =>
    have hnone := detached_of_onlyDev (onlyDev_of_listed (m := []) hi ht hlog hpast
      (fun _ h => nomatch h) h)
    exact ⟨(Sound.of_detached hnone).exposed, fun lp hlp => by simp [hnone] at hlp⟩
  | @refreshed t t' t'' devs l' =>
    obtain ⟨hlt, ⟨o, k, -, ht', hans⟩, hlog'⟩ := hlog
    have hti : t ≤ N := Nat.le_of_lt (Nat.lt_of_lt_of_le hlt hi)
    have hdev :=
      onlyDev_of_listed (m := []) hti ht' hlog' (fun k hk => hpast k (Nat.lt_trans hk hlt))
      (fun _ h => nomatch h) ⟨t', devs, _, rfl, rfl⟩
    have hsize := kept_since (m := [_]) hsized hti ht'
      (fun e' he' => by
        rw [List.mem_singleton.mp he']
        trivial) (by
      obtain ⟨-, ⟨o, k, -, -, hans⟩, -⟩ := hlog'.2.2
      rw [truncate_ok hans, Host.size_truncate])
    have hexp := exposed_of_refresh hdev hans
    obtain ⟨hexp, hsize⟩ := kept_since (m := [])
      (A := fun s => Exposed vol s ∧ n ≤ s.size (.image vol))
      (fun s s' hf hs => ⟨hf.exposed hs.1, hsized s s' hf hs.2⟩) hi ht (fun _ h => nomatch h)
      ⟨hexp, by rw [refresh_ok hans]; exact hsize⟩
    exact ⟨hexp, fun lp hlp => Nat.le_trans hsize (hexp lp hlp)⟩

/-- A step that ends a call leaves a device smaller than the file only if it interrupts a resize. -/
theorem exposed_of_end (hi : i < N) (hkept : ∀ k ≤ i, Kept vol (ρ.state k)) (hgaps : NoGaps vol ρ)
    (ha : ρ.act i = .crash () ∨ ρ.act i = .finish () ∧
      ∃ job l a, (ρ.state i).threads.lookup () = some ⟨job, l, .ret a⟩) :
    Exposed vol (ρ.state i).world := by
  have hle := Nat.le_of_lt hi
  by_cases hgrow : Growing vol (ρ.state i)
  · obtain ⟨n, l, p, ht, -⟩ := hgrow
    rcases ha with ha | ⟨ha, job, l', a, ht'⟩
    · exact hgaps i hi (by simp [interrupted, ht, ha])
    · rw [ht] at ht'
      cases ht'
      obtain ⟨hdone, hlog⟩ := thread_obeys ρ (G := fun _ j => Guard j) (Q := fun _ j => Done j)
        (fun _ _ => obeys_program) hle ht
      obtain ⟨res, rfl, hres⟩ := hdone vol n rfl
      rcases res with (e | _)
      · exact hgaps i hi (by simp [interrupted, ht, ha])
      · exact (exposed_of_enlarged hle hkept ht hlog (hres rfl)).1
  · exact (hkept i (Nat.le_refl i)).exposed hgrow

theorem kept_step (hi : i < N) (hkept : ∀ k ≤ i, Kept vol (ρ.state k)) (hgaps : NoGaps vol ρ) :
    Kept vol (ρ.state (i + 1)) := by
  have hlast := hkept i (Nat.le_refl i)
  have hend := exposed_of_end hi hkept hgaps
  have hstep := Workers.stepped_of_step (ρ.next i hi)
  generalize ρ.state (i + 1) = c' at hstep
  generalize ρ.act i = a at hstep hend
  cases hstep with
  | start hnone =>
    refine ⟨hlast.toAttached, fun _ => hlast.exposed ?_⟩
    rintro ⟨n, l, p, ht, -⟩
    rw [hnone] at ht
    cases ht
  | @reply w o job l c k r s ht hans =>
    obtain ⟨hatt, hexp⟩ := kept_of_reply hi hkept ht hans
    refine ⟨hatt, fun hgrow => ?_⟩
    have hold : ¬Growing vol (ρ.state i) := by
      rintro ⟨n, l', p', ht', e, he, hm⟩
      rw [ht] at ht'
      cases ht'
      exact hgrow ⟨n, _, _, AList.lookup_insert _, e, .tail _ he, hm⟩
    refine (hexp (hlast.exposed hold)).resolve_right ?_
    rintro ⟨n, rfl, rfl⟩
    exact hgrow ⟨n, _, _, AList.lookup_insert _, _, .head _, n, rfl⟩
  | finish h => exact ⟨hlast.toAttached, fun _ => hend (.inr ⟨rfl, _, _, _, h⟩)⟩
  | crash => exact ⟨hlast.toAttached, fun _ => hend (.inl rfl)⟩
  | event hs =>
    have hf : Follows vol _ _ := follows_of_event hs
    exact ⟨hf.attached hlast.toAttached, fun h => hf.exposed (hlast.exposed h)⟩

/-- When a resize of the volume has returned success, its loop device has at least the requested
size. -/
theorem resize_honest {ρ : Run (calls baseDir).step (init s₀) N} (h₀ : Sound vol s₀)
    (hgaps : NoGaps vol ρ) (hi : i ≤ N) {n : Nat} {log : LoopLog}
    (hret : (ρ.state i).threads.lookup () = some ⟨.resize vol n, log, .ret (.done (.ok ()))⟩) :
    ∀ l ∈ (ρ.state i).world.loopsOf (.image vol), n ≤ l.capacity := by
  have hkept : ∀ k ≤ i, Kept vol (ρ.state k) := fun k hk =>
    ρ.invariant (P := fun i _ => ∀ k ≤ i, Kept vol (ρ.state k))
      (fun k hk => by
        rw [Nat.le_zero.mp hk, ρ.start]
        exact ⟨h₀.toAttached, fun _ => h₀.exposed⟩)
      (fun i hi ih k hk => (Nat.le_succ_iff.mp hk).elim (ih k)
        fun h => h ▸ kept_step hi ih hgaps) hi k hk
  obtain ⟨hdone, hlog⟩ := thread_obeys ρ (G := fun _ j => Guard j) (Q := fun _ j => Done j)
    (fun _ _ => obeys_program) hi hret
  obtain ⟨res, heq, hres⟩ := hdone vol n rfl
  cases heq
  exact (exposed_of_enlarged hi hkept hret hlog (hres rfl)).2

end Runs

/-! ## A resize that is tried again -/

/-- The condition of `NoGaps` on one step. -/
def gapFree (vol : String) (c : Calls) (a : Act) : Bool :=
  !interrupted vol c a || decide (Exposed vol c.world)

theorem noGaps_of_allSteps {baseDir : String} {s₀ : Host} {as : List Act}
    (h : allSteps (calls baseDir).step (gapFree vol) (init s₀) as) :
    NoGaps vol (Run.ofActions _ _ _ _ h) := fun i hi hint => by
  have := Run.ofActions_spec h hi
  rw [gapFree, hint] at this
  simpa using this

/-- A volume of two bytes, a resize to four that is told these outcomes, and a second one. -/
def resizedTwice (first second : List Outcome) : List Act :=
  createdV ++ [.finish (), .start () (.resize "v" 4)] ++ replies () first ++
    [.finish (), .start () (.resize "v" 4)] ++ replies () second

/-- The first resize cannot read the size of the file. -/
def unread : List Act := resizedTwice [.fail "I/O error"] [.ok, .ok, .ok, .ok]

theorem unread_possible :
    allSteps (calls "/base").step (gapFree "v") (init {}) unread := by
  decide +kernel

def unreadRun : Run (calls "/base").step (init {}) unread.length :=
  Run.ofActions _ _ _ _ unread_possible

theorem resize_honest_unread :
    (unreadRun.state 17).world.loopsOf (.image "v") ≠ [] ∧
      ∀ l ∈ (unreadRun.state 17).world.loopsOf (.image "v"), 4 ≤ l.capacity :=
  ⟨by decide +kernel,
    resize_honest (.of_detached rfl) (noGaps_of_allSteps unread_possible) (by decide) rfl⟩

/-- The first resize grows the file and cannot refresh the device. -/
def unrefreshed : List Act :=
  resizedTwice [.ok, .ok, .ok, .fail "Resource temporarily unavailable"] [.ok]

theorem unrefreshed_possible :
    allSteps (calls "/base").step (fun _ _ => true) (init {}) unrefreshed := by
  decide +kernel

def unrefreshedRun : Run (calls "/base").step (init {}) unrefreshed.length :=
  Run.ofActions _ _ _ _ unrefreshed_possible

/-- The second finds the file large enough: it succeeds, and the device has two bytes still. -/
theorem retried_resize :
    (∃ log, (unrefreshedRun.state 17).threads.lookup () =
      some ⟨.resize "v" 4, log, .ret (.done (.ok ()))⟩) ∧
    ((unrefreshedRun.state 17).world.loopsOf (.image "v")).map Loop.capacity = [2] :=
  ⟨⟨_, rfl⟩, by decide +kernel⟩

end Miroir.Loopfile
