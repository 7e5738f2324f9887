import Miroir.Backend.Loopfile

/-!
# What the loopfile backend asks

One specification of all calls: a file is moved to its path only if it was missing there and right
after it was made under its temporary name, an image is attached or removed only after it was found
without a loop device, and grown only after it was found too small (`obeys_program`).
-/

namespace Miroir.Loopfile

open Process Prog

variable {baseDir vol snap dev : String} {job : Job} {l : LoopLog} {f : File} {n : Nat}

/-! ## Logs -/

/-- The file was just found missing. -/
def Missed (f : File) (l : LoopLog) : Prop := ∃ t l', l = ⟨t, .stat f, .error .noSuchFile⟩ :: l'

/-- The loop devices of the file were just listed, and this is the first; empty if there is none. -/
def Listed (f : File) (dev : String) (l : LoopLog) : Prop :=
  ∃ t devs l', l = ⟨t, .attached f, .ok devs⟩ :: l' ∧ devs.headD "" = dev

/-- The image was found without a loop device, or the one it had was detached. -/
def Freed (vol : String) (l : LoopLog) : Prop :=
  Listed (.image vol) "" l ∨ ∃ t t' r dev l',
    l = ⟨t, .detach dev, .ok ()⟩ :: ⟨t', .lsblk dev, r⟩ :: l' ∧ Listed (.image vol) dev l'

/-- The call copies the source to the file. -/
def Job.copies : Job → File → File → Prop
  | .createFromSnapshot vol snap, src, dst => src = .snapshot snap ∧ dst = .image vol
  | .snapshot vol snap, src, dst => src = .image vol ∧ dst = .snapshot snap
  | _, _, _ => False

/-- The entry makes the temporary file of the path. -/
inductive Makes (job : Job) (dst : File) : Entry Nat Ans → Prop
  | created {t : Nat} {vol : String} {n : Nat} (hjob : job = .create vol n)
      (hdst : dst = .image vol) :
      Makes job dst ⟨t, .truncate n (.tmp dst), .ok ()⟩
  | copied {t : Nat} {src : File} (hjob : job.copies src dst) :
      Makes job dst ⟨t, .reflink src (.tmp dst), .ok ()⟩

/-- When a command may be asked. -/
def Guard (job : Job) (l : LoopLog) : Cmd → Prop
  | .truncate n file => (∃ vol, job = .create vol n ∧ file = .tmp (.image vol)) ∨
      ∃ vol t m l', job = .resize vol n ∧ file = .image vol ∧ m < n ∧
        l = ⟨t, .statSize file, .ok m⟩ :: l'
  | .reflink src dst => ∃ f, job.copies src f ∧ dst = .tmp f
  | .mv src dst => src = .tmp dst ∧ ∃ e l', l = e :: l' ∧ Makes job dst e ∧ Missed dst l'
  | .find f => Listed f "" l
  | .rm files => ∀ vol, .image vol ∈ files → ∃ e l', l = e :: l' ∧
      (∃ link, e.cmd = .unlink link) ∧ Freed vol l'
  | _ => True

/-- How a resize comes to its end with success. -/
inductive Enlarged (vol : String) (n : Nat) : LoopLog → Prop
  | large {t m : Nat} (h : n ≤ m) : Enlarged vol n [⟨t, .statSize (.image vol), .ok m⟩]
  | detached {l : LoopLog} (h : Listed (.image vol) "" l) : Enlarged vol n l
  | refreshed {t t' t'' : Nat} {devs : List String} {l : LoopLog} :
      Enlarged vol n (⟨t, .refresh (devs.headD ""), .ok ()⟩ ::
        ⟨t', .attached (.image vol), .ok devs⟩ :: ⟨t'', .truncate n (.image vol), .ok ()⟩ :: l)

/-- What a call promises of its log. -/
def Done (job : Job) (l : LoopLog) (a : Result) : Prop :=
  ∀ vol n, job = .resize vol n → ∃ res, a = .done res ∧ (res = .ok () → Enlarged vol n l)

/-! ## Calls -/

theorem obeys_fileExists :
    Obeys (Guard job) (fun l' res => res = .ok false → Missed f l') l (fileExists f) := by
  refine obeys_call_bind trivial fun t r => ?_
  rcases r with ((_ | _) | _)
  · exact fun _ => ⟨t, l, rfl⟩
  · exact nofun
  · exact nofun

theorem obeys_loopDev :
    Obeys (Guard job) (fun l' res => ∀ dev, res = .ok dev →
      ∃ t devs, l' = ⟨t, .attached f, .ok devs⟩ :: l ∧ devs.headD "" = dev) l
      (loopDev baseDir f) := by
  refine obeys_call_bind trivial fun t r => ?_
  rcases r with (_ | devs)
  · exact fun _ h => by cases h
  · exact fun dev h => ⟨t, devs, rfl, Except.ok.inj h⟩

theorem obeys_attach :
    Obeys (Guard job) (fun _ _ => True) l (attach baseDir vol f) := by
  have hensure : Obeys (Guard job) (fun _ _ => True) l (ensureLoop baseDir f) := by
    refine obeys_loopDev.bind fun l' r hl => ?_
    rcases r with (_ | dev)
    · trivial
    dsimp only
    split
    · trivial
    · rename_i hempty
      obtain ⟨t, devs, rfl, hdevs⟩ := hl dev rfl
      refine obeys_call_bind ⟨t, devs, l, rfl, hdevs.trans (not_not.mp hempty)⟩ fun t r => ?_
      rcases r with (_ | _) <;> trivial
  refine hensure.bind fun l r _ => ?_
  rcases r with (_ | dev)
  · trivial
  refine obeys_call_bind trivial fun _ _ => obeys_call_bind trivial fun _ r => ?_
  rcases r with (_ | _) <;> trivial

theorem obeys_makeImage (hjob : job = .create vol n) (hm : Missed (.image vol) l) :
    Obeys (Guard job) (fun _ _ => True) l (makeImage baseDir n (.image vol)) := by
  refine obeys_call_bind (.inl ⟨vol, hjob, rfl⟩) fun t r => ?_
  rcases r with (_ | _)
  · trivial
  refine obeys_call_bind ⟨rfl, _, l, rfl, .created hjob rfl, hm⟩ fun t r => ?_
  rcases r with (_ | _) <;> trivial

theorem obeys_reflinkAtomic {src dst : File} (hjob : job.copies src dst) (hm : Missed dst l) :
    Obeys (Guard job) (fun _ _ => True) l (reflinkAtomic src dst) := by
  refine obeys_call_bind ⟨dst, hjob, rfl⟩ fun t r => ?_
  rcases r with (_ | _)
  · trivial
  · exact ⟨⟨rfl, _, l, rfl, .copied hjob, hm⟩, fun _ _ => trivial⟩

theorem obeys_ensureImage {make : File → LoopM (Except String Unit)}
    (hmake : ∀ l, Missed (.image vol) l →
      Obeys (Guard job) (fun _ _ => True) l (make (.image vol))) :
    Obeys (Guard job) (fun _ _ => True) l (ensureImage baseDir vol make) := by
  refine obeys_fileExists.bind fun l r hm => ?_
  rcases r with (_ | _ | _)
  · trivial
  · refine (hmake l (hm rfl)).bind fun l r _ => ?_
    rcases r with (_ | _)
    · trivial
    · exact obeys_attach
  · exact obeys_attach

theorem obeys_snapshot (hjob : job = .snapshot vol snap) :
    Obeys (Guard job) (fun _ _ => True) l (snapshot vol snap) := by
  have hcopy : job.copies (.image vol) (.snapshot snap) := by
    rw [hjob]
    exact ⟨rfl, rfl⟩
  refine obeys_fileExists.bind fun l r hm => ?_
  rcases r with (_ | _ | _)
  · trivial
  · refine (obeys_reflinkAtomic hcopy (hm rfl)).bind fun l r _ => ?_
    rcases r with (_ | _) <;> trivial
  · trivial

theorem obeys_detach :
    Obeys (Guard job) (fun l' res => res = .ok () → ∃ t t' r,
      l' = ⟨t, .detach dev, .ok ()⟩ :: ⟨t', .lsblk dev, r⟩ :: l) l (detach dev) := by
  have hheld : Obeys (Guard job) (fun l' _ => ∃ t r, l' = ⟨t, .lsblk dev, r⟩ :: l) l
    (held dev) := by
    refine obeys_call_bind trivial fun t r => ?_
    rcases r with _ | (_ | ⟨⟨_, _ | _⟩, _ | _⟩) <;> exact ⟨t, _, rfl⟩
  refine hheld.bind fun l' res ⟨t', r', hl⟩ => ?_
  rcases res with (_ | reason)
  · exact nofun
  dsimp only
  split
  · exact nofun
  · refine obeys_call_bind trivial fun t r => ?_
    rcases r with (_ | _)
    · exact nofun
    · exact fun _ => ⟨t, t', r', by rw [hl]⟩

theorem obeys_removeImage (hl : Freed vol l) :
    Obeys (Guard job) (fun _ _ => True) l (removeImage baseDir vol) := by
  refine obeys_call_bind trivial fun t r => ?_
  rcases r with (_ | _)
  · trivial
  refine obeys_call_bind (fun vol' hmem => ⟨_, l, rfl, ⟨_, rfl⟩, ?_⟩) fun t r => ?_
  · obtain rfl : vol' = vol := by simpa using hmem
    exact hl
  · rcases r with (_ | _) <;> trivial

theorem obeys_delete : Obeys (Guard job) (fun _ _ => True) l (delete baseDir vol) := by
  refine obeys_fileExists.bind fun l r _ => ?_
  rcases r with (_ | _ | _)
  · trivial
  · refine obeys_call_bind (fun vol' hmem => by simp at hmem) fun t r => ?_
    rcases r with (_ | _) <;> trivial
  · refine obeys_loopDev.bind fun l' r hl => ?_
    rcases r with (_ | dev)
    · trivial
    obtain ⟨t, devs, rfl, hdevs⟩ := hl dev rfl
    dsimp only
    split
    · subst dev
      exact obeys_removeImage (.inl ⟨t, devs, l, rfl, ‹_›⟩)
    · refine obeys_detach.bind fun l' r hdet => ?_
      rcases r with (_ | _)
      · trivial
      · obtain ⟨t₁, t₂, r, rfl⟩ := hdet rfl
        exact obeys_removeImage (.inr ⟨t₁, t₂, r, dev, _, rfl, t, devs, l, rfl, hdevs⟩)

theorem obeys_resize :
    Obeys (Guard (.resize vol n)) (fun l res => res = .ok () → Enlarged vol n l) []
      (resize baseDir vol n) := by
  have hfail {l : LoopLog} {e : String} :
      Obeys (Guard (.resize vol n)) (fun l (res : Except String Unit) => res = .ok () →
        Enlarged vol n l) l (.ret (.error e)) := nofun
  refine obeys_call_bind trivial fun t r => ?_
  rcases r with (_ | cur)
  · exact hfail
  dsimp only
  split
  · exact fun _ => .large ‹_›
  rename_i hlt
  refine obeys_call_bind (.inr ⟨vol, t, cur, [], rfl, rfl, Nat.lt_of_not_le hlt, rfl⟩) fun t r => ?_
  rcases r with (_ | _)
  · exact hfail
  refine obeys_loopDev.bind fun l r hl => ?_
  rcases r with (_ | dev)
  · exact hfail
  obtain ⟨t', devs, rfl, hdevs⟩ := hl dev rfl
  dsimp only
  split
  · subst dev
    exact fun _ => .detached ⟨t', devs, _, rfl, ‹_›⟩
  · refine obeys_call_bind trivial fun t r => ?_
    rcases r with (_ | _)
    · exact hfail
    · subst hdevs
      exact fun _ => .refreshed

theorem obeys_program : Obeys (Guard job) (Done job) [] (job.program baseDir) := by
  cases job with
  | create vol n =>
    exact (obeys_ensureImage fun _ => obeys_makeImage rfl).bind fun _ _ _ => nofun
  | createFromSnapshot vol snap =>
    have hcopy : (Job.createFromSnapshot vol snap).copies (.snapshot snap) (.image vol) :=
      ⟨rfl, rfl⟩
    refine (obeys_ensureImage fun l hm => ?_).bind fun _ _ _ => nofun
    refine (obeys_reflinkAtomic hcopy hm).bind fun l r _ => ?_
    rcases r with (_ | _) <;> trivial
  | resize vol n =>
    refine obeys_resize.bind fun l res hres => ?_
    rintro _ _ ⟨rfl⟩
    exact ⟨res, rfl, hres⟩
  | snapshot vol snap => exact (obeys_snapshot rfl).bind fun _ _ _ => nofun
  | delete vol => exact obeys_delete.bind fun _ _ _ => nofun
  | deleteSnapshot snap =>
    have hdel : Obeys (Guard (.deleteSnapshot snap)) (fun _ _ => True) []
      (deleteSnapshot snap) := by
      refine obeys_call_bind (fun vol' hmem => by simp at hmem) fun t r => ?_
      rcases r with (_ | _) <;> trivial
    exact hdel.bind fun _ _ _ => nofun

end Miroir.Loopfile
