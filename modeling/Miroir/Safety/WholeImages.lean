import Miroir.Backend.LoopfileSpec
import Miroir.Process.Calls

/-!
# Whole images

What lies at the path of an image or a snapshot was put there as a whole: it is the zeros of a
`Create`, or a copy of what its source contained when the copy was made, and after that only a write
or a `Resize` has changed it (`images_whole`). For the zeros, no `Create` may start from a temporary
file that a `CreateFromSnapshot` has left: `truncate` keeps what is in it (`leftover_of_clone`).
-/

namespace Miroir.Loopfile

open Process Workers Prog

variable {baseDir vol : String} {s s' s₀ : Host} {N i : ℕ}

/-! ## Files -/

/-- The path of an image or a snapshot, not a temporary one. -/
def File.final : File → Prop
  | .tmp _ => False
  | _ => True

/-- An event changes only images. -/
def OnlyImages (s s' : Host) : Prop := ∀ f, (∀ vol, f ≠ .image vol) → s'.file f = s.file f

theorem onlyImages_of_event {e : Event} (h : event s e = some s') : OnlyImages s s' := by
  intro f hf
  cases e with
  | reboot =>
    cases h
    rfl
  | write vol bytes =>
    obtain ⟨old, -, h⟩ := Option.bind_eq_some_iff.mp h
    split at h
    · cases h
      exact Host.file_setFile_ne (hf vol)
    · cases h

/-- An image that an event changes is written. -/
theorem written_of_event {e : Event} {f : File} {bytes : Bytes} (h : event s e = some s')
    (hnew : s'.file f = some bytes) (hne : s.file f ≠ some bytes) :
    ∃ vol, f = .image vol ∧ e = .write vol bytes := by
  cases e with
  | reboot =>
    cases h
    exact absurd hnew hne
  | write vol bytes' =>
    obtain ⟨old, -, h⟩ := Option.bind_eq_some_iff.mp h
    split at h
    · cases h
      by_cases hf : f = .image vol
      · subst hf
        rw [Host.file_setFile] at hnew
        cases hnew
        exact ⟨vol, rfl, rfl⟩
      · rw [Host.file_setFile_ne hf] at hnew
        exact absurd hnew hne
    · cases h

/-! ## Temporary files -/

section Runs

variable {ρ : Run (calls baseDir).step (init s₀) N}

variable {n : Nat} {bytes : Bytes} {job : Job} {f : File}

/-- The file reads as zeros throughout. -/
def AllZero (bytes : Bytes) : Prop := ∃ n, bytes = zeros n

theorem takeD_zeros {m : Nat} : (zeros m).takeD n 0 = zeros n := by
  induction n generalizing m with
  | zero => rfl
  | succ n ih =>
    cases m with
    | zero => exact congrArg (List.cons 0) (ih (m := 0))
    | succ m => exact congrArg (List.cons 0) ih

theorem takeD_of_le (h : bytes.length ≤ n) :
    bytes.takeD n 0 = bytes ++ zeros (n - bytes.length) := by
  induction bytes generalizing n with
  | nil => exact takeD_zeros (m := 0)
  | cons b bytes ih =>
    cases n with
    | zero => cases h
    | succ n =>
      rw [List.takeD_succ, List.tail_cons, ih (Nat.le_of_succ_le_succ h), List.length_cons,
        Nat.add_sub_add_right]
      rfl

theorem allZero_truncate {o : Option Bytes} (h : ∀ bytes ∈ o, AllZero bytes) :
    (o.getD []).takeD n 0 = zeros n := by
  cases o with
  | none => exact takeD_zeros (m := 0)
  | some bytes =>
    obtain ⟨m, rfl⟩ := h bytes rfl
    exact takeD_zeros

/-- A copy to the temporary file of the volume's image was asked at moment `k`, and the file has
been there ever since. -/
def Copied (ρ : Run (calls baseDir).step (init s₀) N) (vol : String) (k i : ℕ) : Prop :=
  (∃ q src, asked (ρ.state k) (ρ.act k) = some q ∧ q.cmd = .reflink src (.tmp (.image vol))) ∧
    ∀ j, k < j → j ≤ i → (ρ.state j).world.file (.tmp (.image vol)) ≠ none

theorem Makes.final {e : Entry Nat Ans} (h : Makes job f e) : f.final := by
  cases h with
  | created _ hdst =>
    subst hdst
    trivial
  | copied hjob =>
    cases job with
    | createFromSnapshot | snapshot =>
      obtain ⟨-, rfl⟩ := hjob
      trivial
    | _ => cases hjob

theorem Copied.succ {k : ℕ} (h : Copied ρ vol k i)
    (hnew : (ρ.state (i + 1)).world.file (.tmp (.image vol)) ≠ none) : Copied ρ vol k (i + 1) := by
  refine ⟨h.1, fun j hkj hj => ?_⟩
  rcases Nat.lt_or_eq_of_le hj with hlt | rfl
  · exact h.2 j hkj (Nat.le_of_lt_succ hlt)
  · exact hnew

/-- The temporary file of an image holds zeros, or what a copy has left. -/
theorem tmp_zero (h₀ : ∀ vol bytes, s₀.file (.tmp (.image vol)) = some bytes → AllZero bytes)
    (hi : i ≤ N)
    (h : (ρ.state i).world.file (.tmp (.image vol)) = some bytes) :
    AllZero bytes ∨ ∃ k < i, Copied ρ vol k i := by
  refine ρ.invariant (P := fun i c => ∀ bytes, c.world.file (.tmp (.image vol)) = some bytes →
    AllZero bytes ∨ ∃ k < i, Copied ρ vol k i) (fun bytes h => .inl (h₀ vol bytes h))
    (fun i hi ih bytes hnew => ?_) hi bytes h
  have hsome : (ρ.state (i + 1)).world.file (.tmp (.image vol)) ≠ none := by
    rw [hnew]
    exact Option.some_ne_none bytes
  have hold {old : Bytes} (h : (ρ.state i).world.file (.tmp (.image vol)) = some old) :
      AllZero old ∨ ∃ k < i + 1, Copied ρ vol k (i + 1) :=
    (ih old h).imp_right fun ⟨k, hk, hc⟩ => ⟨k, Nat.lt_succ_of_lt hk, hc.succ hsome⟩
  rcases world_cases ρ hi with heq | ⟨e, -, he⟩ | ⟨w, job, c, r, log, o, k, ha, ht, hans⟩
  · exact hold (heq ▸ hnew)
  · exact hold ((onlyImages_of_event he _ fun _ => File.noConfusion).symm.trans hnew)
  · obtain ⟨⟨hasked, -⟩, -⟩ := thread_obeys ρ (G := fun _ j => Guard j) (fun _ _ => obeys_program)
      (Nat.le_of_lt hi) ht
    cases (effect_of_answer hans).leaves hnew with
    | kept h => exact hold h
    | truncated h =>
      cases hfile : (ρ.state i).world.file (.tmp (.image vol)) with
      | none =>
        rw [hfile] at h
        exact .inl ⟨_, h.trans (takeD_zeros (m := 0))⟩
      | some old =>
        rw [hfile] at h
        refine (hold hfile).imp_left fun ⟨m, hm⟩ => ?_
        subst hm
        exact ⟨_, h.trans takeD_zeros⟩
    | touched _ hb => exact .inl ⟨0, hb⟩
    | moved =>
      obtain ⟨-, e, l', -, he, -⟩ := hasked
      exact (he.final).elim
    | @copied src =>
      refine .inr ⟨i, Nat.lt_succ_self i, ⟨⟨w, job, log, _⟩, src, ?_, rfl⟩, fun j hj hj' => ?_⟩
      · simp only [ha, asked, ht]
      · obtain rfl : j = i + 1 := by omega
        exact hsome

/-! ## Where images come from -/

/-- How the content of an image or a snapshot comes about in a step. -/
inductive Origin (ρ : Run (calls baseDir).step (init s₀) N) (i : ℕ) : File → Bytes → Prop
  /-- The volume is written. -/
  | written {vol : String} {bytes : Bytes} (h : ρ.act i = .event (.write vol bytes)) :
      Origin ρ i (.image vol) bytes
  /-- A `Create` puts a file of its size in place; the file is zeros, if the call has not found a
  temporary file that a copy had left. -/
  | created {vol : String} {n k : Nat} {q : Query Unit Job Ans} {bytes : Bytes}
      (h : asked (ρ.state i) (ρ.act i) = some q) (hjob : q.job = .create vol n)
      (hmade : ⟨k, .truncate n (.tmp (.image vol)), .ok ()⟩ ∈ q.log) (hsize : bytes.length = n)
      (hzero : (∀ k' < k, ¬ Copied ρ vol k' k) → bytes = zeros n) : Origin ρ i (.image vol) bytes
  /-- A `Resize` adds zeros. -/
  | resized {vol : String} {n : Nat} {q : Query Unit Job Ans} {old : Bytes}
      (h : asked (ρ.state i) (ρ.act i) = some q) (hjob : q.job = .resize vol n)
      (hold : (ρ.state i).world.file (.image vol) = some old) (hlt : old.length < n) :
      Origin ρ i (.image vol) (old ++ zeros (n - old.length))
  /-- A call puts in place what its source contained at moment `k`, when it was told that its copy
  has succeeded. -/
  | copied {src f : File} {k : ℕ} {q : Query Unit Job Ans} {bytes : Bytes}
      (h : asked (ρ.state i) (ρ.act i) = some q) (hjob : q.job.copies src f)
      (hcopy : ⟨k, .reflink src (.tmp f), .ok ()⟩ ∈ q.log)
      (hsrc : (ρ.state k).world.file src = some bytes) : Origin ρ i f bytes

/-- A file keeps its size through an event. -/
theorem sizes_of_event {e : Event} (h : event s e = some s') (f : File) :
    (s'.file f).map List.length = (s.file f).map List.length := by
  cases e with
  | reboot =>
    cases h
    rfl
  | write vol bytes =>
    obtain ⟨old, hold, h⟩ := Option.bind_eq_some_iff.mp h
    split at h
    · rename_i hlen
      cases h
      by_cases hf : f = .image vol
      · subst hf
        rw [Host.file_setFile, hold, Option.map_some, Option.map_some, hlen]
      · rw [Host.file_setFile_ne hf]
    · cases h

/-- A file has the size that was read last. -/
theorem size_since {t m : Nat} {l : LoopLog} {p : LoopM Result} (hi : i ≤ N)
    (ht : (ρ.state i).threads.lookup () = some ⟨job, ⟨t, .statSize f, .ok m⟩ :: l, p⟩)
    (hlog : Workers.LogTrue ρ () job (⟨t, .statSize f, .ok m⟩ :: l) i) :
    ∃ old, (ρ.state i).world.file f = some old ∧ old.length = m := by
  refine Option.map_eq_some_iff.mp (Calls.since_told (m := []) (K := fun _ => False) ρ
    (A := fun s => (s.file f).map List.length = some m)
    (fun _ _ _ he h => (sizes_of_event he f).trans h) (fun _ _ _ _ _ _ h => h.elim) hi ht
    (fun _ h => nomatch h) ?_)
  obtain ⟨o, k, -, -, htold⟩ := hlog.2.1
  obtain ⟨heq, bytes, hbytes, hlen⟩ := statSize_ok htold
  rw [heq, hbytes, Option.map_some, hlen]

/-- A temporary file is as it was when the call was told the newest entry of its log. -/
theorem tmp_since {e : Entry Nat Ans} {l : LoopLog} {p : LoopM Result}
    (ht : (ρ.state i).threads.lookup () = some ⟨job, e :: l, p⟩) (hi : i ≤ N) :
    (ρ.state i).world.file (.tmp f) = (ρ.state (e.time + 1)).world.file (.tmp f) :=
  Calls.since_told (m := []) (K := fun _ => False) ρ
    (A := fun s => s.file (.tmp f) = (ρ.state (e.time + 1)).world.file (.tmp f))
    (fun _ _ _ he h => (onlyImages_of_event he _ fun _ => File.noConfusion).trans h)
    (fun _ _ _ _ _ _ h => h.elim) hi ht (fun _ h => nomatch h) rfl

theorem origin_of_step (h₀ : ∀ vol bytes, s₀.file (.tmp (.image vol)) = some bytes → AllZero bytes)
    (hi : i < N) (hf : f.final)
    (hnew : (ρ.state (i + 1)).world.file f = some bytes)
    (hne : (ρ.state i).world.file f ≠ some bytes) : Origin ρ i f bytes := by
  rcases world_cases ρ hi with heq | ⟨e, ha, he⟩ | ⟨w, job, c, r, log, o, k, ha, ht, hans⟩
  · exact absurd (heq ▸ hnew) hne
  · obtain ⟨vol, rfl, rfl⟩ := written_of_event he hnew hne
    exact .written ha
  have hq : asked (ρ.state i) (ρ.act i) = some ⟨w, job, log, c⟩ := by simp only [ha, asked, ht]
  obtain ⟨⟨hasked, -⟩, hlog⟩ := thread_obeys ρ (G := fun _ j => Guard j)
    (fun _ _ => obeys_program) (Nat.le_of_lt hi) ht
  cases (effect_of_answer hans).leaves hnew with
  | kept h => exact absurd h hne
  | truncated h =>
    rcases hasked with ⟨vol, -, rfl⟩ | ⟨vol, t, m, l', rfl, rfl, hlt, rfl⟩
    · cases hf
    · obtain ⟨old, hold, rfl⟩ := size_since (Nat.le_of_lt hi) ht hlog
      rw [h, hold, Option.getD_some, takeD_of_le (Nat.le_of_lt hlt)]
      exact .resized hq rfl hold hlt
  | touched h =>
    rcases hasked with ⟨vol, -, rfl⟩ | ⟨vol, t, m, l', rfl, rfl, -, rfl⟩
    · cases hf
    · obtain ⟨old, hold, -⟩ := size_since (Nat.le_of_lt hi) ht hlog
      exact absurd (hold.symm.trans h) (Option.some_ne_none old)
  | copied =>
    obtain ⟨f', -, rfl⟩ := hasked
    cases hf
  | moved hsrc =>
    cases w
    obtain ⟨rfl, e, l', rfl, he, -⟩ := hasked
    cases he with
    | @created t vol n hjob hdst =>
      subst hjob hdst
      have hmade := tmp_since (f := .image vol) ht (Nat.le_of_lt hi)
      have ht' : t < N := Nat.lt_trans hlog.1 hi
      have hzero (hu : ∀ k' < t, ¬ Copied ρ vol k' t) :
          ∀ old ∈ (ρ.state t).world.file (.tmp (.image vol)), AllZero old := fun old hold =>
        (tmp_zero h₀ (Nat.le_of_lt ht') hold).resolve_right (by push Not; exact hu)
      obtain ⟨o', k', -, -, hans'⟩ := hlog.2.1
      rw [truncate_ok hans', Host.truncate, Host.file_setFile, hsrc] at hmade
      cases hmade
      exact .created hq rfl (.head _) (List.takeD_length n _ 0)
        fun hu => allZero_truncate (hzero hu)
    | copied hcopy =>
      have hmade := tmp_since (f := f) ht (Nat.le_of_lt hi)
      obtain ⟨o', k', -, -, hans'⟩ := hlog.2.1
      obtain ⟨bytes', hbytes, heq⟩ := reflink_ok hans'
      rw [heq, Host.file_setFile, hsrc] at hmade
      cases hmade
      exact .copied hq hcopy (.head _) hbytes

/-- Every image and every snapshot is as it was put in place, unless it was there from the start. -/
theorem images_whole
    (h₀ : ∀ vol bytes, s₀.file (.tmp (.image vol)) = some bytes → AllZero bytes)
    (hi : i ≤ N) {f : File} (hf : f.final) {bytes : Bytes}
    (h : (ρ.state i).world.file f = some bytes) :
    (∀ k ≤ i, (ρ.state k).world.file f = some bytes) ∨
      ∃ j < i, Origin ρ j f bytes ∧ ∀ k, j < k → k ≤ i → (ρ.state k).world.file f = some bytes := by
  induction i with
  | zero =>
    refine .inl fun k hk => ?_
    rw [Nat.le_zero.mp hk]
    exact h
  | succ i ih =>
    by_cases hold : (ρ.state i).world.file f = some bytes
    · rcases ih (Nat.le_of_succ_le hi) hold with hall | ⟨j, hj, ho, hall⟩
      · refine .inl fun k hk => ?_
        rcases Nat.lt_or_eq_of_le hk with hlt | rfl
        · exact hall k (Nat.le_of_lt_succ hlt)
        · exact h
      · refine .inr ⟨j, Nat.lt_succ_of_lt hj, ho, fun k hjk hk => ?_⟩
        rcases Nat.lt_or_eq_of_le hk with hlt | rfl
        · exact hall k hjk (Nat.le_of_lt_succ hlt)
        · exact h
    · refine .inr ⟨i, Nat.lt_succ_self i, origin_of_step h₀ hi hf h hold, fun k hik hk => ?_⟩
      obtain rfl : k = i + 1 := by omega
      exact h

end Runs

/-! ## A clone that is stopped -/

/-- A volume with content, a snapshot of it, and the clone of the snapshot up to its copy. -/
def copiedBeside : List Act :=
  createdV ++ [.finish (), .event (.write "v" [7, 7]), .start () (.snapshot "v" "s")] ++
    replies () [.ok, .ok, .ok] ++ [.finish (), .start () (.createFromSnapshot "w" "s")] ++
    replies () [.ok, .ok]

/-- The copy is moved to its path. -/
def cloned : List Act := copiedBeside ++ [.reply () .ok]

theorem cloned_possible :
    allSteps (calls "/base").step (fun _ _ => true) (init {}) cloned := by
  decide +kernel

def clonedRun : Run (calls "/base").step (init {}) cloned.length :=
  Run.ofActions _ _ _ _ cloned_possible

theorem images_whole_cloned :
    (∀ k ≤ 19, (clonedRun.state k).world.file (.image "w") = some [7, 7]) ∨
      ∃ j < 19, Origin clonedRun j (.image "w") [7, 7] ∧
        ∀ k, j < k → k ≤ 19 → (clonedRun.state k).world.file (.image "w") = some [7, 7] :=
  images_whole (fun _ _ h => by cases h) (by decide) (f := .image "w") trivial (by decide +kernel)

/-- The agent crashes before the move. The snapshot is deleted, and the volume is created afresh. -/
def createdAfter : List Act :=
  copiedBeside ++ [.crash (), .start () (.deleteSnapshot "s"), .reply () .ok, .finish (),
    .start () (.create "w" 2)] ++ replies () [.ok, .ok, .ok]

theorem createdAfter_possible :
    allSteps (calls "/base").step (fun _ _ => true) (init {}) createdAfter := by
  decide +kernel

def createdAfterRun : Run (calls "/base").step (init {}) createdAfter.length :=
  Run.ofActions _ _ _ _ createdAfter_possible

/-- The `Create` puts the leftover of the clone in place. -/
theorem leftover_of_clone :
    (∃ q, asked (createdAfterRun.state 25) (createdAfterRun.act 25) = some q ∧
      q.job = .create "w" 2 ∧ q.cmd = .mv (.tmp (.image "w")) (.image "w")) ∧
    (createdAfterRun.state 25).world.file (.image "w") = none ∧
    (createdAfterRun.state 26).world.file (.image "w") = some [7, 7] ∧
    [7, 7] ≠ zeros 2 :=
  ⟨⟨_, rfl, rfl, rfl⟩, by decide +kernel, by decide +kernel, by decide +kernel⟩

end Miroir.Loopfile
