import Miroir.Process.Program
import Miroir.Process.Run
import Mathlib.Data.List.AList

/-!
# Workers that run programs

`Workers` run programs over a shared world. A worker takes a job and runs its program: each
command it asks is answered from the world, which the answer may change, and the surroundings
choose the outcome. Workers interleave freely and may crash between any two commands; between
their commands the world changes by events of its own.

In every run from a world without threads, each entry of a thread's log is what its worker was told
at that moment (`LogTrue`), and a specification of the programs holds of every command asked and
every result returned (`thread_obeys`). What all events and answers respect relates the worlds of
any two moments (`world_related`).
-/

namespace Process

section Lookup

variable {κ V : Type*} [DecidableEq κ] {m : AList fun _ : κ => V} {k k' : κ} {v v' : V}

/-- What is looked up after an insertion has just been inserted, or is under another key. -/
theorem lookup_insert_cases (h : (m.insert k v).lookup k' = some v') :
    k' = k ∧ v' = v ∨ k' ≠ k ∧ m.lookup k' = some v' := by
  by_cases hk : k' = k
  · subst hk
    rw [AList.lookup_insert] at h
    exact .inl ⟨rfl, (Option.some.inj h).symm⟩
  · exact .inr ⟨hk, AList.lookup_insert_ne hk ▸ h⟩

theorem lookup_of_erase (h : (m.erase k).lookup k' = some v) : k' ≠ k ∧ m.lookup k' = some v := by
  by_cases hk : k' = k
  · rw [hk, AList.lookup_erase] at h
    cases h
  · exact ⟨hk, AList.lookup_erase_ne hk ▸ h⟩

end Lookup

/-- Programs by worker and job, the answers the world gives, and the events of the world. -/
structure Workers (S W J E O : Type) {C : Type} (R : C → Type) (α : Type) where
  program : W → J → Prog C R α
  answer : S → W → J → (c : C) → O → Option (R c × S)
  event : S → E → Option S
  /-- Whether a worker may start beside those that are running. -/
  admits : List W → W → Bool := fun _ _ => true

/-- A job under way: what it has asked and been told, and what is left of its program. -/
structure Thread (J : Type) {C : Type} (R : C → Type) (α : Type) where
  job : J
  log : Log Nat R
  prog : Prog C R α

/-- The world with the threads under way. -/
structure Conf (S W J : Type) {C : Type} (R : C → Type) (α : Type) where
  tick : Nat := 0
  world : S
  threads : AList fun _ : W => Thread J R α := ∅

/-- A step: a call starts, a command is answered, a crash, or an event. -/
inductive Act (W J E O : Type) where
  | start (w : W) (j : J)
  | reply (w : W) (o : O)
  | finish (w : W)
  | crash (w : W)
  | event (e : E)

/-- A command asked by a thread. -/
structure Query (W J : Type) {C : Type} (R : C → Type) where
  worker : W
  job : J
  log : Log Nat R
  cmd : C

variable {S W J E O C α : Type} {R : C → Type}

/-- The command a thread waits for. -/
def Thread.pending (t : Thread J R α) : Option C :=
  match t.prog with
  | .ask c _ => some c
  | .ret _ => none

/-- What a thread has returned. -/
def Thread.returned (t : Thread J R α) : Option α :=
  match t.prog with
  | .ask _ _ => none
  | .ret a => some a

instance inhabitedAct [Inhabited E] : Inhabited (Act W J E O) := ⟨.event default⟩

namespace Workers

variable [DecidableEq W] (sys : Workers S W J E O R α)

variable {w : W} {q : Query W J R} {jb : J} {l new : Log Nat R} {e : Entry Nat R}

/-- The world before any job. -/
def init (s : S) : Conf S W J R α := { world := s }

def step (c : Conf S W J R α) : Act W J E O → Option (Conf S W J R α)
  | .start w j =>
    match c.threads.lookup w with
    | none =>
      if sys.admits c.threads.keys w then
        some ⟨c.tick + 1, c.world, c.threads.insert w ⟨j, [], sys.program w j⟩⟩
      else none
    | some _ => none
  | .reply w o =>
    match c.threads.lookup w with
    | some ⟨j, log, .ask cmd k⟩ =>
      (sys.answer c.world w j cmd o).map fun r =>
        ⟨c.tick + 1, r.2, c.threads.insert w ⟨j, ⟨c.tick, cmd, r.1⟩ :: log, k r.1⟩⟩
    | _ => none
  | .finish w =>
    match c.threads.lookup w with
    | some ⟨_, _, .ret _⟩ => some ⟨c.tick + 1, c.world, c.threads.erase w⟩
    | _ => none
  | .crash w => some ⟨c.tick + 1, c.world, c.threads.erase w⟩
  | .event e => (sys.event c.world e).map fun s => ⟨c.tick + 1, s, c.threads⟩

/-- The command a step answers. -/
def asked (c : Conf S W J R α) : Act W J E O → Option (Query W J R)
  | .reply w _ =>
    match c.threads.lookup w with
    | some ⟨j, log, .ask cmd _⟩ => some ⟨w, j, log, cmd⟩
    | _ => none
  | _ => none

/-- Everything a step can do. -/
inductive Stepped (c : Conf S W J R α) : Act W J E O → Conf S W J R α → Prop
  | start {w : W} {j : J} (h : c.threads.lookup w = none)
      (ha : sys.admits c.threads.keys w = true) :
      Stepped c (.start w j) ⟨c.tick + 1, c.world, c.threads.insert w ⟨j, [], sys.program w j⟩⟩
  | reply {w : W} {o : O} {j : J} {log : Log Nat R} {cmd : C} {k : R cmd → Prog C R α}
      {r : R cmd} {s : S} (ht : c.threads.lookup w = some ⟨j, log, .ask cmd k⟩)
      (h : sys.answer c.world w j cmd o = some (r, s)) :
      Stepped c (.reply w o) ⟨c.tick + 1, s, c.threads.insert w ⟨j, ⟨c.tick, cmd, r⟩ :: log, k r⟩⟩
  | finish {w : W} {j : J} {log : Log Nat R} {a : α}
      (h : c.threads.lookup w = some ⟨j, log, .ret a⟩) :
      Stepped c (.finish w) ⟨c.tick + 1, c.world, c.threads.erase w⟩
  | crash {w : W} : Stepped c (.crash w) ⟨c.tick + 1, c.world, c.threads.erase w⟩
  | event {e : E} {s : S} (h : sys.event c.world e = some s) :
      Stepped c (.event e) ⟨c.tick + 1, s, c.threads⟩

variable {sys} {c c' : Conf S W J R α} {a : Act W J E O}

theorem stepped_of_step (h : sys.step c a = some c') : Stepped sys c a c' := by
  cases a with
  | start w j =>
    simp only [step] at h
    split at h
    · split at h
      · cases h
        exact .start ‹_› ‹_›
      · cases h
    · cases h
  | reply w o =>
    simp only [step] at h
    split at h
    · obtain ⟨⟨r, s⟩, hr, rfl⟩ := Option.map_eq_some_iff.mp h
      exact .reply ‹_› hr
    · cases h
  | finish w =>
    simp only [step] at h
    split at h
    · cases h
      exact .finish ‹_›
    · cases h
  | crash w =>
    cases h
    exact .crash
  | event e =>
    obtain ⟨s, hs, rfl⟩ := Option.map_eq_some_iff.mp h
    exact .event hs

theorem Stepped.tick (h : Stepped sys c a c') : c'.tick = c.tick + 1 := by
  cases h <;> rfl

/-- A thread after a step was there before, has just been started, or has just been told
something. -/
theorem Stepped.thread_cases (h : Stepped sys c a c') {t : Thread J R α}
    (ht : c'.threads.lookup w = some t) :
    (c.threads.lookup w = some t ∧ ∀ o, a ≠ .reply w o) ∨
      (∃ j, a = .start w j ∧ t = ⟨j, [], sys.program w j⟩) ∨
      ∃ o j log cmd k r, a = .reply w o ∧ c.threads.lookup w = some ⟨j, log, .ask cmd k⟩ ∧
        sys.answer c.world w j cmd o = some (r, c'.world) ∧
        t = ⟨j, ⟨c.tick, cmd, r⟩ :: log, k r⟩ := by
  cases h with
  | @start w' j h =>
    rcases lookup_insert_cases ht with ⟨rfl, rfl⟩ | ⟨-, ht⟩
    · exact .inr (.inl ⟨j, rfl, rfl⟩)
    · exact .inl ⟨ht, nofun⟩
  | @reply w' o j log cmd k r s h hans =>
    rcases lookup_insert_cases ht with ⟨rfl, rfl⟩ | ⟨hw, ht⟩
    · exact .inr (.inr ⟨o, j, log, cmd, k, r, rfl, h, hans, rfl⟩)
    · exact .inl ⟨ht, fun o h => hw (Act.reply.inj h).1.symm⟩
  | finish | crash => exact .inl ⟨(lookup_of_erase ht).2, nofun⟩
  | event h => exact .inl ⟨ht, nofun⟩

/-- The world after a step is the one before, or comes from an event or an answer. -/
theorem Stepped.world_cases (h : Stepped sys c a c') :
    c'.world = c.world ∨
      (∃ e, a = .event e ∧ sys.event c.world e = some c'.world) ∨
      ∃ w o j log cmd k r, a = .reply w o ∧ c.threads.lookup w = some ⟨j, log, .ask cmd k⟩ ∧
        sys.answer c.world w j cmd o = some (r, c'.world) := by
  cases h with
  | start | finish | crash => exact .inl rfl
  | reply ht hr => exact .inr (.inr ⟨_, _, _, _, _, _, _, rfl, ht, hr⟩)
  | event h => exact .inr (.inl ⟨_, rfl, h⟩)

theorem asked_eq_some (h : asked c a = some q) :
    ∃ o k, a = .reply q.worker o ∧
      c.threads.lookup q.worker = some ⟨q.job, q.log, .ask q.cmd k⟩ := by
  cases a with
  | reply w o =>
    simp only [asked] at h
    split at h
    · cases h
      exact ⟨o, _, rfl, ‹_›⟩
    · cases h
  | start | finish | crash | event => cases h

/-- Worker `w` is told these outcomes one after the other. -/
def replies (w : W) (os : List O) : List (Act W J E O) := os.map (.reply w)

/-! ## Runs -/

variable {s₀ : S} {N i j : ℕ} (ρ : Run sys.step (init s₀) N)

theorem tick_eq (hi : i ≤ N) : (ρ.state i).tick = i :=
  ρ.invariant (P := fun i c => c.tick = i) rfl
    (fun i hi h => by rw [(stepped_of_step (ρ.next i hi)).tick, h]) hi

/-- A preorder on worlds that every event and every answer respects. -/
theorem world_related {r : S → S → Prop} (hr : ∀ s, r s s)
    (ht : ∀ s t u, r s t → r t u → r s u)
    (hevent : ∀ s e s', sys.event s e = some s' → r s s')
    (hreply : ∀ s w j cmd o a s', sys.answer s w j cmd o = some (a, s') → r s s')
    (hij : i ≤ j) (hj : j ≤ N) : r (ρ.state i).world (ρ.state j).world := by
  refine ρ.related (r := fun c c' => r c.world c'.world) (fun c => hr c.world)
    (fun _ _ _ => ht _ _ _) hij hj fun k _ hk => ?_
  rcases (stepped_of_step (ρ.next k (Nat.lt_of_lt_of_le hk hj))).world_cases with heq |
    ⟨e, -, he⟩ | ⟨w, o, jb, log, cmd, kk, a, -, -, hans⟩
  · rw [heq]
    exact hr _
  · exact hevent _ e _ he
  · exact hreply _ w jb cmd o a _ hans

/-- Worker `w` was told `e` at moment `e.time`, with log `l` before. -/
def Told (w : W) (j : J) (e : Entry Nat R) (l : Log Nat R) : Prop :=
  ∃ o k, ρ.act e.time = .reply w o ∧
    (ρ.state e.time).threads.lookup w = some ⟨j, l, .ask e.cmd k⟩ ∧
    sys.answer (ρ.state e.time).world w j e.cmd o = some (e.ans, (ρ.state (e.time + 1)).world)

/-- What a step does to the world. -/
theorem world_cases (hi : i < N) :
    (ρ.state (i + 1)).world = (ρ.state i).world ∨
      (∃ e, ρ.act i = .event e ∧ sys.event (ρ.state i).world e = some (ρ.state (i + 1)).world) ∨
      ∃ w j cmd r l, Told ρ w j ⟨i, cmd, r⟩ l := by
  rcases (stepped_of_step (ρ.next i hi)).world_cases with heq | he |
    ⟨w, o, j, log, cmd, k, r, ha, ht, hans⟩
  exacts [.inl heq, .inr (.inl he), .inr (.inr ⟨w, j, cmd, r, log, o, k, ha, ht, hans⟩)]

/-- Every entry of the log is what the worker was told then, the newest before moment `i`. -/
def LogTrue (w : W) (j : J) : Log Nat R → ℕ → Prop
  | [], _ => True
  | e :: l, i => e.time < i ∧ Told ρ w j e l ∧ LogTrue w j l e.time

variable {ρ}

theorem LogTrue.mono (h : LogTrue ρ w jb l i) (hij : i ≤ j) :
    LogTrue ρ w jb l j := by
  cases l with
  | nil => trivial
  | cons e l => exact ⟨Nat.lt_of_lt_of_le h.1 hij, h.2⟩

theorem LogTrue.of_append
    (h : LogTrue ρ w jb (new ++ l) i) : LogTrue ρ w jb l i := by
  induction new generalizing i with
  | nil => exact h
  | cons e new ih => exact (ih h.2.2).mono (Nat.le_of_lt h.1)

theorem LogTrue.told (h : LogTrue ρ w jb l i)
    (he : e ∈ l) : ∃ l', e.time < i ∧ Told ρ w jb e l' := by
  induction l generalizing i with
  | nil => simp at he
  | cons e' l ih =>
    rcases List.mem_cons.mp he with rfl | he
    · exact ⟨l, h.1, h.2.1⟩
    · obtain ⟨l', hlt, ht⟩ := ih h.2.2 he
      exact ⟨l', Nat.lt_trans hlt h.1, ht⟩

/-- What comes after an entry of a true log was told later. -/
theorem LogTrue.newer
    (h : LogTrue ρ w jb (new ++ e :: l) i) {e' : Entry Nat R} (he : e' ∈ new) :
    e.time < e'.time := by
  induction new generalizing i with
  | nil => simp at he
  | cons e₁ new ih =>
    rcases List.mem_cons.mp he with rfl | he
    · exact (LogTrue.told h.2.2 (List.mem_append_right _ (.head _))).choose_spec.1
    · exact ih h.2.2 he

/-- The newest entry of a true log, and what was told to the worker then. -/
theorem LogTrue.head
    (h : LogTrue ρ w jb (new ++ e :: l) i) : e.time < i ∧ Told ρ w jb e l := by
  have h' := LogTrue.of_append h
  exact ⟨h'.1, h'.2.1⟩

theorem Told.asked (h : Told ρ w jb e l) :
    Workers.asked (ρ.state e.time) (ρ.act e.time) = some ⟨w, jb, l, e.cmd⟩ := by
  obtain ⟨o, k, ha, ht, -⟩ := h
  simp only [ha, Workers.asked, ht]

/-- A command that is asked in a step is answered by it. -/
theorem told_of_asked (hi : i < N)
    (hq : Workers.asked (ρ.state i) (ρ.act i) = some q) :
    ∃ r, Told ρ q.worker q.job ⟨i, q.cmd, r⟩ q.log := by
  obtain ⟨o, k, ha, ht⟩ := asked_eq_some hq
  have hstep := ρ.next i hi
  rw [ha] at hstep
  simp only [step, ht] at hstep
  obtain ⟨⟨r, s⟩, hans, hs⟩ := Option.map_eq_some_iff.mp hstep
  refine ⟨r, o, k, ha, ht, ?_⟩
  rw [← hs]
  exact hans

variable (ρ)

/-- A thread obeys the specification of its program from its log on, and its log is true. -/
theorem thread_obeys {G : W → J → Log Nat R → C → Prop} {Q : W → J → Log Nat R → α → Prop}
    (hG : ∀ w j, Prog.Obeys (G w j) (Q w j) [] (sys.program w j)) (hi : i ≤ N)
    {t : Thread J R α} (ht : (ρ.state i).threads.lookup w = some t) :
    Prog.Obeys (G w t.job) (Q w t.job) t.log t.prog ∧ LogTrue ρ w t.job t.log i := by
  refine ρ.invariant (P := fun i c => ∀ w t, c.threads.lookup w = some t →
    Prog.Obeys (G w t.job) (Q w t.job) t.log t.prog ∧ LogTrue ρ w t.job t.log i)
    ?_ (fun i hi ih w t ht => ?_) hi w t ht
  · intro w t ht
    cases ht
  · rcases (stepped_of_step (ρ.next i hi)).thread_cases ht with ⟨ht, -⟩ | ⟨j, -, rfl⟩ |
      ⟨o, j, log, cmd, k, r, ha, hw, hans, rfl⟩
    · exact ⟨(ih w t ht).1, (ih w t ht).2.mono (Nat.le_succ i)⟩
    · exact ⟨hG w j, trivial⟩
    · rw [tick_eq ρ (Nat.le_of_lt hi)]
      obtain ⟨hob, hl⟩ := ih w _ hw
      exact ⟨hob.2 i r, Nat.lt_succ_self i, ⟨o, k, ha, hw, hans⟩, hl⟩

/-- What a step answers satisfies the specification of the program that asks it. -/
theorem asked_obeys {G : W → J → Log Nat R → C → Prop} {Q : W → J → Log Nat R → α → Prop}
    (hG : ∀ w j, Prog.Obeys (G w j) (Q w j) [] (sys.program w j)) (hi : i ≤ N)
    (hq : asked (ρ.state i) (ρ.act i) = some q) :
    G q.worker q.job q.log q.cmd ∧ LogTrue ρ q.worker q.job q.log i := by
  obtain ⟨o, k, -, ht⟩ := asked_eq_some hq
  obtain ⟨hob, hl⟩ := thread_obeys ρ hG hi ht
  exact ⟨hob.1, hl⟩

end Workers

end Process
