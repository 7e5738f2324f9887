import Miroir.Process.Workers

/-!
# Calls one after the other, with crashes

A component is called again and again, one call at a time, over a world that survives it: files, a
kernel, a disk. A call may be told that any of its commands failed, and may crash before any of
them; between commands the world may change by itself.

`Safe` is the weakest precondition of the rest of a call: whatever comes, it ends in the
postcondition, and where it crashes the world is one that the next call can start from. The steps
considered may be restricted by a condition on the state they start in (`meets`). `safe_of_run` is
the rule for whole runs: if every call is safe from every idle world, so are all calls of a run.
-/

namespace Process

variable {S J E O C α β : Type} {R : C → Type}

/-- A condition on the steps of a call: on what it is told, or, with `none`, on its crash. -/
abbrev StepCond (S J O : Type) {C : Type} (R : C → Type) :=
  S → J → Log Nat R → C → Option O → Bool

namespace Calls

section Safe

variable (answer : S → J → (c : C) → O → Option (R c × S)) (ok : StepCond S J O R)
  (env : S → S → Prop) (idle : S → Prop) (j : J)

variable {Q : Log Nat R → α → S → Prop} {p : Prog C R α}

/-- From `s` on the rest of the call keeps to `Q`, and crashes into an idle world. -/
def Safe (Q : Log Nat R → α → S → Prop) : Log Nat R → Prog C R α → S → Prop
  | l, .ret a, s => Q l a s
  | l, .ask c k, s => ∀ s₁, env s s₁ →
      (ok s₁ j l c none = true → idle s₁) ∧
      ∀ t o r s', answer s₁ j c o = some (r, s') → ok s₁ j l c (some o) = true →
        Safe Q (⟨t, c, r⟩ :: l) (k r) s'

variable {answer ok env idle j} {l : Log Nat R} {s : S}

theorem Safe.mono {Q' : Log Nat R → α → S → Prop}
    (h : Safe answer ok env idle j Q l p s) (hQ : ∀ l a s, Q l a s → Q' l a s) :
    Safe answer ok env idle j Q' l p s := by
  induction p generalizing l s with
  | ret a => exact hQ l a s h
  | ask c k ih =>
    intro s₁ hs
    obtain ⟨hcrash, hstep⟩ := h s₁ hs
    exact ⟨hcrash, fun t o r s' hans hok => ih r (hstep t o r s' hans hok)⟩

/-- A call is safe if its first part is, up to a return from which the rest is. -/
theorem Safe.bind {Q' : Log Nat R → β → S → Prop}
    {f : α → Prog C R β} (h : Safe answer ok env idle j Q l p s)
    (hf : ∀ l a s, Q l a s → Safe answer ok env idle j Q' l (f a) s) :
    Safe answer ok env idle j Q' l (p >>= f) s := by
  induction p generalizing l s with
  | ret a => exact hf l a s h
  | ask c k ih =>
    intro s₁ hs
    obtain ⟨hcrash, hstep⟩ := h s₁ hs
    exact ⟨hcrash, fun t o r s' hans hok => ih r (hstep t o r s' hans hok)⟩

/-- One command: `P` is what is known of the world whenever it is asked. -/
theorem safe_call {P : S → Prop} {c : C} {Q : Log Nat R → R c → S → Prop}
    (hP : ∀ s₁, env s s₁ → P s₁)
    (hcrash : ∀ s₁, P s₁ → ok s₁ j l c none → idle s₁)
    (hQ : ∀ s₁ t o r s', P s₁ → answer s₁ j c o = some (r, s') →
      ok s₁ j l c (some o) → Q (⟨t, c, r⟩ :: l) r s') :
    Safe answer ok env idle j Q l (.call c) s := by
  intro s₁ hs
  exact ⟨hcrash s₁ (hP s₁ hs), fun t o r s' => hQ s₁ t o r s' (hP s₁ hs)⟩

/-- A part whose commands all keep `P` keeps it. -/
theorem safe_of_asks {P : S → Prop} {K : C → Prop} (hp : Prog.Asks K p)
    (henv : ∀ s s₁, env s s₁ → P s → P s₁) (hidle : ∀ s, P s → idle s)
    (hkeep : ∀ s c o r s', K c → P s → answer s j c o = some (r, s') → P s') (hs : P s) :
    Safe answer ok env idle j (fun _ _ s => P s) l p s := by
  induction p generalizing l s with
  | ret a => exact hs
  | ask c k ih =>
    intro s₁ hs₁
    have hP := henv s s₁ hs₁ hs
    exact ⟨fun _ => hidle s₁ hP, fun t o r s' hans _ =>
      ih r (hp.2 r) (hkeep s₁ c o r s' hp.1 hP hans)⟩

/-- A safe call stays safe when the world changes by itself. -/
theorem Safe.of_env {s' : S}
    (h : Safe answer ok env idle j Q l p s) (htrans : ∀ a b c, env a b → env b c → env a c)
    (hQ : ∀ l a s s', env s s' → Q l a s → Q l a s') (hs : env s s') :
    Safe answer ok env idle j Q l p s' := by
  cases p with
  | ret a => exact hQ l a s s' hs h
  | ask c k => exact fun s₁ hs₁ => h s₁ (htrans s s' s₁ hs hs₁)

end Safe

/-! ## Runs -/

variable {s₀ : S} {N i : ℕ}

/-- A step meets the condition on what its call is told, or on its crash. -/
def meets (ok : StepCond S J O R) (c : Conf S Unit J R α) : Act Unit J E O → Bool
  | .reply w o =>
    match c.threads.lookup w with
    | some ⟨j, log, .ask cmd _⟩ => ok c.world j log cmd (some o)
    | _ => true
  | .crash w =>
    match c.threads.lookup w with
    | some ⟨j, log, .ask cmd _⟩ => ok c.world j log cmd none
    | _ => true
  | _ => true

/-- The component between calls, and a call under way. -/
structure Sound (sys : Workers S Unit J E O R α) (ok : StepCond S J O R) (env : S → S → Prop)
    (idle : S → Prop) (Q : J → Log Nat R → α → S → Prop) : Prop where
  env_refl : ∀ s, env s s
  env_trans : ∀ a b c, env a b → env b c → env a c
  event_env : ∀ s e s', sys.event s e = some s' → env s s'
  idle_env : ∀ s s', env s s' → idle s → idle s'
  post_env : ∀ j l a s s', env s s' → Q j l a s → Q j l a s'
  post_idle : ∀ j l a s, Q j l a s → idle s
  call : ∀ j s, idle s → Safe (fun s => sys.answer s ()) ok env idle j (Q j) [] (sys.program () j) s

/-- What is known of a component at every moment of a run. -/
def Fine (sys : Workers S Unit J E O R α) (ok : StepCond S J O R) (env : S → S → Prop)
    (idle : S → Prop) (Q : J → Log Nat R → α → S → Prop) (c : Conf S Unit J R α) : Prop :=
  (c.threads.lookup () = none → idle c.world) ∧ ∀ t, c.threads.lookup () = some t →
    Safe (fun s => sys.answer s ()) ok env idle t.job (Q t.job) t.log t.prog c.world

variable {sys : Workers S Unit J E O R α} {ok : StepCond S J O R} {env : S → S → Prop}
  {idle : S → Prop} {Q : J → Log Nat R → α → S → Prop}

/-- Where no command is pending, or the crash is among those considered, the world is idle. -/
theorem idle_of_crash (hs : Sound sys ok env idle Q) {c : Conf S Unit J R α} {w : Unit}
    (h : Fine sys ok env idle Q c) (hok : meets (E := E) ok c (.crash w)) :
    idle c.world := by
  cases ht : c.threads.lookup () with
  | none => exact h.1 ht
  | some t =>
    have hsafe := h.2 t ht
    obtain ⟨j, log, prog⟩ := t
    cases prog with
    | ret a => exact hs.post_idle _ _ _ _ hsafe
    | ask cmd k =>
      simp only [meets, ht] at hok
      exact (hsafe _ (hs.env_refl _)).1 hok

theorem Fine.step (hs : Sound sys ok env idle Q) {c c' : Conf S Unit J R α}
    {a : Act Unit J E O} (h : Fine sys ok env idle Q c) (hstep : sys.step c a = some c')
    (hok : meets ok c a) : Fine sys ok env idle Q c' := by
  cases Workers.stepped_of_step hstep with
  | start hnone =>
    refine ⟨fun hn => ?_, fun t ht => ?_⟩
    · rw [AList.lookup_insert] at hn
      cases hn
    · rw [AList.lookup_insert] at ht
      cases ht
      exact hs.call _ _ (h.1 hnone)
  | @reply w o j log cmd k r s ht hans =>
    refine ⟨fun hn => ?_, fun t ht' => ?_⟩
    · rw [AList.lookup_insert] at hn
      cases hn
    · rw [AList.lookup_insert] at ht'
      cases ht'
      simp only [meets, ht] at hok
      exact (h.2 _ ht _ (hs.env_refl _)).2 _ o r s hans hok
  | finish ht =>
    refine ⟨fun _ => hs.post_idle _ _ _ _ (h.2 _ ht), fun t ht' => ?_⟩
    rw [AList.lookup_erase] at ht'
    cases ht'
  | crash =>
    have hidle := idle_of_crash hs h hok
    refine ⟨fun _ => hidle, fun t ht' => ?_⟩
    rw [AList.lookup_erase] at ht'
    cases ht'
  | event he =>
    have henv := hs.event_env _ _ _ he
    exact ⟨fun hn => hs.idle_env _ _ henv (h.1 hn),
      fun t ht => (h.2 t ht).of_env hs.env_trans (hs.post_env t.job) henv⟩

/-- In a run whose steps meet the condition, every call under way is safe. -/
theorem safe_of_run (hs : Sound sys ok env idle Q)
    (ρ : Run sys.step (Workers.init s₀) N) (h₀ : idle s₀)
    (hok : ∀ k < N, meets ok (ρ.state k) (ρ.act k)) (hi : i ≤ N) :
    Fine sys ok env idle Q (ρ.state i) := by
  refine ρ.invariant (P := fun _ c => Fine sys ok env idle Q c) ?_
    (fun k hk h => h.step hs (ρ.next k hk) (hok k hk)) hi
  exact ⟨fun _ => h₀, fun t ht => by cases ht⟩

/-- The call that has come to its end, with what it returns. -/
def returned (c : Conf S Unit J R α) : Option (J × α) :=
  match c.threads.lookup () with
  | some ⟨j, _, .ret a⟩ => some (j, a)
  | _ => none

/-- What a call returns satisfies its postcondition. -/
theorem post_of_run (hs : Sound sys ok env idle Q)
    (ρ : Run sys.step (Workers.init s₀) N) (h₀ : idle s₀)
    (hok : ∀ k < N, meets ok (ρ.state k) (ρ.act k)) (hi : i ≤ N) {j : J} {a : α}
    (ht : returned (ρ.state i) = some (j, a)) : ∃ l, Q j l a (ρ.state i).world := by
  rw [returned] at ht
  split at ht
  · rename_i j' l a' hlookup
    cases ht
    exact ⟨l, (safe_of_run hs ρ h₀ hok hi).2 _ hlookup⟩
  · cases ht

/-! ## What a call has been told -/

/-- What held after an entry of the log, and events and the later commands keep, holds still. -/
theorem since_told (ρ : Run sys.step (Workers.init s₀) N) {A : S → Prop}
    {K : C → Prop} (hevent : ∀ s e s', sys.event s e = some s' → A s → A s')
    (hK : ∀ s j c o r s', K c → sys.answer s () j c o = some (r, s') → A s → A s') (hi : i ≤ N)
    {j : J} {m l : Log Nat R} {e : Entry Nat R} {p : Prog C R α}
    (ht : (ρ.state i).threads.lookup () = some ⟨j, m ++ e :: l, p⟩)
    (hnew : ∀ e' ∈ m, K e'.cmd) (hA : A (ρ.state (e.time + 1)).world) :
    A (ρ.state i).world := by
  refine ρ.invariant (P := fun _ c => ∀ j m p, c.threads.lookup () = some ⟨j, m ++ e :: l, p⟩ →
    (∀ e' ∈ m, K e'.cmd) → A c.world) (fun _ _ _ h => by cases h)
    (fun i hi ih j m p ht hnew => ?_) hi j m p ht hnew
  have htick := Workers.tick_eq ρ (Nat.le_of_lt hi)
  have hstep := Workers.stepped_of_step (ρ.next i hi)
  generalize hc' : ρ.state (i + 1) = c' at hstep ht
  generalize ρ.act i = a at hstep
  cases hstep with
  | start =>
    rw [AList.lookup_insert] at ht
    obtain ⟨-, hnil, -⟩ := Thread.mk.inj (Option.some.inj ht)
    cases m <;> cases hnil
  | @reply w o j' log cmd k r s hw hans =>
    rw [AList.lookup_insert] at ht
    obtain ⟨rfl, hlog, -⟩ := Thread.mk.inj (Option.some.inj ht)
    cases m with
    | nil =>
      cases hlog
      rwa [htick, hc'] at hA
    | cons e' m =>
      obtain ⟨rfl, rfl⟩ := List.cons.inj hlog
      exact hK _ _ cmd o r s (hnew _ (.head _)) hans
        (ih _ m _ hw fun e' he => hnew e' (.tail _ he))
  | finish | crash =>
    rw [AList.lookup_erase] at ht
    cases ht
  | event hs => exact hevent _ _ _ hs (ih j m p ht hnew)

end Calls

end Process
