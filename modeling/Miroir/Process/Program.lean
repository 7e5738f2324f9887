import Mathlib.Tactic.Common

/-!
# Programs that ask their surroundings

A program over commands `C` with answers `R` either returns or asks a command and goes on
with the answer (`Prog`). It is a monad, so code written as a sequence of fallible calls is
embedded line by line.

The surroundings are not part of a program. What a program has asked and been told so far
is its `Log`, which grows with every command (`Grew`), and `Prog.Obeys G Q` says that,
whatever it is told, every command it asks satisfies `G` of the log at that point, and every
return satisfies `Q`. One such statement for a function is its specification: `obeys_bind`
composes them, so a caller cites the specification of what it calls.
-/

namespace Process

universe u v w

/-- A program that asks commands `c : C`, each answered in `R c`, and returns an `α`. -/
inductive Prog (C : Type u) (R : C → Type v) (α : Type w) where
  | ret (a : α)
  | ask (c : C) (k : R c → Prog C R α)

/-- One command with the time it was asked and the answer it got. -/
structure Entry (T : Type*) {C : Type*} (R : C → Type*) where
  time : T
  cmd : C
  ans : R cmd

/-- What a program has asked and been told, newest first. -/
abbrev Log (T : Type*) {C : Type*} (R : C → Type*) := List (Entry T R)

variable {C : Type u} {R : C → Type v} {α β : Type w} {T : Type*}

/-! ## Logs that grow -/

/-- The log grew from `l` to `l'` by commands that satisfy `P`. -/
def Grew (P : C → Prop) (l l' : Log T R) : Prop :=
  ∃ new : Log T R, l' = new ++ l ∧ ∀ e ∈ new, P e.cmd

namespace Grew

variable {P : C → Prop} {l l' l'' : Log T R}

theorem refl (l : Log T R) : Grew P l l := ⟨[], rfl, by simp⟩

theorem trans (h : Grew P l l') (h' : Grew P l' l'') : Grew P l l'' := by
  obtain ⟨new, rfl, hn⟩ := h
  obtain ⟨new', rfl, hn'⟩ := h'
  refine ⟨new' ++ new, by simp, fun e he => ?_⟩
  rcases List.mem_append.mp he with he | he
  exacts [hn' e he, hn e he]

theorem cons (h : Grew P l l') {t : T} {c : C} (r : R c) (hc : P c) :
    Grew P l (⟨t, c, r⟩ :: l') := by
  obtain ⟨new, rfl, hn⟩ := h
  refine ⟨⟨t, c, r⟩ :: new, rfl, fun e he => ?_⟩
  rcases List.mem_cons.mp he with rfl | he
  exacts [hc, hn e he]

theorem mem (h : Grew P l l') {e : Entry T R} (he : e ∈ l) : e ∈ l' := by
  obtain ⟨new, rfl, -⟩ := h
  exact List.mem_append_right _ he

theorem suffix (h : Grew P l l') : l <:+ l' := by
  obtain ⟨new, rfl, -⟩ := h
  exact List.suffix_append new l

/-- What every entry with a command in `P` keeps holds of the longer log. -/
theorem keeps (h : Grew P l l') {M : Log T R → Prop} (hl : M l)
    (hM : ∀ e l, P e.cmd → M l → M (e :: l)) : M l' := by
  obtain ⟨new, rfl, hn⟩ := h
  induction new with
  | nil => exact hl
  | cons e new ih =>
    rw [List.forall_mem_cons] at hn
    exact hM e _ hn.1 (ih hn.2)

/-- What no entry with a command in `P` changes is the same in the longer log. -/
theorem view_eq {β : Type*} {view : Log T R → β} (h : Grew P l l')
    (hv : ∀ e l, P e.cmd → view (e :: l) = view l) : view l' = view l :=
  h.keeps (M := fun l' => view l' = view l) rfl fun e l hc ih => (hv e l hc).trans ih

end Grew

/-- Some entry of the log satisfies `E`, and only commands in `K` were asked since. -/
def Since (E : Entry T R → Prop) (K : C → Prop) : Log T R → Prop
  | [] => False
  | e :: l => E e ∨ (K e.cmd ∧ Since E K l)

namespace Prog

variable {c : C} {p : Prog C R α} {f : α → Prog C R β}

/-- Run `p`, then `f` on what it returns. -/
def bind : Prog C R α → (α → Prog C R β) → Prog C R β
  | ret a, f => f a
  | ask c k, f => ask c fun r => bind (k r) f

instance : Monad (Prog C R) where
  pure := ret
  bind := bind

@[simp] theorem pure_def (a : α) : (pure a : Prog C R α) = ret a := rfl

@[simp] theorem ret_bind (a : α) (f : α → Prog C R β) : (ret a : Prog C R α) >>= f = f a := rfl

@[simp] theorem ask_bind (c : C) (k : R c → Prog C R α) (f : α → Prog C R β) :
    ask c k >>= f = ask c fun r => k r >>= f := rfl

theorem bind_bind {γ : Type w} (p : Prog C R α) (f : α → Prog C R β) (g : β → Prog C R γ) :
    p >>= f >>= g = p >>= fun a => f a >>= g := by
  induction p with
  | ret a => rfl
  | ask c k ih => exact congrArg (ask c) (funext ih)

/-- Ask one command and return its answer. -/
def call (c : C) : Prog C R (R c) := ask c ret

/-! ## Specifications -/

/-- Whatever the answers and their times, every command asked from log `l` on satisfies `G`
of the log so far, and every return satisfies `Q`. -/
def Obeys (G : Log T R → C → Prop) (Q : Log T R → α → Prop) : Log T R → Prog C R α → Prop
  | l, ret a => Q l a
  | l, ask c k => G l c ∧ ∀ t r, Obeys G Q (⟨t, c, r⟩ :: l) (k r)

variable {G G' : Log T R → C → Prop} {Q Q' : Log T R → α → Prop} {l : Log T R}

@[simp] theorem obeys_ret {a : α} : Obeys G Q l (ret a) ↔ Q l a := Iff.rfl

@[simp] theorem obeys_ask {k : R c → Prog C R α} :
    Obeys G Q l (ask c k) ↔ G l c ∧ ∀ t r, Obeys G Q (⟨t, c, r⟩ :: l) (k r) := Iff.rfl

theorem obeys_bind {Q : Log T R → β → Prop} :
    Obeys G Q l (p >>= f) ↔ Obeys G (fun l a => Obeys G Q l (f a)) l p := by
  induction p generalizing l with
  | ret a => rfl
  | ask c k ih => simp only [ask_bind, obeys_ask, ih]

@[simp] theorem obeys_call {Q : Log T R → R c → Prop} :
    Obeys G Q l (call c) ↔ G l c ∧ ∀ t r, Q (⟨t, c, r⟩ :: l) r := Iff.rfl

/-- A weaker postcondition holds as well. -/
theorem Obeys.mono (h : Obeys G Q l p) (hQ : ∀ l a, Q l a → Q' l a) :
    Obeys G Q' l p := by
  induction p generalizing l with
  | ret a => exact hQ l a h
  | ask c k ih => exact ⟨h.1, fun t r => ih r (h.2 t r)⟩

/-- What is asked under a stronger condition is asked under a weaker one. -/
theorem Obeys.weaken (h : Obeys G Q l p) (hG : ∀ l c, G l c → G' l c) :
    Obeys G' Q l p := by
  induction p generalizing l with
  | ret a => exact h
  | ask c k ih => exact ⟨hG l c h.1, fun t r => ih r (h.2 t r)⟩

/-- A sequence obeys `G` if its first part does, up to a return from which the rest does. -/
theorem Obeys.bind {Q' : Log T R → β → Prop}
    (h : Obeys G Q l p) (hf : ∀ l a, Q l a → Obeys G Q' l (f a)) : Obeys G Q' l (p >>= f) :=
  obeys_bind.mpr (h.mono hf)

/-- A command, then whatever follows its answer. -/
theorem obeys_call_bind {γ : Type v} {Q : Log T R → γ → Prop} {f : R c → Prog C R γ}
    (hc : G l c) (hf : ∀ t r, Obeys G Q (⟨t, c, r⟩ :: l) (f r)) :
    Obeys G Q l ((call c : Prog C R (R c)) >>= f) :=
  ⟨hc, hf⟩

/-! ## Programs with few commands -/

/-- Every command the program can ask satisfies `P`. -/
def Asks (P : C → Prop) : Prog C R α → Prop
  | ret _ => True
  | ask c k => P c ∧ ∀ r, Asks P (k r)

variable {P : C → Prop}

@[simp] theorem asks_ret {a : α} : Asks P (ret a : Prog C R α) := trivial

@[simp] theorem asks_call : Asks P (call c : Prog C R (R c)) ↔ P c :=
  ⟨And.left, fun h => ⟨h, fun _ => trivial⟩⟩

theorem asks_bind (hp : Asks P p)
    (hf : ∀ a, Asks P (f a)) : Asks P (p >>= f) := by
  induction p with
  | ret a => exact hf a
  | ask c k ih => exact ⟨hp.1, fun r => ih r (hp.2 r)⟩

/-- A command, then whatever follows its answer. -/
theorem asks_call_bind {γ : Type v} {f : R c → Prog C R γ} (hc : P c)
    (hf : ∀ r, Asks P (f r)) : Asks P ((call c : Prog C R (R c)) >>= f) :=
  ⟨hc, hf⟩

theorem Asks.mono {Q : C → Prop} (h : Asks P p) (hPQ : ∀ c, P c → Q c) :
    Asks Q p := by
  induction p with
  | ret a => trivial
  | ask c k ih => exact ⟨hPQ c h.1, fun r => ih r (h.2 r)⟩

/-- A program that asks only commands in `P` obeys what those commands obey from its log on. -/
theorem Asks.obeys (h : Asks P p) (hG : ∀ l' c, Grew P l l' → P c → G l' c) :
    Obeys G (fun l' _ => Grew P l l') l p := by
  suffices ∀ l', Grew P l l' → Obeys G (fun l' _ => Grew P l l') l' p from this l (.refl l)
  induction p with
  | ret a => exact fun l' hl => hl
  | ask c k ih => exact fun l' hl => ⟨hG l' c hl h.1, fun t r => ih r (h.2 r) _ (hl.cons r h.1)⟩

/-- A program that adds to a log what `P` allows, from a log that has grown so. -/
theorem Obeys.grew {l₀ : Log T R} (h : Obeys G (fun l' _ => Grew P l l') l p)
    (hl : Grew P l₀ l) : Obeys G (fun l' _ => Grew P l₀ l') l p :=
  h.mono fun _ _ => hl.trans

/-! ## Programs against a state -/

section Eval

variable {S : Type*} (answer : S → (c : C) → Option (R c × S))

variable {p : Prog C R α}

/-- What the program returns against a state that answers its commands. -/
def eval : Prog C R α → S → Option (α × S)
  | ret a, s => some (a, s)
  | ask c k, s => (answer s c).bind fun r => eval (k r.1) r.2

@[simp] theorem eval_ret {a : α} {s : S} : eval answer (ret a : Prog C R α) s = some (a, s) := rfl

theorem eval_bind {f : α → Prog C R β} {s : S} :
    eval answer (p >>= f) s = (eval answer p s).bind fun r => eval answer (f r.1) r.2 := by
  induction p generalizing s with
  | ret a => rfl
  | ask c k ih =>
    rw [ask_bind, eval, eval, Option.bind_assoc]
    exact congrArg _ (funext fun r => ih r.1)

variable {answer} {s s' : S} {a : α}

/-- What the commands of a program keep it keeps. -/
theorem Asks.eval (h : Asks P p) {K : S → S → Prop} (hrefl : ∀ s, K s s)
    (htrans : ∀ s₁ s₂ s₃, K s₁ s₂ → K s₂ s₃ → K s₁ s₃)
    (hc : ∀ s c r s', P c → answer s c = some (r, s') → K s s')
    (he : p.eval answer s = some (a, s')) : K s s' := by
  induction p generalizing s with
  | ret b =>
    cases he
    exact hrefl _
  | ask c k ih =>
    obtain ⟨⟨r, s₁⟩, hr, he⟩ := Option.bind_eq_some_iff.mp he
    exact htrans _ _ _ (hc _ _ _ _ h.1 hr) (ih r (h.2 r) he)

section Ends

variable {Q Q' : α → S → Prop}

variable (answer) in
/-- Wherever the program comes to its end from `s`, `Q` holds. -/
def Ends (Q : α → S → Prop) (p : Prog C R α) (s : S) : Prop :=
  ∀ a s', p.eval answer s = some (a, s') → Q a s'

theorem ends_ret (h : Q a s) : Ends answer Q (ret a) s := by
  rintro b s' ⟨⟩
  exact h

theorem ends_ask {k : R c → Prog C R α}
    (h : ∀ r s', answer s c = some (r, s') → Ends answer Q (k r) s') :
    Ends answer Q (ask c k) s := by
  intro a s' he
  obtain ⟨⟨r, s₁⟩, hr, he⟩ := Option.bind_eq_some_iff.mp he
  exact h r s₁ hr a s' he

theorem Ends.bind {Q' : β → S → Prop} (h : Ends answer Q p s)
    (hf : ∀ a s', Q a s' → Ends answer Q' (f a) s') : Ends answer Q' (p >>= f) s := by
  intro b s' he
  rw [eval_bind] at he
  obtain ⟨⟨a, s₁⟩, ha, he⟩ := Option.bind_eq_some_iff.mp he
  exact hf a s₁ (h a s₁ ha) b s' he

end Ends

end Eval

/-! ## Programs over other commands -/

section Handle

variable {C C' α β : Type} {R : C → Type} {R' : C' → Type}

/-- The program with a program over other commands in the place of each command. -/
def handle (h : (c : C) → Prog C' R' (R c)) : Prog C R α → Prog C' R' α
  | ret a => ret a
  | ask c k => h c >>= fun r => handle h (k r)

theorem handle_call_bind {h : (c : C) → Prog C' R' (R c)} {c : C} {f : R c → Prog C R α} :
    handle h (call c >>= f) = h c >>= fun r => handle h (f r) := rfl

theorem handle_bind {h : (c : C) → Prog C' R' (R c)} (p : Prog C R α) (f : α → Prog C R β) :
    handle h (p >>= f) = handle h p >>= fun a => handle h (f a) := by
  induction p with
  | ret a => rfl
  | ask c k ih =>
    rw [ask_bind, handle, handle, bind_bind]
    exact congrArg _ (funext ih)

theorem asks_handle {P : C → Prop} {P' : C' → Prop} {h : (c : C) → Prog C' R' (R c)}
    {p : Prog C R α} (hp : Asks P p) (hh : ∀ c, P c → Asks P' (h c)) :
    Asks P' (handle h p) := by
  induction p with
  | ret a => trivial
  | ask c k ih => exact asks_bind (hh c hp.1) fun r => ih r (hp.2 r)

end Handle

end Prog

/-- A command in `P`, asked from a log that has grown so. -/
theorem Grew.call {γ : Type v} {G : Log T R → C → Prop} {Q : Log T R → γ → Prop} {P : C → Prop}
    {l₀ l : Log T R} {c : C} {f : R c → Prog C R γ} (h : Grew P l₀ l) (hP : P c) (hc : G l c)
    (hf : ∀ t r, Grew P l₀ (⟨t, c, r⟩ :: l) → Prog.Obeys G Q (⟨t, c, r⟩ :: l) (f r)) :
    Prog.Obeys G Q l (Prog.call c >>= f) :=
  Prog.obeys_call_bind hc fun t r => hf t r (h.cons r hP)

/-! ## Commands with an effect -/

/-- How a command ends: done, or with an error, having taken effect or not. -/
inductive Fate (ε : Type*) where
  | done
  | failed (e : ε) (applied : Bool)

section Perform

variable {S A E : Type*} {a : A} {s s' t : S} {f : Option (Fate E)} {r : Except E A}

/-- A command that takes the world from `s` to `t` and answers `a`. -/
def perform (a : A) (s t : S) : Option (Fate E) → Option (Except E A × S)
  | some .done => some (.ok a, t)
  | some (.failed e applied) => some (.error e, if applied then t else s)
  | none => none

theorem perform_cases (h : perform a s t f = some (r, s')) :
    (r = .ok a ∧ s' = t) ∨ ∃ e, r = .error e ∧ (s' = t ∨ s' = s) := by
  rcases f with _ | _ | ⟨e, applied⟩ <;> cases h
  · exact .inl ⟨rfl, rfl⟩
  · cases applied
    exacts [.inr ⟨e, rfl, .inr rfl⟩, .inr ⟨e, rfl, .inl rfl⟩]

/-- The command has taken effect, or has failed. -/
theorem performed (h : perform a s t f = some (r, s')) : s' = t ∨ s' = s ∧ ∃ e, r = .error e := by
  obtain ⟨-, h⟩ | ⟨e, hr, h | h⟩ := perform_cases h
  exacts [.inl h, .inl h, .inr ⟨h, e, hr⟩]

/-- A command without an effect. -/
theorem read_cases (h : perform a s s f = some (r, s')) :
    s' = s ∧ (r = .ok a ∨ ∃ e, r = .error e) := by
  obtain ⟨hr, h⟩ | ⟨e, hr, h | h⟩ := perform_cases h
  exacts [⟨h, .inl hr⟩, ⟨h, .inr ⟨e, hr⟩⟩, ⟨h, .inr ⟨e, hr⟩⟩]

end Perform

end Process
