import Miroir.Agent.Writeback

/-!
# Tracking writeback errors

Whether the slot of a node should carry a `WritebackError` is told by the last line of the kernel
log about the device. The watcher takes an entry that the cached list shows, or that it remembers,
for the one on the API server. Both may be out of date by one clear, and then a new lost write goes
unrecorded (`lost_write_dropped`).

`writeback_exact`: if the list never shows an entry that is no longer there, and no clear is carried
out and reported as failed, the slot is as the last line has it whenever nothing is pending, for
every split of the log into polls.
-/

namespace Miroir.Writeback

open Process Prog VolumeReconciler Cond

variable (node v : String) (m : Nat)

/-! ## The surroundings -/

/-- What the slot carries, if it is there. -/
def entry (o : Object) : Option (Option WritebackError) :=
  (o.perNode.lookup node).map NodeSlot.writebackError

/-- How a command ends. -/
inductive Outcome where
  | fail (e : Err)
  | listed (vols : List Object)
  | mounted (b : Bool)
  | clock (t : Nat)
  /-- The minors in the order of the loop. -/
  | order (minors : List Nat)
  | names (order : List String)
  | volume (o : Cond.Outcome)
  /-- On another volume. -/
  | elsewhere (s : Server) (o : Cond.Outcome)

/-- What others write to the volume before a command, and what becomes of the command. -/
structure Move where
  others : List Object := []
  outcome : Outcome

/-- The list shows some version of the volume, and the volume is the one with the minor. -/
def resolves (s : Server) (vols : List Object) : Bool :=
  (vols.map Object.name).Nodup && (volumeForMinor vols node m).any fun o =>
    o.name = v && (List.range (s.last + 1)).any fun k => s.version k = o

/-- The volume exists, and reads outside the cache show its last version. -/
def uncached (s : Server) : Cond.Outcome → Bool
  | .version k => k = s.last
  | .absent | .fail (.notFound _) _ => false
  | _ => true

/-- The device is mounted whenever it is looked for, and the slot carries no entry from before the
last boot. -/
def reply (s : Server) : (c : WbCmd) → Outcome → Option (WbAns c × Server)
  | .list, .listed vols => if resolves node v m s vols then some (.ok vols, s) else none
  | .list, .fail e => some (.error e, s)
  | .mounted minor, .mounted b => if minor = m ∧ b = false then none else some (.ok b, s)
  | .mounted _, .fail e => some (.error e, s)
  | .bootTime, .clock t =>
    if (slotError node s.current).any (·.since < t) then none else some (.ok t, s)
  | .bootTime, .fail e => some (.error e, s)
  | .clock, .clock t => some (t, s)
  | .range events, .order minors =>
    let order := minors.filterMap fun minor => events.find? (·.1 = minor)
    if h : order.Perm events then some (⟨order, h⟩, s) else none
  | .rangeNames names, .names order =>
    if h : order.Perm names then some (⟨order, h⟩, s) else none
  | .volume name c, .volume o =>
    if name = v ∧ uncached s o then Cond.answer s c o else none
  | .volume name c, .elsewhere s' o =>
    if name = v then none else (Cond.answer s' c o).map fun r => (r.1, s)
  | _, _ => none

/-- The server with what others have written. -/
def puts (s : Server) (os : List Object) : Server := os.foldl Versions.put s

/-- The commands against the moves of the surroundings, which meet the condition `ok`; others leave
the entry alone. -/
def answer (ok : Server → WbCmd → Outcome → Bool) :
    Server × List Move → (c : WbCmd) → Option (WbAns c × (Server × List Move))
  | (_, []), _ => none
  | (s, mv :: moves), c =>
    let s' := puts s mv.others
    if (mv.others.all fun o => entry node o = entry node s.current) && ok s' c mv.outcome then
      (reply node v m s' c mv.outcome).map fun r => (r.1, (r.2, moves))
    else none

/-- A list shows no entry that is not on the server, and a write that fails has dropped none. -/
def calm (s : Server) : WbCmd → Outcome → Bool
  | .list, .listed vols => vols.all fun o => o.name ≠ v ||
      slotError node o = none || slotError node o = slotError node s.current
  | .volume _ (.patch _ modified _), .volume (.fail _ applied) =>
    !applied || (slotError node modified).isSome
  | _, _ => true

/-- The last of the lines that is about the minor. -/
def lastEvent (lines : List Line) : Option FSEvent :=
  ((lines.filterMap parseFSEvent).filter (·.1 = m)).getLast?.map Prod.snd

/-! ## One command -/

variable {node v m}
variable {s s' : Server} {moves moves' : List Move} {c : WbCmd}

theorem last_puts (s : Server) (os : List Object) : (puts s os).last = s.last + os.length := by
  induction os generalizing s with
  | nil => rfl
  | cons o os ih =>
    rw [puts, List.foldl_cons, ← puts, ih]
    simp [Versions.put]
    omega

theorem entry_puts {os : List Object} (h : ∀ o ∈ os, entry node o = entry node s.current) :
    entry node (puts s os).current = entry node s.current := by
  induction os generalizing s with
  | nil => rfl
  | cons o os ih =>
    have ho : entry node (s.put o).current = entry node s.current := by
      rw [show (s.put o).current = o from Function.update_self ..]
      exact h o (by simp)
    exact (ih fun o' h' => (h o' (.tail _ h')).trans ho.symm).trans ho

theorem answer_spec {ok : Server → WbCmd → Outcome → Bool} {r : WbAns c}
    (h : answer node v m ok (s, moves) c = some (r, (s', moves'))) :
    ∃ os o, entry node (puts s os).current = entry node s.current ∧ ok (puts s os) c o ∧
      reply node v m (puts s os) c o = some (r, s') := by
  cases moves with
  | nil => simp [answer] at h
  | cons mv moves =>
    simp only [answer, Option.ite_none_right_eq_some, Bool.and_eq_true, List.all_eq_true,
      decide_eq_true_eq, Option.map_eq_some_iff] at h
    obtain ⟨⟨hos, hok⟩, ⟨r', s₁⟩, hr, heq⟩ := h
    cases heq
    exact ⟨mv.others, mv.outcome, entry_puts hos, hok, hr⟩

/-- Not a write to the volume. -/
def Reads (v : String) : WbCmd → Prop
  | .volume name (.patch ..) => name ≠ v
  | _ => True

theorem reply_reads {o : Outcome} {r : WbAns c} (h : reply node v m s c o = some (r, s'))
    (hc : Reads v c) : s' = s := by
  cases c with
  | volume name c =>
    cases o with
    | volume o =>
      obtain ⟨⟨rfl, -⟩, h⟩ := Option.ite_none_right_eq_some.mp h
      cases c with
      | patch base modified locked => exact absurd rfl hc
      | _ => cases o <;> simp_all [Cond.answer]
    | elsewhere s'' o =>
      obtain ⟨-, h⟩ := Option.ite_none_left_eq_some.mp h
      obtain ⟨r', -, heq⟩ := Option.map_eq_some_iff.mp h
      exact (congrArg Prod.snd heq).symm
    | _ => simp [reply] at h
  | range | rangeNames =>
    cases o <;> simp only [reply, Option.dite_none_right_eq_some, reduceCtorEq] at h
    all_goals exact (congrArg Prod.snd (Option.some.inj h.2)).symm
  | _ => cases o <;> simp_all [reply]

/-- The step of a command that does not write to the volume. -/
theorem answer_reads {r : WbAns c}
    (h : answer node v m (calm node v) (s, moves) c = some (r, (s', moves'))) (hc : Reads v c) :
    entry node s'.current = entry node s.current ∧
      ∃ o, calm node v s' c o ∧ reply node v m s' c o = some (r, s') := by
  obtain ⟨os, o, hkept, hok, hr⟩ := answer_spec h
  cases reply_reads hr hc
  exact ⟨hkept, o, hok, hr⟩

/-! ## Updates -/

theorem slotError_of_entry {o : Object} {e : Option WritebackError} (h : entry node o = some e) :
    slotError node o = e := by
  obtain ⟨st, hst, rfl⟩ := Option.map_eq_some_iff.mp h
  simp [slotError, hst]

theorem entry_mergePatch {base modified : Object} {e e' : Option WritebackError}
    (hb : entry node base = some e) (hm : entry node modified = some e') :
    entry node (mergePatch base modified base) = some e' := by
  have herr := slotError_of_entry hb
  have herr' := slotError_of_entry hm
  unfold slotError at herr herr'
  -- Each key of the loop writes its own slot only.
  have hloop (ks : List String) (slots : AList fun _ : String => NodeSlot) :
      let merged := ks.foldl (fun slots n =>
        let error (o : Object) := (o.perNode.lookup n).bind NodeSlot.writebackError
        if error base = error modified then slots
        else slots.insert n
          { (slots.lookup n).getD {} with writebackError := error modified }) slots
      (merged.lookup node).map NodeSlot.writebackError =
        if node ∈ ks ∧ e ≠ e' then some e'
        else (slots.lookup node).map NodeSlot.writebackError := by
    induction ks generalizing slots with
    | nil => simp
    | cons n ks ih =>
      simp only [List.foldl_cons, ih]
      rcases eq_or_ne node n with rfl | hn
      · by_cases hee : e = e' <;> simp [herr, herr', hee]
      · split_ifs <;> simp_all [AList.lookup_insert_ne]
  have hkey : node ∈ modified.perNode.keys := by
    obtain ⟨st, hst, -⟩ := Option.map_eq_some_iff.mp hm
    exact AList.mem_keys.mp (AList.lookup_isSome.mp (Option.isSome_of_eq_some hst))
  refine (hloop _ _).trans ?_
  by_cases hee : e = e'
  · rw [if_neg (by simp [hee])]
    exact hb.trans (congrArg some hee)
  · rw [if_pos ⟨hkey, hee⟩]

/-- Whether the slot has an entry after the update. -/
def wants : Mutation → Bool → Bool
  | .raise _, _ => true
  | .clear, _ => false
  | .rederive, b => b

theorem entry_setRestageCondition (o : Object) (now : Nat) :
    entry node (setRestageCondition o now) = entry node o := by
  unfold setRestageCondition
  split_ifs <;> rfl

theorem wants_of_mutate_none {mu : Mutation} {o : Object} {now : Nat} {e : Option WritebackError}
    (he : entry node o = some e) (h : mutate node mu o now = none) :
    e.isSome = wants mu e.isSome := by
  obtain ⟨st, hst, rfl⟩ := Option.map_eq_some_iff.mp he
  cases mu <;> simp_all [mutate, wants, Option.isSome_iff_ne_none]

theorem entry_mutate {mu : Mutation} {o o' : Object} {now : Nat} {e : Option WritebackError}
    (he : entry node o = some e) (h : mutate node mu o now = some o') :
    ∃ e', entry node o' = some e' ∧ e'.isSome = wants mu e.isSome ∧ (mu = .rederive → e' = e) := by
  obtain ⟨st, hst, rfl⟩ := Option.map_eq_some_iff.mp he
  cases mu with
  | rederive =>
    obtain ⟨-, h⟩ := Option.ite_none_left_eq_some.mp h
    cases h
    exact ⟨_, (entry_setRestageCondition ..).trans he, rfl, fun _ => rfl⟩
  | raise record | clear =>
    simp only [mutate, hst, Option.bind_some, Option.ite_none_left_eq_some, Option.some.injEq] at h
    obtain ⟨-, rfl⟩ := h
    rw [entry_setRestageCondition, entry, AList.lookup_insert]
    exact ⟨_, rfl, rfl, nofun⟩

/-- What a failed update may have done. -/
def Moved (mu : Mutation) (e e' : Option WritebackError) : Prop :=
  e' = e ∨ (∃ record, mu = .raise record) ∧ e'.isSome = true

/-- What an update comes to. -/
structure Updated (node : String) (mu : Mutation) (e : Option WritebackError)
    {α : Type} (r : Except Err α) (e' : Option WritebackError) (s' : Server) : Prop where
  slot : entry node s'.current = some e'
  done : r.toBool = true → e'.isSome = wants mu e.isSome ∧ (mu = .rederive → e' = e)
  failed : ∀ err, r = .error err → Moved mu e e' ∧ ∀ msg, err ≠ .notFound msg

theorem patch_spec {mu : Mutation} {os : List Object} {now : Nat} {modified : Object}
    {e : Option WritebackError} {r : Except Err Unit} (he : entry node s.current = some e)
    (hos : entry node (puts s os).current = some e)
    (hm : mutate node mu s.current now = some modified)
    (h : answer node v m (calm node v) (puts s os, moves)
      (.volume v (.patch ⟨s.last, s.current⟩ modified true)) = some (r, (s', moves'))) :
    ∃ e', Updated node mu e r e' s' := by
  obtain ⟨os', o, hkept, hok, hr⟩ := answer_spec h
  obtain ⟨e', he', hwant, hsame⟩ := entry_mutate he hm
  rw [hos] at hkept
  cases o with
  | volume o =>
    obtain ⟨⟨-, hun⟩, hr⟩ := Option.ite_none_right_eq_some.mp hr
    -- The lock holds only where nobody else has written since the read.
    have hput (hl : s.last = (puts (puts s os) os').last) :
        entry node ((puts (puts s os) os').put
          (mergePatch s.current modified (puts (puts s os) os').current)).current = some e' := by
      rw [last_puts, last_puts] at hl
      obtain rfl : os = [] := List.eq_nil_of_length_eq_zero (by omega)
      obtain rfl : os' = [] := List.eq_nil_of_length_eq_zero (by omega)
      rw [show ∀ (s : Server) (o : Object), (s.put o).current = o from
        fun s o => Function.update_self ..]
      exact entry_mergePatch he he'
    cases o with
    | ok =>
      simp only [Cond.answer] at hr
      split at hr
      · cases hr
        exact ⟨e, hkept, nofun, fun err herr => ⟨.inl rfl, by cases herr; nofun⟩⟩
      · cases hr
        exact ⟨e', hput (by simp_all), fun _ => ⟨hwant, hsame⟩, nofun⟩
    | fail err applied =>
      have hnf : ∀ msg, err ≠ .notFound msg := by
        rintro msg rfl
        simp [uncached] at hun
      simp only [Cond.answer] at hr
      split at hr
      · rename_i happ
        cases hr
        simp only [Bool.and_eq_true, Bool.not_eq_true'] at happ
        refine ⟨e', hput (by simp_all), nofun, fun err herr => ⟨?_, by cases herr; exact hnf⟩⟩
        have hsome : e'.isSome := by
          simpa [calm, happ.1, slotError_of_entry he'] using hok
        cases mu with
        | raise record => exact .inr ⟨⟨record, rfl⟩, hsome⟩
        | clear => simp [hsome, wants] at hwant
        | rederive => exact .inl (hsame rfl)
      · cases hr
        exact ⟨e, hkept, nofun, fun err herr => ⟨.inl rfl, by cases herr; exact hnf⟩⟩
    | _ => simp [Cond.answer] at hr
  | elsewhere s'' o => simp [reply] at hr
  | _ => simp [reply] at hr

theorem Updated.of_moved {mu : Mutation} {e e₁ e' : Option WritebackError} {α : Type}
    {r : Except Err α} (h : Updated node mu e₁ r e' s') (hm : Moved mu e e₁) :
    Updated node mu e r e' s' := by
  rcases hm with rfl | ⟨⟨record, rfl⟩, hsome⟩
  · exact h
  refine ⟨h.slot, fun hr => ⟨(h.done hr).1, nofun⟩, fun err herr => ⟨.inr ⟨⟨record, rfl⟩, ?_⟩,
    (h.failed err herr).2⟩⟩
  rcases (h.failed err herr).1 with rfl | ⟨-, hsome'⟩
  exacts [hsome, hsome']

theorem ends_attempts {mu : Mutation} {e : Option WritebackError} (n : Nat)
    (he : entry node s.current = some e) :
    Ends (answer node v m (calm node v)) (fun r s' => ∃ e', Updated node mu e r e' s'.1)
      (Prog.handle (fun c => call (WbCmd.volume v c)) (Cond.updateVolume node mu n))
      (s, moves) := by
  induction n generalizing s moves e with
  | zero => exact ends_ret ⟨e, he, nofun, fun err herr => ⟨.inl rfl, by cases herr; nofun⟩⟩
  | succ n ih =>
    refine ends_ask fun r ⟨s₁, moves₁⟩ hget => ?_
    obtain ⟨hkept, o, -, hr⟩ := answer_reads hget trivial
    rw [he] at hkept
    cases o with
    | volume o =>
      obtain ⟨⟨-, hun⟩, hr⟩ := Option.ite_none_right_eq_some.mp hr
      cases o with
      | version k =>
        simp only [uncached, decide_eq_true_eq] at hun
        subst hun
        simp only [Cond.answer, le_refl, ↓reduceIte, Option.some.injEq, Prod.mk.injEq] at hr
        obtain ⟨rfl, -⟩ := hr
        refine ends_ask fun now ⟨s₂, moves₂⟩ hclock => ?_
        obtain ⟨os, o', hkept', -, hr'⟩ := answer_spec hclock
        cases reply_reads hr' trivial
        rw [hkept] at hkept'
        cases hm : mutate node mu (s₁.version s₁.last) now with
        | none =>
          simp only [Prog.bind, hm]
          exact ends_ret ⟨e, hkept', fun _ => ⟨wants_of_mutate_none hkept hm, fun _ => rfl⟩, nofun⟩
        | some modified =>
          simp only [Prog.bind, hm]
          refine ends_ask fun r ⟨s₃, moves₃⟩ hpatch => ?_
          obtain ⟨e', hu⟩ := patch_spec hkept hkept' hm hpatch
          rcases r with (_ | msg | _ | _) | _
          case error.conflict =>
            intro r s' hr
            obtain ⟨e'', hu'⟩ := ih hu.slot r s' hr
            exact ⟨e'', hu'.of_moved (hu.failed _ rfl).1⟩
          case ok => exact ends_ret ⟨e', hu.slot, fun _ => hu.done rfl, nofun⟩
          all_goals exact ends_ret ⟨e', hu.slot, nofun, fun err herr => by
            cases herr
            exact hu.failed _ rfl⟩
      | fail err applied =>
        cases hr
        refine ends_ret ⟨e, hkept, nofun, fun err herr => ⟨.inl rfl, fun msg hmsg => ?_⟩⟩
        cases herr
        simp [uncached, hmsg] at hun
      | _ => simp [uncached, Cond.answer] at hr hun
    | _ => simp [reply] at hr

/-! ## The watcher -/

/-- Wherever the part comes to its end in calm surroundings, `Q` holds of the server. -/
abbrev Comes (node v : String) (m : Nat) {α : Type} (Q : α → Server → Prop) (p : WbM α)
    (s : Server × List Move) : Prop :=
  Ends (answer node v m (calm node v)) (fun a s' => Q a s'.1) p s

theorem comes_of_reads {α : Type} {p : WbM α} (hp : Asks (Reads v) p) :
    Comes node v m (fun _ s' => entry node s'.current = entry node s.current) p (s, moves) := by
  intro r s' hr
  refine hp.eval (K := fun a b => entry node b.1.current = entry node a.1.current) (fun _ => rfl)
    (fun _ _ _ h h' => ?_) (fun _ _ _ _ hc h => (answer_reads h hc).1) hr
  exact h'.trans h

theorem asks_updateVolume {name : String} (hn : name ≠ v) (mu : Mutation) :
    Asks (Reads v) (updateVolume node name mu) := by
  refine asks_handle (P := fun _ => True) ?_ fun c _ => ?_
  · induction Cond.updateVolume node mu defaultRetrySteps with
    | ret a => trivial
    | ask c k ih => exact ⟨trivial, ih⟩
  · refine asks_call.mpr ?_
    cases c <;> trivial

variable {e : Option WritebackError} {w : Watcher}

theorem comes_clear (he : entry node s.current = some e) :
    Comes node v m (fun r s' => r = (w.unflag v, none) ∧ entry node s'.current = some none ∨
      (∃ err, r = (w, some err)) ∧ entry node s'.current = some e) (clear node v w) (s, moves) := by
  refine (ends_attempts defaultRetrySteps he).bind fun r s' ⟨e', hu⟩ => ?_
  rcases r with (_ | _ | msg | _) | b
  case error.notFound => exact absurd rfl ((hu.failed _ rfl).2 msg)
  case ok =>
    refine ends_ret (.inl ⟨rfl, ?_⟩)
    rw [hu.slot, Option.not_isSome_iff_eq_none.mp (Bool.eq_false_iff.mp (hu.done rfl).1)]
  all_goals
    refine ends_ret (.inr ⟨⟨_, rfl⟩, ?_⟩)
    rcases (hu.failed _ rfl).1 with rfl | ⟨⟨record, h⟩, -⟩
    exacts [hu.slot, nomatch h]

theorem comes_clear_other {name : String} (hn : name ≠ v) :
    Comes node v m (fun r s' => entry node s'.current = entry node s.current ∧
      r.1.pending = w.pending ∧ (v ∈ r.1.flagged → v ∈ w.flagged)) (clear node name w)
      (s, moves) := by
  refine (comes_of_reads (asks_updateVolume hn .clear)).bind fun r s' hs => ?_
  rcases r with (_ | _ | msg | _) | b
  case ok => exact ends_ret ⟨hs, rfl, List.mem_of_mem_filter⟩
  all_goals exact ends_ret ⟨hs, rfl, id⟩

/-- What a list tells: the volume of the minor, and an entry only where there is one. -/
structure Listed (node v : String) (m : Nat) (e : Option WritebackError) (vols : List Object)
    (o : Object) : Prop where
  names : (vols.map Object.name).Nodup
  found : volumeForMinor vols node m = some o
  name : o.name = v
  shown : slotError node o = none ∨ slotError node o = e

theorem Listed.eq_of_name {vols : List Object} {o o' : Object} (h : Listed node v m e vols o)
    (ho' : o' ∈ vols) (hn : o'.name = v) : o' = o :=
  List.inj_on_of_nodup_map h.names ho' (List.mem_of_find?_eq_some h.found) (hn.trans h.name.symm)

theorem drbdMinor_of_volumeForMinor {vols : List Object} {o : Object} {minor : Nat}
    (h : volumeForMinor vols node minor = some o) :
    ∃ st, o.perNode.lookup node = some st ∧ st.drbdMinor = minor := by
  simpa [Option.any_eq_true] using List.find?_some h

theorem comes_apply {vols : List Object} {o : Object} {p : PendingEvent}
    (hl : Listed node v m e vols o) (he : entry node s.current = some e)
    (hf : v ∈ w.flagged → e.isSome) :
    Comes node v m (fun r s' => ∃ e', entry node s'.current = some e' ∧
      (v ∈ r.1.flagged → e'.isSome) ∧ r.1.pending = w.pending ∧
      (r.2 → e'.isSome = decide (p.ev = .lostWrite))) (apply node vols m p w) (s, moves) := by
  unfold apply
  simp only [hl.found, hl.name]
  split_ifs with hev hin
  · refine (comes_clear he).bind fun r s' hr => ?_
    rcases hr with ⟨rfl, hs⟩ | ⟨⟨err, rfl⟩, hs⟩
    · exact ends_ret ⟨none, hs, by simp [Watcher.unflag], rfl, by simp [hev]⟩
    · exact ends_ret ⟨e, hs, hf, rfl, nofun⟩
  · refine ends_ret ⟨e, he, hf, rfl, fun _ => ?_⟩
    have hsome : e.isSome := by
      rcases hin with hin | hin
      · exact hf hin
      · rcases hl.shown with h | h
        exacts [by simp [h] at hin, h ▸ hin]
    simpa [hsome] using hev
  · refine ends_ask fun r ⟨s₁, moves₁⟩ hask => ?_
    obtain ⟨hkept, o, -, hr⟩ := answer_reads hask trivial
    rw [he] at hkept
    rcases r with err | _ | _
    · exact ends_ret ⟨e, hkept, hf, rfl, nofun⟩
    · cases o <;> simp [reply] at hr
    · refine (ends_attempts defaultRetrySteps hkept).bind fun r s' ⟨e', hu⟩ => ?_
      rcases r with (_ | _ | msg | _) | b
      case error.notFound => exact absurd rfl ((hu.failed _ rfl).2 msg)
      case ok =>
        have hsome : e'.isSome := (hu.done rfl).1
        exact ends_ret ⟨e', hu.slot, fun _ => hsome, rfl, fun _ => by simpa [hsome] using hev⟩
      all_goals
        refine ends_ret ⟨e', hu.slot, fun hin => ?_, rfl, nofun⟩
        rcases (hu.failed _ rfl).1 with rfl | ⟨-, hsome⟩
        exacts [hf hin, hsome]

theorem comes_apply_other {vols : List Object} {o : Object} {minor : Nat} {p : PendingEvent}
    (hl : Listed node v m e vols o) (hm : minor ≠ m) :
    Comes node v m (fun r s' => entry node s'.current = entry node s.current ∧
      r.1.pending = w.pending ∧ (v ∈ r.1.flagged → v ∈ w.flagged))
      (apply node vols minor p w) (s, moves) := by
  unfold apply
  cases hvol : volumeForMinor vols node minor with
  | none => exact ends_ret ⟨rfl, rfl, id⟩
  | some vol =>
    have hn : vol.name ≠ v := by
      intro hn
      obtain rfl := hl.eq_of_name (List.mem_of_find?_eq_some hvol) hn
      obtain ⟨st, hst, rfl⟩ := drbdMinor_of_volumeForMinor hvol
      obtain ⟨st', hst', rfl⟩ := drbdMinor_of_volumeForMinor hl.found
      cases hst.symm.trans hst'
      exact hm rfl
    dsimp only
    split_ifs with hev hin
    · exact (comes_clear_other hn).bind fun r s' hr => ends_ret hr
    · exact ends_ret ⟨rfl, rfl, id⟩
    · refine ends_ask fun r ⟨s₁, moves₁⟩ hask => ?_
      have hkept := (answer_reads hask trivial).1
      rcases r with err | _ | _
      · exact ends_ret ⟨hkept, rfl, id⟩
      · exact ends_ret ⟨hkept, rfl, id⟩
      · refine (comes_of_reads (asks_updateVolume hn _)).bind fun r s' hs => ?_
        rcases r with (_ | _ | msg | _) | b
        case ok =>
          refine ends_ret ⟨hs.trans hkept, rfl, fun hin => ?_⟩
          exact (List.mem_insert_iff.mp hin).resolve_left hn.symm
        all_goals exact ends_ret ⟨hs.trans hkept, rfl, id⟩

/-- Whether the slot is to carry an entry once the pending event is applied. -/
def goal (m : Nat) (w : Watcher) (e : Option WritebackError) : Bool :=
  ((w.pending.lookup m).map fun p => decide (p.ev = .lostWrite)).getD e.isSome

/-- The slot is, or will be, as it should; a flag stands for an entry. -/
structure Tracks (node v : String) (m : Nat) (want : Bool) (e : Option WritebackError) (w : Watcher)
    (s : Server) : Prop where
  slot : entry node s.current = some e
  flag : v ∈ w.flagged → e.isSome = true
  goal : goal m w e = want

variable {want : Bool}

/-- Until its turn comes the event of the minor stays as it is, and so does the slot. -/
theorem comes_applyAll {vols : List Object} {o : Object} {e₀ : Option WritebackError}
    {rest : Events} (hn : rest.NodupKeys)
    (hl : Listed node v m e₀ vols o) (ht : Tracks node v m want e w s)
    (hp : ∀ p, ⟨m, p⟩ ∈ rest → w.pending.lookup m = some p ∧ e = e₀) :
    Comes node v m (fun w' s' => ∃ e', Tracks node v m want e' w' s') (applyAll node vols rest w)
      (s, moves) := by
  induction rest generalizing w s moves e with
  | nil => exact ends_ret ⟨e, ht⟩
  | cons entry rest ih =>
    obtain ⟨minor, p⟩ := entry
    rw [List.nodupKeys_cons] at hn
    rcases eq_or_ne minor m with rfl | hm
    · obtain ⟨hlook, rfl⟩ := hp p (.head _)
      refine (comes_apply hl ht.slot ht.flag).bind fun ⟨w', done⟩ s' ⟨e', hs, hf, hpend, hdone⟩ =>
        ih hn.2 (e := e') ⟨hs, ?_, ?_⟩ fun q hmem => absurd (List.mem_keys.mpr ⟨q, hmem⟩) hn.1
      · cases done <;> exact hf
      · have hgoal := ht.goal
        simp only [goal, hlook, Option.map_some, Option.getD_some] at hgoal
        cases done with
        | false =>
          have hpend : w'.pending = w.pending := hpend
          simpa [goal, hpend, hlook] using hgoal
        | true => simpa [goal, hdone rfl] using hgoal
    · refine (comes_apply_other hl hm).bind fun ⟨w', done⟩ s' ⟨hs, hpend, hf⟩ => ?_
      have hlook : (if done then { w' with pending := w'.pending.erase minor } else w' :
          Watcher).pending.lookup m = w.pending.lookup m := by
        cases done <;> simp [← hpend, AList.lookup_erase_ne hm.symm]
      refine ih hn.2 ⟨hs.trans ht.slot, fun hin => ht.flag (hf ?_), ?_⟩ fun q hmem => ?_
      · cases done <;> exact hin
      · simpa [goal, hlook] using ht.goal
      · rw [hlook]
        exact hp q (.tail _ hmem)

theorem listed_of_answer {r : Except Err (List Object)} {vols : List Object}
    (h : answer node v m (calm node v) (s, moves) .list = some (r, (s', moves')))
    (hr : r = .ok vols) (he : entry node s.current = some e) :
    entry node s'.current = some e ∧ ∃ o, Listed node v m e vols o := by
  obtain ⟨hkept, out, hcalm, hreply⟩ := answer_reads h trivial
  rw [he] at hkept
  refine ⟨hkept, ?_⟩
  subst hr
  cases out with
  | listed vols' =>
    obtain ⟨hres, hv⟩ := Option.ite_none_right_eq_some.mp hreply
    cases hv
    simp only [resolves, Bool.and_eq_true, decide_eq_true_eq, Option.any_eq_true] at hres
    obtain ⟨hnodup, o, hfound, hname, -⟩ := hres
    refine ⟨o, hnodup, hfound, hname, ?_⟩
    have := List.all_eq_true.mp hcalm o (List.mem_of_find?_eq_some hfound)
    simpa [hname, slotError_of_entry hkept] using this
  | _ => simp [reply] at hreply

theorem comes_applyPending (ht : Tracks node v m want e w s) :
    Comes node v m (fun w' s' => ∃ e', Tracks node v m want e' w' s') (applyPending node w)
      (s, moves) := by
  unfold applyPending
  split_ifs
  · exact ends_ret ⟨e, ht⟩
  refine ends_ask fun r ⟨s₁, moves₁⟩ hask => ?_
  cases r with
  | error err => exact ends_ret ⟨e, (answer_reads hask trivial).1.trans ht.slot, ht.flag, ht.goal⟩
  | ok vols =>
    obtain ⟨hs, o, hl⟩ := listed_of_answer hask rfl ht.slot
    refine ends_ask fun order ⟨s₂, moves₂⟩ hrange => ?_
    have hs := (answer_reads hrange trivial).1.trans hs
    exact comes_applyAll ((List.perm_nodupKeys order.2).mpr w.pending.nodupKeys) hl
      ⟨hs, ht.flag, ht.goal⟩ fun p hp => ⟨AList.mem_lookup_iff.mpr (order.2.mem_iff.mp hp), rfl⟩

/-- What the sweep may do: the slot stays as it is. -/
def Swept (node v : String) (e : Option WritebackError) (w w' : Watcher) (s' : Server) : Prop :=
  entry node s'.current = some e ∧ w'.pending = w.pending ∧ (v ∈ w'.flagged → e.isSome = true)

theorem comes_rederive (vol : Object) (he : entry node s.current = some e) :
    Comes node v m (fun _ s' => entry node s'.current = some e) (rederive node vol) (s, moves) := by
  unfold rederive
  split_ifs
  · exact ends_ret he
  rcases eq_or_ne vol.name v with hn | hn
  · rw [hn]
    refine (ends_attempts defaultRetrySteps he).bind fun r s' ⟨e', hu⟩ => ends_ret ?_
    cases r with
    | error err =>
      rcases (hu.failed err rfl).1 with rfl | ⟨⟨record, h⟩, -⟩
      exacts [hu.slot, nomatch h]
    | ok b => exact (hu.done rfl).2 rfl ▸ hu.slot
  · exact (comes_of_reads (asks_updateVolume hn _)).bind fun r s' hs => ends_ret (hs.trans he)

theorem asks_mountGone (minor : Nat) (e : WritebackError) (booted : Option Stamp) :
    Asks (Reads v) (mountGone minor e booted) := by
  unfold mountGone
  split_ifs
  · trivial
  refine asks_call_bind trivial fun r => ?_
  split <;> trivial

theorem comes_mountGone {x : WritebackError} {booted : Option Stamp} (hm : m ≠ 0)
    (hb : ∀ t ∈ booted, t ≤ x.since) :
    Comes node v m (fun gone _ => gone = false) (mountGone m x booted) (s, moves) := by
  unfold mountGone
  have : ¬(booted.any (x.since < ·) ∨ m = 0) := by
    simp only [hm, or_false, Option.any_eq_true, decide_eq_true_eq, not_exists, not_and, not_lt]
    exact hb
  rw [if_neg this]
  refine ends_ask fun r ⟨s₁, moves₁⟩ hask => ?_
  obtain ⟨-, o, -, hr⟩ := answer_reads hask trivial
  rcases r with err | _ | _
  · exact ends_ret rfl
  · cases o <;> simp [reply] at hr
  · exact ends_ret rfl

theorem comes_sweepListed {booted : Option Stamp} (hm : m ≠ 0)
    (hb : ∀ t ∈ booted, ∀ x ∈ e, t ≤ x.since) {vols : List Object} {unseen : List String}
    (hv : ∀ vol ∈ vols, vol.name = v → ∀ st, vol.perNode.lookup node = some st →
      st.drbdMinor = m ∧ (st.writebackError = none ∨ st.writebackError = e))
    (he : entry node s.current = some e) (hf : v ∈ w.flagged → e.isSome) :
    Comes node v m (fun r s' => Swept node v e w r.1 s') (sweepListed node booted vols w unseen)
      (s, moves) := by
  induction vols generalizing w s moves unseen with
  | nil => exact ends_ret ⟨he, rfl, hf⟩
  | cons vol vols ih =>
    have hv' := fun vol' h' => hv vol' (.tail _ h')
    refine (comes_rederive vol he).bind fun _ s₁ hs => ?_
    cases hst : vol.perNode.lookup node with
    | none => simpa only [hst] using ih hv' hs hf
    | some st =>
      simp only
      obtain ⟨rs, _ | x⟩ := st
      · exact ih hv' hs hf
      rcases eq_or_ne vol.name v with hn | hn
      · obtain ⟨rfl, hx⟩ := hv vol (.head _) hn _ hst
        have hx : some x = e := hx.resolve_left nofun
        refine Ends.bind (Q := fun gone s' => gone = false ∧ entry node s'.1.current = some e)
          (fun gone s' hr => ⟨comes_mountGone hm (fun t ht => hb t ht x hx.symm) gone s' hr,
            (comes_of_reads (asks_mountGone ..) gone s' hr).trans hs⟩) fun gone s₂ ⟨hg, hs₂⟩ => ?_
        subst hg
        exact ih hv' hs₂ fun _ => hx ▸ rfl
      · refine (comes_of_reads (asks_mountGone ..)).bind fun gone s₂ hs₂ => ?_
        cases gone with
        | true =>
          refine (comes_clear_other hn).bind fun ⟨w', err⟩ s₃ ⟨hs₃, hpend, hf'⟩ => ?_
          intro r s' hr
          obtain ⟨hslot, hp, hfl⟩ := ih hv' (hs₃.trans (hs₂.trans hs)) (fun h => hf (hf' h)) r s' hr
          exact ⟨hslot, hp.trans hpend, hfl⟩
        | false =>
          exact ih hv' (hs₂.trans hs) fun h => hf ((List.mem_insert_iff.mp h).resolve_left hn.symm)

theorem comes_sweepUnseen {names : List String} (he : entry node s.current = some e)
    (hf : v ∈ w.flagged → e.isSome) :
    Comes node v m (fun w' s' => Swept node v e w w' s') (sweepUnseen node names w) (s, moves) := by
  induction names generalizing w s moves with
  | nil => exact ends_ret ⟨he, rfl, hf⟩
  | cons name names ih =>
    refine ends_ask fun r ⟨s₁, moves₁⟩ hask => ?_
    have hs := (answer_reads hask trivial).1.trans he
    have hun : v ∈ (w.unflag name).flagged → e.isSome := fun h =>
      hf (List.mem_of_mem_filter h)
    rcases r with (_ | _ | _ | _) | _ | vol
    case ok.some =>
      simp only [Prog.bind]
      split_ifs
      exacts [ih hs hun, ih hs hf]
    case ok.none | error.notFound => exact ih hs hun
    all_goals exact ih hs hf

theorem comes_sweep (hm : m ≠ 0) (ht : Tracks node v m want e w s) :
    Comes node v m (fun w' s' => ∃ e', Tracks node v m want e' w' s') (sweep node w)
      (s, moves) := by
  refine ends_ask fun r ⟨s₁, moves₁⟩ hask => ?_
  cases r with
  | error err => exact ends_ret ⟨e, (answer_reads hask trivial).1.trans ht.slot, ht.flag, ht.goal⟩
  | ok vols =>
    obtain ⟨hs, o, hl⟩ := listed_of_answer hask rfl ht.slot
    refine ends_ask fun r ⟨s₂, moves₂⟩ hboot => ?_
    obtain ⟨hs', out, -, hr⟩ := answer_reads hboot trivial
    rw [hs] at hs'
    have hb : ∀ t ∈ r.toOption, ∀ x ∈ e, t ≤ x.since := by
      rintro t ht x rfl
      cases r with
      | error => cases ht
      | ok t' =>
        cases ht
        cases out <;> simp [reply, slotError_of_entry hs'] at hr
        exact hr.2 ▸ hr.1
    refine (comes_sweepListed hm hb (fun vol hmem hn st hst => ?_) hs' ht.flag).bind
      fun ⟨w', unseen⟩ s₃ ⟨hs₃, hp, hf⟩ => ?_
    · obtain rfl := hl.eq_of_name hmem hn
      obtain ⟨st', hst', hminor⟩ := drbdMinor_of_volumeForMinor hl.found
      cases hst.symm.trans hst'
      exact ⟨hminor, by simpa [slotError, hst] using hl.shown⟩
    · refine ends_ask fun order ⟨s₄, moves₄⟩ hrange r s' hr => ?_
      have hs₄ := (answer_reads hrange trivial).1.trans hs₃
      obtain ⟨hs', hp', hf'⟩ := comes_sweepUnseen hs₄ hf r s' hr
      exact ⟨e, hs', hf', by simpa [goal, hp'.trans hp] using ht.goal⟩

theorem goal_readLine (line : Line) :
    goal m (readLine w line) e =
      match parseFSEvent line with
      | some (minor, ev) => if minor = m then decide (ev = .lostWrite) else goal m w e
      | none => goal m w e := by
  cases hl : parseFSEvent line with
  | none => simp only [readLine, hl]
  | some p =>
    rcases eq_or_ne p.1 m with rfl | hm
    · simp [goal, readLine, hl]
    · simp [goal, readLine, hl, hm, AList.lookup_insert_ne hm.symm]

theorem lastEvent_append (lines lines' : List Line) :
    lastEvent m (lines ++ lines') = (lastEvent m lines').or (lastEvent m lines) := by
  simp [lastEvent, List.getLast?_append, Option.map_or]

/-- Whether the lines leave the slot with an entry. -/
def expected (m : Nat) (before : Bool) (lines : List Line) : Bool :=
  ((lastEvent m lines).map fun ev => decide (ev = .lostWrite)).getD before

theorem expected_append (before : Bool) (lines lines' : List Line) :
    expected m before (lines ++ lines') = expected m (expected m before lines) lines' := by
  unfold expected
  rw [lastEvent_append]
  cases lastEvent m lines' <;> rfl

theorem goal_readLines (lines : List Line) :
    goal m (lines.foldl readLine w) e = expected m (goal m w e) lines := by
  induction lines using List.reverseRecOn with
  | nil => rfl
  | append_singleton lines line ih =>
    rw [List.foldl_append, List.foldl_cons, List.foldl_nil, goal_readLine, ih, expected_append]
    cases hl : parseFSEvent line with
    | none => simp [expected, lastEvent, hl]
    | some p =>
      by_cases hm : p.1 = m <;> simp [expected, lastEvent, hl, hm]

theorem flagged_readLines (lines : List Line) : (lines.foldl readLine w).flagged = w.flagged := by
  induction lines generalizing w with
  | nil => rfl
  | cons line lines ih =>
    refine ih.trans ?_
    unfold readLine
    split <;> rfl

theorem comes_handle (hm : m ≠ 0) {lines : List Line} (ht : Tracks node v m want e w s) :
    Comes node v m (fun w' s' => ∃ e', Tracks node v m (expected m want lines) e' w' s')
      (handle node lines w) (s, moves) := by
  have ht' : Tracks node v m (expected m want lines) e (lines.foldl readLine w) s :=
    ⟨ht.slot, fun h => ht.flag (flagged_readLines lines ▸ h), by rw [goal_readLines, ht.goal]⟩
  refine (comes_applyPending ht').bind fun w' s' ⟨e', h⟩ => ?_
  refine ends_ask fun now ⟨s₁, moves₁⟩ hask => ?_
  have hs := (answer_reads hask trivial).1.trans h.slot
  simp only [Prog.bind]
  split_ifs
  · exact comes_sweep hm ⟨hs, h.flag, h.goal⟩
  · exact ends_ret ⟨e', hs, h.flag, h.goal⟩

theorem comes_watch (hm : m ≠ 0) (batches : List (List Line)) (ht : Tracks node v m want e w s) :
    Comes node v m (fun w' s' => ∃ e', Tracks node v m (expected m want batches.flatten) e' w' s')
      (watch node batches w) (s, moves) := by
  induction batches generalizing w s moves e want with
  | nil => exact ends_ret ⟨e, ht⟩
  | cons lines batches ih =>
    refine (comes_handle hm ht).bind fun w' s' ⟨e', h⟩ => ?_
    rw [List.flatten_cons, expected_append]
    exact ih h

/-- For every log, every split of it into polls and all calm moves of the surroundings: where
nothing is pending for the minor, the slot carries an entry if and only if the last line about the
minor is a lost write, or there is none and it carried one at the start. -/
theorem writeback_exact (hm : m ≠ 0) (batches : List (List Line)) {s₀ : Server}
    (h₀ : (s₀.current.perNode.lookup node).isSome)
    (h : (watch node batches {}).eval (answer node v m (calm node v)) (s₀, moves) =
      some (w, (s, moves'))) (hw : w.pending.lookup m = none) :
    (slotError node s.current).isSome =
      match lastEvent m batches.flatten with
      | some ev => decide (ev = .lostWrite)
      | none => (slotError node s₀.current).isSome := by
  obtain ⟨st, hst⟩ := Option.isSome_iff_exists.mp h₀
  have he : entry node s₀.current = some st.writebackError := by simp [entry, hst]
  obtain ⟨e', ht⟩ :=
    comes_watch hm batches ⟨he, fun h => absurd h List.not_mem_nil, rfl⟩ w (s, moves') h
  have hgoal := ht.goal
  simp only [goal, hw, Option.map_none, Option.getD_none] at hgoal
  rw [slotError_of_entry ht.slot, hgoal, slotError_of_entry he, expected]
  cases lastEvent m batches.flatten <;> rfl

def lostLine : Line :=
  "3,1,2,-;Buffer I/O error on dev drbd1000, logical block 5, lost async page write".toList

def mountedLine : Line := "6,3,4,-;EXT4-fs (drbd1000): mounted filesystem".toList

/-- A volume with the minor 1000 on node `a`. -/
def clean : Object where
  name := "v"
  spec := { sizeBytes := 1, replicas := [], drbd := true }
  perNode := AList.singleton "a" { drbdMinor := 1000 }

/-- The volume after the lost write, which is recorded at the first second. -/
def erring : Object :=
  (mutate "a" (.raise (String.ofList (kmsgPayload lostLine))) clean second).getD clean

def cleanServer : Server := ⟨fun _ => clean, 0⟩

/-- The lost write is recorded; the sweep of the same poll reads the volume where the list does not
show the entry yet. -/
def raiseMoves : List Move :=
  [⟨[], .listed [clean]⟩, ⟨[], .order [1000]⟩, ⟨[], .mounted true⟩, ⟨[], .volume (.version 0)⟩,
    ⟨[], .volume (.clock second)⟩, ⟨[], .volume .ok⟩, ⟨[], .clock second⟩, ⟨[], .listed [clean]⟩,
    ⟨[], .clock 0⟩, ⟨[], .names ["v"]⟩, ⟨[], .volume (.version 1)⟩]

/-- What a run leaves: the pending event of the minor, and whether the slot carries an entry. -/
def outcome (ok : Server → WbCmd → Outcome → Bool) (batches : List (List Line))
    (moves : List Move) :
    Option (Option PendingEvent × Bool) :=
  ((watch "a" batches {}).eval (answer "a" "v" 1000 ok) (cleanServer, moves)).map fun r =>
    (r.1.pending.lookup 1000, (slotError "a" r.2.1.current).isSome)

theorem writeback_exact_raised :
    outcome (calm "a" "v") [[lostLine]] raiseMoves = some (none, true) := by
  have hrun : ((watch "a" [[lostLine]] {}).eval (answer "a" "v" 1000 (calm "a" "v"))
      (cleanServer, raiseMoves)).any (fun r => r.1.pending.lookup 1000 = none) = true := by
    decide +kernel
  obtain ⟨⟨w, s, moves⟩, hr, hw⟩ := (Option.any_eq_true ..).mp hrun
  have hw : w.pending.lookup 1000 = none := of_decide_eq_true hw
  have hlast : lastEvent 1000 [lostLine] = some .lostWrite := by decide +kernel
  have h := writeback_exact (by decide) [[lostLine]] (by decide) hr hw
  rw [List.flatten_singleton, hlast] at h
  simp [outcome, hr, hw, h]

/-- The filesystem is mounted again and the entry cleared, and a second write is lost while the list
still shows the entry. -/
def droppedMoves : List Move :=
  raiseMoves ++ [⟨[], .listed [erring]⟩, ⟨[], .order [1000]⟩, ⟨[], .volume (.version 1)⟩,
    ⟨[], .volume (.clock second)⟩, ⟨[], .volume .ok⟩, ⟨[], .clock second⟩, ⟨[], .listed [erring]⟩,
    ⟨[], .order [1000]⟩, ⟨[], .clock second⟩]

theorem lost_write_dropped :
    outcome (fun _ _ _ => true) [[lostLine], [mountedLine], [lostLine]] droppedMoves =
        some (none, false) ∧
      lastEvent 1000 [lostLine, mountedLine, lostLine] = some .lostWrite := by
  decide +kernel

end Miroir.Writeback
