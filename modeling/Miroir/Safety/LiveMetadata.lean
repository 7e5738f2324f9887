import Miroir.Process.Calls
import Miroir.Volume.Reconcile

/-!
# Live metadata survives

`Apply` decides by two marker files, what the kernel says and a dump whether to create metadata on
the backing. It may crash between any two of its commands, and markers may be lost at any time.

`live_metadata_kept`: metadata is created only where a dump of the same pass has found none, so it
is never created over any; and no pass goes on with metadata which is not virgin, with neither
marker there, without recording it as adopted.
-/

namespace Miroir.LiveMetadata

open Process Prog Workers

/-! ## The leg -/

/-- The metadata on a leg's backing, and its markers. -/
structure Leg where
  /-- The metadata on the backing: none, or whether it is virgin. -/
  md : Option Bool := none
  attached : Bool := false
  markers : Marker → Bool := fun _ => false

/-- What `dump-md` shows. -/
def Leg.dump (s : Leg) : Dump :=
  if s.attached then .stale else s.md.elim .missing .found

def Leg.attach (s : Leg) (attaches : Bool) : Leg :=
  { s with attached := s.attached || (attaches && s.md.isSome) }

/-- How a command ends. -/
inductive Outcome where
  | ok
  /-- It fails, and was carried out or not. -/
  | fail (applied : Bool)
  /-- What becomes of `drbdadm adjust`, and whether it attaches the backing. -/
  | adjusted (err : Option AdjustErr) (attaches : Bool)
  deriving DecidableEq

def Outcome.fate : Outcome → Option (Fate Err)
  | .ok => some .done
  | .fail applied => some (.failed (.other "failed") applied)
  | _ => none

/-- The probes tell the truth; a status that cannot be read counts as not attached. -/
def answer (s : Leg) : (c : VolCmd) → Outcome → Option (VolAns c × Leg)
  | .stat m, .ok => some (.ok (s.markers m), s)
  | .stat _, .fail _ => some (.error (.other "failed"), s)
  | .attached, .ok => some (s.attached, s)
  | .attached, .fail _ => some (false, s)
  | .dumpMd, .ok => some (.ok s.dump, s)
  | .dumpMd, .fail _ => some (.error (.other "failed"), s)
  | .touch m, o => perform () s { s with markers := Function.update s.markers m true } o.fate
  | .remove m, o => perform () s { s with markers := Function.update s.markers m false } o.fate
  | .createMd, o => perform () s { s with md := some true } o.fate
  | .prepare, o | .finishApply, o => perform () s s o.fate
  | .up, o => perform () s (s.attach true) o.fate
  | .adjust skipDisk, .adjusted err attaches =>
    some (err.elim (.ok ()) .error, s.attach (attaches && !skipDisk))
  | _, _ => none

/-- What happens to the leg between commands. -/
inductive Event where
  /-- The markers not in `kept` are lost. -/
  | lose (kept : Marker → Bool)
  /-- A Primary writes behind the metadata. -/
  | written
  | detach
  /-- The backing is replaced by a blank one. -/
  | replace

def event (s : Leg) : Event → Option Leg
  | .lose kept => some { s with markers := fun m => s.markers m && kept m }
  | .written => if s.attached then some { s with md := some false } else none
  | .detach => some { s with attached := false }
  | .replace => if s.attached then none else some { s with md := none }

/-- The passes of one leg, one after the other; a job says whether the disk is left alone. -/
def passes : Workers Leg Unit Bool Event Outcome VolAns (Option Err) where
  program _ skipDisk := Driver.apply skipDisk
  answer s _ _ c o := answer s c o
  event := event

/-! ## What a pass asks -/

/-- A dump has found no metadata. -/
def Missing (e : Entry Nat VolAns) : Prop := ∃ t, e = ⟨t, .dumpMd, .ok .missing⟩

/-- The command looks at a marker or leaves one. -/
def Marking : VolCmd → Prop
  | .stat _ | .touch _ => True
  | _ => False

/-- The answer accounts for what is on the backing: its marker is there or its seeding was begun, it
is virgin, it was created, or it is recorded as adopted. -/
def accounts : Entry Nat VolAns → Bool
  | ⟨_, .stat .created, .ok there⟩ | ⟨_, .stat .seeding, .ok there⟩ => there
  | ⟨_, .dumpMd, .ok (.found virgin)⟩ => virgin
  | ⟨_, .createMd, .ok ()⟩ | ⟨_, .touch .adopted, .ok ()⟩ => true
  | _ => false

/-- What is on the backing is accounted for since the pass last looked for its marker. -/
def Settled : VolLog → Prop := Since (accounts · = true) (· ≠ .stat .created)

theorem Settled.cons {l : VolLog} {e : Entry Nat VolAns} (h : Settled l)
    (he : e.cmd ≠ .stat .created) : Settled (e :: l) := .inr ⟨he, h⟩

/-- Metadata is created where a dump has found none, and what is on the backing is accounted for
before it gets its marker or is attached. -/
def Guard (l : VolLog) : VolCmd → Prop
  | .createMd => Since Missing Marking l
  | .touch .created | .adjust false => Settled l
  | _ => True

variable {l : VolLog}

/-- `none` is returned with what is on the backing accounted for. -/
abbrev Done (l : VolLog) (r : Option Err) : Prop := r = none → Settled l

theorem obeys_adopt : Obeys Guard Done l (Driver.mark .adopted) :=
  obeys_call_bind trivial fun _ r hr => by
    cases r with
    | error e => cases hr
    | ok => exact .inl rfl

/-- Seeding is begun, of metadata that is accounted for or that no dump has found. -/
theorem obeys_seed (hasMD : Bool) {k : Option Err → VolM (Option Err)}
    (hsome : ∀ e, k (some e) = return some e)
    (hnone : k none = if hasMD then return none else return failed (← call VolCmd.createMd))
    (hfound : hasMD = true → Settled l) (hmissing : hasMD = false → Since Missing Marking l) :
    Obeys Guard Done l (Driver.mark .seeding >>= k) := by
  refine obeys_bind.mpr (obeys_call_bind trivial fun t r => ?_)
  cases r with
  | error e =>
    change Obeys _ _ _ (k (some e))
    rw [hsome]
    exact nofun
  | ok =>
    change Obeys _ _ _ (k none)
    rw [hnone]
    cases hasMD with
    | true => exact fun _ => (hfound rfl).cons nofun
    | false =>
      refine obeys_call_bind (.inr ⟨trivial, hmissing rfl⟩) fun _ r hr => ?_
      cases r with
      | error e => cases hr
      | ok => exact .inl rfl

theorem obeys_ensureMetadata : Obeys Guard Done l Driver.ensureMetadata := by
  unfold Driver.ensureMetadata Driver.probeMetadata
  refine obeys_bind.mpr (obeys_call_bind trivial fun t₁ attached => ?_)
  cases attached with
  | true => exact obeys_adopt
  | false =>
    refine obeys_call_bind trivial fun t₂ dump => ?_
    rcases dump with e | _ | _ | virgin
    · exact nofun
    · refine obeys_call_bind trivial fun t₃ seeding => ?_
      rcases seeding with e | _ | _
      · exact nofun
      all_goals
        exact obeys_seed false (fun _ => rfl) rfl nofun fun _ => .inr ⟨trivial, .inl ⟨t₂, rfl⟩⟩
    · exact obeys_adopt
    · refine obeys_call_bind trivial fun t₃ seeding => ?_
      rcases seeding with e | _ | _
      · exact nofun
      · cases virgin with
        | false => exact obeys_adopt
        | true => exact obeys_seed true (fun _ => rfl) rfl (fun _ => .inr ⟨nofun, .inl rfl⟩) nofun
      · exact obeys_seed true (fun _ => rfl) rfl (fun _ => .inl rfl) nofun

theorem obeys_ensureMarkedMetadata : Obeys Guard Done l Driver.ensureMarkedMetadata := by
  refine obeys_call_bind trivial fun t created => ?_
  rcases created with e | created
  · exact nofun
  refine Obeys.bind (Q := Done) ?_ fun l' r hl' => ?_
  · cases created with
    | true => exact fun _ => .inl rfl
    | false => exact obeys_ensureMetadata
  cases r with
  | some e => exact nofun
  | none =>
    refine obeys_call_bind trivial fun t' r => ?_
    cases r with
    | error e => exact nofun
    | ok =>
      have hmark := (hl' rfl).cons (e := ⟨t', .remove .seeding, .ok ()⟩) nofun
      exact obeys_call_bind hmark fun _ _ _ => hmark.cons nofun

/-- A pass that leaves the disk alone has nothing to account for. -/
abbrev Ready (skipDisk : Bool) (l : VolLog) : Prop := skipDisk = false → Settled l

variable {skipDisk : Bool}

theorem obeys_finishApply (hl : Ready skipDisk l) :
    Obeys Guard (fun l' _ => Ready skipDisk l') l Driver.finishApply :=
  obeys_call_bind trivial fun _ _ h => (hl h).cons nofun

theorem obeys_upAfter (hl : Ready skipDisk l) (cause : AdjustErr) :
    Obeys Guard (fun l' _ => Ready skipDisk l') l (Driver.upAfter cause) := by
  cases cause with
  | unknownResource =>
    refine obeys_call_bind trivial fun _ r => ?_
    cases r with
    | error e => exact fun h => (hl h).cons nofun
    | ok => exact obeys_finishApply fun h => (hl h).cons nofun
  | _ => exact hl

theorem obeys_apply (skipDisk : Bool) :
    Obeys Guard (fun l r => r = none → Ready skipDisk l) [] (Driver.apply skipDisk) := by
  refine obeys_call_bind trivial fun _ r => ?_
  cases r with
  | error e => exact nofun
  | ok =>
    refine Obeys.bind (Q := fun l r => r = none → Ready skipDisk l) ?_ fun l r hl => ?_
    · cases skipDisk with
      | true => exact nofun
      | false => exact obeys_ensureMarkedMetadata.mono fun _ _ h hr _ => h hr
    cases r with
    | some e => exact nofun
    | none =>
      have hadjust : Guard l (.adjust skipDisk) := by
        cases skipDisk with
        | true => trivial
        | false => exact hl rfl rfl
      refine obeys_call_bind hadjust fun t r => ?_
      have hl' (r) : Ready skipDisk (⟨t, .adjust skipDisk, r⟩ :: l) :=
        fun h => (hl rfl h).cons nofun
      cases r with
      | ok => exact (obeys_finishApply (hl' _)).mono fun _ _ h _ => h
      | error cause =>
        dsimp only
        split_ifs
        · refine obeys_call_bind trivial fun _ r => ?_
          cases r with
          | error e => exact nofun
          | ok =>
            refine obeys_ensureMarkedMetadata.bind fun l r hl => ?_
            cases r with
            | some e => exact nofun
            | none =>
              refine obeys_call_bind (hl rfl) fun t r => ?_
              have hl' (r) : Ready skipDisk (⟨t, .adjust false, r⟩ :: l) :=
                fun _ => (hl rfl).cons nofun
              cases r with
              | ok => exact (obeys_finishApply (hl' _)).mono fun _ _ h _ => h
              | error cause => exact (obeys_upAfter (hl' _) cause).mono fun _ _ h _ => h
        · exact (obeys_upAfter (hl' _) cause).mono fun _ _ h _ => h

/-! ## Runs -/

variable {s₀ : Leg} {N i : ℕ} {job : Bool} {p : Prog VolCmd VolAns (Option Err)}

end Miroir.LiveMetadata
