import Miroir.Csi.CreateVolume

/-!
# The sizes that are stored

Requests name sizes as `int64`, and rounding one up to whole sectors can wrap. `createVolume64` and
`controllerExpandVolume` are the two paths of a requested size with that arithmetic, from the checks
to the spec and to the capacity that is answered.

What is stored keeps to the request just where nothing wraps and a whole number of sectors is within
the bounds (`sizes_within_iff`). An expansion never reads the limit, and takes a size that wraps for
one that is there already (`sizes_escape`).
-/

namespace Miroir.Prov

open Process Prog Data

/-- The calls around the size checks. -/
inductive SizeCmd where
  /-- Everything behind the size checks of `CreateVolume`: an object with the size in its spec is
  created, or found, and becomes ready. -/
  | provision (sizeBytes : Int)
  /-- `requireVolume`: the size in the spec. -/
  | volume
  | expandWithinHeadroom (newSize : Int)
  /-- The patch, which answers with the size the API server has. -/
  | patchSize (newSize : Int)
  /-- The wait for every diskful slot to report the size. -/
  | grown (newSize : Int)
  deriving DecidableEq

abbrev SizeAns : SizeCmd → Type
  | .volume => Except Status Int
  | .provision _ | .expandWithinHeadroom _ | .grown _ => Except Status Unit
  | .patchSize _ => Except String Int

abbrev SizeM := Prog SizeCmd SizeAns

/-- `CreateVolume`: the capacity it answers. -/
def createVolume64 (required limit : Int) : SizeM (Except Status Int) := do
  match createSize required limit with
  | .error st => return .error st
  | .ok size =>
    match ← call (SizeCmd.provision size) with
    | .error st => return .error st
    | .ok () => return .ok size

/-- Raise the size in the spec, unless it is there already. -/
def growSpec (size newSize : Int) : SizeM (Except Status Int) := do
  if size < newSize then
    match ← call (SizeCmd.expandWithinHeadroom newSize) with
    | .error st => return .error st
    | .ok () =>
      match ← call (SizeCmd.patchSize newSize) with
      | .error e => return .error ⟨.internal, "grow volume: " ++ e⟩
      | .ok size => return .ok size
  else return .ok size

/-- `ControllerExpandVolume` of a request that names a volume: the capacity it answers. -/
def controllerExpandVolume (required : Int) : SizeM (Except Status Int) := do
  if required = 0 then return .error ⟨.invalidArgument, "capacity range is required"⟩
  let newSize := alignSector64 required
  match ← call SizeCmd.volume with
  | .error st => return .error st
  | .ok size =>
    match ← growSpec size newSize with
    | .error st => return .error st
    | .ok size =>
      match ← call (SizeCmd.grown newSize) with
      | .error st => return .error st
      | .ok () => return .ok (max newSize size)

/-! ## Sizes -/

/-- What a request bounds its size by; a limit of 0 is none. -/
structure Within (required limit size : Int) : Prop where
  pos : 0 < size
  aligned : (sectorSize : Int) ∣ size
  ge : required ≤ size
  le : 0 < limit → size ≤ limit

/-- Rounding up does not wrap, and some whole number of sectors is between the two bounds. -/
structure Fits (required limit : Int) : Prop where
  fits : required ≤ 2 ^ 63 - sectorSize
  between : limit = 0 ∨ ∃ m, required ≤ m * sectorSize ∧ m * sectorSize ≤ limit

variable {required limit size : Int}

/-- Where nothing wraps, rounding up is to the next sector. -/
theorem alignSector64_spec (h : 0 ≤ required) (hfit : required ≤ 2 ^ 63 - sectorSize) :
    required ≤ alignSector64 required ∧ alignSector64 required < required + sectorSize ∧
      (sectorSize : Int) ∣ alignSector64 required := by
  simp only [alignSector64, wholeSectors, int64, sectorSize] at *
  omega

/-- In the last sector it wraps. -/
theorem alignSector64_wraps (hfit : 2 ^ 63 - sectorSize < required) (h : required < 2 ^ 63) :
    alignSector64 required = -2 ^ 63 := by
  simp only [alignSector64, wholeSectors, int64, sectorSize] at *
  omega

theorem within_of_checkLimit {n : Int}
    (h : createSize.checkLimit limit (alignSector64 n) = .ok size)
    (hn : 0 < n) (hreq : required ≤ n) (hfit : n ≤ 2 ^ 63 - sectorSize) :
    Within required limit size := by
  obtain ⟨hge, -, hdvd⟩ := alignSector64_spec hn.le hfit
  rw [createSize.checkLimit] at h
  split at h
  · cases h
  · rename_i hlimit
    cases h
    exact ⟨hn.trans_le hge, hdvd, hreq.trans hge, by simpa using hlimit⟩

theorem within_createSize (h : 0 ≤ required) (hfit : required ≤ 2 ^ 63 - sectorSize)
    (hsize : createSize required limit = .ok size) : Within required limit size := by
  obtain ⟨n, hn, hcheck⟩ := bind_eq_ok.mp hsize
  rw [createSize.chosen] at hn
  split at hn
  · rename_i h0
    split at hn
    · rename_i hsmall
      split at hn
      · cases hn
      · rename_i hz
        cases hn
        simp only [Bool.and_eq_true, decide_eq_true_iff] at hsmall
        have hpos : 0 < wholeSectors limit ∧ wholeSectors limit ≤ 2 ^ 63 - sectorSize := by
          simp only [wholeSectors, sectorSize] at hz ⊢
          omega
        exact within_of_checkLimit hcheck hpos.1 (by omega) hpos.2
    · cases hn
      exact within_of_checkLimit hcheck (by decide) (by omega) (by decide)
  · cases hn
    exact within_of_checkLimit hcheck (by omega) (by omega) hfit

/-! ## Programs -/

/-- A size that goes into a spec has the property. -/
def Stores (P : Int → Prop) : SizeCmd → Prop
  | .provision n | .patchSize n => P n
  | _ => True

variable {P : Int → Prop}

theorem obeys_growSpec {newSize : Int} (h : P newSize) (l : Log Nat SizeAns) (size : Int) :
    Obeys (fun _ => Stores P) (fun _ _ => True) l (growSpec size newSize) := by
  rw [growSpec]
  split
  · refine obeys_call_bind trivial fun t r => ?_
    rcases r with (st | _)
    · trivial
    refine obeys_call_bind h fun t r => ?_
    rcases r with (e | _) <;> trivial
  · trivial

/-- A grow is patched in as the rounded size, and the answer is at least that. -/
theorem obeys_controllerExpandVolume (required : Int)
    (h : required ≠ 0 → P (alignSector64 required)) :
    Obeys (fun _ => Stores P)
      (fun _ r => ∀ capacity, r = .ok capacity → alignSector64 required ≤ capacity)
      ([] : Log Nat SizeAns) (controllerExpandVolume required) := by
  rw [controllerExpandVolume]
  split
  · exact nofun
  rename_i hpos
  refine obeys_call_bind trivial fun t r => ?_
  rcases r with (st | size)
  · exact nofun
  refine (obeys_growSpec (h hpos) _ size).bind fun l r _ => ?_
  rcases r with (st | size)
  · exact nofun
  refine obeys_call_bind trivial fun t r => ?_
  rcases r with (st | _)
  · exact nofun
  · rintro _ ⟨⟩
    exact le_max_left _ _

/-- A create that stores only sizes within the bounds does not wrap. -/
theorem fits_of_create (hmax : required < 2 ^ 63)
    (h : Obeys (fun _ => Stores (Within required limit))
      (fun _ r => ∀ capacity, r = .ok capacity → required ≤ capacity)
      ([] : Log Nat SizeAns) (createVolume64 required limit)) :
    required ≤ 2 ^ 63 - sectorSize := by
  by_contra hlt
  have hsize : createSize required limit = .ok (-2 ^ 63) := by
    have hchosen : createSize.chosen required limit = .ok required :=
      if_neg fun h0 : required = 0 => hlt (h0 ▸ by decide)
    rw [createSize, hchosen]
    change createSize.checkLimit limit (alignSector64 required) = _
    rw [alignSector64_wraps (not_le.mp hlt) hmax, createSize.checkLimit, if_neg]
    simp only [Bool.and_eq_true, decide_eq_true_iff]
    omega
  rw [createVolume64, hsize] at h
  exact absurd h.1.pos (by decide)

/-- An expansion of a volume without size asks for the rounded one. -/
theorem within_of_expand (hpos : 0 < required) (hfit : required ≤ 2 ^ 63 - sectorSize)
    (h : Obeys (fun _ => Stores (Within required limit))
      (fun _ r => ∀ capacity, r = .ok capacity → required ≤ capacity)
      ([] : Log Nat SizeAns) (controllerExpandVolume required)) :
    Within required limit (alignSector64 required) := by
  have hgrow : 0 < alignSector64 required := hpos.trans_le (alignSector64_spec hpos.le hfit).1
  rw [controllerExpandVolume, if_neg hpos.ne'] at h
  have h : Obeys _ _ _ (growSpec 0 (alignSector64 required) >>= _) := h.2 0 (.ok 0)
  rw [growSpec, if_pos hgrow] at h
  exact (h.2 0 (.ok ())).1

/-- For every required size and limit an `int64` holds, and whatever the API server and the nodes
answer: a create and an expansion store only positive numbers of whole sectors that are at least
what is required and within the limit, if one is given, and answer at least what is required, if and
only if rounding up does not wrap and leaves the size within the limit. -/
theorem sizes_within_iff (hreq : 0 ≤ required) (hmax : required < 2 ^ 63) (hlimit : 0 ≤ limit) :
    Fits required limit ↔
      Obeys (fun _ => Stores (Within required limit))
        (fun _ r => ∀ capacity, r = .ok capacity → required ≤ capacity)
        ([] : Log Nat SizeAns) (createVolume64 required limit) ∧
      Obeys (fun _ => Stores (Within required limit))
        (fun _ r => ∀ capacity, r = .ok capacity → required ≤ capacity)
        ([] : Log Nat SizeAns) (controllerExpandVolume required) := by
  constructor
  · rintro ⟨hfit, hbetween⟩
    obtain ⟨hge, hlt, hdvd⟩ := alignSector64_spec hreq hfit
    constructor
    · rw [createVolume64]
      split
      · exact nofun
      · rename_i size hsize
        have hwithin := within_createSize hreq hfit hsize
        refine obeys_call_bind hwithin fun t r => ?_
        rcases r with (st | _)
        · exact nofun
        · rintro _ ⟨⟩
          exact hwithin.ge
    · have hle (hpos : 0 < limit) : alignSector64 required ≤ limit := by
        obtain ⟨m, hm, hml⟩ := hbetween.resolve_left hpos.ne'
        obtain ⟨k, hk⟩ := hdvd
        simp only [sectorSize] at *
        omega
      have hexpand := obeys_controllerExpandVolume required
        (P := Within required limit) fun hpos => ⟨by omega, hdvd, hge, hle⟩
      exact hexpand.mono fun _ _ h capacity hr => hge.trans (h capacity hr)
  · rintro ⟨hcreate, hexpand⟩
    have hfit := fits_of_create hmax hcreate
    refine ⟨hfit, hlimit.eq_or_lt.imp Eq.symm fun hpos => ?_⟩
    rcases hreq.eq_or_lt with rfl | hreq
    · exact ⟨0, by omega, by omega⟩
    · have hwithin := within_of_expand hreq hfit hexpand
      obtain ⟨m, hm⟩ := hwithin.aligned
      rw [mul_comm] at hm
      exact ⟨m, hm ▸ hwithin.ge, hm ▸ hwithin.le hpos⟩

/-- Without a required size, a limit below the default is rounded down. -/
theorem sizes_within_defaulted : Within 0 1000 512 := by
  have hfits : Fits 0 1000 := ⟨by decide, .inr ⟨0, by decide, by decide⟩⟩
  exact ((sizes_within_iff (by decide) (by decide) (by decide)).mp hfits).1.1

/-- The API server and the nodes of a volume of the given size, which grows at once. -/
def growing (size : Int) : (c : SizeCmd) → Option (SizeAns c × Int)
  | .volume => some (.ok size, size)
  | .patchSize n => some (.ok n, n)
  | .provision _ | .expandWithinHeadroom _ | .grown _ => some (.ok (), size)

/-- A limit that is not a whole number of sectors is passed by an expansion to it. A size in the
last sector of the range wraps to a negative one: a create takes it, whatever the limit, and an
expansion answers with the size that is there. -/
theorem sizes_escape :
    (controllerExpandVolume 1000).eval growing 512 = some (.ok 1024, 1024) ∧
    createSize (2 ^ 63 - 1) (2 ^ 63 - 1) = .ok (-2 ^ 63) ∧
    (controllerExpandVolume (2 ^ 63 - 1)).eval growing 512 = some (.ok 512, 512) :=
  ⟨rfl, rfl, rfl⟩

end Miroir.Prov
