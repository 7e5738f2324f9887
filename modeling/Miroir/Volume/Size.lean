import Miroir.Api
import Mathlib.Algebra.Order.Ring.Int

/-!
# Sizes of backing devices

How large a backing has to be for the DRBD metadata at its end to leave the volume's nominal size
usable. `internalMetaOverhead` is the bound the source pads by; how much metadata `drbdmeta` really
writes, and how a backend rounds a size, is outside of it and comes in as a `Storage` with just the
properties the padding relies on.
-/

namespace Miroir

/-- The metadata peer slots create-md reserves. -/
def maxPeers : Nat := 7

/-- `n &^ (block - 1)` for a power of two: `n` rounded down to a multiple of `block`. -/
def clearLow (n block : Nat) : Nat := n / block * block

/-! ## Sectors -/

def sectorSize : Nat := 512

/-- `n &^ (sectorSize - 1)`; negative numbers are rounded down too. -/
def wholeSectors (n : Int) : Int := n / sectorSize * sectorSize

/-- The `int64` a sum comes out as. -/
def int64 (n : Int) : Int := (n + 2 ^ 63) % 2 ^ 64 - 2 ^ 63

/-- `alignSector`, with the wrap. -/
def alignSector64 (sizeBytes : Int) : Int := wholeSectors (int64 (sizeBytes + sectorSize - 1))

/-- `alignSector` of a size that does not wrap. -/
def alignSector (sizeBytes : Nat) : Nat := clearLow (sizeBytes + sectorSize - 1) sectorSize

theorem alignSector64_eq {n : Nat} (h : (n : Int) ≤ 2 ^ 63 - sectorSize) :
    alignSector64 n = alignSector n := by
  simp only [alignSector64, wholeSectors, int64, alignSector, clearLow, sectorSize] at *
  omega

theorem le_alignSector (n : Nat) : n ≤ alignSector n := by
  simp only [alignSector, clearLow, sectorSize]
  omega

theorem dvd_alignSector {n : Nat} : sectorSize ∣ alignSector n := Nat.dvd_mul_left _ _

/-! ## Metadata -/

/-- The bytes a backing needs beyond its nominal size for internal metadata to fit. -/
def internalMetaOverhead (sizeBytes : Nat) : Nat :=
  let block := 4096
  let perPeer := clearLow (sizeBytes / 32768 + block) block
  let overhead := perPeer * (maxPeers + 1) + 8 * 1048576
  let extent := 4 * 1048576
  clearLow (overhead + extent - 1) extent

example : internalMetaOverhead (2 ^ 30) = 12 * 1048576 := by decide

/-- The size a diskful backing must realize: padded if the volume is a restore that crossed the
replication boundary. -/
def VolumeSpec.backingBytes (spec : VolumeSpec) : Nat :=
  if spec.drbd && spec.source.any VolumeSource.padForMetadata then
    spec.sizeBytes + internalMetaOverhead spec.sizeBytes
  else spec.sizeBytes

/-- What the backends and drbdmeta do with sizes. Metadata sits at the end of the backing. -/
structure Storage where
  /-- The bytes of metadata create-md writes on a backing of this size. -/
  md : Nat → Nat
  /-- The size a node's backend makes of a requested one. -/
  round : String → Nat → Nat
  le_round : ∀ n s, s ≤ round n s
  usable_mono : ∀ p p', p ≤ p' → p - md p ≤ p' - md p'
  md_le : ∀ s, md (s + internalMetaOverhead s) ≤ internalMetaOverhead s

theorem le_internalMetaOverhead (s : Nat) : 8 * 1048576 ≤ internalMetaOverhead s := by
  simp only [internalMetaOverhead, clearLow]
  omega

/-- Backends that round nothing, and metadata of 8 MiB. -/
def Storage.exact : Storage where
  md _ := 8 * 1048576
  round _ s := s
  le_round _ _ := Nat.le_refl _
  usable_mono _ _ h := Nat.sub_le_sub_right h _
  md_le := le_internalMetaOverhead

/-- The bytes of a backing in front of its metadata. -/
def Storage.usable (σ : Storage) (p : Nat) : Nat := p - σ.md p

/-- A padded backing has its nominal size usable. -/
theorem Storage.le_usable (σ : Storage) {s p : Nat} (h : s + internalMetaOverhead s ≤ p) :
    s ≤ σ.usable p := by
  have hmd := σ.md_le s
  calc s ≤ s + internalMetaOverhead s - σ.md (s + internalMetaOverhead s) := by omega
    _ ≤ σ.usable p := σ.usable_mono _ _ h

theorem Storage.le_usable_of_padded (σ : Storage) {spec : VolumeSpec} (hd : spec.drbd)
    (hp : spec.source.any VolumeSource.padForMetadata) {p : Nat}
    (h : spec.backingBytes ≤ p) : spec.sizeBytes ≤ σ.usable p :=
  σ.le_usable (by simpa [VolumeSpec.backingBytes, hd, hp] using h)

/-! ## The padding -/

/-- The bitmap of one peer slot on a device of `p` bytes, a bit per 4 KiB. -/
def bitmapBytes (p : Nat) : Nat := ((p + 4095) / 4096 + 7) / 8

/-- The assumed internal layout of DRBD 9 on a device of `p` bytes: superblock and activity log, and
for each peer slot a bitmap in whole blocks. -/
def internalMetaBytes (p : Nat) : Nat := 36 * 1024 + maxPeers * clearLow (bitmapBytes p + 4095) 4096

/-- The layout grows by less than a byte in four thousand, and the slots have one bitmap to
spare. -/
theorem internalMetaBytes_le (s : Nat) :
    internalMetaBytes (s + internalMetaOverhead s) ≤ internalMetaOverhead s := by
  simp only [internalMetaBytes, bitmapBytes, internalMetaOverhead, clearLow, maxPeers]
  omega

theorem internalMetaOverhead_mono {s s' : Nat} (h : s ≤ s') :
    internalMetaOverhead s ≤ internalMetaOverhead s' := by
  have hpeer : clearLow (s / 32768 + 4096) 4096 ≤ clearLow (s' / 32768 + 4096) 4096 :=
    Nat.mul_le_mul_right _ (Nat.div_le_div_right (by omega))
  exact Nat.mul_le_mul_right _ (Nat.div_le_div_right (by simp only [maxPeers]; omega))

/-- A padded backing exposes its nominal size under the layout. Sizes are natural numbers, so this
covers those below the overflow. -/
theorem padding_sufficient (s : Nat) :
    internalMetaBytes (s + internalMetaOverhead s) ≤ internalMetaOverhead s ∧
    (∀ spec : VolumeSpec, spec.sizeBytes = s → spec.drbd = true →
      spec.source.any VolumeSource.padForMetadata = true →
      s ≤ spec.backingBytes - internalMetaBytes spec.backingBytes) ∧
    (∀ s', s ≤ s' → internalMetaOverhead s ≤ internalMetaOverhead s' ∧
      s + internalMetaOverhead s ≤ s' + internalMetaOverhead s') ∧
    4 * 1048576 ∣ internalMetaOverhead s := by
  have hmd := internalMetaBytes_le s
  refine ⟨hmd, fun spec hs hd hp => ?_, fun s' h => ?_, Nat.dvd_mul_left _ _⟩
  · rw [VolumeSpec.backingBytes, if_pos (by rw [hd, hp]; rfl), hs]
    omega
  · exact ⟨internalMetaOverhead_mono h, Nat.add_le_add h (internalMetaOverhead_mono h)⟩

/-- A restore of a gibibyte into a replicated volume. -/
theorem padding_sufficient_gib :
    2 ^ 30 ≤ 2 ^ 30 + 12 * 1048576 - internalMetaBytes (2 ^ 30 + 12 * 1048576) :=
  (padding_sufficient (2 ^ 30)).2.1
    { sizeBytes := 2 ^ 30, replicas := [], drbd := true, source := some ⟨"s", true⟩ } rfl rfl rfl

end Miroir
