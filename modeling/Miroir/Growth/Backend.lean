import Miroir.Controller.Topology
import Miroir.Volume.Size
import Mathlib.Algebra.Order.Floor.Div

/-!
# The sizes of backings

Replicas of one volume may use different backends on different nodes, and each rounds a request up
to a unit of its own: the extents of a volume group, the blocks of a zvol, or nothing for an image
file. `Geometry.realize_le` compares what two of them make of their requests.
-/

namespace Miroir

/-! ## Rounding -/

/-- The size rounded up to the block size. -/
def alignSize (sizeBytes blockSize : Nat) : Nat := clearLow (sizeBytes + blockSize - 1) blockSize

section Rounding

variable {m n a b : Nat}

theorem alignSize_eq (n b : Nat) : alignSize n b = n ⌈/⌉ b * b := by
  rw [Nat.ceilDiv_eq_add_pred_div]
  rfl

theorem dvd_alignSize (n b : Nat) : b ∣ alignSize n b := Dvd.intro_left _ rfl

theorem le_alignSize (hb : 0 < b) : n ≤ alignSize n b := by
  rw [alignSize_eq, mul_comm]
  exact (ceilDiv_le_iff_le_mul hb).mp (le_refl _)

/-- It is the least multiple of the block size that holds the request. -/
theorem alignSize_le_of_dvd (hb : 0 < b) (hd : b ∣ m) (h : n ≤ m) : alignSize n b ≤ m := by
  obtain ⟨k, rfl⟩ := hd
  rw [alignSize_eq, mul_comm]
  exact Nat.mul_le_mul_left b ((ceilDiv_le_iff_le_mul hb).mpr h)

theorem alignSize_of_dvd (hb : 0 < b) (hd : b ∣ n) : alignSize n b = n :=
  Nat.le_antisymm (alignSize_le_of_dvd hb hd (le_refl n)) (le_alignSize hb)

/-- A coarser block rounds no less, if the finer one divides it. -/
theorem alignSize_le_alignSize (ha : 0 < a) (hb : 0 < b) (hd : a ∣ b) (h : m ≤ n) :
    alignSize m a ≤ alignSize n b :=
  alignSize_le_of_dvd ha (hd.trans (dvd_alignSize n b)) (h.trans (le_alignSize hb))

/-- Rounding to a divisor first makes no difference. -/
theorem alignSize_alignSize (ha : 0 < a) (hb : 0 < b) (hd : a ∣ b) :
    alignSize (alignSize n a) b = alignSize n b := by
  apply Nat.le_antisymm
  · exact alignSize_le_of_dvd hb (dvd_alignSize n b) (alignSize_le_alignSize ha hb hd (le_refl n))
  · exact alignSize_le_alignSize hb hb (dvd_refl b) (le_alignSize ha)

end Rounding

/-! ## Backends -/

/-- The granularity `lvcreate` and `lvextend` require of byte sizes. -/
def lvmSectorSize : Nat := 512

/-- The extent size of a volume group. -/
abbrev Extent := { n : Nat // 0 < n ∧ lvmSectorSize ∣ n }

abbrev BlockSize := { n : Nat // 0 < n }

/-- What a device is rounded by. -/
inductive Geometry where
  | lv (extent : Extent)
  | zvol (blockSize : BlockSize)
  | image
  deriving DecidableEq

namespace Geometry

/-- The unit a size is rounded up to. -/
def unit : Geometry → BlockSize
  | lv extent => ⟨extent.1, extent.2.1⟩
  | zvol blockSize => blockSize
  | image => ⟨1, Nat.one_pos⟩

/-- The bytes a backend's `Create` and `Resize` make of a request. -/
def realize (sizeBytes : Nat) : Geometry → Nat
  -- LVM is asked for whole sectors, and rounds up to its extents.
  | lv extent => alignSize (alignSize sizeBytes lvmSectorSize) extent.1
  | zvol blockSize => alignSize sizeBytes blockSize.1
  | image => sizeBytes

theorem realize_eq (g : Geometry) (n : Nat) : g.realize n = alignSize n g.unit.1 := by
  cases g with
  | lv extent => exact alignSize_alignSize (by decide) extent.2.1 extent.2.2
  | zvol blockSize => rfl
  | image => exact (alignSize_of_dvd Nat.one_pos (one_dvd n)).symm

theorem le_realize (g : Geometry) (n : Nat) : n ≤ g.realize n := by
  rw [realize_eq]
  exact le_alignSize g.unit.2

/-- A request that is no smaller makes a device that is no smaller, if the other one needs no
rounding or its unit divides the own. -/
theorem realize_le {g g' : Geometry} {m n : Nat} (h : m ≤ n)
    (hd : g.unit.1 ∣ m ∨ g.unit.1 ∣ g'.unit.1) : g.realize m ≤ g'.realize n := by
  rcases hd with hd | hd
  · calc g.realize m = m := by rw [realize_eq, alignSize_of_dvd g.unit.2 hd]
      _ ≤ n := h
      _ ≤ g'.realize n := g'.le_realize n
  · rw [realize_eq, realize_eq]
    exact alignSize_le_alignSize g.unit.2 g'.unit.2 hd h

end Geometry

def defaultZFSVolBlockSize : BlockSize := ⟨4096, by decide⟩

/-- The block size of new zvols, as `newZFS` takes it from the configuration. -/
def Pool.volBlockSize (pool : Pool) : BlockSize :=
  if h : pool.zfsVolBlockSize = 0 then defaultZFSVolBlockSize
  else ⟨pool.zfsVolBlockSize, Nat.pos_of_ne_zero h⟩

/-- What a pool makes new devices with; `extent` is the one of its volume group, if it has one. -/
def Pool.geometry (pool : Pool) (extent : Extent) : Geometry :=
  match pool.backend with
  | .lvmthin => .lv extent
  | .zfs => .zvol pool.volBlockSize
  | .loopfile => .image

/-! ## Devices -/

/-- A backing device. It has the bytes its geometry makes of the request it was made or last grown
for; a clone has those of its origin until it is grown. -/
structure Device where
  geometry : Geometry
  bytes : Nat
  asked : Option Nat
  realized : ∀ n ∈ asked, bytes = geometry.realize n
  deriving DecidableEq

namespace Device

def create (geometry : Geometry) (sizeBytes : Nat) : Device where
  geometry := geometry
  bytes := geometry.realize sizeBytes
  asked := some sizeBytes
  realized := by simp

def clone (geometry : Geometry) (bytes : Nat) : Device where
  geometry := geometry
  bytes := bytes
  asked := none
  realized := nofun

/-- `Resize`, which rounds by the device's own geometry. -/
def resize (d : Device) (sizeBytes : Nat) : Device :=
  if sizeBytes ≤ d.bytes then d else create d.geometry sizeBytes

theorem le_resize (d : Device) (n : Nat) : n ≤ (d.resize n).bytes := by
  unfold resize
  split
  · assumption
  · exact d.geometry.le_realize n

theorem bytes_le_resize (d : Device) (n : Nat) : d.bytes ≤ (d.resize n).bytes := by
  unfold resize
  split
  · exact Nat.le_refl _
  · exact (Nat.le_of_not_le ‹_›).trans (d.geometry.le_realize n)

end Device

end Miroir
