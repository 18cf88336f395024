/-
Where the texels of a level lie.

Addresses wrap in 32 bits and then modulo the size of the memory, which is a power of two, so bytes that follow each
other lie at places that follow each other modulo the number of places (`Memory.index_add`). A level's rows follow each
other without gaps. Its width and height are powers of two (`TexParams.shaped_derive`), so a coordinate inside the level
is not changed when it is brought into it, and the number of a texel is at most what the level has of them.

Results: `Memory.read8_writeBytes` and `Memory.read8_writeBytes_of_ne` (a byte after others were written),
`TextureUnit.texelAddress_eq`, `TextureUnit.toNat_texelNumber`.
-/
import Mathlib.Data.Nat.ModEq
import Accel3D.Proofs.Derived.Unit
import Accel3D.Proofs.ResidentLevels

namespace Accel3D

theorem data_filledBytes (v : UInt8) (k : Nat) : (filledBytes v k).data = Array.replicate (2 ^ k) v := by
  induction k with
  | zero => rfl
  | succ k ih =>
    rw [filledBytes, ByteArray.data_append, ih, Array.replicate_append_replicate, Nat.pow_succ]
    congr 1
    omega

namespace Memory

/-! ## Places -/

variable (m : Memory) (a : UInt32)

/-- number of places that addresses tell apart: the size, unless that is more than there are addresses -/
def places : Nat := 2 ^ min m.logSize 32

theorem places_dvd : m.places ∣ 2 ^ 32 := Nat.pow_dvd_pow 2 (Nat.min_le_right _ _)

theorem places_eq_size (hm : m.size ≤ 4294967296) : m.places = m.size := by
  have hsize : m.size = 2 ^ m.logSize := m.size_eq
  have hlog : m.logSize ≤ 32 := (Nat.pow_le_pow_iff_right (by decide)).1 (hsize ▸ hm)
  rw [places, Nat.min_eq_left hlog, hsize]

theorem le_places {n : Nat} (hn : n ≤ 2 ^ 32) (hm : n ≤ m.size) : n ≤ m.places := by
  have hsize : m.size = 2 ^ m.logSize := m.size_eq
  rw [places]
  rcases Nat.le_total m.logSize 32 with h | h
  · rwa [Nat.min_eq_left h, ← hsize]
  · rwa [Nat.min_eq_right h]

theorem index_eq : m.index a = a.toNat % m.places := by
  have ha : a.toNat < 2 ^ 32 := a.toNat_lt
  rw [index, m.size_eq, places]
  rcases Nat.le_total m.logSize 32 with h | h
  · rw [Nat.min_eq_left h]
  · rw [Nat.min_eq_right h, Nat.mod_eq_of_lt ha, Nat.mod_eq_of_lt (ha.trans_le (Nat.pow_le_pow_right (by decide) h))]

theorem index_add (n : Nat) : m.index (a + UInt32.ofNat n) = (a.toNat + n) % m.places := by
  rw [index_eq, UInt32.toNat_add, UInt32.toNat_ofNat', Nat.mod_mod_of_dvd _ m.places_dvd, Nat.add_mod,
    Nat.mod_mod_of_dvd _ m.places_dvd, ← Nat.add_mod]

theorem index_add_inj {i j : Nat} (hi : i < m.places) (hj : j < m.places)
    (h : m.index (a + UInt32.ofNat i) = m.index (a + UInt32.ofNat j)) : i = j := by
  rw [index_add, index_add] at h
  have hmod : i % m.places = j % m.places := Nat.ModEq.add_left_cancel' a.toNat h
  rwa [Nat.mod_eq_of_lt hi, Nat.mod_eq_of_lt hj] at hmod

theorem toNat_mask : m.mask.toNat = m.places - 1 := by
  rw [mask, UInt32.toNat_ofNat', show m.size = 2 ^ m.logSize from m.size_eq, places]
  rcases Nat.le_total m.logSize 32 with h | h
  · rw [Nat.min_eq_left h]
    refine Nat.mod_eq_of_lt ?_
    have hle : 2 ^ m.logSize ≤ 2 ^ 32 := Nat.pow_le_pow_right (by decide) h
    have hpos : 0 < 2 ^ m.logSize := Nat.two_pow_pos _
    omega
  · rw [Nat.min_eq_right h]
    obtain ⟨n, hn⟩ := Nat.pow_dvd_pow 2 h
    have hpos : 0 < 2 ^ m.logSize := Nat.two_pow_pos _
    omega

theorem toNat_and_mask : (a &&& m.mask).toNat = m.index a := by
  rw [UInt32.toNat_and, toNat_mask, places, Nat.and_two_pow_sub_one_eq_mod, index_eq, places]

/-! ## Bytes written one after the other -/

theorem read8_zeroed (k : Nat) (a : UInt32) : (zeroed k).read8 a = 0 := by
  have hget : ∀ i (h : i < (filledBytes 0 k).size), (filledBytes 0 k).get i h = 0 := fun i h => by
    show (filledBytes 0 k).data[i] = 0
    simp only [data_filledBytes, Array.getElem_replicate]
  exact hget _ _

def writeBytes (v : Nat → UInt8) : Nat → Memory
  | 0 => m
  | n + 1 => (writeBytes v n).write8 (a + UInt32.ofNat n) (v n)

theorem write32_eq (w : UInt32) : m.write32 a w = m.writeBytes a (fun i => (w >>> UInt32.ofNat (8 * i)).toUInt8) 4 := by
  have haddress : a + UInt32.ofNat 0 = a := UInt32.add_zero a
  have hbyte : w >>> UInt32.ofNat (8 * 0) = w := UInt32.shiftRight_zero
  simp only [writeBytes, haddress, hbyte]
  rfl

theorem index_writeBytes (v : Nat → UInt8) (n : Nat) (b : UInt32) : (m.writeBytes a v n).index b = m.index b := by
  induction n with
  | zero => rfl
  | succ n ih => rw [writeBytes, index_write8, ih]

/-- bytes that are none of those written stay as they are -/
theorem read8_writeBytes_of_ne (v : Nat → UInt8) {n : Nat} {b : UInt32}
    (h : ∀ i < n, m.index (a + UInt32.ofNat i) ≠ m.index b) : (m.writeBytes a v n).read8 b = m.read8 b := by
  induction n with
  | zero => rfl
  | succ n ih =>
    rw [writeBytes, read8_write8, index_writeBytes, index_writeBytes, if_neg (h n (Nat.lt_succ_self n))]
    exact ih fun i hi => h i (Nat.lt_succ_of_lt hi)

theorem read8_writeBytes (v : Nat → UInt8) {n i : Nat} (hn : n ≤ m.places) (hi : i < n) :
    (m.writeBytes a v n).read8 (a + UInt32.ofNat i) = v i := by
  induction n with
  | zero => exact absurd hi (Nat.not_lt_zero i)
  | succ n ih =>
    rw [writeBytes, read8_write8, index_writeBytes, index_writeBytes]
    rcases Nat.lt_succ_iff_lt_or_eq.1 hi with hlt | rfl
    · have hne : m.index (a + UInt32.ofNat n) ≠ m.index (a + UInt32.ofNat i) := fun h => by
        have heq := m.index_add_inj a hn (by omega) h
        omega
      rw [if_neg hne]
      exact ih (by omega) hlt
    · rw [if_pos rfl]

theorem writeBytes_congr (m : Memory) {a b : UInt32} (v : Nat → UInt8) (n : Nat)
    (h : ∀ i < n, m.index (a + UInt32.ofNat i) = m.index (b + UInt32.ofNat i)) :
    m.writeBytes a v n = m.writeBytes b v n := by
  induction n with
  | zero => rfl
  | succ n ih =>
    have hindex : (m.writeBytes b v n).index (a + UInt32.ofNat n) = (m.writeBytes b v n).index (b + UInt32.ofNat n) := by
      rw [index_writeBytes, index_writeBytes]
      exact h n (Nat.lt_succ_self n)
    rw [writeBytes, writeBytes, ih fun i hi => h i (Nat.lt_succ_of_lt hi)]
    simp only [write8, hindex]

/-- words written at addresses that are a multiple of the size apart are written at the same place -/
theorem write32_add_of_dvd (m : Memory) (a d w : UInt32) (h : m.places ∣ d.toNat) :
    m.write32 (a + d) w = m.write32 a w := by
  have hindex : ∀ i, m.index (a + d + UInt32.ofNat i) = m.index (a + UInt32.ofNat i) := fun i => by
    obtain ⟨k, hk⟩ := h
    rw [UInt32.add_assoc, UInt32.add_comm d, ← UInt32.add_assoc, index_eq, index_eq, UInt32.toNat_add,
      Nat.mod_mod_of_dvd _ m.places_dvd, hk, Nat.add_mul_mod_self_left]
  rw [write32_eq, write32_eq]
  exact m.writeBytes_congr _ 4 fun i _ => hindex i

end Memory

/-! ## Sizes of levels -/

theorem toNat_shiftRight_ofNat (v : UInt32) {n : Nat} (hn : n < 32) : (v >>> UInt32.ofNat n).toNat = v.toNat / 2 ^ n := by
  rw [UInt32.toNat_shiftRight, UInt32.toNat_ofNat', Nat.mod_mod_of_dvd _ (by decide), Nat.mod_eq_of_lt hn,
    Nat.shiftRight_eq_div_pow]

/-- the largest number below a power of two that is at most 256 -/
def IsMask (v : UInt32) : Prop := ∃ k ≤ 8, v.toNat = 2 ^ k - 1

namespace IsMask

variable {v w : UInt32}

theorem lt (h : IsMask v) : v.toNat < 256 := by
  obtain ⟨k, hk, h⟩ := h
  have hle : 2 ^ k ≤ 2 ^ 8 := Nat.pow_le_pow_right (by decide) hk
  have hpos : 0 < 2 ^ k := Nat.two_pow_pos k
  omega

theorem shiftRight (h : IsMask v) {l : Nat} (hl : l ≤ 8) : IsMask (v >>> UInt32.ofNat l) := by
  obtain ⟨k, hk, h⟩ := h
  have hhalves : ∀ k < 9, ∀ l < 9, (2 ^ k - 1) / 2 ^ l = 2 ^ (k - l) - 1 := by decide
  refine ⟨k - l, by omega, ?_⟩
  rw [toNat_shiftRight_ofNat v (by omega), h, hhalves k (by omega) l (by omega)]

theorem and_eq (h : IsMask v) (hw : w.toNat ≤ v.toNat) : w &&& v = w := by
  obtain ⟨k, -, h⟩ := h
  have hpos : 0 < 2 ^ k := Nat.two_pow_pos k
  rw [← UInt32.toNat_inj, UInt32.toNat_and, h, Nat.and_two_pow_sub_one_eq_mod, Nat.mod_eq_of_lt (by omega)]

end IsMask

namespace TexParams

def width (p : TexParams) (l : Nat) : Nat := (p.widthMask >>> UInt32.ofNat l).toNat + 1

def height (p : TexParams) (l : Nat) : Nat := (p.heightMask >>> UInt32.ofNat l).toNat + 1

def levelStart (p : TexParams) (l : Fin 9) : UInt32 := p.lodOffset.get l

/-- columns and rows of every level are powers of two -/
structure Shaped (p : TexParams) : Prop where
  width : IsMask p.widthMask
  height : IsMask p.heightMask

theorem shaped_derive (regs : RegisterFile) (memoryMask addressMask addressShift : UInt32) :
    (derive regs memoryMask addressMask addressShift).Shaped := by
  have hfull : IsMask 0xFF := ⟨8, by decide, rfl⟩
  have haspect : (LodMode.decode (regs.get Reg.textureLod)).aspect ≤ 8 :=
    Nat.le_of_lt ((field_lt _ 21 2).trans (by decide))
  have hnarrowed := hfull.shiftRight haspect
  constructor
  · show IsMask (if _ then _ else _)
    split
    · exact hfull
    · exact hnarrowed
  · show IsMask (if _ then _ else _)
    split
    · exact hnarrowed
    · exact hfull

end TexParams

namespace TexelFormat

variable (format : TexelFormat)

def bytes : Nat := if format.isWide then 2 else 1

def lanes : Nat := if format.isWide then 2 else 4

theorem bytes_bounds : 1 ≤ format.bytes ∧ format.bytes ≤ 2 := by
  unfold bytes
  split <;> decide

theorem bytes_mul_lanes : format.bytes * format.lanes = 4 := by
  unfold bytes lanes
  split <;> rfl

end TexelFormat

namespace TextureUnit

/-! ## Coordinates, numbers and addresses of texels -/

theorem wrapCoord_of_le (clamp : Bool) {limit : UInt32} (h : IsMask limit) {n : Nat} (hn : n ≤ limit.toNat) :
    wrapCoord clamp limit n = UInt32.ofNat n := by
  have hlimit := limit.toNat_lt
  have hclamped : (if clamp then min (max (n : Int) 0) limit.toNat else n) = n := by
    split <;> omega
  rw [wrapCoord, hclamped, ofInt32_natCast]
  refine h.and_eq ?_
  rwa [UInt32.toNat_ofNat', Nat.mod_eq_of_lt (by omega)]

/-- the number of a texel does not wrap, and is less than there are texels -/
theorem toNat_texelNumber {l : Level} (hsMax : IsMask l.sMax) (htMax : IsMask l.tMax) {s t : UInt32}
    (hs : s.toNat ≤ l.sMax.toNat) (ht : t.toNat ≤ l.tMax.toNat) :
    (texelNumber l s t).toNat = t.toNat * (l.sMax.toNat + 1) + s.toNat ∧
      (texelNumber l s t).toNat < (l.sMax.toNat + 1) * (l.tMax.toNat + 1) := by
  have hsMax := hsMax.lt
  have htMax := htMax.lt
  have hone : (1 : UInt32).toNat = 1 := rfl
  have hwidth : (l.sMax + 1).toNat = l.sMax.toNat + 1 := by
    rw [UInt32.toNat_add, hone]
    omega
  have hrows : t.toNat * (l.sMax.toNat + 1) ≤ l.tMax.toNat * (l.sMax.toNat + 1) := Nat.mul_le_mul_right _ ht
  have hall : l.tMax.toNat * (l.sMax.toNat + 1) ≤ 255 * 256 := Nat.mul_le_mul (by omega) (by omega)
  have hnumber : (texelNumber l s t).toNat = t.toNat * (l.sMax.toNat + 1) + s.toNat := by
    rw [texelNumber, UInt32.toNat_add, UInt32.toNat_mul, hwidth]
    omega
  refine ⟨hnumber, ?_⟩
  rw [hnumber, Nat.mul_comm (l.sMax.toNat + 1), Nat.succ_mul]
  omega

theorem texelAddress_eq (format : TexelFormat) (base n : UInt32) :
    texelAddress format base n = base + UInt32.ofNat (format.bytes * n.toNat) := by
  unfold texelAddress TexelFormat.bytes
  split
  · rw [UInt32.ofNat_mul, UInt32.ofNat_toNat, UInt32.mul_comm]
    rfl
  · rw [Nat.one_mul, UInt32.ofNat_toNat]

/-- the texel that a point sample takes -/
def pointTexel (mode : TextureMode) (l : Level) (level : Nat) (f : Footing) : UInt32 :=
  texelNumber l (wrapCoord mode.clampS l.sMax (f.s >>> (level + 18)))
    (wrapCoord mode.clampT l.tMax (f.t >>> (level + 18)))

theorem samplePoint_eq (u : TextureUnit) (mode : TextureMode) (l : Level) (level : Nat) (f : Footing) :
    u.samplePoint mode l level f = u.fetch l.format l.base (pointTexel mode l level f) := rfl

theorem shaped_levelAt {p : TexParams} (hp : p.Shaped) (format : TexelFormat) (l : Fin 9) :
    IsMask (levelAt p format l).sMax ∧ IsMask (levelAt p format l).tMax :=
  ⟨hp.width.shiftRight (Nat.le_of_lt_succ l.isLt), hp.height.shiftRight (Nat.le_of_lt_succ l.isLt)⟩

/-! ## Level parameters of a refreshed unit -/

/-- level parameters are those of the registers, unless they are marked as stale -/
def FollowsRegisters (u : TextureUnit) : Prop := u.stale = false → u.params = u.currentParams

theorem Coherent.followsRegisters {u : TextureUnit} (h : u.Coherent) : u.FollowsRegisters := h.params

theorem currentParams_refresh (u : TextureUnit) : u.refresh.currentParams = u.currentParams := by
  unfold refresh
  split <;> rfl

theorem params_refresh {u : TextureUnit} (hu : u.FollowsRegisters) : u.refresh.params = u.currentParams := by
  unfold refresh
  split
  · rfl
  · rename_i hs
    exact hu (Bool.not_eq_true _ ▸ hs)

/-! ## Ranges of levels -/

/-- the places in memory of the first `n` bytes from where a level begins -/
def placesFrom (u : TextureUnit) (l : Fin 9) (n : Nat) : Set Nat :=
  {place | ∃ i < n, place = u.memory.index (u.params.levelStart l + UInt32.ofNat i)}

/-- the bytes that are set aside for a level: those of four texels at least -/
def reservedBytes (p : TexParams) (format : TexelFormat) (l : Nat) : Nat :=
  max (p.width l * p.height l) 4 * format.bytes

end TextureUnit
end Accel3D
