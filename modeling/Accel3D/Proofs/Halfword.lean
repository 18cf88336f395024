/-
Halfwords in memory, and the halfwords of pixels.

Every address names a halfword, whose two bytes wrap separately. Two halfwords are apart when they share no byte
(`Memory.Apart`): a write of one leaves the other alone. A pixel of a buffer whose bytes lie inside the memory has the
address that plain arithmetic gives (`pixelByte`), and two such pixels of a row length are apart.

Results: `read16_write16` and `read16_write16_of_apart` (a halfword after a write), `read16_writeAll` and
`read8_writeAll_of_ne` (halfwords and bytes after a list of writes), `PixelInside.apart` (pixels do not overlap).
-/
import Accel3D.Proofs.Conservation

namespace Accel3D

/-! ## Numbers as words -/

theorem toNat_ofInt32 (n : Int) (h : 0 ≤ n) (h' : n < 4294967296) : (UInt32.ofInt n).toNat = n.toNat := by
  rw [UInt32.ofInt, UInt32.toNat_ofNat', Int.emod_eq_of_lt h (by simpa using h'), Nat.mod_eq_of_lt (by omega)]

theorem ofInt32_toNat (w : UInt32) : UInt32.ofInt w.toNat = w := by
  rw [ofInt32_natCast, UInt32.ofNat_toNat]

theorem toNat_ofInt16 (n : Int) (h : 0 ≤ n) (h' : n < 65536) : (UInt16.ofInt n).toNat = n.toNat := by
  rw [UInt16.ofInt, UInt16.toNat_ofNat', Int.emod_eq_of_lt h (by simpa using h'), Nat.mod_eq_of_lt (by omega)]

theorem ofInt16_toNat (v : UInt16) : UInt16.ofInt v.toNat = v := by
  apply UInt16.toNat_inj.1
  have h := v.toNat_lt
  rw [toNat_ofInt16 _ (by omega) (by omega)]
  rfl

theorem bytes_toUInt16 (v : UInt16) : v.toUInt8.toUInt16 ||| ((v >>> 8).toUInt8.toUInt16 <<< 8) = v := by
  have hv : v.toNat < 65536 := v.toNat_lt
  have hlow : v.toUInt8.toUInt16.toNat = v.toNat % 256 := by simp
  have hhigh : ((v >>> 8).toUInt8.toUInt16 <<< 8).toNat = 2 ^ 8 * (v.toNat / 256) := by
    simp [Nat.shiftRight_eq_div_pow, Nat.shiftLeft_eq]
    omega
  apply UInt16.toNat_inj.1
  rw [UInt16.toNat_or, hlow, hhigh, Nat.or_comm, ← Nat.two_pow_add_eq_or_of_lt (by omega)]
  omega

namespace Memory

/-! ## One write -/

/-- two halfwords that share no byte -/
def Apart (m : Memory) (a b : UInt32) : Prop := ∀ x ∈ halfword a, ∀ y ∈ halfword b, m.index x ≠ m.index y

variable {m : Memory} {a b : UInt32}

theorem apart_write16 (address : UInt32) (v : UInt16) : (m.write16 address v).Apart a b ↔ m.Apart a b := by
  simp only [Apart, index_write16]

theorem read16_write16_of_apart (h : m.Apart a b) (v : UInt16) : (m.write16 b v).read16 a = m.read16 a := by
  have hlow := m.read8_write16_of_ne b a v (h a List.mem_cons_self)
  have hhigh := m.read8_write16_of_ne b (a + 1) v (h (a + 1) (List.mem_cons_of_mem _ List.mem_cons_self))
  rw [read16, read16, hlow, hhigh]

/-- the two bytes of a halfword are different ones, unless there is only one byte -/
theorem index_succ_ne (m : Memory) (a : UInt32) (hm : 1 < m.size) : m.index (a + 1) ≠ m.index a := by
  have ha : a.toNat < 4294967296 := a.toNat_lt
  have hone : (1 : UInt32).toNat = 1 := rfl
  -- the size divides the number of words or exceeds it
  obtain ⟨k, hk⟩ : ∃ k, m.contents.size = 2 ^ k := ⟨_, m.size_eq⟩
  have hpositive : 1 ≤ k := by
    refine Nat.pos_of_ne_zero ?_
    rintro rfl
    rw [show m.size = 1 from hk] at hm
    exact absurd hm (by decide)
  have heven : 2 ∣ 2 ^ k := Nat.pow_dvd_pow 2 hpositive
  intro h
  -- an address and the next one differ in their lowest bit, which the size keeps
  have hbit : ∀ c : UInt32, m.index c % 2 = c.toNat % 2 := fun c => by
    rw [index, hk, Nat.mod_mod_of_dvd _ heven]
  have hparity := congrArg (· % 2) h
  simp only [hbit, UInt32.toNat_add, hone] at hparity
  omega

/-- a halfword reads as it was written -/
theorem read16_write16 (m : Memory) (a : UInt32) (v : UInt16) (hm : 1 < m.size) : (m.write16 a v).read16 a = v := by
  have hne := m.index_succ_ne a hm
  simp only [read16, write16, read8_write8, index_write8, if_true, if_neg hne]
  exact bytes_toUInt16 v

/-! ## Several writes -/

def writeAll (m : Memory) (writes : List (UInt32 × UInt16)) : Memory := writes.foldl (fun m w => m.write16 w.1 w.2) m

theorem size_writeAll (m : Memory) (writes : List (UInt32 × UInt16)) : (m.writeAll writes).size = m.size := by
  induction writes generalizing m with
  | nil => rfl
  | cons w writes ih => exact (ih _).trans (m.size_write16 w.1 w.2)

/-- bytes that belong to no written halfword stay as they are -/
theorem read8_writeAll_of_ne (m : Memory) (writes : List (UInt32 × UInt16)) (a : UInt32)
    (h : ∀ w ∈ writes, ∀ b ∈ halfword w.1, m.index a ≠ m.index b) : (m.writeAll writes).read8 a = m.read8 a := by
  induction writes generalizing m with
  | nil => rfl
  | cons w writes ih =>
    have hfirst : (m.write16 w.1 w.2).read8 a = m.read8 a := m.read8_write16_of_ne _ a _ (h w List.mem_cons_self)
    refine (ih (m.write16 w.1 w.2) fun w' hw' b hb => ?_).trans hfirst
    rw [index_write16, index_write16]
    exact h w' (List.mem_cons_of_mem w hw') b hb

theorem read16_writeAll_of_apart (m : Memory) (writes : List (UInt32 × UInt16)) (a : UInt32)
    (h : ∀ w ∈ writes, m.Apart a w.1) : (m.writeAll writes).read16 a = m.read16 a := by
  have hbyte : ∀ x ∈ halfword a, (m.writeAll writes).read8 x = m.read8 x := fun x hx =>
    m.read8_writeAll_of_ne writes x fun w hw b hb => h w hw x hx b hb
  rw [read16, read16, hbyte a List.mem_cons_self, hbyte (a + 1) (List.mem_cons_of_mem _ List.mem_cons_self)]

/-- each of several halfwords that are apart reads as it was written -/
theorem read16_writeAll (m : Memory) (writes : List (UInt32 × UInt16)) (hm : 1 < m.size)
    (h : writes.Pairwise fun w w' => m.Apart w.1 w'.1) : ∀ w ∈ writes, (m.writeAll writes).read16 w.1 = w.2 := by
  induction writes generalizing m with
  | nil => exact fun w hw => absurd hw List.not_mem_nil
  | cons w writes ih =>
    obtain ⟨hfirst, hrest⟩ := List.pairwise_cons.1 h
    intro w' hw'
    rcases List.mem_cons.1 hw' with rfl | hw'
    · calc ((m.write16 w'.1 w'.2).writeAll writes).read16 w'.1
          = (m.write16 w'.1 w'.2).read16 w'.1 :=
            read16_writeAll_of_apart _ _ _ fun w hw => (apart_write16 _ _).2 (hfirst w hw)
        _ = w'.2 := m.read16_write16 _ _ hm
    · refine ih (m.write16 w.1 w.2) (by rwa [size_write16]) ?_ w' hw'
      exact hrest.imp fun h => (apart_write16 _ _).2 h

/-! ## Pixels -/

theorem apart_of_inside (hm : m.size ≤ 4294967296) (ha : a.toNat + 1 < m.size) (hb : b.toNat + 1 < m.size)
    (h : a.toNat + 2 ≤ b.toNat ∨ b.toNat + 2 ≤ a.toNat) : m.Apart a b := by
  -- inside the memory an address is its own index
  have hindex : ∀ c : UInt32, c.toNat + 1 < m.size → ∀ x ∈ halfword c, m.index x = c.toNat ∨ m.index x = c.toNat + 1 := by
    intro c hc x hx
    have hone : (1 : UInt32).toNat = 1 := rfl
    rcases List.mem_cons.1 hx with rfl | hx
    · exact .inl (Nat.mod_eq_of_lt (show x.toNat < m.size by omega))
    · obtain rfl := List.mem_singleton.1 hx
      have hsucc : (c + 1).toNat = c.toNat + 1 := by
        rw [UInt32.toNat_add, hone]
        omega
      exact .inr (hsucc ▸ Nat.mod_eq_of_lt (show (c + 1).toNat < m.size by omega))
  intro x hx y hy
  have hx := hindex a ha x hx
  have hy := hindex b hb y hy
  omega

end Memory

/-- the byte where a pixel of a buffer starts, with no wrap; rows have `row` pixels -/
def pixelByte (base row : UInt32) (x y : Int) : Int := base.toNat + 2 * (y * row.toNat + x)

namespace Surface

theorem add_offset (s : Surface) (base : UInt32) (x y : Int) :
    base + s.offset x y = UInt32.ofInt (pixelByte base s.rowPixels x y) := by
  rw [pixelByte, offset, Int.mul_comm 2, UInt32.ofInt_add, UInt32.ofInt_mul, UInt32.ofInt_add, UInt32.ofInt_mul,
    ofInt32_toNat, ofInt32_toNat]
  rfl

theorem toNat_add_offset (s : Surface) (base : UInt32) (x y : Int) (size : Nat) (hsize : size ≤ 4294967296)
    (h : 0 ≤ pixelByte base s.rowPixels x y) (h' : pixelByte base s.rowPixels x y + 1 < size) :
    ((base + s.offset x y).toNat : Int) = pixelByte base s.rowPixels x y := by
  rw [add_offset, toNat_ofInt32 _ h (by omega)]
  omega

end Surface

/-- a pixel that lies in its row and whose bytes lie in a memory of this size -/
structure PixelInside (base row : UInt32) (size : Nat) (x y : Int) : Prop where
  left : 0 ≤ x
  right : x < row.toNat
  top : 0 ≤ y
  inside : pixelByte base row x y + 1 < size

namespace PixelInside

variable {base row : UInt32} {size : Nat} {x y x' y' : Int}

theorem nonneg (h : PixelInside base row size x y) : 0 ≤ pixelByte base row x y := by
  have hrow : 0 ≤ y * (row.toNat : Int) := Int.mul_nonneg h.top (Int.natCast_nonneg _)
  have hx := h.left
  unfold pixelByte
  omega

/-- different pixels start at different bytes, at least two from each other -/
theorem separate (h : PixelInside base row size x y) (h' : PixelInside base row size x' y')
    (hne : (x, y) ≠ (x', y')) :
    pixelByte base row x y + 2 ≤ pixelByte base row x' y' ∨ pixelByte base row x' y' + 2 ≤ pixelByte base row x y := by
  have hx := And.intro h.left h.right
  have hx' := And.intro h'.left h'.right
  -- a row further down starts where the one above has ended
  have hrows : ∀ {u v : Int}, u < v → u * (row.toNat : Int) + row.toNat ≤ v * row.toNat := fun {u v} huv => by
    have hmul := Int.mul_le_mul_of_nonneg_right (show u + 1 ≤ v from huv) (Int.natCast_nonneg row.toNat)
    rwa [Int.add_mul, Int.one_mul] at hmul
  unfold pixelByte
  rcases Int.lt_trichotomy y y' with hy | rfl | hy
  · have hrow := hrows hy
    omega
  · have hcolumn : x ≠ x' := fun e => hne (by rw [e])
    omega
  · have hrow := hrows hy
    omega

theorem apart {m : Memory} (s : Surface) (hrow : s.rowPixels = row) (hsize : m.size ≤ 4294967296)
    (h : PixelInside base row m.size x y) (h' : PixelInside base row m.size x' y') (hne : (x, y) ≠ (x', y')) :
    m.Apart (base + s.offset x y) (base + s.offset x' y') := by
  subst hrow
  have ha := s.toNat_add_offset base x y m.size hsize h.nonneg h.inside
  have hb := s.toNat_add_offset base x' y' m.size hsize h'.nonneg h'.inside
  have hi := h.inside
  have hi' := h'.inside
  have hd := h.separate h' hne
  exact Memory.apart_of_inside hsize (by omega) (by omega) (by omega)

end PixelInside
end Accel3D
