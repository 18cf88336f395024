/-
The order of bytes and halves on the bus.

Exchanging the halves of a word moves each bit to the place whose number differs in bit 4, and turning its four bytes
around to the place whose number differs in bits 3 and 4. A function that moves every bit so (`MovesBy`) moves a masked
word with its mask, and doing it twice does nothing. A write swaps bytes and then halves, a read halves and then bytes;
with the same two swaps on, both move the bits by the same number, so that what is written reads back.

Results: `readOrder_swapWord` (a read undoes the swaps of a write), `MovesBy.merge` (a merge of two words under a mask
is moved as a whole), `merge_halves` (a merge under a mask of whole halves).
-/
import Mathlib.Algebra.Group.Int.Defs
import Mathlib.Algebra.Group.Nat.Defs
import Accel3D.Chip.Linear
import Accel3D.Proofs.ModeCache

namespace Accel3D

/-! ## Bits of shifted words -/

section Shift

variable (w b : UInt32) {i : Nat}

theorem bit_shr (hb : b.toNat < 32) : bit (w >>> b) i = bit w (b.toNat + i) := by
  rw [bit, UInt32.toNat_shiftRight, Nat.mod_eq_of_lt hb, Nat.testBit_shiftRight]
  rfl

theorem bit_shl (hb : b.toNat < 32) (hi : i < 32) :
    bit (w <<< b) i = (decide (b.toNat ≤ i) && bit w (i - b.toNat)) := by
  rw [bit, UInt32.toNat_shiftLeft, Nat.mod_eq_of_lt hb, Nat.testBit_mod_two_pow, Nat.testBit_shiftLeft,
    decide_eq_true hi, Bool.true_and]
  rfl

theorem word_ext {w v : UInt32} (h : ∀ i, i < 32 → bit w i = bit v i) : w = v := by
  apply UInt32.toNat_inj.1
  apply Nat.eq_of_testBit_eq
  intro i
  obtain hi | hi := Nat.lt_or_ge i 32
  · exact h i hi
  · exact (bit_of_le w hi).trans (bit_of_le v hi).symm

theorem bit_not {i : Nat} (hi : i < 32) : bit (~~~w) i = !bit w i := by
  have hnot : (~~~w).toNat = 2 ^ 32 - (w.toNat + 1) := by
    rw [UInt32.toNat_not]
    have hsize : UInt32.size = 4294967296 := rfl
    omega
  rw [bit, hnot, Nat.testBit_two_pow_sub_succ w.toNat_lt, decide_eq_true hi, Bool.true_and]
  rfl

end Shift

/-! ## Bits moved -/

/-- every bit is moved to the place whose number differs by `k` -/
def MovesBy (k : Nat) (f : UInt32 → UInt32) : Prop := ∀ w i, i < 32 → bit (f w) i = bit w (i ^^^ k)

/-- the bits of `new` under a mask, those of `old` elsewhere -/
def merge (mask new old : UInt32) : UInt32 := (new &&& mask) ||| (old &&& ~~~mask)

theorem bit_merge (mask new old : UInt32) {i : Nat} (hi : i < 32) :
    bit (merge mask new old) i = if bit mask i then bit new i else bit old i := by
  rw [merge, bit_or, bit_and, bit_and, bit_not mask hi]
  cases bit mask i <;> simp

namespace MovesBy

variable {k l : Nat} {f g : UInt32 → UInt32}

theorem place_lt (hk : k < 32) {i : Nat} (hi : i < 32) : i ^^^ k < 32 := Nat.xor_lt_two_pow (n := 5) hi hk

theorem id : MovesBy 0 fun w => w := fun w i _ => by rw [Nat.xor_zero]

theorem comp (hf : MovesBy k f) (hg : MovesBy l g) (hl : l < 32) : MovesBy (k ^^^ l) fun w => g (f w) := by
  intro w i hi
  rw [hg _ _ hi, hf _ _ (place_lt hl hi), Nat.xor_assoc, Nat.xor_comm l k]

/-- moved twice by the same number, every bit is back -/
theorem cancel (hf : MovesBy k f) (hg : MovesBy k g) (hk : k < 32) (w : UInt32) : g (f w) = w :=
  word_ext fun i hi => by rw [hg _ _ hi, hf _ _ (place_lt hk hi), Nat.xor_assoc, Nat.xor_self, Nat.xor_zero]

theorem merge (hf : MovesBy k f) (hk : k < 32) (mask new old : UInt32) :
    f (merge mask new old) = Accel3D.merge (f mask) (f new) (f old) :=
  word_ext fun i hi => by
    rw [hf _ _ hi, bit_merge _ _ _ (place_lt hk hi), bit_merge _ _ _ hi, hf mask i hi, hf new i hi, hf old i hi]

end MovesBy

/-! ## The swaps -/

theorem movesBy_swapHalves : MovesBy 16 swapHalves := fun w i hi => by
  have hplace : ∀ i, i < 32 → i ^^^ 16 = if i < 16 then 16 + i else i - 16 := by decide
  have h16 : (16 : UInt32).toNat = 16 := rfl
  rw [swapHalves, bit_or, bit_shl w 16 (by decide) hi, bit_shr w 16 (by decide), hplace i hi, h16]
  split
  · rename_i hlow
    rw [decide_eq_false (by omega), Bool.false_and, Bool.false_or]
  · rename_i hhigh
    rw [decide_eq_true (by omega), bit_of_le w (by omega : 32 ≤ 16 + i), Bool.true_and, Bool.or_false]

theorem movesBy_swapBytes : MovesBy 24 swapBytes := fun w i hi => by
  have hplace : ∀ i, i < 32 →
      i ^^^ 24 = if i < 8 then 24 + i else if i < 16 then 8 + i else if i < 24 then i - 8 else i - 24 := by decide
  have hmask : ∀ i, i < 32 → bit 0xFF00 i = decide (8 ≤ i ∧ i < 16) := by decide
  have h8 : (8 : UInt32).toNat = 8 := rfl
  have h24 : (24 : UInt32).toNat = 24 := rfl
  rw [swapBytes, bit_or, bit_or, bit_or, bit_and, bit_shl w 24 (by decide) hi, bit_shl _ 8 (by decide) hi, bit_and,
    bit_shr w 8 (by decide), bit_shr w 24 (by decide), hplace i hi, hmask i hi, hmask (i - _) (by omega), h8, h24]
  -- one of the four parts has the byte that bit i lies in
  split_ifs with h1 h2 h3
  · have h8i : ¬ 8 ≤ i := by omega
    have h24i : ¬ 24 ≤ i := by omega
    simp [h8i, h24i]
  · have hlow : ¬ 8 ≤ i - 8 := by omega
    have h24i : ¬ 24 ≤ i := by omega
    have hbyte : 8 ≤ i := by omega
    simp [hlow, h24i, hbyte, h2, bit_of_le w (by omega : 32 ≤ 24 + i)]
  · have h16i : ¬ i < 16 := h2
    have h24i : ¬ 24 ≤ i := by omega
    have hbyte : 8 ≤ i ∧ 8 ≤ i - 8 ∧ i - 8 < 16 := by omega
    simp [h16i, h24i, hbyte, bit_of_le w (by omega : 32 ≤ 24 + i)]
  · have hbyte : 24 ≤ i ∧ 8 ≤ i := by omega
    have hhigh : ¬ i - 8 < 16 := by omega
    have h16i : ¬ i < 16 := h2
    simp [hbyte, hhigh, h16i, bit_of_le w (by omega : 32 ≤ 24 + i)]

/-- how far the swaps of a write, or of a read, move each bit -/
def swapPlaces (bytes words : Bool) : Nat := (if bytes then 24 else 0) ^^^ (if words then 16 else 0)

theorem swapPlaces_lt (bytes words : Bool) : swapPlaces bytes words < 32 := by
  cases bytes <;> cases words <;> decide

theorem movesBy_swapWord (bytes words : Bool) :
    MovesBy (swapPlaces bytes words) (LinearWrite.swapWord bytes words) := by
  cases bytes <;> cases words
  · exact MovesBy.id
  · exact movesBy_swapHalves
  · exact movesBy_swapBytes
  · exact movesBy_swapBytes.comp movesBy_swapHalves (by decide)

/-- a pair of pixels as a read has it on the bus: halves swapped first and then bytes -/
def LinearMode.readOrder (mode : LinearMode) (pair : UInt32) : UInt32 :=
  let pair := if mode.wordSwapReads then swapHalves pair else pair
  if mode.byteSwizzleReads then swapBytes pair else pair

theorem movesBy_readOrder (mode : LinearMode) :
    MovesBy (swapPlaces mode.byteSwizzleReads mode.wordSwapReads) mode.readOrder := by
  unfold LinearMode.readOrder
  cases mode.byteSwizzleReads <;> cases mode.wordSwapReads
  · exact MovesBy.id
  · exact movesBy_swapHalves
  · exact movesBy_swapBytes
  · exact movesBy_swapHalves.comp movesBy_swapBytes (by decide)

/-- a read undoes the swaps of a write, if they are the same -/
theorem readOrder_swapWord (mode : LinearMode) (w : UInt32) :
    mode.readOrder (LinearWrite.swapWord mode.byteSwizzleReads mode.wordSwapReads w) = w :=
  (movesBy_swapWord _ _).cancel (movesBy_readOrder mode) (swapPlaces_lt _ _) w

/-! ## Halves -/

def ofHalves (low high : UInt16) : UInt32 := low.toUInt32 ||| (high.toUInt32 <<< 16)

theorem bit_ofHalves (low high : UInt16) {i : Nat} (hi : i < 32) :
    bit (ofHalves low high) i = if i < 16 then low.toNat.testBit i else high.toNat.testBit (i - 16) := by
  have h16 : (16 : UInt32).toNat = 16 := rfl
  have hhalf : ∀ (v : UInt16) (j : Nat), bit v.toUInt32 j = v.toNat.testBit j := fun v j => rfl
  rw [ofHalves, bit_or, bit_shl _ 16 (by decide) hi, hhalf, hhalf, h16]
  split
  · rename_i hlow
    rw [decide_eq_false (by omega), Bool.false_and, Bool.or_false]
  · rename_i hhigh
    have hzero : low.toNat.testBit i = false :=
      Nat.testBit_lt_two_pow (Nat.lt_of_lt_of_le low.toNat_lt (Nat.pow_le_pow_right (by decide) (by omega)))
    rw [decide_eq_true (by omega), hzero, Bool.true_and, Bool.false_or]

theorem ofHalves_self (w : UInt32) : ofHalves w.toUInt16 (w >>> 16).toUInt16 = w :=
  word_ext fun i hi => by
    have h16 : (16 : UInt32).toNat = 16 := rfl
    have hlow : ∀ (v : UInt32) (j : Nat), j < 16 → v.toUInt16.toNat.testBit j = bit v j := fun v j hj => by
      rw [UInt32.toNat_toUInt16, Nat.testBit_mod_two_pow, decide_eq_true hj, Bool.true_and]
      rfl
    rw [bit_ofHalves _ _ hi]
    split
    · rename_i h
      exact hlow w i h
    · rename_i h
      rw [hlow _ _ (by omega), bit_shr w 16 (by decide), h16]
      congr 1
      omega

/-- a byte mask of whole halves -/
def IsHalfMask (mask : UInt32) : Prop := mask = 0xFFFFFFFF ∨ mask = 0x0000FFFF ∨ mask = 0xFFFF0000

theorem isHalfMask_swapWord (bytes words : Bool) {mask : UInt32} (h : IsHalfMask mask) :
    IsHalfMask (LinearWrite.swapWord bytes words mask) := by
  unfold IsHalfMask
  obtain rfl | rfl | rfl := h <;> revert bytes words <;> decide

/-- under a mask of whole halves, a merge takes each half from one word or the other -/
theorem merge_halves {mask : UInt32} (h : IsHalfMask mask) (low high low' high' : UInt16) :
    merge mask (ofHalves low' high') (ofHalves low high) =
      ofHalves (if mask &&& (0x0000FFFF : UInt32) = 0 then low else low')
        (if mask &&& (0xFFFF0000 : UInt32) = 0 then high else high') := by
  have hlow : ∀ i, i < 32 → bit 0x0000FFFF i = decide (i < 16) := by decide
  have hhigh : ∀ i, i < 32 → bit 0xFFFF0000 i = !decide (i < 16) := by decide
  have hall : ∀ i, i < 32 → bit 0xFFFFFFFF i = true := by decide
  refine word_ext fun i hi => ?_
  rw [bit_merge _ _ _ hi, bit_ofHalves _ _ hi, bit_ofHalves _ _ hi, bit_ofHalves _ _ hi]
  obtain rfl | rfl | rfl := h
  · rw [hall i hi]
    rfl
  · rw [hlow i hi, if_neg (by decide : ¬ (0x0000FFFF : UInt32) &&& 0x0000FFFF = 0),
      if_pos (by decide : (0x0000FFFF : UInt32) &&& 0xFFFF0000 = 0)]
    by_cases h16 : i < 16 <;> simp [h16]
  · rw [hhigh i hi, if_pos (by decide : (0xFFFF0000 : UInt32) &&& 0x0000FFFF = 0),
      if_neg (by decide : ¬ (0xFFFF0000 : UInt32) &&& 0xFFFF0000 = 0)]
    by_cases h16 : i < 16 <;> simp [h16]

end Accel3D
