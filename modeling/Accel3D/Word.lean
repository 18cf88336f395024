/-
Bit fields of 32-bit words.

A register of the chip is a 32-bit word whose bits are grouped in fields. `bit` reads one flag, `field` reads an
unsigned field, and `signed` reads the low bits as a two's complement number. Fields are natural numbers, so the rules
that use them are plain arithmetic.

Results: `field_lt` (a field of n bits is below 2^n), `signed_lower` and `signed_upper` (the range of a signed field).
-/

namespace Accel3D

-- Powers and sums of numbers are the core library's, also where another library offers instances of them. The choice
-- looks at the type of the exponent, so definitions write it out behind a numeral, as in 2 ^ (32 : Nat).
attribute [scoped instance (1100)] instPowNat Zero.ofOfNat0

-- The sizes of wrapping table numbers: one instance each, for the same reason.
scoped instance (priority := 1100) neZero_four : NeZero 4 := ⟨by decide⟩
scoped instance (priority := 1100) neZero_thirtyTwo : NeZero 32 := ⟨by decide⟩
scoped instance (priority := 1100) neZero_registers : NeZero 256 := ⟨by decide⟩

/-- bit `i` of a word -/
def bit (w : UInt32) (i : Nat) : Bool := w.toNat.testBit i

/-- the unsigned field of `width` bits that starts at bit `low` -/
def field (w : UInt32) (low width : Nat) : Nat := (w.toNat >>> low) % 2 ^ width

/-- the low `bits` bits of a word as a two's complement number -/
def signed (w : UInt32) (bits : Nat) : Int := Int.bmod w.toNat (2 ^ bits)

/-- the word with its four bytes in the opposite order -/
def swapBytes (w : UInt32) : UInt32 :=
  (w <<< 24) ||| ((w &&& (0xFF00 : UInt32)) <<< 8) ||| ((w >>> 8) &&& (0xFF00 : UInt32)) ||| (w >>> 24)

/-- the word with its two halves exchanged -/
def swapHalves (w : UInt32) : UInt32 := (w <<< 16) ||| (w >>> 16)

/-- the word rotated by one bit towards the high end -/
def rotateOne (w : UInt32) : UInt32 := (w <<< 1) ||| (w >>> 31)

/-- the word rotated by one byte towards the low end -/
def rotateByteDown (w : UInt32) : UInt32 := (w >>> 8) ||| (w <<< 24)

theorem field_lt (w : UInt32) (low width : Nat) : field w low width < 2 ^ width :=
  Nat.mod_lt _ (Nat.two_pow_pos width)

theorem ofInt32_natCast (n : Nat) : UInt32.ofInt n = UInt32.ofNat n := by
  rw [UInt32.ofInt, ← UInt32.toNat_inj, UInt32.toNat_ofNat', UInt32.toNat_ofNat']
  omega

theorem signed_lower (w : UInt32) (bits : Nat) : -(2 ^ bits / 2 : Int) ≤ signed w bits := by
  have h := Int.le_bmod (x := (w.toNat : Int)) (m := 2 ^ bits) (Nat.two_pow_pos bits)
  simpa [signed] using h

theorem signed_upper (w : UInt32) (bits : Nat) : signed w bits < ((2 ^ bits + 1) / 2 : Int) := by
  have h := Int.bmod_lt (x := (w.toNat : Int)) (m := 2 ^ bits) (Nat.two_pow_pos bits)
  simpa [signed] using h

end Accel3D
