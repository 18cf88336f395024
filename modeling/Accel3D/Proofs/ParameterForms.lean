/-
The two forms of a parameter register.

A vertex coordinate and each term of a parameter have a register for whole numbers and, 32 registers on, one for singles
(`ParameterRegister`). A whole number d in the first stands for d / 2^k, k fraction bits of its own; the word for whole
numbers is cut to its bits and extended by its sign, and S, T and W are moved up to 32 fraction bits. A single is moved
to its place by its exponent. When it stands for d / 2^k too, nothing is cut off and nothing is pushed out, also for the
least d, so both leave the same term (`run_writeParameter`). Storing the word afterwards changes no parameter.

Results: `run_writeParameter` (what a parameter register in either form leaves), `parameter_forms_agree`.
-/
import Accel3D.Proofs.Display
import Accel3D.Proofs.FixedPoint

namespace Accel3D

/-! ## The registers -/

/-- a vertex coordinate, or a term of a parameter -/
inductive ParameterRegister where
  | vertex (n : Fin 6)
  | pixel (p : PixelParameter) (term : GradientTerm)
  | coord (p : CoordParameter) (term : GradientTerm)
deriving DecidableEq, Repr

/-- place of a term's registers among those of its block -/
def GradientTerm.index : GradientTerm → Nat
  | start => 0
  | dx => 8
  | dy => 16

def PixelParameter.index : PixelParameter → Nat
  | red => 0
  | green => 1
  | blue => 2
  | z => 3
  | alpha => 4

def CoordParameter.index : CoordParameter → Nat
  | s => 5
  | t => 6
  | w => 7

namespace ParameterRegister

/-- place in the block that starts with the vertices -/
def place : ParameterRegister → Nat
  | vertex n => n.val
  | pixel p term => 6 + term.index + p.index
  | coord p term => 6 + term.index + p.index

/-- the first register of the block of a form -/
def block : NumberForm → Reg
  | .integer => Reg.vertexAx
  | .single => Reg.floatVertexAx

def register (x : ParameterRegister) (form : NumberForm) : Reg := Fin.ofNat 256 ((block form).val + x.place)

/-- the effect of a write of the register -/
def command (x : ParameterRegister) (form : NumberForm) : Command :=
  match x with
  | vertex n => .vertex n form
  | pixel p term => .pixelParameter p term form
  | coord p term => .coordParameter p term form

def bits : ParameterRegister → Nat
  | vertex _ => 16
  | pixel .z _ => 32
  | pixel _ _ => 24
  | coord _ _ => 32

def fraction : ParameterRegister → Nat
  | vertex _ => 4
  | pixel _ _ => 12
  | coord .w _ => 30
  | coord _ _ => 18

/-- the whole numbers that the register holds -/
def InRange (x : ParameterRegister) (d : Int) : Prop := -2 ^ (x.bits - 1) ≤ d ∧ d < 2 ^ (x.bits - 1)

def writeTriangle (x : ParameterRegister) (t : TriangleParameters) (d : Int) : TriangleParameters :=
  match x with
  | vertex n => t.writeVertex n (Int16.ofInt d)
  | pixel p term => t.writePixel p term (Int32.ofInt d)
  | coord p term => t.writeCoord p term (Int64.ofInt (d * 2 ^ (32 - x.fraction)))

def writeGradients (x : ParameterRegister) (g : TexGradients) (d : Int) : TexGradients :=
  match x with
  | coord p term => g.write p term (Int64.ofInt (d * 2 ^ (32 - x.fraction)))
  | _ => g

/-- a word gives the whole number d: its low bits hold d, or it is the single d / 2^k -/
def Gives (x : ParameterRegister) (form : NumberForm) (word : UInt32) (d : Int) : Prop :=
  match form with
  | .integer => signed word x.bits = d
  | .single => x.InRange d ∧ Single.number? word = some ((d : ℚ) / 2 ^ x.fraction)

theorem ofRegister_register (v : Revision) (x : ParameterRegister) (form : NumberForm) :
    Command.ofRegister v (x.register form) = x.command form := by
  have hvertex : ∀ n : Fin 6, Command.ofRegister v ((vertex n).register form) = .vertex n form := by
    cases v <;> cases form <;> decide +kernel
  cases x with
  | vertex n => exact hvertex n
  | pixel p term => cases v <;> cases form <;> cases p <;> cases term <;> decide +kernel
  | coord p term => cases v <;> cases form <;> cases p <;> cases term <;> decide +kernel

theorem fraction_le (x : ParameterRegister) : x.fraction ≤ 32 := by
  cases x with
  | vertex n => exact Nat.le_of_ble_eq_true rfl
  | pixel p term => exact Nat.le_of_ble_eq_true rfl
  | coord p term => cases p <;> exact Nat.le_of_ble_eq_true rfl

theorem bits_le (x : ParameterRegister) : x.bits ≤ 32 := by
  cases x with
  | vertex n => exact Nat.le_of_ble_eq_true rfl
  | pixel p term => cases p <;> exact Nat.le_of_ble_eq_true rfl
  | coord p term => exact Nat.le_refl 32

theorem InRange.bound {x : ParameterRegister} {d : Int} (h : x.InRange d) : |d| ≤ 2 ^ 31 := by
  have hbits := x.bits_le
  have hpow : (2 : Int) ^ (x.bits - 1) ≤ 2 ^ 31 := pow_le_pow_right₀ (by decide) (by omega)
  exact abs_le.2 ⟨by linarith [h.1], by linarith [h.2]⟩

theorem inRange_signed (x : ParameterRegister) (w : UInt32) : x.InRange (signed w x.bits) := by
  have hlow := signed_lower w x.bits
  have hhigh := signed_upper w x.bits
  have hpow : (2 : Int) ^ x.bits = 2 * 2 ^ (x.bits - 1) := by
    have hbits : x.bits = x.bits - 1 + 1 := by cases x with
      | pixel p term => cases p <;> rfl
      | _ => rfl
    rw [hbits, Int.pow_succ, Int.mul_comm]
    rfl
  exact ⟨by omega, by omega⟩

end ParameterRegister

/-! ## The value of a word -/

theorem toInt_toInt32 (w : UInt32) : w.toInt32.toInt = signed w 32 := by
  rw [← Int32.toInt_toBitVec, UInt32.toBitVec_toInt32, BitVec.toInt_eq_toNat_bmod]
  rfl

theorem toInt32_eq_ofInt (w : UInt32) : w.toInt32 = Int32.ofInt (signed w 32) := by
  rw [← toInt_toInt32, Int32.ofInt_toInt]

theorem toInt64_shiftLeft (w : UInt32) (n : Int64) {k : Nat} (hn : n.toBitVec.smod 64 = BitVec.ofNat 64 k)
    (hk : k < 64) : w.toInt32.toInt64 <<< n = Int64.ofInt (signed w 32 * 2 ^ k) := by
  have hwide : w.toInt32.toInt64 = Int64.ofInt (signed w 32) := by
    rw [← toInt_toInt32, ← Int32.toInt_toInt64, Int64.ofInt_toInt]
  have hpow : (Int64.ofInt (2 ^ k)).toBitVec = BitVec.twoPow 64 k := by
    have hcast : (2 : Int) ^ k = ((2 ^ k : Nat) : Int) := by rw [Int.natCast_pow]; rfl
    apply BitVec.eq_of_toNat_eq
    rw [hcast, Int64.toBitVec_ofInt, BitVec.ofInt_natCast, BitVec.toNat_ofNat, BitVec.toNat_twoPow]
  apply Int64.toBitVec_inj.1
  rw [Int64.ofInt_mul, ← hwide, Int64.toBitVec_shiftLeft, hn, Int64.toBitVec_mul, hpow, BitVec.shiftLeft_eq',
    BitVec.toNat_ofNat, Nat.mod_eq_of_lt (hk.trans (by decide)), BitVec.shiftLeft_eq_mul_twoPow]

section Values

variable {x : ParameterRegister} {form : NumberForm} {word : UInt32} {d : Int}

/-- a single moved to the fraction bits of its whole number is that number -/
theorem toFixed32_of_gives (h : x.Gives .single word d) : Single.toFixed32 word x.fraction = Int32.ofInt d := by
  obtain ⟨hd, hnumber⟩ := h
  have hfraction := x.fraction_le
  have hproduct : (d / 2 ^ x.fraction : ℚ) * 2 ^ (x.fraction : ℤ) = d := by
    rw [zpow_natCast, div_mul_cancel₀ _ (by positivity)]
  exact Single.toFixed32_of_number hnumber (by omega) hproduct (hd.bound.trans_lt (by decide))

theorem toFixed64_of_gives (h : x.Gives .single word d) :
    Single.toFixed64 word 32 = Int64.ofInt (d * 2 ^ (32 - x.fraction)) := by
  obtain ⟨hd, hnumber⟩ := h
  have hproduct : (d / 2 ^ x.fraction : ℚ) * 2 ^ (32 : ℤ) = ((d * 2 ^ (32 - x.fraction) : Int) : ℚ) := by
    have hpow : (2 : ℚ) ^ (32 : ℤ) = 2 ^ x.fraction * 2 ^ (32 - x.fraction) := by
      rw [← pow_add, Nat.add_sub_cancel' x.fraction_le]
      rfl
    rw [hpow, ← mul_assoc, div_mul_cancel₀ _ (by positivity), Int.cast_mul, Int.cast_pow, Int.cast_ofNat]
  have hplaces : (2 : Int) ^ (32 - x.fraction) ≤ 2 ^ 32 := pow_le_pow_right₀ (by decide) (by omega)
  refine Single.toFixed64_of_number hnumber (by decide) hproduct ?_
  have hpositive : (0 : Int) < 2 ^ (32 - x.fraction) := Int.pow_pos (by decide)
  calc |d * 2 ^ (32 - x.fraction)| = |d| * 2 ^ (32 - x.fraction) := by rw [abs_mul, abs_of_pos hpositive]
    _ ≤ 2 ^ 31 * 2 ^ 32 := mul_le_mul hd.bound hplaces hpositive.le (by decide)
    _ < 2 ^ 87 := by decide

theorem coordinate_of_gives {n : Fin 6} (h : (ParameterRegister.vertex n).Gives form word d) :
    form.coordinate word = Int16.ofInt d := by
  cases form with
  | integer =>
    obtain rfl : signed word 16 = d := h
    show word.toInt32.toInt16 = _
    have hlow : (signed word 16).bmod (2 ^ 16) = (word.toNat : Int).bmod (2 ^ 16) := Int.bmod_bmod
    have hwhole : (signed word 32).bmod (2 ^ 16) = (word.toNat : Int).bmod (2 ^ 16) :=
      Int.bmod_bmod_of_dvd (Nat.pow_dvd_pow 2 (by decide))
    rw [toInt32_eq_ofInt, Int32.toInt16_ofInt, Int16.ofInt_eq_iff_bmod_eq_toInt, Int16.toInt_ofInt, hwhole]
    exact hlow.symm
  | single =>
    have hfixed : Single.toFixed32 word 4 = Int32.ofInt d := toFixed32_of_gives (x := .vertex n) h
    show (Single.toFixed32 word 4).toInt16 = _
    rw [hfixed, Int32.toInt16_ofInt]

theorem pixelValue_of_gives {p : PixelParameter} {term : GradientTerm}
    (h : (ParameterRegister.pixel p term).Gives form word d) : p.value form word = Int32.ofInt d := by
  cases form with
  | integer =>
    cases p with
    | z => exact (toInt32_eq_ofInt word).trans (congrArg Int32.ofInt h)
    | _ => exact congrArg Int32.ofInt h
  | single => exact toFixed32_of_gives (x := .pixel p term) h

theorem coordValue_of_gives {p : CoordParameter} {term : GradientTerm}
    (h : (ParameterRegister.coord p term).Gives form word d) :
    p.value form word = Int64.ofInt (d * 2 ^ (32 - (ParameterRegister.coord p term).fraction)) := by
  cases form with
  | integer =>
    obtain rfl : signed word 32 = d := h
    cases p with
    | w => exact toInt64_shiftLeft (k := 2) word 2 (by decide) (by decide)
    | s => exact toInt64_shiftLeft (k := 14) word 14 (by decide) (by decide)
    | t => exact toInt64_shiftLeft (k := 14) word 14 (by decide) (by decide)
  | single => exact toFixed64_of_gives (x := .coord p term) h

end Values

/-! ## What a write leaves -/

theorem mapIdx_eq_self (units : Array TextureUnit) (f : Nat → TextureUnit → TextureUnit) (h : ∀ i u, f i u = u) :
    units.mapIdx f = units := by
  refine Array.ext Array.size_mapIdx fun i hi hi' => ?_
  rw [Array.getElem_mapIdx, h]

theorem TextureUnit.gradients_writeRegister (u : TextureUnit) (r : Reg) (data : UInt32) :
    (u.writeRegister r data).gradients = u.gradients := by
  unfold writeRegister
  split
  · rfl
  · split
    · rfl
    · rfl
    · split <;> rfl

namespace Chip

/-- the whole number d written to the selected chips -/
def writeParameter (c : Chip) (select : ChipSelect) (x : ParameterRegister) (d : Int) : Chip :=
  { c with
    frame :=
      if select.frame then { c.frame with triangle := x.writeTriangle c.frame.triangle d } else c.frame
    textures := c.textures.mapIdx fun (i : Nat) u =>
      if select.texture i then { u with gradients := x.writeGradients u.gradients d } else u }

/-- **The effect of a parameter register**, in either form, is that the number that its word gives is written. -/
theorem run_writeParameter (c : Chip) (select : ChipSelect) (x : ParameterRegister) (form : NumberForm) {word : UInt32}
    {d : Int} (h : x.Gives form word d) : c.run (x.command form) select word = c.writeParameter select x d := by
  have hframeOnly : ∀ units : Array TextureUnit,
      (units.mapIdx fun (i : Nat) u => if select.texture i then { u with gradients := u.gradients } else u) = units :=
    fun units => mapIdx_eq_self units _ fun i u => ite_self u
  cases x with
  | vertex n =>
    simp only [ParameterRegister.command, run, writeParameter, ParameterRegister.writeTriangle,
      ParameterRegister.writeGradients, coordinate_of_gives h, hframeOnly]
    split <;> rfl
  | pixel p term =>
    simp only [ParameterRegister.command, run, writeParameter, ParameterRegister.writeTriangle,
      ParameterRegister.writeGradients, pixelValue_of_gives h, hframeOnly]
    split <;> rfl
  | coord p term =>
    simp only [ParameterRegister.command, run, writeCoord, writeParameter, ParameterRegister.writeTriangle,
      ParameterRegister.writeGradients, coordValue_of_gives h]
    split <;> rfl

theorem storeRegister_eq (c : Chip) (select : ChipSelect) (r : Reg) (data : UInt32) :
    c.storeRegister select r data =
      { c with
        regs := if select.frame then c.regs.set r data else c.regs
        textures := c.textures.mapIdx fun (i : Nat) u => if select.texture i then u.writeRegister r data else u } := by
  unfold storeRegister
  split <;> rfl

/-- chips with the same parameters of the triangle, on the frame buffer side and in every texture unit -/
structure SameParameters (c d : Chip) : Prop where
  triangle : c.frame.triangle = d.frame.triangle
  gradients : ∀ i : Nat, c.textures[i]?.map TextureUnit.gradients = d.textures[i]?.map TextureUnit.gradients

namespace SameParameters

theorem symm {c d : Chip} (h : c.SameParameters d) : d.SameParameters c :=
  ⟨h.triangle.symm, fun i => (h.gradients i).symm⟩

theorem trans {c d e : Chip} (h : c.SameParameters d) (h' : d.SameParameters e) : c.SameParameters e :=
  ⟨h.triangle.trans h'.triangle, fun i => (h.gradients i).trans (h'.gradients i)⟩

/-- storing a word and laying out the frame buffer anew change no parameter -/
theorem execute (c : Chip) (w : RegisterWrite) :
    (c.execute w).SameParameters (c.run (c.command w) (ChipSelect.ofAddress w.offset) w.data) where
  triangle := by
    have hlayout : (c.execute w).frame.triangle = (c.stored w).frame.triangle := by
      rw [execute_eq, updateLayout]
      split <;> rfl
    rw [hlayout, frame_stored]
  gradients i := by
    have hlayout : (c.execute w).textures = (c.stored w).textures := by
      rw [execute_eq, updateLayout]
      split <;> rfl
    have hunit : ∀ u : TextureUnit,
        (if (c.reach w).texture i then u.writeRegister (register w) w.data else u).gradients = u.gradients := by
      intro u
      split
      · exact u.gradients_writeRegister _ _
      · rfl
    rw [hlayout, stored, storeRegister_eq, Array.getElem?_mapIdx, Option.map_map]
    exact Option.map_congr fun u _ => hunit u

end SameParameters

section Forms

variable (x : ParameterRegister) (form : NumberForm)

/-- both forms have the write right, wait in the queue when writes do, and are stored where they are selected -/
theorem access_register (v : Revision) : Access.of v (x.register form) = .wpf := by
  have hvertex : ∀ n : Fin 6, Access.of v ((ParameterRegister.vertex n).register form) = .wpf := by
    cases v <;> cases form <;> decide +kernel
  cases x with
  | vertex n => exact hvertex n
  | pixel p term => cases v <;> cases form <;> cases p <;> cases term <;> decide +kernel
  | coord p term => cases v <;> cases form <;> cases p <;> cases term <;> decide +kernel

variable {x form} {offset word : UInt32} {d : Int} (hr : Reg.ofAddress offset = x.register form)
include hr

theorem sameParameters_execute (c : Chip) (h : x.Gives form word d) :
    (c.execute ⟨offset, word⟩).SameParameters (c.writeParameter (ChipSelect.ofAddress offset) x d) := by
  have hcommand : c.command ⟨offset, word⟩ = x.command form := by
    rw [command, register, hr, x.ofRegister_register]
  rw [← run_writeParameter c _ x form h, ← hcommand]
  exact SameParameters.execute c ⟨offset, word⟩

/-- a write in either form, once the queue is carried out -/
theorem sameParameters_flush (c : Chip) (h : x.Gives form word d) :
    (c.writeRegister offset word).flush.SameParameters
      (c.flush.writeParameter (ChipSelect.ofAddress offset) x d) := by
  rw [flush_writeRegister c offset word (by rw [hr, access_register]; rfl)]
  exact sameParameters_execute hr c.flush h

/-- until then a chip that defers its writes has at most carried out those that waited -/
theorem writeRegister_deferred (c : Chip) (hdefer : c.config.deferWrites = true) :
    c.writeRegister offset word = c.enqueue ⟨offset, word⟩ := by
  have haccess : Access.of c.revision (Reg.ofAddress offset) = .wpf := by rw [hr, access_register]
  simp only [writeRegister, haccess, hdefer]
  rfl

theorem writeRegister_at_once (c : Chip) (hdefer : c.config.deferWrites = false) :
    c.writeRegister offset word = c.flush.execute ⟨offset, word⟩ := by
  have haccess : Access.of c.revision (Reg.ofAddress offset) = .wpf := by rw [hr, access_register]
  simp only [writeRegister, haccess, hdefer]
  rfl

end Forms

/-- **The two forms agree.** A word for whole numbers whose low bits hold d, written to the register of a vertex
coordinate or of a term of a parameter, and the single d / 2^k, written for the same chips to the register of the other
form, leave the same parameters of the triangle on the frame buffer side and in every texture unit: at once, and once
the queue is carried out, and then on the selected chips the parameter holds d in its own place. -/
theorem parameter_forms_agree (c : Chip) (x : ParameterRegister) {integerOffset singleOffset : UInt32}
    (hinteger : Reg.ofAddress integerOffset = x.register .integer)
    (hsingle : Reg.ofAddress singleOffset = x.register .single)
    (hselect : ChipSelect.ofAddress integerOffset = ChipSelect.ofAddress singleOffset) {d : Int} {data word : UInt32}
    (hdata : signed data x.bits = d) (hword : Single.number? word = some ((d : ℚ) / 2 ^ x.fraction)) :
    (c.writeRegister integerOffset data).SameParameters (c.writeRegister singleOffset word) ∧
      (c.writeRegister integerOffset data).flush.SameParameters (c.writeRegister singleOffset word).flush ∧
      (c.writeRegister integerOffset data).flush.SameParameters
        (c.flush.writeParameter (ChipSelect.ofAddress integerOffset) x d) := by
  have hd : x.InRange d := hdata ▸ x.inRange_signed data
  have hsingleGives : x.Gives .single word d := ⟨hd, hword⟩
  have hintegerAfter := sameParameters_flush hinteger c hdata
  have hsingleAfter := sameParameters_flush hsingle c hsingleGives
  refine ⟨?_, hintegerAfter.trans (hselect ▸ hsingleAfter.symm), hintegerAfter⟩
  cases hdefer : c.config.deferWrites with
  | true =>
    rw [writeRegister_deferred hinteger c hdefer, writeRegister_deferred hsingle c hdefer]
    exact ⟨rfl, fun _ => rfl⟩
  | false =>
    rw [writeRegister_at_once hinteger c hdefer, writeRegister_at_once hsingle c hdefer]
    have hintegerDone := sameParameters_execute hinteger c.flush hdata
    exact hintegerDone.trans (hselect ▸ (sameParameters_execute hsingle c.flush hsingleGives).symm)

/-- the least X step of W, -2^31 with 30 fraction bits, and the single -2 -/
theorem parameter_forms_agree_least :
    let c := initial ChipConfig.standard
    let step := ParameterRegister.coord .w .dx
    (Reg.ofAddress 0x17 = step.register .integer ∧ Reg.ofAddress 0x37 = step.register .single ∧
      signed 0x80000000 step.bits = -2 ^ 31 ∧
      Single.number? 0xC0000000 = some (((-2 ^ 31 : Int) : ℚ) / 2 ^ step.fraction)) ∧
    (c.writeRegister 0x17 0x80000000).SameParameters (c.writeRegister 0x37 0xC0000000) ∧
    (c.writeRegister 0x17 0x80000000).frame.triangle.w.dx = -2 ^ 33 := by
  intro c step
  have hinteger : Reg.ofAddress 0x17 = step.register .integer := by decide
  have hsingle : Reg.ofAddress 0x37 = step.register .single := by decide
  have hdata : signed 0x80000000 step.bits = -2 ^ 31 := by decide
  have hword : Single.number? 0xC0000000 = some (((-2 ^ 31 : Int) : ℚ) / 2 ^ step.fraction) := by
    have hquotient : ((-2 ^ 31 : Int) : ℚ) / 2 ^ step.fraction = -2 ^ 1 := by
      norm_num [step, ParameterRegister.fraction]
    rw [hquotient]
    exact Single.number_two_pow (by decide) (by decide) (by decide)
  exact ⟨⟨hinteger, hsingle, hdata, hword⟩, (c.parameter_forms_agree step hinteger hsingle (by decide) hdata hword).1,
    by decide +kernel⟩

end Chip
end Accel3D
