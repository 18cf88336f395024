/-
The combine equation and the texture units in words.

A combine unit works on differences of bytes, and each of its factors is a byte if the detail factor is one. That factor
grows as the level falls below the bias, by up to 2^7 for each step, and is cut to eight bits last: what comes before
the cut fits in a word, because bias and level have few bits whatever the registers are.

Results: `Combine.run?_eq` (a combine unit with a detail factor of eight bits), `TextureUnit.detailFactor?_eq` (the
detail factor), `TextureStage.process?_eq` (a texture unit, whatever its registers are).
-/
import Accel3D.Proofs.Checked.Word
import Accel3D.Proofs.CombineEquation
import Accel3D.Proofs.Derived.Unit
import Accel3D.Proofs.ResidentLevels

namespace Accel3D

/-! ## The combine equation -/

namespace Combine

def runChannel? (c : CombineChannel) (i : ChannelInputs) : Option UInt8 := do
  let base ← word? (i.base c.zeroOther c.subtractLocal)
  let selected ← word? (i.factor c.factor)
  let factor ← word? (if c.reverse then selected else complement selected)
  let scaled ← scaled? base (factor + 1)
  let sum ← word? (scaled + i.addend c.addend)
  let value := clampByte sum
  return if c.invert then value ^^^ 255 else value

def run? (u : Combine) (other own : Argb) (inputs : CombineInputs) : Option Argb := do
  let t := inputs.texel
  let channel (c : CombineChannel) (o l x : UInt8) : Option UInt8 :=
    runChannel? c ⟨o, l, x, other.a, own.a, t.a, inputs.detail, inputs.lod⟩
  return ⟨← channel u.alpha other.a own.a t.a, ← channel u.color other.r own.r t.r,
    ← channel u.color other.g own.g t.g, ← channel u.color other.b own.b t.b⟩

theorem ChannelInputs.factor_byte (i : ChannelInputs) (h : 0 ≤ i.detail ∧ i.detail ≤ 255) (f : CombineFactor) :
    0 ≤ i.factor f ∧ i.factor f ≤ 255 := by
  cases f with
  | zero =>
    show (0 : Int) ≤ 0 ∧ (0 : Int) ≤ 255
    decide
  | detail => exact h
  | lodFraction =>
    show 0 ≤ i.lod % 256 ∧ i.lod % 256 ≤ 255
    omega
  | _ => exact toNat_byte _

theorem ChannelInputs.natAbs_addend_le (i : ChannelInputs) (a : CombineAddend) : (i.addend a).natAbs ≤ 255 := by
  have hown := toNat_byte i.own
  have halpha := toNat_byte i.ownAlpha
  cases a <;> simp only [addend] <;> omega

theorem ChannelInputs.natAbs_base_le (i : ChannelInputs) (zeroOther subtractLocal : Bool) :
    (i.base zeroOther subtractLocal).natAbs ≤ 255 := by
  have hother := toNat_byte i.other
  have hown := toNat_byte i.own
  unfold base
  split <;> split <;> omega

theorem runChannel?_eq (c : CombineChannel) (i : ChannelInputs) (h : 0 ≤ i.detail ∧ i.detail ≤ 255) :
    runChannel? c i = some (runChannel c i) := by
  have hselected := i.factor_byte h c.factor
  have hbase := i.natAbs_base_le c.zeroOther c.subtractLocal
  have haddend := i.natAbs_addend_le c.addend
  have hcomplement := complement_of_byte hselected
  have hweight : ((if c.reverse then i.factor c.factor else complement (i.factor c.factor)) + 1).natAbs ≤ 65536 := by
    split <;> omega
  have hscaled := natAbs_scaled_le hbase hweight
  simp only [runChannel?, runChannel]
  rw [bind_word? (by omega), bind_word? (by omega), bind_word? (by omega), scaled?_eq hbase hweight]
  exact bind_word? (by omega) _

/-- **The combine equation stays in range** for every pair of colors and every level. -/
theorem run?_eq (u : Combine) (other own : Argb) (inputs : CombineInputs)
    (h : 0 ≤ inputs.detail ∧ inputs.detail ≤ 255) : u.run? other own inputs = some (u.run other own inputs) := by
  have hchannel : ∀ c o l x, runChannel? c ⟨o, l, x, other.a, own.a, inputs.texel.a, inputs.detail, inputs.lod⟩ =
      some (runChannel c ⟨o, l, x, other.a, own.a, inputs.texel.a, inputs.detail, inputs.lod⟩) :=
    fun c o l x => runChannel?_eq c _ h
  simp only [run?, hchannel]
  rfl

end Combine

/-! ## The detail factor -/

namespace TexParams

/-- detail parameters of few bits: eight for the largest factor, six with a sign for the bias, three for the scale -/
structure SmallDetail (p : TexParams) : Prop where
  max : 0 ≤ p.detailMax.toInt ∧ p.detailMax.toInt ≤ 255
  bias : p.detailBias.toInt.natAbs ≤ 8192
  scale : p.detailScale.toNat ≤ 7

theorem smallDetail_derive (regs : RegisterFile) (memoryMask addressMask addressShift : UInt32) :
    (derive regs memoryMask addressMask addressShift).SmallDetail := by
  have hmax := field_lt (regs.get Reg.textureDetail) 0 8
  have hscale := field_lt (regs.get Reg.textureDetail) 14 3
  have hlow := signed_lower (regs.get Reg.textureDetail >>> 8) 6
  have hhigh := signed_upper (regs.get Reg.textureDetail >>> 8) 6
  constructor <;> simp only [derive, DetailMode.decode]
  · rw [Int32.toInt_ofNat_of_lt (by omega)]
    omega
  · rw [Int32.toInt_ofInt_of_le (by omega) (by omega)]
    omega
  · rw [UInt32.toNat_ofNat_of_lt' (Nat.lt_of_lt_of_le hscale (by decide))]
    omega

end TexParams

namespace TextureUnit

/-- the blend factor that grows as the level falls below the detail bias -/
def detailFactor? (p : TexParams) (lod : Int) : Option Int :=
  let bias := p.detailBias.toInt
  if bias ≤ lod then some 0
  else do
    let below ← word? (bias - lod)
    let grown ← word? (below * 2 ^ p.detailScale.toNat)
    return min (grown / 256) p.detailMax.toInt

theorem detailFactor?_eq {p : TexParams} (hp : p.SmallDetail) {lod : Int} (h : -(2 ^ 23) ≤ lod) :
    detailFactor? p lod = some (detailFactor p lod) ∧ 0 ≤ detailFactor p lod ∧ detailFactor p lod ≤ 255 := by
  obtain ⟨hmax, hbias, hscale⟩ := hp
  simp only [detailFactor?, detailFactor]
  split
  · exact ⟨rfl, Int.le_refl 0, by decide⟩
  · rename_i hbelow
    -- the scale moves up by at most seven places
    have hpower : (2 : Int) ^ p.detailScale.toNat ≤ 2 ^ 7 := by
      exact_mod_cast Nat.pow_le_pow_right (by decide) hscale
    have hpositive : (0 : Int) < 2 ^ p.detailScale.toNat := Int.pow_pos (by decide)
    have hgrown : (p.detailBias.toInt - lod) * 2 ^ p.detailScale.toNat ≤ (8192 + 2 ^ 23) * 2 ^ 7 :=
      Int.mul_le_mul (by omega) hpower (Int.le_of_lt hpositive) (by decide)
    have hnonneg : 0 ≤ (p.detailBias.toInt - lod) * 2 ^ p.detailScale.toNat :=
      Int.mul_nonneg (by omega) (Int.le_of_lt hpositive)
    rw [bind_word? (by omega), bind_word? (by omega)]
    refine ⟨rfl, ?_⟩
    omega

end TextureUnit

/-! ## Texture units -/

namespace TextureStage

def process? (stage : TextureStage) (x : Int) (dither : Dither) (c : TexCoords) (other : Argb) : Option Argb := do
  let (texel, lod) := stage.unit.sample stage.mode x dither c stage.lodBase
  let detail ← TextureUnit.detailFactor? stage.unit.params lod
  stage.combine.run? other texel ⟨texel, detail, lod⟩

/-- **A texture unit stays in range** whatever its registers are, for every mode, coordinate and level. -/
theorem process?_eq (stage : TextureStage) (h : stage.unit.params = stage.unit.currentParams) (x : Int)
    (dither : Dither) (c : TexCoords) (other : Argb) : stage.process? x dither c other = some (stage.process x dither c other) := by
  have hp : stage.unit.params.SmallDetail := by
    rw [h]
    exact TexParams.smallDetail_derive _ _ _ _
  have hlod := (TextureUnit.pixelLod_range h stage.mode dither x
    (TextureUnit.footing stage.mode c stage.lodBase).lod).1
  obtain ⟨hdetail, hbyte⟩ := TextureUnit.detailFactor?_eq hp (Int.le_trans (by decide) hlod)
  simp only [process?, process, TextureUnit.sample, hdetail, Option.bind_eq_bind, Option.bind_some]
  exact Combine.run?_eq _ _ _ _ hbyte

end TextureStage
end Accel3D
