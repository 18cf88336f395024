/-
One combine equation for the color path and the texture units.

Both mode words describe a channel by nine bits in the same order, textureMode four places above fbzColorPath
(`ChannelFields.read_shiftLeft`). What differs are the codes of the factors: the color path knows the texel where a
texture unit knows the detail and the level, and its alpha has no code for the local color. For the codes that both know
(`sharedCodes`) each decoder picks the factor of `sharedFactor`, the alpha's local color being its local alpha, and
both units compute the equation of whole numbers that is written down in `ChannelFields.equation`. A difference may be
negative there and the shift rounds down, so the clamp comes last.

Result: `combine_shared`.
-/
import Accel3D.Proofs.Bilinear
import Accel3D.Proofs.BusOrder

namespace Accel3D

/-! ## The fields of a channel -/

/-- the fields of a mode word for the colors or for alpha -/
structure ChannelFields where
  zeroOther : Bool
  subtractLocal : Bool
  factorCode : Nat
  reverse : Bool
  addendCode : Nat
  invert : Bool
deriving DecidableEq, Repr

namespace ChannelFields

def read (w : UInt32) (low : Nat) : ChannelFields :=
  ⟨bit w low, bit w (low + 1), field w (low + 2) 3, bit w (low + 5), field w (low + 6) 2, bit w (low + 8)⟩

def channel (f : ChannelFields) (factor : Nat → CombineFactor) (addend : Nat → CombineAddend) : CombineChannel :=
  ⟨f.zeroOther, f.subtractLocal, factor f.factorCode, f.reverse, addend f.addendCode, f.invert⟩

theorem ofTextureMode_eq (w : UInt32) : Combine.ofTextureMode w =
    ⟨(read w 12).channel .ofTexture .ofColor, (read w 21).channel .ofTexture .ofAlpha⟩ := rfl

theorem read_shiftLeft (w : UInt32) {low : Nat} (h : low ≤ 19) : read (w <<< 4) (low + 4) = read w low := by
  have hbit : ∀ i < 28, bit (w <<< 4) (i + 4) = bit w i := fun i hi => by
    have hfour : UInt32.toNat 4 = 4 := rfl
    rw [bit_shl w 4 (by decide) (by omega), hfour, Nat.add_sub_cancel, decide_eq_true (Nat.le_add_left 4 i),
      Bool.true_and]
  have hfield : ∀ start width, start + width ≤ 28 → field (w <<< 4) (start + 4) width = field w start width :=
    fun start width hin => field_ext fun i hi => by rw [Nat.add_right_comm, hbit _ (by omega)]
  simp only [read, Nat.add_right_comm low 4, hbit low (by omega), hbit (low + 1) (by omega), hbit (low + 5) (by omega),
    hbit (low + 8) (by omega), hfield (low + 2) 3 (by omega), hfield (low + 6) 2 (by omega)]

end ChannelFields

/-! ## The equation on paper -/

def Channel.fieldsLow : Channel → Nat
  | alpha => 17
  | _ => 8

/-- the factor codes that mean the same in both words -/
def sharedCodes : List Nat := [0, 1, 2, 3, 6, 7]

/-- the factor of such a code -/
def sharedFactor (own otherAlpha ownAlpha : Int) : Nat → Int
  | 1 => own
  | 2 => otherAlpha
  | 3 => ownAlpha
  | _ => 0

/-- what is added to a channel: to the alpha the local alpha for every code but 0 -/
def sharedAddend (k : Channel) (own ownAlpha : Int) (code : Nat) : Int :=
  match k with
  | .alpha => if code = 0 then 0 else ownAlpha
  | _ => if code = 1 then own else if code = 2 then ownAlpha else 0

/-- the equation of a channel, of whole numbers -/
def ChannelFields.equation (f : ChannelFields) (other own factor addend : Int) : Int :=
  let base := (if f.zeroOther then 0 else other) - (if f.subtractLocal then own else 0)
  let scaled := (base * ((if f.reverse then factor else 255 - factor) + 1)) >>> (8 : Nat)
  let value := max 0 (min (scaled + addend) 255)
  if f.invert then 255 - value else value

/-- what a channel of two colors becomes, by the fields of fbzColorPath -/
def sharedChannel (w : UInt32) (other own : Argb) (k : Channel) : Int :=
  let f := ChannelFields.read w k.fieldsLow
  let value (c : Argb) (k : Channel) : Int := (c.channel k).toNat
  f.equation (value other k) (value own k)
    (sharedFactor (value own k) (value other .alpha) (value own .alpha) f.factorCode)
    (sharedAddend k (value own k) (value own .alpha) f.addendCode)

/-! ## The units compute the equation -/

namespace Combine

theorem toNat_clampByte (n : Int) : ((clampByte n).toNat : Int) = max 0 (min n 255) := by
  have hlt : min n.toNat 255 < 256 := by omega
  have hbyte : (clampByte n).toNat = min n.toNat 255 := UInt8.toNat_ofNat_of_lt' hlt
  omega

theorem toNat_xor_255 (v : UInt8) : ((v ^^^ 255).toNat : Int) = 255 - v.toNat := by
  have hnot : v ^^^ 255 = ~~~v := UInt8.xor_neg_one
  have hlt : v.toNat < 256 := v.toNat_lt
  have hsize : UInt8.size = 256 := rfl
  rw [hnot, UInt8.toNat_not]
  omega

theorem complement_of_byte {n : Int} (h : 0 ≤ n ∧ n ≤ 255) : complement n = 255 - n := by
  unfold complement
  omega

/-- a channel computes the equation of its fields, whatever codes they are in, when its factor has eight bits -/
theorem toNat_runChannel (f : ChannelFields) (factor : Nat → CombineFactor) (addend : Nat → CombineAddend)
    (i : ChannelInputs) (h : 0 ≤ i.factor (factor f.factorCode) ∧ i.factor (factor f.factorCode) ≤ 255) :
    ((runChannel (f.channel factor addend) i).toNat : Int) =
      f.equation i.other.toNat i.own.toNat (i.factor (factor f.factorCode)) (i.addend (addend f.addendCode)) := by
  rcases f with ⟨zeroOther, subtractLocal, code, reverse, addendCode, invert⟩
  simp only [runChannel, ChannelFields.channel, ChannelFields.equation, ChannelInputs.base, complement_of_byte h]
  rw [Int.shiftRight_eq_div_pow, ← toNat_clampByte]
  cases invert with
  | true => exact toNat_xor_255 _
  | false => rfl

end Combine

/-! ## The decoders -/

namespace Combine

/-- **What a shared code selects** is the same for the three decoders, if the local color of the alpha is its alpha. -/
theorem factor_of_shared (i : ChannelInputs) {code : Nat} (h : code ∈ sharedCodes) :
    let selected := sharedFactor i.own.toNat i.otherAlpha.toNat i.ownAlpha.toNat code
    i.factor (.ofColorPathColor code) = selected ∧ i.factor (.ofTexture code) = selected ∧
      (i.own = i.ownAlpha → i.factor (.ofColorPathAlpha code) = selected) := by
  simp only [sharedCodes, List.mem_cons, List.not_mem_nil, or_false] at h
  -- only code 1 selects the local color, which the alpha has no code for
  obtain rfl | rfl | rfl | rfl | rfl | rfl := h <;>
    exact ⟨rfl, rfl, fun halpha => by
      simp only [ChannelInputs.factor, CombineFactor.ofColorPathAlpha, sharedFactor, halpha]⟩

theorem sharedFactor_byte {own otherAlpha ownAlpha : UInt8} (code : Nat) :
    0 ≤ sharedFactor own.toNat otherAlpha.toNat ownAlpha.toNat code ∧
      sharedFactor own.toNat otherAlpha.toNat ownAlpha.toNat code ≤ 255 := by
  have hbyte : ∀ v : UInt8, 0 ≤ (v.toNat : Int) ∧ (v.toNat : Int) ≤ 255 := fun v => by
    have hlt : v.toNat < 256 := v.toNat_lt
    omega
  unfold sharedFactor
  split
  · exact hbyte own
  · exact hbyte otherAlpha
  · exact hbyte ownAlpha
  · decide

theorem addend_ofColor (i : ChannelInputs) {k : Channel} (hk : k ≠ .alpha) (code : Nat) :
    i.addend (.ofColor code) = sharedAddend k i.own.toNat i.ownAlpha.toNat code := by
  have hcolor : i.addend (.ofColor code) =
      if code = 1 then (i.own.toNat : Int) else if code = 2 then (i.ownAlpha.toNat : Int) else 0 := by
    unfold CombineAddend.ofColor
    split
    · rfl
    · rfl
    · rename_i hone htwo
      rw [if_neg hone, if_neg htwo]
      rfl
  rw [hcolor]
  cases k with
  | alpha => exact absurd rfl hk
  | red => rfl
  | green => rfl
  | blue => rfl

theorem addend_ofAlpha (i : ChannelInputs) (code : Nat) :
    i.addend (.ofAlpha code) = sharedAddend .alpha i.own.toNat i.ownAlpha.toNat code := by
  cases code with
  | zero => rfl
  | succ n => rfl

/-- a unit whose channels are those of the fields of `w`, in codes that select what the shared codes do -/
structure ComputesShared (u : Combine) (w : UInt32) : Prop where
  color : ∃ factor, u.color = (ChannelFields.read w 8).channel factor .ofColor ∧
    ∀ i : ChannelInputs, i.factor (factor (ChannelFields.read w 8).factorCode) =
      sharedFactor i.own.toNat i.otherAlpha.toNat i.ownAlpha.toNat (ChannelFields.read w 8).factorCode
  alpha : ∃ factor, u.alpha = (ChannelFields.read w 17).channel factor .ofAlpha ∧
    ∀ i : ChannelInputs, i.own = i.ownAlpha → i.factor (factor (ChannelFields.read w 17).factorCode) =
      sharedFactor i.own.toNat i.otherAlpha.toNat i.ownAlpha.toNat (ChannelFields.read w 17).factorCode

theorem ComputesShared.channel_run {u : Combine} {w : UInt32} (h : u.ComputesShared w) (other own : Argb)
    (inputs : CombineInputs) (k : Channel) :
    (((u.run other own inputs).channel k).toNat : Int) = sharedChannel w other own k := by
  obtain ⟨colorCodes, hcolor, hcolorFactor⟩ := h.color
  obtain ⟨alphaCodes, halpha, halphaFactor⟩ := h.alpha
  have hcolors : ∀ (i : ChannelInputs) (k : Channel), k ≠ .alpha → ((runChannel u.color i).toNat : Int) =
      (ChannelFields.read w 8).equation i.other.toNat i.own.toNat
        (sharedFactor i.own.toNat i.otherAlpha.toNat i.ownAlpha.toNat (ChannelFields.read w 8).factorCode)
        (sharedAddend k i.own.toNat i.ownAlpha.toNat (ChannelFields.read w 8).addendCode) := fun i k hk => by
    rw [hcolor, toNat_runChannel _ _ _ i (hcolorFactor i ▸ sharedFactor_byte _), hcolorFactor, addend_ofColor i hk]
  have halphas : ∀ i : ChannelInputs, i.own = i.ownAlpha → ((runChannel u.alpha i).toNat : Int) =
      (ChannelFields.read w 17).equation i.other.toNat i.own.toNat
        (sharedFactor i.own.toNat i.otherAlpha.toNat i.ownAlpha.toNat (ChannelFields.read w 17).factorCode)
        (sharedAddend .alpha i.own.toNat i.ownAlpha.toNat (ChannelFields.read w 17).addendCode) := fun i hi => by
    rw [halpha, toNat_runChannel _ _ _ i (halphaFactor i hi ▸ sharedFactor_byte _), halphaFactor i hi, addend_ofAlpha]
  cases k with
  | alpha => exact halphas _ rfl
  | red => exact hcolors _ .red (by decide)
  | green => exact hcolors _ .green (by decide)
  | blue => exact hcolors _ .blue (by decide)

section Shared

variable {m : UInt32} (hcolor : field m 10 3 ∈ sharedCodes) (halpha : field m 19 3 ∈ sharedCodes)
include hcolor halpha

theorem computesShared_ofColorPath : (ofColorPath m).ComputesShared m where
  color := ⟨_, rfl, fun i => (factor_of_shared i hcolor).1⟩
  alpha := ⟨_, rfl, fun i hi => (factor_of_shared i halpha).2.2 hi⟩

theorem computesShared_ofTextureMode : (ofTextureMode (m <<< 4)).ComputesShared m where
  color := by
    refine ⟨.ofTexture, ?_, fun i => (factor_of_shared i hcolor).2.1⟩
    rw [ChannelFields.ofTextureMode_eq, ← ChannelFields.read_shiftLeft m (by decide)]
  alpha := by
    refine ⟨.ofTexture, ?_, fun i _ => (factor_of_shared i halpha).2.1⟩
    rw [ChannelFields.ofTextureMode_eq, ← ChannelFields.read_shiftLeft m (by decide)]

end Shared

/-- **One equation.** For a word whose two factor codes mean the same in fbzColorPath and in textureMode, the unit that
it describes as fbzColorPath and the unit that it describes as textureMode, four places further up, give the same color
for all inputs, and each channel of it is the number of the equation. -/
theorem combine_shared (m : UInt32) (hcolor : field m 10 3 ∈ sharedCodes) (halpha : field m 19 3 ∈ sharedCodes)
    (other own : Argb) (inputs : CombineInputs) :
    (ofColorPath m).run other own inputs = (ofTextureMode (m <<< 4)).run other own inputs ∧
      ∀ k : Channel,
        ((((ofColorPath m).run other own inputs).channel k).toNat : Int) = sharedChannel m other own k := by
  have hpath := (computesShared_ofColorPath hcolor halpha).channel_run other own inputs
  have htexture := (computesShared_ofTextureMode hcolor halpha).channel_run other own inputs
  refine ⟨Argb.ext_channel fun k => UInt8.toNat_inj.1 ?_, hpath⟩
  exact_mod_cast (hpath k).trans (htexture k).symm

/-- a local color that is larger than the other one: in red -240/256 is rounded down to -1 before the local color is
added, and the alpha, whose factor code 1 selects the local alpha, is inverted at the end -/
theorem combine_shared_negative :
    let m : UInt32 := 0x03CE4600
    let other : Argb := ⟨0x40, 225, 0x90, 0x00⟩
    let own : Argb := ⟨0xC0, 240, 0x30, 0x00⟩
    let inputs : CombineInputs := ⟨⟨1, 2, 3, 4⟩, 5, 6⟩
    (field m 10 3 ∈ sharedCodes ∧ field m 19 3 ∈ sharedCodes) ∧
      (ofColorPath m).run other own inputs = (ofTextureMode (m <<< 4)).run other own inputs ∧
      ((((ofColorPath m).run other own inputs).channel .red).toNat : Int) = sharedChannel m other own .red ∧
      sharedChannel m other own .red = 239 ∧ sharedChannel m other own .alpha = 208 := by
  intro m other own inputs
  have hcodes : field m 10 3 ∈ sharedCodes ∧ field m 19 3 ∈ sharedCodes := by decide
  obtain ⟨hsame, hequation⟩ := combine_shared m hcodes.1 hcodes.2 other own inputs
  exact ⟨hcodes, hsame, hequation .red, by decide, by decide⟩

end Combine
end Accel3D
