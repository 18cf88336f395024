/-
Fog and blend in words.

Fog moves a color towards another by an amount that lies a little outside eight bits: an entry of the table may be moved
past either end. The blend scales bytes by weights of eight bits, but for the weights from the stored alpha, which is a
halfword of the aux buffer and may have all its 16 bits. Each sum is clamped last, so what leaves both stages has eight
bits.

Results: `PixelRules.applyFog?_eq` and `PixelRules.blend?_eq` (no number on the way leaves its range),
`PixelRules.within_applyFog` and `PixelRules.blend_byte` (what comes out is a byte a channel).
-/
import Accel3D.Pixel.Shade
import Accel3D.Proofs.Checked.Word
import Accel3D.Proofs.Pixels

namespace Accel3D

/-! ## Colors in whole numbers -/

theorem clamp255_byte (n : Int) : 0 ≤ clamp255 n ∧ clamp255 n ≤ 255 := by
  unfold clamp255
  omega

namespace Rgb

def map? (f : Int → Option Int) (c : Rgb) : Option Rgb := return ⟨← f c.r, ← f c.g, ← f c.b⟩

def zip? (f : Int → Int → Option Int) (c d : Rgb) : Option Rgb := return ⟨← f c.r d.r, ← f c.g d.g, ← f c.b d.b⟩

/-- a color with all channels in a range -/
structure Within (low high : Int) (c : Rgb) : Prop where
  red : low ≤ c.r ∧ c.r ≤ high
  green : low ≤ c.g ∧ c.g ≤ high
  blue : low ≤ c.b ∧ c.b ≤ high

variable {low high low' high' : Int} {c d : Rgb}

theorem within_ofArgb (c : Argb) : Within 0 255 (ofArgb c) := ⟨toNat_byte c.r, toNat_byte c.g, toNat_byte c.b⟩

theorem within_zero : Within 0 255 zero := ⟨by decide, by decide, by decide⟩

theorem within_clamp255 (c : Rgb) : Within 0 255 (c.map clamp255) :=
  ⟨clamp255_byte c.r, clamp255_byte c.g, clamp255_byte c.b⟩

theorem Within.mono (h : Within low high c) (hlow : low' ≤ low) (hhigh : high ≤ high') : Within low' high' c :=
  ⟨⟨Int.le_trans hlow h.red.1, Int.le_trans h.red.2 hhigh⟩, ⟨Int.le_trans hlow h.green.1, Int.le_trans h.green.2 hhigh⟩,
    ⟨Int.le_trans hlow h.blue.1, Int.le_trans h.blue.2 hhigh⟩⟩

theorem Within.map {f : Int → Int} (h : Within low high c)
    (hf : ∀ v, low ≤ v ∧ v ≤ high → low' ≤ f v ∧ f v ≤ high') : Within low' high' (c.map f) :=
  ⟨hf _ h.red, hf _ h.green, hf _ h.blue⟩

theorem Within.map?_eq {f? : Int → Option Int} {f : Int → Int} (h : Within low high c)
    (hf : ∀ v, low ≤ v ∧ v ≤ high → f? v = some (f v)) : c.map? f? = some (c.map f) := by
  rw [map?, hf _ h.red, hf _ h.green, hf _ h.blue]
  rfl

theorem Within.zip?_eq {f? : Int → Int → Option Int} {f : Int → Int → Int} (h : Within low high c)
    (h' : Within low' high' d)
    (hf : ∀ v w, low ≤ v ∧ v ≤ high → low' ≤ w ∧ w ≤ high' → f? v w = some (f v w)) :
    zip? f? c d = some (zip f c d) := by
  rw [zip?, hf _ _ h.red h'.red, hf _ _ h.green h'.green, hf _ _ h.blue h'.blue]
  rfl

theorem Within.sub (h : Within 0 255 c) (h' : Within 0 255 d) : Within (-255) 255 (zip (· - ·) c d) := by
  obtain ⟨hr, hg, hb⟩ := h
  obtain ⟨hr', hg', hb'⟩ := h'
  constructor <;> simp only [zip] <;> omega

end Rgb

namespace PixelRules

/-! ## Fog -/

def fogFromValues? (rules : PixelRules) (delta blend : UInt8) (dither : Dither) (x : Int) (wFloat : Nat) :
    Option Int := do
  let product ← word? ((delta.toNat &&& rules.fogDeltaMask) * (wFloat / 4 % 256) : Nat)
  let signed ← word? (if rules.fog.zones && delta.toNat.testBit 1 then -product else product)
  let moved := signed / 64
  let dithered ← word? (if rules.fog.dither then moved + dither.value4 x else moved)
  word? (blend.toNat + dithered / 16)

def fogFromTable? (rules : PixelRules) (table : FogTable) (dither : Dither) (x : Int) (wFloat : Nat) : Option Int := do
  let i := wFloat / 1024 % 64
  rules.fogFromValues? (← table.delta[i]?) (← table.blend[i]?) dither x wFloat

def fogAmount? (rules : PixelRules) (table : FogTable) (dither : Dither) (x : Int) (depth : PixelDepth) (f : Fragment) :
    Option Int :=
  match rules.fog.source with
  | .table => rules.fogFromTable? table dither x depth.wFloat
  | .alpha => some f.color.a.toNat
  | .depth => some (cutZ rules.path.clampIterated f.z / 256)
  | .w => some (cutW rules.path.clampIterated f.w)

def fogTerm? (rules : PixelRules) (table : FogTable) (dither : Dither) (x : Int) (depth : PixelDepth) (f : Fragment)
    (color : Rgb) : Option Rgb := do
  let fogColor := Rgb.ofArgb rules.fogColor
  if rules.fog.constant then return fogColor
  else
    let target := if rules.fog.withoutFogColor then Rgb.zero else fogColor
    let way ← (if rules.fog.fogOnly then some target else Rgb.zip? (fun t v => word? (t - v)) target color)
    let amount ← rules.fogAmount? table dither x depth f
    way.map? fun v => scaled? v (amount + 1)

def applyFog? (rules : PixelRules) (table : FogTable) (dither : Dither) (x : Int) (depth : PixelDepth) (f : Fragment)
    (color : Rgb) : Option Rgb := do
  let term ← rules.fogTerm? table dither x depth f color
  let sum ← (if rules.fog.fogOnly then some term else Rgb.zip? (fun v t => word? (v + t)) color term)
  return sum.map clamp255

section Fog

variable (rules : PixelRules) (table : FogTable) (dither : Dither) (x : Int) (depth : PixelDepth) (f : Fragment)

/-- the table gives at most 64 less or more than its entries -/
theorem fogFromTable?_eq (wFloat : Nat) :
    rules.fogFromTable? table dither x wFloat = some (rules.fogFromTable table dither x wFloat) ∧
      -64 ≤ rules.fogFromTable table dither x wFloat ∧ rules.fogFromTable table dither x wFloat ≤ 319 := by
  have hlt : wFloat / 1024 % 64 < 64 := Nat.mod_lt _ (by decide)
  have hentry : rules.fogFromTable? table dither x wFloat = rules.fogFromValues?
      table.delta[Fin.ofNat 64 (wFloat / 1024)] table.blend[Fin.ofNat 64 (wFloat / 1024)] dither x wFloat := by
    rw [fogFromTable?, Vector.getElem?_eq_getElem hlt, Vector.getElem?_eq_getElem hlt]
    rfl
  simp only [hentry, fogFromValues?, fogFromTable]
  generalize table.delta[Fin.ofNat 64 (wFloat / 1024)] = delta
  generalize table.blend[Fin.ofNat 64 (wFloat / 1024)] = blend
  have hblend := toNat_byte blend
  have hdelta : delta.toNat < 256 := delta.toNat_lt
  have hdither := dither.value4_lt x
  have hproduct : (delta.toNat &&& rules.fogDeltaMask) * (wFloat / 4 % 256) ≤ 255 * 255 :=
    Nat.mul_le_mul (Nat.le_trans Nat.and_le_left (by omega)) (by omega)
  generalize (delta.toNat &&& rules.fogDeltaMask) * (wFloat / 4 % 256) = product at hproduct ⊢
  generalize (rules.fog.zones && delta.toNat.testBit 1) = backwards
  rw [bind_word? (by omega)]
  have hsigned : (if backwards then -(product : Int) else product).natAbs ≤ 65025 := by
    split <;> omega
  generalize (if backwards then -(product : Int) else product) = signed at hsigned ⊢
  rw [bind_word? (by omega)]
  have hmoved : -1017 ≤ (if rules.fog.dither then signed / 64 + dither.value4 x else signed / 64) ∧
      (if rules.fog.dither then signed / 64 + dither.value4 x else signed / 64) ≤ 1031 := by
    split <;> omega
  rw [bind_word? (by omega), word?_eq (by omega)]
  refine ⟨rfl, ?_⟩
  omega

theorem fogAmount?_eq : rules.fogAmount? table dither x depth f = some (rules.fogAmount table dither x depth f) ∧
    -64 ≤ rules.fogAmount table dither x depth f ∧ rules.fogAmount table dither x depth f ≤ 319 := by
  have halpha := toNat_byte f.color.a
  have hz : cutZ rules.path.clampIterated f.z ≤ 0xFFFF := cut_le _ _ _ _
  have hw : cutW rules.path.clampIterated f.w ≤ 0xFF := cut_le _ _ _ _
  unfold fogAmount? fogAmount
  cases rules.fog.source with
  | table => exact rules.fogFromTable?_eq table dither x depth.wFloat
  | alpha | depth | w =>
    simp only [true_and]
    omega

theorem fogTerm?_eq {color : Rgb} (h : color.Within 0 255) :
    rules.fogTerm? table dither x depth f color = some (rules.fogTerm table dither x depth f color) ∧
      (rules.fogTerm table dither x depth f color).Within (-65536) 65536 := by
  have hfog := Rgb.within_ofArgb rules.fogColor
  unfold fogTerm? fogTerm
  simp only
  split
  · exact ⟨rfl, hfog.mono (by decide) (by decide)⟩
  · have htarget : Rgb.Within 0 255 (if rules.fog.withoutFogColor then Rgb.zero else Rgb.ofArgb rules.fogColor) := by
      split
      · exact Rgb.within_zero
      · exact hfog
    generalize (if rules.fog.withoutFogColor then Rgb.zero else Rgb.ofArgb rules.fogColor) = target at htarget ⊢
    have hway? : (if rules.fog.fogOnly then some target else Rgb.zip? (fun t v => word? (t - v)) target color) =
        some (if rules.fog.fogOnly then target else Rgb.zip (· - ·) target color) := by
      split
      · rfl
      · exact htarget.zip?_eq h fun t v ht hv => word?_eq (by omega)
    have hway : Rgb.Within (-255) 255 (if rules.fog.fogOnly then target else Rgb.zip (· - ·) target color) := by
      split
      · exact htarget.mono (by decide) (by decide)
      · exact htarget.sub h
    obtain ⟨hamount?, hamount⟩ := rules.fogAmount?_eq table dither x depth f
    have hweight : (rules.fogAmount table dither x depth f + 1).natAbs ≤ 65536 := by omega
    simp only [hway?, hamount?, Option.bind_eq_bind, Option.bind_some]
    refine ⟨hway.map?_eq fun v hv => scaled?_eq (by omega) hweight, hway.map fun v hv => ?_⟩
    have hv' : v.natAbs ≤ 255 := by omega
    have hscaled := natAbs_scaled_le hv' hweight
    omega

/-- **Fog stays in range** for every table and every source of its amount. -/
theorem applyFog?_eq {color : Rgb} (h : color.Within 0 255) :
    rules.applyFog? table dither x depth f color = some (rules.applyFog table dither x depth f color) := by
  obtain ⟨hterm?, hterm⟩ := rules.fogTerm?_eq table dither x depth f h
  unfold applyFog? applyFog
  rw [hterm?, Option.bind_eq_bind, Option.bind_some]
  split
  · rfl
  · rw [h.zip?_eq hterm fun v t hv ht => word?_eq (n := v + t) (by omega)]
    rfl

theorem within_applyFog (color : Rgb) : (rules.applyFog table dither x depth f color).Within 0 255 :=
  Rgb.within_clamp255 _

end Fog

/-! ## Frame buffer blend -/

/-- one channel with the dither taken off, in parts of one by `scale` -/
def subtractStep? (threshold scale v : Int) : Option Int := do
  let wide ← word? (scale * v)
  let raised ← word? (wide + 15)
  let lowered ← word? (raised - threshold)
  return lowered / scale

/-- the stored color with the dither taken off -/
def subtractDither? (threshold : Int) (c : Rgb) : Option Rgb :=
  return ⟨← subtractStep? threshold 2 c.r, ← subtractStep? threshold 4 c.g, ← subtractStep? threshold 2 c.b⟩

/-- a value scaled by one factor of the blend -/
def scaleBy? (factor : BlendFactor) (v other sourceAlpha destAlpha special : Int) : Option Int :=
  match factor with
  | .zero => some 0
  | .sourceAlpha => scaled? v (sourceAlpha + 1)
  | .otherColor => scaled? v (other + 1)
  | .destAlpha => scaled? v (destAlpha + 1)
  | .one => some v
  | .oneMinusSourceAlpha => scaled? v (256 - sourceAlpha)
  | .oneMinusOtherColor => scaled? v (256 - other)
  | .oneMinusDestAlpha => scaled? v (256 - destAlpha)
  | .special => scaled? v (special + 1)

def blendChannel? (mode : AlphaMode) (source dest preFog sourceAlpha destAlpha : Int) : Option Int := do
  let room ← word? (256 - destAlpha)
  let ofSource ← scaleBy? mode.sourceColor source dest sourceAlpha destAlpha (min sourceAlpha room)
  let ofDest ← scaleBy? mode.destColor dest source sourceAlpha destAlpha preFog
  return clamp255 (← word? (ofSource + ofDest))

def blendAlpha? (mode : AlphaMode) (sourceAlpha destAlpha : Int) : Option Int := do
  let sum ← word? ((if mode.sourceAlphaOne then sourceAlpha else 0) + (if mode.destAlphaOne then destAlpha else 0))
  return clamp255 sum

/-- the color and alpha that are stored over a color buffer pixel and an aux buffer pixel -/
def blend? (rules : PixelRules) (dither : Dither) (x : Int) (stored : UInt16) (storedAux : Option UInt16)
    (source : Rgb) (sourceAlpha : Int) (preFog : Rgb) : Option (Rgb × Int) := do
  let raw := destColor stored
  let dest ← (if rules.frame.ditherSubtract then subtractDither? (dither.value x) raw else some raw)
  let destAlpha : Int := if rules.frame.alphaPlanes then ((storedAux.map fun v => (v.toNat : Int)).getD 255) else 255
  let channel (s d p : Int) : Option Int := blendChannel? rules.alpha s d p sourceAlpha destAlpha
  let color : Rgb := ⟨← channel source.r dest.r preFog.r, ← channel source.g dest.g preFog.g,
    ← channel source.b dest.b preFog.b⟩
  return (color, ← blendAlpha? rules.alpha sourceAlpha destAlpha)

/-- a stored channel lacks its low bits, so there is room for the dither above it -/
theorem destColor_le (stored : UInt16) :
    (0 ≤ (destColor stored).r ∧ (destColor stored).r ≤ 248) ∧ (0 ≤ (destColor stored).g ∧ (destColor stored).g ≤ 252) ∧
      (0 ≤ (destColor stored).b ∧ (destColor stored).b ≤ 248) := by
  simp only [destColor]
  omega

theorem within_destColor (stored : UInt16) : (destColor stored).Within 0 255 := by
  have h := destColor_le stored
  constructor <;> omega

theorem subtractDither?_eq {threshold : Int} (h : 0 ≤ threshold ∧ threshold < 16) (stored : UInt16) :
    subtractDither? threshold (destColor stored) = some (subtractDither threshold (destColor stored)) ∧
      (subtractDither threshold (destColor stored)).Within 0 255 := by
  obtain ⟨hr, hg, hb⟩ := destColor_le stored
  have hstep : ∀ scale v : Int, 0 ≤ scale * v ∧ scale * v ≤ 1008 →
      subtractStep? threshold scale v = some ((scale * v + 15 - threshold) / scale) := fun scale v hwide => by
    rw [subtractStep?, bind_word? (by omega), bind_word? (by omega), bind_word? (by omega)]
    rfl
  constructor
  · rw [subtractDither?, hstep 2 _ (by omega), hstep 4 _ (by omega), hstep 2 _ (by omega)]
    rfl
  · constructor <;> simp only [subtractDither] <;> omega

/-- every factor of the blend may scale a byte, the stored alpha being any halfword -/
theorem scaleBy?_eq (factor : BlendFactor) {v other sourceAlpha destAlpha special : Int} (hv : 0 ≤ v ∧ v ≤ 255)
    (hother : 0 ≤ other ∧ other ≤ 255) (hsource : 0 ≤ sourceAlpha ∧ sourceAlpha ≤ 255)
    (hdest : 0 ≤ destAlpha ∧ destAlpha ≤ 65535) (hspecial : -65279 ≤ special ∧ special ≤ 255) :
    let value := scaleBy factor v other sourceAlpha destAlpha special
    scaleBy? factor v other sourceAlpha destAlpha special = some value ∧ value.natAbs ≤ 65536 := by
  have hscaled : ∀ weight : Int, weight.natAbs ≤ 65536 →
      scaled? v weight = some (v * weight / 256) ∧ (v * weight / 256).natAbs ≤ 65536 := fun weight hweight =>
    ⟨scaled?_eq (by omega) hweight, natAbs_scaled_le (by omega) hweight⟩
  cases factor with
  | zero => exact ⟨rfl, show (0 : Int).natAbs ≤ 65536 by decide⟩
  | one => exact ⟨rfl, show v.natAbs ≤ 65536 by omega⟩
  | _ => exact hscaled _ (by omega)

theorem blendChannel?_eq (mode : AlphaMode) {source dest preFog sourceAlpha destAlpha : Int}
    (hs : 0 ≤ source ∧ source ≤ 255) (hd : 0 ≤ dest ∧ dest ≤ 255) (hp : 0 ≤ preFog ∧ preFog ≤ 255)
    (hsource : 0 ≤ sourceAlpha ∧ sourceAlpha ≤ 255) (hdest : 0 ≤ destAlpha ∧ destAlpha ≤ 65535) :
    blendChannel? mode source dest preFog sourceAlpha destAlpha =
      some (blendChannel mode source dest preFog sourceAlpha destAlpha) := by
  have hsaturated : -65279 ≤ min sourceAlpha (256 - destAlpha) ∧ min sourceAlpha (256 - destAlpha) ≤ 255 := by omega
  have hunfogged : -65279 ≤ preFog ∧ preFog ≤ 255 := by omega
  obtain ⟨hleft?, hleft⟩ := scaleBy?_eq mode.sourceColor hs hd hsource hdest hsaturated
  obtain ⟨hright?, hright⟩ := scaleBy?_eq mode.destColor hd hs hsource hdest hunfogged
  rw [blendChannel?, bind_word? (by omega), hleft?, hright?]
  exact bind_word? (by omega) _

theorem blendAlpha?_eq (mode : AlphaMode) {sourceAlpha destAlpha : Int} (hsource : 0 ≤ sourceAlpha ∧ sourceAlpha ≤ 255)
    (hdest : 0 ≤ destAlpha ∧ destAlpha ≤ 65535) :
    blendAlpha? mode sourceAlpha destAlpha = some (blendAlpha mode sourceAlpha destAlpha) := by
  refine bind_word? ?_ _
  split <;> split <;> omega

section Blend

variable (rules : PixelRules) (dither : Dither) (x : Int) (stored : UInt16) (storedAux : Option UInt16)

/-- **The blend stays in range** for every pair of factors, whatever is stored. -/
theorem blend?_eq {source preFog : Rgb} {sourceAlpha : Int} (hs : source.Within 0 255)
    (ha : 0 ≤ sourceAlpha ∧ sourceAlpha ≤ 255) (hp : preFog.Within 0 255) :
    rules.blend? dither x stored storedAux source sourceAlpha preFog =
      some (rules.blend dither x stored storedAux source sourceAlpha preFog) := by
  obtain ⟨hsubtract?, hsubtract⟩ := subtractDither?_eq (dither.value_lt x) stored
  have hdest? : (if rules.frame.ditherSubtract then subtractDither? (dither.value x) (destColor stored)
        else some (destColor stored)) =
      some (if rules.frame.ditherSubtract then subtractDither (dither.value x) (destColor stored)
        else destColor stored) := by
    rw [hsubtract?]
    split <;> rfl
  have hdest : Rgb.Within 0 255 (if rules.frame.ditherSubtract then subtractDither (dither.value x) (destColor stored)
      else destColor stored) := by
    split
    · exact hsubtract
    · exact within_destColor stored
  have halpha : ∀ aux : Option UInt16, 0 ≤ (aux.map fun v => (v.toNat : Int)).getD 255 ∧
      (aux.map fun v => (v.toNat : Int)).getD 255 ≤ 65535 := fun aux => by
    cases aux with
    | none => exact ⟨by decide, by decide⟩
    | some v =>
      have hv : v.toNat < 65536 := v.toNat_lt
      simp only [Option.map_some, Option.getD_some]
      omega
  have hdestAlpha : 0 ≤ (if rules.frame.alphaPlanes then (storedAux.map fun v => (v.toNat : Int)).getD 255 else 255) ∧
      (if rules.frame.alphaPlanes then (storedAux.map fun v => (v.toNat : Int)).getD 255 else 255) ≤ 65535 := by
    split
    · exact halpha storedAux
    · decide
  simp only [blend?, blend, hdest?, Option.bind_eq_bind, Option.bind_some,
    blendChannel?_eq rules.alpha hs.red hdest.red hp.red ha hdestAlpha,
    blendChannel?_eq rules.alpha hs.green hdest.green hp.green ha hdestAlpha,
    blendChannel?_eq rules.alpha hs.blue hdest.blue hp.blue ha hdestAlpha, blendAlpha?_eq rules.alpha ha hdestAlpha]
  rfl

theorem blend_byte (source : Rgb) (sourceAlpha : Int) (preFog : Rgb) :
    let stored := rules.blend dither x stored storedAux source sourceAlpha preFog
    stored.1.Within 0 255 ∧ 0 ≤ stored.2 ∧ stored.2 ≤ 255 :=
  ⟨⟨clamp255_byte _, clamp255_byte _, clamp255_byte _⟩, clamp255_byte _⟩

end Blend
end PixelRules
end Accel3D
