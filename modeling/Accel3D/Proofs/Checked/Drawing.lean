/-
Drawing in words: depths, pixels, fills and linear writes.

A pixel enters with a depth, which is at most one more than 16 bits before its bias, and its floating depth moves
inverted digits by 19 places less the leading zeros, of which there are at most 15. Its color comes from a combine unit
without a detail factor. What fog and blend leave has eight bits a channel, so the quantizer finds it in its table; the
color of a fill and of a direct write has eight bits to begin with.

Results: `Pipeline.drawColored?_eq` (a pixel), `FastFill.run?_eq` (a fill), `LinearWrite.runDirect?_eq` and
`LinearWrite.runPipeline?_eq` (linear writes): none has a number leave its range, whatever the registers, the tables and
the memory hold.
-/
import Accel3D.Linear.Pixels
import Accel3D.Proofs.Checked.Shade
import Accel3D.Proofs.Checked.Texture
import Accel3D.Proofs.FloatDepth

namespace Accel3D

/-! ## Depths -/

/-- floating depth of a 32-bit number, if the digits are not moved by a negative number of places -/
def floatDepth? (n : Nat) : Option Nat :=
  if n < 2 ^ 16 then some 0xFFFF
  else
    let zeros := 31 - n.log2
    if zeros ≤ 19 then some (zeros * 4096 + (2 ^ 32 - 1 - n) / 2 ^ (19 - zeros) % 4096 + 1) else none

def floatW? (w : Int64) : Option Nat :=
  let n := w.toUInt64.toNat
  if n / 2 ^ 32 % 2 ^ 16 = 0 then floatDepth? (n % 2 ^ 32) else some 0

def floatZ? (z : Int32) : Option Nat :=
  let n := z.toUInt32.toNat
  if n < 2 ^ 28 then floatDepth? (16 * n) else some 0

/-- **A number with a floating depth has at most 15 leading zeros.** -/
theorem leadingZeros_le {n : Nat} (h : 2 ^ 16 ≤ n) : 31 - n.log2 ≤ 15 := by
  have hlog : 16 ≤ n.log2 := (Nat.le_log2 (by omega)).2 h
  omega

theorem floatDepth?_eq (n : Nat) : floatDepth? n = some (floatDepth n) := by
  unfold floatDepth? floatDepth
  split
  · rfl
  · rename_i hlarge
    have hzeros := leadingZeros_le (Nat.not_lt.1 hlarge)
    exact if_pos (by omega)

theorem floatW?_eq (w : Int64) : floatW? w = some (floatW w) := by
  unfold floatW? floatW
  simp only [floatDepth?_eq]
  split <;> rfl

theorem floatZ?_eq (z : Int32) : floatZ? z = some (floatZ z) := by
  unfold floatZ? floatZ
  simp only [floatDepth?_eq]
  split <;> rfl

namespace PixelRules

/-- the stipple register after a pixel, and whether the pixel passes; a pattern has 32 bits -/
def stippleTest? (rules : PixelRules) (stipple : UInt32) (x y : Int) : Option (UInt32 × Bool) :=
  let place := 8 * (y % 4).toNat + (7 - (x % 8).toNat)
  if place < 32 then some (rules.stippleTest stipple x y) else none

/-- the depth of a pixel before the bias -/
def rawDepth? (rules : PixelRules) (f : Fragment) : Option Nat :=
  if !rules.frame.wBuffer then some (cutZ rules.path.clampIterated f.z)
  else if rules.hasFloatZ && rules.frame.floatDepth then floatZ? f.z
  else floatW? f.w

def depth? (rules : PixelRules) (f : Fragment) : Option Int := do
  let raw ← rules.rawDepth? f
  if rules.frame.depthBias then return min (max (← word? (raw + signed rules.zaColor 16)) 0) 0xFFFF
  else return raw

variable (rules : PixelRules)

theorem stippleTest?_eq (stipple : UInt32) (x y : Int) :
    rules.stippleTest? stipple x y = some (rules.stippleTest stipple x y) :=
  if_pos (by omega)

theorem rawDepth_le (f : Fragment) : rules.rawDepth f ≤ 0x10000 := by
  have hz : cutZ rules.path.clampIterated f.z ≤ 0xFFFF := cut_le _ _ _ _
  have hfloatZ := (floatCode_le (depthOfZ f.z)).1
  have hfloatW := (floatCode_le (depthOfW f.w)).1
  rw [← floatZ_eq] at hfloatZ
  rw [← floatW_eq] at hfloatW
  unfold rawDepth
  split
  · omega
  · split <;> assumption

theorem depth?_eq (f : Fragment) : rules.depth? f = some (rules.depth f) := by
  have hraw? : rules.rawDepth? f = some (rules.rawDepth f) := by
    unfold rawDepth? rawDepth
    rw [floatZ?_eq, floatW?_eq]
    split
    · rfl
    · split <;> rfl
  have hraw := rules.rawDepth_le f
  have hlow := signed_lower rules.zaColor 16
  have hhigh := signed_upper rules.zaColor 16
  unfold depth? depth
  rw [hraw?, Option.bind_eq_bind, Option.bind_some, bind_word? (by omega)]
  split <;> rfl

/-! ## Color path -/

/-- the color of a pixel by the color path, or the test that rejects it -/
def colorOf? (rules : PixelRules) (f : Fragment) (texel : Argb) : Option (Except Reject Argb) := do
  let selected := rules.otherColor f texel
  let other := selected.withAlpha (rules.otherAlpha f texel)
  match rules.chromaTest selected >>= fun _ => rules.maskTest other.a with
  | .error r => return .error r
  | .ok _ =>
    let color ← rules.combine.run? other (rules.localColor f texel) ⟨texel, 0, 0⟩
    return (rules.alphaTest color.a).map fun _ => color

theorem colorOf?_eq (f : Fragment) (texel : Argb) : rules.colorOf? f texel = some (rules.colorOf f texel) := by
  have hcombine := rules.combine.run?_eq ((rules.otherColor f texel).withAlpha (rules.otherAlpha f texel))
    (rules.localColor f texel) ⟨texel, 0, 0⟩ (show (0 : Int) ≤ 0 ∧ (0 : Int) ≤ 255 by decide)
  simp only [colorOf?, colorOf, hcombine]
  cases rules.chromaTest (rules.otherColor f texel) with
  | error r => rfl
  | ok u =>
    cases rules.maskTest ((rules.otherColor f texel).withAlpha (rules.otherAlpha f texel)).a with
    | error r => rfl
    | ok u => rfl

end PixelRules

/-! ## Pixels -/

namespace Pipeline

/-- the depth of a pixel, or the test that rejects it, and the stipple register after it -/
def entrance? (p : Pipeline) (c : Canvas) (pos : PixelPosition) (f : Fragment) :
    Option (UInt32 × Except Reject PixelDepth) := do
  let rules := p.rules
  if rules.frame.clipping && !rules.clip.contains pos.x pos.screenY then return (c.stipple, .error .clipped)
  else
    let (stipple, passes) ← rules.stippleTest? c.stipple pos.x pos.y
    if !passes then return (stipple, .error .stippled)
    else
      let depth ← rules.depth? f
      let wFloat ← floatW? f.w
      let stored := if rules.frame.depthTest then (p.surface.aux pos.x pos.screenY).map c.memory.read16 else none
      return if rules.depthPasses depth stored then (stipple, .ok ⟨depth, wFloat⟩) else (stipple, .error .depth)

def enter? (p : Pipeline) (pos : PixelPosition) (f : Fragment) (c : Canvas) : Option (Canvas × Option PixelDepth) := do
  let (stipple, verdict) ← p.entrance? c pos f
  return Canvas.judge { c with counters := c.counters.enter, stipple := stipple } verdict

/-- the color and alpha to be stored -/
def finalColor? (p : Pipeline) (memory : Memory) (pos : PixelPosition) (dither : Dither) (depth : PixelDepth)
    (color : Argb) (f : Fragment) : Option (Rgb × Int) := do
  let rules := p.rules
  let preFog := Rgb.ofArgb color
  let fogged ← (if rules.fog.enable then rules.applyFog? p.fog dither pos.x depth f preFog else some preFog)
  if rules.alpha.blend then
    rules.blend? dither pos.x (memory.read16 (p.surface.color pos.x pos.screenY))
      ((p.surface.aux pos.x pos.screenY).map memory.read16) fogged color.a.toNat preFog
  else return (fogged, color.a.toNat)

/-- fog, blend, dither and the write; color and alpha must be bytes -/
def settle? (p : Pipeline) (pos : PixelPosition) (dither : Dither) (depth : PixelDepth) (color : Argb) (f : Fragment)
    (c : Canvas) : Option Canvas := do
  let (rgb, alpha) ← p.finalColor? c.memory pos dither depth color f
  let alpha ← byte? alpha
  let value ← dither.quantize? pos.x rgb.r rgb.g rgb.b
  let aux := if p.rules.frame.alphaPlanes then alpha else depth.depth
  return { c with
    memory := p.writeAux pos (UInt16.ofInt aux) (p.writeColor pos value c.memory)
    counters := c.counters.drawn 1 }

/-- a pixel whose color is judged once it has entered -/
def drawColored? (p : Pipeline) (pos : PixelPosition) (dither : Dither) (f : Fragment)
    (verdict : Option (Except Reject Argb)) (c : Canvas) : Option Canvas := do
  match ← p.enter? pos f c with
  | (c, none) => return c
  | (c, some depth) =>
    match c.judge (← verdict) with
    | (c, none) => return c
    | (c, some color) => p.settle? pos dither depth color f c

def drawGiven? (p : Pipeline) (pos : PixelPosition) (dither : Dither) (f : Fragment) (c : Canvas) : Option Canvas :=
  p.drawColored? pos dither f (some (p.rules.testColor f.color)) c

variable (p : Pipeline) (pos : PixelPosition) (dither : Dither) (f : Fragment) (c : Canvas)

theorem enter?_eq : p.enter? pos f c = some (p.enter pos f c) := by
  have hentry : p.entrance? c pos f = some (p.entry c pos f) := by
    simp only [entrance?, entry, p.rules.stippleTest?_eq, p.rules.depth?_eq, floatW?_eq, Option.bind_eq_bind,
      Option.bind_some]
    split
    · rfl
    · split
      · rfl
      · split <;> rfl
  simp only [enter?, enter, hentry, Option.bind_eq_bind, Option.bind_some]
  rfl

/-- **What is stored is a byte a channel, and so is its alpha,** whatever the rules, the table and the memory are. -/
theorem finalColor_byte (memory : Memory) (depth : PixelDepth) (color : Argb) :
    let stored := p.finalColor memory pos dither depth color f
    stored.1.Within 0 255 ∧ 0 ≤ stored.2 ∧ stored.2 ≤ 255 := by
  unfold finalColor
  simp only
  split
  · exact PixelRules.blend_byte _ _ _ _ _ _ _ _
  · refine ⟨?_, toNat_byte color.a⟩
    split
    · exact PixelRules.within_applyFog _ _ _ _ _ _ _
    · exact Rgb.within_ofArgb color

theorem finalColor?_eq (memory : Memory) (depth : PixelDepth) (color : Argb) :
    p.finalColor? memory pos dither depth color f = some (p.finalColor memory pos dither depth color f) := by
  have hpreFog := Rgb.within_ofArgb color
  have hfogged? : (if p.rules.fog.enable then p.rules.applyFog? p.fog dither pos.x depth f (Rgb.ofArgb color)
        else some (Rgb.ofArgb color)) =
      some (if p.rules.fog.enable then p.rules.applyFog p.fog dither pos.x depth f (Rgb.ofArgb color)
        else Rgb.ofArgb color) := by
    rw [p.rules.applyFog?_eq p.fog dither pos.x depth f hpreFog]
    split <;> rfl
  have hfogged : Rgb.Within 0 255 (if p.rules.fog.enable
      then p.rules.applyFog p.fog dither pos.x depth f (Rgb.ofArgb color) else Rgb.ofArgb color) := by
    split
    · exact PixelRules.within_applyFog _ _ _ _ _ _ _
    · exact hpreFog
  simp only [finalColor?, finalColor, hfogged?, Option.bind_eq_bind, Option.bind_some]
  split
  · exact p.rules.blend?_eq dither pos.x _ _ hfogged (toNat_byte color.a) hpreFog
  · rfl

theorem settle?_eq (depth : PixelDepth) (color : Argb) :
    p.settle? pos dither depth color f c = some (p.settle pos dither depth color f c) := by
  obtain ⟨hcolor, halpha⟩ := p.finalColor_byte pos dither f c.memory depth color
  simp only [settle?, p.finalColor?_eq, Option.bind_eq_bind, Option.bind_some, byte?_eq halpha,
    dither.quantize?_eq pos.x hcolor.red hcolor.green hcolor.blue]
  rfl

/-- **A pixel stays in range** from entry to write, if the judgement of its color does. -/
theorem drawColored?_eq {verdict? : Option (Except Reject Argb)} {verdict : Except Reject Argb}
    (h : verdict? = some verdict) :
    p.drawColored? pos dither f verdict? c = some (p.drawColored pos dither f verdict c) := by
  subst h
  simp only [drawColored?, drawColored, p.enter?_eq, Option.bind_eq_bind, Option.bind_some, p.settle?_eq]
  rcases p.enter pos f c with ⟨entered, _ | depth⟩
  · rfl
  · simp only
    rcases entered.judge verdict with ⟨judged, _ | color⟩ <;> rfl

theorem drawGiven?_eq : p.drawGiven? pos dither f c = some (p.drawGiven pos dither f c) :=
  p.drawColored?_eq pos dither f c rfl

end Pipeline

/-! ## Fast fills -/

namespace FastFill

def colorAt? (f : FastFill) (y : Int) (x : Nat) : Option UInt16 :=
  (Dither.ofMode f.mode y).quantize? x f.color.r.toNat f.color.g.toNat f.color.b.toNat

def fillRun? (f : FastFill) (base : UInt32) (row : Int) (value? : Nat → Option UInt16) :
    Nat → Nat → Memory → Option Memory
  | 0, _, m => some m
  | n + 1, x, m => do fillRun? f base row value? n (x + 1) (m.write16 (f.address base x row) (← value? x))

def fillColor? (f : FastFill) (y : Int) (c : Canvas) : Option Canvas :=
  match f.colorBase with
  | none => some c
  | some base => do
    let memory ← f.fillRun? base (screenRow f.flip y) (f.colorAt? y) f.width f.clip.left c.memory
    return { c with memory := memory, counters := c.counters.drawn (UInt32.ofNat f.width) }

def fillRows? (f : FastFill) : Nat → Nat → Canvas → Option Canvas
  | 0, _, c => some c
  | n + 1, y, c => do fillRows? f n (y + 1) (f.fillAux y (← f.fillColor? y c))

def run? (f : FastFill) (c : Canvas) : Option Canvas := f.fillRows? f.height f.clip.low c

variable (f : FastFill)

theorem colorAt?_eq (y : Int) (x : Nat) : f.colorAt? y x = some (f.colorAt y x) :=
  Dither.quantize?_eq _ _ (toNat_byte f.color.r) (toNat_byte f.color.g) (toNat_byte f.color.b)

theorem fillRun?_eq {value? : Nat → Option UInt16} {value : Nat → UInt16} (h : ∀ x, value? x = some (value x))
    (base : UInt32) (row : Int) (n x : Nat) (m : Memory) :
    f.fillRun? base row value? n x m = some (f.fillRun base row value n x m) := by
  induction n generalizing x m with
  | zero => rfl
  | succ n ih => simp only [fillRun?, fillRun, h, Option.bind_eq_bind, Option.bind_some, ih]

theorem fillColor?_eq (y : Int) (c : Canvas) : f.fillColor? y c = some (f.fillColor y c) := by
  unfold fillColor? fillColor
  cases f.colorBase with
  | none => rfl
  | some base =>
    simp only [f.fillRun?_eq (f.colorAt?_eq y), Option.bind_eq_bind, Option.bind_some]
    rfl

/-- **A fill stays in range:** its color is in the table at every pixel. -/
theorem run?_eq (c : Canvas) : f.run? c = some (f.run c) := by
  have hrows : ∀ n y c, f.fillRows? n y c = some (f.fillRows n y c) := fun n => by
    induction n with
    | zero => exact fun _ _ => rfl
    | succ n ih => exact fun y c => by simp only [fillRows?, fillRows, f.fillColor?_eq, Option.bind_eq_bind,
        Option.bind_some, ih]
  exact hrows f.height f.clip.low c

end FastFill

/-! ## Linear writes -/

namespace LinearWrite

/-- one pixel stored directly -/
def storePixel? (mode : FrameMode) (surface : Surface) (y x : Int) (pixel : UInt32) (p : LinearPixel) (c : Canvas) :
    Option Canvas :=
  if !p.parts.any then some c
  else do
    let value ← (Dither.ofMode mode y).quantize? x p.color.r.toNat p.color.g.toNat p.color.b.toNat
    let m := if p.parts.color then storeInside c.memory surface.colorBase pixel value else c.memory
    let m := match surface.auxBase, auxValue mode p with
      | some base, some v => storeInside m base pixel v
      | _, _ => m
    return { c with memory := m, counters := c.counters.drawn 1 }

def runDirect? (w : LinearWrite) (mode : FrameMode) (surface : Surface) (c : Canvas) : Option Canvas := do
  let pixel := UInt32.ofInt w.screenY * surface.rowPixels + UInt32.ofInt w.x
  let c ← storePixel? mode surface w.y w.x pixel w.pixels.first c
  storePixel? mode surface w.y (w.x + 1) (pixel + 1) w.pixels.second c

theorem storePixel?_eq (mode : FrameMode) (surface : Surface) (y x : Int) (pixel : UInt32) (p : LinearPixel)
    (c : Canvas) : storePixel? mode surface y x pixel p c = some (storePixel mode surface y x pixel p c) := by
  unfold storePixel? storePixel
  rw [Dither.quantize?_eq _ _ (toNat_byte p.color.r) (toNat_byte p.color.g) (toNat_byte p.color.b)]
  split <;> rfl

/-- **A direct write stays in range:** the colors of its pixels are in the table. -/
theorem runDirect?_eq (w : LinearWrite) (mode : FrameMode) (surface : Surface) (c : Canvas) :
    w.runDirect? mode surface c = some (w.runDirect mode surface c) := by
  simp only [runDirect?, storePixel?_eq, Option.bind_eq_bind, Option.bind_some]
  rfl

/-- one pixel sent through the pipeline -/
def drawPixel? (pipeline : Pipeline) (mode : LinearMode) (w : LinearWrite) (x : Int) (p : LinearPixel) (c : Canvas) :
    Option Canvas :=
  if !p.parts.any then some c
  else pipeline.drawGiven? ⟨x, w.y, w.screenY⟩ (Dither.ofMode pipeline.rules.frame w.y)
    (fragment mode pipeline.rules.zaColor p) c

def runPipeline? (w : LinearWrite) (pipeline : Pipeline) (mode : LinearMode) (c : Canvas) : Option Canvas := do
  drawPixel? pipeline mode w (w.x + 1) w.pixels.second (← drawPixel? pipeline mode w w.x w.pixels.first c)

theorem runPipeline?_eq (w : LinearWrite) (pipeline : Pipeline) (mode : LinearMode) (c : Canvas) :
    w.runPipeline? pipeline mode c = some (w.runPipeline pipeline mode c) := by
  have hpixel : ∀ x p c, drawPixel? pipeline mode w x p c = some (drawPixel pipeline mode w x p c) := fun x p c => by
    simp only [drawPixel?, drawPixel, pipeline.drawGiven?_eq]
    split <;> rfl
  simp only [runPipeline?, hpixel, Option.bind_eq_bind, Option.bind_some]
  rfl

end LinearWrite
end Accel3D
