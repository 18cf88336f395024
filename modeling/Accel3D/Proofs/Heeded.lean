/-
What drawing heeds of the mode registers.

A pixel does not see every bit that its rules hold: the floating depth of Z is for revisions that have it, and the
dither and the zones of fog are for fog whose amount comes from the table. Of a texture unit's register file a pixel
sees textureMode only; all else that the unit does comes from its level parameters, its tables and its memory. Taking
out the rest (`Raster.heeded`) leaves every pixel as it is.

Results: `Pipeline.drawGiven_heeded` (a pixel whose color is given), `Raster.draw_heeded` (a triangle).
-/
import Accel3D.Chip.Linear
import Accel3D.Triangle.Raster

namespace Accel3D

/-! ## Rules -/

namespace FogMode

def readsTable (m : FogMode) : Bool := m.enable && !m.constant && m.source == .table

/-- without the dither and the zones of a table that is not read -/
def heeded (m : FogMode) : FogMode :=
  { m with dither := m.readsTable && m.dither, zones := m.readsTable && m.zones }

theorem heeded_of_readsTable {m : FogMode} (h : m.readsTable = true) : m.heeded = m := by
  rw [heeded, h, Bool.true_and, Bool.true_and]

end FogMode

namespace PixelRules

/-- without what no pixel sees -/
def heeded (rules : PixelRules) : PixelRules :=
  { rules with
    frame := { rules.frame with floatDepth := rules.hasFloatZ && rules.frame.floatDepth }
    fog := rules.fog.heeded }

theorem rawDepth_heeded (rules : PixelRules) (f : Fragment) : rules.heeded.rawDepth f = rules.rawDepth f := by
  simp only [rawDepth, heeded, Bool.and_self_left]

theorem depth_heeded (rules : PixelRules) (f : Fragment) : rules.heeded.depth f = rules.depth f := by
  simp only [depth, rawDepth_heeded]
  rfl

theorem fogAmount_heeded (rules : PixelRules) (he : rules.fog.enable = true) (hc : rules.fog.constant = false)
    (table : FogTable) (dither : Dither) (x : Int) (depth : PixelDepth) (f : Fragment) :
    rules.heeded.fogAmount table dither x depth f = rules.fogAmount table dither x depth f := by
  have hsource : rules.heeded.fog.source = rules.fog.source := rfl
  unfold fogAmount
  rw [hsource]
  cases hs : rules.fog.source with
  | table =>
    have hread : rules.fog.readsTable = true := by rw [FogMode.readsTable, he, hc, hs]; rfl
    simp only [fogFromTable, heeded, FogMode.heeded_of_readsTable hread]
  | alpha => rfl
  | depth => rfl
  | w => rfl

theorem applyFog_heeded (rules : PixelRules) (he : rules.fog.enable = true) (table : FogTable) (dither : Dither)
    (x : Int) (depth : PixelDepth) (f : Fragment) (color : Rgb) :
    rules.heeded.applyFog table dither x depth f color = rules.applyFog table dither x depth f color := by
  have hterm : rules.heeded.fogTerm table dither x depth f color = rules.fogTerm table dither x depth f color := by
    have hconstant : rules.heeded.fog.constant = rules.fog.constant := rfl
    unfold fogTerm
    rw [hconstant]
    cases hc : rules.fog.constant with
    | true => rfl
    | false =>
      simp only [fogAmount_heeded rules he hc]
      rfl
  unfold applyFog
  rw [hterm]
  rfl

end PixelRules

/-! ## The pipeline -/

namespace Pipeline

def heeded (p : Pipeline) : Pipeline := { p with rules := p.rules.heeded }

variable (p : Pipeline) (pos : PixelPosition) (dither : Dither) (f : Fragment)

theorem enter_heeded (c : Canvas) : p.heeded.enter pos f c = p.enter pos f c := by
  have hentry : p.heeded.entry c pos f = p.entry c pos f := by
    simp only [entry, heeded, PixelRules.depth_heeded]
    rfl
  simp only [enter, hentry]

theorem settle_heeded (depth : PixelDepth) (color : Argb) (c : Canvas) :
    p.heeded.settle pos dither depth color f c = p.settle pos dither depth color f c := by
  have hfinal : p.heeded.finalColor c.memory pos dither depth color f =
      p.finalColor c.memory pos dither depth color f := by
    have henable : p.heeded.rules.fog.enable = p.rules.fog.enable := rfl
    unfold finalColor
    simp only [henable]
    cases he : p.rules.fog.enable with
    | true =>
      simp only [if_true, heeded, PixelRules.applyFog_heeded p.rules he]
      rfl
    | false => rfl
  unfold settle
  rw [hfinal]
  rfl

/-- **A pixel whose color is given** is drawn by what is heeded. -/
theorem drawGiven_heeded (c : Canvas) : p.heeded.drawGiven pos dither f c = p.drawGiven pos dither f c := by
  have hcheck : p.heeded.check f.color = p.check f.color := rfl
  simp only [drawGiven, enter_heeded, hcheck, settle_heeded]

end Pipeline

theorem LinearWrite.runPipeline_heeded (w : LinearWrite) (p : Pipeline) (mode : LinearMode) :
    w.runPipeline p.heeded mode = w.runPipeline p mode := by
  have hpixel : ∀ x q c, drawPixel p.heeded mode w x q c = drawPixel p mode w x q c := fun x q c => by
    unfold drawPixel
    rw [Pipeline.drawGiven_heeded]
    rfl
  funext c
  simp only [runPipeline, hpixel]

/-! ## Texture units -/

namespace TextureUnit

/-- the unit with no register but textureMode -/
def modeOnly (u : TextureUnit) : TextureUnit := { u with regs := RegisterFile.zero.set Reg.textureMode u.modeWord }

theorem mode_modeOnly (u : TextureUnit) : u.modeOnly.mode = u.mode := by
  rw [mode, modeWord, modeOnly, RegisterFile.get_set, if_pos rfl]
  rfl

theorem fetch_modeOnly (u : TextureUnit) (format : TexelFormat) (base n : UInt32) :
    u.modeOnly.fetch format base n = u.fetch format base n := by
  simp only [fetch, decodeTexel, mode_modeOnly]
  rfl

theorem sample_modeOnly (u : TextureUnit) (mode : TextureMode) (x : Int) (dither : Dither) (c : TexCoords)
    (lodBase : Int) : u.modeOnly.sample mode x dither c lodBase = u.sample mode x dither c lodBase := by
  simp only [sample, sampleBilinear, samplePoint, fetch_modeOnly]
  rfl

end TextureUnit

/-- a stage without what no pixel sees of its unit -/
def TextureStage.heeded (s : TextureStage) : TextureStage := { s with unit := s.unit.modeOnly }

theorem TextureStage.process_heeded (s : TextureStage) : s.heeded.process = s.process := by
  funext x dither c other
  simp only [process, heeded, TextureUnit.sample_modeOnly]
  rfl

/-! ## Triangles -/

namespace Raster

def heeded (r : Raster) : Raster :=
  { r with stages := r.stages.map TextureStage.heeded, pipeline := r.pipeline.heeded }

variable (r : Raster)

theorem valuesAt_heeded (x y : Int) : r.heeded.valuesAt x y = r.valuesAt x y := by
  simp only [valuesAt, heeded, List.map_map]
  rfl

theorem step_heeded (i : Iterators) : r.heeded.step i = r.step i := by
  simp only [step, heeded, List.zipWith_map_left]
  rfl

theorem texel_heeded (x : Int) (dither : Dither) (coords : List TexCoords) :
    r.heeded.texel x dither coords = r.texel x dither coords := by
  simp only [texel, heeded, List.zip_map_left, List.foldl_map, Prod.map, TextureStage.process_heeded, id]

theorem drawPixel_heeded (x y : Int) (dither : Dither) (i : Iterators) (c : Canvas) :
    r.heeded.drawPixel x y dither i c = r.drawPixel x y dither i c := by
  have hfragment : r.heeded.fragment i = r.fragment i := rfl
  have hpipeline : r.heeded.pipeline = r.pipeline.heeded := rfl
  have hshade : ∀ f texel, r.pipeline.heeded.shade f texel = r.pipeline.shade f texel := fun _ _ => rfl
  have hflip : r.heeded.flip = r.flip := rfl
  simp only [drawPixel, hfragment, texel_heeded, hpipeline, hflip, Pipeline.enter_heeded, hshade,
    Pipeline.settle_heeded]

theorem drawRun_heeded (y : Int) (dither : Dither) (n : Nat) (x : Int) (i : Iterators) (c : Canvas) :
    drawRun r.heeded y dither n x i c = drawRun r y dither n x i c := by
  induction n generalizing x i c with
  | zero => rfl
  | succ n ih => rw [drawRun, drawRun, step_heeded, drawPixel_heeded, ih]

/-- **A triangle** is drawn by what is heeded. -/
theorem draw_heeded : r.heeded.draw = r.draw := by
  funext c
  have hspan : r.heeded.drawSpan = r.drawSpan := by
    funext c s
    simp only [drawSpan, valuesAt_heeded, drawRun_heeded]
    rfl
  have hspans : r.heeded.spans = r.spans := rfl
  rw [draw, draw, hspan, hspans]

end Raster
end Accel3D
