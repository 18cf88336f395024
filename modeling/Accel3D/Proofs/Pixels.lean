/-
The pixels of a triangle as one list, and what a pixel does when no stage of the pipeline is on.

A triangle visits its pixels row by row and carries its iterated values from one to the next. `Raster.pixels` lists what
enters the pipeline, each pixel with its place, its values and its texel, so that drawing the triangle is drawing the
list (`draw_eq`); the places are those of the rows that it covers (`places_pixels`). Under plain rules no test is on, nor
fog nor blend: a pixel is then counted in, stored and counted out (`drawColored_plain`).
-/
import Accel3D.Proofs.Conservation

namespace Accel3D

/-! ## Iterated values in whole numbers -/

theorem cut_le (clamp : Bool) (bits high : Nat) (value : Int) : cut clamp bits high value ≤ high := by
  unfold cut
  cases clamp with
  | true => exact Nat.min_le_right _ _
  | false =>
    simp only [Bool.false_eq_true, if_false]
    split
    · exact Nat.zero_le high
    · split
      · exact Nat.le_refl high
      · exact Nat.le_of_lt_succ (Nat.mod_lt _ (Nat.succ_pos high))

/-- a number of the range is cut to itself, if the range ends two below the wrap -/
theorem cut_whole (clamp : Bool) {bits high n : Nat} (h : n ≤ high) (hbits : high + 2 ≤ 2 ^ bits) :
    cut clamp bits high (n : Int) = n := by
  cases clamp with
  | true =>
    simp only [cut, if_true, Int.toNat_natCast]
    exact Nat.min_eq_left h
  | false =>
    have hwrapped : ((n : Int) % 2 ^ bits).toNat = n := by
      rw [Int.emod_eq_of_lt (Int.natCast_nonneg n) (by exact_mod_cast Nat.lt_of_le_of_lt h (by omega))]
      exact Int.toNat_natCast n
    simp only [cut, Bool.false_eq_true, if_false, hwrapped]
    rw [if_neg (by omega), if_neg (by omega), Nat.mod_eq_of_lt (by omega)]

theorem whole_ofNat {n : Nat} (h : n < 65536) : (Int32.ofNat (n * 4096)).toInt / 4096 = n := by
  rw [Int32.toInt_ofNat_of_lt (by omega)]
  omega

theorem cutChannel_whole (clamp : Bool) (v : UInt8) : cutChannel clamp (Int32.ofNat (v.toNat * 4096)) = v := by
  have hlt : v.toNat < 256 := v.toNat_lt
  rw [cutChannel, whole_ofNat (by omega), cut_whole clamp (by omega) (by decide)]
  exact UInt8.ofNat_toNat

theorem cutZ_whole (clamp : Bool) (v : UInt16) : cutZ clamp (Int32.ofNat (v.toNat * 4096)) = v.toNat := by
  have hlt : v.toNat < 65536 := v.toNat_lt
  rw [cutZ, whole_ofNat hlt, cut_whole clamp (by omega) (by decide)]

/-! ## Pixels -/

/-- a pixel that enters the pipeline: its place, its iterated values and its texel -/
structure TexturedPixel where
  pos : PixelPosition
  values : Fragment
  texel : Argb
deriving DecidableEq, Repr

/-- the pixels of rows, each row from left to right -/
def covered (spans : List Span) : List (Int × Int) :=
  spans.flatMap fun s => (List.range s.width).map fun (i : Nat) => (s.start + i, s.y)

theorem length_covered (spans : List Span) : (covered spans).length = coverage spans := by
  simp [covered, coverage, List.length_flatMap]

namespace Pipeline

def drawTextured (p : Pipeline) (c : Canvas) (d : TexturedPixel) : Canvas :=
  p.drawColored d.pos (Dither.ofMode p.rules.frame d.pos.y) d.values (p.rules.colorOf d.values d.texel) c

theorem size_writeColor (p : Pipeline) (pos : PixelPosition) (v : UInt16) (m : Memory) :
    (p.writeColor pos v m).size = m.size := by
  unfold writeColor
  split
  · exact Memory.size_write16 _ _ _
  · rfl

def drawAll (p : Pipeline) (ds : List TexturedPixel) (c : Canvas) : Canvas := ds.foldl p.drawTextured c

end Pipeline

namespace Raster

/-! ## The list of a triangle's pixels -/

def runPixels (r : Raster) (y : Int) (dither : Dither) : Nat → Int → Iterators → List TexturedPixel
  | 0, _, _ => []
  | n + 1, x, i =>
    ⟨⟨x, y, screenRow r.flip y⟩, r.fragment i, r.texel x dither i.coords⟩ :: runPixels r y dither n (x + 1) (r.step i)

def spanPixels (r : Raster) (s : Span) : List TexturedPixel :=
  r.runPixels s.y (Dither.ofMode r.pipeline.rules.frame s.y) s.width s.start (r.valuesAt s.start s.y)

def pixels (r : Raster) : List TexturedPixel := r.spans.flatMap r.spanPixels

theorem drawRun_eq (r : Raster) (y : Int) (n : Nat) (x : Int) (i : Iterators) (c : Canvas) :
    r.drawRun y (Dither.ofMode r.pipeline.rules.frame y) n x i c =
      r.pipeline.drawAll (r.runPixels y (Dither.ofMode r.pipeline.rules.frame y) n x i) c := by
  induction n generalizing x i c with
  | zero => rfl
  | succ n ih =>
    rw [drawRun, ih, drawPixel_eq]
    rfl

/-- drawing a triangle is drawing its pixels one after the other -/
theorem draw_eq (r : Raster) (c : Canvas) : r.draw c = r.pipeline.drawAll r.pixels c := by
  unfold draw pixels
  induction r.spans generalizing c with
  | nil => rfl
  | cons s spans ih =>
    rw [List.foldl_cons, ih, List.flatMap_cons, drawSpan, drawRun_eq]
    exact (List.foldl_append ..).symm

theorem places_runPixels (r : Raster) (y : Int) (dither : Dither) (n : Nat) (x : Int) (i : Iterators) :
    (r.runPixels y dither n x i).map (fun d => (d.pos.x, d.pos.y)) = (List.range n).map fun (j : Nat) => (x + j, y) := by
  induction n generalizing x i with
  | zero => rfl
  | succ n ih =>
    rw [runPixels, List.map_cons, ih, List.range_succ_eq_map, List.map_cons, List.map_map]
    congr 1
    · simp
    · refine List.map_congr_left fun j _ => ?_
      simp only [Function.comp_apply, Nat.succ_eq_add_one, Int.natCast_add, Int.natCast_one]
      congr 1
      omega

/-- a triangle's pixels are those of the rows that it covers -/
theorem places_pixels (r : Raster) : r.pixels.map (fun d => (d.pos.x, d.pos.y)) = covered r.spans := by
  rw [pixels, covered, List.map_flatMap]
  congr 1
  funext s
  exact r.places_runPixels s.y _ s.width s.start _

/-- what holds of every pixel of every row from the row's start on holds of every pixel of the triangle -/
theorem forall_pixels (r : Raster) {P : TexturedPixel → Prop} {I : Iterators → Prop} (start : ∀ x y, I (r.valuesAt x y))
    (step : ∀ i, I i → I (r.step i))
    (pixel : ∀ x y dither i, I i → P ⟨⟨x, y, screenRow r.flip y⟩, r.fragment i, r.texel x dither i.coords⟩) :
    ∀ d ∈ r.pixels, P d := by
  have hrun : ∀ y dither n x i, I i → ∀ d ∈ r.runPixels y dither n x i, P d := by
    intro y dither n
    induction n with
    | zero => exact fun _ _ _ d hd => absurd hd List.not_mem_nil
    | succ n ih =>
      intro x i hi d hd
      rcases List.mem_cons.1 hd with rfl | hd
      · exact pixel x y dither i hi
      · exact ih (x + 1) (r.step i) (step i hi) d hd
  intro d hd
  obtain ⟨s, -, hs⟩ := List.mem_flatMap.1 hd
  exact hrun _ _ _ _ _ (start _ _) d hs

end Raster

/-! ## Plain rules -/

/-- no test is on, nor fog nor blend -/
structure PixelRules.Plain (r : PixelRules) : Prop where
  clipping : r.frame.clipping = false
  stipple : r.frame.stipple = false
  depthTest : r.frame.depthTest = false
  chromaKey : r.frame.chromaKey = false
  alphaMask : r.frame.alphaMask = false
  alphaTest : r.alpha.test = false
  blend : r.alpha.blend = false
  fog : r.fog.enable = false

namespace PixelRules.Plain

variable {r : PixelRules}

theorem testColor (h : r.Plain) (color : Argb) : r.testColor color = .ok color := by
  simp only [PixelRules.testColor, chromaTest, maskTest, PixelRules.alphaTest, h.chromaKey, h.alphaMask, h.alphaTest,
    Bool.false_and, Bool.false_eq_true, if_false]
  rfl

/-- the color of the color path is what the combine unit makes of it -/
theorem colorOf (h : r.Plain) (f : Fragment) (texel : Argb) :
    r.colorOf f texel =
      .ok (r.combine.run ((r.otherColor f texel).withAlpha (r.otherAlpha f texel)) (r.localColor f texel)
        ⟨texel, 0, 0⟩) := by
  simp only [PixelRules.colorOf, chromaTest, maskTest, PixelRules.alphaTest, h.chromaKey, h.alphaMask, h.alphaTest,
    Bool.false_and, Bool.false_eq_true, if_false]
  rfl

end PixelRules.Plain

namespace Pipeline

variable {p : Pipeline}

theorem entry_plain (h : p.rules.Plain) (c : Canvas) (pos : PixelPosition) (f : Fragment) :
    p.entry c pos f = (c.stipple, .ok ⟨p.rules.depth f, floatW f.w⟩) := by
  simp only [entry, PixelRules.stippleTest, PixelRules.depthPasses, h.clipping, h.stipple, h.depthTest, Bool.false_and,
    Bool.false_eq_true, Bool.not_false, Bool.not_true, if_true, if_false]

/-- what goes to the aux buffer of a pixel of this color: its alpha, or its depth -/
def auxValue (p : Pipeline) (f : Fragment) (color : Argb) : UInt16 :=
  UInt16.ofInt (if p.rules.frame.alphaPlanes then color.a.toNat else p.rules.depth f)

/-- **A pixel under plain rules** is counted in, stored with its color dithered, and counted out. -/
theorem drawColored_plain (h : p.rules.Plain) (pos : PixelPosition) (dither : Dither) (f : Fragment) (color : Argb)
    (c : Canvas) :
    p.drawColored pos dither f (.ok color) c =
      { c with
        memory := p.writeAux pos (p.auxValue f color)
          (p.writeColor pos (dither.quantize pos.x color.r.toNat color.g.toNat color.b.toNat) c.memory)
        counters := c.counters.enter.drawn 1 } := by
  have hfinal : ∀ m depth, p.finalColor m pos dither depth color f = (Rgb.ofArgb color, (color.a.toNat : Int)) := by
    intro m depth
    simp only [finalColor, h.fog, h.blend, Bool.false_eq_true, if_false]
  simp only [drawColored, enter, entry_plain h, Canvas.judge, settle, hfinal]
  rfl

end Pipeline

/-! ## Chips with plain rules -/

namespace Chip

def frameMode (c : Chip) : FrameMode := FrameMode.decode (c.regs.get Reg.fbzMode)

def canvas (c : Chip) : Canvas := ⟨c.frame.memory, c.frame.counters, c.regs.get Reg.stipple⟩

theorem canvas_paint (c : Chip) (draw : Canvas → Canvas) : (c.paint draw).canvas = draw c.canvas := by
  have hstipple : (c.paint draw).regs.get Reg.stipple = (draw c.canvas).stipple := by
    show (c.regs.set Reg.stipple (draw c.canvas).stipple).get Reg.stipple = _
    rw [RegisterFile.get_set, if_pos rfl]
  show Canvas.mk (draw c.canvas).memory (draw c.canvas).counters _ = _
  rw [hstipple]

/-- the registers have no stage of the pipeline on -/
structure StagesOff (c : Chip) : Prop where
  clipping : c.frameMode.clipping = false
  stipple : c.frameMode.stipple = false
  depthTest : c.frameMode.depthTest = false
  chromaKey : c.frameMode.chromaKey = false
  alphaMask : c.frameMode.alphaMask = false
  alphaMode : c.regs.get Reg.alphaMode = 0
  fogMode : c.regs.get Reg.fogMode = 0

theorem StagesOff.plain {c : Chip} (h : c.StagesOff) (combine : Combine) :
    (PixelRules.ofRegisters c.revision c.regs combine).Plain where
  clipping := h.clipping
  stipple := h.stipple
  depthTest := h.depthTest
  chromaKey := h.chromaKey
  alphaMask := h.alphaMask
  alphaTest := by
    show (AlphaMode.decode (c.regs.get Reg.alphaMode)).test = false
    rw [h.alphaMode]
    decide +kernel
  blend := by
    show (AlphaMode.decode (c.regs.get Reg.alphaMode)).blend = false
    rw [h.alphaMode]
    decide +kernel
  fog := by
    show (FogMode.decode (c.regs.get Reg.fogMode)).enable = false
    rw [h.fogMode]
    decide +kernel

end Chip
end Accel3D
