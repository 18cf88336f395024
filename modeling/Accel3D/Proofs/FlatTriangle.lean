/-
A flat opaque triangle.

When no stage of the pipeline is on, the color path passes the iterated color on and no color changes along the
triangle, every pixel is stored with the one color, dithered for its place. Pixels inside the memory do not overlap, so
in the end each of them holds what its own write stored (`Memory.read16_writeAll`), and nothing else has changed. The
argument goes from one pixel (`drawColored_plain`) to the list of a triangle's pixels (`drawAll_flat`), to the raster
(`draw_flat`) and to the triangle command, whose raster is found with no regard to the mode cache.

Result: `flat_triangle`.
-/
import Mathlib.Data.List.Nodup
import Accel3D.Proofs.Halfword
import Accel3D.Proofs.ModeCache
import Accel3D.Proofs.Pixels
import Accel3D.Proofs.Display

namespace Accel3D

/-! ## The identity of the combine unit -/

namespace Combine

theorem runChannel_plain (i : ChannelInputs) : runChannel plain.color i = i.other := by
  have hlt : i.other.toNat < 256 := i.other.toNat_lt
  have hvalue : ((i.other.toNat : Int) - 0) * (255 + 1) / 256 + 0 = i.other.toNat := by omega
  have hclamp : clampByte (i.other.toNat : Int) = i.other := by
    unfold clampByte
    rw [Int.toNat_natCast, Nat.min_eq_left (by omega)]
    exact UInt8.ofNat_toNat
  show clampByte (((i.other.toNat : Int) - 0) * (255 + 1) / 256 + 0) = i.other
  rw [hvalue, hclamp]

theorem run_plain (other own : Argb) (inputs : CombineInputs) : plain.run other own inputs = other := by
  show Argb.mk (runChannel plain.color _) (runChannel plain.color _) (runChannel plain.color _)
    (runChannel plain.color _) = other
  simp only [runChannel_plain]

theorem ofColorPath_zero : ofColorPath 0 = plain := by decide +kernel

end Combine

/-! ## Many plain pixels -/

def Counters.passed (c : Counters) (n : Nat) : Counters :=
  { c with pixelsIn := c.pixelsIn + UInt32.ofNat n, pixelsOut := c.pixelsOut + UInt32.ofNat n }

theorem Counters.passed_enter_drawn (c : Counters) (n : Nat) : (c.enter.drawn 1).passed n = c.passed (n + 1) := by
  have hsum : ∀ w : UInt32, w + 1 + UInt32.ofNat n = w + UInt32.ofNat (n + 1) := fun w => by
    rw [UInt32.ofNat_add, UInt32.add_assoc, UInt32.add_comm 1]
    rfl
  simp only [passed, enter, drawn, hsum]

namespace Pipeline

def colorWrite (p : Pipeline) (r g b : UInt8) (q : Int × Int) : UInt32 × UInt16 :=
  (p.surface.color q.1 q.2, (Dither.ofMode p.rules.frame q.2).quantize q.1 r.toNat g.toNat b.toNat)

/-- a pixel that comes out of the color path in this color, on its own row of the screen -/
structure PassesAs (p : Pipeline) (r g b : UInt8) (d : TexturedPixel) : Prop where
  row : d.pos.screenY = d.pos.y
  color : ∃ a, p.rules.colorOf d.values d.texel = .ok ⟨a, r, g, b⟩

/-- **Pixels of one color** are stored one after the other, and counted. -/
theorem drawAll_flat (p : Pipeline) (r g b : UInt8) (h : p.rules.Plain) (hcolor : p.rules.frame.writeColor = true)
    (haux : p.rules.frame.writeAux = false) (ds : List TexturedPixel) (hds : ∀ d ∈ ds, p.PassesAs r g b d) (c : Canvas) :
    p.drawAll ds c =
      { c with
        memory := c.memory.writeAll (ds.map fun d => p.colorWrite r g b (d.pos.x, d.pos.y))
        counters := c.counters.passed ds.length } := by
  induction ds generalizing c with
  | nil =>
    show c = { c with counters := c.counters.passed 0 }
    have hzero : c.counters.passed 0 = c.counters := by
      show Counters.mk (_ + 0) (_ + 0) _ _ _ _ _ = _
      simp only [UInt32.add_zero]
    rw [hzero]
  | cons d ds ih =>
    obtain ⟨hrow, a, hcolorOf⟩ := hds d List.mem_cons_self
    have hone : p.drawTextured c d =
        { c with
          memory := c.memory.write16 (p.colorWrite r g b (d.pos.x, d.pos.y)).1 (p.colorWrite r g b (d.pos.x, d.pos.y)).2
          counters := c.counters.enter.drawn 1 } := by
      rw [drawTextured, hcolorOf, drawColored_plain h]
      simp only [writeColor, writeAux, hcolor, haux, hrow, if_true, Bool.false_eq_true, if_false, colorWrite]
    rw [drawAll, List.foldl_cons, hone]
    refine (ih (fun d' hd' => hds d' (List.mem_cons_of_mem d hd')) _).trans ?_
    simp only [Counters.passed_enter_drawn, List.length_cons]
    rfl

end Pipeline

namespace Raster

/-- a triangle of one color, drawn as it comes -/
structure Flat (t : Raster) (r g b : UInt8) : Prop where
  plain : t.pipeline.rules.Plain
  writeColor : t.pipeline.rules.frame.writeColor = true
  writeAux : t.pipeline.rules.frame.writeAux = false
  flip : t.flip = none
  other : t.pipeline.rules.path.otherColor = .iterated
  combine : t.pipeline.rules.combine = Combine.plain
  red : t.triangle.red = ⟨Int32.ofNat (r.toNat * 4096), 0, 0⟩
  green : t.triangle.green = ⟨Int32.ofNat (g.toNat * 4096), 0, 0⟩
  blue : t.triangle.blue = ⟨Int32.ofNat (b.toNat * 4096), 0, 0⟩

/-- the iterated values hold the color -/
def HoldsColor (r g b : UInt8) (i : Iterators) : Prop :=
  i.red = Int32.ofNat (r.toNat * 4096) ∧ i.green = Int32.ofNat (g.toNat * 4096) ∧ i.blue = Int32.ofNat (b.toNat * 4096)

variable {t : Raster} {r g b : UInt8}

theorem Flat.passesAs (h : t.Flat r g b) : ∀ d ∈ t.pixels, t.pipeline.PassesAs r g b d := by
  have hvalue : ∀ (s x y : Int32), (Gradient.mk s 0 0).valueAt x y = s := fun s x y => by
    simp only [Gradient.valueAt, Int32.mul_zero, Int32.add_zero]
  refine t.forall_pixels (I := HoldsColor r g b) (fun x y => ?_) (fun i hi => ?_) fun x y dither i hi => ⟨?_, ?_⟩
  · simp only [valuesAt, HoldsColor, h.red, h.green, h.blue, hvalue, and_self]
  · simpa only [step, HoldsColor, h.red, h.green, h.blue, Int32.add_zero] using hi
  · simp only [h.flip, screenRow]
  · obtain ⟨hr, hg, hb⟩ := hi
    rw [h.plain.colorOf, h.combine, Combine.run_plain]
    simp only [PixelRules.otherColor, h.other, fragment, cutColor, hr, hg, hb, cutChannel_whole]
    exact ⟨_, rfl⟩

/-- a flat triangle stores its color at each place that it covers -/
theorem draw_flat (h : t.Flat r g b) (c : Canvas) :
    t.draw c =
      { c with
        memory := c.memory.writeAll ((covered t.spans).map (t.pipeline.colorWrite r g b))
        counters := c.counters.passed (covered t.spans).length } := by
  have hplaces := t.places_pixels
  rw [draw_eq, Pipeline.drawAll_flat t.pipeline r g b h.plain h.writeColor h.writeAux t.pixels h.passesAs c, ← hplaces,
    List.map_map, List.length_map]
  rfl

end Raster

/-! ## The places that a triangle covers -/

theorem nodup_columns (s : Span) : ((List.range s.width).map fun (i : Nat) => (s.start + (i : Int), s.y)).Nodup := by
  refine List.nodup_range.map ?_
  intro i j h
  have hcolumn : s.start + (i : Int) = s.start + (j : Int) := congrArg Prod.fst h
  omega

theorem nodup_covered (a b c : Vertex) : (covered (triangleSpans a b c)).Nodup := by
  refine List.nodup_flatMap.2 ⟨fun s _ => nodup_columns s, ?_⟩
  unfold triangleSpans
  obtain ⟨top, middle, bottom⟩ := sortByY a b c
  -- the rows are different ones
  refine List.pairwise_map.2 (List.nodup_range.imp ?_)
  intro i j hij q hq hq'
  obtain ⟨_, -, rfl⟩ := List.mem_map.1 hq
  obtain ⟨_, -, h⟩ := List.mem_map.1 hq'
  have hrow := congrArg Prod.snd h
  simp only [spanBetween] at hrow
  omega

namespace Reg

def isTriangle (r : Reg) : Bool := r == triangleCmd || r == floatTriangleCmd

end Reg

theorem isTriangle_effect (v : Revision) :
    ∀ r : Reg, r.isTriangle = true →
      (Access.of v r).write = true ∧ Command.ofRegister v r = .triangle ∧ Chip.isLayoutRegister r = false := by
  cases v <;> decide +kernel

namespace Chip

/-! ## The triangle command -/

def trianglePlaces (c : Chip) : List (Int × Int) :=
  covered (triangleSpans c.frame.triangle.a c.frame.triangle.b c.frame.triangle.c)

/-- the state of a chip whose triangle is drawn in one color into the color buffer at `base`: every stage is off, no
color changes along the triangle, and every pixel that it covers lies in its row and inside the memory -/
structure DrawsFlat (c : Chip) (base : UInt32) (r g b : UInt8) : Prop extends c.StagesOff where
  buffer : c.triangleBase = some base
  writeColor : c.frameMode.writeColor = true
  writeAux : c.frameMode.writeAux = false
  flipY : c.frameMode.flipY = false
  colorPath : c.regs.get Reg.fbzColorPath = 0
  red : c.frame.triangle.red = ⟨Int32.ofNat (r.toNat * 4096), 0, 0⟩
  green : c.frame.triangle.green = ⟨Int32.ofNat (g.toNat * 4096), 0, 0⟩
  blue : c.frame.triangle.blue = ⟨Int32.ofNat (b.toNat * 4096), 0, 0⟩
  inside : ∀ q ∈ c.trianglePlaces, PixelInside base c.frame.layout.rowPixels c.frame.memory.size q.1 q.2

theorem frame_paintRaster (c : Chip) (t : Raster) :
    (c.paintRaster t).frame =
      { c.frame with
        memory := (t.draw c.canvas).memory
        counters := (t.draw c.canvas).counters
        trianglesOut := c.frame.trianglesOut + 1 } := by
  unfold paintRaster
  -- what the triangle draws must not be looked at
  generalize t.draw = draw
  rfl

theorem frame_paintRaster_flat (c : Chip) {t : Raster} {r g b : UInt8} (h : t.Flat r g b) {places : List (Int × Int)}
    {write : Int × Int → UInt32 × UInt16} (hplaces : covered t.spans = places)
    (hwrite : t.pipeline.colorWrite r g b = write) :
    (c.paintRaster t).frame =
      { c.frame with
        memory := c.frame.memory.writeAll (places.map write)
        counters := c.frame.counters.passed places.length
        trianglesOut := c.frame.trianglesOut + 1 } := by
  rw [frame_paintRaster, Raster.draw_flat h, hplaces, hwrite]
  rfl

section Flat

variable {c : Chip} {base : UInt32} {r g b : UInt8}

/-- the raster of such a chip is flat, whatever the texture units hold -/
theorem DrawsFlat.raster (h : c.DrawsFlat base r g b) (n : Nat) (f : TextureUnit → TextureUnit) :
    ((c.modifyTextures n f).directRaster n base).Flat r g b where
  plain := h.toStagesOff.plain _
  writeColor := h.writeColor
  writeAux := h.writeAux
  flip := by
    show c.frame.layout.flip c.frameMode.flipY = none
    rw [h.flipY]
    rfl
  other := by
    show (ColorPath.decode (c.regs.get Reg.fbzColorPath)).otherColor = .iterated
    rw [h.colorPath]
    decide +kernel
  combine := by
    show Combine.ofColorPath (c.regs.get Reg.fbzColorPath) = Combine.plain
    rw [h.colorPath, Combine.ofColorPath_zero]
  red := h.red
  green := h.green
  blue := h.blue

/-- nothing asks for the start values to be moved -/
theorem DrawsFlat.atCentre (h : c.DrawsFlat base r g b) : c.atCentre = c := by
  have hadjust : (ColorPath.decode (c.regs.get Reg.fbzColorPath)).subpixelAdjust = false := by
    rw [h.colorPath]
    decide +kernel
  rw [Chip.atCentre, hadjust, if_neg Bool.false_ne_true]

def flatWrite (c : Chip) (base : UInt32) (r g b : UInt8) (q : Int × Int) : UInt32 × UInt16 :=
  ((c.frame.surface base).color q.1 q.2, (Dither.ofMode c.frameMode q.2).quantize q.1 r.toNat g.toNat b.toNat)

theorem frame_drawTriangle_flat (h : c.DrawsFlat base r g b) (hm : c.modes.Reachable) :
    c.drawTriangle.frame =
      { c.frame with
        memory := c.frame.memory.writeAll (c.trianglePlaces.map (c.flatWrite base r g b))
        counters := c.frame.counters.passed c.trianglePlaces.length
        trianglesOut := c.frame.trianglesOut + 1 } := by
  have hu : c.uncached.DrawsFlat base r g b := { h with }
  show c.drawTriangle.uncached.frame = _
  rw [drawTriangle_direct c hm, drawDirect, hu.atCentre, hu.buffer]
  exact frame_paintRaster_flat _ (hu.raster _ _) rfl rfl

theorem DrawsFlat.apart (h : c.DrawsFlat base r g b) (hsize : c.frame.memory.size ≤ 4294967296) :
    (c.trianglePlaces.map (c.flatWrite base r g b)).Pairwise fun w w' => c.frame.memory.Apart w.1 w'.1 := by
  refine List.pairwise_map.2 ((nodup_covered _ _ _).pairwise_of_forall_ne ?_)
  intro q hq q' hq' hne
  exact PixelInside.apart (c.frame.surface base) rfl hsize (h.inside q hq) (h.inside q' hq') hne

end Flat

theorem frame_execute_triangle (c : Chip) (w : RegisterWrite) (h : (register w).isTriangle = true) :
    (c.execute w).frame = c.drawTriangle.frame := by
  obtain ⟨-, hcommand, hlayout⟩ := isTriangle_effect c.revision _ h
  have hrest : (c.execute w).frame = (c.stored w).frame := by
    rw [execute_eq, updateLayout, hlayout, Bool.and_false, if_neg Bool.false_ne_true]
  rw [hrest, frame_stored, command, hcommand]
  rfl

/-- **A flat opaque triangle paints exactly what it covers.** After a triangle command, carried out in a state in which
the triangle is drawn flat: the halfword of each pixel that the triangle covers holds the color, dithered for its place;
every byte of no such halfword is as it was; the pixels on the way in and those drawn have gone up by the number of
pixels covered, each of them once, and all failures are as they were; and one more triangle is counted. -/
theorem flat_triangle (c : Chip) (hc : c.Reachable) (offset data : UInt32)
    (hr : (Reg.ofAddress offset).isTriangle = true) (base : UInt32) (r g b : UInt8)
    (h : c.flush.DrawsFlat base r g b) :
    let before := c.flush.frame
    let after := (c.writeRegister offset data).flush.frame
    let places := c.flush.trianglePlaces
    let address (q : Int × Int) : UInt32 := (before.surface base).color q.1 q.2
    (∀ q ∈ places, after.memory.read16 (address q) =
      (Dither.ofMode c.flush.frameMode q.2).quantize q.1 r.toNat g.toNat b.toNat) ∧
    (∀ a, (∀ q ∈ places, ∀ x ∈ Memory.halfword (address q), before.memory.index a ≠ before.memory.index x) →
      after.memory.read8 a = before.memory.read8 a) ∧
    after.memory.size = before.memory.size ∧
    places.Nodup ∧ (UInt32.ofNat places.length).toNat = places.length ∧
    after.counters = before.counters.passed places.length ∧
    after.trianglesOut = before.trianglesOut + 1 := by
  intro before after places address
  have hflush : c.flush.Reachable := hc.run c [.flush]
  have hsize : before.memory.size ≤ 2 ^ 24 := (memory_size_reachable _ hflush).1
  obtain ⟨hwrite, -, -⟩ := isTriangle_effect c.revision _ hr
  have hafter : after = { before with
      memory := before.memory.writeAll (places.map (c.flush.flatWrite base r g b))
      counters := before.counters.passed places.length
      trianglesOut := before.trianglesOut + 1 } := by
    show (c.writeRegister offset data).flush.frame = _
    rw [flush_writeRegister c offset data hwrite, frame_execute_triangle _ ⟨offset, data⟩ hr,
      frame_drawTriangle_flat h (modes_reachable _ hflush)]
  have hmemory : after.memory = before.memory.writeAll (places.map (c.flush.flatWrite base r g b)) := by rw [hafter]
  have hcounters : after.counters = before.counters.passed places.length := by rw [hafter]
  have hout : after.trianglesOut = before.trianglesOut + 1 := by rw [hafter]
  refine ⟨?_, ?_, ?_, nodup_covered _ _ _, ?_, hcounters, hout⟩
  · intro q hq
    -- a covered pixel lies in the memory, which therefore has more than one byte
    have hmore : 1 < before.memory.size := by
      have hnonneg := (h.inside q hq).nonneg
      have hinside : _ < (before.memory.size : Int) := (h.inside q hq).inside
      omega
    have hapart := h.apart (Nat.le_trans hsize (by decide))
    have hread := Memory.read16_writeAll before.memory _ hmore hapart _ (List.mem_map_of_mem hq)
    rw [hmemory]
    exact hread
  · intro a ha
    rw [hmemory]
    refine Memory.read8_writeAll_of_ne before.memory _ a ?_
    intro w hw x hx
    obtain ⟨q, hq, rfl⟩ := List.mem_map.1 hw
    exact ha q hq x hx
  · rw [hmemory]
    exact Memory.size_writeAll before.memory _
  · refine UInt32.toNat_ofNat_of_lt' ?_
    show (covered _).length < _
    rw [length_covered]
    exact coverage_lt _ _ _

/-- a Banshee with rows of 128 pixels, set up for a red triangle of six pixels -/
def redTriangle : Chip :=
  let calls : List Call := [.writeRegister 0x7C 0x100, .writeRegister 0x44 0x200, .writeRegister 0x04 0x40,
    .writeRegister 0x07 0x40, .writeRegister 0x08 0xFF000]
  ((initial { ChipConfig.standard with revision := .banshee }).runCalls calls).1

theorem reachable_redTriangle : redTriangle.Reachable :=
  ⟨_, _, _, make_eq_ok.2 ⟨by decide, rfl⟩, rfl⟩

theorem drawsFlat_redTriangle : redTriangle.flush.DrawsFlat 0 0xFF 0 0 := by
  have hsize : redTriangle.flush.frame.memory.size = 2 ^ 22 := (size_flush redTriangle).trans (size_run _ _)
  have hplaces : ∀ q ∈ redTriangle.flush.trianglePlaces,
      0 ≤ q.1 ∧ q.1 < 128 ∧ 0 ≤ q.2 ∧ pixelByte 0 128 q.1 q.2 + 1 < 4194304 := by decide +kernel
  have hrow : redTriangle.flush.frame.layout.rowPixels = 128 := by decide +kernel
  refine ⟨⟨?_, ?_, ?_, ?_, ?_, ?_, ?_⟩, ?_, ?_, ?_, ?_, ?_, ?_, ?_, ?_, fun q hq => ?_⟩
  case refine_16 =>
    obtain ⟨hleft, hright, htop, hinside⟩ := hplaces q hq
    rw [hrow, hsize]
    exact ⟨hleft, hright, htop, hinside⟩
  all_goals decide +kernel

/-- its pixels are red, and there are six of them -/
theorem flat_triangle_red :
    let after := (redTriangle.writeRegister 0x20 0).flush.frame
    after.memory.read16 4 = 0xF800 ∧ after.memory.read16 0x200 = 0xF800 ∧ after.counters.pixelsOut = 6 := by
  have h := redTriangle.flat_triangle reachable_redTriangle 0x20 0 (by decide) 0 0xFF 0 0 drawsFlat_redTriangle
  obtain ⟨hread, -, -, -, -, hcounters, -⟩ := h
  refine ⟨hread (2, 0) ?_, hread (0, 2) ?_, ?_⟩
  · decide +kernel
  · decide +kernel
  · rw [hcounters]
    decide +kernel

end Chip
end Accel3D
