/-
Drawing a triangle.

The covered pixels are visited row by row, left to right. At the start of a row every parameter is evaluated from its
start value and steps; along the row it is stepped by its X step. Coordinates are counted from the pixel of vertex A.
Texture stages work from the far unit to the near one, each on the color of the one before.
-/
import Accel3D.Frame.Layout
import Accel3D.Pixel.Pipeline
import Accel3D.Texture.Sample
import Accel3D.Triangle.Span

namespace Accel3D

/-- the iterated values at a pixel; one set of coordinates for each texture stage -/
structure Iterators where
  red : Int32
  green : Int32
  blue : Int32
  alpha : Int32
  z : Int32
  w : Int64
  coords : List TexCoords
deriving DecidableEq, Repr

/-- a triangle with all that is needed to draw it; stages from the far unit to the near one -/
structure Raster where
  triangle : TriangleParameters
  stages : List TextureStage
  pipeline : Pipeline
  flip : Option Int

namespace Raster

/-- the iterated values at a pixel, evaluated from the start values -/
def valuesAt (r : Raster) (x y : Int) : Iterators :=
  let t := r.triangle
  let (originX, originY) := t.a.pixel
  let dx := x - originX
  let dy := y - originY
  let at32 (g : Gradient Int32) : Int32 := g.valueAt (Int32.ofInt dx) (Int32.ofInt dy)
  { red := at32 t.red
    green := at32 t.green
    blue := at32 t.blue
    alpha := at32 t.alpha
    z := at32 t.z
    w := t.w.valueAt (Int64.ofInt dx) (Int64.ofInt dy)
    coords := r.stages.map fun s => s.unit.gradients.valueAt (Int64.ofInt dx) (Int64.ofInt dy) }

/-- the iterated values one pixel to the right -/
def step (r : Raster) (i : Iterators) : Iterators :=
  let t := r.triangle
  { red := i.red + t.red.dx
    green := i.green + t.green.dx
    blue := i.blue + t.blue.dx
    alpha := i.alpha + t.alpha.dx
    z := i.z + t.z.dx
    w := i.w + t.w.dx
    coords := r.stages.zipWith (fun s c => s.unit.gradients.stepX c) i.coords }

/-- the values of a pixel that enter the pipeline -/
def fragment (r : Raster) (i : Iterators) : Fragment :=
  ⟨cutColor r.pipeline.rules.path.clampIterated i.red i.green i.blue i.alpha, i.z, i.w⟩

/-- the color after all texture stages, black before the first -/
def texel (r : Raster) (x : Int) (dither : Dither) (coords : List TexCoords) : Argb :=
  (r.stages.zip coords).foldl (fun other (stage, c) => stage.process x dither c other) Argb.black

/-- one pixel, with the texture looked up only when the pixel passes the tests on the way in -/
def drawPixel (r : Raster) (x y : Int) (dither : Dither) (i : Iterators) (c : Canvas) : Canvas :=
  let p := r.pipeline
  let pos : PixelPosition := ⟨x, y, screenRow r.flip y⟩
  let f := r.fragment i
  match p.enter pos f c with
  | (c, none) => c
  | (c, some depth) =>
    match p.shade f (r.texel x dither i.coords) c with
    | (c, none) => c
    | (c, some color) => p.settle pos dither depth color f c

/-- `n` pixels of a row from column `x` on -/
def drawRun (r : Raster) (y : Int) (dither : Dither) : Nat → Int → Iterators → Canvas → Canvas
  | 0, _, _, c => c
  | n + 1, x, i, c => drawRun r y dither n (x + 1) (r.step i) (r.drawPixel x y dither i c)

/-- the pixels of one span -/
def drawSpan (r : Raster) (c : Canvas) (s : Span) : Canvas :=
  drawRun r s.y (Dither.ofMode r.pipeline.rules.frame s.y) s.width s.start (r.valuesAt s.start s.y) c

/-- the rows that the triangle covers -/
def spans (r : Raster) : List Span := triangleSpans r.triangle.a r.triangle.b r.triangle.c

/-- all pixels of the triangle -/
def draw (r : Raster) (c : Canvas) : Canvas := r.spans.foldl r.drawSpan c

/-- number of pixels that enter the pipeline -/
def pixelCount (r : Raster) : Nat := coverage r.spans

end Raster
end Accel3D
