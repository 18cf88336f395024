/-
The format of a saved chip.

A saved state holds everything that the chip is made of, but for the cache of decoded modes, which follows from the
registers. It is not padded and its end is known from its content, so bytes after it are ignored. A state whose
configuration no chip has is refused after it is read.
-/
import Accel3D.Chip.State
import Accel3D.Snapshot.Codec

namespace Accel3D
namespace Codec

/-! ## Registers and configuration -/

def revision : Codec Revision :=
  word32.refine (fun n => match Revision.ofCode? n with
    | some r => .ok r
    | none => .error .unknownVariant) Revision.code

def config : Codec ChipConfig :=
  (revision.pair (word32.pair (word32.pair (word64.pair flag)))).map
    (fun (revision, frame, texture, units, deferWrites) => ⟨revision, frame, texture, units, deferWrites⟩)
    (fun c => (c.revision, c.frameMegabytes, c.textureMegabytes, c.textureUnits, c.deferWrites))

def registers : Codec RegisterFile := (word32.vector 4 256).map RegisterFile.mk RegisterFile.words

/-! ## The frame buffer side -/

def layout : Codec FrameLayout :=
  ((word32.optional.vector 8 3).pair (word32.optional.pair (word32.pair int32))).map
    (fun (color, aux, rowPixels, yOrigin) => ⟨color, aux, rowPixels, yOrigin⟩)
    (fun l => (l.color, l.aux, l.rowPixels, l.yOrigin))

def fogTable : Codec FogTable :=
  ((byte.vector 1 64).pair (byte.vector 1 64)).map (fun (blend, delta) => ⟨blend, delta⟩) (fun t => (t.blend, t.delta))

def swapState : Codec SwapState :=
  (word32.pair (word32.pair (flag.pair (word32.pair (flag.pair word32))))).map
    (fun (pending, retraces, syncPending, interval, dontSwap, history) =>
      ⟨pending, retraces, syncPending, interval, dontSwap, history⟩)
    (fun s => (s.pending, s.retraces, s.syncPending, s.interval, s.dontSwap, s.history))

def counters : Codec Counters :=
  (word32.pair (word32.pair (word32.pair (word32.pair (word32.pair (word32.pair word32)))))).map
    (fun (pixelsIn, pixelsOut, chroma, depth, alpha, clipped, stippled) =>
      ⟨pixelsIn, pixelsOut, chroma, depth, alpha, clipped, stippled⟩)
    (fun c => (c.pixelsIn, c.pixelsOut, c.chromaFail, c.depthFail, c.alphaFail, c.clipped, c.stippled))

def vertex : Codec Vertex := (int16.pair int16).map (fun (x, y) => ⟨x, y⟩) (fun v => (v.x, v.y))

/-- start value, X step, Y step -/
def gradient {α : Type} (c : Codec α) : Codec (Gradient α) :=
  (c.pair (c.pair c)).map (fun (start, dx, dy) => ⟨start, dx, dy⟩) (fun g => (g.start, g.dx, g.dy))

def vertices : Codec (Vertex × Vertex × Vertex) := vertex.pair (vertex.pair vertex)

/-- red, green, blue, alpha and Z -/
def gradients : Codec (Gradient Int32 × Gradient Int32 × Gradient Int32 × Gradient Int32 × Gradient Int32) :=
  let g := int32.gradient
  g.pair (g.pair (g.pair (g.pair g)))

def triangle : Codec TriangleParameters :=
  (vertices.pair (gradients.pair int64.gradient)).map
    (fun ((a, b, c), (red, green, blue, alpha, z), w) => ⟨a, b, c, red, green, blue, alpha, z, w⟩)
    (fun t => ((t.a, t.b, t.c), (t.red, t.green, t.blue, t.alpha, t.z), t.w))

def frame : Codec FrameBuffer :=
  (memory.pair (layout.pair (word64.pair (word64.pair (fogTable.pair (swapState.pair (flag.pair (counters.pair
    (word32.pair triangle))))))))).map
    (fun (memory, layout, front, back, fog, swap, inRetrace, counters, trianglesOut, triangle) =>
      ⟨memory, layout, front, back, fog, swap, inRetrace, counters, trianglesOut, triangle⟩)
    (fun f => (f.memory, f.layout, f.front, f.back, f.fog, f.swap, f.inRetrace, f.counters, f.trianglesOut,
      f.triangle))

/-! ## Texture units -/

/-- S, T and W of one term -/
def coords : Codec (Int64 × Int64 × Int64) := int64.pair (int64.pair int64)

/-- the three start values, the three X steps, the three Y steps -/
def texGradients : Codec TexGradients :=
  (coords.pair (coords.pair coords)).map
    (fun ((s, t, w), (sx, tx, wx), (sy, ty, wy)) => ⟨⟨s, sx, sy⟩, ⟨t, tx, ty⟩, ⟨w, wx, wy⟩⟩)
    (fun g => ((g.s.start, g.t.start, g.w.start), (g.s.dx, g.t.dx, g.w.dx), (g.s.dy, g.t.dy, g.w.dy)))

def texParams : Codec TexParams :=
  (int32.pair (int32.pair (int32.pair (word32.pair ((word32.vector 4 9).pair (word32.pair (word32.pair
    (int32.pair (int32.pair word32))))))))).map
    (fun (lodMin, lodMax, lodBias, lodMask, lodOffset, widthMask, heightMask, detailMax, detailBias, detailScale) =>
      ⟨lodMin, lodMax, lodBias, lodMask, lodOffset, widthMask, heightMask, detailMax, detailBias, detailScale⟩)
    (fun p => (p.lodMin, p.lodMax, p.lodBias, p.lodMask, p.lodOffset, p.widthMask, p.heightMask, p.detailMax,
      p.detailBias, p.detailScale))

def colorDifference : Codec ColorDifference :=
  (int32.pair (int32.pair int32)).map (fun (r, g, b) => ⟨r, g, b⟩) (fun d => (d.r, d.g, d.b))

def nccTable : Codec NccTable :=
  ((word32.vector 4 12).pair ((int32.vector 4 16).pair ((colorDifference.vector 12 4).pair
    ((colorDifference.vector 12 4).pair ((word32.vector 4 256).pair flag))))).map
    (fun (registers, y, i, q, texels, stale) => ⟨registers, y, i, q, texels, stale⟩)
    (fun t => (t.registers, t.y, t.i, t.q, t.texels, t.stale))

/-- both tables of a unit -/
def nccTables : Codec (NccTable × NccTable) :=
  (nccTable.vector 1236 2).map (fun v => (v[0], v[1])) (fun (first, second) => #v[first, second])

/-- what the revision decides: the palette with alpha, the filter's precision, addressing and the upload order -/
def textureTraits : Codec (Bool × Int32 × UInt32 × UInt32 × Bool) :=
  flag.pair (int32.pair (word32.pair (word32.pair flag)))

def textureUnit : Codec TextureUnit :=
  (word64.pair (memory.pair (registers.pair (texGradients.pair (texParams.pair (flag.pair (nccTables.pair
    ((word32.vector 4 256).pair ((word32.vector 4 256).pair textureTraits))))))))).map
    (fun (index, memory, regs, gradients, params, stale, (ncc0, ncc1), palette, alphaPalette, hasAlphaPalette,
        bilinearMask, addressMask, addressShift, linearUpload) =>
      ⟨index, memory, regs, gradients, params, stale, ncc0, ncc1, palette, alphaPalette, hasAlphaPalette,
        bilinearMask, addressMask, addressShift, linearUpload⟩)
    (fun u => (u.index, u.memory, u.regs, u.gradients, u.params, u.stale, (u.ncc0, u.ncc1), u.palette, u.alphaPalette,
      u.hasAlphaPalette, u.bilinearMask, u.addressMask, u.addressShift, u.linearUpload))

/-! ## Queue and setup unit -/

def registerWrite : Codec RegisterWrite :=
  (word32.pair word32).map (fun (offset, data) => ⟨offset, data⟩) (fun w => (w.offset, w.data))

def queue : Codec WriteQueue :=
  (registerWrite.sequence 8).map (fun a => ⟨a.toList⟩) (fun q => q.writes.toArray)

def setupVertex : Codec SetupVertex :=
  let w := word32
  (w.pair (w.pair (w.pair (w.pair (w.pair (w.pair (w.pair (w.pair (w.pair (w.pair (w.pair (w.pair (w.pair
    w))))))))))))).map
    (fun (x, y, z, wb, r, g, b, a, s0, t0, w0, s1, t1, w1) => ⟨x, y, z, wb, r, g, b, a, s0, t0, w0, s1, t1, w1⟩)
    (fun v => (v.x, v.y, v.z, v.wb, v.r, v.g, v.b, v.a, v.s0, v.t0, v.w0, v.s1, v.t1, v.w1))

def setupUnit : Codec SetupUnit :=
  ((setupVertex.vector 56 3).pair word32).map (fun (v, count) => ⟨v.get 0, v.get 1, v.get 2, count⟩)
    (fun u => (#v[u.v0, u.v1, u.v2], u.count))

/-! ## The chip -/

/-- a chip; one that is read has an empty cache of decoded modes -/
def chip : Codec Chip :=
  (config.pair (registers.pair (frame.pair ((textureUnit.sequence 5736).pair (queue.pair setupUnit))))).map
    (fun (config, regs, frame, textures, queue, setup) =>
      ⟨config, regs, frame, textures, queue, setup, ModeCache.empty⟩)
    (fun c => (c.config, c.regs, c.frame, c.textures, c.queue, c.setup))

end Codec

/-- why a saved state cannot be restored -/
inductive RestoreError where
  | unreadable (cause : CodecError)
  | config (cause : ConfigError)
deriving DecidableEq, Repr

namespace Chip

/-- the saved state of a chip -/
def save (c : Chip) : ByteArray := Codec.chip.encode c

/-- the chip of a saved state -/
def restore (bytes : ByteArray) : Except RestoreError Chip :=
  match Codec.chip.get (Reader.ofBytes bytes) with
  | .error e => .error (.unreadable e)
  | .ok (c, _) =>
    match c.config.validate with
    | .error e => .error (.config e)
    | .ok () => .ok c

end Chip
end Accel3D
