/-
The two paths of a linear write.

A linear write stores its pixels directly or sends them through the pixel pipeline. The direct path checks that a pixel
does not lie past the end of the memory and goes by what the write brings; the pipeline goes by what fbzMode has written
and takes the depth through Z. When every stage is off, when fbzMode has written just what the format brings, and when
the pixels lie inside the memory, the two do the same to a pixel (`samePicture_pixel`), so to a write
(`samePicture_write`) and to the chip.

Result: `linear_paths`.
-/
import Accel3D.Proofs.Display
import Accel3D.Proofs.Halfword
import Accel3D.Proofs.ModeCache
import Accel3D.Proofs.Pixels

namespace Accel3D

/-! ## What a write brings -/

theorem LinearWrite.swapWord_all (bytes words : Bool) :
    LinearWrite.swapWord bytes words 0xFFFFFFFF = 0xFFFFFFFF := by
  cases bytes <;> cases words <;> decide

namespace LinearFormat

def bringsColor : LinearFormat → Bool
  | twoDepths => false
  | _ => true

def bringsDepth : LinearFormat → Bool
  | depthAndColor _ => true
  | twoDepths => true
  | _ => false

theorem brings_ofCode {code : Nat} {format : LinearFormat} (h : ofCode? code = some format) :
    format.bringsColor = (code != 15) ∧ format.bringsDepth = decide (12 ≤ code) := by
  unfold ofCode? at h
  split at h <;> cases h <;> exact ⟨rfl, rfl⟩

end LinearFormat

/-- a pixel that brings color and depth exactly when they are written, if it brings anything -/
def LinearPixel.Fits (p : LinearPixel) (writeColor writeAux : Bool) : Prop :=
  p.parts.any = true → p.parts.color = writeColor ∧ (p.parts.depth || p.parts.highDepth) = writeAux

theorem LinearPixels.fits_unpack (mode : LinearMode) (format : LinearFormat) (data za : UInt32) :
    (unpack mode format data za).first.Fits format.bringsColor format.bringsDepth ∧
      (unpack mode format data za).second.Fits format.bringsColor format.bringsDepth := by
  cases format with
  | twoColors c => exact ⟨fun _ => ⟨rfl, rfl⟩, fun _ => ⟨rfl, rfl⟩⟩
  | twoDepths => exact ⟨fun _ => ⟨rfl, rfl⟩, fun _ => ⟨rfl, rfl⟩⟩
  | oneColor hasAlpha => exact ⟨fun _ => ⟨rfl, rfl⟩, fun hany => absurd hany Bool.false_ne_true⟩
  | depthAndColor c => exact ⟨fun _ => ⟨rfl, rfl⟩, fun hany => absurd hany Bool.false_ne_true⟩

/-! ## One pixel -/

/-- the same memory and as many pixels drawn -/
structure Canvas.SamePicture (c c' : Canvas) : Prop where
  memory : c.memory = c'.memory
  drawn : c.counters.pixelsOut = c'.counters.pixelsOut

/-- plain rules under which a depth is taken from Z and goes to the aux buffer as it is -/
structure PixelRules.Direct (r : PixelRules) : Prop extends r.Plain where
  wBuffer : r.frame.wBuffer = false
  depthBias : r.frame.depthBias = false
  alphaPlanes : r.frame.alphaPlanes = false

namespace LinearWrite

/-- a column of a write whose halfwords, as far as they are written, lie inside a memory of this size -/
structure ColumnInside (mode : FrameMode) (s : Surface) (size : Nat) (y x : Int) : Prop where
  size_le : size ≤ 4294967296
  left : 0 ≤ x
  top : 0 ≤ y
  color : mode.writeColor = true → pixelByte s.colorBase s.rowPixels x y + 1 < size
  aux : mode.writeAux = true → ∀ base ∈ s.auxBase, pixelByte base s.rowPixels x y + 1 < size

/-- inside the memory the direct path stores where the pipeline does -/
theorem storeInside_eq (m : Memory) (s : Surface) (base : UInt32) (x y : Int) (v : UInt16)
    (hsize : m.size ≤ 4294967296) (hx : 0 ≤ x) (hy : 0 ≤ y) (h : pixelByte base s.rowPixels x y + 1 < m.size) :
    storeInside m base (UInt32.ofInt y * s.rowPixels + UInt32.ofInt x) v = m.write16 (base + s.offset x y) v := by
  have hrow : 0 ≤ y * (s.rowPixels.toNat : Int) := Int.mul_nonneg hy (Int.natCast_nonneg _)
  unfold pixelByte at h
  have hpixel : (UInt32.ofInt y * s.rowPixels + UInt32.ofInt x).toNat = (y * s.rowPixels.toNat + x).toNat := by
    rw [← toNat_ofInt32 _ (by omega) (by omega), UInt32.ofInt_add, UInt32.ofInt_mul, ofInt32_toNat]
  have hinside : base.toNat + 2 * (UInt32.ofInt y * s.rowPixels + UInt32.ofInt x).toNat < m.size := by
    rw [hpixel]
    omega
  rw [storeInside, if_pos hinside, Surface.offset, UInt32.mul_comm 2]

section Column

variable {p : Pipeline} {q : LinearPixel} {w : LinearWrite} {x : Int} {m : Memory}

/-- the color of a pixel is stored alike on both paths -/
theorem directColor_eq (hcolor : q.parts.color = p.rules.frame.writeColor)
    (hin : ColumnInside p.rules.frame p.surface m.size w.screenY x) (v : UInt16) :
    (if q.parts.color then
        storeInside m p.surface.colorBase (UInt32.ofInt w.screenY * p.surface.rowPixels + UInt32.ofInt x) v
      else m) = p.writeColor ⟨x, w.y, w.screenY⟩ v m := by
  rw [Pipeline.writeColor, hcolor]
  by_cases hwrite : p.rules.frame.writeColor = true
  · rw [if_pos hwrite, if_pos hwrite, storeInside_eq _ _ _ _ _ _ hin.size_le hin.left hin.top (hin.color hwrite)]
    rfl
  · rw [if_neg hwrite, if_neg hwrite]

theorem directAux_eq (h : p.rules.Direct) (haux : (q.parts.depth || q.parts.highDepth) = p.rules.frame.writeAux)
    (hin : ColumnInside p.rules.frame p.surface m.size w.screenY x) :
    (match p.surface.auxBase, auxValue p.rules.frame q with
      | some base, some v =>
        storeInside m base (UInt32.ofInt w.screenY * p.surface.rowPixels + UInt32.ofInt x) v
      | _, _ => m) = p.writeAux ⟨x, w.y, w.screenY⟩ q.depth m := by
  simp only [auxValue, h.alphaPlanes, Bool.false_eq_true, if_false, haux, Pipeline.writeAux, Surface.aux]
  by_cases hwrite : p.rules.frame.writeAux = true
  · rw [if_pos hwrite, if_pos hwrite]
    cases hbase : p.surface.auxBase with
    | none => rfl
    | some base => exact storeInside_eq m _ base x _ _ hin.size_le hin.left hin.top (hin.aux hwrite base hbase)
  · rw [if_neg hwrite, if_neg hwrite]
    cases p.surface.auxBase with
    | none => rfl
    | some base => rfl

/-- the depth of a pixel comes back from Z -/
theorem auxValue_fragment (h : p.rules.Direct) (mode : LinearMode) (za : UInt32) :
    p.auxValue (fragment mode za q) (fragment mode za q).color = q.depth := by
  have hdepth : p.rules.depth (fragment mode za q) = q.depth.toNat := by
    simp only [PixelRules.depth, PixelRules.rawDepth, h.wBuffer, h.depthBias, Bool.not_false, Bool.false_eq_true,
      if_true, if_false]
    exact congrArg Int.ofNat (cutZ_whole _ _)
  simp only [Pipeline.auxValue, h.alphaPlanes, Bool.false_eq_true, if_false, hdepth]
  exact ofInt16_toNat q.depth

/-- **A pixel of a linear write** comes out the same on both paths. -/
theorem samePicture_pixel (h : p.rules.Direct) (mode : LinearMode)
    (hfits : q.Fits p.rules.frame.writeColor p.rules.frame.writeAux) {c c' : Canvas}
    (hinside : q.parts.any = true → ColumnInside p.rules.frame p.surface c.memory.size w.screenY x)
    (hc : c.SamePicture c') :
    (storePixel p.rules.frame p.surface w.y x (UInt32.ofInt w.screenY * p.surface.rowPixels + UInt32.ofInt x) q
      c).SamePicture (drawPixel p mode w x q c') := by
  unfold storePixel drawPixel
  cases hany : q.parts.any with
  | false => exact hc
  | true =>
    obtain ⟨hcolor, haux⟩ := hfits hany
    have hin := hinside hany
    simp only [Bool.not_true, Bool.false_eq_true, if_false]
    rw [Pipeline.drawGiven_eq, h.toPlain.testColor, Pipeline.drawColored_plain h.toPlain, auxValue_fragment h,
      directColor_eq hcolor hin]
    refine ⟨?_, ?_⟩
    · -- the color write keeps the size, by which the aux write is checked
      refine (directAux_eq h haux (by rwa [p.size_writeColor])).trans ?_
      rw [hc.memory]
      rfl
    · exact congrArg (· + 1) hc.drawn

end Column

/-! ## A write -/

theorem size_storePixel (mode : FrameMode) (s : Surface) (y x : Int) (pixel : UInt32) (q : LinearPixel) (c : Canvas) :
    (storePixel mode s y x pixel q c).memory.size = c.memory.size := by
  rw [Memory.size, Memory.size, Memory.size_eq, Memory.size_eq, logSize_storePixel]

/-- both pixels of a write, as far as it brings them, lie inside a memory of this size -/
structure Inside (w : LinearWrite) (mode : FrameMode) (s : Surface) (size : Nat) : Prop where
  first : w.pixels.first.parts.any = true → ColumnInside mode s size w.screenY w.x
  second : w.pixels.second.parts.any = true → ColumnInside mode s size w.screenY (w.x + 1)

/-- **A linear write** leaves the same picture on both paths. -/
theorem samePicture_write {p : Pipeline} (h : p.rules.Direct) (w : LinearWrite) (mode : LinearMode)
    (hfirst : w.pixels.first.Fits p.rules.frame.writeColor p.rules.frame.writeAux)
    (hsecond : w.pixels.second.Fits p.rules.frame.writeColor p.rules.frame.writeAux) (c : Canvas)
    (hin : w.Inside p.rules.frame p.surface c.memory.size) :
    (w.runDirect p.rules.frame p.surface c).SamePicture (w.runPipeline p mode c) := by
  have hone := samePicture_pixel h mode hfirst hin.first (⟨rfl, rfl⟩ : c.SamePicture c)
  have hnext : UInt32.ofInt w.screenY * p.surface.rowPixels + UInt32.ofInt w.x + 1 =
      UInt32.ofInt w.screenY * p.surface.rowPixels + UInt32.ofInt (w.x + 1) := by
    rw [UInt32.ofInt_add, ← UInt32.add_assoc]
    rfl
  rw [runDirect, runPipeline, hnext]
  refine samePicture_pixel h mode hsecond ?_ hone
  rw [size_storePixel]
  exact hin.second

theorem nonneg_of_decode {mode : LinearMode} {layout : FrameLayout} {za offset data byteMask : UInt32} {w : LinearWrite}
    (h : decode? mode layout za offset data byteMask = some w) : 0 ≤ w.x ∧ 0 ≤ w.screenY := by
  obtain ⟨format, -, rfl⟩ := Option.map_eq_some_iff.1 h
  refine ⟨Int.natCast_nonneg _, ?_⟩
  unfold screenRow
  split
  · exact Int.natCast_nonneg _
  · exact Int.emod_nonneg _ (by decide)

/-- a write of every byte brings what its format packs -/
theorem fits_of_decode {mode : LinearMode} {layout : FrameLayout} {za offset data : UInt32} {w : LinearWrite}
    (h : decode? mode layout za offset data 0xFFFFFFFF = some w) :
    w.pixels.first.Fits (mode.writeFormat != 15) (12 ≤ mode.writeFormat) ∧
      w.pixels.second.Fits (mode.writeFormat != 15) (12 ≤ mode.writeFormat) := by
  obtain ⟨format, hformat, rfl⟩ := Option.map_eq_some_iff.1 h
  obtain ⟨hcolor, hdepth⟩ := LinearFormat.brings_ofCode hformat
  have hall : ∀ p : LinearPixels, p.mask 0xFFFFFFFF = p := fun _ => rfl
  rw [← hcolor, ← hdepth]
  simp only [swapWord_all, hall]
  exact LinearPixels.fits_unpack mode format _ za

end LinearWrite

/-! ## The mode with the pipeline on and off -/

namespace LinearMode

/-- the mode with its pipeline switched -/
def withPipeline (m : LinearMode) (on : Bool) : LinearMode := { m with pixelPipeline := on }

/-- bit 8 switches the pipeline and nothing else -/
theorem decode_congr {v w : UInt32} (h : ∀ i, i < 32 → i ≠ 8 → bit v i = bit w i) :
    decode v = (decode w).withPipeline (bit v 8) := by
  have hfield : ∀ low width, low + width ≤ 8 → field v low width = field w low width := fun low width hle =>
    field_congr low width fun i _ hi => h i (by omega) (by omega)
  simp (disch := omega) only [decode, withPipeline, hfield, h]

theorem decode_piped (w : UInt32) : decode (w ||| 0x100) = (decode w).withPipeline true := by
  have hmask : ∀ i, i < 32 → i ≠ 8 → bit 0x100 i = false := by decide
  have hset : bit (w ||| 0x100) 8 = true := by
    rw [bit_or]
    exact Bool.or_true _
  rw [← hset]
  refine decode_congr fun i hi hne => ?_
  rw [bit_or, hmask i hi hne, Bool.or_false]

theorem decode_direct (w : UInt32) : decode (w &&& 0xFFFFFEFF) = (decode w).withPipeline false := by
  have hmask : ∀ i, i < 32 → i ≠ 8 → bit 0xFFFFFEFF i = true := by decide
  have hclear : bit (w &&& 0xFFFFFEFF) 8 = false := by
    rw [bit_and]
    exact Bool.and_false _
  rw [← hclear]
  refine decode_congr fun i hi hne => ?_
  rw [bit_and, hmask i hi hne, Bool.and_true]

end LinearMode

namespace Chip

def withLinearMode (c : Chip) (w : UInt32) : Chip := { c with regs := c.regs.set Reg.lfbMode w }

theorem execute_lfbMode (c : Chip) (w : UInt32) :
    ∃ units, c.execute ⟨0x45, w⟩ = { c.withLinearMode w with textures := units } := by
  have hcommand : ∀ v : Revision, Command.ofRegister v Reg.lfbMode = .plain := by
    intro v
    cases v <;> decide +kernel
  have hregister : register ⟨0x45, w⟩ = Reg.lfbMode := rfl
  have hreach : (c.reach ⟨0x45, w⟩).frame = true := by
    unfold reach
    split
    · rfl
    · show (ChipSelect.ofAddress 0x45).frame = true
      decide
  refine ⟨(c.execute ⟨0x45, w⟩).textures, ?_⟩
  rw [execute_eq, updateLayout, hregister, show isLayoutRegister Reg.lfbMode = false by decide, Bool.and_false,
    if_neg Bool.false_ne_true, stored, command, hregister, hcommand, storeRegister, hreach]
  rfl

theorem canvas_linearWrite (c : Chip) (offset data byteMask : UInt32) :
    (c.linearWrite offset data byteMask).canvas =
      match c.linearTarget offset data byteMask with
      | none => c.canvas
      | some (w, base) => c.linearDraw w base c.canvas := by
  rw [linearWrite_eq]
  cases c.linearTarget offset data byteMask with
  | none => rfl
  | some target => exact canvas_paint c _

theorem decode_of_linearTarget (c : Chip) {offset data byteMask : UInt32} {t : LinearWrite} {base : UInt32}
    (h : c.linearTarget offset data byteMask = some (t, base)) :
    LinearWrite.decode? (LinearMode.decode (c.regs.get Reg.lfbMode)) c.frame.layout (c.regs.get Reg.zaColor) offset data
      byteMask = some t := by
  obtain ⟨t', hdecode, hmap⟩ := Option.bind_eq_some_iff.1 h
  obtain ⟨base', -, hpair⟩ := Option.map_eq_some_iff.1 hmap
  obtain ⟨rfl, -⟩ := Prod.mk.inj hpair
  exact hdecode

section Switched

variable (c : Chip) {v w : UInt32}

theorem get_withLinearMode (v : UInt32) (r : Reg) (h : Reg.lfbMode ≠ r) :
    (c.withLinearMode v).regs.get r = c.regs.get r := by
  show (c.regs.set Reg.lfbMode v).get r = c.regs.get r
  rw [RegisterFile.get_set, if_neg h]

theorem get_lfbMode (v : UInt32) : (c.withLinearMode v).regs.get Reg.lfbMode = v := by
  show (c.regs.set Reg.lfbMode v).get Reg.lfbMode = v
  rw [RegisterFile.get_set, if_pos rfl]

theorem canvas_withLinearMode (v : UInt32) : (c.withLinearMode v).canvas = c.canvas := by
  rw [canvas, get_withLinearMode c v Reg.stipple (by decide)]
  rfl

theorem rules_withLinearMode (v : UInt32) (combine : Combine) :
    PixelRules.ofRegisters c.revision (c.withLinearMode v).regs combine =
      PixelRules.ofRegisters c.revision c.regs combine := by
  simp (disch := decide) only [PixelRules.ofRegisters, get_withLinearMode]

theorem frameMode_withLinearMode (v : UInt32) : (c.withLinearMode v).frameMode = c.frameMode := by
  rw [frameMode, get_withLinearMode c v Reg.fbzMode (by decide), frameMode]

/-- the pixels of a write and their buffer do not depend on the path -/
theorem linearTarget_switched {on : Bool} (h : LinearMode.decode v = (LinearMode.decode w).withPipeline on)
    (offset data byteMask : UInt32) :
    (c.withLinearMode v).linearTarget offset data byteMask = (c.withLinearMode w).linearTarget offset data byteMask := by
  simp only [linearTarget, get_lfbMode, h, get_withLinearMode c _ Reg.zaColor (by decide)]
  rfl

theorem linearDraw_piped (h : LinearMode.decode v = (LinearMode.decode w).withPipeline true) (t : LinearWrite)
    (base : UInt32) :
    (c.withLinearMode v).linearDraw t base =
      t.runPipeline ⟨PixelRules.ofRegisters c.revision c.regs Combine.plain, c.frame.fog, c.frame.surface base⟩
        (LinearMode.decode w) := by
  rw [linearDraw, get_lfbMode, h, ← rules_withLinearMode c v]
  rfl

theorem linearDraw_direct (h : LinearMode.decode v = (LinearMode.decode w).withPipeline false) (t : LinearWrite)
    (base : UInt32) :
    (c.withLinearMode v).linearDraw t base = t.runDirect c.frameMode (c.frame.surface base) := by
  rw [linearDraw, get_lfbMode, h, get_withLinearMode c v Reg.fbzMode (by decide)]
  rfl

end Switched

/-! ## The two paths -/

/-- the state of a chip in which a linear write of this format meets no stage and keeps its depth as it is, and in which
fbzMode has color written unless the format packs two depths, and depth if the format packs one -/
structure LinearStagesOff (c : Chip) (format : Nat) : Prop extends c.StagesOff where
  writeColor : c.frameMode.writeColor = (format != 15)
  writeAux : c.frameMode.writeAux = decide (12 ≤ format)
  wBuffer : c.frameMode.wBuffer = false
  depthBias : c.frameMode.depthBias = false
  alphaPlanes : c.frameMode.alphaPlanes = false

def LinearInside (c : Chip) (offset data : UInt32) : Prop :=
  ∀ w base, c.linearTarget offset data 0xFFFFFFFF = some (w, base) →
    ∀ q ∈ [(w.x, w.pixels.first), (w.x + 1, w.pixels.second)], q.2.parts.any = true →
      (c.frameMode.writeColor = true → pixelByte base c.frame.layout.rowPixels q.1 w.screenY + 1 < c.frame.memory.size) ∧
      (c.frameMode.writeAux = true → ∀ aux ∈ c.frame.layout.aux,
        pixelByte aux c.frame.layout.rowPixels q.1 w.screenY + 1 < c.frame.memory.size)

/-- a linear write under such a mode leaves the same picture on both paths -/
theorem samePicture_linearWrite (c : Chip) (hsize : c.frame.memory.size ≤ 4294967296) (w offset data : UInt32)
    (h : c.LinearStagesOff (LinearMode.decode w).writeFormat) (hinside : (c.withLinearMode w).LinearInside offset data) :
    ((c.withLinearMode (w &&& 0xFFFFFEFF)).linearWrite offset data 0xFFFFFFFF).canvas.SamePicture
      ((c.withLinearMode (w ||| 0x100)).linearWrite offset data 0xFFFFFFFF).canvas := by
  have hdirect := LinearMode.decode_direct w
  have hpiped := LinearMode.decode_piped w
  rw [canvas_linearWrite, canvas_linearWrite, canvas_withLinearMode, canvas_withLinearMode,
    linearTarget_switched c hdirect, linearTarget_switched c hpiped]
  cases htarget : (c.withLinearMode w).linearTarget offset data 0xFFFFFFFF with
  | none => exact ⟨rfl, rfl⟩
  | some target =>
    obtain ⟨t, base⟩ := target
    show ((c.withLinearMode (w &&& 0xFFFFFEFF)).linearDraw t base c.canvas).SamePicture
      ((c.withLinearMode (w ||| 0x100)).linearDraw t base c.canvas)
    rw [linearDraw_direct c hdirect, linearDraw_piped c hpiped]
    have hdecode := decode_of_linearTarget _ htarget
    rw [get_lfbMode] at hdecode
    obtain ⟨hx, hy⟩ := LinearWrite.nonneg_of_decode hdecode
    obtain ⟨hfirst, hsecond⟩ := LinearWrite.fits_of_decode hdecode
    rw [← h.writeColor, ← h.writeAux] at hfirst hsecond
    have hrules : (PixelRules.ofRegisters c.revision c.regs Combine.plain).Direct :=
      ⟨h.toStagesOff.plain _, h.wBuffer, h.depthBias, h.alphaPlanes⟩
    have hcolumns := hinside t base htarget
    rw [frameMode_withLinearMode] at hcolumns
    have hin : t.Inside c.frameMode (c.frame.surface base) c.frame.memory.size := by
      constructor
      · intro hany
        obtain ⟨hcolor, haux⟩ := hcolumns (t.x, t.pixels.first) List.mem_cons_self hany
        exact ⟨hsize, hx, hy, hcolor, haux⟩
      · intro hany
        obtain ⟨hcolor, haux⟩ :=
          hcolumns (t.x + 1, t.pixels.second) (List.mem_cons_of_mem _ List.mem_cons_self) hany
        exact ⟨hsize, Int.add_nonneg hx (by decide), hy, hcolor, haux⟩
    exact LinearWrite.samePicture_write
      (p := ⟨PixelRules.ofRegisters c.revision c.regs Combine.plain, c.frame.fog, c.frame.surface base⟩)
      hrules t (LinearMode.decode w) hfirst hsecond c.canvas hin

/-- **The two paths of a linear write agree when every stage is off.** A host sets lfbMode and writes a word through the
linear frame buffer, in a state in which no stage of the pipeline is on, fbzMode has written what the format packs, and
the pixels that the write addresses lie inside the memory. With the pixel pipeline switched on and with it switched off,
the frame buffer memory is the same afterwards, and so is the number of pixels drawn. -/
theorem linear_paths (c : Chip) (hc : c.Reachable) (w offset data : UInt32)
    (h : c.flush.LinearStagesOff (LinearMode.decode w).writeFormat)
    (hinside : (c.flush.withLinearMode w).LinearInside offset data) :
    let after (mode : UInt32) : Chip :=
      (c.runCalls [.writeRegister 0x45 mode, .writeLinear offset data 0xFFFFFFFF]).1
    (after (w ||| 0x100)).frame.memory = (after (w &&& 0xFFFFFEFF)).frame.memory ∧
      (after (w ||| 0x100)).frame.counters.pixelsOut = (after (w &&& 0xFFFFFEFF)).frame.counters.pixelsOut := by
  intro after
  have hafter : ∀ mode, (after mode).canvas =
      ((c.flush.withLinearMode mode).linearWrite offset data 0xFFFFFFFF).canvas := by
    intro mode
    have hwrite : (Access.of c.revision (Reg.ofAddress 0x45)).write = true := by
      cases c.revision <;> decide +kernel
    obtain ⟨units, hmode⟩ := c.flush.execute_lfbMode mode
    show ((c.writeRegister 0x45 mode).flush.linearWrite offset data 0xFFFFFFFF).canvas = _
    rw [flush_writeRegister c 0x45 mode hwrite, hmode, canvas_linearWrite, canvas_linearWrite]
    rfl
  have hsize : c.flush.frame.memory.size ≤ 4294967296 :=
    Nat.le_trans (memory_size_reachable _ (hc.run c [.flush])).1 (by decide)
  have hsame := samePicture_linearWrite c.flush hsize w offset data h hinside
  rw [← hafter, ← hafter] at hsame
  exact ⟨hsame.memory.symm, hsame.drawn.symm⟩

/-- a Banshee with rows of 128 pixels that writes colors only -/
def colorBanshee : Chip :=
  ((initial { ChipConfig.standard with revision := .banshee }).runCalls
    [.writeRegister 0x7C 0x100, .writeRegister 0x44 0x200]).1

theorem linearStagesOff_colorBanshee : colorBanshee.flush.LinearStagesOff (LinearMode.decode 0).writeFormat := by
  refine ⟨⟨?_, ?_, ?_, ?_, ?_, ?_, ?_⟩, ?_, ?_, ?_, ?_, ?_⟩ <;> decide +kernel

theorem linearInside_colorBanshee : (colorBanshee.flush.withLinearMode 0).LinearInside 0x405 0x07E0F800 := by
  have hsize : colorBanshee.flush.frame.memory.size = 2 ^ 22 := (size_flush colorBanshee).trans (size_run _ _)
  have hrow : colorBanshee.flush.frame.layout.rowPixels = 128 := by decide +kernel
  have haux : (colorBanshee.flush.withLinearMode 0).frameMode.writeAux = false := by decide +kernel
  have hpixels : ∀ r ∈ (colorBanshee.flush.withLinearMode 0).linearTarget 0x405 0x07E0F800 0xFFFFFFFF,
      ∀ x ∈ [r.1.x, r.1.x + 1], pixelByte r.2 128 x r.1.screenY + 1 < 4194304 := by decide +kernel
  intro t base ht q hq _
  have hcolumn : q.1 ∈ [t.x, t.x + 1] := List.mem_map_of_mem (f := Prod.fst) hq
  refine ⟨fun _ => ?_, fun hwrite => ?_⟩
  · show pixelByte base colorBanshee.flush.frame.layout.rowPixels q.1 t.screenY + 1 < colorBanshee.flush.frame.memory.size
    rw [hrow, hsize]
    exact hpixels (t, base) ht q.1 hcolumn
  · rw [haux] at hwrite
    exact absurd hwrite Bool.false_ne_true

/-- two 16-bit colors written on either path -/
theorem linear_paths_color :
    let after (mode : UInt32) : Chip :=
      (colorBanshee.runCalls [.writeRegister 0x45 mode, .writeLinear 0x405 0x07E0F800 0xFFFFFFFF]).1
    (after 0x100).frame.memory = (after 0).frame.memory ∧ (after 0x100).frame.counters.pixelsOut = 2 := by
  have hreachable : colorBanshee.Reachable := ⟨_, _, _, make_eq_ok.2 ⟨by decide, rfl⟩, rfl⟩
  obtain ⟨hmemory, hdrawn⟩ := colorBanshee.linear_paths hreachable 0 0x405 0x07E0F800 linearStagesOff_colorBanshee
    linearInside_colorBanshee
  refine ⟨hmemory, hdrawn.trans ?_⟩
  decide +kernel

end Chip
end Accel3D
