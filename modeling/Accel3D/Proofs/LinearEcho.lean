/-
What is written through the linear frame buffer reads back.

A write and a read name a pair of pixels by the same bits of their offsets. When a write packs two colors of the format
that is stored, or two depths while depths are read, and nothing is dithered or exchanged on the way, its two halves are
stored as they are; when it swaps bytes and halves as the read does, they come back in their places. What a byte mask
leaves out stays as it was.

Results: `quantize_ofRgb565` (a color is stored as it was packed), `pairAt_runDirect` (the pair after a write),
`linear_echo`.
-/
import Accel3D.Proofs.LinearBounds

namespace Accel3D

/-! ## Colors -/

namespace Dither

theorem lowByte_natCast {n : Nat} (h : n < 256) : lowByte n = UInt16.ofNat n := by
  rw [lowByte]
  congr 1
  omega

theorem toNat_pack565 {r g b : Nat} (hr : r < 32) (hg : g < 64) (hb : b < 32) :
    (pack565 r g b).toNat = 2 ^ 11 * r + (2 ^ 5 * g + b) := by
  have hsmall : ∀ n, n < 256 → (UInt16.ofNat n).toNat = n := fun n hn =>
    UInt16.toNat_ofNat_of_lt' (Nat.lt_trans hn (by decide))
  have h11 : (11 : UInt16).toNat % 16 = 11 := rfl
  have h5 : (5 : UInt16).toNat % 16 = 5 := rfl
  rw [pack565, lowByte_natCast (by omega), lowByte_natCast (by omega), lowByte_natCast (by omega), UInt16.toNat_or,
    UInt16.toNat_or, UInt16.toNat_shiftLeft, UInt16.toNat_shiftLeft, hsmall r (by omega), hsmall g (by omega),
    hsmall b (by omega), h11, h5, Nat.shiftLeft_eq, Nat.shiftLeft_eq, Nat.mod_eq_of_lt (by omega),
    Nat.mod_eq_of_lt (by omega), Nat.mul_comm r, Nat.mul_comm g, Nat.or_assoc, Nat.two_pow_add_eq_or_of_lt (by omega),
    Nat.two_pow_add_eq_or_of_lt (by omega)]

/-- without dithering a color that was widened from 5-6-5 is stored as it was -/
theorem quantize_ofRgb565 {d : Dither} (h : d.enabled = false) (x : Int) (w : UInt32) :
    d.quantize x (Argb.ofRgb565 w).r.toNat (Argb.ofRgb565 w).g.toNat (Argb.ofRgb565 w).b.toNat = w.toUInt16 := by
  have hfive : ∀ v, v < 32 → (widen5 v).toNat / 8 = v := by decide
  have hsix : ∀ v, v < 64 → (widen6 v).toNat / 4 = v := by decide
  have hr := field_lt w 11 5
  have hg := field_lt w 5 6
  have hb := field_lt w 0 5
  have hpacked : d.quantize x (Argb.ofRgb565 w).r.toNat (Argb.ofRgb565 w).g.toNat (Argb.ofRgb565 w).b.toNat =
      pack565 (field w 11 5 : Nat) (field w 5 6 : Nat) (field w 0 5 : Nat) := by
    rw [quantize, h, if_neg Bool.false_ne_true]
    have hred : ((Argb.ofRgb565 w).r.toNat : Int) / 8 = (field w 11 5 : Nat) := by
      have hv := hfive _ hr
      show ((widen5 (field w 11 5)).toNat : Int) / 8 = _
      omega
    have hgreen : ((Argb.ofRgb565 w).g.toNat : Int) / 4 = (field w 5 6 : Nat) := by
      have hv := hsix _ hg
      show ((widen6 (field w 5 6)).toNat : Int) / 4 = _
      omega
    have hblue : ((Argb.ofRgb565 w).b.toNat : Int) / 8 = (field w 0 5 : Nat) := by
      have hv := hfive _ hb
      show ((widen5 (field w 0 5)).toNat : Int) / 8 = _
      omega
    rw [hred, hgreen, hblue]
  apply UInt16.toNat_inj.1
  rw [hpacked, toNat_pack565 hr hg hb, UInt32.toNat_toUInt16, field, field, field, Nat.shiftRight_eq_div_pow,
    Nat.shiftRight_eq_div_pow, Nat.shiftRight_zero]
  omega

end Dither

/-! ## Halfwords of a pair -/

namespace LinearWrite

theorem halfwords_nothing (mode : FrameMode) (s : Surface) (y x : Int) {q : LinearPixel} (h : q.parts = .nothing) :
    halfwords mode s y x q = [] := by
  rw [halfwords, h]
  rfl

theorem halfwords_color (mode : FrameMode) (s : Surface) (y x : Int) {q : LinearPixel}
    (h : q.parts = ⟨true, false, false, false⟩) :
    halfwords mode s y x q =
      [(s.colorBase, (Dither.ofMode mode y).quantize x q.color.r.toNat q.color.g.toNat q.color.b.toNat)] := by
  have haux : auxValue mode q = none := by
    rw [auxValue, h]
    cases mode.alphaPlanes <;> rfl
  rw [halfwords, h, haux]
  cases s.auxBase <;> rfl

theorem halfwords_depth {mode : FrameMode} (halpha : mode.alphaPlanes = false) {s : Surface} {aux : UInt32}
    (haux : s.auxBase = some aux) (y x : Int) {q : LinearPixel} (h : q.parts = ⟨false, false, true, false⟩) :
    halfwords mode s y x q = [(aux, q.depth)] := by
  have hvalue : auxValue mode q = some q.depth := by
    rw [auxValue, halpha, h]
    rfl
  rw [halfwords, h, haux, hvalue]
  rfl

end LinearWrite

/-- the parts of pixels that a byte mask leaves: those of the first one if it has the lower half, those of the second
one if it has the upper half -/
theorem LinearPixels.parts_mask (p : LinearPixels) (mask : UInt32) (h : p.first.parts.highDepth = false) :
    (p.mask mask).first =
        { p.first with parts := if mask &&& (0x0000FFFF : UInt32) = 0 then .nothing else p.first.parts } ∧
      (p.mask mask).second =
        { p.second with parts := if mask &&& (0xFFFF0000 : UInt32) = 0 then .nothing else p.second.parts } := by
  obtain ⟨⟨color, depth, ⟨c, a, d, hd⟩⟩, second, pair⟩ := p
  have hzero : hd = false := h
  subst hzero
  unfold LinearPixels.mask
  dsimp only
  split_ifs <;> exact ⟨rfl, rfl⟩

/-! ## The pair after a write -/

namespace Memory

variable {m : Memory} {a b : UInt32} {v : UInt16}

section Skipped

variable (skip : Prop) [Decidable skip]

theorem read16_written (hm : 1 < m.size) :
    (if skip then m else m.write16 a v).read16 a = if skip then m.read16 a else v := by
  split
  · rfl
  · exact m.read16_write16 a v hm

theorem read16_written_of_apart (h : m.Apart a b) : (if skip then m else m.write16 b v).read16 a = m.read16 a := by
  split
  · rfl
  · exact read16_write16_of_apart h v

theorem size_written : (if skip then m else m.write16 a v).size = m.size := by
  split
  · rfl
  · exact m.size_write16 a v

end Skipped

theorem pairAt_written (hm : m.size ≤ 4294967296) {n : Nat} (hn : n + 3 < m.size) (skip skip' : Prop)
    [Decidable skip] [Decidable skip'] (low high : UInt16) {m' : Memory}
    (hfirst : m' = if skip then m else m.write16 (UInt32.ofNat n) low) :
    (if skip' then m' else m'.write16 (UInt32.ofNat n + 2) high).pairAt n =
      ofHalves (if skip then m.read16 (UInt32.ofNat n) else low)
        (if skip' then m.read16 (UInt32.ofNat n + 2) else high) := by
  have hsize : m'.size = m.size := by rw [hfirst, size_written]
  have htwo : (2 : UInt32).toNat = 2 := rfl
  have hlow : (UInt32.ofNat n).toNat = n := UInt32.toNat_ofNat_of_lt' (show n < 4294967296 by omega)
  have hhigh : (UInt32.ofNat n + 2).toNat = n + 2 := by
    rw [UInt32.toNat_add, hlow, htwo]
    omega
  have hapart : m.Apart (UInt32.ofNat n + 2) (UInt32.ofNat n) :=
    apart_of_inside hm (by omega) (by omega) (.inr (by omega))
  have hapart' : m'.Apart (UInt32.ofNat n) (UInt32.ofNat n + 2) :=
    apart_of_inside (by omega) (by omega) (by omega) (.inl (by omega))
  rw [pairAt, read16_written_of_apart skip' hapart', read16_written skip' (by omega), hfirst,
    read16_written skip (by omega), read16_written_of_apart skip hapart]

end Memory

namespace LinearWrite

/-- **The pair after a write.** A direct write that brings a word to one buffer, at a place where both pixels lie inside
the memory, leaves there the word under its byte mask, and elsewhere in the pair what there was before. -/
theorem pairAt_runDirect (w : LinearWrite) {mode : FrameMode} {s : Surface} {c : Canvas} {base word mask : UInt32}
    (hmask : IsHalfMask mask)
    (hfirst : halfwords mode s w.y w.x w.pixels.first =
      if mask &&& (0x0000FFFF : UInt32) = 0 then [] else [(base, word.toUInt16)])
    (hsecond : halfwords mode s w.y (w.x + 1) w.pixels.second =
      if mask &&& (0xFFFF0000 : UInt32) = 0 then [] else [(base, (word >>> 16).toUInt16)])
    (hx : 0 ≤ w.x) (hy : 0 ≤ w.screenY) (hm : c.memory.size ≤ 4294967296) {n : Nat}
    (hn : (n : Int) = pixelByte base s.rowPixels w.x w.screenY) (hinside : n + 3 < c.memory.size) :
    (w.runDirect mode s c).memory.pairAt n = merge mask word (c.memory.pairAt n) := by
  have hnext : ((n + 2 : Nat) : Int) = pixelByte base s.rowPixels (w.x + 1) w.screenY := by
    unfold pixelByte at hn ⊢
    omega
  have haddress : base + s.offset w.x w.screenY = UInt32.ofNat n := by
    rw [s.add_offset, ← hn, ofInt32_natCast]
  have haddress' : base + s.offset (w.x + 1) w.screenY = UInt32.ofNat n + 2 := by
    rw [s.add_offset, ← hnext, ofInt32_natCast, UInt32.ofNat_add]
    rfl
  have hstore : ∀ (m : Memory) (x : Int) (address : UInt32) (skip : Prop) [Decidable skip] (v : UInt16),
      m.size = c.memory.size → 0 ≤ x → pixelByte base s.rowPixels x w.screenY + 1 < c.memory.size →
      base + s.offset x w.screenY = address →
      storeAll m (UInt32.ofInt w.screenY * s.rowPixels + UInt32.ofInt x) (if skip then [] else [(base, v)]) =
        if skip then m else m.write16 address v := by
    intro m x address skip _ v hsize hx hin haddress
    split
    · rfl
    · rw [← haddress]
      exact storeInside_eq m s base x w.screenY v (by rwa [hsize]) hx hy (by rwa [hsize])
  have hlow := hstore c.memory w.x (UInt32.ofNat n) (mask &&& (0x0000FFFF : UInt32) = 0) word.toUInt16 rfl hx (by omega)
    haddress
  have hhigh := hstore (if mask &&& (0x0000FFFF : UInt32) = 0 then c.memory
    else c.memory.write16 (UInt32.ofNat n) word.toUInt16) (w.x + 1) (UInt32.ofNat n + 2)
    (mask &&& (0xFFFF0000 : UInt32) = 0) (word >>> 16).toUInt16 (Memory.size_written _) (by omega) (by omega) haddress'
  rw [memory_runDirect, hfirst, hsecond, hlow, hhigh, Memory.pairAt_written hm hinside _ _ _ _ rfl, Memory.pairAt,
    ← merge_halves hmask, ofHalves_self]

end LinearWrite

/-! ## Writes and reads of a chip -/

namespace Chip

/-- lfbMode and fbzMode under which two colors are stored as they are, in the buffer that is read -/
structure ColorEcho (c : Chip) : Prop where
  format : c.linearMode.writeFormat = 0
  lanes : c.linearMode.redBlueSwapped = false
  dithering : c.frameMode.dithering = false
  buffers : c.revision.hasBansheeLayout = true ∨
    c.linearMode.writeBuffer = some .front ∧ c.linearMode.readBuffer = some .front ∨
    c.linearMode.writeBuffer = some .back ∧ c.linearMode.readBuffer = some .back

/-- lfbMode and fbzMode under which two depths are stored as they are, and depths are read -/
structure DepthEcho (c : Chip) : Prop where
  revision : c.revision.hasBansheeLayout = false
  format : c.linearMode.writeFormat = 15
  write : c.linearMode.writeBuffer = some .front ∨ c.linearMode.writeBuffer = some .back
  read : c.linearMode.readBuffer = some .aux
  alphaPlanes : c.frameMode.alphaPlanes = false
  aux : c.frame.layout.aux.isSome = true

/-- a chip whose direct writes read back -/
structure LinearEcho (c : Chip) : Prop where
  direct : c.linearMode.pixelPipeline = false
  words : c.linearMode.wordSwapWrites = c.linearMode.wordSwapReads
  bytes : c.linearMode.byteSwizzleWrites = c.linearMode.byteSwizzleReads
  buffers : c.ColorEcho ∨ c.DepthEcho

/-- what a write of a pair brings to one buffer: a word under a mask, at the place that a read of the same offset
gives -/
structure Brings (c : Chip) (offset base word mask color : UInt32) (w : LinearWrite) : Prop where
  column : w.x = readColumn offset
  row : w.screenY = c.readRow offset
  first : LinearWrite.halfwords c.frameMode (c.frame.surface color) w.y w.x w.pixels.first =
    if mask &&& (0x0000FFFF : UInt32) = 0 then [] else [(base, word.toUInt16)]
  second : LinearWrite.halfwords c.frameMode (c.frame.surface color) w.y (w.x + 1) w.pixels.second =
    if mask &&& (0xFFFF0000 : UInt32) = 0 then [] else [(base, (word >>> 16).toUInt16)]

/-- the offset of a pair of pixels, doubled, has the column and the row that a read takes from it -/
theorem fields_of_pair (offset : UInt32) :
    ((field (offset <<< 1) 0 10 : Nat) : Int) = readColumn offset ∧
      field (offset <<< 1) 10 10 = field offset 9 10 := by
  have hdouble : (offset <<< 1).toNat = 2 * offset.toNat % 4294967296 := by
    have hone : (1 : UInt32).toNat % 32 = 1 := rfl
    rw [UInt32.toNat_shiftLeft, hone, Nat.shiftLeft_eq, Nat.mul_comm]
  simp only [readColumn, field, hdouble, Nat.shiftRight_eq_div_pow, Nat.reducePow]
  constructor <;> omega

/-- data and byte mask as lfbMode has them swapped for a write -/
def swapped (c : Chip) (word : UInt32) : UInt32 :=
  LinearWrite.swapWord c.linearMode.byteSwizzleWrites c.linearMode.wordSwapWrites word

theorem decode_pair (c : Chip) {format : LinearFormat}
    (hformat : LinearFormat.ofCode? c.linearMode.writeFormat = some format) (offset data byteMask : UInt32)
    (hpair : ∀ word, (LinearPixels.unpack c.linearMode format word (c.regs.get Reg.zaColor)).pair = true) :
    ∃ w, LinearWrite.decode? c.linearMode c.frame.layout (c.regs.get Reg.zaColor) offset data byteMask = some w ∧
      w.x = readColumn offset ∧ w.screenY = c.readRow offset ∧
      w.pixels = (LinearPixels.unpack c.linearMode format (c.swapped data) (c.regs.get Reg.zaColor)).mask
        (c.swapped byteMask) := by
  obtain ⟨hcolumn, hraster⟩ := fields_of_pair offset
  have hmasked : ∀ (p : LinearPixels) (mask : UInt32), (p.mask mask).pair = p.pair := fun p mask => by
    unfold LinearPixels.mask
    dsimp only
    split_ifs <;> rfl
  obtain ⟨pixels, hpixels⟩ : ∃ pixels, pixels = (LinearPixels.unpack c.linearMode format (c.swapped data)
      (c.regs.get Reg.zaColor)).mask (c.swapped byteMask) := ⟨_, rfl⟩
  have hplace : (if pixels.pair then offset <<< 1 else offset) = offset <<< 1 := by
    rw [hpixels, hmasked, hpair, if_pos rfl]
  have hdecode : LinearWrite.decode? c.linearMode c.frame.layout (c.regs.get Reg.zaColor) offset data byteMask =
      let place := if pixels.pair then offset <<< 1 else offset
      some ⟨pixels, field place 0 10, field place 10 10,
        screenRow (c.frame.layout.flip c.linearMode.flipY) (field place 10 10)⟩ := by
    rw [LinearWrite.decode?, hformat, hpixels]
    rfl
  rw [hplace] at hdecode
  refine ⟨_, hdecode, hcolumn, ?_, hpixels⟩
  rw [readRow, hraster]

theorem ColorEcho.base {c : Chip} (h : c.ColorEcho) (hplaced : c.Placed) :
    ∃ base, c.frame.drawOffset c.revision c.linearMode.writeBuffer = some base ∧
      c.linearReadBase c.linearMode = some base := by
  obtain ⟨hfront, hback⟩ := hplaced.isSome_offsetOf
  obtain ⟨front, hfront⟩ := Option.isSome_iff_exists.1 hfront
  obtain ⟨back, hback⟩ := Option.isSome_iff_exists.1 hback
  unfold FrameBuffer.drawOffset linearReadBase
  cases hb : c.revision.hasBansheeLayout with
  | true => exact ⟨back, hback, hback⟩
  | false =>
    obtain hbanshee | ⟨hwrite, hread⟩ | ⟨hwrite, hread⟩ := h.buffers
    · exact absurd (hb.symm.trans hbanshee) Bool.false_ne_true
    · rw [hwrite, hread]
      exact ⟨front, hfront, hfront⟩
    · rw [hwrite, hread]
      exact ⟨back, hback, hback⟩

theorem toUInt16_and (w : UInt32) : (w &&& 0xFFFF).toUInt16 = w.toUInt16 := by
  apply UInt16.toNat_inj.1
  have hmask : (0xFFFF : UInt32).toNat = 2 ^ 16 - 1 := rfl
  rw [UInt32.toNat_toUInt16, UInt32.toNat_toUInt16, UInt32.toNat_and, hmask, Nat.and_two_pow_sub_one_eq_mod,
    Nat.mod_mod]

theorem ColorEcho.brings {c : Chip} (h : c.ColorEcho) (hplaced : c.Placed) (offset data byteMask : UInt32) :
    ∃ w color base, c.linearTarget offset data byteMask = some (w, color) ∧
      c.linearReadBase c.linearMode = some base ∧
      c.Brings offset base (c.swapped data) (c.swapped byteMask) color w := by
  obtain ⟨base, hbase, hread⟩ := h.base hplaced
  have hformat : LinearFormat.ofCode? c.linearMode.writeFormat = some (.twoColors .rgb565) := by
    rw [h.format]
    rfl
  obtain ⟨w, hw, hcolumn, hrow, hpixels⟩ := c.decode_pair hformat offset data byteMask fun _ => rfl
  obtain ⟨hfirst, hsecond⟩ := (LinearPixels.unpack c.linearMode (.twoColors .rgb565) (c.swapped data)
    (c.regs.get Reg.zaColor)).parts_mask (c.swapped byteMask) rfl
  -- the channels of a packed color are not exchanged
  have hvalue : ∀ (v : UInt32) (x : Int), (Dither.ofMode c.frameMode w.y).quantize x
      (LinearPixels.arrange c.linearMode (c.regs.get Reg.zaColor) false (Argb.ofRgb565 v)).r.toNat
      (LinearPixels.arrange c.linearMode (c.regs.get Reg.zaColor) false (Argb.ofRgb565 v)).g.toNat
      (LinearPixels.arrange c.linearMode (c.regs.get Reg.zaColor) false (Argb.ofRgb565 v)).b.toNat = v.toUInt16 := by
    intro v x
    rw [LinearPixels.arrange, h.lanes]
    exact Dither.quantize_ofRgb565 (show (Dither.ofMode c.frameMode w.y).enabled = false from h.dithering) x v
  refine ⟨w, base, base, c.linearTarget_eq_some hw hbase, hread, hcolumn, hrow, ?_, ?_⟩
  · rw [hpixels, hfirst]
    split
    · exact LinearWrite.halfwords_nothing _ _ _ _ rfl
    · rw [LinearWrite.halfwords_color _ _ _ _ rfl]
      exact congrArg (fun v => [(base, v)]) ((hvalue (c.swapped data &&& 0xFFFF) w.x).trans (toUInt16_and _))
  · rw [hpixels, hsecond]
    split
    · exact LinearWrite.halfwords_nothing _ _ _ _ rfl
    · rw [LinearWrite.halfwords_color _ _ _ _ rfl]
      exact congrArg (fun v => [(base, v)]) (hvalue (c.swapped data >>> 16) (w.x + 1))

theorem DepthEcho.brings {c : Chip} (h : c.DepthEcho) (hplaced : c.Placed) (offset data byteMask : UInt32) :
    ∃ w color base, c.linearTarget offset data byteMask = some (w, color) ∧
      c.linearReadBase c.linearMode = some base ∧
      c.Brings offset base (c.swapped data) (c.swapped byteMask) color w := by
  obtain ⟨aux, haux⟩ := Option.isSome_iff_exists.1 h.aux
  obtain ⟨color, hcolor⟩ : ∃ color, c.frame.drawOffset c.revision c.linearMode.writeBuffer = some color := by
    obtain ⟨hfront, hback⟩ := hplaced.isSome_offsetOf
    unfold FrameBuffer.drawOffset
    rw [h.revision, if_neg Bool.false_ne_true]
    obtain hwrite | hwrite := h.write
    · rw [hwrite]
      exact Option.isSome_iff_exists.1 hfront
    · rw [hwrite]
      exact Option.isSome_iff_exists.1 hback
  have hread : c.linearReadBase c.linearMode = some aux := by
    rw [linearReadBase, h.revision, if_neg Bool.false_ne_true, h.read]
    exact haux
  have hformat : LinearFormat.ofCode? c.linearMode.writeFormat = some .twoDepths := by
    rw [h.format]
    rfl
  obtain ⟨w, hw, hcolumn, hrow, hpixels⟩ := c.decode_pair hformat offset data byteMask fun _ => rfl
  obtain ⟨hfirst, hsecond⟩ := (LinearPixels.unpack c.linearMode .twoDepths (c.swapped data)
    (c.regs.get Reg.zaColor)).parts_mask (c.swapped byteMask) rfl
  refine ⟨w, color, aux, c.linearTarget_eq_some hw hcolor, hread, hcolumn, hrow, ?_, ?_⟩
  · rw [hpixels, hfirst]
    split
    · exact LinearWrite.halfwords_nothing _ _ _ _ rfl
    · rw [LinearWrite.halfwords_depth h.alphaPlanes haux _ _ rfl]
      exact congrArg (fun v => [(aux, v)]) (toUInt16_and _)
  · rw [hpixels, hsecond]
    split
    · exact LinearWrite.halfwords_nothing _ _ _ _ rfl
    · exact LinearWrite.halfwords_depth h.alphaPlanes haux _ _ rfl

/-- a chip whose direct writes read back brings what it writes to the buffer that is read -/
theorem LinearEcho.brings {c : Chip} (h : c.LinearEcho) (hplaced : c.Placed) (offset data byteMask : UInt32) :
    ∃ w color base, c.linearTarget offset data byteMask = some (w, color) ∧
      c.linearReadBase c.linearMode = some base ∧
      c.Brings offset base (c.swapped data) (c.swapped byteMask) color w := by
  obtain hcolor | hdepth := h.buffers
  · exact hcolor.brings hplaced offset data byteMask
  · exact hdepth.brings hplaced offset data byteMask

theorem linearRead_inside {c : Chip} (hrow : c.frame.layout.rowPixels.toNat ≤ 8191) {offset base : UInt32} {n : Nat}
    (hbase : c.linearReadBase c.linearMode = some base)
    (hn : (n : Int) = pixelByte base c.frame.layout.rowPixels (readColumn offset) (c.readRow offset))
    (hinside : n < c.frame.memory.size) :
    c.linearRead offset = c.linearMode.readOrder (c.frame.memory.pairAt n) := by
  rw [c.linearRead_eq hrow, hbase]
  dsimp only
  rw [← hn, if_pos (by omega)]
  rfl

theorem linearMode_paint (c : Chip) (draw : Canvas → Canvas) : (c.paint draw).linearMode = c.linearMode := by
  rw [linearMode, get_paint c draw Reg.lfbMode rfl, linearMode]

theorem readRow_paint (c : Chip) (draw : Canvas → Canvas) (offset : UInt32) :
    (c.paint draw).readRow offset = c.readRow offset := by
  rw [readRow, linearMode_paint]
  rfl

theorem size_linearWrite (c : Chip) (offset data byteMask : UInt32) :
    (c.linearWrite offset data byteMask).frame.memory.size = c.frame.memory.size := by
  have hlog : (c.linearWrite offset data byteMask).frame.memory.logSize = c.frame.memory.logSize :=
    congrArg Shape.frameLog (shape_linearWrite c offset data byteMask)
  rw [Memory.size, Memory.size, Memory.size_eq, Memory.size_eq, hlog]

/-- a read after a direct write of the same pair gives what was written, and what it gave before where the byte mask is
clear -/
theorem linearRead_linearWrite {c : Chip} (h : c.LinearEcho) (hplaced : c.Placed)
    (hm : c.frame.memory.size ≤ 4294967296) (offset data : UInt32) {byteMask : UInt32} (hmask : IsHalfMask byteMask)
    (hinside : ∀ base ∈ c.linearReadBase c.linearMode,
      pixelByte base c.frame.layout.rowPixels (readColumn offset) (c.readRow offset) + 3 < c.frame.memory.size) :
    (c.linearWrite offset data byteMask).linearRead offset = merge byteMask data (c.linearRead offset) := by
  obtain ⟨w, color, base, htarget, hread, hbrings⟩ := h.brings hplaced offset data byteMask
  have hscreen := c.onScreen_read offset
  have hrow := hplaced.row_le
  obtain ⟨n, hn⟩ : ∃ n : Nat, (n : Int) =
      pixelByte base c.frame.layout.rowPixels (readColumn offset) (c.readRow offset) :=
    ⟨_, (pixelByte_eq hrow hscreen base).symm⟩
  have hend : n + 3 < c.frame.memory.size := by
    have := hinside base hread
    omega
  -- the pair in the memory
  have hmemory := memory_linearWrite c h.direct htarget
  have hpair : (c.linearWrite offset data byteMask).frame.memory.pairAt n =
      merge (c.swapped byteMask) (c.swapped data) (c.frame.memory.pairAt n) := by
    rw [hmemory]
    refine LinearWrite.pairAt_runDirect w (isHalfMask_swapWord _ _ hmask) hbrings.first hbrings.second ?_ ?_ hm ?_ hend
    · rw [hbrings.column]
      exact hscreen.left
    · rw [hbrings.row]
      exact hscreen.top
    · rw [hbrings.column, hbrings.row]
      exact hn
  -- the read of it
  have hpaint : c.linearWrite offset data byteMask = c.paint (c.linearDraw w color) := by rw [linearWrite_eq, htarget]
  have hsize : (c.linearWrite offset data byteMask).frame.memory.size = c.frame.memory.size :=
    size_linearWrite c offset data byteMask
  have hafter : (c.linearWrite offset data byteMask).linearRead offset =
      c.linearMode.readOrder ((c.linearWrite offset data byteMask).frame.memory.pairAt n) := by
    rw [← linearMode_paint c (c.linearDraw w color), ← hpaint]
    have hread' : (c.linearWrite offset data byteMask).linearReadBase (c.linearWrite offset data byteMask).linearMode =
        some base := by
      rw [hpaint, linearMode_paint]
      exact hread
    refine linearRead_inside ?_ hread' ?_ (by omega)
    · rw [hpaint]
      exact hrow
    · rw [hpaint, readRow_paint]
      exact hn
  have horder := movesBy_readOrder c.linearMode
  have hundo : ∀ v, c.linearMode.readOrder (c.swapped v) = v := fun v => by
    rw [swapped, h.words, h.bytes]
    exact readOrder_swapWord c.linearMode v
  rw [hafter, hpair, horder.merge (swapPlaces_lt _ _), hundo, hundo, linearRead_inside hrow hread hn (by omega)]

/-- **What is written through the linear frame buffer reads back.** A host writes two colors in the format that is
stored, or two depths, through a buffer that it also reads, with the same swaps on both ways and the pixel pipeline off,
at an offset whose two pixels lie inside the memory. Then a read of the same offset gives the word, and in a half that
the byte mask leaves out what a read gave before. -/
theorem linear_echo (c : Chip) (hc : c.Reachable) (offset data byteMask : UInt32) (h : c.flush.LinearEcho)
    (hinside : ∀ base ∈ c.flush.linearReadBase c.flush.linearMode,
      pixelByte base c.flush.frame.layout.rowPixels (readColumn offset) (c.flush.readRow offset) + 3 <
        c.flush.frame.memory.size)
    (hmask : byteMask = 0xFFFFFFFF ∨ byteMask = 0x0000FFFF ∨ byteMask = 0xFFFF0000) :
    ((c.writeLinear offset data byteMask).readLinear offset).2 =
      (data &&& byteMask) ||| ((c.readLinear offset).2 &&& ~~~byteMask) := by
  have hreachable : c.flush.Reachable := hc.run c [.flush]
  have hm : c.flush.frame.memory.size ≤ 4294967296 :=
    Nat.le_trans (memory_size_reachable _ hreachable).1 (by decide)
  have hflush : (c.writeLinear offset data byteMask).flush = c.writeLinear offset data byteMask := by
    refine flush_of_empty _ ?_
    rw [writeLinear, queue_linearWrite, queue_flush]
  show (c.writeLinear offset data byteMask).flush.linearRead offset = _
  rw [hflush]
  exact linearRead_linearWrite h (placed_reachable hreachable) hm offset data hmask hinside

theorem linearEcho_colorBanshee : colorBanshee.flush.LinearEcho := by
  refine ⟨?_, ?_, ?_, .inl ⟨?_, ?_, ?_, .inl ?_⟩⟩ <;> decide +kernel

/-- one of two pixels in the third row -/
theorem linear_echo_pixel :
    ((colorBanshee.writeLinear 0x405 0x07E0F800 0xFFFF0000).readLinear 0x405).2 =
      0x07E00000 ||| ((colorBanshee.readLinear 0x405).2 &&& 0x0000FFFF) := by
  have hreachable : colorBanshee.Reachable := ⟨_, _, _, make_eq_ok.2 ⟨by decide, rfl⟩, rfl⟩
  have hsize : colorBanshee.flush.frame.memory.size = 2 ^ 22 := (size_flush colorBanshee).trans (size_run _ _)
  have hbase : colorBanshee.flush.linearReadBase colorBanshee.flush.linearMode = some 0 := by decide +kernel
  have hpixels : colorBanshee.flush.frame.layout.rowPixels = 128 := by decide +kernel
  have hrow : colorBanshee.flush.readRow 0x405 = 2 := by decide +kernel
  have hcolumn : readColumn 0x405 = 10 := by decide
  have h := colorBanshee.linear_echo hreachable 0x405 0x07E0F800 0xFFFF0000 linearEcho_colorBanshee
    (fun base hread => by
      cases hbase.symm.trans hread
      rw [hsize, hpixels, hrow, hcolumn]
      decide) (.inr (.inr rfl))
  have hword : (0x07E0F800 : UInt32) &&& 0xFFFF0000 = 0x07E00000 := by decide
  have hkept : ~~~(0xFFFF0000 : UInt32) = 0x0000FFFF := by decide
  rw [← hword, ← hkept]
  exact h

end Chip
end Accel3D
