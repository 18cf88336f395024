/-
The rectangle that a fast fill writes.

A fill stores halfwords, row by row and in each row first those of the color part and then those of the aux part, so it
is one list of writes (`FastFill.writes`, `run_eq`). A row is flipped in ten bits, and the rows of a rectangle have ten
bits, so no two of them come to lie on one row of the screen (`screenRow_inj`). When the rectangle ends within the rows
of the buffer and its halfwords lie inside the memory, pixels of one part are apart, and when the two parts do not
overlap all halfwords are (`apart_writes`). Then no write destroys what another has stored.

Results: `run_eq` (a fill as a list of writes, and what it counts), `fast_fill`.
-/
import Mathlib.Tactic.IntervalCases
import Accel3D.Proofs.Halfword

namespace Accel3D

/-- rows of ten bits stay different rows when they are flipped -/
theorem screenRow_inj {flip : Option Int} {y y' : Nat} (hy : y < 1024) (hy' : y' < 1024)
    (h : screenRow flip y = screenRow flip y') : y = y' := by
  cases flip with
  | none =>
    simp only [screenRow] at h
    omega
  | some origin =>
    simp only [screenRow] at h
    omega

theorem screenRow_nonneg (flip : Option Int) (y : Nat) : 0 ≤ screenRow flip y := by
  cases flip with
  | none => exact Int.natCast_nonneg y
  | some origin => exact Int.emod_nonneg _ (by decide)

theorem Memory.writeAll_append (m : Memory) (writes more : List (UInt32 × UInt16)) :
    m.writeAll (writes ++ more) = (m.writeAll writes).writeAll more :=
  List.foldl_append

/-- a pixel of the rectangle -/
structure ClipRect.Covers (r : ClipRect) (x y : Nat) : Prop where
  left : r.left ≤ x
  right : x < r.right
  low : r.low ≤ y
  high : y < r.high

/-- number of pixels of the rectangle; an inverted one has none -/
def ClipRect.pixels (r : ClipRect) : Nat := (r.right - r.left) * (r.high - r.low)

inductive FillPart where
  | color
  | aux
deriving DecidableEq, Repr

namespace FastFill

/-! ## A fill as a list of writes -/

section Writes

variable (f : FastFill)

def base? : FillPart → Option UInt32
  | .color => f.colorBase
  | .aux => f.auxBase

def valueAt (part : FillPart) (x y : Nat) : UInt16 :=
  match part with
  | .color => f.colorAt y x
  | .aux => f.depth

def addressAt (base : UInt32) (x y : Nat) : UInt32 := f.address base x (screenRow f.flip y)

def rowWrites (y : Nat) (part : FillPart) : List (UInt32 × UInt16) :=
  match f.base? part with
  | none => []
  | some base => (List.range' f.clip.left f.width).map fun x => (f.addressAt base x y, f.valueAt part x y)

def writes : List (UInt32 × UInt16) :=
  (List.range' f.clip.low f.height).flatMap fun y => f.rowWrites y .color ++ f.rowWrites y .aux

/-- the counters after `n` pixels of the rectangle -/
def counted (n : Nat) (c : Counters) : Counters := if f.colorBase.isSome then c.drawn (UInt32.ofNat n) else c

theorem fillRun_eq (base : UInt32) (row : Int) (value : Nat → UInt16) (n x : Nat) (m : Memory) :
    f.fillRun base row value n x m =
      m.writeAll ((List.range' x n).map fun (x : Nat) => (f.address base x row, value x)) := by
  induction n generalizing x m with
  | zero => rfl
  | succ n ih =>
    rw [fillRun, ih, List.range'_succ, List.map_cons]
    rfl

theorem counted_counted (m n : Nat) (c : Counters) : f.counted n (f.counted m c) = f.counted (m + n) c := by
  unfold counted
  split
  · simp only [Counters.drawn, UInt32.ofNat_add, UInt32.add_assoc]
  · rfl

theorem fillColor_eq (y : Nat) (c : Canvas) :
    f.fillColor y c =
      { c with memory := c.memory.writeAll (f.rowWrites y .color), counters := f.counted f.width c.counters } := by
  unfold fillColor counted rowWrites base?
  cases f.colorBase with
  | none => rfl
  | some base => simp only [fillRun_eq, Option.isSome_some, if_true, addressAt, valueAt]

theorem fillAux_eq (y : Nat) (c : Canvas) :
    f.fillAux y c = { c with memory := c.memory.writeAll (f.rowWrites y .aux) } := by
  unfold fillAux rowWrites base?
  cases f.auxBase with
  | none => rfl
  | some base => simp only [fillRun_eq, addressAt, valueAt]

theorem fillRows_eq (n y : Nat) (c : Canvas) :
    f.fillRows n y c =
      { c with
        memory := c.memory.writeAll ((List.range' y n).flatMap fun y => f.rowWrites y .color ++ f.rowWrites y .aux)
        counters := f.counted (f.width * n) c.counters } := by
  induction n generalizing y c with
  | zero =>
    have hnone : f.counted 0 c.counters = c.counters := by
      unfold counted
      split
      · simp [Counters.drawn]
      · rfl
    rw [Nat.mul_zero, hnone]
    rfl
  | succ n ih =>
    have hcount : f.width * (n + 1) = f.width + f.width * n := by rw [Nat.mul_succ, Nat.add_comm]
    rw [fillRows, ih, fillColor_eq, fillAux_eq, List.range'_succ, List.flatMap_cons, Memory.writeAll_append,
      Memory.writeAll_append, hcount, ← counted_counted]

/-- **A fill** stores its list of writes, and counts its pixels if it has a color part. -/
theorem run_eq (c : Canvas) :
    f.run c =
      { c with memory := c.memory.writeAll f.writes, counters := f.counted f.clip.pixels c.counters } :=
  f.fillRows_eq f.height f.clip.low c

variable {f}

theorem mem_rowWrites {part : FillPart} {y : Nat} {w : UInt32 × UInt16} :
    w ∈ f.rowWrites y part ↔ ∃ base ∈ f.base? part, ∃ x, f.clip.left ≤ x ∧ x < f.clip.right ∧
      w = (f.addressAt base x y, f.valueAt part x y) := by
  unfold rowWrites
  cases hbase : f.base? part with
  | none => simp
  | some base =>
    simp only [List.mem_map, List.mem_range'_1, Option.mem_some_iff, exists_eq_left', width]
    constructor
    · rintro ⟨x, hx, rfl⟩
      exact ⟨x, hx.1, by omega, rfl⟩
    · rintro ⟨x, hleft, hright, rfl⟩
      exact ⟨x, ⟨hleft, by omega⟩, rfl⟩

theorem mem_rows {y : Nat} : y ∈ List.range' f.clip.low f.height ↔ f.clip.low ≤ y ∧ y < f.clip.high := by
  rw [List.mem_range'_1, height]
  omega

theorem mem_writes {w : UInt32 × UInt16} :
    w ∈ f.writes ↔ ∃ part, ∃ base ∈ f.base? part, ∃ x y, f.clip.Covers x y ∧
      w = (f.addressAt base x y, f.valueAt part x y) := by
  rw [writes, List.mem_flatMap]
  constructor
  · rintro ⟨y, hy, hw⟩
    rcases mem_rows.1 hy with ⟨hlow, hhigh⟩
    rcases List.mem_append.1 hw with hw | hw
    · obtain ⟨base, hbase, x, hleft, hright, rfl⟩ := mem_rowWrites.1 hw
      exact ⟨.color, base, hbase, x, y, ⟨hleft, hright, hlow, hhigh⟩, rfl⟩
    · obtain ⟨base, hbase, x, hleft, hright, rfl⟩ := mem_rowWrites.1 hw
      exact ⟨.aux, base, hbase, x, y, ⟨hleft, hright, hlow, hhigh⟩, rfl⟩
  · rintro ⟨part, base, hbase, x, y, hcovers, rfl⟩
    refine ⟨y, mem_rows.2 ⟨hcovers.low, hcovers.high⟩, List.mem_append.2 ?_⟩
    have hw : (f.addressAt base x y, f.valueAt part x y) ∈ f.rowWrites y part :=
      mem_rowWrites.2 ⟨base, hbase, x, hcovers.left, hcovers.right, rfl⟩
    cases part with
    | color => exact .inl hw
    | aux => exact .inr hw

end Writes

/-! ## Fills whose halfwords are apart -/

/-- the rectangle ends within the rows of the buffer, the halfwords of its rows lie inside a memory that words can
address, and those of the two parts do not overlap -/
structure Inside (f : FastFill) (m : Memory) : Prop where
  size_le : m.size ≤ 4294967296
  right_le : f.clip.right ≤ f.rowPixels.toNat
  inside : ∀ part, ∀ base ∈ f.base? part, ∀ x y, f.clip.Covers x y →
    pixelByte base f.rowPixels x (screenRow f.flip y) + 1 < m.size
  separate : ∀ color ∈ f.colorBase, ∀ aux ∈ f.auxBase, ∀ x y x' y', f.clip.Covers x y → f.clip.Covers x' y' →
    m.Apart (f.addressAt color x y) (f.addressAt aux x' y')

variable {f : FastFill} {m : Memory}

theorem Inside.pixelInside (h : f.Inside m) {part : FillPart} {base : UInt32} (hbase : base ∈ f.base? part) {x y : Nat}
    (hcovers : f.clip.Covers x y) : PixelInside base f.rowPixels m.size x (screenRow f.flip y) where
  left := Int.natCast_nonneg x
  right := by
    have hright := hcovers.right
    have hrow := h.right_le
    omega
  top := screenRow_nonneg f.flip y
  inside := h.inside part base hbase x y hcovers

theorem Inside.apart_part (h : f.Inside m) (hrows : f.clip.high ≤ 1024) {part : FillPart} {base : UInt32}
    (hbase : base ∈ f.base? part) {x y x' y' : Nat} (hcovers : f.clip.Covers x y) (hcovers' : f.clip.Covers x' y')
    (hne : (x, y) ≠ (x', y')) : m.Apart (f.addressAt base x y) (f.addressAt base x' y') := by
  refine PixelInside.apart ⟨base, none, f.rowPixels⟩ rfl h.size_le (h.pixelInside hbase hcovers)
    (h.pixelInside hbase hcovers') ?_
  intro hsame
  obtain ⟨hx, hy⟩ := Prod.mk.inj hsame
  have hrow := screenRow_inj (Nat.lt_of_lt_of_le hcovers.high hrows) (Nat.lt_of_lt_of_le hcovers'.high hrows) hy
  exact hne (by rw [Int.natCast_inj.1 hx, hrow])

theorem apart_comm {a b : UInt32} (h : m.Apart a b) : m.Apart b a := fun x hx y hy => (h y hy x hx).symm

/-- pixels of the two parts, or different pixels of one, are apart -/
theorem Inside.apart (h : f.Inside m) (hrows : f.clip.high ≤ 1024) {part part' : FillPart} {base base' : UInt32}
    (hbase : base ∈ f.base? part) (hbase' : base' ∈ f.base? part') {x y x' y' : Nat} (hcovers : f.clip.Covers x y)
    (hcovers' : f.clip.Covers x' y') (hne : (part, x, y) ≠ (part', x', y')) :
    m.Apart (f.addressAt base x y) (f.addressAt base' x' y') := by
  by_cases hpart : part = part'
  · subst hpart
    obtain rfl := Option.mem_unique hbase hbase'
    exact h.apart_part hrows hbase hcovers hcovers' fun e => hne (by rw [e])
  · cases part with
    | color => cases part' with
      | color => exact absurd rfl hpart
      | aux => exact h.separate base hbase base' hbase' x y x' y' hcovers hcovers'
    | aux => cases part' with
      | color => exact apart_comm (h.separate base' hbase' base hbase x' y' x y hcovers' hcovers)
      | aux => exact absurd rfl hpart

/-- **No write of a fill overlaps another.** -/
theorem apart_writes (h : f.Inside m) (hrows : f.clip.high ≤ 1024) :
    f.writes.Pairwise fun w w' => m.Apart w.1 w'.1 := by
  -- rows of the rectangle, as they stand in the list
  have hrange : (List.range' f.clip.low f.height).Pairwise (· < ·) := List.pairwise_lt_range'
  refine List.pairwise_flatMap.2 ⟨?_, ?_⟩
  · intro y hy
    rcases mem_rows.1 hy with ⟨hlow, hhigh⟩
    have hpart : ∀ part, (f.rowWrites y part).Pairwise fun w w' => m.Apart w.1 w'.1 := by
      intro part
      unfold rowWrites
      cases hbase : f.base? part with
      | none => exact List.Pairwise.nil
      | some base =>
        refine List.pairwise_map.2 (List.Pairwise.imp_of_mem ?_ List.pairwise_lt_range')
        intro x x' hx hx' hlt
        simp only [List.mem_range'_1, width] at hx hx'
        exact h.apart hrows hbase hbase ⟨hx.1, by omega, hlow, hhigh⟩ ⟨hx'.1, by omega, hlow, hhigh⟩ (by simp; omega)
    refine List.pairwise_append.2 ⟨hpart .color, hpart .aux, ?_⟩
    intro w hw w' hw'
    obtain ⟨base, hbase, x, hleft, hright, rfl⟩ := mem_rowWrites.1 hw
    obtain ⟨base', hbase', x', hleft', hright', rfl⟩ := mem_rowWrites.1 hw'
    exact h.apart hrows hbase hbase' ⟨hleft, hright, hlow, hhigh⟩ ⟨hleft', hright', hlow, hhigh⟩ (by simp)
  · refine List.Pairwise.imp_of_mem ?_ hrange
    intro y y' hy hy' hlt w hw w' hw'
    rcases mem_rows.1 hy with ⟨hlow, hhigh⟩
    rcases mem_rows.1 hy' with ⟨hlow', hhigh'⟩
    have hmem : ∀ {y : Nat} {w : UInt32 × UInt16}, w ∈ f.rowWrites y .color ++ f.rowWrites y .aux →
        ∃ part, w ∈ f.rowWrites y part := by
      intro y w hw
      rcases List.mem_append.1 hw with hw | hw
      · exact ⟨.color, hw⟩
      · exact ⟨.aux, hw⟩
    obtain ⟨part, hw⟩ := hmem hw
    obtain ⟨part', hw'⟩ := hmem hw'
    obtain ⟨base, hbase, x, hleft, hright, rfl⟩ := mem_rowWrites.1 hw
    obtain ⟨base', hbase', x', hleft', hright', rfl⟩ := mem_rowWrites.1 hw'
    exact h.apart hrows hbase hbase' ⟨hleft, hright, hlow, hhigh⟩ ⟨hleft', hright', hlow', hhigh'⟩ (by simp; omega)

theorem Inside.read16 (h : f.Inside m) (hrows : f.clip.high ≤ 1024) {part : FillPart} {base : UInt32}
    (hbase : base ∈ f.base? part) {x y : Nat} (hcovers : f.clip.Covers x y) :
    (m.writeAll f.writes).read16 (f.addressAt base x y) = f.valueAt part x y := by
  have hmore : 1 < m.size := by
    have hpixel := h.pixelInside hbase hcovers
    have hnonneg := hpixel.nonneg
    have hinside := hpixel.inside
    omega
  have hmem : (f.addressAt base x y, f.valueAt part x y) ∈ f.writes :=
    mem_writes.2 ⟨part, base, hbase, x, y, hcovers, rfl⟩
  have hread := m.read16_writeAll f.writes hmore (apart_writes h hrows) _ hmem
  exact hread

theorem high_ofRegisters (regs : RegisterFile) (layout : FrameLayout) (drawOffset : Option UInt32) :
    (ofRegisters regs layout drawOffset).clip.high ≤ 1024 :=
  Nat.le_of_lt (field_lt (regs.get Reg.clipLowYHighY) 0 10)

end FastFill

/-- **A fast fill writes exactly the clip rectangle.** For every register file, layout and draw buffer, when the rectangle
ends within the rows of the buffer, the halfwords that are to be written lie inside the memory and those of the two parts
do not overlap. Then at each pixel of the rectangle the color buffer, if there is one and color is written, holds color 1
dithered for the raster row, and the aux buffer, if there is one and depth is written, holds the low half of zaColor, both
on the row of the screen; every byte of no such halfword is as it was. The pixels drawn go up by the number of pixels in
the rectangle if color was written. Nothing else changes on the frame buffer side, nor does the stipple register. -/
theorem FrameBuffer.fast_fill (f : FrameBuffer) (regs : RegisterFile) (drawOffset : Option UInt32) (stipple : UInt32)
    (h : (FastFill.ofRegisters regs f.layout drawOffset).Inside f.memory) :
    let mode := FrameMode.decode (regs.get Reg.fbzMode)
    let clip := ClipRect.decode (regs.get Reg.clipLeftRight) (regs.get Reg.clipLowYHighY)
    let color := Argb.ofWord (regs.get Reg.color1)
    let address (base : UInt32) (x y : Nat) : UInt32 :=
      (f.surface base).color x (screenRow (f.layout.flip mode.flipY) y)
    let filled := f.paint stipple (FastFill.ofRegisters regs f.layout drawOffset).run
    (mode.writeColor = true → ∀ base ∈ drawOffset, ∀ x y, clip.Covers x y →
      filled.1.memory.read16 (address base x y) =
        (Dither.ofMode mode y).quantize x color.r.toNat color.g.toNat color.b.toNat) ∧
    (mode.writeAux = true → ∀ base ∈ f.layout.aux, ∀ x y, clip.Covers x y →
      filled.1.memory.read16 (address base x y) = (regs.get Reg.zaColor).toUInt16) ∧
    (∀ a,
      (mode.writeColor = true → ∀ base ∈ drawOffset, ∀ x y, clip.Covers x y →
        ∀ b ∈ Memory.halfword (address base x y), f.memory.index a ≠ f.memory.index b) →
      (mode.writeAux = true → ∀ base ∈ f.layout.aux, ∀ x y, clip.Covers x y →
        ∀ b ∈ Memory.halfword (address base x y), f.memory.index a ≠ f.memory.index b) →
      filled.1.memory.read8 a = f.memory.read8 a) ∧
    filled.1.memory.size = f.memory.size ∧
    filled =
      ({ f with
          memory := filled.1.memory
          counters :=
            if mode.writeColor && drawOffset.isSome then f.counters.drawn (UInt32.ofNat clip.pixels) else f.counters },
        stipple) := by
  intro mode clip color address filled
  obtain ⟨fill, hfill⟩ : ∃ fill, fill = FastFill.ofRegisters regs f.layout drawOffset := ⟨_, rfl⟩
  have hrows : fill.clip.high ≤ 1024 := hfill ▸ FastFill.high_ofRegisters regs f.layout drawOffset
  have hclip : fill.clip = clip := by rw [hfill]; rfl
  have haddress : ∀ base x y, fill.addressAt base x y = address base x y := by
    intro base x y
    rw [hfill]
    rfl
  have hcolor : fill.base? .color = if mode.writeColor then drawOffset else none := by rw [hfill]; rfl
  have haux : fill.base? .aux = if mode.writeAux then f.layout.aux else none := by rw [hfill]; rfl
  have hfilled : filled =
      ({ f with
          memory := f.memory.writeAll fill.writes
          counters := fill.counted clip.pixels f.counters }, stipple) := by
    have hrun := fill.run_eq ⟨f.memory, f.counters, stipple⟩
    simp only [filled, FrameBuffer.paint, ← hfill, hrun, hclip]
  have hmemory : filled.1.memory = f.memory.writeAll fill.writes := by rw [hfilled]
  rw [← hfill] at h
  refine ⟨?_, ?_, ?_, ?_, ?_⟩
  · intro hwrite base hbase x y hcovers
    have hmem : base ∈ fill.base? .color := by rw [hcolor, if_pos hwrite]; exact hbase
    have hread := h.read16 hrows hmem (hclip ▸ hcovers)
    rw [← hmemory, haddress] at hread
    rw [hread, hfill]
    rfl
  · intro hwrite base hbase x y hcovers
    have hmem : base ∈ fill.base? .aux := by rw [haux, if_pos hwrite]; exact hbase
    have hread := h.read16 hrows hmem (hclip ▸ hcovers)
    rw [← hmemory, haddress] at hread
    rw [hread, hfill]
    rfl
  · intro a hcolors hdepths
    rw [hmemory]
    refine f.memory.read8_writeAll_of_ne fill.writes a ?_
    intro w hw b hb
    obtain ⟨part, base, hbase, x, y, hcovers, rfl⟩ := FastFill.mem_writes.1 hw
    rw [haddress] at hb
    rw [hclip] at hcovers
    cases part with
    | color =>
      rw [hcolor] at hbase
      split at hbase
      next hwrite => exact hcolors hwrite base hbase x y hcovers b hb
      next => cases hbase
    | aux =>
      rw [haux] at hbase
      split at hbase
      next hwrite => exact hdepths hwrite base hbase x y hcovers b hb
      next => cases hbase
  · rw [hmemory, Memory.size_writeAll]
  · have hsome : fill.colorBase.isSome = (mode.writeColor && drawOffset.isSome) := by
      rw [show fill.colorBase = _ from hcolor]
      cases mode.writeColor <;> rfl
    rw [hfilled, FastFill.counted, hsome]

/-- a small frame buffer with eight rows of eight pixels, its depths behind its colors, and rows flipped about row 7 -/
def flippedFrame : FrameBuffer := { FrameBuffer.initial 8 with layout := ⟨#v[some 0, none, none], some 128, 8, 7⟩ }

/-- registers for a fill of columns 1 and 2 in rows 2 and 3, red with depth 0x1234 -/
def redFill : RegisterFile :=
  ((((RegisterFile.zero.set Reg.fbzMode 0x20600).set Reg.clipLeftRight 0x10003).set Reg.clipLowYHighY 0x20004).set
    Reg.color1 0xFFFF0000).set Reg.zaColor 0x1234

theorem inside_redFill :
    (FastFill.ofRegisters redFill flippedFrame.layout (some 0)).Inside flippedFrame.memory := by
  obtain ⟨fill, hfill⟩ : ∃ fill, fill = FastFill.ofRegisters redFill flippedFrame.layout (some 0) := ⟨_, rfl⟩
  have hclip : fill.clip = ⟨1, 3, 2, 4⟩ := by rw [hfill]; decide +kernel
  have hrow : fill.rowPixels = 8 := by rw [hfill]; decide +kernel
  have hflip : fill.flip = some 7 := by rw [hfill]; decide +kernel
  have hcolor : fill.base? .color = some 0 := by rw [hfill]; decide +kernel
  have haux : fill.base? .aux = some 128 := by rw [hfill]; decide +kernel
  have hsize : flippedFrame.memory.size = 256 := size_filledBytes 0 8
  -- where its four pixels are
  have hbounds : ∀ x y, fill.clip.Covers x y → 1 ≤ x ∧ x < 3 ∧ 2 ≤ y ∧ y < 4 := by
    intro x y h
    rw [hclip] at h
    exact ⟨h.left, h.right, h.low, h.high⟩
  have haddress : ∀ x y, fill.clip.Covers x y →
      (fill.addressAt 0 x y).toNat + 1 < 128 ∧ 128 ≤ (fill.addressAt 128 x y).toNat ∧
        (fill.addressAt 128 x y).toNat + 1 < 256 := by
    intro x y h
    obtain ⟨hx, hx', hy, hy'⟩ := hbounds x y h
    simp only [FastFill.addressAt, FastFill.address, hflip, hrow]
    interval_cases x <;> interval_cases y <;> decide
  rw [← hfill]
  refine ⟨?_, ?_, ?_, ?_⟩
  · rw [hsize]
    decide
  · rw [hclip, hrow]
    decide
  · intro part base hbase x y h
    obtain ⟨hx, hx', hy, hy'⟩ := hbounds x y h
    rw [hsize, hflip, hrow]
    cases part with
    | color =>
      obtain rfl := Option.some.inj (hcolor.symm.trans hbase)
      interval_cases x <;> interval_cases y <;> decide
    | aux =>
      obtain rfl := Option.some.inj (haux.symm.trans hbase)
      interval_cases x <;> interval_cases y <;> decide
  · intro color hbase aux hbase' x y x' y' h h'
    obtain rfl := Option.some.inj (hcolor.symm.trans hbase)
    obtain rfl := Option.some.inj (haux.symm.trans hbase')
    have hfirst := haddress x y h
    have hsecond := haddress x' y' h'
    refine Memory.apart_of_inside ?_ ?_ ?_ (.inl ?_) <;> omega

/-- column 1 of row 2, which is row 5 of the screen, and the four pixels counted -/
theorem fast_fill_flipped :
    let filled := flippedFrame.paint 0 (FastFill.ofRegisters redFill flippedFrame.layout (some 0)).run
    filled.1.memory.read16 82 = 0xF800 ∧ filled.1.memory.read16 210 = 0x1234 ∧ filled.1.counters.pixelsOut = 4 := by
  intro filled
  obtain ⟨hcolor, haux, -, -, hrest⟩ := flippedFrame.fast_fill redFill (some 0) 0 inside_redFill
  have hcovers : (ClipRect.decode (redFill.get Reg.clipLeftRight) (redFill.get Reg.clipLowYHighY)).Covers 1 2 := by
    refine ⟨?_, ?_, ?_, ?_⟩ <;> decide +kernel
  refine ⟨?_, ?_, ?_⟩
  · have hread := hcolor (by decide +kernel) 0 rfl 1 2 hcovers
    exact hread.trans (by decide +kernel)
  · have hread := haux (by decide +kernel) 128 rfl 1 2 hcovers
    exact hread.trans (by decide +kernel)
  · have hcounters := congrArg (fun p => p.1.counters.pixelsOut) hrest
    exact hcounters.trans (by decide +kernel)

end Accel3D
