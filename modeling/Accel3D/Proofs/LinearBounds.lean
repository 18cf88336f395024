/-
The bytes that linear accesses touch.

A direct write stores a pixel of two bytes if its first byte lies inside the memory, and a read gives two pixels if the
first byte of the first one does. So a pixel at the very end of the memory can wrap: where a buffer has been moved to
the last address, its first pixel has its second byte at address 0; and a read of two pixels of which the second lies
past the end takes that one from the start of the memory. Everything else that linear accesses touch lies at the address
that plain arithmetic gives.

Results: `read8_runDirect` (what a direct write leaves alone), `linearRead_eq` (what a read gives), `linear_bounds`
(both, with the cases that wrap, in every state that a run reaches), `linear_write_wraps` (a write that does).
-/
import Accel3D.Proofs.BusOrder
import Accel3D.Proofs.LinearPaths
import Accel3D.Proofs.Placement
import Accel3D.Proofs.Texels

namespace Accel3D

/-! ## Places on the screen -/

/-- a column and a row that a linear access can name; the second pixel of a write may lie in column 1024 -/
structure OnScreen (x y : Int) : Prop where
  left : 0 ≤ x
  right : x ≤ 1024
  top : 0 ≤ y
  bottom : y ≤ 1023

theorem screenRow_range (flip : Option Int) {y : Int} (h : 0 ≤ y) (h' : y ≤ 1023) :
    0 ≤ screenRow flip y ∧ screenRow flip y ≤ 1023 := by
  unfold screenRow
  split
  · exact ⟨h, h'⟩
  · omega

section Pixel

variable {row : UInt32} {x y : Int}

/-- the number of a pixel in its buffer is counted without a wrap when rows are short -/
theorem toNat_pixel (hrow : row.toNat ≤ 8191) (h : OnScreen x y) :
    ((UInt32.ofInt y * row + UInt32.ofInt x).toNat : Int) = y * row.toNat + x := by
  have hx := h.left
  have hx' := h.right
  have hproduct : y * (row.toNat : Int) ≤ 1023 * 8191 :=
    Int.mul_le_mul h.bottom (by omega) (Int.natCast_nonneg _) (by decide)
  have hnonneg : 0 ≤ y * (row.toNat : Int) := Int.mul_nonneg h.top (Int.natCast_nonneg _)
  have hword : UInt32.ofInt y * row + UInt32.ofInt x = UInt32.ofInt (y * row.toNat + x) := by
    rw [UInt32.ofInt_add, UInt32.ofInt_mul, ofInt32_toNat]
  rw [hword, toNat_ofInt32 _ (by omega) (by omega)]
  omega

theorem pixelByte_eq (hrow : row.toNat ≤ 8191) (h : OnScreen x y) (base : UInt32) :
    pixelByte base row x y = base.toNat + 2 * (UInt32.ofInt y * row + UInt32.ofInt x).toNat := by
  rw [toNat_pixel hrow h]
  rfl

end Pixel

/-! ## Direct writes -/

namespace Memory

/-- byte `i` is one of the two of a halfword that starts at byte `n`, inside a memory of this size; at the end of the
memory the second one is its first byte -/
def Holds (size n i : Nat) : Prop := n < size ∧ (i = n ∨ i = (n + 1) % size)

theorem index_halfword {m : Memory} (hm : m.size ≤ 4294967296) {address : UInt32} (h : address.toNat < m.size) :
    ∀ b ∈ halfword address, Holds m.size address.toNat (m.index b) := by
  intro b hb
  refine ⟨h, ?_⟩
  obtain rfl | hb := List.mem_cons.1 hb
  · exact .inl (Nat.mod_eq_of_lt h)
  · obtain rfl := List.mem_singleton.1 hb
    refine .inr ?_
    have hnext := m.index_add address 1
    rwa [m.places_eq_size hm] at hnext

end Memory

namespace LinearWrite

theorem size_storeInside (m : Memory) (base pixel : UInt32) (v : UInt16) :
    (storeInside m base pixel v).size = m.size := by
  unfold storeInside
  split
  · exact m.size_write16 _ v
  · rfl

theorem index_storeInside (m : Memory) (base pixel : UInt32) (v : UInt16) (a : UInt32) :
    (storeInside m base pixel v).index a = m.index a := by
  show a.toNat % (storeInside m base pixel v).size = a.toNat % m.size
  rw [size_storeInside]

/-- a halfword that is stored changes its own bytes only -/
theorem read8_storeInside {m : Memory} (hm : m.size ≤ 4294967296) (base pixel : UInt32) (v : UInt16) (a : UInt32)
    (h : ¬ Memory.Holds m.size (base.toNat + 2 * pixel.toNat) (m.index a)) :
    (storeInside m base pixel v).read8 a = m.read8 a := by
  unfold storeInside
  split
  · rename_i hinside
    have haddress : (base + 2 * pixel).toNat = base.toNat + 2 * pixel.toNat := by
      have htwo : (2 : UInt32).toNat = 2 := rfl
      rw [UInt32.toNat_add, UInt32.toNat_mul, htwo]
      omega
    refine m.read8_write16_of_ne _ a v fun b hb hindex => h ?_
    rw [hindex, ← haddress]
    exact Memory.index_halfword hm (by omega) b hb
  · rfl

/-- the halfwords that a pixel at column `x` brings, each with its buffer -/
def halfwords (mode : FrameMode) (s : Surface) (y x : Int) (q : LinearPixel) : List (UInt32 × UInt16) :=
  if !q.parts.any then []
  else
    let value := (Dither.ofMode mode y).quantize x q.color.r.toNat q.color.g.toNat q.color.b.toNat
    (if q.parts.color then [(s.colorBase, value)] else []) ++
      match s.auxBase, auxValue mode q with
      | some base, some v => [(base, v)]
      | _, _ => []

def storeAll (m : Memory) (pixel : UInt32) (hs : List (UInt32 × UInt16)) : Memory :=
  hs.foldl (fun m h => storeInside m h.1 pixel h.2) m

theorem size_storeAll (m : Memory) (pixel : UInt32) (hs : List (UInt32 × UInt16)) :
    (storeAll m pixel hs).size = m.size := by
  induction hs generalizing m with
  | nil => rfl
  | cons h hs ih => exact (ih _).trans (size_storeInside m h.1 pixel h.2)

theorem base_of_mem_halfwords {mode : FrameMode} {s : Surface} {y x : Int} {q : LinearPixel} {h : UInt32 × UInt16}
    (hmem : h ∈ halfwords mode s y x q) : h.1 = s.colorBase ∨ s.auxBase = some h.1 := by
  unfold halfwords at hmem
  split at hmem
  · cases hmem
  · obtain hcolor | haux := List.mem_append.1 hmem
    · split at hcolor
      · rw [List.mem_singleton.1 hcolor]
        exact .inl rfl
      · cases hcolor
    · split at haux
      · rename_i base v hbase hv
        rw [List.mem_singleton.1 haux]
        exact .inr hbase
      · cases haux

theorem memory_storePixel (mode : FrameMode) (s : Surface) (y x : Int) (pixel : UInt32) (q : LinearPixel) (c : Canvas) :
    (storePixel mode s y x pixel q c).memory = storeAll c.memory pixel (halfwords mode s y x q) := by
  unfold storePixel halfwords
  split
  · rfl
  · dsimp only
    rw [storeAll, List.foldl_append]
    have hcolor : ∀ v, (if q.parts.color then [(s.colorBase, v)] else []).foldl
        (fun m (h : UInt32 × UInt16) => storeInside m h.1 pixel h.2) c.memory =
          if q.parts.color then storeInside c.memory s.colorBase pixel v else c.memory := fun v => by
      split <;> rfl
    rw [hcolor]
    cases s.auxBase with
    | none => rfl
    | some base => cases auxValue mode q <;> rfl

theorem memory_runDirect (w : LinearWrite) (mode : FrameMode) (s : Surface) (c : Canvas) :
    (w.runDirect mode s c).memory =
      storeAll (storeAll c.memory (UInt32.ofInt w.screenY * s.rowPixels + UInt32.ofInt w.x)
        (halfwords mode s w.y w.x w.pixels.first))
        (UInt32.ofInt w.screenY * s.rowPixels + UInt32.ofInt (w.x + 1))
        (halfwords mode s w.y (w.x + 1) w.pixels.second) := by
  have hnext : UInt32.ofInt w.screenY * s.rowPixels + UInt32.ofInt w.x + 1 =
      UInt32.ofInt w.screenY * s.rowPixels + UInt32.ofInt (w.x + 1) := by
    rw [UInt32.ofInt_add, ← UInt32.add_assoc]
    rfl
  rw [runDirect, memory_storePixel, memory_storePixel, hnext]

theorem read8_storeAll {m : Memory} (hm : m.size ≤ 4294967296) (pixel : UInt32) (hs : List (UInt32 × UInt16))
    (a : UInt32) (h : ∀ x ∈ hs, ¬ Memory.Holds m.size (x.1.toNat + 2 * pixel.toNat) (m.index a)) :
    (storeAll m pixel hs).read8 a = m.read8 a := by
  induction hs generalizing m with
  | nil => rfl
  | cons x hs ih =>
    have hfirst := read8_storeInside hm x.1 pixel x.2 a (h x List.mem_cons_self)
    have hsize := size_storeInside m x.1 pixel x.2
    refine (ih (by rwa [hsize]) fun x' hx' => ?_).trans hfirst
    rw [hsize, index_storeInside]
    exact h x' (List.mem_cons_of_mem _ hx')

theorem onScreen_of_decode {mode : LinearMode} {layout : FrameLayout} {za offset data byteMask : UInt32}
    {w : LinearWrite} (h : decode? mode layout za offset data byteMask = some w) :
    OnScreen w.x w.screenY ∧ OnScreen (w.x + 1) w.screenY := by
  have hplace : ∀ place : UInt32,
      OnScreen (field place 0 10) (screenRow (layout.flip mode.flipY) (field place 10 10)) ∧
        OnScreen (field place 0 10 + 1) (screenRow (layout.flip mode.flipY) (field place 10 10)) := by
    intro place
    have hcolumn := field_lt place 0 10
    have hraster := field_lt place 10 10
    obtain ⟨htop, hbottom⟩ := screenRow_range (layout.flip mode.flipY) (Int.natCast_nonneg (field place 10 10))
      (by omega)
    exact ⟨⟨by omega, by omega, htop, hbottom⟩, ⟨by omega, by omega, htop, hbottom⟩⟩
  obtain ⟨format, -, rfl⟩ := Option.map_eq_some_iff.1 h
  exact hplace _

/-- **What a direct write leaves alone.** Only bytes of its two pixels change, each in the color buffer or in the aux
buffer. -/
theorem read8_runDirect (w : LinearWrite) (mode : FrameMode) (s : Surface) (c : Canvas)
    (hm : c.memory.size ≤ 4294967296) (a : UInt32)
    (h : ∀ base, base = s.colorBase ∨ s.auxBase = some base → ∀ x, x = w.x ∨ x = w.x + 1 →
      ¬ Memory.Holds c.memory.size
        (base.toNat + 2 * (UInt32.ofInt w.screenY * s.rowPixels + UInt32.ofInt x).toNat) (c.memory.index a)) :
    (w.runDirect mode s c).memory.read8 a = c.memory.read8 a := by
  have hindex : ∀ pixel hs, (storeAll c.memory pixel hs).index a = c.memory.index a := fun pixel hs => by
    show a.toNat % (storeAll c.memory pixel hs).size = a.toNat % c.memory.size
    rw [size_storeAll]
  rw [memory_runDirect, read8_storeAll, read8_storeAll hm]
  · exact fun x hx => h x.1 (base_of_mem_halfwords hx) _ (.inl rfl)
  · rwa [size_storeAll]
  · intro x hx
    rw [size_storeAll, hindex]
    exact h x.1 (base_of_mem_halfwords hx) _ (.inr rfl)

end LinearWrite

/-! ## Reads -/

/-- the two halfwords from byte `n` on -/
def Memory.pairAt (m : Memory) (n : Nat) : UInt32 :=
  ofHalves (m.read16 (UInt32.ofNat n)) (m.read16 (UInt32.ofNat n + 2))

namespace Chip

def linearMode (c : Chip) : LinearMode := LinearMode.decode (c.regs.get Reg.lfbMode)

def readColumn (offset : UInt32) : Int := (field offset 0 9 * 2 : Nat)

def readRow (c : Chip) (offset : UInt32) : Int := screenRow (c.frame.layout.flip c.linearMode.flipY) (field offset 9 10)

theorem onScreen_read (c : Chip) (offset : UInt32) : OnScreen (readColumn offset) (c.readRow offset) := by
  have hcolumn := field_lt offset 0 9
  have hraster := field_lt offset 9 10
  obtain ⟨htop, hbottom⟩ := screenRow_range (c.frame.layout.flip c.linearMode.flipY)
    (Int.natCast_nonneg (field offset 9 10)) (by omega)
  refine ⟨Int.natCast_nonneg _, ?_, htop, hbottom⟩
  unfold readColumn
  omega

/-- **What a read gives**: the two pixels from the byte on where the first one starts, if that lies inside the memory,
and all ones otherwise. -/
theorem linearRead_eq (c : Chip) (hrow : c.frame.layout.rowPixels.toNat ≤ 8191) (offset : UInt32) :
    c.linearRead offset =
      match c.linearReadBase c.linearMode with
      | none => 0xFFFFFFFF
      | some base =>
        if pixelByte base c.frame.layout.rowPixels (readColumn offset) (c.readRow offset) < c.frame.memory.size then
          c.linearMode.readOrder (c.frame.memory.pairAt
            (pixelByte base c.frame.layout.rowPixels (readColumn offset) (c.readRow offset)).toNat)
        else 0xFFFFFFFF := by
  obtain ⟨pixel, hpixel⟩ : ∃ pixel, pixel =
      UInt32.ofInt (c.readRow offset) * c.frame.layout.rowPixels + UInt32.ofInt (readColumn offset) := ⟨_, rfl⟩
  have hread : c.linearRead offset =
      match c.linearReadBase c.linearMode with
      | none => 0xFFFFFFFF
      | some base =>
        if base.toNat + 2 * pixel.toNat < c.frame.memory.size then
          c.linearMode.readOrder
            (ofHalves (c.frame.memory.read16 (base + 2 * pixel)) (c.frame.memory.read16 (base + 2 * pixel + 2)))
        else 0xFFFFFFFF := by
    rw [hpixel, readColumn, ofInt32_natCast]
    rfl
  rw [hread]
  cases c.linearReadBase c.linearMode with
  | none => rfl
  | some base =>
    have hstart := pixelByte_eq hrow (c.onScreen_read offset) base
    rw [← hpixel] at hstart
    have haddress : UInt32.ofNat (base.toNat + 2 * pixel.toNat) = base + 2 * pixel := by
      rw [UInt32.ofNat_add, UInt32.ofNat_mul, UInt32.ofNat_toNat, UInt32.ofNat_toNat]
      rfl
    have hnumber : (pixelByte base c.frame.layout.rowPixels (readColumn offset) (c.readRow offset)).toNat =
        base.toNat + 2 * pixel.toNat := by omega
    have hinside : pixelByte base c.frame.layout.rowPixels (readColumn offset) (c.readRow offset) <
        c.frame.memory.size ↔ base.toNat + 2 * pixel.toNat < c.frame.memory.size := by omega
    simp only [hnumber, hinside, Memory.pairAt, haddress]

/-! ## Reachable states -/

theorem megabyte_dvd_size (c : Chip) (hc : c.Reachable) : 2 ^ 20 ∣ c.frame.memory.size := by
  obtain ⟨-, hs⟩ := shape_reachable c hc
  have hlog : c.frame.memory.logSize = ChipConfig.logBytes c.config.frameMegabytes := congrArg Shape.frameLog hs
  rw [Memory.size, Memory.size_eq, hlog, ChipConfig.logBytes]
  exact Nat.pow_dvd_pow 2 (Nat.le_add_right _ _)

end Chip

/-- a byte that a direct write of a pixel of a buffer may change: one of the pixel's own two, if it lies inside the
memory; or the first byte of the memory, if the buffer has been moved to the last address and the pixel is its first -/
inductive PixelByte (v : Revision) (m : Memory) (base row : UInt32) (x y : Int) (i : Nat) : Prop
  | low (inside : i < m.size) (place : i = pixelByte base row x y)
  | high (inside : i < m.size) (place : i = pixelByte base row x y + 1)
  | wrapped (first : i = 0) (revision : v.hasBansheeLayout = false) (moved : base = m.mask)
      (start : pixelByte base row x y = base.toNat)

section Wraps

variable {v : Revision} {m : Memory} {base row : UInt32} {x y : Int} {n i : Nat}

/-- a pixel of a buffer in place starts at the last byte only if it is the first of a buffer that was moved there -/
theorem InPlace.last_byte (h : InPlace v m.mask base) (hm : m.size ≤ 4294967296) (heven : 2 ∣ m.size)
    (hn : (n : Int) = pixelByte base row x y) (hpixel : 0 ≤ y * (row.toNat : Int) + x) (hlast : n + 1 = m.size) :
    v.hasBansheeLayout = false ∧ base = m.mask ∧ pixelByte base row x y = base.toNat := by
  have hmask := m.toNat_mask
  rw [m.places_eq_size hm] at hmask
  unfold pixelByte at hn ⊢
  obtain haligned | ⟨hb, rfl⟩ := h.aligned
  · omega
  · exact ⟨hb, rfl, by omega⟩

/-- the bytes of a pixel that starts inside the memory -/
theorem pixelByte_of_holds (h : InPlace v m.mask base) (hm : m.size ≤ 4294967296) (heven : 2 ∣ m.size)
    (hn : (n : Int) = pixelByte base row x y) (hpixel : 0 ≤ y * (row.toNat : Int) + x)
    (hi : Memory.Holds m.size n i) : PixelByte v m base row x y i := by
  obtain ⟨hinside, rfl | rfl⟩ := hi
  · exact .low hinside hn
  · obtain hnext | hlast := Nat.lt_or_eq_of_le (Nat.succ_le_of_lt hinside)
    · rw [Nat.mod_eq_of_lt hnext]
      exact .high hnext (by omega)
    · obtain ⟨hb, hmoved, hstart⟩ := h.last_byte hm heven hn hpixel hlast
      exact .wrapped (hlast ▸ Nat.mod_self _) hb hmoved hstart

/-- a pair of pixels that starts inside the memory passes its end only in two cases: it is the first pair of a buffer
that was moved to the last address, or, where rows may be odd, its second pixel lies just past the end -/
theorem InPlace.pair_end (h : InPlace v m.mask base) (hm : m.size ≤ 4294967296) (hsize : 4 ∣ m.size)
    (heven : v.hasBansheeLayout = false → 2 ∣ row.toNat) (hn : (n : Int) = pixelByte base row x y)
    (hx : 0 ≤ x ∧ 2 ∣ x) (hy : 0 ≤ y) (hinside : n < m.size) (hend : m.size ≤ n + 3) :
    v.hasBansheeLayout = false ∧ base = m.mask ∧ n = base.toNat ∨
      v.hasBansheeLayout = true ∧ ¬ 2 ∣ row.toNat ∧ n + 2 = m.size := by
  have hmask := m.toNat_mask
  rw [m.places_eq_size hm] at hmask
  have hrow : 0 ≤ y * (row.toNat : Int) := Int.mul_nonneg hy (Int.natCast_nonneg _)
  have hproduct : 2 ∣ row.toNat → 2 ∣ y * (row.toNat : Int) := fun h2 =>
    Dvd.dvd.mul_left (Int.natCast_dvd_natCast.2 h2) y
  unfold pixelByte at hn
  obtain haligned | ⟨hb, rfl⟩ := h.aligned
  · -- the pair starts at an even byte, so at the last halfword, and its number is odd
    have hodd : ¬ 2 ∣ row.toNat := fun h2 => by
      have := hproduct h2
      omega
    refine .inr ⟨?_, hodd, by omega⟩
    exact Bool.eq_true_of_not_eq_false fun hb => hodd (heven hb)
  · exact .inl ⟨hb, rfl, by omega⟩

end Wraps

namespace Chip

theorem base_of_linearTarget (c : Chip) {offset data byteMask : UInt32} {w : LinearWrite} {base : UInt32}
    (h : c.linearTarget offset data byteMask = some (w, base)) :
    c.frame.drawOffset c.revision c.linearMode.writeBuffer = some base := by
  obtain ⟨w', -, hmap⟩ := Option.bind_eq_some_iff.1 h
  obtain ⟨base', hbase, hpair⟩ := Option.map_eq_some_iff.1 hmap
  obtain ⟨-, rfl⟩ := Prod.mk.inj hpair
  exact hbase

theorem linearTarget_eq_some (c : Chip) {offset data byteMask : UInt32} {w : LinearWrite} {base : UInt32}
    (hw : LinearWrite.decode? c.linearMode c.frame.layout (c.regs.get Reg.zaColor) offset data byteMask = some w)
    (hbase : c.frame.drawOffset c.revision c.linearMode.writeBuffer = some base) :
    c.linearTarget offset data byteMask = some (w, base) := by
  show (LinearWrite.decode? c.linearMode c.frame.layout (c.regs.get Reg.zaColor) offset data byteMask).bind _ = _
  rw [hw]
  show (c.frame.drawOffset c.revision c.linearMode.writeBuffer).map _ = _
  rw [hbase]
  rfl

theorem memory_linearWrite (c : Chip) (hdirect : c.linearMode.pixelPipeline = false) {offset data byteMask : UInt32}
    {w : LinearWrite} {base : UInt32} (h : c.linearTarget offset data byteMask = some (w, base)) :
    (c.linearWrite offset data byteMask).frame.memory =
      (w.runDirect c.frameMode (c.frame.surface base) c.canvas).memory := by
  have hdraw : c.linearDraw w base = w.runDirect c.frameMode (c.frame.surface base) :=
    if_neg (by rw [show (LinearMode.decode _).pixelPipeline = false from hdirect]; decide)
  have hcanvas := canvas_linearWrite c offset data byteMask
  rw [h] at hcanvas
  rw [← hdraw]
  exact congrArg Canvas.memory hcanvas

section Accesses

variable {c : Chip} (hplaced : c.Placed) (hm : c.frame.memory.size ≤ 4294967296) (heven : 4 ∣ c.frame.memory.size)
include hplaced hm heven

/-- a byte that a direct write changes belongs to one of its pixels -/
theorem pixelByte_of_linearWrite (hdirect : c.linearMode.pixelPipeline = false) (offset data byteMask : UInt32)
    {i : Nat} (hi : i < c.frame.memory.size)
    (hne : (c.linearWrite offset data byteMask).frame.memory.read8 (UInt32.ofNat i) ≠
      c.frame.memory.read8 (UInt32.ofNat i)) :
    ∃ w color, c.linearTarget offset data byteMask = some (w, color) ∧
      ∃ base x, (base = color ∨ c.frame.layout.aux = some base) ∧ (x = w.x ∨ x = w.x + 1) ∧
        PixelByte c.revision c.frame.memory base c.frame.layout.rowPixels x w.screenY i := by
  cases htarget : c.linearTarget offset data byteMask with
  | none =>
    rw [linearWrite_eq, htarget] at hne
    exact absurd rfl hne
  | some target =>
    obtain ⟨w, color⟩ := target
    refine ⟨w, color, rfl, ?_⟩
    rw [memory_linearWrite c hdirect htarget] at hne
    obtain ⟨hfirst, hsecond⟩ := LinearWrite.onScreen_of_decode (decode_of_linearTarget c htarget)
    have hindex : c.frame.memory.index (UInt32.ofNat i) = i := by
      rw [Memory.index_eq, Memory.places_eq_size _ hm, UInt32.toNat_ofNat_of_lt' (Nat.lt_of_lt_of_le hi hm),
        Nat.mod_eq_of_lt hi]
    -- a byte that belongs to none of the four halfwords stays as it is
    by_contra hnone
    refine hne ?_
    refine LinearWrite.read8_runDirect w _ _ c.canvas hm _ fun base hbase x hx hholds => hnone ?_
    have hscreen : OnScreen x w.screenY := by
      obtain rfl | rfl := hx
      · exact hfirst
      · exact hsecond
    have hin : InPlace c.revision c.frame.memory.mask base := by
      obtain rfl | haux := hbase
      · exact hplaced.drawOffset (base_of_linearTarget c htarget)
      · exact hplaced.layout.aux base haux
    rw [show c.canvas.memory.index _ = i from hindex] at hholds
    have hstart := pixelByte_eq hplaced.row_le hscreen base
    have hpixel := toNat_pixel hplaced.row_le hscreen
    refine ⟨base, x, hbase, hx, pixelByte_of_holds hin hm (Nat.dvd_trans (by decide) heven) ?_ ?_ hholds⟩
    · rw [hstart]
      rfl
    · rw [← hpixel]
      exact Int.natCast_nonneg _

/-- what a read gives, and when it passes the end of the memory -/
theorem pair_of_linearRead (offset : UInt32) :
    c.linearRead offset = 0xFFFFFFFF ∨
      ∃ base, ∃ n : Nat, c.linearReadBase c.linearMode = some base ∧
        (n : Int) = pixelByte base c.frame.layout.rowPixels (readColumn offset) (c.readRow offset) ∧
        n < c.frame.memory.size ∧ c.linearRead offset = c.linearMode.readOrder (c.frame.memory.pairAt n) ∧
        (c.frame.memory.size ≤ n + 3 →
          c.revision.hasBansheeLayout = false ∧ base = c.frame.memory.mask ∧ n = base.toNat ∨
          c.revision.hasBansheeLayout = true ∧ ¬ 2 ∣ c.frame.layout.rowPixels.toNat ∧
            n + 2 = c.frame.memory.size) := by
  have hscreen := c.onScreen_read offset
  rw [c.linearRead_eq hplaced.row_le]
  cases hbase : c.linearReadBase c.linearMode with
  | none => exact .inl rfl
  | some base =>
    dsimp only
    split
    · rename_i hinside
      have hin : InPlace c.revision c.frame.memory.mask base := by
        unfold linearReadBase at hbase
        split at hbase
        · exact hplaced.offsetOf hbase
        · obtain ⟨buffer, -, hbuffer⟩ := Option.bind_eq_some_iff.1 hbase
          exact hplaced.offsetOf hbuffer
      have hnonneg : 0 ≤ pixelByte base c.frame.layout.rowPixels (readColumn offset) (c.readRow offset) := by
        rw [pixelByte_eq hplaced.row_le hscreen]
        exact Int.natCast_nonneg _
      obtain ⟨n, hn⟩ := Int.eq_ofNat_of_zero_le hnonneg
      rw [hn] at hinside
      refine .inr ⟨base, n, rfl, hn.symm, by omega, by rw [hn]; rfl, fun hend => ?_⟩
      refine hin.pair_end hm heven hplaced.layout.row_even hn.symm ⟨hscreen.left, ?_⟩ hscreen.top (by omega) hend
      exact ⟨field offset 0 9, by rw [readColumn]; omega⟩
    · exact .inl rfl

end Accesses

/-- **The bytes that linear accesses touch.** In a state that a run reaches, with the pixel pipeline off, a write
changes bytes of its pixels only, in the color buffer that is written or in the aux buffer; and a read gives all ones or
two pixels of the buffer that is read. The address of each of these bytes is the one that plain arithmetic gives, and
lies inside the memory, with three exceptions. On Voodoo 1 and 2, where a buffer has been moved to the last address, its
first pixel has its second byte at address 0, for a write, and is read together with the bytes from address 0 on; and on
Banshee with an odd number of pixels in a row, a pair that starts at the last halfword of the memory takes its second
pixel from address 0. -/
theorem linear_bounds (c : Chip) (hc : c.Reachable) (offset data byteMask : UInt32)
    (hdirect : c.flush.linearMode.pixelPipeline = false) :
    let b := c.flush
    let m := b.frame.memory
    let row := b.frame.layout.rowPixels
    (∀ i, i < m.size →
      (c.writeLinear offset data byteMask).frame.memory.read8 (UInt32.ofNat i) ≠ m.read8 (UInt32.ofNat i) →
      ∃ w color, b.linearTarget offset data byteMask = some (w, color) ∧
        ∃ base x, (base = color ∨ b.frame.layout.aux = some base) ∧ (x = w.x ∨ x = w.x + 1) ∧
          PixelByte b.revision m base row x w.screenY i) ∧
    ((c.readLinear offset).2 = 0xFFFFFFFF ∨
      ∃ base, ∃ n : Nat, b.linearReadBase b.linearMode = some base ∧
        (n : Int) = pixelByte base row (readColumn offset) (b.readRow offset) ∧ n < m.size ∧
        (c.readLinear offset).2 = b.linearMode.readOrder (m.pairAt n) ∧
        (m.size ≤ n + 3 →
          b.revision.hasBansheeLayout = false ∧ base = m.mask ∧ n = base.toNat ∨
          b.revision.hasBansheeLayout = true ∧ ¬ 2 ∣ row.toNat ∧ n + 2 = m.size)) := by
  intro b m row
  have hreachable : b.Reachable := hc.run c [.flush]
  have hplaced : b.Placed := placed_reachable hreachable
  have hm : m.size ≤ 4294967296 := Nat.le_trans (memory_size_reachable b hreachable).1 (by decide)
  have heven : 4 ∣ m.size := Nat.dvd_trans (by decide) (megabyte_dvd_size b hreachable)
  exact ⟨fun i hi hne => pixelByte_of_linearWrite hplaced hm heven hdirect offset data byteMask hi hne,
    pair_of_linearRead hplaced hm heven offset⟩

/-- a write through the linear frame buffer of a new chip, whose rows have no pixels -/
theorem linear_bounds_start :
    let c := initial ChipConfig.standard
    ∀ i, i < 2 ^ 22 → ¬ (20 ≤ i ∧ i ≤ 23) →
      (c.writeLinear 5 0x12345678 0xFFFFFFFF).frame.memory.read8 (UInt32.ofNat i) =
        c.flush.frame.memory.read8 (UInt32.ofNat i) := by
  intro c i hi hout
  have hreachable : c.Reachable := ⟨_, _, [], make_eq_ok.2 ⟨by decide, rfl⟩, rfl⟩
  have hsize : c.flush.frame.memory.size = 2 ^ 22 := (size_flush c).trans (size_run ChipConfig.standard [])
  obtain ⟨hwrite, -⟩ := c.linear_bounds hreachable 5 0x12345678 0xFFFFFFFF (by decide +kernel)
  by_contra hne
  obtain ⟨w, color, htarget, base, x, hbase, hx, hbyte⟩ := hwrite i (by rwa [hsize]) hne
  have hplace : ∀ r ∈ c.flush.linearTarget 5 0x12345678 0xFFFFFFFF, r.1.x = 10 ∧ r.1.screenY = 0 ∧ r.2 = 0 := by
    decide +kernel
  have haux : c.flush.frame.layout.aux = none := by decide +kernel
  obtain ⟨hcolumn, hrow, hcolor⟩ : w.x = 10 ∧ w.screenY = 0 ∧ color = 0 := hplace _ htarget
  have hzero : base = 0 := by
    obtain h | h := hbase
    · exact h.trans hcolor
    · cases haux.symm.trans h
  have hstart : pixelByte base c.flush.frame.layout.rowPixels x w.screenY = 2 * x := by
    rw [hzero, pixelByte, hrow, Int.zero_mul, Int.zero_add]
    exact Int.zero_add _
  cases hbyte with
  | low inside place => omega
  | high inside place => omega
  | wrapped first revision moved start =>
    rw [hstart, hzero] at start
    have hnone : (0 : UInt32).toNat = 0 := rfl
    omega

/-- a Voodoo 2 with one megabyte, whose second color buffer does not fit and has been moved to the last address; linear
writes go to it -/
def movedVoodoo : Chip :=
  ((initial { ChipConfig.standard with frameMegabytes := 1 }).runCalls
    [.writeRegister 0x86 0xFF800, .writeRegister 0x45 0x10]).1

theorem memory_movedVoodoo : movedVoodoo.frame.memory = Memory.zeroed 20 := rfl

theorem mask_movedVoodoo : movedVoodoo.frame.memory.mask = 0xFFFFF := by
  rw [memory_movedVoodoo, Memory.mask, Memory.size, Memory.size_eq]
  rfl

theorem layout_movedVoodoo : movedVoodoo.LayoutFollows :=
  layout_run (initial { ChipConfig.standard with frameMegabytes := 1 }) rfl
    [.writeRegister 0x86 0xFF800, .writeRegister 0x45 0x10] (by decide +kernel)

/-- a halfword at the last address has its second byte at address 0 -/
theorem read8_storeInside_last {m : Memory} (hm : m.contents.size = 2 ^ 20) (v : UInt16) :
    (LinearWrite.storeInside m 0xFFFFF 0 v).read8 0 = (v >>> 8).toUInt8 := by
  have hinside : (0xFFFFF : UInt32).toNat + 2 * (0 : UInt32).toNat < m.size := by
    rw [Memory.size, hm]
    decide
  have hwraps : m.index (0xFFFFF + 2 * 0 + 1) = m.index 0 := by
    rw [Memory.index, Memory.index, hm]
    decide
  rw [LinearWrite.storeInside, if_pos hinside, Memory.write16, Memory.read8_write8, Memory.index_write8,
    Memory.index_write8, if_pos hwraps]

theorem read8_linearWrite_last (c : Chip) (hsize : c.frame.memory.contents.size = 2 ^ 20)
    (hdirect : c.linearMode.pixelPipeline = false) {offset data byteMask : UInt32} {w : LinearWrite} {v : UInt16}
    (htarget : c.linearTarget offset data byteMask = some (w, 0xFFFFF))
    (hfirst : LinearWrite.halfwords c.frameMode (c.frame.surface 0xFFFFF) w.y w.x w.pixels.first = [(0xFFFFF, v)])
    (hsecond : LinearWrite.halfwords c.frameMode (c.frame.surface 0xFFFFF) w.y (w.x + 1) w.pixels.second = [])
    (hpixel : UInt32.ofInt w.screenY * (c.frame.surface 0xFFFFF).rowPixels + UInt32.ofInt w.x = 0) :
    (c.linearWrite offset data byteMask).frame.memory.read8 0 = (v >>> 8).toUInt8 := by
  rw [memory_linearWrite c hdirect htarget, LinearWrite.memory_runDirect, hfirst, hsecond, hpixel]
  exact read8_storeInside_last hsize v

/-- a pixel written to the buffer at the last address changes the first byte of the memory -/
theorem linear_write_wraps :
    movedVoodoo.frame.offsetOf .back = some 0xFFFFF ∧ movedVoodoo.frame.layout.aux = some 0xFFFFF ∧
      movedVoodoo.frame.memory.read8 0 = 0 ∧
      (movedVoodoo.writeLinear 0 0xFFFF 0xFFFF).frame.memory.read8 0 = 0xFF := by
  have hlayout : movedVoodoo.frame.layout = FrameLayout.ofRegisters .voodoo2 movedVoodoo.regs 0xFFFFF := by
    have hrevision : movedVoodoo.revision = .voodoo2 := revision_run _ _
    rw [layout_movedVoodoo, mask_movedVoodoo, hrevision]
  have hback : movedVoodoo.frame.offsetOf .back = some 0xFFFFF := by
    have hnumber : movedVoodoo.frame.back = 1 := by decide +kernel
    rw [FrameBuffer.offsetOf, hlayout, hnumber]
    decide +kernel
  have haux : movedVoodoo.frame.layout.aux = some 0xFFFFF := by
    rw [hlayout]
    decide +kernel
  refine ⟨hback, haux, ?_, ?_⟩
  · rw [memory_movedVoodoo]
    exact Memory.read8_zeroed 20 0
  · have hbase : movedVoodoo.frame.drawOffset movedVoodoo.revision movedVoodoo.linearMode.writeBuffer =
        some 0xFFFFF := by
      have hselected : movedVoodoo.linearMode.writeBuffer = some .back := by decide +kernel
      rw [hselected, ← hback]
      rfl
    obtain ⟨w, hw⟩ : ∃ w, LinearWrite.decode? movedVoodoo.linearMode movedVoodoo.frame.layout
        (movedVoodoo.regs.get Reg.zaColor) 0 0xFFFF 0xFFFF = some w := Option.isSome_iff_exists.1 (by decide +kernel)
    -- the one pixel that the mask leaves brings one halfword, for the first place of the color buffer
    have hbrings : ∀ w ∈ LinearWrite.decode? movedVoodoo.linearMode movedVoodoo.frame.layout
        (movedVoodoo.regs.get Reg.zaColor) 0 0xFFFF 0xFFFF,
        LinearWrite.halfwords movedVoodoo.frameMode (movedVoodoo.frame.surface 0xFFFFF) w.y w.x w.pixels.first =
            [(0xFFFFF, 0xFFFF)] ∧
          LinearWrite.halfwords movedVoodoo.frameMode (movedVoodoo.frame.surface 0xFFFFF) w.y (w.x + 1)
            w.pixels.second = [] ∧
          UInt32.ofInt w.screenY * (movedVoodoo.frame.surface 0xFFFFF).rowPixels + UInt32.ofInt w.x = 0 := by
      decide +kernel
    obtain ⟨hfirst, hsecond, hpixel⟩ := hbrings w hw
    have hsize : movedVoodoo.frame.memory.contents.size = 2 ^ 20 := by
      rw [memory_movedVoodoo]
      exact (Memory.zeroed 20).size_eq
    rw [writeLinear, flush_of_empty movedVoodoo rfl]
    exact read8_linearWrite_last movedVoodoo hsize (by decide +kernel) (movedVoodoo.linearTarget_eq_some hw hbase)
      hfirst hsecond hpixel

end Chip
end Accel3D
