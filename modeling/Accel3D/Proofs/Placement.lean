/-
Where the buffers can lie.

Whatever a run does, both color buffers that are shown and drawn to have a place, every place is an address of the
memory, and rows are at most 8191 pixels long. A place is a multiple of 16, or, on Voodoo 1 and 2, where a buffer that
does not fit in the memory is moved there, the last address. On these the number of pixels in a row is even as well; on
Banshee a stride register can make it odd.

Results: `placed_act` (each action keeps this), `placed_reachable` (it holds after every run).
-/
import Accel3D.Proofs.Derived.Frame
import Accel3D.Proofs.DisplayStep

namespace Accel3D

/-- a place for a buffer, in a memory with this last address -/
structure InPlace (v : Revision) (last base : UInt32) : Prop where
  le : base ≤ last
  aligned : 16 ∣ base.toNat ∨ v.hasBansheeLayout = false ∧ base = last

namespace FrameLayout

theorem inPlace_address (v : Revision) (data last : UInt32) : InPlace v last (address data last) where
  le := by
    rw [UInt32.le_iff_toNat_le, address, UInt32.toNat_and, UInt32.toNat_and]
    exact Nat.le_trans Nat.and_le_left Nat.and_le_right
  aligned := by
    refine .inl ?_
    have hlow : (address data last).toNat % 2 ^ 4 = 0 := by
      rw [address, UInt32.toNat_and, Nat.and_mod_two_pow]
      exact Nat.and_zero _
    exact Nat.dvd_of_mod_eq_zero hlow

/-- a number of pages is a place, moved to the last address if it lies beyond it -/
theorem inPlace_page {v : Revision} (hb : v.hasBansheeLayout = false) (pages last : UInt32) :
    InPlace v last (if pages * 4096 < last then pages * 4096 else last) := by
  split
  · rename_i hlt
    refine ⟨UInt32.le_of_lt hlt, .inl ?_⟩
    rw [UInt32.toNat_mul]
    exact (Nat.dvd_mod_iff (by decide)).2 (Nat.dvd_mul_left_of_dvd (by decide) _)
  · exact ⟨UInt32.le_refl _, .inr ⟨hb, rfl⟩⟩

/-- a layout of which every buffer has its place, the first two color buffers have one, and no row is too long -/
structure Placed (v : Revision) (last : UInt32) (l : FrameLayout) : Prop where
  color : ∀ (i : Nat) (hi : i < 3) (base : UInt32), l.color[i] = some base → InPlace v last base
  aux : ∀ base ∈ l.aux, InPlace v last base
  shown : ∀ (i : Nat) (hi : i < 3), i ≤ 1 → l.color[i].isSome = true
  row_le : l.rowPixels.toNat ≤ 8191
  row_even : v.hasBansheeLayout = false → 2 ∣ l.rowPixels.toNat

theorem placed_initial (v : Revision) (last : UInt32) : initial.Placed v last where
  color i hi base h := by
    have hzero : base = 0 := by
      obtain rfl | rfl | rfl : i = 0 ∨ i = 1 ∨ i = 2 := by omega
      · exact (Option.some.inj h).symm
      · exact (Option.some.inj h).symm
      · cases h
    subst hzero
    exact ⟨UInt32.zero_le, .inl (Nat.dvd_zero 16)⟩
  aux base h := by cases h
  shown i hi h := by
    obtain rfl | rfl : i = 0 ∨ i = 1 := by omega
    · rfl
    · rfl
  row_le := Nat.zero_le _
  row_even _ := Nat.dvd_zero 2

/-- a color buffer moved to another place -/
theorem Placed.setColor {v : Revision} {last : UInt32} {l : FrameLayout} (h : l.Placed v last) {base : UInt32}
    (hbase : InPlace v last base) (n : Nat) (hn : n < 3) :
    ({ l with color := l.color.set n (some base) } : FrameLayout).Placed v last where
  color i hi b hb := by
    simp only [Vector.getElem_set] at hb
    split at hb
    · rwa [← Option.some.inj hb]
    · exact h.color i hi b hb
  aux := h.aux
  shown i hi hle := by
    simp only [Vector.getElem_set]
    split
    · rfl
    · exact h.shown i hi hle
  row_le := h.row_le
  row_even := h.row_even

theorem toNat_ofNat_small {n : Nat} (h : n ≤ 65535) : (UInt32.ofNat n).toNat = n :=
  UInt32.toNat_ofNat_of_lt' (Nat.lt_of_le_of_lt h (by decide))

theorem stride_le (data : UInt32) : (stride data).toNat ≤ 8191 := by
  have htiles := field_lt data 0 7
  have hbytes := field_lt data 0 14
  unfold stride
  split <;> rw [toNat_ofNat_small (by omega)] <;> omega

theorem Placed.writeBuffer {v : Revision} (hb : v.hasBansheeLayout = true) {last : UInt32} {l : FrameLayout}
    (h : l.Placed v last) (r : Reg) (data : UInt32) : (l.writeBuffer r data last).Placed v last := by
  have hodd : ∀ {p : Prop}, v.hasBansheeLayout = false → p := fun hn => absurd (hb.symm.trans hn) (by decide)
  unfold FrameLayout.writeBuffer
  split_ifs
  · exact h.setColor (inPlace_address v data last) 1 (by decide)
  · exact ⟨h.color, h.aux, h.shown, stride_le data, hodd⟩
  · refine ⟨h.color, fun base hbase => ?_, h.shown, h.row_le, h.row_even⟩
    rw [← Option.some.inj hbase]
    exact inPlace_address v data last
  · exact h

theorem tilesPerRow_le (v : Revision) (regs : RegisterFile) : tilesPerRow v regs ≤ 63 := by
  have htiles := field_lt (regs.get Reg.fbiInit1) 4 4
  have hhigh := field_lt (regs.get Reg.fbiInit1) 24 1
  have hlow := field_lt (regs.get Reg.fbiInit6) 30 1
  unfold tilesPerRow
  dsimp only
  split <;> omega

theorem toNat_rowPixels (v : Revision) (regs : RegisterFile) (last : UInt32) :
    (ofRegisters v regs last).rowPixels.toNat = v.tileWidth.toNat * tilesPerRow v regs := by
  have htiles := tilesPerRow_le v regs
  have hwidth : v.tileWidth.toNat ≤ 64 := by cases v <;> decide
  have hproduct : v.tileWidth.toNat * tilesPerRow v regs ≤ 64 * 63 := Nat.mul_le_mul hwidth htiles
  show (v.tileWidth * UInt32.ofNat (tilesPerRow v regs)).toNat = _
  rw [UInt32.toNat_mul, toNat_ofNat_small (by omega), Nat.mod_eq_of_lt (by omega)]

/-- the layout of the fbiInit registers has every buffer in its place -/
theorem placed_ofRegisters {v : Revision} (hb : v.hasBansheeLayout = false) (regs : RegisterFile) (last : UInt32) :
    (ofRegisters v regs last).Placed v last := by
  have hplace : ∀ n base : UInt32,
      (some (if n * bufferSize regs < last then n * bufferSize regs else last) : Option UInt32) = some base →
        InPlace v last base := by
    intro n base h
    rw [← Option.some.inj h, bufferSize, ← UInt32.mul_assoc]
    exact inPlace_page hb _ last
  have hnone : ∀ base : UInt32, none = some base → InPlace v last base := fun base h => by cases h
  -- the third color buffer and the aux buffer, in each of the three ways to share the memory
  have hthird : ∀ base, (ofRegisters v regs last).color[2] = some base → InPlace v last base := by
    unfold ofRegisters
    generalize allocation v regs = shared
    obtain _ | _ | _ | shared := shared
    · exact hnone
    · exact hplace 2
    · exact hplace 2
    · exact hnone
  have haux : ∀ base, (ofRegisters v regs last).aux = some base → InPlace v last base := by
    unfold ofRegisters
    generalize allocation v regs = shared
    obtain _ | _ | _ | shared := shared
    · exact hplace 2
    · exact hnone
    · exact hplace 3
    · exact hplace 2
  have hrow := toNat_rowPixels v regs last
  refine ⟨fun i hi base h => ?_, haux, fun i hi h => ?_, ?_, fun _ => ?_⟩
  · obtain rfl | rfl | rfl : i = 0 ∨ i = 1 ∨ i = 2 := by omega
    · exact hplace 0 base h
    · exact hplace 1 base h
    · exact hthird base h
  · obtain rfl | rfl : i = 0 ∨ i = 1 := by omega
    · rfl
    · rfl
  · have hwidth : v.tileWidth.toNat ≤ 64 := by cases v <;> decide
    have hproduct := Nat.mul_le_mul hwidth (tilesPerRow_le v regs)
    omega
  · have hwidth : 2 ∣ v.tileWidth.toNat := by cases v <;> decide
    rw [hrow]
    exact Nat.dvd_mul_right_of_dvd hwidth _

/-- whether a buffer number names a color buffer -/
def Numbers (l : FrameLayout) (n : UInt64) : Prop := n = 0 ∨ n = 1 ∨ n = 2 ∧ l.hasThird = true

theorem Placed.colorOffset {v : Revision} {last : UInt32} {l : FrameLayout} (h : l.Placed v last) {n : UInt64}
    (hn : l.Numbers n) : ∃ base, l.colorOffset n = some base ∧ InPlace v last base := by
  have hmem : ∀ (i : Nat) (hi : i < 3), l.color[i].isSome = true →
      ∃ base, l.color[i]?.join = some base ∧ InPlace v last base := by
    intro i hi hsome
    obtain ⟨base, hbase⟩ := Option.isSome_iff_exists.1 hsome
    refine ⟨base, ?_, h.color i hi base hbase⟩
    rw [Vector.getElem?_eq_getElem hi, hbase]
    rfl
  obtain rfl | rfl | ⟨rfl, hthird⟩ := hn
  · exact hmem 0 (by decide) (h.shown 0 _ (by decide))
  · exact hmem 1 (by decide) (h.shown 1 _ (by decide))
  · exact hmem 2 (by decide) hthird

theorem numbers_next {l : FrameLayout} (h : l.hasThird = true) {n : UInt64} (hn : l.Numbers n) :
    l.Numbers ((n + 1) % 3) := by
  obtain rfl | rfl | ⟨rfl, -⟩ := hn
  · exact .inr (.inl rfl)
  · exact .inr (.inr ⟨rfl, h⟩)
  · exact .inl rfl

theorem numbers_other {l : FrameLayout} (h : ¬ l.hasThird = true) {n : UInt64} (hn : l.Numbers n) :
    l.Numbers (1 - n) := by
  obtain rfl | rfl | ⟨-, hthird⟩ := hn
  · exact .inr (.inl rfl)
  · exact .inl rfl
  · exact absurd hthird h

end FrameLayout

/-! ## The display -/

/-- every buffer in its place, and the front and the back buffer among them -/
structure Display.Placed (v : Revision) (last : UInt32) (d : Display) : Prop where
  layout : d.layout.Placed v last
  front : d.layout.Numbers d.front
  back : d.layout.Numbers d.back

namespace FrameBuffer

variable {v : Revision} {f : FrameBuffer}

/-- moving the buffers on keeps them in place; an overlay's address becomes that of the first one -/
theorem placed_rotate (h : f.display.Placed v f.memory.mask) (overlay : Option UInt32) :
    (f.rotate overlay).display.Placed v f.memory.mask := by
  obtain ⟨hlayout, hfront, hback⟩ := h
  unfold FrameBuffer.rotate
  split
  · rename_i address
    have hset := hlayout.setColor (FrameLayout.inPlace_address v address f.memory.mask) 0 (by decide)
    -- the buffer that the third number names stays
    have hthird : (f.layout.setFront address f.memory.mask).hasThird = f.layout.hasThird := by
      simp [FrameLayout.hasThird, FrameLayout.setFront]
    have hnumbers : ∀ n, f.layout.Numbers n → (f.layout.setFront address f.memory.mask).Numbers n := fun n hn => by
      rwa [FrameLayout.Numbers, hthird]
    exact ⟨hset, hnumbers _ hfront, hnumbers _ hback⟩
  · split_ifs with hkeep hthird
    · exact ⟨hlayout, hfront, hback⟩
    · have hnext := FrameLayout.numbers_next hthird hfront
      exact ⟨hlayout, hnext, FrameLayout.numbers_next hthird hnext⟩
    · have hother := FrameLayout.numbers_other hthird hfront
      exact ⟨hlayout, hother, FrameLayout.numbers_other hthird hother⟩

/-- so do swaps and retraces -/
theorem placed_swapNow (h : f.display.Placed v f.memory.mask) (overlay : Option UInt32) :
    (f.swapNow overlay).display.Placed v f.memory.mask := by
  obtain ⟨hlayout, hfront, hback⟩ := placed_rotate h overlay
  exact ⟨hlayout, hfront, hback⟩

theorem placed_swapCommand (h : f.display.Placed v f.memory.mask) (data : UInt32) (overlay : Option UInt32) :
    (f.swapCommand data overlay).display.Placed v f.memory.mask := by
  have hcommand : ({ f with swap := f.swap.command data } : FrameBuffer).display.Placed v f.memory.mask :=
    ⟨h.layout, h.front, h.back⟩
  unfold FrameBuffer.swapCommand
  split
  · exact hcommand
  · exact placed_swapNow (f := { f with swap := f.swap.command data }) hcommand overlay

theorem placed_retrace (h : f.display.Placed v f.memory.mask) (overlay : Option UInt32) :
    (f.retrace overlay).display.Placed v f.memory.mask := by
  have hretrace : ({ f with inRetrace := true, swap := f.swap.retrace } : FrameBuffer).display.Placed v f.memory.mask :=
    ⟨h.layout, h.front, h.back⟩
  unfold FrameBuffer.retrace
  dsimp only
  split
  · exact placed_swapNow (f := { f with inRetrace := true, swap := f.swap.retrace }) hretrace overlay
  · exact hretrace

theorem placed_relayout (hb : v.hasBansheeLayout = false) (h : f.display.Placed v f.memory.mask)
    (regs : RegisterFile) : (f.relayout v regs).display.Placed v f.memory.mask := by
  have hnumber : ∀ n, f.layout.Numbers n → (FrameLayout.ofRegisters v regs f.memory.mask).Numbers
      (if !(FrameLayout.ofRegisters v regs f.memory.mask).hasThird && n == 2 then 0 else n) := by
    intro n hn
    obtain rfl | rfl | ⟨rfl, -⟩ := hn
    · rw [show ((0 : UInt64) == 2) = false from rfl, Bool.and_false]
      exact .inl rfl
    · rw [show ((1 : UInt64) == 2) = false from rfl, Bool.and_false]
      exact .inr (.inl rfl)
    · cases hthird : (FrameLayout.ofRegisters v regs f.memory.mask).hasThird with
      | true => exact .inr (.inr ⟨rfl, hthird⟩)
      | false => exact .inl rfl
  exact ⟨FrameLayout.placed_ofRegisters hb regs f.memory.mask, hnumber _ h.front, hnumber _ h.back⟩

theorem placed_writeBuffer (hb : v.hasBansheeLayout = true) (h : f.display.Placed v f.memory.mask) (r : Reg)
    (data : UInt32) : (f.writeBuffer r data).display.Placed v f.memory.mask :=
  ⟨h.layout.writeBuffer hb r data, .inl rfl, .inr (.inl rfl)⟩

end FrameBuffer

/-! ## Runs -/

namespace Chip

def Placed (c : Chip) : Prop := c.frame.display.Placed c.revision c.frame.memory.mask

/-- **Each action keeps the buffers in place.** -/
theorem placed_act {c : Chip} (h : c.Placed) (a : Action) : (c.act a).Placed := by
  unfold Placed at h ⊢
  rw [revision_act, mask_of_shape (shape_act c a)]
  cases displayStep c a with
  | swap data command display =>
    rw [display]
    exact FrameBuffer.placed_swapCommand h data c.overlay
  | retrace action display =>
    rw [display]
    exact FrameBuffer.placed_retrace h c.overlay
  | announce command action display =>
    rw [display]
    exact ⟨h.layout, h.front, h.back⟩
  | buffer banshee command action r data display =>
    rw [display]
    exact FrameBuffer.placed_writeBuffer banshee h r data
  | relayout banshee command action regs display =>
    rw [display]
    exact FrameBuffer.placed_relayout banshee h regs
  | rest command action fog display =>
    rw [display]
    exact ⟨h.layout, h.front, h.back⟩

theorem placed_foldl {c : Chip} (h : c.Placed) (as : List Action) : (as.foldl act c).Placed := by
  induction as generalizing c with
  | nil => exact h
  | cons a as ih => exact ih (placed_act h a)

theorem placed_initial (config : ChipConfig) : (initial config).Placed :=
  ⟨FrameLayout.placed_initial _ _, .inl rfl, .inr (.inl rfl)⟩

theorem Placed.row_le {c : Chip} (h : c.Placed) : c.frame.layout.rowPixels.toNat ≤ 8191 := h.layout.row_le

theorem Placed.isSome_offsetOf {c : Chip} (h : c.Placed) :
    (c.frame.offsetOf .front).isSome = true ∧ (c.frame.offsetOf .back).isSome = true := by
  obtain ⟨front, hfront, -⟩ := h.layout.colorOffset h.front
  obtain ⟨back, hback, -⟩ := h.layout.colorOffset h.back
  exact ⟨Option.isSome_of_eq_some hfront, Option.isSome_of_eq_some hback⟩

theorem Placed.offsetOf {c : Chip} (h : c.Placed) {buffer : Buffer} {base : UInt32}
    (hbase : c.frame.offsetOf buffer = some base) : InPlace c.revision c.frame.memory.mask base := by
  cases buffer with
  | aux => exact h.layout.aux base hbase
  | front =>
    obtain ⟨place, hplace, hin⟩ := h.layout.colorOffset h.front
    rwa [← Option.some.inj (hplace.symm.trans hbase)]
  | back =>
    obtain ⟨place, hplace, hin⟩ := h.layout.colorOffset h.back
    rwa [← Option.some.inj (hplace.symm.trans hbase)]

theorem Placed.drawOffset {c : Chip} (h : c.Placed) {select : Option Buffer} {base : UInt32}
    (hbase : c.frame.drawOffset c.revision select = some base) : InPlace c.revision c.frame.memory.mask base := by
  unfold FrameBuffer.drawOffset at hbase
  split at hbase
  · exact h.offsetOf hbase
  · split at hbase
    · exact h.offsetOf hbase
    · exact h.offsetOf hbase
    · cases hbase

/-- **In every state that a run reaches, the buffers are in place.** -/
theorem placed_reachable {c : Chip} (h : c.Reachable) : c.Placed := by
  obtain ⟨config, first, calls, hmake, rfl⟩ := h
  obtain ⟨-, rfl⟩ := make_eq_ok.1 hmake
  obtain ⟨q, hq⟩ := run_eq_foldl (initial config) calls
  rw [hq]
  exact placed_foldl (placed_initial config) _

end Chip
end Accel3D
