/-
The buffer numbers can be used wherever the chip uses them, on every revision.

A buffer number names an entry of the layout, and a swap of two buffers takes it away from 1. Both are right as long as
the buffers are in their places (`Display.Placed`): a number is then 0 or 1, or 2 with a third buffer, and what it names
has an address of the memory. Every action keeps the buffers in place, so this holds in every state of every run.

`offsetOf?` and `rotate?` read the layout and subtract only where that gives a value.

Results: `usable_of_placed` (buffers in place are usable), `buffers_usable` (in every state of every run).
-/
import Accel3D.Proofs.Placement

namespace Accel3D
namespace FrameBuffer

/-! ## Checked uses -/

/-- offset of a buffer, read from an entry of the layout: the outer option says that there is such an entry -/
def offsetOf? (f : FrameBuffer) : Buffer → Option (Option UInt32)
  | .front => f.layout.color[f.front.toNat]?
  | .back => f.layout.color[f.back.toNat]?
  | .aux => some f.layout.aux

/-- the difference of two buffer numbers, unless it is below zero -/
def difference? (a b : UInt64) : Option UInt64 := if b ≤ a then some (a - b) else none

/-- the buffers moved on, by differences that are not below zero -/
def rotate? (f : FrameBuffer) (overlay : Option UInt32) : Option FrameBuffer :=
  match overlay with
  | some address => some { f with layout := f.layout.setFront address f.memory.mask }
  | none =>
    if f.swap.dontSwap then some f
    else if f.layout.hasThird then
      let front := (f.front + 1) % 3
      some { f with front := front, back := (front + 1) % 3 }
    else do
      let front ← difference? 1 f.front
      let back ← difference? 1 front
      return { f with front := front, back := back }

/-- a frame buffer whose buffer numbers name buffers that have a place, in its memory -/
structure Usable (f : FrameBuffer) : Prop where
  front_le : f.front ≤ 2
  back_le : f.back ≤ 2
  front_placed : ∃ o, f.offsetOf .front = some o
  back_placed : ∃ o, f.offsetOf .back = some o
  pair : f.layout.hasThird = false → f.front ≤ 1 ∧ f.back ≤ 1
  color_le : ∀ o, some o ∈ f.layout.color → o ≤ f.memory.mask
  aux_le : ∀ o, f.layout.aux = some o → o ≤ f.memory.mask

/-- buffers in their places have numbers that can be used -/
theorem usable_of_placed {f : FrameBuffer} {v : Revision} (h : f.display.Placed v f.memory.mask) : f.Usable := by
  have hle : ∀ {n}, f.layout.Numbers n → n ≤ 2 := fun hn => by
    obtain rfl | rfl | ⟨rfl, -⟩ := hn <;> decide
  have hpair : ∀ {n}, f.layout.Numbers n → f.layout.hasThird = false → n ≤ 1 := fun hn hthird => by
    obtain rfl | rfl | ⟨rfl, hthere⟩ := hn
    · decide
    · decide
    · exact absurd (hthird.symm.trans hthere) Bool.false_ne_true
  obtain ⟨front, hfront, -⟩ := h.layout.colorOffset h.front
  obtain ⟨back, hback, -⟩ := h.layout.colorOffset h.back
  refine ⟨hle h.front, hle h.back, ⟨front, hfront⟩, ⟨back, hback⟩,
    fun hthird => ⟨hpair h.front hthird, hpair h.back hthird⟩, fun o ho => ?_, fun o ho => (h.layout.aux o ho).le⟩
  obtain ⟨i, hi, hentry⟩ := Vector.getElem_of_mem ho
  exact (h.layout.color i hi o hentry).le

namespace Usable

variable {f : FrameBuffer}

theorem offsetOf?_eq (h : f.Usable) (b : Buffer) : f.offsetOf? b = some (f.offsetOf b) := by
  have hentry : ∀ n : UInt64, n ≤ 2 → f.layout.color[n.toNat]? = some (f.layout.colorOffset n) := fun n hn => by
    have hlt : n.toNat < 3 := Nat.lt_succ_of_le (UInt64.le_iff_toNat_le.1 hn)
    rw [FrameLayout.colorOffset, Vector.getElem?_eq_getElem hlt]
    rfl
  cases b with
  | front => exact hentry _ h.front_le
  | back => exact hentry _ h.back_le
  | aux => rfl

/-- a swap never subtracts a larger number -/
theorem rotate?_eq (h : f.Usable) (overlay : Option UInt32) : f.rotate? overlay = some (f.rotate overlay) := by
  cases overlay with
  | some address => rfl
  | none =>
    unfold FrameBuffer.rotate? rotate
    simp only
    split_ifs with hswap hthird
    · rfl
    · rfl
    · have hfront : f.front ≤ 1 := (h.pair (eq_false_of_ne_true hthird)).1
      have hrest : 1 - f.front ≤ 1 := by
        rw [UInt64.le_iff_toNat_le, UInt64.toNat_sub_of_le _ _ hfront]
        exact Nat.sub_le _ _
      rw [difference?, if_pos hfront, Option.bind_eq_bind, Option.bind_some, difference?, if_pos hrest]
      rfl

theorem withSwap (h : f.Usable) (swap : SwapState) : Usable { f with swap := swap } :=
  ⟨h.front_le, h.back_le, h.front_placed, h.back_placed, h.pair, h.color_le, h.aux_le⟩

end Usable
end FrameBuffer

namespace Chip

/-- **The buffer numbers are always usable.** After every run, and after the first `n` actions of it for every `n`:
- the numbers are at most 2, and at most 1 without a third buffer; the buffers that they name have a place, and every
  place lies in the memory;
- the layout has an entry for every buffer that is asked for;
- a swap, whatever is pending and wherever the overlay lies, never takes a number from a smaller one. -/
theorem buffers_usable (config : ChipConfig) (calls : List Call) (n : Nat) :
    let usable (f : FrameBuffer) : Prop :=
      f.Usable ∧ (∀ b, f.offsetOf? b = some (f.offsetOf b)) ∧
      ∀ swap overlay, FrameBuffer.rotate? { f with swap := swap } overlay =
        some (FrameBuffer.rotate { f with swap := swap } overlay)
    usable ((initial config).runCalls calls).1.frame ∧
      usable ((((initial config).history calls).take n).foldl act (initial config)).frame := by
  intro usable
  have hall : ∀ as : List Action, usable (as.foldl act (initial config)).frame := fun as => by
    have h : FrameBuffer.Usable _ := FrameBuffer.usable_of_placed (placed_foldl (placed_initial config) as)
    exact ⟨h, h.offsetOf?_eq, fun swap overlay => (h.withSwap swap).rotate?_eq overlay⟩
  refine ⟨?_, hall _⟩
  rw [frame_run]
  exact hall _

/-- three buffers, and two swaps that bring the third to the front -/
example :
    let calls : List Call := [.writeRegister 0x86 0x10, .writeRegister 0x4A 0, .writeRegister 0x4A 0]
    ((initial ChipConfig.standard).runCalls calls).1.frame.front = 2 := by
  decide +kernel

end Chip
end Accel3D
