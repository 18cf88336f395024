/-
When the front and the back buffer are the same on Voodoo 1 and 2.

The buffer numbers move through the rotation of two or of three buffers (`Buffers.Rotation`). A swap that moves them
leaves them apart. A new layout keeps them, but for the number of a third buffer that is gone: it becomes 0. When the
third buffer is in front, 0 is the number of the back buffer already. So the two become the same when the third buffer
is taken away while it is in front, in no other way, and they stay the same until the next swap that moves them.

Results: `buffers_cases` (all that an action can do to the buffers), `rotation_foldl` (the numbers that occur),
`buffers_coincide` (after every run, when the two are the same and when the next action makes or leaves them so).
-/
import Accel3D.Proofs.Swap

namespace Accel3D

/-- the numbers of the front and the back buffer, and whether there is a third -/
structure Buffers where
  third : Bool
  front : UInt64
  back : UInt64
deriving DecidableEq, Repr

namespace Buffers

def next (b : Buffers) : Buffers :=
  if b.third then ⟨true, (b.front + 1) % 3, ((b.front + 1) % 3 + 1) % 3⟩
  else ⟨false, 1 - b.front, 1 - (1 - b.front)⟩

theorem third_next (b : Buffers) : b.next.third = b.third := by
  unfold next
  split <;> rename_i h
  · exact h.symm
  · exact (eq_false_of_ne_true h).symm

def renumber (third : Bool) (n : UInt64) : UInt64 := if !third && n == 2 then 0 else n

def relaid (b : Buffers) (third : Bool) : Buffers := ⟨third, renumber third b.front, renumber third b.back⟩

/-- the buffers that swaps and new layouts give, from the first ones on -/
inductive Rotation : Buffers → Prop
  | first (third : Bool) : Rotation ⟨third, 0, 1⟩
  | swapped (third : Bool) : Rotation ⟨third, 1, 0⟩
  | same (third : Bool) : Rotation ⟨third, 0, 0⟩
  | second : Rotation ⟨true, 1, 2⟩
  | last : Rotation ⟨true, 2, 0⟩

namespace Rotation

theorem next {b : Buffers} (h : b.Rotation) : b.next.Rotation := by
  cases h with
  | first third => cases third with
    | false => exact .swapped false
    | true => exact .second
  | swapped third => cases third with
    | false => exact .first false
    | true => exact .last
  | same third => cases third with
    | false => exact .swapped false
    | true => exact .second
  | second => exact .last
  | last => exact .first true

theorem relaid {b : Buffers} (h : b.Rotation) (third : Bool) : (b.relaid third).Rotation := by
  cases h with
  | first _ => cases third <;> exact .first _
  | swapped _ => cases third <;> exact .swapped _
  | same _ => cases third <;> exact .same _
  | second => cases third with
    | false => exact .swapped false
    | true => exact .second
  | last => cases third with
    | false => exact .same false
    | true => exact .last

theorem next_ne {b : Buffers} (h : b.Rotation) : b.next.front ≠ b.next.back := by
  cases h with
  | first third => cases third <;> decide
  | swapped third => cases third <;> decide
  | same third => cases third <;> decide
  | second => decide
  | last => decide

/-- a new layout makes the buffers the same if it takes away the third buffer while that is in front -/
theorem relaid_eq_iff {b : Buffers} (h : b.Rotation) (third : Bool) :
    (b.relaid third).front = (b.relaid third).back ↔ b.front = b.back ∨ b.front = 2 ∧ third = false := by
  cases h with
  | first _ => cases third <;> simp [Buffers.relaid, renumber]
  | swapped _ => cases third <;> simp [Buffers.relaid, renumber]
  | same _ => cases third <;> simp [Buffers.relaid, renumber]
  | second => cases third <;> simp [Buffers.relaid, renumber]
  | last => cases third <;> simp [Buffers.relaid, renumber]

theorem eq_zero {b : Buffers} (h : b.Rotation) (he : b.front = b.back) : b.front = 0 := by
  cases h with
  | same _ => rfl
  | first _ | swapped _ | second | last => exact absurd he (by simp)

theorem third_of_front {b : Buffers} (h : b.Rotation) (hf : b.front = 2) : b.third = true := by
  cases h with
  | last => rfl
  | first _ | swapped _ | same _ | second => exact absurd hf (by simp)

end Rotation
end Buffers

def Display.buffers (d : Display) : Buffers := ⟨d.layout.hasThird, d.front, d.back⟩

namespace FrameBuffer

def buffers (f : FrameBuffer) : Buffers := f.display.buffers

theorem buffers_rotate (f : FrameBuffer) :
    (f.rotate none).buffers = if f.swap.dontSwap then f.buffers else f.buffers.next := by
  show (if f.swap.dontSwap then f
    else if f.layout.hasThird then _ else _ : FrameBuffer).buffers = if f.swap.dontSwap then f.buffers else _
  split
  · rfl
  · split <;> rename_i ht <;> simp [buffers, display, Display.buffers, Buffers.next, ht]

theorem buffers_swapNow (f : FrameBuffer) :
    (f.swapNow none).buffers = if f.swap.dontSwap then f.buffers else f.buffers.next :=
  buffers_rotate f

theorem buffers_swapCommand (f : FrameBuffer) (data : UInt32) :
    (f.swapCommand data none).buffers = if !bit data 0 && !bit data 9 then f.buffers.next else f.buffers := by
  cases h0 : bit data 0 with
  | true =>
    simp only [swapCommand, h0]
    rfl
  | false =>
    simp only [swapCommand, h0, Bool.not_false, Bool.true_and]
    have h := buffers_swapNow { f with swap := f.swap.command data }
    change _ = if bit data 9 then f.buffers else f.buffers.next at h
    cases h9 : bit data 9 <;> rw [h9] at h <;> exact h

theorem buffers_retrace (f : FrameBuffer) :
    (f.retrace none).buffers =
      if f.swap.retrace.isDue && !f.swap.dontSwap then f.buffers.next else f.buffers := by
  cases hdue : f.swap.retrace.isDue with
  | false =>
    simp only [retrace, hdue]
    rfl
  | true =>
    simp only [retrace, hdue, Bool.true_and]
    have h := buffers_swapNow { f with inRetrace := true, swap := f.swap.retrace }
    change _ = if f.swap.dontSwap then f.buffers else f.buffers.next at h
    cases hd : f.swap.dontSwap <;> rw [hd] at h <;> exact h

end FrameBuffer

namespace Chip

/-- an action that carries out a swap and moves the buffers -/
def moves (c : Chip) (a : Action) : Bool :=
  match c.swapCommand? a with
  | some data => !bit data 0 && !bit data 9
  | none => a = .retrace && c.frame.swap.retrace.isDue && !c.frame.swap.dontSwap

/-- **All that an action can do to the buffers.** It moves them, or a new layout renumbers them, or they stay. -/
theorem buffers_cases (c : Chip) (hb : c.revision.hasBansheeLayout = false) (a : Action) :
    c.moves a = true ∧ (c.act a).frame.buffers = c.frame.buffers.next ∨
    c.moves a = false ∧ (c.act a).frame.buffers = c.frame.buffers.relaid (c.act a).frame.layout.hasThird ∨
    c.moves a = false ∧ (c.act a).frame.buffers = c.frame.buffers := by
  cases displayChange c hb a with
  | swap data command layout display =>
    have h := (congrArg Display.buffers display).trans (c.frame.buffers_swapCommand data)
    simp only [moves, command]
    cases hm : !bit data 0 && !bit data 9 with
    | true =>
      rw [hm] at h
      exact .inl ⟨rfl, h⟩
    | false =>
      rw [hm] at h
      exact .inr (.inr ⟨rfl, h⟩)
  | retrace action display =>
    subst action
    have h := (congrArg Display.buffers display).trans c.frame.buffers_retrace
    cases hm : c.frame.swap.retrace.isDue && !c.frame.swap.dontSwap with
    | true =>
      rw [hm] at h
      exact .inl ⟨hm, h⟩
    | false =>
      rw [hm] at h
      exact .inr (.inr ⟨hm, h⟩)
  | relayout layout command action f before v regs display =>
    have h : (c.act a).frame.buffers = c.frame.buffers.relaid (f.relayout v regs).layout.hasThird := by
      rw [FrameBuffer.buffers, display, FrameBuffer.buffers, ← before]
      rfl
    refine .inr (.inl ⟨by simp [moves, command, action], ?_⟩)
    rw [h, show (c.act a).frame.layout.hasThird = _ from congrArg Buffers.third h]
    rfl
  | rest layout command action fog display =>
    have h := congrArg Display.buffers display
    exact .inr (.inr ⟨by simp [moves, command, action], h⟩)

theorem rotation_act (c : Chip) (hb : c.revision.hasBansheeLayout = false) (a : Action)
    (h : c.frame.buffers.Rotation) : (c.act a).frame.buffers.Rotation := by
  obtain ⟨-, e⟩ | ⟨-, e⟩ | ⟨-, e⟩ := buffers_cases c hb a
  · rw [e]; exact h.next
  · rw [e]; exact h.relaid _
  · rw [e]; exact h

theorem coincide_act (c : Chip) (hb : c.revision.hasBansheeLayout = false) (a : Action)
    (h : c.frame.buffers.Rotation) :
    (c.act a).frame.front = (c.act a).frame.back ↔
      c.frame.front = c.frame.back ∧ c.moves a = false ∨
        c.frame.front = 2 ∧ (c.act a).frame.layout.hasThird = false := by
  show (c.act a).frame.buffers.front = (c.act a).frame.buffers.back ↔
    c.frame.buffers.front = c.frame.buffers.back ∧ _ ∨ c.frame.buffers.front = 2 ∧ (c.act a).frame.buffers.third = false
  obtain ⟨hm, e⟩ | ⟨hm, e⟩ | ⟨hm, e⟩ := buffers_cases c hb a
  · rw [e, hm, Buffers.third_next]
    refine iff_of_false h.next_ne ?_
    rintro (⟨-, hf⟩ | ⟨hf, ht⟩)
    · cases hf
    · exact Bool.false_ne_true (ht.symm.trans (h.third_of_front hf))
  · rw [hm, e, h.relaid_eq_iff, and_iff_left rfl]
    rfl
  · rw [hm, e, and_iff_left rfl]
    refine ⟨.inl, ?_⟩
    rintro (he | ⟨hf, ht⟩)
    · exact he
    · exact absurd (ht.symm.trans (h.third_of_front hf)) Bool.false_ne_true

/-- after any actions the buffers have numbers of the rotation -/
theorem rotation_foldl (c : Chip) (hb : c.revision.hasBansheeLayout = false) (as : List Action)
    (h : c.frame.buffers.Rotation) : (as.foldl act c).frame.buffers.Rotation := by
  induction as generalizing c with
  | nil => exact h
  | cons a as ih =>
    exact ih (c.act a) (notBanshee_act hb a) (rotation_act c hb a h)

/-- an action that takes the third buffer away while it is in front -/
def takesFront (c : Chip) (a : Action) : Bool := c.frame.front == 2 && !(c.act a).frame.layout.hasThird

def anyTakesFront (c : Chip) : List Action → Bool
  | [] => false
  | a :: as => c.takesFront a || (c.act a).anyTakesFront as

/-- buffers that are apart stay so as long as no action takes away the third buffer while it is in front -/
theorem apart_foldl (c : Chip) (hb : c.revision.hasBansheeLayout = false) (as : List Action)
    (h : c.frame.buffers.Rotation) (hne : c.frame.front ≠ c.frame.back) (ht : c.anyTakesFront as = false) :
    (as.foldl act c).frame.front ≠ (as.foldl act c).frame.back := by
  induction as generalizing c with
  | nil => exact hne
  | cons a as ih =>
    obtain ⟨hfirst, hrest⟩ := Bool.or_eq_false_iff.1 ht
    refine ih (c.act a) (notBanshee_act hb a) (rotation_act c hb a h) ?_ hrest
    intro he
    obtain ⟨he, -⟩ | ⟨hf, hthird⟩ := (coincide_act c hb a h).1 he
    · exact hne he
    · simp [takesFront, hf, hthird] at hfirst

/-- **When the front and the back buffer are the same.** After every run the two are apart if no action took the third
buffer away while it was in front; if they are the same, both are the first one. And of every next action, whatever the
run was: the two are the same after it exactly if they were before and it does not move them, or if it takes the third
buffer away while it is in front. -/
theorem buffers_coincide (config : ChipConfig) (hb : config.revision.hasBansheeLayout = false) (calls : List Call) :
    let c := ((initial config).runCalls calls).1
    c.frame.buffers.Rotation ∧
    ((initial config).anyTakesFront ((initial config).history calls) = false → c.frame.front ≠ c.frame.back) ∧
    (c.frame.front = c.frame.back → c.frame.front = 0) ∧
    ∀ a, (c.act a).frame.front = (c.act a).frame.back ↔
      c.frame.front = c.frame.back ∧ c.moves a = false ∨ c.takesFront a = true := by
  intro c
  have hc : c.frame = (((initial config).history calls).foldl act (initial config)).frame := frame_run _ calls
  have hrev : c.revision.hasBansheeLayout = false := by
    rw [show c.revision = config.revision from revision_run _ calls, hb]
  have hr : c.frame.buffers.Rotation := by
    rw [hc]
    exact rotation_foldl (initial config) hb _ (.first false)
  refine ⟨hr, fun ht => ?_, fun he => hr.eq_zero he, fun a => ?_⟩
  · rw [hc]
    exact apart_foldl (initial config) hb _ (.first false) (show (0 : UInt64) ≠ 1 by decide) ht
  · rw [coincide_act c hrev a hr]
    simp [takesFront]

/-- three buffers, two swaps, and then two buffers -/
theorem buffers_coincide_dropped :
    let before : List Call := [.writeRegister 0x86 0x10, .writeRegister 0x4A 0, .writeRegister 0x4A 0]
    let c := ((initial ChipConfig.standard).runCalls before).1
    (c.act (.write ⟨0x86, 0⟩)).frame.front = (c.act (.write ⟨0x86, 0⟩)).frame.back := by
  intro before c
  obtain ⟨-, -, -, hact⟩ := buffers_coincide ChipConfig.standard rfl before
  refine (hact _).2 (.inr ?_)
  decide +kernel

/-- a run after which the front and the back buffer are the same -/
theorem front_eq_back :
    let calls : List Call :=
      [.writeRegister 0x86 0x10, .writeRegister 0x4A 0, .writeRegister 0x4A 0, .writeRegister 0x86 0]
    let c := ((initial ChipConfig.standard).runCalls calls).1
    c.frame.front = 0 ∧ c.frame.back = 0 := by
  decide +kernel

end Chip
end Accel3D
