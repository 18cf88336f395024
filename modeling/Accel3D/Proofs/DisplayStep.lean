/-
What an action does to the display, on every revision.

`displayChange` tells it for Voodoo 1 and 2. Banshee has two commands of its own that change the display: a swap is
announced ahead of its command, and a buffer register is written; it has no layout that follows from the fbiInit
registers, and its swaps take the front buffer from the overlay register. With these an action changes the display in
one of six ways (`DisplayStep`), and of the swaps nothing but a swap command, a retrace and an announcement changes
anything.

Results: `displayStep` (each action changes the display in one of these ways), `swap_act_eq` (what an action does to the
swaps, but for how many are pending).
-/
import Accel3D.Proofs.Swap

namespace Accel3D
namespace Chip

/-- all that an action can do to the display -/
inductive DisplayStep (c : Chip) (a : Action) : Prop
  | swap (data : UInt32) (command : c.swapCommand? a = some data)
      (display : (c.act a).frame.display = (c.frame.swapCommand data c.overlay).display)
  | retrace (action : a = .retrace) (display : (c.act a).frame.display = (c.frame.retrace c.overlay).display)
  | announce (command : c.swapCommand? a = none) (action : a ≠ .retrace)
      (display : (c.act a).frame.display = c.frame.announceSwap.display)
  | buffer (banshee : c.revision.hasBansheeLayout = true) (command : c.swapCommand? a = none) (action : a ≠ .retrace)
      (r : Reg) (data : UInt32) (display : (c.act a).frame.display = (c.frame.writeBuffer r data).display)
  | relayout (banshee : c.revision.hasBansheeLayout = false) (command : c.swapCommand? a = none) (action : a ≠ .retrace)
      (regs : RegisterFile) (display : (c.act a).frame.display = (c.frame.relayout c.revision regs).display)
  | rest (command : c.swapCommand? a = none) (action : a ≠ .retrace) (fog : FogTable)
      (display : (c.act a).frame.display = c.frame.display.withFog fog)

theorem banshee_of_command {c : Chip} {w : RegisterWrite} (h : (c.command w).isBanshee = true) :
    c.revision.hasBansheeLayout = true := by
  cases hb : c.revision.hasBansheeLayout with
  | true => rfl
  | false =>
    have hnone := Command.isBanshee_ofRegister c.revision hb (register w)
    exact absurd (hnone.symm.trans h) Bool.false_ne_true

/-- a register write that is not stored in a layout register changes the display as its effect does -/
theorem displayStep_write (c : Chip) (w : RegisterWrite) (hl : c.storesLayout w = false) :
    c.DisplayStep (.write w) := by
  have hdisplay := display_execute c w
  rw [hl, if_neg Bool.false_ne_true, frame_stored, display_run] at hdisplay
  have haction : Action.write w ≠ .retrace := by simp
  cases hc : c.command w with
  | swapBuffer =>
    rw [hc] at hdisplay
    exact .swap w.data (by simp [swapCommand?, hc]) hdisplay
  | bufferRegister r =>
    rw [hc] at hdisplay
    exact .buffer (banshee_of_command (by rw [hc]; rfl)) (by simp [swapCommand?, hc]) haction r w.data hdisplay
  | announceSwap =>
    rw [hc] at hdisplay
    exact .announce (by simp [swapCommand?, hc]) haction hdisplay
  | fogTable n =>
    rw [hc] at hdisplay
    exact .rest (by simp [swapCommand?, hc]) haction _ hdisplay
  | _ =>
    rw [hc] at hdisplay
    exact .rest (by simp [swapCommand?, hc]) haction c.frame.fog hdisplay

/-- a write stored in a layout register makes the layout anew and has no other effect -/
theorem displayStep_layout (c : Chip) (w : RegisterWrite) (hl : c.storesLayout w = true) :
    c.DisplayStep (.write w) := by
  obtain ⟨hreach, hlayout⟩ := Bool.and_eq_true_iff.1 hl
  have hb : c.revision.hasBansheeLayout = false := by simpa using (Bool.and_eq_true_iff.1 hreach).2
  have hplain : c.command w = .plain := Command.ofRegister_layout c.revision hb _ hlayout
  have hdisplay := display_execute c w
  rw [hl, if_pos rfl, frame_stored, hplain] at hdisplay
  exact .relayout hb (by simp [swapCommand?, hplain]) (by simp) _ hdisplay

/-- **What an action does to the display.** -/
theorem displayStep (c : Chip) (a : Action) : c.DisplayStep a := by
  have hdisplay := display_act c a
  cases a with
  | write w =>
    cases hl : c.storesLayout w with
    | true => exact displayStep_layout c w hl
    | false => exact displayStep_write c w hl
  | retrace => exact .retrace rfl hdisplay
  | upload i offset data => exact .rest rfl (by simp) c.frame.fog hdisplay
  | linearWrite offset data byteMask => exact .rest rfl (by simp) c.frame.fog hdisplay
  | endRetrace => exact .rest rfl (by simp) c.frame.fog hdisplay

/-- the swaps after a command or a retrace, before any announcement is counted -/
def swapAfter (c : Chip) (a : Action) : SwapState :=
  match c.swapCommand? a with
  | some data => c.frame.swap.commanded data
  | none => if a = .retrace then c.frame.swap.atRetrace else c.frame.swap

theorem swapAfter_of_command {c : Chip} {a : Action} {data : UInt32} (h : c.swapCommand? a = some data) :
    c.swapAfter a = c.frame.swap.commanded data := by rw [swapAfter, h]

theorem swapAfter_of_rest {c : Chip} {a : Action} (h : c.swapCommand? a = none) (ha : a ≠ .retrace) :
    c.swapAfter a = c.frame.swap := by rw [swapAfter, h]; exact if_neg ha

/-- the swaps after an action: a command or a retrace changes them, and nothing else does but for the number of those
that are pending -/
theorem swap_act_eq (c : Chip) (a : Action) :
    ∃ pending, (c.act a).frame.swap = { c.swapAfter a with pending := pending } := by
  cases displayStep c a with
  | swap data command display =>
    obtain ⟨l, front, back, -, e⟩ := c.frame.swapCommand_eq data c.overlay
    rw [e] at display
    rw [swapAfter_of_command command]
    exact ⟨_, congrArg Display.swap display⟩
  | retrace action display =>
    subst action
    obtain ⟨l, front, back, -, e⟩ := c.frame.retrace_eq c.overlay
    rw [e] at display
    exact ⟨_, congrArg Display.swap display⟩
  | announce command action display =>
    rw [swapAfter_of_rest command action]
    exact ⟨_, congrArg Display.swap display⟩
  | buffer banshee command action r data display =>
    rw [swapAfter_of_rest command action]
    exact ⟨_, congrArg Display.swap display⟩
  | relayout banshee command action regs display =>
    rw [swapAfter_of_rest command action]
    exact ⟨_, congrArg Display.swap display⟩
  | rest command action fog display =>
    rw [swapAfter_of_rest command action]
    exact ⟨_, congrArg Display.swap display⟩

end Chip
end Accel3D
