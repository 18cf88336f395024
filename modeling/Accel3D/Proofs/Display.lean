/-
What changes the display: the layout of the frame buffer memory, the front and back buffers, the swaps and the fog
table, and the registers that they follow from.

No drawing changes the display, nor do uploads and linear writes. On Voodoo 1 and 2 three kinds of register write
change it and a retrace does: a swap command its swaps and its buffers, a fog register its fog table, and a write of a
layout register, once it is stored on the frame buffer side, its layout and its buffers. Drawing stores the stipple
register and a packed color the four setup colors (`Reg.isWorking`); every other register changes only where a write
is stored.

Results: `display_run` (what the effect of a write does to the display), `display_execute` and `display_act` (what a
register write and the other actions do to it), `displayChange` (each action changes it in one of these ways), `get_act`
(what an action does to a register).
-/
import Accel3D.Proofs.History
import Accel3D.Proofs.Shape

namespace Accel3D

/-! ## Registers and their effects -/

/-- registers that effects of writes store in, beyond the register that is written -/
def Reg.isWorking (r : Reg) : Bool :=
  [Reg.stipple, Reg.setupAlpha, Reg.setupRed, Reg.setupGreen, Reg.setupBlue].contains r

namespace Command

/-- the commands of Banshee's own registers -/
def isBanshee : Command → Bool
  | bufferRegister _ => true
  | announceSwap => true
  | _ => false

/-- the fog register that a command writes -/
def fogRegister? : Command → Option (Fin 32)
  | fogTable n => some n
  | _ => none

theorem isBanshee_ofRegister (v : Revision) (hv : v.hasBansheeLayout = false) :
    ∀ r : Reg, (ofRegister v r).isBanshee = false := by
  cases v with
  | voodoo1 => decide +kernel
  | voodoo2 => decide +kernel
  | banshee => cases hv

/-- the layout registers have no effect beyond their storing -/
theorem ofRegister_layout (v : Revision) (hv : v.hasBansheeLayout = false) :
    ∀ r : Reg, Chip.isLayoutRegister r = true → ofRegister v r = plain := by
  cases v with
  | voodoo1 => decide +kernel
  | voodoo2 => decide +kernel
  | banshee => cases hv

theorem fogRegister_ofRegister (v : Revision) :
    ∀ r : Reg, (ofRegister v r).fogRegister? = (place? Reg.fogTable 32 r).map (Fin.ofNat 32) := by
  cases v <;> decide +kernel

end Command

/-! ## The display -/

/-- what drawing leaves alone on the frame buffer side -/
structure Display where
  layout : FrameLayout
  front : UInt64
  back : UInt64
  fog : FogTable
  swap : SwapState
deriving DecidableEq

def Display.withFog (d : Display) (fog : FogTable) : Display := { d with fog := fog }

def FrameBuffer.display (f : FrameBuffer) : Display := ⟨f.layout, f.front, f.back, f.fog, f.swap⟩

namespace Chip

theorem display_paint (c : Chip) (draw : Canvas → Canvas) : (c.paint draw).frame.display = c.frame.display := rfl

theorem display_paintRaster (c : Chip) (r : Raster) : (c.paintRaster r).frame.display = c.frame.display := by
  unfold paintRaster
  -- what the triangle draws must not be looked at
  generalize r.draw = draw
  rfl

theorem display_drawTriangle (c : Chip) : c.drawTriangle.frame.display = c.frame.display := by
  have ha : c.atCentre.frame.display = c.frame.display := by
    unfold atCentre
    split <;> rfl
  rw [drawTriangle_eq]
  split
  · exact ha
  · rw [rasterize_eq, display_paintRaster]
    exact ha

theorem display_extendStrip (c : Chip) : c.extendStrip.frame.display = c.frame.display := by
  rw [extendStrip_eq]
  split
  · exact display_drawTriangle _
  · rfl

/-- the fog table after a fog write, which is for the frame buffer side only -/
def fogAfter (c : Chip) (select : ChipSelect) (n : Fin 32) (data : UInt32) : FogTable :=
  if select.frame then c.frame.fog.write n data else c.frame.fog

/-- what the effect of a write does to the display -/
theorem display_run (c : Chip) (command : Command) (select : ChipSelect) (data : UInt32) :
    (c.run command select data).frame.display =
      match command with
      | .swapBuffer => (c.frame.swapCommand data c.overlay).display
      | .fogTable n => { c.frame.display with fog := c.fogAfter select n data }
      | .bufferRegister r => (c.frame.writeBuffer r data).display
      | .announceSwap => c.frame.announceSwap.display
      | _ => c.frame.display := by
  cases command with
  | triangle => exact display_drawTriangle c
  | extendStrip => exact display_extendStrip c
  | fogTable n => simp only [run, fogAfter]; split <;> rfl
  | coordParameter p term form => simp only [run, writeCoord]; split <;> rfl
  | vertex n form => simp only [run]; split <;> rfl
  | pixelParameter p term form => simp only [run]; split <;> rfl
  | fastFill => exact display_paint c _
  | swapBuffer => rfl
  | bufferRegister r => rfl
  | announceSwap => rfl
  | nop => rfl
  | unpackColor => rfl
  | beginStrip => rfl
  | plain => rfl

/-! ## Registers that effects leave alone -/

theorem get_paint (c : Chip) (draw : Canvas → Canvas) (q : Reg) (h : q.isWorking = false) :
    (c.paint draw).regs.get q = c.regs.get q := by
  obtain ⟨v, hv⟩ : ∃ v, (c.paint draw).regs = c.regs.set Reg.stipple v := ⟨_, rfl⟩
  rw [hv, RegisterFile.get_set, if_neg]
  rintro rfl
  cases h

theorem get_drawTriangle (c : Chip) (q : Reg) (h : q.isWorking = false) : c.drawTriangle.regs.get q = c.regs.get q := by
  have ha : c.atCentre.regs = c.regs := by
    unfold atCentre
    split <;> rfl
  have hpaint : ∀ (d : Chip) (r : Raster), (d.paintRaster r).regs.get q = d.regs.get q := fun d r => by
    unfold paintRaster
    generalize r.draw = draw
    exact get_paint d draw q h
  rw [drawTriangle_eq, ← ha]
  split
  · rfl
  · rw [rasterize_eq, hpaint]
    rfl

theorem get_unpackColor (regs : RegisterFile) (data : UInt32) (q : Reg) (h : q.isWorking = false) :
    (SetupVertex.unpackColor regs data).get q = regs.get q := by
  simp only [Reg.isWorking, List.contains_cons, List.contains_nil, Bool.or_false, Bool.or_eq_false_iff,
    beq_eq_false_iff_ne, ne_eq] at h
  obtain ⟨-, ha, hr, hg, hb⟩ := h
  simp only [SetupVertex.unpackColor, RegisterFile.get_set, if_neg (Ne.symm ha), if_neg (Ne.symm hr),
    if_neg (Ne.symm hg), if_neg (Ne.symm hb)]

theorem get_run (c : Chip) (command : Command) (select : ChipSelect) (data : UInt32) (q : Reg)
    (h : q.isWorking = false) : (c.run command select data).regs.get q = c.regs.get q := by
  cases command with
  | triangle => exact get_drawTriangle c q h
  | extendStrip =>
    simp only [run]
    rw [extendStrip_eq]
    split
    · exact get_drawTriangle _ q h
    · rfl
  | unpackColor => exact get_unpackColor c.regs data q h
  | fastFill => exact get_paint c _ q h
  | fogTable n => simp only [run]; split <;> rfl
  | coordParameter p term form => simp only [run, writeCoord]; split <;> rfl
  | vertex n form => simp only [run]; split <;> rfl
  | pixelParameter p term form => simp only [run]; split <;> rfl
  | swapBuffer => rfl
  | bufferRegister r => rfl
  | announceSwap => rfl
  | nop => rfl
  | beginStrip => rfl
  | plain => rfl

/-! ## Register writes -/

def register (w : RegisterWrite) : Reg := Reg.ofAddress w.offset

/-- the effect of a write on this chip -/
def command (c : Chip) (w : RegisterWrite) : Command := Command.ofRegister c.revision (register w)

/-- the chips whose register files a write reaches -/
def reach (c : Chip) (w : RegisterWrite) : ChipSelect :=
  if (Access.of c.revision (register w)).writeThrough then ChipSelect.all else ChipSelect.ofAddress w.offset

/-- a write whose effect and storing are done, its layout still to follow -/
def stored (c : Chip) (w : RegisterWrite) : Chip :=
  (c.run (c.command w) (ChipSelect.ofAddress w.offset) w.data).storeRegister (c.reach w) (register w) w.data

/-- whether a write is stored in a register that the layout of Voodoo 1 and 2 follows from -/
def storesLayout (c : Chip) (w : RegisterWrite) : Bool :=
  (c.reach w).frame && !c.revision.hasBansheeLayout && isLayoutRegister (register w)

theorem execute_eq (c : Chip) (w : RegisterWrite) : c.execute w = (c.stored w).updateLayout (c.reach w) (register w) :=
  rfl

theorem shape_stored (c : Chip) (w : RegisterWrite) : (c.stored w).shape = c.shape := by
  rw [stored, shape_storeRegister, shape_run]

theorem revision_stored (c : Chip) (w : RegisterWrite) : (c.stored w).revision = c.revision :=
  congrArg (fun s => s.config.revision) (shape_stored c w)

theorem frame_stored (c : Chip) (w : RegisterWrite) :
    (c.stored w).frame = (c.run (c.command w) (ChipSelect.ofAddress w.offset) w.data).frame := by
  unfold stored storeRegister
  simp only
  split <;> rfl

/-- a write stored in a layout register makes the layout anew; any other leaves the display as its effect made it -/
theorem display_execute (c : Chip) (w : RegisterWrite) :
    (c.execute w).frame.display =
      if c.storesLayout w then ((c.stored w).frame.relayout c.revision (c.stored w).regs).display
      else (c.stored w).frame.display := by
  rw [execute_eq, updateLayout, revision_stored, storesLayout]
  split <;> rfl

/-- on Voodoo 1 and 2 the effect of a write on the display is a swap, a fog entry or nothing -/
theorem display_stored (c : Chip) (hb : c.revision.hasBansheeLayout = false) (w : RegisterWrite) :
    (c.stored w).frame.display =
      match c.command w with
      | .swapBuffer => (c.frame.swapCommand w.data none).display
      | .fogTable n => { c.frame.display with fog := c.fogAfter (ChipSelect.ofAddress w.offset) n w.data }
      | _ => c.frame.display := by
  have ho : c.overlay = none := by rw [overlay, hb]; rfl
  have hc : (c.command w).isBanshee = false := Command.isBanshee_ofRegister c.revision hb _
  rw [frame_stored, display_run, ho]
  generalize c.command w = command at hc
  cases command with
  | bufferRegister r => cases hc
  | announceSwap => cases hc
  | _ => rfl

theorem regs_execute (c : Chip) (w : RegisterWrite) : (c.execute w).regs = (c.stored w).regs := by
  rw [execute_eq, updateLayout]
  split <;> rfl

/-- a register holds the data of the last write that was stored in it on the frame buffer side -/
theorem get_execute (c : Chip) (w : RegisterWrite) (q : Reg) (h : q.isWorking = false) :
    (c.execute w).regs.get q = if (c.reach w).frame && register w == q then w.data else c.regs.get q := by
  rw [regs_execute]
  cases hf : (c.reach w).frame with
  | false =>
    rw [Bool.false_and, if_neg (by decide)]
    simp only [stored, storeRegister, hf]
    exact get_run c _ _ _ q h
  | true =>
    simp only [stored, storeRegister, hf, if_true, RegisterFile.get_set, Bool.true_and, beq_iff_eq]
    split
    · rfl
    · exact get_run c _ _ _ q h

/-! ## All actions -/

theorem shape_act (c : Chip) (a : Action) : (c.act a).shape = c.shape := by
  have k := kept_shape c.shape
  cases a with
  | write w => exact k.execute c w rfl
  | upload i offset data => exact k.upload c i offset data rfl
  | linearWrite offset data byteMask => exact k.linearWrite c offset data byteMask rfl
  | retrace => exact k.retrace c c.overlay rfl
  | endRetrace => rfl

theorem revision_act (c : Chip) (a : Action) : (c.act a).revision = c.revision :=
  congrArg (fun s => s.config.revision) (shape_act c a)

theorem notBanshee_act {c : Chip} (hb : c.revision.hasBansheeLayout = false) (a : Action) :
    (c.act a).revision.hasBansheeLayout = false := by rw [revision_act, hb]

/-- the other actions leave the display alone, but for a retrace -/
theorem display_act (c : Chip) (a : Action) :
    (c.act a).frame.display =
      match a with
      | .write w => (c.execute w).frame.display
      | .retrace => (c.frame.retrace c.overlay).display
      | _ => c.frame.display := by
  cases a with
  | linearWrite offset data byteMask =>
    simp only [act, linearWrite_eq]
    split
    · rfl
    · exact display_paint c _
  | _ => rfl

def swapCommand? (c : Chip) : Action → Option UInt32
  | .write w => if c.command w = .swapBuffer then some w.data else none
  | _ => none

def actStoresLayout (c : Chip) : Action → Bool
  | .write w => c.storesLayout w
  | _ => false

/-- all that an action can do to the display on Voodoo 1 and 2 -/
inductive DisplayChange (c : Chip) (a : Action) : Prop
  | swap (data : UInt32) (command : c.swapCommand? a = some data) (layout : c.actStoresLayout a = false)
      (display : (c.act a).frame.display = (c.frame.swapCommand data none).display)
  | retrace (action : a = .retrace) (display : (c.act a).frame.display = (c.frame.retrace none).display)
  | relayout (layout : c.actStoresLayout a = true) (command : c.swapCommand? a = none) (action : a ≠ .retrace)
      (f : FrameBuffer) (before : f.display = c.frame.display) (v : Revision) (regs : RegisterFile)
      (display : (c.act a).frame.display = (f.relayout v regs).display)
  | rest (layout : c.actStoresLayout a = false) (command : c.swapCommand? a = none) (action : a ≠ .retrace)
      (fog : FogTable) (display : (c.act a).frame.display = c.frame.display.withFog fog)

/-- **What an action does to the display.** -/
theorem displayChange (c : Chip) (hb : c.revision.hasBansheeLayout = false) (a : Action) : c.DisplayChange a := by
  have hd := display_act c a
  cases a with
  | write w =>
    have hstored := display_stored c hb w
    have hexecute := display_execute c w
    cases hl : c.storesLayout w with
    | true =>
      rw [hl, if_pos rfl] at hexecute
      have hlayout : isLayoutRegister (register w) = true := (Bool.and_eq_true_iff.1 hl).2
      have hplain : c.command w = .plain := Command.ofRegister_layout c.revision hb _ hlayout
      rw [hplain] at hstored
      exact .relayout hl (by simp [swapCommand?, hplain]) (by simp) _ hstored _ _ hexecute
    | false =>
      rw [hl, if_neg Bool.false_ne_true] at hexecute
      have hs := hexecute.trans hstored
      cases hcommand : c.command w with
      | swapBuffer =>
        rw [hcommand] at hs
        exact .swap w.data (by simp [swapCommand?, hcommand]) hl hs
      | fogTable n =>
        rw [hcommand] at hs
        exact .rest hl (by simp [swapCommand?, hcommand]) (by simp) _ hs
      | _ =>
        rw [hcommand] at hs
        exact .rest hl (by simp [swapCommand?, hcommand]) (by simp) c.frame.fog hs
  | retrace =>
    have ho : c.overlay = none := by rw [overlay, hb]; rfl
    rw [ho] at hd
    exact .retrace rfl hd
  | upload i offset data => exact .rest rfl rfl (by simp) c.frame.fog hd
  | linearWrite offset data byteMask => exact .rest rfl rfl (by simp) c.frame.fog hd
  | endRetrace => exact .rest rfl rfl (by simp) c.frame.fog hd

/-- what an action does to a register -/
theorem get_act (c : Chip) (a : Action) (q : Reg) (h : q.isWorking = false) :
    (c.act a).regs.get q =
      match a with
      | .write w => if (c.reach w).frame && register w == q then w.data else c.regs.get q
      | _ => c.regs.get q := by
  cases a with
  | write w => exact get_execute c w q h
  | linearWrite offset data byteMask =>
    simp only [act, linearWrite_eq]
    split
    · rfl
    · exact get_paint c _ q h
  | upload i offset data => rfl
  | retrace => rfl
  | endRetrace => rfl

end Chip
end Accel3D
