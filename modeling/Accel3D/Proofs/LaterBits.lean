/-
Chips of Voodoo 1 that differ in bits which only Voodoo 2 has.

Two chips of Voodoo 1 that differ in nothing but marked bits of their registers (`Chip.EqualButLater`), and in none that
a pixel sees, cannot be told apart by what they draw (`Chip.Indistinct`): every action keeps them so, register writes by
cases over their effects. A triangle is drawn by what is heeded of its mode registers, so it is the same in both.

Results: `Indistinct.act` (one action); `later_bits_inert` (a run); `later_bits_seen` (the three bits that a pixel sees
are seen).
-/
import Accel3D.Proofs.Derived.Eager
import Accel3D.Proofs.Halfword
import Accel3D.Proofs.MarkedBits

namespace Accel3D.Chip

/-! ## Chips -/

/-- chips that differ in marked bits of their registers only, and in what their caches hold -/
structure EqualButLater (c d : Chip) : Prop where
  config : c.config = d.config
  frame : c.frame = d.frame
  queue : c.queue = d.queue
  setup : c.setup = d.setup
  regs : c.regs.EqualButLater d.regs
  size : c.textures.size = d.textures.size
  unit : ∀ i (h : i < c.textures.size) (h' : i < d.textures.size), c.textures[i].EqualButLater d.textures[i]

namespace EqualButLater

variable {c d : Chip}

theorem revision (h : c.EqualButLater d) : c.revision = d.revision := congrArg ChipConfig.revision h.config

theorem setupMode (h : c.EqualButLater d) : c.setupMode = d.setupMode := by
  rw [Chip.setupMode, Chip.setupMode, h.regs.get_eq Reg.setupMode rfl]

theorem modifyFrame (h : c.EqualButLater d) (f : FrameBuffer → FrameBuffer) :
    (c.modifyFrame f).EqualButLater (d.modifyFrame f) :=
  ⟨h.config, congrArg f h.frame, h.queue, h.setup, h.regs, h.size, h.unit⟩

theorem mapTextures (h : c.EqualButLater d) {f : Nat → TextureUnit → TextureUnit}
    (hf : ∀ i u v, TextureUnit.EqualButLater u v → (f i u).EqualButLater (f i v)) :
    (c.mapTextures f).EqualButLater (d.mapTextures f) := by
  refine ⟨h.config, h.frame, h.queue, h.setup, h.regs, ?_, fun i hi hi' => ?_⟩
  · simp only [Chip.mapTextures, withTextures, Array.size_mapIdx, h.size]
  · simp only [Chip.mapTextures, withTextures, Array.getElem_mapIdx]
    exact hf i _ _ (h.unit i _ _)

/-- a drawing sees the stipple register and no other -/
theorem paint (h : c.EqualButLater d) (draw : Canvas → Canvas) : (c.paint draw).EqualButLater (d.paint draw) := by
  have hsame : c.frame.paint (c.regs.get Reg.stipple) draw = d.frame.paint (d.regs.get Reg.stipple) draw := by
    rw [h.frame, h.regs.get_eq Reg.stipple rfl]
  refine ⟨h.config, congrArg Prod.fst hsame, h.queue, h.setup, ?_, h.size, h.unit⟩
  show (c.regs.set Reg.stipple (c.frame.paint (c.regs.get Reg.stipple) draw).2).EqualButLater _
  rw [hsame]
  exact h.regs.set Reg.stipple (.refl _ _)

/-! ## Triangles -/

theorem colorPath_bit (h : c.EqualButLater d) (i : Nat) (hi : i < 28) :
    bit (c.regs.get Reg.fbzColorPath) i = bit (d.regs.get Reg.fbzColorPath) i := by
  refine h.regs Reg.fbzColorPath i ?_
  show i ∉ [28, 29]
  simp only [List.mem_cons, List.not_mem_nil, or_false]
  omega

theorem textureCount (h : c.EqualButLater d) : c.textureCount = d.textureCount := by
  have henable : (ColorPath.decode (c.regs.get Reg.fbzColorPath)).textureEnable =
      (ColorPath.decode (d.regs.get Reg.fbzColorPath)).textureEnable := h.colorPath_bit 27 (by decide)
  rw [Chip.textureCount, Chip.textureCount, texturesRemoved, texturesRemoved, henable, h.regs.get_eq Reg.fbiInit3 rfl,
    h.size]

theorem triangleBase (h : c.EqualButLater d) : c.triangleBase = d.triangleBase := by
  have hmode := FrameMode.decode_later (h.regs Reg.fbzMode)
  rw [Chip.triangleBase, Chip.triangleBase, hmode, h.frame, h.revision]

theorem atCentre (h : c.EqualButLater d) : c.atCentre.EqualButLater d.atCentre := by
  have hadjust : (ColorPath.decode (c.regs.get Reg.fbzColorPath)).subpixelAdjust =
      (ColorPath.decode (d.regs.get Reg.fbzColorPath)).subpixelAdjust := h.colorPath_bit 26 (by decide)
  unfold Chip.atCentre
  rw [hadjust, h.textureCount]
  split
  · unfold recentre
    rw [h.frame]
    refine EqualButLater.modifyFrame (h.mapTextures fun i u v hu => ?_) fun f =>
      { f with triangle := f.triangle.recentre }
    split
    · exact hu.setGradients fun g => g.recentre d.frame.triangle.a.toCentre
    · exact hu
  · exact h

theorem draw_directRaster (h : c.EqualButLater d) (hlive : c.regs.SameLive d.regs) (hrevision : c.revision = .voodoo1)
    (n : Nat) (base : UInt32) : (c.directRaster n base).draw = (d.directRaster n base).draw := by
  have hcombine : Combine.ofColorPath (c.regs.get Reg.fbzColorPath) =
      Combine.ofColorPath (d.regs.get Reg.fbzColorPath) :=
    Combine.ofColorPath_congr fun i _ hi => h.colorPath_bit i (by omega)
  have hrules := PixelRules.heeded_congr h.regs hlive (Combine.ofColorPath (d.regs.get Reg.fbzColorPath))
  have hflip : ∀ v unit, (PixelRules.ofRegisters v c.regs unit).frame.flipY =
      (PixelRules.ofRegisters v d.regs unit).frame.flipY := fun _ _ => by
    simp only [PixelRules.ofRegisters, FrameMode.decode_later (h.regs Reg.fbzMode)]
  have hstages : (c.directRaster n base).stages.map TextureStage.heeded =
      (d.directRaster n base).stages.map TextureStage.heeded := by
    simp only [Chip.directRaster, List.map_filterMap]
    refine List.filterMap_congr fun i hi => ?_
    by_cases hc : i < c.textures.size
    · have hd : i < d.textures.size := h.size ▸ hc
      have hu := h.unit i hc hd
      rw [Array.getElem?_eq_getElem hc, Array.getElem?_eq_getElem hd]
      simp only [Option.bind_eq_bind, Option.bind_some, hu.triangleLod_eq, hu.modeWord_eq]
      cases c.textures[i].triangleLod with
      | none => rfl
      | some base => exact congrArg some (hu.stage_eq base _)
    · have hd : ¬ i < d.textures.size := h.size ▸ hc
      rw [Array.getElem?_eq_none (Nat.not_lt.1 hc), Array.getElem?_eq_none (Nat.not_lt.1 hd)]
  have hsame : (c.directRaster n base).heeded = (d.directRaster n base).heeded := by
    have hd : d.revision = .voodoo1 := h.revision ▸ hrevision
    unfold Raster.heeded
    rw [hstages]
    simp only [Chip.directRaster, Pipeline.heeded, hcombine, hrevision, hd, hrules, hflip, h.frame]
  rw [← Raster.draw_heeded, hsame, Raster.draw_heeded]

theorem paintRaster (h : c.EqualButLater d) {r r' : Raster} (hdraw : r.draw = r'.draw) :
    (c.paintRaster r).EqualButLater (d.paintRaster r') := by
  unfold Chip.paintRaster
  rw [hdraw]
  exact (h.paint r'.draw).modifyFrame fun f => { f with trianglesOut := f.trianglesOut + 1 }

theorem drawDirect (h : c.EqualButLater d) (hlive : c.regs.SameLive d.regs) (hrevision : c.revision = .voodoo1) :
    c.drawDirect.EqualButLater d.drawDirect := by
  have hregs : ∀ e : Chip, e.atCentre.regs = e.regs := fun e => by
    unfold Chip.atCentre
    split <;> rfl
  have hsame : c.atCentre.revision = c.revision := by
    unfold Chip.atCentre
    split <;> rfl
  unfold Chip.drawDirect
  rw [h.atCentre.triangleBase, h.textureCount]
  cases d.atCentre.triangleBase with
  | none => exact h.atCentre
  | some base =>
    have hready : (c.atCentre.modifyTextures d.textureCount TextureUnit.refreshAll).EqualButLater
        (d.atCentre.modifyTextures d.textureCount TextureUnit.refreshAll) :=
      h.atCentre.mapTextures fun i u v hu => by
        split
        · exact hu.refreshAll
        · exact hu
    have hready_live : (c.atCentre.modifyTextures d.textureCount TextureUnit.refreshAll).regs.SameLive
        (d.atCentre.modifyTextures d.textureCount TextureUnit.refreshAll).regs := by
      show c.atCentre.regs.SameLive d.atCentre.regs
      rw [hregs, hregs]
      exact hlive
    exact hready.paintRaster (hready.draw_directRaster hready_live (hsame.trans hrevision) d.textureCount base)

/-- a triangle sees no marked bit but the live ones -/
theorem drawTriangle (h : c.EqualButLater d) (hlive : c.regs.SameLive d.regs) (hrevision : c.revision = .voodoo1)
    (hc : c.modes.Reachable) (hd : d.modes.Reachable) : c.drawTriangle.EqualButLater d.drawTriangle := by
  have huncached : c.uncached.EqualButLater d.uncached := { h with }
  have hdirect := huncached.drawDirect hlive hrevision
  rw [← drawTriangle_direct c hc, ← drawTriangle_direct d hd] at hdirect
  exact { hdirect with }

/-! ## Register writes -/

theorem writeCoord (h : c.EqualButLater d) (select : ChipSelect) (p : CoordParameter) (term : GradientTerm)
    (value : Int64) : (c.writeCoord select p term value).EqualButLater (d.writeCoord select p term value) := by
  have hframe : (if select.frame then
        c.modifyFrame fun f => { f with triangle := f.triangle.writeCoord p term value } else c).EqualButLater
      (if select.frame then
        d.modifyFrame fun f => { f with triangle := f.triangle.writeCoord p term value } else d) := by
    split
    · exact h.modifyFrame _
    · exact h
  refine hframe.mapTextures (f := fun i u =>
    if select.texture i then { u with gradients := u.gradients.write p term value } else u) fun i u v hu => ?_
  split
  · exact hu.setGradients fun g => g.write p term value
  · exact hu

theorem fastFill (h : c.EqualButLater d) : c.fastFill.EqualButLater d.fastFill := by
  have hmode := FrameMode.decode_later (h.regs Reg.fbzMode)
  have hfill : ∀ layout base, (FastFill.ofRegisters c.regs layout base).run =
      (FastFill.ofRegisters d.regs layout base).run := fun layout base => by
    rw [← (FastFill.ofRegisters c.regs layout base).run_withFloatDepth (bit (d.regs.get Reg.fbzMode) 21)]
    simp only [FastFill.withFloatDepth, FastFill.ofRegisters, hmode, h.regs.get_eq Reg.clipLeftRight rfl,
      h.regs.get_eq Reg.clipLowYHighY rfl, h.regs.get_eq Reg.color1 rfl, h.regs.get_eq Reg.zaColor rfl]
  have hbase : c.frame.drawOffset c.revision (FrameMode.decode (c.regs.get Reg.fbzMode)).drawBuffer =
      d.frame.drawOffset d.revision (FrameMode.decode (d.regs.get Reg.fbzMode)).drawBuffer := h.triangleBase
  simp only [Chip.fastFill]
  rw [hfill, hbase, h.frame]
  exact h.paint _

theorem withSetup (h : c.EqualButLater d) (setup : SetupUnit) :
    EqualButLater { c with setup := setup } { d with setup := setup } :=
  ⟨h.config, h.frame, h.queue, rfl, h.regs, h.size, h.unit⟩

theorem setupVertex (h : c.EqualButLater d) : SetupVertex.ofRegisters c.regs = SetupVertex.ofRegisters d.regs := by
  simp only [SetupVertex.ofRegisters, h.regs.get_eq Reg.setupX rfl, h.regs.get_eq Reg.setupY rfl,
    h.regs.get_eq Reg.setupZ rfl, h.regs.get_eq Reg.setupWb rfl, h.regs.get_eq Reg.setupRed rfl,
    h.regs.get_eq Reg.setupGreen rfl, h.regs.get_eq Reg.setupBlue rfl, h.regs.get_eq Reg.setupAlpha rfl,
    h.regs.get_eq Reg.setupS0 rfl, h.regs.get_eq Reg.setupT0 rfl, h.regs.get_eq Reg.setupW0 rfl,
    h.regs.get_eq Reg.setupS1 rfl, h.regs.get_eq Reg.setupT1 rfl, h.regs.get_eq Reg.setupW1 rfl]

theorem takeSetup (h : c.EqualButLater d) (mode : SetupMode) : (c.takeSetup mode).EqualButLater (d.takeSetup mode) := by
  rw [takeSetup_eq, takeSetup_eq, h.setup, h.frame]
  refine EqualButLater.modifyFrame (h.mapTextures fun i u v hu => ?_) fun f => { f with triangle := _ }
  exact hu.setGradients fun g => d.setup.gradients mode i g

theorem extendStrip (h : c.EqualButLater d) (hlive : c.regs.SameLive d.regs) (hrevision : c.revision = .voodoo1)
    (hc : c.modes.Reachable) (hd : d.modes.Reachable) : c.extendStrip.EqualButLater d.extendStrip := by
  have hv : c.withVertex.EqualButLater d.withVertex := by
    unfold withVertex
    rw [h.setup, h.setupMode, h.setupVertex]
    exact h.withSetup _
  rw [extendStrip_eq, extendStrip_eq, h.setupMode, hv.setup]
  split
  · exact (hv.takeSetup d.setupMode).drawTriangle hlive hrevision hc hd
  · exact hv

theorem storeRegister (h : c.EqualButLater d) (select : ChipSelect) (r : Reg) {x y : UInt32}
    (hxy : EqualBut r.laterBits x y) : (c.storeRegister select r x).EqualButLater (d.storeRegister select r y) := by
  have hregs : (if select.frame then { c with regs := c.regs.set r x } else c).EqualButLater
      (if select.frame then { d with regs := d.regs.set r y } else d) := by
    split
    · exact ⟨h.config, h.frame, h.queue, h.setup, h.regs.set r hxy, h.size, h.unit⟩
    · exact h
  refine ⟨hregs.config, hregs.frame, hregs.queue, hregs.setup, hregs.regs, ?_, fun i hi hi' => ?_⟩
  · simp only [Chip.storeRegister, Array.size_mapIdx, hregs.size]
  · simp only [Chip.storeRegister, Array.getElem_mapIdx]
    split
    · exact (hregs.unit i _ _).writeRegister r hxy
    · exact hregs.unit i _ _

theorem layout_eq (h : c.EqualButLater d) (last : UInt32) :
    FrameLayout.ofRegisters c.revision c.regs last = FrameLayout.ofRegisters d.revision d.regs last := by
  have hplain : ∀ q : Reg, isLayoutRegister q = true → q.laterBits = [] := by decide +kernel
  rw [h.revision]
  exact FrameLayout.ofRegisters_congr _ _ fun q hq => h.regs.get_eq q (hplain q hq)

theorem updateLayout (h : c.EqualButLater d) (select : ChipSelect) (r : Reg) :
    (c.updateLayout select r).EqualButLater (d.updateLayout select r) := by
  have hrelayout : ∀ f : FrameBuffer, f.relayout c.revision c.regs = f.relayout d.revision d.regs := fun f => by
    simp only [FrameBuffer.relayout, h.layout_eq]
  simp only [Chip.updateLayout, hrelayout]
  rw [h.revision]
  split
  · exact h.modifyFrame _
  · exact h

end EqualButLater

/-! ## Runs -/

/-- chips of Voodoo 1 with reachable caches that differ in marked bits only, and in none that a pixel sees -/
structure Indistinct (c d : Chip) : Prop where
  equal : c.EqualButLater d
  live : c.regs.SameLive d.regs
  revision : c.revision = .voodoo1
  left : c.modes.Reachable
  right : d.modes.Reachable

namespace Indistinct

variable {c d : Chip}

theorem run (h : c.Indistinct d) (command : Command) (select : ChipSelect) (data : UInt32) :
    (c.run command select data).EqualButLater (d.run command select data) := by
  have he := h.equal
  cases command with
  | triangle => exact he.drawTriangle h.live h.revision h.left h.right
  | extendStrip => exact he.extendStrip h.live h.revision h.left h.right
  | fastFill => exact he.fastFill
  | coordParameter p term form => exact he.writeCoord select p term (p.value form data)
  | vertex n form =>
    simp only [Chip.run]
    split
    · exact he.modifyFrame _
    · exact he
  | pixelParameter p term form =>
    simp only [Chip.run]
    split
    · exact he.modifyFrame _
    · exact he
  | fogTable n =>
    simp only [Chip.run]
    split
    · exact he.modifyFrame _
    · exact he
  | nop =>
    simp only [Chip.run, clearCounters]
    exact he.modifyFrame _
  | swapBuffer =>
    have hoverlay : c.overlay = d.overlay := by
      rw [overlay, overlay, he.revision, he.regs.get_eq Reg.leftOverlayBuf rfl]
    simp only [Chip.run, hoverlay]
    exact he.modifyFrame _
  | bufferRegister r =>
    simp only [Chip.run]
    exact he.modifyFrame _
  | announceSwap => exact he.modifyFrame FrameBuffer.announceSwap
  | unpackColor =>
    have hregs : (SetupVertex.unpackColor c.regs data).EqualButLater (SetupVertex.unpackColor d.regs data) :=
      (((he.regs.set Reg.setupAlpha (.refl _ _)).set Reg.setupRed (.refl _ _)).set Reg.setupGreen (.refl _ _)).set
        Reg.setupBlue (.refl _ _)
    exact ⟨he.config, he.frame, he.queue, he.setup, hregs, he.size, he.unit⟩
  | beginStrip =>
    simp only [Chip.run, he.setupVertex]
    exact he.withSetup _
  | plain => exact he

theorem execute (h : c.Indistinct d) (w : RegisterWrite) : (c.execute w).EqualButLater (d.execute w) := by
  have hcommand : c.command w = d.command w := by rw [command, command, h.equal.revision]
  have hreach : c.reach w = d.reach w := by rw [reach, reach, h.equal.revision]
  rw [execute_eq, execute_eq, stored, stored, hcommand, hreach]
  exact ((h.run _ _ _).storeRegister _ _ (.refl _ _)).updateLayout _ _

theorem linearWrite (h : c.Indistinct d) (offset data byteMask : UInt32) :
    (c.linearWrite offset data byteMask).EqualButLater (d.linearWrite offset data byteMask) := by
  have he := h.equal
  have hmode := he.regs.get_eq Reg.lfbMode rfl
  have htarget : c.linearTarget offset data byteMask = d.linearTarget offset data byteMask := by
    simp only [linearTarget, hmode, he.regs.get_eq Reg.zaColor rfl, he.frame, he.revision]
  have hdraw : ∀ w base, c.linearDraw w base = d.linearDraw w base := fun w base => by
    have hd : d.revision = .voodoo1 := he.revision ▸ h.revision
    have hpipeline : ∀ mode : LinearMode,
        w.runPipeline ⟨PixelRules.ofRegisters c.revision c.regs .plain, c.frame.fog, c.frame.surface base⟩ mode =
          w.runPipeline ⟨PixelRules.ofRegisters d.revision d.regs .plain, d.frame.fog, d.frame.surface base⟩ mode :=
      fun mode => by
        rw [← LinearWrite.runPipeline_heeded,
          ← LinearWrite.runPipeline_heeded w ⟨PixelRules.ofRegisters d.revision _ _, _, _⟩]
        simp only [Pipeline.heeded, h.revision, hd, PixelRules.heeded_congr he.regs h.live, he.frame]
    simp only [linearDraw, hmode]
    rw [hpipeline, FrameMode.decode_later (he.regs Reg.fbzMode), he.frame]
    rfl
  rw [linearWrite_eq, linearWrite_eq, htarget]
  cases d.linearTarget offset data byteMask with
  | none => exact he
  | some target =>
    obtain ⟨w, base⟩ := target
    simp only [hdraw]
    exact he.paint _

theorem upload (h : c.EqualButLater d) (i : Nat) (offset data : UInt32) :
    (c.modifyTexture i fun u => u.upload offset data).EqualButLater
      (d.modifyTexture i fun u => u.upload offset data) := by
  rw [Alike.modifyTexture_eq, Alike.modifyTexture_eq]
  refine h.mapTextures fun j u v hu => ?_
  split
  · exact hu.upload offset data
  · exact hu

/-- an action leaves a register as it is in both chips, or the same word in both -/
theorem get_act_cases (h : c.EqualButLater d) (a : Action) (q : Reg) (hq : q.isWorking = false) :
    (c.act a).regs.get q = (d.act a).regs.get q ∨
      (c.act a).regs.get q = c.regs.get q ∧ (d.act a).regs.get q = d.regs.get q := by
  rw [get_act c a q hq, get_act d a q hq]
  cases a with
  | write w =>
    have hreach : c.reach w = d.reach w := by rw [reach, reach, h.revision]
    simp only [hreach]
    split
    · exact .inl rfl
    · exact .inr ⟨rfl, rfl⟩
  | _ => exact .inr ⟨rfl, rfl⟩

theorem live_act (h : c.Indistinct d) (a : Action) : (c.act a).regs.SameLive (d.act a).regs := by
  refine ⟨?_, fun hread => ?_⟩
  · obtain hsame | ⟨hc, hd⟩ := get_act_cases h.equal a Reg.fbzColorPath (by decide)
    · rw [hsame]
    · rw [hc, hd]
      exact h.live.clamp
  · obtain hsame | ⟨hc, hd⟩ := get_act_cases h.equal a Reg.fogMode (by decide)
    · rw [hsame]
      exact ⟨rfl, rfl⟩
    · rw [hc] at hread ⊢
      rw [hd]
      exact h.live.fog hread

theorem modes_act (c : Chip) (h : c.modes.Reachable) (a : Action) : (c.act a).modes.Reachable := by
  cases a with
  | write w => exact (CacheTwin.execute ⟨rfl, h, h⟩ w).left
  | linearWrite offset data byteMask =>
    have hsame := modes_of_commute (f := fun c => c.linearWrite offset data byteMask)
      (fun c s m => linearWrite_withSide c s m offset data byteMask) c
    show (c.linearWrite offset data byteMask).modes.Reachable
    rw [hsame]
    exact h
  | upload i offset data => exact h
  | retrace => exact h
  | endRetrace => exact h

/-- **No action tells the chips apart.** -/
theorem act (h : c.Indistinct d) (a : Action) : (c.act a).Indistinct (d.act a) where
  equal := by
    cases a with
    | write w => exact h.execute w
    | upload i offset data => exact upload h.equal i offset data
    | linearWrite offset data byteMask => exact h.linearWrite offset data byteMask
    | retrace =>
      have hoverlay : c.overlay = d.overlay := by
        rw [overlay, overlay, h.equal.revision, h.equal.regs.get_eq Reg.leftOverlayBuf rfl]
      simp only [Chip.act, hoverlay]
      exact h.equal.modifyFrame _
    | endRetrace => exact h.equal.modifyFrame FrameBuffer.endRetrace
  live := live_act h a
  revision := (revision_act c a).trans h.revision
  left := modes_act c h.left a
  right := modes_act d h.right a

theorem keptTogether : KeptTogether Indistinct where
  config _ _ h := h.equal.config
  queue _ _ h := h.equal.queue
  withQueue _ _ _ h := ⟨⟨h.equal.config, h.equal.frame, rfl, h.equal.setup, h.equal.regs, h.equal.size, h.equal.unit⟩,
    h.live, h.revision, h.left, h.right⟩
  act _ _ a h := h.act a

end Indistinct

/-- **Voodoo 2's mode bits on Voodoo 1.** Two reachable chips of Voodoo 1 differ in nothing but marked bits, on the
frame buffer side or in the texture units; their frame buffer sides agree in bit 28 of fbzColorPath and, if fog is taken
from the table, in bits 6 and 7 of fogMode. Then after the same calls, triangle commands or any others, they have the
same frame buffer memory, the same counters and the same stipple register, and they still differ in nothing but such
bits. -/
theorem later_bits_inert (c d : Chip) (hc : c.Reachable) (hd : d.Reachable) (hrevision : c.revision = .voodoo1)
    (hequal : c.EqualButLater d) (hlive : c.regs.SameLive d.regs) (calls : List Call) :
    let after := (c.runCalls calls).1
    let after' := (d.runCalls calls).1
    after.frame.memory = after'.frame.memory ∧
      after.frame.counters = after'.frame.counters ∧
      after.regs.get Reg.stipple = after'.regs.get Reg.stipple ∧
      after.EqualButLater after' ∧ after.regs.SameLive after'.regs := by
  intro after after'
  have hstart : c.Indistinct d := ⟨hequal, hlive, hrevision, modes_reachable c hc, modes_reachable d hd⟩
  have hafter : after.Indistinct after' := Indistinct.keptTogether.run hstart calls
  exact ⟨congrArg FrameBuffer.memory hafter.equal.frame, congrArg FrameBuffer.counters hafter.equal.frame,
    hafter.equal.regs.get_eq Reg.stipple rfl, hafter.equal, hafter.live⟩

/-! ## One pixel -/

/-- the registers with marked bits have no effect beyond their storing -/
theorem laterBits_effect : ∀ r : Reg, r.laterBits ≠ [] → Command.ofRegister .voodoo1 r = .plain := by
  decide +kernel

theorem EqualButLater.execute_marked {c d : Chip} (h : c.EqualButLater d) (hrevision : c.revision = .voodoo1)
    (offset : UInt32) {x y : UInt32} (hr : (Reg.ofAddress offset).laterBits ≠ [])
    (hxy : EqualBut (Reg.ofAddress offset).laterBits x y) :
    (c.execute ⟨offset, x⟩).EqualButLater (d.execute ⟨offset, y⟩) := by
  have hstored : ∀ (e : Chip) (data : UInt32), e.revision = .voodoo1 →
      e.stored ⟨offset, data⟩ = e.storeRegister (e.reach ⟨offset, data⟩) (Reg.ofAddress offset) data :=
    fun e data he => by
      rw [stored, command, register, he, laterBits_effect _ hr]
      rfl
  have hreach : c.reach ⟨offset, x⟩ = d.reach ⟨offset, y⟩ := by
    rw [reach, reach, h.revision]
    rfl
  rw [execute_eq, execute_eq, hstored c x hrevision, hstored d y (h.revision ▸ hrevision), hreach]
  exact (h.storeRegister _ _ hxy).updateLayout _ _

theorem EqualButLater.run_marked {c d : Chip} (h : c.EqualButLater d) (hrevision : c.revision = .voodoo1)
    (hdefer : c.config.deferWrites = false) (hqueue : c.queue = .empty) (ws : List (UInt32 × UInt32 × UInt32))
    (hws : ∀ w ∈ ws, (Reg.ofAddress w.1).laterBits ≠ [] ∧ EqualBut (Reg.ofAddress w.1).laterBits w.2.1 w.2.2) :
    (c.runCalls (ws.map fun w => .writeRegister w.1 w.2.1)).1.EqualButLater
      (d.runCalls (ws.map fun w => .writeRegister w.1 w.2.2)).1 := by
  have hwritable : ∀ r : Reg, r.laterBits ≠ [] → (Access.of .voodoo1 r).write = true := by decide +kernel
  have hwrite : ∀ (e : Chip) (offset data : UInt32), e.revision = .voodoo1 → e.config.deferWrites = false →
      e.queue = .empty → (Reg.ofAddress offset).laterBits ≠ [] →
      e.writeRegister offset data = e.execute ⟨offset, data⟩ := fun e offset data hv hd hq hr => by
    simp only [Chip.writeRegister, hv, hwritable _ hr, hd, Bool.not_true, Bool.false_and, Bool.false_eq_true, if_false,
      flush_of_empty e hq]
  induction ws generalizing c d with
  | nil => exact h
  | cons w ws ih =>
    obtain ⟨hr, hw⟩ := hws w List.mem_cons_self
    have hconfig : (c.execute ⟨w.1, w.2.1⟩).config = c.config := congrArg Shape.config (shape_execute c _)
    have hnext := h.execute_marked hrevision w.1 hr hw
    rw [← hwrite c w.1 w.2.1 hrevision hdefer hqueue hr,
      ← hwrite d w.1 w.2.2 (h.revision ▸ hrevision) (h.config ▸ hdefer) (h.queue ▸ hqueue) hr] at hnext
    refine ih hnext ?_ ?_ ?_ fun w' hw' => hws w' (List.mem_cons_of_mem w hw')
    all_goals rw [hwrite c w.1 w.2.1 hrevision hdefer hqueue hr]
    · rw [Chip.revision, hconfig]
      exact hrevision
    · rw [hconfig]
      exact hdefer
    · rw [queue_execute]
      exact hqueue

/-- a Voodoo 1 set up for a triangle of one pixel, its red twice the highest, and for white fog -/
def onePixel : Chip :=
  ((initial { ChipConfig.standard with revision := .voodoo1 }).runCalls [.writeRegister 0x4B 0xFFFFFF,
    .writeRegister 0x77 0x77230000, .writeRegister 0x02 0x10, .writeRegister 0x04 0x28, .writeRegister 0x06 0x10,
    .writeRegister 0x07 0x18, .writeRegister 0x08 0x200000]).1

def onePixelWith (settings : List (UInt32 × UInt32)) : Chip :=
  (onePixel.runCalls (settings.map fun w => .writeRegister w.1 w.2)).1

theorem reachable_onePixelWith (settings : List (UInt32 × UInt32)) : (onePixelWith settings).Reachable :=
  Reachable.run _ ⟨_, _, _, make_eq_ok.2 ⟨by decide, rfl⟩, rfl⟩ _

theorem revision_onePixelWith (settings : List (UInt32 × UInt32)) : (onePixelWith settings).revision = .voodoo1 :=
  (revision_run _ _).trans (revision_run _ _)

def pixelDrawn (c : Chip) : UInt16 := (c.runCalls [.writeRegister 0x20 0]).1.frame.memory.read16 2

theorem pixelDrawn_onePixelWith (settings : List (UInt32 × UInt32)) (v : UInt16)
    (h : ((onePixelWith settings).runCalls [.writeRegister 0x20 0]).1.frame.memory =
      (onePixelWith settings).frame.memory.write16 2 v) : (onePixelWith settings).pixelDrawn = v := by
  have hlog : (onePixelWith settings).frame.memory.logSize = 22 :=
    congrArg Shape.frameLog
      (((kept_shape onePixel.shape).run onePixel _ rfl).trans ((kept_shape (initial _).shape).run (initial _) _ rfl))
  have hmore : 1 < (onePixelWith settings).frame.memory.size := by
    rw [Memory.size, Memory.size_eq, hlog]
    decide
  rw [pixelDrawn, h, Memory.read16_write16 _ _ _ hmore]

theorem equalButLater_onePixelWith (ws : List (UInt32 × UInt32 × UInt32))
    (hws : (ws.all fun w => !(Reg.ofAddress w.1).laterBits.isEmpty && (List.range 32).all fun i =>
      (Reg.ofAddress w.1).laterBits.contains i || bit w.2.1 i == bit w.2.2 i) = true) :
    (onePixelWith (ws.map fun w => (w.1, w.2.1))).EqualButLater (onePixelWith (ws.map fun w => (w.1, w.2.2))) := by
  have hself : onePixel.EqualButLater onePixel :=
    ⟨rfl, rfl, rfl, rfl, .refl _, rfl, fun _ _ _ => ⟨_, .refl _, rfl⟩⟩
  have h := hself.run_marked (revision_run _ _) rfl rfl ws fun w hw => by
    obtain ⟨hmarked, hbits⟩ := Bool.and_eq_true_iff.1 (List.all_eq_true.1 hws w hw)
    exact ⟨by simpa using hmarked, .of_all hbits⟩
  simp only [onePixelWith, List.map_map]
  exact h

/-- bits set in fbzMode, fbzColorPath, fogMode and tLOD that change nothing -/
theorem later_bits_inert_one_pixel :
    let c := onePixelWith [(0x44, 0x200), (0x41, 0), (0x42, 0), (0xC1, 0)]
    let d := onePixelWith [(0x44, 0x200200), (0x41, 0x20000000), (0x42, 0xC0), (0xC1, 0x8000000)]
    c.Reachable ∧ d.Reachable ∧ c.revision = .voodoo1 ∧ c.EqualButLater d ∧ c.regs.SameLive d.regs ∧
      (c.runCalls [.writeRegister 0x20 0]).1.frame.memory = (d.runCalls [.writeRegister 0x20 0]).1.frame.memory ∧
      (c.runCalls [.writeRegister 0x20 0]).1.frame.counters =
        (d.runCalls [.writeRegister 0x20 0]).1.frame.counters ∧
      (c.runCalls [.writeRegister 0x20 0]).1.regs.get Reg.stipple =
        (d.runCalls [.writeRegister 0x20 0]).1.regs.get Reg.stipple := by
  intro c d
  have hequal : c.EqualButLater d :=
    equalButLater_onePixelWith [(0x44, 0x200, 0x200200), (0x41, 0, 0x20000000), (0x42, 0, 0xC0),
      (0xC1, 0, 0x8000000)] (by decide +kernel)
  have hlive : c.regs.SameLive d.regs := ⟨by decide +kernel, by decide +kernel⟩
  have h := later_bits_inert c d (reachable_onePixelWith _) (reachable_onePixelWith _) (revision_onePixelWith _)
    hequal hlive [.writeRegister 0x20 0]
  obtain ⟨hmemory, hcounters, hstipple, -, -⟩ := h
  exact ⟨reachable_onePixelWith _, reachable_onePixelWith _, revision_onePixelWith _, hequal, hlive, hmemory, hcounters,
    hstipple⟩

/-- the three bits that do: on Voodoo 1 too, one has iterated colors clamped, and the other two dither the fog from the
table and take its differences as negative -/
theorem later_bits_seen :
    let clamped := onePixelWith [(0x44, 0x200), (0x41, 0x10000000)]
    let wrapped := onePixelWith [(0x44, 0x200), (0x41, 0)]
    let dithered := onePixelWith [(0x44, 0x200), (0x42, 0x41)]
    let zoned := onePixelWith [(0x44, 0x200), (0x42, 0x81)]
    let fog := onePixelWith [(0x44, 0x200), (0x42, 0x01)]
    (∀ c ∈ [clamped, wrapped, dithered, zoned, fog], c.Reachable ∧ c.revision = .voodoo1 ∧ c.modes = .empty) ∧
      clamped.EqualButLater wrapped ∧ clamped.pixelDrawn = 0xF800 ∧ wrapped.pixelDrawn = 0 ∧
      dithered.EqualButLater fog ∧ dithered.pixelDrawn = 0x8410 ∧
      zoned.EqualButLater fog ∧ zoned.pixelDrawn = 0x6B6D ∧ fog.pixelDrawn = 0x7BEF := by
  intro clamped wrapped dithered zoned fog
  have hclamped : clamped.pixelDrawn = 0xF800 := pixelDrawn_onePixelWith _ _ rfl
  have hwrapped : wrapped.pixelDrawn = 0 := pixelDrawn_onePixelWith _ _ rfl
  have hdithered : dithered.pixelDrawn = 0x8410 := pixelDrawn_onePixelWith _ _ rfl
  have hzoned : zoned.pixelDrawn = 0x6B6D := pixelDrawn_onePixelWith _ _ rfl
  have hfog : fog.pixelDrawn = 0x7BEF := pixelDrawn_onePixelWith _ _ rfl
  refine ⟨?_, ?_, hclamped, hwrapped, ?_, hdithered, ?_, hzoned, hfog⟩
  · intro c hc
    simp only [List.mem_cons, List.not_mem_nil, or_false] at hc
    obtain rfl | rfl | rfl | rfl | rfl := hc
    all_goals exact ⟨reachable_onePixelWith _, revision_onePixelWith _, rfl⟩
  · exact equalButLater_onePixelWith [(0x44, 0x200, 0x200), (0x41, 0x10000000, 0)] (by decide +kernel)
  · exact equalButLater_onePixelWith [(0x44, 0x200, 0x200), (0x42, 0x41, 0x01)] (by decide +kernel)
  · exact equalButLater_onePixelWith [(0x44, 0x200, 0x200), (0x42, 0x81, 0x01)] (by decide +kernel)

end Accel3D.Chip
