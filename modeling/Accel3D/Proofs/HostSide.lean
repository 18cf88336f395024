/-
What register writes leave alone.

A register write that is carried out reads and changes neither what the host's side of the chip holds (whether writes
are deferred, the queue, the retrace flag) nor, beyond finding the combine units of a triangle, the cache of decoded
modes. `withSide` replaces all of this at once. Two chips are twins (`Twin`) when one is the other with its side
replaced, the two caches being related by some relation `P`. For every relation under which caches give the same combine
units (`ModeCache.Agreeing`), a register write turns twins into twins.

Results: `execute_twin` (a register write keeps twins); `host_execute` (a register write does not change the host's
side); `execute_withHost` (a register write commutes with replacing the host's side).
-/
import Accel3D.Chip.Call

namespace Accel3D

/-- the state on the host's side of the register writes -/
structure HostSide where
  deferWrites : Bool
  queue : WriteQueue
  inRetrace : Bool

namespace ModeCache

/-- the entry that a triangle of a key takes its combine units from -/
def entryFor (m : ModeCache) (k : ModeKey) : ModeEntry := (m.fetch k).2.getD (ModeEntry.ofKey k)

/-- the cache after a triangle of a key -/
def afterTriangle (m : ModeCache) (k : ModeKey) (pixels : Nat) : ModeCache := (m.fetch k).1.credit k pixels

/-- related caches give the same combine units for every key, and stay related when the same triangle is counted -/
structure Agreeing (P : ModeCache → ModeCache → Prop) : Prop where
  color : ∀ m m' k, P m m' → (m.entryFor k).color = (m'.entryFor k).color
  texture : ∀ m m' k, P m m' → (m.entryFor k).texture = (m'.entryFor k).texture
  afterTriangle : ∀ m m' k pixels, P m m' → P (m.afterTriangle k pixels) (m'.afterTriangle k pixels)

theorem agreeing_eq : Agreeing Eq :=
  ⟨fun _ _ _ h => by rw [h], fun _ _ _ h => by rw [h], fun _ _ _ _ h => by rw [h]⟩

end ModeCache

namespace FrameBuffer

def withRetrace (f : FrameBuffer) (b : Bool) : FrameBuffer := { f with inRetrace := b }

theorem rotate_withRetrace (f : FrameBuffer) (b : Bool) (overlay : Option UInt32) :
    (f.withRetrace b).rotate overlay = (f.rotate overlay).withRetrace b := by
  cases overlay with
  | some address => rfl
  | none => cases hs : f.swap.dontSwap <;> cases ht : f.layout.hasThird <;> simp [rotate, withRetrace, hs, ht]

theorem swapNow_withRetrace (f : FrameBuffer) (b : Bool) (overlay : Option UInt32) :
    (f.withRetrace b).swapNow overlay = (f.swapNow overlay).withRetrace b := by
  simp only [swapNow, rotate_withRetrace]
  rfl

theorem swapCommand_withRetrace (f : FrameBuffer) (b : Bool) (data : UInt32) (overlay : Option UInt32) :
    (f.withRetrace b).swapCommand data overlay = (f.swapCommand data overlay).withRetrace b := by
  unfold swapCommand
  cases bit data 0 with
  | true => rfl
  | false => exact swapNow_withRetrace { f with swap := f.swap.command data } b overlay

end FrameBuffer

namespace Chip

/-! ## Linear writes as one drawing -/

def linearTarget (c : Chip) (offset data byteMask : UInt32) : Option (LinearWrite × UInt32) :=
  let mode := LinearMode.decode (c.regs.get Reg.lfbMode)
  (LinearWrite.decode? mode c.frame.layout (c.regs.get Reg.zaColor) offset data byteMask).bind fun w =>
    (c.frame.drawOffset c.revision mode.writeBuffer).map fun base => (w, base)

def linearDraw (c : Chip) (w : LinearWrite) (base : UInt32) : Canvas → Canvas :=
  let mode := LinearMode.decode (c.regs.get Reg.lfbMode)
  if mode.pixelPipeline then
    w.runPipeline ⟨PixelRules.ofRegisters c.revision c.regs Combine.plain, c.frame.fog, c.frame.surface base⟩ mode
  else w.runDirect (FrameMode.decode (c.regs.get Reg.fbzMode)) (c.frame.surface base)

theorem linearWrite_eq (c : Chip) (offset data byteMask : UInt32) :
    c.linearWrite offset data byteMask =
      match c.linearTarget offset data byteMask with
      | none => c
      | some (w, base) => c.paint (c.linearDraw w base) := by
  simp only [linearWrite, linearTarget, linearDraw]
  cases LinearWrite.decode? (LinearMode.decode (c.regs.get Reg.lfbMode)) c.frame.layout (c.regs.get Reg.zaColor)
      offset data byteMask with
  | none => rfl
  | some w =>
    cases c.frame.drawOffset c.revision (LinearMode.decode (c.regs.get Reg.lfbMode)).writeBuffer with
    | none => rfl
    | some base => cases (LinearMode.decode (c.regs.get Reg.lfbMode)).pixelPipeline <;> rfl

/-! ## Replacing the side of a chip -/

def host (c : Chip) : HostSide := ⟨c.config.deferWrites, c.queue, c.frame.inRetrace⟩

/-- the host's side and the cache replaced -/
def withSide (c : Chip) (h : HostSide) (m : ModeCache) : Chip :=
  { c with
    config := { c.config with deferWrites := h.deferWrites }
    frame := c.frame.withRetrace h.inRetrace
    queue := h.queue
    modes := m }

def withHost (c : Chip) (h : HostSide) : Chip := c.withSide h c.modes

def withModes (c : Chip) (m : ModeCache) : Chip := { c with modes := m }

section Commuting

variable (c : Chip) (h : HostSide) (m : ModeCache)

theorem withSide_self : c.withSide c.host c.modes = c := rfl

theorem revision_withSide : (c.withSide h m).revision = c.revision := rfl

theorem overlay_withSide : (c.withSide h m).overlay = c.overlay := rfl

theorem paint_withSide (draw : Canvas → Canvas) :
    (c.withSide h m).paint draw = (c.paint draw).withSide h m := rfl

theorem modifyFrame_withSide (f : FrameBuffer → FrameBuffer)
    (hf : ∀ fr b, f (FrameBuffer.withRetrace fr b) = (f fr).withRetrace b) :
    (c.withSide h m).modifyFrame f = (c.modifyFrame f).withSide h m := by
  simp only [modifyFrame, withSide, hf]

theorem writeCoord_withSide (select : ChipSelect) (p : CoordParameter) (term : GradientTerm) (v : Int64) :
    (c.withSide h m).writeCoord select p term v = (c.writeCoord select p term v).withSide h m := by
  unfold writeCoord
  split <;> rfl

theorem storeRegister_withSide (select : ChipSelect) (r : Reg) (data : UInt32) :
    (c.withSide h m).storeRegister select r data = (c.storeRegister select r data).withSide h m := by
  unfold storeRegister
  split <;> rfl

theorem updateLayout_withSide (select : ChipSelect) (r : Reg) :
    (c.withSide h m).updateLayout select r = (c.updateLayout select r).withSide h m := by
  simp only [updateLayout, revision_withSide, apply_ite (fun d : Chip => d.withSide h m)]
  rfl

theorem swapCommand_withSide (data : UInt32) :
    ((c.withSide h m).modifyFrame fun f => f.swapCommand data (c.withSide h m).overlay) =
      (c.modifyFrame fun f => f.swapCommand data c.overlay).withSide h m := by
  rw [overlay_withSide]
  exact modifyFrame_withSide c h m _ fun f b => f.swapCommand_withRetrace b data c.overlay

theorem linearWrite_withSide (offset data byteMask : UInt32) :
    (c.withSide h m).linearWrite offset data byteMask = (c.linearWrite offset data byteMask).withSide h m := by
  have ht : (c.withSide h m).linearTarget offset data byteMask = c.linearTarget offset data byteMask := rfl
  rw [linearWrite_eq, linearWrite_eq, ht]
  cases c.linearTarget offset data byteMask <;> rfl

end Commuting

theorem modes_of_commute {f : Chip → Chip} (hf : ∀ c h m, f (withSide c h m) = (f c).withSide h m) (c : Chip) :
    (f c).modes = c.modes := by
  have h := congrArg Chip.modes (hf c c.host c.modes)
  rwa [withSide_self] at h

/-! ## Twins -/

/-- `d` is `c` with its side replaced: `h` is its host's side, and its cache is related to that of `c` -/
def Twin (P : ModeCache → ModeCache → Prop) (h : HostSide) (c d : Chip) : Prop :=
  ∃ m, P c.modes m ∧ d = c.withSide h m

variable {P : ModeCache → ModeCache → Prop} {h : HostSide} {c d : Chip}

theorem Twin.apply {f : Chip → Chip} (t : Twin P h c d) (hf : ∀ c h m, f (withSide c h m) = (f c).withSide h m) :
    Twin P h (f c) (f d) := by
  obtain ⟨m, hm, rfl⟩ := t
  exact ⟨m, by rwa [modes_of_commute hf], hf c h m⟩

/-- a triangle depends on its mode entry through the combine units only -/
theorem raster_congr (c : Chip) (n : Nat) (e e' : ModeEntry) (base : UInt32) (hc : e.color = e'.color)
    (ht : e.texture = e'.texture) : c.raster n e base = c.raster n e' base := by
  simp only [raster, textureStages, hc, ht]

/-- a triangle drawn into the frame buffer and counted -/
def paintRaster (c : Chip) (r : Raster) : Chip :=
  (c.paint r.draw).modifyFrame fun f => { f with trianglesOut := f.trianglesOut + 1 }

def currentRaster (c : Chip) (n : Nat) (base : UInt32) : Raster :=
  c.raster n (c.modes.entryFor (c.modeKey n)) base

theorem rasterize_eq (c : Chip) (n : Nat) (base : UInt32) :
    c.rasterize n base =
      (c.withModes (c.modes.afterTriangle (c.modeKey n) (c.currentRaster n base).pixelCount)).paintRaster
        (c.currentRaster n base) := rfl

theorem paintRaster_withSide (c : Chip) (h : HostSide) (m : ModeCache) (r : Raster) :
    (c.withSide h m).paintRaster r = (c.paintRaster r).withSide h m := by
  rw [paintRaster, paint_withSide]
  exact modifyFrame_withSide _ h m _ fun _ _ => rfl

theorem withModes_withSide (c : Chip) (h : HostSide) (m m' m'' : ModeCache) :
    (c.withSide h m).withModes m' = (c.withModes m'').withSide h m' := rfl

theorem rasterize_twin (hP : ModeCache.Agreeing P) (t : Twin P h c d) (n : Nat) (base : UInt32) :
    Twin P h (c.rasterize n base) (d.rasterize n base) := by
  obtain ⟨m, hm, rfl⟩ := t
  have hr : (c.withSide h m).currentRaster n base = c.currentRaster n base :=
    raster_congr c n _ _ base (hP.color _ _ _ hm).symm (hP.texture _ _ _ hm).symm
  rw [rasterize_eq, rasterize_eq, hr]
  generalize c.currentRaster n base = r
  refine ⟨m.afterTriangle (c.modeKey n) r.pixelCount, hP.afterTriangle _ _ _ _ hm, ?_⟩
  rw [withModes_withSide c h m _ (c.modes.afterTriangle (c.modeKey n) r.pixelCount), paintRaster_withSide]
  rfl

/-- the state in which a triangle command draws: start values moved if that is asked for -/
def atCentre (c : Chip) : Chip :=
  if (ColorPath.decode (c.regs.get Reg.fbzColorPath)).subpixelAdjust then c.recentre c.textureCount else c

def triangleBase (c : Chip) : Option UInt32 :=
  c.frame.drawOffset c.revision (FrameMode.decode (c.regs.get Reg.fbzMode)).drawBuffer

theorem drawTriangle_eq (c : Chip) :
    c.drawTriangle =
      match c.atCentre.triangleBase with
      | none => c.atCentre
      | some base => (c.atCentre.modifyTextures c.textureCount TextureUnit.refreshAll).rasterize c.textureCount base :=
  rfl

theorem atCentre_withSide (c : Chip) (h : HostSide) (m : ModeCache) :
    (c.withSide h m).atCentre = c.atCentre.withSide h m := by
  simp only [atCentre, apply_ite (fun d : Chip => d.withSide h m)]
  rfl

theorem drawTriangle_twin (hP : ModeCache.Agreeing P) (t : Twin P h c d) : Twin P h c.drawTriangle d.drawTriangle := by
  have hn : d.textureCount = c.textureCount := by obtain ⟨m, -, rfl⟩ := t; rfl
  have ta := t.apply atCentre_withSide
  have hb : d.atCentre.triangleBase = c.atCentre.triangleBase := by
    obtain ⟨m, -, e⟩ := ta; rw [e]; rfl
  rw [drawTriangle_eq, drawTriangle_eq, hn, hb]
  cases c.atCentre.triangleBase with
  | none => exact ta
  | some base =>
    exact rasterize_twin hP (ta.apply (f := fun c' => c'.modifyTextures _ _) fun _ _ _ => rfl) _ base

def setupMode (c : Chip) : SetupMode := SetupMode.decode (c.regs.get Reg.setupMode)

def withVertex (c : Chip) : Chip :=
  { c with setup := c.setup.push c.setupMode.fan (SetupVertex.ofRegisters c.regs) }

theorem extendStrip_eq (c : Chip) :
    c.extendStrip =
      if c.withVertex.setup.isComplete && !c.withVertex.setup.isCulled c.setupMode then
        (c.withVertex.takeSetup c.setupMode).drawTriangle
      else c.withVertex := rfl

theorem extendStrip_twin (hP : ModeCache.Agreeing P) (t : Twin P h c d) : Twin P h c.extendStrip d.extendStrip := by
  have hm : d.setupMode = c.setupMode := by obtain ⟨m, -, rfl⟩ := t; rfl
  have hs : d.withVertex.setup = c.withVertex.setup := by obtain ⟨m, -, rfl⟩ := t; rfl
  have tv : Twin P h c.withVertex d.withVertex := t.apply fun _ _ _ => rfl
  rw [extendStrip_eq, extendStrip_eq, hm, hs]
  split
  · exact drawTriangle_twin hP (tv.apply (f := fun c' => c'.takeSetup c.setupMode) fun _ _ _ => rfl)
  · exact tv

theorem run_twin (hP : ModeCache.Agreeing P) (t : Twin P h c d) (command : Command) (select : ChipSelect)
    (data : UInt32) : Twin P h (c.run command select data) (d.run command select data) := by
  cases command with
  | triangle => exact drawTriangle_twin hP t
  | extendStrip => exact extendStrip_twin hP t
  | coordParameter p term form =>
    exact t.apply (f := fun c => c.writeCoord select p term _) fun c h m => writeCoord_withSide c h m select p term _
  | swapBuffer =>
    exact t.apply (f := fun c => c.run .swapBuffer select data) fun c h m => swapCommand_withSide c h m data
  | vertex n form =>
    refine t.apply (f := fun c => c.run (.vertex n form) select data) fun c h m => ?_
    simp only [run]; split <;> rfl
  | pixelParameter p term form =>
    refine t.apply (f := fun c => c.run (.pixelParameter p term form) select data) fun c h m => ?_
    simp only [run]; split <;> rfl
  | fogTable n =>
    refine t.apply (f := fun c => c.run (.fogTable n) select data) fun c h m => ?_
    simp only [run]; split <;> rfl
  | nop => exact t.apply (f := fun c => c.clearCounters data) fun _ _ _ => rfl
  | fastFill => exact t.apply (f := fun c => c.fastFill) fun _ _ _ => rfl
  | bufferRegister r => exact t.apply (f := fun c => c.run (.bufferRegister r) select data) fun _ _ _ => rfl
  | announceSwap => exact t.apply (f := fun c => c.run .announceSwap select data) fun _ _ _ => rfl
  | unpackColor => exact t.apply (f := fun c => c.run .unpackColor select data) fun _ _ _ => rfl
  | beginStrip => exact t.apply (f := fun c => c.run .beginStrip select data) fun _ _ _ => rfl
  | plain => exact t

/-- **A register write keeps twins.** -/
theorem execute_twin (hP : ModeCache.Agreeing P) (t : Twin P h c d) (w : RegisterWrite) :
    Twin P h (c.execute w) (d.execute w) := by
  have hv : d.revision = c.revision := by obtain ⟨m, -, rfl⟩ := t; rfl
  simp only [execute, hv]
  refine (run_twin hP t _ _ w.data).apply (f := fun c => (c.storeRegister _ _ w.data).updateLayout _ _) ?_
  intro c h m
  rw [storeRegister_withSide, updateLayout_withSide]

/-- a register write commutes with replacing the host's side -/
theorem execute_withHost (c : Chip) (h : HostSide) (w : RegisterWrite) :
    (c.withHost h).execute w = (c.execute w).withHost h := by
  obtain ⟨m, hm, e⟩ := execute_twin ModeCache.agreeing_eq (⟨c.modes, rfl, rfl⟩ : Twin Eq h c (c.withHost h)) w
  rw [e, ← hm]
  rfl

/-- a register write does not change the host's side -/
theorem host_execute (c : Chip) (w : RegisterWrite) : (c.execute w).host = c.host := by
  have e := execute_withHost c c.host w
  rw [show c.withHost c.host = c from rfl] at e
  rw [e]
  rfl

end Chip
end Accel3D
