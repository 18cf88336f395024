/-
The shape of a chip: its configuration and the sizes of its memories.

No call changes the shape. Drawing goes through the frame buffer memory a byte at a time and keeps its size; uploads do
the same for a texture memory; all else leaves the memories alone.

Results: `Pipeline.Keeps.draw` (what each pixel of a triangle keeps, the triangle keeps); `shape_execute` and
`shape_reachable` (a reachable chip has the shape of the new chip of its configuration); `memory_size_reachable` (no
memory of a reachable chip is larger than 16 megabytes).
-/
import Mathlib.Algebra.Group.Int.Defs
import Mathlib.Algebra.Group.Nat.Defs
import Accel3D.Proofs.Run

namespace Accel3D

/-! ## What every pixel keeps -/

/-- a property of canvases that a pixel keeps: when it enters, when it is rejected and when it is stored -/
structure Pipeline.Keeps (p : Pipeline) (P : Canvas → Prop) : Prop where
  enter : ∀ c stipple, P c → P { c with counters := c.counters.enter, stipple := stipple }
  reject : ∀ c r, P c → P { c with counters := c.counters.reject r }
  settle : ∀ pos dither depth color f c, P c → P (p.settle pos dither depth color f c)

namespace Pipeline.Keeps

variable {p : Pipeline} {P : Canvas → Prop}

theorem judge {α : Type} (k : p.Keeps P) (c : Canvas) (v : Except Reject α) (h : P c) : P (c.judge v).1 := by
  cases v with
  | ok a => exact h
  | error r => exact k.reject c r h

theorem entered (k : p.Keeps P) (pos : PixelPosition) (f : Fragment) (c : Canvas) (h : P c) :
    P (p.enter pos f c).1 := k.judge _ _ (k.enter c _ h)

theorem drawGiven (k : p.Keeps P) (pos : PixelPosition) (dither : Dither) (f : Fragment) (c : Canvas) (h : P c) :
    P (p.drawGiven pos dither f c) := by
  have he := k.entered pos f c h
  unfold Pipeline.drawGiven
  generalize p.enter pos f c = entered at he ⊢
  obtain ⟨c, _ | depth⟩ := entered
  · exact he
  · have hc : P (p.check f.color c).1 := k.judge c _ he
    simp only
    generalize p.check f.color c = checked at hc ⊢
    obtain ⟨c, _ | color⟩ := checked
    · exact hc
    · exact k.settle pos dither depth color f c hc

theorem drawPixel {r : Raster} (k : r.pipeline.Keeps P) (x y : Int) (dither : Dither) (i : Iterators) (c : Canvas)
    (h : P c) : P (r.drawPixel x y dither i c) := by
  have he := k.entered ⟨x, y, screenRow r.flip y⟩ (r.fragment i) c h
  simp only [Raster.drawPixel]
  generalize r.pipeline.enter ⟨x, y, screenRow r.flip y⟩ (r.fragment i) c = entered at he ⊢
  obtain ⟨c, _ | depth⟩ := entered
  · exact he
  · have hs : P (r.pipeline.shade (r.fragment i) (r.texel x dither i.coords) c).1 := k.judge c _ he
    simp only
    generalize r.pipeline.shade (r.fragment i) (r.texel x dither i.coords) c = shaded at hs ⊢
    obtain ⟨c, _ | color⟩ := shaded
    · exact hs
    · exact k.settle _ dither depth color _ c hs

theorem drawRun {r : Raster} (k : r.pipeline.Keeps P) (y : Int) (dither : Dither) (n : Nat) (x : Int) (i : Iterators)
    (c : Canvas) (h : P c) : P (r.drawRun y dither n x i c) := by
  induction n generalizing x i c with
  | zero => exact h
  | succ n ih => exact ih _ _ _ (k.drawPixel x y dither i c h)

/-- what every pixel keeps, the whole triangle keeps -/
theorem draw {r : Raster} (k : r.pipeline.Keeps P) (c : Canvas) (h : P c) : P (r.draw c) := by
  unfold Raster.draw
  induction r.spans generalizing c with
  | nil => exact h
  | cons s spans ih => exact ih _ (k.drawRun _ _ _ _ _ c h)

theorem runPipeline (k : p.Keeps P) (w : LinearWrite) (mode : LinearMode) (c : Canvas) (h : P c) :
    P (w.runPipeline p mode c) := by
  have hpixel : ∀ x pixel c, P c → P (LinearWrite.drawPixel p mode w x pixel c) := by
    intro x pixel c h
    unfold LinearWrite.drawPixel
    split
    · exact h
    · exact k.drawGiven _ _ _ c h
  exact hpixel _ _ _ (hpixel _ _ c h)

end Pipeline.Keeps

/-! ## The size of the memory that is drawn into -/

namespace Pipeline

theorem logSize_writeColor (p : Pipeline) (pos : PixelPosition) (v : UInt16) (m : Memory) :
    (p.writeColor pos v m).logSize = m.logSize := by
  unfold writeColor
  split <;> rfl

theorem logSize_writeAux (p : Pipeline) (pos : PixelPosition) (v : UInt16) (m : Memory) :
    (p.writeAux pos v m).logSize = m.logSize := by
  unfold writeAux
  split
  · split <;> rfl
  · rfl

theorem keeps_logSize (p : Pipeline) (k : Nat) : p.Keeps fun c => c.memory.logSize = k where
  enter _ _ h := h
  reject _ _ h := h
  settle _ _ _ _ _ _ h := (p.logSize_writeAux _ _ _).trans ((p.logSize_writeColor _ _ _).trans h)

end Pipeline

namespace FastFill

theorem logSize_fillRun (f : FastFill) (base : UInt32) (row : Int) (value : Nat → UInt16) (n x : Nat) (m : Memory) :
    (f.fillRun base row value n x m).logSize = m.logSize := by
  induction n generalizing x m with
  | zero => rfl
  | succ n ih => exact ih _ _

theorem logSize_fillColor (f : FastFill) (y : Int) (c : Canvas) : (f.fillColor y c).memory.logSize = c.memory.logSize := by
  unfold fillColor
  split
  · rfl
  · exact logSize_fillRun ..

theorem logSize_fillAux (f : FastFill) (y : Int) (c : Canvas) : (f.fillAux y c).memory.logSize = c.memory.logSize := by
  unfold fillAux
  split
  · rfl
  · exact logSize_fillRun ..

theorem logSize_run (f : FastFill) (c : Canvas) : (f.run c).memory.logSize = c.memory.logSize := by
  have hrows : ∀ n y c, (f.fillRows n y c).memory.logSize = c.memory.logSize := by
    intro n
    induction n with
    | zero => exact fun _ _ => rfl
    | succ n ih => exact fun y c => (ih _ _).trans ((f.logSize_fillAux y _).trans (f.logSize_fillColor y c))
  exact hrows _ _ c

end FastFill

namespace LinearWrite

theorem logSize_storeInside (m : Memory) (base pixel : UInt32) (v : UInt16) :
    (storeInside m base pixel v).logSize = m.logSize := by
  unfold storeInside
  split <;> rfl

theorem logSize_storePixel (mode : FrameMode) (surface : Surface) (y x : Int) (pixel : UInt32) (p : LinearPixel)
    (c : Canvas) : (storePixel mode surface y x pixel p c).memory.logSize = c.memory.logSize := by
  have hc : ∀ v : UInt16, (if p.parts.color then storeInside c.memory surface.colorBase pixel v else c.memory).logSize =
      c.memory.logSize := fun v => by
    split
    · exact logSize_storeInside ..
    · rfl
  unfold storePixel
  split
  · rfl
  · refine Eq.trans ?_ (hc ((Dither.ofMode mode y).quantize x p.color.r.toNat p.color.g.toNat p.color.b.toNat))
    cases surface.auxBase with
    | none => rfl
    | some base =>
      cases auxValue mode p with
      | none => rfl
      | some v => exact logSize_storeInside ..

theorem logSize_runDirect (w : LinearWrite) (mode : FrameMode) (surface : Surface) (c : Canvas) :
    (w.runDirect mode surface c).memory.logSize = c.memory.logSize :=
  (logSize_storePixel ..).trans (logSize_storePixel ..)

end LinearWrite

namespace Chip

/-! ## The shape of a chip -/

/-- the configuration and the sizes of the memories, as powers of two -/
structure Shape where
  config : ChipConfig
  frameLog : Nat
  textureLogs : List Nat
deriving DecidableEq

def shape (c : Chip) : Shape := ⟨c.config, c.frame.memory.logSize, c.textures.toList.map (·.memory.logSize)⟩

theorem shape_paint (c : Chip) (draw : Canvas → Canvas) (h : ∀ c, (draw c).memory.logSize = c.memory.logSize) :
    (c.paint draw).shape = c.shape := by
  show Shape.mk c.config (draw ⟨c.frame.memory, c.frame.counters, c.regs.get Reg.stipple⟩).memory.logSize _ = _
  rw [h]
  rfl

theorem shape_modifyFrame (c : Chip) (f : FrameBuffer → FrameBuffer) (h : ∀ fr, (f fr).memory = fr.memory) :
    (c.modifyFrame f).shape = c.shape := by
  show Shape.mk c.config (f c.frame).memory.logSize _ = _
  rw [h]
  rfl

theorem shape_mapTextures (c : Chip) (f : Nat → TextureUnit → TextureUnit)
    (h : ∀ i u, (f i u).memory.logSize = u.memory.logSize) :
    Chip.shape { c with textures := c.textures.mapIdx f } = c.shape := by
  show Shape.mk c.config c.frame.memory.logSize ((c.textures.mapIdx f).toList.map _) = _
  congr 1
  apply List.ext_getElem <;> simp [h]

theorem shape_modifyTexture (c : Chip) (i : Nat) (f : TextureUnit → TextureUnit)
    (h : ∀ u, (f u).memory.logSize = u.memory.logSize) : (c.modifyTexture i f).shape = c.shape := by
  show Shape.mk c.config c.frame.memory.logSize ((c.textures.modify i f).toList.map _) = _
  congr 1
  apply List.ext_getElem
  · simp
  · intro j h1 h2
    simp only [Array.toList_modify, List.getElem_map, List.getElem_modify]
    split
    · exact h _
    · rfl

/-! ### Register writes -/

theorem logSize_refreshAll (u : TextureUnit) : u.refreshAll.memory.logSize = u.memory.logSize := by
  show u.refresh.memory.logSize = u.memory.logSize
  unfold TextureUnit.refresh
  split <;> rfl

theorem logSize_upload (u : TextureUnit) (offset data : UInt32) :
    (u.upload offset data).memory.logSize = u.memory.logSize := by
  have hr : u.refresh.memory.logSize = u.memory.logSize := logSize_refreshAll u
  unfold TextureUnit.upload
  simp only
  split
  · exact hr
  · exact hr

theorem logSize_writeRegister (u : TextureUnit) (r : Reg) (data : UInt32) :
    (u.writeRegister r data).memory.logSize = u.memory.logSize := by
  unfold TextureUnit.writeRegister
  split
  · rfl
  · split
    · rfl
    · rfl
    · split <;> rfl

theorem shape_rasterize (c : Chip) (n : Nat) (base : UInt32) : (c.rasterize n base).shape = c.shape := by
  rw [rasterize_eq, paintRaster]
  refine (shape_modifyFrame _ (fun f => { f with trianglesOut := f.trianglesOut + 1 }) fun _ => rfl).trans ?_
  refine shape_paint _ _ fun canvas => ?_
  exact ((c.currentRaster n base).pipeline.keeps_logSize canvas.memory.logSize).draw canvas rfl

theorem shape_atCentre (c : Chip) : c.atCentre.shape = c.shape := by
  unfold atCentre
  split
  · refine (shape_modifyFrame _ _ fun _ => rfl).trans (shape_mapTextures c _ fun i u => ?_)
    split <;> rfl
  · rfl

theorem shape_drawTriangle (c : Chip) : c.drawTriangle.shape = c.shape := by
  rw [drawTriangle_eq]
  split
  · exact shape_atCentre c
  · refine (shape_rasterize _ _ _).trans ((shape_mapTextures _ _ fun i u => ?_).trans (shape_atCentre c))
    split
    · exact logSize_refreshAll u
    · rfl

theorem shape_extendStrip (c : Chip) : c.extendStrip.shape = c.shape := by
  rw [extendStrip_eq]
  split
  · refine (shape_drawTriangle _).trans ?_
    simp only [takeSetup]
    rw [shape_modifyFrame]
    · exact shape_mapTextures c.withVertex _ fun _ _ => rfl
    · exact fun _ => rfl
  · rfl

theorem memory_swapNow (f : FrameBuffer) (overlay : Option UInt32) : (f.swapNow overlay).memory = f.memory := by
  show (f.rotate overlay).memory = f.memory
  unfold FrameBuffer.rotate
  split
  · rfl
  · split
    · rfl
    · split <;> rfl

theorem shape_run (c : Chip) (command : Command) (select : ChipSelect) (data : UInt32) :
    (c.run command select data).shape = c.shape := by
  cases command with
  | triangle => exact shape_drawTriangle c
  | extendStrip => exact shape_extendStrip c
  | fastFill => exact shape_paint c _ fun canvas => FastFill.logSize_run _ canvas
  | swapBuffer =>
    refine shape_modifyFrame c _ fun f => ?_
    unfold FrameBuffer.swapCommand
    simp only
    split
    · rfl
    · exact memory_swapNow _ _
  | coordParameter p term form =>
    simp only [run, writeCoord]
    refine (shape_mapTextures _ _ fun i u => ?_).trans ?_
    · split <;> rfl
    · split
      · exact shape_modifyFrame c _ fun _ => rfl
      · rfl
  | vertex n form =>
    simp only [run]
    split
    · exact shape_modifyFrame c _ fun _ => rfl
    · rfl
  | pixelParameter p term form =>
    simp only [run]
    split
    · exact shape_modifyFrame c _ fun _ => rfl
    · rfl
  | fogTable n =>
    simp only [run]
    split
    · exact shape_modifyFrame c _ fun _ => rfl
    · rfl
  | nop => exact shape_modifyFrame c _ fun _ => rfl
  | bufferRegister r => exact shape_modifyFrame c _ fun _ => rfl
  | announceSwap => exact shape_modifyFrame c _ fun _ => rfl
  | unpackColor => rfl
  | beginStrip => rfl
  | plain => rfl

theorem shape_storeRegister (c : Chip) (select : ChipSelect) (r : Reg) (data : UInt32) :
    (c.storeRegister select r data).shape = c.shape := by
  unfold storeRegister
  simp only
  refine (shape_mapTextures _ _ fun i u => ?_).trans ?_
  · split
    · exact logSize_writeRegister u r data
    · rfl
  · split <;> rfl

theorem shape_updateLayout (c : Chip) (select : ChipSelect) (r : Reg) : (c.updateLayout select r).shape = c.shape := by
  unfold updateLayout
  split
  · exact shape_modifyFrame c _ fun _ => rfl
  · rfl

/-- **A register write keeps the shape of the chip.** -/
theorem shape_execute (c : Chip) (w : RegisterWrite) : (c.execute w).shape = c.shape := by
  simp only [execute]
  rw [shape_updateLayout, shape_storeRegister, shape_run]

theorem shape_linearWrite (c : Chip) (offset data byteMask : UInt32) :
    (c.linearWrite offset data byteMask).shape = c.shape := by
  rw [linearWrite_eq]
  split
  · rfl
  · rename_i w base _
    refine shape_paint c _ fun canvas => ?_
    simp only [linearDraw]
    split
    · exact (Pipeline.keeps_logSize _ canvas.memory.logSize).runPipeline w _ canvas rfl
    · exact LinearWrite.logSize_runDirect w _ _ canvas

theorem shape_retrace (c : Chip) (overlay : Option UInt32) :
    (c.modifyFrame fun f => f.retrace overlay).shape = c.shape := by
  refine shape_modifyFrame c _ fun f => ?_
  unfold FrameBuffer.retrace
  simp only
  split
  · exact memory_swapNow _ _
  · rfl

/-! ### Runs -/

theorem kept_shape (s : Shape) : Kept fun c => c.shape = s where
  queue _ _ h := h
  execute c w h := (shape_execute c w).trans h
  upload c i offset data h := (shape_modifyTexture c i _ fun u => logSize_upload u offset data).trans h
  linearWrite c offset data byteMask h := (shape_linearWrite c offset data byteMask).trans h
  retrace c overlay h := (shape_retrace c overlay).trans h
  endRetrace _ h := h

theorem config_flush (c : Chip) : c.flush.config = c.config :=
  congrArg Shape.config ((kept_shape c.shape).flush c rfl)

theorem config_run (c : Chip) (calls : List Call) : (c.runCalls calls).1.config = c.config :=
  congrArg Shape.config ((kept_shape c.shape).run c calls rfl)

theorem revision_run (c : Chip) (calls : List Call) : (c.runCalls calls).1.revision = c.revision :=
  congrArg ChipConfig.revision (config_run c calls)

theorem size_flush (c : Chip) : c.flush.frame.memory.size = c.frame.memory.size := by
  have hlog : c.flush.frame.memory.logSize = c.frame.memory.logSize :=
    congrArg Shape.frameLog ((kept_shape c.shape).flush c rfl)
  rw [Memory.size, Memory.size, Memory.size_eq, Memory.size_eq, hlog]

/-- the frame buffer memory has the size of its configuration after every run -/
theorem size_run (config : ChipConfig) (calls : List Call) :
    ((initial config).runCalls calls).1.frame.memory.size = 2 ^ ChipConfig.logBytes config.frameMegabytes := by
  have hlog : ((initial config).runCalls calls).1.frame.memory.logSize = ChipConfig.logBytes config.frameMegabytes :=
    congrArg Shape.frameLog ((kept_shape (initial config).shape).run (initial config) calls rfl)
  rw [Memory.size, Memory.size_eq, hlog]

/-! ### Reachable states -/

theorem validate_eq_ok {config : ChipConfig} (h : config.validate = .ok ()) :
    ChipConfig.isMemorySize config.frameMegabytes = true ∧ ChipConfig.isMemorySize config.textureMegabytes = true ∧
      config.textureUnits.toNat ≤ 2 := by
  unfold ChipConfig.validate at h
  split_ifs at h with hf ht hn
  refine ⟨by simpa using hf, by simpa using ht, ?_⟩
  exact Nat.le_of_not_lt fun hlt => hn (UInt64.lt_iff_toNat_lt.2 hlt)

theorem logBytes_le {megabytes : UInt32} (h : ChipConfig.isMemorySize megabytes = true) :
    ChipConfig.logBytes megabytes ≤ 24 := by
  have hm : megabytes ∈ ([1, 2, 4, 8, 16] : List UInt32) := by simpa [ChipConfig.isMemorySize] using h
  simp only [List.mem_cons, List.not_mem_nil, or_false] at hm
  rcases hm with rfl | rfl | rfl | rfl | rfl <;> decide

/-- a reachable chip has a valid configuration and the shape of the new chip of its configuration -/
theorem shape_reachable (c : Chip) (h : c.Reachable) :
    c.config.validate = .ok () ∧ c.shape = (initial c.config).shape := by
  obtain ⟨config, first, calls, hmake, rfl⟩ := h
  obtain ⟨hv, rfl⟩ := make_eq_ok.1 hmake
  have hs := (kept_shape (initial config).shape).run (initial config) calls rfl
  have hc : ((initial config).runCalls calls).1.config = config := congrArg Shape.config hs
  rw [hc]
  exact ⟨hv, hs⟩

theorem size_of_log {m : Memory} {k : Nat} (h : m.logSize ≤ k) : m.size ≤ 2 ^ k := by
  rw [show m.size = 2 ^ m.logSize from m.size_eq]
  exact Nat.pow_le_pow_right (by decide) h

/-- a reachable chip has at most two texture units, and no memory of more than 16 megabytes -/
theorem memory_size_reachable (c : Chip) (h : c.Reachable) :
    c.frame.memory.size ≤ 2 ^ 24 ∧ c.textures.size ≤ 2 ∧ ∀ u ∈ c.textures.toList, u.memory.size ≤ 2 ^ 24 := by
  obtain ⟨hv, hs⟩ := shape_reachable c h
  obtain ⟨hf, ht, hn⟩ := validate_eq_ok hv
  have hframe : c.frame.memory.logSize = ChipConfig.logBytes c.config.frameMegabytes := congrArg Shape.frameLog hs
  have hlogs : c.textures.toList.map (·.memory.logSize) =
      (initial c.config).textures.toList.map (·.memory.logSize) := congrArg Shape.textureLogs hs
  have hunits : (initial c.config).textures.toList.map (·.memory.logSize) =
      List.replicate c.config.textureUnits.toNat (ChipConfig.logBytes c.config.textureMegabytes) := by
    refine List.eq_replicate_iff.2 ⟨by simp [initial], fun k hk => ?_⟩
    obtain ⟨u, hu, rfl⟩ := List.mem_map.1 hk
    obtain ⟨i, rfl⟩ := List.mem_ofFn.1 (by simpa [initial] using hu)
    rfl
  rw [hunits] at hlogs
  refine ⟨size_of_log (hframe ▸ logBytes_le hf), ?_, fun u hu => size_of_log ?_⟩
  · have hlen := congrArg List.length hlogs
    simp only [List.length_map, List.length_replicate, Array.length_toList] at hlen
    omega
  · have hmem : u.memory.logSize ∈ c.textures.toList.map (·.memory.logSize) :=
      List.mem_map_of_mem hu
    rw [hlogs] at hmem
    rw [List.eq_of_mem_replicate hmem]
    exact logBytes_le ht

end Chip
end Accel3D
