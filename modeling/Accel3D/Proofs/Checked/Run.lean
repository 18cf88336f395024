/-
Triangles and whole runs in words.

A triangle is drawn from texture units that are up to date, and so each has a detail factor of eight bits: every pixel
of it stays in range, and so do its rows. A chip that its host has driven from the start brings its units up to date
before it draws, which is what the coherence of its units is for. So a chip that stops at the first number that leaves
its range never stops, and does what the chip does.

Results: `Raster.draw?_eq` (a triangle), `Chip.act?_eq` (what a host asks for), `Chip.foldlM_act?` (a run),
`arithmetic_in_range` (all of it).
-/
import Accel3D.Proofs.Checked.Drawing
import Accel3D.Proofs.Derived.Eager

namespace Accel3D

theorem foldlM_eq_some {α β : Type} {f? : β → α → Option β} {f : β → α → β} {l : List α}
    (h : ∀ a ∈ l, ∀ b, f? b a = some (f b a)) (b : β) : l.foldlM f? b = some (l.foldl f b) := by
  induction l generalizing b with
  | nil => rfl
  | cons a l ih =>
    rw [List.foldlM_cons, h a List.mem_cons_self]
    exact ih (fun x hx => h x (List.mem_cons_of_mem a hx)) (f b a)

/-! ## Triangles -/

namespace Raster

def texel? (r : Raster) (x : Int) (dither : Dither) (coords : List TexCoords) : Option Argb :=
  (r.stages.zip coords).foldlM (fun other (stage, c) => stage.process? x dither c other) Argb.black

/-- one pixel, with the texture looked up only when the pixel passes the tests on the way in -/
def drawPixel? (r : Raster) (x y : Int) (dither : Dither) (i : Iterators) (c : Canvas) : Option Canvas :=
  let f := r.fragment i
  let verdict := (r.texel? x dither i.coords).bind (r.pipeline.rules.colorOf? f)
  r.pipeline.drawColored? ⟨x, y, screenRow r.flip y⟩ dither f verdict c

def drawRun? (r : Raster) (y : Int) (dither : Dither) : Nat → Int → Iterators → Canvas → Option Canvas
  | 0, _, _, c => some c
  | n + 1, x, i, c => do drawRun? r y dither n (x + 1) (r.step i) (← r.drawPixel? x y dither i c)

def drawSpan? (r : Raster) (c : Canvas) (s : Span) : Option Canvas :=
  drawRun? r s.y (Dither.ofMode r.pipeline.rules.frame s.y) s.width s.start (r.valuesAt s.start s.y) c

def draw? (r : Raster) (c : Canvas) : Option Canvas := r.spans.foldlM r.drawSpan? c

/-- a triangle whose texture units have the parameters of their registers -/
def Current (r : Raster) : Prop := ∀ s ∈ r.stages, s.unit.params = s.unit.currentParams

variable {r : Raster}

theorem texel?_eq (h : r.Current) (x : Int) (dither : Dither) (coords : List TexCoords) :
    r.texel? x dither coords = some (r.texel x dither coords) :=
  foldlM_eq_some (fun _ he other =>
    TextureStage.process?_eq _ (h _ (List.of_mem_zip he).1) x dither _ other) Argb.black

theorem drawPixel?_eq (h : r.Current) (x y : Int) (dither : Dither) (i : Iterators) (c : Canvas) :
    r.drawPixel? x y dither i c = some (r.drawPixel x y dither i c) := by
  have hverdict : (r.texel? x dither i.coords).bind (r.pipeline.rules.colorOf? (r.fragment i)) =
      some (r.pipeline.rules.colorOf (r.fragment i) (r.texel x dither i.coords)) := by
    rw [texel?_eq h, Option.bind_some, PixelRules.colorOf?_eq]
  rw [drawPixel_eq]
  exact r.pipeline.drawColored?_eq _ dither (r.fragment i) c hverdict

theorem drawRun?_eq (h : r.Current) (y : Int) (dither : Dither) (n : Nat) (x : Int) (i : Iterators) (c : Canvas) :
    r.drawRun? y dither n x i c = some (r.drawRun y dither n x i c) := by
  induction n generalizing x i c with
  | zero => rfl
  | succ n ih => simp only [drawRun?, drawRun, drawPixel?_eq h, Option.bind_eq_bind, Option.bind_some, ih]

/-- **A triangle stays in range,** whatever its parameters and the registers of its texture units are. -/
theorem draw?_eq (h : r.Current) (c : Canvas) : r.draw? c = some (r.draw c) :=
  foldlM_eq_some (fun s _ c => drawRun?_eq h s.y _ s.width s.start _ c) c

end Raster

namespace Chip

def paint? (c : Chip) (draw? : Canvas → Option Canvas) : Option Chip := do
  let canvas ← draw? ⟨c.frame.memory, c.frame.counters, c.regs.get Reg.stipple⟩
  return c.paint fun _ => canvas

def rasterize? (c : Chip) (n : Nat) (colorBase : UInt32) : Option Chip := do
  let r := c.currentRaster n colorBase
  let c ← (c.withModes (c.modes.afterTriangle (c.modeKey n) r.pixelCount)).paint? r.draw?
  return c.modifyFrame fun f => { f with trianglesOut := f.trianglesOut + 1 }

def drawTriangle? (c : Chip) : Option Chip :=
  match c.atCentre.triangleBase with
  | none => some c.atCentre
  | some base => (c.atCentre.modifyTextures c.textureCount TextureUnit.refreshAll).rasterize? c.textureCount base

def extendStrip? (c : Chip) : Option Chip :=
  if c.withVertex.setup.isComplete && !c.withVertex.setup.isCulled c.setupMode then
    (c.withVertex.takeSetup c.setupMode).drawTriangle?
  else some c.withVertex

def fastFill? (c : Chip) : Option Chip :=
  let mode := FrameMode.decode (c.regs.get Reg.fbzMode)
  c.paint? (FastFill.ofRegisters c.regs c.frame.layout (c.frame.drawOffset c.revision mode.drawBuffer)).run?

def linearDraw? (c : Chip) (w : LinearWrite) (base : UInt32) : Canvas → Option Canvas :=
  let mode := LinearMode.decode (c.regs.get Reg.lfbMode)
  if mode.pixelPipeline then
    w.runPipeline? ⟨PixelRules.ofRegisters c.revision c.regs Combine.plain, c.frame.fog, c.frame.surface base⟩ mode
  else w.runDirect? (FrameMode.decode (c.regs.get Reg.fbzMode)) (c.frame.surface base)

def linearWrite? (c : Chip) (offset data byteMask : UInt32) : Option Chip :=
  match c.linearTarget offset data byteMask with
  | none => some c
  | some (w, base) => c.paint? (c.linearDraw? w base)

def run? (c : Chip) (command : Command) (select : ChipSelect) (data : UInt32) : Option Chip :=
  match command with
  | .triangle => c.drawTriangle?
  | .fastFill => c.fastFill?
  | .extendStrip => c.extendStrip?
  | other => some (c.run other select data)

def execute? (c : Chip) (w : RegisterWrite) : Option Chip := do
  let effect ← c.run? (c.command w) (ChipSelect.ofAddress w.offset) w.data
  return (effect.storeRegister (c.reach w) (register w) w.data).updateLayout (c.reach w) (register w)

/-- what a host asks for, carried out by a chip that stops where a number leaves its range -/
def act? (c : Chip) : Action → Option Chip
  | .write w => c.execute? w
  | .linearWrite offset data byteMask => c.linearWrite? offset data byteMask
  | other => some (c.act other)

variable {c : Chip}

theorem paint?_eq {draw? : Canvas → Option Canvas} {draw : Canvas → Canvas}
    (h : ∀ canvas, draw? canvas = some (draw canvas)) (c : Chip) : c.paint? draw? = some (c.paint draw) := by
  rw [paint?, h]
  rfl

theorem current_raster (h : c.Coherent) (n : Nat) (entry : ModeEntry) (base : UInt32) :
    ((c.modifyTextures n TextureUnit.refreshAll).raster n entry base).Current := by
  intro s hs
  change s ∈ (c.modifyTextures n TextureUnit.refreshAll).textureStages n entry at hs
  obtain ⟨i, hi, hstage⟩ := List.mem_filterMap.1 hs
  have hlt : i < n := List.mem_range.1 (List.mem_reverse.1 hi)
  obtain ⟨u, hu, hstage⟩ := Option.bind_eq_some_iff.1 hstage
  obtain ⟨lod, -, hstage⟩ := Option.bind_eq_some_iff.1 hstage
  obtain rfl := Option.some.inj hstage
  simp only [modifyTextures, Array.getElem?_mapIdx, if_pos hlt, Option.map_eq_some_iff] at hu
  obtain ⟨v, hv, rfl⟩ := hu
  change v.refreshAll.params = v.refreshAll.currentParams
  rw [TextureUnit.refreshAll_eq (h v (Array.mem_of_getElem? hv))]
  rfl

theorem drawTriangle?_eq (h : c.Coherent) : c.drawTriangle? = some c.drawTriangle := by
  have hcentre : c.atCentre.Coherent := h.alike.atCentre.coherent
  rw [drawTriangle?, drawTriangle_eq]
  cases c.atCentre.triangleBase with
  | none => rfl
  | some base =>
    have hcurrent := current_raster hcentre c.textureCount
    simp only [rasterize?, rasterize_eq, currentRaster, paint?_eq (Raster.draw?_eq (hcurrent _ base)),
      Option.bind_eq_bind, Option.bind_some]
    rfl

theorem extendStrip?_eq (h : c.Coherent) : c.extendStrip? = some c.extendStrip := by
  have hvertex : c.withVertex.Coherent := h
  have hsetup : (c.withVertex.takeSetup c.setupMode).Coherent := by
    rw [takeSetup_eq]
    have hmapped := hvertex.alike.mapTextures
      (f := fun i u => { u with gradients := c.withVertex.setup.gradients c.setupMode i u.gradients })
      fun i u v hu => hu.setGradients fun g => c.withVertex.setup.gradients c.setupMode i g
    exact hmapped.coherent
  rw [extendStrip?, extendStrip_eq, drawTriangle?_eq hsetup]
  split <;> rfl

theorem linearWrite?_eq (c : Chip) (offset data byteMask : UInt32) :
    c.linearWrite? offset data byteMask = some (c.linearWrite offset data byteMask) := by
  have hdraw : ∀ w base canvas, c.linearDraw? w base canvas = some (c.linearDraw w base canvas) := by
    intro w base canvas
    simp only [linearDraw?, linearDraw]
    split
    · exact LinearWrite.runPipeline?_eq _ _ _ _
    · exact LinearWrite.runDirect?_eq _ _ _ _
  rw [linearWrite?, linearWrite_eq]
  cases c.linearTarget offset data byteMask with
  | none => rfl
  | some target => exact paint?_eq (hdraw target.1 target.2) c

theorem run?_eq (h : c.Coherent) (command : Command) (select : ChipSelect) (data : UInt32) :
    c.run? command select data = some (c.run command select data) := by
  cases command with
  | triangle => exact drawTriangle?_eq h
  | fastFill => exact paint?_eq (FastFill.run?_eq _) c
  | extendStrip => exact extendStrip?_eq h
  | _ => rfl

/-- **No action has a number leave its range** on a chip with coherent units. -/
theorem act?_eq (h : c.Coherent) (a : Action) : c.act? a = some (c.act a) := by
  cases a with
  | write w =>
    simp only [act?, execute?, run?_eq h, Option.bind_eq_bind, Option.bind_some]
    rfl
  | linearWrite offset data byteMask => exact linearWrite?_eq c offset data byteMask
  | _ => rfl

theorem foldlM_act? (h : c.Coherent) (as : List Action) : as.foldlM act? c = some (as.foldl act c) := by
  induction as generalizing c with
  | nil => rfl
  | cons a as ih =>
    rw [List.foldlM_cons, act?_eq h]
    exact ih (h.alike.act a).coherent

end Chip

/-- **The arithmetic of pixels stays in range.** A function that stops at the first number that a word cannot hold, at
the first color that is not in the dither table, at the first alpha that is not a byte and at the first shift by a
negative number of places never stops, and gives what its namesake gives:
- for a pixel, whatever its place, values and texel are, the registers that rule it, the fog table, the memory and the
  buffers; what is stored of it is a byte a channel, and its alpha is one;
- for a fast fill and for a direct write of the linear frame buffer;
- for a texture unit, whatever its registers and the mode, coordinates and level are;
- for every floating depth, and for every run of a chip. -/
theorem arithmetic_in_range :
    (∀ (p : Pipeline) (pos : PixelPosition) (dither : Dither) (f : Fragment) (c : Canvas),
      (∀ texel, p.drawColored? pos dither f (p.rules.colorOf? f texel) c =
        some (p.drawColored pos dither f (p.rules.colorOf f texel) c)) ∧
      p.drawGiven? pos dither f c = some (p.drawGiven pos dither f c) ∧
      ∀ depth color, let stored := p.finalColor c.memory pos dither depth color f
        p.settle? pos dither depth color f c = some (p.settle pos dither depth color f c) ∧
          stored.1.Within 0 255 ∧ 0 ≤ stored.2 ∧ stored.2 ≤ 255) ∧
    (∀ (fill : FastFill) (c : Canvas), fill.run? c = some (fill.run c)) ∧
    (∀ (w : LinearWrite) (mode : FrameMode) (surface : Surface) (c : Canvas),
      w.runDirect? mode surface c = some (w.runDirect mode surface c)) ∧
    (∀ (u : TextureUnit) (mode : TextureMode) (combine : Combine) (lodBase x : Int) (dither : Dither)
      (coords : TexCoords) (other : Argb), let stage : TextureStage := ⟨u.upToDate, mode, combine, lodBase⟩
        stage.process? x dither coords other = some (stage.process x dither coords other)) ∧
    (∀ n : Nat, floatDepth? n = some (floatDepth n)) ∧
    ∀ (config : ChipConfig) (calls : List Call), ∃ q,
      (((Chip.initial config).history calls).foldlM Chip.act? (Chip.initial config)).map (Chip.withQueue · q) =
        some ((Chip.initial config).runCalls calls).1 := by
  refine ⟨fun p pos dither f c => ⟨fun texel => ?_, ?_, fun depth color => ?_⟩, fun fill c => fill.run?_eq c,
    fun w mode surface c => w.runDirect?_eq mode surface c, fun u mode combine lodBase x dither coords other => ?_,
    floatDepth?_eq, fun config calls => ?_⟩
  · exact p.drawColored?_eq pos dither f c (p.rules.colorOf?_eq f texel)
  · exact p.drawGiven?_eq pos dither f c
  · exact ⟨p.settle?_eq pos dither f c depth color, p.finalColor_byte pos dither f c.memory depth color⟩
  · exact TextureStage.process?_eq _ rfl x dither coords other
  · obtain ⟨q, hq⟩ := Chip.run_eq_foldl (Chip.initial config) calls
    refine ⟨q, ?_⟩
    rw [Chip.foldlM_act? (Chip.coherent_initial config), hq]
    rfl

end Accel3D
