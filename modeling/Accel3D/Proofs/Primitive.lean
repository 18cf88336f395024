/-
What goes through the pixel pipeline at one time.

A triangle command, a strip command that completes a triangle and a linear write that uses the pipeline send a list of
pixels through it, one after the other. The color of a pixel of a triangle is judged by the color path, that of a
linear write by its tests alone; both turn a pixel away for its color only (`JudgesColor`). So a pixel comes with the
verdict on its color (`JudgedPixel`), and a triangle and a linear write are the same thing to the pipeline: a
`Primitive`.

Results: `counters_foldl` (the outcomes of the pixels are what is counted), `canvas_act` (an action draws its
primitive), `primitive_spec` (its rules are those of fbzMode, and a word can count its pixels).
-/
import Accel3D.Proofs.LinearPaths
import Accel3D.Proofs.PixelCentres

namespace Accel3D

/-! ## Pixels with the verdict on their color -/

def Reject.isOfColor : Reject → Bool
  | .chroma => true
  | .alpha => true
  | _ => false

/-- a verdict that turns a pixel away for its color only -/
def JudgesColor {α : Type} (verdict : Except Reject α) : Prop := ∀ r, verdict = .error r → r.isOfColor = true

section Judging

variable {α β : Type}

theorem judgesColor_ok (a : α) : JudgesColor (.ok a) := by
  intro r h
  cases h

theorem judgesColor_test (fails : Bool) {r : Reject} (hr : r.isOfColor = true) :
    JudgesColor (if fails then .error r else .ok ()) := by
  intro s h
  cases fails with
  | true =>
    cases h
    exact hr
  | false => cases h

theorem JudgesColor.bind {x : Except Reject α} {f : α → Except Reject β} (hx : JudgesColor x)
    (hf : ∀ a, JudgesColor (f a)) : JudgesColor (x >>= f) := by
  intro r h
  cases x with
  | error s =>
    cases h
    exact hx r rfl
  | ok a => exact hf a r h

end Judging

namespace PixelRules

variable (rules : PixelRules)

theorem judgesColor_colorOf (f : Fragment) (texel : Argb) : JudgesColor (rules.colorOf f texel) := by
  apply (judgesColor_test _ rfl).bind
  intro _
  apply (judgesColor_test _ rfl).bind
  intro _
  apply (judgesColor_test _ rfl).bind
  intro _
  exact judgesColor_ok _

theorem judgesColor_testColor (c : Argb) : JudgesColor (rules.testColor c) := by
  apply (judgesColor_test _ rfl).bind
  intro _
  apply (judgesColor_test _ rfl).bind
  intro _
  apply (judgesColor_test _ rfl).bind
  intro _
  exact judgesColor_ok _

end PixelRules

/-- a pixel on its way into the pipeline, with the verdict on its color -/
structure JudgedPixel where
  pos : PixelPosition
  dither : Dither
  values : Fragment
  verdict : Except Reject Argb
  judged : JudgesColor verdict

namespace Pipeline

variable (p : Pipeline)

/-- one such pixel through the whole pipeline -/
def drawJudged (c : Canvas) (d : JudgedPixel) : Canvas := p.drawColored d.pos d.dither d.values d.verdict c

/-- the test that rejects it, if one does -/
def judgedOutcome (c : Canvas) (d : JudgedPixel) : Option Reject := p.outcome d.pos d.values d.verdict c

def outcomes : List JudgedPixel → Canvas → List (Option Reject)
  | [], _ => []
  | d :: ds, c => p.judgedOutcome c d :: outcomes ds (p.drawJudged c d)

/-- each outcome is counted once, and each pixel on the way in -/
theorem counters_foldl (ds : List JudgedPixel) (c : Canvas) :
    (ds.foldl p.drawJudged c).counters.pixelsIn = c.counters.pixelsIn + UInt32.ofNat ds.length ∧
      ∀ o, (ds.foldl p.drawJudged c).counters.count o =
        c.counters.count o + UInt32.ofNat ((p.outcomes ds c).count o) := by
  induction ds generalizing c with
  | nil => simp [outcomes]
  | cons d ds ih =>
    obtain ⟨hin, hcount⟩ := ih (p.drawJudged c d)
    have hone := p.conserves_drawColored d.pos d.dither d.values d.verdict c
    refine ⟨?_, ?_⟩
    · rw [List.foldl_cons, hin, List.length_cons, Nat.add_comm, UInt32.ofNat_add, ← UInt32.add_assoc]
      exact congrArg (· + UInt32.ofNat ds.length) hone.entered
    · intro o
      have hcounted : (p.drawJudged c d).counters.count o =
          c.counters.count o + if o = p.judgedOutcome c d then 1 else 0 := hone.counted o
      rw [List.foldl_cons, hcount o, hcounted, outcomes]
      by_cases ho : o = p.judgedOutcome c d
      · rw [if_pos ho, ← ho, List.count_cons_self, Nat.add_comm, UInt32.ofNat_add, ← UInt32.add_assoc]
        rfl
      · rw [if_neg ho, List.count_cons_of_ne (Ne.symm ho), UInt32.add_zero]

end Pipeline

/-- pixels that go through a pipeline one after the other -/
structure Primitive where
  pipeline : Pipeline
  pixels : List JudgedPixel

def Primitive.draw (t : Primitive) (c : Canvas) : Canvas := t.pixels.foldl t.pipeline.drawJudged c

/-! ## Triangles and linear writes -/

namespace Raster

variable (r : Raster)

/-- a pixel of a triangle is judged by the color path -/
def judged (d : TexturedPixel) : JudgedPixel :=
  ⟨d.pos, Dither.ofMode r.pipeline.rules.frame d.pos.y, d.values, r.pipeline.rules.colorOf d.values d.texel,
    r.pipeline.rules.judgesColor_colorOf d.values d.texel⟩

def primitive : Primitive := ⟨r.pipeline, r.pixels.map r.judged⟩

theorem draw_primitive (c : Canvas) : r.draw c = r.primitive.draw c := by
  rw [draw_eq, Primitive.draw, primitive, List.foldl_map]
  rfl

theorem length_primitive : r.primitive.pixels.length < 2 ^ 32 := by
  have hplaces := congrArg List.length r.places_pixels
  rw [List.length_map, length_covered] at hplaces
  rw [primitive, List.length_map, hplaces]
  exact coverage_lt r.triangle.a r.triangle.b r.triangle.c

end Raster

namespace LinearWrite

variable (w : LinearWrite) (p : Pipeline) (mode : LinearMode)

def judged (x : Int) (q : LinearPixel) : List JudgedPixel :=
  if q.parts.any then
    [⟨⟨x, w.y, w.screenY⟩, Dither.ofMode p.rules.frame w.y, fragment mode p.rules.zaColor q,
      p.rules.testColor q.color, p.rules.judgesColor_testColor q.color⟩]
  else []

def primitive : Primitive := ⟨p, w.judged p mode w.x w.pixels.first ++ w.judged p mode (w.x + 1) w.pixels.second⟩

theorem drawPixel_judged (x : Int) (q : LinearPixel) (c : Canvas) :
    drawPixel p mode w x q c = (w.judged p mode x q).foldl p.drawJudged c := by
  unfold drawPixel judged
  cases q.parts.any <;> rfl

theorem runPipeline_primitive (c : Canvas) : w.runPipeline p mode c = (w.primitive p mode).draw c := by
  rw [runPipeline, drawPixel_judged, drawPixel_judged, Primitive.draw, primitive, List.foldl_append]

theorem length_primitive : (w.primitive p mode).pixels.length < 2 ^ 32 := by
  have hone : ∀ x q, (w.judged p mode x q).length ≤ 1 := by
    intro x q
    unfold judged
    split <;> simp
  have hfirst := hone w.x w.pixels.first
  have hsecond := hone (w.x + 1) w.pixels.second
  rw [primitive, List.length_append]
  omega

end LinearWrite

/-! ## Actions -/

namespace Chip

/-- the pixels that a triangle command sends through the pipeline, if there is a buffer to draw to -/
def trianglePrimitive? (c : Chip) : Option Primitive :=
  c.atCentre.triangleBase.map fun base => (c.atCentre.readyRaster c.textureCount base).primitive

def linearPrimitive? (c : Chip) (offset data byteMask : UInt32) : Option Primitive :=
  let mode := LinearMode.decode (c.regs.get Reg.lfbMode)
  if mode.pixelPipeline then
    (c.linearTarget offset data byteMask).map fun (w, base) =>
      w.primitive ⟨PixelRules.ofRegisters c.revision c.regs Combine.plain, c.frame.fog, c.frame.surface base⟩ mode
  else none

/-- the pixels that the effect of a register write sends through the pipeline: a triangle, or one of a strip or fan -/
def commandPrimitive? (c : Chip) : Command → Option Primitive
  | .triangle => c.trianglePrimitive?
  | .extendStrip =>
    if c.withVertex.setup.isComplete && !c.withVertex.setup.isCulled c.setupMode then
      (c.withVertex.takeSetup c.setupMode).trianglePrimitive?
    else none
  | _ => none

/-- the pixels that an action sends through the pipeline -/
def primitive? (c : Chip) : Action → Option Primitive
  | .write w => c.commandPrimitive? (c.command w)
  | .linearWrite offset data byteMask => c.linearPrimitive? offset data byteMask
  | _ => none

/-- whether a write is stored in the stipple register -/
def storesStipple (c : Chip) (w : RegisterWrite) : Bool := (c.reach w).frame && register w == Reg.stipple

variable {c : Chip} {t : Primitive}

theorem canvas_drawTriangle_primitive (h : c.trianglePrimitive? = some t) :
    c.drawTriangle.canvas = t.draw c.canvas := by
  obtain ⟨base, hbase, rfl⟩ := Option.map_eq_some_iff.1 h
  rw [canvas_drawTriangle c base hbase, Raster.draw_primitive]

theorem canvas_drawTriangle_none (h : c.trianglePrimitive? = none) : c.drawTriangle.canvas = c.canvas := by
  rw [drawTriangle_eq, Option.map_eq_none_iff.1 h, canvas_atCentre]

theorem canvas_run_primitive {command : Command} (h : c.commandPrimitive? command = some t) (select : ChipSelect)
    (data : UInt32) : (c.run command select data).canvas = t.draw c.canvas := by
  cases command with
  | triangle => exact canvas_drawTriangle_primitive h
  | extendStrip =>
    simp only [commandPrimitive?] at h
    simp only [run]
    rw [extendStrip_eq]
    split_ifs at h ⊢ with hdrawn
    exact canvas_drawTriangle_primitive h
  | _ => cases h

/-- beyond the effect of a write, its storing changes the canvas only in the stipple register -/
theorem canvas_execute {w : RegisterWrite} (h : c.storesStipple w = false) :
    (c.execute w).canvas = (c.run (c.command w) (ChipSelect.ofAddress w.offset) w.data).canvas := by
  have hlayout : (c.execute w).canvas = (c.stored w).canvas := by
    rw [execute_eq, updateLayout]
    split <;> rfl
  have hstipple : (c.stored w).regs.get Reg.stipple =
      (c.run (c.command w) (ChipSelect.ofAddress w.offset) w.data).regs.get Reg.stipple := by
    unfold storesStipple at h
    simp only [stored, storeRegister]
    split
    next hframe =>
      have hne : register w ≠ Reg.stipple := by simpa [hframe] using h
      rw [RegisterFile.get_set, if_neg hne]
    next => rfl
  rw [hlayout, canvas, canvas, frame_stored, hstipple]

theorem storesStipple_of_primitive {w : RegisterWrite} (h : c.primitive? (.write w) = some t) :
    c.storesStipple w = false := by
  have hplain : ∀ v : Revision, Command.ofRegister v Reg.stipple = .plain := by
    intro v
    cases v <;> decide +kernel
  by_contra hstores
  rw [Bool.not_eq_false, storesStipple, Bool.and_eq_true, beq_iff_eq] at hstores
  simp only [primitive?, command, hstores.2, hplain] at h
  cases h

/-- **An action draws its primitive.** -/
theorem canvas_act {a : Action} (h : c.primitive? a = some t) : (c.act a).canvas = t.draw c.canvas := by
  cases a with
  | write w =>
    show (c.execute w).canvas = _
    rw [canvas_execute (storesStipple_of_primitive h)]
    exact canvas_run_primitive h _ _
  | linearWrite offset data byteMask =>
    simp only [primitive?, linearPrimitive?] at h
    split at h
    next hpipeline =>
      obtain ⟨⟨w, base⟩, htarget, rfl⟩ := Option.map_eq_some_iff.1 h
      show (c.linearWrite offset data byteMask).canvas = _
      rw [canvas_linearWrite, htarget]
      simp only [linearDraw, hpipeline, if_true]
      exact LinearWrite.runPipeline_primitive w _ _ _
    next => cases h
  | upload i offset data => cases h
  | retrace => cases h
  | endRetrace => cases h

theorem trianglePrimitive_spec (h : c.trianglePrimitive? = some t) :
    t.pipeline.rules.frame = c.frameMode ∧ t.pixels.length < 2 ^ 32 := by
  obtain ⟨base, -, rfl⟩ := Option.map_eq_some_iff.1 h
  have hregs : c.atCentre.regs = c.regs := by
    unfold atCentre
    split <;> rfl
  refine ⟨?_, Raster.length_primitive _⟩
  rw [frameMode, ← hregs]
  rfl

/-- the rules of what an action draws are those of fbzMode, and its pixels are fewer than a word can count -/
theorem primitive_spec {a : Action} (h : c.primitive? a = some t) :
    t.pipeline.rules.frame = c.frameMode ∧ t.pixels.length < 2 ^ 32 := by
  cases a with
  | write w =>
    simp only [primitive?] at h
    cases hcommand : c.command w with
    | triangle =>
      rw [hcommand] at h
      exact trianglePrimitive_spec h
    | extendStrip =>
      simp only [hcommand, commandPrimitive?] at h
      split at h
      · -- the setup unit sets parameters, not fbzMode
        have hset := trianglePrimitive_spec h
        exact hset
      · cases h
    | _ =>
      rw [hcommand] at h
      cases h
  | linearWrite offset data byteMask =>
    simp only [primitive?, linearPrimitive?] at h
    split at h
    · obtain ⟨⟨w, base⟩, -, rfl⟩ := Option.map_eq_some_iff.1 h
      exact ⟨rfl, LinearWrite.length_primitive _ _ _⟩
    · cases h
  | upload i offset data => cases h
  | retrace => cases h
  | endRetrace => cases h

end Chip
end Accel3D
