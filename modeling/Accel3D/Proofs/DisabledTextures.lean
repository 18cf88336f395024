/-
Texture units that have no part in a triangle.

Texturing can be switched off for all units, by fbzColorPath or by fbiInit3, and for one unit by a lowest level of 8 or
more. A unit is asked whether it is switched off once its derived state is up to date; moving its coordinates, bringing
it up to date and storing a triangle command do not switch it on. So of two chips whose frame buffer sides are the same,
and whose units are the same or switched off in both as far as they take part at all (`SeenAlike`), a triangle command
makes two such chips again: nothing of a unit that is switched off comes through to the frame buffer side, however many
triangles are drawn.

Results: `SeenAlike.drawTriangle` (one triangle), `SeenAlike.execute` (one triangle command), `seenAlike_run` (any
triangle commands), `disabled_textures`.
-/
import Accel3D.Proofs.Derived.Eager
import Accel3D.Proofs.FlatTriangle
import Accel3D.Proofs.PixelCentres

namespace Accel3D

/-! ## Units -/

namespace TextureUnit

/-- switched off: once the unit is brought up to date, its lowest level is 8 or more -/
def IsOff (u : TextureUnit) : Prop := disabledLod ≤ u.refreshAll.params.lodMin.toInt

instance (u : TextureUnit) : Decidable u.IsOff := inferInstanceAs (Decidable (_ ≤ _))

/-- units that a triangle cannot tell apart -/
def SeenAlike (u v : TextureUnit) : Prop := u = v ∨ u.IsOff ∧ v.IsOff

variable {u v : TextureUnit}

theorem params_refreshAll (u : TextureUnit) : u.refreshAll.params = if u.stale then u.currentParams else u.params := by
  unfold refreshAll refresh
  split <;> rfl

def stage? (u : TextureUnit) : Option TextureStage := do
  let lod ← u.triangleLod
  return TextureStage.ofUnit u lod (Combine.ofTextureMode u.modeWord)

theorem IsOff.stage (h : u.IsOff) : u.refreshAll.stage? = none := by
  unfold IsOff at h
  rw [stage?, triangleLod, if_neg (Int.not_lt.2 h)]
  rfl

theorem IsOff.setGradients (h : u.IsOff) (g : TexGradients) : IsOff { u with gradients := g } := by
  unfold IsOff at h ⊢
  rw [refreshAll_setGradients]
  exact h

theorem IsOff.refreshAll (h : u.IsOff) : u.refreshAll.IsOff := by
  have hfresh : u.refreshAll.stale = false := by
    unfold TextureUnit.refreshAll refresh
    cases hstale : u.stale <;> simp [hstale, refreshTables]
  unfold IsOff at h ⊢
  rw [params_refreshAll u.refreshAll, hfresh, if_neg Bool.false_ne_true]
  exact h

theorem writeRegister_triangle (u : TextureUnit) {r : Reg} (hr : r.isTriangle = true) (data : UInt32) :
    u.writeRegister r data = u.store r data ∧ isTextureRegister r = false := by
  have hplain : ∀ r : Reg, r.isTriangle = true → isTextureRegister r = false ∧ nccRegister? r = none := by
    decide +kernel
  obtain ⟨htexture, hncc⟩ := hplain r hr
  rw [writeRegister, htexture, hncc]
  exact ⟨rfl, rfl⟩

theorem IsOff.writeRegister_triangle (h : u.IsOff) {r : Reg} (hr : r.isTriangle = true) (data : UInt32) :
    (u.writeRegister r data).IsOff := by
  obtain ⟨hstored, htexture⟩ := u.writeRegister_triangle hr data
  unfold IsOff at h ⊢
  rw [params_refreshAll] at h
  rw [hstored, params_refreshAll, currentParams_store u r data htexture]
  exact h

theorem SeenAlike.apply (h : u.SeenAlike v) {f : TextureUnit → TextureUnit} (hf : ∀ w, IsOff w → (f w).IsOff) :
    (f u).SeenAlike (f v) := by
  rcases h with rfl | ⟨hu, hv⟩
  · exact .inl rfl
  · exact .inr ⟨hf u hu, hf v hv⟩

end TextureUnit

/-! ## Chips -/

namespace Chip

/-- chips with the same frame buffer side -/
structure SameFrameSide (c d : Chip) : Prop where
  config : c.config = d.config
  regs : c.regs = d.regs
  frame : c.frame = d.frame

/-- chips that a triangle cannot tell apart: the same frame buffer side, and as many units, of which those that take
part are the same or switched off in both -/
structure SeenAlike (c d : Chip) : Prop extends c.SameFrameSide d where
  size : c.textures.size = d.textures.size
  unit : ∀ i (hc : i < c.textures.size) (hd : i < d.textures.size), i < c.textureCount →
    c.textures[i].SeenAlike d.textures[i]

/-- how many units take part follows from two registers and the number of units -/
theorem textureCount_congr {c d : Chip} (hpath : c.regs.get Reg.fbzColorPath = d.regs.get Reg.fbzColorPath)
    (hinit : c.regs.get Reg.fbiInit3 = d.regs.get Reg.fbiInit3) (hsize : c.textures.size = d.textures.size) :
    c.textureCount = d.textureCount := by
  rw [textureCount, textureCount, texturesRemoved, texturesRemoved, hpath, hinit, hsize]

theorem textureCount_off (c : Chip) (h : bit (c.regs.get Reg.fbzColorPath) 27 = false ∨ c.texturesRemoved = true) :
    c.textureCount = 0 := by
  have henable : (ColorPath.decode (c.regs.get Reg.fbzColorPath)).textureEnable =
      bit (c.regs.get Reg.fbzColorPath) 27 := rfl
  rw [textureCount, henable]
  rcases h with h | h <;> simp [h]

namespace SeenAlike

variable {c d : Chip}

theorem textureCount (h : c.SeenAlike d) : c.textureCount = d.textureCount :=
  textureCount_congr (by rw [h.regs]) (by rw [h.regs]) h.size

theorem modifyFrame (h : c.SeenAlike d) (f : FrameBuffer → FrameBuffer) :
    (c.modifyFrame f).SeenAlike (d.modifyFrame f) :=
  ⟨⟨h.config, h.regs, congrArg f h.frame⟩, h.size, h.unit⟩

theorem mapTextures (h : c.SeenAlike d) {f : Nat → TextureUnit → TextureUnit}
    (hf : ∀ i u, TextureUnit.IsOff u → (f i u).IsOff) : (c.mapTextures f).SeenAlike (d.mapTextures f) := by
  have hcount : (c.mapTextures f).textureCount = c.textureCount :=
    textureCount_congr rfl rfl (by simp only [Chip.mapTextures, withTextures, Array.size_mapIdx])
  refine ⟨⟨h.config, h.regs, h.frame⟩, ?_, ?_⟩
  · simp only [Chip.mapTextures, withTextures, Array.size_mapIdx, h.size]
  · intro i hi hi' hpart
    rw [hcount] at hpart
    simp only [Chip.mapTextures, withTextures, Array.getElem_mapIdx]
    exact (h.unit i _ _ hpart).apply (hf i)

/-- registers stored alike, but for the two that say how many units take part -/
theorem withRegs (h : c.SeenAlike d) (r : Reg) (v : UInt32) (hpath : r ≠ Reg.fbzColorPath) (hinit : r ≠ Reg.fbiInit3) :
    SeenAlike { c with regs := c.regs.set r v } { d with regs := d.regs.set r v } := by
  have hcount : Chip.textureCount { c with regs := c.regs.set r v } = c.textureCount := by
    refine textureCount_congr ?_ ?_ rfl
    · rw [RegisterFile.get_set, if_neg hpath]
    · rw [RegisterFile.get_set, if_neg hinit]
  refine ⟨⟨h.config, ?_, h.frame⟩, h.size, ?_⟩
  · show c.regs.set r v = d.regs.set r v
    rw [h.regs]
  · intro i hi hi' hpart
    rw [hcount] at hpart
    exact h.unit i hi hi' hpart

theorem paint (h : c.SeenAlike d) (draw : Canvas → Canvas) : (c.paint draw).SeenAlike (d.paint draw) := by
  have hcanvas : d.canvas = c.canvas := by rw [canvas, canvas, h.frame, h.regs]
  have hpaint : ∀ e : Chip, e.paint draw =
      Chip.modifyFrame { e with regs := e.regs.set Reg.stipple (draw e.canvas).stipple } fun f =>
        { f with memory := (draw e.canvas).memory, counters := (draw e.canvas).counters } := fun _ => rfl
  rw [hpaint, hpaint, hcanvas]
  exact (h.withRegs Reg.stipple (draw c.canvas).stipple (by decide) (by decide)).modifyFrame _

/-! ## A triangle -/

theorem triangleBase (h : c.SeenAlike d) : c.triangleBase = d.triangleBase := by
  have hrevision : c.revision = d.revision := congrArg ChipConfig.revision h.config
  rw [Chip.triangleBase, Chip.triangleBase, h.regs, h.frame, hrevision]

theorem atCentre (h : c.SeenAlike d) : c.atCentre.SeenAlike d.atCentre := by
  unfold Chip.atCentre
  rw [h.regs, h.textureCount]
  split
  · unfold recentre
    rw [h.frame]
    have hmoved := h.mapTextures (f := fun i u =>
      if i < d.textureCount then { u with gradients := u.gradients.recentre d.frame.triangle.a.toCentre } else u)
      fun i u hu => by
        split
        · exact hu.setGradients _
        · exact hu
    exact hmoved.modifyFrame fun f => { f with triangle := f.triangle.recentre }
  · exact h

/-- the units that take part, brought up to date -/
theorem ready (h : c.SeenAlike d) (n : Nat) :
    (c.modifyTextures n TextureUnit.refreshAll).SeenAlike (d.modifyTextures n TextureUnit.refreshAll) := by
  refine h.mapTextures (f := fun i u => if i < n then u.refreshAll else u) fun i u hu => ?_
  split
  · exact hu.refreshAll
  · exact hu

theorem stage (h : c.SeenAlike d) {i : Nat} (hi : i < c.textureCount) :
    (c.textures[i]?.map TextureUnit.refreshAll) >>= TextureUnit.stage? =
      (d.textures[i]?.map TextureUnit.refreshAll) >>= TextureUnit.stage? := by
  by_cases hc : i < c.textures.size
  · have hd : i < d.textures.size := h.size ▸ hc
    rw [Array.getElem?_eq_getElem hc, Array.getElem?_eq_getElem hd]
    rcases h.unit i hc hd hi with heq | ⟨hoff, hoff'⟩
    · rw [heq]
    · exact hoff.stage.trans hoff'.stage.symm
  · have hd : ¬ i < d.textures.size := h.size ▸ hc
    rw [Array.getElem?_eq_none (Nat.not_lt.1 hc), Array.getElem?_eq_none (Nat.not_lt.1 hd)]

theorem directRaster (h : c.SeenAlike d) (base : UInt32) :
    (c.modifyTextures c.textureCount TextureUnit.refreshAll).directRaster c.textureCount base =
      (d.modifyTextures c.textureCount TextureUnit.refreshAll).directRaster c.textureCount base := by
  have hstages : ((c.modifyTextures c.textureCount TextureUnit.refreshAll).directRaster c.textureCount base).stages =
      ((d.modifyTextures c.textureCount TextureUnit.refreshAll).directRaster c.textureCount base).stages := by
    refine List.filterMap_congr fun i hi => ?_
    have hpart : i < c.textureCount := List.mem_range.1 (List.mem_reverse.1 hi)
    have hready : ∀ e : Chip, (e.modifyTextures c.textureCount TextureUnit.refreshAll).textures[i]? =
        e.textures[i]?.map TextureUnit.refreshAll := by
      intro e
      simp only [modifyTextures, Array.getElem?_mapIdx, if_pos hpart]
    rw [hready, hready]
    exact h.stage hpart
  have hready := h.ready c.textureCount
  have hrevision : (c.modifyTextures c.textureCount TextureUnit.refreshAll).revision =
      (d.modifyTextures c.textureCount TextureUnit.refreshAll).revision := congrArg ChipConfig.revision hready.config
  unfold Chip.directRaster at hstages ⊢
  rw [Raster.mk.injEq]
  refine ⟨?_, hstages, ?_, ?_⟩
  · rw [hready.frame]
  · rw [hready.regs, hready.frame, hrevision]
  · rw [hready.regs, hready.frame, hrevision]

/-- **A triangle** leaves alike chips alike. -/
theorem drawTriangle (h : c.SeenAlike d) (hc : c.modes.Reachable) (hd : d.modes.Reachable) :
    c.drawTriangle.SeenAlike d.drawTriangle := by
  have hdirect : ∀ {e e' : Chip}, e.SeenAlike e' → e.drawDirect.SeenAlike e'.drawDirect := by
    intro e e' h
    have hcentre := h.atCentre
    have hcount : e.atCentre.textureCount = e.textureCount := by
      unfold Chip.atCentre
      split
      · refine textureCount_congr rfl rfl ?_
        simp only [recentre, Chip.modifyFrame, modifyTextures, Array.size_mapIdx]
      · rfl
    unfold Chip.drawDirect
    rw [hcentre.triangleBase, ← h.textureCount]
    cases e'.atCentre.triangleBase with
    | none => exact hcentre
    | some base =>
      have hraster := hcentre.directRaster base
      rw [hcount] at hraster
      simp only [hraster]
      unfold paintRaster
      exact ((hcentre.ready e.textureCount).paint _).modifyFrame _
  have huncached : c.uncached.SeenAlike d.uncached := ⟨⟨h.config, h.regs, h.frame⟩, h.size, h.unit⟩
  have hdrawn := hdirect huncached
  rw [← drawTriangle_direct c hc, ← drawTriangle_direct d hd] at hdrawn
  exact ⟨⟨hdrawn.config, hdrawn.regs, hdrawn.frame⟩, hdrawn.size, hdrawn.unit⟩

theorem storeRegister (h : c.SeenAlike d) (select : ChipSelect) {r : Reg} (hr : r.isTriangle = true) (data : UInt32) :
    (c.storeRegister select r data).SeenAlike (d.storeRegister select r data) := by
  have hregister : ∀ r : Reg, r.isTriangle = true → r ≠ Reg.fbzColorPath ∧ r ≠ Reg.fbiInit3 := by decide +kernel
  obtain ⟨hpath, hinit⟩ := hregister r hr
  have hstored : SeenAlike (if select.frame then { c with regs := c.regs.set r data } else c)
      (if select.frame then { d with regs := d.regs.set r data } else d) := by
    split
    · exact h.withRegs r data hpath hinit
    · exact h
  refine hstored.mapTextures (f := fun i u => if select.texture i then u.writeRegister r data else u) fun i u hu => ?_
  split
  · exact hu.writeRegister_triangle hr data
  · exact hu

/-- **A triangle command** leaves alike chips alike. -/
theorem execute (h : c.SeenAlike d) (hc : c.modes.Reachable) (hd : d.modes.Reachable) (w : RegisterWrite)
    (hw : (register w).isTriangle = true) : (c.execute w).SeenAlike (d.execute w) := by
  obtain ⟨-, hcommand, hlayout⟩ := isTriangle_effect c.revision _ hw
  have hexecute : ∀ e : Chip, e.config = c.config →
      e.execute w = e.drawTriangle.storeRegister (c.reach w) (register w) w.data := by
    intro e he
    have hrevision : e.revision = c.revision := congrArg ChipConfig.revision he
    rw [execute_eq, updateLayout, hlayout, Bool.and_false, if_neg Bool.false_ne_true, stored, command, hrevision,
      hcommand, reach, hrevision]
    rfl
  rw [hexecute c rfl, hexecute d h.config.symm]
  exact (h.drawTriangle hc hd).storeRegister _ hw _

end SeenAlike
end Chip

/-! ## Any number of triangles -/

def Call.drawsTriangle : Call → Bool
  | .writeRegister offset _ => (Reg.ofAddress offset).isTriangle
  | _ => false

namespace Chip

theorem Reachable.flush {c : Chip} (h : c.Reachable) : c.flush.Reachable := h.run c [.flush]

/-- **Triangle commands** leave alike chips alike, by induction on the calls. -/
theorem seenAlike_run (calls : List Call) (hcalls : ∀ call ∈ calls, call.drawsTriangle = true) {c d : Chip}
    (hc : c.Reachable) (hd : d.Reachable) (h : c.flush.SeenAlike d.flush) :
    (c.runCalls calls).1.flush.SeenAlike (d.runCalls calls).1.flush := by
  induction calls generalizing c d with
  | nil => exact h
  | cons call calls ih =>
    have hcall := hcalls call List.mem_cons_self
    rw [runCalls_cons, runCalls_cons]
    refine ih (fun later hlater => hcalls later (List.mem_cons_of_mem call hlater)) (hc.run c [call]) (hd.run d [call]) ?_
    cases call with
    | writeRegister offset data =>
      have hwrite : ∀ e : Chip, (Access.of e.revision (Reg.ofAddress offset)).write = true := fun e =>
        (isTriangle_effect e.revision _ hcall).1
      show (c.writeRegister offset data).flush.SeenAlike (d.writeRegister offset data).flush
      rw [flush_writeRegister c offset data (hwrite c), flush_writeRegister d offset data (hwrite d)]
      exact h.execute (modes_reachable _ hc.flush) (modes_reachable _ hd.flush) ⟨offset, data⟩ hcall
    | _ => cases hcall

theorem size_textures {c : Chip} (h : c.Reachable) : c.textures.size = (initial c.config).textures.size := by
  have hshape := congrArg (fun s => s.textureLogs.length) (shape_reachable c h).2
  simpa [shape] using hshape

/-- **Units that are switched off have no influence.** Two reachable chips have the same frame buffer side once all
writes that wait are carried out. Then after the same triangle commands, one or any number, they have the same frame
buffer, with its memory, counters and parameters, and the same registers, the stipple register among them: if texturing
is off, whatever their texture units hold; and if only one unit differs and is switched off on both chips, whatever that
unit holds. -/
theorem disabled_textures (c d : Chip) (hc : c.Reachable) (hd : d.Reachable) (hsame : c.flush.SameFrameSide d.flush)
    (calls : List Call) (hcalls : ∀ call ∈ calls, call.drawsTriangle = true) :
    let after := (c.runCalls calls).1.flush
    let after' := (d.runCalls calls).1.flush
    (bit (c.flush.regs.get Reg.fbzColorPath) 27 = false ∨ bit (c.flush.regs.get Reg.fbiInit3) 6 = true →
      after.frame = after'.frame ∧ after.regs = after'.regs) ∧
    ∀ i : Nat, (∀ j : Nat, j ≠ i → c.flush.textures[j]? = d.flush.textures[j]?) →
      (∀ u ∈ c.flush.textures[i]?, TextureUnit.IsOff u) → (∀ v ∈ d.flush.textures[i]?, TextureUnit.IsOff v) →
      after.frame = after'.frame ∧ after.regs = after'.regs := by
  intro after after'
  have hsize : c.flush.textures.size = d.flush.textures.size := by
    rw [size_textures hc.flush, size_textures hd.flush, hsame.config]
  have halike : c.flush.SeenAlike d.flush → after.frame = after'.frame ∧ after.regs = after'.regs := by
    intro h
    have hafter := seenAlike_run calls hcalls hc hd h
    exact ⟨hafter.frame, hafter.regs⟩
  refine ⟨?_, ?_⟩
  · intro hoff
    refine halike ⟨hsame, hsize, ?_⟩
    intro i _ _ hpart
    rw [c.flush.textureCount_off hoff] at hpart
    exact absurd hpart (Nat.not_lt_zero i)
  · intro i hrest hu hv
    refine halike ⟨hsame, hsize, ?_⟩
    intro j hj hj' _
    by_cases hji : j = i
    · subst hji
      exact .inr ⟨hu _ (Array.getElem?_eq_getElem hj), hv _ (Array.getElem?_eq_getElem hj')⟩
    · have heq := hrest j hji
      rw [Array.getElem?_eq_getElem hj, Array.getElem?_eq_getElem hj'] at heq
      exact .inl (Option.some.inj heq)

theorem Reachable.writeTexture {c : Chip} (h : c.Reachable) (offset data : UInt32) :
    (c.writeTexture offset data).Reachable := h.run c [.writeTexture offset data]

theorem writeTexture_same (c : Chip) (offset data : UInt32) :
    c.flush.SameFrameSide (c.writeTexture offset data).flush ∧
      ∀ j, j ≠ field offset 19 2 → c.flush.textures[j]? = (c.writeTexture offset data).flush.textures[j]? := by
  have hempty : (c.writeTexture offset data).flush = c.writeTexture offset data := flush_of_empty _ (queue_flush c)
  rw [hempty]
  refine ⟨⟨rfl, rfl, rfl⟩, ?_⟩
  intro j hj
  show _ = (c.flush.textures.modify (field offset 19 2) _)[j]?
  rw [Array.getElem?_modify, if_neg (Ne.symm hj)]

/-- a Banshee set up for a triangle of six textured pixels, its second unit switched off -/
def halfTextured : Chip :=
  let calls : List Call := [.writeRegister 0x7C 0x100, .writeRegister 0x44 0x200, .writeRegister 0x41 0x8000001,
    .writeRegister 0x04 0x40, .writeRegister 0x07 0x40, .writeRegister 0x4C1 32]
  ((initial { ChipConfig.standard with revision := .banshee }).runCalls calls).1

/-- an upload to the unit that is switched off, and one with texturing off, are not seen by two triangles -/
theorem disabled_textures_uploads :
    let triangles : List Call := [.writeRegister 0x20 0, .writeRegister 0x40 0]
    let drawn (c : Chip) : FrameBuffer := (c.runCalls triangles).1.flush.frame
    let uploaded := halfTextured.writeTexture 0x80000 0x12345678
    halfTextured.textureCount = 2 ∧ drawn halfTextured = drawn uploaded ∧
      drawn redTriangle = drawn (redTriangle.writeTexture 0 0x12345678) := by
  intro triangles drawn uploaded
  have htriangles : ∀ call ∈ triangles, call.drawsTriangle = true := by decide +kernel
  have hreachable : halfTextured.Reachable := ⟨_, _, _, make_eq_ok.2 ⟨by decide, rfl⟩, rfl⟩
  obtain ⟨hsame, hrest⟩ := halfTextured.writeTexture_same 0x80000 0x12345678
  obtain ⟨hred, -⟩ := redTriangle.writeTexture_same 0 0x12345678
  have hunit := (disabled_textures halfTextured uploaded hreachable (hreachable.writeTexture _ _)
    hsame triangles htriangles).2 1 hrest (by decide +kernel) (by decide +kernel)
  have hoff := (disabled_textures redTriangle _ reachable_redTriangle
    (reachable_redTriangle.writeTexture _ _) hred triangles htriangles).1 (.inl (by decide +kernel))
  exact ⟨by decide +kernel, hunit.1, hoff.1⟩

end Chip
end Accel3D
