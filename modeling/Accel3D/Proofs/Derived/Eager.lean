/-
Deriving state late makes no difference.

A chip that works out everything that its texture units derive from their registers at once, with every register write
(`actEager`), goes through the same states as the chip that waits until it is needed, up to what is derived. Two chips
are alike (`Alike`) when they differ in what their coherent units have derived so far and in nothing else. Every
action keeps chips alike: a triangle works out what is derived before it looks at it, an upload the part that it
needs, and nothing else looks. With the fog table and the layout, which follow from the registers too, this is all
derived state.

Results: `Alike.act` (an action keeps chips alike); `foldl_actEager` (the chip that derives at once); `derived_state`.
-/
import Mathlib.Data.List.Basic
import Accel3D.Proofs.Derived.Frame
import Accel3D.Proofs.Derived.Unit

namespace Accel3D

namespace TextureUnit

/-- coherent units that differ in what they have derived so far only -/
structure Alike (u v : TextureUnit) : Prop where
  left : u.Coherent
  right : v.Coherent
  eq : u.upToDate = v.upToDate

namespace Alike

variable {u v : TextureUnit}

theorem writeRegister (h : u.Alike v) (r : Reg) (data : UInt32) :
    (u.writeRegister r data).Alike (v.writeRegister r data) where
  left := coherent_writeRegister h.left r data
  right := coherent_writeRegister h.right r data
  eq := by rw [← upToDate_writeRegister u, h.eq, upToDate_writeRegister]

theorem upload (h : u.Alike v) (offset data : UInt32) : (u.upload offset data).Alike (v.upload offset data) where
  left := coherent_upload h.left offset data
  right := coherent_upload h.right offset data
  eq := by rw [← upToDate_upload h.left, h.eq, upToDate_upload h.right]

theorem setGradients (h : u.Alike v) (f : TexGradients → TexGradients) :
    Alike { u with gradients := f u.gradients } { v with gradients := f v.gradients } where
  left := ⟨h.left.params, h.left.ncc0, h.left.ncc1, h.left.registers0, h.left.registers1⟩
  right := ⟨h.right.params, h.right.ncc0, h.right.ncc1, h.right.registers0, h.right.registers1⟩
  eq := congrArg (fun w : TextureUnit => { w with gradients := f w.gradients }) h.eq

theorem refreshAll_eq (h : u.Alike v) : u.refreshAll = v.refreshAll := by
  rw [TextureUnit.refreshAll_eq h.left, TextureUnit.refreshAll_eq h.right, h.eq]

theorem refreshAll (h : u.Alike v) : u.refreshAll.Alike v.refreshAll := by
  rw [TextureUnit.refreshAll_eq h.left, TextureUnit.refreshAll_eq h.right]
  exact ⟨coherent_upToDate u, coherent_upToDate v, h.eq⟩

end Alike
end TextureUnit

namespace Chip

def withTextures (c : Chip) (textures : Array TextureUnit) : Chip := { c with textures := textures }

def mapTextures (c : Chip) (f : Nat → TextureUnit → TextureUnit) : Chip := c.withTextures (c.textures.mapIdx f)

/-- chips that differ in what their texture units have derived so far only -/
structure Alike (c d : Chip) : Prop where
  rest : d = c.withTextures d.textures
  size : c.textures.size = d.textures.size
  unit : ∀ i (h : i < c.textures.size) (h' : i < d.textures.size), c.textures[i].Alike d.textures[i]

namespace Alike

variable {c d : Chip}

theorem regs (h : c.Alike d) : d.regs = c.regs := by rw [h.rest]; rfl

theorem frame (h : c.Alike d) : d.frame = c.frame := by rw [h.rest]; rfl

theorem setup (h : c.Alike d) : d.setup = c.setup := by rw [h.rest]; rfl

theorem revision (h : c.Alike d) : d.revision = c.revision := by rw [h.rest]; rfl

/-- a function that looks at no unit and changes none keeps chips alike -/
theorem apply {F : Chip → Chip} (h : c.Alike d) (hF : ∀ c ts, F (withTextures c ts) = (F c).withTextures ts) :
    (F c).Alike (F d) := by
  have ht : ∀ c, (F c).textures = c.textures := fun c => by
    have e := congrArg Chip.textures (hF c c.textures)
    exact e
  have hc := ht c
  have hd := ht d
  refine ⟨?_, by rw [hc, hd, h.size], fun i hi hi' => ?_⟩
  · rw [hd, ← hF, ← h.rest]
  · simp only [hc, hd]
    exact h.unit i (hc ▸ hi) (hd ▸ hi')

theorem mapTextures (h : c.Alike d) {f : Nat → TextureUnit → TextureUnit}
    (hf : ∀ i u v, TextureUnit.Alike u v → (f i u).Alike (f i v)) : (c.mapTextures f).Alike (d.mapTextures f) := by
  refine ⟨?_, ?_, fun i hi hi' => ?_⟩
  · have hrest := congrArg (fun e : Chip => e.withTextures (d.textures.mapIdx f)) h.rest
    exact hrest
  · simp only [Chip.mapTextures, withTextures, Array.size_mapIdx, h.size]
  · simp only [Chip.mapTextures, withTextures, Array.getElem_mapIdx]
    exact hf i _ _ (h.unit i _ _)

theorem textureCount_eq (h : c.Alike d) : d.textureCount = c.textureCount := by
  simp only [textureCount, texturesRemoved, h.regs, h.size]

end Alike

/-! ## Triangles -/

/-- a triangle looks at the units that take part only -/
theorem currentRaster_withTextures (c : Chip) (ts : Array TextureUnit) (n : Nat) (base : UInt32)
    (h : ∀ i < n, ts[i]? = c.textures[i]?) :
    (c.withTextures ts).modeKey n = c.modeKey n ∧
      (c.withTextures ts).currentRaster n base = c.currentRaster n base := by
  have hword : ∀ i, (if i < n then ts[i]?.map TextureUnit.modeWord else none) =
      if i < n then c.textures[i]?.map TextureUnit.modeWord else none := fun i => by
    split
    · rename_i hi
      rw [h i hi]
    · rfl
  have hkey : (c.withTextures ts).modeKey n = c.modeKey n := by
    simp only [modeKey, withTextures, hword]
  have hstages : ∀ e, (c.withTextures ts).textureStages n e = c.textureStages n e := fun e => by
    refine List.filterMap_congr fun i hi => ?_
    have hlt : i < n := List.mem_range.1 (List.mem_reverse.1 hi)
    simp only [withTextures, h i hlt]
  refine ⟨hkey, ?_⟩
  rw [currentRaster, hkey]
  simp only [raster, hstages]
  rfl

theorem takeSetup_eq (c : Chip) (mode : SetupMode) :
    c.takeSetup mode =
      (c.mapTextures fun i u => { u with gradients := c.setup.gradients mode i u.gradients }).modifyFrame fun f =>
        { f with triangle := c.setup.triangle mode c.frame.triangle } := rfl

theorem paintRaster_withTextures (c : Chip) (ts : Array TextureUnit) (m : ModeCache) (r : Raster) :
    ((c.withTextures ts).withModes m).paintRaster r = ((c.withModes m).paintRaster r).withTextures ts := by
  unfold paintRaster
  generalize r.draw = draw
  rfl

namespace Alike

variable {c d : Chip}

theorem rasterize (h : c.Alike d) (n : Nat) (base : UInt32) :
    ((c.modifyTextures n TextureUnit.refreshAll).rasterize n base).Alike
      ((d.modifyTextures n TextureUnit.refreshAll).rasterize n base) := by
  have hready : (c.modifyTextures n TextureUnit.refreshAll).Alike (d.modifyTextures n TextureUnit.refreshAll) :=
    h.mapTextures fun i u v hu => by
      split
      · exact hu.refreshAll
      · exact hu
  have hsame : ∀ i < n, (d.modifyTextures n TextureUnit.refreshAll).textures[i]? =
      (c.modifyTextures n TextureUnit.refreshAll).textures[i]? := fun i hi => by
    simp only [modifyTextures, Array.getElem?_mapIdx, if_pos hi]
    by_cases hc : i < c.textures.size
    · have hd : i < d.textures.size := h.size ▸ hc
      rw [Array.getElem?_eq_getElem hc, Array.getElem?_eq_getElem hd, Option.map_some, Option.map_some,
        (h.unit i hc hd).refreshAll_eq]
    · have hd : ¬ i < d.textures.size := h.size ▸ hc
      rw [Array.getElem?_eq_none (Nat.not_lt.1 hc), Array.getElem?_eq_none (Nat.not_lt.1 hd)]
  generalize c.modifyTextures n TextureUnit.refreshAll = c' at hready hsame ⊢
  generalize d.modifyTextures n TextureUnit.refreshAll = d' at hready hsame ⊢
  have hraster := currentRaster_withTextures c' d'.textures n base hsame
  rw [← hready.rest] at hraster
  have hmodes : d'.modes = c'.modes := by rw [hready.rest]; rfl
  rw [rasterize_eq, rasterize_eq, hraster.1, hraster.2, hmodes]
  generalize c'.currentRaster n base = r
  exact hready.apply (F := fun c => (c.withModes _).paintRaster r) fun c ts => paintRaster_withTextures c ts _ r

theorem atCentre (h : c.Alike d) : c.atCentre.Alike d.atCentre := by
  unfold Chip.atCentre
  rw [h.regs, h.textureCount_eq]
  split
  · unfold recentre
    rw [h.frame]
    refine Alike.apply (F := fun e => e.modifyFrame fun f => { f with triangle := f.triangle.recentre })
      (h.mapTextures fun i u v hu => ?_) fun _ _ => rfl
    split
    · exact hu.setGradients fun g => g.recentre c.frame.triangle.a.toCentre
    · exact hu
  · exact h

theorem drawTriangle (h : c.Alike d) : c.drawTriangle.Alike d.drawTriangle := by
  have hc := h.atCentre
  have hbase : d.atCentre.triangleBase = c.atCentre.triangleBase := by rw [hc.rest]; rfl
  rw [drawTriangle_eq, drawTriangle_eq, h.textureCount_eq, hbase]
  cases c.atCentre.triangleBase with
  | none => exact hc
  | some base => exact hc.rasterize c.textureCount base

theorem extendStrip (h : c.Alike d) : c.extendStrip.Alike d.extendStrip := by
  have hmode : d.setupMode = c.setupMode := by rw [setupMode, setupMode, h.regs]
  have hv : c.withVertex.Alike d.withVertex := h.apply fun _ _ => rfl
  rw [extendStrip_eq, extendStrip_eq, hmode, hv.setup]
  split
  · refine drawTriangle ?_
    rw [takeSetup_eq, takeSetup_eq, hv.setup, congrArg FrameBuffer.triangle hv.frame]
    refine Alike.apply (F := fun e => e.modifyFrame fun f => { f with triangle := _ })
      (hv.mapTextures fun i u v hu => ?_) fun _ _ => rfl
    exact hu.setGradients fun g => c.withVertex.setup.gradients c.setupMode i g
  · exact hv

/-! ## Actions -/

theorem writeCoord (h : c.Alike d) (select : ChipSelect) (p : CoordParameter) (term : GradientTerm) (value : Int64) :
    (c.writeCoord select p term value).Alike (d.writeCoord select p term value) := by
  have hframe := h.apply (F := fun c => if select.frame then
      c.modifyFrame fun f => { f with triangle := f.triangle.writeCoord p term value } else c)
    fun c ts => by split <;> rfl
  refine hframe.mapTextures (f := fun i u =>
    if select.texture i then { u with gradients := u.gradients.write p term value } else u) fun i u v hu => ?_
  split
  · exact hu.setGradients fun g => g.write p term value
  · exact hu

theorem run (h : c.Alike d) (command : Command) (select : ChipSelect) (data : UInt32) :
    (c.run command select data).Alike (d.run command select data) := by
  cases command with
  | triangle => exact h.drawTriangle
  | extendStrip => exact h.extendStrip
  | coordParameter p term form =>
    exact h.writeCoord select p term (p.value form data)
  | vertex n form =>
    refine h.apply (F := fun c => c.run (.vertex n form) select data) fun c ts => ?_
    simp only [Chip.run]; split <;> rfl
  | pixelParameter p term form =>
    refine h.apply (F := fun c => c.run (.pixelParameter p term form) select data) fun c ts => ?_
    simp only [Chip.run]; split <;> rfl
  | fogTable n =>
    refine h.apply (F := fun c => c.run (.fogTable n) select data) fun c ts => ?_
    simp only [Chip.run]; split <;> rfl
  | nop => exact h.apply (F := fun c => c.clearCounters data) fun _ _ => rfl
  | fastFill => exact h.apply (F := fun c => c.fastFill) fun _ _ => rfl
  | swapBuffer => exact h.apply (F := fun c => c.run .swapBuffer select data) fun _ _ => rfl
  | bufferRegister r => exact h.apply (F := fun c => c.run (.bufferRegister r) select data) fun _ _ => rfl
  | announceSwap => exact h.apply (F := fun c => c.run .announceSwap select data) fun _ _ => rfl
  | unpackColor => exact h.apply (F := fun c => c.run .unpackColor select data) fun _ _ => rfl
  | beginStrip => exact h.apply (F := fun c => c.run .beginStrip select data) fun _ _ => rfl
  | plain => exact h

theorem modifyTexture_eq (c : Chip) (i : Nat) (f : TextureUnit → TextureUnit) :
    c.modifyTexture i f = c.mapTextures fun j u => if i = j then f u else u := by
  have ht : c.textures.modify i f = c.textures.mapIdx fun j u => if i = j then f u else u := by
    apply Array.ext
    · rw [Array.size_modify, Array.size_mapIdx]
    · intro j hj hj'
      rw [Array.getElem_modify, Array.getElem_mapIdx]
  show c.withTextures (c.textures.modify i f) = _
  rw [ht]
  rfl

theorem storeRegister (h : c.Alike d) (select : ChipSelect) (r : Reg) (data : UInt32) :
    (c.storeRegister select r data).Alike (d.storeRegister select r data) := by
  have hregs := h.apply (F := fun c => if select.frame then { c with regs := c.regs.set r data } else c)
    fun c ts => by split <;> rfl
  refine hregs.mapTextures (f := fun i u => if select.texture i then u.writeRegister r data else u) fun i u v hu => ?_
  split
  · exact hu.writeRegister r data
  · exact hu

theorem execute (h : c.Alike d) (w : RegisterWrite) : (c.execute w).Alike (d.execute w) := by
  have hcommand : d.command w = c.command w := by rw [command, command, h.revision]
  have hreach : d.reach w = c.reach w := by rw [reach, reach, h.revision]
  rw [execute_eq, execute_eq, stored, stored, hcommand, hreach]
  have hstored :=
    (h.run (c.command w) (ChipSelect.ofAddress w.offset) w.data).storeRegister (c.reach w) (register w) w.data
  refine hstored.apply (F := fun c => c.updateLayout _ (register w)) fun c ts => ?_
  simp only [updateLayout]
  show (if _ && !c.revision.hasBansheeLayout && _ then _ else _) = _
  split <;> rfl

theorem upload (h : c.Alike d) (i : Nat) (offset data : UInt32) :
    (c.modifyTexture i fun u => u.upload offset data).Alike (d.modifyTexture i fun u => u.upload offset data) := by
  rw [modifyTexture_eq, modifyTexture_eq]
  refine h.mapTextures fun j u v hu => ?_
  split
  · exact hu.upload offset data
  · exact hu

/-- **An action keeps chips alike.** -/
theorem act (h : c.Alike d) (a : Action) : (c.act a).Alike (d.act a) := by
  cases a with
  | write w => exact h.execute w
  | upload i offset data => exact h.upload i offset data
  | linearWrite offset data byteMask =>
    refine h.apply (F := fun c => c.linearWrite offset data byteMask) fun c ts => ?_
    rw [linearWrite_eq, linearWrite_eq]
    have htarget : (c.withTextures ts).linearTarget offset data byteMask = c.linearTarget offset data byteMask := rfl
    rw [htarget]
    cases c.linearTarget offset data byteMask <;> rfl
  | retrace => exact h.apply (F := fun c => c.modifyFrame fun f => f.retrace c.overlay) fun _ _ => rfl
  | endRetrace => exact h.apply (F := fun c => c.endRetrace) fun _ _ => rfl

end Alike

/-! ## Coherent chips -/

def Coherent (c : Chip) : Prop := ∀ u ∈ c.textures, u.Coherent

/-- a chip with all that its texture units derive worked out from their register files alone -/
def upToDate (c : Chip) : Chip := c.withTextures (c.textures.map TextureUnit.upToDate)

theorem Coherent.alike {c : Chip} (h : c.Coherent) : c.Alike c :=
  ⟨rfl, rfl, fun _ _ _ => ⟨h _ (Array.getElem_mem _), h _ (Array.getElem_mem _), rfl⟩⟩

theorem Coherent.alike_upToDate {c : Chip} (h : c.Coherent) : c.Alike c.upToDate where
  rest := rfl
  size := (Array.size_map ..).symm
  unit i hi hi' := by
    have he : c.upToDate.textures[i] = c.textures[i].upToDate := Array.getElem_map ..
    rw [he]
    exact ⟨h _ (Array.getElem_mem hi), TextureUnit.coherent_upToDate _, rfl⟩

theorem Alike.coherent {c d : Chip} (h : c.Alike d) : c.Coherent := fun u hu => by
  obtain ⟨i, hi, rfl⟩ := Array.getElem_of_mem hu
  exact (h.unit i hi (h.size ▸ hi)).left

/-- alike chips are the same when all is worked out -/
theorem Alike.upToDate_eq {c d : Chip} (h : c.Alike d) : c.upToDate = d.upToDate := by
  have ht : c.textures.map TextureUnit.upToDate = d.textures.map TextureUnit.upToDate := by
    apply Array.ext
    · rw [Array.size_map, Array.size_map, h.size]
    · intro i hi hi'
      rw [Array.getElem_map, Array.getElem_map]
      exact (h.unit i _ _).eq
  unfold Chip.upToDate
  rw [ht, h.rest]
  rfl

theorem coherent_initial (config : ChipConfig) : (initial config).Coherent := fun u hu => by
  obtain ⟨i, rfl⟩ := Array.mem_ofFn.1 hu
  exact TextureUnit.coherent_initial _ _ _

theorem coherent_foldl (c : Chip) (as : List Action) (h : c.Coherent) : (as.foldl act c).Coherent := by
  induction as generalizing c with
  | nil => exact h
  | cons a as ih => exact ih (c.act a) (h.alike.act a).coherent

/-! ## Deriving at once -/

/-- an action of a chip that works out with every register write all that is derived -/
def actEager (c : Chip) : Action → Chip
  | .write w => (c.execute w).upToDate
  | a => c.act a

theorem upToDate_eq_self {c : Chip} (h : ∀ u ∈ c.textures, u.upToDate = u) : c.upToDate = c := by
  have ht : c.textures.map TextureUnit.upToDate = c.textures := by
    apply Array.ext
    · exact Array.size_map ..
    · intro i hi hi'
      rw [Array.getElem_map]
      exact h _ (Array.getElem_mem hi')
  rw [upToDate, ht]
  rfl

theorem upToDate_of_mem (c : Chip) (u : TextureUnit) (h : u ∈ c.upToDate.textures) : u.upToDate = u := by
  obtain ⟨v, -, rfl⟩ := Array.mem_map.1 h
  exact v.upToDate_upToDate

/-- but for register writes, actions leave a chip whose units are up to date so -/
theorem upload_upToDate (c : Chip) (i : Nat) (offset data : UInt32) :
    (c.upToDate.modifyTexture i fun u => u.upload offset data).upToDate =
      c.upToDate.modifyTexture i fun u => u.upload offset data := by
  refine upToDate_eq_self fun u hu => ?_
  obtain ⟨j, hj, rfl⟩ := Array.getElem_of_mem hu
  have hj' : j < c.upToDate.textures.size := by
    have hsize : (c.upToDate.textures.modify i fun u => u.upload offset data).size = _ := Array.size_modify
    exact hsize ▸ hj
  have he : (c.upToDate.modifyTexture i fun u => u.upload offset data).textures[j] =
      if i = j then c.upToDate.textures[j].upload offset data else c.upToDate.textures[j] := Array.getElem_modify hj
  have hu : c.upToDate.textures[j].upToDate = c.upToDate.textures[j] := upToDate_of_mem c _ (Array.getElem_mem hj')
  rw [he]
  split
  · rw [← hu]
    exact TextureUnit.upload_upToDate _ offset data
  · exact hu

theorem textures_linearWrite (c : Chip) (offset data byteMask : UInt32) :
    (c.linearWrite offset data byteMask).textures = c.textures := by
  rw [linearWrite_eq]
  split <;> rfl

theorem actEager_upToDate {c : Chip} (h : c.Coherent) (a : Action) : c.upToDate.actEager a = (c.act a).upToDate := by
  have heq : (c.act a).upToDate = (c.upToDate.act a).upToDate := (h.alike_upToDate.act a).upToDate_eq
  have hkept : ∀ d : Chip, d.textures = c.upToDate.textures → d.upToDate = d := fun d hd =>
    upToDate_eq_self fun u hu => upToDate_of_mem c u (hd ▸ hu)
  rw [heq]
  cases a with
  | write w => rfl
  | upload i offset data => exact (c.upload_upToDate i offset data).symm
  | linearWrite offset data byteMask => exact (hkept _ (textures_linearWrite _ offset data byteMask)).symm
  | retrace => exact (hkept (c.upToDate.act .retrace) rfl).symm
  | endRetrace => exact (hkept (c.upToDate.act .endRetrace) rfl).symm

/-- **Deriving at once gives the same states,** up to what is derived -/
theorem foldl_actEager (c : Chip) (as : List Action) (h : c.Coherent) :
    as.foldl actEager c.upToDate = (as.foldl act c).upToDate := by
  induction as generalizing c with
  | nil => rfl
  | cons a as ih =>
    rw [List.foldl_cons, List.foldl_cons, actEager_upToDate h a]
    exact ih (c.act a) (h.alike.act a).coherent

/-- **Derived state follows from the registers.** After every run:
- the fog table is that of the fog registers;
- on Voodoo 1 and 2, once a layout register was stored on the frame buffer side, the layout is that of the registers;
- what the texture units hold is coherent with their registers, and a unit made ready for a triangle is what its
  registers alone give;
- a chip that derives all of it at once ends in the same state but for the queue and for what is not derived yet, and
  its units never have anything left to derive when a triangle or an upload comes. -/
theorem derived_state (config : ChipConfig) (calls : List Call) :
    let c := ((initial config).runCalls calls).1
    let actions := (initial config).history calls
    let eager := actions.foldl actEager (initial config).upToDate
    c.frame.fog = FogTable.ofRegisters c.regs ∧
    (config.revision.hasBansheeLayout = false → actions.any (initial config).actStoresLayout = true →
      c.frame.layout = FrameLayout.ofRegisters config.revision c.regs c.frame.memory.mask) ∧
    (∀ u ∈ c.textures, u.Coherent ∧ u.begin.1 = u.upToDate) ∧
    (∃ q, c.upToDate = eager.withQueue q) ∧
    ∀ u ∈ eager.textures, u.refresh = u ∧ u.begin.1 = u := by
  intro c actions eager
  obtain ⟨q, hq⟩ := run_eq_foldl (initial config) calls
  have hc : c = (actions.foldl act (initial config)).withQueue q := hq
  have hcoherent := coherent_foldl (initial config) actions (coherent_initial config)
  have heager : eager = (actions.foldl act (initial config)).upToDate :=
    foldl_actEager (initial config) actions (coherent_initial config)
  refine ⟨?_, fun hb hs => ?_, fun u hu => ?_, ⟨q, ?_⟩, fun u hu => ?_⟩
  · have h := fog_foldl (initial config) actions (fogFollows_initial config)
    rw [hc]
    exact h
  · have h := layout_foldl (initial config) hb actions (.inr hs)
    have hrevision : c.revision = config.revision := revision_run _ calls
    rw [← hrevision, hc]
    exact h
  · rw [hc] at hu
    exact ⟨hcoherent u hu, TextureUnit.refreshAll_eq (hcoherent u hu)⟩
  · rw [hc, heager]
    rfl
  · rw [heager] at hu
    have hfixed := upToDate_of_mem _ u hu
    rw [← hfixed]
    exact ⟨rfl, rfl⟩

end Chip
end Accel3D
