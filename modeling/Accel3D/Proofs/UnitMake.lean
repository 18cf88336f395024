/-
What the texture units of a chip are made of.

A unit has a size of memory, a range of addresses and a way of uploads that its configuration gives it and that no
register changes (`TextureUnit.Make`). Whatever a call does to a unit, it writes registers or coordinates, works out what
it derives from them, or uploads; none of these changes what the unit is made of. So the units of every chip that a run
reaches are made as its configuration says.

Results: `Chip.make_reachable`, `Chip.coherent_reachable`.
-/
import Accel3D.Proofs.Derived.Eager
import Accel3D.Proofs.Uploads

namespace Accel3D

namespace TextureUnit

/-- what a unit is made of and no register changes -/
structure Make where
  logSize : Nat
  addressMask : UInt32
  addressShift : UInt32
  linearUpload : Bool
deriving DecidableEq, Repr

def make (u : TextureUnit) : Make := ⟨u.memory.logSize, u.addressMask, u.addressShift, u.linearUpload⟩

def Make.ofConfig (config : ChipConfig) : Make where
  logSize := ChipConfig.logBytes config.textureMegabytes
  addressMask := config.revision.textureAddressMask
  addressShift := config.revision.textureAddressShift
  linearUpload := config.revision.hasBansheeLayout

theorem make_refresh (u : TextureUnit) : u.refresh.make = u.make := by
  unfold refresh
  split <;> rfl

theorem make_writeRegister (u : TextureUnit) (r : Reg) (data : UInt32) : (u.writeRegister r data).make = u.make := by
  unfold writeRegister
  split
  · rfl
  · split
    · rfl
    · rfl
    · split <;> rfl

theorem make_upload (u : TextureUnit) (offset data : UInt32) : (u.upload offset data).make = u.make := by
  rw [upload_eq, ← u.make_refresh]
  simp only [make, logSize_stored, memory_refresh]

end TextureUnit

namespace Chip

def makes (c : Chip) : List TextureUnit.Make := c.textures.toList.map TextureUnit.make

theorem makes_mapTextures (c : Chip) (f : Nat → TextureUnit → TextureUnit) (h : ∀ i u, (f i u).make = u.make) :
    Chip.makes { c with textures := c.textures.mapIdx f } = c.makes := by
  show (c.textures.mapIdx f).toList.map _ = _
  apply List.ext_getElem <;> simp [makes, h]

theorem makes_modifyTexture (c : Chip) (i : Nat) (f : TextureUnit → TextureUnit) (h : ∀ u, (f u).make = u.make) :
    (c.modifyTexture i f).makes = c.makes := by
  rw [Alike.modifyTexture_eq]
  refine makes_mapTextures c _ fun j u => ?_
  split
  · exact h u
  · rfl

theorem makes_atCentre (c : Chip) : c.atCentre.makes = c.makes := by
  unfold atCentre
  split
  · refine makes_mapTextures c _ fun i u => ?_
    split <;> rfl
  · rfl

theorem makes_rasterize (c : Chip) (n : Nat) (base : UInt32) : (c.rasterize n base).makes = c.makes := by
  rw [rasterize_eq, paintRaster]
  generalize (c.currentRaster n base).draw = draw
  rfl

theorem makes_drawTriangle (c : Chip) : c.drawTriangle.makes = c.makes := by
  rw [drawTriangle_eq]
  split
  · exact makes_atCentre c
  · rw [makes_rasterize]
    refine (makes_mapTextures c.atCentre _ fun i u => ?_).trans (makes_atCentre c)
    split
    · exact u.make_refresh
    · rfl

theorem makes_extendStrip (c : Chip) : c.extendStrip.makes = c.makes := by
  rw [extendStrip_eq]
  split
  · exact (makes_drawTriangle _).trans (makes_mapTextures c.withVertex _ fun _ _ => rfl)
  · rfl

theorem makes_run (c : Chip) (command : Command) (select : ChipSelect) (data : UInt32) :
    (c.run command select data).makes = c.makes := by
  cases command with
  | triangle => exact makes_drawTriangle c
  | extendStrip => exact makes_extendStrip c
  | coordParameter p term form =>
    simp only [run, writeCoord]
    refine (makes_mapTextures _ _ fun i u => ?_).trans ?_
    · split <;> rfl
    · split <;> rfl
  | vertex | pixelParameter | fogTable =>
    simp only [run]
    split <;> rfl
  | _ => rfl

theorem makes_storeRegister (c : Chip) (select : ChipSelect) (r : Reg) (data : UInt32) :
    (c.storeRegister select r data).makes = c.makes := by
  unfold storeRegister
  refine (makes_mapTextures _ _ fun i u => ?_).trans ?_
  · split
    · exact u.make_writeRegister r data
    · rfl
  · split <;> rfl

theorem makes_execute (c : Chip) (w : RegisterWrite) : (c.execute w).makes = c.makes := by
  simp only [execute]
  have hlayout : ∀ (d : Chip) select r, (d.updateLayout select r).makes = d.makes := fun d select r => by
    unfold updateLayout
    split <;> rfl
  rw [hlayout, makes_storeRegister, makes_run]

theorem makes_linearWrite (c : Chip) (offset data byteMask : UInt32) :
    (c.linearWrite offset data byteMask).makes = c.makes := by
  rw [makes, textures_linearWrite, makes]

theorem kept_makes (l : List TextureUnit.Make) : Kept fun c => c.makes = l where
  queue _ _ h := h
  execute c w h := (makes_execute c w).trans h
  upload c i offset data h := (makes_modifyTexture c i _ fun u => u.make_upload offset data).trans h
  linearWrite c offset data byteMask h := (makes_linearWrite c offset data byteMask).trans h
  retrace _ _ h := h
  endRetrace _ h := h

theorem getElem?_initial (config : ChipConfig) (i : Nat) :
    (initial config).textures[i]? = if i < config.textureUnits.toNat then
      some (TextureUnit.initial config.revision (UInt64.ofNat i) (ChipConfig.logBytes config.textureMegabytes))
    else none := by
  simp only [initial, Array.getElem?_ofFn, dite_eq_ite]

/-- **The units of a reachable chip are those of its configuration.** -/
theorem make_reachable {c : Chip} (h : c.Reachable) {u : TextureUnit} (hu : u ∈ c.textures) :
    u.make = TextureUnit.Make.ofConfig c.config := by
  obtain ⟨config, first, calls, hmake, rfl⟩ := h
  obtain ⟨-, rfl⟩ := make_eq_ok.1 hmake
  have hmakes := (kept_makes (initial config).makes).run (initial config) calls rfl
  have hmem : u.make ∈ (initial config).makes := by
    rw [← hmakes]
    exact List.mem_map_of_mem (Array.mem_toList_iff.2 hu)
  obtain ⟨v, hv, hmake⟩ := List.mem_map.1 hmem
  obtain ⟨i, hi⟩ := Array.getElem?_of_mem (Array.mem_toList_iff.1 hv)
  rw [getElem?_initial] at hi
  split at hi
  · cases hi
    rw [← hmake, config_run]
    rfl
  · cases hi

theorem coherent_reachable {c : Chip} (h : c.Reachable) : c.Coherent := by
  obtain ⟨config, first, calls, hmake, rfl⟩ := h
  obtain ⟨-, rfl⟩ := make_eq_ok.1 hmake
  obtain ⟨q, hq⟩ := run_eq_foldl (initial config) calls
  rw [hq]
  exact coherent_foldl _ _ (coherent_initial config)

end Chip
end Accel3D
