/-
Which texture unit a write through the aperture goes to, and what else its select bits do.

Bits 19 and 20 of an offset name the unit. Where uploads name level, row and column by the bits below, the unit's bits
drop out of the address (`TextureUnit.uploadAddress_select`). Where uploads are linear they do not: an offset counts words
from level 0 on, and the bit that names the second unit is 2^21 bytes. In a memory of that size or less the address wraps
to the same place; in a larger one the second unit is written elsewhere than the first.

Results: `Chip.texture_select`.
-/
import Accel3D.Proofs.LevelLayout
import Accel3D.Proofs.UnitMake

namespace Accel3D

/-! ## Uploads with the select bit -/

namespace TextureUnit

variable {u v : TextureUnit}

theorem currentParams_congr (hmake : v.make = u.make) (hregs : v.regs = u.regs) : v.currentParams = u.currentParams := by
  simp only [make, Make.mk.injEq] at hmake
  obtain ⟨hlog, hmask, hshift, -⟩ := hmake
  have hsize : v.memory.mask = u.memory.mask := by
    rw [Memory.mask, Memory.mask, Memory.size, Memory.size, Memory.size_eq, Memory.size_eq, hlog]
  rw [currentParams, currentParams, hregs, hsize, hmask, hshift]

theorem uploadAddress_congr (hmake : v.make = u.make) (hregs : v.regs = u.regs) (hu : u.FollowsRegisters)
    (hv : v.FollowsRegisters) (offset : UInt32) :
    v.refresh.uploadAddress offset = u.refresh.uploadAddress offset := by
  have hparams : v.refresh.params = u.refresh.params := by
    rw [params_refresh hu, params_refresh hv, currentParams_congr hmake hregs]
  have hlinear : v.refresh.linearUpload = u.refresh.linearUpload := by
    rw [linearUpload_refresh, linearUpload_refresh]
    exact congrArg Make.linearUpload hmake
  have hmode : v.refresh.mode = u.refresh.mode := by
    rw [mode_refresh, mode_refresh, mode, mode, modeWord, modeWord, hregs]
  unfold uploadAddress
  simp only [hparams, hlinear, hmode]

/-- an offset of the second unit is that of the first and 2^19 -/
theorem toNat_select {offset : UInt32} (ho : offset < 0x80000) :
    offset.toNat < 524288 ∧ (offset + 0x80000).toNat = offset.toNat + 524288 := by
  have hlt : offset.toNat < 524288 := UInt32.lt_iff_toNat_lt.1 ho
  refine ⟨hlt, ?_⟩
  rw [UInt32.toNat_add, show (0x80000 : UInt32).toNat = 524288 from rfl]
  omega

theorem field_select {offset : UInt32} (ho : offset < 0x80000) {low width : Nat} (hlow : low + width ≤ 19) :
    field (offset + 0x80000) low width = field offset low width := by
  have hbit : (offset + 0x80000).toNat = offset.toNat + 2 ^ low * (2 ^ width * 2 ^ (19 - low - width)) := by
    have hpow : 2 ^ low * (2 ^ width * 2 ^ (19 - low - width)) = 524288 := by
      rw [← Nat.pow_add, ← Nat.pow_add, show low + (width + (19 - low - width)) = 19 by omega]
    rw [hpow, (toNat_select ho).2]
  rw [field, field, Nat.shiftRight_eq_div_pow, Nat.shiftRight_eq_div_pow, hbit,
    Nat.add_mul_div_left _ _ (Nat.two_pow_pos low), Nat.add_mul_mod_self_left]

theorem uploadSpot_select (mode : TextureMode) {offset : UInt32} (ho : offset < 0x80000) :
    uploadSpot mode (offset + 0x80000) = uploadSpot mode offset := by
  simp only [uploadSpot, field_select ho (show 15 + 4 ≤ 19 by decide), field_select ho (show 7 + 8 ≤ 19 by decide),
    field_select ho (show 0 + 7 ≤ 19 by decide), field_select ho (show 0 + 6 ≤ 19 by decide),
    field_select ho (show 1 + 6 ≤ 19 by decide)]

theorem uploadAddress_of_le (hlinear : u.linearUpload = false) {offset : UInt32}
    (h : 9 ≤ (uploadSpot u.mode offset).level) : u.uploadAddress offset = none := by
  have hlevel : ¬ field offset 15 4 < 9 := Nat.not_lt.2 h
  simp only [uploadAddress, hlinear, Bool.false_eq_true, if_false, dif_neg hlevel]

/-- uploads that name level, row and column drop the bit -/
theorem uploadAddress_select (hlinear : u.linearUpload = false) {offset : UInt32} (ho : offset < 0x80000) :
    u.uploadAddress (offset + 0x80000) = u.uploadAddress offset := by
  have hspot := uploadSpot_select u.mode ho
  rcases Nat.lt_or_ge (uploadSpot u.mode offset).level 9 with hl | hl
  · let l : Fin 9 := ⟨_, hl⟩
    have hl : (uploadSpot u.mode offset).level = l.val := rfl
    have hl' : (uploadSpot u.mode (offset + 0x80000)).level = l.val := congrArg UploadSpot.level hspot
    rw [uploadAddress_eq hlinear hl, uploadAddress_eq hlinear hl', firstTexel, hspot, firstTexel]
  · have hl' : 9 ≤ (uploadSpot u.mode (offset + 0x80000)).level := hl.trans_eq (congrArg UploadSpot.level hspot).symm
    rw [uploadAddress_of_le hlinear hl, uploadAddress_of_le hlinear hl']

/-- uploads in a row from level 0 on keep it: they go 2^21 bytes further -/
theorem uploadAddress_select_linear (hlinear : u.linearUpload = true) (offset : UInt32) :
    u.uploadAddress offset = some (u.params.levelStart 0 + (offset <<< 2)) ∧
      u.uploadAddress (offset + 0x80000) = some (u.params.levelStart 0 + (offset <<< 2) + 0x200000) := by
  have hshift : (offset + 0x80000) <<< 2 = (offset <<< 2) + 0x200000 := by
    rw [← UInt32.toNat_inj]
    simp [Nat.shiftLeft_eq]
    omega
  simp only [uploadAddress, hlinear, if_true, hshift, UInt32.add_assoc]
  exact ⟨rfl, rfl⟩

end TextureUnit

namespace Chip

def unitRegisters (c : Chip) (i : Nat) : Option RegisterFile := c.textures[i]?.map (·.regs)

def unitMemory (c : Chip) (i : Nat) : Option Memory := c.textures[i]?.map (·.memory)

theorem unitMemory_writeTexture (c : Chip) {offset : UInt32} {i : Nat} (hi : field offset 19 2 = i) (data : UInt32) :
    (c.writeTexture offset data).unitMemory i = c.flush.textures[i]?.map fun u => u.stored u.memory offset data := by
  have htextures : (c.writeTexture offset data).textures =
      c.flush.textures.modify (field offset 19 2) fun u => u.upload offset data := rfl
  rw [unitMemory, htextures, hi, Array.getElem?_modify, if_pos rfl, Option.map_map]
  refine congrArg (fun f => c.flush.textures[i]?.map f) ?_
  funext u
  show (u.upload offset data).memory = _
  rw [TextureUnit.upload_eq]

theorem field_unit {offset : UInt32} (ho : offset < 0x80000) :
    field offset 19 2 = 0 ∧ field (offset + 0x80000) 19 2 = 1 := by
  obtain ⟨hlt, hsum⟩ := TextureUnit.toNat_select ho
  simp only [field, Nat.shiftRight_eq_div_pow, hsum]
  omega

end Chip

/-! ## Two units that an upload finds alike -/

namespace TextureUnit

/-- units of one make that hold the same registers and the same memory -/
structure Interchangeable (u v : TextureUnit) : Prop where
  make : v.make = u.make
  regs : v.regs = u.regs
  memory : v.memory = u.memory
  left : u.FollowsRegisters
  right : v.FollowsRegisters

namespace Interchangeable

variable {u v : TextureUnit}

theorem uploadAddress (h : Interchangeable u v) (offset : UInt32) :
    v.refresh.uploadAddress offset = u.refresh.uploadAddress offset :=
  uploadAddress_congr h.make h.regs h.left h.right offset

theorem uploadData (h : Interchangeable u v) (data : UInt32) : v.uploadData data = u.uploadData data := by
  rw [TextureUnit.uploadData, TextureUnit.uploadData, h.regs]

/-- **The select bit makes no difference where uploads name level, row and column.** -/
theorem stored_select (h : Interchangeable u v) (hlinear : u.linearUpload = false) {offset : UInt32}
    (ho : offset < 0x80000) (data : UInt32) :
    v.stored v.memory (offset + 0x80000) data = u.stored u.memory offset data := by
  have haddress : v.refresh.uploadAddress (offset + 0x80000) = u.refresh.uploadAddress offset := by
    rw [h.uploadAddress, uploadAddress_select (u.linearUpload_refresh.trans hlinear) ho]
  simp only [stored, haddress, h.memory, h.uploadData]

/-- where uploads are linear it counts: the word goes 2^21 bytes further -/
theorem stored_select_linear (h : Interchangeable u v) (hlinear : u.linearUpload = true) (offset data : UInt32) :
    let address := u.refresh.params.levelStart 0 + (offset <<< 2)
    u.stored u.memory offset data = u.memory.write32 address (u.uploadData data) ∧
      v.stored v.memory (offset + 0x80000) data = v.memory.write32 (address + 0x200000) (u.uploadData data) := by
  have haddress := uploadAddress_select_linear (u.linearUpload_refresh.trans hlinear) offset
  simp only [stored, h.uploadAddress, haddress, h.uploadData, and_self]

/-- in a large memory the byte that the first unit takes stays as it is in the second -/
theorem read8_select_linear (h : Interchangeable u v) (hlinear : u.linearUpload = true) (hlog : 22 ≤ u.memory.logSize)
    (offset data : UInt32) :
    let address := u.refresh.params.levelStart 0 + (offset <<< 2)
    (u.stored u.memory offset data).read8 address = (u.uploadData data >>> UInt32.ofNat (8 * 0)).toUInt8 ∧
      (v.stored v.memory (offset + 0x80000) data).read8 address = u.memory.read8 address := by
  intro address
  have hplaces : 2 ^ 22 ≤ u.memory.places := Nat.pow_le_pow_right (by decide) (by omega)
  have hzero : address + UInt32.ofNat 0 = address := UInt32.add_zero address
  obtain ⟨hleft, hright⟩ := h.stored_select_linear hlinear offset data
  constructor
  · rw [hleft, Memory.write32_eq]
    exact hzero ▸ u.memory.read8_writeBytes address _ (by omega) (show 0 < 4 by decide)
  · rw [hright, h.memory, Memory.write32_eq]
    refine u.memory.read8_writeBytes_of_ne _ _ fun i hi heq => ?_
    rw [UInt32.add_assoc, show (0x200000 : UInt32) = UInt32.ofNat 2097152 from rfl, ← UInt32.ofNat_add] at heq
    have hplace := u.memory.index_add_inj address (by omega) (by omega) (heq.trans (congrArg u.memory.index hzero.symm))
    omega

/-- the select bit makes no difference in a memory of up to 2^21 bytes, and in no larger one -/
theorem stored_select_linear_iff (h : Interchangeable u v) (hlinear : u.linearUpload = true) :
    (∀ offset < 0x80000, ∀ data,
      v.stored v.memory (offset + 0x80000) data = u.stored u.memory offset data) ↔ u.memory.logSize ≤ 21 := by
  constructor
  · intro hsame
    refine Nat.le_of_not_lt fun hlog => ?_
    let address := u.refresh.params.levelStart 0 + ((0 : UInt32) <<< 2)
    obtain ⟨data, hdata⟩ := u.exists_upload_ne (u.memory.read8 address) (show 0 < 4 by decide)
    obtain ⟨hleft, hright⟩ := h.read8_select_linear hlinear hlog 0 data
    rw [hsame 0 (by decide) data, hleft] at hright
    exact hdata hright
  · intro hlog offset ho data
    obtain ⟨hleft, hright⟩ := h.stored_select_linear hlinear offset data
    have hdvd : u.memory.places ∣ (0x200000 : UInt32).toNat := Nat.pow_dvd_pow 2 ((Nat.min_le_left ..).trans hlog)
    rw [hleft, hright, h.memory, Memory.write32_add_of_dvd _ _ _ _ hdvd]

end Interchangeable
end TextureUnit

namespace Chip

/-- of the sizes that a memory may have, those of up to 2^21 bytes -/
theorem logBytes_le_iff {config : ChipConfig} (h : config.validate = .ok ()) :
    config.textureMegabytes ≤ 2 ↔ ChipConfig.logBytes config.textureMegabytes ≤ 21 := by
  have hsize : config.textureMegabytes = 1 ∨ config.textureMegabytes = 2 ∨ config.textureMegabytes = 4 ∨
      config.textureMegabytes = 8 ∨ config.textureMegabytes = 16 := by
    simpa [ChipConfig.isMemorySize] using (validate_eq_ok h).2.1
  rcases hsize with hsize | hsize | hsize | hsize | hsize <;> rw [hsize] <;> decide

theorem size_flush_textures (c : Chip) : c.flush.textures.size = c.textures.size := by
  have hmakes := (kept_makes c.makes).flush c rfl
  simpa [makes] using congrArg List.length hmakes

theorem exists_interchangeable {c : Chip} (hc : c.Reachable) (hcount : c.textures.size = 2)
    (hregs : c.flush.unitRegisters 0 = c.flush.unitRegisters 1)
    (hmemory : c.flush.unitMemory 0 = c.flush.unitMemory 1) :
    ∃ u v, c.flush.textures[0]? = some u ∧ c.flush.textures[1]? = some v ∧
      u.make = TextureUnit.Make.ofConfig c.config ∧ u.Interchangeable v := by
  have hsize := c.size_flush_textures.trans hcount
  have hflush : c.flush.Reachable := hc.run c [.flush]
  have hunit : ∀ u ∈ c.flush.textures, u.make = TextureUnit.Make.ofConfig c.config ∧ u.FollowsRegisters := fun u hu =>
    ⟨(make_reachable hflush hu).trans (by rw [config_flush]), (coherent_reachable hflush u hu).followsRegisters⟩
  have hfirst : c.flush.textures[0]? = some c.flush.textures[0] := Array.getElem?_eq_getElem _
  have hsecond : c.flush.textures[1]? = some c.flush.textures[1] := Array.getElem?_eq_getElem _
  obtain ⟨hmake, hfollows⟩ := hunit _ (Array.getElem_mem (show 0 < c.flush.textures.size by omega))
  obtain ⟨hmake', hfollows'⟩ := hunit _ (Array.getElem_mem (show 1 < c.flush.textures.size by omega))
  simp only [unitRegisters, unitMemory, hfirst, hsecond, Option.map_some, Option.some.injEq] at hregs hmemory
  exact ⟨_, _, hfirst, hsecond, hmake, hmake'.trans hmake.symm, hregs.symm, hmemory.symm, hfollows, hfollows'⟩

/-- **The bits of a texture write that name the unit do nothing else, but for a large memory written linearly.** Two
units hold the same registers and the same memory. A write to the first and the same write to the second, which differs
in bit 19 of the offset only, leave the same memory, for every offset and all data, on Voodoo 1 and 2 and on Banshee with
up to 2 megabytes for each unit. With more on Banshee they do not: there the same word goes 2^21 bytes further in the
second unit. -/
theorem texture_select {c : Chip} (hc : c.Reachable) (hcount : c.textures.size = 2)
    (hregs : c.flush.unitRegisters 0 = c.flush.unitRegisters 1)
    (hmemory : c.flush.unitMemory 0 = c.flush.unitMemory 1) :
    ((∀ offset < 0x80000, ∀ data,
      (c.writeTexture (offset + 0x80000) data).unitMemory 1 = (c.writeTexture offset data).unitMemory 0) ↔
        (c.revision.hasBansheeLayout = true → c.config.textureMegabytes ≤ 2)) ∧
    (c.revision.hasBansheeLayout = true → ∀ offset < 0x80000, ∀ data, ∃ address word,
      (c.writeTexture offset data).unitMemory 0 = (c.flush.unitMemory 0).map (·.write32 address word) ∧
      (c.writeTexture (offset + 0x80000) data).unitMemory 1 =
        (c.flush.unitMemory 1).map (·.write32 (address + 0x200000) word)) := by
  obtain ⟨u, v, hu, hv, hmake, h⟩ := exists_interchangeable hc hcount hregs hmemory
  have hlinear : u.linearUpload = c.revision.hasBansheeLayout := congrArg TextureUnit.Make.linearUpload hmake
  have hlog : u.memory.logSize = ChipConfig.logBytes c.config.textureMegabytes :=
    congrArg TextureUnit.Make.logSize hmake
  have hwrites : ∀ offset < 0x80000, ∀ data,
      (c.writeTexture offset data).unitMemory 0 = some (u.stored u.memory offset data) ∧
      (c.writeTexture (offset + 0x80000) data).unitMemory 1 = some (v.stored v.memory (offset + 0x80000) data) := by
    intro offset ho data
    obtain ⟨hfirst, hsecond⟩ := field_unit ho
    rw [unitMemory_writeTexture c hfirst, unitMemory_writeTexture c hsecond, hu, hv]
    exact ⟨rfl, rfl⟩
  have hsame : (∀ offset < 0x80000, ∀ data,
      (c.writeTexture (offset + 0x80000) data).unitMemory 1 = (c.writeTexture offset data).unitMemory 0) ↔
      ∀ offset < 0x80000, ∀ data, v.stored v.memory (offset + 0x80000) data = u.stored u.memory offset data := by
    refine forall_congr' fun offset => forall_congr' fun ho => forall_congr' fun data => ?_
    rw [(hwrites offset ho data).1, (hwrites offset ho data).2, Option.some.injEq]
  rw [hsame]
  cases hbanshee : c.revision.hasBansheeLayout with
  | false =>
    rw [hbanshee] at hlinear
    exact ⟨iff_of_true (fun offset ho data => h.stored_select hlinear ho data) (fun hb => nomatch hb),
      fun hb => nomatch hb⟩
  | true =>
    rw [hbanshee] at hlinear
    refine ⟨?_, fun _ offset ho data => ?_⟩
    · rw [h.stored_select_linear_iff hlinear, hlog, ← logBytes_le_iff (shape_reachable c hc).1]
      simp only [true_imp_iff]
    · obtain ⟨hleft, hright⟩ := h.stored_select_linear hlinear offset data
      refine ⟨u.refresh.params.levelStart 0 + (offset <<< 2), u.uploadData data, ?_, ?_⟩
      · rw [(hwrites offset ho data).1, hleft, unitMemory, hu]
        rfl
      · rw [(hwrites offset ho data).2, hright, unitMemory, hv]
        rfl

/-- a new Banshee with two texture units of so many megabytes each -/
def newBanshee (megabytes : UInt32) : Chip := initial ⟨.banshee, 4, megabytes, 2, false⟩

theorem flush_newBanshee (megabytes : UInt32) : (newBanshee megabytes).flush = newBanshee megabytes :=
  flush_of_empty _ rfl

theorem unit_newBanshee (megabytes : UInt32) {i : Nat} (hi : i < 2) :
    (newBanshee megabytes).textures[i]? =
      some (TextureUnit.initial .banshee (UInt64.ofNat i) (ChipConfig.logBytes megabytes)) := by
  rw [newBanshee, getElem?_initial]
  exact if_pos hi

theorem units_newBanshee (megabytes : UInt32) :
    (newBanshee megabytes).textures.size = 2 ∧
      (newBanshee megabytes).flush.unitRegisters 0 = (newBanshee megabytes).flush.unitRegisters 1 ∧
      (newBanshee megabytes).flush.unitMemory 0 = (newBanshee megabytes).flush.unitMemory 1 := by
  have hfirst := unit_newBanshee megabytes (show 0 < 2 by decide)
  have hsecond := unit_newBanshee megabytes (show 1 < 2 by decide)
  simp only [flush_newBanshee, unitRegisters, unitMemory, hfirst, hsecond, Option.map_some]
  exact ⟨Array.size_ofFn, rfl, rfl⟩

/-- units of two megabytes -/
theorem texture_select_two_megabytes :
    let c := newBanshee 2
    c.Reachable ∧ c.textures.size = 2 ∧ c.flush.unitRegisters 0 = c.flush.unitRegisters 1 ∧
      c.flush.unitMemory 0 = c.flush.unitMemory 1 ∧
      ∀ offset < 0x80000, ∀ data,
        (c.writeTexture (offset + 0x80000) data).unitMemory 1 = (c.writeTexture offset data).unitMemory 0 := by
  intro c
  have hreachable : c.Reachable := ⟨_, _, [], make_eq_ok.2 ⟨by decide, rfl⟩, rfl⟩
  obtain ⟨hcount, hregs, hmemory⟩ := units_newBanshee 2
  have hselect := texture_select hreachable hcount hregs hmemory
  exact ⟨hreachable, hcount, hregs, hmemory, hselect.1.2 fun _ => by decide⟩

/-- **Units of four megabytes are not written alike.** The first word of the aperture goes to the first bytes of the
first unit. The same word for the second unit does not go to its first bytes. -/
theorem texture_select_four_megabytes :
    let c := newBanshee 4
    c.Reachable ∧ c.textures.size = 2 ∧ c.flush.unitRegisters 0 = c.flush.unitRegisters 1 ∧
      c.flush.unitMemory 0 = c.flush.unitMemory 1 ∧
      ((c.writeTexture 0 0x11223344).unitMemory 0).map (·.read8 0) = some 0x44 ∧
      ((c.writeTexture (0 + 0x80000) 0x11223344).unitMemory 1).map (·.read8 0) = some 0 := by
  intro c
  have hreachable : c.Reachable := ⟨_, _, [], make_eq_ok.2 ⟨by decide, rfl⟩, rfl⟩
  obtain ⟨hcount, hregs, hmemory⟩ := units_newBanshee 4
  let u := TextureUnit.initial .banshee 0 22
  let v := TextureUnit.initial .banshee 1 22
  have hu : c.flush.textures[0]? = some u := by
    rw [show c.flush = c from flush_newBanshee 4]
    exact unit_newBanshee 4 (by decide)
  have hv : c.flush.textures[1]? = some v := by
    rw [show c.flush = c from flush_newBanshee 4]
    exact unit_newBanshee 4 (by decide)
  have hfollows : ∀ i, (TextureUnit.initial .banshee i 22).FollowsRegisters := fun i h => nomatch h
  have h : u.Interchangeable v := ⟨rfl, rfl, rfl, hfollows 0, hfollows 1⟩
  have haddress : u.refresh.params.levelStart 0 + ((0 : UInt32) <<< 2) = 0 := by
    have hoffset := TextureUnit.toNat_levelStart
      ((TextureUnit.params_refresh (hfollows 0)).trans u.currentParams_refresh.symm) (by decide +kernel) 0
    rw [← UInt32.toNat_inj, UInt32.toNat_add, hoffset]
    decide +kernel
  obtain ⟨hfirst, hsecond⟩ := h.read8_select_linear rfl (by decide) 0 0x11223344
  rw [haddress] at hfirst hsecond
  obtain ⟨hunit, hunit'⟩ := field_unit (show (0 : UInt32) < 0x80000 by decide)
  rw [unitMemory_writeTexture c hunit, unitMemory_writeTexture c hunit', hu, hv, Option.map_some, Option.map_some,
    Option.map_some, Option.map_some, hfirst, hsecond]
  exact ⟨hreachable, hcount, hregs, hmemory, by decide +kernel, congrArg some (Memory.read8_zeroed 22 0)⟩

end Chip
end Accel3D
