/-
Uploads of texels, and the samples that find them.

An upload is four bytes and an offset, in whose bits its level, row and first column stand (`TextureUnit.uploadSpot`). A
sample starts from coordinates and a level of detail instead. Both number the texels of a level row by row from where
the level begins, so a pixel whose coordinates lie in one of the uploaded texels takes what was stored there, of any
format and for all sizes of a level.

Results: `TextureUnit.stored_eq` (what an upload writes), `TextureUnit.sample_uploaded`.
-/
import Accel3D.Proofs.Texels

namespace Accel3D

/-! ## The texels of an upload -/

/-- texel `k` of the four bytes of an upload, the lowest first -/
def TexelFormat.lane (format : TexelFormat) (data : UInt32) (k : Nat) : UInt32 :=
  if format.isWide then (data >>> UInt32.ofNat (16 * k)).toUInt16.toUInt32
  else (data >>> UInt32.ofNat (8 * k)).toUInt8.toUInt32

theorem bytes_lowHalf (w : UInt32) : w.toUInt8.toUInt16 ||| ((w >>> 8).toUInt8.toUInt16 <<< 8) = w.toUInt16 := by
  have hlow : w.toUInt16.toUInt8 = w.toUInt8 := by
    rw [← UInt8.toNat_inj]
    simp
  have hhigh : (w.toUInt16 >>> 8).toUInt8 = (w >>> 8).toUInt8 := by
    rw [← UInt8.toNat_inj]
    simp [Nat.shiftRight_eq_div_pow]
    omega
  rw [← hlow, ← hhigh]
  exact bytes_toUInt16 w.toUInt16

namespace Memory

def readTexel (m : Memory) (format : TexelFormat) (a : UInt32) : UInt32 :=
  if format.isWide then (m.read16 a).toUInt32 else (m.read8 a).toUInt32

theorem readTexel_write32 (m : Memory) (hm : 4 ≤ m.places) (format : TexelFormat) (a w : UInt32) {k : Nat}
    (hk : k < format.lanes) :
    (m.write32 a w).readTexel format (a + UInt32.ofNat (format.bytes * k)) = format.lane w k := by
  have hbyte : ∀ i < 4, (m.write32 a w).read8 (a + UInt32.ofNat i) = (w >>> UInt32.ofNat (8 * i)).toUInt8 := by
    intro i hi
    rw [write32_eq]
    exact m.read8_writeBytes a _ hm hi
  unfold TexelFormat.lanes at hk
  unfold readTexel TexelFormat.lane TexelFormat.bytes
  split at hk
  · rename_i hwide
    have hnext : a + UInt32.ofNat (2 * k) + 1 = a + UInt32.ofNat (2 * k + 1) := by
      rw [UInt32.add_assoc, UInt32.ofNat_add]
      rfl
    have hshift : w >>> UInt32.ofNat (8 * (2 * k + 1)) = w >>> UInt32.ofNat (16 * k) >>> 8 := by
      obtain rfl | rfl : k = 0 ∨ k = 1 := by omega
      · rw [← UInt32.toNat_inj]
        simp
      · rw [← UInt32.toNat_inj]
        simp [Nat.shiftRight_eq_div_pow]
        omega
    rw [if_pos hwide, if_pos hwide, if_pos hwide, read16, hnext, hbyte _ (by omega), hbyte _ (by omega), hshift,
      show 8 * (2 * k) = 16 * k by omega, bytes_lowHalf]
  · rename_i hnarrow
    rw [if_neg hnarrow, if_neg hnarrow, if_neg hnarrow, Nat.one_mul, hbyte k hk]

end Memory

theorem toNat_and_bits (v mask : UInt32) (low width : Nat) (hmask : mask.toNat = 2 ^ low * (2 ^ width - 1)) :
    (v &&& mask).toNat = 2 ^ low * field v low width := by
  rw [UInt32.toNat_and, hmask, field, Nat.mul_comm, Nat.mul_comm (2 ^ low), ← Nat.shiftLeft_eq, ← Nat.shiftLeft_eq]
  apply Nat.eq_of_testBit_eq
  intro i
  simp only [Nat.testBit_and, Nat.testBit_shiftLeft, Nat.testBit_two_pow_sub_one, Nat.testBit_mod_two_pow,
    Nat.testBit_shiftRight]
  by_cases hi : low ≤ i
  · rw [Nat.add_sub_cancel' hi]
    cases v.toNat.testBit i <;> simp [hi]
  · simp [hi]

/-- level, row and first column of the texels of an upload -/
structure UploadSpot where
  level : Nat
  row : Nat
  column : Nat
deriving DecidableEq, Repr

namespace TextureUnit

/-- what the bits of an offset say. A row has 128 offsets; the offsets of a row of one-byte texels follow each other in
sequential uploads, else only every second one counts. -/
def uploadSpot (mode : TextureMode) (offset : UInt32) : UploadSpot where
  level := field offset 15 4
  row := field offset 7 8
  column :=
    if mode.format.isWide then 2 * field offset 0 7
    else if mode.sequentialUpload then 4 * field offset 0 6
    else 4 * field offset 1 6

def firstTexel (p : TexParams) (mode : TextureMode) (offset : UInt32) : Nat :=
  (uploadSpot mode offset).row * p.width (uploadSpot mode offset).level + (uploadSpot mode offset).column

theorem column_eq (mode : TextureMode) (offset : UInt32) :
    (if mode.format.isWide then (offset <<< 1) &&& (0xFE : UInt32)
      else (if mode.sequentialUpload then offset <<< 2 else offset <<< 1) &&& (0xFC : UInt32)) =
      UInt32.ofNat (uploadSpot mode offset).column := by
  have hword := offset.toNat_lt
  unfold uploadSpot
  rw [← UInt32.toNat_inj]
  simp only
  split <;> [skip; split]
  · rw [toNat_and_bits _ 0xFE 1 7 rfl]
    simp [field, Nat.shiftRight_eq_div_pow, Nat.shiftLeft_eq]
    omega
  · rw [toNat_and_bits _ 0xFC 2 6 rfl]
    simp [field, Nat.shiftRight_eq_div_pow, Nat.shiftLeft_eq]
    omega
  · rw [toNat_and_bits _ 0xFC 2 6 rfl]
    simp [field, Nat.shiftRight_eq_div_pow, Nat.shiftLeft_eq]
    omega

theorem uploadAddress_eq {u : TextureUnit} (hlinear : u.linearUpload = false) {offset : UInt32} {l : Fin 9}
    (hl : (uploadSpot u.mode offset).level = l.val) :
    u.uploadAddress offset =
      some (u.params.levelStart l + UInt32.ofNat (u.mode.format.bytes * firstTexel u.params u.mode offset)) := by
  have hlevel : field offset 15 4 = l.val := hl
  have hlt : field offset 15 4 < 9 := hlevel ▸ l.isLt
  have hcolumn := column_eq u.mode offset
  have hnumber : UInt32.ofNat (firstTexel u.params u.mode offset) =
      UInt32.ofNat (field offset 7 8) * ((u.params.widthMask >>> UInt32.ofNat l.val) + 1) +
        UInt32.ofNat (uploadSpot u.mode offset).column := by
    rw [firstTexel, hl, TexParams.width, UInt32.ofNat_add, UInt32.ofNat_mul, UInt32.ofNat_add, UInt32.ofNat_toNat]
    rfl
  unfold uploadAddress TexelFormat.bytes
  simp only [hlinear, Bool.false_eq_true, if_false, hlevel, l.isLt, dif_pos]
  split
  · rename_i hwide
    rw [if_pos hwide] at hcolumn
    rw [hcolumn, UInt32.ofNat_mul, hnumber]
    rfl
  · rename_i hnarrow
    rw [if_neg hnarrow] at hcolumn
    rw [hcolumn, Nat.one_mul, hnumber]
    rfl

/-! ## What an upload writes -/

theorem memory_refresh (u : TextureUnit) : u.refresh.memory = u.memory := by
  unfold refresh
  split <;> rfl

theorem regs_refresh (u : TextureUnit) : u.refresh.regs = u.regs := by
  unfold refresh
  split <;> rfl

theorem linearUpload_refresh (u : TextureUnit) : u.refresh.linearUpload = u.linearUpload := by
  unfold refresh
  split <;> rfl

theorem mode_refresh (u : TextureUnit) : u.refresh.mode = u.mode := by rw [mode, mode, modeWord, modeWord, regs_refresh]

/-- a memory of the unit after an upload; one to no level changes nothing -/
def stored (u : TextureUnit) (m : Memory) (offset data : UInt32) : Memory :=
  match u.refresh.uploadAddress offset with
  | none => m
  | some address => m.write32 address (u.uploadData data)

theorem upload_eq (u : TextureUnit) (offset data : UInt32) :
    u.upload offset data = { u.refresh with memory := u.stored u.memory offset data } := by
  have hdata : u.refresh.uploadData data = u.uploadData data := by rw [uploadData, uploadData, regs_refresh]
  have hmemory := u.memory_refresh
  unfold upload stored
  simp only
  cases u.refresh.uploadAddress offset with
  | none => simp only [← hmemory]
  | some address => simp only [hdata, hmemory]

theorem logSize_stored (u : TextureUnit) (m : Memory) (offset data : UInt32) :
    (u.stored m offset data).logSize = m.logSize := by
  unfold stored
  split <;> rfl

theorem params_upload (u : TextureUnit) (offset data : UInt32) : (u.upload offset data).params = u.refresh.params := by
  rw [upload_eq]

/-- **What an upload to a level writes:** four bytes from its first texel on. -/
theorem stored_eq {u : TextureUnit} (hlinear : u.linearUpload = false) {offset : UInt32} {l : Fin 9}
    (hl : (uploadSpot u.mode offset).level = l.val) (m : Memory) (data : UInt32) :
    u.stored m offset data = m.write32
      (u.refresh.params.levelStart l + UInt32.ofNat (u.mode.format.bytes * firstTexel u.refresh.params u.mode offset))
      (u.uploadData data) := by
  have hmode := u.mode_refresh
  have haddress := uploadAddress_eq (u.linearUpload_refresh.trans hlinear) (hmode ▸ hl)
  unfold stored
  simp only [haddress, hmode]

/-- every byte of an upload can be given another value than `b` -/
theorem exists_upload_ne (u : TextureUnit) (b : UInt8) {i : Nat} (hi : i < 4) :
    ∃ data, (u.uploadData data >>> UInt32.ofNat (8 * i)).toUInt8 ≠ b := by
  -- words of equal bytes are not changed by the swaps
  have hswaps : ∀ w, swapBytes w = w → swapHalves w = w → u.uploadData w = w := fun w hbytes hhalves => by
    simp only [uploadData, hbytes, hhalves, ite_self]
  have hzeros : ∀ i < 4, ((0 : UInt32) >>> UInt32.ofNat (8 * i)).toUInt8 = 0 := by decide
  have hones : ∀ i < 4, ((0xFFFFFFFF : UInt32) >>> UInt32.ofNat (8 * i)).toUInt8 = 0xFF := by decide
  by_cases hzero : b = 0
  · refine ⟨0xFFFFFFFF, ?_⟩
    rw [hswaps _ (by decide) (by decide), hones i hi, hzero]
    decide
  · refine ⟨0, ?_⟩
    rw [hswaps _ (by decide) (by decide), hzeros i hi]
    exact Ne.symm hzero

/-! ## Samples of a texel -/

theorem fetch_eq (u : TextureUnit) (format : TexelFormat) (base n : UInt32) :
    u.fetch format base n = u.decodeTexel format (u.memory.readTexel format (texelAddress format base n)) := rfl

theorem texel_coordinate {v : Int64} {l n : Nat} (hl : l ≤ 8) (hn : n * 2 ^ l < 256)
    (h : v.toInt / 2 ^ (l + 32) = n) : (v >>> 14).toInt32.toInt >>> (l + 18) = n := by
  have hsplit : (2 : Int) ^ (l + 32) = 2 ^ 14 * 2 ^ (l + 18) := by
    rw [← Int.pow_add]
    congr 1
    omega
  have hquotient : v.toInt / 2 ^ 14 / 2 ^ (l + 18) = n := by
    rw [Int.ediv_ediv_of_nonneg (by decide), ← hsplit, h]
  have hpositive : (0 : Int) < 2 ^ (l + 18) := Int.pow_pos (by decide)
  -- the last texel of a level ends at 256 texels of level 0
  have hlow : (n : Int) * 2 ^ (l + 18) ≤ v.toInt / 2 ^ 14 := (Int.le_ediv_iff_mul_le hpositive).1 hquotient.ge
  have hhigh : v.toInt / 2 ^ 14 < (n + 1 : Int) * 2 ^ (l + 18) :=
    (Int.ediv_lt_iff_lt_mul hpositive).1 (hquotient.trans_lt (Int.lt_succ _))
  have hbound : (n + 1 : Int) * 2 ^ (l + 18) ≤ 2 ^ 27 := by
    have hlevel : 2 ^ l ≤ 2 ^ 8 := Nat.pow_le_pow_right (by decide) hl
    have htexels : (n + 1) * 2 ^ l ≤ 2 ^ 9 := by
      rw [Nat.succ_mul]
      omega
    have hcoordinates : (n + 1) * 2 ^ l * 2 ^ 18 ≤ 2 ^ 27 := Nat.mul_le_mul_right (2 ^ 18) htexels
    rw [Nat.mul_assoc, ← Nat.pow_add] at hcoordinates
    exact_mod_cast hcoordinates
  have hnonneg : (0 : Int) ≤ n * 2 ^ (l + 18) := Int.mul_nonneg (Int.natCast_nonneg n) hpositive.le
  have hcut : (v >>> 14).toInt32.toInt = v.toInt / 2 ^ 14 := by
    rw [show (14 : Int64) = Int64.ofNat 14 from rfl, toInt32_shiftRight v.toInt_bmod.symm (n := 14) (by decide)]
    exact Int.bmod_eq_of_le (by omega) (by omega)
  rw [hcut, Int.shiftRight_eq_div_pow]
  exact_mod_cast hquotient

/-- a pixel that takes, without a filter, the texel in column `s` and row `t` of a level. Coordinates have 32 fraction
bits. -/
structure TakesTexel (u : TextureUnit) (mode : TextureMode) (x : Int) (dither : Dither) (c : TexCoords) (lodBase : Int)
    (level : Fin 9) (s t : Nat) : Prop where
  affine : mode.perspective = false
  kept : ¬ (mode.clampNegativeW = true ∧ c.w < 0)
  fetched : u.levelOf mode x dither c lodBase = level
  unfiltered : (if (u.sample mode x dither c lodBase).2 = u.params.lodMin.toInt then mode.magnifyBilinear
    else mode.minifyBilinear) = false
  column : c.s.toInt / 2 ^ (level.val + 32) = s
  row : c.t.toInt / 2 ^ (level.val + 32) = t

/-- a texel of a level is one of the first 256 of level 0, in either direction -/
theorem lt_of_isMask {v : UInt32} (hv : IsMask v) {l n : Nat} (hl : l ≤ 8)
    (hn : n ≤ (v >>> UInt32.ofNat l).toNat) : n * 2 ^ l < 256 ∧ (UInt32.ofNat n).toNat = n := by
  have hshift := toNat_shiftRight_ofNat v (n := l) (by omega)
  have hlt := hv.lt
  have htexels : n * 2 ^ l ≤ v.toNat := (Nat.le_div_iff_mul_le (Nat.two_pow_pos l)).1 (hshift ▸ hn)
  have hpositive : 1 ≤ 2 ^ l := Nat.one_le_two_pow
  have hle : n ≤ n * 2 ^ l := Nat.le_mul_of_pos_right _ hpositive
  exact ⟨by omega, by rw [UInt32.toNat_ofNat', Nat.mod_eq_of_lt (by omega)]⟩

section Samples

variable {u : TextureUnit} {mode : TextureMode} {x : Int} {dither : Dither} {c : TexCoords} {lodBase : Int}
  {level : Fin 9} {s t : Nat}

/-- the sample of such a pixel is the texel in memory -/
theorem sample_of_takesTexel (hp : u.params.Shaped) (h : u.TakesTexel mode x dither c lodBase level s t)
    (hs : s < u.params.width level.val) (ht : t < u.params.height level.val) :
    (u.sample mode x dither c lodBase).1 = Argb.ofWord (u.decodeTexel mode.format (u.memory.readTexel mode.format
      (u.params.levelStart level + UInt32.ofNat (mode.format.bytes * (t * u.params.width level.val + s))))) := by
  let l := levelAt u.params mode.format level
  have hs : s ≤ l.sMax.toNat := Nat.le_of_lt_succ hs
  have ht : t ≤ l.tMax.toNat := Nat.le_of_lt_succ ht
  have hlevel : level.val ≤ 8 := Nat.le_of_lt_succ level.isLt
  obtain ⟨hsMax, htMax⟩ := shaped_levelAt hp mode.format level
  obtain ⟨hsTexels, hsWord⟩ := lt_of_isMask hp.width hlevel hs
  obtain ⟨htTexels, htWord⟩ := lt_of_isMask hp.height hlevel ht
  have hfooting : footing mode c lodBase = affine c lodBase := by
    have hkept : (mode.clampNegativeW && decide (c.w < 0)) = false := by simpa using h.kept
    simp only [footing, hkept, h.affine, Bool.false_eq_true, if_false]
  have hcolumn : (affine c lodBase).s >>> (level.val + 18) = s := texel_coordinate hlevel hsTexels h.column
  have hrow : (affine c lodBase).t >>> (level.val + 18) = t := texel_coordinate hlevel htTexels h.row
  have hnumber : (pointTexel mode l level.val (affine c lodBase)).toNat = t * u.params.width level.val + s := by
    rw [pointTexel, hcolumn, hrow, wrapCoord_of_le _ hsMax hs, wrapCoord_of_le _ htMax ht,
      (toNat_texelNumber hsMax htMax (by rwa [hsWord]) (by rwa [htWord])).1, hsWord, htWord]
    rfl
  have hpoint : (u.sample mode x dither c lodBase).1 =
      Argb.ofWord (u.samplePoint mode l level.val (affine c lodBase)) := by
    have hsample : (u.sample mode x dither c lodBase).1 = u.texelFrom mode (u.levelOf mode x dither c lodBase)
        (footing mode c lodBase) (u.sample mode x dither c lodBase).2 := rfl
    rw [hsample, h.fetched, hfooting, texelFrom]
    simp only [h.unfiltered, Bool.false_eq_true, if_false]
    rfl
  rw [hpoint, samplePoint_eq, fetch_eq, texelAddress_eq, hnumber]
  rfl

/-- **A sample finds what was uploaded.** To a unit whose uploads name level, row and column, of any format and with
any levels, four bytes are uploaded at a row and a column of a level. Then each of their texels that lies in the row is
what a pixel takes without a filter at its column: the color of the texel, by the format. -/
theorem sample_uploaded (hu : u.FollowsRegisters) (hlinear : u.linearUpload = false) (hsize : 4 ≤ u.memory.size)
    (hswizzle : (LodMode.decode (u.regs.get Reg.textureLod)).swizzleUpload = false)
    (hswap : (LodMode.decode (u.regs.get Reg.textureLod)).swapUpload = false)
    (hformat : mode.format = u.mode.format) (offset data : UInt32) {k : Nat} :
    let after := u.upload offset data
    let spot := uploadSpot u.mode offset
    spot.level = level.val → spot.row < u.currentParams.height level.val →
    k < mode.format.lanes → spot.column + k < u.currentParams.width level.val →
    after.TakesTexel mode x dither c lodBase level (spot.column + k) spot.row →
      (after.sample mode x dither c lodBase).1 =
        Argb.ofWord (after.decodeTexel mode.format (mode.format.lane data k)) := by
  intro after spot hl hrow hk hcolumn htexel
  have hparams : after.params = u.currentParams := (params_upload u offset data).trans (params_refresh hu)
  have hp : after.params.Shaped := hparams ▸ TexParams.shaped_derive ..
  have hdata : u.uploadData data = data := by
    simp only [uploadData, hswizzle, hswap, Bool.false_eq_true, if_false]
  have hmemory : after.memory = u.stored u.memory offset data := by rw [show after = _ from u.upload_eq offset data]
  rw [stored_eq hlinear hl, hdata, params_refresh hu] at hmemory
  have haddress : after.params.levelStart level +
      UInt32.ofNat (mode.format.bytes * (spot.row * after.params.width level.val + (spot.column + k))) =
        u.currentParams.levelStart level +
          UInt32.ofNat (u.mode.format.bytes * firstTexel u.currentParams u.mode offset) +
            UInt32.ofNat (mode.format.bytes * k) := by
    rw [firstTexel, hl, hparams, ← hformat, UInt32.add_assoc, ← UInt32.ofNat_add, ← Nat.mul_add, Nat.add_assoc]
  rw [sample_of_takesTexel hp htexel (hparams ▸ hcolumn) (hparams ▸ hrow), haddress, hmemory,
    Memory.readTexel_write32 _ (u.memory.le_places (by decide) hsize) _ _ _ hk]

end Samples

/-- a unit with 2^20 bytes and a texture of 256 by 32 texels of two bytes, from byte 1904 on -/
def wideTexels : TextureUnit :=
  (((initial .voodoo2 0 20).writeRegister Reg.textureMode 0xA00).writeRegister Reg.textureLod 0x700800).writeRegister
    Reg.textureBase 238

/-- the second texel of an upload to columns 6 and 7 of the last row of level 4 -/
theorem sample_uploaded_high :
    let after := wideTexels.upload 0x20083 0xF800001F
    let c : TexCoords := ⟨0x7812345678, 0x1FFFFFFFFF, 0⟩
    uploadSpot wideTexels.mode 0x20083 = ⟨4, 1, 6⟩ ∧
      after.TakesTexel (.decode 0xA00) 0 ⟨false, .four, 0⟩ c 1024 4 7 1 ∧
      (after.sample (.decode 0xA00) 0 ⟨false, .four, 0⟩ c 1024).1 = ⟨0xFF, 0xFF, 0, 0⟩ := by
  intro after c
  have hspot : uploadSpot wideTexels.mode 0x20083 = ⟨4, 1, 6⟩ := by decide +kernel
  have htexel : after.TakesTexel (.decode 0xA00) 0 ⟨false, .four, 0⟩ c 1024 4 7 1 := by
    constructor <;> decide +kernel
  have hsize : 4 ≤ wideTexels.memory.size := by
    rw [Memory.size, Memory.size_eq]
    decide
  have htexel' : after.TakesTexel (.decode 0xA00) 0 ⟨false, .four, 0⟩ c 1024 4
      ((uploadSpot wideTexels.mode 0x20083).column + 1) (uploadSpot wideTexels.mode 0x20083).row := by
    rwa [hspot]
  have hsample := sample_uploaded (fun h => absurd h (by decide)) rfl hsize (by decide) (by decide) rfl _ _
    (by decide +kernel) (by decide +kernel) (by decide) (by decide +kernel) htexel'
  exact ⟨hspot, htexel, hsample.trans (by decide +kernel)⟩

end TextureUnit
end Accel3D
