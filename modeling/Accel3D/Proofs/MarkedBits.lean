/-
The mode bits that only Voodoo 2 has.

The register definitions mark some bits as Voodoo 2's only (`Reg.laterBits`). On Voodoo 1 most of them are not seen: the
level parameters of a texture unit, a fill and the rules of a pixel are the same for two register files that differ in
marked bits (`RegisterFile.EqualButLater`). Three of them a pixel sees all the same (`RegisterFile.SameLive`): bit 28 of
fbzColorPath, by which iterated values are clamped, and bits 6 and 7 of fogMode, while the fog table is read.

Results: `TextureUnit.EqualButLater.writeRegister`, `upload` and `stage_eq` (texture units);
`FastFill.run_withFloatDepth` (fills); `PixelRules.heeded_congr` (pixels).
-/
import Mathlib.Algebra.Group.Int.Defs
import Mathlib.Algebra.Group.Nat.Defs
import Accel3D.Frame.Fill
import Accel3D.Proofs.Heeded
import Accel3D.Proofs.ModeCache

namespace Accel3D

/-! ## Words and register files -/

/-- words that agree in every bit but these -/
def EqualBut (bits : List Nat) (w v : UInt32) : Prop := ∀ i, i ∉ bits → bit w i = bit v i

namespace EqualBut

variable {bits : List Nat} {w v : UInt32}

theorem refl (bits : List Nat) (w : UInt32) : EqualBut bits w w := fun _ _ => rfl

theorem of_below (h : ∀ i < 32, i ∉ bits → bit w i = bit v i) : EqualBut bits w v := fun i hi => by
  by_cases h32 : i < 32
  · exact h i h32 hi
  · rw [bit_of_le w (Nat.not_lt.1 h32), bit_of_le v (Nat.not_lt.1 h32)]

theorem of_all (h : ((List.range 32).all fun i => bits.contains i || bit w i == bit v i) = true) :
    EqualBut bits w v := of_below fun i h32 hi => by
  have hbit := List.all_eq_true.1 h i (List.mem_range.2 h32)
  simpa [hi] using hbit

theorem or {m : UInt32} (h : ∀ i < 32, i ∉ bits → bit m i = false) (w : UInt32) : EqualBut bits (w ||| m) w :=
  of_below fun i h32 hi => by rw [bit_or, h i h32 hi, Bool.or_false]

theorem and {m : UInt32} (h : ∀ i < 32, i ∉ bits → bit m i = true) (w : UInt32) : EqualBut bits (w &&& m) w :=
  of_below fun i h32 hi => by rw [bit_and, h i h32 hi, Bool.and_true]

theorem eq_of_nil (h : EqualBut [] w v) : w = v :=
  UInt32.toNat_inj.1 (Nat.eq_of_testBit_eq fun i => h i List.not_mem_nil)

theorem field_eq (h : EqualBut bits w v) (low width : Nat) (hout : ∀ i ∈ bits, i < low ∨ low + width ≤ i) :
    field w low width = field v low width := by
  refine field_congr low width fun i hl hu => h i fun hi => ?_
  have := hout i hi
  omega

end EqualBut

theorem signed_shift (w : UInt32) (low : UInt32) (width : Nat) (hlow : low.toNat < 32) :
    signed (w >>> low) width = Int.bmod (field w low.toNat width) (2 ^ width) := by
  rw [signed, field, UInt32.toNat_shiftRight, Nat.mod_eq_of_lt hlow, Int.natCast_emod]
  exact (Int.emod_bmod ..).symm

/-- the bits of a register that are marked as Voodoo 2's only -/
def Reg.laterBits (r : Reg) : List Nat :=
  if r = fbzColorPath then [28, 29]
  else if r = fbzMode then [21]
  else if r = fogMode then [6, 7]
  else if r = textureLod then [27]
  else if r = textureDetail then [17, 18, 19, 20, 21]
  else []

namespace RegisterFile

/-- register files that agree in every bit that is not marked -/
def EqualButLater (f g : RegisterFile) : Prop := ∀ r : Reg, EqualBut r.laterBits (f.get r) (g.get r)

namespace EqualButLater

variable {f g : RegisterFile}

theorem refl (f : RegisterFile) : f.EqualButLater f := fun _ _ _ => rfl

theorem get_eq (h : f.EqualButLater g) (r : Reg) (hr : r.laterBits = []) : f.get r = g.get r :=
  EqualBut.eq_of_nil (hr ▸ h r)

theorem set (h : f.EqualButLater g) (r : Reg) {w v : UInt32} (hw : EqualBut r.laterBits w v) :
    (f.set r w).EqualButLater (g.set r v) := by
  intro q
  rw [get_set, get_set]
  split
  · rename_i hq
    exact hq ▸ hw
  · exact h q

end EqualButLater
end RegisterFile

/-! ## Decoded modes -/

theorem ColorPath.decode_congr {w v : UInt32} (h : EqualBut [28, 29] w v) (hclamp : bit w 28 = bit v 28) :
    decode w = decode v := by
  simp only [decode, h.field_eq 0 2 (by decide), h.field_eq 2 2 (by decide), h.field_eq 5 2 (by decide),
    h 4 (by decide), h 7 (by decide), h 26 (by decide), h 27 (by decide), hclamp]

theorem FrameMode.decode_later {w v : UInt32} (h : EqualBut [21] w v) :
    decode v = { decode w with floatDepth := bit v 21 } := by
  simp only [decode, h.field_eq 5 3 (by decide), h.field_eq 14 2 (by decide), h 0 (by decide), h 1 (by decide),
    h 2 (by decide), h 3 (by decide), h 4 (by decide), h 8 (by decide), h 9 (by decide), h 10 (by decide),
    h 11 (by decide), h 12 (by decide), h 13 (by decide), h 16 (by decide), h 17 (by decide), h 18 (by decide),
    h 19 (by decide), h 20 (by decide)]

theorem FogMode.decode_later {w v : UInt32} (h : EqualBut [6, 7] w v) :
    decode v = { decode w with dither := bit v 6, zones := bit v 7 } := by
  simp only [decode, h.field_eq 3 2 (by decide), h 0 (by decide), h 1 (by decide), h 2 (by decide), h 5 (by decide)]

theorem LodMode.decode_congr {w v : UInt32} (h : EqualBut [27] w v) : decode w = decode v := by
  have hbias : signed (w >>> 12) 6 = signed (v >>> 12) 6 := by
    rw [signed_shift w 12 6 (by decide), signed_shift v 12 6 (by decide)]
    exact congrArg (fun n : Nat => Int.bmod n (2 ^ 6)) (h.field_eq 12 6 (by decide))
  simp only [decode, hbias, h.field_eq 0 6 (by decide), h.field_eq 6 6 (by decide), h.field_eq 21 2 (by decide),
    h 18 (by decide), h 19 (by decide), h 20 (by decide), h 24 (by decide), h 25 (by decide), h 26 (by decide)]

theorem DetailMode.decode_congr {w v : UInt32} (h : EqualBut [17, 18, 19, 20, 21] w v) : decode w = decode v := by
  have hbias : signed (w >>> 8) 6 = signed (v >>> 8) 6 := by
    rw [signed_shift w 8 6 (by decide), signed_shift v 8 6 (by decide)]
    exact congrArg (fun n : Nat => Int.bmod n (2 ^ 6)) (h.field_eq 8 6 (by decide))
  simp only [decode, hbias, h.field_eq 0 8 (by decide), h.field_eq 14 3 (by decide)]

/-- the marked bits of fogMode are not heeded but for fog from the table -/
theorem FogMode.heeded_congr {w v : UInt32} (h : EqualBut [6, 7] w v)
    (hread : (decode w).readsTable = true → bit w 6 = bit v 6 ∧ bit w 7 = bit v 7) :
    (decode w).heeded = (decode v).heeded := by
  have hsame : (decode v).readsTable = (decode w).readsTable := by
    rw [decode_later h]
    rfl
  unfold heeded
  rw [hsame]
  cases hr : (decode w).readsTable with
  | false =>
    rw [decode_later h]
    rfl
  | true =>
    obtain ⟨h6, h7⟩ := hread hr
    rw [decode_later h, ← h6, ← h7]
    rfl

/-! ## Texture units -/

namespace TextureUnit

def withRegs (u : TextureUnit) (regs : RegisterFile) : TextureUnit := { u with regs := regs }

/-- units that differ in marked bits of their registers only -/
def EqualButLater (u v : TextureUnit) : Prop := ∃ regs, u.regs.EqualButLater regs ∧ v = u.withRegs regs

/-- the level parameters do not depend on marked bits -/
theorem currentParams_withRegs (u : TextureUnit) {regs : RegisterFile} (h : u.regs.EqualButLater regs) :
    (u.withRegs regs).currentParams = u.currentParams := by
  have hlod : LodMode.decode (u.regs.get Reg.textureLod) = LodMode.decode (regs.get Reg.textureLod) :=
    LodMode.decode_congr (h Reg.textureLod)
  have hdetail : DetailMode.decode (u.regs.get Reg.textureDetail) = DetailMode.decode (regs.get Reg.textureDetail) :=
    DetailMode.decode_congr (h Reg.textureDetail)
  simp only [currentParams, TexParams.derive, withRegs, hlod, hdetail, h.get_eq Reg.textureMode rfl,
    h.get_eq Reg.textureBase rfl, h.get_eq Reg.textureBase1 rfl, h.get_eq Reg.textureBase2 rfl,
    h.get_eq Reg.textureBase38 rfl]
  rfl

theorem laterBits_ncc {r : Reg} {n : Bool × Fin 12} (h : nccRegister? r = some n) : r.laterBits = [] := by
  have hnone : ∀ q : Reg, nccRegister? q = none ∨ q.laterBits = [] := by decide +kernel
  obtain hr | hr := hnone r
  · rw [hr] at h
    cases h
  · exact hr

namespace EqualButLater

variable {u v : TextureUnit}

theorem modeWord_eq (h : u.EqualButLater v) : v.modeWord = u.modeWord := by
  obtain ⟨regs, hregs, rfl⟩ := h
  exact (hregs.get_eq Reg.textureMode rfl).symm

theorem mode_eq (h : u.EqualButLater v) : v.mode = u.mode := by rw [mode, mode, h.modeWord_eq]

theorem modeOnly_eq (h : u.EqualButLater v) : v.modeOnly = u.modeOnly := by
  unfold modeOnly
  rw [h.modeWord_eq]
  obtain ⟨regs, -, rfl⟩ := h
  rfl

/-- no pixel sees the marked bits of a stage -/
theorem stage_eq (h : u.EqualButLater v) (lodBase : Int) (combine : Combine) :
    (TextureStage.ofUnit u lodBase combine).heeded = (TextureStage.ofUnit v lodBase combine).heeded := by
  simp only [TextureStage.heeded, TextureStage.ofUnit, h.mode_eq, h.modeOnly_eq]

theorem triangleLod_eq (h : u.EqualButLater v) : v.triangleLod = u.triangleLod := by
  obtain ⟨regs, -, rfl⟩ := h
  rfl

theorem setGradients (h : u.EqualButLater v) (f : TexGradients → TexGradients) :
    EqualButLater { u with gradients := f u.gradients } { v with gradients := f v.gradients } := by
  obtain ⟨regs, hregs, rfl⟩ := h
  exact ⟨regs, hregs, rfl⟩

theorem refresh (h : u.EqualButLater v) : u.refresh.EqualButLater v.refresh := by
  obtain ⟨regs, hregs, rfl⟩ := h
  have hparams := u.currentParams_withRegs hregs
  have hstale : (u.withRegs regs).stale = u.stale := rfl
  unfold TextureUnit.refresh
  rw [hparams, hstale]
  split
  · exact ⟨regs, hregs, rfl⟩
  · exact ⟨regs, hregs, rfl⟩

theorem refreshAll (h : u.EqualButLater v) : u.refreshAll.EqualButLater v.refreshAll := by
  obtain ⟨regs, hregs, hv⟩ := h.refresh
  unfold TextureUnit.refreshAll
  rw [hv]
  exact ⟨regs, hregs, rfl⟩

/-- a write of words that agree in every bit that is not marked -/
theorem writeRegister (h : u.EqualButLater v) (r : Reg) {x y : UInt32} (hxy : EqualBut r.laterBits x y) :
    (u.writeRegister r x).EqualButLater (v.writeRegister r y) := by
  obtain ⟨regs, hregs, rfl⟩ := h
  have hset := hregs.set r hxy
  unfold TextureUnit.writeRegister
  split
  · exact ⟨_, hset, rfl⟩
  · split
    · exact ⟨_, hset, rfl⟩
    · rename_i n hn
      obtain rfl := (laterBits_ncc hn ▸ hxy).eq_of_nil
      exact ⟨_, hset, rfl⟩
    · rename_i n hn
      obtain rfl := (laterBits_ncc hn ▸ hxy).eq_of_nil
      split
      · exact ⟨regs, hregs, rfl⟩
      · exact ⟨_, hset, rfl⟩

theorem upload (h : u.EqualButLater v) (offset data : UInt32) :
    (u.upload offset data).EqualButLater (v.upload offset data) := by
  have hfresh := h.refresh
  have haddress : v.refresh.uploadAddress offset = u.refresh.uploadAddress offset := by
    unfold uploadAddress
    rw [hfresh.mode_eq]
    obtain ⟨regs, -, hv⟩ := hfresh
    rw [hv]
    rfl
  have hdata : v.refresh.uploadData data = u.refresh.uploadData data := by
    obtain ⟨regs, hregs, hv⟩ := hfresh
    have hlod : LodMode.decode (u.refresh.regs.get Reg.textureLod) = LodMode.decode (regs.get Reg.textureLod) :=
      LodMode.decode_congr (hregs Reg.textureLod)
    rw [hv, uploadData, uploadData, hlod]
    rfl
  unfold TextureUnit.upload
  simp only [haddress, hdata]
  obtain ⟨regs, hregs, hv⟩ := hfresh
  rw [hv]
  cases u.refresh.uploadAddress offset with
  | none => exact ⟨regs, hregs, rfl⟩
  | some address => exact ⟨regs, hregs, rfl⟩

end EqualButLater
end TextureUnit

/-! ## Fills -/

namespace FastFill

def withFloatDepth (f : FastFill) (b : Bool) : FastFill := { f with mode := { f.mode with floatDepth := b } }

variable (f : FastFill) (b : Bool)

theorem fillRun_withFloatDepth (base : UInt32) (row : Int) (value : Nat → UInt16) (n x : Nat) (m : Memory) :
    (f.withFloatDepth b).fillRun base row value n x m = f.fillRun base row value n x m := by
  induction n generalizing x m with
  | zero => rfl
  | succ n ih => exact ih _ _

theorem fillRows_withFloatDepth (n y : Nat) (c : Canvas) :
    (f.withFloatDepth b).fillRows n y c = f.fillRows n y c := by
  have hcolor : ∀ y c, (f.withFloatDepth b).fillColor y c = f.fillColor y c := fun y c => by
    simp only [fillColor, fillRun_withFloatDepth]
    rfl
  have haux : ∀ y c, (f.withFloatDepth b).fillAux y c = f.fillAux y c := fun y c => by
    simp only [fillAux, fillRun_withFloatDepth]
    rfl
  induction n generalizing y c with
  | zero => rfl
  | succ n ih => rw [fillRows, fillRows, ih, hcolor, haux]

theorem run_withFloatDepth : (f.withFloatDepth b).run = f.run := by
  funext c
  exact f.fillRows_withFloatDepth b f.height f.clip.low c

end FastFill

/-! ## Rules -/

/-- register files that agree in the marked bits that a pixel sees on Voodoo 1: that of fbzColorPath that has iterated
values clamped, and those of fogMode while the table is read -/
structure RegisterFile.SameLive (f g : RegisterFile) : Prop where
  clamp : bit (f.get Reg.fbzColorPath) 28 = bit (g.get Reg.fbzColorPath) 28
  fog : (FogMode.decode (f.get Reg.fogMode)).readsTable = true →
    bit (f.get Reg.fogMode) 6 = bit (g.get Reg.fogMode) 6 ∧ bit (f.get Reg.fogMode) 7 = bit (g.get Reg.fogMode) 7

/-- pixels of Voodoo 1 see no other marked bit -/
theorem PixelRules.heeded_congr {f g : RegisterFile} (h : f.EqualButLater g) (hlive : f.SameLive g)
    (combine : Combine) :
    (ofRegisters .voodoo1 f combine).heeded = (ofRegisters .voodoo1 g combine).heeded := by
  have hframe := FrameMode.decode_later (h Reg.fbzMode)
  have hpath : ColorPath.decode (f.get Reg.fbzColorPath) = ColorPath.decode (g.get Reg.fbzColorPath) :=
    ColorPath.decode_congr (h Reg.fbzColorPath) hlive.clamp
  have hfog := FogMode.heeded_congr (h Reg.fogMode) hlive.fog
  simp only [heeded, ofRegisters, hframe, hpath, hfog, h.get_eq Reg.alphaMode rfl, h.get_eq Reg.clipLeftRight rfl,
    h.get_eq Reg.clipLowYHighY rfl, h.get_eq Reg.color0 rfl, h.get_eq Reg.color1 rfl, h.get_eq Reg.fogColor rfl,
    h.get_eq Reg.zaColor rfl, h.get_eq Reg.chromaKey rfl, h.get_eq Reg.chromaRange rfl]
  rfl

end Accel3D
