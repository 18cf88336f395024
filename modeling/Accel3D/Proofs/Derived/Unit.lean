/-
What a texture unit derives from its registers.

A unit works out its level parameters and the colors of its narrow channel tables only when they are needed. What it
holds in between is coherent (`TextureUnit.Coherent`): the tables hold their registers unpacked, and whatever is not
marked as stale is what the registers give. Every register write, upload and change of the coordinates keeps this. So
bringing a coherent unit up to date gives what working everything out from the register file alone gives
(`TextureUnit.upToDate`), and no register write and no upload can tell whether that was done before.

Results: `coherent_writeRegister`, `coherent_upload` (what keeps units coherent); `refreshAll_eq` (a unit made ready
for a triangle); `upToDate_writeRegister`, `upToDate_upload` (doing it before makes no difference).
-/
import Mathlib.Tactic.SplitIfs
import Accel3D.Texture.Unit

namespace Accel3D

/-! ## Narrow channel tables -/

namespace NccTable

def luminance (regs : Vector UInt32 12) (n : Fin 16) : Int32 :=
  Int32.ofNat (regs[n.val / 4] >>> UInt32.ofNat (8 * (n.val % 4))).toUInt8.toNat

def differences (regs : Vector UInt32 12) (first : Nat) (h : first ≤ 8) : Vector ColorDifference 4 :=
  Vector.ofFn fun n : Fin 4 => ColorDifference.decode regs[first + n.val]

/-- a table worked out from its registers alone -/
def ofRegisters (regs : Vector UInt32 12) : NccTable :=
  let unpacked : NccTable :=
    { registers := regs
      y := Vector.ofFn (luminance regs)
      i := differences regs 4 (by decide)
      q := differences regs 8 (by decide)
      texels := Vector.replicate 256 0
      stale := true }
  { unpacked with texels := Vector.ofFn unpacked.color, stale := false }

/-- a table that holds its registers unpacked, and the colors that they give unless they are marked as stale -/
structure Coherent (t : NccTable) : Prop where
  y : t.y = (ofRegisters t.registers).y
  i : t.i = (ofRegisters t.registers).i
  q : t.q = (ofRegisters t.registers).q
  texels : t.stale = false → t.texels = (ofRegisters t.registers).texels

theorem coherent_initial : initial.Coherent where
  y := by decide +kernel
  i := by decide +kernel
  q := by decide +kernel
  texels h := absurd h (by decide)

theorem coherent_ofRegisters (regs : Vector UInt32 12) : (ofRegisters regs).Coherent := ⟨rfl, rfl, rfl, fun _ => rfl⟩

theorem writeLuminance_luminance (regs : Vector UInt32 12) (n : Fin 12) (hn : n.val < 4) (data : UInt32) :
    writeLuminance (Vector.ofFn (luminance regs)) (Fin.ofNat 4 n.val) data =
      Vector.ofFn (luminance (regs.set n data)) := by
  have hp : (Fin.ofNat 4 n.val).val = n.val := Nat.mod_eq_of_lt hn
  apply Vector.ext
  intro i hi
  simp only [writeLuminance, Vector.getElem_set, Vector.getElem_ofFn, luminance, hp]
  by_cases hr : n.val = i / 4
  · rw [if_pos hr]
    obtain h | h | h | h : i % 4 = 0 ∨ i % 4 = 1 ∨ i % 4 = 2 ∨ i % 4 = 3 := by omega
    · rw [if_neg (by omega), if_neg (by omega), if_neg (by omega), if_pos (by omega), h]
      exact congrArg (fun w : UInt32 => Int32.ofNat w.toUInt8.toNat) UInt32.shiftRight_zero.symm
    · rw [if_neg (by omega), if_neg (by omega), if_pos (by omega), h]
      rfl
    · rw [if_neg (by omega), if_pos (by omega), h]
      rfl
    · rw [if_pos (by omega), h]
      rfl
  · rw [if_neg (by omega), if_neg (by omega), if_neg (by omega), if_neg (by omega), if_neg hr]

theorem luminance_set (regs : Vector UInt32 12) (n : Fin 12) (hn : 4 ≤ n.val) (data : UInt32) :
    luminance (regs.set n data) = luminance regs := by
  funext i
  have hi := i.isLt
  simp only [luminance, Vector.getElem_set, if_neg (show ¬ n.val = i.val / 4 by omega)]

theorem differences_set (regs : Vector UInt32 12) (first : Nat) (h : first ≤ 8) (n : Fin 12) (part : Fin 4)
    (hn : n.val = first + part.val) (data : UInt32) :
    (differences regs first h).set part (ColorDifference.decode data) = differences (regs.set n data) first h := by
  apply Vector.ext
  intro i hi
  rw [Vector.getElem_set, differences, differences, Vector.getElem_ofFn, Vector.getElem_ofFn, Vector.getElem_set]
  by_cases hp : part.val = i
  · rw [if_pos hp, if_pos (show n.val = first + i by omega)]
  · rw [if_neg hp, if_neg (show ¬ n.val = first + i by omega)]

theorem differences_set_of_ne (regs : Vector UInt32 12) (first : Nat) (h : first ≤ 8) (n : Fin 12)
    (hn : n.val < first ∨ first + 4 ≤ n.val) (data : UInt32) :
    differences (regs.set n data) first h = differences regs first h := by
  apply Vector.ext
  intro i hi
  rw [differences, differences, Vector.getElem_ofFn, Vector.getElem_ofFn, Vector.getElem_set,
    if_neg (show ¬ n.val = first + i by omega)]

theorem registers_write (t : NccTable) (n : Fin 12) (data : UInt32) :
    (t.write n data).registers = t.registers.set n data n.isLt := by
  unfold write
  simp only
  split_ifs <;> rfl

/-- a write unpacks its register, and leaves what the other registers unpack to -/
theorem coherent_write (t : NccTable) (h : t.Coherent) (n : Fin 12) (data : UInt32) : (t.write n data).Coherent := by
  have hn := n.isLt
  have hpart : (Fin.ofNat 4 n.val).val = n.val % 4 := rfl
  obtain ⟨hy, hi, hq, -⟩ := h
  have hlater : 4 ≤ n.val → t.y = Vector.ofFn (luminance (t.registers.set n data)) := fun h4 => by
    rw [hy, luminance_set t.registers n h4]
    rfl
  have hother : n.val < 4 ∨ 8 ≤ n.val → t.i = differences (t.registers.set n data) 4 (by decide) := fun h48 => by
    rw [hi, differences_set_of_ne t.registers 4 _ n h48]
    rfl
  have hearlier : n.val < 8 → t.q = differences (t.registers.set n data) 8 (by decide) := fun h8 => by
    rw [hq, differences_set_of_ne t.registers 8 _ n (.inl h8)]
    rfl
  unfold write
  simp only
  split_ifs with h4 h8
  · refine ⟨?_, hother (.inl h4), hearlier (by omega), fun hs => absurd hs (by simp)⟩
    show writeLuminance t.y _ data = _
    rw [hy]
    exact writeLuminance_luminance t.registers n h4 data
  · refine ⟨hlater (by omega), ?_, hearlier h8, fun hs => absurd hs (by simp)⟩
    show t.i.set _ _ = _
    rw [hi]
    exact differences_set t.registers 4 (by decide) n _ (by omega) data
  · refine ⟨hlater (by omega), hother (.inr (by omega)), ?_, fun hs => absurd hs (by simp)⟩
    show t.q.set _ _ = _
    rw [hq]
    exact differences_set t.registers 8 (by decide) n _ (by omega) data

/-- the colors worked out, and with them the whole table, are those of the registers -/
theorem refresh_eq {t : NccTable} (h : t.Coherent) : t.refresh = ofRegisters t.registers := by
  obtain ⟨registers, y, i, q, texels, stale⟩ := t
  obtain ⟨hy, hi, hq, ht⟩ := h
  simp only at hy hi hq
  subst hy hi hq
  cases stale with
  | true => rfl
  | false => rw [show texels = _ from ht rfl]; rfl

end NccTable

/-! ## Level parameters -/

theorem TexParams.derive_congr {regs regs' : RegisterFile} (memoryMask addressMask addressShift : UInt32)
    (h : ∀ q, TextureUnit.isTextureRegister q = true → regs.get q = regs'.get q) :
    derive regs memoryMask addressMask addressShift = derive regs' memoryMask addressMask addressShift := by
  simp only [derive, h Reg.textureLod rfl, h Reg.textureDetail rfl, h Reg.textureMode rfl, h Reg.textureBase rfl,
    h Reg.textureBase1 rfl, h Reg.textureBase2 rfl, h Reg.textureBase38 rfl]

namespace TextureUnit

/-! ## Units -/

/-- register `n` of a narrow channel table, in the unit's register file -/
def nccRegister (second : Bool) (n : Fin 12) : Reg :=
  Fin.ofNat 256 (Reg.nccTable.val + (if second then 12 else 0) + n.val)

def nccRegisters (u : TextureUnit) (second : Bool) : Vector UInt32 12 :=
  Vector.ofFn fun n => u.regs.get (nccRegister second n)

def upToDate (u : TextureUnit) : TextureUnit :=
  { u with
    params := u.currentParams
    stale := false
    ncc0 := NccTable.ofRegisters (u.nccRegisters false)
    ncc1 := NccTable.ofRegisters (u.nccRegisters true) }

/-- a unit whose tables hold its registers, and whose level parameters are those of its registers unless they are marked
as stale -/
structure Coherent (u : TextureUnit) : Prop where
  params : u.stale = false → u.params = u.currentParams
  ncc0 : u.ncc0.Coherent
  ncc1 : u.ncc1.Coherent
  registers0 : u.ncc0.registers = u.nccRegisters false
  registers1 : u.ncc1.registers = u.nccRegisters true

theorem nccRegister?_eq_some_iff (r : Reg) (second : Bool) (n : Fin 12) :
    nccRegister? r = some (second, n) ↔ r = nccRegister second n := by
  have hn := n.isLt
  have hfirst : Reg.nccTable.val = 201 := rfl
  have hr : (nccRegister second n).val = 201 + (if second then 12 else 0) + n.val := by
    rw [nccRegister, Fin.val_ofNat, hfirst]
    split <;> omega
  rw [Fin.ext_iff, hr, nccRegister?, hfirst]
  split
  · rename_i hin
    simp only [Bool.and_eq_true, decide_eq_true_eq] at hin
    simp only [Option.some.injEq, Prod.mk.injEq, Fin.ext_iff, Fin.val_ofNat]
    cases second with
    | true => simp only [decide_eq_true_eq, if_true]; omega
    | false => simp only [decide_eq_false_iff_not, Bool.false_eq_true, if_false]; omega
  · rename_i hout
    simp only [Bool.and_eq_true, decide_eq_true_eq] at hout
    simp only [reduceCtorEq, false_iff]
    split <;> omega

theorem not_isTextureRegister_ncc :
    ∀ (second : Bool) (n : Fin 12), isTextureRegister (nccRegister second n) = false := by
  decide +kernel

theorem nccRegisters_zero : ∀ second, NccTable.initial.registers =
    Vector.ofFn fun n => RegisterFile.zero.get (nccRegister second n) := by
  decide +kernel

theorem coherent_initial (v : Revision) (i : UInt64) (k : Nat) : (initial v i k).Coherent where
  params h := absurd h (by simp [initial])
  ncc0 := NccTable.coherent_initial
  ncc1 := NccTable.coherent_initial
  registers0 := nccRegisters_zero false
  registers1 := nccRegisters_zero true

theorem coherent_upToDate (u : TextureUnit) : u.upToDate.Coherent :=
  ⟨fun _ => rfl, NccTable.coherent_ofRegisters _, NccTable.coherent_ofRegisters _, rfl, rfl⟩

theorem upToDate_upToDate (u : TextureUnit) : u.upToDate.upToDate = u.upToDate := rfl

/-! ## Bringing a unit up to date -/

theorem refreshTables_eq {u : TextureUnit} (h : u.Coherent) :
    u.refreshTables =
      { u with
        ncc0 := NccTable.ofRegisters (u.nccRegisters false)
        ncc1 := NccTable.ofRegisters (u.nccRegisters true) } := by
  rw [refreshTables, NccTable.refresh_eq h.ncc0, NccTable.refresh_eq h.ncc1, h.registers0, h.registers1]

theorem coherent_refresh {u : TextureUnit} (h : u.Coherent) : u.refresh.Coherent := by
  unfold refresh
  split
  · rw [refreshTables_eq h]
    exact coherent_upToDate u
  · exact h

/-- **A unit made ready for a triangle** is what its register file alone gives. -/
theorem refreshAll_eq {u : TextureUnit} (h : u.Coherent) : u.refreshAll = u.upToDate := by
  unfold refreshAll refresh
  split
  · rw [refreshTables_eq h]
    rfl
  · rename_i hs
    rw [Bool.not_eq_true] at hs
    rw [refreshTables_eq h, upToDate, ← h.params hs, hs]

theorem refresh_upToDate (u : TextureUnit) : u.upToDate.refresh = u.upToDate := rfl

/-! ## Register writes -/

theorem currentParams_store (u : TextureUnit) (r : Reg) (data : UInt32) (h : isTextureRegister r = false) :
    (u.store r data).currentParams = u.currentParams := by
  refine TexParams.derive_congr _ _ _ fun q hq => ?_
  rw [store, RegisterFile.get_set, if_neg]
  rintro rfl
  exact Bool.false_ne_true (h.symm.trans hq)

theorem nccRegisters_store_of_ne (u : TextureUnit) (r : Reg) (data : UInt32) (second : Bool)
    (h : ∀ n, r ≠ nccRegister second n) : (u.store r data).nccRegisters second = u.nccRegisters second := by
  simp only [nccRegisters, store, RegisterFile.get_set, if_neg (h _)]

theorem nccRegisters_store (u : TextureUnit) (second : Bool) (n : Fin 12) (data : UInt32) :
    (u.store (nccRegister second n) data).nccRegisters second = (u.nccRegisters second).set n data n.isLt := by
  have hinj : ∀ m, nccRegister second n = nccRegister second m ↔ n = m := fun m => by
    rw [← nccRegister?_eq_some_iff, (nccRegister?_eq_some_iff _ second n).2 rfl, Option.some.injEq, Prod.mk.injEq]
    exact and_iff_right rfl
  apply Vector.ext
  intro i hi
  rw [Vector.getElem_set, nccRegisters, nccRegisters, Vector.getElem_ofFn, Vector.getElem_ofFn]
  simp only [store, RegisterFile.get_set, hinj, Fin.ext_iff]

theorem nccRegister_ne (n m : Fin 12) (second : Bool) : nccRegister second n ≠ nccRegister (!second) m := fun h => by
  have hn := (nccRegister?_eq_some_iff _ second n).2 rfl
  rw [h, (nccRegister?_eq_some_iff _ (!second) m).2 rfl, Option.some.injEq, Prod.mk.injEq] at hn
  cases second <;> cases hn.1

theorem coherent_writePalette {u : TextureUnit} (h : u.Coherent) (n : Fin 12) (data : UInt32) :
    (u.writePalette n data).Coherent := ⟨h.params, h.ncc0, h.ncc1, h.registers0, h.registers1⟩

/-- **A register write keeps a unit coherent.** -/
theorem coherent_writeRegister {u : TextureUnit} (h : u.Coherent) (r : Reg) (data : UInt32) :
    (u.writeRegister r data).Coherent := by
  unfold writeRegister
  split
  · rename_i ht
    have hne : ∀ second n, r ≠ nccRegister second n := fun second n he => by
      rw [he, not_isTextureRegister_ncc] at ht
      cases ht
    exact ⟨fun hs => absurd hs (by simp), h.ncc0, h.ncc1,
      h.registers0.trans (u.nccRegisters_store_of_ne r data false (hne false)).symm,
      h.registers1.trans (u.nccRegisters_store_of_ne r data true (hne true)).symm⟩
  · rename_i ht
    have hparams := u.currentParams_store r data (eq_false_of_ne_true ht)
    have hstored : u.stale = false → u.params = (u.store r data).currentParams :=
      fun hs => (h.params hs).trans hparams.symm
    split
    · rename_i hnone
      have hne : ∀ second n, r ≠ nccRegister second n := fun second n he => by
        rw [(nccRegister?_eq_some_iff r second n).2 he] at hnone
        cases hnone
      exact ⟨hstored, h.ncc0, h.ncc1, h.registers0.trans (u.nccRegisters_store_of_ne r data false (hne false)).symm,
        h.registers1.trans (u.nccRegisters_store_of_ne r data true (hne true)).symm⟩
    · rename_i n hn
      obtain rfl := (nccRegister?_eq_some_iff r true n).1 hn
      refine ⟨hstored, h.ncc0, NccTable.coherent_write _ h.ncc1 n data,
        h.registers0.trans (u.nccRegisters_store_of_ne _ data false fun m => nccRegister_ne n m true).symm, ?_⟩
      rw [NccTable.registers_write, h.registers1]
      exact (u.nccRegisters_store true n data).symm
    · rename_i n hn
      obtain rfl := (nccRegister?_eq_some_iff r false n).1 hn
      split
      · exact coherent_writePalette h n data
      · refine ⟨hstored, NccTable.coherent_write _ h.ncc0 n data, h.ncc1, ?_,
          h.registers1.trans (u.nccRegisters_store_of_ne _ data true fun m => nccRegister_ne n m false).symm⟩
        rw [NccTable.registers_write, h.registers0]
        exact (u.nccRegisters_store false n data).symm

/-- whether the unit was up to date before a register write makes no difference to what its registers give after it -/
theorem upToDate_writeRegister (u : TextureUnit) (r : Reg) (data : UInt32) :
    (u.upToDate.writeRegister r data).upToDate = (u.writeRegister r data).upToDate := by
  unfold writeRegister
  split
  · rfl
  · split
    · rfl
    · rfl
    · split <;> rfl

/-! ## Uploads -/

theorem mask_write8 (m : Memory) (address : UInt32) (v : UInt8) : (m.write8 address v).mask = m.mask := by
  rw [Memory.mask, Memory.mask, Memory.size_write8]

theorem mask_write32 (m : Memory) (address w : UInt32) : (m.write32 address w).mask = m.mask := by
  simp only [Memory.write32, mask_write8]

/-- what is derived depends on the size of the memory only -/
theorem coherent_withMemory {u : TextureUnit} (h : u.Coherent) (m : Memory) (hm : m.mask = u.memory.mask) :
    Coherent { u with memory := m } where
  params hs := (h.params hs).trans (by simp only [currentParams, hm])
  ncc0 := h.ncc0
  ncc1 := h.ncc1
  registers0 := h.registers0
  registers1 := h.registers1

/-- **An upload keeps a unit coherent.** -/
theorem coherent_upload {u : TextureUnit} (h : u.Coherent) (offset data : UInt32) :
    (u.upload offset data).Coherent := by
  have hr := coherent_refresh h
  unfold upload
  simp only
  split
  · exact hr
  · exact coherent_withMemory hr _ (mask_write32 ..)

/-- a refreshed unit is up to date but perhaps for its tables -/
theorem refresh_eq {u : TextureUnit} (h : u.Coherent) :
    ∃ t0 t1, u.refresh = { u.upToDate with ncc0 := t0, ncc1 := t1 } := by
  unfold refresh
  split
  · exact ⟨_, _, rfl⟩
  · rename_i hs
    rw [Bool.not_eq_true] at hs
    refine ⟨u.ncc0, u.ncc1, ?_⟩
    rw [upToDate, ← h.params hs, ← hs]

/-- whether the unit was up to date before an upload makes no difference to what its registers give after it, nor to
what is written -/
theorem upToDate_upload {u : TextureUnit} (h : u.Coherent) (offset data : UInt32) :
    (u.upToDate.upload offset data).upToDate = (u.upload offset data).upToDate := by
  obtain ⟨t0, t1, e⟩ := refresh_eq h
  unfold upload
  rw [refresh_upToDate, e]
  have haddress : uploadAddress { u.upToDate with ncc0 := t0, ncc1 := t1 } offset = u.upToDate.uploadAddress offset :=
    rfl
  simp only [haddress]
  cases u.upToDate.uploadAddress offset <;> rfl

theorem upToDate_withMemory (u : TextureUnit) (m : Memory) (hm : m.mask = u.memory.mask) :
    upToDate { u.upToDate with memory := m } = { u.upToDate with memory := m } := by
  have hparams : currentParams { u.upToDate with memory := m } = u.currentParams :=
    congrArg (fun last => TexParams.derive u.regs last u.addressMask u.addressShift) hm
  rw [upToDate, hparams]
  rfl

/-- an upload leaves a unit that is up to date so -/
theorem upload_upToDate (u : TextureUnit) (offset data : UInt32) :
    (u.upToDate.upload offset data).upToDate = u.upToDate.upload offset data := by
  rw [upload, refresh_upToDate]
  cases u.upToDate.uploadAddress offset with
  | none => rfl
  | some address => exact u.upToDate_withMemory _ (mask_write32 ..)

end TextureUnit
end Accel3D
