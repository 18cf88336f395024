/-
What uploads leave alone, and when their order does not matter.

An upload writes four bytes, whatever the size of its level. In a level of rows that are at least as long it stays in
the row. A shorter row is less than an upload, which then goes on into the rows after it, and from one of the last rows
out of what is set aside for the level: those are the uploads that change other levels
(`TextureUnit.exists_changed_of_not_fits`).

An upload that stays in its level changes nothing else. So what a level holds depends on the uploads to this level only
(`TextureUnit.read8_storedAll_filter`), and uploads to levels that do not overlap may come in any order.

Results: `TextureUnit.uploads_by_level`.
-/
import Accel3D.Proofs.LevelLayout
import Accel3D.Proofs.Uploads

namespace Accel3D

namespace Memory

theorem index_congr {m m' : Memory} (h : m.logSize = m'.logSize) (a : UInt32) : m.index a = m'.index a := by
  rw [index_eq, index_eq, places, places, h]

/-- a byte after bytes were written depends on what it was before, and on nothing else in memory -/
theorem read8_writeBytes_congr {m m' : Memory} (hm : m.logSize = m'.logSize) {b : UInt32} (h : m.read8 b = m'.read8 b)
    (a : UInt32) (v : Nat → UInt8) (n : Nat) : (m.writeBytes a v n).read8 b = (m'.writeBytes a v n).read8 b := by
  induction n with
  | zero => exact h
  | succ n ih =>
    simp only [writeBytes, read8_write8, index_writeBytes, ih, index_congr hm]

end Memory

namespace TextureUnit

/-! ## Uploads inside their level -/

/-- an upload to a row and a column of a level -/
structure InLevel (p : TexParams) (mode : TextureMode) (l : Fin 9) (offset : UInt32) : Prop where
  level : (uploadSpot mode offset).level = l.val
  row : (uploadSpot mode offset).row < p.height l.val
  column : (uploadSpot mode offset).column < p.width l.val

/-- an upload to a row that is long enough for it, or that has as many texels from its first one to the end of what is
set aside for the level -/
def Fits (p : TexParams) (mode : TextureMode) (l : Fin 9) (offset : UInt32) : Prop :=
  mode.format.lanes ≤ p.width l.val ∨
    (uploadSpot mode offset).row * p.width l.val + mode.format.lanes ≤ max (p.width l.val * p.height l.val) 4

theorem lanes_dvd_column (mode : TextureMode) (offset : UInt32) : mode.format.lanes ∣ (uploadSpot mode offset).column := by
  unfold uploadSpot TexelFormat.lanes
  simp only
  split <;> [skip; split] <;> exact Nat.dvd_mul_right _ _

theorem lanes_dvd_width {p : TexParams} (hp : p.Shaped) (format : TexelFormat) {l : Nat} (hl : l ≤ 8)
    (h : format.lanes ≤ p.width l) : format.lanes ∣ p.width l := by
  obtain ⟨k, -, hk⟩ := hp.width.shiftRight hl
  have hpositive : 0 < 2 ^ k := Nat.two_pow_pos k
  have hwidth : p.width l = 2 ^ k := by
    rw [TexParams.width, hk]
    omega
  obtain ⟨j, hj⟩ : ∃ j, format.lanes = 2 ^ j := by
    unfold TexelFormat.lanes
    split
    · exact ⟨1, rfl⟩
    · exact ⟨2, rfl⟩
  rw [hwidth, hj] at h ⊢
  exact Nat.pow_dvd_pow 2 ((Nat.pow_le_pow_iff_right (by decide)).1 h)

theorem firstTexel_lt {p : TexParams} (hp : p.Shaped) {mode : TextureMode} {l : Fin 9} {offset : UInt32}
    (h : InLevel p mode l offset) : firstTexel p mode offset < 65536 := by
  have hl : l.val ≤ 8 := Nat.le_of_lt_succ l.isLt
  have hcolumn := h.column
  have hrow : ((uploadSpot mode offset).row + 1) * p.width l.val ≤ 256 * 256 :=
    Nat.mul_le_mul (h.row.trans_le (hp.height.shiftRight hl).lt) (hp.width.shiftRight hl).lt
  rw [Nat.succ_mul] at hrow
  rw [firstTexel, h.level]
  omega

/-- an upload to a level ends in what is set aside for it exactly if it fits -/
theorem fits_iff {p : TexParams} (hp : p.Shaped) {mode : TextureMode} {l : Fin 9} {offset : UInt32}
    (h : InLevel p mode l offset) :
    Fits p mode l offset ↔
      firstTexel p mode offset + mode.format.lanes ≤ max (p.width l.val * p.height l.val) 4 := by
  have hl : l.val ≤ 8 := Nat.le_of_lt_succ l.isLt
  obtain ⟨j, hj⟩ := lanes_dvd_column mode offset
  have hcolumn := h.column
  rw [firstTexel, h.level]
  by_cases hlong : mode.format.lanes ≤ p.width l.val
  · -- the row has room for the upload, and the level has the row
    obtain ⟨k, hk⟩ := lanes_dvd_width hp mode.format hl hlong
    have hlanes : (uploadSpot mode offset).column + mode.format.lanes ≤ p.width l.val := by
      rw [hj, hk] at hcolumn ⊢
      rw [← Nat.mul_succ]
      exact Nat.mul_le_mul_left _ (Nat.lt_of_mul_lt_mul_left hcolumn)
    have hrows : ((uploadSpot mode offset).row + 1) * p.width l.val ≤ p.height l.val * p.width l.val :=
      Nat.mul_le_mul_right _ h.row
    rw [Nat.succ_mul, Nat.mul_comm (p.height l.val)] at hrows
    exact iff_of_true (.inl hlong) (by omega)
  · -- the only column is the first
    have hfirst : (uploadSpot mode offset).column = 0 := by
      rw [hj] at hcolumn ⊢
      rcases Nat.eq_zero_or_pos j with rfl | hpositive
      · rfl
      · have hle := Nat.le_mul_of_pos_right mode.format.lanes hpositive
        omega
    rw [Fits, or_iff_right hlong, hfirst, Nat.add_zero]

variable {u : TextureUnit}

/-- an upload to a level as bytes from where the level begins -/
theorem stored_eq_writeBytes (hlinear : u.linearUpload = false) {l : Fin 9} {offset : UInt32}
    (hl : (uploadSpot u.mode offset).level = l.val) (m : Memory) (data : UInt32) :
    u.stored m offset data = m.writeBytes
      (u.refresh.params.levelStart l + UInt32.ofNat (u.mode.format.bytes * firstTexel u.refresh.params u.mode offset))
      (fun i => (u.uploadData data >>> UInt32.ofNat (8 * i)).toUInt8) 4 := by
  rw [stored_eq hlinear hl, Memory.write32_eq]

/-- the bytes that an upload wrote -/
theorem read8_stored (hlinear : u.linearUpload = false) {l : Fin 9} {offset : UInt32}
    (hl : (uploadSpot u.mode offset).level = l.val) {m : Memory} (hm : 4 ≤ m.places) (data : UInt32) {i : Nat}
    (hi : i < 4) :
    (u.stored m offset data).read8 (u.refresh.params.levelStart l +
      UInt32.ofNat (u.mode.format.bytes * firstTexel u.refresh.params u.mode offset + i)) =
        (u.uploadData data >>> UInt32.ofNat (8 * i)).toUInt8 := by
  rw [stored_eq_writeBytes hlinear hl, UInt32.ofNat_add, ← UInt32.add_assoc]
  exact m.read8_writeBytes _ _ hm hi

/-- **An upload that fits changes its level only.** -/
theorem read8_stored_of_notMem (hlinear : u.linearUpload = false) (hp : u.refresh.params.Shaped) {l : Fin 9}
    {offset : UInt32} (h : InLevel u.refresh.params u.mode l offset) (hfits : Fits u.refresh.params u.mode l offset)
    {m : Memory} (hm : m.logSize = u.memory.logSize) (data : UInt32) {a : UInt32}
    (ha : u.memory.index a ∉ u.refresh.placesFrom l (reservedBytes u.refresh.params u.mode.format l.val)) :
    (u.stored m offset data).read8 a = m.read8 a := by
  rw [stored_eq_writeBytes hlinear h.level]
  refine m.read8_writeBytes_of_ne _ _ fun i hi heq =>
    ha ⟨u.mode.format.bytes * firstTexel u.refresh.params u.mode offset + i, ?_, ?_⟩
  · have hend := Nat.mul_le_mul_left u.mode.format.bytes ((fits_iff hp h).1 hfits)
    rw [Nat.mul_add, TexelFormat.bytes_mul_lanes] at hend
    rw [reservedBytes, Nat.mul_comm _ u.mode.format.bytes]
    omega
  · rw [memory_refresh, UInt32.ofNat_add, ← UInt32.add_assoc, ← Memory.index_congr hm a, ← heq]
    exact Memory.index_congr hm _

/-- **One that does not fit changes what comes after its level.** -/
theorem exists_changed_of_not_fits (hlinear : u.linearUpload = false) (hp : u.refresh.params.Shaped)
    (hsize : 2 ^ 18 ≤ u.memory.size) {l : Fin 9} {offset : UInt32} (h : InLevel u.refresh.params u.mode l offset)
    (hfits : ¬ Fits u.refresh.params u.mode l offset) :
    ∃ data a, u.memory.index a ∉ u.refresh.placesFrom l (reservedBytes u.refresh.params u.mode.format l.val) ∧
      (u.upload offset data).memory.read8 a ≠ u.memory.read8 a := by
  let first := u.mode.format.bytes * firstTexel u.refresh.params u.mode offset
  let a := u.refresh.params.levelStart l + UInt32.ofNat (first + 3)
  -- the last of the four bytes is none of the level
  have hlast : reservedBytes u.refresh.params u.mode.format l.val ≤ first + 3 := by
    have hend := Nat.lt_of_not_le (mt (fits_iff hp h).2 hfits)
    have hbytes := Nat.mul_le_mul_left u.mode.format.bytes hend
    have hpositive := u.mode.format.bytes_bounds.1
    rw [Nat.mul_succ, Nat.mul_add, TexelFormat.bytes_mul_lanes] at hbytes
    rw [reservedBytes, Nat.mul_comm _ u.mode.format.bytes]
    omega
  have hplaces : first + 4 ≤ u.memory.places := by
    have hfirst : first ≤ 2 * 65535 :=
      Nat.mul_le_mul u.mode.format.bytes_bounds.2 (Nat.le_of_lt_succ (firstTexel_lt hp h))
    exact u.memory.le_places (by omega) (by omega)
  have hout : u.memory.index a ∉ u.refresh.placesFrom l (reservedBytes u.refresh.params u.mode.format l.val) := by
    rintro ⟨i, hi, heq⟩
    rw [memory_refresh] at heq
    have hsame := u.memory.index_add_inj _ (by omega) (by omega) heq
    omega
  obtain ⟨data, hdata⟩ := u.exists_upload_ne (u.memory.read8 a) (show 3 < 4 by decide)
  refine ⟨data, a, hout, ?_⟩
  rw [upload_eq]
  exact (read8_stored hlinear h.level (by omega) data (by decide)).trans_ne hdata

/-! ## Several uploads -/

structure Upload where
  offset : UInt32
  data : UInt32
deriving DecidableEq, Repr

def uploads (u : TextureUnit) (ws : List Upload) : TextureUnit := ws.foldl (fun u w => u.upload w.offset w.data) u

def storedAll (u : TextureUnit) (m : Memory) (ws : List Upload) : Memory :=
  ws.foldl (fun m w => u.stored m w.offset w.data) m

theorem stale_refresh (u : TextureUnit) : u.refresh.stale = false := by
  unfold refresh
  split
  · rfl
  · rename_i hs
    exact Bool.not_eq_true _ ▸ hs

theorem refresh_of_not_stale {u : TextureUnit} (h : u.stale = false) : u.refresh = u := by
  rw [refresh, if_neg (by rw [h]; decide)]

/-- an upload does not change where others go -/
theorem stored_upload (u : TextureUnit) (offset data : UInt32) : (u.upload offset data).stored = u.stored := by
  funext m offset' data'
  have hfresh : (u.upload offset data).refresh = u.upload offset data := by
    rw [upload_eq]
    exact refresh_of_not_stale u.stale_refresh
  have haddress : (u.upload offset data).uploadAddress offset' = u.refresh.uploadAddress offset' := by
    rw [upload_eq]
    rfl
  have hdata : (u.upload offset data).uploadData data' = u.uploadData data' := by
    rw [upload_eq, uploadData, uploadData, ← u.regs_refresh]
  rw [stored, stored, hfresh, haddress, hdata]

theorem memory_uploads (u : TextureUnit) (ws : List Upload) : (u.uploads ws).memory = u.storedAll u.memory ws := by
  induction ws generalizing u with
  | nil => rfl
  | cons w ws ih =>
    have hmemory : (u.upload w.offset w.data).memory = u.stored u.memory w.offset w.data := by rw [upload_eq]
    show ((u.upload w.offset w.data).uploads ws).memory = _
    rw [ih, storedAll, stored_upload, hmemory]
    rfl

theorem read8_stored_congr (u : TextureUnit) {m m' : Memory} (hm : m.logSize = m'.logSize) {a : UInt32}
    (h : m.read8 a = m'.read8 a) (offset data : UInt32) :
    (u.stored m offset data).read8 a = (u.stored m' offset data).read8 a := by
  unfold stored
  split
  · exact h
  · rw [Memory.write32_eq, Memory.write32_eq]
    exact Memory.read8_writeBytes_congr hm h _ _ _

/-- uploads that leave a byte alone may be left out -/
theorem read8_storedAll_filter {a : UInt32} (keep : Upload → Bool) (ws : List Upload)
    (hout : ∀ w ∈ ws, keep w = false → ∀ m : Memory, m.logSize = u.memory.logSize →
      (u.stored m w.offset w.data).read8 a = m.read8 a)
    {m m' : Memory} (hm : m.logSize = u.memory.logSize) (hm' : m'.logSize = u.memory.logSize)
    (h : m.read8 a = m'.read8 a) : (u.storedAll m ws).read8 a = (u.storedAll m' (ws.filter keep)).read8 a := by
  induction ws generalizing m m' with
  | nil => exact h
  | cons w ws ih =>
    have hrest := fun w' hw' => hout w' (List.mem_cons_of_mem w hw')
    have hnext := (u.logSize_stored m w.offset w.data).trans hm
    cases hkeep : keep w with
    | true =>
      rw [List.filter_cons_of_pos hkeep]
      exact ih hrest hnext ((u.logSize_stored m' w.offset w.data).trans hm')
        (u.read8_stored_congr (hm.trans hm'.symm) h w.offset w.data)
    | false =>
      rw [List.filter_cons_of_neg (by rw [hkeep]; decide)]
      exact ih hrest hnext hm' ((hout w List.mem_cons_self hkeep m hm).trans h)

/-! ## Uploads to levels that do not overlap -/

def Upload.ofLevel (mode : TextureMode) (l : Fin 9) (w : Upload) : Bool := (uploadSpot mode w.offset).level == l.val

/-- what is set aside for a level, once the unit is up to date -/
def reservedPlaces (u : TextureUnit) (l : Fin 9) : Set Nat :=
  u.refresh.placesFrom l (reservedBytes u.refresh.params u.mode.format l.val)

/-- levels that are held do not overlap, from a single base from where all of them fit -/
theorem pairwiseDisjoint_reservedPlaces (hu : u.FollowsRegisters)
    (hsingle : (LodMode.decode (u.regs.get Reg.textureLod)).multiBase = false)
    (hfit : u.memory.index (u.refresh.baseAddress Reg.textureBase) + bytesBefore u.refresh.params u.mode.format 9 ≤
      u.memory.places) :
    {l : Fin 9 | bit u.refresh.params.lodMask l.val = true}.PairwiseDisjoint u.reservedPlaces := by
  rw [← u.regs_refresh] at hsingle
  rw [← u.memory_refresh, ← u.mode_refresh] at hfit
  have hdisjoint := pairwiseDisjoint_placesFrom ((params_refresh hu).trans u.currentParams_refresh.symm) hsingle hfit
  rwa [mode_refresh] at hdisjoint

section Order

variable {levels : Set (Fin 9)} {ws : List Upload} {a : UInt32}

/-- **What a level holds depends on the uploads to it only.** -/
theorem read8_uploads_of_mem (hlinear : u.linearUpload = false) (hp : u.refresh.params.Shaped)
    (hdisjoint : levels.PairwiseDisjoint u.reservedPlaces)
    (hfit : ∀ w ∈ ws, ∃ l ∈ levels,
      InLevel u.refresh.params u.mode l w.offset ∧ Fits u.refresh.params u.mode l w.offset)
    {l : Fin 9} (hl : l ∈ levels) (ha : u.memory.index a ∈ u.reservedPlaces l) :
    (u.uploads ws).memory.read8 a = (u.uploads (ws.filter (Upload.ofLevel u.mode l))).memory.read8 a := by
  rw [memory_uploads, memory_uploads]
  refine read8_storedAll_filter _ ws (fun w hw hother m hm => ?_) rfl rfl rfl
  obtain ⟨l', hl', hlevel, hfits⟩ := hfit w hw
  have hne : l' ≠ l := by
    rintro rfl
    rw [Upload.ofLevel, hlevel.level, beq_self_eq_true] at hother
    cases hother
  exact read8_stored_of_notMem hlinear hp hlevel hfits hm w.data fun ha' =>
    Set.disjoint_left.1 (hdisjoint hl' hl hne) ha' ha

theorem read8_uploads_of_notMem (hlinear : u.linearUpload = false) (hp : u.refresh.params.Shaped)
    (hfit : ∀ w ∈ ws, ∃ l ∈ levels,
      InLevel u.refresh.params u.mode l w.offset ∧ Fits u.refresh.params u.mode l w.offset)
    (ha : ∀ l ∈ levels, u.memory.index a ∉ u.reservedPlaces l) :
    (u.uploads ws).memory.read8 a = u.memory.read8 a := by
  have hnone : ws.filter (fun _ => false) = [] := List.filter_false ws
  rw [memory_uploads]
  refine (read8_storedAll_filter (fun _ => false) ws (fun w hw _ m hm => ?_) rfl rfl rfl).trans (by rw [hnone]; rfl)
  obtain ⟨l, hl, hlevel, hfits⟩ := hfit w hw
  exact read8_stored_of_notMem hlinear hp hlevel hfits hm w.data (ha l hl)

end Order

/-- **Uploads that fit change their own levels, and levels may be uploaded in any order.** For any registers, and uploads
that name level, row and column: one to a row and a column of a level that fits changes nothing but what is set aside for
the level, and one that does not fit changes a byte elsewhere, for some data, if there are at least 2^18 bytes. Let now
levels not overlap, and uploads all be to one of them and fit. Then two lists of uploads that agree on each level give
the same bytes. -/
theorem uploads_by_level {u : TextureUnit} (hu : u.FollowsRegisters) (hlinear : u.linearUpload = false) :
    let p := u.currentParams
    (∀ l offset, InLevel p u.mode l offset →
      (Fits p u.mode l offset → ∀ data a, u.memory.index a ∉ u.reservedPlaces l →
        (u.upload offset data).memory.read8 a = u.memory.read8 a) ∧
      (¬ Fits p u.mode l offset → 2 ^ 18 ≤ u.memory.size → ∃ data a, u.memory.index a ∉ u.reservedPlaces l ∧
        (u.upload offset data).memory.read8 a ≠ u.memory.read8 a)) ∧
    ∀ levels : Set (Fin 9), levels.PairwiseDisjoint u.reservedPlaces → ∀ ws ws' : List Upload,
      (∀ w ∈ ws ++ ws', ∃ l ∈ levels, InLevel p u.mode l w.offset ∧ Fits p u.mode l w.offset) →
      (∀ l ∈ levels, ws.filter (Upload.ofLevel u.mode l) = ws'.filter (Upload.ofLevel u.mode l)) →
      ∀ a, (u.uploads ws).memory.read8 a = (u.uploads ws').memory.read8 a := by
  intro p
  have hparams : u.refresh.params = p := params_refresh hu
  have hp : u.refresh.params.Shaped := hparams ▸ TexParams.shaped_derive ..
  rw [← hparams]
  refine ⟨fun l offset hlevel => ⟨fun hfits data a ha => ?_, fun hfits hsize => ?_⟩, ?_⟩
  · rw [upload_eq]
    exact read8_stored_of_notMem hlinear hp hlevel hfits rfl data ha
  · exact exists_changed_of_not_fits hlinear hp hsize hlevel hfits
  · intro levels hdisjoint ws ws' hfit hsame a
    have hfirst := fun w hw => hfit w (List.mem_append_left ws' hw)
    have hsecond := fun w hw => hfit w (List.mem_append_right ws hw)
    by_cases ha : ∃ l ∈ levels, u.memory.index a ∈ u.reservedPlaces l
    · obtain ⟨l, hl, ha⟩ := ha
      rw [read8_uploads_of_mem hlinear hp hdisjoint hfirst hl ha, hsame l hl,
        ← read8_uploads_of_mem hlinear hp hdisjoint hsecond hl ha]
    · have hnone : ∀ l ∈ levels, u.memory.index a ∉ u.reservedPlaces l := fun l hl hmem => ha ⟨l, hl, hmem⟩
      rw [read8_uploads_of_notMem hlinear hp hfirst hnone, read8_uploads_of_notMem hlinear hp hsecond hnone]

/-- uploads to two levels, in both orders -/
theorem uploads_by_level_swapped :
    let u := initial .voodoo2 0 20
    let six : Upload := ⟨0x30180, 0x44332211⟩
    let eight : Upload := ⟨0x40000, 0xAA⟩
    let held : Set (Fin 9) := {l | bit u.refresh.params.lodMask l.val = true}
    (u.FollowsRegisters ∧ u.linearUpload = false) ∧ held.PairwiseDisjoint u.reservedPlaces ∧
      (InLevel u.currentParams u.mode 6 six.offset ∧ Fits u.currentParams u.mode 6 six.offset) ∧
      (InLevel u.currentParams u.mode 8 eight.offset ∧ Fits u.currentParams u.mode 8 eight.offset) ∧
      ∀ a, (u.uploads [six, eight]).memory.read8 a = (u.uploads [eight, six]).memory.read8 a := by
  intro u six eight held
  have hu : u.FollowsRegisters := fun h => absurd h (by decide)
  have hfit : u.memory.index (u.refresh.baseAddress Reg.textureBase) + bytesBefore u.refresh.params u.mode.format 9 ≤
      u.memory.places := by
    rw [Memory.index_eq]
    decide +kernel
  have hdisjoint : held.PairwiseDisjoint u.reservedPlaces := pairwiseDisjoint_reservedPlaces hu (by decide) hfit
  have hsix : InLevel u.currentParams u.mode 6 six.offset ∧ Fits u.currentParams u.mode 6 six.offset :=
    ⟨by constructor <;> decide +kernel, .inl (by decide +kernel)⟩
  have height : InLevel u.currentParams u.mode 8 eight.offset ∧ Fits u.currentParams u.mode 8 eight.offset :=
    ⟨by constructor <;> decide +kernel, .inr (by decide +kernel)⟩
  refine ⟨⟨hu, rfl⟩, hdisjoint, hsix, height, ?_⟩
  refine (uploads_by_level hu rfl).2 held hdisjoint [six, eight] [eight, six] (fun w hw => ?_) (fun l _ => ?_)
  · simp only [List.cons_append, List.nil_append, List.mem_cons, List.not_mem_nil, or_false] at hw
    rcases hw with rfl | rfl | rfl | rfl
    · exact ⟨6, by decide +kernel, hsix⟩
    · exact ⟨8, by decide +kernel, height⟩
    · exact ⟨8, by decide +kernel, height⟩
    · exact ⟨6, by decide +kernel, hsix⟩
  · revert l
    decide +kernel

/-- **An upload to a row of two texels goes on into the next level.** The last row of level 7 ends where level 8 begins.
What the one texel of level 8 holds depends on the order of the uploads. -/
theorem upload_beyond_level :
    let u := initial .voodoo2 0 20
    let seven : Upload := ⟨0x38080, 0x44332211⟩
    let eight : Upload := ⟨0x40000, 0xAA⟩
    (u.FollowsRegisters ∧ u.linearUpload = false) ∧
      (InLevel u.currentParams u.mode 7 seven.offset ∧ InLevel u.currentParams u.mode 8 eight.offset) ∧
      u.memory.index 87380 ∉ u.reservedPlaces 7 ∧ u.memory.index 87380 ∈ u.reservedPlaces 8 ∧
      (u.uploads [eight]).memory.read8 87380 = 0xAA ∧
      (u.uploads [eight, seven]).memory.read8 87380 = 0x33 ∧
      (u.uploads [seven, eight]).memory.read8 87380 = 0xAA := by
  intro u seven eight
  have hu : u.FollowsRegisters := fun h => absurd h (by decide)
  have hlinear : u.linearUpload = false := rfl
  have hplaces : ∀ m : Memory, m.logSize = u.memory.logSize → 4 < m.places := fun m hm => by
    rw [Memory.places, hm]
    decide
  -- the last four places of level 7 end where level 8 begins
  have hoffset : ∀ l : Fin 9, (u.refresh.params.levelStart l).toNat =
      ((u.refresh.baseAddress Reg.textureBase).toNat + bytesBefore u.refresh.params u.refresh.mode.format l.val) %
        u.refresh.memory.places :=
    toNat_levelStart ((params_refresh hu).trans u.currentParams_refresh.symm) (by decide +kernel)
  have hseventh : (87380 : UInt32) = u.refresh.params.levelStart 7 +
      UInt32.ofNat (u.mode.format.bytes * firstTexel u.refresh.params u.mode seven.offset + 2) := by
    rw [← UInt32.toNat_inj, UInt32.toNat_add, hoffset]
    decide +kernel
  have heighth : (87380 : UInt32) = u.refresh.params.levelStart 8 +
      UInt32.ofNat (u.mode.format.bytes * firstTexel u.refresh.params u.mode eight.offset + 0) := by
    rw [← UInt32.toNat_inj, UInt32.toNat_add, hoffset]
    decide +kernel
  have hlevels : InLevel u.currentParams u.mode 7 seven.offset ∧ InLevel u.currentParams u.mode 8 eight.offset := by
    constructor <;> constructor <;> decide +kernel
  have hseven : ∀ m : Memory, m.logSize = u.memory.logSize →
      (u.stored m seven.offset seven.data).read8 87380 = 0x33 := fun m hm => by
    rw [hseventh, read8_stored hlinear hlevels.1.level (hplaces m hm).le seven.data (by decide)]
    decide +kernel
  have height : ∀ m : Memory, m.logSize = u.memory.logSize →
      (u.stored m eight.offset eight.data).read8 87380 = 0xAA := fun m hm => by
    rw [heighth, read8_stored hlinear hlevels.2.level (hplaces m hm).le eight.data (by decide)]
    decide +kernel
  have hends : reservedBytes u.refresh.params u.mode.format 7 = 4 ∧
      u.mode.format.bytes * firstTexel u.refresh.params u.mode seven.offset + 2 = 4 ∧
      u.mode.format.bytes * firstTexel u.refresh.params u.mode eight.offset + 0 = 0 := by decide +kernel
  refine ⟨⟨hu, rfl⟩, hlevels, ?_, ?_, ?_, ?_, ?_⟩
  · rintro ⟨i, hi, heq⟩
    have hi4 : i < 4 := hends.1 ▸ hi
    rw [memory_refresh, hseventh, hends.2.1] at heq
    have hsame := u.memory.index_add_inj _ (hplaces _ rfl) (hi4.trans (hplaces _ rfl)) heq
    omega
  · refine ⟨0, by decide +kernel, ?_⟩
    rw [memory_refresh, heighth, hends.2.2]
  · rw [memory_uploads]
    exact height u.memory rfl
  · rw [memory_uploads]
    exact hseven _ (u.logSize_stored ..)
  · rw [memory_uploads]
    exact height _ (u.logSize_stored ..)

end TextureUnit
end Accel3D
