/-
The cache of decoded modes never changes what is drawn.

The key of a triangle leaves bits of the mode words out, so one entry serves many mode words. None of these bits is read
by a combine unit: a unit is determined by bits 8 to 25 of fbzColorPath, or by bits 12 to 29 of textureMode, and the key
keeps all of them. Every entry of a reachable cache holds the units of its key (`Reachable.decoded`). So the entry that
is found, the entry that is new and the entry that a full cache has no room for all hold the units of the whole words.

Results: `units_of_reachable` (the units of the entry of a triangle); `drawTriangle_direct` (a triangle is drawn as if
there were no cache); `cache_transparent` (two chips that differ in their caches only answer every run alike and stay
so).
-/
import Mathlib.Data.List.Basic
import Accel3D.Proofs.Run

namespace Accel3D

/-! ## The bits that a combine unit reads -/

theorem bit_and (w v : UInt32) (i : Nat) : bit (w &&& v) i = (bit w i && bit v i) := by
  rw [bit, UInt32.toNat_and, Nat.testBit_and]
  rfl

theorem bit_or (w v : UInt32) (i : Nat) : bit (w ||| v) i = (bit w i || bit v i) := by
  rw [bit, UInt32.toNat_or, Nat.testBit_or]
  rfl

theorem bit_of_le (w : UInt32) {i : Nat} (h : 32 ≤ i) : bit w i = false :=
  Nat.testBit_lt_two_pow (Nat.lt_of_lt_of_le w.toNat_lt (Nat.pow_le_pow_right (by decide) h))

/-- fields of one width with the same bits, perhaps at different places -/
theorem field_ext {w v : UInt32} {low low' width : Nat} (h : ∀ i < width, bit w (low + i) = bit v (low' + i)) :
    field w low width = field v low' width := by
  apply Nat.eq_of_testBit_eq
  intro i
  simp only [field, Nat.testBit_mod_two_pow, Nat.testBit_shiftRight]
  by_cases hi : i < width
  · have hb : w.toNat.testBit (low + i) = v.toNat.testBit (low' + i) := h i hi
    rw [hb]
  · simp [hi]

theorem field_congr {w v : UInt32} (low width : Nat) (h : ∀ i, low ≤ i → i < low + width → bit w i = bit v i) :
    field w low width = field v low width :=
  field_ext fun i hi => h (low + i) (by omega) (by omega)

namespace Combine

theorem ofColorPath_congr {w v : UInt32} (h : ∀ i, 8 ≤ i → i < 26 → bit w i = bit v i) :
    ofColorPath w = ofColorPath v := by
  have hf : ∀ low width, 8 ≤ low → low + width ≤ 26 → field w low width = field v low width := by
    intro low width hl hu
    exact field_congr low width fun i h1 h2 => h i (by omega) (by omega)
  simp only [ofColorPath, h 8, h 9, h 13, h 16, h 17, h 18, h 22, h 25, hf 10 3, hf 14 2, hf 19 3, hf 23 2,
    Nat.reduceLeDiff, Nat.reduceLT, Nat.reduceAdd]

theorem ofTextureMode_congr {w v : UInt32} (h : ∀ i, 12 ≤ i → i < 30 → bit w i = bit v i) :
    ofTextureMode w = ofTextureMode v := by
  have hf : ∀ low width, 12 ≤ low → low + width ≤ 30 → field w low width = field v low width := by
    intro low width hl hu
    exact field_congr low width fun i h1 h2 => h i (by omega) (by omega)
  simp only [ofTextureMode, h 12, h 13, h 17, h 20, h 21, h 22, h 26, h 29, hf 14 3, hf 18 2, hf 23 3, hf 27 2,
    Nat.reduceLeDiff, Nat.reduceLT, Nat.reduceAdd]

end Combine

namespace ModeKey

/-- the bits of fbzColorPath that are left out do not reach the unit -/
theorem ofColorPath_reduce (w : UInt32) : Combine.ofColorPath (reduceColorPath w) = Combine.ofColorPath w := by
  have hmask : ∀ i < 26, 8 ≤ i → bit 0xF3FFFFFF i = true := by decide
  apply Combine.ofColorPath_congr
  intro i h1 h2
  rw [reduceColorPath, bit_and, hmask i h2 h1, Bool.and_true]

/-- neither do those of textureMode, nor does the class that stands for the format -/
theorem ofTextureMode_reduce (w : UInt32) : Combine.ofTextureMode (reduceTextureMode w) = Combine.ofTextureMode w := by
  have hmask : ∀ i < 30, 12 ≤ i → bit 0x7FFFFFDF i = true ∧ bit 0xFFFFF0FF i = true := by decide
  have hkind : ∀ i < 30, 12 ≤ i → bit ((0 : UInt32) <<< 8) i = false ∧ bit ((8 : UInt32) <<< 8) i = false ∧
      bit ((10 : UInt32) <<< 8) i = false := by decide
  apply Combine.ofTextureMode_congr
  intro i h1 h2
  obtain ⟨m1, m2⟩ := hmask i h2 h1
  obtain ⟨k0, k8, k10⟩ := hkind i h2 h1
  simp only [reduceTextureMode, bit_or, bit_and, m1, m2, Bool.and_true]
  split_ifs
  · rw [k0, Bool.or_false]
  · rw [k10, Bool.or_false]
  · rw [k8, Bool.or_false]

end ModeKey

/-! ## Reachable caches -/

/-- holding the units decoded from the key -/
structure ModeEntry.Decoded (e : ModeEntry) : Prop where
  color : e.color = Combine.ofColorPath e.key.colorPath
  texture0 : e.texture0 = Combine.ofTextureMode e.key.texture0
  texture1 : e.texture1 = Combine.ofTextureMode e.key.texture1

theorem ModeEntry.decoded_ofKey (k : ModeKey) : (ofKey k).Decoded := ⟨rfl, rfl, rfl⟩

theorem ModeEntry.Decoded.credit (e : ModeEntry) (pixels : Nat) (h : e.Decoded) : (e.credit pixels).Decoded :=
  ⟨h.color, h.texture0, h.texture1⟩

namespace ModeCache

/-- the states of a cache: the empty one, and what looking keys up and counting triangles makes of it -/
inductive Reachable : ModeCache → Prop where
  | empty : Reachable .empty
  | fetch (m : ModeCache) (k : ModeKey) : Reachable m → Reachable (m.fetch k).1
  | credit (m : ModeCache) (k : ModeKey) (pixels : Nat) : Reachable m → Reachable (m.credit k pixels)

def fetchAll (m : ModeCache) (ks : List ModeKey) : ModeCache := ks.foldl (fun m k => (m.fetch k).1) m

theorem Reachable.fetchAll (m : ModeCache) (ks : List ModeKey) (h : m.Reachable) : (m.fetchAll ks).Reachable := by
  induction ks generalizing m with
  | nil => exact h
  | cons k ks ih => exact ih _ (h.fetch m k)

def Decoded (m : ModeCache) : Prop := ∀ i (_ : i < 97), ∀ e ∈ m.buckets[i], e.Decoded

theorem mem_of_takeKey {k : ModeKey} {es : List ModeEntry} {e : ModeEntry} {others : List ModeEntry}
    (h : takeKey k es = some (e, others)) : ∀ x ∈ e :: others, x ∈ es := by
  induction es generalizing others with
  | nil => simp [takeKey] at h
  | cons y ys ih =>
    simp only [takeKey] at h
    split_ifs at h with hy
    · cases h
      exact fun x hx => hx
    · obtain ⟨⟨f, rest⟩, ht, heq⟩ := Option.map_eq_some_iff.1 h
      cases heq
      intro x hx
      have := ih ht x
      simp only [List.mem_cons] at hx this ⊢
      rcases hx with hx | hx | hx
      · exact .inr (this (.inl hx))
      · exact .inl hx
      · exact .inr (this (.inr hx))

theorem decoded_setBucket (m : ModeCache) (i : Fin 97) (es : List ModeEntry) (h : m.Decoded)
    (he : ∀ e ∈ es, e.Decoded) : (m.setBucket i es).Decoded := by
  intro j hj e hmem
  simp only [setBucket, Vector.getElem_set] at hmem
  split_ifs at hmem
  · exact he e hmem
  · exact h j hj e hmem

theorem decoded_fetch (m : ModeCache) (k : ModeKey) (h : m.Decoded) : (m.fetch k).1.Decoded := by
  unfold fetch
  split
  · rename_i e others ht
    exact decoded_setBucket m _ _ h fun x hx => h k.bucket k.bucket.isLt x (mem_of_takeKey ht x hx)
  · split_ifs
    · exact h
    · refine decoded_setBucket m k.bucket _ h fun x hx => ?_
      rcases List.mem_cons.1 hx with rfl | hx
      · exact ModeEntry.decoded_ofKey k
      · exact h k.bucket k.bucket.isLt x hx

theorem decoded_credit (m : ModeCache) (k : ModeKey) (pixels : Nat) (h : m.Decoded) : (m.credit k pixels).Decoded := by
  unfold credit
  split
  · exact h
  · rename_i e rest hb
    have hes : ∀ x ∈ e :: rest, x.Decoded := fun x hx => h k.bucket k.bucket.isLt x (hb ▸ hx)
    split_ifs
    · refine decoded_setBucket m _ _ h fun x hx => ?_
      rcases List.mem_cons.1 hx with rfl | hx
      · exact (hes e List.mem_cons_self).credit e pixels
      · exact hes x (List.mem_cons_of_mem e hx)
    · exact h

/-- every entry of a reachable cache holds the units decoded from its key -/
theorem Reachable.decoded (m : ModeCache) (h : m.Reachable) : m.Decoded := by
  induction h with
  | empty => intro i hi e hmem; simp [ModeCache.empty] at hmem
  | fetch m k _ ih => exact decoded_fetch m k ih
  | credit m k pixels _ ih => exact decoded_credit m k pixels ih

/-- the entry for a key has that key, whether it was there, is new or has no room -/
theorem key_entryFor (m : ModeCache) (k : ModeKey) : (m.entryFor k).key = k := by
  unfold entryFor
  cases he : (m.fetch k).2 with
  | none => rfl
  | some e => exact key_fetch he

theorem decoded_entryFor (m : ModeCache) (k : ModeKey) (h : m.Decoded) : (m.entryFor k).Decoded := by
  unfold entryFor fetch
  split
  · rename_i e others ht
    exact h k.bucket k.bucket.isLt e (mem_of_takeKey ht e List.mem_cons_self)
  · split_ifs
    · exact ModeEntry.decoded_ofKey k
    · exact ModeEntry.decoded_ofKey k

/-- reachable caches agree, whatever they hold -/
theorem agreeing_reachable : Agreeing fun m m' => m.Reachable ∧ m'.Reachable := by
  have hentry : ∀ m k, Reachable m → (m.entryFor k).Decoded := fun m k h => decoded_entryFor m k h.decoded
  refine ⟨?_, ?_, ?_⟩
  · intro m m' k hk
    rcases hk with ⟨h, h'⟩
    rw [(hentry m k h).color, (hentry m' k h').color, key_entryFor, key_entryFor]
  · intro m m' k hk
    rcases hk with ⟨h, h'⟩
    funext i
    simp only [ModeEntry.texture, (hentry m k h).texture0, (hentry m' k h').texture0, (hentry m k h).texture1,
      (hentry m' k h').texture1, key_entryFor]
  · intro m m' k pixels hk
    rcases hk with ⟨h, h'⟩
    exact ⟨(h.fetch m k).credit _ k pixels, (h'.fetch m' k).credit _ k pixels⟩

end ModeCache

namespace Chip

/-! ## Drawing with no cache -/

/-- the current triangle, with the combine units decoded from the whole mode words -/
def directRaster (c : Chip) (n : Nat) (colorBase : UInt32) : Raster :=
  let rules := PixelRules.ofRegisters c.revision c.regs (Combine.ofColorPath (c.regs.get Reg.fbzColorPath))
  { triangle := c.frame.triangle
    stages := (List.range n).reverse.filterMap fun i => do
      let u ← c.textures[i]?
      let base ← u.triangleLod
      return TextureStage.ofUnit u base (Combine.ofTextureMode u.modeWord)
    pipeline := ⟨rules, c.frame.fog, c.frame.surface colorBase⟩
    flip := c.frame.layout.flip rules.frame.flipY }

def drawDirect (c : Chip) : Chip :=
  match c.atCentre.triangleBase with
  | none => c.atCentre
  | some base =>
    let d := c.atCentre.modifyTextures c.textureCount TextureUnit.refreshAll
    d.paintRaster (d.directRaster c.textureCount base)

/-- the chip with an empty cache -/
def uncached (c : Chip) : Chip := c.withModes .empty

theorem uncached_withModes (c : Chip) (m : ModeCache) : (c.withModes m).uncached = c.uncached := rfl

theorem textureCount_le (c : Chip) : c.textureCount ≤ 2 := by
  unfold textureCount
  split_ifs
  · exact Nat.min_le_right _ _
  · exact Nat.zero_le 2

/-- the entry of a triangle holds the units of the whole fbzColorPath and of each active unit's whole textureMode -/
theorem units_of_reachable (c : Chip) (n : Nat) (h : c.modes.Reachable) :
    (c.modes.entryFor (c.modeKey n)).color = Combine.ofColorPath (c.regs.get Reg.fbzColorPath) ∧
      ∀ i u, i < n → i < 2 → c.textures[i]? = some u →
        (c.modes.entryFor (c.modeKey n)).texture i = Combine.ofTextureMode u.modeWord := by
  have he : (c.modes.entryFor (c.modeKey n)).Decoded := ModeCache.decoded_entryFor _ _ h.decoded
  refine ⟨?_, fun i u hn h2 hu => ?_⟩
  · rw [he.color, ModeCache.key_entryFor]
    exact ModeKey.ofColorPath_reduce _
  · obtain rfl | rfl : i = 0 ∨ i = 1 := by omega
    · show (c.modes.entryFor _).texture0 = _
      rw [he.texture0, ModeCache.key_entryFor]
      simp only [modeKey, ModeKey.ofModes, hn, hu, if_true, Option.map_some, Option.getD_some]
      exact ModeKey.ofTextureMode_reduce _
    · show (c.modes.entryFor _).texture1 = _
      rw [he.texture1, ModeCache.key_entryFor]
      simp only [modeKey, ModeKey.ofModes, hn, hu, if_true, Option.map_some, Option.getD_some]
      exact ModeKey.ofTextureMode_reduce _

theorem currentRaster_direct (c : Chip) (n : Nat) (base : UInt32) (hn : n ≤ 2) (h : c.modes.Reachable) :
    c.currentRaster n base = c.directRaster n base := by
  obtain ⟨hcolor, htexture⟩ := units_of_reachable c n h
  have hstages : c.textureStages n (c.modes.entryFor (c.modeKey n)) = (c.directRaster n base).stages := by
    apply List.filterMap_congr
    intro i hi
    have hi : i < n := by simpa using hi
    cases hu : c.textures[i]? with
    | none => rfl
    | some u =>
      cases hb : u.triangleLod with
      | none => simp [hb]
      | some lod => simp [hb, htexture i u hi (by omega) hu]
  simp only [currentRaster, raster, hcolor, hstages]
  rfl

theorem uncached_apply {f : Chip → Chip} (hf : ∀ c h m, f (withSide c h m) = (f c).withSide h m) (c : Chip) :
    (f c).uncached = f c.uncached := by
  have hself : f c = (f c).withSide c.host c.modes := hf c c.host c.modes
  calc (f c).uncached
      = ((f c).withSide c.host c.modes).uncached := by rw [← hself]
    _ = (f c).withSide c.host .empty := rfl
    _ = f c.uncached := (hf c c.host .empty).symm

theorem rasterize_direct (c : Chip) (n : Nat) (base : UInt32) (hn : n ≤ 2) (h : c.modes.Reachable) :
    (c.rasterize n base).uncached = c.uncached.paintRaster (c.directRaster n base) := by
  rw [rasterize_eq, currentRaster_direct c n base hn h]
  generalize c.directRaster n base = r
  exact uncached_apply (f := fun c => c.paintRaster r) (fun c h m => paintRaster_withSide c h m r) (c.withModes _)

/-- a triangle is drawn as if there were no cache -/
theorem drawTriangle_direct (c : Chip) (h : c.modes.Reachable) : c.drawTriangle.uncached = c.uncached.drawDirect := by
  have hc : c.uncached.atCentre = c.atCentre.uncached := (uncached_apply atCentre_withSide c).symm
  have hm : c.atCentre.modes = c.modes := modes_of_commute atCentre_withSide c
  rw [drawTriangle_eq, drawDirect, hc]
  show _ = match c.atCentre.triangleBase with
    | none => _
    | some base => _
  cases c.atCentre.triangleBase with
  | none => rfl
  | some base =>
    exact rasterize_direct (c.atCentre.modifyTextures c.textureCount TextureUnit.refreshAll) c.textureCount base
      (textureCount_le c) (hm ▸ h)

/-! ## Chips that differ in their caches only -/

/-- equal but for the caches, both of them reachable -/
structure CacheTwin (c d : Chip) : Prop where
  uncached : c.uncached = d.uncached
  left : c.modes.Reachable
  right : d.modes.Reachable

namespace CacheTwin

variable {c d : Chip}

theorem twin (t : CacheTwin c d) : Twin (fun m m' => m.Reachable ∧ m'.Reachable) c.host c d := by
  refine ⟨d.modes, ⟨t.left, t.right⟩, ?_⟩
  calc d = d.uncached.withModes d.modes := rfl
    _ = c.uncached.withModes d.modes := by rw [t.uncached]
    _ = c.withSide c.host d.modes := rfl

theorem of_twin (t : Twin (fun m m' => m.Reachable ∧ m'.Reachable) c.host c d) : CacheTwin c d := by
  obtain ⟨m, ⟨h, h'⟩, rfl⟩ := t
  exact ⟨rfl, h, h'⟩

theorem execute (t : CacheTwin c d) (w : RegisterWrite) : CacheTwin (c.execute w) (d.execute w) := by
  apply of_twin
  rw [host_execute]
  exact execute_twin ModeCache.agreeing_reachable t.twin w

theorem apply {f : Chip → Chip} (t : CacheTwin c d) (hf : ∀ c h m, f (withSide c h m) = (f c).withSide h m) :
    CacheTwin (f c) (f d) := by
  refine ⟨?_, ?_, ?_⟩
  · rw [uncached_apply hf, uncached_apply hf, t.uncached]
  · rw [modes_of_commute hf]
    exact t.left
  · rw [modes_of_commute hf]
    exact t.right

theorem applyHost {f : Chip → Chip} (t : CacheTwin c d) (hf : ∀ c m, f (withModes c m) = (f c).withModes m)
    (hm : ∀ c, (f c).modes = c.modes) : CacheTwin (f c) (f d) := by
  refine ⟨?_, hm c ▸ t.left, hm d ▸ t.right⟩
  have h := congrArg f t.uncached
  rwa [Chip.uncached, Chip.uncached, hf, hf] at h

theorem withQueue (t : CacheTwin c d) (q : WriteQueue) : CacheTwin (c.withQueue q) (d.withQueue q) :=
  t.applyHost (f := fun c => c.withQueue q) (fun _ _ => rfl) fun _ => rfl

theorem congr {α : Type} (t : CacheTwin c d) (f : Chip → α) (hf : ∀ c, f (Chip.uncached c) = f c) : f c = f d := by
  rw [← hf c, t.uncached, hf]

theorem writes (t : CacheTwin c d) (ws : List RegisterWrite) :
    CacheTwin (ws.foldl Chip.execute c) (ws.foldl Chip.execute d) := by
  induction ws generalizing c d with
  | nil => exact t
  | cons w ws ih => exact ih (t.execute w)

theorem flush (t : CacheTwin c d) : CacheTwin c.flush d.flush := by
  rw [flush_eq, flush_eq, t.congr Chip.queue fun _ => rfl]
  exact (t.writes _).withQueue _

theorem enqueue (t : CacheTwin c d) (w : RegisterWrite) : CacheTwin (c.enqueue w) (d.enqueue w) := by
  have hpush : ∀ {c d : Chip}, CacheTwin c d → CacheTwin (c.withQueue (c.queue.push w)) (d.withQueue (d.queue.push w)) := by
    intro c d t
    rw [t.congr Chip.queue fun _ => rfl]
    exact t.withQueue _
  have hroom : CacheTwin (if c.queue.isFull then c.flush else c) (if d.queue.isFull then d.flush else d) := by
    rw [t.congr Chip.queue fun _ => rfl]
    cases d.queue.isFull with
    | true => exact t.flush
    | false => exact t
  exact hpush hroom

theorem writeRegister (t : CacheTwin c d) (offset data : UInt32) :
    CacheTwin (c.writeRegister offset data) (d.writeRegister offset data) := by
  simp only [Chip.writeRegister]
  rw [t.congr Chip.revision fun _ => rfl, t.congr Chip.config fun _ => rfl]
  split_ifs
  · exact t
  · exact t.enqueue _
  · exact t.flush.execute _

theorem readRegister (t : CacheTwin c d) (offset : UInt32) :
    (c.readRegister offset).2 = (d.readRegister offset).2 ∧
      CacheTwin (c.readRegister offset).1 (d.readRegister offset).1 := by
  simp only [Chip.readRegister]
  rw [t.congr Chip.revision fun _ => rfl]
  split_ifs
  · exact ⟨t.flush.congr (fun c => c.registerValue (Reg.ofAddress offset)) fun _ => rfl, t.flush⟩
  · exact ⟨rfl, t⟩

/-- a call reads the same value from two chips that differ in their caches only, and they stay so -/
theorem step (t : CacheTwin c d) (call : Call) :
    (c.step call).2 = (d.step call).2 ∧ CacheTwin (c.step call).1 (d.step call).1 := by
  have tf : CacheTwin c.flush d.flush := t.flush
  cases call with
  | writeRegister offset data => exact ⟨rfl, t.writeRegister offset data⟩
  | readRegister offset =>
    obtain ⟨hv, ht⟩ := t.readRegister offset
    exact ⟨congrArg some hv, ht⟩
  | writeTexture offset data =>
    refine ⟨rfl, ?_⟩
    exact tf.apply (f := fun c => c.modifyTexture (field offset 19 2) fun u => u.upload offset data) fun _ _ _ => rfl
  | writeLinear offset data byteMask =>
    refine ⟨rfl, ?_⟩
    exact tf.apply (f := fun c => c.linearWrite offset data byteMask) fun c h m =>
      linearWrite_withSide c h m offset data byteMask
  | readLinear offset => exact ⟨congrArg some (tf.congr (fun c => c.linearRead offset) fun _ => rfl), tf⟩
  | retrace =>
    refine ⟨rfl, ?_⟩
    exact tf.applyHost (f := fun c => c.modifyFrame fun f => f.retrace c.overlay) (fun _ _ => rfl) fun _ => rfl
  | endRetrace => exact ⟨rfl, t.applyHost (f := Chip.endRetrace) (fun _ _ => rfl) fun _ => rfl⟩
  | flush => exact ⟨rfl, tf⟩

theorem run (t : CacheTwin c d) (calls : List Call) :
    (c.runCalls calls).2 = (d.runCalls calls).2 ∧ CacheTwin (c.runCalls calls).1 (d.runCalls calls).1 :=
  runCalls_simulation (fun _ _ call t => step t call) c d t calls

end CacheTwin

theorem modes_reachable (c : Chip) (h : c.Reachable) : c.modes.Reachable := by
  obtain ⟨config, first, calls, hmake, rfl⟩ := h
  obtain ⟨-, rfl⟩ := make_eq_ok.1 hmake
  have t : CacheTwin (initial config) (initial config) := ⟨rfl, .empty, .empty⟩
  exact (t.run calls).2.left

/-- **The cache never changes what is drawn.** Two chips that differ in their caches only read the same values in every
run and differ in their caches only ever after; and a triangle command, in any state with a reachable cache, takes the
combine units decoded from the whole mode words and does what it would do without a cache. -/
theorem cache_transparent (c d : Chip) (hc : c.modes.Reachable) (hd : d.modes.Reachable) (h : c.uncached = d.uncached)
    (calls : List Call) :
    (c.runCalls calls).2 = (d.runCalls calls).2 ∧
      (c.runCalls calls).1.uncached = (d.runCalls calls).1.uncached ∧
      (c.runCalls calls).1.modes.Reachable ∧ (d.runCalls calls).1.modes.Reachable ∧
      ∀ e : Chip, e.modes.Reachable →
        (∀ base, e.currentRaster e.textureCount base = e.directRaster e.textureCount base) ∧
        e.drawTriangle.uncached = e.uncached.drawDirect := by
  obtain ⟨hv, t⟩ := CacheTwin.run ⟨h, hc, hd⟩ calls
  refine ⟨hv, t.uncached, t.left, t.right, fun e he => ⟨fun base => ?_, drawTriangle_direct e he⟩⟩
  exact currentRaster_direct e _ base (textureCount_le e) he

/-- an empty cache and one that 1024 other keys fill, a triangle of 120 pixels, and its pixels read -/
theorem cache_transparent_full :
    ∃ full : ModeCache,
      full = ModeCache.empty.fetchAll ((List.range 1024).map fun i => ⟨0, UInt32.ofNat i, 0, 0, 0, 0⟩) ∧
      let c : Chip := initial ChipConfig.standard
      let d : Chip := c.withModes full
      let calls : List Call := [.writeRegister 0x41 0x100, .writeRegister 0x44 0x200, .writeRegister 0x46 0x400,
        .writeRegister 0x47 0x400, .writeRegister 0x04 0x100, .writeRegister 0x07 0x100, .writeRegister 0x20 0,
        .readRegister 0x57, .readLinear 0]
      c.modes.Reachable ∧ d.modes.Reachable ∧ c.uncached = d.uncached ∧
        (c.runCalls calls).2 = (d.runCalls calls).2 ∧
        (c.runCalls calls).1.uncached = (d.runCalls calls).1.uncached ∧
        d.currentRaster d.textureCount 0 = d.directRaster d.textureCount 0 ∧
        d.drawTriangle.uncached = d.uncached.drawDirect := by
  refine ⟨_, rfl, ?_⟩
  generalize hf : ModeCache.empty.fetchAll _ = full
  have hfull : full.Reachable := hf ▸ ModeCache.Reachable.empty.fetchAll _ _
  intro c d calls
  have hsame : c.uncached = d.uncached := (uncached_withModes c full).symm
  obtain ⟨hv, hu, -, -, hdraw⟩ := cache_transparent c d .empty hfull hsame calls
  obtain ⟨hraster, htriangle⟩ := hdraw d hfull
  exact ⟨.empty, hfull, hsame, hv, hu, hraster 0, htriangle⟩

end Chip
end Accel3D
